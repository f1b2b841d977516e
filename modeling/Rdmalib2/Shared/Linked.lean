import Mathlib.Data.List.Basic

set_option autoImplicit false

/-! # Linked lists -/

namespace Shared

universe u

variable {α : Type u}

/-- Following `next` from a pointer visits exactly these nodes and ends in null. -/
inductive Follows (next : α → Option α) : Option α → List α → Prop where
  | done : Follows next none []
  | step {node : α} {rest : List α} (later : Follows next (next node) rest) :
      Follows next (some node) (node :: rest)

-- Where a walk ends at its first node, that node is the whole list.
theorem follows_of_last {next : α → Option α} {node : α} (last : next node = none)
    (nodes : List α) : Follows next (some node) nodes ↔ nodes = [node] := by
  constructor
  · intro walk
    cases walk with
    | step later =>
      rw [last] at later
      cases later
      rfl
  · rintro rfl
    refine .step ?_
    rw [last]
    exact .done

end Shared
