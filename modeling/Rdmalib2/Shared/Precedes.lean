import Mathlib.Data.List.Basic
import Mathlib.Data.List.Infix

set_option autoImplicit false

/-!
# The order of a log

A log only grows at its end, so what one entry found before it stays before it.
-/

namespace Shared

universe u

variable {α : Type u} {log longer : List α} {first second : α}

/-- The second entry was logged when the first one had been. -/
def Precedes (log : List α) (first second : α) : Prop :=
  ∃ before after, log = before ++ second :: after ∧ first ∈ before

theorem Precedes.mono (ordered : Precedes log first second) (grows : log <+: longer) :
    Precedes longer first second := by
  obtain ⟨before, after, rfl, earlier⟩ := ordered
  obtain ⟨rest, rfl⟩ := grows
  exact ⟨before, after ++ rest, by simp, earlier⟩

theorem precedes_push (earlier : first ∈ log) : Precedes (log ++ [second]) first second :=
  ⟨log, [], rfl, earlier⟩

end Shared
