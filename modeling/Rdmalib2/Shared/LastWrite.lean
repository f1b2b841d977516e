import Rdmalib2.Shared.Run

set_option autoImplicit false

/-!
# Last writes

A slot of a state that actions either write or leave alone holds what was last written to it.
-/

namespace Shared

universe u v w x

variable {σ : Type u} {α : Type v} {ε : Type w} {β : Type x}

def lastWrite (writes : α → Option β) (actions : List α) : Option β :=
  (actions.filterMap writes).getLast?

theorem lastWrite_cons (writes : α → Option β) (a : α) (as : List α) :
    lastWrite writes (a :: as) = (lastWrite writes as).or (writes a) := by
  cases wrote : writes a with
  | none => simp [lastWrite, wrote]
  | some value =>
    cases later : (as.filterMap writes).getLast? <;>
      simp [lastWrite, wrote, later, List.getLast?_cons]

theorem lastWrite_eq_none {writes : α → Option β} {actions : List α} :
    lastWrite writes actions = none ↔ ∀ a ∈ actions, writes a = none := by
  simp [lastWrite]

theorem exists_of_lastWrite {writes : α → Option β} {actions : List α} {value : β}
    (wrote : lastWrite writes actions = some value) : ∃ a ∈ actions, writes a = some value :=
  List.mem_filterMap.mp (List.mem_of_getLast? wrote)

theorem run_lastWrite (step : σ → α → Except ε σ) (slot : σ → β) (writes : α → Option β)
    (wrote : ∀ s a next, step s a = .ok next → slot next = (writes a).getD (slot s))
    {s last : σ} (as : List α) (ran : run step s as = .ok last) :
    slot last = (lastWrite writes as).getD (slot s) := by
  induction as generalizing s with
  | nil =>
    obtain rfl : s = last := by simpa using ran
    rfl
  | cons a as ih =>
    cases taken : step s a with
    | error e => simp [run, taken] at ran
    | ok next =>
      rw [run_cons_ok step as taken] at ran
      rw [ih ran, wrote s a next taken, lastWrite_cons]
      cases lastWrite writes as <;> rfl

end Shared
