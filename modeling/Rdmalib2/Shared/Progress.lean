import Rdmalib2.Shared.Run

set_option autoImplicit false

/-!
# Machines that run down

A machine whose steps spend a budget takes no more steps than it can pay for, and it can be run
until no action of a given kind is left.
-/

namespace Shared

universe u v w

variable {σ : Type u} {α : Type v} {ε : Type w} {step : σ → α → Except ε σ} {inv : σ → Prop}
  {budget : σ → Nat}

/-- What every action of a kind keeps, a run of such actions keeps. -/
theorem run_invariant_among (step : σ → α → Except ε σ) (allowed : α → Prop) (inv : σ → Prop)
    (kept : ∀ s a next, allowed a → inv s → step s a = .ok next → inv next) {s last : σ}
    (as : List α) (all : ∀ a ∈ as, allowed a) (start : inv s) (ran : run step s as = .ok last) :
    inv last := by
  induction as generalizing s with
  | nil =>
    obtain rfl : s = last := by simpa using ran
    exact start
  | cons a as ih =>
    obtain ⟨here, later⟩ := List.forall_mem_cons.mp all
    cases taken : step s a with
    | error e => simp [run, taken] at ran
    | ok next =>
      rw [run_cons_ok step as taken] at ran
      exact ih later (kept s a next here start taken) ran

/-- Every step keeps the invariant and costs something. -/
structure Spends (step : σ → α → Except ε σ) (inv : σ → Prop) (budget : σ → Nat) : Prop where
  kept : ∀ s a next, inv s → step s a = .ok next → inv next
  less : ∀ s a next, inv s → step s a = .ok next → budget next < budget s

theorem Spends.run_length (spends : Spends step inv budget) {s last : σ} (as : List α)
    (start : inv s) (ran : run step s as = .ok last) : as.length + budget last ≤ budget s := by
  induction as generalizing s with
  | nil =>
    obtain rfl : s = last := by simpa using ran
    simp
  | cons a as ih =>
    cases taken : step s a with
    | error e => simp [run, taken] at ran
    | ok next =>
      rw [run_cons_ok step as taken] at ran
      have later := ih (spends.kept s a next start taken) ran
      have cost := spends.less s a next start taken
      rw [List.length_cons]
      omega

-- No action of this kind can be taken.
def Exhausted (step : σ → α → Except ε σ) (allowed : α → Prop) (s : σ) : Prop :=
  ∀ a, allowed a → ∀ next, step s a ≠ .ok next

theorem Spends.run_exhausts (spends : Spends step inv budget) (allowed : α → Prop) {s : σ}
    (start : inv s) :
    ∃ as last, (∀ a ∈ as, allowed a) ∧ run step s as = .ok last ∧ Exhausted step allowed last := by
  induction cost : budget s using Nat.strongRecOn generalizing s with
  | ind n ih =>
    by_cases dead : Exhausted step allowed s
    · exact ⟨[], s, by simp, rfl, dead⟩
    · simp only [Exhausted, not_forall, not_not] at dead
      obtain ⟨a, fits, next, taken⟩ := dead
      have less := spends.less s a next start taken
      obtain ⟨as, last, all, ran, ended⟩ :=
        ih (budget next) (by omega) (spends.kept s a next start taken) rfl
      refine ⟨a :: as, last, ?_, (run_cons_ok step as taken).trans ran, ended⟩
      exact List.forall_mem_cons.mpr ⟨fits, all⟩

end Shared
