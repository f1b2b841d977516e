import Rdmalib2.Shared.Run

set_option autoImplicit false

/-!
# Runs that refine runs

A run shows what its actions show one after the other, the last and failing one included. One
machine refines another when what its runs show is shown by runs of the other, where an action of
the one may be any number of actions of the other.
-/

namespace Shared

universe u v w

variable {σ τ : Type u} {α β : Type v} {ε δ : Type w} {ω : Type v}

def collected {ω : Type v} (step : σ → α → Except ε σ) (shows : σ → α → List ω) :
    σ → List α → List ω
  | _, [] => []
  | s, a :: as =>
      shows s a ++
        match step s a with
        | .ok next => collected step shows next as
        | .error _ => []

section collected

variable {step : σ → α → Except ε σ} {shows : σ → α → List ω} {s mid next : σ} {a : α}

theorem collected_cons_ok (as : List α) (taken : step s a = .ok next) :
    collected step shows s (a :: as) = shows s a ++ collected step shows next as := by
  rw [collected, taken]

theorem collected_cons_error (as : List α) {e : ε} (stopped : step s a = .error e) :
    collected step shows s (a :: as) = shows s a := by
  rw [collected, stopped, List.append_nil]

theorem collected_singleton (step : σ → α → Except ε σ) (shows : σ → α → List ω) (s : σ) (a : α) :
    collected step shows s [a] = shows s a := by
  cases taken : step s a with
  | error e => exact collected_cons_error [] taken
  | ok next => exact (collected_cons_ok [] taken).trans (List.append_nil _)

theorem collected_append {first : List α} (rest : List α) (ran : run step s first = .ok mid) :
    collected step shows s (first ++ rest) =
      collected step shows s first ++ collected step shows mid rest := by
  induction first generalizing s with
  | nil =>
    obtain rfl := Except.ok.inj ran
    rfl
  | cons a as ih =>
    cases taken : step s a with
    | error e => simp [run, taken] at ran
    | ok next =>
      rw [run_cons_ok step as taken] at ran
      rw [List.cons_append, collected_cons_ok _ taken, collected_cons_ok _ taken, ih ran,
        List.append_assoc]

/-- What every action shows while an invariant holds, a run shows. -/
theorem forall_collected {inv : σ → Prop} {p : ω → Prop}
    (kept : ∀ s a next, inv s → step s a = .ok next → inv next)
    (shown : ∀ s a, inv s → ∀ item ∈ shows s a, p item) (as : List α) (start : inv s) :
    ∀ item ∈ collected step shows s as, p item := by
  induction as generalizing s with
  | nil =>
    intro item listed
    cases listed
  | cons a as ih =>
    cases taken : step s a with
    | error e =>
      rw [collected_cons_error as taken]
      exact shown s a start
    | ok next =>
      rw [collected_cons_ok as taken]
      exact List.forall_mem_append.mpr ⟨shown s a start, ih (kept s a next start taken)⟩

end collected

/-- What one allowed action does to the first machine, the actions it stands for do to the second,
and they show the same. -/
structure Refines (step : σ → α → Except ε σ) (step' : τ → β → Except δ τ)
    (shows : σ → α → List ω) (shows' : τ → β → List ω) (inv : σ → Prop) (allowed : σ → α → Prop)
    (abstract : σ → τ) (acts : σ → α → List β) : Prop where
  kept : ∀ {s a next}, inv s → allowed s a → step s a = .ok next → inv next
  taken : ∀ {s a next}, inv s → allowed s a → step s a = .ok next →
    run step' (abstract s) (acts s a) = .ok (abstract next)
  shown : ∀ {s a}, inv s → allowed s a →
    shows s a = collected step' shows' (abstract s) (acts s a)

section refines

variable {step : σ → α → Except ε σ} {step' : τ → β → Except δ τ} {shows : σ → α → List ω}
  {shows' : τ → β → List ω} {inv : σ → Prop} {allowed : σ → α → Prop} {abstract : σ → τ}
  {acts : σ → α → List β} {s last : σ} {as : List α}

theorem Refines.run_ok (refines : Refines step step' shows shows' inv allowed abstract acts)
    (always : Always step allowed s as) (start : inv s) (ran : run step s as = .ok last) :
    run step' (abstract s) (collected step acts s as) = .ok (abstract last) := by
  induction as generalizing s with
  | nil =>
    obtain rfl := Except.ok.inj ran
    rfl
  | cons a as ih =>
    obtain ⟨here, later⟩ := always
    cases taken : step s a with
    | error e => simp [run, taken] at ran
    | ok next =>
      rw [run_cons_ok step as taken] at ran
      rw [collected_cons_ok _ taken]
      have rest := ih (later next taken) (refines.kept start here taken) ran
      exact (run_append_ok step').mpr ⟨abstract next, refines.taken start here taken, rest⟩

/-- Whether it goes to the end or stops, the first machine shows what the second does. -/
theorem Refines.run_shows (refines : Refines step step' shows shows' inv allowed abstract acts)
    (always : Always step allowed s as) (start : inv s) :
    collected step shows s as =
      collected step' shows' (abstract s) (collected step acts s as) := by
  induction as generalizing s with
  | nil => rfl
  | cons a as ih =>
    obtain ⟨here, later⟩ := always
    cases taken : step s a with
    | error e =>
      rw [collected_cons_error _ taken, collected_cons_error _ taken]
      exact refines.shown start here
    | ok next =>
      rw [collected_cons_ok _ taken, collected_cons_ok _ taken,
        collected_append _ (refines.taken start here taken), ← refines.shown start here,
        ih (later next taken) (refines.kept start here taken)]

end refines

end Shared
