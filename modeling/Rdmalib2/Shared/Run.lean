import Mathlib.Data.List.Basic
import Mathlib.Data.List.Monad

set_option autoImplicit false

/-!
# Runs of a machine that may stop

A machine takes one action at a time and may stop with an error. A property of single
actions is lifted to whole runs by `Always`, which ranges over every action of a run at
the state the action is taken from, the last and failing one included.
-/

namespace Shared

universe u v w

variable {σ : Type u} {α : Type v} {ε : Type w}

-- Take the actions in order; the first error ends the run.
def run (step : σ → α → Except ε σ) : σ → List α → Except ε σ
  | s, [] => .ok s
  | s, a :: as =>
      match step s a with
      | .ok next => run step next as
      | .error e => .error e

@[simp] theorem run_nil (step : σ → α → Except ε σ) (s : σ) : run step s [] = .ok s := rfl

theorem run_cons_ok (step : σ → α → Except ε σ) {s next : σ} {a : α} (as : List α)
    (taken : step s a = .ok next) : run step s (a :: as) = run step next as := by
  simp [run, taken]

theorem run_append_ok (step : σ → α → Except ε σ) {s last : σ} {first rest : List α} :
    run step s (first ++ rest) = .ok last ↔
      ∃ mid, run step s first = .ok mid ∧ run step mid rest = .ok last := by
  induction first generalizing s with
  | nil => simp
  | cons a as ih =>
    cases taken : step s a with
    | error e => simp [run, taken]
    | ok next => rw [List.cons_append, run_cons_ok step _ taken, run_cons_ok step _ taken, ih]

/-- Every action of the run satisfies `p` at the state it is taken from. -/
def Always (step : σ → α → Except ε σ) (p : σ → α → Prop) : σ → List α → Prop
  | _, [] => True
  | s, a :: as => p s a ∧ ∀ next, step s a = .ok next → Always step p next as

instance decidableAlways (step : σ → α → Except ε σ) (p : σ → α → Prop)
    [∀ s a, Decidable (p s a)] : ∀ s as, Decidable (Always step p s as)
  | _, [] => .isTrue trivial
  | s, a :: as =>
      match taken : step s a with
      | .error _ => decidable_of_iff (p s a) (by simp [Always, taken])
      | .ok next =>
          have := decidableAlways step p next as
          decidable_of_iff (p s a ∧ Always step p next as) (by simp [Always, taken])

/-- What every step keeps, a run keeps. -/
theorem run_invariant (step : σ → α → Except ε σ) (inv : σ → Prop)
    (kept : ∀ s a next, inv s → step s a = .ok next → inv next)
    {s last : σ} (as : List α) (start : inv s) (ran : run step s as = .ok last) : inv last := by
  induction as generalizing s with
  | nil =>
    obtain rfl : s = last := by simpa using ran
    exact start
  | cons a as ih =>
    cases taken : step s a with
    | error e => simp [run, taken] at ran
    | ok next =>
      rw [run_cons_ok step as taken] at ran
      exact ih (kept s a next start taken) ran

/-- A run that stops does so at one action, after a run that does not. -/
theorem run_stops (step : σ → α → Except ε σ) {s : σ} {e : ε} (as : List α)
    (stopped : run step s as = .error e) :
    ∃ first mid a rest, as = first ++ a :: rest ∧ run step s first = .ok mid ∧
      step mid a = .error e := by
  induction as generalizing s with
  | nil => cases stopped
  | cons a as ih =>
    cases taken : step s a with
    | error failure =>
      rw [run, taken] at stopped
      obtain rfl := Except.error.inj stopped
      exact ⟨[], s, a, as, rfl, rfl, taken⟩
    | ok next =>
      rw [run_cons_ok step as taken] at stopped
      obtain ⟨first, mid, last, rest, rfl, ran, ends⟩ := ih stopped
      exact ⟨a :: first, mid, last, rest, rfl, (run_cons_ok step first taken).trans ran, ends⟩

/-- Two properties of actions agree along a run when they agree wherever an invariant holds
and the actions that have the second one keep that invariant. -/
theorem always_congr (step : σ → α → Except ε σ) (inv : σ → Prop) (p q : σ → α → Prop)
    (same : ∀ s a, inv s → (p s a ↔ q s a))
    (kept : ∀ s a next, inv s → q s a → step s a = .ok next → inv next)
    {s : σ} (as : List α) (start : inv s) : Always step p s as ↔ Always step q s as := by
  induction as generalizing s with
  | nil => rfl
  | cons a as ih =>
    constructor
    · rintro ⟨here, later⟩
      have holds := (same s a start).mp here
      exact ⟨holds, fun next taken => (ih (kept s a next start holds taken)).mp (later next taken)⟩
    · rintro ⟨holds, later⟩
      refine ⟨(same s a start).mpr holds, fun next taken => ?_⟩
      exact (ih (kept s a next start holds taken)).mpr (later next taken)

theorem Always.and {step : σ → α → Except ε σ} {p q : σ → α → Prop} {s : σ} {as : List α} :
    Always step (fun s a => p s a ∧ q s a) s as ↔ Always step p s as ∧ Always step q s as := by
  induction as generalizing s with
  | nil => exact ⟨fun _ => ⟨trivial, trivial⟩, fun _ => trivial⟩
  | cons a as ih =>
    simp only [Always, ih]
    exact ⟨fun ⟨⟨p, q⟩, later⟩ => ⟨⟨p, fun next taken => (later next taken).1⟩,
        q, fun next taken => (later next taken).2⟩,
      fun ⟨⟨p, first⟩, q, second⟩ => ⟨⟨p, q⟩, fun next taken =>
        ⟨first next taken, second next taken⟩⟩⟩

/-- What the actions that have a property keep, a run of such actions keeps. -/
theorem Always.invariant {step : σ → α → Except ε σ} {q : σ → α → Prop} {inv : σ → Prop}
    (kept : ∀ s a next, inv s → q s a → step s a = .ok next → inv next) {s last : σ}
    {as : List α} (always : Always step q s as) (start : inv s)
    (ran : run step s as = .ok last) : inv last := by
  induction as generalizing s with
  | nil =>
    obtain rfl : s = last := by simpa using ran
    exact start
  | cons a as ih =>
    obtain ⟨here, later⟩ := always
    cases taken : step s a with
    | error e => simp [run, taken] at ran
    | ok next =>
      rw [run_cons_ok step as taken] at ran
      exact ih (later next taken) (kept s a next start here taken) ran

/-- When a step establishes an invariant exactly under `q`, a run does so step by step. -/
theorem always_establishes (step : σ → α → Except ε σ) (inv : σ → Prop) (q : σ → α → Prop)
    (exactly : ∀ s a, inv s → ((∀ next, step s a = .ok next → inv next) ↔ q s a))
    {s : σ} (as : List α) (start : inv s) :
    Always step (fun s a => ∀ next, step s a = .ok next → inv next) s as ↔
      Always step q s as :=
  always_congr step inv _ q exactly
    (fun s a next here holds taken => (exactly s a here).mpr holds next taken) as start

end Shared
