import Mathlib.Data.List.Basic

set_option autoImplicit false

/-!
# Computations that ask their surroundings

A trial records the answers it was given, in order, and has a result unless it is still running.
It heeds its surroundings when an answer that counts as a failure shows in how it ends.
-/

namespace Shared

structure Trial (ρ ε α : Type) where
  answers : List ρ
  result : Option (Except ε α)

namespace Trial

variable {ρ ε α β : Type}

def ok (value : α) : Trial ρ ε α := { answers := [], result := some (.ok value) }

def fail (e : ε) : Trial ρ ε α := { answers := [], result := some (.error e) }

-- The answer is not looked at here.
def asked (answer : ρ) : Trial ρ ε Unit := { answers := [answer], result := some (.ok ()) }

def andThen (first : Trial ρ ε α) (rest : α → Trial ρ ε β) : Trial ρ ε β :=
  match first.result with
  | some (.ok value) =>
      { answers := first.answers ++ (rest value).answers, result := (rest value).result }
  | some (.error e) => { answers := first.answers, result := some (.error e) }
  | none => { answers := first.answers, result := none }

instance : Monad (Trial ρ ε) where
  pure := ok
  bind := andThen

section bind

variable {first : Trial ρ ε α} {rest : α → Trial ρ ε β}

theorem bind_of_error {e : ε} (ended : first.result = some (.error e)) :
    (first >>= rest).result = some (.error e) := by
  change (first.andThen rest).result = _
  rw [andThen, ended]

theorem bind_of_ok {value : α} (ended : first.result = some (.ok value)) :
    (first >>= rest).result = (rest value).result := by
  change (first.andThen rest).result = _
  rw [andThen, ended]

theorem bind_result_ok {value : β} :
    (first >>= rest).result = some (.ok value) ↔
      ∃ mid, first.result = some (.ok mid) ∧ (rest mid).result = some (.ok value) := by
  change (first.andThen rest).result = _ ↔ _
  unfold andThen
  split
  next mid ended => simp [ended]
  next e ended => simp [ended]
  next ended => simp [ended]

theorem mem_bind {answer : ρ} (given : answer ∈ (first >>= rest).answers) :
    answer ∈ first.answers ∨
      ∃ value, first.result = some (.ok value) ∧ answer ∈ (rest value).answers := by
  change answer ∈ (first.andThen rest).answers at given
  unfold andThen at given
  split at given
  next value ended => exact (List.mem_append.mp given).imp_right fun after => ⟨value, ended, after⟩
  next => exact .inl given
  next => exact .inl given

end bind

/-- A failure among the answers ends the trial with an error that belongs to it. -/
def Heeds (failed : ρ → Prop) (ends : ρ → ε → Prop) (trial : Trial ρ ε α) : Prop :=
  ∀ answer ∈ trial.answers, failed answer → ∃ e, trial.result = some (.error e) ∧ ends answer e

variable {failed : ρ → Prop} {ends : ρ → ε → Prop} {first : Trial ρ ε α}

theorem heeds_of_unfailing (unfailing : ∀ answer ∈ first.answers, ¬ failed answer) :
    first.Heeds failed ends :=
  fun answer given failure => absurd failure (unfailing answer given)

theorem heeds_ok (value : α) : (ok value : Trial ρ ε α).Heeds failed ends :=
  heeds_of_unfailing (by simp [ok])

theorem Heeds.bind {rest : α → Trial ρ ε β} (heeds : first.Heeds failed ends)
    (later : ∀ value, (rest value).Heeds failed ends) : (first >>= rest).Heeds failed ends := by
  intro answer given failure
  rcases mem_bind given with before | ⟨value, ended, after⟩
  · obtain ⟨e, result, belongs⟩ := heeds answer before failure
    exact ⟨e, bind_of_error result, belongs⟩
  · rw [bind_of_ok ended]
    exact later value answer after failure

/-! ## Functions that report a failure as no value -/

/-- After a failure the function returns no value, and the failure is one that can be reported. -/
def Yields (failed reported : ρ → Prop) (trial : Trial ρ ε (Option α)) : Prop :=
  ∀ answer ∈ trial.answers, failed answer → reported answer ∧ trial.result = some (.ok none)

variable {reported : ρ → Prop}

theorem yields_pure (value : Option α) :
    (pure value : Trial ρ ε (Option α)).Yields failed reported :=
  fun _ given => absurd given List.not_mem_nil

theorem yields_asked {answer : ρ} {rest : Unit → Trial ρ ε (Option α)}
    (now : failed answer → reported answer ∧ (rest ()).result = some (.ok none))
    (later : (rest ()).Yields failed reported) :
    (asked answer >>= rest).Yields failed reported := by
  intro other given failure
  rcases List.mem_cons.mp given with rfl | after
  · exact now failure
  · exact later other after failure

/-- A caller that ends with an error where there is no value heeds what the function was told. -/
theorem Yields.heeds {trial : Trial ρ ε (Option α)} (yields : trial.Yields failed reported)
    {rest : Option α → Trial ρ ε β} {e : ε} (absent : rest none = fail e)
    (belongs : ∀ answer, reported answer → ends answer e)
    (present : ∀ value, (rest (some value)).Heeds failed ends) :
    (trial >>= rest).Heeds failed ends := by
  intro answer given failure
  rcases mem_bind given with before | ⟨value, ended, after⟩
  · obtain ⟨told, result⟩ := yields answer before failure
    refine ⟨e, ?_, belongs answer told⟩
    rw [bind_of_ok result, absent]
    rfl
  · rw [bind_of_ok ended]
    cases value with
    | none =>
      rw [absent] at after
      exact absurd after List.not_mem_nil
    | some value => exact present value answer after failure

end Trial

end Shared
