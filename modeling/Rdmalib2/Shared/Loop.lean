import Mathlib.Order.Defs.LinearOrder

set_option autoImplicit false

/-!
# Loops that may not end

A loop body takes one turn: it goes on with a new state or is done. The fuel bounds the turns
taken, so that a loop which is not done yet still has a state to speak of.
-/

namespace Shared

universe u v

variable {σ : Type u} {β : Type v}

inductive Turn (σ : Type u) (β : Type v) where
  | again (state : σ)
  | done (result : β)

def Turn.Holds (inv : σ → Prop) (post : β → Prop) : Turn σ β → Prop
  | .again state => inv state
  | .done result => post result

@[simp] theorem Turn.holds_again (inv : σ → Prop) (post : β → Prop) (state : σ) :
    (Turn.again state : Turn σ β).Holds inv post ↔ inv state := Iff.rfl

@[simp] theorem Turn.holds_done (inv : σ → Prop) (post : β → Prop) (result : β) :
    (Turn.done result : Turn σ β).Holds inv post ↔ post result := Iff.rfl

theorem Turn.Holds.imp {turn : Turn σ β} {inv inv' : σ → Prop} {post post' : β → Prop}
    (holds : turn.Holds inv post) (going : ∀ state, inv state → inv' state)
    (ended : ∀ result, post result → post' result) : turn.Holds inv' post' := by
  cases turn with
  | again state => exact going state holds
  | done result => exact ended result holds

theorem Turn.Holds.goesOn {turn : Turn σ β} {inv : σ → Prop}
    (holds : turn.Holds inv fun _ => False) : ∃ next, turn = .again next ∧ inv next := by
  cases turn with
  | again next => exact ⟨next, rfl, holds⟩
  | done result => exact holds.elim

def iterate (turn : σ → Turn σ β) : Nat → σ → Turn σ β
  | 0, state => .again state
  | fuel + 1, state =>
      match turn state with
      | .again next => iterate turn fuel next
      | .done result => .done result

/-- What every turn keeps, a loop keeps for as long as it runs. -/
theorem iterate_holds (turn : σ → Turn σ β) (inv : σ → Prop) (post : β → Prop)
    (kept : ∀ state, inv state → (turn state).Holds inv post) (fuel : Nat) {state : σ}
    (start : inv state) : (iterate turn fuel state).Holds inv post := by
  induction fuel generalizing state with
  | zero => exact start
  | succ fuel ih =>
    have here := kept state start
    unfold iterate
    cases taken : turn state with
    | again next =>
      rw [taken] at here
      exact ih here
    | done result =>
      rw [taken] at here
      exact here

theorem iterate_again (turn : σ → Turn σ β) {state next : σ} (fuel : Nat)
    (taken : turn state = .again next) :
    iterate turn (fuel + 1) state = iterate turn fuel next := by
  simp [iterate, taken]

theorem iterate_done (turn : σ → Turn σ β) {state : σ} {result : β} (fuel : Nat)
    (taken : turn state = .done result) : iterate turn (fuel + 1) state = .done result := by
  simp [iterate, taken]

theorem iterate_add (turn : σ → Turn σ β) {state mid : σ} (first rest : Nat)
    (reached : iterate turn first state = .again mid) :
    iterate turn (first + rest) state = iterate turn rest mid := by
  induction first generalizing state with
  | zero =>
    obtain rfl : state = mid := by simpa [iterate] using reached
    rw [Nat.zero_add]
  | succ first ih =>
    cases taken : turn state with
    | again next =>
      rw [iterate_again turn first taken] at reached
      rw [Nat.succ_add, iterate_again turn _ taken, ih reached]
    | done result =>
      rw [iterate_done turn first taken] at reached
      cases reached

/-- A loop whose turns spend a budget is done within it. -/
theorem iterate_ends (turn : σ → Turn σ β) (inv : σ → Prop) (budget : σ → Nat)
    (spends : ∀ state, inv state →
      (turn state).Holds (fun next => inv next ∧ budget next < budget state) fun _ => True)
    (fuel : Nat) {state : σ} (start : inv state) (enough : budget state < fuel) :
    ∃ result, iterate turn fuel state = .done result := by
  induction fuel generalizing state with
  | zero => omega
  | succ fuel ih =>
    have here := spends state start
    cases taken : turn state with
    | again next =>
      rw [taken] at here
      rw [iterate_again turn fuel taken]
      exact ih here.1 (by have := here.2; omega)
    | done result => exact ⟨result, iterate_done turn fuel taken⟩

/-! ## Loops that wait -/

-- What every turn keeps may speak of the number of the turn.
theorem iterate_holds_at (turn : σ → Turn σ β) (inv : Nat → σ → Prop) (post : β → Prop)
    (kept : ∀ count state, inv count state → (turn state).Holds (inv (count + 1)) post)
    (fuel : Nat) {count : Nat} {state : σ} (start : inv count state) :
    (iterate turn fuel state).Holds (inv (count + fuel)) post := by
  induction fuel generalizing count state with
  | zero => exact start
  | succ fuel ih =>
    have here := kept count state start
    cases taken : turn state with
    | again next =>
      rw [taken] at here
      rw [iterate_again turn fuel taken, Nat.add_comm fuel 1, ← Nat.add_assoc]
      exact ih here
    | done result =>
      rw [taken] at here
      rw [iterate_done turn fuel taken]
      exact here

/-- A loop that never falls back ends if again and again there comes a turn with which it climbs,
unless it is done. -/
theorem iterate_ends_fairly (turn : σ → Turn σ β) (inv : Nat → σ → Prop) (level : σ → Nat)
    (goal : Nat)
    (keeps : ∀ count state, inv count state →
      (turn state).Holds (fun next => inv (count + 1) next ∧ level state ≤ level next) fun _ => True)
    (climbs : ∀ count, ∃ later, count ≤ later ∧ ∀ state, inv later state →
      (turn state).Holds (fun next => level state < level next) fun _ => True)
    (most : ∀ count state, inv count state → level state ≤ goal)
    {count : Nat} {state : σ} (start : inv count state) :
    ∃ fuel result, iterate turn fuel state = .done result := by
  induction left : goal - level state using Nat.strongRecOn generalizing count state with
  | ind left ih =>
    obtain ⟨later, reached, climbing⟩ := climbs count
    have waited := iterate_holds_at turn (fun count next => inv count next ∧ level state ≤ level next)
      (fun _ => True)
      (fun count next both => (keeps count next both.1).imp
        (fun _ after => ⟨after.1, Nat.le_trans both.2 after.2⟩) fun _ ended => ended)
      (later - count) ⟨start, Nat.le_refl _⟩
    rw [Nat.add_sub_cancel' reached] at waited
    cases ran : iterate turn (later - count) state with
    | done result => exact ⟨_, result, ran⟩
    | again mid =>
      rw [ran] at waited
      obtain ⟨still, above⟩ := waited
      cases taken : turn mid with
      | done result =>
        refine ⟨later - count + 1, result, ?_⟩
        rw [iterate_add turn _ _ ran, iterate_done turn 0 taken]
      | again next =>
        have onward := keeps later mid still
        have higher := climbing mid still
        rw [taken] at onward higher
        obtain ⟨after, -⟩ := onward
        have bound := most (later + 1) next after
        rw [Turn.holds_again] at higher
        obtain ⟨fuel, result, ends⟩ := ih (goal - level next) (by omega) after rfl
        refine ⟨later - count + (fuel + 1), result, ?_⟩
        rw [iterate_add turn _ _ ran, iterate_again turn fuel taken, ends]

/-! ## Two loops side by side -/

inductive Turn.Related {σ' : Type u} {β' : Type v} (rel : σ → σ' → Prop) (post : β → β' → Prop) :
    Turn σ β → Turn σ' β' → Prop
  | again {state : σ} {state' : σ'} (related : rel state state') :
      Related rel post (.again state) (.again state')
  | done {result : β} {result' : β'} (ended : post result result') :
      Related rel post (.done result) (.done result')

/-- Loops whose turns keep a relation between their states end in the same turn, if they do. -/
theorem iterate_related {σ' : Type u} {β' : Type v} (turn : σ → Turn σ β) (turn' : σ' → Turn σ' β')
    (rel : σ → σ' → Prop) (post : β → β' → Prop)
    (kept : ∀ state state', rel state state' →
      Turn.Related rel post (turn state) (turn' state'))
    (fuel : Nat) {state : σ} {state' : σ'} (start : rel state state') :
    Turn.Related rel post (iterate turn fuel state) (iterate turn' fuel state') := by
  induction fuel generalizing state state' with
  | zero => exact .again start
  | succ fuel ih =>
    have here := kept state state' start
    unfold iterate
    generalize turn state = taken at here
    generalize turn' state' = taken' at here
    cases here with
    | again related => exact ih related
    | done ended => exact .done ended

end Shared
