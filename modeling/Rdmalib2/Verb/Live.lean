import Rdmalib2.Verb.Coherence

set_option autoImplicit false

/-!
# Several verbs

A program constructs, copies, moves, links and destroys any number of verbs. Each lives under a
number of its own.
-/

namespace Rdmalib2

open Shared

def LiveVerbs (W : Wr) : Type := Nat → Option (RdmaVerb W)

namespace LiveVerbs

variable {W : Wr}

def empty : LiveVerbs W := fun _ => none

def set (verbs : LiveVerbs W) (id : Nat) (verb : RdmaVerb W) : LiveVerbs W :=
  Function.update verbs id (some verb)

def destroy (verbs : LiveVerbs W) (id : Nat) : LiveVerbs W := Function.update verbs id none

def fetch (verbs : LiveVerbs W) (id : Nat) : Except Failure (RdmaVerb W) :=
  match verbs id with
  | some verb => .ok verb
  | none => .error (.undefined "verb outside its lifetime")

@[simp] theorem set_self (verbs : LiveVerbs W) (id : Nat) (verb : RdmaVerb W) :
    verbs.set id verb id = some verb := Function.update_self ..

theorem set_other (verbs : LiveVerbs W) {id other : Nat} (verb : RdmaVerb W)
    (apart : other ≠ id) : verbs.set id verb other = verbs other :=
  Function.update_of_ne apart ..

@[simp] theorem set_set (verbs : LiveVerbs W) (id : Nat) (verb last : RdmaVerb W) :
    (verbs.set id verb).set id last = verbs.set id last := Function.update_idem ..

@[simp] theorem destroy_self (verbs : LiveVerbs W) (id : Nat) : verbs.destroy id id = none :=
  Function.update_self ..

theorem destroy_other (verbs : LiveVerbs W) {id other : Nat} (apart : other ≠ id) :
    verbs.destroy id other = verbs other := Function.update_of_ne apart ..

theorem fetch_ok {verbs : LiveVerbs W} {id : Nat} {verb : RdmaVerb W} :
    verbs.fetch id = .ok verb ↔ verbs id = some verb := by
  unfold fetch
  split <;> simp_all

-- `(*id).get_wr()`
def getWr (verbs : LiveVerbs W) (id : Nat) : Except Failure (LiveVerbs W) :=
  match verbs.fetch id with
  | .error e => .error e
  | .ok verb =>
      match verb.getWr with
      | .error e => .error e
      | .ok verb => .ok (verbs.set id verb)

-- The right-hand side of the assignment to `wr.next` calls `get_wr` on the next verb.
def setNext (verbs : LiveVerbs W) (id next : Nat) : Except Failure (LiveVerbs W) :=
  match verbs.getWr next with
  | .error e => .error e
  | .ok verbs =>
      match verbs.fetch id with
      | .error e => .error e
      | .ok verb => .ok (verbs.set id { verb with wr.next := some next })

def clearNext (verbs : LiveVerbs W) (id : Nat) : Except Failure (LiveVerbs W) :=
  match verbs.fetch id with
  | .error e => .error e
  | .ok verb => .ok (verbs.set id verb.clearNext)

theorem getWr_ok {verbs next : LiveVerbs W} {id : Nat} :
    verbs.getWr id = .ok next ↔
      ∃ verb built, verbs id = some verb ∧ verb.getWr = .ok built ∧ next = verbs.set id built := by
  unfold getWr fetch
  cases lives : verbs id with
  | none => simp
  | some verb =>
    cases built : verb.getWr with
    | error e => simp [built]
    | ok rebuilt => simp [built, eq_comm]

theorem setNext_ok {verbs next : LiveVerbs W} {id target : Nat} :
    verbs.setNext id target = .ok next ↔
      ∃ mid verb, verbs.getWr target = .ok mid ∧ mid id = some verb ∧
        next = mid.set id { verb with wr.next := some target } := by
  unfold setNext fetch
  cases requested : verbs.getWr target with
  | error e => simp
  | ok mid =>
    cases lives : mid id with
    | none => simp [lives]
    | some verb => simp [lives, eq_comm]

theorem clearNext_ok {verbs next : LiveVerbs W} {id : Nat} :
    verbs.clearNext id = .ok next ↔
      ∃ verb, verbs id = some verb ∧ next = verbs.set id verb.clearNext := by
  unfold clearNext fetch
  cases lives : verbs id with
  | none => simp
  | some verb => simp [eq_comm]

end LiveVerbs

-- Everything a program can do with verbs one at a time. Constructing under a number that is in
-- use gives the number to the new verb.
inductive VerbAction (W : Wr) where
  | construct (id : Nat) (junk : Indeterminate)
  | ofSlices (id : Nat) (junk : Indeterminate) (head : RdmaMemorySlice)
      (tail : List RdmaMemorySlice)
  | copyConstruct (id : Nat) (junk : Indeterminate) (src : Nat)
  | moveConstruct (id : Nat) (junk : Indeterminate) (src : Nat)
  | copyAssign (dst src : Nat)
  | moveAssign (dst src : Nat)
  | call (id : Nat) (call : VerbCall W)
  | setNext (id next : Nat)
  | clearNext (id : Nat)
  | destroy (id : Nat)

def LiveVerbs.step {W : Wr} (verbs : LiveVerbs W) : VerbAction W → Except Failure (LiveVerbs W)
  | .construct id junk => .ok (verbs.set id (.construct junk))
  | .ofSlices id junk head tail =>
      match RdmaVerb.ofSlices junk (head :: tail) with
      | .error e => .error e
      | .ok verb => .ok (verbs.set id verb)
  | .copyConstruct id junk src =>
      match verbs.fetch src with
      | .error e => .error e
      | .ok other =>
          let (verb, other) := RdmaVerb.copyConstruct junk other
          .ok ((verbs.set src other).set id verb)
  | .moveConstruct id junk src =>
      match verbs.fetch src with
      | .error e => .error e
      | .ok other =>
          let (verb, other) := RdmaVerb.moveConstruct junk other
          .ok ((verbs.set src other).set id verb)
  | .copyAssign dst src =>
      match verbs.fetch dst, verbs.fetch src with
      | .error e, _ => .error e
      | .ok _, .error e => .error e
      | .ok verb, .ok other =>
          let (verb, other) := verb.copyAssign other
          .ok ((verbs.set dst verb).set src other)
  -- Moving a verb into itself leaves the list empty, so the source is written last.
  | .moveAssign dst src =>
      match verbs.fetch dst, verbs.fetch src with
      | .error e, _ => .error e
      | .ok _, .error e => .error e
      | .ok verb, .ok other =>
          let (verb, other) := verb.moveAssign other
          .ok ((verbs.set dst verb).set src other)
  | .call id call =>
      match verbs.fetch id with
      | .error e => .error e
      | .ok verb =>
          match call.apply verb with
          | .error e => .error e
          | .ok verb => .ok (verbs.set id verb)
  | .setNext id next => verbs.setNext id next
  | .clearNext id => verbs.clearNext id
  | .destroy id => .ok (verbs.destroy id)

-- An action that hands slices from one verb to another.
def VerbAction.isSpecial {W : Wr} : VerbAction W → Bool
  | .copyConstruct .. | .moveConstruct .. | .copyAssign .. | .moveAssign .. => true
  | _ => false

/-! ## What holds of every live verb -/

/-- What constructing a verb establishes and what calls on the one verb keep. -/
structure RdmaVerb.KeptByCalls {W : Wr} (p : RdmaVerb W → Prop) : Prop where
  construct : ∀ junk, p (.construct junk)
  ofSlices : ∀ {junk slices verb}, RdmaVerb.ofSlices junk slices = .ok verb → p verb
  effect : ∀ {this next}, p this → Effect this next → p next
  linked : ∀ {this : RdmaVerb W} (next : Option Nat), p this → p { this with wr.next := next }

namespace LiveVerbs

variable {W : Wr} {p : RdmaVerb W → Prop} {verbs next : LiveVerbs W}

def All (p : RdmaVerb W → Prop) (verbs : LiveVerbs W) : Prop :=
  ∀ id verb, verbs id = some verb → p verb

theorem all_set (all : verbs.All p) (id : Nat) (verb : RdmaVerb W) :
    (verbs.set id verb).All p ↔ p verb := by
  constructor
  · intro later
    exact later id verb (set_self verbs id verb)
  · intro here other found lives
    by_cases same : other = id
    · subst same
      obtain rfl : verb = found := by simpa using lives
      exact here
    · rw [set_other verbs verb same] at lives
      exact all other found lives

-- The second verb takes the place of the first where the numbers agree.
theorem all_set_set (all : verbs.All p) (id other : Nat) (verb last : RdmaVerb W) :
    ((verbs.set id verb).set other last).All p ↔ p last ∧ (id ≠ other → p verb) := by
  constructor
  · intro later
    refine ⟨later other last (set_self _ other last), fun apart => later id verb ?_⟩
    rw [set_other _ last apart, set_self]
  · rintro ⟨here, there⟩ id' found lives
    by_cases same : id' = other
    · subst same
      obtain rfl : last = found := by simpa using lives
      exact here
    · rw [set_other _ last same] at lives
      by_cases first : id' = id
      · subst first
        obtain rfl : verb = found := by simpa using lives
        exact there same
      · rw [set_other _ verb first] at lives
        exact all id' found lives

theorem all_destroy (all : verbs.All p) (id : Nat) : (verbs.destroy id).All p := by
  intro other found lives
  by_cases same : other = id
  · simp [same] at lives
  · rw [destroy_other verbs same] at lives
    exact all other found lives

theorem getWr_all (kept : RdmaVerb.KeptByCalls p) (all : verbs.All p) {id : Nat}
    (built : verbs.getWr id = .ok next) : next.All p := by
  obtain ⟨verb, rebuilt, lives, requested, rfl⟩ := getWr_ok.mp built
  exact (all_set all id rebuilt).mpr (kept.effect (all id verb lives) (.built requested))

theorem setNext_all (kept : RdmaVerb.KeptByCalls p) (all : verbs.All p) {id target : Nat}
    (linked : verbs.setNext id target = .ok next) : next.All p := by
  obtain ⟨mid, verb, requested, lives, rfl⟩ := setNext_ok.mp linked
  have built := getWr_all kept all requested
  exact (all_set built id _).mpr (kept.linked _ (built id verb lives))

theorem clearNext_all (kept : RdmaVerb.KeptByCalls p) (all : verbs.All p) {id : Nat}
    (cleared : verbs.clearNext id = .ok next) : next.All p := by
  obtain ⟨verb, lives, rfl⟩ := clearNext_ok.mp cleared
  exact (all_set all id _).mpr (kept.linked none (all id verb lives))

theorem step_all (kept : RdmaVerb.KeptByCalls p) (all : verbs.All p) {action : VerbAction W}
    (own : action.isSpecial = false) (taken : verbs.step action = .ok next) : next.All p := by
  cases action with
  | construct id junk =>
    obtain rfl := Except.ok.inj taken
    exact (all_set all id _).mpr (kept.construct junk)
  | ofSlices id junk head tail =>
    rw [step] at taken
    split at taken
    next => cases taken
    next verb built =>
      obtain rfl := Except.ok.inj taken
      exact (all_set all id verb).mpr (kept.ofSlices built)
  | call id call =>
    rw [step] at taken
    split at taken
    next => cases taken
    next verb fetched =>
      split at taken
      next => cases taken
      next called applied =>
        obtain rfl := Except.ok.inj taken
        have effect := VerbCall.apply_effect applied
        exact (all_set all id called).mpr (kept.effect (all id verb (fetch_ok.mp fetched)) effect)
  | setNext id target => exact setNext_all kept all taken
  | clearNext id => exact clearNext_all kept all taken
  | destroy id =>
    obtain rfl := Except.ok.inj taken
    exact all_destroy all id
  | copyConstruct | moveConstruct | copyAssign | moveAssign => cases own

-- A copy or a move leaves a verb with a list from elsewhere and a source with its own or none.
theorem step_all_of_relisted (kept : RdmaVerb.KeptByCalls p)
    (relisted : ∀ {this : RdmaVerb W} (other : RdmaVerb W), p this → p other →
      p { this with sgl := other.sgl, notified := other.notified })
    (emptied : ∀ {this : RdmaVerb W}, p this → p { this with sgl := [] })
    (all : verbs.All p) {action : VerbAction W} (taken : verbs.step action = .ok next) :
    next.All p := by
  cases action with
  | construct | ofSlices | call | setNext | clearNext | destroy => exact step_all kept all rfl taken
  | copyConstruct id junk src | moveConstruct id junk src =>
    rw [step] at taken
    split at taken
    next => cases taken
    next other fetched =>
      obtain rfl := Except.ok.inj taken
      have there := all src other (fetch_ok.mp fetched)
      refine (all_set_set all _ _ _ _).mpr ⟨relisted other (kept.construct junk) there, fun _ => ?_⟩
      first | exact there | exact emptied there
  | copyAssign dst src | moveAssign dst src =>
    rw [step] at taken
    split at taken
    next => cases taken
    next => cases taken
    next verb other target fetched =>
      obtain rfl := Except.ok.inj taken
      have here := all dst verb (fetch_ok.mp target)
      have there := all src other (fetch_ok.mp fetched)
      refine (all_set_set all _ _ _ _).mpr ⟨?_, fun _ => relisted other here there⟩
      first | exact there | exact emptied there

end LiveVerbs

-- A verb that some program can hold.
def RdmaVerb.Reachable {W : Wr} (verb : RdmaVerb W) : Prop :=
  ∃ actions verbs id, run LiveVerbs.step .empty actions = .ok verbs ∧ verbs id = some verb

end Rdmalib2
