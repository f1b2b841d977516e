import Rdmalib2.Verb.Live

set_option autoImplicit false

/-!
# The recorded length

The length is a counter beside the slice list. Every call on one verb keeps it; the copies and
moves carry the list over and leave the counter behind.
-/

namespace Rdmalib2

open Shared

namespace RdmaVerb

variable {W : Wr}

/-- The list is short enough, the recorded length is the one of the list, and so the gate for
atomic opcodes judges the list. -/
structure LengthExact (this : RdmaVerb W) : Prop where
  bounded : this.sgl.length ≤ kMaxSge
  length : this.getTotalMsgLength.toNat =
    (this.sgl.map fun slice => slice.size.toNat).sum % 2 ^ 64
  capable : this.isAtomicCapable = true ↔
    ∃ slice, this.sgl = [slice] ∧ slice.size = 8 ∧ slice.isAligned = true

theorem lengthExact_iff (this : RdmaVerb W) :
    this.LengthExact ↔
      this.sgl.length ≤ kMaxSge ∧ this.length = (this.sgl.map RdmaMemorySlice.size).sum := by
  have words : (this.sgl.map RdmaMemorySlice.size).sum.toNat =
      (this.sgl.map fun slice => slice.size.toNat).sum % 2 ^ 64 := by
    rw [toNat_sum, List.map_map]
    rfl
  constructor
  · intro exact
    refine ⟨exact.bounded, ?_⟩
    rw [← UInt64.toNat_inj, words]
    exact exact.length
  · rintro ⟨bounded, length⟩
    refine ⟨bounded, by rw [getTotalMsgLength, length, words], ?_⟩
    rw [this.isAtomicCapable_iff]
    refine exists_congr fun slice => and_congr_right fun single => ?_
    simp [single, length]

theorem LengthExact.congr {this next : RdmaVerb W} (exact : this.LengthExact)
    (config : next.toVerbConfig = this.toVerbConfig) : next.LengthExact := by
  rw [lengthExact_iff] at exact ⊢
  rwa [config]

theorem effect_lengthExact {this next : RdmaVerb W} (exact : this.LengthExact)
    (effect : Effect this next) : next.LengthExact := by
  cases effect with
  | unchanged => exact exact
  | config c sgl length =>
    rw [lengthExact_iff] at exact ⊢
    simpa [sgl, length] using exact
  | slices base added start kept nonempty bound =>
    rw [lengthExact_iff] at exact ⊢
    refine ⟨bound, ?_⟩
    rcases kept with ⟨rfl, rfl⟩ | ⟨rfl, rfl⟩
    · simp [exact.2]
    · simp
  | built built => exact exact.congr (getWr_config built)

theorem lengthExact_kept : KeptByCalls (LengthExact : RdmaVerb W → Prop) where
  construct _ := (lengthExact_iff _).mpr ⟨Nat.zero_le _, rfl⟩
  ofSlices built := by
    obtain ⟨bounded, rfl⟩ := setSglEntry_ok _ built
    exact (lengthExact_iff _).mpr ⟨bounded, rfl⟩
  effect := effect_lengthExact
  linked _ exact := exact.congr rfl

-- A list that comes from another verb belongs to the length of that verb.
theorem relisted_lengthExact_iff (this : RdmaVerb W) {other : RdmaVerb W} (notified : Bool)
    (exact : other.LengthExact) :
    ({ this with sgl := other.sgl, notified } : RdmaVerb W).LengthExact ↔
      this.length = other.length := by
  rw [lengthExact_iff] at exact ⊢
  rw [exact.2]
  exact and_iff_right exact.1

theorem copyConstruct_lengthExact_iff (junk : Indeterminate) {other : RdmaVerb W}
    (exact : other.LengthExact) :
    (copyConstruct junk other).1.LengthExact ↔ other.length = 0 :=
  (relisted_lengthExact_iff (construct junk) other.notified exact).trans eq_comm

theorem moveConstruct_lengthExact_iff (junk : Indeterminate) {other : RdmaVerb W}
    (exact : other.LengthExact) :
    (moveConstruct junk other).1.LengthExact ↔ other.length = 0 :=
  copyConstruct_lengthExact_iff junk exact

-- A verb that is moved from keeps its length and nothing to measure.
theorem moveConstruct_source_lengthExact_iff (junk : Indeterminate) (other : RdmaVerb W) :
    (moveConstruct junk other).2.LengthExact ↔ other.length = 0 :=
  (lengthExact_iff _).trans (and_iff_right (Nat.zero_le _))

theorem copyAssign_lengthExact_iff (this : RdmaVerb W) {other : RdmaVerb W}
    (exact : other.LengthExact) :
    (this.copyAssign other).1.LengthExact ↔ this.length = other.length :=
  relisted_lengthExact_iff this other.notified exact

theorem moveAssign_lengthExact_iff (this : RdmaVerb W) {other : RdmaVerb W}
    (exact : other.LengthExact) :
    (this.moveAssign other).1.LengthExact ↔ this.length = other.length :=
  relisted_lengthExact_iff this other.notified exact

theorem moveAssign_source_lengthExact_iff (this other : RdmaVerb W) :
    (this.moveAssign other).2.LengthExact ↔ other.length = 0 :=
  (lengthExact_iff _).trans (and_iff_right (Nat.zero_le _))

end RdmaVerb

namespace LiveVerbs

variable {W : Wr}

def LengthsExact (verbs : LiveVerbs W) : Prop :=
  ∀ id verb, verbs id = some verb → verb.LengthExact

theorem lengthsExact_set {verbs : LiveVerbs W} (exact : verbs.LengthsExact) (id : Nat)
    (verb : RdmaVerb W) : (verbs.set id verb).LengthsExact ↔ verb.LengthExact :=
  all_set exact id verb

theorem lengthsExact_set_set {verbs : LiveVerbs W} (exact : verbs.LengthsExact) (id other : Nat)
    (verb last : RdmaVerb W) :
    ((verbs.set id verb).set other last).LengthsExact ↔
      last.LengthExact ∧ (id ≠ other → verb.LengthExact) :=
  all_set_set exact id other verb last

end LiveVerbs

/-- Lists pass only between verbs whose recorded lengths agree, and a verb that is moved from
has recorded none. -/
def VerbAction.KeepsLength {W : Wr} (verbs : LiveVerbs W) : VerbAction W → Prop
  | .copyConstruct _ _ src | .moveConstruct _ _ src => ∀ other ∈ verbs src, other.length = 0
  | .copyAssign dst src =>
      ∀ verb ∈ verbs dst, ∀ other ∈ verbs src, verb.length = other.length
  | .moveAssign dst src =>
      ∀ verb ∈ verbs dst, ∀ other ∈ verbs src, verb.length = 0 ∧ other.length = 0
  | _ => True

namespace LiveVerbs

variable {W : Wr}

theorem step_lengthsExact_iff (verbs : LiveVerbs W) (action : VerbAction W)
    (exact : verbs.LengthsExact) :
    (∀ next, verbs.step action = .ok next → next.LengthsExact) ↔ action.KeepsLength verbs := by
  cases action with
  | construct | ofSlices | call | setNext | clearNext | destroy =>
    simp only [VerbAction.KeepsLength, iff_true]
    exact fun next taken => step_all RdmaVerb.lengthExact_kept exact rfl taken
  | copyConstruct id junk src =>
    simp only [step, VerbAction.KeepsLength, fetch]
    cases lives : verbs src with
    | none => simp
    | some other =>
      have there := exact src other lives
      have source : (RdmaVerb.copyConstruct junk other).2.LengthExact := there
      simp [lengthsExact_set_set exact, RdmaVerb.copyConstruct_lengthExact_iff junk there, source]
  | moveConstruct id junk src =>
    simp only [step, VerbAction.KeepsLength, fetch]
    cases lives : verbs src with
    | none => simp
    | some other =>
      have there := exact src other lives
      simp [lengthsExact_set_set exact, RdmaVerb.moveConstruct_lengthExact_iff junk there,
        RdmaVerb.moveConstruct_source_lengthExact_iff, and_iff_left_of_imp fun zero _ => zero]
  | copyAssign dst src =>
    simp only [step, VerbAction.KeepsLength, fetch]
    cases dstLives : verbs dst with
    | none => simp
    | some verb =>
      cases lives : verbs src with
      | none => simp
      | some other =>
        have there := exact src other lives
        have source : (verb.copyAssign other).2.LengthExact := there
        by_cases same : dst = src
        · obtain rfl : verb = other := by simpa [same, lives] using dstLives.symm
          simp [lengthsExact_set exact, source, same]
        · simp [lengthsExact_set_set exact, RdmaVerb.copyAssign_lengthExact_iff verb there, source,
            same]
  | moveAssign dst src =>
    simp only [step, VerbAction.KeepsLength, fetch]
    cases dstLives : verbs dst with
    | none => simp
    | some verb =>
      cases lives : verbs src with
      | none => simp
      | some other =>
        have there := exact src other lives
        by_cases same : dst = src
        · obtain rfl : verb = other := by simpa [same, lives] using dstLives.symm
          simp [lengthsExact_set exact, RdmaVerb.moveAssign_source_lengthExact_iff, same]
        · simp [lengthsExact_set_set exact, RdmaVerb.moveAssign_lengthExact_iff verb there,
            RdmaVerb.moveAssign_source_lengthExact_iff, same]
          grind

end LiveVerbs

/-! ## The number of slices -/

-- Unlike the length, the bound on the slices survives the copies and moves.
theorem bounded_kept {W : Wr} :
    RdmaVerb.KeptByCalls fun this : RdmaVerb W => this.sgl.length ≤ kMaxSge where
  construct _ := Nat.zero_le _
  ofSlices built := by
    obtain ⟨bounded, rfl⟩ := RdmaVerb.setSglEntry_ok _ built
    exact bounded
  effect here effect := by
    cases effect with
    | unchanged => exact here
    | config c sgl => simpa [sgl] using here
    | slices base added start kept nonempty bound => exact bound
    | built built => rwa [RdmaVerb.getWr_config built]
  linked _ here := here

theorem step_bounded {W : Wr} {verbs next : LiveVerbs W} {action : VerbAction W}
    (bounded : verbs.All fun this => this.sgl.length ≤ kMaxSge)
    (taken : verbs.step action = .ok next) : next.All fun this => this.sgl.length ≤ kMaxSge :=
  LiveVerbs.step_all_of_relisted bounded_kept (fun _ _ there => there) (fun _ => Nat.zero_le _)
    bounded taken

theorem RdmaVerb.Reachable.bounded {W : Wr} {verb : RdmaVerb W} (reachable : verb.Reachable) :
    verb.sgl.length ≤ kMaxSge := by
  obtain ⟨actions, verbs, id, ran, lives⟩ := reachable
  have all := run_invariant LiveVerbs.step (LiveVerbs.All fun this => this.sgl.length ≤ kMaxSge)
    (fun _ _ _ => step_bounded) actions (fun _ _ lives => by cases lives) ran
  exact all id verb lives

/-- In every run of a program, every live verb has the length of its list after each step
exactly when lists are only handed between verbs of equal length. -/
theorem live_lengths_exact_iff {W : Wr} (actions : List (VerbAction W)) :
    Always LiveVerbs.step
        (fun verbs action => ∀ next, verbs.step action = .ok next → next.LengthsExact)
        .empty actions ↔
      Always LiveVerbs.step (fun verbs action => action.KeepsLength verbs) .empty actions :=
  always_establishes LiveVerbs.step LiveVerbs.LengthsExact _ LiveVerbs.step_lengthsExact_iff
    actions (fun _ _ lives => by cases lives)

-- The copy has the slice, and a length of zero.
theorem copied_send_unmeasured :
    ¬ Always LiveVerbs.step
      (fun verbs action => ∀ next, verbs.step action = .ok next → next.LengthsExact)
      (.empty : LiveVerbs .ibvExpSendWr)
      [.ofSlices 0 { wrId := 0, wr := {} } (word 0) [],
        .copyConstruct 1 { wrId := 0, wr := {} } 0] := by
  intro all
  have copied := (all.2 _ rfl).1 _ rfl 1 _ rfl
  exact absurd copied.length (by decide)

end Rdmalib2
