import Rdmalib2.Verb.Live

set_option autoImplicit false

/-!
# Copies and moves

The special members carry the slices and the notify flag. What else a verb means, its length
first, is whatever the destination starts with.
-/

namespace Rdmalib2

open Shared

inductive SpecialMember where
  | copyConstruct
  | moveConstruct
  | copyAssign
  | moveAssign
  deriving DecidableEq, Repr

namespace RdmaVerb

variable {W : Wr}

-- The same request or the same panic, and the same length.
def Means (this other : RdmaVerb W) : Prop :=
  this.outcome = other.outcome ∧ this.getTotalMsgLength = other.getTotalMsgLength

/-- Whatever the destination held, it then means what the source meant, and a copy leaves the
source as it was. -/
def Preserves (src : RdmaVerb W) : SpecialMember → Prop
  | .copyConstruct => ∀ junk, (copyConstruct junk src).1.Means src ∧ (copyConstruct junk src).2 = src
  | .moveConstruct => ∀ junk, (moveConstruct junk src).1.Means src
  | .copyAssign =>
      ∀ dst : RdmaVerb W, dst.Reachable → (dst.copyAssign src).1.Means src ∧ (dst.copyAssign src).2 = src
  | .moveAssign => ∀ dst : RdmaVerb W, dst.Reachable → (dst.moveAssign src).1.Means src

-- `get_wr` on the verb panics over what the special members do carry.
def FailsEarly (src : RdmaVerb W) : Prop :=
  match W with
  | .ibvExpSendWr => src.opcode = none
  | .ibvRecvWr =>
      src.constructedRealSgl = false ∧ ∃ slice ∈ src.sgl, ¬ slice.Convertible

def Plain (src : RdmaVerb W) : SpecialMember → Prop
  | .copyConstruct | .moveConstruct => src.length = 0 ∧ src.FailsEarly
  | .copyAssign | .moveAssign => False

/-! ## Construction -/

theorem copyConstruct_coherent (junk : Indeterminate) (src : RdmaVerb W) :
    (copyConstruct junk src).1.Coherent :=
  coherent_of_uncached rfl rfl

theorem outcome_error {src : RdmaVerb W} {e : Failure} (failed : src.outcome = .error e) :
    src.getWr = .error e := by
  unfold outcome at failed
  cases built : src.getWr with
  | error other => simpa [built, Except.map] using failed
  | ok next => simp [built, Except.map] at failed

theorem send_outcome_iff (src : RdmaSendFamily) :
    src.outcome = .error (.panic "constructing send work request with no opcode" []) ↔
      src.opcode = none := by
  constructor
  · intro failed
    rcases getWr_error (outcome_error failed) with ⟨-, missing, -⟩ | ⟨-, large⟩ | ⟨-, unfilled⟩
    · exact missing
    · have early : ¬ ∀ slice ∈ src.sgl, slice.Convertible := by
        intro small
        rw [mapM_toSge_eq small] at large
        cases large
      obtain ⟨args, other⟩ := mapM_toSge_error early
      simp [other] at large
    · exact absurd rfl (VerbConfig.constructSend_error_ne unfilled)
  · intro missing
    simp [outcome, getWr, missing, Except.map]

theorem recv_copy_outcome_wrId {junk : Indeterminate} {src : RdmaRecv} {request : Request}
    {next : Option Nat} (built : (copyConstruct junk src).1.outcome = .ok (request, next)) :
    request.wrId = junk.wrId := by
  rw [outcome_eq (copyConstruct_coherent junk src)] at built
  simp only [reduceCtorEq, false_and, if_false] at built
  split at built
  next => cases built
  next entries mapped =>
    obtain ⟨rfl, -⟩ := Prod.mk.inj (Except.ok.inj built)
    rfl

-- A receive request fails only in the conversion of the slices.
theorem recv_outcome_error {src : RdmaRecv} {e : Failure} (failed : src.outcome = .error e) :
    src.FailsEarly := by
  rcases getWr_error (outcome_error failed) with ⟨send, -⟩ | ⟨unconverted, large⟩ | ⟨-, unfilled⟩
  · cases send
  · refine ⟨unconverted, ?_⟩
    by_contra all
    have small : ∀ slice ∈ src.sgl, slice.Convertible := by simpa using all
    rw [mapM_toSge_eq small] at large
    cases large
  · cases unfilled

theorem recv_copy_outcome {src : RdmaRecv} (early : src.FailsEarly) (junk : Indeterminate) :
    (copyConstruct junk src).1.outcome = src.outcome := by
  obtain ⟨unconverted, slice, listed, large⟩ := early
  obtain ⟨args, failed⟩ := mapM_toSge_error fun small => large (small slice listed)
  rw [outcome_eq (copyConstruct_coherent junk src)]
  simp [copyConstruct, outcome, getWr_eq, constructSgl, unconverted, failed, Except.map]

theorem means_iff_plain (src : RdmaVerb W) :
    (∀ junk, (copyConstruct junk src).1.Means src) ↔ src.length = 0 ∧ src.FailsEarly := by
  constructor
  · intro all
    refine ⟨(all { wrId := 0, wr := {} }).2.symm, ?_⟩
    cases W with
    | ibvExpSendWr =>
      exact (send_outcome_iff src).mp ((all { wrId := 0, wr := {} }).1.symm)
    | ibvRecvWr =>
      cases built : src.outcome with
      | error e => exact recv_outcome_error built
      | ok result =>
        -- No indeterminate id can be right for more than one source id.
        have first := recv_copy_outcome_wrId ((all { wrId := 0, wr := {} }).1.trans built)
        have second := recv_copy_outcome_wrId ((all { wrId := 1, wr := {} }).1.trans built)
        rw [first] at second
        cases second
  · rintro ⟨length, early⟩ junk
    refine ⟨?_, length.symm⟩
    cases W with
    | ibvExpSendWr => exact ((send_outcome_iff src).mpr early).symm
    | ibvRecvWr => exact recv_copy_outcome early junk

/-! ## Assignment -/

theorem construct_reachable (junk : Indeterminate) : (construct junk : RdmaVerb W).Reachable :=
  ⟨[.construct 0 junk], _, 0, rfl, rfl⟩

theorem exists_reachable_length_ne (length : UInt64) :
    ∃ dst : RdmaVerb W, dst.Reachable ∧ dst.length ≠ length := by
  by_cases zero : length = 0
  · let dst : RdmaVerb W :=
      { (construct { wrId := 0, wr := {} } : RdmaVerb W) with sgl := [word 0], length := 8 }
    have reachable : dst.Reachable :=
      ⟨[.ofSlices 0 { wrId := 0, wr := {} } (word 0) []], _, 0, rfl, rfl⟩
    refine ⟨dst, reachable, ?_⟩
    rw [zero]
    change (8 : UInt64) ≠ 0
    decide
  · exact ⟨_, construct_reachable { wrId := 0, wr := {} }, Ne.symm zero⟩

end RdmaVerb

/-- The special members preserve the meaning of a verb only in construction, and there only when
`get_wr` panics over the slices or the missing opcode and the length is zero. -/
theorem special_member_preserves_iff {W : Wr} (src : RdmaVerb W) (member : SpecialMember) :
    src.Preserves member ↔ src.Plain member := by
  have assigned (means : ∀ dst : RdmaVerb W, dst.Reachable → dst.length = src.length) : False := by
    obtain ⟨dst, reachable, apart⟩ := RdmaVerb.exists_reachable_length_ne src.length
    exact apart (means dst reachable)
  cases member with
  | copyConstruct =>
    exact ⟨fun all => (RdmaVerb.means_iff_plain src).mp fun junk => (all junk).1,
      fun plain junk => ⟨(RdmaVerb.means_iff_plain src).mpr plain junk, rfl⟩⟩
  | moveConstruct => exact RdmaVerb.means_iff_plain src
  | copyAssign =>
    exact ⟨fun all => assigned fun dst reachable => (all dst reachable).1.2, False.elim⟩
  | moveAssign =>
    exact ⟨fun all => assigned fun dst reachable => (all dst reachable).2, False.elim⟩

def sendWord : RdmaSendFamily := { freshSend with opcode := some .send, sgl := [word 0], length := 8 }

-- Neither the opcode nor the length reaches the destination.
theorem send_word_not_preserved :
    sendWord.Reachable ∧
      (RdmaVerb.copyConstruct { wrId := 0, wr := {} } sendWord).1.outcome =
        .error (.panic "constructing send work request with no opcode" []) ∧
      sendWord.outcome = .ok ({ wrId := 0, numSge := 1, sgl := some [(word 0).sge]
                                send := { expOpcode := .send } }, none) ∧
      ¬ sendWord.Preserves .copyConstruct ∧ ¬ sendWord.Preserves .moveConstruct ∧
      ¬ sendWord.Preserves .copyAssign ∧ ¬ sendWord.Preserves .moveAssign := by
  refine ⟨⟨[.construct 0 { wrId := 0, wr := {} }, .call 0 (.setOp .send),
    .call 0 (.setSglEntry (word 0) [])], _, 0, rfl, rfl⟩, rfl, rfl, ?_, ?_, ?_, ?_⟩
  · intro all
    exact absurd (all { wrId := 0, wr := {} }).1.2 (by decide)
  · intro all
    exact absurd (all { wrId := 0, wr := {} }).2 (by decide)
  · intro all
    exact absurd (all freshSend (RdmaVerb.construct_reachable _)).1.2 (by decide)
  · intro all
    exact absurd (all freshSend (RdmaVerb.construct_reachable _)).2 (by decide)

end Rdmalib2
