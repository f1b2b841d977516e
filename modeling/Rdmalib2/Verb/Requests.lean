import Rdmalib2.Verb.Effects

set_option autoImplicit false

/-!
# What `get_wr` builds

The send fields as a function of the configuration, and `get_wr` as one expression.
-/

namespace Rdmalib2

/-! ## The send fields -/

namespace VerbConfig

def sendFields (this : VerbConfig) (opcode : IbvExpWrOpcode) : SendFields :=
  let fields : SendFields :=
    { expOpcode := opcode
      expSendFlags := if this.notified then [.signaled] else []
      exImmData := if this.carryImm then this.immData else 0 }
  match this.remote, opcode with
  | some remote, .rdmaRead | some remote, .rdmaWrite | some remote, .rdmaWriteWithImm =>
      { fields with wr := .rdma remote.getAddr remote.getRkey }
  | some remote, .atomicCmpAndSwp | some remote, .atomicFetchAndAdd =>
      { fields with wr := .atomic remote.getAddr remote.getRkey this.compareAdd this.swap }
  | some remote, .extMaskedAtomicCmpAndSwp =>
      { fields with
        extOp := .maskedAtomics remote.getAddr remote.getRkey
          (.cmpSwap this.compareAdd this.swap this.compareAddMask this.swapMask) }
  | some remote, .extMaskedAtomicFetchAndAdd =>
      { fields with
        extOp := .maskedAtomics remote.getAddr remote.getRkey
          (.fetchAdd this.compareAdd this.compareAddMask) }
  | _, _ => fields

-- The checks of `construct_wr` other than the one of the slice list.
def Sendable (this : VerbConfig) (opcode : IbvExpWrOpcode) : Prop :=
  opcode.isSend = true ∨ this.remote.isSome = true ∧ ∀ number, opcode ≠ .other number

theorem isAtomicCapable_iff (this : VerbConfig) :
    this.isAtomicCapable = true ↔
      ∃ slice, this.sgl = [slice] ∧ this.length = 8 ∧ slice.isAligned = true := by
  unfold isAtomicCapable
  split
  next slice single => simp [single]
  next other =>
    simp only [Bool.false_eq_true, false_iff, not_exists, not_and]
    intro slice single
    exact absurd single (other slice)

@[simp] theorem sendFields_expOpcode (this : VerbConfig) (opcode : IbvExpWrOpcode) :
    (this.sendFields opcode).expOpcode = opcode := by
  unfold sendFields
  cases this.remote <;> cases opcode <;> rfl

theorem constructSend_ok {this : VerbConfig} {fields : SendFields}
    (built : this.constructSend = .ok fields) :
    ∃ opcode, this.opcode = some opcode ∧ this.Sendable opcode ∧
      (opcode.isAtomic = true → this.isAtomicCapable = true) ∧ fields = this.sendFields opcode := by
  unfold constructSend at built
  cases present : this.opcode with
  | none => simp [present] at built
  | some opcode =>
    refine ⟨opcode, rfl, ?_⟩
    cases remote : this.remote <;> cases opcode <;> cases capable : this.isAtomicCapable <;>
      simp [present, remote, capable, IbvExpWrOpcode.isSend, rdmalib2Assert, bind, Except.bind,
        pure, Except.pure] at built
    all_goals
      subst built
      simp [Sendable, sendFields, IbvExpWrOpcode.isSend, IbvExpWrOpcode.isAtomic, remote]

theorem constructSend_of_sendable {this : VerbConfig} {opcode : IbvExpWrOpcode}
    (present : this.opcode = some opcode) (sendable : this.Sendable opcode)
    (capable : opcode.isAtomic = true → this.isAtomicCapable = true) :
    this.constructSend = .ok (this.sendFields opcode) := by
  unfold constructSend
  cases remote : this.remote <;> cases opcode <;>
    simp_all [IbvExpWrOpcode.isSend, IbvExpWrOpcode.isAtomic, Sendable, sendFields,
      bind, Except.bind, pure, Except.pure]

theorem constructSend_error {this : VerbConfig} {opcode : IbvExpWrOpcode}
    (present : this.opcode = some opcode)
    (incapable : ¬ (opcode.isAtomic = true → this.isAtomicCapable = true)) :
    ∃ e, this.constructSend = .error e := by
  cases built : this.constructSend with
  | error e => exact ⟨e, rfl⟩
  | ok fields =>
    obtain ⟨other, same, -, capable, -⟩ := constructSend_ok built
    obtain rfl : opcode = other := Option.some.inj (present.symm.trans same)
    exact absurd capable incapable

-- No check of `construct_wr` fails the way a missing opcode does in `get_wr`.
theorem constructSend_error_ne {this : VerbConfig} {e : Failure}
    (failed : this.constructSend = .error e) :
    e ≠ .panic "constructing send work request with no opcode" [] := by
  unfold constructSend at failed
  cases present : this.opcode with
  | none =>
    simp only [present, Except.error.injEq] at failed
    simp [← failed]
  | some opcode =>
    cases remote : this.remote <;> cases opcode <;> cases capable : this.isAtomicCapable <;>
      simp [present, remote, capable, IbvExpWrOpcode.isSend, rdmalib2Assert, bind, Except.bind,
        pure, Except.pure] at failed <;> simp [← failed]

-- The fields a verb of either kind adds to a request; a receive verb adds none.
def fields (W : Wr) (this : VerbConfig) : Except Failure SendFields :=
  match W with
  | .ibvRecvWr => .ok {}
  | .ibvExpSendWr => this.constructSend

end VerbConfig

/-! ## `get_wr` -/

namespace RdmaVerb

variable {W : Wr}

-- The list that `construct_sgl` leaves when the conversion gives `entries`.
def convertedSgl (this : RdmaVerb W) (entries : List IbvSge) : SgeVector :=
  { this.realSgl.resize this.sgl.length with elems := entries }

theorem constructSgl_ok {this next : RdmaVerb W} (converted : this.constructSgl = .ok next) :
    this.constructedRealSgl = true ∧ next = this ∨
      this.constructedRealSgl = false ∧ ∃ entries,
        this.sgl.mapM RdmaMemorySlice.toSge = .ok entries ∧
        next = { this with realSgl := this.convertedSgl entries, constructedRealSgl := true } := by
  unfold constructSgl at converted
  split at converted
  next cached => exact .inl ⟨cached, (Except.ok.inj converted).symm⟩
  next stale =>
    refine .inr ⟨by simpa using stale, ?_⟩
    split at converted
    next => cases converted
    next entries mapped => exact ⟨entries, mapped, (Except.ok.inj converted).symm⟩

-- The conversion writes the list and its flag alone.
theorem constructSgl_keeps {this next : RdmaVerb W} (converted : this.constructSgl = .ok next) :
    next.toVerbConfig = this.toVerbConfig ∧ next.wr = this.wr ∧
      next.constructedWr = this.constructedWr ∧ next.constructedRealSgl = true := by
  rcases constructSgl_ok converted with ⟨cached, rfl⟩ | ⟨-, entries, -, rfl⟩
  · exact ⟨rfl, rfl, rfl, cached⟩
  · exact ⟨rfl, rfl, rfl, rfl⟩

theorem getWr_eq (this : RdmaVerb W) :
    this.getWr =
      if W = .ibvExpSendWr ∧ this.opcode = none then
        .error (.panic "constructing send work request with no opcode" [])
      else
        match this.constructSgl with
        | .error e => .error e
        | .ok next =>
            if this.constructedWr then .ok { next with wr.next := none }
            else
              match this.toVerbConfig.fields W with
              | .error e => .error e
              | .ok send =>
                  .ok { next with
                    wr := { wrId := this.wrId, next := none, sgList := next.realSgl.data
                            numSge := next.realSgl.size, send }
                    constructedWr := true } := by
  unfold getWr constructWr
  congr 1
  cases converted : this.constructSgl with
  | error e => rfl
  | ok next =>
    obtain ⟨config, -, flag, -⟩ := constructSgl_keeps converted
    cases cached : this.constructedWr with
    | true => simp [flag, cached]
    | false =>
      cases W with
      | ibvRecvWr => simp [config, flag, cached, VerbConfig.fields]
      | ibvExpSendWr =>
        simp only [config, flag, cached, VerbConfig.fields]
        cases this.toVerbConfig.constructSend <;> rfl

theorem getWr_ok {this next : RdmaVerb W} (built : this.getWr = .ok next) :
    ∃ listed, this.constructSgl = .ok listed ∧
      (this.constructedWr = true ∧ next = { listed with wr.next := none } ∨
        this.constructedWr = false ∧ ∃ send, this.toVerbConfig.fields W = .ok send ∧
          next = { listed with
            wr := { wrId := this.wrId, next := none, sgList := listed.realSgl.data
                    numSge := listed.realSgl.size, send }
            constructedWr := true }) := by
  rw [getWr_eq] at built
  split at built
  next => cases built
  next =>
    split at built
    next => cases built
    next listed converted =>
      refine ⟨listed, converted, ?_⟩
      cases cached : this.constructedWr with
      | true =>
        rw [cached, if_pos rfl] at built
        exact .inl ⟨rfl, (Except.ok.inj built).symm⟩
      | false =>
        rw [cached, if_neg (by simp)] at built
        split at built
        next => cases built
        next send filled => exact .inr ⟨rfl, send, filled, (Except.ok.inj built).symm⟩

theorem getWr_error {this : RdmaVerb W} {e : Failure} (failed : this.getWr = .error e) :
    W = .ibvExpSendWr ∧ this.opcode = none ∧
        e = .panic "constructing send work request with no opcode" [] ∨
      this.constructedRealSgl = false ∧ this.sgl.mapM RdmaMemorySlice.toSge = .error e ∨
      this.constructedWr = false ∧ this.toVerbConfig.fields W = .error e := by
  rw [getWr_eq] at failed
  split at failed
  next missing => exact .inl ⟨missing.1, missing.2, (Except.error.inj failed).symm⟩
  next =>
    split at failed
    next unconverted =>
      obtain rfl := Except.error.inj failed
      unfold constructSgl at unconverted
      split at unconverted
      next => cases unconverted
      next stale =>
        split at unconverted
        next mapped =>
          exact .inr (.inl ⟨by simpa using stale, by rw [mapped, Except.error.inj unconverted]⟩)
        next => cases unconverted
    next =>
      split at failed
      next => cases failed
      next dropped =>
        split at failed
        next unfilled =>
          exact .inr (.inr ⟨by simpa using dropped, by rw [unfilled, Except.error.inj failed]⟩)
        next => cases failed

theorem getWr_config {this next : RdmaVerb W} (built : this.getWr = .ok next) :
    next.toVerbConfig = this.toVerbConfig := by
  obtain ⟨listed, converted, rebuilt⟩ := getWr_ok built
  have config := (constructSgl_keeps converted).1
  rcases rebuilt with ⟨-, rfl⟩ | ⟨-, send, -, rfl⟩ <;> exact config

theorem getWr_flags {this next : RdmaVerb W} (built : this.getWr = .ok next) :
    next.constructedRealSgl = true ∧ next.constructedWr = true := by
  obtain ⟨listed, converted, rebuilt⟩ := getWr_ok built
  obtain ⟨-, -, wr, list⟩ := constructSgl_keeps converted
  rcases rebuilt with ⟨cached, rfl⟩ | ⟨-, send, -, rfl⟩
  · exact ⟨list, wr.trans cached⟩
  · exact ⟨list, rfl⟩

theorem getWr_next {this next : RdmaVerb W} (built : this.getWr = .ok next) :
    next.wr.next = none := by
  obtain ⟨listed, -, rebuilt⟩ := getWr_ok built
  rcases rebuilt with ⟨-, rfl⟩ | ⟨-, send, -, rfl⟩ <;> rfl

-- With both flags set only the next pointer is written.
theorem getWr_of_flags {this : RdmaVerb W} (present : ¬ (W = .ibvExpSendWr ∧ this.opcode = none))
    (list : this.constructedRealSgl = true) (wr : this.constructedWr = true) :
    this.getWr = .ok { this with wr.next := none } := by
  rw [getWr_eq, if_neg present]
  simp [constructSgl, list, wr]

theorem getWr_present {this next : RdmaVerb W} (built : this.getWr = .ok next) :
    ¬ (W = .ibvExpSendWr ∧ this.opcode = none) := by
  intro missing
  rw [getWr, if_pos missing] at built
  cases built

theorem getWr_again {this next : RdmaVerb W} (built : this.getWr = .ok next) :
    next.getWr = .ok next := by
  obtain ⟨list, request⟩ := getWr_flags built
  have present := getWr_present built
  rw [← getWr_config built] at present
  rw [getWr_of_flags present list request, ← getWr_next built]

-- A request that has just been built is unlinked as it is.
theorem getWr_clearNext {this next : RdmaVerb W} (built : this.getWr = .ok next) :
    next.clearNext = next := by
  rw [clearNext, ← getWr_next built]

end RdmaVerb

end Rdmalib2
