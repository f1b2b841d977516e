import Rdmalib2.Verb.History

set_option autoImplicit false

/-!
# Buffers larger than the remote slice

`set_remote_memory` compares the remote slice with the list of that moment. The list setters
compare nothing, so a later list is never held against the remote slice.
-/

namespace Rdmalib2

open Shared

def IbvExpWrOpcode.isRdma (opcode : IbvExpWrOpcode) : Bool :=
  opcode == .rdmaRead || opcode == .rdmaWrite || opcode == .rdmaWriteWithImm

def totalSize (slices : List RdmaMemorySlice) : Nat :=
  (slices.map fun slice => slice.size.toNat).sum

theorem toNat_sum_sizes (slices : List RdmaMemorySlice) :
    (slices.map RdmaMemorySlice.size).sum.toNat = totalSize slices % 2 ^ 64 := by
  rw [toNat_sum, List.map_map]
  rfl

-- The message of `set_remote_memory` for a remote slice that is too small.
def sizeMismatch : String := "remote memory slice size {} is smaller than SGL size {}"

/-! ## Requests and configurations -/

/-- The request in `next` reads or writes a remote slice smaller than the slices of the verb. -/
structure Oversized (this next : RdmaSendFamily) (remote : RdmaRemoteMemorySlice) : Prop where
  opcode : next.wr.send.expOpcode.isRdma = true
  held : this.remote = some remote
  target : next.wr.send.wr = .rdma remote.getAddr remote.getRkey
  larger : remote.size.toNat < totalSize this.sgl
  unwrapped : totalSize this.sgl < 2 ^ 64

-- What the configuration has to be for that; slices that do not convert give no request.
structure Mismatched (this : RdmaSendFamily) (remote : RdmaRemoteMemorySlice) : Prop where
  opcode : ∃ opcode, this.opcode = some opcode ∧ opcode.isRdma = true
  held : this.remote = some remote
  convertible : ∀ slice ∈ this.sgl, slice.Convertible
  larger : remote.size.toNat < totalSize this.sgl
  unwrapped : totalSize this.sgl < 2 ^ 64

section requests

variable {this next : RdmaSendFamily} {remote : RdmaRemoteMemorySlice}

theorem Oversized.mismatched (oversized : Oversized this next remote) (coherent : this.Coherent)
    (built : this.getWr = .ok next) : Mismatched this remote := by
  obtain ⟨opcode, present, -, same⟩ := RdmaVerb.getWr_opcode coherent built
  have converted := RdmaVerb.getWr_converted coherent built
  exact ⟨⟨opcode, present, same ▸ oversized.opcode⟩, oversized.held, (mapM_toSge_ok converted).1,
    oversized.larger, oversized.unwrapped⟩

theorem Mismatched.oversized (mismatched : Mismatched this remote) (coherent : this.Coherent)
    (built : this.getWr = .ok next) : Oversized this next remote := by
  obtain ⟨opcode, present, rdma⟩ := mismatched.opcode
  have agree := (RdmaVerb.getWr_coherent coherent built).fields (RdmaVerb.getWr_flags built).2
  obtain ⟨other, same, -, filled⟩ := agree
  rw [RdmaVerb.getWr_config built] at same filled
  obtain rfl : opcode = other := Option.some.inj (present.symm.trans same)
  have sent : opcode.isSend = false := by
    cases opcode <;> simp [IbvExpWrOpcode.isRdma] at rdma <;> rfl
  have target := (VerbConfig.sendFields_of_remote sent mismatched.held).1
  refine ⟨?_, mismatched.held, ?_, mismatched.larger, mismatched.unwrapped⟩
  · rw [filled, VerbConfig.sendFields_expOpcode, rdma]
  · rw [filled, target]
    cases opcode <;> simp [IbvExpWrOpcode.isRdma] at rdma <;> rfl

theorem Mismatched.builds (mismatched : Mismatched this remote) :
    ∃ next, this.getWr = .ok next := by
  obtain ⟨opcode, present, rdma⟩ := mismatched.opcode
  cases built : this.getWr with
  | ok next => exact ⟨next, rfl⟩
  | error e =>
    rcases RdmaVerb.getWr_error built with ⟨-, missing, -⟩ | ⟨-, unconverted⟩ | ⟨-, unfilled⟩
    · rw [present] at missing
      cases missing
    · rw [mapM_toSge_eq mismatched.convertible] at unconverted
      cases unconverted
    · have sendable : this.Sendable opcode := by
        refine .inr ⟨by rw [mismatched.held]; rfl, ?_⟩
        rintro number rfl
        cases rdma
      have capable : opcode.isAtomic = true → this.isAtomicCapable = true := by
        intro atomic
        cases opcode <;> simp [IbvExpWrOpcode.isRdma, IbvExpWrOpcode.isAtomic] at rdma atomic
      rw [VerbConfig.fields, VerbConfig.constructSend_of_sendable present sendable capable] at unfilled
      cases unfilled

end requests

/-! ## The list as the calls leave it -/

structure SliceRecord where
  sgl : List RdmaMemorySlice
  length : UInt64
  deriving DecidableEq, Repr

def VerbConfig.sliceRecord (this : VerbConfig) : SliceRecord :=
  { sgl := this.sgl, length := this.length }

def VerbEvent.record (record : SliceRecord) : VerbEvent → SliceRecord
  | .call (.setSglEntry head tail) =>
      { sgl := head :: tail, length := ((head :: tail).map RdmaMemorySlice.size).sum }
  | .call (.addSglEntry head tail) =>
      { sgl := record.sgl ++ head :: tail
        length := record.length + ((head :: tail).map RdmaMemorySlice.size).sum }
  | _ => record

-- What a verb starts with, and what the calls put in its place.
def recorded (verb : RdmaSendFamily) (events : List VerbEvent) : SliceRecord :=
  events.foldl VerbEvent.record verb.sliceRecord

theorem VerbEvent.apply_records {this next : RdmaSendFamily} {event : VerbEvent}
    (taken : event.apply this = .ok next) :
    next.sliceRecord = event.record this.sliceRecord := by
  cases event with
  | link target =>
    obtain rfl := Except.ok.inj taken
    rfl
  | call made =>
    change made.apply this = .ok next at taken
    cases made with
    | setSglEntry head tail =>
      rw [VerbCall.apply_setSglEntry] at taken
      obtain ⟨-, rfl⟩ := RdmaVerb.setSglEntry_ok _ taken
      rfl
    | addSglEntry head tail =>
      rw [VerbCall.apply_addSglEntry] at taken
      obtain ⟨-, rfl⟩ := RdmaVerb.addSglEntry_cons_ok head tail taken
      rfl
    | getWr =>
      rw [VerbCall.apply_getWr] at taken
      exact congrArg VerbConfig.sliceRecord (RdmaVerb.getWr_config taken)
    | post type ret =>
      rw [VerbCall.apply_post] at taken
      exact congrArg VerbConfig.sliceRecord (RdmaVerb.getWr_config (postVerb_ok taken))
    | setId id =>
      obtain rfl := Except.ok.inj taken
      exact (congrArg VerbConfig.sliceRecord (setId_config this id)).trans rfl
    | setOp op =>
      obtain rfl := Except.ok.inj taken
      exact (congrArg VerbConfig.sliceRecord (setOp_config this op)).trans rfl
    | setNotify notify =>
      obtain rfl := Except.ok.inj taken
      exact (congrArg VerbConfig.sliceRecord (setNotify_config this notify)).trans rfl
    | clearImm =>
      obtain rfl := Except.ok.inj taken
      exact (congrArg VerbConfig.sliceRecord (clearImm_config this)).trans rfl
    | setRemoteMemory | setImm | setCas | setFaa | setMaskedCas | setMaskedFaa | setCompare
      | setSwap | setCompareMask | setSwapMask | setAdd | setAddMask =>
      obtain rfl := Except.ok.inj taken
      rfl

theorem run_recorded {verb this : RdmaSendFamily} {events : List VerbEvent}
    (ran : run VerbEvent.apply verb events = .ok this) :
    this.sliceRecord = recorded verb events := by
  induction events generalizing verb with
  | nil =>
    obtain rfl := Except.ok.inj ran
    rfl
  | cons event rest ih =>
    cases taken : event.apply verb with
    | error e => simp [run, taken] at ran
    | ok next =>
      rw [run_cons_ok VerbEvent.apply rest taken] at ran
      rw [ih ran, recorded, VerbEvent.apply_records taken]
      rfl

/-! ## Warnings -/

theorem VerbConfig.warnUnless_message {this : VerbConfig} {used : List IbvExpWrOpcode}
    {message : String} {warning : Warning} (given : warning ∈ this.warnUnless used message) :
    warning.message = message := by
  unfold warnUnless at given
  split at given
  next => cases given
  next =>
    split at given
    next => cases given
    next =>
      obtain rfl := List.mem_singleton.mp given
      rfl

-- The calls that return through `do` log nothing.
theorem VerbCall.silent {α : Type} {x : Except Failure α} {warned : Warned α}
    (called : (do return { value := ← x }) = (.ok warned : Except Failure (Warned α))) :
    warned.warnings = [] := by
  cases x with
  | error e => cases called
  | ok value =>
    obtain rfl := Except.ok.inj called
    rfl

/-- Only `set_remote_memory` warns of a mismatch. -/
theorem VerbCall.warned_mismatch {this : RdmaSendFamily} {made : VerbCall .ibvExpSendWr}
    {warned : Warned RdmaSendFamily} (called : made.warned this = .ok warned)
    (mismatch : ∃ warning ∈ warned.warnings, warning.message = sizeMismatch) :
    ∃ remote, made = .setRemoteMemory remote := by
  obtain ⟨warning, given, message⟩ := mismatch
  cases made with
  | setRemoteMemory remote => exact ⟨remote, rfl⟩
  | setSglEntry | addSglEntry | getWr | post =>
    rw [VerbCall.silent called] at given
    cases given
  | setId | setOp | setNotify | clearImm =>
    obtain rfl := Except.ok.inj called
    cases given
  | setImm | setCas | setFaa | setMaskedCas | setMaskedFaa | setCompare | setSwap | setCompareMask
    | setSwapMask | setAdd | setAddMask =>
    obtain rfl := Except.ok.inj called
    rw [VerbConfig.warnUnless_message given] at message
    exact absurd message (by decide)

theorem setRemoteMemory_mismatch (this : RdmaSendFamily) (remote : RdmaRemoteMemorySlice) :
    (∃ warning ∈ (this.setRemoteMemory remote).warnings, warning.message = sizeMismatch) ↔
      (∀ opcode, this.opcode = some opcode → opcode.isSend = false) ∧
        remote.size < this.length := by
  have sends : this.opcode = some .send ∨ this.opcode = some .sendWithImm ↔
      ¬ ∀ opcode, this.opcode = some opcode → opcode.isSend = false := by
    cases this.opcode with
    | none => simp
    | some opcode => simp [IbvExpWrOpcode.isSend, or_iff_not_imp_left]
  simp only [RdmaVerb.setRemoteMemory]
  split
  next sent =>
    have other : "specifying remote memory for send verbs" ≠ sizeMismatch := by decide
    simp [sends.mp sent, other]
  next unsent =>
    have allowed := not_not.mp (sends.not.mp unsent)
    split
    next less => exact iff_of_true ⟨_, List.mem_singleton_self _, rfl⟩ ⟨allowed, less⟩
    next enough => exact iff_of_false (by simp) fun compared => enough compared.2

/-! ## Histories -/

/-- The history has drawn the warning for these slices and this remote slice. -/
def Reported (verb : RdmaSendFamily) (events : List VerbEvent) (sgl : List RdmaMemorySlice)
    (remote : RdmaRemoteMemorySlice) : Prop :=
  ∃ first made rest this warned, events = first ++ .call made :: rest ∧
    run VerbEvent.apply verb first = .ok this ∧ made.warned this = .ok warned ∧
    warned.value.sgl = sgl ∧ warned.value.remote = some remote ∧
    ∃ warning ∈ warned.warnings, warning.message = sizeMismatch

/-- The remote slice was set when these were the slices, with no send opcode in place and more
bytes on record than the remote slice has. -/
def Compared (verb : RdmaSendFamily) (events : List VerbEvent) (sgl : List RdmaMemorySlice)
    (remote : RdmaRemoteMemorySlice) : Prop :=
  ∃ first rest, events = first ++ .call (.setRemoteMemory remote) :: rest ∧
    (recorded verb first).sgl = sgl ∧ remote.size < (recorded verb first).length ∧
    ∀ opcode, written (·.opcode) first = some opcode → opcode.isSend = false

section histories

variable {verb this : RdmaSendFamily} {events : List VerbEvent} {sgl : List RdmaMemorySlice}
  {remote : RdmaRemoteMemorySlice}

theorem run_opcode (constructed : Constructed verb)
    (ran : run VerbEvent.apply verb events = .ok this) : this.opcode = written (·.opcode) events :=
  run_written_some (·.opcode) (·.opcode) (·.opcode) constructed.control.1 ran

theorem Reported.compared (constructed : Constructed verb)
    (reported : Reported verb events sgl remote) : Compared verb events sgl remote := by
  obtain ⟨first, made, rest, mid, warned, rfl, ran, called, listed, held, mismatch⟩ := reported
  obtain ⟨other, rfl⟩ := VerbCall.warned_mismatch called mismatch
  obtain rfl := Except.ok.inj called
  obtain rfl : other = remote := Option.some.inj held
  obtain ⟨unsent, less⟩ := (setRemoteMemory_mismatch mid other).mp mismatch
  rw [run_opcode constructed ran] at unsent
  refine ⟨first, rest, rfl, ?_, ?_, unsent⟩
  · rw [← run_recorded ran]
    exact listed
  · rw [← run_recorded ran]
    exact less

theorem Compared.reported (constructed : Constructed verb)
    (ran : run VerbEvent.apply verb events = .ok this) (compared : Compared verb events sgl remote) :
    Reported verb events sgl remote := by
  obtain ⟨first, rest, rfl, listed, less, unsent⟩ := compared
  obtain ⟨mid, before, -⟩ := (run_append_ok VerbEvent.apply).mp ran
  rw [← run_recorded before] at listed less
  rw [← run_opcode constructed before] at unsent
  exact ⟨first, _, rest, mid, _, rfl, before, rfl, listed, rfl,
    (setRemoteMemory_mismatch mid remote).mpr ⟨unsent, less⟩⟩

/-! On a verb that has not been copied and never held a send opcode, only the slices matter. -/

theorem VerbEvent.record_measured {before : SliceRecord} (event : VerbEvent)
    (measured : before.length = (before.sgl.map RdmaMemorySlice.size).sum) :
    (event.record before).length = ((event.record before).sgl.map RdmaMemorySlice.size).sum := by
  unfold record
  split
  next => rfl
  next => simp [measured]
  next => exact measured

theorem recorded_measured (measured : verb.length = (verb.sgl.map RdmaMemorySlice.size).sum)
    (events : List VerbEvent) :
    (recorded verb events).length =
      ((recorded verb events).sgl.map RdmaMemorySlice.size).sum :=
  events.foldlRecOn VerbEvent.record
    (motive := fun record => record.length = (record.sgl.map RdmaMemorySlice.size).sum) measured
    fun _ right event _ => event.record_measured right

theorem compared_iff_listed (measured : verb.length = (verb.sgl.map RdmaMemorySlice.size).sum)
    (unsent : ∀ event ∈ events, ∀ opcode, event.writes.opcode = some opcode →
      opcode.isSend = false)
    (larger : remote.size.toNat < totalSize sgl) (unwrapped : totalSize sgl < 2 ^ 64) :
    Compared verb events sgl remote ↔
      ∃ first rest, events = first ++ .call (.setRemoteMemory remote) :: rest ∧
        (recorded verb first).sgl = sgl := by
  constructor
  · rintro ⟨first, rest, split, listed, -, -⟩
    exact ⟨first, rest, split, listed⟩
  · rintro ⟨first, rest, rfl, rfl⟩
    refine ⟨first, rest, rfl, rfl, ?_, fun opcode last => ?_⟩
    · rw [recorded_measured measured, UInt64.lt_iff_toNat_lt, toNat_sum_sizes,
        Nat.mod_eq_of_lt unwrapped]
      exact larger
    · obtain ⟨event, made, wrote⟩ := List.mem_filterMap.mp (List.mem_of_getLast? last)
      exact unsent event (List.mem_append_left _ made) opcode wrote

end histories

end Rdmalib2
