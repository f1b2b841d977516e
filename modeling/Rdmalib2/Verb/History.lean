import Rdmalib2.Shared.LastWrite
import Rdmalib2.Verb.AtomicGate

set_option autoImplicit false

/-!
# The control part of posted requests

Everything in a request but its slices is what the setters wrote last, whatever was built,
posted or linked in between.
-/

namespace Rdmalib2

open Shared

-- What a call writes to the configuration of a send verb, the slices apart. `clear_imm` writes
-- that there is no immediate data.
structure ControlWrites where
  opcode : Option IbvExpWrOpcode := none
  remote : Option RdmaRemoteMemorySlice := none
  notify : Option Bool := none
  imm : Option (Option UInt32) := none
  id : Option UInt64 := none
  compareAdd : Option UInt64 := none
  swap : Option UInt64 := none
  compareAddMask : Option UInt64 := none
  swapMask : Option UInt64 := none
  deriving DecidableEq, Repr

def VerbCall.writes : VerbCall .ibvExpSendWr → ControlWrites
  | .setId id => { id := some id }
  | .setOp op => { opcode := some op }
  | .setRemoteMemory remote => { remote := some remote }
  | .setNotify notify => { notify := some notify }
  | .setImm immData => { imm := some (some immData) }
  | .clearImm => { imm := some none }
  | .setCas compare swap =>
      { opcode := some .atomicCmpAndSwp, compareAdd := some compare, swap := some swap }
  | .setFaa add => { opcode := some .atomicFetchAndAdd, compareAdd := some add }
  | .setMaskedCas compare swap compareMask swapMask =>
      { opcode := some .extMaskedAtomicCmpAndSwp, compareAdd := some compare, swap := some swap
        compareAddMask := some compareMask, swapMask := some swapMask }
  | .setMaskedFaa add addMask =>
      { opcode := some .extMaskedAtomicFetchAndAdd, compareAdd := some add
        compareAddMask := some addMask }
  | .setCompare compare => { compareAdd := some compare }
  | .setSwap swap => { swap := some swap }
  | .setCompareMask compareMask => { compareAddMask := some compareMask }
  | .setSwapMask swapMask => { swapMask := some swapMask }
  | .setAdd add => { compareAdd := some add }
  | .setAddMask addMask => { compareAddMask := some addMask }
  | .setSglEntry .. | .addSglEntry .. | .getWr | .post .. => {}

-- A call on the verb, or what linking it in a batch does to its next pointer.
inductive VerbEvent where
  | call (made : VerbCall .ibvExpSendWr)
  | link (next : Option Nat)

namespace VerbEvent

def apply (this : RdmaSendFamily) : VerbEvent → Except Failure RdmaSendFamily
  | .call made => made.apply this
  | .link next => .ok { this with wr.next := next }

def writes : VerbEvent → ControlWrites
  | .call made => made.writes
  | .link _ => {}

end VerbEvent

-- What a history wrote last to one slot.
def written {β : Type} (slot : ControlWrites → Option β) (events : List VerbEvent) : Option β :=
  lastWrite (fun event => slot event.writes) events

/-! ## One event -/

def VerbConfig.imm (this : VerbConfig) : Option UInt32 :=
  if this.carryImm then some this.immData else none

structure ControlWrites.Change (writes : ControlWrites) (before after : VerbConfig) : Prop where
  opcode : after.opcode = (writes.opcode.map some).getD before.opcode
  remote : after.remote = (writes.remote.map some).getD before.remote
  notify : after.notified = writes.notify.getD before.notified
  imm : after.imm = writes.imm.getD before.imm
  id : after.wrId = writes.id.getD before.wrId
  compareAdd : after.compareAdd = writes.compareAdd.getD before.compareAdd
  swap : after.swap = writes.swap.getD before.swap
  compareAddMask : after.compareAddMask = writes.compareAddMask.getD before.compareAddMask
  swapMask : after.swapMask = writes.swapMask.getD before.swapMask

theorem ControlWrites.Change.none {before after : VerbConfig} (same : after = before) :
    ControlWrites.Change {} before after := by
  subst same
  constructor <;> rfl

/-! The setters that skip a value they already hold leave the value they were given. -/

section skips

variable (this : RdmaSendFamily)

theorem setId_config (id : UInt64) :
    (RdmaVerb.setId this id).toVerbConfig = { this.toVerbConfig with wrId := id } := by
  unfold RdmaVerb.setId
  split
  next => rfl
  next same =>
    obtain rfl := not_not.mp same
    rfl

theorem setOp_config (op : IbvExpWrOpcode) :
    (RdmaVerb.setOp this op).toVerbConfig = { this.toVerbConfig with opcode := some op } := by
  unfold RdmaVerb.setOp
  split
  next => rfl
  next same =>
    rw [← not_not.mp same]

theorem setNotify_config (notify : Bool) :
    (RdmaVerb.setNotify this notify).toVerbConfig = { this.toVerbConfig with notified := notify } := by
  unfold RdmaVerb.setNotify
  split
  next => rfl
  next same =>
    obtain rfl := not_not.mp same
    rfl

theorem clearImm_config :
    (RdmaVerb.clearImm this).toVerbConfig = { this.toVerbConfig with carryImm := false } := by
  unfold RdmaVerb.clearImm
  split
  next => rfl
  next same =>
    rw [← Bool.eq_false_iff.mpr same]

end skips

theorem VerbCall.apply_changes {this next : RdmaSendFamily} {call : VerbCall .ibvExpSendWr}
    (taken : call.apply this = .ok next) :
    call.writes.Change this.toVerbConfig next.toVerbConfig := by
  cases call with
  | setId id =>
    obtain rfl := Except.ok.inj taken
    change ControlWrites.Change _ _ (RdmaVerb.setId this id).toVerbConfig
    rw [setId_config]
    constructor <;> rfl
  | setOp op =>
    obtain rfl := Except.ok.inj taken
    change ControlWrites.Change _ _ (RdmaVerb.setOp this op).toVerbConfig
    rw [setOp_config]
    constructor <;> rfl
  | setNotify notify =>
    obtain rfl := Except.ok.inj taken
    change ControlWrites.Change _ _ (RdmaVerb.setNotify this notify).toVerbConfig
    rw [setNotify_config]
    constructor <;> rfl
  | clearImm =>
    obtain rfl := Except.ok.inj taken
    change ControlWrites.Change _ _ (RdmaVerb.clearImm this).toVerbConfig
    rw [clearImm_config]
    constructor <;> rfl
  | setRemoteMemory | setImm | setCas | setFaa | setMaskedCas | setMaskedFaa | setCompare | setSwap
    | setCompareMask | setSwapMask | setAdd | setAddMask =>
    obtain rfl := Except.ok.inj taken
    constructor <;> rfl
  | setSglEntry head tail =>
    rw [apply_setSglEntry] at taken
    obtain ⟨-, rfl⟩ := RdmaVerb.setSglEntry_ok _ taken
    constructor <;> rfl
  | addSglEntry head tail =>
    rw [apply_addSglEntry] at taken
    obtain ⟨-, rfl⟩ := RdmaVerb.addSglEntry_cons_ok head tail taken
    constructor <;> rfl
  | getWr =>
    rw [apply_getWr] at taken
    exact .none (RdmaVerb.getWr_config taken)
  | post type ret =>
    rw [apply_post] at taken
    exact .none (RdmaVerb.getWr_config (postVerb_ok taken))

theorem VerbEvent.apply_changes {this next : RdmaSendFamily} {event : VerbEvent}
    (taken : event.apply this = .ok next) :
    event.writes.Change this.toVerbConfig next.toVerbConfig := by
  cases event with
  | call made => exact VerbCall.apply_changes taken
  | link target =>
    injection taken with same
    subst same
    exact .none rfl

theorem VerbEvent.apply_coherent {this next : RdmaSendFamily} {event : VerbEvent}
    (coherent : this.Coherent) (taken : event.apply this = .ok next) : next.Coherent := by
  cases event with
  | call made => exact RdmaVerb.effect_coherent coherent (VerbCall.apply_effect taken)
  | link target =>
    injection taken with same
    subst same
    exact ⟨coherent.list, coherent.sgList, coherent.wrId, coherent.fields⟩

/-! ## Histories -/

section histories

variable {verb this : RdmaSendFamily} {events : List VerbEvent}

theorem run_written {β : Type} (slot : VerbConfig → β) (writes : ControlWrites → Option β)
    (changed : ∀ {w : ControlWrites} {before after : VerbConfig}, w.Change before after →
      slot after = (writes w).getD (slot before))
    (ran : run VerbEvent.apply verb events = .ok this) :
    slot this.toVerbConfig = (written writes events).getD (slot verb.toVerbConfig) :=
  run_lastWrite VerbEvent.apply (fun s => slot s.toVerbConfig) _
    (fun _ _ _ taken => changed (VerbEvent.apply_changes taken)) events ran

-- Of a slot that starts empty the history says all.
theorem run_written_some {β : Type} (slot : VerbConfig → Option β)
    (writes : ControlWrites → Option β)
    (changed : ∀ {w : ControlWrites} {before after : VerbConfig}, w.Change before after →
      slot after = ((writes w).map some).getD (slot before))
    (empty : slot verb.toVerbConfig = none)
    (ran : run VerbEvent.apply verb events = .ok this) :
    slot this.toVerbConfig = written writes events := by
  have last := run_written slot (fun w => (writes w).map some) changed ran
  have mapped : written (fun w => (writes w).map some) events =
      (written writes events).map some := by
    unfold written lastWrite
    rw [← List.map_filterMap, List.getLast?_map]
  rw [last, mapped, empty]
  cases written writes events <;> rfl

end histories

-- The unions of a request for a remote slice, with a member for the one opcode that reads it.
def wrFor (opcode : IbvExpWrOpcode) (remote : RdmaRemoteMemorySlice) (compareAdd swap : UInt64) :
    WrUnion :=
  match opcode with
  | .rdmaRead | .rdmaWrite | .rdmaWriteWithImm => .rdma remote.getAddr remote.getRkey
  | .atomicCmpAndSwp | .atomicFetchAndAdd =>
      .atomic remote.getAddr remote.getRkey compareAdd swap
  | _ => .zero

def extOpFor (opcode : IbvExpWrOpcode) (remote : RdmaRemoteMemorySlice)
    (compareAdd swap compareAddMask swapMask : UInt64) : ExtOpUnion :=
  match opcode with
  | .extMaskedAtomicCmpAndSwp =>
      .maskedAtomics remote.getAddr remote.getRkey
        (.cmpSwap compareAdd swap compareAddMask swapMask)
  | .extMaskedAtomicFetchAndAdd =>
      .maskedAtomics remote.getAddr remote.getRkey (.fetchAdd compareAdd compareAddMask)
  | _ => .zero

/-- The control part of a request is what the history wrote last; only the notify flag may come
from a verb that was copied. -/
structure FollowsHistory (type : IbvQpType) (verb : RdmaSendFamily) (events : List VerbEvent)
    (request : Request) : Prop where
  opcode : written (·.opcode) events = some request.send.expOpcode
  compat : qpVerbCompat type request.send.expOpcode = true
  send : request.send.expOpcode.isSend = true →
    request.send.wr = .zero ∧ request.send.extOp = .zero
  remote : request.send.expOpcode.isSend = false →
    ∃ remote, written (·.remote) events = some remote ∧
      request.send.wr = wrFor request.send.expOpcode remote
        ((written (·.compareAdd) events).getD 0) ((written (·.swap) events).getD 0) ∧
      request.send.extOp = extOpFor request.send.expOpcode remote
        ((written (·.compareAdd) events).getD 0) ((written (·.swap) events).getD 0)
        ((written (·.compareAddMask) events).getD 0) ((written (·.swapMask) events).getD 0)
  signaled : .signaled ∈ request.send.expSendFlags ↔
    (written (·.notify) events).getD verb.notified = true
  imm : request.send.exImmData = ((written (·.imm) events).getD none).getD 0
  id : ∀ id, written (·.id) events = some id → request.wrId = id

theorem Constructed.control {verb : RdmaSendFamily} (constructed : Constructed verb) :
    verb.opcode = none ∧ verb.remote = none ∧ verb.toVerbConfig.imm = none ∧
      verb.compareAdd = 0 ∧ verb.swap = 0 ∧ verb.compareAddMask = 0 ∧ verb.swapMask = 0 := by
  cases constructed with
  | default | copy | move => exact ⟨rfl, rfl, rfl, rfl, rfl, rfl, rfl⟩
  | slices junk head tail built =>
    obtain ⟨-, rfl⟩ := RdmaVerb.setSglEntry_ok _ built
    exact ⟨rfl, rfl, rfl, rfl, rfl, rfl, rfl⟩

theorem Constructed.history_coherent {verb this : RdmaSendFamily} {events : List VerbEvent}
    (constructed : Constructed verb) (ran : run VerbEvent.apply verb events = .ok this) :
    this.Coherent :=
  run_invariant VerbEvent.apply RdmaVerb.Coherent
    (fun _ _ _ coherent taken => VerbEvent.apply_coherent coherent taken) events
    constructed.coherent ran

theorem postVerb_submits {type : IbvQpType} {ret : Int} {this : RdmaSendFamily}
    {request : Request} (submitted : request ∈ (postVerb type ret this).submitted.flatten) :
    ∃ opcode next, this.opcode = some opcode ∧ qpVerbCompat type opcode = true ∧
      this.getWr = .ok next ∧ request = next.request := by
  unfold postVerb at submitted
  split at submitted
  next => simp at submitted
  next able =>
    split at submitted
    next => simp at submitted
    next next built =>
      unfold postable at able
      cases present : this.opcode with
      | none => simp [present] at able
      | some opcode =>
        refine ⟨opcode, next, rfl, by simpa [present] using able, built, ?_⟩
        simpa using submitted

namespace VerbConfig

variable {this : VerbConfig} {opcode : IbvExpWrOpcode}

theorem sendFields_of_send (send : opcode.isSend = true) :
    (this.sendFields opcode).wr = .zero ∧ (this.sendFields opcode).extOp = .zero := by
  unfold sendFields
  cases this.remote <;> cases opcode <;> simp [IbvExpWrOpcode.isSend] at send ⊢

theorem sendFields_of_remote (send : opcode.isSend = false) {remote : RdmaRemoteMemorySlice}
    (present : this.remote = some remote) :
    (this.sendFields opcode).wr = wrFor opcode remote this.compareAdd this.swap ∧
      (this.sendFields opcode).extOp =
        extOpFor opcode remote this.compareAdd this.swap this.compareAddMask this.swapMask := by
  unfold sendFields
  rw [present]
  cases opcode <;> simp [IbvExpWrOpcode.isSend] at send <;> exact ⟨rfl, rfl⟩

theorem sendFields_signaled :
    .signaled ∈ (this.sendFields opcode).expSendFlags ↔ this.notified = true := by
  unfold sendFields
  cases this.remote <;> cases opcode <;> cases this.notified <;> simp

theorem sendFields_imm : (this.sendFields opcode).exImmData = this.imm.getD 0 := by
  unfold sendFields imm
  cases this.remote <;> cases opcode <;> cases this.carryImm <;> rfl

end VerbConfig

theorem posted_follows_history {verb this : RdmaSendFamily} (constructed : Constructed verb)
    {events : List VerbEvent} (ran : run VerbEvent.apply verb events = .ok this)
    (type : IbvQpType) (ret : Int) {request : Request}
    (submitted : request ∈ (postVerb type ret this).submitted.flatten) :
    FollowsHistory type verb events request := by
  have coherent := constructed.history_coherent ran
  obtain ⟨noOpcode, noRemote, noImm, noCompare, noSwap, noCompareMask, noSwapMask⟩ :=
    constructed.control
  obtain ⟨opcode, next, present, compat, built, rfl⟩ := postVerb_submits submitted
  have config := RdmaVerb.getWr_config built
  have flags := RdmaVerb.getWr_flags built
  have after := RdmaVerb.getWr_coherent coherent built
  -- The request is the one of the configuration in force, whether cached or rebuilt.
  obtain ⟨other, same, sendable, fields⟩ := after.fields flags.2
  have wrId := after.wrId flags.2
  rw [config] at same sendable fields wrId
  obtain rfl : opcode = other := Option.some.inj (present.symm.trans same)
  change FollowsHistory type verb events
    { next.request with wrId := next.wr.wrId, send := next.wr.send }
  rw [fields, wrId]
  constructor
  case opcode =>
    rw [← run_written_some (·.opcode) (·.opcode) (·.opcode) noOpcode ran, present,
      VerbConfig.sendFields_expOpcode]
  case compat => simpa using compat
  case send =>
    intro send
    exact VerbConfig.sendFields_of_send (by simpa using send)
  case remote =>
    intro send
    rw [VerbConfig.sendFields_expOpcode] at send ⊢
    have given : this.remote.isSome = true := by
      rcases sendable with sent | ⟨given, -⟩
      · rw [send] at sent
        cases sent
      · exact given
    obtain ⟨remote, given⟩ := Option.isSome_iff_exists.mp given
    refine ⟨remote, ?_, ?_⟩
    · rw [← run_written_some (·.remote) (·.remote) (·.remote) noRemote ran, given]
    · have compareAdd := run_written (·.compareAdd) (·.compareAdd) (·.compareAdd) ran
      have swap := run_written (·.swap) (·.swap) (·.swap) ran
      have compareAddMask := run_written (·.compareAddMask) (·.compareAddMask) (·.compareAddMask) ran
      have swapMask := run_written (·.swapMask) (·.swapMask) (·.swapMask) ran
      rw [noCompare] at compareAdd
      rw [noSwap] at swap
      rw [noCompareMask] at compareAddMask
      rw [noSwapMask] at swapMask
      rw [← compareAdd, ← swap, ← compareAddMask, ← swapMask]
      exact VerbConfig.sendFields_of_remote send given
  case signaled =>
    rw [← run_written (·.notified) (·.notify) (·.notify) ran]
    exact VerbConfig.sendFields_signaled
  case imm =>
    rw [← noImm, ← run_written (·.imm) (·.imm) (·.imm) ran]
    exact VerbConfig.sendFields_imm
  case id =>
    intro id last
    have slot := run_written (·.wrId) (·.id) (·.id) ran
    rw [last] at slot
    exact slot

-- A compare-and-swap that was posted and becomes a read keeps none of its operands.
def readAfterCas : List VerbEvent :=
  [.call (.setCas 5 6), .call (.setRemoteMemory (.ofKey 64 8 3)), .call (.addSglEntry (word 0) []),
    .call (.post .rc 0), .link (some 1), .call (.setOp .rdmaRead), .call (.setId 7)]

theorem readAfterCas_follows :
    ∃ this request, run VerbEvent.apply freshSend readAfterCas = .ok this ∧
      (postVerb .rc 0 this).submitted = [[request]] ∧ request.send.wr = .rdma 64 3 ∧
      FollowsHistory .rc freshSend readAfterCas request :=
  ⟨_, _, rfl, rfl, rfl, posted_follows_history (.default _) rfl .rc 0 (List.mem_singleton.mpr rfl)⟩

end Rdmalib2
