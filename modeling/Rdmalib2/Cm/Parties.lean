import Rdmalib2.Cm.Protocol

set_option autoImplicit false

/-!
# What one party knows

The two sides of a connection go through the same three modifications. Each stage fixes what the
driver has been told, and what a party gives out describes its own queue pair.
-/

namespace Rdmalib2

/-! ## Attributes -/

namespace Driven

variable {α : Type}

@[simp] theorem attr_push (this : Driven) (qp : IbvQp) (call : ModifyCall) (mask : IbvQpAttrMask)
    (field : IbvQpAttr → α) :
    attr { qp, accepted := this.accepted ++ [call] } mask field =
      if mask ∈ call.flags then some (field call.attr) else this.attr mask field := by
  simp [attr]

end Driven

/-! ## The three modifications -/

@[simp] def ConnectStage.state : ConnectStage → IbvQpState
  | .toInit => .reset
  | .toRtr => .init
  | .toRts => .rtr
  | .done => .rts

-- The remote end that an address and a PSN came from.
def Info.address (info : Info) : Address :=
  { gid := info.gid, lid := info.lid.toUInt16, qpNum := info.qpNum }

@[simp] def ConnectStage.routed : ConnectStage → Bool
  | .toInit | .toRtr => false
  | .toRts | .done => true

/-- What the driver knows of a queue pair that is being connected. -/
structure Progress (remote : Info) (stage : ConnectStage) (this : Driven) : Prop where
  state : this.qp.state = stage.state
  type : this.qp.qpType = .rc
  destination : this.destination = if stage.routed then some remote.address else none
  rqPsn : this.rqPsn = if stage.routed then some remote.psn else none
  sqPsn : this.sqPsn = if stage = .done then some RdmaQp.universalInitPsn else none

theorem fresh_progress (remote : Info) (qpNum : UInt32) :
    Progress remote .toInit { qp := { qpNum, qpType := .rc } } :=
  ⟨rfl, rfl, rfl, rfl, rfl⟩

theorem modifyQp_result {driver : ModifyDriver} {qp next : IbvQp} {call : ModifyCall}
    {message : String} (taken : (modifyQp driver qp call message).result = .ok next) :
    next = { qp with state := call.attr.qpState } := by
  unfold modifyQp at taken
  split at taken
  next => cases taken
  next => exact (Except.ok.inj taken).symm

namespace Progress

variable {driver : ModifyDriver} {remote : Info} {stage : ConnectStage} {this next : Driven}

theorem advance_modifies {call : ModifyCall} {message : String}
    (step : connectStep driver remote 1 this.qp stage = modifyQp driver this.qp call message)
    (taken : this.advance driver remote stage = .ok next) :
    next = { qp := { this.qp with state := call.attr.qpState }
             accepted := this.accepted ++ [call] } := by
  simp only [Driven.advance, step] at taken
  cases accepted : (modifyQp driver this.qp call message).result with
  | error e =>
    rw [accepted] at taken
    cases taken
  | ok qp =>
    rw [accepted] at taken
    obtain rfl := Except.ok.inj taken
    rw [modifyQp_result accepted]
    rfl

/-- A modification that succeeds takes the queue pair to the next stage. -/
theorem advance (progress : Progress remote stage this)
    (taken : this.advance driver remote stage = .ok next) :
    Progress remote stage.next next ∧ next.qp.qpNum = this.qp.qpNum := by
  obtain ⟨state, type, destination, rqPsn, sqPsn⟩ := progress
  cases stage with
  | toInit =>
    have rc : ¬ this.qp.qpType ≠ .rc := by simp [type]
    have reset : ¬ this.qp.state ≠ .reset := by simp [state]
    have step : connectStep driver remote 1 this.qp .toInit = modifyQp driver this.qp _ _ :=
      (if_neg rc).trans (if_neg reset)
    obtain rfl := advance_modifies step taken
    refine ⟨⟨rfl, type, ?_, ?_, ?_⟩, rfl⟩
    · simpa [Driven.destination] using destination
    · simpa [Driven.rqPsn] using rqPsn
    · simpa [Driven.sqPsn] using sqPsn
  | toRtr =>
    have init : ¬ this.qp.state ≠ .init := by simp [state]
    have step : connectStep driver remote 1 this.qp .toRtr = modifyQp driver this.qp _ _ :=
      if_neg init
    obtain rfl := advance_modifies step taken
    refine ⟨⟨rfl, type, ?_, ?_, ?_⟩, rfl⟩
    · simp [Driven.destination, Info.address]
    · simp [Driven.rqPsn]
    · simpa [Driven.sqPsn] using sqPsn
  | toRts =>
    have rtr : ¬ this.qp.state ≠ .rtr := by simp [state]
    have step : connectStep driver remote 1 this.qp .toRts = modifyQp driver this.qp _ _ :=
      if_neg rtr
    obtain rfl := advance_modifies step taken
    refine ⟨⟨rfl, type, ?_, ?_, ?_⟩, rfl⟩
    · simpa [Driven.destination] using destination
    · simpa [Driven.rqPsn] using rqPsn
    · simp [Driven.sqPsn]
  | done =>
    obtain rfl : ({ this with accepted := this.accepted ++ [] } : Driven) = next :=
      Except.ok.inj taken
    simpa using ⟨state, type, destination, rqPsn, sqPsn⟩

end Progress

/-! ## What a party gives out -/

/-- The information of a queue pair that uses port 1. -/
structure Describes (ctx : RdmaContext) (qpNum : UInt32) (info : Info) : Prop where
  address : addressOf ctx qpNum = some info.address
  psn : info.psn = RdmaQp.universalInitPsn

theorem getInfo_describes {ctx : RdmaContext} {qp : IbvQp} {info : Info}
    (given : ({ ctx, qp := some qp } : RdmaQp .rc).getInfo = .ok info) :
    Describes ctx qp.qpNum info := by
  obtain ⟨hasGid, hasLid, handle, psn⟩ := RdmaQp.getInfo_ok.mp given
  refine ⟨?_, psn⟩
  cases found : ctx.portAttr 1 with
  | error e => simp [RdmaContext.getGid, found, Except.map] at hasGid
  | ok attr =>
    have gid : attr.1 = info.gid := by
      simpa [RdmaContext.getGid, found, Except.map] using hasGid
    have lid : attr.2.lid.toUInt32 = info.lid := by
      simpa [RdmaContext.getPortLid, found, Except.map] using hasLid
    have number : qp.qpNum = info.qpNum := by simpa using handle
    simp [addressOf, found, Info.address, gid, ← lid, number]

/-! ## Handlers -/

section handlers

variable {ι : Type}

-- The handler's queue pair is connected, and it has this to say of it.
def Exchange.Describes (setup : Setup ι) (exchange : Exchange ι) (selfInfo : Info) : Prop :=
  ∃ qp, exchange.qp = some qp ∧ Progress exchange.request .done qp ∧
    Rdmalib2.Describes setup.serverCtx qp.qp.qpNum selfInfo

def Exchange.Handles (setup : Setup ι) (exchange : Exchange ι) : HandlerStage → Prop
  | .requested => exchange.qp = none
  | .connecting object stage =>
      object.ctx = setup.serverCtx ∧ object.port = 1 ∧
        ∃ qp, exchange.qp = some qp ∧ Progress exchange.request stage qp
  | .informed _ selfInfo | .replied selfInfo | .delivered selfInfo =>
      exchange.Describes setup selfInfo
  | .called object _ selfInfo => object.qp = none ∧ exchange.Describes setup selfInfo

/-- The call carries what its caller gave out, and the handler has what its stage says. -/
structure Exchange.Ok (setup : Setup ι) (exchange : Exchange ι) : Prop where
  request : Rdmalib2.Describes (setup.ctx exchange.caller) (setup.qpNum exchange.caller)
    exchange.request
  handles : exchange.Handles setup exchange.stage

-- What one action can do to a call.
inductive HandlerStep (setup : Setup ι) (exchange : Exchange ι) : Exchange ι → Prop
  | served {call : Nat} {qpNum : UInt32} (before : exchange.stage = .requested) :
      HandlerStep setup exchange { exchange with
        stage := .connecting { ctx := setup.serverCtx, qp := some call } .toInit
        qp := some { qp := { qpNum, qpType := .rc } } }
  | advanced {object : QpObject} {stage : ConnectStage} {driver : ModifyDriver} {qp next : Driven}
      (before : exchange.stage = .connecting object stage) (held : exchange.qp = some qp)
      (taken : qp.advance driver exchange.request stage = .ok next) :
      HandlerStep setup exchange { exchange with
        stage := .connecting object stage.next, qp := some next }
  | informed {object : QpObject} {selfInfo : Info} (before : exchange.stage = .connecting object .done)
      (given : (object.view .rc fun _ => exchange.qp.map Driven.qp).getInfo = .ok selfInfo) :
      HandlerStep setup exchange { exchange with stage := .informed object selfInfo }
  | called {object : QpObject} {selfInfo : Info} (before : exchange.stage = .informed object selfInfo) :
      HandlerStep setup exchange { exchange with
        stage := .called object.moveConstruct.2 object.moveConstruct.1 selfInfo }
  | replied {object param : QpObject} {selfInfo : Info}
      (before : exchange.stage = .called object param selfInfo) :
      HandlerStep setup exchange { exchange with
        stage := .replied selfInfo, qp := if object.destroy = [] then exchange.qp else none }
  | delivered {selfInfo : Info} (before : exchange.stage = .replied selfInfo) :
      HandlerStep setup exchange { exchange with stage := .delivered selfInfo }

namespace HandlerStep

variable {setup : Setup ι} {exchange next : Exchange ι}

theorem keeps (step : HandlerStep setup exchange next) :
    next.caller = exchange.caller ∧ next.request = exchange.request ∧
      ∀ info, exchange.stage ≠ .delivered info := by
  cases step with
  | served before | advanced before | informed before | called before | replied before
  | delivered before => exact ⟨rfl, rfl, by simp [before]⟩

theorem ok (step : HandlerStep setup exchange next) (ok : exchange.Ok setup) : next.Ok setup := by
  obtain ⟨request, handles⟩ := ok
  cases step with
  | served before => exact ⟨request, rfl, rfl, _, rfl, fresh_progress _ _⟩
  | advanced before held taken =>
    rw [before] at handles
    obtain ⟨ctx, port, qp, same, progress⟩ := handles
    obtain rfl := Option.some.inj (held.symm.trans same)
    exact ⟨request, ctx, port, _, rfl, (progress.advance taken).1⟩
  | @informed object selfInfo before given =>
    rw [before] at handles
    obtain ⟨ctx, port, qp, held, progress⟩ := handles
    refine ⟨request, qp, held, progress, ?_⟩
    obtain ⟨own, handle, through⟩ := object
    obtain rfl : own = setup.serverCtx := ctx
    obtain rfl : through = 1 := port
    cases handle with
    | none =>
      obtain ⟨-, -, missing, -⟩ := RdmaQp.getInfo_ok.mp given
      cases missing
    | some number =>
      rw [held] at given
      exact getInfo_describes given
  | called before =>
    rw [before] at handles
    exact ⟨request, rfl, handles⟩
  | @replied object param selfInfo before =>
    rw [before] at handles
    obtain ⟨empty, qp, held, connected⟩ := handles
    have nothing : object.destroy = [] := by rw [QpObject.destroy, empty]
    exact ⟨request, qp, (if_pos nothing).trans held, connected⟩
  | delivered before =>
    rw [before] at handles
    exact ⟨request, handles⟩

/-- A queue pair that was there keeps its number, and only the last modification leads to RTS. -/
theorem qp (step : HandlerStep setup exchange next) (ok : exchange.Ok setup) {after : Driven}
    (held : next.qp = some after) :
    (exchange.qp = none ∧ after.qp.state = .reset) ∨
      ∃ before, exchange.qp = some before ∧ after.qp.qpNum = before.qp.qpNum ∧
        (after.qp.state = .rts → before.qp.state = .rts ∨
          ∃ object, next.stage = .connecting object .done) := by
  obtain ⟨request, handles⟩ := ok
  cases step with
  | served before =>
    rw [before] at handles
    obtain rfl := Option.some.inj held
    exact .inl ⟨handles, rfl⟩
  | @advanced object stage driver qp moved before own taken =>
    rw [before] at handles
    obtain ⟨-, -, qp, same, progress⟩ := handles
    obtain rfl := Option.some.inj (own.symm.trans same)
    obtain rfl := Option.some.inj held
    obtain ⟨reached, number⟩ := progress.advance taken
    refine .inr ⟨_, own, number, fun rts => .inr ⟨object, ?_⟩⟩
    rw [reached.state] at rts
    cases stage with
    | toInit | toRtr => cases rts
    | toRts | done => rfl
  | informed before | called before | delivered before => exact .inr ⟨after, held, rfl, .inl⟩
  | replied before =>
    simp only at held
    split at held
    next => exact .inr ⟨after, held, rfl, .inl⟩
    next => cases held

end HandlerStep

end handlers

end Rdmalib2
