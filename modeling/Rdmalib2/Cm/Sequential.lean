import Rdmalib2.Cm.Handler

set_option autoImplicit false

/-!
# Interleavings are sequential

A client that is connected and the handler of its call have done, between them and among all the
others, what `cm::connect` does with a server that runs the handler at once.
-/

namespace Rdmalib2

open Shared

/-! ## A connection on its own -/

-- A queue pair and what it was told, once a driver that refuses nothing has come to a stage.
def Driven.moved (remote : Info) (stage : ConnectStage) (this : Driven) : Driven where
  qp := { this.qp with state := stage.next.state }
  accepted := this.accepted ++ (connectStep accepting remote 1 this.qp stage).calls

def Driven.fresh (qpNum : UInt32) : Driven := { qp := { qpNum, qpType := .rc } }

def Driven.reached (remote : Info) (qpNum : UInt32) : ConnectStage → Driven
  | .toInit => fresh qpNum
  | .toRtr => (fresh qpNum).moved remote .toInit
  | .toRts => ((fresh qpNum).moved remote .toInit).moved remote .toRtr
  | .done => (((fresh qpNum).moved remote .toInit).moved remote .toRtr).moved remote .toRts

/-- Whatever the drivers of the single modifications are, those that succeed do the same. -/
theorem advance_reached {driver : ModifyDriver} {remote : Info} {qpNum : UInt32}
    {stage : ConnectStage} {next : Driven} (pending : stage ≠ .done)
    (taken : (Driven.reached remote qpNum stage).advance driver remote stage = .ok next) :
    next = Driven.reached remote qpNum stage.next := by
  cases stage with
  | toInit | toRtr | toRts => exact Progress.advance_modifies rfl taken
  | done => exact absurd rfl pending

theorem reached_qpNum (remote : Info) (qpNum : UInt32) (stage : ConnectStage) :
    (Driven.reached remote qpNum stage).qp.qpNum = qpNum := by
  cases stage <;> rfl

-- An object that holds the queue pair and uses port 1.
def holding (ctx : RdmaContext) (qp : Driven) : RdmaQp .rc := { ctx, qp := some qp.qp }

theorem connect_reached (ctx : RdmaContext) (qpNum : UInt32) (remote : Info) :
    (holding ctx (.fresh qpNum)).connect accepting remote =
      { calls := (Driven.reached remote qpNum .done).accepted
        result := .ok (holding ctx (.reached remote qpNum .done)) } := rfl

variable {ι : Type} {setup : Setup ι} {s next : Network ι}

-- A server that runs the handler at once; it has no reply where the handler fails.
def replyTo (setup : Setup ι) (qpNum : UInt32) (request : Info) : Info :=
  match (establish setup (.ok qpNum) accepting (.ok false) request).result with
  | .ok handled => handled.selfInfo
  | .error _ => { gid := {}, lid := 0, qpNum := 0, psn := 0 }

theorem establish_reached {qpNum : UInt32} {request selfInfo : Info}
    (given : (holding setup.serverCtx (.reached request qpNum .done)).getInfo = .ok selfInfo)
    (shouldStop : Bool) :
    establish setup (.ok qpNum) accepting (.ok shouldStop) request =
      { calls := (Driven.reached request qpNum .done).accepted
        result := .ok
          { qp := holding setup.serverCtx (.reached request qpNum .done), selfInfo
            stops := setup.withStop && shouldStop } } := by
  have connected := connect_reached setup.serverCtx qpNum request
  unfold holding Driven.fresh at connected
  simp only [establish, Modified.lift, Modified.andThen_done, connected]
  unfold holding at given ⊢
  simp [Modified.andThen, given]

/-! ## Among others -/

def Exchange.Sequential (setup : Setup ι) (exchange : Exchange ι) : HandlerStage → Prop
  | .requested => True
  | .connecting _ stage => ∃ qpNum, exchange.qp = some (.reached exchange.request qpNum stage)
  | .informed _ selfInfo | .called _ _ selfInfo | .replied selfInfo | .delivered selfInfo =>
      ∃ qpNum, exchange.qp = some (.reached exchange.request qpNum .done) ∧
        (holding setup.serverCtx (.reached exchange.request qpNum .done)).getInfo = .ok selfInfo

def ClientPhase.Sequential (qpNum : UInt32) (qp : Driven) : ClientPhase → Prop
  | .idle | .waiting _ => qp = .fresh qpNum
  | .connecting remote stage => qp = .reached remote qpNum stage
  | .exited _ => True

namespace Network

structure Sequential (setup : Setup ι) (s : Network ι) : Prop where
  asked : ∀ call exchange, s.Has call exchange →
    (holding (setup.ctx exchange.caller) (.fresh (setup.qpNum exchange.caller))).getInfo =
      .ok exchange.request
  calls : ∀ call exchange, s.Has call exchange → exchange.Sequential setup exchange.stage
  clients : ∀ id, (s.clients id).phase.Sequential (setup.qpNum id) (s.clients id).qp

theorem start_sequential (setup : Setup ι) : Sequential setup (start setup) where
  asked call exchange found := absurd found (start_calls setup call exchange)
  calls call exchange found := absurd found (start_calls setup call exchange)
  clients _ := rfl

theorem Exchange.advance_ok {exchange : Exchange ι} {driver : ModifyDriver} {object : QpObject}
    {stage : ConnectStage} {next : Driven}
    (taken : exchange.advance driver object stage = .ok next) :
    ∃ qp, exchange.qp = some qp ∧ qp.advance driver exchange.request stage = .ok next := by
  obtain ⟨qp, found, advanced⟩ := bind_ok.mp taken
  exact ⟨qp, deref_ok found, advanced⟩

section handles

variable {call : Nat} {exchange later : Exchange ι} {action : NetAction ι} {stops : Bool}
  {rts : List (Party ι)}

theorem Handles.keeps (handles : Handles setup s call exchange action later stops rts) :
    later.caller = exchange.caller ∧ later.request = exchange.request := by
  cases handles <;> exact ⟨rfl, rfl⟩

theorem Handles.sequential (handles : Handles setup s call exchange action later stops rts)
    (ok : exchange.Ok setup) (sequential : exchange.Sequential setup exchange.stage) :
    later.Sequential setup later.stage := by
  cases handles with
  | @serve qpNum before unused => exact ⟨qpNum, rfl⟩
  | @handle driver object stage qp before pending advanced =>
    rw [before] at sequential
    obtain ⟨qpNum, held⟩ := sequential
    obtain ⟨own, same, advanced⟩ := Exchange.advance_ok advanced
    obtain rfl := Option.some.inj (held.symm.trans same)
    exact ⟨qpNum, congrArg some (advance_reached pending advanced)⟩
  | @inform object selfInfo before given =>
    have handles := ok.handles
    rw [before] at sequential handles
    obtain ⟨qpNum, held⟩ := sequential
    obtain ⟨ctx, port, -⟩ := handles
    refine ⟨qpNum, held, ?_⟩
    obtain ⟨own, handle, through⟩ := object
    obtain rfl : own = setup.serverCtx := ctx
    obtain rfl : through = 1 := port
    cases handle with
    | none =>
      obtain ⟨-, -, missing, -⟩ := RdmaQp.getInfo_ok.mp given
      cases missing
    | some number =>
      simp only [Exchange.object, held, QpObject.view] at given
      exact given
  | callback before =>
    rw [before] at sequential
    exact sequential
  | @answer object param selfInfo shouldStop before =>
    have handles := ok.handles
    rw [before] at sequential handles
    obtain ⟨empty, -⟩ := handles
    have nothing : object.destroy = [] := by rw [QpObject.destroy, empty]
    simpa [Exchange.Sequential, nothing] using sequential

end handles

variable [DecidableEq ι]

omit [DecidableEq ι] in
-- Clients stay as they are, and one call goes on.
theorem Sequential.set (sequential : Sequential setup s) {call : Nat} {exchange later : Exchange ι}
    (found : s.Has call exchange)
    (kept : later.caller = exchange.caller ∧ later.request = exchange.request)
    (goesOn : later.Sequential setup later.stage)
    (calls : next.calls = s.calls.set call later)
    (clients : ∀ id, (next.clients id).phase.Sequential (setup.qpNum id) (next.clients id).qp) :
    Sequential setup next := by
  constructor
  · intro other twin has
    rcases (has_of_set found calls).mp has with ⟨rfl, rfl⟩ | ⟨-, old⟩
    · rw [kept.1, kept.2]
      exact sequential.asked _ _ found
    · exact sequential.asked other twin old
  · intro other twin has
    rcases (has_of_set found calls).mp has with ⟨rfl, rfl⟩ | ⟨-, old⟩
    · exact goesOn
    · exact sequential.calls other twin old
  · exact clients

theorem clients_update (sequential : Sequential setup s) {id : ι} {client : Client}
    (here : client.phase.Sequential (setup.qpNum id) client.qp) (other : ι) :
    (Function.update s.clients id client other).phase.Sequential (setup.qpNum other)
      (Function.update s.clients id client other).qp := by
  by_cases same : other = id
  · subst same
    rwa [Function.update_self]
  · rw [Function.update_of_ne same]
    exact sequential.clients other

theorem Taken.sequential {action : NetAction ι} (taken : Taken setup s action next)
    (inv : Inv setup s) (sequential : Sequential setup s) : Sequential setup next := by
  cases taken with
  | refused before | hungUp before | unconnected before =>
    exact ⟨sequential.asked, sequential.calls, clients_update sequential trivial⟩
  | exited running found fails =>
    exact ⟨sequential.asked, sequential.calls, sequential.clients⟩
  | handled running found handles =>
    exact sequential.set found handles.keeps
      (handles.sequential (inv.calls.ok _ _ found) (sequential.calls _ _ found)) rfl
      sequential.clients
  | @called id selfInfo before given =>
    have fresh := sequential.clients id
    rw [before] at fresh
    obtain fresh : (s.clients id).qp = .fresh (setup.qpNum id) := fresh
    constructor
    · intro call twin has
      rcases (has_of_push rfl).mp has with old | ⟨-, rfl⟩
      · exact sequential.asked call twin old
      · rw [Network.object, fresh] at given
        exact given
    · intro call twin has
      rcases (has_of_push rfl).mp has with old | ⟨-, rfl⟩
      · exact sequential.calls call twin old
      · exact trivial
    · exact clients_update sequential fresh
  | @delivered call exchange selfInfo found before waits =>
    have fresh := sequential.clients exchange.caller
    have handled := sequential.calls call exchange found
    rw [waits] at fresh
    rw [before] at handled
    obtain fresh : (s.clients exchange.caller).qp = .fresh (setup.qpNum exchange.caller) := fresh
    have goesOn : Exchange.Sequential setup { exchange with stage := .delivered selfInfo }
        (.delivered selfInfo) := handled
    refine sequential.set found ?_ goesOn rfl (clients_update sequential fresh)
    exact ⟨rfl, rfl⟩
  | @connected id driver remote stage qp before pending advanced =>
    have own := sequential.clients id
    rw [before] at own
    obtain own : (s.clients id).qp = .reached remote (setup.qpNum id) stage := own
    rw [own] at advanced
    exact ⟨sequential.asked, sequential.calls,
      clients_update sequential (advance_reached pending advanced)⟩

theorem run_sequential {actions : List (NetAction ι)}
    (ran : run (step setup) (start setup) actions = .ok s) : Inv setup s ∧ Sequential setup s :=
  run_invariant (step setup) (fun s => Inv setup s ∧ Sequential setup s)
    (fun _ _ _ both taken => ⟨(step_change taken).inv both.1,
      (step_taken taken).sequential both.1 both.2⟩)
    actions ⟨start_inv setup, start_sequential setup⟩ ran

end Network

/-- The connection of a client as two functions, the one called by the other: the client and the
queue pair of the server are left as these leave them, and the driver was told the same. -/
structure ConnectedAlone (setup : Setup ι) (id : ι) (client server : Driven) : Prop where
  handler : ∃ request handled, (holding (setup.ctx id) (.fresh (setup.qpNum id))).getInfo = .ok request ∧
    establish setup (.ok server.qp.qpNum) accepting (.ok false) request =
      { calls := server.accepted, result := .ok handled } ∧
    handled.qp = holding setup.serverCtx server
  client : cmConnect accepting (replyTo setup server.qp.qpNum)
      (holding (setup.ctx id) (.fresh (setup.qpNum id))) =
    { calls := client.accepted, result := .ok (holding (setup.ctx id) client) }

/-- In whatever order the parties take their steps, a client that gets to RTS and the handler of its
call have together done what `cm::connect` does with a server that runs the handler at once. -/
theorem interleavings_are_sequential [DecidableEq ι] (setup : Setup ι)
    {actions : List (NetAction ι)}
    (ran : run (Network.step setup) (Network.start setup) actions = .ok s) {id : ι}
    (reached : (s.clients id).qp.qp.state = .rts) :
    ∃ call server, s.CreatedFor call id server ∧
      ConnectedAlone setup id (s.clients id).qp server := by
  obtain ⟨inv, sequential⟩ := Network.run_sequential ran
  have knows := inv.clients.knows id
  have own := sequential.clients id
  obtain ⟨remote, phase⟩ := knows.connected reached
  rw [phase] at knows own
  obtain ⟨-, call, exchange, found, rfl, delivered, -⟩ := knows
  have asked := sequential.asked call exchange found
  have handled := sequential.calls call exchange found
  rw [delivered] at handled
  obtain ⟨qpNum, held, given⟩ := handled
  obtain own : (s.clients exchange.caller).qp =
    .reached remote (setup.qpNum exchange.caller) .done := own
  have established := establish_reached given false
  refine ⟨call, _, ⟨exchange, found, rfl, held⟩, ?_, ?_⟩
  · rw [reached_qpNum]
    exact ⟨exchange.request, _, asked, established, rfl⟩
  · have replied : replyTo setup qpNum exchange.request = remote := by
      simp [replyTo, established]
    rw [reached_qpNum, cmConnect, asked]
    simp only [replied]
    rw [connect_reached, own]

theorem two_calls_sequential :
    ∃ s, run (Network.step twoClients) (Network.start twoClients) twoCalls = .ok s ∧
      ∀ id, ∃ call server, s.CreatedFor call id server ∧
        ConnectedAlone twoClients id (s.clients id).qp server := by
  have ran : run (Network.step twoClients) (Network.start twoClients) twoCalls = .ok _ := rfl
  refine ⟨_, ran, fun id => interleavings_are_sequential twoClients ran ?_⟩
  cases id <;> rfl

end Rdmalib2
