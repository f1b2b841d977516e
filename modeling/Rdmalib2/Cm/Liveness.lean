import Rdmalib2.Cm.Progress

set_option autoImplicit false

/-!
# Nobody is left waiting

While the server runs and nothing fails, there is something to do for every client that is not
connected, and doing it in any order connects them all. A server that was asked to stop is no
exception where hrpc goes on with its calls.
-/

namespace Rdmalib2

open Shared

variable {ι : Type} {setup : Setup ι} {s next : Network ι}

/-! ## Who waits for what -/

-- Before it hands the queue pair on, a handler still points to it.
def HandlerStage.Reaches : HandlerStage → Prop
  | .connecting object _ | .informed object _ => object.qp.isSome = true
  | .requested | .called .. | .replied _ | .delivered _ => True

namespace Network

/-- A handler can reach its queue pair, and no client waits for a reply it has had. -/
structure Alive (s : Network ι) : Prop where
  reaches : ∀ call exchange, s.Has call exchange → exchange.stage.Reaches
  unanswered : ∀ id call, (s.clients id).phase = .waiting call → ∀ exchange, s.Has call exchange →
    ∀ info, exchange.stage ≠ .delivered info

theorem start_alive (setup : Setup ι) : Alive (start setup) where
  reaches call exchange found := absurd found (start_calls setup call exchange)
  unanswered _ _ _ exchange found := absurd found (start_calls setup _ exchange)

section handles

variable {call : Nat} {exchange later : Exchange ι} {action : NetAction ι} {stops : Bool}
  {rts : List (Party ι)}

theorem Handles.reaches (handles : Handles setup s call exchange action later stops rts)
    (reaches : exchange.stage.Reaches) : later.stage.Reaches := by
  cases handles with
  | serve before => rfl
  | handle before | inform before =>
    rw [before] at reaches
    exact reaches
  | callback before | answer before => exact trivial

theorem Handles.undelivered (handles : Handles setup s call exchange action later stops rts)
    (info : Info) : later.stage ≠ .delivered info := by
  cases handles <;> simp

-- Clients stay as they are, and one call goes on.
theorem Alive.set (alive : Alive s) (found : s.Has call exchange)
    (reaches : later.stage.Reaches) (undelivered : ∀ info, later.stage ≠ .delivered info)
    (calls : next.calls = s.calls.set call later) (clients : next.clients = s.clients) :
    Alive next := by
  constructor
  · intro other twin has
    rcases (has_of_set found calls).mp has with ⟨rfl, rfl⟩ | ⟨-, old⟩
    · exact reaches
    · exact alive.reaches other twin old
  · intro id other waits twin has
    rw [clients] at waits
    rcases (has_of_set found calls).mp has with ⟨rfl, rfl⟩ | ⟨-, old⟩
    · exact undelivered
    · exact alive.unanswered id other waits twin old

-- One client goes on, and it does not wait afterwards.
theorem Alive.update [DecidableEq ι] (alive : Alive s) {id : ι} {client : Client}
    (ready : ∀ call, client.phase ≠ .waiting call) (calls : next.calls = s.calls)
    (clients : next.clients = Function.update s.clients id client) : Alive next := by
  constructor
  · intro call twin has
    rw [Has, calls] at has
    exact alive.reaches call twin has
  · intro other call waits twin has
    rw [clients, Function.update_apply] at waits
    rw [Has, calls] at has
    split at waits
    next => exact absurd waits (ready call)
    next => exact alive.unanswered other call waits twin has

end handles

variable [DecidableEq ι]

theorem Taken.alive {action : NetAction ι} (taken : Taken setup s action next) (inv : Inv setup s)
    (alive : Alive s) : Alive next := by
  cases taken with
  | refused before | hungUp before | unconnected before | connected before =>
    exact alive.update (by simp) rfl rfl
  | exited running found fails => exact ⟨alive.reaches, alive.unanswered⟩
  | handled running found handles =>
    exact alive.set found (handles.reaches (alive.reaches _ _ found)) handles.undelivered rfl rfl
  | @called id selfInfo before given =>
    constructor
    · intro call twin has
      rcases (has_of_push rfl).mp has with old | ⟨-, rfl⟩
      · exact alive.reaches call twin old
      · exact trivial
    · intro other call waits twin has
      rcases (has_of_push rfl).mp has with old | ⟨-, rfl⟩
      · change (Function.update s.clients id _ other).phase = _ at waits
        rw [Function.update_apply] at waits
        split at waits
        next =>
          -- The new call is the one it waits for, and that one is not among the old.
          obtain rfl := ClientPhase.waiting.inj waits
          simp [Has] at old
        next => exact alive.unanswered other call waits twin old
      · exact nofun
  | @delivered call exchange selfInfo found before waits =>
    constructor
    · intro other twin has
      rcases (has_of_set found rfl).mp has with ⟨rfl, rfl⟩ | ⟨-, old⟩
      · exact trivial
      · exact alive.reaches other twin old
    · intro id other pending twin has
      change (Function.update s.clients exchange.caller _ id).phase = _ at pending
      rw [Function.update_apply] at pending
      split at pending
      next => cases pending
      next apart =>
        rcases (has_of_set found rfl).mp has with ⟨rfl, rfl⟩ | ⟨-, old⟩
        · -- Each call has one caller.
          have knows := inv.clients.knows id
          rw [pending] at knows
          obtain ⟨-, same, here, caller⟩ := knows
          obtain rfl := Option.some.inj (found.symm.trans here)
          exact absurd caller.symm apart
        · exact alive.unanswered id other pending twin old

end Network

/-! ## Nothing fails -/

-- A stop keeps hrpc from nothing that it has been asked for.
def Setup.ServesOn (setup : Setup ι) : Prop := ∀ stage, setup.serves stage = true

-- The driver and the callback do their part, no connection of the calls is lost, and no stop is
-- asked for that would leave calls behind.
def NetAction.Helpful (setup : Setup ι) : NetAction ι → Prop
  | .call _ | .inform _ | .callback _ | .deliver _ => True
  | .serve _ created => ∃ qpNum, created = .ok qpNum
  | .handle _ driver | .connect _ driver => driver = accepting
  | .answer _ returned => ∃ shouldStop, returned = .ok shouldStop ∧
      (setup.withStop = true → shouldStop = true → setup.ServesOn)
  | .hangUp _ => False

theorem RdmaQp.getInfo_of_port {ctx : RdmaContext} (port : ctx.HasPort 1) (qp : IbvQp) :
    ∃ info, ({ ctx, qp := some qp } : RdmaQp .rc).getInfo = .ok info := by
  obtain ⟨gid, hasGid⟩ := RdmaContext.getGid_ok.mpr port
  obtain ⟨lid, hasLid⟩ := RdmaContext.getPortLid_ok.mpr port
  exact ⟨{ gid, lid, qpNum := qp.qpNum, psn := universalInitPsn },
    RdmaQp.getInfo_ok.mpr ⟨hasGid, hasLid, rfl, rfl⟩⟩

theorem Progress.accepts {remote : Info} {stage : ConnectStage} {this : Driven}
    (progress : Progress remote stage this) :
    ∃ next, this.advance accepting remote stage = .ok next := by
  obtain ⟨state, type, -⟩ := progress
  cases stage with
  | toInit =>
    have step : connectStep accepting remote 1 this.qp .toInit = modifyQp accepting this.qp _ _ :=
      (if_neg (by simp [type])).trans (if_neg (by simp [state]))
    exact ⟨_, by rw [Driven.advance, step]; rfl⟩
  | toRtr =>
    have step : connectStep accepting remote 1 this.qp .toRtr = modifyQp accepting this.qp _ _ :=
      if_neg (by simp [state])
    exact ⟨_, by rw [Driven.advance, step]; rfl⟩
  | toRts =>
    have step : connectStep accepting remote 1 this.qp .toRts = modifyQp accepting this.qp _ _ :=
      if_neg (by simp [state])
    exact ⟨_, by rw [Driven.advance, step]; rfl⟩
  | done => exact ⟨_, rfl⟩

namespace Exchange.Ok

variable {exchange : Exchange ι} {object : QpObject} {stage : ConnectStage}

theorem advances (ok : exchange.Ok setup) (before : exchange.stage = .connecting object stage)
    (reaches : exchange.stage.Reaches) :
    ∃ qp, exchange.advance accepting object stage = .ok qp := by
  have handles := ok.handles
  rw [before] at handles reaches
  obtain ⟨-, -, qp, held, progress⟩ := handles
  obtain ⟨number, here⟩ := Option.isSome_iff_exists.mp reaches
  obtain ⟨next, advanced⟩ := progress.accepts
  have found : exchange.deref object = .ok qp := by simp [Exchange.deref, here, held]
  exact ⟨next, by rw [Exchange.advance, found]; exact advanced⟩

theorem informs (ok : exchange.Ok setup) (server : setup.serverCtx.HasPort 1)
    (before : exchange.stage = .connecting object stage) (reaches : exchange.stage.Reaches) :
    ∃ info, (exchange.object object).getInfo = .ok info := by
  have handles := ok.handles
  rw [before] at handles reaches
  obtain ⟨ctx, port, qp, held, -⟩ := handles
  obtain ⟨number, here⟩ := Option.isSome_iff_exists.mp reaches
  have whole : exchange.object object = { ctx := setup.serverCtx, qp := some qp.qp } := by
    simp [Exchange.object, QpObject.view, ctx, port, here, held]
  rw [whole]
  exact RdmaQp.getInfo_of_port server qp.qp

end Exchange.Ok

namespace Network

theorem Fails.not_helpful {call : Nat} {exchange : Exchange ι} {action : NetAction ι} {e : Failure}
    (fails : Fails call exchange action e) (ok : exchange.Ok setup)
    (reaches : exchange.stage.Reaches) (server : setup.serverCtx.HasPort 1) :
    ¬ action.Helpful setup := by
  intro helpful
  cases fails with
  | serve before =>
    obtain ⟨value, impossible⟩ := helpful
    cases impossible
  | answer before =>
    obtain ⟨value, impossible, -⟩ := helpful
    cases impossible
  | handle before pending failed =>
    obtain rfl := helpful
    obtain ⟨qp, advanced⟩ := ok.advances before reaches
    cases failed.symm.trans advanced
  | inform before failed =>
    obtain ⟨info, given⟩ := ok.informs server before reaches
    cases failed.symm.trans given

variable [DecidableEq ι]

-- A client that takes part and has the port it uses.
def Present (setup : Setup ι) (s : Network ι) (id : ι) : Prop :=
  (setup.ctx id).HasPort 1 ∧ ∀ e, (s.clients id).phase ≠ .exited e

theorem present_update {id other : ι} {client : Client} (present : Present setup s other)
    (here : other = id → ∀ e, client.phase ≠ .exited e)
    (clients : next.clients = Function.update s.clients id client) : Present setup next other := by
  refine ⟨present.1, fun e => ?_⟩
  rw [clients, Function.update_apply]
  split
  next same => exact here same e
  next => exact present.2 e

/-- A helpful action ends neither the server nor a client. -/
theorem Taken.spares {action : NetAction ι} (taken : Taken setup s action next)
    (helpful : action.Helpful setup) (inv : Inv setup s) (alive : Alive s)
    (server : setup.serverCtx.HasPort 1) :
    next.serverExit = s.serverExit ∧ ∀ id, Present setup s id → Present setup next id := by
  cases taken with
  | @refused id e before failed =>
    refine ⟨rfl, fun other present => present_update present ?_ rfl⟩
    rintro rfl
    obtain ⟨info, given⟩ := RdmaQp.getInfo_of_port present.1 (s.clients other).qp.qp
    cases failed.symm.trans given
  | called before given =>
    exact ⟨rfl, fun other present => present_update present (by simp) rfl⟩
  | hungUp before => exact helpful.elim
  | exited running found fails =>
    have ok := inv.calls.ok _ _ found
    exact absurd helpful (fails.not_helpful ok (alive.reaches _ _ found) server)
  | handled running found handles => exact ⟨rfl, fun other present => ⟨present.1, present.2⟩⟩
  | delivered found before waits =>
    exact ⟨rfl, fun other present => present_update present (by simp) rfl⟩
  | @unconnected id driver remote stage e before pending failed =>
    obtain rfl := helpful
    have knows := inv.clients.knows id
    rw [before] at knows
    obtain ⟨qp, advanced⟩ := knows.1.accepts
    cases failed.symm.trans advanced
  | connected before pending advanced =>
    exact ⟨rfl, fun other present => present_update present (by simp) rfl⟩

-- The server goes on with every call, be it that it was not asked to stop or that hrpc serves on.
def Serving (setup : Setup ι) (s : Network ι) : Prop := s.stopped = true → setup.ServesOn

omit [DecidableEq ι] in
theorem Serving.serves (serving : Serving setup s) (stage : HandlerStage) :
    s.serves setup stage = true := by
  cases stopped : s.stopped with
  | false => simp [Network.serves, stopped]
  | true => simp [Network.serves, serving stopped stage]

theorem Taken.serving {action : NetAction ι} (taken : Taken setup s action next)
    (helpful : action.Helpful setup) (serving : Serving setup s) : Serving setup next := by
  cases taken with
  | refused | called | hungUp | exited | delivered | unconnected | connected => exact serving
  | handled running found handles =>
    cases handles with
    | serve | handle | inform | callback => simpa [Serving] using serving
    | @answer object param selfInfo shouldStop before =>
      intro stopped
      rcases Bool.or_eq_true_iff.mp stopped with already | asked
      · exact serving already
      · obtain ⟨withStop, stops⟩ := Bool.and_eq_true_iff.mp asked
        obtain ⟨value, returned, serves⟩ := helpful
        obtain rfl := Except.ok.inj returned
        exact serves withStop stops

/-! ## There is always something to do -/

omit [DecidableEq ι] in
theorem exists_unused (room : s.calls.length < 2 ^ 32) : ∃ qpNum, s.inUse qpNum = false := by
  by_contra full
  simp only [not_exists, Bool.not_eq_false] at full
  have listed : ∀ number : Fin (2 ^ 32), ∃ call : Fin s.calls.length,
      ∃ qp, s.calls[call].qp = some qp ∧ qp.qp.qpNum.toFin = number := by
    intro number
    obtain ⟨exchange, member, holds⟩ := List.any_eq_true.mp (full (UInt32.ofFin number))
    obtain ⟨call, inside, here⟩ := List.getElem_of_mem member
    obtain ⟨qp, held, same⟩ : ∃ qp, exchange.qp = some qp ∧ qp.qp.qpNum = UInt32.ofFin number := by
      cases held : exchange.qp with
      | none => simp [held] at holds
      | some qp => exact ⟨qp, rfl, by simpa [held] using holds⟩
    exact ⟨⟨call, inside⟩, qp, by simpa [here] using held, by rw [same]; rfl⟩
  choose place qp held same using listed
  have injective : Function.Injective place := by
    intro one other equal
    have twin := held other
    rw [← equal, held one] at twin
    rw [← same one, ← same other, Option.some.inj twin]
  have bound := Fintype.card_le_of_injective place injective
  simp only [Fintype.card_fin] at bound
  omega

omit [DecidableEq ι] in
/-- Each client has called once at most. -/
theorem calls_le_card [Fintype ι] (inv : Inv setup s) : s.calls.length ≤ Fintype.card ι := by
  have injective : Function.Injective fun call : Fin s.calls.length => s.calls[call].caller := by
    intro one other same
    have found : ∀ call : Fin s.calls.length, s.Has call s.calls[call] := fun call =>
      List.getElem?_eq_getElem call.isLt
    exact Fin.ext (inv.calls.single one other _ _ (found one) (found other) same)
  simpa using Fintype.card_le_of_injective _ injective

-- The handler of a call has a next step, until its reply is there to be delivered.
theorem exists_helpful_handler (inv : Inv setup s) (alive : Alive s) (serving : Serving setup s)
    (running : s.serverExit = none) (room : s.calls.length < 2 ^ 32) {call : Nat}
    {exchange : Exchange ι} (found : s.Has call exchange)
    (waits : (s.clients exchange.caller).phase = .waiting call) :
    ∃ action : NetAction ι, action.Helpful setup ∧ ∃ next, s.step setup action = .ok next := by
  have ok := inv.calls.ok call exchange found
  have reaches := alive.reaches call exchange found
  have serves := serving.serves exchange.stage
  have handler := handler_of_has running found serves
  cases before : exchange.stage with
  | requested =>
    obtain ⟨qpNum, unused⟩ := exists_unused room
    exact ⟨.serve call (.ok qpNum), ⟨qpNum, rfl⟩, by simp [step, handler, before, unused]⟩
  | connecting object stage =>
    cases stage with
    | done =>
      refine ⟨.inform call, trivial, ?_⟩
      rw [step, handler]
      simp only [before]
      split
      next e failed => exact ⟨_, rfl⟩
      next selfInfo given => exact ⟨_, rfl⟩
    | toInit | toRtr | toRts =>
      obtain ⟨qp, advanced⟩ := ok.advances before reaches
      rw [Exchange.advance] at advanced
      exact ⟨.handle call accepting, rfl, by simp [step, handler, before, advanced]⟩
  | informed object selfInfo => exact ⟨.callback call, trivial, by simp [step, handler, before]⟩
  | called object param selfInfo =>
    exact ⟨.answer call (.ok false), ⟨false, rfl, by simp⟩, by simp [step, handler, before]⟩
  | replied selfInfo =>
    have here : s.calls[call]? = some exchange := found
    rw [before] at serves
    exact ⟨.deliver call, trivial, by simp [step, here, before, waits, serves]⟩
  | delivered selfInfo =>
    exact absurd before (alive.unanswered _ call waits exchange found selfInfo)

theorem exists_helpful (inv : Inv setup s) (alive : Alive s) (serving : Serving setup s)
    (running : s.serverExit = none) (room : s.calls.length < 2 ^ 32) {id : ι} (present : Present setup s id)
    (unconnected : (s.clients id).qp.qp.state ≠ .rts) :
    ∃ action : NetAction ι, action.Helpful setup ∧ ∃ next, s.step setup action = .ok next := by
  have knows := inv.clients.knows id
  cases phase : (s.clients id).phase with
  | idle =>
    refine ⟨.call id, trivial, ?_⟩
    rw [step]
    simp only [phase]
    split
    next e failed => exact ⟨_, rfl⟩
    next selfInfo given => exact ⟨_, rfl⟩
  | waiting call =>
    rw [phase] at knows
    obtain ⟨-, exchange, found, rfl⟩ := knows
    exact exists_helpful_handler inv alive serving running room found phase
  | connecting remote stage =>
    rw [phase] at knows
    obtain ⟨progress, -⟩ := knows
    have pending : stage ≠ .done := by
      rintro rfl
      exact unconnected progress.state
    obtain ⟨qp, advanced⟩ := progress.accepts
    exact ⟨.connect id accepting, rfl, by simp [step, phase, pending, advanced]⟩
  | exited e => exact absurd phase (present.2 e)

end Network

/-- Helpful steps can be taken until there is none left, and in whatever order they are taken,
every client that takes part is connected when there is none left. -/
structure ConnectsAll [DecidableEq ι] (setup : Setup ι) (s : Network ι) : Prop where
  runsOut : ∃ rest last, (∀ action ∈ rest, action.Helpful setup) ∧
    run (Network.step setup) s rest = .ok last ∧
    Exhausted (Network.step setup) (NetAction.Helpful setup) last
  connects : ∀ rest last, (∀ action ∈ rest, action.Helpful setup) →
    run (Network.step setup) s rest = .ok last →
    Exhausted (Network.step setup) (NetAction.Helpful setup) last →
    ∀ id, Network.Present setup s id → (last.clients id).qp.qp.state = .rts

/-- Wherever requests, replies, handlers and failures have got to, nobody is left waiting while
the server runs and serves its calls. -/
theorem everyone_connects [Fintype ι] [DecidableEq ι] (setup : Setup ι)
    (server : setup.serverCtx.HasPort 1) (room : Fintype.card ι < 2 ^ 32)
    {actions : List (NetAction ι)}
    (ran : run (Network.step setup) (Network.start setup) actions = .ok s)
    (running : s.serverExit = none) (serving : Network.Serving setup s) : ConnectsAll setup s := by
  refine ⟨(Network.step_spends setup).run_exhausts (NetAction.Helpful setup) trivial, ?_⟩
  intro rest last helpful continued exhausted id present
  have before : Network.Inv setup s ∧ Network.Alive s :=
    run_invariant (Network.step setup) (fun s => Network.Inv setup s ∧ Network.Alive s)
      (fun _ _ _ both taken => ⟨(Network.step_change taken).inv both.1,
        (Network.step_taken taken).alive both.1 both.2⟩)
      actions ⟨Network.start_inv setup, Network.start_alive setup⟩ ran
  obtain ⟨inv, alive, runs, serves, still⟩ :=
    run_invariant_among (Network.step setup) (NetAction.Helpful setup)
      (fun s => Network.Inv setup s ∧ Network.Alive s ∧ s.serverExit = none ∧
        Network.Serving setup s ∧ Network.Present setup s id)
      (fun s action next helps all taken => by
        obtain ⟨inv, alive, runs, serves, still⟩ := all
        have step := Network.step_taken taken
        obtain ⟨exit, presents⟩ := step.spares helps inv alive server
        exact ⟨(Network.step_change taken).inv inv, step.alive inv alive, exit.trans runs,
          step.serving helps serves, presents id still⟩)
      rest helpful ⟨before.1, before.2, running, serving, present⟩ continued
  by_contra unconnected
  have bound := Network.calls_le_card inv
  obtain ⟨action, helps, next, taken⟩ :=
    Network.exists_helpful inv alive serves runs (by omega) still unconnected
  exact exhausted action helps next taken

-- Both requests are being handled, and no callback has returned.
theorem two_clients_connect :
    ∃ s, run (Network.step twoClients) (Network.start twoClients) (twoCalls.take 6) = .ok s ∧
      ConnectsAll twoClients s := by
  have ran : run (Network.step twoClients) (Network.start twoClients) (twoCalls.take 6) = .ok _ := rfl
  exact ⟨_, ran, everyone_connects twoClients (by decide) (by simp) ran rfl nofun⟩

end Rdmalib2
