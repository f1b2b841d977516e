import Rdmalib2.Cm.Invariant

set_option autoImplicit false

/-!
# What an action does

Every action that is taken, with what it found and what it left.
-/

namespace Rdmalib2

variable {ι : Type}

-- The client's object, as `cm::connect` gets it.
def Network.object (setup : Setup ι) (s : Network ι) (id : ι) : RdmaQp .rc where
  ctx := setup.ctx id
  qp := some (s.clients id).qp.qp

-- The handler's object with the queue pair behind it.
def Exchange.object (exchange : Exchange ι) (object : QpObject) : RdmaQp .rc :=
  object.view .rc fun _ => exchange.qp.map Driven.qp

-- One modification by the handler of a call.
def Exchange.advance (exchange : Exchange ι) (driver : ModifyDriver) (object : QpObject)
    (stage : ConnectStage) : Except Failure Driven :=
  exchange.deref object >>= fun qp => qp.advance driver exchange.request stage

namespace Network

/-- What ends the server process in the handler of a call. -/
inductive Fails (call : Nat) (exchange : Exchange ι) :
    NetAction ι → Failure → Prop
  | serve {e : Failure} (before : exchange.stage = .requested) :
      Fails call exchange (.serve call (.error e)) e
  | handle {driver : ModifyDriver} {object : QpObject} {stage : ConnectStage} {e : Failure}
      (before : exchange.stage = .connecting object stage) (pending : stage ≠ .done)
      (failed : exchange.advance driver object stage = .error e) :
      Fails call exchange (.handle call driver) e
  | inform {object : QpObject} {e : Failure} (before : exchange.stage = .connecting object .done)
      (failed : (exchange.object object).getInfo = .error e) :
      Fails call exchange (.inform call) e
  | answer {object param : QpObject} {selfInfo : Info} {e : Failure}
      (before : exchange.stage = .called object param selfInfo) :
      Fails call exchange (.answer call (.error e)) e

/-- What the handler of a call does: the call it leaves, whether it asks the server to stop, and
the queue pair it takes to RTS. -/
inductive Handles (setup : Setup ι) (s : Network ι) (call : Nat) (exchange : Exchange ι) :
    NetAction ι → Exchange ι → Bool → List (Party ι) → Prop
  | serve {qpNum : UInt32} (before : exchange.stage = .requested)
      (unused : s.inUse qpNum = false) :
      Handles setup s call exchange (.serve call (.ok qpNum))
        { exchange with
          stage := .connecting { ctx := setup.serverCtx, qp := some call } .toInit
          qp := some { qp := { qpNum, qpType := .rc } } } false []
  | handle {driver : ModifyDriver} {object : QpObject} {stage : ConnectStage} {qp : Driven}
      (before : exchange.stage = .connecting object stage) (pending : stage ≠ .done)
      (advanced : exchange.advance driver object stage = .ok qp) :
      Handles setup s call exchange (.handle call driver)
        { exchange with stage := .connecting object stage.next, qp := some qp } false
        (arrived (.server call) stage)
  | inform {object : QpObject} {selfInfo : Info} (before : exchange.stage = .connecting object .done)
      (given : (exchange.object object).getInfo = .ok selfInfo) :
      Handles setup s call exchange (.inform call)
        { exchange with stage := .informed object selfInfo } false []
  | callback {object : QpObject} {selfInfo : Info} (before : exchange.stage = .informed object selfInfo) :
      Handles setup s call exchange (.callback call)
        { exchange with
          stage := .called object.moveConstruct.2 object.moveConstruct.1 selfInfo } false []
  | answer {object param : QpObject} {selfInfo : Info} {shouldStop : Bool}
      (before : exchange.stage = .called object param selfInfo) :
      Handles setup s call exchange (.answer call (.ok shouldStop))
        { exchange with
          stage := .replied selfInfo
          qp := if object.destroy = [] then exchange.qp else none }
        (setup.withStop && shouldStop) []

variable [DecidableEq ι]

inductive Taken (setup : Setup ι) (s : Network ι) : NetAction ι → Network ι → Prop
  | refused {id : ι} {e : Failure} (before : (s.clients id).phase = .idle)
      (failed : (s.object setup id).getInfo = .error e) :
      Taken setup s (.call id) (s.setClient id { qp := (s.clients id).qp, phase := .exited e })
  | called {id : ι} {selfInfo : Info} (before : (s.clients id).phase = .idle)
      (given : (s.object setup id).getInfo = .ok selfInfo) :
      Taken setup s (.call id)
        { s.setClient id { qp := (s.clients id).qp, phase := .waiting s.calls.length } with
          calls := s.calls ++ [{ caller := id, request := selfInfo }] }
  | hungUp {id : ι} (before : (s.clients id).phase = .idle ∨
        ∃ call, (s.clients id).phase = .waiting call) :
      Taken setup s (.hangUp id)
        (s.setClient id
          { qp := (s.clients id).qp, phase := .exited (.uncaught "hrpc::client") })
  | exited {action : NetAction ι} {call : Nat} {exchange : Exchange ι} {e : Failure}
      (running : s.serverExit = none) (found : s.Has call exchange)
      (fails : Fails call exchange action e) (serves : s.serves setup exchange.stage = true) :
      Taken setup s action (s.exitServer e)
  | handled {action : NetAction ι} {call : Nat} {exchange later : Exchange ι} {stops : Bool}
      {rts : List (Party ι)} (running : s.serverExit = none) (found : s.Has call exchange)
      (handles : Handles setup s call exchange action later stops rts)
      (serves : s.serves setup exchange.stage = true) :
      Taken setup s action
        { s.setCall call later with stopped := s.stopped || stops, rts := s.rts ++ rts }
  | delivered {call : Nat} {exchange : Exchange ι} {selfInfo : Info} (found : s.Has call exchange)
      (before : exchange.stage = .replied selfInfo)
      (waits : (s.clients exchange.caller).phase = .waiting call)
      (serves : s.serves setup exchange.stage = true) :
      Taken setup s (.deliver call)
        ((s.setCall call { exchange with stage := .delivered selfInfo }).setClient exchange.caller
          { qp := (s.clients exchange.caller).qp, phase := .connecting selfInfo .toInit })
  | unconnected {id : ι} {driver : ModifyDriver} {remote : Info} {stage : ConnectStage} {e : Failure}
      (before : (s.clients id).phase = .connecting remote stage) (pending : stage ≠ .done)
      (failed : (s.clients id).qp.advance driver remote stage = .error e) :
      Taken setup s (.connect id driver) (s.setClient id { qp := (s.clients id).qp, phase := .exited e })
  | connected {id : ι} {driver : ModifyDriver} {remote : Info} {stage : ConnectStage} {qp : Driven}
      (before : (s.clients id).phase = .connecting remote stage) (pending : stage ≠ .done)
      (advanced : (s.clients id).qp.advance driver remote stage = .ok qp) :
      Taken setup s (.connect id driver)
        { s.setClient id { qp, phase := .connecting remote stage.next } with
          rts := s.rts ++ arrived (.client id) stage }

variable {setup : Setup ι} {s next : Network ι}

theorem Taken.of_handles {action : NetAction ι} {call : Nat} {exchange later : Exchange ι}
    {stops : Bool} {rts : List (Party ι)} (running : s.serverExit = none)
    (found : s.Has call exchange) (serves : s.serves setup exchange.stage = true)
    (handles : Handles setup s call exchange action later stops rts)
    (same : next =
      { s.setCall call later with stopped := s.stopped || stops, rts := s.rts ++ rts }) :
    Taken setup s action next := by
  rw [same]
  exact .handled running found handles serves

omit [DecidableEq ι] in
theorem handler_of_has {call : Nat} {exchange : Exchange ι} (running : s.serverExit = none)
    (found : s.Has call exchange) (serves : s.serves setup exchange.stage = true)
    (act : Exchange ι → Except Unit (Network ι)) : s.handler setup call act = act exchange := by
  obtain found : s.calls[call]? = some exchange := found
  simp [handler, running, found, serves]

omit [DecidableEq ι] in
theorem handler_iff {call : Nat} {act : Exchange ι → Except Unit (Network ι)} :
    s.handler setup call act = .ok next ↔
      s.serverExit = none ∧ ∃ exchange, s.Has call exchange ∧
        s.serves setup exchange.stage = true ∧ act exchange = .ok next := by
  constructor
  · intro taken
    unfold handler at taken
    split at taken
    next exchange running found =>
      split at taken
      next serves => exact ⟨running, exchange, found, serves, taken⟩
      next => cases taken
    next => cases taken
  · rintro ⟨running, exchange, found, serves, taken⟩
    rw [handler_of_has running found serves, taken]

theorem step_taken {action : NetAction ι} (taken : s.step setup action = .ok next) :
    Taken setup s action next := by
  cases action with
  | call id =>
    rw [step] at taken
    split at taken
    next before =>
      simp only at taken
      split at taken
      next e failed =>
        obtain rfl := Except.ok.inj taken
        exact .refused before failed
      next selfInfo given =>
        obtain rfl := Except.ok.inj taken
        exact .called before given
    next => cases taken
  | serve call created =>
    obtain ⟨running, exchange, found, serves, taken⟩ := handler_iff.mp taken
    split at taken
    next before =>
      cases created with
      | error e =>
        obtain rfl := Except.ok.inj taken
        exact .exited running found (.serve before) serves
      | ok qpNum =>
        simp only at taken
        split at taken
        next => cases taken
        next unused =>
          obtain rfl := Except.ok.inj taken
          exact .of_handles running found serves (.serve before (by simpa using unused)) (by simp [setCall])
    next => cases taken
  | handle call driver =>
    obtain ⟨running, exchange, found, serves, taken⟩ := handler_iff.mp taken
    split at taken
    next object stage before =>
      split at taken
      next => cases taken
      next pending =>
        split at taken
        next e failed =>
          obtain rfl := Except.ok.inj taken
          exact .exited running found (.handle before pending failed) serves
        next qp advanced =>
          obtain rfl := Except.ok.inj taken
          exact .of_handles running found serves (.handle before pending advanced) (by simp [setCall])
    next => cases taken
  | inform call =>
    obtain ⟨running, exchange, found, serves, taken⟩ := handler_iff.mp taken
    split at taken
    next object before =>
      split at taken
      next e failed =>
        obtain rfl := Except.ok.inj taken
        exact .exited running found (.inform before failed) serves
      next selfInfo given =>
        obtain rfl := Except.ok.inj taken
        exact .of_handles running found serves (.inform before given) (by simp [setCall])
    next => cases taken
  | callback call =>
    obtain ⟨running, exchange, found, serves, taken⟩ := handler_iff.mp taken
    split at taken
    next object selfInfo before =>
      obtain rfl := Except.ok.inj taken
      exact .of_handles running found serves (.callback before) (by simp [setCall, QpObject.moveConstruct])
    next => cases taken
  | answer call returned =>
    obtain ⟨running, exchange, found, serves, taken⟩ := handler_iff.mp taken
    split at taken
    next object param selfInfo before =>
      cases returned with
      | error e =>
        obtain rfl := Except.ok.inj taken
        exact .exited running found (.answer before) serves
      | ok shouldStop =>
        obtain rfl := Except.ok.inj taken
        exact .of_handles running found serves (.answer before) (by simp [setCall])
    next => cases taken
  | deliver call =>
    rw [step] at taken
    split at taken
    next exchange found =>
      simp only at taken
      split at taken
      next selfInfo before =>
        split at taken
        next waits =>
          obtain rfl := Except.ok.inj taken
          exact .delivered found before waits.1 waits.2
        next => cases taken
      next => cases taken
    next => cases taken
  | hangUp id =>
    rw [step] at taken
    split at taken
    next before =>
      obtain rfl := Except.ok.inj taken
      exact .hungUp (.inl before)
    next call before =>
      obtain rfl := Except.ok.inj taken
      exact .hungUp (.inr ⟨call, before⟩)
    next => cases taken
  | connect id driver =>
    rw [step] at taken
    split at taken
    next remote stage before =>
      split at taken
      next => cases taken
      next pending =>
        split at taken
        next e failed =>
          obtain rfl := Except.ok.inj taken
          exact .unconnected before pending failed
        next qp advanced =>
          obtain rfl := Except.ok.inj taken
          exact .connected before pending advanced
    next => cases taken

end Network

end Rdmalib2
