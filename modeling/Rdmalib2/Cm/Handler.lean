import Rdmalib2.Cm.Liveness

set_option autoImplicit false

/-!
# The handler as one function

What the handler of a request does from its first statement to its last, and the actions of the
network that do the same.
-/

namespace Rdmalib2

open Shared

variable {ι : Type}

-- A statement that issues no modification.
def Modified.lift {α : Type} (result : Except Failure α) : Modified α := { calls := [], result }

@[simp] theorem Modified.andThen_done {α β : Type} (value : α) (rest : α → Modified β) :
    ({ calls := [], result := .ok value } : Modified α).andThen rest = rest value := by
  simp [andThen]

structure Handled where
  qp : RdmaQp .rc
  selfInfo : Info
  stops : Bool

-- The handler of `run_server` and `run_server_with_stop`. `created` is how the constructors of
-- the two queues and of the queue pair end, and `returned` is how the callback does.
def establish (setup : Setup ι) (created : Except Failure UInt32) (driver : ModifyDriver)
    (returned : Except Failure Bool) (info : Info) : Modified Handled :=
  (Modified.lift created).andThen fun qpNum =>
  let qp : RdmaQp .rc := { ctx := setup.serverCtx, qp := some { qpNum, qpType := .rc } }
  (qp.connect driver info).andThen fun qp =>
  (Modified.lift qp.getInfo).andThen fun selfInfo =>
  (Modified.lift returned).andThen fun shouldStop =>
  { calls := [], result := .ok { qp, selfInfo, stops := setup.withStop && shouldStop } }

namespace Network

-- The network after a handler that has run to its end.
def afterHandler (s : Network ι) (call : Nat) (exchange : Exchange ι) (calls : List ModifyCall)
    (handled : Handled) : Network ι :=
  { s.setCall call { exchange with
      stage := .replied handled.selfInfo
      qp := handled.qp.qp.map fun qp => { qp, accepted := calls } } with
    stopped := s.stopped || handled.stops
    rts := s.rts ++ [.server call] }

variable [DecidableEq ι]

/-- The actions lead to this network, or some of them to the exit of the server. -/
def Comes (setup : Setup ι) (s : Network ι) (actions : List (NetAction ι)) :
    Except Failure (Network ι) → Prop
  | .ok last => run (step setup) s actions = .ok last
  | .error e => ∃ first rest last, actions = first ++ rest ∧ run (step setup) s first = .ok last ∧
      last.serverExit = some e ∧ last.clients = s.clients

variable {setup : Setup ι} {s next : Network ι} {action : NetAction ι}
  {actions : List (NetAction ι)} {result : Except Failure (Network ι)}

theorem Comes.step (comes : Comes setup next actions result) (taken : s.step setup action = .ok next)
    (clients : next.clients = s.clients) : Comes setup s (action :: actions) result := by
  cases result with
  | ok last => exact (run_cons_ok _ _ taken).trans comes
  | error e =>
    obtain ⟨first, rest, last, rfl, ran, exit, same⟩ := comes
    exact ⟨action :: first, rest, last, rfl, (run_cons_ok _ _ taken).trans ran, exit,
      same.trans clients⟩

theorem Comes.exit {e : Failure} (taken : s.step setup action = .ok (s.exitServer e)) :
    Comes setup s (action :: actions) (.error e) :=
  ⟨[action], actions, s.exitServer e, rfl, run_cons_ok _ _ taken, rfl, rfl⟩

/-! ## One action at a time -/

-- How a handler ends that has issued some modifications already.
def outcome (s : Network ι) (call : Nat) (exchange : Exchange ι) (told : List ModifyCall)
    (rest : Modified Handled) : Except Failure (Network ι) :=
  rest.result.map (s.afterHandler call exchange (told ++ rest.calls))

section during

variable {call : Nat} {exchange later : Exchange ι} {rts : List (Party ι)} {told : List ModifyCall}
  {driver : ModifyDriver} {object : QpObject} {α : Type}

omit [DecidableEq ι] in
theorem outcome_error {first : Modified α} {e : Failure} (failed : first.result = .error e)
    (rest : α → Modified Handled) : s.outcome call exchange told (first.andThen rest) = .error e := by
  simp [outcome, Modified.andThen, failed, Except.map]

variable (running : s.serverExit = none) (serving : Serving setup s) (found : s.Has call exchange)
include running serving found

end during

end Network

end Rdmalib2
