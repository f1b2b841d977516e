import Rdmalib2.Cm.Pairing
import Rdmalib2.Cm.Steps
import Rdmalib2.Shared.Progress
import Mathlib.Algebra.BigOperators.Group.Finset.Basic
import Mathlib.Algebra.Order.BigOperators.Group.Finset
import Mathlib.Data.Fintype.Card

set_option autoImplicit false

/-!
# Connection establishment ends

Every step spends some of what is left to do, and as long as nothing fails there is a step for
every client that is not connected yet.
-/

namespace Rdmalib2

open Shared

/-! ## What is left to do -/

@[simp] def ConnectStage.left : ConnectStage → Nat
  | .toInit => 3
  | .toRtr => 2
  | .toRts => 1
  | .done => 0

-- A client that has not called yet still has its call and all of the handler before it.
def ClientPhase.left : ClientPhase → Nat
  | .idle => 12
  | .waiting _ => 3
  | .connecting _ stage => stage.left
  | .exited _ => 0

def HandlerStage.left : HandlerStage → Nat
  | .requested => 8
  | .connecting _ stage => stage.left + 4
  | .informed .. => 3
  | .called .. => 2
  | .replied _ => 1
  | .delivered _ => 0

theorem ConnectStage.next_left {stage : ConnectStage} (pending : stage ≠ .done) :
    stage.next.left + 1 = stage.left := by
  cases stage with
  | toInit | toRtr | toRts => rfl
  | done => exact absurd rfl pending

namespace Network

variable {ι : Type} [Fintype ι] {setup : Setup ι} {s next : Network ι}

def clientsLeft (clients : ι → Client) : Nat := ∑ id, (clients id).phase.left

def callsLeft (calls : List (Exchange ι)) : Nat := (calls.map fun exchange => exchange.stage.left).sum

-- The server may still exit.
def serverLeft : Option Failure → Nat
  | none => 1
  | some _ => 0

def left (s : Network ι) : Nat :=
  clientsLeft s.clients + callsLeft s.calls + serverLeft s.serverExit

omit [Fintype ι] in
theorem callsLeft_push (calls : List (Exchange ι)) (exchange : Exchange ι) :
    callsLeft (calls ++ [exchange]) = callsLeft calls + exchange.stage.left := by
  simp [callsLeft]

omit [Fintype ι] in
theorem callsLeft_set {calls : List (Exchange ι)} {call : Nat} {exchange : Exchange ι}
    (found : calls[call]? = some exchange) (later : Exchange ι) :
    callsLeft (calls.set call later) + exchange.stage.left =
      callsLeft calls + later.stage.left := by
  induction calls generalizing call with
  | nil => cases found
  | cons first rest ih =>
    cases call with
    | zero =>
      obtain rfl : first = exchange := by simpa using found
      simp only [callsLeft, List.set_cons_zero, List.map_cons, List.sum_cons]
      omega
    | succ call =>
      have below := ih (by simpa using found)
      simp only [callsLeft, List.set_cons_succ, List.map_cons, List.sum_cons] at below ⊢
      omega

theorem clientsLeft_update [DecidableEq ι] (clients : ι → Client) (id : ι) (client : Client) :
    clientsLeft (Function.update clients id client) + (clients id).phase.left =
      clientsLeft clients + client.phase.left := by
  have before := Finset.add_sum_erase Finset.univ (fun other => (clients other).phase.left)
    (Finset.mem_univ id)
  have after := Finset.add_sum_erase Finset.univ
    (fun other => (Function.update clients id client other).phase.left) (Finset.mem_univ id)
  have others : ∑ other ∈ Finset.univ.erase id,
      (Function.update clients id client other).phase.left =
        ∑ other ∈ Finset.univ.erase id, (clients other).phase.left := by
    refine Finset.sum_congr rfl fun other listed => ?_
    rw [Function.update_of_ne (Finset.ne_of_mem_erase listed)]
  simp only [Function.update_self, others] at before after
  simp only [clientsLeft]
  omega

/-! ## Every step spends -/

omit [Fintype ι] in
theorem Handles.less {call : Nat} {exchange later : Exchange ι}
    {action : NetAction ι} {stops : Bool} {rts : List (Party ι)}
    (handles : Handles setup s call exchange action later stops rts) :
    later.stage.left < exchange.stage.left := by
  cases handles with
  | serve before | inform before | callback before | answer before =>
    simp [before, HandlerStage.left]
  | handle before pending =>
    have fewer := ConnectStage.next_left pending
    simp only [before, HandlerStage.left]
    omega

theorem setClient_left [DecidableEq ι] (s : Network ι) (id : ι) (client : Client) :
    (s.setClient id client).left + (s.clients id).phase.left = s.left + client.phase.left := by
  have changed := clientsLeft_update s.clients id client
  simp only [left, setClient]
  omega

theorem setPhase_left [DecidableEq ι] (s : Network ι) (id : ι) (phase : ClientPhase) :
    (s.setClient id { qp := (s.clients id).qp, phase }).left + (s.clients id).phase.left =
      s.left + phase.left :=
  s.setClient_left id { qp := (s.clients id).qp, phase }

theorem setCall_left {call : Nat} {exchange : Exchange ι} (found : s.Has call exchange)
    (later : Exchange ι) :
    (s.setCall call later).left + exchange.stage.left = s.left + later.stage.left := by
  have changed := callsLeft_set found later
  simp only [left, setCall]
  omega

theorem Taken.less [DecidableEq ι] {action : NetAction ι} (taken : Taken setup s action next) :
    next.left < s.left := by
  cases taken with
  | @refused id e before failed =>
    have changed := s.setPhase_left id (.exited e)
    simp only [before, ClientPhase.left] at changed
    omega
  | @called id selfInfo before given =>
    have changed := s.setPhase_left id (.waiting s.calls.length)
    simp only [before, ClientPhase.left, left, setClient] at changed
    simp only [left, setClient, callsLeft_push, HandlerStage.left]
    omega
  | @hungUp id before =>
    have changed := s.setPhase_left id (.exited (.uncaught "hrpc::client"))
    rcases before with before | ⟨call, before⟩
    · simp only [before, ClientPhase.left] at changed
      omega
    · simp only [before, ClientPhase.left] at changed
      omega
  | exited running found fails => simp [left, exitServer, running, serverLeft]
  | @handled action call exchange later stops rts running found handles =>
    have changed := setCall_left found later
    have fewer := handles.less
    change (s.setCall call later).left < s.left
    omega
  | @delivered call exchange selfInfo found before waits =>
    -- The client has its three modifications left, as it had while it waited.
    have calls := setCall_left found { exchange with stage := .delivered selfInfo }
    have clients := (s.setCall call { exchange with stage := .delivered selfInfo }).setClient_left
      exchange.caller
      { qp := (s.clients exchange.caller).qp, phase := .connecting selfInfo .toInit }
    change _ + (s.clients exchange.caller).phase.left = _ at clients
    simp only [before, HandlerStage.left] at calls
    simp only [waits, ClientPhase.left, ConnectStage.left] at clients
    omega
  | @unconnected id driver remote stage e before pending failed =>
    have changed := s.setPhase_left id (.exited e)
    have fewer := ConnectStage.next_left pending
    simp only [before, ClientPhase.left] at changed
    omega
  | @connected id driver remote stage qp before pending advanced =>
    have changed := s.setClient_left id { qp, phase := .connecting remote stage.next }
    have fewer := ConnectStage.next_left pending
    simp only [before, ClientPhase.left] at changed
    change (s.setClient id { qp, phase := .connecting remote stage.next }).left < s.left
    omega

theorem start_left (setup : Setup ι) : (start setup).left = 12 * Fintype.card ι + 1 := by
  have each : ∀ id, ((start setup).clients id).phase.left = 12 := fun _ => rfl
  simp only [left, clientsLeft, each, Finset.sum_const, Finset.card_univ]
  simp [start, callsLeft, serverLeft, Nat.mul_comm]

theorem step_spends [DecidableEq ι] (setup : Setup ι) :
    Spends (step setup) (fun _ => True) (left (ι := ι)) where
  kept _ _ _ _ _ := trivial
  less _ _ _ _ taken := (step_taken taken).less

end Network

/-! ## What the end looks like -/

-- The handler has come to its end.
def Exchange.Answered {ι : Type} (exchange : Exchange ι) : Prop :=
  ∃ selfInfo, exchange.stage = .replied selfInfo ∨ exchange.stage = .delivered selfInfo

namespace Network

variable {ι : Type} {setup : Setup ι} {s next : Network ι}

/-- Every client is connected or has exited, and a server that runs has answered what it serves. -/
structure Finished (setup : Setup ι) (s : Network ι) : Prop where
  clients : ∀ id, (s.clients id).qp.qp.state = .rts ∨ ∃ e, (s.clients id).phase = .exited e
  calls : s.serverExit = none → ∀ call exchange, s.Has call exchange →
    s.serves setup exchange.stage = true → exchange.Answered

theorem Fails.unanswered {call : Nat} {exchange : Exchange ι} {action : NetAction ι} {e : Failure}
    (fails : Fails call exchange action e) : ¬ exchange.Answered := by
  cases fails with
  | serve before | handle before | inform before | answer before => simp [Exchange.Answered, before]

theorem Handles.unanswered {call : Nat} {exchange later : Exchange ι} {action : NetAction ι}
    {stops : Bool} {rts : List (Party ι)}
    (handles : Handles setup s call exchange action later stops rts) : ¬ exchange.Answered := by
  cases handles with
  | serve before | handle before | inform before | callback before | answer before =>
    simp [Exchange.Answered, before]

-- A client is connected when it has taken its last step, and not before.
theorem Finished.phase (finished : Finished setup s) (inv : Inv setup s) (id : ι) :
    (∃ remote, (s.clients id).phase = .connecting remote .done) ∨
      ∃ e, (s.clients id).phase = .exited e :=
  (finished.clients id).imp_left (inv.clients.knows id).connected

variable [DecidableEq ι]

theorem Taken.not_finished {action : NetAction ι} (taken : Taken setup s action next)
    (inv : Inv setup s) : ¬ Finished setup s := by
  intro finished
  cases taken with
  | @refused id e before | @called id selfInfo before =>
    have phase := finished.phase inv id
    simp [before] at phase
  | @hungUp id before =>
    rcases finished.phase inv id with ⟨remote, phase⟩ | ⟨e, phase⟩ <;> simp [phase] at before
  | exited running found fails serves =>
    exact fails.unanswered (finished.calls running _ _ found serves)
  | handled running found handles serves =>
    exact handles.unanswered (finished.calls running _ _ found serves)
  | @delivered call exchange selfInfo found before waits =>
    have phase := finished.phase inv exchange.caller
    simp [waits] at phase
  | @unconnected id driver remote stage e before pending
  | @connected id driver remote stage qp before pending =>
    have phase := finished.phase inv id
    simp [before, pending] at phase

-- A client that is not connected can take a step, if only to exit.
theorem exists_client_step {id : ι} (inv : Inv setup s) (pending : (s.clients id).qp.qp.state ≠ .rts)
    (present : ∀ e, (s.clients id).phase ≠ .exited e) :
    ∃ action next, s.step setup action = .ok next := by
  cases phase : (s.clients id).phase with
  | idle => exact ⟨.hangUp id, by simp [step, phase]⟩
  | waiting call => exact ⟨.hangUp id, by simp [step, phase]⟩
  | connecting remote stage =>
    have knows := inv.clients.knows id
    rw [phase] at knows
    have unfinished : stage ≠ .done := by
      rintro rfl
      exact pending knows.1.state
    refine ⟨.connect id accepting, ?_⟩
    simp only [step, phase, unfinished, if_false]
    split
    next e failed => exact ⟨_, rfl⟩
    next qp advanced => exact ⟨_, rfl⟩
  | exited e => exact absurd phase (present e)

-- A handler that the server serves can take a step until it has replied.
theorem exists_handler_step {call : Nat} {exchange : Exchange ι} (running : s.serverExit = none)
    (found : s.Has call exchange) (serves : s.serves setup exchange.stage = true)
    (unanswered : ¬ exchange.Answered) : ∃ action next, s.step setup action = .ok next := by
  have handler := handler_of_has running found serves
  cases before : exchange.stage with
  | requested =>
    exact ⟨.serve call (.error (.uncaught "std::bad_alloc")), by simp [step, handler, before]⟩
  | connecting object stage =>
    cases stage with
    | done =>
      refine ⟨.inform call, ?_⟩
      simp only [step, handler, before]
      split
      next e failed => exact ⟨_, rfl⟩
      next selfInfo given => exact ⟨_, rfl⟩
    | toInit | toRtr | toRts =>
      refine ⟨.handle call accepting, ?_⟩
      simp only [step, handler, before, reduceCtorEq, if_false]
      split
      next e failed => exact ⟨_, rfl⟩
      next qp advanced => exact ⟨_, rfl⟩
  | informed object selfInfo => exact ⟨.callback call, by simp [step, handler, before]⟩
  | called object param selfInfo =>
    exact ⟨.answer call (.ok false), by simp [step, handler, before]⟩
  | replied selfInfo => exact absurd ⟨selfInfo, .inl before⟩ unanswered
  | delivered selfInfo => exact absurd ⟨selfInfo, .inr before⟩ unanswered

theorem exhausted_iff (inv : Inv setup s) :
    Exhausted (step setup) (fun _ => True) s ↔ Finished setup s := by
  constructor
  · intro exhausted
    constructor
    · intro id
      by_contra unsettled
      obtain ⟨pending, present⟩ := not_or.mp unsettled
      obtain ⟨action, next, taken⟩ := exists_client_step inv pending (not_exists.mp present)
      exact exhausted action trivial next taken
    · intro running call exchange found serves
      by_contra unanswered
      obtain ⟨action, next, taken⟩ := exists_handler_step running found serves unanswered
      exact exhausted action trivial next taken
  · intro finished action _ next taken
    exact (step_taken taken).not_finished inv finished

end Network

/-- No order of requests, replies, handlers, modifications and failures goes on for longer than
this. It can go on until every client is connected or has exited, and stops nowhere else. -/
structure Ends {ι : Type} [Fintype ι] [DecidableEq ι] (setup : Setup ι)
    (actions : List (NetAction ι)) (s : Network ι) : Prop where
  short : actions.length ≤ 12 * Fintype.card ι + 1
  goesOn : ∃ rest last, run (Network.step setup) s rest = .ok last ∧ Network.Finished setup last
  stuck : Exhausted (Network.step setup) (fun _ => True) s ↔ Network.Finished setup s

theorem establishment_ends {ι : Type} [Fintype ι] [DecidableEq ι] (setup : Setup ι)
    {actions : List (NetAction ι)} {s : Network ι}
    (ran : run (Network.step setup) (Network.start setup) actions = .ok s) :
    Ends setup actions s := by
  have inv := Network.run_inv ran
  have spends := Network.step_spends setup
  have bounded := spends.run_length actions trivial ran
  rw [Network.start_left] at bounded
  refine ⟨by omega, ?_, Network.exhausted_iff inv⟩
  obtain ⟨rest, last, -, continued, exhausted⟩ := spends.run_exhausts (fun _ => True) (s := s) trivial
  have later : Network.Inv setup last :=
    run_invariant (Network.step setup) (Network.Inv setup)
      (fun _ _ _ inv taken => (Network.step_change taken).inv inv) rest inv continued
  exact ⟨rest, last, continued, (Network.exhausted_iff later).mp exhausted⟩

theorem two_calls_end :
    ∃ s, run (Network.step twoClients) (Network.start twoClients) twoCalls = .ok s ∧
      Ends twoClients twoCalls s := by
  have ran : run (Network.step twoClients) (Network.start twoClients) twoCalls = .ok _ := rfl
  exact ⟨_, ran, establishment_ends twoClients ran⟩

end Rdmalib2
