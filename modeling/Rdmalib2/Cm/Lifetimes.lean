import Rdmalib2.Cm.Pairing
import Rdmalib2.Cm.Steps
import Rdmalib2.Shared.Progress

set_option autoImplicit false

/-!
# How long the server's queue pairs live

The callback is given the queue pair of its call, and what it does not put elsewhere is destroyed
when it returns. Only then does the handler reply to the client.
-/

namespace Rdmalib2

open Shared

/-! ## Callbacks that keep their queue pairs or do not -/

-- What has become of a queue pair that the handler has given away.
inductive Disposal where
  | kept
  | destroyed
  deriving DecidableEq, Repr

structure Service (ι : Type) where
  network : Network ι
  fate : Nat → Option Disposal := fun _ => none

def NetAction.answers {ι : Type} : NetAction ι → Bool
  | .answer .. => true
  | _ => false

-- The program destroys a queue pair that it has kept when it likes.
inductive ServiceAction (ι : Type) where
  | net (action : NetAction ι) (other : action.answers = false)
  | answer (call : Nat) (returned : Except Failure Bool) (keeps : Bool)
  | discard (call : Nat)

namespace Service

variable {ι : Type}

def start (setup : Setup ι) : Service ι := { network := Network.start setup }

def setFate (s : Service ι) (call : Nat) (fate : Disposal) : Service ι :=
  { s with fate := Function.update s.fate call (some fate) }

variable [DecidableEq ι]

-- No destructor runs where a callback ends the process.
def step (setup : Setup ι) (s : Service ι) : ServiceAction ι → Except Unit (Service ι)
  | .net action _ =>
      (s.network.step setup action).map fun network => { s with network }
  | .answer call returned keeps =>
      (s.network.step setup (.answer call returned)).map fun network =>
        match returned with
        | .error _ => { s with network }
        | .ok _ => { s with network }.setFate call (if keeps then .kept else .destroyed)
  | .discard call =>
      if s.network.serverExit = none ∧ s.fate call = some .kept then .ok (s.setFate call .destroyed)
      else .error ()

end Service

namespace ServiceAction

variable {ι : Type}

def keeps : ServiceAction ι → Bool
  | .answer _ _ keeps => keeps
  | .net .. | .discard _ => false

def destroys (call : Nat) : ServiceAction ι → Bool
  | .answer other (.ok _) keeps => other = call && !keeps
  | .discard other => other = call
  | .answer _ (.error _) _ | .net .. => false

end ServiceAction

/-! ## Queue pairs that the handler has let go -/

def HandlerStage.letGo : HandlerStage → Bool
  | .replied _ | .delivered _ => true
  | .requested | .connecting .. | .informed .. | .called .. => false

namespace Network

variable {ι : Type} {setup : Setup ι} {s next : Network ι}

def LetGo (s : Network ι) (call : Nat) : Prop :=
  ∃ exchange, s.Has call exchange ∧ exchange.stage.letGo = true

theorem Has.letGo {call : Nat} {exchange : Exchange ι} (found : s.Has call exchange) :
    s.LetGo call ↔ exchange.stage.letGo = true := by
  constructor
  · rintro ⟨other, also, letGo⟩
    obtain rfl := Option.some.inj (also.symm.trans found)
    exact letGo
  · exact fun letGo => ⟨exchange, found, letGo⟩

theorem letGo_congr (s : Network ι) (same : next.calls = s.calls) (call : Nat) :
    next.LetGo call ↔ s.LetGo call := by
  simp only [LetGo, Has, same]

theorem letGo_set {call : Nat} {exchange later : Exchange ι} (found : s.Has call exchange)
    (same : next.calls = s.calls.set call later) (other : Nat) :
    next.LetGo other ↔
      other = call ∧ later.stage.letGo = true ∨ other ≠ call ∧ s.LetGo other := by
  by_cases here : other = call
  · subst here
    simpa using ((has_of_set found same).mpr (.inl ⟨rfl, rfl⟩)).letGo
  · simp only [here, false_and, ne_eq, not_false_eq_true, true_and, false_or, LetGo,
      has_of_set found same]

theorem letGo_push {exchange : Exchange ι} (same : next.calls = s.calls ++ [exchange])
    (fresh : exchange.stage.letGo = false) (call : Nat) :
    next.LetGo call ↔ s.LetGo call := by
  simp only [LetGo, has_of_push same]
  constructor
  · rintro ⟨twin, found | ⟨-, rfl⟩, letGo⟩
    · exact ⟨twin, found, letGo⟩
    · rw [fresh] at letGo
      cases letGo
  · rintro ⟨twin, found, letGo⟩
    exact ⟨twin, .inl found, letGo⟩

-- A handler step other than an answer lets nothing go.
theorem letGo_set_same {call : Nat} {exchange later : Exchange ι} (found : s.Has call exchange)
    (same : next.calls = s.calls.set call later)
    (stage : later.stage.letGo = exchange.stage.letGo) (other : Nat) :
    next.LetGo other ↔ s.LetGo other := by
  rw [letGo_set found same, stage]
  by_cases here : other = call
  · subst here
    simp [found.letGo]
  · simp [here]

variable [DecidableEq ι]

/-- A queue pair is let go when its callback has returned, and in no other way. -/
theorem Taken.letGo {action : NetAction ι} (taken : Taken setup s action next) (call : Nat) :
    next.LetGo call ↔
      s.LetGo call ∨ ∃ shouldStop, action = .answer call (.ok shouldStop) := by
  cases taken with
  | refused | hungUp | unconnected | connected =>
    refine Iff.trans (letGo_congr s rfl call) ?_
    simp
  | called before given =>
    refine Iff.trans (letGo_push rfl rfl call) ?_
    simp
  | exited running found fails =>
    refine Iff.trans (letGo_congr s rfl call) ?_
    cases fails <;> simp
  | handled running found handles =>
    cases handles with
    | serve before | handle before | inform before | callback before =>
      refine Iff.trans (letGo_set_same found rfl (by rw [before]; rfl) call) ?_
      simp
    | answer before =>
      refine Iff.trans (letGo_set found rfl call) ?_
      simp only [HandlerStage.letGo, and_true, NetAction.answer.injEq, Except.ok.injEq]
      grind
  | delivered found before waits =>
    refine Iff.trans (letGo_set_same found rfl (by rw [before]; rfl) call) ?_
    simp

end Network

/-! ## What has been given away -/

namespace Service

variable {ι : Type} {setup : Setup ι} {s next : Service ι} {call : Nat}

/-- Something has become of exactly the queue pairs that the handler has let go. -/
structure Settled (setup : Setup ι) (s : Service ι) : Prop where
  network : Network.Inv setup s.network
  given : ∀ call, s.network.LetGo call ↔ (s.fate call).isSome

theorem start_settled (setup : Setup ι) : Settled setup (start setup) := by
  refine ⟨Network.start_inv setup, fun call => ?_⟩
  simp [start, Network.LetGo, Network.start_calls]

theorem setFate_isSome (s : Service ι) (fate : Disposal) (other : Nat) :
    ((s.setFate call fate).fate other).isSome ↔ other = call ∨ (s.fate other).isSome := by
  simp only [setFate, Function.update_apply]
  split
  next same => simp [same]
  next apart => simp [apart]

variable [DecidableEq ι] {action : ServiceAction ι} {actions : List (ServiceAction ι)}

theorem discard_taken (taken : s.step setup (.discard call) = .ok next) :
    s.fate call = some .kept ∧ next = s.setFate call .destroyed := by
  rw [step] at taken
  split at taken
  next kept => exact ⟨kept.2, (Except.ok.inj taken).symm⟩
  next => cases taken

theorem step_settled (settled : Settled setup s) (taken : s.step setup action = .ok next) :
    Settled setup next := by
  cases action with
  | net action other =>
    obtain ⟨network, stepped, rfl⟩ := map_ok taken
    refine ⟨(Network.step_change stepped).inv settled.network, fun call => ?_⟩
    rw [(Network.step_taken stepped).letGo call, settled.given call, or_iff_left]
    rintro ⟨shouldStop, rfl⟩
    cases other
  | answer call returned keeps =>
    obtain ⟨network, stepped, rfl⟩ := map_ok taken
    have inv := (Network.step_change stepped).inv settled.network
    have letGo := (Network.step_taken stepped).letGo
    cases returned with
    | error e =>
      refine ⟨inv, fun other => ?_⟩
      rw [letGo other, settled.given other]
      simp
    | ok shouldStop =>
      refine ⟨inv, fun other => ?_⟩
      rw [setFate_isSome, ← settled.given other]
      refine Iff.trans (letGo other) ?_
      simp [or_comm, eq_comm]
  | discard call =>
    obtain ⟨kept, rfl⟩ := discard_taken taken
    have given : s.network.LetGo call := (settled.given call).mpr (by simp [kept])
    refine ⟨settled.network, fun other => ?_⟩
    rw [setFate_isSome, ← settled.given other]
    constructor
    · exact .inr
    · rintro (rfl | letGo)
      · exact given
      · exact letGo

theorem run_settled (ran : run (step setup) (start setup) actions = .ok s) : Settled setup s :=
  run_invariant (step setup) (Settled setup) (fun _ _ _ => step_settled) actions
    (start_settled setup) ran

/-- Queue pairs are kept by callbacks that keep them, and destroyed by what destroys them. -/
theorem step_fate (taken : s.step setup action = .ok next) (call : Nat) :
    next.fate call = s.fate call ∨ next.fate call = some .kept ∧ action.keeps = true ∨
      next.fate call = some .destroyed ∧ action.destroys call = true := by
  cases action with
  | net action other =>
    obtain ⟨network, -, rfl⟩ := map_ok taken
    exact .inl rfl
  | answer other returned keeps =>
    obtain ⟨network, -, rfl⟩ := map_ok taken
    cases returned with
    | error e => exact .inl rfl
    | ok shouldStop =>
      by_cases same : call = other
      · subst same
        cases keeps <;> simp [setFate, ServiceAction.keeps, ServiceAction.destroys]
      · exact .inl (Function.update_of_ne same ..)
  | discard other =>
    obtain ⟨-, rfl⟩ := discard_taken taken
    by_cases same : call = other
    · subst same
      simp [setFate, ServiceAction.destroys]
    · exact .inl (Function.update_of_ne same ..)

theorem run_undestroyed (spared : ∀ action ∈ actions, action.destroys call = false)
    (ran : run (step setup) (start setup) actions = .ok s) : s.fate call ≠ some .destroyed := by
  refine run_invariant_among (step setup) (fun action => action.destroys call = false)
    (fun s => s.fate call ≠ some .destroyed) ?_ actions spared (by simp [start]) ran
  intro s action next spares before taken
  rcases step_fate taken call with same | ⟨kept, -⟩ | ⟨-, destroys⟩
  · rwa [same]
  · simp [kept]
  · rw [spares] at destroys
    cases destroys

theorem run_unkept (drops : ∀ action ∈ actions, action.keeps = false)
    (ran : run (step setup) (start setup) actions = .ok s) : s.fate call ≠ some .kept := by
  refine run_invariant_among (step setup) (fun action => action.keeps = false)
    (fun s => s.fate call ≠ some .kept) ?_ actions drops (by simp [start]) ran
  intro s action next drops before taken
  rcases step_fate taken call with same | ⟨-, keeps⟩ | ⟨destroyed, -⟩
  · rwa [same]
  · rw [drops] at keeps
    cases keeps
  · simp [destroyed]

end Service

section told

variable {ι : Type} [DecidableEq ι] {setup : Setup ι} {actions : List (ServiceAction ι)}
  {s : Service ι}

/-- When a client hears of its connection, and ever after, the other end is a queue pair that the
handler has given away in RTS. It is there as long as the program keeps it, and where callbacks
keep nothing it has been destroyed. -/
structure PeerGiven (setup : Setup ι) (actions : List (ServiceAction ι)) (s : Service ι) (id : ι)
    (call : Nat) (server : Driven) : Prop where
  created : s.network.CreatedFor call id server
  connected : server.qp.state = .rts
  paired : (s.network.clients id).qp.qp.state = .rts →
    Paired setup id (s.network.clients id).qp server
  kept : (∀ action ∈ actions, action.destroys call = false) → s.fate call = some .kept
  destroyed : (∀ action ∈ actions, action.keeps = false) → s.fate call = some .destroyed

theorem told_clients_peers (ran : run (Service.step setup) (Service.start setup) actions = .ok s)
    {id : ι} {remote : Info} {stage : ConnectStage}
    (told : (s.network.clients id).phase = .connecting remote stage) :
    ∃ call server, PeerGiven setup actions s id call server := by
  have settled := Service.run_settled ran
  have knows := settled.network.clients.knows id
  rw [told] at knows
  obtain ⟨-, call, exchange, found, rfl, delivered, -⟩ := knows
  have handles := (settled.network.calls.ok call exchange found).handles
  rw [delivered] at handles
  obtain ⟨server, held, connected, -⟩ := handles
  have letGo : s.network.LetGo call := ⟨exchange, found, by rw [delivered]; rfl⟩
  obtain ⟨fate, given⟩ := Option.isSome_iff_exists.mp ((settled.given call).mp letGo)
  refine ⟨call, server, ⟨exchange, found, rfl, held⟩, connected.state, fun reached => ?_,
    fun spared => ?_, fun drops => ?_⟩
  · obtain ⟨other, twin, -, only, -, -, paired⟩ := connected_paired settled.network reached
    obtain ⟨-, rfl⟩ := only call server ⟨exchange, found, rfl, held⟩
    exact paired
  · have undestroyed := Service.run_undestroyed spared ran
    cases fate with
    | kept => exact given
    | destroyed => exact absurd given undestroyed
  · have unkept : s.fate call ≠ some .kept := Service.run_unkept drops ran
    cases fate with
    | kept => exact absurd given unkept
    | destroyed => exact given

end told

-- The callback posts a receive, say, and lets its queue pair go.
def droppedCall : List (ServiceAction Bool) :=
  [.net (.call false) rfl, .net (.serve 0 (.ok 30)) rfl, .net (.handle 0 accepting) rfl,
    .net (.handle 0 accepting) rfl, .net (.handle 0 accepting) rfl, .net (.inform 0) rfl,
    .net (.callback 0) rfl, .answer 0 (.ok false) false, .net (.deliver 0) rfl]

-- The client has yet to modify its queue pair, and the other end has gone.
theorem dropped_peer :
    ∃ s call server,
      run (Service.step twoClients) (Service.start twoClients) droppedCall = .ok s ∧
      (s.network.clients false).qp.qp.state = .reset ∧
      PeerGiven twoClients droppedCall s false call server ∧ s.fate call = some .destroyed := by
  have ran : run (Service.step twoClients) (Service.start twoClients) droppedCall = .ok _ := rfl
  obtain ⟨call, server, given⟩ := @told_clients_peers Bool _ _ _ _ ran false _ _ rfl
  have drops : ∀ action ∈ droppedCall, action.keeps = false := by
    simp [droppedCall, ServiceAction.keeps]
  exact ⟨_, call, server, ran, rfl, given, given.destroyed drops⟩

end Rdmalib2
