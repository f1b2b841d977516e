import Rdmalib2.Cm.Sequential

set_option autoImplicit false

/-!
# What a stop leaves behind

Once a callback has asked for a stop, hrpc decides which calls go on. A client whose call does not
is never connected.
-/

namespace Rdmalib2

open Shared

variable {ι : Type} {setup : Setup ι} {s next : Network ι}

namespace Network

/-- What a client still waits for, and a stopped server does not do. -/
inductive Halted (setup : Setup ι) (s : Network ι) (id : ι) : Prop
  | idle (phase : (s.clients id).phase = .idle) (halts : setup.serves .requested = false)
  | waiting {call : Nat} {exchange : Exchange ι} (phase : (s.clients id).phase = .waiting call)
      (found : s.Has call exchange) (halts : setup.serves exchange.stage = false)

structure Stranded (setup : Setup ι) (s : Network ι) (id : ι) : Prop where
  stopped : s.stopped = true
  qp : (s.clients id).qp = .fresh (setup.qpNum id)
  waits : Halted setup s id ∨ ∃ e, (s.clients id).phase = .exited e

-- What becomes of the calls that a stopped server does not serve.
def Leaves (setup : Setup ι) (s next : Network ι) : Prop :=
  ∀ call exchange, s.Has call exchange → setup.serves exchange.stage = false →
    next.Has call exchange

section stranded

variable {id : ι} {call : Nat} {exchange later : Exchange ι}

theorem Stranded.unconnected (stranded : Stranded setup s id) (remote : Info)
    (stage : ConnectStage) : (s.clients id).phase ≠ .connecting remote stage := by
  rcases stranded.waits with (⟨phase, -⟩ | ⟨phase, -, -⟩) | ⟨e, phase⟩ <;> simp [phase]

theorem Stranded.not_served (stranded : Stranded setup s id) (found : s.Has call exchange)
    (phase : (s.clients id).phase = .waiting call) : setup.serves exchange.stage = false := by
  rcases stranded.waits with (⟨idle, -⟩ | ⟨waiting, here, halts⟩) | ⟨e, exited⟩
  · cases idle.symm.trans phase
  · obtain rfl := ClientPhase.waiting.inj (waiting.symm.trans phase)
    obtain rfl := Option.some.inj (here.symm.trans found)
    exact halts
  · cases exited.symm.trans phase

theorem served (stopped : s.stopped = true) (serves : s.serves setup exchange.stage = true) :
    setup.serves exchange.stage = true := by
  simpa [Network.serves, stopped] using serves

theorem Leaves.set (found : s.Has call exchange) (serves : setup.serves exchange.stage = true)
    (calls : next.calls = s.calls.set call later) : Leaves setup s next := by
  intro other twin here halts
  refine (has_of_set found calls).mpr (.inr ⟨?_, here⟩)
  rintro rfl
  obtain rfl := Option.some.inj (here.symm.trans found)
  rw [serves] at halts
  cases halts

-- Whatever else is done, a client that takes no step is stranded as before.
theorem Stranded.stays (stranded : Stranded setup s id) (leaves : Leaves setup s next)
    (client : next.clients id = s.clients id) (stopped : next.stopped = true) :
    Stranded setup next id := by
  refine ⟨stopped, by rw [client, stranded.qp], ?_⟩
  rw [client]
  rcases stranded.waits with (⟨phase, halts⟩ | ⟨phase, found, halts⟩) | exited
  · exact .inl (.idle (by rw [client, phase]) halts)
  · exact .inl (.waiting (by rw [client, phase]) (leaves _ _ found halts) halts)
  · exact .inr exited

-- A client that takes a step without its queue pair exits, or asks for what will not be done.
theorem Stranded.update [DecidableEq ι] {other : ι} {client : Client}
    (stranded : Stranded setup s id) (leaves : Leaves setup s next)
    (clients : next.clients = Function.update s.clients other client)
    (stopped : next.stopped = s.stopped)
    (here : id = other → next.clients id = client → client.qp = (s.clients id).qp ∧
      (Halted setup next id ∨ ∃ e, client.phase = .exited e)) : Stranded setup next id := by
  by_cases same : id = other
  · subst same
    have now : next.clients id = client := by rw [clients, Function.update_self]
    obtain ⟨qp, waits⟩ := here rfl now
    exact ⟨stopped.trans stranded.stopped, by rw [now, qp, stranded.qp], by rwa [now]⟩
  · have now : next.clients id = s.clients id := by rw [clients, Function.update_of_ne same]
    exact stranded.stays leaves now (stopped.trans stranded.stopped)

end stranded

variable [DecidableEq ι]

theorem Taken.stranded {action : NetAction ι} (taken : Taken setup s action next) {id : ι}
    (stranded : Stranded setup s id) : Stranded setup next id := by
  cases taken with
  | refused | hungUp =>
    refine stranded.update (fun _ _ found _ => found) rfl rfl ?_
    rintro rfl -
    exact ⟨rfl, .inr ⟨_, rfl⟩⟩
  | @called other selfInfo before given =>
    refine stranded.update (fun _ _ found _ => (has_of_push rfl).mpr (.inl found)) rfl rfl ?_
    rintro rfl now
    have begins : setup.serves .requested = false := by
      rcases stranded.waits with (⟨-, halts⟩ | ⟨phase, -⟩) | ⟨e, phase⟩
      · exact halts
      · cases before.symm.trans phase
      · cases before.symm.trans phase
    refine ⟨rfl, .inl ?_⟩
    apply @Halted.waiting _ _ _ _ _ { caller := id, request := selfInfo } (congrArg Client.phase now)
    case found => exact (has_of_push rfl).mpr (.inr ⟨rfl, rfl⟩)
    case halts => exact begins
  | exited running found fails => exact stranded.stays (fun _ _ found _ => found) rfl stranded.stopped
  | handled running found handles serves =>
    have serves := served stranded.stopped serves
    exact stranded.stays (Leaves.set found serves rfl) rfl (by simp [stranded.stopped])
  | @delivered call exchange selfInfo found before waits serves =>
    have serves := served stranded.stopped serves
    refine stranded.update (Leaves.set found serves rfl) rfl rfl ?_
    rintro rfl -
    rw [stranded.not_served found waits] at serves
    cases serves
  | unconnected before | connected before =>
    refine stranded.update (fun _ _ found _ => found) rfl rfl ?_
    rintro rfl -
    exact absurd before (stranded.unconnected _ _)

end Network

end Rdmalib2
