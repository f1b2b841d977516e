import Rdmalib2.Cq.Simulation
import Rdmalib2.Cq.Waiting
import Rdmalib2.Verb.Post

set_option autoImplicit false

/-!
# The adapter

What the other side of the driver does with the requests it is handed: it executes them in order,
and it reports a request to the completion queue if the request asked for that or has failed.
-/

namespace Rdmalib2

open Shared

def Request.signaled (this : Request) : Bool := this.send.expSendFlags.contains .signaled

-- How the execution of a request ends, and what the completion says of it beside the id.
structure Outcome where
  status : IbvWcStatus := .success
  opcode : UInt32 := 0
  byteLen : UInt32 := 0
  immData : UInt32 := 0
  deriving DecidableEq, Repr

structure Executed where
  request : Request
  outcome : Outcome
  deriving DecidableEq, Repr

def Executed.report (this : Executed) : Option IbvWc :=
  if this.request.signaled = true ∨ this.outcome.status ≠ .success then
    some { wrId := this.request.wrId, status := this.outcome.status, opcode := this.outcome.opcode
           byteLen := this.outcome.byteLen, immData := this.outcome.immData }
  else none

def reports (executed : List Executed) : List IbvWc := executed.filterMap Executed.report

-- Requests that are executed with these outcomes, as far as both go.
def executing (pending : List Request) (outcomes : List Outcome) : List Executed :=
  List.zipWith Executed.mk pending outcomes

-- A send queue and the completion queue it reports to, of which `head` entries have been taken.
structure Adapter where
  executed : List Executed := []
  pending : List Request := []
  head : Nat := 0
  polls : Nat := 0
  within : head ≤ (reports executed).length := by decide

-- The ids of the requests that asked for a completion.
def signaledIds (requests : List Request) : List UInt64 :=
  (requests.filter Request.signaled).map Request.wrId

/-! ## Reports -/

@[simp] theorem reports_append (first rest : List Executed) :
    reports (first ++ rest) = reports first ++ reports rest := List.filterMap_append

@[simp] theorem signaledIds_cons (request : Request) (rest : List Request) :
    signaledIds (request :: rest) =
      if request.signaled then request.wrId :: signaledIds rest else signaledIds rest := by
  unfold signaledIds
  cases signaled : request.signaled <;> simp [signaled]

@[simp] theorem signaledIds_append (first rest : List Request) :
    signaledIds (first ++ rest) = signaledIds first ++ signaledIds rest := by
  simp [signaledIds]

theorem executing_append (pending : List Request) (first rest : List Outcome) :
    executing pending (first ++ rest) =
      executing pending first ++ executing (pending.drop first.length) rest := by
  induction first generalizing pending with
  | nil => simp [executing]
  | cons outcome first ih =>
    cases pending with
    | nil => simp [executing]
    | cons request pending => simpa [executing] using ih pending

theorem executing_requests (pending : List Request) (outcomes : List Outcome) :
    (executing pending outcomes).map Executed.request ++ pending.drop outcomes.length = pending := by
  induction outcomes generalizing pending with
  | nil => simp [executing]
  | cons outcome outcomes ih =>
    cases pending with
    | nil => simp [executing]
    | cons request pending => simpa [executing] using ih pending

theorem Executed.report_unsignaled {this : Executed} (unsignaled : this.request.signaled = false)
    (success : this.outcome.status = .success) : this.report = none := by
  simp [report, unsignaled, success]

theorem Executed.report_signaled {this : Executed} (signaled : this.request.signaled = true) :
    ∃ wc, this.report = some wc ∧ wc.wrId = this.request.wrId ∧ wc.status = this.outcome.status :=
  ⟨_, if_pos (.inl signaled), rfl, rfl⟩

theorem Executed.report_some {this : Executed} {wc : IbvWc} (reported : this.report = some wc) :
    wc.wrId = this.request.wrId ∧ wc.status = this.outcome.status ∧
      (wc.status = .success → this.request.signaled = true) := by
  unfold report at reported
  split at reported
  next asked =>
    obtain rfl := Option.some.inj reported
    exact ⟨rfl, rfl, fun success => asked.resolve_right fun failed => failed success⟩
  next => cases reported

/-- As long as no reported request has failed, the reports are those of the requests that asked for
one, in their order. -/
theorem reports_ids (executed : List Executed) (count : Nat)
    (within : count ≤ (reports executed).length)
    (success : Successful ((reports executed).take count)) :
    count ≤ (signaledIds (executed.map Executed.request)).length ∧
      ((reports executed).take count).map IbvWc.wrId =
        (signaledIds (executed.map Executed.request)).take count := by
  induction executed generalizing count with
  | nil =>
    obtain rfl : count = 0 := by simpa [reports] using within
    simp
  | cons first rest ih =>
    cases count with
    | zero => simp
    | succ count =>
      cases reported : first.report with
      | none =>
        have unsignaled : first.request.signaled = false := by
          by_contra signaled
          obtain ⟨wc, some, -⟩ := Executed.report_signaled (by simpa using signaled)
          rw [some] at reported
          cases reported
        have same : reports (first :: rest) = reports rest := by simp [reports, reported]
        rw [same] at within success ⊢
        simpa [unsignaled] using ih (count + 1) within success
      | some wc =>
        have same : reports (first :: rest) = wc :: reports rest := by simp [reports, reported]
        rw [same, List.take_succ_cons] at success
        rw [same, List.length_cons] at within
        obtain ⟨here, later⟩ := List.forall_mem_cons.mp success
        obtain ⟨id, -, asked⟩ := Executed.report_some reported
        obtain ⟨enough, ids⟩ := ih count (by omega) later
        rw [List.map_take] at ids
        rw [same]
        simpa [asked here, id] using ⟨enough, ids⟩

-- With no request failing every one that asked is reported, and no other.
theorem reports_length {executed : List Executed}
    (success : ∀ done ∈ executed, done.outcome.status = .success) :
    (reports executed).length = (signaledIds (executed.map Executed.request)).length ∧
      Successful (reports executed) := by
  induction executed with
  | nil => exact ⟨rfl, by simp [reports, Successful]⟩
  | cons first rest ih =>
    obtain ⟨here, later⟩ := List.forall_mem_cons.mp success
    obtain ⟨length, good⟩ := ih later
    cases signaled : first.request.signaled with
    | false =>
      have same : reports (first :: rest) = reports rest := by
        simp [reports, Executed.report_unsignaled signaled here]
      rw [same]
      exact ⟨by simpa [signaled] using length, good⟩
    | true =>
      obtain ⟨wc, reported, -, status⟩ := Executed.report_signaled signaled
      have same : reports (first :: rest) = wc :: reports rest := by simp [reports, reported]
      rw [same]
      refine ⟨by simpa [signaled] using length, ?_⟩
      exact List.forall_mem_cons.mpr ⟨status.trans here, good⟩

/-! ## The queue of an adapter -/

namespace Adapter

-- Everything it has ever been handed.
def requests (adapter : Adapter) : List Request :=
  adapter.executed.map Executed.request ++ adapter.pending

def accept (adapter : Adapter) (requests : List Request) : Adapter where
  executed := adapter.executed
  pending := adapter.pending ++ requests
  head := adapter.head
  polls := adapter.polls
  within := adapter.within

def execute (adapter : Adapter) (outcomes : List Outcome) : Adapter where
  executed := adapter.executed ++ executing adapter.pending outcomes
  pending := adapter.pending.drop outcomes.length
  head := adapter.head
  polls := adapter.polls
  within := by
    have := adapter.within
    rw [reports_append, List.length_append]
    omega

def remove (adapter : Adapter) (count : Nat) : Adapter where
  executed := adapter.executed
  pending := adapter.pending
  head := min (adapter.head + count) (reports adapter.executed).length
  polls := adapter.polls + 1
  within := Nat.min_le_right ..

-- The completion queue alone.
def cq (adapter : Adapter) : Fifo where
  arrived := reports adapter.executed
  head := adapter.head
  polls := adapter.polls
  within := adapter.within

@[simp] theorem accept_requests (adapter : Adapter) (requests : List Request) :
    (adapter.accept requests).requests = adapter.requests ++ requests := by
  simp [accept, Adapter.requests]

@[simp] theorem accept_cq (adapter : Adapter) (requests : List Request) :
    (adapter.accept requests).cq = adapter.cq := rfl

@[simp] theorem execute_requests (adapter : Adapter) (outcomes : List Outcome) :
    (adapter.execute outcomes).requests = adapter.requests := by
  simp only [execute, requests, List.map_append, List.append_assoc, executing_requests]

theorem execute_cq (adapter : Adapter) (outcomes : List Outcome) :
    (adapter.execute outcomes).cq =
      adapter.cq.arrive (reports (executing adapter.pending outcomes)) := by
  simp only [cq, execute, Fifo.arrive, reports_append]

@[simp] theorem remove_requests (adapter : Adapter) (count : Nat) :
    (adapter.remove count).requests = adapter.requests := rfl

@[simp] theorem remove_cq (adapter : Adapter) (count : Nat) :
    (adapter.remove count).cq = adapter.cq.remove count := rfl

/-- Before its answer to each poll a schedule lets some requests be executed, and it limits the
answer. -/
def driver (schedule : Nat → List Outcome × Nat) : CqDriver Adapter where
  poll adapter k :=
    let adapter := adapter.execute (schedule adapter.polls).1
    let count := min (schedule adapter.polls).2 k.toNat
    (.completed (adapter.cq.queue.take count), adapter.remove count)
  within := by
    intro adapter k
    simp only [PollReply.entries, List.length_take]
    omega

/-! ## As a queue with a schedule -/

variable {schedule : Nat → List Outcome × Nat}

-- The outcomes there have been once the adapter has been polled so often.
def outcomes (adapter : Adapter) (schedule : Nat → List Outcome × Nat) (polls : Nat) :
    List Outcome :=
  (List.range polls).flatMap fun i => (schedule (adapter.polls + i)).1

theorem outcomes_succ (adapter : Adapter) (polls : Nat) :
    adapter.outcomes schedule (polls + 1) =
      adapter.outcomes schedule polls ++ (schedule (adapter.polls + polls)).1 := by
  simp [outcomes, List.range_succ]

-- What the completion queue sees of the adapter: which reports arrive before which poll.
def reporting (adapter : Adapter) (schedule : Nat → List Outcome × Nat) :
    Nat → List IbvWc × Nat := fun polls =>
  let before := adapter.outcomes schedule (polls - adapter.polls)
  (reports (executing (adapter.pending.drop before.length) (schedule polls).1), (schedule polls).2)

-- An adapter some polls later, and its completion queue.
structure Later (adapter : Adapter) (schedule : Nat → List Outcome × Nat) (later : Adapter)
    (cq : Fifo) : Prop where
  cq : later.cq = cq
  requests : later.requests = adapter.requests
  elapsed : adapter.polls ≤ later.polls
  pending : later.pending =
    adapter.pending.drop (adapter.outcomes schedule (later.polls - adapter.polls)).length

theorem later_start (adapter : Adapter) (schedule : Nat → List Outcome × Nat) :
    adapter.Later schedule adapter adapter.cq := by
  refine ⟨rfl, rfl, le_rfl, ?_⟩
  simp [outcomes]

theorem Later.next {adapter later : Adapter} {cq : Fifo} (seen : adapter.Later schedule later cq)
    (k : Int) :
    ((driver schedule).poll later k).1 = ((Fifo.driver (adapter.reporting schedule)).poll cq k).1 ∧
      adapter.Later schedule ((driver schedule).poll later k).2
        ((Fifo.driver (adapter.reporting schedule)).poll cq k).2 := by
  obtain ⟨rfl, requests, elapsed, pending⟩ := seen
  have reported : (adapter.reporting schedule later.polls).1 =
      reports (executing later.pending (schedule later.polls).1) := by
    simp only [reporting, ← pending]
  have arrives : (later.execute (schedule later.polls).1).cq =
      later.cq.arrive (adapter.reporting schedule later.polls).1 := by
    rw [execute_cq, reported]
  refine ⟨?_, ?_, ?_, ?_, ?_⟩
  · change PollReply.completed ((later.execute _).cq.queue.take _) = _
    rw [arrives]
    rfl
  · change ((later.execute _).remove _).cq = _
    rw [remove_cq, arrives]
    rfl
  · change ((later.execute _).remove _).requests = _
    rw [remove_requests, execute_requests, requests]
  · change adapter.polls ≤ later.polls + 1
    omega
  · change later.pending.drop (schedule later.polls).1.length =
      adapter.pending.drop (adapter.outcomes schedule (later.polls + 1 - adapter.polls)).length
    rw [Nat.succ_sub elapsed, outcomes_succ, Nat.add_sub_cancel' elapsed, List.length_append, pending,
      List.drop_drop]

theorem driver_simulates (adapter : Adapter) (schedule : Nat → List Outcome × Nat) :
    (driver schedule).Simulates (Fifo.driver (adapter.reporting schedule))
      (adapter.Later schedule) :=
  ⟨fun seen k => (seen.next k).1, fun seen k => (seen.next k).2⟩

/-- A call on an adapter is a call on its completion queue alone, with the schedule on which its
reports arrive there. -/
theorem call_alike (adapter : Adapter) (schedule : Nat → List Outcome × Nat) (fn : PollFn)
    (fuel : Nat) (numEntries : Int) :
    (fn.call (driver schedule) fuel numEntries adapter).Alike (adapter.Later schedule)
      (fn.call (Fifo.driver (adapter.reporting schedule)) fuel numEntries adapter.cq) :=
  PollFn.call_alike (adapter.driver_simulates schedule) fn fuel numEntries
    (adapter.later_start schedule)

end Adapter

end Rdmalib2
