import Rdmalib2.Common
import Rdmalib2.Shared.Loop
import Mathlib.Data.UInt

set_option autoImplicit false

namespace Rdmalib2

open Shared

inductive IbvWcStatus where
  | success
  | error (number : Nat)
  deriving DecidableEq, Repr

def IbvWcStatus.number : IbvWcStatus → Nat
  | .success => 0
  | .error number => number

structure IbvWc where
  wrId : UInt64
  status : IbvWcStatus := .success
  -- Opcodes of the driver and of the library have the same numbers.
  opcode : UInt32
  byteLen : UInt32
  immData : UInt32
  deriving DecidableEq, Repr

structure RdmaSuccessCqe where
  op : UInt32 := 0
  wrId : UInt64 := 0
  length : UInt32 := 0
  immData : UInt32 := 0
  deriving DecidableEq, Repr

-- `to_op_type` is a cast that keeps the number.
def RdmaSuccessCqe.ofWc (wc : IbvWc) : RdmaSuccessCqe :=
  { op := wc.opcode, wrId := wc.wrId, length := wc.byteLen, immData := wc.immData }

-- What an `int` holds.
def InInt (value : Int) : Prop := -2 ^ 31 ≤ value ∧ value < 2 ^ 31

instance (value : Int) : Decidable (InInt value) := inferInstanceAs (Decidable (_ ∧ _))

-- A number of entries to poll for, which is an `int` and not negative.
abbrev NumEntries := Fin (2 ^ 31)

-- An answer of `ibv_poll_cq`: the entries it fills in, or a negative `int`.
inductive PollReply where
  | completed (entries : List IbvWc)
  | failed (code : Fin (2 ^ 31))
  deriving DecidableEq, Repr

namespace PollReply

def ret : PollReply → Int
  | .completed entries => entries.length
  | .failed code => -(code + 1)

def entries : PollReply → List IbvWc
  | .completed entries => entries
  | .failed _ => []

end PollReply

-- A driver may keep any state of its own; it fills in no more entries than it is asked for.
structure CqDriver (δ : Type) where
  poll : δ → Int → PollReply × δ
  within : ∀ cq k, (poll cq k).1.entries.length ≤ k.toNat

/-! ## `do_poll` -/

-- The message is given the index before the id, after the address of the queue.
def checkStatus (i : Nat) : List IbvWc → Except Failure Unit
  | [] => .ok ()
  | wc :: rest =>
      if wc.status ≠ .success then
        .error (.panicWithErrno
          "poll completion queue {:p} failed at <wr_id {}, type {}> with status {}"
          [i, wc.wrId.toNat, wc.opcode.toNat, wc.status.number])
      else checkStatus (i + 1) rest

-- What `do_poll` makes of the driver's answer. The buffer it passes has `kMaxPollCq` entries.
def doPoll (reply : PollReply) : Except Failure Int :=
  if kMaxPollCq < reply.entries.length then
    .error (.undefined "completions beyond the end of wc")
  else
    match checkStatus 0 reply.entries with
    | .error e => .error e
    | .ok () => .ok reply.ret

/-! ## The polling loops -/

inductive PollFn where
  | poll
  | pollWithWc
  | tryPoll
  | tryPollWithWc
  deriving DecidableEq, Repr

namespace PollFn

-- The condition of the loop. `poll` counts its argument down by what `tot` counts up.
def more (fn : PollFn) (numEntries tot : Int) : Bool :=
  match fn with
  | .poll => numEntries - tot ≠ 0
  | .pollWithWc | .tryPoll | .tryPollWithWc => tot < numEntries

def entriesToPoll (fn : PollFn) (numEntries tot : Int) : Int :=
  match fn with
  | .poll | .pollWithWc | .tryPoll => min (numEntries - tot) kMaxPollCq
  | .tryPollWithWc => min numEntries kMaxPollCq

-- What the driver is asked for.
def request (fn : PollFn) (numEntries tot : Int) : Int :=
  match fn with
  | .tryPoll => numEntries
  | .poll | .pollWithWc | .tryPollWithWc => fn.entriesToPoll numEntries tot

def stores : PollFn → Bool
  | .pollWithWc | .tryPollWithWc => true
  | .poll | .tryPoll => false

def stopsShort : PollFn → Bool
  | .tryPoll | .tryPollWithWc => true
  | .poll | .pollWithWc => false

-- The `int`s computed from a new total before the next poll. `poll` counts its argument down, and
-- `poll_with_wc` takes the total from it, which may have become negative. The totals that the other
-- two take from it in another turn are never negative.
def counters (fn : PollFn) (numEntries tot : Int) : List Int :=
  match fn with
  | .poll => [numEntries - tot]
  | .pollWithWc => [tot, numEntries - tot]
  | .tryPoll | .tryPollWithWc => [tot]

def Counts (fn : PollFn) (numEntries tot : Int) : Prop :=
  ∀ value ∈ fn.counters numEntries tot, InInt value

instance (fn : PollFn) (numEntries tot : Int) : Decidable (fn.Counts numEntries tot) :=
  inferInstanceAs (Decidable (∀ _ ∈ _, _))

end PollFn

-- One driver poll, with the places of the result vector it was stored to.
structure PollTurn where
  request : Int
  reply : PollReply
  stores : List Int
  deriving DecidableEq, Repr

structure Polling (δ : Type) where
  cq : δ
  tot : Int := 0
  ret : List RdmaSuccessCqe
  log : List PollTurn := []

-- The copying loop, from `ret[index]` on.
def storeEntries (ret : List RdmaSuccessCqe) (index : Int) :
    List IbvWc → List Int × Except Failure (List RdmaSuccessCqe)
  | [] => ([], .ok ret)
  | wc :: rest =>
      if 0 ≤ index ∧ index < ret.length then
        let (stores, stored) := storeEntries (ret.set index.toNat (.ofWc wc)) (index + 1) rest
        (index :: stores, stored)
      else ([index], .error (.undefined "store outside of ret"))

namespace PollFn

variable {δ : Type}

-- The members without a result vector copy nothing.
def storing (fn : PollFn) (s : Polling δ) (reply : PollReply) :
    List Int × Except Failure (List RdmaSuccessCqe) :=
  if fn.stores then storeEntries s.ret s.tot reply.entries else ([], .ok s.ret)

-- The copies, and then the count, which has no value beyond an `int`.
def tallying (fn : PollFn) (numEntries : Int) (s : Polling δ) (reply : PollReply) :
    List Int × Except Failure (List RdmaSuccessCqe) :=
  let (stores, stored) := fn.storing s reply
  match stored with
  | .error e => (stores, .error e)
  | .ok ret =>
      if fn.Counts numEntries (s.tot + reply.ret) then (stores, .ok ret)
      else (stores, .error (.undefined "signed integer overflow"))

def turn (fn : PollFn) (driver : CqDriver δ) (numEntries : Int) (s : Polling δ) :
    Turn (Polling δ) (Polling δ × Except Failure Unit) :=
  if fn.more numEntries s.tot then
    let request := fn.request numEntries s.tot
    let (reply, cq) := driver.poll s.cq request
    match doPoll reply with
    | .error e => .done ({ s with cq, log := s.log ++ [{ request, reply, stores := [] }] }, .error e)
    | .ok n =>
        let (stores, stored) := fn.tallying numEntries s reply
        let log := s.log ++ [{ request, reply, stores }]
        match stored with
        | .error e => .done ({ s with cq, log }, .error e)
        | .ok ret =>
            let next := { cq, tot := s.tot + n, ret, log }
            if fn.stopsShort ∧ n < fn.entriesToPoll numEntries s.tot then .done (next, .ok ())
            else .again next
  else .done (s, .ok ())

end PollFn

-- What a call returns: nothing, a count, or a vector.
inductive PollReturn where
  | done
  | count (tot : Int)
  | cqes (ret : List RdmaSuccessCqe)
  deriving DecidableEq, Repr

-- The queue and the driver polls once a call has ended, or so far.
structure Polled (δ : Type) where
  cq : δ
  log : List PollTurn
  result : Option (Except Failure PollReturn)

namespace PollFn

variable {δ : Type}

def finish (fn : PollFn) (s : Polling δ) : Except Failure PollReturn :=
  match fn with
  | .poll => .ok .done
  | .pollWithWc => .ok (.cqes s.ret)
  | .tryPoll => .ok (.count s.tot)
  | .tryPollWithWc =>
      -- A negative total becomes a size that no vector has.
      if s.tot < 0 then .error (.uncaught "std::length_error")
      else .ok (.cqes (s.ret.take s.tot.toNat ++
        List.replicate (s.tot.toNat - s.ret.length) ({} : RdmaSuccessCqe)))

-- The blocking members poll until they have all they want, here for at most `fuel` polls. The
-- others are done after fewer polls than entries.
def turns (fn : PollFn) (fuel : Nat) (numEntries : Int) : Nat :=
  if fn.stopsShort then numEntries.toNat + 1 else fuel

def start (fn : PollFn) (numEntries : Int) (cq : δ) : Polling δ where
  cq := cq
  ret := if fn.stores then List.replicate numEntries.toNat {} else []

def ended (fn : PollFn) : Turn (Polling δ) (Polling δ × Except Failure Unit) → Polled δ
  | .again s => { cq := s.cq, log := s.log, result := none }
  | .done (s, .error e) => { cq := s.cq, log := s.log, result := some (.error e) }
  | .done (s, .ok ()) => { cq := s.cq, log := s.log, result := some (fn.finish s) }

def call (fn : PollFn) (driver : CqDriver δ) (fuel : Nat) (numEntries : Int) (cq : δ) :
    Polled δ :=
  if fn.stores ∧ numEntries < 0 then
    { cq, log := [], result := some (.error (.uncaught "std::length_error")) }
  else
    fn.ended (iterate (fn.turn driver numEntries) (fn.turns fuel numEntries)
      (fn.start numEntries cq))

end PollFn

end Rdmalib2
