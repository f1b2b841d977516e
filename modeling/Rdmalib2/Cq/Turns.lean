import Rdmalib2.Cq.Poll

set_option autoImplicit false

/-!
# One turn of a polling loop

What `do_poll` accepts, where the copying loop stores, and all that a turn can do.
-/

namespace Rdmalib2

open Shared

/-! ## `do_poll` -/

def Successful (entries : List IbvWc) : Prop := ∀ wc ∈ entries, wc.status = .success

instance (entries : List IbvWc) : Decidable (Successful entries) :=
  inferInstanceAs (Decidable (∀ _ ∈ _, _))

theorem checkStatus_ok (i : Nat) (entries : List IbvWc) :
    checkStatus i entries = .ok () ↔ Successful entries := by
  induction entries generalizing i with
  | nil => simp [checkStatus, Successful]
  | cons wc rest ih =>
    by_cases good : wc.status = .success
    · simp [checkStatus, Successful, good, ih]
    · simp [checkStatus, Successful, good]

theorem doPoll_ok {reply : PollReply} {n : Int} :
    doPoll reply = .ok n ↔
      n = reply.ret ∧ reply.entries.length ≤ kMaxPollCq ∧ Successful reply.entries := by
  unfold doPoll
  by_cases room : reply.entries.length ≤ kMaxPollCq
  · rw [if_neg (by omega), ← checkStatus_ok 0]
    cases checked : checkStatus 0 reply.entries with
    | error e => simp
    | ok => simp [room, eq_comm]
  · rw [if_pos (by omega)]
    simp [room]

theorem doPoll_overrun {reply : PollReply} (surplus : kMaxPollCq < reply.entries.length) :
    doPoll reply = .error (.undefined "completions beyond the end of wc") :=
  if_pos surplus

theorem checkStatus_defined (i : Nat) (entries : List IbvWc) (access : String) :
    checkStatus i entries ≠ .error (.undefined access) := by
  induction entries generalizing i with
  | nil => simp [checkStatus]
  | cons wc rest ih =>
    unfold checkStatus
    split
    next => simp
    next => exact ih (i + 1)

theorem doPoll_undefined {reply : PollReply} {access : String}
    (failed : doPoll reply = .error (.undefined access)) : kMaxPollCq < reply.entries.length := by
  by_contra room
  rw [doPoll, if_neg room] at failed
  cases checked : checkStatus 0 reply.entries with
  | error e =>
    rw [checked] at failed
    obtain rfl := Except.error.inj failed
    exact checkStatus_defined 0 reply.entries access checked
  | ok =>
    rw [checked] at failed
    cases failed

/-! ## Stores -/

theorem storeEntries_fits (entries : List IbvWc) (ret : List RdmaSuccessCqe) (index : Nat)
    (fits : index + entries.length ≤ ret.length) :
    (∀ i ∈ (storeEntries ret index entries).1, (index : Int) ≤ i ∧ i < index + entries.length) ∧
      (storeEntries ret index entries).2 =
        .ok (ret.take index ++ entries.map RdmaSuccessCqe.ofWc ++
          ret.drop (index + entries.length)) := by
  induction entries generalizing ret index with
  | nil => simp [storeEntries]
  | cons wc rest ih =>
    simp only [List.length_cons] at fits
    have later := ih (ret.set index (.ofWc wc)) (index + 1) (by simp; omega)
    have inside : 0 ≤ (index : Int) ∧ (index : Int) < ret.length := by omega
    push_cast at later
    simp only [storeEntries, if_pos inside, Int.toNat_natCast]
    constructor
    · intro i stored
      rcases List.mem_cons.mp stored with rfl | later'
      · simp
      · have := later.1 i later'
        simp only [List.length_cons]
        omega
    · rw [later.2]
      have taken : (ret.set index (.ofWc wc)).take (index + 1) =
          ret.take index ++ [RdmaSuccessCqe.ofWc wc] := by
        rw [List.take_add_one, List.take_set_of_le (by omega)]
        simp [show index < ret.length by omega]
      have dropped : (ret.set index (.ofWc wc)).drop (index + 1 + rest.length) =
          ret.drop (index + (rest.length + 1)) := by
        rw [List.drop_set_of_lt (by omega)]
        congr 1
        omega
      rw [taken, dropped]
      simp

-- The store that finds no room is the one right behind the vector.
theorem storeEntries_over (entries : List IbvWc) (ret : List RdmaSuccessCqe) (index : Nat)
    (start : index ≤ ret.length) (surplus : ret.length < index + entries.length) :
    (ret.length : Int) ∈ (storeEntries ret index entries).1 ∧
      (storeEntries ret index entries).2 = .error (.undefined "store outside of ret") := by
  induction entries generalizing ret index with
  | nil => simp at surplus; omega
  | cons wc rest ih =>
    simp only [List.length_cons] at surplus
    by_cases room : index < ret.length
    · have later := ih (ret.set index (.ofWc wc)) (index + 1) (by simp; omega)
        (by simp; omega)
      have inside : 0 ≤ (index : Int) ∧ (index : Int) < ret.length := by omega
      push_cast at later
      simp only [storeEntries, if_pos inside, Int.toNat_natCast]
      simp only [List.length_set] at later
      exact ⟨List.mem_cons_of_mem _ later.1, later.2⟩
    · have outside : ¬ (0 ≤ (index : Int) ∧ (index : Int) < ret.length) := by omega
      obtain rfl : index = ret.length := by omega
      simp [storeEntries]

theorem storeEntries_ok {entries : List IbvWc} {ret stored : List RdmaSuccessCqe} {index : Nat}
    (start : index ≤ ret.length) (ok : (storeEntries ret index entries).2 = .ok stored) :
    index + entries.length ≤ ret.length := by
  by_contra surplus
  have failed := (storeEntries_over entries ret index start (by omega)).2
  rw [failed] at ok
  cases ok

/-! ## Turns -/

namespace PollFn

variable {δ : Type}

@[simp] theorem tallying_stores (fn : PollFn) (numEntries : Int) (s : Polling δ)
    (reply : PollReply) : (fn.tallying numEntries s reply).1 = (fn.storing s reply).1 := by
  rcases stored : fn.storing s reply with ⟨stores, e | ret⟩
  · simp [tallying, stored]
  · by_cases counts : fn.Counts numEntries (s.tot + reply.ret) <;>
      simp [tallying, stored, counts]

theorem tallying_ok {fn : PollFn} {numEntries : Int} {s : Polling δ} {reply : PollReply}
    {ret : List RdmaSuccessCqe} :
    (fn.tallying numEntries s reply).2 = .ok ret ↔
      (fn.storing s reply).2 = .ok ret ∧ fn.Counts numEntries (s.tot + reply.ret) := by
  rcases stored : fn.storing s reply with ⟨stores, e | other⟩
  · simp [tallying, stored]
  · by_cases counts : fn.Counts numEntries (s.tot + reply.ret) <;>
      simp [tallying, stored, counts]

theorem tallying_error {fn : PollFn} {numEntries : Int} {s : Polling δ} {reply : PollReply}
    {e : Failure} :
    (fn.tallying numEntries s reply).2 = .error e ↔
      (fn.storing s reply).2 = .error e ∨
        (∃ ret, (fn.storing s reply).2 = .ok ret) ∧ ¬ fn.Counts numEntries (s.tot + reply.ret) ∧
          e = .undefined "signed integer overflow" := by
  rcases stored : fn.storing s reply with ⟨stores, failure | other⟩
  · simp [tallying, stored]
  · by_cases counts : fn.Counts numEntries (s.tot + reply.ret) <;>
      simp [tallying, stored, counts, eq_comm]

-- Neither a store nor a count exits the process.
theorem storeEntries_undefined {entries : List IbvWc} {ret : List RdmaSuccessCqe} {index : Int}
    {e : Failure} (failed : (storeEntries ret index entries).2 = .error e) :
    ∃ access, e = .undefined access := by
  induction entries generalizing ret index with
  | nil => cases failed
  | cons wc rest ih =>
    rw [storeEntries] at failed
    split at failed
    next => exact ih failed
    next => exact ⟨_, (Except.error.inj failed).symm⟩

theorem tallying_undefined {fn : PollFn} {numEntries : Int} {s : Polling δ} {reply : PollReply}
    {e : Failure} (failed : (fn.tallying numEntries s reply).2 = .error e) :
    ∃ access, e = .undefined access := by
  rcases tallying_error.mp failed with stored | ⟨-, -, overflow⟩
  · rw [storing] at stored
    split at stored
    next => exact storeEntries_undefined stored
    next => cases stored
  · exact ⟨_, overflow⟩

-- The totals of the non-blocking members are `int`s, and so are those of a blocking one as long as
-- what it wants is one.
theorem counts_of_stopping {fn : PollFn} (stops : fn.stopsShort = true) (numEntries tot : Int) :
    fn.Counts numEntries tot ↔ InInt tot := by
  cases fn <;> simp [stopsShort] at stops <;> simp [Counts, counters]

theorem counts_of_blocking {fn : PollFn} (blocks : fn.stopsShort = false) {n : Nat} (int : n < 2 ^ 31)
    {tot : Int} (most : tot ≤ n) : fn.Counts n tot ↔ n - tot < 2 ^ 31 := by
  cases fn <;> simp [stopsShort] at blocks <;> simp only [Counts, counters, InInt, List.mem_cons,
    List.not_mem_nil, or_false, forall_eq, forall_eq_or_imp] <;> omega

theorem counts_of_within (fn : PollFn) {n : Nat} (int : n < 2 ^ 31) {tot : Int} (least : 0 ≤ tot)
    (most : tot ≤ n) : fn.Counts n tot := by
  cases stops : fn.stopsShort with
  | true =>
    rw [counts_of_stopping stops]
    constructor <;> omega
  | false =>
    rw [counts_of_blocking stops int most]
    omega

/-- All that a turn can do: leave the loop, end the call in `do_poll`, in a store or in a count, or
poll and then stop or go on. -/
theorem turn_holds {fn : PollFn} {driver : CqDriver δ} {n : Int} {s : Polling δ}
    {inv : Polling δ → Prop} {post : Polling δ × Except Failure Unit → Prop}
    (left : fn.more n s.tot = false → post (s, .ok ()))
    (refused : ∀ reply cq e, fn.more n s.tot = true →
      driver.poll s.cq (fn.request n s.tot) = (reply, cq) → doPoll reply = .error e →
      post ({ s with cq, log := s.log ++ [{ request := fn.request n s.tot, reply, stores := [] }] },
        .error e))
    (overrun : ∀ reply cq e, fn.more n s.tot = true →
      driver.poll s.cq (fn.request n s.tot) = (reply, cq) → doPoll reply = .ok reply.ret →
      (fn.tallying n s reply).2 = .error e →
      post ({ s with
        cq, log := s.log ++ [{ request := fn.request n s.tot, reply
                               stores := (fn.tallying n s reply).1 }] }, .error e))
    (polled : ∀ reply cq ret, fn.more n s.tot = true →
      driver.poll s.cq (fn.request n s.tot) = (reply, cq) → doPoll reply = .ok reply.ret →
      (fn.tallying n s reply).2 = .ok ret →
      let next : Polling δ :=
        { cq, tot := s.tot + reply.ret, ret
          log := s.log ++ [{ request := fn.request n s.tot, reply
                             stores := (fn.tallying n s reply).1 }] }
      (fn.stopsShort = true ∧ reply.ret < fn.entriesToPoll n s.tot → post (next, .ok ())) ∧
        (¬ (fn.stopsShort = true ∧ reply.ret < fn.entriesToPoll n s.tot) → inv next)) :
    (fn.turn driver n s).Holds inv post := by
  unfold turn
  split
  next goes =>
    rcases answer : driver.poll s.cq (fn.request n s.tot) with ⟨reply, cq⟩
    simp only [answer]
    split
    next e failed => exact refused reply cq e goes answer failed
    next count accepted =>
      obtain ⟨rfl, -⟩ := doPoll_ok.mp accepted
      split
      next e failed => exact overrun reply cq e goes answer accepted failed
      next ret stored =>
        have after := polled reply cq ret goes answer accepted stored
        split
        next short => exact after.1 short
        next full => exact after.2 full
  next ends => exact left (by simpa using ends)

end PollFn

end Rdmalib2
