import Rdmalib2.Cq.PollBounds
import Mathlib.Algebra.Order.Floor.Div

set_option autoImplicit false

/-!
# When the non-blocking members stop

A turn that goes on has taken a full batch or all that was left, so the number of polls is
bounded by the number of batches, whatever the driver answers. The call is over after them unless
one of the answers leaves it without a behaviour.
-/

namespace Rdmalib2

open Shared

variable {δ : Type} {fn : PollFn}

namespace PollFn

-- The polls so far have each taken a batch, except that the last may have finished the work.
structure Paced (n : Nat) (s : Polling δ) : Prop where
  counted : 0 ≤ s.tot
  batches : (kMaxPollCq : Int) * s.log.length ≤ s.tot ∨ n ≤ s.tot
  polls : s.log.length ≤ n ⌈/⌉ kMaxPollCq

theorem Paced.another {n : Nat} {s : Polling δ} (paced : Paced n s) (more : s.tot < n) :
    (kMaxPollCq : Int) * s.log.length ≤ s.tot ∧ s.log.length + 1 ≤ n ⌈/⌉ kMaxPollCq := by
  have batches := paced.batches.resolve_right (Int.not_le.mpr more)
  refine ⟨batches, ?_⟩
  rw [Nat.ceilDiv_eq_add_pred_div]
  simp only [kMaxPollCq] at batches ⊢
  omega

theorem turn_paced (stops : fn.stopsShort = true) (driver : CqDriver δ) {n : Nat} {s : Polling δ}
    (paced : Paced n s) :
    (fn.turn driver n s).Holds (Paced n) fun ended => ended.1.log.length ≤ n ⌈/⌉ kMaxPollCq := by
  have another : ∀ turn : PollTurn, fn.more n s.tot = true →
      (s.log ++ [turn]).length ≤ n ⌈/⌉ kMaxPollCq := by
    intro turn goes
    rw [List.length_append]
    exact (paced.another ((more_iff stops n s.tot).mp goes)).2
  refine turn_holds (fun _ => paced.polls) ?_ ?_ ?_
  · exact fun _ _ _ goes _ _ => another _ goes
  · exact fun _ _ _ goes _ _ _ => another _ goes
  · intro reply cq ret goes answer accepted stored
    refine ⟨fun _ => another _ goes, fun full => ?_⟩
    have counted := paced.counted
    have more := (more_iff stops n s.tot).mp goes
    have batches := (paced.another more).1
    have batch := entriesToPoll_bounds stops n counted
    have positive : (1 : Int) ≤ kMaxPollCq := by decide
    -- The answer was no shorter than the batch, so it is a full one or takes the total to `n`.
    have taken : fn.entriesToPoll n s.tot ≤ reply.ret := by simpa [stops] using full
    refine ⟨?_, ?_, another _ goes⟩
    · change 0 ≤ s.tot + reply.ret
      omega
    · by_cases last : (n : Int) - s.tot ≤ kMaxPollCq
      · refine .inr ?_
        change (n : Int) ≤ s.tot + reply.ret
        omega
      · refine .inl ?_
        simp only [List.length_append, List.length_singleton, Nat.cast_add, Nat.cast_one, mul_add,
          mul_one]
        omega

theorem loop_paced (stops : fn.stopsShort = true) (driver : CqDriver δ) (n fuel : Nat) (cq : δ) :
    (iterate (fn.turn driver n) fuel (fn.start n cq)).Holds (Paced n)
      fun ended => ended.1.log.length ≤ n ⌈/⌉ kMaxPollCq :=
  iterate_holds _ _ _ (fun _ paced => turn_paced stops driver paced) fuel
    ⟨le_rfl, .inl (by simp [start]), Nat.zero_le _⟩

/-! ## Answers without a behaviour -/

/-- An answer, after `counted` entries and with `left` still wanted, that cannot be dealt with: more
entries than the buffer holds, a total that no `int` holds, or stores behind the vector. -/
def Breaks (fn : PollFn) (counted left : Int) (reply : PollReply) : Prop :=
  match fn with
  | .tryPoll =>
      kMaxPollCq < reply.entries.length ∨
        2 ^ 31 ≤ counted + reply.entries.length ∧ Successful reply.entries
  | .tryPollWithWc => CqDriver.Over left reply
  | .poll | .pollWithWc => False

/-- After full batches only, an answer cannot be dealt with while some of the `n` are still
wanted. -/
def Broken (fn : PollFn) (driver : CqDriver δ) (n : Nat) (cq : δ) : Prop :=
  ∃ j, (∀ i < j, CqDriver.Full (driver.answer (fn.request n 0) cq i)) ∧ kMaxPollCq * j < n ∧
    fn.Breaks (kMaxPollCq * j) (n - kMaxPollCq * j) (driver.answer (fn.request n 0) cq j)

-- After full batches only, a negative answer comes while some of the `n` are still wanted.
def FailsAt (fn : PollFn) (driver : CqDriver δ) (n : Nat) (cq : δ) (j : Nat)
    (code : Fin (2 ^ 31)) : Prop :=
  (∀ i < j, CqDriver.Full (driver.answer (fn.request n 0) cq i)) ∧ kMaxPollCq * j < n ∧
    driver.answer (fn.request n 0) cq j = .failed code

structure Tallied (fn : PollFn) (driver : CqDriver δ) (n : Nat) (cq : δ) (s : Polling δ) : Prop where
  accounted : Accounted fn n s
  reached : s.tot < n → ∃ j, s.cq = driver.after (fn.request n 0) cq j ∧
    s.tot = kMaxPollCq * j ∧ ∀ i < j, CqDriver.Full (driver.answer (fn.request n 0) cq i)

/-- The total is what was taken, unless a negative answer was added to it. -/
structure EndsTallied (fn : PollFn) (driver : CqDriver δ) (n : Nat) (cq : δ)
    (ended : Polling δ × Except Failure Unit) : Prop where
  defined : ∀ access, ended.2 ≠ .error (.undefined access)
  tallied : ended.2 = .ok () → Accounted fn n ended.1 ∨
    ∃ j code, fn.FailsAt driver n cq j code ∧ ended.1.tot = kMaxPollCq * j - (code + 1)

variable {driver : CqDriver δ} {n : Nat} {cq : δ} {s : Polling δ}

-- Whatever the answer is, it can be copied and counted if nothing is broken by it.
theorem tallying_of_not_breaks (stops : fn.stopsShort = true) (int : n < 2 ^ 31)
    (accounted : Accounted fn n s) (left : s.tot < n) {reply : PollReply}
    (accepted : doPoll reply = .ok reply.ret) (spared : ¬ fn.Breaks s.tot (n - s.tot) reply) :
    ∃ ret, (fn.tallying n s reply).2 = .ok ret := by
  have counted := accounted.tot
  have good := (doPoll_ok.mp accepted).2.2
  have stored : ∃ ret, (fn.storing s reply).2 = .ok ret := by
    by_cases stores : fn.stores = true
    · refine (accounted.storing ?_).2
      by_contra more
      cases fn <;> simp [stopsShort, PollFn.stores] at stops stores
      exact spared (.inr ⟨by omega, good⟩)
    · rw [storing, if_neg stores]
      exact ⟨s.ret, rfl⟩
  obtain ⟨ret, stored⟩ := stored
  refine ⟨ret, tallying_ok.mpr ⟨stored, (counts_of_stopping stops n _).mpr ?_⟩⟩
  cases reply with
  | failed code =>
    have lowest := code.isLt
    constructor <;> simp only [PollReply.ret] <;> omega
  | completed entries =>
    have least : (0 : Int) ≤ s.tot + (PollReply.completed entries).ret := by
      simp only [PollReply.ret]
      omega
    refine ⟨by omega, ?_⟩
    by_contra large
    cases fn <;> simp [stopsShort] at stops
    · exact spared (.inr ⟨Int.not_lt.mp large, good⟩)
    · refine spared (.inr ⟨?_, good⟩)
      simp only [PollReply.ret, PollReply.entries] at large ⊢
      omega

theorem tallied_turn (stops : fn.stopsShort = true) (int : n < 2 ^ 31)
    (spared : ¬ fn.Broken driver n cq) (tallied : Tallied fn driver n cq s) :
    (fn.turn driver n s).Holds (Tallied fn driver n cq) (EndsTallied fn driver n cq) := by
  have counted : 0 ≤ s.tot := by
    rw [tallied.accounted.tot]
    omega
  have sound : ∀ reply mid, fn.more n s.tot = true →
      driver.poll s.cq (fn.request n s.tot) = (reply, mid) →
      ¬ fn.Breaks s.tot (n - s.tot) reply := by
    intro reply mid goes answer breaks
    rw [more_iff stops] at goes
    obtain ⟨j, same, tot, full⟩ := tallied.reached goes
    refine spared ⟨j, full, by omega, ?_⟩
    rw [request_eq stops, same] at answer
    rw [← tot, CqDriver.answer, answer]
    exact breaks
  refine turn_holds ?_ ?_ ?_ ?_
  · exact fun ends => ⟨by simp, fun _ => .inl tallied.accounted⟩
  · intro reply mid e goes answer refused
    refine ⟨fun access same => ?_, by simp⟩
    obtain rfl := Except.error.inj same
    have beyond := doPoll_undefined refused
    refine sound reply mid goes answer ?_
    cases fn <;> simp [stopsShort] at stops
    · exact .inl beyond
    · exact .inl beyond
  · intro reply mid e goes answer accepted failed
    have less := (more_iff stops n s.tot).mp goes
    obtain ⟨ret, tallying⟩ := tallying_of_not_breaks stops int tallied.accounted less accepted
      (sound reply mid goes answer)
    rw [tallying] at failed
    cases failed
  · intro reply mid ret goes answer accepted stored
    have batch := entriesToPoll_bounds stops n counted
    have positive : (1 : Int) ≤ kMaxPollCq := by decide
    have less := (more_iff stops n s.tot).mp goes
    obtain ⟨j, same, tot, full⟩ := tallied.reached less
    rw [request_eq stops, same] at answer
    cases reply with
    | failed code =>
      refine ⟨fun _ => ⟨by simp, fun _ => .inr ⟨j, code, ⟨full, by omega, ?_⟩, ?_⟩⟩,
        fun long => ?_⟩
      · rw [CqDriver.answer, answer]
      · simp only [PollReply.ret, tot]
        omega
      · refine absurd ⟨stops, ?_⟩ long
        simp only [PollReply.ret]
        omega
    | completed entries =>
      have length : (PollReply.completed entries).ret = entries.length := rfl
      refine ⟨fun _ => ⟨by simp, fun _ => .inl (tallied.accounted.polled length accepted stored)⟩,
        fun long => ⟨tallied.accounted.polled length accepted stored, fun below => ?_⟩⟩
      -- A batch that is neither short nor the last one is full.
      have good := doPoll_ok.mp accepted
      have count : entries.length = kMaxPollCq := by
        have most : entries.length ≤ kMaxPollCq := good.2.1
        simp only [stops, true_and, length] at long below
        omega
      exact CqDriver.Full.succ full tot answer ⟨count, good.2.2⟩

/-- A non-blocking call whose answers can all be dealt with ends with what it has taken, or after a
negative answer. -/
theorem try_ends_tallied (stops : fn.stopsShort = true) (int : n < 2 ^ 31)
    (spared : ¬ fn.Broken driver n cq) (fuel : Nat) :
    ∃ ended, iterate (fn.turn driver n) (fn.turns fuel n) (fn.start n cq) = .done ended ∧
      EndsTallied fn driver n cq ended := by
  have start : Tallied fn driver n cq (fn.start n cq) :=
    ⟨accounted_start fn n cq, fun _ => ⟨0, rfl, rfl, by simp⟩⟩
  have holds := iterate_holds _ _ _ (fun _ tallied => tallied_turn stops int spared tallied)
    (fn.turns fuel n) start
  have ends : ∃ ended, iterate (fn.turn driver n) (fn.turns fuel n) (fn.start n cq) = .done ended :=
    try_ends stops fuel
  obtain ⟨ended, reached⟩ := ends
  rw [reached] at holds
  exact ⟨ended, reached, holds⟩

theorem breaking_turn (stops : fn.stopsShort = true) (int : n < 2 ^ 31)
    (accounted : Accounted fn n s) (left : s.tot < n)
    (breaks : fn.Breaks s.tot (n - s.tot) (driver.poll s.cq (fn.request n s.tot)).1) :
    ∃ last access, fn.turn driver n s = .done (last, .error (.undefined access)) := by
  have goes := (more_iff stops n s.tot).mpr left
  cases fn with
  | poll | pollWithWc => cases stops
  | tryPoll =>
    rcases answer : driver.poll s.cq (PollFn.request .tryPoll n s.tot) with ⟨reply, mid⟩
    rw [answer] at breaks
    change PollFn.Breaks .tryPoll s.tot (n - s.tot) reply at breaks
    by_cases beyond : kMaxPollCq < reply.entries.length
    · simp only [turn, goes, if_true, answer, doPoll_overrun beyond]
      exact ⟨_, _, rfl⟩
    · obtain ⟨large, good⟩ := breaks.resolve_left beyond
      have accepted : doPoll reply = .ok reply.ret := doPoll_ok.mpr ⟨rfl, by omega, good⟩
      have counted : reply.ret = reply.entries.length :=
        CqDriver.ret_of_entries (List.ne_nil_of_length_pos (by omega))
      have overflows : ¬ PollFn.Counts .tryPoll n (s.tot + reply.ret) := by
        rw [counts_of_stopping rfl]
        rintro ⟨-, most⟩
        omega
      have plain : PollFn.storing .tryPoll s reply = ([], .ok s.ret) := rfl
      simp only [turn, goes, if_true, answer, accepted, tallying, plain, if_neg overflows]
      exact ⟨_, _, rfl⟩
  | tryPollWithWc =>
    have overrun := over_turn stops accounted left breaks
    cases taken : PollFn.turn .tryPollWithWc driver n s with
    | again next =>
      rw [taken] at overrun
      cases overrun.1
    | done ended =>
      rw [taken] at overrun
      rcases overrun with ⟨plain, -⟩ | ⟨access, failed, -⟩
      · cases plain
      · exact ⟨ended.1, access, by rw [← failed]⟩

theorem broken_ends (stops : fn.stopsShort = true) (int : n < 2 ^ 31)
    (broken : fn.Broken driver n cq) (fuel : Nat) :
    ∃ last access, iterate (fn.turn driver n) (fn.turns fuel n) (fn.start n cq) =
      .done (last, .error (.undefined access)) := by
  obtain ⟨j, full, left, breaks⟩ := broken
  obtain ⟨s, reached, accounted, same, tot⟩ := full_turns stops int full left
  have positive : j ≤ kMaxPollCq * j := Nat.le_mul_of_pos_left j (by decide)
  obtain ⟨rest, enough⟩ : ∃ rest, n + 1 = j + (rest + 1) := ⟨n - j, by omega⟩
  obtain ⟨last, access, turned⟩ := breaking_turn stops int accounted (by omega) (by
    rw [request_eq stops, same, tot]
    exact breaks)
  refine ⟨last, access, ?_⟩
  rw [turns, if_pos stops, Int.toNat_natCast, enough, iterate_add _ j _ reached,
    iterate_done _ _ turned]

end PollFn

/-! ## Stopping -/

-- The call has returned or ended the process; where its behaviour is undefined it need not stop.
def Polled.Stopped (polled : Polled δ) : Prop :=
  match polled.result with
  | none | some (.error (.undefined _)) => False
  | some _ => True

namespace PollFn

/-- The call stops, and has polled at most once for every batch. -/
def StopsInTime (fn : PollFn) (driver : CqDriver δ) (n : Nat) (cq : δ) : Prop :=
  ∀ fuel, (fn.call driver fuel n cq).Stopped ∧
    (fn.call driver fuel n cq).log.length ≤ n ⌈/⌉ kMaxPollCq

theorem stopsInTime_iff (stops : fn.stopsShort = true) (driver : CqDriver δ) {n : Nat}
    (int : n < 2 ^ 31) (cq : δ) : fn.StopsInTime driver n cq ↔ ¬ fn.Broken driver n cq := by
  constructor
  · intro inTime broken
    obtain ⟨last, access, reached⟩ := broken_ends stops int broken 0
    have stopped := (inTime 0).1
    rw [call_eq, reached] at stopped
    exact stopped
  · intro spared fuel
    rw [call_eq]
    constructor
    · obtain ⟨⟨s, e | ⟨⟩⟩, reached, tallied⟩ := try_ends_tallied stops int spared fuel
      · rw [reached]
        cases e with
        | undefined access => exact absurd rfl (tallied.defined access)
        | panic | panicWithErrno | uncaught => exact trivial
      · rw [reached]
        cases fn with
        | poll | pollWithWc => cases stops
        | tryPoll => exact trivial
        | tryPollWithWc =>
          change Polled.Stopped { cq := s.cq, log := s.log, result := some (finish .tryPollWithWc s) }
          rw [finish]
          split <;> exact trivial
    · exact ended_log fn (p := fun log => log.length ≤ n ⌈/⌉ kMaxPollCq)
        ((loop_paced stops driver n _ cq).imp (fun _ paced => paced.polls) fun _ polls => polls)

end PollFn

/-- The non-blocking members stop after at most one poll for every batch, on a driver that answers
with errors, with nothing or always in full, exactly when no answer breaks them. -/
theorem try_polls_stop_iff {δ : Type} (driver : CqDriver δ) (n : NumEntries) (cq : δ) :
    (PollFn.StopsInTime .tryPoll driver n cq ↔ ¬ PollFn.Broken .tryPoll driver n cq) ∧
      (PollFn.StopsInTime .tryPollWithWc driver n cq ↔
        ¬ PollFn.Broken .tryPollWithWc driver n cq) :=
  ⟨PollFn.stopsInTime_iff rfl driver n.isLt cq, PollFn.stopsInTime_iff rfl driver n.isLt cq⟩

-- Every poll is answered in full: 33 entries for a buffer of 32, or 32 for a vector with one place
-- left.
def generous : CqDriver Unit where
  poll _ k := (.completed (List.replicate k.toNat
    { wrId := 0, opcode := 128, byteLen := 8, immData := 0 }), ())
  within _ k := by simp [PollReply.entries]

theorem generous_polls_break :
    ¬ PollFn.StopsInTime .tryPoll generous 33 () ∧
      ¬ PollFn.StopsInTime .tryPollWithWc generous 33 () := by
  constructor
  · intro inTime
    exact (inTime 0).1
  · intro inTime
    exact (inTime 0).1

end Rdmalib2
