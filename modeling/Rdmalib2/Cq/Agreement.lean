import Rdmalib2.Cq.Taking

set_option autoImplicit false

/-!
# The two non-blocking members side by side

One asks for all of `n` in every poll, the other for the same batch in every poll. They ask
alike exactly while one batch is all there is.
-/

namespace Rdmalib2

open Shared

-- A count and a vector of that length, or the same failure.
def ResultsAgree : Option (Except Failure PollReturn) → Option (Except Failure PollReturn) → Prop
  | some (.ok (.count tot)), some (.ok (.cqes ret)) => tot = ret.length
  | some (.error e), some (.error other) => e = other
  | _, _ => False

/-- The same result, after the same requests and with the same queue. -/
structure Agree {δ : Type} (counting collecting : Polled δ) : Prop where
  result : ResultsAgree counting.result collecting.result
  requests : requests counting.log = requests collecting.log
  cq : counting.cq = collecting.cq

namespace PollFn

variable {δ : Type} {fn : PollFn} {driver : CqDriver δ} {n : Nat} {cq : δ}

theorem request_of_small (fn : PollFn) (stops : fn.stopsShort = true) (small : n ≤ kMaxPollCq) :
    fn.request n 0 = n ∧ fn.entriesToPoll n 0 = n := by
  have batch : min (n : Int) kMaxPollCq = n := by omega
  cases fn <;> simp [stopsShort] at stops <;> simp [request, entriesToPoll, batch]

-- A call for at most one buffer polls once.
theorem try_once (fn : PollFn) (stops : fn.stopsShort = true) (steady : driver.Steady) (wanted : 0 < n)
    (small : n ≤ kMaxPollCq) {reply : PollReply} {mid : δ}
    (answer : driver.poll cq n = (reply, mid)) :
    ∃ s, iterate (fn.turn driver n) (n + 1) (fn.start n cq) =
        .done (s, (doPoll reply).map fun _ => ()) ∧
      s.cq = mid ∧ requests s.log = [(n : Int)] ∧
      ((doPoll reply).isOk = true → s.tot = reply.ret ∧ Accounted fn n s) := by
  have asks := request_of_small fn stops small
  have goes : fn.more n (fn.start n cq).tot = true :=
    (more_iff stops n _).mpr (by change (0 : Int) < n; omega)
  have filled := driver.within cq n
  simp only [answer] at filled
  cases accepted : doPoll reply with
  | error e =>
    have taken : fn.turn driver n (fn.start n cq) = .done ({ fn.start n cq with
        cq := mid, log := [{ request := n, reply, stores := [] }] }, .error e) := by
      simp only [turn, goes, if_true]
      simp only [start, asks.1, answer, accepted, List.nil_append]
    exact ⟨_, iterate_done _ _ taken, rfl, rfl, by simp [Except.isOk, Except.toBool]⟩
  | ok count =>
    obtain ⟨rfl, -, -⟩ := doPoll_ok.mp accepted
    have length := steady.ret_of_answer answer
    have room : (fn.start n cq).tot + reply.entries.length ≤ n := by
      change (0 : Int) + _ ≤ _
      omega
    have int : n < 2 ^ 31 := lt_of_le_of_lt small (by decide)
    obtain ⟨ret, stored⟩ := ((accounted_start fn n cq).tallying int length room).2
    have turned : fn.turn driver n (fn.start n cq) =
        if reply.ret < n then
          .done ({ cq := mid, tot := (fn.start n cq).tot + reply.ret, ret
                   log := (fn.start n cq).log ++
                    [{ request := n, reply, stores := (fn.tallying n (fn.start n cq) reply).1 }] },
            .ok ())
        else
          .again { cq := mid, tot := (fn.start n cq).tot + reply.ret, ret
                   log := (fn.start n cq).log ++
                    [{ request := n, reply, stores := (fn.tallying n (fn.start n cq) reply).1 }] } := by
      have start : fn.request n (fn.start n cq).tot = n ∧ fn.entriesToPoll n (fn.start n cq).tot = n :=
        asks
      have asked : driver.poll (fn.start n cq).cq n = (reply, mid) := answer
      simp only [turn, goes, if_true, start.1, asked, accepted, stored, stops, true_and, start.2]
    have accounted : Accounted fn n
        { cq := mid, tot := (fn.start n cq).tot + reply.ret, ret
          log := (fn.start n cq).log ++
            [{ request := n, reply, stores := (fn.tallying n (fn.start n cq) reply).1 }] } :=
      (accounted_start fn n cq).polled length accepted stored
    have total : (fn.start n cq).tot + reply.ret = reply.ret := Int.zero_add _
    by_cases short : reply.ret < n
    · rw [if_pos short] at turned
      exact ⟨_, iterate_done _ _ turned, rfl, rfl, fun _ => ⟨total, accounted⟩⟩
    · rw [if_neg short] at turned
      refine ⟨_, ?_, rfl, rfl, fun _ => ⟨total, accounted⟩⟩
      obtain ⟨fuel, rfl⟩ : ∃ fuel, n = fuel + 1 := ⟨n - 1, by omega⟩
      rw [iterate_again _ _ turned]
      refine iterate_done _ _ ?_
      rw [turn, if_neg]
      · rfl
      · rw [more_iff stops]
        simp only [total]
        exact short

-- The poll asks for the same number in every turn.
def AsksAlike (fn : PollFn) (n : Nat) (log : List PollTurn) : Prop :=
  ∀ turn ∈ log, turn.request = fn.request n 0

theorem AsksAlike.append (stops : fn.stopsShort = true) {log : List PollTurn}
    (asks : fn.AsksAlike n log) (tot : Int) (reply : PollReply) (stores : List Int) :
    fn.AsksAlike n (log ++ [{ request := fn.request n tot, reply, stores }]) := by
  intro turn logged
  rcases List.mem_append.mp logged with before | here
  · exact asks turn before
  · obtain rfl := List.mem_singleton.mp here
    exact request_eq stops n tot

theorem try_requests (stops : fn.stopsShort = true) (fuel : Nat) :
    fn.AsksAlike n (fn.call driver fuel n cq).log := by
  rw [call_eq]
  refine ended_log fn (iterate_holds (fn.turn driver n) (fun s => fn.AsksAlike n s.log)
    (fun ended => fn.AsksAlike n ended.1.log) (fun s asks => ?_) _ (by simp [AsksAlike, start]))
  have last := fun tot reply stores => AsksAlike.append stops asks tot reply stores
  refine turn_holds (fun _ => asks) ?_ ?_ ?_
  · exact fun _ _ _ _ _ _ => last _ _ _
  · exact fun _ _ _ _ _ _ _ => last _ _ _
  · exact fun _ _ _ _ _ _ _ => ⟨fun _ => last _ _ _, fun _ => last _ _ _⟩

theorem agree_of_small (steady : driver.Steady) (small : n ≤ kMaxPollCq) (fuel fuel' : Nat) :
    Agree (call .tryPoll driver fuel n cq) (call .tryPollWithWc driver fuel' n cq) := by
  have turns (fn : PollFn) (stops : fn.stopsShort = true) (fuel : Nat) : fn.turns fuel n = n + 1 := by
    rw [PollFn.turns, if_pos stops, Int.toNat_natCast]
  rw [call_eq, call_eq, turns .tryPoll rfl, turns .tryPollWithWc rfl]
  rcases Nat.eq_zero_or_pos n with rfl | wanted
  · exact ⟨rfl, rfl, rfl⟩
  rcases answer : driver.poll cq n with ⟨reply, mid⟩
  obtain ⟨s, counting, counted, asks, counts⟩ :=
    try_once .tryPoll rfl steady wanted small answer
  obtain ⟨s', collecting, collected, asks', collects⟩ :=
    try_once .tryPollWithWc rfl steady wanted small answer
  rw [counting, collecting]
  cases accepted : doPoll reply with
  | error e => exact ⟨rfl, asks.trans asks'.symm, counted.trans collected.symm⟩
  | ok count =>
    rw [accepted] at counts collects
    obtain ⟨total, -⟩ := counts rfl
    obtain ⟨total', accounted⟩ := collects rfl
    obtain ⟨ret, finished, reported, images⟩ :=
      finish_accounted (n := n) accounted (by simp [stopsShort])
    refine ⟨?_, asks.trans asks'.symm, counted.trans collected.symm⟩
    change ResultsAgree (some (.ok (.count s.tot))) (some (PollFn.finish .tryPollWithWc s'))
    rw [finished]
    cases ret with
    | cqes ret =>
      rw [total, ← total', accounted.tot]
      exact reported.symm
    | done =>
      rw [PollFn.finish] at finished
      split at finished <;> cases finished
    | count tot =>
      rw [PollFn.finish] at finished
      split at finished <;> cases finished

end PollFn

/-- On any queue and schedule of arrivals, the two non-blocking members agree exactly on calls
for at most one buffer. -/
theorem try_polls_agree_iff (schedule : Nat → List IbvWc × Nat) (cq : Fifo) (n fuel fuel' : Nat) :
    Agree (PollFn.call .tryPoll (Fifo.driver schedule) fuel n cq)
        (PollFn.call .tryPollWithWc (Fifo.driver schedule) fuel' n cq) ↔ n ≤ kMaxPollCq := by
  refine ⟨fun agree => ?_, fun small =>
    PollFn.agree_of_small (Fifo.driver_steady schedule) small fuel fuel'⟩
  by_contra large
  obtain ⟨turn, logged, asks⟩ := PollFn.call_logs .tryPoll (Fifo.driver schedule) (n := n) fuel cq
    rfl (by omega)
  have asked : turn.request ∈ requests (PollFn.call .tryPoll (Fifo.driver schedule) fuel n cq).log :=
    List.mem_map_of_mem logged
  rw [agree.requests] at asked
  obtain ⟨other, found, same⟩ := List.mem_map.mp asked
  have batch := PollFn.try_requests rfl fuel' other found
  rw [same, asks] at batch
  simp only [PollFn.request, PollFn.entriesToPoll] at batch
  omega

theorem try_forty_disagrees :
    ¬ Agree (PollFn.call .tryPoll (Fifo.driver halves) 0 (40 : Nat) backlog)
      (PollFn.call .tryPollWithWc (Fifo.driver halves) 0 (40 : Nat) backlog) := by
  rintro ⟨-, asks, -⟩
  exact absurd asks (by decide)

end Rdmalib2
