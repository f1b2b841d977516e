import Rdmalib2.Cq.Completions

set_option autoImplicit false

/-!
# What the blocking members take

Both blocking members ask for what is left, at most a buffer of it, so the answers they get
depend on the driver alone.
-/

namespace Rdmalib2

open Shared

/-- The answers to a caller that wants `left` more entries and counts every answer, a negative
number too, until nothing is left. -/
inductive Heard {δ : Type} (driver : CqDriver δ) : δ → Int → List PollReply → δ → Int → Prop
  | none (cq : δ) (left : Int) : Heard driver cq left [] cq left
  | next {cq mid last : δ} {left rest : Int} {reply : PollReply} {replies : List PollReply}
      (wanted : left ≠ 0) (answer : driver.poll cq (min left kMaxPollCq) = (reply, mid))
      (later : Heard driver mid (left - reply.ret) replies last rest) :
      Heard driver cq left (reply :: replies) last rest

def asked (left : Int) : List PollReply → List Int
  | [] => []
  | reply :: replies => min left kMaxPollCq :: asked (left - reply.ret) replies

def requests (log : List PollTurn) : List Int := log.map (·.request)

@[simp] theorem requests_append (log : List PollTurn) (turn : PollTurn) :
    requests (log ++ [turn]) = requests log ++ [turn.request] := by
  simp [requests]

def StoresWithin (n : Nat) (log : List PollTurn) : Prop :=
  ∀ turn ∈ log, ∀ index ∈ turn.stores, 0 ≤ index ∧ index < n

theorem PollReply.ret_le (reply : PollReply) : reply.ret ≤ reply.entries.length := by
  cases reply with
  | completed entries => exact le_rfl
  | failed code =>
    simp only [ret, entries, List.length_nil]
    omega

namespace PollFn

variable {δ : Type} {fn : PollFn} {driver : CqDriver δ} {n : Nat} {s : Polling δ}

theorem blocking_request (blocks : fn.stopsShort = false) (numEntries tot : Int) :
    fn.request numEntries tot = min (numEntries - tot) kMaxPollCq := by
  cases fn <;> simp [stopsShort] at blocks <;> rfl

-- A total past the end would be a loop of `poll` that never ends.
theorem blocking_more (blocks : fn.stopsShort = false) (most : s.tot ≤ n) :
    fn.more n s.tot = true ↔ (n : Int) - s.tot ≠ 0 := by
  cases fn <;> simp [stopsShort] at blocks <;> simp [more]
  omega

theorem blocking_fits (most : s.tot ≤ n) {reply : PollReply} {mid : δ}
    (answer : driver.poll s.cq (min (n - s.tot) kMaxPollCq) = (reply, mid)) :
    reply.entries.length ≤ kMaxPollCq ∧ s.tot + reply.entries.length ≤ n := by
  have filled := driver.within s.cq (min (n - s.tot) kMaxPollCq)
  rw [answer] at filled
  simp only at filled
  omega

theorem blocking_turn_again (blocks : fn.stopsShort = false) (most : s.tot ≤ n)
    (wanted : (n : Int) - s.tot ≠ 0) {reply : PollReply} {mid : δ} {ret : List RdmaSuccessCqe}
    (answer : driver.poll s.cq (min (n - s.tot) kMaxPollCq) = (reply, mid))
    (success : Successful reply.entries) (tallied : (fn.tallying n s reply).2 = .ok ret) :
    fn.turn driver n s = .again
      { cq := mid, tot := s.tot + reply.ret, ret
        log := s.log ++ [{ request := min (n - s.tot) kMaxPollCq, reply
                           stores := (fn.tallying n s reply).1 }] } := by
  have goes := (blocking_more blocks most).mpr wanted
  have accepted : doPoll reply = .ok reply.ret :=
    doPoll_ok.mpr ⟨rfl, (blocking_fits most answer).1, success⟩
  simp only [turn, goes, if_true, blocking_request blocks, answer, accepted, tallied, blocks,
    Bool.false_eq_true, false_and, if_false]

theorem blocking_turn_failed (blocks : fn.stopsShort = false) (most : s.tot ≤ n)
    (wanted : (n : Int) - s.tot ≠ 0) {reply : PollReply} {mid : δ} {e : Failure}
    (answer : driver.poll s.cq (min (n - s.tot) kMaxPollCq) = (reply, mid))
    (success : Successful reply.entries) (failed : (fn.tallying n s reply).2 = .error e) :
    ∃ last, fn.turn driver n s = .done (last, .error e) := by
  have goes := (blocking_more blocks most).mpr wanted
  have accepted : doPoll reply = .ok reply.ret :=
    doPoll_ok.mpr ⟨rfl, (blocking_fits most answer).1, success⟩
  simp only [turn, goes, if_true, blocking_request blocks, answer, accepted, failed]
  exact ⟨_, rfl⟩

theorem blocking_turn_done (blocks : fn.stopsShort = false) (whole : s.tot = n) :
    fn.turn driver n s = .done (s, .ok ()) := by
  have ends : ¬ fn.more n s.tot = true := by
    rw [blocking_more blocks whole.le, whole]
    simp
  rw [turn, if_neg ends]

theorem storing_negative (stores : fn.stores = true) (negative : s.tot < 0) {reply : PollReply}
    (some : reply.entries ≠ []) :
    fn.storing s reply = ([s.tot], .error (.undefined "store outside of ret")) := by
  obtain ⟨wc, rest, entries⟩ := List.exists_cons_of_ne_nil some
  rw [storing, if_pos stores, entries, storeEntries, if_neg (by omega)]

-- The copies are in place, unless the total is negative.
theorem blocking_storing (most : s.tot ≤ n) (size : fn.stores = true → s.ret.length = n)
    {reply : PollReply} (fits : s.tot + reply.entries.length ≤ n) :
    (∃ ret, (fn.storing s reply).2 = .ok ret ∧ (fn.stores = true → ret.length = n) ∧
        ∀ index ∈ (fn.storing s reply).1, 0 ≤ index ∧ index < n) ∨
      fn.stores = true ∧ s.tot < 0 ∧ reply.entries ≠ [] ∧
        fn.storing s reply = ([s.tot], .error (.undefined "store outside of ret")) := by
  by_cases stores : fn.stores = true
  · have length := size stores
    by_cases negative : s.tot < 0
    · by_cases empty : reply.entries = []
      · rw [storing, if_pos stores, empty]
        exact .inl ⟨s.ret, rfl, size, by simp [storeEntries]⟩
      · exact .inr ⟨stores, negative, empty, storing_negative stores negative empty⟩
    · rw [storing, if_pos stores]
      obtain ⟨index, same⟩ := Int.eq_ofNat_of_zero_le (Int.not_lt.mp negative)
      rw [same] at fits ⊢
      have stored := storeEntries_fits reply.entries s.ret index (by omega)
      refine .inl ⟨_, stored.2, fun _ => ?_, fun place listed => ?_⟩
      · simp
        omega
      · have := stored.1 place listed
        omega
  · rw [storing, if_neg stores]
    exact .inl ⟨s.ret, rfl, size, by simp⟩

/-- What a turn makes of its answer: it stores and counts it, unless the total is negative where
there is something to store, or what is then wanted is more than an `int` holds. -/
theorem blocking_tallying (blocks : fn.stopsShort = false) (int : n < 2 ^ 31) (most : s.tot ≤ n)
    (size : fn.stores = true → s.ret.length = n) {reply : PollReply}
    (fits : s.tot + reply.entries.length ≤ n) :
    (∃ ret, (fn.tallying n s reply).2 = .ok ret ∧ (fn.stores = true → ret.length = n) ∧
        (∀ index ∈ (fn.tallying n s reply).1, 0 ≤ index ∧ index < n) ∧
        n - (s.tot + reply.ret) < 2 ^ 31) ∨
      (fn.stores = true ∧ s.tot < 0 ∧ reply.entries ≠ [] ∨ 2 ^ 31 ≤ n - (s.tot + reply.ret)) ∧
        ∃ access, (fn.tallying n s reply).2 = .error (.undefined access) := by
  have bound := reply.ret_le
  rcases blocking_storing most size fits with
    ⟨ret, stored, length, places⟩ | ⟨stores, negative, some, failed⟩
  · have kept : s.tot + reply.ret ≤ n := by omega
    have counts := counts_of_blocking blocks int kept
    by_cases small : n - (s.tot + reply.ret) < 2 ^ 31
    · rw [tallying_stores]
      exact .inl ⟨ret, tallying_ok.mpr ⟨stored, counts.mpr small⟩, length, places, small⟩
    · exact .inr ⟨.inr (by omega), _,
        tallying_error.mpr (.inr ⟨⟨ret, stored⟩, mt counts.mp small, rfl⟩)⟩
  · exact .inr ⟨.inl ⟨stores, negative, some⟩, _, tallying_error.mpr (.inl (by rw [failed]))⟩

-- Nothing undefined happens, however often the loop has turned.
def StaysDefined (fn : PollFn) (driver : CqDriver δ) (n : Nat) (s : Polling δ) : Prop :=
  ∀ fuel, (iterate (fn.turn driver n) fuel s).Holds (fun _ => True)
    fun ended => ∀ access, ended.2 ≠ .error (.undefined access)

/-- A loop that stays defined takes the answers one after the other. -/
theorem blocking_hears (blocks : fn.stopsShort = false) (int : n < 2 ^ 31) {cq last : δ}
    {left rest : Int} {replies : List PollReply} (heard : Heard driver cq left replies last rest)
    (successful : ∀ reply ∈ replies, Successful reply.entries)
    (same : s.cq = cq) (remains : (n : Int) - s.tot = left) (most : s.tot ≤ n)
    (small : left < 2 ^ 31) (size : fn.stores = true → s.ret.length = n)
    (stays : fn.StaysDefined driver n s) :
    ∃ next, iterate (fn.turn driver n) replies.length s = .again next ∧ next.cq = last ∧
      (n : Int) - next.tot = rest ∧ next.tot ≤ n ∧ rest < 2 ^ 31 ∧
      (fn.stores = true → next.ret.length = n) ∧
      taken next.log = taken s.log ++ replies.flatMap PollReply.entries ∧
      requests next.log = requests s.log ++ asked left replies := by
  induction heard generalizing s with
  | none cq left => exact ⟨s, rfl, same, remains, most, small, size, by simp, by simp [asked]⟩
  | @next cq mid last left rest reply replies wanted answer later ih =>
    obtain ⟨success, successes⟩ := List.forall_mem_cons.mp successful
    subst same remains
    have fits := blocking_fits most answer
    rcases blocking_tallying blocks int most size fits.2 with
      ⟨ret, tallied, length, -, still⟩ | ⟨-, access, failed⟩
    · have turned := blocking_turn_again blocks most wanted answer success tallied
      have bound : s.tot + reply.ret ≤ n := by
        have := reply.ret_le
        omega
      obtain ⟨next, reached, cq, tot, below, few, sized, entries, asks⟩ := ih successes
        (s := { cq := mid, tot := s.tot + reply.ret, ret
                log := s.log ++ [{ request := min (n - s.tot) kMaxPollCq, reply
                                   stores := (fn.tallying n s reply).1 }] })
        rfl (by simp only; omega) bound (by omega) length (fun fuel => by
          have further := stays (fuel + 1)
          rwa [iterate_again _ _ turned] at further)
      refine ⟨next, ?_, cq, tot, below, few, sized, ?_, ?_⟩
      · rw [List.length_cons, iterate_again _ _ turned, reached]
      · rw [entries]
        simp
      · rw [asks]
        simp [asked]
    · have once := stays 1
      obtain ⟨last, turned⟩ := blocking_turn_failed blocks most wanted answer success failed
      rw [iterate_done _ _ turned] at once
      exact absurd rfl (once access)

theorem blocking_done (blocks : fn.stopsShort = false) {cq : δ} {fuel more : Nat}
    (reached : iterate (fn.turn driver n) fuel (fn.start n cq) = .again s) (whole : s.tot = n) :
    fn.call driver (fuel + (more + 1)) n cq = fn.ended (.done (s, .ok ())) := by
  rw [call_eq, turns, if_neg (by simp [blocks]), iterate_add _ _ _ reached,
    iterate_done _ _ (blocking_turn_done blocks whole)]

end PollFn

/-! ## A queue -/

/-- Both members have removed these completions, the next ones of the queue, after the same
requests, and the vector holds their images. -/
structure TakenAlike (cq : Fifo) (completions : List IbvWc) (collecting counting : Polled Fifo) :
    Prop where
  returned : collecting.result = some (.ok (.cqes (completions.map RdmaSuccessCqe.ofWc)))
  done : counting.result = some (.ok .done)
  kept : cq.arrived <+: collecting.cq.arrived
  removed : collecting.cq.removed = cq.removed ++ completions
  same : counting.cq = collecting.cq
  requests : requests counting.log = requests collecting.log

theorem blocking_call {schedule : Nat → List IbvWc × Nat} (fn : PollFn)
    (blocks : fn.stopsShort = false) {cq last : Fifo} {n : Nat} (int : n < 2 ^ 31)
    {replies : List PollReply}
    (heard : Heard (Fifo.driver schedule) cq n replies last 0)
    (successful : ∀ reply ∈ replies, Successful reply.entries) {fuel : Nat}
    (enough : replies.length < fuel) :
    ∃ s, fn.call (Fifo.driver schedule) fuel n cq = fn.ended (.done (s, .ok ())) ∧ s.cq = last ∧
      s.tot = n ∧ Accounted fn n s ∧ Drained cq s ∧
      taken s.log = replies.flatMap PollReply.entries ∧ requests s.log = asked n replies := by
  have steady := Fifo.driver_steady schedule
  have stays : fn.StaysDefined (Fifo.driver schedule) n (fn.start n cq) := fun fuel =>
    (loop_blocking blocks steady int fuel cq).imp (fun _ _ => trivial) fun _ ended => ended.defined
  obtain ⟨s, reached, same, remains, -, -, -, entries, asks⟩ :=
    PollFn.blocking_hears blocks int heard successful (s := fn.start n cq) rfl
      (by simp [PollFn.start]) (Int.natCast_nonneg n) (by omega) (accounted_start fn n cq).size stays
  have whole : s.tot = n := by omega
  have accounted := loop_accounted fn steady n replies.length cq
  have drained := loop_drained schedule fn n cq replies.length
  rw [reached] at accounted drained
  refine ⟨s, ?_, same, whole, accounted, drained, by simpa [PollFn.start] using entries,
    by simpa [PollFn.start, requests] using asks⟩
  obtain ⟨more, rfl⟩ : ∃ more, fuel = replies.length + (more + 1) :=
    ⟨fuel - replies.length - 1, by omega⟩
  exact PollFn.blocking_done blocks reached whole

/-- On answers that reach `n` and hold successful completions only, both blocking members return
having taken the next `n` completions. -/
theorem blocking_polls_take (schedule : Nat → List IbvWc × Nat) {cq last : Fifo} {n : NumEntries}
    {replies : List PollReply} (heard : Heard (Fifo.driver schedule) cq n replies last 0)
    (successful : ∀ reply ∈ replies, Successful reply.entries) {fuel fuel' : Nat}
    (enough : replies.length < fuel) (enough' : replies.length < fuel') :
    ∃ completions, completions.length = (n : Nat) ∧
      TakenAlike cq completions
        (PollFn.call .pollWithWc (Fifo.driver schedule) fuel n cq)
        (PollFn.call .poll (Fifo.driver schedule) fuel' n cq) := by
  obtain ⟨s, collecting, same, whole, accounted, drained, entries, asks⟩ :=
    blocking_call .pollWithWc rfl n.isLt heard successful enough
  obtain ⟨s', counting, same', whole', -, -, -, asks'⟩ :=
    blocking_call .poll rfl n.isLt heard successful enough'
  obtain ⟨ret, finished, reported, images⟩ := finish_accounted accounted fun _ => whole
  refine ⟨taken s.log, by have := accounted.tot; omega, ?_⟩
  rw [collecting, counting]
  refine ⟨?_, rfl, drained.kept, drained.removed, same'.trans same.symm, asks'.trans asks.symm⟩
  obtain rfl : ret = .cqes s.ret := (Except.ok.inj finished).symm
  change some (Except.ok (PollReturn.cqes s.ret)) = _
  rw [images s.ret rfl]

-- Three completions arrive before the third poll; the first two are answered with nothing.
def late : Nat → List IbvWc × Nat
  | 2 => (List.replicate 3 { wrId := 7, opcode := 128, byteLen := 8, immData := 0 }, 2)
  | _ => ([], 1)

def idle : Fifo where
  arrived := []
  head := 0
  within := Nat.zero_le _

theorem late_polls_take :
    ∃ completions, completions.length = 3 ∧
      TakenAlike idle completions
        (PollFn.call .pollWithWc (Fifo.driver late) 5 (3 : Nat) idle)
        (PollFn.call .poll (Fifo.driver late) 6 (3 : Nat) idle) :=
  blocking_polls_take (n := 3) late
    (.next (by decide) rfl (.next (by decide) rfl (.next (by decide) rfl (.next (by decide) rfl
      (.none _ _))))) (by decide) (by decide) (by decide)

-- One completion, in error.
def broken : Fifo where
  arrived := [{ wrId := 7, status := .error 12, opcode := 128, byteLen := 8, immData := 0 }]
  head := 0
  within := Nat.zero_le _

theorem broken_poll_exits :
    (∃ replies last, Heard (Fifo.driver quiet) broken (1 : Nat) replies last 0 ∧
        ∀ reply ∈ replies, 0 ≤ reply.ret) ∧
      ∀ fuel, ¬ ∃ ret, (PollFn.call .pollWithWc (Fifo.driver quiet) fuel (1 : Nat) broken).result =
        some (.ok ret) := by
  refine ⟨⟨_, _, .next (by decide) rfl (.none _ _), by decide⟩, ?_⟩
  rintro (_ | fuel) ⟨ret, returned⟩
  · cases returned
  · cases returned

end Rdmalib2
