import Rdmalib2.Cq.Stopping
import Rdmalib2.Cq.Taking

set_option autoImplicit false

/-!
# Polls that fail

A negative answer is added to the running total like a count. The blocking members then ask for
more than was wanted, until there is no `int` for it, and the others stop with a total that is too
low.
-/

namespace Rdmalib2

open Shared

variable {δ : Type}

def TakesAll (n : Nat) (polled : Polled δ) : Prop :=
  ∀ ret, polled.result = some (.ok ret) → (taken polled.log).length = n

/-- What is reported is what was taken; an exit or an exception reports the failure. -/
def Reports (polled : Polled δ) : Prop :=
  match polled.result with
  | some (.ok (.count tot)) => tot = (taken polled.log).length
  | some (.ok (.cqes ret)) => ret.length = (taken polled.log).length
  | some (.error (.undefined _)) => False
  | _ => True

def Polled.Defined (polled : Polled δ) : Prop :=
  ∀ access, polled.result ≠ some (.error (.undefined access))

def PollFn.AccountsFailing (fn : PollFn) (driver : CqDriver δ) (n : Nat) (cq : δ) : Prop :=
  ∀ fuel, let polled := fn.call driver fuel n cq
    if fn.stopsShort then Reports polled
    else TakesAll n polled ∧ StoresWithin n polled.log ∧ polled.Defined

/-! ## Blocking members -/

/-- No negative answer among those that reach `n`, never more left to want than an `int` holds, and
no total below zero before entries that the vector then has no room for. -/
def PollFn.Undisturbed (fn : PollFn) (driver : CqDriver δ) (n : Nat) (cq : δ) : Prop :=
  ∀ replies last rest, Heard driver cq n replies last rest →
    (∀ reply ∈ replies, Successful reply.entries) →
    (rest = 0 → ∀ reply ∈ replies, ∀ code, reply ≠ .failed code) ∧ rest < 2 ^ 31 ∧
      (fn.stores = true → n < rest →
        ∀ reply, (driver.poll last (min rest kMaxPollCq)).1 = reply → Successful reply.entries →
          reply.entries = [])

namespace Heard

variable {driver : CqDriver δ} {cq mid last : δ} {left rest : Int} {replies : List PollReply}

theorem snoc {reply : PollReply} (heard : Heard driver cq left replies mid rest) (wanted : rest ≠ 0)
    (answer : driver.poll mid (min rest kMaxPollCq) = (reply, last)) :
    Heard driver cq left (replies ++ [reply]) last (rest - reply.ret) := by
  induction heard with
  | none => exact .next wanted answer (.none _ _)
  | next before first later ih => exact .next before first (ih wanted answer)

theorem total (heard : Heard driver cq left replies last rest) :
    left - rest ≤ (replies.flatMap PollReply.entries).length ∧
      (left - rest = (replies.flatMap PollReply.entries).length ↔
        ∀ reply ∈ replies, ∀ code, reply ≠ .failed code) := by
  induction heard with
  | none => simp
  | @next cq mid last left rest reply replies wanted answer later ih =>
    rw [List.flatMap_cons, List.length_append, List.forall_mem_cons, ← ih.2]
    have most := ih.1
    cases reply with
    | completed entries =>
      simp only [PollReply.entries, PollReply.ret] at most ⊢
      push_cast
      refine ⟨by omega, ?_⟩
      simp only [ne_eq, reduceCtorEq, not_false_eq_true, implies_true, true_and]
      constructor <;> intro same <;> omega
    | failed code =>
      simp only [PollReply.entries, PollReply.ret, List.length_nil, Nat.zero_add] at most ⊢
      refine ⟨by omega, ?_⟩
      constructor
      · intro same
        omega
      · rintro ⟨none, -⟩
        exact absurd rfl (none code)

end Heard

def replies (log : List PollTurn) : List PollReply := log.map (·.reply)

theorem taken_eq (log : List PollTurn) : taken log = (replies log).flatMap PollReply.entries := by
  simp [taken, replies, List.flatMap_map]

theorem StoresWithin.append {n : Nat} {log : List PollTurn} (before : StoresWithin n log)
    {turn : PollTurn} (here : ∀ index ∈ turn.stores, 0 ≤ index ∧ index < n) :
    StoresWithin n (log ++ [turn]) := by
  intro other logged
  rcases List.mem_append.mp logged with earlier | last
  · exact before other earlier
  · obtain rfl := List.mem_singleton.mp last
    exact here

structure Hearing (fn : PollFn) (driver : CqDriver δ) (n : Nat) (cq : δ) (s : Polling δ) : Prop where
  heard : Heard driver cq n (replies s.log) s.cq (n - s.tot)
  successful : ∀ reply ∈ replies s.log, Successful reply.entries
  most : s.tot ≤ n
  size : fn.stores = true → s.ret.length = n
  within : StoresWithin n s.log

namespace PollFn

variable {fn : PollFn} {driver : CqDriver δ} {n : Nat} {cq : δ}

theorem hearing_turn (blocks : fn.stopsShort = false) (int : n < 2 ^ 31)
    (spared : fn.Undisturbed driver n cq) {s : Polling δ} (hearing : Hearing fn driver n cq s) :
    (fn.turn driver n s).Holds (Hearing fn driver n cq) fun ended =>
      (ended.2 = .ok () → (taken ended.1.log).length = n) ∧ StoresWithin n ended.1.log ∧
        ∀ access, ended.2 ≠ .error (.undefined access) := by
  have more := blocking_more blocks hearing.most
  have undisturbed := spared _ _ _ hearing.heard hearing.successful
  have further : ∀ {reply mid}, fn.more n s.tot = true →
      driver.poll s.cq (min (n - s.tot) kMaxPollCq) = (reply, mid) → Successful reply.entries →
      Heard driver cq n (replies s.log ++ [reply]) mid (n - (s.tot + reply.ret)) ∧
        ∀ other ∈ replies s.log ++ [reply], Successful other.entries := by
    intro reply mid goes answer success
    constructor
    · simpa [Int.sub_sub] using hearing.heard.snoc (more.mp goes) answer
    · exact List.forall_mem_append.mpr ⟨hearing.successful, by simpa using success⟩
  refine turn_holds ?_ ?_ ?_ ?_
  · intro ends
    have whole : (n : Int) - s.tot = 0 := by
      by_contra left
      rw [more.mpr left] at ends
      cases ends
    refine ⟨fun _ => ?_, hearing.within, by simp⟩
    have total := hearing.heard.total.2.mpr (undisturbed.1 whole)
    change (taken s.log).length = n
    rw [taken_eq]
    omega
  · intro reply mid e goes answer refused
    rw [blocking_request blocks] at answer
    have fits := blocking_fits hearing.most answer
    refine ⟨by simp, hearing.within.append (by simp), fun access same => ?_⟩
    obtain rfl := Except.error.inj same
    have beyond := doPoll_undefined refused
    omega
  · intro reply mid e goes answer accepted failed
    rw [blocking_request blocks] at answer
    have fits := blocking_fits hearing.most answer
    have success := (doPoll_ok.mp accepted).2.2
    rcases blocking_tallying blocks int hearing.most hearing.size fits.2 with
      ⟨ret, tallied, -, -, -⟩ | ⟨⟨stores, negative, some⟩ | large, -⟩
    · rw [tallied] at failed
      cases failed
    · have empty := undisturbed.2.2 stores (by omega) reply (by rw [answer]) success
      exact absurd empty some
    · obtain ⟨longer, successful⟩ := further goes answer success
      have small := (spared _ _ _ longer successful).2.1
      omega
  · intro reply mid ret goes answer accepted stored
    rw [blocking_request blocks] at answer
    have fits := blocking_fits hearing.most answer
    have bound := reply.ret_le
    refine ⟨fun short => ?_, fun _ => ?_⟩
    · rw [blocks] at short
      cases short.1
    rcases blocking_tallying blocks int hearing.most hearing.size fits.2 with
      ⟨images, kept, length, places, -⟩ | ⟨-, access, failed⟩
    · obtain rfl : ret = images := Except.ok.inj (stored.symm.trans kept)
      obtain ⟨longer, successful⟩ := further goes answer (doPoll_ok.mp accepted).2.2
      refine ⟨?_, ?_, by simp only; omega, length, hearing.within.append places⟩
      · simpa [replies] using longer
      · simpa [replies] using successful
    · rw [failed] at stored
      cases stored

theorem accounts_of_undisturbed (blocks : fn.stopsShort = false) (int : n < 2 ^ 31)
    (spared : fn.Undisturbed driver n cq) : fn.AccountsFailing driver n cq := by
  intro fuel
  have start : Hearing fn driver n cq (fn.start n cq) :=
    ⟨by simpa [PollFn.start, replies] using Heard.none cq n, by simp [PollFn.start, replies],
      Int.natCast_nonneg n, (accounted_start fn n cq).size, by simp [PollFn.start, StoresWithin]⟩
  have ended := iterate_holds _ _ _ (fun s hearing => hearing_turn blocks int spared hearing)
    (fn.turns fuel n) start
  simp only [blocks, Bool.false_eq_true, if_false]
  rw [call_eq]
  generalize iterate (fn.turn driver n) (fn.turns fuel n) (fn.start n cq) = last at ended ⊢
  rcases last with s | ⟨s, e | ⟨⟩⟩
  · have unended : (fn.ended (.again s)).result = none := rfl
    exact ⟨by simp [TakesAll, unended], Hearing.within ended, by simp [Polled.Defined, unended]⟩
  · obtain ⟨-, within, defined⟩ := ended
    have failed : (fn.ended (.done (s, .error e))).result = some (.error e) := rfl
    refine ⟨by simp [TakesAll, failed], within, fun access same => ?_⟩
    obtain rfl := Except.error.inj (Option.some.inj same)
    exact defined access rfl
  · obtain ⟨whole, within, -⟩ := ended
    refine ⟨fun _ _ => whole rfl, within, fun access same => ?_⟩
    cases fn <;> simp [stopsShort] at blocks <;> cases Option.some.inj same

theorem undisturbed_of_accounts (blocks : fn.stopsShort = false) (int : n < 2 ^ 31)
    (accounts : fn.AccountsFailing driver n cq) : fn.Undisturbed driver n cq := by
  intro replies last rest heard successful
  have all : ∀ fuel, TakesAll n (fn.call driver fuel n cq) ∧
      StoresWithin n (fn.call driver fuel n cq).log ∧ (fn.call driver fuel n cq).Defined := by
    intro fuel
    have here := accounts fuel
    simpa only [blocks, Bool.false_eq_true, if_false] using here
  have stays : fn.StaysDefined driver n (fn.start n cq) := by
    intro fuel
    have defined := (all fuel).2.2
    rw [call_eq, turns, if_neg (by simp [blocks])] at defined
    generalize iterate (fn.turn driver n) fuel (fn.start n cq) = ended at defined ⊢
    rcases ended with s | ⟨s, result⟩
    · exact trivial
    · rintro access rfl
      exact defined access rfl
  obtain ⟨s, reached, same, remains, most, small, size, entries, -⟩ :=
    blocking_hears blocks int heard successful (s := fn.start n cq) rfl (by simp [start])
      (Int.natCast_nonneg n) (by omega) (accounted_start fn n cq).size stays
  refine ⟨?_, small, ?_⟩
  · rintro rfl
    have whole : s.tot = n := by omega
    have returned := (all (replies.length + (0 + 1))).1
    rw [blocking_done blocks reached whole] at returned
    obtain ⟨ret, finished⟩ : ∃ ret, fn.finish s = .ok ret := by
      cases fn <;> simp [stopsShort] at blocks <;> exact ⟨_, rfl⟩
    have count : (taken s.log).length = n := returned ret (congrArg some finished)
    have log : taken (fn.start n cq).log = [] := rfl
    rw [entries, log, List.nil_append] at count
    exact heard.total.2.mp (by omega)
  · intro stores behind reply answer success
    by_contra some
    -- A negative total is where the next entry is stored.
    have answered : driver.poll s.cq (min (n - s.tot) kMaxPollCq) =
        (reply, (driver.poll s.cq (min (n - s.tot) kMaxPollCq)).2) := by
      rw [remains, same, ← answer]
    have outside := storing_negative (s := s) stores (by omega) some
    obtain ⟨last, turned⟩ := blocking_turn_failed blocks most (by omega) answered success
      (tallying_error.mpr (.inl (congrArg Prod.snd outside)))
    have once := stays (replies.length + 1)
    rw [iterate_add _ _ _ reached, iterate_done _ _ turned] at once
    exact absurd rfl (once _)

end PollFn

/-! ## Non-blocking members -/

/-- An answer, after `counted` entries and with `left` still wanted, that ends in a wrong report:
one that cannot be dealt with, or a negative number, unless it makes the size of the vector
negative. -/
def PollFn.Misreports (fn : PollFn) (counted left : Int) (reply : PollReply) : Prop :=
  fn.Breaks counted left reply ∨
    ∃ code, reply = .failed code ∧
      match fn with
      | .tryPoll => True
      | .tryPollWithWc => code + 1 ≤ counted
      | .poll | .pollWithWc => False

/-- After full batches only, an answer misreports while some of the `n` are still wanted. -/
def PollFn.Misled (fn : PollFn) (driver : CqDriver δ) (n : Nat) (cq : δ) : Prop :=
  ∃ j, (∀ i < j, CqDriver.Full (driver.answer (fn.request n 0) cq i)) ∧ kMaxPollCq * j < n ∧
    fn.Misreports (kMaxPollCq * j) (n - kMaxPollCq * j) (driver.answer (fn.request n 0) cq j)

namespace PollFn

variable {fn : PollFn} {driver : CqDriver δ} {n : Nat} {cq : δ}

theorem not_broken_of_not_misled (spared : ¬ fn.Misled driver n cq) :
    ¬ fn.Broken driver n cq := by
  rintro ⟨j, full, left, breaks⟩
  exact spared ⟨j, full, left, .inl breaks⟩

theorem accounts_of_not_misled (stops : fn.stopsShort = true) (int : n < 2 ^ 31)
    (spared : ¬ fn.Misled driver n cq) : fn.AccountsFailing driver n cq := by
  intro fuel
  simp only [stops, if_true]
  rw [call_eq]
  obtain ⟨⟨s, e | ⟨⟩⟩, reached, tallied⟩ :=
    try_ends_tallied stops int (not_broken_of_not_misled spared) fuel
  · rw [reached]
    cases e with
    | undefined access => exact absurd rfl (tallied.defined access)
    | panic | panicWithErrno | uncaught => exact trivial
  · rw [reached]
    rcases tallied.tallied rfl with accounted | ⟨j, code, ⟨full, left, failed⟩, tot⟩
    · obtain ⟨ret, finished, reported, -⟩ :=
        finish_accounted (n := n) accounted (by simp [stops])
      change Reports { cq := s.cq, log := s.log, result := some (fn.finish s) }
      rw [finished]
      cases ret with
      | done => exact trivial
      | count tot => exact reported
      | cqes ret => exact Int.ofNat.inj reported
    · -- A size below zero is an exception.
      cases fn with
      | poll | pollWithWc => cases stops
      | tryPoll => exact absurd ⟨j, full, left, .inr ⟨code, failed, trivial⟩⟩ spared
      | tryPollWithWc =>
        have negative : s.tot < 0 := by
          by_contra enough
          simp only at tot
          exact spared ⟨j, full, left, .inr ⟨code, failed, by simp only; omega⟩⟩
        change Reports { cq := s.cq, log := s.log, result := some (finish .tryPollWithWc s) }
        rw [finish, if_pos negative]
        exact trivial

-- A negative answer ends the call with a total below what was taken.
theorem failed_turn (stops : fn.stopsShort = true) (int : n < 2 ^ 31) {s : Polling δ}
    (counted : 0 ≤ s.tot) (left : s.tot < n) {code : Fin (2 ^ 31)}
    (failed : (driver.poll s.cq (fn.request n s.tot)).1 = .failed code) :
    ∃ last, fn.turn driver n s = .done (last, .ok ()) ∧ last.tot = s.tot - (code + 1) ∧
      taken last.log = taken s.log ∧ last.ret = s.ret := by
  have goes := (more_iff stops n s.tot).mpr left
  rcases answer : driver.poll s.cq (fn.request n s.tot) with ⟨reply, mid⟩
  rw [answer] at failed
  obtain rfl : reply = .failed code := failed
  have batch := entriesToPoll_bounds stops n counted
  have positive : (1 : Int) ≤ kMaxPollCq := by decide
  have accepted : doPoll (.failed code) = .ok (PollReply.failed code).ret :=
    doPoll_ok.mpr ⟨rfl, Nat.zero_le _, by simp [Successful, PollReply.entries]⟩
  have lost : s.tot + (PollReply.failed code).ret = s.tot - (code + 1) := by
    simp only [PollReply.ret]
    omega
  have counts : fn.Counts n (s.tot + (PollReply.failed code).ret) := by
    have lowest := code.isLt
    rw [counts_of_stopping stops, lost]
    constructor <;> omega
  have stored : fn.storing s (.failed code) = ([], .ok s.ret) := by
    rw [storing]
    split <;> rfl
  have tallied : fn.tallying n s (.failed code) = ([], .ok s.ret) := by
    simp only [tallying, stored, if_pos counts]
  have short : (PollReply.failed code).ret < fn.entriesToPoll n s.tot := by
    simp only [PollReply.ret]
    omega
  refine ⟨{ cq := mid, tot := s.tot + (PollReply.failed code).ret, ret := s.ret
            log := s.log ++ [{ request := fn.request n s.tot, reply := .failed code, stores := [] }] },
    ?_, lost, by simp [PollReply.entries], rfl⟩
  simp only [turn, goes, if_true, answer, accepted, tallied, stops, short, true_and]

theorem failed_misreports (stops : fn.stopsShort = true) (int : n < 2 ^ 31) {s : Polling δ}
    (accounted : Accounted fn n s) (left : s.tot < n) {code : Fin (2 ^ 31)}
    (failed : (driver.poll s.cq (fn.request n s.tot)).1 = .failed code)
    (low : fn = .tryPoll ∨ code + 1 ≤ s.tot) (rest : Nat) :
    ¬ Reports (fn.ended (iterate (fn.turn driver n) (rest + 1) s)) := by
  have counted := accounted.tot
  obtain ⟨last, turned, tot, same, -⟩ := failed_turn stops int (by omega) left failed
  rw [iterate_done _ _ turned]
  change ¬ Reports { cq := last.cq, log := last.log, result := some (fn.finish last) }
  intro reports
  cases fn <;> simp [stopsShort] at stops
  · have count : last.tot = (taken last.log).length := reports
    rw [same] at count
    omega
  · have enough : (code + 1 : Int) ≤ s.tot := low.resolve_left (by simp)
    rw [finish, if_neg (by omega)] at reports
    have count : (last.ret.take last.tot.toNat ++
        List.replicate (last.tot.toNat - last.ret.length) ({} : RdmaSuccessCqe)).length =
          (taken last.log).length := reports
    rw [same, List.length_append, List.length_take, List.length_replicate] at count
    omega

theorem not_accounts_of_misled (stops : fn.stopsShort = true) (int : n < 2 ^ 31)
    (misled : fn.Misled driver n cq) : ¬ fn.AccountsFailing driver n cq := by
  intro accounts
  have reports := accounts 0
  simp only [stops, if_true] at reports
  rw [call_eq] at reports
  obtain ⟨j, full, left, breaks | ⟨code, failed, low⟩⟩ := misled
  · obtain ⟨last, access, reached⟩ := broken_ends stops int ⟨j, full, left, breaks⟩ 0
    rw [reached] at reports
    exact reports
  · obtain ⟨s, reached, accounted, same, tot⟩ := full_turns stops int full left
    have positive : j ≤ kMaxPollCq * j := Nat.le_mul_of_pos_left j (by decide)
    obtain ⟨rest, enough⟩ : ∃ rest, n + 1 = j + (rest + 1) := ⟨n - j, by omega⟩
    have answered : (driver.poll s.cq (fn.request n s.tot)).1 = .failed code := by
      rw [← failed, request_eq stops n s.tot, same]
      rfl
    rw [turns, if_pos stops, Int.toNat_natCast, enough, iterate_add _ j _ reached] at reports
    refine failed_misreports stops int accounted (by omega) answered ?_ rest reports
    cases fn with
    | poll | pollWithWc => cases stops
    | tryPoll => exact .inl rfl
    | tryPollWithWc => exact .inr (tot ▸ low)

end PollFn

/-- On any driver, a polling call accounts for the completions it takes exactly when, for the
blocking members, no negative answer comes among those that reach `n`, makes more left to want than
an `int` holds, or comes before entries out of the vector's reach, and, for the others, no answer
after full batches misreports. -/
theorem failing_polls_account_iff (fn : PollFn) (driver : CqDriver δ) (n : NumEntries) (cq : δ) :
    fn.AccountsFailing driver n cq ↔
      if fn.stopsShort then ¬ fn.Misled driver n cq else fn.Undisturbed driver n cq := by
  cases stops : fn.stopsShort with
  | true =>
    rw [if_pos rfl]
    exact ⟨fun accounts misled => PollFn.not_accounts_of_misled stops n.isLt misled accounts,
      PollFn.accounts_of_not_misled stops n.isLt⟩
  | false =>
    rw [if_neg (by simp)]
    exact ⟨PollFn.undisturbed_of_accounts stops n.isLt, PollFn.accounts_of_undisturbed stops n.isLt⟩

-- A full batch, a failure, and a batch again.
def flaky : CqDriver Nat where
  poll
    | 1, _ => (.failed 0, 2)
    | t, k => (.completed (List.replicate (min 32 k.toNat)
        { wrId := 0, opcode := 128, byteLen := 8, immData := 0 }), t + 1)
  within := by
    intro t k
    split
    · exact Nat.zero_le _
    · simp [PollReply.entries]

theorem flaky_polls_misaccount : ¬ ∃ fn : PollFn, fn.AccountsFailing flaky 40 0 := by
  rintro ⟨fn, accounts⟩
  have fourth := accounts 4
  cases fn with
  | poll => exact absurd (fourth.1 _ rfl) (by decide)
  | pollWithWc => exact absurd (fourth.1 _ rfl) (by decide)
  | tryPoll =>
    have count : (31 : Int) = (taken (PollFn.call .tryPoll flaky 4 (40 : Nat) 0).log).length := fourth
    exact absurd count (by decide)
  | tryPollWithWc =>
    have count : 31 = (taken (PollFn.call .tryPollWithWc flaky 4 (40 : Nat) 0).log).length := fourth
    exact absurd count (by decide)

/-! ## Failing for ever -/

def failing : CqDriver Unit where
  poll _ _ := (.failed 0, ())
  within _ _ := Nat.zero_le _

theorem failing_heard {left : Int} (wanted : 0 < left) (count : Nat) :
    Heard failing () left (List.replicate count (.failed 0)) () (left + count) := by
  induction count generalizing left with
  | zero => simpa using Heard.none () left
  | succ count ih =>
    have lost : left - (PollReply.failed 0).ret = left + 1 := by simp [PollReply.ret]
    have more : 0 < left + 1 := by omega
    have later := ih more
    rw [List.replicate_succ, Nat.cast_succ, Int.add_comm (count : Int) 1, ← Int.add_assoc]
    exact .next (by omega) rfl (lost.symm ▸ later)

/-- A blocking call that is told of nothing but failures wants one more each time, until its counter
overflows. -/
theorem failing_overflows (fn : PollFn) (blocks : fn.stopsShort = false) {n : Nat} (wanted : 0 < n)
    (int : n < 2 ^ 31) : ¬ fn.AccountsFailing failing n () := by
  intro accounts
  have undisturbed := PollFn.undisturbed_of_accounts blocks int accounts
  have small : ∀ count : Nat, (n : Int) + count < 2 ^ 31 := fun count =>
    (undisturbed _ _ _ (failing_heard (Int.natCast_pos.mpr wanted) count)
      (by simp [PollReply.entries, Successful])).2.1
  have last := small (2 ^ 31)
  omega

end Rdmalib2
