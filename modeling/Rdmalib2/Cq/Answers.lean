import Rdmalib2.Cq.Accounting

set_option autoImplicit false

/-!
# Answers to one repeated request

The non-blocking members ask for the same number in every turn and go on only after a full
batch, so what they do is decided by the first answer that is not one.
-/

namespace Rdmalib2

open Shared

namespace CqDriver

variable {δ : Type}

def after (driver : CqDriver δ) (k : Int) (cq : δ) : Nat → δ
  | 0 => cq
  | j + 1 => (driver.poll (driver.after k cq j) k).2

def answer (driver : CqDriver δ) (k : Int) (cq : δ) (j : Nat) : PollReply :=
  (driver.poll (driver.after k cq j) k).1

def Full (reply : PollReply) : Prop :=
  reply.entries.length = kMaxPollCq ∧ Successful reply.entries

instance (reply : PollReply) : Decidable (Full reply) := inferInstanceAs (Decidable (_ ∧ _))

-- More than the buffer holds, or more successful completions than are left to ask for.
def Over (left : Int) (reply : PollReply) : Prop :=
  kMaxPollCq < reply.entries.length ∨ left < reply.entries.length ∧ Successful reply.entries

-- Entries come with a count.
theorem ret_of_entries {reply : PollReply} (some : reply.entries ≠ []) :
    reply.ret = reply.entries.length := by
  cases reply with
  | completed entries => rfl
  | failed code => exact absurd rfl some

theorem Full.ret {reply : PollReply} (full : Full reply) : reply.ret = reply.entries.length := by
  refine ret_of_entries (List.ne_nil_of_length_pos ?_)
  rw [full.1]
  decide

theorem Over.ret {left : Int} {reply : PollReply} (surplus : Over left reply) (least : 0 ≤ left) :
    reply.ret = reply.entries.length := by
  refine ret_of_entries (List.ne_nil_of_length_pos ?_)
  rcases surplus with many | ⟨more, -⟩ <;> omega

-- A full answer after full batches is one batch more.
theorem Full.succ {driver : CqDriver δ} {k tot : Int} {cq mid : δ} {reply : PollReply} {j : Nat}
    (before : ∀ i < j, Full (driver.answer k cq i)) (counted : tot = kMaxPollCq * j)
    (answer : driver.poll (driver.after k cq j) k = (reply, mid)) (full : Full reply) :
    ∃ j, mid = driver.after k cq j ∧ tot + reply.ret = kMaxPollCq * j ∧
      ∀ i < j, Full (driver.answer k cq i) := by
  refine ⟨j + 1, ?_, ?_, fun i within => ?_⟩
  · rw [after, answer]
  · rw [full.ret, full.1, counted, Nat.cast_succ, Int.mul_add, Int.mul_one]
  · rcases Nat.lt_succ_iff_lt_or_eq.mp within with earlier | rfl
    · exact before i earlier
    · rw [CqDriver.answer, answer]
      exact full

/-- After full batches only, an answer goes over while some of the `n` are still wanted. -/
def Exceeds (driver : CqDriver δ) (k : Int) (n : Nat) (cq : δ) : Prop :=
  ∃ j, (∀ i < j, Full (driver.answer k cq i)) ∧ kMaxPollCq * j < n ∧
    Over (n - kMaxPollCq * j : Int) (driver.answer k cq j)

end CqDriver

namespace PollFn

variable {δ : Type} {fn : PollFn} {driver : CqDriver δ} {n : Nat} {cq : δ}

theorem request_eq (stops : fn.stopsShort = true) (numEntries tot : Int) :
    fn.request numEntries tot = fn.request numEntries 0 := by
  cases fn <;> simp [stopsShort] at stops <;> rfl

theorem more_iff (stops : fn.stopsShort = true) (numEntries tot : Int) :
    fn.more numEntries tot = true ↔ tot < numEntries := by
  cases fn <;> simp [stopsShort] at stops <;> simp [more]

-- A batch is between what can still be used of it and a buffer.
theorem entriesToPoll_bounds (stops : fn.stopsShort = true) (numEntries : Int) {tot : Int}
    (counted : 0 ≤ tot) :
    min (numEntries - tot) kMaxPollCq ≤ fn.entriesToPoll numEntries tot ∧
      fn.entriesToPoll numEntries tot ≤ kMaxPollCq ∧
      fn.entriesToPoll numEntries tot ≤ fn.request numEntries tot := by
  cases fn <;> simp [stopsShort] at stops <;> simp only [entriesToPoll, request] <;> omega

theorem request_of_stores (stops : fn.stopsShort = true) (stores : fn.stores = true)
    (numEntries tot : Int) : fn.request numEntries tot ≤ kMaxPollCq := by
  cases fn <;> simp [stopsShort, PollFn.stores] at stops stores
  simp only [request, entriesToPoll]
  omega

theorem entriesToPoll_of_plain (stops : fn.stopsShort = true) (plain : fn.stores = false)
    (numEntries tot : Int) : fn.entriesToPoll numEntries tot ≤ numEntries - tot := by
  cases fn <;> simp [stopsShort, PollFn.stores] at stops plain
  simp only [entriesToPoll]
  omega

/-- The non-blocking members are done within the turns they are given, whatever the driver
answers: each turn that goes on has taken something. -/
theorem try_ends (stops : fn.stopsShort = true) (fuel : Nat) :
    ∃ ended, iterate (fn.turn driver n) (fn.turns fuel n) (fn.start n cq) = .done ended := by
  rw [turns, if_pos stops, Int.toNat_natCast]
  refine iterate_ends _ (fun s => 0 ≤ s.tot) (fun s => ((n : Int) - s.tot).toNat)
    (fun s counted => ?_) _ le_rfl (by simp [start])
  refine turn_holds (fun _ => trivial) (fun _ _ _ _ _ _ => trivial) (fun _ _ _ _ _ _ _ => trivial) ?_
  intro reply cq' ret goes answer accepted stored
  refine ⟨fun _ => trivial, fun full => ?_⟩
  rw [more_iff stops] at goes
  have positive : (1 : Int) ≤ kMaxPollCq := by decide
  have batch := entriesToPoll_bounds stops n counted
  simp only [stops, true_and] at full
  constructor <;> simp only <;> omega

/-! ## Within the limits -/

structure Along (fn : PollFn) (driver : CqDriver δ) (n : Nat) (cq : δ) (s : Polling δ) : Prop where
  accounted : Accounted fn n s
  most : s.tot ≤ n
  reached : s.tot < n → ∃ j, s.cq = driver.after (fn.request n 0) cq j ∧
    s.tot = kMaxPollCq * j ∧ ∀ i < j, CqDriver.Full (driver.answer (fn.request n 0) cq i)
  bounds : fn.request n 0 ≤ kMaxPollCq → LogInBounds n s.log

/-- A non-blocking call that ended well: no more than asked for, and less only after an answer
that came short. -/
structure EndsWell (fn : PollFn) (n : Nat) (ended : Polling δ × Except Failure Unit) : Prop where
  bounds : fn.request n 0 ≤ kMaxPollCq → LogInBounds n ended.1.log
  defined : ∀ access, ended.2 ≠ .error (.undefined access)
  most : ended.2 = .ok () → ended.1.tot ≤ n
  short : ended.2 = .ok () → ended.1.tot < n → CameShort ended.1.log

theorem along_turn (stops : fn.stopsShort = true) (steady : driver.Steady) (int : n < 2 ^ 31)
    (spared : ¬ driver.Exceeds (fn.request n 0) n cq) {s : Polling δ}
    (along : Along fn driver n cq s) :
    (fn.turn driver n s).Holds (Along fn driver n cq) (EndsWell fn n) := by
  have counted : 0 ≤ s.tot := by
    rw [along.accounted.tot]
    omega
  have asked : fn.more n s.tot = true → 1 ≤ fn.request n s.tot := by
    intro goes
    rw [more_iff stops] at goes
    have positive : (1 : Int) ≤ kMaxPollCq := by decide
    have batch := entriesToPoll_bounds stops n counted
    omega
  have limited : ∀ reply cq', fn.more n s.tot = true →
      driver.poll s.cq (fn.request n s.tot) = (reply, cq') →
      ¬ CqDriver.Over (n - s.tot) reply := by
    intro reply cq' goes answer surplus
    rw [more_iff stops] at goes
    obtain ⟨j, same, tot, full⟩ := along.reached goes
    refine spared ⟨j, full, by omega, ?_⟩
    rw [request_eq stops, same] at answer
    rw [← tot, CqDriver.answer, answer]
    exact surplus
  refine turn_holds ?_ ?_ ?_ ?_
  · intro ends
    refine ⟨along.bounds, nofun, fun _ => along.most, fun _ less => ?_⟩
    rw [(more_iff stops n s.tot).mpr less] at ends
    cases ends
  · intro reply cq' e goes answer refused
    refine ⟨fun small => ?_, ?_, nofun, nofun⟩
    · exact (along.bounds small).append ⟨⟨asked goes, by rwa [request_eq stops]⟩, by simp⟩
    · rintro access same
      obtain rfl := Except.error.inj same
      exact limited reply cq' goes answer (.inl (doPoll_undefined refused))
  · intro reply cq' e goes answer accepted failed
    have good := doPoll_ok.mp accepted
    have room : s.tot + reply.entries.length ≤ n := by
      by_contra more
      exact limited reply cq' goes answer (.inr ⟨by omega, good.2.2⟩)
    obtain ⟨ret, tallied⟩ := (along.accounted.tallying int (steady.ret_of_answer answer) room).2
    rw [tallied] at failed
    cases failed
  · intro reply cq' ret goes answer accepted stored
    have good := doPoll_ok.mp accepted
    have room : s.tot + reply.entries.length ≤ n := by
      by_contra more
      exact limited reply cq' goes answer (.inr ⟨by omega, good.2.2⟩)
    have length := steady.ret_of_answer answer
    have batch := entriesToPoll_bounds stops n counted
    have bounds : fn.request n 0 ≤ kMaxPollCq → LogInBounds n (s.log ++
        [{ request := fn.request n s.tot, reply, stores := (fn.tallying n s reply).1 }]) :=
      fun small => (along.bounds small).append
        ⟨⟨asked goes, by rwa [request_eq stops]⟩, (along.accounted.tallying int length room).1⟩
    refine ⟨fun short => ⟨bounds, nofun, fun _ => ?_, fun _ _ => ?_⟩, fun whole =>
      ⟨along.accounted.polled length accepted stored, ?_, fun less => ?_, bounds⟩⟩
    · simpa [length] using room
    · refine ⟨_, List.mem_append_right _ (List.mem_singleton_self _), ?_⟩
      simp only
      omega
    · simpa [length] using room
    · -- A batch that is neither short nor the last one is full.
      obtain ⟨j, same, tot, full⟩ := along.reached ((more_iff stops n s.tot).mp goes)
      rw [request_eq stops, same] at answer
      have count : reply.entries.length = kMaxPollCq := by
        simp only [stops, true_and, length] at whole
        simp only [length] at less
        omega
      exact CqDriver.Full.succ full tot answer ⟨count, good.2.2⟩

theorem loop_along (stops : fn.stopsShort = true) (steady : driver.Steady) (int : n < 2 ^ 31)
    (spared : ¬ driver.Exceeds (fn.request n 0) n cq) (fuel : Nat) :
    (iterate (fn.turn driver n) fuel (fn.start n cq)).Holds (fun s => LogInBounds n s.log ∨
        ¬ fn.request n 0 ≤ kMaxPollCq) (EndsWell fn n) := by
  have start : Along fn driver n cq (fn.start n cq) :=
    ⟨accounted_start fn n cq, Int.natCast_nonneg n, fun _ => ⟨0, rfl, rfl, by simp⟩,
      fun _ => by simp [PollFn.start, LogInBounds]⟩
  refine (iterate_holds _ _ _ (fun s along => along_turn stops steady int spared along) fuel start).imp
    (fun s along => ?_) (fun _ ended => ended)
  by_cases small : fn.request n 0 ≤ kMaxPollCq
  · exact .inl (along.bounds small)
  · exact .inr small

/-! ## Over the limits -/

/-- A call that ended badly: too high a count, or a store behind the vector or the buffer. -/
def Spoiled (fn : PollFn) (n : Nat) (ended : Polling δ × Except Failure Unit) : Prop :=
  fn.stores = false ∧ ended.2 = .ok () ∧ n < ended.1.tot ∨
    ∃ access, ended.2 = .error (.undefined access) ∧ (fn.stores = true → ¬ LogInBounds n ended.1.log)

theorem full_turn (stops : fn.stopsShort = true) (int : n < 2 ^ 31) {s : Polling δ} {j : Nat}
    (accounted : Accounted fn n s) (same : s.cq = driver.after (fn.request n 0) cq j)
    (tot : s.tot = kMaxPollCq * j) (full : CqDriver.Full (driver.answer (fn.request n 0) cq j))
    (left : kMaxPollCq * (j + 1) ≤ n) :
    ∃ next, fn.turn driver n s = .again next ∧ Accounted fn n next ∧
      next.cq = driver.after (fn.request n 0) cq (j + 1) ∧ next.tot = kMaxPollCq * (j + 1 : Nat) := by
  have answer : driver.poll s.cq (fn.request n s.tot) =
      (driver.answer (fn.request n 0) cq j, driver.after (fn.request n 0) cq (j + 1)) := by
    rw [request_eq stops, same]
    rfl
  have goes : fn.more n s.tot = true := by
    rw [more_iff stops, tot]
    have : 0 < kMaxPollCq := by decide
    rw [Nat.mul_succ] at left
    omega
  have accepts : doPoll (driver.answer (fn.request n 0) cq j) =
      .ok (driver.answer (fn.request n 0) cq j).ret :=
    doPoll_ok.mpr ⟨rfl, full.1.le, full.2⟩
  have room : s.tot + (driver.answer (fn.request n 0) cq j).entries.length ≤ n := by
    rw [full.1, tot]
    rw [Nat.mul_succ] at left
    omega
  apply Turn.Holds.goesOn
  refine turn_holds ?_ ?_ ?_ ?_
  · intro ends
    rw [goes] at ends
    cases ends
  · intro reply cq' e _ answered refused
    obtain ⟨rfl, rfl⟩ := Prod.mk.inj (answer.symm.trans answered)
    rw [accepts] at refused
    cases refused
  · intro reply cq' e _ answered _ failed
    obtain ⟨rfl, rfl⟩ := Prod.mk.inj (answer.symm.trans answered)
    obtain ⟨ret, tallied⟩ := (accounted.tallying int full.ret room).2
    rw [tallied] at failed
    cases failed
  · intro reply cq' ret _ answered accepted stored
    obtain ⟨rfl, rfl⟩ := Prod.mk.inj (answer.symm.trans answered)
    have length := full.ret
    have counted := accounted.tot
    have batch := entriesToPoll_bounds stops n (show 0 ≤ s.tot by omega)
    have count := full.1
    refine ⟨fun short => ?_, fun _ => ⟨accounted.polled length accepted stored, rfl, ?_⟩⟩
    · omega
    · simp only [tot, length, count]
      rw [Nat.cast_succ, Int.mul_add, Int.mul_one]

theorem full_turns (stops : fn.stopsShort = true) (int : n < 2 ^ 31) {j : Nat}
    (full : ∀ i < j, CqDriver.Full (driver.answer (fn.request n 0) cq i))
    (left : kMaxPollCq * j < n) :
    ∃ s, iterate (fn.turn driver n) j (fn.start n cq) = .again s ∧ Accounted fn n s ∧
      s.cq = driver.after (fn.request n 0) cq j ∧ s.tot = kMaxPollCq * j := by
  induction j with
  | zero => exact ⟨fn.start n cq, rfl, accounted_start fn n cq, rfl, rfl⟩
  | succ j ih =>
    obtain ⟨s, reached, accounted, same, tot⟩ := ih (fun i before => full i (by omega)) (by
      rw [Nat.mul_succ] at left
      omega)
    obtain ⟨next, taken, counted⟩ := full_turn stops int accounted same tot (full j (by omega))
      (by omega)
    refine ⟨next, ?_, counted⟩
    rw [iterate_add _ j 1 reached, iterate_again _ 0 taken]
    rfl

theorem over_turn (stops : fn.stopsShort = true) {s : Polling δ}
    (accounted : Accounted fn n s) (left : s.tot < n)
    (surplus : CqDriver.Over (n - s.tot) (driver.poll s.cq (fn.request n s.tot)).1) :
    (fn.turn driver n s).Holds (fun next => fn.stores = false ∧ (n : Int) < next.tot)
      (Spoiled fn n) := by
  have goes : fn.more n s.tot = true := (more_iff stops n s.tot).mpr left
  have filled := driver.within s.cq (fn.request n s.tot)
  refine turn_holds ?_ ?_ ?_ ?_
  · intro ends
    rw [goes] at ends
    cases ends
  · intro reply cq' e _ answer refused
    simp only [answer] at surplus filled
    have beyond : kMaxPollCq < reply.entries.length := by
      by_contra room
      rcases surplus with many | ⟨-, good⟩
      · exact room many
      · rw [doPoll_ok.mpr ⟨rfl, by omega, good⟩] at refused
        cases refused
    rw [doPoll_overrun beyond] at refused
    obtain rfl := Except.error.inj refused
    refine .inr ⟨_, rfl, fun stores => ?_⟩
    -- The member with a vector never asks for more than the buffer holds.
    have asks := request_of_stores stops stores n s.tot
    omega
  · intro reply cq' e _ answer accepted failed
    simp only [answer] at surplus
    obtain ⟨access, rfl⟩ := tallying_undefined failed
    refine .inr ⟨access, rfl, fun stores bounds => ?_⟩
    have more : n < (taken s.log).length + reply.entries.length := by
      have tot := accounted.tot
      have good := doPoll_ok.mp accepted
      rcases surplus with many | ⟨more, -⟩ <;> omega
    have size := accounted.size stores
    have room := accounted.room stores
    have outside := (storeEntries_over reply.entries s.ret (taken s.log).length (by omega)
      (by omega)).1
    rw [← accounted.tot, size] at outside
    have inside := (bounds _ (List.mem_append_right _ (List.mem_singleton_self _))).2 n (by
      simpa [storing, stores] using outside)
    omega
  · intro reply cq' ret _ answer accepted stored
    simp only [answer] at surplus
    have length := surplus.ret (by omega)
    have good := doPoll_ok.mp accepted
    have more : (n : Int) < s.tot + reply.ret := by
      rcases surplus with many | ⟨more, -⟩ <;> omega
    have plain : fn.stores = false := by
      by_contra stores
      simp only [Bool.not_eq_false] at stores
      have placed := (tallying_ok.mp stored).1
      rw [storing, if_pos stores, accounted.tot] at placed
      have size := accounted.size stores
      have room := accounted.room stores
      have fits := storeEntries_ok (by omega) placed
      have := accounted.tot
      omega
    refine ⟨fun short => ?_, fun _ => ⟨plain, more⟩⟩
    have := entriesToPoll_of_plain stops plain n s.tot
    omega

theorem exceeds_spoils (stops : fn.stopsShort = true) (int : n < 2 ^ 31)
    (exceeds : driver.Exceeds (fn.request n 0) n cq) :
    ∃ ended, iterate (fn.turn driver n) (n + 1) (fn.start n cq) = .done ended ∧
      Spoiled fn n ended := by
  obtain ⟨j, full, left, surplus⟩ := exceeds
  obtain ⟨s, reached, accounted, same, tot⟩ := full_turns stops int full left
  have positive : j ≤ kMaxPollCq * j := Nat.le_mul_of_pos_left j (by decide)
  obtain ⟨rest, enough⟩ : ∃ rest, n + 1 = j + (rest + 2) := ⟨n - j - 1, by omega⟩
  rw [enough, iterate_add _ j _ reached]
  have here := over_turn stops accounted (by omega) (by
    rw [request_eq stops, same, tot]
    exact surplus)
  cases taken : fn.turn driver n s with
  | done ended =>
    rw [taken] at here
    exact ⟨ended, iterate_done _ _ taken, here⟩
  | again next =>
    rw [taken] at here
    -- The count is too high already, and the loop is left with it.
    have ends : fn.turn driver n next = .done (next, .ok ()) := by
      have most : ¬ fn.more n next.tot = true := by
        rw [more_iff stops]
        have := here.2
        omega
      rw [turn, if_neg most]
    exact ⟨(next, .ok ()), by rw [iterate_again _ _ taken, iterate_done _ _ ends],
      .inl ⟨here.1, rfl, here.2⟩⟩

end PollFn

end Rdmalib2
