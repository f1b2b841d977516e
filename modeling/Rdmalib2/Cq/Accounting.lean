import Rdmalib2.Cq.Turns

set_option autoImplicit false

/-!
# Accounting of completions

On a driver that answers every poll with completions, the running total of each loop counts the
completions taken, and the result vector holds their images.
-/

namespace Rdmalib2

open Shared

variable {δ : Type}

-- The completions a call has taken, in the order of its polls.
def taken (log : List PollTurn) : List IbvWc := log.flatMap fun turn => turn.reply.entries

@[simp] theorem taken_nil : taken [] = [] := rfl

@[simp] theorem taken_append (log : List PollTurn) (turn : PollTurn) :
    taken (log ++ [turn]) = taken log ++ turn.reply.entries := by
  simp [taken]

def CameShort (log : List PollTurn) : Prop :=
  ∃ turn ∈ log, (turn.reply.entries.length : Int) < turn.request

def CqDriver.Steady (driver : CqDriver δ) : Prop :=
  ∀ cq k code, (driver.poll cq k).1 ≠ .failed code

theorem CqDriver.Steady.ret_of_answer {driver : CqDriver δ} (steady : driver.Steady) {cq next : δ}
    {k : Int} {reply : PollReply} (answer : driver.poll cq k = (reply, next)) :
    reply.ret = reply.entries.length := by
  cases reply with
  | completed entries => rfl
  | failed code => exact absurd (congrArg Prod.fst answer) (steady cq k code)

/-! ## All four members -/

structure Accounted (fn : PollFn) (n : Nat) (s : Polling δ) : Prop where
  tot : s.tot = (taken s.log).length
  success : Successful (taken s.log)
  size : fn.stores = true → s.ret.length = n
  room : fn.stores = true → (taken s.log).length ≤ n
  ret : fn.stores = true →
    s.ret.take (taken s.log).length = (taken s.log).map RdmaSuccessCqe.ofWc

theorem accounted_start (fn : PollFn) (n : Nat) (cq : δ) :
    Accounted fn n (fn.start n cq) := by
  refine ⟨rfl, by simp [Successful, PollFn.start], fun stores => ?_, fun _ => Nat.zero_le n, ?_⟩
  · simp [PollFn.start, stores]
  · simp [PollFn.start]

theorem Accounted.polled {fn : PollFn} {n : Nat} {s : Polling δ} (accounted : Accounted fn n s)
    {reply : PollReply} {cq : δ} {ret : List RdmaSuccessCqe} {request : Int} {stores : List Int}
    (length : reply.ret = reply.entries.length) (accepted : doPoll reply = .ok reply.ret)
    (tallied : (fn.tallying n s reply).2 = .ok ret) :
    Accounted fn n { cq, tot := s.tot + reply.ret, ret
                     log := s.log ++ [{ request, reply, stores }] } := by
  have good : Successful (taken s.log ++ reply.entries) := by
    intro wc member
    rcases List.mem_append.mp member with before | here
    · exact accounted.success wc before
    · exact (doPoll_ok.mp accepted).2.2 wc here
  have total : s.tot + reply.ret = (taken s.log ++ reply.entries).length := by
    rw [accounted.tot, length, List.length_append]
    push_cast
    rfl
  obtain ⟨stored, -⟩ := PollFn.tallying_ok.mp tallied
  by_cases storing : fn.stores = true
  · have size := accounted.size storing
    have room := accounted.room storing
    rw [PollFn.storing, if_pos storing, accounted.tot] at stored
    have fits := storeEntries_ok (by omega) stored
    obtain rfl := Except.ok.inj ((storeEntries_fits reply.entries s.ret _ fits).2.symm.trans stored)
    refine ⟨by simpa using total, by simpa using good, fun _ => ?_, fun _ => ?_, fun _ => ?_⟩
    · simp
      omega
    · simp
      omega
    · have before := accounted.ret storing
      simp [List.take_append, before]
  · refine ⟨by simpa using total, by simpa using good, ?_, ?_, ?_⟩ <;>
      exact fun stores => absurd stores storing

theorem Accounted.storing {fn : PollFn} {n : Nat} {s : Polling δ} (accounted : Accounted fn n s)
    {reply : PollReply} (room : s.tot + reply.entries.length ≤ n) :
    (∀ index ∈ (fn.storing s reply).1, 0 ≤ index ∧ index < n) ∧
      ∃ ret, (fn.storing s reply).2 = .ok ret := by
  by_cases stores : fn.stores = true
  · rw [accounted.tot] at room
    rw [PollFn.storing, if_pos stores, accounted.tot]
    have fits := storeEntries_fits reply.entries s.ret (taken s.log).length
      (by rw [accounted.size stores]; omega)
    refine ⟨fun index stored => ?_, _, fits.2⟩
    have := fits.1 index stored
    omega
  · rw [PollFn.storing, if_neg stores]
    exact ⟨by simp, s.ret, rfl⟩

theorem Accounted.tallying {fn : PollFn} {n : Nat} {s : Polling δ} (accounted : Accounted fn n s)
    (int : n < 2 ^ 31) {reply : PollReply} (length : reply.ret = reply.entries.length)
    (room : s.tot + reply.entries.length ≤ n) :
    (∀ index ∈ (fn.tallying n s reply).1, 0 ≤ index ∧ index < n) ∧
      ∃ ret, (fn.tallying n s reply).2 = .ok ret := by
  obtain ⟨places, ret, stored⟩ := accounted.storing room
  have counted := accounted.tot
  rw [PollFn.tallying_stores]
  exact ⟨places, ret, PollFn.tallying_ok.mpr
    ⟨stored, PollFn.counts_of_within fn int (by omega) (by omega)⟩⟩

theorem loop_accounted (fn : PollFn) {driver : CqDriver δ} (steady : driver.Steady) (n fuel : Nat)
    (cq : δ) :
    (iterate (fn.turn driver n) fuel (fn.start n cq)).Holds (Accounted fn n)
      (fun ended => ended.2 = .ok () → Accounted fn n ended.1) := by
  refine iterate_holds _ _ _ (fun s accounted => ?_) fuel (accounted_start fn n cq)
  refine PollFn.turn_holds (fun _ _ => accounted) ?_ ?_ ?_
  · intro reply cq e _ _ _ ok
    cases ok
  · intro reply cq e _ _ _ _ ok
    cases ok
  · intro reply cq ret _ answer accepted stored
    have length := steady.ret_of_answer answer
    exact ⟨fun _ _ => accounted.polled length accepted stored,
      fun _ => accounted.polled length accepted stored⟩

/-! ## Bounds -/

def PollTurn.InBounds (n : Nat) (turn : PollTurn) : Prop :=
  (1 ≤ turn.request ∧ turn.request ≤ kMaxPollCq) ∧
    ∀ index ∈ turn.stores, 0 ≤ index ∧ index < n

def LogInBounds (n : Nat) (log : List PollTurn) : Prop := ∀ turn ∈ log, turn.InBounds n

theorem LogInBounds.append {n : Nat} {log : List PollTurn} (before : LogInBounds n log)
    {turn : PollTurn} (here : turn.InBounds n) : LogInBounds n (log ++ [turn]) := by
  intro other member
  rcases List.mem_append.mp member with earlier | last
  · exact before other earlier
  · obtain rfl := List.mem_singleton.mp last
    exact here

structure Blocking (fn : PollFn) (n : Nat) (s : Polling δ) : Prop where
  accounted : Accounted fn n s
  most : s.tot ≤ n
  bounds : LogInBounds n s.log

structure EndsWhole (n : Nat) (ended : Polling δ × Except Failure Unit) : Prop where
  bounds : LogInBounds n ended.1.log
  defined : ∀ access, ended.2 ≠ .error (.undefined access)
  whole : ended.2 = .ok () → ended.1.tot = n

theorem blocking_turn {fn : PollFn} (blocking : fn.stopsShort = false) {driver : CqDriver δ}
    (steady : driver.Steady) {n : Nat} (int : n < 2 ^ 31) {s : Polling δ} (inv : Blocking fn n s) :
    (fn.turn driver n s).Holds (Blocking fn n) (EndsWhole n) := by
  -- Both loops ask for what is left, at most a buffer of it.
  have asks : fn.request n s.tot = min (n - s.tot) kMaxPollCq := by
    cases fn <;> simp [PollFn.stopsShort] at blocking <;> rfl
  have left : fn.more n s.tot = true ↔ s.tot < n := by
    have most := inv.most
    cases fn <;> simp [PollFn.stopsShort] at blocking <;> simp [PollFn.more]
    omega
  have positive : (1 : Int) ≤ kMaxPollCq := by decide
  have most := inv.most
  have asked : fn.more n s.tot = true → 1 ≤ fn.request n s.tot ∧ fn.request n s.tot ≤ kMaxPollCq := by
    intro goes
    have := left.mp goes
    omega
  have fits : ∀ reply cq, driver.poll s.cq (fn.request n s.tot) = (reply, cq) →
      s.tot + reply.entries.length ≤ n := by
    intro reply cq answer
    have filled := driver.within s.cq (fn.request n s.tot)
    rw [answer, asks] at filled
    simp only at filled
    omega
  refine PollFn.turn_holds ?_ ?_ ?_ ?_
  · intro ends
    refine ⟨inv.bounds, by simp, fun _ => ?_⟩
    have stopped : ¬ s.tot < n := by
      rw [← left, ends]
      simp
    change s.tot = n
    omega
  · intro reply cq e goes answer refused
    refine ⟨inv.bounds.append ⟨asked goes, by simp⟩, fun access same => ?_, by simp⟩
    obtain rfl := Except.error.inj same
    have beyond := doPoll_undefined refused
    have filled := driver.within s.cq (fn.request n s.tot)
    have most := (asked goes).2
    simp only [answer] at filled
    omega
  · intro reply cq e goes answer accepted failed
    have length := steady.ret_of_answer answer
    obtain ⟨ret, tallied⟩ := (inv.accounted.tallying int length (fits reply cq answer)).2
    rw [tallied] at failed
    cases failed
  · intro reply cq ret goes answer accepted stored
    have length := steady.ret_of_answer answer
    have room := fits reply cq answer
    refine ⟨fun short => ?_, fun _ => ⟨inv.accounted.polled length accepted stored, ?_, ?_⟩⟩
    · rw [blocking] at short
      cases short.1
    · simp only [length]
      exact room
    · exact inv.bounds.append ⟨asked goes, (inv.accounted.tallying int length room).1⟩

theorem loop_blocking {fn : PollFn} (blocking : fn.stopsShort = false) {driver : CqDriver δ}
    (steady : driver.Steady) {n : Nat} (int : n < 2 ^ 31) (fuel : Nat) (cq : δ) :
    (iterate (fn.turn driver n) fuel (fn.start n cq)).Holds (fun s => LogInBounds n s.log)
      (EndsWhole n) := by
  have start : Blocking fn n (fn.start n cq) :=
    ⟨accounted_start fn n cq, Int.natCast_nonneg n, by simp [PollFn.start, LogInBounds]⟩
  exact (iterate_holds _ _ _ (fun s inv => blocking_turn blocking steady int inv) fuel start).imp
    (fun s inv => inv.bounds) (fun _ ended => ended)

end Rdmalib2
