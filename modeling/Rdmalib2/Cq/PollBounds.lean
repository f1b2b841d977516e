import Rdmalib2.Cq.Answers
import Rdmalib2.Cq.Fifo

set_option autoImplicit false

/-!
# Poll buffers

Every request fits the local buffer and every store the result vector, except where the
non-blocking members compute a batch from the wrong amount.
-/

namespace Rdmalib2

open Shared

namespace PollFn

variable {δ : Type}

theorem call_eq (fn : PollFn) (driver : CqDriver δ) (fuel n : Nat) (cq : δ) :
    fn.call driver fuel n cq =
      fn.ended (iterate (fn.turn driver n) (fn.turns fuel n) (fn.start n cq)) := by
  rw [call, if_neg]
  rintro ⟨-, negative⟩
  omega

theorem ended_log (fn : PollFn) {ended : Turn (Polling δ) (Polling δ × Except Failure Unit)}
    {p : List PollTurn → Prop} (holds : ended.Holds (fun s => p s.log) fun result => p result.1.log) :
    p (fn.ended ended).log := by
  rcases ended with s | ⟨s, e | ⟨⟩⟩ <;> exact holds

/-- No poll asks for nothing or for more than the buffer, and no result is stored outside of
the vector, at any point of the call. -/
def InBounds (fn : PollFn) (driver : CqDriver δ) (n : Nat) (cq : δ) : Prop :=
  ∀ fuel, LogInBounds n (fn.call driver fuel n cq).log

def Spared (fn : PollFn) (driver : CqDriver δ) (n : Nat) (cq : δ) : Prop :=
  match fn with
  | .poll | .pollWithWc => True
  | .tryPoll => n ≤ kMaxPollCq
  | .tryPollWithWc => ¬ driver.Exceeds (min n kMaxPollCq) n cq

theorem not_exceeds_of_small (driver : CqDriver δ) {k : Int} {n : Nat} (asks : k ≤ n)
    (small : n ≤ kMaxPollCq) (cq : δ) : ¬ driver.Exceeds k n cq := by
  rintro ⟨j, -, left, surplus⟩
  have filled := driver.within (driver.after k cq j) k
  change (driver.answer k cq j).entries.length ≤ k.toNat at filled
  obtain rfl : j = 0 := by
    by_contra later
    have := Nat.le_mul_of_pos_right kMaxPollCq (Nat.pos_of_ne_zero later)
    omega
  rcases surplus with many | ⟨more, -⟩ <;> omega

/-! ## A request stays in the log -/

theorem turn_keeps_log (fn : PollFn) (driver : CqDriver δ) (n : Int) {s : Polling δ}
    {turn : PollTurn} (logged : turn ∈ s.log) :
    (fn.turn driver n s).Holds (fun next => turn ∈ next.log) (fun ended => turn ∈ ended.1.log) := by
  refine turn_holds (fun _ => logged) ?_ ?_ ?_
  · exact fun _ _ _ _ _ _ => List.mem_append_left _ logged
  · exact fun _ _ _ _ _ _ _ => List.mem_append_left _ logged
  · exact fun _ _ _ _ _ _ _ => ⟨fun _ => List.mem_append_left _ logged,
      fun _ => List.mem_append_left _ logged⟩

theorem turn_logs (fn : PollFn) (driver : CqDriver δ) (n : Int) {s : Polling δ}
    (goes : fn.more n s.tot = true) :
    (fn.turn driver n s).Holds
      (fun next => ∃ turn ∈ next.log, turn.request = fn.request n s.tot)
      (fun ended => ∃ turn ∈ ended.1.log, turn.request = fn.request n s.tot) := by
  have last {turn : PollTurn} : turn ∈ s.log ++ [turn] :=
    List.mem_append_right _ (List.mem_singleton_self turn)
  refine turn_holds ?_ ?_ ?_ ?_
  · intro ends
    rw [goes] at ends
    cases ends
  · exact fun _ _ _ _ _ _ => ⟨_, last, rfl⟩
  · exact fun _ _ _ _ _ _ _ => ⟨_, last, rfl⟩
  · exact fun _ _ _ _ _ _ _ => ⟨fun _ => ⟨_, last, rfl⟩, fun _ => ⟨_, last, rfl⟩⟩

theorem call_logs (fn : PollFn) (driver : CqDriver δ) {n : Nat} (fuel : Nat) (cq : δ)
    (stops : fn.stopsShort = true) (some : 0 < n) :
    ∃ turn ∈ (fn.call driver fuel n cq).log, turn.request = fn.request n 0 := by
  have first := turn_logs fn driver n (s := fn.start n cq)
    ((more_iff stops n _).mpr (by change (0 : Int) < n; omega))
  rw [call_eq, turns, if_pos stops]
  refine ended_log fn (p := fun log => ∃ turn ∈ log, turn.request = fn.request n 0) ?_
  cases taken : fn.turn driver n (fn.start n cq) with
  | done ended =>
    rw [taken] at first
    rw [iterate_done _ _ taken]
    exact first
  | again next =>
    rw [taken] at first
    rw [iterate_again _ _ taken]
    obtain ⟨turn, logged, asked⟩ := first
    exact (iterate_holds _ _ _ (fun s kept => turn_keeps_log fn driver n kept) _ logged).imp
      (fun s kept => ⟨turn, kept, asked⟩) (fun ended kept => ⟨turn, kept, asked⟩)

theorem inBounds_of_spared (fn : PollFn) (stops : fn.stopsShort = true) {driver : CqDriver δ}
    (steady : driver.Steady) {n : Nat} (int : n < 2 ^ 31) {cq : δ} (asks : fn.request n 0 ≤ kMaxPollCq)
    (spared : ¬ driver.Exceeds (fn.request n 0) n cq) : fn.InBounds driver n cq := by
  intro fuel
  rw [call_eq]
  refine ended_log _ ((loop_along stops steady int spared _).imp ?_ ?_)
  · rintro s (bounds | large)
    · exact bounds
    · exact absurd asks large
  · exact fun _ ended => ended.bounds asks

theorem not_inBounds_of_exceeds (fn : PollFn) (stops : fn.stopsShort = true)
    (stores : fn.stores = true) {driver : CqDriver δ} {n : Nat} (int : n < 2 ^ 31) {cq : δ}
    (exceeds : driver.Exceeds (fn.request n 0) n cq) : ¬ fn.InBounds driver n cq := by
  intro bounds
  obtain ⟨ended, reached, spoiled⟩ := exceeds_spoils stops int exceeds
  have logged := bounds 0
  rw [call_eq, turns, if_pos stops, Int.toNat_natCast, reached] at logged
  rcases spoiled with ⟨plain, -⟩ | ⟨access, failed, outside⟩
  · rw [stores] at plain
    cases plain
  · refine outside stores ?_
    rcases ended with ⟨s, e | ⟨⟩⟩ <;> exact logged

end PollFn

/-- On a driver that fills in at most what it is asked for, a polling call keeps to its buffers
exactly when it blocks, or asks for no more than one buffer without a vector, or no answer goes
over what is left of the vector. -/
theorem poll_buffers_iff {δ : Type} (fn : PollFn) {driver : CqDriver δ} (steady : driver.Steady)
    (n : NumEntries) (cq : δ) : fn.InBounds driver n cq ↔ fn.Spared driver n cq := by
  cases fn with
  | poll | pollWithWc =>
    simp only [PollFn.Spared, iff_true]
    intro fuel
    rw [PollFn.call_eq]
    exact PollFn.ended_log _ ((loop_blocking rfl steady n.isLt _ cq).imp (fun _ bounds => bounds)
      fun _ ended => ended.bounds)
  | tryPoll =>
    constructor
    · intro bounds
      simp only [PollFn.Spared]
      by_contra large
      obtain ⟨turn, logged, asked⟩ := PollFn.call_logs .tryPoll driver (n := n) 0 cq rfl (by omega)
      have fits := (bounds 0 turn logged).1.2
      rw [asked] at fits
      simp only [PollFn.request] at fits
      omega
    · intro small
      exact PollFn.inBounds_of_spared .tryPoll rfl steady n.isLt (Int.ofNat_le.mpr small)
        (PollFn.not_exceeds_of_small driver le_rfl small cq)
  | tryPollWithWc =>
    constructor
    · intro bounds exceeds
      exact PollFn.not_inBounds_of_exceeds .tryPollWithWc rfl rfl n.isLt exceeds bounds
    · intro spared
      exact PollFn.inBounds_of_spared .tryPollWithWc rfl steady n.isLt
        (PollFn.request_of_stores rfl rfl n 0) spared

/-! ## A long backlog -/

def quiet : Nat → List IbvWc × Nat := fun _ => ([], 64)

def backlog : Fifo where
  arrived := List.replicate 64 { wrId := 0, opcode := 128, byteLen := 8, immData := 0 }
  head := 0
  within := Nat.zero_le _

theorem poll_forty_inBounds : PollFn.InBounds .poll (Fifo.driver quiet) 40 backlog :=
  (poll_buffers_iff .poll (Fifo.driver_steady quiet) 40 backlog).mpr trivial

-- One member asks for 33 entries at once, the other stores a second batch of 32 into one place.
theorem try_thirty_three_overruns :
    ¬ PollFn.InBounds .tryPoll (Fifo.driver quiet) 33 backlog ∧
      ¬ PollFn.InBounds .tryPollWithWc (Fifo.driver quiet) 33 backlog := by
  constructor
  · intro bounds
    obtain ⟨turn, logged, asked⟩ :=
      PollFn.call_logs .tryPoll (Fifo.driver quiet) 0 backlog rfl (n := 33) (by decide)
    have fits := (bounds 0 turn logged).1.2
    rw [asked] at fits
    exact absurd fits (by decide)
  · exact PollFn.not_inBounds_of_exceeds .tryPollWithWc rfl rfl (by decide)
      ⟨1, by decide, by decide, .inr (by decide)⟩

end Rdmalib2
