import Rdmalib2.Cq.PollBounds
import Rdmalib2.Shared.Run

set_option autoImplicit false

/-!
# Completions in runs of calls

Calls of the four members in any order, with completions arriving between the calls and
between the polls of one call.
-/

namespace Rdmalib2

open Shared

def PollReturn.reported (n : Nat) : PollReturn → Int
  | .done => n
  | .count tot => tot
  | .cqes ret => ret.length

/-- What a call returns is what it removed from the queue: as many completions as it reports,
in order, all successful, and as many as it was asked for unless an answer came short. -/
structure Accounts (fn : PollFn) (n : Nat) (before : Fifo) (polled : Polled Fifo)
    (ret : PollReturn) : Prop where
  kept : before.arrived <+: polled.cq.arrived
  removed : ∃ completions, polled.cq.removed = before.removed ++ completions ∧
    ret.reported n = completions.length ∧ Successful completions ∧
    ∀ cqes, ret = .cqes cqes → cqes = completions.map RdmaSuccessCqe.ofWc
  most : ret.reported n ≤ n
  whole : fn.stopsShort = false → ret.reported n = n
  short : ret.reported n < n → CameShort polled.log

/-- A call that exits the process or has not returned owes nothing; one whose behaviour is
undefined is not sound. -/
def CallSound (fn : PollFn) (n : Nat) (before : Fifo) (polled : Polled Fifo) : Prop :=
  match polled.result with
  | none => True
  | some (.error (.undefined _)) => False
  | some (.error _) => True
  | some (.ok ret) => Accounts fn n before polled ret

/-! ## One call -/

variable {schedule : Nat → List IbvWc × Nat} {fn : PollFn} {n : Nat} {cq : Fifo}

structure Drained (before : Fifo) (s : Polling Fifo) : Prop where
  kept : before.arrived <+: s.cq.arrived
  removed : s.cq.removed = before.removed ++ taken s.log

theorem Drained.polled {before : Fifo} {s : Polling Fifo} (drained : Drained before s) {k : Int}
    {reply : PollReply} {next : Fifo} (answer : (Fifo.driver schedule).poll s.cq k = (reply, next))
    {tot : Int} {ret : List RdmaSuccessCqe} {stores : List Int} :
    Drained before { cq := next, tot, ret, log := s.log ++ [{ request := k, reply, stores }] } := by
  have removes := Fifo.driver_removed schedule s.cq k
  have grows : ((Fifo.driver schedule).poll s.cq k).2.arrived =
      s.cq.arrived ++ (schedule s.cq.polls).1 := rfl
  rw [answer] at removes grows
  constructor
  · rw [grows]
    exact drained.kept.trans (List.prefix_append ..)
  · rw [removes, drained.removed, taken_append, List.append_assoc]

theorem loop_drained (schedule : Nat → List IbvWc × Nat) (fn : PollFn) (n : Nat) (cq : Fifo)
    (fuel : Nat) :
    (iterate (fn.turn (Fifo.driver schedule) n) fuel (fn.start n cq)).Holds (Drained cq)
      (fun ended => Drained cq ended.1) := by
  have start : Drained cq (fn.start n cq) := ⟨List.prefix_rfl, (List.append_nil _).symm⟩
  refine iterate_holds _ _ _ (fun s drained => ?_) fuel start
  refine PollFn.turn_holds (fun _ => drained) ?_ ?_ ?_
  · exact fun _ _ _ _ answer _ => drained.polled answer
  · exact fun _ _ _ _ answer _ _ => drained.polled answer
  · exact fun _ _ _ _ answer _ _ => ⟨fun _ => drained.polled answer, fun _ => drained.polled answer⟩

theorem finish_accounted {δ : Type} {s : Polling δ} (accounted : Accounted fn n s)
    (whole : fn.stopsShort = false → s.tot = n) :
    ∃ ret, fn.finish s = .ok ret ∧ ret.reported n = (taken s.log).length ∧
      ∀ cqes, ret = .cqes cqes → cqes = (taken s.log).map RdmaSuccessCqe.ofWc := by
  have tot := accounted.tot
  cases fn with
  | poll => exact ⟨.done, rfl, (whole rfl).symm.trans tot, nofun⟩
  | tryPoll => exact ⟨.count s.tot, rfl, tot, nofun⟩
  | pollWithWc =>
    have size := accounted.size rfl
    have images := accounted.ret rfl
    have all := whole rfl
    rw [List.take_of_length_le (by omega)] at images
    refine ⟨.cqes s.ret, rfl, ?_, ?_⟩
    · simp only [PollReturn.reported]
      omega
    · rintro cqes ⟨⟩
      exact images
  | tryPollWithWc =>
    have size := accounted.size rfl
    have room := accounted.room rfl
    have images := accounted.ret rfl
    have finished : PollFn.finish .tryPollWithWc s =
        .ok (.cqes ((taken s.log).map RdmaSuccessCqe.ofWc)) := by
      have excess : (taken s.log).length - s.ret.length = 0 := by omega
      rw [PollFn.finish, if_neg (by omega), tot, Int.toNat_natCast, images, excess]
      simp
    refine ⟨_, finished, ?_, ?_⟩
    · simp [PollReturn.reported]
    · rintro cqes ⟨⟩
      rfl

theorem accounts_of_done {s : Polling Fifo} (accounted : Accounted fn n s) (drained : Drained cq s)
    (whole : fn.stopsShort = false → s.tot = n) (most : s.tot ≤ n)
    (short : s.tot < n → CameShort s.log) : CallSound fn n cq (fn.ended (.done (s, .ok ()))) := by
  obtain ⟨ret, finished, reported, images⟩ := finish_accounted accounted whole
  have tot : s.tot = ret.reported n := accounted.tot.trans reported.symm
  simp only [CallSound, PollFn.ended, finished]
  exact ⟨drained.kept, ⟨taken s.log, drained.removed, reported, accounted.success, images⟩,
    tot ▸ most, fun blocks => tot ▸ whole blocks, tot ▸ short⟩

theorem sound_of_error {s : Polling Fifo} {e : Failure}
    (defined : ∀ access, (.error e : Except Failure Unit) ≠ .error (.undefined access)) :
    CallSound fn n cq (fn.ended (.done (s, .error e))) := by
  cases e with
  | undefined access => exact absurd rfl (defined access)
  | panic | panicWithErrno | uncaught => exact trivial

theorem sound_of_blocking (blocks : fn.stopsShort = false) (int : n < 2 ^ 31) (fuel : Nat) :
    CallSound fn n cq (fn.call (Fifo.driver schedule) fuel n cq) := by
  have steady := Fifo.driver_steady schedule
  have accounted := loop_accounted fn steady n (fn.turns fuel n) cq
  have whole := loop_blocking blocks steady int (fn.turns fuel n) cq
  have drained := loop_drained schedule fn n cq (fn.turns fuel n)
  rw [PollFn.call_eq]
  generalize iterate (fn.turn (Fifo.driver schedule) n) (fn.turns fuel n) (fn.start n cq) = ended
    at accounted whole drained ⊢
  rcases ended with s | ⟨s, e | ⟨⟩⟩
  · exact trivial
  · exact sound_of_error (EndsWhole.defined whole)
  · have tot := EndsWhole.whole whole rfl
    exact accounts_of_done (accounted rfl) drained (fun _ => tot) tot.le
      fun less => absurd tot less.ne

theorem sound_of_spared (stops : fn.stopsShort = true) (int : n < 2 ^ 31)
    (spared : ¬ (Fifo.driver schedule).Exceeds (fn.request n 0) n cq) (fuel : Nat) :
    CallSound fn n cq (fn.call (Fifo.driver schedule) fuel n cq) := by
  have steady := Fifo.driver_steady schedule
  have accounted := loop_accounted fn steady n (fn.turns fuel n) cq
  have well := PollFn.loop_along stops steady int spared (fn.turns fuel n)
  have drained := loop_drained schedule fn n cq (fn.turns fuel n)
  rw [PollFn.call_eq]
  generalize iterate (fn.turn (Fifo.driver schedule) n) (fn.turns fuel n) (fn.start n cq) = ended
    at accounted well drained ⊢
  rcases ended with s | ⟨s, e | ⟨⟩⟩
  · exact trivial
  · exact sound_of_error (PollFn.EndsWell.defined well)
  · refine accounts_of_done (accounted rfl) drained (fun blocks => ?_)
      (PollFn.EndsWell.most well rfl) (PollFn.EndsWell.short well rfl)
    rw [stops] at blocks
    cases blocks

theorem not_sound_of_exceeds (stops : fn.stopsShort = true) (int : n < 2 ^ 31)
    (exceeds : (Fifo.driver schedule).Exceeds (fn.request n 0) n cq) (fuel : Nat) :
    ¬ CallSound fn n cq (fn.call (Fifo.driver schedule) fuel n cq) := by
  obtain ⟨⟨s, result⟩, reached, spoiled⟩ :=
    PollFn.exceeds_spoils stops int exceeds
  rw [PollFn.call_eq, PollFn.turns, if_pos stops, Int.toNat_natCast, reached]
  rcases spoiled with ⟨plain, rfl, surplus⟩ | ⟨access, rfl, -⟩
  · intro sound
    cases fn <;> simp [PollFn.stopsShort, PollFn.stores] at stops plain
    have most := Accounts.most sound
    exact absurd surplus (not_lt_of_ge most)
  · exact id

theorem callSound_iff (int : n < 2 ^ 31) (fuel : Nat) :
    CallSound fn n cq (fn.call (Fifo.driver schedule) fuel n cq) ↔
      (fn.stopsShort = true → ¬ (Fifo.driver schedule).Exceeds (fn.request n 0) n cq) := by
  cases stops : fn.stopsShort with
  | false => simpa using sound_of_blocking stops int fuel
  | true =>
    constructor
    · intro sound _ exceeds
      exact not_sound_of_exceeds stops int exceeds fuel sound
    · intro spared
      exact sound_of_spared stops int (spared rfl) fuel

/-! ## Runs -/

inductive CqEvent where
  | arrive (entries : List IbvWc)
  | call (fn : PollFn) (n : NumEntries) (fuel : Nat)
  deriving DecidableEq, Repr

-- A run ends with a call that does not return.
def Fifo.step (schedule : Nat → List IbvWc × Nat) (cq : Fifo) :
    CqEvent → Except (Option Failure) Fifo
  | .arrive entries => .ok (cq.arrive entries)
  | .call fn n fuel =>
      let polled := fn.call (Fifo.driver schedule) fuel n cq
      match polled.result with
      | none => .error none
      | some (.error e) => .error (some e)
      | some (.ok _) => .ok polled.cq

def CqEvent.Sound (schedule : Nat → List IbvWc × Nat) (cq : Fifo) : CqEvent → Prop
  | .arrive _ => True
  | .call fn n fuel => CallSound fn n cq (fn.call (Fifo.driver schedule) fuel n cq)

-- No non-blocking call meets an answer that goes over.
def CqEvent.Spared (schedule : Nat → List IbvWc × Nat) (cq : Fifo) : CqEvent → Prop
  | .arrive _ => True
  | .call fn n _ =>
      fn.stopsShort = true → ¬ (Fifo.driver schedule).Exceeds (fn.request n 0) n cq

/-- In every run, every call accounts for the completions it removes exactly when no
non-blocking call meets an answer that goes over. -/
theorem completions_accounted_iff (schedule : Nat → List IbvWc × Nat) (events : List CqEvent)
    (cq : Fifo) :
    Always (Fifo.step schedule) (CqEvent.Sound schedule) cq events ↔
      Always (Fifo.step schedule) (CqEvent.Spared schedule) cq events := by
  refine always_congr (Fifo.step schedule) (fun _ => True) _ _ ?_ (fun _ _ _ _ _ _ => trivial)
    events trivial
  intro cq event _
  cases event with
  | arrive entries => exact Iff.rfl
  | call fn n fuel => exact callSound_iff n.isLt fuel

def halves : Nat → List IbvWc × Nat := fun _ => ([], 32)

-- A driver that answers with 32 at a time gives out all 64 to a call for 33.
theorem try_poll_overconsumes :
    (PollFn.call .tryPoll (Fifo.driver halves) 0 33 backlog).result = some (.ok (.count 64)) ∧
      ¬ Always (Fifo.step halves) (CqEvent.Sound halves) backlog [.call .tryPoll 33 0] := by
  refine ⟨rfl, fun all => ?_⟩
  have exceeds : (Fifo.driver halves).Exceeds (PollFn.request .tryPoll (33 : Nat) 0) 33 backlog :=
    ⟨1, by decide, by decide, .inr (by decide)⟩
  exact not_sound_of_exceeds rfl (by decide) exceeds 0 all.1

end Rdmalib2
