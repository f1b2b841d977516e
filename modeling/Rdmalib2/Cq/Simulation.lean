import Rdmalib2.Cq.PollBounds

set_option autoImplicit false

/-!
# Drivers that cannot be told apart

A polling member sees of a driver only its answers, so drivers that keep giving the same answers
make every call end the same way.
-/

namespace Rdmalib2

open Shared

variable {δ δ' : Type}

/-- Related states of two drivers give the same answer and stay related. -/
structure CqDriver.Simulates (driver : CqDriver δ) (driver' : CqDriver δ') (rel : δ → δ' → Prop) :
    Prop where
  reply : ∀ {cq cq'}, rel cq cq' → ∀ k, (driver.poll cq k).1 = (driver'.poll cq' k).1
  next : ∀ {cq cq'}, rel cq cq' → ∀ k, rel (driver.poll cq k).2 (driver'.poll cq' k).2

-- Two calls that have got equally far on related queues.
structure Polling.Alike (rel : δ → δ' → Prop) (s : Polling δ) (s' : Polling δ') : Prop where
  cq : rel s.cq s'.cq
  tot : s.tot = s'.tot
  ret : s.ret = s'.ret
  log : s.log = s'.log

structure Polled.Alike (rel : δ → δ' → Prop) (polled : Polled δ) (polled' : Polled δ') : Prop where
  cq : rel polled.cq polled'.cq
  log : polled.log = polled'.log
  result : polled.result = polled'.result

namespace PollFn

variable {fn : PollFn} {driver : CqDriver δ} {driver' : CqDriver δ'} {rel : δ → δ' → Prop}
  {numEntries : Int}

theorem tallying_alike {s : Polling δ} {s' : Polling δ'} (alike : s.Alike rel s')
    (reply : PollReply) : fn.tallying numEntries s reply = fn.tallying numEntries s' reply := by
  simp only [tallying, storing, alike.tot, alike.ret]

theorem turn_alike (simulates : driver.Simulates driver' rel) {s : Polling δ} {s' : Polling δ'}
    (alike : s.Alike rel s') :
    Turn.Related (Polling.Alike rel)
      (fun ended ended' => ended.1.Alike rel ended'.1 ∧ ended.2 = ended'.2)
      (fn.turn driver numEntries s) (fn.turn driver' numEntries s') := by
  have tot := alike.tot
  have log := alike.log
  by_cases goes : fn.more numEntries s.tot = true
  · have same := simulates.reply alike.cq (fn.request numEntries s.tot)
    have later := simulates.next alike.cq (fn.request numEntries s.tot)
    obtain ⟨⟨reply, cq⟩, answer⟩ : ∃ answer, driver.poll s.cq (fn.request numEntries s.tot) = answer :=
      ⟨_, rfl⟩
    obtain ⟨⟨reply', cq'⟩, answer'⟩ :
        ∃ answer, driver'.poll s'.cq (fn.request numEntries s.tot) = answer := ⟨_, rfl⟩
    rw [answer, answer'] at same later
    obtain rfl : reply = reply' := same
    simp only [turn, goes, if_true, ← tot, ← log, answer, answer', ← tallying_alike alike]
    cases doPoll reply with
    | error e => exact .done ⟨⟨later, rfl, alike.ret, rfl⟩, rfl⟩
    | ok n =>
      cases (fn.tallying numEntries s reply).2 with
      | error e => exact .done ⟨⟨later, rfl, alike.ret, rfl⟩, rfl⟩
      | ok ret =>
        by_cases short : fn.stopsShort = true ∧ n < fn.entriesToPoll numEntries s.tot
        · simp only [short, and_self, if_true]
          exact .done ⟨⟨later, rfl, rfl, rfl⟩, rfl⟩
        · simp only [short, if_false]
          exact .again ⟨later, rfl, rfl, rfl⟩
  · rw [turn, turn, if_neg goes, if_neg (tot ▸ goes)]
    exact .done ⟨alike, rfl⟩

theorem start_alike {cq : δ} {cq' : δ'} (related : rel cq cq') :
    (fn.start numEntries cq).Alike rel (fn.start numEntries cq') := ⟨related, rfl, rfl, rfl⟩

theorem finish_alike {s : Polling δ} {s' : Polling δ'} (alike : s.Alike rel s') :
    fn.finish s = fn.finish s' := by
  cases fn <;> simp only [finish, alike.tot, alike.ret]

theorem ended_alike {last : Turn (Polling δ) (Polling δ × Except Failure Unit)}
    {last' : Turn (Polling δ') (Polling δ' × Except Failure Unit)}
    (related : Turn.Related (Polling.Alike rel)
      (fun ended ended' => ended.1.Alike rel ended'.1 ∧ ended.2 = ended'.2) last last') :
    (fn.ended last).Alike rel (fn.ended last') := by
  cases related with
  | again alike => exact ⟨alike.cq, alike.log, rfl⟩
  | @done ended ended' both =>
    obtain ⟨s, result⟩ := ended
    obtain ⟨s', result'⟩ := ended'
    obtain ⟨alike, rfl⟩ := both
    cases result with
    | error e => exact ⟨alike.cq, alike.log, rfl⟩
    | ok => exact ⟨alike.cq, alike.log, congrArg some (finish_alike alike)⟩

/-- Calls on drivers that cannot be told apart poll alike and end alike. -/
theorem call_alike (simulates : driver.Simulates driver' rel) (fn : PollFn) (fuel : Nat)
    (numEntries : Int) {cq : δ} {cq' : δ'} (related : rel cq cq') :
    (fn.call driver fuel numEntries cq).Alike rel (fn.call driver' fuel numEntries cq') := by
  unfold call
  split
  next => exact ⟨related, rfl, rfl⟩
  next =>
    exact ended_alike (iterate_related _ _ _ _ (fun _ _ alike => turn_alike simulates alike)
      (fn.turns fuel numEntries) (start_alike related))

end PollFn

end Rdmalib2
