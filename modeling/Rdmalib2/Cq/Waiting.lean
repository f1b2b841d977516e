import Rdmalib2.Cq.Taking

set_option autoImplicit false

/-!
# How long the blocking members wait

A blocking member polls until it has all it wants. Whether it ever has does not depend on how the
driver splits its answers, as long as it keeps giving answers that are not empty.
-/

namespace Rdmalib2

open Shared

-- What has arrived once the queue has been polled so often.
def Fifo.arrivals (schedule : Nat → List IbvWc × Nat) (cq : Fifo) (polls : Nat) : List IbvWc :=
  cq.arrived ++ (List.range polls).flatMap fun i => (schedule (cq.polls + i)).1

-- The completion that comes `index` places behind the ones already given out.
def Fifo.Comes (schedule : Nat → List IbvWc × Nat) (cq : Fifo) (index : Nat) (wc : IbvWc) : Prop :=
  ∃ polls, (cq.arrivals schedule polls)[cq.head + index]? = some wc

-- The driver does not limit its answers to nothing forever.
def Fair (schedule : Nat → List IbvWc × Nat) : Prop :=
  ∀ polls, ∃ later, polls ≤ later ∧ 0 < (schedule later).2

namespace Fifo

variable {schedule : Nat → List IbvWc × Nat} {cq : Fifo}

theorem arrivals_succ (schedule : Nat → List IbvWc × Nat) (cq : Fifo) (polls : Nat) :
    cq.arrivals schedule (polls + 1) =
      cq.arrivals schedule polls ++ (schedule (cq.polls + polls)).1 := by
  simp [arrivals, List.range_succ]

theorem arrivals_mono {polls later : Nat} (after : polls ≤ later) :
    cq.arrivals schedule polls <+: cq.arrivals schedule later := by
  induction later, after using Nat.le_induction with
  | base => exact List.prefix_rfl
  | succ later _ ih =>
    rw [arrivals_succ]
    exact ih.trans (List.prefix_append ..)

theorem getElem?_of_prefix {α : Type} {first whole : List α} (before : first <+: whole) {i : Nat}
    {value : α} (found : first[i]? = some value) : whole[i]? = some value := by
  obtain ⟨rest, rfl⟩ := before
  have inside : i < first.length := (List.getElem?_eq_some_iff.mp found).1
  rw [List.getElem?_append_left inside, found]

-- A place in the queue is taken once.
theorem Comes.unique {index : Nat} {wc other : IbvWc} (comes : cq.Comes schedule index wc)
    (also : cq.Comes schedule index other) : wc = other := by
  obtain ⟨polls, found⟩ := comes
  obtain ⟨polls', found'⟩ := also
  have one := getElem?_of_prefix (arrivals_mono (Nat.le_max_left polls polls')) found
  have two := getElem?_of_prefix (arrivals_mono (Nat.le_max_right polls polls')) found'
  exact Option.some.inj (one.symm.trans two)

-- There is a number of polls by which a completion has come, and all before it.
theorem Comes.within {index : Nat} {wc : IbvWc} (comes : cq.Comes schedule index wc) :
    ∃ polls, ∀ later, polls ≤ later → cq.head + index < (cq.arrivals schedule later).length := by
  obtain ⟨polls, found⟩ := comes
  refine ⟨polls, fun later after => ?_⟩
  have inside := (List.getElem?_eq_some_iff.mp found).1
  exact lt_of_lt_of_le inside (arrivals_mono after).length_le

end Fifo

/-! ## One turn -/

-- Where a call for `n` completions has got to when it goes on after this many turns.
structure Waited (schedule : Nat → List IbvWc × Nat) (fn : PollFn) (n : Nat) (cq : Fifo)
    (turns : Nat) (s : Polling Fifo) : Prop where
  polls : s.cq.polls = cq.polls + turns
  arrived : s.cq.arrived = cq.arrivals schedule turns
  head : (s.cq.head : Int) = cq.head + s.tot
  start : 0 ≤ s.tot
  most : s.tot ≤ n
  size : fn.stores = true → s.ret.length = n
  success : ∀ index : Nat, (index : Int) < s.tot →
    ∃ wc, cq.Comes schedule index wc ∧ wc.status = .success

/-- A call that ends has had `n` successful completions come, or one of the first `n` that come is
not. -/
structure Fate (schedule : Nat → List IbvWc × Nat) (n : Nat) (cq : Fifo)
    (ended : Polling Fifo × Except Failure Unit) : Prop where
  returns : ended.2 = .ok () →
    ∀ index < n, ∃ wc, cq.Comes schedule index wc ∧ wc.status = .success
  exits : ∀ e, ended.2 = .error e →
    ∃ index < n, ∃ wc, cq.Comes schedule index wc ∧ wc.status ≠ .success

section turns

variable {schedule : Nat → List IbvWc × Nat} {fn : PollFn} {n : Nat} {cq : Fifo} {turns : Nat}
  {s : Polling Fifo}

theorem waited_start (schedule : Nat → List IbvWc × Nat) (fn : PollFn) (n : Nat) (cq : Fifo) :
    Waited schedule fn n cq 0 (fn.start n cq) := by
  refine ⟨rfl, by simp [PollFn.start, Fifo.arrivals], by simp [PollFn.start], le_rfl, ?_, ?_, ?_⟩
  · simp [PollFn.start]
  · intro stores
    simp [PollFn.start, stores]
  · intro index below
    simp only [PollFn.start] at below
    omega

-- An answer gives out some of what has arrived and was not given out.
structure Served (schedule : Nat → List IbvWc × Nat) (cq : Fifo) (turns : Nat) (s : Polling Fifo)
    (k : Int) (entries : List IbvWc) (next : Fifo) : Prop where
  length : entries.length =
    min (min (schedule (cq.polls + turns)).2 k.toNat)
      ((cq.arrivals schedule (turns + 1)).length - s.cq.head)
  places : ∀ i wc, entries[i]? = some wc →
    (cq.arrivals schedule (turns + 1))[s.cq.head + i]? = some wc
  polls : next.polls = cq.polls + (turns + 1)
  arrived : next.arrived = cq.arrivals schedule (turns + 1)
  head : next.head = s.cq.head + entries.length

theorem Waited.served (waited : Waited schedule fn n cq turns s) (k : Int) :
    ∃ entries next, (Fifo.driver schedule).poll s.cq k = (.completed entries, next) ∧
      Served schedule cq turns s k entries next := by
  have arrived : (s.cq.arrive (schedule s.cq.polls).1).arrived =
      cq.arrivals schedule (turns + 1) := by
    rw [Fifo.arrivals_succ, ← waited.arrived, ← waited.polls]
    rfl
  have within : s.cq.head ≤ (cq.arrivals schedule (turns + 1)).length := by
    rw [← arrived]
    exact (s.cq.arrive (schedule s.cq.polls).1).within
  have length : ((s.cq.arrive (schedule s.cq.polls).1).queue.take
        (min (schedule s.cq.polls).2 k.toNat)).length =
      min (min (schedule (cq.polls + turns)).2 k.toNat)
        ((cq.arrivals schedule (turns + 1)).length - s.cq.head) := by
    rw [List.length_take, Fifo.queue, List.length_drop, arrived, waited.polls]
    rfl
  refine ⟨(s.cq.arrive (schedule s.cq.polls).1).queue.take (min (schedule s.cq.polls).2 k.toNat),
    (s.cq.arrive (schedule s.cq.polls).1).remove (min (schedule s.cq.polls).2 k.toNat), rfl, length,
    ?_, ?_, arrived, ?_⟩
  · intro i wc found
    have inside := (List.getElem?_eq_some_iff.mp found).1
    rw [List.length_take] at inside
    rw [List.getElem?_take_of_lt (by omega), Fifo.queue, List.getElem?_drop, arrived] at found
    exact found
  · change s.cq.polls + 1 = _
    rw [waited.polls]
    omega
  · rw [length]
    change min (s.cq.head + _) (s.cq.arrive (schedule s.cq.polls).1).arrived.length = _
    rw [arrived, waited.polls]
    omega

-- The completion at a place of the answer is the one that comes that far behind.
theorem Served.comes (waited : Waited schedule fn n cq turns s) {k : Int} {entries : List IbvWc}
    {next : Fifo} (served : Served schedule cq turns s k entries next) {i index : Nat} {wc : IbvWc}
    (found : entries[i]? = some wc) (place : (index : Int) = s.tot + i) :
    cq.Comes schedule index wc := by
  have head := waited.head
  have placed := served.places i wc found
  rw [show s.cq.head + i = cq.head + index by omega] at placed
  exact ⟨turns + 1, placed⟩

theorem blocking_turn_refused (blocks : fn.stopsShort = false) (most : s.tot ≤ n)
    (wanted : (n : Int) - s.tot ≠ 0) {reply : PollReply} {mid : Fifo}
    (answer : (Fifo.driver schedule).poll s.cq (min (n - s.tot) kMaxPollCq) = (reply, mid))
    (failing : ¬ Successful reply.entries) :
    ∃ last e, fn.turn (Fifo.driver schedule) n s = .done (last, .error e) := by
  have goes := (PollFn.blocking_more blocks most).mpr wanted
  cases refused : doPoll reply with
  | ok count => exact absurd (doPoll_ok.mp refused).2.2 failing
  | error e =>
    simp only [PollFn.turn, goes, if_true, PollFn.blocking_request blocks, answer, refused]
    exact ⟨_, e, rfl⟩

/-- What a turn does: it ends the call with its fate, or it goes on, and then it has made headway
if the driver let it have any of the completions that were there. -/
theorem Waited.turn (blocks : fn.stopsShort = false) (int : n < 2 ^ 31)
    (waited : Waited schedule fn n cq turns s) :
    (fn.turn (Fifo.driver schedule) n s).Holds
      (fun next => Waited schedule fn n cq (turns + 1) next ∧ s.tot ≤ next.tot ∧
        (0 < (schedule (cq.polls + turns)).2 →
          cq.head + s.tot < (cq.arrivals schedule (turns + 1)).length → s.tot < next.tot))
      (Fate schedule n cq) := by
  have start := waited.start
  have most := waited.most
  have head := waited.head
  by_cases whole : s.tot = n
  · rw [PollFn.blocking_turn_done blocks whole, Turn.holds_done]
    refine ⟨fun _ index below => waited.success index (by omega), fun e failed => ?_⟩
    cases failed
  · have wanted : (n : Int) - s.tot ≠ 0 := by omega
    obtain ⟨entries, next, answer, served⟩ := waited.served (min (n - s.tot) kMaxPollCq)
    have fits := PollFn.blocking_fits most answer
    have room : s.tot + entries.length ≤ n := fits.2
    by_cases success : Successful entries
    · -- The total is not negative, so that there is a place for every entry.
      have total : s.tot + PollReply.ret (.completed entries) = s.tot + entries.length := rfl
      obtain ⟨ret, tallied, length, -⟩ :=
        (PollFn.blocking_tallying blocks int most waited.size fits.2).resolve_right (by
          rintro ⟨⟨-, negative, -⟩ | large, -⟩ <;> omega)
      rw [PollFn.blocking_turn_again blocks most wanted answer success tallied, Turn.holds_again]
      have length' := served.length
      refine ⟨⟨served.polls, served.arrived, ?_, ?_, ?_, length, ?_⟩, ?_, ?_⟩
      · simp only [served.head, total]
        omega
      · simp only [total]
        omega
      · simp only [total]
        omega
      · intro index below
        simp only [total] at below
        by_cases before : (index : Int) < s.tot
        · exact waited.success index before
        · have inside : index - s.tot.toNat < entries.length := by omega
          have found := List.getElem?_eq_getElem inside
          exact ⟨_, served.comes waited found (by omega), success _ (List.getElem_mem inside)⟩
      · simp only [total]
        omega
      · intro some more
        simp only [total]
        unfold kMaxPollCq at length'
        omega
    · obtain ⟨last, e, failed⟩ := blocking_turn_refused blocks most wanted answer success
      rw [failed, Turn.holds_done]
      refine ⟨nofun, fun _ _ => ?_⟩
      obtain ⟨wc, listed, bad⟩ : ∃ wc ∈ entries, wc.status ≠ .success := by
        simpa [Successful] using success
      obtain ⟨i, inside, rfl⟩ := List.mem_iff_getElem.mp listed
      have found := List.getElem?_eq_getElem inside
      exact ⟨s.tot.toNat + i, by omega, _, served.comes waited found (by omega), bad⟩

end turns

/-! ## Calls -/

section calls

variable {schedule : Nat → List IbvWc × Nat} {fn : PollFn} {n : Nat} {cq : Fifo}

theorem loop_waited (blocks : fn.stopsShort = false) (int : n < 2 ^ 31) (fuel : Nat) :
    (iterate (fn.turn (Fifo.driver schedule) n) fuel (fn.start n cq)).Holds
      (fun s => ∃ turns, Waited schedule fn n cq turns s) (Fate schedule n cq) := by
  have held := iterate_holds_at (fn.turn (Fifo.driver schedule) n) (Waited schedule fn n cq)
    (Fate schedule n cq)
    (fun turns s waited => (waited.turn blocks int).imp (fun _ next => next.1) fun _ fate => fate)
    fuel (waited_start schedule fn n cq)
  exact held.imp (fun _ waited => ⟨_, waited⟩) fun _ fate => fate

/-- Enough completions for a goal come, and a call that goes on is short of the goal. -/
theorem blocking_ends (blocks : fn.stopsShort = false) (int : n < 2 ^ 31) (fair : Fair schedule) (goal : Nat)
    (enough : ∃ polls, ∀ later, polls ≤ later →
      cq.head + goal ≤ (cq.arrivals schedule later).length)
    (short : ∀ turns s, Waited schedule fn n cq turns s → s.tot < goal ∨ s.tot = n) :
    ∃ fuel ended, iterate (fn.turn (Fifo.driver schedule) n) fuel (fn.start n cq) = .done ended := by
  obtain ⟨polls, come⟩ := enough
  apply iterate_ends_fairly (fn.turn (Fifo.driver schedule) n) (Waited schedule fn n cq)
    (fun s => s.tot.toNat) n ?keeps ?climbs ?most (waited_start schedule fn n cq)
  case keeps =>
    intro turns s waited
    refine (waited.turn blocks int).imp (fun next after => ⟨after.1, ?_⟩) fun _ _ => trivial
    exact Int.toNat_le_toNat after.2.1
  case climbs =>
    intro turns
    obtain ⟨later, after, limit⟩ := fair (cq.polls + max turns polls)
    refine ⟨later - cq.polls, by omega, fun s waited => ?_⟩
    rcases short _ s waited with below | whole
    · have here : cq.polls + (later - cq.polls) = later := by omega
      have there := come (later - cq.polls + 1) (by omega)
      refine (waited.turn blocks int).imp (fun next after => ?_) fun _ _ => trivial
      have start := waited.start
      have further := after.2.2 (here.symm ▸ limit) (by omega)
      omega
    · rw [PollFn.blocking_turn_done blocks whole]
      trivial
  case most =>
    intro turns s waited
    have most := waited.most
    omega

theorem blocking_result (blocks : fn.stopsShort = false) {fuel : Nat} {s : Polling Fifo}
    {result : Except Failure Unit}
    (ran : iterate (fn.turn (Fifo.driver schedule) n) fuel (fn.start n cq) = .done (s, result)) :
    (fn.call (Fifo.driver schedule) fuel n cq).result = some (result >>= fun _ => fn.finish s) := by
  rw [PollFn.call_eq, PollFn.turns, if_neg (by simp [blocks]), ran]
  cases result <;> rfl

theorem blocking_finish (blocks : fn.stopsShort = false) (s : Polling Fifo) :
    ∃ ret, fn.finish s = .ok ret := by
  cases fn with
  | poll | pollWithWc => exact ⟨_, rfl⟩
  | tryPoll | tryPollWithWc => cases blocks

theorem blocking_unended (blocks : fn.stopsShort = false) {fuel : Nat} {s : Polling Fifo}
    (ran : iterate (fn.turn (Fifo.driver schedule) n) fuel (fn.start n cq) = .again s) :
    (fn.call (Fifo.driver schedule) fuel n cq).result = none := by
  rw [PollFn.call_eq, PollFn.turns, if_neg (by simp [blocks]), ran]
  rfl

-- How a call ended tells what came.
theorem blocking_fate (blocks : fn.stopsShort = false) (int : n < 2 ^ 31) {fuel : Nat}
    {result : Except Failure PollReturn}
    (ended : (fn.call (Fifo.driver schedule) fuel n cq).result = some result) :
    ∃ last, Fate schedule n cq last ∧ last.2 = result.map fun _ => () := by
  have held := @loop_waited schedule fn n cq blocks int fuel
  cases ran : iterate (fn.turn (Fifo.driver schedule) n) fuel (fn.start n cq) with
  | again s =>
    rw [blocking_unended blocks ran] at ended
    cases ended
  | done last =>
    obtain ⟨s, ending⟩ := last
    rw [ran] at held
    rw [blocking_result blocks ran] at ended
    obtain ⟨ret, finished⟩ := blocking_finish blocks s
    obtain rfl := Option.some.inj ended
    refine ⟨_, held, ?_⟩
    cases ending with
    | error e => rfl
    | ok => simp [bind, Except.bind, finished, Except.map]

end calls

/-- A blocking call for `n` completions returns when the next `n` come and are successful, exits the
process when one of those that come is not, and waits forever when they stay away. -/
structure WaitsFor (schedule : Nat → List IbvWc × Nat) (fn : PollFn) (n : Nat) (cq : Fifo) : Prop
    where
  returns : (∃ fuel ret, (fn.call (Fifo.driver schedule) fuel n cq).result = some (.ok ret)) ↔
    ∀ index < n, ∃ wc, cq.Comes schedule index wc ∧ wc.status = .success
  exits : (∃ fuel e, (fn.call (Fifo.driver schedule) fuel n cq).result = some (.error e)) ↔
    ∃ index < n, ∃ wc, cq.Comes schedule index wc ∧ wc.status ≠ .success
  waits : (∀ fuel, (fn.call (Fifo.driver schedule) fuel n cq).result = none) ↔
    (∃ index < n, ∀ wc, ¬ cq.Comes schedule index wc) ∧
      ∀ index < n, ∀ wc, cq.Comes schedule index wc → wc.status = .success

theorem blocking_returns_iff {schedule : Nat → List IbvWc × Nat} (fair : Fair schedule)
    {fn : PollFn} (blocks : fn.stopsShort = false) {n : Nat} (int : n < 2 ^ 31) (cq : Fifo) :
    (∃ fuel ret, (fn.call (Fifo.driver schedule) fuel n cq).result = some (.ok ret)) ↔
      ∀ index < n, ∃ wc, cq.Comes schedule index wc ∧ wc.status = .success := by
  constructor
  · rintro ⟨fuel, ret, returned⟩
    obtain ⟨last, fate, same⟩ := blocking_fate blocks int returned
    exact fate.returns same
  · intro come
    have enough : ∃ polls, ∀ later, polls ≤ later →
        cq.head + n ≤ (cq.arrivals schedule later).length := by
      cases n with
      | zero =>
        have arrived : cq.arrived <+: cq.arrivals schedule 0 := by simp [Fifo.arrivals]
        refine ⟨0, fun later after => ?_⟩
        have longer := (arrived.trans (Fifo.arrivals_mono after)).length_le
        have within := cq.within
        omega
      | succ n =>
        obtain ⟨wc, comes, -⟩ := come n (Nat.lt_succ_self n)
        obtain ⟨polls, inside⟩ := comes.within
        exact ⟨polls, fun later after => by have := inside later after; omega⟩
    obtain ⟨fuel, ⟨s, ending⟩, ran⟩ := blocking_ends blocks int fair n enough
      fun turns s waited => lt_or_eq_of_le waited.most
    have held := @loop_waited schedule fn n cq blocks int fuel
    rw [ran] at held
    have fate : Fate schedule n cq (s, ending) := held
    obtain ⟨ret, finished⟩ := blocking_finish blocks s
    cases ending with
    | error e =>
      obtain ⟨index, below, wc, comes, bad⟩ := fate.exits e rfl
      obtain ⟨other, also, good⟩ := come index below
      exact absurd (comes.unique also ▸ good) bad
    | ok =>
      refine ⟨fuel, ret, ?_⟩
      rw [blocking_result blocks ran]
      exact congrArg some finished

theorem blocking_exits_iff {schedule : Nat → List IbvWc × Nat} (fair : Fair schedule)
    {fn : PollFn} (blocks : fn.stopsShort = false) {n : Nat} (int : n < 2 ^ 31) (cq : Fifo) :
    (∃ fuel e, (fn.call (Fifo.driver schedule) fuel n cq).result = some (.error e)) ↔
      ∃ index < n, ∃ wc, cq.Comes schedule index wc ∧ wc.status ≠ .success := by
  constructor
  · rintro ⟨fuel, e, exited⟩
    obtain ⟨last, fate, same⟩ := blocking_fate blocks int exited
    exact fate.exits e same
  · rintro ⟨index, below, wc, comes, bad⟩
    obtain ⟨polls, inside⟩ := comes.within
    -- The total never passes the failing completion.
    have short : ∀ turns s, Waited schedule fn n cq turns s → s.tot < (index + 1 : Nat) ∨ s.tot = n := by
      intro turns s waited
      by_contra passed
      obtain ⟨other, also, good⟩ := waited.success index (by omega)
      exact bad (comes.unique also ▸ good)
    obtain ⟨fuel, ⟨s, ending⟩, ran⟩ := blocking_ends blocks int fair (index + 1)
      ⟨polls, fun later after => inside later after⟩ short
    have held := @loop_waited schedule fn n cq blocks int fuel
    rw [ran] at held
    have fate : Fate schedule n cq (s, ending) := held
    cases ending with
    | error e =>
      refine ⟨fuel, e, ?_⟩
      rw [blocking_result blocks ran]
      rfl
    | ok =>
      obtain ⟨other, also, good⟩ := fate.returns rfl index below
      exact absurd (comes.unique also ▸ good) bad

/-- On a driver that is fair, what becomes of a blocking call depends on what comes and on nothing
else. -/
theorem blocking_waits {schedule : Nat → List IbvWc × Nat} (fair : Fair schedule) (fn : PollFn)
    (blocks : fn.stopsShort = false) (n : NumEntries) (cq : Fifo) : WaitsFor schedule fn n cq := by
  have returns := blocking_returns_iff fair blocks n.isLt cq
  have exits := blocking_exits_iff fair blocks n.isLt cq
  refine ⟨returns, exits, ?_⟩
  constructor
  · intro waits
    have unreturned := mt returns.mpr (by simp [waits])
    have unexited := mt exits.mpr (by simp [waits])
    simp only [not_forall, not_exists, not_and, not_not] at unreturned unexited
    obtain ⟨index, below, never⟩ := unreturned
    exact ⟨⟨index, below, fun wc comes => never wc comes (unexited index below wc comes)⟩, unexited⟩
  · rintro ⟨⟨index, below, never⟩, successful⟩ fuel
    cases ended : (fn.call (Fifo.driver schedule) fuel n cq).result with
    | none => rfl
    | some result =>
      cases result with
      | error e =>
        obtain ⟨place, within, wc, comes, bad⟩ := exits.mp ⟨fuel, e, ended⟩
        exact absurd (successful place within wc comes) bad
      | ok ret =>
        obtain ⟨wc, comes, -⟩ := returns.mp ⟨fuel, ret, ended⟩ index below
        exact absurd comes (never wc)

-- One completion for each poll, and every third poll is answered with nothing.
def dripping : Nat → List IbvWc × Nat := fun polls =>
  ([{ wrId := polls.toUInt64, opcode := 128, byteLen := 8, immData := 0 }], polls % 3)

theorem dripping_fair : Fair dripping := by
  intro polls
  refine ⟨3 * polls + 1, by omega, ?_⟩
  simp only [dripping]
  omega

theorem dripping_waits : WaitsFor dripping .pollWithWc 40 idle :=
  blocking_waits dripping_fair .pollWithWc rfl 40 idle

end Rdmalib2
