import Rdmalib2.Session.Delivery

set_option autoImplicit false

/-!
# Which polls return

On an adapter that goes on executing and reporting without a failure, a blocking poll returns
exactly when enough verbs with a notification have been posted. A range counts for one of them.
-/

namespace Rdmalib2

open Shared

namespace Adapter

/-- The adapter goes on executing, with success, and goes on answering. -/
structure Works (schedule : Nat → List Outcome × Nat) : Prop where
  executes : ∀ polls, ∃ later, polls ≤ later ∧ (schedule later).1 ≠ []
  answers : ∀ polls, ∃ later, polls ≤ later ∧ 0 < (schedule later).2
  success : ∀ polls, ∀ outcome ∈ (schedule polls).1, outcome.status = .success

variable {adapter : Adapter} {schedule : Nat → List Outcome × Nat}

-- No request has failed so far.
def Unfailed (adapter : Adapter) : Prop :=
  ∀ done ∈ adapter.executed, done.outcome.status = .success

theorem unfailed_start (start : adapter.executed = []) : adapter.Unfailed := by
  simp [Unfailed, start]

-- What has been executed once the adapter has been polled so often.
def executedBy (adapter : Adapter) (schedule : Nat → List Outcome × Nat) (polls : Nat) :
    List Executed :=
  adapter.executed ++ executing adapter.pending (adapter.outcomes schedule polls)

theorem arrivals_eq (adapter : Adapter) (polls : Nat) :
    adapter.cq.arrivals (adapter.reporting schedule) polls =
      reports (adapter.executedBy schedule polls) := by
  induction polls with
  | zero => simp [Fifo.arrivals, executedBy, outcomes, executing, cq]
  | succ polls ih =>
    have reported : (adapter.reporting schedule (adapter.cq.polls + polls)).1 =
        reports (executing (adapter.pending.drop (adapter.outcomes schedule polls).length)
          (schedule (adapter.polls + polls)).1) := by
      simp only [reporting, cq, Nat.add_sub_cancel_left]
    rw [Fifo.arrivals_succ, ih, reported, executedBy, executedBy, outcomes_succ, executing_append]
    simp

theorem executing_success {pending : List Request} {outcomes : List Outcome}
    (success : ∀ outcome ∈ outcomes, outcome.status = .success) :
    ∀ done ∈ executing pending outcomes, done.outcome.status = .success := by
  induction outcomes generalizing pending with
  | nil => simp [executing]
  | cons outcome outcomes ih =>
    obtain ⟨here, later⟩ := List.forall_mem_cons.mp success
    cases pending with
    | nil => simp [executing]
    | cons request pending => exact List.forall_mem_cons.mpr ⟨here, ih later⟩

theorem executedBy_success (works : Works schedule) (unfailed : adapter.Unfailed) (polls : Nat) :
    ∀ done ∈ adapter.executedBy schedule polls, done.outcome.status = .success := by
  refine List.forall_mem_append.mpr ⟨unfailed, executing_success fun outcome listed => ?_⟩
  obtain ⟨i, -, given⟩ := List.mem_flatMap.mp listed
  exact works.success _ outcome given

theorem outcomes_mono (adapter : Adapter) (schedule : Nat → List Outcome × Nat) {polls later : Nat}
    (after : polls ≤ later) :
    (adapter.outcomes schedule polls).length ≤ (adapter.outcomes schedule later).length := by
  induction later, after using Nat.le_induction with
  | base => exact le_rfl
  | succ later _ ih =>
    rw [outcomes_succ, List.length_append]
    omega

-- However long it takes, all that is pending is executed.
theorem Works.outcomes (works : Works schedule) (adapter : Adapter) (count : Nat) :
    ∃ polls, count ≤ (adapter.outcomes schedule polls).length := by
  induction count with
  | zero => exact ⟨0, Nat.zero_le _⟩
  | succ count ih =>
    obtain ⟨polls, enough⟩ := ih
    obtain ⟨later, after, some⟩ := works.executes (adapter.polls + polls)
    have earlier := adapter.outcomes_mono schedule
      (show polls ≤ later - adapter.polls by omega)
    have more : 0 < (schedule later).1.length := List.length_pos_iff.mpr some
    refine ⟨later - adapter.polls + 1, ?_⟩
    rw [outcomes_succ, List.length_append, show adapter.polls + (later - adapter.polls) = later by omega]
    omega

theorem executedBy_requests (adapter : Adapter) (schedule : Nat → List Outcome × Nat) (polls : Nat) :
    (adapter.executedBy schedule polls).map Executed.request ++
        adapter.pending.drop (adapter.outcomes schedule polls).length = adapter.requests := by
  rw [executedBy, List.map_append, List.append_assoc, executing_requests]
  rfl

theorem comes_success (works : Works schedule) (unfailed : adapter.Unfailed) {index : Nat}
    {wc : IbvWc} (comes : adapter.cq.Comes (adapter.reporting schedule) index wc) :
    wc.status = .success := by
  obtain ⟨polls, found⟩ := comes
  rw [arrivals_eq] at found
  exact (reports_length (executedBy_success works unfailed polls)).2 wc (List.mem_of_getElem? found)

/-- On an adapter that works, completions come for the requests that asked for one and for no
other. -/
theorem comes_iff (works : Works schedule) (unfailed : adapter.Unfailed) (index : Nat) :
    (∃ wc, adapter.cq.Comes (adapter.reporting schedule) index wc) ↔
      adapter.head + index < (signaledIds adapter.requests).length := by
  constructor
  · rintro ⟨wc, polls, found⟩
    rw [arrivals_eq] at found
    have inside : adapter.head + index < (reports (adapter.executedBy schedule polls)).length :=
      (List.getElem?_eq_some_iff.mp found).1
    have length := (reports_length (executedBy_success works unfailed polls)).1
    rw [← executedBy_requests adapter schedule polls, signaledIds_append,
      List.length_append]
    omega
  · intro enough
    obtain ⟨polls, all⟩ := works.outcomes adapter adapter.pending.length
    have length := (reports_length (executedBy_success works unfailed polls)).1
    have whole := executedBy_requests adapter schedule polls
    rw [List.drop_eq_nil_of_le all, List.append_nil] at whole
    rw [← whole, ← length] at enough
    have found := List.getElem?_eq_getElem enough
    refine ⟨(reports (adapter.executedBy schedule polls))[adapter.head + index], polls, ?_⟩
    rw [arrivals_eq]
    exact found

end Adapter

/-! ## Blocking polls -/

namespace Session

/-- A blocking poll for `n` returns if the verbs posted with a notification and not yet taken are
so many, and otherwise it polls forever. -/
structure WaitsFor (s : Session) (fn : PollFn) (n : Nat) (schedule : Nat → List Outcome × Nat) :
    Prop where
  returns : (∃ fuel ret, (s.poll fn n fuel schedule).result = some (.ok ret)) ↔
    s.adapter.head + n ≤ s.notifiedIds.length
  waits : (∀ fuel, (s.poll fn n fuel schedule).result = none) ↔
    s.notifiedIds.length < s.adapter.head + n

theorem Sound.waitsFor {s : Session} (sound : s.Sound) (unfailed : s.adapter.Unfailed)
    {schedule : Nat → List Outcome × Nat} (works : Adapter.Works schedule) (fn : PollFn)
    (blocks : fn.stopsShort = false) {n : Nat} (int : n < 2 ^ 31) : s.WaitsFor fn n schedule := by
  have waits := @blocking_waits (s.adapter.reporting schedule) works.answers fn blocks ⟨n, int⟩
    s.adapter.cq
  have same : ∀ fuel, (s.poll fn n fuel schedule).result =
      (fn.call (Fifo.driver (s.adapter.reporting schedule)) fuel n s.adapter.cq).result :=
    fun fuel => (s.adapter.call_alike schedule fn fuel n).result
  have comes := Adapter.comes_iff works unfailed
  have good : ∀ index wc, s.adapter.cq.Comes (s.adapter.reporting schedule) index wc →
      wc.status = .success := fun _ _ => Adapter.comes_success works unfailed
  rw [sound.ids] at comes
  have least := (Adapter.removed_ids sound.success).1
  rw [sound.ids] at least
  have enough : (∀ index < n, ∃ wc, s.adapter.cq.Comes (s.adapter.reporting schedule) index wc) ↔
      s.adapter.head + n ≤ s.notifiedIds.length := by
    simp only [comes]
    constructor
    · intro all
      cases n with
      | zero => exact least
      | succ n => exact all n (Nat.lt_succ_self n)
    · intro most index below
      omega
  constructor
  · simp only [same, waits.returns, ← enough]
    refine forall₂_congr fun index _ => exists_congr fun wc => ?_
    exact ⟨And.left, fun come => ⟨come, good index wc come⟩⟩
  · simp only [same, waits.waits, ← Nat.not_le, ← enough, not_forall, not_exists]
    constructor
    · rintro ⟨⟨index, below, never⟩, -⟩
      exact ⟨index, below, never⟩
    · rintro ⟨index, below, never⟩
      exact ⟨⟨index, below, never⟩, fun other _ wc => good other wc⟩

/-! ## Posts -/

variable {type : IbvQpType} {s next : Session}

-- Posting touches the caches of a verb, not what it was built from.
theorem execute_config {id : Nat} {ret : Int} (taken : s.step type (.execute id ret) = .ok next)
    (other : Nat) : (next.verbs other).map RdmaVerb.toVerbConfig =
      (s.verbs other).map RdmaVerb.toVerbConfig := by
  obtain ⟨verb, built, lives, requested, rfl⟩ := execute_taken taken
  by_cases same : other = id
  · subst same
    simp [lives, RdmaVerb.getWr_config requested]
  · simp [LiveVerbs.set_other _ _ same]

theorem postVerbs_head {range : List Nat} {ret : Int}
    (taken : s.step type (.postVerbs range ret) = .ok next) :
    ∃ first rest verb, range = first :: rest ∧ s.verbs first = some verb ∧
      next.posted = s.posted ++ [verb.toVerbConfig] ∧ next.adapter.head = s.adapter.head ∧
      next.adapter.executed = s.adapter.executed := by
  obtain ⟨first, rest, chained, handed, verb, verbs, rfl, chaining, requested, lives, cleared, rfl⟩ :=
    postVerbs_taken taken
  obtain ⟨original, built, linked, fetched, made, link, chainedRest⟩ := chainVerbs_cons_ok chaining
  have config : s.verbs.Has (fun other => other.toVerbConfig = original.toVerbConfig) first :=
    ⟨original, fetched, rfl⟩
  have after := chainVerbs_has (fun same built => (RdmaVerb.getWr_config built).trans same)
    (fun _ same => same) config chaining
  obtain ⟨before, rebuilt, there, final, rfl⟩ := LiveVerbs.getWr_ok.mp requested
  obtain rfl : rebuilt = verb := by simpa using lives
  obtain ⟨found, here, same⟩ := after
  obtain rfl : before = found := Option.some.inj (there.symm.trans here)
  refine ⟨first, rest, original, rfl, fetched, ?_, rfl, rfl⟩
  simp only [RdmaVerb.getWr_config final, same]

-- Posts one after the other: the ids of the notified verbs, in the order of the range.
theorem executes_post {range : List Nat} {configs : List VerbConfig}
    (live : range.map (fun id => (s.verbs id).map RdmaVerb.toVerbConfig) = configs.map some)
    (posted : run (step type) s (range.map fun id => .execute id 0) = .ok next) :
    next.posted = s.posted ++ configs ∧ next.adapter.head = s.adapter.head ∧
      next.adapter.executed = s.adapter.executed := by
  induction range generalizing s configs with
  | nil =>
    obtain rfl := Except.ok.inj posted
    obtain rfl : configs = [] := by simpa using live.symm
    simp
  | cons id rest ih =>
    cases configs with
    | nil => simp at live
    | cons config configs =>
      rw [List.map_cons, List.map_cons, List.cons.injEq] at live
      cases taken : s.step type (.execute id 0) with
      | error e => simp [run, taken] at posted
      | ok mid =>
        rw [List.map_cons, run_cons_ok _ _ taken] at posted
        have later : rest.map (fun id => (mid.verbs id).map RdmaVerb.toVerbConfig) =
            configs.map some := by
          rw [← live.2]
          exact List.map_congr_left fun other _ => execute_config taken other
        obtain ⟨verb, built, lives, -, rfl⟩ := execute_taken taken
        obtain ⟨record, head, executed⟩ := ih later posted
        obtain rfl : verb.toVerbConfig = config := by simpa [lives] using live.1
        refine ⟨?_, head, executed⟩
        rw [record]
        simp

end Session

/-! ## Ranges and single posts -/

section waiting

variable {type : IbvQpType} {actions : List SessionAction} {s next : Session}
  {schedule : Nat → List Outcome × Nat}

/-- On an adapter that works, a blocking poll returns exactly when so many verbs with a notification
have been posted and not been taken, a range counting for its head alone. -/
theorem polls_return_iff (plain : ∀ action ∈ actions, action.assigns = false)
    (ran : run (Session.step type) {} actions = .ok s) (unfailed : s.adapter.Unfailed)
    (works : Adapter.Works schedule) (fn : PollFn) (blocks : fn.stopsShort = false) (n : NumEntries) :
    s.WaitsFor fn n schedule :=
  (Session.run_sound plain ran).waitsFor unfailed works fn blocks n.isLt

theorem steadily_works : Adapter.Works steadily where
  executes polls := ⟨polls, le_rfl, by simp [steadily]⟩
  answers polls := ⟨polls, le_rfl, by simp [steadily]⟩
  success polls := by simp [steadily]

theorem threePosts_return :
    ∃ s, run (Session.step .rc) {} threePosts = .ok s ∧ s.WaitsFor .poll 3 steadily := by
  have ran : run (Session.step .rc) {} threePosts = .ok _ := rfl
  exact ⟨_, ran, polls_return_iff (by simp [threePosts, SessionAction.assigns]) ran
    (Adapter.unfailed_start rfl) steadily_works .poll rfl 3⟩

/-- With nothing outstanding, waiting for all the verbs of a range that has been posted ends if there
is one and goes on forever if there are more. -/
theorem range_returns_iff (plain : ∀ action ∈ actions, action.assigns = false)
    (ran : run (Session.step type) {} actions = .ok s) (unfailed : s.adapter.Unfailed)
    (drained : s.adapter.head = s.notifiedIds.length) {range : List Nat}
    (int : range.length < 2 ^ 31) {ret : Int}
    (notified : ∀ id ∈ range, ∀ verb, s.verbs id = some verb → verb.notified = true)
    (posted : s.step type (.postVerbs range ret) = .ok next) (works : Adapter.Works schedule)
    (fn : PollFn) (blocks : fn.stopsShort = false) :
    ((∃ fuel ret, (next.poll fn range.length fuel schedule).result = some (.ok ret)) ↔
        range.length = 1) ∧
      ((∀ fuel, (next.poll fn range.length fuel schedule).result = none) ↔ 1 < range.length) := by
  have sound := Session.step_sound (Session.run_sound plain ran) rfl posted
  obtain ⟨first, rest, verb, rfl, lives, record, head, executed⟩ := Session.postVerbs_head posted
  have flag : verb.notified = true := notified first List.mem_cons_self verb lives
  have unfailed' : next.adapter.Unfailed := by
    unfold Adapter.Unfailed
    rwa [executed]
  have waits := sound.waitsFor unfailed' works fn blocks int
  have one : next.notifiedIds.length = s.notifiedIds.length + 1 := by
    simp [Session.notifiedIds, record, flag]
  rw [waits.returns, waits.waits, one, head, drained, List.length_cons]
  constructor <;> omega

-- Two sends, both with a notification.
def twoNotified : List SessionAction :=
  [.verb (.construct 0 { wrId := 5, wr := {} }), .verb (.call 0 (.setOp .send)),
    .verb (.call 0 (.setNotify true)), .verb (.construct 1 { wrId := 6, wr := {} }),
    .verb (.call 1 (.setOp .send)), .verb (.call 1 (.setNotify true))]

def twoReady : Session := (run (Session.step .rc) {} twoNotified).toOption.getD {}

theorem twoReady_ran : run (Session.step .rc) {} twoNotified = .ok twoReady := rfl

theorem twoNotified_wait :
    ∃ next, twoReady.step .rc (.postVerbs [0, 1] 0) = .ok next ∧
      ∀ fuel, (next.poll .poll 2 fuel steadily).result = none := by
  have plain : ∀ action ∈ twoNotified, action.assigns = false := by
    simp [twoNotified, SessionAction.assigns]
  have notified : ∀ id ∈ [0, 1], ∀ verb, twoReady.verbs id = some verb → verb.notified = true := by
    intro id listed verb lives
    obtain rfl | rfl : id = 0 ∨ id = 1 := by simpa using listed
    · obtain rfl := Option.some.inj lives
      rfl
    · obtain rfl := Option.some.inj lives
      rfl
  have posted : twoReady.step .rc (.postVerbs [0, 1] 0) = .ok _ := rfl
  exact ⟨_, posted, (range_returns_iff plain twoReady_ran (Adapter.unfailed_start rfl) rfl
    (by decide) notified
    posted steadily_works .poll rfl).2.mpr (by decide)⟩

/-- Posted one by one the same verbs are all waited for, and their ids come back in order. -/
theorem posts_return (plain : ∀ action ∈ actions, action.assigns = false)
    (ran : run (Session.step type) {} actions = .ok s) (unfailed : s.adapter.Unfailed)
    (drained : s.adapter.head = s.notifiedIds.length) {range : List Nat}
    (int : range.length < 2 ^ 31) {configs : List VerbConfig}
    (live : range.map (fun id => (s.verbs id).map RdmaVerb.toVerbConfig) = configs.map some)
    (notified : ∀ config ∈ configs, config.notified = true)
    (posted : run (Session.step type) s (range.map fun id => .execute id 0) = .ok next)
    (works : Adapter.Works schedule) :
    ∃ fuel cqes, (next.poll .pollWithWc range.length fuel schedule).result = some (.ok (.cqes cqes)) ∧
      cqes.map RdmaSuccessCqe.wrId = configs.map VerbConfig.wrId := by
  have all : ∀ action ∈ actions ++ range.map fun id => SessionAction.execute id 0,
      action.assigns = false := by
    refine List.forall_mem_append.mpr ⟨plain, fun action listed => ?_⟩
    obtain ⟨id, -, rfl⟩ := List.mem_map.mp listed
    rfl
  have sound := Session.run_sound all ((run_append_ok _).mpr ⟨s, ran, posted⟩)
  obtain ⟨record, head, executed⟩ := Session.executes_post live posted
  have unfailed' : next.adapter.Unfailed := by
    unfold Adapter.Unfailed
    rwa [executed]
  have count : configs.length = range.length := by simpa using (congrArg List.length live).symm
  have ids : next.notifiedIds = s.notifiedIds ++ configs.map VerbConfig.wrId := by
    simp only [Session.notifiedIds, record, List.filter_append, List.map_append]
    rw [List.filter_eq_self.mpr notified]
  have waits := sound.waitsFor unfailed' works .pollWithWc rfl int
  have enough : next.adapter.head + range.length ≤ next.notifiedIds.length := by
    rw [head, drained, ids, List.length_append, List.length_map, count]
  obtain ⟨fuel, ret, returned⟩ := waits.returns.mpr enough
  have delivers := sound.delivers int returned
  obtain ⟨cqes, rfl⟩ := delivers.collected rfl
  have length : (cqes.length : Int) = range.length := delivers.whole rfl
  refine ⟨fuel, cqes, returned, ?_⟩
  rw [delivers.ids cqes rfl, ids, head, drained, List.drop_left, List.take_of_length_le]
  rw [List.length_map, count]
  omega

theorem twoNotified_return :
    ∃ next fuel cqes,
      run (Session.step .rc) twoReady ([0, 1].map fun id => .execute id 0) = .ok next ∧
      (next.poll .pollWithWc 2 fuel steadily).result = some (.ok (.cqes cqes)) ∧
      cqes.map RdmaSuccessCqe.wrId = [5, 6] := by
  have plain : ∀ action ∈ twoNotified, action.assigns = false := by
    simp [twoNotified, SessionAction.assigns]
  have live : [0, 1].map (fun id => (twoReady.verbs id).map RdmaVerb.toVerbConfig) =
      [_, _].map some := rfl
  have posted : run (Session.step .rc) twoReady ([0, 1].map fun id => .execute id 0) = .ok _ := rfl
  obtain ⟨fuel, cqes, returned, ids⟩ :=
    posts_return plain twoReady_ran (Adapter.unfailed_start rfl) rfl (by decide) live (by decide) posted
      steadily_works
  exact ⟨_, fuel, cqes, posted, returned, ids⟩

end waiting

end Rdmalib2
