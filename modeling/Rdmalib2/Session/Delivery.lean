import Rdmalib2.Session.Session

set_option autoImplicit false

/-!
# What polls deliver

Whatever was cached, linked or posted again in between, the polls give the ids of the verbs that
were posted with a notification, in the order of the posts: none is lost, repeated or overtaken.
-/

namespace Rdmalib2

open Shared

/-! ## Calls on a queue -/

theorem PollFn.finish_stores {δ : Type} {fn : PollFn} (stores : fn.stores = true) {s : Polling δ}
    {ret : PollReturn} (finished : fn.finish s = .ok ret) : ∃ cqes, ret = .cqes cqes := by
  cases fn with
  | poll | tryPoll => cases stores
  | pollWithWc => exact ⟨_, (Except.ok.inj finished).symm⟩
  | tryPollWithWc =>
    by_cases negative : s.tot < 0
    · rw [finish, if_pos negative] at finished
      cases finished
    · rw [finish, if_neg negative] at finished
      exact ⟨_, (Except.ok.inj finished).symm⟩

-- What a call that returns has taken, also where it goes past what it was asked for.
theorem returned_takes {schedule : Nat → List IbvWc × Nat} {fn : PollFn} {n fuel : Nat}
    (int : n < 2 ^ 31) {cq : Fifo} {ret : PollReturn}
    (returned : (fn.call (Fifo.driver schedule) fuel n cq).result = some (.ok ret)) :
    ∃ completions,
      (fn.call (Fifo.driver schedule) fuel n cq).cq.removed = cq.removed ++ completions ∧
        ret.reported n = completions.length ∧ Successful completions ∧
        (∀ cqes, ret = .cqes cqes → cqes = completions.map RdmaSuccessCqe.ofWc) ∧
        (fn.stopsShort = false → ret.reported n = n) ∧
        (fn.stores = true → ∃ cqes, ret = .cqes cqes) := by
  have steady := Fifo.driver_steady schedule
  have accounted := loop_accounted fn steady n (fn.turns fuel n) cq
  have drained := loop_drained schedule fn n cq (fn.turns fuel n)
  have whole := fun blocks => @loop_blocking _ fn blocks _ steady n int (fn.turns fuel n) cq
  rw [PollFn.call_eq] at returned ⊢
  generalize iterate (fn.turn (Fifo.driver schedule) n) (fn.turns fuel n) (fn.start n cq) = ended
    at accounted whole drained returned ⊢
  rcases ended with s | ⟨s, e | ⟨⟩⟩
  · cases returned
  · cases returned
  · obtain ⟨ret', finished, reported, images⟩ :=
      finish_accounted (accounted rfl) fun blocks => EndsWhole.whole (whole blocks) rfl
    have finishes : fn.finish s = .ok ret := Option.some.inj returned
    obtain rfl : ret = ret' := Except.ok.inj (finishes.symm.trans finished)
    refine ⟨taken s.log, Drained.removed drained, reported, (accounted rfl).success, images,
      fun blocks => ?_, fun stores => PollFn.finish_stores stores finished⟩
    rw [reported, ← (accounted rfl).tot]
    exact EndsWhole.whole (whole blocks) rfl

theorem Fifo.removed_length (cq : Fifo) : cq.removed.length = cq.head := by
  have := cq.within
  simp only [removed, List.length_take]
  omega

namespace Adapter

variable {adapter : Adapter} {schedule : Nat → List Outcome × Nat} {fn : PollFn} {n fuel : Nat}
  {ret : PollReturn}

theorem returned_takes (int : n < 2 ^ 31)
    (returned : (fn.call (driver schedule) fuel n adapter).result = some (.ok ret)) :
    ∃ completions,
      (fn.call (driver schedule) fuel n adapter).cq.cq.removed =
          adapter.cq.removed ++ completions ∧
        ret.reported n = completions.length ∧ Successful completions ∧
        (∀ cqes, ret = .cqes cqes → cqes = completions.map RdmaSuccessCqe.ofWc) ∧
        (fn.stopsShort = false → ret.reported n = n) ∧
        (fn.stores = true → ∃ cqes, ret = .cqes cqes) := by
  have alike := adapter.call_alike schedule fn fuel n
  rw [alike.result] at returned
  rw [alike.cq.cq]
  exact Rdmalib2.returned_takes int returned

-- As long as what was taken is successful, it is what the requests asked for.
theorem removed_ids (success : Successful adapter.cq.removed) :
    adapter.head ≤ (signaledIds adapter.requests).length ∧
      adapter.cq.removed.map IbvWc.wrId = (signaledIds adapter.requests).take adapter.head := by
  obtain ⟨enough, ids⟩ := reports_ids adapter.executed adapter.head adapter.within success
  simp only [requests, signaledIds_append, List.length_append]
  refine ⟨by omega, ?_⟩
  rw [List.take_append_of_le_length enough]
  exact ids

end Adapter

/-! ## Runs -/

def Request.label (this : Request) : UInt64 × Bool := (this.wrId, this.signaled)

def VerbConfig.label (this : VerbConfig) : UInt64 × Bool := (this.wrId, this.notified)

namespace Session

variable {type : IbvQpType} {s next : Session}

/-- The requests the adapter was handed are those of the posted verbs, and what has been taken of
their completions is successful. -/
structure Sound (s : Session) : Prop where
  labelled : s.verbs.All RdmaVerb.Labelled
  posted : s.adapter.requests.map Request.label = s.posted.map VerbConfig.label
  success : Successful s.adapter.cq.removed

theorem empty_sound : Sound {} := by
  refine ⟨fun _ _ lives => ?_, rfl, ?_⟩
  · cases lives
  · simp [Successful, Adapter.cq, Fifo.removed, reports]

theorem Sound.ids (sound : s.Sound) : signaledIds s.adapter.requests = s.notifiedIds := by
  have requested : signaledIds s.adapter.requests =
      ((s.adapter.requests.map Request.label).filter Prod.snd).map Prod.fst := by
    rw [List.filter_map, List.map_map]
    rfl
  rw [requested, sound.posted, List.filter_map, List.map_map]
  rfl

-- Posting one more verb.
theorem Sound.accept (sound : s.Sound) {verbs : LiveVerbs .ibvExpSendWr}
    (labelled : verbs.All RdmaVerb.Labelled) {request : Request} {config : VerbConfig}
    (same : request.label = config.label) :
    Sound { verbs, adapter := s.adapter.accept [request], posted := s.posted ++ [config] } := by
  refine ⟨labelled, ?_, sound.success⟩
  simp [sound.posted, same]

theorem Sound.polled (sound : s.Sound) {fn : PollFn} {n fuel : Nat} (int : n < 2 ^ 31)
    {schedule : Nat → List Outcome × Nat} {ret : PollReturn}
    (returned : (s.poll fn n fuel schedule).result = some (.ok ret)) :
    Sound { s with adapter := (s.poll fn n fuel schedule).cq } := by
  have requests : (s.poll fn n fuel schedule).cq.requests = s.adapter.requests :=
    (s.adapter.call_alike schedule fn fuel n).cq.requests
  obtain ⟨completions, removed, -, success, -, -, -⟩ := Adapter.returned_takes int returned
  refine ⟨sound.labelled, ?_, ?_⟩
  · rw [requests]
    exact sound.posted
  · simp only [poll, removed]
    exact List.forall_mem_append.mpr ⟨sound.success, success⟩

theorem step_sound (sound : s.Sound) {action : SessionAction} (plain : action.assigns = false)
    (taken : s.step type action = .ok next) : next.Sound := by
  cases action with
  | verb action =>
    simp only [step] at taken
    split at taken
    next => cases taken
    next verbs changed =>
      obtain rfl := Except.ok.inj taken
      exact ⟨LiveVerbs.step_labelled sound.labelled plain changed, sound.posted, sound.success⟩
  | execute id ret =>
    obtain ⟨verb, built, lives, requested, rfl⟩ := execute_taken taken
    have labelled := sound.labelled id verb lives
    have label := RdmaVerb.getWr_labelled labelled requested
    have kept := RdmaVerb.labelled_kept.effect labelled (.built requested)
    exact sound.accept ((LiveVerbs.all_set sound.labelled id built).mpr kept)
      (Prod.ext label.1 label.2)
  | postVerbs range ret =>
    obtain ⟨first, rest, chained, handed, verb, verbs, -, chaining, requested, lives, cleared, rfl⟩ :=
      postVerbs_taken taken
    have linked := LiveVerbs.chainVerbs_all RdmaVerb.labelled_kept sound.labelled chaining
    have made := LiveVerbs.getWr_all RdmaVerb.labelled_kept linked requested
    have kept := LiveVerbs.clearChain_all RdmaVerb.labelled_kept made cleared
    obtain ⟨before, built, -, rebuilt, rfl⟩ := LiveVerbs.getWr_ok.mp requested
    obtain rfl : built = verb := by simpa using lives
    have label := made first built lives (RdmaVerb.getWr_flags rebuilt).2
    exact sound.accept kept (Prod.ext label.1 label.2)
  | complete outcomes =>
    obtain rfl := Except.ok.inj taken
    refine ⟨sound.labelled, ?_, ?_⟩
    · rw [Adapter.execute_requests]
      exact sound.posted
    · rw [Adapter.execute_cq, Fifo.arrive_removed]
      exact sound.success
  | poll fn n fuel schedule =>
    simp only [step] at taken
    split at taken
    next => cases taken
    next => cases taken
    next ret returned =>
      obtain rfl := Except.ok.inj taken
      exact sound.polled n.isLt returned

theorem run_sound {actions : List SessionAction} (plain : ∀ action ∈ actions, action.assigns = false)
    (ran : run (step type) {} actions = .ok s) : s.Sound :=
  run_invariant_among (step type) (fun action => action.assigns = false) Sound
    (fun _ _ _ allowed sound taken => step_sound sound allowed taken) actions plain empty_sound ran

/-- A poll that returns has taken the notifications next in line: as many as it reports, all it was
asked for if it blocks, and the ids it collects are those of the verbs posted with a notification,
from where the polls before it stopped. -/
structure Delivers (s : Session) (fn : PollFn) (n : Nat) (after : Adapter) (ret : PollReturn) :
    Prop where
  counted : (after.head : Int) = s.adapter.head + ret.reported n
  within : after.head ≤ s.notifiedIds.length
  whole : fn.stopsShort = false → ret.reported n = n
  collected : fn.stores = true → ∃ cqes, ret = .cqes cqes
  ids : ∀ cqes, ret = .cqes cqes →
    cqes.map RdmaSuccessCqe.wrId = (s.notifiedIds.drop s.adapter.head).take cqes.length

theorem Sound.delivers (sound : s.Sound) {fn : PollFn} {n fuel : Nat} (int : n < 2 ^ 31)
    {schedule : Nat → List Outcome × Nat} {ret : PollReturn}
    (returned : (s.poll fn n fuel schedule).result = some (.ok ret)) :
    s.Delivers fn n (s.poll fn n fuel schedule).cq ret := by
  have later := sound.polled int returned
  obtain ⟨completions, removed, reported, -, images, whole, stores⟩ :=
    Adapter.returned_takes int returned
  have extended : (s.poll fn n fuel schedule).cq.cq.removed = s.adapter.cq.removed ++ completions :=
    removed
  have before : s.adapter.cq.removed.length = s.adapter.head := s.adapter.cq.removed_length
  have enough : (s.poll fn n fuel schedule).cq.head ≤ s.notifiedIds.length ∧
      (s.poll fn n fuel schedule).cq.cq.removed.map IbvWc.wrId =
        s.notifiedIds.take (s.poll fn n fuel schedule).cq.head := by
    have ids := Adapter.removed_ids later.success
    rwa [later.ids] at ids
  have total : (s.poll fn n fuel schedule).cq.head = s.adapter.head + completions.length := by
    have length := congrArg List.length extended
    rwa [List.length_append, Fifo.removed_length, Fifo.removed_length] at length
  refine ⟨?_, enough.1, whole, stores, ?_⟩
  · rw [total, reported]
    push_cast
    rfl
  · rintro cqes rfl
    obtain rfl := images cqes rfl
    have given : (completions.map RdmaSuccessCqe.ofWc).map RdmaSuccessCqe.wrId =
        completions.map IbvWc.wrId := List.map_map
    have here : completions = (s.poll fn n fuel schedule).cq.cq.removed.drop s.adapter.head := by
      rw [extended, List.drop_left' before]
    calc (completions.map RdmaSuccessCqe.ofWc).map RdmaSuccessCqe.wrId
        = ((s.poll fn n fuel schedule).cq.cq.removed.map IbvWc.wrId).drop s.adapter.head := by
          rw [given, ← List.map_drop, ← here]
      _ = (s.notifiedIds.take (s.adapter.head + completions.length)).drop s.adapter.head := by
          rw [enough.2, total]
      _ = (s.notifiedIds.drop s.adapter.head).take
            (completions.map RdmaSuccessCqe.ofWc).length := by
          rw [List.drop_take, Nat.add_sub_cancel_left, List.length_map]

end Session

theorem polls_deliver {type : IbvQpType} {actions : List SessionAction} {s : Session}
    (plain : ∀ action ∈ actions, action.assigns = false)
    (ran : run (Session.step type) {} actions = .ok s) {fn : PollFn} {n : NumEntries} {fuel : Nat}
    {schedule : Nat → List Outcome × Nat} {ret : PollReturn}
    (returned : (s.poll fn n fuel schedule).result = some (.ok ret)) :
    s.Delivers fn n (s.poll fn n fuel schedule).cq ret :=
  (Session.run_sound plain ran).delivers n.isLt returned

-- One verb is posted under three ids, the second time without a notification.
def threePosts : List SessionAction :=
  [.verb (.construct 0 { wrId := 0, wr := {} }), .verb (.call 0 (.setOp .send)),
    .verb (.call 0 (.setId 5)), .verb (.call 0 (.setNotify true)), .execute 0 0,
    .verb (.call 0 (.setId 6)), .verb (.call 0 (.setNotify false)), .execute 0 0,
    .verb (.call 0 (.setId 7)), .verb (.call 0 (.setNotify true)), .execute 0 0]

-- One request is executed before each poll, and one completion given out.
def steadily : Nat → List Outcome × Nat := fun _ => ([{}], 1)

theorem threePosts_deliver :
    ∃ s cqes, run (Session.step .rc) {} threePosts = .ok s ∧
      (s.poll .pollWithWc 2 4 steadily).result = some (.ok (.cqes cqes)) ∧
      cqes.map RdmaSuccessCqe.wrId = [5, 7] ∧
      s.Delivers .pollWithWc 2 (s.poll .pollWithWc 2 4 steadily).cq (.cqes cqes) := by
  have ran : run (Session.step .rc) {} threePosts = .ok _ := rfl
  exact ⟨_, _, ran, rfl, rfl, polls_deliver (n := 2) (by simp [threePosts, SessionAction.assigns]) ran rfl⟩

end Rdmalib2
