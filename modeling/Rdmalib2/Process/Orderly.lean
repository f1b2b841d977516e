import Rdmalib2.Process.Destruction

set_option autoImplicit false

/-!
# Which destructions are refused

Over whole programs: none unless a completion queue in use is destroyed, and none where these are
left in their place.
-/

namespace Rdmalib2

open Shared

namespace Scopes

variable {p : Scopes} {statement : Statement}

theorem start_kept (queues : Bool) : Kept queues {} :=
  ⟨trivial, by simp [held], by simp [held], by simp, by simp⟩

theorem Orderly.allowed (orderly : p.Orderly statement) : p.Allowed true statement := by
  cases statement with
  | move name src => exact fun _ => orderly
  | assign dst src => exact ⟨orderly.1, orderly.2.1, .inr fun _ => orderly.2.2⟩
  | leave => exact nofun
  | context | region | cq | qp => trivial

theorem Spares.allowed (spares : p.Spares statement) (above : p.StaysAbove false statement) :
    p.Allowed false statement := by
  cases statement with
  | move name src => exact nofun
  | assign dst src => exact ⟨spares, above, .inr nofun⟩
  | leave => exact fun _ => spares
  | context | region | cq | qp => trivial

theorem release_inUse {handle : Handle} (inUse : p.InUse (.handle handle)) :
    p.release (.handle handle) = { p with busy := p.busy ++ [.handle handle] } := by
  simp [release, inUse]

theorem releaseAll_inUse {handles : List Handle}
    (inUse : ∀ handle ∈ handles, p.InUse (.handle handle)) :
    p.releaseAll (handles.map .handle) = { p with busy := p.busy ++ handles.map .handle } := by
  induction handles generalizing p with
  | nil => simp [releaseAll]
  | cons handle handles ih =>
    obtain ⟨here, later⟩ := List.forall_mem_cons.mp inUse
    rw [List.map_cons, releaseAll, release_inUse here]
    have rest := @ih { p with busy := p.busy ++ [.handle handle] } later
    rw [rest]
    simp

/-- The driver refuses to destroy a completion queue in use. -/
theorem queue_refused {object : Object} (inUse : p.QueueInUse (.object object)) :
    ∃ number, (p.releaseAll (Variable.object object).destroy).busy =
      p.busy ++ [.handle (.cq number)] := by
  obtain ⟨number, listed, rests⟩ := inUse
  obtain ⟨handle, own, same⟩ := List.mem_map.mp listed
  obtain rfl : handle = .cq number := DriverObject.handle.inj same
  refine ⟨number, ?_⟩
  rw [Variable.destroy, Object.handles_whole own, releaseAll_inUse]
  · rfl
  · simpa using rests

theorem context_queueless (this : ContextObject) : ¬ p.QueueInUse (.context this) := by
  rintro ⟨number, listed, -⟩
  simp [Variable.destroy, ContextObject.destroy] at listed

theorem Accepted.spares (accepted : p.Accepted statement) : p.Spares statement := by
  rintro (this | object) dropped inUse
  · exact context_queueless this inUse
  · obtain ⟨number, refused⟩ := queue_refused inUse
    cases statement with
    | assign dst src =>
      simp only [Scopes.dropped, Option.mem_def] at dropped
      split at dropped
      next this other target source =>
        split at dropped
        next apart =>
          obtain rfl := Variable.object.inj (Option.some.inj dropped)
          have busy := accepted _ (by simp only [step, target, source, apart]; rfl)
          rw [rebind, refused] at busy
          simp at busy
        next => cases dropped
      next => cases dropped
    | leave =>
      cases top : p.locals with
      | nil => simp [Scopes.dropped, top] at dropped
      | cons first rest =>
        obtain ⟨name, value⟩ := first
        obtain rfl : value = .object object := by simpa [Scopes.dropped, top] using dropped
        have busy := accepted _ (by rw [step, top])
        rw [rebind, refused] at busy
        simp at busy
    | context | region | cq | qp | move => cases dropped

end Scopes

/-- While no assignment takes an object beyond the life of its context, nothing is refused unless a
completion queue in use is destroyed. -/
theorem refused_iff_queue_in_use {program : List Statement}
    (above : Always Scopes.step (Scopes.StaysAbove false) {} program) :
    Always Scopes.step Scopes.Accepted {} program ↔
      Always Scopes.step Scopes.Spares {} program := by
  have agree : Always Scopes.step (fun p s => p.StaysAbove false s ∧ p.Accepted s) {} program ↔
      Always Scopes.step (fun p s => p.StaysAbove false s ∧ p.Spares s) {} program := by
    refine always_congr Scopes.step (Kept false) _ _ (fun p s kept => ?_)
      (fun p s next kept both taken => (kept.step (both.2.allowed both.1) taken).1) program
      (Scopes.start_kept false)
    refine and_congr_right fun above => ⟨fun accepted => accepted.spares, fun spares => ?_⟩
    exact fun next taken => (kept.step (spares.allowed above) taken).2
  rw [Always.and, Always.and] at agree
  simpa [above] using agree

theorem rc_queue_pair : qpTypeImplemented .rc = true := rfl

theorem plain_allowed (type : IbvQpType) :
    qpFeaturesAllowed type QpFeatureBase.noFeatures = true := by
  simp [qpFeaturesAllowed, QpFeatureBase.noFeatures]

-- A connection is replaced by a new one on the same queue, and a region is handed on.
def reconnected : List Statement :=
  [.context 0 { physPortCnt := 1, portAttrs := [({}, { lid := 1 })] } true,
    .cq 1 0 kCqDepth, .region 2 0 true 1 0 64,
    .qp 3 0 1 1 .rc rc_queue_pair kQpDepth QpFeatureBase.noFeatures (plain_allowed _),
    .qp 4 0 1 1 .rc rc_queue_pair kQpDepth QpFeatureBase.noFeatures (plain_allowed _),
    .assign 3 4, .move 5 2, .leave, .leave, .leave, .leave, .leave, .leave]

theorem reconnected_accepted : Always Scopes.step Scopes.Accepted {} reconnected :=
  (refused_iff_queue_in_use (by decide)).mpr (by decide)

theorem orderly_kept {program : List Statement} {last : Scopes}
    (orderly : Always Scopes.step Scopes.Orderly {} program)
    (ran : run Scopes.step {} program = .ok last) : Kept true last ∧ last.busy = [] := by
  have stays : ∀ p s next, Kept true p ∧ p.busy = [] → Scopes.Orderly p s →
      p.step s = .ok next → Kept true next ∧ next.busy = [] := by
    rintro p s next ⟨kept, busy⟩ orderly taken
    obtain ⟨later, same⟩ := kept.step orderly.allowed taken
    exact ⟨later, same.trans busy⟩
  exact orderly.invariant stays ⟨Scopes.start_kept true, rfl⟩ ran

/-- Programs that leave completion queues in use where they are have everything destroyed. -/
theorem orderly_programs_clean {program : List Statement} {last : Scopes}
    (orderly : Always Scopes.step Scopes.Orderly {} program)
    (ran : run Scopes.step {} program = .ok last) :
    last.busy = [] ∧
      (∀ target, (∃ creation, (target, creation) ∈ last.live) ↔
        ∃ entry ∈ last.locals, target ∈ entry.2.destroy) ∧
      (last.locals = [] → last.live = []) := by
  obtain ⟨kept, busy⟩ := orderly_kept orderly ran
  have listed : ∀ target, (∃ creation, (target, creation) ∈ last.live) ↔
      ∃ entry ∈ last.locals, target ∈ entry.2.destroy := fun target =>
    (kept.listed target).trans List.mem_flatMap
  refine ⟨busy, listed, fun none => List.eq_nil_iff_forall_not_mem.mpr ?_⟩
  rintro ⟨target, creation⟩ live
  obtain ⟨entry, held, -⟩ := (listed target).mp ⟨creation, live⟩
  rw [none] at held
  cases held

theorem reconnected_clean :
    ∃ last, run Scopes.step {} reconnected = .ok last ∧ last.busy = [] ∧ last.live = [] := by
  have clean := @orderly_programs_clean reconnected _ (by decide) rfl
  exact ⟨_, rfl, clean.1, clean.2.2 rfl⟩

end Rdmalib2
