import Rdmalib2.Objects.Ownership
import Rdmalib2.Objects.Steps
import Rdmalib2.Shared.Progress

set_option autoImplicit false

/-!
# What an action leaves alone

An action names the objects it may write to. The rest of a program keeps its objects, and with
them the queue pairs that the driver has for them.
-/

namespace Rdmalib2

open Shared

-- The objects that an action may write to.
def Action.writes : Action → List Nat
  | .constructQp id _ _ _ _ | .constructCq id | .constructRegion id _ _ _ _ | .destroy id
  | .bindPort id _ _ | .connect id _ _ _ => [id]
  | .moveConstruct id src | .moveAssign id src => [id, src]
  | .getInfo _ | .getQpInfo _ | .post _ _ _ | .postRange _ _ _ _ => []

/-- Nothing is written outside of these objects: neither another object nor a queue pair that none
of them holds. -/
structure World.WritesOnly (w next : World) (ids : List Nat) : Prop where
  objects : ∀ id, id ∉ ids → next.objects id = w.objects id
  records : ∀ number, number ≠ w.count → (∀ id ∈ ids, .qp number ∉ heldBy w.objects id) →
    next.qps number = w.qps number ∧ next.issued number = w.issued number

namespace World

variable {w next : World}

theorem writesOnly_refl (w : World) (ids : List Nat) : w.WritesOnly w ids :=
  ⟨fun _ _ => rfl, fun _ _ _ => ⟨rfl, rfl⟩⟩

theorem place_writesOnly (w : World) (id : Nat) (object : Object) :
    w.WritesOnly (w.place id object) [id] := by
  constructor
  · intro other outside
    exact Function.update_of_ne (by simpa using outside) ..
  · exact fun _ _ _ => ⟨rfl, rfl⟩

theorem move_objects {src dst id : Nat} {other : Object} (outside : id ∉ [dst, src]) :
    (w.move src dst other).objects id = w.objects id := by
  obtain ⟨target, source⟩ : id ≠ dst ∧ id ≠ src := by simpa using outside
  exact (Function.update_of_ne target ..).trans (Function.update_of_ne source ..)

-- What goes is held by the object that is destroyed.
theorem release_unheld {id number : Nat} {this : Object} (lives : w.objects id = some this)
    (unheld : .qp number ∉ heldBy w.objects id) :
    (w.release this.destroy).qps number = w.qps number := by
  rw [heldBy_of_lives lives, ← this.destroy_eq] at unheld
  exact if_neg unheld

theorem record_unheld (driver : ModifyDriver) {this : QpObject} (calls : List ModifyCall)
    {number : Nat} (unheld : this.qp ≠ some number) :
    (w.record driver this calls).qps number = w.qps number ∧
      (w.record driver this calls).issued number = w.issued number := by
  unfold record
  cases held : this.qp with
  | none => exact ⟨rfl, rfl⟩
  | some own =>
    have apart : number ≠ own := by
      rintro rfl
      exact unheld held
    exact ⟨Function.update_of_ne apart .., Function.update_of_ne apart ..⟩

theorem Taken.writesOnly {action : Action} (taken : w.Taken action next) :
    w.WritesOnly next action.writes := by
  cases taken with
  | @constructQp id ctx type implemented qpNum vacant =>
    have only := place_writesOnly w id (.qp type { ctx, qp := some w.count })
    refine ⟨only.objects, fun number apart unheld => ?_⟩
    obtain ⟨qps, issued⟩ := only.records number apart unheld
    exact ⟨(Function.update_of_ne apart ..).trans qps, issued⟩
  | constructCq vacant => exact place_writesOnly w _ _
  | constructRegion ctx device ptr size vacant => exact place_writesOnly w _ _
  | moveConstruct vacant lives => exact ⟨fun _ => move_objects, fun _ _ _ => ⟨rfl, rfl⟩⟩
  | assignSelf id => exact writesOnly_refl w _
  | @moveAssign dst src this other apart target lives =>
    refine ⟨fun _ => move_objects, fun number _ unheld => ?_⟩
    exact ⟨release_unheld target (unheld dst (by simp [Action.writes])), rfl⟩
  | @destroy id this lives =>
    constructor
    · intro other outside
      exact Function.update_of_ne (by simpa [Action.writes] using outside) ..
    · intro number _ unheld
      exact ⟨release_unheld lives (unheld id (by simp [Action.writes])), rfl⟩
  | @drive action id driver call drives type this after lives ok =>
    have written : action.writes = [id] := by cases drives <;> rfl
    rw [written]
    constructor
    · intro other outside
      exact Function.update_of_ne (by simpa using outside) ..
    · intro number _ unheld
      have apart := unheld id (List.mem_singleton_self id)
      rw [heldBy_of_lives lives] at apart
      exact record_unheld driver _ (by simpa [Object.holds] using apart)
  | read reads => exact writesOnly_refl w _

end World

/-! ## Objects that a program leaves alone -/

/-- The object is as it was, and so are its handles and what the driver has for its queue pair. -/
structure Spared (w next : World) (id : Nat) : Prop where
  object : next.objects id = w.objects id
  unreleased : ∀ handle ∈ heldBy w.objects id, handle ∉ next.released
  record : ∀ number, .qp number ∈ heldBy w.objects id →
    next.qps number = w.qps number ∧ next.issued number = w.issued number

theorem Owned.unreleased {w : World} (owned : Owned w) {id : Nat} {handle : Handle}
    (holds : handle ∈ heldBy w.objects id) : handle ∉ w.released :=
  fun freed => owned.linear.freedApart id holds freed

theorem Owned.below {w : World} (owned : Owned w) {id : Nat} {handle : Handle}
    (holds : handle ∈ heldBy w.objects id) : handle.number < w.count :=
  owned.numbered handle ((owned.known handle).mp (.inr ⟨id, holds⟩))

theorem Owned.spared {w : World} (owned : Owned w) (id : Nat) : Spared w w id :=
  ⟨rfl, fun _ holds => owned.unreleased holds, fun _ _ => ⟨rfl, rfl⟩⟩

-- Another object that an action writes to does not hold what this one holds.
theorem Spared.step {w mid next : World} {id : Nat} {action : Action} (spared : Spared w mid id)
    (owned : Owned mid) (outside : id ∉ action.writes) (taken : mid.step action = .ok next) :
    Spared w next id := by
  have only := (World.step_taken taken).writesOnly
  have after := (World.step_change taken).transfer.owned owned
  have object : next.objects id = mid.objects id := only.objects id outside
  have held : heldBy mid.objects id = heldBy w.objects id := by simp [heldBy, spared.object]
  have still : heldBy next.objects id = heldBy w.objects id := by
    simp [heldBy, object, spared.object]
  constructor
  · exact object.trans spared.object
  · intro handle holds
    rw [← still] at holds
    exact after.unreleased holds
  · intro number holds
    obtain ⟨qps, issued⟩ := spared.record number holds
    rw [← held] at holds
    have unnamed : ∀ other ∈ action.writes, Handle.qp number ∉ heldBy mid.objects other := by
      intro other written also
      have apart : other ≠ id := by
        rintro rfl
        exact outside written
      exact owned.linear.apart other id apart also holds
    obtain ⟨qps', issued'⟩ := only.records number (owned.below holds).ne unnamed
    exact ⟨qps'.trans qps, issued'.trans issued⟩

/-- Whatever a program goes on to do with other objects, an object that it does not write to keeps
its handles, its port and the state of its queue pair. -/
theorem untouched_objects_stay {actions more : List Action} {w next : World} {id : Nat}
    (ran : run World.step {} actions = .ok w) (untouched : ∀ action ∈ more, id ∉ action.writes)
    (continued : run World.step w more = .ok next) : Spared w next id := by
  have owned := (run_owned ran).1
  have kept := run_invariant_among World.step (fun action => id ∉ action.writes)
    (fun mid => Owned mid ∧ Spared w mid id)
    (fun _ _ _ outside both taken => ⟨(World.step_change taken).transfer.owned both.1,
      both.2.step both.1 outside taken⟩)
    more untouched ⟨owned, owned.spared id⟩ continued
  exact kept.2

theorem rc_implemented : qpTypeImplemented .rc = true := rfl

def connectedProgram : List Action :=
  [.constructQp 0 twoPorts .rc rc_implemented 7, .constructRegion 1 twoPorts true 0 64,
    .connect 0 accepting { gid := {}, lid := 12, qpNum := 9, psn := 3000 } 1]

def otherProgram : List Action :=
  [.moveConstruct 2 1, .destroy 2, .constructQp 3 twoPorts .ud rfl 8, .bindPort 3 accepting 2]

-- A region is moved and destroyed and a datagram queue pair is bound, next to a connection.
theorem connection_stays :
    ∃ w next, run World.step {} connectedProgram = .ok w ∧ run World.step w otherProgram = .ok next ∧
      w.qps 0 = some { qpNum := 7, state := .rts, qpType := .rc } ∧ Spared w next 0 := by
  have ran : run World.step {} connectedProgram = .ok _ := rfl
  have untouched : ∀ action ∈ otherProgram, 0 ∉ action.writes := by simp [otherProgram, Action.writes]
  exact ⟨_, _, ran, rfl, rfl, untouched_objects_stay ran untouched rfl⟩

end Rdmalib2
