import Rdmalib2.Objects.World
import Rdmalib2.Shared.Ownership
import Rdmalib2.Shared.Run

set_option autoImplicit false

/-!
# Who owns a driver handle

The objects of a program are the owners of a ledger. Whatever a program does is a gift of new
handles, a move, a release, or a release followed by a move.
-/

namespace Rdmalib2

open Shared

def heldBy (objects : Nat → Option Object) (id : Nat) : List Handle :=
  match objects id with
  | some object => object.holds
  | none => []

def World.ledger (w : World) : Ledger Nat Handle where
  held := heldBy w.objects
  freed := w.released

section holdings

variable {objects : Nat → Option Object} {id src dst : Nat} {this other : Object}

theorem heldBy_of_lives (lives : objects id = some this) : heldBy objects id = this.holds := by
  simp [heldBy, lives]

theorem heldBy_of_vacant (vacant : objects id = none) : heldBy objects id = [] := by
  simp [heldBy, vacant]

theorem heldBy_update (objects : Nat → Option Object) (id owner : Nat) (object : Option Object) :
    heldBy (Function.update objects id object) owner =
      if owner = id then (object.map Object.holds).getD [] else heldBy objects owner := by
  by_cases same : owner = id
  · subst same
    cases object <;> simp [heldBy]
  · simp [heldBy, same]

-- A source that has given up what it held holds nothing.
theorem heldBy_moved (lives : objects src = some other) (apart : dst ≠ src) (owner : Nat) :
    heldBy (Function.update (Function.update objects src (some other.moveConstruct.2)) dst
        (some other.moveConstruct.1)) owner =
      if owner = src then [] else if owner = dst then heldBy objects src
      else heldBy objects owner := by
  obtain ⟨taken, left⟩ := other.moveConstruct_holds
  rw [heldBy_update, heldBy_update, heldBy_of_lives lives]
  by_cases source : owner = src
  · simp [source, apart.symm, left]
  · simp [source, taken]

end holdings

theorem World.ledger_ext {w : World} {ledger : Ledger Nat Handle}
    (held : ∀ id, heldBy w.objects id = ledger.held id) (freed : w.released = ledger.freed) :
    w.ledger = ledger := by
  cases ledger
  obtain rfl : heldBy w.objects = _ := funext held
  obtain rfl := freed
  rfl

/-- What a step does to the ledger. -/
inductive Transfer (w next : World) : Prop
  | none (ledger : next.ledger = w.ledger) (created : next.created = w.created)
      (count : next.count = w.count)
  | give (id : Nat) (handles : List Handle) (vacant : w.ledger.held id = [])
      (nodup : handles.Nodup) (numbered : ∀ handle ∈ handles, handle.number = w.count)
      (ledger : next.ledger = w.ledger.give id handles)
      (created : next.created = w.created ++ handles) (count : next.count = w.count + 1)
  | move (src dst : Nat) (apart : src ≠ dst) (vacant : w.ledger.held dst = [])
      (ledger : next.ledger = w.ledger.move src dst) (created : next.created = w.created)
      (count : next.count = w.count)
  | free (id : Nat) (ledger : next.ledger = w.ledger.free id) (created : next.created = w.created)
      (count : next.count = w.count)
  | replace (src dst : Nat) (apart : src ≠ dst)
      (ledger : next.ledger = (w.ledger.free dst).move src dst)
      (created : next.created = w.created) (count : next.count = w.count)

theorem Object.Fresh.numbered {number : Nat} {object : Object} (fresh : object.Fresh number) :
    ∀ handle ∈ object.holds, handle.number = number := by
  cases fresh with
  | qp type ctx => simp [holds, Handle.number]
  | cq => simp [holds, Handle.number]
  | region ctx device ptr size => cases device <;> simp [holds, Handle.number]

theorem Change.transfer {w next : World} (change : Change w next) : Transfer w next := by
  cases change with
  | unchanged => exact .none rfl rfl rfl
  | @created id object vacant fresh record reset =>
    refine .give id object.holds (heldBy_of_vacant vacant) object.holds_nodup fresh.numbered
      (World.ledger_ext (fun owner => ?_) rfl) rfl rfl
    rw [Ledger.give_held, heldBy_update]
    rfl
  | @moved dst src other vacant lives =>
    have apart : dst ≠ src := by
      rintro rfl
      rw [vacant] at lives
      cases lives
    refine .move src dst apart.symm (heldBy_of_vacant vacant)
      (World.ledger_ext (fun owner => ?_) rfl) rfl rfl
    rw [heldBy_moved lives apart, Ledger.move_held]
    rfl
  | @assigned dst src this other apart target lives =>
    refine .replace src dst apart.symm (World.ledger_ext (fun owner => ?_) ?_) rfl rfl
    · rw [heldBy_moved lives apart, Ledger.move_held, Ledger.free_held, Ledger.free_held,
        if_neg apart.symm]
      by_cases target : owner = dst
      · simp [target, World.ledger]
      · simp [target, World.ledger]
    · change w.released ++ this.destroy = w.released ++ heldBy w.objects dst
      rw [heldBy_of_lives target, this.destroy_eq]
  | @destroyed id this lives =>
    refine .free id (World.ledger_ext (fun owner => ?_) ?_) rfl rfl
    · rw [Ledger.free_held, heldBy_update]
      rfl
    · change w.released ++ this.destroy = w.released ++ heldBy w.objects id
      rw [heldBy_of_lives lives, this.destroy_eq]
  | @driven id type this driver modified after lives call ok =>
    obtain ⟨objects, count, created, released⟩ := w.record_keeps driver this modified.calls
    refine .none (World.ledger_ext (fun owner => ?_) released) created count
    rw [heldBy_update]
    by_cases same : owner = id
    · subst same
      rw [if_pos rfl]
      exact (heldBy_of_lives lives).symm
    · rw [if_neg same]
      rfl

/-- The ledger is linear and knows every handle that was created and no other. -/
structure Owned (w : World) : Prop where
  linear : w.ledger.Linear
  known : ∀ handle, w.ledger.Known handle ↔ handle ∈ w.created
  numbered : ∀ handle ∈ w.created, handle.number < w.count

theorem Transfer.owned {w next : World} (transfer : Transfer w next) (owned : Owned w) :
    Owned next := by
  cases transfer with
  | none ledger created count =>
    exact ⟨ledger ▸ owned.linear, by rw [ledger, created]; exact owned.known,
      by rw [created, count]; exact owned.numbered⟩
  | give id handles vacant nodup numbered ledger created count =>
    have fresh : ∀ handle ∈ handles, ¬ w.ledger.Known handle := by
      intro handle given known
      have below := owned.numbered handle ((owned.known handle).mp known)
      have here := numbered handle given
      omega
    refine ⟨ledger ▸ owned.linear.give nodup fresh, fun handle => ?_, fun handle listed => ?_⟩
    · rw [ledger, Ledger.known_give vacant, created, List.mem_append, owned.known]
    · rw [created] at listed
      rw [count]
      rcases List.mem_append.mp listed with before | given
      · have := owned.numbered handle before
        omega
      · have := numbered handle given
        omega
  | move src dst apart vacant ledger created count =>
    refine ⟨ledger ▸ owned.linear.move apart, fun handle => ?_, by
      rw [created, count]; exact owned.numbered⟩
    rw [ledger, Ledger.known_move apart vacant, created, owned.known]
  | free id ledger created count =>
    refine ⟨ledger ▸ owned.linear.free, fun handle => ?_, by
      rw [created, count]; exact owned.numbered⟩
    rw [ledger, Ledger.known_free, created, owned.known]
  | replace src dst apart ledger created count =>
    have vacant : (w.ledger.free dst).held dst = [] := by
      rw [Ledger.free_held, if_pos rfl]
    refine ⟨ledger ▸ owned.linear.free.move apart, fun handle => ?_, by
      rw [created, count]; exact owned.numbered⟩
    rw [ledger, Ledger.known_move apart vacant, Ledger.known_free, created, owned.known]

/-! ## Regions -/

-- Device memory belongs to a registration of the same construction.
def Object.Attached : Object → Prop
  | .region this => ∀ number, this.dm = some number → this.mr = some number
  | .qp _ _ | .cq _ => True

theorem Object.Fresh.attached {number : Nat} {object : Object} (fresh : object.Fresh number) :
    object.Attached := by
  cases fresh with
  | qp type ctx => exact trivial
  | cq => exact trivial
  | region ctx device ptr size => cases device <;> simp [Attached]

theorem Object.Attached.moveConstruct {other : Object} (attached : other.Attached) :
    other.moveConstruct.1.Attached ∧ other.moveConstruct.2.Attached := by
  cases other with
  | qp type this => exact ⟨trivial, trivial⟩
  | cq this => exact ⟨trivial, trivial⟩
  | region this => exact ⟨attached, nofun⟩

theorem Object.Attached.before {object : Object} (attached : object.Attached) {number : Nat}
    (held : .dm number ∈ object.holds) : object.holds = [.mr number, .dm number] := by
  cases object with
  | qp type this => simp [holds] at held
  | cq this => simp [holds] at held
  | region this =>
    obtain dm : this.dm = some number := by simpa [holds] using held
    simp [holds, dm, attached number dm]

structure Ordered (w : World) : Prop where
  attached : ∀ id object, w.objects id = some object → object.Attached
  released : ∀ number, Handle.dm number ∈ w.released →
    [Handle.mr number, .dm number].Sublist w.released

theorem attached_update {objects : Nat → Option Object} {id : Nat} {object : Option Object}
    (all : ∀ id object, objects id = some object → object.Attached)
    (here : ∀ found, object = some found → found.Attached) :
    ∀ other found, Function.update objects id object other = some found → found.Attached := by
  intro other found lives
  rw [Function.update_apply] at lives
  split at lives
  next => exact here found lives
  next => exact all other found lives

theorem released_ordered {w : World} (ordered : Ordered w) {id : Nat} {object : Object}
    (lives : w.objects id = some object) (number : Nat)
    (freed : .dm number ∈ (w.release object.destroy).released) :
    [Handle.mr number, .dm number].Sublist (w.release object.destroy).released := by
  have attached := ordered.attached id object lives
  rw [object.destroy_eq] at freed ⊢
  rcases List.mem_append.mp freed with before | here
  · exact (ordered.released number before).trans (List.sublist_append_left ..)
  · refine List.Sublist.trans ?_ (List.sublist_append_right w.released object.holds)
    rw [attached.before here]

theorem Change.ordered {w next : World} (change : Change w next) (ordered : Ordered w) :
    Ordered next := by
  cases change with
  | unchanged => exact ordered
  | @created id object vacant fresh record reset =>
    exact ⟨attached_update ordered.attached (by rintro _ ⟨⟩; exact fresh.attached), ordered.released⟩
  | @moved dst src other vacant lives =>
    have both := (ordered.attached src other lives).moveConstruct
    refine ⟨attached_update (attached_update ordered.attached ?_) ?_, ordered.released⟩
    · rintro _ ⟨⟩
      exact both.2
    · rintro _ ⟨⟩
      exact both.1
  | @assigned dst src this other apart target lives =>
    have both := (ordered.attached src other lives).moveConstruct
    refine ⟨attached_update (attached_update ordered.attached ?_) ?_, released_ordered ordered target⟩
    · rintro _ ⟨⟩
      exact both.2
    · rintro _ ⟨⟩
      exact both.1
  | @destroyed id this lives =>
    exact ⟨attached_update ordered.attached nofun, released_ordered ordered lives⟩
  | @driven id type this driver modified after lives call ok =>
    obtain ⟨objects, count, created, released⟩ := w.record_keeps driver this modified.calls
    refine ⟨attached_update ordered.attached (by rintro _ ⟨⟩; exact trivial), ?_⟩
    simp only [released]
    exact ordered.released

/-! ## Programs -/

/-- Every live handle has one holder, no handle is released twice or held after its release, a
registration goes before its device memory, and when no object is left nothing is. -/
structure OwnedLinearly (w : World) : Prop where
  holder : ∀ handle ∈ w.created, handle ∉ w.released →
    ∃! id, ∃ object, w.objects id = some object ∧ handle ∈ object.holds
  single : ∀ id object, w.objects id = some object → object.holds.Nodup
  created : ∀ id object, w.objects id = some object → ∀ handle ∈ object.holds, handle ∈ w.created
  once : w.released.Nodup
  dead : ∀ handle ∈ w.released, ∀ id object, w.objects id = some object → handle ∉ object.holds
  ordered : ∀ number, Handle.dm number ∈ w.released →
    [Handle.mr number, .dm number].Sublist w.released
  emptied : (∀ id, w.objects id = none) → ∀ handle ∈ w.created, w.released.count handle = 1

theorem mem_heldBy {objects : Nat → Option Object} {id : Nat} {handle : Handle} :
    handle ∈ heldBy objects id ↔ ∃ object, objects id = some object ∧ handle ∈ object.holds := by
  unfold heldBy
  cases lives : objects id <;> simp

theorem owned_linearly {w : World} (owned : Owned w) (ordered : Ordered w) : OwnedLinearly w := by
  have alive : ∀ handle ∈ w.created, handle ∉ w.released → ∃! id, handle ∈ heldBy w.objects id :=
    fun handle listed live => owned.linear.holder ((owned.known handle).mpr listed) live
  constructor
  · intro handle listed live
    simpa only [mem_heldBy] using alive handle listed live
  · exact fun id object _ => object.holds_nodup
  · intro id object lives handle holds
    exact (owned.known handle).mp (.inr ⟨id, mem_heldBy.mpr ⟨object, lives, holds⟩⟩)
  · exact owned.linear.freedNodup
  · intro handle freed id object lives holds
    exact owned.linear.freedApart id (mem_heldBy.mpr ⟨object, lives, holds⟩) freed
  · exact ordered.released
  · intro emptied handle listed
    refine List.count_eq_one_of_mem owned.linear.freedNodup ?_
    by_contra live
    obtain ⟨id, holds, -⟩ := alive handle listed live
    obtain ⟨object, lives, -⟩ := mem_heldBy.mp holds
    rw [emptied id] at lives
    cases lives

theorem empty_owned : Owned {} :=
  ⟨Ledger.empty_linear, by simp [Ledger.Known, World.ledger, heldBy], by simp⟩

theorem empty_ordered : Ordered {} := ⟨nofun, by simp⟩

theorem run_owned {actions : List Action} {w : World} (ran : run World.step {} actions = .ok w) :
    Owned w ∧ Ordered w :=
  run_invariant World.step (fun w => Owned w ∧ Ordered w)
    (fun _ _ _ both taken =>
      ⟨(World.step_change taken).transfer.owned both.1, (World.step_change taken).ordered both.2⟩)
    actions ⟨empty_owned, empty_ordered⟩ ran

/-- After every program, driver handles are owned linearly. -/
theorem handles_owned_linearly {actions : List Action} {w : World}
    (ran : run World.step {} actions = .ok w) : OwnedLinearly w :=
  owned_linearly (run_owned ran).1 (run_owned ran).2

-- Moves of every kind, an assignment onto a live region and one of an object to itself.
def churn : List Action :=
  [.constructQp 0 twoPorts .rc rfl 7, .constructRegion 1 twoPorts true 0 64, .constructCq 2,
    .moveConstruct 3 0, .moveAssign 3 3, .constructRegion 4 twoPorts true 0 64, .moveAssign 4 1,
    .moveAssign 0 3, .destroy 3, .destroy 0, .destroy 1, .destroy 4, .destroy 2]

theorem churn_owned :
    ∃ w, run World.step {} churn = .ok w ∧
      w.released = [.mr 3, .dm 3, .qp 0, .mr 1, .dm 1, .cq 2] ∧ OwnedLinearly w := by
  have ran : run World.step {} churn = .ok _ := rfl
  exact ⟨_, ran, rfl, handles_owned_linearly ran⟩

end Rdmalib2
