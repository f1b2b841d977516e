import Mathlib.Data.List.Nodup
import Mathlib.Logic.Function.Basic

set_option autoImplicit false

/-!
# Linear ownership

Owners hold handles and give them up to one another or free them. Linear ownership is kept by
each of the three ways in which handles change hands.
-/

namespace Shared

universe u v

variable {O : Type u} {H : Type v}

structure Ledger (O : Type u) (H : Type v) where
  held : O → List H
  freed : List H

namespace Ledger

def empty : Ledger O H := { held := fun _ => [], freed := [] }

-- A handle that some owner holds or held.
def Known (ledger : Ledger O H) (handle : H) : Prop :=
  handle ∈ ledger.freed ∨ ∃ owner, handle ∈ ledger.held owner

/-- No handle is held twice, freed twice, or held after it was freed. -/
structure Linear (ledger : Ledger O H) : Prop where
  nodup : ∀ owner, (ledger.held owner).Nodup
  apart : ∀ owner other, owner ≠ other → (ledger.held owner).Disjoint (ledger.held other)
  freedNodup : ledger.freed.Nodup
  freedApart : ∀ owner, (ledger.held owner).Disjoint ledger.freed

theorem empty_linear : (empty : Ledger O H).Linear :=
  ⟨fun _ => List.nodup_nil, fun _ _ _ => List.disjoint_nil_left _, List.nodup_nil,
    fun _ => List.disjoint_nil_left _⟩

-- A handle that is not freed has one holder.
theorem Linear.holder {ledger : Ledger O H} (linear : ledger.Linear) {handle : H}
    (known : ledger.Known handle) (live : handle ∉ ledger.freed) :
    ∃! owner, handle ∈ ledger.held owner := by
  obtain ⟨owner, holds⟩ := known.resolve_left live
  refine ⟨owner, holds, fun other also => ?_⟩
  by_contra apart
  exact linear.apart other owner apart also holds

variable [DecidableEq O]

def give (ledger : Ledger O H) (owner : O) (handles : List H) : Ledger O H :=
  { ledger with held := Function.update ledger.held owner handles }

def move (ledger : Ledger O H) (src dst : O) : Ledger O H :=
  { ledger with
    held := Function.update (Function.update ledger.held dst (ledger.held src)) src [] }

def free (ledger : Ledger O H) (owner : O) : Ledger O H where
  held := Function.update ledger.held owner []
  freed := ledger.freed ++ ledger.held owner

variable {ledger : Ledger O H} {owner src dst : O} {handles : List H} {handle : H}

theorem give_held (ledger : Ledger O H) (owner other : O) (handles : List H) :
    (ledger.give owner handles).held other = if other = owner then handles else ledger.held other := by
  simp only [give, Function.update_apply]

theorem free_held (ledger : Ledger O H) (owner other : O) :
    (ledger.free owner).held other = if other = owner then [] else ledger.held other := by
  simp only [free, Function.update_apply]

@[simp] theorem free_freed (ledger : Ledger O H) (owner : O) :
    (ledger.free owner).freed = ledger.freed ++ ledger.held owner := rfl

theorem move_held (ledger : Ledger O H) (src dst other : O) :
    (ledger.move src dst).held other =
      if other = src then [] else if other = dst then ledger.held src else ledger.held other := by
  simp only [move, Function.update_apply]

theorem Linear.give (linear : ledger.Linear) (nodup : handles.Nodup)
    (fresh : ∀ handle ∈ handles, ¬ ledger.Known handle) : (ledger.give owner handles).Linear := by
  have unheld : ∀ other, handles.Disjoint (ledger.held other) :=
    fun other handle given holds => fresh handle given (.inr ⟨other, holds⟩)
  constructor
  · intro other
    rw [give_held]
    split
    next => exact nodup
    next => exact linear.nodup other
  · intro one other apart
    rw [give_held, give_held]
    split
    next here =>
      rw [if_neg (fun there => apart (here.trans there.symm))]
      exact unheld other
    next =>
      split
      next => exact List.disjoint_symm (unheld one)
      next => exact linear.apart one other apart
  · exact linear.freedNodup
  · intro other
    rw [give_held]
    split
    next => exact fun handle given freed => fresh handle given (.inl freed)
    next => exact linear.freedApart other

theorem Linear.free (linear : ledger.Linear) : (ledger.free owner).Linear := by
  constructor
  · intro other
    rw [free_held]
    split
    next => exact List.nodup_nil
    next => exact linear.nodup other
  · intro one other apart
    rw [free_held, free_held]
    split
    next => exact List.disjoint_nil_left _
    next =>
      split
      next => exact List.disjoint_nil_right _
      next => exact linear.apart one other apart
  · exact List.nodup_append'.mpr
      ⟨linear.freedNodup, linear.nodup owner, List.disjoint_symm (linear.freedApart owner)⟩
  · intro other
    rw [free_held]
    split
    next => exact List.disjoint_nil_left _
    next apart =>
      rw [free_freed, List.disjoint_append_right]
      exact ⟨linear.freedApart other, linear.apart other owner apart⟩

theorem Linear.move (linear : ledger.Linear) (apart : src ≠ dst) : (ledger.move src dst).Linear := by
  -- Each list is one the ledger had, and no two owners have the same one.
  have moved : ∀ other, (ledger.move src dst).held other = [] ∨ ∃ before,
      (ledger.move src dst).held other = ledger.held before ∧
        (other = dst ∧ before = src ∨ other ≠ dst ∧ other ≠ src ∧ before = other) := by
    intro other
    rw [move_held]
    by_cases source : other = src
    · simp [source]
    · by_cases target : other = dst
      · simp [target, apart.symm]
      · simp [source, target]
  constructor
  · intro other
    rcases moved other with none | ⟨before, same, -⟩
    · rw [none]
      exact List.nodup_nil
    · rw [same]
      exact linear.nodup before
  · intro one other differ
    rcases moved one with none | ⟨first, same, placed⟩
    · rw [none]
      exact List.disjoint_nil_left _
    rcases moved other with none | ⟨second, same', laid⟩
    · rw [none]
      exact List.disjoint_nil_right _
    rw [same, same']
    refine linear.apart first second ?_
    rcases placed with ⟨rfl, rfl⟩ | ⟨-, here, rfl⟩
    · rcases laid with ⟨rfl, rfl⟩ | ⟨-, there, rfl⟩
      · exact absurd rfl differ
      · exact there.symm
    · rcases laid with ⟨rfl, rfl⟩ | ⟨-, -, rfl⟩
      · exact here
      · exact differ
  · exact linear.freedNodup
  · intro other
    rcases moved other with none | ⟨before, same, -⟩
    · rw [none]
      exact List.disjoint_nil_left _
    · rw [same]
      exact linear.freedApart before

/-! ## What is known -/

-- A gift to an owner that holds something would lose it.
theorem known_give (vacant : ledger.held owner = []) :
    (ledger.give owner handles).Known handle ↔ ledger.Known handle ∨ handle ∈ handles := by
  unfold Known
  constructor
  · rintro (freed | ⟨other, holds⟩)
    · exact .inl (.inl freed)
    · rw [give_held] at holds
      split at holds
      next => exact .inr holds
      next => exact .inl (.inr ⟨other, holds⟩)
  · rintro ((freed | ⟨other, holds⟩) | given)
    · exact .inl freed
    · refine .inr ⟨other, ?_⟩
      rw [give_held, if_neg]
      · exact holds
      · rintro rfl
        rw [vacant] at holds
        cases holds
    · exact .inr ⟨owner, by rwa [give_held, if_pos rfl]⟩

theorem known_free : (ledger.free owner).Known handle ↔ ledger.Known handle := by
  unfold Known
  rw [free_freed, List.mem_append]
  constructor
  · rintro ((freed | holds) | ⟨other, holds⟩)
    · exact .inl freed
    · exact .inr ⟨owner, holds⟩
    · rw [free_held] at holds
      split at holds
      next => cases holds
      next => exact .inr ⟨other, holds⟩
  · rintro (freed | ⟨other, holds⟩)
    · exact .inl (.inl freed)
    · by_cases same : other = owner
      · subst same
        exact .inl (.inr holds)
      · exact .inr ⟨other, by rwa [free_held, if_neg same]⟩

theorem known_move (apart : src ≠ dst) (vacant : ledger.held dst = []) :
    (ledger.move src dst).Known handle ↔ ledger.Known handle := by
  unfold Known
  constructor
  · rintro (freed | ⟨other, holds⟩)
    · exact .inl freed
    · rw [move_held] at holds
      split at holds
      next => cases holds
      next =>
        split at holds
        next => exact .inr ⟨src, holds⟩
        next => exact .inr ⟨other, holds⟩
  · rintro (freed | ⟨other, holds⟩)
    · exact .inl freed
    · by_cases source : other = src
      · subst source
        exact .inr ⟨dst, by rwa [move_held, if_neg apart.symm, if_pos rfl]⟩
      · refine .inr ⟨other, ?_⟩
        rw [move_held, if_neg source, if_neg]
        · exact holds
        · rintro rfl
          rw [vacant] at holds
          cases holds

end Ledger

end Shared
