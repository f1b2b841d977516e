import Mathlib.Data.Set.Image
import Mathlib.Order.Interval.Set.Basic

set_option autoImplicit false

/-!
# Extents

An extent is a stretch of positions inside `total` positions that carries the proof that
it fits. A part of an extent lies inside it, and an address map carries extents to sets of
addresses and keeps what lies inside what.
-/

namespace Shared

structure Extent (total : Nat) where
  offset : Nat
  size : Nat
  within : offset + size ≤ total

namespace Extent

variable {total : Nat} {A : Type}

@[ext] theorem ext {e f : Extent total} (offset : e.offset = f.offset) (size : e.size = f.size) :
    e = f := by
  cases e; cases f; cases offset; cases size; rfl

def whole (total : Nat) : Extent total := ⟨0, total, by omega⟩

def part (e : Extent total) (offset size : Nat) (fits : offset + size ≤ e.size) : Extent total :=
  ⟨e.offset + offset, size, by have := e.within; omega⟩

@[simp] theorem whole_offset : (whole total).offset = 0 := rfl

@[simp] theorem whole_size : (whole total).size = total := rfl

@[simp] theorem part_offset (e : Extent total) (offset size : Nat) (fits : offset + size ≤ e.size) :
    (e.part offset size fits).offset = e.offset + offset := rfl

@[simp] theorem part_size (e : Extent total) (offset size : Nat) (fits : offset + size ≤ e.size) :
    (e.part offset size fits).size = size := rfl

def Inside (e f : Extent total) : Prop :=
  f.offset ≤ e.offset ∧ e.offset + e.size ≤ f.offset + f.size

theorem Inside.refl (e : Extent total) : e.Inside e := ⟨le_rfl, le_rfl⟩

theorem Inside.trans {e f g : Extent total} (inner : e.Inside f) (outer : f.Inside g) :
    e.Inside g := ⟨le_trans outer.1 inner.1, le_trans inner.2 outer.2⟩

theorem part_inside (e : Extent total) (offset size : Nat) (fits : offset + size ≤ e.size) :
    (e.part offset size fits).Inside e := by
  constructor <;> simp only [part_offset, part_size] <;> omega

theorem inside_whole (e : Extent total) : e.Inside (whole total) := by
  have := e.within
  constructor <;> simp only [whole_offset, whole_size] <;> omega

/-- The addresses an extent occupies under an address map. -/
def image (addr : Nat → A) (e : Extent total) : Set A :=
  addr '' Set.Ico e.offset (e.offset + e.size)

theorem image_mono (addr : Nat → A) {e f : Extent total} (inside : e.Inside f) :
    e.image addr ⊆ f.image addr :=
  Set.image_mono (Set.Ico_subset_Ico inside.1 inside.2)

end Extent

end Shared
