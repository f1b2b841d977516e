import Rdmalib2.Memory.SliceChain
import Mathlib.Data.Set.Lattice
import Mathlib.Order.CompletePartialOrder

set_option autoImplicit false

/-!
# Slices of slices

What a chain of slices should denote, and exactly when it does: a slice made from a slice
starts at its offset within the region, so the offsets above the last one are lost.
-/

namespace Rdmalib2

open Shared

-- `last` is the slice the chain describes.
structure SliceChain.Composes (region : RdmaMemoryRegion) (chain : SliceChain)
    (last : RdmaMemorySlice) : Prop where
  start : last.ptr = region.ptr + chain.offsets.sum
  size : last.size.toNat = lastLength region.size.toNat chain.all
  direct : region.slice chain.offsets.sum last.size = .ok last
  nested : ∀ ancestor, chain.HasAncestor region ancestor → last.bytes ⊆ ancestor.bytes
  within : last.bytes ⊆ region.bytes

def SliceChain.OnlyLastMoves (chain : SliceChain) : Prop :=
  ∀ offset ∈ chain.offsets.dropLast, offset = 0

instance (chain : SliceChain) : Decidable chain.OnlyLastMoves :=
  List.decidableBAll (fun offset => offset = 0) _

/-! ## Offsets -/

theorem dropLast_sum_add_lastOffset (offset : UInt64) (calls : List SliceCall) :
    (offset :: calls.map SliceCall.offset).dropLast.sum + lastOffset offset calls =
      (offset :: calls.map SliceCall.offset).sum := by
  induction calls generalizing offset with
  | nil => simp [lastOffset]
  | cons call calls ih =>
    rw [List.map_cons, List.dropLast_cons_cons, List.sum_cons, lastOffset, UInt64.add_assoc, ih]
    rfl

theorem offsets_within (parent : Nat) (calls : List SliceCall) (inBounds : InBounds parent calls) :
    (calls.map fun c => c.offset.toNat).sum + lastLength parent calls ≤ parent := by
  have inside := Extent.inside_whole (descend (Extent.whole parent) calls inBounds)
  have offset := descend_offset (Extent.whole parent) calls inBounds
  have size := descend_size (Extent.whole parent) calls inBounds
  simp only [Extent.Inside, Extent.whole_offset, Extent.whole_size] at inside offset size
  omega

namespace SliceChain

theorem offsets_sum (chain : SliceChain) :
    chain.offsets.dropLast.sum + lastOffset 0 chain.all = chain.offsets.sum :=
  dropLast_sum_add_lastOffset chain.root.asCall.offset chain.calls

theorem offsets_small (region : RdmaMemoryRegion) (chain : SliceChain)
    (inBounds : chain.InBounds region) : (chain.offsets.map UInt64.toNat).sum < 2 ^ 64 := by
  have within := offsets_within _ _ inBounds
  have := region.size.toNat_lt
  simp only [offsets, List.map_map, Function.comp_def]
  omega

theorem dropLast_offsets_small (region : RdmaMemoryRegion) (chain : SliceChain)
    (inBounds : chain.InBounds region) :
    (chain.offsets.dropLast.map UInt64.toNat).sum < 2 ^ 64 := by
  have small := offsets_small region chain inBounds
  have nonempty : chain.offsets ≠ [] := by simp [offsets, all]
  rw [← List.dropLast_concat_getLast nonempty, List.map_append, List.sum_append] at small
  omega

theorem start_iff (region : RdmaMemoryRegion) (chain : SliceChain)
    (inBounds : chain.InBounds region) :
    region.ptr + lastOffset 0 chain.all = region.ptr + chain.offsets.sum ↔
      chain.OnlyLastMoves := by
  rw [← offsets_sum, UInt64.add_right_inj, UInt64.right_eq_add]
  exact sum_eq_zero_iff (dropLast_offsets_small region chain inBounds)

/-! ## Chains whose earlier offsets are zero -/

theorem onlyLastMoves_initial {chain : SliceChain} {before after : List SliceCall}
    (split : chain.calls = before ++ after) (zero : chain.OnlyLastMoves) :
    OnlyLastMoves { chain with calls := before } := by
  intro offset member
  refine zero offset ?_
  cases after with
  | nil => simpa [offsets, all, split] using member
  | cons call after =>
    have earlier : offset ∈ (before.map SliceCall.offset) ∨ offset = chain.root.asCall.offset := by
      have := List.mem_of_mem_dropLast member
      simpa [offsets, all, or_comm] using this
    have whole : chain.offsets = (chain.root.asCall.offset :: before.map SliceCall.offset) ++
        (call.offset :: after.map SliceCall.offset) := by
      simp [offsets, all, split]
    rw [whole, List.dropLast_append_of_ne_nil (by simp)]
    apply List.mem_append_left
    simpa [or_comm] using earlier

def extent (region : RdmaMemoryRegion) (chain : SliceChain) (inBounds : chain.InBounds region) :
    Extent region.size.toNat :=
  descend (Extent.whole region.size.toNat) chain.all (by rw [Extent.whole_size]; exact inBounds)

theorem extent_offset (region : RdmaMemoryRegion) (chain : SliceChain)
    (inBounds : chain.InBounds region) :
    (chain.extent region inBounds).offset = (chain.offsets.map UInt64.toNat).sum := by
  rw [extent, descend_offset, Extent.whole_offset, Nat.zero_add]
  simp [offsets, List.map_map, Function.comp_def]

theorem extent_size (region : RdmaMemoryRegion) (chain : SliceChain)
    (inBounds : chain.InBounds region) :
    (chain.extent region inBounds).size = lastLength region.size.toNat chain.all := by
  rw [extent, descend_size, Extent.whole_size]

theorem extent_address (region : RdmaMemoryRegion) (chain : SliceChain)
    (inBounds : chain.InBounds region) :
    region.address (chain.extent region inBounds).offset = region.ptr + chain.offsets.sum := by
  have small := offsets_small region chain inBounds
  rw [RdmaMemoryRegion.address, UInt64.add_right_inj, extent_offset, ← UInt64.toNat_inj,
    toNat_sum, UInt64.toNat_ofNat']

-- Without earlier offsets the code's slice is the extent the chain describes.
theorem eval_designates (region : RdmaMemoryRegion) (chain : SliceChain)
    (inBounds : chain.InBounds region) (zero : chain.OnlyLastMoves) :
    ∃ last, chain.eval region = .ok last ∧
      last.Designates region (chain.extent region inBounds) := by
  obtain ⟨size, length, evaluated⟩ := eval_inBounds region chain inBounds
  refine ⟨_, evaluated, ⟨rfl, ?_, ?_⟩⟩
  · rw [extent_address, ← (start_iff region chain inBounds).mpr zero]
    rfl
  · rw [extent_size]
    exact length

theorem inBounds_initial {region : RdmaMemoryRegion} {chain : SliceChain}
    {before after : List SliceCall} (split : chain.calls = before ++ after)
    (inBounds : chain.InBounds region) : InBounds region { chain with calls := before } := by
  have whole : chain.all = (chain.root.asCall :: before) ++ after := by simp [all, split]
  rw [InBounds, whole, inBounds_append] at inBounds
  exact inBounds.1

theorem extent_inside {region : RdmaMemoryRegion} {chain : SliceChain}
    {before after : List SliceCall} (split : chain.calls = before ++ after)
    (inBounds : chain.InBounds region) :
    (chain.extent region inBounds).Inside
      (extent region { chain with calls := before } (inBounds_initial split inBounds)) := by
  obtain ⟨root, calls⟩ := chain
  obtain rfl : calls = before ++ after := split
  exact descend_inside (Extent.whole region.size.toNat) (root.asCall :: before) after inBounds

theorem composes_of_onlyLastMoves (region : RdmaMemoryRegion) (chain : SliceChain)
    (inBounds : chain.InBounds region) (zero : chain.OnlyLastMoves) :
    ∃ last, chain.eval region = .ok last ∧ chain.Composes region last := by
  obtain ⟨last, evaluated, designates⟩ := eval_designates region chain inBounds zero
  have start : last.ptr = region.ptr + chain.offsets.sum := by
    rw [designates.ptr, extent_address]
  refine ⟨last, evaluated, ⟨start, ?_, ?_, ?_, ?_⟩⟩
  · rw [designates.size, extent_size]
  · have offset := extent_offset region chain inBounds
    have within := (chain.extent region inBounds).within
    have small := offsets_small region chain inBounds
    have sum : chain.offsets.sum.toNat = (chain.extent region inBounds).offset := by
      rw [toNat_sum, Nat.mod_eq_of_lt small, offset]
    have size := designates.size
    have := region.size.toNat_lt
    have guard : chain.offsets.sum + last.size ≤ region.size := by
      rw [UInt64.le_iff_toNat_le, toNat_add_of_lt (by omega)]
      omega
    rw [RdmaMemoryRegion.slice_of_guard guard]
    obtain ⟨memory, ptr, size⟩ := last
    obtain rfl : memory = region := designates.memory
    obtain rfl : ptr = memory.ptr + chain.offsets.sum := start
    rfl
  · rintro ancestor ⟨before, after, split, ancestorEval⟩
    obtain ⟨other, otherEval, otherDesignates⟩ := eval_designates region
      { chain with calls := before } (inBounds_initial split inBounds)
      (onlyLastMoves_initial split zero)
    obtain rfl : other = ancestor := by
      rw [otherEval] at ancestorEval
      exact Except.ok.inj ancestorEval
    rw [designates.bytes, otherDesignates.bytes]
    exact Extent.image_mono _ (extent_inside split inBounds)
  · rw [designates.bytes, RdmaMemoryRegion.bytes_eq]
    exact Extent.image_mono _ (Extent.inside_whole _)

theorem onlyLastMoves_of_composes {region : RdmaMemoryRegion} {chain : SliceChain}
    {last : RdmaMemorySlice} (inBounds : chain.InBounds region)
    (evaluated : chain.eval region = .ok last) (composes : chain.Composes region last) :
    chain.OnlyLastMoves := by
  obtain ⟨size, -, computed⟩ := eval_inBounds region chain inBounds
  obtain rfl : RdmaMemorySlice.ofRegion region (lastOffset 0 chain.all) size = last := by
    rw [evaluated] at computed
    exact (Except.ok.inj computed).symm
  exact (start_iff region chain inBounds).mp composes.start

end SliceChain

-- The ancestors of each chain are the chain's own result among others.
theorem sub_slices_compose_iff (region : RdmaMemoryRegion) (c d : SliceChain)
    (cInBounds : c.InBounds region) (dInBounds : d.InBounds region) :
    (∃ x y, c.eval region = .ok x ∧ d.eval region = .ok y ∧
      c.Composes region x ∧ d.Composes region y ∧
      ∀ a b, c.HasAncestor region a → d.HasAncestor region b →
        Disjoint a.bytes b.bytes → Disjoint x.bytes y.bytes) ↔
      c.OnlyLastMoves ∧ d.OnlyLastMoves := by
  constructor
  · rintro ⟨x, y, xEval, yEval, xComposes, yComposes, -⟩
    exact ⟨SliceChain.onlyLastMoves_of_composes cInBounds xEval xComposes,
      SliceChain.onlyLastMoves_of_composes dInBounds yEval yComposes⟩
  · rintro ⟨cZero, dZero⟩
    obtain ⟨x, xEval, xComposes⟩ := SliceChain.composes_of_onlyLastMoves region c cInBounds cZero
    obtain ⟨y, yEval, yComposes⟩ := SliceChain.composes_of_onlyLastMoves region d dInBounds dZero
    refine ⟨x, y, xEval, yEval, xComposes, yComposes, ?_⟩
    intro a b aAncestor bAncestor apart
    exact apart.mono (xComposes.nested a aAncestor) (yComposes.nested b bAncestor)

-- The first half of the page, then its second quarter.
def headThenPart : SliceChain :=
  { root := .call (.slice 0 32), calls := [.slice 16 16] }

-- The whole page, then its second half.
def wholeThenTail : SliceChain :=
  { root := .whole, calls := [.sliceFrom 32] }

-- The second half of the page, then that half's second half.
def tailThenPart : SliceChain :=
  { root := .call (.slice 32 32), calls := [.slice 16 16] }

theorem head_then_part_composes :
    ∃ x y, headThenPart.eval page = .ok x ∧ wholeThenTail.eval page = .ok y ∧
      headThenPart.Composes page x ∧ wholeThenTail.Composes page y ∧
      ∀ a b, headThenPart.HasAncestor page a → wholeThenTail.HasAncestor page b →
        Disjoint a.bytes b.bytes → Disjoint x.bytes y.bytes :=
  (sub_slices_compose_iff page headThenPart wholeThenTail (by decide) (by decide)).mpr
    ⟨by decide, by decide⟩

-- The part of the second half lands in the first half.
theorem tail_then_part_misplaced :
    tailThenPart.InBounds page ∧
      tailThenPart.eval page = .ok { region := page, ptr := 0x1010, size := 16 } ∧
      page.ptr + tailThenPart.offsets.sum = 0x1030 ∧
      ¬ ∃ last, tailThenPart.eval page = .ok last ∧ tailThenPart.Composes page last := by
  have evaluated : tailThenPart.eval page =
      .ok { region := page, ptr := 0x1010, size := 16 } := by decide
  refine ⟨by decide, evaluated, by decide, ?_⟩
  rintro ⟨last, lastEval, composes⟩
  obtain rfl := Except.ok.inj (evaluated.symm.trans lastEval)
  exact absurd composes.start (by decide)

end Rdmalib2
