import Rdmalib2.Memory.Slice
import Rdmalib2.Shared.Words

set_option autoImplicit false

namespace Rdmalib2

open Shared

-- A call of one of the two `slice` overloads.
inductive SliceCall where
  | slice (offset size : UInt64)
  | sliceFrom (offset : UInt64)
  deriving DecidableEq, Repr

namespace SliceCall

def offset : SliceCall → UInt64
  | .slice offset _ => offset
  | .sliceFrom offset => offset

-- The size argument that reaches the guard; one overload computes it from the parent's.
def size (parent : UInt64) : SliceCall → UInt64
  | .slice _ size => size
  | .sliceFrom offset => parent - offset

-- The same size without the wrap-around.
def length (parent : Nat) : SliceCall → Nat
  | .slice _ size => size.toNat
  | .sliceFrom offset => parent - offset.toNat

def Fits (parent : Nat) (call : SliceCall) : Prop :=
  call.offset.toNat + call.length parent ≤ parent

instance (parent : Nat) (call : SliceCall) : Decidable (call.Fits parent) :=
  inferInstanceAs (Decidable (_ ≤ _))

def apply (parent : RdmaMemorySlice) : SliceCall → Except Failure RdmaMemorySlice
  | .slice offset size => parent.slice offset size
  | .sliceFrom offset => parent.sliceFrom offset

def applyRegion (region : RdmaMemoryRegion) : SliceCall → Except Failure RdmaMemorySlice
  | .slice offset size => region.slice offset size
  | .sliceFrom offset => region.sliceFrom offset

-- Four functions share one guard over one pair of words.
theorem apply_eq (parent : RdmaMemorySlice) (call : SliceCall) :
    call.apply parent = parent.slice call.offset (call.size parent.size) := by
  cases call <;> rfl

theorem applyRegion_eq (region : RdmaMemoryRegion) (call : SliceCall) :
    call.applyRegion region = region.slice call.offset (call.size region.size) := by
  cases call <;> rfl

theorem size_toNat {parent : UInt64} {call : SliceCall} (fits : call.Fits parent.toNat) :
    (call.size parent).toNat = call.length parent.toNat := by
  cases call with
  | slice offset size => rfl
  | sliceFrom offset =>
    simp only [Fits, SliceCall.offset, length] at fits
    exact toNat_sub_of_le (by omega)

theorem guard_of_fits {parent : UInt64} {call : SliceCall} (fits : call.Fits parent.toNat) :
    call.offset + call.size parent ≤ parent := by
  have size := size_toNat fits
  have := parent.toNat_lt
  unfold Fits at fits
  rw [UInt64.le_iff_toNat_le, toNat_add_of_lt (by omega)]
  omega

end SliceCall

-- A chain leaves the region through `slice` or by the implicit conversion.
inductive SliceRoot where
  | call (c : SliceCall)
  | whole
  deriving DecidableEq, Repr

namespace SliceRoot

def asCall : SliceRoot → SliceCall
  | .call c => c
  | .whole => .sliceFrom 0

def apply (region : RdmaMemoryRegion) : SliceRoot → Except Failure RdmaMemorySlice
  | .call c => c.applyRegion region
  | .whole => .ok (.whole region)

end SliceRoot

structure SliceChain where
  root : SliceRoot
  calls : List SliceCall
  deriving DecidableEq, Repr

-- Every call fits its parent, the first one a parent of `parent` bytes.
def InBounds : Nat → List SliceCall → Prop
  | _, [] => True
  | parent, call :: calls => call.Fits parent ∧ InBounds (call.length parent) calls

instance InBounds.decidable : (parent : Nat) → (calls : List SliceCall) →
    Decidable (InBounds parent calls)
  | _, [] => .isTrue trivial
  | parent, call :: calls =>
      have := InBounds.decidable (call.length parent) calls
      inferInstanceAs (Decidable (_ ∧ _))

def lastLength : Nat → List SliceCall → Nat
  | parent, [] => parent
  | parent, call :: calls => lastLength (call.length parent) calls

namespace SliceChain

def all (chain : SliceChain) : List SliceCall := chain.root.asCall :: chain.calls

def offsets (chain : SliceChain) : List UInt64 := chain.all.map SliceCall.offset

def eval (region : RdmaMemoryRegion) (chain : SliceChain) : Except Failure RdmaMemorySlice :=
  match chain.root.apply region with
  | .ok first => run SliceCall.apply first chain.calls
  | .error e => .error e

def InBounds (region : RdmaMemoryRegion) (chain : SliceChain) : Prop :=
  Rdmalib2.InBounds region.size.toNat chain.all

instance (region : RdmaMemoryRegion) (chain : SliceChain) : Decidable (chain.InBounds region) :=
  inferInstanceAs (Decidable (Rdmalib2.InBounds _ _))

-- The result of the chain or of one of its beginnings.
def HasAncestor (region : RdmaMemoryRegion) (chain : SliceChain) (ancestor : RdmaMemorySlice) :
    Prop :=
  ∃ before after, chain.calls = before ++ after ∧
    eval region { chain with calls := before } = .ok ancestor

end SliceChain

-- The region that the runs on fixed inputs below use.
def page : RdmaMemoryRegion := { mr := ⟨7, 9⟩, ptr := 0x1000, size := 64 }

def RdmaMemoryRegion.address (region : RdmaMemoryRegion) (i : Nat) : UInt64 :=
  region.ptr + UInt64.ofNat i

-- Nothing keeps a region from running over the end of the address space.
def RdmaMemoryRegion.bytes (region : RdmaMemoryRegion) : Set UInt64 :=
  { a | ∃ i < region.size.toNat, a = region.ptr + UInt64.ofNat i }

def RdmaMemorySlice.bytes (slice : RdmaMemorySlice) : Set UInt64 :=
  { a | ∃ i < slice.size.toNat, a = slice.ptr + UInt64.ofNat i }

/-! ## Slices as extents of their region -/

def SliceCall.part {total : Nat} (call : SliceCall) (e : Extent total) (fits : call.Fits e.size) :
    Extent total :=
  e.part call.offset.toNat (call.length e.size) fits

@[simp] theorem SliceCall.part_size {total : Nat} (call : SliceCall) (e : Extent total)
    (fits : call.Fits e.size) : (call.part e fits).size = call.length e.size := rfl

@[simp] theorem SliceCall.part_offset {total : Nat} (call : SliceCall) (e : Extent total)
    (fits : call.Fits e.size) : (call.part e fits).offset = e.offset + call.offset.toNat := rfl

def descend {total : Nat} (e : Extent total) :
    (calls : List SliceCall) → InBounds e.size calls → Extent total
  | [], _ => e
  | call :: calls, inBounds =>
      descend (call.part e inBounds.1) calls (by rw [SliceCall.part_size]; exact inBounds.2)

theorem descend_offset {total : Nat} (e : Extent total) (calls : List SliceCall)
    (inBounds : InBounds e.size calls) :
    (descend e calls inBounds).offset = e.offset + (calls.map fun c => c.offset.toNat).sum := by
  induction calls generalizing e with
  | nil => simp [descend]
  | cons call calls ih =>
    rw [descend, ih]
    simp [Nat.add_assoc]

theorem descend_size {total : Nat} (e : Extent total) (calls : List SliceCall)
    (inBounds : InBounds e.size calls) :
    (descend e calls inBounds).size = lastLength e.size calls := by
  induction calls generalizing e with
  | nil => rfl
  | cons call calls ih =>
    rw [descend, ih]
    rfl

theorem inBounds_append (parent : Nat) (before after : List SliceCall) :
    InBounds parent (before ++ after) ↔
      InBounds parent before ∧ InBounds (lastLength parent before) after := by
  induction before generalizing parent with
  | nil => simp [InBounds, lastLength]
  | cons call before ih => simp [InBounds, lastLength, ih, and_assoc]

theorem descend_inside {total : Nat} (e : Extent total) (before after : List SliceCall)
    (inBounds : InBounds e.size (before ++ after)) :
    (descend e (before ++ after) inBounds).Inside
      (descend e before ((inBounds_append _ _ _).mp inBounds).1) := by
  induction before generalizing e with
  | nil =>
    simp only [List.nil_append, descend]
    induction after generalizing e with
    | nil => exact Extent.Inside.refl e
    | cons call after ih =>
      exact (ih _ inBounds.2).trans (Extent.part_inside e _ _ inBounds.1)
  | cons call before ih => exact ih (call.part e inBounds.1) inBounds.2

structure RdmaMemorySlice.Designates (slice : RdmaMemorySlice) (region : RdmaMemoryRegion)
    (e : Extent region.size.toNat) : Prop where
  memory : slice.region = region
  ptr : slice.ptr = region.address e.offset
  size : slice.size.toNat = e.size

theorem RdmaMemorySlice.Designates.bytes {slice : RdmaMemorySlice} {region : RdmaMemoryRegion}
    {e : Extent region.size.toNat} (designates : slice.Designates region e) :
    slice.bytes = e.image region.address := by
  ext a
  simp only [RdmaMemorySlice.bytes, Extent.image, Set.mem_ofPred_eq, Set.mem_image, Set.mem_Ico,
    designates.ptr, designates.size, RdmaMemoryRegion.address]
  constructor
  · rintro ⟨i, below, rfl⟩
    exact ⟨e.offset + i, ⟨by omega, by omega⟩, by simp [UInt64.ofNat_add, UInt64.add_assoc]⟩
  · rintro ⟨i, ⟨low, high⟩, rfl⟩
    refine ⟨i - e.offset, by omega, ?_⟩
    rw [UInt64.add_assoc, ← UInt64.ofNat_add, Nat.add_sub_cancel' low]

theorem RdmaMemoryRegion.bytes_eq (region : RdmaMemoryRegion) :
    region.bytes = (Extent.whole region.size.toNat).image region.address := by
  ext a
  simp [RdmaMemoryRegion.bytes, Extent.image, RdmaMemoryRegion.address, eq_comm]

/-! ## What the code computes -/

namespace RdmaMemorySlice

theorem slice_of_guard {this : RdmaMemorySlice} {offset size : UInt64}
    (within : offset + size ≤ this.size) :
    this.slice offset size = .ok (ofRegion this.region offset size) := by
  rw [slice, if_neg (UInt64.not_lt.mpr within)]

theorem slice_of_not_guard {this : RdmaMemorySlice} {offset size : UInt64}
    (beyond : this.size < offset + size) :
    this.slice offset size =
      .error (.panic "desired memory slice [{}, {}) is larger than the parent slice (size {})"
        [offset.toNat, (offset + size).toNat, this.size.toNat]) := by
  rw [slice, if_pos beyond]

end RdmaMemorySlice

namespace RdmaMemoryRegion

theorem slice_of_guard {this : RdmaMemoryRegion} {offset size : UInt64}
    (within : offset + size ≤ this.size) :
    this.slice offset size = .ok (.ofRegion this offset size) := by
  rw [slice, if_neg (UInt64.not_lt.mpr within)]

theorem slice_of_not_guard {this : RdmaMemoryRegion} {offset size : UInt64}
    (beyond : this.size < offset + size) :
    this.slice offset size =
      .error (.panic "desired memory slice [{}, {}) is larger than the region (size {})"
        [offset.toNat, (offset + size).toNat, this.size.toNat]) := by
  rw [slice, if_pos beyond]

end RdmaMemoryRegion

theorem SliceRoot.apply_eq (region : RdmaMemoryRegion) (root : SliceRoot) :
    root.apply region = root.asCall.applyRegion region := by
  cases root with
  | call c => rfl
  | whole =>
    have fits : (0 : UInt64) + (region.size - 0) ≤ region.size := by simp
    rw [asCall, SliceCall.applyRegion, RdmaMemoryRegion.sliceFrom,
      RdmaMemoryRegion.slice_of_guard fits, UInt64.sub_zero]
    rfl

def lastOffset : UInt64 → List SliceCall → UInt64
  | offset, [] => offset
  | _, call :: calls => lastOffset call.offset calls

-- Whatever the depth, only the last offset reaches the address.
theorem run_ofRegion (region : RdmaMemoryRegion) (offset size : UInt64) (calls : List SliceCall)
    (inBounds : InBounds size.toNat calls) :
    ∃ last : UInt64, last.toNat = lastLength size.toNat calls ∧
      run SliceCall.apply (.ofRegion region offset size) calls =
        .ok (.ofRegion region (lastOffset offset calls) last) := by
  induction calls generalizing offset size with
  | nil => exact ⟨size, rfl, rfl⟩
  | cons call calls ih =>
    obtain ⟨fits, rest⟩ := inBounds
    have requested := SliceCall.size_toNat fits
    have taken : call.apply (.ofRegion region offset size) =
        .ok (.ofRegion region call.offset (call.size size)) := by
      rw [SliceCall.apply_eq]
      exact RdmaMemorySlice.slice_of_guard (SliceCall.guard_of_fits fits)
    obtain ⟨last, length, ran⟩ := ih call.offset (call.size size) (by rwa [requested])
    refine ⟨last, by rw [length, requested]; rfl, ?_⟩
    rw [run_cons_ok _ _ taken, ran]
    rfl

theorem SliceChain.eval_inBounds (region : RdmaMemoryRegion) (chain : SliceChain)
    (inBounds : chain.InBounds region) :
    ∃ last : UInt64, last.toNat = lastLength region.size.toNat chain.all ∧
      chain.eval region = .ok (.ofRegion region (lastOffset 0 chain.all) last) := by
  obtain ⟨fits, rest⟩ := inBounds
  have requested := SliceCall.size_toNat fits
  have first : chain.root.apply region =
      .ok (.ofRegion region chain.root.asCall.offset (chain.root.asCall.size region.size)) := by
    rw [SliceRoot.apply_eq, SliceCall.applyRegion_eq]
    exact RdmaMemoryRegion.slice_of_guard (SliceCall.guard_of_fits fits)
  obtain ⟨last, length, ran⟩ := run_ofRegion region chain.root.asCall.offset
    (chain.root.asCall.size region.size) chain.calls (by rwa [requested])
  refine ⟨last, by rw [length, requested]; rfl, ?_⟩
  rw [eval, first]
  exact ran

end Rdmalib2
