import Rdmalib2.Memory.SliceChain

set_option autoImplicit false

/-!
# The slice guard over the whole argument range

The guard adds two words, so a sum that wraps may pass it. The one-argument overload computes
the size that makes the sum come out right, so its guard never fails.
-/

namespace Rdmalib2

open Shared

/-- The call returns exactly when it stays within the parent, and then the bytes it asked for. -/
structure SliceCall.Enforced (parent : UInt64) (call : SliceCall)
    (outcome : Except Failure RdmaMemorySlice) : Prop where
  returns : (∃ child, outcome = .ok child) ↔ call.Fits parent.toNat
  panics : (∃ message args, outcome = .error (.panic message args)) ↔ ¬ call.Fits parent.toNat
  size : ∀ child, outcome = .ok child → child.size.toNat = call.length parent.toNat

/-- The words the guard compares are the numbers they stand for, or at least the sum that
wrapped is still too large. -/
def SliceCall.NoWrap (parent : Nat) : SliceCall → Prop
  | .slice offset size =>
      2 ^ 64 ≤ offset.toNat + size.toNat → parent < offset.toNat + size.toNat - 2 ^ 64
  | .sliceFrom offset => offset.toNat ≤ parent

instance (parent : Nat) (call : SliceCall) : Decidable (call.NoWrap parent) :=
  match call with
  | .slice _ _ => inferInstanceAs (Decidable (_ → _))
  | .sliceFrom _ => inferInstanceAs (Decidable (_ ≤ _))

namespace SliceCall

theorem guard_iff (parent : UInt64) (call : SliceCall) :
    (call.offset + call.size parent ≤ parent ↔ call.Fits parent.toNat) ↔
      call.NoWrap parent.toNat := by
  have := parent.toNat_lt
  cases call with
  | slice offset size =>
    simp only [SliceCall.offset, SliceCall.size, Fits, length, NoWrap, UInt64.le_iff_toNat_le]
    by_cases wraps : 2 ^ 64 ≤ offset.toNat + size.toNat
    · rw [toNat_add_of_le wraps]
      constructor
      · intro exact
        by_contra small
        omega
      · intro big
        have := big wraps
        omega
    · rw [toNat_add_of_lt (by omega)]
      exact ⟨fun _ big => absurd big wraps, fun _ => Iff.rfl⟩
  | sliceFrom offset =>
    have sum : offset + (parent - offset) = parent := by
      rw [UInt64.add_comm, UInt64.sub_add_cancel]
    simp only [SliceCall.offset, SliceCall.size, Fits, length, NoWrap, sum]
    constructor
    · intro exact
      have := exact.mp (UInt64.le_refl parent)
      omega
    · intro below
      exact ⟨fun _ => by omega, fun _ => UInt64.le_refl parent⟩

-- The verdict of the guard, whatever function it stands in.
theorem enforced_iff (parent : UInt64) (call : SliceCall) (region : RdmaMemoryRegion)
    (outcome : Except Failure RdmaMemorySlice) (message : String) (args : List Int)
    (accepted : call.offset + call.size parent ≤ parent →
      outcome = .ok (.ofRegion region call.offset (call.size parent)))
    (rejected : parent < call.offset + call.size parent →
      outcome = .error (.panic message args)) :
    call.Enforced parent outcome ↔ call.NoWrap parent.toNat := by
  rw [← guard_iff]
  by_cases guard : call.offset + call.size parent ≤ parent
  · have returned := accepted guard
    constructor
    · intro enforced
      exact ⟨fun _ => enforced.returns.mp ⟨_, returned⟩, fun _ => guard⟩
    · intro exact
      have fits := exact.mp guard
      refine ⟨by simp [returned, fits], by simp [returned, fits], ?_⟩
      intro child same
      obtain rfl := Except.ok.inj (returned.symm.trans same)
      exact size_toNat fits
  · have panicked := rejected (UInt64.not_le.mp guard)
    constructor
    · intro enforced
      have outside := enforced.panics.mp ⟨_, _, panicked⟩
      exact ⟨fun within => absurd within guard, fun fits => absurd fits outside⟩
    · intro exact
      have outside : ¬ call.Fits parent.toNat := fun fits => guard (exact.mpr fits)
      exact ⟨by simp [panicked, outside], by simp [panicked, outside], by simp [panicked]⟩

theorem apply_enforced_iff (parent : RdmaMemorySlice) (call : SliceCall) :
    call.Enforced parent.size (call.apply parent) ↔ call.NoWrap parent.size.toNat := by
  rw [apply_eq]
  exact enforced_iff parent.size call parent.region _ _ _
    RdmaMemorySlice.slice_of_guard RdmaMemorySlice.slice_of_not_guard

theorem applyRegion_enforced_iff (region : RdmaMemoryRegion) (call : SliceCall) :
    call.Enforced region.size (call.applyRegion region) ↔ call.NoWrap region.size.toNat := by
  rw [applyRegion_eq]
  exact enforced_iff region.size call region _ _ _
    RdmaMemoryRegion.slice_of_guard RdmaMemoryRegion.slice_of_not_guard

end SliceCall

/-! ## Entries made from the slices of a chain -/

def IbvSge.bytes (sge : IbvSge) : Set UInt64 :=
  { a | ∃ i < sge.length.toNat, a = sge.addr + UInt64.ofNat i }

theorem RdmaMemorySlice.toSge_bytes {slice : RdmaMemorySlice} {sge : IbvSge}
    (converted : slice.toSge = .ok sge) : sge.bytes = slice.bytes := by
  unfold toSge at converted
  split at converted
  next => cases converted
  next small =>
    cases converted
    have length : slice.size.toUInt32.toNat = slice.size.toNat := by
      rw [UInt64.toNat_toUInt32, Nat.mod_eq_of_lt (by omega)]
    simp only [IbvSge.bytes, RdmaMemorySlice.bytes, length]

/-- An entry made from the slice stays inside the registered bytes of the region. -/
def RdmaMemorySlice.EntryWithin (region : RdmaMemoryRegion) (slice : RdmaMemorySlice) : Prop :=
  ∀ sge, slice.toSge = .ok sge → sge.bytes ⊆ region.bytes

theorem RdmaMemorySlice.Designates.entryWithin {slice : RdmaMemorySlice}
    {region : RdmaMemoryRegion} {e : Extent region.size.toNat}
    (designates : slice.Designates region e) : slice.EntryWithin region := by
  intro sge converted
  rw [toSge_bytes converted, designates.bytes, RdmaMemoryRegion.bytes_eq]
  exact Extent.image_mono _ (Extent.inside_whole e)

theorem RdmaMemorySlice.ofRegion_designates (region : RdmaMemoryRegion) (offset size : UInt64)
    (within : offset.toNat + size.toNat ≤ region.size.toNat) :
    (ofRegion region offset size).Designates region ⟨offset.toNat, size.toNat, within⟩ :=
  ⟨rfl, by simp [ofRegion, addVoidPtr, RdmaMemoryRegion.getPtr, RdmaMemoryRegion.address], rfl⟩

namespace SliceCall

-- The offset counts from the region, but a parent is never longer than its region.
theorem apply_designates {region : RdmaMemoryRegion} {parent child : RdmaMemorySlice}
    {e : Extent region.size.toNat} {call : SliceCall} (designates : parent.Designates region e)
    (noWrap : call.NoWrap parent.size.toNat) (taken : call.apply parent = .ok child) :
    ∃ inner, child.Designates region inner := by
  have fits := ((apply_enforced_iff parent call).mpr noWrap).returns.mp ⟨child, taken⟩
  have length := size_toNat fits
  have := e.within
  have := designates.size
  rw [apply_eq, RdmaMemorySlice.slice_of_guard (guard_of_fits fits), designates.memory] at taken
  unfold Fits at fits
  obtain rfl := Except.ok.inj taken
  exact ⟨_, RdmaMemorySlice.ofRegion_designates region _ _ (by omega)⟩

theorem applyRegion_designates {region : RdmaMemoryRegion} {child : RdmaMemorySlice}
    {call : SliceCall} (noWrap : call.NoWrap region.size.toNat)
    (taken : call.applyRegion region = .ok child) : ∃ inner, child.Designates region inner := by
  have fits := ((applyRegion_enforced_iff region call).mpr noWrap).returns.mp ⟨child, taken⟩
  have length := size_toNat fits
  rw [applyRegion_eq, RdmaMemoryRegion.slice_of_guard (guard_of_fits fits)] at taken
  unfold Fits at fits
  obtain rfl := Except.ok.inj taken
  exact ⟨_, RdmaMemorySlice.ofRegion_designates region _ _ (by omega)⟩

end SliceCall

namespace SliceChain

/-- Every call the chain makes is judged exactly, and no slice it returns becomes an entry
that leaves the region. -/
structure Enforced (region : RdmaMemoryRegion) (chain : SliceChain) : Prop where
  root : chain.root.asCall.Enforced region.size (chain.root.apply region)
  first : ∀ first, chain.root.apply region = .ok first → first.EntryWithin region
  calls : ∀ first, chain.root.apply region = .ok first →
    Always SliceCall.apply (fun parent call =>
      call.Enforced parent.size (call.apply parent) ∧
        ∀ child, call.apply parent = .ok child → child.EntryWithin region) first chain.calls

/-- No call the chain makes passes the guard by wrapping around. -/
structure NoWrap (region : RdmaMemoryRegion) (chain : SliceChain) : Prop where
  root : chain.root.asCall.NoWrap region.size.toNat
  calls : ∀ first, chain.root.apply region = .ok first →
    Always SliceCall.apply (fun parent call => call.NoWrap parent.size.toNat) first chain.calls

theorem calls_enforced_iff (region : RdmaMemoryRegion) (first : RdmaMemorySlice)
    (calls : List SliceCall) (designates : ∃ e, first.Designates region e) :
    Always SliceCall.apply (fun parent call =>
        call.Enforced parent.size (call.apply parent) ∧
          ∀ child, call.apply parent = .ok child → child.EntryWithin region) first calls ↔
      Always SliceCall.apply (fun parent call => call.NoWrap parent.size.toNat) first calls := by
  refine always_congr SliceCall.apply (fun parent => ∃ e, parent.Designates region e) _ _
    ?_ ?_ calls designates
  · rintro parent call ⟨e, designates⟩
    constructor
    · rintro ⟨enforced, -⟩
      exact (SliceCall.apply_enforced_iff parent call).mp enforced
    · intro noWrap
      refine ⟨(SliceCall.apply_enforced_iff parent call).mpr noWrap, fun child taken => ?_⟩
      obtain ⟨inner, inside⟩ := SliceCall.apply_designates designates noWrap taken
      exact inside.entryWithin
  · rintro parent call child ⟨e, designates⟩ noWrap taken
    exact SliceCall.apply_designates designates noWrap taken

end SliceChain

theorem SliceChain.enforced_iff (region : RdmaMemoryRegion) (chain : SliceChain) :
    chain.Enforced region ↔ chain.NoWrap region := by
  have rootIff := SliceCall.applyRegion_enforced_iff region chain.root.asCall
  rw [← SliceRoot.apply_eq] at rootIff
  constructor
  · intro enforced
    have root := rootIff.mp enforced.root
    refine ⟨root, fun first taken => ?_⟩
    rw [SliceRoot.apply_eq] at taken
    have designates := SliceCall.applyRegion_designates root taken
    rw [← SliceRoot.apply_eq] at taken
    exact (SliceChain.calls_enforced_iff region first _ designates).mp (enforced.calls first taken)
  · intro noWrap
    have designated (first : RdmaMemorySlice) (taken : chain.root.apply region = .ok first) :
        ∃ e, first.Designates region e := by
      rw [SliceRoot.apply_eq] at taken
      exact SliceCall.applyRegion_designates noWrap.root taken
    refine ⟨rootIff.mpr noWrap.root, fun first taken => ?_, fun first taken => ?_⟩
    · obtain ⟨e, designates⟩ := designated first taken
      exact designates.entryWithin
    · exact (SliceChain.calls_enforced_iff region first _ (designated first taken)).mpr
        (noWrap.calls first taken)

theorem slice_bounds_enforced_iff (region : RdmaMemoryRegion) :
    (∀ call : SliceCall, call.Enforced region.size (call.applyRegion region) ↔
      call.NoWrap region.size.toNat) ∧
    (∀ (parent : RdmaMemorySlice) (call : SliceCall),
      call.Enforced parent.size (call.apply parent) ↔ call.NoWrap parent.size.toNat) ∧
    (∀ chain : SliceChain, chain.Enforced region ↔ chain.NoWrap region) :=
  ⟨SliceCall.applyRegion_enforced_iff region, SliceCall.apply_enforced_iff,
    SliceChain.enforced_iff region⟩

-- One byte before the page and one byte of it pass as a slice of two bytes.
theorem wrapped_slice_escapes :
    ¬ (SliceCall.slice 0xffffffffffffffff 2).Fits page.size.toNat ∧
      ∃ child sge, page.slice 0xffffffffffffffff 2 = .ok child ∧ child.toSge = .ok sge ∧
        ¬ sge.bytes ⊆ page.bytes := by
  refine ⟨by decide, { region := page, ptr := 0xfff, size := 2 },
    { addr := 0xfff, length := 2, lkey := 7 }, by decide, by decide, ?_⟩
  intro within
  have inside := within ⟨0, by decide, rfl⟩
  exact absurd inside (by decide : ¬ ∃ i < page.size.toNat, _ = page.ptr + UInt64.ofNat i)

end Rdmalib2
