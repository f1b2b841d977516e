import Rdmalib2.Memory.SliceChain
import Rdmalib2.Objects.Frame

set_option autoImplicit false

/-!
# Slices refer to region objects

A slice has a pointer and a size of its own and a reference to its region, where it goes for the
key and whenever it is cut. It reads what the region object has then.
-/

namespace Rdmalib2

open Shared

-- The keys of a registration, by the number of its handle.
abbrev Registrations := Nat → IbvMr

-- `region.` behind a reference
def World.region (w : World) (id : Nat) : Except Failure RegionObject :=
  match w.objects id with
  | some (.region this) => .ok this
  | _ => .error (.undefined "region outside its lifetime")

def RegionObject.getLkey (keys : Registrations) (this : RegionObject) : Except Failure UInt32 :=
  match this.mr with
  | some number => .ok (keys number).lkey
  | none => .error (.undefined "null memory region")

-- `rdma_memory_slice` with its reference as a reference.
structure SliceRef where
  region : Nat
  ptr : UInt64
  size : UInt64
  deriving DecidableEq, Repr

namespace SliceRef

-- `rdma_memory_slice(region, offset, size)`
def ofRegion (w : World) (region : Nat) (offset size : UInt64) : Except Failure SliceRef := do
  let object ← w.region region
  return { region, ptr := addVoidPtr object.ptr offset, size }

-- `rdma_memory_slice(region)`
def whole (w : World) (region : Nat) : Except Failure SliceRef := do
  let object ← w.region region
  ofRegion w region 0 object.size

-- `slice(offset, size)`
def slice (w : World) (this : SliceRef) (offset size : UInt64) : Except Failure SliceRef :=
  if offset + size > this.size then
    .error (.panic "desired memory slice [{}, {}) is larger than the parent slice (size {})"
      [offset.toNat, (offset + size).toNat, this.size.toNat])
  else ofRegion w this.region offset size

-- `slice(offset)`
def sliceFrom (w : World) (this : SliceRef) (offset : UInt64) : Except Failure SliceRef :=
  this.slice w offset (this.size - offset)

def toSge (w : World) (keys : Registrations) (this : SliceRef) : Except Failure IbvSge :=
  if this.size.toNat > 2 ^ 32 - 1 then
    .error (.panic "memory slice size {} is larger than the maximum allowed size {}"
      [this.size.toNat, 2 ^ 32 - 1])
  else do
    let object ← w.region this.region
    let lkey ← object.getLkey keys
    return { addr := this.ptr, length := this.size.toUInt32, lkey }

end SliceRef

namespace World

-- `region.slice(offset, size)`
def sliceRegion (w : World) (region : Nat) (offset size : UInt64) : Except Failure SliceRef := do
  let object ← w.region region
  if offset + size > object.size then
    .error (.panic "desired memory slice [{}, {}) is larger than the region (size {})"
      [offset.toNat, (offset + size).toNat, object.size.toNat])
  else SliceRef.ofRegion w region offset size

-- `region.slice(offset)`
def sliceRegionFrom (w : World) (region : Nat) (offset : UInt64) : Except Failure SliceRef := do
  let object ← w.region region
  w.sliceRegion region offset (object.size - offset)

end World

def SliceCall.applyRef (w : World) (parent : SliceRef) : SliceCall → Except Failure SliceRef
  | .slice offset size => parent.slice w offset size
  | .sliceFrom offset => parent.sliceFrom w offset

def SliceRoot.applyRef (w : World) (region : Nat) : SliceRoot → Except Failure SliceRef
  | .call (.slice offset size) => w.sliceRegion region offset size
  | .call (.sliceFrom offset) => w.sliceRegionFrom region offset
  | .whole => SliceRef.whole w region

-- A program's objects and its slices. A slice is never assigned to.
structure Memory where
  world : World := {}
  slices : Nat → Option SliceRef := fun _ => none

inductive MemoryAction where
  | act (action : Action)
  | root (id region : Nat) (root : SliceRoot)
  | cut (id parent : Nat) (call : SliceCall)
  | drop (id : Nat)

namespace Memory

def keep (m : Memory) (id : Nat) (made : Except Failure SliceRef) : Except Failure Memory :=
  made.map fun slice => { m with slices := Function.update m.slices id (some slice) }

def step (m : Memory) : MemoryAction → Except Failure Memory
  | .act action =>
      match m.world.step action with
      | .error exit => .error exit.failure
      | .ok world => .ok { m with world }
  | .root id region root => m.keep id (root.applyRef m.world region)
  | .cut id parent call =>
      match m.slices parent with
      | some slice => m.keep id (call.applyRef m.world slice)
      | none => .error (.undefined "slice outside its lifetime")
  | .drop id => .ok { m with slices := Function.update m.slices id none }

end Memory

/-! ## Regions that have their registration -/

-- A region that has a registration, with its keys.
def RegionObject.value (keys : Registrations) (this : RegionObject) : Option RdmaMemoryRegion :=
  this.mr.map fun number => { mr := keys number, ptr := this.ptr, size := this.size }

def SliceRef.value (region : RdmaMemoryRegion) (this : SliceRef) : RdmaMemorySlice :=
  { region, ptr := this.ptr, size := this.size }

def World.HasRegion (w : World) (keys : Registrations) (id : Nat) (region : RdmaMemoryRegion) :
    Prop :=
  ∃ this, w.objects id = some (.region this) ∧ this.value keys = some region

section refines

variable {w : World} {keys : Registrations} {id : Nat} {region : RdmaMemoryRegion}
  {this : SliceRef}

theorem World.HasRegion.reads (has : w.HasRegion keys id region) :
    ∃ object, w.region id = .ok object ∧ object.ptr = region.ptr ∧ object.size = region.size ∧
      object.getLkey keys = .ok region.getLkey := by
  obtain ⟨object, lives, same⟩ := has
  have found : w.region id = .ok object := by simp only [World.region, lives]
  obtain ⟨number, held, rfl⟩ := Option.map_eq_some_iff.mp same
  have key : object.getLkey keys = .ok (keys number).lkey := by
    simp only [RegionObject.getLkey, held]
  exact ⟨object, found, rfl, rfl, key⟩

theorem ofRegion_refines (has : w.HasRegion keys id region) (offset size : UInt64) :
    (SliceRef.ofRegion w id offset size).map (SliceRef.value region) =
      .ok (.ofRegion region offset size) := by
  obtain ⟨object, found, ptr, -, -⟩ := has.reads
  rw [SliceRef.ofRegion, found]
  simp [bind, Except.bind, pure, Except.pure, Except.map, ptr, SliceRef.value,
    RdmaMemorySlice.ofRegion, RdmaMemoryRegion.getPtr]

theorem slice_refines (has : w.HasRegion keys this.region region) (offset size : UInt64) :
    (this.slice w offset size).map (SliceRef.value region) =
      (this.value region).slice offset size := by
  unfold SliceRef.slice RdmaMemorySlice.slice
  change _ = if offset + size > this.size then _ else _
  by_cases beyond : offset + size > this.size
  · rw [if_pos beyond, if_pos beyond]
    rfl
  · rw [if_neg beyond, if_neg beyond, ofRegion_refines has]
    rfl

/-- A call on a slice does what it does on the value, and fails as it does. -/
theorem applyRef_refines (has : w.HasRegion keys this.region region) (call : SliceCall) :
    (call.applyRef w this).map (SliceRef.value region) = call.apply (this.value region) := by
  cases call with
  | slice offset size => exact slice_refines has offset size
  | sliceFrom offset => exact slice_refines has offset (this.size - offset)

theorem sliceRegion_refines (has : w.HasRegion keys id region) (offset size : UInt64) :
    (w.sliceRegion id offset size).map (SliceRef.value region) = region.slice offset size := by
  obtain ⟨object, found, -, same, -⟩ := has.reads
  rw [World.sliceRegion, found]
  simp only [bind, Except.bind, same]
  unfold RdmaMemoryRegion.slice
  by_cases beyond : offset + size > region.size
  · rw [if_pos beyond, if_pos beyond]
    rfl
  · rw [if_neg beyond, if_neg beyond, ofRegion_refines has]

theorem root_refines (has : w.HasRegion keys id region) (root : SliceRoot) :
    (root.applyRef w id).map (SliceRef.value region) = root.apply region := by
  obtain ⟨object, found, -, same, -⟩ := has.reads
  cases root with
  | call c =>
    cases c with
    | slice offset size => exact sliceRegion_refines has offset size
    | sliceFrom offset =>
      rw [SliceRoot.applyRef, World.sliceRegionFrom, found]
      simp only [bind, Except.bind, same]
      exact sliceRegion_refines has offset (region.size - offset)
  | whole =>
    rw [SliceRoot.applyRef, SliceRef.whole, found]
    simp only [bind, Except.bind, same]
    exact ofRegion_refines has 0 region.size

-- Whatever is cut off a slice refers to the same region.
theorem ofRegion_region {source : Nat} {offset size : UInt64} {made : SliceRef}
    (taken : SliceRef.ofRegion w source offset size = .ok made) : made.region = source := by
  obtain ⟨object, -, same⟩ := bind_ok.mp taken
  obtain rfl := Except.ok.inj same
  rfl

theorem slice_region {parent made : SliceRef} {offset size : UInt64}
    (taken : parent.slice w offset size = .ok made) : made.region = parent.region := by
  unfold SliceRef.slice at taken
  split at taken
  next => cases taken
  next => exact ofRegion_region taken

theorem applyRef_region {parent made : SliceRef} {call : SliceCall}
    (taken : call.applyRef w parent = .ok made) : made.region = parent.region := by
  cases call with
  | slice offset size => exact slice_region taken
  | sliceFrom offset => exact slice_region taken

theorem sliceRegion_region {source : Nat} {offset size : UInt64} {made : SliceRef}
    (taken : w.sliceRegion source offset size = .ok made) : made.region = source := by
  obtain ⟨object, -, rest⟩ := bind_ok.mp taken
  split at rest
  next => cases rest
  next => exact ofRegion_region rest

theorem root_region {source : Nat} {root : SliceRoot} {made : SliceRef}
    (taken : root.applyRef w source = .ok made) : made.region = source := by
  cases root with
  | call c =>
    cases c with
    | slice offset size => exact sliceRegion_region taken
    | sliceFrom offset =>
      obtain ⟨object, -, rest⟩ := bind_ok.mp taken
      exact sliceRegion_region rest
  | whole =>
    obtain ⟨object, -, rest⟩ := bind_ok.mp taken
    exact ofRegion_region rest

theorem toSge_refines (has : w.HasRegion keys this.region region) :
    this.toSge w keys = (this.value region).toSge := by
  obtain ⟨object, found, -, -, key⟩ := has.reads
  unfold SliceRef.toSge RdmaMemorySlice.toSge
  rw [found]
  simp only [bind, Except.bind, key]
  rfl

end refines

/-! ## Regions that stay where they are -/

def MemoryAction.writes : MemoryAction → List Nat
  | .act action => action.writes
  | .root _ _ _ | .cut _ _ _ | .drop _ => []

/-- Every slice of the region is what a chain of calls makes of its value. -/
structure Cuts (keys : Registrations) (id : Nat) (region : RdmaMemoryRegion) (m : Memory) : Prop where
  has : m.world.HasRegion keys id region
  chain : ∀ number slice, m.slices number = some slice → slice.region = id →
    ∃ chain : SliceChain, chain.eval region = .ok (slice.value region)

section cuts

variable {w : World} {keys : Registrations} {id : Nat} {region : RdmaMemoryRegion}
  {m next : Memory} {made : SliceRef}

theorem SliceChain.eval_push (chain : SliceChain) {parent child : RdmaMemorySlice} {call : SliceCall}
    (evaluated : chain.eval region = .ok parent) (cut : call.apply parent = .ok child) :
    SliceChain.eval region { chain with calls := chain.calls ++ [call] } = .ok child := by
  unfold SliceChain.eval at evaluated ⊢
  cases rooted : chain.root.apply region with
  | error e =>
    rw [rooted] at evaluated
    cases evaluated
  | ok first =>
    rw [rooted] at evaluated
    exact (run_append_ok _).mpr ⟨parent, evaluated, (run_cons_ok _ _ cut).trans rfl⟩

theorem Memory.keep_ok {number : Nat} {result : Except Failure SliceRef}
    (kept : m.keep number result = .ok next) :
    ∃ slice, result = .ok slice ∧
      next = { m with slices := Function.update m.slices number (some slice) } := by
  unfold Memory.keep at kept
  cases result with
  | error e => cases kept
  | ok slice => exact ⟨slice, rfl, (Except.ok.inj kept).symm⟩

theorem Cuts.keep (cuts : Cuts keys id region m) {number : Nat}
    (own : made.region = id →
      ∃ chain : SliceChain, chain.eval region = .ok (made.value region)) :
    Cuts keys id region { m with slices := Function.update m.slices number (some made) } := by
  refine ⟨cuts.has, fun other slice lives same => ?_⟩
  simp only [Function.update_apply] at lives
  split at lives
  next =>
    obtain rfl := Option.some.inj lives
    exact own same
  next => exact cuts.chain other slice lives same

theorem World.HasRegion.congr {after : World} (has : w.HasRegion keys id region)
    (same : after.objects id = w.objects id) : after.HasRegion keys id region := by
  obtain ⟨object, lives, value⟩ := has
  exact ⟨object, same.trans lives, value⟩

theorem Cuts.step {action : MemoryAction} (cuts : Cuts keys id region m)
    (outside : id ∉ action.writes) (taken : m.step action = .ok next) :
    Cuts keys id region next := by
  cases action with
  | act action =>
    rw [Memory.step] at taken
    split at taken
    next => cases taken
    next world stepped =>
      obtain rfl := Except.ok.inj taken
      have only := (World.step_taken stepped).writesOnly
      exact ⟨cuts.has.congr (only.objects id outside), cuts.chain⟩
  | root number source root =>
    obtain ⟨slice, made, rfl⟩ := Memory.keep_ok taken
    refine cuts.keep fun same => ?_
    obtain rfl := (root_region made).symm.trans same
    have value := root_refines cuts.has root
    rw [made] at value
    refine ⟨{ root, calls := [] }, ?_⟩
    rw [SliceChain.eval, ← value]
    rfl
  | cut number parent call =>
    rw [Memory.step] at taken
    split at taken
    next slice lives =>
      obtain ⟨cut, made, rfl⟩ := Memory.keep_ok taken
      refine cuts.keep fun same => ?_
      have source : slice.region = id := (applyRef_region made).symm.trans same
      obtain ⟨chain, evaluated⟩ := cuts.chain parent slice lives source
      subst source
      have value := applyRef_refines cuts.has call
      rw [made] at value
      exact ⟨_, chain.eval_push evaluated value.symm⟩
    next => cases taken
  | drop number =>
    obtain rfl := Except.ok.inj taken
    refine ⟨cuts.has, fun other slice lives same => ?_⟩
    simp only [Function.update_apply] at lives
    split at lives
    next => cases lives
    next => exact cuts.chain other slice lives same

end cuts

theorem Memory.step_owned {m next : Memory} {action : MemoryAction} (owned : Owned m.world)
    (taken : m.step action = .ok next) : Owned next.world := by
  cases action with
  | act action =>
    rw [Memory.step] at taken
    split at taken
    next => cases taken
    next world stepped =>
      obtain rfl := Except.ok.inj taken
      exact (World.step_change stepped).transfer.owned owned
  | root number source root =>
    obtain ⟨slice, -, rfl⟩ := Memory.keep_ok taken
    exact owned
  | cut number parent call =>
    rw [Memory.step] at taken
    split at taken
    next =>
      obtain ⟨slice, -, rfl⟩ := Memory.keep_ok taken
      exact owned
    next => cases taken
  | drop number =>
    obtain rfl := Except.ok.inj taken
    exact owned

theorem Memory.run_owned {actions : List MemoryAction} {m : Memory}
    (ran : run Memory.step {} actions = .ok m) : Owned m.world :=
  run_invariant Memory.step (fun m => Owned m.world) (fun _ _ _ owned taken => step_owned owned taken)
    actions empty_owned ran

def pageKeys : Registrations := fun number => { lkey := 7 + number.toUInt32, rkey := 9 }

namespace World

variable {w next : World} {keys : Registrations} {id src dst : Nat} {this : RegionObject}
  {region : RdmaMemoryRegion}

-- The region object lives, but its registration has gone to another object.
def Emptied (w : World) (id : Nat) : Prop :=
  ∃ this, w.objects id = some (.region this) ∧ this.mr = none ∧ this.ptr = 0 ∧ this.size = 0

theorem Emptied.congr (emptied : w.Emptied id) (same : next.objects id = w.objects id) :
    next.Emptied id := by
  obtain ⟨object, lives, gone⟩ := emptied
  exact ⟨object, same.trans lives, gone⟩

end World

/-- A slice of a region that was moved cannot be described, and what is cut off it starts at its
offset from the null pointer. So does what is taken of the region itself, which is empty: the whole
slice, and the parts that a wrapped end lets through. -/
structure Stranded (keys : Registrations) (id : Nat) (w : World) : Prop where
  entry : ∀ slice : SliceRef, slice.region = id → slice.size.toNat ≤ 2 ^ 32 - 1 →
    slice.toSge w keys = .error (.undefined "null memory region")
  cut : ∀ (slice : SliceRef) (call : SliceCall), slice.region = id →
    call.offset + call.size slice.size ≤ slice.size →
    call.applyRef w slice = .ok { region := id, ptr := call.offset, size := call.size slice.size }
  whole : SliceRef.whole w id = .ok { region := id, ptr := 0, size := 0 }
  part : ∀ call : SliceCall, call.offset + call.size 0 = 0 →
    (SliceRoot.call call).applyRef w id =
      .ok { region := id, ptr := call.offset, size := call.size 0 }

theorem World.Emptied.stranded {w : World} {id : Nat} (emptied : w.Emptied id)
    (keys : Registrations) : Stranded keys id w := by
  obtain ⟨this, lives, null, zero, empty⟩ := emptied
  have found : w.region id = .ok this := by simp only [World.region, lives]
  have ofRegion (offset size : UInt64) :
      SliceRef.ofRegion w id offset size = .ok { region := id, ptr := offset, size } := by
    rw [SliceRef.ofRegion, found]
    simp [bind, Except.bind, pure, Except.pure, addVoidPtr, zero]
  have part (offset size : UInt64) (within : offset + size = 0) :
      w.sliceRegion id offset size = .ok { region := id, ptr := offset, size } := by
    rw [World.sliceRegion, found]
    simp [bind, Except.bind, empty, within, ofRegion]
  constructor
  · rintro slice rfl fits
    rw [SliceRef.toSge, if_neg (by omega), found]
    simp [bind, Except.bind, RegionObject.getLkey, null]
  · rintro slice call rfl within
    have cut : call.applyRef w slice = slice.slice w call.offset (call.size slice.size) := by
      cases call <;> rfl
    rw [cut, SliceRef.slice, if_neg (UInt64.not_lt.mpr within), ofRegion]
  · rw [SliceRef.whole, found]
    simp [bind, Except.bind, empty, ofRegion]
  · intro call within
    cases call with
    | slice offset size => exact part offset size within
    | sliceFrom offset =>
      rw [SliceRoot.applyRef, World.sliceRegionFrom, found]
      simp only [bind, Except.bind, empty]
      exact part offset (0 - offset) within

end Rdmalib2
