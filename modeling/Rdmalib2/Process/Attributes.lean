import Rdmalib2.Objects.World
import Mathlib.Data.Finset.Union

set_option autoImplicit false

/-!
# What the driver is asked for

The calls that create driver objects, with the attributes the constructors fill in for them.
-/

namespace Rdmalib2

/-! The constants of `tweakme.h` that end up in attributes. -/

def kQpDepth : Int := 256
def kCqDepth : Int := 256
def kMaxInlineData : UInt32 := 64

/-! ## Features -/

inductive IbvExpQpInitAttrMask where
  | pd
  | createFlags
  | atomicsArg
  | resDomain
  deriving DecidableEq, Repr

inductive IbvExpQpCreateFlag where
  | ecParityEn
  deriving DecidableEq, Repr

-- `qp_feature_base<CompMask, CreateFlags>`
structure QpFeatureBase where
  compMask : Finset IbvExpQpInitAttrMask
  createFlags : Finset IbvExpQpCreateFlag
  deriving DecidableEq

namespace QpFeatureBase

instance : Add QpFeatureBase where
  add this other :=
    { compMask := this.compMask ∪ other.compMask
      createFlags := this.createFlags ∪ other.createFlags }

def noFeatures : QpFeatureBase := { compMask := ∅, createFlags := ∅ }

def extendedAtomics : QpFeatureBase := { compMask := {.atomicsArg}, createFlags := ∅ }

def erasureCoding : QpFeatureBase := { compMask := {.createFlags}, createFlags := {.ecParityEn} }

-- What a program can ask for.
inductive Offered : QpFeatureBase → Prop
  | noFeatures : Offered noFeatures
  | extendedAtomics : Offered extendedAtomics
  | erasureCoding : Offered erasureCoding
  | sum {first second : QpFeatureBase} (left : Offered first) (right : Offered second) :
      Offered (first + second)

theorem Offered.mask_subset {features : QpFeatureBase} (offered : Offered features) :
    features.compMask ⊆ {.atomicsArg, .createFlags} := by
  induction offered with
  | noFeatures | extendedAtomics | erasureCoding => decide
  | sum left right first second => exact Finset.union_subset first second

theorem Offered.flags_eq {features : QpFeatureBase} (offered : Offered features) :
    features.createFlags = if .createFlags ∈ features.compMask then {.ecParityEn} else ∅ := by
  induction offered with
  | noFeatures | extendedAtomics | erasureCoding => rfl
  | @sum left right _ _ first second =>
    have mask : (left + right).compMask = left.compMask ∪ right.compMask := rfl
    have flags : (left + right).createFlags = left.createFlags ∪ right.createFlags := rfl
    rw [mask, flags, first, second]
    by_cases inLeft : .createFlags ∈ left.compMask <;>
      by_cases inRight : .createFlags ∈ right.compMask <;> simp [inLeft, inRight]

end QpFeatureBase

/-! ## Objects of the driver -/

-- A context and what it owns, by the number of the construction that created them.
structure ContextObject extends RdmaContext where
  ctx : Nat
  pd : Nat
  rd : Option Nat := none

namespace ContextObject

def getResDomain (this : ContextObject) : Option Nat := this.rd

end ContextObject

inductive DriverObject where
  | context (number : Nat)
  | pd (number : Nat)
  | resDomain (number : Nat)
  | handle (held : Handle)
  deriving DecidableEq, Repr

def DriverObject.number : DriverObject → Nat
  | .context number | .pd number | .resDomain number => number
  | .handle held => held.number

structure IbvExpQpInitAttr where
  sendCq : Option Nat
  recvCq : Option Nat
  maxSendWr : UInt32
  maxRecvWr : UInt32
  maxSendSge : UInt32
  maxRecvSge : UInt32
  maxInlineData : UInt32
  qpType : IbvQpType
  compMask : Finset IbvExpQpInitAttrMask
  pd : Nat
  resDomain : Option Nat := none
  expCreateFlags : Finset IbvExpQpCreateFlag := ∅
  maxAtomicArg : UInt32 := 0
  deriving DecidableEq

-- A call that creates an object.
inductive Creation where
  | openDevice
  | allocPd (ctx : Nat)
  | createResDomain (ctx : Nat)
  | regMr (pd : Nat) (addr length : UInt64) (access : UInt32)
  | allocDm (ctx : Nat) (length : UInt64)
  | expRegMr (pd : Nat) (addr length : UInt64) (access : UInt32) (dm : Nat)
  | createCq (ctx : Nat) (cqe : Int)
  | expCreateCq (ctx : Nat) (cqe : Int) (resDomain : Nat)
  | expCreateQp (ctx : Nat) (attr : IbvExpQpInitAttr)
  deriving DecidableEq

-- The attributes of `create_rdma_qp`, in the order of its statements.
def createRdmaQpAttr (ctx : ContextObject) (type : IbvQpType) (qpDepth : Int)
    (sendCq recvCq : CqObject) (features : QpFeatureBase) : IbvExpQpInitAttr :=
  let depth := UInt32.ofInt qpDepth
  let initAttr : IbvExpQpInitAttr :=
    { sendCq := sendCq.cq, recvCq := recvCq.cq, maxSendWr := depth, maxRecvWr := depth
      maxSendSge := kMaxSge.toUInt32, maxRecvSge := kMaxSge.toUInt32
      maxInlineData := kMaxInlineData, qpType := type, compMask := {.pd}, pd := ctx.pd }
  let initAttr :=
    match ctx.getResDomain with
    | some rd =>
        { initAttr with compMask := initAttr.compMask ∪ {.resDomain}, resDomain := some rd }
    | none => initAttr
  let initAttr :=
    if (features.compMask ∩ QpFeatureBase.extendedAtomics.compMask).Nonempty then
      { initAttr with
        compMask := initAttr.compMask ∪ QpFeatureBase.extendedAtomics.compMask
        expCreateFlags := initAttr.expCreateFlags ∪ QpFeatureBase.extendedAtomics.createFlags
        maxAtomicArg := 8 }
    else initAttr
  if (features.compMask ∩ QpFeatureBase.erasureCoding.compMask).Nonempty then
    { initAttr with
      compMask := initAttr.compMask ∪ QpFeatureBase.erasureCoding.compMask
      expCreateFlags := initAttr.expCreateFlags ∪ QpFeatureBase.erasureCoding.createFlags }
  else initAttr

def createRdmaCqCall (ctx : ContextObject) (cqDepth : Int) : Creation :=
  match ctx.getResDomain with
  | some rd => .expCreateCq ctx.ctx cqDepth rd
  | none => .createCq ctx.ctx cqDepth

-- The static assertion of `create_rdma_qp`.
def qpFeaturesAllowed (type : IbvQpType) (features : QpFeatureBase) : Bool :=
  (features.compMask ∩ QpFeatureBase.extendedAtomics.compMask).Nonempty → type = .rc

/-! ## What an object rests on -/

-- The driver looks at a field only where `comp_mask` says that it is filled in.
def IbvExpQpInitAttr.rests (attr : IbvExpQpInitAttr) : List DriverObject :=
  (attr.sendCq.toList ++ attr.recvCq.toList).map (fun number => .handle (.cq number)) ++
    (if .pd ∈ attr.compMask then [.pd attr.pd] else []) ++
    if .resDomain ∈ attr.compMask then attr.resDomain.toList.map .resDomain else []

def Creation.rests : Creation → List DriverObject
  | .openDevice => []
  | .allocPd ctx | .createResDomain ctx | .allocDm ctx _ | .createCq ctx _ => [.context ctx]
  | .regMr pd _ _ _ => [.pd pd]
  | .expRegMr pd _ _ _ dm => [.pd pd, .handle (.dm dm)]
  | .expCreateCq ctx _ resDomain => [.context ctx, .resDomain resDomain]
  | .expCreateQp ctx attr => .context ctx :: attr.rests

section attributes

variable (ctx : ContextObject) (type : IbvQpType) (qpDepth : Int) (sendCq recvCq : CqObject)

-- The parts of the attributes that no feature changes.
theorem createRdmaQpAttr_keeps (features : QpFeatureBase) :
    let attr := createRdmaQpAttr ctx type qpDepth sendCq recvCq features
    attr.sendCq = sendCq.cq ∧ attr.recvCq = recvCq.cq ∧ attr.pd = ctx.pd ∧
      attr.resDomain = ctx.rd := by
  unfold createRdmaQpAttr ContextObject.getResDomain
  cases ctx.rd <;> dsimp only <;> split <;> split <;> exact ⟨rfl, rfl, rfl, rfl⟩

/-- Every sum of features is asked for as it was written. -/
theorem createRdmaQpAttr_requests {features : QpFeatureBase}
    (offered : QpFeatureBase.Offered features) :
    let attr := createRdmaQpAttr ctx type qpDepth sendCq recvCq features
    attr.compMask = {.pd} ∪ (if ctx.rd.isSome then {.resDomain} else ∅) ∪ features.compMask ∧
      attr.expCreateFlags = features.createFlags ∧
      attr.maxAtomicArg = if .atomicsArg ∈ features.compMask then 8 else 0 := by
  have atomics : (features.compMask ∩ QpFeatureBase.extendedAtomics.compMask).Nonempty ↔
      .atomicsArg ∈ features.compMask := by
    simp [QpFeatureBase.extendedAtomics, Finset.Nonempty]
  have erasure : (features.compMask ∩ QpFeatureBase.erasureCoding.compMask).Nonempty ↔
      .createFlags ∈ features.compMask := by
    simp [QpFeatureBase.erasureCoding, Finset.Nonempty]
  have others : .pd ∉ features.compMask ∧ .resDomain ∉ features.compMask :=
    ⟨fun listed => by simpa using offered.mask_subset listed,
      fun listed => by simpa using offered.mask_subset listed⟩
  unfold createRdmaQpAttr ContextObject.getResDomain
  simp only [atomics, erasure, offered.flags_eq]
  by_cases inAtomics : .atomicsArg ∈ features.compMask <;>
    by_cases inErasure : .createFlags ∈ features.compMask <;> cases ctx.rd <;>
    refine ⟨Finset.ext fun mask => ?_, ?_, ?_⟩ <;>
    first
    | cases mask <;> simp [inAtomics, inErasure, others, QpFeatureBase.extendedAtomics,
        QpFeatureBase.erasureCoding]
    | simp [inAtomics, inErasure, QpFeatureBase.extendedAtomics, QpFeatureBase.erasureCoding]

end attributes

end Rdmalib2
