import Rdmalib2.Verb.WorkRequest

set_option autoImplicit false

namespace Rdmalib2

-- What `spdlog::warn` is given.
structure Warning where
  message : String
  args : List Int := []
  deriving DecidableEq, Repr

structure Warned (α : Type) where
  value : α
  warnings : List Warning := []

-- The original information a verb is built from.
structure VerbConfig where
  wrId : UInt64
  opcode : Option IbvExpWrOpcode := none
  sgl : List RdmaMemorySlice := []
  length : UInt64 := 0
  remote : Option RdmaRemoteMemorySlice := none
  notified : Bool := false
  carryImm : Bool := false
  immData : UInt32 := 0
  compareAdd : UInt64 := 0
  swap : UInt64 := 0
  compareAddMask : UInt64 := 0
  swapMask : UInt64 := 0
  deriving DecidableEq, Repr

-- The original information, and the cached list and request.
structure RdmaVerb (W : Wr) extends VerbConfig where
  realSgl : SgeVector := {}
  constructedRealSgl : Bool := false
  wr : WorkRequest
  constructedWr : Bool := false
  deriving DecidableEq, Repr

abbrev RdmaSendFamily := RdmaVerb .ibvExpSendWr
abbrev RdmaRecv := RdmaVerb .ibvRecvWr

namespace VerbConfig

def isAtomicCapable (this : VerbConfig) : Bool :=
  match this.sgl with
  | [slice] => this.length == 8 && slice.isAligned
  | _ => false

-- The part of `construct_wr` that fills the send fields, in the order of its statements.
def constructSend (this : VerbConfig) : Except Failure SendFields :=
  match this.opcode with
  | none => .error (.uncaught "std::bad_optional_access")
  | some opcode =>
      let fields : SendFields :=
        { expOpcode := opcode
          expSendFlags := if this.notified then [.signaled] else []
          exImmData := if this.carryImm then this.immData else 0 }
      if opcode.isSend then .ok fields
      else
        match this.remote with
        | none => .error (.panic "assertion failed: remote.has_value()" [])
        | some remote =>
            match opcode with
            | .rdmaRead | .rdmaWrite | .rdmaWriteWithImm =>
                .ok { fields with wr := .rdma remote.getAddr remote.getRkey }
            | .atomicCmpAndSwp | .atomicFetchAndAdd => do
                rdmalib2Assert this.isAtomicCapable "is_atomic_capable()"
                return { fields with
                  wr := .atomic remote.getAddr remote.getRkey this.compareAdd this.swap }
            | .extMaskedAtomicCmpAndSwp => do
                rdmalib2Assert this.isAtomicCapable "is_atomic_capable()"
                return { fields with
                  extOp := .maskedAtomics remote.getAddr remote.getRkey
                    (.cmpSwap this.compareAdd this.swap this.compareAddMask this.swapMask) }
            | .extMaskedAtomicFetchAndAdd => do
                rdmalib2Assert this.isAtomicCapable "is_atomic_capable()"
                return { fields with
                  extOp := .maskedAtomics remote.getAddr remote.getRkey
                    (.fetchAdd this.compareAdd this.compareAddMask) }
            | .send | .sendWithImm => .ok fields
            | .other number => .error (.panic "unsupported work request type: {}" [number])

-- A warning of a setter whose value the current opcode does not use.
def warnUnless (this : VerbConfig) (used : List IbvExpWrOpcode) (message : String) :
    List Warning :=
  match this.opcode with
  | none => []
  | some opcode => if opcode ∈ used then [] else [{ message }]

end VerbConfig

-- What the members without an initialiser hold when a verb is constructed.
structure Indeterminate where
  wrId : UInt64
  wr : WorkRequest

namespace RdmaVerb

variable {W : Wr}

/-! ## Requests -/

def constructSgl (this : RdmaVerb W) : Except Failure (RdmaVerb W) :=
  if this.constructedRealSgl then .ok this
  else
    match this.sgl.mapM RdmaMemorySlice.toSge with
    | .error e => .error e
    | .ok entries =>
        .ok { this with
          realSgl := { this.realSgl.resize this.sgl.length with elems := entries }
          constructedRealSgl := true }

def constructWr (this : RdmaVerb W) : Except Failure (RdmaVerb W) :=
  match this.constructSgl with
  | .error e => .error e
  | .ok this =>
      if this.constructedWr then .ok this
      else
        let wr : WorkRequest :=
          { wrId := this.wrId, next := none
            sgList := this.realSgl.data, numSge := this.realSgl.size }
        match W with
        | .ibvRecvWr => .ok { this with wr, constructedWr := true }
        | .ibvExpSendWr =>
            match this.toVerbConfig.constructSend with
            | .error e => .error e
            | .ok send => .ok { this with wr := { wr with send }, constructedWr := true }

-- The request returned is the `wr` of the verb it leaves.
def getWr (this : RdmaVerb W) : Except Failure (RdmaVerb W) :=
  if W = .ibvExpSendWr ∧ this.opcode = none then
    .error (.panic "constructing send work request with no opcode" [])
  else
    match this.constructWr with
    | .error e => .error e
    | .ok this => .ok { this with wr.next := none }

def clearNext (this : RdmaVerb W) : RdmaVerb W := { this with wr.next := none }

/-! ## Setters -/

def setId (this : RdmaVerb W) (id : UInt64) : RdmaVerb W :=
  if this.wrId ≠ id then { this with wrId := id, constructedWr := false } else this

def setOp (this : RdmaSendFamily) (op : IbvExpWrOpcode) : RdmaSendFamily :=
  if this.opcode ≠ some op then { this with opcode := some op, constructedWr := false } else this

def addSglEntry (this : RdmaVerb W) : List RdmaMemorySlice → Except Failure (RdmaVerb W)
  | [] => .ok this
  | head :: tail =>
      if this.sgl.length < kMaxSge then
        addSglEntry
          { this with
            sgl := this.sgl ++ [head]
            length := this.length + head.getSize
            constructedRealSgl := false }
          tail
      else .error (.panic "assertion failed: sgl.size() < kMaxSge" [])

def setSglEntry (this : RdmaVerb W) (slices : List RdmaMemorySlice) :
    Except Failure (RdmaVerb W) :=
  addSglEntry { this with sgl := [], length := 0, constructedRealSgl := false } slices

def getTotalMsgLength (this : RdmaVerb W) : UInt64 := this.length

def setRemoteMemory (this : RdmaSendFamily) (remote : RdmaRemoteMemorySlice) :
    Warned RdmaSendFamily where
  value := { this with remote := some remote, constructedWr := false }
  warnings :=
    if this.opcode = some .send ∨ this.opcode = some .sendWithImm then
      [{ message := "specifying remote memory for send verbs" }]
    else if remote.getSize < this.length then
      [{ message := "remote memory slice size {} is smaller than SGL size {}"
         args := [remote.getSize.toNat, this.length.toNat] }]
    else []

def setNotify (this : RdmaSendFamily) (notify : Bool) : RdmaSendFamily :=
  if this.notified ≠ notify then { this with notified := notify, constructedWr := false } else this

def setImm (this : RdmaSendFamily) (immData : UInt32) : Warned RdmaSendFamily where
  value := { this with carryImm := true, immData, constructedWr := false }
  warnings := this.warnUnless [.sendWithImm, .rdmaWriteWithImm]
    "setting immediate data for non-imm (send/write) verb"

def clearImm (this : RdmaSendFamily) : RdmaSendFamily :=
  if this.carryImm then { this with carryImm := false, constructedWr := false } else this

def setCas (this : RdmaSendFamily) (compare swap : UInt64) : Warned RdmaSendFamily where
  value := { this with
    opcode := some .atomicCmpAndSwp, compareAdd := compare, swap, constructedWr := false }
  warnings := this.warnUnless [.atomicCmpAndSwp]
    "setting CAS overwrites opcode for non-CAS verb"

def setFaa (this : RdmaSendFamily) (add : UInt64) : Warned RdmaSendFamily where
  value := { this with
    opcode := some .atomicFetchAndAdd, compareAdd := add, constructedWr := false }
  warnings := this.warnUnless [.atomicFetchAndAdd]
    "setting FAA overwrites opcode for non-FAA verb"

def setMaskedCas (this : RdmaSendFamily) (compare swap compareMask swapMask : UInt64) :
    Warned RdmaSendFamily where
  value := { this with
    opcode := some .extMaskedAtomicCmpAndSwp
    compareAdd := compare, swap, compareAddMask := compareMask, swapMask
    constructedWr := false }
  warnings := this.warnUnless [.extMaskedAtomicCmpAndSwp]
    "setting masked-CAS overwrites opcode for non-masked-CAS verb"

def setMaskedFaa (this : RdmaSendFamily) (add addMask : UInt64) : Warned RdmaSendFamily where
  value := { this with
    opcode := some .extMaskedAtomicFetchAndAdd
    compareAdd := add, compareAddMask := addMask, constructedWr := false }
  warnings := this.warnUnless [.extMaskedAtomicFetchAndAdd]
    "setting masked-FAA overwrites opcode for non-masked-FAA verb"

def setCompare (this : RdmaSendFamily) (compare : UInt64) : Warned RdmaSendFamily where
  value := { this with compareAdd := compare, constructedWr := false }
  warnings := this.warnUnless [.atomicCmpAndSwp, .extMaskedAtomicCmpAndSwp]
    "setting CAS.compare for non-CAS verb"

def setSwap (this : RdmaSendFamily) (swap : UInt64) : Warned RdmaSendFamily where
  value := { this with swap, constructedWr := false }
  warnings := this.warnUnless [.atomicCmpAndSwp, .extMaskedAtomicCmpAndSwp]
    "setting CAS.swap for non-CAS verb"

def setCompareMask (this : RdmaSendFamily) (compareMask : UInt64) : Warned RdmaSendFamily where
  value := { this with compareAddMask := compareMask, constructedWr := false }
  warnings := this.warnUnless [.extMaskedAtomicCmpAndSwp]
    "setting masked-CAS.compare_mask for non-masked-CAS verb"

def setSwapMask (this : RdmaSendFamily) (swapMask : UInt64) : Warned RdmaSendFamily where
  value := { this with swapMask, constructedWr := false }
  warnings := this.warnUnless [.extMaskedAtomicCmpAndSwp]
    "setting masked-CAS.swap_mask for non-masked-CAS verb"

def setAdd (this : RdmaSendFamily) (add : UInt64) : Warned RdmaSendFamily where
  value := { this with compareAdd := add, constructedWr := false }
  warnings := this.warnUnless [.atomicFetchAndAdd, .extMaskedAtomicFetchAndAdd]
    "setting FAA.add for non-FAA verb"

def setAddMask (this : RdmaSendFamily) (addMask : UInt64) : Warned RdmaSendFamily where
  value := { this with compareAddMask := addMask, constructedWr := false }
  warnings := this.warnUnless [.extMaskedAtomicFetchAndAdd]
    "setting masked-FAA.add_mask for non-masked-FAA verb"

/-! ## Construction and assignment -/

def construct (junk : Indeterminate) : RdmaVerb W := { wrId := junk.wrId, wr := junk.wr }

def ofSlices (junk : Indeterminate) (slices : List RdmaMemorySlice) :
    Except Failure (RdmaVerb W) :=
  (construct junk).setSglEntry slices

-- The copies and moves return what they leave in the source as well.
def copyConstruct (junk : Indeterminate) (other : RdmaVerb W) : RdmaVerb W × RdmaVerb W :=
  ({ (construct junk : RdmaVerb W) with sgl := other.sgl, notified := other.notified }, other)

def moveConstruct (junk : Indeterminate) (other : RdmaVerb W) : RdmaVerb W × RdmaVerb W :=
  ({ (construct junk : RdmaVerb W) with sgl := other.sgl, notified := other.notified },
    { other with sgl := [] })

def copyAssign (this other : RdmaVerb W) : RdmaVerb W × RdmaVerb W :=
  ({ this with sgl := other.sgl, notified := other.notified }, other)

def moveAssign (this other : RdmaVerb W) : RdmaVerb W × RdmaVerb W :=
  ({ this with sgl := other.sgl, notified := other.notified }, { other with sgl := [] })

end RdmaVerb

end Rdmalib2
