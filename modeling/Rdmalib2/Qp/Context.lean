import Rdmalib2.Common
import Mathlib.Data.UInt

set_option autoImplicit false

namespace Rdmalib2

structure IbvGid where
  subnetPrefix : UInt64 := 0
  interfaceId : UInt64 := 0
  deriving DecidableEq, Repr

-- Of a port's attributes only the LID is read once the table has been filled.
structure IbvExpPortAttr where
  lid : UInt16
  deriving DecidableEq, Repr

structure RdmaContext where
  physPortCnt : UInt8
  portAttrs : List (IbvGid × IbvExpPortAttr)
  deriving DecidableEq, Repr

namespace RdmaContext

def universalGidIndex : Nat := 0

-- `port_attrs[port - 1]` behind its guard, which only looks at one end of the table.
def portAttr (this : RdmaContext) (port : UInt8) : Except Failure (IbvGid × IbvExpPortAttr) :=
  if port.toNat > this.portAttrs.length then
    .error (.panic "port {} is out of port count bound {}" [port.toNat, this.physPortCnt.toNat])
  else if port = 0 then .error (.undefined "port_attrs[-1]")
  else
    match this.portAttrs[port.toNat - 1]? with
    | some attr => .ok attr
    | none => .error (.undefined "port_attrs")

def getGid (this : RdmaContext) (port : UInt8 := 1) : Except Failure IbvGid :=
  (this.portAttr port).map fun attr => attr.1

def getPortLid (this : RdmaContext) (port : UInt8 := 1) : Except Failure UInt32 :=
  (this.portAttr port).map fun attr => attr.2.lid.toUInt32

def HasPort (this : RdmaContext) (port : UInt8) : Prop :=
  1 ≤ port.toNat ∧ port.toNat ≤ this.portAttrs.length

instance (this : RdmaContext) (port : UInt8) : Decidable (this.HasPort port) :=
  inferInstanceAs (Decidable (_ ∧ _))

theorem portAttr_ok {this : RdmaContext} {port : UInt8} :
    (∃ attr, this.portAttr port = .ok attr) ↔ this.HasPort port := by
  unfold portAttr HasPort
  split
  next large =>
    simp
    omega
  next small =>
    split
    next zero => simp [zero]
    next some =>
      have positive : port.toNat ≠ 0 := fun zero => some (UInt8.toNat_inj.mp zero)
      rw [List.getElem?_eq_getElem (by omega)]
      simp
      omega

theorem getGid_ok {this : RdmaContext} {port : UInt8} :
    (∃ gid, this.getGid port = .ok gid) ↔ this.HasPort port := by
  rw [← portAttr_ok, getGid]
  cases this.portAttr port <;> simp [Except.map]

theorem getPortLid_ok {this : RdmaContext} {port : UInt8} :
    (∃ lid, this.getPortLid port = .ok lid) ↔ this.HasPort port := by
  rw [← portAttr_ok, getPortLid]
  cases this.portAttr port <;> simp [Except.map]

end RdmaContext

end Rdmalib2
