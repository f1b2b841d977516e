import Rdmalib2.Qp.Qp

set_option autoImplicit false

namespace Rdmalib2

-- A driver object, by its kind and the number of the construction that created it.
inductive Handle where
  | qp (number : Nat)
  | cq (number : Nat)
  | mr (number : Nat)
  | dm (number : Nat)
  deriving DecidableEq, Repr

def Handle.number : Handle → Nat
  | .qp number | .cq number | .mr number | .dm number => number

/-! The three classes with their handles as pointers; the number says what a pointer points to.
The move constructors return what they leave in the source as well, and the destructors what
they release, in order. -/

structure QpObject where
  ctx : RdmaContext
  qp : Option Nat := none
  port : UInt8 := 1
  deriving DecidableEq, Repr

namespace QpObject

-- The port keeps its initialiser.
def moveConstruct (other : QpObject) : QpObject × QpObject :=
  ({ ctx := other.ctx, qp := other.qp }, { other with qp := none })

def destroy (this : QpObject) : List Handle :=
  match this.qp with
  | some number => [.qp number]
  | none => []

-- The object as its members see it, with the queue pair the driver keeps behind the pointer.
def view (type : IbvQpType) (qps : Nat → Option IbvQp) (this : QpObject) : RdmaQp type where
  ctx := this.ctx
  qp := this.qp.bind qps
  port := this.port

end QpObject

structure CqObject where
  cq : Option Nat := none
  deriving DecidableEq, Repr

namespace CqObject

def moveConstruct (other : CqObject) : CqObject × CqObject := ({ cq := other.cq }, { cq := none })

def destroy (this : CqObject) : List Handle :=
  match this.cq with
  | some number => [.cq number]
  | none => []

end CqObject

structure RegionObject where
  ctx : RdmaContext
  mr : Option Nat := none
  dm : Option Nat := none
  ptr : UInt64 := 0
  size : UInt64 := 0
  deriving DecidableEq, Repr

namespace RegionObject

def moveConstruct (other : RegionObject) : RegionObject × RegionObject :=
  ({ ctx := other.ctx, mr := other.mr, dm := other.dm, ptr := other.ptr, size := other.size },
    { other with mr := none, dm := none, ptr := 0, size := 0 })

def destroy (this : RegionObject) : List Handle :=
  (match this.mr with
    | some number => [.mr number]
    | none => []) ++
  match this.dm with
  | some number => [.dm number]
  | none => []

end RegionObject

inductive Object where
  | qp (type : IbvQpType) (this : QpObject)
  | cq (this : CqObject)
  | region (this : RegionObject)
  deriving DecidableEq, Repr

namespace Object

def moveConstruct : Object → Object × Object
  | .qp type other => (.qp type other.moveConstruct.1, .qp type other.moveConstruct.2)
  | .cq other => (.cq other.moveConstruct.1, .cq other.moveConstruct.2)
  | .region other => (.region other.moveConstruct.1, .region other.moveConstruct.2)

def destroy : Object → List Handle
  | .qp _ this => this.destroy
  | .cq this => this.destroy
  | .region this => this.destroy

-- What the members point to.
def holds : Object → List Handle
  | .qp _ this => this.qp.toList.map .qp
  | .cq this => this.cq.toList.map .cq
  | .region this => this.mr.toList.map .mr ++ this.dm.toList.map .dm

-- An assignment between different classes does not compile.
def sameClass : Object → Object → Bool
  | .qp type _, .qp other _ => type = other
  | .cq _, .cq _ => true
  | .region _, .region _ => true
  | _, _ => false

theorem destroy_eq (object : Object) : object.destroy = object.holds := by
  cases object with
  | qp type this => cases held : this.qp <;> simp [destroy, holds, QpObject.destroy, held]
  | cq this => cases held : this.cq <;> simp [destroy, holds, CqObject.destroy, held]
  | region this =>
    cases mr : this.mr <;> cases dm : this.dm <;>
      simp [destroy, holds, RegionObject.destroy, mr, dm]

@[simp] theorem moveConstruct_holds (other : Object) :
    other.moveConstruct.1.holds = other.holds ∧ other.moveConstruct.2.holds = [] := by
  cases other <;> exact ⟨rfl, rfl⟩

theorem holds_nodup (object : Object) : object.holds.Nodup := by
  cases object with
  | qp type this => cases held : this.qp <;> simp [holds, held]
  | cq this => cases held : this.cq <;> simp [holds, held]
  | region this => cases mr : this.mr <;> cases dm : this.dm <;> simp [holds, mr, dm]

end Object

end Rdmalib2
