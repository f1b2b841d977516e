import Rdmalib2.Memory.Slice

set_option autoImplicit false

namespace Rdmalib2

-- The template argument of `rdma_verb`.
inductive Wr where
  | ibvExpSendWr
  | ibvRecvWr
  deriving DecidableEq, Repr

-- The opcodes the library names, and the rest of the enumeration by number.
inductive IbvExpWrOpcode where
  | send
  | sendWithImm
  | rdmaWrite
  | rdmaWriteWithImm
  | rdmaRead
  | atomicCmpAndSwp
  | atomicFetchAndAdd
  | extMaskedAtomicCmpAndSwp
  | extMaskedAtomicFetchAndAdd
  | other (number : Nat)
  deriving DecidableEq, Repr

namespace IbvExpWrOpcode

def isSend (opcode : IbvExpWrOpcode) : Bool :=
  opcode == .send || opcode == .sendWithImm

def isAtomic (opcode : IbvExpWrOpcode) : Bool :=
  opcode == .atomicCmpAndSwp || opcode == .atomicFetchAndAdd ||
    opcode == .extMaskedAtomicCmpAndSwp || opcode == .extMaskedAtomicFetchAndAdd

end IbvExpWrOpcode

inductive IbvExpSendFlag where
  | signaled
  deriving DecidableEq, Repr

-- The union `wr.wr`; `zero` is what `Wr{}` leaves.
inductive WrUnion where
  | zero
  | rdma (remoteAddr : UInt64) (rkey : UInt32)
  | atomic (remoteAddr : UInt64) (rkey : UInt32) (compareAdd swap : UInt64)
  deriving DecidableEq, Repr

-- The union `wr_data.inline_data.op` of `masked_atomics`.
inductive MaskedOp where
  | cmpSwap (compareVal swapVal compareMask swapMask : UInt64)
  | fetchAdd (addVal fieldBoundary : UInt64)
  deriving DecidableEq, Repr

-- The union `wr.ext_op`.
inductive ExtOpUnion where
  | zero
  | maskedAtomics (remoteAddr : UInt64) (rkey : UInt32) (op : MaskedOp)
  deriving DecidableEq, Repr

-- The fields that `ibv_exp_send_wr` has and `ibv_recv_wr` does not.
structure SendFields where
  -- Number zero of the enumeration is the RDMA write.
  expOpcode : IbvExpWrOpcode := .rdmaWrite
  expSendFlags : List IbvExpSendFlag := []
  exImmData : UInt32 := 0
  wr : WrUnion := .zero
  extOp : ExtOpUnion := .zero
  deriving DecidableEq, Repr

-- `next` names the verb whose request it points to, and `sgList` the buffer of this verb's
-- `real_sgl`. The send fields of a receive request do not exist and stay as they start.
structure WorkRequest where
  wrId : UInt64 := 0
  next : Option Nat := none
  sgList : Nat := 0
  numSge : Nat := 0
  send : SendFields := {}
  deriving DecidableEq, Repr

-- `std::vector<ibv_sge>`. The buffers a vector has owned are numbered, so that a pointer into
-- one it has given up differs from `data()`; number zero is the null pointer.
structure SgeVector where
  data : Nat := 0
  capacity : Nat := 0
  elems : List IbvSge := []
  deriving DecidableEq, Repr

namespace SgeVector

def size (vector : SgeVector) : Nat := vector.elems.length

def resize (vector : SgeVector) (n : Nat) : SgeVector :=
  let elems := vector.elems.take n ++ List.replicate (n - vector.size) ({} : IbvSge)
  if n ≤ vector.capacity then { vector with elems }
  else { data := vector.data + 1, capacity := max n (2 * vector.size), elems }

-- Growing past the capacity moves the elements to a buffer the vector did not own before.
theorem resize_data (vector : SgeVector) (n : Nat) :
    (vector.resize n).data = if n ≤ vector.capacity then vector.data else vector.data + 1 := by
  unfold resize
  split <;> rfl

end SgeVector

end Rdmalib2
