import Rdmalib2.Shared.Run
import Rdmalib2.Shared.Words
import Rdmalib2.Verb.Post

set_option autoImplicit false

namespace Rdmalib2

open Shared

-- The public calls on one verb. The static assertions give the send-only ones their index, and
-- a pack of slices has a first element.
inductive VerbCall : Wr → Type where
  | setId {W : Wr} (id : UInt64) : VerbCall W
  | setSglEntry {W : Wr} (head : RdmaMemorySlice) (tail : List RdmaMemorySlice) : VerbCall W
  | addSglEntry {W : Wr} (head : RdmaMemorySlice) (tail : List RdmaMemorySlice) : VerbCall W
  | getWr {W : Wr} : VerbCall W
  | post {W : Wr} (type : IbvQpType) (ret : Int) : VerbCall W
  | setOp (op : IbvExpWrOpcode) : VerbCall .ibvExpSendWr
  | setRemoteMemory (remote : RdmaRemoteMemorySlice) : VerbCall .ibvExpSendWr
  | setNotify (notify : Bool) : VerbCall .ibvExpSendWr
  | setImm (immData : UInt32) : VerbCall .ibvExpSendWr
  | clearImm : VerbCall .ibvExpSendWr
  | setCas (compare swap : UInt64) : VerbCall .ibvExpSendWr
  | setFaa (add : UInt64) : VerbCall .ibvExpSendWr
  | setMaskedCas (compare swap compareMask swapMask : UInt64) : VerbCall .ibvExpSendWr
  | setMaskedFaa (add addMask : UInt64) : VerbCall .ibvExpSendWr
  | setCompare (compare : UInt64) : VerbCall .ibvExpSendWr
  | setSwap (swap : UInt64) : VerbCall .ibvExpSendWr
  | setCompareMask (compareMask : UInt64) : VerbCall .ibvExpSendWr
  | setSwapMask (swapMask : UInt64) : VerbCall .ibvExpSendWr
  | setAdd (add : UInt64) : VerbCall .ibvExpSendWr
  | setAddMask (addMask : UInt64) : VerbCall .ibvExpSendWr

namespace VerbCall

def warned {W : Wr} (this : RdmaVerb W) : VerbCall W → Except Failure (Warned (RdmaVerb W))
  | .setId id => .ok { value := this.setId id }
  | .setSglEntry head tail => do return { value := ← this.setSglEntry (head :: tail) }
  | .addSglEntry head tail => do return { value := ← this.addSglEntry (head :: tail) }
  | .getWr => do return { value := ← this.getWr }
  | .post type ret => do return { value := ← (postVerb type ret this).result }
  | .setOp op => .ok { value := this.setOp op }
  | .setRemoteMemory remote => .ok (this.setRemoteMemory remote)
  | .setNotify notify => .ok { value := this.setNotify notify }
  | .setImm immData => .ok (this.setImm immData)
  | .clearImm => .ok { value := this.clearImm }
  | .setCas compare swap => .ok (this.setCas compare swap)
  | .setFaa add => .ok (this.setFaa add)
  | .setMaskedCas compare swap compareMask swapMask =>
      .ok (this.setMaskedCas compare swap compareMask swapMask)
  | .setMaskedFaa add addMask => .ok (this.setMaskedFaa add addMask)
  | .setCompare compare => .ok (this.setCompare compare)
  | .setSwap swap => .ok (this.setSwap swap)
  | .setCompareMask compareMask => .ok (this.setCompareMask compareMask)
  | .setSwapMask swapMask => .ok (this.setSwapMask swapMask)
  | .setAdd add => .ok (this.setAdd add)
  | .setAddMask addMask => .ok (this.setAddMask addMask)

-- The verb a call leaves, without what it logs.
def apply {W : Wr} (this : RdmaVerb W) (call : VerbCall W) : Except Failure (RdmaVerb W) :=
  (call.warned this).map Warned.value

-- Whether the call gets as far as `get_wr`.
def buildsRequest {W : Wr} (this : RdmaVerb W) : VerbCall W → Bool
  | .getWr => true
  | .post type _ => (postable type this).isOk
  | _ => false

end VerbCall

-- A verb as one of its four constructors leaves it.
inductive Constructed {W : Wr} : RdmaVerb W → Prop where
  | default (junk : Indeterminate) : Constructed (RdmaVerb.construct junk)
  | slices {verb : RdmaVerb W} (junk : Indeterminate) (head : RdmaMemorySlice)
      (tail : List RdmaMemorySlice) (built : RdmaVerb.ofSlices junk (head :: tail) = .ok verb) :
      Constructed verb
  | copy (junk : Indeterminate) (other : RdmaVerb W) :
      Constructed (RdmaVerb.copyConstruct junk other).1
  | move (junk : Indeterminate) (other : RdmaVerb W) :
      Constructed (RdmaVerb.moveConstruct junk other).1

end Rdmalib2
