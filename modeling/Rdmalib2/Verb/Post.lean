import Rdmalib2.Verb.Verb

set_option autoImplicit false

namespace Rdmalib2

-- `qp_verb_compat<Type, ibv_exp_send_wr>`
def qpVerbCompat : IbvQpType → IbvExpWrOpcode → Bool
  | .rc, opcode => opcode.isSend || opcode == .rdmaWrite || opcode == .rdmaWriteWithImm ||
      opcode == .rdmaRead || opcode.isAtomic
  | .ud, opcode => opcode.isSend
  | .rawPacket, opcode => opcode.isSend
  | _, _ => false

-- A request as the driver reads it: `sg_list` leads to the list only while it points into the
-- buffer that the verb's vector still owns.
structure Request where
  wrId : UInt64
  numSge : Nat
  sgl : Option (List IbvSge)
  send : SendFields
  deriving DecidableEq, Repr

def RdmaVerb.request {W : Wr} (this : RdmaVerb W) : Request where
  wrId := this.wr.wrId
  numSge := this.wr.numSge
  sgl := if this.wr.sgList = this.realSgl.data then some this.realSgl.elems else none
  send := this.wr.send

-- What a post hands to the driver, one list of requests for each call of it, and how it ends.
structure Posted (α : Type) where
  submitted : List (List Request)
  result : Except Failure α

-- The two assertions that a send verb meets before its request is built.
def postable (type : IbvQpType) {W : Wr} (verb : RdmaVerb W) : Except Failure Unit :=
  match W with
  | .ibvRecvWr => .ok ()
  | .ibvExpSendWr =>
      match verb.opcode with
      | none => .error (.panic "assertion failed: verb.get_op().has_value()" [])
      | some opcode =>
          rdmalib2Assert (qpVerbCompat type opcode)
            "(qp_verb_compat<Type, Wr>{})(*(verb.get_op()))"

def postFailed (W : Wr) (ret : Int) : Failure :=
  match W with
  | .ibvExpSendWr => .panicWithErrno "post send failed with return value {}" [ret]
  | .ibvRecvWr => .panicWithErrno "post recv failed with return value {}" [ret]

-- `post_verb(verb)` on a queue pair of the given type; `ret` is the driver's return value.
-- `get_wr` has just cleared the next pointer, so the list it submits is the one request.
def postVerb (type : IbvQpType) (ret : Int) {W : Wr} (verb : RdmaVerb W) : Posted (RdmaVerb W) :=
  match postable type verb with
  | .error e => { submitted := [], result := .error e }
  | .ok () =>
      match verb.getWr with
      | .error e => { submitted := [], result := .error e }
      | .ok verb =>
          { submitted := [[verb.request]]
            result := if ret ≠ 0 then .error (postFailed W ret) else .ok verb }

end Rdmalib2
