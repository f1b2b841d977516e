import Rdmalib2.Qp.Context

set_option autoImplicit false

namespace Rdmalib2

inductive IbvQpState where
  | reset
  | init
  | rtr
  | rts
  deriving DecidableEq, Repr

inductive IbvAccessFlag where
  | remoteRead
  | remoteWrite
  | remoteAtomic
  deriving DecidableEq, Repr

inductive IbvQpAttrMask where
  | state
  | pkeyIndex
  | port
  | accessFlags
  | qkey
  | av
  | pathMtu
  | destQpn
  | rqPsn
  | maxDestRdAtomic
  | minRnrTimer
  | sqPsn
  | timeout
  | retryCnt
  | rnrRetry
  | maxQpRdAtomic
  deriving DecidableEq, Repr

structure IbvGlobalRoute where
  dgid : IbvGid := {}
  hopLimit : UInt8 := 0
  sgidIndex : Nat := 0
  trafficClass : UInt8 := 0
  deriving DecidableEq, Repr

structure IbvAhAttr where
  dlid : UInt16 := 0
  sl : UInt8 := 0
  srcPathBits : UInt8 := 0
  portNum : UInt8 := 0
  isGlobal : Bool := false
  grh : IbvGlobalRoute := {}
  deriving DecidableEq, Repr

-- `attr = {}` and the fields that are assigned after it.
structure IbvQpAttr where
  qpState : IbvQpState := .reset
  portNum : UInt8 := 0
  pkeyIndex : UInt16 := 0
  qpAccessFlags : List IbvAccessFlag := []
  qkey : UInt32 := 0
  pathMtu : Nat := 0
  destQpNum : UInt32 := 0
  rqPsn : UInt32 := 0
  sqPsn : UInt32 := 0
  ahAttr : IbvAhAttr := {}
  maxDestRdAtomic : UInt8 := 0
  minRnrTimer : UInt8 := 0
  timeout : UInt8 := 0
  retryCnt : UInt8 := 0
  rnrRetry : UInt8 := 0
  maxRdAtomic : UInt8 := 0
  deriving DecidableEq, Repr

structure IbvQp where
  qpNum : UInt32
  state : IbvQpState := .reset
  qpType : IbvQpType
  deriving DecidableEq, Repr

-- The arguments of `ibv_modify_qp` after the queue pair.
structure ModifyCall where
  attr : IbvQpAttr
  flags : List IbvQpAttrMask
  deriving DecidableEq, Repr

-- The return value of `ibv_modify_qp`.
abbrev ModifyDriver := IbvQp → ModifyCall → Int

-- The modifications a function issues, and how it ends.
structure Modified (α : Type) where
  calls : List ModifyCall
  result : Except Failure α

namespace Modified

variable {α β : Type}

def fail (e : Failure) : Modified α := { calls := [], result := .error e }

def andThen (first : Modified α) (rest : α → Modified β) : Modified β :=
  match first.result with
  | .error e => { calls := first.calls, result := .error e }
  | .ok value => { calls := first.calls ++ (rest value).calls, result := (rest value).result }

end Modified

def modifyQp (driver : ModifyDriver) (qp : IbvQp) (call : ModifyCall) (message : String) :
    Modified IbvQp where
  calls := [call]
  result :=
    if driver qp call ≠ 0 then .error (.panicWithErrno message [])
    else .ok { qp with state := call.attr.qpState }

def modifyQpToInit (type : IbvQpType) (driver : ModifyDriver) (qp : IbvQp) (portNum : UInt8 := 1)
    (udQkey : UInt32 := 0) : Modified IbvQp :=
  if qp.state ≠ .reset then .fail (.panic "assertion failed: qp->state == IBV_QPS_RESET" [])
  else
    let attr : IbvQpAttr := { qpState := .init, portNum, pkeyIndex := 0 }
    let flags : List IbvQpAttrMask := [.state, .pkeyIndex, .port]
    let call : ModifyCall :=
      match type with
      | .rc =>
          { attr := { attr with qpAccessFlags := [.remoteRead, .remoteWrite, .remoteAtomic] }
            flags := flags ++ [.accessFlags] }
      | .uc =>
          { attr := { attr with qpAccessFlags := [.remoteWrite] }
            flags := flags ++ [.accessFlags] }
      | .ud => { attr := { attr with qkey := udQkey }, flags := flags ++ [.qkey] }
      | .rawPacket => { attr, flags := [.state, .port] }
      | .xrcSend | .xrcRecv | .expDcIni => { attr, flags }
    modifyQp driver qp call "failed to modify QP {:p} to INIT state"

def modifyQpToRtr (type : IbvQpType) (driver : ModifyDriver) (qp : IbvQp) (remoteGid : IbvGid)
    (remoteLid remoteQpn psn : UInt32) (port : UInt32 := 1) : Modified IbvQp :=
  if qp.state ≠ .init then .fail (.panic "assertion failed: qp->state == IBV_QPS_INIT" [])
  else
    -- The fields of the address handle are narrower than the arguments.
    let attr : IbvQpAttr :=
      { qpState := .rtr, pathMtu := 4096, destQpNum := remoteQpn, rqPsn := psn
        ahAttr :=
          { dlid := remoteLid.toUInt16, sl := 0, srcPathBits := 0, portNum := port.toUInt8
            isGlobal := true
            grh :=
              { dgid := remoteGid, hopLimit := 0xFF
                sgidIndex := RdmaContext.universalGidIndex, trafficClass := 0 } } }
    let flags : List IbvQpAttrMask := [.state, .av, .pathMtu, .destQpn, .rqPsn]
    let call : ModifyCall :=
      match type with
      | .rc =>
          { attr := { attr with maxDestRdAtomic := 16, minRnrTimer := 12 }
            flags := flags ++ [.maxDestRdAtomic, .minRnrTimer] }
      | .ud | .rawPacket => { attr, flags := [.state] }
      | .uc | .xrcSend | .xrcRecv | .expDcIni => { attr, flags }
    modifyQp driver qp call "failed to modify QP {:p} to RTR state"

def modifyQpToRts (type : IbvQpType) (driver : ModifyDriver) (qp : IbvQp) (psn : UInt32) :
    Modified IbvQp :=
  if qp.state ≠ .rtr then .fail (.panic "assertion failed: qp->state == IBV_QPS_RTR" [])
  else
    let attr : IbvQpAttr := { qpState := .rts, sqPsn := psn }
    let flags : List IbvQpAttrMask := [.state, .sqPsn]
    let call : ModifyCall :=
      match type with
      | .rc =>
          { attr := { attr with timeout := 14, retryCnt := 7, rnrRetry := 6, maxRdAtomic := 16 }
            flags := flags ++ [.timeout, .retryCnt, .rnrRetry, .maxQpRdAtomic] }
      | .rawPacket => { attr, flags := [.state] }
      | .uc | .ud | .xrcSend | .xrcRecv | .expDcIni => { attr, flags }
    modifyQp driver qp call "failed to modify QP {:p} to RTS state"

-- `rdma_qp<Type>::info`
structure Info where
  gid : IbvGid
  lid : UInt32
  qpNum : UInt32
  psn : UInt32
  deriving DecidableEq, Repr

structure RdmaQp (type : IbvQpType) where
  ctx : RdmaContext
  qp : Option IbvQp := none
  port : UInt8 := 1
  deriving DecidableEq, Repr

namespace RdmaQp

variable {type : IbvQpType}

def universalInitPsn : UInt32 := 3000

-- `qp->...` of a handle that has been moved away.
def deref (this : RdmaQp type) : Except Failure IbvQp :=
  match this.qp with
  | some qp => .ok qp
  | none => .error (.undefined "null queue pair")

def getInfo (this : RdmaQp type) : Except Failure Info := do
  let gid ← this.ctx.getGid
  let lid ← this.ctx.getPortLid this.port
  let qp ← this.deref
  return { gid, lid, qpNum := qp.qpNum, psn := universalInitPsn }

def getQpInfo (this : RdmaQp type) : Except Failure Info := do
  let gid ← this.ctx.getGid this.port
  let lid ← this.ctx.getPortLid this.port
  let qp ← this.deref
  return { gid, lid, qpNum := qp.qpNum, psn := universalInitPsn }

def bindPort (driver : ModifyDriver) (this : RdmaQp type) (port : UInt8 := 1) :
    Modified (RdmaQp type) :=
  let this := { this with port }
  if type = .ud ∨ type = .rawPacket then
    match this.deref with
    | .error e => .fail e
    | .ok qp =>
        let udQkey : UInt32 := 0x11111111
        (modifyQpToInit type driver qp port udQkey).andThen fun qp =>
        (modifyQpToRtr type driver qp {} 0 0 universalInitPsn port.toUInt32).andThen fun qp =>
        (modifyQpToRts type driver qp universalInitPsn).andThen fun qp =>
        { calls := [], result := .ok { this with qp := some qp } }
  else { calls := [], result := .ok this }

def connect (driver : ModifyDriver) (this : RdmaQp type) (remote : Info) (port : UInt8 := 1) :
    Modified (RdmaQp type) :=
  match this.deref with
  | .error e => .fail e
  | .ok qp =>
      if qp.qpType ≠ .rc then .fail (.panic "assertion failed: qp->qp_type == IBV_QPT_RC" [])
      else
        (modifyQpToInit type driver qp port).andThen fun qp =>
        (modifyQpToRtr type driver qp remote.gid remote.lid remote.qpNum remote.psn
          port.toUInt32).andThen fun qp =>
        (modifyQpToRts type driver qp universalInitPsn).andThen fun qp =>
        { calls := [], result := .ok { this with qp := some qp } }

end RdmaQp

/-! ## The connection manager -/

-- `cm::connect`; the remote procedure call hands over one address and brings back another.
def cmConnect (driver : ModifyDriver) (rpc : Info → Info) (qp : RdmaQp .rc) :
    Modified (RdmaQp .rc) :=
  match qp.getInfo with
  | .error e => .fail e
  | .ok selfInfo => qp.connect driver (rpc selfInfo)

end Rdmalib2
