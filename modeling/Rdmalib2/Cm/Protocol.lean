import Rdmalib2.Objects.Classes
import Rdmalib2.Qp.Ladder
import Rdmalib2.Shared.Run

set_option autoImplicit false

/-!
# The connection manager as a network

One server and any number of clients, with every request, reply, handler and modification a step
of its own. The remote procedure calls run the handler once for each request and give its result
to the caller.
-/

namespace Rdmalib2

/-! ## Queue pairs with what they were told -/

-- A queue pair with the modifications that the driver has accepted for it.
structure Driven where
  qp : IbvQp
  accepted : List ModifyCall := []
  deriving DecidableEq, Repr

namespace Driven

-- An attribute has the value it was last given by a call that names it in its mask.
def attr {α : Type} (this : Driven) (mask : IbvQpAttrMask) (field : IbvQpAttr → α) : Option α :=
  this.accepted.foldl
    (fun value call => if mask ∈ call.flags then some (field call.attr) else value) none

end Driven

-- Where a queue pair is found on the fabric.
structure Address where
  gid : IbvGid
  lid : UInt16
  qpNum : UInt32
  deriving DecidableEq, Repr

namespace Driven

def destination (this : Driven) : Option Address := do
  let grh ← this.attr .av (·.ahAttr.grh)
  let lid ← this.attr .av (·.ahAttr.dlid)
  let qpNum ← this.attr .destQpn (·.destQpNum)
  return { gid := grh.dgid, lid, qpNum }

def rqPsn (this : Driven) : Option UInt32 := this.attr .rqPsn (·.rqPsn)

def sqPsn (this : Driven) : Option UInt32 := this.attr .sqPsn (·.sqPsn)

end Driven

-- The address of a queue pair that uses port 1.
def addressOf (ctx : RdmaContext) (qpNum : UInt32) : Option Address :=
  match ctx.portAttr 1 with
  | .ok attr => some { gid := attr.1, lid := attr.2.lid, qpNum }
  | .error _ => none

inductive ConnectStage where
  | toInit
  | toRtr
  | toRts
  | done
  deriving DecidableEq, Repr

@[simp] def ConnectStage.next : ConnectStage → ConnectStage
  | .toInit => .toRtr
  | .toRtr => .toRts
  | .toRts | .done => .done

-- `rdma_qp::connect`, one modification at a time.
def connectStep (driver : ModifyDriver) (remote : Info) (port : UInt8) (qp : IbvQp) :
    ConnectStage → Modified IbvQp
  | .toInit =>
      if qp.qpType ≠ .rc then .fail (.panic "assertion failed: qp->qp_type == IBV_QPT_RC" [])
      else modifyQpToInit .rc driver qp port
  | .toRtr =>
      modifyQpToRtr .rc driver qp remote.gid remote.lid remote.qpNum remote.psn port.toUInt32
  | .toRts => modifyQpToRts .rc driver qp RdmaQp.universalInitPsn
  | .done => { calls := [], result := .ok qp }

def Driven.advance (this : Driven) (driver : ModifyDriver) (remote : Info) (stage : ConnectStage) :
    Except Failure Driven :=
  let modified := connectStep driver remote 1 this.qp stage
  modified.result.map fun qp => { qp, accepted := this.accepted ++ modified.calls }

/-! ## Parties and calls -/

inductive ClientPhase where
  | idle
  | waiting (call : Nat)
  | connecting (remote : Info) (stage : ConnectStage)
  | exited (failure : Failure)
  deriving DecidableEq, Repr

structure Client where
  qp : Driven
  phase : ClientPhase := .idle
  deriving DecidableEq, Repr

-- How far the handler of a call has come.
inductive HandlerStage where
  | requested
  | connecting (qp : QpObject) (stage : ConnectStage)
  | informed (qp : QpObject) (selfInfo : Info)
  | called (qp param : QpObject) (selfInfo : Info)
  | replied (selfInfo : Info)
  | delivered (selfInfo : Info)
  deriving DecidableEq, Repr

-- A call, with the queue pair that its handler has created.
structure Exchange (ι : Type) where
  caller : ι
  request : Info
  stage : HandlerStage := .requested
  qp : Option Driven := none
  deriving Repr

-- The pointer of an object of the handler leads to the queue pair that the handler created.
def Exchange.deref {ι : Type} (this : Exchange ι) (object : QpObject) : Except Failure Driven :=
  match object.qp, this.qp with
  | some _, some qp => .ok qp
  | _, _ => .error (.undefined "null queue pair")

/-- The contexts of the server and of the clients, and the numbers of the clients' queue pairs,
which one port does not give out twice. What becomes of a call after `stop` is up to hrpc: `serves`
says from which stages its handler still goes on, or its reply still goes out. -/
structure Setup (ι : Type) where
  serverCtx : RdmaContext
  withStop : Bool
  serves : HandlerStage → Bool
  ctx : ι → RdmaContext
  qpNum : ι → UInt32
  distinct : ∀ i j, (addressOf (ctx i) (qpNum i)).isSome →
    addressOf (ctx i) (qpNum i) = addressOf (ctx j) (qpNum j) → i = j

inductive Party (ι : Type) where
  | client (id : ι)
  | server (call : Nat)
  deriving DecidableEq, Repr

-- `rts` lists the queue pairs in the order in which they got to RTS.
structure Network (ι : Type) where
  clients : ι → Client
  calls : List (Exchange ι) := []
  stopped : Bool := false
  serverExit : Option Failure := none
  rts : List (Party ι) := []

inductive NetAction (ι : Type) where
  | call (id : ι)
  | serve (call : Nat) (created : Except Failure UInt32)
  | handle (call : Nat) (driver : ModifyDriver)
  | inform (call : Nat)
  | callback (call : Nat)
  | answer (call : Nat) (returned : Except Failure Bool)
  | deliver (call : Nat)
  | hangUp (id : ι)
  | connect (id : ι) (driver : ModifyDriver)

namespace Network

variable {ι : Type} [DecidableEq ι]

def start (setup : Setup ι) : Network ι where
  clients id := { qp := { qp := { qpNum := setup.qpNum id, qpType := .rc } } }

def setClient (s : Network ι) (id : ι) (client : Client) : Network ι :=
  { s with clients := Function.update s.clients id client }

def setCall (s : Network ι) (call : Nat) (exchange : Exchange ι) : Network ι :=
  { s with calls := s.calls.set call exchange }

def exitServer (s : Network ι) (failure : Failure) : Network ι :=
  { s with serverExit := some failure }

-- The driver gives a new queue pair a number that no other of the server has.
def inUse (s : Network ι) (qpNum : UInt32) : Bool :=
  s.calls.any fun exchange => exchange.qp.any fun driven => driven.qp.qpNum = qpNum

def arrived (party : Party ι) (stage : ConnectStage) : List (Party ι) :=
  if stage.next = .done then [party] else []

-- The server has not been asked to stop, or goes on with calls at this stage.
def serves (setup : Setup ι) (s : Network ι) (stage : HandlerStage) : Bool :=
  !s.stopped || setup.serves stage

-- The handler of a call takes a step while the server runs and serves it.
def handler (setup : Setup ι) (s : Network ι) (call : Nat)
    (act : Exchange ι → Except Unit (Network ι)) : Except Unit (Network ι) :=
  match s.serverExit, s.calls[call]? with
  | none, some exchange => if s.serves setup exchange.stage then act exchange else .error ()
  | _, _ => .error ()

-- An action that is not enabled is an error; a process that exits is a step.
def step (setup : Setup ι) (s : Network ι) : NetAction ι → Except Unit (Network ι)
  | .call id =>
      let client := s.clients id
      match client.phase with
      | .idle =>
          let object : RdmaQp .rc := { ctx := setup.ctx id, qp := some client.qp.qp }
          match object.getInfo with
          | .error e => .ok (s.setClient id { client with phase := .exited e })
          | .ok selfInfo =>
              .ok { s.setClient id { client with phase := .waiting s.calls.length } with
                calls := s.calls ++ [{ caller := id, request := selfInfo }] }
      | _ => .error ()
  | .serve call created =>
      s.handler setup call fun exchange =>
        match exchange.stage with
        | .requested =>
            match created with
            | .error e => .ok (s.exitServer e)
            | .ok qpNum =>
                if s.inUse qpNum then .error ()
                else
                  let object : QpObject := { ctx := setup.serverCtx, qp := some call }
                  .ok (s.setCall call { exchange with
                    stage := .connecting object .toInit
                    qp := some { qp := { qpNum, qpType := .rc } } })
        | _ => .error ()
  | .handle call driver =>
      s.handler setup call fun exchange =>
        match exchange.stage with
        | .connecting object stage =>
            if stage = .done then .error ()
            else
              match exchange.deref object >>= fun qp => qp.advance driver exchange.request stage with
              | .error e => .ok (s.exitServer e)
              | .ok qp =>
                  .ok { s.setCall call { exchange with
                      stage := .connecting object stage.next
                      qp := some qp } with
                    rts := s.rts ++ arrived (.server call) stage }
        | _ => .error ()
  | .inform call =>
      s.handler setup call fun exchange =>
        match exchange.stage with
        | .connecting object .done =>
            match (object.view .rc fun _ => exchange.qp.map Driven.qp).getInfo with
            | .error e => .ok (s.exitServer e)
            | .ok selfInfo => .ok (s.setCall call { exchange with stage := .informed object selfInfo })
        | _ => .error ()
  | .callback call =>
      s.handler setup call fun exchange =>
        match exchange.stage with
        | .informed object selfInfo =>
            let (param, left) := object.moveConstruct
            .ok (s.setCall call { exchange with stage := .called left param selfInfo })
        | _ => .error ()
  | .answer call returned =>
      s.handler setup call fun exchange =>
        match exchange.stage with
        | .called object _ selfInfo =>
            match returned with
            | .error e => .ok (s.exitServer e)
            | .ok shouldStop =>
                -- The callback keeps its queue pair; the handler destroys what it has left.
                .ok { s.setCall call { exchange with
                    stage := .replied selfInfo
                    qp := if object.destroy = [] then exchange.qp else none } with
                  stopped := s.stopped || (setup.withStop && shouldStop) }
        | _ => .error ()
  | .deliver call =>
      match s.calls[call]? with
      | some exchange =>
          let client := s.clients exchange.caller
          match exchange.stage with
          | .replied selfInfo =>
              if client.phase = .waiting call ∧ s.serves setup exchange.stage then
                .ok ((s.setCall call { exchange with stage := .delivered selfInfo }).setClient
                  exchange.caller { client with phase := .connecting selfInfo .toInit })
              else .error ()
          | _ => .error ()
      | none => .error ()
  | .hangUp id =>
      let client := s.clients id
      -- The server cannot be reached, or the call does not come back.
      match client.phase with
      | .idle | .waiting _ =>
          .ok (s.setClient id { client with phase := .exited (.uncaught "hrpc::client") })
      | _ => .error ()
  | .connect id driver =>
      let client := s.clients id
      match client.phase with
      | .connecting remote stage =>
          if stage = .done then .error ()
          else
            match client.qp.advance driver remote stage with
            | .error e => .ok (s.setClient id { client with phase := .exited e })
            | .ok qp =>
                .ok { s.setClient id { qp, phase := .connecting remote stage.next } with
                  rts := s.rts ++ arrived (.client id) stage }
      | _ => .error ()

end Network

end Rdmalib2
