import Rdmalib2.Objects.Classes
import Rdmalib2.Process.Exit

set_option autoImplicit false

/-!
# The constructors

Each one asks the driver for its objects and ends the process when it does not get them.
-/

namespace Rdmalib2

open Shared

/-! ## `rdma_context` -/

-- What `ibv_exp_query_port` returns and fills in.
structure PortQuery where
  ret : Int
  attr : IbvExpPortAttr
  gidTblLen : Int
  deriving DecidableEq, Repr

structure GidQuery where
  ret : Int
  gid : IbvGid
  deriving DecidableEq, Repr

-- The number of ports in the table tells one query from another that names the same port.
structure ContextDriver where
  getDeviceList : Option (List String)
  openDevice : String → Option Nat
  allocPd : Option Nat
  -- The return value and `phys_port_cnt`.
  queryDevice : Int × UInt8
  queryPort : Nat → UInt8 → PortQuery
  queryGid : Nat → UInt8 → Int → GidQuery
  createResDomain : Option Nat

def openNamed (driver : ContextDriver) (devices : List String) (name : String) :
    Attempt (Option Nat) :=
  match devices.find? (deviceNamed name) with
  | some device => do
      Trial.asked (.handle (driver.openDevice device))
      return driver.openDevice device
  | none => return none

-- The rest of `create_rdma_context`, once the loop has been left.
def createProtectionDomain (driver : ContextDriver) (ctx : Option Nat) :
    Attempt (Option (Nat × Nat)) := do
  -- `ibv_free_device_list`
  Trial.asked .ignored
  match ctx with
  | none => return none
  | some ctx =>
      Trial.asked (.handle driver.allocPd)
      match driver.allocPd with
      | some pd => return some (ctx, pd)
      | none =>
          -- `ibv_close_device`
          Trial.asked .ignored
          return none

def createRdmaContext (driver : ContextDriver) (name : String) : Attempt (Option (Nat × Nat)) := do
  Trial.asked (.devices driver.getDeviceList name)
  match driver.getDeviceList with
  | none | some [] => return none
  | some devices =>
      let ctx ← openNamed driver devices name
      createProtectionDomain driver ctx

-- The loop over the ports, before a turn.
structure Querying where
  i : UInt8 := 1
  portAttrs : List (IbvGid × IbvExpPortAttr) := []
  answers : List Answer := []
  deriving DecidableEq, Repr

def queryPort (driver : ContextDriver) (physPortCnt : UInt8) (s : Querying) :
    Turn Querying (Querying × Except Failure Unit) :=
  if s.i ≤ physPortCnt then
    let port := driver.queryPort s.portAttrs.length s.i
    let queried := { s with answers := s.answers ++ [.code port.ret] }
    if port.ret ≠ 0 then
      .done (queried,
        .error (.panicWithErrno "failed to query port {}'s attributes" [s.i.toNat]))
    else if port.gidTblLen = 0 then .done (queried, .error (.undefined "remainder by zero"))
    else
      let gidIndex := Int.tmod RdmaContext.universalGidIndex port.gidTblLen
      let gid := driver.queryGid s.portAttrs.length s.i gidIndex
      let queried := { queried with answers := queried.answers ++ [.code gid.ret] }
      if gid.ret ≠ 0 then
        .done (queried, .error (.panicWithErrno "failed to query port {}'s gid" [s.i.toNat]))
      else
        .again { queried with i := s.i + 1, portAttrs := s.portAttrs ++ [(gid.gid, port.attr)] }
  else .done (s, .ok ())

-- The counter is as narrow as its bound, so the loop may not end.
def queryPorts (driver : ContextDriver) (physPortCnt : UInt8) (fuel : Nat) :
    Attempt (List (IbvGid × IbvExpPortAttr)) :=
  match iterate (queryPort driver physPortCnt) fuel {} with
  | .again s => { answers := s.answers, result := none }
  | .done (s, ended) =>
      { answers := s.answers, result := some (ended.map fun _ => s.portAttrs) }

def contextFailed (devName : String) : Failure :=
  if devName ≠ "" then
    .panicWithErrno
      ("failed to create context and/or protection domain for device " ++ devName) []
  else
    .panicWithErrno "failed to create context and/or protection domain for default device" []

-- `rdma_context(dev_name)`
def RdmaContext.construct (driver : ContextDriver) (fuel : Nat) (devName : String := "") :
    Attempt RdmaContext := do
  match ← createRdmaContext driver devName with
  | none => Trial.fail (contextFailed devName)
  | some _ =>
      let (ret, physPortCnt) := driver.queryDevice
      demand (.code ret) (.panicWithErrno "failed to query device attributes" [])
      let portAttrs ← queryPorts driver physPortCnt fuel
      return { physPortCnt, portAttrs }

-- Without hints there is a null pointer for a resource domain; the context is not null here.
def createRdmaResDomain (driver : ContextDriver) (compMask : UInt32) :
    Attempt (Option (Option Nat)) :=
  if compMask = 0 then return some none
  else do
    Trial.asked (.handle driver.createResDomain)
    return driver.createResDomain.map some

-- `rdma_context(dev_name, hint)`
def RdmaContext.constructHinted (driver : ContextDriver) (fuel : Nat) (devName : String)
    (compMask : UInt32) : Attempt RdmaContext := do
  let this ← RdmaContext.construct driver fuel devName
  match ← createRdmaResDomain driver compMask with
  | some _ => return this
  | none =>
      Trial.fail (.panicWithErrno "failed to create resource domain for context {:p}" [])

/-! ## `rdma_memory_region`, `rdma_cq` and `rdma_qp` -/

structure RegionDriver where
  allocDm : Option Nat
  regMr : Option Nat
  -- The buffer of zeros that device memory is initialised from.
  newZeroBuf : Bool

def createRdmaMemoryRegion (driver : RegionDriver) (device : Bool) :
    Attempt (Option (Nat × Option Nat)) :=
  if ¬ device then do
    Trial.asked (.handle driver.regMr)
    return driver.regMr.map fun mr => (mr, none)
  else do
    Trial.asked (.handle driver.allocDm)
    match driver.allocDm with
    | none => return none
    | some dm =>
        Trial.asked (.handle driver.regMr)
        match driver.regMr with
        | none =>
            -- `ibv_exp_free_dm`
            Trial.asked .ignored
            return none
        | some mr =>
            if driver.newZeroBuf then
              -- `ibv_exp_memcpy_dm`
              Trial.asked .ignored
              return some (mr, some dm)
            else Trial.fail (.uncaught "std::bad_alloc")

def regionFailed (device : Bool) (perm : UInt32) (ptr size : UInt64) : Failure :=
  .panicWithErrno
    ("failed to create memory region for " ++ (if device then "device" else "host") ++
      " memory, permission {}, on address [{:p}, {:p})")
    [perm.toNat, ptr.toNat, (ptr + size).toNat]

def RegionObject.construct (driver : RegionDriver) (ctx : RdmaContext) (device : Bool)
    (perm : UInt32) (ptr size : UInt64) : Attempt RegionObject := do
  match ← createRdmaMemoryRegion driver device with
  | some (mr, dm) => return { ctx, mr := some mr, dm, ptr, size }
  | none => Trial.fail (regionFailed device perm ptr size)

-- `create_rdma_cq` and `create_rdma_qp`
def createHandle (made : Option Nat) : Attempt (Option Nat) := do
  Trial.asked (.handle made)
  return made

def CqObject.construct (createCq : Option Nat) (cqDepth : Int) : Attempt CqObject := do
  match ← createHandle createCq with
  | some cq => return { cq := some cq }
  | none =>
      Trial.fail (.panicWithErrno
        "failed to create completion queue with depth {} for context {:p}" [cqDepth])

def qptypeToString : IbvQpType → String
  | .rc => "RC"
  | .uc => "UC"
  | .ud => "UD"
  | .rawPacket => "RAW_PACKET"
  | .xrcSend => "XRC_SEND"
  | .xrcRecv => "XRC_RECV"
  | .expDcIni => "DC_INI"

def QpObject.construct (createQp : Option Nat) (ctx : RdmaContext) (type : IbvQpType)
    (qpDepth : Int) : Attempt QpObject := do
  match ← createHandle createQp with
  | some qp => return { ctx, qp := some qp }
  | none =>
      Trial.fail (.panicWithErrno
        ("failed to create queue pair with type " ++ qptypeToString type ++
          ", depth {} for context {:p}") [qpDepth])

/-! ## Failures end them -/

def Yields {α : Type} (attempt : Attempt (Option α)) : Prop :=
  attempt.Yields (fun answer => answer.failed = true) Answer.fits

theorem Yields.candid {α β : Type} {attempt : Attempt (Option α)} (yields : Yields attempt)
    {rest : Option α → Attempt β} {message : String} {args : List Int}
    (absent : rest none = Trial.fail (.panicWithErrno message args))
    (present : ∀ value, Candid (rest (some value))) : Candid (attempt >>= rest) :=
  Trial.Yields.heeds yields absent (fun _ fits => .errno fits) present

theorem yields_handle {α : Type} {made : Option Nat} {rest : Unit → Attempt (Option α)}
    (null : made = none → (rest ()).result = some (.ok none)) (later : Yields (rest ())) :
    Yields (Trial.asked (.handle made) >>= rest) :=
  Trial.yields_asked (fun failure => ⟨trivial, null (by simpa [Answer.failed] using failure)⟩) later

theorem yields_ignored {α : Type} {rest : Unit → Attempt (Option α)} (later : Yields (rest ())) :
    Yields (Trial.asked .ignored >>= rest) :=
  Trial.yields_asked (fun failure => by cases failure) later

theorem createHandle_yields (made : Option Nat) : Yields (createHandle made) :=
  yields_handle (fun null => by rw [null]; rfl) (Trial.yields_pure made)

theorem createRdmaMemoryRegion_yields (driver : RegionDriver) (device : Bool) :
    Yields (createRdmaMemoryRegion driver device) := by
  unfold createRdmaMemoryRegion
  split
  next =>
    refine yields_handle (fun null => ?_) (Trial.yields_pure _)
    rw [null]
    rfl
  next =>
    refine yields_handle (fun null => ?_) ?_
    · rw [null]
      rfl
    · cases driver.allocDm with
      | none => exact Trial.yields_pure none
      | some dm =>
        refine yields_handle (fun null => ?_) ?_
        · rw [null]
          rfl
        · cases driver.regMr with
          | none => exact yields_ignored (Trial.yields_pure none)
          | some mr =>
            cases driver.newZeroBuf with
            | true => exact yields_ignored (Trial.yields_pure _)
            | false => exact fun _ given => absurd given List.not_mem_nil

theorem createProtectionDomain_yields (driver : ContextDriver) (ctx : Option Nat) :
    Yields (createProtectionDomain driver ctx) := by
  refine yields_ignored ?_
  cases ctx with
  | none => exact Trial.yields_pure none
  | some ctx =>
    refine yields_handle (fun null => ?_) ?_
    · rw [null]
      rfl
    · cases driver.allocPd with
      | some pd => exact Trial.yields_pure _
      | none => exact yields_ignored (Trial.yields_pure none)

theorem createRdmaContext_yields (driver : ContextDriver) (name : String) :
    Yields (createRdmaContext driver name) := by
  unfold createRdmaContext
  cases driver.getDeviceList with
  | none => exact Trial.yields_asked (fun _ => ⟨trivial, rfl⟩) (Trial.yields_pure none)
  | some names =>
    cases names with
    | nil => exact Trial.yields_asked (fun _ => ⟨trivial, rfl⟩) (Trial.yields_pure none)
    | cons first rest =>
      simp only [openNamed]
      cases found : (first :: rest).find? (deviceNamed name) with
      | none =>
        refine Trial.yields_asked (fun _ => ⟨trivial, rfl⟩) ?_
        exact createProtectionDomain_yields driver none
      | some device =>
        have listed : (first :: rest).any (deviceNamed name) = true := by
          rw [List.any_eq_true]
          exact ⟨device, List.mem_of_find?_eq_some found, List.find?_some found⟩
        refine Trial.yields_asked (fun failure => ?_) ?_
        · simp [Answer.failed, listed] at failure
        · change Yields (Trial.asked (.handle (driver.openDevice device)) >>= fun _ =>
            createProtectionDomain driver (driver.openDevice device))
          refine yields_handle (fun null => ?_) (createProtectionDomain_yields driver _)
          rw [null]
          rfl

theorem createRdmaResDomain_yields (driver : ContextDriver) (compMask : UInt32) :
    Yields (createRdmaResDomain driver compMask) := by
  unfold createRdmaResDomain
  split
  next => exact Trial.yields_pure _
  next =>
    refine yields_handle (fun null => ?_) (Trial.yields_pure _)
    rw [null]
    rfl

-- The loop goes on only while no query has failed.
theorem queryPort_holds (driver : ContextDriver) (physPortCnt : UInt8) {s : Querying}
    (before : Unfailing s.answers) :
    (queryPort driver physPortCnt s).Holds (fun s => Unfailing s.answers)
      fun ended => Candid { answers := ended.1.answers, result := some ended.2 } := by
  have fine : ∀ {answers : List Answer} {ret : Int}, Unfailing answers → ¬ ret ≠ 0 →
      Unfailing (answers ++ [.code ret]) :=
    fun unfailing zero => unfailing.push (by simpa [Answer.failed] using zero)
  unfold queryPort
  split
  next =>
    simp only
    split
    next => exact before.candid_push fun _ => ⟨_, rfl, .errno trivial⟩
    next port =>
      have queried := fine before port
      split
      next => exact queried.candid _
      next =>
        split
        next => exact queried.candid_push fun _ => ⟨_, rfl, .errno trivial⟩
        next gid => exact fine queried gid
  next => exact before.candid _

theorem queryPorts_candid (driver : ContextDriver) (physPortCnt : UInt8) (fuel : Nat) :
    Candid (queryPorts driver physPortCnt fuel) := by
  have start : Unfailing ({} : Querying).answers := unfailing_nil
  have ended := iterate_holds _ _ _ (fun s before => queryPort_holds driver physPortCnt before) fuel
    start
  unfold queryPorts
  split
  next s looped =>
    rw [looped] at ended
    exact Unfailing.candid ended none
  next s result looped =>
    rw [looped] at ended
    intro answer given failure
    obtain ⟨e, refused, belongs⟩ := ended answer given failure
    obtain rfl : result = .error e := Option.some.inj refused
    exact ⟨e, rfl, belongs⟩

theorem RdmaContext.construct_candid (driver : ContextDriver) (fuel : Nat) (devName : String) :
    Candid (RdmaContext.construct driver fuel devName) := by
  obtain ⟨message, named⟩ : ∃ message, contextFailed devName = .panicWithErrno message [] := by
    unfold contextFailed
    split
    next => exact ⟨_, rfl⟩
    next => exact ⟨_, rfl⟩
  refine (createRdmaContext_yields driver devName).candid (congrArg Trial.fail named) fun _ => ?_
  have queried : Candid (demand (.code driver.queryDevice.1)
      (.panicWithErrno "failed to query device attributes" [])) := demand_candid trivial
  refine queried.bind fun _ => ?_
  exact (queryPorts_candid driver _ fuel).bind fun _ => Trial.heeds_ok _

theorem RdmaContext.constructHinted_candid (driver : ContextDriver) (fuel : Nat) (devName : String)
    (compMask : UInt32) : Candid (RdmaContext.constructHinted driver fuel devName compMask) :=
  (RdmaContext.construct_candid driver fuel devName).bind fun _ =>
    (createRdmaResDomain_yields driver compMask).candid rfl fun _ => Trial.heeds_ok _

theorem RegionObject.construct_candid (driver : RegionDriver) (ctx : RdmaContext) (device : Bool)
    (perm : UInt32) (ptr size : UInt64) :
    Candid (RegionObject.construct driver ctx device perm ptr size) :=
  (createRdmaMemoryRegion_yields driver device).candid rfl fun _ => Trial.heeds_ok _

theorem CqObject.construct_candid (createCq : Option Nat) (cqDepth : Int) :
    Candid (CqObject.construct createCq cqDepth) :=
  (createHandle_yields createCq).candid rfl fun _ => Trial.heeds_ok _

theorem QpObject.construct_candid (createQp : Option Nat) (ctx : RdmaContext) (type : IbvQpType)
    (qpDepth : Int) : Candid (QpObject.construct createQp ctx type qpDepth) :=
  (createHandle_yields createQp).candid rfl fun _ => Trial.heeds_ok _

end Rdmalib2
