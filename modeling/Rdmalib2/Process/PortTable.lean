import Rdmalib2.Process.Construct

set_option autoImplicit false

/-!
# The table of ports

The constructor fills the table one port at a time behind an 8-bit counter, and the lookups
read it behind a guard on one end.
-/

namespace Rdmalib2

open Shared

-- What a device says of one port; the GID is the one at the index every port has.
structure DevicePort where
  gid : IbvGid
  attr : IbvExpPortAttr
  gidTblLen : Int
  deriving DecidableEq, Repr

structure Device where
  physPortCnt : UInt8
  port : UInt8 → DevicePort

namespace Device

def HasPort (device : Device) (port : UInt8) : Prop :=
  1 ≤ port.toNat ∧ port.toNat ≤ device.physPortCnt.toNat

instance (device : Device) (port : UInt8) : Decidable (device.HasPort port) :=
  inferInstanceAs (Decidable (_ ∧ _))

def entry (device : Device) (port : UInt8) : IbvGid × IbvExpPortAttr :=
  ((device.port port).gid, (device.port port).attr)

end Device

/-- The device opens, and every query about it and about a port it has succeeds. -/
structure ContextDriver.Describes (driver : ContextDriver) (devName : String) (device : Device) :
    Prop where
  opens : ∃ made, (createRdmaContext driver devName).result = some (.ok (some made))
  queryDevice : driver.queryDevice = (0, device.physPortCnt)
  queryPort : ∀ k port, device.HasPort port →
    driver.queryPort k port =
      { ret := 0, attr := (device.port port).attr, gidTblLen := (device.port port).gidTblLen }
  queryGid : ∀ k port, device.HasPort port →
    driver.queryGid k port RdmaContext.universalGidIndex = { ret := 0, gid := (device.port port).gid }

section described

variable {driver : ContextDriver} {devName : String} {device : Device}

/-! ## The loop -/

theorem queryPort_described (describes : driver.Describes devName device) {s : Querying}
    (present : device.HasPort s.i) :
    queryPort driver device.physPortCnt s =
      if (device.port s.i).gidTblLen = 0 then
        .done ({ s with answers := s.answers ++ [.code 0] },
          .error (.undefined "remainder by zero"))
      else
        .again { i := s.i + 1, portAttrs := s.portAttrs ++ [device.entry s.i]
                 answers := s.answers ++ [.code 0] ++ [.code 0] } := by
  have more : s.i ≤ device.physPortCnt := UInt8.le_iff_toNat_le.mpr present.2
  -- Number zero of the table, whatever its length.
  have index : Int.tmod RdmaContext.universalGidIndex (device.port s.i).gidTblLen =
      RdmaContext.universalGidIndex := Int.zero_tmod _
  unfold queryPort
  rw [if_pos more]
  simp only [describes.queryPort _ _ present, index, describes.queryGid _ _ present]
  rfl

/-- One entry for each port so far, in order, and no table of GIDs was empty. -/
structure Device.Filled (device : Device) (s : Querying) : Prop where
  counter : s.i.toNat = s.portAttrs.length + 1
  most : s.portAttrs.length ≤ device.physPortCnt.toNat
  entries : ∀ port : UInt8, 1 ≤ port.toNat → port.toNat ≤ s.portAttrs.length →
    s.portAttrs[port.toNat - 1]? = some (device.entry port) ∧ (device.port port).gidTblLen ≠ 0

theorem Device.Filled.push {s : Querying} (filled : device.Filled s)
    (small : device.physPortCnt.toNat < 255) (present : device.HasPort s.i)
    (divisor : (device.port s.i).gidTblLen ≠ 0) (answers : List Answer) :
    device.Filled { i := s.i + 1, portAttrs := s.portAttrs ++ [device.entry s.i], answers } := by
  have counter := filled.counter
  have inside := present.2
  constructor
  case counter =>
    simp only [UInt8.toNat_add, List.length_append, List.length_singleton]
    change (s.i.toNat + 1) % 2 ^ 8 = _
    omega
  case most =>
    simp only [List.length_append, List.length_singleton]
    omega
  case entries =>
    intro port positive within
    simp only [List.length_append, List.length_singleton] at within
    by_cases last : port.toNat = s.i.toNat
    · obtain rfl := UInt8.toNat_inj.mp last
      refine ⟨?_, divisor⟩
      rw [show s.i.toNat - 1 = s.portAttrs.length by omega]
      simp
    · have before := filled.entries port positive (by omega)
      refine ⟨?_, before.2⟩
      rw [List.getElem?_append_left (by omega)]
      exact before.1

-- The counter only leaves the ports of the device upwards.
theorem Device.Filled.past {s : Querying} (filled : device.Filled s)
    (absent : ¬ device.HasPort s.i) : ¬ s.i ≤ device.physPortCnt := by
  have counter := filled.counter
  rw [UInt8.le_iff_toNat_le]
  intro within
  exact absent ⟨by omega, within⟩

theorem queryPort_filled (describes : driver.Describes devName device)
    (small : device.physPortCnt.toNat < 255) {s : Querying} (filled : device.Filled s) :
    (queryPort driver device.physPortCnt s).Holds device.Filled fun ended =>
      ended.2 = .ok () →
        device.Filled ended.1 ∧ ended.1.portAttrs.length = device.physPortCnt.toNat := by
  by_cases present : device.HasPort s.i
  · rw [queryPort_described describes present]
    split
    next => exact fun ok => by cases ok
    next divisor => exact filled.push small present divisor _
  · have past := filled.past present
    rw [queryPort, if_neg past]
    rw [UInt8.le_iff_toNat_le, filled.counter] at past
    have most := filled.most
    exact fun _ => ⟨filled, by simp only; omega⟩

-- Every value of the counter is within this bound.
theorem queryPort_wraps (driver : ContextDriver) (s : Querying) :
    (queryPort driver 255 s).Holds (fun _ => True) fun ended => ended.2 ≠ .ok () := by
  have within : s.i ≤ 255 := UInt8.le_iff_toNat_le.mpr (Nat.le_of_lt_succ s.i.toNat_lt)
  unfold queryPort
  rw [if_pos within]
  simp only
  split
  next => exact fun ok => by cases ok
  next =>
    split
    next => exact fun ok => by cases ok
    next =>
      split
      next => exact fun ok => by cases ok
      next => trivial

theorem queryPorts_ok {physPortCnt : UInt8} {fuel : Nat}
    {portAttrs : List (IbvGid × IbvExpPortAttr)} :
    (queryPorts driver physPortCnt fuel).result = some (.ok portAttrs) ↔
      ∃ s, iterate (queryPort driver physPortCnt) fuel {} = .done (s, .ok ()) ∧
        s.portAttrs = portAttrs := by
  unfold queryPorts
  split
  next s looped => simp [looped]
  next s ended looped =>
    cases ended with
    | error e => simp [looped, Except.map]
    | ok => simp [looped, Except.map]

theorem filled_start (device : Device) : device.Filled {} :=
  ⟨rfl, Nat.zero_le _, fun _ positive within => absurd (positive.trans within) (by decide)⟩

theorem queryPort_advances (describes : driver.Describes devName device)
    (small : device.physPortCnt.toNat < 255)
    (divisors : ∀ port, device.HasPort port → (device.port port).gidTblLen ≠ 0) {s : Querying}
    (filled : device.Filled s) :
    (queryPort driver device.physPortCnt s).Holds
      (fun next => device.Filled next ∧ next.portAttrs.length = s.portAttrs.length + 1)
      fun ended => ended.2 = .ok () := by
  by_cases present : device.HasPort s.i
  · have divisor := divisors s.i present
    rw [queryPort_described describes present, if_neg divisor]
    exact ⟨filled.push small present divisor _, by simp⟩
  · rw [queryPort, if_neg (filled.past present)]
    rfl

theorem queryPorts_filled (describes : driver.Describes devName device)
    (small : device.physPortCnt.toNat < 255) {fuel : Nat} {s : Querying}
    (looped : iterate (queryPort driver device.physPortCnt) fuel {} = .done (s, .ok ())) :
    device.Filled s ∧ s.portAttrs.length = device.physPortCnt.toNat := by
  have filled := iterate_holds _ _ _ (fun s filled => queryPort_filled describes small filled)
    fuel (filled_start device)
  rw [looped] at filled
  exact filled rfl

theorem queryPorts_wraps (driver : ContextDriver) (fuel : Nat) (s : Querying) :
    iterate (queryPort driver 255) fuel {} ≠ .done (s, .ok ()) := by
  intro looped
  have wrapped : (iterate (queryPort driver 255) fuel {}).Holds (fun _ => True)
      fun ended => ended.2 ≠ .ok () :=
    iterate_holds _ _ _ (fun s _ => queryPort_wraps driver s) fuel trivial
  rw [looped] at wrapped
  exact wrapped rfl

/-- Where the counter can pass the bound and no table of GIDs is empty, the loop ends. -/
theorem queryPorts_ends (describes : driver.Describes devName device)
    (small : device.physPortCnt.toNat < 255)
    (divisors : ∀ port, device.HasPort port → (device.port port).gidTblLen ≠ 0) :
    ∃ s, iterate (queryPort driver device.physPortCnt) (device.physPortCnt.toNat + 1) {} =
      .done (s, .ok ()) := by
  have advances := fun s (filled : device.Filled s) =>
    queryPort_advances describes small divisors filled
  obtain ⟨⟨s, ended⟩, looped⟩ := iterate_ends _ device.Filled
    (fun s => device.physPortCnt.toNat - s.portAttrs.length)
    (fun s filled => (advances s filled).imp
      (fun next taken => ⟨taken.1, by have := taken.1.most; omega⟩) fun _ _ => trivial)
    (device.physPortCnt.toNat + 1) (filled_start device) (Nat.lt_succ_self _)
  have fine := iterate_holds _ _ _
    (fun s filled => (advances s filled).imp (fun _ taken => taken.1) fun _ ok => ok)
    (device.physPortCnt.toNat + 1) (filled_start device)
  rw [looped] at fine
  obtain rfl : ended = .ok () := fine
  exact ⟨s, looped⟩

/-! ## The constructor -/

/-- One entry for each port of the device, with port `p` at index `p - 1`. -/
structure Device.Tabled (device : Device) (this : RdmaContext) : Prop where
  physPortCnt : this.physPortCnt = device.physPortCnt
  length : this.portAttrs.length = device.physPortCnt.toNat
  entries : ∀ port, device.HasPort port →
    this.portAttrs[port.toNat - 1]? = some (device.entry port)

theorem construct_ok (describes : driver.Describes devName device) {fuel : Nat}
    {this : RdmaContext} :
    (RdmaContext.construct driver fuel devName).result = some (.ok this) ↔
      ∃ portAttrs, (queryPorts driver device.physPortCnt fuel).result = some (.ok portAttrs) ∧
        this = { physPortCnt := device.physPortCnt, portAttrs } := by
  obtain ⟨made, opened⟩ := describes.opens
  have queried : (demand (.code 0)
      (.panicWithErrno "failed to query device attributes" [])).result = some (.ok ()) := rfl
  rw [RdmaContext.construct, Trial.bind_of_ok opened]
  simp only [describes.queryDevice]
  rw [Trial.bind_of_ok queried, Trial.bind_result_ok]
  refine exists_congr fun portAttrs => and_congr_right fun _ => ?_
  change some (Except.ok _) = some (Except.ok this) ↔ _
  rw [Option.some_inj, Except.ok.injEq, eq_comm]

theorem below_of_ne {count : UInt8} (bounded : count ≠ 255) : count.toNat < 255 := by
  have range := count.toNat_lt
  have apart : count.toNat ≠ 255 := fun most => bounded (UInt8.toNat_inj.mp most)
  omega

/-- The constructor returns with the whole table exactly when the counter can pass the bound
and no table of GIDs is empty. -/
theorem construct_tabled_iff (describes : driver.Describes devName device) :
    (∃ fuel this, (RdmaContext.construct driver fuel devName).result = some (.ok this) ∧
        device.Tabled this) ↔
      device.physPortCnt ≠ 255 ∧ ∀ port, device.HasPort port → (device.port port).gidTblLen ≠ 0 := by
  constructor
  · rintro ⟨fuel, this, made, tabled⟩
    obtain ⟨portAttrs, queried, rfl⟩ := (construct_ok describes).mp made
    obtain ⟨s, looped, rfl⟩ := queryPorts_ok.mp queried
    have bounded : device.physPortCnt ≠ 255 := by
      intro most
      rw [most] at looped
      exact queryPorts_wraps driver fuel s looped
    refine ⟨bounded, fun port present => ?_⟩
    obtain ⟨filled, whole⟩ := queryPorts_filled describes (below_of_ne bounded) looped
    exact (filled.entries port present.1 (whole ▸ present.2)).2
  · rintro ⟨bounded, divisors⟩
    have small := below_of_ne bounded
    obtain ⟨s, looped⟩ := queryPorts_ends describes small divisors
    obtain ⟨filled, whole⟩ := queryPorts_filled describes small looped
    refine ⟨device.physPortCnt.toNat + 1, _,
      (construct_ok describes).mpr ⟨_, queryPorts_ok.mpr ⟨s, looped, rfl⟩, rfl⟩, rfl, whole, ?_⟩
    intro port present
    exact (filled.entries port present.1 (whole ▸ present.2)).1

/-! ## The lookups -/

/-- A port of the device gets its own GID and LID, and any other number ends in a panic. -/
def Device.Answered (device : Device) (this : RdmaContext) (port : UInt8) : Prop :=
  if device.HasPort port then
    this.getGid port = .ok (device.port port).gid ∧
      this.getPortLid port = .ok (device.port port).attr.lid.toUInt32
  else
    (∃ message args, this.getGid port = .error (.panic message args)) ∧
      ∃ message args, this.getPortLid port = .error (.panic message args)

theorem answered_iff {this : RdmaContext} (tabled : device.Tabled this) (port : UInt8) :
    device.Answered this port ↔ port ≠ 0 := by
  unfold Device.Answered RdmaContext.getGid RdmaContext.getPortLid RdmaContext.portAttr
  rw [tabled.length]
  by_cases zero : port = 0
  · have absent : ¬ device.HasPort port := by
      intro present
      rw [zero] at present
      exact absurd present.1 (by decide)
    rw [if_neg absent, zero]
    simp [Except.map]
  · have positive : port.toNat ≠ 0 := fun none => zero (UInt8.toNat_inj.mp none)
    by_cases present : device.HasPort port
    · have within := present.2
      rw [if_pos present, if_neg (by omega), if_neg zero, tabled.entries port present]
      simp [Except.map, Device.entry, zero]
    · have beyond : port.toNat > device.physPortCnt.toNat := by
        by_contra within
        exact present ⟨by omega, by omega⟩
      rw [if_neg present, if_pos beyond]
      simp [Except.map, zero]

/-- What the constructor and the two lookups owe a caller with this port. -/
def PortServed (driver : ContextDriver) (devName : String) (device : Device) (port : UInt8) :
    Prop :=
  ∃ fuel this, (RdmaContext.construct driver fuel devName).result = some (.ok this) ∧
    device.Tabled this ∧ device.Answered this port

/-- The table is complete and the lookups are total exactly where the counter can pass the
bound, no table of GIDs is empty, and the port is not number zero. -/
theorem port_served_iff (describes : driver.Describes devName device) (port : UInt8) :
    PortServed driver devName device port ↔
      device.physPortCnt ≠ 255 ∧
        (∀ port, device.HasPort port → (device.port port).gidTblLen ≠ 0) ∧ port ≠ 0 := by
  rw [← and_assoc, ← construct_tabled_iff describes]
  constructor
  · rintro ⟨fuel, this, made, tabled, answered⟩
    exact ⟨⟨fuel, this, made, tabled⟩, (answered_iff tabled port).mp answered⟩
  · rintro ⟨⟨fuel, this, made, tabled⟩, nonzero⟩
    exact ⟨fuel, this, made, tabled, (answered_iff tabled port).mpr nonzero⟩

end described

/-! ## Devices -/

-- A driver with this one device, which refuses queries about ports the device does not have.
def Device.driver (device : Device) : ContextDriver where
  getDeviceList := some ["mlx5_0"]
  openDevice _ := some 0
  allocPd := some 0
  queryDevice := (0, device.physPortCnt)
  queryPort _ port :=
    { ret := if device.HasPort port then 0 else 22
      attr := (device.port port).attr, gidTblLen := (device.port port).gidTblLen }
  queryGid _ port _ :=
    { ret := if device.HasPort port then 0 else 22, gid := (device.port port).gid }
  createResDomain := none

theorem Device.driver_describes (device : Device) : device.driver.Describes "mlx5_0" device where
  opens := ⟨(0, 0), rfl⟩
  queryDevice := rfl
  queryPort _ port present := by simp [Device.driver, present]
  queryGid _ port present := by simp [Device.driver, present]

-- Port `p` has the GID and the LID with its own number.
def numbered (physPortCnt : UInt8) (gidTblLen : Int) : Device where
  physPortCnt
  port p := { gid := { interfaceId := p.toUInt64 }, attr := { lid := p.toUInt16 }, gidTblLen }

theorem second_port_served : PortServed (numbered 2 8).driver "mlx5_0" (numbered 2 8) 2 :=
  (port_served_iff (numbered 2 8).driver_describes 2).mpr
    ⟨by decide, fun _ _ => (by decide : (8 : Int) ≠ 0), by decide⟩

-- Port zero is looked up in front of the table, a counter of eight bits never passes 255, and
-- a table of GIDs may be empty.
theorem ports_unserved :
    ¬ PortServed (numbered 2 8).driver "mlx5_0" (numbered 2 8) 0 ∧
      ¬ PortServed (numbered 255 8).driver "mlx5_0" (numbered 255 8) 1 ∧
      ¬ PortServed (numbered 1 0).driver "mlx5_0" (numbered 1 0) 1 := by
  refine ⟨?_, ?_, ?_⟩
  · rintro ⟨fuel, this, -, tabled, answered⟩
    exact (answered_iff tabled 0).mp answered rfl
  · rintro ⟨fuel, this, made, tabled, -⟩
    have bounded :=
      ((construct_tabled_iff (numbered 255 8).driver_describes).mp ⟨fuel, this, made, tabled⟩).1
    exact bounded rfl
  · rintro ⟨fuel, this, made, tabled, -⟩
    have divisors :=
      ((construct_tabled_iff (numbered 1 0).driver_describes).mp ⟨fuel, this, made, tabled⟩).2
    exact divisors 1 (by decide) rfl

end Rdmalib2
