import Rdmalib2.Qp.Qp

set_option autoImplicit false

/-!
# The port of a queue pair

The port is a member, an argument of `connect` with a default of its own, and the default of
`get_gid`. What a queue pair gives out mixes the first and the last; what the driver is told is
the second.
-/

namespace Rdmalib2

namespace Modified

variable {α β : Type}

theorem andThen_ok {first : Modified α} {rest : α → Modified β} {value : β} :
    (first.andThen rest).result = .ok value ↔
      ∃ mid, first.result = .ok mid ∧ (rest mid).result = .ok value := by
  unfold andThen
  cases first.result <;> simp

theorem andThen_calls {first : Modified α} {rest : α → Modified β} {p : ModifyCall → Prop}
    (before : ∀ call ∈ first.calls, p call)
    (after : ∀ value, first.result = .ok value → ∀ call ∈ (rest value).calls, p call) :
    ∀ call ∈ (first.andThen rest).calls, p call := by
  unfold andThen
  cases result : first.result with
  | error e => exact before
  | ok value =>
    intro call issued
    rcases List.mem_append.mp issued with early | late
    · exact before call early
    · exact after value result call late

theorem andThen_first {first : Modified α} (rest : α → Modified β) {call : ModifyCall}
    (issued : call ∈ first.calls) : call ∈ (first.andThen rest).calls := by
  unfold andThen
  cases first.result with
  | error e => exact issued
  | ok value => exact List.mem_append_left _ issued

end Modified

/-! ## Modifications -/

/-- The call names this port wherever it names one. -/
def ModifyCall.Through (port : UInt8) (call : ModifyCall) : Prop :=
  (call.attr.qpState = .init → call.attr.portNum = port) ∧
    (call.attr.qpState = .rtr → call.attr.ahAttr.portNum = port)

section modifications

variable {type : IbvQpType} {driver : ModifyDriver} {qp next : IbvQp}

theorem modifyQp_keeps {call : ModifyCall} {message : String}
    (modified : (modifyQp driver qp call message).result = .ok next) :
    next.qpNum = qp.qpNum := by
  unfold modifyQp at modified
  split at modified
  next => cases modified
  next =>
    obtain rfl := Except.ok.inj modified
    rfl

theorem modifyQpToInit_keeps {port : UInt8} {qkey : UInt32}
    (modified : (modifyQpToInit type driver qp port qkey).result = .ok next) :
    next.qpNum = qp.qpNum := by
  unfold modifyQpToInit at modified
  split at modified
  next => cases modified
  next => exact modifyQp_keeps modified

theorem modifyQpToRtr_keeps {gid : IbvGid} {lid qpn psn port : UInt32}
    (modified : (modifyQpToRtr type driver qp gid lid qpn psn port).result = .ok next) :
    next.qpNum = qp.qpNum := by
  unfold modifyQpToRtr at modified
  split at modified
  next => cases modified
  next => exact modifyQp_keeps modified

theorem modifyQpToRts_keeps {psn : UInt32}
    (modified : (modifyQpToRts type driver qp psn).result = .ok next) :
    next.qpNum = qp.qpNum := by
  unfold modifyQpToRts at modified
  split at modified
  next => cases modified
  next => exact modifyQp_keeps modified

theorem modifyQpToInit_through (port : UInt8) (qkey : UInt32) :
    ∀ call ∈ (modifyQpToInit type driver qp port qkey).calls, call.Through port := by
  unfold modifyQpToInit
  split
  next => simp [Modified.fail]
  next => cases type <;> simp [modifyQp, ModifyCall.Through]

theorem modifyQpToInit_opens (type : IbvQpType) (driver : ModifyDriver) (reset : qp.state = .reset)
    (port : UInt8) (qkey : UInt32) :
    ∃ call ∈ (modifyQpToInit type driver qp port qkey).calls,
      call.attr.qpState = .init ∧ call.attr.portNum = port := by
  unfold modifyQpToInit
  rw [if_neg (by simp [reset])]
  cases type <;> simp [modifyQp]

theorem modifyQpToRtr_through (gid : IbvGid) (lid qpn psn : UInt32) (port : UInt8) :
    ∀ call ∈ (modifyQpToRtr type driver qp gid lid qpn psn port.toUInt32).calls,
      call.Through port := by
  unfold modifyQpToRtr
  split
  next => simp [Modified.fail]
  next => cases type <;> simp [modifyQp, ModifyCall.Through]

theorem modifyQpToRts_through (psn : UInt32) (port : UInt8) :
    ∀ call ∈ (modifyQpToRts type driver qp psn).calls, call.Through port := by
  unfold modifyQpToRts
  split
  next => simp [Modified.fail]
  next => cases type <;> simp [modifyQp, ModifyCall.Through]

end modifications

/-! ## Addresses and connections -/

namespace RdmaQp

-- An address is put together from what the two lookups and the handle give.
theorem info_ok {type : IbvQpType} {this : RdmaQp type} {gid : Except Failure IbvGid}
    {lid : Except Failure UInt32} {info : Info} :
    (do
      let gid ← gid
      let lid ← lid
      let qp ← this.deref
      return ({ gid, lid, qpNum := qp.qpNum, psn := universalInitPsn } : Info)) = .ok info ↔
      gid = .ok info.gid ∧ lid = .ok info.lid ∧
        this.qp.map IbvQp.qpNum = some info.qpNum ∧ info.psn = universalInitPsn := by
  rcases info with ⟨infoGid, infoLid, qpNum, psn⟩
  cases gid with
  | error e => simp [bind, Except.bind]
  | ok gid =>
    cases lid with
    | error e => simp [bind, Except.bind]
    | ok lid =>
      cases held : this.qp <;>
        simp [bind, Except.bind, pure, Except.pure, deref, held, eq_comm]

theorem getInfo_ok {type : IbvQpType} {this : RdmaQp type} {info : Info} :
    this.getInfo = .ok info ↔
      this.ctx.getGid = .ok info.gid ∧ this.ctx.getPortLid this.port = .ok info.lid ∧
        this.qp.map IbvQp.qpNum = some info.qpNum ∧ info.psn = universalInitPsn :=
  info_ok

theorem getQpInfo_ok {type : IbvQpType} {this : RdmaQp type} {info : Info} :
    this.getQpInfo = .ok info ↔
      this.ctx.getGid this.port = .ok info.gid ∧ this.ctx.getPortLid this.port = .ok info.lid ∧
        this.qp.map IbvQp.qpNum = some info.qpNum ∧ info.psn = universalInitPsn :=
  info_ok

variable {driver : ModifyDriver} {this next : RdmaQp .rc}

theorem connect_through (remote : Info) (port : UInt8) :
    ∀ call ∈ (this.connect driver remote port).calls, call.Through port := by
  unfold connect
  split
  next => simp [Modified.fail]
  next qp _ =>
    split
    next => simp [Modified.fail]
    next =>
      refine Modified.andThen_calls (modifyQpToInit_through port 0) fun _ _ => ?_
      refine Modified.andThen_calls (modifyQpToRtr_through _ _ _ _ port) fun _ _ => ?_
      exact Modified.andThen_calls (modifyQpToRts_through _ port) fun _ _ => by simp

-- A queue pair as it is created.
def Fresh (this : RdmaQp .rc) : Prop :=
  ∃ qp, this.qp = some qp ∧ qp.state = .reset ∧ qp.qpType = .rc

theorem connect_opens (driver : ModifyDriver) (fresh : this.Fresh) (remote : Info) (port : UInt8) :
    ∃ call ∈ (this.connect driver remote port).calls,
      call.attr.qpState = .init ∧ call.attr.portNum = port := by
  obtain ⟨qp, held, reset, rc⟩ := fresh
  obtain ⟨call, issued, opened⟩ := modifyQpToInit_opens .rc driver reset port 0
  refine ⟨call, ?_, opened⟩
  simp only [connect, deref, held, rc, ne_eq, not_true_eq_false, if_false]
  exact Modified.andThen_first _ issued

theorem connect_keeps {remote : Info} {port : UInt8}
    (connected : (this.connect driver remote port).result = .ok next) :
    next.ctx = this.ctx ∧ next.port = this.port ∧
      next.qp.map IbvQp.qpNum = this.qp.map IbvQp.qpNum := by
  unfold connect deref at connected
  cases held : this.qp with
  | none => simp [held, Modified.fail] at connected
  | some qp =>
    simp only [held] at connected
    split at connected
    next => cases connected
    next =>
      obtain ⟨init, toInit, rest⟩ := Modified.andThen_ok.mp connected
      obtain ⟨rtr, toRtr, rest⟩ := Modified.andThen_ok.mp rest
      obtain ⟨rts, toRts, rest⟩ := Modified.andThen_ok.mp rest
      obtain rfl := Except.ok.inj rest
      refine ⟨rfl, rfl, ?_⟩
      simp [modifyQpToRts_keeps toRts, modifyQpToRtr_keeps toRtr, modifyQpToInit_keeps toInit]

end RdmaQp

/-! ## Histories -/

-- How a bound queue pair gets connected.
inductive PortRoute where
  | cm (rpc : Info → Info)
  | direct (remote : Info) (port : UInt8)

def PortRoute.port : PortRoute → UInt8
  | .cm _ => 1
  | .direct _ port => port

namespace RdmaQp

def establish (driver : ModifyDriver) (this : RdmaQp .rc) : PortRoute → Modified (RdmaQp .rc)
  | .cm rpc => cmConnect driver rpc this
  | .direct remote port => this.connect driver remote port

-- Both info functions answer, and with this address.
def GivesOut (this : RdmaQp .rc) (gid : IbvGid) (lid : UInt32) : Prop :=
  ∃ info, this.getInfo = .ok info ∧ this.getQpInfo = .ok info ∧ info.gid = gid ∧ info.lid = lid

/-- After `bind_port(p)` the address given out before and after connecting is the one of a port,
and it is the port that the driver is told. -/
def Advertises (driver : ModifyDriver) (this : RdmaQp .rc) (p : UInt8) (route : PortRoute) :
    Prop :=
  ∃ bound, (this.bindPort driver p).result = .ok bound ∧
    ∃ port gid lid, bound.ctx.getGid port = .ok gid ∧ bound.ctx.getPortLid port = .ok lid ∧
      bound.GivesOut gid lid ∧ (∀ call ∈ (bound.establish driver route).calls, call.Through port) ∧
      ∀ next, (bound.establish driver route).result = .ok next → next.GivesOut gid lid

variable {driver : ModifyDriver} {this next : RdmaQp .rc}

theorem cmConnect_eq {rpc : Info → Info} {info : Info} (given : this.getInfo = .ok info) :
    cmConnect driver rpc this = this.connect driver (rpc info) := by
  rw [cmConnect, given]

theorem establish_connects (driver : ModifyDriver) (route : PortRoute) {info : Info}
    (given : this.getInfo = .ok info) :
    ∃ remote, this.establish driver route = this.connect driver remote route.port := by
  cases route with
  | cm rpc => exact ⟨rpc info, cmConnect_eq given⟩
  | direct remote port => exact ⟨remote, rfl⟩

theorem GivesOut.congr {gid : IbvGid} {lid : UInt32} (given : this.GivesOut gid lid)
    (ctx : next.ctx = this.ctx) (port : next.port = this.port)
    (handle : next.qp.map IbvQp.qpNum = this.qp.map IbvQp.qpNum) : next.GivesOut gid lid := by
  obtain ⟨info, first, second, same⟩ := given
  rw [getInfo_ok] at first
  rw [getQpInfo_ok] at second
  refine ⟨info, getInfo_ok.mpr ?_, getQpInfo_ok.mpr ?_, same⟩
  · rwa [ctx, port, handle]
  · rwa [ctx, port, handle]

end RdmaQp

/-- A fresh RC queue pair bound to a port of the device advertises the port it uses exactly when
the port taken by `connect` exists and has the bound port's address, whose GID is also the one
of port 1. -/
theorem advertises_used_port_iff (driver : ModifyDriver) {this : RdmaQp .rc} (fresh : this.Fresh)
    {p : UInt8} (inRange : this.ctx.HasPort p) (route : PortRoute) :
    this.Advertises driver p route ↔
      this.ctx.HasPort route.port ∧ this.ctx.getGid = this.ctx.getGid p ∧
        this.ctx.getGid p = this.ctx.getGid route.port ∧
        this.ctx.getPortLid p = this.ctx.getPortLid route.port := by
  constructor
  · rintro ⟨bound, bind, port, gid, lid, hasGid, hasLid, given, through, -⟩
    obtain rfl : { this with port := p } = bound := Except.ok.inj bind
    obtain ⟨info, first, second, rfl, rfl⟩ := given
    obtain ⟨remote, connects⟩ := RdmaQp.establish_connects driver route first
    have bound : RdmaQp.Fresh { this with port := p } := fresh
    obtain ⟨call, issued, opened, told⟩ := RdmaQp.connect_opens driver bound remote route.port
    rw [connects] at through
    obtain rfl : port = route.port := ((through call issued).1 opened).symm.trans told
    rw [RdmaQp.getInfo_ok] at first
    rw [RdmaQp.getQpInfo_ok] at second
    exact ⟨RdmaContext.getGid_ok.mp ⟨_, hasGid⟩, first.1.trans second.1.symm,
      second.1.trans hasGid.symm, second.2.1.trans hasLid.symm⟩
  · rintro ⟨-, first, gids, lids⟩
    obtain ⟨gid, hasGid⟩ := RdmaContext.getGid_ok.mpr inRange
    obtain ⟨lid, hasLid⟩ := RdmaContext.getPortLid_ok.mpr inRange
    obtain ⟨qp, held, -, -⟩ := fresh
    let bound : RdmaQp .rc := { this with port := p }
    let info : Info := { gid, lid, qpNum := qp.qpNum, psn := RdmaQp.universalInitPsn }
    have handle : bound.qp.map IbvQp.qpNum = some info.qpNum := by simp [bound, info, held]
    have given : bound.getInfo = .ok info :=
      RdmaQp.getInfo_ok.mpr ⟨first.trans hasGid, hasLid, handle, rfl⟩
    have givesOut : bound.GivesOut gid lid :=
      ⟨info, given, RdmaQp.getQpInfo_ok.mpr ⟨hasGid, hasLid, handle, rfl⟩, rfl, rfl⟩
    obtain ⟨remote, connects⟩ := RdmaQp.establish_connects driver route given
    refine ⟨bound, rfl, route.port, gid, lid, gids.symm.trans hasGid, lids.symm.trans hasLid,
      givesOut, ?_, fun next connected => ?_⟩
    · rw [connects]
      exact RdmaQp.connect_through remote route.port
    · rw [connects] at connected
      obtain ⟨ctx, port, handles⟩ := RdmaQp.connect_keeps connected
      exact givesOut.congr ctx port handles

/-! ## A device with two ports -/

def accepting : ModifyDriver := fun _ _ => 0

def twoPorts : RdmaContext where
  physPortCnt := 2
  portAttrs := [({ interfaceId := 0xa1 }, { lid := 11 }), ({ interfaceId := 0xa2 }, { lid := 12 })]

def freshQp : RdmaQp .rc := { ctx := twoPorts, qp := some { qpNum := 7, qpType := .rc } }

-- A device whose ports have one address between them.
def twinPorts : RdmaContext where
  physPortCnt := 2
  portAttrs := [({ interfaceId := 0xa1 }, { lid := 11 }), ({ interfaceId := 0xa1 }, { lid := 11 })]

-- Bound to port 2 it is connected on port 1, which has the address that it gives out.
theorem twin_port_advertised :
    ({ freshQp with ctx := twinPorts } : RdmaQp .rc).Advertises accepting 2 (.cm id) :=
  (advertises_used_port_iff accepting ⟨_, rfl, rfl, rfl⟩ (by decide) (.cm id)).mpr
    ⟨by decide, rfl, rfl, rfl⟩

-- Bound to port 2 it gives out the GID of port 1 with the LID of port 2, however it connects.
theorem second_port_not_advertised :
    ({ freshQp with port := 2 } : RdmaQp .rc).getInfo =
        .ok { gid := { interfaceId := 0xa1 }, lid := 12, qpNum := 7, psn := 3000 } ∧
      ¬ freshQp.Advertises accepting 2 (.cm id) ∧
      ∀ remote, ¬ freshQp.Advertises accepting 2 (.direct remote 2) := by
  have mixed (route : PortRoute) : ¬ freshQp.Advertises accepting 2 route := by
    rintro ⟨bound, bind, -, -, -, -, -, ⟨info, first, second, -⟩, -⟩
    obtain rfl : { freshQp with port := 2 } = bound := Except.ok.inj bind
    have one : .ok { interfaceId := 0xa1 } = (.ok info.gid : Except Failure IbvGid) :=
      (RdmaQp.getInfo_ok.mp first).1
    have two : .ok { interfaceId := 0xa2 } = (.ok info.gid : Except Failure IbvGid) :=
      (RdmaQp.getQpInfo_ok.mp second).1
    exact absurd (Except.ok.inj (one.trans two.symm)) (by decide)
  exact ⟨rfl, mixed (.cm id), fun remote => mixed (.direct remote 2)⟩

end Rdmalib2
