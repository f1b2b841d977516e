import Rdmalib2.Objects.World
import Rdmalib2.Shared.Run

set_option autoImplicit false

/-!
# The states of queue pairs between calls

A queue pair is taken from RESET to RTS within one call or the process ends in that call.
-/

namespace Rdmalib2

open Shared

-- What a program can have done to a queue pair that the driver keeps.
inductive Settled (qp : IbvQp) (issued : List ModifyCall) : Prop
  | reset (state : qp.state = .reset) (none : issued = [])
  | rts (state : qp.state = .rts) (all : states issued = fullPlan)

structure Lifecycle (w : World) : Prop where
  settled : ∀ number qp, w.qps number = some qp → Settled qp (w.issued number)
  order : ∀ number, states (w.issued number) <+: fullPlan
  unborn : ∀ number, w.count ≤ number → w.qps number = none ∧ w.issued number = []

section calls

variable {type : IbvQpType} {this : RdmaQp type} {driver : ModifyDriver}

-- A call on an object without a queue pair does not reach the driver.
theorem bindPort_null (null : this.qp = none) (port : UInt8) :
    (this.bindPort driver port).calls = [] := by
  unfold RdmaQp.bindPort
  split
  next => simp [RdmaQp.deref, null, Modified.fail]
  next => rfl

theorem connect_null (null : this.qp = none) (remote : Info) (port : UInt8) :
    (this.connect driver remote port).calls = [] := by
  simp [RdmaQp.connect, RdmaQp.deref, null, Modified.fail]

/-- A public call takes a queue pair all the way, part of the way and ends the process, or leaves
the driver alone. -/
theorem call_cases {modified : Modified (RdmaQp type)}
    (call : (∃ port, modified = this.bindPort driver port) ∨
      ∃ remote port, modified = this.connect driver remote port) :
    modified.calls = [] ∨ ∃ qp, this.qp = some qp ∧ qp.state = .reset ∧
      Climbs driver qp fullPlan (RdmaQp.heldOr qp) modified := by
  cases held : this.qp with
  | none =>
    rcases call with ⟨port, rfl⟩ | ⟨remote, port, rfl⟩
    · exact .inl (bindPort_null held port)
    · exact .inl (connect_null held remote port)
  | some qp =>
    rcases call with ⟨port, rfl⟩ | ⟨remote, port, rfl⟩
    · cases drives : RdmaQp.drivesStates type with
      | false => exact .inl (by rw [RdmaQp.bindPort_plain driver port drives])
      | true =>
        by_cases reset : qp.state = .reset
        · exact .inr ⟨qp, rfl, reset, RdmaQp.bindPort_climbs driver held port drives reset⟩
        · obtain ⟨message, blocked⟩ := RdmaQp.bindPort_blocked driver held port drives reset
          exact .inl (by rw [blocked]; rfl)
    · by_cases free : qp.qpType = .rc ∧ qp.state = .reset
      · exact .inr ⟨qp, rfl, free.2, RdmaQp.connect_climbs driver held remote port free.1 free.2⟩
      · obtain ⟨message, blocked⟩ := RdmaQp.connect_blocked driver held remote port
          (not_and_or.mp free)
        exact .inl (by rw [blocked]; rfl)

end calls

namespace World

variable {w next : World}

theorem record_nil (w : World) (driver : ModifyDriver) (this : QpObject) :
    w.record driver this [] = w := by
  unfold record
  cases this.qp with
  | none => rfl
  | some number => simp

theorem record_lifecycle (lifecycle : Lifecycle w) {this : QpObject} {number : Nat} {qp : IbvQp}
    (held : this.qp = some number) (kept : w.qps number = some qp) (reset : qp.state = .reset)
    (driver : ModifyDriver) {calls : List ModifyCall} (order : states calls <+: fullPlan) :
    (∀ other, states ((w.record driver this calls).issued other) <+: fullPlan) ∧
      (states calls = fullPlan → (qp.after driver calls).state = .rts →
        Lifecycle (w.record driver this calls)) := by
  have fresh : w.issued number = [] := by
    cases lifecycle.settled number qp kept with
    | reset state none => exact none
    | rts state all =>
      rw [reset] at state
      cases state
  have issued : (w.record driver this calls).issued = Function.update w.issued number calls := by
    simp [record, held, fresh]
  have qps : (w.record driver this calls).qps =
      Function.update w.qps number (some (qp.after driver calls)) := by
    simp [record, held, kept]
  have count := (w.record_keeps driver this calls).2.1
  have orders : ∀ other, states ((w.record driver this calls).issued other) <+: fullPlan := by
    intro other
    rw [issued, Function.update_apply]
    split
    next => exact order
    next => exact lifecycle.order other
  refine ⟨orders, fun all reached => ⟨fun other found lives => ?_, orders, fun other later => ?_⟩⟩
  · rw [qps, Function.update_apply] at lives
    rw [issued, Function.update_apply]
    split at lives
    next same =>
      obtain rfl := Option.some.inj lives
      rw [if_pos same]
      exact .rts reached all
    next apart =>
      rw [if_neg apart]
      exact lifecycle.settled other found lives
  · rw [count] at later
    have apart : other ≠ number := by
      rintro rfl
      rw [(lifecycle.unborn other later).1] at kept
      cases kept
    rw [qps, issued, Function.update_of_ne apart, Function.update_of_ne apart]
    exact lifecycle.unborn other later

theorem release_lifecycle (lifecycle : Lifecycle w) (handles : List Handle) :
    Lifecycle (w.release handles) := by
  refine ⟨fun number qp lives => ?_, lifecycle.order, fun number later => ?_⟩
  · simp only [release] at lives
    split at lives
    next => cases lives
    next => exact lifecycle.settled number qp lives
  · refine ⟨?_, (lifecycle.unborn number later).2⟩
    simp [release, (lifecycle.unborn number later).1]

end World

theorem Lifecycle.congr {w next : World} (lifecycle : Lifecycle w) (qps : next.qps = w.qps)
    (issued : next.issued = w.issued) (count : next.count = w.count) : Lifecycle next := by
  refine ⟨?_, ?_, ?_⟩
  · rw [qps, issued]
    exact lifecycle.settled
  · rw [issued]
    exact lifecycle.order
  · rw [qps, issued, count]
    exact lifecycle.unborn

theorem Change.lifecycle {w next : World} (change : Change w next) (lifecycle : Lifecycle w) :
    Lifecycle next := by
  cases change with
  | unchanged => exact lifecycle
  | @created id object vacant fresh record reset =>
    have unborn := lifecycle.unborn w.count le_rfl
    refine ⟨fun number qp lives => ?_, lifecycle.order, fun number later => ?_⟩
    · simp only [Function.update_apply] at lives
      split at lives
      next same =>
        subst same
        rw [unborn.1, Option.or_none] at lives
        exact .reset (reset qp lives) unborn.2
      next => exact lifecycle.settled number qp lives
    · have apart : number ≠ w.count := by
        simp only at later
        omega
      simp only [Function.update_of_ne apart]
      exact lifecycle.unborn number (by simp only at later; omega)
  | moved vacant lives => exact lifecycle.congr rfl rfl rfl
  | assigned apart target lives =>
    exact (World.release_lifecycle lifecycle _).congr rfl rfl rfl
  | destroyed lives => exact (World.release_lifecycle lifecycle _).congr rfl rfl rfl
  | @driven id type this driver modified after lives call ok =>
    suffices recorded : Lifecycle (w.record driver this modified.calls) from
      recorded.congr rfl rfl rfl
    rcases call_cases call with none | ⟨qp, kept, reset, climbs⟩
    · rw [none, World.record_nil]
      exact lifecycle
    · obtain ⟨number, held, kept⟩ := Option.bind_eq_some_iff.mp kept
      obtain ⟨all, same, last⟩ := climbs.whole after ok
      rw [same] at last
      exact (World.record_lifecycle lifecycle held kept reset driver climbs.order).2 all last

theorem exit_order {w : World} {action : Action} {exit : Exit} (lifecycle : Lifecycle w)
    (taken : w.step action = .error exit) (number : Nat) :
    states (exit.world.issued number) <+: fullPlan := by
  have left := World.step_left taken
  generalize exit.world = last at left ⊢
  cases left with
  | same => exact lifecycle.order number
  | @driven id type this driver modified lives call =>
    rcases call_cases call with none | ⟨qp, kept, reset, climbs⟩
    · rw [none, World.record_nil]
      exact lifecycle.order number
    · obtain ⟨own, held, kept⟩ := Option.bind_eq_some_iff.mp kept
      exact (World.record_lifecycle lifecycle held kept reset driver climbs.order).1 number

theorem empty_lifecycle : Lifecycle {} := ⟨nofun, fun _ => List.nil_prefix, fun _ _ => ⟨rfl, rfl⟩⟩

theorem run_lifecycle {actions : List Action} {w : World} (ran : run World.step {} actions = .ok w) :
    Lifecycle w :=
  run_invariant World.step Lifecycle
    (fun _ _ _ lifecycle taken => (World.step_change taken).lifecycle lifecycle) actions
    empty_lifecycle ran

/-! ## Programs -/

-- The call panics before the driver is told anything.
def ExitsUntouched (w : World) (action : Action) : Prop :=
  ∃ message, w.step action = .error { world := w, failure := .panic message [] }

theorem drive_untouched {w : World} {id : Nat} {type : IbvQpType} {this : QpObject}
    {driver : ModifyDriver} {call : (type : IbvQpType) → RdmaQp type → Modified (RdmaQp type)}
    (lives : w.objects id = some (.qp type this)) {e : Failure}
    (blocked : call type (this.view type w.qps) = .fail e) :
    w.drive id driver call = .error { world := w, failure := e } := by
  simp only [World.drive, lives, blocked, Modified.fail, World.record_nil, World.stop]

/-- Between calls a live queue pair is in RESET or RTS; what a handle was told is the start of
INIT, RTR, RTS, in a process that has exited too; and a call that would leave another state than
RESET panics and tells the driver nothing. -/
structure NeverHalfConnected (actions : List Action) : Prop where
  between : ∀ w, run World.step {} actions = .ok w → ∀ number qp, w.qps number = some qp →
    qp.state = .reset ∨ qp.state = .rts
  order : ∀ w, run World.step {} actions = .ok w → ∀ number,
    states (w.issued number) <+: [.init, .rtr, .rts]
  orderAtExit : ∀ exit, run World.step {} actions = .error exit → ∀ number,
    states (exit.world.issued number) <+: [.init, .rtr, .rts]
  untouched : ∀ w, run World.step {} actions = .ok w → ∀ id type this qp,
    w.objects id = some (.qp type this) → this.qp.bind w.qps = some qp → qp.state ≠ .reset →
    ∀ driver port,
      (type = .ud ∨ type = .rawPacket → ExitsUntouched w (.bindPort id driver port)) ∧
        ∀ remote, ExitsUntouched w (.connect id driver remote port)

theorem never_half_connected (actions : List Action) : NeverHalfConnected actions := by
  constructor
  · intro w ran number qp lives
    cases (run_lifecycle ran).settled number qp lives with
    | reset state none => exact .inl state
    | rts state all => exact .inr state
  · exact fun w ran => (run_lifecycle ran).order
  · intro exit stopped number
    obtain ⟨first, mid, action, rest, -, reached, left⟩ := run_stops World.step actions stopped
    exact exit_order (run_lifecycle reached) left number
  · intro w _ id type this qp lives kept elsewhere driver port
    have held : (this.view type w.qps).qp = some qp := kept
    refine ⟨fun bound => ?_, fun remote => ?_⟩
    · have drives : RdmaQp.drivesStates type = true := by simpa [RdmaQp.drivesStates] using bound
      obtain ⟨message, blocked⟩ := RdmaQp.bindPort_blocked driver held port drives elsewhere
      refine ⟨message, ?_⟩
      rw [World.step]
      exact drive_untouched lives blocked
    · obtain ⟨message, blocked⟩ := RdmaQp.connect_blocked driver held remote port (.inr elsewhere)
      refine ⟨message, ?_⟩
      rw [World.step]
      exact drive_untouched lives blocked

end Rdmalib2
