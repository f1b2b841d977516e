import Rdmalib2.Qp.Ports
import Mathlib.Data.List.Infix

set_option autoImplicit false

/-!
# The three modifications

Each modification leaves one state for the next and refuses any other state before it tells the
driver anything. One after the other they lead from RESET to RTS.
-/

namespace Rdmalib2

-- The queue pair as the driver keeps it: an accepted modification sets its state.
def IbvQp.after (driver : ModifyDriver) (qp : IbvQp) (calls : List ModifyCall) : IbvQp :=
  calls.foldl (fun qp call => if driver qp call = 0 then { qp with state := call.attr.qpState } else qp)
    qp

@[simp] theorem IbvQp.after_nil (driver : ModifyDriver) (qp : IbvQp) : qp.after driver [] = qp := rfl

theorem IbvQp.after_append (driver : ModifyDriver) (qp : IbvQp) (first rest : List ModifyCall) :
    qp.after driver (first ++ rest) = (qp.after driver first).after driver rest :=
  List.foldl_append ..

def states (calls : List ModifyCall) : List IbvQpState := calls.map (·.attr.qpState)

/-- A step from one state to another: one modification, and in any other state a panic instead. -/
structure Rung (driver : ModifyDriver) (source target : IbvQpState)
    (step : IbvQp → Modified IbvQp) : Prop where
  blocked : ∀ qp, qp.state ≠ source → ∃ message, step qp = .fail (.panic message [])
  leaves : ∀ qp, qp.state = source →
    ∃ call message, call.attr.qpState = target ∧ step qp = modifyQp driver qp call message

theorem rung_init (type : IbvQpType) (driver : ModifyDriver) (port : UInt8) (qkey : UInt32) :
    Rung driver .reset .init fun qp => modifyQpToInit type driver qp port qkey where
  blocked qp elsewhere := ⟨_, if_pos elsewhere⟩
  leaves qp here := by
    unfold modifyQpToInit
    rw [if_neg (by simp [here])]
    cases type <;> exact ⟨_, _, rfl, rfl⟩

theorem rung_rtr (type : IbvQpType) (driver : ModifyDriver) (gid : IbvGid)
    (lid qpn psn port : UInt32) :
    Rung driver .init .rtr fun qp => modifyQpToRtr type driver qp gid lid qpn psn port where
  blocked qp elsewhere := ⟨_, if_pos elsewhere⟩
  leaves qp here := by
    unfold modifyQpToRtr
    rw [if_neg (by simp [here])]
    cases type <;> exact ⟨_, _, rfl, rfl⟩

theorem rung_rts (type : IbvQpType) (driver : ModifyDriver) (psn : UInt32) :
    Rung driver .rtr .rts fun qp => modifyQpToRts type driver qp psn where
  blocked qp elsewhere := ⟨_, if_pos elsewhere⟩
  leaves qp here := by
    unfold modifyQpToRts
    rw [if_neg (by simp [here])]
    cases type <;> exact ⟨_, _, rfl, rfl⟩

/-- What a function does to a queue pair that starts in `source`: it issues some of the planned
modifications in order, and all of them if it ends well. -/
structure Climbs {α : Type} (driver : ModifyDriver) (qp : IbvQp) (plan : List IbvQpState)
    (made : α → IbvQp) (modified : Modified α) : Prop where
  order : states modified.calls <+: plan
  whole : ∀ value, modified.result = .ok value →
    states modified.calls = plan ∧ made value = qp.after driver modified.calls ∧
      (made value).state = plan.getLastD qp.state

section climbs

variable {α : Type} {driver : ModifyDriver} {source target : IbvQpState} {qp : IbvQp}
  {made : α → IbvQp}

theorem climbs_end (value : α) (same : made value = qp) :
    Climbs driver qp [] made { calls := [], result := .ok value } where
  order := List.prefix_rfl
  whole other ok := by
    obtain rfl := Except.ok.inj ok
    simp [states, same]

theorem Climbs.rung {step : IbvQp → Modified IbvQp} {rest : IbvQp → Modified α}
    {plan : List IbvQpState} (rung : Rung driver source target step) (here : qp.state = source)
    (later : ∀ next : IbvQp, next.state = target → Climbs driver next plan made (rest next)) :
    Climbs driver qp (target :: plan) made ((step qp).andThen rest) := by
  obtain ⟨call, message, reaches, taken⟩ := rung.leaves qp here
  rw [taken]
  unfold modifyQp Modified.andThen
  by_cases accepted : driver qp call = 0
  · simp only [accepted, ne_eq, not_true_eq_false, if_false]
    have climbs := later { qp with state := call.attr.qpState } reaches
    have one : qp.after driver [call] = { qp with state := call.attr.qpState } := by
      simp [IbvQp.after, accepted]
    constructor
    · simpa [states, reaches] using climbs.order
    · intro value ok
      obtain ⟨all, same, last⟩ := climbs.whole value ok
      refine ⟨?_, ?_, ?_⟩
      · simpa [states, reaches] using all
      · rw [same, IbvQp.after_append, one]
      · rw [last, reaches, List.getLastD_cons]
  · simp only [accepted, ne_eq, not_false_eq_true, if_true]
    constructor
    · simp [states, reaches]
    · intro value ok
      cases ok

theorem andThen_blocked {step : IbvQp → Modified IbvQp} (rung : Rung driver source target step)
    (elsewhere : qp.state ≠ source) (rest : IbvQp → Modified α) :
    ∃ message, (step qp).andThen rest = .fail (.panic message []) := by
  obtain ⟨message, blocked⟩ := rung.blocked qp elsewhere
  rw [blocked]
  exact ⟨message, rfl⟩

end climbs

/-! ## The public calls -/

def fullPlan : List IbvQpState := [.init, .rtr, .rts]

namespace RdmaQp

variable {type : IbvQpType} {this : RdmaQp type} {qp : IbvQp}

-- The queue pair an object is left with, given the one it had.
def heldOr (qp : IbvQp) (this : RdmaQp type) : IbvQp := this.qp.getD qp

def drivesStates (type : IbvQpType) : Bool := type == .ud || type == .rawPacket

theorem bindPort_climbs (driver : ModifyDriver) (held : this.qp = some qp) (port : UInt8)
    (drives : drivesStates type = true) (reset : qp.state = .reset) :
    Climbs driver qp fullPlan (heldOr qp) (this.bindPort driver port) := by
  have bound : type = .ud ∨ type = .rawPacket := by simpa [drivesStates] using drives
  simp only [bindPort, bound, if_true, deref, held]
  refine Climbs.rung (rung_init type driver port 0x11111111) reset fun init toInit => ?_
  refine Climbs.rung (rung_rtr type driver {} 0 0 _ _) toInit fun rtr toRtr => ?_
  refine Climbs.rung (rung_rts type driver _) toRtr fun rts toRts => ?_
  exact climbs_end _ rfl

theorem bindPort_blocked (driver : ModifyDriver) (held : this.qp = some qp) (port : UInt8)
    (drives : drivesStates type = true) (elsewhere : qp.state ≠ .reset) :
    ∃ message, this.bindPort driver port = .fail (.panic message []) := by
  have bound : type = .ud ∨ type = .rawPacket := by simpa [drivesStates] using drives
  simp only [bindPort, bound, if_true, deref, held]
  exact andThen_blocked (rung_init type driver port 0x11111111) elsewhere _

theorem bindPort_plain (driver : ModifyDriver) (port : UInt8) (plain : drivesStates type = false) :
    this.bindPort driver port = { calls := [], result := .ok { this with port } } := by
  have bound : ¬ (type = .ud ∨ type = .rawPacket) := by simpa [drivesStates] using plain
  simp only [bindPort, bound, if_false]

theorem connect_climbs (driver : ModifyDriver) (held : this.qp = some qp) (remote : Info)
    (port : UInt8) (rc : qp.qpType = .rc) (reset : qp.state = .reset) :
    Climbs driver qp fullPlan (heldOr qp) (this.connect driver remote port) := by
  simp only [connect, deref, held, rc, ne_eq, not_true_eq_false, if_false]
  refine Climbs.rung (rung_init type driver port 0) reset fun init toInit => ?_
  refine Climbs.rung (rung_rtr type driver _ _ _ _ _) toInit fun rtr toRtr => ?_
  refine Climbs.rung (rung_rts type driver _) toRtr fun rts toRts => ?_
  exact climbs_end _ rfl

theorem connect_blocked (driver : ModifyDriver) (held : this.qp = some qp) (remote : Info)
    (port : UInt8) (elsewhere : qp.qpType ≠ .rc ∨ qp.state ≠ .reset) :
    ∃ message, this.connect driver remote port = .fail (.panic message []) := by
  by_cases rc : qp.qpType = .rc
  · simp only [connect, deref, held, rc, ne_eq, not_true_eq_false, if_false]
    exact andThen_blocked (rung_init type driver port 0) (elsewhere.resolve_left (absurd rc)) _
  · simp only [connect, deref, held, rc, ne_eq, not_false_eq_true, if_true]
    exact ⟨_, rfl⟩

end RdmaQp

end Rdmalib2
