import Rdmalib2.Objects.Lifecycle
import Rdmalib2.Objects.Ownership
import Rdmalib2.Objects.Steps

set_option autoImplicit false

/-!
# What a queue pair is told

A queue pair is told the modifications of one public call, over its whole life.
-/

namespace Rdmalib2

open Shared

/-! ## One call -/

-- A public call that changes the state of a queue pair.
inductive Telling where
  | bound (type : IbvQpType) (port : UInt8)
  | connected (remote : Info) (port : UInt8)
  deriving DecidableEq, Repr

namespace Telling

def type : Telling → IbvQpType
  | .bound type _ => type
  | .connected _ _ => .rc

-- An object with a queue pair as it is created.
def created (type : IbvQpType) : RdmaQp type where
  ctx := { physPortCnt := 0, portAttrs := [] }
  qp := some { qpNum := 0, qpType := type }

-- All that the call tells a driver that accepts it.
def calls : Telling → List ModifyCall
  | .bound type port => ((created type).bindPort accepting port).calls
  | .connected remote port => ((created .rc).connect accepting remote port).calls

end Telling

section calls

variable {type : IbvQpType} {driver : ModifyDriver} {qp : IbvQp}

-- What a modification says does not depend on the queue pair that it is said to.
theorem toInit_calls (reset : qp.state = .reset) (port : UInt8) (qkey : UInt32)
    {other : IbvQp} (also : other.state = .reset) :
    (modifyQpToInit type driver qp port qkey).calls =
      (modifyQpToInit type accepting other port qkey).calls := by
  unfold modifyQpToInit
  rw [if_neg (not_not.mpr reset), if_neg (not_not.mpr also)]
  cases type <;> rfl

theorem toRtr_calls (init : qp.state = .init) (gid : IbvGid) (lid qpn psn port : UInt32)
    {other : IbvQp} (also : other.state = .init) :
    (modifyQpToRtr type driver qp gid lid qpn psn port).calls =
      (modifyQpToRtr type accepting other gid lid qpn psn port).calls := by
  unfold modifyQpToRtr
  rw [if_neg (not_not.mpr init), if_neg (not_not.mpr also)]
  cases type <;> rfl

theorem toRts_calls (rtr : qp.state = .rtr) (psn : UInt32) {other : IbvQp}
    (also : other.state = .rtr) :
    (modifyQpToRts type driver qp psn).calls = (modifyQpToRts type accepting other psn).calls := by
  unfold modifyQpToRts
  rw [if_neg (not_not.mpr rtr), if_neg (not_not.mpr also)]
  cases type <;> rfl

/-- Where both have got to `source`, the step says the same to any driver as to one that accepts,
and then both have got to `target`. -/
theorem andThen_prefix {α β : Type} {source target : IbvQpState} {step accepted : IbvQp → Modified IbvQp}
    {rest : IbvQp → Modified α} {whole : IbvQp → Modified β} {other : IbvQp}
    (rung : Rung driver source target step) (rung' : Rung accepting source target accepted)
    (here : qp.state = source) (also : other.state = source)
    (same : (step qp).calls = (accepted other).calls)
    (later : ∀ next onward : IbvQp, next.state = target → onward.state = target →
      (rest next).calls <+: (whole onward).calls) :
    ((step qp).andThen rest).calls <+: ((accepted other).andThen whole).calls := by
  obtain ⟨call, message, reaches, taken⟩ := rung.leaves qp here
  obtain ⟨call', message', reaches', taken'⟩ := rung'.leaves other also
  rw [taken, taken'] at same ⊢
  obtain rfl : call = call' := by simpa [modifyQp] using same
  have onward : ((modifyQp accepting other call message').andThen whole).calls =
      call :: (whole { other with state := call.attr.qpState }).calls := rfl
  rw [onward]
  unfold modifyQp Modified.andThen
  by_cases accepts : driver qp call = 0
  · simp only [accepts, ne_eq, not_true_eq_false, if_false, List.singleton_append]
    exact List.cons_prefix_cons.mpr ⟨rfl, later _ _ reaches reaches'⟩
  · simp only [accepts, ne_eq, not_false_eq_true, if_true]
    exact List.cons_prefix_cons.mpr ⟨rfl, List.nil_prefix⟩

variable {this : RdmaQp type}

theorem bindPort_told (driver : ModifyDriver) (held : this.qp = some qp) (reset : qp.state = .reset)
    (port : UInt8) :
    (this.bindPort driver port).calls <+: (Telling.bound type port).calls := by
  by_cases drives : type = .ud ∨ type = .rawPacket
  · simp only [Telling.calls, Telling.created, RdmaQp.bindPort, drives, if_true, RdmaQp.deref, held]
    refine andThen_prefix (rung_init type driver port 0x11111111)
      (rung_init type accepting port 0x11111111) reset rfl (toInit_calls reset port _ rfl) ?_
    intro init init' toInit toInit'
    refine andThen_prefix (rung_rtr type driver {} 0 0 _ _) (rung_rtr type accepting {} 0 0 _ _)
      toInit toInit' (toRtr_calls toInit _ _ _ _ _ toInit') ?_
    intro rtr rtr' toRtr toRtr'
    refine andThen_prefix (rung_rts type driver _) (rung_rts type accepting _) toRtr toRtr'
      (toRts_calls toRtr _ toRtr') ?_
    exact fun _ _ _ _ => List.prefix_rfl
  · simp only [RdmaQp.bindPort, drives, if_false]
    exact List.nil_prefix

theorem connect_told (driver : ModifyDriver) {this : RdmaQp .rc} (held : this.qp = some qp)
    (reset : qp.state = .reset) (remote : Info) (port : UInt8) :
    (this.connect driver remote port).calls <+: (Telling.connected remote port).calls := by
  by_cases rc : qp.qpType = .rc
  · simp only [Telling.calls, Telling.created, RdmaQp.connect, RdmaQp.deref, held, rc, ne_eq,
      not_true_eq_false, if_false]
    refine andThen_prefix (rung_init .rc driver port 0) (rung_init .rc accepting port 0) reset rfl
      (toInit_calls reset port _ rfl) ?_
    intro init init' toInit toInit'
    refine andThen_prefix (rung_rtr .rc driver _ _ _ _ _) (rung_rtr .rc accepting _ _ _ _ _)
      toInit toInit' (toRtr_calls toInit _ _ _ _ _ toInit') ?_
    intro rtr rtr' toRtr toRtr'
    refine andThen_prefix (rung_rts .rc driver _) (rung_rts .rc accepting _) toRtr toRtr'
      (toRts_calls toRtr _ toRtr') ?_
    exact fun _ _ _ _ => List.prefix_rfl
  · simp only [RdmaQp.connect, RdmaQp.deref, held, rc, ne_eq, not_false_eq_true, if_true]
    exact List.nil_prefix

end calls

/-! ## The queue pair behind a pointer -/

-- The driver keeps a queue pair of the object's type for every pointer to one.
def Backed (w : World) : Prop :=
  ∀ id type this number, w.objects id = some (.qp type this) → this.qp = some number →
    ∃ qp, w.qps number = some qp ∧ qp.qpType = type

theorem IbvQp.after_qpType (driver : ModifyDriver) (qp : IbvQp) (calls : List ModifyCall) :
    (qp.after driver calls).qpType = qp.qpType := by
  induction calls generalizing qp with
  | nil => rfl
  | cons call calls ih =>
    rw [show qp.after driver (call :: calls) = (qp.after driver [call]).after driver calls from rfl,
      ih]
    by_cases accepted : driver qp call = 0
    · simp [IbvQp.after, accepted]
    · simp [IbvQp.after, accepted]

namespace World

variable {w : World} {type : IbvQpType} {this : QpObject} {number : Nat}

theorem record_backed (backed : Backed w) (driver : ModifyDriver) (object : QpObject)
    (calls : List ModifyCall) {id : Nat} (lives : w.objects id = some (.qp type this))
    (held : this.qp = some number) :
    ∃ qp, (w.record driver object calls).qps number = some qp ∧ qp.qpType = type := by
  obtain ⟨qp, kept, same⟩ := backed id type this number lives held
  unfold record
  cases told : object.qp with
  | none => exact ⟨qp, kept, same⟩
  | some own =>
    by_cases own_number : number = own
    · subst own_number
      refine ⟨qp.after driver calls, ?_, (qp.after_qpType driver calls).trans same⟩
      simp [kept]
    · exact ⟨qp, by simp [Function.update_of_ne own_number, kept], same⟩

end World

theorem heldBy_qp {objects : Nat → Option Object} {id number : Nat} {type : IbvQpType}
    {this : QpObject} (lives : objects id = some (.qp type this)) (held : this.qp = some number) :
    .qp number ∈ heldBy objects id := by
  rw [heldBy_of_lives lives]
  simp [Object.holds, held]

-- What the target of a move has, its source had; the source keeps no pointer.
theorem moved_pointer {objects : Nat → Option Object} {src dst id number : Nat} {other : Object}
    {type : IbvQpType} {this : QpObject} (source : objects src = some other) (apart : dst ≠ src)
    (lives : Function.update (Function.update objects src (some other.moveConstruct.2)) dst
      (some other.moveConstruct.1) id = some (.qp type this)) (held : this.qp = some number) :
    ∃ before that, objects before = some (.qp type that) ∧ that.qp = some number ∧
      (before = id ∧ id ≠ dst ∨ before = src) := by
  by_cases target : id = dst
  · subst target
    rw [Function.update_self] at lives
    cases other with
    | qp kind that =>
      obtain ⟨rfl, same⟩ : kind = type ∧ _ := by simpa [Object.moveConstruct] using lives
      subst same
      exact ⟨src, that, source, held, .inr rfl⟩
    | cq that => cases lives
    | region that => cases lives
  · rw [Function.update_of_ne target] at lives
    by_cases left : id = src
    · subst left
      rw [Function.update_self] at lives
      cases other with
      | qp kind that =>
        obtain ⟨-, same⟩ : kind = type ∧ _ := by simpa [Object.moveConstruct] using lives
        subst same
        cases held
      | cq that => cases lives
      | region that => cases lives
    · rw [Function.update_of_ne left] at lives
      exact ⟨id, this, lives, held, .inl ⟨rfl, target⟩⟩

namespace World

variable {w next : World}

theorem place_backed (backed : Backed w) {id : Nat} {object : Object}
    (unpointed : ∀ type this, object = .qp type this → this.qp = none) :
    Backed (w.place id object) := by
  intro other type this number lives held
  simp only [place, Function.update_apply] at lives
  split at lives
  next =>
    rw [unpointed type this (Option.some.inj lives)] at held
    cases held
  next => exact backed other type this number lives held

-- The record that goes belongs to the object that is destroyed.
theorem release_kept (owned : Owned w) {dst id number : Nat} {this : Object} {type : IbvQpType}
    {that : QpObject} (target : w.objects dst = some this) (lives : w.objects id = some (.qp type that))
    (held : that.qp = some number) (apart : dst ≠ id) :
    (w.release this.destroy).qps number = w.qps number := by
  have unheld : .qp number ∉ this.destroy := by
    rw [this.destroy_eq, ← heldBy_of_lives target]
    exact fun also => owned.linear.apart dst id apart also (heldBy_qp lives held)
  exact if_neg unheld

theorem Taken.backed {action : Action} (taken : w.Taken action next) (owned : Owned w)
    (backed : Backed w) : Backed next := by
  cases taken with
  | @constructQp id ctx type implemented qpNum vacant =>
    intro other type this number lives held
    simp only [place, Function.update_apply] at lives
    split at lives
    next =>
      obtain ⟨rfl, rfl⟩ := Object.qp.inj (Option.some.inj lives)
      obtain rfl := Option.some.inj held
      exact ⟨_, Function.update_self .., rfl⟩
    next =>
      obtain ⟨qp, kept, same⟩ := backed other type this number lives held
      have older := owned.numbered _ ((owned.known _).mp (.inr ⟨other, heldBy_qp lives held⟩))
      have apart : number ≠ w.count := older.ne
      exact ⟨qp, (Function.update_of_ne apart ..).trans kept, same⟩
  | constructCq vacant => exact place_backed backed (by simp)
  | constructRegion ctx device ptr size vacant => exact place_backed backed (by simp)
  | @moveConstruct dst src other vacant source =>
    have apart : dst ≠ src := by
      rintro rfl
      rw [vacant] at source
      cases source
    intro id type this number lives held
    obtain ⟨before, that, lived, same, -⟩ := moved_pointer source apart lives held
    exact backed before type that number lived same
  | assignSelf id => exact backed
  | @moveAssign dst src this other apart target source =>
    intro id type that number lives held
    obtain ⟨before, origin, lived, same, moved⟩ := moved_pointer source apart lives held
    obtain ⟨qp, kept, rightType⟩ := backed before type origin number lived same
    have elsewhere : dst ≠ before := by
      rcases moved with ⟨rfl, outside⟩ | rfl
      · exact outside.symm
      · exact apart
    exact ⟨qp, (release_kept owned target lived same elsewhere).trans kept, rightType⟩
  | @destroy gone this target =>
    intro id type that number lives held
    simp only [Function.update_apply] at lives
    split at lives
    next => cases lives
    next outside =>
      obtain ⟨qp, kept, same⟩ := backed id type that number lives held
      have apart : gone ≠ id := fun same => outside same.symm
      exact ⟨qp, (release_kept owned target lives held apart).trans kept, same⟩
  | @drive action at' driver call drives type this after lived ok =>
    intro id kind that number lives held
    simp only [Function.update_apply] at lives
    split at lives
    next here =>
      obtain ⟨rfl, rfl⟩ := Object.qp.inj (Option.some.inj lives)
      exact record_backed backed driver this _ lived held
    next => exact record_backed backed driver this _ lives held
  | read reads => exact backed

end World

/-! ## Programs -/

theorem Action.Drives.call {action : Action} {id : Nat} {driver : ModifyDriver}
    {call : (type : IbvQpType) → RdmaQp type → Modified (RdmaQp type)}
    (drives : action.Drives id driver call) (type : IbvQpType) (this : RdmaQp type) :
    (∃ port, call type this = this.bindPort driver port) ∨
      ∃ remote port, call type this = this.connect driver remote port := by
  cases drives with
  | bindPort _ _ port => exact .inl ⟨port, rfl⟩
  | connect _ _ remote port => exact .inr ⟨remote, port, rfl⟩

theorem Telling.states_prefix (telling : Telling) : states telling.calls <+: fullPlan := by
  cases telling with
  | bound type port =>
    cases drives : RdmaQp.drivesStates type with
    | true => exact (RdmaQp.bindPort_climbs accepting rfl port drives rfl).order
    | false =>
      rw [calls, RdmaQp.bindPort_plain accepting port drives]
      exact List.nil_prefix
  | connected remote port => exact (RdmaQp.connect_climbs accepting rfl remote port rfl rfl).order

/-- A public call on a queue pair in RESET tells it a part of what it would tell a driver that
accepts everything, and all of it if the queue pair gets to RTS. -/
theorem call_told {type : IbvQpType} {this : RdmaQp type} {driver : ModifyDriver} {qp : IbvQp}
    {modified : Modified (RdmaQp type)} (held : this.qp = some qp) (reset : qp.state = .reset)
    (own : qp.qpType = type)
    (call : (∃ port, modified = this.bindPort driver port) ∨
      ∃ remote port, modified = this.connect driver remote port) :
    ∃ telling : Telling, modified.calls <+: telling.calls ∧
      (states modified.calls = fullPlan → telling.type = type ∧ modified.calls = telling.calls) := by
  have whole : ∀ telling : Telling, modified.calls <+: telling.calls →
      states modified.calls = fullPlan → modified.calls = telling.calls := by
    intro telling told all
    have most := telling.states_prefix.length_le
    rw [← all] at most
    exact told.eq_of_length_le (by simpa [states] using most)
  rcases call with ⟨port, rfl⟩ | ⟨remote, port, rfl⟩
  · have told := bindPort_told driver held reset port
    exact ⟨.bound type port, told, fun all => ⟨rfl, whole _ told all⟩⟩
  · by_cases rc : type = .rc
    · subst rc
      have told := connect_told driver held reset remote port
      exact ⟨.connected remote port, told, fun all => ⟨rfl, whole _ told all⟩⟩
    · obtain ⟨message, blocked⟩ := RdmaQp.connect_blocked driver held remote port
        (.inl (own.trans_ne rc))
      rw [blocked]
      exact ⟨.connected remote port, List.nil_prefix, fun all => absurd all (List.cons_ne_nil _ _).symm⟩

structure Told (w : World) : Prop where
  part : ∀ number, ∃ telling : Telling, w.issued number <+: telling.calls
  whole : ∀ number qp, w.qps number = some qp → qp.state = .rts →
    ∃ telling : Telling, telling.type = qp.qpType ∧ w.issued number = telling.calls

namespace World

variable {w next : World}

-- A call that reaches the driver finds a queue pair that was told nothing before.
theorem record_told (lifecycle : Lifecycle w) (backed : Backed w) (told : Told w) {id : Nat}
    {type : IbvQpType} {this : QpObject} (lives : w.objects id = some (.qp type this))
    {driver : ModifyDriver} {modified : Modified (RdmaQp type)}
    (call : (∃ port, modified = (this.view type w.qps).bindPort driver port) ∨
      ∃ remote port, modified = (this.view type w.qps).connect driver remote port) :
    (∀ number, ∃ telling : Telling,
        (w.record driver this modified.calls).issued number <+: telling.calls) ∧
      ∀ after, modified.result = .ok after → Told (w.record driver this modified.calls) := by
  rcases call_cases call with none | ⟨qp, kept, reset, climbs⟩
  · rw [none, record_nil]
    exact ⟨told.part, fun _ _ => told⟩
  · have pointed : (this.view type w.qps).qp = some qp := kept
    obtain ⟨number, held, kept⟩ := Option.bind_eq_some_iff.mp kept
    obtain ⟨same, found, own⟩ := backed id type this number lives held
    obtain rfl := Option.some.inj (kept.symm.trans found)
    have silent : w.issued number = [] := by
      cases lifecycle.settled number qp kept with
      | reset state none => exact none
      | rts state all =>
        rw [reset] at state
        cases state
    have issued : (w.record driver this modified.calls).issued =
        Function.update w.issued number modified.calls := by simp [record, held, silent]
    have qps : (w.record driver this modified.calls).qps =
        Function.update w.qps number (some (qp.after driver modified.calls)) := by
      simp [record, held, kept]
    obtain ⟨telling, part, whole⟩ := call_told pointed reset own call
    have parts : ∀ other, ∃ telling : Telling,
        (w.record driver this modified.calls).issued other <+: telling.calls := by
      intro other
      rw [issued, Function.update_apply]
      split
      next => exact ⟨telling, part⟩
      next => exact told.part other
    refine ⟨parts, fun after ok => ⟨parts, fun other found lives state => ?_⟩⟩
    rw [qps, Function.update_apply] at lives
    rw [issued, Function.update_apply]
    split at lives
    next here =>
      obtain rfl := Option.some.inj lives
      obtain ⟨rightType, same⟩ := whole (climbs.whole after ok).1
      rw [if_pos here, IbvQp.after_qpType]
      exact ⟨telling, rightType.trans own.symm, same⟩
    next apart =>
      rw [if_neg apart]
      exact told.whole other found lives state

theorem release_told (told : Told w) (handles : List Handle) : Told (w.release handles) := by
  refine ⟨told.part, fun number qp lives state => ?_⟩
  simp only [release] at lives
  split at lives
  next => cases lives
  next => exact told.whole number qp lives state

theorem Taken.told {action : Action} (taken : w.Taken action next) (lifecycle : Lifecycle w)
    (backed : Backed w) (told : Told w) : Told next := by
  cases taken with
  | @constructQp id ctx type implemented qpNum vacant =>
    refine ⟨told.part, fun number qp lives state => ?_⟩
    simp only [Function.update_apply] at lives
    split at lives
    next =>
      obtain rfl := Option.some.inj lives
      cases state
    next => exact told.whole number qp lives state
  | constructCq vacant => exact ⟨told.part, told.whole⟩
  | constructRegion ctx device ptr size vacant => exact ⟨told.part, told.whole⟩
  | moveConstruct vacant source => exact ⟨told.part, told.whole⟩
  | assignSelf id => exact told
  | @moveAssign dst src this other apart target source =>
    have released := release_told told this.destroy
    exact ⟨released.part, released.whole⟩
  | @destroy id this lives =>
    have released := release_told told this.destroy
    exact ⟨released.part, released.whole⟩
  | @drive action id driver call drives type this after lives ok =>
    have recorded := (record_told lifecycle backed told lives (drives.call type _)).2 after ok
    exact ⟨recorded.part, recorded.whole⟩
  | read reads => exact told

end World

/-- Every pointer leads to a queue pair of its type that is in RESET and was told nothing, or is in
RTS and was told the three modifications of one public call, with one port and one other end; and
any handle, in a process that has exited too, was told a part of one call. -/
structure ToldOnce (actions : List Action) : Prop where
  live : ∀ w, run World.step {} actions = .ok w → ∀ id type this number,
    w.objects id = some (.qp type this) → this.qp = some number →
    ∃ qp, w.qps number = some qp ∧ qp.qpType = type ∧
      (qp.state = .reset ∧ w.issued number = [] ∨
        qp.state = .rts ∧ states (w.issued number) = fullPlan ∧
          ∃ telling : Telling, telling.type = type ∧ w.issued number = telling.calls)
  part : ∀ w, run World.step {} actions = .ok w → ∀ number,
    ∃ telling : Telling, w.issued number <+: telling.calls
  partAtExit : ∀ exit, run World.step {} actions = .error exit → ∀ number,
    ∃ telling : Telling, exit.world.issued number <+: telling.calls

theorem empty_told : Told {} := ⟨fun _ => ⟨.connected ⟨{}, 0, 0, 0⟩ 0, List.nil_prefix⟩, nofun⟩

theorem run_told {actions : List Action} {w : World} (ran : run World.step {} actions = .ok w) :
    Backed w ∧ Told w := by
  have kept := run_invariant World.step
    (fun w => Owned w ∧ Lifecycle w ∧ Backed w ∧ Told w)
    (fun mid action next all taken => by
      obtain ⟨owned, lifecycle, backed, told⟩ := all
      have change := World.step_change taken
      have step := World.step_taken taken
      exact ⟨change.transfer.owned owned, change.lifecycle lifecycle, step.backed owned backed,
        step.told lifecycle backed told⟩)
    actions ⟨empty_owned, empty_lifecycle, nofun, empty_told⟩ ran
  exact kept.2.2

/-- In every program a queue pair is told the modifications of one public call at most. -/
theorem told_once (actions : List Action) : ToldOnce actions := by
  constructor
  · intro w ran id type this number lives held
    obtain ⟨backed, told⟩ := run_told ran
    obtain ⟨qp, kept, own⟩ := backed id type this number lives held
    refine ⟨qp, kept, own, ?_⟩
    cases (run_lifecycle ran).settled number qp kept with
    | reset state none => exact .inl ⟨state, none⟩
    | rts state all =>
      obtain ⟨telling, rightType, same⟩ := told.whole number qp kept state
      exact .inr ⟨state, all, telling, rightType.trans own, same⟩
  · exact fun w ran => (run_told ran).2.part
  · intro exit stopped number
    obtain ⟨first, mid, action, rest, -, reached, stops⟩ := run_stops World.step actions stopped
    obtain ⟨backed, told⟩ := run_told reached
    have left := World.step_left stops
    generalize exit.world = last at left ⊢
    cases left with
    | same => exact told.part number
    | driven driver lives call =>
      exact (World.record_told (run_lifecycle reached) backed told lives call).1 number

end Rdmalib2
