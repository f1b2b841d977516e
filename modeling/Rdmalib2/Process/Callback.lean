import Rdmalib2.Process.Orderly
import Mathlib.Data.List.Permutation
import Mathlib.Data.List.TakeWhile

set_option autoImplicit false

/-!
# Objects handed to a callback

A server's handler constructs two completion queues and a queue pair and passes them to the
callback by value. The order in which the parameters are constructed is left to the compiler.
-/

namespace Rdmalib2

open Shared

inductive Parameter where
  | qp
  | sendCq
  | recvCq
  deriving DecidableEq, Repr

namespace Parameter

-- The place of a variable in the handler.
def offset : Parameter → Nat
  | .sendCq => 1
  | .recvCq => 2
  | .qp => 3

-- What the driver makes for the variable, when it has made so many objects before.
def handle (count : Nat) : Parameter → Handle
  | .sendCq => .cq count
  | .recvCq => .cq (count + 1)
  | .qp => .qp (count + 2)

def made (count : Nat) (parameter : Parameter) : DriverObject := .handle (parameter.handle count)

def object (count : Nat) (ctx : ContextObject) : Parameter → Object
  | .sendCq => .cq { cq := some count }
  | .recvCq => .cq { cq := some (count + 1) }
  | .qp => .qp .rc { ctx := ctx.toRdmaContext, qp := some (count + 2) }

theorem object_destroy (count : Nat) (ctx : ContextObject) (parameter : Parameter) :
    (Variable.object (parameter.object count ctx)).destroy = [parameter.made count] := by
  cases parameter <;> rfl

theorem made_injective (count : Nat) : Function.Injective (made count) := by
  intro first second same
  cases first <;> cases second <;> simp [made, handle] at same ⊢

end Parameter

theorem handler_type_implemented : qpTypeImplemented .rc = true := rfl

theorem atomics_allowed : qpFeaturesAllowed .rc QpFeatureBase.extendedAtomics = true := by
  simp [qpFeaturesAllowed]

-- The variables of the handlers of `run_server` and `run_server_with_stop`.
def handlerVariables (ctx : Nat) : List Statement :=
  [.cq (ctx + Parameter.sendCq.offset) ctx kCqDepth,
    .cq (ctx + Parameter.recvCq.offset) ctx kCqDepth,
    .qp (ctx + Parameter.qp.offset) ctx (ctx + Parameter.sendCq.offset)
      (ctx + Parameter.recvCq.offset) .rc handler_type_implemented kQpDepth QpFeatureBase.extendedAtomics
      atomics_allowed]

-- A callback that keeps none of its parameters, and the end of the handler: the parameters leave
-- before the variables.
def handlerScope (ctx : Nat) (order : List Parameter) : List Statement :=
  handlerVariables ctx ++
    order.map (fun parameter => .move (ctx + 3 + parameter.offset) (ctx + parameter.offset)) ++
    List.replicate (order.length + 3) .leave

-- The parameters that are destroyed before the queue pair, in that order.
def destroyedEarly (order : List Parameter) : List Parameter := order.reverse.takeWhile (· ≠ .qp)

section handler

variable {p : Scopes} {ctx : Nat} {this : ContextObject}

def handlerLive (p : Scopes) (this : ContextObject) : List (DriverObject × Creation) :=
  [(Parameter.qp.made p.count, .expCreateQp this.ctx
      (createRdmaQpAttr this .rc kQpDepth { cq := some p.count } { cq := some (p.count + 1) }
        QpFeatureBase.extendedAtomics)),
    (Parameter.recvCq.made p.count, createRdmaCqCall this kCqDepth),
    (Parameter.sendCq.made p.count, createRdmaCqCall this kCqDepth)]

def handlerState (p : Scopes) (this : ContextObject) : Scopes :=
  { p with count := p.count + 3, live := handlerLive p this ++ p.live }

def handlerLocals (p : Scopes) (ctx : Nat) (this : ContextObject) : List (Nat × Variable) :=
  [(ctx + 3, .object (Parameter.qp.object p.count this)),
    (ctx + 2, .object (Parameter.recvCq.object p.count this)),
    (ctx + 1, .object (Parameter.sendCq.object p.count this))] ++ p.locals

theorem handlerVariables_ran (named : p.contextNamed ctx = .ok this) :
    run Scopes.step p (handlerVariables ctx) =
      .ok ((handlerState p this).rebind (handlerLocals p ctx this)) := by
  have found : p.locals.lookup ctx = some (.context this) := by
    unfold Scopes.contextNamed at named
    split at named
    next other found => rw [found, Except.ok.inj named]
    next => cases named
  simp [handlerVariables, Parameter.offset, Parameter.object, run, Scopes.step,
    Scopes.contextNamed, Scopes.cqNamed,
    Scopes.declare, found, lookup_other, handlerState, handlerLocals, handlerLive,
    Scopes.rebind, Parameter.made, Parameter.handle, bind, Except.bind, pure, Except.pure]

-- What the handler's objects mean to the others of the program.
structure Apart (p : Scopes) : Prop where
  unrested : ∀ parameter : Parameter, ¬ p.InUse (parameter.made p.count)
  unlisted : ∀ parameter : Parameter, ∀ entry ∈ p.live, entry.1 ≠ parameter.made p.count

theorem Kept.apart (kept : Kept true p) : Apart p := by
  have fresh : ∀ parameter : Parameter, parameter.made p.count ∉ p.held := fun parameter listed => by
    have := kept.numbered _ listed
    cases parameter <;>
      simp only [Parameter.made, Parameter.handle, DriverObject.number, Handle.number] at this <;>
      omega
  refine ⟨?_, fun parameter entry listed same => ?_⟩
  · rintro parameter ⟨⟨member, creation⟩, listed, rests⟩
    have on : RestsIn p.live member (parameter.made p.count) := ⟨creation, listed, rests⟩
    cases parameter with
    | qp => exact kept.supports on
    | sendCq | recvCq => exact fresh _ (kept.closed on rfl)
  · exact fresh parameter (same ▸ (kept.listed entry.1).mp ⟨entry.2, listed⟩)

-- Of the program, only the handler's queue pair rests on what the handler makes.
theorem handler_rests (kept : Kept true p) {member : DriverObject} {parameter : Parameter}
    (on : RestsIn (handlerLive p this ++ p.live) member (parameter.made p.count)) :
    parameter ≠ .qp ∧ member = Parameter.qp.made p.count := by
  obtain ⟨creation, listed, rests⟩ := on
  rcases List.mem_append.mp listed with own | other
  · simp only [handlerLive, List.mem_cons, Prod.mk.injEq, List.not_mem_nil, or_false] at own
    rcases own with ⟨rfl, rfl⟩ | ⟨rfl, rfl⟩ | ⟨rfl, rfl⟩
    · refine ⟨?_, rfl⟩
      rintro rfl
      simp only [Creation.rests, List.mem_cons] at rests
      rcases rests with same | rests
      · cases same
      · rcases createRdmaQpAttr_rests rests with mine | ⟨number, same, -⟩
        · simp [Parameter.made, ContextObject.destroy] at mine
        · cases same
    · have mine := createRdmaCqCall_rests rests
      cases parameter <;> simp [Parameter.made, ContextObject.destroy] at mine
    · have mine := createRdmaCqCall_rests rests
      cases parameter <;> simp [Parameter.made, ContextObject.destroy] at mine
  · exact absurd ⟨_, other, rests⟩ (kept.apart.unrested parameter)

theorem handler_inUse {q : Scopes} (live : q.live = handlerLive p this ++ p.live)
    {parameter : Parameter} (queue : parameter ≠ .qp) : q.InUse (parameter.made p.count) := by
  obtain ⟨send, recv, -, -⟩ := createRdmaQpAttr_keeps this .rc kQpDepth { cq := some p.count }
    { cq := some (p.count + 1) } QpFeatureBase.extendedAtomics
  refine ⟨_, by rw [live]; exact List.mem_cons_self, List.mem_cons_of_mem _ ?_⟩
  cases parameter with
  | qp => exact absurd rfl queue
  | sendCq | recvCq => simp [IbvExpQpInitAttr.rests, send, recv, Parameter.made, Parameter.handle]

theorem split_takeWhile {order : List Parameter} (listed : .qp ∈ order) :
    ∃ later, order = order.takeWhile (· ≠ .qp) ++ .qp :: later := by
  induction order with
  | nil => cases listed
  | cons first rest ih =>
    by_cases same : first = .qp
    · exact ⟨rest, by simp [same]⟩
    · obtain ⟨later, split⟩ := ih ((List.mem_cons.mp listed).resolve_left (Ne.symm same))
      refine ⟨later, ?_⟩
      rw [List.takeWhile_cons_of_pos (by simpa using same), List.cons_append, ← split]

theorem destroyedEarly_nil {order : List Parameter} (listed : .qp ∈ order) :
    destroyedEarly order = [] ↔ order.getLast? = some .qp := by
  rw [destroyedEarly, ← List.head?_reverse]
  cases reversed : order.reverse with
  | nil =>
    rw [List.reverse_eq_nil_iff.mp reversed] at listed
    cases listed
  | cons last rest => simp [List.takeWhile_cons]

/-- What is destroyed before the queue pair is refused, and the rest is not. -/
theorem handler_released (kept : Kept true p) {q : Scopes}
    (live : q.live = handlerLive p this ++ p.live) {early later : List Parameter}
    (queues : ∀ parameter ∈ early, parameter ≠ .qp) :
    q.releaseAll ((early ++ .qp :: later).map (Parameter.made p.count)) =
      { q with
        live := q.live.filter fun entry => entry.1 ∉ (.qp :: later).map (Parameter.made p.count)
        busy := q.busy ++ early.map (Parameter.made p.count) } := by
  have refused : q.releaseAll (early.map (Parameter.made p.count)) =
      { q with busy := q.busy ++ early.map (Parameter.made p.count) } := by
    have inUse : ∀ handle ∈ early.map (Parameter.handle p.count), q.InUse (.handle handle) := by
      intro handle listed
      obtain ⟨parameter, inside, rfl⟩ := List.mem_map.mp listed
      exact handler_inUse live (queues parameter inside)
    have all := Scopes.releaseAll_inUse inUse
    rwa [List.map_map] at all
  rw [List.map_append, Scopes.releaseAll_append, refused, Scopes.releaseAll_forget]
  · rfl
  · intro before target after split member on
    have listed : target ∈ (Parameter.qp :: later).map (Parameter.made p.count) := by simp [split]
    obtain ⟨parameter, -, rfl⟩ := List.mem_map.mp listed
    obtain ⟨queue, rfl⟩ := handler_rests kept (live ▸ on)
    cases before with
    | nil =>
      have same := (List.cons.inj split).1
      exact absurd (Parameter.made_injective _ same).symm queue
    | cons first rest =>
      rw [← (List.cons.inj split).1]
      exact List.mem_cons_self

-- The parameters and, under them, what the moves have left of the variables.
def parameterLocals (p : Scopes) (ctx : Nat) (this : ContextObject) (order : List Parameter) :
    List (Nat × Variable) :=
  (order.reverse.map fun parameter =>
      (ctx + 3 + parameter.offset, .object (parameter.object p.count this))) ++
    [.qp, .recvCq, .sendCq].map fun parameter : Parameter =>
      (ctx + parameter.offset, .object (parameter.object p.count this).moveConstruct.2)

theorem parameters_ran {order : List Parameter} (all : order.Perm [.qp, .sendCq, .recvCq]) :
    run Scopes.step ((handlerState p this).rebind (handlerLocals p ctx this))
        (order.map fun parameter => .move (ctx + 3 + parameter.offset) (ctx + parameter.offset)) =
      .ok ((handlerState p this).rebind (parameterLocals p ctx this order ++ p.locals)) := by
  have members : order ∈ [Parameter.qp, .sendCq, .recvCq].permutations :=
    List.mem_permutations.mpr all
  simp [List.permutations, List.permutationsAux, List.permutationsAux.rec,
    List.permutationsAux2] at members
  rcases members with rfl | rfl | rfl | rfl | rfl | rfl <;>
    simp [run, Scopes.step, handlerLocals, parameterLocals, Scopes.rebind, put, lookup_other,
      Parameter.offset, Parameter.object, Object.moveConstruct, QpObject.moveConstruct,
      CqObject.moveConstruct]

theorem heldIn_parameters (order : List Parameter) :
    heldIn (parameterLocals p ctx this order) = order.reverse.map (Parameter.made p.count) := by
  rw [parameterLocals, heldIn_append]
  simp only [heldIn, List.flatMap_map, Parameter.object_destroy, (Kept.moved_destroy _).2]
  rw [← List.map_eq_flatMap]
  simp

theorem handlerScope_ran (named : p.contextNamed ctx = .ok this) {order : List Parameter}
    (all : order.Perm [.qp, .sendCq, .recvCq]) :
    run Scopes.step p (handlerScope ctx order) =
      .ok (((handlerState p this).releaseAll (order.reverse.map (Parameter.made p.count))).rebind
        p.locals) := by
  have leaves := Scopes.leaves_ran (p := (handlerState p this).rebind _)
    (rfl : _ = parameterLocals p ctx this order ++ p.locals)
  have length : (parameterLocals p ctx this order).length = order.length + 3 := by
    simp [parameterLocals]
  rw [heldIn_parameters, Scopes.releaseAll_rebind, length] at leaves
  exact (run_append_ok _).mpr ⟨_, (run_append_ok _).mpr
    ⟨_, handlerVariables_ran named, parameters_ran all⟩, leaves⟩

theorem handlerLive_listed (this : ContextObject) {target : DriverObject} :
    (∃ creation, (target, creation) ∈ handlerLive p this) ↔
      ∃ parameter : Parameter, target = parameter.made p.count := by
  constructor
  · rintro ⟨creation, listed⟩
    simp only [handlerLive, List.mem_cons, Prod.mk.injEq, List.not_mem_nil, or_false] at listed
    rcases listed with ⟨rfl, -⟩ | ⟨rfl, -⟩ | ⟨rfl, -⟩ <;> exact ⟨_, rfl⟩
  · rintro ⟨parameter, rfl⟩
    cases parameter <;> simp [handlerLive, Parameter.made, Parameter.handle]

-- What is left of the handler's objects.
theorem handler_left (kept : Kept true p) {early later : List Parameter}
    (whole : ∀ parameter, parameter ∈ early ++ .qp :: later)
    (distinct : (early ++ .qp :: later).Nodup) (target : DriverObject) :
    (∃ creation, (target, creation) ∈ (handlerLive p this ++ p.live).filter fun entry =>
        entry.1 ∉ (.qp :: later).map (Parameter.made p.count)) ↔
      (∃ creation, (target, creation) ∈ p.live) ∨ target ∈ early.map (Parameter.made p.count) := by
  have apart : ∀ parameter ∈ early, parameter ∉ .qp :: later := fun parameter first second =>
    (List.nodup_append.mp distinct).2.2 parameter first parameter second rfl
  simp only [List.mem_filter, List.mem_append, decide_eq_true_eq]
  constructor
  · rintro ⟨creation, own | other, kept⟩
    · obtain ⟨parameter, rfl⟩ := (handlerLive_listed this).mp ⟨creation, own⟩
      have outside : parameter ∉ .qp :: later := fun inside =>
        kept (List.mem_map.mpr ⟨parameter, inside, rfl⟩)
      have inside := (List.mem_append.mp (whole parameter)).resolve_right outside
      exact .inr (List.mem_map.mpr ⟨parameter, inside, rfl⟩)
    · exact .inl ⟨creation, other⟩
  · rintro (⟨creation, other⟩ | own)
    · refine ⟨creation, .inr other, fun listed => ?_⟩
      obtain ⟨parameter, -, same⟩ := List.mem_map.mp listed
      exact kept.apart.unlisted parameter _ other same.symm
    · obtain ⟨parameter, inside, rfl⟩ := List.mem_map.mp own
      obtain ⟨creation, listed⟩ := (handlerLive_listed this).mpr ⟨parameter, rfl⟩
      refine ⟨creation, .inl listed, fun gone => ?_⟩
      obtain ⟨other, later, same⟩ := List.mem_map.mp gone
      rw [Parameter.made_injective _ same] at later
      exact apart parameter inside later

end handler

/-- Wherever a program calls the handler: a completion queue whose parameter is destroyed before the
queue pair is refused and stays with the driver for good, and everything else goes. -/
theorem callback_strands {program : List Statement} {p : Scopes}
    (orderly : Always Scopes.step Scopes.Orderly {} program)
    (ran : run Scopes.step {} program = .ok p) {ctx : Nat} {this : ContextObject}
    (named : p.contextNamed ctx = .ok this) {order : List Parameter}
    (all : order.Perm [.qp, .sendCq, .recvCq]) :
    ∃ last, run Scopes.step p (handlerScope ctx order) = .ok last ∧ last.locals = p.locals ∧
      last.busy = (destroyedEarly order).map (Parameter.made p.count) ∧
      (last.busy = [] ↔ order.getLast? = some .qp) ∧
      ∀ target, (∃ creation, (target, creation) ∈ last.live) ↔
        (∃ creation, (target, creation) ∈ p.live) ∨
          target ∈ (destroyedEarly order).map (Parameter.made p.count) := by
  obtain ⟨kept, busy⟩ := orderly_kept orderly ran
  have listed : ∀ parameter, parameter ∈ order.reverse := fun parameter =>
    List.mem_reverse.mpr (all.mem_iff.mpr (by cases parameter <;> simp))
  have distinct : order.reverse.Nodup := List.nodup_reverse.mpr (all.nodup_iff.mpr (by decide))
  obtain ⟨later, split⟩ : ∃ later, order.reverse = destroyedEarly order ++ .qp :: later :=
    split_takeWhile (listed .qp)
  have queues : ∀ parameter ∈ destroyedEarly order, parameter ≠ .qp := fun parameter early => by
    simpa using List.mem_takeWhile_imp early
  have scope := handlerScope_ran named all
  rw [split, handler_released kept rfl queues] at scope
  have refused : (handlerState p this).busy ++ (destroyedEarly order).map (Parameter.made p.count) =
      (destroyedEarly order).map (Parameter.made p.count) := by rw [handlerState, busy]; rfl
  refine ⟨_, scope, rfl, refused, ?_, fun target => ?_⟩
  · rw [← destroyedEarly_nil (List.mem_reverse.mp (listed .qp))]
    simp only [Scopes.rebind, refused, List.map_eq_nil_iff]
  · exact handler_left kept (split ▸ listed) (split ▸ distinct) target

-- A server's context, alone.
def served : List Statement :=
  [.context 0 { physPortCnt := 1, portAttrs := [({}, { lid := 1 })] } true]

-- From left to right both completion queues are lost, although the callback is over.
theorem left_to_right_strands :
    ∃ p last, run Scopes.step {} served = .ok p ∧
      run Scopes.step p (handlerScope 0 [.qp, .sendCq, .recvCq]) = .ok last ∧
      last.busy = [.handle (.cq 2), .handle (.cq 1)] := by
  obtain ⟨last, ran, -, busy, -⟩ := @callback_strands served _ (by decide) rfl 0 _ rfl _
    (List.Perm.refl [Parameter.qp, .sendCq, .recvCq])
  exact ⟨_, last, rfl, ran, busy⟩

end Rdmalib2
