import Rdmalib2.Process.Attributes
import Rdmalib2.Shared.Piled
import Rdmalib2.Shared.Run

set_option autoImplicit false

/-!
# Programs whose objects are variables

Contexts, regions, completion queues and queue pairs as variables of nested scopes. A variable is
destroyed when it leaves its scope, the youngest first, and what its destructor tells the driver is
refused while other objects rest on what it would destroy.
-/

namespace Rdmalib2

open Shared

inductive Variable where
  | context (this : ContextObject)
  | object (this : Object)

def ContextObject.destroy (this : ContextObject) : List DriverObject :=
  this.rd.toList.map .resDomain ++ [.pd this.pd, .context this.ctx]

def Variable.destroy : Variable → List DriverObject
  | .context this => this.destroy
  | .object this => this.destroy.map .handle

-- What a host or a device region has the driver make, the last first.
def regionCalls (ctx : ContextObject) (device : Bool) (perm : UInt32) (ptr size : UInt64)
    (number : Nat) : List (DriverObject × Creation) :=
  if device then
    [(.handle (.mr number), .expRegMr ctx.pd ptr size perm number),
      (.handle (.dm number), .allocDm ctx.ctx size)]
  else [(.handle (.mr number), .regMr ctx.pd ptr size perm)]

def contextCalls (hinted : Bool) (number : Nat) : List (DriverObject × Creation) :=
  (if hinted then [(.resDomain number, .createResDomain number)] else []) ++
    [(.pd number, .allocPd number), (.context number, .openDevice)]

inductive Statement where
  | context (name : Nat) (value : RdmaContext) (hinted : Bool)
  | region (name ctx : Nat) (device : Bool) (perm : UInt32) (ptr size : UInt64)
  | cq (name ctx : Nat) (cqDepth : Int)
  | qp (name ctx sendCq recvCq : Nat) (type : IbvQpType)
      (implemented : qpTypeImplemented type = true) (qpDepth : Int) (features : QpFeatureBase)
      (allowed : qpFeaturesAllowed type features = true)
  | move (name src : Nat)
  | assign (dst src : Nat)
  | leave

-- The youngest variable comes first. `live` keeps the driver's objects with the calls that created
-- them, and `busy` those on which others rested when they were to be destroyed.
structure Scopes where
  locals : List (Nat × Variable) := []
  count : Nat := 0
  live : List (DriverObject × Creation) := []
  busy : List DriverObject := []

-- A name stands for the youngest variable that has it.
def put : List (Nat × Variable) → Nat → Variable → List (Nat × Variable)
  | [], _, _ => []
  | (other, held) :: rest, name, value =>
      if name = other then (name, value) :: rest else (other, held) :: put rest name value

-- The variables that are older than the one with the name.
def below : Nat → List (Nat × Variable) → List (Nat × Variable)
  | _, [] => []
  | name, (other, _) :: rest => if name = other then rest else below name rest

def heldIn (locals : List (Nat × Variable)) : List DriverObject :=
  locals.flatMap fun entry => entry.2.destroy

namespace Scopes

def InUse (p : Scopes) (target : DriverObject) : Prop :=
  ∃ entry ∈ p.live, target ∈ entry.2.rests

instance (p : Scopes) (target : DriverObject) : Decidable (p.InUse target) :=
  inferInstanceAs (Decidable (∃ _ ∈ _, _))

def forget (p : Scopes) (targets : List DriverObject) : Scopes :=
  { p with live := p.live.filter fun entry => entry.1 ∉ targets }

-- The destructors throw the answer away. An object on which others rest stays, but for a context,
-- which is closed over them.
def release (p : Scopes) (target : DriverObject) : Scopes :=
  if p.InUse target then
    match target with
    | .context number => { p.forget [.context number] with busy := p.busy ++ [.context number] }
    | target => { p with busy := p.busy ++ [target] }
  else p.forget [target]

def releaseAll : Scopes → List DriverObject → Scopes
  | p, [] => p
  | p, target :: targets => (p.release target).releaseAll targets

def rebind (p : Scopes) (locals : List (Nat × Variable)) : Scopes := { p with locals }

def declare (p : Scopes) (name : Nat) (value : Variable) (made : List (DriverObject × Creation)) :
    Scopes :=
  { p with
    locals := (name, value) :: p.locals
    count := p.count + 1
    live := made ++ p.live }

def contextNamed (p : Scopes) (name : Nat) : Except Failure ContextObject :=
  match p.locals.lookup name with
  | some (.context this) => .ok this
  | _ => .error (.undefined "no context of that name")

def cqNamed (p : Scopes) (name : Nat) : Except Failure CqObject :=
  match p.locals.lookup name with
  | some (.object (.cq this)) => .ok this
  | _ => .error (.undefined "no completion queue of that name")

def step (p : Scopes) : Statement → Except Failure Scopes
  | .context name value hinted =>
      let this : ContextObject :=
        { value with ctx := p.count, pd := p.count, rd := if hinted then some p.count else none }
      .ok (p.declare name (.context this) (contextCalls hinted p.count))
  | .region name ctx device perm ptr size => do
      let ctx ← p.contextNamed ctx
      let this : RegionObject :=
        { ctx := ctx.toRdmaContext, mr := some p.count, dm := if device then some p.count else none
          ptr, size }
      return p.declare name (.object (.region this)) (regionCalls ctx device perm ptr size p.count)
  | .cq name ctx cqDepth => do
      let ctx ← p.contextNamed ctx
      return p.declare name (.object (.cq { cq := some p.count }))
        [(.handle (.cq p.count), createRdmaCqCall ctx cqDepth)]
  | .qp name ctx sendCq recvCq type _ qpDepth features _ => do
      let ctx ← p.contextNamed ctx
      let sendCq ← p.cqNamed sendCq
      let recvCq ← p.cqNamed recvCq
      return p.declare name (.object (.qp type { ctx := ctx.toRdmaContext, qp := some p.count }))
        [(.handle (.qp p.count),
          .expCreateQp ctx.ctx (createRdmaQpAttr ctx type qpDepth sendCq recvCq features))]
  | .move name src =>
      match p.locals.lookup src with
      | some (.object other) =>
          .ok (p.rebind ((name, .object other.moveConstruct.1) ::
            put p.locals src (.object other.moveConstruct.2)))
      | _ => .error (.undefined "nothing to move from")
  | .assign dst src =>
      match p.locals.lookup dst, p.locals.lookup src with
      | some (.object this), some (.object other) =>
          if ¬ this.sameClass other then .error (.undefined "assignment between classes")
          else if dst = src then .ok p
          else
            .ok ((p.releaseAll (Variable.object this).destroy).rebind
              (put (put p.locals src (.object other.moveConstruct.2)) dst
                (.object other.moveConstruct.1)))
      | _, _ => .error (.undefined "assignment outside a lifetime")
  | .leave =>
      match p.locals with
      | (_, value) :: rest => .ok ((p.releaseAll value.destroy).rebind rest)
      | [] => .error (.undefined "no variable to leave its scope")

end Scopes

/-! ## What new objects rest on -/

theorem createRdmaCqCall_rests {ctx : ContextObject} {cqDepth : Int} {base : DriverObject}
    (rests : base ∈ (createRdmaCqCall ctx cqDepth).rests) : base ∈ ctx.destroy := by
  unfold createRdmaCqCall ContextObject.getResDomain at rests
  cases held : ctx.rd <;> simp_all [Creation.rests, ContextObject.destroy]
  tauto

theorem createRdmaQpAttr_rests {ctx : ContextObject} {type : IbvQpType} {qpDepth : Int}
    {sendCq recvCq : CqObject} {features : QpFeatureBase} {base : DriverObject}
    (rests : base ∈ (createRdmaQpAttr ctx type qpDepth sendCq recvCq features).rests) :
    base ∈ ctx.destroy ∨ ∃ number, base = .handle (.cq number) ∧
      (sendCq.cq = some number ∨ recvCq.cq = some number) := by
  obtain ⟨send, recv, pd, rd⟩ := createRdmaQpAttr_keeps ctx type qpDepth sendCq recvCq features
  simp only [IbvExpQpInitAttr.rests, send, recv, pd, rd, List.mem_append, List.mem_map,
    Option.mem_toList, List.mem_ite_nil_right, List.mem_singleton] at rests
  rcases rests with (⟨number, cq, rfl⟩ | ⟨-, rfl⟩) | ⟨-, number, held, rfl⟩
  · exact .inr ⟨number, rfl, cq⟩
  · exact .inl (by simp [ContextObject.destroy])
  · exact .inl (by simp_all [ContextObject.destroy])

/-! ## Variables and what they hold -/

section locals

variable {younger older locals : List (Nat × Variable)} {name : Nat} {value held : Variable}

@[simp] theorem heldIn_nil : heldIn [] = [] := rfl

@[simp] theorem heldIn_cons : heldIn ((name, value) :: older) = value.destroy ++ heldIn older := rfl

@[simp] theorem heldIn_append : heldIn (younger ++ older) = heldIn younger ++ heldIn older :=
  List.flatMap_append

theorem destroy_held {entry : Nat × Variable} (listed : entry ∈ locals) {target : DriverObject}
    (holds : target ∈ entry.2.destroy) : target ∈ heldIn locals :=
  List.mem_flatMap.mpr ⟨entry, listed, holds⟩

theorem lookup_other {other : Nat} (apart : name ≠ other) :
    ((other, value) :: older).lookup name = older.lookup name := by
  have different : (name == other) = false := by simpa using apart
  rw [List.lookup_cons, different]

theorem lookup_split (found : locals.lookup name = some value) :
    ∃ younger older, locals = younger ++ (name, value) :: older ∧
      ∀ entry ∈ younger, entry.1 ≠ name := by
  induction locals with
  | nil => cases found
  | cons first rest ih =>
    obtain ⟨other, kept⟩ := first
    by_cases same : name = other
    · subst same
      simp only [List.lookup_cons, beq_self_eq_true, Option.some.injEq] at found
      exact ⟨[], rest, by rw [found]; rfl, by simp⟩
    · have apart : (name == other) = false := by simpa using same
      simp only [List.lookup_cons, apart] at found
      obtain ⟨younger, older, rfl, absent⟩ := ih found
      refine ⟨(other, kept) :: younger, older, rfl, fun entry listed => ?_⟩
      rcases List.mem_cons.mp listed with rfl | later
      · exact fun equal => same equal.symm
      · exact absent entry later

theorem lookup_mem (found : locals.lookup name = some value) : (name, value) ∈ locals := by
  obtain ⟨younger, older, rfl, -⟩ := lookup_split found
  simp

theorem put_split (value : Variable) (absent : ∀ entry ∈ younger, entry.1 ≠ name) :
    put (younger ++ (name, held) :: older) name value = younger ++ (name, value) :: older := by
  induction younger with
  | nil => simp [put]
  | cons first rest ih =>
    obtain ⟨here, later⟩ := List.forall_mem_cons.mp absent
    simp [put, Ne.symm here, ih later]

theorem put_mem {entry : Nat × Variable} (listed : entry ∈ put locals name value) :
    entry.2 = value ∨ entry ∈ locals := by
  induction locals with
  | nil => cases listed
  | cons first rest ih =>
    rw [put] at listed
    split at listed
    next =>
      rcases List.mem_cons.mp listed with rfl | later
      · exact .inl rfl
      · exact .inr (List.mem_cons_of_mem _ later)
    next =>
      rcases List.mem_cons.mp listed with rfl | later
      · exact .inr List.mem_cons_self
      · exact (ih later).imp_right (List.mem_cons_of_mem _)

theorem below_split (absent : ∀ entry ∈ younger, entry.1 ≠ name) :
    below name (younger ++ (name, held) :: older) = older := by
  induction younger with
  | nil => simp [below]
  | cons first rest ih =>
    obtain ⟨here, later⟩ := List.forall_mem_cons.mp absent
    simp [below, Ne.symm here, ih later]

theorem lookup_held (found : locals.lookup name = some value) {target : DriverObject}
    (holds : target ∈ value.destroy) : target ∈ heldIn locals := by
  exact destroy_held (lookup_mem found) holds

theorem Scopes.contextNamed_held {p : Scopes} {this : ContextObject}
    (named : p.contextNamed name = .ok this) {target : DriverObject}
    (holds : target ∈ this.destroy) : target ∈ heldIn p.locals := by
  unfold contextNamed at named
  split at named
  next found =>
    obtain rfl := Except.ok.inj named
    exact lookup_held found holds
  next => cases named

theorem Scopes.cqNamed_held {p : Scopes} {this : CqObject} (named : p.cqNamed name = .ok this)
    {number : Nat} (holds : this.cq = some number) : .handle (.cq number) ∈ heldIn p.locals := by
  unfold cqNamed at named
  split at named
  next found =>
    obtain rfl := Except.ok.inj named
    refine lookup_held found ?_
    simp [Variable.destroy, Object.destroy_eq, Object.holds, holds]
  next => cases named

end locals

-- Two variables of an assignment, the source younger than the target or older.
inductive Placed (locals : List (Nat × Variable)) (dst src : Nat) (this other : Variable) : Prop
  | younger (above between older : List (Nat × Variable))
      (split : locals = above ++ (src, other) :: (between ++ (dst, this) :: older))
      (under : below dst locals = older)
      (puts : ∀ left moved, put (put locals src left) dst moved =
        above ++ (src, left) :: (between ++ (dst, moved) :: older))
  | older (above between older : List (Nat × Variable))
      (split : locals = above ++ (dst, this) :: (between ++ (src, other) :: older))
      (puts : ∀ left moved, put (put locals src left) dst moved =
        above ++ (dst, moved) :: (between ++ (src, left) :: older))

theorem placed {locals : List (Nat × Variable)} {dst src : Nat} {this other : Variable}
    (apart : dst ≠ src) (target : locals.lookup dst = some this)
    (source : locals.lookup src = some other) : Placed locals dst src this other := by
  obtain ⟨first, rest, rfl, absent⟩ := lookup_split target
  rw [List.lookup_append] at source
  cases found : first.lookup src with
  | some value =>
    obtain rfl : value = other := by simpa [found] using source
    obtain ⟨above, between, rfl, none⟩ := lookup_split found
    have later : ∀ entry ∈ above ++ (src, value) :: between, entry.1 ≠ dst := absent
    refine .younger above between rest (by simp) (below_split absent) fun left moved => ?_
    have emptied : ∀ entry ∈ above ++ (src, left) :: between, entry.1 ≠ dst := by
      intro entry listed
      rcases List.mem_append.mp listed with inside | inside
      · exact later entry (List.mem_append_left _ inside)
      · rcases List.mem_cons.mp inside with rfl | inside
        · exact Ne.symm apart
        · exact later entry (by simp [inside])
    have regrouped : above ++ (src, value) :: between ++ (dst, this) :: rest =
        above ++ (src, value) :: (between ++ (dst, this) :: rest) := by simp
    rw [regrouped, put_split _ none]
    have back : above ++ (src, left) :: (between ++ (dst, this) :: rest) =
        (above ++ (src, left) :: between) ++ (dst, this) :: rest := by simp
    rw [back, put_split _ emptied]
    simp
  | none =>
    have different : (src == dst) = false := by simpa using Ne.symm apart
    simp only [found, Option.none_or, List.lookup_cons, different] at source
    obtain ⟨between, older, rfl, none⟩ := lookup_split source
    refine .older first between older rfl fun left moved => ?_
    have missing : ∀ entry ∈ first ++ (dst, this) :: between, entry.1 ≠ src := by
      intro entry listed
      rcases List.mem_append.mp listed with inside | inside
      · intro same
        have : first.lookup src ≠ Option.none := by
          rw [ne_eq, List.lookup_eq_none_iff]
          intro all
          simpa [same] using all entry inside
        exact this found
      · rcases List.mem_cons.mp inside with rfl | inside
        · exact apart
        · exact none entry inside
    have regrouped : first ++ (dst, this) :: (between ++ (src, other) :: older) =
        (first ++ (dst, this) :: between) ++ (src, other) :: older := by simp
    rw [regrouped, put_split _ missing]
    have back : (first ++ (dst, this) :: between) ++ (src, left) :: older =
        first ++ (dst, this) :: (between ++ (src, left) :: older) := by simp
    rw [back, put_split _ absent]

/-! ## Leaving -/

namespace Scopes

theorem release_rebind (p : Scopes) (target : DriverObject) (locals : List (Nat × Variable)) :
    (p.rebind locals).release target = (p.release target).rebind locals := by
  unfold release
  split
  next inUse =>
    rw [if_pos (show p.InUse target from inUse)]
    cases target <;> rfl
  next free =>
    rw [if_neg (show ¬ p.InUse target from free)]
    rfl

theorem releaseAll_rebind (p : Scopes) (targets : List DriverObject)
    (locals : List (Nat × Variable)) :
    (p.rebind locals).releaseAll targets = (p.releaseAll targets).rebind locals := by
  induction targets generalizing p with
  | nil => rfl
  | cons target targets ih => rw [releaseAll, release_rebind, ih, releaseAll]

theorem releaseAll_append (p : Scopes) (first rest : List DriverObject) :
    p.releaseAll (first ++ rest) = (p.releaseAll first).releaseAll rest := by
  induction first generalizing p with
  | nil => rfl
  | cons target targets ih => rw [List.cons_append, releaseAll, releaseAll, ih]

/-- When the youngest variables leave, the driver is told what they held from the top down. -/
theorem leaves_ran {p : Scopes} {leaving older : List (Nat × Variable)}
    (split : p.locals = leaving ++ older) :
    run step p (List.replicate leaving.length .leave) =
      .ok ((p.releaseAll (heldIn leaving)).rebind older) := by
  induction leaving generalizing p with
  | nil =>
    obtain rfl : p.locals = older := split
    rfl
  | cons first rest ih =>
    obtain ⟨name, value⟩ := first
    have taken : p.step .leave = .ok ((p.releaseAll value.destroy).rebind (rest ++ older)) := by
      rw [step, split]
      rfl
    rw [List.length_cons, List.replicate_succ, run_cons_ok step _ taken, ih rfl, releaseAll_rebind,
      heldIn_cons, releaseAll_append]
    rfl

end Scopes

end Rdmalib2
