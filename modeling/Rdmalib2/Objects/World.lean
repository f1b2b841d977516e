import Rdmalib2.Objects.Classes
import Rdmalib2.Qp.Ladder
import Rdmalib2.Verb.Batch

set_option autoImplicit false

/-!
# Programs over driver objects

A program constructs, moves and destroys any number of objects and calls the members of its
queue pairs. The driver keeps every queue pair that has not been released.
-/

namespace Rdmalib2

open Shared

-- The static assertions of the constructor.
def qpTypeImplemented (type : IbvQpType) : Bool :=
  type ≠ .xrcSend ∧ type ≠ .xrcRecv ∧ type ≠ .expDcIni

-- Objects live under numbers of their own. Handles are numbered by the construction that created
-- them, and `issued` keeps the modifications of a handle after it is gone.
structure World where
  objects : Nat → Option Object := fun _ => none
  count : Nat := 0
  created : List Handle := []
  released : List Handle := []
  qps : Nat → Option IbvQp := fun _ => none
  issued : Nat → List ModifyCall := fun _ => []

-- How a process ends, and what the driver was left with.
structure Exit where
  world : World
  failure : Failure

inductive Action where
  | constructQp (id : Nat) (ctx : RdmaContext) (type : IbvQpType)
      (implemented : qpTypeImplemented type = true) (qpNum : UInt32)
  | constructCq (id : Nat)
  | constructRegion (id : Nat) (ctx : RdmaContext) (device : Bool) (ptr size : UInt64)
  | moveConstruct (id src : Nat)
  | moveAssign (dst src : Nat)
  | destroy (id : Nat)
  | bindPort (id : Nat) (driver : ModifyDriver) (port : UInt8)
  | connect (id : Nat) (driver : ModifyDriver) (remote : Info) (port : UInt8)
  | getInfo (id : Nat)
  | getQpInfo (id : Nat)
  | post (id : Nat) {W : Wr} (verb : RdmaVerb W) (ret : Int)
  | postRange (id : Nat) (verbs : LiveVerbs .ibvExpSendWr) (range : List Nat) (ret : Int)

namespace World

def stop (w : World) (failure : Failure) : Except Exit World := .error { world := w, failure }

-- The destructors of one object run.
def release (w : World) (handles : List Handle) : World :=
  { w with
    released := w.released ++ handles
    qps := fun number => if .qp number ∈ handles then none else w.qps number }

def construct (w : World) (id : Nat) (object : Object) : Except Exit World :=
  match w.objects id with
  | some _ => w.stop (.undefined "storage of a live object")
  | none =>
      .ok { w with
        objects := Function.update w.objects id (some object)
        count := w.count + 1
        created := w.created ++ object.holds }

-- The driver carries the modifications out.
def record (w : World) (driver : ModifyDriver) (this : QpObject) (calls : List ModifyCall) : World :=
  match this.qp with
  | none => w
  | some number =>
      { w with
        qps := Function.update w.qps number
          ((w.qps number).map fun qp => qp.after driver calls)
        issued := Function.update w.issued number (w.issued number ++ calls) }

def drive (w : World) (id : Nat) (driver : ModifyDriver)
    (call : (type : IbvQpType) → RdmaQp type → Modified (RdmaQp type)) : Except Exit World :=
  match w.objects id with
  | some (.qp type this) =>
      let modified := call type (this.view type w.qps)
      let w := w.record driver this modified.calls
      match modified.result with
      | .error e => w.stop e
      | .ok next =>
          .ok { w with
            objects := Function.update w.objects id (some (.qp type { this with port := next.port })) }
  | _ => w.stop (.undefined "queue pair outside its lifetime")

-- A call that leaves the object and its queue pair as they are.
def inspect {α : Type} (w : World) (id : Nat)
    (call : (type : IbvQpType) → RdmaQp type → Except Failure α) : Except Exit World :=
  match w.objects id with
  | some (.qp type this) =>
      match call type (this.view type w.qps) with
      | .error e => w.stop e
      | .ok _ => .ok w
  | _ => w.stop (.undefined "queue pair outside its lifetime")

def step (w : World) : Action → Except Exit World
  | .constructQp id ctx type _ qpNum =>
      match w.construct id (.qp type { ctx, qp := some w.count }) with
      | .error exit => .error exit
      | .ok next =>
          .ok { next with
            qps := Function.update next.qps w.count (some { qpNum, qpType := type }) }
  | .constructCq id => w.construct id (.cq { cq := some w.count })
  | .constructRegion id ctx device ptr size =>
      w.construct id (.region
        { ctx, mr := some w.count, dm := if device then some w.count else none, ptr, size })
  | .moveConstruct id src =>
      match w.objects id, w.objects src with
      | none, some other =>
          let (object, left) := other.moveConstruct
          .ok { w with
            objects :=
              Function.update (Function.update w.objects src (some left)) id (some object) }
      | _, _ => w.stop (.undefined "move construction outside a lifetime")
  | .moveAssign dst src =>
      match w.objects dst, w.objects src with
      | some this, some other =>
          if ¬ this.sameClass other then w.stop (.undefined "assignment between classes")
          else if dst = src then .ok w
          else
            let w := w.release this.destroy
            let (object, left) := other.moveConstruct
            .ok { w with
              objects :=
                Function.update (Function.update w.objects src (some left)) dst (some object) }
      | _, _ => w.stop (.undefined "move assignment outside a lifetime")
  | .destroy id =>
      match w.objects id with
      | some this =>
          .ok { w.release this.destroy with objects := Function.update w.objects id none }
      | none => w.stop (.undefined "destruction outside a lifetime")
  | .bindPort id driver port => w.drive id driver fun _ this => this.bindPort driver port
  | .connect id driver remote port => w.drive id driver fun _ this => this.connect driver remote port
  | .getInfo id => w.inspect id fun _ this => this.getInfo
  | .getQpInfo id => w.inspect id fun _ this => this.getQpInfo
  | .post id verb ret =>
      w.inspect id fun type this => do
        let posted := postVerb type ret verb
        if posted.submitted ≠ [] then
          let _ ← this.deref
        posted.result
  | .postRange id verbs range ret =>
      w.inspect id fun type this => do
        let posted := postVerbs type ret verbs range
        if posted.handed.isSome then
          let _ ← this.deref
        posted.result

end World

/-! ## What an action can do -/

-- A new object points to what its construction created.
inductive Object.Fresh (number : Nat) : Object → Prop
  | qp (type : IbvQpType) (ctx : RdmaContext) : Fresh number (.qp type { ctx, qp := some number })
  | cq : Fresh number (.cq { cq := some number })
  | region (ctx : RdmaContext) (device : Bool) (ptr size : UInt64) :
      Fresh number (.region
        { ctx, mr := some number, dm := if device then some number else none, ptr, size })

inductive Change (w : World) : World → Prop
  | unchanged : Change w w
  | created (id : Nat) {object : Object} (vacant : w.objects id = none)
      (fresh : object.Fresh w.count) (record : Option IbvQp)
      (reset : ∀ qp ∈ record, qp.state = .reset) :
      Change w { w with
        objects := Function.update w.objects id (some object)
        count := w.count + 1
        created := w.created ++ object.holds
        qps := Function.update w.qps w.count (record.or (w.qps w.count)) }
  | moved {dst src : Nat} {other : Object} (vacant : w.objects dst = none)
      (lives : w.objects src = some other) :
      Change w { w with
        objects := Function.update (Function.update w.objects src (some other.moveConstruct.2)) dst
          (some other.moveConstruct.1) }
  | assigned {dst src : Nat} {this other : Object} (apart : dst ≠ src)
      (target : w.objects dst = some this) (lives : w.objects src = some other) :
      Change w { w.release this.destroy with
        objects := Function.update (Function.update w.objects src (some other.moveConstruct.2)) dst
          (some other.moveConstruct.1) }
  | destroyed {id : Nat} {this : Object} (lives : w.objects id = some this) :
      Change w { w.release this.destroy with objects := Function.update w.objects id none }
  | driven {id : Nat} {type : IbvQpType} {this : QpObject} (driver : ModifyDriver)
      {modified : Modified (RdmaQp type)} {next : RdmaQp type}
      (lives : w.objects id = some (.qp type this))
      (call : (∃ port, modified = (this.view type w.qps).bindPort driver port) ∨
        ∃ remote port, modified = (this.view type w.qps).connect driver remote port)
      (ok : modified.result = .ok next) :
      Change w { w.record driver this modified.calls with
        objects := Function.update w.objects id (some (.qp type { this with port := next.port })) }

namespace World

variable {w next : World}

theorem record_keeps (w : World) (driver : ModifyDriver) (this : QpObject)
    (calls : List ModifyCall) :
    (w.record driver this calls).objects = w.objects ∧
      (w.record driver this calls).count = w.count ∧
      (w.record driver this calls).created = w.created ∧
      (w.record driver this calls).released = w.released := by
  unfold record
  cases this.qp <;> exact ⟨rfl, rfl, rfl, rfl⟩

theorem inspect_ok {α : Type} {id : Nat}
    {call : (type : IbvQpType) → RdmaQp type → Except Failure α}
    (taken : w.inspect id call = .ok next) : next = w := by
  unfold inspect at taken
  split at taken
  next =>
    split at taken
    next => cases taken
    next => exact (Except.ok.inj taken).symm
  next => cases taken

theorem construct_ok {id : Nat} {object : Object} (taken : w.construct id object = .ok next) :
    w.objects id = none ∧ next = { w with
      objects := Function.update w.objects id (some object)
      count := w.count + 1
      created := w.created ++ object.holds } := by
  unfold construct at taken
  split at taken
  next => cases taken
  next vacant => exact ⟨vacant, (Except.ok.inj taken).symm⟩

theorem drive_ok {id : Nat} {driver : ModifyDriver}
    {call : (type : IbvQpType) → RdmaQp type → Modified (RdmaQp type)}
    (taken : w.drive id driver call = .ok next) :
    ∃ type this after, w.objects id = some (.qp type this) ∧
      (call type (this.view type w.qps)).result = .ok after ∧
      next = { w.record driver this (call type (this.view type w.qps)).calls with
        objects := Function.update w.objects id
          (some (.qp type { this with port := after.port })) } := by
  unfold drive at taken
  split at taken
  next type this lives =>
    simp only at taken
    split at taken
    next => cases taken
    next after ok =>
      refine ⟨type, this, after, lives, ok, ?_⟩
      rw [← Except.ok.inj taken, (w.record_keeps driver this _).1]
  next => cases taken

theorem step_change {action : Action} (taken : w.step action = .ok next) : Change w next := by
  cases action with
  | constructQp id ctx type implemented qpNum =>
    rw [step] at taken
    split at taken
    next => cases taken
    next made constructed =>
      obtain ⟨vacant, rfl⟩ := construct_ok constructed
      obtain rfl := Except.ok.inj taken
      exact .created id vacant (.qp type ctx) (some { qpNum, qpType := type }) (by simp)
  | constructCq id =>
    obtain ⟨vacant, rfl⟩ := construct_ok taken
    simpa using Change.created id vacant .cq none (by simp)
  | constructRegion id ctx device ptr size =>
    obtain ⟨vacant, rfl⟩ := construct_ok taken
    simpa using Change.created id vacant (.region ctx device ptr size) none (by simp)
  | moveConstruct id src =>
    rw [step] at taken
    split at taken
    next other vacant lives =>
      obtain rfl := Except.ok.inj taken
      exact .moved vacant lives
    next => cases taken
  | moveAssign dst src =>
    rw [step] at taken
    split at taken
    next this other target lives =>
      split at taken
      next => cases taken
      next =>
        split at taken
        next =>
          obtain rfl := Except.ok.inj taken
          exact .unchanged
        next apart =>
          obtain rfl := Except.ok.inj taken
          exact .assigned apart target lives
    next => cases taken
  | destroy id =>
    rw [step] at taken
    split at taken
    next this lives =>
      obtain rfl := Except.ok.inj taken
      exact .destroyed lives
    next => cases taken
  | bindPort id driver port =>
    rw [step] at taken
    obtain ⟨type, this, after, lives, ok, rfl⟩ := drive_ok taken
    exact .driven driver lives (.inl ⟨port, rfl⟩) ok
  | connect id driver remote port =>
    rw [step] at taken
    obtain ⟨type, this, after, lives, ok, rfl⟩ := drive_ok taken
    exact .driven driver lives (.inr ⟨remote, port, rfl⟩) ok
  | getInfo id | getQpInfo id | post id verb ret | postRange id verbs range ret =>
    rw [step] at taken
    obtain rfl := inspect_ok taken
    exact .unchanged

/-! ## How a process ends -/

/-- What an exit leaves to the driver: the world as it was, or the modifications of the call that
ended the process. -/
inductive Left (w : World) : World → Prop
  | same : Left w w
  | driven {id : Nat} {type : IbvQpType} {this : QpObject} (driver : ModifyDriver)
      {modified : Modified (RdmaQp type)} (lives : w.objects id = some (.qp type this))
      (call : (∃ port, modified = (this.view type w.qps).bindPort driver port) ∨
        ∃ remote port, modified = (this.view type w.qps).connect driver remote port) :
      Left w (w.record driver this modified.calls)

variable {exit : Exit}

theorem stop_left {e : Failure} (taken : w.stop e = .error exit) : Left w exit.world := by
  obtain rfl := Except.error.inj taken
  exact .same

theorem construct_left {id : Nat} {object : Object} (taken : w.construct id object = .error exit) :
    Left w exit.world := by
  unfold construct at taken
  split at taken
  next => exact stop_left taken
  next => cases taken

theorem inspect_left {α : Type} {id : Nat}
    {call : (type : IbvQpType) → RdmaQp type → Except Failure α}
    (taken : w.inspect id call = .error exit) : Left w exit.world := by
  unfold inspect at taken
  split at taken
  next =>
    split at taken
    next => exact stop_left taken
    next => cases taken
  next => exact stop_left taken

theorem drive_left {id : Nat} {driver : ModifyDriver}
    {call : (type : IbvQpType) → RdmaQp type → Modified (RdmaQp type)}
    (calls : ∀ type this, (∃ port, call type this = this.bindPort driver port) ∨
      ∃ remote port, call type this = this.connect driver remote port)
    (taken : w.drive id driver call = .error exit) : Left w exit.world := by
  unfold drive at taken
  split at taken
  next type this lives =>
    simp only at taken
    split at taken
    next =>
      obtain rfl := Except.error.inj taken
      exact .driven driver lives (calls type _)
    next => cases taken
  next => exact stop_left taken

theorem step_left {action : Action} (taken : w.step action = .error exit) : Left w exit.world := by
  cases action with
  | constructQp id ctx type implemented qpNum =>
    rw [step] at taken
    split at taken
    next other constructed =>
      obtain rfl := Except.error.inj taken
      exact construct_left constructed
    next => cases taken
  | constructCq id => exact construct_left taken
  | constructRegion id ctx device ptr size => exact construct_left taken
  | moveConstruct id src =>
    rw [step] at taken
    split at taken
    next => cases taken
    next => exact stop_left taken
  | moveAssign dst src =>
    rw [step] at taken
    split at taken
    next =>
      split at taken
      next => exact stop_left taken
      next =>
        split at taken
        next => cases taken
        next => cases taken
    next => exact stop_left taken
  | destroy id =>
    rw [step] at taken
    split at taken
    next => cases taken
    next => exact stop_left taken
  | bindPort id driver port =>
    rw [step] at taken
    exact drive_left (fun _ _ => .inl ⟨port, rfl⟩) taken
  | connect id driver remote port =>
    rw [step] at taken
    exact drive_left (fun _ _ => .inr ⟨remote, port, rfl⟩) taken
  | getInfo id | getQpInfo id | post id verb ret | postRange id verbs range ret =>
    rw [step] at taken
    exact inspect_left taken

end World

end Rdmalib2
