import Rdmalib2.Objects.World

set_option autoImplicit false

/-!
# One action at a time

All that an action can do, with what has to hold before it.
-/

namespace Rdmalib2

namespace World

-- A new object comes to live under a number.
def place (w : World) (id : Nat) (object : Object) : World :=
  { w with
    objects := Function.update w.objects id (some object)
    count := w.count + 1
    created := w.created ++ object.holds }

def move (w : World) (src dst : Nat) (other : Object) : World :=
  { w with
    objects := Function.update (Function.update w.objects src (some other.moveConstruct.2)) dst
      (some other.moveConstruct.1) }

end World

-- The calls that may change the state of a queue pair.
inductive Action.Drives :
    Action → Nat → ModifyDriver → ((type : IbvQpType) → RdmaQp type → Modified (RdmaQp type)) → Prop
  | bindPort (id : Nat) (driver : ModifyDriver) (port : UInt8) :
      Drives (.bindPort id driver port) id driver fun _ this => this.bindPort driver port
  | connect (id : Nat) (driver : ModifyDriver) (remote : Info) (port : UInt8) :
      Drives (.connect id driver remote port) id driver fun _ this =>
        this.connect driver remote port

-- The calls that leave objects and queue pairs as they are.
inductive Action.Reads : Action → Prop
  | getInfo (id : Nat) : Reads (.getInfo id)
  | getQpInfo (id : Nat) : Reads (.getQpInfo id)
  | post (id : Nat) {W : Wr} (verb : RdmaVerb W) (ret : Int) : Reads (.post id verb ret)
  | postRange (id : Nat) (verbs : LiveVerbs .ibvExpSendWr) (range : List Nat) (ret : Int) :
      Reads (.postRange id verbs range ret)

inductive World.Taken (w : World) : Action → World → Prop
  | constructQp {id : Nat} (ctx : RdmaContext) {type : IbvQpType}
      (implemented : qpTypeImplemented type = true) (qpNum : UInt32) (vacant : w.objects id = none) :
      World.Taken w (.constructQp id ctx type implemented qpNum)
        { w.place id (.qp type { ctx, qp := some w.count }) with
          qps := Function.update w.qps w.count (some { qpNum, qpType := type }) }
  | constructCq {id : Nat} (vacant : w.objects id = none) :
      World.Taken w (.constructCq id) (w.place id (.cq { cq := some w.count }))
  | constructRegion {id : Nat} (ctx : RdmaContext) (device : Bool) (ptr size : UInt64)
      (vacant : w.objects id = none) :
      World.Taken w (.constructRegion id ctx device ptr size)
        (w.place id (.region
          { ctx, mr := some w.count, dm := if device then some w.count else none, ptr, size }))
  | moveConstruct {id src : Nat} {other : Object} (vacant : w.objects id = none)
      (lives : w.objects src = some other) : Taken w (.moveConstruct id src) (w.move src id other)
  | assignSelf (id : Nat) : Taken w (.moveAssign id id) w
  | moveAssign {dst src : Nat} {this other : Object} (apart : dst ≠ src)
      (target : w.objects dst = some this) (lives : w.objects src = some other) :
      World.Taken w (.moveAssign dst src) ((w.release this.destroy).move src dst other)
  | destroy {id : Nat} {this : Object} (lives : w.objects id = some this) :
      World.Taken w (.destroy id)
        { w.release this.destroy with objects := Function.update w.objects id none }
  | drive {action : Action} {id : Nat} {driver : ModifyDriver}
      {call : (type : IbvQpType) → RdmaQp type → Modified (RdmaQp type)}
      (drives : action.Drives id driver call) {type : IbvQpType} {this : QpObject}
      {after : RdmaQp type} (lives : w.objects id = some (.qp type this))
      (ok : (call type (this.view type w.qps)).result = .ok after) :
      Taken w action
        { w.record driver this (call type (this.view type w.qps)).calls with
          objects := Function.update w.objects id
            (some (.qp type { this with port := after.port })) }
  | read {action : Action} (reads : action.Reads) : Taken w action w

theorem World.drive_taken {w next : World} {action : Action} {id : Nat} {driver : ModifyDriver}
    {call : (type : IbvQpType) → RdmaQp type → Modified (RdmaQp type)}
    (drives : action.Drives id driver call) (taken : w.drive id driver call = .ok next) :
    World.Taken w action next := by
  obtain ⟨type, this, after, lives, ok, rfl⟩ := drive_ok taken
  exact .drive drives lives ok

theorem World.step_taken {w next : World} {action : Action} (taken : w.step action = .ok next) :
    World.Taken w action next := by
  cases action with
  | constructQp id ctx type implemented qpNum =>
    rw [step] at taken
    split at taken
    next => cases taken
    next made constructed =>
      obtain ⟨vacant, rfl⟩ := construct_ok constructed
      obtain rfl := Except.ok.inj taken
      exact .constructQp ctx implemented qpNum vacant
  | constructCq id =>
    obtain ⟨vacant, rfl⟩ := construct_ok taken
    exact .constructCq vacant
  | constructRegion id ctx device ptr size =>
    obtain ⟨vacant, rfl⟩ := construct_ok taken
    exact .constructRegion ctx device ptr size vacant
  | moveConstruct id src =>
    rw [step] at taken
    split at taken
    next other vacant lives =>
      obtain rfl := Except.ok.inj taken
      exact .moveConstruct vacant lives
    next => cases taken
  | moveAssign dst src =>
    rw [step] at taken
    split at taken
    next this other target lives =>
      split at taken
      next => cases taken
      next =>
        split at taken
        next same =>
          subst same
          obtain rfl := Except.ok.inj taken
          exact .assignSelf dst
        next apart =>
          obtain rfl := Except.ok.inj taken
          exact .moveAssign apart target lives
    next => cases taken
  | destroy id =>
    rw [step] at taken
    split at taken
    next this lives =>
      obtain rfl := Except.ok.inj taken
      exact .destroy lives
    next => cases taken
  | bindPort id driver port =>
    rw [step] at taken
    exact drive_taken (.bindPort id driver port) taken
  | connect id driver remote port =>
    rw [step] at taken
    exact drive_taken (.connect id driver remote port) taken
  | getInfo id =>
    rw [step] at taken
    obtain rfl := inspect_ok taken
    exact .read (.getInfo id)
  | getQpInfo id =>
    rw [step] at taken
    obtain rfl := inspect_ok taken
    exact .read (.getQpInfo id)
  | post id verb ret =>
    rw [step] at taken
    obtain rfl := inspect_ok taken
    exact .read (.post id verb ret)
  | postRange id verbs range ret =>
    rw [step] at taken
    obtain rfl := inspect_ok taken
    exact .read (.postRange id verbs range ret)

end Rdmalib2
