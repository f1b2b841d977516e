import Rdmalib2.Objects.Ownership

set_option autoImplicit false

/-!
# What a move carries over

The move constructor takes the context and the handle and leaves the port at its initialiser.
-/

namespace Rdmalib2

open Shared

/-! ## The port -/

namespace RdmaQp

variable {type : IbvQpType} {this : RdmaQp type}

-- Seen through both lookups, the port is like port 1.
def LikeFirstPort (this : RdmaQp type) : Prop :=
  this.ctx.getGid this.port = this.ctx.getGid 1 ∧
    this.ctx.getPortLid this.port = this.ctx.getPortLid 1

-- Without a handle the lookups only have to succeed.
def PortIrrelevant (this : RdmaQp type) : Prop :=
  this.qp = none ∧ this.ctx.HasPort this.port ∧ this.ctx.HasPort 1

theorem portAttr_error {ctx : RdmaContext} {port : UInt8} {e : Failure}
    (failed : ctx.portAttr port = .error e) : e ≠ .undefined "null queue pair" := by
  unfold RdmaContext.portAttr at failed
  split at failed
  next =>
    obtain rfl := Except.error.inj failed
    simp
  next =>
    split at failed
    next =>
      obtain rfl := Except.error.inj failed
      decide
    next =>
      split at failed
      next => cases failed
      next =>
        obtain rfl := Except.error.inj failed
        decide

theorem info_unchanged_iff (this : RdmaQp type) :
    ({ this with port := 1 } : RdmaQp type).getInfo = this.getInfo ∧
        ({ this with port := 1 } : RdmaQp type).getQpInfo = this.getQpInfo ↔
      this.LikeFirstPort ∨ this.PortIrrelevant := by
  have exists_port : this.ctx.HasPort this.port ↔ ∃ attr, this.ctx.portAttr this.port = .ok attr :=
    RdmaContext.portAttr_ok.symm
  have exists_first : this.ctx.HasPort 1 ↔ ∃ attr, this.ctx.portAttr 1 = .ok attr :=
    RdmaContext.portAttr_ok.symm
  simp only [LikeFirstPort, PortIrrelevant, exists_port, exists_first, getInfo, getQpInfo, deref,
    RdmaContext.getGid, RdmaContext.getPortLid]
  cases own : this.ctx.portAttr this.port with
  | error e =>
    have defined := portAttr_error own
    cases first : this.ctx.portAttr 1 with
    | error other => simp [Except.map, bind, Except.bind, eq_comm]
    | ok attr =>
      cases held : this.qp <;> simp [Except.map, bind, Except.bind, pure, Except.pure, defined.symm]
  | ok own =>
    cases first : this.ctx.portAttr 1 with
    | error other =>
      have defined := portAttr_error first
      cases held : this.qp <;> simp [Except.map, bind, Except.bind, pure, Except.pure, defined]
    | ok attr =>
      cases held : this.qp <;>
        simp [Except.map, bind, Except.bind, pure, Except.pure, eq_comm, and_comm]

end RdmaQp

/-! ## Chains of moves -/

-- A move out of the object that has the queue pair now, into a new object or one that lives.
inductive Hop where
  | construct (id : Nat)
  | assign (dst : Nat)
  deriving DecidableEq, Repr

-- The world and the object that a chain of moves ends with.
def World.follow (w : World) (src : Nat) : List Hop → Except Exit (World × Nat)
  | [] => .ok (w, src)
  | .construct id :: rest =>
      match w.step (.moveConstruct id src) with
      | .error exit => .error exit
      | .ok next => next.follow id rest
  | .assign dst :: rest =>
      match w.step (.moveAssign dst src) with
      | .error exit => .error exit
      | .ok next => next.follow dst rest

/-- The last object of a chain has the first one's context and queue pair, and its port only if
every hop was a self-assignment. -/
structure Carried (w : World) (src : Nat) (this : QpObject) (hops : List Hop) (after : World)
    (object : QpObject) : Prop where
  object : object =
    { this with port := if ∀ hop ∈ hops, hop = .assign src then this.port else 1 }
  kept : ∀ number ∈ this.qp, after.qps number = w.qps number

namespace World

variable {w next : World} {src dst : Nat} {type : IbvQpType} {this : QpObject}

-- The queue pair of one object does not go when another object is destroyed.
theorem release_keeps (owned : Owned w) (apart : dst ≠ src)
    (lives : w.objects src = some (.qp type this)) {other : Object}
    (target : w.objects dst = some other) :
    ∀ number ∈ this.qp, (w.release other.destroy).qps number = w.qps number := by
  intro number held
  have holds : .qp number ∈ heldBy w.objects src := by
    rw [heldBy_of_lives lives]
    simpa [Object.holds] using held
  have unheld : .qp number ∉ other.destroy := by
    rw [other.destroy_eq, ← heldBy_of_lives target]
    exact fun also => owned.linear.apart dst src apart also holds
  simp [release, unheld]

theorem moveConstruct_carries (lives : w.objects src = some (.qp type this))
    (taken : w.step (.moveConstruct dst src) = .ok next) :
    next.objects dst = some (.qp type { ctx := this.ctx, qp := this.qp }) ∧ next.qps = w.qps := by
  rw [step, lives] at taken
  split at taken
  next other vacant same =>
    obtain rfl := Option.some.inj same
    obtain rfl := Except.ok.inj taken
    exact ⟨Function.update_self .., rfl⟩
  next => cases taken

theorem moveAssign_carries (owned : Owned w) (lives : w.objects src = some (.qp type this))
    (apart : dst ≠ src) (taken : w.step (.moveAssign dst src) = .ok next) :
    next.objects dst = some (.qp type { ctx := this.ctx, qp := this.qp }) ∧
      ∀ number ∈ this.qp, next.qps number = w.qps number := by
  rw [step, lives] at taken
  split at taken
  next target other found same =>
    obtain rfl := Option.some.inj same
    split at taken
    next => cases taken
    next =>
      obtain rfl := Except.ok.inj taken
      exact ⟨Function.update_self .., release_keeps owned apart lives found⟩
  next => cases taken

theorem moveAssign_self (taken : w.step (.moveAssign src src) = .ok next) : next = w := by
  rw [step] at taken
  split at taken
  next =>
    split at taken
    next => cases taken
    next =>
      rw [if_pos rfl] at taken
      exact (Except.ok.inj taken).symm
  next => cases taken

theorem step_owned {action : Action} (owned : Owned w) (taken : w.step action = .ok next) :
    Owned next :=
  (step_change taken).transfer.owned owned

theorem follow_carries {hops : List Hop} {after : World} {last : Nat} (owned : Owned w)
    (lives : w.objects src = some (.qp type this)) (followed : w.follow src hops = .ok (after, last)) :
    ∃ object, after.objects last = some (.qp type object) ∧ Carried w src this hops after object := by
  induction hops generalizing w src this with
  | nil =>
    obtain ⟨rfl, rfl⟩ := Prod.mk.inj (Except.ok.inj followed)
    exact ⟨this, lives, by simp, fun _ _ => rfl⟩
  | cons hop rest ih =>
    -- After a hop to another object the port is the initialiser, and later hops keep it.
    have onward : ∀ {mid : World} {id : Nat}, hop ≠ .assign src → Owned mid →
        mid.objects id = some (.qp type { ctx := this.ctx, qp := this.qp }) →
        (∀ number ∈ this.qp, mid.qps number = w.qps number) → mid.follow id rest = .ok (after, last) →
        ∃ object, after.objects last = some (.qp type object) ∧
          Carried w src this (hop :: rest) after object := by
      intro mid id elsewhere owned moved same followed
      obtain ⟨object, found, carried⟩ := ih owned moved followed
      refine ⟨object, found, ?_, fun number held => ?_⟩
      · rw [carried.object]
        simp [elsewhere]
      · exact (carried.kept number held).trans (same number held)
    cases hop with
    | construct id =>
      rw [follow] at followed
      split at followed
      next => cases followed
      next mid taken =>
        obtain ⟨moved, same⟩ := moveConstruct_carries lives taken
        exact onward (by simp) (step_owned owned taken) moved (fun _ _ => by rw [same]) followed
    | assign dst =>
      rw [follow] at followed
      split at followed
      next => cases followed
      next mid taken =>
        by_cases self : dst = src
        · subst self
          obtain rfl := moveAssign_self taken
          obtain ⟨object, found, carried⟩ := ih owned lives followed
          refine ⟨object, found, ?_, carried.kept⟩
          rw [carried.object]
          simp
        · obtain ⟨moved, same⟩ := moveAssign_carries owned lives self taken
          exact onward (by simpa using self) (step_owned owned taken) moved same followed

end World

/-! ## Transparency -/

-- The queue pair a post names, and the lists of requests it passes on.
def RdmaQp.postCalls {type : IbvQpType} (this : RdmaQp type) {W : Wr} (verb : RdmaVerb W)
    (ret : Int) : Option IbvQp × List (List Request) :=
  (this.qp, (postVerb type ret verb).submitted)

def RdmaQp.postRangeCalls {type : IbvQpType} (this : RdmaQp type)
    (verbs : LiveVerbs .ibvExpSendWr) (range : List Nat) (ret : Int) :
    Option IbvQp × Option Handed :=
  (this.qp, (postVerbs type ret verbs range).handed)

/-- The two objects answer alike and issue the same driver calls. -/
structure Alike {type : IbvQpType} (original final : RdmaQp type) : Prop where
  getQp : final.qp = original.qp
  getInfo : final.getInfo = original.getInfo
  getQpInfo : final.getQpInfo = original.getQpInfo
  connect : ∀ driver remote port,
    (final.connect driver remote port).calls = (original.connect driver remote port).calls
  post : ∀ {W : Wr} (verb : RdmaVerb W) (ret : Int),
    final.postCalls verb ret = original.postCalls verb ret
  postRange : ∀ verbs range ret,
    final.postRangeCalls verbs range ret = original.postRangeCalls verbs range ret

theorem connect_calls {type : IbvQpType} (this : RdmaQp type) (port : UInt8) (driver : ModifyDriver)
    (remote : Info) (through : UInt8) :
    (RdmaQp.connect driver ({ this with port } : RdmaQp type) remote through).calls =
      (this.connect driver remote through).calls := by
  unfold RdmaQp.connect RdmaQp.deref Modified.andThen
  cases held : this.qp with
  | none => rfl
  | some qp =>
    simp only
    split
    next => rfl
    next =>
      cases (modifyQpToInit type driver qp through 0).result with
      | error e => rfl
      | ok init =>
        simp only
        cases (modifyQpToRtr type driver init remote.gid remote.lid remote.qpNum remote.psn
          through.toUInt32).result with
        | error e => rfl
        | ok rtr =>
          simp only
          cases (modifyQpToRts type driver rtr RdmaQp.universalInitPsn).result <;> rfl

theorem alike_first_port_iff {type : IbvQpType} (this : RdmaQp type) :
    Alike this { this with port := 1 } ↔ this.LikeFirstPort ∨ this.PortIrrelevant := by
  rw [← this.info_unchanged_iff]
  constructor
  · exact fun alike => ⟨alike.getInfo, alike.getQpInfo⟩
  · rintro ⟨info, qpInfo⟩
    exact ⟨rfl, info, qpInfo, connect_calls this 1, fun _ _ => rfl, fun _ _ _ => rfl⟩

/-- After any chain of moves in any program, the last object has the first one's pointer, and is
like the first was exactly when every hop assigned the object to itself or the port cannot be told
from port 1. -/
theorem moves_transparent_iff {actions : List Action} {w : World}
    (ran : run World.step {} actions = .ok w) {src : Nat} {type : IbvQpType} {this : QpObject}
    (lives : w.objects src = some (.qp type this)) {hops : List Hop} {after : World} {last : Nat}
    (followed : w.follow src hops = .ok (after, last)) :
    ∃ object, after.objects last = some (.qp type object) ∧ object.qp = this.qp ∧
      (Alike (this.view type w.qps) (object.view type after.qps) ↔
        (∀ hop ∈ hops, hop = .assign src) ∨ (this.view type w.qps).LikeFirstPort ∨
          (this.view type w.qps).PortIrrelevant) := by
  obtain ⟨object, found, carried⟩ := World.follow_carries (run_owned ran).1 lives followed
  refine ⟨object, found, by rw [carried.object], ?_⟩
  have kept : this.qp.bind after.qps = this.qp.bind w.qps := by
    cases held : this.qp with
    | none => rfl
    | some number => exact carried.kept number held
  rw [carried.object]
  by_cases stayed : ∀ hop ∈ hops, hop = .assign src
  · rw [if_pos stayed]
    have same : QpObject.view type after.qps this = this.view type w.qps := by
      simp [QpObject.view, kept]
    refine iff_of_true ?_ (.inl stayed)
    rw [same]
    exact ⟨rfl, rfl, rfl, fun _ _ _ => rfl, fun _ _ => rfl, fun _ _ _ => rfl⟩
  · rw [if_neg stayed]
    have moved : QpObject.view type after.qps { this with port := 1 } =
        { this.view type w.qps with port := 1 } := by
      simp [QpObject.view, kept]
    rw [moved, alike_first_port_iff]
    simp [stayed]

-- A queue pair on port 1 that moves into a new object and then onto one that has its own.
theorem first_port_moves :
    ∃ w after object, run World.step {}
        [.constructQp 0 twoPorts .rc rfl 7, .constructQp 1 twoPorts .rc rfl 8] = .ok w ∧
      w.follow 0 [.construct 2, .assign 1] = .ok (after, 1) ∧
      after.objects 1 = some (.qp .rc object) ∧ object.qp = some 0 ∧
      Alike (QpObject.view .rc w.qps { ctx := twoPorts, qp := some 0 })
        (object.view .rc after.qps) := by
  have ran : run World.step {}
      [.constructQp 0 twoPorts .rc rfl 7, .constructQp 1 twoPorts .rc rfl 8] = .ok _ := rfl
  obtain ⟨object, found, same, alike⟩ :=
    @moves_transparent_iff _ _ ran 0 .rc { ctx := twoPorts, qp := some 0 } rfl
      [.construct 2, .assign 1] _ _ rfl
  exact ⟨_, _, object, ran, rfl, found, same, alike.mpr (.inr (.inl ⟨rfl, rfl⟩))⟩

-- Bound to port 2 and moved once, it gives out the LID of port 1.
theorem second_port_forgotten :
    ∃ w after object, run World.step {}
        [.constructQp 0 twoPorts .rc rfl 7, .bindPort 0 accepting 2] = .ok w ∧
      w.follow 0 [.construct 1] = .ok (after, 1) ∧ after.objects 1 = some (.qp .rc object) ∧
      (QpObject.view .rc w.qps { ctx := twoPorts, qp := some 0, port := 2 }).getInfo =
        .ok { gid := { interfaceId := 0xa1 }, lid := 12, qpNum := 7, psn := 3000 } ∧
      (object.view .rc after.qps).getInfo =
        .ok { gid := { interfaceId := 0xa1 }, lid := 11, qpNum := 7, psn := 3000 } ∧
      ¬ Alike (QpObject.view .rc w.qps { ctx := twoPorts, qp := some 0, port := 2 })
        (object.view .rc after.qps) := by
  refine ⟨_, _, { ctx := twoPorts, qp := some 0 }, rfl, rfl, rfl, rfl, rfl, fun alike => ?_⟩
  exact absurd alike.getInfo (by decide)

end Rdmalib2
