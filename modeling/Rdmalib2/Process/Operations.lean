import Rdmalib2.Memory.SliceChain
import Rdmalib2.Objects.World
import Rdmalib2.Process.Construct

set_option autoImplicit false

/-!
# Failures and the parent process

Every public operation as an attempt: the answers that the driver gives it, and how it ends.
-/

namespace Rdmalib2

open Shared

/-! ## What a constructor yields

The objects that programs start from are the ones the constructors yield when the driver numbers
its handles by construction.
-/

theorem qp_constructed_fresh {number : Nat} {ctx : RdmaContext} {type : IbvQpType} {qpDepth : Int}
    {this : QpObject}
    (made : (QpObject.construct (some number) ctx type qpDepth).result = some (.ok this)) :
    Object.Fresh number (.qp type this) := by
  obtain rfl := Except.ok.inj (Option.some.inj made)
  exact .qp type ctx

theorem cq_constructed_fresh {number : Nat} {cqDepth : Int} {this : CqObject}
    (made : (CqObject.construct (some number) cqDepth).result = some (.ok this)) :
    Object.Fresh number (.cq this) := by
  obtain rfl := Except.ok.inj (Option.some.inj made)
  exact .cq

theorem region_constructed_fresh {number : Nat} {newZeroBuf device : Bool} {ctx : RdmaContext}
    {perm : UInt32} {ptr size : UInt64} {this : RegionObject}
    (made : (RegionObject.construct
      { allocDm := some number, regMr := some number, newZeroBuf } ctx device perm ptr size).result =
        some (.ok this)) :
    Object.Fresh number (.region this) := by
  cases device with
  | false =>
    obtain rfl := Except.ok.inj (Option.some.inj made)
    exact .region ctx false ptr size
  | true =>
    cases newZeroBuf with
    | false => cases Option.some.inj made
    | true =>
      obtain rfl := Except.ok.inj (Option.some.inj made)
      exact .region ctx true ptr size

/-! ## Modifications -/

-- What the driver returns for one modification after another.
def IbvQp.codes (driver : ModifyDriver) : IbvQp → List ModifyCall → List Int
  | _, [] => []
  | qp, call :: rest => driver qp call :: (qp.after driver [call]).codes driver rest

def Modified.attempt {α : Type} (modified : Modified α) (driver : ModifyDriver) (qp : IbvQp) :
    Attempt Unit where
  answers := (qp.codes driver modified.calls).map .code
  result := some (modified.result.map fun _ => ())

theorem silent_candid {α : Type} {driver : ModifyDriver} {qp : IbvQp} {modified : Modified α}
    (silent : modified.calls = []) : Candid (modified.attempt driver qp) :=
  Trial.heeds_of_unfailing (by simp [Modified.attempt, silent, IbvQp.codes])

theorem rung_candid {α : Type} {driver : ModifyDriver} {source target : IbvQpState} {qp : IbvQp}
    {step : IbvQp → Modified IbvQp} {rest : IbvQp → Modified α}
    (rung : Rung driver source target step)
    (later : ∀ next, Candid ((rest next).attempt driver next)) :
    Candid (((step qp).andThen rest).attempt driver qp) := by
  by_cases here : qp.state = source
  · obtain ⟨call, message, -, taken⟩ := rung.leaves qp here
    rw [taken]
    by_cases accepted : driver qp call = 0
    · have after : qp.after driver [call] = { qp with state := call.attr.qpState } := by
        simp [IbvQp.after, accepted]
      intro answer given failure
      simp only [Modified.attempt, Modified.andThen, modifyQp, accepted, ne_eq, not_true_eq_false,
        if_false, List.singleton_append, IbvQp.codes, after, List.map_cons, List.mem_cons] at given ⊢
      rcases given with rfl | given
      · cases failure
      · exact later _ answer given failure
    · intro answer given failure
      simp only [Modified.attempt, Modified.andThen, modifyQp, accepted, ne_eq, not_false_eq_true,
        if_true, IbvQp.codes, List.map_cons, List.map_nil, List.mem_singleton] at given ⊢
      subst given
      exact ⟨_, rfl, .errno trivial⟩
  · obtain ⟨e, blocked⟩ := rung.blocked qp here
    rw [blocked]
    exact silent_candid rfl

namespace RdmaQp

variable {type : IbvQpType}

-- A handle that has been moved away is not followed, so the driver is not asked.
def attempt {α : Type} (this : RdmaQp type) (driver : ModifyDriver) (modified : Modified α) :
    Attempt Unit :=
  match this.qp with
  | some qp => modified.attempt driver qp
  | none => { answers := [], result := some (modified.result.map fun _ => ()) }

theorem bindPort_candid (this : RdmaQp type) (driver : ModifyDriver) (port : UInt8) :
    Candid (this.attempt driver (this.bindPort driver port)) := by
  unfold attempt
  cases held : this.qp with
  | none => exact Trial.heeds_of_unfailing (by simp)
  | some qp =>
    by_cases drives : type = .ud ∨ type = .rawPacket
    · simp only [bindPort, drives, if_true, deref, held]
      refine rung_candid (rung_init type driver port 0x11111111) fun init => ?_
      refine rung_candid (rung_rtr type driver {} 0 0 _ _) fun rtr => ?_
      exact rung_candid (rung_rts type driver _) fun rts => silent_candid rfl
    · simp only [bindPort, drives, if_false]
      exact silent_candid rfl

theorem connect_candid (this : RdmaQp type) (driver : ModifyDriver) (remote : Info) (port : UInt8) :
    Candid (this.attempt driver (this.connect driver remote port)) := by
  unfold attempt
  cases held : this.qp with
  | none => exact Trial.heeds_of_unfailing (by simp)
  | some qp =>
    by_cases rc : qp.qpType = .rc
    · simp only [connect, deref, held, rc, ne_eq, not_true_eq_false, if_false]
      refine rung_candid (rung_init type driver port 0) fun init => ?_
      refine rung_candid (rung_rtr type driver _ _ _ _ _) fun rtr => ?_
      exact rung_candid (rung_rts type driver _) fun rts => silent_candid rfl
    · simp only [connect, deref, held, rc, ne_eq, not_false_eq_true, if_true]
      exact silent_candid rfl

end RdmaQp

/-! ## Posts -/

theorem code_candid {ret : Int} {result : Except Failure Unit}
    (refused : ret ≠ 0 → ∃ message args, result = .error (.panicWithErrno message args)) :
    Candid { answers := [.code ret], result := some result } := by
  refine unfailing_nil.candid_push fun failure => ?_
  obtain ⟨message, args, rfl⟩ := refused (by simpa [Answer.failed] using failure)
  exact ⟨_, rfl, .errno trivial⟩

theorem postFailed_errno (W : Wr) (ret : Int) :
    ∃ message args, postFailed W ret = .panicWithErrno message args := by
  cases W <;> exact ⟨_, _, rfl⟩

def Posted.attempt {α : Type} (posted : Posted α) (ret : Int) : Attempt Unit where
  answers := posted.submitted.map fun _ => .code ret
  result := some (posted.result.map fun _ => ())

theorem postVerb_candid (type : IbvQpType) (ret : Int) {W : Wr} (verb : RdmaVerb W) :
    Candid ((postVerb type ret verb).attempt ret) := by
  unfold postVerb
  split
  next => exact Trial.heeds_of_unfailing (by simp [Posted.attempt])
  next =>
    split
    next => exact Trial.heeds_of_unfailing (by simp [Posted.attempt])
    next =>
      refine code_candid fun refused => ?_
      obtain ⟨message, args, failed⟩ := postFailed_errno W ret
      exact ⟨message, args, by rw [if_pos refused, failed]; rfl⟩

def BatchPosted.attempt (posted : BatchPosted) (ret : Int) : Attempt Unit where
  answers := if posted.handed.isSome then [.code ret] else []
  result := some (posted.result.map fun _ => ())

theorem postVerbs_candid (type : IbvQpType) (ret : Int) (verbs : LiveVerbs .ibvExpSendWr)
    (range : List Nat) : Candid ((postVerbs type ret verbs range).attempt ret) := by
  unfold postVerbs
  split
  next => exact Trial.heeds_of_unfailing (by simp [BatchPosted.attempt])
  next =>
    split
    next => exact Trial.heeds_of_unfailing (by simp [BatchPosted.attempt])
    next =>
      split
      next => exact Trial.heeds_of_unfailing (by simp [BatchPosted.attempt])
      next =>
        refine code_candid fun refused => ?_
        obtain ⟨message, args, failed⟩ := postFailed_errno .ibvExpSendWr ret
        exact ⟨message, args, by rw [if_pos refused, failed]; rfl⟩

/-! ## Polls -/

theorem checkStatus_errno {i : Nat} {entries : List IbvWc} {e : Failure}
    (failed : checkStatus i entries = .error e) :
    ∃ message args, e = .panicWithErrno message args := by
  induction entries generalizing i with
  | nil => cases failed
  | cons wc rest ih =>
    unfold checkStatus at failed
    split at failed
    next => exact ⟨_, _, (Except.error.inj failed).symm⟩
    next => exact ih failed

theorem doPoll_ends {reply : PollReply} {e : Failure} (failed : doPoll reply = .error e) :
    (Answer.completions reply).Ends e := by
  unfold doPoll at failed
  split at failed
  next surplus =>
    obtain rfl := Except.error.inj failed
    exact .overrun (Nat.not_le.mpr surplus)
  next room =>
    split at failed
    next other checked =>
      obtain rfl := Except.error.inj failed
      obtain ⟨message, args, rfl⟩ := checkStatus_errno checked
      exact .errno (Nat.not_lt.mp room)
    next => cases failed

def polledAnswers (log : List PollTurn) : List Answer := log.map fun turn => .completions turn.reply

theorem polledAnswers_push (log : List PollTurn) (request : Int) (reply : PollReply)
    (stores : List Int) :
    polledAnswers (log ++ [⟨request, reply, stores⟩]) = polledAnswers log ++ [.completions reply] := by
  simp [polledAnswers]

def Polled.attempt {δ : Type} (polled : Polled δ) : Attempt Unit where
  answers := polledAnswers polled.log
  result := polled.result.map fun result => result.map fun _ => ()

theorem poll_turn_candid {δ : Type} (fn : PollFn) (driver : CqDriver δ) (numEntries : Int)
    {s : Polling δ} (before : Unfailing (polledAnswers s.log)) :
    (fn.turn driver numEntries s).Holds (fun s => Unfailing (polledAnswers s.log))
      fun ended => Candid { answers := polledAnswers ended.1.log, result := some ended.2 } := by
  have accepted : ∀ {reply : PollReply}, doPoll reply = .ok reply.ret →
      Unfailing (polledAnswers s.log ++ [.completions reply]) :=
    fun polled => before.push (by simpa [Answer.failed] using (doPoll_ok.mp polled).2.2)
  refine PollFn.turn_holds ?_ ?_ ?_ ?_
  · exact fun _ => before.candid _
  · intro reply cq e _ _ refused
    rw [polledAnswers_push]
    exact before.candid_push fun _ => ⟨e, rfl, doPoll_ends refused⟩
  · intro reply cq e _ _ polled _
    rw [polledAnswers_push]
    exact (accepted polled).candid _
  · intro reply cq ret _ _ polled _
    simp only [polledAnswers_push]
    exact ⟨fun _ => (accepted polled).candid _, fun _ => accepted polled⟩

theorem poll_candid {δ : Type} (fn : PollFn) (driver : CqDriver δ) (fuel : Nat) (numEntries : Int)
    (cq : δ) : Candid (fn.call driver fuel numEntries cq).attempt := by
  unfold PollFn.call
  split
  next => exact unfailing_nil.candid _
  next =>
    have start : Unfailing (polledAnswers (fn.start numEntries cq).log) := unfailing_nil
    have ended := iterate_holds _ _ _
      (fun s before => poll_turn_candid fn driver numEntries (s := s) before)
      (fn.turns fuel numEntries) start
    generalize iterate (fn.turn driver numEntries) (fn.turns fuel numEntries)
      (fn.start numEntries cq) = last at ended ⊢
    rcases last with s | ⟨s, e | ⟨⟩⟩
    · exact Unfailing.candid ended _
    · exact ended
    · intro answer given failure
      obtain ⟨e, impossible, -⟩ := ended answer given failure
      cases impossible

/-! ## Operations -/

inductive Operation where
  | context (driver : ContextDriver) (fuel : Nat) (devName : String)
  | hintedContext (driver : ContextDriver) (fuel : Nat) (devName : String) (compMask : UInt32)
  | region (driver : RegionDriver) (ctx : RdmaContext) (device : Bool) (perm : UInt32)
      (ptr size : UInt64)
  | cq (createCq : Option Nat) (cqDepth : Int)
  | qp (createQp : Option Nat) (ctx : RdmaContext) (type : IbvQpType) (qpDepth : Int)
  | bindPort (driver : ModifyDriver) {type : IbvQpType} (this : RdmaQp type) (port : UInt8)
  | connect (driver : ModifyDriver) {type : IbvQpType} (this : RdmaQp type) (remote : Info)
      (port : UInt8)
  | cmConnect (driver : ModifyDriver) (rpc : Info → Info) (this : RdmaQp .rc)
  | post (type : IbvQpType) (ret : Int) {W : Wr} (verb : RdmaVerb W)
  | postRange (type : IbvQpType) (ret : Int) (verbs : LiveVerbs .ibvExpSendWr) (range : List Nat)
  | poll (fn : PollFn) {δ : Type} (driver : CqDriver δ) (fuel : Nat) (numEntries : Int) (cq : δ)
  | slice (this : RdmaMemorySlice) (call : SliceCall)
  | sliceRegion (this : RdmaMemoryRegion) (call : SliceCall)

namespace Operation

-- An operation without what it returns.
def discard {α : Type} (attempt : Attempt α) : Attempt Unit where
  answers := attempt.answers
  result := attempt.result.map fun result => result.map fun _ => ()

def checked {α : Type} (result : Except Failure α) : Attempt Unit where
  answers := []
  result := some (result.map fun _ => ())

def attempt : Operation → Attempt Unit
  | .context driver fuel devName => discard (RdmaContext.construct driver fuel devName)
  | .hintedContext driver fuel devName compMask =>
      discard (RdmaContext.constructHinted driver fuel devName compMask)
  | .region driver ctx device perm ptr size =>
      discard (RegionObject.construct driver ctx device perm ptr size)
  | .cq createCq cqDepth => discard (CqObject.construct createCq cqDepth)
  | .qp createQp ctx type qpDepth => discard (QpObject.construct createQp ctx type qpDepth)
  | .bindPort driver this port => this.attempt driver (this.bindPort driver port)
  | .connect driver this remote port => this.attempt driver (this.connect driver remote port)
  | .cmConnect driver rpc this => this.attempt driver (Rdmalib2.cmConnect driver rpc this)
  | .post type ret verb => (postVerb type ret verb).attempt ret
  | .postRange type ret verbs range => (postVerbs type ret verbs range).attempt ret
  | .poll fn driver fuel numEntries queue => (fn.call driver fuel numEntries queue).attempt
  | .slice this call => checked (call.apply this)
  | .sliceRegion this call => checked (call.applyRegion this)

theorem discard_candid {α : Type} {attempt : Attempt α} (candid : Candid attempt) :
    Candid (discard attempt) := by
  intro answer given failure
  obtain ⟨e, ended, belongs⟩ := candid answer given failure
  exact ⟨e, by rw [discard, ended]; rfl, belongs⟩

theorem checked_candid {α : Type} (result : Except Failure α) : Candid (checked result) :=
  Trial.heeds_of_unfailing (by simp [checked])

theorem attempt_candid (op : Operation) : Candid op.attempt := by
  cases op with
  | context driver fuel devName =>
    exact discard_candid (RdmaContext.construct_candid driver fuel devName)
  | hintedContext driver fuel devName compMask =>
    exact discard_candid (RdmaContext.constructHinted_candid driver fuel devName compMask)
  | region driver ctx device perm ptr size =>
    exact discard_candid (RegionObject.construct_candid driver ctx device perm ptr size)
  | cq createCq cqDepth => exact discard_candid (CqObject.construct_candid createCq cqDepth)
  | qp createQp ctx type qpDepth =>
    exact discard_candid (QpObject.construct_candid createQp ctx type qpDepth)
  | bindPort driver this port => exact this.bindPort_candid driver port
  | connect driver this remote port => exact this.connect_candid driver remote port
  | cmConnect driver rpc this =>
    simp only [attempt, Rdmalib2.cmConnect]
    split
    next e failed =>
      unfold RdmaQp.attempt
      split
      next => exact silent_candid rfl
      next => exact Trial.heeds_of_unfailing (by simp)
    next selfInfo given => exact this.connect_candid driver (rpc selfInfo) 1
  | post type ret verb => exact postVerb_candid type ret verb
  | postRange type ret verbs range => exact postVerbs_candid type ret verbs range
  | poll fn driver fuel numEntries queue => exact poll_candid fn driver fuel numEntries queue
  | slice this call => exact checked_candid _
  | sliceRegion this call => exact checked_candid _

end Operation

/-- No failure of an operation looks like success exactly when, after each failure of the driver,
`errno` is not a multiple of 256 and the answer has not been written past its buffer. -/
theorem failures_visible_iff (op : Operation) (errno : Errno) :
    op.attempt.FailsVisibly errno ↔ ∀ answer ∈ op.attempt.answers, answer.failed = true →
      answer.fits ∧ errno.atExit op.attempt.answers.length % 256 ≠ 0 :=
  Attempt.failsVisibly_iff op.attempt_candid errno

/-! ## Failures that look like success -/

def LooksFine (op : Operation) (errno : Errno) : Prop :=
  (∃ answer ∈ op.attempt.answers, answer.failed = true) ∧ op.attempt.exitStatus errno = some 0

instance (op : Operation) (errno : Errno) : Decidable (LooksFine op errno) :=
  inferInstanceAs (Decidable (_ ∧ _))

theorem LooksFine.not_visible {op : Operation} {errno : Errno} (fine : LooksFine op errno) :
    ¬ op.attempt.FailsVisibly errno := by
  obtain ⟨⟨answer, given, failure⟩, zero⟩ := fine
  intro visible
  obtain ⟨status, exits, nonzero⟩ := visible.driver answer given failure
  exact nonzero (Option.some.inj (exits.symm.trans zero))

-- It returns `EINVAL` for every modification and leaves `errno` alone.
def refusing : ModifyDriver := fun _ _ => 22

-- One completion, with a flush error.
def flushing : CqDriver Unit where
  poll _ k := (.completed (List.replicate (min 1 k.toNat)
    { wrId := 0, status := .error 5, opcode := 0, byteLen := 0, immData := 0 }), ())
  within _ k := by simp [PollReply.entries]

def refusedConnect : Operation :=
  .connect refusing freshQp { gid := {}, lid := 12, qpNum := 9, psn := 3000 } 1

def flushedPoll : Operation := .poll .poll flushing 1 1 ()

-- The device that is asked for is not there; nothing else is asked.
def missingDevice : Operation :=
  .context
    { getDeviceList := some ["mlx5_0"]
      openDevice := fun _ => none
      allocPd := none
      queryDevice := (0, 0)
      queryPort := fun _ _ => { ret := 0, attr := { lid := 0 }, gidTblLen := 0 }
      queryGid := fun _ _ _ => { ret := 0, gid := {} }
      createResDomain := none } 1 "mlx5_1"

theorem failures_look_fine :
    refusedConnect.attempt.exitStatus { before := 0 } = some 0 ∧
      flushedPoll.attempt.exitStatus { before := 0 } = some 0 ∧
      missingDevice.attempt.exitStatus { before := 0 } = some 0 ∧
      ¬ refusedConnect.attempt.FailsVisibly { before := 0 } ∧
      ¬ flushedPoll.attempt.FailsVisibly { before := 0 } ∧
      ¬ missingDevice.attempt.FailsVisibly { before := 0 } := by
  refine ⟨rfl, rfl, rfl, LooksFine.not_visible ?_, LooksFine.not_visible ?_,
    LooksFine.not_visible ?_⟩
  · decide
  · decide
  · decide

end Rdmalib2
