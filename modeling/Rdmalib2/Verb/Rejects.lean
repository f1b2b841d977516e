import Rdmalib2.Verb.Batch

set_option autoImplicit false

/-!
# What a batch refuses

The checks of a batch are spread over its loop and the requests it builds, some for the current
verb and some for the next one. All of them come before the driver is called.
-/

namespace Rdmalib2

open Shared

/-! ## Cached requests -/

-- A request is cached only of an opcode that `construct_wr` let through.
def RdmaVerb.CachedSendable (this : RdmaSendFamily) : Prop :=
  this.constructedWr = true → ∃ opcode, this.opcode = some opcode ∧ this.Sendable opcode

namespace RdmaVerb

theorem getWr_cachedSendable {this next : RdmaSendFamily} (sendable : this.CachedSendable)
    (built : this.getWr = .ok next) : next.CachedSendable := by
  intro _
  rw [getWr_config built]
  obtain ⟨_, _, rebuilt⟩ := getWr_ok built
  rcases rebuilt with ⟨cached, -⟩ | ⟨-, send, filled, -⟩
  · exact sendable cached
  · obtain ⟨opcode, present, allowed, -, -⟩ := VerbConfig.constructSend_ok filled
    exact ⟨opcode, present, allowed⟩

theorem cachedSendable_kept : KeptByCalls CachedSendable where
  construct _ cached := by cases cached
  ofSlices built := by
    obtain ⟨-, rfl⟩ := setSglEntry_ok _ built
    intro cached
    cases cached
  effect sendable effect := by
    cases effect with
    | unchanged => exact sendable
    | config c sgl length =>
      intro cached
      cases cached
    | slices base added start kept nonempty bound => exact sendable
    | built built => exact getWr_cachedSendable sendable built
  linked _ sendable := sendable

end RdmaVerb

theorem live_cachedSendable {actions : List (VerbAction .ibvExpSendWr)}
    {verbs : LiveVerbs .ibvExpSendWr} (ran : run LiveVerbs.step .empty actions = .ok verbs) :
    verbs.All RdmaVerb.CachedSendable :=
  run_invariant LiveVerbs.step (LiveVerbs.All RdmaVerb.CachedSendable)
    (fun _ _ _ all taken => LiveVerbs.step_all_of_relisted RdmaVerb.cachedSendable_kept
      (fun _ sendable _ => sendable) (fun sendable => sendable) all taken)
    actions (fun _ _ lives => by cases lives) ran

/-! ## Caught verbs -/

/-- What the checks of a post on a queue pair of the given type refuse. -/
inductive Caught (type : IbvQpType) (this : RdmaSendFamily) : Prop
  | noOpcode (missing : this.opcode = none)
  | incompatible {opcode : IbvExpWrOpcode} (present : this.opcode = some opcode)
      (rejected : qpVerbCompat type opcode = false)
  | noRemote {opcode : IbvExpWrOpcode} (present : this.opcode = some opcode)
      (needed : opcode.isSend = false) (missing : this.remote = none)
  | tooLarge {slice : RdmaMemorySlice} (stale : this.constructedRealSgl = false)
      (listed : slice ∈ this.sgl) (large : 2 ^ 32 - 1 < slice.size.toNat)
  | incapable {opcode : IbvExpWrOpcode} (stale : this.constructedWr = false)
      (present : this.opcode = some opcode) (atomic : opcode.isAtomic = true)
      (refused : this.isAtomicCapable = false)

section checks

variable {type : IbvQpType} {this next : RdmaSendFamily}

-- A request that can be built leaves only what the loop itself checks.
theorem Caught.of_getWr (sendable : this.CachedSendable) (caught : Caught type this)
    (built : this.getWr = .ok next) :
    ∃ opcode, this.opcode = some opcode ∧ qpVerbCompat type opcode = false := by
  have present := RdmaVerb.getWr_present built
  obtain ⟨listed, converted, rebuilt⟩ := RdmaVerb.getWr_ok built
  cases caught with
  | noOpcode missing => exact absurd ⟨rfl, missing⟩ present
  | incompatible present rejected => exact ⟨_, present, rejected⟩
  | @noRemote opcode present needed missing =>
    have after := RdmaVerb.getWr_cachedSendable sendable built (RdmaVerb.getWr_flags built).2
    rw [RdmaVerb.getWr_config built] at after
    obtain ⟨other, same, allowed⟩ := after
    obtain rfl : opcode = other := Option.some.inj (present.symm.trans same)
    rcases allowed with sent | ⟨given, -⟩
    · rw [needed] at sent
      cases sent
    · simp [missing] at given
  | @tooLarge slice stale member large =>
    rcases RdmaVerb.constructSgl_ok converted with ⟨cached, -⟩ | ⟨-, entries, mapped, -⟩
    · rw [stale] at cached
      cases cached
    · have small := (mapM_toSge_ok mapped).1 slice member
      exact absurd small (Nat.not_le.mpr large)
  | @incapable opcode stale present atomic refused =>
    rcases rebuilt with ⟨cached, -⟩ | ⟨-, send, filled, -⟩
    · rw [stale] at cached
      cases cached
    · obtain ⟨other, same, -, capable, -⟩ := VerbConfig.constructSend_ok filled
      obtain rfl : opcode = other := Option.some.inj (present.symm.trans same)
      rw [capable atomic] at refused
      cases refused

theorem chainable_error {e : Failure} (failed : chainable type this = .error e) :
    ∃ message args, e = .panic message args := by
  unfold chainable rdmalib2Assert at failed
  split at failed
  next => exact ⟨_, _, (Except.error.inj failed).symm⟩
  next =>
    split at failed
    next => cases failed
    next => exact ⟨_, _, (Except.error.inj failed).symm⟩

theorem VerbConfig.constructSend_panics {this : VerbConfig} {opcode : IbvExpWrOpcode} {e : Failure}
    (present : this.opcode = some opcode) (failed : this.constructSend = .error e) :
    ∃ message args, e = .panic message args := by
  unfold constructSend at failed
  cases remote : this.remote <;> cases opcode <;> cases capable : this.isAtomicCapable <;>
    simp [present, remote, capable, IbvExpWrOpcode.isSend, rdmalib2Assert, bind, Except.bind,
      pure, Except.pure] at failed <;> simp [← failed]

theorem getWr_panics {e : Failure} (failed : this.getWr = .error e) :
    ∃ message args, e = .panic message args := by
  cases present : this.opcode with
  | none =>
    rw [RdmaVerb.getWr, if_pos ⟨rfl, present⟩] at failed
    exact ⟨_, _, (Except.error.inj failed).symm⟩
  | some opcode =>
    rcases RdmaVerb.getWr_error failed with ⟨-, missing, -⟩ | ⟨-, unconverted⟩ | ⟨-, unfilled⟩
    · simp [present] at missing
    · have large : ¬ ∀ slice ∈ this.sgl, slice.Convertible := by
        intro small
        rw [mapM_toSge_eq small] at unconverted
        cases unconverted
      obtain ⟨args, oversized⟩ := mapM_toSge_error large
      exact ⟨_, args, Except.error.inj (unconverted.symm.trans oversized)⟩
    · exact VerbConfig.constructSend_panics present unfilled

end checks

/-! ## The loop -/

namespace LiveVerbs

variable {p : RdmaSendFamily → Prop} {verbs next : LiveVerbs .ibvExpSendWr} {id other target : Nat}

def Has (p : RdmaSendFamily → Prop) (verbs : LiveVerbs .ibvExpSendWr) (id : Nat) : Prop :=
  ∃ verb, verbs id = some verb ∧ p verb

theorem has_set {before after : RdmaSendFamily} (has : verbs.Has p id)
    (lives : verbs other = some before) (kept : p before → p after) :
    (verbs.set other after).Has p id := by
  obtain ⟨verb, found, holds⟩ := has
  by_cases same : id = other
  · subst same
    obtain rfl : verb = before := Option.some.inj (found.symm.trans lives)
    exact ⟨after, set_self verbs id after, kept holds⟩
  · exact ⟨verb, (set_other verbs after same).trans found, holds⟩

section kept

variable (rebuilt : ∀ {this next : RdmaSendFamily}, p this → this.getWr = .ok next → p next)
  (linked : ∀ {this : RdmaSendFamily} (next : Option Nat), p this → p { this with wr.next := next })

include rebuilt in
theorem getWr_has (has : verbs.Has p id) (built : verbs.getWr other = .ok next) :
    next.Has p id := by
  obtain ⟨verb, after, lives, requested, rfl⟩ := getWr_ok.mp built
  exact has_set has lives fun holds => rebuilt holds requested

include rebuilt linked in
theorem setNext_has (has : verbs.Has p id) (set : verbs.setNext other target = .ok next) :
    next.Has p id := by
  obtain ⟨mid, verb, requested, lives, rfl⟩ := setNext_ok.mp set
  exact has_set (getWr_has rebuilt has requested) lives (linked _)

include linked in
theorem clearNext_has (has : verbs.Has p id) (cleared : verbs.clearNext other = .ok next) :
    next.Has p id := by
  obtain ⟨verb, lives, rfl⟩ := clearNext_ok.mp cleared
  exact has_set has lives (linked none)

end kept

-- A verb within its lifetime.
def Lives (verbs : LiveVerbs .ibvExpSendWr) (id : Nat) : Prop := verbs.Has (fun _ => True) id

theorem fetch_lives {e : Failure} (live : verbs.Lives id) : verbs.fetch id ≠ .error e := by
  obtain ⟨verb, lives, -⟩ := live
  simp [fetch, lives]

theorem getWr_panics {e : Failure} (live : verbs.Lives id) (failed : verbs.getWr id = .error e) :
    ∃ message args, e = .panic message args := by
  unfold getWr at failed
  split at failed
  next unfetched => exact absurd unfetched (fetch_lives live)
  next =>
    split at failed
    next unbuilt => exact Rdmalib2.getWr_panics (Except.error.inj failed ▸ unbuilt)
    next => cases failed

theorem setNext_panics {e : Failure} (live : verbs.Lives id) (targetLives : verbs.Lives target)
    (failed : verbs.setNext id target = .error e) : ∃ message args, e = .panic message args := by
  unfold setNext at failed
  split at failed
  next unbuilt => exact getWr_panics targetLives (Except.error.inj failed ▸ unbuilt)
  next mid built =>
    have still : mid.Lives id := getWr_has (fun _ _ => trivial) live built
    split at failed
    next unfetched => exact absurd unfetched (fetch_lives still)
    next => cases failed

theorem clearNext_lives {e : Failure} (live : verbs.Lives id) : verbs.clearNext id ≠ .error e := by
  obtain ⟨verb, lives, -⟩ := live
  simp [clearNext, fetch, lives]

end LiveVerbs

section loop

variable {type : IbvQpType} {verbs after : LiveVerbs .ibvExpSendWr} {it : Nat} {rest range : List Nat}

-- What the link between a verb and the rest of the range is.
def linkTo (verbs : LiveVerbs .ibvExpSendWr) (it : Nat) :
    List Nat → Except Failure (LiveVerbs .ibvExpSendWr)
  | next :: _ => verbs.setNext it next
  | [] => verbs.clearNext it

theorem chainVerbs_cons (type : IbvQpType) (verbs : LiveVerbs .ibvExpSendWr) (it : Nat)
    (rest : List Nat) :
    chainVerbs type verbs (it :: rest) = (do
      chainable type (← verbs.fetch it)
      let verbs ← verbs.getWr it
      let verbs ← linkTo verbs it rest
      chainVerbs type verbs rest) := by
  cases rest <;> rfl

theorem chainVerbs_cons_ok (chained : chainVerbs type verbs (it :: rest) = .ok after) :
    ∃ verb built linked, verbs it = some verb ∧ chainable type verb = .ok () ∧
      verbs.getWr it = .ok built ∧ linkTo built it rest = .ok linked ∧
      chainVerbs type linked rest = .ok after := by
  rw [chainVerbs_cons] at chained
  obtain ⟨verb, fetched, chained⟩ := bind_ok.mp chained
  obtain ⟨_, able, chained⟩ := bind_ok.mp chained
  obtain ⟨built, requested, chained⟩ := bind_ok.mp chained
  obtain ⟨linked, joined, chained⟩ := bind_ok.mp chained
  exact ⟨verb, built, linked, LiveVerbs.fetch_ok.mp fetched, able, requested, joined, chained⟩

theorem linkTo_has {p : RdmaSendFamily → Prop}
    (rebuilt : ∀ {this next : RdmaSendFamily}, p this → this.getWr = .ok next → p next)
    (linked : ∀ {this : RdmaSendFamily} (next : Option Nat), p this →
      p { this with wr.next := next })
    {id : Nat} (has : verbs.Has p id) (joined : linkTo verbs it rest = .ok after) :
    after.Has p id := by
  cases rest with
  | nil => exact LiveVerbs.clearNext_has linked has joined
  | cons target tail => exact LiveVerbs.setNext_has rebuilt linked has joined

theorem linkTo_panics {e : Failure} (live : verbs.Lives it) (rest_live : ∀ id ∈ rest, verbs.Lives id)
    (failed : linkTo verbs it rest = .error e) : ∃ message args, e = .panic message args := by
  cases rest with
  | nil => exact absurd failed (LiveVerbs.clearNext_lives live)
  | cons target tail => exact LiveVerbs.setNext_panics live (rest_live target (by simp)) failed

theorem chainVerbs_panics {e : Failure} (live : ∀ id ∈ range, verbs.Lives id)
    (failed : chainVerbs type verbs range = .error e) : ∃ message args, e = .panic message args := by
  induction range generalizing verbs with
  | nil => cases failed
  | cons it rest ih =>
    obtain ⟨here, others⟩ := List.forall_mem_cons.mp live
    rw [chainVerbs_cons] at failed
    rcases bind_error.mp failed with unfetched | ⟨verb, fetched, failed⟩
    · exact absurd unfetched (LiveVerbs.fetch_lives here)
    rcases bind_error.mp failed with refused | ⟨_, able, failed⟩
    · exact chainable_error refused
    rcases bind_error.mp failed with unbuilt | ⟨built, requested, failed⟩
    · exact LiveVerbs.getWr_panics here unbuilt
    have still : ∀ id, verbs.Lives id → built.Lives id := fun _ lives =>
      LiveVerbs.getWr_has (fun _ _ => trivial) lives requested
    rcases bind_error.mp failed with unjoined | ⟨linked, joined, failed⟩
    · exact linkTo_panics (still it here) (fun id listed => still id (others id listed)) unjoined
    exact ih (fun id listed => linkTo_has (fun _ _ => trivial) (fun _ _ => trivial)
      (still id (others id listed)) joined) failed

/-- A verb that no loop of this type gets past. -/
structure Refused (type : IbvQpType) (this : RdmaSendFamily) : Prop where
  sendable : this.CachedSendable
  caught : Caught type this

theorem getWr_refused {this next : RdmaSendFamily} (refused : Refused type this)
    (built : this.getWr = .ok next) : Refused type next := by
  obtain ⟨opcode, present, rejected⟩ := refused.caught.of_getWr refused.sendable built
  refine ⟨RdmaVerb.getWr_cachedSendable refused.sendable built, .incompatible ?_ rejected⟩
  rw [RdmaVerb.getWr_config built, present]

theorem linked_refused {this : RdmaSendFamily} (next : Option Nat) (refused : Refused type this) :
    Refused type { this with wr.next := next } := by
  refine ⟨refused.sendable, ?_⟩
  cases refused.caught with
  | noOpcode missing => exact .noOpcode missing
  | incompatible present rejected => exact .incompatible present rejected
  | noRemote present needed missing => exact .noRemote present needed missing
  | tooLarge stale listed large => exact .tooLarge stale listed large
  | incapable stale present atomic refused => exact .incapable stale present atomic refused

theorem chainVerbs_refuses {id : Nat} (listed : id ∈ range) (refused : verbs.Has (Refused type) id) :
    chainVerbs type verbs range ≠ .ok after := by
  intro chained
  induction range generalizing verbs with
  | nil => cases listed
  | cons it rest ih =>
    obtain ⟨verb, built, linked, lives, able, requested, joined, chained⟩ := chainVerbs_cons_ok chained
    rcases List.mem_cons.mp listed with rfl | later
    · obtain ⟨found, same, refused⟩ := refused
      obtain rfl : verb = found := Option.some.inj (lives.symm.trans same)
      obtain ⟨other, next, alive, fresh, -⟩ := LiveVerbs.getWr_ok.mp requested
      obtain rfl : verb = other := Option.some.inj (lives.symm.trans alive)
      obtain ⟨opcode, present, rejected⟩ := refused.caught.of_getWr refused.sendable fresh
      simp [chainable, present, rejected, rdmalib2Assert] at able
    · have still := LiveVerbs.getWr_has getWr_refused refused requested
      exact ih later (linkTo_has getWr_refused linked_refused still joined) chained

end loop

/-- A batch with a caught verb at any position panics before the driver is called. -/
theorem batch_refuses_caught {actions : List (VerbAction .ibvExpSendWr)}
    {verbs : LiveVerbs .ibvExpSendWr} (ran : run LiveVerbs.step .empty actions = .ok verbs)
    (type : IbvQpType) (ret : Int) {range : List Nat} (live : ∀ id ∈ range, verbs.Lives id)
    {id : Nat} (listed : id ∈ range) (caught : verbs.Has (Caught type) id) :
    (postVerbs type ret verbs range).handed = none ∧
      ∃ message args, (postVerbs type ret verbs range).result = .error (.panic message args) := by
  obtain ⟨verb, lives, caught⟩ := caught
  have refused : verbs.Has (Refused type) id :=
    ⟨verb, lives, live_cachedSendable ran id verb lives, caught⟩
  unfold postVerbs
  cases chained : chainVerbs type verbs range with
  | ok after => exact absurd chained (chainVerbs_refuses listed refused)
  | error e =>
    obtain ⟨message, args, rfl⟩ := chainVerbs_panics live chained
    exact ⟨rfl, message, args, rfl⟩

end Rdmalib2
