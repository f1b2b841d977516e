import Rdmalib2.Verb.Chain

set_option autoImplicit false

/-!
# What a batch ought to refuse

The test that an atomic has to pass looks at the recorded length, which an assignment does not
bring along. A list that no atomic can use is refused unless the length beside it hides that.
-/

namespace Rdmalib2

open Shared

-- What an atomic works on: eight bytes in one aligned slice.
def VerbConfig.SuitsAtomic (this : VerbConfig) : Prop :=
  ∃ slice, this.sgl = [slice] ∧ slice.size = 8 ∧ slice.isAligned = true

/-- What a post on a queue pair of the given type has to refuse. -/
inductive Offending (type : IbvQpType) (this : RdmaSendFamily) : Prop
  | noOpcode (missing : this.opcode = none)
  | incompatible {opcode : IbvExpWrOpcode} (present : this.opcode = some opcode)
      (rejected : qpVerbCompat type opcode = false)
  | noRemote {opcode : IbvExpWrOpcode} (present : this.opcode = some opcode)
      (needed : opcode.isSend = false) (missing : this.remote = none)
  | tooLarge {slice : RdmaMemorySlice} (stale : this.constructedRealSgl = false)
      (listed : slice ∈ this.sgl) (large : 2 ^ 32 - 1 < slice.size.toNat)
  | unsuitable {opcode : IbvExpWrOpcode} (stale : this.constructedWr = false)
      (present : this.opcode = some opcode) (atomic : opcode.isAtomic = true)
      (unsuitable : ¬ this.SuitsAtomic)

/-- An atomic still to be built, on one aligned slice of another size than the recorded length of
eight. -/
structure Disguised (this : RdmaSendFamily) : Prop where
  stale : this.constructedWr = false
  atomic : ∃ opcode, this.opcode = some opcode ∧ opcode.isAtomic = true
  length : this.length = 8
  single : ∃ slice, this.sgl = [slice] ∧ slice.isAligned = true ∧ slice.size ≠ 8

section verbs

variable {type : IbvQpType} {this : RdmaSendFamily}

theorem Disguised.offending (disguised : Disguised this) : Offending type this := by
  obtain ⟨opcode, present, atomic⟩ := disguised.atomic
  refine .unsuitable disguised.stale present atomic ?_
  rintro ⟨slice, single, size, -⟩
  obtain ⟨other, same, -, different⟩ := disguised.single
  obtain rfl : slice = other := by simpa [single] using same
  exact different size

-- What the checks miss is hidden by the length.
theorem Offending.caught_or_disguised (offending : Offending type this) :
    Caught type this ∨ Disguised this := by
  cases offending with
  | noOpcode missing => exact .inl (.noOpcode missing)
  | incompatible present rejected => exact .inl (.incompatible present rejected)
  | noRemote present needed missing => exact .inl (.noRemote present needed missing)
  | tooLarge stale listed large => exact .inl (.tooLarge stale listed large)
  | @unsuitable opcode stale present atomic unsuitable =>
    cases capable : this.isAtomicCapable with
    | false => exact .inl (.incapable stale present atomic capable)
    | true =>
      obtain ⟨slice, single, length, aligned⟩ := this.isAtomicCapable_iff.mp capable
      exact .inr ⟨stale, ⟨opcode, present, atomic⟩, length, slice, single, aligned,
        fun size => unsuitable ⟨slice, single, size, aligned⟩⟩

theorem qpVerbCompat_other (type : IbvQpType) (number : Nat) :
    qpVerbCompat type (.other number) = false := by
  cases type <;> rfl

theorem passes_of_not_caught (spared : ¬ Caught type this) : Passes type this := by
  cases present : this.opcode with
  | none => exact absurd (.noOpcode present) spared
  | some opcode =>
    have compatible : qpVerbCompat type opcode = true := by
      by_contra rejected
      exact spared (.incompatible present (by simpa using rejected))
    have sendable : this.Sendable opcode := by
      by_cases send : opcode.isSend = true
      · exact .inl send
      · refine .inr ⟨?_, ?_⟩
        · by_contra missing
          exact spared (.noRemote present (by simpa using send) (by simpa using missing))
        · rintro number rfl
          rw [qpVerbCompat_other] at compatible
          cases compatible
    refine ⟨by simp [chainable, present, compatible, rdmalib2Assert], ?_⟩
    cases built : this.getWr with
    | ok next => exact ⟨next, rfl⟩
    | error e =>
      rcases RdmaVerb.getWr_error built with ⟨-, missing, -⟩ | ⟨stale, failed⟩ | ⟨stale, failed⟩
      · simp [present] at missing
      · have small : ∀ slice ∈ this.sgl, slice.Convertible := by
          intro slice listed
          by_contra large
          exact spared (.tooLarge stale listed (Nat.not_le.mp large))
        rw [mapM_toSge_eq small] at failed
        cases failed
      · have capable : opcode.isAtomic = true → this.isAtomicCapable = true := by
          intro atomic
          by_contra refused
          exact spared (.incapable stale present atomic (by simpa using refused))
        change this.toVerbConfig.constructSend = .error e at failed
        rw [VerbConfig.constructSend_of_sendable present sendable capable] at failed
        cases failed

end verbs

section batch

variable {type : IbvQpType} {verbs : LiveVerbs .ibvExpSendWr} {range : List Nat}

theorem postVerbs_hands (ret : Int) {first : Nat} {rest : List Nat}
    (passes : ∀ id ∈ first :: rest, verbs.Has (Passes type) id) :
    ∃ handed, (postVerbs type ret verbs (first :: rest)).handed = some handed := by
  obtain ⟨linked, chained⟩ := chainVerbs_passing passes
  have still : linked.Has (Passes type) first :=
    chainVerbs_has getWr_passes linked_passes (passes first List.mem_cons_self) chained
  obtain ⟨handed, requested⟩ := LiveVerbs.getWr_passing still
  exact ⟨{ verbs := handed, head := first }, by simp [postVerbs, chained, requested]⟩

/-- If a verb of the range offends, the post panics and the driver is not given any request. -/
def RefusesOffending (type : IbvQpType) (ret : Int) (verbs : LiveVerbs .ibvExpSendWr)
    (range : List Nat) : Prop :=
  (∃ id ∈ range, verbs.Has (Offending type) id) →
    (postVerbs type ret verbs range).handed = none ∧
      ∃ message args, (postVerbs type ret verbs range).result = .error (.panic message args)

/-- In every state that a program can reach, a batch with an offending verb is refused exactly when
no verb of the range is in disguise or some verb of the range is caught. -/
theorem batch_refuses_iff {actions : List (VerbAction .ibvExpSendWr)}
    (ran : run LiveVerbs.step .empty actions = .ok verbs) (type : IbvQpType) (ret : Int)
    (live : ∀ id ∈ range, verbs.Lives id) :
    RefusesOffending type ret verbs range ↔
      ((∃ id ∈ range, verbs.Has Disguised id) → ∃ id ∈ range, verbs.Has (Caught type) id) := by
  constructor
  · rintro refuses ⟨id, listed, verb, lives, disguised⟩
    by_contra spared
    have passes : ∀ id ∈ range, verbs.Has (Passes type) id := by
      intro other member
      obtain ⟨found, alive, -⟩ := live other member
      refine ⟨found, alive, passes_of_not_caught fun caught => ?_⟩
      exact spared ⟨other, member, found, alive, caught⟩
    obtain ⟨none, -⟩ := refuses ⟨id, listed, verb, lives, disguised.offending⟩
    cases range with
    | nil => cases listed
    | cons first rest =>
      obtain ⟨handed, some⟩ := postVerbs_hands ret passes
      rw [none] at some
      cases some
  · rintro caught ⟨id, listed, verb, lives, offending⟩
    obtain ⟨other, member, has⟩ : ∃ id ∈ range, verbs.Has (Caught type) id := by
      rcases offending.caught_or_disguised with here | disguised
      · exact ⟨id, listed, verb, lives, here⟩
      · exact caught ⟨id, listed, verb, lives, disguised⟩
    exact batch_refuses_caught ran type ret live member has

end batch

-- A read without a remote slice at the end of a batch of three.
def readLast : List (VerbAction .ibvExpSendWr) :=
  [.construct 0 { wrId := 0, wr := {} }, .call 0 (.setOp .send), .construct 1 { wrId := 1, wr := {} },
    .call 1 (.setOp .send), .call 1 .getWr, .construct 2 { wrId := 2, wr := {} },
    .call 2 (.setOp .rdmaRead)]

theorem readLast_refused :
    ∃ verbs, run LiveVerbs.step .empty readLast = .ok verbs ∧
      (postVerbs .rc 0 verbs [0, 1, 2]).handed = none ∧
      ∃ message args, (postVerbs .rc 0 verbs [0, 1, 2]).result = .error (.panic message args) := by
  have ran : run LiveVerbs.step .empty readLast = .ok _ := rfl
  have needed : IbvExpWrOpcode.rdmaRead.isSend = false := rfl
  refine ⟨_, ran, (batch_refuses_iff ran .rc 0 ?_).mpr (fun _ => ?_) ?_⟩
  · intro id listed
    obtain rfl | rfl | rfl : id = 0 ∨ id = 1 ∨ id = 2 := by simpa using listed
    · exact ⟨_, rfl, trivial⟩
    · exact ⟨_, rfl, trivial⟩
    · exact ⟨_, rfl, trivial⟩
  · exact ⟨2, by decide, _, rfl, .noRemote rfl needed rfl⟩
  · exact ⟨2, by decide, _, rfl, .noRemote rfl needed rfl⟩

-- A compare-and-swap on a word gets a list of one slice of sixteen bytes from a verb assigned to it.
def widened : List (VerbAction .ibvExpSendWr) :=
  [.ofSlices 0 { wrId := 0, wr := {} } (word 0) [], .call 0 (.setOp .atomicCmpAndSwp),
    .call 0 (.setRemoteMemory { addr := 64, size := 8, rkey := 3 }),
    .ofSlices 1 { wrId := 1, wr := {} } { word 0 with size := 16 } [], .moveAssign 0 1]

def widenedVerbs : LiveVerbs .ibvExpSendWr :=
  (run LiveVerbs.step .empty widened).toOption.getD .empty

-- The driver is handed an atomic request with an entry of sixteen bytes.
theorem widened_posted :
    run LiveVerbs.step .empty widened = .ok widenedVerbs ∧
      ((postVerbs .rc 0 widenedVerbs [0]).handed.bind fun handed =>
          (handed.verbs handed.head).map RdmaVerb.request) =
        some { wrId := 0, numSge := 1, sgl := some [{ addr := 0x1000, length := 16, lkey := 1 }]
               send := { expOpcode := .atomicCmpAndSwp, wr := .atomic 64 3 0 0 } } ∧
      ¬ RefusesOffending .rc 0 widenedVerbs [0] := by
  refine ⟨rfl, rfl, fun refuses => ?_⟩
  have disguised : widenedVerbs.Has Disguised 0 :=
    ⟨_, rfl, rfl, ⟨_, rfl, rfl⟩, rfl, _, rfl, by decide, by decide⟩
  obtain ⟨verb, lives, here⟩ := disguised
  obtain ⟨none, -⟩ := refuses ⟨0, by decide, verb, lives, here.offending⟩
  cases none

end Rdmalib2
