import Rdmalib2.Cq.Turns
import Rdmalib2.Shared.Trial

set_option autoImplicit false

/-!
# Exit statuses

What the parent process sees of a failure, and which answers of the driver are failures.
-/

namespace Rdmalib2

open Shared

-- The parent sees the low byte of what is passed to `exit`. A process without a status is ended
-- by a signal, or goes anywhere.
def Failure.exitStatus (errno : Int) : Failure → Option Int
  | .panic _ _ => some 1
  | .panicWithErrno _ _ => some (errno % 256)
  | .uncaught _ => none
  | .undefined _ => none

-- `errno` during one operation: its value beforehand, what each driver call of the operation
-- stores there, if anything, and what logging the error does.
structure Errno where
  before : Int
  stores : Nat → Option Int := fun _ => none
  logged : Option Int := none

namespace Errno

def after (errno : Errno) : Nat → Int
  | 0 => errno.before
  | calls + 1 => (errno.stores calls).getD (errno.after calls)

-- What `exit(errno)` reads after so many driver calls.
def atExit (errno : Errno) (calls : Nat) : Int := errno.logged.getD (errno.after calls)

end Errno

inductive Answer where
  -- `ibv_get_device_list`, for an operation that looks for the name.
  | devices (names : Option (List String)) (name : String)
  | handle (made : Option Nat)
  | code (ret : Int)
  | completions (reply : PollReply)
  -- Nothing is returned, or it is thrown away.
  | ignored
  deriving DecidableEq, Repr

def deviceNamed (name device : String) : Bool := name.length = 0 || name = device

namespace Answer

-- No list or none with the device, a null handle, a non-zero code, or a completion in error.
def failed : Answer → Bool
  | .devices none _ => true
  | .devices (some names) name => !names.any (deviceNamed name)
  | .handle made => made.isNone
  | .code ret => ret ≠ 0
  | .completions reply => ¬ Successful reply.entries
  | .ignored => false

-- The buffer of a poll has room for the answer.
def fits : Answer → Prop
  | .completions reply => reply.entries.length ≤ kMaxPollCq
  | .devices _ _ | .handle _ | .code _ | .ignored => True

-- How the library ends the process after a failure: with `errno`, unless memory is lost first.
inductive Ends (answer : Answer) : Failure → Prop
  | errno {message : String} {args : List Int} (fits : answer.fits) :
      Ends answer (.panicWithErrno message args)
  | overrun {access : String} (surplus : ¬ answer.fits) : Ends answer (.undefined access)

end Answer

abbrev Attempt (α : Type) := Trial Answer Failure α

-- The answer is looked at at once.
def demand (answer : Answer) (e : Failure) : Attempt Unit where
  answers := [answer]
  result := some (if answer.failed then .error e else .ok ())

def Candid {α : Type} (attempt : Attempt α) : Prop :=
  attempt.Heeds (fun answer => answer.failed = true) Answer.Ends

def Unfailing (answers : List Answer) : Prop := ∀ answer ∈ answers, answer.failed = false

section answers

variable {α : Type} {answers : List Answer} {last : Answer}

theorem unfailing_nil : Unfailing [] := fun _ given => absurd given List.not_mem_nil

theorem Unfailing.push (before : Unfailing answers) (fine : last.failed = false) :
    Unfailing (answers ++ [last]) := by
  intro answer given
  rcases List.mem_append.mp given with earlier | here
  · exact before answer earlier
  · obtain rfl := List.mem_singleton.mp here
    exact fine

theorem Unfailing.candid (unfailing : Unfailing answers) (result : Option (Except Failure α)) :
    Candid { answers, result } :=
  Trial.heeds_of_unfailing fun answer given => by simp [unfailing answer given]

-- Only the last answer can be a failure, and then it decides how the attempt ends.
theorem Unfailing.candid_push (before : Unfailing answers) {result : Option (Except Failure α)}
    (ended : last.failed = true → ∃ e, result = some (.error e) ∧ last.Ends e) :
    Candid { answers := answers ++ [last], result } := by
  intro answer given failure
  rcases List.mem_append.mp given with earlier | here
  · rw [before answer earlier] at failure
    cases failure
  · obtain rfl := List.mem_singleton.mp here
    exact ended failure

end answers

theorem demand_candid {answer : Answer} {message : String} {args : List Int} (fits : answer.fits) :
    Candid (demand answer (.panicWithErrno message args)) := by
  refine unfailing_nil.candid_push fun failure => ⟨.panicWithErrno message args, ?_, .errno fits⟩
  rw [failure]
  rfl

namespace Attempt

variable {α : Type}

def exitStatus (attempt : Attempt α) (errno : Errno) : Option Int :=
  match attempt.result with
  | some (.error e) => e.exitStatus (errno.atExit attempt.answers.length)
  | _ => none

def ExitsNonZero (attempt : Attempt α) (errno : Errno) : Prop :=
  ∃ status, attempt.exitStatus errno = some status ∧ status ≠ 0

/-- No failure looks like success: neither one of the driver nor one of the library's own checks. -/
structure FailsVisibly (attempt : Attempt α) (errno : Errno) : Prop where
  driver : ∀ answer ∈ attempt.answers, answer.failed = true → attempt.ExitsNonZero errno
  checks : ∀ message args, attempt.result = some (.error (.panic message args)) →
    attempt.ExitsNonZero errno

theorem failsVisibly_iff {attempt : Attempt α} (candid : Candid attempt) (errno : Errno) :
    attempt.FailsVisibly errno ↔ ∀ answer ∈ attempt.answers, answer.failed = true →
      answer.fits ∧ errno.atExit attempt.answers.length % 256 ≠ 0 := by
  constructor
  · intro visible answer given failure
    obtain ⟨status, exits, nonzero⟩ := visible.driver answer given failure
    obtain ⟨e, ended, belongs⟩ := candid answer given failure
    rw [exitStatus, ended] at exits
    cases belongs with
    | errno fits =>
      obtain rfl := Option.some.inj exits
      exact ⟨fits, nonzero⟩
    | overrun surplus => cases exits
  · intro told
    constructor
    · intro answer given failure
      obtain ⟨fits, nonzero⟩ := told answer given failure
      obtain ⟨e, ended, belongs⟩ := candid answer given failure
      cases belongs with
      | errno _ => exact ⟨_, by rw [exitStatus, ended]; rfl, nonzero⟩
      | overrun surplus => exact absurd fits surplus
    · intro message args ended
      exact ⟨1, by rw [exitStatus, ended]; rfl, by decide⟩

end Attempt

end Rdmalib2
