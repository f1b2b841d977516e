import Mathlib.Data.List.Basic

set_option autoImplicit false

namespace Rdmalib2

-- How a call ends without returning to its caller.
inductive Failure where
  -- `panic()`: `exit(EXIT_FAILURE)` after the logged message and its arguments.
  | panic (message : String) (args : List Int)
  -- `panic_with_errno()`: `exit(errno)` after the logged message and its arguments.
  | panicWithErrno (message : String) (args : List Int)
  -- An exception of the standard library that nothing in the program catches.
  | uncaught (exception : String)
  -- The language gives the program no meaning from here on.
  | undefined (access : String)
  deriving DecidableEq, Repr

-- `RDMALIB2_ASSERT(cond)`, with the text of `cond`.
def rdmalib2Assert (cond : Bool) (text : String) : Except Failure Unit :=
  if cond then .ok () else .error (.panic ("assertion failed: " ++ text) [])

@[simp] theorem rdmalib2Assert_true (text : String) : rdmalib2Assert true text = .ok () := rfl

@[simp] theorem rdmalib2Assert_ok (cond : Bool) (text : String) :
    rdmalib2Assert cond text = .ok () ↔ cond = true := by
  cases cond <;> simp [rdmalib2Assert]

theorem bind_ok {α β : Type} {x : Except Failure α} {f : α → Except Failure β} {result : β} :
    (x >>= f) = .ok result ↔ ∃ value, x = .ok value ∧ f value = .ok result := by
  cases x with
  | error e => simp [bind, Except.bind]
  | ok value => simp [bind, Except.bind]

theorem map_ok {ε α β : Type} {x : Except ε α} {f : α → β} {result : β}
    (mapped : x.map f = .ok result) : ∃ value, x = .ok value ∧ f value = result := by
  cases x with
  | error e => cases mapped
  | ok value => exact ⟨value, rfl, Except.ok.inj mapped⟩

theorem bind_error {α β : Type} {x : Except Failure α} {f : α → Except Failure β} {e : Failure} :
    (x >>= f) = .error e ↔ x = .error e ∨ ∃ value, x = .ok value ∧ f value = .error e := by
  cases x with
  | error e => simp [bind, Except.bind]
  | ok value => simp [bind, Except.bind]

inductive IbvQpType where
  | rc
  | uc
  | ud
  | rawPacket
  | xrcSend
  | xrcRecv
  | expDcIni
  deriving DecidableEq, Repr

/-! The constants of `tweakme.h` that the modelled functions read. -/

def kMaxSge : Nat := 16
def kMaxPollCq : Nat := 32

end Rdmalib2
