import Rdmalib2.Verb.Calls

set_option autoImplicit false

/-!
# What a call can do to a verb

Every call leaves the verb alone, changes its configuration and drops the cached request,
changes its slices and drops the cached list, or builds the request.
-/

namespace Rdmalib2

open Shared

/-! ## Conversion of the slices -/

def RdmaMemorySlice.Convertible (slice : RdmaMemorySlice) : Prop :=
  slice.size.toNat ≤ 2 ^ 32 - 1

instance (slice : RdmaMemorySlice) : Decidable slice.Convertible :=
  inferInstanceAs (Decidable (_ ≤ _))

def RdmaMemorySlice.sge (slice : RdmaMemorySlice) : IbvSge :=
  { addr := slice.ptr, length := slice.size.toUInt32, lkey := slice.getLkey }

theorem RdmaMemorySlice.toSge_eq {slice : RdmaMemorySlice} (small : slice.Convertible) :
    slice.toSge = .ok slice.sge := by
  unfold Convertible at small
  rw [toSge, if_neg (by omega)]
  rfl

theorem mapM_toSge_eq {slices : List RdmaMemorySlice}
    (small : ∀ slice ∈ slices, slice.Convertible) :
    slices.mapM RdmaMemorySlice.toSge = .ok (slices.map RdmaMemorySlice.sge) := by
  induction slices with
  | nil => rfl
  | cons slice rest ih =>
    obtain ⟨here, later⟩ := List.forall_mem_cons.mp small
    rw [List.mapM_cons, RdmaMemorySlice.toSge_eq here, ih later]
    rfl

theorem mapM_toSge_error {slices : List RdmaMemorySlice}
    (large : ¬ ∀ slice ∈ slices, slice.Convertible) :
    ∃ args, slices.mapM RdmaMemorySlice.toSge = .error
      (.panic "memory slice size {} is larger than the maximum allowed size {}" args) := by
  induction slices with
  | nil => simp at large
  | cons slice rest ih =>
    rw [List.mapM_cons]
    by_cases here : slice.Convertible
    · have later : ¬ ∀ slice ∈ rest, slice.Convertible := by
        intro small
        exact large (List.forall_mem_cons.mpr ⟨here, small⟩)
      obtain ⟨args, failed⟩ := ih later
      rw [RdmaMemorySlice.toSge_eq here, failed]
      exact ⟨args, rfl⟩
    · unfold RdmaMemorySlice.Convertible at here
      rw [RdmaMemorySlice.toSge, if_pos (by omega)]
      exact ⟨_, rfl⟩

theorem mapM_toSge_ok {slices : List RdmaMemorySlice} {entries : List IbvSge}
    (converted : slices.mapM RdmaMemorySlice.toSge = .ok entries) :
    (∀ slice ∈ slices, slice.Convertible) ∧ entries = slices.map RdmaMemorySlice.sge := by
  by_cases small : ∀ slice ∈ slices, slice.Convertible
  · rw [mapM_toSge_eq small] at converted
    exact ⟨small, (Except.ok.inj converted).symm⟩
  · obtain ⟨args, failed⟩ := mapM_toSge_error small
    rw [failed] at converted
    cases converted

/-! ## Effects -/

inductive Effect {W : Wr} (verb : RdmaVerb W) : RdmaVerb W → Prop where
  | unchanged : Effect verb verb
  | config (c : VerbConfig) (sgl : c.sgl = verb.sgl) (length : c.length = verb.length) :
      Effect verb { verb with toVerbConfig := c, constructedWr := false }
  | slices (base added : List RdmaMemorySlice) (start : UInt64)
      (kept : base = verb.sgl ∧ start = verb.length ∨ base = [] ∧ start = 0)
      (nonempty : added ≠ []) (bound : (base ++ added).length ≤ kMaxSge) :
      Effect verb { verb with
        sgl := base ++ added
        length := start + (added.map RdmaMemorySlice.size).sum
        constructedRealSgl := false }
  | built {next : RdmaVerb W} (built : verb.getWr = .ok next) : Effect verb next

namespace RdmaVerb

variable {W : Wr}

theorem addSglEntry_ok {verb next : RdmaVerb W} (slices : List RdmaMemorySlice)
    (dropped : verb.constructedRealSgl = false) (bound : verb.sgl.length ≤ kMaxSge)
    (added : verb.addSglEntry slices = .ok next) :
    (verb.sgl ++ slices).length ≤ kMaxSge ∧
      next = { verb with
        sgl := verb.sgl ++ slices
        length := verb.length + (slices.map RdmaMemorySlice.size).sum } := by
  induction slices generalizing verb with
  | nil =>
    obtain rfl : verb = next := by simpa [addSglEntry] using added
    simpa using bound
  | cons head tail ih =>
    unfold addSglEntry at added
    split at added
    next room =>
      have rest := ih (by rfl) (by simp; omega) added
      refine ⟨by simpa using rest.1, ?_⟩
      rw [rest.2]
      simp [dropped, RdmaMemorySlice.getSize, UInt64.add_assoc]
    next => cases added

theorem addSglEntry_cons_ok {verb next : RdmaVerb W} (head : RdmaMemorySlice)
    (tail : List RdmaMemorySlice) (added : verb.addSglEntry (head :: tail) = .ok next) :
    (verb.sgl ++ head :: tail).length ≤ kMaxSge ∧
      next = { verb with
        sgl := verb.sgl ++ head :: tail
        length := verb.length + ((head :: tail).map RdmaMemorySlice.size).sum
        constructedRealSgl := false } := by
  unfold addSglEntry at added
  split at added
  next room =>
    have rest := addSglEntry_ok tail (by rfl) (by simp; omega) added
    refine ⟨by simpa using rest.1, ?_⟩
    rw [rest.2]
    simp [RdmaMemorySlice.getSize, UInt64.add_assoc]
  next => cases added

theorem setSglEntry_ok {verb next : RdmaVerb W} (slices : List RdmaMemorySlice)
    (set : verb.setSglEntry slices = .ok next) :
    slices.length ≤ kMaxSge ∧
      next = { verb with
        sgl := slices
        length := (slices.map RdmaMemorySlice.size).sum
        constructedRealSgl := false } := by
  have rest := addSglEntry_ok slices (by rfl) (by simp) set
  refine ⟨by simpa using rest.1, ?_⟩
  rw [rest.2]
  simp

end RdmaVerb

theorem postVerb_ok {W : Wr} {type : IbvQpType} {ret : Int} {verb next : RdmaVerb W}
    (posted : (postVerb type ret verb).result = .ok next) : verb.getWr = .ok next := by
  unfold postVerb at posted
  split at posted
  next => cases posted
  next =>
    split at posted
    next => cases posted
    next built =>
      split at posted
      next => cases posted
      next => rw [built, Except.ok.inj posted]

@[simp] theorem VerbCall.map_value {α : Type} (x : Except Failure α) :
    Except.map Warned.value (do return { value := ← x }) = x := by
  cases x <;> rfl

/-! The calls that warn of nothing leave what their members leave. -/

namespace VerbCall

variable {W : Wr} (this : RdmaVerb W)

theorem apply_setSglEntry (head : RdmaMemorySlice) (tail : List RdmaMemorySlice) :
    (setSglEntry head tail).apply this = this.setSglEntry (head :: tail) := map_value _

theorem apply_addSglEntry (head : RdmaMemorySlice) (tail : List RdmaMemorySlice) :
    (addSglEntry head tail).apply this = this.addSglEntry (head :: tail) := map_value _

theorem apply_getWr : getWr.apply this = this.getWr := map_value _

theorem apply_post (type : IbvQpType) (ret : Int) :
    (post type ret).apply this = (postVerb type ret this).result := map_value _

end VerbCall

theorem Effect.of_config {W : Wr} {verb next : RdmaVerb W}
    (same : next = { verb with toVerbConfig := next.toVerbConfig, constructedWr := false })
    (sgl : next.sgl = verb.sgl) (length : next.length = verb.length) : Effect verb next := by
  rw [same]
  exact .config next.toVerbConfig sgl length

theorem VerbCall.apply_effect {W : Wr} {verb next : RdmaVerb W} {call : VerbCall W}
    (taken : call.apply verb = .ok next) : Effect verb next := by
  cases call with
  | setId id =>
    obtain rfl := Except.ok.inj taken
    change Effect verb (verb.setId id)
    unfold RdmaVerb.setId
    split
    next => exact .of_config rfl rfl rfl
    next => exact .unchanged
  | setOp op =>
    obtain rfl := Except.ok.inj taken
    change Effect verb (RdmaVerb.setOp verb op)
    unfold RdmaVerb.setOp
    split
    next => exact .of_config rfl rfl rfl
    next => exact .unchanged
  | setNotify notify =>
    obtain rfl := Except.ok.inj taken
    change Effect verb (RdmaVerb.setNotify verb notify)
    unfold RdmaVerb.setNotify
    split
    next => exact .of_config rfl rfl rfl
    next => exact .unchanged
  | clearImm =>
    obtain rfl := Except.ok.inj taken
    change Effect verb (RdmaVerb.clearImm verb)
    unfold RdmaVerb.clearImm
    split
    next => exact .of_config rfl rfl rfl
    next => exact .unchanged
  | setRemoteMemory | setImm | setCas | setFaa | setMaskedCas | setMaskedFaa | setCompare | setSwap
    | setCompareMask | setSwapMask | setAdd | setAddMask =>
    obtain rfl := Except.ok.inj taken
    exact .of_config rfl rfl rfl
  | setSglEntry head tail =>
    rw [apply_setSglEntry] at taken
    obtain ⟨bound, rfl⟩ := RdmaVerb.setSglEntry_ok _ taken
    simpa using Effect.slices [] (head :: tail) 0 (.inr ⟨rfl, rfl⟩) (by simp) bound
  | addSglEntry head tail =>
    rw [apply_addSglEntry] at taken
    obtain ⟨bound, rfl⟩ := RdmaVerb.addSglEntry_cons_ok head tail taken
    exact .slices verb.sgl (head :: tail) verb.length (.inl ⟨rfl, rfl⟩) (by simp) bound
  | getWr =>
    rw [apply_getWr] at taken
    exact .built taken
  | post type ret =>
    rw [apply_post] at taken
    exact .built (postVerb_ok taken)

end Rdmalib2
