import Rdmalib2.Verb.Coherence

set_option autoImplicit false

/-!
# The atomic gate

`is_atomic_capable` judges the recorded length, which a copied verb does not have, so the
gate rests on what the length says about a list of at most one slice.
-/

namespace Rdmalib2

open Shared

namespace RdmaVerb

/-- A request with an atomic opcode is one aligned entry of eight bytes, the only slice. -/
def AtomicGate (this : RdmaSendFamily) : Prop :=
  ∀ next, this.getWr = .ok next → next.wr.send.expOpcode.isAtomic = true →
    ∃ slice entry, this.sgl = [slice] ∧ slice.toSge = .ok entry ∧
      next.request.numSge = 1 ∧ next.request.sgl = some [entry] ∧
      entry.length = 8 ∧ entry.addr % 8 = 0 ∧ this.remote.isSome = true

def AtomicCurrent (this : RdmaSendFamily) : Prop :=
  ∀ opcode ∈ this.opcode, opcode.isAtomic = true → this.CurrentIfCached

instance (this : RdmaSendFamily) : Decidable this.AtomicCurrent :=
  inferInstanceAs (Decidable (∀ _ ∈ _, _))

/-- The length of a short list is right, except that a copy of one slice starts at zero. No
atomic request is ever built from such a copy. -/
def Measured (this : RdmaSendFamily) : Prop :=
  this.sgl.length ≤ 1 →
    this.length = (this.sgl.map RdmaMemorySlice.size).sum ∨
      this.sgl.length = 1 ∧ this.length = 0 ∧
        (this.constructedWr = true → ∀ opcode ∈ this.opcode, opcode.isAtomic = false)

theorem capable_size {this : RdmaSendFamily} (measured : this.Measured)
    {slice : RdmaMemorySlice} (single : this.sgl = [slice]) (length : this.length = 8) :
    slice.size = 8 := by
  rcases measured (by simp [single]) with right | ⟨-, zero, -⟩
  · simpa [single, length] using right.symm
  · rw [length] at zero
    cases zero

theorem getWr_measured {this next : RdmaSendFamily} (measured : this.Measured)
    (built : this.getWr = .ok next) : next.Measured := by
  have config := getWr_config built
  intro short
  rw [config] at short ⊢
  rcases measured short with right | ⟨single, zero, unbuilt⟩
  · exact .inl right
  · refine .inr ⟨single, zero, fun _ => ?_⟩
    obtain ⟨_, _, rebuilt⟩ := getWr_ok built
    rcases rebuilt with ⟨cached, -⟩ | ⟨-, send, filled, -⟩
    · exact unbuilt cached
    · -- The gate is open only to a length of eight, and this length is zero.
      obtain ⟨opcode, present, -, capable, -⟩ := VerbConfig.constructSend_ok filled
      intro other same
      obtain rfl : opcode = other := Option.some.inj (present.symm.trans same)
      by_contra atomic
      obtain ⟨-, -, length, -⟩ := this.isAtomicCapable_iff.mp (capable (by simpa using atomic))
      rw [length] at zero
      cases zero

theorem effect_measured {this next : RdmaSendFamily} (measured : this.Measured)
    (effect : Effect this next) : next.Measured := by
  cases effect with
  | unchanged => exact measured
  | config c sgl length =>
    intro short
    rw [sgl] at short
    rcases measured short with right | ⟨single, zero, -⟩
    · exact .inl (by simpa [sgl, length] using right)
    · exact .inr ⟨by simpa [sgl] using single, by simpa [length] using zero, by simp⟩
  | slices base added start kept nonempty bound =>
    intro short
    have some := List.length_pos_iff.mpr nonempty
    simp only [List.length_append] at short
    obtain rfl : base = [] := List.eq_nil_of_length_eq_zero (by omega)
    rcases kept with ⟨same, rfl⟩ | ⟨-, rfl⟩
    · have zero : this.length = 0 := by
        rcases measured (by simp [← same]) with right | ⟨single, -, -⟩
        · simpa [← same] using right
        · simp [← same] at single
      exact .inl (by simp [zero])
    · exact .inl (by simp)
  | built built => exact getWr_measured measured built

theorem measured_of_constructed {this : RdmaSendFamily} (constructed : Constructed this) :
    this.Measured := by
  intro short
  cases constructed with
  | default junk => exact .inl rfl
  | slices junk head tail built =>
    obtain ⟨-, rfl⟩ := setSglEntry_ok _ built
    exact .inl rfl
  | copy junk other | move junk other =>
    by_cases empty : other.sgl = []
    · exact .inl (by simp [copyConstruct, moveConstruct, construct, empty])
    · have some := List.length_pos_iff.mpr empty
      exact .inr ⟨Nat.le_antisymm short some, rfl, by simp [copyConstruct, moveConstruct, construct]⟩

/-! ## The gate at one `get_wr` -/

theorem getWr_opcode {this next : RdmaSendFamily} (coherent : this.Coherent)
    (built : this.getWr = .ok next) :
    ∃ opcode, this.opcode = some opcode ∧ this.Sendable opcode ∧
      next.wr.send.expOpcode = opcode := by
  have agree := (getWr_coherent coherent built).fields (getWr_flags built).2
  obtain ⟨opcode, present, sendable, same⟩ := agree
  rw [getWr_config built] at present sendable same
  exact ⟨opcode, present, sendable, by rw [same, VerbConfig.sendFields_expOpcode]⟩

theorem getWr_capable {this next : RdmaSendFamily} (coherent : this.Coherent)
    (current : this.CurrentIfCached) (built : this.getWr = .ok next) {opcode : IbvExpWrOpcode}
    (present : this.opcode = some opcode) (atomic : opcode.isAtomic = true) :
    this.isAtomicCapable = true := by
  obtain ⟨_, _, rebuilt⟩ := getWr_ok built
  rcases rebuilt with ⟨cached, -⟩ | ⟨-, send, filled, -⟩
  · have small := (mapM_toSge_ok (getWr_converted coherent built)).1
    exact (current cached small).capable rfl opcode present atomic
  · obtain ⟨other, same, -, capable, -⟩ := VerbConfig.constructSend_ok filled
    obtain rfl : opcode = other := Option.some.inj (present.symm.trans same)
    exact capable atomic

theorem atomicGate_of_current {this : RdmaSendFamily} (coherent : this.Coherent)
    (measured : this.Measured) (current : this.AtomicCurrent) : this.AtomicGate := by
  intro next built atomic
  obtain ⟨opcode, present, sendable, same⟩ := getWr_opcode coherent built
  rw [same] at atomic
  have holds := current opcode present atomic
  obtain ⟨slice, single, length, aligned⟩ :=
    this.isAtomicCapable_iff.mp (getWr_capable coherent holds built present atomic)
  have size := capable_size measured single length
  have fresh := (freshLike_iff coherent).mpr holds
  have small : slice.Convertible := by
    simp [RdmaMemorySlice.Convertible, size]
  have elems : next.realSgl.elems = [slice.sge] := by
    have converted := getWr_converted coherent built
    rw [single, mapM_toSge_eq (by simpa using small)] at converted
    exact (Except.ok.inj converted).symm
  refine ⟨slice, slice.sge, single, RdmaMemorySlice.toSge_eq small, ?_, ?_, ?_, ?_, ?_⟩
  · exact (fresh.numSge next built).trans (by simp [single])
  · simp [request, (fresh.sgList next built).1, elems]
  · simp [RdmaMemorySlice.sge, size]
  · simpa [RdmaMemorySlice.sge, RdmaMemorySlice.isAligned] using aligned
  · rcases sendable with send | ⟨remote, -⟩
    · cases opcode <;> simp [IbvExpWrOpcode.isSend, IbvExpWrOpcode.isAtomic] at send atomic
    · exact remote

theorem size_of_entry {slice : RdmaMemorySlice} {entry : IbvSge} (small : slice.Convertible)
    (converted : slice.toSge = .ok entry) (length : entry.length = 8) (addr : entry.addr % 8 = 0) :
    slice.size = 8 ∧ slice.isAligned = true := by
  rw [RdmaMemorySlice.toSge_eq small] at converted
  obtain rfl := Except.ok.inj converted
  constructor
  · have word : slice.size.toNat % 2 ^ 32 = 8 := congrArg UInt32.toNat length
    rw [RdmaMemorySlice.Convertible] at small
    rw [← UInt64.toNat_inj]
    change slice.size.toNat = 8
    omega
  · simpa [RdmaMemorySlice.isAligned, RdmaMemorySlice.sge] using addr

theorem current_of_atomicGate {this : RdmaSendFamily} (coherent : this.Coherent)
    (measured : this.Measured) (gate : this.AtomicGate) : this.AtomicCurrent := by
  intro opcode present atomic cached small
  have built := getWr_of_cached coherent cached small
  have reported : this.wr.send.expOpcode.isAtomic = true := by
    obtain ⟨other, same, -, filled⟩ := coherent.fields cached
    obtain rfl : opcode = other := Option.some.inj ((Option.mem_def.mp present).symm.trans same)
    rw [filled, VerbConfig.sendFields_expOpcode, atomic]
  obtain ⟨slice, entry, single, converted, numSge, points, length, addr, -⟩ :=
    gate _ built reported
  have inBuffer : this.wr.sgList = (this.listed (this.sgl.map RdmaMemorySlice.sge)).data := by
    by_contra apart
    simp [request, apart] at points
  refine (cacheCurrent_iff coherent.sgList cached _).mpr ⟨?_, inBuffer, fun _ _ _ _ => ?_⟩
  · exact numSge.trans (by simp [single])
  · obtain ⟨size, aligned⟩ := size_of_entry (small slice (by simp [single])) converted length addr
    rcases measured (by simp [single]) with right | ⟨-, -, unbuilt⟩
    · exact this.isAtomicCapable_iff.mpr ⟨slice, single, by simpa [single, size] using right,
        aligned⟩
    · exact absurd atomic (by simp [unbuilt cached opcode present])

theorem atomicGate_iff {this : RdmaSendFamily} (coherent : this.Coherent)
    (measured : this.Measured) : this.AtomicGate ↔ this.AtomicCurrent :=
  ⟨current_of_atomicGate coherent measured, atomicGate_of_current coherent measured⟩

end RdmaVerb

/-! ## Runs -/

/-- Along every run from a constructed send verb, every atomic request passes the gate exactly
when every `get_wr` under an atomic opcode finds the cached request current. -/
theorem atomic_gate_iff {verb : RdmaSendFamily} (constructed : Constructed verb)
    (calls : List (VerbCall .ibvExpSendWr)) :
    Always VerbCall.apply (fun this call => call.buildsRequest this = true → this.AtomicGate)
        verb calls ↔
      Always VerbCall.apply (fun this call => call.buildsRequest this = true →
        this.AtomicCurrent) verb calls := by
  refine always_congr VerbCall.apply (fun this => this.Coherent ∧ this.Measured) _ _ ?_ ?_ calls
    ⟨constructed.coherent, RdmaVerb.measured_of_constructed constructed⟩
  · intro this call ⟨coherent, measured⟩
    rw [RdmaVerb.atomicGate_iff coherent measured]
  · intro this call next ⟨coherent, measured⟩ _ taken
    have effect := VerbCall.apply_effect taken
    exact ⟨RdmaVerb.effect_coherent coherent effect, RdmaVerb.effect_measured measured effect⟩

theorem repeated_cas_gated :
    Always VerbCall.apply (fun this call => call.buildsRequest this = true → this.AtomicGate)
      freshSend
      [.setCas 0 1, .setRemoteMemory (.ofKey 0 8 3), .addSglEntry (word 0) [], .getWr,
        .setSglEntry (word 8) [], .post .rc 0] :=
  (atomic_gate_iff (.default _) _).mpr (by decide)

-- A second slice behind a compare-and-swap that has been posted once.
theorem extended_cas_ungated :
    ¬ Always VerbCall.apply (fun this call => call.buildsRequest this = true → this.AtomicGate)
      freshSend
      [.setCas 0 1, .setRemoteMemory (.ofKey 0 8 3), .addSglEntry (word 0) [], .post .rc 0,
        .addSglEntry (word 8) [], .post .rc 0] := by
  intro all
  have last := (all.2 _ rfl).2 _ rfl |>.2 _ rfl |>.2 _ rfl |>.2 _ rfl |>.1 rfl
  obtain ⟨slice, -, single, -⟩ := last _ rfl rfl
  have count : 2 = 1 := congrArg List.length single
  cases count

end Rdmalib2
