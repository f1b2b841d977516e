import Rdmalib2.Verb.Requests

set_option autoImplicit false

/-!
# The caches of a verb

The cached list and the cached request each agree with the configuration wherever their flag
says so, but the request also holds a count and a pointer into the list, and the slice setters
drop the list alone.
-/

namespace Rdmalib2

open Shared

namespace RdmaVerb

variable {W : Wr}

-- A verb that never cached anything and holds the same configuration.
def uncached (this : RdmaVerb W) : RdmaVerb W :=
  { this with realSgl := {}, constructedRealSgl := false, wr := {}, constructedWr := false }

-- What a caller of `get_wr` sees: the request, its next pointer, or how the call fails.
def outcome (this : RdmaVerb W) : Except Failure (Request × Option Nat) :=
  this.getWr.map fun next => (next.request, next.wr.next)

/-- `get_wr` behaves as on a verb that never cached anything. -/
structure FreshLike (this : RdmaVerb W) : Prop where
  same : this.outcome = this.uncached.outcome
  numSge : ∀ next, this.getWr = .ok next → next.wr.numSge = this.sgl.length
  sgList : ∀ next, this.getWr = .ok next →
    next.wr.sgList = next.realSgl.data ∧
      this.sgl.mapM RdmaMemorySlice.toSge = .ok next.realSgl.elems
  next : ∀ next, this.getWr = .ok next → next.wr.next = none

/-- A cached request still fits the slices: as many as it counts, in the buffer it points
into, which the next conversion keeps, and good enough for an atomic opcode. A slice that is too
large for an entry makes `get_wr` fail before the request matters. -/
structure CacheCurrent (this : RdmaVerb W) : Prop where
  numSge : this.wr.numSge = this.sgl.length
  sgList : this.wr.sgList = this.realSgl.data
  inPlace : this.constructedRealSgl = true ∨ this.sgl.length ≤ this.realSgl.capacity
  capable : W = .ibvExpSendWr → ∀ opcode, this.opcode = some opcode → opcode.isAtomic = true →
    this.isAtomicCapable = true

def CurrentIfCached (this : RdmaVerb W) : Prop :=
  this.constructedWr = true → (∀ slice ∈ this.sgl, slice.Convertible) → this.CacheCurrent

-- The send fields of a cached request are those of the configuration.
def FieldsAgree (this : RdmaVerb W) : Prop :=
  match W with
  | .ibvRecvWr => this.wr.send = {}
  | .ibvExpSendWr => ∃ opcode, this.opcode = some opcode ∧ this.Sendable opcode ∧
      this.wr.send = this.sendFields opcode

/-- What both flags are worth after any calls. -/
structure Coherent (this : RdmaVerb W) : Prop where
  list : this.constructedRealSgl = true →
    this.sgl.mapM RdmaMemorySlice.toSge = .ok this.realSgl.elems
  sgList : this.constructedWr = true → this.wr.sgList ≤ this.realSgl.data
  wrId : this.constructedWr = true → this.wr.wrId = this.wrId
  fields : this.constructedWr = true → this.FieldsAgree

instance (this : RdmaVerb W) : Decidable this.CacheCurrent :=
  decidable_of_iff (this.wr.numSge = this.sgl.length ∧ this.wr.sgList = this.realSgl.data ∧
      (this.constructedRealSgl = true ∨ this.sgl.length ≤ this.realSgl.capacity) ∧
      (W = .ibvExpSendWr → ∀ opcode ∈ this.opcode, opcode.isAtomic = true →
        this.isAtomicCapable = true))
    ⟨fun ⟨n, s, p, c⟩ => ⟨n, s, p, c⟩, fun ⟨n, s, p, c⟩ => ⟨n, s, p, c⟩⟩

instance (this : RdmaVerb W) : Decidable this.CurrentIfCached :=
  inferInstanceAs (Decidable (_ → _ → _))

theorem coherent_of_uncached {this : RdmaVerb W} (list : this.constructedRealSgl = false)
    (wr : this.constructedWr = false) : this.Coherent :=
  ⟨by simp [list], by simp [wr], by simp [wr], by simp [wr]⟩

theorem convertedSgl_data (this : RdmaVerb W) (entries : List IbvSge) :
    (this.convertedSgl entries).data =
      if this.sgl.length ≤ this.realSgl.capacity then this.realSgl.data
      else this.realSgl.data + 1 :=
  SgeVector.resize_data this.realSgl this.sgl.length

theorem getWr_coherent {this next : RdmaVerb W} (coherent : this.Coherent)
    (built : this.getWr = .ok next) : next.Coherent := by
  obtain ⟨listed, converted, rebuilt⟩ := getWr_ok built
  have list : listed.sgl.mapM RdmaMemorySlice.toSge = .ok listed.realSgl.elems := by
    rcases constructSgl_ok converted with ⟨cached, rfl⟩ | ⟨-, entries, mapped, rfl⟩
    · exact coherent.list cached
    · exact mapped
  obtain ⟨config, wr, -, -⟩ := constructSgl_keeps converted
  have data : this.realSgl.data ≤ listed.realSgl.data := by
    rcases constructSgl_ok converted with ⟨-, rfl⟩ | ⟨-, entries, -, rfl⟩
    · exact le_rfl
    · rw [convertedSgl_data]
      split <;> omega
  rcases rebuilt with ⟨cached, rfl⟩ | ⟨-, send, filled, rfl⟩
  · refine ⟨fun _ => list, fun _ => ?_, fun _ => ?_, fun _ => ?_⟩
    · simpa [wr] using (coherent.sgList cached).trans data
    · simpa [wr, config] using coherent.wrId cached
    · have agree := coherent.fields cached
      cases W <;> simpa [FieldsAgree, wr, config] using agree
  · refine ⟨fun _ => list, fun _ => le_rfl, fun _ => by simp [config], fun _ => ?_⟩
    cases W with
    | ibvRecvWr => exact (Except.ok.inj filled).symm
    | ibvExpSendWr =>
      obtain ⟨opcode, present, sendable, -, same⟩ := VerbConfig.constructSend_ok filled
      exact ⟨opcode, by simp [config, present], by simpa [config] using sendable,
        by simp [config, same]⟩

theorem getWr_converted {this next : RdmaVerb W} (coherent : this.Coherent)
    (built : this.getWr = .ok next) :
    this.sgl.mapM RdmaMemorySlice.toSge = .ok next.realSgl.elems := by
  have list := (getWr_coherent coherent built).list (getWr_flags built).1
  rwa [getWr_config built] at list

theorem effect_coherent {this next : RdmaVerb W} (coherent : this.Coherent)
    (effect : Effect this next) : next.Coherent := by
  cases effect with
  | unchanged => exact coherent
  | config c sgl length =>
    exact ⟨fun cached => by simpa [sgl] using coherent.list cached, by simp, by simp, by simp⟩
  | slices base added start kept nonempty bound =>
    refine ⟨by simp, coherent.sgList, coherent.wrId, fun cached => ?_⟩
    -- The fields of a request do not read the slices or their length.
    have agree := coherent.fields cached
    cases W <;> exact agree
  | built built => exact getWr_coherent coherent built

/-! ## The outcome of `get_wr` -/

-- The list that `get_wr` leaves when the conversion of the slices gives `entries`.
def listed (this : RdmaVerb W) (entries : List IbvSge) : SgeVector :=
  if this.constructedRealSgl then this.realSgl else this.convertedSgl entries

theorem listed_elems {this : RdmaVerb W} (coherent : this.Coherent) {entries : List IbvSge}
    (mapped : this.sgl.mapM RdmaMemorySlice.toSge = .ok entries) :
    (this.listed entries).elems = entries := by
  unfold listed
  split
  next cached => exact Except.ok.inj ((coherent.list cached).symm.trans mapped)
  next => rfl

theorem sgList_eq_listed_iff {this : RdmaVerb W} (entries : List IbvSge)
    (older : this.wr.sgList ≤ this.realSgl.data) :
    this.wr.sgList = (this.listed entries).data ↔ this.wr.sgList = this.realSgl.data ∧
      (this.constructedRealSgl = true ∨ this.sgl.length ≤ this.realSgl.capacity) := by
  unfold listed
  cases cached : this.constructedRealSgl with
  | true => simp
  | false =>
    rw [if_neg (by simp), convertedSgl_data]
    split
    next room => simp [room]
    next grown =>
      simp only [grown, Bool.false_eq_true, or_self, and_false, iff_false]
      omega

theorem constructSgl_coherent {this : RdmaVerb W} (coherent : this.Coherent) :
    this.constructSgl =
      match this.sgl.mapM RdmaMemorySlice.toSge with
      | .error e => .error e
      | .ok entries =>
          .ok { this with realSgl := this.listed entries, constructedRealSgl := true } := by
  unfold constructSgl listed
  cases cached : this.constructedRealSgl with
  | false => rfl
  | true =>
    rw [coherent.list cached]
    simp [← cached]

theorem outcome_eq {this : RdmaVerb W} (coherent : this.Coherent) :
    this.outcome =
      if W = .ibvExpSendWr ∧ this.opcode = none then
        .error (.panic "constructing send work request with no opcode" [])
      else
        match this.sgl.mapM RdmaMemorySlice.toSge with
        | .error e => .error e
        | .ok entries =>
            if this.constructedWr then
              .ok ({ wrId := this.wr.wrId, numSge := this.wr.numSge, send := this.wr.send
                     sgl := if this.wr.sgList = (this.listed entries).data then some entries
                       else none }, none)
            else
              match this.toVerbConfig.fields W with
              | .error e => .error e
              | .ok send =>
                  .ok ({ wrId := this.wrId, numSge := this.sgl.length, sgl := some entries, send },
                    none) := by
  rw [outcome, getWr_eq, constructSgl_coherent coherent]
  split
  next => rfl
  next =>
    cases mapped : this.sgl.mapM RdmaMemorySlice.toSge with
    | error e => rfl
    | ok entries =>
      have elems := listed_elems coherent mapped
      have length : entries.length = this.sgl.length := by simp [(mapM_toSge_ok mapped).2]
      cases cached : this.constructedWr with
      | true => simp [Except.map, request, elems]
      | false =>
        cases this.toVerbConfig.fields W with
        | error e => rfl
        | ok send => simp [Except.map, request, SgeVector.size, elems, length]

@[simp] theorem uncached_config (this : RdmaVerb W) :
    this.uncached.toVerbConfig = this.toVerbConfig := rfl

@[simp] theorem uncached_constructedWr (this : RdmaVerb W) :
    this.uncached.constructedWr = false := rfl

theorem uncached_coherent (this : RdmaVerb W) : this.uncached.Coherent :=
  coherent_of_uncached rfl rfl

theorem outcome_of_not_cached {this : RdmaVerb W} (coherent : this.Coherent)
    (dropped : this.constructedWr = false) : this.outcome = this.uncached.outcome := by
  rw [outcome_eq coherent, outcome_eq this.uncached_coherent, dropped]
  rfl

theorem present_of_cached {this : RdmaVerb W} (coherent : this.Coherent)
    (cached : this.constructedWr = true) : ¬ (W = .ibvExpSendWr ∧ this.opcode = none) := by
  rintro ⟨rfl, missing⟩
  obtain ⟨opcode, same, -⟩ := coherent.fields cached
  rw [missing] at same
  cases same

theorem cacheCurrent_iff {this : RdmaVerb W} (older : this.constructedWr = true →
      this.wr.sgList ≤ this.realSgl.data) (cached : this.constructedWr = true)
    (entries : List IbvSge) :
    this.CacheCurrent ↔ this.wr.numSge = this.sgl.length ∧
      this.wr.sgList = (this.listed entries).data ∧
      (W = .ibvExpSendWr → ∀ opcode, this.opcode = some opcode → opcode.isAtomic = true →
        this.isAtomicCapable = true) := by
  rw [sgList_eq_listed_iff entries (older cached)]
  constructor
  · intro current
    exact ⟨current.numSge, ⟨current.sgList, current.inPlace⟩, current.capable⟩
  · rintro ⟨numSge, ⟨sgList, inPlace⟩, capable⟩
    exact ⟨numSge, sgList, inPlace, capable⟩

theorem getWr_of_cached {this : RdmaVerb W} (coherent : this.Coherent)
    (cached : this.constructedWr = true) (small : ∀ slice ∈ this.sgl, slice.Convertible) :
    this.getWr = .ok { this with
      realSgl := this.listed (this.sgl.map RdmaMemorySlice.sge), constructedRealSgl := true
      wr.next := none } := by
  rw [getWr_eq, if_neg (present_of_cached coherent cached), constructSgl_coherent coherent,
    mapM_toSge_eq small]
  simp only [cached, if_true]

theorem outcome_of_cached_iff {this : RdmaVerb W} (coherent : this.Coherent)
    (cached : this.constructedWr = true) (small : ∀ slice ∈ this.sgl, slice.Convertible) :
    this.outcome = this.uncached.outcome ↔ this.CacheCurrent := by
  have present := present_of_cached coherent cached
  have wrId := coherent.wrId cached
  have agree := coherent.fields cached
  rw [outcome_eq coherent, outcome_eq this.uncached_coherent,
    cacheCurrent_iff coherent.sgList cached (this.sgl.map RdmaMemorySlice.sge)]
  simp only [uncached_config, uncached_constructedWr, if_neg present, cached, mapM_toSge_eq small,
    if_true, Bool.false_eq_true, if_false]
  cases W with
  | ibvRecvWr =>
    simp only [FieldsAgree] at agree
    simp [VerbConfig.fields, wrId, agree]
  | ibvExpSendWr =>
    obtain ⟨opcode, same, sendable, filled⟩ := agree
    by_cases capable : opcode.isAtomic = true → this.isAtomicCapable = true
    · simp only [VerbConfig.fields, VerbConfig.constructSend_of_sendable same sendable capable]
      simpa [wrId, filled, same] using fun _ _ => capable
    · obtain ⟨e, failed⟩ := VerbConfig.constructSend_error same capable
      simp only [VerbConfig.fields, failed, reduceCtorEq, false_iff]
      intro current
      exact capable (current.2.2 trivial opcode same)

theorem outcome_of_large {this : RdmaVerb W} (coherent : this.Coherent)
    (cached : this.constructedWr = true) (large : ¬ ∀ slice ∈ this.sgl, slice.Convertible) :
    this.outcome = this.uncached.outcome := by
  have present := present_of_cached coherent cached
  obtain ⟨args, failed⟩ := mapM_toSge_error large
  rw [outcome_eq coherent, outcome_eq this.uncached_coherent]
  simp only [uncached_config, if_neg present, failed]

theorem outcome_eq_uncached_iff {this : RdmaVerb W} (coherent : this.Coherent) :
    this.outcome = this.uncached.outcome ↔ this.CurrentIfCached := by
  by_cases cached : this.constructedWr = true
  · by_cases small : ∀ slice ∈ this.sgl, slice.Convertible
    · rw [outcome_of_cached_iff coherent cached small]
      exact ⟨fun current _ _ => current, fun current => current cached small⟩
    · have same := outcome_of_large coherent cached small
      exact ⟨fun _ _ all => absurd all small, fun _ => same⟩
  · have same := outcome_of_not_cached coherent (by simpa using cached)
    exact ⟨fun _ holds => absurd holds cached, fun _ => same⟩

theorem uncached_outcome_ok {this : RdmaVerb W} {request : Request} {next : Option Nat}
    (built : this.uncached.outcome = .ok (request, next)) :
    request.numSge = this.sgl.length ∧ next = none ∧
      ∃ entries, this.sgl.mapM RdmaMemorySlice.toSge = .ok entries ∧ request.sgl = some entries := by
  rw [outcome_eq this.uncached_coherent] at built
  simp only [uncached_config, uncached_constructedWr, Bool.false_eq_true, if_false] at built
  split at built
  next => cases built
  next =>
    split at built
    next => cases built
    next entries mapped =>
      split at built
      next => cases built
      next send filled =>
        obtain ⟨rfl, rfl⟩ := Prod.mk.inj (Except.ok.inj built)
        exact ⟨rfl, rfl, entries, mapped, rfl⟩

theorem freshLike_iff {this : RdmaVerb W} (coherent : this.Coherent) :
    this.FreshLike ↔ this.CurrentIfCached := by
  rw [← outcome_eq_uncached_iff coherent]
  refine ⟨FreshLike.same, fun same => ?_⟩
  have fresh : ∀ next, this.getWr = .ok next →
      next.request.numSge = this.sgl.length ∧ next.wr.next = none ∧
        ∃ entries, this.sgl.mapM RdmaMemorySlice.toSge = .ok entries ∧
          next.request.sgl = some entries := by
    intro next built
    rw [outcome, built] at same
    exact uncached_outcome_ok same.symm
  refine ⟨same, fun next built => (fresh next built).1, fun next built => ?_,
    fun next built => (fresh next built).2.1⟩
  obtain ⟨-, -, entries, mapped, designated⟩ := fresh next built
  -- The driver reaches a list only through a pointer into the buffer still in use.
  rw [request] at designated
  split at designated
  next points => exact ⟨points, by rw [mapped, Option.some.inj designated]⟩
  next => cases designated

end RdmaVerb

/-! ## Runs -/

theorem Constructed.dropped {W : Wr} {verb : RdmaVerb W} (constructed : Constructed verb) :
    verb.constructedRealSgl = false ∧ verb.constructedWr = false := by
  cases constructed with
  | default | copy | move => exact ⟨rfl, rfl⟩
  | slices junk head tail built =>
    obtain ⟨-, rfl⟩ := RdmaVerb.setSglEntry_ok _ built
    exact ⟨rfl, rfl⟩

theorem Constructed.coherent {W : Wr} {verb : RdmaVerb W} (constructed : Constructed verb) :
    verb.Coherent :=
  RdmaVerb.coherent_of_uncached constructed.dropped.1 constructed.dropped.2

/-- Along every run from a constructed verb, every `get_wr` behaves as on a verb that never
cached anything exactly when every request it finds cached still fits the slices. -/
theorem getWr_freshLike_iff {W : Wr} {verb : RdmaVerb W} (constructed : Constructed verb)
    (calls : List (VerbCall W)) :
    Always VerbCall.apply (fun this call => call.buildsRequest this = true → this.FreshLike)
        verb calls ↔
      Always VerbCall.apply (fun this call => call.buildsRequest this = true →
        this.CurrentIfCached) verb calls := by
  refine always_congr VerbCall.apply RdmaVerb.Coherent _ _ ?_ ?_ calls constructed.coherent
  · intro this call coherent
    rw [RdmaVerb.freshLike_iff coherent]
  · intro this call next coherent _ taken
    exact RdmaVerb.effect_coherent coherent (VerbCall.apply_effect taken)

/-! ## What may come between two requests -/

namespace RdmaVerb

variable {W : Wr}

/-- A request that was built or found current is current. -/
theorem getWr_current {this next : RdmaVerb W} (coherent : this.Coherent)
    (current : this.CurrentIfCached) (built : this.getWr = .ok next) : next.CacheCurrent := by
  have fresh := (freshLike_iff coherent).mpr current
  have config := getWr_config built
  refine ⟨?_, (fresh.sgList next built).1, .inl (getWr_flags built).1, ?_⟩
  · rw [config]
    exact fresh.numSge next built
  · rintro rfl opcode present atomic
    simp only [config] at present ⊢
    obtain ⟨listed, converted, rebuilt⟩ := getWr_ok built
    rcases rebuilt with ⟨cached, rfl⟩ | ⟨-, send, filled, rfl⟩
    · have small := (mapM_toSge_ok (getWr_converted coherent built)).1
      exact (current cached small).capable rfl opcode present atomic
    · obtain ⟨same, own, -, capable, -⟩ := VerbConfig.constructSend_ok filled
      obtain rfl := Option.some.inj (own.symm.trans present)
      exact capable atomic

end RdmaVerb

-- What is known of the cached request from the calls alone.
inductive CacheUse where
  | empty
  | fits
  | outdated
  deriving DecidableEq, Repr

def CacheUse.Holds {W : Wr} (this : RdmaVerb W) : CacheUse → Prop
  | .empty => this.constructedWr = false
  | .fits => this.CurrentIfCached
  | .outdated => True

theorem CacheUse.holds_dropped {W : Wr} {this : RdmaVerb W} (dropped : this.constructedWr = false)
    (use : CacheUse) : use.Holds this := by
  cases use with
  | empty => exact dropped
  | fits => exact fun cached => by simp [dropped] at cached
  | outdated => trivial

theorem CacheUse.Holds.current {W : Wr} {this : RdmaVerb W} {use : CacheUse}
    (holds : use.Holds this) (upToDate : use ≠ .outdated) : this.CurrentIfCached := by
  cases use with
  | empty => exact CacheUse.holds_dropped holds .fits
  | fits => exact holds
  | outdated => exact absurd rfl upToDate

namespace VerbCall

variable {W : Wr}

def asks : VerbCall W → Bool
  | .getWr | .post .. => true
  | _ => false

-- Calls that set an id, an opcode or a flag drop the request only where that changes something.
def use (use : CacheUse) : VerbCall W → CacheUse
  | .setSglEntry .. | .addSglEntry .. => if use = .empty then .empty else .outdated
  | .getWr | .post .. => .fits
  | .setRemoteMemory _ | .setImm _ | .setCas .. | .setFaa _ | .setMaskedCas .. | .setMaskedFaa ..
  | .setCompare _ | .setSwap _ | .setCompareMask _ | .setSwapMask _ | .setAdd _ | .setAddMask _ =>
      .empty
  | .setId _ | .setOp _ | .setNotify _ | .clearImm => use

theorem use_holds {this next : RdmaVerb W} {use : CacheUse} {call : VerbCall W}
    (coherent : this.Coherent) (holds : use.Holds this)
    (upToDate : call.asks = true → use ≠ .outdated) (taken : call.apply this = .ok next) :
    (call.use use).Holds next := by
  have asked (asks : call.asks = true) (built : this.getWr = .ok next) :
      CacheUse.fits.Holds next :=
    fun _ _ => RdmaVerb.getWr_current coherent (holds.current (upToDate asks)) built
  cases call with
  | getWr =>
    rw [apply_getWr] at taken
    exact asked rfl taken
  | post type ret =>
    rw [apply_post] at taken
    exact asked rfl (postVerb_ok taken)
  | setSglEntry head tail =>
    rw [apply_setSglEntry] at taken
    obtain ⟨-, rfl⟩ := RdmaVerb.setSglEntry_ok _ taken
    cases use with
    | empty => exact holds
    | fits | outdated => trivial
  | addSglEntry head tail =>
    rw [apply_addSglEntry] at taken
    obtain ⟨-, rfl⟩ := RdmaVerb.addSglEntry_cons_ok head tail taken
    cases use with
    | empty => exact holds
    | fits | outdated => trivial
  | setRemoteMemory | setImm | setCas | setFaa | setMaskedCas | setMaskedFaa | setCompare | setSwap
    | setCompareMask | setSwapMask | setAdd | setAddMask =>
    obtain rfl := Except.ok.inj taken
    rfl
  | setId id =>
    obtain rfl := Except.ok.inj taken
    change use.Holds (this.setId id)
    unfold RdmaVerb.setId
    split
    next => exact CacheUse.holds_dropped rfl use
    next => exact holds
  | setOp op =>
    obtain rfl := Except.ok.inj taken
    change use.Holds (RdmaVerb.setOp this op)
    unfold RdmaVerb.setOp
    split
    next => exact CacheUse.holds_dropped rfl use
    next => exact holds
  | setNotify notify =>
    obtain rfl := Except.ok.inj taken
    change use.Holds (RdmaVerb.setNotify this notify)
    unfold RdmaVerb.setNotify
    split
    next => exact CacheUse.holds_dropped rfl use
    next => exact holds
  | clearImm =>
    obtain rfl := Except.ok.inj taken
    change use.Holds (RdmaVerb.clearImm this)
    unfold RdmaVerb.clearImm
    split
    next => exact CacheUse.holds_dropped rfl use
    next => exact holds

/-- Where slices are set after a request, a call that drops it is made before the next one. -/
def Renewing : CacheUse → List (VerbCall W) → Prop
  | _, [] => True
  | use, call :: calls => (call.asks = true → use ≠ .outdated) ∧ Renewing (call.use use) calls

instance decidableRenewing : ∀ (use : CacheUse) (calls : List (VerbCall W)),
    Decidable (Renewing use calls)
  | _, [] => .isTrue trivial
  | use, call :: calls =>
      have := decidableRenewing (call.use use) calls
      inferInstanceAs (Decidable (_ ∧ _))

theorem Renewing.freshLike {use : CacheUse} {calls : List (VerbCall W)}
    (renewing : Renewing use calls) {this : RdmaVerb W} (coherent : this.Coherent)
    (holds : use.Holds this) :
    Always apply (fun this call => call.buildsRequest this = true → this.FreshLike) this calls := by
  induction calls generalizing use this with
  | nil => trivial
  | cons call calls ih =>
    obtain ⟨upToDate, later⟩ := renewing
    refine ⟨fun builds => ?_, fun next taken => ?_⟩
    · have asks : call.asks = true := by cases call <;> first | rfl | cases builds
      exact (RdmaVerb.freshLike_iff coherent).mpr (holds.current (upToDate asks))
    · exact ih later (RdmaVerb.effect_coherent coherent (apply_effect taken))
        (use_holds coherent holds upToDate taken)

end VerbCall

/-- A program that renews the request in time gets from every `get_wr` what it would get without
any cache. -/
theorem renewing_freshLike {W : Wr} {verb : RdmaVerb W} (constructed : Constructed verb)
    {calls : List (VerbCall W)} (renewing : VerbCall.Renewing .empty calls) :
    Always VerbCall.apply (fun this call => call.buildsRequest this = true → this.FreshLike)
      verb calls :=
  renewing.freshLike constructed.coherent constructed.dropped.2

/-! ## A reused verb -/

-- Eight bytes of a registered page.
def word (offset : UInt64) : RdmaMemorySlice :=
  .ofRegion { mr := { lkey := 1, rkey := 2 }, ptr := 4096, size := 64 } offset 8

def freshSend : RdmaSendFamily := RdmaVerb.construct { wrId := 0, wr := {} }

-- Another slice and another place to read it from, between two reads.
example (one other : RdmaRemoteMemorySlice) :
    VerbCall.Renewing .empty
      [.setOp .rdmaRead, .addSglEntry (word 0) [], .setRemoteMemory one, .getWr,
        .setSglEntry (word 8) [], .setRemoteMemory other, .getWr] := by
  simp [VerbCall.Renewing, VerbCall.use, VerbCall.asks]

theorem reposted_send_freshLike :
    Always VerbCall.apply (fun this call => call.buildsRequest this = true → this.FreshLike)
      freshSend [.setOp .send, .addSglEntry (word 0) [], .getWr, .setId 7, .post .rc 0] :=
  (getWr_freshLike_iff (.default _) _).mpr (by decide)

-- The second request still counts the one slice the first was built from.
theorem extended_send_stale :
    ¬ Always VerbCall.apply (fun this call => call.buildsRequest this = true → this.FreshLike)
      freshSend
      [.setOp .send, .addSglEntry (word 0) [], .getWr, .addSglEntry (word 8) [], .getWr] := by
  intro all
  have last := (all.2 _ rfl).2 _ rfl |>.2 _ rfl |>.2 _ rfl |>.1 rfl
  exact absurd (last.numSge _ rfl) (by decide)

end Rdmalib2
