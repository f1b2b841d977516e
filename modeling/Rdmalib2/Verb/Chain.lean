import Rdmalib2.Verb.Rejects

set_option autoImplicit false

/-!
# The links of a batch

The chaining loop asks a verb for its request once more while it links the one before, so the
links of a range are all in place only behind the last turn. The cleanup loop takes them away.
-/

namespace Rdmalib2

open Shared

/-! ## Verbs that pass the checks -/

-- Neither an assertion of the loop nor the request of this verb fails.
def Passes (type : IbvQpType) (this : RdmaSendFamily) : Prop :=
  chainable type this = .ok () ∧ ∃ next, this.getWr = .ok next

namespace RdmaVerb

variable {W : Wr}

theorem constructSgl_linked (this : RdmaVerb W) (next : Option Nat) :
    ({ this with wr.next := next } : RdmaVerb W).constructSgl =
      this.constructSgl.map fun listed => { listed with wr.next := next } := by
  unfold constructSgl
  split
  next => rfl
  next => cases this.sgl.mapM RdmaMemorySlice.toSge <;> rfl

-- The next pointer is overwritten before it is ever read.
theorem getWr_linked (this : RdmaVerb W) (next : Option Nat) :
    ({ this with wr.next := next } : RdmaVerb W).getWr = this.getWr := by
  rw [getWr_eq, getWr_eq, constructSgl_linked]
  congr 1
  cases this.constructSgl with
  | error e => rfl
  | ok listed =>
    cases this.constructedWr with
    | true => rfl
    | false => cases this.toVerbConfig.fields W <;> rfl

end RdmaVerb

section passes

variable {type : IbvQpType} {this next : RdmaSendFamily}

theorem chainable_congr {other : RdmaSendFamily} (opcode : other.opcode = this.opcode) :
    chainable type other = chainable type this := by
  rw [chainable, chainable, opcode]

theorem getWr_passes (passes : Passes type this) (built : this.getWr = .ok next) :
    Passes type next := by
  refine ⟨?_, next, RdmaVerb.getWr_again built⟩
  rw [chainable_congr (congrArg VerbConfig.opcode (RdmaVerb.getWr_config built)), passes.1]

theorem linked_passes (link : Option Nat) (passes : Passes type this) :
    Passes type { this with wr.next := link } := by
  refine ⟨passes.1, ?_⟩
  rw [RdmaVerb.getWr_linked]
  exact passes.2

theorem Accepted.passes {verbs : LiveVerbs .ibvExpSendWr} {range : List Nat}
    (accepted : Accepted type verbs range) {id : Nat} (listed : id ∈ range) :
    verbs.Has (Passes type) id := by
  obtain ⟨verb, next, lives, posted⟩ := accepted id listed
  obtain ⟨able, built, -⟩ := postVerb_accepted posted
  exact ⟨verb, lives, chainable_of_postable able, next, built⟩

end passes

/-! ## Cached requests -/

def Builds (request : Request) (this : RdmaSendFamily) : Prop :=
  ∃ next, this.getWr = .ok next ∧ next.request = request

structure Caches (request : Request) (this : RdmaSendFamily) : Prop where
  list : this.constructedRealSgl = true
  wr : this.constructedWr = true
  same : this.request = request

section caches

variable {request : Request} {this next : RdmaSendFamily}

theorem getWr_builds (builds : Builds request this) (built : this.getWr = .ok next) :
    Builds request next := by
  obtain ⟨other, requested, same⟩ := builds
  obtain rfl : next = other := Except.ok.inj (built.symm.trans requested)
  exact ⟨next, RdmaVerb.getWr_again built, same⟩

theorem linked_builds (link : Option Nat) (builds : Builds request this) :
    Builds request { this with wr.next := link } := by
  unfold Builds
  rw [RdmaVerb.getWr_linked]
  exact builds

-- The next pointer is no part of what a request asks for.
theorem linked_caches (link : Option Nat) (caches : Caches request this) :
    Caches request { this with wr.next := link } :=
  ⟨caches.list, caches.wr, caches.same⟩

theorem getWr_caches (caches : Caches request this) (built : this.getWr = .ok next) :
    Caches request next := by
  rw [RdmaVerb.getWr_of_flags (RdmaVerb.getWr_present built) caches.list caches.wr] at built
  obtain rfl := Except.ok.inj built
  exact linked_caches none caches

end caches

/-! ## What the loops leave alone -/

namespace LiveVerbs

variable {verbs next : LiveVerbs .ibvExpSendWr} {id other target : Nat}

theorem getWr_other (built : verbs.getWr id = .ok next) (apart : other ≠ id) :
    next other = verbs other := by
  obtain ⟨verb, rebuilt, -, -, rfl⟩ := getWr_ok.mp built
  exact set_other verbs rebuilt apart

theorem setNext_other (linked : verbs.setNext id target = .ok next) (apart : other ≠ id)
    (beyond : other ≠ target) : next other = verbs other := by
  obtain ⟨mid, verb, requested, -, rfl⟩ := setNext_ok.mp linked
  rw [set_other mid _ apart, getWr_other requested beyond]

theorem clearNext_other (cleared : verbs.clearNext id = .ok next) (apart : other ≠ id) :
    next other = verbs other := by
  obtain ⟨verb, -, rfl⟩ := clearNext_ok.mp cleared
  exact set_other verbs _ apart

theorem clearNext_next (cleared : verbs.clearNext id = .ok next) : next.nextOf id = none := by
  obtain ⟨verb, -, rfl⟩ := clearNext_ok.mp cleared
  simp [nextOf, RdmaVerb.clearNext]

theorem getWr_cached {request : Request} (builds : verbs.Has (Builds request) id)
    (built : verbs.getWr id = .ok next) : next.Has (Caches request) id := by
  obtain ⟨verb, lives, rebuilt, requested, same⟩ := builds
  obtain ⟨other, last, alive, fresh, rfl⟩ := getWr_ok.mp built
  obtain rfl : verb = other := Option.some.inj (lives.symm.trans alive)
  obtain rfl : rebuilt = last := Except.ok.inj (requested.symm.trans fresh)
  obtain ⟨list, wr⟩ := RdmaVerb.getWr_flags requested
  exact ⟨rebuilt, set_self .., list, wr, same⟩

theorem getWr_passing {type : IbvQpType} (passes : verbs.Has (Passes type) id) :
    ∃ after, verbs.getWr id = .ok after := by
  obtain ⟨verb, lives, -, built, requested⟩ := passes
  exact ⟨_, getWr_ok.mpr ⟨verb, built, lives, requested, rfl⟩⟩

end LiveVerbs

section links

variable {type : IbvQpType} {verbs after : LiveVerbs .ibvExpSendWr} {it id : Nat}
  {rest range : List Nat}

theorem linkTo_next (joined : linkTo verbs it rest = .ok after) :
    after.nextOf it = rest.head? := by
  cases rest with
  | nil => exact LiveVerbs.clearNext_next joined
  | cons target tail =>
    obtain ⟨mid, verb, -, -, rfl⟩ := LiveVerbs.setNext_ok.mp joined
    simp [LiveVerbs.nextOf]

theorem linkTo_other (joined : linkTo verbs it rest = .ok after) (outside : id ∉ it :: rest) :
    after id = verbs id := by
  have apart := List.ne_of_not_mem_cons outside
  cases rest with
  | nil => exact LiveVerbs.clearNext_other joined apart
  | cons target tail =>
    have beyond := List.ne_of_not_mem_cons (List.not_mem_of_not_mem_cons outside)
    exact LiveVerbs.setNext_other joined apart beyond

theorem linkTo_passing (live : verbs.Lives it) (passes : ∀ id ∈ rest, verbs.Has (Passes type) id) :
    ∃ after, linkTo verbs it rest = .ok after := by
  cases rest with
  | nil =>
    obtain ⟨verb, lives, -⟩ := live
    exact ⟨_, LiveVerbs.clearNext_ok.mpr ⟨verb, lives, rfl⟩⟩
  | cons target tail =>
    obtain ⟨mid, requested⟩ := LiveVerbs.getWr_passing (passes target List.mem_cons_self)
    obtain ⟨verb, lives, -⟩ : mid.Lives it := LiveVerbs.getWr_has (fun _ _ => trivial) live requested
    exact ⟨_, LiveVerbs.setNext_ok.mpr ⟨mid, verb, requested, lives, rfl⟩⟩

end links

/-! ## The chaining loop -/

section chaining

variable {type : IbvQpType} {verbs after : LiveVerbs .ibvExpSendWr} {id : Nat} {range : List Nat}

theorem chainVerbs_has {p : RdmaSendFamily → Prop}
    (rebuilt : ∀ {this next : RdmaSendFamily}, p this → this.getWr = .ok next → p next)
    (linked : ∀ {this : RdmaSendFamily} (next : Option Nat), p this →
      p { this with wr.next := next })
    (has : verbs.Has p id) (chained : chainVerbs type verbs range = .ok after) :
    after.Has p id := by
  induction range generalizing verbs with
  | nil =>
    obtain rfl := Except.ok.inj chained
    exact has
  | cons it rest ih =>
    obtain ⟨verb, built, joined, -, -, requested, link, chained⟩ := chainVerbs_cons_ok chained
    exact ih (linkTo_has rebuilt linked (LiveVerbs.getWr_has rebuilt has requested) link) chained

theorem chainVerbs_other (chained : chainVerbs type verbs range = .ok after)
    (outside : id ∉ range) : after id = verbs id := by
  induction range generalizing verbs with
  | nil =>
    obtain rfl := Except.ok.inj chained
    rfl
  | cons it rest ih =>
    obtain ⟨verb, built, joined, -, -, requested, link, chained⟩ := chainVerbs_cons_ok chained
    have apart := List.ne_of_not_mem_cons outside
    rw [ih chained (List.not_mem_of_not_mem_cons outside), linkTo_other link outside,
      LiveVerbs.getWr_other requested apart]

theorem chainVerbs_follows (distinct : range.Nodup)
    (chained : chainVerbs type verbs range = .ok after) :
    Follows after.nextOf range.head? range := by
  induction range generalizing verbs with
  | nil => exact .done
  | cons it rest ih =>
    obtain ⟨apart, distinctRest⟩ := List.nodup_cons.mp distinct
    obtain ⟨verb, built, joined, -, -, -, link, chained⟩ := chainVerbs_cons_ok chained
    -- The turns to come ask for the requests of the rest alone, and leave this link.
    have kept : after.nextOf it = rest.head? := by
      rw [LiveVerbs.nextOf, chainVerbs_other chained apart]
      exact linkTo_next link
    refine .step ?_
    rw [kept]
    exact ih distinctRest chained

theorem chainVerbs_caches {request : Request} (builds : verbs.Has (Builds request) id)
    (listed : id ∈ range) (chained : chainVerbs type verbs range = .ok after) :
    after.Has (Caches request) id := by
  induction range generalizing verbs with
  | nil => cases listed
  | cons it rest ih =>
    obtain ⟨verb, built, joined, -, -, requested, link, chainedRest⟩ := chainVerbs_cons_ok chained
    rcases List.mem_cons.mp listed with rfl | later
    · have cached := linkTo_has getWr_caches linked_caches (LiveVerbs.getWr_cached builds requested) link
      exact chainVerbs_has getWr_caches linked_caches cached chainedRest
    · have still := LiveVerbs.getWr_has getWr_builds builds requested
      exact ih (linkTo_has getWr_builds linked_builds still link) later chainedRest

theorem chainVerbs_passing (passes : ∀ id ∈ range, verbs.Has (Passes type) id) :
    ∃ after, chainVerbs type verbs range = .ok after := by
  induction range generalizing verbs with
  | nil => exact ⟨verbs, rfl⟩
  | cons it rest ih =>
    obtain ⟨here, others⟩ := List.forall_mem_cons.mp passes
    obtain ⟨built, requested⟩ := LiveVerbs.getWr_passing here
    have still : ∀ id, verbs.Has (Passes type) id → built.Has (Passes type) id := fun _ has =>
      LiveVerbs.getWr_has getWr_passes has requested
    have live : built.Lives it := by
      obtain ⟨verb, lives, -⟩ := still it here
      exact ⟨verb, lives, trivial⟩
    obtain ⟨joined, link⟩ := linkTo_passing live fun id listed => still id (others id listed)
    obtain ⟨after, chained⟩ := ih fun id listed =>
      linkTo_has getWr_passes linked_passes (still id (others id listed)) link
    obtain ⟨verb, lives, able, -⟩ := here
    refine ⟨after, ?_⟩
    rw [chainVerbs_cons, LiveVerbs.fetch_ok.mpr lives]
    simp only [bind, Except.bind, able, requested, link, chained]

end chaining

/-! ## The cleanup loop -/

section cleanup

variable {verbs after : LiveVerbs .ibvExpSendWr} {it id : Nat} {rest range : List Nat}

theorem clearChain_cons_ok (cleared : clearChain verbs (it :: rest) = .ok after) :
    ∃ mid, verbs.clearNext it = .ok mid ∧ clearChain mid rest = .ok after :=
  bind_ok.mp cleared

theorem clearChain_has {p : RdmaSendFamily → Prop}
    (linked : ∀ {this : RdmaSendFamily} (next : Option Nat), p this →
      p { this with wr.next := next })
    (has : verbs.Has p id) (cleared : clearChain verbs range = .ok after) : after.Has p id := by
  induction range generalizing verbs with
  | nil =>
    obtain rfl := Except.ok.inj cleared
    exact has
  | cons it rest ih =>
    obtain ⟨mid, here, later⟩ := clearChain_cons_ok cleared
    exact ih (LiveVerbs.clearNext_has linked has here) later

theorem clearChain_other (cleared : clearChain verbs range = .ok after) (outside : id ∉ range) :
    after id = verbs id := by
  induction range generalizing verbs with
  | nil =>
    obtain rfl := Except.ok.inj cleared
    rfl
  | cons it rest ih =>
    obtain ⟨mid, here, later⟩ := clearChain_cons_ok cleared
    have apart := List.ne_of_not_mem_cons outside
    rw [ih later (List.not_mem_of_not_mem_cons outside), LiveVerbs.clearNext_other here apart]

theorem clearChain_next (cleared : clearChain verbs range = .ok after) (listed : id ∈ range) :
    after.nextOf id = none := by
  induction range generalizing verbs with
  | nil => cases listed
  | cons it rest ih =>
    obtain ⟨mid, here, later⟩ := clearChain_cons_ok cleared
    by_cases again : id ∈ rest
    · exact ih later again
    · obtain rfl := (List.mem_cons.mp listed).resolve_right again
      rw [LiveVerbs.nextOf, clearChain_other later again]
      exact LiveVerbs.clearNext_next here

theorem clearChain_live (live : ∀ id ∈ range, verbs.Lives id) :
    ∃ after, clearChain verbs range = .ok after := by
  induction range generalizing verbs with
  | nil => exact ⟨verbs, rfl⟩
  | cons it rest ih =>
    obtain ⟨⟨verb, lives, -⟩, others⟩ := List.forall_mem_cons.mp live
    have here : verbs.clearNext it = .ok _ := LiveVerbs.clearNext_ok.mpr ⟨verb, lives, rfl⟩
    obtain ⟨after, later⟩ := ih fun id listed =>
      LiveVerbs.clearNext_has (fun _ _ => trivial) (others id listed) here
    exact ⟨after, bind_ok.mpr ⟨_, here, later⟩⟩

end cleanup

/-! ## The whole batch -/

-- Every verb of the range is unlinked and configured as before, and no other verb is touched.
structure Cleaned (verbs after : LiveVerbs .ibvExpSendWr) (range : List Nat) : Prop where
  listed : ∀ id ∈ range, ∃ before verb, verbs id = some before ∧ after id = some verb ∧
    verb.wr.next = none ∧ verb.toVerbConfig = before.toVerbConfig
  outside : ∀ id, id ∉ range → after id = verbs id

/-- Whatever links are left from before, the chaining loop links the requests of the range in
order and the cleanup loop leaves none of the links. -/
theorem batch_links_and_cleans (type : IbvQpType) {verbs : LiveVerbs .ibvExpSendWr} {first : Nat}
    {rest : List Nat} (distinct : (first :: rest).Nodup)
    (accepted : Accepted type verbs (first :: rest)) :
    (∃ linked, chainVerbs type verbs (first :: rest) = .ok linked ∧
      Follows linked.nextOf (some first) (first :: rest) ∧
      ∀ id ∈ first :: rest, ∃ verb next, verbs id = some verb ∧ verb.getWr = .ok next ∧
        linked.Has (Caches next.request) id) ∧
    ∃ after, (postVerbs type 0 verbs (first :: rest)).result = .ok after ∧
      Cleaned verbs after (first :: rest) := by
  have passes := fun id (listed : id ∈ first :: rest) => accepted.passes listed
  obtain ⟨linked, chained⟩ := chainVerbs_passing passes
  have still : ∀ id ∈ first :: rest, linked.Has (Passes type) id := fun id listed =>
    chainVerbs_has getWr_passes linked_passes (passes id listed) chained
  constructor
  · refine ⟨linked, chained, chainVerbs_follows distinct chained, fun id listed => ?_⟩
    obtain ⟨verb, lives, -, next, built⟩ := passes id listed
    exact ⟨verb, next, lives, built, chainVerbs_caches ⟨verb, lives, next, built, rfl⟩ listed chained⟩
  · obtain ⟨handed, requested⟩ := LiveVerbs.getWr_passing (still first List.mem_cons_self)
    have live : ∀ id ∈ first :: rest, handed.Lives id := fun id listed => by
      obtain ⟨verb, lives, -⟩ := LiveVerbs.getWr_has getWr_passes (still id listed) requested
      exact ⟨verb, lives, trivial⟩
    obtain ⟨after, cleared⟩ := clearChain_live live
    refine ⟨after, by simp [postVerbs, chained, requested, cleared], ?_, fun id outside => ?_⟩
    · intro id listed
      obtain ⟨before, lives, -⟩ := passes id listed
      have same : verbs.Has (fun verb => verb.toVerbConfig = before.toVerbConfig) id :=
        ⟨before, lives, rfl⟩
      have config : ∀ {this next : RdmaSendFamily}, this.toVerbConfig = before.toVerbConfig →
          this.getWr = .ok next → next.toVerbConfig = before.toVerbConfig :=
        fun kept built => (RdmaVerb.getWr_config built).trans kept
      obtain ⟨verb, found, kept⟩ := clearChain_has (fun _ kept => kept) (LiveVerbs.getWr_has config
        (chainVerbs_has config (fun _ kept => kept) same chained) requested) cleared
      have unlinked := clearChain_next cleared listed
      rw [LiveVerbs.nextOf, found] at unlinked
      exact ⟨before, verb, lives, found, unlinked, kept⟩
    · have apart : id ≠ first := List.ne_of_not_mem_cons outside
      rw [clearChain_other cleared outside, LiveVerbs.getWr_other requested apart,
        chainVerbs_other chained outside]

-- Three sends that earlier batches left pointing at each other, and one outside of the range.
def staleSends : LiveVerbs .ibvExpSendWr :=
  (((LiveVerbs.empty.set 0 { freshSend with opcode := some .send, wr.next := some 2 }).set 1
    { freshSend with opcode := some .send, wr.next := some 1 }).set 2
    { freshSend with opcode := some .send, wr.next := some 0 }).set 3
    { freshSend with opcode := some .send, wr.next := some 0 }

theorem stale_sends_relinked :
    (∃ linked, chainVerbs .rc staleSends [2, 0, 1] = .ok linked ∧
      Follows linked.nextOf (some 2) [2, 0, 1]) ∧
    ∃ after, (postVerbs .rc 0 staleSends [2, 0, 1]).result = .ok after ∧
      Cleaned staleSends after [2, 0, 1] := by
  have accepted : Accepted .rc staleSends [2, 0, 1] := by
    intro id listed
    obtain rfl | rfl | rfl : id = 2 ∨ id = 0 ∨ id = 1 := by simpa using listed
    · exact ⟨_, _, rfl, rfl⟩
    · exact ⟨_, _, rfl, rfl⟩
    · exact ⟨_, _, rfl, rfl⟩
  obtain ⟨⟨linked, chained, walk, -⟩, cleaned⟩ := batch_links_and_cleans .rc (by decide) accepted
  exact ⟨⟨linked, chained, walk⟩, cleaned⟩

end Rdmalib2
