import Rdmalib2.Objects.Slices
import Rdmalib2.Shared.Refines
import Rdmalib2.Verb.Live

set_option autoImplicit false

/-!
# Verbs list slices that refer to regions

A verb goes to the region objects of its slices when it builds its list. While these stay where
they are, that is as good as having taken the regions' values when the slices were listed.
-/

namespace Rdmalib2

open Shared

-- The slices of a region as a value, or of none.
def SliceRef.known (keys : Registrations) (w : World) (this : SliceRef) : RdmaMemorySlice :=
  match w.objects this.region with
  | some (.region object) =>
      match object.value keys with
      | some region => this.value region
      | none => this.value { mr := ⟨0, 0⟩, ptr := 0, size := 0 }
  | _ => this.value { mr := ⟨0, 0⟩, ptr := 0, size := 0 }

def Memory.fetch (m : Memory) (id : Nat) : Except Failure SliceRef :=
  match m.slices id with
  | some slice => .ok slice
  | none => .error (.undefined "slice outside its lifetime")

-- A program's verbs. The slices of a verb are its `lists`; in their place `verbs` has what they
-- were known to be when they were listed, of which only pointers and sizes are read.
structure Buffers (W : Wr) where
  memory : Memory := {}
  verbs : LiveVerbs W := .empty
  lists : Nat → List SliceRef := fun _ => []

-- The calls that name slices.
def VerbAction.listsSlices {W : Wr} : VerbAction W → Bool
  | .ofSlices .. | .call _ (.setSglEntry ..) | .call _ (.addSglEntry ..) => true
  | _ => false

-- The verb whose `get_wr` an action reaches.
def VerbAction.builds {W : Wr} (verbs : LiveVerbs W) : VerbAction W → Option Nat
  | .call id member =>
      match verbs id with
      | some verb => if member.buildsRequest verb then some id else none
      | none => none
  | .setNext _ next => some next
  | _ => none

-- Where the slices of the verbs are after an action that names none.
def VerbAction.relist {W : Wr} (lists : Nat → List SliceRef) : VerbAction W → Nat → List SliceRef
  | .construct id _ | .destroy id => Function.update lists id []
  | .copyConstruct id _ src | .copyAssign id src => Function.update lists id (lists src)
  | .moveConstruct id _ src => Function.update (Function.update lists src []) id (lists src)
  | .moveAssign dst src => Function.update (Function.update lists dst (lists src)) src []
  | _ => lists

def LiveVerbs.submits {W : Wr} (verbs : LiveVerbs W) : VerbAction W → List (List Request)
  | .call id (.post type ret) =>
      match verbs id with
      | some verb => (postVerb type ret verb).submitted
      | none => []
  | _ => []

inductive BufferAction (W : Wr) where
  | memory (action : MemoryAction)
  | ofSlices (id : Nat) (junk : Indeterminate) (head : Nat) (tail : List Nat)
  | setSglEntry (id head : Nat) (tail : List Nat)
  | addSglEntry (id head : Nat) (tail : List Nat)
  | verb (action : VerbAction W) (plain : action.listsSlices = false)

-- A verb whose list has been built from these entries.
def RdmaVerb.withList {W : Wr} (verb : RdmaVerb W) (entries : List IbvSge) : RdmaVerb W :=
  { verb with realSgl := verb.convertedSgl entries, constructedRealSgl := true }

namespace Buffers

variable {W : Wr}

-- `construct_sgl` of one verb, with `to_sge` on what its slices refer to.
def constructSgl (keys : Registrations) (b : Buffers W) (id : Nat) : Except Failure (LiveVerbs W) :=
  match b.verbs id with
  | none => .ok b.verbs
  | some verb =>
      -- `get_wr` ends the process before it comes to the list.
      if W = .ibvExpSendWr ∧ verb.opcode = none then .ok b.verbs
      else if verb.constructedRealSgl then .ok b.verbs
      else
        match (b.lists id).mapM (SliceRef.toSge b.memory.world keys) with
        | .error e => .error e
        | .ok entries =>
            .ok (b.verbs.set id (verb.withList entries))

-- The verbs as an action finds them that comes to build a request.
def build (keys : Registrations) (b : Buffers W) (action : VerbAction W) :
    Except Failure (LiveVerbs W) :=
  match action.builds b.verbs with
  | some id => b.constructSgl keys id
  | none => .ok b.verbs

-- What an action hands to the driver.
def submits (keys : Registrations) (b : Buffers W) (action : VerbAction W) : List (List Request) :=
  match b.build keys action with
  | .error _ => []
  | .ok built => built.submits action

-- A call that lists slices of the given numbers.
def listing (keys : Registrations) (b : Buffers W) (id : Nat) (before : List SliceRef)
    (action : RdmaMemorySlice → List RdmaMemorySlice → VerbAction W) (head : Nat)
    (tail : List Nat) : Except Failure (Buffers W) := do
  let first ← b.memory.fetch head
  let rest ← tail.mapM b.memory.fetch
  let known := SliceRef.known keys b.memory.world
  let verbs ← b.verbs.step (action (known first) (rest.map known))
  return { b with verbs, lists := Function.update b.lists id (before ++ first :: rest) }

def step (keys : Registrations) (b : Buffers W) : BufferAction W → Except Failure (Buffers W)
  | .memory action => do
      let memory ← b.memory.step action
      return { b with memory }
  | .ofSlices id junk head tail => b.listing keys id [] (.ofSlices id junk) head tail
  | .setSglEntry id head tail =>
      b.listing keys id [] (fun first rest => .call id (.setSglEntry first rest)) head tail
  | .addSglEntry id head tail =>
      b.listing keys id (b.lists id) (fun first rest => .call id (.addSglEntry first rest)) head
        tail
  | .verb action _ => do
      let built ← b.build keys action
      let verbs ← built.step action
      return { b with verbs, lists := action.relist b.lists }

-- What an action hands to the driver, a list of requests for each call.
def hands (keys : Registrations) (b : Buffers W) : BufferAction W → List (List Request)
  | .verb action _ => b.submits keys action
  | _ => []

def listed (keys : Registrations) (b : Buffers W)
    (action : RdmaMemorySlice → List RdmaMemorySlice → VerbAction W) (head : Nat)
    (tail : List Nat) : List (VerbAction W) :=
  match b.memory.fetch head, tail.mapM b.memory.fetch with
  | .ok first, .ok rest =>
      [action (first.known keys b.memory.world) (rest.map (SliceRef.known keys b.memory.world))]
  | _, _ => []

-- What an action is to verbs that have their slices as values.
def byValue (keys : Registrations) (b : Buffers W) : BufferAction W → List (VerbAction W)
  | .memory _ => []
  | .ofSlices id junk head tail => b.listed keys (.ofSlices id junk) head tail
  | .setSglEntry id head tail =>
      b.listed keys (fun first rest => .call id (.setSglEntry first rest)) head tail
  | .addSglEntry id head tail =>
      b.listed keys (fun first rest => .call id (.addSglEntry first rest)) head tail
  | .verb action _ => [action]

end Buffers

/-! ## Lists that are built beforehand -/

section values

variable {W : Wr} {verb : RdmaVerb W} {entries : List IbvSge}

theorem constructSgl_uncached (uncached : verb.constructedRealSgl = false)
    (mapped : verb.sgl.mapM RdmaMemorySlice.toSge = .ok entries) :
    verb.constructSgl = .ok (verb.withList entries) := by
  unfold RdmaVerb.constructSgl
  rw [uncached, mapped]
  rfl

theorem getWr_withList (uncached : verb.constructedRealSgl = false)
    (mapped : verb.sgl.mapM RdmaMemorySlice.toSge = .ok entries) :
    (verb.withList entries).getWr = verb.getWr := by
  have again : (verb.withList entries).constructSgl = .ok (verb.withList entries) := rfl
  rw [RdmaVerb.getWr_eq, RdmaVerb.getWr_eq, constructSgl_uncached uncached mapped, again]
  rfl

theorem getWr_unconverted (present : ¬ (W = .ibvExpSendWr ∧ verb.opcode = none))
    (uncached : verb.constructedRealSgl = false) {e : Failure}
    (failed : verb.sgl.mapM RdmaMemorySlice.toSge = .error e) : verb.getWr = .error e := by
  have unbuilt : verb.constructSgl = .error e := by
    unfold RdmaVerb.constructSgl
    rw [uncached, failed]
    rfl
  rw [RdmaVerb.getWr_eq, if_neg present, unbuilt]

theorem postVerb_withList (type : IbvQpType) (ret : Int)
    (uncached : verb.constructedRealSgl = false)
    (mapped : verb.sgl.mapM RdmaMemorySlice.toSge = .ok entries) :
    postVerb type ret (verb.withList entries) = postVerb type ret verb := by
  have same : postable type (verb.withList entries) = postable type verb := by cases W <;> rfl
  rw [postVerb, postVerb, same, getWr_withList uncached mapped]

theorem apply_withList {call : VerbCall W} (builds : call.buildsRequest verb = true)
    (uncached : verb.constructedRealSgl = false)
    (mapped : verb.sgl.mapM RdmaMemorySlice.toSge = .ok entries) :
    call.apply (verb.withList entries) = call.apply verb := by
  cases call with
  | getWr => rw [VerbCall.apply_getWr, VerbCall.apply_getWr, getWr_withList uncached mapped]
  | post type ret =>
    rw [VerbCall.apply_post, VerbCall.apply_post, postVerb_withList type ret uncached mapped]
  | _ => cases builds

theorem apply_unconverted {call : VerbCall W} (builds : call.buildsRequest verb = true)
    {e : Failure} (failed : verb.getWr = .error e) : call.apply verb = .error e := by
  cases call with
  | getWr => rw [VerbCall.apply_getWr, failed]
  | post type ret =>
    rw [VerbCall.apply_post, postVerb]
    cases able : postable type verb with
    | error other => simp [VerbCall.buildsRequest, able, Except.isOk, Except.toBool] at builds
    | ok => simp [failed]
  | _ => cases builds

theorem fetch_lives {verbs : LiveVerbs W} {id : Nat} (lives : verbs id = some verb) :
    verbs.fetch id = .ok verb := LiveVerbs.fetch_ok.mpr lives

theorem builds_cases {verbs : LiveVerbs W} {id : Nat} {action : VerbAction W}
    (reached : action.builds verbs = some id) :
    (∃ call verb, action = .call id call ∧ verbs id = some verb ∧
      call.buildsRequest verb = true) ∨ ∃ source, action = .setNext source id := by
  cases action with
  | call owner call =>
    simp only [VerbAction.builds] at reached
    split at reached
    next verb lives =>
      split at reached
      next builds =>
        obtain rfl := Option.some.inj reached
        exact .inl ⟨call, verb, rfl, lives, builds⟩
      next => cases reached
    next => cases reached
  | setNext source next =>
    obtain rfl := Option.some.inj reached
    exact .inr ⟨source, rfl⟩
  | _ => cases reached

/-- An action finds the list built that it would have built. -/
theorem step_withList {verbs : LiveVerbs W} {id : Nat} {action : VerbAction W}
    (reached : action.builds verbs = some id) (lives : verbs id = some verb)
    (uncached : verb.constructedRealSgl = false)
    (mapped : verb.sgl.mapM RdmaMemorySlice.toSge = .ok entries) :
    (verbs.set id (verb.withList entries)).step action = verbs.step action ∧
      (verbs.set id (verb.withList entries)).submits action = verbs.submits action := by
  have there := fetch_lives (LiveVerbs.set_self verbs id (verb.withList entries))
  rcases builds_cases reached with ⟨call, found, rfl, same, builds⟩ | ⟨source, rfl⟩
  · obtain rfl : verb = found := Option.some.inj (lives.symm.trans same)
    constructor
    · simp only [LiveVerbs.step, there, fetch_lives lives, apply_withList builds uncached mapped,
        LiveVerbs.set_set]
    · cases call with
      | post type ret =>
        simp only [LiveVerbs.submits, LiveVerbs.set_self, lives,
          postVerb_withList type ret uncached mapped]
      | _ => rfl
  · refine ⟨?_, rfl⟩
    simp only [LiveVerbs.step, LiveVerbs.setNext, LiveVerbs.getWr, there, fetch_lives lives,
      getWr_withList uncached mapped, LiveVerbs.set_set]

/-- An action ends the process over the list that it would have built. -/
theorem step_unconverted {verbs : LiveVerbs W} {id : Nat} {action : VerbAction W}
    (reached : action.builds verbs = some id) (lives : verbs id = some verb)
    (present : ¬ (W = .ibvExpSendWr ∧ verb.opcode = none))
    (uncached : verb.constructedRealSgl = false) {e : Failure}
    (failed : verb.sgl.mapM RdmaMemorySlice.toSge = .error e) :
    verbs.step action = .error e ∧ verbs.submits action = [] := by
  have unbuilt := getWr_unconverted present uncached failed
  rcases builds_cases reached with ⟨call, found, rfl, same, builds⟩ | ⟨source, rfl⟩
  · obtain rfl : verb = found := Option.some.inj (lives.symm.trans same)
    constructor
    · simp only [LiveVerbs.step, fetch_lives lives, apply_unconverted builds unbuilt]
    · cases call with
      | post type ret =>
        simp only [LiveVerbs.submits, lives, postVerb]
        split
        next => rfl
        next => rw [unbuilt]
      | _ => rfl
  · refine ⟨?_, rfl⟩
    simp only [LiveVerbs.step, LiveVerbs.setNext, LiveVerbs.getWr, fetch_lives lives, unbuilt]

end values

/-! ## Where the slices of the verbs are -/

-- Every verb's slices are in the relation to what is listed for it.
def Listed {W : Wr} (R : List RdmaMemorySlice → List SliceRef → Prop) (verbs : LiveVerbs W)
    (lists : Nat → List SliceRef) : Prop :=
  ∀ id verb, verbs id = some verb → R verb.sgl (lists id)

theorem VerbCall.apply_sgl {W : Wr} {id : Nat} {verb next : RdmaVerb W} {call : VerbCall W}
    (plain : (VerbAction.call id call).listsSlices = false) (taken : call.apply verb = .ok next) :
    next.sgl = verb.sgl := by
  cases call with
  | setSglEntry | addSglEntry => cases plain
  | getWr =>
    rw [apply_getWr] at taken
    rw [RdmaVerb.getWr_config taken]
  | post type ret =>
    rw [apply_post] at taken
    rw [RdmaVerb.getWr_config (postVerb_ok taken)]
  | setId id =>
    obtain rfl := Except.ok.inj taken
    change (verb.setId id).sgl = verb.sgl
    unfold RdmaVerb.setId
    split <;> rfl
  | setOp op =>
    obtain rfl := Except.ok.inj taken
    change (RdmaVerb.setOp verb op).sgl = verb.sgl
    unfold RdmaVerb.setOp
    split <;> rfl
  | setNotify notify =>
    obtain rfl := Except.ok.inj taken
    change (RdmaVerb.setNotify verb notify).sgl = verb.sgl
    unfold RdmaVerb.setNotify
    split <;> rfl
  | clearImm =>
    obtain rfl := Except.ok.inj taken
    change (RdmaVerb.clearImm verb).sgl = verb.sgl
    unfold RdmaVerb.clearImm
    split <;> rfl
  | setRemoteMemory | setImm | setCas | setFaa | setMaskedCas | setMaskedFaa | setCompare | setSwap
    | setCompareMask | setSwapMask | setAdd | setAddMask =>
    obtain rfl := Except.ok.inj taken
    rfl

theorem LiveVerbs.call_ok {W : Wr} {verbs next : LiveVerbs W} {id : Nat} {call : VerbCall W}
    (taken : verbs.step (.call id call) = .ok next) :
    ∃ verb called, verbs id = some verb ∧ call.apply verb = .ok called ∧
      next = verbs.set id called := by
  rw [LiveVerbs.step] at taken
  split at taken
  next => cases taken
  next verb fetched =>
    split at taken
    next => cases taken
    next called applied =>
      exact ⟨verb, called, LiveVerbs.fetch_ok.mp fetched, applied, (Except.ok.inj taken).symm⟩

section listed

variable {W : Wr} {R : List RdmaMemorySlice → List SliceRef → Prop} {verbs next : LiveVerbs W}
  {lists : Nat → List SliceRef}

theorem Listed.set (listed : Listed R verbs lists) (id : Nat) {verb : RdmaVerb W}
    {refs : List SliceRef} (here : R verb.sgl refs) :
    Listed R (verbs.set id verb) (Function.update lists id refs) := by
  intro other found lives
  by_cases same : other = id
  · subst same
    rw [LiveVerbs.set_self] at lives
    obtain rfl := Option.some.inj lives
    rwa [Function.update_self]
  · rw [LiveVerbs.set_other verbs verb same] at lives
    rw [Function.update_of_ne same]
    exact listed other found lives

theorem Listed.replace (listed : Listed R verbs lists) (id : Nat) {verb : RdmaVerb W}
    (here : R verb.sgl (lists id)) : Listed R (verbs.set id verb) lists := by
  have set := listed.set id here
  rwa [Function.update_eq_self] at set

theorem Listed.destroy (listed : Listed R verbs lists) (id : Nat) :
    Listed R (verbs.destroy id) (Function.update lists id []) := by
  intro other found lives
  by_cases same : other = id
  · subst same
    rw [LiveVerbs.destroy_self] at lives
    cases lives
  · rw [LiveVerbs.destroy_other verbs same] at lives
    rw [Function.update_of_ne same]
    exact listed other found lives

theorem Listed.getWr (listed : Listed R verbs lists) {id : Nat}
    (built : verbs.getWr id = .ok next) : Listed R next lists := by
  obtain ⟨verb, rebuilt, lives, requested, rfl⟩ := LiveVerbs.getWr_ok.mp built
  apply listed.replace id
  rw [RdmaVerb.getWr_config requested]
  exact listed id verb lives

theorem Listed.setNext (listed : Listed R verbs lists) {id target : Nat}
    (linked : verbs.setNext id target = .ok next) : Listed R next lists := by
  obtain ⟨mid, verb, requested, lives, rfl⟩ := LiveVerbs.setNext_ok.mp linked
  have built := listed.getWr requested
  exact built.replace id (built id verb lives)

theorem Listed.step (listed : Listed R verbs lists) (nil : R [] []) {action : VerbAction W}
    (plain : action.listsSlices = false) (taken : verbs.step action = .ok next) :
    Listed R next (action.relist lists) := by
  cases action with
  | construct id junk =>
    obtain rfl := Except.ok.inj taken
    exact listed.set id nil
  | ofSlices => cases plain
  | copyConstruct id junk src | moveConstruct id junk src =>
    rw [LiveVerbs.step] at taken
    split at taken
    next => cases taken
    next other fetched =>
      obtain rfl := Except.ok.inj taken
      have there := listed src other (LiveVerbs.fetch_ok.mp fetched)
      first
      | exact (listed.replace src there).set id there
      | exact (listed.set src nil).set id there
  | copyAssign dst src =>
    rw [LiveVerbs.step] at taken
    split at taken
    next => cases taken
    next => cases taken
    next verb other target fetched =>
      obtain rfl := Except.ok.inj taken
      have there := listed src other (LiveVerbs.fetch_ok.mp fetched)
      have assigned : Listed R (verbs.set dst (verb.copyAssign other).1)
          (Function.update lists dst (lists src)) := listed.set dst there
      refine assigned.replace src ?_
      by_cases same : src = dst
      · subst same
        rwa [Function.update_self]
      · rwa [Function.update_of_ne same]
  | moveAssign dst src =>
    rw [LiveVerbs.step] at taken
    split at taken
    next => cases taken
    next => cases taken
    next verb other target fetched =>
      obtain rfl := Except.ok.inj taken
      have assigned : Listed R (verbs.set dst (verb.moveAssign other).1)
          (Function.update lists dst (lists src)) :=
        listed.set dst (listed src other (LiveVerbs.fetch_ok.mp fetched))
      exact assigned.set src nil
  | call id call =>
    obtain ⟨verb, called, lives, applied, rfl⟩ := LiveVerbs.call_ok taken
    apply listed.replace id
    rw [VerbCall.apply_sgl plain applied]
    exact listed id verb lives
  | setNext id target => exact listed.setNext taken
  | clearNext id =>
    obtain ⟨verb, lives, rfl⟩ := LiveVerbs.clearNext_ok.mp taken
    exact listed.replace id (listed id verb lives)
  | destroy id =>
    obtain rfl := Except.ok.inj taken
    exact listed.destroy id

end listed

/-! ## Regions that stay while something refers to them -/

-- Slices that are what their regions make of them.
def Lists (keys : Registrations) (w : World) (slices : List RdmaMemorySlice)
    (refs : List SliceRef) : Prop :=
  List.Forall₂ (fun slice ref => ∃ region, w.HasRegion keys ref.region region ∧
    slice = ref.value region) slices refs

/-- Whatever refers to a region finds it with its registration, and as it was known. -/
structure Grounded {W : Wr} (keys : Registrations) (b : Buffers W) : Prop where
  slices : ∀ number ref, b.memory.slices number = some ref →
    ∃ region, b.memory.world.HasRegion keys ref.region region
  lists : Listed (Lists keys b.memory.world) b.verbs b.lists

-- Something in the program refers to the region.
def Buffers.RefersTo {W : Wr} (b : Buffers W) (region : Nat) : Prop :=
  (∃ number ref, b.memory.slices number = some ref ∧ ref.region = region) ∨
    ∃ id verb ref, b.verbs id = some verb ∧ ref ∈ b.lists id ∧ ref.region = region

/-- A region that something refers to is neither moved nor destroyed, and slices are only cut off
regions that have their registration. -/
def Respects {W : Wr} (keys : Registrations) (b : Buffers W) : BufferAction W → Prop
  | .memory (.act action) => ∀ region, b.RefersTo region → region ∉ action.writes
  | .memory (.root _ region _) => ∃ value, b.memory.world.HasRegion keys region value
  | _ => True

section grounded

variable {W : Wr} {keys : Registrations} {w after : World} {b next : Buffers W}
  {slices : List RdmaMemorySlice} {refs : List SliceRef}

theorem Lists.mapM_toSge (lists : Lists keys w slices refs) :
    refs.mapM (SliceRef.toSge w keys) = slices.mapM RdmaMemorySlice.toSge := by
  induction lists with
  | nil => rfl
  | cons here later ih =>
    obtain ⟨region, has, rfl⟩ := here
    rw [List.mapM_cons, List.mapM_cons, toSge_refines has, ih]

theorem Lists.congr (lists : Lists keys w slices refs)
    (same : ∀ ref ∈ refs, after.objects ref.region = w.objects ref.region) :
    Lists keys after slices refs := by
  induction lists with
  | nil => exact .nil
  | cons here later ih =>
    obtain ⟨region, has, known⟩ := here
    obtain ⟨first, rest⟩ := List.forall_mem_cons.mp same
    exact .cons ⟨region, has.congr first, known⟩ (ih rest)

theorem Lists.append {slices' : List RdmaMemorySlice} {refs' : List SliceRef}
    (lists : Lists keys w slices refs) (lists' : Lists keys w slices' refs') :
    Lists keys w (slices ++ slices') (refs ++ refs') := by
  induction lists with
  | nil => exact lists'
  | cons here later ih => exact .cons here ih

theorem known_eq {ref : SliceRef} {region : RdmaMemoryRegion}
    (has : w.HasRegion keys ref.region region) : ref.known keys w = ref.value region := by
  obtain ⟨object, lives, value⟩ := has
  simp only [SliceRef.known, lives, value]

theorem lists_known (all : ∀ ref ∈ refs, ∃ region, w.HasRegion keys ref.region region) :
    Lists keys w (refs.map (SliceRef.known keys w)) refs := by
  induction refs with
  | nil => exact .nil
  | cons ref rest ih =>
    obtain ⟨⟨region, has⟩, later⟩ := List.forall_mem_cons.mp all
    exact .cons ⟨region, has, known_eq has⟩ (ih later)

theorem Memory.fetch_ok {m : Memory} {number : Nat} {ref : SliceRef}
    (fetched : m.fetch number = .ok ref) : m.slices number = some ref := by
  unfold Memory.fetch at fetched
  split at fetched
  next lives => rw [lives, Except.ok.inj fetched]
  next => cases fetched

theorem Memory.mapM_fetch_ok {m : Memory} {numbers : List Nat}
    (fetched : numbers.mapM m.fetch = .ok refs) :
    ∀ ref ∈ refs, ∃ number, m.slices number = some ref := by
  induction numbers generalizing refs with
  | nil =>
    obtain rfl := Except.ok.inj fetched
    simp
  | cons number later ih =>
    rw [List.mapM_cons] at fetched
    obtain ⟨ref, first, fetched⟩ := bind_ok.mp fetched
    obtain ⟨rest, others, same⟩ := bind_ok.mp fetched
    obtain rfl := Except.ok.inj same
    exact List.forall_mem_cons.mpr ⟨⟨number, Memory.fetch_ok first⟩, ih others⟩

theorem empty_grounded : Grounded keys ({} : Buffers W) := by
  constructor
  · intro number ref lives
    cases lives
  · intro id verb lives
    cases lives

theorem Grounded.keep (grounded : Grounded keys b) {number : Nat} {made : SliceRef}
    (has : ∃ region, b.memory.world.HasRegion keys made.region region) :
    Grounded keys { b with memory :=
      { b.memory with slices := Function.update b.memory.slices number (some made) } } := by
  refine ⟨fun other ref lives => ?_, grounded.lists⟩
  simp only [Function.update_apply] at lives
  split at lives
  next =>
    obtain rfl := Option.some.inj lives
    exact has
  next => exact grounded.slices other ref lives

theorem Grounded.step_memory (grounded : Grounded keys b) {action : MemoryAction} {memory : Memory}
    (respects : Respects keys b (.memory action)) (taken : b.memory.step action = .ok memory) :
    Grounded keys { b with memory } := by
  cases action with
  | act action =>
    rw [Memory.step] at taken
    split at taken
    next => cases taken
    next world stepped =>
      obtain rfl := Except.ok.inj taken
      have only := (World.step_taken stepped).writesOnly
      constructor
      · intro number ref lives
        obtain ⟨region, has⟩ := grounded.slices number ref lives
        exact ⟨region, has.congr (only.objects _ (respects _ (.inl ⟨number, ref, lives, rfl⟩)))⟩
      · intro id verb lives
        refine (grounded.lists id verb lives).congr fun ref listed => ?_
        exact only.objects _ (respects _ (.inr ⟨id, verb, ref, lives, listed, rfl⟩))
  | root number source root =>
    obtain ⟨slice, made, rfl⟩ := Memory.keep_ok taken
    refine grounded.keep ?_
    rw [root_region made]
    exact respects
  | cut number parent call =>
    rw [Memory.step] at taken
    split at taken
    next ref lives =>
      obtain ⟨slice, made, rfl⟩ := Memory.keep_ok taken
      refine grounded.keep ?_
      rw [applyRef_region made]
      exact grounded.slices parent ref lives
    next => cases taken
  | drop number =>
    obtain rfl := Except.ok.inj taken
    refine ⟨fun other ref lives => ?_, grounded.lists⟩
    simp only [Function.update_apply] at lives
    split at lives
    next => cases lives
    next => exact grounded.slices other ref lives

/-- What an action on verbs does with the regions' objects is what it does with their values. -/
theorem Grounded.build_as_values (grounded : Grounded keys b) (action : VerbAction W) :
    (do (← b.build keys action).step action) = b.verbs.step action ∧
      b.submits keys action = b.verbs.submits action := by
  unfold Buffers.submits Buffers.build
  cases reached : action.builds b.verbs with
  | none => exact ⟨rfl, rfl⟩
  | some id =>
    simp only [Buffers.constructSgl]
    cases lives : b.verbs id with
    | none => exact ⟨rfl, rfl⟩
    | some verb =>
      by_cases missing : W = .ibvExpSendWr ∧ verb.opcode = none
      · simp only [if_pos missing]
        exact ⟨rfl, trivial⟩
      · cases cached : verb.constructedRealSgl with
        | true =>
          simp only [if_neg missing, cached, if_true]
          exact ⟨rfl, trivial⟩
        | false =>
          simp only [if_neg missing, cached, Bool.false_eq_true, if_false,
            (grounded.lists id verb lives).mapM_toSge]
          cases mapped : verb.sgl.mapM RdmaMemorySlice.toSge with
          | error e =>
            obtain ⟨stepped, submitted⟩ := step_unconverted reached lives missing cached mapped
            exact ⟨stepped.symm, submitted.symm⟩
          | ok entries => exact step_withList reached lives cached mapped

-- The slices are those that were listed before, if any, and those of the call.
theorem Grounded.listing (grounded : Grounded keys b) {id head : Nat} {tail : List Nat}
    {before : List SliceRef}
    {action : RdmaMemorySlice → List RdmaMemorySlice → VerbAction W}
    (writes : ∀ first rest verbs, b.verbs.step (action first rest) = .ok verbs →
      ∃ verb : RdmaVerb W, verbs = b.verbs.set id verb ∧ ∃ earlier,
        Lists keys b.memory.world earlier before ∧ verb.sgl = earlier ++ first :: rest)
    (taken : b.listing keys id before action head tail = .ok next) :
    Grounded keys next ∧
      run LiveVerbs.step b.verbs (b.listed keys action head tail) = .ok next.verbs := by
  obtain ⟨first, fetched, taken⟩ := bind_ok.mp taken
  obtain ⟨rest, others, taken⟩ := bind_ok.mp taken
  obtain ⟨verbs, stepped, same⟩ := bind_ok.mp taken
  obtain rfl := Except.ok.inj same
  constructor
  · refine ⟨grounded.slices, ?_⟩
    obtain ⟨verb, rfl, earlier, known, sgl⟩ := writes _ _ _ stepped
    refine grounded.lists.set id ?_
    have alive : ∀ ref ∈ first :: rest,
        ∃ region, b.memory.world.HasRegion keys ref.region region := by
      refine List.forall_mem_cons.mpr ⟨grounded.slices head first (Memory.fetch_ok fetched), ?_⟩
      intro ref among
      obtain ⟨number, lives⟩ := Memory.mapM_fetch_ok others ref among
      exact grounded.slices number ref lives
    rw [sgl]
    exact known.append (lists_known alive)
  · simp only [Buffers.listed, fetched, others]
    exact (run_cons_ok _ _ stepped).trans rfl

theorem Grounded.step (grounded : Grounded keys b) {action : BufferAction W}
    (respects : Respects keys b action) (taken : b.step keys action = .ok next) :
    Grounded keys next ∧ run LiveVerbs.step b.verbs (b.byValue keys action) = .ok next.verbs := by
  cases action with
  | memory action =>
    obtain ⟨memory, stepped, same⟩ := bind_ok.mp taken
    obtain rfl := Except.ok.inj same
    exact ⟨grounded.step_memory respects stepped, rfl⟩
  | ofSlices id junk head tail =>
    refine grounded.listing (fun first rest verbs stepped => ?_) taken
    rw [LiveVerbs.step] at stepped
    split at stepped
    next => cases stepped
    next verb built =>
      obtain rfl := Except.ok.inj stepped
      obtain ⟨-, rfl⟩ := RdmaVerb.setSglEntry_ok _ built
      exact ⟨_, rfl, [], .nil, rfl⟩
  | setSglEntry id head tail =>
    rw [Buffers.step] at taken
    refine grounded.listing (fun first rest verbs stepped => ?_) taken
    obtain ⟨verb, called, lives, applied, rfl⟩ := LiveVerbs.call_ok stepped
    rw [VerbCall.apply_setSglEntry] at applied
    obtain ⟨-, rfl⟩ := RdmaVerb.setSglEntry_ok _ applied
    exact ⟨_, rfl, [], .nil, rfl⟩
  | addSglEntry id head tail =>
    rw [Buffers.step] at taken
    refine grounded.listing (fun first rest verbs stepped => ?_) taken
    obtain ⟨verb, called, lives, applied, rfl⟩ := LiveVerbs.call_ok stepped
    rw [VerbCall.apply_addSglEntry] at applied
    obtain ⟨-, rfl⟩ := RdmaVerb.addSglEntry_cons_ok _ _ applied
    exact ⟨_, rfl, verb.sgl, grounded.lists id verb lives, rfl⟩
  | verb action plain =>
    have taken : (do
        let verbs ← (do (← b.build keys action).step action)
        return { b with verbs, lists := action.relist b.lists }) = Except.ok next := by
      rw [bind_assoc]
      exact taken
    rw [(grounded.build_as_values action).1] at taken
    obtain ⟨verbs, stepped, same⟩ := bind_ok.mp taken
    obtain rfl := Except.ok.inj same
    refine ⟨⟨grounded.slices, grounded.lists.step .nil plain stepped⟩, ?_⟩
    exact (run_cons_ok _ _ stepped).trans rfl

theorem listed_shows {head : Nat} {tail : List Nat}
    {action : RdmaMemorySlice → List RdmaMemorySlice → VerbAction W}
    (quiet : ∀ first rest, b.verbs.submits (action first rest) = []) :
    collected LiveVerbs.step LiveVerbs.submits b.verbs (b.listed keys action head tail) = [] := by
  unfold Buffers.listed
  split
  next first rest _ _ => exact (collected_singleton ..).trans (quiet _ _)
  next => rfl

theorem Grounded.shows (grounded : Grounded keys b) (action : BufferAction W) :
    b.hands keys action =
      collected LiveVerbs.step LiveVerbs.submits b.verbs (b.byValue keys action) := by
  cases action with
  | memory action => rfl
  | ofSlices | setSglEntry | addSglEntry =>
    rw [Buffers.byValue]
    exact (listed_shows fun _ _ => rfl).symm
  | verb action plain =>
    exact (grounded.build_as_values action).2.trans (collected_singleton ..).symm

end grounded

theorem references_refine (W : Wr) (keys : Registrations) :
    Refines (Buffers.step keys) LiveVerbs.step (Buffers.hands keys) LiveVerbs.submits
      (Grounded keys) (Respects keys) (Buffers.verbs (W := W)) (Buffers.byValue keys) where
  kept grounded respects taken := (grounded.step respects taken).1
  taken grounded respects taken := (grounded.step respects taken).2
  shown grounded _ := grounded.shows _

/-- While no region that something refers to is moved or destroyed, a program hands over what it
would if its verbs had had the keys and the pointers in place of the references. -/
theorem references_as_values {W : Wr} {keys : Registrations} {program : List (BufferAction W)}
    (respects : Always (Buffers.step keys) (Respects keys) {} program) :
    collected (Buffers.step keys) (Buffers.hands keys) {} program =
        collected LiveVerbs.step LiveVerbs.submits .empty
          (collected (Buffers.step keys) (Buffers.byValue keys) {} program) ∧
      ∀ last, run (Buffers.step keys) {} program = .ok last → Grounded keys last ∧
        run LiveVerbs.step .empty
          (collected (Buffers.step keys) (Buffers.byValue keys) {} program) = .ok last.verbs := by
  have refines := references_refine W keys
  refine ⟨refines.run_shows respects empty_grounded, fun last ran => ⟨?_, ?_⟩⟩
  · exact respects.invariant
      (fun _ _ _ grounded allowed taken => refines.kept grounded allowed taken) empty_grounded ran
  · exact refines.run_ok respects empty_grounded ran

-- Half of a page, listed by a receive verb.
def listHalf : List (BufferAction .ibvRecvWr) :=
  [.memory (.act (.constructRegion 1 twoPorts false 0x1000 64)),
    .memory (.root 0 1 (.call (.slice 16 32))), .ofSlices 0 { wrId := 3, wr := {} } 0 []]

def postHalf : BufferAction .ibvRecvWr := .verb (.call 0 (.post .rc 0)) rfl

def halfValues : List (VerbAction .ibvRecvWr) :=
  [.ofSlices 0 { wrId := 3, wr := {} }
    { region := { mr := ⟨7, 9⟩, ptr := 0x1000, size := 64 }, ptr := 0x1010, size := 32 } [],
    .call 0 (.post .rc 0)]

-- A completion queue comes between the listing and the call that posts the half.
theorem half_as_values :
    let program := listHalf ++ [.memory (.act (.constructCq 5)), postHalf]
    collected (Buffers.step pageKeys) (Buffers.byValue pageKeys) {} program = halfValues ∧
      collected (Buffers.step pageKeys) (Buffers.hands pageKeys) {} program =
        collected LiveVerbs.step LiveVerbs.submits .empty halfValues := by
  refine ⟨rfl, (references_as_values ?_).1⟩
  refine ⟨?_, fun _ taken => ?_⟩
  · rintro region (⟨number, ref, lives, -⟩ | ⟨id, verb, ref, lives, -⟩) <;> cases lives
  · obtain rfl := Except.ok.inj taken
    refine ⟨⟨_, _, rfl, rfl⟩, fun _ taken => ?_⟩
    obtain rfl := Except.ok.inj taken
    refine ⟨trivial, fun _ taken => ?_⟩
    obtain rfl := Except.ok.inj taken
    refine ⟨?_, fun _ _ => ⟨trivial, fun _ _ => trivial⟩⟩
    rintro region (⟨number, ref, lives, rfl⟩ | ⟨id, verb, ref, lives, listed, rfl⟩)
    · change Function.update (fun _ : Nat => none) 0 (some _) number = some ref at lives
      rw [Function.update_apply] at lives
      split at lives
      next =>
        obtain rfl := Option.some.inj lives
        simp [Action.writes]
      next => cases lives
    · change ref ∈ Function.update (fun _ : Nat => []) 0 [_] id at listed
      rw [Function.update_apply] at listed
      split at listed
      next =>
        obtain rfl := List.mem_singleton.mp listed
        simp [Action.writes]
      next => cases listed

-- A list that was built while the region was there is posted after it has gone.
example :
    collected (Buffers.step pageKeys) (Buffers.hands pageKeys) {}
        (listHalf ++ [.verb (.call 0 .getWr) rfl, .memory (.act (.destroy 1)), postHalf]) =
      [[{ wrId := 3, numSge := 1, sgl := some [{ addr := 0x1010, length := 32, lkey := 7 }],
          send := {} }]] := rfl

end Rdmalib2
