import Rdmalib2.Process.Scopes
import Rdmalib2.Shared.Run

set_option autoImplicit false

/-!
# Destroying in the right order

Variables are destroyed in the reverse of the order they are declared in, which is right for
everything that is never moved. Only completion queues can be moved out from under what rests on
them.
-/

namespace Rdmalib2

open Shared

def RestsIn (entries : List (DriverObject × Creation)) (member base : DriverObject) : Prop :=
  ∃ creation, (member, creation) ∈ entries ∧ base ∈ creation.rests

-- Objects that an object of another variable may rest on. Completion queues are left out where
-- they may be moved.
def Counts (queues : Bool) : DriverObject → Prop
  | .context _ | .pd _ | .resDomain _ => True
  | .handle (.cq _) => queues = true
  | .handle _ => False

-- Nothing rests on regions and queue pairs, and on device memory its own region only.
def Supports : DriverObject → DriverObject → Prop
  | .handle (.mr _), _ | .handle (.qp _), _ => False
  | .handle (.dm number), member => member = .handle (.mr number)
  | _, _ => True

instance (queues : Bool) : ∀ base, Decidable (Counts queues base)
  | .context _ | .pd _ | .resDomain _ => .isTrue trivial
  | .handle (.cq _) => inferInstanceAs (Decidable (queues = true))
  | .handle (.qp _) | .handle (.mr _) | .handle (.dm _) => .isFalse id

def DriverObject.isQueue : DriverObject → Bool
  | .handle (.cq _) => true
  | _ => false

theorem DriverObject.isQueue_iff {target : DriverObject} :
    target.isQueue = true ↔ ∃ number, target = .handle (.cq number) := by
  unfold isQueue
  split <;> simp_all

def Variable.Whole (value : Variable) : Prop :=
  ∀ number, .handle (.dm number) ∈ value.destroy →
    value.destroy = [.handle (.mr number), .handle (.dm number)]

namespace Scopes

def held (p : Scopes) : List DriverObject := heldIn p.locals

-- A completion queue of the variable serves a queue pair.
def QueueInUse (p : Scopes) (value : Variable) : Prop :=
  ∃ number, .handle (.cq number) ∈ value.destroy ∧ p.InUse (.handle (.cq number))

instance (p : Scopes) (value : Variable) : Decidable (p.QueueInUse value) :=
  decidable_of_iff (∃ target ∈ value.destroy, target.isQueue = true ∧ p.InUse target) <| by
    constructor
    · rintro ⟨target, listed, queue, inUse⟩
      obtain ⟨number, rfl⟩ := DriverObject.isQueue_iff.mp queue
      exact ⟨number, listed, inUse⟩
    · rintro ⟨number, listed, inUse⟩
      exact ⟨_, listed, rfl, inUse⟩

-- The variable whose object a statement destroys.
def dropped (p : Scopes) : Statement → Option Variable
  | .assign dst src =>
      match p.locals.lookup dst, p.locals.lookup src with
      | some (.object this), some (.object other) =>
          if this.sameClass other ∧ dst ≠ src then some (.object this) else none
      | _, _ => none
  | .leave => p.locals.head?.map Prod.snd
  | _ => none

def Spares (p : Scopes) (statement : Statement) : Prop :=
  ∀ value ∈ p.dropped statement, ¬ p.QueueInUse value

-- An assigned object is still younger than what it rests on.
def StaysAbove (queues : Bool) (p : Scopes) : Statement → Prop
  | .assign dst src => dst = src ∨ ∀ value ∈ p.locals.lookup src, ∀ entry ∈ p.live,
      entry.1 ∈ value.destroy → ∀ base ∈ entry.2.rests, Counts queues base →
        base ∈ heldIn (below dst p.locals)
  | _ => True

-- Moves and assignments that leave the completion queues in use where they are.
def Orderly (p : Scopes) : Statement → Prop
  | .move _ src => ∀ value ∈ p.locals.lookup src, ¬ p.QueueInUse value
  | .assign dst src =>
      p.Spares (.assign dst src) ∧ p.StaysAbove true (.assign dst src) ∧
        ∀ value ∈ p.locals.lookup src, ¬ p.QueueInUse value
  | _ => True

-- What keeps the pile of `Kept queues`, beside the order in which variables leave.
def Allowed (queues : Bool) (p : Scopes) : Statement → Prop
  | .move _ src => queues = true → ∀ value ∈ p.locals.lookup src, ¬ p.QueueInUse value
  | .assign dst src =>
      p.Spares (.assign dst src) ∧ p.StaysAbove queues (.assign dst src) ∧
        (dst = src ∨ (queues = true → ∀ value ∈ p.locals.lookup src, ¬ p.QueueInUse value))
  | .leave => queues = false → p.Spares .leave
  | _ => True

-- A statement that refuses nothing, or ends the program.
def Accepted (p : Scopes) (statement : Statement) : Prop :=
  ∀ next, p.step statement = .ok next → next.busy = p.busy

instance (p : Scopes) (statement : Statement) : Decidable (p.Spares statement) :=
  inferInstanceAs (Decidable (∀ _ ∈ p.dropped statement, _))

instance (queues : Bool) (p : Scopes) : ∀ statement, Decidable (p.StaysAbove queues statement)
  | .assign _ _ => inferInstanceAs (Decidable (_ ∨ _))
  | .context .. | .region .. | .cq .. | .qp .. | .move .. | .leave => .isTrue trivial

instance (p : Scopes) : ∀ statement, Decidable (p.Orderly statement)
  | .move _ src => inferInstanceAs (Decidable (∀ _ ∈ p.locals.lookup src, _))
  | .assign _ _ => inferInstanceAs (Decidable (_ ∧ _ ∧ ∀ _ ∈ _, _))
  | .context .. | .region .. | .cq .. | .qp .. | .leave => .isTrue trivial

instance (p : Scopes) (statement : Statement) : Decidable (p.Accepted statement) :=
  match taken : p.step statement with
  | .ok next => decidable_of_iff (next.busy = p.busy) (by simp [Accepted, taken])
  | .error e => .isTrue (by simp [Accepted, taken])

end Scopes

/-- The objects of the driver are those that the variables hold, piled up as the variables are. -/
structure Kept (queues : Bool) (p : Scopes) : Prop where
  piled : Piled (fun member base => RestsIn p.live member base ∧ Counts queues base) p.held
  listed : ∀ target, (∃ creation, (target, creation) ∈ p.live) ↔ target ∈ p.held
  numbered : ∀ target ∈ p.held, target.number < p.count
  shaped : ∀ entry ∈ p.live, ∀ base ∈ entry.2.rests, Supports base entry.1
  whole : ∀ entry ∈ p.locals, entry.2.Whole

/-! ## What a destructor tells the driver -/

theorem Object.handles_whole {object : Object} {number : Nat} (cq : .cq number ∈ object.destroy) :
    object.destroy = [.cq number] := by
  rw [Object.destroy_eq] at cq ⊢
  cases object with
  | qp type this => simp [Object.holds] at cq
  | cq this =>
    have held : this.cq = some number := by simpa [Object.holds] using cq
    simp [Object.holds, held]
  | region this => simp [Object.holds] at cq

namespace Scopes

variable {p : Scopes} {targets : List DriverObject}

theorem forget_nil (p : Scopes) : p.forget [] = p := by simp [forget]

theorem release_free {target : DriverObject} (free : ¬ p.InUse target) :
    p.release target = p.forget [target] := if_neg free

theorem restsIn_forget {member base : DriverObject}
    (on : RestsIn (p.forget targets).live member base) :
    RestsIn p.live member base ∧ member ∉ targets := by
  obtain ⟨creation, listed, rests⟩ := on
  obtain ⟨before, kept⟩ := List.mem_filter.mp listed
  exact ⟨⟨creation, before, rests⟩, by simpa using kept⟩

/-- Nothing is refused when what rests on an object is destroyed before it. -/
theorem releaseAll_forget (ordered : ∀ before target after, targets = before ++ target :: after →
    ∀ member, RestsIn p.live member target → member ∈ before) :
    p.releaseAll targets = p.forget targets := by
  induction targets generalizing p with
  | nil => exact p.forget_nil.symm
  | cons first rest ih =>
    have free : ¬ p.InUse first := by
      rintro ⟨⟨member, creation⟩, listed, rests⟩
      exact absurd (ordered [] first rest rfl member ⟨creation, listed, rests⟩) List.not_mem_nil
    have later : ∀ before target after, rest = before ++ target :: after →
        ∀ member, RestsIn (p.forget [first]).live member target → member ∈ before := by
      intro before target after split member on
      obtain ⟨earlier, other⟩ := restsIn_forget on
      have found := ordered (first :: before) target after (by rw [split]; rfl) member earlier
      exact (List.mem_cons.mp found).resolve_left (by simpa using other)
    rw [releaseAll, release_free free, ih later]
    simp only [forget, List.filter_filter, Scopes.mk.injEq, true_and, and_true]
    refine List.filter_congr fun entry _ => ?_
    simp [not_or, Bool.and_comm]

theorem object_free {queues : Bool} {object : Object}
    (unused : queues = true → ¬ p.QueueInUse (.object object)) {target : DriverObject}
    (listed : target ∈ (Variable.object object).destroy) (member : DriverObject) :
    ¬ (RestsIn p.live member target ∧ Counts queues target) := by
  rintro ⟨⟨creation, live, rests⟩, counts⟩
  obtain ⟨handle, -, rfl⟩ := List.mem_map.mp listed
  cases handle with
  | cq number => exact unused counts ⟨number, listed, (member, creation), live, rests⟩
  | qp number | mr number | dm number => exact counts

end Scopes

namespace Kept

variable {queues : Bool} {p : Scopes}

theorem member_held (kept : Kept queues p) {member base : DriverObject}
    (on : RestsIn p.live member base) : member ∈ p.held := by
  obtain ⟨creation, listed, -⟩ := on
  exact (kept.listed member).mp ⟨creation, listed⟩

theorem closed (kept : Kept queues p) {member base : DriverObject}
    (on : RestsIn p.live member base) (counts : Counts queues base) : base ∈ p.held := by
  have found := PiledOn.closed kept.piled (kept.member_held on) ⟨on, counts⟩
  simpa using found

theorem supports (kept : Kept queues p) {member base : DriverObject}
    (on : RestsIn p.live member base) : Supports base member := by
  obtain ⟨creation, listed, rests⟩ := on
  exact kept.shaped (member, creation) listed base rests

/-- The parts of a region, a queue pair or an unused completion queue are not refused. -/
theorem object_released (kept : Kept queues p) {object : Object} (whole : (Variable.object object).Whole)
    (unused : ¬ p.QueueInUse (.object object)) :
    p.releaseAll (Variable.object object).destroy = p.forget (Variable.object object).destroy := by
  refine Scopes.releaseAll_forget fun before target after split member on => ?_
  have listed : target ∈ (Variable.object object).destroy := by simp [split]
  have supported := kept.supports on
  obtain ⟨handle, -, rfl⟩ := List.mem_map.mp listed
  cases handle with
  | qp number | mr number => exact absurd supported id
  | cq number =>
    obtain ⟨creation, live, rests⟩ := on
    exact absurd ⟨number, listed, (member, creation), live, rests⟩ unused
  | dm number =>
    obtain rfl : member = .handle (.mr number) := supported
    rw [whole number listed] at split
    cases before with
    | nil => simp at split
    | cons first rest =>
      obtain ⟨rfl, -⟩ := List.cons.inj split
      exact List.mem_cons_self

/-- The last variable goes without a refusal, unless it is a completion queue in use. -/
theorem top_released (kept : Kept queues p) {name : Nat} {value : Variable}
    {rest : List (Nat × Variable)} (top : p.locals = (name, value) :: rest)
    (unused : queues = false → ¬ p.QueueInUse value) :
    p.releaseAll value.destroy = p.forget value.destroy := by
  have piled := kept.piled
  rw [Scopes.held, top, heldIn_cons] at piled
  cases value with
  | context this =>
    refine Scopes.releaseAll_forget fun before target after split member on => ?_
    rw [split, List.append_assoc, List.cons_append] at piled
    have listed := kept.member_held on
    rw [Scopes.held, top, heldIn_cons, split, List.append_assoc, List.cons_append] at listed
    refine piled.earlier listed ⟨on, ?_⟩
    have own : target ∈ this.destroy := by
      rw [show this.destroy = before ++ target :: after from split]
      simp
    rw [ContextObject.destroy] at own
    simp only [List.mem_append, List.mem_map, List.mem_cons, List.not_mem_nil, or_false] at own
    rcases own with ⟨number, -, rfl⟩ | rfl | rfl <;> trivial
  | object object =>
    refine kept.object_released (kept.whole (name, .object object) (by simp [top])) ?_
    cases queues with
    | false => exact unused rfl
    | true =>
      rintro ⟨number, listed, ⟨member, creation⟩, live, rests⟩
      obtain ⟨handle, own, same⟩ := List.mem_map.mp listed
      obtain rfl : handle = .cq number := DriverObject.handle.inj same
      have only : (Variable.object object).destroy = [.handle (.cq number)] := by
        rw [Variable.destroy, Object.handles_whole own]
        rfl
      have on : RestsIn p.live member (.handle (.cq number)) := ⟨creation, live, rests⟩
      have found := kept.member_held on
      rw [Scopes.held, top, heldIn_cons, only] at found
      rw [only] at piled
      exact piled.top_free found ⟨on, rfl⟩

/-! ## One statement -/

-- Variables that hold what is left when some objects are destroyed.
theorem rebind (kept : Kept queues p) {targets : List DriverObject}
    {locals : List (Nat × Variable)}
    (piled : Piled (fun member base => RestsIn p.live member base ∧ Counts queues base)
      (heldIn locals))
    (left : ∀ target, target ∈ heldIn locals ↔ target ∈ p.held ∧ target ∉ targets)
    (whole : ∀ entry ∈ locals, entry.2.Whole) :
    Kept queues ((p.forget targets).rebind locals) where
  piled := piled.congr fun _ _ _ on => ⟨(Scopes.restsIn_forget on.1).1, on.2⟩
  listed := by
    intro target
    rw [Scopes.held, Scopes.rebind, left, ← kept.listed]
    simp [Scopes.forget]
  numbered := fun target listed => kept.numbered target ((left target).mp listed).1
  shaped := fun entry listed => kept.shaped entry (List.mem_filter.mp listed).1
  whole := whole

theorem nodup (kept : Kept queues p) {upper lower : List DriverObject}
    (split : p.held = upper ++ lower) {target : DriverObject} (below : target ∈ lower) :
    target ∉ upper := by
  have piled := kept.piled
  rw [split] at piled
  exact fun above => (piled_append.mp piled).1.apart above below

theorem outside (kept : Kept queues p) (upper : List DriverObject) {part lower : List DriverObject}
    (split : p.held = upper ++ (part ++ lower)) (target : DriverObject) :
    target ∈ upper ++ lower ↔ target ∈ p.held ∧ target ∉ part := by
  have above : target ∈ part ++ lower → target ∉ upper := kept.nodup split
  have below : target ∈ lower → target ∉ upper ++ part := kept.nodup (by simp [split])
  rw [split]
  simp only [List.mem_append] at above below ⊢
  tauto

theorem left (kept : Kept queues p) {name : Nat} {value : Variable}
    {rest : List (Nat × Variable)} (top : p.locals = (name, value) :: rest) :
    Kept queues ((p.forget value.destroy).rebind rest) := by
  have split : p.held = value.destroy ++ heldIn rest := by rw [Scopes.held, top, heldIn_cons]
  have piled := kept.piled
  rw [split] at piled
  refine kept.rebind (piled_append.mp piled).2 ?_ fun entry listed =>
    kept.whole entry (by rw [top]; exact List.mem_cons_of_mem _ listed)
  exact kept.outside [] split

theorem moved_whole {other : Object} (whole : (Variable.object other).Whole) :
    (Variable.object other.moveConstruct.1).Whole ∧
      (Variable.object other.moveConstruct.2).Whole := by
  simpa [Variable.Whole, Variable.destroy, Object.destroy_eq] using whole

theorem moved_destroy (other : Object) :
    (Variable.object other.moveConstruct.1).destroy = (Variable.object other).destroy ∧
      (Variable.object other.moveConstruct.2).destroy = [] := by
  simp [Variable.destroy, Object.destroy_eq]

theorem moved (kept : Kept queues p) {name src : Nat} {other : Object}
    (source : p.locals.lookup src = some (.object other))
    (unused : queues = true → ¬ p.QueueInUse (.object other)) :
    Kept queues (p.rebind ((name, .object other.moveConstruct.1) ::
      put p.locals src (.object other.moveConstruct.2))) := by
  obtain ⟨younger, older, split, absent⟩ := lookup_split source
  obtain ⟨taken, emptied⟩ := moved_destroy other
  obtain ⟨taken_whole, emptied_whole⟩ :=
    moved_whole (kept.whole (src, .object other) (by simp [split]))
  have before : p.held = heldIn younger ++ ((Variable.object other).destroy ++ heldIn older) := by
    rw [Scopes.held, split, heldIn_append, heldIn_cons]
  have piled := kept.piled
  rw [before] at piled
  rw [split, put_split _ absent, ← p.forget_nil]
  refine kept.rebind ?_ (fun target => ?_) fun entry listed => ?_
  · rw [heldIn_cons, heldIn_append, heldIn_cons, taken, emptied, List.nil_append]
    exact piled.raise fun member _ target own => Scopes.object_free unused own member
  · rw [before]
    simp only [heldIn_cons, heldIn_append, taken, emptied, List.mem_append, List.not_mem_nil]
    tauto
  · rcases List.mem_cons.mp listed with rfl | later
    · exact taken_whole
    · rw [← put_split (.object other.moveConstruct.2) absent] at later
      rcases put_mem later with same | old
      · rw [same]
        exact emptied_whole
      · exact kept.whole entry (split ▸ old)

theorem assigned (kept : Kept queues p) {dst src : Nat} {this other : Object} (apart : dst ≠ src)
    (target : p.locals.lookup dst = some (.object this))
    (source : p.locals.lookup src = some (.object other))
    (dropped : ¬ p.QueueInUse (.object this))
    (unused : queues = true → ¬ p.QueueInUse (.object other))
    (above : p.StaysAbove queues (.assign dst src)) :
    Kept queues ((p.forget (Variable.object this).destroy).rebind
      (put (put p.locals src (.object other.moveConstruct.2)) dst
        (.object other.moveConstruct.1))) := by
  obtain ⟨taken, emptied⟩ := moved_destroy other
  obtain ⟨taken_whole, emptied_whole⟩ :=
    moved_whole (kept.whole (src, .object other) (lookup_mem source))
  have unrested : ∀ {member}, ∀ gone ∈ (Variable.object this).destroy,
      ¬ (RestsIn p.live member gone ∧ Counts queues gone) :=
    fun gone own => Scopes.object_free (fun _ => dropped) own _
  have whole : ∀ entry ∈ put (put p.locals src (.object other.moveConstruct.2)) dst
      (.object other.moveConstruct.1), entry.2.Whole := by
    intro entry listed
    rcases put_mem listed with same | before
    · rwa [same]
    · rcases put_mem before with same | old
      · rwa [same]
      · exact kept.whole entry old
  have piled := kept.piled
  cases placed apart target source with
  | younger first between older split under puts =>
    have before : p.held = (heldIn first ++ ((Variable.object other).destroy ++ heldIn between)) ++
        ((Variable.object this).destroy ++ heldIn older) := by
      rw [Scopes.held, split]
      simp
    rw [before] at piled
    refine kept.rebind ?_ (fun gone => ?_) whole
    · have without := piled.without fun member _ gone own => unrested gone own
      simp only [List.append_assoc] at without
      -- The target is older than the source, so the source's object sinks.
      have sunk := without.trade fun member own base inside on => by
        obtain ⟨⟨creation, listed, rests⟩, counts⟩ := on
        have lower := above.resolve_left apart _ source (member, creation) listed own base rests counts
        rw [under] at lower
        have outside := kept.nodup before (List.mem_append_right _ lower)
        exact outside (by simp [inside])
      simpa [puts, taken, emptied] using sunk
    · rw [← kept.outside _ before, puts]
      simp only [heldIn_append, heldIn_cons, taken, emptied, List.mem_append, List.not_mem_nil]
      tauto
  | older first between older split puts =>
    have before : p.held = heldIn first ++ ((Variable.object this).destroy ++
        (heldIn between ++ ((Variable.object other).destroy ++ heldIn older))) := by
      rw [Scopes.held, split]
      simp
    rw [before] at piled
    refine kept.rebind ?_ (fun gone => ?_) whole
    · have without := piled.without fun member _ gone own => unrested gone own
      have risen := without.trade fun member _ target own => Scopes.object_free unused own member
      simpa [puts, taken, emptied] using risen
    · rw [← kept.outside _ before, puts]
      simp only [heldIn_append, heldIn_cons, taken, emptied, List.mem_append, List.not_mem_nil]
      tauto

/-- A variable whose object's parts are new and rest on what the other variables hold. -/
theorem declared (kept : Kept queues p) {name : Nat} {value : Variable}
    {made : List (DriverObject × Creation)} (own : made.map Prod.fst = value.destroy)
    (fresh : ∀ entry ∈ made, entry.1.number = p.count)
    (piled : PiledOn (fun member base => RestsIn made member base ∧ Counts queues base) p.held
      (made.map Prod.fst))
    (shaped : ∀ entry ∈ made, ∀ base ∈ entry.2.rests, Supports base entry.1)
    (whole : value.Whole) : Kept queues (p.declare name value made) := by
  have holds : (p.declare name value made).held = made.map Prod.fst ++ p.held := by
    rw [Scopes.held, Scopes.declare, heldIn_cons, own]
    rfl
  have made_number : ∀ member ∈ made.map Prod.fst, member.number = p.count := by
    intro member listed
    obtain ⟨entry, mine, rfl⟩ := List.mem_map.mp listed
    exact fresh entry mine
  have apart : ∀ member ∈ p.held, member ∉ made.map Prod.fst := fun member old new => by
    have := kept.numbered member old
    have := made_number member new
    omega
  refine ⟨?_, fun target => ?_, fun target listed => ?_, fun entry listed => ?_, fun entry listed => ?_⟩
  · rw [holds]
    refine piled_append.mpr ⟨piled.congr ?_, kept.piled.congr ?_⟩
    · rintro member new base ⟨⟨creation, listed, rests⟩, counts⟩
      refine ⟨⟨creation, (List.mem_append.mp listed).resolve_right fun old => ?_, rests⟩, counts⟩
      exact apart member ((kept.listed member).mp ⟨creation, old⟩) new
    · rintro member old base ⟨⟨creation, listed, rests⟩, counts⟩
      refine ⟨⟨creation, (List.mem_append.mp listed).resolve_left fun new => ?_, rests⟩, counts⟩
      exact apart member old (List.mem_map.mpr ⟨_, new, rfl⟩)
  · rw [holds, List.mem_append, ← kept.listed]
    simp [Scopes.declare, exists_or]
  · rw [holds] at listed
    rcases List.mem_append.mp listed with new | old
    · simp [Scopes.declare, made_number target new]
    · exact Nat.lt_succ_of_lt (kept.numbered target old)
  · rcases List.mem_append.mp listed with new | old
    · exact shaped entry new
    · exact kept.shaped entry old
  · rcases List.mem_cons.mp listed with rfl | old
    · exact whole
    · exact kept.whole entry old

-- A variable of one object that is not memory.
theorem declared_one (kept : Kept queues p) {name : Nat} {value : Variable} {target : DriverObject}
    {creation : Creation} (own : value.destroy = [target]) (fresh : target.number = p.count)
    (memory : ∀ number, target ≠ .handle (.dm number))
    (held : ∀ base ∈ creation.rests, Counts queues base → base ∈ p.held)
    (shaped : ∀ base ∈ creation.rests, Supports base target) :
    Kept queues (p.declare name value [(target, creation)]) := by
  refine kept.declared own.symm (by simpa using fresh) ⟨?_, ?_, trivial⟩ (by simpa using shaped) ?_
  · intro listed
    have := kept.numbered target (by simpa using listed)
    omega
  · rintro base ⟨⟨made, listed, rests⟩, counts⟩
    obtain rfl : made = creation := by simpa using listed
    exact held base rests counts
  · intro number dm
    rw [own] at dm
    exact absurd (List.mem_singleton.mp dm).symm (memory number)

theorem context_declared (kept : Kept queues p) (name : Nat) (value : RdmaContext) (hinted : Bool) :
    Kept queues (p.declare name
      (.context { value with
        ctx := p.count, pd := p.count, rd := if hinted then some p.count else none })
      (contextCalls hinted p.count)) := by
  have fresh : ∀ target ∈ p.held, target.number ≠ p.count := fun target listed =>
    (kept.numbered target listed).ne
  have unheld : .context p.count ∉ p.held ∧ .pd p.count ∉ p.held ∧ .resDomain p.count ∉ p.held :=
    ⟨fun old => fresh _ old rfl, fun old => fresh _ old rfl, fun old => fresh _ old rfl⟩
  refine kept.declared ?_ ?_ ?_ ?_ ?_
  · cases hinted <;> rfl
  · cases hinted <;> simp [contextCalls, DriverObject.number]
  · cases hinted <;>
      simp [contextCalls, PiledOn, RestsIn, Creation.rests, unheld]
  · cases hinted <;> simp [contextCalls, Creation.rests, Supports]
  · intro number dm
    cases hinted <;> simp [Variable.destroy, ContextObject.destroy] at dm

theorem region_declared (kept : Kept queues p) (name : Nat) {ctx : ContextObject}
    (held : ∀ target ∈ ctx.destroy, target ∈ p.held) (device : Bool) (perm : UInt32)
    (ptr size : UInt64) :
    Kept queues (p.declare name
      (.object (.region
        { ctx := ctx.toRdmaContext, mr := some p.count, dm := if device then some p.count else none
          ptr, size }))
      (regionCalls ctx device perm ptr size p.count)) := by
  have pd : .pd ctx.pd ∈ p.held := held _ (by simp [ContextObject.destroy])
  have context : .context ctx.ctx ∈ p.held := held _ (by simp [ContextObject.destroy])
  cases device with
  | false =>
    refine kept.declared_one rfl rfl (by simp) ?_ ?_ <;> simp [Creation.rests, Supports, pd]
  | true =>
    have fresh : ∀ target ∈ p.held, target.number ≠ p.count := fun target listed =>
      (kept.numbered target listed).ne
    have unheld : .handle (.mr p.count) ∉ p.held ∧ .handle (.dm p.count) ∉ p.held :=
      ⟨fun old => fresh _ old rfl, fun old => fresh _ old rfl⟩
    refine kept.declared rfl ?_ ?_ ?_ ?_
    · simp [regionCalls, DriverObject.number, Handle.number]
    · simp [regionCalls, PiledOn, RestsIn, Creation.rests, unheld, pd, context, Counts]
    · simp [regionCalls, Creation.rests, Supports]
    · intro number dm
      simp_all [Variable.destroy, Object.destroy_eq, Object.holds]

theorem cq_declared (kept : Kept queues p) (name : Nat) {ctx : ContextObject}
    (held : ∀ target ∈ ctx.destroy, target ∈ p.held) (cqDepth : Int) :
    Kept queues (p.declare name (.object (.cq { cq := some p.count }))
      [(.handle (.cq p.count), createRdmaCqCall ctx cqDepth)]) := by
  refine kept.declared_one rfl rfl (by simp) (fun base rests _ => held base ?_) fun base rests => ?_
  · exact createRdmaCqCall_rests rests
  · have own := createRdmaCqCall_rests rests
    simp only [ContextObject.destroy, List.mem_append, List.mem_map, List.mem_cons,
      List.not_mem_nil, or_false] at own
    rcases own with ⟨number, -, rfl⟩ | rfl | rfl <;> trivial

theorem qp_declared (kept : Kept queues p) (name : Nat) {ctx : ContextObject}
    {sendCq recvCq : CqObject} (held : ∀ target ∈ ctx.destroy, target ∈ p.held)
    (sends : ∀ number, sendCq.cq = some number → .handle (.cq number) ∈ p.held)
    (recvs : ∀ number, recvCq.cq = some number → .handle (.cq number) ∈ p.held)
    (type : IbvQpType) (qpDepth : Int) (features : QpFeatureBase) :
    Kept queues (p.declare name (.object (.qp type { ctx := ctx.toRdmaContext, qp := some p.count }))
      [(.handle (.qp p.count),
        .expCreateQp ctx.ctx (createRdmaQpAttr ctx type qpDepth sendCq recvCq features))]) := by
  have cases_rests : ∀ base ∈ (Creation.expCreateQp ctx.ctx
      (createRdmaQpAttr ctx type qpDepth sendCq recvCq features)).rests,
      base ∈ ctx.destroy ∨ ∃ number, base = .handle (.cq number) ∧
        (sendCq.cq = some number ∨ recvCq.cq = some number) := by
    intro base rests
    rcases List.mem_cons.mp rests with rfl | rests
    · exact .inl (by simp [ContextObject.destroy])
    · exact createRdmaQpAttr_rests rests
  refine kept.declared_one rfl rfl (by simp) (fun base rests _ => ?_) fun base rests => ?_
  · rcases cases_rests base rests with own | ⟨number, rfl, send | recv⟩
    · exact held base own
    · exact sends number send
    · exact recvs number recv
  · rcases cases_rests base rests with own | ⟨number, rfl, -⟩
    · simp only [ContextObject.destroy, List.mem_append, List.mem_map, List.mem_cons,
        List.not_mem_nil, or_false] at own
      rcases own with ⟨number, -, rfl⟩ | rfl | rfl <;> trivial
    · trivial

/-- What the order of the variables allows is not refused and keeps the order. -/
theorem step (kept : Kept queues p) {statement : Statement} (allowed : p.Allowed queues statement)
    {next : Scopes} (taken : p.step statement = .ok next) :
    Kept queues next ∧ next.busy = p.busy := by
  cases statement with
  | context name value hinted =>
    obtain rfl := Except.ok.inj taken
    exact ⟨kept.context_declared name value hinted, rfl⟩
  | region name ctx device perm ptr size =>
    cases named : p.contextNamed ctx with
    | error e => simp [Scopes.step, named, bind, Except.bind] at taken
    | ok this =>
      simp only [Scopes.step, named, bind, Except.bind, pure, Except.pure, Except.ok.injEq] at taken
      rw [← taken]
      exact ⟨kept.region_declared name (fun _ => Scopes.contextNamed_held named) device perm ptr size,
        rfl⟩
  | cq name ctx cqDepth =>
    cases named : p.contextNamed ctx with
    | error e => simp [Scopes.step, named, bind, Except.bind] at taken
    | ok this =>
      simp only [Scopes.step, named, bind, Except.bind, pure, Except.pure, Except.ok.injEq] at taken
      rw [← taken]
      exact ⟨kept.cq_declared name (fun _ => Scopes.contextNamed_held named) cqDepth, rfl⟩
  | qp name ctx sendCq recvCq type implemented qpDepth features allowed =>
    cases named : p.contextNamed ctx with
    | error e => simp [Scopes.step, named, bind, Except.bind] at taken
    | ok this =>
      cases send : p.cqNamed sendCq with
      | error e => simp [Scopes.step, named, send, bind, Except.bind] at taken
      | ok sends =>
        cases recv : p.cqNamed recvCq with
        | error e => simp [Scopes.step, named, send, recv, bind, Except.bind] at taken
        | ok recvs =>
          simp only [Scopes.step, named, send, recv, bind, Except.bind, pure, Except.pure,
            Except.ok.injEq] at taken
          rw [← taken]
          exact ⟨kept.qp_declared name (fun _ => Scopes.contextNamed_held named)
            (fun _ => Scopes.cqNamed_held send) (fun _ => Scopes.cqNamed_held recv) type qpDepth
            features, rfl⟩
  | move name src =>
    rw [Scopes.step] at taken
    split at taken
    next other source =>
      obtain rfl := Except.ok.inj taken
      exact ⟨kept.moved source fun counts => allowed counts _ source, rfl⟩
    next => cases taken
  | assign dst src =>
    obtain ⟨spares, above, unused⟩ := allowed
    rw [Scopes.step] at taken
    split at taken
    next this other target source =>
      split at taken
      next => cases taken
      next same =>
        split at taken
        next =>
          obtain rfl := Except.ok.inj taken
          exact ⟨kept, rfl⟩
        next apart =>
          obtain rfl := Except.ok.inj taken
          have dropped : ¬ p.QueueInUse (.object this) := spares _ (by
            simpa [Scopes.dropped, target, source, apart] using same)
          have released := kept.object_released
            (kept.whole (dst, .object this) (lookup_mem target)) dropped
          rw [released]
          exact ⟨kept.assigned apart target source dropped
            (fun counts => (unused.resolve_left apart) counts _ source) above, rfl⟩
    next => cases taken
  | leave =>
    rw [Scopes.step] at taken
    split at taken
    next name value rest top =>
      obtain rfl := Except.ok.inj taken
      rw [kept.top_released top fun skipped => allowed skipped value (by
        simp [Scopes.dropped, top])]
      exact ⟨kept.left top, rfl⟩
    next => cases taken

end Kept

end Rdmalib2
