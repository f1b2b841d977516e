import Rdmalib2.Shared.Linked
import Rdmalib2.Verb.Live

set_option autoImplicit false

/-!
# Batch posting

`post_verb(first, last)` links the cached requests of a range and hands the driver the first.
-/

namespace Rdmalib2

open Shared

-- What `ibv_exp_post_send` is given: the requests as they are in memory, and the head of a list.
structure Handed where
  verbs : LiveVerbs .ibvExpSendWr
  head : Nat

structure BatchPosted where
  handed : Option Handed
  result : Except Failure (LiveVerbs .ibvExpSendWr)

-- The two assertions of the chaining loop.
def chainable (type : IbvQpType) (verb : RdmaSendFamily) : Except Failure Unit :=
  match verb.opcode with
  | none => .error (.panic "assertion failed: (*it).get_op().has_value()" [])
  | some opcode =>
      rdmalib2Assert (qpVerbCompat type opcode) "(qp_verb_compat<Type, Wr>{})(*((*it).get_op()))"

-- The chaining loop. Static assertions keep it to send verbs.
def chainVerbs (type : IbvQpType) (verbs : LiveVerbs .ibvExpSendWr) :
    List Nat → Except Failure (LiveVerbs .ibvExpSendWr)
  | [] => .ok verbs
  | it :: rest => do
      chainable type (← verbs.fetch it)
      let verbs ← verbs.getWr it
      let verbs ← match rest with
        | next :: _ => verbs.setNext it next
        | [] => verbs.clearNext it
      chainVerbs type verbs rest

def clearChain (verbs : LiveVerbs .ibvExpSendWr) :
    List Nat → Except Failure (LiveVerbs .ibvExpSendWr)
  | [] => .ok verbs
  | it :: rest => do
      let verbs ← verbs.clearNext it
      clearChain verbs rest

-- `post_verb(first, last)`; `ret` is the driver's return value.
def postVerbs (type : IbvQpType) (ret : Int) (verbs : LiveVerbs .ibvExpSendWr)
    (range : List Nat) : BatchPosted :=
  match chainVerbs type verbs range with
  | .error e => { handed := none, result := .error e }
  | .ok verbs =>
      match range with
      | [] => { handed := none, result := .error (.undefined "dereference of the end of a range") }
      | first :: _ =>
          -- The head is asked for its request once more, after it has been linked.
          match verbs.getWr first with
          | .error e => { handed := none, result := .error e }
          | .ok verbs =>
              { handed := some { verbs, head := first }
                result :=
                  if ret ≠ 0 then .error (postFailed .ibvExpSendWr ret)
                  else clearChain verbs range }

-- `post_verb` on each verb of the range in turn, on a driver that accepts every request.
def postEach (type : IbvQpType) (verbs : LiveVerbs .ibvExpSendWr) :
    List Nat → Posted (LiveVerbs .ibvExpSendWr)
  | [] => { submitted := [], result := .ok verbs }
  | id :: rest =>
      match verbs.fetch id with
      | .error e => { submitted := [], result := .error e }
      | .ok verb =>
          let posted := postVerb type 0 verb
          match posted.result with
          | .error e => { submitted := posted.submitted, result := .error e }
          | .ok verb =>
              let later := postEach type (verbs.set id verb) rest
              { submitted := posted.submitted ++ later.submitted, result := later.result }

def LiveVerbs.nextOf (verbs : LiveVerbs .ibvExpSendWr) (id : Nat) : Option Nat :=
  (verbs id).bind fun verb => verb.wr.next

/-- The list the driver follows holds exactly these requests. -/
def Handed.Delivers (handed : Handed) (requests : List Request) : Prop :=
  ∃ nodes, Follows handed.verbs.nextOf (some handed.head) nodes ∧
    nodes.map (fun id => (handed.verbs id).map RdmaVerb.request) = requests.map some

-- Every verb of the range would be posted alone.
def Accepted (type : IbvQpType) (verbs : LiveVerbs .ibvExpSendWr) (range : List Nat) : Prop :=
  ∀ id ∈ range, ∃ verb next, verbs id = some verb ∧ (postVerb type 0 verb).result = .ok next

/-- The batch hands over what posting one by one submits; an empty range is no post at all. -/
def BatchRefines (type : IbvQpType) (ret : Int) (verbs : LiveVerbs .ibvExpSendWr)
    (range : List Nat) : Prop :=
  match range with
  | [] =>
      (postVerbs type ret verbs []).handed = none ∧
        ∃ after, (postVerbs type ret verbs []).result = .ok after
  | first :: rest =>
      ∃ handed, (postVerbs type ret verbs (first :: rest)).handed = some handed ∧
        handed.Delivers (postEach type verbs (first :: rest)).submitted.flatten

/-! ## One by one -/

theorem postVerb_accepted {W : Wr} {type : IbvQpType} {verb next : RdmaVerb W}
    (posted : (postVerb type 0 verb).result = .ok next) :
    postable type verb = .ok () ∧ verb.getWr = .ok next ∧
      postVerb type 0 verb = { submitted := [[next.request]], result := .ok next } := by
  unfold postVerb at posted ⊢
  split at posted
  next => cases posted
  next able =>
    split at posted
    next => cases posted
    next built requested =>
      obtain rfl := Except.ok.inj posted
      simp [able, requested]

theorem accepted_set {type : IbvQpType} {verbs : LiveVerbs .ibvExpSendWr} {first : Nat}
    {rest : List Nat} (accepted : Accepted type verbs rest) (apart : first ∉ rest)
    (verb : RdmaSendFamily) : Accepted type (verbs.set first verb) rest := by
  intro id listed
  obtain ⟨found, next, lives, posted⟩ := accepted id listed
  have other : id ≠ first := by
    rintro rfl
    exact apart listed
  exact ⟨found, next, (verbs.set_other verb other).trans lives, posted⟩

theorem postEach_submits {type : IbvQpType} {verbs : LiveVerbs .ibvExpSendWr}
    {range : List Nat} (distinct : range.Nodup) (accepted : Accepted type verbs range) :
    (postEach type verbs range).submitted.flatten.length = range.length := by
  induction range generalizing verbs with
  | nil => rfl
  | cons first rest ih =>
    obtain ⟨apart, distinctRest⟩ := List.nodup_cons.mp distinct
    obtain ⟨here, acceptedRest⟩ := List.forall_mem_cons.mp accepted
    obtain ⟨verb, next, lives, posted⟩ := here
    have single := (postVerb_accepted posted).2.2
    have later := ih distinctRest (accepted_set acceptedRest apart next)
    rw [postEach, LiveVerbs.fetch_ok.mpr lives]
    simp [single, later]

/-! ## The batch -/

-- The head is unlinked just before the driver sees it.
theorem handed_nodes {type : IbvQpType} {ret : Int} {verbs : LiveVerbs .ibvExpSendWr}
    {first : Nat} {rest : List Nat} {handed : Handed}
    (submitted : (postVerbs type ret verbs (first :: rest)).handed = some handed)
    (nodes : List Nat) :
    Follows handed.verbs.nextOf (some handed.head) nodes ↔ nodes = [first] := by
  unfold postVerbs at submitted
  split at submitted
  next => cases submitted
  next chained linked =>
    simp only at submitted
    split at submitted
    next => cases submitted
    next last requested =>
      obtain rfl := Option.some.inj submitted
      obtain ⟨verb, built, -, rebuilt, rfl⟩ := LiveVerbs.getWr_ok.mp requested
      refine follows_of_last ?_ nodes
      simp [LiveVerbs.nextOf, RdmaVerb.getWr_next rebuilt]

theorem chainable_of_postable {type : IbvQpType} {verb : RdmaSendFamily}
    (able : postable type verb = .ok ()) : chainable type verb = .ok () := by
  unfold postable at able
  unfold chainable
  cases present : verb.opcode with
  | none => simp [present] at able
  | some opcode => simpa [present] using able

theorem chainVerbs_single {type : IbvQpType} {verbs : LiveVerbs .ibvExpSendWr} {id : Nat}
    {verb next : RdmaSendFamily} (lives : verbs id = some verb)
    (posted : (postVerb type 0 verb).result = .ok next) :
    chainVerbs type verbs [id] = .ok (verbs.set id next) := by
  obtain ⟨able, built, -⟩ := postVerb_accepted posted
  have requested : verbs.getWr id = .ok (verbs.set id next) :=
    LiveVerbs.getWr_ok.mpr ⟨verb, next, lives, built, rfl⟩
  have cleared : (verbs.set id next).clearNext id = .ok (verbs.set id next) :=
    LiveVerbs.clearNext_ok.mpr ⟨next, by simp, by simp [RdmaVerb.getWr_clearNext built]⟩
  simp [chainVerbs, LiveVerbs.fetch_ok.mpr lives, chainable_of_postable able, requested, cleared,
    bind, Except.bind]

theorem single_delivers {type : IbvQpType} (ret : Int) {verbs : LiveVerbs .ibvExpSendWr} {id : Nat}
    (accepted : Accepted type verbs [id]) : BatchRefines type ret verbs [id] := by
  obtain ⟨verb, next, lives, posted⟩ := accepted id (by simp)
  obtain ⟨-, built, single⟩ := postVerb_accepted posted
  have requested : (verbs.set id next).getWr id = .ok (verbs.set id next) :=
    LiveVerbs.getWr_ok.mpr ⟨next, next, by simp, RdmaVerb.getWr_again built, by simp⟩
  have submitted : (postVerbs type ret verbs [id]).handed =
      some { verbs := verbs.set id next, head := id } := by
    simp [postVerbs, chainVerbs_single lives posted, requested]
  refine ⟨_, submitted, [id], (handed_nodes submitted [id]).mpr rfl, ?_⟩
  simp [postEach, LiveVerbs.fetch_ok.mpr lives, single]

/-- A batch of distinct, acceptable verbs refines posting them one by one exactly when it has
one verb. -/
theorem batch_refines_iff (type : IbvQpType) (ret : Int) {verbs : LiveVerbs .ibvExpSendWr}
    {range : List Nat} (distinct : range.Nodup) (accepted : Accepted type verbs range) :
    BatchRefines type ret verbs range ↔ range.length = 1 := by
  cases range with
  | nil => simp [BatchRefines, postVerbs, chainVerbs]
  | cons first rest =>
    constructor
    · rintro ⟨handed, submitted, nodes, walk, same⟩
      obtain rfl := (handed_nodes submitted nodes).mp walk
      have count := congrArg List.length same
      rw [List.length_map, List.length_map, postEach_submits distinct accepted] at count
      exact count.symm
    · intro single
      obtain rfl : rest = [] := by simpa using single
      exact single_delivers ret accepted

def twoSends : LiveVerbs .ibvExpSendWr :=
  (LiveVerbs.empty.set 0 { freshSend with opcode := some .send }).set 1
    { freshSend with opcode := some .send, wrId := 1 }

theorem one_send_refines : BatchRefines .rc 0 twoSends [1] :=
  (batch_refines_iff .rc 0 (by decide)
    (fun id listed => by
      obtain rfl : id = 1 := by simpa using listed
      exact ⟨_, _, rfl, rfl⟩)).mpr rfl

-- The driver gets the first request alone, and an empty range is dereferenced.
theorem two_sends_lose_one :
    Accepted .rc twoSends [0, 1] ∧ ¬ BatchRefines .rc 0 twoSends [0, 1] ∧
      (postVerbs .rc 0 twoSends []).result =
        .error (.undefined "dereference of the end of a range") := by
  refine ⟨?_, ?_, rfl⟩
  · intro id listed
    obtain rfl | rfl : id = 0 ∨ id = 1 := by simpa using listed
    · exact ⟨_, _, rfl, rfl⟩
    · exact ⟨_, _, rfl, rfl⟩
  · rintro ⟨handed, submitted, nodes, walk, same⟩
    obtain rfl := (handed_nodes submitted nodes).mp walk
    have count : 1 = 2 := congrArg List.length same
    cases count

end Rdmalib2
