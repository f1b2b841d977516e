import Rdmalib2.Session.Adapter
import Rdmalib2.Shared.Progress
import Rdmalib2.Verb.Chain
import Rdmalib2.Verb.History

set_option autoImplicit false

/-!
# From posting to polling

A program builds send verbs, posts them one at a time or as a range, and polls the completion
queue of the queue pair, while the adapter executes what it has been handed.
-/

namespace Rdmalib2

open Shared

/-! ## The machine -/

-- `verb.execute(qp)`
def RdmaVerb.execute {W : Wr} (this : RdmaVerb W) (type : IbvQpType) (ret : Int) :
    Posted (RdmaVerb W) := postVerb type ret this

-- The verbs whose requests the driver finds on the list, as far as so many links lead.
def Handed.listed (handed : Handed) : Nat → Option Nat → List RdmaSendFamily
  | 0, _ | _, none => []
  | links + 1, some id =>
      match handed.verbs id with
      | none => []
      | some verb => verb :: handed.listed links verb.wr.next

def BatchPosted.listed (posted : BatchPosted) (links : Nat) : List RdmaSendFamily :=
  match posted.handed with
  | none => []
  | some handed => handed.listed links (some handed.head)

-- Beside the objects there is a record of the verbs whose requests the driver was handed.
structure Session where
  verbs : LiveVerbs .ibvExpSendWr := .empty
  adapter : Adapter := {}
  posted : List VerbConfig := []

inductive SessionAction where
  | verb (action : VerbAction .ibvExpSendWr)
  | execute (id : Nat) (ret : Int)
  | postVerbs (range : List Nat) (ret : Int)
  | complete (outcomes : List Outcome)
  | poll (fn : PollFn) (n : NumEntries) (fuel : Nat) (schedule : Nat → List Outcome × Nat)

namespace Session

def poll (s : Session) (fn : PollFn) (n fuel : Nat) (schedule : Nat → List Outcome × Nat) :
    Polled Adapter := fn.call (Adapter.driver schedule) fuel n s.adapter

-- A run ends with an action that fails and with a poll that does not return.
def step (type : IbvQpType) (s : Session) : SessionAction → Except (Option Failure) Session
  | .verb action =>
      match s.verbs.step action with
      | .error e => .error (some e)
      | .ok verbs => .ok { s with verbs }
  | .execute id ret =>
      match s.verbs.fetch id with
      | .error e => .error (some e)
      | .ok verb =>
          let posted := verb.execute type ret
          match posted.result with
          | .error e => .error (some e)
          | .ok next =>
              .ok { verbs := s.verbs.set id next
                    adapter := s.adapter.accept posted.submitted.flatten
                    posted := s.posted ++ [verb.toVerbConfig] }
  | .postVerbs range ret =>
      let posted := Rdmalib2.postVerbs type ret s.verbs range
      match posted.result with
      | .error e => .error (some e)
      | .ok verbs =>
          let listed := posted.listed range.length
          .ok { verbs
                adapter := s.adapter.accept (listed.map RdmaVerb.request)
                posted := s.posted ++ listed.map RdmaVerb.toVerbConfig }
  | .complete outcomes => .ok { s with adapter := s.adapter.execute outcomes }
  | .poll fn n fuel schedule =>
      let polled := s.poll fn n fuel schedule
      match polled.result with
      | none => .error none
      | some (.error e) => .error (some e)
      | some (.ok _) => .ok { s with adapter := polled.cq }

-- The ids of the posted verbs that are to be notified of.
def notifiedIds (s : Session) : List UInt64 :=
  (s.posted.filter VerbConfig.notified).map VerbConfig.wrId

end Session

-- An assignment writes the notify flag of a verb whose request may be cached.
def SessionAction.assigns : SessionAction → Bool
  | .verb (.copyAssign ..) | .verb (.moveAssign ..) => true
  | _ => false

/-! ## What a request says of its verb -/

/-- A cached request carries the id of its verb, and its notify flag. -/
def RdmaVerb.Labelled (this : RdmaSendFamily) : Prop :=
  this.constructedWr = true →
    this.wr.wrId = this.wrId ∧ this.request.signaled = this.notified

namespace RdmaVerb

theorem getWr_labelled {this next : RdmaSendFamily} (labelled : this.Labelled)
    (built : this.getWr = .ok next) :
    next.request.wrId = this.wrId ∧ next.request.signaled = this.notified := by
  obtain ⟨listed, converted, rebuilt⟩ := getWr_ok built
  obtain ⟨config, wr, -, -⟩ := constructSgl_keeps converted
  rcases rebuilt with ⟨cached, rfl⟩ | ⟨-, send, filled, rfl⟩
  · have before := labelled cached
    simp only [request, Request.signaled, wr] at before ⊢
    exact before
  · obtain ⟨opcode, -, -, -, rfl⟩ := VerbConfig.constructSend_ok filled
    refine ⟨rfl, ?_⟩
    rw [Bool.eq_iff_iff, ← @VerbConfig.sendFields_signaled this.toVerbConfig opcode]
    simp [request, Request.signaled]

theorem labelled_kept : KeptByCalls Labelled where
  construct _ cached := by cases cached
  ofSlices built := by
    obtain ⟨-, rfl⟩ := setSglEntry_ok _ built
    intro cached
    cases cached
  effect labelled effect := by
    cases effect with
    | unchanged => exact labelled
    | config c sgl length =>
      intro cached
      cases cached
    | slices base added start kept nonempty bound => exact labelled
    | built built =>
      intro _
      rw [getWr_config built]
      exact getWr_labelled labelled built
  linked _ labelled := labelled

end RdmaVerb

namespace LiveVerbs

variable {verbs after : LiveVerbs .ibvExpSendWr}

-- A copy has no request yet, and the source of a move loses its slices alone.
theorem step_labelled (all : verbs.All RdmaVerb.Labelled) {action : VerbAction .ibvExpSendWr}
    (plain : (SessionAction.verb action).assigns = false)
    (taken : verbs.step action = .ok after) : after.All RdmaVerb.Labelled := by
  cases action with
  | construct | ofSlices | call | setNext | clearNext | destroy =>
    exact step_all RdmaVerb.labelled_kept all rfl taken
  | copyAssign | moveAssign => cases plain
  | copyConstruct id junk src | moveConstruct id junk src =>
    rw [step] at taken
    split at taken
    next => cases taken
    next other fetched =>
      obtain rfl := Except.ok.inj taken
      have there := all src other (fetch_ok.mp fetched)
      refine (all_set_set all _ _ _ _).mpr ⟨?_, fun _ => there⟩
      intro cached
      cases cached

variable {type : IbvQpType} {range : List Nat} {p : RdmaSendFamily → Prop}

theorem chainVerbs_all (kept : RdmaVerb.KeptByCalls p) (all : verbs.All p)
    (chained : chainVerbs type verbs range = .ok after) : after.All p := by
  induction range generalizing verbs with
  | nil =>
    obtain rfl := Except.ok.inj chained
    exact all
  | cons it rest ih =>
    obtain ⟨verb, built, joined, -, -, requested, link, chainedRest⟩ := chainVerbs_cons_ok chained
    have made := getWr_all kept all requested
    refine ih ?_ chainedRest
    cases rest with
    | nil => exact clearNext_all kept made link
    | cons target tail => exact setNext_all kept made link

theorem clearChain_all (kept : RdmaVerb.KeptByCalls p) (all : verbs.All p)
    (cleared : clearChain verbs range = .ok after) : after.All p := by
  induction range generalizing verbs with
  | nil =>
    obtain rfl := Except.ok.inj cleared
    exact all
  | cons it rest ih =>
    obtain ⟨mid, here, later⟩ := clearChain_cons_ok cleared
    exact ih (clearNext_all kept all here) later

end LiveVerbs

/-! ## Posts -/

theorem postVerb_submitted {W : Wr} {type : IbvQpType} {ret : Int} {verb next : RdmaVerb W}
    (posted : (postVerb type ret verb).result = .ok next) :
    (postVerb type ret verb).submitted.flatten = [next.request] := by
  unfold postVerb at posted ⊢
  split at posted
  next => cases posted
  next able =>
    split at posted
    next => cases posted
    next built requested =>
      split at posted
      next => cases posted
      next =>
        obtain rfl := Except.ok.inj posted
        simp

-- A range that was posted has a head, and the list the driver was given ends there.
theorem postVerbs_ok {type : IbvQpType} {ret : Int} {verbs after : LiveVerbs .ibvExpSendWr}
    {range : List Nat} (posted : (postVerbs type ret verbs range).result = .ok after) :
    ∃ first rest chained handed verb, range = first :: rest ∧
      chainVerbs type verbs range = .ok chained ∧ chained.getWr first = .ok handed ∧
      handed first = some verb ∧ clearChain handed range = .ok after ∧
      (postVerbs type ret verbs range).listed range.length = [verb] := by
  unfold postVerbs at posted ⊢
  cases chaining : chainVerbs type verbs range with
  | error e =>
    rw [chaining] at posted
    cases posted
  | ok chained =>
    simp only [chaining] at posted ⊢
    cases range with
    | nil => cases posted
    | cons first rest =>
      cases requested : chained.getWr first with
      | error e =>
        simp only [requested] at posted
        cases posted
      | ok handed =>
        simp only [requested] at posted ⊢
        split at posted
        next => cases posted
        next =>
          obtain ⟨verb, built, lives, rebuilt, rfl⟩ := LiveVerbs.getWr_ok.mp requested
          refine ⟨first, rest, chained, _, built, rfl, rfl, requested, LiveVerbs.set_self .., posted,
            ?_⟩
          simp only [BatchPosted.listed, List.length_cons, Handed.listed, LiveVerbs.set_self,
            RdmaVerb.getWr_next rebuilt]
          cases rest.length <;> rfl

namespace Session

variable {type : IbvQpType} {s next : Session} {ret : Int}

theorem execute_taken {id : Nat} (taken : s.step type (.execute id ret) = .ok next) :
    ∃ verb built, s.verbs id = some verb ∧ verb.getWr = .ok built ∧
      next = { verbs := s.verbs.set id built, adapter := s.adapter.accept [built.request]
               posted := s.posted ++ [verb.toVerbConfig] } := by
  simp only [step] at taken
  split at taken
  next => cases taken
  next verb fetched =>
    split at taken
    next => cases taken
    next built posted =>
      have submitted : (verb.execute type ret).submitted.flatten = [built.request] :=
        postVerb_submitted posted
      rw [submitted] at taken
      exact ⟨verb, built, LiveVerbs.fetch_ok.mp fetched, postVerb_ok posted,
        (Except.ok.inj taken).symm⟩

-- Only the head of a range reaches the driver.
theorem postVerbs_taken {range : List Nat} (taken : s.step type (.postVerbs range ret) = .ok next) :
    ∃ first rest chained handed verb verbs, range = first :: rest ∧
      chainVerbs type s.verbs range = .ok chained ∧ chained.getWr first = .ok handed ∧
      handed first = some verb ∧ clearChain handed range = .ok verbs ∧
      next = { verbs, adapter := s.adapter.accept [verb.request]
               posted := s.posted ++ [verb.toVerbConfig] } := by
  simp only [step] at taken
  split at taken
  next => cases taken
  next verbs posted =>
    obtain ⟨first, rest, chained, handed, verb, same, chaining, requested, lives, cleared, listed⟩ :=
      postVerbs_ok posted
    rw [listed] at taken
    exact ⟨first, rest, chained, handed, verb, verbs, same, chaining, requested, lives, cleared,
      (Except.ok.inj taken).symm⟩

end Session

end Rdmalib2
