import Rdmalib2.Objects.References
import Rdmalib2.Process.Attributes
import Rdmalib2.Session.Session

set_option autoImplicit false

/-!
# What the driver is handed

Programs build verbs, hand slices from one to another and post them, singly and as ranges, to
queue pairs of any type. Whatever list or request a verb has cached by then, its request stays
within what the queue pair was created for, and leads nowhere unless the queue pair is connected.
-/

namespace Rdmalib2

open Shared

/-! ## Programs -/

-- An action of one verb, or `post_verb(first, last)` on a queue pair of the given type.
inductive PostAction : Wr → Type where
  | verb {W : Wr} (action : VerbAction W) : PostAction W
  | range (type : IbvQpType) (range : List Nat) (ret : Int) : PostAction .ibvExpSendWr

-- The queue pair that an action posts to.
def VerbAction.postsTo {W : Wr} : VerbAction W → Option IbvQpType
  | .call _ (.post type _) => some type
  | _ => none

namespace LiveVerbs

def act {W : Wr} (verbs : LiveVerbs W) : PostAction W → Except Failure (LiveVerbs W)
  | .verb action => verbs.step action
  | .range type range ret => (postVerbs type ret verbs range).result

-- The requests the driver is handed, with the type of the queue pair.
def hands {W : Wr} (verbs : LiveVerbs W) : PostAction W → List (IbvQpType × Request)
  | .verb action =>
      match action.postsTo with
      | some type => (verbs.submits action).flatten.map fun request => (type, request)
      | none => []
  | .range type range ret =>
      ((postVerbs type ret verbs range).listed range.length).map fun verb => (type, verb.request)

end LiveVerbs

/-! ## What a verb has cached -/

/-- The lists are no longer than a queue pair allows, and a cached request was filled for the
opcode that the verb still has. -/
structure RdmaVerb.Filled {W : Wr} (this : RdmaVerb W) : Prop where
  slices : this.sgl.length ≤ kMaxSge
  list : this.realSgl.size ≤ kMaxSge
  request : this.constructedWr = true → this.wr.numSge ≤ kMaxSge ∧
    ∃ config : VerbConfig, config.opcode = this.opcode ∧ config.fields W = .ok this.wr.send

section filled

variable {W : Wr} {this next : RdmaVerb W}

theorem constructSgl_size (filled : this.Filled) (converted : this.constructSgl = .ok next) :
    next.realSgl.size ≤ kMaxSge := by
  rcases RdmaVerb.constructSgl_ok converted with ⟨-, rfl⟩ | ⟨-, entries, mapped, rfl⟩
  · exact filled.list
  · obtain ⟨-, rfl⟩ := mapM_toSge_ok mapped
    have size : (this.convertedSgl (this.sgl.map RdmaMemorySlice.sge)).size = this.sgl.length := by
      simp [RdmaVerb.convertedSgl, SgeVector.size]
    exact size.trans_le filled.slices

theorem getWr_filled (filled : this.Filled) (built : this.getWr = .ok next) : next.Filled := by
  obtain ⟨listed, converted, rebuilt⟩ := RdmaVerb.getWr_ok built
  obtain ⟨config, wr, flag, -⟩ := RdmaVerb.constructSgl_keeps converted
  have size := constructSgl_size filled converted
  have slices : next.sgl.length ≤ kMaxSge := by
    rw [RdmaVerb.getWr_config built]
    exact filled.slices
  rcases rebuilt with ⟨cached, rfl⟩ | ⟨-, send, fields, rfl⟩
  · refine ⟨slices, size, fun _ => ?_⟩
    rw [config, wr]
    exact filled.request cached
  · refine ⟨slices, size, fun _ => ⟨size, this.toVerbConfig, ?_, fields⟩⟩
    rw [config]

theorem filled_kept : RdmaVerb.KeptByCalls fun this : RdmaVerb W => this.Filled where
  construct _ := ⟨Nat.zero_le _, Nat.zero_le _, fun cached => by cases cached⟩
  ofSlices built := by
    obtain ⟨bounded, rfl⟩ := RdmaVerb.setSglEntry_ok _ built
    exact ⟨bounded, Nat.zero_le _, fun cached => by cases cached⟩
  effect filled effect := by
    cases effect with
    | unchanged => exact filled
    | config c sgl =>
      refine ⟨?_, filled.list, fun cached => by cases cached⟩
      rw [sgl]
      exact filled.slices
    | slices base added start kept nonempty bound => exact ⟨bound, filled.list, filled.request⟩
    | built built => exact getWr_filled filled built
  linked _ filled := ⟨filled.slices, filled.list, filled.request⟩

end filled

namespace LiveVerbs

variable {W : Wr} {verbs next : LiveVerbs W}

theorem postVerbs_all {p : RdmaSendFamily → Prop} {type : IbvQpType} {ret : Int}
    {verbs next : LiveVerbs .ibvExpSendWr} {range : List Nat} (kept : RdmaVerb.KeptByCalls p)
    (all : verbs.All p) (posted : (postVerbs type ret verbs range).result = .ok next) :
    next.All p := by
  obtain ⟨first, rest, chained, handed, verb, -, chaining, requested, -, cleared, -⟩ :=
    postVerbs_ok posted
  exact clearChain_all kept (getWr_all kept (chainVerbs_all kept all chaining) requested) cleared

theorem act_filled {action : PostAction W} (all : verbs.All RdmaVerb.Filled)
    (taken : verbs.act action = .ok next) : next.All RdmaVerb.Filled := by
  cases action with
  | verb action =>
    exact step_all_of_relisted filled_kept
      (fun _ here there => ⟨there.slices, here.list, here.request⟩)
      (fun here => ⟨Nat.zero_le _, here.list, here.request⟩) all taken
  | range type range ret => exact postVerbs_all filled_kept all taken

end LiveVerbs

/-! ## What a request asks for -/

-- The opcode of a verb that has passed the assertions.
def RdmaVerb.Compatible {W : Wr} (type : IbvQpType) (this : RdmaVerb W) : Prop :=
  W = .ibvExpSendWr → ∃ opcode, this.opcode = some opcode ∧ qpVerbCompat type opcode = true

-- A verb as its request is handed over on a queue pair of the type.
structure RdmaVerb.Sent {W : Wr} (type : IbvQpType) (this : RdmaVerb W) : Prop where
  filled : this.Filled
  built : this.constructedWr = true
  compatible : this.Compatible type

/-- A request that a queue pair of the type can be given. Off the reliable connections its unions
are as `Wr{}` leaves them. -/
structure Request.Fits (W : Wr) (type : IbvQpType) (request : Request) : Prop where
  entries : request.numSge ≤ kMaxSge
  compatible : W = .ibvExpSendWr → qpVerbCompat type request.send.expOpcode = true
  undirected : W = .ibvExpSendWr → type ≠ .rc →
    request.send.wr = .zero ∧ request.send.extOp = .zero

theorem VerbConfig.sendFields_undirected (config : VerbConfig) {opcode : IbvExpWrOpcode}
    (send : opcode.isSend = true) :
    (config.sendFields opcode).wr = .zero ∧ (config.sendFields opcode).extOp = .zero := by
  unfold sendFields
  cases config.remote <;> cases opcode <;> first | exact ⟨rfl, rfl⟩ | cases send

theorem qpVerbCompat_send {type : IbvQpType} {opcode : IbvExpWrOpcode} (apart : type ≠ .rc)
    (compatible : qpVerbCompat type opcode = true) : opcode.isSend = true := by
  unfold qpVerbCompat at compatible
  split at compatible
  next => exact absurd rfl apart
  next => exact compatible
  next => exact compatible
  next => cases compatible

theorem RdmaVerb.Sent.fits {W : Wr} {type : IbvQpType} {this : RdmaVerb W} (sent : this.Sent type) :
    this.request.Fits W type := by
  obtain ⟨entries, config, same, fields⟩ := sent.filled.request sent.built
  cases W with
  | ibvRecvWr =>
    constructor
    · exact entries
    · intro send
      cases send
    · intro send
      cases send
  | ibvExpSendWr =>
    obtain ⟨opcode, present, compatible⟩ := sent.compatible rfl
    obtain ⟨filled, own, -, -, made⟩ := VerbConfig.constructSend_ok fields
    obtain rfl : opcode = filled := Option.some.inj (present.symm.trans (same.symm.trans own))
    have send : this.request.send = config.sendFields opcode := made
    refine ⟨entries, fun _ => ?_, fun _ apart => ?_⟩
    · rw [send, VerbConfig.sendFields_expOpcode]
      exact compatible
    · rw [send]
      exact config.sendFields_undirected (qpVerbCompat_send apart compatible)

/-! ## Posts -/

theorem compatible_of_postable {W : Wr} {type : IbvQpType} {verb : RdmaVerb W}
    (able : postable type verb = .ok ()) : verb.Compatible type := by
  rintro rfl
  unfold postable at able
  cases present : verb.opcode with
  | none => simp [present] at able
  | some opcode => exact ⟨opcode, rfl, by simpa only [present, rdmalib2Assert_ok] using able⟩

theorem compatible_of_chainable {type : IbvQpType} {verb : RdmaSendFamily}
    (able : chainable type verb = .ok ()) : verb.Compatible type := by
  intro _
  unfold chainable at able
  cases present : verb.opcode with
  | none => simp [present] at able
  | some opcode => exact ⟨opcode, rfl, by simpa only [present, rdmalib2Assert_ok] using able⟩

theorem sent_of_built {W : Wr} {type : IbvQpType} {verb built : RdmaVerb W} (filled : verb.Filled)
    (compatible : verb.Compatible type) (requested : verb.getWr = .ok built) : built.Sent type := by
  refine ⟨getWr_filled filled requested, (RdmaVerb.getWr_flags requested).2, ?_⟩
  rw [RdmaVerb.Compatible, RdmaVerb.getWr_config requested]
  exact compatible

theorem postVerb_sent {W : Wr} {type : IbvQpType} {ret : Int} {verb : RdmaVerb W}
    (filled : verb.Filled) {request : Request}
    (handed : request ∈ (postVerb type ret verb).submitted.flatten) :
    ∃ built : RdmaVerb W, built.Sent type ∧ request = built.request := by
  unfold postVerb at handed
  split at handed
  next => cases handed
  next able =>
    split at handed
    next => cases handed
    next built requested =>
      have sent := sent_of_built filled (compatible_of_postable able) requested
      exact ⟨built, sent, by simpa using handed⟩

-- The list of a range is the head's request, which has just been asked for.
theorem postVerbs_listed {type : IbvQpType} {ret : Int} {verbs : LiveVerbs .ibvExpSendWr}
    {range : List Nat} {links : Nat} {verb : RdmaSendFamily}
    (listed : verb ∈ (postVerbs type ret verbs range).listed links) :
    ∃ first rest chained head, range = first :: rest ∧ chainVerbs type verbs range = .ok chained ∧
      chained first = some head ∧ head.getWr = .ok verb := by
  unfold postVerbs at listed
  cases chaining : chainVerbs type verbs range with
  | error e => simp [chaining, BatchPosted.listed] at listed
  | ok chained =>
    simp only [chaining] at listed
    cases range with
    | nil => simp [BatchPosted.listed] at listed
    | cons first rest =>
      cases requested : chained.getWr first with
      | error e => simp [requested, BatchPosted.listed] at listed
      | ok handed =>
        obtain ⟨head, built, lives, rebuilt, rfl⟩ := LiveVerbs.getWr_ok.mp requested
        refine ⟨first, rest, chained, head, rfl, rfl, lives, ?_⟩
        have unlinked := RdmaVerb.getWr_next rebuilt
        have single : verb = built := by
          cases links with
          | zero => simp [requested, BatchPosted.listed, Handed.listed] at listed
          | succ links =>
            cases links <;>
              simpa [requested, BatchPosted.listed, Handed.listed, unlinked] using listed
        rw [single]
        exact rebuilt

theorem postVerbs_sent {type : IbvQpType} {ret : Int} {verbs : LiveVerbs .ibvExpSendWr}
    {range : List Nat} {links : Nat} {verb : RdmaSendFamily} (all : verbs.All RdmaVerb.Filled)
    (listed : verb ∈ (postVerbs type ret verbs range).listed links) : verb.Sent type := by
  obtain ⟨first, rest, chained, head, rfl, chaining, lives, requested⟩ := postVerbs_listed listed
  obtain ⟨start, -, -, begins, able, -⟩ := chainVerbs_cons_ok chaining
  have filled := LiveVerbs.chainVerbs_all filled_kept all chaining first head lives
  -- Linking the range changes no opcode.
  obtain ⟨found, same, compatible⟩ : chained.Has (RdmaVerb.Compatible type) first :=
    chainVerbs_has
      (fun compatible built => by rwa [RdmaVerb.Compatible, RdmaVerb.getWr_config built])
      (fun _ compatible => compatible) ⟨start, begins, compatible_of_chainable able⟩ chaining
  obtain rfl : head = found := Option.some.inj (lives.symm.trans same)
  exact sent_of_built filled compatible requested

theorem LiveVerbs.hands_fit {W : Wr} {verbs : LiveVerbs W} (all : verbs.All RdmaVerb.Filled)
    (action : PostAction W) : ∀ handed ∈ verbs.hands action, handed.2.Fits W handed.1 := by
  rintro ⟨type, request⟩ handed
  cases action with
  | verb action =>
    cases action with
    | call id call =>
      cases call with
      | post target ret =>
        obtain ⟨listed, submitted, same⟩ := List.mem_map.mp handed
        obtain ⟨rfl, rfl⟩ := Prod.mk.inj same
        rw [submits] at submitted
        cases lives : verbs id with
        | none => simp [lives] at submitted
        | some verb =>
          simp only [lives] at submitted
          obtain ⟨built, sent, rfl⟩ := postVerb_sent (all id verb lives) submitted
          exact sent.fits
      | _ => cases handed
    | _ => cases handed
  | range target range ret =>
    obtain ⟨verb, listed, same⟩ := List.mem_map.mp handed
    obtain ⟨rfl, rfl⟩ := Prod.mk.inj same
    exact (postVerbs_sent all listed).fits

section programs

variable {W : Wr} {program : List (PostAction W)} {type : IbvQpType} {request : Request}

theorem programs_fit
    (handed : (type, request) ∈ collected LiveVerbs.act LiveVerbs.hands .empty program) :
    request.Fits W type := by
  have empty : (LiveVerbs.empty : LiveVerbs W).All RdmaVerb.Filled := by
    intro id verb lives
    cases lives
  exact forall_collected
    (fun _ _ _ all taken => LiveVerbs.act_filled all taken)
    (fun _ action all => LiveVerbs.hands_fit all action) program empty (type, request) handed

-- The entries that the attributes allow a request.
def IbvExpQpInitAttr.maxSge (attr : IbvExpQpInitAttr) : Wr → UInt32
  | .ibvExpSendWr => attr.maxSendSge
  | .ibvRecvWr => attr.maxRecvSge

theorem createRdmaQpAttr_maxSge (ctx : ContextObject) (type : IbvQpType) (qpDepth : Int)
    (sendCq recvCq : CqObject) (features : QpFeatureBase) (W : Wr) :
    ((createRdmaQpAttr ctx type qpDepth sendCq recvCq features).maxSge W).toNat = kMaxSge := by
  unfold createRdmaQpAttr ContextObject.getResDomain
  cases ctx.rd <;> cases W <;> dsimp only <;> split <;> split <;> rfl

/-- Whatever a program does with its verbs, no request that it posts has more entries than its
queue pair was created for, and the opcode is one of those of the queue pair. -/
theorem requests_within_capacity
    (handed : (type, request) ∈ collected LiveVerbs.act LiveVerbs.hands .empty program)
    (ctx : ContextObject) (qpDepth : Int) (sendCq recvCq : CqObject) (features : QpFeatureBase) :
    let attr := createRdmaQpAttr ctx type qpDepth sendCq recvCq features
    request.numSge ≤ (attr.maxSge W).toNat ∧
      (W = .ibvExpSendWr → qpVerbCompat type request.send.expOpcode = true) := by
  have fits := programs_fit handed
  refine ⟨?_, fits.compatible⟩
  rw [createRdmaQpAttr_maxSge]
  exact fits.entries

end programs

-- A verb that has been a write with a remote slice before it is sent as a datagram, in a range.
def relabelled : List (PostAction .ibvExpSendWr) :=
  [.verb (.ofSlices 0 { wrId := 0, wr := {} } (word 0) []),
    .verb (.call 0 (.setRemoteMemory { addr := 64, size := 8, rkey := 3 })),
    .verb (.call 0 (.setOp .rdmaWrite)), .verb (.call 0 (.post .rc 0)),
    .verb (.call 0 (.setOp .send)), .range .ud [0] 0]

def wordRequest (send : SendFields) : Request where
  wrId := 0
  numSge := 1
  sgl := some [{ addr := 0x1000, length := 8, lkey := 1 }]
  send := send

theorem relabelled_hands :
    collected LiveVerbs.act LiveVerbs.hands .empty relabelled =
      [(.rc, wordRequest { expOpcode := .rdmaWrite, wr := .rdma 64 3 }),
        (.ud, wordRequest { expOpcode := .send })] := rfl

theorem relabelled_within_capacity :
    let attr := createRdmaQpAttr { twoPorts with ctx := 0, pd := 1 } .rc 256 { cq := some 2 }
      { cq := some 2 } .noFeatures
    ∃ request, (.rc, request) ∈ collected LiveVerbs.act LiveVerbs.hands .empty relabelled ∧
      request.numSge ≤ (attr.maxSge .ibvExpSendWr).toNat ∧
      (Wr.ibvExpSendWr = .ibvExpSendWr → qpVerbCompat .rc request.send.expOpcode = true) := by
  have handed : (.rc, wordRequest { expOpcode := .rdmaWrite, wr := .rdma 64 3 }) ∈
      collected LiveVerbs.act LiveVerbs.hands .empty relabelled := by
    rw [relabelled_hands]
    exact List.mem_cons_self
  exact ⟨_, handed, requests_within_capacity handed _ _ _ _ _⟩

/-- No datagram is given a destination: a program has no way to write to the union in which the
driver looks for the address handle and the number of the remote queue pair. -/
theorem datagrams_undirected {program : List (PostAction .ibvExpSendWr)} {type : IbvQpType}
    {request : Request} (apart : type ≠ .rc)
    (handed : (type, request) ∈ collected LiveVerbs.act LiveVerbs.hands .empty program) :
    request.send.expOpcode.isSend = true ∧ request.send.wr = .zero ∧
      request.send.extOp = .zero := by
  have fits := programs_fit handed
  exact ⟨qpVerbCompat_send apart (fits.compatible rfl), fits.undirected rfl apart⟩

theorem relabelled_undirected :
    ∃ request, (.ud, request) ∈ collected LiveVerbs.act LiveVerbs.hands .empty relabelled ∧
      request.send.expOpcode.isSend = true ∧ request.send.wr = .zero ∧
      request.send.extOp = .zero := by
  have handed : (.ud, wordRequest { expOpcode := .send }) ∈
      collected LiveVerbs.act LiveVerbs.hands .empty relabelled := by
    rw [relabelled_hands]
    exact List.mem_cons_of_mem _ List.mem_cons_self
  exact ⟨_, handed, datagrams_undirected (by decide) handed⟩

end Rdmalib2
