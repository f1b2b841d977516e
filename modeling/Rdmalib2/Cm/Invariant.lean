import Rdmalib2.Cm.Parties
import Rdmalib2.Shared.Precedes

set_option autoImplicit false

/-!
# What holds in every reachable network

A client gets to RTS only through a reply, and a handler replies only after its own queue pair
got there.
-/

namespace Rdmalib2

open Shared

variable {ι : Type} {setup : Setup ι} {s next : Network ι}

/-! ## What holds in between -/

namespace Network

def Fresh (qp : Driven) : Prop := ∀ remote, Progress remote .toInit qp

def Has (s : Network ι) (call : Nat) (exchange : Exchange ι) : Prop :=
  s.calls[call]? = some exchange

-- What the phase of a client says of its queue pair and of the calls.
def Knows (s : Network ι) (id : ι) (qp : Driven) : ClientPhase → Prop
  | .idle => Fresh qp ∧ ∀ call exchange, s.Has call exchange → exchange.caller ≠ id
  | .waiting call => Fresh qp ∧ ∃ exchange, s.Has call exchange ∧ exchange.caller = id
  | .connecting remote stage => Progress remote stage qp ∧
      ∃ call exchange, s.Has call exchange ∧ exchange.caller = id ∧
        exchange.stage = .delivered remote ∧
        (stage = .done → Precedes s.rts (.server call) (.client id))
  | .exited _ => qp.qp.state ≠ .rts

theorem Knows.unfinished {id : ι} {qp : Driven} {phase : ClientPhase} (knows : s.Knows id qp phase)
    (before : ∀ remote, phase ≠ .connecting remote .done) : qp.qp.state ≠ .rts := by
  cases phase with
  | idle | waiting call =>
    rw [(knows.1 ⟨{}, 0, 0, 0⟩).state]
    decide
  | connecting remote stage =>
    rw [knows.1.state]
    cases stage with
    | done => exact absurd rfl (before remote)
    | toInit | toRtr | toRts => decide
  | exited failure => exact knows

theorem Knows.connected {id : ι} {qp : Driven} {phase : ClientPhase} (knows : s.Knows id qp phase)
    (reached : qp.qp.state = .rts) : ∃ remote, phase = .connecting remote .done := by
  by_contra none
  exact knows.unfinished (fun remote same => none ⟨remote, same⟩) reached

structure ClientsOk (setup : Setup ι) (s : Network ι) : Prop where
  number : ∀ id, (s.clients id).qp.qp.qpNum = setup.qpNum id
  knows : ∀ id, s.Knows id (s.clients id).qp (s.clients id).phase

structure CallsOk (setup : Setup ι) (s : Network ι) : Prop where
  ok : ∀ call exchange, s.Has call exchange → exchange.Ok setup
  single : ∀ call other exchange twin, s.Has call exchange → s.Has other twin →
    exchange.caller = twin.caller → call = other
  numbers : ∀ call other exchange twin, s.Has call exchange → s.Has other twin →
    ∀ qp ∈ exchange.qp, ∀ same ∈ twin.qp, qp.qp.qpNum = same.qp.qpNum → call = other
  arrived : ∀ call exchange, s.Has call exchange → ∀ qp ∈ exchange.qp, qp.qp.state = .rts →
    .server call ∈ s.rts

-- Calls only come to be and go on; the new ones are from the given caller.
structure Grows (s next : Network ι) (called : Option ι) : Prop where
  kept : ∀ call exchange, s.Has call exchange → ∃ later, next.Has call later ∧
    later.caller = exchange.caller ∧
    ∀ info, exchange.stage = .delivered info → later.stage = .delivered info
  old : ∀ call later, next.Has call later →
    (∃ exchange, s.Has call exchange ∧ exchange.caller = later.caller) ∨ later.caller ∈ called
  rts : s.rts <+: next.rts

theorem has_of_set {call other : Nat} {exchange later twin : Exchange ι} (found : s.Has call exchange)
    (same : next.calls = s.calls.set call later) :
    next.Has other twin ↔ other = call ∧ twin = later ∨ other ≠ call ∧ s.Has other twin := by
  have inside : call < s.calls.length := (List.getElem?_eq_some_iff.mp found).1
  unfold Has
  rw [same, List.getElem?_set]
  by_cases here : other = call
  · subst here
    simp [inside, eq_comm]
  · simp [here, Ne.symm here]

theorem has_of_push {other : Nat} {exchange twin : Exchange ι}
    (same : next.calls = s.calls ++ [exchange]) :
    next.Has other twin ↔ s.Has other twin ∨ other = s.calls.length ∧ twin = exchange := by
  unfold Has
  rw [same, List.getElem?_append]
  split
  next inside =>
    have apart : other ≠ s.calls.length := by omega
    simp [apart]
  next outside =>
    have missing : s.calls[other]? = none := List.getElem?_eq_none (by omega)
    rw [missing, List.getElem?_singleton]
    split
    next last =>
      have here : other = s.calls.length := by omega
      simp [here, eq_comm]
    next beyond =>
      have apart : other ≠ s.calls.length := by omega
      simp [apart]

theorem grows_refl (same : next.calls = s.calls) (rts : s.rts <+: next.rts) :
    Grows s next none where
  kept call exchange found :=
    ⟨exchange, by rwa [Has, same], rfl, fun _ delivered => delivered⟩
  old call later found := .inl ⟨later, by rwa [Has, same] at found, rfl⟩
  rts := rts

theorem grows_set {call : Nat} {exchange later : Exchange ι} (found : s.Has call exchange)
    (step : HandlerStep setup exchange later) (same : next.calls = s.calls.set call later)
    (rts : s.rts <+: next.rts) : Grows s next none where
  kept other twin has := by
    by_cases here : other = call
    · subst here
      obtain rfl := Option.some.inj (found.symm.trans has)
      exact ⟨later, (has_of_set found same).mpr (.inl ⟨rfl, rfl⟩), step.keeps.1,
        fun info delivered => absurd delivered (step.keeps.2.2 info)⟩
    · exact ⟨twin, (has_of_set found same).mpr (.inr ⟨here, has⟩), rfl, fun _ delivered => delivered⟩
  old other twin has := by
    rcases (has_of_set found same).mp has with ⟨rfl, rfl⟩ | ⟨-, before⟩
    · exact .inl ⟨exchange, found, step.keeps.1.symm⟩
    · exact .inl ⟨twin, before, rfl⟩
  rts := rts

theorem grows_push {exchange : Exchange ι} (same : next.calls = s.calls ++ [exchange])
    (rts : s.rts <+: next.rts) : Grows s next (some exchange.caller) where
  kept call twin has :=
    ⟨twin, (has_of_push same).mpr (.inl has), rfl, fun _ delivered => delivered⟩
  old call twin has := by
    rcases (has_of_push same).mp has with before | ⟨-, rfl⟩
    · exact .inl ⟨twin, before, rfl⟩
    · exact .inr rfl
  rts := rts

theorem Knows.mono {called : Option ι} (grows : Grows s next called) {id : ι} (other : id ∉ called)
    {qp : Driven} {phase : ClientPhase} (knows : s.Knows id qp phase) : next.Knows id qp phase := by
  cases phase with
  | idle =>
    obtain ⟨fresh, none⟩ := knows
    refine ⟨fresh, fun call later found => ?_⟩
    rcases grows.old call later found with ⟨exchange, before, same⟩ | new
    · rw [← same]
      exact none call exchange before
    · rintro rfl
      exact other new
  | waiting call =>
    obtain ⟨fresh, exchange, found, caller⟩ := knows
    obtain ⟨later, kept, same, -⟩ := grows.kept call exchange found
    exact ⟨fresh, later, kept, same.trans caller⟩
  | connecting remote stage =>
    obtain ⟨progress, call, exchange, found, caller, delivered, ordered⟩ := knows
    obtain ⟨later, kept, same, still⟩ := grows.kept call exchange found
    exact ⟨progress, call, later, kept, same.trans caller, still remote delivered,
      fun done => (ordered done).mono grows.rts⟩
  | exited failure => exact knows

theorem ClientsOk.mono (ok : ClientsOk setup s) (grows : Grows s next none)
    (same : next.clients = s.clients) : ClientsOk setup next where
  number id := by rw [same]; exact ok.number id
  knows id := by
    rw [same]
    exact (ok.knows id).mono grows nofun

theorem CallsOk.mono (ok : CallsOk setup s) (same : next.calls = s.calls) (rts : s.rts <+: next.rts) :
    CallsOk setup next := by
  have has : ∀ {call exchange}, next.Has call exchange → s.Has call exchange := by
    intro call exchange found
    rwa [Has, same] at found
  constructor
  · exact fun call exchange found => ok.ok call exchange (has found)
  · exact fun call other exchange twin found also => ok.single call other _ _ (has found) (has also)
  · exact fun call other exchange twin found also => ok.numbers call other _ _ (has found) (has also)
  · exact fun call exchange found qp held state =>
      rts.subset (ok.arrived call exchange (has found) qp held state)

theorem CallsOk.push (ok : CallsOk setup s) {exchange : Exchange ι}
    (same : next.calls = s.calls ++ [exchange]) (rts : s.rts <+: next.rts)
    (sound : exchange.Ok setup) (empty : exchange.qp = none)
    (first : ∀ call other, s.Has call other → other.caller ≠ exchange.caller) :
    CallsOk setup next := by
  constructor
  · intro call twin found
    rcases (has_of_push same).mp found with before | ⟨-, rfl⟩
    · exact ok.ok call twin before
    · exact sound
  · intro call other twin later found also callers
    rcases (has_of_push same).mp found with before | ⟨rfl, rfl⟩ <;>
      rcases (has_of_push same).mp also with prior | ⟨rfl, rfl⟩
    · exact ok.single call other twin later before prior callers
    · exact absurd callers (first call twin before)
    · exact absurd callers.symm (first other later prior)
    · rfl
  · intro call other twin later found also qp held own kept
    rcases (has_of_push same).mp found with before | ⟨rfl, rfl⟩
    · rcases (has_of_push same).mp also with prior | ⟨rfl, rfl⟩
      · exact ok.numbers call other twin later before prior qp held own kept
      · rw [empty] at kept
        cases kept
    · rw [empty] at held
      cases held
  · intro call twin found qp held state
    rcases (has_of_push same).mp found with before | ⟨rfl, rfl⟩
    · exact rts.subset (ok.arrived call twin before qp held state)
    · rw [empty] at held
      cases held

theorem inUse_apart {qpNum : UInt32} (free : s.inUse qpNum = false) {call : Nat}
    {exchange : Exchange ι} (found : s.Has call exchange) {qp : Driven} (held : qp ∈ exchange.qp) :
    qp.qp.qpNum ≠ qpNum := by
  have none := List.any_eq_false.mp free exchange (List.mem_of_getElem? found)
  obtain held : exchange.qp = some qp := held
  simpa [held] using none

section set

variable {call : Nat} {exchange later : Exchange ι}

-- A number comes from before the step, or it is the new queue pair's.
theorem number_before (found : s.Has call exchange) (sound : exchange.Ok setup)
    (step : HandlerStep setup exchange later) (same : next.calls = s.calls.set call later)
    (unused : exchange.qp = none → ∀ qp ∈ later.qp, s.inUse qp.qp.qpNum = false) {other : Nat}
    {twin : Exchange ι} (has : next.Has other twin) {qp : Driven} (held : qp ∈ twin.qp) :
    (∃ old, s.Has other old ∧ ∃ prior ∈ old.qp, qp.qp.qpNum = prior.qp.qpNum) ∨
      other = call ∧ s.inUse qp.qp.qpNum = false := by
  rcases (has_of_set found same).mp has with ⟨rfl, rfl⟩ | ⟨-, old⟩
  · rcases step.qp sound held with ⟨none, -⟩ | ⟨prior, own, number, -⟩
    · exact .inr ⟨rfl, unused none qp held⟩
    · exact .inl ⟨exchange, found, prior, own, number⟩
  · exact .inl ⟨twin, old, qp, held, rfl⟩

/-- A handler that takes a step keeps what holds of all calls. -/
theorem CallsOk.set (ok : CallsOk setup s) (found : s.Has call exchange)
    (step : HandlerStep setup exchange later)
    (same : next.calls = s.calls.set call later) (rts : s.rts <+: next.rts)
    (unused : exchange.qp = none → ∀ qp ∈ later.qp, s.inUse qp.qp.qpNum = false)
    (told : ∀ object, later.stage = .connecting object .done → .server call ∈ next.rts) :
    CallsOk setup next := by
  have before := ok.ok call exchange found
  constructor
  · intro other twin has
    rcases (has_of_set found same).mp has with ⟨rfl, rfl⟩ | ⟨-, old⟩
    · exact step.ok before
    · exact ok.ok other twin old
  · intro one other twin last has also callers
    have grows := grows_set found step same rts
    obtain ⟨first, old, caller⟩ := (grows.old one twin has).resolve_right nofun
    obtain ⟨second, prior, callee⟩ := (grows.old other last also).resolve_right nofun
    exact ok.single one other first second old prior (caller.trans (callers.trans callee.symm))
  · intro one other twin last has also qp held kin kept equal
    rcases number_before found before step same unused has held with
      ⟨first, old, prior, own, number⟩ | ⟨rfl, free⟩ <;>
    rcases number_before found before step same unused also kept with
      ⟨second, older, elder, owned, digits⟩ | ⟨rfl, vacant⟩
    · exact ok.numbers one other first second old older prior own elder owned
        (number.symm.trans (equal.trans digits))
    · exact absurd (number.symm.trans equal) (inUse_apart vacant old own)
    · exact absurd (digits.symm.trans equal.symm) (inUse_apart free older owned)
    · rfl
  · intro other twin has qp held state
    rcases (has_of_set found same).mp has with ⟨rfl, rfl⟩ | ⟨-, old⟩
    · rcases step.qp before held with ⟨-, reset⟩ | ⟨prior, own, -, reached⟩
      · rw [reset] at state
        cases state
      · rcases reached state with earlier | ⟨object, done⟩
        · exact rts.subset (ok.arrived other exchange found prior own earlier)
        · exact told object done
    · exact rts.subset (ok.arrived other twin old qp held state)

end set

structure Inv (setup : Setup ι) (s : Network ι) : Prop where
  clients : ClientsOk setup s
  calls : CallsOk setup s

theorem start_calls (setup : Setup ι) (call : Nat) (exchange : Exchange ι) :
    ¬ (start setup).Has call exchange := by
  simp [Has, start]

theorem start_inv (setup : Setup ι) : Inv setup (start setup) where
  clients :=
    { number := fun _ => rfl
      knows := fun _ => ⟨fun remote => fresh_progress remote _,
        fun call exchange found => absurd found (start_calls setup call exchange)⟩ }
  calls :=
    { ok := fun call exchange found => absurd found (start_calls setup call exchange)
      single := fun call _ exchange _ found => absurd found (start_calls setup call exchange)
      numbers := fun call _ exchange _ found => absurd found (start_calls setup call exchange)
      arrived := fun call exchange found => absurd found (start_calls setup call exchange) }

end Network

/-! ## What an action can do -/

namespace Network

theorem handler_ok {call : Nat} {act : Exchange ι → Except Unit (Network ι)}
    (taken : s.handler setup call act = .ok next) :
    ∃ exchange, s.calls[call]? = some exchange ∧ act exchange = .ok next := by
  unfold handler at taken
  split at taken
  next exchange running found =>
    split at taken
    next => exact ⟨exchange, found, taken⟩
    next => cases taken
  next => cases taken

theorem deref_ok {exchange : Exchange ι} {object : QpObject} {qp : Driven}
    (taken : exchange.deref object = .ok qp) : exchange.qp = some qp := by
  unfold Exchange.deref at taken
  split at taken
  next own handle held =>
    obtain rfl := Except.ok.inj taken
    exact held
  next => cases taken

variable [DecidableEq ι]

inductive Change (setup : Setup ι) (s : Network ι) : Network ι → Prop
  | server (failure : Failure) : Change setup s (s.exitServer failure)
  | exits {id : ι} (failure : Failure)
      (before : ∀ remote, (s.clients id).phase ≠ .connecting remote .done) :
      Change setup s (s.setClient id { s.clients id with phase := .exited failure })
  | calls {id : ι} {selfInfo : Info} (before : (s.clients id).phase = .idle)
      (given : ({ ctx := setup.ctx id, qp := some (s.clients id).qp.qp } : RdmaQp .rc).getInfo =
        .ok selfInfo) :
      Change setup s { s.setClient id { s.clients id with phase := .waiting s.calls.length } with
        calls := s.calls ++ [{ caller := id, request := selfInfo }] }
  | handles {call : Nat} {exchange next : Exchange ι} (found : s.calls[call]? = some exchange)
      (step : HandlerStep setup exchange next)
      (unused : exchange.qp = none → ∀ qp ∈ next.qp, s.inUse qp.qp.qpNum = false)
      (stopped : Bool) {rts : List (Party ι)} (grows : s.rts <+: rts)
      (told : ∀ object, next.stage = .connecting object .done → .server call ∈ rts) :
      Change setup s { s.setCall call next with stopped, rts }
  | delivers {call : Nat} {exchange : Exchange ι} {selfInfo : Info}
      (found : s.calls[call]? = some exchange) (before : exchange.stage = .replied selfInfo)
      (waits : (s.clients exchange.caller).phase = .waiting call) :
      Change setup s ((s.setCall call { exchange with stage := .delivered selfInfo }).setClient
        exchange.caller
        { s.clients exchange.caller with phase := .connecting selfInfo .toInit })
  | connects {id : ι} {remote : Info} {stage : ConnectStage} {driver : ModifyDriver} {qp : Driven}
      (before : (s.clients id).phase = .connecting remote stage) (pending : stage ≠ .done)
      (taken : (s.clients id).qp.advance driver remote stage = .ok qp) :
      Change setup s { s.setClient id { qp, phase := .connecting remote stage.next } with
        rts := s.rts ++ arrived (.client id) stage }

theorem step_change {action : NetAction ι} (taken : s.step setup action = .ok next) :
    Change setup s next := by
  cases action with
  | call id =>
    rw [step] at taken
    split at taken
    next before =>
      simp only at taken
      split at taken
      next e given =>
        obtain rfl := Except.ok.inj taken
        exact .exits e (by simp [before])
      next selfInfo given =>
        obtain rfl := Except.ok.inj taken
        exact .calls before given
    next => cases taken
  | serve call created =>
    obtain ⟨exchange, found, taken⟩ := handler_ok taken
    split at taken
    next before =>
      cases created with
      | error e =>
        obtain rfl := Except.ok.inj taken
        exact .server e
      | ok qpNum =>
        simp only at taken
        split at taken
        next => cases taken
        next unused =>
          obtain rfl := Except.ok.inj taken
          refine .handles found (.served before) (fun _ qp held => ?_) s.stopped
            List.prefix_rfl (by simp)
          obtain rfl := Option.some.inj held
          simpa using unused
    next => cases taken
  | handle call driver =>
    obtain ⟨exchange, found, taken⟩ := handler_ok taken
    split at taken
    next object stage before =>
      split at taken
      next => cases taken
      next pending =>
        split at taken
        next e failed =>
          obtain rfl := Except.ok.inj taken
          exact .server e
        next qp advanced =>
          obtain rfl := Except.ok.inj taken
          obtain ⟨own, held, advanced⟩ := bind_ok.mp advanced
          have own := deref_ok held
          refine .handles found (.advanced before own advanced) (by simp [own]) s.stopped
            (List.prefix_append ..) (fun other told => ?_)
          have last : stage.next = .done := (HandlerStage.connecting.inj told).2
          rw [arrived, if_pos last]
          exact List.mem_append_right _ (List.mem_singleton_self _)
    next => cases taken
  | inform call =>
    obtain ⟨exchange, found, taken⟩ := handler_ok taken
    split at taken
    next object before =>
      split at taken
      next e given =>
        obtain rfl := Except.ok.inj taken
        exact .server e
      next selfInfo given =>
        obtain rfl := Except.ok.inj taken
        exact .handles found (.informed before given) (by simp_all) s.stopped List.prefix_rfl (by simp)
    next => cases taken
  | callback call =>
    obtain ⟨exchange, found, taken⟩ := handler_ok taken
    split at taken
    next object selfInfo before =>
      obtain rfl := Except.ok.inj taken
      exact .handles found (.called before) (by simp_all) s.stopped List.prefix_rfl (by simp)
    next => cases taken
  | answer call returned =>
    obtain ⟨exchange, found, taken⟩ := handler_ok taken
    split at taken
    next object param selfInfo before =>
      cases returned with
      | error e =>
        obtain rfl := Except.ok.inj taken
        exact .server e
      | ok shouldStop =>
        obtain rfl := Except.ok.inj taken
        refine .handles found (.replied before) (fun none => by simp [none]) _ List.prefix_rfl (by simp)
    next => cases taken
  | deliver call =>
    rw [step] at taken
    split at taken
    next exchange found =>
      simp only at taken
      split at taken
      next selfInfo before =>
        split at taken
        next waits =>
          obtain rfl := Except.ok.inj taken
          exact .delivers found before waits.1
        next => cases taken
      next => cases taken
    next => cases taken
  | hangUp id =>
    rw [step] at taken
    split at taken
    next before =>
      obtain rfl := Except.ok.inj taken
      exact .exits _ (by simp [before])
    next call before =>
      obtain rfl := Except.ok.inj taken
      exact .exits _ (by simp [before])
    next => cases taken
  | connect id driver =>
    rw [step] at taken
    split at taken
    next remote stage before =>
      split at taken
      next => cases taken
      next pending =>
        split at taken
        next e failed =>
          obtain rfl := Except.ok.inj taken
          refine .exits e fun other finished => pending ?_
          exact (ClientPhase.connecting.inj (before.symm.trans finished)).2
        next qp advanced =>
          obtain rfl := Except.ok.inj taken
          exact .connects before pending advanced
    next => cases taken

theorem ClientsOk.update (ok : ClientsOk setup s) {id : ι} {client : Client} {called : Option ι}
    (grows : Grows s next called) (only : ∀ other ∈ called, other = id)
    (same : next.clients = Function.update s.clients id client)
    (number : client.qp.qp.qpNum = setup.qpNum id) (knows : next.Knows id client.qp client.phase) :
    ClientsOk setup next := by
  constructor
  · intro other
    rw [same]
    by_cases here : other = id
    · subst here
      rw [Function.update_self]
      exact number
    · rw [Function.update_of_ne here]
      exact ok.number other
  · intro other
    rw [same]
    by_cases here : other = id
    · subst here
      rw [Function.update_self]
      exact knows
    · rw [Function.update_of_ne here]
      exact (ok.knows other).mono grows fun new => here (only other new)

theorem Change.inv (change : Change setup s next) (inv : Inv setup s) : Inv setup next := by
  obtain ⟨clients, calls⟩ := inv
  cases change with
  | server failure =>
    exact ⟨clients.mono (grows_refl rfl List.prefix_rfl) rfl, calls.mono rfl List.prefix_rfl⟩
  | @exits id failure before =>
    refine ⟨clients.update (grows_refl rfl List.prefix_rfl) nofun rfl (clients.number id) ?_,
      calls.mono rfl List.prefix_rfl⟩
    exact (clients.knows id).unfinished before
  | @calls id selfInfo before given =>
    have knows := clients.knows id
    rw [before] at knows
    have describes := getInfo_describes given
    rw [clients.number id] at describes
    constructor
    · exact clients.update (grows_push rfl List.prefix_rfl) (by simp) rfl (clients.number id)
        ⟨knows.1, _, (has_of_push rfl).mpr (.inr ⟨rfl, rfl⟩), rfl⟩
    · exact calls.push rfl List.prefix_rfl ⟨describes, rfl⟩ rfl knows.2
  | @handles call exchange later found step unused stopped rts grows told =>
    exact ⟨clients.mono (grows_set found step rfl grows) rfl, calls.set found step rfl grows unused told⟩
  | @delivers call exchange selfInfo found before waits =>
    have knows := clients.knows exchange.caller
    rw [waits] at knows
    have step : HandlerStep setup exchange { exchange with stage := .delivered selfInfo } :=
      .delivered before
    constructor
    · refine clients.update (grows_set found step rfl List.prefix_rfl) nofun rfl
        (clients.number exchange.caller)
        ⟨knows.1 selfInfo, call, { exchange with stage := .delivered selfInfo }, ?_, rfl, rfl, nofun⟩
      exact (has_of_set found rfl).mpr (.inl ⟨rfl, rfl⟩)
    · exact calls.set found step rfl List.prefix_rfl (fun none => by simp [none]) (by simp)
  | @connects id remote stage driver qp before pending taken =>
    have knows := clients.knows id
    rw [before] at knows
    obtain ⟨progress, call, exchange, found, caller, delivered, -⟩ := knows
    obtain ⟨reached, number⟩ := progress.advance taken
    constructor
    · refine clients.update (grows_refl rfl (List.prefix_append ..)) nofun rfl
        (number.trans (clients.number id))
        ⟨reached, call, exchange, found, caller, delivered, fun last => ?_⟩
      -- The reply came from a handler whose queue pair was in RTS.
      have handles := (calls.ok call exchange found).handles
      rw [delivered] at handles
      obtain ⟨server, held, connected, -⟩ := handles
      have earlier := calls.arrived call exchange found server held connected.state
      change Precedes (s.rts ++ Network.arrived (.client id) stage) _ _
      rw [Network.arrived, if_pos last]
      exact precedes_push earlier
    · exact calls.mono rfl (List.prefix_append ..)

theorem run_inv {actions : List (NetAction ι)} (ran : run (step setup) (start setup) actions = .ok s) :
    Inv setup s :=
  run_invariant (step setup) (Inv setup) (fun _ _ _ inv taken => (step_change taken).inv inv) actions
    (start_inv setup) ran

end Network

end Rdmalib2
