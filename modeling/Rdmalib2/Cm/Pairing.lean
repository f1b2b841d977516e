import Rdmalib2.Cm.Invariant

set_option autoImplicit false

/-!
# Connections pair endpoints
-/

namespace Rdmalib2

open Shared

variable {ι : Type} {setup : Setup ι} {s : Network ι}

-- Each queue pair has the other's address as its destination and expects the other's first packet.
structure Paired (setup : Setup ι) (id : ι) (client server : Driven) : Prop where
  outward : ∃ address, client.destination = some address ∧
    addressOf setup.serverCtx server.qp.qpNum = some address
  inward : ∃ address, server.destination = some address ∧
    addressOf (setup.ctx id) client.qp.qpNum = some address
  outwardPsn : ∃ psn, client.sqPsn = some psn ∧ server.rqPsn = some psn
  inwardPsn : ∃ psn, server.sqPsn = some psn ∧ client.rqPsn = some psn

-- The server has created a queue pair for a call of the client.
def Network.CreatedFor (s : Network ι) (call : Nat) (id : ι) (server : Driven) : Prop :=
  ∃ exchange, s.Has call exchange ∧ exchange.caller = id ∧ exchange.qp = some server

/-- A client in RTS has one queue pair of the server, which got there first and is its other end;
no two clients share one and no client has two; and a queue pair of the server leads to the
client that it was created for. -/
structure PairsEndpoints (setup : Setup ι) (s : Network ι) : Prop where
  connected : ∀ id, (s.clients id).qp.qp.state = .rts → ∃ call server,
    s.CreatedFor call id server ∧
      (∀ other twin, s.CreatedFor other id twin → other = call ∧ twin = server) ∧
      server.qp.state = .rts ∧ Precedes s.rts (.server call) (.client id) ∧
      Paired setup id (s.clients id).qp server
  exclusive : ∀ id other server, Paired setup id (s.clients id).qp server →
    Paired setup other (s.clients other).qp server → id = other
  single : ∀ id call other caller callee server twin, s.CreatedFor call caller server →
    s.CreatedFor other callee twin → Paired setup id (s.clients id).qp server →
    Paired setup id (s.clients id).qp twin → call = other
  faithful : ∀ call id server address, s.CreatedFor call id server →
    server.destination = some address →
    ∀ other, addressOf (setup.ctx other) (setup.qpNum other) = some address ↔ other = id

theorem addressOf_qpNum {ctx : RdmaContext} {qpNum other : UInt32} {address : Address}
    (one : addressOf ctx qpNum = some address) (two : addressOf ctx other = some address) :
    qpNum = other := by
  unfold addressOf at one two
  cases found : ctx.portAttr 1 with
  | error e =>
    rw [found] at one
    cases one
  | ok attr =>
    rw [found] at one two
    have same := Option.some.inj (one.trans two.symm)
    exact congrArg Address.qpNum same

theorem Exchange.Ok.progress {exchange : Exchange ι} (ok : exchange.Ok setup) {qp : Driven}
    (held : exchange.qp = some qp) : ∃ stage, Progress exchange.request stage qp := by
  have handles := ok.handles
  cases at' : exchange.stage with
  | requested =>
    rw [at'] at handles
    cases held.symm.trans handles
  | connecting object stage =>
    rw [at'] at handles
    obtain ⟨-, -, same, own, progress⟩ := handles
    obtain rfl := Option.some.inj (held.symm.trans own)
    exact ⟨stage, progress⟩
  | called object param selfInfo =>
    rw [at'] at handles
    obtain ⟨-, same, own, progress, -⟩ := handles
    obtain rfl := Option.some.inj (held.symm.trans own)
    exact ⟨.done, progress⟩
  | informed object selfInfo | replied selfInfo | delivered selfInfo =>
    rw [at'] at handles
    obtain ⟨same, own, progress, -⟩ := handles
    obtain rfl := Option.some.inj (held.symm.trans own)
    exact ⟨.done, progress⟩

theorem connected_paired (inv : Network.Inv setup s) {id : ι}
    (reached : (s.clients id).qp.qp.state = .rts) : ∃ call server,
      s.CreatedFor call id server ∧
        (∀ other twin, s.CreatedFor other id twin → other = call ∧ twin = server) ∧
        server.qp.state = .rts ∧ Precedes s.rts (.server call) (.client id) ∧
        Paired setup id (s.clients id).qp server := by
  have knows := inv.clients.knows id
  obtain ⟨remote, phase⟩ := knows.connected reached
  rw [phase] at knows
  obtain ⟨progress, call, exchange, found, rfl, delivered, ordered⟩ := knows
  have ok := inv.calls.ok call exchange found
  have handles := ok.handles
  rw [delivered] at handles
  obtain ⟨server, held, connected, describes⟩ := handles
  refine ⟨call, server, ⟨exchange, found, rfl, held⟩, ?_, connected.state, ordered rfl, ?_⟩
  · rintro other twin ⟨later, also, caller, kept⟩
    obtain rfl := inv.calls.single other call later exchange also found caller
    obtain rfl := Option.some.inj (also.symm.trans found)
    exact ⟨rfl, Option.some.inj (kept.symm.trans held)⟩
  · have inward := ok.request.address
    rw [← inv.clients.number exchange.caller] at inward
    exact {
      outward := ⟨_, progress.destination, describes.address⟩
      inward := ⟨_, connected.destination, inward⟩
      outwardPsn := ⟨_, progress.sqPsn, connected.rqPsn.trans (congrArg some ok.request.psn)⟩
      inwardPsn := ⟨_, connected.sqPsn, progress.rqPsn.trans (congrArg some describes.psn)⟩ }

/-- However requests, replies, handlers and modifications are interleaved, connections pair
endpoints. -/
theorem connections_pair_endpoints [DecidableEq ι] (setup : Setup ι) {actions : List (NetAction ι)}
    (ran : run (Network.step setup) (Network.start setup) actions = .ok s) :
    PairsEndpoints setup s := by
  have inv := Network.run_inv ran
  constructor
  · exact fun id reached => connected_paired inv reached
  · intro id other server one two
    obtain ⟨address, leads, here⟩ := one.inward
    obtain ⟨also, same, there⟩ := two.inward
    obtain rfl := Option.some.inj (leads.symm.trans same)
    rw [inv.clients.number] at here there
    exact setup.distinct id other (by simp [here]) (here.trans there.symm)
  · rintro id call other caller callee server twin ⟨exchange, found, -, held⟩
      ⟨later, also, -, kept⟩ one two
    obtain ⟨address, leads, here⟩ := one.outward
    obtain ⟨other', same, there⟩ := two.outward
    obtain rfl := Option.some.inj (leads.symm.trans same)
    exact inv.calls.numbers call other exchange later found also server held twin kept
      (addressOf_qpNum here there)
  · rintro call id server address ⟨exchange, found, rfl, held⟩ leads other
    have ok := inv.calls.ok call exchange found
    obtain ⟨stage, progress⟩ := ok.progress held
    have told := progress.destination.symm.trans leads
    split at told
    next =>
      obtain rfl := Option.some.inj told
      constructor
      · intro there
        exact setup.distinct other exchange.caller (by simp [there])
          (there.trans ok.request.address.symm)
      · rintro rfl
        exact ok.request.address
    next => cases told

-- Two clients on one device; the second one's request is handled first, and with a stop, after
-- which handlers that have begun go on.
def twoClients : Setup Bool where
  serverCtx := twoPorts
  withStop := true
  serves stage := stage ≠ .requested
  ctx _ := twoPorts
  qpNum id := if id then 21 else 20
  distinct := by decide

def twoCalls : List (NetAction Bool) :=
  [.call false, .call true, .serve 0 (.ok 30), .serve 1 (.ok 31), .handle 1 accepting,
    .handle 0 accepting, .handle 1 accepting, .handle 1 accepting, .inform 1, .callback 1,
    .answer 1 (.ok true), .deliver 1, .connect true accepting, .handle 0 accepting,
    .connect true accepting, .connect true accepting, .handle 0 accepting, .inform 0, .callback 0,
    .answer 0 (.ok false), .deliver 0, .connect false accepting, .connect false accepting,
    .connect false accepting]

theorem two_calls_paired :
    ∃ s, run (Network.step twoClients) (Network.start twoClients) twoCalls = .ok s ∧
      s.rts = [.server 1, .client true, .server 0, .client false] ∧
      (∀ id, (s.clients id).qp.qp.state = .rts) ∧ PairsEndpoints twoClients s := by
  have ran : run (Network.step twoClients) (Network.start twoClients) twoCalls = .ok _ := rfl
  refine ⟨_, ran, rfl, fun id => ?_, connections_pair_endpoints twoClients ran⟩
  cases id <;> rfl

end Rdmalib2
