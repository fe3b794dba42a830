/-
# Transactions between one client and one agent

What the hub does with TXN_BEGIN and TXN_ABORT of a client and with TXN_BEGIN_ACK
and TXN_STATUS of an agent whose interface the client has open. Of the broker's
state only the agent's entry in the transaction table matters to the two: none,
pending (with the client waiting for it, or not any more), or active under an
identifier (`Relayed`). `Handles` is this small machine, with what it tells each
of them; `onPeerControl_handles` shows that the broker is one.

`Tells` is the part of a handler's effect that the other handlers do not change:
the transaction messages sent, and that nothing but the transaction table and
the counters moves as long as the transport takes every message.
-/
import CanHub.Hub.Sends

namespace CanHub

open TransactionTable

/-- The messages of a transaction. -/
def HubMessage.isTxn : HubMessage → Bool
  | .txnBegin _ | .txnBeginAck _ | .txnStatus _ | .txnAbort _ => true
  | _ => false

/-- The transport took it. -/
def HubOutput.taken : HubOutput → Bool
  | .control _ _ taken | .datagram _ _ _ taken => taken
  | _ => true

/-- The transport took everything. -/
def Lossless (o : List HubOutput) : Prop := ∀ x ∈ o, x.taken

instance (o : List HubOutput) : Decidable (Lossless o) := inferInstanceAs (Decidable (∀ x ∈ o, x.taken))

theorem Lossless.append {o o' : List HubOutput} (h : Lossless (o ++ o')) : Lossless o ∧ Lossless o' :=
  ⟨fun x hx => h x (List.mem_append_left _ hx), fun x hx => h x (List.mem_append_right _ hx)⟩

/-- The transaction messages sent, in order, each with its addressee. -/
def txnSent (o : List HubOutput) : List (UInt32 × HubMessage) :=
  o.filterMap fun
    | .control peerId m true => if m.isTxn then some (peerId, m) else none
    | _ => none

theorem txnSent_append (o o' : List HubOutput) : txnSent (o ++ o') = txnSent o ++ txnSent o' := List.filterMap_append

theorem txnSent_pace {o : List HubOutput} (h : ∀ x ∈ o, Broker.IsPace x) : txnSent o = [] := by
  refine List.filterMap_eq_nil_iff.mpr fun x hx => ?_
  obtain ⟨_, _, taken, rfl⟩ := h x hx
  cases taken <;> rfl

/-! ### The entry of an agent -/

/-- What the table holds for an agent: `awaited` says whether the client still waits. -/
inductive Relayed | none | pending (awaited : Bool) | active (txnId : UInt16)
deriving DecidableEq

def RelayedTransaction.relayed (t : RelayedTransaction) (clientId : UInt32) : Relayed :=
  match t.state with
  | .free => .none
  | .pending => .pending (t.clientPeerId = clientId)
  | .active => .active t.txnId

namespace TransactionTable

section Pair

variable (agentId clientId : UInt32) (channel : UInt8)

def relayed (T : TransactionTable) : Relayed :=
  match T.forAgent agentId with
  | none => .none
  | some i => (T.entries i).relayed clientId

/-- The entries of the agent and those of the client are one: the client's
channel at that agent, or what is left of it while the agent has not answered. -/
def Serves (T : TransactionTable) : Prop :=
  ∀ i, (T.entries i).isInUse → (T.entries i).agentPeerId = agentId ∨ (T.entries i).clientPeerId = clientId →
    T.forAgent agentId = some i ∧ (T.entries i).clientChannel = channel
      ∧ ((T.entries i).clientPeerId = clientId
        ∨ ((T.entries i).clientPeerId = transactionNoClient ∧ (T.entries i).state = .pending))

end Pair

variable {agentId clientId : UInt32} {channel : UInt8} {T T' : TransactionTable} {i : TransactionSlot}

theorem forAgent_congr (h : T'.entries = T.entries) : T'.forAgent agentId = T.forAgent agentId := by
  unfold forAgent
  rw [h]

theorem relayed_congr (h : T'.entries = T.entries) : T'.relayed agentId clientId = T.relayed agentId clientId := by
  unfold relayed
  rw [forAgent_congr h, h]

theorem Serves.congr (hs : T.Serves agentId clientId channel) (h : T'.entries = T.entries) :
    T'.Serves agentId clientId channel := by
  unfold Serves
  rw [forAgent_congr h, h]
  exact hs

theorem relayed_of_forAgent (h : T.forAgent agentId = some i) :
    T.relayed agentId clientId = (T.entries i).relayed clientId := by
  simp only [relayed, h]

theorem relayed_of_forAgent_none (h : T.forAgent agentId = none) : T.relayed agentId clientId = .none := by
  simp only [relayed, h]

namespace Serves

variable (hs : T.Serves agentId clientId channel)
include hs

/-- The agent's entry after a change of it. -/
theorem modify (h : ∀ j, T.forAgent agentId = some j → j = i)
    (f : RelayedTransaction → RelayedTransaction) (huse : (f (T.entries i)).isInUse)
    (hagent : (f (T.entries i)).agentPeerId = agentId) (hchannel : (f (T.entries i)).clientChannel = channel)
    (hclient : (f (T.entries i)).clientPeerId = clientId
      ∨ ((f (T.entries i)).clientPeerId = transactionNoClient ∧ (f (T.entries i)).state = .pending)) :
    (T.modify i f).forAgent agentId = some i ∧ (T.modify i f).Serves agentId clientId channel := by
  -- any other entry of the two would be the one the agent had before
  have hother : ∀ j, ((T.modify i f).entries j).isInUse →
      ((T.modify i f).entries j).agentPeerId = agentId ∨ ((T.modify i f).entries j).clientPeerId = clientId → j = i := by
    intro j hj hor
    by_contra hne
    rw [modify_entries_of_ne f hne] at hj hor
    exact hne (h j (hs j hj hor).1)
  have hfor : (T.modify i f).forAgent agentId = some i := by
    refine Table.find?_unique ?_ fun j hj => ?_
    · simp [huse, hagent]
    · simp only [Bool.and_eq_true, beq_iff_eq] at hj
      exact hother j hj.1 (.inl hj.2)
  refine ⟨hfor, fun j hj hor => ?_⟩
  obtain rfl := hother j hj hor
  rw [modify_entries_self]
  exact ⟨hfor, hchannel, hclient⟩

/-- Clearing the agent's entry leaves none. -/
theorem clear (h : T.forAgent agentId = some i) :
    (T.modify i fun _ => {}).forAgent agentId = none
      ∧ (T.modify i fun _ => {}).Serves agentId clientId channel := by
  have hnone : ∀ j, ((T.modify i fun _ => {}).entries j).isInUse →
      ¬ (((T.modify i fun _ => {}).entries j).agentPeerId = agentId
        ∨ ((T.modify i fun _ => {}).entries j).clientPeerId = clientId) := by
    intro j hj hor
    by_cases hne : j = i
    · rw [hne, modify_entries_self] at hj
      cases hj
    · rw [modify_entries_of_ne _ hne] at hj hor
      exact hne (Option.some.inj ((hs j hj hor).1.symm.trans h))
  refine ⟨Table.find?_eq_none.mpr fun j => ?_, fun j hj hor => absurd hor (hnone j hj)⟩
  by_contra hne
  simp only [Bool.not_eq_false, Bool.and_eq_true, beq_iff_eq] at hne
  exact hnone j hne.1 (.inl hne.2)

theorem forClientChannel_some
    (h : T.forClientChannel clientId channel = some i) :
    T.forAgent agentId = some i ∧ (T.entries i).clientPeerId = clientId := by
  obtain ⟨huse, hclient, -⟩ := TransactionTable.forClientChannel_some h
  exact ⟨(hs i huse (.inr hclient)).1, hclient⟩

theorem forClientChannel_eq (h : T.forAgent agentId = some i)
    (hclient : (T.entries i).clientPeerId = clientId) : T.forClientChannel clientId channel = some i := by
  obtain ⟨huse, hagent⟩ := forAgent_some h
  refine Table.find?_unique ?_ fun j hj => ?_
  · simp [huse, hclient, (hs i huse (.inl hagent)).2.1]
  · simp only [Bool.and_eq_true, beq_iff_eq] at hj
    exact Option.some.inj ((hs j hj.1.1 (.inr hj.1.2)).1.symm.trans h)

end Serves
end TransactionTable

namespace Broker

/-! ### What a handler tells -/

/-- From `s` to `s'` the broker sent the transaction messages `ms`, and changed
the transaction table to `T`, its counters, and nothing else the pair can see. -/
structure Tells (s s' : Broker) (T : TransactionTable) (ms : List (UInt32 × HubMessage)) : Prop where
  log : ∃ o, s'.port.log = s.port.log ++ o ∧ (Lossless o → txnSent o = ms ∧ s'.directory = s.directory)
  peerId : ∀ i, (s'.directory i).peerId = (s.directory i).peerId
  registry : s'.registry = s.registry
  transactions : s'.transactions = T

namespace Tells

variable {s s' s'' : Broker} {T T' : TransactionTable} {ms ms' : List (UInt32 × HubMessage)}

theorem refl (s : Broker) : Tells s s s.transactions [] :=
  ⟨⟨[], (List.append_nil _).symm, fun _ => ⟨rfl, rfl⟩⟩, fun _ => rfl, rfl, rfl⟩

variable (h : Tells s s' T ms)
include h

theorem trans (h' : Tells s' s'' T' ms') : Tells s s'' T' (ms ++ ms') := by
  obtain ⟨o, hlog, ho⟩ := h.log
  obtain ⟨o', hlog', ho'⟩ := h'.log
  refine ⟨⟨o ++ o', ?_, fun hl => ?_⟩, fun i => (h'.peerId i).trans (h.peerId i), h'.registry.trans h.registry,
    h'.transactions⟩
  · rw [hlog', hlog, List.append_assoc]
  · obtain ⟨hms, hd⟩ := ho hl.append.1
    obtain ⟨hms', hd'⟩ := ho' hl.append.2
    exact ⟨by rw [txnSent_append, hms, hms'], hd'.trans hd⟩

theorem ask : Tells s s'.ask.1 T ms := by
  have h' : Tells s' s'.ask.1 s'.transactions [] :=
    ⟨⟨[], (List.append_nil _).symm, fun _ => ⟨rfl, rfl⟩⟩, fun _ => rfl, rfl, rfl⟩
  rw [h.transactions] at h'
  simpa using h.trans h'

theorem count (f : TransactionCounters → TransactionCounters) :
    Tells s (s'.countTransactions f) T ms := ⟨h.log, h.peerId, h.registry, h.transactions⟩

theorem change (T' : TransactionTable) : Tells s { s' with transactions := T' } T' ms :=
  ⟨h.log, h.peerId, h.registry, rfl⟩

theorem pace (hp : SendsOnly IsPace s' s'') : Tells s s'' T ms := by
  have h' : Tells s' s'' s'.transactions [] := by
    obtain ⟨flags, asked, o, ho, hf, rfl⟩ := hp
    refine ⟨⟨o, rfl, fun hl => ⟨txnSent_pace ho, ?_⟩⟩, fun _ => rfl, rfl, rfl⟩
    funext i
    rcases hf i with he | ⟨m, hm⟩
    · simp only [sent, he]
    · exact absurd (hl _ hm) (by simp [HubOutput.taken])
  rw [h.transactions] at h'
  simpa using h.trans h'

theorem send (i : PeerSlot) {m : HubMessage} (hm : m.isTxn) :
    Tells s (s'.sendControl i m) T (ms ++ [((s.directory i).peerId, m)]) := by
  have h' : Tells s' (s'.sendControl i m) s'.transactions [((s'.directory i).peerId, m)] := by
    rw [s'.sendControl_eq]
    refine ⟨⟨_, rfl, fun hl => ?_⟩, fun _ => rfl, rfl, rfl⟩
    have ha : s'.port.answer s'.port.asked = true := hl _ (List.mem_singleton.mpr rfl)
    refine ⟨by simp [txnSent, ha, hm], ?_⟩
    funext j
    simp [sent, ha]
  rw [h.transactions, h.peerId] at h'
  exact h.trans h'

theorem close (t : TransactionSlot) :
    Tells s { s' with transactions := s'.transactions.close t } (T.close t) ms := by
  have hclose := h.change (s'.transactions.close t)
  rw [h.transactions] at hclose ⊢
  exact hclose

/-- Closing an entry, and announcing the end of its lease. -/
theorem finish (t : TransactionSlot) : Tells s (s'.finishTransaction t) (T.close t) ms := by
  unfold finishTransaction
  dsimp only
  have hclose := h.close t
  split
  · exact hclose.pace (announceLease_sends _ _)
  · exact hclose

end Tells

/-! ### Admission -/

theorem Tells.reject {s s' : Broker} {T : TransactionTable} (h : Tells s s' T []) (c : PeerSlot) (channel : UInt8)
    (status : TxnBeginStatus) : Tells s (s'.rejectTxnBegin c channel status) T
      [((s.directory c).peerId, .txnBeginAck ⟨channel, status.code, 0, 0⟩)] :=
  (h.count _).send c rfl

/-- **What a TXN_BEGIN does**: it is refused, or the agent that has the interface
and no transaction gets an entry, and the message. -/
theorem handleTxnBegin_tells (s : Broker) (c : PeerSlot) (b : TxnBeginMessage) (hrole : (s.directory c).role = .client) :
    (∃ status, status ≠ TxnBeginStatus.ok ∧ Tells s (s.handleTxnBegin c b) s.transactions
        [((s.directory c).peerId, .txnBeginAck ⟨b.channel, status.code, 0, 0⟩)])
    ∨ ∃ interfaceId k a t request, (s.directory c).session.interfaceForChannel b.channel = some interfaceId
        ∧ s.registry.findById interfaceId = some k ∧ (s.registry.entries k).isVirtual = false
        ∧ s.find (s.registry.entries k).agentPeerId = some a
        ∧ s.transactions.forAgent (s.directory a).peerId = none ∧ (s.transactions.entries t).isInUse = false
        ∧ request.agentPeerId = (s.directory a).peerId ∧ request.clientPeerId = (s.directory c).peerId
        ∧ request.clientChannel = b.channel ∧ request.state = .pending
        ∧ Tells s (s.handleTxnBegin c b) (s.transactions.modify t fun _ => request)
          [((s.directory a).peerId, .txnBegin { b with channel := request.agentChannel })] := by
  unfold handleTxnBegin
  rw [if_neg (by simp [hrole])]
  rcases s.admitTransaction_cases c b with ⟨status, hstatus, he | he⟩
      | ⟨interfaceId, k, a, hinterface, hk, hvirtual, ha, hfree, -, he⟩
  · rw [he]
    exact .inl ⟨status, hstatus, (Tells.refl s).reject c b.channel status⟩
  · rw [he]
    exact .inl ⟨status, hstatus, (Tells.refl s).ask.reject c b.channel status⟩
  · rw [he]
    dsimp only
    split
    · exact .inl ⟨.busy, by decide, (Tells.refl s).ask.reject c b.channel .busy⟩
    · rename_i T t hopen
      obtain ⟨-, huse, rfl⟩ := openEntry_some hopen
      obtain ⟨-, hpeer⟩ := PeerDirectory.find_some ha
      have hfind : s.ask.1.find (s.directory a).peerId = some a := by
        rw [hpeer]
        exact ha
      rw [hfind]
      refine .inr ⟨interfaceId, k, a, t, _, hinterface, hk, hvirtual, ha, hfree, huse, ?_, ?_, ?_, ?_,
        ((Tells.refl s).ask.change _).send a rfl⟩ <;> rfl

end Broker

/-! ### The machine between the two -/

/-- One client with one channel open at an interface of one agent. -/
structure Pair where
  agent : PeerSlot
  client : PeerSlot
  agentId : UInt32
  clientId : UInt32
  channel : UInt8

/-- **What the hub does with the messages of the two**: the agent's entry before
and after, what the agent is told and what the client is told. -/
inductive Handles (p : Pair) : Relayed → ControlMessage → Relayed → List HubMessage → List HubMessage → Prop
  | refuse (v : Relayed) (b : TxnBeginMessage) {status : UInt8} (h : status ≠ TxnBeginStatus.ok.code) :
      Handles p v (.txnBegin b) v [] [.txnBeginAck ⟨p.channel, status, 0, 0⟩]
  | openEntry (b : TxnBeginMessage) (channel : UInt8) :
      Handles p .none (.txnBegin b) (.pending true) [.txnBegin { b with channel }] []
  | lateAck {v : Relayed} (ack : TxnBeginAckMessage) (h : ∀ awaited, v ≠ .pending awaited) :
      Handles p v (.txnBeginAck ack) v [] []
  | agentRefuses (awaited : Bool) {ack : TxnBeginAckMessage} (h : ack.status ≠ TxnBeginStatus.ok.code) :
      Handles p (.pending awaited) (.txnBeginAck ack) .none []
        (if awaited then [.txnBeginAck ⟨p.channel, ack.status, 0, 0⟩] else [])
  | revoke {ack : TxnBeginAckMessage} (h : ack.status = TxnBeginStatus.ok.code) (channel : UInt8) :
      Handles p (.pending false) (.txnBeginAck ack) .none [.txnAbort ⟨channel, ack.txnId⟩] []
  | grant {ack : TxnBeginAckMessage} (h : ack.status = TxnBeginStatus.ok.code) (windowBytes : UInt32) :
      Handles p (.pending true) (.txnBeginAck ack) (.active ack.txnId) []
        [.txnBeginAck { ack with channel := p.channel, windowBytes }]
  | abandon (m : TxnAbortMessage) : Handles p (.pending true) (.txnAbort m) (.pending false) [] []
  | relayAbort (txnId : UInt16) (m : TxnAbortMessage) (channel : UInt8) :
      Handles p (.active txnId) (.txnAbort m) (.active txnId) [.txnAbort { m with channel }] []
  | lateAbort {v : Relayed} (m : TxnAbortMessage) (h : v = .none ∨ v = .pending false) :
      Handles p v (.txnAbort m) v [] []
  | finish (m : TxnStatusMessage) :
      Handles p (.active m.txnId) (.txnStatus m) .none [] [.txnStatus { m with channel := p.channel }]
  | lateStatus {v : Relayed} (m : TxnStatusMessage) (h : v ≠ .active m.txnId) : Handles p v (.txnStatus m) v [] []

/-- The pair as the hub has it. -/
structure Attends (p : Pair) (s : Broker) : Prop where
  agent : s.find p.agentId = some p.agent
  agentRole : (s.directory p.agent).role = .agent
  agentSound : (s.directory p.agent).sendFailed = false
  client : s.find p.clientId = some p.client
  clientRole : (s.directory p.client).role = .client
  clientSound : (s.directory p.client).sendFailed = false
  /-- no peer has the identifier that stands for none -/
  noClient : s.find transactionNoClient = none
  /-- the client's channel is an interface of this agent -/
  opens : ∀ interfaceId k, (s.directory p.client).session.interfaceForChannel p.channel = some interfaceId →
    s.registry.findById interfaceId = some k → (s.registry.entries k).isVirtual = false →
    (s.registry.entries k).agentPeerId = p.agentId
  serves : s.transactions.Serves p.agentId p.clientId p.channel

/-- The agent's entry. -/
def Broker.relayed (s : Broker) (p : Pair) : Relayed := s.transactions.relayed p.agentId p.clientId

/-- A handler did what the machine does. -/
def Follows (p : Pair) (m : ControlMessage) (s s' : Broker) : Prop :=
  ∃ T toAgent toClient, Handles p (s.relayed p) m (T.relayed p.agentId p.clientId) toAgent toClient
    ∧ T.Serves p.agentId p.clientId p.channel
    ∧ Broker.Tells s s' T (toAgent.map (p.agentId, ·) ++ toClient.map (p.clientId, ·))

namespace Attends

open Broker

variable {p : Pair} {s : Broker}

variable (h : Attends p s) {t : TransactionSlot}
include h

theorem agent_peerId : (s.directory p.agent).peerId = p.agentId :=
  (PeerDirectory.find_some h.agent).2

theorem client_peerId : (s.directory p.client).peerId = p.clientId :=
  (PeerDirectory.find_some h.client).2

theorem agent_ne_client : p.agentId ≠ p.clientId := by
  intro he
  have hslot : p.agent = p.client := by
    have h1 := h.agent
    rw [he, h.client] at h1
    exact (Option.some.inj h1).symm
  have hrole := h.agentRole
  rw [hslot, h.clientRole] at hrole
  cases hrole

theorem client_ne_zero : p.clientId ≠ transactionNoClient := by
  intro he
  have h1 := h.client
  rw [he, h.noClient] at h1
  cases h1

variable {m : ControlMessage}

/-- Nothing is done. -/
theorem idle (hm : Handles p (s.relayed p) m (s.relayed p) [] []) :
    Follows p m s s := ⟨s.transactions, [], [], hm, h.serves, Tells.refl s⟩

theorem handleTxnBegin {b : TxnBeginMessage} (hb : b.channel = p.channel) :
    Follows p (.txnBegin b) s (s.handleTxnBegin p.client b) := by
  rcases s.handleTxnBegin_tells p.client b h.clientRole with ⟨status, hstatus, htells⟩
      | ⟨interfaceId, k, a, t, request, hinterface, hk, hvirtual, ha, hfree, huse, hagent, hclient, hchannel, hstate,
        htells⟩
  · rw [h.client_peerId, hb] at htells
    refine ⟨s.transactions, [], _, .refuse _ b ?_, h.serves, htells⟩
    cases status <;> first | exact absurd rfl hstatus | decide
  · -- the agent is the one that has the client's channel
    have hid : (s.directory a).peerId = p.agentId := by
      rw [hb] at hinterface
      rw [(PeerDirectory.find_some ha).2]
      exact h.opens interfaceId k hinterface hk hvirtual
    rw [hid] at hfree hagent htells
    rw [h.client_peerId] at hclient
    obtain ⟨hfor, hserves⟩ := h.serves.modify (i := t) (fun j hj => by rw [hfree] at hj; cases hj) (fun _ => request)
      (by simp [RelayedTransaction.isInUse, hstate]) hagent (hchannel.trans hb) (.inl hclient)
    refine ⟨_, [.txnBegin { b with channel := request.agentChannel }], [], ?_, hserves, htells⟩
    have hbefore : s.relayed p = .none := relayed_of_forAgent_none hfree
    rw [hbefore, relayed_of_forAgent hfor, modify_entries_self]
    simp only [RelayedTransaction.relayed, hstate, hclient, decide_true]
    exact .openEntry b _

omit h

/-- The agent's entry, by the slot it is in. -/
theorem relayed_eq (ht : s.transactions.forAgent p.agentId = some t) :
    s.relayed p = (s.transactions.entries t).relayed p.clientId := relayed_of_forAgent ht

include h

/-- Closing the agent's entry. -/
theorem close (ht : s.transactions.forAgent p.agentId = some t) :
    (s.transactions.close t).relayed p.agentId p.clientId = .none
      ∧ (s.transactions.close t).Serves p.agentId p.clientId p.channel := by
  obtain ⟨hfor, hserves⟩ := h.serves.clear ht
  have he : (s.transactions.close t).entries = (s.transactions.modify t fun _ => {}).entries :=
    close_entries
  exact ⟨(relayed_congr he).trans (relayed_of_forAgent_none hfor), hserves.congr he⟩

/-- The client of the agent's entry, as the directory finds it. -/
theorem find_client (ht : s.transactions.forAgent p.agentId = some t) :
    s.find (s.transactions.entries t).clientPeerId
      = if (s.transactions.entries t).clientPeerId = p.clientId then some p.client else none := by
  obtain ⟨huse, hagent⟩ := forAgent_some ht
  rcases (h.serves t huse (.inl hagent)).2.2 with hc | ⟨hc, -⟩
  · rw [if_pos hc, hc, h.client]
  · rw [hc, if_neg (fun he => h.client_ne_zero he.symm), h.noClient]

theorem handleTxnBeginAck (ack : TxnBeginAckMessage) :
    Follows p (.txnBeginAck ack) s (s.handleTxnBeginAck p.agent ack) := by
  unfold Broker.handleTxnBeginAck
  rw [if_neg (by simp [h.agentRole]), h.agent_peerId]
  cases ht : s.transactions.forAgent p.agentId with
  | none =>
    refine h.idle (.lateAck ack fun awaited he => ?_)
    rw [Broker.relayed, relayed_of_forAgent_none ht] at he
    cases he
  | some t =>
    dsimp only
    by_cases hstate : (s.transactions.entries t).state = .pending
    · rw [if_neg (by simp [hstate])]
      have hbefore : s.relayed p = .pending ((s.transactions.entries t).clientPeerId = p.clientId) := by
        rw [relayed_eq ht, RelayedTransaction.relayed, hstate]
      obtain ⟨huse, hagent⟩ := forAgent_some ht
      obtain ⟨-, hchannel, hclient⟩ := h.serves t huse (.inl hagent)
      obtain ⟨hnone, hserves⟩ := h.close ht
      rw [h.find_client ht]
      by_cases hok : ack.status = TxnBeginStatus.ok.code
      · rw [if_neg (by simp [hok])]
        by_cases hc : (s.transactions.entries t).clientPeerId = p.clientId
        · -- granted to the client that waits for it
          rw [if_pos hc]
          obtain ⟨hfor, hactive⟩ := h.serves.modify (i := t) (fun j hj => Option.some.inj (hj.symm.trans ht))
            (fun e => { e with state := .active, txnId := ack.txnId }) rfl hagent hchannel (.inl hc)
          have he : (s.transactions.activate t ack.txnId).entries
              = (s.transactions.modify t fun e => { e with state := .active, txnId := ack.txnId }).entries :=
            activate_entries _
          refine ⟨s.transactions.activate t ack.txnId, [],
            [.txnBeginAck { ack with channel := p.channel, windowBytes := relayedWindow ack.windowBytes }],
            ?_, hactive.congr he, ?_⟩
          · rw [hbefore, relayed_congr he, relayed_of_forAgent hfor,
              modify_entries_self, decide_eq_true hc]
            exact .grant hok _
          · rw [hchannel, ← h.client_peerId]
            refine Tells.send ?_ p.client rfl
            have hcount := ((Tells.refl s).change (s.transactions.activate t ack.txnId)).count fun c =>
              { c with started := c.started + 1 }
            split
            · exact hcount.pace (announceLease_sends _ _)
            · exact hcount
        · -- its client has left: the agent is told to abort
          rw [if_neg hc]
          refine ⟨s.transactions.close t, [.txnAbort ⟨(s.transactions.entries t).agentChannel, ack.txnId⟩], [],
            ?_, hserves, ?_⟩
          · rw [hbefore, hnone, decide_eq_false hc]
            exact .revoke hok _
          · rw [← h.agent_peerId]
            exact (Tells.send ((Tells.refl s).count _) p.agent (by rfl)).close t
      · rw [if_pos hok]
        have hclosed := ((Tells.refl s).count fun c => { c with rejected := c.rejected + 1 }).change
          (s.transactions.close t)
        by_cases hc : (s.transactions.entries t).clientPeerId = p.clientId
        · rw [if_pos hc]
          refine ⟨s.transactions.close t, [], [.txnBeginAck ⟨p.channel, ack.status, 0, 0⟩], ?_, hserves, ?_⟩
          · rw [hbefore, hnone, decide_eq_true hc]
            exact .agentRefuses true hok
          · rw [hchannel, ← h.client_peerId]
            exact hclosed.send p.client rfl
        · rw [if_neg hc]
          refine ⟨s.transactions.close t, [], [], ?_, hserves, hclosed⟩
          rw [hbefore, hnone, decide_eq_false hc]
          exact .agentRefuses false hok
    · rw [if_pos hstate]
      refine h.idle (.lateAck ack fun awaited he => hstate ?_)
      rw [relayed_eq ht] at he
      unfold RelayedTransaction.relayed at he
      split at he <;> first | assumption | cases he

theorem handleTxnAbort {m : TxnAbortMessage} (hm : m.channel = p.channel) :
    Follows p (.txnAbort m) s (s.handleTxnAbort p.client m) := by
  unfold Broker.handleTxnAbort
  rw [if_neg (by simp [h.clientRole]), h.client_peerId, hm]
  cases hfor : s.transactions.forClientChannel p.clientId p.channel with
  | none =>
    refine h.idle (.lateAbort m ?_)
    -- an entry that the client's channel does not find has no client
    cases ht : s.transactions.forAgent p.agentId with
    | none => exact .inl (relayed_of_forAgent_none ht)
    | some t =>
      obtain ⟨huse, hagent⟩ := forAgent_some ht
      rcases (h.serves t huse (.inl hagent)).2.2 with hc | ⟨hc, hstate⟩
      · rw [h.serves.forClientChannel_eq ht hc] at hfor
        cases hfor
      · refine .inr ?_
        rw [relayed_eq ht, RelayedTransaction.relayed, hstate, hc]
        exact congrArg Relayed.pending (decide_eq_false fun he => h.client_ne_zero he.symm)
  | some t =>
    obtain ⟨ht, hc⟩ := h.serves.forClientChannel_some hfor
    obtain ⟨huse, hagent⟩ := forAgent_some ht
    obtain ⟨-, hchannel, -⟩ := h.serves t huse (.inl hagent)
    dsimp only
    by_cases hstate : (s.transactions.entries t).state = .pending
    · rw [if_pos hstate]
      unfold abandonTransaction
      rw [if_pos hstate]
      obtain ⟨hfor', hserves⟩ := h.serves.modify (i := t) (fun j hj => Option.some.inj (hj.symm.trans ht))
        (fun e => { e with clientPeerId := transactionNoClient }) huse hagent hchannel (.inr ⟨rfl, hstate⟩)
      refine ⟨_, [], [], ?_, hserves, (Tells.refl s).change _⟩
      rw [relayed_eq ht, relayed_of_forAgent hfor', modify_entries_self]
      simp only [RelayedTransaction.relayed, hstate, hc, decide_true]
      rw [decide_eq_false fun he => h.client_ne_zero he.symm]
      exact .abandon m
    · rw [if_neg hstate, hagent, h.agent]
      have hbefore : s.relayed p = .active (s.transactions.entries t).txnId := by
        rw [relayed_eq ht]
        unfold RelayedTransaction.relayed
        cases he : (s.transactions.entries t).state with
        | free => simp [RelayedTransaction.isInUse, he] at huse
        | pending => exact absurd he hstate
        | active => rfl
      refine ⟨s.transactions, [.txnAbort { m with channel := (s.transactions.entries t).agentChannel }], [],
        ?_, h.serves, ?_⟩
      · show Handles p _ _ (s.relayed p) _ _
        rw [hbefore]
        exact .relayAbort _ m _
      · rw [← h.agent_peerId]
        exact (Tells.refl s).send p.agent rfl

theorem handleTxnStatus (m : TxnStatusMessage) :
    Follows p (.txnStatus m) s (s.handleTxnStatus p.agent m) := by
  unfold Broker.handleTxnStatus activeTransactionOfAgent
  rw [if_neg (by simp [h.agentRole]), h.agent_peerId]
  cases ht : s.transactions.forAgent p.agentId with
  | none =>
    refine h.idle (.lateStatus m fun he => ?_)
    rw [Broker.relayed, relayed_of_forAgent_none ht] at he
    cases he
  | some t =>
    dsimp only
    by_cases hactive : (s.transactions.entries t).state = .active ∧ (s.transactions.entries t).txnId = m.txnId
    · rw [if_pos hactive]
      obtain ⟨huse, hagent⟩ := forAgent_some ht
      obtain ⟨-, hchannel, hclient⟩ := h.serves t huse (.inl hagent)
      have hc : (s.transactions.entries t).clientPeerId = p.clientId := by
        rcases hclient with hc | ⟨-, hp⟩
        · exact hc
        · rw [hactive.1] at hp
          cases hp
      obtain ⟨hnone, hserves⟩ := h.close ht
      have hfind : ((s.countTransactions fun c =>
          if m.state = TxnState.done.code then { c with completed := c.completed + 1 }
          else { c with aborted := c.aborted + 1 }).countTransactions fun c =>
          { c with stepsCompleted := c.stepsCompleted + m.completedSteps.toUInt64 }).find
            (s.transactions.entries t).clientPeerId = some p.client := by
        rw [hc]
        exact h.client
      dsimp only
      rw [hfind, hchannel]
      refine ⟨s.transactions.close t, [], [.txnStatus { m with channel := p.channel }], ?_, hserves, ?_⟩
      · rw [hnone, relayed_eq ht, RelayedTransaction.relayed, hactive.1, hactive.2]
        exact .finish m
      · rw [← h.client_peerId]
        exact ((((Tells.refl s).count _).count _).send p.client (by rfl)).finish t
    · rw [if_neg hactive]
      refine h.idle (.lateStatus m fun he => hactive ?_)
      rw [relayed_eq ht] at he
      unfold RelayedTransaction.relayed at he
      split at he
      · cases he
      · cases he
      · rename_i hstate
        exact ⟨hstate, by injection he⟩

theorem of_eq {s' : Broker} (hd : s'.directory = s.directory) (hr : s'.registry = s.registry)
    (hserves : s'.transactions.Serves p.agentId p.clientId p.channel) : Attends p s' := by
  have hfind : ∀ id, s'.find id = s.find id := fun id => by rw [Broker.find, hd, Broker.find]
  refine ⟨(hfind _).trans h.agent, ?_, ?_, (hfind _).trans h.client, ?_, ?_, (hfind _).trans h.noClient, ?_, hserves⟩
  · rw [hd]; exact h.agentRole
  · rw [hd]; exact h.agentSound
  · rw [hd]; exact h.clientRole
  · rw [hd]; exact h.clientSound
  · rw [hd, hr]; exact h.opens

end Attends

/-! ### Events -/

/-- The messages of the pair: the client names its channel. -/
inductive Pair.Sends (p : Pair) : UInt32 → ControlMessage → Prop
  | txnBegin {b : TxnBeginMessage} (h : b.channel = p.channel) : Pair.Sends p p.clientId (.txnBegin b)
  | txnAbort {m : TxnAbortMessage} (h : m.channel = p.channel) : Pair.Sends p p.clientId (.txnAbort m)
  | txnBeginAck (ack : TxnBeginAckMessage) : Pair.Sends p p.agentId (.txnBeginAck ack)
  | txnStatus (m : TxnStatusMessage) : Pair.Sends p p.agentId (.txnStatus m)

/-- The transport takes what the message makes the hub send. -/
def Broker.lossless (s : Broker) (peerId : UInt32) (m : ControlMessage) (nowUs : ℕ) : Bool :=
  match s.find peerId with
  | none => true
  | some i => Lossless (({ s with nowUs } : Broker).handleControl i m).port.log

theorem Attends.handleControl {p : Pair} {s : Broker} (h : Attends p s) {peerId : UInt32}
    (hm : p.Sends peerId m) : ∃ i, s.find peerId = some i ∧ (s.directory i).sendFailed = false
      ∧ Follows p m s (s.handleControl i m) := by
  cases hm with
  | txnBegin hb => exact ⟨p.client, h.client, h.clientSound, h.handleTxnBegin hb⟩
  | txnAbort hm => exact ⟨p.client, h.client, h.clientSound, h.handleTxnAbort hm⟩
  | txnBeginAck ack => exact ⟨p.agent, h.agent, h.agentSound, h.handleTxnBeginAck ack⟩
  | txnStatus m => exact ⟨p.agent, h.agent, h.agentSound, h.handleTxnStatus m⟩

/-- **The broker is the machine**: a message of the pair moves the agent's entry
as `Handles` says, the two are told what it says, and the pair stays. -/
theorem onPeerControl_handles {p : Pair} {s : Broker} (h : Attends p s) {peerId : UInt32}
    (hm : p.Sends peerId m) (nowUs : ℕ) (hlog : s.port.log = []) (hlossless : s.lossless peerId m nowUs) :
    ∃ toAgent toClient, Handles p (s.relayed p) m ((s.onPeerControl peerId m nowUs).relayed p) toAgent toClient
      ∧ Attends p (s.onPeerControl peerId m nowUs)
      ∧ txnSent (s.onPeerControl peerId m nowUs).port.log
        = toAgent.map (p.agentId, ·) ++ toClient.map (p.clientId, ·) := by
  have h' : Attends p { s with nowUs } := ⟨h.agent, h.agentRole, h.agentSound, h.client, h.clientRole, h.clientSound,
    h.noClient, h.opens, h.serves⟩
  obtain ⟨i, hi, hsound, T, toAgent, toClient, hhandles, hserves, htells⟩ := h'.handleControl hm
  have hfind : s.find peerId = some i := hi
  simp only [Broker.lossless, hfind, decide_eq_true_eq] at hlossless
  obtain ⟨o, ho, hkept⟩ := htells.log
  have heq : s.onPeerControl peerId m nowUs = ({ s with nowUs } : Broker).handleControl i m := by
    rw [ho] at hlossless
    obtain ⟨-, hd⟩ := hkept hlossless.append.2
    have hfound : (({ s with nowUs } : Broker).handleControl i m).find peerId = some i := by
      rw [Broker.find, hd]
      exact hi
    rw [Broker.onPeerControl_eq, hi]
    exact Broker.dropIfSendFailed_sound hfound (by rw [hd]; exact hsound)
  rw [heq]
  have hempty : ({ s with nowUs } : Broker).port.log = [] := hlog
  rw [hempty, List.nil_append] at ho
  rw [ho] at hlossless
  obtain ⟨hms, hd⟩ := hkept hlossless
  refine ⟨toAgent, toClient, ?_, h'.of_eq hd htells.registry ?_, ?_⟩
  · have hafter : (({ s with nowUs } : Broker).handleControl i m).relayed p = T.relayed p.agentId p.clientId := by
      rw [Broker.relayed, htells.transactions]
    rw [hafter]
    exact hhandles
  · rw [htells.transactions]
    exact hserves
  · rw [ho]
    exact hms

end CanHub
