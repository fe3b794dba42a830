/-
# Announcements of a lease

Whoever has an interface open should know whether it is leased to somebody else, or its
frames are lost without a word. The hub says so in an INTERFACE_STATUS when a lease
starts, when it ends, and when a client opens an interface that is leased. Such a status
has one entry, for one channel of the client (`channelForInterface`): `Announces` is what
is sent, and `lease_announced_iff` that every channel is told of the lease just when no
client has a second one on the interface.
-/
import CanHub.Hub.Sound

namespace CanHub

open List
namespace Broker

variable {s s' s₁ : Broker} {interfaceId rate holder : UInt32} {o o' : List HubOutput}

/-! ### What is sent -/

/-- The statuses among the outputs: one for each client in the slots, for the first channel it has on the
interface. -/
def Announces (s : Broker) (interfaceId rate : UInt32) (slots : List PeerSlot) (o : List HubOutput) : Prop :=
  ∀ peerId status, (∃ taken, HubOutput.control peerId (.interfaceStatus status) taken ∈ o) ↔
    ∃ i ∈ slots, ∃ channel, (s.directory i).inUse ∧ (s.directory i).role = .client
      ∧ (s.directory i).peerId = peerId ∧ (s.directory i).session.channelForInterface interfaceId = some channel
      ∧ status = { channel, advertisedRate := rate, leased := s.leasedToAnother interfaceId peerId }

/-- What `relayPaceTo` sends. -/
theorem relayPaceTo_announces (s : Broker) (interfaceId rate : UInt32) (i : PeerSlot) :
    ∃ flags asked o, relayPaceTo interfaceId rate s i = s.sent flags asked o
      ∧ s.Announces interfaceId rate [i] o := by
  have hnone : s = s.sent (fun j => (s.directory j).sendFailed) s.port.asked [] := by simp [sent]
  unfold relayPaceTo
  by_cases hi : !(s.directory i).inUse ∨ (s.directory i).role ≠ .client
  · refine ⟨_, _, _, (if_pos hi).trans hnone, fun peerId status => ?_⟩
    simp only [not_mem_nil, exists_false, false_iff]
    rintro ⟨j, hj, _, huse, hrole, _⟩
    cases mem_singleton.mp hj
    rcases hi with hi | hi
    · simp [huse] at hi
    · exact hi hrole
  obtain ⟨huse, hrole⟩ : (s.directory i).inUse ∧ (s.directory i).role = .client := by simpa using hi
  rw [if_neg hi]
  cases hc : (s.directory i).session.channelForInterface interfaceId with
  | none =>
    refine ⟨_, _, _, hnone, fun peerId status => ?_⟩
    simp only [not_mem_nil, exists_false, false_iff]
    rintro ⟨j, hj, _, _, _, _, hj', _⟩
    cases mem_singleton.mp hj
    rw [hc] at hj'
    cases hj'
  | some channel =>
    refine ⟨_, _, _, s.sendControl_eq i _, fun peerId status => ?_⟩
    constructor
    · rintro ⟨taken, h⟩
      cases mem_singleton.mp h
      exact ⟨i, mem_singleton_self i, channel, huse, hrole, rfl, hc, rfl⟩
    · rintro ⟨j, hj, c, _, _, rfl, hj', rfl⟩
      cases mem_singleton.mp hj
      rw [hc] at hj'
      cases hj'
      exact ⟨_, mem_singleton_self _⟩

variable {i : PeerSlot} {flags : PeerSlot → Bool} {asked : ℕ}

theorem Announces.cons {slots : List PeerSlot}
    {o o₁ : List HubOutput} (h : s.Announces interfaceId rate [i] o)
    (h' : (s.sent flags asked o₁).Announces interfaceId rate slots o') :
    s.Announces interfaceId rate (i :: slots) (o ++ o') := by
  intro peerId status
  have hi := h peerId status
  have hl := h' peerId status
  simp only [mem_append, exists_or, hi, hl, mem_cons, or_and_right, exists_eq_left,
    not_mem_nil, or_false]
  exact Iff.rfl

theorem relayPace_announces (interfaceId rate : UInt32) :
    ∀ (slots : List PeerSlot) (s : Broker), ∃ flags asked o,
      slots.foldl (relayPaceTo interfaceId rate) s = s.sent flags asked o ∧ s.Announces interfaceId rate slots o
  | [], s => ⟨fun j => (s.directory j).sendFailed, s.port.asked, [], by simp [sent], fun _ _ => by simp⟩
  | i :: slots, s => by
    obtain ⟨flags, asked, o, he, ho⟩ := s.relayPaceTo_announces interfaceId rate i
    obtain ⟨flags', asked', o', he', ho'⟩ := relayPace_announces interfaceId rate slots (s.sent flags asked o)
    refine ⟨flags', asked', o ++ o', ?_, ho.cons ho'⟩
    rw [foldl_cons, he, he']
    simp [sent, append_assoc]

variable {k : EntrySlot}

theorem announceLease_announces (h : s.registry.findById interfaceId = some k) :
    ∃ flags asked o, s.announceLease interfaceId = s.sent flags asked o
      ∧ s.Announces interfaceId (s.registry.entries k).shaper.rateBitsPerS (finRange peerDirectoryMax) o := by
  unfold announceLease
  rw [h]
  exact relayPace_announces interfaceId _ (finRange peerDirectoryMax) s

/-! ### Every channel, or one of each client -/

/-- Whoever has the interface open, but for the holder of the lease, is told for each of its channels whether the
table now has another as the holder: the client of an active exclusive transaction (`Sound.leaseHolder_iff`). -/
def Told (s s' : Broker) (interfaceId holder : UInt32) : Prop :=
  ∃ o, s'.port.log = s.port.log ++ o ∧ ∀ i j, (s'.directory i).inUse → (s'.directory i).role = .client →
    (s'.directory i).peerId ≠ holder → ((s'.directory i).session.bindings j).isLive →
    ((s'.directory i).session.bindings j).interfaceId = interfaceId →
    ∃ status taken, HubOutput.control (s'.directory i).peerId (.interfaceStatus status) taken ∈ o
      ∧ status.channel = ((s'.directory i).session.bindings j).channel
      ∧ (status.leased = true ↔
        ∃ other, s'.transactions.leaseHolder interfaceId = some other ∧ other ≠ (s'.directory i).peerId)

theorem leasedToAnother_iff (s : Broker) (interfaceId clientPeerId : UInt32) : s.leasedToAnother interfaceId clientPeerId
    ↔ ∃ other, s.transactions.leaseHolder interfaceId = some other ∧ other ≠ clientPeerId := by
  unfold leasedToAnother
  cases s.transactions.leaseHolder interfaceId <;> simp

/-- No client but the holder of the lease has two channels on the interface. -/
def OneChannelEach (s : Broker) (interfaceId holder : UInt32) : Prop :=
  ∀ i j k, (s.directory i).inUse → (s.directory i).role = .client → (s.directory i).peerId ≠ holder →
    ((s.directory i).session.bindings j).isLive → ((s.directory i).session.bindings j).interfaceId = interfaceId →
    ((s.directory i).session.bindings k).isLive → ((s.directory i).session.bindings k).interfaceId = interfaceId →
    ((s.directory i).session.bindings j).channel = ((s.directory i).session.bindings k).channel

/-- Once a status has gone to one channel of each client, all channels are told if there is no second one. -/
theorem told_iff (hd : DistinctPeers s') (hlog : s'.port.log = s.port.log ++ o)
    (ho : s'.Announces interfaceId rate (finRange peerDirectoryMax) o) :
    Told s s' interfaceId holder ↔ s'.OneChannelEach interfaceId holder := by
  constructor
  · rintro ⟨o', hlog', htold⟩ i j k huse hrole hne hj hj' hk hk'
    obtain rfl : o' = o := append_cancel_left (hlog'.symm.trans hlog)
    -- each of the two channels is the one of a status, and a client gets one status only
    have hfirst : ∀ n, ((s'.directory i).session.bindings n).isLive →
        ((s'.directory i).session.bindings n).interfaceId = interfaceId →
        (s'.directory i).session.channelForInterface interfaceId
          = some ((s'.directory i).session.bindings n).channel := by
      intro n hn hn'
      obtain ⟨status, taken, hmem, hchannel, _⟩ := htold i n huse hrole hne hn hn'
      obtain ⟨i', _, c, huse', _, hid, hc, rfl⟩ := (ho _ _).mp ⟨taken, hmem⟩
      cases hd i' i huse' huse hid
      rw [hc, ← hchannel]
    exact Option.some.inj ((hfirst j hj hj').symm.trans (hfirst k hk hk'))
  · intro hone
    refine ⟨o, hlog, fun i j huse hrole hne hj hj' => ?_⟩
    obtain ⟨n, hn⟩ := Table.exists_of_find? (t := (s'.directory i).session.bindings) (i := j)
      (p := fun b => b.isLive && b.interfaceId == interfaceId) (by simp [hj, hj'])
    have hn' := Table.find?_some hn
    simp only [Bool.and_eq_true, beq_iff_eq] at hn'
    have hc : (s'.directory i).session.channelForInterface interfaceId
        = some ((s'.directory i).session.bindings n).channel := by
      unfold ClientSession.channelForInterface
      rw [hn]
      rfl
    obtain ⟨taken, hmem⟩ := (ho (s'.directory i).peerId _).mpr ⟨i, mem_finRange i, _, huse, hrole, rfl, hc, rfl⟩
    exact ⟨_, taken, hmem, hone i n j huse hrole hne hn'.1 hn'.2 hj hj', s'.leasedToAnother_iff _ _⟩

/-! ### A lease that starts or ends -/

theorem sent_sent (flags flags' : PeerSlot → Bool) (asked asked' : ℕ) :
    (s.sent flags asked o).sent flags' asked' o' = s.sent flags' asked' (o ++ o') := by
  simp [sent, append_assoc]

theorem told_iff_sent (hd : DistinctPeers s₁)
    (hlog : s₁.port.log ++ o = s.port.log ++ o')
    (ho : s₁.Announces interfaceId rate (finRange peerDirectoryMax) o') :
    Told s (s₁.sent flags asked o) interfaceId holder ↔ s₁.OneChannelEach interfaceId holder := by
  have hd' : DistinctPeers (s₁.sent flags asked o) := hd
  have ho'' : (s₁.sent flags asked o).Announces interfaceId rate (finRange peerDirectoryMax) o' := ho
  exact told_iff hd' hlog ho''

/-- Other messages are no statuses. -/
theorem Announces.append {slots : List PeerSlot} (h : s.Announces interfaceId rate slots o)
    (ho' : ∀ peerId status taken, HubOutput.control peerId (.interfaceStatus status) taken ∉ o') :
    s.Announces interfaceId rate slots (o ++ o') ∧ s.Announces interfaceId rate slots (o' ++ o) := by
  constructor
  all_goals
    intro peerId status
    rw [← h peerId status]
    simp only [mem_append, ho', or_false, false_or]

/-- The ack makes an exclusive transaction of a client that is still there active. -/
@[mk_iff]
structure Grants (s : Broker) (i : PeerSlot) (ack : TxnBeginAckMessage) (t : TransactionSlot) : Prop where
  role : (s.directory i).role = .agent
  forAgent : s.transactions.forAgent (s.directory i).peerId = some t
  pending : (s.transactions.entries t).state = .pending
  ok : ack.status = TxnBeginStatus.ok.code
  client : (s.find (s.transactions.entries t).clientPeerId).isSome
  exclusive : (s.transactions.entries t).exclusive

instance (s : Broker) (i : PeerSlot) (ack : TxnBeginAckMessage) (t : TransactionSlot) : Decidable (s.Grants i ack t) :=
  decidable_of_iff' _ (grants_iff s i ack t)

theorem told_iff_of_grants (hd : DistinctPeers s) {ack : TxnBeginAckMessage} {t : TransactionSlot}
    (h : s.Grants i ack t)
    (hk : s.registry.findById (s.transactions.entries t).interfaceId = some k) :
    Told s (s.handleTxnBeginAck i ack) (s.transactions.entries t).interfaceId (s.transactions.entries t).clientPeerId
      ↔ s.OneChannelEach (s.transactions.entries t).interfaceId (s.transactions.entries t).clientPeerId := by
  obtain ⟨c, hc⟩ := Option.isSome_iff_exists.mp h.client
  unfold handleTxnBeginAck
  rw [if_neg (not_not.mpr h.role), h.forAgent]
  dsimp only
  rw [if_neg (not_not.mpr h.pending), if_neg (not_not.mpr h.ok), hc]
  dsimp only
  rw [if_pos h.exclusive]
  generalize hs₁ : ({ s with transactions := s.transactions.activate t ack.txnId } : Broker).countTransactions
    (fun c => { c with started := c.started + 1 }) = s₁
  have hk₁ : s₁.registry.findById (s.transactions.entries t).interfaceId = some k := by
    rw [← hs₁]
    exact hk
  obtain ⟨flags, asked, o, he, ho⟩ := announceLease_announces hk₁
  rw [he, sendControl_eq, sent_sent]
  have hd₁ : DistinctPeers s₁ := hs₁ ▸ hd
  have hlog : s₁.port.log = s.port.log := hs₁ ▸ rfl
  refine (told_iff_sent hd₁ (by rw [hlog]) (ho.append (by simp)).1).trans ?_
  subst hs₁
  exact Iff.rfl

theorem told_iff_of_finish (hd : DistinctPeers s) {t : TransactionSlot} (h : (s.transactions.entries t).holdsLease)
    (hk : s.registry.findById (s.transactions.entries t).interfaceId = some k) :
    Told s (s.finishTransaction t) (s.transactions.entries t).interfaceId (s.transactions.entries t).clientPeerId
      ↔ s.OneChannelEach (s.transactions.entries t).interfaceId (s.transactions.entries t).clientPeerId := by
  unfold finishTransaction
  rw [if_pos h]
  have hd' : DistinctPeers { s with transactions := s.transactions.close t } := hd
  obtain ⟨flags, asked, o, he, ho⟩ := announceLease_announces (s := { s with transactions := s.transactions.close t }) hk
  rw [he]
  exact (told_iff_sent hd' rfl ho).trans Iff.rfl

/-! ### An interface opened while it is leased -/

/-- The OPEN is answered with a channel. -/
def Opens (s : Broker) (i : PeerSlot) (m : OpenMessage) : Prop :=
  ∃ o channel taken, (s.handleOpen i m).port.log = s.port.log ++ o
    ∧ HubOutput.control (s.directory i).peerId (.openAck ⟨.ok, channel, m.interfaceId⟩) taken ∈ o

/-- Not the answer to an OPEN that gives a channel. -/
def NotOpened (x : HubOutput) : Prop := ∀ peerId ack taken, x = .control peerId (.openAck ack) taken → ack.status ≠ .ok

/-- Nothing that was said since is the answer to an OPEN that gives a channel. -/
def Refuses : Broker → Broker → Prop := Says NotOpened

theorem SendsOnly.refuses (h : SendsOnly NotOpened s s') : Refuses s s' := by
  obtain ⟨flags, asked, o, ho, _, rfl⟩ := h
  exact ⟨o, rfl, ho⟩

variable {m : OpenMessage}

theorem Refuses.not_opens (h : Refuses s (s.handleOpen i m)) : ¬ s.Opens i m := by
  obtain ⟨o, hlog, ho⟩ := h
  rintro ⟨o', channel, taken, hlog', hmem⟩
  obtain rfl : o' = o := append_cancel_left (hlog'.symm.trans hlog)
  exact ho _ hmem _ _ _ rfl rfl

theorem sendOpenAck_notOpened (s : Broker) (i : PeerSlot) (m : OpenMessage) (status : OpenStatus)
    (h : status ≠ .ok) (channel : UInt8) : SendsOnly NotOpened s (s.sendOpenAck i m status channel) :=
  s.sendControl_sendsOnly i _ fun taken p ack taken' he => by
    cases he
    exact h

theorem sendError_notOpened (s : Broker) (peerId : UInt32) (code : ErrorCode) (detail : String) :
    SendsOnly NotOpened s (s.sendError peerId code detail) :=
  s.ask_sends.trans (emit_sends _ fun _ _ _ h => by cases h)

/-- The state an OPEN leaves that is answered with a channel, before it is announced that the interface is leased. -/
structure OpensAs (s s₁ : Broker) (i : PeerSlot) (m : OpenMessage) (k : EntrySlot) : Prop where
  client : (s.directory i).role = .client
  entry : s.registry.findById m.interfaceId = some k
  registry : s₁.registry = s.registry
  transactions : s₁.transactions = s.transactions
  log : ∃ o, s₁.port.log = s.port.log ++ o ∧
    ∀ peerId status taken, HubOutput.control peerId (.interfaceStatus status) taken ∉ o
  others : ∀ n, n ≠ i → s₁.directory n = s.directory n
  peerId : (s₁.directory i).peerId = (s.directory i).peerId
  role : (s₁.directory i).role = (s.directory i).role
  inUse : (s₁.directory i).inUse = (s.directory i).inUse
  bindings : ∃ j c r, ((s.directory i).session.bindings j).inUse = false
    ∧ (∀ n, ((s.directory i).session.bindings n).inUse → ((s.directory i).session.bindings n).channel ≠ c)
    ∧ r.interfaceId = m.interfaceId
    ∧ (s₁.directory i).session.bindings = Function.update (s.directory i).session.bindings j
        (((s.directory i).session.bindings j).bind r c)
  done : s.handleOpen i m =
    if s₁.leasedToAnother (s.registry.entries k).interfaceId (s₁.directory i).peerId
    then s₁.announceLease (s.registry.entries k).interfaceId else s₁

theorem opened_eq (i : PeerSlot) (entry : InterfaceEntry) (session : ClientSession) (reliable : Bool) :
    s.opened i entry session reliable = { s.modifySession i fun _ => session with port := { s.port with
      log := s.port.log ++ if reliable then [.channelMode entry.agentPeerId entry.agentChannel true] else [] } } := by
  cases reliable with
  | false => simp [opened, modifySession, modifyPeer]
  | true => rfl

/-- What `openChannel` does, whatever was asked before. -/
theorem openChannel_cases {n : ℕ} {canWrite : Bool}
    (hrole : (s.directory i).role = .client) (hk : s.registry.findById m.interfaceId = some k)
    (h : s.handleOpen i m = (s.questioned n).openChannel i m (s.registry.entries k) canWrite) :
    Refuses s (s.handleOpen i m) ∨ ∃ s₁, OpensAs s s₁ i m k := by
  rw [openChannel_eq] at h
  have hcases := (s.directory i).session.openInterface_cases (m.request (s.registry.entries k) canWrite)
  rcases ho : (s.directory i).session.openInterface (m.request (s.registry.entries k) canWrite) with ⟨session, opened⟩
  have ho' : ((s.questioned n).directory i).session.openInterface (m.request (s.registry.entries k) canWrite) = _ := ho
  rw [ho'] at h
  rw [ho] at hcases
  cases opened with
  | none =>
    left
    rw [h]
    exact (sendOpenAck_notOpened ((s.questioned n).modifySession i fun _ => session) i m .rejected (by decide) 0).refuses
  | some channel =>
    obtain ⟨hc, _⟩ | ⟨j, c, _, hfree, hnew, hb⟩ := hcases
    · cases hc
    right
    dsimp only at h
    rw [opened_eq, sendOpenAck, sendControl_eq] at h
    refine ⟨_, ⟨hrole, hk, ?_, ?_, ?_, ?_, ?_, ?_, ?_, ⟨j, c, m.request (s.registry.entries k) canWrite, hfree, hnew,
      rfl, ?_⟩, h⟩⟩
    · rfl
    · rfl
    · refine ⟨_, append_assoc _ _ _, ?_⟩
      split <;> simp
    · intro n hn
      simp [questioned, sent, modifySession, modifyPeer, hn]
    · simp [questioned, sent, modifySession, modifyPeer]
    · simp [questioned, sent, modifySession, modifyPeer]
    · simp [questioned, sent, modifySession, modifyPeer]
    · simp only [questioned, sent, modifySession, modifyPeer, Function.update_self]
      exact hb

theorem handleOpen_cases (s : Broker) (i : PeerSlot) (m : OpenMessage) :
    Refuses s (s.handleOpen i m) ∨ ∃ s₁ k, OpensAs s s₁ i m k := by
  have hto := s.handleOpen_to (i := i) m
  generalize heq : s.handleOpen i m = s' at hto
  cases hto with
  | ignored => exact .inl (SendsOnly.refl s).refuses
  | refused n hstatus => exact .inl ((s.questioned n).sendOpenAck_notOpened i m _ hstatus 0).refuses
  | denied n hstatus =>
    exact .inl (((s.questioned n).sendOpenAck_notOpened i m _ hstatus 0).trans (sendError_notOpened _ _ _ _)).refuses
  | @channel s₁ n k canWrite hrole hk =>
    rw [← heq]
    exact (openChannel_cases hrole hk heq).imp_right fun ⟨s₃, h₃⟩ => ⟨s₃, k, h₃⟩

/-- The new channel is the opener's only one on the interface just when it had none before. -/
theorem OpensAs.oneChannelEach_iff (h : OpensAs s s₁ i m k)
    (hi : (s.directory i).inUse) (hne : (s.directory i).peerId ≠ holder) :
    s₁.OneChannelEach m.interfaceId holder ↔ s.OneChannelEach m.interfaceId holder
      ∧ (s.directory i).session.channelForInterface m.interfaceId = none := by
  obtain ⟨j₀, c, r, hfree, hnew, hid, hb⟩ := h.bindings
  have hsame : ∀ n, n ≠ j₀ → (s₁.directory i).session.bindings n = (s.directory i).session.bindings n := by
    intro n hn
    rw [hb, Function.update_of_ne hn]
  have hlive₀ : ((s₁.directory i).session.bindings j₀).isLive
      ∧ ((s₁.directory i).session.bindings j₀).interfaceId = m.interfaceId
      ∧ ((s₁.directory i).session.bindings j₀).channel = c := by
    rw [hb, Function.update_self]
    exact ⟨rfl, hid, rfl⟩
  have hold : ∀ n, ((s.directory i).session.bindings n).isLive → n ≠ j₀ := by
    rintro n hn rfl
    rw [ClientSession.inUse_of_isLive hn] at hfree
    cases hfree
  have hnone : (s.directory i).session.channelForInterface m.interfaceId = none ↔
      ∀ n, ((s.directory i).session.bindings n).isLive →
        ((s.directory i).session.bindings n).interfaceId ≠ m.interfaceId := by
    unfold ClientSession.channelForInterface
    rw [Option.map_eq_none_iff, Table.find?_eq_none]
    simp
  rw [hnone]
  constructor
  · intro hone
    refine ⟨fun n j l huse hr hp hj hj' hl hl' => ?_, fun n hn hn' => ?_⟩
    · by_cases hni : n = i
      · subst hni
        rw [← hsame j (hold j hj), ← hsame l (hold l hl)] at *
        exact hone n j l (h.inUse.trans huse) (h.role.trans hr) (h.peerId ▸ hp) hj hj' hl hl'
      · rw [← h.others n hni] at *
        exact hone n j l huse hr hp hj hj' hl hl'
    · -- the old channel would be the new one
      have hc := hone i n j₀ (h.inUse.trans hi) (h.role.trans h.client) (h.peerId ▸ hne)
        (by rwa [hsame n (hold n hn)]) (by rwa [hsame n (hold n hn)]) hlive₀.1 hlive₀.2.1
      rw [hlive₀.2.2, hsame n (hold n hn)] at hc
      exact hnew n (ClientSession.inUse_of_isLive hn) hc
  · rintro ⟨hone, hno⟩ n j l huse hr hp hj hj' hl hl'
    by_cases hni : n = i
    · subst hni
      have hnew : ∀ q, ((s₁.directory n).session.bindings q).isLive →
          ((s₁.directory n).session.bindings q).interfaceId = m.interfaceId → q = j₀ := by
        intro q hq hq'
        by_contra hqne
        rw [hsame q hqne] at hq hq'
        exact hno q hq hq'
      rw [hnew j hj hj', hnew l hl hl']
    · rw [h.others n hni] at *
      exact hone n j l huse hr hp hj hj' hl hl'

theorem OpensAs.distinct (h : OpensAs s s₁ i m k)
    (hd : DistinctPeers s) : DistinctPeers s₁ := by
  have hsame : ∀ n, (s₁.directory n).inUse = (s.directory n).inUse
      ∧ (s₁.directory n).peerId = (s.directory n).peerId := by
    intro n
    by_cases hn : n = i
    · subst hn
      exact ⟨h.inUse, h.peerId⟩
    · rw [h.others n hn]
      exact ⟨rfl, rfl⟩
  intro n l hn hl he
  exact hd n l ((hsame n).1 ▸ hn) ((hsame l).1 ▸ hl) ((hsame n).2 ▸ (hsame l).2 ▸ he)

theorem told_iff_of_opens (hd : DistinctPeers s) (hi : (s.directory i).inUse)
    (h : s.Opens i m) (hholder : s.transactions.leaseHolder m.interfaceId = some holder)
    (hne : (s.directory i).peerId ≠ holder) :
    Told s (s.handleOpen i m) m.interfaceId holder ↔ s.OneChannelEach m.interfaceId holder
      ∧ (s.directory i).session.channelForInterface m.interfaceId = none := by
  rcases s.handleOpen_cases i m with hrefused | ⟨s₁, k, hopen⟩
  · exact absurd h hrefused.not_opens
  have hid : (s.registry.entries k).interfaceId = m.interfaceId := (InterfaceRegistry.findById_some hopen.entry).2
  have hleased : s₁.leasedToAnother m.interfaceId (s₁.directory i).peerId := by
    rw [leasedToAnother_iff, hopen.transactions, hholder, hopen.peerId]
    exact ⟨holder, rfl, hne.symm⟩
  have hk : s₁.registry.findById m.interfaceId = some k := hopen.registry ▸ hopen.entry
  obtain ⟨o, hlog, hother⟩ := hopen.log
  obtain ⟨flags, asked, o', he, ho'⟩ := announceLease_announces hk
  rw [hopen.done, hid, if_pos hleased, he]
  refine (told_iff_sent (hopen.distinct hd) ?_ (ho'.append hother).2).trans (hopen.oneChannelEach_iff hi hne)
  rw [hlog, append_assoc]

/-! ### Who is told -/

/-- What the announcements rest on: peers have ids of their own, and the interface of a transaction is there. -/
structure Booked (s : Broker) : Prop where
  distinct : DistinctPeers s
  registered : ∀ t, (s.transactions.entries t).isInUse →
    (s.registry.findById (s.transactions.entries t).interfaceId).isSome

theorem Sound.booked (h : Sound s) : Booked s := by
  refine ⟨h.peers.distinct, fun t ht => ?_⟩
  obtain ⟨_, k, hk, hid, _⟩ := h.transactions.exported t ht
  exact Table.find?_isSome_iff.mpr ⟨k, by simp [hk, hid]⟩

/-- **Every channel is told of a lease just when no client has a second one on the interface**, be it that the lease
starts, that it ends or that the interface is opened meanwhile. -/
theorem lease_announced_iff (h : Booked s) :
    (∀ i ack t, s.Grants i ack t → let entry := s.transactions.entries t
      (Told s (s.handleTxnBeginAck i ack) entry.interfaceId entry.clientPeerId
        ↔ s.OneChannelEach entry.interfaceId entry.clientPeerId))
    ∧ (∀ t, (s.transactions.entries t).holdsLease → let entry := s.transactions.entries t
      (Told s (s.finishTransaction t) entry.interfaceId entry.clientPeerId
        ↔ s.OneChannelEach entry.interfaceId entry.clientPeerId))
    ∧ ∀ i m holder, (s.directory i).inUse → s.Opens i m → s.transactions.leaseHolder m.interfaceId = some holder →
      (s.directory i).peerId ≠ holder →
      (Told s (s.handleOpen i m) m.interfaceId holder ↔ s.OneChannelEach m.interfaceId holder
        ∧ (s.directory i).session.channelForInterface m.interfaceId = none) := by
  refine ⟨fun i ack t hg => ?_, fun t ht => ?_, fun i m holder hi ho hl hne => ?_⟩
  · have huse : (s.transactions.entries t).isInUse := by simp [RelayedTransaction.isInUse, hg.pending]
    obtain ⟨k, hk⟩ := Option.isSome_iff_exists.mp (h.registered t huse)
    exact told_iff_of_grants h.distinct hg hk
  · obtain ⟨k, hk⟩ := Option.isSome_iff_exists.mp (h.registered t (RelayedTransaction.isInUse_of_holdsLease ht))
    exact told_iff_of_finish h.distinct ht hk
  · exact told_iff_of_opens h.distinct hi ho hl hne

/-- Agent 2 has interface 1, on which clients 3 and 5 have a channel each; client 3 asks for a lease. -/
def leaseAsked : List HubTurn :=
  agentJoins 2 (registersOne 1 2) ++ clientJoins 3 1 ++ clientJoins 5 1
    ++ [{ event := .control 3 (.txnBegin { channel := 0, flags := txnBeginFlagExclusive }) 0 }]

set_option maxRecDepth 100000 in
/-- When the agent grants the lease, client 5 is told. -/
theorem lease_announced_five : (small.run leaseAsked).Grants 0 ⟨0, 0, 1, 1000⟩ 0
    ∧ Told (small.run leaseAsked) ((small.run leaseAsked).handleTxnBeginAck 0 ⟨0, 0, 1, 1000⟩) 1 3 := by
  have hsound : Sound (small.run leaseAsked) := (Sound.init _ _ _ _).run (by decide +kernel)
  have hgrants : (small.run leaseAsked).Grants 0 ⟨0, 0, 1, 1000⟩ 0 := by decide +kernel
  have hentry : ((small.run leaseAsked).transactions.entries 0).interfaceId = 1
      ∧ ((small.run leaseAsked).transactions.entries 0).clientPeerId = 3 := by decide +kernel
  have hfirst : ∀ i, ((small.run leaseAsked).directory i).inUse → i = 0 ∨ i = 1 ∨ i = 2 := by decide +kernel
  have hbinding : ∀ j, (((small.run leaseAsked).directory 0).session.bindings j).isLive = false
      ∧ ((((small.run leaseAsked).directory 1).session.bindings j).isLive → j = 0)
      ∧ ((((small.run leaseAsked).directory 2).session.bindings j).isLive → j = 0) := by decide +kernel
  have hone : (small.run leaseAsked).OneChannelEach 1 3 := by
    intro i j k hi _ _ hj _ hk _
    rcases hfirst i hi with rfl | rfl | rfl
    · rw [(hbinding j).1] at hj
      cases hj
    · rw [(hbinding j).2.1 hj, (hbinding k).2.1 hk]
    · rw [(hbinding j).2.2 hj, (hbinding k).2.2 hk]
  have htold := (lease_announced_iff hsound.booked).1 0 ⟨0, 0, 1, 1000⟩ 0 hgrants
  dsimp only at htold
  rw [hentry.1, hentry.2] at htold
  exact ⟨hgrants, htold.mpr hone⟩

/-- As in `leaseAsked`, with a second channel of client 5. -/
def leaseAskedTwice : List HubTurn :=
  agentJoins 2 (registersOne 1 2) ++ clientJoins 3 1 ++ clientJoins 5 1
    ++ [{ event := .control 5 (.openInterface { interfaceId := 1, flags := 6 }) 0 },
        { event := .control 3 (.txnBegin { channel := 0, flags := txnBeginFlagExclusive }) 0 }]

set_option maxRecDepth 100000 in
/-- **A second channel is not told**: the lease starts and client 5 hears of it for channel 0 only, but its frames on
channel 1 are dropped too. -/
theorem second_channel_untold :
    let s := small.run leaseAskedTwice
    let s' := s.handleTxnBeginAck 0 ⟨0, 0, 1, 1000⟩
    Sound s ∧ s.Grants 0 ⟨0, 0, 1, 1000⟩ 0 ∧ ¬ Told s s' 1 3
      ∧ (s'.routeFrame 2 ⟨0x100, 0, 1, 0, 0, []⟩).1.metrics.transactions.leaseFrameDrops = 1 := by
  intro s s'
  have hlog : s'.port.log = s.port.log ++ [.control 3 (.interfaceStatus { channel := 0 }) true,
      .control 5 (.interfaceStatus { channel := 0, leased := true }) true,
      .control 3 (.txnBeginAck ⟨0, 0, 1, 1000⟩) true] := by decide +kernel
  refine ⟨(Sound.init _ _ _ _).run (by decide +kernel), by decide +kernel, ?_, by decide +kernel⟩
  rintro ⟨o, ho, htold⟩
  have hsecond : (s'.directory 2).inUse ∧ (s'.directory 2).role = .client ∧ (s'.directory 2).peerId = 5
      ∧ ((s'.directory 2).session.bindings 1).isLive ∧ ((s'.directory 2).session.bindings 1).interfaceId = 1
      ∧ ((s'.directory 2).session.bindings 1).channel = 1 := by decide +kernel
  obtain ⟨huse, hrole, hpeer, hlive, hid, hchannel⟩ := hsecond
  obtain ⟨status, taken, hmem, hc, _⟩ := htold 2 1 huse hrole (by rw [hpeer]; decide) hlive hid
  rw [hlog] at ho
  rw [← append_cancel_left ho, hpeer] at hmem
  have hstatus : status = { channel := 0, leased := true } ∧ taken = true := by simpa using hmem
  rw [hchannel, hstatus.1] at hc
  cases hc

end Broker
end CanHub
