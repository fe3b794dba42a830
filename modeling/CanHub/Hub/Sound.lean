/-
# The books of the hub agree

The peers, the interface catalogue and the transaction table name each other: an
entry names its agent, a transaction its agent, its client, the client's channel and
the interface. `Sound` says that the names lead somewhere: ids are distinct, every
agent's interface has its agent, every transaction has the interface's agent and,
unless the client left it while it was pending, a client with a live channel on that
interface.

Every change of the books keeps it (`Sound.move`, `Sound.leave`), and so does every
event as long as interface ids have not wrapped around (`Sound.step`).
-/
import CanHub.Hub.Events
import CanHub.Lib.Run

namespace CanHub

open InterfaceRegistry RelayedTransaction TransactionTable InterfaceEntry ClientSession
namespace Broker

/-! ### The invariant -/

/-- The peer with the id is there in the role. -/
def Present (s : Broker) (role : HubPeerRole) (peerId : UInt32) : Prop :=
  ∃ i, (s.directory i).inUse ∧ (s.directory i).role = role ∧ (s.directory i).peerId = peerId

/-- The peer is the transaction's client, with the channel live on the interface. -/
def Binds (p : HubPeer) (t : RelayedTransaction) : Prop :=
  p.inUse ∧ p.role = .client ∧ p.peerId = t.clientPeerId
    ∧ ∃ j, (p.session.bindings j).isLive ∧ (p.session.bindings j).channel = t.clientChannel
      ∧ (p.session.bindings j).interfaceId = t.interfaceId

def Holds (s : Broker) (t : RelayedTransaction) : Prop := ∃ i, Binds (s.directory i) t

/-- The transaction's agent exports the interface on a channel of its own. -/
def Exported (s : Broker) (t : RelayedTransaction) : Prop :=
  ∃ k, (s.registry.entries k).inUse ∧ (s.registry.entries k).interfaceId = t.interfaceId
    ∧ (s.registry.entries k).agentPeerId = t.agentPeerId ∧ (s.registry.entries k).agentChannel = t.agentChannel

structure SoundPeers (s : Broker) : Prop where
  distinct : DistinctPeers s
  named : ∀ i, (s.directory i).inUse → (s.directory i).peerId ≠ 0
  channels : ∀ i, (s.directory i).session.ChannelsDistinct

structure SoundRegistry (s : Broker) : Prop where
  distinct : ∀ k l, (s.registry.entries k).inUse → (s.registry.entries l).inUse →
    (s.registry.entries k).interfaceId = (s.registry.entries l).interfaceId → k = l
  assigned : ∀ k, (s.registry.entries k).inUse → (s.registry.entries k).interfaceId < s.registry.nextInterfaceId
  owned : ∀ k, (s.registry.entries k).inUse → (s.registry.entries k).isVirtual = false →
    Present s .agent (s.registry.entries k).agentPeerId
  groups : ∀ k, (s.registry.entries k).inUse → (s.registry.entries k).agentName = bridgeGroupAgentName →
    (s.registry.entries k).isVirtual
  served : ∀ k l, (s.registry.entries k).inUse → (s.registry.entries l).inUse →
    (s.registry.entries k).isVirtual = false →
    (s.registry.entries k).agentPeerId = (s.registry.entries l).agentPeerId →
    (s.registry.entries k).agentChannel = (s.registry.entries l).agentChannel → k = l

structure SoundTransactions (s : Broker) : Prop where
  agents : ∀ t u, (s.transactions.entries t).isInUse → (s.transactions.entries u).isInUse →
    (s.transactions.entries t).agentPeerId = (s.transactions.entries u).agentPeerId → t = u
  exported : ∀ t, (s.transactions.entries t).isInUse → (s.transactions.entries t).agentPeerId ≠ 0
    ∧ Exported s (s.transactions.entries t)
  held : ∀ t, (s.transactions.entries t).isInUse → (s.transactions.entries t).clientPeerId ≠ 0 →
    Holds s (s.transactions.entries t)
  granted : ∀ t, (s.transactions.entries t).state = .active → (s.transactions.entries t).clientPeerId ≠ 0
  counted : s.transactions.Counted

/-- **The books agree.** -/
structure Sound (s : Broker) : Prop where
  peers : SoundPeers s
  registry : SoundRegistry s
  transactions : SoundTransactions s

variable {s s' : Broker} {P : Broker → Act → Prop}

/-! ### Peers found by their ids -/

variable {i : PeerSlot} {interfaceId : UInt32}

/-- With distinct ids, the search finds the peer. -/
theorem DistinctPeers.find_eq (h : DistinctPeers s) (hi : (s.directory i).inUse) :
    s.find (s.directory i).peerId = some i := by
  refine Table.find?_unique ?_ fun j hj => ?_
  · simp [hi]
  · simp only [Bool.and_eq_true, beq_iff_eq] at hj
    exact h j i hj.1 hi hj.2

/-- Two transactions with one interface are one: the interface has one entry, so one agent. -/
theorem Sound.interface_unique (h : Sound s) {t u : TransactionSlot} (ht : (s.transactions.entries t).isInUse)
    (hu : (s.transactions.entries u).isInUse)
    (hid : (s.transactions.entries t).interfaceId = (s.transactions.entries u).interfaceId) : t = u := by
  obtain ⟨_, k, hk, hkid, hkagent, _⟩ := h.transactions.exported t ht
  obtain ⟨_, l, hl, hlid, hlagent, _⟩ := h.transactions.exported u hu
  have hkl : k = l := h.registry.distinct k l hk hl (by rw [hkid, hlid, hid])
  subst hkl
  exact h.transactions.agents t u ht hu (by rw [← hkagent, ← hlagent])

/-- The holder of a lease is the client of an active exclusive transaction. -/
theorem Sound.leaseHolder_iff (h : Sound s) {clientPeerId : UInt32} :
    s.transactions.leaseHolder interfaceId = some clientPeerId ↔ ∃ t, (s.transactions.entries t).holdsLease
      ∧ (s.transactions.entries t).interfaceId = interfaceId ∧ (s.transactions.entries t).clientPeerId = clientPeerId := by
  rw [h.transactions.counted.leaseHolder_eq]
  constructor
  · intro hholder
    obtain ⟨t, hfind, hclient⟩ := Option.map_eq_some_iff.mp hholder
    have ht := Table.find?_some hfind
    rw [Bool.and_eq_true, beq_iff_eq] at ht
    exact ⟨t, ht.1, ht.2, hclient⟩
  · rintro ⟨t, ht, rfl, rfl⟩
    refine Option.map_eq_some_iff.mpr ⟨t, Table.find?_unique (by simp [ht]) fun u hu => ?_, rfl⟩
    rw [Bool.and_eq_true, beq_iff_eq] at hu
    exact h.interface_unique (isInUse_of_holdsLease hu.1) (isInUse_of_holdsLease ht) hu.2

/-- Two transactions of one client's channel are one: one binding, so one interface. -/
theorem Sound.channel_unique (h : Sound s) {t u : TransactionSlot} (ht : (s.transactions.entries t).isInUse)
    (hu : (s.transactions.entries u).isInUse) (hc : (s.transactions.entries t).clientPeerId ≠ 0)
    (hclient : (s.transactions.entries t).clientPeerId = (s.transactions.entries u).clientPeerId)
    (hchannel : (s.transactions.entries t).clientChannel = (s.transactions.entries u).clientChannel) : t = u := by
  obtain ⟨i, hi, _, hid, j, hlive, hch, hiface⟩ := h.transactions.held t ht hc
  obtain ⟨i', hi', _, hid', j', hlive', hch', hiface'⟩ := h.transactions.held u hu (hclient ▸ hc)
  have hii : i = i' := h.peers.distinct i i' hi hi' (by rw [hid, hid', hclient])
  subst hii
  have hjj : j = j' := h.peers.channels i j j' (inUse_of_isLive hlive)
    (inUse_of_isLive hlive') (by rw [hch, hch', hchannel])
  subst hjj
  exact h.interface_unique ht hu (hiface.symm.trans hiface')

/-! ### Changes the books do not record -/

theorem Present.like (h : Like s s') {role : HubPeerRole} {peerId : UInt32} (hp : Present s role peerId) :
    Present s' role peerId := by
  obtain ⟨i, hi, hrole, hid⟩ := hp
  exact ⟨i, (h.peers i).inUse.trans hi, (h.peers i).role.trans hrole, (h.peers i).peerId.trans hid⟩

variable {channel : UInt8} {table : TransactionTable}

theorem Holds.like (h : Like s s') {t : RelayedTransaction} (hh : Holds s t) : Holds s' t := by
  obtain ⟨i, hi, hrole, hid, j, hlive, hch, hiface⟩ := hh
  obtain ⟨huse, hdormant, _, _, hiface', hch', _⟩ := ChannelBinding.of_face ((h.peers i).bindings j)
  refine ⟨i, (h.peers i).inUse.trans hi, (h.peers i).role.trans hrole, (h.peers i).peerId.trans hid, j, ?_,
    hch'.trans hch, hiface'.trans hiface⟩
  rw [ChannelBinding.isLive, huse, hdormant]
  exact hlive

theorem Exported.like (h : Like s s') {t : RelayedTransaction} (he : Exported s t) : Exported s' t := by
  obtain ⟨k, hk, hid, hagent, hch⟩ := he
  obtain ⟨huse, hid', hagent', hch', _⟩ := of_face (h.registry.entries k)
  exact ⟨k, huse.trans hk, hid'.trans hid, hagent'.trans hagent, hch'.trans hch⟩

/-- Peers may go, and keep their ids while they are there. -/
theorem SoundPeers.shrink (h : SoundPeers s)
    (hkept : ∀ i, (s'.directory i).inUse → (s.directory i).inUse ∧ (s'.directory i).peerId = (s.directory i).peerId)
    (hchannels : ∀ i, (s'.directory i).session.ChannelsDistinct) : SoundPeers s' where
  distinct := fun i j hi hj hid => by
    rw [(hkept i hi).2, (hkept j hj).2] at hid
    exact h.distinct i j (hkept i hi).1 (hkept j hj).1 hid
  named := fun i hi => by
    rw [(hkept i hi).2]
    exact h.named i (hkept i hi).1
  channels := hchannels

/-- Interfaces may go, and keep their faces while they are there. -/
theorem SoundRegistry.shrink (h : SoundRegistry s)
    (hkept : ∀ k, (s'.registry.entries k).inUse → (s'.registry.entries k).face = (s.registry.entries k).face)
    (hnext : s'.registry.nextInterfaceId = s.registry.nextInterfaceId)
    (hpresent : ∀ k, (s.registry.entries k).inUse → Present s .agent (s.registry.entries k).agentPeerId →
      Present s' .agent (s.registry.entries k).agentPeerId) : SoundRegistry s' where
  distinct := fun k l hk hl hid => by
    obtain ⟨huse, hid', _⟩ := of_face (hkept k hk)
    obtain ⟨huse', hid'', _⟩ := of_face (hkept l hl)
    rw [hid', hid''] at hid
    exact h.distinct k l (huse ▸ hk) (huse' ▸ hl) hid
  assigned := fun k hk => by
    obtain ⟨huse, hid, _⟩ := of_face (hkept k hk)
    rw [hid, hnext]
    exact h.assigned k (huse ▸ hk)
  owned := fun k hk hv => by
    obtain ⟨huse, _, hagent, _⟩ := of_face (hkept k hk)
    rw [isVirtual, hagent] at hv
    rw [hagent]
    exact hpresent k (huse ▸ hk) (h.owned k (huse ▸ hk) hv)
  groups := fun k hk hname => by
    obtain ⟨huse, _, hagent, _, hname', _⟩ := of_face (hkept k hk)
    rw [hname'] at hname
    rw [isVirtual, hagent]
    exact h.groups k (huse ▸ hk) hname
  served := fun k l hk hl hv ha hc => by
    obtain ⟨huse, _, hagent, hchannel, _⟩ := of_face (hkept k hk)
    obtain ⟨huse', _, hagent', hchannel', _⟩ := of_face (hkept l hl)
    rw [isVirtual, hagent] at hv
    rw [hagent, hagent'] at ha
    rw [hchannel, hchannel'] at hc
    exact h.served k l (huse ▸ hk) (huse' ▸ hl) hv ha hc

/-- A transaction keeps its parties, or loses its client. -/
structure Kept (t t' : RelayedTransaction) : Prop where
  isInUse : t.isInUse
  interfaceId : t'.interfaceId = t.interfaceId
  agentPeerId : t'.agentPeerId = t.agentPeerId
  agentChannel : t'.agentChannel = t.agentChannel
  clientChannel : t'.clientChannel = t.clientChannel
  clientPeerId : t'.clientPeerId = t.clientPeerId ∨ t'.clientPeerId = 0

theorem Kept.refl {t : RelayedTransaction} (h : t.isInUse) : Kept t t := ⟨h, rfl, rfl, rfl, rfl, .inl rfl⟩

theorem Kept.of_face {t t' : RelayedTransaction} (h : t'.face = t.face) (ht : t'.isInUse) : Kept t t' := by
  obtain ⟨hstate, _, hiface, hagent, hch, hclient, hch'⟩ := RelayedTransaction.of_face h
  rw [RelayedTransaction.isInUse, hstate] at ht
  exact ⟨ht, hiface, hagent, hch, hch', .inl hclient⟩

/-- Transactions may end, and lose their clients while they are pending. -/
theorem SoundTransactions.shrink (h : SoundTransactions s) (hcounted : s'.transactions.Counted)
    (hkept : ∀ t, (s'.transactions.entries t).isInUse → Kept (s.transactions.entries t) (s'.transactions.entries t))
    (hgranted : ∀ t, (s'.transactions.entries t).state = .active → (s'.transactions.entries t).clientPeerId ≠ 0)
    (hexported : ∀ t, (s.transactions.entries t).isInUse →
      Exported s (s.transactions.entries t) → Exported s' (s.transactions.entries t))
    (hheld : ∀ t, (s.transactions.entries t).isInUse → (s.transactions.entries t).clientPeerId ≠ 0 →
      Holds s (s.transactions.entries t) → Holds s' (s.transactions.entries t)) : SoundTransactions s' where
  agents := fun t u ht hu hagent => by
    have hkt := hkept t ht
    have hku := hkept u hu
    rw [hkt.agentPeerId, hku.agentPeerId] at hagent
    exact h.agents t u hkt.isInUse hku.isInUse hagent
  exported := fun t ht => by
    have hkt := hkept t ht
    obtain ⟨hne, hexp⟩ := h.exported t hkt.isInUse
    unfold Exported
    rw [hkt.agentPeerId, hkt.interfaceId, hkt.agentChannel]
    exact ⟨hne, hexported t hkt.isInUse hexp⟩
  held := fun t ht hc => by
    have hkt := hkept t ht
    have hclient := hkt.clientPeerId.resolve_right hc
    rw [hclient] at hc
    have hhold := hheld t hkt.isInUse hc (h.held t hkt.isInUse hc)
    unfold Holds Binds
    rw [hclient, hkt.clientChannel, hkt.interfaceId]
    exact hhold
  granted := hgranted
  counted := hcounted

/-- Entries with the same faces count the same leases. -/
theorem counted_of_faces {s s' : TransactionTable} (h : s.Counted)
    (hface : ∀ t, (s'.entries t).face = (s.entries t).face) (hleases : s'.activeLeases = s.activeLeases) :
    s'.Counted := by
  unfold TransactionTable.Counted at h ⊢
  rw [hleases, h]
  refine Table.count_congr fun t => ?_
  obtain ⟨hstate, hexcl, _⟩ := of_face (hface t)
  rw [holdsLease, holdsLease, hstate, hexcl]

theorem Sound.like (h : Sound s) (ha : Like s s') : Sound s' := by
  refine ⟨h.peers.shrink (fun i hi => ?_) fun i j k hj hk hch => ?_,
    h.registry.shrink (fun k _ => ha.registry.entries k) ha.registry.nextInterfaceId fun _ _ hp => hp.like ha,
    h.transactions.shrink (counted_of_faces h.transactions.counted ha.transactions ha.activeLeases)
      (fun t ht => .of_face (ha.transactions t) ht) (fun t ht => ?_) (fun _ _ he => he.like ha)
      fun _ _ _ hh => hh.like ha⟩
  · rw [(ha.peers i).inUse] at hi
    exact ⟨hi, (ha.peers i).peerId⟩
  · obtain ⟨huse, _, _, _, _, hch', _⟩ := ChannelBinding.of_face ((ha.peers i).bindings j)
    obtain ⟨huse', _, _, _, _, hch'', _⟩ := ChannelBinding.of_face ((ha.peers i).bindings k)
    rw [huse] at hj
    rw [huse'] at hk
    rw [hch', hch''] at hch
    exact h.peers.channels i j k hj hk hch
  · obtain ⟨hstate, _, _, _, _, hclient, _⟩ := of_face (ha.transactions t)
    rw [hstate] at ht
    rw [hclient]
    exact h.transactions.granted t ht

theorem Sound.alike (h : Sound s) (ha : Alike s s') : Sound s' := h.like ha.like

/-! ### Transactions -/

/-- A change of the transactions alone. -/
theorem Sound.of_transactions (h : Sound s) (hd : s'.directory = s.directory) (hr : s'.registry = s.registry)
    (ht : SoundTransactions s') : Sound s' := by
  refine ⟨h.peers.shrink (fun i hi => ?_) (by rw [hd]; exact h.peers.channels),
    h.registry.shrink (fun _ _ => by rw [hr]) (by rw [hr]) fun k _ hp => ?_, ht⟩
  · rw [hd] at hi ⊢
    exact ⟨hi, rfl⟩
  · unfold Present at hp ⊢
    rwa [hd]

/-- What clearing an entry leaves in use. -/
theorem kept_of_close {t u : TransactionSlot} (hu : ((table.close t).entries u).isInUse) :
    u ≠ t ∧ (table.close t).entries u = table.entries u := by
  have hut : u ≠ t := by
    rintro rfl
    simp [isInUse] at hu
  exact ⟨hut, by rw [close_entries, modify_entries_of_ne _ hut]⟩

variable {t : TransactionSlot}

section

variable (h : Sound s)
include h

/-- A change of one transaction that keeps its parties, or ends it. -/
theorem Sound.of_entry (hold : ∀ u, u ≠ t → table.entries u = s.transactions.entries u)
    (hcounted : table.Counted) (hkept : (table.entries t).isInUse → Kept (s.transactions.entries t) (table.entries t))
    (hgranted : (table.entries t).state = .active → (table.entries t).clientPeerId ≠ 0) (metrics : HubMetrics) :
    Sound { s with transactions := table, metrics } := by
  refine h.of_transactions rfl rfl (h.transactions.shrink hcounted (fun u hu => ?_) (fun u hu => ?_)
    (fun _ _ he => he) (fun _ _ _ hh => hh))
  · by_cases hut : u = t
    · subst hut
      exact hkept hu
    · dsimp only at hu ⊢
      rw [hold u hut] at hu ⊢
      exact .refl hu
  · by_cases hut : u = t
    · subst hut
      exact hgranted hu
    · dsimp only at hu ⊢
      rw [hold u hut] at hu ⊢
      exact h.transactions.granted u hu

/-- Clearing an entry. -/
theorem Sound.close (t : TransactionSlot) (metrics : HubMetrics) :
    Sound { s with transactions := s.transactions.close t, metrics } :=
  h.of_entry (fun u hu => by rw [close_entries, modify_entries_of_ne _ hu]) h.transactions.counted.close
    (fun hu => absurd rfl (kept_of_close hu).1) (fun hu => absurd rfl (kept_of_close (isInUse_of_active hu)).1) metrics

theorem Sound.requested {request : RelayedTransaction}
    (hreq : Requested s request) (ht : s.transactions.openEntry request = some (table, t)) :
    Sound { s with transactions := table } := by
  obtain ⟨hagent, hfree, rfl⟩ := openEntry_some ht
  obtain ⟨i, hi, hrole, hid, hiface, _⟩ := hreq.client
  obtain ⟨k, hk, hkagent, hkch, hv⟩ := hreq.interface
  obtain ⟨hkuse, hkid⟩ := findById_some hk
  have hold : ∀ u, u ≠ t → ((s.transactions.modify t fun _ => { request with state := .pending }).entries u)
      = s.transactions.entries u := fun u hu => modify_entries_of_ne _ hu
  refine h.of_transactions rfl rfl ⟨fun u v hu hv' he => ?_, fun u hu => ?_, fun u hu hc => ?_, fun u hu => ?_, ?_⟩
  · -- The agent of the new entry had none.
    refine Table.unrelated_of_ne (R := fun a b => a.agentPeerId = b.agentPeerId) (fun _ _ => Eq.symm) hold
      h.transactions.agents (fun _ u _ hu => ?_) u v hu hv' he
    rw [modify_entries_self]
    exact forAgent_none hagent hu
  · dsimp only at hu ⊢
    by_cases hut : u = t
    · subst hut
      rw [modify_entries_self]
      refine ⟨?_, k, hkuse, hkid, hkagent, hkch⟩
      rw [← hkagent]
      exact of_decide_eq_false hv
    · rw [hold u hut] at hu ⊢
      exact h.transactions.exported u hu
  · dsimp only at hu hc ⊢
    by_cases hut : u = t
    · subst hut
      rw [modify_entries_self]
      obtain ⟨j, hlive, hch, hj⟩ := interfaceForChannel_some hiface
      exact ⟨i, hi, hrole, hid, j, hlive, hch, hj⟩
    · rw [hold u hut] at hu hc ⊢
      exact h.transactions.held u hu hc
  · dsimp only at hu ⊢
    by_cases hut : u = t
    · subst hut
      rw [modify_entries_self] at hu
      cases hu
    · rw [hold u hut] at hu ⊢
      exact h.transactions.granted u hu
  · refine h.transactions.counted.modify ?_
    have hstate : (s.transactions.entries t).state = .free := by simpa [isInUse] using hfree
    simp [holdsLease, hstate]

theorem Sound.activate (txnId : UInt16)
    (hp : (s.transactions.entries t).state = .pending)
    (hc : (s.find (s.transactions.entries t).clientPeerId).isSome) (metrics : HubMetrics) :
    Sound { s with transactions := s.transactions.activate t txnId, metrics } := by
  have hself : (s.transactions.activate t txnId).entries t = { s.transactions.entries t with state := .active, txnId } := by
    simp
  refine h.of_entry (fun u hu => by rw [activate_entries, modify_entries_of_ne _ hu])
    (h.transactions.counted.activate hp txnId) (fun _ => ?_) (fun _ => ?_) metrics
  · rw [hself]
    exact ⟨by simp [isInUse, hp], rfl, rfl, rfl, rfl, .inl rfl⟩
  · -- The client was found, so it has an id.
    rw [hself]
    obtain ⟨i, hi⟩ := Option.isSome_iff_exists.mp hc
    obtain ⟨huse, hid⟩ := PeerDirectory.find_some hi
    rw [← hid]
    exact h.peers.named i huse

theorem Sound.orphan (hp : (s.transactions.entries t).state = .pending) :
    Sound (s.modifyTransaction t fun t => { t with clientPeerId := transactionNoClient }) := by
  have hself : (s.transactions.modify t fun t => { t with clientPeerId := transactionNoClient }).entries t
      = { s.transactions.entries t with clientPeerId := transactionNoClient } := by simp
  refine h.of_entry (fun u hu => modify_entries_of_ne _ hu) (h.transactions.counted.modify rfl) (fun hu => ?_)
    (fun hu => ?_) s.metrics
  · rw [hself] at hu ⊢
    exact ⟨hu, rfl, rfl, rfl, rfl, .inr rfl⟩
  · rw [hself, hp] at hu
    cases hu

/-! ### Peers and their channels -/

/-- A change of the peers alone. -/
theorem Sound.of_directory (hp : SoundPeers s') (hr : s'.registry = s.registry)
    (ht : s'.transactions = s.transactions) (hpresent : ∀ k, (s.registry.entries k).inUse →
      Present s .agent (s.registry.entries k).agentPeerId → Present s' .agent (s.registry.entries k).agentPeerId)
    (hholds : ∀ t, (s.transactions.entries t).isInUse → (s.transactions.entries t).clientPeerId ≠ 0 →
      Holds s (s.transactions.entries t) → Holds s' (s.transactions.entries t)) : Sound s' := by
  refine ⟨hp, h.registry.shrink (fun _ _ => by rw [hr]) (by rw [hr]) hpresent,
    h.transactions.shrink ?_ ?_ ?_ ?_ hholds⟩
  · rw [ht]
    exact h.transactions.counted
  · rw [ht]
    exact fun t => .refl
  · rw [ht]
    exact h.transactions.granted
  · intro t _ he
    unfold Exported
    rw [hr]
    exact he

/-- A change of one peer that takes nobody's id and keeps what interfaces and transactions rest on. -/
theorem Sound.of_slot {f : HubPeer → HubPeer} {p : HubPeer} (hp : f (s.directory i) = p)
    (hid : p.inUse → p.peerId ≠ 0 ∧ ∀ j, j ≠ i → (s.directory j).inUse → (s.directory j).peerId ≠ p.peerId)
    (hchannels : p.session.ChannelsDistinct)
    (hagent : ∀ k, (s.registry.entries k).inUse → (s.directory i).inUse → (s.directory i).role = .agent →
      (s.directory i).peerId = (s.registry.entries k).agentPeerId →
      p.inUse ∧ p.role = .agent ∧ p.peerId = (s.registry.entries k).agentPeerId)
    (hclient : ∀ t, (s.transactions.entries t).isInUse → (s.transactions.entries t).clientPeerId ≠ 0 →
      Binds (s.directory i) (s.transactions.entries t) → Binds p (s.transactions.entries t)) :
    Sound (s.modifyPeer i f) := by
  have hself : (s.modifyPeer i f).directory i = p := (modifyPeer_directory_self _).trans hp
  have hold : ∀ j, j ≠ i → (s.modifyPeer i f).directory j = s.directory j := fun j => modifyPeer_directory_of_ne _
  refine h.of_directory ⟨?_, fun j hj => ?_, fun j => ?_⟩ rfl rfl ?_ ?_
  · refine Table.unrelated_of_ne (p := HubPeer.inUse) (R := fun a b => a.peerId = b.peerId) (fun _ _ => Eq.symm) hold
      h.peers.distinct fun hi => ?_
    rw [hself] at hi ⊢
    exact (hid hi).2
  · by_cases hji : j = i
    · rw [hji, hself] at hj ⊢
      exact (hid hj).1
    · rw [hold j hji] at hj ⊢
      exact h.peers.named j hj
  · by_cases hji : j = i
    · rw [hji, hself]
      exact hchannels
    · rw [hold j hji]
      exact h.peers.channels j
  · rintro k hk ⟨j, hj⟩
    refine ⟨j, ?_⟩
    by_cases hji : j = i
    · subst hji
      rw [hself]
      exact hagent k hk hj.1 hj.2.1 hj.2.2
    · rwa [hold j hji]
  · rintro t ht hc ⟨j, hj⟩
    refine ⟨j, ?_⟩
    by_cases hji : j = i
    · subst hji
      rw [hself]
      exact hclient t ht hc hj
    · rwa [hold j hji]

end

theorem SoundPeers.apart (h : SoundPeers s) (hi : (s.directory i).inUse) : (s.directory i).peerId ≠ 0
    ∧ ∀ j, j ≠ i → (s.directory j).inUse → (s.directory j).peerId ≠ (s.directory i).peerId :=
  ⟨h.named i hi, fun j hj hju he => hj (h.distinct j i hju hi he)⟩

theorem Sound.adopted (h : Sound s) (role : HubPeerRole) (hi : (s.directory i).role = .unknown) :
    Sound (s.modifyPeer i fun p => { p with role }) := by
  refine h.of_slot rfl h.peers.apart (h.peers.channels i) (fun _ _ _ hrole _ => ?_) fun _ _ _ hb => ?_
  · cases hi.symm.trans hrole
  · cases hi.symm.trans hb.2.1

/-- A change of one client's session that keeps the channels of its transactions. -/
theorem Sound.session (h : Sound s) {session : ClientSession} (hd : session.ChannelsDistinct)
    (hkeep : ∀ t j, (s.directory i).inUse → (s.transactions.entries t).isInUse →
      (s.transactions.entries t).clientPeerId = (s.directory i).peerId →
      ((s.directory i).session.bindings j).isLive →
      ((s.directory i).session.bindings j).channel = (s.transactions.entries t).clientChannel →
      (session.bindings j).isLive ∧ (session.bindings j).channel = ((s.directory i).session.bindings j).channel
        ∧ (session.bindings j).interfaceId = ((s.directory i).session.bindings j).interfaceId) :
    Sound (s.modifySession i fun _ => session) := by
  refine h.of_slot rfl h.peers.apart hd (fun _ _ hi hrole hid => ⟨hi, hrole, hid⟩) ?_
  rintro t ht _ ⟨hi, hrole, hid, j, hlive, hch, hiface⟩
  obtain ⟨hlive', hch', hiface'⟩ := hkeep t j hi ht hid.symm hlive hch
  exact ⟨hi, hrole, hid, j, hlive', hch'.trans hch, hiface'.trans hiface⟩

/-- What is handed to the port. -/
theorem Sound.port (h : Sound s) (port : HubPort) : Sound { s with port } :=
  h.of_directory ⟨h.peers.distinct, h.peers.named, h.peers.channels⟩ rfl rfl (fun _ _ hp => hp) fun _ _ _ hh => hh

variable (h : Sound s) {n : ℕ} {k : EntrySlot}
include h

theorem Sound.setChannelMode (peerId : UInt32) (channel : UInt8) (reliable : Bool) :
    Sound (s.setChannelMode peerId channel reliable) := h.port _

theorem Sound.revert (interfaceId : UInt32) : Sound (s.revertAgentChannelIfUnused interfaceId) := by
  obtain ⟨o, ho⟩ := s.revertAgentChannelIfUnused_eq interfaceId
  rw [ho]
  exact h.port _

theorem Sound.opened {session : ClientSession} {request : ChannelOpenRequest}
    (ho : (s.directory i).session.openInterface request = (session, some channel))
    (entry : InterfaceEntry) : Sound (s.opened i entry session request.reliable) := by
  have hsession : Sound (s.modifySession i fun _ => session) := by
    have hd := (h.peers.channels i).openInterface request
    have hcases := (s.directory i).session.openInterface_cases request
    rw [ho] at hd hcases
    refine h.session hd fun t j _ _ _ hlive _ => ?_
    rcases hcases with ⟨hnone, _⟩ | ⟨l, c, _, hfree, _, hb⟩
    · cases hnone
    · have hjl : j ≠ l := by
        rintro rfl
        rw [inUse_of_isLive hlive] at hfree
        cases hfree
      rw [hb, Function.update_of_ne hjl]
      exact ⟨hlive, rfl, rfl⟩
  unfold Broker.opened
  split
  · exact hsession.setChannelMode _ _ _
  · exact hsession

/-! ### Channels that close -/

theorem Sound.abandon (ht : (s.transactions.entries t).isInUse) :
    Sound (s.abandonTransaction t) := by
  rcases s.abandonTransaction_cases ht with ⟨hpending, he⟩ | ⟨_, hsends⟩
  · rw [he]
    exact h.orphan hpending
  · exact (h.close t _).alike hsends.chats_fixed.toAlike

theorem Sound.abandonChannel (i : PeerSlot) (channel : UInt8) : Sound (s.abandonChannel i channel) := by
  unfold Broker.abandonChannel
  cases ht : s.transactions.forClientChannel (s.directory i).peerId channel with
  | none => exact h
  | some t => exact h.abandon (forClientChannel_some ht).1

/-- Once it has been abandoned, the channel has no transaction. -/
theorem Sound.abandonChannel_none (hi : (s.directory i).inUse)
    {u : TransactionSlot} (hu : ((s.abandonChannel i channel).transactions.entries u).isInUse)
    (hc : ((s.abandonChannel i channel).transactions.entries u).clientPeerId = (s.directory i).peerId) :
    ((s.abandonChannel i channel).transactions.entries u).clientChannel ≠ channel := by
  have hid := h.peers.named i hi
  unfold Broker.abandonChannel at hu hc ⊢
  cases ht : s.transactions.forClientChannel (s.directory i).peerId channel with
  | none =>
    rw [ht] at hu hc
    exact forClientChannel_none ht hu hc
  | some t =>
    rw [ht] at hu hc
    obtain ⟨huse, hclient, hch⟩ := forClientChannel_some ht
    intro hcu
    obtain ⟨hu', ⟨hut, he⟩ | ⟨_, hzero⟩⟩ := s.abandonTransaction_inUse hu
    · rw [he] at hc hcu
      exact hut (h.channel_unique hu' huse (hc ▸ hid) (hc.trans hclient.symm) (hcu.trans hch.symm))
    · exact hid (hc.symm.trans hzero)

theorem Sound.closed (i : PeerSlot) (channel : UInt8) : Sound (s.closeClientChannel i channel) := by
  rcases s.closeClientChannel_cases i channel with ⟨_, he⟩ | ⟨j, s₁, _, hs₁, he⟩
  · rw [he]
    exact h
  have hclosed : Sound s₁ := by
    have hsound := h.abandonChannel i channel
    obtain ⟨_, hp⟩ := s.abandonChannel_peers i channel i
    rw [hs₁]
    refine hsound.session ((hsound.peers.channels i).closeChannel channel) fun t l hi ht hc hlive hch => ?_
    rw [hp] at hi hc hlive hch ⊢
    have hne : ((s.directory i).session.bindings l).channel ≠ channel := by
      rw [hch]
      exact h.abandonChannel_none hi ht hc
    rw [closeChannel_of_ne hne]
    exact ⟨hlive, rfl, rfl⟩
  rw [he]
  split
  · exact (hclosed.setChannelMode _ _ _).revert _
  · exact hclosed

theorem Sound.dropped {session : ClientSession}
    (ht : ∀ t, (s.transactions.entries t).isInUse →
      (s.transactions.entries t).clientPeerId = (s.directory i).peerId → (s.directory i).peerId = 0)
    (hs : (s.directory i).session.takeReliableBinding = some (session, interfaceId)) :
    Sound ((s.modifySession i fun _ => session).revertAgentChannelIfUnused interfaceId) := by
  obtain ⟨j, _, _, _, rfl⟩ := takeReliableBinding_some hs
  refine Sound.revert (h.session ((h.peers.channels i).modify j) fun t l hi ht' hc _ _ => ?_) interfaceId
  exact absurd (ht t ht' hc) (h.peers.named i hi)

/-- A slot is cleared whose peer has no interfaces and no transactions any more. -/
theorem Sound.releaseSlot (hi : (s.directory i).inUse)
    (hagent : (s.directory i).role = .agent → ∀ k, (s.registry.entries k).inUse →
      (s.registry.entries k).agentPeerId ≠ (s.directory i).peerId)
    (hclient : (s.directory i).role = .client → ∀ t, (s.transactions.entries t).isInUse →
      (s.transactions.entries t).clientPeerId = (s.directory i).peerId → (s.directory i).peerId = 0) :
    Sound (s.releaseSlot (s.directory i).peerId) := by
  unfold Broker.releaseSlot
  rw [h.peers.distinct.find_eq hi]
  refine h.of_slot rfl (nomatch ·) ClientSession.ChannelsDistinct.init (fun k hk _ hrole hid => ?_) fun t ht hc hb => ?_
  · -- An agent is released without interfaces.
    exact absurd hid.symm (hagent hrole k hk)
  · -- A client is released without transactions.
    obtain ⟨_, hrole, hid, _⟩ := hb
    exact absurd (hid.symm.trans (hclient hrole t ht hid.symm)) hc

omit h

/-! ### Interfaces that go -/

/-- No transaction has its channel on the interface. -/
def Unused (s : Broker) (interfaceId : UInt32) : Prop :=
  ∀ t, (s.transactions.entries t).isInUse → (s.transactions.entries t).interfaceId ≠ interfaceId

include h

theorem Sound.detach (hu : Unused s interfaceId) :
    Sound (s.detachInterface interfaceId) := by
  have hsame := (s.detachInterface_shuffles interfaceId).samePeers
  refine h.of_directory (h.peers.shrink (fun j hj => ⟨hsame.inUse j ▸ hj, hsame.peerId j⟩) fun j => ?_) rfl rfl ?_ ?_
  · unfold detachInterface
    dsimp only
    split
    · exact (h.peers.channels j).detachInterface interfaceId
    · exact h.peers.channels j
  · rintro k _ ⟨j, hj, hrole, hid⟩
    exact ⟨j, (hsame.inUse j).trans hj, (hsame.role j).trans hrole, (hsame.peerId j).trans hid⟩
  · rintro t ht _ ⟨j, hj, hrole, hid, l, hlive, hch, hiface⟩
    refine ⟨j, (hsame.inUse j).trans hj, (hsame.role j).trans hrole, (hsame.peerId j).trans hid, l, ?_⟩
    have hkeep : ((s.directory j).session.detachInterface interfaceId).bindings l = (s.directory j).session.bindings l := by
      unfold ClientSession.detachInterface
      dsimp only
      rw [if_neg]
      rintro ⟨_, he⟩
      exact hu t ht (hiface.symm.trans he)
    unfold detachInterface
    dsimp only
    split
    · dsimp only
      rw [hkeep]
      exact ⟨hlive, hch, hiface⟩
    · exact ⟨hlive, hch, hiface⟩

/-- Entries may go that no transaction needs. -/
theorem Sound.removeEntries {registry : InterfaceRegistry}
    (hkeep : ∀ k, (registry.entries k).inUse → registry.entries k = s.registry.entries k)
    (hnext : registry.nextInterfaceId = s.registry.nextInterfaceId)
    (hexported : ∀ k t, (s.transactions.entries t).isInUse → (s.registry.entries k).inUse →
      (s.registry.entries k).interfaceId = (s.transactions.entries t).interfaceId →
      (s.registry.entries k).agentPeerId = (s.transactions.entries t).agentPeerId →
      registry.entries k = s.registry.entries k) : Sound { s with registry } := by
  refine ⟨⟨h.peers.distinct, h.peers.named, h.peers.channels⟩,
    h.registry.shrink (fun k hk => congrArg InterfaceEntry.face (hkeep k hk)) hnext fun _ _ hp => hp,
    h.transactions.shrink h.transactions.counted (fun t => .refl) h.transactions.granted ?_ fun _ _ _ hh => hh⟩
  · rintro t ht ⟨k, hk, hid, hka, hkc⟩
    refine ⟨k, ?_⟩
    rw [hexported k t ht hk hid hka]
    exact ⟨hk, hid, hka, hkc⟩

/-- An interface that no transaction's agent exports has no transaction's channel. -/
theorem Sound.unused (hk : (s.registry.entries k).inUse)
    (ha : ∀ t, (s.transactions.entries t).isInUse →
      (s.transactions.entries t).agentPeerId ≠ (s.registry.entries k).agentPeerId) :
    Unused s (s.registry.entries k).interfaceId := by
  intro t ht hid
  obtain ⟨_, l, hl, hlid, hlagent, _⟩ := h.transactions.exported t ht
  have hkl := h.registry.distinct k l hk hl (hid.symm.trans hlid.symm)
  subst hkl
  exact ha t ht hlagent.symm

theorem Sound.failAgent (agentPeerId : UInt32) : Sound (s.failAgentTransaction agentPeerId)
    ∧ ∀ t, ((s.failAgentTransaction agentPeerId).transactions.entries t).isInUse →
      ((s.failAgentTransaction agentPeerId).transactions.entries t).agentPeerId ≠ agentPeerId := by
  rcases s.failAgentTransaction_cases agentPeerId with ⟨hnone, he⟩ | ⟨t, f, ht, _, _, htalks⟩
  · rw [he]
    exact ⟨h, fun t ht => forAgent_none hnone ht⟩
  obtain ⟨htuse, hta⟩ := forAgent_some ht
  refine ⟨(h.close t _).alike htalks.chats_fixed.toAlike, fun u hu hua => ?_⟩
  -- What is left in the table was not the agent's one transaction.
  obtain ⟨_, _, _, _, _, heq⟩ := htalks
  rw [heq] at hu hua
  obtain ⟨hut, he⟩ := kept_of_close hu
  have hua' : ((s.transactions.close t).entries u).agentPeerId = agentPeerId := hua
  have hu' : ((s.transactions.close t).entries u).isInUse := hu
  rw [he] at hua' hu'
  exact hut (h.transactions.agents u t hu' htuse (hua'.trans hta.symm))

theorem Sound.agentLost (agentPeerId : UInt32) :
    Sound ((s.failAgentTransaction agentPeerId).detachAgent agentPeerId) := by
  obtain ⟨hsound, hnone⟩ := h.failAgent agentPeerId
  generalize s.failAgentTransaction agentPeerId = s₁ at hsound hnone ⊢
  have hloop : ∀ (l : List EntrySlot) (s₂ : Broker), Sound s₂ → s₂.registry = s₁.registry →
      s₂.transactions = s₁.transactions → Sound (l.foldl (detachEntryOf agentPeerId) s₂)
        ∧ (l.foldl (detachEntryOf agentPeerId) s₂).registry = s₁.registry
        ∧ (l.foldl (detachEntryOf agentPeerId) s₂).transactions = s₁.transactions := by
    intro l
    induction l with
    | nil => exact fun s₂ hs hr ht => ⟨hs, hr, ht⟩
    | cons k l ih =>
      intro s₂ hs hr ht
      refine ih _ ?_ ?_ ?_
      · unfold detachEntryOf
        dsimp only
        split
        · rename_i hk
          refine hs.detach (hs.unused hk.1 fun t htuse hta => ?_)
          rw [ht] at htuse hta
          exact hnone t htuse (hta.trans hk.2)
        · exact hs
      · unfold detachEntryOf
        dsimp only
        split <;> exact hr
      · unfold detachEntryOf
        dsimp only
        split <;> exact ht
  rw [detachAgent]
  generalize List.finRange interfaceRegistryMax = l
  obtain ⟨hs, hr, ht⟩ := hloop l s₁ hsound rfl rfl
  generalize l.foldl (detachEntryOf agentPeerId) s₁ = s₂ at hs hr ht ⊢
  refine hs.removeEntries (fun k => removePeer_same) rfl fun k t htuse _ _ hagent => ?_
  rw [ht] at htuse hagent
  exact removePeer_other fun ha => hnone t htuse (hagent.symm.trans ha)

theorem Sound.leave (hl : Leave s s') : Sound s' := by
  cases hl with
  | released hi hagent hclient _ => exact h.releaseSlot hi (absurd · hagent) hclient
  | @agentLeft i hi hrole =>
    -- The interfaces go first, and then the slot.
    have hlost := h.agentLost (s.directory i).peerId
    have hpeers := s.agentLost_samePeers (s.directory i).peerId
    have hnone : ∀ k, (((s.failAgentTransaction (s.directory i).peerId).detachAgent
        (s.directory i).peerId).registry.entries k).inUse → _ ≠ (s.directory i).peerId := fun k => detachAgent_none _
    rw [s.releasePeer_agent hrole]
    generalize (s.failAgentTransaction (s.directory i).peerId).detachAgent (s.directory i).peerId = s₁
      at hlost hpeers hnone ⊢
    have halike := (s₁.releasePendingIfconfig_hushed (s.directory i).peerId).toAlike
    have hsame := hpeers.trans (s₁.releasePendingIfconfig_samePeers (s.directory i).peerId)
    generalize s₁.releasePendingIfconfig (s.directory i).peerId = s₂ at halike hsame ⊢
    have hne : (s₂.directory i).role ≠ .client := by rw [hsame.role i, hrole]; simp
    rw [← hsame.peerId i]
    refine (hlost.alike halike).releaseSlot ((hsame.inUse i).trans hi) (fun _ k hk => ?_) (absurd · hne)
    obtain ⟨huse, _, hagent, _⟩ := of_face (halike.registry.entries k)
    rw [hagent, hsame.peerId i]
    exact hnone k (huse ▸ hk)

theorem Sound.groupClosed (hk : (s.registry.entries k).inUse)
    (hname : (s.registry.entries k).agentName = bridgeGroupAgentName) :
    Sound { s.detachInterface (s.registry.entries k).interfaceId with
      registry := s.registry.removeVirtual (s.registry.entries k).interfaceId } := by
  have hv := h.registry.groups k hk hname
  have hzero : (s.registry.entries k).agentPeerId = 0 := of_decide_eq_true hv
  have hdetach := h.detach (h.unused hk fun t ht ha => (h.transactions.exported t ht).1 (ha.trans hzero))
  refine hdetach.removeEntries (fun l hl => ?_) rfl fun l t ht hl hid hagent => ?_
  · simp only [removeVirtual, map] at hl ⊢
    split at hl
    · cases hl
    · rename_i hne
      rw [if_neg hne]
      rfl
  · simp only [removeVirtual, map]
    rw [if_neg]
    · rfl
    rintro ⟨_, _, hlv⟩
    have hlzero : (s.registry.entries l).agentPeerId = 0 := of_decide_eq_true hlv
    exact (h.transactions.exported t ht).1 (hagent.symm.trans hlzero)

omit h

/-! ### Channels that come back -/

theorem Sound.removeClientInterface (i : PeerSlot) (interfaceId : UInt32) (bindings : ℕ) (h : Sound s) :
    Sound (s.removeClientInterface i interfaceId bindings) := by
  induction bindings generalizing s with
  | zero => exact h
  | succ bindings ih =>
    unfold Broker.removeClientInterface
    split
    · exact h
    · exact ih (h.closed i _)

theorem Sound.reattachSession (h : Sound s) (i : PeerSlot) (agentName interfaceName : Text) (interfaceId : UInt32)
    (canWrite : Bool) : Sound (s.modifySession i fun _ =>
      ((s.directory i).session.reattachInterface agentName interfaceName interfaceId canWrite).1) := by
  refine h.session ((h.peers.channels i).reattachInterface _ _ _ _) fun t j _ _ _ hlive _ => ?_
  -- A live binding does not wait.
  have hnot : ((s.directory i).session.bindings j).awaits agentName interfaceName = false := by
    simp only [ChannelBinding.isLive, Bool.and_eq_true, Bool.not_eq_true'] at hlive
    simp [ChannelBinding.awaits, hlive.2]
  unfold ClientSession.reattachInterface
  dsimp only
  rw [if_neg (by simp [hnot])]
  exact ⟨hlive, rfl, rfl⟩

theorem Sound.reattached (h : Sound s) (k : EntrySlot) (i : PeerSlot) : Sound (s.reattachPeer k i) := by
  rcases s.reattachPeer_cases k i with ⟨_, he⟩ | ⟨_, s₁, canWrite, session, waited, hauth, hsession, hafter⟩
  · rw [he]
    exact h
  have hwrite := h.alike (s.authorized_fixed i).toAlike
  rw [hauth] at hwrite
  have hback := hwrite.reattachSession i (s.registry.entries k).agentName (s.registry.entries k).interfaceName
    (s.registry.entries k).interfaceId canWrite
  rw [hsession] at hback
  rcases hafter with ⟨_, he⟩ | ⟨_, s₃, canRead, hauth', he⟩
  · rw [he]
    exact hback
  have hread := hback.alike (authorized_fixed _ i).toAlike
  rw [hauth'] at hread
  rw [he]
  cases canRead with
  | false => exact hread.removeClientInterface i _ _
  | true =>
    rw [if_pos rfl]
    unfold demandMode
    split
    · exact hread
    · split
      · exact hread.setChannelMode _ _ _
      · exact hread

theorem Sound.move (h : Sound s) (hm : Move P s s') : Sound s' := by
  cases hm with
  | alike ha => exact h.alike ha.toAlike
  | said ha => exact h.alike ha
  | acted => exact h.like (s.perform_still _).toLike
  | forgotten clientPeerId => exact h.like (s.releaseEchoTokens_still clientPeerId).toLike
  | requested hreq ht => exact h.requested hreq ht
  | granted txnId hp hc => exact h.activate txnId hp hc _
  | ended hf => exact h.close _ _
  | orphaned hp => exact h.orphan hp
  | adopted role hi => exact h.adopted role hi
  | opened hi hrole hk hid hagent hname hrel ho => exact h.opened ho _
  | closed channel hrole => exact h.closed _ channel
  | dropped hrole ht hs => exact h.dropped ht hs
  | groupClosed hk hname => exact h.groupClosed hk hname
  | reattached k i => exact h.reattached k i

theorem Sound.goes (h : Sound s) (hg : Goes P s s') : Sound s' :=
  hg.invariant (fun hs hm => hs.move hm) (fun hs hl => hs.leave hl) h

/-! ### Interfaces that get ids -/

/-- An entry for the next id, as long as there is a next one. -/
theorem Sound.assign (h : Sound s) (hk : (s.registry.entries k).inUse = false)
    {f : UInt32 → InterfaceEntry → InterfaceEntry}
    (hid : (f s.registry.nextInterfaceId (s.registry.entries k)).interfaceId = s.registry.nextInterfaceId)
    (howned : (f s.registry.nextInterfaceId (s.registry.entries k)).isVirtual = false →
      Present s .agent (f s.registry.nextInterfaceId (s.registry.entries k)).agentPeerId)
    (hgroup : (f s.registry.nextInterfaceId (s.registry.entries k)).agentName = bridgeGroupAgentName →
      (f s.registry.nextInterfaceId (s.registry.entries k)).isVirtual)
    (hserved : (f s.registry.nextInterfaceId (s.registry.entries k)).isVirtual = false →
      ∀ l, (s.registry.entries l).inUse →
        (s.registry.entries l).agentPeerId = (f s.registry.nextInterfaceId (s.registry.entries k)).agentPeerId →
        (s.registry.entries l).agentChannel ≠ (f s.registry.nextInterfaceId (s.registry.entries k)).agentChannel)
    (hnext : s.registry.nextInterfaceId.toNat + 1 < 2 ^ 32) :
    Sound { s with registry := s.registry.assign k f } := by
  have hself := s.registry.assign_entries_self (k := k) f
  have hold := fun l => s.registry.assign_entries_of_ne (k := k) (l := l) f
  have hsucc : (s.registry.assign k f).nextInterfaceId.toNat = s.registry.nextInterfaceId.toNat + 1 := by
    simp only [InterfaceRegistry.assign, InterfaceRegistry.modify, UInt32.toNat_add, UInt32.toNat_one]
    exact Nat.mod_eq_of_lt hnext
  refine ⟨⟨h.peers.distinct, h.peers.named, h.peers.channels⟩,
    ⟨fun l l' hl hl' he => ?_, fun l hl => ?_, fun l hl hv => ?_, fun l hl hname => ?_, fun l l' hl hl' hv ha hc => ?_⟩,
    h.transactions.shrink h.transactions.counted (fun t => .refl) h.transactions.granted ?_ fun _ _ _ hh => hh⟩
  · -- Every id in use is below the next one.
    refine Table.unrelated_of_ne (R := fun a b => a.interfaceId = b.interfaceId) (fun _ _ => Eq.symm) hold
      h.registry.distinct (fun _ l _ hl => ?_) l l' hl hl' he
    rw [hself, hid]
    exact UInt32.ne_of_lt (h.registry.assigned l hl)
  · dsimp only at hl ⊢
    rw [UInt32.lt_iff_toNat_lt, hsucc]
    by_cases hlk : l = k
    · subst hlk
      rw [hself, hid]
      exact Nat.lt_succ_self _
    · rw [hold l hlk] at hl ⊢
      exact Nat.lt_succ_of_lt (UInt32.lt_iff_toNat_lt.mp (h.registry.assigned l hl))
  · dsimp only at hl hv ⊢
    by_cases hlk : l = k
    · subst hlk
      rw [hself] at hv ⊢
      exact howned hv
    · rw [hold l hlk] at hl hv ⊢
      exact h.registry.owned l hl hv
  · dsimp only at hl hname ⊢
    by_cases hlk : l = k
    · subst hlk
      rw [hself] at hname ⊢
      exact hgroup hname
    · rw [hold l hlk] at hl hname ⊢
      exact h.registry.groups l hl hname
  · refine Table.unrelated_of_ne
      (R := fun a b => a.isVirtual = false ∧ a.agentPeerId = b.agentPeerId ∧ a.agentChannel = b.agentChannel)
      (fun a b h => ⟨by rw [isVirtual, ← h.2.1]; exact h.1, h.2.1.symm, h.2.2.symm⟩) hold
      (fun l l' hl hl' he => h.registry.served l l' hl hl' he.1 he.2.1 he.2.2) (fun _ l _ hl => ?_) l l' hl hl' ⟨hv, ha, hc⟩
    rw [hself]
    rintro ⟨hv, ha, hc⟩
    rw [isVirtual, ha] at hv
    exact hserved hv l hl ha hc
  · rintro t _ ⟨l, hl, hrest⟩
    have hlk : l ≠ k := by
      rintro rfl
      rw [hk] at hl
      cases hl
    exact ⟨l, by dsimp only; rw [hold l hlk]; exact ⟨hl, hrest⟩⟩

/-- Numbers that fit are told apart by what they add to an id. -/
theorem eq_of_ids {a : UInt32} {m : ℕ} (hn : n ≤ interfaceRegistryMax) (hm : m ≤ interfaceRegistryMax)
    (h : a + UInt32.ofNat n = a + UInt32.ofNat m) : n = m := by
  have h' := congrArg UInt32.toNat (UInt32.add_right_inj a |>.mp h)
  simp only [UInt32.toNat_ofNat', interfaceRegistryMax] at hn hm h'
  omega

/-- The loop over the interfaces of a registration, which takes `n` ids. -/
theorem Sound.registerInterfaces {agentPeerId : UInt32} {m : RegisterMessage} (hname : m.agentName ≠ bridgeGroupAgentName)
    (names : List Text) (i : ℕ) (h : Sound s) (hp : Present s .agent agentPeerId)
    (hnone : ∀ t, (s.transactions.entries t).isInUse → (s.transactions.entries t).agentPeerId ≠ agentPeerId)
    (hlow : s.registry.FirstChannels agentPeerId i)
    (hfits : i + s.registry.entries.count (!·.inUse) ≤ interfaceRegistryMax) (hn : n ≤ interfaceRegistryMax)
    (hnext : (s.registry.registerInterfaces agentPeerId m i names).1.nextInterfaceId
      = s.registry.nextInterfaceId + UInt32.ofNat n) (hroom : s.registry.nextInterfaceId.toNat + n < 2 ^ 32) :
    Sound { s with registry := (s.registry.registerInterfaces agentPeerId m i names).1 } := by
  induction names generalizing s i n with
  | nil => exact h
  | cons name names ih =>
    unfold registerInterfaces at hnext ⊢
    cases hfree : s.registry.findFreeEntry with
    | none =>
      exact h.removeEntries (fun k => removePeer_same) rfl fun k t ht _ _ hagent =>
        removePeer_other fun ha => hnone t ht (hagent.symm.trans ha)
    | some k =>
      rw [hfree] at hnext
      have hk := findFreeEntry_some hfree
      have hcount := assign_free hk (f := fun id e => e.registered id agentPeerId m i name) rfl
      have hi : i < 2 ^ 8 := by
        simp only [interfaceRegistryMax] at hfits
        omega
      -- one id is taken here, the others by the rest of the loop
      obtain ⟨n', hn', hnext'⟩ := registerInterfaces_next agentPeerId m names
        (s.registry.assign k fun id e => e.registered id agentPeerId m i name) (i + 1)
      have hids : s.registry.nextInterfaceId + UInt32.ofNat n = s.registry.nextInterfaceId + UInt32.ofNat (n' + 1) := by
        rw [← hnext, UInt32.ofNat_add, UInt32.add_comm (UInt32.ofNat n'), ← UInt32.add_assoc]
        exact hnext'
      obtain rfl := eq_of_ids hn (by omega) hids
      have hone : Sound { s with registry := s.registry.assign k fun id e => e.registered id agentPeerId m i name } :=
        h.assign hk rfl (fun _ => hp) (fun hg => absurd hg hname) (fun _ l => hlow.ne hi) (by omega)
      refine ih (i + 1) hone hp hnone (hlow.assign hi m name) (by dsimp only; omega) (by omega) hnext' ?_
      change (s.registry.nextInterfaceId + 1).toNat + n' < 2 ^ 32
      rw [UInt32.toNat_add, UInt32.toNat_one]
      omega

variable {distinct : Prop}

theorem Sound.registers (h : Sound s) (hr : Registers distinct n s s') (hd : distinct)
    (hroom : s.registry.nextInterfaceId.toNat + n < 2 ^ 32) : Sound s' := by
  cases hr with
  | agent hi hname hn hnext =>
    rename_i i m
    obtain ⟨huse, hrole⟩ := hi hd
    have heq : (s.registerAgent i m).1
        = { s with registry := (s.registry.registerAgent (s.directory i).peerId m).1 } := rfl
    rw [heq] at hnext ⊢
    rcases s.registry.registerAgent_cases (s.directory i).peerId m with ⟨_, he⟩ | ⟨hreg, _, he, _⟩
    · rw [he]
      exact h
    rw [he] at hnext ⊢
    -- An agent without interfaces has no transaction.
    have hnone : ∀ t, (s.transactions.entries t).isInUse →
        (s.transactions.entries t).agentPeerId ≠ (s.directory i).peerId := by
      intro t ht ha
      obtain ⟨_, k, hk, _, hka, _⟩ := h.transactions.exported t ht
      exact not_registered hreg hk (hka.trans ha)
    exact h.registerInterfaces hname m.interfaceNames 0 ⟨i, huse, hrole, rfl⟩ hnone
      (fun k hk ha => absurd ha (not_registered hreg hk)) (by rw [Nat.zero_add]; exact Table.count_le _ _) hn hnext hroom
  | group hadd =>
    obtain ⟨_, hfree, rfl⟩ := addVirtual_some hadd
    exact h.assign hfree rfl (fun hv => by cases hv) (fun _ => rfl) (fun hv => by cases hv) hroom

/-! ### Events -/

/-- How far an event moves the counter of ids. -/
theorem Passes.nextInterfaceId (h : Passes P distinct n s s') :
    s'.registry.nextInterfaceId = s.registry.nextInterfaceId + UInt32.ofNat n := by
  induction h with
  | goes h => rw [h.nextInterfaceId]; simp
  | register _ hr hg ih =>
    rw [hg.nextInterfaceId]
    cases hr with
    | agent _ _ _ hnext => rw [hnext, ih, UInt32.ofNat_add, UInt32.add_assoc]
    | group hadd =>
      obtain ⟨_, _, rfl⟩ := addVirtual_some hadd
      rw [UInt32.ofNat_add, ← UInt32.add_assoc, ← ih]
      rfl

theorem Sound.passes (h : Sound s) (hp : Passes P distinct n s s') (hd : distinct)
    (hroom : s.registry.nextInterfaceId.toNat + n < 2 ^ 32) : Sound s' := by
  induction hp with
  | goes hg => exact h.goes hg
  | register hp hr hg ih =>
    have hsound := ih h (by omega)
    refine Sound.goes (hsound.registers hr hd ?_) hg
    rw [hp.nextInterfaceId, UInt32.toNat_add, UInt32.toNat_ofNat']
    omega

/-- A new peer in a free slot, with an id nobody has. -/
theorem Sound.connected (h : Sound s) {p : HubPeer} (hi : (s.directory i).inUse = false)
    (hid : p.peerId ≠ 0) (hnew : ∀ j, (s.directory j).inUse → (s.directory j).peerId ≠ p.peerId)
    (hs : p.session = {}) : Sound (s.modifyPeer i fun _ => p) := by
  have hfree : ¬(s.directory i).inUse := by simp [hi]
  refine h.of_slot rfl (fun _ => ⟨hid, fun j _ => hnew j⟩) ?_ (fun _ _ hi' => absurd hi' hfree) fun _ _ _ hb =>
    absurd hb.1 hfree
  rw [hs]
  exact ClientSession.ChannelsDistinct.init

/-! ### Turns and runs -/

/-- What transports promise about a connection: an id that is not zero and that nobody connected has. -/
def FreshId (s : Broker) (t : HubTurn) : Prop :=
  match t.event with
  | .connected peerId _ _ => peerId ≠ 0 ∧ s.find peerId = none
  | _ => True

instance (s : Broker) (t : HubTurn) : Decidable (s.FreshId t) := by
  unfold FreshId
  split <;> infer_instance

/-- The turn hands out interface ids without running past the last one. -/
abbrev IdsLast (s : Broker) (t : HubTurn) : Prop :=
  s.registry.nextInterfaceId ≤ (s.step t).registry.nextInterfaceId

/-- A turn hands out less ids than there are, so that it runs past the last one only if the next id
comes out smaller. -/
theorem Passes.ids_last (hp : Passes P distinct n s s') (hn : n ≤ 3 * interfaceRegistryMax)
    (hids : s.registry.nextInterfaceId ≤ s'.registry.nextInterfaceId) :
    s.registry.nextInterfaceId.toNat + n < 2 ^ 32 := by
  rw [hp.nextInterfaceId, UInt32.le_iff_toNat_le, UInt32.toNat_add, UInt32.toNat_ofNat'] at hids
  have := s.registry.nextInterfaceId.toNat_lt
  simp only [interfaceRegistryMax] at hn
  omega

theorem Sound.handle (h : Sound s) {e : HubEvent} (he : HubEvent.isLater e)
    (hids : s.registry.nextInterfaceId ≤ (s.handle e).registry.nextInterfaceId) : Sound (s.handle e) := by
  have hpasses : ∃ n ≤ 3 * interfaceRegistryMax, Passes (fun _ _ => True) True n s (s.handle e) :=
    s.handle_passes (fun _ => h.peers.distinct) he (s.permits_of_all (fun _ _ => trivial) e)
  obtain ⟨n, hn, hp⟩ := hpasses
  exact h.passes hp trivial (hp.ids_last hn hids)

theorem Sound.onPeerConnected (h : Sound s) {peerId : UInt32} (hid : peerId ≠ 0) (hnew : s.find peerId = none)
    (info : HubPeerConnectInfo) (nowUs : ℕ) : Sound (s.onPeerConnected peerId info nowUs) := by
  obtain ⟨s₁, ⟨hgoes, _⟩, hafter⟩ := s.onPeerConnected_cases (P := fun _ _ => True) peerId info nowUs
  have hsound := h.goes hgoes
  rcases hafter with he | ⟨i, hi, he⟩
  · rw [he]
    exact hsound
  · rw [he]
    exact hsound.connected hi hid (fun j => hgoes.fresh hnew) rfl

/-- **A turn keeps the books in agreement**, unless the connection takes somebody's id or the interface ids
run out. -/
theorem Sound.step (h : Sound s) {t : HubTurn} (hfresh : s.FreshId t) (hids : s.IdsLast t) : Sound (s.step t) := by
  have hport : Sound { s with port := t.port } := h.port t.port
  rcases ht : t.event with ⟨peerId, info, nowUs⟩ | _ | _ | _ | _ | _
  · simp only [FreshId, ht] at hfresh
    simp only [Broker.step, ht]
    exact hport.onPeerConnected hfresh.1 hfresh.2 info nowUs
  all_goals
    simp only [IdsLast, Broker.step, ht] at hids ⊢
    exact hport.handle rfl hids

/-! ### The start -/

theorem Sound.start (config : HubConfig) (port : HubPort) (bridges : BridgeRoutes) :
    Sound { config, port, bridges } where
  peers := ⟨fun _ _ h => (nomatch h), fun _ h => (nomatch h), fun _ => ClientSession.ChannelsDistinct.init⟩
  registry := ⟨fun _ _ h => (nomatch h), fun _ h => (nomatch h), fun _ h => (nomatch h), fun _ h => (nomatch h),
    fun _ _ h => (nomatch h)⟩
  transactions := ⟨fun _ _ h => (nomatch h), fun _ h => (nomatch h), fun _ h => (nomatch h), fun _ h => (nomatch h),
    TransactionTable.Counted.init⟩

/-- A stored group takes one id at most. -/
theorem Sound.loadGroup (h : Sound s) (g : BridgeGroup) (hroom : s.registry.nextInterfaceId.toNat + 1 < 2 ^ 32) :
    Sound (s.loadGroup g)
      ∧ (s.loadGroup g).registry.nextInterfaceId.toNat ≤ s.registry.nextInterfaceId.toNat + 1 := by
  unfold Broker.loadGroup
  cases hg : s.groups.restore g with
  | none => exact ⟨h, by dsimp only; omega⟩
  | some groups =>
    have hsound : Sound { s with groups } :=
      h.of_directory ⟨h.peers.distinct, h.peers.named, h.peers.channels⟩ rfl rfl (fun _ _ hp => hp) fun _ _ _ hh => hh
    obtain ⟨n, hn, hp, _⟩ : ∃ n ≤ 1, Runs (fun _ _ => True) True n { s with groups }
        (({ s with groups } : Broker).openGroupInterface g.name) :=
      openGroupInterface_runs _ g.name fun _ _ _ _ _ _ _ _ _ => trivial
    refine ⟨hsound.passes hp trivial (by dsimp only; omega), ?_⟩
    rw [hp.nextInterfaceId, UInt32.toNat_add, UInt32.toNat_ofNat']
    dsimp only
    omega

/-- Groups are fewer than ids. -/
theorem Sound.loadGroups (groups : List BridgeGroup) (s : Broker) (h : Sound s)
    (hroom : s.registry.nextInterfaceId.toNat + groups.length < 2 ^ 32) :
    Sound (groups.foldl Broker.loadGroup s) := by
  induction groups generalizing s with
  | nil => exact h
  | cons g groups ih =>
    rw [List.length_cons] at hroom
    obtain ⟨hsound, hnext⟩ := h.loadGroup g (by omega)
    exact ih _ hsound (by omega)

theorem Sound.init (config : HubConfig) (port : HubPort) (routes : List BridgeRoute) (groups : List BridgeGroup) :
    Sound (Broker.init config port routes groups) := by
  unfold Broker.init
  split
  · exact Sound.start config port {}
  · refine Sound.loadGroups _ _ (Sound.start config port _) ?_
    have := List.length_take_le bridgeGroupsMax groups
    simp only [bridgeGroupsMax] at this ⊢
    have h1 : (1 : UInt32).toNat = 1 := rfl
    omega

/-- **Every run keeps the books in agreement**, as long as connections bring ids of their own and interface
ids last. -/
theorem Sound.run {turns : List HubTurn} (h : Sound s)
    (hturns : Run.Along Broker.step (fun s t => s.FreshId t ∧ s.IdsLast t) s turns) : Sound (s.run turns) :=
  hturns.invariant (fun _ _ hs ht => hs.step ht.1 ht.2) h

end Broker
end CanHub
