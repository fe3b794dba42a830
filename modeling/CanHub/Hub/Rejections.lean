/-
# A rejected registration

A REGISTER is tried up to three times, and between the attempts other peers may
lose their place: an earlier connection of the same agent that its names collide
with, and if the agent is enrolled and its interfaces do not fit, the agents
nobody vouches for. That happens before it is known whether the next attempt
succeeds, so that a registration rejected in the end disturbs nobody exactly
where it costs nobody its place and the agent has nothing registered yet
(`rejected_undisturbed_iff`). What a REGISTER is answered with is read off what
the hub hands to the transport (`Acknowledges`).
-/
import CanHub.Hub.Departures

namespace CanHub

namespace InterfaceRegistry

/-- The live entries are the same: their ids, names, owners and channels. -/
def SameLive (r r' : InterfaceRegistry) : Prop :=
  ∀ k, (r'.entries k).inUse = (r.entries k).inUse ∧ ((r.entries k).inUse → (r'.entries k).face = (r.entries k).face)

theorem SameLive.refl (r : InterfaceRegistry) : r.SameLive r := fun _ => ⟨rfl, fun _ => rfl⟩

variable {r : InterfaceRegistry}

theorem SameLive.trans {r' r'' : InterfaceRegistry} (h : r.SameLive r') (h' : r'.SameLive r'') : r.SameLive r'' := by
  intro k
  refine ⟨(h' k).1.trans (h k).1, fun hk => ?_⟩
  exact ((h' k).2 ((h k).1 ▸ hk)).trans ((h k).2 hk)

theorem Alike.sameLive {r' : InterfaceRegistry} (h : r.Alike r') : r.SameLive r' :=
  fun k => ⟨(InterfaceEntry.of_face (h.entries k)).1, fun _ => h.entries k⟩

variable {agentPeerId : UInt32} {m : RegisterMessage}

/-- Where a peer has no entries there are none to remove. -/
theorem removePeer_sameLive
    (h : ∀ k, (r.entries k).inUse → (r.entries k).agentPeerId ≠ agentPeerId) : r.SameLive (r.removePeer agentPeerId) := by
  intro k
  have hsame : (r.removePeer agentPeerId).entries k = r.entries k := if_neg fun hk => h k hk.1 hk.2
  rw [hsame]
  exact ⟨rfl, fun _ => rfl⟩

/-- A registration that runs out of entries gives back those it took. -/
theorem registerInterfaces_sameLive {r₀ : InterfaceRegistry}
    (hnone : ∀ k, (r₀.entries k).inUse → (r₀.entries k).agentPeerId ≠ agentPeerId) (names : List Text)
    (r : InterfaceRegistry) (i : ℕ) (htaken : ∀ k, r.entries k = r₀.entries k
      ∨ ((r₀.entries k).inUse = false ∧ (r.entries k).inUse ∧ (r.entries k).agentPeerId = agentPeerId))
    (hfail : (r.registerInterfaces agentPeerId m i names).2 < i + names.length) :
    r₀.SameLive (r.registerInterfaces agentPeerId m i names).1 := by
  fun_induction registerInterfaces r agentPeerId m i names with
  | case1 r i => exact absurd hfail (Nat.lt_irrefl i)
  | case2 r =>
    intro k
    rcases htaken k with hk | ⟨hfree₀, huse, howner⟩
    · have hsame : (r.removePeer agentPeerId).entries k = r₀.entries k := by
        rw [← hk]
        exact if_neg fun h => hnone k (hk ▸ h.1) (hk ▸ h.2)
      rw [hsame]
      exact ⟨rfl, fun _ => rfl⟩
    · have hgone : (r.removePeer agentPeerId).entries k = {} := if_pos ⟨huse, howner⟩
      rw [hgone, hfree₀]
      exact ⟨rfl, fun h => absurd h (by simp)⟩
  | case3 r i name names k hfree ih =>
    refine ih (fun l => ?_) (by rw [List.length_cons] at hfail; omega)
    by_cases hl : l = k
    · subst hl
      have hl₀ : (r₀.entries l).inUse = false := by
        rcases htaken l with h | ⟨h, _⟩
        · rw [← h]
          exact findFreeEntry_some hfree
        · exact h
      rw [assign_entries_self]
      exact .inr ⟨hl₀, rfl, rfl⟩
    · rw [assign_entries_of_ne _ hl]
      exact htaken l

/-- A registration that fails leaves the live entries as they were. -/
theorem registerAgent_sameLive
    (h : (r.registerAgent agentPeerId m).2.2 = false) : r.SameLive (r.registerAgent agentPeerId m).1 := by
  rcases r.registerAgent_cases agentPeerId m with ⟨_, heq⟩ | ⟨hreg, _, heq, hok⟩
  · rw [heq]
    exact .refl r
  rw [heq]
  refine registerInterfaces_sameLive (fun k => not_registered hreg) _ r 0 (fun k => .inl rfl) ?_
  rw [Nat.zero_add]
  rw [← Bool.not_eq_true, hok] at h
  exact Nat.lt_of_not_le h

/-- The acknowledgement says ok exactly where the agent is registered. -/
theorem registerAgent_status (r : InterfaceRegistry) (agentPeerId : UInt32) (m : RegisterMessage) :
    (r.registerAgent agentPeerId m).2.1.status = .ok ↔ (r.registerAgent agentPeerId m).2.2 = true := by
  unfold registerAgent
  split
  · simp [registerAck]
  split
  · simp [registerAck]
  dsimp only
  split <;> simp [registerAck]

/-- The registry takes the agent: it has nothing registered yet, no interface has one of its names, and its interfaces
fit. -/
def Accepts (r : InterfaceRegistry) (agentPeerId : UInt32) (m : RegisterMessage) : Prop :=
  r.isPeerRegistered agentPeerId = false ∧ r.collision m = none ∧ m.interfaceNames.length ≤ interfaceRegistryMax - r.count

theorem count_assign {k : EntrySlot} (hk : r.findFreeEntry = some k) (i : ℕ)
    (name : Text) :
    (r.assign k fun id e => e.registered id agentPeerId m i name).count = r.count + 1 := by
  have hupdate := Table.count_update r.entries (·.inUse) k
    ((r.entries k).registered r.nextInterfaceId agentPeerId m i name)
  have hfree : (r.entries k).inUse = false := findFreeEntry_some hk
  have hnew : ((r.entries k).registered r.nextInterfaceId agentPeerId m i name).inUse = true := rfl
  rw [hfree, hnew, Bool.toNat_false, Bool.toNat_true, Nat.add_zero] at hupdate
  unfold count assign modify
  exact hupdate

/-- There is a free entry exactly where not all are counted. -/
theorem findFreeEntry_eq_none : r.findFreeEntry = none ↔ r.count = interfaceRegistryMax := by
  rw [count, Table.count_eq, findFreeEntry, Table.find?_eq_none]
  simp

/-- The loop over the interfaces ends with all of them exactly where there is room for them. -/
theorem registerInterfaces_length (agentPeerId : UInt32) (m : RegisterMessage) (names : List Text) (r : InterfaceRegistry)
    (i : ℕ) :
    i + names.length ≤ (r.registerInterfaces agentPeerId m i names).2
      ↔ names.length ≤ interfaceRegistryMax - r.count := by
  fun_induction registerInterfaces r agentPeerId m i names with
  | case1 => simp
  | case2 r i name names hfree =>
    rw [findFreeEntry_eq_none.mp hfree, List.length_cons]
    omega
  | case3 r i name names k hfree hnext =>
    have hle : r.count ≤ interfaceRegistryMax := Table.count_le r.entries _
    have hroom : r.count ≠ interfaceRegistryMax := by
      rw [Ne, ← findFreeEntry_eq_none, hfree]
      exact Option.some_ne_none k
    rw [count_assign hfree] at hnext
    rw [List.length_cons, show i + (names.length + 1) = i + 1 + names.length by omega, hnext]
    omega

/-- **`InterfaceRegistry_RegisterAgent` succeeds exactly where the registry takes the agent.** -/
theorem registerAgent_accepts :
    (r.registerAgent agentPeerId m).2.2 = true ↔ r.Accepts agentPeerId m := by
  rcases r.registerAgent_cases agentPeerId m with ⟨hcause, heq⟩ | ⟨hreg, hcoll, _, hok⟩
  · rw [heq]
    refine iff_of_false (by simp) fun h => ?_
    rcases hcause with hreg | hcoll
    · rw [h.1] at hreg
      cases hreg
    · rw [h.2.1] at hcoll
      cases hcoll
  · have hlength := registerInterfaces_length agentPeerId m m.interfaceNames r 0
    rw [Nat.zero_add] at hlength
    rw [hok, hlength]
    exact ⟨fun h => ⟨hreg, hcoll, h⟩, fun h => h.2.2⟩

end InterfaceRegistry

/-- Channels are found by the faces of their bindings. -/
theorem HubPeer.Like.interfaceForChannel {p q : HubPeer} (h : p.Like q) (channel : UInt8) :
    q.session.interfaceForChannel channel = p.session.interfaceForChannel channel := by
  have hface := fun j => ChannelBinding.of_face (h.bindings j)
  have hfind : q.session.bindings.find? (fun b => b.isLive && b.channel == channel)
      = p.session.bindings.find? (fun b => b.isLive && b.channel == channel) := by
    refine Table.find?_congr fun j => ?_
    obtain ⟨huse, hdormant, _, _, _, hchannel, _⟩ := hface j
    simp only [ChannelBinding.isLive, huse, hdormant, hchannel]
  unfold ClientSession.interfaceForChannel
  rw [hfind]
  exact Option.map_congr fun j _ => (hface j).2.2.2.2.1

namespace Broker

variable {s s' s'' : Broker}

/-- A REGISTER of the peer disturbs nobody: the others are connected, the live interface entries are the same, and
every channel that was open is. -/
structure Undisturbed (i : PeerSlot) (s s' : Broker) : Prop where
  peers : ∀ j, j ≠ i → (s.directory j).inUse → (s'.directory j).inUse ∧ (s'.directory j).peerId = (s.directory j).peerId
  entries : s.registry.SameLive s'.registry
  channels : ∀ j, j ≠ i → (s.directory j).inUse → ∀ channel,
    (s'.directory j).session.interfaceForChannel channel = (s.directory j).session.interfaceForChannel channel

/-! ### What leaves the others alone -/

/-- The other peers are alike, with their channels, and so are the live entries. -/
structure Keeps (i : PeerSlot) (s s' : Broker) : Prop where
  peers : ∀ j, j ≠ i → (s.directory j).Like (s'.directory j)
  entries : s.registry.SameLive s'.registry

variable {i : PeerSlot}

theorem Keeps.undisturbed (h : Keeps i s s') : Undisturbed i s s' where
  peers j hj hjUse := ⟨(h.peers j hj).inUse.trans hjUse, (h.peers j hj).peerId⟩
  entries := h.entries
  channels j hj _ := (h.peers j hj).interfaceForChannel

theorem Keeps.trans (h : Keeps i s s') (h' : Keeps i s' s'') : Keeps i s s'' :=
  ⟨fun j hj => (h.peers j hj).trans (h'.peers j hj), h.entries.trans h'.entries⟩

theorem Alike.keeps (h : Alike s s') (i : PeerSlot) : Keeps i s s' :=
  ⟨fun j _ => (h.peers j).toLike, h.registry.sameLive⟩

/-- The agent has no interfaces. -/
def NoEntries (s : Broker) (agentPeerId : UInt32) : Prop :=
  ∀ k, (s.registry.entries k).inUse → (s.registry.entries k).agentPeerId ≠ agentPeerId

variable {agentPeerId : UInt32} {status : RegisterStatus}

theorem noEntries_iff :
    s.NoEntries agentPeerId ↔ s.registry.isPeerRegistered agentPeerId = false := by
  rw [InterfaceRegistry.isPeerRegistered, Option.isSome_eq_false_iff, Option.isNone_iff_eq_none, Table.find?_eq_none]
  refine forall_congr' fun k => ?_
  simp

theorem NoEntries.of_sameLive (h : s.NoEntries agentPeerId)
    (hlive : s.registry.SameLive s'.registry) : s'.NoEntries agentPeerId := by
  intro k hk
  have hk₀ : (s.registry.entries k).inUse := (hlive k).1 ▸ hk
  rw [(InterfaceEntry.of_face ((hlive k).2 hk₀)).2.2.1]
  exact h k hk₀

theorem failAgentTransaction_keeps (s : Broker) (i : PeerSlot) (agentPeerId : UInt32) :
    Keeps i s (s.failAgentTransaction agentPeerId) := by
  rcases s.failAgentTransaction_cases agentPeerId with ⟨_, h⟩ | ⟨t, f, _, _, _, h⟩
  · rw [h]
    exact (Alike.refl s).keeps i
  · have htold := h.chats_fixed.keeps i
    exact ⟨htold.peers, htold.entries⟩

/-- Nothing is detached from an agent without interfaces. -/
theorem detachAgent_keeps (h : s.NoEntries agentPeerId) (i : PeerSlot) :
    Keeps i s (s.detachAgent agentPeerId) := by
  have hloop : ∀ l : List EntrySlot, l.foldl (detachEntryOf agentPeerId) s = s := by
    intro l
    induction l with
    | nil => rfl
    | cons k l ih =>
      have hstep : detachEntryOf agentPeerId s k = s := if_neg fun hk => h k hk.1 hk.2
      rw [List.foldl_cons, hstep]
      exact ih
  unfold detachAgent
  rw [hloop]
  exact ⟨fun j _ => .refl _, InterfaceRegistry.removePeer_sameLive h⟩

/-- **An agent without interfaces leaves without a trace.** -/
theorem disconnectPeer_keeps (h : Stays i s) (hnone : s.NoEntries (s.directory i).peerId) :
    Keeps i s (s.disconnectPeer (s.directory i).peerId) := by
  unfold disconnectPeer
  rw [h.distinct.find_eq h.inUse]
  dsimp only
  rw [s.releasePeer_agent h.role]
  have hfail := s.failAgentTransaction_keeps i (s.directory i).peerId
  have hpeers := s.agentLost_samePeers (s.directory i).peerId
  generalize s.failAgentTransaction (s.directory i).peerId = s₁ at hfail hpeers ⊢
  have hdetach := detachAgent_keeps (hnone.of_sameLive hfail.entries) i
  generalize s₁.detachAgent (s.directory i).peerId = s₂ at hdetach hpeers ⊢
  have hpending := (s₂.releasePendingIfconfig_hushed (s.directory i).peerId).keeps i
  have hpeers₂ := hpeers.trans (s₂.releasePendingIfconfig_samePeers (s.directory i).peerId)
  generalize s₂.releasePendingIfconfig (s.directory i).peerId = s₃ at hpending hpeers₂ ⊢
  have hrelease : Keeps i s₃ (s₃.releaseSlot (s.directory i).peerId) := by
    refine ⟨fun j hj => ?_, ?_⟩
    · rcases s₃.releaseSlot_directory (s.directory i).peerId j with ⟨hfind, _⟩ | ⟨_, hsame⟩
      · have hid := (PeerDirectory.find_some hfind).2
        have hjUse := (PeerDirectory.find_some hfind).1
        rw [hpeers₂.peerId j] at hid
        rw [hpeers₂.inUse j] at hjUse
        exact absurd (h.distinct j i hjUse h.inUse hid) hj
      · rw [hsame]
        exact .refl _
    · unfold releaseSlot
      split <;> exact .refl _
  exact ((hfail.trans hdetach).trans (hpending.trans hrelease)).trans ((emit_fixed _ ⟨rfl, rfl⟩ rfl ⟨rfl, rfl⟩).keeps i)

/-- An agent that has gone has no interfaces. -/
theorem disconnectPeer_noEntries (h : Stays i s) :
    (s.disconnectPeer (s.directory i).peerId).NoEntries (s.directory i).peerId := by
  unfold disconnectPeer
  rw [h.distinct.find_eq h.inUse]
  dsimp only
  rw [s.releasePeer_agent h.role]
  generalize s.failAgentTransaction (s.directory i).peerId = s₁
  have hnone : (s₁.detachAgent (s.directory i).peerId).NoEntries (s.directory i).peerId :=
    fun k hk => s₁.detachAgent_none hk
  generalize s₁.detachAgent (s.directory i).peerId = s₂ at hnone ⊢
  have hnone₃ := hnone.of_sameLive (s₂.releasePendingIfconfig_hushed (s.directory i).peerId).registry.sameLive
  generalize s₂.releasePendingIfconfig (s.directory i).peerId = s₃ at hnone₃ ⊢
  have hsame : ((s₃.releaseSlot (s.directory i).peerId).emit (.closePeer (s.directory i).peerId)).registry = s₃.registry := by
    unfold releaseSlot
    split <;> rfl
  unfold NoEntries
  rw [hsame]
  exact hnone₃

/-! ### What a registration costs, seen before it -/

theorem collidingPeer_sameLive {r r' : InterfaceRegistry} (h : r.SameLive r') (m : RegisterMessage) :
    r'.collidingPeer m = r.collidingPeer m := by
  have hfind : r'.collision m = r.collision m := by
    refine Table.find?_congr fun k => ?_
    rw [(h k).1]
    by_cases hk : (r.entries k).inUse
    · obtain ⟨_, _, _, _, hagent, hinterface⟩ := InterfaceEntry.of_face ((h k).2 hk)
      have hnames : (r'.entries k).namesMatch m.agentName = (r.entries k).namesMatch m.agentName := by
        funext name
        simp only [InterfaceEntry.namesMatch, hagent, hinterface]
      rw [hnames]
    · simp [hk]
  unfold InterfaceRegistry.collidingPeer
  rw [hfind]
  refine Option.map_congr fun k hk => ?_
  have hcand := Table.find?_some hk
  simp only [Bool.and_eq_true] at hcand
  exact (InterfaceEntry.of_face ((h k).2 hcand.1)).2.2.1

/-- What a registration costs does not depend on the attempt that failed. -/
theorem costs_registerAgent {m : RegisterMessage} (hfail : (s.registerAgent i m).2.2 = false) :
    Costs (s.registerAgent i m).1 i m ↔ Costs s i m := by
  have hlive : s.registry.SameLive (s.registerAgent i m).1.registry := InterfaceRegistry.registerAgent_sameLive hfail
  have hdir : (s.registerAgent i m).1.directory = s.directory := rfl
  generalize (s.registerAgent i m).1 = s₁ at hlive hdir ⊢
  have hroom : s₁.registryHasRoomFor m.interfaceNames.length = s.registryHasRoomFor m.interfaceNames.length := by
    have hcount : s₁.registry.count = s.registry.count := Table.count_congr fun k => (hlive k).1
    rw [registryHasRoomFor, registryHasRoomFor, hcount]
  have hghost : ∀ ghost, IsGhost s₁ i m ghost ↔ IsGhost s i m ghost := by
    intro ghost
    have hfind : ∀ id, s₁.find id = s.find id := fun id => by rw [find, find, hdir]
    simp only [IsGhost, collidingPeer_sameLive hlive, hdir, hfind]
  simp only [Costs, hroom, hdir, hghost]

theorem attempts_status (i : PeerSlot) (m : RegisterMessage) :
    (s.attempts i m).2.1.status = .ok ↔ (s.attempts i m).2.2 = true := by
  have hone : ∀ s : Broker, (s.registerAgent i m).2.1.status = .ok ↔ (s.registerAgent i m).2.2 = true :=
    fun s => s.registry.registerAgent_status _ m
  have hretry : ∀ (attempt : Broker × RegisterAckMessage × Bool) (makeRoom : Broker → Broker × Bool),
      (attempt.2.1.status = .ok ↔ attempt.2.2 = true) →
      ((retryRegister i m attempt makeRoom).2.1.status = .ok ↔ (retryRegister i m attempt makeRoom).2.2 = true) := by
    rintro ⟨s₁, ack, registered⟩ makeRoom h
    cases registered with
    | true => exact h
    | false =>
      rw [retryRegister_again]
      split
      · exact hone _
      · exact h
  exact hretry _ _ (hretry _ _ (hone s))

/-- The status of the REGISTER_ACK that `handleRegister` sends, if it sends one. -/
def acknowledged (s : Broker) (i : PeerSlot) (m : RegisterMessage) : Option RegisterStatus :=
  if (s.directory i).role ≠ .agent ∨ m.agentName = bridgeGroupAgentName then none
  else
    match s.agentIdentityStatus i m with
    | (s, .ok) => some ((s.vouchFor i).attempts i m).2.1.status
    | (_, status) => some status

theorem acknowledged_ok {m : RegisterMessage} (h : s.acknowledged i m = some .ok) :
    (s.directory i).role = .agent ∧ m.agentName ≠ bridgeGroupAgentName ∧ (s.agentIdentityStatus i m).2 = .ok := by
  unfold acknowledged at h
  split at h
  · cases h
  next hrole =>
    push Not at hrole
    refine ⟨hrole.1, hrole.2, ?_⟩
    split at h
    next _ s' hid => rw [hid]
    next status hne hid =>
      rw [hid]
      exact Option.some.inj h

theorem attempts_peerId (h : Stays i s) (m : RegisterMessage) :
    ((s.attempts i m).1.directory i).peerId = (s.directory i).peerId := by
  obtain ⟨left, hdep, hcost⟩ := attempts_cost h m
  exact hdep.peerId fun hl => (hcost i hl).2.1 rfl

/-! ### The answer in the log -/

/-- The REGISTER_ACKs handed to the transport, and what was written to the identity store. -/
structure Silent (acks : List HubOutput) (writes : List IdentityWrite) (s : Broker) : Prop where
  acks : s.port.log.filter (·.isRegisterAck) = acks
  writes : s.port.writes = writes

section

variable {acks : List HubOutput} {writes : List IdentityWrite}

theorem Silent.mute (h : Silent acks writes s) (hm : Mute s s') : Silent acks writes s' :=
  ⟨hm.acks.trans h.acks, hm.writes.trans h.writes⟩

/-- Everything but to answer a REGISTER and to write to the identity store. -/
def Unsaid (_ : Broker) (a : Act) : Prop := a ≠ .mark .said

theorem Deals.mute (h : Deals Unsaid s s') : Mute s s' := h.goes.mute fun _ hsaid => hsaid rfl

/-- A REGISTER is answered. -/
theorem Silent.answered (h : Silent acks writes s) (i : PeerSlot) (ack : RegisterAckMessage) :
    Silent (acks ++ [.control (s.directory i).peerId (.registerAck ack) s.ask.2]) writes
      (s.sendControl i (.registerAck ack)) := by
  rw [sendControl_eq]
  exact ⟨by rw [← h.acks]; simp [sent, ask, HubOutput.isRegisterAck], h.writes⟩

/-- **`handleRegister` answers once, with the status it acknowledges**, or not at all; and only its identity check
writes to the store. -/
theorem handleRegister_silent (h : Silent acks writes s) (i : PeerSlot) (m : RegisterMessage) :
    (s.acknowledged i m = none ∧ Silent acks writes (s.handleRegister i (some m)))
      ∨ ∃ peerId ack taken, s.acknowledged i m = some ack.status ∧ (Stays i s → peerId = (s.directory i).peerId)
        ∧ (s.directory i).role = .agent ∧ m.agentName ≠ bridgeGroupAgentName
        ∧ Silent (acks ++ [.control peerId (.registerAck ack) taken]) (s.agentIdentityStatus i m).1.port.writes
          (s.handleRegister i (some m)) := by
  have hto := s.handleRegister_to (i := i) (some m)
  generalize s.handleRegister i (some m) = s' at hto ⊢
  have hquestioned (n : ℕ) (w : List IdentityWrite) : Silent acks w (s.questioned n w) := ⟨h.acks, rfl⟩
  cases hto with
  | ignored hrole => exact .inl ⟨if_pos (.inl hrole), h⟩
  | turnedAway _ hname => exact .inl ⟨if_pos (.inr (hname m rfl)), h.mute (s.turnAway_deals i _ _).mute⟩
  | @rejected _ n w status hrole hname hid hne =>
    have hanswer : s.acknowledged i m = some status := by
      unfold acknowledged
      rw [if_neg (by simp [hrole, hname]), hid]
      cases status with
      | ok => exact absurd rfl hne
      | _ => rfl
    rw [hid]
    exact .inr ⟨_, ⟨status, []⟩, _, hanswer, fun _ => rfl, hrole, hname,
      ((hquestioned n w).answered i ⟨status, []⟩).mute (rejectAgent_deals _ i m.agentName status).mute⟩
  | @tried _ n w s₁ hrole hname hid hs =>
    have hanswer : s.acknowledged i m = some (s₁.attempts i m).2.1.status := by
      unfold acknowledged
      rw [if_neg (by simp [hrole, hname]), hid, hs]
    rw [hid]
    have hvouched : Silent acks w s₁ := hs ▸ (hquestioned n w).mute (vouchFor_fixed _ i).toMute
    obtain ⟨_, _, hruns⟩ := s₁.attempts_runs (P := Unsaid) hname (fun h : False => h.elim)
    have htried := hvouched.mute (hruns.passes.mute fun _ hsaid => hsaid rfl)
    have hsent := htried.answered i (s₁.attempts i m).2.1
    refine .inr ⟨_, _, _, hanswer, fun hstays => ?_, hrole, hname, hsent.mute (acknowledge_deals _ i m _ _ ?_).mute⟩
    swap
    · exact fun _ _ _ _ _ _ _ _ _ _ => nofun
    rw [hs, attempts_peerId (vouchFor_stays (hstays.questioned n w)), vouchFor_self]
    rfl

end

section

variable {t : HubTurn} {peerId : UInt32} {nowUs : ℕ} {m : RegisterMessage}

theorem step_control {msg : ControlMessage} (ht : t.event = .control peerId msg nowUs) :
    s.step t = (s.find peerId).elim { s with port := t.port, nowUs }
      fun i => ({ s with port := t.port, nowUs }.handleControl i msg).dropIfSendFailed peerId := by
  rw [step, ht, handle]
  exact onPeerControl_eq ..

/-- What a turn with a REGISTER answers and writes. -/
theorem step_register_silent (ht : t.event = .control peerId (.register (some m)) nowUs) (hfind : s.find peerId = some i) :
    ({ s with port := t.port, nowUs }.acknowledged i m = none ∧ Silent [] [] (s.step t))
      ∨ ∃ id ack taken, { s with port := t.port, nowUs }.acknowledged i m = some ack.status
        ∧ (DistinctPeers s → id = peerId) ∧ (s.directory i).role = .agent ∧ m.agentName ≠ bridgeGroupAgentName
        ∧ Silent [.control id (.registerAck ack) taken]
          ({ s with port := t.port, nowUs }.agentIdentityStatus i m).1.port.writes (s.step t) := by
  obtain ⟨hi, rfl⟩ := PeerDirectory.find_some hfind
  generalize hs₀ : ({ s with port := t.port, nowUs } : Broker) = s₀
  have hdir : s₀.directory = s.directory := by rw [← hs₀]
  have hsilent : Silent [] [] s₀ := by
    rw [← hs₀]
    exact ⟨rfl, rfl⟩
  have hstep : s.step t = (s₀.handleRegister i (some m)).dropIfSendFailed (s.directory i).peerId := by
    rw [step_control ht, hfind, hs₀]
    rfl
  rw [hstep]
  rcases handleRegister_silent hsilent i m with ⟨hack, h⟩ | ⟨id, ack, taken, hack, hid, hrole, hname, h⟩
  · exact .inl ⟨hack, h.mute (dropIfSendFailed_deals _ _).mute⟩
  · refine .inr ⟨id, ack, taken, hack, fun hd => ?_, hdir ▸ hrole, hname, h.mute (dropIfSendFailed_deals _ _).mute⟩
    rw [hid ⟨fun j k => by rw [hdir]; exact hd j k, by rw [hdir]; exact hi, hrole⟩, hdir]

/-- The peer is handed a REGISTER_ACK with the status in the turn. -/
def Acknowledges (s : Broker) (t : HubTurn) (peerId : UInt32) (status : RegisterStatus) : Prop :=
  ∃ ack taken, .control peerId (.registerAck ack) taken ∈ (s.step t).port.log ∧ ack.status = status

theorem Silent.mem_acks {acks : List HubOutput} {writes : List IdentityWrite} (h : Silent acks writes s)
    (ack : RegisterAckMessage) (taken : Bool) :
    .control peerId (.registerAck ack) taken ∈ s.port.log ↔ .control peerId (.registerAck ack) taken ∈ acks := by
  rw [← h.acks, List.mem_filter]
  exact (and_iff_left rfl).symm

/-- **The answer in the log is the one `handleRegister` acknowledges.** -/
theorem Acknowledges.acknowledged (ht : t.event = .control peerId (.register (some m)) nowUs)
    (hfind : s.find peerId = some i) (h : s.Acknowledges t peerId status) :
    { s with port := t.port, nowUs }.acknowledged i m = some status := by
  obtain ⟨ack, taken, hmem, rfl⟩ := h
  rcases step_register_silent ht hfind with ⟨_, h⟩ | ⟨id, ack', taken', hack, _, _, _, h⟩
  · rw [h.mem_acks] at hmem
    cases hmem
  · rw [h.mem_acks, List.mem_singleton] at hmem
    cases hmem
    exact hack

theorem acknowledges_iff (hd : DistinctPeers s)
    (ht : t.event = .control peerId (.register (some m)) nowUs) (hfind : s.find peerId = some i) :
    s.Acknowledges t peerId status ↔ { s with port := t.port, nowUs }.acknowledged i m = some status := by
  refine ⟨fun h => h.acknowledged ht hfind, fun hstatus => ?_⟩
  rcases step_register_silent ht hfind with ⟨hack, _⟩ | ⟨id, ack, taken, hack, hid, _, _, h⟩
  · rw [hack] at hstatus
    cases hstatus
  · refine ⟨ack, taken, ?_, Option.some.inj (hack.symm.trans hstatus)⟩
    rw [h.mem_acks, hid hd]
    exact List.mem_singleton_self _

end

/-! ### A rejected REGISTER -/

theorem rejectAgent_disconnects (s : Broker) (i : PeerSlot) (agentName : Text) (status : RegisterStatus) :
    ∃ s₁, s.rejectAgent i agentName status = s₁.disconnectPeer (s.directory i).peerId ∧ Alike s s₁ ∧ SamePeers s s₁ := by
  have hsent := s.sendControl_sends i (.registerAck ⟨status, []⟩)
  have halike := s.sendControl_alike i (.registerAck ⟨status, []⟩)
  have hsame := hsent.samePeers
  unfold rejectAgent
  generalize s.sendControl i (.registerAck ⟨status, []⟩) = s₁ at halike hsame ⊢
  have hturn : ∀ (s₂ : Broker) (code : ErrorCode) (detail : String), Alike s₁ s₂ → s₂.directory = s₁.directory →
      ∃ s₃, s₂.turnAway i code detail = s₃.disconnectPeer (s.directory i).peerId ∧ Alike s s₃ ∧ SamePeers s s₃ := by
    intro s₂ code detail halike₂ hdir
    have hid : (s₂.directory i).peerId = (s.directory i).peerId := by
      rw [hdir]
      exact hsame.peerId i
    have htold := s₂.sendError_sends (s₂.directory i).peerId code detail
    refine ⟨s₂.sendError (s₂.directory i).peerId code detail, ?_, ?_, fun j => ?_⟩
    · exact congrArg (disconnectPeer _) ((htold.samePeers.peerId i).trans hid)
    · exact (halike.trans halike₂).trans htold.chats_fixed.toAlike
    · exact (htold.samePeers j).trans ((congrArg (fun d => identity (d j)) hdir).trans (hsame j))
  split
  · exact hturn _ _ _ (s₁.rejectedPeers_fixed _).toAlike rfl
  · exact hturn _ _ _ (s₁.rejectedPeers_fixed _).toAlike rfl
  · exact hturn _ _ _ (.refl s₁) rfl

/-- A rejected REGISTER ends with the disconnection of its agent. Before that nothing happened but to those it cost
their place, and if it cost nobody, nothing at all. -/
theorem handleRegister_disconnects (h : Stays i s) {m : RegisterMessage}
    (hack : s.acknowledged i m = some status) (hne : status ≠ .ok) :
    ∃ (s₁ : Broker) (left : Set PeerSlot), s.handleRegister i (some m) = s₁.disconnectPeer (s.directory i).peerId
      ∧ Stays i s₁ ∧ (s₁.directory i).peerId = (s.directory i).peerId
      ∧ (∀ j ∈ left, j ≠ i ∧ (s.directory j).inUse ∧ (s₁.directory j).inUse = false)
      ∧ (left.Nonempty ↔ (s.agentIdentityStatus i m).2 = .ok ∧ Costs ((s.agentIdentityStatus i m).1.vouchFor i) i m)
      ∧ (left = ∅ → Keeps i s s₁) := by
  unfold acknowledged at hack
  have hto := s.handleRegister_to (i := i) (some m)
  generalize s.handleRegister i (some m) = s' at hto ⊢
  cases hto with
  | ignored hrole => exact absurd h.role hrole
  | turnedAway _ hname =>
    rw [if_pos (.inr (hname m rfl))] at hack
    cases hack
  | @rejected _ n w answer hrole hname hid hok =>
    obtain ⟨s₂, heq, halike, hsame⟩ := (s.questioned n w).rejectAgent_disconnects i m.agentName answer
    refine ⟨s₂, ∅, heq, ⟨hsame.distinctPeers h.distinct, (hsame.inUse i).trans h.inUse, (hsame.role i).trans hrole⟩,
      hsame.peerId i, fun _ hj => hj.elim, ?_, fun _ => ((s.questioned_alike n w).trans halike).keeps i⟩
    rw [hid]
    exact iff_of_false Set.not_nonempty_empty fun hc => hok hc.1
  | @tried _ n w s₂ hrole hname hid hs =>
    rw [if_neg (by simp [hrole, hname]), hid] at hack
    rw [hid]
    dsimp only at hack ⊢
    rw [← hs] at hack ⊢
    have hstays : Stays i s₂ := hs ▸ vouchFor_stays (h.questioned n w)
    have hother : ∀ j, j ≠ i → s₂.directory j = s.directory j := fun j hj => by
      rw [hs, vouchFor_other _ hj]
      rfl
    have hself : (s₂.directory i).peerId = (s.directory i).peerId := by
      rw [hs, vouchFor_self]
      rfl
    have hvouched : Keeps i s s₂ := by
      refine ⟨fun j hj => by rw [hother j hj]; exact .refl _, ?_⟩
      rw [hs]
      exact ((s.questioned_alike n w).trans (vouchFor_fixed _ i).toAlike).registry.sameLive
    have hfail : (s₂.attempts i m).2.2 = false := by
      have hstatus : (s₂.attempts i m).2.1.status ≠ .ok := by
        intro he
        exact hne ((Option.some.inj hack).symm.trans he)
      rw [Ne, attempts_status] at hstatus
      simpa using hstatus
    have hfirst : (s₂.registerAgent i m).2.2 = false := by
      cases hreg : (s₂.registerAgent i m).2.2 with
      | false => rfl
      | true =>
        rw [attempts_of_registered hreg, hreg] at hfail
        cases hfail
    obtain ⟨left, hdep, hcost, hsome, hnone⟩ := attempts_departs hstays m hfirst
    have hsent := (s₂.attempts i m).1.sendControl_sends i (.registerAck (s₂.attempts i m).2.1)
    have hi : i ∉ left := fun hl => (hcost i hl).2.1 rfl
    have hstays₃ : Stays i (s₂.attempts i m).1 := ⟨hdep.distinctPeers hstays.distinct, (hdep.inUse hi).trans hstays.inUse,
      (congrArg HubPeer.role (hdep.stay i hi) :).trans hstays.role⟩
    have hid₃ : ((s₂.attempts i m).1.directory i).peerId = (s.directory i).peerId := (hdep.peerId hi).trans hself
    have hsame := hsent.samePeers
    refine ⟨(s₂.attempts i m).1.sendControl i (.registerAck (s₂.attempts i m).2.1), left, ?_,
      ⟨hsame.distinctPeers hstays₃.distinct, (hsame.inUse i).trans hstays₃.inUse, (hsame.role i).trans hstays₃.role⟩,
      (hsame.peerId i).trans hid₃, fun j hj => ?_, ?_, fun hempty => ?_⟩
    · unfold acknowledge
      rw [hfail, Bool.not_false, if_pos rfl, (hsame.peerId i).trans hid₃]
    · obtain ⟨hjUse, hji, -⟩ := hcost j hj
      rw [hother j hji] at hjUse
      exact ⟨hji, hjUse, (hsame.inUse j).trans (hdep.gone j hj)⟩
    · rw [hsome, costs_registerAgent hfirst]
      simp
    · have hattempt : Keeps i s₂ (s₂.attempts i m).1 := by
        rw [hnone hempty]
        exact ⟨fun _ _ => .refl _, InterfaceRegistry.registerAgent_sameLive hfirst⟩
      exact (hvouched.trans hattempt).trans ((sendControl_alike _ i _).keeps i)

/-- **A registration rejected in the end disturbs nobody** exactly where the agent had nothing registered and, if the
stores accept its identity, no earlier connection of it is in the way and no agent has to make room. -/
theorem rejected_undisturbed_iff {t : HubTurn} {peerId : UInt32} {nowUs : ℕ} {i : PeerSlot} {m : RegisterMessage}
    (hd : DistinctPeers s) (ht : t.event = .control peerId (.register (some m)) nowUs)
    (hfind : s.find peerId = some i)
    (hanswer : s.Acknowledges t peerId status) (hne : status ≠ .ok) :
    Undisturbed i s (s.step t) ↔ s.registry.isPeerRegistered peerId = false
      ∧ (({ s with port := t.port, nowUs }.agentIdentityStatus i m).2 = .ok →
        ¬ Costs (({ s with port := t.port, nowUs }.agentIdentityStatus i m).1.vouchFor i) i m) := by
  have hack := hanswer.acknowledged ht hfind
  obtain ⟨hi, rfl⟩ := PeerDirectory.find_some hfind
  generalize hs₀ : ({ s with port := t.port, nowUs } : Broker) = s₀ at hack ⊢
  have hdir : s₀.directory = s.directory := by rw [← hs₀]
  have hreg : s₀.registry = s.registry := by rw [← hs₀]
  have hrole : (s₀.directory i).role = .agent := by
    by_contra hrole
    unfold acknowledged at hack
    rw [if_pos (.inl hrole)] at hack
    cases hack
  have hstays : Stays i s₀ := ⟨fun j k => by rw [hdir]; exact hd j k, by rw [hdir]; exact hi, hrole⟩
  obtain ⟨s₁, left, heq, hstays₁, hid₁, hleft, hsome, hkeeps⟩ := handleRegister_disconnects hstays hack hne
  have hgone : Departs {i} s₁ (s₁.disconnectPeer (s₁.directory i).peerId) :=
    disconnectPeer_departs hstays₁.distinct hstays₁.inUse
  -- The agent is gone, so that nothing more happens.
  have hstep : s.step t = s₁.disconnectPeer (s₁.directory i).peerId := by
    rw [step_control ht, hfind, hs₀, Option.elim_some, handleControl, heq, hdir, dropIfSendFailed, ← hdir, ← hid₁]
    have hnobody : (s₁.disconnectPeer (s₁.directory i).peerId).find (s₁.directory i).peerId = none := by
      refine Table.find?_eq_none.mpr fun j => ?_
      by_contra hj
      simp only [Bool.not_eq_false, Bool.and_eq_true, beq_iff_eq] at hj
      have hji : j ∉ ({i} : Set PeerSlot) := hgone.back hj.1
      rw [hgone.inUse hji, hgone.peerId hji] at hj
      exact hji (hstays₁.distinct j i hj.1 hstays₁.inUse hj.2)
    rw [hnobody]
  rw [hstep]
  constructor
  · intro hundisturbed
    refine ⟨?_, fun hok hcosts => ?_⟩
    · rw [← noEntries_iff]
      have hnone := disconnectPeer_noEntries hstays₁
      intro k hk
      have hface := InterfaceEntry.of_face ((hundisturbed.entries k).2 hk)
      have hk' : ((s₁.disconnectPeer (s₁.directory i).peerId).registry.entries k).inUse := hface.1.trans hk
      rw [← hface.2.2.1, ← hdir, ← hid₁]
      exact hnone k hk'
    · obtain ⟨j, hj⟩ := hsome.mpr ⟨hok, hcosts⟩
      obtain ⟨hji, hjUse, hjGone⟩ := hleft j hj
      have hstill := (hundisturbed.peers j hji (hdir ▸ hjUse)).1
      rw [hgone.inUse hji, hjGone] at hstill
      cases hstill
  · rintro ⟨hfree, hquiet⟩
    have hempty : left = ∅ := by
      rw [← Set.not_nonempty_iff_eq_empty, hsome]
      exact fun h => hquiet h.1 h.2
    have hkept := hkeeps hempty
    have hnone : s₁.NoEntries (s₁.directory i).peerId := by
      rw [hid₁, hdir]
      refine NoEntries.of_sameLive ?_ hkept.entries
      rw [noEntries_iff, hreg]
      exact hfree
    have hall := (hkept.trans (disconnectPeer_keeps hstays₁ hnone)).undisturbed
    exact ⟨hdir ▸ hall.peers, hreg ▸ hall.entries, hdir ▸ hall.channels⟩

/-- An agent comes by tcp from a host. -/
def remoteAgentComes (peerId : UInt32) (host : Text) : List HubTurn :=
  [{ event := .connected peerId { transportKind := .tcp, originHost := some host } 0 },
   { event := .control peerId (.hello (some { role := .agent })) 0 }]

/-- Interfaces of one agent: the first, the second, and both. -/
def registersFirst : RegisterMessage := { agentName := [1], interfaceNames := [[1]] }
def registersSecond : RegisterMessage := { agentName := [1], interfaceNames := [[2]] }
def registersBoth : RegisterMessage := { agentName := [1], interfaceNames := [[1], [2]] }

/-- Two agents of one name, each with an interface of its own: one at the hub's host, one elsewhere. -/
def namesakes : List HubTurn :=
  agentJoins 1 registersFirst ++ remoteAgentComes 2 [5] ++ [{ event := .control 2 (.register (some registersSecond)) 0 }]

/-- An agent from a third host has come. -/
def strangerCame : Broker := small.run (namesakes ++ remoteAgentComes 3 [6])

/-- It asks for an interface another has. -/
def strangerAsks : HubTurn := { event := .control 3 (.register (some registersFirst)) 0 }

/-- The hub when it has asked who the stranger is. -/
def strangerMarked : Broker :=
  ({ strangerCame with port := strangerAsks.port, nowUs := 0 }.agentIdentityStatus 2 registersFirst).1.vouchFor 2

set_option maxRecDepth 100000 in
theorem strangerCame_facts : Run.Along Broker.step FreshId small (namesakes ++ remoteAgentComes 3 [6])
    ∧ strangerCame.find 3 = some 2
    ∧ { strangerCame with port := strangerAsks.port, nowUs := 0 }.acknowledged 2 registersFirst = some .rejected
    ∧ strangerCame.registry.isPeerRegistered 3 = false
    ∧ strangerMarked.registry.collidingPeer registersFirst = some 1 ∧ strangerMarked.find 1 = some 0
    ∧ (strangerMarked.directory 2).isSameAgent (strangerMarked.directory 0) = false
    ∧ (strangerMarked.directory 2).vouched = false := by
  decide +kernel

/-- The stranger is rejected, and nobody is disturbed. -/
theorem rejected_undisturbed_stranger : strangerCame.Acknowledges strangerAsks 3 .rejected
      ∧ Undisturbed 2 strangerCame (strangerCame.step strangerAsks) := by
  obtain ⟨hfresh, hfind, hack, hfree, hcoll, hother, hsame, hvouched⟩ := strangerCame_facts
  have hd : DistinctPeers strangerCame := (DistinctPeers.init _ _ _ _).run hfresh
  have hquiet : ¬ Costs strangerMarked 2 registersFirst := by
    rintro (⟨ghost, id, hid, -, hghost, hagent⟩ | ⟨hv, -⟩)
    · cases hcoll.symm.trans hid
      cases hother.symm.trans hghost
      rw [hsame] at hagent
      cases hagent
    · rw [hvouched] at hv
      cases hv
  have hanswer : strangerCame.Acknowledges strangerAsks 3 .rejected := (acknowledges_iff hd rfl hfind).mpr hack
  exact ⟨hanswer, (rejected_undisturbed_iff hd rfl hfind hanswer (by simp)).mpr ⟨hfree, fun _ => hquiet⟩⟩

/-- The first agent comes back before its link is known to be dead. -/
def firstComesBack : List HubTurn :=
  [{ event := .connected 3 { isLocal := true } 0 }, { event := .control 3 (.hello (some { role := .agent })) 0 }]

def firstCameBack : Broker := small.run (namesakes ++ firstComesBack)

/-- It asks for both interfaces. -/
def firstAsks : HubTurn := { event := .control 3 (.register (some registersBoth)) 0 }

set_option maxRecDepth 100000 in
/-- **A rejected registration costs a connection**: the agent's earlier one makes way, and then the other agent of its
name does not. -/
theorem rejected_disturbs : firstCameBack.Acknowledges firstAsks 3 .rejected
      ∧ ¬ Undisturbed 2 firstCameBack (firstCameBack.step firstAsks) := by
  have hfacts : Run.Along Broker.step FreshId small (namesakes ++ firstComesBack) ∧ firstCameBack.find 3 = some 2
      ∧ { firstCameBack with port := firstAsks.port, nowUs := 0 }.acknowledged 2 registersBoth = some .rejected
      ∧ (firstCameBack.directory 0).inUse ∧ ((firstCameBack.step firstAsks).directory 0).inUse = false := by
    decide +kernel
  obtain ⟨hfresh, hfind, hack, hghost, hgone⟩ := hfacts
  have hd : DistinctPeers firstCameBack := (DistinctPeers.init _ _ _ _).run hfresh
  refine ⟨(acknowledges_iff hd rfl hfind).mpr hack, fun h => ?_⟩
  have hstill := (h.peers 0 (by decide) hghost).1
  rw [hgone] at hstill
  cases hstill

end Broker
end CanHub
