/-
# Every interface has its agent

An entry of the registry that is no group's names an agent that is in the directory, and
no two entries name one channel of one agent (`Staffed`). Unlike the agreement of all
books (`Sound`), this does not depend on interface ids being unique, so that it holds in
every run, however many ids were handed out.

An agent's interfaces are registered at once and stay until the agent leaves
(`Quiet.keeps`); a registration adds interfaces of the agent that registers and
changes no other (`InterfaceRegistry.Registration`). So in every run an interface keeps
its entry as long as its agent is connected (`interfaces_staffed`).
-/
import CanHub.Hub.Trails

namespace CanHub

open InterfaceRegistry InterfaceEntry

/-! ### Registrations -/

namespace InterfaceRegistry

/-- The entries of the agent are on channels of their own. -/
def OwnChannels (r : InterfaceRegistry) (agentPeerId : UInt32) : Prop :=
  ∀ k l, (r.entries k).inUse → (r.entries l).inUse → (r.entries k).agentPeerId = agentPeerId →
    (r.entries l).agentPeerId = agentPeerId → (r.entries k).agentChannel = (r.entries l).agentChannel → k = l

/-- What a registration of the agent does: the others' entries stay, and what is added is the agent's. -/
structure Registration (agentPeerId : UInt32) (r r' : InterfaceRegistry) : Prop where
  kept : ∀ k, (r.entries k).inUse → (r.entries k).agentPeerId ≠ agentPeerId → r'.entries k = r.entries k
  added : ∀ k, (r'.entries k).inUse → (r'.entries k).agentPeerId ≠ agentPeerId → r'.entries k = r.entries k
  channels : r'.OwnChannels agentPeerId

/-- The loop over the interfaces of a registration, once the first `i` have their channels. -/
theorem registerInterfaces_registration (agentPeerId : UInt32) (m : RegisterMessage) (names : List Text)
    (r : InterfaceRegistry) (i : ℕ) (hown : r.OwnChannels agentPeerId)
    (hlow : r.FirstChannels agentPeerId i)
    (hfits : i + r.entries.count (!·.inUse) ≤ interfaceRegistryMax) :
    Registration agentPeerId r (r.registerInterfaces agentPeerId m i names).1 := by
  fun_induction registerInterfaces r agentPeerId m i names with
  | case1 => exact ⟨fun _ _ _ => rfl, fun _ _ _ => rfl, hown⟩
  | case2 =>
    refine ⟨fun k _ hne => removePeer_other hne, fun k hk _ => removePeer_same hk, fun k l hk _ hka _ _ => ?_⟩
    -- everything the agent has got goes again
    rw [removePeer_same hk] at hka
    exact absurd hka (removePeer_gone hk)
  | case3 r i name names k hfree ih =>
    have hk := findFreeEntry_some hfree
    have hcount := assign_free hk (f := fun id e => e.registered id agentPeerId m i name) rfl
    have hi : i < 2 ^ 8 := by
      simp only [interfaceRegistryMax] at hfits
      omega
    have hlow₁ := hlow.assign (k := k) hi m name
    have hself := r.assign_entries_self (k := k) fun id e => e.registered id agentPeerId m i name
    have hold := fun l => r.assign_entries_of_ne (k := k) (l := l) fun id e => e.registered id agentPeerId m i name
    generalize r.assign k (fun id e => e.registered id agentPeerId m i name) = r₁ at hcount hself hold hlow₁ ih ⊢
    have hk₁ : (r₁.entries k).agentPeerId = agentPeerId := by rw [hself]; rfl
    have hown₁ : r₁.OwnChannels agentPeerId := by
      intro a b ha hb hap hbp hch
      refine Table.unrelated_of_ne (p := fun e => e.inUse && e.agentPeerId == agentPeerId)
        (R := fun e f => e.agentChannel = f.agentChannel) (fun _ _ => Eq.symm) hold (fun a b ha hb => ?_)
        (fun _ l _ hl he => ?_) a b (by simp [ha, hap]) (by simp [hb, hbp]) hch
      · simp only [Bool.and_eq_true, beq_iff_eq] at ha hb
        exact hown a b ha.1 hb.1 ha.2 hb.2
      · simp only [Bool.and_eq_true, beq_iff_eq] at hl
        rw [hself] at he
        exact hlow.ne hi hl.1 hl.2 he
    obtain ⟨hkept, hadded, hchannels⟩ := ih hown₁ hlow₁ (by omega)
    refine ⟨fun l hl hne => ?_, fun l hl hne => ?_, hchannels⟩
    · have hlk : l ≠ k := by
        rintro rfl
        rw [hk] at hl
        cases hl
      rw [← hold l hlk] at hl hne
      rw [hkept l hl hne, hold l hlk]
    · have hsame := hadded l hl hne
      have hlk : l ≠ k := by
        rintro rfl
        rw [hsame] at hne
        exact hne hk₁
      rw [hsame, hold l hlk]

/-- A registration leaves everything as it is, or the agent had no interfaces before it. -/
theorem registerAgent_registration (r : InterfaceRegistry) (agentPeerId : UInt32) (m : RegisterMessage) :
    (r.registerAgent agentPeerId m).1 = r
      ∨ (∀ k, (r.entries k).inUse → (r.entries k).agentPeerId ≠ agentPeerId)
        ∧ Registration agentPeerId r (r.registerAgent agentPeerId m).1 := by
  rcases r.registerAgent_cases agentPeerId m with ⟨_, he⟩ | ⟨hreg, _, he, _⟩
  · rw [he]
    exact .inl rfl
  have hno : ∀ k, (r.entries k).inUse → (r.entries k).agentPeerId ≠ agentPeerId := fun k => not_registered hreg
  refine .inr ⟨hno, ?_⟩
  rw [he]
  refine registerInterfaces_registration agentPeerId m m.interfaceNames r 0 ?_ (fun k hk ha => absurd ha (hno k hk)) ?_
  · intro k l hk _ hka
    exact absurd hka (hno k hk)
  · rw [Nat.zero_add]
    exact Table.count_le _ _

end InterfaceRegistry

namespace Broker

/-! ### The invariant -/

/-- The entry is an interface of an agent. -/
def Exports (s : Broker) (k : EntrySlot) : Prop :=
  (s.registry.entries k).inUse ∧ (s.registry.entries k).isVirtual = false

/-- **Every interface has its agent**, and a channel of its own. -/
structure Staffed (s : Broker) : Prop where
  distinct : DistinctPeers s
  named : ∀ i, (s.directory i).inUse → (s.directory i).peerId ≠ 0
  owned : ∀ k, s.Exports k → Present s .agent (s.registry.entries k).agentPeerId
  served : ∀ k l, s.Exports k → s.Exports l →
    (s.registry.entries k).agentPeerId = (s.registry.entries l).agentPeerId →
    (s.registry.entries k).agentChannel = (s.registry.entries l).agentChannel → k = l

variable {s s' : Broker} {P : Broker → Act → Prop}

variable {k : EntrySlot} {i : PeerSlot}

/-- The slot of an interface's agent. -/
theorem Staffed.agent (h : Staffed s) (hk : s.Exports k) (hi : (s.directory i).inUse)
    (hid : (s.directory i).peerId = (s.registry.entries k).agentPeerId) : (s.directory i).role = .agent := by
  obtain ⟨j, hj, hrole, hjd⟩ := h.owned k hk
  rw [h.distinct i j hi hj (hid.trans hjd.symm)]
  exact hrole

/-- The interface is there after the change as well. -/
def KeepsEntry (s s' : Broker) (k : EntrySlot) : Prop :=
  s'.Exports k ∧ (s'.registry.entries k).agentPeerId = (s.registry.entries k).agentPeerId
    ∧ (s'.registry.entries k).agentChannel = (s.registry.entries k).agentChannel

theorem KeepsEntry.of_face (hk : s.Exports k)
    (hf : (s'.registry.entries k).face = (s.registry.entries k).face) : KeepsEntry s s' k := by
  obtain ⟨huse, _, hagent, hchannel, _⟩ := InterfaceEntry.of_face hf
  refine ⟨⟨huse ▸ hk.1, ?_⟩, hagent, hchannel⟩
  rw [isVirtual, hagent]
  exact hk.2

theorem KeepsEntry.trans {s₁ : Broker} (h : KeepsEntry s s₁ k) (h' : KeepsEntry s₁ s' k) : KeepsEntry s s' k :=
  ⟨h'.1, h'.2.1.trans h.2.1, h'.2.2.trans h.2.2⟩

theorem Exports.of_face (hk : s'.Exports k)
    (hf : (s'.registry.entries k).face = (s.registry.entries k).face) :
    s.Exports k ∧ (s'.registry.entries k).agentPeerId = (s.registry.entries k).agentPeerId
      ∧ (s'.registry.entries k).agentChannel = (s.registry.entries k).agentChannel := by
  obtain ⟨hk', hagent, hchannel⟩ := KeepsEntry.of_face hk hf.symm
  exact ⟨hk', hagent.symm, hchannel.symm⟩

variable (h : Staffed s)
include h

/-- Peers and interfaces may go, but no agent of an interface that is left. -/
theorem Staffed.of_back
    (hback : ∀ i, (s'.directory i).inUse → (s.directory i).inUse ∧ (s'.directory i).peerId = (s.directory i).peerId)
    (hentries : ∀ k, s'.Exports k → (s'.registry.entries k).face = (s.registry.entries k).face)
    (hagents : ∀ k, s'.Exports k → ∀ j, (s.directory j).inUse → (s.directory j).role = .agent →
      (s.directory j).peerId = (s.registry.entries k).agentPeerId →
      (s'.directory j).inUse ∧ (s'.directory j).role = .agent ∧ (s'.directory j).peerId = (s.directory j).peerId) :
    Staffed s' := by
  refine ⟨h.distinct.of_back hback, fun i hi => ?_, fun k hk => ?_, fun k l hk hl hagent hchannel => ?_⟩
  · obtain ⟨huse, hid⟩ := hback i hi
    rw [hid]
    exact h.named i huse
  · obtain ⟨hk', hagent, _⟩ := hk.of_face (hentries k hk)
    obtain ⟨j, hj, hrole, hjd⟩ := h.owned k hk'
    obtain ⟨hj', hrole', hid⟩ := hagents k hk j hj hrole hjd
    exact ⟨j, hj', hrole', hid.trans (hjd.trans hagent.symm)⟩
  · obtain ⟨hk', hka, hkc⟩ := hk.of_face (hentries k hk)
    obtain ⟨hl', hla, hlc⟩ := hl.of_face (hentries l hl)
    exact h.served k l hk' hl' (hka.symm.trans (hagent.trans hla)) (hkc.symm.trans (hchannel.trans hlc))

/-- The peers stay, and the interfaces are among those there were. -/
theorem Staffed.of_same
    (hpeers : ∀ i, (s'.directory i).inUse = (s.directory i).inUse ∧ (s'.directory i).peerId = (s.directory i).peerId
      ∧ ((s'.directory i).role = (s.directory i).role ∨ (s.directory i).role = .unknown))
    (hentries : ∀ k, (s'.registry.entries k).inUse →
      (s'.registry.entries k).face = (s.registry.entries k).face) : Staffed s' := by
  refine h.of_back (fun i hi => ⟨(hpeers i).1.symm.trans hi, (hpeers i).2.1⟩) (fun k hk => hentries k hk.1)
    fun _ _ j hj hrole _ => ?_
  obtain ⟨huse, hid, hsame⟩ := hpeers j
  refine ⟨huse.trans hj, ?_, hid⟩
  rcases hsame with hsame | hunknown
  · exact hsame.trans hrole
  · rw [hrole] at hunknown
    cases hunknown

theorem Staffed.like (hl : Like s s') : Staffed s' :=
  h.of_same (fun i => ⟨(hl.peers i).inUse, (hl.peers i).peerId, .inl (hl.peers i).role⟩)
    fun k _ => hl.registry.entries k

/-- A peer that leaves: an agent takes its interfaces along. -/
theorem Staffed.leave (hl : Leave s s') : Staffed s' := by
  have hentries := hl.sameEntries
  refine h.of_back (fun i hi => ?_) (fun k hk => (hentries k hk.1).1) fun k hk j hj hrole hjd => ?_
  · rcases hl.peers i with hgone | ⟨huse, hid, _⟩
    · rw [hgone] at hi
      cases hi
    · exact ⟨huse ▸ hi, hid⟩
  rcases hl.peers j with hgone | ⟨huse, hid, hsame⟩
  swap
  · exact ⟨huse.trans hj, hsame.trans hrole, hid⟩
  -- The agent of an interface that is left is not the one that leaves.
  exfalso
  cases hl with
  | @released i hi hagent _ _ =>
    rcases s.releaseSlot_directory (s.directory i).peerId j with ⟨hfind, _⟩ | ⟨_, hold⟩
    · have hij : i = j := h.distinct i j hi hj (PeerDirectory.find_some hfind).2.symm
      rw [hij] at hagent
      exact hagent hrole
    · rw [hold] at hgone
      rw [hgone] at hj
      cases hj
  | @agentLeft i hi hrole' =>
    have hsteady := s.releasePeer_agent_registry hrole'
    obtain ⟨huse, _⟩ := of_face (hsteady.entries k)
    have hkuse := hk.1
    rw [huse] at hkuse
    have hne : (s.directory i).peerId ≠ (s.registry.entries k).agentPeerId := by
      intro he
      simp only [removePeer, map] at hkuse
      rw [if_pos ⟨(hk.of_face (hentries k hk.1).1).1.1, he.symm⟩] at hkuse
      cases hkuse
    obtain ⟨s₁, hsame, _, hs₁⟩ := s.releasePeer_eq i
    rw [hs₁] at hgone
    rcases s₁.releaseSlot_directory (s.directory i).peerId j with ⟨hfind, _⟩ | ⟨_, hold⟩
    · have hid := (PeerDirectory.find_some hfind).2
      rw [hsame.peerId] at hid
      exact hne (hid.symm.trans hjd)
    · rw [hold] at hgone
      have hj' : (s₁.directory j).inUse := (hsame.inUse j).trans hj
      rw [hgone] at hj'
      cases hj'

/-- An agent that is there registers. -/
theorem Staffed.registerAgent (hi : (s.directory i).inUse)
    (hrole : (s.directory i).role = .agent) (m : RegisterMessage) : Staffed (s.registerAgent i m).1 := by
  have heq : (s.registerAgent i m).1
      = { s with registry := (s.registry.registerAgent (s.directory i).peerId m).1 } := rfl
  rw [heq]
  rcases s.registry.registerAgent_registration (s.directory i).peerId m with hsame | ⟨hno, hkept, hadded, hown⟩
  · rw [hsame]
    exact h
  generalize (s.registry.registerAgent (s.directory i).peerId m).1 = r at hkept hadded hown
  have hold : ∀ k, Exports { s with registry := r } k → (r.entries k).agentPeerId ≠ (s.directory i).peerId →
      s.Exports k ∧ r.entries k = s.registry.entries k := by
    intro k hk hne
    have hsame := hadded k hk.1 hne
    exact ⟨⟨hsame ▸ hk.1, hsame ▸ hk.2⟩, hsame⟩
  refine ⟨h.distinct, h.named, fun k hk => ?_, fun k l hk hl hagent hchannel => ?_⟩
  · by_cases hne : (r.entries k).agentPeerId = (s.directory i).peerId
    · exact ⟨i, hi, hrole, hne.symm⟩
    · obtain ⟨hk', hsame⟩ := hold k hk hne
      obtain ⟨j, hj⟩ := h.owned k hk'
      exact ⟨j, by dsimp only; rw [hsame]; exact hj⟩
  · dsimp only at hagent hchannel
    by_cases hne : (r.entries k).agentPeerId = (s.directory i).peerId
    · exact hown k l hk.1 hl.1 hne (hagent.symm.trans hne) hchannel
    · obtain ⟨hk', hkr⟩ := hold k hk hne
      obtain ⟨hl', hlr⟩ := hold l hl fun he => hne (hagent.trans he)
      rw [hkr, hlr] at hagent hchannel
      exact h.served k l hk' hl' hagent hchannel

/-- An interface of the hub's own is no agent's. -/
theorem Staffed.addVirtual {name : Text} {registry : InterfaceRegistry}
    (hadd : s.registry.addVirtual bridgeGroupAgentName name = some (registry, k)) :
    Staffed { s with registry } ∧ ∀ l, Exports { s with registry } l → registry.entries l = s.registry.entries l := by
  obtain ⟨_, _, rfl⟩ := addVirtual_some hadd
  have hself := s.registry.assign_entries_self (k := k) fun id e => e.virtual id bridgeGroupAgentName name
  have hold := fun l => s.registry.assign_entries_of_ne (k := k) (l := l) fun id e => e.virtual id bridgeGroupAgentName name
  generalize (s.registry.assign k fun id e => e.virtual id bridgeGroupAgentName name) = r at hself hold
  have hsame : ∀ l, Exports { s with registry := r } l → r.entries l = s.registry.entries l := by
    intro l hl
    refine hold l ?_
    rintro rfl
    have hv := hl.2
    rw [hself] at hv
    cases hv
  exact ⟨h.of_back (fun _ hi => ⟨hi, rfl⟩) (fun l hl => congrArg face (hsame l hl)) fun _ _ _ hj hrole _ => ⟨hj, hrole, rfl⟩,
    hsame⟩

/-- A new peer, with an id nobody has. -/
theorem Staffed.connected {p : HubPeer} (hi : (s.directory i).inUse = false)
    (h0 : p.peerId ≠ 0) (hnew : ∀ j, (s.directory j).inUse → (s.directory j).peerId ≠ p.peerId) :
    Staffed (s.modifyPeer i fun _ => p) := by
  have hself : (s.modifyPeer i fun _ => p).directory i = p := modifyPeer_directory_self _
  have hold : ∀ j, j ≠ i → (s.modifyPeer i fun _ => p).directory j = s.directory j :=
    fun j hj => modifyPeer_directory_of_ne _ hj
  refine ⟨DistinctPeers.connected h.distinct hnew, fun j hj => ?_, fun k hk => ?_, h.served⟩
  · by_cases hji : j = i
    · rw [hji, hself]
      exact h0
    · rw [hold j hji] at hj ⊢
      exact h.named j hj
  · obtain ⟨j, hj, hrest⟩ := h.owned k hk
    have hji : j ≠ i := by
      rintro rfl
      rw [hi] at hj
      cases hj
    exact ⟨j, by rw [hold j hji]; exact ⟨hj, hrest⟩⟩

omit h

/-! ### What stays -/

theorem Move.keeps (hm : Move (fun s a => a.isMark ∧ P s a) s s') (hk : s.Exports k) : KeepsEntry s s' k := by
  have hsame : s'.registry = s.registry → KeepsEntry s s' k := fun h => .of_face hk (by rw [h])
  cases hm.kind with
  | alike ha => exact .of_face hk (ha.registry.entries k)
  | @acted a ha =>
    cases a with
    | mark => exact hsame rfl
    | _ => cases ha.1
  | forgotten => exact hsame rfl
  | adopted => exact hsame rfl
  | rearranged hr => exact hsame hr.registry
  | groupClosed =>
    refine .of_face hk ?_
    simp only [removeVirtual, map]
    rw [if_neg]
    rintro ⟨_, _, hv⟩
    rw [hk.2] at hv
    cases hv

theorem Staffed.leave_keeps (h : Staffed s) (hl : Leave s s') (hk : s.Exports k)
    (hi : (s'.directory i).inUse) (hid : (s'.directory i).peerId = (s.registry.entries k).agentPeerId) :
    KeepsEntry s s' k := by
  rcases hl.peers i with hgone | ⟨huse, hsame, _⟩
  · rw [hgone] at hi
    cases hi
  cases hl with
  | released => exact .of_face hk (by rw [releaseSlot_registry])
  | @agentLeft j hj hrole =>
    have hij : (s.directory j).peerId ≠ (s.registry.entries k).agentPeerId := by
      intro he
      have hji : i = j := h.distinct i j (huse ▸ hi) hj (hsame.symm.trans (hid.trans he.symm))
      subst hji
      obtain ⟨s₁, hpeers, _, hs₁⟩ := s.releasePeer_eq i
      have hfind : s₁.find (s.directory i).peerId = some i := by
        rw [← hpeers.peerId i]
        exact (hpeers.distinctPeers h.distinct).find_eq ((hpeers.inUse i).trans hj)
      rw [hs₁] at hi
      rcases s₁.releaseSlot_directory (s.directory i).peerId i with ⟨_, hgone⟩ | ⟨hnot, _⟩
      · rw [hgone] at hi
        cases hi
      · exact hnot hfind
    refine .of_face hk ((s.releasePeer_agent_registry hrole).entries k |>.trans ?_)
    simp only [removePeer, map]
    rw [if_neg]
    rintro ⟨_, he⟩
    exact hij he.symm

/-- **The interfaces of an agent that stays stay.** -/
theorem Quiet.keeps (hq : Quiet P True s s') (h : Staffed s) (hk : s.Exports k)
    (hi : (s'.directory i).inUse) (hid : (s'.directory i).peerId = (s.registry.entries k).agentPeerId) :
    KeepsEntry s s' k := by
  cases hq with
  | moved hm => exact hm.keeps hk
  | left hl => exact h.leave_keeps hl hk hi hid
  | registered hr =>
    cases hr with
    | agent hj hname hn hnext =>
      rename_i j m
      rcases s.registry.registerAgent_registration (s.directory j).peerId m with hsame | ⟨hno, hkept, _, _⟩
      · exact .of_face hk (congrArg (fun r => (r.entries k).face) hsame)
      · exact .of_face hk (congrArg face (hkept k hk.1 (hno k hk.1)))
    | group hadd =>
      obtain ⟨_, hfree, rfl⟩ := addVirtual_some hadd
      refine .of_face hk (congrArg face (Function.update_of_ne ?_ ..))
      rintro rfl
      rw [hk.1] at hfree
      cases hfree
  | connected => exact .of_face hk rfl
  | turned => exact .of_face hk rfl

/-- **An interface there is was there before a quiet change**, or its agent has just registered and had none. -/
theorem Quiet.entry (hq : Quiet P True s s') (hk : s'.Exports k) :
    ((s'.registry.entries k).face = (s.registry.entries k).face
      ∧ (s'.registry.entries k).fd = (s.registry.entries k).fd)
    ∨ ∃ j, (s.directory j).inUse ∧ (s.directory j).role = .agent
      ∧ (s'.registry.entries k).agentPeerId = (s.directory j).peerId
      ∧ ∀ l, s.Exports l → (s.registry.entries l).agentPeerId ≠ (s.directory j).peerId := by
  have heq (h : s'.registry.entries k = s.registry.entries k) := And.intro (congrArg face h) (congrArg fd h)
  cases hq with
  | moved hm => exact .inl (hm.sameEntries k hk.1)
  | left hl => exact .inl (hl.sameEntries k hk.1)
  | registered hr =>
    cases hr with
    | agent hj hname hn hnext =>
      rename_i j m
      rcases s.registry.registerAgent_registration (s.directory j).peerId m with hreg | ⟨hno, _, hadded, _⟩
      · exact .inl (heq (congrArg (fun r => r.entries k) hreg))
      · by_cases hagent : ((s.registry.registerAgent (s.directory j).peerId m).1.entries k).agentPeerId
            = (s.directory j).peerId
        · exact .inr ⟨j, (hj trivial).1, (hj trivial).2, hagent, fun l hl => hno l hl.1⟩
        · exact .inl (heq (hadded k hk.1 hagent))
    | group hadd =>
      rename_i name registry k'
      obtain ⟨_, _, rfl⟩ := addVirtual_some hadd
      refine .inl (heq (Function.update_of_ne ?_ ..))
      rintro rfl
      have hv := hk.2
      rw [assign_entries_self] at hv
      cases hv
  | connected => exact .inl (heq rfl)
  | turned => exact .inl (heq rfl)

/-! ### Trails -/

theorem Staffed.quiet (h : Staffed s) (hq : Quiet P True s s') : Staffed s' := by
  cases hq with
  | moved hm => exact h.of_same hm.peers fun k hk => (hm.sameEntries k hk).1
  | left hl => exact h.leave hl
  | registered hr =>
    cases hr with
    | agent hi => exact h.registerAgent (hi trivial).1 (hi trivial).2 _
    | group hadd => exact (h.addVirtual hadd).1
  | connected hi hnew => exact h.connected hi (hnew trivial).1 (hnew trivial).2
  | turned => exact ⟨h.distinct, h.named, h.owned, h.served⟩

theorem Staffed.trail {l : List (Broker × Option Act)} (h : Staffed s) (ht : Trail P True s l s') :
    Staffed s' ∧ ∀ x ∈ l, Staffed x.1 :=
  ht.invariant (fun s a h _ => h.like (s.perform_still a).toLike) (fun _ _ h hq => h.quiet hq) h

theorem Staffed.goes (h : Staffed s) (hg : Goes P s s') : Staffed s' := by
  obtain ⟨l, hl, -⟩ : Leads P True s s' := Goes.leads hg
  exact (h.trail hl).1

theorem Staffed.blank (config : HubConfig) (port : HubPort) : Staffed (blank config port) :=
  ⟨fun _ _ hi => (Bool.false_ne_true hi).elim, fun _ hi => (Bool.false_ne_true hi).elim,
    fun _ hk => (Bool.false_ne_true hk.1).elim, fun _ _ hk => (Bool.false_ne_true hk.1).elim⟩

theorem Staffed.init (config : HubConfig) (port : HubPort) (routes : List BridgeRoute) (groups : List BridgeGroup) :
    Staffed (Broker.init config port routes groups) := by
  obtain ⟨l, hl, -⟩ : Leads (fun _ _ => False) True (Broker.blank config port) (Broker.init config port routes groups) :=
    init_leads config port routes groups
  exact ((Staffed.blank config port).trail hl).1

theorem Staffed.step (h : Staffed s) {t : HubTurn} (hfresh : s.FreshId t) : Staffed (s.step t) := by
  obtain ⟨l, hl, -⟩ := s.step_trail (P := fun _ _ => True) t (fun _ => h.distinct) (fun _ => hfresh)
    (permits_of_all _ (fun _ _ => trivial) _)
  exact (h.trail hl).1

/-! ### Runs -/

/-- What happens to the interface of an agent that is there in the end. Nobody comes in the changes, so that the agent is
there all along. -/
theorem Goes.keeps (hg : Goes P s s') (h : Staffed s) (hk : s.Exports k) (hi : (s'.directory i).inUse)
    (hid : (s'.directory i).peerId = (s.registry.entries k).agentPeerId) : KeepsEntry s s' k := by
  induction hg using Relation.ReflTransGen.head_induction_on with
  | refl => exact .of_face hk rfl
  | @head s s₁ hstep hg ih =>
    obtain ⟨hi₁, hid₁⟩ := Goes.back hg hi
    have hkeeps : KeepsEntry s s₁ k := by
      rcases hstep with hm | hl
      · rcases hm.act_or_quiet with ⟨a, -, rfl⟩ | hq
        · exact .of_face hk ((s.perform_still a).toLike.registry.entries k)
        · exact hq.keeps hk
      · exact h.leave_keeps hl hk hi₁ (hid₁.symm.trans hid)
    exact hkeeps.trans (ih (h.goes (.single hstep)) hkeeps.1 (hid.trans hkeeps.2.1.symm))

theorem Passes.staffed {n : ℕ} (hp : Passes P True n s s') (h : Staffed s) : Staffed s' := by
  obtain ⟨l, hl, -⟩ := hp.leads
  exact (h.trail hl).1

theorem Passes.keeps {n : ℕ} (hp : Passes P True n s s') (h : Staffed s) (hk : s.Exports k) (hi : (s'.directory i).inUse)
    (hid : (s'.directory i).peerId = (s.registry.entries k).agentPeerId) : KeepsEntry s s' k := by
  induction hp with
  | goes hg => exact hg.keeps h hk hi hid
  | @register n m s s₁ s₂ s' hp hr hg ih =>
    obtain ⟨hi₂, hid₂⟩ := hg.back hi
    have hdir : s₂.directory = s₁.directory := by cases hr <;> rfl
    rw [hid₂] at hid
    have hfirst : KeepsEntry s s₁ k := ih h hk (hdir ▸ hi₂) (by rw [← hdir]; exact hid)
    have hq : Quiet P True s₁ s₂ := .registered hr
    have hmid := hq.keeps (hp.staffed h) hfirst.1 hi₂ (hid.trans hfirst.2.1.symm)
    have hlast := hg.keeps ((hp.staffed h).quiet hq) hmid.1 hi
      (hid₂.trans (hid.trans (hfirst.2.1.symm.trans hmid.2.1.symm)))
    exact (hfirst.trans hmid).trans hlast

/-- **A turn leaves the interfaces of an agent that is there afterwards.** -/
theorem Staffed.step_keeps (h : Staffed s) {t : HubTurn} (hfresh : s.FreshId t) (hk : s.Exports k)
    (hthere : ((s.step t).find (s.registry.entries k).agentPeerId).isSome) : KeepsEntry s (s.step t) k := by
  obtain ⟨i, hfound⟩ := Option.isSome_iff_exists.mp hthere
  obtain ⟨hi, hid⟩ := PeerDirectory.find_some hfound
  have hport : Staffed { s with port := t.port } := ⟨h.distinct, h.named, h.owned, h.served⟩
  by_cases hlater : HubEvent.isLater t.event
  · obtain ⟨n, hp⟩ := handle_passes_any hport.distinct hlater
    exact hp.keeps hport hk hi hid
  rcases hevent : t.event with ⟨peerId, info, nowUs⟩ | _ | _ | _ | _ | _
  case connected =>
    -- The new peer is not the agent, whose id is taken.
    obtain ⟨-, hnone⟩ := hfresh.connected peerId info nowUs hevent
    have hstep : s.step t = ({ s with port := t.port } : Broker).onPeerConnected peerId info nowUs := by
      rw [Broker.step, hevent]
      rfl
    obtain ⟨s₁, ⟨hgoes, _⟩, hcase⟩ :=
      ({ s with port := t.port } : Broker).onPeerConnected_cases (P := fun _ _ => True) peerId info nowUs
    rw [hstep] at hi hid ⊢
    rcases hcase with hcase | ⟨j, hj, hcase⟩
    · rw [hcase] at hi hid ⊢
      exact hgoes.keeps hport hk hi hid
    · rw [hcase] at hi hid ⊢
      by_cases hij : i = j
      · subst hij
        rw [modifyPeer_directory_self] at hid
        obtain ⟨a, ha, -, haid⟩ := h.owned k hk
        exact absurd (haid.trans hid.symm) (Goes.fresh (P := fun _ _ => True) .refl hnone ha)
      · rw [modifyPeer_directory_of_ne _ hij] at hi hid
        exact hgoes.keeps hport hk hi hid
  all_goals exact absurd (by rw [hevent]; rfl) hlater

/-- **Every interface has its agent, and stays while the agent stays.** In every run in which connections bring ids of
their own, an interface is one of an agent that is there, on a channel of its own; over any further turns after each of
which that agent is in the directory, it keeps its entry, its agent and its channel. -/
theorem interfaces_staffed (config : HubConfig) (port : HubPort) (routes : List BridgeRoute) (groups : List BridgeGroup)
    (turns later : List HubTurn) (hfresh : Run.Along step FreshId (init config port routes groups) (turns ++ later)) :
    Staffed ((init config port routes groups).run turns)
      ∧ ∀ k, ((init config port routes groups).run turns).Exports k →
        Run.Along step (fun s t => ((s.step t).find
          (((init config port routes groups).run turns).registry.entries k).agentPeerId).isSome)
          ((init config port routes groups).run turns) later →
        KeepsEntry ((init config port routes groups).run turns) ((init config port routes groups).run (turns ++ later)) k := by
  obtain ⟨hfirst, hlater⟩ := Run.Along.append.mp hfresh
  have hstaffed : Staffed ((init config port routes groups).run turns) :=
    hfirst.invariant (fun _ _ hs ht => hs.step ht) (Staffed.init config port routes groups)
  refine ⟨hstaffed, fun k hk hthere => ?_⟩
  have hrun : (init config port routes groups).run (turns ++ later)
      = Run.run step ((init config port routes groups).run turns) later := Run.run_append _ _ _
  rw [hrun]
  change Run.Along step FreshId ((init config port routes groups).run turns) later at hlater
  generalize (init config port routes groups).run turns = s at hstaffed hk hthere hlater
  -- Turn by turn, with the entry as it was at the beginning.
  suffices hall : ∀ (later : List HubTurn) (s₁ : Broker), Staffed s₁ → KeepsEntry s s₁ k →
      Run.Along step FreshId s₁ later →
      Run.Along step (fun s₁ t => ((s₁.step t).find (s.registry.entries k).agentPeerId).isSome) s₁ later →
      KeepsEntry s (Run.run step s₁ later) k from hall later s hstaffed (.of_face hk rfl) hlater hthere
  intro later
  induction later with
  | nil => exact fun _ _ hkeeps _ _ => hkeeps
  | cons t later ih =>
    intro s₁ hs₁ hkeeps hnew hfound
    have hturn := hs₁.step_keeps hnew.1 hkeeps.1 (by rw [hkeeps.2.1]; exact hfound.1)
    exact ih (s₁.step t) (hs₁.step hnew.1) (hkeeps.trans hturn) hnew.2 hfound.2

set_option maxRecDepth 100000 in
/-- An agent registers an interface, and keeps it while a client comes and opens it. -/
theorem interfaces_staffed_opened : (small.run (agentJoins 2 (registersOne 1 2))).Exports 0
    ∧ KeepsEntry (small.run (agentJoins 2 (registersOne 1 2)))
      (small.run (agentJoins 2 (registersOne 1 2) ++ clientJoins 3 1)) 0 := by
  have hexports : (small.run (agentJoins 2 (registersOne 1 2))).Exports 0 := by unfold Exports; decide +kernel
  have hkeeps := (interfaces_staffed _ _ _ _ (agentJoins 2 (registersOne 1 2)) (clientJoins 3 1) (by decide +kernel)).2 0
    hexports
  exact ⟨hexports, hkeeps (by decide +kernel)⟩

end Broker
end CanHub
