/-
# Who leaves when somebody comes

A connection to a full hub and a REGISTER without room can cost other peers
their place. Here is who they are: a disconnection takes one peer and leaves the
others who they are (`disconnectPeer_departs`), and so does each of
the three attempts of a REGISTER (`attempts_departs`). Peers' ids stay distinct
in every run (`DistinctPeers.run`).
-/
import CanHub.Hub.Sound

namespace CanHub

namespace HubPeer

/-- What `displacesBefore` compares: the class, and then who came last. -/
theorem displacesBefore_iff {p q : HubPeer} :
    p.displacesBefore q ↔ p.displacement.ctorIdx < q.displacement.ctorIdx
      ∨ (p.displacement = q.displacement ∧ q.connectedAtUs < p.connectedAtUs) := by
  unfold displacesBefore
  split
  · rename_i h
    simp [h]
  · rename_i h
    rw [not_not] at h
    simp [h]

theorem displacesBefore_irrefl (p : HubPeer) : p.displacesBefore p = false := by
  simp [displacesBefore]

theorem displacesBefore_trans (p q r : HubPeer) (h : p.displacesBefore q) (h' : q.displacesBefore r) :
    p.displacesBefore r := by
  rw [displacesBefore_iff] at h h' ⊢
  rcases h with h | ⟨heq, h⟩ <;> rcases h' with h' | ⟨heq', h'⟩
  · exact .inl (h.trans h')
  · exact .inl (heq' ▸ h)
  · exact .inl (heq ▸ h')
  · exact .inr ⟨heq.trans heq', h'.trans h⟩

/-- The class of the agents nobody vouches for. -/
theorem displacement_unvouchedAgent_iff {p : HubPeer} : p.displacement = .unvouchedAgent ↔
    p.isLocal = false ∧ p.fingerprintHex ≠ [] ∧ p.vouched = false ∧ p.role = .agent ∧ p.agentName ≠ [] := by
  unfold displacement isUnidentified
  split
  · rename_i h
    refine ⟨fun h' => (nomatch h'), fun ⟨hlocal, hfp, hv, _⟩ => ?_⟩
    rcases h with h | h | h
    · rw [hlocal] at h
      cases h
    · exact absurd h hfp
    · rw [hv] at h
      cases h
  rename_i h
  rw [not_or, not_or] at h
  simp only [Bool.not_eq_true] at h
  split
  · rename_i hun
    refine ⟨fun h' => (nomatch h'), fun ⟨_, _, _, hrole, hname⟩ => ?_⟩
    simp [hrole, hname] at hun
  rename_i hun
  split
  · rename_i hrole
    simp only [hrole, true_and, reduceCtorEq, false_or, decide_eq_true_eq] at hun
    exact ⟨fun _ => ⟨h.1, h.2.1, h.2.2, hrole, hun⟩, fun _ => rfl⟩
  · rename_i hrole
    refine ⟨fun h' => ?_, fun h' => absurd h'.2.2.2.1 hrole⟩
    split at h'
    · cases h'
    · split at h' <;> cases h'

/-- A peer that is never displaced: it is local, has no fingerprint or somebody vouches for it. -/
theorem displacement_never {p : HubPeer} (h : p.isLocal ∨ p.fingerprintHex = [] ∨ p.vouched) : p.displacement = .never :=
  if_pos h

end HubPeer

namespace Broker

variable {s s' s'' : Broker} {P : Broker → Act → Prop}

/-! ### Ids stay distinct -/

theorem Goes.distinctPeers (h : Goes P s s') (hd : DistinctPeers s) : DistinctPeers s' := hd.of_back fun _ => h.back

/-- An event that is no connection brings nobody. -/
theorem Passes.back {distinct : Prop} {n : ℕ} (h : Passes P distinct n s s') {i : PeerSlot} (hi : (s'.directory i).inUse) :
    (s.directory i).inUse ∧ (s'.directory i).peerId = (s.directory i).peerId := by
  induction h with
  | goes h => exact h.back hi
  | register _ hr hg ih =>
    obtain ⟨hi', hid⟩ := hg.back hi
    rw [hid]
    cases hr with
    | agent => exact ih hi'
    | group => exact ih hi'

theorem Passes.distinctPeers {distinct : Prop} {n : ℕ} (h : Passes P distinct n s s') (hd : DistinctPeers s) :
    DistinctPeers s' := hd.of_back fun _ => h.back

/-- An event that is no connection, of which nothing is asked. -/
theorem handle_passes_any (hd : DistinctPeers s) {e : HubEvent} (he : HubEvent.isLater e) :
    ∃ n, Passes (fun _ _ => True) True n s (s.handle e) := by
  obtain ⟨n, -, h⟩ := handle_passes s (P := fun _ _ => True) (fun _ : True => hd) he
    (s.permits_of_all (fun _ _ => trivial) e)
  exact ⟨n, h⟩

theorem DistinctPeers.step (hd : DistinctPeers s) {t : HubTurn} (hfresh : s.FreshId t) : DistinctPeers (s.step t) := by
  have hport : DistinctPeers { s with port := t.port } := hd
  by_cases he : HubEvent.isLater t.event
  · obtain ⟨n, hp⟩ := handle_passes_any hport he
    exact hp.distinctPeers hport
  cases ht : t.event with
  | connected peerId info nowUs =>
    simp only [FreshId, ht] at hfresh
    simp only [Broker.step, ht, handle]
    obtain ⟨s₁, ⟨hgoes, _⟩, hafter⟩ : ∃ s₁, Deals (fun _ _ => True) { s with port := t.port } s₁ ∧ _ :=
      onPeerConnected_cases _ peerId info nowUs
    have hd₁ := hgoes.distinctPeers hport
    rcases hafter with he | ⟨i, -, he⟩
    · rw [he]
      exact hd₁
    rw [he]
    exact hd₁.connected fun j => hgoes.fresh hfresh.2
  | _ => exact absurd rfl (ht ▸ he)

/-- **No two peers have one id**, in every run in which nobody connects under the id of another. -/
theorem DistinctPeers.run {turns : List HubTurn} (hd : DistinctPeers s) (hturns : Run.Along Broker.step FreshId s turns) :
    DistinctPeers (s.run turns) :=
  hturns.invariant (fun _ _ hs ht => hs.step ht) hd

theorem DistinctPeers.init (config : HubConfig) (port : HubPort) (routes : List BridgeRoute) (groups : List BridgeGroup) :
    DistinctPeers (Broker.init config port routes groups) :=
  (Sound.init config port routes groups).peers.distinct

/-! ### Peers that leave, and peers that stay -/

/-- The peers of some slots are gone, the others are who they were. -/
structure Departs (left : Set PeerSlot) (s s' : Broker) : Prop where
  gone : ∀ i ∈ left, (s'.directory i).inUse = false
  stay : ∀ i ∉ left, identity (s'.directory i) = identity (s.directory i)

namespace Departs

variable {left left' : Set PeerSlot}

variable (h : Departs left s s')
include h

theorem inUse {i : PeerSlot} (hi : i ∉ left) : (s'.directory i).inUse = (s.directory i).inUse :=
  (congrArg HubPeer.inUse (h.stay i hi) :)

theorem peerId {i : PeerSlot} (hi : i ∉ left) :
    (s'.directory i).peerId = (s.directory i).peerId :=
  (congrArg HubPeer.peerId (h.stay i hi) :)

theorem back {i : PeerSlot} (hi : (s'.directory i).inUse) : i ∉ left := by
  intro hl
  rw [h.gone i hl] at hi
  cases hi

theorem trans (h' : Departs left' s' s'') : Departs (left ∪ left') s s'' where
  gone i hi := by
    by_cases hl : i ∈ left'
    · exact h'.gone i hl
    · rw [h'.inUse hl]
      exact h.gone i (hi.resolve_right hl)
  stay i hi := (h'.stay i fun hl => hi (.inr hl)).trans (h.stay i fun hl => hi (.inl hl))

theorem distinctPeers (hd : DistinctPeers s) : DistinctPeers s' := by
  refine hd.of_back fun i hi => ?_
  have hil := h.back hi
  exact ⟨(h.inUse hil).symm.trans hi, h.peerId hil⟩

omit h in
theorem after (hs : SamePeers s s') (h : Departs left s' s'') : Departs left s s'' :=
  ⟨h.gone, fun i hi => (h.stay i hi).trans (hs i)⟩

end Departs

theorem SamePeers.departs (h : SamePeers s s') : Departs ∅ s s' where
  gone _ hi := hi.elim
  stay i _ := h i

section

variable (hd : DistinctPeers s) {i : PeerSlot} (hi : (s.directory i).inUse)
include hd hi

/-- **A disconnection takes one peer**, and leaves the others who they are. -/
theorem disconnectPeer_departs : Departs {i} s (s.disconnectPeer (s.directory i).peerId) := by
  unfold disconnectPeer
  rw [hd.find_eq hi]
  dsimp only
  obtain ⟨s₁, hsame, _, heq⟩ := s.releasePeer_eq i
  rw [heq]
  have hfind : s₁.find (s.directory i).peerId = some i := by
    have h := (hsame.distinctPeers hd).find_eq ((hsame.inUse i).trans hi)
    rw [hsame.peerId i] at h
    exact h
  refine ⟨fun j hj => ?_, fun j hj => ?_⟩
  · cases hj
    rcases s₁.releaseSlot_directory (s.directory i).peerId i with ⟨_, h⟩ | ⟨hne, _⟩
    · exact congrArg HubPeer.inUse h
    · exact absurd hfind hne
  · rcases s₁.releaseSlot_directory (s.directory i).peerId j with ⟨hfind', _⟩ | ⟨_, h⟩
    · exact absurd (Option.some.inj (hfind'.symm.trans hfind)) hj
    · exact (congrArg identity h).trans (hsame j)

theorem turnAway_departs (code : ErrorCode) (detail : String) : Departs {i} s (s.turnAway i code detail) := by
  have hsame := (s.sendError_sends (s.directory i).peerId code detail).samePeers
  have h := disconnectPeer_departs (hsame.distinctPeers hd) ((hsame.inUse i).trans hi)
  rw [hsame.peerId i] at h
  exact .after hsame h

end

/-! ### Room for interfaces -/

/-- A peer that makes room for an enrolled agent's interfaces. -/
def IsDisplaceableAgent (p : HubPeer) : Prop := p.inUse ∧ p.displacement = .unvouchedAgent

theorem isDisplaceableAgent_congr {p q : HubPeer} (h : identity p = identity q) :
    IsDisplaceableAgent p ↔ IsDisplaceableAgent q := by
  have hsame : ∀ p : HubPeer, IsDisplaceableAgent p ↔ IsDisplaceableAgent (identity p) := by
    intro p
    simp only [IsDisplaceableAgent, HubPeer.displacement_unvouchedAgent_iff]
    exact Iff.rfl
  rw [hsame p, hsame q, h]

theorem findDisplaceableAgent_some {i : PeerSlot} (h : s.directory.findDisplaceableAgent = some i) :
    IsDisplaceableAgent (s.directory i)
      ∧ ∀ j, IsDisplaceableAgent (s.directory j) → (s.directory j).connectedAtUs ≤ (s.directory i).connectedAtUs := by
  obtain ⟨hprop, hfirst⟩ := PeerDirectory.findDisplaceableAgent_spec (d := s.directory)
  refine ⟨hprop i h, fun j hj => ?_⟩
  obtain ⟨r, hr, hle⟩ := hfirst j hj
  obtain rfl : r = i := Option.some.inj (hr.symm.trans h)
  exact hle

/-- The agents that made room: nobody vouches for them, and an agent of their class that is still there came
before them. -/
def MadeRoom (s : Broker) (left : Set PeerSlot) : Prop :=
  ∀ j ∈ left, IsDisplaceableAgent (s.directory j)
    ∧ ∀ l ∉ left, IsDisplaceableAgent (s.directory l) → (s.directory l).connectedAtUs ≤ (s.directory j).connectedAtUs

theorem findDisplaceableAgent_none (h : s.directory.findDisplaceableAgent = none) (j : PeerSlot) :
    ¬ IsDisplaceableAgent (s.directory j) := by
  intro hj
  obtain ⟨r, hr, -⟩ := PeerDirectory.findDisplaceableAgent_spec.2 j hj
  rw [h] at hr
  cases hr

/-- Agents that make room after another peer has gone. -/
theorem MadeRoom.before {x : PeerSlot} {left : Set PeerSlot} (hdep : Departs {x} s s') (h : MadeRoom s' left) {j : PeerSlot}
    (hj : j ∈ left) (hjx : j ≠ x) : IsDisplaceableAgent (s.directory j) ∧ ∀ l ∉ {x} ∪ left,
      IsDisplaceableAgent (s.directory l) → (s.directory l).connectedAtUs ≤ (s.directory j).connectedAtUs := by
  have hstay : ∀ l, l ≠ x → identity (s'.directory l) = identity (s.directory l) := fun l hl => hdep.stay l hl
  have htime : ∀ l, l ≠ x → (s'.directory l).connectedAtUs = (s.directory l).connectedAtUs :=
    fun l hl => (congrArg HubPeer.connectedAtUs (hstay l hl) :)
  obtain ⟨hcand, hlast⟩ := h j hj
  refine ⟨(isDisplaceableAgent_congr (hstay j hjx)).mp hcand, fun l hl hlcand => ?_⟩
  have hlx : l ≠ x := fun h => hl (.inl h)
  have hle := hlast l (fun h => hl (.inr h)) ((isDisplaceableAgent_congr (hstay l hlx)).mpr hlcand)
  rw [htime l hlx, htime j hjx] at hle
  exact hle

/-- Who makes room in an attempt to make some, that somebody does if they are asked, and that nothing happens
otherwise. -/
def RoomFrom (s : Broker) (asked : Prop) (room : Bool) (r : Broker × Bool) : Prop :=
  ∃ left, Departs left s r.1 ∧ MadeRoom s left ∧ (left.Nonempty ↔ asked) ∧ (left = ∅ → r = (s, room))

theorem RoomFrom.nobody {asked : Prop} (h : ¬asked) (room : Bool) : RoomFrom s asked room (s, room) :=
  ⟨∅, (SamePeers.refl s).departs, fun _ hj => hj.elim, iff_of_false Set.not_nonempty_empty h, fun _ => rfl⟩

/-- The loop of `makeRoomForInterfaces` takes the agents nobody vouches for, the last to come first; it takes
somebody if there is no room and somebody to take. -/
theorem displaceAgentsFor_departs (interfaceCount peers : ℕ) (s : Broker) (hd : DistinctPeers s) :
    RoomFrom s (peers ≠ 0 ∧ s.registryHasRoomFor interfaceCount = false ∧ ∃ j, IsDisplaceableAgent (s.directory j))
      (s.registryHasRoomFor interfaceCount) (s.displaceAgentsFor interfaceCount peers) := by
  induction peers generalizing s with
  | zero => exact .nobody (by simp) _
  | succ peers ih =>
    rw [displaceAgentsFor_succ]
    by_cases hroom : s.registryHasRoomFor interfaceCount
    · rw [if_pos hroom, hroom]
      exact .nobody (by simp) _
    rw [if_neg hroom]
    rw [Bool.not_eq_true] at hroom
    cases hfind : s.directory.findDisplaceableAgent with
    | none =>
      have hnone := findDisplaceableAgent_none hfind
      rw [hroom]
      exact .nobody (by simp [hnone]) _
    | some i =>
      dsimp only
      obtain ⟨hi, hlast⟩ := findDisplaceableAgent_some hfind
      have hfirst := turnAway_departs hd hi.1 .hubFull "displaced by an enrolled agent"
      generalize s.turnAway i .hubFull "displaced by an enrolled agent" = s₁ at hfirst ⊢
      obtain ⟨left, hrest, hmade, -, -⟩ := ih s₁ (hfirst.distinctPeers hd)
      refine ⟨{i} ∪ left, hfirst.trans hrest, fun j hj => ?_, ?_, ?_⟩
      · by_cases hji : j = i
        · subst hji
          exact ⟨hi, fun l _ hl => hlast l hl⟩
        exact hmade.before hfirst (hj.resolve_left hji) hji
      · exact ⟨fun _ => ⟨Nat.succ_ne_zero _, hroom, i, hi⟩, fun _ => ⟨i, .inl rfl⟩⟩
      · intro hempty
        have hmem : i ∈ ({i} ∪ left : Set PeerSlot) := .inl rfl
        rw [hempty] at hmem
        exact hmem.elim

/-! ### The attempts of a REGISTER -/

/-- The earlier connection of the same agent that a registration collides with. -/
def IsGhost (s : Broker) (i : PeerSlot) (m : RegisterMessage) (ghost : PeerSlot) : Prop :=
  ∃ ghostPeerId, s.registry.collidingPeer m = some ghostPeerId ∧ ghostPeerId ≠ (s.directory i).peerId
    ∧ s.find ghostPeerId = some ghost ∧ (s.directory i).isSameAgent (s.directory ghost)

/-- `displaceGhostPeer` takes the ghost, if there is one. -/
theorem displaceGhostPeer_cases (i : PeerSlot) (m : RegisterMessage) :
    (s.displaceGhostPeer i m = (s, false) ∧ ∀ ghost, ¬ IsGhost s i m ghost)
      ∨ ∃ ghost, IsGhost s i m ghost
        ∧ s.displaceGhostPeer i m = (s.disconnectPeer (s.directory ghost).peerId, true) := by
  unfold displaceGhostPeer IsGhost
  cases hcoll : s.registry.collidingPeer m with
  | none => exact .inl ⟨rfl, fun _ ⟨_, h, _⟩ => (nomatch h)⟩
  | some ghostPeerId =>
    dsimp only
    by_cases hself : ghostPeerId = (s.directory i).peerId
    · rw [if_pos hself]
      exact .inl ⟨rfl, fun _ ⟨_, h, hne, _⟩ => hne (Option.some.inj h ▸ hself)⟩
    rw [if_neg hself]
    cases hfind : s.find ghostPeerId with
    | none =>
      refine .inl ⟨rfl, fun _ ⟨_, h, _, hf, _⟩ => ?_⟩
      rw [← Option.some.inj h, hfind] at hf
      cases hf
    | some ghost =>
      dsimp only
      by_cases hsame : (s.directory i).isSameAgent (s.directory ghost)
      · rw [hsame]
        exact .inr ⟨ghost, ⟨ghostPeerId, rfl, hself, hfind, hsame⟩,
          by rw [(PeerDirectory.find_some hfind).2]; rfl⟩
      · rw [Bool.not_eq_true] at hsame
        rw [hsame]
        refine .inl ⟨rfl, fun _ ⟨_, h, _, hf, hs⟩ => ?_⟩
        rw [← Option.some.inj h, hfind] at hf
        rw [← Option.some.inj hf, hsame] at hs
        cases hs

/-- Whether room is made for a registration, and at whose cost. -/
theorem makeRoom_departs (hd : DistinctPeers s) (i : PeerSlot) (interfaceCount : ℕ) :
    RoomFrom s ((s.directory i).vouched ∧ s.registryHasRoomFor interfaceCount = false
        ∧ ∃ j, IsDisplaceableAgent (s.directory j)) false
      (if (s.directory i).vouched then s.makeRoomForInterfaces interfaceCount else (s, false)) := by
  by_cases hv : (s.directory i).vouched
  swap
  · rw [if_neg hv]
    exact .nobody (by simp [hv]) _
  rw [if_pos hv]
  unfold makeRoomForInterfaces
  by_cases hroom : s.registryHasRoomFor interfaceCount
  · rw [if_pos hroom]
    exact .nobody (by simp [hroom]) _
  rw [if_neg hroom]
  rw [Bool.not_eq_true] at hroom
  obtain ⟨left, hdep, hmade, hsome, hnone⟩ := displaceAgentsFor_departs interfaceCount peerDirectoryMax s hd
  refine ⟨left, hdep, hmade, ?_, fun h => by rw [hnone h, hroom]⟩
  rw [hsome]
  simp [hv]

section Retry

variable {i : PeerSlot} {m : RegisterMessage} (s₁ : Broker) (ack : RegisterAckMessage) {makeRoom : Broker → Broker × Bool}

variable {s₁} in
/-- What a retry costs is what making room for it costs. -/
theorem retryRegister_departs {left : Set PeerSlot} (hdep : Departs left s₁ (makeRoom s₁).1) :
    Departs left s₁ (retryRegister i m (s₁, ack, false) makeRoom).1 := by
  rw [retryRegister_again]
  split
  · exact ⟨hdep.gone, hdep.stay⟩
  · exact hdep

variable {s₁} in
theorem retryRegister_none (hnone : makeRoom s₁ = (s₁, false)) :
    retryRegister i m (s₁, ack, false) makeRoom = (s₁, ack, false) := by
  rw [retryRegister_again, hnone]
  rfl

end Retry

/-- Somebody loses their place to a registration that did not succeed at once. -/
def Costs (s : Broker) (i : PeerSlot) (m : RegisterMessage) : Prop :=
  (∃ ghost, IsGhost s i m ghost) ∨ ((s.directory i).vouched
    ∧ s.registryHasRoomFor m.interfaceNames.length = false ∧ ∃ j, IsDisplaceableAgent (s.directory j))

/-- The peers a registration costs their place: a ghost, and if somebody vouches for the agent the agents that
made room. -/
def Displaced (s : Broker) (i : PeerSlot) (left : Set PeerSlot) : Prop :=
  ∀ j ∈ left, (s.directory j).inUse ∧ j ≠ i ∧ ((s.directory i).isSameAgent (s.directory j)
    ∨ (s.directory i).vouched ∧ IsDisplaceableAgent (s.directory j)
      ∧ ∀ l ∉ left, IsDisplaceableAgent (s.directory l) →
        (s.directory l).connectedAtUs ≤ (s.directory j).connectedAtUs)

theorem MadeRoom.displaced {left : Set PeerSlot} {i : PeerSlot} (h : MadeRoom s left)
    (hv : left.Nonempty → (s.directory i).vouched) : Displaced s i left := by
  intro j hj
  obtain ⟨hcand, hlast⟩ := h j hj
  have hvouched := hv ⟨j, hj⟩
  refine ⟨hcand.1, ?_, .inr ⟨hvouched, hcand, hlast⟩⟩
  rintro rfl
  rw [(HubPeer.displacement_unvouchedAgent_iff.mp hcand.2).2.2.1] at hvouched
  cases hvouched

/-- Agents that make room after another peer has gone. -/
private theorem MadeRoom.after {left : Set PeerSlot} {i ghost : PeerSlot} (hi : i ≠ ghost) (hdep : Departs {ghost} s s')
    (h : MadeRoom s' left) (hv : left.Nonempty → (s'.directory i).vouched) (hghost : (s.directory ghost).inUse)
    (hsame : (s.directory i).isSameAgent (s.directory ghost)) : Displaced s i ({ghost} ∪ left) := by
  intro j hj
  by_cases hjg : j = ghost
  · subst hjg
    exact ⟨hghost, Ne.symm hi, .inl hsame⟩
  have hj' := hj.resolve_left hjg
  obtain ⟨_, hji, -⟩ := h.displaced hv j hj'
  have hroom := h.before hdep hj' hjg
  have hvouched : (s'.directory i).vouched = (s.directory i).vouched := (congrArg HubPeer.vouched (hdep.stay i hi) :)
  exact ⟨hroom.1.1, hji, .inr ⟨hvouched ▸ hv ⟨j, hj'⟩, hroom⟩⟩

/-- **Whom a registration costs their place**, when the first attempt fails; where it costs nobody there is no
other attempt. -/
theorem attempts_departs {i : PeerSlot} (h : Stays i s) (m : RegisterMessage) (hfail : (s.registerAgent i m).2.2 = false) :
    ∃ left, Departs left s (s.attempts i m).1 ∧ Displaced s i left
      ∧ (left.Nonempty ↔ Costs (s.registerAgent i m).1 i m) ∧ (left = ∅ → s.attempts i m = s.registerAgent i m) := by
  unfold attempts
  rcases hfirst : s.registerAgent i m with ⟨s₁, ack, registered⟩
  rw [hfirst] at hfail
  cases hfail
  have hdir : s₁.directory = s.directory := (congrArg (fun r => r.1.directory) hfirst).symm
  have hd₁ : DistinctPeers s₁ := by
    unfold DistinctPeers
    rw [hdir]
    exact h.distinct
  rcases displaceGhostPeer_cases (s := s₁) i m with ⟨hghost, hnone⟩ | ⟨ghost, hghost, hdisplaced⟩
  · have hsecond : retryRegister i m (s₁, ack, false) (fun s => s.displaceGhostPeer i m) = (s₁, ack, false) :=
      retryRegister_none ack hghost
    rw [hsecond]
    obtain ⟨left, hdep, hmade, hsome, hempty⟩ := makeRoom_departs hd₁ i m.interfaceNames.length
    have hthird : Departs left s₁ (retryRegister i m (s₁, ack, false) fun s => if (s.directory i).vouched then
      s.makeRoomForInterfaces m.interfaceNames.length else (s, false)).1 := retryRegister_departs ack hdep
    have hcost : Displaced s₁ i left := hmade.displaced fun hl => (hsome.mp hl).1
    refine ⟨left, ⟨hthird.gone, hdir ▸ hthird.stay⟩, ?_, ?_, fun hl => retryRegister_none ack (hempty hl)⟩
    · unfold Displaced
      rw [← hdir]
      exact hcost
    · rw [hsome]
      exact ⟨.inr, fun hc => hc.resolve_left fun ⟨g, hg⟩ => hnone g hg⟩
  -- The ghost goes, and then perhaps others.
  have hcosts : Costs s₁ i m := .inl ⟨ghost, hghost⟩
  obtain ⟨ghostPeerId, -, hne, hfind, hsame⟩ := hghost
  obtain ⟨hgUse, rfl⟩ := PeerDirectory.find_some hfind
  have hgi : i ≠ ghost := fun hig => hne (hig ▸ rfl)
  have hgone : Departs {ghost} s₁ (s₁.disconnectPeer (s₁.directory ghost).peerId) := disconnectPeer_departs hd₁ hgUse
  rw [retryRegister_again, hdisplaced]
  rw [if_pos rfl]
  generalize s₁.disconnectPeer (s₁.directory ghost).peerId = s₂ at hgone
  have hgone' : Departs {ghost} s s₂ := ⟨hgone.gone, hdir ▸ hgone.stay⟩
  rw [hdir] at hgUse hsame
  have hnonempty : ∀ left : Set PeerSlot, ({ghost} ∪ left).Nonempty := fun left => ⟨ghost, .inl rfl⟩
  rcases hsecond : s₂.registerAgent i m with ⟨s₃, ack', registered⟩
  have hdir₃ : s₃.directory = s₂.directory := (congrArg (fun r => r.1.directory) hsecond).symm
  have hgone₃ : Departs {ghost} s s₃ := ⟨hdir₃ ▸ hgone'.gone, hdir₃ ▸ hgone'.stay⟩
  cases registered with
  | true =>
    refine ⟨{ghost} ∪ ∅, ?_, ?_, iff_of_true (hnonempty ∅) hcosts, fun he => absurd he (hnonempty ∅).ne_empty⟩
    · rw [Set.union_empty]
      exact hgone₃
    · have hnobody : MadeRoom s₃ ∅ := fun _ hj => hj.elim
      exact hnobody.after hgi hgone₃ (fun hl => absurd hl Set.not_nonempty_empty) hgUse hsame
  | false =>
    obtain ⟨left, hdep, hmade, hsome, -⟩ := makeRoom_departs (hgone₃.distinctPeers h.distinct) i m.interfaceNames.length
    have hthird : Departs left s₃ (retryRegister i m (s₃, ack', false) fun s => if (s.directory i).vouched then
      s.makeRoomForInterfaces m.interfaceNames.length else (s, false)).1 := retryRegister_departs ack' hdep
    refine ⟨{ghost} ∪ left, hgone₃.trans hthird, ?_, iff_of_true (hnonempty left) hcosts,
      fun he => absurd he (hnonempty left).ne_empty⟩
    exact hmade.after hgi hgone₃ (fun hl => (hsome.mp hl).1) hgUse hsame

theorem attempts_of_registered {i : PeerSlot} {m : RegisterMessage} (h : (s.registerAgent i m).2.2 = true) :
    s.attempts i m = s.registerAgent i m := by
  unfold attempts
  rcases hfirst : s.registerAgent i m with ⟨s₁, ack, registered⟩
  rw [hfirst] at h
  cases h
  rfl

theorem attempts_cost {i : PeerSlot} (h : Stays i s) (m : RegisterMessage) :
    ∃ left, Departs left s (s.attempts i m).1 ∧ Displaced s i left := by
  cases hfirst : (s.registerAgent i m).2.2 with
  | false =>
    obtain ⟨left, hdep, hcost, -⟩ := attempts_departs h m hfirst
    exact ⟨left, hdep, hcost⟩
  | true =>
    rw [attempts_of_registered hfirst]
    exact ⟨∅, ⟨fun _ hj => hj.elim, fun _ _ => rfl⟩, fun _ hj => hj.elim⟩

/-! ### The whole REGISTER -/

theorem vouchFor_directory (s : Broker) (i : PeerSlot) :
    (s.vouchFor i).directory = Function.update s.directory i { s.directory i with vouched := (s.agentIsEnrolled i).2 } := by
  obtain ⟨n, hn⟩ := s.knownTo_questioned s.config.hasIdentityStore (s.directory i).fingerprintHex
  rw [vouchFor, agentIsEnrolled, hn]
  rfl

theorem vouchFor_other (s : Broker) {i j : PeerSlot} (h : j ≠ i) : (s.vouchFor i).directory j = s.directory j := by
  rw [vouchFor_directory]
  exact Function.update_of_ne h ..

theorem vouchFor_self (s : Broker) (i : PeerSlot) :
    (s.vouchFor i).directory i = { s.directory i with vouched := (s.agentIsEnrolled i).2 } := by
  rw [vouchFor_directory]
  exact Function.update_self ..

theorem vouchFor_stays {i : PeerSlot} (h : Stays i s) : Stays i (s.vouchFor i) := by
  have hid : ∀ j, ((s.vouchFor i).directory j).inUse = (s.directory j).inUse
      ∧ ((s.vouchFor i).directory j).peerId = (s.directory j).peerId := by
    intro j
    by_cases hj : j = i
    · subst hj
      rw [vouchFor_self]
      exact ⟨rfl, rfl⟩
    · rw [vouchFor_other s hj]
      exact ⟨rfl, rfl⟩
  refine ⟨fun j k hj hk he => ?_, ?_, ?_⟩
  · rw [(hid j).1] at hj
    rw [(hid k).1] at hk
    rw [(hid j).2, (hid k).2] at he
    exact h.distinct j k hj hk he
  · rw [(hid i).1]
    exact h.inUse
  · rw [vouchFor_self]
    exact h.role

theorem reattachClientsToAgent_samePeers (s : Broker) (agentPeerId : UInt32) :
    SamePeers s (s.reattachClientsToAgent agentPeerId) := by
  refine SamePeers.foldl (fun s k => ?_) _ s
  unfold reattachEntryOf
  split
  · exact SamePeers.foldl (fun s i => (s.reattachPeer_shuffles k i).samePeers) _ s
  · exact .refl s

/-- The peers of some slots are gone, and the others are who they were but for the one in question. -/
structure DepartsBut (i : PeerSlot) (left : Set PeerSlot) (s s' : Broker) : Prop where
  gone : ∀ j ∈ left, (s'.directory j).inUse = false
  stay : ∀ j ∉ left, j ≠ i → identity (s'.directory j) = identity (s.directory j)

theorem Departs.but {left : Set PeerSlot} (h : Departs left s s') (i : PeerSlot) : DepartsBut i left s s' :=
  ⟨h.gone, fun j hj _ => h.stay j hj⟩

theorem DepartsBut.trans {i : PeerSlot} {left left' : Set PeerSlot} (h : DepartsBut i left s s')
    (h' : Departs left' s' s'') : DepartsBut i (left ∪ left') s s'' where
  gone j hj := by
    by_cases hl : j ∈ left'
    · exact h'.gone j hl
    · rw [h'.inUse hl]
      exact h.gone j (hj.resolve_right hl)
  stay j hj hi := (h'.stay j fun hl => hj (.inr hl)).trans (h.stay j (fun hl => hj (.inl hl)) hi)

theorem DepartsBut.of_subset {i : PeerSlot} {left : Set PeerSlot} (h : DepartsBut i (left ∪ {i}) s s') :
    DepartsBut i left s s' :=
  ⟨fun j hj => h.gone j (.inl hj), fun j hj hi => h.stay j (fun hl => hl.elim hj hi) hi⟩

variable (hd : DistinctPeers s) {i : PeerSlot} (hi : (s.directory i).inUse)

include hd hi in
/-- The acknowledgement costs nobody but the agent their place. -/
theorem acknowledge_departs (m : RegisterMessage)
    (ack : RegisterAckMessage) (registered : Bool) : DepartsBut i ∅ s (s.acknowledge i m ack registered) := by
  have hsent := (s.sendControl_sends i (.registerAck ack)).samePeers
  unfold acknowledge
  dsimp only
  generalize s.sendControl i (.registerAck ack) = s₁ at hsent ⊢
  cases registered with
  | false =>
    have h := disconnectPeer_departs (hsent.distinctPeers hd) ((hsent.inUse i).trans hi)
    exact ((hsent.departs.but i).trans h).of_subset
  | true =>
    rw [if_neg (by simp)]
    have hname : ∀ j, j ≠ i →
        ((s₁.modifyPeer i fun p => { p with agentName := m.agentName }).forgetRejection i).directory j = s₁.directory j :=
      fun j hj => Function.update_of_ne hj ..
    generalize (s₁.modifyPeer i fun p => { p with agentName := m.agentName }).forgetRejection i = s₂ at hname ⊢
    refine ⟨fun _ hj => hj.elim, fun j _ hji => ?_⟩
    calc identity ((s₂.reattachClientsToAgent _).directory j) = identity (s₂.directory j) :=
          s₂.reattachClientsToAgent_samePeers _ j
      _ = identity (s₁.directory j) := congrArg identity (hname j hji)
      _ = identity (s.directory j) := hsent j

include hd hi in
theorem rejectAgent_departs (agentName : Text) (status : RegisterStatus) :
    Departs {i} s (s.rejectAgent i agentName status) := by
  have hsent := (s.sendControl_sends i (.registerAck ⟨status, []⟩)).samePeers
  unfold rejectAgent
  generalize s.sendControl i (.registerAck ⟨status, []⟩) = s₁ at hsent ⊢
  -- The list of the rejected is no part of the directory.
  have hturn : ∀ s₂ : Broker, s₂.directory = s₁.directory → ∀ code detail,
      Departs {i} s (s₂.turnAway i code detail) := by
    intro s₂ hdir code detail
    have hsame : SamePeers s s₂ := fun j => by rw [hdir]; exact hsent j
    exact .after hsame (turnAway_departs (hsame.distinctPeers hd) ((hsame.inUse i).trans hi) code detail)
  split
  · exact hturn (s₁.recordRejection i agentName .notAllowed) rfl _ _
  · exact hturn (s₁.recordRejection i agentName .fingerprintMismatch) rfl _ _
  · exact hturn s₁ rfl _ _

/-- The peers a REGISTER of the slot's agent costs their place: an earlier connection of the same agent, and if the
identity store has the agent, agents nobody vouches for, the last to come first. -/
def RegisterCosts (s : Broker) (i : PeerSlot) (m : Option RegisterMessage) (left : Set PeerSlot) : Prop :=
  ∀ j ∈ left, (s.directory j).inUse ∧ j ≠ i ∧ ((s.directory i).isSameAgent (s.directory j)
    ∨ (∃ rm ∈ m, ((s.agentIdentityStatus i rm).1.agentIsEnrolled i).2) ∧ IsDisplaceableAgent (s.directory j)
      ∧ ∀ l ∉ left, l ≠ i → IsDisplaceableAgent (s.directory l) →
        (s.directory l).connectedAtUs ≤ (s.directory j).connectedAtUs)

theorem Displaced.registerCosts {left : Set PeerSlot} {s₁ : Broker} {m : RegisterMessage}
    (h : Displaced (s₁.vouchFor i) i left) (hdir : s₁.directory = s.directory)
    (henrolled : (s₁.agentIsEnrolled i).2 → ((s.agentIdentityStatus i m).1.agentIsEnrolled i).2) :
    RegisterCosts s i (some m) left := by
  intro j hj
  obtain ⟨hjUse, hji, hcost⟩ := h j hj
  have hother : ∀ l, l ≠ i → (s₁.vouchFor i).directory l = s.directory l := fun l hl => by
    rw [vouchFor_other _ hl, hdir]
  rw [hother j hji] at hjUse hcost
  rw [vouchFor_self, hdir] at hcost
  refine ⟨hjUse, hji, hcost.imp id fun ⟨hv, hcand, hlast⟩ =>
    ⟨⟨m, rfl, henrolled hv⟩, hcand, fun l hl hli hlcand => ?_⟩⟩
  have hle := hlast l hl
  rw [hother l hli] at hle
  exact hle hlcand

include hd hi in
/-- **Whom a REGISTER costs their place**, whatever its outcome. -/
theorem handleRegister_departs (m : Option RegisterMessage) :
    ∃ left, DepartsBut i left s (s.handleRegister i m) ∧ RegisterCosts s i m left := by
  have hself : ∀ {s'}, Departs {i} s s' → ∃ left, DepartsBut i left s s' ∧ RegisterCosts s i m left := by
    intro s' h
    exact ⟨∅, ⟨fun _ hj => hj.elim, fun j _ hji => h.stay j hji⟩, fun _ hj => hj.elim⟩
  have hto := s.handleRegister_to (i := i) m
  generalize s.handleRegister i m = s' at hto ⊢
  cases hto with
  | ignored => exact ⟨∅, (SamePeers.refl s).departs.but i, fun _ hj => hj.elim⟩
  | turnedAway => exact hself (turnAway_departs hd hi _ _)
  | @rejected m n writes status =>
    have hrej := rejectAgent_departs (s := s.questioned n writes) hd hi m.agentName status
    exact hself ⟨hrej.gone, hrej.stay⟩
  | @tried m n writes s₁ hrole hname hid hs =>
    have hstays : Stays i s₁ := hs ▸ vouchFor_stays (.questioned ⟨hd, hi, hrole⟩ n writes)
    obtain ⟨left, hdep, hcost⟩ := attempts_cost hstays m
    have hi' : ((s₁.attempts i m).1.directory i).inUse := by
      rw [hdep.inUse fun hl => (hcost i hl).2.1 rfl]
      exact hstays.inUse
    have hack := acknowledge_departs (hdep.distinctPeers hstays.distinct) hi' m (s₁.attempts i m).2.1 (s₁.attempts i m).2.2
    refine ⟨left, ⟨fun j hj => ?_, fun j hj hji => ?_⟩, (hs ▸ hcost).registerCosts rfl fun hv => by rw [hid]; exact hv⟩
    · have hsame := hack.stay j (Set.notMem_empty j) (hcost j hj).2.1
      exact (congrArg HubPeer.inUse hsame :).trans (hdep.gone j hj)
    · calc _ = identity ((s₁.attempts i m).1.directory j) := hack.stay j (Set.notMem_empty j) hji
        _ = identity (s₁.directory j) := hdep.stay j hj
        _ = identity (s.directory j) := by rw [hs, vouchFor_other _ hji]; rfl

end Broker
end CanHub
