/-
# Known peers displace unknown ones

A peer is known if it is local or plaintext, or if one of the stores has its
fingerprint: an agent the identity store lists as enrolled, or a name in a rule
of the ACL (`KnownPeers`). A known connection that finds the hub full takes the
place of the peer that goes first, and so do the interfaces of an enrolled agent.

What protects a peer from that is the mark `vouched`, set when it says HELLO as a
client or registers as an agent. Where every known peer has its mark, none of
them is displaced (`displacement_spares_known`); one that has not got it yet is
(`known_displaced`).
-/
import CanHub.Hub.Departures

namespace CanHub

open HubPeer Broker Function Table

/-- The fingerprints the identity store and the ACL have. -/
structure KnownPeers where
  enrolled : Text → Bool
  named : Text → Bool

namespace KnownPeers

variable (k : KnownPeers)

def knowsFingerprint (fingerprint : Text) : Bool := k.enrolled fingerprint || k.named fingerprint

/-- The peer is local, plaintext, or has a fingerprint one of the stores has. -/
def knows (p : HubPeer) : Bool := p.isLocal || p.fingerprintHex = [] || k.knowsFingerprint p.fingerprintHex

def knowsConnecting (info : HubPeerConnectInfo) : Bool :=
  info.isLocal || match info.fingerprintHex with
    | none => true
    | some fingerprint => k.knowsFingerprint fingerprint

/-- What the ports answer about the peer that comes, or the agent that registers, is what the stores have. -/
def Answers (s : Broker) (t : HubTurn) : Prop :=
  match t.event with
  | .connected _ info nowUs => ({ s with port := t.port, nowUs }.connectingPeerIsKnown info).2 = k.knowsConnecting info
  | .control peerId (.register (some m)) nowUs => ∀ i, s.find peerId = some i →
      (({ s with port := t.port, nowUs }.agentIdentityStatus i m).1.agentIsEnrolled i).2
        = (decide ((s.directory i).fingerprintHex ≠ []) && k.enrolled (s.directory i).fingerprintHex)
  | _ => True

end KnownPeers

namespace Broker

variable {s s' : Broker}

/-- The peer has been disconnected. -/
def Gone (s s' : Broker) (i : PeerSlot) : Prop := (s.directory i).inUse ∧ s'.find (s.directory i).peerId = none

/-- The peer is of the lowest class of those that can be displaced, and the last of its class to come. -/
def GoesFirst (s : Broker) (i : PeerSlot) : Prop :=
  (s.directory i).displacement ≠ .never ∧ ∀ j, (s.directory j).inUse → (s.directory j).displacement ≠ .never →
    (s.directory i).displacement.ctorIdx ≤ (s.directory j).displacement.ctorIdx
      ∧ ((s.directory i).displacement = (s.directory j).displacement →
        (s.directory j).connectedAtUs ≤ (s.directory i).connectedAtUs)

/-- Whom a connection or a REGISTER may cost their place. A connection: if it is known itself, a peer that is not,
and that goes first. A REGISTER: the agent, an earlier connection of the same agent, and if the agent is
enrolled, agents that are not known, the last to come first. -/
def Spares (k : KnownPeers) (s : Broker) (t : HubTurn) : Prop :=
  match t.event with
  | .connected _ info _ => ∀ i, Gone s (s.step t) i →
      k.knowsConnecting info ∧ ¬ k.knows (s.directory i) ∧ GoesFirst s i
  | .control peerId (.register _) _ => ∀ i, Gone s (s.step t) i → (s.directory i).peerId ≠ peerId →
      ∃ agent, s.find peerId = some agent ∧ ((s.directory agent).isSameAgent (s.directory i)
        ∨ k.enrolled (s.directory agent).fingerprintHex ∧ ¬ k.knows (s.directory i)
          ∧ IsDisplaceableAgent (s.directory i)
          ∧ ∀ j, IsDisplaceableAgent (s.directory j) → (s.directory j).peerId ≠ peerId →
            (s.directory i).connectedAtUs < (s.directory j).connectedAtUs → Gone s (s.step t) j)
  | _ => True

/-- Where somebody may have to make room, every known peer has its mark: where a known peer comes to a full hub, and
where an enrolled agent registers, the other agents. -/
def Marked (k : KnownPeers) (s : Broker) (t : HubTurn) : Prop :=
  match t.event with
  | .connected _ info _ => s.directory.isFull → k.knowsConnecting info → ∀ i, (s.directory i).inUse →
      k.knows (s.directory i) → (s.directory i).isLocal ∨ (s.directory i).fingerprintHex = [] ∨ (s.directory i).vouched
  | .control peerId (.register _) _ => ∀ agent, s.find peerId = some agent →
      k.enrolled (s.directory agent).fingerprintHex → ∀ i, (s.directory i).inUse → (s.directory i).role = .agent →
      (s.directory i).peerId ≠ peerId → k.knows (s.directory i) →
      (s.directory i).isLocal ∨ (s.directory i).fingerprintHex = [] ∨ (s.directory i).vouched
  | _ => True

/-! ### A connection -/

theorem connectingPeerIsKnown_questioned (s : Broker) (info : HubPeerConnectInfo) :
    ∃ n, (s.connectingPeerIsKnown info).1 = s.questioned n := by
  unfold connectingPeerIsKnown
  split
  · exact ⟨s.port.asked, rfl⟩
  have hauth : ∃ n, (if s.config.hasAuthorization then s.ask else (s, false)).1 = s.questioned n := by
    split
    · exact ⟨_, rfl⟩
    · exact ⟨s.port.asked, rfl⟩
  rcases h : (if s.config.hasAuthorization then s.ask else (s, false)) with ⟨s₁, known⟩
  rw [h] at hauth
  obtain ⟨n, hn⟩ := hauth
  subst hn
  cases known with
  | true => exact ⟨n, rfl⟩
  | false =>
    dsimp only
    split
    · exact ⟨_, rfl⟩
    · exact ⟨n, rfl⟩

variable {i : PeerSlot}

theorem findDisplaceable_spec (s : Broker) :
    (∀ i, s.directory.findDisplaceable = some i → (s.directory i).inUse ∧ (s.directory i).displacement ≠ .never)
      ∧ ∀ j, (s.directory j).inUse ∧ (s.directory j).displacement ≠ .never →
        ∃ i, s.directory.findDisplaceable = some i ∧ ¬(s.directory j).displacesBefore (s.directory i) := by
  obtain ⟨hprop, hfirst⟩ := PeerDirectory.displaced_spec s.directory
    (fun p => p.inUse && p.displacement != .never) _ displacesBefore_irrefl displacesBefore_trans
  exact ⟨fun i hi => by simpa using hprop i hi,
    fun j hj => by simpa [PeerDirectory.findDisplaceable] using hfirst j (by simpa using hj)⟩

theorem findDisplaceable_some (h : s.directory.findDisplaceable = some i) :
    (s.directory i).inUse ∧ GoesFirst s i := by
  obtain ⟨hprop, hgoes⟩ := findDisplaceable_spec s
  obtain ⟨hi, hdisplaceable⟩ := hprop i h
  refine ⟨hi, hdisplaceable, fun j hj hnever => ?_⟩
  obtain ⟨r, hr, hnot⟩ := hgoes j ⟨hj, hnever⟩
  obtain rfl : r = i := Option.some.inj (hr.symm.trans h)
  rw [displacesBefore_iff] at hnot
  push Not at hnot
  exact ⟨hnot.1, fun he => hnot.2 he.symm⟩

/-- A peer that is where it was is found. -/
theorem not_gone (h : identity (s'.directory i) = identity (s.directory i)) : ¬ Gone s s' i := by
  rintro ⟨hi, hnone⟩
  have huse : (s'.directory i).inUse = (s.directory i).inUse := (congrArg inUse h :)
  have hid : (s'.directory i).peerId = (s.directory i).peerId := (congrArg peerId h :)
  have hother := find?_eq_none.mp hnone i
  simp [huse, hi, hid] at hother

theorem seat_stays (hi : (s.directory i).inUse) (peerId : UInt32) (info : HubPeerConnectInfo) (nowUs : ℕ) :
    (s.seat peerId info nowUs).directory i = s.directory i := by
  unfold seat
  cases hfree : s.directory.freeSlot with
  | none => rfl
  | some j =>
    have hj : (s.directory j).inUse = false := by simpa using find?_some hfree
    have hij : i ≠ j := by
      rintro rfl
      rw [hi] at hj
      cases hj
    exact modifyPeer_directory_of_ne _ hij

/-- Room for a connection is made by the peer that goes first. -/
theorem makeRoomForKnownPeer_departs (hd : DistinctPeers s) (info : HubPeerConnectInfo) :
    SamePeers s (s.makeRoomForKnownPeer info).1
      ∨ (s.connectingPeerIsKnown info).2 ∧ ∃ i, (s.directory i).inUse ∧ GoesFirst s i
        ∧ Departs {i} s (s.makeRoomForKnownPeer info).1 := by
  unfold makeRoomForKnownPeer
  obtain ⟨n, hn⟩ := s.connectingPeerIsKnown_questioned info
  rcases h : s.connectingPeerIsKnown info with ⟨s₁, known⟩
  rw [h] at hn
  subst hn
  cases known with
  | false => exact .inl (.refl _)
  | true =>
    dsimp only
    have hdir : (s.questioned n).directory = s.directory := rfl
    rw [hdir]
    cases hfind : s.directory.findDisplaceable with
    | none => exact .inl fun _ => rfl
    | some i =>
      obtain ⟨hi, hfirst⟩ := findDisplaceable_some hfind
      refine .inr ⟨rfl, i, hi, hfirst, ?_⟩
      have hturn : Departs {i} (s.questioned n) _ :=
        turnAway_departs (s := s.questioned n) hd hi .hubFull "displaced by a known peer"
      exact ⟨hturn.gone, hturn.stay⟩

theorem refusePeer_samePeers (s : Broker) (peerId : UInt32) (detail : String) : SamePeers s (s.refusePeer peerId detail) :=
  (s.sendError_sends peerId .hubFull detail).samePeers

variable {info : HubPeerConnectInfo} {peerId : UInt32}

/-- **A connection costs one peer its place at most**: if the hub is full and the ports know the peer that comes, the
one that goes first. -/
theorem receive_gone (hd : DistinctPeers s) {nowUs : ℕ}
    (h : Gone s (s.receive peerId info nowUs) i) :
    s.directory.isFull ∧ (s.connectingPeerIsKnown info).2 ∧ GoesFirst s i := by
  -- Whoever is still there when the peer that comes gets its slot is not gone.
  have hseat : ∀ s₁ : Broker, identity (s₁.directory i) = identity (s.directory i) →
      ¬ Gone s (s₁.seat peerId info nowUs) i := by
    intro s₁ hid
    have huse : (s₁.directory i).inUse = (s.directory i).inUse := (congrArg inUse hid :)
    refine not_gone ?_
    rw [seat_stays (huse.trans h.1)]
    exact hid
  unfold receive at h
  by_cases hadmitted : s.admitsPeerAwaitingHello info
  swap
  · rw [if_pos (by simpa using hadmitted)] at h
    exact absurd h (not_gone (s.refusePeer_samePeers _ _ i))
  rw [if_neg (by simpa using hadmitted)] at h
  by_cases hfull : s.directory.isFull
  swap
  · rw [if_neg hfull] at h
    exact absurd h (hseat s rfl)
  rw [if_pos hfull] at h
  have hroom := makeRoomForKnownPeer_departs hd info
  rcases hmade : s.makeRoomForKnownPeer info with ⟨s₁, made⟩
  rw [hmade] at h hroom
  have hstays : identity (s₁.directory i) ≠ identity (s.directory i) := by
    intro hid
    cases made with
    | false => exact not_gone ((s₁.refusePeer_samePeers _ _ i).trans hid) h
    | true => exact hseat s₁ hid h
  rcases hroom with hsame | ⟨hknown, j, _, hfirst, hdep⟩
  · exact absurd (hsame i) hstays
  · have hij : i = j := by
      by_contra hne
      exact hstays (hdep.stay i hne)
    subst hij
    exact ⟨hfull, hknown, hfirst⟩

/-! ### A REGISTER -/

theorem dropIfSendFailed_departs (hd : DistinctPeers s) (peerId : UInt32)
    (hother : ∀ j, j ≠ i → (s.directory j).inUse → (s.directory j).peerId ≠ peerId) :
    DepartsBut i ∅ s (s.dropIfSendFailed peerId) := by
  unfold dropIfSendFailed
  cases hfind : s.find peerId with
  | none => exact (SamePeers.refl s).departs.but i
  | some j =>
    obtain ⟨hj, hid⟩ := PeerDirectory.find_some hfind
    have hji : j = i := by
      by_contra hne
      exact hother j hne hj hid
    subst hji
    dsimp only
    split
    · have h := disconnectPeer_departs hd hj
      rw [hid] at h
      exact ⟨fun _ hk => hk.elim, fun k _ hk => h.stay k hk⟩
    · exact (SamePeers.refl s).departs.but j

/-- **A REGISTER costs its agent's earlier connection its place, and agents nobody vouches for.** -/
theorem register_gone (hd : DistinctPeers s) {i j : PeerSlot} (hfind : s.find peerId = some i)
    (m : Option RegisterMessage) (hback : ∀ l, (((s.handleRegister i m).dropIfSendFailed peerId).directory l).inUse →
      (s.directory l).inUse ∧ (((s.handleRegister i m).dropIfSendFailed peerId).directory l).peerId
        = (s.directory l).peerId)
    (h : Gone s ((s.handleRegister i m).dropIfSendFailed peerId) j) (hne : (s.directory j).peerId ≠ peerId) :
    ∃ left, j ∈ left ∧ RegisterCosts s i m left ∧ ∀ l ∈ left, Gone s ((s.handleRegister i m).dropIfSendFailed peerId) l := by
  obtain ⟨hi, rfl⟩ := PeerDirectory.find_some hfind
  obtain ⟨left, hdep, hcost⟩ := handleRegister_departs hd hi m
  obtain ⟨n, -, hpass, -⟩ : ∃ n ≤ 3 * interfaceRegistryMax, Runs (fun _ _ => True) True n s (s.handleRegister i m) :=
    s.handleRegister_runs hi m (fun _ => hd) fun _ _ => ⟨fun _ => trivial, fun _ _ _ _ _ _ _ _ _ _ => trivial⟩
  have hdrop : DepartsBut i ∅ (s.handleRegister i m) _ :=
    dropIfSendFailed_departs (hpass.distinctPeers hd) (s.directory i).peerId fun l hl hlUse hid => by
      obtain ⟨hlUse', hlid⟩ := hpass.back hlUse
      exact hl (hd l i hlUse' hi (hlid.symm.trans hid))
  generalize (s.handleRegister i m).dropIfSendFailed (s.directory i).peerId = s' at hback h hdrop ⊢
  refine ⟨left, ?_, hcost, fun l hl => ⟨(hcost l hl).1, find?_eq_none.mpr fun x => ?_⟩⟩
  · by_contra hj
    have hji : j ≠ i := fun he => hne (he ▸ rfl)
    exact not_gone ((hdrop.stay j (Set.notMem_empty j) hji).trans (hdep.stay j hj hji)) h
  · -- Whoever has the id is the peer itself, which has gone.
    by_contra hx
    simp only [Bool.not_eq_false, Bool.and_eq_true, beq_iff_eq] at hx
    obtain ⟨hxUse, hxid⟩ := hback x hx.1
    have hxl : x = l := hd x l hxUse (hcost l hl).1 (hxid.symm.trans hx.2)
    subst hxl
    have hsame : (s'.directory x).inUse = ((s.handleRegister i m).directory x).inUse :=
      (congrArg inUse (hdrop.stay x (Set.notMem_empty x) (hcost x hl).2.1) :)
    rw [hsame, hdep.gone x hl] at hx
    exact Bool.false_ne_true hx.1

/-! ### Every state reached -/

theorem Marked.not_knows {k : KnownPeers} {p : HubPeer}
    (h : k.knows p → p.isLocal ∨ p.fingerprintHex = [] ∨ p.vouched) (hnever : p.displacement ≠ .never) :
    ¬ k.knows p := fun hk => hnever (displacement_never (h hk))

variable {t : HubTurn}

theorem spares_of_marked (hd : DistinctPeers s) {k : KnownPeers} (hanswers : k.Answers s t)
    (hmarked : Marked k s t) : Spares k s t := by
  unfold Spares
  cases ht : t.event with
  | connected peerId info nowUs =>
    intro i hgone
    simp only [KnownPeers.Answers, ht] at hanswers
    simp only [Marked, ht] at hmarked
    have hstep : s.step t = { s with port := t.port, nowUs }.receive peerId info nowUs := by
      rw [step, ht, handle, onPeerConnected]
    rw [hstep] at hgone
    obtain ⟨hfull, hknown, hfirst⟩ := receive_gone (s := { s with port := t.port, nowUs }) hd hgone
    rw [hanswers] at hknown
    exact ⟨hknown, Marked.not_knows (hmarked hfull hknown i hgone.1) hfirst.1, hfirst⟩
  | control peerId m nowUs =>
    cases m with
    | register m =>
      intro j hgone hne
      simp only [Marked, ht] at hmarked
      obtain ⟨n, hpass⟩ := handle_passes_any (s := { s with port := t.port }) hd (e := t.event) (by rw [ht]; rfl)
      have hback := fun l => hpass.back (i := l)
      have hstep : s.step t = { s with port := t.port }.handle t.event := rfl
      rw [hstep] at hgone ⊢
      rw [ht] at hgone hback ⊢
      simp only [handle, onPeerControl] at hgone hback ⊢
      have hfind : ({ s with port := t.port, nowUs } : Broker).find peerId = s.find peerId := rfl
      rw [hfind] at hgone hback ⊢
      cases hagent : s.find peerId with
      | none =>
        rw [hagent] at hgone
        exact absurd hgone (not_gone rfl)
      | some i =>
        rw [hagent] at hgone hback
        obtain ⟨left, hj, hcost, hleft⟩ := register_gone (s := { s with port := t.port, nowUs }) hd hagent m hback hgone hne
        obtain ⟨hjUse, hji, hcases⟩ := hcost j hj
        refine ⟨i, rfl, hcases.imp id fun hroom => ?_⟩
        obtain ⟨⟨rm, hm, hknown⟩, hcand, hlast⟩ := hroom
        have henrolled : k.enrolled (s.directory i).fingerprintHex := by
          cases hm
          simp only [KnownPeers.Answers, ht] at hanswers
          rw [hanswers i hagent, Bool.and_eq_true] at hknown
          exact hknown.2
        have hrole : (s.directory j).role = .agent := (displacement_unvouchedAgent_iff.mp hcand.2).2.2.2.1
        refine ⟨henrolled, ?_, hcand, fun l hl hlid htime => ?_⟩
        · exact Marked.not_knows (hmarked i hagent henrolled j hjUse hrole hne) (by rw [hcand.2]; simp)
        · refine hleft l ?_
          by_contra hll
          have hli : l ≠ i := fun he => hlid (he ▸ (PeerDirectory.find_some hagent).2)
          exact absurd (hlast l hll hli hl) (Nat.not_le.mpr htime)
    | _ => trivial
  | _ => trivial

/-- **Known peers that have their mark are not displaced**, in every state reached. -/
theorem displacement_spares_known (config : HubConfig) (port : HubPort) (routes : List BridgeRoute)
    (groups : List BridgeGroup) (turns : List HubTurn)
    (hturns : Run.Along step FreshId (init config port routes groups) turns)
    (k : KnownPeers) (t : HubTurn) (hanswers : k.Answers ((init config port routes groups).run turns) t)
    (hmarked : Marked k ((init config port routes groups).run turns) t) :
    Spares k ((init config port routes groups).run turns) t :=
  spares_of_marked ((DistinctPeers.init config port routes groups).run hturns) hanswers hmarked

/-! ### A full hub -/

/-- The id of the `i`-th peer to come. -/
def memberId (i : ℕ) : UInt32 := UInt32.ofNat (i + 1)

/-- The first peer has a fingerprint, the others are at the hub's own host. -/
def memberInfo (fingerprint : Text) (i : ℕ) : HubPeerConnectInfo :=
  if i = 0 then { fingerprintHex := some fingerprint } else { isLocal := true }

/-- The `i`-th peer comes. -/
def comes (fingerprint : Text) (i : ℕ) : HubTurn := { event := .connected (memberId i) (memberInfo fingerprint i) i }

/-- All places are taken. -/
@[irreducible] def crowd (fingerprint : Text) : List HubTurn := (List.range peerDirectoryMax).map (comes fingerprint)

/-- The directory with the first slots taken. -/
def seats (fingerprint : Text) (n : ℕ) : PeerDirectory :=
  fun i => if i.val < n then newPeer (memberId i.val) (memberInfo fingerprint i.val) i.val else {}

theorem memberId_inj {i j : ℕ} (hi : i ≤ peerDirectoryMax) (hj : j ≤ peerDirectoryMax) (h : memberId i = memberId j) :
    i = j := by
  have hnat := congrArg UInt32.toNat h
  simp only [peerDirectoryMax, hubPeersMax] at hi hj
  simp only [memberId, UInt32.toNat_ofNat'] at hnat
  omega

theorem memberId_ne_zero {i : ℕ} (hi : i ≤ peerDirectoryMax) : memberId i ≠ 0 := by
  intro h
  have hnat := congrArg UInt32.toNat h
  simp only [peerDirectoryMax, hubPeersMax] at hi
  simp only [memberId, UInt32.toNat_ofNat', UInt32.toNat_zero] at hnat
  omega

theorem step_connected {nowUs : ℕ}
    (ht : t.event = .connected peerId info nowUs) :
    s.step t = { s with port := t.port, nowUs }.receive peerId info nowUs := by
  rw [step, ht, handle, onPeerConnected]

theorem run_concat (s : Broker) (turns : List HubTurn) (t : HubTurn) :
    s.run (turns ++ [t]) = (s.run turns).step t := Run.run_append s turns [t]

section Full

variable {fingerprint : Text} {n : ℕ}

theorem seats_succ (hn : n < peerDirectoryMax) : seats fingerprint (n + 1)
    = update (seats fingerprint n) ⟨n, hn⟩ (newPeer (memberId n) (memberInfo fingerprint n) n) := by
  funext i
  by_cases hi : i = ⟨n, hn⟩
  · subst hi
    rw [update_self]
    exact if_pos (Nat.lt_succ_self n)
  · rw [update_of_ne hi]
    have hne : i.val ≠ n := fun h => hi (Fin.ext h)
    exact if_congr (by omega) rfl rfl

/-- The others are admitted whether they have said HELLO or not. -/
theorem seats_admits (hdir : s.directory = seats fingerprint n) :
    s.admitsPeerAwaitingHello (memberInfo fingerprint n) := by
  unfold memberInfo admitsPeerAwaitingHello
  by_cases hn : n = 0
  · subst hn
    have hnone : s.directory.countRole .unknown = 0 := by
      by_contra h
      obtain ⟨i, hi⟩ := count_pos_iff.mp (Nat.pos_of_ne_zero h)
      simp [hdir, seats] at hi
    simp [hnone, awaitingHelloMax]
  · simp [hn]

/-- The next peer gets the next slot. -/
theorem seats_comes (hn : n < peerDirectoryMax) (hdir : s.directory = seats fingerprint n) :
    s.FreshId (comes fingerprint n) ∧ (s.step (comes fingerprint n)).directory = seats fingerprint (n + 1) := by
  have hfree : (seats fingerprint n).freeSlot = some ⟨n, hn⟩ := by
    refine find?_first ?_ fun j hj => ?_
    · simp [seats]
    · have hj' : j.val < n := hj
      simp [seats, hj', newPeer]
  have hroom : s.directory.isFull = false := by
    refine decide_eq_false fun hfull => ?_
    have hlast := count_eq.mp hfull ⟨n, hn⟩
    simp [hdir, seats] at hlast
  refine ⟨⟨memberId_ne_zero hn.le, find?_eq_none.mpr fun i => ?_⟩, ?_⟩
  · rw [hdir]
    by_cases hi : i.val < n
    · have hne : memberId i.val ≠ memberId n := fun h => hi.ne (memberId_inj i.isLt.le hn.le h)
      simp [seats, hi, newPeer, hne]
    · simp [seats, hi]
  · rw [step_connected (t := comes fingerprint n) rfl]
    have hadmitted : { s with port := (comes fingerprint n).port, nowUs := n }.admitsPeerAwaitingHello
        (memberInfo fingerprint n) := seats_admits hdir
    unfold receive
    rw [if_neg (by simp [hadmitted]), if_neg (by simp [hroom])]
    dsimp only
    unfold seat
    dsimp only
    rw [hdir, hfree, seats_succ hn, ← hdir]
    rfl

theorem crowd_run (hn : n ≤ peerDirectoryMax) (hdir : s.directory = seats fingerprint 0) :
    (s.run ((List.range n).map (comes fingerprint))).directory = seats fingerprint n
      ∧ Run.Along step FreshId s ((List.range n).map (comes fingerprint)) := by
  induction n with
  | zero => exact ⟨hdir, trivial⟩
  | succ n ih =>
    obtain ⟨hdir₁, halong⟩ := ih (by omega)
    rw [List.range_succ, List.map_append, List.map_singleton]
    generalize (List.range n).map (comes fingerprint) = turns at hdir₁ halong ⊢
    obtain ⟨hfresh, hdir₂⟩ := seats_comes hn hdir₁
    rw [run_concat]
    exact ⟨hdir₂, Run.Along.append.mpr ⟨halong, hfresh, trivial⟩⟩

variable (hdir : s.directory = seats fingerprint peerDirectoryMax)
include hdir

theorem full_peer (i : PeerSlot) : s.directory i = newPeer (memberId i.val) (memberInfo fingerprint i.val) i.val := by
  rw [hdir]
  exact if_pos i.isLt

theorem full_local {i : PeerSlot} (hi : i ≠ 0) : (s.directory i).isLocal := by
  have hval : i.val ≠ 0 := fun h => hi (Fin.ext h)
  rw [full_peer hdir, memberInfo, if_neg hval]
  rfl

theorem full_isFull : s.directory.isFull := by
  refine decide_eq_true (count_eq.mpr fun j => ?_)
  rw [full_peer hdir]
  rfl

/-- Only the peer in the first slot can be displaced. -/
theorem full_displaceable (hne : fingerprint ≠ []) : s.directory.findDisplaceable = some 0 := by
  have hfirst : (s.directory 0).inUse ∧ displacement (s.directory 0) ≠ .never := by
    rw [full_peer hdir]
    simp [newPeer, memberInfo, displacement, isUnidentified, hne]
  obtain ⟨i, hi, -⟩ := (findDisplaceable_spec s).2 0 hfirst
  obtain ⟨-, hnever, -⟩ := findDisplaceable_some hi
  have hzero : i = 0 := by
    by_contra hother
    exact hnever (if_pos (.inl (full_local hdir hother)))
  rw [hi, hzero]

/-- The first peer of a full hub makes room for the next one. -/
theorem full_displaced (hne : fingerprint ≠ []) :
    Gone s (s.receive (memberId 512) { isLocal := true } 512) 0 := by
  have hid : ∀ i, (s.directory i).peerId = memberId i.val := fun i => by simp only [full_peer hdir, newPeer]
  have hdistinct : DistinctPeers s := by
    intro i j _ _ he
    rw [hid, hid] at he
    exact Fin.ext (memberId_inj i.isLt.le j.isLt.le he)
  have huse : (s.directory 0).inUse := by
    rw [full_peer hdir]
    rfl
  have hdep := turnAway_departs hdistinct huse .hubFull "displaced by a known peer"
  have hreceive : s.receive (memberId 512) { isLocal := true } 512
      = (s.turnAway 0 .hubFull "displaced by a known peer").seat (memberId 512) { isLocal := true } 512 := by
    have hmade : s.makeRoomForKnownPeer { isLocal := true }
        = (s.turnAway 0 .hubFull "displaced by a known peer", true) := by
      have hknown : s.connectingPeerIsKnown { isLocal := true } = (s, true) := if_pos (.inl rfl)
      unfold makeRoomForKnownPeer
      rw [hknown]
      dsimp only
      rw [full_displaceable hdir hne]
    unfold receive
    rw [if_neg (by simp [admitsPeerAwaitingHello]), if_pos (full_isFull hdir), hmade]
  rw [hreceive]
  generalize s.turnAway 0 .hubFull "displaced by a known peer" = s₁ at hdep
  -- Nobody has the id: not one of those that stayed, and not the peer that came.
  have hstay : ∀ i, ((s₁.directory i).inUse && (s₁.directory i).peerId == memberId 0) = false := by
    intro i
    by_cases hi : i = 0
    · rw [hdep.gone i hi]
      rfl
    · have hne : memberId i.val ≠ memberId 0 := by
        intro h
        have hval : i.val = 0 := memberId_inj i.isLt.le (by decide) h
        exact hi (Fin.ext hval)
      rw [hdep.peerId hi, hid]
      simp [hne]
  have hcame : memberId 512 ≠ memberId 0 := fun h => absurd (memberId_inj (by decide) (by decide) h) (by decide)
  refine ⟨huse, find?_eq_none.mpr fun i => ?_⟩
  rw [hid]
  unfold seat
  cases s₁.directory.freeSlot with
  | none => exact hstay i
  | some j =>
    by_cases hij : i = j
    · subst hij
      rw [modifyPeer_directory_self]
      simp [newPeer, hcame]
    · rw [modifyPeer_directory_of_ne _ hij]
      exact hstay i

theorem comes_gone (hne : fingerprint ≠ []) : Gone s (s.step (comes fingerprint 512)) 0 := by
  rw [step_connected (t := comes fingerprint 512) rfl]
  exact full_displaced (s := { s with port := (comes fingerprint 512).port, nowUs := 512 }) hdir hne

end Full

/-- A hub without peers. -/
def guarded : Broker :=
  .init { hasIdentityStore := true } { answer := fun _ => true, pinned := fun _ => none, firstContacts := fun _ => 0 } [] []

theorem guarded_crowd (fingerprint : Text) : (guarded.run (crowd fingerprint)).directory = seats fingerprint peerDirectoryMax
    ∧ Run.Along step FreshId guarded (crowd fingerprint) := by
  unfold crowd
  exact crowd_run (Nat.le_refl _) rfl

/-- An identity store with one fingerprint enrolled, and no ACL. -/
def onlyEnrolled (fingerprint : Text) : KnownPeers := ⟨(· = fingerprint), fun _ => false⟩

/-- A peer nobody knows makes room, in a full hub whose known peers are local. -/
theorem displacement_spares_known_full :
    Gone (guarded.run (crowd [2])) ((guarded.run (crowd [2])).step (comes [2] 512)) 0
      ∧ Spares (onlyEnrolled [1]) (guarded.run (crowd [2])) (comes [2] 512) := by
  obtain ⟨hdir, halong⟩ := guarded_crowd [2]
  have hmarked : Marked (onlyEnrolled [1]) (guarded.run (crowd [2])) (comes [2] 512) := by
    intro _ _ i _ hknown
    refine .inl (full_local hdir ?_)
    rintro rfl
    rw [full_peer hdir] at hknown
    exact absurd hknown (by decide)
  exact ⟨comes_gone hdir (by decide), displacement_spares_known _ _ _ _ _ halong _ _ rfl hmarked⟩

/-- **A known peer is displaced by another** that comes after it, while it has not said HELLO. -/
theorem known_displaced : Run.Along step FreshId guarded (crowd [1])
    ∧ (onlyEnrolled [1]).Answers (guarded.run (crowd [1])) (comes [1] 512)
    ∧ Gone (guarded.run (crowd [1])) ((guarded.run (crowd [1])).step (comes [1] 512)) 0
    ∧ (onlyEnrolled [1]).knows ((guarded.run (crowd [1])).directory 0)
    ∧ ¬ Spares (onlyEnrolled [1]) (guarded.run (crowd [1])) (comes [1] 512) := by
  obtain ⟨hdir, halong⟩ := guarded_crowd [1]
  have hgone := comes_gone hdir (by decide)
  have hknown : (onlyEnrolled [1]).knows ((guarded.run (crowd [1])).directory 0) := by
    rw [full_peer hdir]
    decide
  exact ⟨halong, rfl, hgone, hknown, fun h => (h 0 hgone).2.1 hknown⟩

end Broker
end CanHub
