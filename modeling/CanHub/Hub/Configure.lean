/-
# CONFIGURE, and the peers that leave

A client or an administrator configures an interface: the broker gives the
request an id, keeps it in a table of sixteen and forwards it to the agent that
owns the interface. The agent's reply, found by its id, goes to whoever asked;
when the agent leaves first, they are told that it cannot be reached; when they
leave first, the request is forgotten.

All of it happens on the desk (`CanHub/Hub/Desk.lean`). A peer that leaves clears
the requests it has to do with, and answers those that were for it if their
requesters are there (`Desk.release_eq`); however many leave, each request is
closed once and answered at most once (`Empties.settles`). No message does more
than have peers leave (`CanHub/Hub/Events.lean`), but for the two of the desk
itself (`handleConfigure_desk`, `handleIfconfigReply_desk`).
-/
import CanHub.Hub.Events

namespace CanHub

open List

namespace Desk

variable {d d' d'' : Desk} {k : Fin brokerPendingIfconfigMax}

/-! ### What the departure of a peer does -/

/-- The slot's request is one of the peer's, or one for the peer. -/
def Concerns (d : Desk) (peerId : UInt32) (k : Fin brokerPendingIfconfigMax) : Prop :=
  (d.pending k).inUse ∧ ((d.pending k).agentPeerId = peerId ∨ (d.pending k).requesterPeerId = peerId)

/-- The slot's requester will be told that the agent has left. -/
def Told (d : Desk) (peerId : UInt32) (k : Fin brokerPendingIfconfigMax) : Bool :=
  (d.pending k).inUse && (d.pending k).agentPeerId == peerId && (d.find (d.pending k).requesterPeerId).isSome

/-- What the slot's requester is told. -/
def notice (d : Desk) (k : Fin brokerPendingIfconfigMax) : UInt32 × ConfigureReplyMessage :=
  ((d.pending k).requesterPeerId, unreachable)

instance (peerId : UInt32) : DecidablePred (d.Concerns peerId) := fun _ => inferInstanceAs (Decidable (_ ∧ _))

/-- One round of the loop. -/
theorem releaseOf_eq (peerId : UInt32) (d : Desk) (k : Fin brokerPendingIfconfigMax) :
    releaseOf peerId d k =
      { d with
        pending := if d.Concerns peerId k then (d.clear k).pending else d.pending
        replies := d.replies ++ if d.Told peerId k then [d.notice k] else [] } := by
  unfold releaseOf Concerns Told
  by_cases hu : (d.pending k).inUse
  · by_cases ha : (d.pending k).agentPeerId = peerId
    · by_cases hf : (d.find (d.pending k).requesterPeerId).isSome <;> simp [hu, ha, hf, clear, reply, notice]
    · by_cases hr : (d.pending k).requesterPeerId = peerId <;> simp [hu, ha, hr, clear]
  · simp [hu]

variable {peerId : UInt32}

/-- The rounds for other slots do not see a round. -/
theorem releaseOf_of_ne {j : Fin brokerPendingIfconfigMax} (hj : j ≠ k) :
    (releaseOf peerId d k).pending j = d.pending j := by
  rw [releaseOf_eq]
  split
  · simp [clear, hj]
  · rfl

theorem releaseOf_find (id : UInt32) :
    (releaseOf peerId d k).find id = d.find id := by
  rw [releaseOf_eq]
  rfl

/-- The loop, over any slots: those that concern the peer are cleared, and the requesters of its agent told. -/
theorem foldl_releaseOf (peerId : UInt32) (ks : List (Fin brokerPendingIfconfigMax)) (hks : ks.Nodup) (d : Desk) :
    ks.foldl (releaseOf peerId) d =
      { d with
        pending := fun k => if k ∈ ks ∧ d.Concerns peerId k then { d.pending k with inUse := false } else d.pending k
        replies := d.replies ++ (ks.filter (d.Told peerId)).map d.notice } := by
  induction ks generalizing d with
  | nil => simp
  | cons k ks ih =>
    obtain ⟨hk, hks⟩ := nodup_cons.1 hks
    have hother : ∀ j, j ∈ ks → (releaseOf peerId d k).pending j = d.pending j := by
      intro j hj
      refine releaseOf_of_ne fun hjk => hk ?_
      rwa [← hjk]
    have htold : ks.filter ((releaseOf peerId d k).Told peerId) = ks.filter (d.Told peerId) :=
      filter_congr fun j hj => by simp only [Told, hother j hj, releaseOf_find]
    have hnotice : (ks.filter (d.Told peerId)).map (releaseOf peerId d k).notice = (ks.filter (d.Told peerId)).map d.notice :=
      map_congr_left fun j hj => by simp only [notice, hother j (mem_filter.1 hj).1]
    rw [foldl_cons, ih hks, htold, hnotice]
    have hpending : ∀ j, (releaseOf peerId d k).pending j =
        if j = k ∧ d.Concerns peerId k then { d.pending j with inUse := false } else d.pending j := by
      intro j
      by_cases hj : j = k
      · subst hj
        rw [releaseOf_eq]
        by_cases hc : d.Concerns peerId j <;> simp [hc, clear]
      · rw [releaseOf_of_ne hj]
        simp [hj]
    refine Desk.mk.injEq .. ▸ ⟨?_, ?_, ?_, ?_, ?_⟩
    · funext j
      by_cases hj : j = k
      · subst hj
        simp [hk, hpending]
      · have hsame : (releaseOf peerId d k).pending j = d.pending j := releaseOf_of_ne hj
        simp [hj, Concerns, hsame]
    · rw [releaseOf_eq]
    · rw [releaseOf_eq]
    · rw [releaseOf_eq]
      by_cases ht : d.Told peerId k <;> simp [ht]
    · rw [releaseOf_eq]

/-- **The requests that concern a peer go with it, and those that were for it are answered.** -/
theorem release_eq (peerId : UInt32) :
    d.release peerId =
      { d with
        pending := fun k => if d.Concerns peerId k then { d.pending k with inUse := false } else d.pending k
        replies := d.replies ++ ((finRange brokerPendingIfconfigMax).filter (d.Told peerId)).map d.notice } := by
  rw [release, foldl_releaseOf _ _ (nodup_finRange _)]
  simp only [mem_finRange, true_and]

theorem stand_seats (hd : d.Distinct) {id : UInt32} :
    (d.stand peerId).IsSeated id ↔ id ≠ peerId ∧ d.IsSeated id := by
  unfold stand
  cases h : d.find peerId with
  | none =>
    have hnot : ¬ d.IsSeated peerId := by rw [← find_isSome, h]; simp
    refine ⟨fun hs => ⟨fun he => hnot (he ▸ hs), hs⟩, (·.2)⟩
  | some i =>
    have hi : d.seats i = (true, peerId) := by
      have := Table.find?_some h
      rcases hs : d.seats i with ⟨inUse, p⟩
      rw [hs] at this
      simpa using this
    constructor
    · rintro ⟨j, hj⟩
      by_cases hji : j = i
      · simp [hji] at hj
      · replace hj : d.seats j = (true, id) := by simpa [hji] using hj
        exact ⟨fun he => hji (hd j i peerId (he ▸ hj) hi), j, hj⟩
    · rintro ⟨hne, j, hj⟩
      have hji : j ≠ i := by
        rintro rfl
        rw [hi] at hj
        exact hne (by simpa using hj.symm)
      exact ⟨j, by simpa [hji] using hj⟩

/-- The slot's request has been answered or forgotten. -/
def Closed (d d' : Desk) (k : Fin brokerPendingIfconfigMax) : Prop := (d.pending k).inUse ∧ ¬ (d'.pending k).inUse

/-- Requests have been closed, because a peer left. `told` are those whose requesters heard of it. -/
structure Settles (d d' : Desk) (told : List (Fin brokerPendingIfconfigMax)) : Prop where
  distinct : d'.Distinct
  next : d'.nextRequestId = d.nextRequestId
  forwarded : d'.forwarded = d.forwarded
  slot : ∀ k, d'.pending k = d.pending k ∨ Closed d d' k ∧ d'.pending k = { d.pending k with inUse := false }
  seats : ∀ id, d'.IsSeated id → d.IsSeated id
  left : ∀ id, d.IsSeated id → ¬ d'.IsSeated id → ∀ k, ¬ d'.Concerns id k
  once : told.Nodup
  closed : ∀ k ∈ told, Closed d d' k ∧ ¬ d'.IsSeated (d.pending k).agentPeerId
  heard : ∀ k, Closed d d' k → d'.IsSeated (d.pending k).requesterPeerId → k ∈ told
  replies : d'.replies = d.replies ++ told.map d.notice

theorem Settles.refl (hd : d.Distinct) : Settles d d [] where
  distinct := hd
  next := rfl
  forwarded := rfl
  slot _ := .inl rfl
  seats _ h := h
  left _ h hn := absurd h hn
  once := .nil
  closed _ h := absurd h (not_mem_nil)
  heard _ h := absurd h.1 h.2
  replies := by simp

/-- A slot in use has not been touched. -/
theorem Settles.kept {told : List (Fin brokerPendingIfconfigMax)} (h : Settles d d' told)
    (hk : (d'.pending k).inUse) : d'.pending k = d.pending k := by
  rcases h.slot k with hs | ⟨hc, _⟩
  · exact hs
  · exact absurd hk hc.2

theorem Settles.trans {told told' : List (Fin brokerPendingIfconfigMax)} (h : Settles d d' told)
    (h' : Settles d' d'' told') : Settles d d'' (told ++ told') := by
  -- what the second part closes was in use all through the first
  have hlater : ∀ k, Closed d' d'' k → Closed d d'' k := fun k hk => ⟨by rw [← h.kept hk.1]; exact hk.1, hk.2⟩
  have hstays : ∀ k, Closed d d' k → d''.pending k = d'.pending k := by
    intro k hk
    rcases h'.slot k with hs | ⟨hc, _⟩
    · exact hs
    · exact absurd hc.1 hk.2
  have hearlier : ∀ k, Closed d d' k → Closed d d'' k := fun k hk => ⟨hk.1, by rw [hstays k hk]; exact hk.2⟩
  have hcases : ∀ k, Closed d d'' k → Closed d d' k ∨ Closed d' d'' k := by
    intro k hk
    by_cases hu : (d'.pending k).inUse
    · exact .inr ⟨hu, hk.2⟩
    · exact .inl ⟨hk.1, hu⟩
  refine ⟨h'.distinct, h'.next.trans h.next, h'.forwarded.trans h.forwarded, fun k => ?_,
    fun id hid => h.seats id (h'.seats id hid), ?_, ?_, ?_, ?_, ?_⟩
  · rcases h.slot k with hs | ⟨hc, hs⟩
    · rcases h'.slot k with hs' | ⟨hc', hs'⟩
      · exact .inl (hs'.trans hs)
      · exact .inr ⟨hlater k hc', by rw [hs', hs]⟩
    · exact .inr ⟨hearlier k hc, (hstays k hc).trans hs⟩
  · intro id hid hnot k hk
    by_cases hmid : d'.IsSeated id
    · exact h'.left id hmid hnot k hk
    · refine h.left id hid hmid k ?_
      unfold Concerns at hk ⊢
      rwa [← h'.kept hk.1]
  · rw [nodup_append']
    exact ⟨h.once, h'.once, fun k hk hk' => (h.closed k hk).1.2 (h'.closed k hk').1.1⟩
  · intro k hk
    rcases mem_append.1 hk with hk | hk
    · exact ⟨hearlier k (h.closed k hk).1, fun hseat => (h.closed k hk).2 (h'.seats _ hseat)⟩
    · refine ⟨hlater k (h'.closed k hk).1, ?_⟩
      rw [← h.kept (h'.closed k hk).1.1]
      exact (h'.closed k hk).2
  · intro k hk hseat
    rw [mem_append]
    rcases hcases k hk with hc | hc
    · exact .inl (h.heard k hc (h'.seats _ hseat))
    · exact .inr (h'.heard k hc (by rwa [h.kept hc.1]))
  · have hsame : told'.map d'.notice = told'.map d.notice :=
      map_congr_left fun k hk => by rw [notice, notice, h.kept (h'.closed k hk).1.1]
    rw [h'.replies, h.replies, hsame, map_append, append_assoc]

/-- The requests of a peer that leaves are closed; those for it are answered. -/
theorem leave_settles (hd : d.Distinct) (peerId : UInt32) : ∃ told, Settles d (d.leave peerId) told := by
  have hpending : (d.leave peerId).pending = (d.release peerId).pending := by
    unfold leave stand
    split <;> rfl
  have hslot : ∀ k, (d.leave peerId).pending k =
      if d.Concerns peerId k then { d.pending k with inUse := false } else d.pending k := by
    intro k
    rw [hpending, release_eq]
  have hclosed : ∀ k, Closed d (d.leave peerId) k ↔ d.Concerns peerId k := by
    intro k
    unfold Closed
    rw [hslot]
    by_cases hc : d.Concerns peerId k
    · simp [hc, hc.1]
    · simp [hc]
  have hseats : ∀ id, (d.leave peerId).IsSeated id ↔ id ≠ peerId ∧ d.IsSeated id := by
    intro id
    have hrel : (d.release peerId).seats = d.seats := by rw [release_eq]
    rw [leave, stand_seats (by unfold Distinct; rw [hrel]; exact hd)]
    unfold IsSeated
    rw [hrel]
  have hrest : (d.leave peerId).nextRequestId = d.nextRequestId ∧ (d.leave peerId).forwarded = d.forwarded
      ∧ (d.leave peerId).replies = (d.release peerId).replies := by
    unfold leave stand
    split <;> simp [release_eq]
  refine ⟨(finRange brokerPendingIfconfigMax).filter (d.Told peerId), ?_, hrest.1, hrest.2.1, fun k => ?_,
    fun id hid => ((hseats id).1 hid).2, fun id hid hnot k hk => ?_, (nodup_finRange _).filter _, fun k hk => ?_,
    fun k hk hseat => ?_, ?_⟩
  · intro i j id hi hj
    have hstood : ∀ i, (d.leave peerId).seats i = (true, id) → d.seats i = (true, id) := by
      intro i h
      have hrel : (d.release peerId).seats = d.seats := by rw [release_eq]
      unfold leave stand at h
      split at h
      · rename_i l _
        by_cases hl : i = l
        · simp [hl] at h
        · simpa [hl, hrel] using h
      · rwa [hrel] at h
    exact hd i j id (hstood i hi) (hstood j hj)
  · by_cases hc : d.Concerns peerId k
    · exact .inr ⟨(hclosed k).2 hc, by rw [hslot, if_pos hc]⟩
    · exact .inl (by rw [hslot, if_neg hc])
  · have hid' : id = peerId := by
      by_contra hne
      exact hnot ((hseats id).2 ⟨hne, hid⟩)
    subst hid'
    unfold Concerns at hk
    rw [hslot] at hk
    by_cases hc : d.Concerns id k
    · simp [hc] at hk
    · rw [if_neg hc] at hk
      exact hc hk
  · have ht : d.Told peerId k = true := (mem_filter.1 hk).2
    rw [hclosed, hseats]
    simp only [Told, Bool.and_eq_true, beq_iff_eq] at ht
    exact ⟨⟨ht.1.1, .inl ht.1.2⟩, fun hseat => hseat.1 ht.1.2⟩
  · obtain ⟨hne, hseat⟩ := (hseats _).1 hseat
    obtain ⟨hu, hp⟩ := (hclosed k).1 hk
    rw [mem_filter]
    refine ⟨mem_finRange k, ?_⟩
    simp only [Told, Bool.and_eq_true, beq_iff_eq]
    exact ⟨⟨hu, hp.resolve_right hne⟩, find_isSome.2 hseat⟩
  · rw [hrest.2.2, release_eq]

/-- **However many peers leave, what they had to do with is settled.** -/
theorem Empties.settles (h : Empties d d') (hd : d.Distinct) : ∃ told, Settles d d' told := by
  induction h with
  | refl => exact ⟨[], .refl hd⟩
  | @leave _ peerId _ _ ih =>
    obtain ⟨told, ih⟩ := ih
    obtain ⟨told', hleave⟩ := leave_settles ih.distinct peerId
    exact ⟨told ++ told', ih.trans hleave⟩

/-! ### The two messages of the desk -/

/-- A CONFIGURE is remembered and forwarded. -/
def accept (d : Desk) (k : Fin brokerPendingIfconfigMax) (r : PendingIfconfig) (m : IfconfigMessage) : Desk :=
  { d with
    pending := Function.update d.pending k r
    nextRequestId := r.requestId
    forwarded := d.forwarded ++ [(r.agentPeerId, m)] }

end Desk

namespace Broker

/-- The CONFIGURE is accepted: what is remembered of it, and what the agent is sent. -/
structure Forwards (s : Broker) (peerId : UInt32) (m : ConfigureMessage) (r : PendingIfconfig) (out : IfconfigMessage) :
    Prop where
  inUse : r.inUse
  requester : r.requesterPeerId = peerId
  requestId : r.requestId = s.nextIfconfigRequestId + 1
  owner : ∃ k, s.registry.findByName m.agentName m.interfaceName = some k ∧ (s.registry.entries k).isVirtual = false
    ∧ r.agentPeerId = (s.registry.entries k).agentPeerId ∧ r.interfaceId = (s.registry.entries k).interfaceId
    ∧ out = ⟨r.requestId, (s.registry.entries k).interfaceName, m.op, m.settings⟩
  agent : s.desk.IsSeated r.agentPeerId

theorem desk_peerId {s s₁ : Broker} (h : s₁.desk = s.desk) (i : PeerSlot) :
    (s₁.directory i).peerId = (s.directory i).peerId :=
  congrArg (fun d : Desk => (d.seats i).2) h

theorem isSeated_iff {s : Broker} : s.desk.IsSeated peerId ↔ (s.find peerId).isSome := by
  rw [← desk_find, Desk.find_isSome]

theorem ifconfig_desk (s : Broker) (i : PeerSlot) (m : IfconfigMessage) :
    (s.sendControl i (.ifconfig m)).desk =
      { s.desk with forwarded := s.desk.forwarded ++ [((s.directory i).peerId, m)] } := by
  have hemit : ∀ taken, (s.ask.1.emit (.control (s.ask.1.directory i).peerId (.ifconfig m) taken)).desk =
      { s.desk with forwarded := s.desk.forwarded ++ [((s.directory i).peerId, m)] } := by
    intro taken
    simp [desk, emit, ask, HubOutput.ifconfig?, HubOutput.configureReply?]
  unfold sendControl
  dsimp only
  split
  · exact hemit _
  · rw [modifyPeer_desk _ ⟨rfl, rfl⟩]
    exact hemit _

/-- A CONFIGURE is ignored, refused with one reply, or accepted. -/
theorem handleConfigure_desk (s : Broker) (i : PeerSlot) (m : ConfigureMessage) :
    (s.handleConfigure i m).desk = s.desk
    ∨ (∃ status, (s.handleConfigure i m).desk = s.desk.reply (s.directory i).peerId { status })
    ∨ ∃ k r out, ¬ (s.pendingIfconfig k).inUse ∧ s.Forwards (s.directory i).peerId m r out
      ∧ (s.handleConfigure i m).desk = s.desk.accept k r out := by
  have hrefuse : ∀ (s₁ : Broker) status, s₁.desk = s.desk →
      ∃ status', (s₁.replyConfigure i status).desk = s.desk.reply (s.directory i).peerId { status := status' } := by
    intro s₁ status h₁
    rw [replyConfigure, configureReply_desk, h₁, desk_peerId h₁]
    exact ⟨status, rfl⟩
  unfold handleConfigure
  split
  · exact .inl rfl
  refine .inr ?_
  cases hname : s.registry.findByName m.agentName m.interfaceName with
  | none => exact .inl (hrefuse s _ rfl)
  | some e =>
    dsimp only
    split
    · exact .inl (hrefuse s _ rfl)
    rename_i hvirtual
    rcases hmay : s.peerCanConfigure i with ⟨s₁, may⟩
    have h₁ : s₁.desk = s.desk := by
      rw [← (s.peerCanConfigure_fixed i).desk, hmay]
    cases may with
    | false => exact .inl (hrefuse s₁ _ h₁)
    | true =>
      dsimp only
      cases hfind : s₁.find (s.registry.entries e).agentPeerId with
      | none => exact .inl (hrefuse s₁ _ h₁)
      | some agent =>
        dsimp only
        split
        · exact .inl (hrefuse s₁ _ h₁)
        cases hslot : s₁.pendingIfconfig.find? fun p => !p.inUse with
        | none =>
          have hnone : s₁.rememberPendingIfconfig (s₁.directory i).peerId (s.registry.entries e) = none := by
            rw [rememberPendingIfconfig, hslot]
            rfl
          rw [hnone]
          exact .inl (hrefuse s₁ _ h₁)
        | some k =>
          have hfree : ¬ (s₁.pendingIfconfig k).inUse := by
            have := Table.find?_some hslot
            simpa using this
          have hpending : s₁.pendingIfconfig = s.pendingIfconfig := congrArg Desk.pending h₁
          have hnext : s₁.nextIfconfigRequestId = s.nextIfconfigRequestId := congrArg Desk.nextRequestId h₁
          have hseat : s.desk.IsSeated (s.registry.entries e).agentPeerId := by
            rw [← h₁, isSeated_iff, hfind]
            rfl
          have hagent : (s₁.directory agent).peerId = (s.registry.entries e).agentPeerId := (PeerDirectory.find_some hfind).2
          refine .inr ⟨k, ⟨true, (s.directory i).peerId, (s.registry.entries e).agentPeerId,
            (s.registry.entries e).interfaceId, s.nextIfconfigRequestId + 1⟩, _, hpending ▸ hfree,
            ⟨rfl, rfl, rfl, ⟨e, hname, by simpa using hvirtual, rfl, rfl, rfl⟩, hseat⟩, ?_⟩
          rw [rememberPendingIfconfig, hslot, Option.map_some]
          rw [ifconfig_desk]
          unfold Desk.accept
          rw [← h₁]
          simp only [desk, hnext, hagent, hpending, desk_peerId h₁]

/-- An IFCONFIG_REPLY is ignored, or answers the request it names, which was for the agent that sends it. -/
theorem handleIfconfigReply_desk (s : Broker) (i : PeerSlot) (m : IfconfigReplyMessage) :
    (s.handleIfconfigReply i m).desk = s.desk
    ∨ ∃ k, (s.pendingIfconfig k).inUse ∧ (s.pendingIfconfig k).agentPeerId = (s.directory i).peerId
      ∧ (s.pendingIfconfig k).requestId = m.requestId
      ∧ (s.handleIfconfigReply i m).desk =
        if (s.find (s.pendingIfconfig k).requesterPeerId).isSome then
          (s.desk.clear k).reply (s.pendingIfconfig k).requesterPeerId ⟨configureStatus m.status, m.settings, m.detail⟩
        else s.desk.clear k := by
  unfold handleIfconfigReply
  split
  · exact .inl rfl
  split
  · exact .inl rfl
  rename_i k hfind
  have hk := Table.find?_some hfind
  simp only [Bool.and_eq_true, beq_iff_eq] at hk
  refine .inr ⟨k, hk.1.1, hk.1.2, hk.2, ?_⟩
  dsimp only
  have hlearnt : ((s.clearPendingIfconfig k).learnFdFromSettings (s.pendingIfconfig k).interfaceId m.settings).desk =
      s.desk.clear k := by
    rw [← clearPendingIfconfig_desk]
    unfold learnFdFromSettings
    split
    · rfl
    · exact (perform_still _ (.learn _ _)).desk
  have hsame : ∀ id, ((s.clearPendingIfconfig k).learnFdFromSettings (s.pendingIfconfig k).interfaceId m.settings).find id
      = s.find id := by
    intro id
    rw [← desk_find, hlearnt, ← desk_find]
    rfl
  rw [hsame]
  cases hreq : s.find (s.pendingIfconfig k).requesterPeerId with
  | none => simpa using hlearnt
  | some requester =>
    have hid : (((s.clearPendingIfconfig k).learnFdFromSettings (s.pendingIfconfig k).interfaceId
        m.settings).directory requester).peerId = (s.pendingIfconfig k).requesterPeerId := by
      refine Eq.trans ?_ (PeerDirectory.find_some hreq).2
      exact congrArg (fun d : Desk => (d.seats requester).2) hlearnt
    rw [configureReply_desk, hlearnt, hid]
    simp

end Broker
end CanHub
