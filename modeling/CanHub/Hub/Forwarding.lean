/-
# What happens to frames

Of all that an event does to the hub, only the acts hand a frame to the transport,
park one, count one or issue an echo token: every other change leaves the frames of
every peer as they are (`Untouched`), or forgets the tokens of a client
(`Move.frames`). What a forwarded frame does is a choice of three: it is handed over
and taken, handed over and kept, or parked without being offered (`Forwarded`).
-/
import CanHub.Hub.Events

namespace CanHub

/-- The frames of a peer with one more parked: another may have had to go. -/
def HubPeer.parked (p : HubPeer) (channel : UInt8) (slot : EgressSlot) : EgressQueue × UInt32 × UInt32 :=
  ((p.egress.push channel slot).1, p.framesForwarded,
    if (p.egress.push channel slot).2.isSome then p.framesDropped + 1 else p.framesDropped)

namespace Broker

variable {s s' s'' : Broker} {P : Broker → Act → Prop}

/-! ### Changes that leave frames alone -/

/-- **Frames are touched by acts alone**: any other change leaves them, or forgets a client's tokens. -/
theorem Move.frames (h : Move P s s') :
    Untouched s s' ∨ (∃ a, P s a ∧ s' = s.perform a) ∨ ∃ clientPeerId, s' = s.releaseEchoTokens clientPeerId := by
  cases h.kind with
  | acted ha => exact .inr (.inl ⟨_, ha, rfl⟩)
  | forgotten clientPeerId => exact .inr (.inr ⟨clientPeerId, rfl⟩)
  | alike ha => exact .inl ha.untouched
  | @adopted i role =>
    have hpeer : ∀ j, ((s.modifyPeer i fun p => { p with role }).directory j).frames = (s.directory j).frames
        ∧ ((s.modifyPeer i fun p => { p with role }).directory j).echoTokens = (s.directory j).echoTokens := fun j => by
      by_cases hj : j = i
      · subst hj
        rw [modifyPeer_directory_self]
        exact ⟨rfl, rfl⟩
      · rw [modifyPeer_directory_of_ne _ hj]
        exact ⟨rfl, rfl⟩
    exact .inl ⟨fun j => (hpeer j).1, fun j => (hpeer j).2, rfl, [], (List.append_nil _).symm, by simp⟩
  | rearranged hr => exact .inl hr.toUntouched
  | groupClosed _ hr => exact .inl ⟨hr.frames, hr.echoTokens, hr.leaseFrameDrops, hr.log⟩

theorem releaseSlot_frames (peerId : UInt32) : (s.releaseSlot peerId).port = s.port
    ∧ (s.releaseSlot peerId).metrics = s.metrics
    ∧ ∀ i, (s.releaseSlot peerId).directory i = s.directory i ∨ (s.releaseSlot peerId).directory i = {} := by
  refine ⟨?_, ?_, fun j => ?_⟩
  · unfold releaseSlot
    split <;> rfl
  · unfold releaseSlot
    split <;> rfl
  · rcases s.releaseSlot_directory peerId j with ⟨_, h⟩ | ⟨_, h⟩
    · exact .inr h
    · exact .inl h

/-- A peer that leaves takes its frames along. -/
theorem Leave.frames (h : Leave s s') : ∃ s₁, Untouched s s₁ ∧ s'.port = s₁.port ∧ s'.metrics = s₁.metrics
    ∧ ∀ i, s'.directory i = s₁.directory i ∨ s'.directory i = {} := by
  cases h with
  | released => exact ⟨s, .refl s, releaseSlot_frames _⟩
  | @agentLeft i _ hrole =>
    obtain ⟨s₁, hr, hlost⟩ := s.agentLost_eq (s.directory i).peerId
    have huntouched : Untouched s { s₁ with registry := s.registry.removePeer (s.directory i).peerId } :=
      ⟨hr.frames, hr.echoTokens, hr.leaseFrameDrops, hr.log⟩
    rw [s.releasePeer_agent hrole, hlost]
    exact ⟨_, huntouched.trans (releasePendingIfconfig_hushed _ _).untouched, releaseSlot_frames _⟩

/-! ### What an act does -/

/-- One peer's frames are `q` now, the others' are as before, and the hub has put `o` out. -/
structure Touched (s s' : Broker) (i : PeerSlot) (o : List HubOutput) (q : EgressQueue × UInt32 × UInt32) : Prop where
  self : (s'.directory i).frames = q
  others : ∀ j, j ≠ i → (s'.directory j).frames = (s.directory j).frames
  echoTokens : ∀ j, (s'.directory j).echoTokens = (s.directory j).echoTokens
  leaseFrameDrops : s'.metrics.transactions.leaseFrameDrops = s.metrics.transactions.leaseFrameDrops
  log : s'.port.log = s.port.log ++ o

variable {q : EgressQueue × UInt32 × UInt32} {i : PeerSlot}

variable {o : List HubOutput}

theorem Touched.of_untouched
    (h : Untouched s s') (hlog : s'.port.log = s.port.log) (h' : Touched s' s'' i o q) : Touched s s'' i o q where
  self := h'.self
  others j hj := (h'.others j hj).trans (h.frames j)
  echoTokens j := (h'.echoTokens j).trans (h.echoTokens j)
  leaseFrameDrops := h'.leaseFrameDrops.trans h.leaseFrameDrops
  log := by rw [h'.log, hlog]

theorem Touched.trans {o' : List HubOutput} {q q' : EgressQueue × UInt32 × UInt32}
    (h : Touched s s' i o q) (h' : Touched s' s'' i o' q') : Touched s s'' i (o ++ o') q' where
  self := h'.self
  others j hj := (h'.others j hj).trans (h.others j hj)
  echoTokens j := (h'.echoTokens j).trans (h.echoTokens j)
  leaseFrameDrops := h'.leaseFrameDrops.trans h.leaseFrameDrops
  log := by rw [h'.log, h.log, List.append_assoc]

theorem sendFrame_touched (peerId : UInt32) (channel : UInt8) (d : Datagram) (i : PeerSlot) :
    Touched s (s.sendFrame peerId channel d).1 i [.datagram peerId channel d (s.sendFrame peerId channel d).2]
      (s.directory i).frames :=
  ⟨rfl, fun _ _ => rfl, fun _ => rfl, rfl, rfl⟩

theorem Touched.then_untouched
    (h : Touched s s' i o q) (h' : Untouched s' s'') (hlog : s''.port.log = s'.port.log) : Touched s s'' i o q where
  self := (h'.frames i).trans h.self
  others j hj := (h'.frames j).trans (h.others j hj)
  echoTokens j := (h'.echoTokens j).trans (h.echoTokens j)
  leaseFrameDrops := h'.leaseFrameDrops.trans h.leaseFrameDrops
  log := by rw [hlog, h.log]

theorem modifyBinding_untouched (i : PeerSlot) (channel : UInt8) (g : ChannelBinding → ChannelBinding) :
    Untouched s (s.modifyBinding i channel g) ∧ (s.modifyBinding i channel g).port = s.port := by
  unfold modifyBinding
  split
  · split
    · exact ⟨(s.modifySession_shuffles _ _).toUntouched, rfl⟩
    · exact ⟨.refl s, rfl⟩
  · exact ⟨.refl s, rfl⟩

/-- A change of one peer's frames. -/
theorem modifyPeer_touched {f : HubPeer → HubPeer}
    (hf : (f (s.directory i)).echoTokens = (s.directory i).echoTokens) :
    Touched s (s.modifyPeer i f) i [] (f (s.directory i)).frames := by
  refine ⟨congrArg HubPeer.frames (modifyPeer_directory_self f), fun j hj => ?_, fun j => ?_, rfl,
    (List.append_nil _).symm⟩
  · rw [modifyPeer_directory_of_ne _ hj]
  · by_cases hj : j = i
    · subst hj
      rw [modifyPeer_directory_self]
      exact hf
    · rw [modifyPeer_directory_of_ne _ hj]

/-- A change of one peer's frames and of a binding's counters. -/
theorem count_touched {channel : UInt8} {m : HubMetrics → HubMetrics} {f : HubPeer → HubPeer}
    {g : ChannelBinding → ChannelBinding} (hm : (m s.metrics).transactions = s.metrics.transactions)
    (hf : (f (s.directory i)).echoTokens = (s.directory i).echoTokens) :
    Touched s (((s.countFrames m).modifyPeer i f).modifyBinding i channel g) i [] (f (s.directory i)).frames := by
  have hpeer : Touched s ((s.countFrames m).modifyPeer i f) i [] (f (s.directory i)).frames :=
    { modifyPeer_touched (s := s.countFrames m) hf with
      leaseFrameDrops := congrArg TransactionCounters.leaseFrameDrops hm }
  have hbinding := modifyBinding_untouched (s := (s.countFrames m).modifyPeer i f) i channel g
  exact hpeer.then_untouched hbinding.1 (by rw [hbinding.2])

theorem countForwarded_touched (i : PeerSlot) (channel : UInt8) : Touched s (s.countForwarded i channel) i []
    ((s.directory i).egress, (s.directory i).framesForwarded + 1, (s.directory i).framesDropped) :=
  count_touched rfl rfl

theorem countDropped_touched (i : PeerSlot) (channel : UInt8) : Touched s (s.countDropped i channel) i []
    ((s.directory i).egress, (s.directory i).framesForwarded, (s.directory i).framesDropped + 1) :=
  count_touched rfl rfl

theorem enqueueFrame_touched (i : PeerSlot) (channel : UInt8) (f : FrameMessage) :
    Touched s (s.enqueueFrame i channel f) i [] ((s.directory i).parked channel ⟨f, s.nowUs⟩) := by
  have hpush : Touched s (s.modifyPeer i fun p =>
      { p with egress := ((s.directory i).egress.push channel ⟨f, s.nowUs⟩).1 }) i []
      (((s.directory i).egress.push channel ⟨f, s.nowUs⟩).1, (s.directory i).framesForwarded,
        (s.directory i).framesDropped) := modifyPeer_touched rfl
  unfold enqueueFrame HubPeer.parked
  generalize hq : (s.directory i).egress.push channel ⟨f, s.nowUs⟩ = q at hpush ⊢
  obtain ⟨egress, evicted⟩ := q
  cases evicted with
  | none => exact hpush
  | some c =>
    have hdropped := hpush.trans (countDropped_touched i c)
    rw [modifyPeer_directory_self] at hdropped
    exact hdropped

/-- The frame as it goes out along a route. -/
abbrev outgoing (r : FrameRoute) (f : FrameMessage) (routeFlags : UInt8) : FrameMessage :=
  { f with channel := r.channel, routeFlags }

/-- What becomes of a frame forwarded to the peer in slot `i`: the transport takes it; it does not, and the route
is reliable; it is parked, offered before or not. A lossy frame is offered only if none is parked before it. -/
inductive Forwarded (s : Broker) (i : PeerSlot) (r : FrameRoute) (out : FrameMessage) (s' : Broker) : Prop
  | taken (h : Touched s s' i [.datagram r.peerId r.channel (.frame out) true]
        ((s.directory i).egress, (s.directory i).framesForwarded + 1, (s.directory i).framesDropped))
      (hr : r.reliable = false → (s.directory i).egress.channels r.channel = [])
  | refused (hr : r.reliable) (h : Touched s s' i [.datagram r.peerId r.channel (.frame out) false] (s.directory i).frames)
  | parked {o : List HubOutput} (hr : r.reliable = false)
      (ho : o = [] ∨ o = [.datagram r.peerId r.channel (.frame out) false])
      (h : Touched s s' i o ((s.directory i).parked r.channel ⟨out, s.nowUs⟩))

/-- What is offered leaves the peers as they are. -/
theorem sendFrame_eq {peerId : UInt32} {channel : UInt8} {d : Datagram} {taken : Bool}
    (h : s.sendFrame peerId channel d = (s', taken)) : s'.directory = s.directory ∧ s'.nowUs = s.nowUs
      ∧ ∀ i, Touched s s' i [.datagram peerId channel d taken] (s.directory i).frames := by
  have hsend := sendFrame_touched (s := s) peerId channel d
  rw [h] at hsend
  exact ⟨congrArg (fun x => x.1.directory) h.symm, congrArg (fun x => x.1.nowUs) h.symm, hsend⟩

theorem perform_forwarded {r : FrameRoute} (hi : s.find r.peerId = some i) (f : FrameMessage)
    (routeFlags : UInt8) :
    Forwarded s i r (outgoing r f routeFlags) (s.perform (.forward r f routeFlags)) := by
  by_cases hr : r.reliable
  · simp only [perform, if_pos hr, offer, hi]
    rcases hs : s.sendFrame r.peerId r.channel (.frame (outgoing r f routeFlags)) with ⟨s₁, taken⟩
    obtain ⟨hdir, _, hsend⟩ := sendFrame_eq hs
    cases taken with
    | true =>
      have hcount := (hsend i).trans (countForwarded_touched i r.channel)
      rw [hdir] at hcount
      exact .taken hcount fun h => absurd hr (by rw [h]; simp)
    | false => exact .refused hr (hsend i)
  · simp only [perform, if_neg hr, forwardFrame, hi]
    have hlossy : r.reliable = false := by simpa using hr
    by_cases hpending : (s.directory i).egress.channelPending r.channel
    · rw [if_pos hpending]
      exact .parked hlossy (.inl rfl) (enqueueFrame_touched i r.channel _)
    · rw [if_neg hpending]
      have hempty : (s.directory i).egress.channels r.channel = [] := by
        simpa [EgressQueue.channelPending] using hpending
      -- The pace only takes from the agent's bucket.
      have hpace := (s.tryEgress_fixed r.peerId r.channel (outgoing r f routeFlags)).untouched
      rcases hgo : s.tryEgress r.peerId r.channel (outgoing r f routeFlags) with ⟨s₁, go⟩
      rw [hgo] at hpace
      have hport : s₁.port = s.port := congrArg (fun x => x.1.port) hgo.symm
      have hdir₁ : s₁.directory = s.directory := congrArg (fun x => x.1.directory) hgo.symm
      have hnow₁ : s₁.nowUs = s.nowUs := congrArg (fun x => x.1.nowUs) hgo.symm
      cases go with
      | false =>
        have hpark := Touched.of_untouched hpace (by rw [hport]) (enqueueFrame_touched i r.channel (outgoing r f routeFlags))
        rw [hdir₁, hnow₁] at hpark
        exact .parked hlossy (.inl rfl) hpark
      | true =>
        dsimp only
        rcases hs : s₁.sendFrame r.peerId r.channel (.frame (outgoing r f routeFlags)) with ⟨s₂, taken⟩
        obtain ⟨hdir₂, hnow₂, hsend⟩ := sendFrame_eq hs
        have hoffer := Touched.of_untouched hpace (by rw [hport]) (hsend i)
        cases taken with
        | true =>
          have hcount := hoffer.trans (countForwarded_touched i r.channel)
          rw [hdir₂, hdir₁] at hcount
          exact .taken hcount fun _ => hempty
        | false =>
          have hpark := hoffer.trans (enqueueFrame_touched i r.channel (outgoing r f routeFlags))
          rw [hdir₂, hdir₁, hnow₂, hnow₁] at hpark
          exact .parked hlossy (.inr rfl) hpark

/-- A frame to a peer that is not there. -/
theorem perform_forwarded_none {r : FrameRoute} (h : s.find r.peerId = none) (f : FrameMessage) (routeFlags : UInt8) :
    ∃ taken, ∀ i, Touched s (s.perform (.forward r f routeFlags)) i
      [.datagram r.peerId r.channel (.frame (outgoing r f routeFlags)) taken] (s.directory i).frames := by
  have hforward : s.perform (.forward r f routeFlags) = (s.forwardFrame r f routeFlags).1 := by
    by_cases hr : r.reliable
    · simp only [perform, if_pos hr, offer, h]
    · simp only [perform, if_neg hr]
  rw [hforward]
  unfold forwardFrame
  rw [h]
  dsimp only
  rcases hs : s.sendFrame r.peerId r.channel (.frame (outgoing r f routeFlags)) with ⟨s₁, taken⟩
  obtain ⟨_, _, hsend⟩ := sendFrame_eq hs
  refine ⟨taken, fun i => ?_⟩
  cases taken with
  | true =>
    have hcount : Alike s₁ (s₁.countFrames fun m => { m with framesForwarded := m.framesForwarded + 1 }) :=
      (countFrames_fixed rfl).toAlike
    exact (hsend i).then_untouched hcount.untouched rfl
  | false =>
    have hcount : Alike s₁ (s₁.countFrames fun m => { m with framesDropped := m.framesDropped + 1 }) :=
      (countFrames_fixed rfl).toAlike
    exact (hsend i).then_untouched hcount.untouched rfl

/-! ### Channels that get nothing -/

/-- The act hands nothing to the channel. -/
def Act.Avoids (peerId : UInt32) (channel : UInt8) : Act → Prop
  | .forward r _ _ => ¬ (r.peerId = peerId ∧ r.channel = channel)
  | .drain _ => False
  | _ => True

/-- Nothing was handed to the transport for the channel of the peer in slot `a`, and nothing was parked for it;
what was parked may have been evicted. -/
structure Spared (a : PeerSlot) (peerId : UInt32) (channel : UInt8) (s s' : Broker) : Prop where
  log : Says (fun x => ∀ f taken, x ≠ .datagram peerId channel (.frame f) taken) s s'
  egress : ((s'.directory a).egress.channels channel).Sublist ((s.directory a).egress.channels channel)

variable {a : PeerSlot} {peerId : UInt32} {channel : UInt8}

theorem Spared.refl (s : Broker) : Spared a peerId channel s s := ⟨⟨[], by simp, by simp⟩, .refl _⟩

theorem Spared.trans (h : Spared a peerId channel s s') (h' : Spared a peerId channel s' s'') :
    Spared a peerId channel s s'' := ⟨h.log.trans h'.log, h'.egress.trans h.egress⟩

theorem Untouched.spared (h : Untouched s s') : Spared a peerId channel s s' := by
  obtain ⟨o, ho, hf⟩ := h.log
  refine ⟨⟨o, ho, fun x hx f taken he => ?_⟩, ?_⟩
  · have := hf x hx
    rw [he] at this
    cases this
  · rw [(Prod.mk.inj (h.frames a)).1]

end Broker

/-- Parking a frame on a channel parks none on another. -/
theorem EgressQueue.push_other {q : EgressQueue} {c channel : UInt8} (h : c ≠ channel) (slot : EgressSlot) :
    ((q.push channel slot).1.channels c).Sublist (q.channels c) := by
  unfold push
  split
  · simp [append, dropHead, h]
  split
  · simp [append, h]
  · by_cases hf : c = q.fullestChannel
    · rw [← hf]
      simpa [append, dropHead, h] using List.tail_sublist _
    · simp [append, dropHead, h, hf]

namespace Broker

variable {s s' s'' : Broker} {P : Broker → Act → Prop} {a : PeerSlot} {peerId : UInt32} {channel : UInt8}

theorem Touched.spared {i : PeerSlot} {q : EgressQueue × UInt32 × UInt32}
    (h : Touched s s' i o q) (ho : ∀ x ∈ o, ∀ f taken, x ≠ .datagram peerId channel (.frame f) taken)
    (hq : i = a → (q.1.channels channel).Sublist ((s.directory a).egress.channels channel)) :
    Spared a peerId channel s s' := by
  refine ⟨⟨o, h.log, ho⟩, ?_⟩
  by_cases hi : i = a
  · subst hi
    have hself : (s'.directory i).egress = q.1 := congrArg Prod.fst h.self
    rw [hself]
    exact hq rfl
  · have hother : (s'.directory a).egress = (s.directory a).egress :=
      congrArg Prod.fst (h.others a fun he => hi he.symm)
    rw [hother]

theorem perform_issue_frames {agent : PeerSlot} {clientPeerId : UInt32} (i : PeerSlot) :
    ((s.perform (.issue agent clientPeerId)).directory i).frames = (s.directory i).frames := by
  simp only [perform, issueToken]
  by_cases hi : i = agent
  · subst hi
    rw [modifyPeer_directory_self]
    rfl
  · rw [modifyPeer_directory_of_ne _ hi]

/-- An act that avoids the channel spares it. -/
theorem Act.Avoids.spared {act : Act} (h : act.Avoids peerId channel)
    (ha : (s.directory a).inUse → (s.directory a).peerId = peerId) : Spared a peerId channel s (s.perform act) := by
  cases act with
  | forward r f routeFlags =>
    have hdatagram : ∀ taken, ∀ x ∈ [HubOutput.datagram r.peerId r.channel (.frame (outgoing r f routeFlags)) taken],
        ∀ f' taken', x ≠ .datagram peerId channel (.frame f') taken' := by
      intro taken x hx f' taken' he
      rw [List.mem_singleton.mp hx] at he
      injection he with hp hc
      exact h ⟨hp, hc⟩
    cases hi : s.find r.peerId with
    | none =>
      obtain ⟨taken, ht⟩ := s.perform_forwarded_none hi f routeFlags
      exact (ht a).spared (hdatagram taken) fun _ => .refl _
    | some i =>
      cases s.perform_forwarded hi f routeFlags with
      | taken ht _ => exact ht.spared (hdatagram true) fun hia => by rw [hia]
      | refused _ ht =>
        refine ht.spared (hdatagram false) fun hia => ?_
        rw [hia]
        exact .refl _
      | parked _ ho ht =>
        refine ht.spared ?_ fun hia => ?_
        · rcases ho with rfl | rfl
          · simp
          · exact hdatagram false
        · -- The peer is the one in slot `a`, so the channel is another one.
          subst hia
          obtain ⟨huse, hid⟩ := PeerDirectory.find_some hi
          refine EgressQueue.push_other (fun hc => ?_) _
          exact h ⟨hid.symm.trans (ha huse), hc.symm⟩
  | suppress => exact ⟨⟨[], by simp [perform, countTransactions], by simp⟩, .refl _⟩
  | issue agent clientPeerId =>
    refine ⟨⟨[], by simp [perform, issueToken, modifyPeer], by simp⟩, ?_⟩
    rw [show ((s.perform (.issue agent clientPeerId)).directory a).egress = (s.directory a).egress from
      congrArg Prod.fst (s.perform_issue_frames a)]
  | drain => exact h.elim
  | mark => exact .refl s
  | learn => exact ⟨⟨[], by simp [perform], by simp⟩, .refl _⟩

/-- **What avoids the channel spares it.** -/
theorem Goes.spared (hP : ∀ s act, P s act → act.Avoids peerId channel) (hg : Goes P s s')
    (ha : (s.directory a).inUse → (s.directory a).peerId = peerId) : Spared a peerId channel s s' := by
  induction hg with
  | refl => exact .refl s
  | @tail s₁ s₂ hg hstep ih =>
    have ha₁ : (s₁.directory a).inUse → (s₁.directory a).peerId = peerId := fun huse => by
      obtain ⟨huse', hid⟩ := Goes.back hg huse
      exact hid.trans (ha huse')
    refine ih.trans ?_
    rcases hstep with hm | hl
    · rcases hm.frames with hu | ⟨act, hact, rfl⟩ | ⟨c, rfl⟩
      · exact hu.spared
      · exact (hP s₁ act hact).spared ha₁
      · refine ⟨⟨[], by simp [releaseEchoTokens], by simp⟩, ?_⟩
        unfold releaseEchoTokens
        dsimp only
        split <;> exact .refl _
    · obtain ⟨s₃, hu, hport, _, hdir⟩ := hl.frames
      refine hu.spared.trans ⟨⟨[], by rw [hport, List.append_nil], by simp⟩, ?_⟩
      rcases hdir a with hd | hd
      · rw [hd]
      · rw [hd]
        exact List.nil_sublist _

/-! ### Frames dropped for leases -/

theorem perform_leaseFrameDrops {act : Act} (h : act ≠ .suppress) (hd : ∀ i, act ≠ .drain i) :
    (s.perform act).metrics.transactions.leaseFrameDrops = s.metrics.transactions.leaseFrameDrops := by
  cases act with
  | forward r f routeFlags =>
    cases hi : s.find r.peerId with
    | none =>
      obtain ⟨taken, ht⟩ := s.perform_forwarded_none hi f routeFlags
      exact (ht 0).leaseFrameDrops
    | some i =>
      cases s.perform_forwarded hi f routeFlags with
      | taken ht _ => exact ht.leaseFrameDrops
      | refused _ ht => exact ht.leaseFrameDrops
      | parked _ _ ht => exact ht.leaseFrameDrops
  | suppress => exact absurd rfl h
  | issue => rfl
  | drain i => exact absurd rfl (hd i)
  | mark => rfl
  | learn => rfl

/-- Nothing else counts them. -/
theorem Goes.leaseFrameDrops (hP : ∀ s act, P s act → act ≠ .suppress ∧ ∀ i, act ≠ .drain i) (hg : Goes P s s') :
    s'.metrics.transactions.leaseFrameDrops = s.metrics.transactions.leaseFrameDrops := by
  induction hg with
  | refl => rfl
  | tail hg hstep ih =>
    refine Eq.trans ?_ ih
    rcases hstep with hm | hl
    · rcases hm.frames with hu | ⟨act, hact, rfl⟩ | ⟨c, rfl⟩
      · exact hu.leaseFrameDrops
      · exact perform_leaseFrameDrops (hP _ act hact).1 (hP _ act hact).2
      · rfl
    · obtain ⟨s₃, hu, _, hmetrics, _⟩ := hl.frames
      rw [hmetrics]
      exact hu.leaseFrameDrops

end Broker
end CanHub
