/-
# Lossy channels keep their order and their account

A frame routed to a peer on a lossy channel is handed to the transport at once, or
parked in the peer's `EgressQueue` and handed over later, or dropped: evicted by another
one that found the queue full, or too old when its turn came. While the peer is in the
directory, the frames the transport accepted on a channel are, in order, among those
routed there, before those that are still parked; and every frame routed to the peer is
accepted, dropped or parked (`lossy_order_and_account`).

What was routed and what was accepted is read from the trail of a run, which hands over
the frames in the logs of its turns: `routed` from the frames forwarded along lossy
routes, `accepted` from what these acts and the drains handed over. The account is
`Account`; each act keeps it (`Account.act`), and a quiet change does not touch it.
-/
import CanHub.Hub.Trails
import Mathlib.Algebra.BigOperators.Group.Finset.Basic

namespace CanHub

open HubPeer EgressQueue Function List

/-! ### The queue -/

namespace EgressQueue

/-- The frames of the queue. -/
@[irreducible] def size (q : EgressQueue) : ℕ :=
  ∑ n ∈ Finset.range egressQueueChannelsMax, (q.channels (UInt8.ofNat n)).length

/-- The queue has the number of its frames right. -/
def Counted (q : EgressQueue) : Prop := q.used = q.size

variable {q : EgressQueue} {channel c : UInt8} {slot : EgressSlot}

theorem size_of_channels (q q' : EgressQueue) (h : q'.channels = q.channels) : q'.size = q.size := by
  unfold size
  rw [h]

/-- The frames after one channel has changed. -/
theorem size_update (q : EgressQueue) (channel : UInt8) (slots : List EgressSlot) :
    size { q with channels := update q.channels channel slots } + (q.channels channel).length
      = q.size + slots.length := by
  have hmem : channel.toNat ∈ Finset.range egressQueueChannelsMax := Finset.mem_range.mpr channel.toNat_lt
  unfold size
  have hlt : ∀ n ∈ Finset.range egressQueueChannelsMax, n < 256 := fun n hn => Finset.mem_range.mp hn
  generalize Finset.range egressQueueChannelsMax = channels at hmem hlt ⊢
  have hrest : ∑ n ∈ channels.erase channel.toNat, (update q.channels channel slots (UInt8.ofNat n)).length
      = ∑ n ∈ channels.erase channel.toNat, (q.channels (UInt8.ofNat n)).length := by
    refine Finset.sum_congr rfl fun n hn => ?_
    obtain ⟨hne, hn⟩ := Finset.mem_erase.mp hn
    rw [update_of_ne]
    intro he
    apply hne
    rw [← he, UInt8.toNat_ofNat', Nat.mod_eq_of_lt (hlt n hn)]
  rw [← Finset.add_sum_erase channels _ hmem, ← Finset.add_sum_erase channels _ hmem, hrest, UInt8.ofNat_toNat]
  dsimp only
  rw [update_self]
  omega

theorem append_size (q : EgressQueue) (channel : UInt8) (slot : EgressSlot) :
    (q.append channel slot).size = q.size + 1 := by
  have h := q.size_update channel (q.channels channel ++ [slot])
  rw [length_append, length_singleton] at h
  unfold append
  omega

theorem dropHead_size (h : q.channels channel ≠ []) : (q.dropHead channel).size + 1 = q.size := by
  have hd := q.size_update channel (q.channels channel).tail
  have hpos := length_pos_of_ne_nil h
  rw [length_tail] at hd
  unfold dropHead
  omega

/-- No channel has more frames than the fullest one. -/
theorem length_le_fullestChannel (q : EgressQueue) (c : UInt8) :
    (q.channels c).length ≤ (q.channels q.fullestChannel).length := by
  have hfold : ∀ (l : List UInt8) (best : UInt8),
      (q.channels best).length ≤ (q.channels (l.foldl (fun best c =>
        if (q.channels best).length < (q.channels c).length then c else best) best)).length
      ∧ ∀ c ∈ l, (q.channels c).length ≤ (q.channels (l.foldl (fun best c =>
        if (q.channels best).length < (q.channels c).length then c else best) best)).length := by
    intro l
    induction l with
    | nil => exact fun best => ⟨Nat.le_refl _, by simp⟩
    | cons d l ih =>
      intro best
      obtain ⟨hbest, hall⟩ := ih (if (q.channels best).length < (q.channels d).length then d else best)
      rw [foldl_cons]
      refine ⟨Nat.le_trans ?_ hbest, fun c hc => ?_⟩
      · split <;> omega
      rcases mem_cons.mp hc with rfl | hc
      · refine Nat.le_trans ?_ hbest
        split <;> omega
      · exact hall c hc
  refine (hfold _ 0).2 c (mem_map.mpr ⟨c.toNat, ?_, UInt8.ofNat_toNat⟩)
  exact mem_range.mpr c.toNat_lt

theorem fullestChannel_ne_nil (h : 0 < q.size) : q.channels q.fullestChannel ≠ [] := by
  intro hempty
  have hnone : ∀ c, (q.channels c).length = 0 := fun c => by
    have := q.length_le_fullestChannel c
    rw [hempty, length_nil] at this
    omega
  have hsize : q.size = 0 := by
    unfold size
    apply Finset.sum_eq_zero
    intro n _
    exact hnone _
  omega

/-- **A frame more is parked, or one in its place is gone.** -/
theorem push_size (hq : q.Counted) (channel : UInt8) (slot : EgressSlot) : (q.push channel slot).1.Counted
    ∧ (q.push channel slot).1.size + (q.push channel slot).2.isSome.toNat = q.size + 1 := by
  have hevict : ∀ victim, q.channels victim ≠ [] →
      ((q.dropHead victim).append channel slot).Counted
        ∧ ((q.dropHead victim).append channel slot).size + 1 = q.size + 1 := by
    intro victim hv
    have hdrop := dropHead_size hv
    have hsize := (q.dropHead victim).append_size channel slot
    have hused : ((q.dropHead victim).append channel slot).used = q.used := rfl
    unfold Counted at hq ⊢
    omega
  unfold push
  split
  · rename_i hcap
    refine hevict channel (ne_nil_of_length_pos ?_)
    simp only [egressQueueChannelCap] at hcap
    omega
  split
  · have hsize : size { q.append channel slot with used := q.used + 1 } = q.size + 1 :=
      (size_of_channels (q.append channel slot) { q.append channel slot with used := q.used + 1 } rfl).trans
        (q.append_size channel slot)
    exact ⟨(congrArg (· + 1) hq).trans hsize.symm, hsize⟩
  · rename_i hfull
    refine hevict _ (fullestChannel_ne_nil ?_)
    unfold Counted at hq
    simp only [egressQueueSlotsMax] at hfull
    omega

/-- The frame is last on its channel, behind frames that were there before. -/
theorem push_channel (q : EgressQueue) (channel : UInt8) (slot : EgressSlot) :
    ∃ front, front.Sublist (q.channels channel) ∧ (q.push channel slot).1.channels channel = front ++ [slot] := by
  have happend : ∀ q' : EgressQueue, (q'.channels channel).Sublist (q.channels channel) →
      ∃ front, front.Sublist (q.channels channel) ∧ (q'.append channel slot).channels channel = front ++ [slot] :=
    fun q' h => ⟨q'.channels channel, h, update_self ..⟩
  have hdrop : ∀ victim, ((q.dropHead victim).channels channel).Sublist (q.channels channel) := by
    intro victim
    by_cases hv : channel = victim
    · subst hv
      simpa [dropHead] using tail_sublist _
    · simp [dropHead, hv]
  unfold push
  split
  · exact happend _ (hdrop _)
  split
  · exact happend q (.refl _)
  · exact happend _ (hdrop _)

theorem channels_of_head (h : (q.channels channel).head? = some slot) :
    q.channels channel = slot :: (q.channels channel).tail :=
  (cons_head?_tail h).symm

/-- The front of a channel is taken out of the queue. -/
theorem popChannel_spec (h : (q.channels channel).head? = some slot) :
    (q.popChannel channel).channels channel = (q.channels channel).tail
      ∧ (∀ c, c ≠ channel → (q.popChannel channel).channels c = q.channels c)
      ∧ (q.popChannel channel).size + 1 = q.size ∧ (q.Counted → (q.popChannel channel).Counted) := by
  have hne : q.channels channel ≠ [] := by
    intro hempty
    rw [hempty] at h
    cases h
  have hsize := dropHead_size hne
  unfold popChannel
  rw [if_neg hne]
  have hpop : size { q.dropHead channel with used := q.used - 1 } = (q.dropHead channel).size :=
    size_of_channels (q.dropHead channel) _ rfl
  refine ⟨update_self .., fun c hc => update_of_ne hc .., ?_, fun hq => ?_⟩
  · rw [hpop]
    exact hsize
  · have hused : q.used - 1 = (q.dropHead channel).size := by
      unfold Counted at hq
      omega
    exact hused.trans hpop.symm

theorem init_size : ({} : EgressQueue).size = 0 := by
  unfold size
  apply Finset.sum_eq_zero
  intro n _
  rfl

theorem init_counted : ({} : EgressQueue).Counted := init_size.symm

end EgressQueue

/-! ### The account of a peer -/

/-- The frames of a list of frames with their channels that are on the channel. -/
def onChannel (c : UInt8) (l : List (UInt8 × FrameMessage)) : List FrameMessage :=
  l.filterMap fun x => if x.1 = c then some x.2 else none

theorem onChannel_append (c : UInt8) (l l' : List (UInt8 × FrameMessage)) :
    onChannel c (l ++ l') = onChannel c l ++ onChannel c l' :=
  filterMap_append

theorem onChannel_self (c : UInt8) (f : FrameMessage) : onChannel c [(c, f)] = [f] := by simp [onChannel]

theorem onChannel_other {c d : UInt8} (h : d ≠ c) (f : FrameMessage) : onChannel c [(d, f)] = [] := by
  simp [onChannel, h]

/-- The frames parked for a peer on a channel. -/
def HubPeer.parkedOn (p : HubPeer) (c : UInt8) : List FrameMessage := (p.egress.channels c).map (·.frame)

/-- What became of frames of a peer: `routed` were routed to it by lossy routes; of these and of the frames parked
before, `accepted` were accepted by the transport, the others parked or dropped; and `reliably` were accepted from
reliable routes. -/
structure Account (p p' : HubPeer) (routed accepted reliably : List (UInt8 × FrameMessage)) : Prop where
  order : ∀ c, (onChannel c accepted ++ p'.parkedOn c).Sublist (p.parkedOn c ++ onChannel c routed)
  account : ∃ dropped, routed.length + p.egress.size = accepted.length + dropped + p'.egress.size
    ∧ p'.framesDropped = p.framesDropped + UInt32.ofNat dropped
  forwarded : p'.framesForwarded = p.framesForwarded + UInt32.ofNat (accepted.length + reliably.length)

namespace Account

variable {p p' p'' : HubPeer} {routed accepted reliably routed' accepted' reliably' : List (UInt8 × FrameMessage)}
  {slot : EgressSlot} {c : UInt8}

theorem of_frames_eq {q : EgressQueue} {forwarded dropped : UInt32} (h : p'.frames = (q, forwarded, dropped)) :
    p'.egress = q ∧ p'.framesForwarded = forwarded ∧ p'.framesDropped = dropped := by
  simpa [frames] using h

/-- Nothing happened to the frames; the queue may have been looked through. -/
theorem of_eq (hq : p'.egress.channels = p.egress.channels) (hfwd : p'.framesForwarded = p.framesForwarded)
    (hdrop : p'.framesDropped = p.framesDropped) : Account p p' [] [] [] := by
  refine ⟨fun c => ?_, ⟨0, ?_, ?_⟩, ?_⟩
  · simp [onChannel, parkedOn, hq]
  · simp [size_of_channels _ _ hq]
  · simp [hdrop]
  · simp [hfwd]

theorem of_frames (h : p'.frames = p.frames) : Account p p' [] [] [] := by
  obtain ⟨hq, hfwd, hdrop⟩ := of_frames_eq h
  exact of_eq (by rw [hq]) hfwd hdrop

/-- One account after another. -/
theorem trans (h : Account p p' routed accepted reliably) (h' : Account p' p'' routed' accepted' reliably') :
    Account p p'' (routed ++ routed') (accepted ++ accepted') (reliably ++ reliably') := by
  refine ⟨fun c => ?_, ?_, ?_⟩
  · -- What came first was accepted first, and what was parked between them is behind it.
    have hfirst := (h.order c).append_right (onChannel c routed')
    have hthen := (h'.order c).append_left (onChannel c accepted)
    simp only [onChannel_append, append_assoc] at hfirst hthen ⊢
    exact hthen.trans hfirst
  · obtain ⟨n, hn, hdrop⟩ := h.account
    obtain ⟨m, hm, hdrop'⟩ := h'.account
    refine ⟨n + m, ?_, ?_⟩
    · simp only [length_append]
      omega
    · rw [hdrop', hdrop, UInt32.ofNat_add, UInt32.add_assoc]
  · rw [h'.forwarded, h.forwarded, UInt32.add_assoc, ← UInt32.ofNat_add]
    congr 2
    simp only [length_append]
    omega

/-- A frame is parked, and another may have to go. -/
theorem parked (hq : p.egress.Counted) (h : p'.frames = p.parked c slot) :
    Account p p' [(c, slot.frame)] [] [] := by
  obtain ⟨hq', hfwd, hdrop⟩ := of_frames_eq h
  obtain ⟨_, hsize⟩ := push_size hq c slot
  refine ⟨fun d => ?_, ⟨(p.egress.push c slot).2.isSome.toNat, ?_, ?_⟩, ?_⟩
  · have hnil : onChannel d [] = [] := rfl
    unfold parkedOn
    rw [hq', hnil, nil_append]
    by_cases hd : d = c
    · subst hd
      obtain ⟨front, hfront, hpush⟩ := p.egress.push_channel d slot
      rw [hpush, onChannel_self, map_append]
      exact (hfront.map _).append_right _
    · rw [onChannel_other (Ne.symm hd), append_nil]
      exact (push_other hd slot).map _
  · rw [hq']
    simp only [length_singleton, length_nil]
    omega
  · rw [hdrop]
    cases (p.egress.push c slot).2.isSome <;> simp
  · simp [hfwd]

/-- A frame goes at once, when nothing is parked before it. -/
theorem taken {f : FrameMessage} (hempty : p.egress.channels c = [])
    (h : p'.frames = (p.egress, p.framesForwarded + 1, p.framesDropped)) : Account p p' [(c, f)] [(c, f)] [] := by
  obtain ⟨hq, hfwd, hdrop⟩ := of_frames_eq h
  refine ⟨fun d => ?_, ⟨0, ?_, ?_⟩, ?_⟩
  · unfold parkedOn
    rw [hq]
    by_cases hd : d = c
    · subst hd
      simp [hempty]
    · simp [onChannel_other (Ne.symm hd)]
  · simp [hq]
  · simp [hdrop]
  · simp [hfwd]

/-- A frame goes on a reliable route. -/
theorem reliable {x : UInt8 × FrameMessage} (h : p'.frames = (p.egress, p.framesForwarded + 1, p.framesDropped)) :
    Account p p' [] [] [x] := by
  obtain ⟨hq, hfwd, hdrop⟩ := of_frames_eq h
  refine ⟨fun c => ?_, ⟨0, ?_, ?_⟩, ?_⟩
  · simp [onChannel, parkedOn, hq]
  · simp [hq]
  · simp [hdrop]
  · simp [hfwd]

/-- The front of a channel goes. -/
theorem sent (hfront : (p.egress.channels c).head? = some slot)
    (h : p'.frames = (p.egress.popChannel c, p.framesForwarded + 1, p.framesDropped)) :
    Account p p' [] [(c, slot.frame)] [] := by
  obtain ⟨hq, hfwd, hdrop⟩ := of_frames_eq h
  obtain ⟨htail, hother, hsize, _⟩ := popChannel_spec hfront
  refine ⟨fun d => ?_, ⟨0, ?_, ?_⟩, ?_⟩
  · unfold parkedOn
    rw [hq]
    by_cases hd : d = c
    · subst hd
      have hnil : onChannel d [] = [] := rfl
      rw [htail, onChannel_self, hnil, append_nil]
      nth_rewrite 2 [channels_of_head hfront]
      exact .refl _
    · rw [hother d hd, onChannel_other (Ne.symm hd)]
      simp [onChannel]
  · rw [hq]
    simp only [length_singleton, length_nil]
    omega
  · simp [hdrop]
  · simp [hfwd]

/-- The front of a channel is too old. -/
theorem aged (hfront : (p.egress.channels c).head? = some slot)
    (h : p'.frames = (p.egress.popChannel c, p.framesForwarded, p.framesDropped + 1)) : Account p p' [] [] [] := by
  obtain ⟨hq, hfwd, hdrop⟩ := of_frames_eq h
  obtain ⟨htail, hother, hsize, _⟩ := popChannel_spec hfront
  refine ⟨fun d => ?_, ⟨1, ?_, ?_⟩, ?_⟩
  · have hnil : onChannel d [] = [] := rfl
    unfold parkedOn
    rw [hq, hnil, nil_append, append_nil]
    by_cases hd : d = c
    · subst hd
      rw [htail]
      exact (tail_sublist _).map _
    · rw [hother d hd]
  · rw [hq]
    simp only [length_nil]
    omega
  · simp [hdrop]
  · simp [hfwd]

end Account

namespace Broker

/-! ### What a trail routes and hands over -/

/-- A frame the transport has accepted for the peer, and its channel. -/
def acceptedBy (peerId : UInt32) : HubOutput → Option (UInt8 × FrameMessage)
  | .datagram p c (.frame f) true => if p = peerId then some (c, f) else none
  | _ => none

/-- A frame routed to the peer by a lossy route, and its channel. -/
def Act.routedTo (peerId : UInt32) : Act → Option (UInt8 × FrameMessage)
  | .forward r f routeFlags =>
    if r.peerId = peerId ∧ r.reliable = false then some (r.channel, outgoing r f routeFlags) else none
  | _ => none

/-- The act forwards a frame on a reliable route. -/
def Act.isReliable : Act → Bool
  | .forward r _ _ => r.reliable
  | _ => false

section

variable (peerId : UInt32) (l : List (Broker × Option Act))

/-- What the trail routes to the peer by lossy routes. -/
def routed : List (UInt8 × FrameMessage) :=
  l.filterMap fun x => x.2.bind (·.routedTo peerId)

/-- What the transport accepts for the peer from one change of a trail: from reliable routes, or else. -/
def acceptedOf (reliable : Bool) (peerId : UInt32) : Broker × Option Act → List (UInt8 × FrameMessage)
  | (s, some a) => if a.isReliable = reliable then (s.outputs a).filterMap (acceptedBy peerId) else []
  | (_, none) => []

/-- What the transport accepts for the peer on lossy routes, at once or from its queue. -/
def accepted : List (UInt8 × FrameMessage) :=
  l.flatMap (acceptedOf false peerId)

/-- What the transport accepts for the peer on reliable routes. -/
def acceptedReliably : List (UInt8 × FrameMessage) :=
  l.flatMap (acceptedOf true peerId)

end

variable {s s' s'' : Broker} {i j : PeerSlot} {peerId : UInt32}

/-- Of a frame to another peer nothing is accepted for this one. -/
theorem acceptedBy_other {p : UInt32} (h : p ≠ peerId) (c : UInt8) (d : Datagram) (taken : Bool) :
    acceptedBy peerId (.datagram p c d taken) = none := by
  cases d with
  | content => rfl
  | frame f => cases taken <;> simp [acceptedBy, h]

/-! ### Drains -/

/-- The books of the frames: ids are distinct, nothing is parked where nobody is, and every queue is counted. -/
structure Tidy (s : Broker) : Prop where
  distinct : DistinctPeers s
  vacant : ∀ i c, (s.directory i).inUse = false → (s.directory i).egress.channels c = []
  counted : ∀ i, (s.directory i).egress.Counted

theorem DistinctPeers.like (h : DistinctPeers s) (hl : Like s s') : DistinctPeers s' :=
  h.of_back fun i hi => ⟨(hl.peers i).inUse.symm.trans hi, (hl.peers i).peerId⟩

variable (h : Tidy s) {o : List HubOutput} {a : Act}
include h

/-- A change of one peer's frames that keeps its queue in order. -/
theorem Tidy.touched {q : EgressQueue × UInt32 × UInt32} (hl : Like s s')
    (ht : Touched s s' i o q) (hvacant : (s.directory i).inUse = false → ∀ c, q.1.channels c = [])
    (hcounted : q.1.Counted) : Tidy s' := by
  have hself : (s'.directory i).egress = q.1 := congrArg Prod.fst ht.self
  have hothers : ∀ j, j ≠ i → (s'.directory j).egress = (s.directory j).egress :=
    fun j hj => congrArg Prod.fst (ht.others j hj)
  refine ⟨h.distinct.like hl, fun j c hj => ?_, fun j => ?_⟩
  · rw [(hl.peers j).inUse] at hj
    by_cases hji : j = i
    · subst hji
      rw [hself]
      exact hvacant hj c
    · rw [hothers j hji]
      exact h.vacant j c hj
  · by_cases hji : j = i
    · subst hji
      rw [hself]
      exact hcounted
    · rw [hothers j hji]
      exact h.counted j

/-- A front is where somebody is. -/
theorem Tidy.front {c : UInt8} {slot : EgressSlot}
    (hfront : ((s.directory i).egress.channels c).head? = some slot) : (s.directory i).inUse := by
  by_contra hi
  rw [h.vacant i c (by simpa using hi)] at hfront
  cases hfront

theorem Tidy.pull (hp : Pull i s s') : Tidy s' := by
  cases hp.frames with
  | idle hq hu ht =>
    refine h.touched hp.like ht (fun hi c => ?_) ?_
    · rw [hq]
      exact h.vacant i c hi
    · have hcounted := h.counted i
      unfold EgressQueue.Counted at hcounted ⊢
      rw [hu, hcounted, size_of_channels _ _ hq]
  | aged hfront ht =>
    refine h.touched hp.like ht (fun hi => ?_) ((popChannel_spec hfront).2.2.2 (h.counted i))
    rw [h.front hfront] at hi
    cases hi
  | sent hfront ht =>
    refine h.touched hp.like ht (fun hi => ?_) ((popChannel_spec hfront).2.2.2 (h.counted i))
    rw [h.front hfront] at hi
    cases hi
  | kept hfront ht => exact h.touched hp.like ht (fun hi c => h.vacant i c hi) (h.counted i)

/-- One round of a drain, for the peer itself and for another one. -/
theorem Tidy.pull_account (hp : Pull j s s') (hi : (s.directory i).inUse) :
    ∃ o, s'.port.log = s.port.log ++ o ∧ Account (s.directory i) (s'.directory i) []
      (o.filterMap (acceptedBy (s.directory i).peerId)) [] := by
  by_cases hij : i = j
  · subst hij
    cases hp.frames with
    | idle hq _ ht =>
      refine ⟨[], ht.log, ?_⟩
      obtain ⟨hq', hfwd, hdrop⟩ : (s'.directory i).egress = _ ∧ _ = _ ∧ _ = _ := by
        simpa [frames] using ht.self
      exact .of_eq (by rw [hq', hq]) hfwd hdrop
    | aged hfront ht => exact ⟨[], ht.log, .aged hfront ht.self⟩
    | sent hfront ht =>
      refine ⟨_, ht.log, ?_⟩
      simpa [acceptedBy] using Account.sent hfront ht.self
    | kept hfront ht => exact ⟨_, ht.log, .of_frames ht.self⟩
  · -- What the other peer gets is not for this one.
    have hfront : ∀ {c : UInt8} {slot : EgressSlot} {d : Datagram} {taken : Bool},
        ((s.directory j).egress.channels c).head? = some slot →
        [HubOutput.datagram (s.directory j).peerId c d taken].filterMap (acceptedBy (s.directory i).peerId) = [] := by
      intro c slot d taken hfront
      have hne : (s.directory j).peerId ≠ (s.directory i).peerId :=
        fun he => hij (h.distinct i j hi (h.front hfront) he.symm)
      simp [acceptedBy_other hne]
    cases hp.frames with
    | idle _ _ ht => exact ⟨[], ht.log, .of_frames (ht.others i hij)⟩
    | aged _ ht => exact ⟨[], ht.log, .of_frames (ht.others i hij)⟩
    | sent hf ht =>
      refine ⟨_, ht.log, ?_⟩
      rw [hfront hf]
      exact .of_frames (ht.others i hij)
    | kept hf ht =>
      refine ⟨_, ht.log, ?_⟩
      rw [hfront hf]
      exact .of_frames (ht.others i hij)

/-- A whole drain. -/
theorem Tidy.pulls (hp : Relation.ReflTransGen (Pull j) s s') (hi : (s.directory i).inUse) :
    Tidy s' ∧ Like s s' ∧ ∃ o, s'.port.log = s.port.log ++ o ∧ Account (s.directory i) (s'.directory i) []
      (o.filterMap (acceptedBy (s.directory i).peerId)) [] := by
  induction hp with
  | refl => exact ⟨h, .refl s, [], (append_nil _).symm, .of_frames rfl⟩
  | @tail s₁ s₂ _ hpull ih =>
    obtain ⟨htidy, hlike, o, ho, hacc⟩ := ih
    obtain ⟨o', ho', hacc'⟩ := htidy.pull_account hpull ((hlike.peers i).inUse.trans hi)
    refine ⟨htidy.pull hpull, hlike.trans hpull.like, o ++ o', by rw [ho', ho, append_assoc], ?_⟩
    rw [(hlike.peers i).peerId] at hacc'
    rw [filterMap_append]
    exact hacc.trans hacc'

/-! ### Acts -/

theorem Tidy.drain (j : PeerSlot) : Tidy (s.drainPeer j) := by
  have hpulls := s.drainPeer_pulls j
  generalize s.drainPeer j = s' at hpulls
  induction hpulls with
  | refl => exact h
  | tail _ hpull ih => exact ih.pull hpull

/-- A change that leaves the queues. -/
theorem Tidy.of_egress (hl : Like s s') (he : ∀ i, (s'.directory i).egress = (s.directory i).egress) :
    Tidy s' := by
  refine ⟨h.distinct.like hl, fun i c hi => ?_, fun i => ?_⟩
  · rw [(hl.peers i).inUse] at hi
    rw [he]
    exact h.vacant i c hi
  · rw [he]
    exact h.counted i

theorem Tidy.act (a : Act) : Tidy (s.perform a) := by
  have hlike := (s.perform_still a).toLike
  cases a with
  | forward r f routeFlags =>
    cases hj : s.find r.peerId with
    | none =>
      obtain ⟨_, ht⟩ := s.perform_forwarded_none hj f routeFlags
      exact h.of_egress hlike fun i => congrArg Prod.fst (ht i).self
    | some j =>
      have huse := (PeerDirectory.find_some hj).1
      have hvacant : (s.directory j).inUse = false → False := fun hno => by
        rw [huse] at hno
        cases hno
      cases s.perform_forwarded hj f routeFlags with
      | taken ht _ => exact h.touched hlike ht (fun hno => (hvacant hno).elim) (h.counted j)
      | refused _ ht => exact h.touched hlike ht (fun hno => (hvacant hno).elim) (h.counted j)
      | parked _ _ ht =>
        exact h.touched hlike ht (fun hno => (hvacant hno).elim) (push_size (h.counted j) _ _).1
  | issue => exact h.of_egress hlike fun i => congrArg Prod.fst (s.perform_issue_frames i)
  | drain j => exact h.drain j
  | suppress => exact h.of_egress hlike fun _ => rfl
  | mark => exact h
  | learn => exact h.of_egress hlike fun _ => rfl

omit h

/-- What is parked after a round of a drain was parked before it. -/
theorem Pull.mem (hp : Pull i s s') {c : UInt8} {slot : EgressSlot} (h : slot ∈ (s'.directory j).egress.channels c) :
    slot ∈ (s.directory j).egress.channels c := by
  have hpop : ∀ d, slot ∈ ((s.directory i).egress.popChannel d).channels c →
      slot ∈ (s.directory i).egress.channels c := by
    intro d hslot
    cases hfront : ((s.directory i).egress.channels d).head? with
    | none =>
      have hempty := head?_eq_none_iff.mp hfront
      rwa [EgressQueue.popChannel, if_pos hempty] at hslot
    | some front =>
      obtain ⟨hself, hother, _⟩ := popChannel_spec hfront
      by_cases hd : c = d
      · subst hd
        rw [hself] at hslot
        exact mem_of_mem_tail hslot
      · rwa [hother c hd] at hslot
  by_cases hji : j = i
  · subst hji
    cases hp.frames with
    | idle hq _ ht =>
      have he : (s'.directory j).egress = _ := congrArg Prod.fst ht.self
      rwa [he, hq] at h
    | aged _ ht =>
      have he : (s'.directory j).egress = _ := congrArg Prod.fst ht.self
      rw [he] at h
      exact hpop _ h
    | sent _ ht =>
      have he : (s'.directory j).egress = _ := congrArg Prod.fst ht.self
      rw [he] at h
      exact hpop _ h
    | kept _ ht =>
      have he : (s'.directory j).egress = _ := congrArg Prod.fst ht.self
      rwa [he] at h
  · have hsame : (s'.directory j).egress = (s.directory j).egress := by
      cases hp.frames with
      | idle _ _ ht => exact congrArg Prod.fst (ht.others j hji)
      | aged _ ht => exact congrArg Prod.fst (ht.others j hji)
      | sent _ ht => exact congrArg Prod.fst (ht.others j hji)
      | kept _ ht => exact congrArg Prod.fst (ht.others j hji)
    rwa [hsame] at h

/-- What a drain does to the queues, and what it puts out. -/
theorem pulls_mem (hp : Relation.ReflTransGen (Pull i) s s') :
    (∀ j c slot, slot ∈ (s'.directory j).egress.channels c → slot ∈ (s.directory j).egress.channels c)
    ∧ (s'.directory i).peerId = (s.directory i).peerId
    ∧ ∃ o, s'.port.log = s.port.log ++ o ∧ ∀ x ∈ o, ∃ c slot taken, slot ∈ (s.directory i).egress.channels c
        ∧ x = .datagram (s.directory i).peerId c (.frame slot.frame) taken := by
  induction hp with
  | refl => exact ⟨fun _ _ _ h => h, rfl, [], (append_nil _).symm, by simp⟩
  | @tail s₁ s₂ _ hpull ih =>
    obtain ⟨hmem, hid, o, ho, hout⟩ := ih
    refine ⟨fun j c slot h => hmem j c slot (hpull.mem h), (hpull.like.peers i).peerId.trans hid, ?_⟩
    -- The front that is handed over was in the queue from the start.
    have hone : ∀ (c : UInt8) (slot : EgressSlot) (taken : Bool),
        ((s₁.directory i).egress.channels c).head? = some slot →
        s₂.port.log = s₁.port.log ++ [.datagram (s₁.directory i).peerId c (.frame slot.frame) taken] →
        ∃ o, s₂.port.log = s.port.log ++ o ∧ ∀ x ∈ o, ∃ c slot taken, slot ∈ (s.directory i).egress.channels c
          ∧ x = .datagram (s.directory i).peerId c (.frame slot.frame) taken := by
      intro c slot taken hfront hlog
      refine ⟨_, by rw [hlog, ho, append_assoc], fun x hx => ?_⟩
      rcases mem_append.mp hx with hx | hx
      · exact hout x hx
      · rw [mem_singleton.mp hx, hid]
        exact ⟨c, slot, taken, hmem i c slot (mem_of_mem_head? hfront), rfl⟩
    cases hpull.frames with
    | idle _ _ ht => exact ⟨o, by rw [ht.log, append_nil, ho], hout⟩
    | aged _ ht => exact ⟨o, by rw [ht.log, append_nil, ho], hout⟩
    | sent hfront ht => exact hone _ _ true hfront ht.log
    | kept hfront ht => exact hone _ _ false hfront ht.log

/-- **What is parked after an act** was parked before it, or is the frame it forwards. -/
theorem mem_perform {c : UInt8} {slot : EgressSlot}
    (h : slot ∈ ((s.perform a).directory j).egress.channels c) :
    slot ∈ (s.directory j).egress.channels c
      ∨ ∃ r f routeFlags, a = .forward r f routeFlags ∧ s.find r.peerId = some j ∧ r.channel = c
        ∧ slot.frame = outgoing r f routeFlags := by
  have hsame : ((s.perform a).directory j).egress = (s.directory j).egress → slot ∈ (s.directory j).egress.channels c :=
    fun he => he ▸ h
  cases a with
  | forward r f routeFlags =>
    cases hi : s.find r.peerId with
    | none =>
      obtain ⟨_, ht⟩ := s.perform_forwarded_none hi f routeFlags
      exact .inl (hsame (congrArg Prod.fst (ht j).self))
    | some i =>
      by_cases hji : j = i
      swap
      · cases s.perform_forwarded hi f routeFlags with
        | taken ht _ => exact .inl (hsame (congrArg Prod.fst (ht.others j hji)))
        | refused _ ht => exact .inl (hsame (congrArg Prod.fst (ht.others j hji)))
        | parked _ _ ht => exact .inl (hsame (congrArg Prod.fst (ht.others j hji)))
      subst hji
      cases s.perform_forwarded hi f routeFlags with
      | taken ht _ => exact .inl (hsame (congrArg Prod.fst ht.self))
      | refused _ ht => exact .inl (hsame (congrArg Prod.fst ht.self))
      | parked _ _ ht =>
        have he : ((s.perform (.forward r f routeFlags)).directory j).egress
            = ((s.directory j).egress.push r.channel ⟨outgoing r f routeFlags, s.nowUs⟩).1 := congrArg Prod.fst ht.self
        rw [he] at h
        by_cases hc : c = r.channel
        · subst hc
          obtain ⟨front, hfront, hpush⟩ := (s.directory j).egress.push_channel r.channel
            ⟨outgoing r f routeFlags, s.nowUs⟩
          rw [hpush] at h
          rcases mem_append.mp h with h | h
          · exact .inl (hfront.subset h)
          · exact .inr ⟨r, f, routeFlags, rfl, hi, rfl, by rw [mem_singleton.mp h]⟩
        · exact .inl ((push_other hc _).subset h)
  | issue => exact .inl (hsame (congrArg Prod.fst (s.perform_issue_frames j)))
  | drain i => exact .inl ((pulls_mem (s.drainPeer_pulls i)).1 j c slot h)
  | suppress => exact .inl h
  | mark => exact .inl h
  | learn => exact .inl h

/-- **What an act puts out** is the frame it forwards, or was parked. -/
theorem mem_outputs {x : HubOutput} (h : x ∈ s.outputs a) :
    (∃ r f routeFlags taken, a = .forward r f routeFlags
      ∧ x = .datagram r.peerId r.channel (.frame (outgoing r f routeFlags)) taken)
    ∨ ∃ i c slot taken, a = .drain i ∧ slot ∈ (s.directory i).egress.channels c
      ∧ x = .datagram (s.directory i).peerId c (.frame slot.frame) taken := by
  have hnone : s.outputs a = [] → False := fun he => by
    rw [he] at h
    cases h
  cases a with
  | forward r f routeFlags =>
    have hone : ∀ taken, s.outputs (.forward r f routeFlags)
        = [.datagram r.peerId r.channel (.frame (outgoing r f routeFlags)) taken] →
        x = .datagram r.peerId r.channel (.frame (outgoing r f routeFlags)) taken := fun taken he => by
      rw [he] at h
      exact mem_singleton.mp h
    cases hi : s.find r.peerId with
    | none =>
      obtain ⟨taken, ht⟩ := s.perform_forwarded_none hi f routeFlags
      exact .inl ⟨r, f, routeFlags, taken, rfl, hone taken (outputs_eq (ht 0).log)⟩
    | some i =>
      cases s.perform_forwarded hi f routeFlags with
      | taken ht _ => exact .inl ⟨r, f, routeFlags, true, rfl, hone true (outputs_eq ht.log)⟩
      | refused _ ht => exact .inl ⟨r, f, routeFlags, false, rfl, hone false (outputs_eq ht.log)⟩
      | parked _ ho ht =>
        rcases ho with rfl | rfl
        · exact (hnone (outputs_eq ht.log)).elim
        · exact .inl ⟨r, f, routeFlags, false, rfl, hone false (outputs_eq ht.log)⟩
  | drain i =>
    obtain ⟨_, _, o, ho, hout⟩ := pulls_mem (s.drainPeer_pulls i)
    have hlog : (s.perform (.drain i)).port.log = s.port.log ++ o := ho
    rw [outputs_eq hlog] at h
    obtain ⟨c, slot, taken, hslot, hx⟩ := hout x h
    exact .inr ⟨i, c, slot, taken, rfl, hslot, hx⟩
  | issue => exact (hnone (outputs_eq (append_nil _).symm)).elim
  | suppress => exact (hnone (outputs_eq (append_nil _).symm)).elim
  | mark => exact (hnone (outputs_eq (append_nil _).symm)).elim
  | learn => exact (hnone (outputs_eq (append_nil _).symm)).elim

/-- What is accepted from an act, by what it puts out. -/
theorem acceptedOf_eq (h : (s.perform a).port.log = s.port.log ++ o) (reliable : Bool) :
    acceptedOf reliable peerId (s, some a)
      = if a.isReliable = reliable then o.filterMap (acceptedBy peerId) else [] := by
  rw [acceptedOf, outputs_eq h]

/-- An act that puts out nothing for the peer, routes nothing to it and leaves its frames. -/
theorem account_elsewhere (hlog : (s.perform a).port.log = s.port.log ++ o)
    (hframes : ((s.perform a).directory i).frames = (s.directory i).frames) (hr : a.routedTo peerId = none)
    (ho : o.filterMap (acceptedBy peerId) = []) :
    Account (s.directory i) ((s.perform a).directory i) (a.routedTo peerId).toList
      (acceptedOf false peerId (s, some a)) (acceptedOf true peerId (s, some a)) := by
  have hnone : ∀ reliable, acceptedOf reliable peerId (s, some a) = [] := fun reliable => by
    rw [acceptedOf_eq hlog, ho]
    split <;> rfl
  rw [hr, hnone, hnone]
  exact .of_frames hframes

/-- A frame forwarded to the peer. -/
theorem account_forward {r : FrameRoute} {f : FrameMessage} {routeFlags : UInt8} (hq : (s.directory i).egress.Counted)
    (hi : s.find r.peerId = some i) :
    Account (s.directory i) ((s.perform (.forward r f routeFlags)).directory i)
      (Act.routedTo r.peerId (.forward r f routeFlags)).toList
      (acceptedOf false r.peerId (s, some (.forward r f routeFlags)))
      (acceptedOf true r.peerId (s, some (.forward r f routeFlags))) := by
  have htaken : [HubOutput.datagram r.peerId r.channel (.frame (outgoing r f routeFlags)) true].filterMap
      (acceptedBy r.peerId) = [(r.channel, outgoing r f routeFlags)] := by simp [acceptedBy]
  have hkept : [HubOutput.datagram r.peerId r.channel (.frame (outgoing r f routeFlags)) false].filterMap
      (acceptedBy r.peerId) = [] := by simp [acceptedBy]
  cases s.perform_forwarded hi f routeFlags with
  | taken ht hempty =>
    rw [acceptedOf_eq ht.log, acceptedOf_eq ht.log, htaken]
    cases hr : r.reliable with
    | true => simpa [Act.routedTo, Act.isReliable, hr] using Account.reliable ht.self
    | false => simpa [Act.routedTo, Act.isReliable, hr] using Account.taken (hempty hr) ht.self
  | refused hr ht =>
    rw [acceptedOf_eq ht.log, acceptedOf_eq ht.log, hkept]
    simpa [Act.routedTo, hr] using Account.of_frames ht.self
  | parked hr ho ht =>
    have hnone : ∀ reliable, acceptedOf reliable r.peerId (s, some (.forward r f routeFlags)) = [] := by
      intro reliable
      rw [acceptedOf_eq ht.log]
      rcases ho with rfl | rfl
      · simp
      · rw [hkept]
        simp
    rw [hnone, hnone]
    simpa [Act.routedTo, hr] using Account.parked hq ht.self

/-- **The account of an act.** -/
theorem Tidy.account (h : Tidy s) (hi : s.find peerId = some i) (a : Act) :
    Account (s.directory i) ((s.perform a).directory i) (a.routedTo peerId).toList
      (acceptedOf false peerId (s, some a)) (acceptedOf true peerId (s, some a)) := by
  obtain ⟨huse, hid⟩ := PeerDirectory.find_some hi
  cases a with
  | forward r f routeFlags =>
    by_cases hp : r.peerId = peerId
    · subst hp
      exact account_forward (h.counted i) hi
    have hr : Act.routedTo peerId (.forward r f routeFlags) = none := by simp [Act.routedTo, hp]
    have ho : ∀ taken, [HubOutput.datagram r.peerId r.channel (.frame (outgoing r f routeFlags)) taken].filterMap
        (acceptedBy peerId) = [] := fun taken => by simp [acceptedBy_other hp]
    cases hj : s.find r.peerId with
    | none =>
      obtain ⟨taken, ht⟩ := s.perform_forwarded_none hj f routeFlags
      exact account_elsewhere (ht i).log (ht i).self hr (ho taken)
    | some j =>
      have hij : i ≠ j := by
        rintro rfl
        exact hp ((PeerDirectory.find_some hj).2.symm.trans hid)
      cases s.perform_forwarded hj f routeFlags with
      | taken ht _ => exact account_elsewhere ht.log (ht.others i hij) hr (ho true)
      | refused _ ht => exact account_elsewhere ht.log (ht.others i hij) hr (ho false)
      | parked _ ho' ht =>
        refine account_elsewhere ht.log (ht.others i hij) hr ?_
        rcases ho' with rfl | rfl
        · rfl
        · exact ho false
  | issue => exact account_elsewhere (append_nil _).symm (s.perform_issue_frames i) rfl rfl
  | drain j =>
    obtain ⟨_, _, o, ho, hacc⟩ := h.pulls (s.drainPeer_pulls j) huse
    have hlog : (s.perform (.drain j)).port.log = s.port.log ++ o := ho
    rw [acceptedOf_eq hlog, acceptedOf_eq hlog]
    rw [hid] at hacc
    exact hacc
  | suppress => exact account_elsewhere (append_nil _).symm rfl rfl rfl
  | mark => exact account_elsewhere (append_nil _).symm rfl rfl rfl
  | learn => exact account_elsewhere (append_nil _).symm rfl rfl rfl

/-! ### Trails -/

theorem DistinctPeers.quiet (h : DistinctPeers s) (hq : Quiet P True s s') : DistinctPeers s' := by
  cases hq with
  | moved hm =>
    refine h.of_back fun i hi => ?_
    obtain ⟨huse, hid, _⟩ := hm.peers i
    exact ⟨huse.symm.trans hi, hid⟩
  | left hl =>
    refine h.of_back fun i hi => ?_
    rcases hl.peers i with hgone | ⟨huse, hid, _⟩
    · rw [hgone] at hi
      cases hi
    · exact ⟨huse.symm.trans hi, hid⟩
  | registered hr =>
    cases hr with
    | agent => exact h
    | group => exact h
  | connected hi hnew =>
    exact h.connected (hnew trivial).2
  | turned => exact h

/-- A slot that is in use is in use by a quiet change, or comes to be. -/
theorem Quiet.vacated (hq : Quiet P True s s') (hi : (s'.directory i).inUse = false) :
    (s.directory i).inUse = false ∨ (s'.directory i).frames = ({}, 0, 0) := by
  rcases hq.frames i with hf | ⟨hf, _⟩
  swap
  · exact .inr hf
  cases hq with
  | moved hm => exact .inl ((hm.peers i).1.symm.trans hi)
  | left hl =>
    rcases hl.peers i with hgone | ⟨huse, _⟩
    · rw [hgone]
      exact .inr rfl
    · exact .inl (huse.symm.trans hi)
  | registered hr =>
    cases hr with
    | agent => exact .inl hi
    | group => exact .inl hi
  | connected hk =>
    rename_i k _ _ _ _
    by_cases hik : i = k
    · subst hik
      exact .inl hk
    · rw [modifyPeer_directory_of_ne _ hik] at hi
      exact .inl hi
  | turned => exact .inl hi

theorem Tidy.quiet (h : Tidy s) (hq : Quiet P True s s') : Tidy s' := by
  refine ⟨h.distinct.quiet hq, fun i c hi => ?_, fun i => ?_⟩
  · rcases hq.frames i with hf | ⟨hf, _⟩
    · have he : (s'.directory i).egress = (s.directory i).egress := congrArg Prod.fst hf
      rcases hq.vacated hi with hno | hnone
      · rw [he]
        exact h.vacant i c hno
      · have he' : (s'.directory i).egress = {} := congrArg Prod.fst hnone
        rw [he']
    · have he : (s'.directory i).egress = {} := congrArg Prod.fst hf
      rw [he]
  · rcases hq.frames i with hf | ⟨hf, _⟩
    · have he : (s'.directory i).egress = (s.directory i).egress := congrArg Prod.fst hf
      rw [he]
      exact h.counted i
    · have he : (s'.directory i).egress = {} := congrArg Prod.fst hf
      rw [he]
      exact init_counted

theorem routed_act (l : List (Broker × Option Act)) (a : Act) :
    routed peerId (l ++ [(s, some a)]) = routed peerId l ++ (a.routedTo peerId).toList := by
  unfold routed
  rw [filterMap_append]
  cases h : a.routedTo peerId with
  | none => simp [h]
  | some x => simp [h]

theorem Tidy.init (config : HubConfig) (port : HubPort) (routes : List BridgeRoute) (groups : List BridgeGroup) :
    Tidy (Broker.init config port routes groups) := by
  have hblank : Tidy (blank config port) :=
    ⟨fun _ _ hi => (Bool.false_ne_true hi).elim, fun _ _ _ => rfl, fun _ => init_counted⟩
  obtain ⟨l, hl, -⟩ : Leads (fun _ _ => True) True (blank config port) (Broker.init config port routes groups) :=
    init_leads config port routes groups
  exact (hl.invariant (fun _ a h _ => h.act a) (fun _ _ h hq => h.quiet hq) hblank).1

/-- **The account of a trail** along which the peer is in the directory. -/
theorem Trail.account {P : Broker → Act → Prop} {l : List (Broker × Option Act)} (h : Trail P True s l s')
    (hs : Tidy s) (hl : ∀ x ∈ l, x.1.find peerId = some i) (hs' : s'.find peerId = some i) :
    Account (s.directory i) (s'.directory i) (routed peerId l) (accepted peerId l) (acceptedReliably peerId l) := by
  induction h with
  | refl => exact .of_frames rfl
  | @acted l s₁ a htrail _ ih =>
    have hmem : ∀ x ∈ l, x.1.find peerId = some i := fun x hx => hl x (mem_append_left _ hx)
    have hs₁ : s₁.find peerId = some i := hl (s₁, some a) (by simp)
    have htidy : Tidy s₁ := (htrail.invariant (fun _ a h _ => h.act a) (fun _ _ h hq => h.quiet hq) hs).1
    have hacc := (ih hmem hs₁).trans (htidy.account hs₁ a)
    rw [routed_act]
    simpa [accepted, acceptedReliably] using hacc
  | @quiet l s₁ s₂ htrail hq ih =>
    have hmem : ∀ x ∈ l, x.1.find peerId = some i := fun x hx => hl x (mem_append_left _ hx)
    have hs₁ : s₁.find peerId = some i := hl (s₁, none) (by simp)
    have hframes : (s₂.directory i).frames = (s₁.directory i).frames := by
      rcases hq.frames i with hf | ⟨_, hnot⟩
      · exact hf
      · exact absurd ⟨(PeerDirectory.find_some hs₁).1, (PeerDirectory.find_some hs').1⟩ hnot
    have hacc := (ih hmem hs₁).trans (Account.of_frames hframes)
    simpa [routed, accepted, acceptedReliably, acceptedOf] using hacc

/-- **Lossy channels keep their order and their account.** Every run, from any state a run leads to, has a trail that
hands over the frames in the logs of its turns, in their order; and along every part of a trail during which the peer
is in the directory: on each of its channels the frames the transport accepted on lossy routes, then those still parked,
are in order among those parked before and those routed there; and the lossy frames routed to the peer are as many as
those accepted, those dropped, and those the queue has more than before. The peer's counters are these numbers, with the
frames accepted on reliable routes. -/
theorem lossy_order_and_account (config : HubConfig) (port : HubPort) (routes : List BridgeRoute)
    (groups : List BridgeGroup) :
    (∀ turns₀ turns, Run.Along step FreshId (init config port routes groups) (turns₀ ++ turns) →
      ∃ l₀ l, Trail (fun _ _ => True) True (init config port routes groups) l₀ ((init config port routes groups).run turns₀)
        ∧ Trail (fun _ _ => True) True ((init config port routes groups).run turns₀) l
            ((init config port routes groups).run (turns₀ ++ turns))
        ∧ handedOver l₀ = (init config port routes groups).frameLogs turns₀
        ∧ handedOver l = ((init config port routes groups).run turns₀).frameLogs turns)
    ∧ ∀ l₀ s l s' peerId i, Trail (fun _ _ => True) True (init config port routes groups) l₀ s →
      Trail (fun _ _ => True) True s l s' → (∀ x ∈ l, x.1.find peerId = some i) → s'.find peerId = some i →
      Account (s.directory i) (s'.directory i) (routed peerId l) (accepted peerId l) (acceptedReliably peerId l) := by
  have htidy := Tidy.init config port routes groups
  constructor
  · have hrun : ∀ turns s, Tidy s → Run.Along step FreshId s turns →
        ∃ l, Trail (fun _ _ => True) True s l (s.run turns) ∧ handedOver l = s.frameLogs turns := fun turns s hs hfresh =>
      run_trail turns s (fun _ => hs.distinct) (hfresh.mono fun _ _ ht => ⟨fun _ => ht, permits_of_all _ (fun _ _ => trivial) _⟩)
    intro turns₀ turns hfresh
    obtain ⟨hfresh₀, hfresh⟩ := Run.Along.append.mp hfresh
    obtain ⟨l₀, hl₀, hlog₀⟩ := hrun turns₀ _ htidy hfresh₀
    obtain ⟨l, hl, hlog⟩ := hrun turns _ (hl₀.invariant (fun _ a h _ => h.act a) (fun _ _ h hq => h.quiet hq) htidy).1 hfresh
    exact ⟨l₀, l, hl₀, by rw [Broker.run, Broker.run, Run.run_append]; exact hl, hlog₀, hlog⟩
  · intro l₀ s l s' peerId i hl₀ hl hthere hs'
    have hs : Tidy s := (hl₀.invariant (fun _ a h _ => h.act a) (fun _ _ h hq => h.quiet hq) htidy).1
    exact hl.account hs hthere hs'

/-- An agent, and a client with a lossy channel. -/
def listening : List HubTurn :=
  agentJoins 2 (registersOne 97 98) ++
  [{ event := .connected 3 { isLocal := true } 0 },
   { event := .control 3 (.hello (some { role := .client, capabilities := 7 })) 0 },
   { event := .control 3 (.openInterface { interfaceId := 1, flags := 0 }) 0 }]

/-- A port that answers everything alike. -/
def portAlways (b : Bool) : HubPort := { answer := fun _ => b, pinned := fun _ => none, firstContacts := fun _ => 0 }

/-- A frame for the client. -/
def toListener (canId : UInt32) : Act := .forward ⟨3, 0, false, false⟩ ⟨canId, 0, 0, 0, 0, []⟩ 0

/-- Two frames for the client: the first finds no room, so that both are parked. -/
def twoParked (s : Broker) : Broker := ({ s with port := portAlways false }.perform (toListener 1)).perform (toListener 2)

/-- They are drained. -/
def twoDrained (s : Broker) : Broker := { s.twoParked with port := portAlways true }.perform (.drain 1)

/-- How that comes about. -/
def detour (s : Broker) : List (Broker × Option Act) :=
  [(s, none), ({ s with port := portAlways false }, some (toListener 1)),
    ({ s with port := portAlways false }.perform (toListener 1), some (toListener 2)), (s.twoParked, none),
    ({ s.twoParked with port := portAlways true }, some (.drain 1))]

theorem detour_trail (s : Broker) : Trail (fun _ _ => True) True s s.detour s.twoDrained := by
  have hparked : Trail (fun _ _ => True) True s _ s.twoParked :=
    .acted (.acted (.quiet (.refl s) (.turned { event := .tick 0, answer := fun _ => false })) trivial) trivial
  exact .acted (.quiet hparked (.turned { event := .tick 0 })) trivial

set_option maxRecDepth 100000 in
/-- Two frames parked are accepted in their order. -/
theorem lossy_order_and_account_parked :
    Account ((small.run listening).directory 1) ((small.run listening).twoDrained.directory 1)
      (routed 3 (small.run listening).detour) (accepted 3 (small.run listening).detour)
      (acceptedReliably 3 (small.run listening).detour)
    ∧ (accepted 3 (small.run listening).detour).map (·.2.canId) = [1, 2] := by
  have hall := lossy_order_and_account {} (portAlways true) [] []
  obtain ⟨l₀, _, hl₀, -⟩ := hall.1 listening [] (by decide +kernel)
  have hfacts : (∀ x ∈ (small.run listening).detour, x.1.find 3 = some 1)
      ∧ (small.run listening).twoDrained.find 3 = some 1
      ∧ (accepted 3 (small.run listening).detour).map (·.2.canId) = [1, 2] := by
    refine ⟨?_, ?_, ?_⟩
    · simp only [detour, mem_cons, not_mem_nil, or_false, forall_eq_or_imp, forall_eq]
      decide +kernel
    · decide +kernel
    · decide +kernel
  exact ⟨hall.2 l₀ _ _ _ 3 1 hl₀ (detour_trail _) hfacts.1 hfacts.2.1, hfacts.2.2⟩

end Broker
end CanHub
