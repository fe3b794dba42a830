/-
# What an event can do to the hub's books

Every function of the broker is a sequence of few kinds of change: something the
books do not record (`Alike`), an act with a frame, a transaction opened, granted,
refused, ended or left by its client, a role adopted, a channel opened, closed or
attached again, a group lost (`Move`); a peer released (`Leave`). `Goes`
is a sequence of them, and `Deals` one on which peers leave the desk and nothing else
happens there. The parameter `P` says which acts there may be, in which
states; what does nothing with frames is such a sequence for any `P`.

Here this is shown for what the handlers share and for the frames;
`CanHub/Hub/Events.lean` has the handlers and the interfaces they register. An
invariant of the books is then proved for each kind of change, once, and not for
each handler.
-/
import CanHub.Hub.Balance

namespace CanHub

open FrameRoutes List

/-- What a peer has of frames: those parked, and how many were forwarded and dropped. -/
def HubPeer.frames (p : HubPeer) : EgressQueue × UInt32 × UInt32 := (p.egress, p.framesForwarded, p.framesDropped)

namespace Broker

/-! ### The kinds of change -/

/-- A transaction may be opened for the request: the channel is the client's and
allowed to write, the interface has an entry, and its agent is there. -/
structure Requested (s : Broker) (request : RelayedTransaction) : Prop where
  client : ∃ i, (s.directory i).inUse ∧ (s.directory i).role = .client
    ∧ (s.directory i).peerId = request.clientPeerId
    ∧ (s.directory i).session.interfaceForChannel request.clientChannel = some request.interfaceId
    ∧ (s.directory i).session.canWrite request.clientChannel
  interface : ∃ k, s.registry.findById request.interfaceId = some k
    ∧ (s.registry.entries k).agentPeerId = request.agentPeerId
    ∧ (s.registry.entries k).agentChannel = request.agentChannel ∧ (s.registry.entries k).isVirtual = false
  agent : (s.find request.agentPeerId).isSome

/-- A client opens a channel. -/
def opened (s : Broker) (i : PeerSlot) (entry : InterfaceEntry) (session : ClientSession) (reliable : Bool) : Broker :=
  let s := s.modifySession i fun _ => session
  if reliable then s.setChannelMode entry.agentPeerId entry.agentChannel true else s

/-- A change of the books under which nobody leaves. -/
inductive Move (P : Broker → Act → Prop) : Broker → Broker → Prop
  | alike {s s'} (h : Hushed s s') : Move P s s'
  | said {s s'} (h : Alike s s') (hP : P s (.mark .said)) : Move P s s'
  | acted {s a} (h : P s a) : Move P s (s.perform a)
  | forgotten {s} (clientPeerId : UInt32) : Move P s (s.releaseEchoTokens clientPeerId)
  | requested {s request table t} (h : Requested s request) (ht : s.transactions.openEntry request = some (table, t)) :
      Move P s { s with transactions := table }
  | granted {s t} (txnId : UInt16) (h : (s.transactions.entries t).state = .pending)
      (hc : (s.find (s.transactions.entries t).clientPeerId).isSome) :
      Move P s { s.countTransactions fun c => { c with started := c.started + 1 } with
        transactions := s.transactions.activate t txnId }
  | ended {s t f} (hf : ∀ c, (f c).leaseFrameDrops = c.leaseFrameDrops) (hcounts : Counts s t f ∨ P s (.mark (.late t))) :
      Move P s (s.ended t f)
  | orphaned {s t} (h : (s.transactions.entries t).state = .pending) :
      Move P s (s.modifyTransaction t fun t => { t with clientPeerId := transactionNoClient })
  | adopted {s i} (role : HubPeerRole) (h : (s.directory i).role = .unknown) :
      Move P s (s.modifyPeer i fun p => { p with role })
  | opened {s i k session request channel} (hi : (s.directory i).inUse) (hrole : (s.directory i).role = .client)
      (hk : (s.registry.entries k).inUse) (hid : request.interfaceId = (s.registry.entries k).interfaceId)
      (hagent : request.agentName = (s.registry.entries k).agentName)
      (hname : request.interfaceName = (s.registry.entries k).interfaceName)
      (hreliable : request.reliable → (s.find (s.registry.entries k).agentPeerId).isSome)
      (h : (s.directory i).session.openInterface request = (session, some channel))
      (hP : P s (.mark (.opened i k request))) :
      Move P s (s.opened i (s.registry.entries k) session request.reliable)
  | closed {s i} (channel : UInt8) (h : (s.directory i).role = .client) (hP : P s (.mark (.closed i channel))) :
      Move P s (s.closeClientChannel i channel)
  | dropped {s i session interfaceId} (hrole : (s.directory i).role = .client)
      (ht : ∀ t, (s.transactions.entries t).isInUse →
        (s.transactions.entries t).clientPeerId = (s.directory i).peerId → (s.directory i).peerId = 0)
      (h : (s.directory i).session.takeReliableBinding = some (session, interfaceId)) :
      Move P s ((s.modifySession i fun _ => session).revertAgentChannelIfUnused interfaceId)
  | groupClosed {s k} (hk : (s.registry.entries k).inUse) (hname : (s.registry.entries k).agentName = bridgeGroupAgentName) :
      Move P s { s.detachInterface (s.registry.entries k).interfaceId with
        registry := s.registry.removeVirtual (s.registry.entries k).interfaceId }
  | reattached {s} (k : EntrySlot) (i : PeerSlot) (hP : P s (.mark (.reattached k i))) : Move P s (s.reattachPeer k i)

/-- A sequence of such changes. -/
abbrev Moves (P : Broker → Act → Prop) := Relation.ReflTransGen (Move P)

/-- A peer is released: an agent, with its interfaces; a client without transactions and reliable channels; another. -/
inductive Leave : Broker → Broker → Prop
  | agentLeft {s i} (hi : (s.directory i).inUse) (hrole : (s.directory i).role = .agent) : Leave s (s.releasePeer i)
  | released {s i} (hi : (s.directory i).inUse) (hagent : (s.directory i).role ≠ .agent)
      (hclient : (s.directory i).role = .client → ∀ t, (s.transactions.entries t).isInUse →
        (s.transactions.entries t).clientPeerId = (s.directory i).peerId → (s.directory i).peerId = 0)
      (hreliable : (s.directory i).role = .client → (s.directory i).session.takeReliableBinding = none) :
      Leave s (s.releaseSlot (s.directory i).peerId)

/-- What happens to the books between two registrations. -/
abbrev Goes (P : Broker → Act → Prop) := Relation.ReflTransGen fun s s' => Move P s s' ∨ Leave s s'

variable {s s' s'' : Broker} {P : Broker → Act → Prop}

theorem Hushed.moves (h : Hushed s s') : Moves P s s' := .single (.alike h)

theorem Moves.goes (h : Moves P s s') : Goes P s s' := Relation.ReflTransGen.mono (fun _ _ => .inl) s s' h

theorem Hushed.goes (h : Hushed s s') : Goes P s s' := h.moves.goes

/-- What happens to the books, and with it to the desk: it is left as it is, or by peers. -/
structure Deals (P : Broker → Act → Prop) (s s' : Broker) : Prop where
  goes : Goes P s s'
  desk : s.desk.Empties s'.desk

namespace Deals

theorem refl : Deals P s s := ⟨.refl, .refl⟩

theorem trans (h : Deals P s s') (h' : Deals P s' s'') : Deals P s s'' := ⟨h.goes.trans h'.goes, h.desk.trans h'.desk⟩

theorem moves (h : Moves P s s') (hd : s'.desk = s.desk) : Deals P s s' := ⟨h.goes, hd ▸ .refl⟩

theorem move (h : Move P s s') (hd : s'.desk = s.desk) : Deals P s s' := moves (.single h) hd

theorem act {a : Act} (h : P s a) : Deals P s (s.perform a) := move (.acted h) (s.perform_still a).desk

end Deals

theorem Fixed.deals (h : Fixed s s') : Deals P s s' := .move (.alike h.toHushed) h.desk

theorem Moves.foldl {α : Type} {f : Broker → α → Broker} (h : ∀ s a, Moves P s (f s a)) :
    ∀ (l : List α) (s : Broker), Moves P s (l.foldl f s)
  | [], _ => .refl
  | a :: l, s => (h s a).trans (foldl h l (f s a))

/-! ### Channels and transactions -/

/-- Who a peer is: all of it but its channels, its queue and what it was sent. -/
def identity (p : HubPeer) : HubPeer :=
  { p with sendFailed := false, session := {}, echoTokens := {}, egress := {}, framesForwarded := 0, framesDropped := 0 }

/-- The peers are where they were, and who they were. -/
def SamePeers (s s' : Broker) : Prop := ∀ i, identity (s'.directory i) = identity (s.directory i)

namespace SamePeers

variable (h : SamePeers s s')
include h

theorem inUse (i : PeerSlot) : (s'.directory i).inUse = (s.directory i).inUse :=
  (congrArg HubPeer.inUse (h i) :)

theorem peerId (i : PeerSlot) : (s'.directory i).peerId = (s.directory i).peerId :=
  (congrArg HubPeer.peerId (h i) :)

theorem role (i : PeerSlot) : (s'.directory i).role = (s.directory i).role :=
  (congrArg HubPeer.role (h i) :)

theorem vouched (i : PeerSlot) : (s'.directory i).vouched = (s.directory i).vouched :=
  (congrArg HubPeer.vouched (h i) :)

omit h

theorem refl (s : Broker) : SamePeers s s := fun _ => rfl

theorem trans (h : SamePeers s s') (h' : SamePeers s' s'') : SamePeers s s'' := fun i => (h' i).trans (h i)

theorem foldl {α : Type} {f : Broker → α → Broker} (h : ∀ s a, SamePeers s (f s a)) :
    ∀ (l : List α) (s : Broker), SamePeers s (l.foldl f s)
  | [], s => refl s
  | a :: l, s => (h s a).trans (foldl h l (f s a))

end SamePeers

theorem SendsOnly.samePeers {P : HubOutput → Prop} (h : SendsOnly P s s') : SamePeers s s' := by
  obtain ⟨_, _, _, _, _, rfl⟩ := h
  exact fun _ => rfl

/-- No frame was handed over, parked, counted or dropped for a lease, and no echo token was issued. -/
structure Untouched (s s' : Broker) : Prop where
  frames : ∀ i, (s'.directory i).frames = (s.directory i).frames
  echoTokens : ∀ i, (s'.directory i).echoTokens = (s.directory i).echoTokens
  leaseFrameDrops : s'.metrics.transactions.leaseFrameDrops = s.metrics.transactions.leaseFrameDrops
  log : Says (fun x => x.isFrame = false) s s'

theorem Untouched.refl (s : Broker) : Untouched s s := ⟨fun _ => rfl, fun _ => rfl, rfl, [], by simp, by simp⟩

theorem Untouched.trans (h : Untouched s s') (h' : Untouched s' s'') : Untouched s s'' :=
  ⟨fun i => (h'.frames i).trans (h.frames i), fun i => (h'.echoTokens i).trans (h.echoTokens i),
    h'.leaseFrameDrops.trans h.leaseFrameDrops, h.log.trans h'.log⟩

theorem Alike.untouched (h : Alike s s') : Untouched s s' := by
  obtain ⟨o, ho, hf⟩ := h.log
  refine ⟨fun i => ?_, fun i => (h.peers i).echoTokens, h.leaseFrameDrops, o, ho, fun x hx => (hf x hx).2⟩
  unfold HubPeer.frames
  rw [(h.peers i).egress, (h.peers i).framesForwarded, (h.peers i).framesDropped]

/-- Channels, transactions and modes aside nothing changed: not the peers, their frames or the interfaces. -/
structure Rearranges (s s' : Broker) : Prop extends Untouched s s' where
  samePeers : SamePeers s s'
  registry : s'.registry = s.registry

namespace Rearranges

theorem refl (s : Broker) : Rearranges s s := ⟨.refl s, .refl s, rfl⟩

theorem trans (h : Rearranges s s') (h' : Rearranges s' s'') : Rearranges s s'' :=
  ⟨h.toUntouched.trans h'.toUntouched, h.samePeers.trans h'.samePeers, h'.registry.trans h.registry⟩

/-- A change of the transaction table and of the counters of grants and ends. -/
theorem of_transactions (hp : s'.port = s.port) (hd : s'.directory = s.directory) (hr : s'.registry = s.registry)
    (hm : s'.metrics.transactions.leaseFrameDrops = s.metrics.transactions.leaseFrameDrops) : Rearranges s s' :=
  ⟨⟨fun i => by rw [hd], fun i => by rw [hd], hm, [], by rw [hp, append_nil], by simp⟩, fun i => by rw [hd], hr⟩

end Rearranges

/-- The same, the desk is as it was, nothing was said of a registration, and the transactions that ended are counted. -/
structure Shuffles (s s' : Broker) : Prop extends Rearranges s s', Mute s s' where
  desk : s'.desk = s.desk
  balanced : Balanced s → Balanced s'

namespace Shuffles

theorem refl (s : Broker) : Shuffles s s := ⟨.refl s, .refl s, rfl, id⟩

theorem trans (h : Shuffles s s') (h' : Shuffles s' s'') : Shuffles s s'' :=
  ⟨h.toRearranges.trans h'.toRearranges, h.toMute.trans h'.toMute, h'.desk.trans h.desk, h'.balanced ∘ h.balanced⟩

theorem foldl {α : Type} {f : Broker → α → Broker} (h : ∀ s a, Shuffles s (f s a)) :
    ∀ (l : List α) (s : Broker), Shuffles s (l.foldl f s)
  | [], s => refl s
  | a :: l, s => (h s a).trans (foldl h l (f s a))

/-- A transaction ends. -/
theorem ended {t : TransactionSlot} {f : TransactionCounters → TransactionCounters}
    (hf : ∀ c, (f c).leaseFrameDrops = c.leaseFrameDrops) (hcounts : Counts s t f) : Shuffles s (s.ended t f) :=
  ⟨.of_transactions rfl rfl rfl (hf _), ⟨rfl, rfl⟩, rfl, fun h => h.ended hcounts⟩

/-- A change of the sessions. -/
theorem of_sessions {d : PeerDirectory} (h : ∀ i, ∃ session, d i = { s.directory i with session }) :
    Shuffles s { s with directory := d } := by
  have hpeer : ∀ i, (d i).frames = (s.directory i).frames ∧ (d i).echoTokens = (s.directory i).echoTokens
      ∧ identity (d i) = identity (s.directory i) := fun i => by
    obtain ⟨_, hi⟩ := h i
    rw [hi]
    exact ⟨rfl, rfl, rfl⟩
  exact ⟨⟨⟨fun i => (hpeer i).1, fun i => (hpeer i).2.1, rfl, [], (append_nil _).symm, by simp⟩,
    fun i => (hpeer i).2.2, rfl⟩, ⟨rfl, rfl⟩, s.directory_desk fun i =>
      ⟨(congrArg HubPeer.inUse (hpeer i).2.2 :), (congrArg HubPeer.peerId (hpeer i).2.2 :)⟩, fun h => h.same rfl rfl⟩

end Shuffles

theorem SendsOnly.shuffles (h : Chats s s') : Shuffles s s' := by
  refine ⟨⟨h.chats_fixed.untouched, h.samePeers, ?_⟩, h.chats_fixed.toMute, h.chats_fixed.desk,
    fun hb => hb.like h.chats_fixed.like⟩
  obtain ⟨_, _, _, _, _, rfl⟩ := h
  rfl

variable (s)

theorem modifySession_shuffles (i : PeerSlot) (f : ClientSession → ClientSession) :
    Shuffles s (s.modifySession i f) := by
  refine .of_sessions fun j => ?_
  by_cases hj : j = i
  · subst hj
    exact ⟨_, modifySession_directory_self f⟩
  · exact ⟨_, modifySession_directory_of_ne f hj⟩

theorem setChannelMode_shuffles (peerId : UInt32) (channel : UInt8) (reliable : Bool) :
    Shuffles s (s.setChannelMode peerId channel reliable) :=
  ⟨⟨⟨fun _ => rfl, fun _ => rfl, rfl, [.channelMode peerId channel reliable], rfl, by simp [HubOutput.isFrame]⟩,
    fun _ => rfl, rfl⟩, (s.emit_sends (P := (·.isRegisterAck = false)) rfl).mute fun _ h => h, s.emit_desk rfl rfl,
    fun h => h.same rfl rfl⟩

theorem opened_shuffles (i : PeerSlot) (entry : InterfaceEntry) (session : ClientSession) (reliable : Bool) :
    Shuffles s (s.opened i entry session reliable) := by
  unfold Broker.opened
  split
  · exact (s.modifySession_shuffles _ _).trans (setChannelMode_shuffles _ _ _ _)
  · exact s.modifySession_shuffles _ _

/-! ### Transactions -/

variable {t : TransactionSlot}

/-- A transaction loses its client while it is pending, and ends once it is active. -/
theorem abandonTransaction_cases (h : (s.transactions.entries t).isInUse) :
    (s.transactions.entries t).state = .pending
        ∧ s.abandonTransaction t = s.modifyTransaction t (fun t => { t with clientPeerId := transactionNoClient })
      ∨ (s.transactions.entries t).state = .active
        ∧ Chats (s.ended t fun c => { c with aborted := c.aborted + 1 }) (s.abandonTransaction t) := by
  cases hstate : (s.transactions.entries t).state with
  | free => simp [RelayedTransaction.isInUse, hstate] at h
  | pending => exact .inl ⟨rfl, if_pos hstate⟩
  | active => exact .inr ⟨rfl, s.abandonTransaction_sends (by simp [hstate])⟩

theorem abandonTransaction_moves (h : (s.transactions.entries t).isInUse) :
    Moves P s (s.abandonTransaction t) := by
  rcases s.abandonTransaction_cases h with ⟨hpending, he⟩ | ⟨hactive, hsends⟩
  · rw [he]
    exact .single (.orphaned hpending)
  · have hends : Move P s (s.ended t fun c => { c with aborted := c.aborted + 1 }) :=
      .ended (fun _ => rfl) (.inl (counts_aborted hactive))
    exact .tail (.single hends) (.alike hsends.chats_fixed.toHushed)

theorem refuseTransaction_deals (h : (s.transactions.entries t).state = .active) (agent : PeerSlot) (reason : TxnReason) :
    Deals P s (s.refuseTransaction t agent reason) := by
  have hends : Move P s (s.ended t fun c => { c with aborted := c.aborted + 1 }) :=
    .ended (fun _ => rfl) (.inl (counts_aborted h))
  exact (Deals.move hends rfl).trans (s.refuseTransaction_sends t agent reason).chats_fixed.deals

variable (clientPeerId : UInt32)

theorem abandonClientTransactions_moves : Moves P s (s.abandonClientTransactions clientPeerId) := by
  refine Moves.foldl (fun s t => ?_) _ s
  unfold abandonIfOf
  split
  · rename_i h
    exact s.abandonTransaction_moves h.1
  · exact .refl

/-- What abandoning does to the table: one entry is cleared, or loses its client. -/
theorem abandonTransaction_entries (t : TransactionSlot) : (s.abandonTransaction t).transactions.entries =
    Function.update s.transactions.entries t
      (if (s.transactions.entries t).state = .pending then
        { s.transactions.entries t with clientPeerId := transactionNoClient } else {}) := by
  by_cases h : (s.transactions.entries t).state = .pending
  · unfold abandonTransaction
    rw [if_pos h, if_pos h]
    rfl
  · obtain ⟨_, _, _, _, _, hs⟩ := s.abandonTransaction_sends h
    rw [hs, if_neg h]
    exact TransactionTable.close_entries

/-- Abandoning leaves in use what it does not clear. -/
theorem abandonTransaction_inUse {t u : TransactionSlot}
    (h : ((s.abandonTransaction t).transactions.entries u).isInUse) : (s.transactions.entries u).isInUse
      ∧ (u ≠ t ∧ (s.abandonTransaction t).transactions.entries u = s.transactions.entries u
        ∨ u = t ∧ ((s.abandonTransaction t).transactions.entries u).clientPeerId = 0) := by
  rw [abandonTransaction_entries] at h ⊢
  by_cases hut : u = t
  · subst hut
    rw [Function.update_self] at h ⊢
    split at h
    · rename_i hp
      rw [if_pos hp]
      exact ⟨h, .inr ⟨rfl, rfl⟩⟩
    · simp [RelayedTransaction.isInUse] at h
  · rw [Function.update_of_ne hut] at h ⊢
    exact ⟨h, .inl ⟨hut, rfl⟩⟩

/-- Nobody's directory entry changes, but for the mark of a refused message. -/
theorem abandonTransaction_peers (t : TransactionSlot) (i : PeerSlot) :
    ∃ flag, (s.abandonTransaction t).directory i = { s.directory i with sendFailed := flag } := by
  by_cases h : (s.transactions.entries t).state = .pending
  · unfold abandonTransaction
    rw [if_pos h]
    exact ⟨(s.directory i).sendFailed, rfl⟩
  · obtain ⟨_, _, _, _, _, hs⟩ := s.abandonTransaction_sends h
    rw [hs]
    exact ⟨_, rfl⟩

theorem abandonTransaction_shuffles (h : (s.transactions.entries t).isInUse) : Shuffles s (s.abandonTransaction t) := by
  rcases s.abandonTransaction_cases h with ⟨_, he⟩ | ⟨hactive, hsends⟩
  · rw [he]
    exact ⟨.of_transactions rfl rfl rfl rfl, ⟨rfl, rfl⟩, rfl, fun h => h.orphaned⟩
  · have hends : Shuffles s (s.ended t fun c => { c with aborted := c.aborted + 1 }) :=
      .ended (fun _ => rfl) (counts_aborted hactive)
    exact hends.trans hsends.shuffles

theorem abandonClientTransactions_shuffles : Shuffles s (s.abandonClientTransactions clientPeerId) := by
  refine Shuffles.foldl (fun s t => ?_) _ s
  unfold abandonIfOf
  split
  · rename_i h
    exact s.abandonTransaction_shuffles h.1
  · exact .refl s

section

variable (i : PeerSlot) (channel : UInt8)

/-- The first half of `closeClientChannel`: the channel's transaction is abandoned. -/
def abandonChannel : Broker :=
  match s.transactions.forClientChannel (s.directory i).peerId channel with
  | some t => s.abandonTransaction t
  | none => s

theorem abandonChannel_peers (k : PeerSlot) :
    ∃ flag, (s.abandonChannel i channel).directory k = { s.directory k with sendFailed := flag } := by
  unfold abandonChannel
  split
  · exact s.abandonTransaction_peers _ k
  · exact ⟨_, rfl⟩

theorem abandonChannel_shuffles : Shuffles s (s.abandonChannel i channel) := by
  unfold abandonChannel
  split
  · rename_i ht
    exact s.abandonTransaction_shuffles (TransactionTable.forClientChannel_some ht).1
  · exact .refl s

/-- What closing a channel does: its transaction is abandoned, its binding cleared, and a reliable binding takes the
modes with it. -/
theorem closeClientChannel_cases :
    ((s.directory i).session.findByChannel channel = none ∧ s.closeClientChannel i channel = s)
      ∨ ∃ j s₁, (s.directory i).session.findByChannel channel = some j
        ∧ s₁ = (s.abandonChannel i channel).modifySession i (·.closeChannel channel)
        ∧ s.closeClientChannel i channel = if ((s.directory i).session.bindings j).reliable then
            (s₁.setChannelMode (s.directory i).peerId channel false).revertAgentChannelIfUnused
              ((s.directory i).session.bindings j).interfaceId
          else s₁ := by
  unfold closeClientChannel
  cases hj : (s.directory i).session.findByChannel channel with
  | none => exact .inl ⟨rfl, rfl⟩
  | some j =>
    refine .inr ⟨j, _, rfl, rfl, ?_⟩
    have hrest : ∀ s₁ : Broker, (∃ flag, s₁.directory i = { s.directory i with sendFailed := flag }) →
        (if !((s₁.directory i).session.bindings j).reliable then s₁.modifySession i (·.closeChannel channel)
          else ((s₁.modifySession i (·.closeChannel channel)).setChannelMode
            ((s₁.modifySession i (·.closeChannel channel)).directory i).peerId channel false).revertAgentChannelIfUnused
              ((s₁.directory i).session.bindings j).interfaceId)
        = if ((s.directory i).session.bindings j).reliable then
            ((s₁.modifySession i (·.closeChannel channel)).setChannelMode (s.directory i).peerId channel
              false).revertAgentChannelIfUnused ((s.directory i).session.bindings j).interfaceId
          else s₁.modifySession i (·.closeChannel channel) := by
      rintro s₁ ⟨_, hp⟩
      rw [modifySession_directory_self, hp]
      cases ((s.directory i).session.bindings j).reliable <;> rfl
    unfold abandonChannel
    cases s.transactions.forClientChannel (s.directory i).peerId channel with
    | none => exact hrest s ⟨_, rfl⟩
    | some t => exact hrest _ (s.abandonTransaction_peers t i)

end

/-- The loop has dealt with the slots it has passed, and leaves them so. -/
private theorem abandonLoop_none {clientPeerId : UInt32} (h0 : clientPeerId ≠ 0) :
    ∀ (l : List TransactionSlot) (s : Broker), (t ∈ l ∨ ¬ ((s.transactions.entries t).isInUse
        ∧ (s.transactions.entries t).clientPeerId = clientPeerId)) →
      ((l.foldl (abandonIfOf clientPeerId) s).transactions.entries t).isInUse →
      ((l.foldl (abandonIfOf clientPeerId) s).transactions.entries t).clientPeerId ≠ clientPeerId
  | [], s, hleft, huse => fun hclient => absurd ⟨huse, hclient⟩ (hleft.resolve_left (by simp))
  | u :: l, s, hleft, huse => by
    refine abandonLoop_none h0 l _ ?_ huse
    unfold abandonIfOf
    by_cases hu : (s.transactions.entries u).isInUse ∧ (s.transactions.entries u).clientPeerId = clientPeerId
    · rw [if_pos hu, abandonTransaction_entries]
      by_cases htu : t = u
      · subst htu
        refine .inr fun hboth => h0 ?_
        rw [Function.update_self] at hboth
        split at hboth
        · exact hboth.2.symm
        · simp [RelayedTransaction.isInUse] at hboth
      · rw [Function.update_of_ne htu]
        exact hleft.imp_left fun hmem => (mem_cons.mp hmem).resolve_left htu
    · rw [if_neg hu]
      by_cases htu : t = u
      · subst htu
        exact .inr hu
      · exact hleft.imp_left fun hmem => (mem_cons.mp hmem).resolve_left htu

/-- After its transactions have been abandoned, a client has none. -/
theorem abandonClientTransactions_none {clientPeerId : UInt32} (h0 : clientPeerId ≠ 0) :
    ((s.abandonClientTransactions clientPeerId).transactions.entries t).isInUse →
    ((s.abandonClientTransactions clientPeerId).transactions.entries t).clientPeerId ≠ clientPeerId := by
  have hmem : t ∈ finRange transactionTableMax := mem_finRange t
  rw [abandonClientTransactions]
  generalize finRange transactionTableMax = l at hmem ⊢
  exact abandonLoop_none h0 _ s (.inl hmem)

/-! ### Peers that leave -/

variable (agentPeerId : UInt32)

/-- Failing an agent's transaction clears its entry. -/
theorem failAgentTransaction_cases :
    (s.transactions.forAgent agentPeerId = none ∧ s.failAgentTransaction agentPeerId = s)
      ∨ ∃ t f, s.transactions.forAgent agentPeerId = some t
        ∧ (∀ c, TransactionCounters.leaseFrameDrops (f c) = c.leaseFrameDrops) ∧ Counts s t f
        ∧ Chats (s.ended t f) (s.failAgentTransaction agentPeerId) := by
  unfold failAgentTransaction
  cases h : s.transactions.forAgent agentPeerId with
  | none => exact .inl ⟨rfl, rfl⟩
  | some t =>
    have hsent := s.sendTxnStatus_sends (s.find (s.transactions.entries t).clientPeerId) (s.transactions.entries t)
      .agentDisconnected
    dsimp only
    generalize s.sendTxnStatus _ _ _ = s₁ at hsent ⊢
    have hstate : (s₁.transactions.entries t).state = (s.transactions.entries t).state := by
      obtain ⟨_, _, _, _, _, rfl⟩ := hsent
      rfl
    refine .inr ⟨t, _, rfl, fun c => ?_, fun c => ?_, ((hsent.countTransactions _).transactions (·.close t)).trans
      (finishTransaction_sends _ t)⟩
    · split <;> rfl
    · rw [hstate]
      split
      · exact TransactionCounters.unended_aborted c
      · exact UInt64.add_zero _

theorem failAgentTransaction_shuffles :
    Shuffles s (s.failAgentTransaction agentPeerId) := by
  rcases s.failAgentTransaction_cases agentPeerId with ⟨_, h⟩ | ⟨t, f, _, hf, hcounts, h⟩
  · rw [h]
    exact .refl s
  · exact (Shuffles.ended hf hcounts).trans h.shuffles

variable (interfaceId : UInt32)

theorem detachInterface_shuffles : Shuffles s (s.detachInterface interfaceId) := by
  refine .of_sessions fun i => ?_
  split <;> exact ⟨_, rfl⟩

/-- An agent that goes takes its entries out of the registry. -/
theorem agentLost_eq : ∃ s', Shuffles s s' ∧ (s.failAgentTransaction agentPeerId).detachAgent agentPeerId
    = { s' with registry := s.registry.removePeer agentPeerId } := by
  have hfail := s.failAgentTransaction_shuffles agentPeerId
  generalize s.failAgentTransaction agentPeerId = s₁ at hfail ⊢
  have hloop : Shuffles s₁ ((finRange interfaceRegistryMax).foldl (detachEntryOf agentPeerId) s₁) := by
    refine Shuffles.foldl (fun s k => ?_) _ s₁
    unfold detachEntryOf
    dsimp only
    split
    · exact s.detachInterface_shuffles _
    · exact .refl s
  rw [detachAgent]
  generalize (finRange interfaceRegistryMax).foldl (detachEntryOf agentPeerId) s₁ = s₂ at hloop ⊢
  exact ⟨s₂, hfail.trans hloop, by rw [(hfail.trans hloop).registry]⟩

theorem agentLost_samePeers :
    SamePeers s ((s.failAgentTransaction agentPeerId).detachAgent agentPeerId) := by
  obtain ⟨s', h, he⟩ := s.agentLost_eq agentPeerId
  rw [he]
  exact h.samePeers

variable {k : EntrySlot}

/-- After its interfaces have been detached, an agent has none. -/
theorem detachAgent_none {agentPeerId : UInt32}
    (h : ((s.detachAgent agentPeerId).registry.entries k).inUse) :
    ((s.detachAgent agentPeerId).registry.entries k).agentPeerId ≠ agentPeerId := by
  rw [detachAgent] at h ⊢
  generalize (finRange interfaceRegistryMax).foldl (detachEntryOf agentPeerId) s = s₁ at h ⊢
  dsimp only at h ⊢
  rw [InterfaceRegistry.removePeer_same h]
  exact InterfaceRegistry.removePeer_gone h

/-- Taking back a mode, or leaving it. -/
theorem revertAgentChannelIfUnused_cases :
    s.revertAgentChannelIfUnused interfaceId = s
      ∨ ∃ k, s.registry.findById interfaceId = some k ∧ (s.registry.entries k).isVirtual = false
        ∧ (∀ i, (s.directory i).inUse → (s.directory i).role = .client →
          (s.directory i).session.holdsReliable interfaceId = false)
        ∧ s.revertAgentChannelIfUnused interfaceId =
          s.setChannelMode (s.registry.entries k).agentPeerId (s.registry.entries k).agentChannel false := by
  unfold revertAgentChannelIfUnused
  cases hk : s.registry.findById interfaceId with
  | none => exact .inl rfl
  | some k =>
    dsimp only
    cases hv : (s.registry.entries k).isVirtual with
    | true => exact .inl rfl
    | false =>
      rw [if_neg (by simp)]
      cases hf : Table.find? s.directory fun p => p.inUse && p.role == .client && p.session.holdsReliable interfaceId with
      | some _ => exact .inl rfl
      | none =>
        refine .inr ⟨k, rfl, hv, fun i hi hrole => ?_, rfl⟩
        simpa [hi, hrole] using Table.find?_eq_none.mp hf i

/-- Only the port's log can change. -/
theorem revertAgentChannelIfUnused_eq :
    ∃ o, s.revertAgentChannelIfUnused interfaceId = { s with port := { s.port with log := s.port.log ++ o } } := by
  rcases s.revertAgentChannelIfUnused_cases interfaceId with h | ⟨k, _, _, _, h⟩
  · exact ⟨[], by simpa using h⟩
  · exact ⟨_, h⟩

theorem revertAgentChannelIfUnused_shuffles : Shuffles s (s.revertAgentChannelIfUnused interfaceId) := by
  rcases s.revertAgentChannelIfUnused_cases interfaceId with h | ⟨k, _, _, _, h⟩
  · rw [h]
    exact .refl s
  · rw [h]
    exact setChannelMode_shuffles _ _ _ _

section

variable (i : PeerSlot)

theorem closeClientChannel_shuffles (channel : UInt8) :
    Shuffles s (s.closeClientChannel i channel) := by
  rcases s.closeClientChannel_cases i channel with ⟨_, he⟩ | ⟨j, s₁, _, hs₁, he⟩
  · rw [he]
    exact .refl s
  have hclosed : Shuffles s s₁ := by
    rw [hs₁]
    exact (s.abandonChannel_shuffles i channel).trans (modifySession_shuffles _ i _)
  rw [he]
  split
  · exact (hclosed.trans (s₁.setChannelMode_shuffles _ _ _)).trans (revertAgentChannelIfUnused_shuffles _ _)
  · exact hclosed

theorem removeClientInterface_shuffles (interfaceId : UInt32) (bindings : ℕ) (s : Broker) :
    Shuffles s (s.removeClientInterface i interfaceId bindings) := by
  fun_induction removeClientInterface s i interfaceId bindings with
  | case1 s | case2 s => exact .refl s
  | case3 s bindings b hb ih => exact (s.closeClientChannel_shuffles i _).trans ih

/-- One round of `releaseReliableBindings`: the log aside, only the session changes. -/
theorem dropped_eq (session : ClientSession) (interfaceId : UInt32) :
    ∃ o, (s.modifySession i fun _ => session).revertAgentChannelIfUnused interfaceId =
      { s.modifySession i fun _ => session with port := { s.port with log := s.port.log ++ o } } := by
  obtain ⟨o, h⟩ := revertAgentChannelIfUnused_eq (s.modifySession i fun _ => session) interfaceId
  exact ⟨o, h⟩

theorem releaseReliableBindings_shuffles (rounds : ℕ) (s : Broker) :
    Shuffles s (s.releaseReliableBindings i rounds) := by
  fun_induction releaseReliableBindings s i rounds with
  | case1 s | case2 s => exact .refl s
  | case3 s rounds session interfaceId htake ih =>
    exact ((s.modifySession_shuffles i _).trans (revertAgentChannelIfUnused_shuffles _ _)).trans ih

/-- Releasing the reliable bindings leaves the transactions, and with rounds enough it releases all. -/
theorem releaseReliableBindings_spec (rounds : ℕ) (s : Broker) :
    (s.releaseReliableBindings i rounds).transactions = s.transactions
      ∧ ((s.directory i).session.bindings.count (fun b => b.inUse && b.reliable) ≤ rounds →
        ((s.releaseReliableBindings i rounds).directory i).session.takeReliableBinding = none) := by
  induction rounds generalizing s with
  | zero =>
    refine ⟨rfl, fun h => ?_⟩
    -- A binding to take would be counted.
    cases ht : (s.directory i).session.takeReliableBinding with
    | none => exact ht
    | some r =>
      have := ClientSession.takeReliableBinding_count ht
      omega
  | succ rounds ih =>
    unfold releaseReliableBindings
    cases ht : (s.directory i).session.takeReliableBinding with
    | none => exact ⟨rfl, fun _ => ht⟩
    | some r =>
      obtain ⟨session, interfaceId⟩ := r
      dsimp only
      obtain ⟨o, ho⟩ := s.dropped_eq i session interfaceId
      rw [ho]
      obtain ⟨htxn, hnone⟩ := ih { s.modifySession i fun _ => session with
        port := { s.port with log := s.port.log ++ o } }
      refine ⟨htxn, fun hcount => hnone ?_⟩
      have := ClientSession.takeReliableBinding_count ht
      simp only [modifySession_directory_self]
      omega

theorem releaseReliableBindings_moves (rounds : ℕ) (s : Broker) (hrole : (s.directory i).role = .client)
    (ht : ∀ t, (s.transactions.entries t).isInUse →
      (s.transactions.entries t).clientPeerId = (s.directory i).peerId → (s.directory i).peerId = 0) :
    Moves P s (s.releaseReliableBindings i rounds) := by
  fun_induction releaseReliableBindings s i rounds with
  | case1 | case2 => exact .refl
  | case3 s rounds session interfaceId htake ih =>
    have hmove : Move P s _ := Move.dropped hrole ht htake
    obtain ⟨o, ho⟩ := s.dropped_eq i session interfaceId
    refine .head hmove (ih ?_ ?_)
    · rw [ho]
      simp only [modifySession_directory_self]
      exact hrole
    · rw [ho]
      simp only [modifySession_directory_self]
      exact ht

end

theorem releaseEchoTokens_still : Still s (s.releaseEchoTokens clientPeerId) := by
  refine directory_still fun i => ?_
  split
  · exact ⟨rfl, rfl, rfl, rfl, fun _ => rfl⟩
  · exact .refl _

theorem releaseEchoTokens_samePeers : SamePeers s (s.releaseEchoTokens clientPeerId) := by
  intro i
  unfold releaseEchoTokens
  dsimp only
  split <;> rfl

theorem clearPendingIfconfig_hushed (k : Fin brokerPendingIfconfigMax) : Hushed s (s.clearPendingIfconfig k) :=
  ⟨⟨rfl, fun _ => .refl _, .refl _, fun _ => rfl, rfl, rfl, rfl, [], by simp [clearPendingIfconfig], by simp⟩, rfl, rfl⟩

variable (peerId : UInt32)

theorem releasePendingIfconfig_hushed : Hushed s (s.releasePendingIfconfig peerId) := by
  refine Hushed.foldl (fun s k => ?_) _ s
  unfold releasePendingOf
  dsimp only
  split
  · exact .refl s
  split
  · split
    · exact (s.sendControl_hushed _ fun _ _ => rfl).trans (clearPendingIfconfig_hushed _ k)
    · exact s.clearPendingIfconfig_hushed k
  split
  · exact s.clearPendingIfconfig_hushed k
  · exact .refl s

theorem releasePendingIfconfig_samePeers : SamePeers s (s.releasePendingIfconfig peerId) := by
  refine SamePeers.foldl (fun s k => ?_) _ s
  unfold releasePendingOf
  dsimp only
  split
  · exact .refl s
  split
  · split
    · exact (s.sendControl_sends _ _).samePeers
    · exact .refl s
  split <;> exact .refl s

/-- A session takes nothing back that shows no reliable binding. -/
theorem takeReliableBinding_none_of_face {p q : HubPeer} (h : p.Like q) (hp : p.session.takeReliableBinding = none) :
    q.session.takeReliableBinding = none := by
  simp only [ClientSession.takeReliableBinding, Option.map_eq_none_iff, Table.find?_eq_none] at hp ⊢
  intro j
  obtain ⟨huse, _, _, hrel, _⟩ := ChannelBinding.of_face (h.bindings j)
  rw [huse, hrel]
  exact hp j

variable {i : PeerSlot}

variable {s} in
/-- The end of a release, once the peer's transactions and reliable channels are gone. -/
theorem leave_goes (h : Moves P s s') (hpeers : SamePeers s s') (hi : (s.directory i).inUse)
    (hagent : (s.directory i).role ≠ .agent)
    (hclient : (s.directory i).role = .client → ∀ t, (s'.transactions.entries t).isInUse →
      (s'.transactions.entries t).clientPeerId = (s.directory i).peerId → (s.directory i).peerId = 0)
    (hreliable : (s.directory i).role = .client → (s'.directory i).session.takeReliableBinding = none) :
    Goes P s ((s'.releasePendingIfconfig (s.directory i).peerId).releaseSlot (s.directory i).peerId) := by
  have hlike := s'.releasePendingIfconfig_hushed (s.directory i).peerId
  have hsame := hpeers.trans (s'.releasePendingIfconfig_samePeers (s.directory i).peerId)
  generalize s'.releasePendingIfconfig (s.directory i).peerId = s₁ at hlike hsame ⊢
  have huse := hsame.inUse i
  have hid := hsame.peerId i
  have hrole := hsame.role i
  rw [← hid] at hclient ⊢
  refine .tail (h.goes.trans hlike.goes) (.inr (.released (huse.trans hi) (hrole ▸ hagent) ?_ ?_))
  · intro hr t ht hc
    obtain ⟨hstate, _, _, _, _, hcl, _⟩ := RelayedTransaction.of_face (hlike.transactions t)
    refine hclient (hrole ▸ hr) t ?_ (hcl ▸ hc)
    simpa [RelayedTransaction.isInUse, hstate] using ht
  · intro hr
    exact takeReliableBinding_none_of_face (hlike.peers i).toLike (hreliable (hrole ▸ hr))

/-- Releasing an agent. -/
theorem releasePeer_agent (h : (s.directory i).role = .agent) :
    s.releasePeer i = ((((s.failAgentTransaction (s.directory i).peerId).detachAgent
      (s.directory i).peerId).releasePendingIfconfig (s.directory i).peerId).releaseSlot (s.directory i).peerId) := by
  have hpeers := s.agentLost_samePeers (s.directory i).peerId
  rw [releasePeer, if_pos h]
  generalize (s.failAgentTransaction (s.directory i).peerId).detachAgent (s.directory i).peerId = s₁ at hpeers ⊢
  have hne : (s₁.directory i).role ≠ .client := by rw [hpeers.role i, h]; simp
  rw [if_neg hne]

/-- Releasing a client. -/
theorem releasePeer_client (h : (s.directory i).role = .client) :
    s.releasePeer i = ((((s.abandonClientTransactions (s.directory i).peerId).releaseReliableBindings i
      clientSessionBindingsMax).releaseEchoTokens (s.directory i).peerId).releasePendingIfconfig
        (s.directory i).peerId).releaseSlot (s.directory i).peerId := by
  have hne : (s.directory i).role ≠ .agent := by rw [h]; simp
  rw [releasePeer, if_neg hne, if_pos h]

/-- Releasing any other peer. -/
theorem releasePeer_other (h : (s.directory i).role ≠ .agent) (h' : (s.directory i).role ≠ .client) :
    s.releasePeer i = (s.releasePendingIfconfig (s.directory i).peerId).releaseSlot (s.directory i).peerId := by
  rw [releasePeer, if_neg h, if_neg h']

variable {s} in
/-- The release of a client whose transactions have been abandoned. -/
private theorem releaseClient_goes (hi : (s.directory i).inUse)
    (hrole : (s.directory i).role = .client) (hmoves : Moves P s s') (hpeers : SamePeers s s')
    (hnone : ∀ t, (s'.transactions.entries t).isInUse →
      (s'.transactions.entries t).clientPeerId = (s.directory i).peerId → (s.directory i).peerId = 0) :
    Goes P s ((((s'.releaseReliableBindings i clientSessionBindingsMax).releaseEchoTokens
      (s.directory i).peerId).releasePendingIfconfig (s.directory i).peerId).releaseSlot (s.directory i).peerId) := by
  have hrel := (releaseReliableBindings_shuffles i clientSessionBindingsMax s').samePeers
  obtain ⟨htxn, htake⟩ := releaseReliableBindings_spec i clientSessionBindingsMax s'
  have hmoves' : Moves P s' _ := releaseReliableBindings_moves i clientSessionBindingsMax s' ((hpeers.role i).trans hrole) (by
    rw [hpeers.peerId i]
    exact hnone)
  have htake' := htake (Table.count_le _ _)
  generalize s'.releaseReliableBindings i clientSessionBindingsMax = s₂ at hrel htxn htake' hmoves' ⊢
  have hecho := s₂.releaseEchoTokens_still (s.directory i).peerId
  have hne : (s.directory i).role ≠ .agent := by rw [hrole]; simp
  refine leave_goes ((hmoves.trans hmoves').tail (.forgotten _))
    ((hpeers.trans hrel).trans (s₂.releaseEchoTokens_samePeers _)) hi
    hne ?_ fun _ => takeReliableBinding_none_of_face (hecho.peers i) htake'
  intro _ t ht hc
  have htxn' : (s₂.releaseEchoTokens (s.directory i).peerId).transactions = s'.transactions := htxn
  rw [htxn'] at ht hc
  exact hnone t ht hc

/-- **Releasing a peer ends what the books have of it first.** -/
theorem releasePeer_goes (hi : (s.directory i).inUse) : Goes P s (s.releasePeer i) := by
  by_cases ha : (s.directory i).role = .agent
  · exact .single (.inr (.agentLeft hi ha))
  by_cases hc : (s.directory i).role = .client
  · rw [s.releasePeer_client hc]
    refine releaseClient_goes hi hc (s.abandonClientTransactions_moves _)
      (s.abandonClientTransactions_shuffles _).samePeers fun t ht hclient => ?_
    by_contra h0
    exact s.abandonClientTransactions_none h0 ht hclient
  rw [s.releasePeer_other ha hc]
  exact leave_goes .refl (.refl s) hi ha (absurd · hc) (absurd · hc)

/-- A release clears one slot, and leaves every peer who it is until then; the requests of the desk go with it. -/
theorem releasePeer_eq (i : PeerSlot) :
    ∃ s', SamePeers s s' ∧ s'.desk = s.desk.release (s.directory i).peerId
      ∧ s.releasePeer i = s'.releaseSlot (s.directory i).peerId := by
  have hpending : ∀ s₁ : Broker, SamePeers s s₁ → s₁.desk = s.desk →
      SamePeers s (s₁.releasePendingIfconfig (s.directory i).peerId)
        ∧ (s₁.releasePendingIfconfig (s.directory i).peerId).desk = s.desk.release (s.directory i).peerId :=
    fun s₁ hsame hdesk =>
      ⟨hsame.trans (s₁.releasePendingIfconfig_samePeers _), by rw [releasePendingIfconfig_desk, hdesk]⟩
  by_cases ha : (s.directory i).role = .agent
  · rw [s.releasePeer_agent ha]
    obtain ⟨s', hs', he⟩ := s.agentLost_eq (s.directory i).peerId
    obtain ⟨hsame, hdesk⟩ := hpending _ (s.agentLost_samePeers _) (by rw [he]; exact hs'.desk)
    exact ⟨_, hsame, hdesk, rfl⟩
  by_cases hc : (s.directory i).role = .client
  · rw [s.releasePeer_client hc]
    have hends := (s.abandonClientTransactions_shuffles (s.directory i).peerId).trans
      (releaseReliableBindings_shuffles i clientSessionBindingsMax _)
    obtain ⟨hsame, hdesk⟩ := hpending _ (hends.samePeers.trans (releaseEchoTokens_samePeers _ (s.directory i).peerId))
      ((releaseEchoTokens_still _ _).desk.trans hends.desk)
    exact ⟨_, hsame, hdesk, rfl⟩
  · rw [s.releasePeer_other ha hc]
    obtain ⟨hsame, hdesk⟩ := hpending s (.refl s) rfl
    exact ⟨_, hsame, hdesk, rfl⟩

theorem releasePeer_deals (hi : (s.directory i).inUse) : Deals P s (s.releasePeer i) := by
  refine ⟨s.releasePeer_goes hi, ?_⟩
  obtain ⟨s', -, hdesk, he⟩ := s.releasePeer_eq i
  rw [he, releaseSlot_desk, hdesk]
  exact Desk.Empties.refl.leave ⟨i, Prod.ext hi rfl⟩

theorem disconnectPeer_deals : Deals P s (s.disconnectPeer peerId) := by
  unfold disconnectPeer
  cases h : s.find peerId with
  | none => exact .refl
  | some i => exact (s.releasePeer_deals (PeerDirectory.find_some h).1).trans (emit_fixed _ ⟨rfl, rfl⟩ rfl ⟨rfl, rfl⟩).deals

theorem turnAway_deals (i : PeerSlot) (code : ErrorCode) (detail : String) : Deals P s (s.turnAway i code detail) :=
  (s.sendError_fixed _ code detail).deals.trans (disconnectPeer_deals _ _)

/-- The mode a client's first channel of the interface asks for. -/
def demandMode (i : PeerSlot) (entry : InterfaceEntry) : Broker :=
  match (s.directory i).session.channelForInterface entry.interfaceId with
  | none => s
  | some channel =>
    if (s.directory i).session.channelReliable channel then s.setChannelMode entry.agentPeerId entry.agentChannel true
    else s

/-- What `reattachPeer` does: the bindings that wait for the names come back, and are closed again if the client may
not read. -/
theorem reattachPeer_cases (k : EntrySlot) (i : PeerSlot) :
    (¬ ((s.directory i).inUse ∧ (s.directory i).role = .client) ∧ s.reattachPeer k i = s)
      ∨ ((s.directory i).inUse ∧ (s.directory i).role = .client) ∧ ∃ s₁ canWrite s₂ waited, s.authorized i = (s₁, canWrite)
        ∧ (s₁.directory i).session.reattachInterface (s.registry.entries k).agentName (s.registry.entries k).interfaceName
          (s.registry.entries k).interfaceId canWrite = (s₂, waited)
        ∧ (waited = false ∧ s.reattachPeer k i = (s₁.modifySession i fun _ => s₂)
          ∨ waited = true ∧ ∃ s₃ canRead, (s₁.modifySession i fun _ => s₂).authorized i = (s₃, canRead)
            ∧ s.reattachPeer k i = if canRead then s₃.demandMode i (s.registry.entries k)
              else s₃.removeClientInterface i (s.registry.entries k).interfaceId clientSessionBindingsMax) := by
  unfold reattachPeer
  dsimp only
  by_cases hc : (s.directory i).inUse ∧ (s.directory i).role = .client
  swap
  · refine .inl ⟨hc, if_pos ?_⟩
    rw [not_and_or] at hc
    exact hc.imp_left (by simp)
  refine .inr ⟨hc, ?_⟩
  rw [if_neg (by simp [hc.1, hc.2]), clientCanWrite]
  rcases s.authorized i with ⟨s₁, canWrite⟩
  rcases hs : (s₁.directory i).session.reattachInterface (s.registry.entries k).agentName
    (s.registry.entries k).interfaceName (s.registry.entries k).interfaceId canWrite with ⟨s₂, waited⟩
  refine ⟨s₁, canWrite, s₂, waited, rfl, hs, ?_⟩
  cases waited with
  | false => exact .inl ⟨rfl, rfl⟩
  | true =>
    have hend : ∀ x : Broker × Bool,
        (if !x.2 then x.1.removeClientInterface i (s.registry.entries k).interfaceId clientSessionBindingsMax
          else match (x.1.directory i).session.channelForInterface (s.registry.entries k).interfaceId with
          | none => x.1
          | some channel =>
            if (x.1.directory i).session.channelReliable channel then
              x.1.setChannelMode (s.registry.entries k).agentPeerId (s.registry.entries k).agentChannel true
            else x.1)
        = if x.2 then x.1.demandMode i (s.registry.entries k)
          else x.1.removeClientInterface i (s.registry.entries k).interfaceId clientSessionBindingsMax := by
      rintro ⟨s₃, canRead⟩
      cases canRead <;> rfl
    exact .inr ⟨rfl, ((s₁.modifySession i fun _ => s₂).authorized i).1,
      ((s₁.modifySession i fun _ => s₂).authorized i).2, rfl, hend ((s₁.modifySession i fun _ => s₂).authorized i)⟩

theorem reattachPeer_shuffles (k : EntrySlot) (i : PeerSlot) : Shuffles s (s.reattachPeer k i) := by
  rcases s.reattachPeer_cases k i with ⟨_, he⟩ | ⟨_, s₁, canWrite, session, waited, hauth, _, hafter⟩
  · rw [he]
    exact .refl s
  have h₁ := (s.authorized_sends i).shuffles
  rw [hauth] at h₁
  have h₂ := h₁.trans (s₁.modifySession_shuffles i fun _ => session)
  rcases hafter with ⟨_, he⟩ | ⟨_, s₃, canRead, hauth', he⟩
  · rw [he]
    exact h₂
  have h₃ := h₂.trans (authorized_sends _ i).shuffles
  rw [hauth'] at h₃
  rw [he]
  split
  · unfold demandMode
    split
    · exact h₃
    · split
      · exact h₃.trans (setChannelMode_shuffles _ _ _ _)
      · exact h₃
  · exact h₃.trans (removeClientInterface_shuffles _ _ _ _)

/-! ### Frames -/

theorem disconnectSlowConsumer_deals (i : PeerSlot) : Deals P s (s.disconnectSlowConsumer i).1 := by
  unfold disconnectSlowConsumer
  split
  · exact .refl
  · exact (s.sendError_fixed _ _ _).deals.trans (disconnectPeer_deals _ _)

variable {f : FrameMessage} {routeFlags : UInt8}

theorem forwardFrame_deals {r : FrameRoute}
    (h : P s (.forward r f routeFlags)) : Deals P s (s.forwardFrame r f routeFlags).1 := by
  have hact : Deals P s (s.perform (.forward r f routeFlags)) := .act h
  by_cases hr : r.reliable
  · rw [perform, if_pos hr, offer] at hact
    unfold forwardFrame at hact ⊢
    cases hf : s.find r.peerId with
    | none =>
      rw [hf] at hact
      exact hact
    | some i =>
      rw [hf] at hact
      dsimp only
      rw [if_pos hr]
      rcases hs : s.sendFrame r.peerId r.channel (.frame { f with channel := r.channel, routeFlags }) with ⟨s', taken⟩
      rw [hs] at hact
      cases taken with
      | true => exact hact
      | false => exact hact.trans (s'.disconnectSlowConsumer_deals i)
  · rw [perform, if_neg hr] at hact
    exact hact

variable {originator : UInt32}

/-- The loop over routes: every frame forwarded on the way is allowed. -/
theorem forwardRoutes_deals (routes : List FrameRoute)
    (s : Broker) (h : ∀ s', Goes P s s' → ∀ r ∈ routes, s'.routeTakesFrame r f originator →
      P s' (.forward r f routeFlags)) : Deals P s (forwardRoutes f originator routeFlags s routes).1 := by
  induction routes generalizing s with
  | nil => exact .refl
  | cons r routes ih =>
    unfold forwardRoutes
    split
    · exact ih s fun s' hs' r' hr' => h s' hs' r' (mem_cons_of_mem r hr')
    · rename_i htakes
      have hfirst := s.forwardFrame_deals (h s .refl r mem_cons_self (by simpa using htakes))
      exact hfirst.trans (ih _ fun s' hs' r' hr' => h s' (hfirst.goes.trans hs') r' (mem_cons_of_mem r hr'))

/-- The frame may be injected into the target, if it takes it: its agent gets a token, and the frame. -/
def BridgesInto (P : Broker → Act → Prop) (s : Broker) (t : BridgeTarget) (f : FrameMessage) : Prop :=
  ∀ k agent, s.registry.findByName t.destination.agentName t.destination.interfaceName = some k →
    (s.registry.entries k).refusesFrame f.frameFlags = false →
    s.find (s.registry.entries k).agentPeerId = some agent →
    P s (.issue agent echoTokensBridgeOwner)
      ∧ P (s.issueToken agent echoTokensBridgeOwner).1
        (.forward ⟨(s.registry.entries k).agentPeerId, (s.registry.entries k).agentChannel, false, false⟩ f
          ((s.issueToken agent echoTokensBridgeOwner).2 <<< frameRouteTokenShift))

theorem bridgeInto_deals {t : BridgeTarget} (h : BridgesInto P s t f) :
    Deals P s (s.bridgeInto t f) := by
  unfold bridgeInto
  split
  · exact (s.charge_fixed t.charge).2.deals
  rename_i k hk
  dsimp only
  split
  · exact (s.charge_fixed t.charge).2.deals
  rename_i htakes
  split
  · exact (s.charge_fixed t.charge).2.deals
  · rename_i agent hagent
    obtain ⟨hissue, hforward⟩ := h k agent hk (by simpa using htakes) hagent
    have htoken : Deals P s (s.issueToken agent echoTokensBridgeOwner).1 := .act hissue
    split
    · exact htoken.trans (charge_fixed _ _).2.deals
    · exact (htoken.trans (forwardFrame_deals _ hforward)).trans (charge_fixed _ _).1.deals

theorem bridgeInto_like (t : BridgeTarget) (f : FrameMessage) : Like s (s.bridgeInto t f) := by
  unfold bridgeInto
  split
  · exact (s.charge_fixed t.charge).2.like
  dsimp only
  split
  · exact (s.charge_fixed t.charge).2.like
  split
  · exact (s.charge_fixed t.charge).2.like
  · rename_i agent _
    have htoken := (s.issueToken_still agent echoTokensBridgeOwner).toLike
    split
    · exact htoken.trans (charge_fixed _ _).2.like
    · exact (htoken.trans (forwardFrame_still _ (.inl rfl) _ _).toLike).trans (charge_fixed _ _).1.like

theorem showToGroup_deals (k : EntrySlot)
    (h : ∀ s', Goes P s s' → ∀ r ∈ toInterface s.directory (s.registry.entries k).interfaceId,
      s'.routeTakesFrame r f originator → P s' (.forward r f routeFlags)) :
    Deals P s (s.showToGroup k f originator routeFlags).1 := by
  unfold showToGroup
  dsimp only
  have hcount : Fixed s (s.countFrames fun m => { m with
      framesDropped := m.framesDropped + UInt64.ofNat
        ((toInterface s.directory (s.registry.entries k).interfaceId).length - frameRoutesMax) }) := countFrames_fixed rfl
  have hframe := hcount.trans (registry_fixed (InterfaceRegistry.countFrame_steady (s.registry.entries k).interfaceId))
  exact hframe.deals.trans (forwardRoutes_deals _ _ fun s' hs' r hr =>
    h s' (hframe.goes.trans hs') r (mem_of_mem_take hr))

/-- The frame may be shown to the clients of every group of the bus. -/
def ShowsToGroups (P : Broker → Act → Prop) (s : Broker) (origin : BridgeEndpoint) (f : FrameMessage)
    (originator : UInt32) (routeFlags : UInt8) : Prop :=
  ∀ g k, (s.groups.slots g).inUse → (s.groups.slots g).group.carries origin f.canId →
    s.registry.findByName bridgeGroupAgentName (s.groups.slots g).group.name = some k →
    ∀ s', Goes P s s' → ∀ r ∈ toInterface s.directory (s.registry.entries k).interfaceId,
      s'.routeTakesFrame r f originator → P s' (.forward r f routeFlags)

theorem showToGroups_deals (origin : BridgeEndpoint)
    (h : ∀ s', Goes P s s' → ShowsToGroups P s' origin f originator routeFlags) :
    Deals P s (s.showToGroups origin f originator routeFlags).1 := by
  have hloop : ∀ (l : List GroupSlot) (shown : Broker × ℕ), Deals P s shown.1 →
      Deals P shown.1 (l.foldl (showToGroupSlot origin f originator routeFlags) shown).1 := by
    intro l
    induction l with
    | nil => exact fun _ _ => .refl
    | cons g l ih =>
      intro shown hshown
      have hone : Deals P shown.1 (showToGroupSlot origin f originator routeFlags shown g).1 := by
        unfold showToGroupSlot
        dsimp only
        split
        · rename_i hslot
          split
          · exact .refl
          · rename_i k hk
            have hshow := shown.1.showToGroup_deals k (h shown.1 hshown.goes g k hslot.1 hslot.2 hk)
            rcases hs : shown.1.showToGroup k f originator routeFlags with ⟨s', n⟩
            rw [hs] at hshow
            exact hshow
        · exact .refl
      exact hone.trans (ih _ (hshown.trans hone))
  rw [showToGroups]
  generalize finRange bridgeGroupsMax = l
  exact hloop l (s, 0) .refl

/-- The frame of an agent may be bridged: into every target, and to the clients of every group of its bus. -/
def BridgesFrame (P : Broker → Act → Prop) (s : Broker) (origin : BridgeEndpoint) (f : FrameMessage)
    (originator : UInt32) (routeFlags : UInt8) : Prop :=
  ∀ s', Goes P s s' →
    (Like s s' → ∀ t ∈ BridgeTarget.collect s.bridges s.groups origin f.canId, BridgesInto P s' t f)
    ∧ ShowsToGroups P s' origin f originator routeFlags

theorem bridgeFrame_deals
    (h : ∀ k, s.registry.findByAgentChannel agentPeerId f.channel = some k →
      BridgesFrame P s ⟨(s.registry.entries k).agentName, (s.registry.entries k).interfaceName⟩ f originator
        routeFlags) :
    Deals P s (s.bridgeFrame agentPeerId f originator routeFlags).1 := by
  unfold bridgeFrame
  split
  · exact .refl
  · rename_i k hk
    have hbridges := h k hk
    dsimp only
    have hinto : ∀ (l : List BridgeTarget), (∀ t ∈ l, t ∈ BridgeTarget.collect s.bridges s.groups
        ⟨(s.registry.entries k).agentName, (s.registry.entries k).interfaceName⟩ f.canId) → ∀ s', Goes P s s' →
        Like s s' → Deals P s' (l.foldl (fun s t => s.bridgeInto t f) s') := by
      intro l
      induction l with
      | nil => exact fun _ _ _ _ => .refl
      | cons t l ih =>
        intro hl s' hs' hlike
        have hone := s'.bridgeInto_deals ((hbridges s' hs').1 hlike t (hl t mem_cons_self))
        exact hone.trans (ih (fun t' ht' => hl t' (mem_cons_of_mem t ht')) _ (hs'.trans hone.goes)
          (hlike.trans (s'.bridgeInto_like t f)))
    have hall := hinto _ (fun _ ht => ht) s .refl (.refl s)
    exact hall.trans (showToGroups_deals _ _ fun s' hs' => (hbridges s' (hall.goes.trans hs')).2)

/-- The frame of a client may be written to the members of its group and shown to the others of the group. -/
def WritesGroup (P : Broker → Act → Prop) (s : Broker) (writerPeerId : UInt32) (g : GroupSlot) (k : EntrySlot)
    (f : FrameMessage) : Prop :=
  ∀ s', Like s s' → Goes P s s' →
    (∀ m ∈ (s.groups.slots g).group.members, m.receives →
      if s'.endpointLeasedToAnother m.endpoint writerPeerId then P s' .suppress
      else BridgesInto P s' ⟨m.endpoint, .group g⟩ f)
    ∧ ∀ s'', Goes P s' s'' → ∀ r ∈ toInterface s'.directory (s'.registry.entries k).interfaceId,
      s''.routeTakesFrame r f writerPeerId → P s'' (.forward r f 0)

theorem writeIntoMember_deals {writerPeerId : UInt32} {g : GroupSlot} {m : BridgeGroupMember}
    (h : m.receives → if s.endpointLeasedToAnother m.endpoint writerPeerId then P s .suppress
      else BridgesInto P s ⟨m.endpoint, .group g⟩ f) : Deals P s (writeIntoMember writerPeerId g f s m) := by
  unfold writeIntoMember
  split
  · exact .refl
  · rename_i hreceives
    have hm := h (by simpa using hreceives)
    split
    · rename_i hleased
      rw [if_pos hleased] at hm
      have hact : Deals P s (s.perform .suppress) := .act hm
      exact hact
    · rename_i hleased
      rw [if_neg hleased] at hm
      exact s.bridgeInto_deals hm

theorem writeIntoMember_like (writerPeerId : UInt32) (g : GroupSlot) (f : FrameMessage) (m : BridgeGroupMember) :
    Like s (writeIntoMember writerPeerId g f s m) := by
  unfold writeIntoMember
  split
  · exact .refl s
  split
  · exact (s.perform_still .suppress).toLike
  · exact s.bridgeInto_like _ f

theorem writeIntoGroup_deals {writerPeerId : UInt32} {g : GroupSlot}
    (h : WritesGroup P s writerPeerId g k f) : Deals P s (s.writeIntoGroup writerPeerId g k f) := by
  have hloop : ∀ (l : List BridgeGroupMember), (∀ m ∈ l, m ∈ (s.groups.slots g).group.members) → ∀ s', Goes P s s' →
      Like s s' → Deals P s' (l.foldl (writeIntoMember writerPeerId g f) s')
        ∧ Like s (l.foldl (writeIntoMember writerPeerId g f) s') := by
    intro l
    induction l with
    | nil => exact fun _ _ _ hlike => ⟨.refl, hlike⟩
    | cons m l ih =>
      intro hl s' hs' hlike
      have hone := s'.writeIntoMember_deals ((h s' hlike hs').1 m (hl m mem_cons_self))
      obtain ⟨hrest, hlike'⟩ := ih (fun m' hm' => hl m' (mem_cons_of_mem m hm')) _ (hs'.trans hone.goes)
        (hlike.trans (s'.writeIntoMember_like writerPeerId g f m))
      exact ⟨hone.trans hrest, hlike'⟩
  obtain ⟨hall, hlike⟩ := hloop _ (fun _ hm => hm) s .refl (.refl s)
  unfold writeIntoGroup
  exact hall.trans (showToGroup_deals _ _ (h _ hlike hall.goes).2)

/-- The second half of `routeAgentFrame`: the routes have been served. -/
private theorem bridgeIfFresh_deals (i : PeerSlot)
    (fresh : Prop) [Decidable fresh] (nowhere : ℕ → Prop) [DecidablePred nowhere] (accepted : Bool)
    (h : fresh → ∀ k, s.registry.findByAgentChannel (s.directory i).peerId f.channel = some k →
      BridgesFrame P s ⟨(s.registry.entries k).agentName, (s.registry.entries k).interfaceName⟩ f originator
        routeFlags) :
    Deals P s (
      let (s, bridgedCount) :=
        if (s.directory i).role = HubPeerRole.agent ∧ fresh ∧ s.bridgesConfigured then
          s.bridgeFrame (s.directory i).peerId f originator routeFlags
        else (s, 0)
      if nowhere bridgedCount then
        (s.countFrames fun m => { m with framesUnroutable := m.framesUnroutable + 1 }, accepted)
      else (s, accepted)).1 := by
  by_cases hb : (s.directory i).role = .agent ∧ fresh ∧ s.bridgesConfigured
  · rw [if_pos hb]
    have hbridge := s.bridgeFrame_deals (s.directory i).peerId (h hb.2.1)
    rcases h : s.bridgeFrame (s.directory i).peerId f originator routeFlags with ⟨s', bridgedCount⟩
    rw [h] at hbridge
    dsimp only
    split
    · refine hbridge.trans (Fixed.deals ?_)
      dsimp only
      exact countFrames_fixed rfl
    · exact hbridge
  · rw [if_neg hb]
    dsimp only
    split
    · refine Fixed.deals ?_
      dsimp only
      exact countFrames_fixed rfl
    · exact .refl

/-- Whether a frame an agent captured has been bridged before. -/
def isBridged (originator : UInt32) (f : FrameMessage) : Prop :=
  originator = echoTokensBridgeOwner ∨ f.routeFlags &&& frameRouteFlagBridged ≠ 0

instance (originator : UInt32) (f : FrameMessage) : Decidable (isBridged originator f) :=
  inferInstanceAs (Decidable (_ ∨ _))

/-- What the hub leaves of an agent's flags. -/
def capturedFlags (originator : UInt32) (f : FrameMessage) : UInt8 :=
  f.routeFlags &&& (frameRouteFlagBridged ||| frameRouteFlagEcho)
    ||| (if isBridged originator f then frameRouteFlagBridged else 0)

/-- The frame of an agent may go to the channels open on its interface and, unless it was bridged before, be bridged. -/
def RoutesAgent (P : Broker → Act → Prop) (s : Broker) (i : PeerSlot) (f : FrameMessage) (originator : UInt32) : Prop :=
  (∀ s', Goes P s s' → ∀ r ∈ fromAgent s.registry s.directory (s.directory i).peerId f.channel,
    s'.routeTakesFrame r f originator → P s' (.forward r f (capturedFlags originator f)))
  ∧ (¬ isBridged originator f → ∀ s', Goes P s s' →
    ∀ k, s'.registry.findByAgentChannel (s'.directory i).peerId f.channel = some k →
      BridgesFrame P s' ⟨(s'.registry.entries k).agentName, (s'.registry.entries k).interfaceName⟩ f originator
        (capturedFlags originator f))

theorem routeAgentFrame_deals
    (h : RoutesAgent P s i f ((s.directory i).echoTokens.originator f.routeFlags)) :
    Deals P s (s.routeAgentFrame i f).1 := by
  rw [routeAgentFrame]
  have hcount : Fixed s (s.countFrames fun m => { m with
      framesDropped := m.framesDropped + UInt64.ofNat
        ((fromAgent s.registry s.directory (s.directory i).peerId f.channel).length - frameRoutesMax) }) :=
    countFrames_fixed rfl
  have hroutes := hcount.deals.trans (forwardRoutes_deals
    ((fromAgent s.registry s.directory (s.directory i).peerId f.channel).take frameRoutesMax) _
    fun s' hs' r hr => h.1 s' (hcount.goes.trans hs') r (mem_of_mem_take hr))
  exact hroutes.trans (bridgeIfFresh_deals _ i _ (fun n => _ ∧ n = 0) _ fun hfresh => h.2 hfresh _ hroutes.goes)

/-- The frame of a client may be injected along the route, with a token of the client. -/
def InjectsInto (P : Broker → Act → Prop) (s : Broker) (senderPeerId : UInt32) (route : FrameRoute)
    (f : FrameMessage) : Prop :=
  (∀ agent, s.find route.peerId = some agent → P s (.issue agent senderPeerId))
  ∧ ∀ s', Like s s' → s'.registry = s.registry → Goes P s s' →
    P s' (.forward route f ((s.injectionToken senderPeerId (some route)).2 <<< frameRouteTokenShift))

theorem injectionToken_deals {senderPeerId : UInt32} {route : Option FrameRoute}
    (h : ∀ r ∈ route, ∀ agent, s.find r.peerId = some agent → P s (.issue agent senderPeerId)) :
    Deals P s (s.injectionToken senderPeerId route).1 := by
  unfold injectionToken
  split
  · exact .refl
  · rename_i agent hagent
    obtain ⟨r, hr, hfind⟩ := Option.bind_eq_some_iff.mp hagent
    exact .act (h r hr agent hfind)

theorem injectionToken_like (senderPeerId : UInt32) (route : Option FrameRoute) :
    Like s (s.injectionToken senderPeerId route).1 := by
  unfold injectionToken
  split
  · exact .refl s
  · exact (s.issueToken_still _ _).toLike

theorem injectionToken_registry (senderPeerId : UInt32) (route : Option FrameRoute) :
    (s.injectionToken senderPeerId route).1.registry = s.registry := by
  unfold injectionToken
  split <;> rfl

theorem reliableRoutesFit_registry (f : FrameMessage) (originator : UInt32) (routes : List FrameRoute) (s : Broker) :
    (reliableRoutesFit f originator s routes).1.registry = s.registry := by
  fun_induction reliableRoutesFit f originator s routes with
  | case1 => rfl
  | case2 s r routes _ ih => exact ih
  | case3 s r routes _ s' h => exact congrArg (fun x => x.1.registry) h.symm
  | case4 s r routes _ s' h ih => exact ih.trans (congrArg (fun x => x.1.registry) h.symm)

/-- A frame a client writes has one route. -/
theorem forwardRoute_deals (route : Option FrameRoute)
    (h : ∀ r ∈ route, P s (.forward r f routeFlags)) :
    Deals P s (forwardRoutes f originator routeFlags s route.toList).1 := by
  cases route with
  | none => exact .refl
  | some r =>
    simp only [Option.toList_some, forwardRoutes]
    split
    · exact .refl
    · exact s.forwardFrame_deals (h r rfl)

theorem injectFrame_deals (i : PeerSlot) (f : FrameMessage) (route : Option FrameRoute)
    (h : ∀ r ∈ route, InjectsInto P s (s.directory i).peerId r f) : Deals P s (s.injectFrame i f route).1 := by
  unfold injectFrame
  have htoken : Deals P s (s.injectionToken (s.directory i).peerId route).1 :=
    s.injectionToken_deals fun r hr => (h r hr).1
  have hlike := s.injectionToken_like (s.directory i).peerId route
  have hforwards : ∀ r ∈ route, ∀ s', Like s s' → s'.registry = s.registry → Goes P s s' →
      P s' (.forward r f ((s.injectionToken (s.directory i).peerId route).2 <<< frameRouteTokenShift)) := by
    intro r hr s' hlike hreg hs'
    have hroute : route = some r := hr
    rw [hroute]
    exact (h r hr).2 s' hlike hreg hs'
  have hreg := s.injectionToken_registry (s.directory i).peerId route
  rcases h : s.injectionToken (s.directory i).peerId route with ⟨s₁, token⟩
  rw [h] at htoken hforwards hlike hreg
  have hfitreg := (reliableRoutesFit_registry f 0 route.toList s₁).trans hreg
  have hfit := htoken.trans (reliableRoutesFit_fixed f 0 route.toList s₁).deals
  have hfitlike := hlike.trans (reliableRoutesFit_fixed f 0 route.toList s₁).like
  dsimp only
  rcases h : reliableRoutesFit f 0 s₁ route.toList with ⟨s₂, fits⟩
  rw [h] at hfit hfitlike hfitreg
  cases fits with
  | false => exact hfit
  | true =>
    have hforward : Deals P s (forwardRoutes f 0 (token <<< frameRouteTokenShift) s₂ route.toList).1 :=
      hfit.trans (s₂.forwardRoute_deals route fun r hr => hforwards r hr s₂ hfitlike hfitreg hfit.goes)
    dsimp only
    split
    · refine hforward.trans (Fixed.deals ?_)
      dsimp only
      exact countFrames_fixed rfl
    · exact hforward

/-- The frame of a client may be dropped for a lease, written into a group or injected. -/
def RoutesClient (P : Broker → Act → Prop) (s : Broker) (i : PeerSlot) (f : FrameMessage) : Prop :=
  (s.directory i).session.canWrite f.channel → f.canId &&& frameCanIdFlagErr = 0 →
    if s.channelLeasedToAnother i f.channel then P s .suppress
    else
      (∀ g k, s.groupOfChannel i f.channel = some (g, k) → WritesGroup P s (s.directory i).peerId g k f)
      ∧ (s.groupOfChannel i f.channel = none → s.channelRefusesFrame i f = false →
        ∀ r ∈ fromClient s.registry (s.directory i) f.channel, InjectsInto P s (s.directory i).peerId r f)

theorem routeClientFrame_deals (h : RoutesClient P s i f) :
    Deals P s (s.routeClientFrame i f).1 := by
  rw [routeClientFrame]
  by_cases hmay : !(s.directory i).session.canWrite f.channel ∨ f.canId &&& frameCanIdFlagErr ≠ 0
  · rw [if_pos hmay]
    refine Fixed.deals ?_
    dsimp only
    exact countFrames_fixed rfl
  rw [if_neg hmay]
  push Not at hmay
  have hroutes := h (by simpa using hmay.1) hmay.2
  by_cases hleased : s.channelLeasedToAnother i f.channel
  · rw [if_pos hleased] at hroutes ⊢
    have hact : Deals P s (s.perform .suppress) := .act hroutes
    exact hact
  rw [if_neg hleased] at hroutes ⊢
  cases hgroup : s.groupOfChannel i f.channel with
  | some gk =>
    obtain ⟨g, k⟩ := gk
    have hwrite := s.writeIntoGroup_deals (hroutes.1 g k hgroup)
    dsimp only
    exact hwrite
  | none =>
    dsimp only
    split
    · refine Fixed.deals ?_
      dsimp only
      exact countFrames_fixed rfl
    · rename_i htakes
      exact s.injectFrame_deals i f _ (hroutes.2 hgroup (by simpa using htakes))

/-- What one frame may lead to, once it is counted. -/
def RoutesFrame (P : Broker → Act → Prop) (s : Broker) (i : PeerSlot) (f : FrameMessage) : Prop :=
  ∀ s', Hushed s s' →
    if (s'.directory i).role = .agent then RoutesAgent P s' i f ((s'.directory i).echoTokens.originator f.routeFlags)
    else RoutesClient P s' i f

theorem routeFrame_deals (h : RoutesFrame P s i f) :
    Deals P s (s.routeFrame i f).1 := by
  have hcount : Fixed s (s.countFrames fun m => { m with framesReceived := m.framesReceived + 1 }) :=
    countFrames_fixed rfl
  have hframe := hcount.trans (countInterfaceFrame_fixed _ i f.channel)
  have hroutes := h _ hframe.toHushed
  unfold routeFrame
  dsimp only
  split
  · rename_i hrole
    rw [if_pos hrole] at hroutes
    exact hframe.deals.trans (routeAgentFrame_deals _ hroutes)
  · rename_i hrole
    rw [if_neg hrole] at hroutes
    exact hframe.deals.trans (routeClientFrame_deals _ hroutes)

theorem routeFrames_deals (i : PeerSlot) (frames : List FrameMessage) (s : Broker)
    (h : ∀ s', Goes P s s' → ∀ f ∈ frames, RoutesFrame P s' i f) : Deals P s (routeFrames i s frames).1 := by
  induction frames generalizing s with
  | nil => exact .refl
  | cons f frames ih =>
    have hfirst := s.routeFrame_deals (h s .refl f mem_cons_self)
    exact hfirst.trans (ih _ fun s' hs' f' hf' => h s' (hfirst.goes.trans hs') f' (mem_cons_of_mem f hf'))

/-- Where everything is allowed with frames, so is every frame. -/
theorem routesFrame_of_all (h : ∀ s a, a.isMark = false → P s a) (i : PeerSlot) (f : FrameMessage) :
    RoutesFrame P s i f := by
  intro s' _
  split
  · exact ⟨fun s' _ r _ _ => h s' _ rfl, fun _ s' _ k _ s'' _ =>
      ⟨fun _ t _ l agent _ _ _ => ⟨h _ _ rfl, h _ _ rfl⟩, fun g l _ _ _ s₃ _ r _ _ => h s₃ _ rfl⟩⟩
  · intro _ _
    split
    · exact h _ _ rfl
    · refine ⟨fun g k _ s'' _ _ => ⟨fun m _ _ => ?_, fun s₃ _ r _ _ => h s₃ _ rfl⟩, fun _ _ r _ =>
        ⟨fun agent _ => h _ _ rfl, fun s'' _ _ _ => h s'' _ rfl⟩⟩
      split
      · exact h _ _ rfl
      · exact fun l agent _ _ _ => ⟨h _ _ rfl, h _ _ rfl⟩

/-! ### What keeps the interfaces -/

/-- The channels of the client in slot `i` may come back to the interface. -/
def ComesBack (P : Broker → Act → Prop) (s : Broker) (k : EntrySlot) : Prop :=
  ∀ i, (s.directory i).inUse → (s.directory i).role = .client → P s (.mark (.reattached k i))

theorem reattachPeer_moves (h : ComesBack P s k) (i : PeerSlot) :
    Moves P s (s.reattachPeer k i) := by
  rcases s.reattachPeer_cases k i with ⟨_, he⟩ | ⟨hc, _⟩
  · rw [he]
  · exact .single (.reattached k i (h i hc.1 hc.2))

theorem reattachInterface_moves
    (h : ∀ s', Moves P s s' → s'.registry = s.registry → ComesBack P s' k) :
    Moves P s (s.reattachInterface k) ∧ Shuffles s (s.reattachInterface k) := by
  suffices hloop : ∀ (l : List PeerSlot) (s' : Broker), Moves P s s' → Shuffles s s' →
      Moves P s (l.foldl (reattachPeer k) s') ∧ Shuffles s (l.foldl (reattachPeer k) s') from
    hloop _ s .refl (.refl s)
  intro l
  induction l with
  | nil => exact fun s' hs' hsame => ⟨hs', hsame⟩
  | cons i l ih =>
    intro s' hs' hsame
    exact ih _ (hs'.trans (s'.reattachPeer_moves (h s' hs' hsame.registry) i)) (hsame.trans (s'.reattachPeer_shuffles k i))

theorem reattachClientsToAgent_deals {agentPeerId : UInt32}
    (h : ∀ s' k, Moves P s s' → s'.registry = s.registry → (s.registry.entries k).inUse →
      (s.registry.entries k).agentPeerId = agentPeerId → ComesBack P s' k) :
    Deals P s (s.reattachClientsToAgent agentPeerId) := by
  suffices hloop : ∀ (l : List EntrySlot) (s' : Broker), Moves P s s' → Shuffles s s' →
      Deals P s (l.foldl (reattachEntryOf agentPeerId) s') from hloop _ s .refl (.refl s)
  intro l
  induction l with
  | nil => exact fun _ hs' hsame => .moves hs' hsame.desk
  | cons k l ih =>
    intro s' hs' hsame
    rw [foldl_cons, reattachEntryOf]
    split
    · rename_i hk
      rw [hsame.registry] at hk
      obtain ⟨hback, hsame'⟩ := s'.reattachInterface_moves (P := P) (k := k) fun s'' hs'' hreg =>
        h s'' k (hs'.trans hs'') (hreg.trans hsame.registry) hk.1 hk.2
      exact ih _ (hs'.trans hback) (hsame.trans hsame')
    · exact ih _ hs' hsame

theorem releaseSlot_registry : (s.releaseSlot peerId).registry = s.registry := by
  unfold releaseSlot
  split <;> rfl

/-- So does the release of an agent. -/
theorem releasePeer_agent_registry (h : (s.directory i).role = .agent) :
    (s.registry.removePeer (s.directory i).peerId).Steady (s.releasePeer i).registry := by
  obtain ⟨s', -, hlost⟩ := s.agentLost_eq (s.directory i).peerId
  have hpending := (releasePendingIfconfig_hushed { s' with registry := s.registry.removePeer (s.directory i).peerId }
    (s.directory i).peerId).registry
  rwa [s.releasePeer_agent h, releaseSlot_registry, hlost]

/-- Clearing a slot. -/
theorem releaseSlot_directory (s : Broker) (peerId : UInt32) (i : PeerSlot) :
    (s.find peerId = some i ∧ (s.releaseSlot peerId).directory i = {})
      ∨ (s.find peerId ≠ some i ∧ (s.releaseSlot peerId).directory i = s.directory i) := by
  unfold releaseSlot
  cases h : s.find peerId with
  | none => exact .inr ⟨by simp, rfl⟩
  | some j =>
    by_cases hij : i = j
    · subst hij
      exact .inl ⟨rfl, modifyPeer_directory_self _⟩
    · exact .inr ⟨fun he => hij (Option.some.inj he).symm, modifyPeer_directory_of_ne _ hij⟩

/-! ### What every change keeps -/

/-- A change of the books, seen from the peers, the frames and the interfaces. -/
inductive Move.Kind (P : Broker → Act → Prop) (s : Broker) : Broker → Prop
  | alike {s' : Broker} (h : Alike s s') : Kind P s s'
  | acted {a : Act} (h : P s a) : Kind P s (s.perform a)
  | forgotten (clientPeerId : UInt32) : Kind P s (s.releaseEchoTokens clientPeerId)
  | adopted {i : PeerSlot} (role : HubPeerRole) (h : (s.directory i).role = .unknown) :
      Kind P s (s.modifyPeer i fun p => { p with role })
  | rearranged {s' : Broker} (h : Rearranges s s') : Kind P s s'
  | groupClosed {s' : Broker} (interfaceId : UInt32) (h : Rearranges s s') :
      Kind P s { s' with registry := s.registry.removeVirtual interfaceId }

section

variable {s}

theorem Move.kind (h : Move P s s') : Move.Kind P s s' := by
  cases h with
  | alike ha => exact .alike ha.toAlike
  | said ha => exact .alike ha
  | acted ha => exact .acted ha
  | forgotten clientPeerId => exact .forgotten clientPeerId
  | adopted role hrole => exact .adopted role hrole
  | opened => exact .rearranged (s.opened_shuffles _ _ _ _).toRearranges
  | closed channel => exact .rearranged (s.closeClientChannel_shuffles _ channel).toRearranges
  | dropped =>
    exact .rearranged ((s.modifySession_shuffles _ _).trans (revertAgentChannelIfUnused_shuffles _ _)).toRearranges
  | groupClosed => exact .groupClosed _ (s.detachInterface_shuffles _).toRearranges
  | reattached k i => exact .rearranged (s.reattachPeer_shuffles k i).toRearranges
  | ended hf => exact .rearranged (.of_transactions rfl rfl rfl (hf _))
  | _ => exact .rearranged (.of_transactions rfl rfl rfl rfl)

/-- Only registrations give ids. -/
theorem Move.nextInterfaceId (h : Move P s s') : s'.registry.nextInterfaceId = s.registry.nextInterfaceId := by
  cases h.kind with
  | alike ha => exact ha.registry.nextInterfaceId
  | acted => exact (s.perform_still _).registry.nextInterfaceId
  | rearranged hr => rw [hr.registry]
  | _ => rfl

theorem Goes.nextInterfaceId (h : Goes P s s') : s'.registry.nextInterfaceId = s.registry.nextInterfaceId := by
  induction h with
  | refl => rfl
  | tail _ hstep ih =>
    refine Eq.trans ?_ ih
    rcases hstep with hm | hl
    · exact hm.nextInterfaceId
    · cases hl with
      | agentLeft hi hrole => exact (releasePeer_agent_registry _ hrole).nextInterfaceId
      | released => rw [releaseSlot_registry]

/-- The peers are where they were, with their ids; one may have got a role. -/
theorem Move.peers (h : Move P s s') (i : PeerSlot) : (s'.directory i).inUse = (s.directory i).inUse
    ∧ (s'.directory i).peerId = (s.directory i).peerId
    ∧ ((s'.directory i).role = (s.directory i).role ∨ (s.directory i).role = .unknown) := by
  cases h.kind with
  | alike ha => exact ⟨(ha.peers i).inUse, (ha.peers i).peerId, .inl (ha.peers i).role⟩
  | @acted a =>
    have hl := s.perform_still a
    exact ⟨(hl.peers i).inUse, (hl.peers i).peerId, .inl (hl.peers i).role⟩
  | forgotten clientPeerId =>
    have hsame := s.releaseEchoTokens_samePeers clientPeerId
    exact ⟨hsame.inUse i, hsame.peerId i, .inl (hsame.role i)⟩
  | @adopted k role hrole =>
    by_cases hik : i = k
    · subst hik
      rw [modifyPeer_directory_self]
      exact ⟨rfl, rfl, .inr hrole⟩
    · rw [modifyPeer_directory_of_ne _ hik]
      exact ⟨rfl, rfl, .inl rfl⟩
  | rearranged hr => exact ⟨hr.samePeers.inUse i, hr.samePeers.peerId i, .inl (hr.samePeers.role i)⟩
  | groupClosed _ hr => exact ⟨hr.samePeers.inUse i, hr.samePeers.peerId i, .inl (hr.samePeers.role i)⟩

/-- A peer that leaves leaves the others where they were. -/
theorem Leave.peers (h : Leave s s') (i : PeerSlot) : s'.directory i = {}
    ∨ (s'.directory i).inUse = (s.directory i).inUse ∧ (s'.directory i).peerId = (s.directory i).peerId
      ∧ (s'.directory i).role = (s.directory i).role := by
  cases h with
  | released =>
    rcases s.releaseSlot_directory _ i with ⟨_, h⟩ | ⟨_, h⟩
    · exact .inl h
    · rw [h]
      exact .inr ⟨rfl, rfl, rfl⟩
  | agentLeft =>
    obtain ⟨s₁, hsame, -, he⟩ := s.releasePeer_eq _
    rw [he]
    rcases s₁.releaseSlot_directory _ i with ⟨_, h⟩ | ⟨_, h⟩
    · exact .inl h
    · rw [h]
      exact .inr ⟨hsame.inUse i, hsame.peerId i, hsame.role i⟩

/-- Nobody comes, and nobody changes their id. -/
theorem Goes.back (h : Goes P s s') (hi : (s'.directory i).inUse) :
    (s.directory i).inUse ∧ (s'.directory i).peerId = (s.directory i).peerId := by
  induction h with
  | refl => exact ⟨hi, rfl⟩
  | @tail s₁ s₂ _ hstep ih =>
    have hback : (s₁.directory i).inUse ∧ (s₂.directory i).peerId = (s₁.directory i).peerId := by
      rcases hstep with hm | hl
      · obtain ⟨huse, hid, _⟩ := hm.peers i
        exact ⟨huse.symm.trans hi, hid⟩
      · rcases hl.peers i with hgone | ⟨huse, hid, _⟩
        · rw [hgone] at hi
          cases hi
        · exact ⟨huse.symm.trans hi, hid⟩
    exact ⟨(ih hback.1).1, hback.2.trans (ih hback.1).2⟩

theorem releaseSlot_mute (peerId : UInt32) : Mute s (s.releaseSlot peerId) := by
  unfold releaseSlot
  split <;> exact ⟨rfl, rfl⟩

/-- Something is said of a registration where this is allowed. -/
theorem Move.mute (h : Move P s s') (hP : ¬ P s (.mark .said)) : Mute s s' := by
  cases h with
  | alike ha => exact ha.toMute
  | said _ hsaid => exact absurd hsaid hP
  | acted => exact (s.perform_still _).toMute
  | forgotten clientPeerId => exact (s.releaseEchoTokens_still clientPeerId).toMute
  | opened => exact (s.opened_shuffles _ _ _ _).toMute
  | closed channel => exact (s.closeClientChannel_shuffles _ channel).toMute
  | dropped => exact ((s.modifySession_shuffles _ _).trans (revertAgentChannelIfUnused_shuffles _ _)).toMute
  | reattached k i => exact (s.reattachPeer_shuffles k i).toMute
  | _ => exact ⟨rfl, rfl⟩

theorem Leave.mute (h : Leave s s') : Mute s s' := by
  cases h with
  | released => exact releaseSlot_mute _
  | @agentLeft i hi hrole =>
    obtain ⟨s₁, hlost, he⟩ := s.agentLost_eq (s.directory i).peerId
    rw [s.releasePeer_agent hrole, he]
    have hgone : Mute s { s₁ with registry := s.registry.removePeer (s.directory i).peerId } := ⟨hlost.acks, hlost.writes⟩
    exact (hgone.trans (releasePendingIfconfig_hushed _ (s.directory i).peerId).toMute).trans (releaseSlot_mute _)

/-- **The changes of the books keep the balance**, but for a late grant. -/
theorem Balanced.move (h : Balanced s) (hm : Move P s s') (hP : ∀ t, ¬ P s (.mark (.late t))) : Balanced s' := by
  cases hm with
  | alike ha => exact h.like ha.like
  | said ha => exact h.like ha.like
  | acted => exact h.like (s.perform_still _).toLike
  | forgotten clientPeerId => exact h.like (s.releaseEchoTokens_still clientPeerId).toLike
  | requested _ ht => exact h.requested ht
  | granted txnId hp => exact h.activate txnId hp
  | @ended t _ _ hcounts => exact h.ended (hcounts.resolve_right (hP t))
  | orphaned => exact h.orphaned
  | opened => exact (s.opened_shuffles _ _ _ _).balanced h
  | closed channel => exact (s.closeClientChannel_shuffles _ channel).balanced h
  | dropped => exact ((s.modifySession_shuffles _ _).trans (revertAgentChannelIfUnused_shuffles _ _)).balanced h
  | reattached k i => exact (s.reattachPeer_shuffles k i).balanced h
  | _ => exact h.same rfl rfl

theorem Balanced.releaseSlot (h : Balanced s) (peerId : UInt32) : Balanced (s.releaseSlot peerId) := by
  unfold Broker.releaseSlot
  split
  · exact h.same rfl rfl
  · exact h

theorem Balanced.leave (h : Balanced s) (hl : Leave s s') : Balanced s' := by
  cases hl with
  | released => exact h.releaseSlot _
  | @agentLeft i hi hrole =>
    obtain ⟨s₁, hlost, he⟩ := s.agentLost_eq (s.directory i).peerId
    rw [s.releasePeer_agent hrole, he]
    have hgone : Balanced { s₁ with registry := s.registry.removePeer (s.directory i).peerId } :=
      (hlost.balanced h).same rfl rfl
    exact (hgone.like (releasePendingIfconfig_hushed _ (s.directory i).peerId).like).releaseSlot _

/-- What every change of the books keeps, a sequence of them keeps. -/
theorem Goes.invariant {I : Broker → Prop} (hmove : ∀ {s s'}, I s → Move P s s' → I s')
    (hleave : ∀ {s s'}, I s → Leave s s' → I s') (h : Goes P s s') (hs : I s) : I s' := by
  induction h with
  | refl => exact hs
  | tail _ hstep ih =>
    rcases hstep with hm | hl
    · exact hmove ih hm
    · exact hleave ih hl

theorem Goes.mute (h : Goes P s s') (hP : ∀ s, ¬ P s (.mark .said)) : Mute s s' :=
  h.invariant (I := Mute s) (fun hs hm => hs.trans (hm.mute (hP _))) (fun hs hl => hs.trans hl.mute) (.refl s)

/-- Nobody takes an id that nobody has. -/
theorem Goes.fresh (h : Goes P s s') {peerId : UInt32} (hnone : s.find peerId = none) (hi : (s'.directory i).inUse) :
    (s'.directory i).peerId ≠ peerId := by
  intro he
  obtain ⟨hi', hsame⟩ := h.back hi
  have hother := Table.find?_eq_none.mp hnone i
  rw [hi', ← hsame, he] at hother
  simp at hother

end

end Broker
end CanHub
