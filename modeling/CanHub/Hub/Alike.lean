/-
# What the books of the hub do not record

Most of what an event changes is beside the point of the hub's bookkeeping:
counters, filters, paces, tokens, parked frames, what the ports were asked. The face
of a binding, of an interface entry and of a transaction is the rest of it, and
`Like s s'` says that `s'` shows the same faces as `s`: the same peers in the same
roles, with the same channels, the same interfaces and transactions, as many of them
counted as granted and not ended, and no channel mode set in between. `Alike s s'` says in
addition that nothing happened to frames: none was sent or parked, no echo token was
issued, and none was dropped for a lease. Where the desk of the CONFIGUREs
(`CanHub/Hub/Desk.lean`) is as it was, too, no REGISTER was answered and nothing written
to the identity store (`Mute`), the two are `Still` and `Fixed`.

Here is one lemma for each function that changes nothing else. What happens to frames
is one of the `Act`s, each a call of one function (`perform`), under which the books
are `Still`. What the remaining functions do to the books is in
`CanHub/Hub/Moves.lean`.
-/
import CanHub.Hub.Desk

namespace CanHub

/-! ### Faces -/

/-- A binding without its counters and filters. -/
def ChannelBinding.face (b : ChannelBinding) : ChannelBinding :=
  { b with framesForwarded := 0, framesDropped := 0, filters := [] }

/-- An interface entry without its counters, its pace and what is known of CAN FD. -/
def InterfaceEntry.face (e : InterfaceEntry) : InterfaceEntry :=
  { e with
    framesReceived := 0, txDropped := 0, advertisedRate := 0, fdReported := false, fdCapable := false, shaper := {} }

/-- What is known of CAN FD on the interface. -/
def InterfaceEntry.fd (e : InterfaceEntry) : Bool × Bool := (e.fdReported, e.fdCapable)

/-- A transaction without its progress. -/
def RelayedTransaction.face (t : RelayedTransaction) : RelayedTransaction :=
  { t with startedAtUs := 0, lastProgressUs := 0, completedSteps := 0, relayedBytes := 0, consumedBytes := 0 }

/-- How many transactions were granted and have not ended, as they are counted. -/
def TransactionCounters.unended (c : TransactionCounters) : UInt64 := c.started - c.completed - c.aborted

theorem ChannelBinding.of_face {b c : ChannelBinding} (h : b.face = c.face) :
    b.inUse = c.inUse ∧ b.dormant = c.dormant ∧ b.canWrite = c.canWrite ∧ b.reliable = c.reliable
      ∧ b.interfaceId = c.interfaceId ∧ b.channel = c.channel ∧ b.agentName = c.agentName
      ∧ b.interfaceName = c.interfaceName := by
  simp only [face, mk.injEq] at h
  grind

theorem InterfaceEntry.of_face {e f : InterfaceEntry} (h : e.face = f.face) :
    e.inUse = f.inUse ∧ e.interfaceId = f.interfaceId ∧ e.agentPeerId = f.agentPeerId
      ∧ e.agentChannel = f.agentChannel ∧ e.agentName = f.agentName ∧ e.interfaceName = f.interfaceName := by
  simp only [face, mk.injEq] at h
  grind

theorem RelayedTransaction.of_face {t u : RelayedTransaction} (h : t.face = u.face) :
    t.state = u.state ∧ t.exclusive = u.exclusive ∧ t.interfaceId = u.interfaceId ∧ t.agentPeerId = u.agentPeerId
      ∧ t.agentChannel = u.agentChannel ∧ t.clientPeerId = u.clientPeerId ∧ t.clientChannel = u.clientChannel := by
  simp only [face, mk.injEq] at h
  grind

/-- The same peer in the same role, with the same channels. -/
structure HubPeer.Like (p q : HubPeer) : Prop where
  inUse : q.inUse = p.inUse
  peerId : q.peerId = p.peerId
  role : q.role = p.role
  fingerprintHex : q.fingerprintHex = p.fingerprintHex
  bindings : ∀ j, (q.session.bindings j).face = (p.session.bindings j).face

/-- The same peer, with the same frames parked and counted and the same tokens issued. -/
structure HubPeer.Alike (p q : HubPeer) : Prop extends HubPeer.Like p q where
  egress : q.egress = p.egress
  echoTokens : q.echoTokens = p.echoTokens
  framesForwarded : q.framesForwarded = p.framesForwarded
  framesDropped : q.framesDropped = p.framesDropped

/-- The same interfaces. -/
structure InterfaceRegistry.Alike (r r' : InterfaceRegistry) : Prop where
  entries : ∀ k, (r'.entries k).face = (r.entries k).face
  nextInterfaceId : r'.nextInterfaceId = r.nextInterfaceId

/-- The same interfaces, of which the same is known. -/
structure InterfaceRegistry.Steady (r r' : InterfaceRegistry) : Prop extends InterfaceRegistry.Alike r r' where
  fd : ∀ k, (r'.entries k).fd = (r.entries k).fd

/-- A change of the transport's mode for a channel. -/
def HubOutput.isMode : HubOutput → Bool
  | .channelMode .. => true
  | _ => false

/-- A frame handed to the transport. -/
def HubOutput.isFrame : HubOutput → Bool
  | .datagram _ _ (.frame _) _ => true
  | _ => false

theorem HubPeer.Like.refl (p : HubPeer) : p.Like p := ⟨rfl, rfl, rfl, rfl, fun _ => rfl⟩

theorem HubPeer.Like.trans {p q r : HubPeer} (h : p.Like q) (h' : q.Like r) : p.Like r :=
  ⟨h'.inUse.trans h.inUse, h'.peerId.trans h.peerId, h'.role.trans h.role,
    h'.fingerprintHex.trans h.fingerprintHex, fun j => (h'.bindings j).trans (h.bindings j)⟩

theorem HubPeer.Alike.refl (p : HubPeer) : p.Alike p := ⟨.refl p, rfl, rfl, rfl, rfl⟩

theorem HubPeer.Alike.trans {p q r : HubPeer} (h : p.Alike q) (h' : q.Alike r) : p.Alike r :=
  ⟨h.toLike.trans h'.toLike, h'.egress.trans h.egress, h'.echoTokens.trans h.echoTokens,
    h'.framesForwarded.trans h.framesForwarded, h'.framesDropped.trans h.framesDropped⟩

theorem InterfaceRegistry.Alike.refl (r : InterfaceRegistry) : r.Alike r := ⟨fun _ => rfl, rfl⟩

theorem InterfaceRegistry.Alike.trans {r r' r'' : InterfaceRegistry} (h : r.Alike r') (h' : r'.Alike r'') :
    r.Alike r'' :=
  ⟨fun k => (h'.entries k).trans (h.entries k), h'.nextInterfaceId.trans h.nextInterfaceId⟩

theorem InterfaceRegistry.Steady.refl (r : InterfaceRegistry) : r.Steady r := ⟨.refl r, fun _ => rfl⟩

theorem InterfaceRegistry.Steady.trans {r r' r'' : InterfaceRegistry} (h : r.Steady r') (h' : r'.Steady r'') :
    r.Steady r'' :=
  ⟨h.toAlike.trans h'.toAlike, fun k => (h'.fd k).trans (h.fd k)⟩

namespace Broker

/-- What was handed over since is of the kind. -/
def Says (p : HubOutput → Prop) (s s' : Broker) : Prop := ∃ o, s'.port.log = s.port.log ++ o ∧ ∀ x ∈ o, p x

theorem Says.trans {p : HubOutput → Prop} {s s' s'' : Broker} (h : Says p s s') (h' : Says p s' s'') : Says p s s'' := by
  obtain ⟨o, ho, hp⟩ := h
  obtain ⟨o', ho', hp'⟩ := h'
  exact ⟨o ++ o', by rw [ho', ho, List.append_assoc], List.forall_mem_append.mpr ⟨hp, hp'⟩⟩

/-- `s'` shows the same faces as `s`, and no channel mode was set in between. -/
structure Like (s s' : Broker) : Prop where
  config : s'.config = s.config
  peers : ∀ i, (s.directory i).Like (s'.directory i)
  registry : s.registry.Alike s'.registry
  transactions : ∀ t, (s'.transactions.entries t).face = (s.transactions.entries t).face
  activeLeases : s'.transactions.activeLeases = s.transactions.activeLeases
  unended : s'.metrics.transactions.unended = s.metrics.transactions.unended
  log : Says (fun x => x.isMode = false) s s'

/-- The faces are the same, nothing happened to frames, and nothing was learned of an interface. -/
structure Alike (s s' : Broker) : Prop where
  config : s'.config = s.config
  peers : ∀ i, (s.directory i).Alike (s'.directory i)
  registry : s.registry.Steady s'.registry
  transactions : ∀ t, (s'.transactions.entries t).face = (s.transactions.entries t).face
  activeLeases : s'.transactions.activeLeases = s.transactions.activeLeases
  unended : s'.metrics.transactions.unended = s.metrics.transactions.unended
  leaseFrameDrops : s'.metrics.transactions.leaseFrameDrops = s.metrics.transactions.leaseFrameDrops
  log : Says (fun x => x.isMode = false ∧ x.isFrame = false) s s'

variable {s s' s'' : Broker}

theorem Like.refl (s : Broker) : Like s s :=
  ⟨rfl, fun i => .refl _, .refl _, fun _ => rfl, rfl, rfl, [], by simp, by simp⟩

theorem Like.trans (h : Like s s') (h' : Like s' s'') : Like s s'' where
  config := h'.config.trans h.config
  peers := fun i => (h.peers i).trans (h'.peers i)
  registry := h.registry.trans h'.registry
  transactions := fun t => (h'.transactions t).trans (h.transactions t)
  activeLeases := h'.activeLeases.trans h.activeLeases
  unended := h'.unended.trans h.unended
  log := h.log.trans h'.log

namespace Alike

theorem like (h : Alike s s') : Like s s' := by
  obtain ⟨o, ho, hm⟩ := h.log
  exact ⟨h.config, fun i => (h.peers i).toLike, h.registry.toAlike, h.transactions, h.activeLeases, h.unended, o, ho,
    fun x hx => (hm x hx).1⟩

theorem refl (s : Broker) : Alike s s :=
  ⟨rfl, fun i => .refl _, .refl _, fun _ => rfl, rfl, rfl, rfl, [], by simp, by simp⟩

theorem trans (h : Alike s s') (h' : Alike s' s'') : Alike s s'' where
  config := h'.config.trans h.config
  peers := fun i => (h.peers i).trans (h'.peers i)
  registry := h.registry.trans h'.registry
  transactions := fun t => (h'.transactions t).trans (h.transactions t)
  activeLeases := h'.activeLeases.trans h.activeLeases
  unended := h'.unended.trans h.unended
  leaseFrameDrops := h'.leaseFrameDrops.trans h.leaseFrameDrops
  log := h.log.trans h'.log

end Alike

/-- No REGISTER was answered, and nothing was written to the identity store. -/
structure Mute (s s' : Broker) : Prop where
  acks : s'.port.log.filter (·.isRegisterAck) = s.port.log.filter (·.isRegisterAck)
  writes : s'.port.writes = s.port.writes

theorem Mute.refl (s : Broker) : Mute s s := ⟨rfl, rfl⟩

theorem Mute.trans (h : Mute s s') (h' : Mute s' s'') : Mute s s'' := ⟨h'.acks.trans h.acks, h'.writes.trans h.writes⟩

/-- The books are alike, and nothing was said of a registration. -/
structure Hushed (s s' : Broker) : Prop extends Alike s s', Mute s s'

namespace Hushed

theorem refl (s : Broker) : Hushed s s := ⟨.refl s, .refl s⟩

theorem trans (h : Hushed s s') (h' : Hushed s' s'') : Hushed s s'' := ⟨h.toAlike.trans h'.toAlike, h.toMute.trans h'.toMute⟩

/-- A loop of such steps is such a step. -/
theorem foldl {α : Type} {f : Broker → α → Broker} (h : ∀ s a, Hushed s (f s a)) :
    ∀ (l : List α) (s : Broker), Hushed s (l.foldl f s)
  | [], s => refl s
  | a :: l, s => (h s a).trans (foldl h l (f s a))

end Hushed

/-- The books are alike, and so is the desk; nothing was said of a registration. -/
structure Fixed (s s' : Broker) : Prop extends Hushed s s' where
  desk : s'.desk = s.desk

/-- The faces are the same, and so is the desk; nothing was said of a registration. -/
structure Still (s s' : Broker) : Prop extends Like s s', Mute s s' where
  desk : s'.desk = s.desk

theorem Still.refl (s : Broker) : Still s s := ⟨.refl s, .refl s, rfl⟩

theorem Still.trans (h : Still s s') (h' : Still s' s'') : Still s s'' :=
  ⟨h.toLike.trans h'.toLike, h.toMute.trans h'.toMute, h'.desk.trans h.desk⟩

namespace Fixed

theorem still (h : Fixed s s') : Still s s' := ⟨h.like, h.toMute, h.desk⟩

theorem refl (s : Broker) : Fixed s s := ⟨.refl s, rfl⟩

theorem trans (h : Fixed s s') (h' : Fixed s' s'') : Fixed s s'' := ⟨h.toHushed.trans h'.toHushed, h'.desk.trans h.desk⟩

/-- A loop of such steps is such a step. -/
theorem foldl {α : Type} {f : Broker → α → Broker} (h : ∀ s a, Fixed s (f s a)) :
    ∀ (l : List α) (s : Broker), Fixed s (l.foldl f s)
  | [], s => refl s
  | a :: l, s => (h s a).trans (foldl h l (f s a))

end Fixed

/-! ### The port and the counters -/

theorem SendsOnly.alike {P : HubOutput → Prop} {s s' : Broker} (h : SendsOnly P s s')
    (hP : ∀ o, P o → o.isMode = false ∧ o.isFrame = false) : Alike s s' := by
  obtain ⟨_, _, o, ho, _, rfl⟩ := h
  exact ⟨rfl, fun i => ⟨⟨rfl, rfl, rfl, rfl, fun _ => rfl⟩, rfl, rfl, rfl, rfl⟩, .refl _, fun _ => rfl, rfl, rfl, rfl, o,
    rfl, fun x hx => hP x (ho x hx)⟩

theorem SendsOnly.mute {P : HubOutput → Prop} {s s' : Broker} (h : SendsOnly P s s')
    (hP : ∀ o, P o → o.isRegisterAck = false) : Mute s s' := by
  obtain ⟨_, _, o, ho, _, rfl⟩ := h
  have hnone : o.filter (·.isRegisterAck) = [] := List.filter_eq_nil_iff.mpr fun x hx => by simp [hP x (ho x hx)]
  exact ⟨by simp [sent, hnone], rfl⟩

theorem SendsOnly.chats_fixed {s s' : Broker} (h : Chats s s') : Fixed s s' := by
  refine ⟨⟨h.alike fun o ho => ?_, h.mute fun o ho => ?_⟩, h.desk fun o ho => ?_⟩
  · cases o with
    | control => exact ⟨rfl, rfl⟩
    | _ => cases ho
  · cases o with
    | control peerId m => cases m <;> first | rfl | cases ho
    | _ => cases ho
  · cases o with
    | control peerId m => cases m <;> first | exact ⟨rfl, rfl⟩ | cases ho
    | _ => cases ho

variable (s : Broker)

theorem ask_fixed : Fixed s s.ask.1 := s.ask_sends.chats_fixed

theorem emit_fixed {o : HubOutput} (h : o.isMode = false ∧ o.isFrame = false) (ha : o.isRegisterAck = false)
    (hd : o.ifconfig? = none ∧ o.configureReply? = none) : Fixed s (s.emit o) :=
  ⟨⟨(s.emit_sends (P := fun o => o.isMode = false ∧ o.isFrame = false) h).alike fun _ h => h,
    (s.emit_sends (P := (·.isRegisterAck = false)) ha).mute fun _ h => h⟩, s.emit_desk hd.1 hd.2⟩

theorem sendControl_alike (i : PeerSlot) (m : HubMessage) : Alike s (s.sendControl i m) :=
  (s.sendControl_sends i m).alike fun o ho => by
    cases o with
    | control => exact ⟨rfl, rfl⟩
    | _ => cases ho

theorem sendControl_hushed (i : PeerSlot) {m : HubMessage}
    (hm : ∀ peerId taken, (HubOutput.control peerId m taken).isRegisterAck = false) : Hushed s (s.sendControl i m) :=
  ⟨s.sendControl_alike i m, (s.sendControl_sendsOnly i m (hm _)).mute fun _ h => h⟩

theorem sendControl_fixed (i : PeerSlot) {m : HubMessage} (hm : m.isChat) : Fixed s (s.sendControl i m) :=
  (s.sendControl_chats i hm).chats_fixed

theorem sendError_fixed (peerId : UInt32) (code : ErrorCode) (detail : String) :
    Fixed s (s.sendError peerId code detail) :=
  (s.sendError_sends peerId code detail).chats_fixed

theorem sendContent_fixed (peerId : UInt32) (channel : UInt8) (type : TxnContentType) (payload : List UInt8) :
    Fixed s (s.sendFrame peerId channel (.content type payload)).1 :=
  s.ask_fixed.trans (emit_fixed _ ⟨rfl, rfl⟩ rfl ⟨rfl, rfl⟩)

theorem authorized_fixed (i : PeerSlot) : Fixed s (s.authorized i).1 :=
  (s.authorized_sends i).chats_fixed

theorem announceLease_fixed (interfaceId : UInt32) : Fixed s (s.announceLease interfaceId) :=
  ((s.announceLease_sends interfaceId).mono fun _ => isChat_of_isPace).chats_fixed

theorem relayPaceToClients_fixed (interfaceId paceRate : UInt32) :
    Fixed s (s.relayPaceToClients interfaceId paceRate) :=
  ((s.relayPaceToClients_sends interfaceId paceRate).mono fun _ => isChat_of_isPace).chats_fixed

variable {s}

/-- A change of the metrics that leaves the grants and ends of transactions and the frames dropped for leases. -/
theorem metrics_fixed {m : HubMetrics} (hcount : m.transactions.unended = s.metrics.transactions.unended)
    (h : m.transactions.leaseFrameDrops = s.metrics.transactions.leaseFrameDrops) : Fixed s { s with metrics := m } :=
  ⟨⟨⟨rfl, fun _ => .refl _, .refl _, fun _ => rfl, rfl, hcount, h, [], by simp, by simp⟩, rfl, rfl⟩, rfl⟩

theorem countFrames_fixed {f : HubMetrics → HubMetrics} (h : (f s.metrics).transactions = s.metrics.transactions) :
    Fixed s (s.countFrames f) :=
  metrics_fixed (by rw [h]) (by rw [h])

theorem countTransactions_fixed {f : TransactionCounters → TransactionCounters}
    (hcount : (f s.metrics.transactions).unended = s.metrics.transactions.unended)
    (h : (f s.metrics.transactions).leaseFrameDrops = s.metrics.transactions.leaseFrameDrops) :
    Fixed s (s.countTransactions f) :=
  metrics_fixed hcount h

theorem registry_fixed {r : InterfaceRegistry} (h : s.registry.Steady r) : Fixed s { s with registry := r } :=
  ⟨⟨⟨rfl, fun _ => .refl _, h, fun _ => rfl, rfl, rfl, rfl, [], by simp, by simp⟩, rfl, rfl⟩, rfl⟩

theorem directory_fixed {d : PeerDirectory} (h : ∀ i, (s.directory i).Alike (d i)) :
    Fixed s { s with directory := d } :=
  ⟨⟨⟨rfl, h, .refl _, fun _ => rfl, rfl, rfl, rfl, [], by simp, by simp⟩, rfl, rfl⟩,
    s.directory_desk fun i => ⟨(h i).inUse, (h i).peerId⟩⟩

theorem directory_still {d : PeerDirectory} (h : ∀ i, (s.directory i).Like (d i)) : Still s { s with directory := d } :=
  ⟨⟨rfl, h, .refl _, fun _ => rfl, rfl, rfl, [], by simp, by simp⟩, ⟨rfl, rfl⟩,
    s.directory_desk fun i => ⟨(h i).inUse, (h i).peerId⟩⟩

variable {i : PeerSlot} {f : HubPeer → HubPeer}

@[simp] theorem modifyPeer_directory_self (f : HubPeer → HubPeer) :
    (s.modifyPeer i f).directory i = f (s.directory i) :=
  Function.update_self ..

theorem modifyPeer_directory_of_ne {i j : PeerSlot} (f : HubPeer → HubPeer) (h : j ≠ i) :
    (s.modifyPeer i f).directory j = s.directory j :=
  Function.update_of_ne h ..

@[simp] theorem modifySession_directory_self (f : ClientSession → ClientSession) :
    (s.modifySession i f).directory i = { s.directory i with session := f (s.directory i).session } :=
  modifyPeer_directory_self _

theorem modifySession_directory_of_ne {i j : PeerSlot} (f : ClientSession → ClientSession) (h : j ≠ i) :
    (s.modifySession i f).directory j = s.directory j :=
  modifyPeer_directory_of_ne _ h

theorem modifyPeer_fixed (h : (s.directory i).Alike (f (s.directory i))) :
    Fixed s (s.modifyPeer i f) := by
  refine directory_fixed fun k => ?_
  by_cases hk : k = i
  · subst hk
    rw [Function.update_self]
    exact h
  · rw [Function.update_of_ne hk]
    exact .refl _

theorem modifyPeer_still (h : (s.directory i).Like (f (s.directory i))) :
    Still s (s.modifyPeer i f) := by
  refine directory_still fun k => ?_
  by_cases hk : k = i
  · subst hk
    rw [Function.update_self]
    exact h
  · rw [Function.update_of_ne hk]
    exact .refl _

/-- A change of the session under which every binding keeps its face. -/
theorem modifySession_fixed {f : ClientSession → ClientSession}
    (h : ∀ j, ((f (s.directory i).session).bindings j).face = ((s.directory i).session.bindings j).face) :
    Fixed s (s.modifySession i f) :=
  modifyPeer_fixed ⟨⟨rfl, rfl, rfl, rfl, h⟩, rfl, rfl, rfl, rfl⟩

theorem modifyTransaction_fixed {t : TransactionSlot} {f : RelayedTransaction → RelayedTransaction}
    (h : (f (s.transactions.entries t)).face = (s.transactions.entries t).face) :
    Fixed s (s.modifyTransaction t f) := by
  refine ⟨⟨⟨rfl, fun _ => .refl _, .refl _, fun u => ?_, rfl, rfl, rfl, [], by simp [modifyTransaction], by simp⟩, rfl,
    rfl⟩, rfl⟩
  by_cases hu : u = t
  · subst hu
    simpa [modifyTransaction] using h
  · simp only [modifyTransaction, TransactionTable.modify_entries_of_ne _ hu]

end Broker

/-! ### Sessions and registries -/

theorem ClientSession.modify_face {s : ClientSession} {j : BindingSlot} {f : ChannelBinding → ChannelBinding}
    (h : (f (s.bindings j)).face = (s.bindings j).face) (k : BindingSlot) :
    ((s.modify j f).bindings k).face = (s.bindings k).face := by
  by_cases hk : k = j
  · subst hk
    rw [modify_bindings_self, h]
  · rw [modify_bindings_of_ne _ hk]

namespace InterfaceRegistry

variable {r : InterfaceRegistry}

theorem modify_steady {k : EntrySlot} {f : InterfaceEntry → InterfaceEntry}
    (h : (f (r.entries k)).face = (r.entries k).face) (hfd : (f (r.entries k)).fd = (r.entries k).fd) :
    r.Steady (r.modify k f) := by
  refine ⟨⟨fun l => ?_, rfl⟩, fun l => ?_⟩ <;> by_cases hl : l = k
  · subst hl
    simpa [modify] using h
  · simp [modify, hl]
  · subst hl
    simpa [modify] using hfd
  · simp [modify, hl]

theorem setFdCapable_alike (interfaceId : UInt32) (fdCapable : Bool) :
    r.Alike (r.setFdCapable interfaceId fdCapable) := by
  refine ⟨fun k => ?_, rfl⟩
  unfold setFdCapable map
  dsimp only
  split <;> rfl

theorem countFrame_steady (interfaceId : UInt32) : r.Steady (r.countFrame interfaceId) := by
  unfold countFrame
  split
  · exact modify_steady rfl rfl
  · exact .refl r

variable (agentPeerId : UInt32)

theorem setTxDropped_steady (agentChannel : UInt8) (txDropped : UInt64) :
    r.Steady (r.setTxDropped agentPeerId agentChannel txDropped) := by
  unfold setTxDropped
  split
  · exact modify_steady rfl rfl
  · exact .refl r

theorem applyAdvertisedRate_steady (agentChannel : UInt8) (advertisedRate credit : UInt32)
    (nowUs : ℕ) : r.Steady (r.applyAdvertisedRate agentPeerId agentChannel advertisedRate credit nowUs) := by
  unfold applyAdvertisedRate
  dsimp only
  split
  · exact .refl r
  · exact modify_steady rfl rfl

theorem tryEgress_steady (agentChannel : UInt8) (bits nowUs : ℕ) :
    r.Steady (r.tryEgress agentPeerId agentChannel bits nowUs).1 := by
  unfold tryEgress
  split
  · exact .refl r
  · dsimp only
    exact modify_steady rfl rfl

end InterfaceRegistry

namespace Broker

variable (s : Broker)

/-! ### Frames -/

theorem sendFrame_still (peerId : UInt32) (channel : UInt8) (d : Datagram) :
    Still s (s.sendFrame peerId channel d).1 :=
  s.ask_fixed.still.trans
    ⟨⟨rfl, fun _ => .refl _, .refl _, fun _ => rfl, rfl, rfl, [.datagram peerId channel d s.ask.2], rfl,
      by simp [HubOutput.isMode]⟩, (s.ask.1.emit_sends (P := (·.isRegisterAck = false)) rfl).mute fun _ h => h,
      s.ask.1.emit_desk rfl rfl⟩

variable {f : ChannelBinding → ChannelBinding}

variable (i)

variable (channel : UInt8)

theorem modifyBinding_fixed
    (h : ∀ b, (f b).face = b.face) : Fixed s (s.modifyBinding i channel f) := by
  unfold modifyBinding
  split
  · split
    · exact modifySession_fixed (ClientSession.modify_face (h _))
    · exact .refl s
  · exact .refl s

theorem modifyBinding_still
    (h : ∀ b, (f b).face = b.face) : Still s (s.modifyBinding i channel f) :=
  (s.modifyBinding_fixed i channel h).still

theorem countForwarded_still : Still s (s.countForwarded i channel) := by
  have hcount : Still s (s.countFrames fun m => { m with framesForwarded := m.framesForwarded + 1 }) :=
    (countFrames_fixed rfl).still
  exact (hcount.trans (modifyPeer_still ⟨rfl, rfl, rfl, rfl, fun _ => rfl⟩)).trans
    (modifyBinding_still _ i channel fun _ => rfl)

theorem countDropped_still : Still s (s.countDropped i channel) := by
  have hcount : Still s (s.countFrames fun m => { m with framesDropped := m.framesDropped + 1 }) :=
    (countFrames_fixed rfl).still
  exact (hcount.trans (modifyPeer_still ⟨rfl, rfl, rfl, rfl, fun _ => rfl⟩)).trans
    (modifyBinding_still _ i channel fun _ => rfl)

theorem countInterfaceFrame_fixed : Fixed s (s.countInterfaceFrame i channel) := by
  unfold countInterfaceFrame
  dsimp only
  split
  · split
    · exact registry_fixed (InterfaceRegistry.countFrame_steady _)
    · exact .refl s
  · split
    · exact registry_fixed (InterfaceRegistry.countFrame_steady _)
    · exact .refl s

theorem enqueueFrame_still (f : FrameMessage) :
    Still s (s.enqueueFrame i channel f) := by
  have hpush : Still s (s.modifyPeer i fun p =>
      { p with egress := ((s.directory i).egress.push channel ⟨f, s.nowUs⟩).1 }) :=
    modifyPeer_still ⟨rfl, rfl, rfl, rfl, fun _ => rfl⟩
  unfold enqueueFrame
  dsimp only
  split
  · exact hpush.trans (countDropped_still _ _ _)
  · exact hpush

theorem tryEgress_fixed (peerId : UInt32) (channel : UInt8) (f : FrameMessage) :
    Fixed s (s.tryEgress peerId channel f).1 :=
  registry_fixed (InterfaceRegistry.tryEgress_steady _ _ _ _)

theorem issueToken_still (agent : PeerSlot) (clientPeerId : UInt32) : Still s (s.issueToken agent clientPeerId).1 := by
  unfold issueToken
  dsimp only
  exact modifyPeer_still ⟨rfl, rfl, rfl, rfl, fun _ => rfl⟩

theorem reliableRoutesFit_fixed (f : FrameMessage) (originator : UInt32) (routes : List FrameRoute) (s : Broker) :
    Fixed s (reliableRoutesFit f originator s routes).1 := by
  fun_induction reliableRoutesFit f originator s routes with
  | case1 s => exact .refl s
  | case2 s r routes _ ih => exact ih
  | case3 s r routes _ s' h => exact h ▸ s.ask_fixed
  | case4 s r routes _ s' h ih =>
    have hask := s.ask_fixed
    rw [h] at hask
    exact hask.trans ih

/-- Charging a route or a group. -/
theorem charge_fixed (charge : BridgeCharge) : Fixed s (s.chargeForwarded charge) ∧ Fixed s (s.chargeDropped charge) := by
  cases charge <;>
    exact ⟨⟨⟨⟨rfl, fun _ => .refl _, .refl _, fun _ => rfl, rfl, rfl, rfl, [], by simp [chargeForwarded],
        by simp⟩, rfl, rfl⟩, rfl⟩,
      ⟨⟨rfl, fun _ => .refl _, .refl _, fun _ => rfl, rfl, rfl, rfl, [], by simp [chargeDropped], by simp⟩, rfl, rfl⟩, rfl⟩

theorem popChannel_still : Still s (s.popChannel i channel) :=
  modifyPeer_still ⟨rfl, rfl, rfl, rfl, fun _ => rfl⟩

/-- One round of a drain: the cursor moves past a channel, the front of one is popped as too old, the pace is asked, or
the front is handed over, and popped if it is taken. -/
inductive Round (i : PeerSlot) (s : Broker) : Broker → Prop
  | looked {egress : EgressQueue} {channel : UInt8}
      (hnext : (s.directory i).egress.nextPendingChannel = some (egress, channel)) :
      Round i s (s.modifyPeer i fun p => { p with egress })
  | aged {channel : UInt8} {slot : EgressSlot} (hfront : (s.directory i).egress.frontOfChannel channel = some slot) :
      Round i s ((s.popChannel i channel).countDropped i channel)
  | paced (peerId : UInt32) (channel : UInt8) (f : FrameMessage) : Round i s (s.tryEgress peerId channel f).1
  | sent {channel : UInt8} {slot : EgressSlot} {s' : Broker} {taken : Bool}
      (hfront : (s.directory i).egress.frontOfChannel channel = some slot)
      (hs : s.sendFrame (s.directory i).peerId channel (.frame slot.frame) = (s', taken)) :
      Round i s (if taken then (s'.popChannel i channel).countForwarded i channel else s')

theorem drainChannel_rounds (frames : ℕ) (s : Broker) :
    Relation.ReflTransGen (Round i) s (drainChannel i channel s frames).1 := by
  -- Asking the pace leaves the peers.
  have hpaced : ∀ {s s₁ : Broker} {f : FrameMessage} {go : Bool},
      s.tryEgress (s.directory i).peerId channel f = (s₁, go) → Round i s s₁ ∧ s₁.directory = s.directory := by
    intro s s₁ f go h
    have hround : Round i s _ := .paced (s.directory i).peerId channel f
    rw [h] at hround
    exact ⟨hround, congrArg (fun x => x.1.directory) h.symm⟩
  fun_induction drainChannel i channel s frames with
  | case1 | case2 => exact .refl
  | case3 s frames slot hfront hold ih => exact .head (.aged hfront) ih
  | case4 s frames slot hfront hyoung s₁ hgo => exact .single (hpaced hgo).1
  | case5 s frames slot hfront hyoung s₁ hgo s₂ hs =>
    obtain ⟨hround, hdir⟩ := hpaced hgo
    exact .head hround (.single (.sent (by rw [hdir]; exact hfront) hs))
  | case6 s frames slot hfront hyoung s₁ hgo s₂ hs ih =>
    obtain ⟨hround, hdir⟩ := hpaced hgo
    exact .head hround (.head (.sent (by rw [hdir]; exact hfront) hs) ih)

/-- **A drain is such rounds.** -/
theorem drainPeer_rounds : Relation.ReflTransGen (Round i) s (s.drainPeer i) := by
  unfold drainPeer
  generalize egressQueueChannelsMax = channels
  fun_induction drainChannels i s channels with
  | case1 | case2 => exact .refl
  | case3 s channels egress channel hnext s₁ s₂ hdrain =>
    have hrounds := drainChannel_rounds i channel (egress.channels channel).length s₁
    rw [hdrain] at hrounds
    exact .head (.looked hnext) hrounds
  | case4 s channels egress channel hnext s₁ s₂ hdrain ih =>
    have hrounds := drainChannel_rounds i channel (egress.channels channel).length s₁
    rw [hdrain] at hrounds
    exact .head (.looked hnext) (hrounds.trans ih)

variable {i} in
theorem Round.still (h : Round i s s') : Still s s' := by
  cases h with
  | looked => exact modifyPeer_still ⟨rfl, rfl, rfl, rfl, fun _ => rfl⟩
  | aged => exact (s.popChannel_still i _).trans (countDropped_still _ _ _)
  | paced peerId channel f => exact (s.tryEgress_fixed peerId channel f).still
  | @sent channel slot s' taken hfront hs =>
    have hsend := s.sendFrame_still (s.directory i).peerId channel (.frame slot.frame)
    rw [hs] at hsend
    cases taken with
    | false => exact hsend
    | true => exact (hsend.trans (s'.popChannel_still i channel)).trans (countForwarded_still _ _ _)

theorem drainPeer_still : Still s (s.drainPeer i) := by
  have h := s.drainPeer_rounds i
  generalize s.drainPeer i = s' at h ⊢
  induction h with
  | refl => exact .refl s
  | tail _ hround ih => exact ih.trans hround.still

variable {i}

/-! ### Acts -/

/-- A change of the books that not every result allows in every state: a transaction ends that is granted when its
client has gone; a REGISTER is answered, or the identity store written to; a client opens a channel on an interface, or
closes one; the channels that wait for an interface come back to a client. -/
inductive Mark
  | late (t : TransactionSlot)
  | said
  | opened (i : PeerSlot) (k : EntrySlot) (request : ChannelOpenRequest)
  | closed (i : PeerSlot) (channel : UInt8)
  | reattached (k : EntrySlot) (i : PeerSlot)

/-- What the hub does with frames: it forwards one along a route, drops one for a lease, issues an echo token,
and drains what is parked for a peer. Besides frames, it learns whether an interface takes CAN FD. A mark does nothing:
it stands for a change of the books that has to be allowed. -/
inductive Act
  | forward (r : FrameRoute) (f : FrameMessage) (routeFlags : UInt8)
  | suppress
  | issue (agent : PeerSlot) (clientPeerId : UInt32)
  | drain (i : PeerSlot)
  | mark (m : Mark)
  | learn (interfaceId : UInt32) (fdCapable : Bool)

/-- The act is a mark. -/
def Act.isMark : Act → Bool
  | .mark _ => true
  | _ => false

/-- A frame on a reliable route, up to what follows when the transport does not take it. -/
def offer (s : Broker) (r : FrameRoute) (f : FrameMessage) (routeFlags : UInt8) : Broker :=
  match s.find r.peerId, s.sendFrame r.peerId r.channel (.frame { f with channel := r.channel, routeFlags }) with
  | some i, (s, true) => s.countForwarded i r.channel
  | some _, (s, false) => s
  | none, _ => (s.forwardFrame r f routeFlags).1

/-- What an act does with frames. -/
def perform (s : Broker) : Act → Broker
  | .forward r f routeFlags => if r.reliable then s.offer r f routeFlags else (s.forwardFrame r f routeFlags).1
  | .suppress => s.countTransactions fun c => { c with leaseFrameDrops := c.leaseFrameDrops + 1 }
  | .issue agent clientPeerId => (s.issueToken agent clientPeerId).1
  | .drain i => s.drainPeer i
  | .mark _ => s
  | .learn interfaceId fdCapable => { s with registry := s.registry.setFdCapable interfaceId fdCapable }

/-- A frame on a lossy route, or to a peer that is not there, is sent or parked: what both leave as it is, and the
counting of it, stays as it is. -/
theorem forwardFrame_keeps {Q : Broker → Prop} {r : FrameRoute} (hr : r.reliable = false ∨ s.find r.peerId = none)
    (f : FrameMessage) (routeFlags : UInt8) (hs : Q s)
    (hsend : ∀ s d, Q s → Q (s.sendFrame r.peerId r.channel d).1)
    (hpace : ∀ s f, Q s → Q (s.tryEgress r.peerId r.channel f).1)
    (hpark : ∀ s i f, Q s → Q (s.enqueueFrame i r.channel f)) (hcount : ∀ s i, Q s → Q (s.countForwarded i r.channel))
    (hframes : ∀ s g, (∀ m : HubMetrics, (g m).transactions = m.transactions) → Q s → Q (s.countFrames g)) :
    Q (s.forwardFrame r f routeFlags).1 := by
  unfold forwardFrame
  cases hi : s.find r.peerId with
  | none =>
    have hsent := hsend s (.frame { f with channel := r.channel, routeFlags }) hs
    dsimp only
    rcases ht : s.sendFrame r.peerId r.channel (.frame { f with channel := r.channel, routeFlags }) with ⟨s', taken⟩
    rw [ht] at hsent
    cases taken with
    | true =>
      dsimp only
      exact hframes s' _ (fun _ => rfl) hsent
    | false =>
      dsimp only
      exact hframes s' _ (fun _ => rfl) hsent
  | some i =>
    have hlossy : ¬r.reliable = true := by simpa [hi] using hr
    dsimp only
    rw [if_neg hlossy]
    split
    · exact hpark s i _ hs
    have hpaced := hpace s { f with channel := r.channel, routeFlags } hs
    rcases hgo : s.tryEgress r.peerId r.channel { f with channel := r.channel, routeFlags } with ⟨s', go⟩
    rw [hgo] at hpaced
    cases go with
    | false => exact hpark s' i _ hpaced
    | true =>
      have hsent := hsend s' (.frame { f with channel := r.channel, routeFlags }) hpaced
      dsimp only
      rcases ht : s'.sendFrame r.peerId r.channel (.frame { f with channel := r.channel, routeFlags }) with ⟨s'', taken⟩
      rw [ht] at hsent
      cases taken with
      | true => exact hcount s'' i hsent
      | false => exact hpark s'' i _ hsent

theorem forwardFrame_still {r : FrameRoute} (hr : r.reliable = false ∨ s.find r.peerId = none) (f : FrameMessage)
    (routeFlags : UInt8) : Still s (s.forwardFrame r f routeFlags).1 :=
  s.forwardFrame_keeps hr f routeFlags (.refl s) (fun s' _ h => h.trans (s'.sendFrame_still _ _ _))
    (fun s' _ h => h.trans (s'.tryEgress_fixed _ _ _).still) (fun s' _ _ h => h.trans (s'.enqueueFrame_still _ _ _))
    (fun s' _ h => h.trans (s'.countForwarded_still _ _)) fun _ _ hg h => h.trans (countFrames_fixed (hg _)).still

theorem offer_still (r : FrameRoute) (f : FrameMessage) (routeFlags : UInt8) : Still s (s.offer r f routeFlags) := by
  have hsend := s.sendFrame_still r.peerId r.channel (.frame { f with channel := r.channel, routeFlags })
  unfold offer
  rcases hs : s.sendFrame r.peerId r.channel (.frame { f with channel := r.channel, routeFlags }) with ⟨s', taken⟩
  rw [hs] at hsend
  cases hf : s.find r.peerId with
  | none => exact s.forwardFrame_still (.inr hf) f routeFlags
  | some i =>
    cases taken with
    | true => exact hsend.trans (countForwarded_still _ _ _)
    | false => exact hsend

/-- **The books do not show what happens to frames.** -/
theorem perform_still (a : Act) : Still s (s.perform a) := by
  cases a with
  | forward r f routeFlags =>
    simp only [perform]
    split
    · exact s.offer_still r f routeFlags
    · rename_i hr
      exact s.forwardFrame_still (.inl (by simpa using hr)) f routeFlags
  | suppress =>
    exact ⟨⟨rfl, fun _ => .refl _, .refl _, fun _ => rfl, rfl, rfl, [],
      by simp [perform, countTransactions], by simp⟩, ⟨rfl, rfl⟩, rfl⟩
  | issue agent clientPeerId => exact s.issueToken_still agent clientPeerId
  | drain i => exact s.drainPeer_still i
  | mark => exact .refl s
  | learn interfaceId fdCapable =>
    exact ⟨⟨rfl, fun _ => .refl _, InterfaceRegistry.setFdCapable_alike _ _, fun _ => rfl, rfl, rfl, [],
      by simp [perform], by simp⟩, ⟨rfl, rfl⟩, rfl⟩

end Broker
end CanHub
