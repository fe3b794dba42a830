/-
# What the handlers do to the hub's books

Every handler of the broker is shown to be a sequence of the changes of
`CanHub/Hub/Moves.lean`, and of registrations, which give interface ids
(`Registers`). `Passes n` is such a sequence that gives `n` ids, and `handle_passes`
says of every event that it is one, with few ids; a connection is one and then a new
peer in a free slot. On the desk nothing happens but that peers leave (`handle_deals`,
`handleControl_few`), unless the message is a CONFIGURE or the reply to one.
-/
import CanHub.Hub.Moves

namespace CanHub

open PeerDirectory Nat

/-- What a reply says of CAN FD, if it says anything. -/
def IfconfigReplyMessage.fd (m : IfconfigReplyMessage) : Bool := m.settings.ctrlmodeFlags &&& interfaceCtrlmodeFd ≠ 0

/-- The channel an OPEN message asks for, on the interface of the entry. -/
def OpenMessage.request (m : OpenMessage) (entry : InterfaceEntry) (canWrite : Bool) : ChannelOpenRequest :=
  { interfaceId := m.interfaceId, suppressEcho := m.flags &&& openFlagSuppressOwnEcho ≠ 0, canWrite
    reliable := m.flags &&& openFlagReliable ≠ 0, errorFrames := m.flags &&& openFlagErrorFrames ≠ 0
    agentName := entry.agentName, interfaceName := entry.interfaceName }

namespace Broker

variable (s : Broker) {P : Broker → Act → Prop}

/-! ### Transactions -/

theorem rejectTxnBegin_fixed (i : PeerSlot) (channel : UInt8) (status : TxnBeginStatus) :
    Fixed s (s.rejectTxnBegin i channel status) := by
  have hcount : Fixed s (s.countTransactions fun c => { c with rejected := c.rejected + 1 }) :=
    countTransactions_fixed rfl rfl
  exact hcount.trans (sendControl_fixed _ _ rfl)

theorem relayTransactionMessage_fixed (destination : Option PeerSlot) {m : HubMessage} (hm : m.isChat) :
    Fixed s (s.relayTransactionMessage destination m) :=
  (s.relayTransactionMessage_sends destination hm).chats_fixed

variable {i : PeerSlot}

theorem handleTxnBegin_deals (hi : (s.directory i).inUse) (b : TxnBeginMessage) :
    Deals P s (s.handleTxnBegin i b) := by
  unfold handleTxnBegin
  split
  · exact .refl
  rename_i hrole
  rw [not_not] at hrole
  rcases s.admitTransaction_cases i b with ⟨status, _, h | h⟩ | ⟨interfaceId, k, a, hid, hk, hv, ha, _, hw, h⟩
  · rw [h]
    exact (s.rejectTxnBegin_fixed i b.channel status).deals
  · rw [h]
    exact (s.ask_fixed.trans (rejectTxnBegin_fixed _ i b.channel status)).deals
  rw [h]
  dsimp only
  obtain ⟨_, hagent⟩ := find_some ha
  split
  · exact (s.ask_fixed.trans (rejectTxnBegin_fixed _ i b.channel .busy)).deals
  · rename_i ht
    refine (s.ask_fixed.deals.trans (.move (.requested ⟨?_, ?_, ?_⟩ ht) rfl)).trans
      (relayTransactionMessage_fixed _ _ rfl).deals
    · exact ⟨i, hi, hrole, rfl, hid, hw⟩
    · exact ⟨k, hk, hagent.symm, rfl, hv⟩
    · rw [hagent]
      exact Option.isSome_of_eq_some ha

/-- The ack grants a transaction whose client has gone. -/
@[mk_iff]
structure GrantsLate (i : PeerSlot) (ack : TxnBeginAckMessage) (t : TransactionSlot) : Prop where
  role : (s.directory i).role = .agent
  forAgent : s.transactions.forAgent (s.directory i).peerId = some t
  pending : (s.transactions.entries t).state = .pending
  ok : ack.status = TxnBeginStatus.ok.code
  client : s.find (s.transactions.entries t).clientPeerId = none

theorem handleTxnBeginAck_deals (i : PeerSlot) (ack : TxnBeginAckMessage)
    (hP : ∀ t, s.GrantsLate i ack t → P s (.mark (.late t))) : Deals P s (s.handleTxnBeginAck i ack) := by
  unfold handleTxnBeginAck
  split
  · exact .refl
  rename_i hrole
  cases ht : s.transactions.forAgent (s.directory i).peerId with
  | none => exact .refl
  | some t =>
    dsimp only
    split
    · exact .refl
    rename_i hpending
    rw [not_not] at hpending
    split
    · -- The agent refuses.
      have hcounts : Counts s t fun c => { c with rejected := c.rejected + 1 } := by
        intro c
        rw [if_neg (by simp [hpending])]
        exact UInt64.add_zero _
      have hclose : Deals P s (s.ended t fun c => { c with rejected := c.rejected + 1 }) :=
        .move (.ended (fun _ => rfl) (.inl hcounts)) rfl
      cases s.find (s.transactions.entries t).clientPeerId with
      | none => exact hclose
      | some client => exact hclose.trans (sendControl_fixed _ _ rfl).deals
    rename_i hok
    cases hc : s.find (s.transactions.entries t).clientPeerId with
    | none =>
      have hlate : P s (.mark (.late t)) := hP t ⟨not_not.mp hrole, ht, hpending, not_not.mp hok, hc⟩
      have hclose : Deals P s (s.ended t fun c => { c with aborted := c.aborted + 1 }) :=
        .move (.ended (fun _ => rfl) (.inr hlate)) rfl
      have hsent : Chats (s.countTransactions fun c => { c with aborted := c.aborted + 1 }) _ :=
        sendControl_chats _ i (m := .txnAbort ⟨(s.transactions.entries t).agentChannel, ack.txnId⟩) rfl
      exact hclose.trans (hsent.transactions (·.close t)).chats_fixed.deals
    | some client =>
      have hgrant : Deals P s _ := .move (.granted ack.txnId hpending (Option.isSome_of_eq_some hc)) rfl
      dsimp only
      split
      · exact (hgrant.trans (announceLease_fixed _ _).deals).trans (sendControl_fixed _ _ rfl).deals
      · exact hgrant.trans (sendControl_fixed _ _ rfl).deals

theorem relayTransactionContent_deals (i : PeerSlot) (type : TxnContentType) (payload : List UInt8) :
    Deals P s (s.relayTransactionContent i type payload).1 := by
  unfold relayTransactionContent
  split
  · exact .refl
  cases s.transactions.forClientChannel (s.directory i).peerId (Wire.byteAt payload 0) with
  | none => exact .refl
  | some t =>
    dsimp only
    split
    · exact .refl
    rename_i hactive
    rw [not_not] at hactive
    cases s.find (s.transactions.entries t).agentPeerId with
    | none => exact .refl
    | some agent =>
      dsimp only
      split
      · exact s.refuseTransaction_deals hactive agent .unsupported
      have hask := s.ask_fixed
      rcases h : s.ask with ⟨s', taken⟩
      rw [h] at hask
      cases taken with
      | false => exact hask.deals
      | true =>
        refine (hask.trans (.trans ?_ (sendContent_fixed _ _ _ _ _))).deals
        split
        · exact modifyTransaction_fixed rfl
        · exact .refl s'

theorem activeTransactionOfAgent_some {txnId : UInt16} {t : TransactionSlot}
    (h : s.activeTransactionOfAgent i txnId = some t) : (s.transactions.entries t).state = .active := by
  unfold activeTransactionOfAgent at h
  split at h
  · cases h
  split at h
  · cases h
  · split at h
    · rename_i ha
      cases h
      exact ha.1
    · cases h

variable (i)

theorem handleTxnProgress_fixed (m : TxnProgressMessage) : Fixed s (s.handleTxnProgress i m) := by
  unfold handleTxnProgress
  split
  · exact .refl s
  · dsimp only
    refine .trans ?_ (relayTransactionMessage_fixed _ _ rfl)
    exact modifyTransaction_fixed rfl

theorem handleTxnStatus_deals (m : TxnStatusMessage) : Deals P s (s.handleTxnStatus i m) := by
  unfold handleTxnStatus
  cases h : s.activeTransactionOfAgent i m.txnId with
  | none => exact .refl
  | some t =>
    -- Counted as done or as aborted, and its steps with it.
    have hcounts : Counts s t fun c =>
        { (if m.state = TxnState.done.code then { c with completed := c.completed + 1 }
            else { c with aborted := c.aborted + 1 } : TransactionCounters) with
          stepsCompleted := (if m.state = TxnState.done.code then { c with completed := c.completed + 1 }
            else { c with aborted := c.aborted + 1 } : TransactionCounters).stepsCompleted + m.completedSteps.toUInt64 } := by
      intro c
      rw [if_pos (s.activeTransactionOfAgent_some h)]
      unfold TransactionCounters.unended
      split
      · grind
      · exact TransactionCounters.unended_aborted c
    refine (Deals.move (.ended ?_ (.inl hcounts)) rfl).trans (Fixed.deals ?_)
    · intro c
      split <;> rfl
    refine SendsOnly.chats_fixed (.trans ?_ (finishTransaction_sends _ t))
    exact (relayTransactionMessage_sends _ _ rfl).transactions (·.close t)

theorem handleTxnAbort_deals (m : TxnAbortMessage) : Deals P s (s.handleTxnAbort i m) := by
  unfold handleTxnAbort
  split
  · exact .refl
  cases h : s.transactions.forClientChannel (s.directory i).peerId m.channel with
  | none => exact .refl
  | some t =>
    dsimp only
    split
    · exact .moves (s.abandonTransaction_moves (TransactionTable.forClientChannel_some h).1)
        (s.abandonTransaction_shuffles (TransactionTable.forClientChannel_some h).1).desk
    · exact (s.relayTransactionMessage_fixed _ rfl).deals

theorem handleTxnRosterReport_fixed (m : TxnRosterReportMessage) :
    Fixed s (s.handleTxnRosterReport i m) := by
  unfold handleTxnRosterReport
  split
  · exact .refl s
  · exact s.relayTransactionMessage_fixed _ rfl

/-! ### Peers and their names -/

theorem questioned_alike (n : ℕ) (writes : List IdentityWrite) : Alike s (s.questioned n writes) :=
  ⟨rfl, fun _ => .refl _, .refl _, fun _ => rfl, rfl, rfl, rfl, [], by simp [questioned], by simp⟩

theorem questioned_fixed (n : ℕ) : Fixed s (s.questioned n) := ⟨⟨s.questioned_alike n _, rfl, rfl⟩, rfl⟩

theorem knownTo_fixed (hasPort : Bool) (fingerprintHex : Text) : Fixed s (s.knownTo hasPort fingerprintHex).1 := by
  obtain ⟨n, hn⟩ := s.knownTo_questioned hasPort fingerprintHex
  rw [hn]
  exact s.questioned_fixed n

theorem vouchFor_fixed (i : PeerSlot) : Fixed s (s.vouchFor i) :=
  (s.knownTo_fixed _ _).trans (modifyPeer_fixed ⟨⟨rfl, rfl, rfl, rfl, fun _ => rfl⟩, rfl, rfl, rfl, rfl⟩)

/-- What is asked of the identity store, and written to it. -/
theorem questioned_deals (hP : P s (.mark .said)) (n : ℕ) (writes : List IdentityWrite) :
    Deals P s (s.questioned n writes) :=
  .move (.said (s.questioned_alike n writes) hP) rfl

/-- The answer to a REGISTER. -/
theorem answer_deals (hP : P s (.mark .said)) (i : PeerSlot) (ack : RegisterAckMessage) :
    Deals P s (s.sendControl i (.registerAck ack)) := by
  refine .move (.said (s.sendControl_alike i _) hP) (SendsOnly.desk (P := fun o => ∃ peerId taken,
    o = .control peerId (.registerAck ack) taken) ?_ ?_)
  · exact s.sendControl_sendsOnly i _ fun taken => ⟨_, taken, rfl⟩
  · rintro _ ⟨_, _, rfl⟩
    exact ⟨rfl, rfl⟩

/-- A change of the identities turned away. -/
theorem rejectedPeers_fixed (rejectedPeers : RejectedPeers) : Fixed s { s with rejectedPeers } :=
  ⟨⟨⟨rfl, fun _ => .refl _, .refl _, fun _ => rfl, rfl, rfl, rfl, [], by simp, by simp⟩, rfl, rfl⟩, rfl⟩

theorem rejectClient_deals : Deals P s (s.rejectClient i) := by
  have hrecord : Fixed s (s.recordRejection i (s.directory i).agentName .notAllowed) := s.rejectedPeers_fixed _
  exact (hrecord.trans (sendError_fixed _ _ _ _)).deals.trans (disconnectPeer_deals _ _)

/-- Adopting a role changes the role. -/
theorem adoptRole_some {p q : HubPeer} {wireRole : PeerRole} (h : p.adoptRole wireRole = some q) :
    ∃ role, q = { p with role } := by
  unfold HubPeer.adoptRole at h
  cases wireRole with
  | admin =>
    dsimp only at h
    split at h
    · cases h
      exact ⟨_, rfl⟩
    · cases h
  | agent =>
    cases h
    exact ⟨_, rfl⟩
  | client =>
    cases h
    exact ⟨_, rfl⟩

/-- The rest of `handleHello` for a client. -/
private theorem welcomeClient_deals (name : Text) : Deals P s (
    let s := if name ≠ [] then s.modifyPeer i fun p => { p with agentName := name } else s
    let (s, vouched) := s.clientIsNamedByAcl i
    let s := s.modifyPeer i fun p => { p with vouched }
    if !s.clientIsAdmitted i then s.rejectClient i else s.forgetRejection i) := by
  have hname : Fixed s (if name ≠ [] then s.modifyPeer i fun p => { p with agentName := name } else s) := by
    split
    · exact modifyPeer_fixed ⟨⟨rfl, rfl, rfl, rfl, fun _ => rfl⟩, rfl, rfl, rfl, rfl⟩
    · exact .refl s
  dsimp only
  generalize (if name ≠ [] then s.modifyPeer i fun p => { p with agentName := name } else s) = s₁ at hname ⊢
  have hacl : Fixed s (s₁.clientIsNamedByAcl i).1 := hname.trans (s₁.knownTo_fixed _ _)
  generalize s₁.clientIsNamedByAcl i = named at hacl ⊢
  have hvouch : Fixed s (named.1.modifyPeer i fun p => { p with vouched := named.2 }) :=
    hacl.trans (modifyPeer_fixed ⟨⟨rfl, rfl, rfl, rfl, fun _ => rfl⟩, rfl, rfl, rfl, rfl⟩)
  split
  · exact hvouch.deals.trans (rejectClient_deals _ i)
  · exact (hvouch.trans (rejectedPeers_fixed _ _)).deals

theorem handleHello_deals (m : Option HelloMessage) : Deals P s (s.handleHello i m) := by
  unfold handleHello
  split
  · exact .refl
  rename_i hrole
  rw [not_not] at hrole
  cases m with
  | none => exact s.turnAway_deals i _ _
  | some hello =>
    dsimp only
    cases hadopt : (s.directory i).adoptRole hello.role with
    | none => exact s.turnAway_deals i _ _
    | some peer =>
      obtain ⟨role, rfl⟩ := adoptRole_some hadopt
      dsimp only
      have hadopted : Deals P s (s.modifyPeer i fun _ => { s.directory i with role, capabilities := hello.capabilities }) := by
        have hmove : Deals P s (s.modifyPeer i fun p => { p with role }) :=
          .move (.adopted role hrole) (s.modifyPeer_desk ⟨rfl, rfl⟩)
        have hknown : Fixed (s.modifyPeer i fun p => { p with role })
            ((s.modifyPeer i fun p => { p with role }).modifyPeer i fun p => { p with capabilities := hello.capabilities }) :=
          modifyPeer_fixed ⟨⟨rfl, rfl, rfl, rfl, fun _ => rfl⟩, rfl, rfl, rfl, rfl⟩
        have htwice : (s.modifyPeer i fun p => { p with role }).modifyPeer i
            (fun p => { p with capabilities := hello.capabilities }) =
              s.modifyPeer i fun _ => { s.directory i with role, capabilities := hello.capabilities } := by
          simp [modifyPeer]
        exact htwice ▸ hmove.trans hknown.deals
      generalize (s.modifyPeer i fun _ => { s.directory i with role, capabilities := hello.capabilities }) = s₁
        at hadopted ⊢
      split
      · exact hadopted
      · exact hadopted.trans (s₁.welcomeClient_deals i hello.name)

variable {i}

/-! ### Registrations -/

/-- No two peers have one id. -/
def DistinctPeers (s : Broker) : Prop :=
  ∀ i j, (s.directory i).inUse → (s.directory j).inUse → (s.directory i).peerId = (s.directory j).peerId → i = j

/-- Interfaces get ids, as many as the number says. The agent that registers is there, if the peers' ids were
distinct when the event began. -/
inductive Registers (distinct : Prop) : ℕ → Broker → Broker → Prop
  | agent {s i m n} (hi : distinct → (s.directory i).inUse ∧ (s.directory i).role = .agent)
      (hname : m.agentName ≠ bridgeGroupAgentName) (hn : n ≤ interfaceRegistryMax)
      (h : (s.registerAgent i m).1.registry.nextInterfaceId = s.registry.nextInterfaceId + UInt32.ofNat n) :
      Registers distinct n s (s.registerAgent i m).1
  | group {s name registry k} (h : s.registry.addVirtual bridgeGroupAgentName name = some (registry, k)) :
      Registers distinct 1 s { s with registry }

/-- What an event does to the books, a new connection apart. -/
inductive Passes (P : Broker → Act → Prop) (distinct : Prop) : ℕ → Broker → Broker → Prop
  | goes {s s'} (h : Goes P s s') : Passes P distinct 0 s s'
  | register {n m s s₁ s₂ s'} (h : Passes P distinct n s s₁) (hr : Registers distinct m s₁ s₂) (hg : Goes P s₂ s') :
      Passes P distinct (n + m) s s'

variable {s} {s' s'' : Broker} {P : Broker → Act → Prop} {distinct : Prop} {n : ℕ}

theorem Passes.trans_goes (h : Passes P distinct n s s') (hg : Goes P s' s'') : Passes P distinct n s s'' := by
  cases h with
  | goes h => exact .goes (h.trans hg)
  | register h hr hg' => exact .register h hr (hg'.trans hg)

theorem Passes.after_goes (hg : Goes P s s') (h : Passes P distinct n s' s'') : Passes P distinct n s s'' := by
  induction h with
  | goes h => exact .goes (hg.trans h)
  | register _ hr hg' ih => exact .register (ih hg) hr hg'

theorem Passes.weaken (h : Passes P distinct n s s') : Passes P False n s s' := by
  induction h with
  | goes h => exact .goes h
  | register _ hr hg ih =>
    refine .register ih ?_ hg
    cases hr with
    | agent _ hname hn hnext => exact .agent False.elim hname hn hnext
    | group hadd => exact .group hadd

/-- What every change of the books and every registration keeps, an event keeps. -/
theorem Passes.invariant {I : Broker → Prop} (hmove : ∀ {s s'}, I s → Move P s s' → I s')
    (hleave : ∀ {s s'}, I s → Leave s s' → I s') (hregister : ∀ {s : Broker} (registry), I s → I { s with registry })
    (h : Passes P distinct n s s') (hs : I s) : I s' := by
  induction h with
  | goes h => exact h.invariant hmove hleave hs
  | register _ hr hg ih =>
    refine hg.invariant hmove hleave ?_
    cases hr with
    | agent => exact hregister _ (ih hs)
    | group => exact hregister _ (ih hs)

theorem Passes.mute (h : Passes P distinct n s s') (hP : ∀ s, ¬ P s (.mark .said)) : Mute s s' :=
  h.invariant (I := Mute s) (fun hs hm => hs.trans (hm.mute (hP _))) (fun hs hl => hs.trans hl.mute)
    (fun _ hs => ⟨hs.acks, hs.writes⟩) (.refl s)

/-- What an event does to the books and the desk, a new connection and the desk's own messages apart. -/
structure Runs (P : Broker → Act → Prop) (distinct : Prop) (n : ℕ) (s s' : Broker) : Prop where
  passes : Passes P distinct n s s'
  desk : s.desk.Empties s'.desk

theorem Deals.runs (h : Deals P s s') : Runs P distinct 0 s s' := ⟨.goes h.goes, h.desk⟩

theorem Runs.trans_deals (h : Runs P distinct n s s') (hg : Deals P s' s'') : Runs P distinct n s s'' :=
  ⟨h.passes.trans_goes hg.goes, h.desk.trans hg.desk⟩

theorem Runs.after_deals (hg : Deals P s s') (h : Runs P distinct n s' s'') : Runs P distinct n s s'' :=
  ⟨h.passes.after_goes hg.goes, hg.desk.trans h.desk⟩

theorem Registers.desk (h : Registers distinct n s s') : s'.desk = s.desk := by
  cases h with
  | agent => rfl
  | group => rfl

theorem Runs.register {m : ℕ} (h : Runs P distinct n s s') (hr : Registers distinct m s' s'') :
    Runs P distinct (n + m) s s'' :=
  ⟨.register h.passes hr .refl, hr.desk ▸ h.desk⟩

/-- Where nobody comes and nobody changes their id, ids stay distinct. -/
theorem DistinctPeers.of_back (h : DistinctPeers s) (hback : ∀ i, (s'.directory i).inUse →
    (s.directory i).inUse ∧ (s'.directory i).peerId = (s.directory i).peerId) : DistinctPeers s' := by
  intro i j hi hj hid
  obtain ⟨hi', hidi⟩ := hback i hi
  obtain ⟨hj', hidj⟩ := hback j hj
  exact h i j hi' hj' (hidi.symm.trans (hid.trans hidj))

theorem DistinctPeers.connected (h : DistinctPeers s) {p : HubPeer}
    (hnew : ∀ j, (s.directory j).inUse → (s.directory j).peerId ≠ p.peerId) : DistinctPeers (s.modifyPeer i fun _ => p) := by
  refine Table.unrelated_of_ne (p := HubPeer.inUse) (R := fun a b => a.peerId = b.peerId) (fun _ _ => Eq.symm)
    (fun j => modifyPeer_directory_of_ne _) h fun _ j _ hj => ?_
  rw [modifyPeer_directory_self]
  exact hnew j hj

theorem SamePeers.distinctPeers (h : SamePeers s s') (hs : DistinctPeers s) : DistinctPeers s' :=
  hs.of_back fun i hi => ⟨(h.inUse i).symm.trans hi, h.peerId i⟩

/-- An agent that is there, among peers with distinct ids. -/
structure Stays (i : PeerSlot) (s : Broker) : Prop where
  distinct : DistinctPeers s
  inUse : (s.directory i).inUse
  role : (s.directory i).role = .agent

theorem Stays.questioned (h : Stays i s) (n : ℕ) (writes : List IdentityWrite) : Stays i (s.questioned n writes) :=
  ⟨h.distinct, h.inUse, h.role⟩

/-- The peers that stay when one is disconnected. -/
theorem disconnectPeer_stays {peerId : UInt32} (h : Stays i s) (hne : (s.directory i).peerId ≠ peerId) :
    Stays i (s.disconnectPeer peerId) ∧ ((s.disconnectPeer peerId).directory i).vouched = (s.directory i).vouched
      ∧ ((s.disconnectPeer peerId).directory i).peerId = (s.directory i).peerId := by
  unfold disconnectPeer
  cases hf : s.find peerId with
  | none => exact ⟨h, rfl, rfl⟩
  | some j =>
    dsimp only
    obtain ⟨s₁, hsame, _, heq⟩ := s.releasePeer_eq j
    rw [heq]
    rw [(find_some hf).2]
    have hkeep : (s₁.releaseSlot peerId).directory i = s₁.directory i := by
      rcases s₁.releaseSlot_directory peerId i with ⟨hfind, _⟩ | ⟨_, h⟩
      · refine absurd ?_ hne
        rw [← hsame.peerId]
        exact (find_some hfind).2
      · exact h
    have hdistinct : DistinctPeers (s₁.releaseSlot peerId) := by
      intro k l hk hl hid
      rcases s₁.releaseSlot_directory peerId k with ⟨_, hk'⟩ | ⟨_, hk'⟩
      · rw [hk'] at hk
        cases hk
      rcases s₁.releaseSlot_directory peerId l with ⟨_, hl'⟩ | ⟨_, hl'⟩
      · rw [hl'] at hl
        cases hl
      rw [hk'] at hk hid
      rw [hl'] at hl hid
      exact hsame.distinctPeers h.distinct k l hk hl hid
    refine ⟨⟨hdistinct, ?_, ?_⟩, ?_, ?_⟩
    · exact (congrArg HubPeer.inUse hkeep).trans ((hsame.inUse i).trans h.inUse)
    · exact (congrArg HubPeer.role hkeep).trans ((hsame.role i).trans h.role)
    · exact (congrArg HubPeer.vouched hkeep).trans (hsame.vouched i)
    · exact (congrArg HubPeer.peerId hkeep).trans (hsame.peerId i)

variable (s)

theorem displaceGhostPeer_deals (i : PeerSlot) (m : RegisterMessage) : Deals P s (s.displaceGhostPeer i m).1 := by
  unfold displaceGhostPeer
  split
  · exact .refl
  split
  · exact .refl
  split
  · exact .refl
  split
  · exact .refl
  · exact s.disconnectPeer_deals _

variable {s}

theorem displaceGhostPeer_stays (h : Stays i s) (m : RegisterMessage) :
    Stays i (s.displaceGhostPeer i m).1 := by
  unfold displaceGhostPeer
  split
  · exact h
  split
  · exact h
  rename_i hne
  split
  · exact h
  split
  · exact h
  · exact (disconnectPeer_stays h (Ne.symm hne)).1

theorem displaceAgentsFor_deals (interfaceCount peers : ℕ) (s : Broker) :
    Deals P s (s.displaceAgentsFor interfaceCount peers).1 := by
  induction peers generalizing s with
  | zero => exact .refl
  | succ peers ih =>
    rw [displaceAgentsFor_succ]
    split
    · exact .refl
    cases s.directory.findDisplaceableAgent with
    | none => exact .refl
    | some j => exact (s.turnAway_deals j _ _).trans (ih _)

/-- A vouched agent is not the one displaced. -/
theorem displaceAgentsFor_stays (interfaceCount peers : ℕ) (s : Broker) (h : Stays i s)
    (hv : (s.directory i).vouched) : Stays i (s.displaceAgentsFor interfaceCount peers).1 := by
  induction peers generalizing s with
  | zero => exact h
  | succ peers ih =>
    rw [displaceAgentsFor_succ]
    split
    · exact h
    cases hd : s.directory.findDisplaceableAgent with
    | none => exact h
    | some j =>
      have hcand := findDisplaceableAgent_spec.1 j hd
      have hij : i ≠ j := by
        rintro rfl
        simp [HubPeer.displacement, hv] at hcand
      have hsent := s.sendError_sends (s.directory j).peerId .hubFull "displaced by an enrolled agent"
      have hsame := hsent.samePeers
      have hne : ((s.sendError (s.directory j).peerId .hubFull "displaced by an enrolled agent").directory i).peerId
          ≠ (s.directory j).peerId := by
        rw [hsame.peerId]
        exact fun hid => hij (h.distinct i j h.inUse hcand.1 hid)
      have hstays : Stays i (s.sendError (s.directory j).peerId .hubFull "displaced by an enrolled agent") :=
        ⟨hsame.distinctPeers h.distinct, (hsame.inUse i).trans h.inUse, (hsame.role i).trans h.role⟩
      obtain ⟨hafter, hvouched, _⟩ := disconnectPeer_stays hstays hne
      refine ih _ hafter ?_
      exact (hvouched.trans (hsame.vouched i)).trans hv

variable {m : RegisterMessage}

/-- A registration tried again, in the room that was made for it. -/
theorem retryRegister_runs (hname : m.agentName ≠ bridgeGroupAgentName)
    {attempt : Broker × RegisterAckMessage × Bool} {makeRoom : Broker → Broker × Bool}
    (h : Runs P distinct n s attempt.1) (hstays : distinct → Stays i attempt.1)
    (hroom : ∀ s, Deals P s (makeRoom s).1) (hroomStays : ∀ s, Stays i s → Stays i (makeRoom s).1) :
    ∃ n' ≤ n + interfaceRegistryMax, Runs P distinct n' s (retryRegister i m attempt makeRoom).1
      ∧ (distinct → Stays i (retryRegister i m attempt makeRoom).1) := by
  obtain ⟨s₁, ack, registered⟩ := attempt
  unfold retryRegister
  dsimp only at h hstays ⊢
  split
  · exact ⟨n, le_add_right _ _, h, hstays⟩
  have hgo := hroom s₁
  have hstays' := fun hd => hroomStays s₁ (hstays hd)
  rcases hr : makeRoom s₁ with ⟨s₂, made⟩
  rw [hr] at hgo hstays'
  cases made with
  | false => exact ⟨n, le_add_right _ _, h.trans_deals hgo, hstays'⟩
  | true =>
    obtain ⟨k, hk, hnext⟩ := s₂.registry.registerAgent_next (s₂.directory i).peerId m
    refine ⟨n + k, Nat.add_le_add_left hk n, ?_, fun hd => ?_⟩
    · exact (h.trans_deals hgo).register
        (.agent (fun hd => ⟨(hstays' hd).inUse, (hstays' hd).role⟩) hname hk hnext)
    · exact ⟨(hstays' hd).distinct, (hstays' hd).inUse, (hstays' hd).role⟩

variable (s)

/-- What follows an answer that rejects the agent. -/
theorem rejectAgent_deals (i : PeerSlot) (agentName : Text) (status : RegisterStatus) :
    Deals P (s.sendControl i (.registerAck ⟨status, []⟩)) (s.rejectAgent i agentName status) := by
  unfold rejectAgent
  generalize s.sendControl i (.registerAck ⟨status, []⟩) = s₁
  split
  · exact (s₁.rejectedPeers_fixed _).deals.trans (turnAway_deals _ _ _ _)
  · exact (s₁.rejectedPeers_fixed _).deals.trans (turnAway_deals _ _ _ _)
  · exact s₁.turnAway_deals i _ _

/-- If the attempt succeeds, the interfaces of the agent have the names of the message. -/
def Named (i : PeerSlot) (m : RegisterMessage) (attempt : Broker × RegisterAckMessage × Bool) : Prop :=
  attempt.2.2 → ∀ k, (attempt.1.registry.entries k).inUse →
    (attempt.1.registry.entries k).agentPeerId = (attempt.1.directory i).peerId →
    (attempt.1.registry.entries k).agentName = m.agentName
      ∧ (attempt.1.registry.entries k).interfaceName ∈ m.interfaceNames

/-- What follows the acknowledgement of a registration: the clients that waited for the agent come back. -/
theorem acknowledge_deals (i : PeerSlot) (m : RegisterMessage) (ack : RegisterAckMessage) (registered : Bool)
    (h : registered → ∀ s' k, Goes P (s.sendControl i (.registerAck ack)) s' → s.registry.Alike s'.registry →
      (s.registry.entries k).inUse → (s.registry.entries k).agentPeerId = (s.directory i).peerId → ComesBack P s' k) :
    Deals P (s.sendControl i (.registerAck ack)) (s.acknowledge i m ack registered) := by
  unfold acknowledge
  have hsent := s.sendControl_alike i (.registerAck ack)
  generalize s.sendControl i (.registerAck ack) = s₁ at h hsent ⊢
  split
  · exact disconnectPeer_deals _ _
  · rename_i hregistered
    have hname : Fixed s₁ (s₁.modifyPeer i fun p => { p with agentName := m.agentName }) :=
      modifyPeer_fixed ⟨⟨rfl, rfl, rfl, rfl, fun _ => rfl⟩, rfl, rfl, rfl, rfl⟩
    have hnamed : Fixed s₁ ((s₁.modifyPeer i fun p => { p with agentName := m.agentName }).forgetRejection i) :=
      hname.trans (rejectedPeers_fixed _ _)
    have halike := hsent.trans hnamed.toAlike
    have hid := (hname.peers i).peerId.trans (hsent.peers i).peerId
    refine hnamed.deals.trans (reattachClientsToAgent_deals _ fun s' k hs' hreg hk hagent => ?_)
    obtain ⟨huse, _, hpeer, _⟩ := InterfaceEntry.of_face (halike.registry.entries k)
    refine h (by simpa using hregistered) s' k (hnamed.goes.trans hs'.goes) ?_ (huse ▸ hk) ?_
    · rw [hreg]
      exact halike.registry.toAlike
    · exact hpeer.symm.trans (hagent.trans hid)

theorem attempts_runs (hname : m.agentName ≠ bridgeGroupAgentName)
    (hstays : distinct → Stays i s) :
    ∃ n ≤ 3 * interfaceRegistryMax, Runs P distinct n s (s.attempts i m).1 := by
  obtain ⟨k, hk, hnext⟩ := s.registry.registerAgent_next (s.directory i).peerId m
  have hfirst : Runs P distinct (0 + k) s (s.registerAgent i m).1 :=
    Deals.refl.runs.register (.agent (fun hd => ⟨(hstays hd).inUse, (hstays hd).role⟩) hname hk hnext)
  have hstays₁ : distinct → Stays i (s.registerAgent i m).1 := fun hd =>
    ⟨(hstays hd).distinct, (hstays hd).inUse, (hstays hd).role⟩
  obtain ⟨n₂, hn₂, hsecond, hstays₂⟩ := retryRegister_runs hname hfirst hstays₁
    (fun s => s.displaceGhostPeer_deals i m) (fun s h => displaceGhostPeer_stays h m)
  have hroom : ∀ s : Broker, Deals P s (if (s.directory i).vouched then
      s.makeRoomForInterfaces m.interfaceNames.length else (s, false)).1 := fun s => by
    unfold makeRoomForInterfaces
    split
    · split
      · exact .refl
      · exact displaceAgentsFor_deals _ _ s
    · exact .refl
  have hroomStays : ∀ s : Broker, Stays i s → Stays i (if (s.directory i).vouched then
      s.makeRoomForInterfaces m.interfaceNames.length else (s, false)).1 := fun s h => by
    unfold makeRoomForInterfaces
    split
    · rename_i hv
      split
      · exact h
      · exact displaceAgentsFor_stays _ _ s h hv
    · exact h
  obtain ⟨n₃, hn₃, hthird, -⟩ := retryRegister_runs hname hsecond hstays₂ hroom hroomStays
  refine ⟨n₃, ?_, hthird⟩
  simp only [interfaceRegistryMax] at hk hn₂ hn₃ ⊢
  omega

/-- What registers has the names of the message. -/
private theorem attempts_named : Named i m (s.attempts i m) := by
  have hone : ∀ s : Broker, Named i m (s.registerAgent i m) := fun s h k hk hagent =>
    InterfaceRegistry.registerAgent_named h hk hagent
  have hretry : ∀ attempt room, Named i m attempt → Named i m (retryRegister i m attempt room) := by
    intro attempt room hnamed
    obtain ⟨s₁, ack, registered⟩ := attempt
    unfold retryRegister
    dsimp only
    split
    · rename_i hregistered
      subst hregistered
      exact hnamed
    rcases room s₁ with ⟨s₂, made⟩
    cases made with
    | false => exact nofun
    | true => exact hone s₂
  exact hretry _ _ (hretry _ _ (hone s))

/-- The reply says whether the interface takes CAN FD: it answers a request, and its settings have the mode. -/
structure Learns (i : PeerSlot) (m : IfconfigReplyMessage) (k : Fin brokerPendingIfconfigMax) : Prop where
  role : (s.directory i).role = .agent
  pending : (s.pendingIfconfig.find? fun p =>
    p.inUse && p.agentPeerId == (s.directory i).peerId && p.requestId == m.requestId) = some k
  field : m.settings.fields &&& interfaceFieldCtrlmode ≠ 0
  mode : m.settings.ctrlmodeMask &&& interfaceCtrlmodeFd ≠ 0

/-- The channels that wait for a group may come back. -/
def GroupComesBack (s : Broker) (P : Broker → Act → Prop) : Prop :=
  ∀ n s' k, Passes P False n s s' → (s'.registry.entries k).inUse → (s'.registry.entries k).isVirtual → ComesBack P s' k

/-- The message may grant a transaction late, have something said of a registration, tell what an interface takes, open
or close a channel, or bring an interface channels wait for. -/
def PermitsControl (P : Broker → Act → Prop) (s : Broker) (i : PeerSlot) : ControlMessage → Prop
  | .openInterface m => ∀ s₁ s₂ k canWrite, s.clientCanRead i = (s₁, true) → s₁.clientCanWrite i = (s₂, canWrite) →
    s.registry.findById m.interfaceId = some k → P s₂ (.mark (.opened i k (m.request (s.registry.entries k) canWrite)))
  | .close channel => P s (.mark (.closed i channel))
  | .txnBeginAck ack => ∀ t, s.GrantsLate i ack t → P s (.mark (.late t))
  | .adminForget _ => P s (.mark .said)
  | .adminPinAdd _ _ => P s (.mark .said)
  | .register m => ∀ rm ∈ m, (∀ s', P s' (.mark .said)) ∧ ∀ n s' k, Passes P False n s s' → (s'.registry.entries k).inUse →
    (s'.registry.entries k).agentName = rm.agentName → (s'.registry.entries k).interfaceName ∈ rm.interfaceNames →
    ComesBack P s' k
  | .adminGroupSet _ _ => s.GroupComesBack P
  | .ifconfigReply m => ∀ k, s.Learns i m k →
    P (s.clearPendingIfconfig k) (.learn (s.pendingIfconfig k).interfaceId m.fd)
  | _ => True

/-- What a REGISTER comes to, once the identity store has been asked. -/
inductive RegisterTo (s : Broker) (i : PeerSlot) : Option RegisterMessage → Broker → Prop
  | ignored {m : Option _} (hrole : (s.directory i).role ≠ .agent) : RegisterTo s i m s
  | turnedAway {m : Option _} (hrole : (s.directory i).role = .agent) (hname : ∀ rm ∈ m, rm.agentName = bridgeGroupAgentName)
      (code : ErrorCode) (detail : String) : RegisterTo s i m (s.turnAway i code detail)
  | rejected {m : RegisterMessage} {n : ℕ} {writes status} (hrole : (s.directory i).role = .agent)
      (hname : m.agentName ≠ bridgeGroupAgentName)
      (hid : s.agentIdentityStatus i m = (s.questioned n writes, status)) (hne : status ≠ .ok) :
      RegisterTo s i (some m) ((s.questioned n writes).rejectAgent i m.agentName status)
  | tried {m : RegisterMessage} {n : ℕ} {writes s₁} (hrole : (s.directory i).role = .agent)
      (hname : m.agentName ≠ bridgeGroupAgentName)
      (hid : s.agentIdentityStatus i m = (s.questioned n writes, .ok)) (hs : s₁ = (s.questioned n writes).vouchFor i) :
      RegisterTo s i (some m) ((s₁.attempts i m).1.acknowledge i m (s₁.attempts i m).2.1 (s₁.attempts i m).2.2)

theorem handleRegister_to (m : Option RegisterMessage) : RegisterTo s i m (s.handleRegister i m) := by
  unfold handleRegister
  split
  · rename_i hrole
    exact .ignored hrole
  rename_i hrole
  rw [not_not] at hrole
  cases m with
  | none => exact .turnedAway hrole (by simp) _ _
  | some m =>
    dsimp only
    split
    · rename_i hname
      exact .turnedAway hrole (fun rm hrm => Option.some.inj hrm ▸ hname) _ _
    rename_i hname
    obtain ⟨n, writes, hn⟩ := s.agentIdentityStatus_questioned i m
    rcases hid : s.agentIdentityStatus i m with ⟨s₁, status⟩
    obtain rfl : s₁ = s.questioned n writes := (congrArg Prod.fst hid).symm.trans hn
    cases status with
    | ok => exact .tried hrole hname hid rfl
    | _ => exact .rejected hrole hname hid nofun

theorem handleRegister_runs (hi : (s.directory i).inUse) (m : Option RegisterMessage)
    (hd : distinct → DistinctPeers s) (hP : PermitsControl P s i (.register m)) :
    ∃ n ≤ 3 * interfaceRegistryMax, Runs P distinct n s (s.handleRegister i m) := by
  have hto := s.handleRegister_to (i := i) m
  generalize s.handleRegister i m = s' at hto ⊢
  cases hto with
  | ignored => exact ⟨0, zero_le _, Deals.refl.runs⟩
  | turnedAway => exact ⟨0, zero_le _, (s.turnAway_deals i _ _).runs⟩
  | @rejected m n writes =>
    obtain ⟨hsaid, -⟩ := hP m rfl
    have hasked : Deals P s (s.questioned n writes) := s.questioned_deals (hsaid s) n writes
    exact ⟨0, zero_le _, ((hasked.trans (answer_deals _ (hsaid _) i _)).trans (rejectAgent_deals _ _ _ _)).runs⟩
  | @tried m n writes s₃ hrole hname _ hs =>
    obtain ⟨hsaid, hback⟩ := hP m rfl
    have hfixed := (s.questioned n writes).vouchFor_fixed i
    have hvouch := (s.questioned_alike n writes).trans hfixed.toAlike
    have hvouched := (s.questioned_deals (hsaid s) n writes).trans hfixed.deals
    rw [← hs] at hvouch hvouched
    have hstays : distinct → Stays i s₃ := fun hdist =>
      { distinct := fun j k hj hk he => hd hdist j k ((hvouch.peers j).inUse ▸ hj) ((hvouch.peers k).inUse ▸ hk)
          ((hvouch.peers j).peerId ▸ (hvouch.peers k).peerId ▸ he)
        inUse := (hvouch.peers i).inUse.trans hi
        role := (hvouch.peers i).role.trans hrole }
    obtain ⟨n, hn, hpass⟩ := s₃.attempts_runs hname hstays
    have hruns := (Runs.after_deals hvouched hpass).trans_deals (answer_deals _ (hsaid _) i (s₃.attempts i m).2.1)
    refine ⟨n, hn, hruns.trans_deals (acknowledge_deals _ i m _ _ fun hregistered s' k hs' hreg hk hagent => ?_)⟩
    obtain ⟨hagentName, hinterfaceName⟩ := s₃.attempts_named hregistered k hk hagent
    obtain ⟨huse, _, _, _, hname₁, hname₂⟩ := InterfaceEntry.of_face (hreg.entries k)
    exact hback n s' k (hruns.passes.weaken.trans_goes hs') (huse.trans hk) (hname₁.trans hagentName)
      (hname₂ ▸ hinterfaceName)

/-! ### Channels -/

/-- `openChannel`, with the request and the change it makes by name. -/
theorem openChannel_eq (m : OpenMessage) (entry : InterfaceEntry) (canWrite : Bool) :
    s.openChannel i m entry canWrite =
      match (s.directory i).session.openInterface (m.request entry canWrite) with
      | (session, none) => (s.modifySession i fun _ => session).sendOpenAck i m .rejected 0
      | (session, some channel) =>
        let s := (s.opened i entry session (m.flags &&& openFlagReliable ≠ 0)).sendOpenAck i m .ok channel
        if s.leasedToAnother entry.interfaceId (s.directory i).peerId then s.announceLease entry.interfaceId else s := by
  unfold openChannel OpenMessage.request
  dsimp only
  rcases (s.directory i).session.openInterface _ with ⟨session, _ | channel⟩ <;> rfl

variable {s} in
theorem openChannel_deals {k : EntrySlot} {m : OpenMessage} (hi : (s.directory i).inUse)
    (hrole : (s.directory i).role = .client) (hk : (s.registry.entries k).inUse)
    (hid : m.interfaceId = (s.registry.entries k).interfaceId)
    (hreliable : m.flags &&& openFlagReliable ≠ 0 → (s.find (s.registry.entries k).agentPeerId).isSome)
    (canWrite : Bool) (hP : P s (.mark (.opened i k (m.request (s.registry.entries k) canWrite)))) :
    Deals P s (s.openChannel i m (s.registry.entries k) canWrite) := by
  rw [openChannel_eq]
  have hcases := (s.directory i).session.openInterface_cases (m.request (s.registry.entries k) canWrite)
  rcases h : (s.directory i).session.openInterface (m.request (s.registry.entries k) canWrite) with ⟨session, opened⟩
  rw [h] at hcases
  cases opened with
  | none =>
    have hsame : Fixed s (s.modifySession i fun _ => session) := by
      refine modifySession_fixed fun j => ?_
      rcases hcases with ⟨_, hb⟩ | ⟨j, c, hc, _⟩
      · exact congrArg (fun b => (b j).face) hb
      · cases hc
    exact (hsame.trans (sendControl_fixed _ _ rfl)).deals
  | some channel =>
    have hmove : Move P s _ := Move.opened hi hrole hk hid rfl rfl (fun hr => hreliable (of_decide_eq_true hr)) h hP
    refine (Deals.move hmove (s.opened_shuffles _ _ _ _ ).desk).trans ?_
    have hack : ∀ s₁ : Broker, Fixed s₁ (s₁.sendOpenAck i m .ok channel) := fun s₁ => s₁.sendControl_fixed i rfl
    dsimp only
    split
    · exact ((hack _).trans (announceLease_fixed _ _)).deals
    · exact (hack _).deals

/-- What the authorization port is asked changes nothing but the port. -/
theorem authorized_questioned (i : PeerSlot) : ∃ n, (s.authorized i).1 = s.questioned n := by
  unfold authorized
  split
  · exact ⟨s.port.asked, rfl⟩
  split
  · exact ⟨s.port.asked, rfl⟩
  · exact ⟨s.port.asked + 1, rfl⟩

theorem reliableEndpointsSupport_find {entry : InterfaceEntry}
    (h : s.reliableEndpointsSupport i entry) : (s.find entry.agentPeerId).isSome := by
  unfold reliableEndpointsSupport at h
  split at h
  · cases h
  · cases hf : s.find entry.agentPeerId with
    | none =>
      rw [hf] at h
      cases h
    | some _ => rfl

/-- What an OPEN leads to: nothing if the peer is no client, a refusal, or a channel. -/
inductive OpenTo (s : Broker) (i : PeerSlot) (m : OpenMessage) : Broker → Prop
  | ignored : OpenTo s i m s
  | refused (n : ℕ) {status : OpenStatus} (h : status ≠ .ok) : OpenTo s i m ((s.questioned n).sendOpenAck i m status 0)
  | denied (n : ℕ) {status : OpenStatus} (h : status ≠ .ok) (code : ErrorCode) (detail : String) :
      OpenTo s i m (((s.questioned n).sendOpenAck i m status 0).sendError (s.directory i).peerId code detail)
  | channel {s₁ : Broker} {n : ℕ} {k : EntrySlot} {canWrite : Bool} (hrole : (s.directory i).role = .client)
      (hk : s.registry.findById m.interfaceId = some k) (hread : s.clientCanRead i = (s₁, true))
      (hwrite : s₁.clientCanWrite i = (s.questioned n, canWrite))
      (hreliable : m.flags &&& openFlagReliable ≠ 0 → (s.find (s.registry.entries k).agentPeerId).isSome) :
      OpenTo s i m ((s.questioned n).openChannel i m (s.registry.entries k) canWrite)

theorem handleOpen_to (m : OpenMessage) : OpenTo s i m (s.handleOpen i m) := by
  unfold handleOpen
  split
  · exact .ignored
  rename_i hrole
  cases hk : s.registry.findById m.interfaceId with
  | none => exact .refused s.port.asked (by decide)
  | some k =>
    obtain ⟨n, hread⟩ := s.authorized_questioned i
    rcases hr : s.clientCanRead i with ⟨s₁, canRead⟩
    obtain rfl : s₁ = s.questioned n := (congrArg Prod.fst hr).symm.trans hread
    cases canRead with
    | false => exact .denied n (by decide) _ _
    | true =>
      dsimp only
      obtain ⟨n', hwrite⟩ := (s.questioned n).authorized_questioned i
      rcases hw : (s.questioned n).clientCanWrite i with ⟨s₂, canWrite⟩
      obtain rfl : s₂ = s.questioned n' := (congrArg Prod.fst hw).symm.trans hwrite
      split
      · exact .denied n' (by decide) _ _
      split
      · exact .refused n' (by decide)
      rename_i hsupport
      refine .channel (not_not.mp hrole) hk hr hw fun hrel => ?_
      refine (s.questioned n').reliableEndpointsSupport_find (i := i) ?_
      by_contra hno
      exact hsupport ⟨hrel, by simpa using hno⟩

theorem handleOpen_deals (hi : (s.directory i).inUse) (m : OpenMessage) (hP : PermitsControl P s i (.openInterface m)) :
    Deals P s (s.handleOpen i m) := by
  have hto := s.handleOpen_to (i := i) m
  generalize s.handleOpen i m = s' at hto
  cases hto with
  | ignored => exact .refl
  | refused n => exact ((s.questioned_fixed n).trans (sendControl_fixed _ _ rfl)).deals
  | denied n =>
    exact (((s.questioned_fixed n).trans (sendControl_fixed _ _ rfl)).trans (sendError_fixed _ _ _ _)).deals
  | @channel s₁ n k canWrite hrole hk hread hwrite hreliable =>
    obtain ⟨huse, hid⟩ := InterfaceRegistry.findById_some hk
    have hopen : Deals P (s.questioned n) ((s.questioned n).openChannel i m (s.registry.entries k) canWrite) :=
      openChannel_deals (s := s.questioned n) hi hrole huse hid.symm hreliable canWrite
        (hP s₁ _ k canWrite hread hwrite hk)
    exact .trans (s.questioned_fixed n).deals hopen

variable (i)

theorem handleClose_deals (channel : UInt8) (hP : P s (.mark (.closed i channel))) :
    Deals P s (s.handleClose i channel) := by
  unfold handleClose
  split
  · exact .refl
  · rename_i hrole
    exact .move (.closed channel (not_not.mp hrole) hP) (s.closeClientChannel_shuffles _ _).desk

theorem handleSubscribe_fixed (m : Option SubscribeMessage) : Fixed s (s.handleSubscribe i m) := by
  unfold handleSubscribe
  split
  · exact .refl s
  split
  · exact s.sendError_fixed _ _ _
  · split
    · exact s.sendError_fixed _ _ _
    · rename_i session hset
      obtain ⟨j, _, rfl⟩ := Option.map_eq_some_iff.mp hset
      exact modifySession_fixed (ClientSession.modify_face rfl)

/-! ### Interfaces -/

theorem handleInterfaceStatus_fixed (entries : List InterfaceStatusEntry) :
    Fixed s (s.handleInterfaceStatus i entries) := by
  unfold handleInterfaceStatus
  split
  · exact .refl s
  refine Fixed.foldl (fun s e => ?_) _ s
  unfold handleInterfaceStatusEntry
  dsimp only
  have hrate : Fixed s { s with registry := (s.registry.setTxDropped (s.directory i).peerId e.channel
      e.txDropped).applyAdvertisedRate (s.directory i).peerId e.channel e.advertisedRate e.credit s.nowUs } :=
    registry_fixed ((InterfaceRegistry.setTxDropped_steady _ _ _).trans
      (InterfaceRegistry.applyAdvertisedRate_steady _ _ _ _ _))
  split
  · exact hrate
  · exact hrate.trans (relayPaceToClients_fixed _ _ _)

theorem peerCanConfigure_fixed : Fixed s (s.peerCanConfigure i).1 := by
  unfold peerCanConfigure
  split
  · exact .refl s
  · exact s.authorized_fixed i

/-- A change of the requests pending. -/
theorem pendingIfconfig_hushed (pendingIfconfig : Table brokerPendingIfconfigMax PendingIfconfig)
    (nextIfconfigRequestId : UInt32) : Hushed s { s with pendingIfconfig, nextIfconfigRequestId } :=
  ⟨⟨rfl, fun _ => .refl _, .refl _, fun _ => rfl, rfl, rfl, rfl, [], by simp, by simp⟩, rfl, rfl⟩

theorem handleConfigure_hushed (m : ConfigureMessage) : Hushed s (s.handleConfigure i m) := by
  unfold handleConfigure
  split
  · exact .refl s
  split
  · exact s.sendControl_hushed _ fun _ _ => rfl
  dsimp only
  split
  · exact s.sendControl_hushed _ fun _ _ => rfl
  have hmay := (s.peerCanConfigure_fixed i).toHushed
  rcases h : s.peerCanConfigure i with ⟨s₁, may⟩
  rw [h] at hmay
  cases may with
  | false => exact hmay.trans (s₁.sendControl_hushed _ fun _ _ => rfl)
  | true =>
    dsimp only
    split
    · exact hmay.trans (s₁.sendControl_hushed _ fun _ _ => rfl)
    split
    · exact hmay.trans (s₁.sendControl_hushed _ fun _ _ => rfl)
    split
    · exact hmay.trans (s₁.sendControl_hushed _ fun _ _ => rfl)
    · rename_i hpending
      obtain ⟨k, _, heq⟩ := Option.map_eq_some_iff.mp hpending
      cases heq
      exact (hmay.trans (s₁.pendingIfconfig_hushed _ _)).trans (sendControl_hushed _ _ fun _ _ => rfl)

variable {i}

theorem handleIfconfigReply_moves (i : PeerSlot) (m : IfconfigReplyMessage)
    (hP : ∀ k, s.Learns i m k →
      P (s.clearPendingIfconfig k) (.learn (s.pendingIfconfig k).interfaceId m.fd)) :
    Moves P s (s.handleIfconfigReply i m) := by
  unfold handleIfconfigReply
  split
  · exact .refl
  rename_i hrole
  split
  · exact .refl
  · rename_i k hk
    dsimp only
    have hlearn : Moves P s
        ((s.clearPendingIfconfig k).learnFdFromSettings (s.pendingIfconfig k).interfaceId m.settings) := by
      refine (s.clearPendingIfconfig_hushed k).moves.trans ?_
      unfold learnFdFromSettings
      split
      · exact .refl
      · rename_i hsays
        push Not at hsays
        exact .single (.acted (hP k ⟨not_not.mp hrole, hk, hsays.1, hsays.2⟩))
    split
    · exact hlearn
    · exact hlearn.tail (.alike (sendControl_hushed _ _ fun _ _ => rfl))

/-! ### Administration -/

theorem write_deals (hP : P s (.mark .said)) (w : Bool → IdentityWrite) : Deals P s (s.write w).1 :=
  s.questioned_deals hP _ (s.port.writes ++ [w (s.port.answer s.port.asked)])

theorem handleStoreRequest_deals (i : PeerSlot) (hasStore : Bool) (refused : AdminStatus)
    (request : Broker → Broker × Bool) (h : Deals P s (request s).1) :
    Deals P s (s.handleStoreRequest i hasStore request refused) := by
  unfold handleStoreRequest
  split
  · exact .refl
  · cases hasStore with
    | true => exact h.trans (sendControl_fixed _ _ rfl).deals
    | false => exact (s.sendControl_fixed _ rfl).deals

theorem kick_deals (i : PeerSlot) (victim : Option UInt32) (unknown : AdminStatus) : Deals P s (s.kick i victim unknown) := by
  unfold kick
  split
  · exact (s.sendControl_fixed _ rfl).deals
  · exact ((s.sendControl_fixed _ rfl).trans (sendError_fixed _ _ _ _)).deals.trans (disconnectPeer_deals _ _)

/-- A change of the bridges and groups. -/
theorem bridging_fixed (bridges : BridgeRoutes) (groups : BridgeGroups) : Fixed s { s with bridges, groups } :=
  ⟨⟨⟨rfl, fun _ => .refl _, .refl _, fun _ => rfl, rfl, rfl, rfl, [], by simp, by simp⟩, rfl, rfl⟩, rfl⟩

theorem store_fixed : Fixed s s.store.1 := by
  unfold store
  split
  · exact s.ask_fixed
  · exact .refl s

variable (name : Text)

theorem openGroupInterface_runs (hP : s.GroupComesBack P) : ∃ n ≤ 1, Runs P distinct n s (s.openGroupInterface name) := by
  unfold openGroupInterface
  split
  · exact ⟨0, zero_le _, Deals.refl.runs⟩
  split
  · exact ⟨0, zero_le _, Deals.refl.runs⟩
  · rename_i registry k h
    have hreattach := reattachInterface_moves (P := P) { s with registry } (k := k) fun s' hs' hreg => ?_
    · exact ⟨0 + 1, le_refl _, (Deals.refl.runs.register (.group h)).trans_deals (.moves hreattach.1 hreattach.2.desk)⟩
    have hentry : registry.entries k = (s.registry.entries k).virtual s.registry.nextInterfaceId bridgeGroupAgentName
        name := by
      obtain ⟨_, _, rfl⟩ := InterfaceRegistry.addVirtual_some h
      exact Function.update_self ..
    refine hP (0 + 1) s' k (.register (.goes .refl) (.group h) hs'.goes) ?_ ?_
    · rw [hreg, hentry]
      rfl
    · rw [hreg, hentry]
      rfl

theorem closeGroupInterface_deals : Deals P s (s.closeGroupInterface name) := by
  unfold closeGroupInterface
  cases h : s.registry.findByName bridgeGroupAgentName name with
  | none => exact .refl
  | some k =>
    obtain ⟨huse, hname, _⟩ := InterfaceRegistry.findByName_some h
    have hdesk := (s.detachInterface_shuffles (s.registry.entries k).interfaceId).desk
    exact .move (.groupClosed huse hname) hdesk

/-- A change that a store allows, and that the books do not record. -/
private theorem storedChange_fixed {change : Broker → Broker × AdminBridgeStatus}
    (h : ∀ s, Fixed s (change s).1) (i : PeerSlot) : Fixed s (s.handleBridgeRequest i change) := by
  unfold handleBridgeRequest
  split
  · exact .refl s
  · exact (h s).trans (sendControl_fixed _ _ rfl)

theorem stored_fixed {change : Broker → Broker} {failed done : AdminBridgeStatus} (h : ∀ s, Fixed s (change s)) :
    Fixed s (match s.store with
      | (s, false) => (s, failed)
      | (s, true) => (change s, done)).1 := by
  have hstore := s.store_fixed
  rcases hs : s.store with ⟨s₁, stored⟩
  rw [hs] at hstore
  cases stored with
  | false => exact hstore
  | true => exact hstore.trans (h s₁)

theorem applyBridgeRoute_fixed (r : BridgeRoute) : Fixed s (s.applyBridgeRoute r).1 := by
  unfold applyBridgeRoute
  split
  · exact .refl s
  split
  · exact .refl s
  exact s.stored_fixed fun s => s.bridging_fixed _ s.groups

theorem removeBridgeRoute_fixed (source destination : BridgeEndpoint) :
    Fixed s (s.removeBridgeRoute source destination).1 := by
  unfold removeBridgeRoute
  split
  · exact .refl s
  exact s.stored_fixed fun s => s.bridging_fixed _ s.groups

theorem joinGroup_fixed (m : BridgeGroupMember) : Fixed s (s.joinGroup name m).1 := by
  unfold joinGroup
  split
  · exact .refl s
  dsimp only
  split
  · exact .refl s
  split
  · exact .refl s
  exact s.stored_fixed fun s => s.bridging_fixed s.bridges _

theorem leaveGroup_fixed (endpoint : BridgeEndpoint) : Fixed s (s.leaveGroup name endpoint).1 := by
  unfold leaveGroup
  split
  · exact .refl s
  split
  · exact .refl s
  exact s.stored_fixed fun s => s.bridging_fixed s.bridges _

theorem removeGroup_deals : Deals P s (s.removeGroup name).1 := by
  unfold removeGroup
  split
  · exact .refl
  have hstore := s.store_fixed
  rcases h : s.store with ⟨s₁, stored⟩
  rw [h] at hstore
  cases stored with
  | false => exact hstore.deals
  | true =>
    exact (hstore.deals.trans (s₁.closeGroupInterface_deals name)).trans
      (bridging_fixed _ (s₁.closeGroupInterface name).bridges _).deals

theorem applyGroup_runs (filters : List CanFilter) (hP : s.GroupComesBack P) :
    ∃ n ≤ 1, Runs P distinct n s (s.applyGroup name filters).1 := by
  unfold applyGroup
  split
  · exact ⟨0, zero_le _, Deals.refl.runs⟩
  split
  · exact ⟨0, zero_le _, Deals.refl.runs⟩
  split
  · exact ⟨0, zero_le _, Deals.refl.runs⟩
  have hstore := s.store_fixed
  rcases h : s.store with ⟨s₁, stored⟩
  rw [h] at hstore
  cases stored with
  | false => exact ⟨0, zero_le _, hstore.deals.runs⟩
  | true =>
    have hset : Fixed s (s₁.setGroup name filters) := hstore.trans (s₁.bridging_fixed s₁.bridges _)
    obtain ⟨n, hn, hopen⟩ := (s₁.setGroup name filters).openGroupInterface_runs (P := P) name
      fun n s' k hs' => hP n s' k (hs'.after_goes hset.deals.goes)
    exact ⟨n, hn, hopen.after_deals hset.deals⟩

/-! ### Events -/

/-- Peers leave, where the condition holds, and few interfaces get ids. -/
def Few (P : Broker → Act → Prop) (distinct c : Prop) (s s' : Broker) : Prop :=
  ∃ n ≤ 3 * interfaceRegistryMax, Passes P distinct n s s' ∧ (c → s.desk.Empties s'.desk)

variable {s} {c : Prop} in
theorem Deals.few (h : Deals P s s') : Few P distinct c s s' := ⟨0, zero_le _, .goes h.goes, fun _ => h.desk⟩

variable {s} {c : Prop} in
theorem Runs.few (h : ∃ n ≤ 3 * interfaceRegistryMax, Runs P distinct n s s') : Few P distinct c s s' := by
  obtain ⟨n, hn, h⟩ := h
  exact ⟨n, hn, h.passes, fun _ => h.desk⟩

theorem handleBridgeRequest_runs (i : PeerSlot) (change : Broker → Broker × AdminBridgeStatus)
    (h : ∃ n ≤ 1, Runs P distinct n s (change s).1) :
    ∃ n ≤ 3 * interfaceRegistryMax, Runs P distinct n s (s.handleBridgeRequest i change) := by
  unfold handleBridgeRequest
  split
  · exact ⟨0, zero_le _, Deals.refl.runs⟩
  · obtain ⟨n, hn, hruns⟩ := h
    exact ⟨n, hn.trans (by decide), hruns.trans_deals (sendControl_fixed _ _ rfl).deals⟩

/-- The message has something said of a registration. -/
def ControlMessage.says : ControlMessage → Bool
  | .register (some _) => true
  | .adminForget _ => true
  | .adminPinAdd _ _ => true
  | _ => false

/-- A message may do what it does where channels may be opened, closed and attached again, if this holds for what it
says, grants and learns. -/
theorem permitsControl_of {m : ControlMessage} (hopened : ∀ s i k request, P s (.mark (.opened i k request)))
    (hclosed : ∀ s i channel, P s (.mark (.closed i channel))) (hback : ∀ s k i, P s (.mark (.reattached k i)))
    (hlate : ∀ ack, m = .txnBeginAck ack → ∀ t, s.GrantsLate i ack t → P s (.mark (.late t)))
    (hsaid : ControlMessage.says m → ∀ s, P s (.mark .said))
    (hlearn : ∀ r, m = .ifconfigReply r → ∀ k, s.Learns i r k →
      P (s.clearPendingIfconfig k) (.learn (s.pendingIfconfig k).interfaceId r.fd)) : PermitsControl P s i m := by
  cases m with
  | txnBeginAck ack => exact hlate ack rfl
  | ifconfigReply r => exact hlearn r rfl
  | openInterface => exact fun _ _ _ _ _ _ _ => hopened _ _ _ _
  | close => exact hclosed _ _ _
  | adminForget => exact hsaid rfl _
  | adminPinAdd => exact hsaid rfl _
  | adminGroupSet => exact fun _ _ _ _ _ _ _ _ _ => hback _ _ _
  | register m =>
    rintro rm rfl
    exact ⟨hsaid rfl, fun _ _ _ _ _ _ _ _ _ _ => hback _ _ _⟩
  | _ => trivial

/-- CONFIGURE, and an agent's reply to it. -/
def ControlMessage.isConfiguring : ControlMessage → Bool
  | .configure _ => true
  | .ifconfigReply _ => true
  | _ => false

/-- **What a control message does to the books**, and to the desk if it is none of the desk's. -/
theorem handleControl_few (hi : (s.directory i).inUse) (hd : distinct → DistinctPeers s)
    (m : ControlMessage) (hP : PermitsControl P s i m) :
    Few P distinct (ControlMessage.isConfiguring m = false) s (s.handleControl i m) := by
  cases m with
  | hello m => exact Deals.few (s.handleHello_deals i m)
  | register m => exact Runs.few (s.handleRegister_runs hi m hd hP)
  | list => exact Deals.few (s.sendControl_fixed _ rfl).deals
  | openInterface m => exact Deals.few (s.handleOpen_deals hi m hP)
  | close channel => exact Deals.few (s.handleClose_deals i channel hP)
  | subscribe m => exact Deals.few (s.handleSubscribe_fixed i m).deals
  | ping isReply =>
    cases isReply with
    | true => exact Deals.few .refl
    | false => exact Deals.few (s.sendControl_fixed _ rfl).deals
  | configure m => exact ⟨0, zero_le _, .goes (s.handleConfigure_hushed i m).goes, nofun⟩
  | ifconfigReply m => exact ⟨0, zero_le _, .goes (s.handleIfconfigReply_moves i m hP).goes, nofun⟩
  | interfaceStatus entries => exact Deals.few (s.handleInterfaceStatus_fixed i entries).deals
  | adminQuery query =>
    refine Deals.few ?_
    simp only [handleControl, handleAdminQuery]
    split
    · exact .refl
    · exact (s.sendControl_fixed _ rfl).deals
  | adminKick agentName =>
    refine Deals.few ?_
    simp only [handleControl, handleAdminKick]
    split
    · exact .refl
    · exact s.kick_deals _ _ _
  | adminKickPeer peerId =>
    refine Deals.few ?_
    simp only [handleControl, handleAdminKickPeer]
    split
    · exact .refl
    · exact s.kick_deals _ _ _
  | adminForget agentName =>
    exact Deals.few (s.handleStoreRequest_deals _ _ _ (·.write (.forget agentName)) (s.write_deals hP _))
  | adminPinAdd agentName fingerprintHex =>
    exact Deals.few (s.handleStoreRequest_deals _ _ _ (·.write (.enroll agentName fingerprintHex)) (s.write_deals hP _))
  | adminAclSet => exact Deals.few (s.handleStoreRequest_deals _ _ _ ask s.ask_fixed.deals)
  | adminAclRevoke => exact Deals.few (s.handleStoreRequest_deals _ _ _ ask s.ask_fixed.deals)
  | adminBridgeSet r => exact Deals.few (s.storedChange_fixed (fun s => s.applyBridgeRoute_fixed r) i).deals
  | adminBridgeDelete source destination =>
    exact Deals.few (s.storedChange_fixed (fun s => s.removeBridgeRoute_fixed source destination) i).deals
  | adminGroupSet name filters =>
    exact Runs.few (s.handleBridgeRequest_runs i (·.applyGroup name filters) (s.applyGroup_runs name filters hP))
  | adminGroupDelete name =>
    exact Runs.few (s.handleBridgeRequest_runs i (·.removeGroup name) ⟨0, zero_le _, (s.removeGroup_deals name).runs⟩)
  | adminGroupJoin name m => exact Deals.few (s.storedChange_fixed (fun s => s.joinGroup_fixed name m) i).deals
  | adminGroupLeave name endpoint =>
    exact Deals.few (s.storedChange_fixed (fun s => s.leaveGroup_fixed name endpoint) i).deals
  | txnBegin m => exact Deals.few (s.handleTxnBegin_deals hi m)
  | txnBeginAck m => exact Deals.few (s.handleTxnBeginAck_deals i m hP)
  | txnContent type payload => exact Deals.few (s.relayTransactionContent_deals i type payload)
  | txnProgress m => exact Deals.few (s.handleTxnProgress_fixed i m).deals
  | txnStatus m => exact Deals.few (s.handleTxnStatus_deals i m)
  | txnAbort m => exact Deals.few (s.handleTxnAbort_deals i m)
  | txnRosterReport m => exact Deals.few (s.handleTxnRosterReport_fixed i m).deals

theorem nowUs_fixed (nowUs : ℕ) : Fixed s { s with nowUs } :=
  ⟨⟨⟨rfl, fun _ => .refl _, .refl _, fun _ => rfl, rfl, rfl, rfl, [], by simp, by simp⟩, rfl, rfl⟩, rfl⟩

variable (peerId : UInt32) {e : HubEvent}

theorem dropIfSendFailed_deals : Deals P s (s.dropIfSendFailed peerId) := by
  unfold dropIfSendFailed
  split
  · split
    · exact s.disconnectPeer_deals peerId
    · exact .refl
  · exact .refl

theorem tickPeer_deals (h : ∀ s', Goes P s s' → P s' (.drain i)) : Deals P s (tickPeer s i) := by
  unfold tickPeer
  split
  · exact .refl
  have hhello : Deals P s (if (s.directory i).role = .unknown then s.tickHelloDeadline i else s) := by
    split
    · unfold tickHelloDeadline
      split
      · exact (modifyPeer_fixed ⟨⟨rfl, rfl, rfl, rfl, fun _ => rfl⟩, rfl, rfl, rfl, rfl⟩).deals
      split
      · exact s.turnAway_deals i _ _
      · exact .refl
    · exact .refl
  dsimp only
  generalize (if (s.directory i).role = .unknown then s.tickHelloDeadline i else s) = s₁ at hhello ⊢
  split
  · exact hhello.trans (.act (h s₁ hhello.goes))
  · exact hhello

theorem tick_deals {nowUs : ℕ} (h : ∀ s', Goes P s s' → ∀ i, P s' (.drain i)) : Deals P s (s.tick nowUs) := by
  have hnow := (s.nowUs_fixed nowUs).deals (P := P)
  have hloop : ∀ (l : List PeerSlot) s', Goes P s s' → Deals P s' (l.foldl tickPeer s') := by
    intro l
    induction l with
    | nil => exact fun _ _ => .refl
    | cons i l ih =>
      intro s' hs'
      have hone := s'.tickPeer_deals fun s'' hs'' => h s'' (hs'.trans hs'') i
      exact hone.trans (ih _ (hs'.trans hone.goes))
  rw [tick]
  generalize List.finRange peerDirectoryMax = l
  exact hnow.trans (hloop l _ hnow.goes)

/-- The event is no connection. -/
def HubEvent.isLater : HubEvent → Bool
  | .connected .. => false
  | _ => true

/-- The event is a control message. -/
def HubEvent.isControl : HubEvent → Bool
  | .control .. => true
  | _ => false

/-- The event may do what it does. -/
def Permits (P : Broker → Act → Prop) (s : Broker) : HubEvent → Prop
  | .control peerId m nowUs => ∀ i, s.find peerId = some i → PermitsControl P { s with nowUs } i m
  | .frame peerId (.frames frames) =>
    ∀ i, s.find peerId = some i → ∀ s', Goes P s s' → ∀ f ∈ frames, RoutesFrame P s' i f
  | .writable peerId => ∀ i, s.find peerId = some i → P s (.drain i)
  | .tick _ => ∀ s', Goes P s s' → ∀ i, P s' (.drain i)
  | _ => True

/-- Where everything is allowed with frames, so is every event but for what its control message does. -/
theorem permits_of_frames (h : ∀ s a, a.isMark = false → P s a)
    (hc : ∀ peerId m nowUs, e = .control peerId m nowUs → ∀ i, s.find peerId = some i →
      PermitsControl P { s with nowUs } i m) : Permits P s e := by
  cases e with
  | control peerId m nowUs => exact hc peerId m nowUs rfl
  | frame peerId d =>
    cases d with
    | frames frames => exact fun i _ s' _ f _ => s'.routesFrame_of_all h i f
    | content => trivial
  | writable => exact fun _ _ => h _ _ rfl
  | tick => exact fun s' _ i => h s' _ rfl
  | _ => trivial

theorem permits_of_all (h : ∀ s a, P s a) (e : HubEvent) : Permits P s e := by
  refine permits_of_frames s (fun s a _ => h s a) fun peerId m nowUs _ i _ => ?_
  exact permitsControl_of _ (fun _ _ _ _ => h _ _) (fun _ _ _ => h _ _) (fun _ _ _ => h _ _) (fun _ _ _ _ => h _ _)
    (fun _ _ => h _ _) fun _ _ _ _ => h _ _

/-- **What an event does to the books**, but for connections and control messages. -/
theorem handle_deals (he : HubEvent.isLater e) (hc : HubEvent.isControl e = false)
    (hP : Permits P s e) : Deals P s (s.handle e) := by
  cases e with
  | connected => cases he
  | disconnected peerId =>
    simp only [handle, onPeerDisconnected]
    cases h : s.find peerId with
    | none => exact .refl
    | some i => exact s.releasePeer_deals (find_some h).1
  | control => cases hc
  | frame peerId d =>
    simp only [handle, onPeerFrame]
    cases h : s.find peerId with
    | none => exact .refl
    | some i =>
      dsimp only
      split
      · exact .refl
      cases d with
      | content type payload => exact s.relayTransactionContent_deals _ type payload
      | frames frames => exact routeFrames_deals _ frames s (hP i h)
  | writable peerId =>
    simp only [handle, onPeerWritable]
    cases h : s.find peerId with
    | none => exact .refl
    | some i => exact .act (hP i h)
  | tick nowUs => exact s.tick_deals hP

/-- **What an event does to the books**, if it is no connection. -/
theorem handle_passes (hd : distinct → DistinctPeers s) (he : HubEvent.isLater e)
    (hP : Permits P s e) :
    ∃ n ≤ 3 * interfaceRegistryMax, Passes P distinct n s (s.handle e) := by
  by_cases hc : HubEvent.isControl e
  swap
  · exact ⟨0, zero_le _, .goes (s.handle_deals he (by simpa using hc) hP).goes⟩
  cases e with
  | control peerId m nowUs =>
    have hnow := s.nowUs_fixed nowUs
    simp only [handle, onPeerControl]
    cases h : { s with nowUs }.find peerId with
    | none => exact ⟨0, zero_le _, .goes hnow.deals.goes⟩
    | some i =>
      obtain ⟨n, hn, hpass, -⟩ := handleControl_few { s with nowUs } (find_some h).1 hd m (hP i h)
      exact ⟨n, hn, (Passes.after_goes hnow.deals.goes hpass).trans_goes (dropIfSendFailed_deals _ _).goes⟩
  | _ => cases hc

section

variable (info : HubPeerConnectInfo)

theorem connectingPeerIsKnown_fixed : Fixed s (s.connectingPeerIsKnown info).1 := by
  unfold connectingPeerIsKnown
  split
  · exact .refl s
  have hauth : Fixed s (if s.config.hasAuthorization then s.ask else (s, false)).1 := by
    split
    · exact s.ask_fixed
    · exact .refl s
  rcases h : (if s.config.hasAuthorization then s.ask else (s, false)) with ⟨s₁, known⟩
  rw [h] at hauth
  cases known with
  | true => exact hauth
  | false =>
    dsimp only
    split
    · exact hauth.trans s₁.ask_fixed
    · exact hauth

theorem makeRoomForKnownPeer_deals : Deals P s (s.makeRoomForKnownPeer info).1 := by
  unfold makeRoomForKnownPeer
  have hknown := s.connectingPeerIsKnown_fixed info
  rcases h : s.connectingPeerIsKnown info with ⟨s₁, known⟩
  rw [h] at hknown
  cases known with
  | false => exact hknown.deals
  | true =>
    dsimp only
    split
    · exact hknown.deals
    · exact hknown.deals.trans (s₁.turnAway_deals _ _ _)

theorem refusePeer_deals (detail : String) : Deals P s (s.refusePeer peerId detail) :=
  ((s.sendError_fixed _ _ _).trans (emit_fixed _ ⟨rfl, rfl⟩ rfl ⟨rfl, rfl⟩)).deals

/-- **What a connection does to the books**: others may make room, and a free slot
may get the new peer. -/
theorem onPeerConnected_cases (nowUs : ℕ) :
    ∃ s₁, Deals P s s₁ ∧ (s.onPeerConnected peerId info nowUs = s₁
      ∨ ∃ i, (s₁.directory i).inUse = false
        ∧ s.onPeerConnected peerId info nowUs = s₁.modifyPeer i fun _ => newPeer peerId info nowUs) := by
  generalize hafter : s.onPeerConnected peerId info nowUs = s'
  unfold onPeerConnected receive seat at hafter
  have hnow : Fixed s { s with nowUs } := s.nowUs_fixed nowUs
  generalize { s with nowUs } = s₀ at hafter hnow
  by_cases hadmit : s₀.admitsPeerAwaitingHello info
  swap
  · rw [if_pos (by simpa using hadmit)] at hafter
    exact ⟨_, hnow.deals.trans (s₀.refusePeer_deals _ _), .inl hafter.symm⟩
  rw [if_neg (by simpa using hadmit)] at hafter
  obtain ⟨s₁, made, hroom, h⟩ : ∃ s₁ made, Deals P s s₁
      ∧ (if s₀.directory.isFull then s₀.makeRoomForKnownPeer info else (s₀, true)) = (s₁, made) := by
    by_cases hfull : s₀.directory.isFull
    · exact ⟨_, _, hnow.deals.trans (s₀.makeRoomForKnownPeer_deals info), if_pos hfull⟩
    · exact ⟨s₀, true, hnow.deals, if_neg hfull⟩
  simp only [h] at hafter
  cases made with
  | false => exact ⟨_, hroom.trans (refusePeer_deals _ _ _), .inl hafter.symm⟩
  | true =>
    dsimp only at hafter
    cases hfree : s₁.directory.freeSlot with
    | none =>
      rw [hfree] at hafter
      exact ⟨s₁, hroom, .inl hafter.symm⟩
    | some i =>
      rw [hfree] at hafter
      exact ⟨s₁, hroom, .inr ⟨i, by simpa using Table.find?_some hfree, hafter.symm⟩⟩

end

end Broker
end CanHub
