/-
# What sending changes

Most of what the broker does is to tell somebody something. Whatever it tells,
only the port's log and count of questions move, and the marks on the peers that
refused a message: `SendsOnly P s s'` says that `s'` is `s` but for these, and what
was sent; `Talks` that it is control messages, `Chats` that none of them has to do with
a CONFIGURE or answers a REGISTER, `Sends` that no datagram is among it.
Every function below is proved to be such a step, or to be one after an explicit change
of the state, so that what else it leaves alone need not be shown again.
-/
import CanHub.Hub.Handlers

namespace CanHub

/-- Everything but what goes on a channel. -/
def HubOutput.isControl : HubOutput → Bool
  | .datagram .. => false
  | _ => true

/-- A control message. -/
def HubOutput.isMessage : HubOutput → Bool
  | .control .. => true
  | _ => false

/-- A message that is none of the desk's and answers no REGISTER. -/
@[simp, grind] def HubMessage.isChat : HubMessage → Bool
  | .configureReply _ => false
  | .ifconfig _ => false
  | .registerAck _ => false
  | _ => true

def HubOutput.isChat : HubOutput → Bool
  | .control _ m _ => m.isChat
  | _ => false

/-- The answer to a REGISTER. -/
def HubOutput.isRegisterAck : HubOutput → Bool
  | .control _ (.registerAck _) _ => true
  | _ => false

namespace Broker

/-- The broker after messages, with the marks they left. -/
def sent (s : Broker) (flags : PeerSlot → Bool) (asked : ℕ) (o : List HubOutput) : Broker :=
  { s with
    directory := fun i => { s.directory i with sendFailed := flags i }
    port := { s.port with asked, log := s.port.log ++ o } }

/-- `s'` is `s` after outputs that all have the property; a mark is left by a message refused. -/
def SendsOnly (P : HubOutput → Prop) (s s' : Broker) : Prop :=
  ∃ flags asked o, (∀ x ∈ o, P x)
    ∧ (∀ i, flags i = (s.directory i).sendFailed ∨ ∃ m, HubOutput.control (s.directory i).peerId m false ∈ o)
    ∧ s' = s.sent flags asked o

/-- `s'` is `s` after anything but datagrams. -/
abbrev Sends (s s' : Broker) : Prop := SendsOnly (·.isControl) s s'

/-- `s'` is `s` after control messages. -/
abbrev Talks (s s' : Broker) : Prop := SendsOnly (·.isMessage) s s'

/-- `s'` is `s` after control messages that are none of the desk's and answer no REGISTER. -/
abbrev Chats (s s' : Broker) : Prop := SendsOnly (·.isChat) s s'

namespace SendsOnly

variable {P Q : HubOutput → Prop} {s s' s'' : Broker}

theorem refl (s : Broker) : SendsOnly P s s := by
  refine ⟨fun i => (s.directory i).sendFailed, s.port.asked, [], by simp, fun _ => .inl rfl, ?_⟩
  simp [sent]

theorem trans (h : SendsOnly P s s') (h' : SendsOnly P s' s'') : SendsOnly P s s'' := by
  obtain ⟨_, _, o, ho, hf, rfl⟩ := h
  obtain ⟨flags, asked, o', ho', hf', rfl⟩ := h'
  refine ⟨flags, asked, o ++ o', ?_, fun i => ?_, ?_⟩
  · intro x hx
    rcases List.mem_append.mp hx with hx | hx
    · exact ho x hx
    · exact ho' x hx
  · rcases hf' i with he | ⟨m, hm⟩
    · rcases hf i with he' | ⟨m, hm⟩
      · exact .inl (he.trans he')
      · exact .inr ⟨m, List.mem_append_left _ hm⟩
    · exact .inr ⟨m, List.mem_append_right _ hm⟩
  · simp [sent, List.append_assoc]

theorem mono (h : SendsOnly P s s') (hPQ : ∀ x, P x → Q x) : SendsOnly Q s s' := by
  obtain ⟨flags, asked, o, ho, hf, rfl⟩ := h
  exact ⟨flags, asked, o, fun x hx => hPQ x (ho x hx), hf, rfl⟩

/-- A loop of steps that send only sends. -/
theorem foldl {α : Type} {f : Broker → α → Broker} (h : ∀ s a, SendsOnly P s (f s a)) :
    ∀ (l : List α) (s : Broker), SendsOnly P s (l.foldl f s)
  | [], s => refl s
  | a :: l, s => (h s a).trans (foldl h l (f s a))

theorem sends (h : Chats s s') : Sends s s' :=
  h.mono fun o ho => by
    cases o with
    | control => rfl
    | _ => cases ho

/-! ### A change of the state before or after -/

theorem transactions (h : SendsOnly P s s') (f : TransactionTable → TransactionTable) :
    SendsOnly P { s with transactions := f s.transactions } { s' with transactions := f s'.transactions } := by
  obtain ⟨flags, asked, o, ho, hf, rfl⟩ := h
  exact ⟨flags, asked, o, ho, hf, rfl⟩

theorem countTransactions (h : SendsOnly P s s') (f : TransactionCounters → TransactionCounters) :
    SendsOnly P (s.countTransactions f) (s'.countTransactions f) := by
  obtain ⟨flags, asked, o, ho, hf, rfl⟩ := h
  exact ⟨flags, asked, o, ho, hf, rfl⟩

end SendsOnly

/-! ### Questions to the ports -/

/-- The broker after questions to its ports, and writes to the identity store. -/
def questioned (s : Broker) (n : ℕ) (writes : List IdentityWrite := s.port.writes) : Broker :=
  { s with port := { s.port with asked := n, writes } }

theorem knownTo_questioned (s : Broker) (hasPort : Bool) (fingerprintHex : Text) :
    ∃ n, (s.knownTo hasPort fingerprintHex).1 = s.questioned n := by
  unfold knownTo
  split
  · exact ⟨s.port.asked, rfl⟩
  · exact ⟨_, rfl⟩

theorem agentIdentityStatus_questioned (s : Broker) (i : PeerSlot) (m : RegisterMessage) :
    ∃ n writes, (s.agentIdentityStatus i m).1 = s.questioned n writes := by
  unfold agentIdentityStatus
  dsimp only
  split
  · exact ⟨s.port.asked, s.port.writes, rfl⟩
  rw [lookupPin]
  cases s.port.pinned s.port.asked with
  | some pinned => exact ⟨_, _, rfl⟩
  | none =>
    dsimp only
    split
    · exact ⟨_, _, rfl⟩
    rw [firstContactPinsFull]
    cases decide (firstContactPinsMax ≤ s.ask.1.port.firstContacts s.ask.1.port.asked) with
    | true => exact ⟨_, _, rfl⟩
    | false =>
      rcases h : s.ask.1.ask.1.write (.pin m.agentName (s.directory i).fingerprintHex) with ⟨s₁, pinned⟩
      have hs₁ : s₁ = s.questioned _ _ := (congrArg Prod.fst h).symm
      dsimp only
      rw [h, hs₁]
      cases pinned <;> exact ⟨_, _, rfl⟩

/-! ### The sends -/

variable {P : HubOutput → Prop} (s : Broker)

theorem ask_sends : SendsOnly P s s.ask.1 := by
  refine ⟨fun i => (s.directory i).sendFailed, s.port.asked + 1, [], by simp, fun _ => .inl rfl, ?_⟩
  simp [ask, sent]

theorem emit_sends {o : HubOutput} (ho : P o) : SendsOnly P s (s.emit o) := by
  refine ⟨fun i => (s.directory i).sendFailed, s.port.asked, [o], by simpa using ho, fun _ => .inl rfl, ?_⟩
  simp [emit, sent]

section

variable (i : PeerSlot)

/-- A message, and the mark it leaves when it is refused. -/
theorem sendControl_eq (m : HubMessage) : s.sendControl i m =
    s.sent (fun j => if s.port.answer s.port.asked = false ∧ j = i then true else (s.directory j).sendFailed)
      (s.port.asked + 1) [.control (s.directory i).peerId m (s.port.answer s.port.asked)] := by
  unfold sendControl
  simp only [ask, transmit_eq, emit]
  by_cases ha : s.port.answer s.port.asked
  · simp [sent, ha]
  · simp only [ha, Bool.false_eq_true, if_false, modifyPeer, sent]
    congr 1
    funext j
    by_cases hj : j = i
    · subst hj
      simp
    · simp [hj]

theorem sendControl_sendsOnly (m : HubMessage)
    (h : ∀ taken, P (.control (s.directory i).peerId m taken)) : SendsOnly P s (s.sendControl i m) := by
  refine ⟨_, _, _, ?_, fun j => ?_, s.sendControl_eq i m⟩
  · simpa using h _
  · by_cases hj : s.port.answer s.port.asked = false ∧ j = i
    · obtain ⟨ha, rfl⟩ := hj
      exact .inr ⟨m, by simp [ha]⟩
    · exact .inl (if_neg hj)

theorem sendControl_sends (m : HubMessage) : Talks s (s.sendControl i m) :=
  s.sendControl_sendsOnly i m fun _ => rfl

theorem sendControl_chats {m : HubMessage} (hm : m.isChat) : Chats s (s.sendControl i m) :=
  s.sendControl_sendsOnly i m fun _ => hm

theorem sendError_sends (peerId : UInt32) (code : ErrorCode) (detail : String) :
    Chats s (s.sendError peerId code detail) :=
  s.ask_sends.trans (emit_sends _ rfl)

theorem authorized_sends : SendsOnly P s (s.authorized i).1 := by
  unfold authorized
  split
  · exact .refl s
  · split
    · exact .refl s
    · exact s.ask_sends

end

/-- An INTERFACE_STATUS. -/
def IsPace (o : HubOutput) : Prop := ∃ peerId entry taken, o = .control peerId (.interfaceStatus entry) taken

theorem isChat_of_isPace {o : HubOutput} (h : IsPace o) : o.isChat := by
  obtain ⟨_, _, _, rfl⟩ := h
  rfl

theorem relayPaceToClients_sends (interfaceId paceRate : UInt32) :
    SendsOnly IsPace s (s.relayPaceToClients interfaceId paceRate) := by
  refine SendsOnly.foldl (fun s i => ?_) _ s
  unfold relayPaceTo
  split
  · exact .refl s
  · split
    · exact .refl s
    · exact s.sendControl_sendsOnly i _ fun taken => ⟨_, _, taken, rfl⟩

theorem announceLease_sends (interfaceId : UInt32) : SendsOnly IsPace s (s.announceLease interfaceId) := by
  unfold announceLease
  split
  · exact s.relayPaceToClients_sends _ _
  · exact .refl s

theorem sendTxnStatus_sends (client : Option PeerSlot) (t : RelayedTransaction) (reason : TxnReason) :
    Chats s (s.sendTxnStatus client t reason) := by
  cases client with
  | none => exact .refl s
  | some i => exact s.sendControl_chats i rfl

theorem relayTransactionMessage_sends (destination : Option PeerSlot) {m : HubMessage} (hm : m.isChat) :
    Chats s (s.relayTransactionMessage destination m) := by
  cases destination with
  | none => exact .refl s
  | some i => exact s.sendControl_chats i hm

/-! ### Transactions that begin -/

/-- What `admitTransaction` decides: a refusal, or the entry of the agent that
has the interface, which has no other, for a channel allowed to write. -/
theorem admitTransaction_cases (c : PeerSlot) (b : TxnBeginMessage) :
    (∃ status, status ≠ TxnBeginStatus.ok ∧ ((s.admitTransaction c b) = (s, .error status)
        ∨ (s.admitTransaction c b) = (s.ask.1, .error status)))
    ∨ ∃ interfaceId k a, (s.directory c).session.interfaceForChannel b.channel = some interfaceId
        ∧ s.registry.findById interfaceId = some k ∧ (s.registry.entries k).isVirtual = false
        ∧ s.find (s.registry.entries k).agentPeerId = some a
        ∧ s.transactions.forAgent (s.directory a).peerId = none ∧ (s.directory c).session.canWrite b.channel
        ∧ (s.admitTransaction c b) = (s.ask.1, .ok
          { exclusive := b.flags &&& txnBeginFlagExclusive ≠ 0, interfaceId, agentPeerId := (s.directory a).peerId
            agentChannel := (s.registry.entries k).agentChannel, clientPeerId := (s.directory c).peerId
            clientChannel := b.channel, startedAtUs := s.nowUs }) := by
  unfold admitTransaction
  dsimp only
  split
  · exact .inl ⟨.invalid, by decide, .inl rfl⟩
  rename_i interfaceId hinterface
  split
  · exact .inl ⟨.invalid, by decide, .inl rfl⟩
  rename_i k hk
  split
  · exact .inl ⟨.invalid, by decide, .inl rfl⟩
  rename_i hvirtual
  split
  · exact .inl ⟨.invalid, by decide, .inl rfl⟩
  rename_i a ha
  split
  · exact .inl ⟨.unsupported, by decide, .inl rfl⟩
  split
  · exact .inl ⟨.reliableChannelRequired, by decide, .inl rfl⟩
  cases hreliable : s.port.answer s.port.asked with
  | false =>
    simp only [ask, hreliable]
    exact .inl ⟨.reliableChannelRequired, by decide, .inr rfl⟩
  | true =>
    simp only [ask, hreliable]
    split
    · exact .inl ⟨.writeDenied, by decide, .inr rfl⟩
    rename_i hwrite
    split
    · exact .inl ⟨.busy, by decide, .inr rfl⟩
    · rename_i hbusy
      exact .inr ⟨interfaceId, k, a, hinterface, hk, by simpa using hvirtual, ha, by simpa using hbusy,
        by simpa using hwrite, rfl⟩

/-! ### Transactions that end -/

/-- **Finishing a transaction clears its entry**, and tells the clients if its lease ends. -/
theorem finishTransaction_sends (t : TransactionSlot) :
    Chats { s with transactions := s.transactions.close t } (s.finishTransaction t) := by
  unfold finishTransaction
  dsimp only
  split
  · exact (announceLease_sends _ _).mono fun _ => isChat_of_isPace
  · exact .refl _

/-- A transaction that has been granted is aborted and counted. -/
theorem abandonTransaction_sends {t : TransactionSlot} (h : (s.transactions.entries t).state ≠ .pending) :
    Chats { s.countTransactions fun c => { c with aborted := c.aborted + 1 } with
        transactions := s.transactions.close t } (s.abandonTransaction t) := by
  unfold abandonTransaction
  rw [if_neg h]
  cases s.find (s.transactions.entries t).agentPeerId with
  | none => exact finishTransaction_sends _ t
  | some agent =>
    have hsent : Chats s (s.sendTxnAbort agent (s.transactions.entries t).agentChannel
        (s.transactions.entries t).txnId) := s.sendControl_chats _ rfl
    exact ((hsent.countTransactions _).transactions (·.close t)).trans (finishTransaction_sends _ t)

theorem refuseTransaction_sends (t : TransactionSlot) (agent : PeerSlot) (reason : TxnReason) :
    Chats { s.countTransactions fun c => { c with aborted := c.aborted + 1 } with
        transactions := s.transactions.close t } (s.refuseTransaction t agent reason) := by
  unfold refuseTransaction
  dsimp only
  have habort : Chats s (s.sendTxnAbort agent (s.transactions.entries t).agentChannel (s.transactions.entries t).txnId) :=
    s.sendControl_chats _ rfl
  generalize s.sendTxnAbort agent _ _ = s₁ at habort ⊢
  have hsent := habort.trans (s₁.sendTxnStatus_sends (s.find (s.transactions.entries t).clientPeerId)
    (s₁.transactions.entries t) reason)
  exact ((hsent.countTransactions _).transactions (·.close t)).trans (finishTransaction_sends _ t)

end Broker
end CanHub
