/-
# Transaction content through the hub

A client sends TXN_ROSTER, TXN_TEMPLATE and TXN_STEPS to the hub, which hands
each to the agent's channel if it fits the buffer there (`frame_fits`), and else
drops it when the client's transport cannot be paused. The buffer is drained in
order; the agent uses up the records of the batches that have arrived whole, and
the client is told how much.

The hub is the whole `Broker`, and anything else may happen to it between two
relays. The buffer holds what `relayTransactionContent` handed to the transport,
and nothing else. What the agent uses up and what the client is told are any
values that records arrived, and reports sent, allow.

The window counts record bytes, the buffer counts messages with their headers.
A client that keeps to the window can therefore fill the buffer with small
batches (`small_batches_overflow`); one whose outstanding messages fit the buffer
never does.

Key theorems:
- `relayTransactionContent_cases`: what relaying content does to the agent's channel.
- `step_inv`, `run_inv`: the messages that wait, and those on their way to the
  hub, fit the buffer together.
- `content_not_lost`: no content is dropped.
-/
import CanHub.Hub.Sends
import CanHub.Lib.Backlog
import CanHub.Lib.Run

namespace CanHub

open Load Broker List Run
namespace Relay

/-- A content message as the client sent it, without its header. -/
structure Content where
  type : TxnContentType
  payload : List UInt8
deriving DecidableEq

/-- Its bytes on the wire, and its record bytes. -/
def Content.load (m : Content) : Load where
  size := messageHeaderSize + m.payload.length
  content := if m.type = .steps then m.payload.length - txnStepsFixedFieldsSize else 0

def loads (ms : List Content) : List Load := ms.map Content.load

@[simp] theorem loads_append (ms ns : List Content) : loads (ms ++ ns) = loads ms ++ loads ns := map_append

/-- The content the transport took. -/
def accepted (log : List HubOutput) : List Content :=
  log.filterMap fun
    | .datagram _ _ (.content type payload) true => some ⟨type, payload⟩
    | _ => none

structure System where
  hub : Broker
  /-- everything the client sent -/
  sent : List Content := []
  /-- on its way to the hub, oldest first -/
  up : List Content := []
  /-- handed to the agent's channel -/
  relayed : List Content := []
  /-- bytes that left the agent's buffer -/
  drained : ℕ := 0
  /-- record bytes the agent used up -/
  consumed : ℕ := 0
  /-- the last `consumed_bytes` the client was told -/
  told : ℕ := 0
  /-- found no room at the hub -/
  dropped : List Content := []

inductive Event
  | send (m : Content)
  | relay
  | other (t : HubTurn)
  | drain (n : ℕ)
  | consume (bytes : ℕ)
  | tell (bytes : ℕ)

/-- The bytes in the agent's buffer. -/
def System.waiting (σ : System) : ℕ := totalSize (loads σ.relayed) - σ.drained

/-- The hub about to relay a message: the transport takes what fits the buffer. -/
def System.facing (σ : System) (capacity : ℕ) (m : Content) : Broker :=
  { σ.hub with port := { answer := fun _ => σ.waiting + m.load.size ≤ capacity, pinned := fun _ => none
                         firstContacts := fun _ => 0 } }

section System

variable (client : PeerSlot) (capacity : ℕ)

def step (σ : System) : Event → System
  | .send m => { σ with sent := σ.sent ++ [m], up := σ.up ++ [m] }
  | .relay =>
    match σ.up with
    | [] => σ
    | m :: up =>
      let (hub, taken) := (σ.facing capacity m).relayTransactionContent client m.type m.payload
      { σ with hub, up, relayed := σ.relayed ++ accepted hub.port.log
               dropped := if taken then σ.dropped else σ.dropped ++ [m] }
  | .other t => { σ with hub := σ.hub.step t }
  | .drain n => if n ≤ σ.waiting then { σ with drained := σ.drained + n } else σ
  | .consume bytes =>
    if σ.consumed ≤ bytes ∧ bytes ≤ arrived σ.drained (loads σ.relayed) then { σ with consumed := bytes } else σ
  | .tell bytes => if σ.told ≤ bytes ∧ bytes ≤ σ.consumed then { σ with told := bytes } else σ

end System

/-- The client keeps the record bytes in flight within the window. -/
def KeepsWindow (window : ℕ) (σ : System) : Event → Prop
  | .send m => totalContent (loads (σ.sent ++ [m])) ≤ σ.told + window
  | _ => True

/-- The client keeps its messages, as far as it has not been told that they
arrived, within the buffer. -/
def KeepsBuffer (capacity : ℕ) (σ : System) : Event → Prop
  | .send m => totalSize (outstanding σ.told (loads (σ.sent ++ [m]))) ≤ capacity
  | _ => True

instance (capacity : ℕ) (σ : System) : ∀ e, Decidable (KeepsBuffer capacity σ e)
  | .send _ => inferInstanceAs (Decidable (_ ≤ _))
  | .relay | .other _ | .drain _ | .consume _ | .tell _ => .isTrue trivial

/-! ### What relaying does -/

theorem accepted_append (l l' : List HubOutput) : accepted (l ++ l') = accepted l ++ accepted l' :=
  filterMap_append

theorem accepted_control {o : List HubOutput} (h : ∀ x ∈ o, x.isControl) : accepted o = [] := by
  refine filterMap_eq_nil_iff.mpr fun x hx => ?_
  have hc := h x hx
  cases x with
  | datagram => cases hc
  | control => rfl
  | channelMode => rfl
  | closePeer => rfl

/-- Messages hand no content over. -/
theorem accepted_sends {s s' : Broker} (h : Broker.Sends s s') : accepted s'.port.log = accepted s.port.log := by
  obtain ⟨_, _, o, ho, -, rfl⟩ := h
  show accepted (s.port.log ++ o) = _
  rw [accepted_append, accepted_control ho, append_nil]

/-- The message in the agent's channel differs in its channel byte. -/
theorem load_set (m : Content) (channel : UInt8) :
    (⟨m.type, m.payload.set 0 channel⟩ : Content).load = m.load := by
  simp [Content.load]

/-- **What relaying content does**: nothing towards the agent; or it finds no
room; or it finds room, and the message goes as it is but for its channel. -/
theorem relayTransactionContent_cases (s : Broker) (client : PeerSlot) (m : Content) :
    let r := s.relayTransactionContent client m.type m.payload
    (r.2 = true ∧ accepted r.1.port.log = accepted s.port.log)
    ∨ (r.2 = false ∧ s.port.answer s.port.asked = false ∧ accepted r.1.port.log = accepted s.port.log)
    ∨ (r.2 = true ∧ s.port.answer s.port.asked = true
        ∧ ∃ m' : Content, m'.load = m.load ∧ accepted r.1.port.log = accepted s.port.log ++ [m']) := by
  intro r
  unfold r relayTransactionContent
  split
  · exact .inl ⟨rfl, rfl⟩
  split
  · exact .inl ⟨rfl, rfl⟩
  rename_i t ht
  dsimp only
  split
  · exact .inl ⟨rfl, rfl⟩
  split
  · exact .inl ⟨rfl, rfl⟩
  rename_i agent hagent
  split
  · have hsends := accepted_sends (s.refuseTransaction_sends t agent .unsupported).sends
    exact .inl ⟨rfl, hsends⟩
  cases hfits : s.port.answer s.port.asked with
  | false =>
    simp only [ask, hfits]
    exact .inr (.inl ⟨trivial, trivial, trivial⟩)
  | true =>
    simp only [ask, hfits]
    -- counting the relayed bytes leaves the port alone
    generalize hs : (if m.type = .steps ∧ txnStepsFixedFieldsSize ≤ m.payload.length then _ else _ : Broker) = s'
    have hport : s'.port = { s.port with asked := s.port.asked + 1 } := by
      rw [← hs]
      split <;> rfl
    simp only [sendFrame, ask, transmit_eq, emit, hport]
    cases s.port.answer (s.port.asked + 1) with
    | false =>
      refine .inl ⟨trivial, ?_⟩
      rw [accepted_append]
      exact append_nil _
    | true =>
      refine .inr (.inr ⟨trivial, trivial, _, load_set m (s.transactions.entries t).agentChannel, ?_⟩)
      rw [accepted_append]
      rfl

/-! ### The invariant -/

/-- The messages relayed and on their way are among those sent, the client was
told of nothing that has not arrived, and what waits for the agent, with what is
still to come, fits the buffer. -/
structure Inv (capacity : ℕ) (σ : System) : Prop where
  sent : (loads σ.relayed ++ loads σ.up).Sublist (loads σ.sent)
  consumed : σ.consumed ≤ arrived σ.drained (loads σ.relayed)
  told : σ.told ≤ σ.consumed
  room : σ.waiting + totalSize (loads σ.up) ≤ capacity
  dropped : σ.dropped = []

variable {client : PeerSlot} {capacity : ℕ} {σ : System}

section

variable (h : Inv capacity σ)
include h

/-- What waits is what the client cannot know to have arrived. -/
theorem Inv.send {m : Content} (hm : KeepsBuffer capacity σ (.send m)) :
    Inv capacity (step client capacity σ (.send m)) := by
  obtain ⟨before, behind, hsplit, hle, harrived⟩ := arrived_split σ.drained (loads σ.relayed)
  have hsub : (before ++ (behind ++ loads σ.up ++ loads [m])).Sublist (loads (σ.sent ++ [m])) := by
    have := h.sent.append (List.Sublist.refl (loads [m]))
    rw [hsplit] at this
    simpa only [loads_append, append_assoc] using this
  have htold : σ.told ≤ totalContent before := by
    rw [← harrived]
    exact h.told.trans h.consumed
  have hwait : σ.waiting ≤ totalSize behind := by
    rw [System.waiting, hsplit, totalSize_append]
    omega
  refine ⟨?_, h.consumed, h.told, ?_, h.dropped⟩
  · simpa only [step, loads_append, append_assoc] using h.sent.append (List.Sublist.refl (loads [m]))
  · show σ.waiting + totalSize (loads (σ.up ++ [m])) ≤ capacity
    calc σ.waiting + totalSize (loads (σ.up ++ [m]))
        ≤ totalSize (behind ++ loads σ.up ++ loads [m]) := by
          simp only [loads_append, totalSize_append]
          omega
      _ ≤ totalSize (outstanding σ.told (loads (σ.sent ++ [m]))) := size_le_outstanding _ hsub htold
      _ ≤ capacity := hm

/-- The next message finds room. -/
theorem Inv.fits {m : Content} {up : List Content} (hup : σ.up = m :: up) :
    σ.waiting + m.load.size ≤ capacity := by
  have hroom := h.room
  rw [hup] at hroom
  simp only [loads, map_cons, totalSize_cons] at hroom
  omega

theorem Inv.relay : Inv capacity (step client capacity σ .relay) := by
  unfold step
  cases hup : σ.up with
  | nil => exact h
  | cons m up =>
    have hfits := h.fits hup
    have hsent := h.sent
    have hroom := h.room
    rw [hup] at hsent hroom
    simp only [loads, map_cons, totalSize_cons] at hsent hroom
    dsimp only
    rcases relayTransactionContent_cases (σ.facing capacity m) client m with
      ⟨htaken, hlog⟩ | ⟨-, hno, -⟩ | ⟨htaken, -, m', hload, hlog⟩
    · -- the transaction is over: the message goes nowhere
      rw [htaken, hlog]
      have hnil : accepted (σ.facing capacity m).port.log = [] := rfl
      rw [hnil, append_nil]
      refine ⟨?_, h.consumed, h.told, ?_, h.dropped⟩
      · exact (List.Sublist.append_left (sublist_cons_self _ _) _).trans hsent
      · show σ.waiting + totalSize (loads up) ≤ capacity
        simp only [loads]
        omega
    · exact absurd hfits (by simpa [System.facing] using hno)
    · rw [htaken, hlog]
      have hnil : accepted (σ.facing capacity m).port.log = [] := rfl
      rw [hnil, nil_append]
      refine ⟨?_, ?_, h.told, ?_, h.dropped⟩
      · simpa [loads, hload] using hsent
      · rw [loads_append]
        exact h.consumed.trans (arrived_mono _ _ le_rfl)
      · simp only [System.waiting, loads_append, totalSize_append] at hroom ⊢
        simp only [loads, map_cons, map_nil, totalSize_cons, totalSize_nil, hload] at hroom ⊢
        omega

/-- **Every event keeps the invariant**, if the client keeps within the buffer. -/
theorem step_inv {e : Event} (he : KeepsBuffer capacity σ e) :
    Inv capacity (step client capacity σ e) := by
  cases e with
  | send m => exact h.send he
  | relay => exact h.relay
  | other t => exact ⟨h.sent, h.consumed, h.told, h.room, h.dropped⟩
  | drain n =>
    unfold step
    dsimp only
    split
    · refine ⟨h.sent, ?_, h.told, ?_, h.dropped⟩
      · have := arrived_mono (loads σ.relayed) [] (Nat.le_add_right σ.drained n)
        rw [append_nil] at this
        exact h.consumed.trans this
      · have := h.room
        simp only [System.waiting] at this ⊢
        omega
    · exact h
  | consume bytes =>
    unfold step
    dsimp only
    split
    · rename_i hb
      exact ⟨h.sent, hb.2, h.told.trans hb.1, h.room, h.dropped⟩
    · exact h
  | tell bytes =>
    unfold step
    dsimp only
    split
    · rename_i hb
      exact ⟨h.sent, h.consumed, hb.2, h.room, h.dropped⟩
    · exact h

end

theorem start_inv (hub : Broker) : Inv capacity { hub } :=
  ⟨List.Sublist.refl _, le_rfl, le_rfl, Nat.zero_le _, rfl⟩

/-- **No content is lost**: in every run in which the client keeps the messages
it does not know to have arrived within the agent's buffer, the messages waiting
for the agent fit it, no message was dropped, and none will be when the hub reads
the next one. -/
theorem content_not_lost (hub : Broker) (client : PeerSlot) (capacity : ℕ) (es : List Event)
    (h : Along (step client capacity) (KeepsBuffer capacity) { hub } es) :
    let σ := run (step client capacity) { hub } es
    σ.waiting ≤ capacity ∧ σ.dropped = []
      ∧ ∀ m up, σ.up = m :: up →
        ((σ.facing capacity m).relayTransactionContent client m.type m.payload).2 = true := by
  intro σ
  have hinv : Inv capacity σ := h.invariant (fun _ _ hinv he => step_inv hinv he) (start_inv hub)
  refine ⟨?_, hinv.dropped, ?_⟩
  · have := hinv.room
    omega
  · intro m up hup
    have hfits := hinv.fits hup
    rcases relayTransactionContent_cases (σ.facing capacity m) client m with ⟨htaken, -⟩ | ⟨-, hno, -⟩ | ⟨htaken, -⟩
    · exact htaken
    · exact absurd hfits (by simpa [System.facing] using hno)
    · exact htaken

/-! ### Small batches -/

/-- The hub relays what the client sends on the channel. -/
structure Relaying (s : Broker) (client : PeerSlot) (channel : UInt8) : Prop where
  role : (s.directory client).role = .client
  entry : ∃ t, s.transactions.forClientChannel (s.directory client).peerId channel = some t
    ∧ (s.transactions.entries t).state = .active ∧ ∃ agent, s.find (s.transactions.entries t).agentPeerId = some agent

/-- A batch of steps as the hub takes it. -/
structure Batch (channel : UInt8) (m : Content) : Prop where
  type : m.type = .steps
  nonempty : m.payload ≠ []
  size : m.load.size ≤ controlBufferSize
  channel : Wire.byteAt m.payload 0 = channel

/-- Counting relayed bytes leaves the transactions where they are. -/
theorem Relaying.count {s : Broker} {channel : UInt8} (h : Relaying s client channel) (t : TransactionSlot)
    (n : UInt32) : Relaying (s.modifyTransaction t fun t => { t with relayedBytes := t.relayedBytes + n })
      client channel := by
  obtain ⟨t', ht', hactive, agent, hagent⟩ := h.entry
  have hkept : ∀ {α : Type} (f : RelayedTransaction → α)
      (_ : ∀ e : RelayedTransaction, f { e with relayedBytes := e.relayedBytes + n } = f e) (j : TransactionSlot),
      f ((s.transactions.modify t fun t => { t with relayedBytes := t.relayedBytes + n }).entries j)
        = f (s.transactions.entries j) := by
    intro α f hf j
    by_cases hj : j = t
    · rw [hj, TransactionTable.modify_entries_self, hf]
    · rw [TransactionTable.modify_entries_of_ne _ hj]
  refine ⟨h.role, t', ?_, ?_, agent, ?_⟩
  · rw [← ht']
    exact Table.find?_congr (hkept (fun e => e.isInUse && e.clientPeerId == (s.directory client).peerId
      && e.clientChannel == channel) fun _ => rfl)
  · rw [← hactive]
    exact hkept (·.state) (fun _ => rfl) t'
  · rw [← hagent]
    exact congrArg s.find (hkept (·.agentPeerId) (fun _ => rfl) t')

/-- Asking the transport, and what it is handed, leave them too. -/
theorem Relaying.port {s : Broker} {channel : UInt8} (h : Relaying s client channel) (port : HubPort) :
    Relaying { s with port } client channel := ⟨h.role, h.entry⟩

/-- A batch of a running transaction is relayed if it fits, and else refused. -/
theorem Relaying.relay {s : Broker} {channel : UInt8} (h : Relaying s client channel) {m : Content}
    (hm : Batch channel m) {fits : Bool} (hfits : ∀ n, s.port.answer n = fits) :
    let r := s.relayTransactionContent client m.type m.payload
    Relaying r.1 client channel ∧ r.2 = fits
      ∧ loads (accepted r.1.port.log) = loads (accepted s.port.log) ++ if fits then [m.load] else [] := by
  obtain ⟨t, ht, hactive, agent, hagent⟩ := h.entry
  have hsize := hm.size
  simp only [Content.load] at hsize
  have hnot : ¬ agentRefusesTemplate (s.directory agent) m.type m.payload := by
    rw [hm.type]
    simp [agentRefusesTemplate]
  intro r
  unfold r relayTransactionContent
  have hguard : ¬ ((s.directory client).role ≠ .client ∨ m.payload = []
      ∨ controlBufferSize < messageHeaderSize + m.payload.length) := by
    rintro (hrole | hnil | hlong)
    · exact hrole h.role
    · exact hm.nonempty hnil
    · omega
  rw [if_neg hguard, hm.channel, ht]
  dsimp only
  rw [if_neg (by simp [hactive]), hagent]
  dsimp only
  rw [if_neg hnot]
  cases fits with
  | false =>
    simp only [ask, hfits]
    exact ⟨h.port _, trivial, by simp⟩
  | true =>
    simp only [ask, hfits]
    have hcount := h.port { s.port with asked := s.port.asked + 1 }
    generalize hs : (if m.type = .steps ∧ txnStepsFixedFieldsSize ≤ m.payload.length then _ else _ : Broker) = s'
    have hrelaying : Relaying s' client channel := by
      rw [← hs]
      split
      · exact hcount.count t _
      · exact hcount
    have hport : s'.port = { s.port with asked := s.port.asked + 1 } := by
      rw [← hs]
      split <;> rfl
    simp only [sendFrame, ask, transmit_eq, emit, hport, hfits]
    refine ⟨hrelaying.port _, trivial, ?_⟩
    rw [accepted_append, loads_append, if_pos trivial]
    show loads (accepted s.port.log) ++
      [(⟨m.type, m.payload.set 0 (s.transactions.entries t).agentChannel⟩ : Content).load] = _
    rw [load_set]

/-- Batches sent and relayed one by one. -/
def fill (batch : ℕ → Content) (n : ℕ) : List Event := (range n).flatMap fun i => [.send (batch i), .relay]

theorem fill_succ (batch : ℕ → Content) (n : ℕ) : fill batch (n + 1) = fill batch n ++ [.send (batch n), .relay] := by
  simp [fill, range_succ]

/-- `n` batches of one size wait for the agent, who has read nothing. -/
structure Filled (client : PeerSlot) (channel : UInt8) (load : Load) (n : ℕ) (σ : System) : Prop where
  relaying : Relaying σ.hub client channel
  sent : loads σ.sent = replicate n load
  relayed : loads σ.relayed = replicate n load
  up : σ.up = []
  drained : σ.drained = 0
  told : σ.told = 0
  dropped : σ.dropped = []

variable {channel : UInt8} {load : Load} {n window : ℕ} {m : Content} {batch : ℕ → Content}

theorem Filled.waiting (h : Filled client channel load n σ) : σ.waiting = n * load.size := by
  simp [System.waiting, h.relayed, h.drained, totalSize]

/-- A message sent and relayed at once. -/
theorem run_send_relay (hup : σ.up = []) (m : Content) : run (step client capacity) σ [.send m, .relay] =
    let r := (σ.facing capacity m).relayTransactionContent client m.type m.payload
    { σ with hub := r.1, sent := σ.sent ++ [m], up := [], relayed := σ.relayed ++ accepted r.1.port.log
             dropped := if r.2 then σ.dropped else σ.dropped ++ [m] } := by
  simp only [Run.run, foldl, step, hup, nil_append]
  rfl

section

variable (h : Filled client channel load n σ)
include h

/-- What the hub does with the next batch. -/
theorem Filled.relay (capacity : ℕ) (hm : Batch channel m)
    (hl : m.load = load) :
    let r := (σ.facing capacity m).relayTransactionContent client m.type m.payload
    Relaying r.1 client channel ∧ r.2 = decide ((n + 1) * load.size ≤ capacity)
      ∧ loads (accepted r.1.port.log) = if decide ((n + 1) * load.size ≤ capacity) then [load] else [] := by
  have hanswer : ∀ k, (σ.facing capacity m).port.answer k = decide ((n + 1) * load.size ≤ capacity) := by
    intro k
    show decide (σ.waiting + m.load.size ≤ capacity) = _
    rw [h.waiting, hl, Nat.add_one_mul]
  have hrelay := Relaying.relay (s := σ.facing capacity m) (h.relaying.port _) hm hanswer
  rw [hl] at hrelay
  exact hrelay

/-- The next batch is relayed if it fits. -/
theorem Filled.next (hm : Batch channel m) (hl : m.load = load)
    (hfit : (n + 1) * load.size ≤ capacity) :
    Filled client channel load (n + 1) (run (step client capacity) σ [.send m, .relay]) := by
  obtain ⟨hrelaying, htaken, hlog⟩ := h.relay capacity hm hl
  rw [decide_eq_true hfit] at htaken hlog
  rw [run_send_relay h.up]
  refine ⟨hrelaying, ?_, ?_, rfl, h.drained, h.told, ?_⟩
  · rw [loads_append, h.sent, replicate_succ', ← hl]
    rfl
  · rw [loads_append, h.relayed, replicate_succ', hlog]
    rfl
  · dsimp only
    rw [htaken, if_pos rfl, h.dropped]

/-- The first batch that does not fit is dropped. -/
theorem Filled.overflow (hm : Batch channel m) (hl : m.load = load)
    (hfull : capacity < (n + 1) * load.size) : (run (step client capacity) σ [.send m, .relay]).dropped = [m] := by
  obtain ⟨-, htaken, -⟩ := h.relay capacity hm hl
  rw [decide_eq_false (Nat.not_le_of_lt hfull)] at htaken
  rw [run_send_relay h.up]
  dsimp only
  rw [htaken, if_neg Bool.false_ne_true, h.dropped]
  rfl

theorem Filled.keepsWindow (hl : m.load = load)
    (hwindow : (n + 1) * load.content ≤ window) :
    Along (step client capacity) (KeepsWindow window) σ [.send m, .relay] := by
  refine ⟨?_, trivial, trivial⟩
  show totalContent (loads (σ.sent ++ [m])) ≤ σ.told + window
  have hsent : loads (σ.sent ++ [m]) = replicate (n + 1) load := by
    rw [loads_append, h.sent, replicate_succ', ← hl]
    rfl
  rw [hsent]
  simp only [totalContent, map_replicate, sum_replicate_nat]
  omega

end

/-- Batches of one size, as many as fit the buffer and the window. -/
theorem fill_filled {hub : Broker} (h : Relaying hub client channel)
    (hbatch : ∀ i, Batch channel (batch i) ∧ (batch i).load = load) (window : ℕ) :
    ∀ n, n * load.size ≤ capacity → n * load.content ≤ window →
      Filled client channel load n (run (step client capacity) { hub } (fill batch n))
        ∧ Along (step client capacity) (KeepsWindow window) { hub } (fill batch n)
  | 0, _, _ => ⟨⟨h, rfl, rfl, rfl, rfl, rfl, rfl⟩, trivial⟩
  | n + 1, hsize, hcontent => by
    have hmul := Nat.add_one_mul n load.size
    have hmul' := Nat.add_one_mul n load.content
    obtain ⟨hfilled, halong⟩ := fill_filled h hbatch window n (by omega) (by omega)
    rw [fill_succ]
    refine ⟨?_, Along.append.mpr ⟨halong, hfilled.keepsWindow (hbatch n).2 hcontent⟩⟩
    rw [run_append]
    exact hfilled.next (hbatch n).1 (hbatch n).2 hsize

/-- Within the window, `n` batches fill a buffer and the next is dropped. -/
theorem fill_overflow {hub : Broker} (h : Relaying hub client channel)
    (hbatch : ∀ i, Batch channel (batch i) ∧ (batch i).load = load) (n : ℕ) (hsize : n * load.size ≤ capacity)
    (hfull : capacity < (n + 1) * load.size) (hcontent : (n + 1) * load.content ≤ window) :
    Along (step client capacity) (KeepsWindow window) { hub } (fill batch (n + 1))
      ∧ (run (step client capacity) { hub } (fill batch (n + 1))).dropped = [batch n] := by
  have hmul := Nat.add_one_mul n load.content
  obtain ⟨hfilled, halong⟩ := fill_filled h hbatch window n hsize (by omega)
  rw [fill_succ]
  refine ⟨Along.append.mpr ⟨halong, hfilled.keepsWindow (hbatch n).2 hcontent⟩, ?_⟩
  rw [run_append]
  exact hfilled.overflow (hbatch n).1 (hbatch n).2 hfull

/-! ### An instance -/

@[simp] abbrev tcpChannelTxBacklogSize : ℕ := 8192
@[simp] abbrev quicReliableTxBufferSize : ℕ := 64 * 1024

/-- An agent (peer 2) and a client (peer 3) with a transaction granted a window of
100,000 bytes. -/
def grantedHub : Broker :=
  small.run (agentJoins 2 (registersOne 1 2) ++ clientJoins 3 1
    ++ transactionBegins 3 2 { channel := 0 } ⟨0, 0, 1, 100000⟩)

/-- The `i`-th batch: one step that only waits. -/
def oneStep (i : ℕ) : Content where
  type := .steps
  payload := TxnStepsWriter.body
    { txnId := 1, firstSeq := UInt32.ofNat i, records := TxnStep.record { flags := txnStepFlagExpectOnly }, stepCount := 1 }

theorem oneStep_batch (i : ℕ) : Batch 0 (oneStep i) ∧ (oneStep i).load = ⟨24, 8⟩ :=
  ⟨⟨rfl, (fun h => by cases h), (by decide : 24 ≤ controlBufferSize), rfl⟩, rfl⟩

set_option maxRecDepth 100000 in
theorem grantedHub_relaying : Relaying grantedHub 1 0 :=
  ⟨by decide +kernel, 0, by decide +kernel, by decide +kernel, 0, by decide +kernel⟩

set_option maxRecDepth 100000 in
/-- Two batches pass. -/
theorem content_not_lost_twoSteps :
    let σ := run (step 1 tcpChannelTxBacklogSize) { hub := grantedHub } (fill oneStep 2)
    σ.relayed = [oneStep 0, oneStep 1] ∧ σ.waiting ≤ tcpChannelTxBacklogSize ∧ σ.dropped = [] := by
  have h := content_not_lost grantedHub 1 tcpChannelTxBacklogSize (fill oneStep 2)
    (by decide +kernel)
  exact ⟨by decide +kernel, h.1, h.2.1⟩

set_option maxRecDepth 100000 in
/-- **Small batches overflow the buffer**: the hub relays a window of 48 KiB; a
client that sends one step a batch keeps to it, and loses the 342nd batch at a
TCP backlog, the 2731st at a QUIC stream. -/
theorem small_batches_overflow :
    HubOutput.control 3 (.txnBeginAck ⟨0, 0, 1, UInt32.ofNat transactionRelayWindowMax⟩) true ∈ grantedHub.port.log
    ∧ (Along (step 1 tcpChannelTxBacklogSize) (KeepsWindow transactionRelayWindowMax) { hub := grantedHub } (fill oneStep 342)
      ∧ (run (step 1 tcpChannelTxBacklogSize) { hub := grantedHub } (fill oneStep 342)).dropped = [oneStep 341])
    ∧ (Along (step 1 quicReliableTxBufferSize) (KeepsWindow transactionRelayWindowMax) { hub := grantedHub } (fill oneStep 2731)
      ∧ (run (step 1 quicReliableTxBufferSize) { hub := grantedHub } (fill oneStep 2731)).dropped = [oneStep 2730]) :=
  ⟨by decide +kernel,
    fill_overflow grantedHub_relaying oneStep_batch 341 (by decide) (by decide) (by decide),
    fill_overflow grantedHub_relaying oneStep_batch 2730 (by decide) (by decide) (by decide)⟩

end Relay
end CanHub
