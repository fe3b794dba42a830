/-
# Cancelling a transaction before it is granted

A client, the hub and an agent exchange TXN_BEGIN, TXN_BEGIN_ACK, TXN_ABORT and
TXN_STATUS over four queues that deliver in order and with any delay. The client
may call `Client_AbortTransaction` while it waits for the acknowledgement: it
forgets the transaction at once, and its abort carries no identifier. The hub is
the whole broker (`onPeerControl_handles` says what of it matters here), the
agent runs its `TransactionRunner`, whose other events may come at any time.

Each message carries, for the proof, the number of the begin it is about: the
client numbers its begins, whatever the hub sends carries the number of the
message it handles, the agent answers with the number of the begin it answers.

If the hub has granted the transaction when the abort reaches it, or grants it
before, the abort does not cancel it: the hub relays it without an identifier,
the runner ignores it, and the client's next begin takes the old grant
(`abort_crosses_grant`). Without such a crossing a cancelled begin leaves
nothing behind.

Key theorems:
- `step_inv`, `run_inv`: where a cancelled begin can still be.
- `cancelled_leaves_no_orphan`: when everything has been delivered, nowhere.
-/
import CanHub.Agent.Status
import CanHub.Agent.Uplink
import CanHub.Client.Client
import CanHub.Hub.Exchange

namespace CanHub

open List Run
namespace Cancel

/-! ### Messages -/

def isBegin : ControlMessage → Bool
  | .txnBegin _ => true
  | _ => false

def isAck : ControlMessage → Bool
  | .txnBeginAck _ => true
  | _ => false

/-- The abort of a transaction whose acknowledgement the client has not read. -/
def isCancel : ControlMessage → Bool
  | .txnAbort m => m.txnId = noTxnId
  | _ => false

/-- The agent has taken the transaction. -/
def isAccept : ControlMessage → Bool
  | .txnBeginAck ack => ack.status = TxnBeginStatus.ok.code
  | _ => false

/-- The agent has taken the transaction, under this identifier. -/
def accepts (txnId : UInt16) : ControlMessage → Bool
  | .txnBeginAck ack => ack.status = TxnBeginStatus.ok.code ∧ ack.txnId = txnId
  | _ => false

def isRelayedBegin : HubMessage → Bool
  | .txnBegin _ => true
  | _ => false

/-- An acknowledgement the client takes for a grant. -/
def isGrant : HubMessage → Bool
  | .txnBeginAck ack => ack.status = TxnBeginStatus.ok.code
  | _ => false

def aborts (txnId : UInt16) : HubMessage → Bool
  | .txnAbort m => m.txnId = txnId
  | _ => false

/-! ### The system -/

structure System where
  client : Client
  hub : Broker
  agent : Agent
  /-- from the client to the hub, oldest first -/
  up : List (ControlMessage × ℕ) := []
  /-- from the hub to the agent -/
  down : List (HubMessage × ℕ) := []
  /-- from the agent to the hub -/
  back : List (ControlMessage × ℕ) := []
  /-- from the hub to the client -/
  answers : List (HubMessage × ℕ) := []
  /-- begins the client has sent, and so the number of the last -/
  begun : ℕ := 0
  /-- begins aborted before the acknowledgement was read -/
  cancelled : List ℕ := []
  /-- the begin that opened the agent's entry -/
  entryOf : ℕ := 0
  /-- the begin the runner last took -/
  runnerOf : ℕ := 0
  /-- the begin whose acknowledgement the sender last took for a grant -/
  grantedBy : ℕ := 0

inductive Event
  | begin (b : TxnBeginMessage)
  | abort
  | hubReadsClient (answer : ℕ → Bool) (nowUs : ℕ)
  | hubReadsAgent (answer : ℕ → Bool) (nowUs : ℕ)
  | agentReads (nowUs : ℕ)
  | clientReads
  | runner (e : RunnerEvent)

/-- The messages for one peer. -/
def messagesTo (peerId : UInt32) (sent : List (UInt32 × HubMessage)) : List HubMessage :=
  (sent.filter (·.1 = peerId)).map (·.2)

/-- The status messages of the runner that have an encoding. -/
def newStatuses (r r' : TransactionRunner) : List TxnStatusMessage :=
  ((r'.port.log.drop r.port.log.length).filterMap RunnerOutput.report?).filter (·.encode.isSome)

/-- The hub about to handle an event. -/
def System.facing (σ : System) (answer : ℕ → Bool) : Broker :=
  { σ.hub with port := { answer, pinned := fun _ => none, firstContacts := fun _ => 0 } }

section System

variable (p : Pair)

/-- The hub handles a message of a peer, if the transport takes what it sends. -/
def System.serve (σ : System) (peerId : UInt32) (x : ControlMessage × ℕ) (answer : ℕ → Bool) (nowUs : ℕ) :
    Option System :=
  if (σ.facing answer).lossless peerId x.1 nowUs then
    let hub := (σ.facing answer).onPeerControl peerId x.1 nowUs
    some { σ with
      hub
      down := σ.down ++ (messagesTo p.agentId (txnSent hub.port.log)).map (·, x.2)
      answers := σ.answers ++ (messagesTo p.clientId (txnSent hub.port.log)).map (·, x.2) }
  else none

/-- The agent after an operation of its runner, whose statuses go to the hub. -/
def System.withAgent (σ : System) (agent : Agent) : System :=
  { σ with
    agent
    back := σ.back ++ (newStatuses σ.agent.transactions agent.transactions).map (.txnStatus ·, σ.runnerOf) }

def step (σ : System) : Event → System
  | .begin b =>
    match σ.client.beginTransaction b true with
    | none => σ
    | some (client, m) =>
      { σ with client, up := σ.up ++ [(.txnBegin m, σ.begun + 1)], begun := σ.begun + 1 }
  | .abort =>
    match σ.client.abortTransaction with
    | (_, none) => σ
    | (client, some m) =>
      { σ with
        client
        up := σ.up ++ [(.txnAbort m, σ.begun)]
        cancelled := if σ.client.transaction.state = .beginning then σ.begun :: σ.cancelled else σ.cancelled }
  | .hubReadsClient answer nowUs =>
    match σ.up with
    | [] => σ
    | x :: up =>
      match { σ with up }.serve p p.clientId x answer nowUs with
      | none => σ
      | some σ' => { σ' with entryOf := if σ.hub.relayed p = .none then x.2 else σ.entryOf }
  | .hubReadsAgent answer nowUs =>
    match σ.back with
    | [] => σ
    | x :: back => ({ σ with back }.serve p p.agentId x answer nowUs).getD σ
  | .agentReads nowUs =>
    match σ.down with
    | [] => σ
    | (.txnBegin b, k) :: down =>
      let (agent, ack) := σ.agent.handleTxnBegin b nowUs
      { σ with
        down, agent
        back := σ.back ++ ack.toList.map (.txnBeginAck ·, k)
        runnerOf := if σ.agent.transactions.active then σ.runnerOf else k }
    | (.txnAbort m, _) :: down => { σ with down }.withAgent (σ.agent.handleTxnAbort m)
    | _ :: down => { σ with down }
  | .clientReads =>
    match σ.answers with
    | [] => σ
    | (m, k) :: answers =>
      let client := σ.client.onControl m
      { σ with
        client, answers
        grantedBy :=
          if σ.client.transaction.state = .beginning ∧ client.transaction.state = .running then k else σ.grantedBy }
  | .runner (.begin ..) => σ
  | .runner e => σ.withAgent (σ.agent.withTransactions (σ.agent.transactions.handle e))

/-- The abort of a begin and its grant are not on their way at once: the client
does not abort while the grant is coming, and the hub does not grant while the
abort is coming. -/
def NoCrossing (σ : System) : Event → Prop
  | .abort => σ.client.transaction.state = .beginning → ∀ x ∈ σ.answers, isGrant x.1 → x.2 ≠ σ.begun
  | .hubReadsAgent _ _ => σ.hub.relayed p = .pending true →
      ∀ x ∈ σ.back.head?, isAccept x.1 → ∀ y ∈ σ.up, isCancel y.1 → y.2 ≠ x.2
  | _ => True

instance (σ : System) : ∀ e, Decidable (NoCrossing p σ e)
  | .abort => inferInstanceAs (Decidable (_ → ∀ x ∈ σ.answers, _))
  | .hubReadsAgent _ _ => inferInstanceAs (Decidable (_ → ∀ x ∈ σ.back.head?, _))
  | .begin _ | .hubReadsClient _ _ | .agentReads _ | .clientReads | .runner _ => .isTrue trivial

end System

/-- Everything has been delivered. -/
def System.Quiet (σ : System) : Prop := σ.up = [] ∧ σ.down = [] ∧ σ.back = [] ∧ σ.answers = []

instance (σ : System) : Decidable σ.Quiet := inferInstanceAs (Decidable (_ ∧ _))

/-! ### What the hub does with a message -/

variable {p : Pair} {σ : System}

theorem messagesTo_agent {a c : UInt32} (h : a ≠ c) (A C : List HubMessage) :
    messagesTo a (A.map (a, ·) ++ C.map (c, ·)) = A := by
  simp [messagesTo, filter_map, Function.comp_def, h.symm]

theorem messagesTo_client {a c : UInt32} (h : a ≠ c) (A C : List HubMessage) :
    messagesTo c (A.map (a, ·) ++ C.map (c, ·)) = C := by
  simp [messagesTo, filter_map, Function.comp_def, h]

/-- The system after the hub handled a message numbered `k`. -/
def System.handled (σ : System) (hub : Broker) (k : ℕ) (toAgent toClient : List HubMessage) : System :=
  { σ with hub, down := σ.down ++ toAgent.map (·, k), answers := σ.answers ++ toClient.map (·, k) }

variable {x : ControlMessage × ℕ} {peerId : UInt32}

theorem serve_cases (h : Attends p σ.hub) (hx : p.Sends peerId x.1)
    (answer : ℕ → Bool) (nowUs : ℕ) :
    σ.serve p peerId x answer nowUs = none
    ∨ ∃ hub toAgent toClient, Handles p (σ.hub.relayed p) x.1 (hub.relayed p) toAgent toClient ∧ Attends p hub
        ∧ σ.serve p peerId x answer nowUs = some (σ.handled hub x.2 toAgent toClient) := by
  have hfacing : Attends p (σ.facing answer) := ⟨h.agent, h.agentRole, h.agentSound, h.client, h.clientRole,
    h.clientSound, h.noClient, h.opens, h.serves⟩
  unfold System.serve
  by_cases hl : (σ.facing answer).lossless peerId x.1 nowUs
  · obtain ⟨toAgent, toClient, hhandles, hattends, hsent⟩ := onPeerControl_handles hfacing hx nowUs rfl hl
    refine .inr ⟨_, toAgent, toClient, hhandles, hattends, ?_⟩
    rw [if_pos hl]
    dsimp only
    rw [hsent, messagesTo_agent h.agent_ne_client, messagesTo_client h.agent_ne_client]
    rfl
  · exact .inl (if_neg hl)

/-! ### The invariant -/

/-- Later messages of the client are about later begins, or the same. -/
def Behind (x y : ControlMessage × ℕ) : Prop := x.2 ≤ y.2 ∧ (isBegin y.1 → x.2 < y.2)

/-- The begins relayed to the agent, and its acknowledgements, by number. -/
def System.tokens (σ : System) : List ℕ :=
  (σ.down.filter (isRelayedBegin ·.1)).map (·.2) ++ (σ.back.filter (isAck ·.1)).map (·.2)

/-- What the queues and the numbers are like. -/
structure Wired (p : Pair) (σ : System) : Prop where
  attends : Attends p σ.hub
  running : σ.agent.state = .running
  channel : σ.client.channel = p.channel
  beginning : σ.client.transaction.state = .beginning →
    σ.client.transaction.txnId = noTxnId ∧ σ.client.transaction.channel = p.channel
  fromClient : ∀ x ∈ σ.up, p.Sends p.clientId x.1
  fromAgent : ∀ x ∈ σ.back, p.Sends p.agentId x.1
  grants : ∀ ack k, (.txnBeginAck ack, k) ∈ σ.answers → ack.channel = p.channel
  order : σ.up.Pairwise Behind
  sent : ∀ x ∈ σ.up, x.2 ≤ σ.begun
  cancelled : ∀ k ∈ σ.cancelled, k ≤ σ.begun
  entryOf : σ.entryOf ≤ σ.begun
  runnerOf : σ.runnerOf ≤ σ.begun
  /-- the first begin is number one -/
  numbered : ∀ x ∈ σ.up, isBegin x.1 → 0 < x.2
  entryPos : σ.hub.relayed p ≠ .none → 0 < σ.entryOf
  runnerPos : σ.agent.transactions.active = true → 0 < σ.runnerOf
  /-- a pending entry is in the agent's hands, once; otherwise nothing is -/
  tokens : σ.tokens = match σ.hub.relayed p with
    | .pending _ => [σ.entryOf]
    | _ => []

/-- The client waits for the acknowledgement of this begin. -/
def System.Awaits (σ : System) (k : ℕ) : Prop := σ.client.transaction.state = .beginning ∧ σ.begun = k

/-- A grant of this begin is on its way to the client. -/
def System.Granting (σ : System) (k : ℕ) : Prop := ∃ x ∈ σ.answers, isGrant x.1 ∧ x.2 = k

/-- The abort of this begin is on its way to the hub. -/
def System.Cancelling (σ : System) (k : ℕ) : Prop := ∃ y ∈ σ.up, isCancel y.1 ∧ y.2 = k

/-- Where a cancelled begin can still be, and the one the client waits for. -/
structure Inv (p : Pair) (σ : System) : Prop extends Wired p σ where
  /-- a grant the client waits for is on its way -/
  granted : ∀ txnId, σ.hub.relayed p = .active txnId → σ.Awaits σ.entryOf → σ.Granting σ.entryOf
  notGranting : ∀ k ∈ σ.cancelled, ¬ σ.Granting k
  /-- the entry of a cancelled begin is waited for by nobody once the abort has arrived -/
  entry : σ.entryOf ∈ σ.cancelled → σ.hub.relayed p = .none ∨ σ.hub.relayed p = .pending false
    ∨ (σ.hub.relayed p = .pending true ∧ σ.Cancelling σ.entryOf)
  /-- the abort is behind its begin -/
  behind : ∀ k ∈ σ.cancelled, (∀ y ∈ σ.up, isBegin y.1 → y.2 ≠ k) ∨ σ.Cancelling k
  /-- a transaction of the runner is being acknowledged, aborted or granted -/
  runner : σ.agent.transactions.active = true → σ.runnerOf ∈ σ.cancelled ∨ σ.Awaits σ.runnerOf →
    ((∃ awaited, σ.hub.relayed p = .pending awaited)
      ∧ ∃ x ∈ σ.back, accepts σ.agent.transactions.txnId x.1 ∧ x.2 = σ.runnerOf)
    ∨ (∃ x ∈ σ.down, aborts σ.agent.transactions.txnId x.1)
    ∨ (σ.runnerOf ∉ σ.cancelled ∧ σ.Granting σ.runnerOf)
  /-- the sender runs on no grant of a cancelled begin -/
  grantedBy : σ.client.transaction.state = .running → σ.grantedBy ∉ σ.cancelled

/-! ### The client -/

theorem beginTransaction_some {c c' : Client} {b m : TxnBeginMessage} {taken : Bool}
    (h : c.beginTransaction b taken = some (c', m)) :
    c' = { c with transaction := .beginOn c.channel } ∧ m.channel = c.channel := by
  unfold Client.beginTransaction at h
  split at h
  · cases h
  split at h
  · cases h
  split at h
  · cases h
  · cases h
    exact ⟨rfl, rfl⟩

variable {up : List (ControlMessage × ℕ)}

/-- A message sent behind the others. -/
theorem order_snoc (h : up.Pairwise Behind)
    (hx : ∀ y ∈ up, Behind y x) : (up ++ [x]).Pairwise Behind := by
  refine pairwise_append.mpr ⟨h, pairwise_singleton _ _, fun y hy z hz => ?_⟩
  rw [mem_singleton.mp hz]
  exact hx y hy

theorem forall_snoc {α : Type} {l : List α} {a : α} {P : α → Prop} (h : ∀ x ∈ l, P x) (ha : P a) :
    ∀ x ∈ l ++ [a], P x := by
  intro x hx
  rcases mem_append.mp hx with hx | hx
  · exact h x hx
  · rw [mem_singleton.mp hx]
    exact ha

/-- One of a queue that is not the one read is still there. -/
theorem exists_tail {α : Type} {l l' : List α} {a : α} {P : α → Prop} (hl : l = a :: l') (ha : ¬ P a)
    (h : ∃ x ∈ l, P x) : ∃ x ∈ l', P x := by
  obtain ⟨x, hx, hp⟩ := h
  rw [hl] at hx
  rcases mem_cons.mp hx with rfl | hx
  · exact absurd hp ha
  · exact ⟨x, hx, hp⟩

theorem System.Cancelling.snoc {σ' : System} {k : ℕ} (hup : σ'.up = σ.up ++ [x]) (h : σ.Cancelling k) : σ'.Cancelling k := by
  obtain ⟨y, hy, hyk⟩ := h
  exact ⟨y, hup ▸ mem_append_left _ hy, hyk⟩

theorem begin_inv (h : Inv p σ) (b : TxnBeginMessage) : Inv p (step p σ (.begin b)) := by
  simp only [step]
  cases hb : σ.client.beginTransaction b true with
  | none => exact h
  | some r =>
    obtain ⟨client, m⟩ := r
    obtain ⟨rfl, hm⟩ := beginTransaction_some hb
    have hnew : ∀ k, k ≤ σ.begun → k ≠ σ.begun + 1 := fun k hk => by omega
    refine { h with
      beginning := fun _ => ⟨rfl, h.channel⟩
      fromClient := forall_snoc h.fromClient (.txnBegin (hm.trans h.channel))
      order := order_snoc h.order fun y hy => ?_
      sent := forall_snoc (fun x hx => (h.sent x hx).trans (Nat.le_succ _)) le_rfl
      cancelled := fun k hk => (h.cancelled k hk).trans (Nat.le_succ _)
      entryOf := h.entryOf.trans (Nat.le_succ _), runnerOf := h.runnerOf.trans (Nat.le_succ _)
      numbered := forall_snoc h.numbered fun _ => Nat.succ_pos _
      granted := fun id hid ha => ?_, entry := fun hk => ?_
      behind := fun k hk => ?_, runner := fun hact hk => ?_, grantedBy := fun hr => nomatch hr }
    · have := h.sent y hy
      exact ⟨this.trans (Nat.le_succ _), fun _ => Nat.lt_succ_of_le this⟩
    · -- the new begin is not the entry's
      exact absurd ha.2.symm (hnew _ h.entryOf)
    · exact (h.entry hk).imp_right fun hn => hn.imp_right fun hn => ⟨hn.1, hn.2.snoc rfl⟩
    · exact (h.behind k hk).imp (fun hnone => forall_snoc hnone fun _ => (hnew _ (h.cancelled k hk)).symm) (.snoc rfl)
    · rcases hk with hk | ha
      · exact h.runner hact (.inl hk)
      · exact absurd ha.2.symm (hnew _ h.runnerOf)

/-- What aborting does: nothing, or an abort of the running transaction, or of
the begin that is not answered yet. -/
theorem abortTransaction_cases (c : Client) :
    c.abortTransaction = (c, none)
    ∨ (c.transaction.state = .running ∧ c.abortTransaction = (c, some ⟨c.channel, c.transaction.txnId⟩))
    ∨ (c.transaction.state = .beginning
        ∧ c.abortTransaction = ({ c with transaction := .reset }, some ⟨c.channel, c.transaction.txnId⟩)) := by
  unfold Client.abortTransaction Client.isTransactionRunning
  cases hs : c.transaction.state with
  | idle => simp
  | finished => simp
  | running => simp
  | beginning => simp

theorem abort_inv (h : Inv p σ) (hno : NoCrossing p σ .abort) : Inv p (step p σ .abort) := by
  simp only [step]
  rcases abortTransaction_cases σ.client with he | ⟨hs, he⟩ | ⟨hs, he⟩
  · rw [he]
    exact h
  · -- of a running transaction: only a message more
    rw [he]
    have hb : ¬ σ.client.transaction.state = .beginning := by simp [hs]
    simp only [if_neg hb]
    refine { h with
      fromClient := forall_snoc h.fromClient (.txnAbort h.channel)
      order := order_snoc h.order fun y hy => ⟨h.sent y hy, fun hbegin => nomatch hbegin⟩
      sent := forall_snoc h.sent le_rfl
      numbered := forall_snoc h.numbered fun hbegin => nomatch hbegin
      entry := fun hk => ?_, behind := fun k hk => ?_ }
    · exact (h.entry hk).imp_right fun hn => hn.imp_right fun hn => ⟨hn.1, hn.2.snoc rfl⟩
    · exact (h.behind k hk).imp (fun hnone => forall_snoc hnone fun hbegin => nomatch hbegin) (.snoc rfl)
  · rw [he]
    simp only [if_pos hs]
    have hcancel : isCancel (.txnAbort ⟨σ.client.channel, σ.client.transaction.txnId⟩) := by
      simp [isCancel, (h.beginning hs).1]
    have hnot : ¬ σ.Granting σ.begun := fun ⟨x, hx, hg, hk⟩ => hno hs x hx hg hk
    have hnew : System.Cancelling { σ with up := σ.up ++ [(.txnAbort ⟨σ.client.channel, σ.client.transaction.txnId⟩,
        σ.begun)] } σ.begun := ⟨_, mem_append_right _ (mem_singleton.mpr rfl), hcancel, rfl⟩
    refine { h with
      beginning := fun hb => nomatch hb
      fromClient := forall_snoc h.fromClient (.txnAbort h.channel)
      order := order_snoc h.order fun y hy => ⟨h.sent y hy, fun hbegin => nomatch hbegin⟩
      sent := forall_snoc h.sent le_rfl
      cancelled := forall_mem_cons.mpr ⟨le_rfl, h.cancelled⟩
      numbered := forall_snoc h.numbered fun hbegin => nomatch hbegin
      granted := fun id hid ha => nomatch ha.1
      notGranting := forall_mem_cons.mpr ⟨hnot, h.notGranting⟩
      entry := fun hk => ?_, behind := forall_mem_cons.mpr ⟨.inr hnew, fun k hk => ?_⟩
      runner := fun hact hk => ?_, grantedBy := fun hr => nomatch hr }
    · rcases mem_cons.mp hk with hk | hk
      · -- the entry of the begin just cancelled is not granted
        cases hv : σ.hub.relayed p with
        | none => exact .inl rfl
        | active id =>
          refine absurd (h.granted id hv ⟨hs, hk.symm⟩) ?_
          rw [hk]
          exact hnot
        | pending awaited =>
          cases awaited with
          | false => exact .inr (.inl rfl)
          | true =>
            refine .inr (.inr ⟨rfl, ?_⟩)
            rw [hk]
            exact hnew
      · exact (h.entry hk).imp_right fun hn => hn.imp_right fun hn => ⟨hn.1, hn.2.snoc rfl⟩
    · exact (h.behind k hk).imp (fun hnone => forall_snoc hnone fun hbegin => nomatch hbegin) (.snoc rfl)
    · have hbefore : σ.runnerOf ∈ σ.cancelled ∨ σ.Awaits σ.runnerOf := by
        rcases hk with hk | hk
        · rcases mem_cons.mp hk with hk | hk
          · exact .inr ⟨hs, hk.symm⟩
          · exact .inl hk
        · exact nomatch hk.1
      rcases h.runner hact hbefore with hback | hdown | ⟨hnc, hgrant⟩
      · exact .inl hback
      · exact .inr (.inl hdown)
      · rcases hbefore with hk | ⟨-, hk⟩
        · exact absurd hk hnc
        · rw [← hk] at hgrant
          exact absurd hgrant hnot

/-- What reading a message does to the sender: nothing, a grant taken, or an end. -/
theorem onControl_cases (c : Client) (m : HubMessage) :
    (c.onControl m).channel = c.channel
    ∧ ((c.onControl m).transaction = c.transaction
      ∨ (c.transaction.state = .beginning ∧ isGrant m ∧ (c.onControl m).transaction.state = .running)
      ∨ (c.transaction.state = .running ∧ (c.onControl m).transaction.state = .running)
      ∨ (c.onControl m).transaction.state = .finished) := by
  cases m with
  | txnBeginAck ack =>
    refine ⟨rfl, ?_⟩
    simp only [Client.onControl, TransactionSender.onBeginAck]
    split
    · exact .inl rfl
    · rename_i hs
      split
      · exact .inr (.inr (.inr rfl))
      · rename_i hok
        exact .inr (.inl ⟨by tauto, by simpa [isGrant] using hok, rfl⟩)
  | txnProgress q =>
    refine ⟨rfl, ?_⟩
    simp only [Client.onControl, TransactionSender.onProgress]
    split
    · exact .inl rfl
    · rename_i hs
      have hrun : c.transaction.state = .running := by tauto
      exact .inr (.inr (.inl ⟨hrun, hrun⟩))
  | txnStatus q =>
    refine ⟨rfl, ?_⟩
    simp only [Client.onControl, TransactionSender.onStatus]
    split
    · exact .inl rfl
    split
    · exact .inl rfl
    split
    · exact .inl rfl
    · exact .inr (.inr (.inr rfl))
  | _ => exact ⟨rfl, .inl rfl⟩

/-- A client that still waits has read nothing that concerns it. -/
theorem onControl_beginning {c : Client} {m : HubMessage} (h : (c.onControl m).transaction.state = .beginning) :
    (c.onControl m).transaction = c.transaction := by
  rcases (onControl_cases c m).2 with he | ⟨-, -, hr⟩ | ⟨-, hr⟩ | hf
  · exact he
  · rw [hr] at h; cases h
  · rw [hr] at h; cases h
  · rw [hf] at h; cases h

variable {ack : TxnBeginAckMessage} {agent : Agent}

/-- A grant is taken by the client that waits. -/
theorem onControl_grant {c : Client} (hs : c.transaction.state = .beginning)
    (hch : ack.channel = c.transaction.channel) (hok : isGrant (.txnBeginAck ack)) :
    (c.onControl (.txnBeginAck ack)).transaction.state = .running := by
  have hok' : ack.status = TxnBeginStatus.ok.code := by simpa [isGrant] using hok
  simp [Client.onControl, TransactionSender.onBeginAck, hs, hch, hok']

/-- While the client waits, the grants on their way stay. -/
theorem granting_tail (h : Wired p σ) {m : HubMessage} {j k : ℕ} {answers : List (HubMessage × ℕ)}
    (hans : σ.answers = (m, j) :: answers) (hs : (σ.client.onControl m).transaction.state = .beginning)
    (hg : σ.Granting k) : ∃ x ∈ answers, isGrant x.1 ∧ x.2 = k := by
  obtain ⟨x, hx, hgrant, hk⟩ := hg
  rw [hans] at hx
  rcases mem_cons.mp hx with rfl | hx
  · have hbefore := hs
    rw [onControl_beginning hs] at hbefore
    cases m with
    | txnBeginAck ack =>
      have hch := h.grants ack j (by rw [hans]; exact mem_cons_self)
      have hrun := onControl_grant hbefore (hch.trans (h.beginning hbefore).2.symm) hgrant
      rw [hs] at hrun
      cases hrun
    | _ => cases hgrant
  · exact ⟨x, hx, hgrant, hk⟩

theorem clientReads_inv (h : Inv p σ) : Inv p (step p σ .clientReads) := by
  simp only [step]
  cases hans : σ.answers with
  | nil => exact h
  | cons x answers =>
    obtain ⟨m, k⟩ := x
    have hmem : ∀ {y}, y ∈ answers → y ∈ σ.answers := fun hy => by rw [hans]; exact mem_cons_of_mem _ hy
    have hhead : (m, k) ∈ σ.answers := by rw [hans]; exact mem_cons_self
    obtain ⟨hchannel, hcases⟩ := onControl_cases σ.client m
    have hawaits : ∀ {j}, (σ.client.onControl m).transaction.state = .beginning ∧ σ.begun = j → σ.Awaits j := by
      rintro j ⟨hs, hj⟩
      rw [onControl_beginning hs] at hs
      exact ⟨hs, hj⟩
    refine { h with
      channel := hchannel.trans h.channel, beginning := fun hb => ?_
      grants := fun ack j hj => h.grants ack j (hmem hj), granted := fun id hid ha => ?_
      notGranting := fun j hj ⟨x, hx, hg⟩ => h.notGranting j hj ⟨x, hmem hx, hg⟩
      runner := fun hact hk => ?_, grantedBy := fun hr => ?_ }
    · have hs := hb
      rw [onControl_beginning hb] at hs
      rw [onControl_beginning hb]
      exact h.beginning hs
    · exact granting_tail h.toWired hans ha.1 (h.granted id hid (hawaits ha))
    · have hbefore : σ.runnerOf ∈ σ.cancelled ∨ σ.Awaits σ.runnerOf := hk.imp_right hawaits
      rcases h.runner hact hbefore with hback | hdown | ⟨hnc, hgrant⟩
      · exact .inl hback
      · exact .inr (.inl hdown)
      · rcases hk with hk | hk
        · exact absurd hk hnc
        · exact .inr (.inr ⟨hnc, granting_tail h.toWired hans hk.1 hgrant⟩)
    · -- a grant just taken is not of a cancelled begin
      dsimp only at hr ⊢
      split
      · rename_i hboth
        intro hk
        refine h.notGranting k hk ⟨(m, k), hhead, ?_, rfl⟩
        rcases hcases with he | ⟨-, hg, -⟩ | ⟨hrun, -⟩ | hf
        · rw [he, hboth.1] at hr; cases hr
        · exact hg
        · rw [hboth.1] at hrun; cases hrun
        · rw [hr] at hf; cases hf
      · rename_i hnot
        refine h.grantedBy ?_
        rcases hcases with he | ⟨hs, -, -⟩ | ⟨hrun, -⟩ | hf
        · rw [← he]; exact hr
        · exact absurd ⟨hs, hr⟩ hnot
        · exact hrun
        · rw [hr] at hf; cases hf

/-! ### The agent -/

theorem filter_statuses (l : List TxnStatusMessage) (k : ℕ) :
    (l.map fun m => (ControlMessage.txnStatus m, k)).filter (isAck ·.1) = [] := by
  rw [filter_eq_nil_iff]
  intro x hx
  obtain ⟨m, -, rfl⟩ := mem_map.mp hx
  exact Bool.false_ne_true

theorem withAgent_self (σ : System) : σ.withAgent σ.agent = σ := by
  simp [System.withAgent, newStatuses]

/-- An operation of the runner that begins nothing, after the abort it may answer
has been read. -/
theorem withAgent_inv (h : Inv p σ) (down : List (HubMessage × ℕ))
    (hdown : down.filter (isRelayedBegin ·.1) = σ.down.filter (isRelayedBegin ·.1)) (hstate : agent.state = .running)
    (hrunner : agent.transactions.active = true → σ.agent.transactions.active = true
      ∧ agent.transactions.txnId = σ.agent.transactions.txnId
      ∧ ∀ x ∈ σ.down, aborts σ.agent.transactions.txnId x.1 → x ∈ down) :
    Inv p ({ σ with down }.withAgent agent) := by
  have htokens : ({ σ with down }.withAgent agent).tokens = σ.tokens := by
    simp only [System.tokens, System.withAgent, hdown, filter_append, filter_statuses, append_nil]
  refine { h with
    running := hstate, fromAgent := fun x hx => ?_, runnerPos := fun hact => h.runnerPos (hrunner hact).1
    tokens := htokens.trans h.tokens, runner := fun hact hk => ?_ }
  · rcases mem_append.mp hx with hx | hx
    · exact h.fromAgent x hx
    · obtain ⟨m, -, rfl⟩ := mem_map.mp hx
      exact .txnStatus m
  · obtain ⟨hact', hid, hkept⟩ := hrunner hact
    have hid' : ({ σ with down }.withAgent agent).agent.transactions.txnId = σ.agent.transactions.txnId := hid
    rw [hid']
    rcases h.runner hact' hk with ⟨hp, x, hx, ha⟩ | ⟨x, hx, ha⟩ | hgrant
    · exact .inl ⟨hp, x, mem_append_left _ hx, ha⟩
    · exact .inr (.inl ⟨x, hkept x hx ha, ha⟩)
    · exact .inr (.inr hgrant)

theorem runner_inv (h : Inv p σ) (e : RunnerEvent) : Inv p (step p σ (.runner e)) := by
  by_cases hb : ∃ b i nowUs, e = .begin b i nowUs
  · obtain ⟨b, i, nowUs, rfl⟩ := hb
    exact h
  · have he : ∀ b i nowUs, e ≠ .begin b i nowUs := fun b i nowUs he => hb ⟨b, i, nowUs, he⟩
    have hstep : step p σ (.runner e) = σ.withAgent (σ.agent.withTransactions (σ.agent.transactions.handle e)) := by
      cases e with
      | begin b i nowUs => exact absurd rfl (he b i nowUs)
      | _ => rfl
    rw [hstep]
    refine withAgent_inv h σ.down rfl h.running fun hact => ?_
    obtain ⟨hact', hid⟩ := TransactionRunner.handle_active he hact
    exact ⟨hact', hid, fun x hx _ => hx⟩

/-- What `TransactionRunner_Begin` answers: a refusal, or an identifier under which it now runs. -/
theorem begin_cases (r : TransactionRunner) (b : TxnBeginMessage) (i : UInt8) (nowUs : ℕ) :
    (r.begin b i nowUs).1 = r
    ∨ (r.active = false ∧ accepts (r.begin b i nowUs).1.txnId (.txnBeginAck (r.begin b i nowUs).2)) := by
  unfold TransactionRunner.begin
  split
  · exact .inl rfl
  split
  · exact .inl rfl
  · rename_i ha _
    exact .inr ⟨by simpa using ha, by simp [accepts]⟩

/-- The acknowledgement of a begin, and the runner behind it. -/
theorem handleTxnBegin_cases {a : Agent} (ha : a.state = .running) (b : TxnBeginMessage) (nowUs : ℕ) :
    ∃ ack, (a.handleTxnBegin b nowUs).2 = some ack ∧ (a.handleTxnBegin b nowUs).1.state = .running
      ∧ ((a.handleTxnBegin b nowUs).1.transactions = a.transactions
        ∨ (a.transactions.active = false
          ∧ accepts (a.handleTxnBegin b nowUs).1.transactions.txnId (.txnBeginAck ack))) := by
  unfold Agent.handleTxnBegin
  rw [if_neg (by simp [ha])]
  split
  · rename_i i _
    refine ⟨_, rfl, ha, ?_⟩
    exact begin_cases a.transactions b i nowUs
  · exact ⟨_, rfl, ha, .inl rfl⟩

variable {k : ℕ} {down : List (HubMessage × ℕ)}

/-- A begin on its way to the agent belongs to the pending entry. -/
theorem relayedBegin_pending (h : Wired p σ) {m : HubMessage}
    (hdown : σ.down = (m, k) :: down) (hm : isRelayedBegin m) : (∃ awaited, σ.hub.relayed p = .pending awaited)
      ∧ k = σ.entryOf ∧ down.filter (isRelayedBegin ·.1) = [] ∧ σ.back.filter (isAck ·.1) = [] := by
  have ht := h.tokens
  rw [System.tokens, hdown, filter_cons_of_pos (by exact hm), map_cons, cons_append] at ht
  cases hv : σ.hub.relayed p with
  | none => rw [hv] at ht; cases ht
  | active id => rw [hv] at ht; cases ht
  | pending awaited =>
    rw [hv] at ht
    obtain ⟨hk, hnil⟩ := cons.inj ht
    obtain ⟨h1, h2⟩ := append_eq_nil_iff.mp hnil
    exact ⟨⟨awaited, rfl⟩, hk, map_eq_nil_iff.mp h1, map_eq_nil_iff.mp h2⟩

theorem agentBegins_inv (h : Inv p σ) {b : TxnBeginMessage}
    (hdown : σ.down = (.txnBegin b, k) :: down) (nowUs : ℕ) : Inv p (step p σ (.agentReads nowUs)) := by
  obtain ⟨ack, hack, hstate, hrunner⟩ := handleTxnBegin_cases h.running b nowUs
  obtain ⟨hpending, hk, hnone, hback⟩ := relayedBegin_pending h.toWired hdown rfl
  simp only [step, hdown, hack, Option.toList_some, map_cons, map_nil]
  have hrest : ∀ {x}, x ∈ σ.down → aborts σ.agent.transactions.txnId x.1 → x ∈ down := by
    intro x hx ha
    rw [hdown] at hx
    rcases mem_cons.mp hx with rfl | hx
    · cases ha
    · exact hx
  refine { h with
    running := hstate, fromAgent := forall_snoc h.fromAgent (.txnBeginAck ack)
    runnerOf := ?_, runnerPos := fun hact => ?_, tokens := ?_, runner := fun hact hkk => ?_ }
  · dsimp only
    split
    · exact h.runnerOf
    · rw [hk]
      exact h.entryOf
  · dsimp only
    split
    · rename_i hwas
      exact h.runnerPos hwas
    · rw [hk]
      obtain ⟨awaited, hv⟩ := hpending
      exact h.entryPos (by rw [hv]; exact fun he => nomatch he)
  · obtain ⟨awaited, hv⟩ := hpending
    simp only [System.tokens, hnone, filter_append, hback, hv, hk]
    rfl
  · dsimp only at hact hkk ⊢
    by_cases hwas : σ.agent.transactions.active = true
    · -- the runner is busy with another begin
      rw [if_pos hwas] at hkk ⊢
      have hsame : (σ.agent.handleTxnBegin b nowUs).1.transactions = σ.agent.transactions := by
        rcases hrunner with he | ⟨hno, -⟩
        · exact he
        · rw [hwas] at hno; cases hno
      rw [hsame]
      rcases h.runner hwas hkk with ⟨hp, x, hx, ha⟩ | ⟨x, hx, ha⟩ | hgrant
      · exact .inl ⟨hp, x, mem_append_left _ hx, ha⟩
      · exact .inr (.inl ⟨x, hrest hx ha, ha⟩)
      · exact .inr (.inr hgrant)
    · rw [if_neg hwas] at hkk ⊢
      rcases hrunner with he | ⟨-, hacc⟩
      · rw [he] at hact
        exact absurd hact hwas
      · exact .inl ⟨hpending, _, mem_append_right _ (mem_singleton.mpr rfl), hacc, rfl⟩

/-- Aborting the transaction that runs ends it. -/
theorem abort_self {r : TransactionRunner} (h : r.active = true) : (r.abort r.txnId).active = false := by
  simp only [TransactionRunner.abort, h, Bool.not_true, Bool.false_eq_true, ne_eq, not_true_eq_false, or_self, if_false]
  rfl

theorem agentReads_inv (h : Inv p σ) (nowUs : ℕ) : Inv p (step p σ (.agentReads nowUs)) := by
  rcases hdown : σ.down with _ | ⟨⟨m, k⟩, down⟩
  · simp only [step, hdown]
    exact h
  cases m with
  | txnBegin b => exact agentBegins_inv h hdown nowUs
  | txnAbort m =>
    simp only [step, hdown]
    refine withAgent_inv h down (by rw [hdown]; rfl) h.running fun hact => ?_
    obtain ⟨hact', hid⟩ := TransactionRunner.handle_active (s := σ.agent.transactions) (e := .abort m.txnId)
      (fun _ _ _ he => nomatch he) hact
    refine ⟨hact', hid, fun x hx ha => ?_⟩
    rw [hdown] at hx
    rcases mem_cons.mp hx with rfl | hx
    · -- the abort just read is not of this transaction, or it would have ended
      have he : m.txnId = σ.agent.transactions.txnId := by simpa [aborts] using ha
      change (σ.agent.transactions.abort m.txnId).active = true at hact
      rw [he, abort_self hact'] at hact
      cases hact
    · exact hx
  | _ =>
    -- a message the agent ignores
    simp only [step, hdown]
    have hself := withAgent_inv h down (by rw [hdown]; rfl) h.running fun hact => ⟨hact, rfl, fun x hx ha => by
      rw [hdown] at hx
      rcases mem_cons.mp hx with rfl | hx
      · cases ha
      · exact hx⟩
    rwa [withAgent_self] at hself

/-! ### The hub reads from the client -/

/-- The client sends begins and aborts only. -/
theorem sends_client {s : Broker} (h : Attends p s) {m : ControlMessage} (hm : p.Sends peerId m)
    (hp : peerId = p.clientId) : (∃ b, m = .txnBegin b) ∨ ∃ a, m = .txnAbort a := by
  cases hm with
  | txnBegin _ => exact .inl ⟨_, rfl⟩
  | txnAbort _ => exact .inr ⟨_, rfl⟩
  | txnBeginAck _ => exact absurd hp h.agent_ne_client
  | txnStatus _ => exact absurd hp h.agent_ne_client

/-- The agent sends acknowledgements and statuses only. -/
theorem sends_agent {s : Broker} (h : Attends p s) {m : ControlMessage} (hm : p.Sends peerId m)
    (hp : peerId = p.agentId) : (∃ a, m = .txnBeginAck a) ∨ ∃ q, m = .txnStatus q := by
  cases hm with
  | txnBegin _ => exact absurd hp.symm h.agent_ne_client
  | txnAbort _ => exact absurd hp.symm h.agent_ne_client
  | txnBeginAck _ => exact .inl ⟨_, rfl⟩
  | txnStatus _ => exact .inr ⟨_, rfl⟩

/-- Reading a message leaves aborts behind their begins. -/
theorem behind_tail (h : Inv p σ) (hup : σ.up = x :: up)
    (hk : k ∈ σ.cancelled) : (∀ y ∈ up, isBegin y.1 → y.2 ≠ k) ∨ ∃ y ∈ up, isCancel y.1 ∧ y.2 = k := by
  have horder := h.order
  rw [hup, pairwise_cons] at horder
  rcases h.behind k hk with hnone | ⟨y, hy, hcancel, hyk⟩
  · exact .inl fun y hy => hnone y (by rw [hup]; exact mem_cons_of_mem _ hy)
  · rw [hup] at hy
    rcases mem_cons.mp hy with rfl | hy
    · refine .inl fun z hz hbegin => ?_
      have := (horder.1 z hz).2 hbegin
      omega
    · exact .inr ⟨y, hy, hcancel, hyk⟩

variable {toAgent toClient : List HubMessage} {hub : Broker}

section Handles

variable {v v' : Relayed} {m : ControlMessage} (h : Handles p v m v' toAgent toClient)
include h

/-- An acknowledgement to the client is on its channel. -/
theorem handles_channel : ∀ ack, .txnBeginAck ack ∈ toClient → ack.channel = p.channel := by
  intro ack hack
  cases h with
  | refuse => cases mem_singleton.mp hack; rfl
  | grant => cases mem_singleton.mp hack; rfl
  | agentRefuses awaited =>
    cases awaited with
    | false => cases hack
    | true => cases mem_singleton.mp hack; rfl
  | finish => cases mem_singleton.mp hack
  | _ => cases hack

/-- Only a begin opens an entry. -/
theorem handles_opens (hv : v = .none) (hv' : v' ≠ .none) : isBegin m := by
  cases h <;> first | rfl | contradiction

/-- Without an acknowledgement nothing is granted or leaves the agent's hands. -/
theorem handles_other (hm : isAck m = false) : (∀ m' ∈ toClient, isGrant m' = false)
    ∧ (∀ a, v = .pending a → ∃ a', v' = .pending a') ∧ ∀ id, v' = .active id → v = .active id := by
  cases h <;> simp_all [isAck, isGrant]

end Handles

/-- After the hub has read a message of the client, it is left to say what became
of the entry and of the begins in the agent's hands. -/
theorem clientMessage_inv (h : Inv p σ) (hup : σ.up = x :: up) (hattends : Attends p hub)
    (hh : Handles p (σ.hub.relayed p) x.1 (hub.relayed p) toAgent toClient) (hx : isAck x.1 = false)
    (htokens : ({ σ with up }.handled hub x.2 toAgent toClient).tokens = match hub.relayed p with
      | .pending _ => [if σ.hub.relayed p = .none then x.2 else σ.entryOf]
      | _ => [])
    (hentry : (if σ.hub.relayed p = .none then x.2 else σ.entryOf) ∈ σ.cancelled → hub.relayed p = .none
      ∨ hub.relayed p = .pending false ∨ (hub.relayed p = .pending true
        ∧ ∃ y ∈ up, isCancel y.1 ∧ y.2 = if σ.hub.relayed p = .none then x.2 else σ.entryOf)) :
    Inv p { { σ with up }.handled hub x.2 toAgent toClient with
      entryOf := if σ.hub.relayed p = .none then x.2 else σ.entryOf } := by
  have hmem : ∀ {y}, y ∈ up → y ∈ σ.up := fun hy => by rw [hup]; exact mem_cons_of_mem _ hy
  have hhead : x ∈ σ.up := by rw [hup]; exact mem_cons_self
  have horder := h.order
  rw [hup, pairwise_cons] at horder
  obtain ⟨hgrant, hpending, hactive⟩ := handles_other hh hx
  -- the hub grants nothing to a message of the client
  have hnew : ∀ {k}, (∃ y ∈ σ.answers ++ toClient.map (·, x.2), isGrant y.1 ∧ y.2 = k) → σ.Granting k := by
    rintro k ⟨y, hy, hg, hk⟩
    rcases mem_append.mp hy with hy | hy
    · exact ⟨y, hy, hg, hk⟩
    · obtain ⟨m, hm, rfl⟩ := mem_map.mp hy
      rw [hgrant m hm] at hg
      cases hg
  have hold : ∀ {k}, σ.Granting k → ∃ y ∈ σ.answers ++ toClient.map (·, x.2), isGrant y.1 ∧ y.2 = k :=
    fun ⟨y, hy, hg⟩ => ⟨y, mem_append_left _ hy, hg⟩
  refine { h with
    attends := hattends, fromClient := fun y hy => h.fromClient y (hmem hy)
    grants := fun ack j hj => ?_, order := horder.2, sent := fun y hy => h.sent y (hmem hy), entryOf := ?_
    numbered := fun y hy => h.numbered y (hmem hy), entryPos := fun hne => ?_, tokens := htokens
    granted := fun id hid ha => ?_, notGranting := fun k hk hg => h.notGranting k hk (hnew hg), entry := hentry
    behind := fun k hk => behind_tail h hup hk, runner := fun hact hk => ?_ }
  · rcases mem_append.mp hj with hj | hj
    · exact h.grants ack j hj
    · obtain ⟨m, hm, he⟩ := mem_map.mp hj
      cases he
      exact handles_channel hh ack hm
  · dsimp only
    split
    · exact h.sent x hhead
    · exact h.entryOf
  · dsimp only
    split
    · rename_i hnone
      exact h.numbered x hhead (handles_opens hh hnone hne)
    · rename_i hsome
      exact h.entryPos hsome
  · have hv := hactive id hid
    dsimp only at ha ⊢
    rw [if_neg (by rw [hv]; exact fun h => nomatch h)] at ha ⊢
    exact hold (h.granted id hv ha)
  · rcases h.runner hact hk with ⟨⟨a, ha⟩, hback⟩ | ⟨y, hy, hab⟩ | ⟨hnc, hg⟩
    · exact .inl ⟨hpending a ha, hback⟩
    · exact .inr (.inl ⟨y, mem_append_left _ hy, hab⟩)
    · exact .inr (.inr ⟨hnc, hold hg⟩)

/-- The tokens when the agent is told nothing that is a begin. -/
theorem tokens_handled
    (h : ∀ m ∈ toAgent, isRelayedBegin m = false) : (σ.handled hub k toAgent toClient).tokens = σ.tokens := by
  have hnone : (toAgent.map (·, k)).filter (isRelayedBegin ·.1) = [] := by
    rw [filter_eq_nil_iff]
    intro x hx
    obtain ⟨m, hm, rfl⟩ := mem_map.mp hx
    simp [h m hm]
  simp only [System.tokens, System.handled, filter_append, hnone, append_nil]

theorem hubReadsBegin_inv (h : Inv p σ) {b : TxnBeginMessage}
    (hup : σ.up = (.txnBegin b, k) :: up)
    (hh : Handles p (σ.hub.relayed p) (.txnBegin b) (hub.relayed p) toAgent toClient) (hattends : Attends p hub) :
    Inv p { { σ with up }.handled hub k toAgent toClient with
      entryOf := if σ.hub.relayed p = .none then k else σ.entryOf } := by
  have hcancel : ∀ {j}, σ.Cancelling j → ∃ y ∈ up, isCancel y.1 ∧ y.2 = j := exists_tail hup fun hc => nomatch hc.1
  have htokens := h.tokens
  have hentry := h.entry
  refine clientMessage_inv h hup hattends hh rfl ?_ ?_ <;>
    generalize σ.hub.relayed p = v at hh htokens hentry ⊢ <;> generalize hub.relayed p = v' at hh ⊢
  · cases hh with
    | refuse =>
      rw [tokens_handled (by simp)]
      refine Eq.trans (b := σ.tokens) rfl (htokens.trans ?_)
      cases v <;> rfl
    | openEntry _ channel =>
      obtain ⟨h1, h2⟩ := append_eq_nil_iff.mp htokens
      simp only [System.tokens, System.handled, filter_append, map_append, h1, h2]
      rfl
  · intro hk
    cases hh with
    | refuse =>
      by_cases hnone : v = .none
      · exact .inl hnone
      · rw [if_neg hnone] at hk ⊢
        exact (hentry hk).imp_right fun hn => hn.imp_right fun hn => ⟨hn.1, hcancel hn.2⟩
    | openEntry =>
      -- a begin cancelled on its way has the abort behind it
      refine .inr (.inr ⟨rfl, ?_⟩)
      rw [if_pos rfl] at hk ⊢
      rcases h.behind k hk with hnone | hbehind
      · exact absurd rfl (hnone (.txnBegin b, k) (by rw [hup]; exact mem_cons_self) rfl)
      · exact hcancel hbehind

theorem hubReadsAbort_inv (h : Inv p σ) {m : TxnAbortMessage}
    (hup : σ.up = (.txnAbort m, k) :: up)
    (hh : Handles p (σ.hub.relayed p) (.txnAbort m) (hub.relayed p) toAgent toClient) (hattends : Attends p hub) :
    Inv p { { σ with up }.handled hub k toAgent toClient with
      entryOf := if σ.hub.relayed p = .none then k else σ.entryOf } := by
  have htokens := h.tokens
  have hentry := h.entry
  refine clientMessage_inv h hup hattends hh rfl ?_ ?_ <;>
    generalize σ.hub.relayed p = v at hh htokens hentry ⊢ <;> generalize hub.relayed p = v' at hh ⊢
  · rw [tokens_handled (by cases hh <;> simp [isRelayedBegin])]
    refine Eq.trans (b := σ.tokens) rfl (htokens.trans ?_)
    cases hh with
    | abandon => rfl
    | relayAbort => rfl
    | lateAbort => cases v <;> rfl
  · intro hk
    cases hh with
    | abandon => exact .inr (.inl rfl)
    | relayAbort id =>
      -- a granted entry is not of a cancelled begin
      rw [if_neg (fun he => nomatch he)] at hk
      rcases hentry hk with he | he | ⟨he, -⟩ <;> cases he
    | lateAbort _ hlate => exact hlate.imp_right .inl

theorem hubReadsClient_inv (h : Inv p σ) (answer : ℕ → Bool) (nowUs : ℕ) :
    Inv p (step p σ (.hubReadsClient answer nowUs)) := by
  simp only [step]
  rcases hup : σ.up with _ | ⟨⟨m, k⟩, up⟩
  · exact h
  have hm : p.Sends p.clientId m := h.fromClient (m, k) (by rw [hup]; exact mem_cons_self)
  dsimp only
  rcases serve_cases (σ := { σ with up }) h.attends (x := (m, k)) hm answer nowUs with he
      | ⟨hub, toAgent, toClient, hh, hattends, he⟩
  · rw [he]
    exact h
  · rw [he]
    rcases sends_client h.attends hm rfl with ⟨b, rfl⟩ | ⟨a, rfl⟩
    · exact hubReadsBegin_inv h hup hh hattends
    · exact hubReadsAbort_inv h hup hh hattends

/-! ### The hub reads from the agent -/

variable {back : List (ControlMessage × ℕ)}

/-- After the hub has read a message of the agent, it is left to say what became
of the entry, and of the transaction the runner may have taken. -/
theorem agentMessage_inv (h : Inv p σ)
    (hback : σ.back = x :: back) (hattends : Attends p hub)
    (hh : Handles p (σ.hub.relayed p) x.1 (hub.relayed p) toAgent toClient) (hx : isBegin x.1 = false)
    (hgrant : ∀ m ∈ toClient, isGrant m → x.2 ∉ σ.cancelled)
    (htokens : ({ σ with back }.handled hub x.2 toAgent toClient).tokens = match hub.relayed p with
      | .pending _ => [σ.entryOf]
      | _ => [])
    (hgranted : ∀ id, hub.relayed p = .active id → σ.Awaits σ.entryOf →
      ({ σ with back }.handled hub x.2 toAgent toClient).Granting σ.entryOf)
    (hentry : σ.entryOf ∈ σ.cancelled → hub.relayed p = .none ∨ hub.relayed p = .pending false
      ∨ (hub.relayed p = .pending true ∧ σ.Cancelling σ.entryOf))
    (hrunner : (∃ awaited, σ.hub.relayed p = .pending awaited) →
      (∃ y ∈ σ.back, accepts σ.agent.transactions.txnId y.1 ∧ y.2 = σ.runnerOf) →
      ((∃ awaited, hub.relayed p = .pending awaited)
        ∧ ∃ y ∈ back, accepts σ.agent.transactions.txnId y.1 ∧ y.2 = σ.runnerOf)
      ∨ (∃ m ∈ toAgent, aborts σ.agent.transactions.txnId m)
      ∨ (σ.runnerOf ∉ σ.cancelled ∧ ∃ m ∈ toClient, isGrant m ∧ x.2 = σ.runnerOf)) :
    Inv p ({ σ with back }.handled hub x.2 toAgent toClient) := by
  have hmem : ∀ {y}, y ∈ back → y ∈ σ.back := fun hy => by rw [hback]; exact mem_cons_of_mem _ hy
  have hkept : hub.relayed p ≠ .none → σ.hub.relayed p ≠ .none := fun hne hn => by
    rw [handles_opens hh hn hne] at hx
    cases hx
  refine { h with
    attends := hattends, fromAgent := fun y hy => h.fromAgent y (hmem hy), grants := fun ack j hj => ?_
    entryPos := fun hne => h.entryPos (hkept hne), tokens := htokens, granted := hgranted
    notGranting := fun k hk ⟨y, hy, hg, hyk⟩ => ?_, entry := hentry, runner := fun hact hk => ?_ }
  · rcases mem_append.mp hj with hj | hj
    · exact h.grants ack j hj
    · obtain ⟨m, hm, he⟩ := mem_map.mp hj
      cases he
      exact handles_channel hh ack hm
  · rcases mem_append.mp hy with hy | hy
    · exact h.notGranting k hk ⟨y, hy, hg, hyk⟩
    · obtain ⟨m, hm, rfl⟩ := mem_map.mp hy
      rw [← hyk] at hk
      exact hgrant m hm hg hk
  · rcases h.runner hact hk with ⟨hp, hy⟩ | ⟨y, hy, hab⟩ | ⟨hnc, y, hy, hg⟩
    · rcases hrunner hp hy with hback | ⟨m, hm, hab⟩ | ⟨hnc, m, hm, hg, hk⟩
      · exact .inl hback
      · exact .inr (.inl ⟨(m, x.2), mem_append_right _ (mem_map.mpr ⟨m, hm, rfl⟩), hab⟩)
      · exact .inr (.inr ⟨hnc, (m, x.2), mem_append_right _ (mem_map.mpr ⟨m, hm, rfl⟩), hg, hk⟩)
    · exact .inr (.inl ⟨y, mem_append_left _ hy, hab⟩)
    · exact .inr (.inr ⟨hnc, y, mem_append_left _ hy, hg⟩)

/-- An acknowledgement belongs to the pending entry, and is the only one. -/
theorem ack_pending (h : Wired p σ)
    (hback : σ.back = (.txnBeginAck ack, k) :: back) : (∃ awaited, σ.hub.relayed p = .pending awaited)
      ∧ k = σ.entryOf ∧ σ.down.filter (isRelayedBegin ·.1) = [] ∧ back.filter (isAck ·.1) = [] := by
  have ht := h.tokens
  rw [System.tokens, hback, filter_cons_of_pos rfl, map_cons] at ht
  cases hv : σ.hub.relayed p with
  | none => simp [hv] at ht
  | active id => simp [hv] at ht
  | pending awaited =>
    rw [hv] at ht
    rcases hdown : σ.down.filter (isRelayedBegin ·.1) with _ | ⟨y, ys⟩
    · rw [hdown, map_nil, nil_append] at ht
      obtain ⟨hk, hnil⟩ := cons.inj ht
      exact ⟨⟨awaited, rfl⟩, hk, hdown, map_eq_nil_iff.mp hnil⟩
    · rw [hdown] at ht
      simp at ht

theorem hubReadsAck_inv (h : Inv p σ) {answer : ℕ → Bool} {nowUs : ℕ}
    (hno : NoCrossing p σ (.hubReadsAgent answer nowUs))
    (hback : σ.back = (.txnBeginAck ack, k) :: back)
    (hh : Handles p (σ.hub.relayed p) (.txnBeginAck ack) (hub.relayed p) toAgent toClient) (hattends : Attends p hub) :
    Inv p ({ σ with back }.handled hub k toAgent toClient) := by
  obtain ⟨⟨awaited, hpend⟩, hk, hdown, hrest⟩ := ack_pending h.toWired hback
  have hempty : System.tokens { σ with back } = [] := by simp only [System.tokens, hdown, hrest, map_nil, append_nil]
  -- the acknowledgement of the runner's transaction is the one just read
  have hread : (∃ y ∈ σ.back, accepts σ.agent.transactions.txnId y.1 ∧ y.2 = σ.runnerOf) →
      accepts σ.agent.transactions.txnId (.txnBeginAck ack) ∧ k = σ.runnerOf := by
    rintro ⟨y, hy, hacc, hyk⟩
    rw [hback] at hy
    rcases mem_cons.mp hy with rfl | hy
    · exact ⟨hacc, hyk⟩
    · have hin : y ∈ back.filter (isAck ·.1) := by
        refine mem_filter.mpr ⟨hy, ?_⟩
        rcases y with ⟨m, j⟩
        cases m <;> first | rfl | cases hacc
      rw [hrest] at hin
      cases hin
  have hentry := h.entry
  have hcross := hno
  simp only [NoCrossing, hback, head?_cons] at hcross
  have hinv := agentMessage_inv h hback hattends hh rfl
  generalize hv : σ.hub.relayed p = v at hh hentry hcross hpend hinv
  generalize hub.relayed p = v' at hh hinv
  cases hh with
  | lateAck _ hlate => exact absurd hpend (hlate awaited)
  | agentRefuses a hstatus =>
    refine hinv (fun m hm hg => ?_) ?_ nofun (fun _ => .inl rfl) fun _ hy => ?_
    · cases a with
      | false => cases hm
      | true =>
        cases mem_singleton.mp hm
        exact absurd (by simpa [isGrant] using hg) hstatus
    · rw [tokens_handled (by simp)]
      exact hempty
    · have hacc := (hread hy).1
      simp only [accepts, decide_eq_true_eq] at hacc
      exact absurd hacc.1 hstatus
  | revoke hok channel =>
    refine hinv nofun ?_ nofun (fun _ => .inl rfl) fun _ hy => ?_
    · rw [tokens_handled (by simp [isRelayedBegin])]
      exact hempty
    · have hacc := (hread hy).1
      simp only [accepts, decide_eq_true_eq] at hacc
      exact .inr (.inl ⟨_, mem_singleton.mpr rfl, by simpa [aborts] using hacc.2⟩)
  | grant hok windowBytes =>
    -- no begin whose abort is coming is granted
    have hnot : k ∉ σ.cancelled := by
      intro hkc
      rw [hk] at hkc
      rcases hentry hkc with he | he | ⟨-, y, hy, hcancel, hyk⟩
      · cases he
      · cases he
      · exact hcross rfl _ rfl (by simpa [isAccept] using hok) y hy hcancel (hyk.trans hk.symm)
    have hnew : isGrant (.txnBeginAck { ack with channel := p.channel, windowBytes }) := by simpa [isGrant] using hok
    refine hinv (fun m _ _ => hnot) ?_ (fun id _ _ => ?_) (fun hkc => absurd (hk ▸ hkc) hnot) fun _ hy => ?_
    · rw [tokens_handled (by simp)]
      exact hempty
    · exact ⟨_, mem_append_right _ (mem_map.mpr ⟨_, mem_singleton.mpr rfl, rfl⟩), hnew, hk⟩
    · have hrk := (hread hy).2
      exact .inr (.inr ⟨hrk ▸ hnot, _, mem_singleton.mpr rfl, hnew, hrk⟩)

theorem hubReadsStatus_inv (h : Inv p σ) {q : TxnStatusMessage}
    (hback : σ.back = (.txnStatus q, k) :: back)
    (hh : Handles p (σ.hub.relayed p) (.txnStatus q) (hub.relayed p) toAgent toClient) (hattends : Attends p hub) :
    Inv p ({ σ with back }.handled hub k toAgent toClient) := by
  have htokens := h.tokens
  have hsame : System.tokens { σ with back } = σ.tokens := by
    simp only [System.tokens, hback]
    rfl
  have hentry := h.entry
  have hgranted := h.granted
  have hinv := agentMessage_inv h hback hattends hh rfl
  generalize hv : σ.hub.relayed p = v at hh hentry htokens hgranted hinv
  generalize hub.relayed p = v' at hh hinv
  cases hh with
  | finish _ =>
    refine hinv (fun m hm hg => ?_) ?_ nofun (fun _ => .inl rfl) fun ⟨a, ha⟩ _ => nomatch ha
    · cases mem_singleton.mp hm
      cases hg
    · rw [tokens_handled (by simp)]
      exact hsame.trans htokens
  | lateStatus _ hlate =>
    refine hinv nofun ?_ (fun id hid ha => ?_) hentry fun ha hy => .inl ⟨ha, exists_tail hback (fun hc => nomatch hc.1) hy⟩
    · rw [tokens_handled (by simp)]
      exact hsame.trans htokens
    · obtain ⟨y, hy, hg⟩ := hgranted id hid ha
      exact ⟨y, mem_append_left _ hy, hg⟩

theorem hubReadsAgent_inv (h : Inv p σ) {answer : ℕ → Bool} {nowUs : ℕ}
    (hno : NoCrossing p σ (.hubReadsAgent answer nowUs)) : Inv p (step p σ (.hubReadsAgent answer nowUs)) := by
  simp only [step]
  rcases hback : σ.back with _ | ⟨⟨m, k⟩, back⟩
  · exact h
  have hm : p.Sends p.agentId m := h.fromAgent (m, k) (by rw [hback]; exact mem_cons_self)
  dsimp only
  rcases serve_cases (σ := { σ with back }) h.attends (x := (m, k)) hm answer nowUs with he
      | ⟨hub, toAgent, toClient, hh, hattends, he⟩
  · rw [he]
    exact h
  · rw [he]
    rcases sends_agent h.attends hm rfl with ⟨ack, rfl⟩ | ⟨q, rfl⟩
    · exact hubReadsAck_inv h hno hback hh hattends
    · exact hubReadsStatus_inv h hback hh hattends

/-! ### Whole runs -/

/-- **Every event keeps the invariant**, if no abort crosses its grant. -/
theorem step_inv (h : Inv p σ) {e : Event} (he : NoCrossing p σ e) : Inv p (step p σ e) := by
  cases e with
  | begin b => exact begin_inv h b
  | abort => exact abort_inv h he
  | hubReadsClient answer nowUs => exact hubReadsClient_inv h answer nowUs
  | hubReadsAgent answer nowUs => exact hubReadsAgent_inv h he
  | agentReads nowUs => exact agentReads_inv h nowUs
  | clientReads => exact clientReads_inv h
  | runner e => exact runner_inv h e

/-- The three before the first begin: the client has the channel open, and the
hub and the agent have no transaction. -/
structure Start (p : Pair) (client : Client) (hub : Broker) (agent : Agent) : Prop where
  attends : Attends p hub
  noEntry : hub.transactions.forAgent p.agentId = none
  channel : client.channel = p.channel
  idle : client.transaction.state ≠ .beginning
  running : agent.state = .running
  inactive : agent.transactions.active = false

theorem Start.inv {client : Client} (h : Start p client hub agent) :
    Inv p { client, hub, agent } := by
  have hnone : hub.relayed p = .none := TransactionTable.relayed_of_forAgent_none h.noEntry
  refine { attends := h.attends, running := h.running, channel := h.channel, beginning := fun hb => absurd hb h.idle
           fromClient := by simp, fromAgent := by simp, grants := by simp, order := List.Pairwise.nil, sent := by simp
           cancelled := by simp, entryOf := le_rfl, runnerOf := le_rfl, numbered := by simp
           entryPos := fun hne => absurd hnone hne, runnerPos := fun hact => absurd hact (by simp [h.inactive]), tokens := ?_
           granted := fun id _ ha => absurd ha.1 h.idle, notGranting := by simp, entry := fun hk => ?_
           behind := by simp, runner := fun hact _ => ?_, grantedBy := fun _ => by simp }
  · dsimp only
    rw [hnone]
    rfl
  · simp at hk
  · have hno := h.inactive
    rw [show agent.transactions.active = true from hact] at hno
    cases hno

/-- **A cancelled begin leaves no orphan**: in every run in which no abort crosses
the grant of its begin, the client never runs on the acknowledgement of a begin it
cancelled; and once everything has been delivered, the agent's runner does not run
a cancelled begin and the hub has no entry of one, so that neither has any
transaction left if every begin was cancelled. -/
theorem cancelled_leaves_no_orphan {client : Client} {hub : Broker} (h : Start p client hub agent)
    (es : List Event) (hes : Along (step p) (NoCrossing p) { client, hub, agent } es) :
    let σ := run (step p) { client, hub, agent } es
    (σ.client.transaction.state = .running → σ.grantedBy ∉ σ.cancelled)
    ∧ (σ.Quiet →
      (σ.agent.transactions.active = true → σ.runnerOf ∉ σ.cancelled)
      ∧ ((σ.hub.transactions.forAgent p.agentId).isSome → σ.entryOf ∉ σ.cancelled)
      ∧ ((∀ k, 0 < k → k ≤ σ.begun → k ∈ σ.cancelled) →
          σ.agent.transactions.active = false ∧ σ.hub.transactions.forAgent p.agentId = none)) := by
  intro σ
  have hinv : Inv p σ := hes.invariant (fun _ _ hinv he => step_inv hinv he) h.inv
  refine ⟨hinv.grantedBy, fun ⟨hup, hdown, hback, hans⟩ => ?_⟩
  have hrunner : σ.agent.transactions.active = true → σ.runnerOf ∉ σ.cancelled := by
    intro hact hk
    rcases hinv.runner hact (.inl hk) with ⟨-, x, hx, -⟩ | ⟨x, hx, -⟩ | ⟨hnc, -⟩
    · rw [hback] at hx
      cases hx
    · rw [hdown] at hx
      cases hx
    · exact hnc hk
  have huse : (σ.hub.transactions.forAgent p.agentId).isSome → σ.hub.relayed p ≠ .none := by
    intro hsome hv
    obtain ⟨t, ht⟩ := Option.isSome_iff_exists.mp hsome
    rw [Attends.relayed_eq ht] at hv
    have huse := (TransactionTable.forAgent_some ht).1
    unfold RelayedTransaction.relayed at hv
    split at hv
    · rename_i hfree
      simp [RelayedTransaction.isInUse, hfree] at huse
    · cases hv
    · cases hv
  have hentry : (σ.hub.transactions.forAgent p.agentId).isSome → σ.entryOf ∉ σ.cancelled := by
    intro hsome hk
    -- a pending entry is still in the agent's hands
    have htokens := hinv.tokens
    simp only [System.tokens, hdown, hback, filter_nil, map_nil, append_nil] at htokens
    rcases hinv.entry hk with hv | hv | ⟨hv, -⟩
    · exact huse hsome hv
    · rw [hv] at htokens
      cases htokens
    · rw [hv] at htokens
      cases htokens
  refine ⟨hrunner, hentry, fun hall => ⟨?_, ?_⟩⟩
  · rw [← Bool.not_eq_true]
    exact fun hact => hrunner hact (hall _ (hinv.runnerPos hact) hinv.runnerOf)
  · rw [← Option.not_isSome_iff_eq_none]
    exact fun hsome => hentry hsome (hall _ (hinv.entryPos (huse hsome)) hinv.entryOf)

/-! ### An instance -/

/-- Agent 2 and client 3, whose channel 0 is the agent's interface. -/
def smallPair : Pair := ⟨0, 1, 2, 3, 0⟩

def smallHub : Broker :=
  Broker.small.run (Broker.agentJoins 2 (Broker.registersOne 1 2) ++ Broker.clientJoins 3 1)

def smallClient : Client := { state := .isOpen }

def smallAgent : Agent where
  state := .running
  channelMap := { channels := [0] }
  transactions := .init (fun _ => true) (fun _ => 0) 1024

def smallSystem : System := { client := smallClient, hub := smallHub, agent := smallAgent }

def anyBegin : Event := .begin ⟨0, 0, 0, {}⟩

def hubReadsClient : Event := .hubReadsClient (fun _ => true) 0

def hubReadsAgent : Event := .hubReadsAgent (fun _ => true) 0

set_option maxRecDepth 100000 in
/-- What the hub has after the two have joined. -/
theorem smallHub_facts :
    (smallHub.find smallPair.agentId = some smallPair.agent
      ∧ (smallHub.directory smallPair.agent).role = .agent ∧ (smallHub.directory smallPair.agent).sendFailed = false)
    ∧ (smallHub.find smallPair.clientId = some smallPair.client
      ∧ (smallHub.directory smallPair.client).role = .client ∧ (smallHub.directory smallPair.client).sendFailed = false)
    ∧ smallHub.find transactionNoClient = none
    ∧ (smallHub.directory smallPair.client).session.interfaceForChannel smallPair.channel = some 1
    ∧ smallHub.registry.findById 1 = some 0 ∧ (smallHub.registry.entries 0).agentPeerId = smallPair.agentId
    ∧ ∀ i, (smallHub.transactions.entries i).isInUse = false := by
  decide +kernel

theorem smallHub_start : Start smallPair smallClient smallHub smallAgent := by
  obtain ⟨⟨ha, har, has⟩, ⟨hc, hcr, hcs⟩, hno, hchannel, hentry, hagent, hfree⟩ := smallHub_facts
  refine ⟨⟨ha, har, has, hc, hcr, hcs, hno, fun interfaceId k hi hk _ => ?_, fun i hi => ?_⟩, ?_, rfl, by decide, rfl,
    rfl⟩
  · cases hchannel.symm.trans hi
    cases hentry.symm.trans hk
    exact hagent
  · rw [hfree i] at hi
    cases hi
  · exact Table.find?_eq_none.mpr fun i => by rw [hfree i]; rfl

/-- The abort reaches the hub before the agent's acknowledgement. -/
def cancelInTime : List Event :=
  [anyBegin, hubReadsClient, .abort, hubReadsClient, .agentReads 0, hubReadsAgent, .agentReads 0, hubReadsAgent]

set_option maxRecDepth 100000 in
theorem cancelInTime_facts :
    Along (step smallPair) (NoCrossing smallPair) smallSystem cancelInTime
    ∧ (run (step smallPair) smallSystem cancelInTime).Quiet
    ∧ (run (step smallPair) smallSystem cancelInTime).cancelled = [1]
    ∧ (run (step smallPair) smallSystem cancelInTime).begun = 1 := by
  decide +kernel

theorem cancelled_leaves_no_orphan_inTime :
    let σ := run (step smallPair) smallSystem cancelInTime
    σ.Quiet ∧ σ.cancelled = [1] ∧ σ.begun = 1
      ∧ σ.agent.transactions.active = false ∧ σ.hub.transactions.forAgent 2 = none := by
  obtain ⟨halong, hquiet, hcancelled, hbegun⟩ := cancelInTime_facts
  refine ⟨hquiet, hcancelled, hbegun, ?_⟩
  refine ((cancelled_leaves_no_orphan smallHub_start cancelInTime halong).2 hquiet).2.2 fun k hpos hle => ?_
  change k ≤ (run (step smallPair) smallSystem cancelInTime).begun at hle
  change k ∈ (run (step smallPair) smallSystem cancelInTime).cancelled
  rw [hbegun] at hle
  rw [hcancelled, mem_singleton]
  omega

/-- The abort crosses the grant, and the client begins again. -/
def cancelTooLate : List Event :=
  [anyBegin, hubReadsClient, .agentReads 0, hubReadsAgent, .abort, anyBegin, hubReadsClient, .agentReads 0,
   hubReadsClient, .clientReads, .clientReads]

set_option maxRecDepth 100000 in
/-- **An abort that crosses the grant cancels nothing**: when everything has been
delivered, the runner still runs the first begin, which was cancelled, the hub has
its entry, and the client runs its second begin on the grant of the first. -/
theorem abort_crosses_grant :
    let σ := run (step smallPair) smallSystem cancelTooLate
    σ.Quiet ∧ σ.cancelled = [1] ∧ σ.begun = 2
      ∧ (σ.agent.transactions.active = true ∧ σ.runnerOf = 1)
      ∧ (σ.hub.relayed smallPair = .active 1 ∧ σ.entryOf = 1)
      ∧ (σ.client.transaction.state = .running ∧ σ.grantedBy = 1) := by
  decide +kernel

end Cancel
end CanHub
