/-
# Credit between a client and the agent's runner

A `TransactionSender` and a `TransactionRunner`, with the batches on their way
to the agent and the progress reports on their way back, both in order and with
any delay. The hub between them rewrites the channel byte, which the runner
does not read and the sender checks, and may lower the window.

The credit is kept by three counters modulo `2 ^ 32`: record bytes sent, pushed
into the ring and released from it. The invariant behind them is over the
records themselves (`Inv`): `all` are the records the sender packed, and they
are what the runner released, what its ring holds, what the batches on the way
carry (`Chain`) and what the open batch holds, in this order.

Key theorems:
- `step_inv`, `run_inv`: every event keeps the invariant, so every run does.
- `credit_safety`: no batch is refused for its number or for want of room, and
  the bytes between the counters are those of the ring and within the credit.
-/
import CanHub.Agent.Books
import CanHub.Client.Sender

namespace CanHub

open TransactionSender UInt32
namespace Credit

open StepRecord TransactionRunner

structure System where
  sender : TransactionSender
  runner : TransactionRunner
  /-- `TXN_STEPS` messages on their way to the agent, oldest first -/
  flight : List (List UInt8) := []
  /-- progress reports the sender has read -/
  delivered : ℕ := 0

inductive Event
  | offer (step : TxnStep)
  | endSteps
  | flush
  | deliverBatch
  | deliverProgress
  | status (m : TxnStatusMessage)
  | tick (nowUs : ℕ)
  | frame (interfaceIndex : UInt8) (f : FrameMessage)
  | template (t : TxnTemplateMessage)
  | roster (r : TxnRosterMessage)
  | abort (txnId : UInt16)

/-- The agent reads a batch off the wire. -/
def receive (r : TransactionRunner) (m : List UInt8) : TransactionRunner :=
  match TxnStepsMessage.decode (m.drop messageHeaderSize) with
  | none => r
  | some b => r.pushSteps b

def step (σ : System) : Event → System
  | .offer s => { σ with sender := (σ.sender.offer s).1 }
  | .endSteps => { σ with sender := σ.sender.endSteps.1 }
  | .flush =>
    match σ.sender.pendingBatch with
    | none => σ
    | some m => { σ with sender := σ.sender.batchSent, flight := σ.flight ++ [m] }
  | .deliverBatch =>
    match σ.flight with
    | [] => σ
    | m :: ms => { σ with flight := ms, runner := receive σ.runner m }
  | .deliverProgress =>
    match σ.runner.books.progress[σ.delivered]? with
    | none => σ
    | some p =>
      { σ with
        sender := σ.sender.onProgress { p with channel := σ.sender.channel }
        delivered := σ.delivered + 1 }
  | .status m => { σ with sender := σ.sender.onStatus m }
  | .tick nowUs => { σ with runner := σ.runner.tick nowUs }
  | .frame i f => { σ with runner := σ.runner.onFrame i f }
  | .template t => { σ with runner := σ.runner.defineTemplate t }
  | .roster r => { σ with runner := σ.runner.defineRoster r }
  | .abort id => { σ with runner := σ.runner.abort id }

/-- The transaction is granted: the runner has begun it, and the sender has
read the acknowledgement, with the window the hub left in it. -/
def granted (r : TransactionRunner) (b : TxnBeginMessage) (interfaceIndex : UInt8) (nowUs : ℕ)
    (channel : UInt8) (window : UInt32) : System :=
  let (r', ack) := r.begin b interfaceIndex nowUs
  { sender := (beginOn channel).onBeginAck { ack with channel, windowBytes := window }
    runner := r'
    delivered := r.books.progress.length }

/-! ### Batches on the way -/

/-- The message carries the records `rs`, numbered after the records `before`. -/
def Carries (txnId : UInt16) (before : List StepRecord) (m : List UInt8) (rs : List StepRecord)
    (isEnd : Bool) : Prop :=
  ∃ b, TxnStepsMessage.decode (m.drop messageHeaderSize) = some b ∧ b.txnId = txnId
    ∧ b.firstSeq = ofNat (stepCount before) ∧ b.records = flatten rs
    ∧ b.stepCount.toNat = rs.length ∧ b.isEnd = isEnd

/-- The messages carry the records from `before` up to `after`; only the last may end the steps. -/
inductive Chain (txnId : UInt16) : List StepRecord → List (List UInt8) → List StepRecord → Bool → Prop
  | nil (before : List StepRecord) : Chain txnId before [] before false
  | last {before rs : List StepRecord} {m : List UInt8} (h : Carries txnId before m rs true) :
      Chain txnId before [m] (before ++ rs) true
  | cons {before rs after : List StepRecord} {m : List UInt8} {ms : List (List UInt8)} {e : Bool}
      (h : Carries txnId before m rs false) (hs : Chain txnId (before ++ rs) ms after e) :
      Chain txnId before (m :: ms) after e

variable {ms : List (List UInt8)} {txnId : UInt16} {m : List UInt8}

/-- A message is sent behind messages that do not end the steps. -/
theorem Chain.snoc {before after rs : List StepRecord} {e' : Bool}
    : Chain txnId before ms after e' → e' = false → ∀ {e : Bool},
    Carries txnId after m rs e → Chain txnId before (ms ++ [m]) (after ++ rs) e := by
  intro h
  induction h with
  | nil before =>
    intro _ e hm
    cases e with
    | true => exact .last hm
    | false => exact .cons hm (.nil _)
  | last _ => intro he; cases he
  | cons h _ ih =>
    intro he e hm
    exact .cons h (ih he hm)

/-- The oldest message, and the rest of the way behind it. -/
theorem Chain.uncons {before after : List StepRecord}
    {e : Bool} (h : Chain txnId before (m :: ms) after e) :
    ∃ rs e₁ e₂, Carries txnId before m rs e₁ ∧ Chain txnId (before ++ rs) ms after e₂
      ∧ (e₂ = true → e = true) ∧ (e₁ = true → ms = [] ∧ e = true) := by
  cases h with
  | last hm => exact ⟨_, true, false, hm, .nil _, fun _ => rfl, fun _ => ⟨rfl, rfl⟩⟩
  | cons hm hs => exact ⟨_, false, e, hm, hs, fun h => h, fun h => nomatch h⟩

theorem Chain.total_le {before after : List StepRecord} {e : Bool}
    (h : Chain txnId before ms after e) : total before ≤ total after := by
  induction h with
  | nil => exact le_rfl
  | last _ =>
    rw [total_append]
    omega
  | cons _ _ ih =>
    rw [total_append] at ih
    omega

variable {before rs : List StepRecord}

/-- The writer's message carries its records. -/
theorem carries_finish {w : TxnStepsWriter} (h : w.Packs rs)
    (hseq : w.firstSeq = ofNat (stepCount before)) :
    Carries w.txnId before w.finish rs (w.flags &&& txnStepsFlagEnd != 0) := by
  have hn := length_le_total rs
  have hb := h.bounded
  refine ⟨_, TxnStepsWriter.decode_body h, rfl, hseq, h.records, ?_, rfl⟩
  show (UInt8.ofNat w.stepCount).toNat = _
  rw [h.count, UInt8.toNat_ofNat']
  omega

/-! ### The invariant -/

/-- What the sender still holds: the records of its open batch, numbered after
those of the messages sent. -/
structure Open (s : TransactionSender) (before rs : List StepRecord) : Prop where
  closed : s.batchOpen = false → rs = []
  packs : s.batchOpen = true → s.writer.Packs rs
  txnId : s.batchOpen = true → s.writer.txnId = s.txnId
  seq : s.batchOpen = true → s.writer.firstSeq = ofNat (stepCount before)
  flags : s.batchOpen = true → s.writer.flags = if s.ended then txnStepsFlagEnd else 0

/-- The records between the runner's ring and the sender, while the transaction runs. -/
structure Link (σ : System) (all reached : List StepRecord) (after rs : List StepRecord) (e : Bool) : Prop where
  split : all = after ++ rs
  seqRead : σ.runner.nextSeq = ofNat (stepCount reached)
  chain : Chain σ.sender.txnId reached σ.flight after e
  opened : Open σ.sender after rs
  /-- the end is announced once, behind everything else -/
  endSent : e = true → σ.sender.ended = true ∧ σ.sender.batchOpen = false
  endRead : σ.runner.stepsEnded = true → σ.sender.ended = true ∧ σ.sender.batchOpen = false ∧ σ.flight = []

/-- The reports on their way back tell ever more released bytes. -/
structure Reports (ps : List TxnProgressMessage) (txnId : UInt16) (acked released : ℕ) (cs : List ℕ) : Prop where
  values : ps.map (·.consumedBytes) = cs.map ofNat
  txnIds : ∀ p ∈ ps, p.txnId = txnId
  sorted : (acked :: cs).Pairwise (· ≤ ·)
  bounded : ∀ c ∈ acked :: cs, c ≤ released

/-- The state of a granted transaction: `all` the records the sender packed,
`done` those the runner released, `queue` those in its ring, `acked` the
released bytes the sender knows of. -/
structure Inv (σ : System) (all done queue : List StepRecord) (acked : ℕ) (cs : List ℕ) : Prop where
  ledger : Ledger σ.runner.books done queue
  capacity : σ.runner.ring.capacity + txnStepRecordSizeMax ≤ 2 ^ 32
  window : σ.sender.windowBytes.toNat ≤ σ.runner.windowBytes
  txnId : σ.sender.txnId = σ.runner.txnId
  sent : σ.sender.sentBytes = ofNat (total all)
  acknowledged : σ.sender.consumedBytes = ofNat acked
  credit : total all ≤ acked + σ.sender.windowBytes.toNat
  reached : total (done ++ queue) ≤ total all
  seq : σ.sender.nextSeq = ofNat (stepCount all)
  reports : Reports (σ.runner.books.progress.drop σ.delivered) σ.runner.txnId acked (total done) cs
  delivered : σ.delivered ≤ σ.runner.books.progress.length
  link : σ.runner.active = true → ∃ after rs e, Link σ all (done ++ queue) after rs e

theorem Inv.acked_le {σ : System} {all done queue : List StepRecord} {acked : ℕ} {cs : List ℕ}
    (h : Inv σ all done queue acked cs) : acked ≤ total done := h.reports.bounded _ List.mem_cons_self

/-- What the sender counts as in flight. -/
theorem Inv.bytesInFlight {σ : System} {all done queue : List StepRecord} {acked : ℕ} {cs : List ℕ}
    (h : Inv σ all done queue acked cs) : (σ.sender.bytesInFlight).toNat = total all - acked := by
  have hr := h.reached
  have ha := h.acked_le
  have hc := h.credit
  have hw := h.window
  have hcap : σ.runner.windowBytes + txnStepRecordSizeMax = σ.runner.ring.capacity := h.ledger.room
  have hcap' := h.capacity
  have hpos : 0 < txnStepRecordSizeMax := by decide
  rw [total_append] at hr
  have he : total all = (total all - acked) + acked := by omega
  rw [TransactionSender.bytesInFlight, h.sent, h.acknowledged, he, UInt32.ofNat_add, UInt32.add_sub_cancel,
    UInt32.toNat_ofNat', Nat.add_sub_cancel]
  exact Nat.mod_eq_of_lt (by omega)

/-! ### The sender's events -/

variable {s : TransactionSender}

/-- Opening a batch packs nothing. -/
theorem Open.opened (h : Open s before rs)
    (hend : s.ended = false) (hseq : s.nextSeq = ofNat (stepCount (before ++ rs))) :
    Open s.opened before rs := by
  unfold TransactionSender.opened
  cases hb : s.batchOpen with
  | true => exact h
  | false =>
    have hnil := h.closed hb
    subst hnil
    rw [List.append_nil] at hseq
    simp only [Bool.false_eq_true, if_false, openBatch_eq]
    refine ⟨(fun h => by cases h), fun _ => ⟨rfl, rfl, by simp⟩, fun _ => rfl, fun _ => hseq, fun _ => ?_⟩
    show (0 : UInt8) = if s.ended then _ else 0
    rw [hend]
    rfl

/-- An accepted step's record joins the open batch. -/
theorem Open.accept {step : TxnStep} {w : TxnStepsWriter}
    (h : Open s before rs) (hopen : s.batchOpen = true) (hv : step.Valid) (ha : s.writer.append step = some w) :
    Open (s.accept step w) before (rs ++ [.ofStep step hv]) := by
  obtain ⟨hp, hid, hseq, hflags⟩ := (h.packs hopen).append hv ha
  exact ⟨fun h' => absurd (hopen.symm.trans h') (by decide), fun _ => hp, fun _ => hid.trans (h.txnId hopen),
    fun _ => hseq.trans (h.seq hopen), fun _ => hflags.trans (h.flags hopen)⟩

theorem opened_open (s : TransactionSender) : s.opened.batchOpen = true := by
  unfold TransactionSender.opened
  cases hb : s.batchOpen with
  | true => exact hb
  | false => rfl

theorem closed_open (h : s.batchOpen = false) (before : List StepRecord) :
    Open s before [] := by
  have hshut : ∀ {p : Prop}, s.batchOpen = true → p := fun h' => absurd (h.symm.trans h') (by decide)
  exact ⟨fun _ => rfl, hshut, hshut, hshut, hshut⟩

/-- A sender's event leaves the runner alone: what is left to show is what the
sender counts and the records it holds. -/
theorem Inv.sender {σ : System} {all all' done queue : List StepRecord} {acked : ℕ} {cs : List ℕ}
    (h : Inv σ all done queue acked cs) (hid : s.txnId = σ.sender.txnId)
    (hw : s.windowBytes = σ.sender.windowBytes) (hc : s.consumedBytes = σ.sender.consumedBytes)
    (hsent : s.sentBytes = ofNat (total all')) (hcredit : total all' ≤ acked + s.windowBytes.toNat)
    (hle : total all ≤ total all') (hseq : s.nextSeq = ofNat (stepCount all'))
    (hlink : ∀ {after rs : List StepRecord} {e : Bool}, Link σ all (done ++ queue) after rs e →
      ∃ after rs e, Link { σ with sender := s } all' (done ++ queue) after rs e) :
    Inv { σ with sender := s } all' done queue acked cs where
  ledger := h.ledger
  capacity := h.capacity
  window := by
    show s.windowBytes.toNat ≤ _
    rw [hw]
    exact h.window
  txnId := hid.trans h.txnId
  sent := hsent
  acknowledged := hc.trans h.acknowledged
  credit := hcredit
  reached := h.reached.trans hle
  seq := hseq
  reports := h.reports
  delivered := h.delivered
  link := fun ha => by
    obtain ⟨after, rs, e, hl⟩ := h.link ha
    exact hlink hl

theorem opened_fields (s : TransactionSender) : s.opened.txnId = s.txnId ∧ s.opened.windowBytes = s.windowBytes
    ∧ s.opened.consumedBytes = s.consumedBytes ∧ s.opened.sentBytes = s.sentBytes
    ∧ s.opened.nextSeq = s.nextSeq ∧ s.opened.ended = s.ended := by
  unfold TransactionSender.opened
  split <;> exact ⟨rfl, rfl, rfl, rfl, rfl, rfl⟩

variable {σ : System} {all done queue : List StepRecord} {acked : ℕ} {cs : List ℕ}

variable (h : Inv σ all done queue acked cs) {ps : List TxnProgressMessage}
include h

theorem opened_inv (hend : σ.sender.ended = false) :
    Inv { σ with sender := σ.sender.opened } all done queue acked cs := by
  obtain ⟨hid, hw, hc, hs, hn, he⟩ := opened_fields σ.sender
  refine h.sender hid hw hc (hs.trans h.sent) (by rw [hw]; exact h.credit) le_rfl (hn.trans h.seq) ?_
  intro after rs e hl
  have ho := hl.opened.opened hend (by rw [← hl.split]; exact h.seq)
  refine ⟨after, rs, e, hl.split, hl.seqRead, hid ▸ hl.chain, ho, fun h' => ?_, fun h' => ?_⟩
  · exact absurd (hl.endSent h').1 (by rw [hend]; decide)
  · exact absurd (hl.endRead h').1 (by rw [hend]; decide)

/-- The credit check of an accepted step, without the wrap. -/
theorem credit_of_accept {step : TxnStep}
    (hok : σ.sender.bytesInFlight + UInt32.ofNat step.recordSize ≤ σ.sender.windowBytes) :
    total all + step.recordSize ≤ acked + σ.sender.windowBytes.toNat := by
  have hle := UInt32.le_iff_toNat_le.mp hok
  have hsize := step.recordSize_le
  have hw := h.window
  have hc := h.credit
  have hr : σ.runner.windowBytes + txnStepRecordSizeMax = σ.runner.ring.capacity := h.ledger.room
  have hcap := h.capacity
  rw [UInt32.toNat_add, h.bytesInFlight, UInt32.toNat_ofNat'] at hle
  omega

theorem offer_inv (s : TxnStep) :
    ∃ all', Inv (step σ (.offer s)) all' done queue acked cs := by
  rcases σ.sender.offer_cases s with he | ⟨-, hend, he⟩ | ⟨-, hend, hv, hok, w, hw, he⟩
  · exact ⟨all, by simpa only [step, he] using h⟩
  · exact ⟨all, by simpa only [step, he] using opened_inv h hend⟩
  · have h' := opened_inv h hend
    have hcredit := credit_of_accept h hok
    obtain ⟨hid, hwin, -, -, -, hended⟩ := opened_fields σ.sender
    have hsize : (StepRecord.ofStep s hv).size = s.recordSize := s.length_record
    refine ⟨all ++ [.ofStep s hv], ?_⟩
    simp only [step, he]
    refine h'.sender (s := σ.sender.opened.accept s w) rfl rfl rfl ?_ ?_ ?_ ?_ ?_
    · show σ.sender.opened.sentBytes + _ = _
      rw [show σ.sender.opened.sentBytes = _ from h'.sent]
      simp [ofNat_add, hsize]
    · show _ ≤ acked + σ.sender.opened.windowBytes.toNat
      rw [hwin]
      simpa [hsize] using hcredit
    · simp
    · show (if s.isContinued then σ.sender.opened.nextSeq else σ.sender.opened.nextSeq + 1) = _
      rw [show σ.sender.opened.nextSeq = _ from h'.seq]
      have hcont : (StepRecord.ofStep s hv).step.isContinued = s.isContinued := s.isContinued_carried
      cases hc : s.isContinued with
      | true => simp [stepCount_continued (hcont.trans hc)]
      | false => simp [stepCount_final (hcont.trans hc), ofNat_add]
    · intro after rs e hl
      have hended' : σ.sender.opened.ended = false := hended.trans hend
      refine ⟨after, rs ++ [.ofStep s hv], e, ?_, hl.seqRead, hl.chain, hl.opened.accept (opened_open _) hv hw,
        fun h' => ?_, fun h' => ?_⟩
      · rw [hl.split, List.append_assoc]
      · exact absurd (hl.endSent h').1 (by rw [hended']; decide)
      · exact absurd (hl.endRead h').1 (by rw [hended']; decide)

/-- Marking the end opens a batch if none is open, and flags it. -/
theorem endSteps_inv :
    Inv (step σ .endSteps) all done queue acked cs := by
  simp only [step, endSteps]
  split
  · exact h
  rename_i hok
  have hend : σ.sender.ended = false := by
    cases he : σ.sender.ended
    · rfl
    · exact absurd (.inr (.inl he)) hok
  have h' := opened_inv h hend
  have ho : (if σ.sender.batchOpen then σ.sender else σ.sender.openBatch) = σ.sender.opened := rfl
  obtain ⟨-, -, -, -, -, hended⟩ := opened_fields σ.sender
  have hended' : σ.sender.opened.ended = false := hended.trans hend
  rw [ho]
  refine h'.sender rfl rfl rfl h'.sent h'.credit le_rfl h'.seq ?_
  intro after rs e hl
  have hopen := opened_open σ.sender
  have hflags : σ.sender.opened.writer.flags = 0 := by
    have hf := hl.opened.flags hopen
    rw [hended'] at hf
    exact hf
  refine ⟨after, rs, e, hl.split, hl.seqRead, hl.chain, ⟨fun h'' => ?_, fun _ => ?_, hl.opened.txnId,
    hl.opened.seq, fun _ => ?_⟩, fun h'' => ?_, fun h'' => ?_⟩
  · exact absurd (hopen.symm.trans h'') (by decide)
  · obtain ⟨h1, h2, h3⟩ := hl.opened.packs hopen
    exact ⟨h1, h2, h3⟩
  · show σ.sender.opened.writer.flags ||| txnStepsFlagEnd = txnStepsFlagEnd
    rw [hflags]
    rfl
  · exact absurd (hl.endSent h'').1 (by rw [hended']; decide)
  · exact absurd (hl.endRead h'').1 (by rw [hended']; decide)

/-- The open batch leaves: it carries the records packed, behind those on the way. -/
theorem flush_inv : Inv (step σ .flush) all done queue acked cs := by
  simp only [step, pendingBatch]
  cases hb : σ.sender.batchOpen with
  | false => exact h
  | true =>
    simp only [if_true]
    refine ⟨h.ledger, h.capacity, h.window, h.txnId, h.sent, h.acknowledged, h.credit, h.reached, h.seq,
      h.reports, h.delivered, fun ha => ?_⟩
    obtain ⟨after, rs, e, hl⟩ := h.link ha
    have he : e = false := by
      cases e with
      | false => rfl
      | true => exact absurd (hl.endSent rfl).2 (by rw [hb]; decide)
    have hcar := carries_finish (hl.opened.packs hb) (hl.opened.seq hb)
    rw [hl.opened.txnId hb, hl.opened.flags hb] at hcar
    refine ⟨all, [], _, by simp, hl.seqRead, by rw [hl.split]; exact hl.chain.snoc he hcar,
      closed_open rfl _, fun h' => ⟨?_, rfl⟩, fun h' => ?_⟩
    · show σ.sender.ended = true
      cases hend : σ.sender.ended with
      | true => rfl
      | false =>
        rw [hend] at h'
        cases h'
    · exact absurd (hl.endRead h').2.1 (by rw [hb]; decide)

theorem status_inv (m : TxnStatusMessage) :
    Inv (step σ (.status m)) all done queue acked cs := by
  simp only [step, onStatus]
  split
  · exact h
  split
  · exact h
  split
  · exact h
  refine h.sender rfl rfl rfl h.sent h.credit le_rfl h.seq fun {after rs e} hl => ?_
  exact ⟨after, rs, e, hl.split, hl.seqRead, hl.chain,
    ⟨hl.opened.closed, hl.opened.packs, hl.opened.txnId, hl.opened.seq, hl.opened.flags⟩, hl.endSent, hl.endRead⟩

omit h

/-! ### The runner's events -/

/-- A report of everything released joins those on the way. -/
theorem Reports.append {released released' : ℕ}
    (h : Reports ps txnId acked released cs) (hle : released ≤ released') {p : TxnProgressMessage}
    (hid : p.txnId = txnId) (hp : p.consumedBytes = ofNat released') :
    Reports (ps ++ [p]) txnId acked released' (cs ++ [released']) := by
  refine ⟨by simp [h.values, hp], ?_, ?_, ?_⟩
  · intro q hq
    rcases List.mem_append.mp hq with hq | hq
    · exact h.txnIds q hq
    · rw [List.mem_singleton.mp hq]
      exact hid
  · rw [← List.cons_append, List.pairwise_append]
    refine ⟨h.sorted, List.pairwise_singleton _ _, fun a ha b hb => ?_⟩
    rw [List.mem_singleton.mp hb]
    exact (h.bounded a ha).trans hle
  · intro c hc
    rw [← List.cons_append] at hc
    rcases List.mem_append.mp hc with hc | hc
    · exact (h.bounded c hc).trans hle
    · rw [List.mem_singleton.mp hc]

theorem Reports.mono {released released' : ℕ}
    (h : Reports ps txnId acked released cs) (hle : released ≤ released') :
    Reports ps txnId acked released' cs :=
  ⟨h.values, h.txnIds, h.sorted, fun c hc => (h.bounded c hc).trans hle⟩

variable {r : TransactionRunner}

/-- The runner went on without reading a batch. -/
theorem Inv.ran {taken rest : List StepRecord}
    (h : Inv σ all done (taken ++ rest) acked cs) (hl : Ledger r.books (done ++ taken) rest)
    (hr : Ran σ.runner.books r.books (done ++ taken)) :
    ∃ cs', Inv { σ with runner := r } all (done ++ taken) rest acked cs' := by
  have hle : total done ≤ total (done ++ taken) := by simp
  have hd := h.delivered
  have hreports : ∃ cs', Reports (r.books.progress.drop σ.delivered) σ.runner.txnId acked
      (total (done ++ taken)) cs' := by
    rcases hr.progress with he | ⟨p, he, hid, hp⟩ <;> rw [he]
    · exact ⟨cs, h.reports.mono hle⟩
    · rw [List.drop_append_of_le_length hd]
      exact ⟨_, h.reports.append hle hid hp⟩
  obtain ⟨cs', hcs⟩ := hreports
  have hcap : r.ring.capacity = σ.runner.ring.capacity := by
    have h1 : r.books.windowBytes + txnStepRecordSizeMax = r.ring.capacity := hl.room
    have h2 : σ.runner.books.windowBytes + txnStepRecordSizeMax = σ.runner.ring.capacity := h.ledger.room
    rw [hr.windowBytes] at h1
    omega
  have hid : r.txnId = σ.runner.txnId := hr.txnId
  refine ⟨cs', hl, by rw [hcap]; exact h.capacity, h.window.trans hr.windowBytes.ge, h.txnId.trans hid.symm,
    h.sent, h.acknowledged, h.credit, by simpa using h.reached, h.seq, by rw [hid]; exact hcs, ?_, fun ha => ?_⟩
  · rcases hr.progress with he | ⟨p, he, -, -⟩ <;> simp only [he]
    · exact hd
    · rw [List.length_append]
      omega
  · have hact : σ.runner.active = true := by
      cases hc : σ.runner.active with
      | true => rfl
      | false => exact absurd (hr.inactive hc) (by rw [books_active, ha]; decide)
    obtain ⟨after, rs, e, hk⟩ := h.link hact
    refine ⟨after, rs, e, hk.split, ?_, ?_, hk.opened, hk.endSent, fun h' => hk.endRead (hr.stepsEnded.symm.trans h')⟩
    · rw [List.append_assoc]
      exact hr.nextSeq.trans hk.seqRead
    · rw [List.append_assoc]
      exact hk.chain

theorem tick_inv (h : Inv σ all done queue acked cs) (nowUs : ℕ) :
    ∃ done' queue' cs', Inv (step σ (.tick nowUs)) all done' queue' acked cs' := by
  obtain ⟨taken, rest, rfl, hl, hr⟩ := tick_ledger nowUs h.ledger
  obtain ⟨cs', h'⟩ := h.ran hl hr
  exact ⟨_, _, cs', h'⟩

/-- An operation that releases nothing. -/
theorem Inv.kept (h : Inv σ all done queue acked cs)
    (hr : Ledger r.books done queue ∧ Ran σ.runner.books r.books done) :
    ∃ cs', Inv { σ with runner := r } all done queue acked cs' := by
  have hl : Ledger r.books (done ++ []) queue := by simpa using hr.1
  have hran : Ran σ.runner.books r.books (done ++ []) := by simpa using hr.2
  simpa using Inv.ran h hl hran

/-! ### Delivery -/

/-- The runner's view of a batch at the front of the way: it is the one it expects, and there
is room for it. -/
structure Expected (r : TransactionRunner) (b : TxnStepsMessage) (queue rs : List StepRecord) : Prop where
  txnId : b.txnId = r.txnId
  stepsEnded : r.stepsEnded = false
  seq : b.firstSeq = r.nextSeq
  records : b.records = flatten rs
  count : b.stepCount.toNat = rs.length
  room : total queue + total rs ≤ r.windowBytes

theorem Expected.pushSteps {b : TxnStepsMessage} {rs : List StepRecord}
    (h : Expected r b queue rs) (ha : r.active = true) :
    r.pushSteps b = r.pushRecords (flatten rs) r.nextSeq b.isEnd rs.length := by
  unfold TransactionRunner.pushSteps
  rw [if_neg (by simp [ha, h.txnId]), if_neg (by simp [h.stepsEnded, h.seq]), h.records, h.seq, h.count]

theorem Link.expected {after rest : List StepRecord} {e : Bool}
    (hk : Link σ all (done ++ queue) after rest e) (h : Inv σ all done queue acked cs) (hf : σ.flight = m :: ms) :
    ∃ b rs e', TxnStepsMessage.decode (m.drop messageHeaderSize) = some b ∧ Expected σ.runner b queue rs
      ∧ Chain σ.sender.txnId (done ++ queue ++ rs) ms after e' ∧ (e' = true → e = true)
      ∧ (b.isEnd = true → ms = [] ∧ e = true) := by
  have hchain := hk.chain
  rw [hf] at hchain
  obtain ⟨rs, e₁, e₂, ⟨b, hd, hid, hseq, hrec, hcount, hend⟩, hms, h₂, h₁⟩ := hchain.uncons
  refine ⟨b, rs, e₂, hd, ⟨hid.trans h.txnId, ?_, hseq.trans hk.seqRead.symm, hrec, hcount, ?_⟩, hms, h₂,
    fun he => h₁ (hend.symm.trans he)⟩
  · cases hs : σ.runner.stepsEnded with
    | false => rfl
    | true => exact absurd (hf.symm.trans (hk.endRead hs).2.2) (by simp)
  · have h1 := hms.total_le
    have h2 := h.credit
    have h3 := h.acked_le
    have h4 := h.window
    rw [hk.split, total_append] at h2
    rw [total_append, total_append] at h1
    omega

theorem receive_inactive (h : r.active = false) (m : List UInt8) : receive r m = r := by
  unfold receive
  split
  · rfl
  · simp [TransactionRunner.pushSteps, h]

include h

/-- **A batch delivered**: the ring takes its records. -/
theorem deliverBatch_inv :
    ∃ queue', Inv (step σ .deliverBatch) all done queue' acked cs := by
  simp only [step]
  rcases hf : σ.flight with _ | ⟨m, ms⟩
  · exact ⟨queue, h⟩
  dsimp only
  cases ha : σ.runner.active with
  | false =>
    refine ⟨queue, ?_⟩
    simp only [receive_inactive ha]
    exact ⟨h.1, h.2, h.3, h.4, h.5, h.6, h.7, h.8, h.9, h.10, h.11, fun ha' => absurd (ha.symm.trans ha') (by decide)⟩
  | true =>
    obtain ⟨after, rest, e, hk⟩ := h.link ha
    obtain ⟨b, rs, e', hd, hx, hms, he', hend⟩ := hk.expected h hf
    have hcap := h.capacity
    obtain ⟨taken, hpre, hl, hp⟩ := pushRecords_ledger b.isEnd rs σ.runner.nextSeq h.ledger ha
      (by omega) hx.room
    rw [← hx.pushSteps ha] at hl hp
    have hrecv : receive σ.runner m = σ.runner.pushSteps b := by simp only [receive, hd]
    rw [← hrecv] at hl hp
    refine ⟨queue ++ taken, ?_⟩
    generalize receive σ.runner m = r at hl hp
    have hcap' : r.ring.capacity = σ.runner.ring.capacity := by
      have h1 : r.books.windowBytes + txnStepRecordSizeMax = r.ring.capacity := hl.room
      have h2 : σ.runner.books.windowBytes + txnStepRecordSizeMax = σ.runner.ring.capacity := h.ledger.room
      rw [hp.windowBytes] at h1
      omega
    have hid : r.txnId = σ.runner.txnId := hp.txnId
    have hprog : r.books.progress = σ.runner.books.progress := hp.progress
    have hreach : total (done ++ (queue ++ taken)) ≤ total all := by
      obtain ⟨left, rfl⟩ := hpre
      have h1 := hms.total_le
      rw [hk.split]
      simp only [total_append] at h1 ⊢
      omega
    refine ⟨hl, by rw [hcap']; exact hcap, h.window.trans hp.windowBytes.ge, h.txnId.trans hid.symm, h.sent,
      h.acknowledged, h.credit, hreach, h.seq, by rw [hid, hprog]; exact h.reports, by rw [hprog]; exact h.delivered,
      fun ha' => ?_⟩
    rcases hp.outcome with ⟨rfl, -, hseq, hsteps, -⟩ | ⟨hdead, -⟩
    · refine ⟨after, rest, e', hk.split, ?_, ?_, hk.opened, fun h' => hk.endSent (he' h'), fun h' => ?_⟩
      · rw [← List.append_assoc, stepCount_append, ofNat_add, ← hk.seqRead]
        exact hseq
      · rw [← List.append_assoc]
        exact hms
      · obtain ⟨hnil, het⟩ := hend (hsteps.symm.trans h')
        exact ⟨(hk.endSent het).1, (hk.endSent het).2, hnil⟩
    · exact absurd (hdead.symm.trans ha') (by decide)

/-- A report read: the sender learns what was released, never less than before. -/
theorem deliverProgress_inv :
    ∃ acked' cs', Inv (step σ .deliverProgress) all done queue acked' cs' := by
  simp only [step]
  rcases hp : σ.runner.books.progress[σ.delivered]? with _ | p
  · exact ⟨acked, cs, h⟩
  dsimp only
  obtain ⟨hlt, hget⟩ := List.getElem?_eq_some_iff.mp hp
  have hdrop : σ.runner.books.progress.drop σ.delivered = p :: σ.runner.books.progress.drop (σ.delivered + 1) := by
    rw [List.drop_eq_getElem_cons hlt, hget]
  have hr := h.reports
  rw [hdrop] at hr
  rcases cs with _ | ⟨c, cs⟩
  · exact absurd hr.values (by simp)
  have hval := hr.values
  simp only [List.map_cons, List.cons.injEq] at hval
  have hsorted := hr.sorted
  have hlink : ∀ {s : TransactionSender}, s.txnId = σ.sender.txnId → s.batchOpen = σ.sender.batchOpen →
      s.writer = σ.sender.writer → s.ended = σ.sender.ended → σ.runner.active = true →
      ∃ after rs e, Link { σ with sender := s, delivered := σ.delivered + 1 } all (done ++ queue) after rs e := by
    intro s hid hb hw he ha
    obtain ⟨after, rs, e, hk⟩ := h.link ha
    refine ⟨after, rs, e, hk.split, hk.seqRead, hid ▸ hk.chain, ?_, ?_, ?_⟩
    · obtain ⟨h1, h2, h3, h4, h5⟩ := hk.opened
      exact ⟨hb ▸ h1, hb ▸ hw ▸ h2, hid ▸ hb ▸ hw ▸ h3, hb ▸ hw ▸ h4, he ▸ hb ▸ hw ▸ h5⟩
    · exact he ▸ hb ▸ hk.endSent
    · exact he ▸ hb ▸ hk.endRead
  unfold onProgress
  split
  · -- the sender has finished: it ignores the report
    refine ⟨acked, cs, h.ledger, h.capacity, h.window, h.txnId, h.sent, h.acknowledged, h.credit, h.reached,
      h.seq, ⟨hval.2, fun q hq => hr.txnIds q (List.mem_cons_of_mem _ hq), ?_, fun d hd => ?_⟩, hlt,
      hlink rfl rfl rfl rfl⟩
    · exact hsorted.sublist (List.Sublist.cons_cons _ (List.sublist_cons_self c cs))
    · exact hr.bounded d (by simp only [List.mem_cons] at hd ⊢; tauto)
  · have hac : acked ≤ c := by
      rw [List.pairwise_cons] at hsorted
      exact hsorted.1 c List.mem_cons_self
    have hcr := h.credit
    refine ⟨c, cs, h.ledger, h.capacity, h.window, h.txnId, h.sent, hval.1, hcr.trans (Nat.add_le_add_right hac _), h.reached,
      h.seq, ⟨hval.2, fun q hq => hr.txnIds q (List.mem_cons_of_mem _ hq), ?_, fun d hd => ?_⟩, hlt,
      hlink rfl rfl rfl rfl⟩
    · exact (List.pairwise_cons.mp hsorted).2
    · exact hr.bounded d (List.mem_cons_of_mem _ hd)

/-! ### Whole runs -/

/-- **Every event keeps the invariant.** -/
theorem step_inv (e : Event) :
    ∃ all' done' queue' acked' cs', Inv (step σ e) all' done' queue' acked' cs' := by
  cases e with
  | offer s =>
    obtain ⟨all', h'⟩ := offer_inv h s
    exact ⟨_, _, _, _, _, h'⟩
  | endSteps => exact ⟨_, _, _, _, _, endSteps_inv h⟩
  | flush => exact ⟨_, _, _, _, _, flush_inv h⟩
  | deliverBatch =>
    obtain ⟨queue', h'⟩ := deliverBatch_inv h
    exact ⟨_, _, _, _, _, h'⟩
  | deliverProgress =>
    obtain ⟨acked', cs', h'⟩ := deliverProgress_inv h
    exact ⟨_, _, _, _, _, h'⟩
  | status m => exact ⟨_, _, _, _, _, status_inv h m⟩
  | tick nowUs =>
    obtain ⟨done', queue', cs', h'⟩ := tick_inv h nowUs
    exact ⟨_, _, _, _, _, h'⟩
  | frame i f =>
    obtain ⟨cs', h'⟩ := h.kept (onFrame_ledger h.ledger i f)
    exact ⟨_, _, _, _, _, h'⟩
  | template t =>
    obtain ⟨cs', h'⟩ := h.kept (defineTemplate_ledger h.ledger t)
    exact ⟨_, _, _, _, _, h'⟩
  | roster r =>
    obtain ⟨cs', h'⟩ := h.kept (defineRoster_ledger h.ledger r)
    exact ⟨_, _, _, _, _, h'⟩
  | abort id =>
    obtain ⟨cs', h'⟩ := h.kept (abort_ledger h.ledger id)
    exact ⟨_, _, _, _, _, h'⟩

omit h

theorem run_inv : ∀ (es : List Event) {σ : System} {all done queue : List StepRecord} {acked : ℕ} {cs : List ℕ},
    Inv σ all done queue acked cs → ∃ all' done' queue' acked' cs', Inv (Run.run step σ es) all' done' queue' acked' cs'
  | [], _, _, _, _, _, _, h => ⟨_, _, _, _, _, h⟩
  | e :: es, _, _, _, _, _, _, h => by
    obtain ⟨_, _, _, _, _, h'⟩ := step_inv h e
    exact run_inv es h'

/-- A granted transaction starts with empty books. -/
theorem granted_inv {b : TxnBeginMessage} {window : UInt32} (hidle : r.active = false)
    (hbegin : b.isBeginValid = true) (hring : r.windowBytes + txnStepRecordSizeMax = r.ring.capacity)
    (hcap : r.ring.capacity + txnStepRecordSizeMax ≤ 2 ^ 32) (hwindow : window.toNat ≤ r.windowBytes)
    (i : UInt8) (nowUs : ℕ) (channel : UInt8) : Inv (granted r b i nowUs channel window) [] [] [] 0 [] := by
  simp only [granted, TransactionRunner.begin, hidle, hbegin, Bool.false_eq_true, if_false, Bool.not_true,
    beginOn, onBeginAck]
  simp only [ne_eq, not_true_eq_false, or_self, if_false]
  refine ⟨⟨fun _ => StepRing.clear_holds _, rfl, rfl, Nat.zero_le _, hring, rfl, fun _ hp => absurd rfl hp⟩,
    hcap, hwindow, rfl, rfl, rfl, Nat.zero_le _, le_rfl, rfl, ⟨?_, ?_, ?_, ?_⟩, le_rfl, fun _ => ?_⟩
  · show (List.drop r.books.progress.length r.books.progress).map _ = _
    rw [List.drop_length]
    rfl
  · show ∀ p ∈ List.drop r.books.progress.length r.books.progress, _
    rw [List.drop_length]
    simp
  · exact List.pairwise_singleton _ _
  · simp
  · refine ⟨[], [], false, rfl, rfl, .nil _, closed_open rfl _, fun h => ?_, fun h => ?_⟩
    · cases h
    · cases h

/-- **Credit safety**: whatever the order of offers, flushes, ticks, frames and
deliveries, while the transaction runs the bytes between the runner's counters
are those of its ring; they are never more than the sender counts in flight; and
a batch that reaches a running transaction has the number the runner expects and
is taken whole, unless one of its steps does not fit its template. -/
theorem credit_safety (r : TransactionRunner) (b : TxnBeginMessage) (window : UInt32) (hidle : r.active = false)
    (hbegin : b.isBeginValid = true) (hring : r.windowBytes + txnStepRecordSizeMax = r.ring.capacity)
    (hcap : r.ring.capacity + txnStepRecordSizeMax ≤ 2 ^ 32) (hwindow : window.toNat ≤ r.windowBytes)
    (i : UInt8) (nowUs : ℕ) (channel : UInt8) (es : List Event) :
    let σ := Run.run step (granted r b i nowUs channel window) es
    (σ.runner.active = true →
      (σ.runner.pushedBytes - σ.runner.consumedBytes).toNat = σ.runner.ring.usedBytes)
    ∧ σ.runner.pushedBytes - σ.runner.consumedBytes ≤ σ.sender.bytesInFlight
    ∧ ∀ m ms, σ.flight = m :: ms → σ.runner.active = true →
        ∃ steps, TxnStepsMessage.decode (m.drop messageHeaderSize) = some steps
          ∧ steps.txnId = σ.runner.txnId ∧ steps.firstSeq = σ.runner.nextSeq ∧ σ.runner.stepsEnded = false
          ∧ (((σ.runner.pushSteps steps).active = true
                ∧ (σ.runner.pushSteps steps).books.reports = σ.runner.books.reports)
            ∨ ((∃ rs, steps.records = flatten rs ∧ ∃ q ∈ rs, ¬ Admits σ.runner.books q.step)
                ∧ ∃ s, (σ.runner.pushSteps steps).books.reports = σ.runner.books.reports ++ [s]
                  ∧ s.reason = TxnReason.invalidStep.code)) := by
  obtain ⟨all, done, queue, acked, cs, h⟩ := run_inv es (granted_inv hidle hbegin hring hcap hwindow i nowUs channel)
  intro σ
  have hcap' := h.capacity
  have hfl : (σ.runner.pushedBytes - σ.runner.consumedBytes).toNat = total queue :=
    h.ledger.inFlight (by rw [books_ring]; omega)
  refine ⟨fun ha => ?_, ?_, fun m ms hf ha => ?_⟩
  · rw [hfl]
    exact (h.ledger.holds ha).usedBytes.symm
  · rw [le_iff_toNat_le, hfl, h.bytesInFlight]
    have h1 := h.reached
    have h2 := h.acked_le
    rw [total_append] at h1
    omega
  · obtain ⟨after, rest, e, hk⟩ := h.link ha
    obtain ⟨steps, rs, e', hd, hx, -⟩ := hk.expected h hf
    refine ⟨steps, hd, hx.txnId, hx.seq, hx.stepsEnded, ?_⟩
    obtain ⟨taken, -, -, hp⟩ := pushRecords_ledger steps.isEnd rs σ.runner.nextSeq h.ledger ha (by omega) hx.room
    rw [← hx.pushSteps ha] at hp
    rcases hp.outcome with ⟨-, hact, -, -, hrep⟩ | ⟨-, hrep, q, hq, hno⟩
    · exact .inl ⟨hact, hrep⟩
    · exact .inr ⟨⟨rs, hx.records, q, hq, hno⟩, hrep⟩

/-! ### A small instance -/

/-- A runner with a ring of 1 KiB whose port takes every frame. -/
def smallRunner : TransactionRunner := .init (fun _ => true) (fun _ => 0) 1024

/-- A template that waits one millisecond for an answer. -/
def smallTemplate : TxnTemplateMessage :=
  { txnId := 1, advanceMode := TxnAdvanceMode.count.code, countK := 1, timeoutMs := 1
    advance := { canId := 0x123, canMask := 0x7ff }, patternsPresent := 1 }

/-- A step that only waits. -/
def smallStep : TxnStep := { flags := txnStepFlagExpectOnly }

/-- The step is offered, sent and taken, and starts to wait. -/
def smallRun : List Event := [.template smallTemplate, .offer smallStep, .flush, .deliverBatch, .tick 0]

theorem credit_safety_small :
    let σ := Run.run step (granted smallRunner ⟨3, 0, 0, {}⟩ 0 0 7 752) smallRun
    σ.runner.active = true ∧ (σ.runner.pushedBytes - σ.runner.consumedBytes).toNat = σ.runner.ring.usedBytes
      ∧ σ.runner.ring.usedBytes = 8 := by
  refine ⟨by decide +kernel, ?_, by decide +kernel⟩
  exact (credit_safety smallRunner ⟨3, 0, 0, {}⟩ 752 (by decide) (by decide) (by decide) (by decide) (by decide)
    0 0 7 smallRun).1 (by decide +kernel)

/-- When the wait runs out the transaction ends and its ring is emptied, but its
counters keep the step that was never released. -/
theorem ended_counters_differ :
    let σ := Run.run step (granted smallRunner ⟨3, 0, 0, {}⟩ 0 0 7 752) smallRun
    let σ' := Run.run step σ [.tick 2000]
    smallStep.Valid ∧ Admits σ.runner.books smallStep
      ∧ (σ'.runner.pushedBytes - σ'.runner.consumedBytes).toNat = 8 ∧ σ'.runner.ring.usedBytes = 0 := by
  refine ⟨by decide, ⟨?_, ?_, ?_⟩, ?_, ?_⟩ <;> decide +kernel

end Credit
end CanHub
