/-
# The client side of a transaction

`TransactionSender` packs offered steps into `TXN_STEPS` batches and keeps the
record bytes in flight within the window the agent granted. A batch the
transport could not take stays pending until it is sent.

`sent_bytes` and `consumed_bytes` are 32-bit words that wrap; what is in flight
is their difference.
-/
import CanHub.Protocol.Steps

namespace CanHub

/-- `TRANSACTION_SENDER_BATCH_SIZE`. -/
@[simp] abbrev transactionSenderBatchSize : ℕ := messageHeaderSize + txnStepsBodySizeMax

inductive TransactionSenderState | idle | beginning | running | finished
deriving DecidableEq

inductive TransactionOffer | accepted | flushNeeded | noCredit | rejected
deriving DecidableEq

structure TransactionSender where
  state : TransactionSenderState := .idle
  channel : UInt8 := 0
  txnId : UInt16 := 0
  beginStatus : UInt8 := 0
  ended : Bool := false
  windowBytes : UInt32 := 0
  sentBytes : UInt32 := 0
  consumedBytes : UInt32 := 0
  completedSteps : UInt32 := 0
  nextSeq : UInt32 := 0
  messageOpen : Bool := false
  batchOpen : Bool := false
  writer : TxnStepsWriter := {}
  outcome : TxnStatusMessage := {}
deriving DecidableEq

namespace TransactionSender

def reset : TransactionSender := {}

/-- `TransactionSender_Begin`. -/
def beginOn (channel : UInt8) : TransactionSender := { reset with state := .beginning, channel }

section

variable (s : TransactionSender)

def onBeginAck (ack : TxnBeginAckMessage) : TransactionSender :=
  if s.state ≠ .beginning ∨ ack.channel ≠ s.channel then s
  else
    let s := { s with beginStatus := ack.status }
    if ack.status ≠ TxnBeginStatus.ok.code then { s with state := .finished }
    else { s with state := .running, txnId := ack.txnId, windowBytes := ack.windowBytes }

def onProgress (p : TxnProgressMessage) : TransactionSender :=
  if s.state ≠ .running ∨ p.channel ≠ s.channel ∨ p.txnId ≠ s.txnId then s
  else { s with consumedBytes := p.consumedBytes, completedSteps := p.completedSteps }

def onStatus (m : TxnStatusMessage) : TransactionSender :=
  if m.channel ≠ s.channel then s
  else if s.state = .running ∧ m.txnId ≠ s.txnId then s
  else if s.state ≠ .running ∧ s.state ≠ .beginning then s
  else { s with outcome := m, completedSteps := m.completedSteps, state := .finished }

def bytesInFlight : UInt32 := s.sentBytes - s.consumedBytes

/-- `openBatch`; the buffer is large enough for the writer to open. -/
def openBatch : TransactionSender :=
  { s with
    writer := (TxnStepsWriter.init s.channel s.txnId s.nextSeq 0 transactionSenderBatchSize).getD s.writer
    batchOpen := true }

/-- `TransactionSender_Offer`. -/
def offer (step : TxnStep) : TransactionSender × TransactionOffer :=
  if s.state ≠ .running ∨ s.ended ∨ (step.encode txnStepRecordSizeMax).isNone then (s, .rejected)
  else if s.windowBytes < s.bytesInFlight + UInt32.ofNat step.recordSize then (s, .noCredit)
  else
    let s := if s.batchOpen then s else s.openBatch
    match s.writer.append step with
    | none => (s, .flushNeeded)
    | some writer =>
      let s :=
        { s with
          writer
          sentBytes := s.sentBytes + UInt32.ofNat step.recordSize
          messageOpen := step.isContinued }
      (if s.messageOpen then s else { s with nextSeq := s.nextSeq + 1 }, .accepted)

/-- `TransactionSender_End`. -/
def endSteps : TransactionSender × TransactionOffer :=
  if s.state ≠ .running ∨ s.ended ∨ s.messageOpen then (s, .rejected)
  else
    let s := if s.batchOpen then s else s.openBatch
    ({ s with writer := s.writer.markEnd, ended := true }, .accepted)

/-- `TransactionSender_PendingBatch`: the whole message, `none` where the code returns 0. -/
def pendingBatch : Option (List UInt8) :=
  if s.batchOpen then some s.writer.finish else none

def batchSent : TransactionSender := { s with batchOpen := false }

end

/-! ### What offering a step does -/

section

variable (s : TransactionSender)

/-- A batch opened now: no records, the next sequence number, no end flag. -/
def freshWriter : TxnStepsWriter :=
  { channel := s.channel, txnId := s.txnId, firstSeq := s.nextSeq, flags := 0
    bufferSize := transactionSenderBatchSize }

theorem openBatch_eq : s.openBatch = { s with writer := s.freshWriter, batchOpen := true } := rfl

/-- The sender with a batch open. -/
def opened : TransactionSender := if s.batchOpen then s else s.openBatch

/-- The sender after a step was accepted into the writer. -/
def accept (step : TxnStep) (writer : TxnStepsWriter) : TransactionSender :=
  { s with
    writer
    sentBytes := s.sentBytes + UInt32.ofNat step.recordSize
    messageOpen := step.isContinued
    nextSeq := if step.isContinued then s.nextSeq else s.nextSeq + 1 }

/-- **Offering a step**: nothing happens, a batch is opened, or the step is
valid, within the window and in the batch. -/
theorem offer_cases (step : TxnStep) : (s.offer step).1 = s
    ∨ (s.state = .running ∧ s.ended = false ∧ (s.offer step).1 = s.opened)
    ∨ (s.state = .running ∧ s.ended = false ∧ step.Valid
        ∧ s.bytesInFlight + UInt32.ofNat step.recordSize ≤ s.windowBytes
        ∧ ∃ writer, s.opened.writer.append step = some writer ∧ (s.offer step).1 = s.opened.accept step writer) := by
  unfold offer
  split
  · exact .inl rfl
  rename_i hok
  have hrun : s.state = .running := by tauto
  have hend : s.ended = false := by
    cases h : s.ended
    · rfl
    · exact absurd (.inr (.inl h)) hok
  have hvalid : step.Valid := by
    by_contra hv
    refine hok (.inr (.inr ?_))
    have : TxnStep.isStepValid step.templateId step.flags step.payload.length step.frameFlags = false := by
      simpa [TxnStep.Valid] using hv
    simp [TxnStep.encode, this]
  split
  · exact .inl rfl
  rename_i hcredit
  right
  dsimp only
  have ho : (if s.batchOpen then s else s.openBatch) = s.opened := rfl
  rw [ho]
  cases hw : s.opened.writer.append step with
  | none => exact .inl ⟨hrun, hend, rfl⟩
  | some writer =>
    refine .inr ⟨hrun, hend, hvalid, UInt32.not_lt.mp hcredit, writer, rfl, ?_⟩
    unfold accept
    cases step.isContinued <;> rfl

end

end TransactionSender

end CanHub
