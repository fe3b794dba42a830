/-
# The transaction runner

`TransactionRunner` executes one transaction at the bus. `pushSteps` puts step
records into the ring, `onFrame` matches frames as they arrive, and `tick`,
which carries the time, loads, transmits, waits for and completes steps.

The port is part of the state: `takes n` says whether the bus takes the `n`-th
frame offered to it (it may refuse any), and `log` keeps everything handed to
the port, in order. A transmission is logged with its `purpose`, which names
the place in the code that offered the frame; the code's own interface has no
such argument. Times are natural numbers, byte and step counters the 32-bit
words they are in the source, and `defined_templates` is read bit by bit.
-/
import CanHub.Agent.Isotp
import CanHub.Agent.StepRing

namespace CanHub

open Wire

@[simp] abbrev transactionStarvationTimeoutUs : ℕ := 5000000
@[simp] abbrev transactionTxRetryUs : ℕ := 1000
@[simp] abbrev transactionDefaultTxTimeoutMs : ℕ := 1000
@[simp] abbrev transactionProgressFlushUs : ℕ := 10000
@[simp] abbrev transactionStepsPerTickMax : ℕ := 64
@[simp] abbrev transactionEarlyFramesMax : ℕ := 16
@[simp] abbrev microsecondsPerMillisecond : ℕ := 1000
@[simp] abbrev progressThresholdDivisor : ℕ := 4

def noTxnId : UInt16 := 0

inductive TransactionPhase | idle | transmit | wait
deriving DecidableEq

/-- Who offers a frame to the bus: a generic step, the keepalive or the ISO-TP link. -/
inductive TxPurpose | step | keepalive | isotp
deriving DecidableEq

inductive RunnerOutput
  | transmit (purpose : TxPurpose) (interfaceIndex : UInt8) (frame : FrameMessage) (accepted : Bool)
  | progress (message : TxnProgressMessage)
  | status (message : TxnStatusMessage)
  | roster (message : TxnRosterReportMessage)
deriving DecidableEq

/-- The bus and the uplink as the runner sees them. -/
structure RunnerPort where
  takes : ℕ → Bool
  offered : ℕ := 0
  log : List RunnerOutput := []

structure ActiveStep where
  step : TxnStep := {}
  recordSize : ℕ := 0
  phase : TransactionPhase := .idle
  satisfied : Bool := false
  extendRequested : Bool := false
  messageStarted : Bool := false
  deadlineUs : ℕ := 0
  retryAtUs : ℕ := 0
  matchCount : ℕ := 0
  seenCount : ℕ := 0
  seenBitmap : UInt64 := 0
  hasRxFrame : Bool := false
  rxFrame : TxnRxFrame := {}
deriving DecidableEq

structure TransactionRunner where
  port : RunnerPort
  ring : StepRing
  templates : ℕ → TxnTemplateMessage := fun _ => {}
  definedTemplates : ℕ := 0
  origin : TxnOriginExtractor := {}
  roster : List UInt32 := []
  active : Bool := false
  txnId : UInt16 := 0
  channel : UInt8 := 0
  interfaceIndex : UInt8 := 0
  windowBytes : ℕ
  nextSeq : UInt32 := 0
  stepsEnded : Bool := false
  completedSteps : UInt32 := 0
  pushedBytes : UInt32 := 0
  consumedBytes : UInt32 := 0
  reportedBytes : UInt32 := 0
  reportDueUs : ℕ := 0
  starveDeadlineUs : ℕ := 0
  nextTransmitUs : ℕ := 0
  lastTickUs : ℕ := 0
  idleTimeoutUs : ℕ := 0
  lastFrameUs : ℕ := 0
  keepalive : TxnKeepalive := {}
  current : ActiveStep := {}
  isotp : IsotpLink := {}
  message : List UInt8 := []
  earlyFrames : List FrameMessage := []

/-! ### Templates -/

namespace TxnTemplateMessage

section

variable (t : TxnTemplateMessage)

def isRosterMode : Bool :=
  t.advanceMode = TxnAdvanceMode.rosterAll.code ∨ t.advanceMode = TxnAdvanceMode.rosterK.code

def isWaitingMode : Bool := t.advanceMode ≠ TxnAdvanceMode.none.code

def isIsotp : Bool := t.type = TxnTemplateType.isotp.code

def isPatternPresent (p : TxnPatternIndex) : Bool :=
  t.patternsPresent &&& 1 <<< p.code ≠ 0

def templateTimeoutUs : ℕ := t.timeoutMs.toNat * microsecondsPerMillisecond

def transmitTimeoutUs : ℕ :=
  if t.timeoutMs = 0 then transactionDefaultTxTimeoutMs * microsecondsPerMillisecond
  else t.templateTimeoutUs

def extendTimeoutUs : ℕ :=
  if t.extendTimeoutMs = 0 then t.templateTimeoutUs
  else t.extendTimeoutMs.toNat * microsecondsPerMillisecond

end

end TxnTemplateMessage

/-- `ISOTP_FLAGS_KNOWN`. -/
def isotpFlagsKnown : UInt8 :=
  txnIsotpFlagPadding ||| txnIsotpFlagAddressByte ||| txnIsotpFlagFd ||| txnIsotpFlagBitRateSwitch

def TxnIsotpParameters.isIsotpDataLengthValid (p : TxnIsotpParameters) : Bool :=
  if p.flags &&& txnIsotpFlagFd = 0 then
    p.txDataLength.toNat = framePayloadMaxClassic ∧ p.flags &&& txnIsotpFlagBitRateSwitch = 0
  else
    framePayloadMaxClassic ≤ p.txDataLength.toNat
      ∧ FrameMessage.isPayloadLengthValid p.txDataLength.toNat frameFlagFd

theorem IsotpLink.txDataLength_classic {l : IsotpLink} (h : l.parameters.flags &&& txnIsotpFlagFd = 0) :
    l.txDataLength = framePayloadMaxClassic := if_neg fun hfd => bne_iff_ne.mp hfd h

/-- What the check of the parameters says of the data length. -/
theorem IsotpLink.txDataLength_bounds {l : IsotpLink} (h : l.parameters.isIsotpDataLengthValid = true) :
    framePayloadMaxClassic ≤ l.txDataLength ∧ l.txDataLength ≤ framePayloadMaxFd := by
  unfold TxnIsotpParameters.isIsotpDataLengthValid at h
  by_cases hfd : l.parameters.flags &&& txnIsotpFlagFd = 0
  · rw [txDataLength_classic hfd]
    decide
  · have hlength : l.txDataLength = l.parameters.txDataLength.toNat := if_pos (bne_iff_ne.mpr hfd)
    rw [if_neg hfd, decide_eq_true_iff] at h
    rw [hlength]
    exact ⟨h.1, FrameMessage.isPayloadLengthValid_le h.2⟩

def TxnTemplateMessage.isTypeValid (t : TxnTemplateMessage) : Bool :=
  if t.type = TxnTemplateType.generic.code then true
  else if t.type ≠ TxnTemplateType.isotp.code then false
  else if t.isotp.flags &&& ~~~isotpFlagsKnown ≠ 0 ∨ !t.isotp.isIsotpDataLengthValid then false
  else t.advanceMode = TxnAdvanceMode.none.code ∨ t.advanceMode = TxnAdvanceMode.count.code

def TxnRosterMessage.isRosterValid (r : TxnRosterMessage) : Bool :=
  r.roster.length ≠ 0 ∧ r.roster.length ≤ txnRosterMax
    ∧ (r.origin.source = TxnOriginSource.canId.code ∨ r.origin.source = TxnOriginSource.payload.code)
    ∧ r.origin.shift.toNat < 32 ∧ r.origin.payloadOffset.toNat < framePayloadMaxFd

def TxnBeginMessage.isBeginValid (b : TxnBeginMessage) : Bool :=
  b.keepalive.periodMs = 0
    ∨ FrameMessage.isPayloadLengthValid b.keepalive.payload.length b.keepalive.frameFlags

def TxnBeginMessage.idleTimeoutUs (b : TxnBeginMessage) : ℕ :=
  if b.idleTimeoutMs = 0 then transactionStarvationTimeoutUs
  else b.idleTimeoutMs.toNat * microsecondsPerMillisecond

/-- Whether a step's record may run under a template. -/
def TxnStep.fitsTemplate (s : TxnStep) (t : TxnTemplateMessage) : Bool :=
  if t.isIsotp then s.isMessage || s.isExpectOnly else !s.isMessage

/-! ### Matching -/

def TxnPattern.matchesId (p : TxnPattern) (canId : UInt32) : Bool :=
  canId &&& p.canMask = p.canId &&& p.canMask

def matchesPayload (payloadWord payloadMask payloadValue : UInt64) : Bool :=
  payloadWord &&& payloadMask = payloadValue &&& payloadMask

def FrameMessage.payloadWord (f : FrameMessage) : UInt64 :=
  (f.payload.take txnPatternPayloadBytes).zipIdx.foldl
    (fun word b => word ||| b.1.toUInt64 <<< UInt64.ofNat (b.2 * 8)) 0

def FrameMessage.payloadOrigin (f : FrameMessage) (offset : ℕ) : UInt32 :=
  ((f.payload.drop offset).take 4).zipIdx.foldl
    (fun value b => value ||| b.1.toUInt32 <<< UInt32.ofNat (b.2 * 8)) 0

def TxnOriginExtractor.extractOrigin (o : TxnOriginExtractor) (f : FrameMessage) : UInt32 :=
  if o.source = TxnOriginSource.none.code then 0
  else
    let value :=
      if o.source = TxnOriginSource.canId.code then f.canId &&& frameCanIdMask
      else f.payloadOrigin o.payloadOffset.toNat
    (value &&& o.mask) >>> o.shift.toUInt32

def TxnTemplateMessage.matchesTemplatePattern (t : TxnTemplateMessage) (p : TxnPatternIndex)
    (f : FrameMessage) : Bool :=
  t.isPatternPresent p && (t.patterns p).matchesId f.canId
    && matchesPayload f.payloadWord (t.patterns p).payloadMask (t.patterns p).payloadValue

namespace TransactionRunner

/-! ### The port -/

/-- Everything handed to the port but frames. -/
def emit (s : TransactionRunner) (o : RunnerOutput) : TransactionRunner :=
  { s with port := { s.port with log := s.port.log ++ [o] } }

def transmitTracked (s : TransactionRunner) (purpose : TxPurpose) (f : FrameMessage) (nowUs : ℕ) :
    TransactionRunner × Bool :=
  let accepted := s.port.takes s.port.offered
  let port :=
    { s.port with
      offered := s.port.offered + 1
      log := s.port.log ++ [.transmit purpose s.interfaceIndex f accepted] }
  if accepted then ({ s with port, lastFrameUs := nowUs }, true) else ({ s with port }, false)

def transmitIsotpFrame (s : TransactionRunner) (f : FrameMessage) : TransactionRunner × Bool :=
  s.transmitTracked .isotp f s.lastTickUs

/-! ### Ending -/

section

variable (s : TransactionRunner)

def currentTemplate : TxnTemplateMessage :=
  s.templates s.current.step.templateId.toNat

def prepareStatus (state : TxnState) (reason : TxnReason) : TxnStatusMessage :=
  { channel := s.channel, state := state.code, txnId := s.txnId, reason := reason.code
    failingSeq := s.completedSteps, completedSteps := s.completedSteps
    seenBitmap := s.current.seenBitmap
    flags :=
      (if s.current.phase ≠ .idle ∧ s.currentTemplate.isRosterMode then txnStatusFlagRosterStep else 0)
        ||| (if s.current.hasRxFrame then txnStatusFlagHasRxFrame else 0)
    rxFrame := if s.current.hasRxFrame then s.current.rxFrame else {} }

def finish (status : TxnStatusMessage) : TransactionRunner :=
  { s with active := false, ring := s.ring.clear }.emit (.status status)

def abortWith (reason : TxnReason) (failingSeq : UInt32) : TransactionRunner :=
  s.finish { s.prepareStatus .aborted reason with failingSeq }

def keepRxFrame (f : FrameMessage) : TransactionRunner :=
  { s with current :=
    { s.current with hasRxFrame := true, rxFrame := ⟨f.canId, f.frameFlags, f.payload⟩ } }

def abortOnFrame (reason : TxnReason) (f : FrameMessage) (expected got : UInt64) : TransactionRunner :=
  let s := s.keepRxFrame f
  s.finish { s.prepareStatus .aborted reason with
    offendingOrigin := s.origin.extractOrigin f, expected, got }

def finishDone : TransactionRunner := s.finish (s.prepareStatus .done .none)

end

/-! ### Definitions and records -/

def init (takes : ℕ → Bool) (storage : ℕ → UInt8) (ringCapacity : ℕ) : TransactionRunner where
  port := { takes }
  ring := .init storage ringCapacity
  windowBytes := ringCapacity - txnStepRecordSizeMax

section

variable (s : TransactionRunner)

/-- `TransactionRunner_Begin`: the runner and the acknowledgement. -/
def begin (b : TxnBeginMessage) (interfaceIndex : UInt8) (nowUs : ℕ) : TransactionRunner × TxnBeginAckMessage :=
  if s.active then (s, ⟨b.channel, TxnBeginStatus.busy.code, noTxnId, 0⟩)
  else if !b.isBeginValid then (s, ⟨b.channel, TxnBeginStatus.invalid.code, noTxnId, 0⟩)
  else
    let txnId := if s.txnId + 1 = noTxnId then s.txnId + 1 + 1 else s.txnId + 1
    ({ s with
        txnId, active := true, channel := b.channel, interfaceIndex, origin := {}, roster := []
        definedTemplates := 0, nextSeq := 0, stepsEnded := false, completedSteps := 0
        pushedBytes := 0, consumedBytes := 0, reportedBytes := 0, reportDueUs := 0
        idleTimeoutUs := b.idleTimeoutUs, keepalive := b.keepalive, lastFrameUs := nowUs
        starveDeadlineUs := nowUs + b.idleTimeoutUs, nextTransmitUs := 0, lastTickUs := nowUs
        message := [], earlyFrames := [], current := {}, ring := s.ring.clear },
      ⟨b.channel, TxnBeginStatus.ok.code, txnId, UInt32.ofNat s.windowBytes⟩)

def defineRoster (r : TxnRosterMessage) : TransactionRunner :=
  if !s.active ∨ r.txnId ≠ s.txnId then s
  else if s.roster.length ≠ 0 ∨ !r.isRosterValid then s.abortWith .invalidStep s.nextSeq
  else { s with origin := r.origin, roster := r.roster }

def isTemplateDefined (templateId : UInt8) : Bool :=
  s.definedTemplates.testBit templateId.toNat

def isTemplateValid (t : TxnTemplateMessage) : Bool :=
  if s.isTemplateDefined t.templateId then false
  else if txnAdvanceModeMax ≤ t.advanceMode ∨ !t.isTypeValid then false
  else if t.isWaitingMode ∧ t.timeoutMs = 0 then false
  else if (t.advanceMode = TxnAdvanceMode.count.code ∨ t.advanceMode = TxnAdvanceMode.rosterK.code)
      ∧ t.countK = 0 then false
  else if t.isRosterMode ∧ s.roster.length = 0 then false
  else t.advanceMode ≠ TxnAdvanceMode.rosterK.code ∨ t.countK.toNat ≤ s.roster.length

def defineTemplate (t : TxnTemplateMessage) : TransactionRunner :=
  if !s.active ∨ t.txnId ≠ s.txnId then s
  else if !s.isTemplateValid t then s.abortWith .invalidStep s.nextSeq
  else
    { s with
      templates := fun i => if i = t.templateId.toNat then t else s.templates i
      definedTemplates := s.definedTemplates ||| 1 <<< t.templateId.toNat }

/-- `pushRecord`: the runner, and whether the record was taken. -/
def pushRecord (step : TxnStep) (record : List UInt8) (seq : UInt32) : TransactionRunner × Bool :=
  let template := s.templates step.templateId.toNat
  if !s.isTemplateDefined step.templateId then (s.abortWith .invalidStep seq, false)
  else if !step.fitsTemplate template then (s.abortWith .invalidStep seq, false)
  else if step.isExpectOnly ∧ !template.isWaitingMode then (s.abortWith .invalidStep seq, false)
  else if s.windowBytes < (s.pushedBytes - s.consumedBytes).toNat + record.length then
    (s.abortWith .overrun seq, false)
  else
    match s.ring.push record with
    | none => (s.abortWith .overrun seq, false)
    | some ring => ({ s with ring, pushedBytes := s.pushedBytes + UInt32.ofNat record.length }, true)

/-- The loop of `TransactionRunner_PushSteps` over `count` records, from `seq` on. -/
def pushRecords (s : TransactionRunner) (records : List UInt8) (seq : UInt32) (isEnd : Bool) :
    ℕ → TransactionRunner
  | 0 => { s with nextSeq := seq, stepsEnded := isEnd }
  | count + 1 =>
    match TxnStep.decode records with
    | none => s.abortWith .invalidStep seq
    | some (step, size) =>
      let (s, taken) := s.pushRecord step (records.take size) seq
      if !taken then s
      else s.pushRecords (records.drop size) (if step.isContinued then seq else seq + 1) isEnd count

def pushSteps (m : TxnStepsMessage) : TransactionRunner :=
  if !s.active ∨ m.txnId ≠ s.txnId then s
  else if s.stepsEnded ∨ m.firstSeq ≠ s.nextSeq then s.abortWith .invalidStep m.firstSeq
  else s.pushRecords m.records m.firstSeq m.isEnd m.stepCount.toNat

end

/-! ### Frames from the bus -/

section

variable (s : TransactionRunner)

def isWaiting : Bool := s.current.phase = .wait ∧ !s.current.satisfied

def isIsotpStep : Bool := s.current.phase ≠ .idle ∧ s.currentTemplate.isIsotp

def expectedValue : UInt64 :=
  if s.current.step.hasExpectValue then s.current.step.expectValue
  else s.currentTemplate.advance.payloadValue

def recordRosterAnswer (f : FrameMessage) : TransactionRunner :=
  match s.roster.findIdx? (· == s.origin.extractOrigin f) with
  | none => s
  | some i =>
    let bit : UInt64 := 1 <<< UInt64.ofNat i
    if s.current.seenBitmap &&& bit ≠ 0 then s
    else
      let seenCount := s.current.seenCount + 1
      let needed :=
        if s.currentTemplate.advanceMode = TxnAdvanceMode.rosterAll.code then s.roster.length
        else s.currentTemplate.countK.toNat
      { s with current :=
        { s.current with
          seenBitmap := s.current.seenBitmap ||| bit, seenCount, satisfied := needed ≤ seenCount } }

def countAnswer : TransactionRunner :=
  let matchCount := s.current.matchCount + 1
  { s with current :=
    { s.current with matchCount, satisfied := s.currentTemplate.countK.toNat ≤ matchCount } }

def recordAnswer (f : FrameMessage) : TransactionRunner :=
  let s := s.keepRxFrame f
  if s.currentTemplate.advanceMode ≠ TxnAdvanceMode.count.code then s.recordRosterAnswer f
  else s.countAnswer

def matchAdvance (f : FrameMessage) : TransactionRunner :=
  let template := s.currentTemplate
  if !template.advance.matchesId f.canId then s
  else if matchesPayload f.payloadWord template.advance.payloadMask s.expectedValue then s.recordAnswer f
  else if template.flags &&& txnTemplateFlagMismatchAbort ≠ 0 then
    s.abortOnFrame .valueMismatch f s.expectedValue f.payloadWord
  else s

def requestExtension : TransactionRunner :=
  { s with current := { s.current with extendRequested := true } }

def matchFrame (f : FrameMessage) : TransactionRunner :=
  let template := s.currentTemplate
  if template.matchesTemplatePattern .extend f then (s.keepRxFrame f).requestExtension
  else if template.matchesTemplatePattern .abort f then s.abortOnFrame .abortMatch f 0 f.payloadWord
  else if template.isPatternPresent .advance then s.matchAdvance f
  else s

/-- The link takes a frame; its port is the runner. -/
def isotpOnFrame (f : FrameMessage) : TransactionRunner × IsotpEvent :=
  let (isotp, s, event) := s.isotp.onFrame transmitIsotpFrame s f s.lastTickUs
  ({ s with isotp }, event)

/-- The link is ticked; its port is the runner. -/
def isotpTick (nowUs : ℕ) : TransactionRunner × IsotpEvent :=
  let (isotp, s, event) := s.isotp.tick transmitIsotpFrame s nowUs
  ({ s with isotp }, event)

def feedIsotp (f : FrameMessage) : TransactionRunner :=
  let (s, event) := s.isotpOnFrame f
  if event = .failed then s.abortWith s.isotp.failureReason s.completedSteps
  else if event ≠ .message ∨ !s.isWaiting then s
  else s.matchFrame s.isotp.messageFrame

def dispatchFrame (f : FrameMessage) : TransactionRunner :=
  if s.isIsotpStep then s.feedIsotp f
  else if s.isWaiting then s.matchFrame f
  else s

/-- The loop of `replayEarlyFrames`. -/
def replay (s : TransactionRunner) : List FrameMessage → TransactionRunner
  | [] => s
  | f :: fs => if s.active then (s.dispatchFrame f).replay fs else s

def replayEarlyFrames : TransactionRunner :=
  { s with earlyFrames := [] }.replay s.earlyFrames

def isOnBus (interfaceIndex : UInt8) (f : FrameMessage) : Bool :=
  s.active ∧ interfaceIndex = s.interfaceIndex ∧ f.routeFlags &&& frameRouteFlagEcho = 0

def isBetweenSteps : Bool :=
  s.current.phase = .idle ∨ (s.current.phase = .wait ∧ s.current.satisfied)

def keepEarlyFrame (f : FrameMessage) : TransactionRunner :=
  if s.earlyFrames.length = transactionEarlyFramesMax then s
  else { s with earlyFrames := s.earlyFrames ++ [f] }

def onFrame (interfaceIndex : UInt8) (f : FrameMessage) : TransactionRunner :=
  if !s.isOnBus interfaceIndex f then s
  else if s.isBetweenSteps then s.keepEarlyFrame f
  else s.dispatchFrame f

end

/-! ### Running steps -/

section

variable (s : TransactionRunner)

def reportMissingRoster : TransactionRunner :=
  if !s.currentTemplate.isRosterMode ∨ s.roster.length ≤ s.current.seenCount then s
  else s.emit (.roster ⟨s.channel, s.txnId, s.completedSteps, s.current.seenBitmap⟩)

def releaseRecord : TransactionRunner :=
  { s with
    ring := s.ring.release s.current.recordSize
    consumedBytes := s.consumedBytes + UInt32.ofNat s.current.recordSize }

def completeStep : TransactionRunner :=
  let s := s.reportMissingRoster.releaseRecord
  { s with
    message := []
    completedSteps := s.completedSteps + 1
    current := { s.current with phase := .idle } }

def startWait (nowUs : ℕ) : TransactionRunner :=
  { s with current :=
    { s.current with phase := .wait, deadlineUs := nowUs + s.currentTemplate.templateTimeoutUs } }

def keepaliveDueUs : ℕ :=
  s.lastFrameUs + s.keepalive.periodMs.toNat * microsecondsPerMillisecond

def keepaliveFrame : FrameMessage :=
  { FrameMessage.zero with
    canId := s.keepalive.canId, channel := s.channel
    frameFlags := s.keepalive.frameFlags, payload := s.keepalive.payload }

def sendKeepaliveIfDue (nowUs : ℕ) : TransactionRunner :=
  if s.keepalive.periodMs = 0 ∨ nowUs < s.keepaliveDueUs then s
  else
    let (s, accepted) := s.transmitTracked .keepalive s.keepaliveFrame nowUs
    if accepted then { s with earlyFrames := [] } else s

def armStarvation (nowUs : ℕ) : TransactionRunner :=
  if s.starveDeadlineUs = 0 then { s with starveDeadlineUs := nowUs + s.idleTimeoutUs } else s

def waitForSteps (nowUs : ℕ) : TransactionRunner :=
  let s := s.armStarvation nowUs
  if s.starveDeadlineUs ≤ nowUs then s.abortWith .starved s.completedSteps
  else s.sendKeepaliveIfDue nowUs

def extendMessage (payload : List UInt8) : TransactionRunner :=
  { s with message := s.message ++ payload }

/-- `gatherMessage`: false when the record is consumed here, or the transaction ended. -/
def gatherMessage : TransactionRunner × Bool :=
  let step := s.current.step
  if txnIsotpMessageSizeMax < s.message.length + step.payload.length then
    (s.abortWith .invalidStep s.completedSteps, false)
  else
    let s := s.extendMessage step.payload
    if !step.isContinued then (s, true) else (s.releaseRecord, false)

def openIsotp : TransactionRunner :=
  if s.currentTemplate.isIsotp then
    { s with isotp := s.isotp.openLink s.current.step.canId s.channel s.currentTemplate.isotp }
  else s

def startTransmit : TransactionRunner :=
  { s with current := { s.current with phase := .transmit }, earlyFrames := [] }

/-- The rest of `loadNextStep` once the step is decoded and its message gathered. -/
def startStep (nowUs : ℕ) : TransactionRunner × Bool :=
  let s := s.openIsotp
  if s.current.step.isExpectOnly then
    let s := (s.startWait nowUs).replayEarlyFrames
    (s, s.active)
  else (s.startTransmit, true)

/-- `memset(&self->current, ...)` and the decoding of the record at the front of the ring. -/
def loadRecord (available : List UInt8) : TransactionRunner :=
  let (step, recordSize) := (TxnStep.decode available).getD ({}, 0)
  { s with current := { step, recordSize }, starveDeadlineUs := 0 }

def loadNextStep (nowUs : ℕ) : TransactionRunner × Bool :=
  let available := s.ring.peek
  if available.length = 0 ∧ s.stepsEnded then (s.finishDone, false)
  else if available.length = 0 then (s.waitForSteps nowUs, false)
  else
    let s := s.loadRecord available
    if s.current.step.isMessage then
      let (s, ready) := s.gatherMessage
      if !ready then (s, s.active) else s.startStep nowUs
    else s.startStep nowUs

def startGap (nowUs : ℕ) : TransactionRunner :=
  { s with nextTransmitUs := nowUs + s.currentTemplate.gapUs.toNat }

def finishTransmit (nowUs : ℕ) : TransactionRunner :=
  let s := s.startGap nowUs
  if !s.currentTemplate.isWaitingMode then s.completeStep else s.startWait nowUs

def startMessage (nowUs : ℕ) : TransactionRunner :=
  if s.current.messageStarted then s
  else
    { s with
      isotp := s.isotp.send s.message nowUs
      current := { s.current with messageStarted := true } }

def transmitMessage (nowUs : ℕ) : TransactionRunner × Bool :=
  let (s, event) := (s.startMessage nowUs).isotpTick nowUs
  if event = .failed then (s.abortWith s.isotp.failureReason s.completedSteps, false)
  else if event ≠ .sent then (s, false)
  else (s.finishTransmit nowUs, true)

/-- The frame of a generic step. -/
def stepFrame (channel : UInt8) (step : TxnStep) : FrameMessage :=
  { FrameMessage.zero with
    canId := step.canId, channel, frameFlags := step.frameFlags, payload := step.payload }

def armTransmit (nowUs : ℕ) : TransactionRunner :=
  if s.current.deadlineUs = 0 then
    { s with current := { s.current with deadlineUs := nowUs + s.currentTemplate.transmitTimeoutUs } }
  else s

def retryTransmit (nowUs : ℕ) : TransactionRunner :=
  { s with current := { s.current with retryAtUs := nowUs + transactionTxRetryUs } }

def transmitStep (nowUs : ℕ) : TransactionRunner × Bool :=
  if nowUs < s.nextTransmitUs ∨ nowUs < s.current.retryAtUs then (s, false)
  else if s.isIsotpStep then s.transmitMessage nowUs
  else
    let s := s.armTransmit nowUs
    let (s, accepted) := s.transmitTracked .step (stepFrame s.channel s.current.step) nowUs
    if accepted then (s.finishTransmit nowUs, true)
    else if s.current.deadlineUs ≤ nowUs then (s.abortWith .txFailed s.completedSteps, false)
    else (s.retryTransmit nowUs, false)

def tickIsotp (nowUs : ℕ) : TransactionRunner × Bool :=
  let (s, event) := s.isotpTick nowUs
  if event ≠ .failed then (s, true)
  else (s.abortWith s.isotp.failureReason s.completedSteps, false)

def applyExtension (nowUs : ℕ) : TransactionRunner :=
  if s.current.extendRequested then
    { s with current :=
      { s.current with
        extendRequested := false, deadlineUs := nowUs + s.currentTemplate.extendTimeoutUs } }
  else s

/-- The rest of `settleWait` once the link has been ticked. -/
def settle (nowUs : ℕ) : TransactionRunner × Bool :=
  if s.current.satisfied then (s.completeStep, true)
  else
    let s := s.applyExtension nowUs
    if nowUs < s.current.deadlineUs then (s, false)
    else if s.currentTemplate.flags &&& txnTemplateFlagSoft ≠ 0 then (s.completeStep, true)
    else (s.abortWith .timeout s.completedSteps, false)

def settleWait (nowUs : ℕ) : TransactionRunner × Bool :=
  if s.isIsotpStep then
    let (s, up) := s.tickIsotp nowUs
    if !up then (s, false) else s.settle nowUs
  else s.settle nowUs

/-- `runOnce`: the runner, and whether it should run on in this tick. -/
def runOnce (nowUs : ℕ) : TransactionRunner × Bool :=
  match s.current.phase with
  | .idle => s.loadNextStep nowUs
  | .transmit => s.transmitStep nowUs
  | .wait => s.settleWait nowUs

def reportProgress : TransactionRunner :=
  { s with reportedBytes := s.consumedBytes, reportDueUs := 0 }.emit
    (.progress ⟨s.channel, s.txnId, s.completedSteps, s.consumedBytes⟩)

def flushProgress (nowUs : ℕ) : TransactionRunner :=
  let pending := s.consumedBytes - s.reportedBytes
  if pending = 0 then s
  else if s.windowBytes / progressThresholdDivisor ≤ pending.toNat then s.reportProgress
  else if s.reportDueUs = 0 then { s with reportDueUs := nowUs + transactionProgressFlushUs }
  else if s.reportDueUs ≤ nowUs then s.reportProgress
  else s

end

/-- The loop of `TransactionRunner_Tick`, with the steps it may still run. -/
def runSteps (nowUs : ℕ) : ℕ → TransactionRunner → TransactionRunner
  | 0, s => s
  | budget + 1, s =>
    if !s.active then s
    else
      let (s, more) := s.runOnce nowUs
      if more then runSteps nowUs budget s else s

def stampTick (s : TransactionRunner) (nowUs : ℕ) : TransactionRunner := { s with lastTickUs := nowUs }

def tick (s : TransactionRunner) (nowUs : ℕ) : TransactionRunner :=
  if !s.active then s
  else
    let s := runSteps nowUs transactionStepsPerTickMax (s.stampTick nowUs)
    if s.active then s.flushProgress nowUs else s

def abort (s : TransactionRunner) (txnId : UInt16) : TransactionRunner :=
  if !s.active ∨ txnId ≠ s.txnId then s else s.abortWith .cancelled s.completedSteps

def cancel (s : TransactionRunner) : TransactionRunner := { s with active := false, ring := s.ring.clear }

end TransactionRunner

/-! ### Whole runs -/

/-- What the agent does with its runner. A frame comes through `Agent_OnCanFrame`,
which drops one whose length is not valid before the runner sees it. -/
inductive RunnerEvent
  | begin (b : TxnBeginMessage) (interfaceIndex : UInt8) (nowUs : ℕ)
  | roster (r : TxnRosterMessage)
  | template (t : TxnTemplateMessage)
  | steps (body : List UInt8)
  | frame (interfaceIndex : UInt8) (f : FrameMessage) (valid : f.Valid)
  | tick (nowUs : ℕ)
  | abort (txnId : UInt16)
  | cancel

namespace TransactionRunner

def handle (s : TransactionRunner) : RunnerEvent → TransactionRunner
  | .begin b i nowUs => (s.begin b i nowUs).1
  | .roster r => s.defineRoster r
  | .template t => s.defineTemplate t
  | .steps body => ((TxnStepsMessage.decode body).map s.pushSteps).getD s
  | .frame i f _ => s.onFrame i f
  | .tick nowUs => s.tick nowUs
  | .abort txnId => s.abort txnId
  | .cancel => s.cancel

end TransactionRunner
end CanHub
