/-
# The agent's ISO-TP link

`IsotpLink` is one ISO 15765-2 conversation with a peer at the bus: it sends a
message as a single frame, or as a first frame and consecutive frames paced by
the peer's flow control, and reassembles the peer's messages, answering first
frames with flow control of its own. `onFrame` takes a frame from the bus and
`tick` carries the time and sends what is due. `Heard` lists what a frame can do
to the link (`onFrame_heard`).

The port's `transmit` is a parameter `tx` over whatever state the owner of the
link keeps (`ε`): it may refuse any frame. Sizes, counters and times are
natural numbers, since the code bounds every one of them below its type; bytes
that go on the wire are bytes. The sender's message is a copy of the caller's
buffer, which does not change while it is being sent. The receiver's message
is the list of the bytes received so far, so `received` is its length.
-/
import CanHub.Protocol.Steps

namespace CanHub

open Wire

@[simp] abbrev isotpTimeoutUs : ℕ := 1000000
@[simp] abbrev isotpWaitFramesMax : ℕ := 10
@[simp] abbrev isotpFramesPerTickMax : ℕ := 64
@[simp] abbrev isotpRetryUs : ℕ := 1000
@[simp] abbrev classicFrameSize : ℕ := 8
@[simp] abbrev singleFrameHeaderSize : ℕ := 1
@[simp] abbrev escapeSingleFrameHeaderSize : ℕ := 2
@[simp] abbrev firstFrameHeaderSize : ℕ := 2
@[simp] abbrev consecutiveFrameHeaderSize : ℕ := 1
@[simp] abbrev flowControlSize : ℕ := 3

def pciSingleFrame : UInt8 := 0
def pciFirstFrame : UInt8 := 1
def pciConsecutiveFrame : UInt8 := 2
def pciFlowControl : UInt8 := 3
def flowStatusContinue : UInt8 := 0
def flowStatusWait : UInt8 := 1
def flowStatusOverflow : UInt8 := 2

inductive IsotpEvent | none | sent | message | failed
deriving DecidableEq

inductive IsotpSenderState | idle | firstFrame | flowControl | consecutiveFrames
deriving DecidableEq

inductive IsotpReceiverState | idle | consecutiveFrames
deriving DecidableEq

structure IsotpSender where
  message : List UInt8 := []
  offset : ℕ := 0
  state : IsotpSenderState := .idle
  sequence : UInt8 := 0
  blockLimited : Bool := false
  blockRemaining : ℕ := 0
  waitCount : ℕ := 0
  stMinUs : ℕ := 0
  nextFrameUs : ℕ := 0
  deadlineUs : ℕ := 0
deriving DecidableEq

structure IsotpReceiver where
  message : List UInt8 := []
  length : ℕ := 0
  state : IsotpReceiverState := .idle
  sequence : UInt8 := 0
  blockReceived : ℕ := 0
  flowControlPending : Bool := false
  flowControlDueUs : ℕ := 0
  deadlineUs : ℕ := 0
deriving DecidableEq

structure IsotpLink where
  requestId : UInt32 := 0
  channel : UInt8 := 0
  parameters : TxnIsotpParameters := {}
  sender : IsotpSender := {}
  receiver : IsotpReceiver := {}
  failureReason : TxnReason := .none
deriving DecidableEq

namespace IsotpLink

/-! ### Opening, sending and what the parameters say -/

section

variable (l : IsotpLink)

/-- `IsotpLink_Open`. -/
def openLink (requestId : UInt32) (channel : UInt8) (parameters : TxnIsotpParameters) : IsotpLink :=
  { l with
    requestId, channel, parameters
    sender := {}
    receiver := { l.receiver with state := .idle, flowControlPending := false }
    failureReason := .none }

/-- `IsotpLink_Send`. -/
def send (message : List UInt8) (nowUs : ℕ) : IsotpLink :=
  { l with sender :=
    { message, state := .firstFrame, nextFrameUs := nowUs, deadlineUs := nowUs + isotpTimeoutUs } }

/-- `IsotpLink_MessageFrame`: the reassembled message as a frame of at most 64 bytes. -/
def messageFrame : FrameMessage :=
  { FrameMessage.zero with
    canId := l.parameters.responseId
    channel := l.channel
    payload := l.receiver.message.take (min l.receiver.length framePayloadMaxFd) }

def hasFlag (flag : UInt8) : Bool := l.parameters.flags &&& flag != 0

def addressSize : ℕ := if l.hasFlag txnIsotpFlagAddressByte then 1 else 0

def txDataLength (l : IsotpLink) : ℕ :=
  if l.hasFlag txnIsotpFlagFd then l.parameters.txDataLength.toNat else classicFrameSize

def classicSingleFrameCapacity : ℕ := classicFrameSize - l.addressSize - singleFrameHeaderSize

def escapeSingleFrameCapacity : ℕ :=
  if l.txDataLength ≤ classicFrameSize then 0
  else l.txDataLength - l.addressSize - escapeSingleFrameHeaderSize

def firstFrameCapacity : ℕ := l.txDataLength - l.addressSize - firstFrameHeaderSize

def consecutiveFrameCapacity : ℕ :=
  l.txDataLength - l.addressSize - consecutiveFrameHeaderSize

def stMinUs (stMin : UInt8) : ℕ :=
  if stMin ≤ 0x7F then stMin.toNat * 1000
  else if 0xF1 ≤ stMin ∧ stMin ≤ 0xF9 then (stMin - 0xF0).toNat * 100
  else 0x7F * 1000

/-- The lengths a CAN FD frame above 8 bytes can have. -/
def fdFrameLengths : List ℕ := [12, 16, 20, 24, 32, 48, 64]

def frameLength (size : ℕ) : ℕ :=
  if size ≤ classicFrameSize then if l.hasFlag txnIsotpFlagPadding then classicFrameSize else size
  else (fdFrameLengths.find? (size ≤ ·)).getD framePayloadMaxFd

def fail (reason : TxnReason) : IsotpLink :=
  { l with
    failureReason := reason
    sender := { l.sender with state := .idle }
    receiver := { l.receiver with state := .idle, flowControlPending := false } }

/-- The frame `transmitData` hands to the port. -/
def dataFrame (data : List UInt8) : FrameMessage :=
  let size := l.addressSize + data.length
  { FrameMessage.zero with
    canId := l.requestId
    channel := l.channel
    frameFlags :=
      (if l.hasFlag txnIsotpFlagFd then frameFlagFd else 0)
        ||| (if l.hasFlag txnIsotpFlagBitRateSwitch then frameFlagBrs else 0)
    payload := (if l.addressSize = 0 then [] else [l.parameters.txAddress]) ++ data
      ++ List.replicate (l.frameLength size - size) l.parameters.padding }

end

/-! ### The PDUs -/

def singleFrameData (l : IsotpLink) : List UInt8 :=
  let message := l.sender.message
  if l.classicSingleFrameCapacity < message.length
  then pciSingleFrame :: UInt8.ofNat message.length :: message
  else UInt8.ofNat message.length :: message

def firstFrameData (l : IsotpLink) : List UInt8 :=
  let message := l.sender.message
  (pciFirstFrame <<< 4 ||| UInt8.ofNat (message.length >>> 8)) :: UInt8.ofNat (message.length &&& 0xFF)
    :: message.take l.firstFrameCapacity

/-- The bytes of the message the next consecutive frame carries. -/
def consecutiveFrameSize (l : IsotpLink) : ℕ :=
  min (l.sender.message.length - l.sender.offset) l.consecutiveFrameCapacity

def consecutiveFrameData (l : IsotpLink) : List UInt8 :=
  (pciConsecutiveFrame <<< 4 ||| l.sender.sequence)
    :: (l.sender.message.drop l.sender.offset).take l.consecutiveFrameSize

def flowControlData (l : IsotpLink) (flowStatus : UInt8) : List UInt8 :=
  [pciFlowControl <<< 4 ||| flowStatus, l.parameters.blockSize, l.parameters.stMin]

/-! ### Sending -/

section Sending

variable {ε : Type} (tx : ε → FrameMessage → ε × Bool)

def retryLater (l : IsotpLink) (nowUs : ℕ) : IsotpLink × IsotpEvent :=
  if l.sender.deadlineUs ≤ nowUs then (l.fail .txFailed, .failed)
  else ({ l with sender := { l.sender with nextFrameUs := nowUs + isotpRetryUs } }, .none)

section

variable (l : IsotpLink) (env : ε) (nowUs : ℕ)

def sendSingleFrame : IsotpLink × ε × IsotpEvent :=
  let (env, accepted) := tx env (l.dataFrame l.singleFrameData)
  if accepted then ({ l with sender := { l.sender with state := .idle } }, env, .sent)
  else
    let (l, event) := l.retryLater nowUs
    (l, env, event)

def sendSegmentedFirstFrame : IsotpLink × ε × IsotpEvent :=
  let (env, accepted) := tx env (l.dataFrame l.firstFrameData)
  if accepted then
    ({ l with sender :=
      { l.sender with
        offset := l.firstFrameCapacity, sequence := 1, state := .flowControl
        deadlineUs := nowUs + isotpTimeoutUs } }, env, .none)
  else
    let (l, event) := l.retryLater nowUs
    (l, env, event)

def sendFirstFrame : IsotpLink × ε × IsotpEvent :=
  if l.sender.message.length ≤ l.classicSingleFrameCapacity
      ∨ l.sender.message.length ≤ l.escapeSingleFrameCapacity then l.sendSingleFrame tx env nowUs
  else l.sendSegmentedFirstFrame tx env nowUs

/-- The sender behind an accepted consecutive frame: done, at the end of a block, or going on. -/
def afterConsecutiveFrame (l : IsotpLink) (nowUs : ℕ) : IsotpLink × IsotpEvent :=
  let sender :=
    { l.sender with
      offset := l.sender.offset + l.consecutiveFrameSize
      sequence := (l.sender.sequence + 1) &&& 0x0F
      nextFrameUs := nowUs + l.sender.stMinUs
      deadlineUs := nowUs + isotpTimeoutUs }
  if sender.offset = sender.message.length then ({ l with sender := { sender with state := .idle } }, .sent)
  else if !sender.blockLimited then ({ l with sender }, .none)
  else
    let sender := { sender with blockRemaining := sender.blockRemaining - 1 }
    if sender.blockRemaining = 0 then ({ l with sender := { sender with state := .flowControl } }, .none)
    else ({ l with sender }, .none)

def sendConsecutiveFrame : IsotpLink × ε × IsotpEvent :=
  let (env, accepted) := tx env (l.dataFrame l.consecutiveFrameData)
  if accepted then
    let (l, event) := l.afterConsecutiveFrame nowUs
    (l, env, event)
  else
    let (l, event) := l.retryLater nowUs
    (l, env, event)

end

/-- The loop of `tickSender`, with the frames it may still send in this tick. -/
def sendDue (nowUs : ℕ) : ℕ → IsotpLink → ε → IsotpLink × ε × IsotpEvent
  | 0, l, env => (l, env, .none)
  | budget + 1, l, env =>
    if nowUs < l.sender.nextFrameUs then (l, env, .none)
    else
      match l.sender.state with
      | .firstFrame =>
        let (l, env, event) := l.sendFirstFrame tx env nowUs
        if event = .none then sendDue nowUs budget l env else (l, env, event)
      | .consecutiveFrames =>
        let (l, env, event) := l.sendConsecutiveFrame tx env nowUs
        if event = .none then sendDue nowUs budget l env else (l, env, event)
      | _ => (l, env, .none)

def tickSender (l : IsotpLink) (env : ε) (nowUs : ℕ) : IsotpLink × ε × IsotpEvent :=
  if l.sender.state = .flowControl then
    if l.sender.deadlineUs ≤ nowUs then (l.fail .flowControlTimeout, env, .failed) else (l, env, .none)
  else sendDue tx nowUs isotpFramesPerTickMax l env

def tickReceiver (l : IsotpLink) (env : ε) (nowUs : ℕ) : IsotpLink × ε × IsotpEvent :=
  if l.receiver.state ≠ .consecutiveFrames then (l, env, .none)
  else if !l.receiver.flowControlPending then
    if l.receiver.deadlineUs ≤ nowUs then (l.fail .consecutiveFrameTimeout, env, .failed) else (l, env, .none)
  else if nowUs < l.receiver.flowControlDueUs then (l, env, .none)
  else
    let (env, accepted) := tx env (l.dataFrame (l.flowControlData flowStatusContinue))
    if accepted then
      ({ l with receiver :=
        { l.receiver with flowControlPending := false, deadlineUs := nowUs + isotpTimeoutUs } }, env, .none)
    else ({ l with receiver := { l.receiver with flowControlDueUs := nowUs + isotpRetryUs } }, env, .none)

/-- `IsotpLink_Tick`. -/
def tick (l : IsotpLink) (env : ε) (nowUs : ℕ) : IsotpLink × ε × IsotpEvent :=
  let (l, env, event) := l.tickReceiver tx env nowUs
  if event ≠ .none then (l, env, event) else l.tickSender tx env nowUs

/-! ### Receiving -/

section

variable (l : IsotpLink) (f : FrameMessage)

def isFromPeer : Bool :=
  f.canId = l.parameters.responseId ∧ l.addressSize < f.payload.length
    ∧ (0 < l.addressSize → byteAt f.payload 0 = l.parameters.rxAddress)
    ∧ f.routeFlags &&& frameRouteFlagEcho = 0

def onFlowControl (nowUs : ℕ) : IsotpLink × IsotpEvent :=
  let pdu := f.payload.drop l.addressSize
  let flowStatus := byteAt pdu 0 &&& 0x0F
  let sender := l.sender
  if sender.state ≠ .flowControl ∨ f.payload.length < l.addressSize + flowControlSize then (l, .none)
  else if flowStatus = flowStatusOverflow then (l.fail .overflow, .failed)
  else if flowStatus = flowStatusWait then
    let l := { l with sender := { sender with waitCount := sender.waitCount + 1 } }
    if isotpWaitFramesMax < l.sender.waitCount then (l.fail .waitLimit, .failed)
    else ({ l with sender := { l.sender with deadlineUs := nowUs + isotpTimeoutUs } }, .none)
  else if flowStatus ≠ flowStatusContinue then (l, .none)
  else
    ({ l with sender :=
      { sender with
        waitCount := 0
        blockRemaining := (byteAt pdu 1).toNat
        blockLimited := byteAt pdu 1 ≠ 0
        stMinUs := stMinUs (byteAt pdu 2)
        state := .consecutiveFrames
        nextFrameUs := nowUs
        deadlineUs := nowUs + isotpTimeoutUs } }, .none)

/-- A single frame's header size and message length; beyond 8 bytes the length is in the next byte. -/
def singleFrameHeader : ℕ × ℕ :=
  let pdu := f.payload.drop l.addressSize
  let length := (byteAt pdu 0 &&& 0x0F).toNat
  if length = 0 ∧ classicFrameSize < f.payload.length
  then (escapeSingleFrameHeaderSize, (byteAt pdu 1).toNat) else (singleFrameHeaderSize, length)

def onSingleFrame : IsotpLink × IsotpEvent :=
  let pdu := f.payload.drop l.addressSize
  let pduSize := f.payload.length - l.addressSize
  let headerSize := (l.singleFrameHeader f).1
  let length := (l.singleFrameHeader f).2
  if length = 0 ∨ pduSize < headerSize + length then (l, .none)
  else
    ({ l with receiver :=
      { l.receiver with
        message := (pdu.drop headerSize).take length
        length, state := .idle, flowControlPending := false } }, .message)

def onFirstFrame (l : IsotpLink) (env : ε) (f : FrameMessage) (nowUs : ℕ) : IsotpLink × ε × IsotpEvent :=
  let pdu := f.payload.drop l.addressSize
  let dataSize := f.payload.length - l.addressSize - firstFrameHeaderSize
  let length := (byteAt pdu 0 &&& 0x0F).toNat <<< 8 ||| (byteAt pdu 1).toNat
  if f.payload.length < classicFrameSize then (l, env, .none)
  else if length = 0 then
    let (env, _) := tx env (l.dataFrame (l.flowControlData flowStatusOverflow))
    (l.fail .overflow, env, .failed)
  else if length ≤ dataSize then (l, env, .none)
  else
    ({ l with receiver :=
      { l.receiver with
        message := (pdu.drop firstFrameHeaderSize).take dataSize
        length, sequence := 1, blockReceived := 0, state := .consecutiveFrames
        flowControlPending := true, flowControlDueUs := nowUs } }, env, .none)

def onConsecutiveFrame (nowUs : ℕ) : IsotpLink × IsotpEvent :=
  let pdu := f.payload.drop l.addressSize
  let receiver := l.receiver
  let carried := f.payload.length - l.addressSize - consecutiveFrameHeaderSize
  let size := min (receiver.length - receiver.message.length) carried
  if receiver.state ≠ .consecutiveFrames ∨ receiver.flowControlPending then (l, .none)
  else if byteAt pdu 0 &&& 0x0F ≠ receiver.sequence then (l.fail .sequenceError, .failed)
  else if size = 0 then (l, .none)
  else
    let receiver :=
      { receiver with
        message := receiver.message ++ (pdu.drop consecutiveFrameHeaderSize).take size
        sequence := (receiver.sequence + 1) &&& 0x0F }
    if receiver.message.length = receiver.length then
      ({ l with receiver := { receiver with state := .idle } }, .message)
    else
      let receiver :=
        { receiver with deadlineUs := nowUs + isotpTimeoutUs, blockReceived := receiver.blockReceived + 1 }
      if l.parameters.blockSize ≠ 0 ∧ receiver.blockReceived = l.parameters.blockSize.toNat then
        ({ l with receiver :=
          { receiver with blockReceived := 0, flowControlPending := true, flowControlDueUs := nowUs } }, .none)
      else ({ l with receiver }, .none)

end

/-- `IsotpLink_OnFrame`. -/
def onFrame (l : IsotpLink) (env : ε) (f : FrameMessage) (nowUs : ℕ) : IsotpLink × ε × IsotpEvent :=
  let pciType := byteAt f.payload l.addressSize >>> 4
  if !l.isFromPeer f then (l, env, .none)
  else if pciType = pciFlowControl then
    let (l, event) := l.onFlowControl f nowUs
    (l, env, event)
  else if pciType = pciSingleFrame then
    let (l, event) := l.onSingleFrame f
    (l, env, event)
  else if pciType = pciFirstFrame then l.onFirstFrame tx env f nowUs
  else if pciType = pciConsecutiveFrame then
    let (l, event) := l.onConsecutiveFrame f nowUs
    (l, env, event)
  else (l, env, .none)

/-! ### What a link does to its owner

The link touches its owner's state only through `tx`, so a relation that every
transmission keeps and that composes is kept by every operation. -/

variable {tx} {R : ε → ε → Prop} (hrefl : ∀ e, R e e) (htrans : ∀ a b c, R a b → R b c → R a c)
  (htx : ∀ e f, R e (tx e f).1)

variable (l : IsotpLink)

include htx in
theorem sendFirstFrame_env (env : ε) (nowUs : ℕ) : R env (l.sendFirstFrame tx env nowUs).2.1 := by
  unfold sendFirstFrame sendSingleFrame sendSegmentedFirstFrame
  split <;> dsimp only <;> split <;> exact htx env _

include htx in
theorem sendConsecutiveFrame_env (env : ε) (nowUs : ℕ) :
    R env (l.sendConsecutiveFrame tx env nowUs).2.1 := by
  unfold sendConsecutiveFrame
  dsimp only
  split <;> exact htx env _

include hrefl htrans htx in
theorem sendDue_env (nowUs : ℕ) : ∀ (budget : ℕ) (l : IsotpLink) (env : ε),
    R env (sendDue tx nowUs budget l env).2.1
  | 0, _, env => hrefl env
  | budget + 1, l, env => by
    unfold sendDue
    split
    · exact hrefl env
    split
    · have h := sendFirstFrame_env htx l env nowUs
      dsimp only
      split
      · exact htrans _ _ _ h (sendDue_env nowUs budget _ _)
      · exact h
    · have h := sendConsecutiveFrame_env htx l env nowUs
      dsimp only
      split
      · exact htrans _ _ _ h (sendDue_env nowUs budget _ _)
      · exact h
    · exact hrefl env

include hrefl htx in
theorem tickReceiver_env (env : ε) (nowUs : ℕ) : R env (l.tickReceiver tx env nowUs).2.1 := by
  unfold tickReceiver
  split
  · exact hrefl env
  split
  · split <;> exact hrefl env
  split
  · exact hrefl env
  · dsimp only
    split <;> exact htx env _

include hrefl htrans htx in
theorem tick_env (env : ε) (nowUs : ℕ) : R env (l.tick tx env nowUs).2.1 := by
  have h := tickReceiver_env hrefl htx l env nowUs
  unfold tick
  dsimp only
  split
  · exact h
  · refine htrans _ _ _ h ?_
    unfold tickSender
    split
    · split <;> exact hrefl _
    · exact sendDue_env hrefl htrans htx nowUs _ _ _

end Sending

/-! ### What a link keeps -/

/-- The conversation of a link: whom it talks to and how. -/
def line (l : IsotpLink) : UInt32 × UInt8 × TxnIsotpParameters := (l.requestId, l.channel, l.parameters)

theorem parameters_of_line {l l' : IsotpLink} (h : l'.line = l.line) : l'.parameters = l.parameters :=
  congrArg (·.2.2) h

section Line

variable {ε : Type} (tx : ε → FrameMessage → ε × Bool)

variable (l : IsotpLink)

/-! ### What a frame can do -/

/-- The sender behind a flow control frame that lets it go on. -/
def granted (a : IsotpLink) (blockSize stMin : UInt8) (nowUs : ℕ) : IsotpLink :=
  { a with sender :=
    { a.sender with
      waitCount := 0
      blockRemaining := blockSize.toNat
      blockLimited := blockSize ≠ 0
      stMinUs := stMinUs stMin
      state := .consecutiveFrames
      nextFrameUs := nowUs
      deadlineUs := nowUs + isotpTimeoutUs } }

/-- What a frame of the bus can do to a link, its port and what it reports. -/
inductive Heard (env : ε) (f : FrameMessage) : IsotpLink → ε → IsotpEvent → Prop
  | ignored : Heard env f l env .none
  /-- the link gives up, at most with the flow control that says so -/
  | failed {l' : IsotpLink} {env' : ε} (hline : l'.line = l.line) (hsender : l'.sender.state = .idle)
      (hreceiver : l'.receiver.state = .idle) (henv : env' = env ∨ ∃ g, env' = (tx env g).1) :
      Heard env f l' env' .failed
  /-- flow control makes the sender wait, or lets it go on -/
  | waits (waitCount deadlineUs : ℕ) :
      Heard env f { l with sender := { l.sender with waitCount, deadlineUs } } env .none
  | granted (hstate : l.sender.state = .flowControl) (blockSize stMin : UInt8) (nowUs : ℕ) :
      Heard env f (l.granted blockSize stMin nowUs) env .none
  /-- the receiver is inside a message, about to send flow control unless it goes on with a block -/
  | receiving (receiver : IsotpReceiver) (hgoes : receiver.flowControlPending = true
      ∨ l.receiver.state = .consecutiveFrames ∧ l.receiver.flowControlPending = false) :
      Heard env f { l with receiver } env .none
  /-- a single frame, or the last one of the message being received -/
  | completes (receiver : IsotpReceiver) (hpeer : l.isFromPeer f = true) (hidle : receiver.state = .idle)
      (hlength : if byteAt f.payload l.addressSize >>> 4 = pciSingleFrame then
          receiver.length = (l.singleFrameHeader f).2
        else (l.receiver.state = .consecutiveFrames ∧ l.receiver.flowControlPending = false)
          ∧ receiver.length = l.receiver.length) :
      Heard env f { l with receiver } env .message

theorem onFlowControl_heard (env : ε) (f : FrameMessage) (nowUs : ℕ) :
    Heard tx l env f (l.onFlowControl f nowUs).1 env (l.onFlowControl f nowUs).2 := by
  unfold onFlowControl
  dsimp only
  split
  · exact .ignored
  rename_i hwaiting
  split
  · exact .failed rfl rfl rfl (.inl rfl)
  split
  · split
    · exact .failed rfl rfl rfl (.inl rfl)
    · exact .waits _ _
  split
  · exact .ignored
  · exact .granted (by tauto) _ _ nowUs

/-- **What a frame does is one of the cases of `Heard`.** -/
theorem onFrame_heard (env : ε) (f : FrameMessage) (nowUs : ℕ) :
    ∃ l' env' event, l.onFrame tx env f nowUs = (l', env', event) ∧ Heard tx l env f l' env' event := by
  refine ⟨(l.onFrame tx env f nowUs).1, (l.onFrame tx env f nowUs).2.1, (l.onFrame tx env f nowUs).2.2, rfl, ?_⟩
  unfold onFrame
  cases hpeer : l.isFromPeer f with
  | false => exact .ignored
  | true =>
    simp only [Bool.not_true, Bool.false_eq_true, if_false]
    split
    · exact onFlowControl_heard tx l env f nowUs
    split
    · rename_i hsingle
      unfold onSingleFrame
      dsimp only
      split
      · exact .ignored
      · exact .completes _ hpeer rfl (by rw [if_pos hsingle])
    rename_i hsingle
    split
    · unfold onFirstFrame
      dsimp only
      split
      · exact .ignored
      split
      · exact .failed rfl rfl rfl (.inr ⟨_, rfl⟩)
      split
      · exact .ignored
      · exact .receiving _ (.inl rfl)
    split
    · unfold onConsecutiveFrame
      dsimp only
      split
      · exact .ignored
      rename_i hstate
      have hgoes : l.receiver.state = .consecutiveFrames ∧ l.receiver.flowControlPending = false := by
        simpa using hstate
      split
      · exact .failed rfl rfl rfl (.inl rfl)
      split
      · exact .ignored
      split
      · refine .completes _ hpeer rfl ?_
        rw [if_neg hsingle]
        exact ⟨hgoes, rfl⟩
      split
      · exact .receiving _ (.inl rfl)
      · exact .receiving _ (.inr hgoes)
    · exact .ignored

theorem onFrame_line (env : ε) (f : FrameMessage) (nowUs : ℕ) :
    (l.onFrame tx env f nowUs).1.line = l.line := by
  obtain ⟨l', env', event, hr, h⟩ := onFrame_heard tx l env f nowUs
  rw [hr]
  cases h with
  | failed hline => exact hline
  | _ => rfl

variable {tx} in
/-- What the port keeps at every transmission, it keeps at a frame. -/
theorem onFrame_env {R : ε → ε → Prop} (hrefl : ∀ e, R e e) (htx : ∀ e f, R e (tx e f).1) (l : IsotpLink) (env : ε)
    (f : FrameMessage) (nowUs : ℕ) : R env (l.onFrame tx env f nowUs).2.1 := by
  obtain ⟨l', env', event, hr, h⟩ := onFrame_heard tx l env f nowUs
  rw [hr]
  cases h with
  | failed _ _ _ henv =>
    rcases henv with rfl | ⟨g, rfl⟩
    · exact hrefl _
    · exact htx _ g
  | _ => exact hrefl _

end Line
end IsotpLink
end CanHub
