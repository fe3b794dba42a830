/-
# The transaction messages

The messages a client, the hub and an agent exchange about one transaction,
as their codecs read them. Fields the code compares with enumerators but never
checks on decoding stay the bytes they are on the wire; the enumerators are
inductive types with their `code`.

Only `TxnStatusMessage` is encoded here byte by byte: it is the one message of
the agent whose encoder can refuse what it is given (`encode_isSome`), and what
it accepts reads back unchanged (`decode_body`).
-/
import CanHub.Protocol.Frame

namespace CanHub

open Wire

@[simp] abbrev txnTemplatesMax : ℕ := 16
@[simp] abbrev txnRosterMax : ℕ := 64
@[simp] abbrev txnPatternPayloadBytes : ℕ := 8
@[simp] abbrev txnIsotpMessageSizeMax : ℕ := 4095
@[simp] abbrev txnStatusBodySize : ℕ := 112
@[simp] abbrev txnTemplateBodySize : ℕ := 108
@[simp] abbrev txnRosterBodySize : ℕ := 268

def txnBeginFlagExclusive : UInt8 := 1
def txnTemplateFlagSoft : UInt8 := 1
def txnTemplateFlagMismatchAbort : UInt8 := 2
def txnStatusFlagHasRxFrame : UInt8 := 1
def txnStatusFlagRosterStep : UInt8 := 2
def txnIsotpFlagPadding : UInt8 := 1
def txnIsotpFlagAddressByte : UInt8 := 2
def txnIsotpFlagFd : UInt8 := 4
def txnIsotpFlagBitRateSwitch : UInt8 := 8

inductive TxnOriginSource | none | canId | payload
deriving DecidableEq

inductive TxnBeginStatus | ok | busy | writeDenied | unsupported | reliableChannelRequired | invalid
deriving DecidableEq

inductive TxnTemplateType | generic | isotp
deriving DecidableEq

inductive TxnAdvanceMode | none | count | rosterAll | rosterK
deriving DecidableEq

inductive TxnPatternIndex | advance | abort | extend
deriving DecidableEq

inductive TxnState | done | aborted
deriving DecidableEq

inductive TxnReason
  | none | timeout | abortMatch | valueMismatch | txFailed | cancelled | starved | overrun
  | agentDisconnected | invalidStep | flowControlTimeout | consecutiveFrameTimeout | overflow
  | sequenceError | waitLimit | unsupported
deriving DecidableEq

def TxnOriginSource.code (s : TxnOriginSource) : UInt8 := UInt8.ofNat s.ctorIdx
def TxnBeginStatus.code (s : TxnBeginStatus) : UInt8 := UInt8.ofNat s.ctorIdx
def TxnTemplateType.code (t : TxnTemplateType) : UInt8 := UInt8.ofNat t.ctorIdx
def TxnAdvanceMode.code (m : TxnAdvanceMode) : UInt8 := UInt8.ofNat m.ctorIdx
def TxnPatternIndex.code (p : TxnPatternIndex) : UInt8 := UInt8.ofNat p.ctorIdx
def TxnState.code (s : TxnState) : UInt8 := UInt8.ofNat s.ctorIdx
def TxnReason.code (r : TxnReason) : UInt8 := UInt8.ofNat r.ctorIdx

/-- `kTXN_ADVANCE_MODE_MAX`. -/
def txnAdvanceModeMax : UInt8 := 4

structure TxnOriginExtractor where
  source : UInt8 := 0
  shift : UInt8 := 0
  payloadOffset : UInt8 := 0
  mask : UInt32 := 0
deriving DecidableEq

structure TxnKeepalive where
  periodMs : UInt32 := 0
  canId : UInt32 := 0
  frameFlags : UInt8 := 0
  payload : List UInt8 := []
deriving DecidableEq

structure TxnBeginMessage where
  channel : UInt8
  flags : UInt8 := 0
  idleTimeoutMs : UInt32 := 0
  keepalive : TxnKeepalive := {}
deriving DecidableEq

structure TxnBeginAckMessage where
  channel : UInt8
  status : UInt8
  txnId : UInt16
  windowBytes : UInt32
deriving DecidableEq

structure TxnPattern where
  canId : UInt32 := 0
  canMask : UInt32 := 0
  payloadMask : UInt64 := 0
  payloadValue : UInt64 := 0
deriving DecidableEq

structure TxnIsotpParameters where
  responseId : UInt32 := 0
  flags : UInt8 := 0
  txAddress : UInt8 := 0
  rxAddress : UInt8 := 0
  padding : UInt8 := 0
  txDataLength : UInt8 := 0
  blockSize : UInt8 := 0
  stMin : UInt8 := 0
deriving DecidableEq

structure TxnTemplateMessage where
  channel : UInt8 := 0
  templateId : UInt8 := 0
  txnId : UInt16 := 0
  advanceMode : UInt8 := 0
  flags : UInt8 := 0
  countK : UInt8 := 0
  patternsPresent : UInt8 := 0
  timeoutMs : UInt32 := 0
  gapUs : UInt32 := 0
  extendTimeoutMs : UInt32 := 0
  type : UInt8 := 0
  advance : TxnPattern := {}
  abort : TxnPattern := {}
  extend : TxnPattern := {}
  isotp : TxnIsotpParameters := {}
deriving DecidableEq

/-- `patterns[i]` of a template. -/
def TxnTemplateMessage.patterns (t : TxnTemplateMessage) : TxnPatternIndex → TxnPattern
  | .advance => t.advance
  | .abort => t.abort
  | .extend => t.extend

structure TxnProgressMessage where
  channel : UInt8
  txnId : UInt16
  completedSteps : UInt32
  consumedBytes : UInt32
deriving DecidableEq

structure TxnRxFrame where
  canId : UInt32 := 0
  frameFlags : UInt8 := 0
  payload : List UInt8 := []
deriving DecidableEq

structure TxnStatusMessage where
  channel : UInt8 := 0
  state : UInt8 := 0
  txnId : UInt16 := 0
  failingSeq : UInt32 := 0
  offendingOrigin : UInt32 := 0
  seenBitmap : UInt64 := 0
  expected : UInt64 := 0
  got : UInt64 := 0
  completedSteps : UInt32 := 0
  reason : UInt8 := 0
  flags : UInt8 := 0
  rxFrame : TxnRxFrame := {}
deriving DecidableEq

structure TxnAbortMessage where
  channel : UInt8
  txnId : UInt16
deriving DecidableEq

structure TxnRosterMessage where
  channel : UInt8 := 0
  txnId : UInt16 := 0
  origin : TxnOriginExtractor := {}
  roster : List UInt32 := []
deriving DecidableEq

structure TxnRosterReportMessage where
  channel : UInt8
  txnId : UInt16
  seq : UInt32
  seenBitmap : UInt64
deriving DecidableEq

namespace TxnStatusMessage

/-- The `kMESSAGE_TYPE_TXN_STATUS` byte of a message header. -/
def messageType : UInt8 := 0x46

section

variable (s : TxnStatusMessage)

/-- The fields before the kept frame's description. -/
def front : List UInt8 :=
  [s.channel, s.state] ++ writeU16 s.txnId ++ writeU32 s.failingSeq ++ writeU32 s.offendingOrigin
    ++ writeU64 s.seenBitmap ++ writeU64 s.expected ++ writeU64 s.got ++ writeU32 s.completedSteps
    ++ writeU32 s.rxFrame.canId

/-- The 112-byte body `TxnStatusMessage_Encode` writes. -/
def body : List UInt8 :=
  s.front ++ ([s.reason, UInt8.ofNat s.rxFrame.payload.length, s.rxFrame.frameFlags, s.flags]
    ++ s.rxFrame.payload ++ List.replicate (framePayloadMaxFd - s.rxFrame.payload.length) 0)

/-- `TxnStatusMessage_Encode` into a buffer that is large enough: `none` where
the code returns size 0. -/
def encode : Option (List UInt8) :=
  if FrameMessage.isPayloadLengthValid s.rxFrame.payload.length s.rxFrame.frameFlags then
    some (FrameMessage.encodeHeader messageType txnStatusBodySize ++ s.body)
  else none

/-- `TxnStatusMessage_Decode` of a message body. -/
def decode (payload : List UInt8) : Option TxnStatusMessage :=
  let rxLength := (byteAt payload 45).toNat
  let rxFlags := byteAt payload 46
  if payload.length < txnStatusBodySize then none
  else if !FrameMessage.isPayloadLengthValid rxLength rxFlags then none
  else some
    { channel := byteAt payload 0, state := byteAt payload 1, txnId := readU16 (payload.drop 2),
      failingSeq := readU32 (payload.drop 4), offendingOrigin := readU32 (payload.drop 8),
      seenBitmap := readU64 (payload.drop 12), expected := readU64 (payload.drop 20),
      got := readU64 (payload.drop 28), completedSteps := readU32 (payload.drop 36),
      reason := byteAt payload 44, flags := byteAt payload 47,
      rxFrame := ⟨readU32 (payload.drop 40), rxFlags, (payload.drop 48).take rxLength⟩ }

/-- The encoder refuses exactly the statuses whose kept frame has a length
its flags do not allow. -/
theorem encode_isSome :
    s.encode.isSome ↔ FrameMessage.isPayloadLengthValid s.rxFrame.payload.length s.rxFrame.frameFlags := by
  unfold encode
  split <;> simp_all

theorem length_front : s.front.length = 44 := by simp [front]

theorem length_body (h : s.rxFrame.payload.length ≤ 64) : s.body.length = 112 := by
  simp [body, length_front]
  omega

/-- **What the encoder accepts reads back.** -/
theorem decode_body
    (h : FrameMessage.isPayloadLengthValid s.rxFrame.payload.length s.rxFrame.frameFlags) :
    decode s.body = some s := by
  have hle := FrameMessage.isPayloadLengthValid_le h
  have hlen : (byteAt s.body 45).toNat = s.rxFrame.payload.length := by
    rw [body, byteAt_append s.length_front _ 1]
    simp [byteAt]
    omega
  have hflags : byteAt s.body 46 = s.rxFrame.frameFlags := byteAt_append s.length_front _ 2
  have hreason : byteAt s.body 44 = s.reason := byteAt_append s.length_front _ 0
  have hsflags : byteAt s.body 47 = s.flags := byteAt_append s.length_front _ 3
  have hpayload : (s.body.drop 48).take s.rxFrame.payload.length = s.rxFrame.payload := by
    rw [body, drop_append s.length_front _ 4]
    simp
  unfold decode
  simp only [hlen, hflags, hreason, hsflags, hpayload, length_body s hle, h]
  rw [if_neg (by decide), if_neg (by decide)]
  -- every field sits at its offset with the rest of the body behind it
  simp [body, front, byteAt, List.drop_append]

end

end TxnStatusMessage
end CanHub
