/-
# CAN frames on the wire

`FrameMessage` is a CAN frame as the agent, the hub and the client pass it
around. The C struct keeps a 64-byte array and a length; here the payload is
the list of the bytes in use, and its length is the list's. A frame may only
be sent when its length fits its kind: 8 bytes, or 64 with the FD flag.
-/
import CanHub.Protocol.Wire

namespace CanHub

open Wire

@[simp] abbrev framePayloadMaxClassic : ℕ := 8
@[simp] abbrev framePayloadMaxFd : ℕ := 64
@[simp] abbrev messageHeaderSize : ℕ := 4
@[simp] abbrev frameFixedFieldsSize : ℕ := 16

def frameCanIdMask : UInt32 := 0x1FFFFFFF
def frameCanIdFlagErr : UInt32 := 0x20000000
def frameFlagFd : UInt8 := 1
def frameFlagBrs : UInt8 := 2
def frameRouteFlagBridged : UInt8 := 1
def frameRouteFlagEcho : UInt8 := 2
def frameRouteTokenShift : UInt8 := 2
def frameRouteTokenMask : UInt8 := 0xFC
def frameRouteNoToken : UInt8 := 0

/-- The `kMESSAGE_TYPE_FRAME` byte of a message header. -/
def messageTypeFrame : UInt8 := 0x40

structure FrameMessage where
  canId : UInt32
  timestampUs : UInt64
  channel : UInt8
  frameFlags : UInt8
  routeFlags : UInt8
  payload : List UInt8
deriving DecidableEq

namespace FrameMessage

/-- A frame after `memset(&frame, 0, sizeof(frame))`. -/
def zero : FrameMessage := ⟨0, 0, 0, 0, 0, []⟩

def isPayloadLengthValid (payloadLength : ℕ) (frameFlags : UInt8) : Bool :=
  if frameFlags &&& frameFlagFd ≠ 0 then payloadLength ≤ framePayloadMaxFd
  else payloadLength ≤ framePayloadMaxClassic

/-- The frame's length fits its kind. -/
def Valid (f : FrameMessage) : Prop := isPayloadLengthValid f.payload.length f.frameFlags

instance (f : FrameMessage) : Decidable f.Valid := inferInstanceAs (Decidable (_ = true))

theorem isPayloadLengthValid_le {n : ℕ} {flags : UInt8} (h : isPayloadLengthValid n flags) : n ≤ 64 := by
  unfold isPayloadLengthValid at h
  split at h <;> simp at h <;> omega

theorem isPayloadLengthValid_small {n : ℕ} (flags : UInt8) (h : n ≤ 8) : isPayloadLengthValid n flags := by
  unfold isPayloadLengthValid
  split <;> simp <;> omega

/-- `MessageHeader_Encode` with no header flags. -/
def encodeHeader (type : UInt8) (length : ℕ) : List UInt8 := [type, 0] ++ writeU16 (UInt16.ofNat length)

/-- `FrameMessage_Encode` into a buffer that is large enough: `none` where the
code returns size 0. -/
def encode (f : FrameMessage) : Option (List UInt8) :=
  if isPayloadLengthValid f.payload.length f.frameFlags then
    some (encodeHeader messageTypeFrame (frameFixedFieldsSize + f.payload.length)
      ++ writeU32 f.canId ++ writeU64 f.timestampUs
      ++ [f.channel, UInt8.ofNat f.payload.length, f.frameFlags, f.routeFlags] ++ f.payload)
  else none

theorem encode_isSome (f : FrameMessage) : f.encode.isSome ↔ f.Valid := by
  unfold encode Valid
  split <;> simp_all

end FrameMessage
end CanHub
