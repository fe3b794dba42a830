/-
# The receiver's buffer under arbitrary traffic

`IsotpLink` keeps a message in reassembly as a list. The code keeps it in
`message[4095]`, with `length` and `received` in sixteen bits, the sizes of a
frame in eight, and copies with `memcpy` at an offset it computes by narrow
subtractions of what the peer sent. `BufferedLink` is the link with that
buffer: the state of `link` but for the three fields the buffer replaces, and
every operation that copies reports its `extent`, the end of what it wrote.

The machine arithmetic is met here once: `onSingleFrame_eq`, `onFirstFrame_eq`
and `onConsecutiveFrame_eq` say in numbers and lists what each operation does,
and `Leaves` says what the sender and the clock may do to the receiver. On any
frame the two links do the same (`Mirrors.onFrame`).
-/
import CanHub.Agent.Reassembly
import CanHub.Lib.Memory

namespace CanHub

open Wire List UInt16

@[simp] abbrev isotpMessageMax : ℕ := 4095

/-- The part of `IsotpReceiver` that a peer's frames are copied and counted in. -/
structure IsotpBuffer where
  message : ℕ → UInt8 := fun _ => 0
  length : UInt16 := 0
  received : UInt16 := 0
  blockReceived : UInt8 := 0

structure BufferedLink where
  link : IsotpLink := {}
  buffer : IsotpBuffer := {}

namespace BufferedLink

/-! ### The operations that copy -/

def payloadLength (f : FrameMessage) : UInt8 := UInt8.ofNat f.payload.length

def pdu (b : BufferedLink) (f : FrameMessage) : List UInt8 := f.payload.drop b.link.addressSize

def addressSize (b : BufferedLink) : UInt8 := UInt8.ofNat b.link.addressSize

def fail (b : BufferedLink) (reason : TxnReason) : BufferedLink := { b with link := b.link.fail reason }

def singleFrameHeader (b : BufferedLink) (f : FrameMessage) : UInt8 × UInt8 :=
  let length := byteAt (b.pdu f) 0 &&& 0x0F
  if length = 0 ∧ 8 < payloadLength f then (2, byteAt (b.pdu f) 1) else (1, length)

def onSingleFrame (b : BufferedLink) (f : FrameMessage) : BufferedLink × IsotpEvent × ℕ :=
  let pduSize := payloadLength f - b.addressSize
  let headerSize := (b.singleFrameHeader f).1
  let length := (b.singleFrameHeader f).2
  if length = 0 ∨ pduSize.toNat < headerSize.toNat + length.toNat then (b, .none, 0)
  else
    ({ link :=
        { b.link with receiver := { b.link.receiver with state := .idle, flowControlPending := false } }
       buffer :=
        { b.buffer with
          message := Memory.store b.buffer.message 0 (((b.pdu f).drop headerSize.toNat).take length.toNat)
          length := length.toUInt16 } }, .message, length.toNat)

section Transmits

variable {ε : Type} (tx : ε → FrameMessage → ε × Bool)

def onFirstFrame (b : BufferedLink) (env : ε) (f : FrameMessage) (nowUs : ℕ) :
    BufferedLink × ε × IsotpEvent × ℕ :=
  let dataSize := payloadLength f - b.addressSize - 2
  let highBits := (byteAt (b.pdu f) 0 &&& 0x0F).toUInt16 <<< 8
  let length := highBits ||| (byteAt (b.pdu f) 1).toUInt16
  if payloadLength f < 8 then (b, env, .none, 0)
  else if length = 0 then
    let (env, _) := tx env (b.link.dataFrame (b.link.flowControlData flowStatusOverflow))
    (b.fail .overflow, env, .failed, 0)
  else if length ≤ dataSize.toUInt16 then (b, env, .none, 0)
  else
    ({ link :=
        { b.link with receiver :=
          { b.link.receiver with
            sequence := 1, state := .consecutiveFrames, flowControlPending := true, flowControlDueUs := nowUs } }
       buffer :=
        { message := Memory.store b.buffer.message 0 (((b.pdu f).drop firstFrameHeaderSize).take dataSize.toNat)
          length, received := dataSize.toUInt16, blockReceived := 0 } }, env, .none, dataSize.toNat)

/-- The bytes of a consecutive frame that are copied: what it carries, or what is still missing. -/
def copiedSize (b : BufferedLink) (f : FrameMessage) : UInt8 :=
  let carried := payloadLength f - b.addressSize - 1
  let remaining := b.buffer.length - b.buffer.received
  if remaining < carried.toUInt16 then remaining.toUInt8 else carried

def onConsecutiveFrame (b : BufferedLink) (f : FrameMessage) (nowUs : ℕ) : BufferedLink × IsotpEvent × ℕ :=
  let size := b.copiedSize f
  if b.link.receiver.state ≠ .consecutiveFrames ∨ b.link.receiver.flowControlPending then (b, .none, 0)
  else if byteAt (b.pdu f) 0 &&& 0x0F ≠ b.link.receiver.sequence then (b.fail .sequenceError, .failed, 0)
  else if size = 0 then (b, .none, 0)
  else
    let extent := b.buffer.received.toNat + size.toNat
    let buffer :=
      { b.buffer with
        message := Memory.store b.buffer.message b.buffer.received.toNat
          (((b.pdu f).drop consecutiveFrameHeaderSize).take size.toNat)
        received := b.buffer.received + size.toUInt16 }
    let receiver := { b.link.receiver with sequence := (b.link.receiver.sequence + 1) &&& 0x0F }
    if buffer.received == buffer.length then
      ({ link := { b.link with receiver := { receiver with state := .idle } }, buffer }, .message, extent)
    else
      let receiver := { receiver with deadlineUs := nowUs + isotpTimeoutUs }
      let buffer := { buffer with blockReceived := buffer.blockReceived + 1 }
      if b.link.parameters.blockSize ≠ 0 ∧ buffer.blockReceived = b.link.parameters.blockSize then
        ({ link :=
            { b.link with receiver := { receiver with flowControlPending := true, flowControlDueUs := nowUs } }
           buffer := { buffer with blockReceived := 0 } }, .none, extent)
      else ({ link := { b.link with receiver }, buffer }, .none, extent)

/-- `IsotpLink_OnFrame`, with the end of what it wrote into the buffer. -/
def onFrame (b : BufferedLink) (env : ε) (f : FrameMessage) (nowUs : ℕ) : BufferedLink × ε × IsotpEvent × ℕ :=
  let pciType := byteAt f.payload b.link.addressSize >>> 4
  if !b.link.isFromPeer f then (b, env, .none, 0)
  else if pciType = pciFlowControl then
    let (link, event) := b.link.onFlowControl f nowUs
    ({ b with link }, env, event, 0)
  else if pciType = pciSingleFrame then
    let (b, event, extent) := b.onSingleFrame f
    (b, env, event, extent)
  else if pciType = pciFirstFrame then b.onFirstFrame tx env f nowUs
  else if pciType = pciConsecutiveFrame then
    let (b, event, extent) := b.onConsecutiveFrame f nowUs
    (b, env, event, extent)
  else (b, env, .none, 0)

end Transmits

/-! ### What the narrow arithmetic computes

A frame has at most 64 bytes and at least its address and one more, so the
subtractions of sizes are those of the numbers. -/

section Narrow

variable {b : BufferedLink} {f : FrameMessage}

theorem payloadLength_toNat (hf : f.payload.length ≤ framePayloadMaxFd) :
    (payloadLength f).toNat = f.payload.length := by
  exact UInt8.toNat_ofNat_of_lt (Nat.lt_of_le_of_lt hf (by decide))

theorem addressSize_toNat (b : BufferedLink) : b.addressSize.toNat = b.link.addressSize := by
  exact UInt8.toNat_ofNat_of_lt (Nat.lt_of_le_of_lt b.link.addressSize_le (by decide))

/-- A size behind the address and a header of `n` bytes, if the frame has that many. -/
theorem sizeBehind_toNat (hf : f.payload.length ≤ framePayloadMaxFd) {n : UInt8}
    (hn : b.link.addressSize + n.toNat ≤ f.payload.length) :
    (payloadLength f - b.addressSize - n).toNat = (b.pdu f).length - n.toNat := by
  have hp := payloadLength_toNat hf
  have ha := b.addressSize_toNat
  have hsub : (payloadLength f - b.addressSize).toNat = f.payload.length - b.link.addressSize := by
    rw [UInt8.toNat_sub_of_le _ _ (UInt8.le_iff_toNat_le.mpr (by omega)), hp, ha]
  rw [UInt8.toNat_sub_of_le _ _ (UInt8.le_iff_toNat_le.mpr (by omega)), hsub, pdu, length_drop]

theorem low_nibble_lt (x : UInt8) : (x &&& 0x0F).toNat < 16 := by
  have h : (x &&& 0x0F).toNat = x.toNat % 16 := by
    rw [UInt8.toNat_and]
    exact Nat.and_two_pow_sub_one_eq_mod x.toNat 4
  omega

section

variable (b : BufferedLink) (f : FrameMessage)

/-- The length a first frame announces. -/
def announced : ℕ :=
  (byteAt (b.pdu f) 0 &&& 0x0F).toNat <<< 8 ||| (byteAt (b.pdu f) 1).toNat

theorem announced_le : b.announced f ≤ isotpMessageMax := by
  have hhigh : (byteAt (b.pdu f) 0 &&& 0x0F).toNat <<< 8 < 2 ^ 12 := by
    rw [Nat.shiftLeft_eq]
    have := low_nibble_lt (byteAt (b.pdu f) 0)
    omega
  have hlow : (byteAt (b.pdu f) 1).toNat < 2 ^ 12 := Nat.lt_trans (UInt8.toNat_lt _) (by decide)
  exact Nat.le_of_lt_succ (Nat.or_lt_two_pow hhigh hlow)

theorem announced_toNat :
    ((byteAt (b.pdu f) 0 &&& 0x0F).toUInt16 <<< 8 ||| (byteAt (b.pdu f) 1).toUInt16).toNat = b.announced f := by
  have hlow := low_nibble_lt (byteAt (b.pdu f) 0)
  have hhigh : (byteAt (b.pdu f) 0 &&& 0x0F).toNat <<< 8 < 2 ^ 16 := by
    rw [Nat.shiftLeft_eq]
    omega
  rw [UInt16.toNat_or, UInt16.toNat_shiftLeft, UInt8.toNat_toUInt16, UInt8.toNat_toUInt16]
  change (byteAt (b.pdu f) 0 &&& 0x0F).toNat <<< 8 % 2 ^ 16 ||| _ = _
  rw [Nat.mod_eq_of_lt hhigh, announced]

/-- What a consecutive frame carries behind the address and the header byte. -/
def carried : List UInt8 := (b.pdu f).drop consecutiveFrameHeaderSize

end

theorem copiedSize_toNat (hf : f.payload.length ≤ framePayloadMaxFd) (hpeer : b.link.addressSize < f.payload.length)
    (hle : b.buffer.received ≤ b.buffer.length) :
    (b.copiedSize f).toNat = min (b.buffer.length.toNat - b.buffer.received.toNat) (b.carried f).length := by
  have hc : (payloadLength f - b.addressSize - 1).toNat = (b.carried f).length := by
    have hone : b.link.addressSize + UInt8.toNat 1 ≤ f.payload.length := hpeer
    rw [sizeBehind_toNat hf hone, carried, length_drop]
    rfl
  have hr : (b.buffer.length - b.buffer.received).toNat = b.buffer.length.toNat - b.buffer.received.toNat :=
    UInt16.toNat_sub_of_le _ _ hle
  have hc256 : (b.carried f).length < 256 := hc ▸ UInt8.toNat_lt _
  rw [copiedSize]
  split
  · next hlt =>
    have hlt' := lt_iff_toNat_lt.mp hlt
    rw [UInt8.toNat_toUInt16, hc, hr] at hlt'
    rw [toNat_toUInt8, hr]
    omega
  · next hlt =>
    have hlt' := mt lt_iff_toNat_lt.mpr hlt
    rw [UInt8.toNat_toUInt16, hc, hr] at hlt'
    rw [hc]
    omega

/-! ### The operations in numbers -/

section

variable (b : BufferedLink)

/-- The message of a single frame: as many bytes behind the header as it announces. -/
def singleData (f : FrameMessage) : List UInt8 :=
  ((b.pdu f).drop (b.link.singleFrameHeader f).1).take (b.link.singleFrameHeader f).2

/-- What a first frame carries of its message. -/
def firstData (f : FrameMessage) : List UInt8 := (b.pdu f).drop firstFrameHeaderSize

/-- What a consecutive frame adds to the message: what it carries, cut to what is missing. -/
def piece (f : FrameMessage) : List UInt8 :=
  (b.carried f).take (b.buffer.length.toNat - b.buffer.received.toNat)

/-- The link behind a single frame. -/
def delivers (message : List UInt8) : BufferedLink :=
  { link := { b.link with receiver := { b.link.receiver with state := .idle, flowControlPending := false } }
    buffer :=
      { b.buffer with
        message := Memory.store b.buffer.message 0 message, length := ofNat message.length } }

/-- The link behind a first frame. -/
def starts (length : ℕ) (head : List UInt8) (nowUs : ℕ) : BufferedLink :=
  { link :=
      { b.link with receiver :=
        { b.link.receiver with
          sequence := 1, state := .consecutiveFrames, flowControlPending := true, flowControlDueUs := nowUs } }
    buffer :=
      { message := Memory.store b.buffer.message 0 head
        length := ofNat length, received := ofNat head.length, blockReceived := 0 } }

/-- The buffer behind a consecutive frame. -/
def joins (piece : List UInt8) : IsotpBuffer :=
  { b.buffer with
    message := Memory.store b.buffer.message b.buffer.received.toNat piece
    received := ofNat (b.buffer.received.toNat + piece.length) }

end

theorem singleFrameHeader_toNat (hf : f.payload.length ≤ framePayloadMaxFd) :
    (b.singleFrameHeader f).1.toNat = (b.link.singleFrameHeader f).1 ∧
      (b.singleFrameHeader f).2.toNat = (b.link.singleFrameHeader f).2 := by
  have hzero : byteAt (b.pdu f) 0 &&& 0x0F = 0 ↔ (byteAt (b.pdu f) 0 &&& 0x0F).toNat = 0 :=
    UInt8.toNat_inj.symm
  have hlong : 8 < payloadLength f ↔ classicFrameSize < f.payload.length := by
    rw [UInt8.lt_iff_toNat_lt, payloadLength_toNat hf]
    rfl
  unfold singleFrameHeader IsotpLink.singleFrameHeader
  rw [pdu] at *
  simp only [hzero, hlong]
  split <;> exact ⟨rfl, rfl⟩

theorem onSingleFrame_eq (hf : f.payload.length ≤ framePayloadMaxFd)
    (hpeer : b.link.addressSize < f.payload.length) :
    b.onSingleFrame f =
      if (b.link.singleFrameHeader f).2 = 0 ∨
          (b.pdu f).length < (b.link.singleFrameHeader f).1 + (b.link.singleFrameHeader f).2
      then (b, .none, 0)
      else (b.delivers (b.singleData f), .message, (b.link.singleFrameHeader f).2) := by
  obtain ⟨hh, hl⟩ := singleFrameHeader_toNat (b := b) hf
  have hsize : (payloadLength f - b.addressSize).toNat = (b.pdu f).length := by
    have := sizeBehind_toNat (b := b) hf (n := 0) hpeer.le
    simpa using this
  have hzero : (b.singleFrameHeader f).2 = 0 ↔ (b.link.singleFrameHeader f).2 = 0 := by
    rw [← hl]
    exact UInt8.toNat_inj.symm
  unfold onSingleFrame
  simp only [hzero, hsize, hh, hl]
  by_cases hbad : (b.link.singleFrameHeader f).2 = 0 ∨
      (b.pdu f).length < (b.link.singleFrameHeader f).1 + (b.link.singleFrameHeader f).2
  · rw [if_pos hbad, if_pos hbad]
  · have hlen : (b.singleFrameHeader f).2.toUInt16 = ofNat (b.singleData f).length := by
      rw [singleData, length_take_of_le (by rw [length_drop]; omega), ← hl]
      exact UInt16.toNat_inj.mp (by simp)
    rw [if_neg hbad, if_neg hbad, hlen]
    rfl

theorem onFirstFrame_eq {ε : Type} (tx : ε → FrameMessage → ε × Bool) (hf : f.payload.length ≤ framePayloadMaxFd)
    (env : ε) (nowUs : ℕ) :
    b.onFirstFrame tx env f nowUs =
      if f.payload.length < classicFrameSize then (b, env, .none, 0)
      else if b.announced f = 0 then
        (b.fail .overflow, (tx env (b.link.dataFrame (b.link.flowControlData flowStatusOverflow))).1, .failed, 0)
      else if b.announced f ≤ (b.firstData f).length then (b, env, .none, 0)
      else (b.starts (b.announced f) (b.firstData f) nowUs, env, .none, (b.firstData f).length) := by
  have hshort : payloadLength f < 8 ↔ f.payload.length < classicFrameSize := by
    rw [UInt8.lt_iff_toNat_lt, payloadLength_toNat hf]
    rfl
  have hlength := b.announced_toNat f
  unfold onFirstFrame
  simp only [hshort]
  by_cases hs : f.payload.length < classicFrameSize
  · rw [if_pos hs, if_pos hs]
  have haddr := b.link.addressSize_le
  have hdata : (payloadLength f - b.addressSize - 2).toNat = (b.firstData f).length := by
    have htwo : b.link.addressSize + UInt8.toNat 2 ≤ f.payload.length := by
      change b.link.addressSize + 2 ≤ _
      simp only [classicFrameSize] at hs
      omega
    rw [sizeBehind_toNat hf htwo, firstData, length_drop]
    rfl
  rw [if_neg hs, if_neg hs]
  generalize hl : (byteAt (b.pdu f) 0 &&& 0x0F).toUInt16 <<< 8 ||| (byteAt (b.pdu f) 1).toUInt16 = length at *
  have hzero : length = 0 ↔ b.announced f = 0 := by
    rw [← hlength]
    exact UInt16.toNat_inj.symm
  have hle : length ≤ (payloadLength f - b.addressSize - 2).toUInt16 ↔ b.announced f ≤ (b.firstData f).length := by
    rw [le_iff_toNat_le, UInt8.toNat_toUInt16, hdata, hlength]
  simp only [hzero, hle]
  refine if_congr Iff.rfl rfl (if_congr Iff.rfl rfl ?_)
  have hl16 : length = UInt16.ofNat (b.announced f) := by
    rw [← hlength, UInt16.ofNat_toNat]
  have hd16 : (payloadLength f - b.addressSize - 2).toUInt16 = UInt16.ofNat (b.firstData f).length := by
    rw [← hdata]
    exact UInt16.toNat_inj.mp (by simp)
  have hall : ((b.pdu f).drop firstFrameHeaderSize).take (b.firstData f).length = b.firstData f := take_length
  rw [hl16, hd16, hdata, hall]
  rfl

/-- The link behind a consecutive frame that did not complete its message. -/
def continues (b : BufferedLink) (piece : List UInt8) (nowUs : ℕ) : BufferedLink :=
  let buffer := { b.joins piece with blockReceived := b.buffer.blockReceived + 1 }
  let receiver :=
    { b.link.receiver with
      sequence := (b.link.receiver.sequence + 1) &&& 0x0F, deadlineUs := nowUs + isotpTimeoutUs }
  if b.link.parameters.blockSize ≠ 0 ∧ buffer.blockReceived = b.link.parameters.blockSize then
    { link := { b.link with receiver := { receiver with flowControlPending := true, flowControlDueUs := nowUs } }
      buffer := { buffer with blockReceived := 0 } }
  else { link := { b.link with receiver }, buffer }

/-- The link behind the consecutive frame that completed its message. -/
def completes (b : BufferedLink) (piece : List UInt8) : BufferedLink :=
  { link :=
      { b.link with receiver :=
        { b.link.receiver with sequence := (b.link.receiver.sequence + 1) &&& 0x0F, state := .idle } }
    buffer := b.joins piece }

/-- What the buffer has behind a single frame. -/
theorem delivers_buffer (hf : f.payload.length ≤ framePayloadMaxFd)
    (hfull : (b.link.singleFrameHeader f).1 + (b.link.singleFrameHeader f).2 ≤ (b.pdu f).length) :
    (b.link.singleFrameHeader f).2 ≤ framePayloadMaxFd
    ∧ (b.delivers (b.singleData f)).buffer.length.toNat = (b.link.singleFrameHeader f).2
    ∧ Memory.slice (b.delivers (b.singleData f)).buffer.message 0 (b.link.singleFrameHeader f).2 = b.singleData f := by
  have hlen : (b.singleData f).length = (b.link.singleFrameHeader f).2 := by
    rw [singleData, length_take_of_le (by rw [length_drop]; omega)]
  have hsmall : (b.link.singleFrameHeader f).2 ≤ framePayloadMaxFd := by
    rw [pdu, length_drop] at hfull
    omega
  refine ⟨hsmall, ?_, ?_⟩
  · refine (toNat_ofNat_of_lt ?_).trans hlen
    rw [hlen]
    exact Nat.lt_of_le_of_lt hsmall (by decide)
  · rw [← hlen]
    exact Memory.slice_store_self b.buffer.message 0 _

/-- What the buffer has behind a first frame. -/
theorem starts_buffer (hlong : (b.firstData f).length < b.announced f) (nowUs : ℕ) :
    (b.starts (b.announced f) (b.firstData f) nowUs).buffer.length.toNat = b.announced f
    ∧ (b.starts (b.announced f) (b.firstData f) nowUs).buffer.received.toNat = (b.firstData f).length
    ∧ Memory.slice (b.starts (b.announced f) (b.firstData f) nowUs).buffer.message 0 (b.firstData f).length
      = b.firstData f := by
  have hmax := b.announced_le f
  refine ⟨toNat_ofNat_of_lt (Nat.lt_of_le_of_lt hmax (by decide)), ?_, Memory.slice_store_self b.buffer.message 0 _⟩
  exact toNat_ofNat_of_lt (Nat.lt_of_le_of_lt (hlong.le.trans hmax) (by decide))

theorem piece_le (h : b.buffer.received < b.buffer.length) :
    b.buffer.received.toNat + (b.piece f).length ≤ b.buffer.length.toNat := by
  have hlt := lt_iff_toNat_lt.mp h
  have hpiece : (b.piece f).length ≤ b.buffer.length.toNat - b.buffer.received.toNat := by
    rw [piece]
    exact length_take_le _ _
  omega

/-- What the buffer has behind a consecutive frame: what it held, and the piece. -/
theorem joins_buffer (h : b.buffer.received < b.buffer.length) :
    (b.joins (b.piece f)).received.toNat = b.buffer.received.toNat + (b.piece f).length
    ∧ Memory.slice (b.joins (b.piece f)).message 0 (b.buffer.received.toNat + (b.piece f).length)
      = Memory.slice b.buffer.message 0 b.buffer.received.toNat ++ b.piece f := by
  constructor
  · exact toNat_ofNat_of_lt (Nat.lt_of_le_of_lt (piece_le h) b.buffer.length.toNat_lt)
  · have := Memory.slice_store_append b.buffer.message 0 b.buffer.received.toNat (b.piece f)
    rwa [Nat.zero_add] at this

/-- A message in reassembly is not complete. -/
def Unfinished (b : BufferedLink) : Prop :=
  b.link.receiver.state = .consecutiveFrames → b.buffer.received < b.buffer.length

theorem onConsecutiveFrame_eq (hf : f.payload.length ≤ framePayloadMaxFd)
    (hpeer : b.link.addressSize < f.payload.length) (hopen : b.Unfinished) (nowUs : ℕ) :
    b.onConsecutiveFrame f nowUs =
      if b.link.receiver.state ≠ .consecutiveFrames ∨ b.link.receiver.flowControlPending then (b, .none, 0)
      else if byteAt (b.pdu f) 0 &&& 0x0F ≠ b.link.receiver.sequence then (b.fail .sequenceError, .failed, 0)
      else if b.piece f = [] then (b, .none, 0)
      else if b.buffer.received.toNat + (b.piece f).length = b.buffer.length.toNat then
        (b.completes (b.piece f), .message, b.buffer.received.toNat + (b.piece f).length)
      else (b.continues (b.piece f) nowUs, .none, b.buffer.received.toNat + (b.piece f).length) := by
  unfold onConsecutiveFrame
  by_cases hidle : b.link.receiver.state ≠ .consecutiveFrames ∨ b.link.receiver.flowControlPending
  · simp only [if_pos hidle]
  have hstate : b.link.receiver.state = .consecutiveFrames := by
    by_contra h
    exact hidle (.inl h)
  have hlt := lt_iff_toNat_lt.mp (hopen hstate)
  have hsize := copiedSize_toNat hf hpeer (le_iff_toNat_le.mpr hlt.le)
  have hpiece : (b.piece f).length = (b.copiedSize f).toNat := by
    rw [hsize, piece, length_take]
  have htake : ((b.pdu f).drop consecutiveFrameHeaderSize).take (b.piece f).length = b.piece f := by
    rw [hpiece, hsize, piece]
    exact take_eq_take_min.symm
  have hzero : b.copiedSize f = 0 ↔ b.piece f = [] := by
    rw [← length_eq_zero_iff, hpiece]
    exact UInt8.toNat_inj.symm
  have hreceived : b.buffer.received + (b.copiedSize f).toUInt16 =
      ofNat (b.buffer.received.toNat + (b.piece f).length) := by
    rw [hpiece]
    exact UInt16.toNat_inj.mp (by simp)
  have hfull : UInt16.ofNat (b.buffer.received.toNat + (b.piece f).length) = b.buffer.length ↔
      b.buffer.received.toNat + (b.piece f).length = b.buffer.length.toNat := by
    have hmax := b.buffer.length.toNat_lt
    have hsum : b.buffer.received.toNat + (b.piece f).length < 2 ^ 16 := by omega
    have hval : (ofNat (b.buffer.received.toNat + (b.piece f).length)).toNat = _ :=
      UInt16.toNat_ofNat_of_lt hsum
    rw [← UInt16.toNat_inj, hval]
  simp only [if_neg hidle, hzero, hreceived, beq_iff_eq, hfull, ← hpiece, htake]
  refine if_congr Iff.rfl rfl (if_congr Iff.rfl rfl (if_congr Iff.rfl rfl ?_))
  unfold continues
  dsimp only [joins]
  split <;> rfl

end Narrow

/-! ### The frames of a message -/

/-- A frame of the peer with the given PCI type. -/
def IsPdu (b : BufferedLink) (pciType : UInt8) (f : FrameMessage) : Prop :=
  b.link.isFromPeer f = true ∧ byteAt f.payload b.link.addressSize >>> 4 = pciType

/-- Consecutive frames with the sequence numbers 1, 2, …, 15, 0, … -/
def Numbered (b : BufferedLink) (rest : List FrameMessage) : Prop :=
  ∀ i f, rest[i]? = some f → b.IsPdu pciConsecutiveFrame f ∧ (byteAt (b.pdu f) 0 &&& 0x0F).toNat = (i + 1) % 16

/-- The data of a first frame and of the consecutive frames behind it. -/
def bytes (b : BufferedLink) (first : FrameMessage) (rest : List FrameMessage) : List UInt8 :=
  b.firstData first ++ rest.flatMap b.carried

theorem Numbered.push {b : BufferedLink} {rest : List FrameMessage} {f : FrameMessage} (h : b.Numbered rest)
    (hf : b.IsPdu pciConsecutiveFrame f) (hs : (byteAt (b.pdu f) 0 &&& 0x0F).toNat = (rest.length + 1) % 16) :
    b.Numbered (rest ++ [f]) := by
  intro i g hg
  rcases Nat.lt_trichotomy i rest.length with hi | rfl | hi
  · rw [getElem?_append_left hi] at hg
    exact h i g hg
  · rw [getElem?_concat_length] at hg
    obtain rfl := Option.some.inj hg
    exact ⟨hf, hs⟩
  · rw [getElem?_eq_none (by simp; omega)] at hg
    cases hg

end BufferedLink

/-! ### What the sender and the clock do to the receiver -/

namespace IsotpLink

/-- A step that may give a reassembly up but does not touch it otherwise. -/
structure Leaves (l l' : IsotpLink) (event : IsotpEvent) : Prop where
  parameters : l'.parameters = l.parameters
  goes_on : l'.receiver.state = .consecutiveFrames →
    l.receiver.state = .consecutiveFrames ∧ l'.receiver.sequence = l.receiver.sequence
  silent : event ≠ .message

namespace Leaves

variable {l l' l'' : IsotpLink} {event event' : IsotpEvent}

theorem of_receiver (hp : l'.line = l.line) (hr : l'.receiver = l.receiver) (he : event ≠ .message) :
    Leaves l l' event :=
  ⟨parameters_of_line hp, fun h => ⟨hr ▸ h, by rw [hr]⟩, he⟩

theorem failed (l : IsotpLink) (r : TxnReason) : Leaves l (l.fail r) .failed :=
  ⟨rfl, nofun, nofun⟩

theorem trans (h : Leaves l l' event) (h' : Leaves l' l'' event') : Leaves l l'' event' where
  parameters := h'.parameters.trans h.parameters
  goes_on hs :=
    have hmid := h'.goes_on hs
    have hold := h.goes_on hmid.1
    ⟨hold.1, hmid.2.trans hold.2⟩
  silent := h'.silent

end Leaves

section Leaving

variable {ε : Type} (tx : ε → FrameMessage → ε × Bool)

theorem retryLater_leaves (l : IsotpLink) (nowUs : ℕ) :
    Leaves l (l.retryLater nowUs).1 (l.retryLater nowUs).2 := by
  unfold retryLater
  split
  · exact .failed l .txFailed
  · exact .of_receiver rfl rfl nofun

theorem sendFirstFrame_leaves (l : IsotpLink) (env : ε) (nowUs : ℕ) :
    Leaves l (l.sendFirstFrame tx env nowUs).1 (l.sendFirstFrame tx env nowUs).2.2 := by
  unfold sendFirstFrame sendSingleFrame sendSegmentedFirstFrame
  split <;> dsimp only <;> split
  · exact .of_receiver rfl rfl nofun
  · exact l.retryLater_leaves nowUs
  · exact .of_receiver rfl rfl nofun
  · exact l.retryLater_leaves nowUs

theorem sendConsecutiveFrame_leaves (l : IsotpLink) (env : ε) (nowUs : ℕ) :
    Leaves l (l.sendConsecutiveFrame tx env nowUs).1 (l.sendConsecutiveFrame tx env nowUs).2.2 := by
  unfold sendConsecutiveFrame
  dsimp only
  split
  · unfold afterConsecutiveFrame
    dsimp only
    split
    · exact .of_receiver rfl rfl nofun
    split
    · exact .of_receiver rfl rfl nofun
    split <;> exact .of_receiver rfl rfl nofun
  · exact l.retryLater_leaves nowUs

theorem sendDue_leaves (nowUs budget : ℕ) (l : IsotpLink) (env : ε) :
    Leaves l (sendDue tx nowUs budget l env).1 (sendDue tx nowUs budget l env).2.2 := by
  induction budget generalizing l env with
  | zero => exact .of_receiver rfl rfl (by simp [sendDue])
  | succ budget ih =>
    unfold sendDue
    split
    · exact .of_receiver rfl rfl (by simp)
    split
    · dsimp only
      split
      · exact (sendFirstFrame_leaves tx l env nowUs).trans (ih _ _)
      · exact sendFirstFrame_leaves tx l env nowUs
    · dsimp only
      split
      · exact (sendConsecutiveFrame_leaves tx l env nowUs).trans (ih _ _)
      · exact sendConsecutiveFrame_leaves tx l env nowUs
    · exact .of_receiver rfl rfl (by simp)

theorem tickReceiver_leaves (l : IsotpLink) (env : ε) (nowUs : ℕ) :
    Leaves l (l.tickReceiver tx env nowUs).1 (l.tickReceiver tx env nowUs).2.2 := by
  unfold tickReceiver
  split
  · exact .of_receiver rfl rfl nofun
  split
  · split
    · exact .failed l _
    · exact .of_receiver rfl rfl nofun
  split
  · exact .of_receiver rfl rfl nofun
  · dsimp only
    split <;> exact ⟨rfl, fun h => ⟨h, rfl⟩, nofun⟩

theorem tick_leaves (l : IsotpLink) (env : ε) (nowUs : ℕ) :
    Leaves l (l.tick tx env nowUs).1 (l.tick tx env nowUs).2.2 := by
  have h := tickReceiver_leaves tx l env nowUs
  unfold tick
  dsimp only
  split
  · exact h
  · refine h.trans ?_
    unfold tickSender
    split
    · split
      · exact .failed _ _
      · exact .of_receiver rfl rfl nofun
    · exact sendDue_leaves tx nowUs _ _ _

theorem onFlowControl_leaves (l : IsotpLink) (f : FrameMessage) (nowUs : ℕ) :
    Leaves l (l.onFlowControl f nowUs).1 (l.onFlowControl f nowUs).2 := by
  unfold onFlowControl
  dsimp only
  split
  · exact .of_receiver rfl rfl nofun
  split
  · exact .failed l _
  split
  · split
    · exact ⟨rfl, nofun, nofun⟩
    · exact .of_receiver rfl rfl nofun
  split <;> exact .of_receiver rfl rfl nofun

end Leaving
end IsotpLink

/-! ### The buffer and the list -/

/-- The link with this much of a message. -/
def IsotpLink.holding (l : IsotpLink) (message : List UInt8) (length blockReceived : ℕ) : IsotpLink :=
  { l with receiver := { l.receiver with message, length, blockReceived } }

namespace BufferedLink

/-- The link with the list is the link with the buffer, but for what is kept of a message: in a reassembly the list is
what the buffer has received. Frames of a block are counted in eight bits, which is enough where there are blocks. -/
structure Mirrors (b : BufferedLink) (l : IsotpLink) : Prop where
  link : ∃ message length blockReceived, l = b.link.holding message length blockReceived
  unfinished : b.Unfinished
  kept : b.link.receiver.state = .consecutiveFrames →
    l.receiver.message = Memory.slice b.buffer.message 0 b.buffer.received.toNat
    ∧ l.receiver.length = b.buffer.length.toNat
    ∧ (b.link.parameters.blockSize ≠ 0 → l.receiver.blockReceived = b.buffer.blockReceived.toNat
      ∧ b.buffer.blockReceived < b.link.parameters.blockSize)

/-- Both links do the same, and a message they report is the same. -/
structure Agree {ε : Type} (x : BufferedLink × ε × IsotpEvent × ℕ) (y : IsotpLink × ε × IsotpEvent) : Prop where
  mirrors : Mirrors x.1 y.1
  env : x.2.1 = y.2.1
  event : x.2.2.1 = y.2.2
  message : y.2.2 = .message → y.1.receiver.length = x.1.buffer.length.toNat
    ∧ y.1.receiver.message = Memory.slice x.1.buffer.message 0 x.1.buffer.length.toNat

namespace Mirrors

variable {ε : Type} {tx : ε → FrameMessage → ε × Bool} {b : BufferedLink} {l : IsotpLink} {f : FrameMessage} {env : ε}
  {nowUs : ℕ}

section

variable (h : Mirrors b l)
include h

theorem ignores (env : ε) : Agree (b, env, .none, 0) (l, env, .none) := ⟨h, rfl, rfl, nofun⟩

theorem fails (env : ε) (reason : TxnReason) :
    Agree (b.fail reason, env, .failed, 0) (l.fail reason, env, .failed) := by
  obtain ⟨⟨m, n, k, rfl⟩, -, -⟩ := h
  exact ⟨⟨⟨m, n, k, rfl⟩, nofun, nofun⟩, rfl, rfl, nofun⟩

theorem onFlowControl : Agree
    ({ b with link := (b.link.onFlowControl f nowUs).1 }, env, (b.link.onFlowControl f nowUs).2, 0)
    ((l.onFlowControl f nowUs).1, env, (l.onFlowControl f nowUs).2) := by
  have hleaves := b.link.onFlowControl_leaves f nowUs
  obtain ⟨⟨m, n, k, rfl⟩, hopen, hkept⟩ := h
  have heq : (b.link.holding m n k).onFlowControl f nowUs
      = ((b.link.onFlowControl f nowUs).1.holding m n k, (b.link.onFlowControl f nowUs).2) := by
    have hsize : (b.link.holding m n k).addressSize = b.link.addressSize := rfl
    have hsender : (b.link.holding m n k).sender = b.link.sender := rfl
    simp only [IsotpLink.onFlowControl, hsize, hsender]
    split_ifs <;> rfl
  rw [heq]
  refine ⟨⟨⟨m, n, k, rfl⟩, fun hs => hopen (hleaves.goes_on hs).1, fun hs => ?_⟩, rfl, rfl, fun he => absurd he hleaves.silent⟩
  obtain ⟨hm, hn, hk⟩ := hkept (hleaves.goes_on hs).1
  refine ⟨hm, hn, ?_⟩
  dsimp only
  rw [hleaves.parameters]
  exact hk

section

variable (hf : f.payload.length ≤ framePayloadMaxFd)
include hf

theorem onSingleFrame
    (hpeer : b.link.addressSize < f.payload.length) :
    Agree ((b.onSingleFrame f).1, env, (b.onSingleFrame f).2) ((l.onSingleFrame f).1, env, (l.onSingleFrame f).2) := by
  obtain ⟨⟨m, n, k, rfl⟩, -, -⟩ := id h
  have heq : (b.link.holding m n k).onSingleFrame f = if (b.link.singleFrameHeader f).2 = 0
        ∨ (b.pdu f).length < (b.link.singleFrameHeader f).1 + (b.link.singleFrameHeader f).2
      then (b.link.holding m n k, .none)
      else ((b.delivers (b.singleData f)).link.holding (b.singleData f) (b.link.singleFrameHeader f).2 k, .message) := by
    rw [pdu, length_drop]
    rfl
  rw [onSingleFrame_eq hf hpeer, heq]
  split_ifs with hbad
  · exact h.ignores env
  obtain ⟨-, hlength, hslice⟩ := delivers_buffer (b := b) hf (by omega)
  exact ⟨⟨⟨_, _, _, rfl⟩, nofun, nofun⟩, rfl, rfl, fun _ => ⟨hlength.symm, by rw [hlength]; exact hslice.symm⟩⟩

theorem onFirstFrame :
    Agree (b.onFirstFrame tx env f nowUs) (l.onFirstFrame tx env f nowUs) := by
  obtain ⟨⟨m, n, k, rfl⟩, -, -⟩ := id h
  have hsize : f.payload.length - b.link.addressSize - firstFrameHeaderSize = (b.firstData f).length := by
    rw [firstData, pdu, length_drop, length_drop]
  have heq : (b.link.holding m n k).onFirstFrame tx env f nowUs =
      if f.payload.length < classicFrameSize then (b.link.holding m n k, env, .none)
      else if b.announced f = 0 then ((b.link.holding m n k).fail .overflow,
        (tx env (b.link.dataFrame (b.link.flowControlData flowStatusOverflow))).1, .failed)
      else if b.announced f ≤ (b.firstData f).length then (b.link.holding m n k, env, .none)
      else ((b.starts (b.announced f) (b.firstData f) nowUs).link.holding
        ((b.firstData f).take (b.firstData f).length) (b.announced f) 0, env, .none) := by
    rw [← hsize]
    rfl
  rw [onFirstFrame_eq tx hf, heq, take_length]
  split_ifs with hshort hzero hle
  · exact h.ignores env
  · exact h.fails _ _
  · exact h.ignores env
  obtain ⟨hlength, hreceived, hslice⟩ := starts_buffer (Nat.lt_of_not_le hle) nowUs
  refine ⟨⟨⟨_, _, _, rfl⟩, fun _ => ?_, fun _ => ⟨?_, hlength.symm, fun hblock => ⟨rfl, ?_⟩⟩⟩, rfl, rfl, nofun⟩
  · rw [lt_iff_toNat_lt, hlength, hreceived]
    exact Nat.lt_of_not_le hle
  · rw [hreceived, hslice]
    rfl
  · exact UInt8.pos_iff_ne_zero.mpr hblock

theorem onConsecutiveFrame
    (hpeer : b.link.addressSize < f.payload.length) : Agree
      ((b.onConsecutiveFrame f nowUs).1, env, (b.onConsecutiveFrame f nowUs).2)
      ((l.onConsecutiveFrame f nowUs).1, env, (l.onConsecutiveFrame f nowUs).2) := by
  obtain ⟨⟨m, n, k, rfl⟩, hopen, hkept⟩ := id h
  rw [onConsecutiveFrame_eq hf hpeer hopen]
  have haddress : (b.link.holding m n k).addressSize = b.link.addressSize := rfl
  have hreceiver : (b.link.holding m n k).receiver
    = { b.link.receiver with message := m, length := n, blockReceived := k } := rfl
  have hparameters : (b.link.holding m n k).parameters = b.link.parameters := rfl
  have hpdu : f.payload.drop b.link.addressSize = b.pdu f := rfl
  simp only [IsotpLink.onConsecutiveFrame, haddress, hreceiver, hparameters, hpdu]
  by_cases hidle : b.link.receiver.state ≠ .consecutiveFrames ∨ b.link.receiver.flowControlPending
  · simp only [if_pos hidle]
    exact h.ignores env
  by_cases hseq : byteAt (b.pdu f) 0 &&& 0x0F ≠ b.link.receiver.sequence
  · simp only [if_neg hidle, if_pos hseq]
    exact h.fails env .sequenceError
  have hstate : b.link.receiver.state = .consecutiveFrames := by
    by_contra hs
    exact hidle (.inl hs)
  obtain ⟨hm, hn, hk⟩ : m = _ ∧ n = _ ∧ (_ → k = _ ∧ _) := hkept hstate
  have hlt := hopen hstate
  obtain ⟨hreceived, hslice⟩ := joins_buffer (f := f) hlt
  rw [← hm] at hslice
  -- the list is extended by the piece that is copied
  have hsize : min (n - m.length) (f.payload.length - b.link.addressSize - consecutiveFrameHeaderSize)
      = (b.piece f).length := by
    rw [piece, length_take, carried, pdu, length_drop, length_drop, hm, Memory.length_slice, hn]
  have htake : ((b.pdu f).drop consecutiveFrameHeaderSize).take (b.piece f).length = b.piece f := by
    rw [piece, length_take]
    exact take_eq_take_min.symm
  have hlength : (m ++ b.piece f).length = b.buffer.received.toNat + (b.piece f).length := by
    rw [length_append, hm, Memory.length_slice]
  simp only [if_neg hidle, if_neg hseq, hsize, htake, hlength, length_eq_zero_iff]
  by_cases hnone : b.piece f = []
  · simp only [if_pos hnone]
    exact h.ignores env
  simp only [if_neg hnone, hn]
  by_cases hfull : b.buffer.received.toNat + (b.piece f).length = b.buffer.length.toNat
  · simp only [if_pos hfull]
    refine ⟨⟨⟨_, _, _, rfl⟩, nofun, nofun⟩, rfl, rfl, fun _ => ⟨rfl, ?_⟩⟩
    rw [hfull] at hslice
    exact hslice.symm
  simp only [if_neg hfull]
  have hle := piece_le (f := f) hlt
  have hnext : (b.joins (b.piece f)).received < b.buffer.length := by
    rw [lt_iff_toNat_lt, hreceived]
    omega
  rw [← hreceived] at hslice
  -- both count the same where there are blocks
  have hsucc : b.buffer.blockReceived < b.link.parameters.blockSize →
      (b.buffer.blockReceived + 1).toNat = b.buffer.blockReceived.toNat + 1 := fun hless => by
    have hltNat := UInt8.lt_iff_toNat_lt.mp hless
    have hmax := b.link.parameters.blockSize.toNat_lt
    rw [UInt8.toNat_add]
    exact Nat.mod_eq_of_lt (Nat.lt_of_le_of_lt hltNat hmax)
  have hblock : b.link.parameters.blockSize ≠ 0 ∧ k + 1 = b.link.parameters.blockSize.toNat
      ↔ b.link.parameters.blockSize ≠ 0 ∧ b.buffer.blockReceived + 1 = b.link.parameters.blockSize := by
    refine and_congr_right fun hne => ?_
    obtain ⟨rfl, hless⟩ := hk hne
    rw [← UInt8.toNat_inj, hsucc hless]
  unfold continues
  simp only [hblock]
  split_ifs with hends
  · refine ⟨⟨⟨_, _, _, rfl⟩, fun _ => hnext, fun _ => ⟨hslice.symm, rfl, fun hne => ⟨rfl, ?_⟩⟩⟩, rfl, rfl, nofun⟩
    exact UInt8.pos_iff_ne_zero.mpr hne
  · refine ⟨⟨⟨_, _, _, rfl⟩, fun _ => hnext, fun _ => ⟨hslice.symm, rfl, fun hne => ?_⟩⟩, rfl, rfl, nofun⟩
    obtain ⟨hcount, hless⟩ := hk hne
    refine ⟨(congrArg (· + 1) hcount).trans (hsucc hless).symm, ?_⟩
    rw [UInt8.lt_iff_toNat_lt] at hless ⊢
    refine Nat.lt_of_le_of_ne ?_ fun he => hends ⟨hne, UInt8.toNat_inj.mp he⟩
    exact (hsucc (UInt8.lt_iff_toNat_lt.mpr hless)).trans_le hless

/-- **The link with the list does what the link with the buffer does**, on any frame. -/
theorem onFrame :
    Agree (b.onFrame tx env f nowUs) (l.onFrame tx env f nowUs) := by
  have hsame : l.isFromPeer f = b.link.isFromPeer f ∧ l.addressSize = b.link.addressSize := by
    obtain ⟨m, n, k, rfl⟩ := h.link
    exact ⟨rfl, rfl⟩
  unfold BufferedLink.onFrame IsotpLink.onFrame
  simp only [hsame]
  by_cases hother : (!b.link.isFromPeer f) = true
  · simp only [if_pos hother]
    exact h.ignores env
  have hpeer : b.link.addressSize < f.payload.length := by
    simp only [IsotpLink.isFromPeer, Bool.not_eq_true, Bool.not_eq_false', decide_eq_true_eq] at hother
    exact hother.2.1
  simp only [if_neg hother]
  split_ifs
  · exact h.onFlowControl
  · exact h.onSingleFrame hf hpeer
  · exact h.onFirstFrame hf
  · exact h.onConsecutiveFrame hf hpeer
  · exact h.ignores env

end

end

end Mirrors
end BufferedLink

end CanHub
