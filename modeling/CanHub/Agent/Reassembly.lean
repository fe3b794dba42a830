/-
# A peer's frames at an ISO-TP link

What `onFrame` of one link does with each kind of frame that another link
sends: `Hears b a` says that `b` listens on the id `a` sends on, with `a`'s
address byte. The frames are as `segments` lists them, so each lemma here takes
the frame `a` puts on the bus, fill bytes included, and gives `b`'s state behind
it.

A frame of the full data length must not be filled up (`Exact`): the receiver
takes every byte of a first frame, and of a consecutive frame before the last,
for a byte of the message.
-/
import CanHub.Agent.Segments

namespace CanHub

open Wire List UInt8

namespace IsotpLink

/-- The link `b` takes the frames of `a` for its peer's. -/
structure Hears (b a : IsotpLink) : Prop where
  id : b.parameters.responseId = a.requestId
  size : b.addressSize = a.addressSize
  address : 0 < a.addressSize → b.parameters.rxAddress = a.parameters.txAddress

/-- A frame of the full data length goes out as it is. -/
def Exact (a : IsotpLink) : Prop := a.frameLength a.txDataLength = a.txDataLength

theorem Hears.congr {a b a' b' : IsotpLink} (h : Hears b a) (hb : b'.line = b.line) (ha : a'.line = a.line) :
    Hears b' a' := by
  rw [eq_of_line hb, eq_of_line ha]
  exact ⟨h.id, h.size, h.address⟩

theorem Exact.congr {a a' : IsotpLink} (h : a.Exact) (ha : a'.line = a.line) : a'.Exact := by
  rw [eq_of_line ha]
  exact h

/-! ### The bytes of a frame -/

/-- The bytes that fill a frame up to a length it can have. -/
def fill (a : IsotpLink) (data : List UInt8) : List UInt8 :=
  replicate (a.frameLength (a.addressSize + data.length) - (a.addressSize + data.length)) a.parameters.padding

/-- The address byte in front of the data, if the link has one. -/
def address (a : IsotpLink) : List UInt8 := if a.addressSize = 0 then [] else [a.parameters.txAddress]

theorem address_length (a : IsotpLink) : a.address.length = a.addressSize := by
  unfold address addressSize
  split <;> split at * <;> simp_all

theorem payload_eq (a : IsotpLink) (data : List UInt8) :
    (a.dataFrame data).payload = a.address ++ (data ++ a.fill data) := by
  change a.address ++ data ++ a.fill data = _
  rw [append_assoc]

theorem payload_length (a : IsotpLink) (data : List UInt8) :
    (a.dataFrame data).payload.length = a.addressSize + (data.length + (a.fill data).length) := by
  rw [payload_eq, length_append, length_append, address_length]

section Frames

variable {ε : Type} {tx : ε → FrameMessage → ε × Bool} {a b : IsotpLink} {message : List UInt8}

theorem Hears.payload_drop (h : Hears b a) (data : List UInt8) :
    (a.dataFrame data).payload.drop b.addressSize = data ++ a.fill data := by
  rw [payload_eq, h.size, ← address_length, drop_left]

theorem Hears.byteAt_pci (h : Hears b a) (x : UInt8) (xs : List UInt8) :
    byteAt (a.dataFrame (x :: xs)).payload b.addressSize = x := by
  have hb := byteAt_drop (a.dataFrame (x :: xs)).payload b.addressSize 0
  rw [h.payload_drop] at hb
  exact hb.symm

theorem Hears.isFromPeer (h : Hears b a) (x : UInt8) (xs : List UInt8) :
    b.isFromPeer (a.dataFrame (x :: xs)) = true := by
  unfold IsotpLink.isFromPeer
  rw [decide_eq_true_iff]
  refine ⟨h.id.symm, ?_, ?_, show (0 : UInt8) &&& frameRouteFlagEcho = 0 by decide⟩
  · rw [payload_length, h.size, length_cons]
    omega
  · intro hpos
    rw [h.size] at hpos
    have hne : a.addressSize ≠ 0 := by omega
    rw [h.address hpos, payload_eq]
    unfold IsotpLink.address
    rw [if_neg hne]
    rfl

/-- A frame of the peer goes to the handler of its kind. -/
theorem Hears.onFrame (h : Hears b a) (x : UInt8) (xs : List UInt8) (env : ε) (nowUs : ℕ) :
    b.onFrame tx env (a.dataFrame (x :: xs)) nowUs
      = if x >>> 4 = pciFlowControl then
          ((b.onFlowControl (a.dataFrame (x :: xs)) nowUs).1, env, (b.onFlowControl (a.dataFrame (x :: xs)) nowUs).2)
        else if x >>> 4 = pciSingleFrame then
          ((b.onSingleFrame (a.dataFrame (x :: xs))).1, env, (b.onSingleFrame (a.dataFrame (x :: xs))).2)
        else if x >>> 4 = pciFirstFrame then b.onFirstFrame tx env (a.dataFrame (x :: xs)) nowUs
        else if x >>> 4 = pciConsecutiveFrame then
          ((b.onConsecutiveFrame (a.dataFrame (x :: xs)) nowUs).1, env,
            (b.onConsecutiveFrame (a.dataFrame (x :: xs)) nowUs).2)
        else (b, env, .none) := by
  unfold IsotpLink.onFrame
  rw [h.isFromPeer, h.byteAt_pci]
  rfl

/-! ### The lengths of frames -/

theorem frameLength_le (a : IsotpLink) (size : ℕ) : a.frameLength size ≤ framePayloadMaxFd := by
  unfold frameLength
  split
  · split <;> simp only [classicFrameSize, framePayloadMaxFd] at * <;> omega
  · simp only [fdFrameLengths, find?, framePayloadMaxFd] at *
    repeat' split
    all_goals simp

theorem Exact.fill_nil (h : a.Exact) {data : List UInt8} (hd : a.addressSize + data.length = a.txDataLength) :
    a.fill data = [] := by
  unfold fill
  rw [hd, h, Nat.sub_self]
  rfl

theorem Exact.txDataLength_le (h : a.Exact) : a.txDataLength ≤ framePayloadMaxFd := by
  rw [← h]
  exact a.frameLength_le _

/-! ### Single frames -/

/-- The kind and the low bits of a protocol byte. -/
private theorem pci_low : ∀ n < 16,
    ofNat n >>> 4 = pciSingleFrame ∧ (ofNat n &&& 0x0F).toNat = n
      ∧ (pciFirstFrame <<< 4 ||| ofNat n) >>> 4 = pciFirstFrame
      ∧ ((pciFirstFrame <<< 4 ||| ofNat n) &&& 0x0F).toNat = n
      ∧ (pciConsecutiveFrame <<< 4 ||| ofNat n) >>> 4 = pciConsecutiveFrame
      ∧ (pciConsecutiveFrame <<< 4 ||| ofNat n) &&& 0x0F = ofNat n := by
  decide

/-- The message of a single frame, taken. -/
def delivered (b : IsotpLink) (message : List UInt8) : IsotpLink :=
  { b with receiver :=
    { b.receiver with message, length := message.length, state := .idle, flowControlPending := false } }

theorem onSingleFrame_of_header {f : FrameMessage} {header : ℕ} {rest : List UInt8}
    (hdrop : (f.payload.drop b.addressSize).drop header = message ++ rest)
    (hsize : f.payload.length - b.addressSize = header + message.length + rest.length)
    (hh : b.singleFrameHeader f = (header, message.length)) (hm : 0 < message.length) :
    b.onSingleFrame f = (b.delivered message, .message) := by
  unfold onSingleFrame
  rw [hh, if_neg (by dsimp only; omega), hdrop, take_left]
  rfl

theorem Hears.onFrame_single (h : Hears b a) {x : UInt8} {xs : List UInt8} {header : ℕ}
    (hx : x >>> 4 = pciSingleFrame) (hdata : (x :: xs).drop header = message)
    (hlen : xs.length + 1 = header + message.length)
    (hh : b.singleFrameHeader (a.dataFrame (x :: xs)) = (header, message.length)) (hm : 0 < message.length)
    (env : ε) (nowUs : ℕ) : b.onFrame tx env (a.dataFrame (x :: xs)) nowUs = (b.delivered message, env, .message) := by
  have hdrop : ((a.dataFrame (x :: xs)).payload.drop b.addressSize).drop header = message ++ a.fill (x :: xs) := by
    rw [h.payload_drop, drop_append_of_le_length (by rw [length_cons]; omega), hdata]
  have hsize : (a.dataFrame (x :: xs)).payload.length - b.addressSize
      = header + message.length + (a.fill (x :: xs)).length := by
    rw [payload_length, h.size, length_cons, hlen, Nat.add_sub_cancel_left]
  have htype : ¬x >>> 4 = pciFlowControl := by
    rw [hx]
    decide
  rw [h.onFrame, if_neg htype, if_pos hx, onSingleFrame_of_header hdrop hsize hh hm]

theorem byteAt_cons_zero (x : UInt8) (xs : List UInt8) : byteAt (x :: xs) 0 = x := rfl

theorem byteAt_cons_one (x y : UInt8) (xs : List UInt8) : byteAt (x :: y :: xs) 1 = y := rfl

theorem toNat_ofNat_byte {n : ℕ} (h : n < 256) : (ofNat n).toNat = n := by
  rw [toNat_ofNat']
  omega

/-- The header of the escape: byte 0 is zero and the length follows, in a frame of more than 8 bytes. -/
theorem Hears.escapeHeader (h : Hears b a)
    (hlong : a.classicSingleFrameCapacity < message.length) (hshort : message.length < 256) :
    b.singleFrameHeader (a.dataFrame (pciSingleFrame :: ofNat message.length :: message))
      = (escapeSingleFrameHeaderSize, message.length) := by
  have haddress := a.addressSize_le
  have hzero : (pciSingleFrame &&& 0x0F).toNat = 0 := by decide
  unfold classicSingleFrameCapacity at hlong
  unfold singleFrameHeader
  dsimp only
  rw [h.payload_drop, payload_length, cons_append, cons_append, byteAt_cons_zero, byteAt_cons_one, hzero,
    toNat_ofNat_byte hshort]
  simp only [length_cons, classicFrameSize, singleFrameHeaderSize] at *
  rw [if_pos ⟨trivial, by omega⟩]

theorem Hears.classicHeader (h : Hears b a)
    (hshort : message.length ≤ a.classicSingleFrameCapacity) (hm : 0 < message.length) :
    b.singleFrameHeader (a.dataFrame (ofNat message.length :: message))
      = (singleFrameHeaderSize, message.length) := by
  have hlt : message.length < 16 := by
    unfold classicSingleFrameCapacity at hshort
    simp only [classicFrameSize, singleFrameHeaderSize] at hshort
    omega
  unfold singleFrameHeader
  dsimp only
  rw [h.payload_drop, cons_append, byteAt_cons_zero, (pci_low _ hlt).2.1, if_neg (by omega)]

/-- **A single frame gives its message.** -/
theorem Hears.takes_singleFrame (h : Hears b a) (hmax : a.txDataLength ≤ framePayloadMaxFd)
    (hm : 0 < a.sender.message.length) (hs : a.IsSingle) (env : ε) (nowUs : ℕ) :
    b.onFrame tx env (a.dataFrame a.singleFrameData) nowUs = (b.delivered a.sender.message, env, .message) := by
  unfold singleFrameData
  by_cases hlong : a.classicSingleFrameCapacity < a.sender.message.length
  · have hshort : a.sender.message.length < 256 := by
      unfold IsSingle escapeSingleFrameCapacity at hs
      simp only [classicFrameSize, escapeSingleFrameHeaderSize, framePayloadMaxFd] at *
      split at hs <;> omega
    rw [if_pos hlong]
    have hlen : (ofNat a.sender.message.length :: a.sender.message).length + 1
        = escapeSingleFrameHeaderSize + a.sender.message.length := by
      rw [length_cons]
      simp only [escapeSingleFrameHeaderSize]
      omega
    exact h.onFrame_single (by decide) rfl hlen (h.escapeHeader hlong hshort) hm env nowUs
  · have hlt : a.sender.message.length < 16 := by
      unfold classicSingleFrameCapacity at hlong
      simp only [classicFrameSize, singleFrameHeaderSize] at hlong
      omega
    rw [if_neg hlong]
    exact h.onFrame_single (pci_low _ hlt).1 rfl (Nat.add_comm _ _) (h.classicHeader (Nat.le_of_not_lt hlong) hm) hm
      env nowUs

/-! ### First frames -/

/-- The receiver behind a first frame, about to answer it. -/
def started (b : IsotpLink) (length : ℕ) (head : List UInt8) (nowUs : ℕ) : IsotpLink :=
  { b with receiver :=
    { b.receiver with
      message := head, length, sequence := 1, blockReceived := 0, state := .consecutiveFrames
      flowControlPending := true, flowControlDueUs := nowUs } }

private theorem length_of_bytes {n : ℕ} (h : n ≤ txnIsotpMessageSizeMax) :
    n >>> 8 < 16 ∧ (n >>> 8) <<< 8 ||| (n &&& 0xFF) = n := by
  have hlow : n &&& 0xFF = n % 2 ^ 8 := Nat.and_two_pow_sub_one_eq_mod n 8
  have hhigh : n >>> 8 = n / 2 ^ 8 := Nat.shiftRight_eq_div_pow n 8
  have hlt : n % 2 ^ 8 < 2 ^ 8 := Nat.mod_lt _ (by decide)
  simp only [txnIsotpMessageSizeMax] at h
  refine ⟨by omega, ?_⟩
  rw [hlow, hhigh, ← Nat.shiftLeft_add_eq_or_of_lt hlt, Nat.shiftLeft_eq]
  omega

theorem firstFrameData_length (hroom : classicFrameSize ≤ a.txDataLength) (hs : ¬a.IsSingle) :
    a.addressSize + a.firstFrameData.length = a.txDataLength := by
  have hlt := firstFrameCapacity_lt hs
  have haddress := a.addressSize_le
  have hhead : (a.sender.message.take a.firstFrameCapacity).length = a.firstFrameCapacity := by
    rw [length_take]
    omega
  unfold firstFrameData
  rw [length_cons, length_cons, hhead]
  unfold firstFrameCapacity
  simp only [classicFrameSize, firstFrameHeaderSize] at *
  omega

/-- **A first frame starts the reassembly with all its bytes**, those that fill it up included. -/
theorem Hears.takes_firstFrame (h : Hears b a) (hroom : classicFrameSize ≤ a.txDataLength)
    (hmax : a.sender.message.length ≤ txnIsotpMessageSizeMax) (hs : ¬a.IsSingle)
    (hmore : a.firstFrameCapacity + (a.fill a.firstFrameData).length < a.sender.message.length) (env : ε)
    (nowUs : ℕ) :
    b.onFrame tx env (a.dataFrame a.firstFrameData) nowUs
      = (b.started a.sender.message.length
          (a.sender.message.take a.firstFrameCapacity ++ a.fill a.firstFrameData) nowUs, env, .none) := by
  have hlt := firstFrameCapacity_lt hs
  have haddress := a.addressSize_le
  obtain ⟨hhigh, hlength⟩ := length_of_bytes hmax
  obtain ⟨-, -, htype, hlow, -, -⟩ := pci_low _ hhigh
  have hhead : (a.sender.message.take a.firstFrameCapacity).length = a.firstFrameCapacity := by
    rw [length_take]
    omega
  have hdata := firstFrameData_length hroom hs
  have hsize : (a.dataFrame a.firstFrameData).payload.length = a.txDataLength + (a.fill a.firstFrameData).length := by
    rw [payload_length, ← Nat.add_assoc, hdata]
  have hdrop := h.payload_drop a.firstFrameData
  have hbyte : (ofNat (a.sender.message.length &&& 0xFF)).toNat = a.sender.message.length &&& 0xFF :=
    toNat_ofNat_byte (Nat.lt_of_le_of_lt Nat.and_le_right (by decide))
  have hcarried : a.txDataLength + (a.fill a.firstFrameData).length - a.addressSize - firstFrameHeaderSize
      = a.firstFrameCapacity + (a.fill a.firstFrameData).length := by
    unfold firstFrameCapacity
    simp only [classicFrameSize, firstFrameHeaderSize] at *
    omega
  have hbytes : (a.sender.message.take a.firstFrameCapacity ++ a.fill a.firstFrameData).length
      = a.firstFrameCapacity + (a.fill a.firstFrameData).length := by
    rw [length_append, hhead]
  unfold firstFrameData at *
  rw [h.onFrame, htype, if_neg (by decide), if_neg (by decide), if_pos rfl]
  unfold onFirstFrame
  dsimp only
  rw [hdrop, hsize, cons_append, cons_append, byteAt_cons_zero, byteAt_cons_one, hlow, hbyte, hlength,
    if_neg (by omega), if_neg (by omega), h.size, hcarried, if_neg (by omega)]
  change (b.started _ (take _ (_ ++ _)) nowUs, _, _) = _
  rw [← hbytes, take_length]

/-! ### Consecutive frames -/

/-- The receiver with one more piece. -/
def joined (b : IsotpLink) (piece : List UInt8) : IsotpReceiver :=
  { b.receiver with
    message := b.receiver.message ++ piece
    sequence := (b.receiver.sequence + 1) &&& 0x0F }

/-- The link behind the last piece. -/
def completed (b : IsotpLink) (piece : List UInt8) : IsotpLink :=
  { b with receiver := { b.joined piece with state := .idle } }

/-- The link behind a piece that is not the last: inside its block, or at the end of it and about to grant the
next one. -/
def continued (b : IsotpLink) (piece : List UInt8) (nowUs : ℕ) : IsotpLink :=
  if b.parameters.blockSize ≠ 0 ∧ b.receiver.blockReceived + 1 = b.parameters.blockSize.toNat then
    { b with receiver :=
      { b.joined piece with
        deadlineUs := nowUs + isotpTimeoutUs, blockReceived := 0
        flowControlPending := true, flowControlDueUs := nowUs } }
  else
    { b with receiver :=
      { b.joined piece with
        deadlineUs := nowUs + isotpTimeoutUs, blockReceived := b.receiver.blockReceived + 1 } }

/-- A receiver inside the message of `a`, waiting for the rest of it. -/
structure Receiving (b : IsotpLink) (message : List UInt8) : Prop where
  state : b.receiver.state = .consecutiveFrames
  length : b.receiver.length = message.length
  bytes : b.receiver.message = message.take b.receiver.message.length
  left : b.receiver.message.length < message.length
  sequence : b.receiver.sequence.toNat < 16

/-- The next piece for the receiver. -/
def pieceFor (a b : IsotpLink) : List UInt8 :=
  (a.sender.message.drop b.receiver.message.length).take a.consecutiveFrameCapacity

/-- The consecutive frame that carries it. -/
def frameFor (a b : IsotpLink) : FrameMessage :=
  a.dataFrame ((pciConsecutiveFrame <<< 4 ||| b.receiver.sequence) :: a.pieceFor b)

/-- The bytes up to a place and the next ones are the bytes up to where those end. -/
theorem Receiving.bytes_joined (h : b.Receiving a.sender.message) :
    b.receiver.message ++ a.pieceFor b
      = a.sender.message.take (b.receiver.message.length + a.consecutiveFrameCapacity) := by
  unfold pieceFor
  rw [take_add, ← h.bytes]

theorem pieceFor_length (a b : IsotpLink) :
    (a.pieceFor b).length = min a.consecutiveFrameCapacity (a.sender.message.length - b.receiver.message.length) := by
  unfold pieceFor
  rw [length_take, length_drop]

/-- The receiver takes the bytes of the piece, and none of the fill. -/
theorem Hears.carried (h : Hears b a) (hroom : classicFrameSize ≤ a.txDataLength) (hexact : a.Exact) :
    min (a.sender.message.length - b.receiver.message.length)
        ((a.frameFor b).payload.length - b.addressSize - consecutiveFrameHeaderSize)
      = (a.pieceFor b).length := by
  have haddress := a.addressSize_le
  have hpiece := a.pieceFor_length b
  have hcarried : (a.frameFor b).payload.length - b.addressSize - consecutiveFrameHeaderSize
      = (a.pieceFor b).length + (a.fill ((pciConsecutiveFrame <<< 4 ||| b.receiver.sequence) :: a.pieceFor b)).length := by
    unfold frameFor
    rw [payload_length, h.size, length_cons]
    simp only [consecutiveFrameHeaderSize]
    omega
  rw [hcarried]
  by_cases hfull : (a.pieceFor b).length = a.consecutiveFrameCapacity
  · have hdata : a.addressSize + ((pciConsecutiveFrame <<< 4 ||| b.receiver.sequence) :: a.pieceFor b).length
        = a.txDataLength := by
      rw [length_cons, hfull]
      unfold consecutiveFrameCapacity
      simp only [classicFrameSize, consecutiveFrameHeaderSize] at *
      omega
    rw [hexact.fill_nil hdata, length_nil]
    omega
  · omega

/-- **A consecutive frame gives as many of its bytes as are missing.** -/
theorem Hears.takes_piece (h : Hears b a) (tx : ε → FrameMessage → ε × Bool) {piece : List UInt8} {size : ℕ}
    (hs : b.receiver.state = .consecutiveFrames) (hpending : b.receiver.flowControlPending = false)
    (hsequence : b.receiver.sequence.toNat < 16)
    (hsize : min (b.receiver.length - b.receiver.message.length)
        ((a.dataFrame ((pciConsecutiveFrame <<< 4 ||| b.receiver.sequence) :: piece)).payload.length
          - b.addressSize - consecutiveFrameHeaderSize) = size)
    (hpos : 0 < size) (hle : size ≤ piece.length) (env : ε) (nowUs : ℕ) :
    b.onFrame tx env (a.dataFrame ((pciConsecutiveFrame <<< 4 ||| b.receiver.sequence) :: piece)) nowUs
      = if b.receiver.message.length + size = b.receiver.length then
          (b.completed (piece.take size), env, .message)
        else (b.continued (piece.take size) nowUs, env, .none) := by
  obtain ⟨-, -, -, -, htype, hlow⟩ := pci_low _ hsequence
  rw [UInt8.ofNat_toNat] at htype hlow
  have hdrop := h.payload_drop ((pciConsecutiveFrame <<< 4 ||| b.receiver.sequence) :: piece)
  have hgoes : ¬(b.receiver.state ≠ .consecutiveFrames ∨ b.receiver.flowControlPending = true) := by
    rw [hs, hpending]
    simp
  have hpdu : drop consecutiveFrameHeaderSize
      ((pciConsecutiveFrame <<< 4 ||| b.receiver.sequence)
        :: (piece ++ a.fill ((pciConsecutiveFrame <<< 4 ||| b.receiver.sequence) :: piece)))
      = piece ++ a.fill ((pciConsecutiveFrame <<< 4 ||| b.receiver.sequence) :: piece) := rfl
  have hjoined : (b.receiver.message ++ piece.take size).length = b.receiver.message.length + size := by
    rw [length_append, length_take, Nat.min_eq_left hle]
  rw [h.onFrame, htype, if_neg (by decide), if_neg (by decide), if_neg (by decide), if_pos rfl]
  unfold onConsecutiveFrame
  dsimp only
  rw [hsize, if_neg hgoes, hdrop, cons_append, byteAt_cons_zero, hlow, if_neg (fun hne => hne rfl),
    if_neg (by omega), hpdu, take_append_of_le_length hle, hjoined]
  split
  · rfl
  · unfold continued
    split <;> rfl

/-- A receiver that has had the message so far takes the next piece of it. -/
theorem Hears.takes_consecutiveFrame (h : Hears b a) (hroom : classicFrameSize ≤ a.txDataLength) (hexact : a.Exact)
    (hr : b.Receiving a.sender.message) (hpending : b.receiver.flowControlPending = false) (env : ε) (nowUs : ℕ) :
    b.onFrame tx env (a.frameFor b) nowUs
      = if a.sender.message.length ≤ b.receiver.message.length + a.consecutiveFrameCapacity then
          (b.completed (a.pieceFor b), env, .message)
        else (b.continued (a.pieceFor b) nowUs, env, .none) := by
  have hsize := h.carried hroom hexact
  have hpiece := a.pieceFor_length b
  have haddress := a.addressSize_le
  have hleft := hr.left
  have hlength := hr.length
  have hcapacity : 0 < a.consecutiveFrameCapacity := by
    unfold consecutiveFrameCapacity
    simp only [classicFrameSize, consecutiveFrameHeaderSize] at *
    omega
  rw [← hr.length] at hsize
  have htakes := h.takes_piece tx hr.state hpending hr.sequence hsize (by omega) le_rfl env nowUs
  rw [take_length] at htakes
  refine htakes.trans (if_congr ?_ rfl rfl)
  omega

/-! ### Flow control -/

/-- The receiver behind a flow control frame the port took. -/
def answered (b : IsotpLink) (nowUs : ℕ) : IsotpLink :=
  { b with receiver := { b.receiver with flowControlPending := false, deadlineUs := nowUs + isotpTimeoutUs } }

/-- The receiver behind one the port refused. -/
def unanswered (b : IsotpLink) (nowUs : ℕ) : IsotpLink :=
  { b with receiver := { b.receiver with flowControlDueUs := nowUs + isotpRetryUs } }

theorem tickReceiver_idle (hs : b.receiver.state = .idle) (env : ε) (nowUs : ℕ) :
    b.tickReceiver tx env nowUs = (b, env, .none) := by
  unfold tickReceiver
  rw [hs, if_pos (fun h => nomatch h)]

theorem tickReceiver_waiting (hs : b.receiver.state = .consecutiveFrames)
    (hp : b.receiver.flowControlPending = false) {nowUs : ℕ} (ht : nowUs < b.receiver.deadlineUs) (env : ε) :
    b.tickReceiver tx env nowUs = (b, env, .none) := by
  have hpending : (!b.receiver.flowControlPending) = true := by rw [hp]; rfl
  unfold tickReceiver
  rw [if_neg (fun h => h hs), if_pos hpending, if_neg (Nat.not_le.mpr ht)]

theorem tickReceiver_pending (tx : ε → FrameMessage → ε × Bool) (hs : b.receiver.state = .consecutiveFrames)
    (hp : b.receiver.flowControlPending = true) (env : ε) (nowUs : ℕ) :
    b.tickReceiver tx env nowUs
      = if nowUs < b.receiver.flowControlDueUs then (b, env, .none)
        else if (tx env (b.dataFrame (b.flowControlData flowStatusContinue))).2 then
          (b.answered nowUs, (tx env (b.dataFrame (b.flowControlData flowStatusContinue))).1, .none)
        else (b.unanswered nowUs, (tx env (b.dataFrame (b.flowControlData flowStatusContinue))).1, .none) := by
  have hpending : ¬(!b.receiver.flowControlPending) = true := by rw [hp]; exact fun h => nomatch h
  unfold tickReceiver
  rw [if_neg (fun h => h hs), if_neg hpending]
  rfl

/-- What remains is what remained while it waited. -/
theorem remaining_granted (hs : a.sender.state = .flowControl) (blockSize stMin : UInt8) (nowUs : ℕ) :
    (a.granted blockSize stMin nowUs).remaining = a.remaining := by
  have hframes : (a.granted blockSize stMin nowUs).framesFrom = a.framesFrom := framesFrom_congr rfl rfl
  rw [remaining_consecutiveFrames rfl, hframes, remaining_flowControl hs]
  rfl

/-- **A sender waiting for flow control goes on with the block the receiver grants.** -/
theorem Hears.takes_flowControl (h : Hears a b) (hs : a.sender.state = .flowControl) (env : ε) (nowUs : ℕ) :
    a.onFrame tx env (b.dataFrame (b.flowControlData flowStatusContinue)) nowUs
      = (a.granted b.parameters.blockSize b.parameters.stMin nowUs, env, .none) := by
  have hlong : ¬(b.dataFrame (b.flowControlData flowStatusContinue)).payload.length
      < a.addressSize + flowControlSize := by
    rw [payload_length, h.size]
    simp only [flowControlData, length_cons, length_nil, flowControlSize]
    omega
  have hstatus : (pciFlowControl <<< 4 ||| flowStatusContinue) &&& 0x0F = flowStatusContinue := by decide
  have hdrop := h.payload_drop (b.flowControlData flowStatusContinue)
  unfold flowControlData at *
  rw [h.onFrame, if_pos (by decide)]
  unfold onFlowControl
  dsimp only
  rw [hdrop, cons_append, byteAt_cons_zero, hstatus, if_neg (fun hor => hor.elim (fun hne => hne hs) hlong),
    if_neg (by decide), if_neg (by decide), if_neg (by decide)]
  rfl

end Frames
end IsotpLink
end CanHub
