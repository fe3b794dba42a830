/-
# Step records and their batches

A transaction's steps travel as records packed into `TXN_STEPS` batches. A
record is an 8-byte header, the payload padded to a multiple of 8 and, when its
flag asks for one, an expected value: 8 to 272 bytes. `TxnStep_Encode` and
`TxnStep_Decode` are modelled byte by byte, since the agent keeps records
verbatim and decodes them again when it runs them.

A `StepRecord` is a run of bytes that decodes to a step and is exactly that
step's size; it is what the agent's ring and the batches are lists of.

Key theorems:
- `StepRecord.decode_append`: a record decodes to its step whatever follows it.
- `TxnStep.decode_record`: the record of a valid step decodes to the step.
- `TxnStepsWriter.decode_body`: a batch the writer packed passes the codec.
- `steps_parse`: writer, codec and records agree on every boundary.
-/
import CanHub.Protocol.Txn

namespace CanHub

open Wire List UInt8

@[simp] abbrev txnStepsFixedFieldsSize : ℕ := 12
@[simp] abbrev txnStepsRecordBytesMax : ℕ := 400
@[simp] abbrev txnStepsBodySizeMax : ℕ := txnStepsFixedFieldsSize + txnStepsRecordBytesMax
@[simp] abbrev txnStepRecordHeaderSize : ℕ := 8
@[simp] abbrev txnStepRecordAlignment : ℕ := 8
@[simp] abbrev txnStepExpectValueSize : ℕ := 8
@[simp] abbrev txnStepPayloadSizeMax : ℕ := 255
@[simp] abbrev txnStepPaddedPayloadSizeMax : ℕ := 256
@[simp] abbrev txnStepRecordSizeMax : ℕ :=
  txnStepRecordHeaderSize + txnStepPaddedPayloadSizeMax + txnStepExpectValueSize
@[simp] abbrev stepsCountMax : ℕ := 255
@[simp] abbrev stepsFirstRecordOffset : ℕ := messageHeaderSize + txnStepsFixedFieldsSize

def txnStepsFlagEnd : UInt8 := 1
def txnStepFlagExpectValue : UInt8 := 1
def txnStepFlagExpectOnly : UInt8 := 2
def txnStepFlagMessage : UInt8 := 8
def txnStepFlagContinued : UInt8 := 16

/-- One step; its payload length is a byte. -/
structure TxnStep where
  templateId : UInt8 := 0
  flags : UInt8 := 0
  frameFlags : UInt8 := 0
  canId : UInt32 := 0
  expectValue : UInt64 := 0
  payload : List UInt8 := []
  payload_le : payload.length ≤ txnStepPayloadSizeMax := by first | exact Nat.zero_le txnStepPayloadSizeMax | decide
deriving DecidableEq

namespace TxnStep

/-- `flags & flag` as a condition. -/
def has (flags flag : UInt8) : Bool := flags &&& flag != 0

def isMessage (s : TxnStep) : Bool := has s.flags txnStepFlagMessage
def isContinued (s : TxnStep) : Bool := has s.flags txnStepFlagContinued
def isExpectOnly (s : TxnStep) : Bool := has s.flags txnStepFlagExpectOnly
def hasExpectValue (s : TxnStep) : Bool := has s.flags txnStepFlagExpectValue

def paddedPayloadSize (payloadLength : ℕ) : ℕ :=
  (payloadLength + txnStepRecordAlignment - 1) / txnStepRecordAlignment * txnStepRecordAlignment

def recordSizeOf (payloadLength : ℕ) (flags : UInt8) : ℕ :=
  txnStepRecordHeaderSize + paddedPayloadSize payloadLength
    + if has flags txnStepFlagExpectValue then txnStepExpectValueSize else 0

/-- `TxnStep_RecordSize`. -/
def recordSize (s : TxnStep) : ℕ := recordSizeOf s.payload.length s.flags

def isMessageRecordValid (flags : UInt8) (payloadLength : ℕ) (frameFlags : UInt8) : Bool :=
  if payloadLength = 0 ∨ frameFlags ≠ 0 then false
  else if has flags txnStepFlagExpectOnly then false
  else if has flags txnStepFlagContinued then !has flags txnStepFlagExpectValue
  else true

def isStepValid (templateId flags : UInt8) (payloadLength : ℕ) (frameFlags : UInt8) : Bool :=
  if txnTemplatesMax ≤ templateId.toNat then false
  else if has flags txnStepFlagMessage then isMessageRecordValid flags payloadLength frameFlags
  else if has flags txnStepFlagContinued then false
  else if has flags txnStepFlagExpectOnly ∧ payloadLength ≠ 0 then false
  else FrameMessage.isPayloadLengthValid payloadLength frameFlags

/-- The step passes the codec's own check. -/
def Valid (s : TxnStep) : Prop := isStepValid s.templateId s.flags s.payload.length s.frameFlags

instance (s : TxnStep) : Decidable s.Valid := inferInstanceAs (Decidable (_ = true))

/-- The bytes `TxnStep_Encode` writes for a step. -/
def record (s : TxnStep) : List UInt8 :=
  [s.templateId, s.flags, ofNat s.payload.length, s.frameFlags] ++ writeU32 s.canId ++ s.payload
    ++ replicate (paddedPayloadSize s.payload.length - s.payload.length) 0
    ++ if s.hasExpectValue then writeU64 s.expectValue else []

/-- `TxnStep_Encode`: `none` where the code returns size 0. -/
def encode (s : TxnStep) (available : ℕ) : Option (List UInt8) :=
  if !isStepValid s.templateId s.flags s.payload.length s.frameFlags then none
  else if available < s.recordSize then none
  else some s.record

/-- `TxnStep_Decode`: the step and its size, `none` where the code returns 0. -/
def decode (record : List UInt8) : Option (TxnStep × ℕ) :=
  let templateId := byteAt record 0
  let flags := byteAt record 1
  let payloadLength := (byteAt record 2).toNat
  let frameFlags := byteAt record 3
  let size := recordSizeOf payloadLength flags
  if record.length < txnStepRecordHeaderSize then none
  else if !isStepValid templateId flags payloadLength frameFlags then none
  else if record.length < size then none
  else some
    ({ templateId, flags, frameFlags, canId := readU32 (record.drop 4),
       expectValue := if has flags txnStepFlagExpectValue
         then readU64 (record.drop (8 + paddedPayloadSize payloadLength)) else 0,
       payload := (record.drop 8).take payloadLength,
       payload_le := by
         have := (byteAt record 2).toNat_lt
         rw [length_take]
         exact le_trans (min_le_left _ _) (by simp only [payloadLength, txnStepPayloadSizeMax]; omega) }, size)

/-- What decoding gives back of a step: the expected value is only carried
when its flag is set. -/
def carried (s : TxnStep) : TxnStep := if s.hasExpectValue then s else { s with expectValue := 0 }

/-- Only a message's record can be continued. -/
theorem Valid.isMessage {s : TxnStep} (h : s.Valid) (hc : s.isContinued = true) : s.isMessage = true := by
  by_contra hm
  simp only [Valid, isStepValid] at h
  split at h
  · cases h
  · rw [if_neg (by simpa [TxnStep.isMessage] using hm), if_pos (by simpa [isContinued] using hc)] at h
    cases h

/-- A message's record has a payload, and a step that only waits is not a message. -/
theorem Valid.message {s : TxnStep} (h : s.Valid) (hm : s.isMessage = true) :
    s.payload ≠ [] ∧ s.isExpectOnly = false := by
  simp only [Valid, isStepValid] at h
  split at h
  · cases h
  · rw [if_pos (by simpa [TxnStep.isMessage] using hm)] at h
    simp only [isMessageRecordValid] at h
    split at h
    · cases h
    · rename_i hp
      split at h
      · cases h
      · rename_i he
        refine ⟨fun hnil => hp (Or.inl (by simp [hnil])), ?_⟩
        simpa [isExpectOnly] using he

theorem le_paddedPayloadSize (n : ℕ) : n ≤ paddedPayloadSize n := by
  simp only [paddedPayloadSize, txnStepRecordAlignment]
  omega

variable {n : ℕ}

theorem paddedPayloadSize_le (h : n ≤ 255) : paddedPayloadSize n ≤ 256 := by
  simp only [paddedPayloadSize, txnStepRecordAlignment]
  omega

theorem recordSizeOf_le (h : n ≤ 255) (flags : UInt8) : recordSizeOf n flags ≤ txnStepRecordSizeMax := by
  have := paddedPayloadSize_le h
  unfold recordSizeOf
  split <;> simp <;> omega

theorem le_recordSizeOf (n : ℕ) (flags : UInt8) : 8 + n ≤ recordSizeOf n flags := by
  have := le_paddedPayloadSize n
  simp only [recordSizeOf, txnStepRecordHeaderSize]
  omega

variable (s : TxnStep)

theorem recordSize_le : s.recordSize ≤ txnStepRecordSizeMax := recordSizeOf_le s.payload_le _

theorem recordSize_pos : 8 ≤ s.recordSize :=
  le_trans (Nat.le_add_right 8 _) (le_recordSizeOf _ _)

theorem length_record : s.record.length = s.recordSize := by
  have := le_paddedPayloadSize s.payload.length
  unfold record recordSize recordSizeOf hasExpectValue
  split <;> simp <;> omega

@[simp] theorem isContinued_carried : s.carried.isContinued = s.isContinued := by
  unfold carried
  split <;> rfl

/-! ### Decoding -/

/-- A record that decodes passes the codec's check, its size is the step's, and the fields of the step are read
from it. -/
theorem decode_some {r : List UInt8} {s : TxnStep} (h : decode r = some (s, n)) :
    s.Valid ∧ n = s.recordSize ∧ n ≤ r.length
      ∧ [s.templateId, s.flags, ofNat s.payload.length, s.frameFlags] = r.take 4 ∧ s.canId = readU32 (r.drop 4)
      ∧ s.payload = (r.drop 8).take s.payload.length
      ∧ (s.hasExpectValue → s.expectValue = readU64 (r.drop (8 + paddedPayloadSize s.payload.length))) := by
  simp only [decode] at h
  split at h
  · cases h
  split at h
  · cases h
  split at h
  · cases h
  rename_i hhdr hvalid hsize
  simp only [Option.some.injEq, Prod.mk.injEq] at h
  obtain ⟨rfl, rfl⟩ := h
  have hfits := le_recordSizeOf (byteAt r 2).toNat (byteAt r 1)
  have hlen : ((r.drop 8).take (byteAt r 2).toNat).length = (byteAt r 2).toNat := by
    rw [length_take, length_drop]
    omega
  simp only [hlen, UInt8.ofNat_toNat]
  refine ⟨?_, ?_, by omega, take_four (by simp at hhdr; omega), trivial, trivial, fun hflag => if_pos hflag⟩
  · simpa [Valid, hlen] using hvalid
  · simp [recordSize, hlen]

/-- Only the record's own bytes decide what it decodes to. -/
theorem decode_take_append {r : List UInt8} {s : TxnStep} (h : decode r = some (s, n))
    (t : List UInt8) : decode (r.take n ++ t) = some (s, n) := by
  obtain ⟨-, hn, hle, -⟩ := decode_some h
  have h8 := recordSize_pos s
  have hb : ∀ i < 8, byteAt (r.take n ++ t) i = byteAt r i := fun i hi =>
    byteAt_take_append hle (by omega) t
  rw [← h]
  simp only [decode] at h ⊢
  simp only [hb 0 (by omega), hb 1 (by omega), hb 2 (by omega), hb 3 (by omega),
    readU32_take_append hle (show 4 + 4 ≤ n by omega) t]
  split at h
  · cases h
  split at h
  · cases h
  split at h
  · cases h
  rename_i hhdr hvalid hsize
  simp only [Option.some.injEq, Prod.mk.injEq] at h
  have hlen : (r.take n ++ t).length = n + t.length := by simp; omega
  have hfits := le_recordSizeOf (byteAt r 2).toNat (byteAt r 1)
  rw [if_neg (by rw [hlen]; simp; omega), if_neg hvalid, if_neg (by omega), if_neg hhdr, if_neg hvalid,
    if_neg hsize]
  have hpay : ((r.take n ++ t).drop 8).take (byteAt r 2).toNat = (r.drop 8).take (byteAt r 2).toNat := by
    rw [drop_append_of_le_length (by simp; omega), drop_take,
      take_append_of_le_length (by simp; omega), take_take]
    congr 1
    omega
  simp only [hpay]
  congr 3
  by_cases hv : has (byteAt r 1) txnStepFlagExpectValue
  · rw [if_pos hv, if_pos hv]
    apply readU64_take_append hle
    rw [← h.2]
    simp [recordSizeOf, hv]
  · rw [if_neg hv, if_neg hv]

/-- **The record of a valid step decodes to the step.** -/
theorem decode_record {s : TxnStep} (h : s.Valid) (t : List UInt8) :
    decode (s.record ++ t) = some (s.carried, s.recordSize) := by
  have hle := s.payload_le
  have hpad := le_paddedPayloadSize s.payload.length
  have hlen : (ofNat s.payload.length).toNat = s.payload.length := by
    rw [toNat_ofNat']
    simp only [txnStepPayloadSizeMax] at hle
    omega
  have hsize := s.length_record
  have h8 := s.recordSize_pos
  have h0 : byteAt (s.record ++ t) 0 = s.templateId := by simp [record, byteAt]
  have h1 : byteAt (s.record ++ t) 1 = s.flags := by simp [record, byteAt]
  have h2 : byteAt (s.record ++ t) 2 = ofNat s.payload.length := by simp [record, byteAt]
  have h3 : byteAt (s.record ++ t) 3 = s.frameFlags := by simp [record, byteAt]
  have hid : readU32 ((s.record ++ t).drop 4) = s.canId := by simp [record]
  have hpay : ((s.record ++ t).drop 8).take s.payload.length = s.payload := by
    simp [record, List.drop_append]
  simp only [decode, h0, h1, h2, h3, hlen, hid, hpay]
  rw [if_neg (by simp; omega), if_neg (by simpa [Valid] using h),
    if_neg (by rw [length_append]; unfold recordSize at hsize; omega)]
  unfold carried hasExpectValue
  by_cases hv : has s.flags txnStepFlagExpectValue
  · simp only [hv, if_true]
    have hval : readU64 ((s.record ++ t).drop (8 + paddedPayloadSize s.payload.length)) = s.expectValue := by
      have hsplit : s.record ++ t = ([s.templateId, s.flags, ofNat s.payload.length, s.frameFlags]
          ++ writeU32 s.canId ++ s.payload
          ++ replicate (paddedPayloadSize s.payload.length - s.payload.length) 0)
          ++ (writeU64 s.expectValue ++ t) := by
        simp [record, hasExpectValue, hv]
      rw [hsplit]
      refine (congrArg readU64 (drop_append ?_ _ 0)).trans (by simp)
      simp
      omega
    simp only [hval]
    rfl
  · simp only [hv]
    rfl

/-- `TxnStep_Decode` again and again, for as many records as announced. -/
def decodeAll : ℕ → List UInt8 → Option (List TxnStep)
  | 0, _ => some []
  | n + 1, records =>
    match decode records with
    | none => none
    | some (step, size) => (decodeAll n (records.drop size)).map (step :: ·)

end TxnStep

/-- A record: bytes that decode to a step and are exactly that step's size. -/
structure StepRecord where
  bytes : List UInt8
  step : TxnStep
  decodes : TxnStep.decode bytes = some (step, bytes.length)

namespace StepRecord

/-- The record at the front of bytes that decode. -/
def ofDecode {r : List UInt8} {s : TxnStep} (h : TxnStep.decode r = some (s, n)) : StepRecord where
  bytes := r.take n
  step := s
  decodes := by
    have hn : (r.take n).length = n := length_take_of_le (TxnStep.decode_some h).2.2.1
    rw [hn]
    simpa using TxnStep.decode_take_append h []

/-- The record a valid step is encoded to. -/
def ofStep (s : TxnStep) (h : s.Valid) : StepRecord where
  bytes := s.record
  step := s.carried
  decodes := by simpa [s.length_record] using TxnStep.decode_record h []

def size (r : StepRecord) : ℕ := r.bytes.length

/-- The bytes of consecutive records. -/
def flatten (rs : List StepRecord) : List UInt8 := rs.flatMap bytes

def total (rs : List StepRecord) : ℕ := (rs.map size).sum

variable (r : StepRecord)

theorem decode_append (t : List UInt8) :
    TxnStep.decode (r.bytes ++ t) = some (r.step, r.size) := by
  simpa [size] using TxnStep.decode_take_append r.decodes t

theorem size_eq : r.size = r.step.recordSize := (TxnStep.decode_some r.decodes).2.1

theorem valid : r.step.Valid := (TxnStep.decode_some r.decodes).1

theorem size_pos : 8 ≤ r.size := r.size_eq ▸ r.step.recordSize_pos

theorem size_le : r.size ≤ txnStepRecordSizeMax := r.size_eq ▸ r.step.recordSize_le

@[simp] theorem flatten_nil : flatten [] = [] := rfl
@[simp] theorem flatten_cons (rs : List StepRecord) :
    flatten (r :: rs) = r.bytes ++ flatten rs := rfl
@[simp] theorem flatten_append (rs qs : List StepRecord) : flatten (rs ++ qs) = flatten rs ++ flatten qs := by
  simp [flatten]
@[simp] theorem total_nil : total [] = 0 := rfl
@[simp] theorem total_cons (rs : List StepRecord) : total (r :: rs) = r.size + total rs := by
  simp [total]
@[simp] theorem total_append (rs qs : List StepRecord) : total (rs ++ qs) = total rs + total qs := by
  simp [total]

@[simp] theorem length_flatten (rs : List StepRecord) : (flatten rs).length = total rs := by
  induction rs with
  | nil => rfl
  | cons r rs ih => simp [ih, size]

variable {rs : List StepRecord}

/-- **A record that decodes is that of its step**, but for the padding. -/
theorem record_step : r.step.record = r.bytes.take (8 + r.step.payload.length)
      ++ replicate (TxnStep.paddedPayloadSize r.step.payload.length - r.step.payload.length) 0
      ++ r.bytes.drop (8 + TxnStep.paddedPayloadSize r.step.payload.length) := by
  obtain ⟨-, -, -, hhead, hid, hpayload, hvalue⟩ := TxnStep.decode_some r.decodes
  have hsize : r.bytes.length = r.step.recordSize := r.size_eq
  unfold TxnStep.recordSize TxnStep.recordSizeOf at hsize
  have hpad := TxnStep.le_paddedPayloadSize r.step.payload.length
  have htake : r.bytes.take (8 + r.step.payload.length)
      = r.bytes.take 4 ++ (r.bytes.drop 4).take 4 ++ (r.bytes.drop 8).take r.step.payload.length := by
    rw [take_add, show 8 = 4 + 4 from rfl, take_add]
  have htail : (if r.step.hasExpectValue then writeU64 r.step.expectValue else [])
      = r.bytes.drop (8 + TxnStep.paddedPayloadSize r.step.payload.length) := by
    unfold TxnStep.hasExpectValue at hvalue ⊢
    split at hsize
    · rename_i hflag
      rw [if_pos hflag, hvalue hflag, writeU64_read (by rw [length_drop]; simp at hsize; omega)]
      exact take_of_length_le (by rw [length_drop]; simp at hsize; omega)
    · rename_i hflag
      rw [if_neg hflag]
      exact (drop_eq_nil_of_le (by simp at hsize; omega)).symm
  rw [TxnStep.record, htail, htake, hhead, hid, writeU32_read (by rw [length_drop]; simp at hsize; omega), ← hpayload]

theorem decodeAll_flatten (rs : List StepRecord) : TxnStep.decodeAll rs.length (flatten rs) = some (rs.map step) := by
  induction rs with
  | nil => rfl
  | cons r rs ih =>
    have hdrop : (r.bytes ++ flatten rs).drop r.size = flatten rs := drop_left' rfl
    simp only [length_cons, TxnStep.decodeAll, flatten_cons, r.decode_append, hdrop, ih]
    rfl

theorem length_le_total : ∀ rs : List StepRecord, 8 * rs.length ≤ total rs
  | [] => by simp
  | r :: rs => by
    have := r.size_pos
    have := length_le_total rs
    simp
    omega

end StepRecord

/-! ### Batches -/

structure TxnStepsMessage where
  channel : UInt8
  stepCount : UInt8
  txnId : UInt16
  firstSeq : UInt32
  flags : UInt8
  records : List UInt8
deriving DecidableEq

namespace TxnStepsMessage

def areRecordsWellFormed (records : List UInt8) : ℕ → Bool
  | 0 => records.isEmpty
  | n + 1 =>
    match TxnStep.decode records with
    | none => false
    | some (_, size) => areRecordsWellFormed (records.drop size) n

/-- `TxnStepsMessage_Decode` of a message body. -/
def decode (payload : List UInt8) : Option TxnStepsMessage :=
  if payload.length < txnStepsFixedFieldsSize then none
  else if txnStepsRecordBytesMax < payload.length - txnStepsFixedFieldsSize then none
  else if !areRecordsWellFormed (payload.drop txnStepsFixedFieldsSize) (byteAt payload 1).toNat then none
  else some
    { channel := byteAt payload 0, stepCount := byteAt payload 1, txnId := readU16 (payload.drop 2),
      firstSeq := readU32 (payload.drop 4), flags := byteAt payload 8,
      records := payload.drop txnStepsFixedFieldsSize }

/-- The message ends its transaction. -/
def isEnd (m : TxnStepsMessage) : Bool := m.flags &&& txnStepsFlagEnd != 0

/-- The codec accepts exactly the concatenations of the announced number of records. -/
theorem areRecordsWellFormed_iff : ∀ (n : ℕ) (records : List UInt8),
    areRecordsWellFormed records n ↔
      ∃ rs : List StepRecord, rs.length = n ∧ records = StepRecord.flatten rs
  | 0, records => by simp [areRecordsWellFormed, List.isEmpty_iff]
  | n + 1, records => by
    rw [areRecordsWellFormed]
    constructor
    · intro h
      split at h
      · cases h
      · rename_i s size hd
        obtain ⟨rs, hlen, hrs⟩ := (areRecordsWellFormed_iff n _).mp h
        refine ⟨.ofDecode hd :: rs, by simp [hlen], ?_⟩
        rw [StepRecord.flatten_cons, ← hrs]
        exact (take_append_drop size records).symm
    · rintro ⟨rs, hlen, rfl⟩
      cases rs with
      | nil => cases hlen
      | cons r rs =>
        rw [StepRecord.flatten_cons, r.decode_append]
        refine (areRecordsWellFormed_iff n _).mpr ⟨rs, by simpa using hlen, ?_⟩
        exact drop_left' rfl

/-- **Exactly the payloads made of records are accepted.** -/
theorem decode_eq_some_iff {p : List UInt8} {m : TxnStepsMessage} : decode p = some m ↔
    txnStepsFixedFieldsSize ≤ p.length ∧ p.length ≤ txnStepsBodySizeMax
      ∧ m = ⟨byteAt p 0, byteAt p 1, readU16 (p.drop 2), readU32 (p.drop 4), byteAt p 8, p.drop txnStepsFixedFieldsSize⟩
      ∧ ∃ rs : List StepRecord, rs.length = m.stepCount.toNat ∧ m.records = StepRecord.flatten rs := by
  simp only [decode, txnStepsFixedFieldsSize, txnStepsRecordBytesMax, txnStepsBodySizeMax]
  constructor
  · intro h
    split at h
    · cases h
    split at h
    · cases h
    split at h
    · cases h
    rename_i hwf
    cases h
    exact ⟨by omega, by omega, rfl, (areRecordsWellFormed_iff _ _).mp (by simpa using hwf)⟩
  · rintro ⟨hmin, hmax, rfl, hrecords⟩
    have hwf := (areRecordsWellFormed_iff _ _).mpr hrecords
    rw [if_neg (by omega), if_neg (by omega), if_neg (by simpa using hwf)]

/-- What an accepted message's records are. -/
theorem decode_some {p : List UInt8} {m : TxnStepsMessage} (h : decode p = some m) :
    ∃ rs : List StepRecord, rs.length = m.stepCount.toNat ∧ m.records = StepRecord.flatten rs :=
  (decode_eq_some_iff.mp h).2.2.2

end TxnStepsMessage

/-- The batch being packed: the fields written at the head of its buffer and
the record bytes behind them. -/
structure TxnStepsWriter where
  channel : UInt8 := 0
  txnId : UInt16 := 0
  firstSeq : UInt32 := 0
  flags : UInt8 := 0
  bufferSize : ℕ := 0
  records : List UInt8 := []
  stepCount : ℕ := 0
deriving DecidableEq

namespace TxnStepsWriter

/-- The `kMESSAGE_TYPE_TXN_STEPS` byte of a message header. -/
def messageType : UInt8 := 0x44

/-- `TxnStepsWriter_Init`. -/
def init (channel : UInt8) (txnId : UInt16) (firstSeq : UInt32) (flags : UInt8) (bufferSize : ℕ) :
    Option TxnStepsWriter :=
  if bufferSize < stepsFirstRecordOffset then none
  else some { channel, txnId, firstSeq, flags, bufferSize }

def writerRoom (w : TxnStepsWriter) : ℕ :=
  min (w.bufferSize - stepsFirstRecordOffset - w.records.length) (txnStepsRecordBytesMax - w.records.length)

/-- `TxnStepsWriter_Append`: `none` where the code returns false. -/
def append (w : TxnStepsWriter) (step : TxnStep) : Option TxnStepsWriter :=
  if w.stepCount = stepsCountMax then none
  else (step.encode w.writerRoom).map fun record =>
    { w with records := w.records ++ record, stepCount := w.stepCount + 1 }

def markEnd (w : TxnStepsWriter) : TxnStepsWriter := { w with flags := w.flags ||| txnStepsFlagEnd }

/-- The message body in the writer's buffer. -/
def body (w : TxnStepsWriter) : List UInt8 :=
  [w.channel, ofNat w.stepCount] ++ writeU16 w.txnId ++ writeU32 w.firstSeq ++ [w.flags, 0, 0, 0]
    ++ w.records

/-- `TxnStepsWriter_Finish`: the whole message. -/
def finish (w : TxnStepsWriter) : List UInt8 :=
  FrameMessage.encodeHeader messageType (txnStepsFixedFieldsSize + w.records.length) ++ w.body

/-- The writer holds these records. -/
structure Packs (w : TxnStepsWriter) (rs : List StepRecord) : Prop where
  records : w.records = StepRecord.flatten rs
  count : w.stepCount = rs.length
  bounded : StepRecord.total rs ≤ 400

variable {w : TxnStepsWriter}

/-- 400 bytes hold at most 50 records, so the count fits its byte. -/
theorem Packs.stepCount (h : w.Packs rs) :
    (ofNat w.stepCount).toNat = rs.length := by
  have hb := h.bounded
  have hn := StepRecord.length_le_total rs
  rw [h.count, toNat_ofNat']
  omega

/-- **A batch the writer packed passes the codec**, with the fields it was
opened with and its records. -/
theorem decode_body (h : w.Packs rs) :
    TxnStepsMessage.decode w.body =
      some ⟨w.channel, ofNat w.stepCount, w.txnId, w.firstSeq, w.flags, w.records⟩ := by
  have hrecs : w.records.length = StepRecord.total rs := by rw [h.records, StepRecord.length_flatten]
  have hlen : w.body.length = 12 + StepRecord.total rs := by
    simp [body, hrecs]
    omega
  have hdrop : w.body.drop 12 = w.records := by simp [body, List.drop_append]
  have h0 : byteAt w.body 0 = w.channel := by simp [body, byteAt]
  have h1 : byteAt w.body 1 = ofNat w.stepCount := by simp [body, byteAt]
  have h8 : byteAt w.body 8 = w.flags := rfl
  have hid : readU16 (w.body.drop 2) = w.txnId := by simp [body]
  have hseq : readU32 (w.body.drop 4) = w.firstSeq := by simp [body, List.drop_append]
  have hcount := h.stepCount
  have hwf : TxnStepsMessage.areRecordsWellFormed w.records (ofNat w.stepCount).toNat :=
    (TxnStepsMessage.areRecordsWellFormed_iff _ _).mpr ⟨rs, hcount.symm, h.records⟩
  have hb := h.bounded
  unfold TxnStepsMessage.decode
  simp only [txnStepsFixedFieldsSize, txnStepsRecordBytesMax, hlen, hdrop, h0, h1, h8, hid, hseq, hwf]
  rw [if_neg (by omega), if_neg (by omega), if_neg (by decide)]

/-- Packing a valid step adds its record. -/
theorem Packs.append {w' : TxnStepsWriter} {step : TxnStep}
    (h : w.Packs rs) (hv : step.Valid) (ha : w.append step = some w') :
    w'.Packs (rs ++ [.ofStep step hv]) ∧ w'.txnId = w.txnId ∧ w'.firstSeq = w.firstSeq
      ∧ w'.flags = w.flags := by
  unfold TxnStepsWriter.append at ha
  split at ha
  · cases ha
  rw [Option.map_eq_some_iff] at ha
  obtain ⟨record, henc, rfl⟩ := ha
  unfold TxnStep.encode at henc
  rw [if_neg (by simpa [TxnStep.Valid] using hv)] at henc
  split at henc
  · cases henc
  rename_i hroom
  cases henc
  have hlen : w.records.length = StepRecord.total rs := by rw [h.records, StepRecord.length_flatten]
  have hb := h.bounded
  have hsize : (StepRecord.ofStep step hv).size = step.recordSize := step.length_record
  refine ⟨⟨?_, ?_, ?_⟩, rfl, rfl, rfl⟩
  · simp [h.records, StepRecord.ofStep]
  · simp [h.count]
  · simp only [TxnStepsWriter.writerRoom, txnStepsRecordBytesMax] at hroom
    simp [hsize]
    omega

/-- Steps that fit are packed, one record after the other. -/
theorem packs_foldlM {steps : List TxnStep} (h : w.Packs rs)
    (hvalid : ∀ s ∈ steps, s.Valid)
    (hfit : StepRecord.total rs + (steps.map TxnStep.recordSize).sum
      ≤ min (w.bufferSize - stepsFirstRecordOffset) txnStepsRecordBytesMax) :
    ∃ w' rs', steps.foldlM append w = some w' ∧ w'.Packs (rs ++ rs') ∧ rs'.map StepRecord.step = steps.map TxnStep.carried
      ∧ w'.channel = w.channel ∧ w'.txnId = w.txnId ∧ w'.firstSeq = w.firstSeq ∧ w'.flags = w.flags := by
  induction steps generalizing w rs with
  | nil => exact ⟨w, [], rfl, by simpa using h, rfl, rfl, rfl, rfl, rfl⟩
  | cons step steps ih =>
    obtain ⟨hstep, hsteps⟩ := forall_mem_cons.mp hvalid
    simp only [map_cons, sum_cons, stepsFirstRecordOffset, txnStepsRecordBytesMax] at hfit
    have hlen : w.records.length = StepRecord.total rs := by rw [h.records, StepRecord.length_flatten]
    have hcount : w.stepCount ≠ stepsCountMax := by
      have := StepRecord.length_le_total rs
      rw [h.count, stepsCountMax]
      omega
    have hroom : ¬ w.writerRoom < step.recordSize := by
      unfold writerRoom
      simp only [stepsFirstRecordOffset, txnStepsRecordBytesMax]
      omega
    have happend : w.append step = some { w with records := w.records ++ step.record, stepCount := w.stepCount + 1 } := by
      rw [append, if_neg hcount, TxnStep.encode, if_neg (by simpa [TxnStep.Valid] using hstep), if_neg hroom]
      rfl
    obtain ⟨hpacks, -⟩ := h.append hstep happend
    obtain ⟨w', rs', hfold, hpacks', hmap, hfields⟩ := ih hpacks hsteps (by
      simp only [StepRecord.total_append, StepRecord.total_cons, StepRecord.total_nil, StepRecord.size, StepRecord.ofStep,
        step.length_record, stepsFirstRecordOffset, txnStepsRecordBytesMax]
      omega)
    refine ⟨w', .ofStep step hstep :: rs', ?_, by simpa using hpacks', ?_, hfields⟩
    · rw [foldlM_cons, happend]
      exact hfold
    · rw [map_cons, map_cons, hmap]
      rfl

end TxnStepsWriter

/-- **Step records parse uniquely.** Steps that fit a message are packed, and decoding gives them
back, the expected value where its flag is set; a payload is accepted exactly where it is made
of records; and each record is that of its step, but for the padding. -/
theorem steps_parse :
    (∀ (channel : UInt8) (txnId : UInt16) (firstSeq : UInt32) (flags : UInt8) (bufferSize : ℕ) (w : TxnStepsWriter)
      (steps : List TxnStep), TxnStepsWriter.init channel txnId firstSeq flags bufferSize = some w →
      (∀ s ∈ steps, s.Valid) → (steps.map TxnStep.recordSize).sum
        ≤ min (bufferSize - stepsFirstRecordOffset) txnStepsRecordBytesMax →
      ∃ w' m, steps.foldlM TxnStepsWriter.append w = some w' ∧ TxnStepsMessage.decode w'.body = some m
        ∧ m = ⟨channel, ofNat steps.length, txnId, firstSeq, flags, m.records⟩
        ∧ TxnStep.decodeAll m.stepCount.toNat m.records = some (steps.map TxnStep.carried))
    ∧ (∀ (s : TxnStep) (available : ℕ) (record : List UInt8),
      s.encode available = some record → record.length = s.recordSize)
    ∧ (∀ (p : List UInt8) (m : TxnStepsMessage), TxnStepsMessage.decode p = some m ↔
      txnStepsFixedFieldsSize ≤ p.length ∧ p.length ≤ txnStepsBodySizeMax
        ∧ m = ⟨byteAt p 0, byteAt p 1, readU16 (p.drop 2), readU32 (p.drop 4), byteAt p 8, p.drop txnStepsFixedFieldsSize⟩
        ∧ ∃ rs : List StepRecord, rs.length = m.stepCount.toNat ∧ m.records = StepRecord.flatten rs)
    ∧ (∀ rs : List StepRecord, TxnStep.decodeAll rs.length (StepRecord.flatten rs) = some (rs.map StepRecord.step))
    ∧ ∀ r : StepRecord, r.step.Valid ∧ r.step.record = r.bytes.take (8 + r.step.payload.length)
      ++ replicate (TxnStep.paddedPayloadSize r.step.payload.length - r.step.payload.length) 0
      ++ r.bytes.drop (8 + TxnStep.paddedPayloadSize r.step.payload.length) := by
  refine ⟨?_, ?_, fun p m => TxnStepsMessage.decode_eq_some_iff, StepRecord.decodeAll_flatten,
    fun r => ⟨r.valid, r.record_step⟩⟩
  · intro channel txnId firstSeq flags bufferSize w steps hinit hvalid hfit
    unfold TxnStepsWriter.init at hinit
    split at hinit
    · cases hinit
    cases hinit
    have hempty : TxnStepsWriter.Packs { channel, txnId, firstSeq, flags, bufferSize } [] := ⟨rfl, rfl, Nat.zero_le _⟩
    obtain ⟨w', rs, hfold, hpacks, hmap, rfl, rfl, rfl, rfl⟩ := TxnStepsWriter.packs_foldlM hempty hvalid (by simpa using hfit)
    have hlength : rs.length = steps.length := by simpa using congrArg length hmap
    rw [nil_append] at hpacks
    refine ⟨w', _, hfold, TxnStepsWriter.decode_body hpacks, by rw [hpacks.count, hlength], ?_⟩
    dsimp only
    rw [hpacks.stepCount, hpacks.records, StepRecord.decodeAll_flatten, hmap]
  · intro s available record h
    unfold TxnStep.encode at h
    split at h
    · cases h
    split at h
    · cases h
    cases h
    exact s.length_record

def expectingStep : TxnStep := { flags := 1, canId := 5, expectValue := 7 }

/-- A step whose payload of three bytes is padded to eight. -/
def paddedStep : TxnStep := { templateId := 1, flags := 1, canId := 6, expectValue := 2, payload := [1, 2, 3] }

theorem steps_parse_padded : ∃ w' m, [paddedStep, expectingStep].foldlM TxnStepsWriter.append
      { channel := 3, txnId := 9, firstSeq := 1, bufferSize := 416 } = some w'
    ∧ TxnStepsMessage.decode w'.body = some m ∧ m = ⟨3, 2, 9, 1, 0, m.records⟩
    ∧ TxnStep.decodeAll m.stepCount.toNat m.records = some [paddedStep.carried, expectingStep.carried] :=
  steps_parse.1 3 9 1 0 416 _ [paddedStep, expectingStep] rfl (by decide) (by decide)

/-- A value that no flag announces is not carried. -/
theorem unannounced_value_lost : TxnStep.Valid { expectValue := 7 }
    ∧ TxnStep.decode (TxnStep.record { expectValue := 7 }) = some ({}, 8) := by decide

end CanHub
