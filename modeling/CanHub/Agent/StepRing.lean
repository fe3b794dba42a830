/-
# The agent's step ring

`StepRing` keeps the step records of a transaction verbatim in one buffer. A
record never splits across the end: when it does not fit there, writing wraps
to the start and the tail stays unused until the reader has passed it. The
buffer is a memory; its owner must never let it be read or written outside
`capacity`.

`Keeps r records` says that the ring holds the records, oldest first: in one
run of bytes, or in two when it has wrapped. Every operation is the list
operation of the same meaning under it (`push_keeps`, `peek_keeps`,
`release_keeps`), and a push cannot fail while the bytes held and the new
record leave one maximal record of the capacity free: that record pays for
the tail a wrap may waste. `Holds` is the same of step records.

The code computes offsets in 32 bits. `RingQueue` runs it beside a queue of
records; with a capacity below `2 ^ 32` by a maximal record no sum wraps, and the
ring is that queue in every run (`ring_refines_queue`).
-/
import CanHub.Lib.Memory
import CanHub.Lib.Run
import CanHub.Protocol.Steps

namespace CanHub

open Memory List

structure StepRing where
  storage : ℕ → UInt8
  capacity : ℕ
  readOffset : ℕ := 0
  writeOffset : ℕ := 0
  wrapOffset : ℕ := 0
  usedBytes : ℕ := 0
  wrapped : Bool := false

namespace StepRing

section

variable (r : StepRing)

def clear : StepRing :=
  { r with readOffset := 0, writeOffset := 0, wrapOffset := 0, usedBytes := 0, wrapped := false }

def init (storage : ℕ → UInt8) (capacity : ℕ) : StepRing := { storage, capacity }

/-- The private `append`: the record goes to the write offset. -/
def append (record : List UInt8) : StepRing :=
  { r with
    storage := store r.storage r.writeOffset record
    writeOffset := r.writeOffset + record.length
    usedBytes := r.usedBytes + record.length }

def pushContiguous (record : List UInt8) : Option StepRing :=
  if r.writeOffset + record.length ≤ r.capacity then some (r.append record)
  else if r.readOffset < record.length then none
  else some ({ r with wrapOffset := r.writeOffset, writeOffset := 0, wrapped := true }.append record)

def pushWrapped (record : List UInt8) : Option StepRing :=
  if r.readOffset < r.writeOffset + record.length then none
  else some (r.append record)

/-- `StepRing_Push`: `none` where the code returns false, leaving the ring as it was. -/
def push (record : List UInt8) : Option StepRing :=
  if r.wrapped then r.pushWrapped record else r.pushContiguous record

/-- `StepRing_Peek`: the bytes up to the end of the segment being read. -/
def peek : List UInt8 :=
  let segmentEnd := if r.wrapped then r.wrapOffset else r.writeOffset
  if r.usedBytes = 0 then [] else slice r.storage r.readOffset (segmentEnd - r.readOffset)

def wrapReadAtEndOfFirstSegment : StepRing :=
  if !r.wrapped ∨ r.readOffset ≠ r.wrapOffset then r
  else { r with readOffset := 0, wrapped := false }

/-- `StepRing_Release`. -/
def release (size : ℕ) : StepRing :=
  let r := { r with readOffset := r.readOffset + size, usedBytes := r.usedBytes - size }
  if r.usedBytes = 0 then r.clear else r.wrapReadAtEndOfFirstSegment

def isEmpty : Bool := r.usedBytes = 0

end

/-! ### What the ring holds -/

open StepRecord

/-- The bytes lie in one run, from the read to the write offset. -/
structure Level (r : StepRing) (held : List UInt8) : Prop where
  spans : r.readOffset + held.length = r.writeOffset
  fits : r.writeOffset ≤ r.capacity
  bytes : slice r.storage r.readOffset held.length = held
  /-- an empty ring starts over -/
  home : held = [] → r.readOffset = 0

/-- The older bytes run up to the wrap offset, the newer ones lie at the start. -/
structure Folded (r : StepRing) (front back : List UInt8) : Prop where
  spans : r.readOffset + front.length = r.wrapOffset
  start : r.writeOffset = back.length
  apart : r.writeOffset ≤ r.readOffset
  fits : r.wrapOffset ≤ r.capacity
  /-- the tail a wrap left unused is shorter than a record -/
  tail : r.capacity < r.wrapOffset + txnStepRecordSizeMax
  nonempty : front ≠ []
  frontBytes : slice r.storage r.readOffset front.length = front
  backBytes : slice r.storage 0 back.length = back

/-- The ring keeps the records, oldest first, none of them split. -/
structure Keeps (r : StepRing) (records : List (List UInt8)) : Prop where
  used : r.usedBytes = records.flatten.length
  level : r.wrapped = false → r.Level records.flatten
  folded : r.wrapped = true → ∃ front back, records = front ++ back ∧ r.Folded front.flatten back.flatten

theorem clear_keeps (r : StepRing) : r.clear.Keeps [] where
  used := rfl
  level _ := ⟨rfl, Nat.zero_le _, rfl, fun _ => rfl⟩
  folded h := by cases h

theorem push_capacity {r r' : StepRing} {b : List UInt8} (h : r.push b = some r') :
    r'.capacity = r.capacity := by
  unfold push pushWrapped pushContiguous at h
  split at h <;> split at h
  · cases h
  · cases h; rfl
  · cases h; rfl
  · split at h
    · cases h
    · cases h; rfl

@[simp] theorem release_capacity (r : StepRing) (n : ℕ) : (r.release n).capacity = r.capacity := by
  simp only [release, wrapReadAtEndOfFirstSegment]
  split
  · rfl
  · split <;> rfl

variable {r : StepRing} {bytes front back record : List UInt8} {records : List (List UInt8)}

/-- The new record extends the run it is written behind. -/
theorem Level.append (h : r.Level bytes) (hfits : r.writeOffset + record.length ≤ r.capacity) :
    (r.append record).Level (bytes ++ record) where
  spans := by
    have := h.spans
    simp only [StepRing.append, length_append]
    omega
  fits := hfits
  bytes := by
    show slice (store r.storage r.writeOffset record) r.readOffset _ = _
    rw [length_append, ← h.spans, slice_store_append, h.bytes]
  home hnil := h.home (append_eq_nil_iff.mp hnil).1

/-- A record that does not fit at the end goes to the start, when the reader has left room there. -/
theorem Level.wrap (h : r.Level bytes) (hle : record.length ≤ txnStepRecordSizeMax)
    (hfull : r.capacity < r.writeOffset + record.length) (hroom : record.length ≤ r.readOffset) :
    ({ r with wrapOffset := r.writeOffset, writeOffset := 0, wrapped := true }.append record).Folded bytes record where
  spans := h.spans
  start := Nat.zero_add _
  apart := by simpa [StepRing.append] using hroom
  fits := h.fits
  tail := by
    show r.capacity < r.writeOffset + txnStepRecordSizeMax
    omega
  nonempty := by
    rintro rfl
    have h0 := h.home rfl
    have hfits := h.fits
    omega
  frontBytes := by
    show slice (store r.storage 0 record) r.readOffset _ = _
    rw [slice_store_of_disjoint _ (Or.inr (by simpa using hroom)), h.bytes]
  backBytes := slice_store_self r.storage 0 record

theorem Folded.append (h : r.Folded front back) (hroom : r.writeOffset + record.length ≤ r.readOffset) :
    (r.append record).Folded front (back ++ record) where
  spans := h.spans
  start := by simp [StepRing.append, h.start]
  apart := hroom
  fits := h.fits
  tail := h.tail
  nonempty := h.nonempty
  frontBytes := by
    show slice (store r.storage r.writeOffset record) r.readOffset _ = _
    rw [slice_store_of_disjoint _ (Or.inr hroom), h.frontBytes]
  backBytes := by
    show slice (store r.storage r.writeOffset record) 0 _ = _
    have hw : r.writeOffset = 0 + back.length := by rw [h.start, Nat.zero_add]
    rw [length_append, hw, slice_store_append, h.backBytes]

/-- **A push appends the record**, and fails only for want of room: a maximal record of the capacity is kept free, which
covers the tail a wrap wastes. -/
theorem push_keeps (h : r.Keeps records) (hle : record.length ≤ txnStepRecordSizeMax) :
    (∃ r', r.push record = some r' ∧ r'.Keeps (records ++ [record]))
      ∨ (r.push record = none ∧ r.capacity < r.usedBytes + record.length + txnStepRecordSizeMax) := by
  have hused : ∀ q : StepRing, q.usedBytes = r.usedBytes →
      (q.append record).usedBytes = (records ++ [record]).flatten.length := by
    intro q hq
    simp [StepRing.append, hq, h.used]
  have hflat : (records ++ [record]).flatten = records.flatten ++ record := by simp
  have hlen := h.used
  unfold push
  cases hw : r.wrapped with
  | false =>
    have hc := h.level hw
    have hspans := hc.spans
    simp only [pushContiguous, Bool.false_eq_true, if_false]
    by_cases hfits : r.writeOffset + record.length ≤ r.capacity
    · refine .inl ⟨_, if_pos hfits, hused r rfl, fun _ => ?_, fun hwr => absurd (hw.symm.trans hwr) (by decide)⟩
      rw [hflat]
      exact hc.append hfits
    rw [if_neg hfits]
    by_cases hread : r.readOffset < record.length
    · exact .inr ⟨if_pos hread, by omega⟩
    · rw [if_neg hread]
      refine .inl ⟨_, rfl, hused _ rfl, fun hwr => (by cases hwr), fun _ => ⟨records, [record], rfl, ?_⟩⟩
      rw [flatten_singleton]
      exact hc.wrap hle (by omega) (by omega)
  | true =>
    obtain ⟨front, back, rfl, hs⟩ := h.folded hw
    have hspans := hs.spans
    have hstart := hs.start
    have htail := hs.tail
    rw [List.flatten_append, List.length_append] at hlen
    simp only [pushWrapped, if_true]
    by_cases hread : r.readOffset < r.writeOffset + record.length
    · exact .inr ⟨if_pos hread, by omega⟩
    · rw [if_neg hread]
      refine .inl ⟨_, rfl, hused r rfl, fun hwr => absurd (hw.symm.trans hwr) (by decide), fun _ =>
        ⟨front, back ++ [record], List.append_assoc _ _ _, ?_⟩⟩
      rw [List.flatten_append, List.flatten_singleton]
      exact hs.append (by omega)

/-- The ring offers the oldest record at the front of what it can be read from. -/
theorem peek_keeps (h : r.Keeps (record :: records)) (hpos : record ≠ []) : ∃ t, r.peek = record ++ t := by
  have hused : ¬r.usedBytes = 0 := by
    rw [h.used, List.flatten_cons, List.length_append]
    have := List.length_pos_iff.mpr hpos
    omega
  simp only [peek, if_neg hused]
  cases hw : r.wrapped with
  | false =>
    have hc := h.level hw
    have hn : r.writeOffset - r.readOffset = (record :: records).flatten.length := by
      have := hc.spans
      omega
    simp only [Bool.false_eq_true, if_false]
    rw [hn, hc.bytes, List.flatten_cons]
    exact ⟨_, rfl⟩
  | true =>
    obtain ⟨front, back, he, hs⟩ := h.folded hw
    have hn : r.wrapOffset - r.readOffset = front.flatten.length := by
      have := hs.spans
      omega
    simp only [if_true]
    rw [hn, hs.frontBytes]
    cases front with
    | nil => exact absurd rfl hs.nonempty
    | cons f front =>
      cases he
      exact ⟨front.flatten, rfl⟩

theorem peek_empty (h : r.Keeps []) : r.peek = [] := by
  simp [peek, h.used]

/-- Dropping the first record of a run leaves the rest of it. -/
theorem slice_rest {m : ℕ → UInt8} {off : ℕ} (h : slice m off (record ++ bytes).length = record ++ bytes) :
    slice m (off + record.length) bytes.length = bytes := by
  rw [length_append, slice_add] at h
  exact (append_inj h (by simp)).2

/-- Releasing the oldest record leaves the others. -/
theorem release_keeps (h : r.Keeps (record :: records)) : (r.release record.length).Keeps records := by
  have hused : r.usedBytes - record.length = records.flatten.length := by
    rw [h.used, List.flatten_cons, List.length_append]
    omega
  simp only [release]
  by_cases hz : r.usedBytes - record.length = 0
  · -- nothing but empty records is left, and the ring starts over
    rw [if_pos hz]
    have hnil : records.flatten = [] := length_eq_zero_iff.mp (hused ▸ hz)
    refine ⟨by rw [hnil]; rfl, fun _ => ?_, fun hwr => by cases hwr⟩
    rw [hnil]
    exact ⟨rfl, Nat.zero_le _, rfl, fun _ => rfl⟩
  rw [if_neg hz]
  have hne : records.flatten ≠ [] := fun hnil => hz (by rw [hused, hnil]; rfl)
  cases hw : r.wrapped with
  | false =>
    have hc := h.level hw
    have hspans := hc.spans
    rw [List.flatten_cons, List.length_append] at hspans
    rw [wrapReadAtEndOfFirstSegment, if_pos (by simp)]
    refine ⟨hused, fun _ => ⟨?_, hc.fits, slice_rest hc.bytes, fun hnil => absurd hnil hne⟩, fun hwr => by cases hwr⟩
    show r.readOffset + record.length + _ = r.writeOffset
    omega
  | true =>
    obtain ⟨front, back, he, hs⟩ := h.folded hw
    have hspans := hs.spans
    have hstart := hs.start
    have hapart := hs.apart
    have hfits := hs.fits
    cases front with
    | nil => exact absurd rfl hs.nonempty
    | cons f front =>
      obtain ⟨rfl, rfl⟩ := List.cons.inj he
      rw [List.flatten_cons, List.length_append] at hspans
      by_cases hlast : front.flatten = []
      · -- the first segment is read: the reader goes on at the start
        rw [hlast, length_nil] at hspans
        have hread : r.readOffset + record.length = r.wrapOffset := by omega
        rw [wrapReadAtEndOfFirstSegment, if_neg (by simp [hread])]
        refine ⟨hused, fun _ => ?_, fun hwr => by cases hwr⟩
        rw [List.append_eq, List.flatten_append, hlast, List.nil_append]
        refine ⟨?_, ?_, hs.backBytes, fun _ => rfl⟩
        · exact (Nat.zero_add _).trans hstart.symm
        · exact hapart.trans (show r.readOffset ≤ r.capacity by omega)
      · have hpos := length_pos_iff.mpr hlast
        have hread : r.readOffset + record.length ≠ r.wrapOffset := by omega
        rw [wrapReadAtEndOfFirstSegment, if_pos (Or.inr hread)]
        refine ⟨hused, fun hwr => (by cases hwr), fun _ => ⟨front, back, rfl, ?_⟩⟩
        refine ⟨?_, hs.start, ?_, hs.fits, hs.tail, hlast, slice_rest hs.frontBytes, hs.backBytes⟩
        · show r.readOffset + record.length + _ = r.wrapOffset
          omega
        · exact hapart.trans (Nat.le_add_right _ _)

/-! ### Step records -/

/-- The ring holds the step records, oldest first. -/
def Holds (r : StepRing) (rs : List StepRecord) : Prop := r.Keeps (rs.map StepRecord.bytes)

variable {rs : List StepRecord} {rec : StepRecord} {capacity : ℕ}

theorem clear_holds (r : StepRing) : r.clear.Holds [] := clear_keeps r

theorem Holds.usedBytes (h : r.Holds rs) : r.usedBytes = total rs := h.used.trans (length_flatten rs)

theorem push_holds (h : r.Holds rs) (rec : StepRecord) (hroom : total rs + rec.size + txnStepRecordSizeMax ≤ r.capacity) :
    ∃ r', r.push rec.bytes = some r' ∧ r'.Holds (rs ++ [rec]) := by
  have hsize : rec.bytes.length = rec.size := rfl
  have hused := h.usedBytes
  rcases push_keeps h rec.size_le with ⟨r', hpush, hkeeps⟩ | ⟨-, hfull⟩
  · refine ⟨r', hpush, ?_⟩
    rwa [Holds, map_append, map_singleton]
  · omega

theorem peek_holds (h : r.Holds (rec :: rs)) : ∃ t, r.peek = rec.bytes ++ t :=
  peek_keeps h (length_pos_iff.mp (Nat.lt_of_lt_of_le (by decide) rec.size_pos))

theorem peek_nil (h : r.Holds []) : r.peek = [] := peek_empty h

theorem release_holds (h : r.Holds (rec :: rs)) : (r.release rec.size).Holds rs := release_keeps h

/-! ### The ring in 32 bits, beside a queue -/

/-- `StepRing_Push`, the sums as the code computes them. -/
def push32 (r : StepRing) (record : List UInt8) : Option StepRing :=
  let append (q : StepRing) : StepRing :=
    { q with
      storage := store q.storage q.writeOffset record
      writeOffset := (q.writeOffset + record.length) % 2 ^ 32
      usedBytes := (q.usedBytes + record.length) % 2 ^ 32 }
  if r.wrapped then
    if r.readOffset < (r.writeOffset + record.length) % 2 ^ 32 then none else some (append r)
  else if (r.writeOffset + record.length) % 2 ^ 32 ≤ r.capacity then some (append r)
  else if r.readOffset < record.length then none
  else some (append { r with wrapOffset := r.writeOffset, writeOffset := 0, wrapped := true })

/-- `StepRing_Release`, the sums as the code computes them. -/
def release32 (r : StepRing) (size : ℕ) : StepRing :=
  let r := { r with readOffset := (r.readOffset + size) % 2 ^ 32, usedBytes := (r.usedBytes + 2 ^ 32 - size) % 2 ^ 32 }
  if r.usedBytes = 0 then r.clear else r.wrapReadAtEndOfFirstSegment

theorem Keeps.within (h : r.Keeps records) :
    r.usedBytes ≤ r.capacity ∧ r.writeOffset ≤ r.capacity ∧ r.readOffset + r.usedBytes ≤ r.capacity + r.writeOffset := by
  have hused := h.used
  cases hw : r.wrapped with
  | false =>
    obtain ⟨hspans, hfits, -, -⟩ := h.level hw
    omega
  | true =>
    obtain ⟨front, back, rfl, hspans, hstart, hapart, hfits, -, -, -, -⟩ := h.folded hw
    rw [List.flatten_append, List.length_append] at hused
    omega

theorem push32_eq (h : r.Keeps records) (hcap : r.capacity + txnStepRecordSizeMax < 2 ^ 32)
    (hle : record.length ≤ txnStepRecordSizeMax) : r.push32 record = r.push record := by
  obtain ⟨hused, hwrite, -⟩ := h.within
  have hw : (r.writeOffset + record.length) % 2 ^ 32 = r.writeOffset + record.length := Nat.mod_eq_of_lt (by omega)
  have hw0 : (0 + record.length) % 2 ^ 32 = 0 + record.length := Nat.mod_eq_of_lt (by omega)
  have hu : (r.usedBytes + record.length) % 2 ^ 32 = r.usedBytes + record.length := Nat.mod_eq_of_lt (by omega)
  simp only [push32, push, pushWrapped, pushContiguous, StepRing.append, hw, hw0, hu]

theorem release32_eq (h : r.Keeps (record :: records)) (hcap : r.capacity + txnStepRecordSizeMax < 2 ^ 32)
    (hle : record.length ≤ txnStepRecordSizeMax) : r.release32 record.length = r.release record.length := by
  obtain ⟨hused, hwrite, hread⟩ := h.within
  have hlen := h.used
  rw [List.flatten_cons, List.length_append] at hlen
  have hr : (r.readOffset + record.length) % 2 ^ 32 = r.readOffset + record.length := by
    refine Nat.mod_eq_of_lt ?_
    cases hw : r.wrapped with
    | false =>
      have := (h.level hw).spans
      omega
    | true =>
      obtain ⟨front, back, -, hspans, -, -, hfits, -, -, -, -⟩ := h.folded hw
      omega
  have hu : (r.usedBytes + 2 ^ 32 - record.length) % 2 ^ 32 = r.usedBytes - record.length := by omega
  simp only [release32, release, hr, hu]

inductive RingCall
  | push (record : List UInt8)
  | release
  | clear

/-- The ring, and the records pushed and not released. -/
structure RingQueue where
  ring : StepRing
  queue : List (List UInt8) := []

/-- A call on the ring, and what a queue does: a push that fails leaves both, a release is of the front's size. -/
def RingQueue.step (s : RingQueue) : RingCall → RingQueue
  | .push record =>
    match s.ring.push32 record with
    | none => s
    | some ring => ⟨ring, s.queue ++ [record]⟩
  | .release =>
    match s.queue with
    | [] => s
    | record :: queue => ⟨s.ring.release32 record.length, queue⟩
  | .clear => ⟨s.ring.clear, []⟩

/-- The ring is the queue, of records that are not too long. -/
structure RingQueue.Refines (capacity : ℕ) (s : RingQueue) : Prop where
  capacity : s.ring.capacity = capacity
  keeps : s.ring.Keeps s.queue
  bounded : ∀ record ∈ s.queue, record.length ≤ txnStepRecordSizeMax

def RingCall.Fits : RingCall → Prop
  | .push record => record.length ≤ txnStepRecordSizeMax
  | _ => True

/-- **One call keeps the ring the queue.** -/
theorem RingQueue.Refines.step {s : RingQueue} (h : s.Refines capacity) {c : RingCall} (hc : c.Fits)
    (hcap : capacity + txnStepRecordSizeMax < 2 ^ 32) : (s.step c).Refines capacity := by
  have hcap' : s.ring.capacity + txnStepRecordSizeMax < 2 ^ 32 := by rw [h.capacity]; exact hcap
  cases c with
  | push record =>
    simp only [RingQueue.step, push32_eq h.keeps hcap' hc]
    rcases push_keeps h.keeps hc with ⟨r', hpush, hkeeps⟩ | ⟨hpush, -⟩
    · simp only [hpush]
      refine ⟨(push_capacity hpush).trans h.capacity, hkeeps, fun q hq => ?_⟩
      rcases mem_append.mp hq with hq | hq
      · exact h.bounded q hq
      · rw [mem_singleton.mp hq]
        exact hc
    · simp only [hpush]
      exact h
  | release =>
    unfold RingQueue.step
    cases hq : s.queue with
    | nil => exact h
    | cons record queue =>
      have hkeeps := hq ▸ h.keeps
      have hbounded := hq ▸ h.bounded
      simp only [release32_eq hkeeps hcap' (hbounded record mem_cons_self)]
      refine ⟨(release_capacity _ _).trans h.capacity, release_keeps hkeeps, fun q hmem => ?_⟩
      exact hbounded q (mem_cons_of_mem _ hmem)
  | clear => exact ⟨h.capacity, clear_keeps _, fun q hq => nomatch hq⟩

/-- **The ring refines a queue of records**, in every run of calls: the front record lies at the read offset in one
piece, the bytes used are those of the records held, and a push fails only when the record and one maximal record do not
fit beside them. -/
theorem ring_refines_queue (storage : ℕ → UInt8) (hmin : 2 * txnStepRecordSizeMax ≤ capacity)
    (hmax : capacity + txnStepRecordSizeMax < 2 ^ 32) {calls : List RingCall} (hcalls : ∀ c ∈ calls, c.Fits) {s : RingQueue}
    (hs : s = Run.run RingQueue.step ⟨init storage capacity, []⟩ calls) :
    (∀ record ∈ s.queue.head?, s.ring.peek.take record.length = record)
      ∧ s.ring.usedBytes = (s.queue.map length).sum
      ∧ ∀ record, record.length ≤ txnStepRecordSizeMax → s.ring.push32 record = none →
        capacity - txnStepRecordSizeMax < s.ring.usedBytes + record.length := by
  have hinit : RingQueue.Refines capacity ⟨init storage capacity, []⟩ :=
    ⟨rfl, ⟨rfl, fun _ => ⟨rfl, Nat.zero_le _, rfl, fun _ => rfl⟩, fun h => by cases h⟩, fun q hq => nomatch hq⟩
  have h : s.Refines capacity := hs ▸ Run.Along.invariant (P := fun _ c => RingCall.Fits c)
    (fun _ _ hr hc => hr.step hc hmax) (Run.Along.of_forall (fun c hc _ => hcalls c hc) _) hinit
  refine ⟨fun record hrecord => ?_, by rw [h.keeps.used, List.length_flatten], fun record hle hpush => ?_⟩
  · obtain ⟨queue, hq⟩ := List.head?_eq_some_iff.mp hrecord
    by_cases hnil : record = []
    · simp [hnil]
    · obtain ⟨t, ht⟩ := peek_keeps (hq ▸ h.keeps) hnil
      rw [ht, take_left]
  · rw [push32_eq h.keeps (by rw [h.capacity]; exact hmax) hle] at hpush
    rcases push_keeps h.keeps hle with ⟨r', hpush', -⟩ | ⟨-, hfull⟩
    · rw [hpush] at hpush'
      cases hpush'
    · rw [h.capacity] at hfull
      omega

/-- Two records pushed and one released. -/
theorem ring_refines_queue_two :
    let s := Run.run RingQueue.step ⟨init (fun _ => 0) 544, []⟩ [.push [1, 2, 3], .push [4, 5], .release]
    s.queue = [[4, 5]] ∧ s.ring.peek.take 2 = [4, 5] :=
  have hfits : ∀ c ∈ [RingCall.push [1, 2, 3], .push [4, 5], .release], c.Fits := by simp [RingCall.Fits]
  ⟨rfl, (ring_refines_queue (fun _ => 0) (by decide : 2 * 272 ≤ 544) (by decide) hfits rfl).1 [4, 5] rfl⟩

/-- Maximal records up to the end of a ring. -/
theorem run_pushes (storage : ℕ → UInt8) (hcap : capacity < 2 ^ 32) (hrecord : record.length = 272) (n : ℕ)
    (hn : 272 * n ≤ capacity) : ∃ m, Run.run RingQueue.step ⟨init storage capacity, []⟩ (.replicate n (.push record)) =
      ⟨{ storage := m, capacity, writeOffset := 272 * n, usedBytes := 272 * n }, .replicate n record⟩ := by
  induction n with
  | zero => exact ⟨storage, rfl⟩
  | succ n ih =>
    obtain ⟨m, hm⟩ := ih (by omega)
    have hsum : (272 * n + 272) % 2 ^ 32 = 272 * (n + 1) := Nat.mod_eq_of_lt (by omega)
    refine ⟨store m (272 * n) record, ?_⟩
    rw [replicate_succ', Run.run_append, hm, replicate_succ']
    simp only [Run.run, foldl_cons, foldl_nil, RingQueue.step, push32, hrecord, hsum, Bool.false_eq_true,
      if_false, if_pos hn]

/-- In a ring of `2 ^ 32 - 1` bytes the sum that tells whether a record fits wraps: the record is written beyond the end,
and 16 bytes are said to be used. -/
private theorem run_overruns (storage : ℕ → UInt8) (hrecord : record.length = 272) {n : ℕ} (hn : 272 * n + 256 = 2 ^ 32) :
    (Run.run RingQueue.step ⟨init storage (2 ^ 32 - 1), []⟩ (.replicate n (.push record) ++ [.push record])).ring.usedBytes
      = 16 ∧ (Run.run RingQueue.step ⟨init storage (2 ^ 32 - 1), []⟩
        (.replicate n (.push record) ++ [.push record])).queue.length = n + 1 := by
  obtain ⟨m, hm⟩ := run_pushes storage (by decide : 2 ^ 32 - 1 < 2 ^ 32) hrecord n (by omega)
  have hsum : (272 * n + 272) % 4294967296 = 16 := by omega
  rw [Run.run_append, hm]
  simp [Run.run, RingQueue.step, push32, hrecord, hsum]

/-- A ring of four gigabytes less one byte, filled with 15790320 maximal records, takes one more. -/
theorem ring_overruns :
    (Run.run RingQueue.step ⟨init (fun _ => 0) (2 ^ 32 - 1), []⟩
      (.replicate 15790320 (.push (.replicate 272 0)) ++ [.push (.replicate 272 0)])).ring.usedBytes = 16
    ∧ (Run.run RingQueue.step ⟨init (fun _ => 0) (2 ^ 32 - 1), []⟩
      (.replicate 15790320 (.push (.replicate 272 0)) ++ [.push (.replicate 272 0)])).queue.length = 15790321 :=
  run_overruns (fun _ => 0) length_replicate (by decide)

end StepRing
end CanHub
