/-
# What a control stream still has to send

QUIC does not copy stream data: what a `QuicControlChannel` has queued must keep its
address until the peer has acknowledged it. The bytes lie in a ring of which the head is
the first byte that is not acknowledged; three positions, of the queue's end, of what was
handed to the library and of what was acknowledged, move along it.

`ControlStream` runs the calls beside the stream they stand for: the bytes queued, those
handed over, the last offer, and how far the peer has acknowledged. Whatever the calls,
the ring is that stream (`control_ring_is_stream`): byte `k` lies in cell `k % capacity`
from when it is queued to when it is acknowledged.
-/
import CanHub.Lib.Memory
import CanHub.Lib.Run

namespace CanHub

open Memory List

structure QuicControlChannel where
  storage : ℕ → UInt8
  capacity : ℕ
  baseOffset : ℕ := 0
  head : ℕ := 0
  used : ℕ := 0
  sent : ℕ := 0
  finishRequested : Bool := false

namespace QuicControlChannel

variable (c : QuicControlChannel)

def canQueue (size : ℕ) : Bool := !c.finishRequested && c.used + size ≤ c.capacity

/-- The second result is whether the data was queued. -/
def queueTx (data : List UInt8) : QuicControlChannel × Bool :=
  if !c.canQueue data.length then (c, false)
  else
    let storage := storeAround c.storage c.capacity ((c.head + c.used) % c.capacity) data
    ({ c with storage, used := c.used + data.length }, true)

/-- The bytes up to the end of the buffer that are queued and not sent. -/
def pendingTx : List UInt8 :=
  let start := (c.head + c.sent) % c.capacity
  let available := c.used - c.sent
  let contiguous := c.capacity - start
  slice c.storage start (if available < contiguous then available else contiguous)

def markSent (size : ℕ) : QuicControlChannel :=
  let sent := c.sent + size
  { c with sent := if c.used < sent then c.used else sent }

def markAcked (ackedEndOffset : ℕ) : QuicControlChannel :=
  if ackedEndOffset ≤ c.baseOffset then c
  else
    let ackedBytes := ackedEndOffset - c.baseOffset
    let ackedBytes := if c.used < ackedBytes then c.used else ackedBytes
    { c with
      head := (c.head + ackedBytes) % c.capacity
      used := c.used - ackedBytes
      sent := if c.sent < ackedBytes then 0 else c.sent - ackedBytes
      baseOffset := c.baseOffset + ackedBytes }

def requestFinish : QuicControlChannel := { c with finishRequested := true }

end QuicControlChannel

/-! ### The stream -/

inductive ControlCall
  | queue (data : List UInt8)
  | pending
  | sent (size : ℕ)
  | acked (endOffset : ℕ)
  | finish

/-- A channel, what was queued, what of it was handed over, what the last offer has left, and the greatest offset the
peer has acknowledged. -/
structure ControlStream where
  channel : QuicControlChannel
  queued : List UInt8 := []
  taken : List UInt8 := []
  offer : List UInt8 := []
  acknowledged : ℕ := 0

namespace ControlStream

def call (t : ControlStream) : ControlCall → ControlStream
  | .queue data =>
    let (channel, done) := t.channel.queueTx data
    { t with channel, queued := if done then t.queued ++ data else t.queued }
  | .pending => { t with offer := t.channel.pendingTx }
  | .sent size =>
    { t with channel := t.channel.markSent size, taken := t.taken ++ t.offer.take size, offer := t.offer.drop size }
  | .acked endOffset =>
    { t with channel := t.channel.markAcked endOffset, acknowledged := max t.acknowledged endOffset }
  | .finish => { t with channel := t.channel.requestFinish }

/-- Only what was offered is sent, and only what was sent is acknowledged. -/
def Allowed (t : ControlStream) : ControlCall → Prop
  | .sent size => size ≤ t.offer.length
  | .acked endOffset => endOffset ≤ t.taken.length
  | _ => True

instance (t : ControlStream) : ∀ c, Decidable (t.Allowed c)
  | .sent size => inferInstanceAs (Decidable (size ≤ _))
  | .acked endOffset => inferInstanceAs (Decidable (endOffset ≤ _))
  | .queue _ | .pending | .finish => .isTrue trivial

/-- The ring is the stream: every byte that is not acknowledged lies in the cell of its offset. -/
structure Faithful (t : ControlStream) : Prop where
  positive : 0 < t.channel.capacity
  head : t.channel.head = t.channel.baseOffset % t.channel.capacity
  queued : t.channel.baseOffset + t.channel.used = t.queued.length
  fits : t.channel.used ≤ t.channel.capacity
  taken : t.channel.baseOffset + t.channel.sent = t.taken.length
  acknowledged : t.channel.baseOffset = t.acknowledged
  inOrder : t.taken ++ t.offer <+: t.queued
  stored : ∀ k, t.channel.baseOffset ≤ k → k < t.queued.length →
    t.queued[k]? = some (t.channel.storage (k % t.channel.capacity))

variable {t : ControlStream}

section

variable (h : t.Faithful)
include h

/-- Where the ring is written and read. -/
theorem Faithful.cell (n : ℕ) :
    (t.channel.head + n) % t.channel.capacity = (t.channel.baseOffset + n) % t.channel.capacity := by
  rw [h.head, Nat.mod_add_mod]

theorem Faithful.offer_le : t.taken.length + t.offer.length ≤ t.queued.length := by
  rw [← length_append]
  exact h.inOrder.length_le

/-- What is offered is what follows in the stream, and something if anything does. -/
theorem Faithful.pendingTx : t.channel.pendingTx <+: t.queued.drop t.taken.length
    ∧ (t.channel.pendingTx = [] → t.taken.length = t.queued.length) := by
  have hstart := Nat.mod_lt t.taken.length h.positive
  have hq := h.queued
  have ht := h.taken
  have hle := h.offer_le
  unfold QuicControlChannel.pendingTx
  rw [h.cell, ht]
  dsimp only
  refine ⟨prefix_iff_getElem?.mpr fun i hi => ?_, fun hnil => ?_⟩
  · rw [length_slice] at hi
    have hbound : i < t.channel.used - t.channel.sent ∧ i < t.channel.capacity - t.taken.length % t.channel.capacity := by
      split at hi <;> omega
    rw [getElem?_drop, h.stored _ (by omega) (by omega), ← Nat.mod_add_mod, Nat.mod_eq_of_lt (by omega)]
    simp [slice]
  · have hlength := congrArg length hnil
    rw [length_slice, length_nil] at hlength
    split at hlength <;> omega

theorem Faithful.queue (data : List UInt8) : (t.call (.queue data)).Faithful := by
  unfold call
  dsimp only
  cases hcan : t.channel.canQueue data.length with
  | false =>
    have hrefused : t.channel.queueTx data = (t.channel, false) := by simp [QuicControlChannel.queueTx, hcan]
    rw [hrefused]
    exact h
  | true =>
    obtain ⟨-, hfits⟩ : t.channel.finishRequested = false ∧ t.channel.used + data.length ≤ t.channel.capacity := by
      simpa [QuicControlChannel.canQueue] using hcan
    have hq := h.queued
    simp only [QuicControlChannel.queueTx, hcan, Bool.not_true, Bool.false_eq_true, if_false, if_true]
    refine ⟨h.positive, h.head, ?_, hfits, h.taken, h.acknowledged, h.inOrder.trans (prefix_append _ _),
      fun k hbase hk => ?_⟩
    · rw [length_append, ← hq, Nat.add_assoc]
    · dsimp only at hbase hk ⊢
      rw [length_append] at hk
      rw [storeAround_apply _ (Nat.mod_lt _ h.positive) (by omega) (Nat.mod_lt k h.positive), h.cell, hq]
      by_cases hold : k < t.queued.length
      · -- a byte that was queued before is a turn ahead of those written
        have hd := mod_distance (n := t.queued.length) (by omega)
          (show k + t.channel.capacity < t.queued.length + t.channel.capacity by omega)
        rw [Nat.add_mod_right] at hd
        rw [hd, getElem?_append_left hold, getD_eq_getElem?_getD,
          getElem?_eq_none (show data.length ≤ _ by omega)]
        exact h.stored k hbase hold
      · rw [mod_distance (by omega) (by omega), getElem?_append_right (by omega), getD_eq_getElem?_getD,
          getElem?_eq_getElem (by omega)]
        rfl

theorem Faithful.sent {size : ℕ} (hsize : size ≤ t.offer.length) : (t.call (.sent size)).Faithful := by
  have hq := h.queued
  have ht := h.taken
  have hle := h.offer_le
  have hin : (t.channel.markSent size).sent = t.channel.sent + size := if_neg (by omega)
  refine ⟨h.positive, h.head, hq, h.fits, ?_, h.acknowledged, ?_, h.stored⟩
  · change t.channel.baseOffset + (t.channel.markSent size).sent = (t.taken ++ t.offer.take size).length
    rw [hin, length_append, length_take_of_le hsize]
    omega
  · dsimp only [call]
    rw [append_assoc, take_append_drop]
    exact h.inOrder

theorem Faithful.acked {endOffset : ℕ} (hend : endOffset ≤ t.taken.length) :
    (t.call (.acked endOffset)).Faithful := by
  have hq := h.queued
  have ht := h.taken
  have hle := h.offer_le
  have hbase := h.acknowledged
  unfold call QuicControlChannel.markAcked
  dsimp only
  split
  next hold =>
    exact ⟨h.positive, h.head, hq, h.fits, ht, by dsimp only; omega, h.inOrder, h.stored⟩
  next hnew =>
    rw [if_neg (by omega), if_neg (by omega)]
    obtain ⟨n, rfl⟩ := Nat.exists_eq_add_of_lt (Nat.lt_of_not_le hnew)
    have hacked : t.channel.baseOffset + n + 1 - t.channel.baseOffset = n + 1 := by omega
    have hfits := h.fits
    rw [hacked]
    refine ⟨h.positive, h.cell _, ?_, ?_, ?_, ?_, h.inOrder, fun k hk => h.stored k ?_⟩
    · dsimp only
      omega
    · dsimp only
      omega
    · dsimp only
      omega
    · dsimp only
      omega
    · exact (Nat.le_add_right _ _).trans hk

theorem Faithful.call {c : ControlCall} (hc : t.Allowed c) : (t.call c).Faithful := by
  cases c with
  | queue data => exact h.queue data
  | pending =>
    have hp := (prefix_append_right_inj t.taken).mpr h.pendingTx.1
    have hprefix := (prefix_append t.taken t.offer).trans h.inOrder
    rw [prefix_iff_eq_append.mp hprefix] at hp
    exact ⟨h.positive, h.head, h.queued, h.fits, h.taken, h.acknowledged, hp, h.stored⟩
  | sent size => exact h.sent hc
  | acked endOffset => exact h.acked hc
  | finish => exact ⟨h.positive, h.head, h.queued, h.fits, h.taken, h.acknowledged, h.inOrder, h.stored⟩

end

end ControlStream

/-- **The ring is a byte stream**: after any calls the bytes handed over are the first of those queued, what is offered
follows them, and is something while anything is left, the ring is free up to what the peer has acknowledged and no
further, every byte that is not acknowledged lies where it was put, and data is queued whole or not at all. -/
theorem control_ring_is_stream (storage : ℕ → UInt8) {capacity : ℕ} (hcapacity : 0 < capacity) (calls : List ControlCall)
    (hcalls : Run.Along ControlStream.call ControlStream.Allowed { channel := { storage, capacity } } calls) :
    let t := Run.run ControlStream.call { channel := { storage, capacity } } calls
    t.taken <+: t.queued ∧ t.channel.pendingTx <+: t.queued.drop t.taken.length
      ∧ (t.channel.pendingTx = [] → t.taken = t.queued)
      ∧ t.channel.baseOffset = t.acknowledged
      ∧ (∀ k, t.acknowledged ≤ k → k < t.queued.length →
          t.queued[k]? = some (t.channel.storage (k % t.channel.capacity)))
      ∧ ∀ data, (t.channel.queueTx data).2 = false → (t.channel.queueTx data).1 = t.channel := by
  intro t
  have hinit : ControlStream.Faithful { channel := { storage, capacity } } :=
    ⟨hcapacity, (Nat.zero_mod _).symm, rfl, Nat.zero_le _, rfl, rfl, prefix_refl _, nofun⟩
  have h : t.Faithful := hcalls.invariant (fun _ _ h hc => h.call hc) hinit
  have htaken : t.taken <+: t.queued := (prefix_append _ _).trans h.inOrder
  refine ⟨htaken, h.pendingTx.1, fun hnil => htaken.eq_of_length (h.pendingTx.2 hnil), h.acknowledged,
    h.acknowledged ▸ h.stored, fun data hno => ?_⟩
  unfold QuicControlChannel.queueTx at hno ⊢
  split
  · rfl
  next hcan => simp [hcan] at hno

/-- Two messages of three bytes in a ring of four: the second goes around its end, and is sent in two parts. -/
def twoMessages : List ControlCall :=
  [.queue [1, 2, 3], .pending, .sent 3, .acked 3, .queue [4, 5, 6], .pending, .sent 1, .pending]

/-- What is offered last follows what was sent, and the last byte lies in the second cell. -/
theorem control_ring_is_stream_around :
    let t := Run.run ControlStream.call { channel := { storage := fun _ => 0, capacity := 4 } } twoMessages
    t.taken = [1, 2, 3, 4] ∧ t.channel.pendingTx = [5, 6] ∧ t.channel.pendingTx <+: t.queued.drop t.taken.length
      ∧ t.acknowledged = 3 ∧ t.queued[5]? = some (t.channel.storage 1) := by
  have h := control_ring_is_stream (fun _ => 0) (show 0 < 4 by decide) twoMessages (by decide)
  exact ⟨by decide, by decide, h.2.1, by decide, h.2.2.2.2.1 5 (by decide) (by decide)⟩

end CanHub
