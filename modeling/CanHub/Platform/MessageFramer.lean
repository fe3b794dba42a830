/-
# Messages out of a byte stream

A connection delivers the wire messages in reads of any size. `MessageFramer`
(`message_framer.c`) collects the bytes in a buffer, takes of a read what fits, and lifts
whole messages off the front; a message that the consumer does not accept stays there.
Whatever the reads and whenever the consumer accepts, the messages it gets are those of
the stream, in order, and every other byte is still to come (`messages_of_stream`).
-/
import CanHub.Lib.Framing
import CanHub.Lib.Run
import CanHub.Protocol.Frame

namespace CanHub

open Wire List

def messageFramerBufferSize : ℕ := 4096

/-- The bytes in use of the buffer, which is the inline one or one that was adopted. -/
structure MessageFramer where
  capacity : ℕ
  buffer : List UInt8
  fits : buffer.length ≤ capacity

namespace MessageFramer

def adoptBuffer (capacity : ℕ) : MessageFramer := ⟨capacity, [], Nat.zero_le _⟩

def reset : MessageFramer := ⟨messageFramerBufferSize, [], Nat.zero_le _⟩

/-- What fits of the data is appended; the second result is how much that is. -/
def push (s : MessageFramer) (data : List UInt8) : MessageFramer × ℕ :=
  let taken := min data.length (s.capacity - s.buffer.length)
  (⟨s.capacity, s.buffer ++ data.take taken, by
    have := s.fits
    simp only [length_append, length_take]
    omega⟩, taken)

/-- The size of the message at the front of the bytes, 0 if it is not complete. -/
def frontSize (b : List UInt8) : ℕ :=
  if b.length < messageHeaderSize then 0
  else
    let messageSize := messageHeaderSize + (readU16 (b.drop 2)).toNat
    if b.length < messageSize then 0 else messageSize

def nextMessage (s : MessageFramer) : ℕ := frontSize s.buffer

def consume (s : MessageFramer) (size : ℕ) : MessageFramer :=
  ⟨s.capacity, s.buffer.drop (min size s.buffer.length), by
    have := s.fits
    rw [length_drop]
    omega⟩

theorem frontSize_le (b : List UInt8) : frontSize b ≤ b.length := by
  unfold frontSize
  dsimp only
  split
  · exact Nat.zero_le _
  split
  · exact Nat.zero_le _
  · omega

theorem consume_buffer (s : MessageFramer) : (s.consume s.nextMessage).buffer = s.buffer.drop s.nextMessage := by
  unfold consume nextMessage
  dsimp only
  rw [Nat.min_eq_left (frontSize_le s.buffer)]

/-- The messages that go to the sink, and what is left. -/
def drain (s : MessageFramer) : List (List UInt8) × MessageFramer :=
  if s.nextMessage = 0 then ([], s)
  else
    let (messages, s') := (s.consume s.nextMessage).drain
    (s.buffer.take s.nextMessage :: messages, s')
termination_by s.buffer.length
decreasing_by
  rename_i h
  have := frontSize_le s.buffer
  rw [consume_buffer, length_drop]
  unfold nextMessage at h ⊢
  omega

/-- The loop over a read, as in `TcpChannel_Receive`: it fails when nothing fits. -/
def receive (s : MessageFramer) (data : List UInt8) : List (List UInt8) × MessageFramer × Bool :=
  if data = [] then ([], s, true)
  else
    let pushed := s.push data
    let drained := pushed.1.drain
    if pushed.2 = 0 then (drained.1, drained.2, false)
    else
      let (messages, s', received) := drained.2.receive (data.drop pushed.2)
      (drained.1 ++ messages, s', received)
termination_by data.length
decreasing_by
  rename_i hdata htaken
  have hpos := length_pos_of_ne_nil hdata
  have hsome : (s.push data).2 ≠ 0 := htaken
  rw [length_drop]
  omega

/-- The reads of a connection. -/
def receiveAll : MessageFramer → List (List UInt8) → List (List UInt8) × MessageFramer × Bool
  | s, [] => ([], s, true)
  | s, data :: reads =>
    let (messages, s', received) := s.receive data
    if received then
      let (more, s', received) := s'.receiveAll reads
      (messages ++ more, s', received)
    else (messages, s', false)

/-! ### The stream -/

/-- A header and as many bytes as it says. -/
def IsMessage (m : List UInt8) : Prop :=
  messageHeaderSize ≤ m.length ∧ m.length = messageHeaderSize + (readU16 (m.drop 2)).toNat

instance (m : List UInt8) : Decidable (IsMessage m) := inferInstanceAs (Decidable (_ ∧ _))

variable {b : List UInt8}

theorem frontSize_iff {n : ℕ} (hn : n ≠ 0) :
    frontSize b = n ↔ messageHeaderSize ≤ b.length ∧ n = messageHeaderSize + (readU16 (b.drop 2)).toNat ∧ n ≤ b.length := by
  unfold frontSize
  dsimp only
  split
  · omega
  split <;> omega

theorem readU16_append (h : messageHeaderSize ≤ b.length) (t : List UInt8) :
    readU16 ((b ++ t).drop 2) = readU16 (b.drop 2) := by
  simp only [messageHeaderSize] at h
  unfold readU16
  rw [byteAt_drop, byteAt_drop, byteAt_drop, byteAt_drop]
  unfold byteAt
  rw [getD_append _ _ _ _ (by omega), getD_append _ _ _ _ (by omega)]

/-- What follows does not change the message at the front, and neither does what it does not reach. -/
theorem frontSize_append_iff {t : List UInt8} {n : ℕ} (hn : n ≠ 0) (hle : n ≤ b.length) :
    frontSize (b ++ t) = n ↔ frontSize b = n := by
  rw [frontSize_iff hn, frontSize_iff hn, length_append]
  constructor
  · rintro ⟨hheader, hsize, -⟩
    have hb : messageHeaderSize ≤ b.length := by omega
    rw [readU16_append hb] at hsize
    exact ⟨hb, hsize, hle⟩
  · rintro ⟨hb, hsize, -⟩
    rw [readU16_append hb]
    exact ⟨by omega, hsize, by omega⟩

theorem frontSize_append (h : frontSize b ≠ 0) (t : List UInt8) : frontSize (b ++ t) = frontSize b :=
  (frontSize_append_iff h (frontSize_le b)).mpr rfl

/-- Messages are taken from the front, and nothing else is touched. -/
def splitter : Splitter UInt8 (List UInt8) where
  next b := if frontSize b = 0 then none else some (b.take (frontSize b), b.drop (frontSize b))
  next_append := by
    intro b r b' h t
    split at h
    · cases h
    · rename_i hne
      cases h
      rw [frontSize_append hne, if_neg hne, take_append_of_le_length (frontSize_le b),
        drop_append_of_le_length (frontSize_le b)]

theorem IsMessage.next {m : List UInt8} (h : IsMessage m) (t : List UInt8) : splitter.next (m ++ t) = some (m, t) := by
  have hpos : m.length ≠ 0 := by
    have := h.1
    simp only [messageHeaderSize] at this
    omega
  have hm : frontSize (m ++ t) = m.length :=
    (frontSize_append_iff hpos le_rfl).mpr ((frontSize_iff hpos).mpr ⟨h.1, h.2, le_rfl⟩)
  simp only [splitter]
  rw [hm, if_neg hpos, take_left, drop_left]

theorem cuts_flatten : ∀ {messages : List (List UInt8)}, (∀ m ∈ messages, IsMessage m) →
    splitter.Cuts messages.flatten messages []
  | [], _ => .done rfl
  | m :: messages, h =>
    .more ((h m mem_cons_self).next messages.flatten)
      (cuts_flatten fun m' hm' => h m' (mem_cons_of_mem m hm'))

theorem flatten_of_cuts {e : List UInt8} {messages : List (List UInt8)} (h : splitter.Cuts b messages e) :
    b = messages.flatten ++ e := by
  induction h with
  | done => rfl
  | more hnext _ ih =>
    simp only [splitter] at hnext
    split at hnext
    · cases hnext
    · cases hnext
      rw [flatten_cons, append_assoc, ← ih, take_append_drop]

/-- What is still to come of the stream are the messages `left`, each of which fits. -/
structure Ahead (s : MessageFramer) (t : List UInt8) (left : List (List UInt8)) : Prop where
  cuts : splitter.Cuts (s.buffer ++ t) left []
  fit : ∀ m ∈ left, m.length ≤ s.capacity

namespace Ahead

variable {s : MessageFramer} {t data : List UInt8} {left : List (List UInt8)}

theorem flatten (h : s.Ahead t left) : s.buffer ++ t = left.flatten := by
  rw [flatten_of_cuts h.cuts, append_nil]

/-- The message at the front of the buffer is the next one of the stream. -/
theorem consume (h : s.Ahead t left) (hnext : s.nextMessage ≠ 0) :
    ∃ rest, left = s.buffer.take s.nextMessage :: rest ∧ (s.consume s.nextMessage).Ahead t rest := by
  have hfront : splitter.next s.buffer = some (s.buffer.take s.nextMessage, s.buffer.drop s.nextMessage) := if_neg hnext
  obtain ⟨rest, rfl, hrest⟩ := h.cuts.of_next (splitter.next_append hfront t)
  rw [← consume_buffer] at hrest
  exact ⟨rest, rfl, hrest, fun m hm => h.fit m (mem_cons_of_mem _ hm)⟩

theorem push (h : s.Ahead (data ++ t) left) : (s.push data).1.Ahead (data.drop (s.push data).2 ++ t) left := by
  refine ⟨?_, h.fit⟩
  have hsame : (s.push data).1.buffer ++ (data.drop (s.push data).2 ++ t) = s.buffer ++ (data ++ t) := by
    unfold MessageFramer.push
    rw [append_assoc, ← append_assoc (data.take _), take_append_drop]
  rw [hsame]
  exact h.cuts

/-- **There is room where the buffer has no whole message**: the next one fits. -/
theorem push_pos (h : s.Ahead (data ++ t) left) (hnone : s.nextMessage = 0) (hdata : data ≠ []) :
    0 < (s.push data).2 := by
  have hpos := length_pos_of_ne_nil hdata
  suffices hroom : s.buffer.length < s.capacity by
    unfold MessageFramer.push
    dsimp only
    omega
  have hsome : splitter.next (s.buffer ++ (data ++ t)) ≠ none := by
    intro hnext
    have hempty := (h.cuts.of_none hnext).2
    simp [hdata] at hempty
  have hsize : frontSize (s.buffer ++ (data ++ t)) ≠ 0 := fun hzero => hsome (if_pos hzero)
  obtain ⟨rest, rfl, -⟩ := h.cuts.of_next (if_neg hsize)
  have hfit := h.fit _ mem_cons_self
  rw [length_take, Nat.min_eq_left (frontSize_le _)] at hfit
  -- in a full buffer the message would be whole
  by_contra hfull
  exact hsize (((frontSize_append_iff hsize (by omega)).mp rfl).symm.trans hnone)

/-- At its end nothing of the stream is in the buffer. -/
theorem eq_nil (h : s.Ahead t left) (hnone : s.nextMessage = 0) (ht : t = []) : s.buffer = [] ∧ left = [] := by
  subst ht
  have hcuts := h.cuts
  rw [append_nil] at hcuts
  obtain ⟨rfl, hempty⟩ := hcuts.of_none (if_pos hnone)
  exact ⟨hempty.symm, rfl⟩

theorem drain {s : MessageFramer} (h : s.Ahead t left) :
    s.drain.2.nextMessage = 0 ∧ ∃ rest, left = s.drain.1 ++ rest ∧ s.drain.2.Ahead t rest := by
  induction s using MessageFramer.drain.induct generalizing left with
  | case1 s hnone =>
    rw [MessageFramer.drain, if_pos hnone]
    exact ⟨hnone, left, rfl, h⟩
  | case2 s hnext _ _ _ ih =>
    obtain ⟨rest, rfl, hrest⟩ := h.consume hnext
    obtain ⟨hnone, rest', rfl, hleft⟩ := ih hrest
    rw [MessageFramer.drain, if_neg hnext]
    exact ⟨hnone, rest', rfl, hleft⟩

theorem receive {s : MessageFramer} (h : s.Ahead (data ++ t) left) (hnone : s.nextMessage = 0) :
    ∃ messages s' rest, s.receive data = (messages, s', true) ∧ s'.nextMessage = 0
      ∧ left = messages ++ rest ∧ s'.Ahead t rest := by
  induction s, data using MessageFramer.receive.induct generalizing left with
  | case1 s =>
    rw [MessageFramer.receive, if_pos rfl]
    exact ⟨[], s, left, rfl, hnone, rfl, h⟩
  | case2 s data hdata =>
    rename_i htaken
    exact absurd htaken (h.push_pos hnone hdata).ne'
  | case3 s data hdata pushed drained =>
    rename_i htaken _ _ _ _ ih
    obtain ⟨hnone', rest, rfl, hdrained⟩ := h.push.drain
    obtain ⟨messages, s', rest', heq, hend, rfl, hleft⟩ := ih hdrained hnone'
    refine ⟨drained.1 ++ messages, s', rest', ?_, hend, (append_assoc _ _ _).symm, hleft⟩
    rw [MessageFramer.receive, if_neg hdata]
    dsimp only
    rw [if_neg htaken, heq]

theorem receiveAll {s : MessageFramer} {reads : List (List UInt8)} (h : s.Ahead reads.flatten left)
    (hnone : s.nextMessage = 0) :
    ∃ s', s.receiveAll reads = (left, s', true) ∧ s'.buffer = [] := by
  induction reads generalizing s left with
  | nil =>
    obtain ⟨hempty, rfl⟩ := h.eq_nil hnone rfl
    exact ⟨s, rfl, hempty⟩
  | cons data reads ih =>
    obtain ⟨messages, s', rest, heq, hnone', rfl, hrest⟩ := h.receive hnone
    obtain ⟨s'', heq', hempty⟩ := ih hrest hnone'
    refine ⟨s'', ?_, hempty⟩
    rw [MessageFramer.receiveAll, heq]
    dsimp only
    rw [if_pos rfl, heq']

end Ahead
end MessageFramer

/-! ### A consumer that may refuse -/

/-- A connection with the bytes that it has not read, and the rest of the last read. -/
structure StreamReader where
  framer : MessageFramer
  rest : List UInt8 := []
  unread : List UInt8
  consumed : List (List UInt8) := []

/-- What can happen, in any order: the message at the front is offered, and it stays there
when the consumer does not accept it. -/
inductive StreamEvent
  | read (size : ℕ)
  | push
  | offer (accepts : Bool)
  | drain

namespace StreamReader

open MessageFramer

def step (r : StreamReader) : StreamEvent → StreamReader
  | .read size =>
    if r.rest = [] then { r with rest := r.unread.take size, unread := r.unread.drop size } else r
  | .push => { r with framer := (r.framer.push r.rest).1, rest := r.rest.drop (r.framer.push r.rest).2 }
  | .offer accepts =>
    if r.framer.nextMessage ≠ 0 ∧ accepts then
      { r with
        framer := r.framer.consume r.framer.nextMessage
        consumed := r.consumed ++ [r.framer.buffer.take r.framer.nextMessage] }
    else r
  | .drain => { r with framer := r.framer.drain.2, consumed := r.consumed ++ r.framer.drain.1 }

/-- The messages are those consumed and those ahead. -/
def Tracks (messages : List (List UInt8)) (r : StreamReader) : Prop :=
  ∃ left, messages = r.consumed ++ left ∧ r.framer.Ahead (r.rest ++ r.unread) left

theorem Tracks.step {messages : List (List UInt8)} {r : StreamReader} (h : Tracks messages r) (e : StreamEvent) :
    Tracks messages (r.step e) := by
  obtain ⟨left, rfl, hahead⟩ := h
  cases e with
  | read size =>
    unfold StreamReader.step
    dsimp only
    split
    · rename_i hrest
      refine ⟨left, rfl, ?_⟩
      rw [hrest, nil_append] at hahead
      rwa [take_append_drop]
    · exact ⟨left, rfl, hahead⟩
  | push => exact ⟨left, rfl, hahead.push⟩
  | offer accepts =>
    unfold StreamReader.step
    dsimp only
    split
    · rename_i hoffer
      obtain ⟨rest, rfl, hrest⟩ := hahead.consume hoffer.1
      exact ⟨rest, by simp, hrest⟩
    · exact ⟨left, rfl, hahead⟩
  | drain =>
    obtain ⟨-, rest, rfl, hrest⟩ := hahead.drain
    exact ⟨rest, (append_assoc _ _ _).symm, hrest⟩

/-- What is due: a message at the front is offered, then the rest of the read is pushed,
then there is another read. -/
def due (r : StreamReader) (accepts : Bool) (size : ℕ) : StreamEvent :=
  if r.framer.nextMessage ≠ 0 then .offer accepts
  else if r.rest ≠ [] then .push
  else .read (size + 1)

/-- The loop of a connection, by the answers of the consumer and the sizes of the reads. -/
def loop (r : StreamReader) (turns : List (Bool × ℕ)) : StreamReader :=
  turns.foldl (fun r turn => r.step (r.due turn.1 turn.2)) r

/-- How far each byte still has to go. -/
def weight (r : StreamReader) : ℕ := r.framer.buffer.length + 2 * r.rest.length + 3 * r.unread.length

variable {messages : List (List UInt8)} {r : StreamReader}

section

variable (h : Tracks messages r)
include h

theorem weight_due (accepts : Bool) (size : ℕ) :
    (r.step (r.due accepts size)).weight ≤ r.weight - accepts.toNat := by
  obtain ⟨left, -, hahead⟩ := h
  unfold due
  split
  · rename_i hnext
    cases accepts with
    | false => simp [step]
    | true =>
      have hle := frontSize_le r.framer.buffer
      simp only [step, hnext, ne_eq, not_false_eq_true, and_self, if_true, weight, consume_buffer, length_drop,
        Bool.toNat_true]
      unfold nextMessage at hnext ⊢
      omega
  rename_i hnone
  have haccepts := accepts.toNat_le
  split
  · rename_i hrest
    have hpos := hahead.push_pos (not_not.mp hnone) hrest
    simp only [step, weight, length_drop]
    have htaken : (r.framer.push r.rest).2 ≤ r.rest.length := Nat.min_le_left _ _
    have hlength : (r.framer.push r.rest).1.buffer.length = r.framer.buffer.length + (r.framer.push r.rest).2 := by
      unfold MessageFramer.push
      dsimp only
      rw [length_append, length_take]
      omega
    omega
  · rename_i hrest
    rw [not_not] at hrest hnone
    simp only [step, hrest, if_true, weight, length_drop, length_take, length_nil]
    by_cases hunread : r.unread = []
    · -- the buffer is empty as well: the stream has no broken end
      have hempty := hahead.eq_nil hnone (by rw [hrest, hunread]; rfl)
      simp [hempty.1, hunread]
    · have := length_pos_of_ne_nil hunread
      omega

theorem Tracks.run (es : List StreamEvent) : Tracks messages (Run.run StreamReader.step r es) := by
  induction es generalizing r with
  | nil => exact h
  | cons e es ih => exact ih (h.step e)

theorem Tracks.loop (turns : List (Bool × ℕ)) : Tracks messages (r.loop turns) := by
  induction turns generalizing r with
  | nil => exact h
  | cons turn turns ih => exact ih (h.step _)

theorem weight_loop (turns : List (Bool × ℕ)) :
    (r.loop turns).weight ≤ r.weight - turns.countP (·.1) := by
  induction turns generalizing r with
  | nil => exact Nat.le_refl _
  | cons turn turns ih =>
    have hturn := weight_due h turn.1 turn.2
    have hrest := ih (h.step (r.due turn.1 turn.2))
    change (StreamReader.loop (r.step (r.due turn.1 turn.2)) turns).weight ≤ _
    rw [countP_cons]
    cases hanswer : turn.1 <;> simp [hanswer] at hturn hrest ⊢ <;> omega

/-- Nothing is left to go, so nothing is ahead. -/
theorem Tracks.consumed_eq (hweight : r.weight = 0) : r.consumed = messages := by
  obtain ⟨left, rfl, hahead⟩ := h
  unfold weight at hweight
  have hbuffer : r.framer.buffer = [] := length_eq_zero_iff.mp (by omega)
  have hrest : r.rest = [] := length_eq_zero_iff.mp (by omega)
  have hunread : r.unread = [] := length_eq_zero_iff.mp (by omega)
  have hnone : r.framer.nextMessage = 0 := by
    rw [nextMessage, hbuffer]
    rfl
  rw [(hahead.eq_nil hnone (by rw [hrest, hunread]; rfl)).2, append_nil]

end

end StreamReader

open MessageFramer StreamReader in
/-- **The messages of a stream do not depend on its reads**, nor on what the consumer refuses
and when: in every interleaving they come byte for byte and in order, each once, and every
other byte is still to come; without a whole message at the front there is room; the loop is
through after at most three accepted turns a byte; and the read loop of the transports
delivers them for every cut of the stream. -/
theorem messages_of_stream (framer : MessageFramer) (hfresh : framer.buffer = []) (messages : List (List UInt8))
    (hmessages : ∀ m ∈ messages, IsMessage m ∧ m.length ≤ framer.capacity) :
    (∀ es : List StreamEvent,
      let r := Run.run step { framer := framer, unread := messages.flatten } es
      r.consumed <+: messages
        ∧ r.consumed.flatten ++ (r.framer.buffer ++ (r.rest ++ r.unread)) = messages.flatten
        ∧ (r.framer.nextMessage = 0 → r.rest ≠ [] → 0 < (r.framer.push r.rest).2))
    ∧ (∀ turns : List (Bool × ℕ), 3 * messages.flatten.length ≤ turns.countP (·.1) →
      (StreamReader.loop { framer := framer, unread := messages.flatten } turns).consumed = messages)
    ∧ (∀ reads : List (List UInt8), reads.flatten = messages.flatten →
      ∃ framer', framer.receiveAll reads = (messages, framer', true) ∧ framer'.buffer = []) := by
  have hahead : framer.Ahead messages.flatten messages := by
    refine ⟨?_, fun m hm => (hmessages m hm).2⟩
    rw [hfresh]
    exact cuts_flatten fun m hm => (hmessages m hm).1
  have hstart : Tracks messages { framer := framer, unread := messages.flatten } := ⟨messages, rfl, hahead⟩
  refine ⟨?_, ?_, ?_⟩
  · intro es
    obtain ⟨left, heq, hleft⟩ := hstart.run es
    refine ⟨⟨left, heq.symm⟩, ?_, fun hnone hrest => hleft.push_pos hnone hrest⟩
    rw [hleft.flatten, ← flatten_append, ← heq]
  · intro turns hturns
    refine (hstart.loop turns).consumed_eq ?_
    have hweight := weight_loop hstart turns
    simp only [weight, hfresh, length_nil] at hweight ⊢
    omega
  · intro reads hreads
    rw [← hreads] at hahead
    refine hahead.receiveAll ?_
    rw [nextMessage, hfresh]
    rfl

/-- Two messages through the inline buffer, the second cut inside its header. -/
theorem messages_of_stream_ping :
    ∃ framer', MessageFramer.reset.receiveAll [[0, 9, 0, 0, 0], [7, 1], [0, 5]]
      = ([[0, 9, 0, 0], [0, 7, 1, 0, 5]], framer', true) ∧ framer'.buffer = [] :=
  (messages_of_stream .reset rfl [[0, 9, 0, 0], [0, 7, 1, 0, 5]] (by decide)).2.2 _ rfl

end CanHub
