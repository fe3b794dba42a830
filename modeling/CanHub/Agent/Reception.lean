/-
# A link under arbitrary traffic

`Reception` follows a link with its buffer over any sequence of frames, times
and messages to send, and keeps the frames it has stored. Whatever the peer and
the bus do, nothing is written behind the buffer and a message is handed out
only when it is the data of the frames stored for it, in order
(`receiver_withstands`). The invariant is `Ordered`: a reassembly under way
holds its first frame and the consecutive frames stored since.
-/
import CanHub.Agent.Receiver
import CanHub.Lib.Run

namespace CanHub

open Wire List UInt16

/-! ### A link under arbitrary inputs -/

/-- What can happen to an open link: a frame of any id, length and content, the time, or a message to send. -/
inductive LinkInput
  | frame (f : FrameMessage) (fits : f.payload.length ≤ framePayloadMaxFd) (nowUs : ℕ)
  | tick (nowUs : ℕ)
  | send (message : List UInt8) (nowUs : ℕ)

/-- The frame an input brings, if it is one. -/
def LinkInput.frame? : LinkInput → Option FrameMessage
  | .frame f _ _ => some f
  | _ => none

/-- A link, what its last step reported and wrote, and the frames it has copied into its buffer. -/
structure Reception (ε : Type) where
  receiver : BufferedLink
  env : ε
  event : IsotpEvent := .none
  extent : ℕ := 0
  stored : List FrameMessage := []

namespace Reception

open BufferedLink

variable {ε : Type} (tx : ε → FrameMessage → ε × Bool)

/-- A link just opened over whatever it held before. -/
def opened (b : BufferedLink) (requestId : UInt32) (channel : UInt8) (parameters : TxnIsotpParameters) (env : ε) :
    Reception ε :=
  { receiver := { b with link := b.link.openLink requestId channel parameters }, env }

def step (r : Reception ε) : LinkInput → Reception ε
  | .frame f _ nowUs =>
    let (receiver, env, event, extent) := r.receiver.onFrame tx r.env f nowUs
    { receiver, env, event, extent, stored := if 0 < extent then r.stored ++ [f] else r.stored }
  | .tick nowUs =>
    let (link, env, event) := r.receiver.link.tick tx r.env nowUs
    { r with receiver := { r.receiver with link }, env, event, extent := 0 }
  | .send message nowUs =>
    { r with receiver := { r.receiver with link := r.receiver.link.send message nowUs }, event := .none, extent := 0 }

/-- The bytes a MESSAGE event hands out. -/
def message (r : Reception ε) : List UInt8 :=
  Memory.slice r.receiver.buffer.message 0 r.receiver.buffer.length.toNat

/-- The last frame stored is a single frame, and the message is its data. -/
def OfSingle (r : Reception ε) : Prop :=
  ∃ before f, r.stored = before ++ [f] ∧ r.receiver.IsPdu pciSingleFrame f ∧
    r.message = r.receiver.singleData f ∧ r.message.length = (r.receiver.link.singleFrameHeader f).2

/-- The last frames stored are a first frame and numbered consecutive frames, and the message is their data cut to
the announced length. -/
def OfSegments (r : Reception ε) : Prop :=
  ∃ before first rest, r.stored = before ++ first :: rest ∧ r.receiver.IsPdu pciFirstFrame first ∧
    r.receiver.Numbered rest ∧ r.message = (r.receiver.bytes first rest).take (r.receiver.announced first) ∧
      r.message.length = r.receiver.announced first

/-- A reassembly under way holds the data of the frames stored since its first frame. -/
structure Holds (r : Reception ε) (first : FrameMessage) (rest : List FrameMessage) : Prop where
  stored : ∃ before, r.stored = before ++ first :: rest
  isFirst : r.receiver.IsPdu pciFirstFrame first
  numbered : r.receiver.Numbered rest
  bytes : Memory.slice r.receiver.buffer.message 0 r.receiver.buffer.received.toNat = r.receiver.bytes first rest
  unfinished : r.receiver.buffer.received < r.receiver.buffer.length
  length : r.receiver.buffer.length.toNat = r.receiver.announced first
  sequence : r.receiver.link.receiver.sequence.toNat = (rest.length + 1) % 16

/-- The invariant: a reassembly under way holds its frames. -/
def Ordered (r : Reception ε) : Prop :=
  r.receiver.link.receiver.state = .consecutiveFrames → ∃ first rest, r.Holds first rest

/-- What a step does: it keeps the invariant and the parameters, writes inside the buffer, and reports a message
only for the frame it has just stored. -/
structure Sober (r r' : Reception ε) (f : Option FrameMessage) : Prop where
  ordered : r'.Ordered
  parameters : r'.receiver.link.parameters = r.receiver.link.parameters
  inside : r'.extent ≤ isotpMessageMax
  delivered : r'.event = .message → (∃ g ∈ f, r'.stored = r.stored ++ [g]) ∧ (r'.OfSingle ∨ r'.OfSegments)

variable {r : Reception ε} {f : FrameMessage}

/-- A step that leaves the buffer alone. -/
theorem Ordered.leaves (h : r.Ordered) {link : IsotpLink} {event : IsotpEvent}
    (hl : IsotpLink.Leaves r.receiver.link link event) (env : ε) (g : Option FrameMessage) :
    Sober r { r with receiver := { r.receiver with link }, env, event, extent := 0 } g where
  ordered hs := by
    obtain ⟨hold, hseq⟩ := hl.goes_on hs
    obtain ⟨first, rest, hh⟩ := h hold
    -- how a frame is read depends on the parameters only
    obtain ⟨_, _, parameters, _, _, _⟩ := link
    obtain rfl : parameters = _ := hl.parameters
    exact ⟨first, rest, hh.stored, hh.isFirst, hh.numbered, hh.bytes, hh.unfinished, hh.length,
      (congrArg UInt8.toNat hseq).trans hh.sequence⟩
  parameters := hl.parameters
  inside := Nat.zero_le _
  delivered he := absurd he hl.silent

theorem mem_peer (h : r.receiver.link.isFromPeer f = true) :
    r.receiver.link.addressSize < f.payload.length := by
  simp only [IsotpLink.isFromPeer, decide_eq_true_eq] at h
  exact h.2.1

/-- The reception behind a frame of which the link stored bytes. -/
def stores (r : Reception ε) (f : FrameMessage) (receiver : BufferedLink) (event : IsotpEvent) (extent : ℕ) :
    Reception ε :=
  { r with receiver, event, extent, stored := r.stored ++ [f] }

theorem sober_delivers (hf : f.payload.length ≤ framePayloadMaxFd) (hpdu : r.receiver.IsPdu pciSingleFrame f)
    (hfull : (r.receiver.link.singleFrameHeader f).1 + (r.receiver.link.singleFrameHeader f).2 ≤
      (r.receiver.pdu f).length) :
    Sober r (r.stores f (r.receiver.delivers (r.receiver.singleData f)) .message
      (r.receiver.link.singleFrameHeader f).2) (some f) := by
  obtain ⟨hsmall, hlength, hslice⟩ := delivers_buffer hf hfull
  rw [← hlength] at hslice
  refine ⟨fun h => ?_, rfl, hsmall.trans (by decide), fun _ => ⟨⟨f, rfl, rfl⟩, .inl ⟨r.stored, f, rfl, hpdu, hslice, ?_⟩⟩⟩
  · cases h
  · exact (Memory.length_slice _ _ _).trans hlength

theorem sober_starts (hpdu : r.receiver.IsPdu pciFirstFrame f)
    (hlong : (r.receiver.firstData f).length < r.receiver.announced f) (nowUs : ℕ) :
    Sober r (r.stores f (r.receiver.starts (r.receiver.announced f) (r.receiver.firstData f) nowUs) .none
      (r.receiver.firstData f).length) (some f) := by
  obtain ⟨hlength, hreceived, hslice⟩ := starts_buffer hlong nowUs
  refine ⟨fun _ => ⟨f, [], ⟨r.stored, rfl⟩, hpdu, ?_, ?_, ?_, hlength, rfl⟩, rfl,
    hlong.le.trans (r.receiver.announced_le f), nofun⟩
  · intro i g hg
    cases hg
  · rw [← hreceived] at hslice
    exact hslice.trans (append_nil _).symm
  · exact lt_iff_toNat_lt.mpr (hreceived.trans_lt (hlong.trans_eq hlength.symm))

theorem next_sequence (q : UInt8) : (q + 1 &&& 0x0F).toNat = (q.toNat + 1) % 16 := by
  rw [UInt8.toNat_and, UInt8.toNat_add]
  change (q.toNat + 1) % 256 &&& (2 ^ 4 - 1) = _
  rw [Nat.and_two_pow_sub_one_eq_mod]
  omega

section Consecutive

variable {first : FrameMessage} {rest : List FrameMessage}

theorem Holds.received_eq (h : r.Holds first rest) :
    r.receiver.buffer.received.toNat = (r.receiver.bytes first rest).length := by
  rw [← h.bytes, Memory.length_slice]

theorem Holds.piece_le (h : r.Holds first rest) :
    r.receiver.buffer.received.toNat + (r.receiver.piece f).length ≤ r.receiver.announced first :=
  h.length ▸ BufferedLink.piece_le h.unfinished

theorem bytes_push (b : BufferedLink) (first : FrameMessage) (rest : List FrameMessage) (f : FrameMessage) :
    b.bytes first (rest ++ [f]) = b.bytes first rest ++ b.carried f := by
  simp [BufferedLink.bytes]

theorem Holds.completes (h : r.Holds first rest) (hpdu : r.receiver.IsPdu pciConsecutiveFrame f)
    (hseq : byteAt (r.receiver.pdu f) 0 &&& 0x0F = r.receiver.link.receiver.sequence)
    (hfull : r.receiver.buffer.received.toNat + (r.receiver.piece f).length = r.receiver.buffer.length.toNat) :
    Sober r (r.stores f (r.receiver.completes (r.receiver.piece f)) .message
      (r.receiver.buffer.received.toNat + (r.receiver.piece f).length)) (some f) := by
  obtain ⟨before, hstored⟩ := h.stored
  have hmessage : (r.stores f (r.receiver.completes (r.receiver.piece f)) .message
      (r.receiver.buffer.received.toNat + (r.receiver.piece f).length)).message =
        (r.receiver.bytes first (rest ++ [f])).take (r.receiver.announced first) := by
    have hslice := (joins_buffer (f := f) h.unfinished).2
    rw [hfull, h.bytes] at hslice
    rw [bytes_push, ← h.length, take_append, ← h.received_eq,
      take_of_length_le (by rw [← h.received_eq, ← hfull]; omega)]
    exact hslice
  refine ⟨nofun, rfl, ?_, fun _ => ⟨⟨f, rfl, rfl⟩, .inr ⟨before, first, rest ++ [f], ?_, h.isFirst, ?_, hmessage, ?_⟩⟩⟩
  · exact (h.piece_le).trans (r.receiver.announced_le first)
  · change r.stored ++ [f] = _
    rw [hstored, append_assoc, cons_append]
  · refine h.numbered.push hpdu ?_
    rw [hseq, h.sequence]
  · exact (Memory.length_slice _ _ _).trans h.length

theorem continues_eq (b : BufferedLink) (piece : List UInt8) (nowUs : ℕ) : ∃ receiver blockReceived,
    b.continues piece nowUs = { link := { b.link with receiver }, buffer := { b.joins piece with blockReceived } }
      ∧ receiver.sequence = (b.link.receiver.sequence + 1) &&& 0x0F := by
  unfold BufferedLink.continues
  dsimp only
  split <;> exact ⟨_, _, rfl, rfl⟩

theorem Holds.continues (h : r.Holds first rest) (hpdu : r.receiver.IsPdu pciConsecutiveFrame f)
    (hseq : byteAt (r.receiver.pdu f) 0 &&& 0x0F = r.receiver.link.receiver.sequence)
    (hmore : r.receiver.buffer.received.toNat + (r.receiver.piece f).length ≠ r.receiver.buffer.length.toNat)
    (nowUs : ℕ) :
    Sober r (r.stores f (r.receiver.continues (r.receiver.piece f) nowUs) .none
      (r.receiver.buffer.received.toNat + (r.receiver.piece f).length)) (some f) := by
  obtain ⟨receiver, blockReceived, heq, hq⟩ := continues_eq r.receiver (r.receiver.piece f) nowUs
  obtain ⟨hjr, hjm⟩ := joins_buffer (f := f) h.unfinished
  have hle := BufferedLink.piece_le (f := f) h.unfinished
  -- the piece is short of what is missing, so it is all the frame carries
  have hall : r.receiver.piece f = r.receiver.carried f := by
    rw [piece]
    refine take_of_length_le ?_
    by_contra hcut
    rw [piece, length_take_of_le (Nat.le_of_not_le hcut)] at hmore hle
    omega
  obtain ⟨before, hstored⟩ := h.stored
  rw [heq]
  refine ⟨fun _ => ⟨first, rest ++ [f], ⟨before, ?_⟩, h.isFirst, ?_, ?_, ?_, h.length, ?_⟩, rfl,
    h.piece_le.trans (r.receiver.announced_le first), fun hdone => by cases hdone⟩
  · change r.stored ++ [f] = _
    rw [hstored, append_assoc, cons_append]
  · refine h.numbered.push hpdu ?_
    rw [hseq, h.sequence]
  · rw [← hjr, h.bytes, hall, ← bytes_push, ← hall] at hjm
    exact hjm
  · exact lt_iff_toNat_lt.mpr (hjr.trans_lt (Nat.lt_of_le_of_ne hle hmore))
  · change receiver.sequence.toNat = _
    rw [hq, next_sequence, h.sequence, length_append, length_singleton]
    omega

end Consecutive

variable (h : r.Ordered)
include h

/-- A frame that changes nothing and reports nothing. -/
theorem Ordered.ignores (env : ε) (g : Option FrameMessage) :
    Sober r { r with env, event := .none, extent := 0 } g := by
  have hl : IsotpLink.Leaves r.receiver.link r.receiver.link .none := .of_receiver rfl rfl nofun
  exact h.leaves hl env g

section

variable (hf : f.payload.length ≤ framePayloadMaxFd)
include hf

theorem Ordered.step_consecutive
    (hpdu : r.receiver.IsPdu pciConsecutiveFrame f) (nowUs : ℕ) :
    Sober r
      { r with
        receiver := (r.receiver.onConsecutiveFrame f nowUs).1
        event := (r.receiver.onConsecutiveFrame f nowUs).2.1
        extent := (r.receiver.onConsecutiveFrame f nowUs).2.2
        stored := if 0 < (r.receiver.onConsecutiveFrame f nowUs).2.2 then r.stored ++ [f] else r.stored }
      (some f) := by
  have hopen : r.receiver.Unfinished := fun hs => by
    obtain ⟨first, rest, hh⟩ := h hs
    exact hh.unfinished
  rw [onConsecutiveFrame_eq hf (mem_peer hpdu.1) hopen nowUs]
  by_cases hidle : r.receiver.link.receiver.state ≠ .consecutiveFrames ∨ r.receiver.link.receiver.flowControlPending
  · rw [if_pos hidle]
    exact h.ignores r.env _
  rw [if_neg hidle]
  by_cases hseq : byteAt (r.receiver.pdu f) 0 &&& 0x0F ≠ r.receiver.link.receiver.sequence
  · rw [if_pos hseq]
    exact h.leaves (.failed r.receiver.link .sequenceError) r.env _
  rw [if_neg hseq]
  by_cases hnil : r.receiver.piece f = []
  · rw [if_pos hnil]
    exact h.ignores r.env _
  have hextent : 0 < r.receiver.buffer.received.toNat + (r.receiver.piece f).length :=
    Nat.add_pos_right _ (length_pos_iff.mpr hnil)
  obtain ⟨first, rest, hh⟩ := h (by by_contra hs; exact hidle (.inl hs))
  rw [if_neg hnil]
  by_cases hfull : r.receiver.buffer.received.toNat + (r.receiver.piece f).length = r.receiver.buffer.length.toNat
  · rw [if_pos hfull, if_pos hextent]
    exact hh.completes hpdu (not_not.mp hseq) hfull
  · rw [if_neg hfull, if_pos hextent]
    exact hh.continues hpdu (not_not.mp hseq) hfull nowUs

theorem Ordered.step_single
    (hpdu : r.receiver.IsPdu pciSingleFrame f) :
    Sober r
      { r with
        receiver := (r.receiver.onSingleFrame f).1
        event := (r.receiver.onSingleFrame f).2.1
        extent := (r.receiver.onSingleFrame f).2.2
        stored := if 0 < (r.receiver.onSingleFrame f).2.2 then r.stored ++ [f] else r.stored }
      (some f) := by
  rw [onSingleFrame_eq hf (mem_peer hpdu.1)]
  by_cases hbad : (r.receiver.link.singleFrameHeader f).2 = 0 ∨ (r.receiver.pdu f).length <
      (r.receiver.link.singleFrameHeader f).1 + (r.receiver.link.singleFrameHeader f).2
  · rw [if_pos hbad]
    exact h.ignores r.env _
  · have hextent : 0 < (r.receiver.link.singleFrameHeader f).2 := by omega
    rw [if_neg hbad, if_pos hextent]
    exact sober_delivers hf hpdu (by omega)

theorem Ordered.step_first
    (hpdu : r.receiver.IsPdu pciFirstFrame f) (nowUs : ℕ) :
    Sober r
      { r with
        receiver := (r.receiver.onFirstFrame tx r.env f nowUs).1
        env := (r.receiver.onFirstFrame tx r.env f nowUs).2.1
        event := (r.receiver.onFirstFrame tx r.env f nowUs).2.2.1
        extent := (r.receiver.onFirstFrame tx r.env f nowUs).2.2.2
        stored := if 0 < (r.receiver.onFirstFrame tx r.env f nowUs).2.2.2 then r.stored ++ [f] else r.stored }
      (some f) := by
  rw [onFirstFrame_eq tx hf]
  by_cases hshort : f.payload.length < classicFrameSize
  · rw [if_pos hshort]
    exact h.ignores r.env _
  rw [if_neg hshort]
  by_cases hzero : r.receiver.announced f = 0
  · rw [if_pos hzero]
    exact h.leaves (.failed r.receiver.link .overflow) _ _
  rw [if_neg hzero]
  by_cases hle : r.receiver.announced f ≤ (r.receiver.firstData f).length
  · rw [if_pos hle]
    exact h.ignores r.env _
  · have hextent : 0 < (r.receiver.firstData f).length := by
      have haddr := r.receiver.link.addressSize_le
      simp only [classicFrameSize] at hshort
      rw [firstData, pdu, length_drop, length_drop]
      simp only [firstFrameHeaderSize]
      omega
    rw [if_neg hle, if_pos hextent]
    exact sober_starts hpdu (Nat.lt_of_not_le hle) nowUs

theorem Ordered.step_frame (nowUs : ℕ) :
    Sober r (r.step tx (.frame f hf nowUs)) (some f) := by
  simp only [step, onFrame]
  by_cases hpeer : (!r.receiver.link.isFromPeer f) = true
  · rw [if_pos hpeer]
    exact h.ignores r.env _
  have hfrom : r.receiver.link.isFromPeer f = true := by simpa using hpeer
  rw [if_neg hpeer]
  by_cases hflow : byteAt f.payload r.receiver.link.addressSize >>> 4 = pciFlowControl
  · rw [if_pos hflow]
    exact h.leaves (r.receiver.link.onFlowControl_leaves f nowUs) r.env _
  rw [if_neg hflow]
  by_cases hsingle : byteAt f.payload r.receiver.link.addressSize >>> 4 = pciSingleFrame
  · rw [if_pos hsingle]
    exact h.step_single hf ⟨hfrom, hsingle⟩
  rw [if_neg hsingle]
  by_cases hfirst : byteAt f.payload r.receiver.link.addressSize >>> 4 = pciFirstFrame
  · rw [if_pos hfirst]
    exact h.step_first tx hf ⟨hfrom, hfirst⟩ nowUs
  rw [if_neg hfirst]
  by_cases hcons : byteAt f.payload r.receiver.link.addressSize >>> 4 = pciConsecutiveFrame
  · rw [if_pos hcons]
    exact h.step_consecutive hf ⟨hfrom, hcons⟩ nowUs
  · rw [if_neg hcons]
    exact h.ignores r.env _

end

/-- One input, whatever it is. -/
theorem Ordered.step (x : LinkInput) : Sober r (r.step tx x) x.frame? := by
  cases x with
  | frame f hf nowUs => exact h.step_frame tx hf nowUs
  | tick nowUs => exact h.leaves (r.receiver.link.tick_leaves tx r.env nowUs) _ _
  | send message nowUs =>
    have hl : IsotpLink.Leaves r.receiver.link (r.receiver.link.send message nowUs) .none :=
      .of_receiver rfl rfl nofun
    exact h.leaves hl r.env _

theorem Ordered.run (inputs : List LinkInput) : (Run.run (Reception.step tx) r inputs).Ordered
    ∧ (Run.run (Reception.step tx) r inputs).receiver.link.parameters = r.receiver.link.parameters := by
  have hall : Run.Along (Reception.step tx) (fun _ _ => True) r inputs := Run.Along.of_forall (fun _ _ _ => trivial) r
  refine hall.invariant (I := fun r' => r'.Ordered ∧ r'.receiver.link.parameters = r.receiver.link.parameters)
    (fun _ x hr _ => ?_) ⟨h, rfl⟩
  have hstep := Ordered.step tx hr.1 x
  exact ⟨hstep.ordered, hstep.parameters.trans hr.2⟩

omit h

theorem opened_ordered (b : BufferedLink) (requestId : UInt32) (channel : UInt8) (parameters : TxnIsotpParameters)
    (env : ε) : (opened b requestId channel parameters env).Ordered := nofun

/-- A frame of another id, one too short for data or without the peer's address, and an echo are not of the peer. -/
theorem isFromPeer_eq_false {l : IsotpLink} (h : f.canId ≠ l.parameters.responseId ∨ f.payload = []
    ∨ l.parameters.flags &&& txnIsotpFlagAddressByte ≠ 0
      ∧ (f.payload.length = 1 ∨ byteAt f.payload 0 ≠ l.parameters.rxAddress)
    ∨ f.routeFlags &&& frameRouteFlagEcho ≠ 0) : l.isFromPeer f = false := by
  rw [IsotpLink.isFromPeer, decide_eq_false_iff_not]
  rintro ⟨hid, hlen, haddress, hecho⟩
  rcases h with h | h | ⟨hflag, h⟩ | h
  · exact h hid
  · simp [h] at hlen
  · have hsize : l.addressSize = 1 := if_pos (by simpa [IsotpLink.hasFlag] using hflag)
    rw [hsize] at hlen haddress
    rcases h with h | h
    · omega
    · exact h (haddress Nat.one_pos)
  · exact h hecho

theorem step_other {x : LinkInput} (hx : ∀ f ∈ x.frame?, r.receiver.link.isFromPeer f = false)
    (hframe : x.frame?.isSome) : r.step tx x = { r with event := .none, extent := 0 } := by
  cases x with
  | frame f hf nowUs =>
    have hno := hx f rfl
    simp [step, onFrame, hno]
  | tick => cases hframe
  | send => cases hframe

/-- **The receiver withstands any traffic.** Whatever frames, times and messages to send a link has seen since it
was opened, whatever transmissions were refused, and whatever comes next: nothing is written behind the buffer; a
reassembly under way has received no more than its length; a message is reported only with a frame just stored that
is a single frame and carries it, or that ends a first frame and the consecutive frames stored since, numbered
without a gap, and then it is their data cut to the announced length; and a frame of another id than the one the link
was opened for, one without data or with another address byte, and an echo change nothing. -/
theorem receiver_withstands (b : BufferedLink) (requestId : UInt32) (channel : UInt8)
    (parameters : TxnIsotpParameters) (env : ε) (inputs : List LinkInput) (x : LinkInput) :
    let r := Run.run (step tx) (opened b requestId channel parameters env) inputs
    let r' := r.step tx x
    r'.extent ≤ isotpMessageMax ∧
      (r'.receiver.link.receiver.state = .consecutiveFrames →
        r'.receiver.buffer.received ≤ r'.receiver.buffer.length) ∧
      (r'.event = .message →
        (∃ f ∈ x.frame?, r'.stored = r.stored ++ [f]) ∧ (r'.OfSingle ∨ r'.OfSegments)) ∧
      ∀ f ∈ x.frame?, f.canId ≠ parameters.responseId ∨ f.payload = []
          ∨ parameters.flags &&& txnIsotpFlagAddressByte ≠ 0
            ∧ (f.payload.length = 1 ∨ byteAt f.payload 0 ≠ parameters.rxAddress)
          ∨ f.routeFlags &&& frameRouteFlagEcho ≠ 0 →
        r' = { r with event := .none, extent := 0 } := by
  intro r r'
  obtain ⟨hr, hparameters⟩ : r.Ordered ∧ r.receiver.link.parameters = parameters :=
    (opened_ordered b requestId channel parameters env).run tx inputs
  have hstep : Sober r r' x.frame? := hr.step tx x
  refine ⟨hstep.inside, ?_, hstep.delivered, ?_⟩
  · intro hs
    obtain ⟨first, rest, hh⟩ := hstep.ordered hs
    exact UInt16.le_of_lt hh.unfinished
  · intro f hf hother
    refine step_other tx (fun g hg => ?_) (Option.isSome_of_mem hf)
    obtain rfl := Option.mem_unique hf hg
    exact isFromPeer_eq_false (hparameters ▸ hother)

end Reception

end CanHub
