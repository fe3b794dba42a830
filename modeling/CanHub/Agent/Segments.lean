/-
# The frames of an ISO-TP message

`segments` is the segmentation of the sender's message as a list: one single
frame, or a first frame and the consecutive frames of the rest, numbered modulo
16 from 1. `remaining` is what of it a sender has still to send. Whatever the
peer's flow control says and however often the port refuses, a sender hands the
frames of `remaining` to the port in order, one at a time, and reports SENT with
the last one: `SendStep` lists what one attempt can do, and `sendDue_rule`
carries a property over all the attempts of a tick.
-/
import CanHub.Agent.Isotp
import CanHub.Lib.Chunks

namespace CanHub

open Wire Chunks

namespace IsotpLink

/-! ### Segmentation -/

/-- Whether the sender's message goes in one frame. -/
def IsSingle (l : IsotpLink) : Prop :=
  l.sender.message.length ≤ l.classicSingleFrameCapacity ∨ l.sender.message.length ≤ l.escapeSingleFrameCapacity

instance (l : IsotpLink) : Decidable l.IsSingle := inferInstanceAs (Decidable (_ ∨ _))

/-- The consecutive frames of the pieces, numbered from `sequence`. -/
def consecutiveFrames (l : IsotpLink) : UInt8 → List (List UInt8) → List FrameMessage
  | _, [] => []
  | sequence, piece :: pieces =>
    l.dataFrame ((pciConsecutiveFrame <<< 4 ||| sequence) :: piece)
      :: l.consecutiveFrames ((sequence + 1) &&& 0x0F) pieces

/-- The consecutive frames of what follows the first `offset` bytes of the message. -/
def framesFrom (l : IsotpLink) (sequence : UInt8) (offset : ℕ) : List FrameMessage :=
  l.consecutiveFrames sequence (chunks l.consecutiveFrameCapacity (l.sender.message.drop offset))

/-- The frames of the sender's message. -/
def segments (l : IsotpLink) : List FrameMessage :=
  if l.IsSingle then [l.dataFrame l.singleFrameData]
  else l.dataFrame l.firstFrameData :: l.framesFrom 1 l.firstFrameCapacity

/-- The frames the sender has still to send. -/
def remaining (l : IsotpLink) : List FrameMessage :=
  match l.sender.state with
  | .idle => []
  | .firstFrame => l.segments
  | .flowControl => l.framesFrom l.sender.sequence l.sender.offset
  | .consecutiveFrames => l.framesFrom l.sender.sequence l.sender.offset

/-- The parameters leave room in a frame, and a sender inside a message has bytes of it left. -/
structure Sane (l : IsotpLink) : Prop where
  room : classicFrameSize ≤ l.txDataLength
  left : l.sender.state = .flowControl ∨ l.sender.state = .consecutiveFrames →
    l.sender.offset < l.sender.message.length

theorem addressSize_le (l : IsotpLink) : l.addressSize ≤ 1 := by
  unfold addressSize
  split <;> omega

theorem Sane.capacity_pos {l : IsotpLink} (h : l.Sane) : 0 < l.consecutiveFrameCapacity := by
  have := h.room
  have := l.addressSize_le
  unfold consecutiveFrameCapacity
  simp only [classicFrameSize, consecutiveFrameHeaderSize] at *
  omega

/-- A message that does not go in one frame does not fit the first frame either. -/
theorem firstFrameCapacity_lt {l : IsotpLink} (h : ¬l.IsSingle) :
    l.firstFrameCapacity < l.sender.message.length := by
  unfold IsSingle classicSingleFrameCapacity escapeSingleFrameCapacity at h
  unfold firstFrameCapacity
  have := l.addressSize_le
  simp only [classicFrameSize, singleFrameHeaderSize, escapeSingleFrameHeaderSize, firstFrameHeaderSize] at *
  split at h <;> omega

theorem framesFrom_of_lt {l : IsotpLink} (hk : 0 < l.consecutiveFrameCapacity) {offset : ℕ}
    (h : offset < l.sender.message.length) (sequence : UInt8) :
    l.framesFrom sequence offset
      = l.dataFrame ((pciConsecutiveFrame <<< 4 ||| sequence)
          :: (l.sender.message.drop offset).take l.consecutiveFrameCapacity)
        :: l.framesFrom ((sequence + 1) &&& 0x0F) (offset + l.consecutiveFrameCapacity) := by
  have hne : l.sender.message.drop offset ≠ [] := by
    rw [Ne, List.drop_eq_nil_iff]
    omega
  unfold framesFrom
  rw [chunks_of_ne_nil hk hne, List.drop_drop]
  rfl

theorem framesFrom_of_le {l : IsotpLink} {offset : ℕ} (h : l.sender.message.length ≤ offset) (sequence : UInt8) :
    l.framesFrom sequence offset = [] := by
  unfold framesFrom
  rw [List.drop_eq_nil_of_le h]
  rfl

theorem framesFrom_eq_nil {l : IsotpLink} (hk : 0 < l.consecutiveFrameCapacity) {sequence : UInt8} {offset : ℕ} :
    l.framesFrom sequence offset = [] ↔ l.sender.message.length ≤ offset := by
  constructor
  · intro h
    by_contra hlt
    rw [framesFrom_of_lt hk (Nat.lt_of_not_le hlt)] at h
    cases h
  · exact fun h => framesFrom_of_le h sequence

/-- The frame the next consecutive frame's data makes, and what remains behind it. -/
theorem framesFrom_next {l : IsotpLink} (hk : 0 < l.consecutiveFrameCapacity)
    (h : l.sender.offset < l.sender.message.length) :
    l.framesFrom l.sender.sequence l.sender.offset
      = l.dataFrame l.consecutiveFrameData
        :: l.framesFrom ((l.sender.sequence + 1) &&& 0x0F) (l.sender.offset + l.consecutiveFrameSize) := by
  have hdata : (l.sender.message.drop l.sender.offset).take l.consecutiveFrameSize
      = (l.sender.message.drop l.sender.offset).take l.consecutiveFrameCapacity := by
    unfold consecutiveFrameSize
    rw [← List.length_drop, Nat.min_comm, ← List.take_eq_take_min]
  have hrest : l.framesFrom ((l.sender.sequence + 1) &&& 0x0F) (l.sender.offset + l.consecutiveFrameCapacity)
      = l.framesFrom ((l.sender.sequence + 1) &&& 0x0F) (l.sender.offset + l.consecutiveFrameSize) := by
    unfold consecutiveFrameSize
    by_cases hle : l.consecutiveFrameCapacity ≤ l.sender.message.length - l.sender.offset
    · rw [Nat.min_eq_right hle]
    · rw [framesFrom_of_le (by omega), framesFrom_of_le (by omega)]
  rw [framesFrom_of_lt hk h, hrest, consecutiveFrameData, hdata]

/-! ### One attempt -/

section Attempts

variable {ε : Type} (tx : ε → FrameMessage → ε × Bool) (nowUs : ℕ)

/-- The sender behind an accepted first frame. -/
def awaitingFlowControl (l : IsotpLink) : IsotpLink :=
  { l with sender :=
    { l.sender with
      offset := l.firstFrameCapacity, sequence := 1, state := .flowControl
      deadlineUs := nowUs + isotpTimeoutUs } }

/-- The sender moved past an accepted consecutive frame, with the state and block it goes on with. -/
def advanced (l : IsotpLink) (state : IsotpSenderState) (blockRemaining : ℕ) : IsotpLink :=
  { l with sender :=
    { l.sender with
      offset := l.sender.offset + l.consecutiveFrameSize
      sequence := (l.sender.sequence + 1) &&& 0x0F
      nextFrameUs := nowUs + l.sender.stMinUs
      deadlineUs := nowUs + isotpTimeoutUs
      state, blockRemaining } }

/-- What an attempt to send the next frame of `remaining` can come to. -/
inductive SendStep (l : IsotpLink) (env : ε) : IsotpLink → ε → IsotpEvent → Prop
  | refused {f : FrameMessage} {fs : List FrameMessage} : l.remaining = f :: fs → (tx env f).2 = false →
      nowUs < l.sender.deadlineUs →
      SendStep l env { l with sender := { l.sender with nextFrameUs := nowUs + isotpRetryUs } } (tx env f).1 .none
  | gaveUp {f : FrameMessage} {fs : List FrameMessage} : l.remaining = f :: fs → (tx env f).2 = false →
      l.sender.deadlineUs ≤ nowUs → SendStep l env (l.fail .txFailed) (tx env f).1 .failed
  | single : l.sender.state = .firstFrame → l.IsSingle → (tx env (l.dataFrame l.singleFrameData)).2 = true →
      SendStep l env { l with sender := { l.sender with state := .idle } }
        (tx env (l.dataFrame l.singleFrameData)).1 .sent
  | first : l.sender.state = .firstFrame → ¬l.IsSingle → (tx env (l.dataFrame l.firstFrameData)).2 = true →
      SendStep l env (l.awaitingFlowControl nowUs) (tx env (l.dataFrame l.firstFrameData)).1 .none
  | last : l.sender.state = .consecutiveFrames → (tx env (l.dataFrame l.consecutiveFrameData)).2 = true →
      l.sender.offset + l.consecutiveFrameSize = l.sender.message.length →
      SendStep l env (l.advanced nowUs .idle l.sender.blockRemaining)
        (tx env (l.dataFrame l.consecutiveFrameData)).1 .sent
  | unlimited : l.sender.state = .consecutiveFrames → (tx env (l.dataFrame l.consecutiveFrameData)).2 = true →
      l.sender.offset + l.consecutiveFrameSize ≠ l.sender.message.length → l.sender.blockLimited = false →
      SendStep l env (l.advanced nowUs .consecutiveFrames l.sender.blockRemaining)
        (tx env (l.dataFrame l.consecutiveFrameData)).1 .none
  | inBlock : l.sender.state = .consecutiveFrames → (tx env (l.dataFrame l.consecutiveFrameData)).2 = true →
      l.sender.offset + l.consecutiveFrameSize ≠ l.sender.message.length → l.sender.blockLimited = true →
      l.sender.blockRemaining - 1 ≠ 0 →
      SendStep l env (l.advanced nowUs .consecutiveFrames (l.sender.blockRemaining - 1))
        (tx env (l.dataFrame l.consecutiveFrameData)).1 .none
  | endsBlock : l.sender.state = .consecutiveFrames → (tx env (l.dataFrame l.consecutiveFrameData)).2 = true →
      l.sender.offset + l.consecutiveFrameSize ≠ l.sender.message.length → l.sender.blockLimited = true →
      l.sender.blockRemaining - 1 = 0 →
      SendStep l env (l.advanced nowUs .flowControl (l.sender.blockRemaining - 1))
        (tx env (l.dataFrame l.consecutiveFrameData)).1 .none

variable {tx nowUs} {l : IsotpLink} {env : ε}

theorem remaining_idle (hs : l.sender.state = .idle) : l.remaining = [] := by
  unfold remaining
  rw [hs]

theorem remaining_firstFrame (hs : l.sender.state = .firstFrame) : l.remaining = l.segments := by
  unfold remaining
  rw [hs]

theorem remaining_flowControl (hs : l.sender.state = .flowControl) :
    l.remaining = l.framesFrom l.sender.sequence l.sender.offset := by
  unfold remaining
  rw [hs]

theorem remaining_consecutiveFrames (hs : l.sender.state = .consecutiveFrames) :
    l.remaining = l.framesFrom l.sender.sequence l.sender.offset := by
  unfold remaining
  rw [hs]

theorem segments_single (h : l.IsSingle) : l.segments = [l.dataFrame l.singleFrameData] := by
  unfold segments
  rw [if_pos h]

theorem segments_first (h : ¬l.IsSingle) :
    l.segments = l.dataFrame l.firstFrameData :: l.framesFrom 1 l.firstFrameCapacity := by
  unfold segments
  rw [if_neg h]

theorem retryLater_step {f : FrameMessage} {fs : List FrameMessage} (hr : l.remaining = f :: fs)
    (htx : (tx env f).2 = false) :
    SendStep tx nowUs l env (l.retryLater nowUs).1 (tx env f).1 (l.retryLater nowUs).2 := by
  unfold retryLater
  split
  · exact .gaveUp hr htx ‹_›
  · exact .refused hr htx (Nat.lt_of_not_le ‹_›)

/-- **An attempt to send a first or single frame is a step of the sender.** -/
theorem sendFirstFrame_step (hs : l.sender.state = .firstFrame) :
    SendStep tx nowUs l env (l.sendFirstFrame tx env nowUs).1 (l.sendFirstFrame tx env nowUs).2.1
      (l.sendFirstFrame tx env nowUs).2.2 := by
  have hr := remaining_firstFrame hs
  by_cases hsingle : l.IsSingle
  · have hf : l.sendFirstFrame tx env nowUs = l.sendSingleFrame tx env nowUs := if_pos hsingle
    rw [hf]
    unfold sendSingleFrame
    dsimp only
    cases htx : (tx env (l.dataFrame l.singleFrameData)).2 with
    | true => exact .single hs hsingle htx
    | false => exact retryLater_step (hr.trans (segments_single hsingle)) htx
  · have hf : l.sendFirstFrame tx env nowUs = l.sendSegmentedFirstFrame tx env nowUs := if_neg hsingle
    rw [hf]
    unfold sendSegmentedFirstFrame
    dsimp only
    cases htx : (tx env (l.dataFrame l.firstFrameData)).2 with
    | true => exact .first hs hsingle htx
    | false => exact retryLater_step (hr.trans (segments_first hsingle)) htx

/-- **An attempt to send a consecutive frame is a step of the sender.** -/
theorem sendConsecutiveFrame_step (h : l.Sane) (hs : l.sender.state = .consecutiveFrames) :
    SendStep tx nowUs l env (l.sendConsecutiveFrame tx env nowUs).1 (l.sendConsecutiveFrame tx env nowUs).2.1
      (l.sendConsecutiveFrame tx env nowUs).2.2 := by
  have hr := (remaining_consecutiveFrames hs).trans (framesFrom_next h.capacity_pos (h.left (.inr hs)))
  unfold sendConsecutiveFrame
  dsimp only
  cases htx : (tx env (l.dataFrame l.consecutiveFrameData)).2 with
  | false => exact retryLater_step hr htx
  | true =>
    simp only [if_true]
    unfold afterConsecutiveFrame
    by_cases hlast : l.sender.offset + l.consecutiveFrameSize = l.sender.message.length
    · rw [if_pos hlast]
      exact .last hs htx hlast
    rw [if_neg hlast]
    cases hb : l.sender.blockLimited with
    | false =>
      have : SendStep tx nowUs l env _ _ _ := .unlimited hs htx hlast hb
      simpa only [advanced, hs, hb, Bool.not_false, if_true] using this
    | true =>
      by_cases hend : l.sender.blockRemaining - 1 = 0
      · have : SendStep tx nowUs l env _ _ _ := .endsBlock hs htx hlast hb hend
        simpa only [advanced, hs, hb, hend, Bool.not_true, Bool.false_eq_true, if_false, if_true] using this
      · have : SendStep tx nowUs l env _ _ _ := .inBlock hs htx hlast hb hend
        simpa only [advanced, hs, hb, hend, Bool.not_true, Bool.false_eq_true, if_false] using this

/-! ### What an attempt does to the remaining frames -/

section Congr

variable {l' : IsotpLink} (h : l'.line = l.line)
include h

/-- A link of the same line is the same link with other books. -/
theorem eq_of_line :
    l' = { l with sender := l'.sender, receiver := l'.receiver, failureReason := l'.failureReason } := by
  obtain ⟨requestId, channel, parameters, _, _, _⟩ := l
  obtain ⟨requestId', channel', parameters', _, _, _⟩ := l'
  cases h
  rfl

theorem dataFrame_congr : l'.dataFrame = l.dataFrame := by
  rw [eq_of_line h]
  rfl

theorem consecutiveFrameCapacity_congr :
    l'.consecutiveFrameCapacity = l.consecutiveFrameCapacity := by
  rw [eq_of_line h]
  rfl

theorem consecutiveFrames_congr :
    ∀ (pieces : List (List UInt8)) (sequence : UInt8),
      l'.consecutiveFrames sequence pieces = l.consecutiveFrames sequence pieces
  | [], _ => rfl
  | piece :: pieces, sequence => by
    unfold consecutiveFrames
    rw [dataFrame_congr h, consecutiveFrames_congr pieces]

section

variable (hm : l'.sender.message = l.sender.message)
include hm

theorem framesFrom_congr : l'.framesFrom = l.framesFrom := by
  funext sequence offset
  unfold framesFrom
  rw [consecutiveFrames_congr h, consecutiveFrameCapacity_congr h, hm]

theorem segments_congr :
    l'.segments = l.segments := by
  have hsingle : l'.IsSingle ↔ l.IsSingle := by
    unfold IsSingle
    rw [hm, eq_of_line h]
    rfl
  have hdata : l'.singleFrameData = l.singleFrameData := by
    unfold singleFrameData
    rw [hm, eq_of_line h]
    rfl
  have hcapacity : l'.firstFrameCapacity = l.firstFrameCapacity := by
    rw [eq_of_line h]
    rfl
  have hfirst : l'.firstFrameData = l.firstFrameData := by
    unfold firstFrameData
    rw [hm, hcapacity]
  unfold segments
  rw [framesFrom_congr h hm, dataFrame_congr h, hdata, hfirst, hcapacity]
  exact if_congr hsingle rfl rfl

/-- Two senders of one line at one place of one message have the same frames left. -/
theorem remaining_congr
    (hstate : l'.sender.state = l.sender.state) (hsequence : l'.sender.sequence = l.sender.sequence)
    (hoffset : l'.sender.offset = l.sender.offset) : l'.remaining = l.remaining := by
  unfold remaining
  rw [hstate, segments_congr h hm, framesFrom_congr h hm, hsequence, hoffset]

end

end Congr

theorem consecutiveFrameSize_le (l : IsotpLink) :
    l.consecutiveFrameSize ≤ l.sender.message.length - l.sender.offset :=
  Nat.min_le_left _ _

/-- What is left behind an accepted consecutive frame. -/
theorem remaining_advanced (nowUs : ℕ) (state : IsotpSenderState) (blockRemaining : ℕ)
    (hs : state = .flowControl ∨ state = .consecutiveFrames) :
    (l.advanced nowUs state blockRemaining).remaining
      = l.framesFrom ((l.sender.sequence + 1) &&& 0x0F) (l.sender.offset + l.consecutiveFrameSize) := by
  have h : (l.advanced nowUs state blockRemaining).framesFrom = l.framesFrom := framesFrom_congr rfl rfl
  rcases hs with rfl | rfl
  · rw [remaining_flowControl rfl, h]
    rfl
  · rw [remaining_consecutiveFrames rfl, h]
    rfl

variable {l' : IsotpLink} {env' : ε} {event : IsotpEvent} (h : SendStep tx nowUs l env l' env' event)
include h

theorem SendStep.line : l'.line = l.line := by
  cases h <;> rfl

theorem SendStep.sane (hl : l.Sane) : l'.Sane := by
  have hsize := l.consecutiveFrameSize_le
  -- a frame that is not the last leaves bytes to send
  have hmore (hs : l.sender.state = .consecutiveFrames)
      (hne : l.sender.offset + l.consecutiveFrameSize ≠ l.sender.message.length) :
      l.sender.offset + l.consecutiveFrameSize < l.sender.message.length := by
    have := hl.left (.inr hs)
    omega
  cases h with
  | refused => exact ⟨hl.room, hl.left⟩
  | first hs hsingle _ => exact ⟨hl.room, fun _ => firstFrameCapacity_lt hsingle⟩
  | unlimited hs _ hne => exact ⟨hl.room, fun _ => hmore hs hne⟩
  | inBlock hs _ hne => exact ⟨hl.room, fun _ => hmore hs hne⟩
  | endsBlock hs _ hne => exact ⟨hl.room, fun _ => hmore hs hne⟩
  | _ => exact ⟨hl.room, fun hs => by rcases hs with hs | hs <;> cases hs⟩

omit h

/-- What an attempt comes to for the frames: the port took the next one, it
refused it and the sender tries again later, or the sender gave up. -/
inductive Handed (tx : ε → FrameMessage → ε × Bool) (l : IsotpLink) (env : ε) (l' : IsotpLink) (env' : ε) :
    IsotpEvent → Prop
  | taken {f : FrameMessage} : l.remaining = f :: l'.remaining → l'.remaining ≠ [] → tx env f = (env', true) →
      Handed tx l env l' env' .none
  | lastTaken {f : FrameMessage} : l.remaining = [f] → l'.sender.state = .idle → tx env f = (env', true) →
      Handed tx l env l' env' .sent
  | notTaken {f : FrameMessage} {fs : List FrameMessage} : l.remaining = f :: fs → l'.remaining = l.remaining →
      tx env f = (env', false) → Handed tx l env l' env' .none
  | gaveUp {f : FrameMessage} {fs : List FrameMessage} : l.remaining = f :: fs → l'.sender.state = .idle →
      tx env f = (env', false) → Handed tx l env l' env' .failed

/-- **An attempt hands the next frame to the port, and nothing else.** -/
theorem SendStep.handed (h : SendStep tx nowUs l env l' env' event) (hl : l.Sane) : Handed tx l env l' env' event := by
  have pair {f : FrameMessage} {b : Bool} (hb : (tx env f).2 = b) : tx env f = ((tx env f).1, b) := by rw [← hb]
  have next (hs : l.sender.state = .consecutiveFrames) :=
    (remaining_consecutiveFrames hs).trans (framesFrom_next hl.capacity_pos (hl.left (.inr hs)))
  have hk := hl.capacity_pos
  have hsize := l.consecutiveFrameSize_le
  -- a consecutive frame that is not the last, whatever the block it is in
  have goesOn {state : IsotpSenderState} {blockRemaining : ℕ} (hs : l.sender.state = .consecutiveFrames)
      (htx : (tx env (l.dataFrame l.consecutiveFrameData)).2 = true)
      (hne : l.sender.offset + l.consecutiveFrameSize ≠ l.sender.message.length)
      (hstate : state = .flowControl ∨ state = .consecutiveFrames) :
      Handed tx l env (l.advanced nowUs state blockRemaining) (tx env (l.dataFrame l.consecutiveFrameData)).1 .none := by
    have hleft := hl.left (.inr hs)
    have hrest := l.remaining_advanced nowUs state blockRemaining hstate
    refine .taken ((next hs).trans (by rw [hrest])) ?_ (pair htx)
    rw [hrest, Ne, framesFrom_eq_nil hk]
    omega
  cases h with
  | refused hr htx _ => exact .notTaken hr (remaining_congr rfl rfl rfl rfl rfl) (pair htx)
  | gaveUp hr htx _ => exact .gaveUp hr rfl (pair htx)
  | single hs hsingle htx =>
    exact .lastTaken ((remaining_firstFrame hs).trans (segments_single hsingle)) rfl (pair htx)
  | first hs hsingle htx =>
    have hrest : (l.awaitingFlowControl nowUs).remaining = l.framesFrom 1 l.firstFrameCapacity := by
      have hframes : (l.awaitingFlowControl nowUs).framesFrom = l.framesFrom := framesFrom_congr rfl rfl
      rw [remaining_flowControl rfl, hframes]
      rfl
    refine .taken ?_ ?_ (pair htx)
    · rw [hrest]
      exact (remaining_firstFrame hs).trans (segments_first hsingle)
    · rw [hrest, Ne, framesFrom_eq_nil hk]
      exact Nat.not_le.mpr (firstFrameCapacity_lt hsingle)
  | last hs htx hlast =>
    refine .lastTaken ?_ rfl (pair htx)
    rw [next hs, hlast, framesFrom_of_le le_rfl]
  | unlimited hs htx hne => exact goesOn hs htx hne (.inr rfl)
  | inBlock hs htx hne => exact goesOn hs htx hne (.inr rfl)
  | endsBlock hs htx hne => exact goesOn hs htx hne (.inl rfl)

/-! ### A tick of the sender -/

/-- A property that every attempt keeps until it reports something is kept by the loop of a tick. -/
theorem sendDue_rule {J : IsotpLink → ε → IsotpEvent → Prop}
    (hstep : ∀ {l env l' env' event}, l.Sane → l.sender.state = .firstFrame ∨ l.sender.state = .consecutiveFrames →
      J l env .none → SendStep tx nowUs l env l' env' event → J l' env' event) :
    ∀ (budget : ℕ) {l : IsotpLink} {env : ε}, l.Sane → J l env .none →
      J (sendDue tx nowUs budget l env).1 (sendDue tx nowUs budget l env).2.1 (sendDue tx nowUs budget l env).2.2
  | 0, _, _, _, h => h
  | budget + 1, l, env, hl, h => by
    have again {r : IsotpLink × ε × IsotpEvent}
        (hs : l.sender.state = .firstFrame ∨ l.sender.state = .consecutiveFrames)
        (hr : SendStep tx nowUs l env r.1 r.2.1 r.2.2) :
        let r' := if r.2.2 = .none then sendDue tx nowUs budget r.1 r.2.1 else r
        J r'.1 r'.2.1 r'.2.2 := by
      have hj := hstep hl hs h hr
      split
      · rename_i hnone
        rw [hnone] at hj
        exact sendDue_rule hstep budget (hr.sane hl) hj
      · exact hj
    unfold sendDue
    split
    · exact h
    split
    · exact again (.inl ‹_›) (sendFirstFrame_step ‹_›)
    · exact again (.inr ‹_›) (sendConsecutiveFrame_step hl ‹_›)
    · exact h

/-! ### A link that is not sending -/

theorem sendDue_idle (hs : l.sender.state = .idle) (budget : ℕ) :
    sendDue tx nowUs budget l env = (l, env, .none) := by
  cases budget with
  | zero => rfl
  | succ budget =>
    unfold sendDue
    rw [hs]
    split <;> rfl

theorem tickSender_idle (hs : l.sender.state = .idle) : l.tickSender tx env nowUs = (l, env, .none) := by
  unfold tickSender
  rw [hs, if_neg (fun h => nomatch h)]
  exact sendDue_idle hs _

theorem tickReceiver_sender (tx : ε → FrameMessage → ε × Bool) (l : IsotpLink) (env : ε) (nowUs : ℕ) :
    ((l.tickReceiver tx env nowUs).1.sender = l.sender ∨ (l.tickReceiver tx env nowUs).1.sender.state = .idle)
      ∧ (l.tickReceiver tx env nowUs).2.2 ≠ .sent := by
  unfold tickReceiver
  split
  · exact ⟨.inl rfl, fun h => nomatch h⟩
  split
  · split
    · exact ⟨.inr rfl, fun h => nomatch h⟩
    · exact ⟨.inl rfl, fun h => nomatch h⟩
  split
  · exact ⟨.inl rfl, fun h => nomatch h⟩
  · dsimp only
    split <;> exact ⟨.inl rfl, fun h => nomatch h⟩

/-- A link that is not sending does not start to, and reports nothing sent. -/
theorem tick_idle (hs : l.sender.state = .idle) :
    (l.tick tx env nowUs).1.sender.state = .idle ∧ (l.tick tx env nowUs).2.2 ≠ .sent := by
  obtain ⟨hsender, hevent⟩ := tickReceiver_sender tx l env nowUs
  have hidle : (l.tickReceiver tx env nowUs).1.sender.state = .idle :=
    hsender.elim (fun h => by rw [h, hs]) id
  unfold tick
  dsimp only
  split
  · exact ⟨hidle, hevent⟩
  · rw [tickSender_idle hidle]
    exact ⟨hidle, fun h => nomatch h⟩

theorem onFrame_idle (hs : l.sender.state = .idle) (f : FrameMessage) :
    (l.onFrame tx env f nowUs).1.sender.state = .idle ∧ (l.onFrame tx env f nowUs).2.2 ≠ .sent := by
  obtain ⟨l', env', event, hr, h⟩ := onFrame_heard tx l env f nowUs
  rw [hr]
  cases h with
  | failed _ hsender => exact ⟨hsender, fun h => nomatch h⟩
  | granted hstate => exact absurd (hs.symm.trans hstate) (by decide)
  | _ => exact ⟨hs, fun h => nomatch h⟩

end Attempts
end IsotpLink
end CanHub
