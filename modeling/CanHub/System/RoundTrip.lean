/-
# An ISO-TP message from one link to another

Two links, each opened with the other's ids and address bytes, joined by two
in-order queues whose ports may refuse any frame. `a` sends one message.
Every schedule of ticks and deliveries is a list of events, and no deadline for
flow control or for the next consecutive frame expires in it (`InTime`).

The invariant (`Phase`) follows the message: not yet begun, in one frame, behind
the first frame, waiting for flow control, or flowing. While it flows, the frames
in the queue and those `a` has still to send are together the consecutive
frames from where `b` stands, and the two count the frames of a block alike.

The parameters' check also lets data lengths through that CAN frames cannot
have. A full frame of such a length is filled up, and the receiver cannot tell
the fill from the message (`spoiled`).

Key theorems:
  `run_inv`         the phase after any schedule in time
  `round_trip_iff`  once SENT is reported and the queues are empty, `b` has
                    reported the message, once, and nobody a failure: exactly
                    when the full frame has a length that CAN frames have
-/
import CanHub.Agent.Reassembly
import CanHub.Agent.Runner

namespace CanHub

open List
namespace RoundTrip

open IsotpLink Run

/-! ### The two links -/

/-- What a link reports to its owner, with the message and its length if it is one. -/
inductive Report
  | sent
  | message (bytes : List UInt8) (length : ℕ)
  | failed
deriving DecidableEq

def report (l : IsotpLink) : IsotpEvent → List Report
  | .none => []
  | .sent => [.sent]
  | .message => [.message l.receiver.message l.receiver.length]
  | .failed => [.failed]

/-- The port over a queue: the frame is appended, unless the next of the refusals says no. -/
def transmit (port : List FrameMessage × List Bool) (f : FrameMessage) : (List FrameMessage × List Bool) × Bool :=
  match port.2 with
  | true :: refusals => ((port.1, refusals), false)
  | false :: refusals => ((port.1 ++ [f], refusals), true)
  | [] => ((port.1 ++ [f], []), true)

structure System where
  a : IsotpLink
  b : IsotpLink
  ab : List FrameMessage := []
  ba : List FrameMessage := []
  reportsA : List Report := []
  reportsB : List Report := []
deriving DecidableEq

/-- A tick of a link, or the delivery of the next frame to it, at a time and with the port's refusals. -/
inductive Event
  | tickA (nowUs : ℕ) (refusals : List Bool)
  | tickB (nowUs : ℕ) (refusals : List Bool)
  | deliverA (nowUs : ℕ) (refusals : List Bool)
  | deliverB (nowUs : ℕ) (refusals : List Bool)

/-- `a` has run an operation that left it, its queue and an event. -/
def System.afterA (σ : System) (r : IsotpLink × (List FrameMessage × List Bool) × IsotpEvent) : System :=
  { σ with a := r.1, ab := r.2.1.1, reportsA := σ.reportsA ++ report r.1 r.2.2 }

def System.afterB (σ : System) (r : IsotpLink × (List FrameMessage × List Bool) × IsotpEvent) : System :=
  { σ with b := r.1, ba := r.2.1.1, reportsB := σ.reportsB ++ report r.1 r.2.2 }

def step (σ : System) : Event → System
  | .tickA nowUs refusals => σ.afterA (σ.a.tick transmit (σ.ab, refusals) nowUs)
  | .tickB nowUs refusals => σ.afterB (σ.b.tick transmit (σ.ba, refusals) nowUs)
  | .deliverA nowUs refusals =>
    match σ.ba with
    | [] => σ
    | f :: ba => { σ with ba }.afterA (σ.a.onFrame transmit (σ.ab, refusals) f nowUs)
  | .deliverB nowUs refusals =>
    match σ.ab with
    | [] => σ
    | f :: ab => { σ with ab }.afterB (σ.b.onFrame transmit (σ.ba, refusals) f nowUs)

/-- Neither the wait for flow control nor the wait for the next consecutive frame is over. -/
def NotExpired (l : IsotpLink) (nowUs : ℕ) : Prop :=
  (l.sender.state = .flowControl → nowUs < l.sender.deadlineUs)
    ∧ (l.receiver.state = .consecutiveFrames → l.receiver.flowControlPending = false → nowUs < l.receiver.deadlineUs)

def InTime (σ : System) : Event → Prop
  | .tickA nowUs _ => NotExpired σ.a nowUs
  | .tickB nowUs _ => NotExpired σ.b nowUs
  | _ => True

/-- Once `a` has reported SENT and all frames were delivered, `b` has reported the message, just once, and neither
link a failure. -/
def Faithful (message : List UInt8) (σ : System) : Prop :=
  .sent ∈ σ.reportsA → σ.ab = [] → σ.ba = [] →
    σ.reportsB = [.message message message.length] ∧ .failed ∉ σ.reportsA ∧ .failed ∉ σ.reportsB

/-! ### The invariant -/

variable {message : List UInt8} {σ : System}

/-- What does not change while the message is on its way. -/
structure Base (message : List UInt8) (σ : System) : Prop where
  hearsA : Hears σ.a σ.b
  hearsB : Hears σ.b σ.a
  exact : σ.a.Exact
  sane : σ.a.Sane
  message_eq : σ.a.sender.message = message
  some_bytes : 0 < message.length
  not_too_many : message.length ≤ txnIsotpMessageSizeMax
  receiverA : σ.a.receiver.state = .idle
  senderB : σ.b.sender.state = .idle

/-- How the two count the frames of a block: the sender in `state` may send `remaining` more, `inFlight` are in the
queue and the receiver has had `received`. -/
structure Block (blockSize : UInt8) (state : IsotpSenderState) (limited : Bool) (remaining inFlight received : ℕ) :
    Prop where
  begun : state ≠ .firstFrame
  limited_iff : limited = true ↔ blockSize ≠ 0
  unlimited : blockSize = 0 → state ≠ .flowControl
  before : blockSize ≠ 0 → received < blockSize.toNat
  inside : blockSize ≠ 0 → state = .consecutiveFrames →
    0 < remaining ∧ remaining + inFlight + received = blockSize.toNat
  atEnd : blockSize ≠ 0 → state = .flowControl → inFlight + received = blockSize.toNat
  behind : blockSize ≠ 0 → state = .idle → inFlight + received ≤ blockSize.toNat

namespace Block

variable {blockSize : UInt8} {state : IsotpSenderState} {limited : Bool} {remaining inFlight received : ℕ}

/-- A block as it is granted. -/
theorem granted (blockSize : UInt8) :
    Block blockSize .consecutiveFrames (decide (blockSize ≠ 0)) blockSize.toNat 0 0 := by
  have hpos : blockSize ≠ 0 → 0 < blockSize.toNat := fun h =>
    Nat.pos_of_ne_zero fun h0 => h (UInt8.toNat_inj.mp h0)
  exact ⟨(fun h => nomatch h), decide_eq_true_iff, (fun _ h => nomatch h), hpos, fun h _ => ⟨hpos h, by omega⟩,
    (fun _ h => nomatch h), (fun _ h => nomatch h)⟩

theorem sendLast (h : Block blockSize .consecutiveFrames limited remaining inFlight received) :
    Block blockSize .idle limited remaining (inFlight + 1) received where
  begun := fun h => nomatch h
  limited_iff := h.limited_iff
  unlimited := fun _ h => nomatch h
  before := h.before
  inside := fun _ h => nomatch h
  atEnd := fun _ h => nomatch h
  behind := fun hb _ => by
    have := h.inside hb rfl
    omega

theorem sendUnlimited (h : Block blockSize .consecutiveFrames false remaining inFlight received) :
    Block blockSize .consecutiveFrames false remaining (inFlight + 1) received where
  begun := h.begun
  limited_iff := h.limited_iff
  unlimited := h.unlimited
  before := h.before
  inside := fun hb _ => nomatch h.limited_iff.mpr hb
  atEnd := fun _ h => nomatch h
  behind := fun _ h => nomatch h

section

variable (h : Block blockSize .consecutiveFrames true remaining inFlight received)
include h

theorem sendInside
    (hr : remaining - 1 ≠ 0) :
    Block blockSize .consecutiveFrames true (remaining - 1) (inFlight + 1) received where
  begun := h.begun
  limited_iff := h.limited_iff
  unlimited := h.unlimited
  before := h.before
  inside := fun hb _ => by
    have := h.inside hb rfl
    omega
  atEnd := fun _ h => nomatch h
  behind := fun _ h => nomatch h

theorem sendAtEnd
    (hr : remaining - 1 = 0) :
    Block blockSize .flowControl true (remaining - 1) (inFlight + 1) received where
  begun := fun h => nomatch h
  limited_iff := h.limited_iff
  unlimited := fun h0 => absurd h0 (h.limited_iff.mp rfl)
  before := h.before
  inside := fun _ h => nomatch h
  atEnd := fun hb _ => by
    have := h.inside hb rfl
    omega
  behind := fun _ h => nomatch h

end

variable (h : Block blockSize state limited remaining (inFlight + 1) received)
include h

/-- A frame received inside the block. -/
theorem receive
    (hr : ¬(blockSize ≠ 0 ∧ received + 1 = blockSize.toNat)) :
    Block blockSize state limited remaining inFlight (received + 1) where
  begun := h.begun
  limited_iff := h.limited_iff
  unlimited := h.unlimited
  before := fun hb => by
    have := h.before hb
    have : received + 1 ≠ blockSize.toNat := fun heq => hr ⟨hb, heq⟩
    omega
  inside := fun hb hs => by
    have := h.inside hb hs
    omega
  atEnd := fun hb hs => by
    have := h.atEnd hb hs
    omega
  behind := fun hb hs => by
    have := h.behind hb hs
    omega

/-- When the receiver ends its block the queue is empty and the sender has ended it too. -/
theorem receiveAtEnd
    (hr : blockSize ≠ 0 ∧ received + 1 = blockSize.toNat) :
    inFlight = 0 ∧ (state = .flowControl ∨ state = .idle) := by
  obtain ⟨hb, heq⟩ := hr
  cases state with
  | firstFrame => exact absurd rfl h.begun
  | consecutiveFrames =>
    have := h.inside hb rfl
    omega
  | flowControl =>
    have := h.atEnd hb rfl
    exact ⟨by omega, .inl rfl⟩
  | idle =>
    have := h.behind hb rfl
    exact ⟨by omega, .inr rfl⟩

end Block

/-- The block counts of the two links. -/
def Counts (σ : System) : Prop :=
  Block σ.b.parameters.blockSize σ.a.sender.state σ.a.sender.blockLimited σ.a.sender.blockRemaining σ.ab.length
    σ.b.receiver.blockReceived

/-- `a` waits for flow control at the place where `b` stands. -/
structure Waiting (message : List UInt8) (σ : System) : Prop where
  state : σ.a.sender.state = .flowControl
  receiving : σ.b.Receiving message
  frames : σ.a.remaining = σ.a.framesFrom σ.b.receiver.sequence σ.b.receiver.message.length
  block : σ.b.receiver.blockReceived = 0

/-- The way of a message. -/
inductive Phase (message : List UInt8) (σ : System) : Prop
  | start : σ.a.sender.state = .firstFrame → σ.ab = [] → σ.ba = [] → σ.b.receiver.state = .idle →
      σ.reportsA = [] → σ.reportsB = [] → Phase message σ
  | single : σ.a.sender.state = .idle → σ.a.IsSingle → σ.ab = [σ.a.dataFrame σ.a.singleFrameData] → σ.ba = [] →
      σ.b.receiver.state = .idle → σ.reportsA = [.sent] → σ.reportsB = [] → Phase message σ
  | first : σ.a.sender.state = .flowControl → ¬σ.a.IsSingle → σ.a.sender.offset = σ.a.firstFrameCapacity →
      σ.a.sender.sequence = 1 → σ.ab = [σ.a.dataFrame σ.a.firstFrameData] → σ.ba = [] →
      σ.b.receiver.state = .idle → σ.reportsA = [] → σ.reportsB = [] → Phase message σ
  | pending : Waiting message σ → σ.b.receiver.flowControlPending = true → σ.ab = [] → σ.ba = [] →
      σ.reportsA = [] → σ.reportsB = [] → Phase message σ
  | granted : Waiting message σ → σ.b.receiver.flowControlPending = false → σ.ab = [] →
      σ.ba = [σ.b.dataFrame (σ.b.flowControlData flowStatusContinue)] →
      σ.reportsA = [] → σ.reportsB = [] → Phase message σ
  | flowing : σ.b.Receiving message → σ.b.receiver.flowControlPending = false →
      σ.ab ++ σ.a.remaining = σ.a.framesFrom σ.b.receiver.sequence σ.b.receiver.message.length → Counts σ → σ.ba = [] →
      σ.reportsA = (if σ.a.sender.state = .idle then [.sent] else []) → σ.reportsB = [] → Phase message σ
  | done : σ.a.sender.state = .idle → σ.b.receiver.state = .idle → σ.ab = [] → σ.ba = [] → σ.reportsA = [.sent] →
      σ.reportsB = [.message message message.length] → Phase message σ

/-- `a` has given up: it will not report SENT. -/
structure GivenUp (σ : System) : Prop where
  state : σ.a.sender.state = .idle
  unsent : Report.sent ∉ σ.reportsA

def Inv (message : List UInt8) (σ : System) : Prop := Base message σ ∧ Phase message σ ∨ GivenUp σ

/-! ### A tick of the sender's side -/

variable {f : FrameMessage}

theorem transmit_taken {port port' : List FrameMessage × List Bool}
    (h : transmit port f = (port', true)) : port'.1 = port.1 ++ [f] := by
  unfold transmit at h
  split at h <;> cases h <;> rfl

theorem transmit_refused {port port' : List FrameMessage × List Bool}
    (h : transmit port f = (port', false)) : port'.1 = port.1 := by
  unfold transmit at h
  split at h <;> cases h
  rfl

variable {port : List FrameMessage × List Bool}

theorem transmit_true (h : (transmit port f).2 = true) :
    (transmit port f).1.1 = port.1 ++ [f] := transmit_taken (Prod.ext rfl h)

theorem transmit_false (h : (transmit port f).2 = false) :
    (transmit port f).1.1 = port.1 := transmit_refused (Prod.ext rfl h)

variable {event : IsotpEvent}

/-- An attempt moves frames from what remains to the queue. -/
theorem handed_frames {l l' : IsotpLink} {port port' : List FrameMessage × List Bool}
    (h : Handed transmit l port l' port' event) (he : event ≠ .failed) :
    port'.1 ++ l'.remaining = port.1 ++ l.remaining := by
  cases h with
  | taken hr _ htx => rw [transmit_taken htx, hr, append_assoc, singleton_append]
  | lastTaken hr hs htx => rw [transmit_taken htx, hr, remaining_idle hs, append_nil]
  | notTaken _ hr htx => rw [transmit_refused htx, hr]
  | gaveUp => exact absurd rfl he

variable {r : IsotpLink × (List FrameMessage × List Bool) × IsotpEvent}

theorem Base.afterA (h : Base message σ)
    (hline : r.1.line = σ.a.line) (hsane : r.1.Sane) (hm : r.1.sender.message = σ.a.sender.message)
    (hr : r.1.receiver.state = .idle) : Base message (σ.afterA r) :=
  { h with
    hearsA := h.hearsA.congr hline rfl
    hearsB := h.hearsB.congr rfl hline
    exact := h.exact.congr hline
    sane := hsane
    message_eq := hm.trans h.message_eq
    receiverA := hr }

theorem afterA_afterA (l : IsotpLink) (port : List FrameMessage × List Bool)
    (r : IsotpLink × (List FrameMessage × List Bool) × IsotpEvent) :
    (σ.afterA (l, port, .none)).afterA r = σ.afterA r := by
  simp only [System.afterA, report, append_nil]

variable {l : IsotpLink} {refusals : List Bool} {nowUs : ℕ}

/-- A flowing message after an attempt that did not fail: all but the block counts. -/
theorem flowing_afterA
    (hb : Base message σ) (hr : σ.b.Receiving message)
    (hpending : σ.b.receiver.flowControlPending = false)
    (hframes : σ.ab ++ σ.a.remaining = σ.a.framesFrom σ.b.receiver.sequence σ.b.receiver.message.length)
    (hba : σ.ba = []) (hra : σ.reportsA = []) (hrb : σ.reportsB = [])
    (hstep : SendStep transmit nowUs σ.a (σ.ab, refusals) l port event) (hm : l.sender.message = σ.a.sender.message)
    (hreceiver : l.receiver = σ.a.receiver) (he : event = if l.sender.state = .idle then .sent else .none)
    (hblock : Counts (σ.afterA (l, port, event))) : Inv message (σ.afterA (l, port, event)) := by
  have hne : event ≠ .failed := by
    rw [he]
    split <;> exact fun h => nomatch h
  refine .inl ⟨hb.afterA hstep.line (hstep.sane hb.sane) hm (by rw [hreceiver, hb.receiverA]),
    .flowing hr hpending ?_ hblock hba ?_ hrb⟩
  · change port.1 ++ l.remaining = l.framesFrom _ _
    rw [handed_frames (hstep.handed hb.sane) hne, framesFrom_congr hstep.line hm]
    exact hframes
  · change σ.reportsA ++ report l event = if l.sender.state = .idle then [.sent] else []
    rw [hra, he, nil_append]
    split <;> rfl

/-- **An attempt of `a` to send its next frame keeps the invariant.** -/
theorem attempt_inv
    (h : Inv message σ)
    (hs : σ.a.sender.state = .firstFrame ∨ σ.a.sender.state = .consecutiveFrames)
    (hstep : SendStep transmit nowUs σ.a (σ.ab, refusals) l port event) : Inv message (σ.afterA (l, port, event)) := by
  rcases h with ⟨hb, hp⟩ | hg
  swap
  · rw [hg.state] at hs
    rcases hs with hs | hs <;> cases hs
  have hline := hstep.line
  have hsane := hstep.sane hb.sane
  cases hp with
  | start hfirst hab hba hidle hra hrb =>
    cases hstep with
    | refused hr htx _ =>
      refine .inl ⟨hb.afterA hline hsane rfl hb.receiverA, .start hfirst ?_ hba hidle ?_ hrb⟩
      · exact (transmit_false htx).trans hab
      · exact (append_nil _).trans hra
    | gaveUp hr htx _ =>
      refine .inr ⟨rfl, ?_⟩
      change Report.sent ∉ σ.reportsA ++ [.failed]
      rw [hra]
      simp
    | single _ hsingle htx =>
      refine .inl ⟨hb.afterA hline hsane rfl hb.receiverA, .single rfl hsingle ?_ hba hidle ?_ hrb⟩
      · exact (transmit_true htx).trans (by rw [hab]; rfl)
      · exact congrArg (· ++ _) hra
    | first _ hsingle htx =>
      refine .inl ⟨hb.afterA hline hsane rfl hb.receiverA, .first rfl hsingle rfl rfl ?_ hba hidle ?_ hrb⟩
      · exact (transmit_true htx).trans (by rw [hab]; rfl)
      · exact (append_nil _).trans hra
    | last hc => rw [hfirst] at hc; cases hc
    | unlimited hc => rw [hfirst] at hc; cases hc
    | inBlock hc => rw [hfirst] at hc; cases hc
    | endsBlock hc => rw [hfirst] at hc; cases hc
  | flowing hr hpending hframes hblock hba hra hrb =>
    have hc : σ.a.sender.state = .consecutiveFrames := hs.resolve_left hblock.begun
    have hra' : σ.reportsA = [] := by
      rw [hra, hc]
      rfl
    have goes := flowing_afterA hb hr hpending hframes hba hra' hrb hstep
    have counts : Block σ.b.parameters.blockSize .consecutiveFrames σ.a.sender.blockLimited
        σ.a.sender.blockRemaining σ.ab.length σ.b.receiver.blockReceived := by
      rw [← hc]
      exact hblock
    have taken {f : FrameMessage} (htx : (transmit (σ.ab, refusals) f).2 = true) :
        (transmit (σ.ab, refusals) f).1.1.length = σ.ab.length + 1 := by
      rw [transmit_true htx, length_append]
      rfl
    cases hstep with
    | refused _ htx _ =>
      refine goes rfl rfl (by rw [if_neg]; exact fun hi => nomatch hc.symm.trans hi) ?_
      unfold Counts System.afterA
      rw [transmit_false htx]
      exact hblock
    | gaveUp _ htx _ =>
      refine .inr ⟨rfl, ?_⟩
      change Report.sent ∉ σ.reportsA ++ [.failed]
      rw [hra']
      simp
    | single hfirst => rw [hc] at hfirst; cases hfirst
    | first hfirst => rw [hc] at hfirst; cases hfirst
    | last _ htx _ =>
      refine goes rfl rfl rfl ?_
      unfold Counts System.afterA
      rw [taken htx]
      exact counts.sendLast
    | unlimited _ htx _ hl =>
      refine goes rfl rfl rfl ?_
      unfold Counts System.afterA advanced
      rw [taken htx, hl]
      rw [hl] at counts
      exact counts.sendUnlimited
    | inBlock _ htx _ hl hrest =>
      refine goes rfl rfl rfl ?_
      unfold Counts System.afterA advanced
      rw [taken htx, hl]
      rw [hl] at counts
      exact counts.sendInside hrest
    | endsBlock _ htx _ hl hrest =>
      refine goes rfl rfl rfl ?_
      unfold Counts System.afterA advanced
      rw [taken htx, hl]
      rw [hl] at counts
      exact counts.sendAtEnd hrest
  | single hc => rw [hc] at hs; rcases hs with hs | hs <;> cases hs
  | first hc => rw [hc] at hs; rcases hs with hs | hs <;> cases hs
  | pending hw => rw [hw.state] at hs; rcases hs with hs | hs <;> cases hs
  | granted hw => rw [hw.state] at hs; rcases hs with hs | hs <;> cases hs
  | done hc => rw [hc] at hs; rcases hs with hs | hs <;> cases hs

theorem afterA_same (port : List Bool) : σ.afterA (σ.a, (σ.ab, port), .none) = σ := by
  simp only [System.afterA, report, append_nil]

theorem afterB_same (port : List Bool) : σ.afterB (σ.b, (σ.ba, port), .none) = σ := by
  simp only [System.afterB, report, append_nil]

/-- What `a` does after it gave up changes nothing. -/
theorem GivenUp.afterA (h : GivenUp σ)
    (hr : r.1.sender.state = .idle ∧ r.2.2 ≠ .sent) : GivenUp (σ.afterA r) := by
  refine ⟨hr.1, ?_⟩
  change Report.sent ∉ σ.reportsA ++ report r.1 r.2.2
  rw [mem_append]
  rintro (hm | hm)
  · exact h.unsent hm
  · revert hm
    cases he : r.2.2 with
    | sent => exact absurd he hr.2
    | none => simp [report]
    | message => simp [report]
    | failed => simp [report]

theorem tickA_inv (h : Inv message σ) (refusals : List Bool) (ht : NotExpired σ.a nowUs) :
    Inv message (σ.afterA (σ.a.tick transmit (σ.ab, refusals) nowUs)) := by
  rcases h with ⟨hb, hp⟩ | hg
  swap
  · exact .inr (hg.afterA (tick_idle hg.state))
  have hreceiver : σ.a.tickReceiver transmit (σ.ab, refusals) nowUs = (σ.a, (σ.ab, refusals), .none) := by
    unfold tickReceiver
    rw [hb.receiverA, if_pos (fun h => nomatch h)]
  have htick : σ.a.tick transmit (σ.ab, refusals) nowUs = σ.a.tickSender transmit (σ.ab, refusals) nowUs := by
    unfold tick
    rw [hreceiver]
    rfl
  rw [htick]
  unfold tickSender
  by_cases hs : σ.a.sender.state = .flowControl
  · rw [if_pos hs, if_neg (Nat.not_le.mpr (ht.1 hs)), afterA_same]
    exact .inl ⟨hb, hp⟩
  · rw [if_neg hs]
    refine sendDue_rule (J := fun l port event => Inv message (σ.afterA (l, port, event))) ?_ _ hb.sane ?_
    · intro l port l' port' event _ hl hj hstep
      have hnext := attempt_inv hj hl hstep
      rwa [afterA_afterA] at hnext
    · rw [afterA_same]
      exact .inl ⟨hb, hp⟩

/-! ### A tick of the receiver's side -/

theorem Base.afterB (h : Base message σ)
    (hline : r.1.line = σ.b.line) (hs : r.1.sender = σ.b.sender) : Base message (σ.afterB r) :=
  { h with
    hearsA := h.hearsA.congr rfl hline
    hearsB := h.hearsB.congr hline rfl
    senderB := by
      change r.1.sender.state = .idle
      rw [hs, h.senderB] }

/-- `b`, which sends no message, does in a tick what its receiver does. -/
theorem tickB_eq (hs : σ.b.sender.state = .idle)
    (hr : σ.b.tickReceiver transmit (σ.ba, refusals) nowUs = (l, port, .none)) (hl : l.sender = σ.b.sender) :
    σ.b.tick transmit (σ.ba, refusals) nowUs = (l, port, .none) := by
  unfold tick
  rw [hr]
  exact tickSender_idle (by rw [hl, hs])

theorem tickB_inv (h : Inv message σ) (refusals : List Bool) (ht : NotExpired σ.b nowUs) :
    Inv message (σ.afterB (σ.b.tick transmit (σ.ba, refusals) nowUs)) := by
  rcases h with ⟨hb, hp⟩ | hg
  swap
  · exact .inr ⟨hg.state, hg.unsent⟩
  -- nothing is due unless a flow control frame is
  have nothing (hr : σ.b.tickReceiver transmit (σ.ba, refusals) nowUs = (σ.b, (σ.ba, refusals), .none)) :
      Inv message (σ.afterB (σ.b.tick transmit (σ.ba, refusals) nowUs)) := by
    rw [tickB_eq hb.senderB hr rfl, afterB_same]
    exact .inl ⟨hb, hp⟩
  have idle (hi : σ.b.receiver.state = .idle) : Inv message (σ.afterB (σ.b.tick transmit (σ.ba, refusals) nowUs)) :=
    nothing (tickReceiver_idle hi _ _)
  have waits (hr : σ.b.Receiving message) (hpending : σ.b.receiver.flowControlPending = false) :
      Inv message (σ.afterB (σ.b.tick transmit (σ.ba, refusals) nowUs)) :=
    nothing (tickReceiver_waiting hr.state hpending (ht.2 hr.state hpending) _)
  cases hp with
  | start _ _ _ hi => exact idle hi
  | single _ _ _ _ hi => exact idle hi
  | first _ _ _ _ _ _ hi => exact idle hi
  | done _ hi => exact idle hi
  | granted hw hpending => exact waits hw.receiving hpending
  | flowing hr hpending => exact waits hr hpending
  | pending hw hpending hab hba hra hrb =>
    have hr := hw.receiving
    have htick := tickReceiver_pending transmit hr.state hpending (σ.ba, refusals) nowUs
    by_cases hdue : nowUs < σ.b.receiver.flowControlDueUs
    · rw [if_pos hdue] at htick
      exact nothing htick
    rw [if_neg hdue] at htick
    cases htx : (transmit (σ.ba, refusals) (σ.b.dataFrame (σ.b.flowControlData flowStatusContinue))).2 with
    | true =>
      rw [htx, if_pos rfl] at htick
      rw [tickB_eq hb.senderB htick rfl]
      refine .inl ⟨hb.afterB rfl rfl, .granted ⟨hw.state, { hr with }, hw.frames, hw.block⟩ rfl hab ?_ hra
        ((append_nil _).trans hrb)⟩
      exact (transmit_true htx).trans (by rw [hba]; rfl)
    | false =>
      rw [htx, if_neg (fun h => nomatch h)] at htick
      rw [tickB_eq hb.senderB htick rfl]
      refine .inl ⟨hb.afterB rfl rfl, .pending ⟨hw.state, { hr with }, hw.frames, hw.block⟩ hpending hab ?_ hra
        ((append_nil _).trans hrb)⟩
      exact (transmit_false htx).trans hba

/-! ### Deliveries -/

theorem deliverA_inv (h : Inv message σ) (nowUs : ℕ) (refusals : List Bool) :
    Inv message (step σ (.deliverA nowUs refusals)) := by
  rcases h with ⟨hb, hp⟩ | hg
  swap
  · unfold step
    dsimp only
    split
    · exact .inr hg
    · rename_i ba _
      have hg' : GivenUp { σ with ba } := ⟨hg.state, hg.unsent⟩
      exact .inr (hg'.afterA (onFrame_idle hg.state _))
  -- only a flow control frame comes this way
  have empty (hba : σ.ba = []) : Inv message (step σ (.deliverA nowUs refusals)) := by
    unfold step
    rw [hba]
    exact .inl ⟨hb, hp⟩
  cases hp with
  | start _ _ hba => exact empty hba
  | single _ _ _ hba => exact empty hba
  | first _ _ _ _ _ hba => exact empty hba
  | pending _ _ _ hba => exact empty hba
  | flowing _ _ _ _ hba => exact empty hba
  | done _ _ _ hba => exact empty hba
  | granted hw hpending hab hba hra hrb =>
    unfold step
    rw [hba]
    dsimp only
    rw [hb.hearsA.takes_flowControl hw.state]
    have hsane := hb.sane
    have hleft := hsane.left (.inl hw.state)
    refine .inl ⟨⟨?_, ?_, hb.exact.congr rfl, ⟨hsane.room, fun _ => hleft⟩, hb.message_eq, hb.some_bytes,
      hb.not_too_many, hb.receiverA, hb.senderB⟩, .flowing hw.receiving hpending ?_ ?_ rfl ?_ hrb⟩
    · exact hb.hearsA.congr rfl rfl
    · exact hb.hearsB.congr rfl rfl
    · change σ.ab ++ (σ.a.granted σ.b.parameters.blockSize σ.b.parameters.stMin nowUs).remaining
        = (σ.a.granted σ.b.parameters.blockSize σ.b.parameters.stMin nowUs).framesFrom σ.b.receiver.sequence
          σ.b.receiver.message.length
      have hframes : (σ.a.granted σ.b.parameters.blockSize σ.b.parameters.stMin nowUs).framesFrom = σ.a.framesFrom :=
        framesFrom_congr rfl rfl
      rw [remaining_granted hw.state, hframes, hab, hw.frames]
      rfl
    · change Block σ.b.parameters.blockSize .consecutiveFrames (decide (σ.b.parameters.blockSize ≠ 0)) _ σ.ab.length
        σ.b.receiver.blockReceived
      rw [hab, hw.block]
      exact Block.granted _
    · exact (append_nil _).trans hra

/-- Nothing is left to send only when the sender is idle. -/
theorem idle_of_remaining (hb : Base message σ) (hs : σ.a.sender.state ≠ .firstFrame) (hr : σ.a.remaining = []) :
    σ.a.sender.state = .idle := by
  have stuck (hf : σ.a.framesFrom σ.a.sender.sequence σ.a.sender.offset = [])
      (hleft : σ.a.sender.offset < σ.a.sender.message.length) : False :=
    Nat.not_le.mpr hleft ((framesFrom_eq_nil hb.sane.capacity_pos).mp hf)
  cases hstate : σ.a.sender.state with
  | idle => rfl
  | firstFrame => exact absurd hstate hs
  | flowControl => exact (stuck (remaining_flowControl hstate ▸ hr) (hb.sane.left (.inl hstate))).elim
  | consecutiveFrames => exact (stuck (remaining_consecutiveFrames hstate ▸ hr) (hb.sane.left (.inr hstate))).elim

theorem completed_inv {ab : List FrameMessage} (hb : Base message σ)
    (hr : σ.b.Receiving message) (hs : σ.a.sender.state ≠ .firstFrame)
    (hrest : ab ++ σ.a.remaining = σ.a.framesFrom ((σ.b.receiver.sequence + 1) &&& 0x0F)
      (σ.b.receiver.message.length + σ.a.consecutiveFrameCapacity))
    (hend : σ.a.sender.message.length ≤ σ.b.receiver.message.length + σ.a.consecutiveFrameCapacity)
    (hba : σ.ba = []) (hra : σ.reportsA = if σ.a.sender.state = .idle then [.sent] else []) (hrb : σ.reportsB = []) :
    Inv message ({ σ with ab }.afterB (σ.b.completed (σ.a.pieceFor σ.b), (σ.ba, refusals), .message)) := by
  rw [framesFrom_of_le hend, append_eq_nil_iff] at hrest
  obtain ⟨rfl, hremaining⟩ := hrest
  have hidle := idle_of_remaining hb hs hremaining
  have hr' : σ.b.Receiving σ.a.sender.message := by
    rw [hb.message_eq]
    exact hr
  have hbase : Base message { σ with ab := [] } := { hb with }
  refine .inl ⟨hbase.afterB rfl rfl, .done hidle rfl rfl hba ?_ ?_⟩
  · change σ.reportsA = _
    rw [hra, if_pos hidle]
  · change σ.reportsB ++ [.message (σ.b.receiver.message ++ σ.a.pieceFor σ.b) σ.b.receiver.length] = _
    rw [hrb, hr'.bytes_joined, take_of_length_le hend, hb.message_eq, hr.length]
    rfl

theorem continued_inv {ab : List FrameMessage}
    (hb : Base message σ) (hr : σ.b.Receiving message) (hpending : σ.b.receiver.flowControlPending = false)
    (hab : σ.ab = f :: ab)
    (hrest : ab ++ σ.a.remaining = σ.a.framesFrom ((σ.b.receiver.sequence + 1) &&& 0x0F)
      (σ.b.receiver.message.length + σ.a.consecutiveFrameCapacity))
    (hend : σ.b.receiver.message.length + σ.a.consecutiveFrameCapacity < σ.a.sender.message.length)
    (hblock : Counts σ) (hba : σ.ba = []) (hra : σ.reportsA = if σ.a.sender.state = .idle then [.sent] else [])
    (hrb : σ.reportsB = []) :
    Inv message ({ σ with ab }.afterB (σ.b.continued (σ.a.pieceFor σ.b) nowUs, (σ.ba, refusals), .none)) := by
  have hmessage := hb.message_eq
  have hr' : σ.b.Receiving σ.a.sender.message := by
    rw [hmessage]
    exact hr
  have hplace : (σ.b.receiver.message ++ σ.a.pieceFor σ.b).length
      = σ.b.receiver.message.length + σ.a.consecutiveFrameCapacity := by
    rw [hr'.bytes_joined, length_take]
    omega
  have hjoined : { σ.b with receiver := σ.b.joined (σ.a.pieceFor σ.b) }.Receiving message := by
    refine ⟨hr.state, hr.length, ?_, ?_, ?_⟩
    · change σ.b.receiver.message ++ σ.a.pieceFor σ.b = message.take (σ.b.receiver.message ++ σ.a.pieceFor σ.b).length
      rw [hplace, hr'.bytes_joined, hmessage]
    · change (σ.b.receiver.message ++ σ.a.pieceFor σ.b).length < message.length
      rw [hplace, ← hmessage]
      exact hend
    · change ((σ.b.receiver.sequence + 1) &&& 0x0F).toNat < 16
      rw [UInt8.toNat_and]
      exact Nat.lt_of_le_of_lt Nat.and_le_right (by decide)
  have hcounts : Block σ.b.parameters.blockSize σ.a.sender.state σ.a.sender.blockLimited σ.a.sender.blockRemaining
      (ab.length + 1) σ.b.receiver.blockReceived := by
    unfold Counts at hblock
    rw [hab] at hblock
    exact hblock
  have hbase : Base message { σ with ab } := { hb with }
  have hrb' : σ.reportsB ++ [] = [] := (append_nil _).trans hrb
  rw [← hplace] at hrest
  unfold continued
  by_cases hblockEnd : σ.b.parameters.blockSize ≠ 0
      ∧ σ.b.receiver.blockReceived + 1 = σ.b.parameters.blockSize.toNat
  · rw [if_pos hblockEnd]
    obtain ⟨hlength, hstate⟩ := hcounts.receiveAtEnd hblockEnd
    obtain rfl := length_eq_zero_iff.mp hlength
    have hflow : σ.a.sender.state = .flowControl := by
      refine hstate.resolve_right fun hidle => ?_
      rw [remaining_idle hidle, append_nil] at hrest
      have := (framesFrom_eq_nil hb.sane.capacity_pos).mp hrest.symm
      omega
    have hra' : σ.reportsA = [] := by
      rw [hra, hflow]
      rfl
    exact .inl ⟨hbase.afterB rfl rfl, .pending ⟨hflow, { hjoined with }, hrest, rfl⟩ rfl rfl hba hra' hrb'⟩
  · rw [if_neg hblockEnd]
    exact .inl ⟨hbase.afterB rfl rfl, .flowing { hjoined with } hpending hrest (hcounts.receive hblockEnd) hba hra
      hrb'⟩

theorem deliverB_inv (h : Inv message σ) (nowUs : ℕ) (refusals : List Bool) :
    Inv message (step σ (.deliverB nowUs refusals)) := by
  rcases h with ⟨hb, hp⟩ | hg
  swap
  · unfold step
    dsimp only
    split
    · exact .inr hg
    · exact .inr ⟨hg.state, hg.unsent⟩
  have empty (hab : σ.ab = []) : Inv message (step σ (.deliverB nowUs refusals)) := by
    unfold step
    rw [hab]
    exact .inl ⟨hb, hp⟩
  have hmessage := hb.message_eq
  have hlast : Base message { σ with ab := [] } := { hb with }
  cases hp with
  | start _ hab => exact empty hab
  | pending _ _ hab => exact empty hab
  | granted _ _ hab => exact empty hab
  | done _ _ hab => exact empty hab
  | single hs hsingle hab hba hi hra hrb =>
    unfold step
    rw [hab]
    dsimp only
    rw [hb.hearsB.takes_singleFrame hb.exact.txDataLength_le (by rw [hmessage]; exact hb.some_bytes) hsingle]
    refine .inl ⟨hlast.afterB rfl rfl, .done hs rfl rfl hba hra ?_⟩
    rw [hrb, hmessage]
    rfl
  | first hs hsingle hoffset hsequence hab hba hi hra hrb =>
    have hlt := firstFrameCapacity_lt hsingle
    have hhead : (σ.a.sender.message.take σ.a.firstFrameCapacity).length = σ.a.firstFrameCapacity := by
      rw [length_take]
      omega
    unfold step
    rw [hab]
    dsimp only
    have hfill := hb.exact.fill_nil (firstFrameData_length hb.sane.room hsingle)
    rw [hb.hearsB.takes_firstFrame hb.sane.room (by rw [hmessage]; exact hb.not_too_many) hsingle
      (by rw [hfill]; exact hlt), hfill, append_nil]
    refine .inl ⟨hlast.afterB rfl rfl, .pending ⟨hs, ⟨rfl, ?_, ?_, ?_, (by decide : (1 : UInt8).toNat < 16)⟩,
      ?_, rfl⟩ rfl rfl hba hra ((append_nil _).trans hrb)⟩
    · exact congrArg length hmessage
    · change σ.a.sender.message.take _ = message.take (σ.a.sender.message.take _).length
      rw [hhead, hmessage]
    · change (σ.a.sender.message.take _).length < message.length
      rw [hhead, ← hmessage]
      exact hlt
    · change σ.a.remaining = σ.a.framesFrom 1 (σ.a.sender.message.take _).length
      rw [remaining_flowControl hs, hhead, hoffset, hsequence]
  | flowing hr hpending hframes hblock hba hra hrb =>
    cases hab : σ.ab with
    | nil => exact empty hab
    | cons f ab =>
      have hlt : σ.b.receiver.message.length < σ.a.sender.message.length := by
        rw [hmessage]
        exact hr.left
      rw [hab, framesFrom_of_lt hb.sane.capacity_pos hlt, cons_append, cons.injEq] at hframes
      obtain ⟨rfl, hrest⟩ := hframes
      unfold step
      rw [hab]
      change Inv message (System.afterB _ (σ.b.onFrame transmit (σ.ba, refusals) (σ.a.frameFor σ.b) nowUs))
      rw [hb.hearsB.takes_consecutiveFrame hb.sane.room hb.exact (by rw [hmessage]; exact hr) hpending]
      by_cases hend : σ.a.sender.message.length ≤ σ.b.receiver.message.length + σ.a.consecutiveFrameCapacity
      · rw [if_pos hend]
        exact completed_inv hb hr hblock.begun hrest hend hba hra hrb
      · rw [if_neg hend]
        exact continued_inv hb hr hpending hab hrest (Nat.lt_of_not_le hend) hblock hba hra hrb

/-! ### Whole runs -/

theorem step_inv (e : Event) (h : Inv message σ) (he : InTime σ e) : Inv message (step σ e) := by
  cases e with
  | tickA nowUs refusals => exact tickA_inv h refusals he
  | tickB nowUs refusals => exact tickB_inv h refusals he
  | deliverA nowUs refusals => exact deliverA_inv h nowUs refusals
  | deliverB nowUs refusals => exact deliverB_inv h nowUs refusals

/-- **The phase after any schedule in time.** -/
theorem run_inv {es : List Event} (hes : Along step InTime σ es) (h : Inv message σ) :
    Inv message (run step σ es) :=
  hes.invariant (fun _ e hs he => step_inv e hs he) h

theorem Inv.faithful (h : Inv message σ) : Faithful message σ := by
  intro hsent hab hba
  rcases h with ⟨hb, hp⟩ | hg
  swap
  · exact absurd hsent hg.unsent
  cases hp with
  | start _ _ _ _ hra => rw [hra] at hsent; cases hsent
  | single _ _ hab' => rw [hab'] at hab; cases hab
  | first _ _ _ _ hab' => rw [hab'] at hab; cases hab
  | pending _ _ _ _ hra => rw [hra] at hsent; cases hsent
  | granted _ _ _ hba' => rw [hba'] at hba; cases hba
  | flowing hr _ hframes _ _ hra =>
    -- all sent and nothing in the queue: then nothing would be missing
    have hidle : σ.a.sender.state = .idle := by
      by_contra hne
      rw [hra, if_neg hne] at hsent
      cases hsent
    rw [hab, remaining_idle hidle, append_nil] at hframes
    have hnone := (framesFrom_eq_nil hb.sane.capacity_pos).mp hframes.symm
    have hleft := hr.left
    rw [hb.message_eq] at hnone
    omega
  | done _ _ _ _ hra hrb =>
    rw [hra, hrb]
    refine ⟨rfl, ?_, ?_⟩ <;> simp

/-- Two links opened with each other's ids and address bytes. -/
structure Mirrored (requestA requestB : UInt32) (parametersA parametersB : TxnIsotpParameters) : Prop where
  idA : parametersB.responseId = requestA
  idB : parametersA.responseId = requestB
  addressing : parametersA.flags &&& txnIsotpFlagAddressByte = parametersB.flags &&& txnIsotpFlagAddressByte
  addressA : parametersA.flags &&& txnIsotpFlagAddressByte ≠ 0 → parametersB.rxAddress = parametersA.txAddress
  addressB : parametersA.flags &&& txnIsotpFlagAddressByte ≠ 0 → parametersA.rxAddress = parametersB.txAddress

/-- The full frame of a link has a length that CAN frames can have. -/
def FitsFrame (p : TxnIsotpParameters) : Prop :=
  p.flags &&& txnIsotpFlagFd ≠ 0 → p.txDataLength.toNat ∈ [8, 12, 16, 20, 24, 32, 48, 64]

instance (p : TxnIsotpParameters) : Decidable (FitsFrame p) := inferInstanceAs (Decidable (_ → _))

/-- Who opens which link how: what `IsotpLink_Open` is called with on either side, whatever the links did before. -/
structure Ends where
  beforeA : IsotpLink := {}
  beforeB : IsotpLink := {}
  requestA : UInt32
  requestB : UInt32
  channelA : UInt8 := 0
  channelB : UInt8 := 0
  parametersA : TxnIsotpParameters
  parametersB : TxnIsotpParameters

/-- `b` is open, and `a` has just been given the message. -/
def Ends.start (e : Ends) (message : List UInt8) (nowUs : ℕ) : System :=
  { a := (e.beforeA.openLink e.requestA e.channelA e.parametersA).send message nowUs
    b := e.beforeB.openLink e.requestB e.channelB e.parametersB }

variable {ends : Ends}

theorem addressSize_of_flags :
    l.addressSize = if l.parameters.flags &&& txnIsotpFlagAddressByte = 0 then 0 else 1 := by
  unfold addressSize hasFlag
  by_cases h : l.parameters.flags &&& txnIsotpFlagAddressByte = 0
  · simp [h]
  · simp [h]

/-- Links opened so hear each other. -/
theorem Mirrored.hears {a b : IsotpLink} (h : Mirrored a.requestId b.requestId a.parameters b.parameters) :
    Hears b a ∧ Hears a b := by
  have hsize : b.addressSize = a.addressSize := by
    rw [addressSize_of_flags, addressSize_of_flags, h.addressing]
  have hflag (hpos : 0 < a.addressSize) : a.parameters.flags &&& txnIsotpFlagAddressByte ≠ 0 := by
    intro h0
    rw [addressSize_of_flags, if_pos h0] at hpos
    cases hpos
  refine ⟨⟨h.idA, hsize, fun hpos => h.addressA (hflag hpos)⟩, ⟨h.idB, hsize.symm, fun hpos => ?_⟩⟩
  exact h.addressB (hflag (hsize ▸ hpos))

theorem start_inv (h : Mirrored ends.requestA ends.requestB ends.parametersA ends.parametersB)
    (hroom : classicFrameSize ≤ (ends.start message nowUs).a.txDataLength)
    (hexact : (ends.start message nowUs).a.Exact) (hsome : 0 < message.length)
    (hmax : message.length ≤ txnIsotpMessageSizeMax) : Inv message (ends.start message nowUs) := by
  obtain ⟨hearsB, hearsA⟩ := Mirrored.hears (a := (ends.start message nowUs).a) (b := (ends.start message nowUs).b) h
  refine .inl ⟨⟨hearsA, hearsB, hexact, ⟨hroom, ?_⟩, rfl, hsome, hmax, rfl, rfl⟩, .start rfl rfl rfl rfl rfl rfl⟩
  rintro (hs | hs) <;> cases hs

/-! ### The data lengths that work -/

/-- The lengths up to 64 that frames can have are those a full frame is not filled up from. -/
private theorem fdFrameLengths_exact : ∀ n ≤ 64, 8 < n →
    ((fdFrameLengths.find? (n ≤ ·)).getD framePayloadMaxFd = n ↔ n ∈ [8, 12, 16, 20, 24, 32, 48, 64]) := by
  decide

/-- A length between two of them is filled up, by less than half a frame. -/
private theorem fdFrameLengths_fill : ∀ n ≤ 64, 8 < n → n ∉ [8, 12, 16, 20, 24, 32, 48, 64] →
    n < (fdFrameLengths.find? (n ≤ ·)).getD framePayloadMaxFd
      ∧ (fdFrameLengths.find? (n ≤ ·)).getD framePayloadMaxFd + 3 ≤ 2 * n := by
  decide

theorem frameLength_eight (l : IsotpLink) : l.frameLength 8 = 8 := by
  unfold frameLength
  rw [if_pos le_rfl]
  split <;> rfl

theorem frameLength_long (l : IsotpLink) {n : ℕ} (h : 8 < n) :
    l.frameLength n = (fdFrameLengths.find? (n ≤ ·)).getD framePayloadMaxFd := by
  unfold frameLength
  exact if_neg (Nat.not_le.mpr h)

theorem fitsFrame_iff : FitsFrame l.parameters ↔ l.txDataLength ∈ [8, 12, 16, 20, 24, 32, 48, 64] := by
  unfold FitsFrame
  by_cases hfd : l.parameters.flags &&& txnIsotpFlagFd = 0
  · have height := txDataLength_classic hfd
    simp [hfd, height]
  · have hlength : l.txDataLength = l.parameters.txDataLength.toNat := if_pos (bne_iff_ne.mpr hfd)
    rw [hlength]
    exact ⟨fun hf => hf hfd, fun hm _ => hm⟩

theorem exact_iff (h : l.parameters.isIsotpDataLengthValid = true) :
    l.Exact ↔ FitsFrame l.parameters := by
  obtain ⟨hmin, hmax⟩ := txDataLength_bounds h
  rw [fitsFrame_iff]
  unfold Exact
  rcases Nat.eq_or_lt_of_le hmin with heq | hlt
  · rw [← heq, frameLength_eight]
    decide
  · rw [frameLength_long l hlt]
    exact fdFrameLengths_exact _ hmax hlt

/-! ### A data length that frames cannot have

The first frame is then filled up and `b` takes the fill for bytes of the
message. With a message one byte longer than what it takes, the consecutive
frame that follows completes a message with bytes that are not `a`'s. -/

/-- A tick of a link that receives nothing and does not wait for flow control sends what is due. -/
theorem tick_sends {port : List FrameMessage × List Bool} (hs : l.sender.state ≠ .flowControl)
    (hr : l.receiver.state = .idle) : l.tick transmit port 0 = sendDue transmit 0 (63 + 1) l port := by
  unfold tick
  rw [tickReceiver_idle hr]
  exact if_neg hs

/-- A port that takes everything, for a tick of `a` behind the first frame. -/
theorem tick_first {q : List FrameMessage} (hs : l.sender.state = .firstFrame)
    (hn : l.sender.nextFrameUs = 0) (hr : l.receiver.state = .idle) (hsingle : ¬l.IsSingle) :
    l.tick transmit (q, []) 0 = (l.awaitingFlowControl 0, (q ++ [l.dataFrame l.firstFrameData], []), .none) := by
  have hfirst : l.sendFirstFrame transmit (q, []) 0
      = (l.awaitingFlowControl 0, (q ++ [l.dataFrame l.firstFrameData], []), .none) := if_neg hsingle
  have hrest : sendDue transmit 0 63 (l.awaitingFlowControl 0) (q ++ [l.dataFrame l.firstFrameData], [])
      = (l.awaitingFlowControl 0, (q ++ [l.dataFrame l.firstFrameData], []), .none) := by
    unfold sendDue
    split <;> rfl
  rw [tick_sends (by simp [hs]) hr]
  unfold sendDue
  rw [hn, if_neg (Nat.lt_irrefl 0), hs]
  rw [hfirst]
  exact hrest

/-- The same for a tick that sends the last consecutive frame. -/
theorem tick_last {q : List FrameMessage} (hs : l.sender.state = .consecutiveFrames)
    (hn : l.sender.nextFrameUs = 0) (hr : l.receiver.state = .idle)
    (hlast : l.sender.offset + l.consecutiveFrameSize = l.sender.message.length) :
    l.tick transmit (q, []) 0
      = (l.advanced 0 .idle l.sender.blockRemaining, (q ++ [l.dataFrame l.consecutiveFrameData], []), .sent) := by
  have hafter : l.afterConsecutiveFrame 0 = (l.advanced 0 .idle l.sender.blockRemaining, .sent) := if_pos hlast
  have hsend : l.sendConsecutiveFrame transmit (q, []) 0
      = (l.advanced 0 .idle l.sender.blockRemaining, (q ++ [l.dataFrame l.consecutiveFrameData], []), .sent) := by
    change ((l.afterConsecutiveFrame 0).1, _, (l.afterConsecutiveFrame 0).2) = _
    rw [hafter]
  rw [tick_sends (by simp [hs]) hr]
  unfold sendDue
  rw [hn, if_neg (Nat.lt_irrefl 0), hs]
  rw [hsend]
  rfl

/-- A message of bytes that are not fill, one longer than what the filled up first frame brings. -/
def longerThanFirst (a : IsotpLink) : List UInt8 :=
  replicate (a.frameLength a.txDataLength - a.addressSize - 1) (a.parameters.padding + 1)

/-- First frame, flow control, consecutive frame. -/
def threeFrames : List Event :=
  [.tickA 0 [], .deliverB 0 [], .tickB 0 [], .deliverA 0 [], .tickA 0 [], .deliverB 0 []]

section Spoiled

variable {a b : IsotpLink}

/-- What the lengths of a filled up first frame come to. -/
theorem spoiled_lengths (hroom : classicFrameSize ≤ a.txDataLength) (hmax : a.frameLength a.txDataLength ≤ 64)
    (hfill : a.txDataLength < a.frameLength a.txDataLength)
    (hhalf : a.frameLength a.txDataLength + 3 ≤ 2 * a.txDataLength) (hm : a.sender.message = longerThanFirst a) :
    ¬a.IsSingle ∧ (a.fill a.firstFrameData).length = a.frameLength a.txDataLength - a.txDataLength
      ∧ a.sender.message.length = a.firstFrameCapacity + (a.fill a.firstFrameData).length + 1
      ∧ a.sender.message.length - a.firstFrameCapacity ≤ a.consecutiveFrameCapacity
      ∧ a.sender.message.length ≤ txnIsotpMessageSizeMax := by
  have haddress := a.addressSize_le
  have hlength : a.sender.message.length = a.frameLength a.txDataLength - a.addressSize - 1 := by
    rw [hm]
    exact length_replicate
  simp only [classicFrameSize] at hroom
  have hsingle : ¬a.IsSingle := by
    unfold IsSingle classicSingleFrameCapacity escapeSingleFrameCapacity
    simp only [classicFrameSize, singleFrameHeaderSize, escapeSingleFrameHeaderSize]
    split <;> omega
  have hdata := firstFrameData_length hroom hsingle
  have hlen : (a.fill a.firstFrameData).length = a.frameLength a.txDataLength - a.txDataLength := by
    unfold fill
    rw [length_replicate, hdata]
  refine ⟨hsingle, hlen, ?_, ?_, ?_⟩
  · unfold firstFrameCapacity
    simp only [firstFrameHeaderSize]
    omega
  · unfold firstFrameCapacity consecutiveFrameCapacity
    simp only [firstFrameHeaderSize, consecutiveFrameHeaderSize]
    omega
  · simp only [txnIsotpMessageSizeMax]
    omega

/-- Fill is no byte of the message. -/
theorem spoiled_bytes {head : ℕ} {rest : List UInt8} (hm : a.sender.message = longerThanFirst a)
    (hfill : a.fill a.firstFrameData ≠ []) :
    a.sender.message.take head ++ a.fill a.firstFrameData ++ rest ≠ a.sender.message := by
  intro heq
  obtain ⟨x, hx⟩ := exists_mem_of_ne_nil _ hfill
  have hpadding : x = a.parameters.padding := eq_of_mem_replicate hx
  have hmem : x ∈ a.sender.message := by
    rw [← heq]
    exact mem_append_left _ (mem_append_right _ hx)
  rw [hm] at hmem
  have hnext : x = a.parameters.padding + 1 := eq_of_mem_replicate hmem
  rw [hpadding] at hnext
  have := congrArg UInt8.toNat hnext
  rw [UInt8.toNat_add] at this
  have hlt := a.parameters.padding.toNat_lt
  simp only [UInt8.toNat_one] at this
  omega

/-- `b` behind the first frame, and behind its flow control. -/
def firstTaken (a b : IsotpLink) : IsotpLink :=
  b.started a.sender.message.length (a.sender.message.take a.firstFrameCapacity ++ a.fill a.firstFrameData) 0

def firstAnswered (a b : IsotpLink) : IsotpLink := (firstTaken a b).answered 0

/-- `a` let go on. -/
def letGo (a b : IsotpLink) : IsotpLink :=
  (a.awaitingFlowControl 0).granted b.parameters.blockSize b.parameters.stMin 0

/-- The rest of the message. -/
def restOf (a : IsotpLink) : List UInt8 := a.sender.message.drop a.firstFrameCapacity

/-- The first frame is answered and `a` may go on. -/
theorem spoiled_first (hB : Hears b a) (hA : Hears a b) (hs : a.sender.state = .firstFrame)
    (hn : a.sender.nextFrameUs = 0) (hra : a.receiver.state = .idle) (hsb : b.sender.state = .idle)
    (hroom : classicFrameSize ≤ a.txDataLength) (hsingle : ¬a.IsSingle)
    (hmore : a.firstFrameCapacity + (a.fill a.firstFrameData).length < a.sender.message.length)
    (hshort : a.sender.message.length ≤ txnIsotpMessageSizeMax) :
    Along step InTime { a, b } (threeFrames.take 4)
      ∧ run step { a, b } (threeFrames.take 4) = { a := letGo a b, b := firstAnswered a b } := by
  have hA1 : Hears (a.awaitingFlowControl 0) (firstTaken a b) := hA.congr rfl rfl
  have h1 : step { a, b } (.tickA 0 [])
      = { a := a.awaitingFlowControl 0, b, ab := [a.dataFrame a.firstFrameData] } := by
    change System.afterA { a, b } (a.tick transmit ([], []) 0) = _
    rw [tick_first hs hn hra hsingle]
    rfl
  have h2 : step { a := a.awaitingFlowControl 0, b, ab := [a.dataFrame a.firstFrameData] } (.deliverB 0 [])
      = { a := a.awaitingFlowControl 0, b := firstTaken a b } := by
    change System.afterB { a := a.awaitingFlowControl 0, b }
      (b.onFrame transmit ([], []) (a.dataFrame a.firstFrameData) 0) = _
    rw [hB.takes_firstFrame hroom hshort hsingle hmore]
    rfl
  have h3 : step { a := a.awaitingFlowControl 0, b := firstTaken a b } (.tickB 0 [])
      = { a := a.awaitingFlowControl 0, b := firstAnswered a b
          ba := [(firstTaken a b).dataFrame ((firstTaken a b).flowControlData flowStatusContinue)] } := by
    change System.afterB { a := a.awaitingFlowControl 0, b := firstTaken a b }
      ((firstTaken a b).tick transmit ([], []) 0) = _
    have hanswer : (firstTaken a b).tickReceiver transmit ([], []) 0 = (firstAnswered a b,
        ([(firstTaken a b).dataFrame ((firstTaken a b).flowControlData flowStatusContinue)], []), .none) :=
      tickReceiver_pending transmit rfl rfl _ _
    have hidle : (firstAnswered a b).sender.state = .idle := hsb
    unfold tick
    rw [hanswer]
    dsimp only
    rw [if_neg (fun h => h rfl), tickSender_idle hidle]
    rfl
  have h4 : step { a := a.awaitingFlowControl 0, b := firstAnswered a b
                   ba := [(firstTaken a b).dataFrame ((firstTaken a b).flowControlData flowStatusContinue)] }
      (.deliverA 0 []) = { a := letGo a b, b := firstAnswered a b } := by
    change System.afterA { a := a.awaitingFlowControl 0, b := firstAnswered a b } ((a.awaitingFlowControl 0).onFrame
      transmit ([], []) ((firstTaken a b).dataFrame ((firstTaken a b).flowControlData flowStatusContinue)) 0) = _
    rw [hA1.takes_flowControl rfl]
    rfl
  constructor
  · refine ⟨⟨fun h => ?_, fun h => ?_⟩, trivial, ?_⟩
    · rw [hs] at h
      cases h
    · rw [hra] at h
      cases h
    rw [h1, h2]
    refine ⟨⟨fun h => ?_, fun _ h => nomatch h⟩, trivial, trivial⟩
    rw [show (firstTaken a b).sender.state = .idle from hsb] at h
    cases h
  · change step (step (step (step { a, b } (.tickA 0 [])) (.deliverB 0 [])) (.tickB 0 [])) (.deliverA 0 []) = _
    rw [h1, h2, h3, h4]

/-- The last consecutive frame completes the message. -/
theorem spoiled_last (hB : Hears b a) (hra : a.receiver.state = .idle)
    (hlength : a.sender.message.length = a.firstFrameCapacity + (a.fill a.firstFrameData).length + 1)
    (hlast : a.sender.message.length - a.firstFrameCapacity ≤ a.consecutiveFrameCapacity) :
    Along step InTime { a := letGo a b, b := firstAnswered a b } (threeFrames.drop 4)
      ∧ ∃ l l', run step { a := letGo a b, b := firstAnswered a b } (threeFrames.drop 4)
        = { a := l, b := l', reportsA := [.sent]
            reportsB := [.message ((firstTaken a b).receiver.message ++ (restOf a).take 1) a.sender.message.length] } := by
  have hB2 : Hears (firstAnswered a b) (letGo a b) := hB.congr rfl rfl
  have hsize : (letGo a b).consecutiveFrameSize = a.sender.message.length - a.firstFrameCapacity :=
    Nat.min_eq_left hlast
  have hdata : (letGo a b).consecutiveFrameData = (pciConsecutiveFrame <<< 4 ||| 1) :: restOf a := by
    change _ :: take (letGo a b).consecutiveFrameSize (restOf a) = _
    rw [hsize, take_of_length_le (by unfold restOf; rw [length_drop])]
    rfl
  have hrest : (restOf a).length = a.sender.message.length - a.firstFrameCapacity := length_drop
  have htaken : (firstAnswered a b).receiver.message.length
      = a.firstFrameCapacity + (a.fill a.firstFrameData).length := by
    change (a.sender.message.take a.firstFrameCapacity ++ a.fill a.firstFrameData).length = _
    rw [length_append, length_take]
    omega
  have h5 : step { a := letGo a b, b := firstAnswered a b } (.tickA 0 [])
      = { a := (letGo a b).advanced 0 .idle (letGo a b).sender.blockRemaining, b := firstAnswered a b
          ab := [(letGo a b).dataFrame ((pciConsecutiveFrame <<< 4 ||| 1) :: restOf a)], reportsA := [.sent] } := by
    change System.afterA { a := letGo a b, b := firstAnswered a b } ((letGo a b).tick transmit ([], []) 0) = _
    have hend : (letGo a b).sender.offset + (letGo a b).consecutiveFrameSize = (letGo a b).sender.message.length := by
      rw [hsize]
      change a.firstFrameCapacity + (a.sender.message.length - a.firstFrameCapacity) = a.sender.message.length
      omega
    have htick : (letGo a b).tick transmit ([], []) 0 = _ := tick_last rfl rfl hra hend
    rw [htick, hdata]
    rfl
  have h6 : (firstAnswered a b).onFrame transmit ([], [])
        ((letGo a b).dataFrame ((pciConsecutiveFrame <<< 4 ||| 1) :: restOf a)) 0
      = ((firstAnswered a b).completed ((restOf a).take 1), ([], []), .message) := by
    have hone : min ((firstAnswered a b).receiver.length - (firstAnswered a b).receiver.message.length)
        (((letGo a b).dataFrame ((pciConsecutiveFrame <<< 4 ||| 1) :: restOf a)).payload.length
          - (firstAnswered a b).addressSize - consecutiveFrameHeaderSize) = 1 := by
      have hmissing : (firstAnswered a b).receiver.length - (firstAnswered a b).receiver.message.length = 1 := by
        rw [htaken]
        change a.sender.message.length - _ = 1
        omega
      rw [hmissing, payload_length, hB2.size, length_cons]
      simp only [consecutiveFrameHeaderSize]
      omega
    have htakes := hB2.takes_piece transmit rfl rfl (by decide : (1 : UInt8).toNat < 16) hone Nat.one_pos (by omega)
      ([], []) 0
    rw [if_pos (by rw [htaken]; exact hlength.symm)] at htakes
    exact htakes
  constructor
  · refine ⟨⟨(fun h => nomatch h), fun h => ?_⟩, trivial, trivial⟩
    rw [show (letGo a b).receiver.state = .idle from hra] at h
    cases h
  · refine ⟨(letGo a b).advanced 0 .idle (letGo a b).sender.blockRemaining,
      (firstAnswered a b).completed ((restOf a).take 1), ?_⟩
    change step (step _ (.tickA 0 [])) (.deliverB 0 []) = _
    rw [h5]
    change System.afterB { a := (letGo a b).advanced 0 .idle (letGo a b).sender.blockRemaining, b := firstAnswered a b
                           reportsA := [.sent] } ((firstAnswered a b).onFrame transmit ([], []) _ 0) = _
    rw [h6]
    rfl

/-- **A message is spoiled by the fill of its first frame.** -/
theorem spoiled (hB : Hears b a) (hA : Hears a b) (hs : a.sender.state = .firstFrame) (hn : a.sender.nextFrameUs = 0)
    (hra : a.receiver.state = .idle) (hsb : b.sender.state = .idle) (hroom : classicFrameSize ≤ a.txDataLength)
    (hmax : a.frameLength a.txDataLength ≤ 64) (hfill : a.txDataLength < a.frameLength a.txDataLength)
    (hhalf : a.frameLength a.txDataLength + 3 ≤ 2 * a.txDataLength) (hm : a.sender.message = longerThanFirst a) :
    Along step InTime { a, b } threeFrames ∧ ¬Faithful a.sender.message (run step { a, b } threeFrames) := by
  obtain ⟨hsingle, hlen, hlength, hlast, hshort⟩ := spoiled_lengths hroom hmax hfill hhalf hm
  obtain ⟨halong, hrun⟩ := spoiled_first hB hA hs hn hra hsb hroom hsingle (by omega) hshort
  obtain ⟨halong', l, l', hrun'⟩ := spoiled_last hB hra hlength hlast
  have hsplit : threeFrames = threeFrames.take 4 ++ threeFrames.drop 4 := rfl
  rw [hsplit, Along.append, run_append, hrun, hrun']
  refine ⟨⟨halong, halong'⟩, fun hf => ?_⟩
  obtain ⟨hreports, -, -⟩ := hf (mem_singleton.mpr rfl) rfl rfl
  have hbytes : (firstTaken a b).receiver.message ++ (restOf a).take 1 = a.sender.message := by
    injection hreports with hreport
    injection hreport
  refine spoiled_bytes hm ?_ hbytes
  rw [← length_pos_iff]
  omega

end Spoiled

/-! ### The round trip -/

/-- **The ISO-TP round trip.** Between two links opened with each other's ids and address bytes, `a`'s parameters
passing the agent's check and `b`'s being any, every message of 1 to 4095 bytes arrives as it was sent, in every
schedule in time, exactly when `a`'s full frame has a length that CAN frames can have. -/
theorem round_trip_iff (ends : Ends)
    (h : Mirrored ends.requestA ends.requestB ends.parametersA ends.parametersB)
    (hvalid : ends.parametersA.isIsotpDataLengthValid = true) :
    (∀ (message : List UInt8) (nowUs : ℕ) (es : List Event), 0 < message.length →
        message.length ≤ txnIsotpMessageSizeMax → Along step InTime (ends.start message nowUs) es →
        Faithful message (run step (ends.start message nowUs) es))
      ↔ FitsFrame ends.parametersA := by
  have hlengths (message : List UInt8) (nowUs : ℕ) := txDataLength_bounds (l := (ends.start message nowUs).a) hvalid
  have hiff (message : List UInt8) (nowUs : ℕ) := fitsFrame_iff (l := (ends.start message nowUs).a)
  constructor
  · intro hall
    by_contra hfits
    -- the message depends on the line only, so it can be read off a link that has none
    let l := (ends.start [] 0).a
    let message := longerThanFirst l
    let σ := ends.start message 0
    obtain ⟨hmin, hmax⟩ := hlengths message 0
    have hnot : σ.a.txDataLength ∉ [8, 12, 16, 20, 24, 32, 48, 64] := fun hm => hfits ((hiff message 0).mpr hm)
    have hlong : 8 < σ.a.txDataLength := by
      refine Nat.lt_of_le_of_ne hmin fun heq => hnot ?_
      rw [← heq]
      decide
    obtain ⟨hfill, hhalf⟩ := fdFrameLengths_fill _ hmax hlong hnot
    rw [← frameLength_long σ.a hlong] at hfill hhalf
    have hframe : σ.a.frameLength σ.a.txDataLength ≤ 64 := σ.a.frameLength_le _
    obtain ⟨hB, hA⟩ := Mirrored.hears (a := σ.a) (b := σ.b) h
    obtain ⟨hes, hspoiled⟩ := spoiled hB hA rfl rfl rfl rfl hmin hframe hfill hhalf rfl
    obtain ⟨hsingle, -, hlength, -, hshort⟩ := spoiled_lengths hmin hframe hfill hhalf (a := σ.a) rfl
    refine hspoiled (hall message 0 threeFrames ?_ hshort hes)
    change 0 < σ.a.sender.message.length
    omega
  · intro hfits message nowUs es hsome hshort hes
    obtain ⟨hmin, -⟩ := hlengths message nowUs
    have hexact : (ends.start message nowUs).a.Exact := (exact_iff hvalid).mpr hfits
    exact (run_inv hes (start_inv h hmin hexact hsome hshort)).faithful

/-- The parameters of a link on CAN FD with 8 bytes a frame, padded, blocks of two frames. -/
def eightBytes (responseId : UInt32) : TxnIsotpParameters :=
  { responseId, flags := txnIsotpFlagPadding ||| txnIsotpFlagFd, padding := 0xCC, txDataLength := 8, blockSize := 2 }

/-- And with 13 bytes a frame, which no CAN FD frame has. -/
def thirteenBytes (responseId : UInt32) : TxnIsotpParameters :=
  { eightBytes responseId with txDataLength := 13, blockSize := 0 }

def eightByteEnds : Ends :=
  { requestA := 0x7E0, requestB := 0x7E8, parametersA := eightBytes 0x7E8, parametersB := thirteenBytes 0x7E0 }

def thirteenByteEnds : Ends :=
  { requestA := 0x7E0, requestB := 0x7E8, parametersA := thirteenBytes 0x7E8, parametersB := thirteenBytes 0x7E0 }

theorem round_trip_eightBytes :
    Mirrored eightByteEnds.requestA eightByteEnds.requestB eightByteEnds.parametersA eightByteEnds.parametersB
      ∧ FitsFrame eightByteEnds.parametersA
      ∧ ∀ (message : List UInt8) (nowUs : ℕ) (es : List Event), 0 < message.length →
        message.length ≤ txnIsotpMessageSizeMax → Along step InTime (eightByteEnds.start message nowUs) es →
        Faithful message (run step (eightByteEnds.start message nowUs) es) := by
  have hmirrored : Mirrored eightByteEnds.requestA eightByteEnds.requestB eightByteEnds.parametersA
      eightByteEnds.parametersB := ⟨rfl, rfl, by decide, fun h => absurd rfl h, fun h => absurd rfl h⟩
  exact ⟨hmirrored, by decide, (round_trip_iff eightByteEnds hmirrored (by decide)).mpr (by decide)⟩

/-- **With 13 bytes a frame the check passes and a message of 15 bytes arrives as another one.** -/
theorem thirteenBytes_spoiled :
    thirteenByteEnds.parametersA.isIsotpDataLengthValid = true
      ∧ Mirrored thirteenByteEnds.requestA thirteenByteEnds.requestB thirteenByteEnds.parametersA
          thirteenByteEnds.parametersB
      ∧ Along step InTime (thirteenByteEnds.start (replicate 15 0xCD) 0) threeFrames
      ∧ ¬Faithful (replicate 15 0xCD) (run step (thirteenByteEnds.start (replicate 15 0xCD) 0) threeFrames) := by
  have hmirrored : Mirrored thirteenByteEnds.requestA thirteenByteEnds.requestB thirteenByteEnds.parametersA
      thirteenByteEnds.parametersB := ⟨rfl, rfl, by decide, fun h => absurd rfl h, fun h => absurd rfl h⟩
  obtain ⟨hB, hA⟩ := Mirrored.hears (a := (thirteenByteEnds.start (replicate 15 0xCD) 0).a)
    (b := (thirteenByteEnds.start (replicate 15 0xCD) 0).b) hmirrored
  exact ⟨by decide, hmirrored, spoiled hB hA rfl rfl rfl rfl (by decide) (by decide) (by decide) (by decide) rfl⟩

end RoundTrip
end CanHub
