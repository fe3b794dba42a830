/-
# The runner's books

Most of what the runner does (matching frames, timers, retries, flow control)
leaves alone what its peers count: the ring and its byte counters, the step it
has loaded, the templates, the sequence number, and what it reported. `Books`
is that part of the state. Each function of the runner leaves the books as they
are, ends the transaction (`Books.ended`), or makes one of a few entries; the
inductive `Move` lists what `runOnce` can enter, and what is proved about whole
runs is proved by cases on it.

`Ledger b done queue` ties the books to the records themselves: `done` are the
records released so far, `queue` those in the ring, and the counters are their
sizes modulo `2 ^ 32`.

Key theorems:
- `runOnce_move`: a step of the runner is a `Move` of its books.
- `Ledger.move`, `tick_ledger`: the ledger follows every move and every tick.
- `runSteps_rule`, `tick_rule`: what every move keeps, a tick keeps.
- `pushRecord_eq`, `pushRecords_ledger`: a batch within the window is taken, record by record.
-/
import CanHub.Agent.Runner
import CanHub.Agent.Traffic

namespace CanHub

open StepRecord RunnerOutput UInt32

def RunnerOutput.progress? : RunnerOutput → Option TxnProgressMessage
  | .progress p => some p
  | _ => none

def RunnerOutput.report? : RunnerOutput → Option TxnStatusMessage
  | .status m => some m
  | _ => none

/-- The part of the runner that frames and timers do not change. -/
structure Books where
  ring : StepRing
  templates : ℕ → TxnTemplateMessage
  definedTemplates : ℕ
  active : Bool
  txnId : UInt16
  channel : UInt8
  interfaceIndex : UInt8
  windowBytes : ℕ
  nextSeq : UInt32
  stepsEnded : Bool
  completedSteps : UInt32
  pushedBytes : UInt32
  consumedBytes : UInt32
  message : List UInt8
  step : TxnStep
  recordSize : ℕ
  phase : TransactionPhase
  progress : List TxnProgressMessage
  reports : List TxnStatusMessage

namespace Books

/-- The transaction ended with a status. -/
def ended (b : Books) (m : TxnStatusMessage) : Books :=
  { b with active := false, ring := b.ring.clear, reports := b.reports ++ [m] }

def withMessage (b : Books) (message : List UInt8) : Books := { b with message }

def inPhase (b : Books) (phase : TransactionPhase) : Books := { b with phase }

/-- A record is loaded, with the message gathered so far. -/
def loaded (b : Books) (step : TxnStep) (recordSize : ℕ) (message : List UInt8) : Books :=
  { b with step, recordSize, phase := .idle, message }

def released (b : Books) : Books :=
  { b with
    ring := b.ring.release b.recordSize
    consumedBytes := b.consumedBytes + ofNat b.recordSize }

def completed (b : Books) : Books :=
  { b.released with message := [], completedSteps := b.completedSteps + 1, phase := .idle }

def reported (b : Books) (p : TxnProgressMessage) : Books := { b with progress := b.progress ++ [p] }

/-- The books are as they were, or the transaction ended. -/
inductive Settled (b : Books) : Books → Prop
  | same : Settled b b
  | ended (m : TxnStatusMessage) : Settled b (b.ended m)

/-- What one step of the runner enters into the books. -/
inductive Move (b : Books) : Books → Prop
  /-- matching, waiting, retrying, or the end -/
  | settled {b' : Books} (h : Settled b b') : Move b b'
  /-- an incomplete message's record is gathered and released -/
  | gather {step : TxnStep} {size : ℕ} (hidle : b.phase = .idle) (hring : b.ring.peek ≠ [])
      (hdecode : (TxnStep.decode b.ring.peek).getD ({}, 0) = (step, size))
      (hmessage : step.isMessage) (hcontinued : step.isContinued) :
      Move b (b.loaded step size (b.message ++ step.payload)).released
  /-- the gathered message would be too long -/
  | oversize {step : TxnStep} {size : ℕ} (m : TxnStatusMessage) : Move b ((b.loaded step size b.message).ended m)
  /-- a step is loaded and waits or transmits -/
  | start {step : TxnStep} {size : ℕ} {phase : TransactionPhase} {b' : Books}
      (hidle : b.phase = .idle) (hring : b.ring.peek ≠ [])
      (hdecode : (TxnStep.decode b.ring.peek).getD ({}, 0) = (step, size))
      (hfinal : step.isMessage → step.isContinued = false)
      (hphase : phase = if step.isExpectOnly then .wait else .transmit)
      (h : Settled ((b.loaded step size (if step.isMessage then b.message ++ step.payload else b.message)).inPhase
        phase) b') : Move b b'
  /-- the step is transmitted and waits for its answer -/
  | wait (h : b.phase = .transmit) : Move b (b.inPhase .wait)
  | complete (h : b.phase ≠ .idle) : Move b b.completed

/-- What no step of the runner changes: only definitions and batches do, and a
tick's own report. -/
structure Fixed (b b' : Books) : Prop where
  templates : b'.templates = b.templates
  definedTemplates : b'.definedTemplates = b.definedTemplates
  txnId : b'.txnId = b.txnId
  channel : b'.channel = b.channel
  interfaceIndex : b'.interfaceIndex = b.interfaceIndex
  windowBytes : b'.windowBytes = b.windowBytes
  nextSeq : b'.nextSeq = b.nextSeq
  stepsEnded : b'.stepsEnded = b.stepsEnded
  pushedBytes : b'.pushedBytes = b.pushedBytes
  progress : b'.progress = b.progress

theorem Fixed.refl (b : Books) : Fixed b b := ⟨rfl, rfl, rfl, rfl, rfl, rfl, rfl, rfl, rfl, rfl⟩

theorem Fixed.trans {a b c : Books} (h : Fixed a b) (h' : Fixed b c) : Fixed a c :=
  ⟨h'.1.trans h.1, h'.2.trans h.2, h'.3.trans h.3, h'.4.trans h.4, h'.5.trans h.5, h'.6.trans h.6,
    h'.7.trans h.7, h'.8.trans h.8, h'.9.trans h.9, h'.10.trans h.10⟩

theorem Settled.fixed {b b' : Books} (h : Settled b b') : Fixed b b' := by
  cases h with
  | same => exact .refl b
  | ended m => exact ⟨rfl, rfl, rfl, rfl, rfl, rfl, rfl, rfl, rfl, rfl⟩

theorem Move.fixed {b b' : Books} (h : Move b b') : Fixed b b' := by
  cases h with
  | settled hs => exact hs.fixed
  | start _ _ _ _ _ hs =>
    have h := hs.fixed
    exact ⟨h.1, h.2, h.3, h.4, h.5, h.6, h.7, h.8, h.9, h.10⟩
  | _ => exact ⟨rfl, rfl, rfl, rfl, rfl, rfl, rfl, rfl, rfl, rfl⟩

end Books

/-- The frame of a step or of its link that the port took. -/
def RunnerOutput.stepFrame? : RunnerOutput → Option FrameMessage
  | .transmit .keepalive _ _ _ => none
  | .transmit _ _ f accepted => if accepted then some f else none
  | _ => none

namespace TransactionRunner

open Books

def stepFrames (s : TransactionRunner) : List FrameMessage := s.port.log.filterMap stepFrame?

def books (s : TransactionRunner) : Books where
  ring := s.ring
  templates := s.templates
  definedTemplates := s.definedTemplates
  active := s.active
  txnId := s.txnId
  channel := s.channel
  interfaceIndex := s.interfaceIndex
  windowBytes := s.windowBytes
  nextSeq := s.nextSeq
  stepsEnded := s.stepsEnded
  completedSteps := s.completedSteps
  pushedBytes := s.pushedBytes
  consumedBytes := s.consumedBytes
  message := s.message
  step := s.current.step
  recordSize := s.current.recordSize
  phase := s.current.phase
  progress := s.port.log.filterMap progress?
  reports := s.port.log.filterMap report?

variable (s : TransactionRunner)

@[simp] theorem books_active : s.books.active = s.active := rfl
@[simp] theorem books_phase : s.books.phase = s.current.phase := rfl
@[simp] theorem books_ring : s.books.ring = s.ring := rfl
@[simp] theorem books_step : s.books.step = s.current.step := rfl

/-! ### Functions that leave the books alone -/

@[simp] theorem transmitTracked_books (p : TxPurpose) (f : FrameMessage) (nowUs : ℕ) :
    (s.transmitTracked p f nowUs).1.books = s.books := by
  unfold transmitTracked
  dsimp only
  split <;> simp [books, progress?, report?]

theorem transmitTracked_eq (p : TxPurpose) (f : FrameMessage) (nowUs : ℕ) :
    ∃ port lastFrameUs, (s.transmitTracked p f nowUs).1 = { s with port, lastFrameUs } := by
  unfold transmitTracked
  dsimp only
  split <;> exact ⟨_, _, rfl⟩

variable (f : FrameMessage)

@[simp] theorem reportMissingRoster_books : s.reportMissingRoster.books = s.books := by
  unfold reportMissingRoster
  split <;> simp [books, emit, progress?, report?]

variable (nowUs : ℕ)

@[simp] theorem sendKeepaliveIfDue_books :
    (s.sendKeepaliveIfDue nowUs).books = s.books := by
  have h := s.transmitTracked_books .keepalive s.keepaliveFrame nowUs
  unfold sendKeepaliveIfDue
  split
  · rfl
  · dsimp only
    split
    · exact h
    · exact h

@[simp] theorem isotpTick_books : (s.isotpTick nowUs).1.books = s.books :=
  IsotpLink.tick_env (R := fun a b => b.books = a.books) (fun _ => rfl)
    (fun a b c (h : b.books = a.books) (h' : c.books = b.books) => h'.trans h)
    (fun e f => e.transmitTracked_books .isotp f e.lastTickUs) s.isotp s nowUs

@[simp] theorem isotpOnFrame_books :
    (s.isotpOnFrame f).1.books = s.books :=
  IsotpLink.onFrame_env (R := fun a b => b.books = a.books) (fun _ => rfl)
    (fun e f => e.transmitTracked_books .isotp f e.lastTickUs) s.isotp s f s.lastTickUs

/-- The link touches nothing of the runner but the port and the time of the last frame. -/
theorem isotpOnFrame_eq :
    ∃ port lastFrameUs isotp, (s.isotpOnFrame f).1 = { s with port, lastFrameUs, isotp } := by
  obtain ⟨port, lastFrameUs, h⟩ := IsotpLink.onFrame_env
    (R := fun a b => ∃ port lastFrameUs, b = ({ a with port, lastFrameUs } : TransactionRunner))
    (fun e => ⟨e.port, e.lastFrameUs, rfl⟩) (fun e f => e.transmitTracked_eq .isotp f e.lastTickUs)
    s.isotp s f s.lastTickUs
  change (s.isotp.onFrame transmitIsotpFrame s f s.lastTickUs).2.1 = _ at h
  exact ⟨port, lastFrameUs, (s.isotp.onFrame transmitIsotpFrame s f s.lastTickUs).1, by
    unfold isotpOnFrame
    dsimp only
    rw [h]⟩

@[simp] theorem openIsotp_books : s.openIsotp.books = s.books := by
  unfold openIsotp
  split <;> rfl

@[simp] theorem startMessage_books :
    (s.startMessage nowUs).books = s.books := by
  unfold startMessage
  split <;> rfl

@[simp] theorem armTransmit_books :
    (s.armTransmit nowUs).books = s.books := by
  unfold armTransmit
  split <;> rfl

@[simp] theorem applyExtension_books :
    (s.applyExtension nowUs).books = s.books := by
  unfold applyExtension
  split <;> rfl

/-! ### Ending -/

@[simp] theorem finish_books (m : TxnStatusMessage) :
    (s.finish m).books = s.books.ended m := by
  simp [finish, emit, books, Books.ended, progress?, report?]

theorem abortWith_settled (reason : TxnReason) (seq : UInt32) :
    Settled s.books (s.abortWith reason seq).books := by
  rw [abortWith, finish_books]
  exact .ended _

/-! ### Frames -/

@[simp] theorem transmitKeepalive_stepFrames :
    (s.transmitTracked .keepalive f nowUs).1.stepFrames = s.stepFrames := by
  unfold transmitTracked
  dsimp only
  split <;> simp [stepFrames, stepFrame?]

/-- The frames of the work and its link are as they were. -/
structure Unmoved (s s' : TransactionRunner) : Prop where
  started : s'.current.messageStarted = s.current.messageStarted
  frames : s'.stepFrames = s.stepFrames
  line : s'.isotp.line = s.isotp.line
  link : s.isotp.Sane → s'.isotp.Sane ∧ s'.isotp.remaining = s.isotp.remaining

/-- Nothing that the work depends on has changed, and nothing else in the books. -/
structure Stays (s s' : TransactionRunner) : Prop extends Unmoved s s' where
  books : s'.books = s.books

theorem Stays.refl : Stays s s := ⟨⟨rfl, rfl, rfl, fun h => ⟨h, rfl⟩⟩, rfl⟩

theorem Stays.trans {s s' s'' : TransactionRunner} (h : Stays s s') (h' : Stays s' s'') : Stays s s'' := by
  refine ⟨⟨h'.started.trans h.started, h'.frames.trans h.frames, h'.line.trans h.line, ?_⟩, h'.books.trans h.books⟩
  intro hsane
  obtain ⟨hsane', hr⟩ := h.link hsane
  obtain ⟨hsane'', hr'⟩ := h'.link hsane'
  exact ⟨hsane'', hr'.trans hr⟩

/-- Where the link is left alone. -/
theorem Stays.of_isotp {s s' : TransactionRunner} (hb : s'.books = s.books)
    (hs : s'.current.messageStarted = s.current.messageStarted) (hf : s'.stepFrames = s.stepFrames)
    (hl : s'.isotp = s.isotp) : Stays s s' := by
  refine ⟨⟨hs, hf, congrArg IsotpLink.line hl, ?_⟩, hb⟩
  rw [hl]
  exact fun h => ⟨h, rfl⟩

/-- The transaction ended, and not with DONE. -/
def Aborted (b b' : Books) : Prop := ∃ m, b' = b.ended m ∧ m.state = TxnState.aborted.code

theorem abortWith_aborted (reason : TxnReason) (seq : UInt32) :
    Aborted s.books (s.abortWith reason seq).books := ⟨_, s.finish_books _, rfl⟩

theorem abortOnFrame_aborted (reason : TxnReason) (f : FrameMessage) (expected got : UInt64) :
    Aborted s.books (s.abortOnFrame reason f expected got).books := ⟨_, (s.keepRxFrame f).finish_books _, rfl⟩

theorem Aborted.inactive {s : TransactionRunner} {b : Books} (h : Aborted b s.books) : s.active = false := by
  obtain ⟨m, hb, -⟩ := h
  rw [← books_active, hb]
  rfl

variable {s} in
theorem Stays.settled {s' : TransactionRunner} (h : Stays s s' ∨ Aborted s.books s'.books) : Settled s.books s'.books := by
  rcases h with h | ⟨m, h, -⟩
  · rw [h.books]
    exact .same
  · rw [h]
    exact .ended m

theorem recordRosterAnswer_stays : Stays s (s.recordRosterAnswer f) := by
  unfold recordRosterAnswer
  split
  · exact .refl s
  · dsimp only
    split
    · exact .refl s
    · exact .of_isotp rfl rfl rfl rfl

theorem matchFrame_stays :
    Stays s (s.matchFrame f) ∨ Aborted s.books (s.matchFrame f).books := by
  unfold matchFrame
  dsimp only
  split
  · exact .inl (.of_isotp rfl rfl rfl rfl)
  split
  · exact .inr (s.abortOnFrame_aborted _ f _ _)
  split
  · unfold matchAdvance
    dsimp only
    split
    · exact .inl (.refl s)
    split
    · refine .inl ?_
      unfold recordAnswer
      dsimp only
      have hkeep : Stays s (s.keepRxFrame f) := .of_isotp rfl rfl rfl rfl
      split
      · exact hkeep.trans (recordRosterAnswer_stays _ f)
      · exact .of_isotp rfl rfl rfl rfl
    split
    · exact .inr (s.abortOnFrame_aborted _ f _ _)
    · exact .inl (.refl s)
  · exact .inl (.refl s)

theorem isotpOnFrame_stays :
    (s.isotpOnFrame f).2 = .failed ∨ Stays s (s.isotpOnFrame f).1 := by
  rcases IsotpLink.onFrame_traffic transmitIsotpFrame s.isotp s f s.lastTickUs with h | ⟨henv, hlink⟩
  · exact .inl h
  · refine .inr ?_
    have heq : (s.isotpOnFrame f).1
        = { s with isotp := (s.isotp.onFrame transmitIsotpFrame s f s.lastTickUs).1 } := by
      unfold isotpOnFrame
      dsimp only
      rw [henv]
    rw [heq]
    exact ⟨⟨rfl, rfl, IsotpLink.onFrame_line transmitIsotpFrame s.isotp s f s.lastTickUs, hlink⟩, rfl⟩

theorem dispatchFrame_stays :
    Stays s (s.dispatchFrame f) ∨ Aborted s.books (s.dispatchFrame f).books := by
  unfold dispatchFrame
  split
  · have hlink := s.isotpOnFrame_stays f
    have hbooks := s.isotpOnFrame_books f
    unfold feedIsotp
    generalize s.isotpOnFrame f = r at hlink hbooks
    obtain ⟨s', event⟩ := r
    dsimp only at hlink hbooks ⊢
    rw [← hbooks]
    split
    · exact .inr (s'.abortWith_aborted _ _)
    rename_i hne
    have hstays := hlink.resolve_left hne
    split
    · exact .inl hstays
    · exact (s'.matchFrame_stays _).imp_left hstays.trans
  split
  · exact s.matchFrame_stays f
  · exact .inl (.refl s)

theorem replay_stays : ∀ (fs : List FrameMessage) (s : TransactionRunner),
    Stays s (s.replay fs) ∨ Aborted s.books (s.replay fs).books
  | [], s => .inl (.refl s)
  | f :: fs, s => by
    unfold replay
    split
    · rcases s.dispatchFrame_stays f with h | h
      · have ih := replay_stays fs (s.dispatchFrame f)
        rw [h.books] at ih
        exact ih.imp_left h.trans
      · -- an ended transaction replays nothing more
        have hstop : (s.dispatchFrame f).replay fs = s.dispatchFrame f := by
          cases fs with
          | nil => rfl
          | cons f' fs => simp [replay, h.inactive]
        rw [hstop]
        exact .inr h
    · exact .inl (.refl s)

theorem replayEarlyFrames_stays :
    Stays s s.replayEarlyFrames ∨ Aborted s.books s.replayEarlyFrames.books :=
  (replay_stays s.earlyFrames { s with earlyFrames := [] }).imp_left
    fun h => ⟨⟨h.started, h.frames, h.line, h.link⟩, h.books⟩

theorem onFrame_stays (i : UInt8) (f : FrameMessage) :
    Stays s (s.onFrame i f) ∨ Aborted s.books (s.onFrame i f).books := by
  unfold onFrame
  split
  · exact .inl (.refl s)
  split
  · refine .inl ?_
    unfold keepEarlyFrame
    split
    · exact .refl s
    · exact .of_isotp rfl rfl rfl rfl
  · exact s.dispatchFrame_stays f

theorem onFrame_settled (i : UInt8) (f : FrameMessage) : Settled s.books (s.onFrame i f).books :=
  Stays.settled (s.onFrame_stays i f)

/-! ### Steps -/

theorem waitForSteps_stays :
    Stays s (s.waitForSteps nowUs) ∨ Aborted s.books (s.waitForSteps nowUs).books := by
  have harm : Stays s (s.armStarvation nowUs) := by
    unfold armStarvation
    split
    · exact .of_isotp rfl rfl rfl rfl
    · exact .refl s
  unfold waitForSteps
  generalize s.armStarvation nowUs = s' at harm
  dsimp only
  rw [← harm.books]
  split
  · exact .inr (s'.abortWith_aborted _ _)
  · refine .inl (harm.trans ?_)
    have hbooks := s'.sendKeepaliveIfDue_books nowUs
    have hframes := s'.transmitKeepalive_stepFrames s'.keepaliveFrame nowUs
    obtain ⟨port, lastFrameUs, heq⟩ := s'.transmitTracked_eq .keepalive s'.keepaliveFrame nowUs
    unfold sendKeepaliveIfDue at hbooks ⊢
    generalize s'.transmitTracked .keepalive s'.keepaliveFrame nowUs = r at hframes heq hbooks
    obtain ⟨s'', accepted⟩ := r
    subst heq
    split
    · exact .refl s'
    · cases accepted with
      | true => exact .of_isotp (by simpa [*] using hbooks) rfl hframes rfl
      | false => exact .of_isotp (by simpa [*] using hbooks) rfl hframes rfl

theorem waitForSteps_settled : Settled s.books (s.waitForSteps nowUs).books :=
  Stays.settled (s.waitForSteps_stays nowUs)

@[simp] theorem completeStep_books : s.completeStep.books = s.books.completed := by
  have h := s.reportMissingRoster_books
  show { s.reportMissingRoster.books.released with
    message := [], completedSteps := s.reportMissingRoster.books.completedSteps + 1, phase := .idle } = _
  rw [h]
  rfl

theorem extendMessage_books (p : List UInt8) :
    (s.extendMessage p).books = s.books.withMessage (s.message ++ p) := rfl

theorem releaseRecord_books : s.releaseRecord.books = s.books.released := rfl

/-- The rest of loading a step: it waits (and meets the frames kept early) or transmits. -/
theorem startStep_settled :
    Settled (s.books.inPhase (if s.books.step.isExpectOnly then .wait else .transmit))
      (s.startStep nowUs).1.books := by
  rw [← s.openIsotp_books]
  unfold startStep
  dsimp only
  rw [books_step]
  split
  · exact Stays.settled (s.openIsotp.startWait nowUs).replayEarlyFrames_stays
  · exact .same

theorem loadRecord_books {s : TransactionRunner} {step : TxnStep} {size : ℕ}
    (h : (TxnStep.decode s.ring.peek).getD ({}, 0) = (step, size)) :
    (s.loadRecord s.ring.peek).books = s.books.loaded step size s.message := by
  unfold loadRecord
  rw [h]
  rfl

/-- Gathering a loaded message record: it is too long, it is not the last, or the step can start. -/
theorem gatherMessage_books :
    (∃ m, (s.gatherMessage).1.books = s.books.ended m ∧ s.gatherMessage.2 = false)
    ∨ (s.books.step.isContinued ∧ s.gatherMessage.2 = false
        ∧ s.gatherMessage.1.books = (s.books.withMessage (s.message ++ s.books.step.payload)).released)
    ∨ (s.books.step.isContinued = false ∧ s.gatherMessage.2 = true
        ∧ s.gatherMessage.1.books = s.books.withMessage (s.message ++ s.books.step.payload)) := by
  unfold gatherMessage
  dsimp only
  split
  · left
    simp only [abortWith, finish_books]
    exact ⟨_, rfl, trivial⟩
  · right
    rw [books_step]
    cases hc : s.current.step.isContinued with
    | true => exact .inl ⟨rfl, rfl, rfl⟩
    | false => exact .inr ⟨rfl, rfl, rfl⟩

theorem loadNextStep_move (hidle : s.current.phase = .idle) :
    Move s.books (s.loadNextStep nowUs).1.books := by
  unfold loadNextStep
  dsimp only
  split
  · rw [finishDone, finish_books]
    exact .settled (.ended _)
  split
  · exact .settled (s.waitForSteps_settled nowUs)
  rename_i havail
  have hring : s.ring.peek ≠ [] := fun h => havail (by rw [h]; rfl)
  generalize hdecode : (TxnStep.decode s.ring.peek).getD ({}, 0) = sd
  obtain ⟨step, size⟩ := sd
  have hlb := loadRecord_books hdecode
  generalize s.loadRecord s.ring.peek = l at hlb
  have hmsg : l.message = s.message := congrArg Books.message hlb
  have hstep : l.books.step = step := by rw [hlb]; rfl
  rw [← books_step, hstep]
  split
  · rename_i hmessage
    rcases l.gatherMessage_books with ⟨m, hb, hr⟩ | ⟨hc, hr, hb⟩ | ⟨hc, hr, hb⟩
    · rw [hr]
      simp only [Bool.not_false, if_true, hb, hlb]
      exact .oversize m
    · rw [hr]
      rw [hstep] at hc hb
      simp only [Bool.not_false, if_true, hb, hlb, hmsg]
      exact .gather hidle hring hdecode hmessage hc
    · rw [hr]
      rw [hstep] at hc hb
      simp only [Bool.not_true, Bool.false_eq_true, if_false]
      have h := l.gatherMessage.1.startStep_settled nowUs
      rw [hb, hlb, hmsg] at h
      refine .start hidle hring hdecode (fun _ => hc) rfl ?_
      rw [if_pos hmessage]
      exact h
  · rename_i hmessage
    have h := l.startStep_settled nowUs
    rw [hlb] at h
    refine .start hidle hring hdecode (fun hm => absurd hm hmessage) rfl ?_
    rw [if_neg hmessage]
    exact h

theorem finishTransmit_move (h : s.books.phase = .transmit) :
    Move s.books (s.finishTransmit nowUs).books := by
  unfold finishTransmit
  dsimp only
  split
  · rw [completeStep_books]
    exact .complete (by rw [h]; decide)
  · exact .wait h

theorem transmitStep_move (h : s.books.phase = .transmit) :
    Move s.books (s.transmitStep nowUs).1.books := by
  unfold transmitStep
  split
  · exact .settled .same
  split
  · unfold transmitMessage
    have hb : ((s.startMessage nowUs).isotpTick nowUs).1.books = s.books := by simp
    rw [← hb] at h ⊢
    dsimp only
    split
    · exact .settled (abortWith_settled _ _ _)
    split
    · exact .settled .same
    · exact finishTransmit_move _ nowUs h
  · dsimp only
    have hb : ((s.armTransmit nowUs).transmitTracked .step
        (stepFrame (s.armTransmit nowUs).channel (s.armTransmit nowUs).current.step) nowUs).1.books = s.books := by
      simp
    rw [← hb] at h ⊢
    split
    · exact finishTransmit_move _ nowUs h
    split
    · exact .settled (abortWith_settled _ _ _)
    · exact .settled .same

theorem settle_move (h : s.books.phase = .wait) :
    Move s.books (s.settle nowUs).1.books := by
  have hne : s.books.phase ≠ .idle := by rw [h]; decide
  unfold settle
  split
  · rw [completeStep_books]
    exact .complete hne
  dsimp only
  rw [← s.applyExtension_books nowUs] at hne ⊢
  split
  · exact .settled .same
  split
  · rw [completeStep_books]
    exact .complete hne
  · exact .settled (abortWith_settled _ _ _)

theorem settleWait_move (h : s.books.phase = .wait) :
    Move s.books (s.settleWait nowUs).1.books := by
  unfold settleWait tickIsotp
  split
  · dsimp only
    rw [← s.isotpTick_books nowUs] at h ⊢
    by_cases hf : (s.isotpTick nowUs).2 = .failed
    · simp only [hf, ne_eq, not_true_eq_false, if_false, Bool.not_false, if_true]
      exact .settled (abortWith_settled _ _ _)
    · simp only [ne_eq, hf, not_false_eq_true, if_true, Bool.not_true, Bool.false_eq_true, if_false]
      exact settle_move _ nowUs h
  · exact s.settle_move nowUs h

/-- **A step of the runner is a move of its books.** -/
theorem runOnce_move : Move s.books (s.runOnce nowUs).1.books := by
  unfold runOnce
  split
  · rename_i h
    exact s.loadNextStep_move nowUs h
  · rename_i h
    exact s.transmitStep_move nowUs h
  · rename_i h
    exact s.settleWait_move nowUs h

end TransactionRunner

/-! ### The ledger -/

/-- The number of steps a list of records makes: a message counts once, with its last record. -/
def stepCount (rs : List StepRecord) : ℕ := rs.countP fun r => !r.step.isContinued

@[simp] theorem stepCount_append (rs qs : List StepRecord) :
    stepCount (rs ++ qs) = stepCount rs + stepCount qs := by simp [stepCount]

theorem stepCount_final {r : StepRecord} (h : r.step.isContinued = false) : stepCount [r] = 1 := by
  simp [stepCount, h]

theorem stepCount_continued {r : StepRecord} (h : r.step.isContinued = true) : stepCount [r] = 0 := by
  simp [stepCount, h]

/-- The books agree with the records released (`done`) and held (`queue`). -/
structure Ledger (b : Books) (done queue : List StepRecord) : Prop where
  holds : b.active = true → b.ring.Holds queue
  pushed : b.pushedBytes = ofNat (total (done ++ queue))
  consumed : b.consumedBytes = ofNat (total done)
  bounded : total queue ≤ b.windowBytes
  room : b.windowBytes + txnStepRecordSizeMax = b.ring.capacity
  completed : b.completedSteps = ofNat (stepCount done)
  loaded : b.active = true → b.phase ≠ .idle → ∃ rec rest, queue = rec :: rest ∧ b.step = rec.step
    ∧ b.recordSize = rec.size ∧ rec.step.isContinued = false

namespace Ledger

open Books

variable {b b' : Books} {done queue : List StepRecord}

section

variable (h : Ledger b done queue)
include h

theorem ended (m : TxnStatusMessage) : Ledger (b.ended m) done queue where
  holds := fun ha => by cases ha
  pushed := h.pushed
  consumed := h.consumed
  bounded := h.bounded
  room := h.room
  completed := h.completed
  loaded := fun ha => by cases ha

theorem settled (hs : Settled b b') : Ledger b' done queue := by
  cases hs with
  | same => exact h
  | ended m => exact h.ended m

/-- What the ring offers is the oldest record of the queue. -/
theorem front (ha : b.active = true) (hring : b.ring.peek ≠ [])
    {step : TxnStep} {size : ℕ} (hd : (TxnStep.decode b.ring.peek).getD ({}, 0) = (step, size)) :
    ∃ rec rest, queue = rec :: rest ∧ step = rec.step ∧ size = rec.size := by
  have hh := h.holds ha
  cases queue with
  | nil => exact absurd (StepRing.peek_nil hh) hring
  | cons rec rest =>
    obtain ⟨t, ht⟩ := StepRing.peek_holds hh
    rw [ht, rec.decode_append] at hd
    cases hd
    exact ⟨rec, rest, rfl, rfl, rfl⟩

/-- A record is loaded: nothing of the books' balance changes. -/
theorem load (step : TxnStep) (size : ℕ) (message : List UInt8) :
    Ledger (b.loaded step size message) done queue where
  holds := h.holds
  pushed := h.pushed
  consumed := h.consumed
  bounded := h.bounded
  room := h.room
  completed := h.completed
  loaded := fun _ hp => absurd rfl hp

theorem inPhase (phase : TransactionPhase)
    (hl : b.active = true → ∃ rec rest, queue = rec :: rest ∧ b.step = rec.step
      ∧ b.recordSize = rec.size ∧ rec.step.isContinued = false) : Ledger (b.inPhase phase) done queue where
  holds := h.holds
  pushed := h.pushed
  consumed := h.consumed
  bounded := h.bounded
  room := h.room
  completed := h.completed
  loaded := fun ha _ => hl ha

end

variable {rest : List StepRecord} {rec : StepRecord}

section

variable (h : Ledger b done (rec :: rest))
include h

/-- Releasing the loaded record moves it from the queue to the released ones. -/
theorem release
    (ha : b.active = true) (hsize : b.recordSize = rec.size) :
    b.released.ring.Holds rest ∧ b.pushedBytes = ofNat (total (done ++ [rec] ++ rest))
      ∧ b.released.consumedBytes = ofNat (total (done ++ [rec])) ∧ total rest ≤ b.windowBytes
      ∧ b.windowBytes + txnStepRecordSizeMax = b.released.ring.capacity := by
  have hb := h.bounded
  refine ⟨?_, by simpa using h.pushed, ?_, ?_, ?_⟩
  · show (b.ring.release b.recordSize).Holds rest
    rw [hsize]
    exact StepRing.release_holds (h.holds ha)
  · show b.consumedBytes + ofNat b.recordSize = _
    rw [h.consumed, hsize]
    simp [ofNat_add]
  · rw [total_cons] at hb
    omega
  · show _ = (b.ring.release b.recordSize).capacity
    rw [StepRing.release_capacity]
    exact h.room

/-- A record of a message that goes on is gathered and released. -/
theorem gather (ha : b.active = true)
    (hcont : rec.step.isContinued = true) (message : List UInt8) :
    Ledger (b.loaded rec.step rec.size message).released (done ++ [rec]) rest := by
  obtain ⟨h1, h2, h3, h4, h5⟩ := (h.load rec.step rec.size message).release ha rfl
  refine ⟨fun _ => h1, h2, h3, h4, h5, ?_, fun _ hp => absurd rfl hp⟩
  rw [stepCount_append, stepCount_continued hcont]
  exact h.completed

/-- A step is loaded and waits or transmits. -/
theorem start
    (hfinal : rec.step.isContinued = false) (message : List UInt8) (phase : TransactionPhase) :
    Ledger ((b.loaded rec.step rec.size message).inPhase phase) done (rec :: rest) :=
  inPhase (h.load _ _ _) _ fun _ => ⟨rec, rest, rfl, rfl, rfl, hfinal⟩

/-- The loaded step is completed and its record released. -/
theorem complete (ha : b.active = true)
    (hsize : b.recordSize = rec.size) (hfinal : rec.step.isContinued = false) :
    Ledger b.completed (done ++ [rec]) rest := by
  obtain ⟨h1, h2, h3, h4, h5⟩ := h.release ha hsize
  refine ⟨fun _ => h1, h2, h3, h4, h5, ?_, fun _ hp => absurd rfl hp⟩
  show b.completedSteps + 1 = _
  rw [h.completed, stepCount_append, stepCount_final hfinal]
  simp [ofNat_add]

end

/-- **The ledger follows every move**: what leaves the queue joins the released records. -/
theorem move (h : Ledger b done queue) (ha : b.active = true) (hm : Move b b') :
    ∃ taken rest, queue = taken ++ rest ∧ Ledger b' (done ++ taken) rest := by
  cases hm with
  | settled hs => exact ⟨[], queue, rfl, by simpa using h.settled hs⟩
  | gather hidle hring hd hmsg hcont =>
    obtain ⟨rec, rest, rfl, rfl, rfl⟩ := h.front ha hring hd
    exact ⟨[rec], rest, rfl, h.gather ha hcont _⟩
  | oversize m => exact ⟨[], queue, rfl, by simpa using (h.load _ _ _).ended m⟩
  | start hidle hring hd hfinal hphase hs =>
    obtain ⟨rec, rest, rfl, rfl, rfl⟩ := h.front ha hring hd
    refine ⟨[], rec :: rest, rfl, ?_⟩
    rw [List.append_nil]
    refine settled (h.start ?_ _ _) hs
    cases hc : rec.step.isContinued with
    | false => rfl
    | true => exact absurd (hfinal (rec.valid.isMessage hc)) (by rw [hc]; decide)
  | wait hp => exact ⟨[], queue, rfl, by simpa using h.inPhase _ fun ha => h.loaded ha (by rw [hp]; decide)⟩
  | complete hp =>
    obtain ⟨rec, rest, rfl, hstep, hsize, hfinal⟩ := h.loaded ha hp
    exact ⟨[rec], rest, rfl, h.complete ha hsize hfinal⟩

/-- What is in flight between the counters is what the ring holds. -/
theorem inFlight (h : Ledger b done queue) (hcap : b.ring.capacity ≤ 2 ^ 32) :
    (b.pushedBytes - b.consumedBytes).toNat = total queue := by
  have hb := h.bounded
  have hr := h.room
  have hpos : 0 < txnStepRecordSizeMax := by decide
  rw [h.pushed, h.consumed, total_append, UInt32.ofNat_add, UInt32.add_comm, UInt32.add_sub_cancel,
    UInt32.toNat_ofNat']
  exact Nat.mod_eq_of_lt (by omega)

end Ledger

/-! ### Ticks and batches -/

namespace TransactionRunner

open Books

variable {s : TransactionRunner} {done queue : List StepRecord}

/-- What every step of the runner keeps, the steps of a tick keep. -/
theorem runSteps_rule {I : TransactionRunner → Prop} {nowUs : ℕ}
    (hstep : ∀ s, s.active = true → I s → I (s.runOnce nowUs).1) :
    ∀ (budget : ℕ) {s : TransactionRunner}, I s → I (runSteps nowUs budget s)
  | 0, _, h => h
  | budget + 1, s, h => by
    unfold runSteps
    cases ha : s.active with
    | false => exact h
    | true =>
      have hone := hstep s ha h
      simp only [Bool.not_true, Bool.false_eq_true, if_false]
      split
      · exact runSteps_rule hstep budget hone
      · exact hone

/-- A tick runs steps and, if the transaction goes on, flushes the progress. -/
theorem tick_rule {I J : TransactionRunner → Prop} {nowUs : ℕ}
    (hstep : ∀ s, s.active = true → I s → I (s.runOnce nowUs).1)
    (hover : ∀ s, s.active = false → I s → J s)
    (hflush : ∀ s, s.active = true → I s → J (s.flushProgress nowUs)) {s : TransactionRunner}
    (ha : s.active = true) (h : I (s.stampTick nowUs)) : J (s.tick nowUs) := by
  have hrun := runSteps_rule hstep transactionStepsPerTickMax h
  unfold tick
  rw [if_neg (by rw [ha]; decide)]
  generalize runSteps nowUs transactionStepsPerTickMax (s.stampTick nowUs) = t at hrun
  cases hactive : t.active with
  | false =>
    rw [if_neg (by rw [hactive]; decide)]
    exact hover t hactive hrun
  | true =>
    rw [if_pos hactive]
    exact hflush t hactive hrun

theorem tick_inactive {s : TransactionRunner} (ha : s.active = false) (nowUs : ℕ) : s.tick nowUs = s := by
  simp [tick, ha]

/-- The progress is reported, or at most the time of the next report is set. -/
theorem flushProgress_cases (s : TransactionRunner) (nowUs : ℕ) :
    (∃ reportDueUs, s.flushProgress nowUs = { s with reportDueUs }) ∨ s.flushProgress nowUs = s.reportProgress := by
  unfold flushProgress
  dsimp only
  split
  · exact .inl ⟨_, rfl⟩
  split
  · exact .inr rfl
  split
  · exact .inl ⟨_, rfl⟩
  split
  · exact .inr rfl
  · exact .inl ⟨_, rfl⟩

theorem reportProgress_books (s : TransactionRunner) : s.reportProgress.books
    = s.books.reported ⟨s.channel, s.txnId, s.completedSteps, s.consumedBytes⟩ := by
  simp [reportProgress, emit, books, Books.reported, progress?, report?]

/-- What an operation other than a batch leaves in the books: at most one
report, of everything released so far. -/
structure Ran (b b' : Books) (done : List StepRecord) : Prop where
  txnId : b'.txnId = b.txnId
  channel : b'.channel = b.channel
  windowBytes : b'.windowBytes = b.windowBytes
  nextSeq : b'.nextSeq = b.nextSeq
  stepsEnded : b'.stepsEnded = b.stepsEnded
  inactive : b.active = false → b'.active = false
  progress : b'.progress = b.progress
    ∨ ∃ p, b'.progress = b.progress ++ [p] ∧ p.txnId = b.txnId ∧ p.consumedBytes = ofNat (total done)

/-- **A tick keeps the ledger.** -/
theorem tick_ledger (nowUs : ℕ) (h : Ledger s.books done queue) :
    ∃ taken rest, queue = taken ++ rest ∧ Ledger (s.tick nowUs).books (done ++ taken) rest
      ∧ Ran s.books (s.tick nowUs).books (done ++ taken) := by
  cases ha : s.active with
  | false =>
    rw [tick_inactive ha]
    exact ⟨[], queue, rfl, by simpa using h, rfl, rfl, rfl, rfl, rfl, fun h => h, .inl rfl⟩
  | true =>
    refine tick_rule (I := fun t => ∃ taken rest, queue = taken ++ rest ∧ Ledger t.books (done ++ taken) rest
        ∧ Fixed s.books t.books)
      (J := fun t => ∃ taken rest, queue = taken ++ rest ∧ Ledger t.books (done ++ taken) rest
        ∧ Ran s.books t.books (done ++ taken)) ?_ ?_ ?_ ha ⟨[], queue, rfl, by rw [List.append_nil]; exact h, .refl _⟩
    · rintro t hactive ⟨taken, rest, rfl, hl, hf⟩
      have hm := t.runOnce_move nowUs
      obtain ⟨taken', rest', rfl, hl'⟩ := hl.move hactive hm
      exact ⟨taken ++ taken', rest', by simp, by simpa using hl', hf.trans hm.fixed⟩
    · rintro t hactive ⟨taken, rest, rfl, hl, hf⟩
      exact ⟨taken, rest, rfl, hl, hf.txnId, hf.channel, hf.windowBytes, hf.nextSeq, hf.stepsEnded,
        fun _ => hactive, .inl hf.progress⟩
    · rintro t - ⟨taken, rest, rfl, hl, hf⟩
      have hna : s.books.active = false → t.books.active = false := fun h0 => nomatch ha.symm.trans h0
      refine ⟨taken, rest, rfl, ?_⟩
      rcases t.flushProgress_cases nowUs with ⟨due, he⟩ | he
      · rw [he]
        exact ⟨hl, hf.txnId, hf.channel, hf.windowBytes, hf.nextSeq, hf.stepsEnded, hna, .inl hf.progress⟩
      · rw [he, reportProgress_books]
        refine ⟨⟨hl.1, hl.2, hl.3, hl.4, hl.5, hl.6, hl.7⟩, hf.txnId, hf.channel, hf.windowBytes, hf.nextSeq,
          hf.stepsEnded, hna, .inr ⟨⟨t.channel, t.txnId, t.completedSteps, t.consumedBytes⟩, ?_, hf.txnId, hl.consumed⟩⟩
        rw [Books.reported, hf.progress]

theorem ran_of_settled {b b' : Books} (h : Settled b b') (done : List StepRecord) : Ran b b' done := by
  cases h with
  | same => exact ⟨rfl, rfl, rfl, rfl, rfl, fun h => h, .inl rfl⟩
  | ended m => exact ⟨rfl, rfl, rfl, rfl, rfl, fun _ => rfl, .inl rfl⟩

variable (h : Ledger s.books done queue)
include h

theorem onFrame_ledger (i : UInt8) (f : FrameMessage) :
    Ledger (s.onFrame i f).books done queue ∧ Ran s.books (s.onFrame i f).books done :=
  ⟨h.settled (s.onFrame_settled i f), ran_of_settled (s.onFrame_settled i f) done⟩

theorem abort_ledger (txnId : UInt16) :
    Ledger (s.abort txnId).books done queue ∧ Ran s.books (s.abort txnId).books done := by
  have hs : Settled s.books (s.abort txnId).books := by
    unfold abort
    split
    · exact .same
    · exact s.abortWith_settled _ _
  exact ⟨h.settled hs, ran_of_settled hs done⟩

theorem defineRoster_ledger (r : TxnRosterMessage) :
    Ledger (s.defineRoster r).books done queue ∧ Ran s.books (s.defineRoster r).books done := by
  have hs : Settled s.books (s.defineRoster r).books := by
    unfold defineRoster
    split
    · exact .same
    split
    · exact s.abortWith_settled _ _
    · exact .same
  exact ⟨h.settled hs, ran_of_settled hs done⟩

theorem defineTemplate_ledger (t : TxnTemplateMessage) :
    Ledger (s.defineTemplate t).books done queue ∧ Ran s.books (s.defineTemplate t).books done := by
  unfold defineTemplate
  split
  · exact ⟨h, ran_of_settled .same done⟩
  split
  · exact ⟨h.settled (s.abortWith_settled _ _), ran_of_settled (s.abortWith_settled _ _) done⟩
  · exact ⟨⟨h.1, h.2, h.3, h.4, h.5, h.6, h.7⟩, rfl, rfl, rfl, rfl, rfl, fun h => h, .inl rfl⟩

omit h

/-- Whether the template a step names is defined and the step may run under it. -/
def Admits (b : Books) (step : TxnStep) : Prop :=
  b.definedTemplates.testBit step.templateId.toNat = true
    ∧ step.fitsTemplate (b.templates step.templateId.toNat) = true
    ∧ (step.isExpectOnly = true → (b.templates step.templateId.toNat).isWaitingMode = true)

instance (b : Books) (step : TxnStep) : Decidable (Admits b step) := inferInstanceAs (Decidable (_ ∧ _ ∧ (_ → _)))

/-- The ring that has taken the record, or the reason the transaction is aborted for. -/
def accept (b : Books) (step : TxnStep) (record : List UInt8) : Except TxnReason StepRing :=
  if ¬Admits b step then .error .invalidStep
  else if b.windowBytes < (b.pushedBytes - b.consumedBytes).toNat + record.length then .error .overrun
  else (b.ring.push record).elim (.error .overrun) .ok

theorem accept_ok {b : Books} {step : TxnStep} {record : List UInt8} {ring : StepRing}
    (h : accept b step record = .ok ring) :
    Admits b step ∧ (b.pushedBytes - b.consumedBytes).toNat + record.length ≤ b.windowBytes := by
  unfold accept at h
  split at h
  · cases h
  rename_i hadmits
  split at h
  · cases h
  · rename_i hroom
    exact ⟨not_not.mp hadmits, Nat.not_lt.mp hroom⟩

/-- **What `pushRecord` does is decided by the books.** -/
theorem pushRecord_eq (s : TransactionRunner) (step : TxnStep) (record : List UInt8) (seq : UInt32) :
    s.pushRecord step record seq
      = match accept s.books step record with
        | .error reason => (s.abortWith reason seq, false)
        | .ok ring => ({ s with ring, pushedBytes := s.pushedBytes + ofNat record.length }, true) := by
  have hadmits : Admits s.books step ↔ s.isTemplateDefined step.templateId = true
      ∧ step.fitsTemplate (s.templates step.templateId.toNat) = true
      ∧ (step.isExpectOnly = true → (s.templates step.templateId.toNat).isWaitingMode = true) := Iff.rfl
  unfold pushRecord accept
  dsimp only
  by_cases h : Admits s.books step
  · obtain ⟨hdefined, hfits, hwaits⟩ := hadmits.mp h
    have hmode : ¬(step.isExpectOnly = true ∧ (!(s.templates step.templateId.toNat).isWaitingMode) = true) := by
      rintro ⟨hexpect, hmode⟩
      rw [hwaits hexpect] at hmode
      cases hmode
    rw [if_neg (not_not.mpr h), hdefined, hfits, if_neg (fun h => nomatch h), if_neg (fun h => nomatch h), if_neg hmode]
    by_cases hroom : s.books.windowBytes < (s.books.pushedBytes - s.books.consumedBytes).toNat + record.length
    · rw [if_pos hroom]
      exact if_pos hroom
    · rw [if_neg hroom, books_ring]
      refine (if_neg hroom).trans ?_
      cases s.ring.push record <;> rfl
  · rw [if_pos h]
    split
    · rfl
    split
    · rfl
    split
    · rfl
    rename_i hdefined hfits hwaits
    refine absurd (hadmits.mpr ⟨by simpa using hdefined, by simpa using hfits, fun hexpect => ?_⟩) h
    by_contra hmode
    exact hwaits ⟨hexpect, by simpa using hmode⟩

/-- The books after a batch: records taken in order, all of them unless one
does not fit its template. -/
structure Pushed (b b' : Books) (rs taken : List StepRecord) (seq : UInt32) (isEnd : Bool) : Prop where
  txnId : b'.txnId = b.txnId
  channel : b'.channel = b.channel
  windowBytes : b'.windowBytes = b.windowBytes
  progress : b'.progress = b.progress
  outcome : (taken = rs ∧ b'.active = true ∧ b'.nextSeq = seq + ofNat (stepCount rs)
      ∧ b'.stepsEnded = isEnd ∧ b'.reports = b.reports)
    ∨ (b'.active = false ∧ (∃ m, b'.reports = b.reports ++ [m] ∧ m.reason = TxnReason.invalidStep.code)
      ∧ ∃ r ∈ rs, ¬ Admits b r.step)

/-- A record within the window is taken, or does not fit its template. -/
theorem pushRecord_ledger (h : Ledger s.books done queue) (ha : s.active = true)
    (hcap : s.ring.capacity ≤ 2 ^ 32) (rec : StepRecord) (hroom : total queue + rec.size ≤ s.windowBytes)
    (seq : UInt32) :
    ((s.pushRecord rec.step rec.bytes seq).2 = true
      ∧ Ledger (s.pushRecord rec.step rec.bytes seq).1.books done (queue ++ [rec])
      ∧ ∃ ring pushedBytes, (s.pushRecord rec.step rec.bytes seq).1 = { s with ring, pushedBytes })
    ∨ ((s.pushRecord rec.step rec.bytes seq).2 = false
      ∧ ¬ Admits s.books rec.step ∧ ∃ m, (s.pushRecord rec.step rec.bytes seq).1.books = s.books.ended m
        ∧ m.reason = TxnReason.invalidStep.code) := by
  have hfl : (s.books.pushedBytes - s.books.consumedBytes).toNat = total queue := h.inFlight hcap
  have hr : s.windowBytes + txnStepRecordSizeMax = s.ring.capacity := h.room
  obtain ⟨ring, hpush, hholds⟩ := StepRing.push_holds (h.holds ha) rec (by rw [books_ring]; omega)
  have haccept : accept s.books rec.step rec.bytes
      = if ¬Admits s.books rec.step then .error .invalidStep else .ok ring := by
    have hfits : ¬s.books.windowBytes < total queue + rec.bytes.length := Nat.not_lt.mpr hroom
    unfold accept
    rw [hfl, if_neg hfits, hpush]
    rfl
  rw [books_ring] at hpush
  rw [pushRecord_eq, haccept]
  by_cases hadmits : Admits s.books rec.step
  swap
  · rw [if_pos hadmits]
    exact .inr ⟨rfl, hadmits, _, s.finish_books _, rfl⟩
  rw [if_neg (not_not.mpr hadmits)]
  refine .inl ⟨rfl, ⟨fun _ => hholds, ?_, h.consumed, ?_, ?_, h.completed, fun hact hp => ?_⟩, ⟨_, _, rfl⟩⟩
  · show s.pushedBytes + UInt32.ofNat rec.size = _
    rw [show s.pushedBytes = _ from h.pushed]
    simp [UInt32.ofNat_add, UInt32.add_assoc]
  · show total (queue ++ [rec]) ≤ s.windowBytes
    simpa using hroom
  · show s.windowBytes + txnStepRecordSizeMax = ring.capacity
    rw [StepRing.push_capacity hpush]
    exact hr
  · obtain ⟨r0, rest, hq, h1, h2, h3⟩ := h.loaded hact hp
    exact ⟨r0, rest ++ [rec], by rw [hq]; rfl, h1, h2, h3⟩

/-- **A batch within the window is taken**, record by record. -/
theorem pushRecords_ledger (isEnd : Bool) : ∀ (rs : List StepRecord) {s : TransactionRunner}
    {queue : List StepRecord} (seq : UInt32), Ledger s.books done queue → s.active = true →
    s.ring.capacity ≤ 2 ^ 32 → total queue + total rs ≤ s.windowBytes →
    ∃ taken, taken <+: rs ∧ Ledger (s.pushRecords (flatten rs) seq isEnd rs.length).books done (queue ++ taken)
      ∧ Pushed s.books (s.pushRecords (flatten rs) seq isEnd rs.length).books rs taken seq isEnd
  | [], s, queue, seq, h, ha, _, _ => by
    refine ⟨[], List.prefix_rfl, ?_, rfl, rfl, rfl, rfl, .inl ⟨rfl, ha, ?_, rfl, rfl⟩⟩
    · rw [List.append_nil]
      exact ⟨h.1, h.2, h.3, h.4, h.5, h.6, h.7⟩
    · simp [pushRecords, books, stepCount]
  | r :: rs, s, queue, seq, h, ha, hcap, hroom => by
    rw [total_cons] at hroom
    have hdec : TxnStep.decode (flatten (r :: rs)) = some (r.step, r.size) := r.decode_append _
    have htake : (flatten (r :: rs)).take r.size = r.bytes := List.take_left' rfl
    have hdrop : (flatten (r :: rs)).drop r.size = flatten rs := List.drop_left' rfl
    rw [List.length_cons]
    unfold pushRecords
    rw [hdec]
    dsimp only
    rw [htake, hdrop]
    rcases pushRecord_ledger h ha hcap r (by omega) seq with ⟨ht, hl, ring, pushedBytes, hs⟩ | ⟨hf, hno, m, hm, hreason⟩
    · rw [ht]
      simp only [Bool.not_true, Bool.false_eq_true, if_false]
      rw [hs] at hl ⊢
      have hcap' : ring.capacity ≤ 2 ^ 32 := by
        have h1 : s.windowBytes + txnStepRecordSizeMax = ring.capacity := hl.room
        have h2 : s.windowBytes + txnStepRecordSizeMax = s.ring.capacity := h.room
        omega
      obtain ⟨taken, hpre, hl', hp⟩ := pushRecords_ledger isEnd rs (if r.step.isContinued then seq else seq + 1)
        hl ha hcap' (by simp; omega)
      refine ⟨r :: taken, by simpa using hpre, by simpa using hl', hp.txnId, hp.channel, hp.windowBytes,
        hp.progress, ?_⟩
      rcases hp.outcome with ⟨rfl, hact, hseq, hend, hrep⟩ | hend
      · refine .inl ⟨rfl, hact, ?_, hend, hrep⟩
        rw [hseq]
        cases hc : r.step.isContinued <;> simp [stepCount, hc, UInt32.ofNat_add, UInt32.add_assoc, UInt32.add_comm]
      · obtain ⟨hdead, hrep, q, hq, hno⟩ := hend
        exact .inr ⟨hdead, hrep, q, List.mem_cons_of_mem _ hq, hno⟩
    · rw [hf]
      simp only [Bool.not_false, if_true, hm]
      refine ⟨[], List.nil_prefix, ?_, rfl, rfl, rfl, rfl, .inr ⟨rfl, ⟨m, rfl, hreason⟩, r, List.mem_cons_self, hno⟩⟩
      rw [List.append_nil]
      exact h.ended m

end TransactionRunner
end CanHub
