/-
# How a transaction ends

Every way a transaction can end goes through `finish`, which hands one status to
the port; the agent encodes it and drops it without a trace when the encoder
refuses. The encoder refuses a status whose kept frame is longer than its flags
allow. Frames from the bus are never that; an answer reassembled by the ISO-TP
link is, once it is longer than 8 bytes, because `IsotpLink.messageFrame` sets no
CAN FD flag.

`Evidence` is what a status is made from: the kept frame, the frames kept early
and the statuses reported. `Sound` says that none of them is over-long; every
function of the runner keeps it as long as no long answer completes.

Key theorems:
- `tick_sound`, `onFrame_sound`: the runner's steps keep the evidence sound.
- `status_reported`: in a run without long ISO-TP answers, whatever ends a
  transaction reports one status, and the hub reads it.
-/
import CanHub.Agent.Books

namespace CanHub

open Wire List

/-! ### The answer a frame completes -/

namespace IsotpLink

/-- The length of the message a frame of the peer completes, if it completes one: a single
frame's own, or that of the message being reassembled. -/
def closingLength (l : IsotpLink) (f : FrameMessage) : ℕ :=
  if byteAt f.payload l.addressSize >>> 4 = pciSingleFrame then (l.singleFrameHeader f).2
  else if l.receiver.state = .consecutiveFrames ∧ !l.receiver.flowControlPending then l.receiver.length
  else 0

/-- The frame belongs to an answer longer than a classic frame. -/
def LongAnswer (l : IsotpLink) (f : FrameMessage) : Prop :=
  l.isFromPeer f = true ∧ classicFrameSize < l.closingLength f

/-- The link reassembles nothing it has already answered with flow control. -/
def Fresh (l : IsotpLink) : Prop := l.receiver.state = .consecutiveFrames → l.receiver.flowControlPending = true

variable {ε : Type} {tx : ε → FrameMessage → ε × Bool}

/-- A completed message has the length its frame closes. -/
theorem onFrame_message {l : IsotpLink} {env : ε} {f : FrameMessage} {nowUs : ℕ}
    (h : (l.onFrame tx env f nowUs).2.2 = .message) :
    l.isFromPeer f = true ∧ (l.onFrame tx env f nowUs).1.receiver.length = l.closingLength f := by
  obtain ⟨l', env', event, hr, heard⟩ := onFrame_heard tx l env f nowUs
  rw [hr] at h ⊢
  change event = .message at h
  cases heard with
  | completes receiver hpeer _ hlength =>
    refine ⟨hpeer, ?_⟩
    change receiver.length = _
    unfold closingLength
    split at hlength
    · rename_i hsingle
      rw [if_pos hsingle]
      exact hlength
    · rename_i hsingle
      rw [if_neg hsingle, if_pos (by simpa using hlength.1)]
      exact hlength.2
  | _ => cases h

/-- Frames at a link that has not sent flow control yet leave it so. -/
theorem Fresh.onFrame {l : IsotpLink} (h : l.Fresh) (env : ε) (f : FrameMessage) (nowUs : ℕ) :
    (l.onFrame tx env f nowUs).1.Fresh := by
  obtain ⟨l', env', event, hr, heard⟩ := onFrame_heard tx l env f nowUs
  rw [hr]
  cases heard with
  | failed _ _ hreceiver => exact fun hs => nomatch hreceiver.symm.trans hs
  | completes _ _ hidle => exact fun hs => nomatch hidle.symm.trans hs
  | receiving receiver hgoes =>
    refine fun _ => hgoes.resolve_right ?_
    rintro ⟨hs, hp⟩
    exact nomatch (h hs).symm.trans hp
  | _ => exact h

/-- A link that has sent no flow control can only be given a single frame's answer. -/
theorem Fresh.longAnswer {l l' : IsotpLink} (h : l.Fresh) (hp : l.parameters = l'.parameters) {f : FrameMessage}
    (hl : l.LongAnswer f) : l'.LongAnswer f := by
  have ha : l.addressSize = l'.addressSize := by unfold addressSize hasFlag; rw [hp]
  obtain ⟨hpeer, hlong⟩ := hl
  refine ⟨by simpa only [isFromPeer, ha, hp] using hpeer, ?_⟩
  unfold closingLength at hlong ⊢
  split at hlong
  · rename_i hsf
    rw [ha] at hsf
    rw [if_pos hsf]
    simpa only [singleFrameHeader, ha] using hlong
  · rw [if_neg ?_] at hlong
    · exact absurd hlong (by simp)
    · rintro ⟨hs, hf⟩
      rw [h hs] at hf
      cases hf

end IsotpLink

/-! ### The evidence -/

/-- What a status is made from. -/
structure Evidence where
  hasRxFrame : Bool
  rxFrame : TxnRxFrame
  early : List FrameMessage
  reports : List TxnStatusMessage

/-- Nothing kept or reported is longer than its flags allow, and the frames kept early are `P`. -/
structure Evidence.Sound (P : FrameMessage → Prop) (e : Evidence) : Prop where
  kept : e.hasRxFrame = true → FrameMessage.isPayloadLengthValid e.rxFrame.payload.length e.rxFrame.frameFlags
  early : ∀ f ∈ e.early, P f
  reports : ∀ m ∈ e.reports, m.encode.isSome

namespace TransactionRunner

def evidence (s : TransactionRunner) : Evidence where
  hasRxFrame := s.current.hasRxFrame
  rxFrame := s.current.rxFrame
  early := s.earlyFrames
  reports := s.books.reports

abbrev Sound (P : FrameMessage → Prop) (s : TransactionRunner) : Prop := s.evidence.Sound P

theorem evidence_eq {s t : TransactionRunner} (hc : t.current.hasRxFrame = s.current.hasRxFrame)
    (hr : t.current.rxFrame = s.current.rxFrame) (he : t.earlyFrames = s.earlyFrames)
    (hb : t.books.reports = s.books.reports) : t.evidence = s.evidence := by
  simp only [evidence, hc, hr, he, hb]

/-! ### Functions that leave the evidence alone -/

variable (s : TransactionRunner)

@[simp] theorem transmitTracked_evidence (p : TxPurpose) (f : FrameMessage) (nowUs : ℕ) :
    (s.transmitTracked p f nowUs).1.evidence = s.evidence := by
  have hb := congrArg Books.reports (s.transmitTracked_books p f nowUs)
  refine evidence_eq ?_ ?_ ?_ hb <;>
  · unfold transmitTracked
    dsimp only
    split <;> rfl

section

variable (nowUs : ℕ)

@[simp] theorem isotpTick_evidence :
    (s.isotpTick nowUs).1.evidence = s.evidence :=
  IsotpLink.tick_env (R := fun a b => b.evidence = a.evidence) (fun _ => rfl)
    (fun a b c (h : b.evidence = a.evidence) (h' : c.evidence = b.evidence) => h'.trans h)
    (fun e f => e.transmitTracked_evidence .isotp f e.lastTickUs) s.isotp s nowUs

@[simp] theorem isotpOnFrame_evidence (f : FrameMessage) :
    (s.isotpOnFrame f).1.evidence = s.evidence :=
  IsotpLink.onFrame_env (R := fun a b => b.evidence = a.evidence) (fun _ => rfl)
    (fun e f => e.transmitTracked_evidence .isotp f e.lastTickUs) s.isotp s f s.lastTickUs

@[simp] theorem reportMissingRoster_evidence :
    s.reportMissingRoster.evidence = s.evidence := by
  have hb := congrArg Books.reports s.reportMissingRoster_books
  refine evidence_eq ?_ ?_ ?_ hb <;>
  · unfold reportMissingRoster
    split <;> rfl

@[simp] theorem completeStep_evidence : s.completeStep.evidence = s.evidence :=
  s.reportMissingRoster_evidence

@[simp] theorem armStarvation_evidence :
    (s.armStarvation nowUs).evidence = s.evidence := by
  unfold armStarvation
  split <;> rfl

@[simp] theorem openIsotp_evidence : s.openIsotp.evidence = s.evidence := by
  unfold openIsotp
  split <;> rfl

@[simp] theorem startMessage_evidence :
    (s.startMessage nowUs).evidence = s.evidence := by
  unfold startMessage
  split <;> rfl

@[simp] theorem armTransmit_evidence :
    (s.armTransmit nowUs).evidence = s.evidence := by
  unfold armTransmit
  split <;> rfl

@[simp] theorem applyExtension_evidence :
    (s.applyExtension nowUs).evidence = s.evidence := by
  unfold applyExtension
  split <;> rfl

@[simp] theorem finishTransmit_evidence :
    (s.finishTransmit nowUs).evidence = s.evidence := by
  unfold finishTransmit
  dsimp only
  split
  · rw [completeStep_evidence]
    rfl
  · rfl

end

@[simp] theorem recordRosterAnswer_evidence (f : FrameMessage) :
    (s.recordRosterAnswer f).evidence = s.evidence := by
  unfold recordRosterAnswer
  split
  · rfl
  · dsimp only
    split <;> rfl

/-! ### Keeping frames and ending -/

variable {P : FrameMessage → Prop} {s : TransactionRunner}

theorem keepRxFrame_sound (h : s.Sound P) {f : FrameMessage} (hf : f.Valid) : (s.keepRxFrame f).Sound P :=
  ⟨fun _ => hf, h.early, h.reports⟩

/-- A status prepared from sound evidence is one the encoder takes, whatever the other fields. -/
theorem finish_sound (h : s.Sound P) {m : TxnStatusMessage}
    (hm : m.rxFrame = if s.current.hasRxFrame then s.current.rxFrame else {}) : (s.finish m).Sound P := by
  refine ⟨h.kept, h.early, fun q hq => ?_⟩
  have hb : (s.finish m).books.reports = s.books.reports ++ [m] := congrArg Books.reports (s.finish_books m)
  change q ∈ (s.finish m).books.reports at hq
  rw [hb, mem_append, mem_singleton] at hq
  rcases hq with hq | rfl
  · exact h.reports q hq
  · rw [TxnStatusMessage.encode_isSome, hm]
    split
    · rename_i hk
      exact h.kept hk
    · decide

theorem abortWith_sound (h : s.Sound P) (reason : TxnReason) (seq : UInt32) : (s.abortWith reason seq).Sound P :=
  finish_sound h rfl

variable {f : FrameMessage}

theorem abortOnFrame_sound (h : s.Sound P) (reason : TxnReason) (hf : f.Valid)
    (expected got : UInt64) : (s.abortOnFrame reason f expected got).Sound P :=
  finish_sound (keepRxFrame_sound h hf) rfl

theorem recordAnswer_sound (h : s.Sound P) (hf : f.Valid) : (s.recordAnswer f).Sound P := by
  have hk := keepRxFrame_sound h hf
  unfold recordAnswer Sound
  dsimp only
  split
  · rw [recordRosterAnswer_evidence]
    exact hk
  · exact hk

theorem matchFrame_sound (h : s.Sound P) (hf : f.Valid) : (s.matchFrame f).Sound P := by
  unfold matchFrame
  dsimp only
  split
  · exact keepRxFrame_sound h hf
  split
  · exact abortOnFrame_sound h _ hf _ _
  split
  · unfold matchAdvance
    dsimp only
    split
    · exact h
    split
    · exact recordAnswer_sound h hf
    split
    · exact abortOnFrame_sound h _ hf _ _
    · exact h
  · exact h

/-! ### Frames -/

theorem messageFrame_valid {l : IsotpLink} (h : l.receiver.length ≤ 8) : l.messageFrame.Valid := by
  refine FrameMessage.isPayloadLengthValid_small _ ?_
  simp only [IsotpLink.messageFrame, length_take]
  omega

/-- A frame fed to the link: no answer it completes is a long one. -/
theorem feedIsotp_sound (h : s.Sound P)
    (hshort : s.isWaiting = true → ¬ s.isotp.LongAnswer f) : (s.feedIsotp f).Sound P := by
  have hlink : (s.isotpOnFrame f).1.Sound P := by
    rw [Sound, isotpOnFrame_evidence]
    exact h
  have hwait : (s.isotpOnFrame f).1.isWaiting = s.isWaiting := by
    obtain ⟨_, _, _, he⟩ := s.isotpOnFrame_eq f
    rw [he]
    rfl
  unfold feedIsotp
  dsimp only
  split
  · exact abortWith_sound hlink _ _
  split
  · exact hlink
  · rename_i hmsg
    simp only [ne_eq, Bool.not_eq_true', not_or, not_not, Bool.not_eq_false] at hmsg
    refine matchFrame_sound hlink (messageFrame_valid ?_)
    have hm : (s.isotp.onFrame transmitIsotpFrame s f s.lastTickUs).2.2 = .message := hmsg.1
    obtain ⟨hpeer, hlen⟩ := IsotpLink.onFrame_message hm
    have hs := hshort (by rw [← hwait]; exact hmsg.2)
    by_contra hlong
    refine hs ⟨hpeer, ?_⟩
    rw [← hlen]
    exact Nat.lt_of_not_le hlong

theorem dispatchFrame_sound (h : s.Sound P) (hf : f.Valid)
    (hshort : s.isIsotpStep = true → s.isWaiting = true → ¬ s.isotp.LongAnswer f) : (s.dispatchFrame f).Sound P := by
  unfold dispatchFrame
  split
  · rename_i hi
    exact feedIsotp_sound h (hshort hi)
  split
  · exact matchFrame_sound h hf
  · exact h

variable (s)

theorem matchFrame_isotp (f : FrameMessage) : (s.matchFrame f).isotp = s.isotp := by
  unfold matchFrame
  dsimp only
  split
  · rfl
  split
  · rfl
  split
  · unfold matchAdvance
    dsimp only
    split
    · rfl
    split
    · unfold recordAnswer recordRosterAnswer
      dsimp only
      split
      · split
        · rfl
        · split <;> rfl
      · rfl
    split <;> rfl
  · rfl

theorem feedIsotp_isotp (f : FrameMessage) :
    (s.feedIsotp f).isotp = (s.isotpOnFrame f).1.isotp := by
  unfold feedIsotp
  dsimp only
  split
  · rfl
  split
  · rfl
  · exact matchFrame_isotp _ _

/-- Dispatching a frame does not change which step is running. -/
theorem dispatchFrame_isIsotpStep (f : FrameMessage) :
    (s.dispatchFrame f).isIsotpStep = s.isIsotpStep := by
  have hb := Stays.settled (s.dispatchFrame_stays f)
  have hsame : ∀ b, Books.Settled s.books b →
      b.phase = s.books.phase ∧ b.step = s.books.step ∧ b.templates = s.books.templates := by
    intro b hs
    cases hs <;> exact ⟨rfl, rfl, rfl⟩
  obtain ⟨hp, hst, ht⟩ := hsame _ hb
  have hp' : (s.dispatchFrame f).current.phase = s.current.phase := hp
  have hst' : (s.dispatchFrame f).current.step = s.current.step := hst
  have ht' : (s.dispatchFrame f).templates = s.templates := ht
  unfold isIsotpStep currentTemplate
  rw [hp', hst', ht']

variable {s}

/-- **Frames kept early meet a link that has just been opened**: only single
frames can complete an answer. -/
theorem replay_sound : ∀ (fs : List FrameMessage) {s : TransactionRunner}, s.Sound P → (∀ f ∈ fs, f.Valid) →
    (s.isIsotpStep = true → s.isotp.Fresh ∧ ∀ f ∈ fs, ¬ s.isotp.LongAnswer f) → (s.replay fs).Sound P
  | [], _, h, _, _ => h
  | f :: fs, s, h, hv, hshort => by
    unfold replay
    split
    · have hd := dispatchFrame_sound h (hv f mem_cons_self)
        (fun hi _ => (hshort hi).2 f mem_cons_self)
      refine replay_sound fs hd (fun g hg => hv g (mem_cons_of_mem _ hg)) fun hi => ?_
      rw [dispatchFrame_isIsotpStep] at hi
      obtain ⟨hfresh, hno⟩ := hshort hi
      have hlink : (s.dispatchFrame f).isotp = (s.isotp.onFrame transmitIsotpFrame s f s.lastTickUs).1 := by
        unfold dispatchFrame
        rw [if_pos hi, feedIsotp_isotp]
        rfl
      rw [hlink]
      have hfresh' : (s.isotp.onFrame transmitIsotpFrame s f s.lastTickUs).1.Fresh := hfresh.onFrame _ _ _
      refine ⟨hfresh', fun g hg hl => hno g (mem_cons_of_mem _ hg) ?_⟩
      exact hfresh'.longAnswer (IsotpLink.parameters_of_line (IsotpLink.onFrame_line _ _ _ _ _)) hl
    · exact h

theorem onFrame_sound (h : s.Sound P) (i : UInt8) (hf : f.Valid) (hP : P f)
    (hshort : s.isIsotpStep = true → s.isWaiting = true → ¬ s.isotp.LongAnswer f) : (s.onFrame i f).Sound P := by
  unfold onFrame
  split
  · exact h
  split
  · unfold keepEarlyFrame
    split
    · exact h
    · refine ⟨h.kept, fun g hg => ?_, h.reports⟩
      rcases mem_append.mp hg with hg | hg
      · exact h.early g hg
      · rw [mem_singleton.mp hg]
        exact hP
  · exact dispatchFrame_sound h hf hshort

/-! ### Ticks -/

/-- No frame kept early is a long answer to a step that could be loaded next. -/
def ShortEarly (templates : ℕ → TxnTemplateMessage) (f : FrameMessage) : Prop :=
  f.Valid ∧ ∀ k, (templates k).isIsotp = true →
    ¬ (({} : IsotpLink).openLink 0 0 (templates k).isotp).LongAnswer f

variable {T : ℕ → TxnTemplateMessage}

/-- The frames kept early are replayed into a link that has just been opened. -/
theorem replayEarlyFrames_sound (h : s.Sound (ShortEarly T)) (hT : s.templates = T)
    (hopen : s.isIsotpStep = true → s.isotp.Fresh ∧ s.isotp.parameters = s.currentTemplate.isotp) :
    s.replayEarlyFrames.Sound (ShortEarly T) := by
  have hempty : ({ s with earlyFrames := [] } : TransactionRunner).Sound (ShortEarly T) :=
    ⟨h.kept, fun _ hf => (nomatch hf), h.reports⟩
  unfold replayEarlyFrames
  refine replay_sound _ hempty (fun f hf => (h.early f hf).1) fun hi => ?_
  obtain ⟨hfresh, hp⟩ := hopen hi
  refine ⟨hfresh, fun f hf hl => (h.early f hf).2 s.current.step.templateId.toNat ?_ (hfresh.longAnswer ?_ hl)⟩
  · simp only [isIsotpStep, decide_eq_true_eq] at hi
    rw [← hT]
    exact hi.2
  · rw [← hT]
    exact hp

theorem openIsotp_link (s : TransactionRunner) (h : s.openIsotp.currentTemplate.isIsotp = true) :
    s.openIsotp.isotp.Fresh ∧ s.openIsotp.isotp.parameters = s.openIsotp.currentTemplate.isotp := by
  unfold openIsotp at h ⊢
  split
  · exact ⟨fun h' => (nomatch h'), rfl⟩
  · rename_i hno
    rw [if_neg hno] at h
    exact absurd h hno

/-- A step is loaded and meets the frames kept early. -/
theorem startStep_sound (h : s.Sound (ShortEarly T)) (hT : s.templates = T) (nowUs : ℕ) :
    (s.startStep nowUs).1.Sound (ShortEarly T) := by
  have ho : s.openIsotp.Sound (ShortEarly T) := by
    rw [Sound, openIsotp_evidence]
    exact h
  have hoT : s.openIsotp.templates = T := (congrArg Books.templates s.openIsotp_books).trans hT
  have hlink := s.openIsotp_link
  unfold startStep
  generalize s.openIsotp = r at ho hoT hlink
  dsimp only
  split
  · have hw : (r.startWait nowUs).Sound (ShortEarly T) := ho
    refine replayEarlyFrames_sound hw hoT fun hi => hlink ?_
    simp only [isIsotpStep, decide_eq_true_eq] at hi
    exact hi.2
  · exact ⟨ho.kept, fun _ hf => (nomatch hf), ho.reports⟩

theorem waitForSteps_sound (h : s.Sound P) (nowUs : ℕ) : (s.waitForSteps nowUs).Sound P := by
  have ha : (s.armStarvation nowUs).Sound P := by
    rw [Sound, armStarvation_evidence]
    exact h
  unfold waitForSteps
  dsimp only
  split
  · exact abortWith_sound ha _ _
  · generalize s.armStarvation nowUs = r at ha
    unfold sendKeepaliveIfDue
    split
    · exact ha
    · have hk : (r.transmitTracked .keepalive r.keepaliveFrame nowUs).1.Sound P := by
        rw [Sound, transmitTracked_evidence]
        exact ha
      dsimp only
      split
      · exact ⟨hk.kept, fun f hf => (nomatch hf), hk.reports⟩
      · exact hk

theorem loadNextStep_sound (h : s.Sound (ShortEarly T)) (hT : s.templates = T) (nowUs : ℕ) :
    (s.loadNextStep nowUs).1.Sound (ShortEarly T) := by
  unfold loadNextStep
  dsimp only
  split
  · exact finish_sound h rfl
  split
  · exact waitForSteps_sound h nowUs
  have hl : (s.loadRecord s.ring.peek).Sound (ShortEarly T) := ⟨fun h' => (nomatch h'), h.early, h.reports⟩
  have hlT : (s.loadRecord s.ring.peek).templates = T := hT
  generalize s.loadRecord s.ring.peek = l at hl hlT
  split
  · have hg : l.gatherMessage.1.Sound (ShortEarly T) ∧ l.gatherMessage.1.templates = T := by
      unfold gatherMessage
      dsimp only
      split
      · exact ⟨abortWith_sound hl _ _, hlT⟩
      split
      · exact ⟨hl, hlT⟩
      · exact ⟨hl, hlT⟩
    split
    · exact hg.1
    · exact startStep_sound hg.1 hg.2 nowUs
  · exact startStep_sound hl hlT nowUs

theorem transmitStep_sound (h : s.Sound P) (nowUs : ℕ) : (s.transmitStep nowUs).1.Sound P := by
  unfold transmitStep
  split
  · exact h
  split
  · have hm : ((s.startMessage nowUs).isotpTick nowUs).1.Sound P := by
      rw [Sound, isotpTick_evidence, startMessage_evidence]
      exact h
    unfold transmitMessage
    dsimp only
    split
    · exact abortWith_sound hm _ _
    split
    · exact hm
    · rw [Sound, finishTransmit_evidence]
      exact hm
  · dsimp only
    have ht : ((s.armTransmit nowUs).transmitTracked .step
        (stepFrame (s.armTransmit nowUs).channel (s.armTransmit nowUs).current.step) nowUs).1.Sound P := by
      rw [Sound, transmitTracked_evidence, armTransmit_evidence]
      exact h
    split
    · rw [Sound, finishTransmit_evidence]
      exact ht
    split
    · exact abortWith_sound ht _ _
    · exact ht

theorem settle_sound (h : s.Sound P) (nowUs : ℕ) : (s.settle nowUs).1.Sound P := by
  have ha : (s.applyExtension nowUs).Sound P := by
    rw [Sound, applyExtension_evidence]
    exact h
  unfold settle
  split
  · rw [Sound, completeStep_evidence]
    exact h
  dsimp only
  split
  · exact ha
  split
  · rw [Sound, completeStep_evidence]
    exact ha
  · exact abortWith_sound ha _ _

theorem settleWait_sound (h : s.Sound P) (nowUs : ℕ) : (s.settleWait nowUs).1.Sound P := by
  have ht : (s.isotpTick nowUs).1.Sound P := by
    rw [Sound, isotpTick_evidence]
    exact h
  unfold settleWait tickIsotp
  split
  · dsimp only
    by_cases hf : (s.isotpTick nowUs).2 = .failed
    · simp only [hf, ne_eq, not_true_eq_false, if_false, Bool.not_false, if_true]
      exact abortWith_sound ht _ _
    · simp only [ne_eq, hf, not_false_eq_true, if_true, Bool.not_true, Bool.false_eq_true, if_false]
      exact settle_sound ht nowUs
  · exact settle_sound h nowUs

theorem runOnce_sound (h : s.Sound (ShortEarly T)) (hT : s.templates = T) (nowUs : ℕ) :
    (s.runOnce nowUs).1.Sound (ShortEarly T) := by
  unfold runOnce
  split
  · exact loadNextStep_sound h hT nowUs
  · exact transmitStep_sound h nowUs
  · exact settleWait_sound h nowUs

/-- **A tick keeps the evidence sound** when no frame kept early is a long answer. -/
theorem tick_sound (h : s.Sound (ShortEarly s.templates)) (nowUs : ℕ) :
    (s.tick nowUs).Sound (ShortEarly s.templates) := by
  cases ha : s.active with
  | false =>
    rw [tick_inactive ha]
    exact h
  | true =>
    refine tick_rule (I := fun t => t.Sound (ShortEarly s.templates) ∧ t.templates = s.templates)
      (J := Sound (ShortEarly s.templates)) ?_ (fun _ _ h => h.1) ?_ ha ⟨h, rfl⟩
    · rintro t - ⟨h, hT⟩
      exact ⟨runOnce_sound h hT nowUs, (t.runOnce_move nowUs).fixed.templates.trans hT⟩
    · rintro t - ⟨h, -⟩
      have hevidence : (t.flushProgress nowUs).evidence = t.evidence := by
        rcases t.flushProgress_cases nowUs with ⟨due, he⟩ | he
        · rw [he]
          rfl
        · rw [he]
          have hb := congrArg Books.reports t.reportProgress_books
          exact evidence_eq rfl rfl rfl hb
      rw [Sound, hevidence]
      exact h

/-! ### One status for each end -/

end TransactionRunner

namespace Books

/-- The books after an operation on the same transaction: nothing new reported, or
one status and the end. -/
inductive Reported (b b' : Books) : Prop
  | same (htxnId : b'.txnId = b.txnId) (hactive : b'.active = b.active) (hreports : b'.reports = b.reports)
  | ended (htxnId : b'.txnId = b.txnId) (hactive : b'.active = false) (m : TxnStatusMessage)
      (hreports : b'.reports = b.reports ++ [m])

theorem Settled.reported {b b' : Books} (h : Settled b b') : Reported b b' := by
  cases h with
  | same => exact .same rfl rfl rfl
  | ended m => exact .ended rfl rfl m rfl

theorem Move.reported {b b' : Books} (h : Move b b') : Reported b b' := by
  cases h with
  | settled hs => exact hs.reported
  | gather => exact .same rfl rfl rfl
  | oversize m => exact .ended rfl rfl m rfl
  | start _ _ _ _ _ hs =>
    cases hs with
    | same => exact .same rfl rfl rfl
    | ended m => exact .ended rfl rfl m rfl
  | wait => exact .same rfl rfl rfl
  | complete => exact .same rfl rfl rfl

theorem Reported.trans {a b c : Books} (h : Reported a b) (hb : b.active = true) (h' : Reported b c) :
    Reported a c := by
  cases h with
  | same hid ha hr =>
    cases h' with
    | same hid' ha' hr' => exact .same (hid'.trans hid) (ha'.trans ha) (hr'.trans hr)
    | ended hid' ha' m hr' => exact .ended (hid'.trans hid) ha' m (by rw [hr', hr])
  | ended _ ha => exact absurd (ha.symm.trans hb) (by decide)

end Books

namespace TransactionRunner

open Books

theorem tick_reported (s : TransactionRunner) (nowUs : ℕ) : Reported s.books (s.tick nowUs).books := by
  cases ha : s.active with
  | false =>
    rw [tick_inactive ha]
    exact .same rfl rfl rfl
  | true =>
    refine tick_rule (I := fun t => Reported s.books t.books) (J := fun t => Reported s.books t.books) ?_
      (fun _ _ h => h) ?_ ha (.same rfl rfl rfl)
    · intro t hactive h
      exact h.trans hactive (t.runOnce_move nowUs).reported
    · intro t hactive h
      refine h.trans hactive ?_
      rcases t.flushProgress_cases nowUs with ⟨due, he⟩ | he
      · rw [he]
        exact .same rfl rfl rfl
      · rw [he, reportProgress_books]
        exact .same rfl rfl rfl

theorem pushRecord_reported (s : TransactionRunner) (step : TxnStep) (record : List UInt8) (seq : UInt32) :
    Reported s.books (s.pushRecord step record seq).1.books
      ∧ ((s.pushRecord step record seq).2 = true → (s.pushRecord step record seq).1.active = s.active) := by
  rw [pushRecord_eq]
  cases accept s.books step record with
  | error reason => exact ⟨(s.abortWith_settled reason seq).reported, fun h => nomatch h⟩
  | ok ring => exact ⟨.same rfl rfl rfl, fun _ => rfl⟩

theorem pushRecords_reported (isEnd : Bool) : ∀ (count : ℕ) {s : TransactionRunner} (records : List UInt8)
    (seq : UInt32), s.active = true → Reported s.books (s.pushRecords records seq isEnd count).books
  | 0, _, _, _, _ => .same rfl rfl rfl
  | count + 1, s, records, seq, ha => by
    unfold pushRecords
    split
    · exact (s.abortWith_settled _ _).reported
    · rename_i step size _
      obtain ⟨hr, hact⟩ := s.pushRecord_reported step (records.take size) seq
      dsimp only
      split
      · exact hr
      · rename_i ht
        have ha' := (hact (by simpa using ht)).trans ha
        exact hr.trans ha' (pushRecords_reported isEnd count _ _ ha')

theorem pushSteps_reported (s : TransactionRunner) (m : TxnStepsMessage) :
    Reported s.books (s.pushSteps m).books := by
  unfold pushSteps
  split
  · exact .same rfl rfl rfl
  split
  · exact (s.abortWith_settled _ _).reported
  · rename_i ha _
    refine pushRecords_reported _ _ _ _ ?_
    by_contra hn
    exact ha (Or.inl (by simpa using hn))

/-- A begin while a transaction runs changes nothing. -/
theorem begin_busy {s : TransactionRunner} (ha : s.active = true) (b : TxnBeginMessage) (i : UInt8) (nowUs : ℕ) :
    (s.begin b i nowUs).1 = s := by
  unfold TransactionRunner.begin
  rw [if_pos ha]

variable {e : RunnerEvent}

/-- **Every operation on a running transaction but `cancel` reports one status when it
ends the transaction, and none otherwise.** -/
theorem handle_reported {s : TransactionRunner} (ha : s.active = true) (he : e ≠ .cancel) :
    Reported s.books (s.handle e).books := by
  cases e with
  | begin b i nowUs =>
    rw [show s.handle (.begin b i nowUs) = s from begin_busy ha b i nowUs]
    exact .same rfl rfl rfl
  | roster r =>
    simp only [handle, defineRoster]
    split
    · exact .same rfl rfl rfl
    split
    · exact (s.abortWith_settled _ _).reported
    · exact .same rfl rfl rfl
  | template t =>
    simp only [handle, defineTemplate]
    split
    · exact .same rfl rfl rfl
    split
    · exact (s.abortWith_settled _ _).reported
    · exact .same rfl rfl rfl
  | steps body =>
    simp only [handle]
    cases TxnStepsMessage.decode body with
    | none => exact .same rfl rfl rfl
    | some m => exact s.pushSteps_reported m
  | frame i f _ => exact (s.onFrame_settled i f).reported
  | tick nowUs => exact s.tick_reported nowUs
  | abort id =>
    simp only [handle, TransactionRunner.abort]
    split
    · exact .same rfl rfl rfl
    · exact (s.abortWith_settled _ _).reported
  | cancel => exact absurd rfl he

/-- Without a transaction there is nothing to do until one begins. -/
theorem handle_inactive {s : TransactionRunner} (ha : s.active = false)
    (he : ∀ b i nowUs, e ≠ .begin b i nowUs) : (s.handle e).active = false := by
  cases e with
  | begin b i nowUs => exact absurd rfl (he b i nowUs)
  | roster r => simp [handle, defineRoster, ha]
  | template t => simp [handle, defineTemplate, ha]
  | steps body =>
    simp only [handle]
    cases TxnStepsMessage.decode body with
    | none => exact ha
    | some m => simp [pushSteps, ha]
  | frame i f _ => exact (ran_of_settled (s.onFrame_settled i f) []).inactive ha
  | tick nowUs => simp [handle, tick, ha]
  | abort txnId => simp [handle, TransactionRunner.abort, ha]
  | cancel => rfl

/-- A transaction that runs was running, under the same identifier, unless it just began. -/
theorem handle_active {s : TransactionRunner} (he : ∀ b i nowUs, e ≠ .begin b i nowUs)
    (h : (s.handle e).active = true) : s.active = true ∧ (s.handle e).txnId = s.txnId := by
  cases ha : s.active with
  | false => rw [handle_inactive ha he] at h; cases h
  | true =>
    refine ⟨rfl, ?_⟩
    by_cases hc : e = .cancel
    · subst hc
      cases h
    · rcases handle_reported ha hc with ⟨hid, -, -⟩ | ⟨hid, -⟩
      · exact hid
      · exact hid

/-! ### Whole runs -/

variable {P : FrameMessage → Prop} {s : TransactionRunner}

/-- No answer longer than a classic frame reaches a waiting ISO-TP step: not a
frame from the bus, and not a frame kept early that a tick may replay. -/
def ShortAnswers (s : TransactionRunner) : RunnerEvent → Prop
  | .frame i f _ =>
    s.isOnBus i f = true → s.isIsotpStep = true → s.isWaiting = true → ¬ s.isotp.LongAnswer f
  | .tick _ =>
    ∀ f ∈ s.earlyFrames, ∀ k, (s.templates k).isIsotp = true →
      ¬ (({} : IsotpLink).openLink 0 0 (s.templates k).isotp).LongAnswer f
  | _ => True

theorem pushRecord_sound (h : s.Sound P) (step : TxnStep) (record : List UInt8) (seq : UInt32) :
    (s.pushRecord step record seq).1.Sound P := by
  rw [pushRecord_eq]
  cases accept s.books step record with
  | error reason => exact abortWith_sound h _ _
  | ok ring => exact h

theorem pushRecords_sound (isEnd : Bool) : ∀ (count : ℕ) {s : TransactionRunner} (records : List UInt8)
    (seq : UInt32), s.Sound P → (s.pushRecords records seq isEnd count).Sound P
  | 0, _, _, _, h => h
  | count + 1, s, records, seq, h => by
    unfold pushRecords
    split
    · exact abortWith_sound h _ _
    · rename_i step size _
      have hr := pushRecord_sound h step (records.take size) seq
      dsimp only
      split
      · exact hr
      · exact pushRecords_sound isEnd count _ _ hr

theorem handle_sound (h : s.Sound FrameMessage.Valid) (hshort : s.ShortAnswers e) :
    (s.handle e).Sound FrameMessage.Valid := by
  cases e with
  | begin b i nowUs =>
    simp only [handle, TransactionRunner.begin]
    split
    · exact h
    split
    · exact h
    · refine ⟨fun h' => ?_, fun f hf => ?_, h.reports⟩
      · cases h'
      · cases hf
  | roster r =>
    simp only [handle, defineRoster]
    split
    · exact h
    split
    · exact abortWith_sound h _ _
    · exact h
  | template t =>
    simp only [handle, defineTemplate]
    split
    · exact h
    split
    · exact abortWith_sound h _ _
    · exact h
  | steps body =>
    simp only [handle]
    cases TxnStepsMessage.decode body with
    | none => exact h
    | some m =>
      show (s.pushSteps m).Sound _
      unfold pushSteps
      split
      · exact h
      split
      · exact abortWith_sound h _ _
      · exact pushRecords_sound _ _ _ _ h
  | frame i f hf =>
    by_cases hb : s.isOnBus i f = true
    · exact onFrame_sound h i hf hf (hshort hb)
    · have hskip : s.onFrame i f = s := by
        unfold onFrame
        rw [if_pos (by simpa using hb)]
      simp only [handle, hskip]
      exact h
  | tick nowUs =>
    have he : s.Sound (ShortEarly s.templates) := ⟨h.kept, fun f hf => ⟨h.early f hf, hshort f hf⟩, h.reports⟩
    have ht := tick_sound he nowUs
    exact ⟨ht.kept, fun f hf => (ht.early f hf).1, ht.reports⟩
  | abort id =>
    simp only [handle, TransactionRunner.abort]
    split
    · exact h
    · exact abortWith_sound h _ _
  | cancel => exact h

theorem init_sound (takes : ℕ → Bool) (storage : ℕ → UInt8) (ringCapacity : ℕ) :
    (init takes storage ringCapacity).Sound FrameMessage.Valid :=
  ⟨fun h => (nomatch h), fun _ hf => (nomatch hf), fun _ hm => (nomatch hm)⟩

/-- **A transaction never ends silently**: in a run that brings ISO-TP answers of
at most 8 bytes, an operation that ends the transaction hands the port one
status, which the encoder accepts and the decoder reads back; one that does not
reports none. -/
theorem status_reported (takes : ℕ → Bool) (storage : ℕ → UInt8) (ringCapacity : ℕ) (es : List RunnerEvent)
    (e : RunnerEvent) (hshort : Run.Along handle ShortAnswers (init takes storage ringCapacity) (es ++ [e]))
    (he : e ≠ .cancel) :
    let s := Run.run handle (init takes storage ringCapacity) es
    s.active = true →
      ((s.handle e).active = false →
        ∃ m wire, (s.handle e).books.reports = s.books.reports ++ [m] ∧ m.encode = some wire
          ∧ TxnStatusMessage.decode (wire.drop messageHeaderSize) = some m)
      ∧ ((s.handle e).active = true → (s.handle e).books.reports = s.books.reports) := by
  intro s ha
  rw [Run.Along.append] at hshort
  have hs : s.Sound FrameMessage.Valid :=
    hshort.1.invariant (fun _ _ => handle_sound) (init_sound takes storage ringCapacity)
  have hs' := handle_sound hs hshort.2.1
  rcases handle_reported ha he with ⟨-, hact, hrep⟩ | ⟨-, hact, m, hrep⟩
  · exact ⟨fun hend => absurd (ha.symm.trans (hact.symm.trans hend)) (by decide), fun _ => hrep⟩
  · refine ⟨fun _ => ?_, fun hrun => absurd (hact.symm.trans hrun) (by decide)⟩
    have henc : m.encode.isSome := hs'.reports m (by
      show m ∈ (s.handle e).books.reports
      rw [hrep]
      exact mem_append_right _ mem_cons_self)
    have hvalid := (TxnStatusMessage.encode_isSome m).mp henc
    obtain ⟨wire, hw⟩ := Option.isSome_iff_exists.mp henc
    refine ⟨m, wire, hrep, hw, ?_⟩
    rw [TxnStatusMessage.encode, if_pos hvalid, Option.some.injEq] at hw
    rw [← hw]
    exact TxnStatusMessage.decode_body m hvalid

/-! ### Answers -/

def smallStart : TransactionRunner := init (fun _ => true) (fun _ => 0) 1024

/-- A template that waits for one ISO-TP answer from the identifier 0x7e8. -/
def answerTemplate : TxnTemplateMessage :=
  { txnId := 1, type := TxnTemplateType.isotp.code, advanceMode := TxnAdvanceMode.count.code, countK := 1
    timeoutMs := 1000, patternsPresent := 1, advance := { canId := 0x7e8, canMask := 0x7ff }
    isotp := { responseId := 0x7e8, txDataLength := 8 } }

/-- One step that only waits, and the end. -/
def answerSteps : List UInt8 :=
  ((TxnStepsWriter.init 3 1 0 0 404).bind (·.append { flags := txnStepFlagExpectOnly })).elim []
    (·.markEnd.body)

/-- A transaction whose one step waits for its answer. -/
def awaitsAnswer : List RunnerEvent := [.begin ⟨3, 0, 0, {}⟩ 0 0, .template answerTemplate, .steps answerSteps, .tick 0]

/-- A single frame that carries two bytes. -/
def twoByteAnswer : FrameMessage := { FrameMessage.zero with canId := 0x7e8, payload := [2, 0x50, 3] }

/-- The step is waiting when the answer comes, and the next tick ends the transaction. -/
theorem status_reported_answer :
    let s := Run.run handle smallStart (awaitsAnswer ++ [.frame 0 twoByteAnswer (by decide)])
    (Run.run handle smallStart awaitsAnswer).isWaiting = true ∧ s.active = true ∧ (s.handle (.tick 1)).active = false
      ∧ ∃ m wire, (s.handle (.tick 1)).books.reports = s.books.reports ++ [m]
        ∧ m.encode = some wire ∧ TxnStatusMessage.decode (wire.drop messageHeaderSize) = some m := by
  have hfacts : (Run.run handle smallStart awaitsAnswer).isWaiting = true
      ∧ (Run.run handle smallStart (awaitsAnswer ++ [.frame 0 twoByteAnswer (by decide)])).active = true
      ∧ ((Run.run handle smallStart (awaitsAnswer ++ [.frame 0 twoByteAnswer (by decide)])).handle (.tick 1)).active
        = false := by decide +kernel
  have hnone : ∀ s : TransactionRunner, s.earlyFrames = [] → s.ShortAnswers (.tick 1) ∧ s.ShortAnswers (.tick 0) :=
    fun s hs => ⟨fun f hf => by simp [hs] at hf, fun f hf => by simp [hs] at hf⟩
  have hshort : ¬ (Run.run handle smallStart awaitsAnswer).isotp.LongAnswer twoByteAnswer :=
    fun hlong => absurd hlong.2 (by decide +kernel)
  refine ⟨hfacts.1, hfacts.2.1, hfacts.2.2, (status_reported (fun _ => true) (fun _ => 0) 1024 _ (.tick 1) ?_
    (fun h => nomatch h) hfacts.2.1).1 hfacts.2.2⟩
  exact ⟨trivial, trivial, trivial, (hnone _ (by decide +kernel)).2, fun _ _ _ => hshort, (hnone _ (by decide +kernel)).1,
    trivial⟩

/-- A CAN FD single frame that carries nine bytes. -/
def nineByteAnswer : FrameMessage :=
  { FrameMessage.zero with
    canId := 0x7e8, frameFlags := frameFlagFd, payload := [0, 9, 1, 2, 3, 4, 5, 6, 7, 8, 9, 0] }

/-- The answer is kept as a frame without the CAN FD flag: the transaction is
done, and its status is one the encoder refuses. -/
theorem long_answer_ends_silently :
    let s := Run.run handle smallStart (awaitsAnswer ++ [.frame 0 nineByteAnswer (by decide)])
    s.active = true ∧ (s.handle (.tick 1)).active = false
      ∧ (s.handle (.tick 1)).books.reports.map (·.state) = [TxnState.done.code]
      ∧ (s.handle (.tick 1)).books.reports.map (·.encode) = [none] := by
  refine ⟨?_, ?_, ?_, ?_⟩ <;> decide +kernel

end TransactionRunner
end CanHub
