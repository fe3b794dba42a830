/-
# Answers that outrun their steps

A frame that arrives between two steps is kept (`keepEarlyFrame`) and replayed
into the next step once that is loaded. The replay hands all the frames kept to
that one step: those behind the frame that satisfies it are gone, whatever the
steps behind it wait for.

For steps that only wait and count matching frames, `answered` says how many of
them a list of frames completes, each frame being offered to the step that
waits when it arrives. With a tick after each frame the runner completes that
many (`Between.late`). With the same frames kept between steps it completes
at most the first (`early_completed`). So the two runs complete the same steps
exactly when the frames behind the last one that the first step needs do not
complete the second (`early_iff_late`).
-/
import CanHub.Agent.Done

namespace CanHub

open StepRecord Run List UInt32 TransactionRunner

/-! ### Counting answers -/

section Hits

variable {α : Type*} (p : α → Bool)

/-- What follows the `k`-th element that `p` holds of. -/
def afterHits : ℕ → List α → Option (List α)
  | 0, l => some l
  | _ + 1, [] => none
  | k + 1, a :: l => if p a then afterHits k l else afterHits (k + 1) l

theorem afterHits_isSome_iff : ∀ (k : ℕ) (l : List α), (afterHits p k l).isSome = true ↔ k ≤ l.countP p
  | 0, l => by simp [afterHits]
  | k + 1, [] => by simp [afterHits]
  | k + 1, a :: l => by
    rw [afterHits, countP_cons]
    cases hp : p a with
    | true => simp [afterHits_isSome_iff k l]
    | false => simp [afterHits_isSome_iff (k + 1) l]

end Hits

/-- Whether a frame counts as an answer to a step of a COUNT template without other patterns. -/
def TxnTemplateMessage.isAnswer (t : TxnTemplateMessage) (step : TxnStep) (f : FrameMessage) : Bool :=
  t.isPatternPresent .advance && t.advance.matchesId f.canId
    && matchesPayload f.payloadWord t.advance.payloadMask
      (if step.hasExpectValue then step.expectValue else t.advance.payloadValue)

/-- A generic template that counts matching frames, and does nothing else with a frame. -/
structure CountsOnly (t : TxnTemplateMessage) : Prop where
  generic : t.isIsotp = false
  mode : t.advanceMode = TxnAdvanceMode.count.code
  noExtend : t.isPatternPresent .extend = false
  noAbort : t.isPatternPresent .abort = false
  noMismatch : t.flags &&& txnTemplateFlagMismatchAbort = 0

section Answered

variable (templates : ℕ → TxnTemplateMessage)

/-- The answers a step needs. -/
def needed (step : TxnStep) : ℕ := (templates step.templateId.toNat).countK.toNat

def isAnswerTo (step : TxnStep) (f : FrameMessage) : Bool := (templates step.templateId.toNat).isAnswer step f

/-- How many of the steps the frames complete, the first having `count` answers already. -/
def answered : List TxnStep → ℕ → List FrameMessage → ℕ
  | [], _, _ => 0
  | _ :: _, _, [] => 0
  | step :: rest, count, f :: fs =>
    let count' := count + (isAnswerTo templates step f).toNat
    if needed templates step ≤ count' then answered rest 0 fs + 1 else answered (step :: rest) count' fs

variable {templates}

theorem answered_nil (count : ℕ) (fs : List FrameMessage) : answered templates [] count fs = 0 := by
  cases fs <;> rfl

theorem answered_le : ∀ (fs : List FrameMessage) (steps : List TxnStep) (count : ℕ),
    answered templates steps count fs ≤ fs.length
  | [], steps, count => by cases steps <;> simp [answered]
  | f :: fs, [], count => by simp [answered]
  | f :: fs, step :: rest, count => by
    unfold answered
    dsimp only
    split
    · simpa using answered_le fs rest 0
    · exact (answered_le fs (step :: rest) _).trans (Nat.le_succ _)

/-- The first step takes the frames up to the last answer it needs. -/
theorem answered_cons (step : TxnStep) (rest : List TxnStep) : ∀ (fs : List FrameMessage) (count : ℕ),
    count < needed templates step →
    answered templates (step :: rest) count fs
      = ((afterHits (isAnswerTo templates step) (needed templates step - count) fs).map
          fun fs' => answered templates rest 0 fs' + 1).getD 0
  | [], count, h => by
    obtain ⟨k, hk⟩ := Nat.exists_eq_succ_of_ne_zero (Nat.sub_ne_zero_of_lt h)
    rw [hk]
    rfl
  | f :: fs, count, h => by
    obtain ⟨k, hk⟩ := Nat.exists_eq_succ_of_ne_zero (Nat.sub_ne_zero_of_lt h)
    rw [hk, answered, afterHits]
    cases hf : isAnswerTo templates step f with
    | false =>
      simp only [Bool.toNat_false, Nat.add_zero, Bool.false_eq_true, if_false]
      rw [if_neg (Nat.not_le.mpr h), answered_cons step rest fs count h, hk]
    | true =>
      simp only [Bool.toNat_true, if_true]
      by_cases hlast : needed templates step ≤ count + 1
      · have hk0 : k = 0 := by omega
        rw [if_pos hlast, hk0, afterHits]
        rfl
      · rw [if_neg hlast, answered_cons step rest fs (count + 1) (by omega)]
        rw [show needed templates step - (count + 1) = k by omega]

end Answered

/-! ### A step that counts -/

namespace TransactionRunner

open Books

/-- A template that only counts does nothing but count. -/
theorem matchFrame_counts {s : TransactionRunner} (hc : CountsOnly s.currentTemplate) (f : FrameMessage) :
    s.matchFrame f
      = if s.currentTemplate.isAnswer s.current.step f then (s.keepRxFrame f).countAnswer else s := by
  have hextend : s.currentTemplate.matchesTemplatePattern .extend f = false := by
    unfold TxnTemplateMessage.matchesTemplatePattern
    rw [hc.noExtend]
    rfl
  have habort : s.currentTemplate.matchesTemplatePattern .abort f = false := by
    unfold TxnTemplateMessage.matchesTemplatePattern
    rw [hc.noAbort]
    rfl
  have hrecord : s.recordAnswer f = (s.keepRxFrame f).countAnswer := by
    have hmode : (s.keepRxFrame f).currentTemplate.advanceMode = TxnAdvanceMode.count.code := hc.mode
    unfold recordAnswer
    rw [if_neg (not_not.mpr hmode)]
  unfold matchFrame TxnTemplateMessage.isAnswer
  dsimp only
  rw [hextend, habort, if_neg (fun h => nomatch h), if_neg (fun h => nomatch h)]
  cases hpresent : s.currentTemplate.isPatternPresent .advance with
  | false => simp
  | true =>
    unfold matchAdvance expectedValue
    dsimp only
    cases hid : s.currentTemplate.advance.matchesId f.canId with
    | false => simp
    | true =>
      rw [hrecord, if_neg (not_not.mpr hc.noMismatch)]
      simp

/-- A step that only waits, counts answers, and does not time out before `hi` when it is loaded from `lo` on. -/
structure Awaits (templates : ℕ → TxnTemplateMessage) (lo hi : ℕ) (step : TxnStep) : Prop where
  waits : step.isExpectOnly = true
  counts : CountsOnly (templates step.templateId.toNat)
  inTime : hi ≤ lo + (templates step.templateId.toNat).templateTimeoutUs

section Counting

variable {T : ℕ → TxnTemplateMessage} {lo hi : ℕ} {done rest queue : List StepRecord} {rec : StepRecord}
  {s : TransactionRunner} {f : FrameMessage}

/-- The step of `rec` waits and has been offered `n` answers; no time before `hi` ends its wait. -/
structure Listening (T : ℕ → TxnTemplateMessage) (hi : ℕ) (done : List StepRecord) (rec : StepRecord)
    (rest : List StepRecord) (n : ℕ) (s : TransactionRunner) : Prop where
  kept : Kept s.books done (rec :: rest)
  templates : s.templates = T
  phase : s.current.phase = .wait
  count : s.current.matchCount = min (needed T rec.step) n
  satisfied : s.current.satisfied = decide (needed T rec.step ≤ n)
  extend : s.current.extendRequested = false
  deadline : hi ≤ s.current.deadlineUs
  early : s.earlyFrames = []

namespace Listening

variable {n : ℕ}

variable (h : Listening T hi done rec rest n s)
include h

theorem step : s.current.step = rec.step := by
  obtain ⟨rec', rest', hqueue, hstep, -⟩ := h.kept.ledger.loaded h.kept.active
    (by rw [books_phase, h.phase]; decide)
  cases hqueue
  exact hstep

theorem template : s.currentTemplate = T rec.step.templateId.toNat := by
  unfold currentTemplate
  rw [h.templates, h.step]

theorem isIsotpStep (hc : CountsOnly (T rec.step.templateId.toNat)) :
    s.isIsotpStep = false := by
  unfold TransactionRunner.isIsotpStep
  rw [h.template, hc.generic]
  simp

/-- What a frame that is an answer changes. -/
theorem countAnswer (hn : n < needed T rec.step) (f : FrameMessage) :
    Listening T hi done rec rest (n + 1) (s.keepRxFrame f).countAnswer where
  kept := h.kept
  templates := h.templates
  phase := h.phase
  count := by
    change s.current.matchCount + 1 = _
    rw [h.count]
    omega
  satisfied := by
    have htemplate : (s.keepRxFrame f).currentTemplate = T rec.step.templateId.toNat := h.template
    change decide ((s.keepRxFrame f).currentTemplate.countK.toNat ≤ s.current.matchCount + 1) = _
    rw [htemplate, h.count]
    unfold needed at hn ⊢
    rw [decide_eq_decide]
    omega
  extend := h.extend
  deadline := h.deadline
  early := h.early

/-- Nothing more counts once the step is satisfied. -/
theorem full (hn : needed T rec.step ≤ n) (m : ℕ) :
    Listening T hi done rec rest (n + m) s where
  kept := h.kept
  templates := h.templates
  phase := h.phase
  count := by rw [h.count]; omega
  satisfied := by
    rw [h.satisfied, decide_eq_decide]
    omega
  extend := h.extend
  deadline := h.deadline
  early := h.early

/-- **A frame that reaches the step is counted if it is an answer.** -/
theorem dispatchFrame (hc : CountsOnly (T rec.step.templateId.toNat))
    (f : FrameMessage) :
    Listening T hi done rec rest (n + (isAnswerTo T rec.step f).toNat) (s.dispatchFrame f) := by
  unfold TransactionRunner.dispatchFrame
  rw [h.isIsotpStep hc, if_neg (fun h => nomatch h)]
  by_cases hfull : needed T rec.step ≤ n
  · have hwaiting : ¬s.isWaiting = true := by
      unfold isWaiting
      rw [h.satisfied, decide_eq_true hfull]
      simp
    rw [if_neg hwaiting]
    exact h.full hfull _
  have hwaiting : s.isWaiting = true := by
    unfold isWaiting
    rw [h.satisfied, decide_eq_false hfull, h.phase]
    rfl
  rw [if_pos hwaiting, matchFrame_counts (by rw [h.template]; exact hc), h.template, h.step]
  unfold isAnswerTo
  cases (T rec.step.templateId.toNat).isAnswer rec.step f with
  | false => exact h
  | true => exact h.countAnswer (Nat.not_le.mp hfull) f

omit h

/-- The frames kept early are counted when they are replayed. -/
theorem replay (hc : CountsOnly (T rec.step.templateId.toNat)) : ∀ (fs : List FrameMessage) {s : TransactionRunner}
    {n : ℕ}, Listening T hi done rec rest n s →
    Listening T hi done rec rest (n + fs.countP (isAnswerTo T rec.step)) (s.replay fs)
  | [], _, _, h => h
  | f :: fs, s, n, h => by
    have ih := replay hc fs (h.dispatchFrame hc f)
    have hcount : n + (f :: fs).countP (isAnswerTo T rec.step)
        = n + (isAnswerTo T rec.step f).toNat + fs.countP (isAnswerTo T rec.step) := by
      rw [countP_cons]
      cases isAnswerTo T rec.step f with
      | false => rfl
      | true =>
        simp only [if_true, Bool.toNat_true]
        omega
    unfold TransactionRunner.replay
    rw [if_pos (show s.active = true from h.kept.active), hcount]
    exact ih

include h

variable (hc : CountsOnly (T rec.step.templateId.toNat))
include hc

/-- A frame from the bus reaches the step as long as it waits. -/
theorem onFrame
    (hn : n < needed T rec.step) (hf : f.routeFlags &&& frameRouteFlagEcho = 0) :
    Listening T hi done rec rest (n + (isAnswerTo T rec.step f).toNat) (s.onFrame s.interfaceIndex f) := by
  have hbus : s.isOnBus s.interfaceIndex f = true := decide_eq_true ⟨h.kept.active, rfl, hf⟩
  have hbetween : ¬s.isBetweenSteps = true := by
    unfold isBetweenSteps
    rw [h.phase, h.satisfied, decide_eq_false (Nat.not_le.mpr hn)]
    decide
  unfold TransactionRunner.onFrame
  rw [if_neg (by rw [hbus]; decide), if_neg hbetween]
  exact h.dispatchFrame hc f

/-- A step that waits for more answers waits on. -/
theorem runOnce_waits
    (hn : n < needed T rec.step) {nowUs : ℕ} (hnow : nowUs < hi) : s.runOnce nowUs = (s, false) := by
  have hextension : s.applyExtension nowUs = s := if_neg (by rw [h.extend]; decide)
  unfold runOnce
  rw [h.phase]
  unfold settleWait
  rw [h.isIsotpStep hc, if_neg (fun h => nomatch h)]
  unfold settle
  rw [h.satisfied, decide_eq_false (Nat.not_le.mpr hn), if_neg (fun h => nomatch h)]
  rw [hextension, if_pos (Nat.lt_of_lt_of_le hnow h.deadline)]

/-- A step that has its answers is completed. -/
theorem runOnce_completes
    (hn : needed T rec.step ≤ n) (nowUs : ℕ) : s.runOnce nowUs = (s.completeStep, true) := by
  unfold runOnce
  rw [h.phase]
  unfold settleWait
  rw [h.isIsotpStep hc, if_neg (fun h => nomatch h)]
  unfold settle
  rw [h.satisfied, decide_eq_true hn, if_pos rfl]

end Listening

/-- A template that counts needs at least one answer. -/
theorem Kept.needed_pos (h : Kept s.books done queue) (hT : s.templates = T) (hrec : rec ∈ queue)
    (hc : CountsOnly (T rec.step.templateId.toNat)) : 0 < needed T rec.step := by
  have hadmits := h.admits rec (mem_append_right _ hrec)
  have hcount := (h.typed _ hadmits.1).2
  rw [show s.books.templates = T from hT] at hcount
  unfold needed
  refine Nat.pos_of_ne_zero fun hzero => ?_
  exact hcount hc.mode (UInt8.toNat_inj.mp (hzero.trans rfl))

/-- Nothing is loaded; `early` frames have been kept. -/
structure Between (T : ℕ → TxnTemplateMessage) (done queue : List StepRecord) (early : List FrameMessage)
    (s : TransactionRunner) : Prop where
  kept : Kept s.books done queue
  templates : s.templates = T
  phase : s.current.phase = .idle
  early : s.earlyFrames = early

theorem Listening.completeStep {n : ℕ} (h : Listening T hi done rec rest n s) :
    Between T (done ++ [rec]) rest [] s.completeStep := by
  have hbooks := s.completeStep_books
  obtain ⟨rec', rest', hqueue, -, hsize, hfinal⟩ := h.kept.ledger.loaded h.kept.active
    (by rw [books_phase, h.phase]; decide)
  cases hqueue
  refine ⟨hbooks ▸ h.kept.complete hsize hfinal, ?_, rfl, ?_⟩
  · exact (congrArg Books.templates hbooks).trans h.templates
  · change s.reportMissingRoster.earlyFrames = []
    unfold reportMissingRoster
    split <;> exact h.early

def withEarly (s : TransactionRunner) (fs : List FrameMessage) : TransactionRunner := { s with earlyFrames := fs }

variable {early : List FrameMessage}

/-- A frame that arrives is kept. -/
theorem Between.onFrame (h : Between T done queue early s)
    (hroom : early.length < transactionEarlyFramesMax)
    (hf : f.routeFlags &&& frameRouteFlagEcho = 0) :
    s.onFrame s.interfaceIndex f = s.withEarly (early ++ [f]) := by
  have hbus : s.isOnBus s.interfaceIndex f = true := decide_eq_true ⟨h.kept.active, rfl, hf⟩
  have hbetween : s.isBetweenSteps = true := decide_eq_true (.inl h.phase)
  have hlength : ¬s.earlyFrames.length = transactionEarlyFramesMax := by
    rw [h.early]
    exact Nat.ne_of_lt hroom
  unfold TransactionRunner.onFrame keepEarlyFrame
  rw [if_neg (by rw [hbus]; decide), if_pos hbetween, if_neg hlength, h.early]
  rfl

theorem Between.withEarly (h : Between T done queue early s) (fs : List FrameMessage) :
    Between T done queue fs (s.withEarly fs) := ⟨h.kept, h.templates, h.phase, rfl⟩

variable {nowUs : ℕ}

/-- **The next step is loaded and offered the frames kept early.** -/
theorem Between.loadNextStep (h : Between T done (rec :: rest) early s)
    (hawaits : Awaits T lo hi rec.step) (hnow : lo ≤ nowUs) :
    (s.loadNextStep nowUs).2 = true
      ∧ Listening T hi done rec rest (early.countP (isAnswerTo T rec.step)) (s.loadNextStep nowUs).1 := by
  have hholds := h.kept.ledger.holds h.kept.active
  obtain ⟨t, ht⟩ := StepRing.peek_holds hholds
  have hpeek : s.ring.peek = rec.bytes ++ t := ht
  have hsize := rec.size_pos
  unfold StepRecord.size at hsize
  have havail : ¬s.ring.peek.length = 0 := by
    rw [hpeek, length_append]
    omega
  have hdecode : (TxnStep.decode s.ring.peek).getD ({}, 0) = (rec.step, rec.size) := by
    rw [hpeek, rec.decode_append]
    rfl
  have hload : s.loadRecord s.ring.peek
      = { s with current := { step := rec.step, recordSize := rec.size }, starveDeadlineUs := 0 } := by
    unfold loadRecord
    rw [hdecode]
  have hmessage : ¬rec.step.isMessage = true := by
    intro hm
    have hwaits := hawaits.waits
    rw [(rec.valid.message hm).2] at hwaits
    cases hwaits
  have hfinal : rec.step.isContinued = false := by
    by_contra hcont
    exact hmessage (rec.valid.isMessage (by simpa using hcont))
  have hpositive := h.kept.needed_pos h.templates mem_cons_self hawaits.counts
  -- the loaded step starts to wait without an answer
  let l : TransactionRunner :=
    { s with current := { step := rec.step, recordSize := rec.size }, starveDeadlineUs := 0 }
  have htemplate : l.currentTemplate = T rec.step.templateId.toNat := congrFun h.templates _
  have hopen : l.openIsotp = l := by
    unfold openIsotp
    rw [htemplate, hawaits.counts.generic, if_neg (fun h => nomatch h)]
  have hstarted : Listening T hi done rec rest 0 { l.startWait nowUs with earlyFrames := [] } := by
    refine ⟨h.kept.start hfinal h.kept.length .wait, h.templates, rfl, (Nat.min_zero _).symm, ?_, rfl, ?_, rfl⟩
    · exact (decide_eq_false (by omega)).symm
    · change hi ≤ nowUs + l.currentTemplate.templateTimeoutUs
      rw [htemplate]
      have := hawaits.inTime
      omega
  have hreplayed := Listening.replay hawaits.counts early hstarted
  rw [Nat.zero_add] at hreplayed
  have hstart : s.loadNextStep nowUs = ((l.startWait nowUs).replayEarlyFrames, (l.startWait nowUs).replayEarlyFrames.active) := by
    unfold TransactionRunner.loadNextStep
    rw [if_neg (fun h => havail h.1), if_neg havail, hload, if_neg hmessage]
    unfold startStep
    rw [hopen, if_pos (show l.current.step.isExpectOnly = true from hawaits.waits)]
  have hearly : (l.startWait nowUs).replayEarlyFrames = { l.startWait nowUs with earlyFrames := [] }.replay early := by
    rw [← h.early]
    rfl
  rw [hstart, hearly]
  exact ⟨hreplayed.kept.active, hreplayed⟩

/-! ### No step left -/

/-- Nothing is left to do: the transaction is over or waits for records. -/
def Spent (completedSteps : UInt32) (b : Books) : Prop :=
  b.completedSteps = completedSteps ∧ (b.active = true → b.phase = .idle ∧ b.ring.peek = [])

variable {c : UInt32}

theorem Spent.settled {b b' : Books} (h : Spent c b) (hs : Settled b b') : Spent c b' := by
  cases hs with
  | same => exact h
  | ended m => exact ⟨h.1, fun ha => nomatch ha⟩

/-- A step of the runner finds nothing to do. -/
theorem Spent.runOnce (h : Spent c s.books) (ha : s.active = true) (nowUs : ℕ) :
    Spent c (s.runOnce nowUs).1.books := by
  obtain ⟨hphase, hpeek⟩ := h.2 ha
  have hempty : s.ring.peek.length = 0 := by rw [show s.ring.peek = [] from hpeek]; rfl
  unfold TransactionRunner.runOnce
  rw [show s.current.phase = .idle from hphase]
  unfold TransactionRunner.loadNextStep
  by_cases hend : s.stepsEnded = true
  · rw [if_pos ⟨hempty, hend⟩]
    refine h.settled ?_
    rw [finishDone, finish_books]
    exact .ended _
  · rw [if_neg (fun h => hend h.2), if_pos hempty]
    exact h.settled (s.waitForSteps_settled nowUs)

theorem Spent.flushProgress (h : Spent c s.books) (nowUs : ℕ) : Spent c (s.flushProgress nowUs).books := by
  rcases s.flushProgress_cases nowUs with ⟨due, he⟩ | he
  · rw [he]
    exact h
  · rw [he, reportProgress_books]
    exact h

/-! ### Ticks -/

/-- The steps of `queue` are still to be done, the first of them with `n` answers. -/
def Stage (T : ℕ → TxnTemplateMessage) (hi : ℕ) (done queue : List StepRecord) (n : ℕ) (s : TransactionRunner) : Prop :=
  match queue with
  | [] => Spent (ofNat (stepCount done)) s.books
  | rec :: rest => Listening T hi done rec rest n s ∧ n < needed T rec.step

theorem Between.runSteps (h : Between T done queue [] s) (hawaits : ∀ r ∈ queue, Awaits T lo hi r.step)
    (hlo : lo ≤ nowUs) (hhi : nowUs < hi) (budget : ℕ) :
    Stage T hi done queue 0 (runSteps nowUs (budget + 2) s) := by
  cases queue with
  | nil =>
    refine runSteps_rule (I := fun s => Spent (ofNat (stepCount done)) s.books)
      (fun s ha h => h.runOnce ha nowUs) (budget + 2) ⟨h.kept.ledger.completed, fun _ => ⟨h.phase, ?_⟩⟩
    exact StepRing.peek_nil (h.kept.ledger.holds h.kept.active)
  | cons rec rest =>
    have hrec := hawaits rec mem_cons_self
    obtain ⟨hmore, hlistening⟩ := h.loadNextStep hrec hlo
    have hone : s.runOnce nowUs = s.loadNextStep nowUs := by
      unfold runOnce
      rw [h.phase]
    have hpos := hlistening.kept.needed_pos hlistening.templates mem_cons_self hrec.counts
    have hwaits := hlistening.runOnce_waits hrec.counts hpos hhi
    have hrun : runSteps nowUs (budget + 2) s = (s.loadNextStep nowUs).1 := by
      unfold runSteps
      rw [if_neg (by rw [show s.active = true from h.kept.active]; decide), hone]
      dsimp only
      rw [hmore, if_pos rfl]
      unfold runSteps
      rw [if_neg (by rw [show (s.loadNextStep nowUs).1.active = true from hlistening.kept.active]; decide), hwaits]
      rfl
    rw [hrun]
    exact ⟨hlistening, hpos⟩

/-- The first step has got `n` answers: if they are enough it is done, and else it waits on. -/
def Served (T : ℕ → TxnTemplateMessage) (hi : ℕ) (done : List StepRecord) (rec : StepRecord) (rest : List StepRecord) (n : ℕ)
    (s : TransactionRunner) : Prop :=
  if needed T rec.step ≤ n then Stage T hi (done ++ [rec]) rest 0 s else Stage T hi done (rec :: rest) n s

section

variable {n : ℕ} (h : Listening T hi done rec rest n s) (hawaits : ∀ r ∈ rec :: rest, Awaits T lo hi r.step)
  (hlo : lo ≤ nowUs) (hhi : nowUs < hi)
include h

include hawaits hlo hhi in
/-- The steps of a tick for a step that listens: it waits on, or is completed and the next one is loaded. -/
theorem Listening.runSteps (budget : ℕ) : Served T hi done rec rest n (runSteps nowUs (budget + 3) s) := by
  unfold Served
  have hrec := hawaits rec mem_cons_self
  have hactive : ¬(!s.active) = true := by rw [show s.active = true from h.kept.active]; decide
  by_cases hn : needed T rec.step ≤ n
  · have hrun : TransactionRunner.runSteps nowUs (budget + 3) s
        = TransactionRunner.runSteps nowUs (budget + 2) s.completeStep := by
      conv_lhs => unfold TransactionRunner.runSteps
      rw [if_neg hactive, h.runOnce_completes hrec.counts hn nowUs]
      rfl
    rw [if_pos hn, hrun]
    exact h.completeStep.runSteps (fun r hr => hawaits r (mem_cons_of_mem _ hr)) hlo hhi budget
  · have hrun : TransactionRunner.runSteps nowUs (budget + 3) s = s := by
      unfold TransactionRunner.runSteps
      rw [if_neg hactive, h.runOnce_waits hrec.counts (Nat.not_le.mp hn) hhi]
      rfl
    rw [if_neg hn, hrun]
    exact ⟨h, Nat.not_le.mp hn⟩

/-- The report at the end of a tick changes nothing for the step. -/
theorem Listening.flushProgress (nowUs : ℕ) :
    Listening T hi done rec rest n (s.flushProgress nowUs) := by
  have hreported : Listening T hi done rec rest n s.reportProgress := by
    obtain ⟨hactive, hl, hcap, htyped, hadmits, hseq, hlength⟩ := h.kept
    exact ⟨⟨hactive, ⟨hl.1, hl.2, hl.3, hl.4, hl.5, hl.6, hl.7⟩, hcap, htyped, hadmits, hseq, hlength⟩, h.templates,
      h.phase, h.count, h.satisfied, h.extend, h.deadline, h.early⟩
  rcases s.flushProgress_cases nowUs with ⟨due, he⟩ | he
  · rw [he]
    exact ⟨h.kept, h.templates, h.phase, h.count, h.satisfied, h.extend, h.deadline, h.early⟩
  · rw [he]
    exact hreported

omit h in
/-- A tick is its steps, as far as they go. -/
theorem tick_stage {n : ℕ} (hactive : s.active = true)
    (h : Stage T hi done queue n (runSteps nowUs transactionStepsPerTickMax (s.stampTick nowUs))) :
    Stage T hi done queue n (s.tick nowUs) := by
  unfold tick
  rw [if_neg (by rw [hactive]; decide)]
  dsimp only
  generalize runSteps nowUs transactionStepsPerTickMax (s.stampTick nowUs) = t at h
  cases queue with
  | nil =>
    split
    · exact Spent.flushProgress h nowUs
    · exact h
  | cons rec rest =>
    rw [if_pos (show t.active = true from h.1.kept.active)]
    exact ⟨h.1.flushProgress nowUs, h.2⟩

omit h in
theorem tick_served (hactive : s.active = true)
    (h : Served T hi done rec rest n (runSteps nowUs transactionStepsPerTickMax (s.stampTick nowUs))) :
    Served T hi done rec rest n (s.tick nowUs) := by
  unfold Served at h ⊢
  by_cases hn : needed T rec.step ≤ n
  · rw [if_pos hn] at h ⊢
    exact tick_stage hactive h
  · rw [if_neg hn] at h ⊢
    exact tick_stage hactive h

include hawaits hlo hhi in
theorem Listening.tick : Served T hi done rec rest n (s.tick nowUs) := by
  have hstamped : Listening T hi done rec rest n (s.stampTick nowUs) :=
    ⟨h.kept, h.templates, h.phase, h.count, h.satisfied, h.extend, h.deadline, h.early⟩
  exact tick_served h.kept.active (hstamped.runSteps hawaits hlo hhi 61)

omit h
include hawaits hlo hhi

/-- **A tick between steps**: the first step takes the frames kept, the others none of them. -/
theorem Between.tick (h : Between T done (rec :: rest) early s) :
    Served T hi done rec rest (early.countP (isAnswerTo T rec.step)) (s.tick nowUs) := by
  have hstamped : Between T done (rec :: rest) early (s.stampTick nowUs) := ⟨h.kept, h.templates, h.phase, h.early⟩
  obtain ⟨hmore, hlistening⟩ := hstamped.loadNextStep (hawaits rec mem_cons_self) hlo
  have hfirst : TransactionRunner.runSteps nowUs transactionStepsPerTickMax (s.stampTick nowUs)
      = TransactionRunner.runSteps nowUs (60 + 3) ((s.stampTick nowUs).loadNextStep nowUs).1 := by
    have hone : (s.stampTick nowUs).runOnce nowUs = (s.stampTick nowUs).loadNextStep nowUs := by
      unfold runOnce
      rw [hstamped.phase]
    conv_lhs => unfold TransactionRunner.runSteps
    rw [if_neg (by rw [show (s.stampTick nowUs).active = true from h.kept.active]; decide), hone]
    dsimp only
    rw [hmore, if_pos rfl]
  have hrun := hlistening.runSteps hawaits hlo hhi 60
  rw [← hfirst] at hrun
  exact tick_served h.kept.active hrun

end

/-! ### Two runs -/

/-- Frames arrive on the transaction's bus. -/
def arrive (s : TransactionRunner) (fs : List FrameMessage) : TransactionRunner :=
  fs.foldl (fun s f => s.onFrame s.interfaceIndex f) s

/-- Frames arrive on the transaction's bus, with a tick after each. -/
def arriveTicked (s : TransactionRunner) (answers : List (FrameMessage × ℕ)) : TransactionRunner :=
  answers.foldl (fun s a => (s.onFrame s.interfaceIndex a.1).tick a.2) s

/-- A frame and a tick for a step that listens. -/
theorem Listening.answer {n : ℕ} (h : Listening T hi done rec rest n s) (hn : n < needed T rec.step)
    (hawaits : ∀ r ∈ rec :: rest, Awaits T lo hi r.step)
    (hf : f.routeFlags &&& frameRouteFlagEcho = 0) (hlo : lo ≤ nowUs) (hhi : nowUs < hi) :
    Served T hi done rec rest (n + (isAnswerTo T rec.step f).toNat) ((s.onFrame s.interfaceIndex f).tick nowUs) :=
  (h.onFrame (hawaits rec mem_cons_self).counts hn hf).tick hawaits hlo hhi

theorem Spent.tick (h : Spent c s.books) (nowUs : ℕ) : Spent c (s.tick nowUs).books := by
  cases ha : s.active with
  | false =>
    rw [tick_inactive ha]
    exact h
  | true =>
    exact tick_rule (I := fun s => Spent c s.books) (J := fun s => Spent c s.books)
      (fun s ha h => h.runOnce ha nowUs) (fun _ _ h => h) (fun _ _ h => h.flushProgress nowUs) ha h

theorem Spent.answer (h : Spent c s.books) (i : UInt8) (f : FrameMessage) (nowUs : ℕ) :
    Spent c ((s.onFrame i f).tick nowUs).books :=
  Spent.tick (s := s.onFrame i f) (h.settled (s.onFrame_settled i f)) nowUs

theorem stepCount_snoc (h : Awaits T lo hi rec.step) : stepCount (done ++ [rec]) = stepCount done + 1 := by
  have hfinal : rec.step.isContinued = false := by
    by_contra hcont
    have hm := rec.valid.isMessage (by simpa using hcont)
    have hwaits := h.waits
    rw [(rec.valid.message hm).2] at hwaits
    cases hwaits
  rw [stepCount_append, stepCount_final hfinal]

/-- **With a tick after each frame the runner completes the steps that the frames answer.** -/
theorem Stage.late : ∀ (answers : List (FrameMessage × ℕ)) {done queue : List StepRecord} {n : ℕ}
    {s : TransactionRunner}, Stage T hi done queue n s → (∀ r ∈ queue, Awaits T lo hi r.step) →
    (∀ a ∈ answers, a.1.routeFlags &&& frameRouteFlagEcho = 0 ∧ lo ≤ a.2 ∧ a.2 < hi) →
    (s.arriveTicked answers).completedSteps
      = ofNat (stepCount done + answered T (queue.map StepRecord.step) n (answers.map Prod.fst))
  | [], done, [], n, s, h, _, _ => h.1
  | [], done, rec :: rest, n, s, h, _, _ => h.1.kept.ledger.completed
  | a :: answers, done, [], n, s, h, hawaits, hanswers => by
    have hstep : Stage T hi done [] n ((s.onFrame s.interfaceIndex a.1).tick a.2) := Spent.answer h _ _ _
    have ih := Stage.late answers hstep hawaits fun b hb => hanswers b (mem_cons_of_mem _ hb)
    rw [map_nil, answered_nil] at ih ⊢
    exact ih
  | a :: answers, done, rec :: rest, n, s, ⟨h, hn⟩, hawaits, hanswers => by
    obtain ⟨hf, hlo, hhi⟩ := hanswers a mem_cons_self
    have hlater := fun b hb => hanswers b (mem_cons_of_mem a hb)
    have hstep := h.answer hn hawaits hf hlo hhi
    change (((s.onFrame s.interfaceIndex a.1).tick a.2).arriveTicked answers).completedSteps = _
    rw [map_cons, map_cons, answered]
    unfold Served at hstep
    split at hstep
    · rename_i hfull
      have ih := Stage.late answers hstep (fun r hr => hawaits r (mem_cons_of_mem _ hr)) hlater
      rw [if_pos hfull, ih, stepCount_snoc (hawaits rec mem_cons_self)]
      congr 1
      omega
    · rename_i hfull
      have ih := Stage.late answers hstep hawaits hlater
      rw [if_neg hfull, ih]
      rfl

variable {answers : List (FrameMessage × ℕ)}

/-- The same from between two steps: the first frame is kept, and offered to the first step by the tick behind it. -/
theorem Between.late (h : Between T done queue [] s) (hawaits : ∀ r ∈ queue, Awaits T lo hi r.step)
   
    (hanswers : ∀ a ∈ answers, a.1.routeFlags &&& frameRouteFlagEcho = 0 ∧ lo ≤ a.2 ∧ a.2 < hi) :
    (s.arriveTicked answers).completedSteps
      = ofNat (stepCount done + answered T (queue.map StepRecord.step) 0 (answers.map Prod.fst)) := by
  cases answers with
  | nil =>
    have hzero : answered T (queue.map StepRecord.step) 0 [] = 0 := Nat.le_zero.mp (answered_le [] _ 0)
    rw [map_nil, hzero]
    exact h.kept.ledger.completed
  | cons a answers =>
    obtain ⟨hf, hlo, hhi⟩ := hanswers a mem_cons_self
    have hlater := fun b hb => hanswers b (mem_cons_of_mem a hb)
    change (((s.onFrame s.interfaceIndex a.1).tick a.2).arriveTicked answers).completedSteps = _
    cases queue with
    | nil =>
      have hspent : Spent (ofNat (stepCount done)) s.books :=
        ⟨h.kept.ledger.completed, fun _ => ⟨h.phase, StepRing.peek_nil (h.kept.ledger.holds h.kept.active)⟩⟩
      have hstep : Stage T hi done [] 0 ((s.onFrame s.interfaceIndex a.1).tick a.2) := hspent.answer _ _ _
      have hrest := Stage.late answers hstep hawaits hlater
      rw [map_nil, answered_nil] at hrest ⊢
      exact hrest
    | cons rec rest =>
      have hkept := h.withEarly ([] ++ [a.1])
      rw [← h.onFrame (by decide) hf] at hkept
      have hcount : ([] ++ [a.1]).countP (isAnswerTo T rec.step) = 0 + (isAnswerTo T rec.step a.1).toNat := by
        cases hans : isAnswerTo T rec.step a.1 with
        | false => simp [hans]
        | true => simp [hans]
      have hstep := Between.tick hawaits hlo hhi hkept
      unfold Served at hstep
      rw [hcount] at hstep
      rw [map_cons, map_cons, answered]
      split at hstep
      · rename_i hfull
        rw [if_pos hfull, Stage.late answers hstep (fun r hr => hawaits r (mem_cons_of_mem _ hr)) hlater,
          stepCount_snoc (hawaits rec mem_cons_self)]
        congr 1
        omega
      · rename_i hfull
        rw [if_neg hfull, Stage.late answers hstep hawaits hlater]
        rfl

theorem Between.arrive : ∀ (fs : List FrameMessage) {early : List FrameMessage} {s : TransactionRunner},
    Between T done queue early s → early.length + fs.length ≤ transactionEarlyFramesMax →
    (∀ f ∈ fs, f.routeFlags &&& frameRouteFlagEcho = 0) → s.arrive fs = s.withEarly (early ++ fs)
  | [], early, s, h, _, _ => by
    rw [append_nil, ← h.early]
    rfl
  | f :: fs, early, s, h, hroom, hbus => by
    rw [length_cons] at hroom
    have hone := h.onFrame (by omega) (hbus f mem_cons_self)
    change (s.onFrame s.interfaceIndex f).arrive fs = _
    rw [hone]
    have ih := Between.arrive fs (h.withEarly (early ++ [f]))
      (by rw [length_append, length_singleton]; omega) fun g hg => hbus g (mem_cons_of_mem _ hg)
    rw [append_assoc] at ih
    exact ih

/-- **With the frames kept between steps the runner completes at most the first step.** -/
theorem Between.early_completed (h : Between T done (rec :: rest) early s)
    (hawaits : ∀ r ∈ rec :: rest, Awaits T lo hi r.step) (hlo : lo ≤ nowUs) (hhi : nowUs < hi) :
    (s.tick nowUs).completedSteps = ofNat
      (stepCount done + if needed T rec.step ≤ early.countP (isAnswerTo T rec.step) then 1 else 0) := by
  have htick := Between.tick hawaits hlo hhi h
  unfold Served at htick
  split at htick
  · rename_i hfull
    rw [if_pos hfull]
    rw [← stepCount_snoc (hawaits rec mem_cons_self)]
    cases rest with
    | nil => exact htick.1
    | cons rec' rest' => exact htick.1.kept.ledger.completed
  · rename_i hfull
    rw [if_neg hfull]
    exact htick.1.kept.ledger.completed

end Counting

/-! ### Pushing does not look at the frames kept -/

/-- Batches arrive. -/
def pushAll (s : TransactionRunner) (bodies : List (List UInt8)) : TransactionRunner :=
  bodies.foldl (fun s body => s.handle (.steps body)) s

theorem pushRecord_withEarly (s : TransactionRunner) (fs : List FrameMessage) (step : TxnStep) (record : List UInt8)
    (seq : UInt32) :
    (s.withEarly fs).pushRecord step record seq
      = ((s.pushRecord step record seq).1.withEarly fs, (s.pushRecord step record seq).2) := by
  rw [pushRecord_eq, pushRecord_eq, show (s.withEarly fs).books = s.books from rfl]
  cases accept s.books step record with
  | error reason => rfl
  | ok ring => rfl

theorem pushRecords_withEarly (isEnd : Bool) (fs : List FrameMessage) : ∀ (count : ℕ) (s : TransactionRunner)
    (records : List UInt8) (seq : UInt32), (s.withEarly fs).pushRecords records seq isEnd count
      = (s.pushRecords records seq isEnd count).withEarly fs
  | 0, _, _, _ => rfl
  | count + 1, s, records, seq => by
    unfold pushRecords
    split
    · rfl
    · rw [pushRecord_withEarly]
      dsimp only
      split
      · rfl
      · exact pushRecords_withEarly isEnd fs count _ _ _

theorem steps_withEarly (s : TransactionRunner) (fs : List FrameMessage) (body : List UInt8) :
    (s.withEarly fs).handle (.steps body) = (s.handle (.steps body)).withEarly fs := by
  simp only [handle]
  cases TxnStepsMessage.decode body with
  | none => rfl
  | some m =>
    change (s.withEarly fs).pushSteps m = (s.pushSteps m).withEarly fs
    unfold pushSteps
    change (if (!s.active) = true ∨ m.txnId ≠ s.txnId then _ else if s.stepsEnded = true ∨ m.firstSeq ≠ s.nextSeq then _
      else _) = _
    split
    · rfl
    split
    · rfl
    · exact pushRecords_withEarly _ fs _ s _ _

theorem pushAll_withEarly (fs : List FrameMessage) : ∀ (bodies : List (List UInt8)) (s : TransactionRunner),
    (s.withEarly fs).pushAll bodies = (s.pushAll bodies).withEarly fs
  | [], _ => rfl
  | body :: bodies, s => by
    change ((s.withEarly fs).handle (.steps body)).pushAll bodies = _
    rw [steps_withEarly]
    exact pushAll_withEarly fs bodies _

/-- A batch that is taken changes the ring and the counters of what was pushed. -/
theorem pushRecords_eq (isEnd : Bool) : ∀ (count : ℕ) {s : TransactionRunner} {records : List UInt8} {seq : UInt32},
    (s.pushRecords records seq isEnd count).active = true →
    ∃ ring pushedBytes nextSeq stepsEnded, s.pushRecords records seq isEnd count
      = { s with ring, pushedBytes, nextSeq, stepsEnded }
  | 0, s, _, _, _ => ⟨s.ring, s.pushedBytes, _, _, rfl⟩
  | count + 1, s, records, seq, h => by
    unfold pushRecords at h ⊢
    split at h
    · cases h
    · rename_i step size hdecode
      rw [pushRecord_eq] at h ⊢
      generalize accept s.books step (records.take size) = accepted at h
      cases accepted with
      | error reason => cases h
      | ok ring =>
        obtain ⟨ring', pushedBytes', nextSeq, stepsEnded, hrest⟩ := pushRecords_eq isEnd count h
        exact ⟨ring', pushedBytes', nextSeq, stepsEnded, hrest⟩

theorem steps_eq {s : TransactionRunner} {body : List UInt8} (h : (s.handle (.steps body)).active = true) :
    ∃ ring pushedBytes nextSeq stepsEnded, s.handle (.steps body)
      = { s with ring, pushedBytes, nextSeq, stepsEnded } := by
  simp only [handle] at h ⊢
  cases hdecode : TxnStepsMessage.decode body with
  | none => exact ⟨s.ring, s.pushedBytes, s.nextSeq, s.stepsEnded, rfl⟩
  | some m =>
    rw [hdecode] at h
    change (s.pushSteps m).active = true at h
    change ∃ ring pushedBytes nextSeq stepsEnded, s.pushSteps m = _
    unfold pushSteps at h ⊢
    split
    · exact ⟨s.ring, s.pushedBytes, s.nextSeq, s.stepsEnded, rfl⟩
    rename_i hmine
    rw [if_neg hmine] at h
    split
    · rename_i hseq
      rw [if_pos hseq] at h
      cases h
    · rename_i hseq
      rw [if_neg hseq] at h
      exact pushRecords_eq _ _ h

/-- Batches that are taken leave the runner between steps, with their records in the ring. -/
theorem pushAll_between {base : List FrameMessage} {T : ℕ → TxnTemplateMessage} :
    ∀ (bodies : List (List UInt8)) {s : TransactionRunner} {done queue : List StepRecord},
    Doing base done queue s → Between T done queue [] s → (s.pushAll bodies).active = true →
    ∃ rs : List StepRecord, rs.map StepRecord.step = pushedBy s.txnId (bodies.map .steps)
      ∧ Between T done (queue ++ rs) [] (s.pushAll bodies)
  | [], s, done, queue, _, h, _ => ⟨[], rfl, by rw [append_nil]; exact h⟩
  | body :: bodies, s, done, queue, hd, h, hactive => by
    change ((s.handle (.steps body)).pushAll bodies).active = true at hactive
    obtain ⟨rs, hrs, hout⟩ := steps_doing hd body
    rcases hout with ⟨hd', -⟩ | hover
    · obtain ⟨ring, pushedBytes, nextSeq, stepsEnded, heq⟩ := steps_eq hd'.kept.active
      have hid : (s.handle (.steps body)).txnId = s.txnId := by rw [heq]
      have hone : Between T done (queue ++ rs) [] (s.handle (.steps body)) := by
        refine ⟨hd'.kept, ?_, ?_, ?_⟩
        · rw [heq]
          exact h.templates
        · rw [heq]
          exact h.phase
        · rw [heq]
          exact h.early
      obtain ⟨rs', hrs', hrest⟩ := pushAll_between bodies hd' hone hactive
      refine ⟨rs ++ rs', ?_, ?_⟩
      · rw [map_append, hrs, hrs', hid]
        rfl
      · rw [← append_assoc]
        exact hrest
    · -- a transaction that is over takes no batch
      have hdead : ∀ (bodies : List (List UInt8)) {s : TransactionRunner}, s.active = false →
          (s.pushAll bodies).active = false := by
        intro bodies
        induction bodies with
        | nil => exact fun h => h
        | cons b bs ih => exact fun h => ih (handle_inactive h (fun _ _ _ he => nomatch he))
      rw [hdead bodies hover.1] at hactive
      cases hactive

/-! ### Early and late -/

/-- The frames behind the last one that the first step needs do not complete the second. -/
def SecondUnanswered (T : ℕ → TxnTemplateMessage) (steps : List TxnStep) (frames : List FrameMessage) : Prop :=
  ∀ first second rest, steps = first :: second :: rest →
    ∀ later, afterHits (isAnswerTo T first) (needed T first) frames = some later →
      later.countP (isAnswerTo T second) < needed T second

/-- The first step alone is what the frames complete iff the second is not answered. -/
theorem answered_eq_first_iff {T : ℕ → TxnTemplateMessage} {steps : List TxnStep} {frames : List FrameMessage}
    (hpos : ∀ s ∈ steps, 0 < needed T s) {first : TxnStep} {rest : List TxnStep} (hsteps : steps = first :: rest) :
    (if needed T first ≤ frames.countP (isAnswerTo T first) then 1 else 0) = answered T steps 0 frames
      ↔ SecondUnanswered T steps frames := by
  subst hsteps
  have hfirst := hpos first mem_cons_self
  rw [answered_cons first rest frames 0 hfirst, Nat.sub_zero]
  have hsome := afterHits_isSome_iff (isAnswerTo T first) (needed T first) frames
  cases hafter : afterHits (isAnswerTo T first) (needed T first) frames with
  | none =>
    rw [hafter] at hsome
    have hfew : ¬needed T first ≤ frames.countP (isAnswerTo T first) := fun h => nomatch hsome.mpr h
    rw [if_neg hfew]
    refine iff_of_true rfl ?_
    intro first' second rest' heq later hlater
    cases heq
    rw [hafter] at hlater
    cases hlater
  | some later =>
    rw [hafter] at hsome
    rw [if_pos (hsome.mp rfl)]
    have hnone : 1 = (Option.map (fun fs => answered T rest 0 fs + 1) (some later)).getD 0
        ↔ answered T rest 0 later = 0 := by
      simp
    rw [hnone]
    cases rest with
    | nil =>
      refine iff_of_true (answered_nil 0 later) ?_
      intro _ _ _ heq
      cases heq
    | cons second rest =>
      have hsecond := hpos second (mem_cons_of_mem _ mem_cons_self)
      have hsome' := afterHits_isSome_iff (isAnswerTo T second) (needed T second) later
      rw [answered_cons second rest later 0 hsecond, Nat.sub_zero]
      constructor
      · intro hzero first' second' rest' heq later' hlater'
        cases heq
        rw [hafter] at hlater'
        cases hlater'
        by_contra hmany
        obtain ⟨fs, hfs⟩ := Option.isSome_iff_exists.mp (hsome'.mpr (Nat.not_lt.mp hmany))
        rw [hfs] at hzero
        cases hzero
      · intro hfew
        have hlt := hfew first second rest rfl later hafter
        cases hsecond' : afterHits (isAnswerTo T second) (needed T second) later with
        | none => rfl
        | some fs =>
          rw [hsecond'] at hsome'
          exact absurd (hsome'.mp rfl) (Nat.not_le.mpr hlt)

/-- Small counts are told apart by the counter. -/
private theorem completed_inj {c a b : ℕ} (ha : a ≤ transactionEarlyFramesMax) (hb : b ≤ transactionEarlyFramesMax) :
    UInt32.ofNat (c + a) = UInt32.ofNat (c + b) ↔ a = b := by
  simp only [transactionEarlyFramesMax] at ha hb
  rw [UInt32.ofNat_add, UInt32.ofNat_add, UInt32.add_right_inj, ← UInt32.toNat_inj, UInt32.toNat_ofNat',
    UInt32.toNat_ofNat', Nat.mod_eq_of_lt (by omega), Nat.mod_eq_of_lt (by omega)]

/-- **Frames that arrive between steps complete the same steps as frames that arrive one by one after the steps were
pushed iff they do not complete the second.** -/
theorem early_iff_late {r : TransactionRunner} (hr : r.active = false)
    (hring : r.windowBytes + txnStepRecordSizeMax = r.ring.capacity) (hcap : r.ring.capacity ≤ 2 ^ 32)
    {b : TxnBeginMessage} (hb : b.isBeginValid = true) (i : UInt8) (t₀ : ℕ) {es : List RunnerEvent}
    (hes : Along handle (fun s _ => s.active = true) (r.begin b i t₀).1 es) {s : TransactionRunner}
    (hs : run handle (r.begin b i t₀).1 es = s) (hactive : s.active = true) (hidle : s.current.phase = .idle)
    (hempty : s.ring.peek = []) (hearly : s.earlyFrames = []) {bodies : List (List UInt8)}
    (hpush : (s.pushAll bodies).active = true) {lo hi : ℕ}
    (hsteps : ∀ step ∈ pushedBy s.txnId (bodies.map .steps), Awaits s.templates lo hi step)
    (hfew : answers.length ≤ transactionEarlyFramesMax)
    (hanswers : ∀ a ∈ answers, a.1.routeFlags &&& frameRouteFlagEcho = 0 ∧ lo ≤ a.2 ∧ a.2 < hi)
    {before behind : List FrameMessage} (hsplit : answers.map Prod.fst = before ++ behind) {nowUs : ℕ}
    (hlo : lo ≤ nowUs) (hhi : nowUs < hi) :
    ((((s.arrive before).pushAll bodies).arrive behind).tick nowUs).completedSteps
        = ((s.pushAll bodies).arriveTicked answers).completedSteps
      ↔ SecondUnanswered s.templates (pushedBy s.txnId (bodies.map .steps)) (answers.map Prod.fst) := by
  -- the account of the transaction so far: everything pushed is done
  obtain ⟨rs₀, -, hout⟩ := run_outcome es (begin_doing hr hring hcap hb i t₀) hes
  rw [hs] at hout
  obtain ⟨done, queue, hd⟩ : ∃ done queue, Doing r.stepFrames done queue s := by
    cases hout with
    | going _ hdoing _ => exact ⟨_, _, hdoing⟩
    | finished hover => exact absurd (hactive.symm.trans hover) (by decide)
  have hqueue : queue = [] := by
    cases queue with
    | nil => rfl
    | cons rec rest =>
      obtain ⟨t, ht⟩ := StepRing.peek_holds (hd.kept.ledger.holds hd.kept.active)
      have hsize := rec.size_pos
      unfold StepRecord.size at hsize
      rw [show s.books.ring.peek = [] from hempty] at ht
      have := congrArg length ht
      rw [length_append, length_nil] at this
      omega
  subst hqueue
  have hbetween : Between s.templates done [] [] s := ⟨hd.kept, rfl, hidle, hearly⟩
  obtain ⟨rs, hrs, hpushed⟩ := pushAll_between bodies hd hbetween hpush
  rw [nil_append] at hpushed
  rw [← hrs] at hsteps ⊢
  have hawaits : ∀ r ∈ rs, Awaits s.templates lo hi r.step := fun r hr => hsteps _ (mem_map_of_mem hr)
  have hpos : ∀ step ∈ rs.map StepRecord.step, 0 < needed s.templates step := by
    intro step hstep
    obtain ⟨r, hr, rfl⟩ := mem_map.mp hstep
    exact hpushed.kept.needed_pos hpushed.templates hr (hawaits r hr).counts
  -- frames that arrive before the steps are pushed are kept as those behind are
  have hbus : ∀ f ∈ before ++ behind, f.routeFlags &&& frameRouteFlagEcho = 0 := by
    rw [← hsplit]
    intro f hf
    obtain ⟨a, ha, rfl⟩ := mem_map.mp hf
    exact (hanswers a ha).1
  have hlength : before.length + behind.length ≤ transactionEarlyFramesMax := by
    rw [← length_append, ← hsplit, length_map]
    exact hfew
  have hfirst : (s.arrive before).pushAll bodies = (s.pushAll bodies).withEarly before := by
    rw [hbetween.arrive before (by rw [length_nil]; omega) fun f hf => hbus f (mem_append_left _ hf),
      nil_append]
    exact pushAll_withEarly before bodies s
  have hkept : ((s.arrive before).pushAll bodies).arrive behind = (s.pushAll bodies).withEarly (before ++ behind) := by
    rw [hfirst]
    exact (hpushed.withEarly before).arrive behind hlength fun f hf => hbus f (mem_append_right _ hf)
  rw [hkept, hpushed.late hawaits hanswers, hsplit]
  have hanswered : answered s.templates (rs.map StepRecord.step) 0 (before ++ behind) ≤ transactionEarlyFramesMax :=
    (answered_le _ _ _).trans (by rw [length_append]; exact hlength)
  cases rs with
  | nil =>
    have hspent : Spent (ofNat (stepCount done)) ((s.pushAll bodies).withEarly (before ++ behind)).books :=
      ⟨hpushed.kept.ledger.completed, fun _ =>
        ⟨hpushed.phase, StepRing.peek_nil (hpushed.kept.ledger.holds hpushed.kept.active)⟩⟩
    refine iff_of_true ?_ (fun _ _ _ h => nomatch h)
    rw [map_nil, answered_nil]
    exact (hspent.tick nowUs).1
  | cons rec rest =>
    rw [(hpushed.withEarly (before ++ behind)).early_completed hawaits hlo hhi,
      completed_inj (by split <;> decide) hanswered]
    exact answered_eq_first_iff hpos rfl

/-! ### Two answers for two steps -/

/-- Waits a second for one frame with the identifier 0x7e8. -/
def waitTemplate : TxnTemplateMessage :=
  { txnId := 1, advanceMode := TxnAdvanceMode.count.code, countK := 1, timeoutMs := 1000, patternsPresent := 1
    advance := { canId := 0x7e8, canMask := 0x7ff } }

def waitStep : TxnStep := { flags := txnStepFlagExpectOnly }

def waitAnswer : FrameMessage := { FrameMessage.zero with canId := 0x7e8, payload := [1] }

/-- A transaction that has begun and knows the template. -/
def waitReady : TransactionRunner := run handle begun [.template waitTemplate]

theorem early_iff_late_one :
    (((waitReady.arrive [waitAnswer]).pushAll [batch [waitStep, waitStep]]).tick 0).completedSteps
      = ((waitReady.pushAll [batch [waitStep, waitStep]]).arriveTicked [(waitAnswer, 0)]).completedSteps := by
  have hpushed : pushedBy waitReady.txnId ([batch [waitStep, waitStep]].map .steps) = [waitStep, waitStep] := by
    decide +kernel
  have hactive : (waitReady.pushAll [batch [waitStep, waitStep]]).active = true := by decide +kernel
  have hsteps : ∀ step ∈ pushedBy waitReady.txnId ([batch [waitStep, waitStep]].map .steps),
      Awaits waitReady.templates 0 1000 step := by
    rw [hpushed]
    intro step hstep
    have hwait : step = waitStep := by simpa using hstep
    rw [hwait]
    exact ⟨by decide, ⟨by decide, by decide, by decide, by decide, by decide⟩, by decide⟩
  have halong : Along handle (fun s _ => s.active = true) begun [.template waitTemplate] := by decide
  have hanswers : ∀ a ∈ [(waitAnswer, 0)], a.1.routeFlags &&& frameRouteFlagEcho = 0 ∧ 0 ≤ a.2 ∧ a.2 < 1000 := by
    decide
  have hsplit : [(waitAnswer, 0)].map Prod.fst = [waitAnswer] ++ [] := rfl
  refine (early_iff_late (r := smallStart) (b := ⟨3, 0, 0, {}⟩) rfl rfl (by decide) rfl 0 0 halong (s := waitReady)
    rfl rfl rfl (by decide) rfl hactive hsteps (by decide) hanswers hsplit (Nat.le_refl 0) (by decide)).mpr ?_
  rw [hpushed]
  intro first second rest heq later hlater
  cases heq
  cases hlater
  decide

/-- Two frames for two steps: kept between steps, the second is lost. -/
theorem second_answer_lost :
    (((waitReady.arrive [waitAnswer, waitAnswer]).pushAll [batch [waitStep, waitStep]]).tick 0).completedSteps = 1
      ∧ ((waitReady.pushAll [batch [waitStep, waitStep]]).arriveTicked
        [(waitAnswer, 0), (waitAnswer, 0)]).completedSteps = 2 := by
  constructor <;> decide +kernel

end TransactionRunner
end CanHub
