/-
# What a transaction that ends DONE has put on the bus

The records pushed into a transaction ask for frames: a generic step that
transmits asks for its frame, and the records of a message, together, for the
segments of the message. `gathered` says, from the records alone, which steps
there are and which messages they carry; `Carried` says that a list of frames
is, in order, what the steps ask for. Flow control that a link sends for its
peer's answer is no frame of the step and is left aside.

The runner gathers a message across records, and a record that does not belong
to the message makes it forget the bytes gathered so far. `gathered` counts
those as `lost`, and the bytes of a message that no last record follows as
`pending`. A transaction ends DONE with no byte unsent exactly when its records
are `joined`.

Key theorems:
- `unsent_eq_nil_iff`: no byte is left unsent iff every continued record is followed by a record of a message.
- `Doing`, `runOnce_outcome`: the invariant of a running transaction, and one step of the runner.
- `done_iff`: what a status DONE means for the frames the port took.
-/
import CanHub.Agent.Status

namespace CanHub

open StepRecord Run List

/-! ### What the records ask for -/

/-- A step, and the message it carries if it is one that does. -/
structure StepItem where
  step : TxnStep
  message : List UInt8

/-- The steps a list of records makes, the bytes gathered for a message that is
not complete, and the bytes gathered for messages that never were. -/
structure Gathered where
  items : List StepItem := []
  pending : List UInt8 := []
  lost : List UInt8 := []

namespace Gathered

def item (g : Gathered) (s : TxnStep) : StepItem := ⟨s, if s.isMessage then g.pending ++ s.payload else []⟩

def add (g : Gathered) (s : TxnStep) : Gathered :=
  if s.isContinued then { g with pending := g.pending ++ s.payload }
  else
    { items := g.items ++ [g.item s]
      pending := []
      lost := if s.isMessage then g.lost else g.lost ++ g.pending }

def unsent (g : Gathered) : List UInt8 := g.lost ++ g.pending

variable {s : TxnStep}

theorem add_continued (g : Gathered) (h : s.isContinued = true) :
    g.add s = { g with pending := g.pending ++ s.payload } := if_pos h

theorem add_items (g : Gathered) (h : s.isContinued = false) :
    (g.add s).items = g.items ++ [g.item s] := by
  unfold add
  rw [h]
  rfl

theorem add_pending (g : Gathered) (h : s.isContinued = false) : (g.add s).pending = [] := by
  unfold add
  rw [h]
  rfl

variable {g : Gathered}

theorem add_mem {i : StepItem} (h : i ∈ (g.add s).items) : i ∈ g.items ∨ i.step = s := by
  cases hc : s.isContinued with
  | true =>
    rw [g.add_continued hc] at h
    exact .inl h
  | false =>
    rw [g.add_items hc] at h
    rcases mem_append.mp h with h | h
    · exact .inl h
    · rw [mem_singleton.mp h]
      exact .inr rfl

end Gathered

def gathered (steps : List TxnStep) : Gathered := steps.foldl Gathered.add {}

@[simp] theorem gathered_append_singleton (steps : List TxnStep) (s : TxnStep) :
    gathered (steps ++ [s]) = (gathered steps).add s := by
  simp [gathered]

theorem gathered_mem (steps : List TxnStep) : ∀ i ∈ (gathered steps).items, i.step ∈ steps := by
  induction steps using reverseRecOn with
  | nil => exact fun i h => nomatch h
  | append_singleton steps s ih =>
    intro i h
    rw [gathered_append_singleton] at h
    rcases Gathered.add_mem h with h | h
    · exact mem_append_left _ (ih i h)
    · exact mem_append_right _ (mem_singleton.mpr h)

/-- Every continued record is directly followed by a record of a message. -/
def joined : List TxnStep → Bool
  | [] => true
  | s :: rest => (!s.isContinued || rest.head?.any TxnStep.isMessage) && joined rest

/-- With records that follow others: what was pending has to go on, too. -/
theorem foldl_unsent : ∀ (steps : List TxnStep) (g : Gathered), (∀ s ∈ steps, s.Valid) →
    ((steps.foldl Gathered.add g).unsent = []
      ↔ g.lost = [] ∧ (g.pending = [] ∨ steps.head?.any TxnStep.isMessage = true) ∧ joined steps = true)
  | [], g, _ => by simp [Gathered.unsent, joined]
  | s :: rest, g, hvalid => by
    have hs := hvalid s mem_cons_self
    have ih := foldl_unsent rest (g.add s) fun r hr => hvalid r (mem_cons_of_mem _ hr)
    rw [foldl_cons, ih]
    cases hm : s.isMessage with
    | true =>
      obtain ⟨hpayload, -⟩ := hs.message hm
      cases hc : s.isContinued with
      | true => simp [Gathered.add, joined, hc, hm, hpayload]
      | false => simp [Gathered.add, joined, hc, hm]
    | false =>
      -- only a message goes on
      have hc : s.isContinued = false := by
        by_contra hc
        exact absurd (hs.isMessage (by simpa using hc)) (by rw [hm]; decide)
      simp [Gathered.add, joined, hc, hm, and_assoc]

/-- **No byte is left unsent iff the records are joined.** -/
theorem unsent_eq_nil_iff {steps : List TxnStep} (h : ∀ s ∈ steps, s.Valid) :
    (gathered steps).unsent = [] ↔ joined steps = true := by
  simpa [gathered] using foldl_unsent steps {} h

/-! ### The frames of a step -/

section

variable (templates : ℕ → TxnTemplateMessage) (channel : UInt8)

/-- The link a step of an ISO-TP template is given. -/
def linkFor (step : TxnStep) : IsotpLink :=
  ({} : IsotpLink).openLink step.canId channel (templates step.templateId.toNat).isotp

/-- The ISO-TP frames of a message. -/
def segmentation (step : TxnStep) (message : List UInt8) :
    List FrameMessage := ((linkFor templates channel step).send message 0).segments

/-- Without flow control. -/
def dataFrames (step : TxnStep) (frames : List FrameMessage) :
    List FrameMessage := frames.filter fun f => !(linkFor templates channel step).isFlowControl f

/-- The frames are those of one step. -/
def ItemFrames (i : StepItem) (frames : List FrameMessage) : Prop :=
  if (templates i.step.templateId.toNat).isIsotp then
    dataFrames templates channel i.step frames
      = if i.step.isMessage then segmentation templates channel i.step i.message else []
  else frames = if i.step.isExpectOnly then [] else [TransactionRunner.stepFrame channel i.step]

end

section ItemFrames

variable {templates : ℕ → TxnTemplateMessage} {channel : UInt8} {i : StepItem} {frames : List FrameMessage}

theorem ItemFrames.ofMessage (hisotp : (templates i.step.templateId.toNat).isIsotp = true)
    (hmessage : i.step.isMessage = true)
    (h : dataFrames templates channel i.step frames = segmentation templates channel i.step i.message) :
    ItemFrames templates channel i frames := by
  unfold ItemFrames
  rw [if_pos hisotp, if_pos hmessage]
  exact h

theorem ItemFrames.ofGeneric (hgeneric : (templates i.step.templateId.toNat).isIsotp = false)
    (hsends : i.step.isExpectOnly = false) :
    ItemFrames templates channel i [TransactionRunner.stepFrame channel i.step] := by
  unfold ItemFrames
  rw [if_neg (by rw [hgeneric]; decide), if_neg (by rw [hsends]; decide)]

/-- A step that only waits asks for no frame. -/
theorem ItemFrames.ofExpectOnly (hvalid : i.step.Valid) (hwaits : i.step.isExpectOnly = true) :
    ItemFrames templates channel i [] := by
  have hmessage : ¬i.step.isMessage = true := by
    intro hm
    rw [(hvalid.message hm).2] at hwaits
    cases hwaits
  unfold ItemFrames
  rw [if_neg hmessage, if_pos hwaits]
  split
  · rfl
  · rfl

/-- Flow control makes no difference to a step of a link. -/
theorem ItemFrames.append {taken : List FrameMessage} (h : ItemFrames templates channel i frames)
    (hisotp : (templates i.step.templateId.toNat).isIsotp = true)
    (htaken : dataFrames templates channel i.step taken = []) : ItemFrames templates channel i (frames ++ taken) := by
  unfold ItemFrames at h ⊢
  rw [if_pos hisotp] at h ⊢
  unfold dataFrames at h htaken ⊢
  rw [filter_append, htaken, append_nil]
  exact h

/-- Only the template the step names matters. -/
theorem ItemFrames.congr {templates' : ℕ → TxnTemplateMessage} (h : ItemFrames templates channel i frames)
    (hsame : templates' i.step.templateId.toNat = templates i.step.templateId.toNat) :
    ItemFrames templates' channel i frames := by
  unfold ItemFrames dataFrames segmentation linkFor at h ⊢
  rw [hsame]
  exact h

end ItemFrames

/-- The frames are, in order, those of the steps. -/
def Carried (templates : ℕ → TxnTemplateMessage) (channel : UInt8) (items : List StepItem)
    (frames : List FrameMessage) : Prop :=
  ∃ groups, frames = groups.flatten ∧ List.Forall₂ (ItemFrames templates channel) items groups

theorem Carried.nil (templates : ℕ → TxnTemplateMessage) (channel : UInt8) : Carried templates channel [] [] :=
  ⟨[], rfl, .nil⟩

theorem Carried.snoc {templates : ℕ → TxnTemplateMessage} {channel : UInt8} {items : List StepItem}
    {frames group : List FrameMessage} {i : StepItem} (h : Carried templates channel items frames)
    (hi : ItemFrames templates channel i group) : Carried templates channel (items ++ [i]) (frames ++ group) := by
  obtain ⟨groups, rfl, hgroups⟩ := h
  refine ⟨groups ++ [group], by simp, ?_⟩
  exact rel_append hgroups (.cons hi .nil)

theorem Carried.congr {templates templates' : ℕ → TxnTemplateMessage} {channel : UInt8} {items : List StepItem}
    {frames : List FrameMessage} (h : Carried templates channel items frames)
    (hsame : ∀ i ∈ items, templates' i.step.templateId.toNat = templates i.step.templateId.toNat) :
    Carried templates' channel items frames := by
  obtain ⟨groups, hframes, hgroups⟩ := h
  refine ⟨groups, hframes, ?_⟩
  clear hframes
  induction hgroups with
  | nil => exact .nil
  | @cons i group items groups hi _ ih =>
    exact .cons (hi.congr (hsame i mem_cons_self)) (ih fun j hj => hsame j (mem_cons_of_mem _ hj))

/-! ### A running transaction -/

namespace TransactionRunner

open Books IsotpLink

variable (s : TransactionRunner)

@[simp] theorem emit_progress_stepFrames (m : TxnProgressMessage) :
    (s.emit (.progress m)).stepFrames = s.stepFrames := by
  simp [stepFrames, emit, RunnerOutput.stepFrame?]

@[simp] theorem emit_roster_stepFrames (m : TxnRosterReportMessage) :
    (s.emit (.roster m)).stepFrames = s.stepFrames := by
  simp [stepFrames, emit, RunnerOutput.stepFrame?]

@[simp] theorem finish_stepFrames (m : TxnStatusMessage) :
    (s.finish m).stepFrames = s.stepFrames := by
  simp [stepFrames, finish, emit, RunnerOutput.stepFrame?]

theorem transmitTracked_stepFrames (p : TxPurpose) (hp : p ≠ .keepalive) (f : FrameMessage)
    (nowUs : ℕ) :
    (s.transmitTracked p f nowUs).1.stepFrames
      = s.stepFrames ++ if (s.transmitTracked p f nowUs).2 then [f] else [] := by
  have hkept (accepted : Bool) : RunnerOutput.stepFrame? (.transmit p s.interfaceIndex f accepted)
      = if accepted then some f else none := by
    cases p with
    | keepalive => exact absurd rfl hp
    | step => rfl
    | isotp => rfl
  unfold transmitTracked
  dsimp only
  split
  · rename_i h
    simp [stepFrames, hkept, h]
  · rename_i h
    simp [stepFrames, hkept, h]

variable (f : FrameMessage)

/-- Where the loaded step stands, and the frames it has put on the bus. -/
inductive Current (s : TransactionRunner) (i : StepItem) : List FrameMessage → Prop
  /-- a generic step is to be transmitted -/
  | toSend (hphase : s.current.phase = .transmit) (hgeneric : s.currentTemplate.isIsotp = false)
      (hsends : s.current.step.isExpectOnly = false) : Current s i []
  /-- the link is open, and its message is to be handed to it -/
  | toStart (hphase : s.current.phase = .transmit) (hisotp : s.currentTemplate.isIsotp = true)
      (hmessage : s.current.step.isMessage = true) (hstarted : s.current.messageStarted = false)
      (hline : s.isotp.line = (linkFor s.templates s.channel s.current.step).line) (hsane : s.isotp.Sane) :
      Current s i []
  /-- the link sends the message -/
  | sending {frames : List FrameMessage} (hphase : s.current.phase = .transmit)
      (hisotp : s.currentTemplate.isIsotp = true) (hmessage : s.current.step.isMessage = true)
      (hstarted : s.current.messageStarted = true)
      (hline : s.isotp.line = (linkFor s.templates s.channel s.current.step).line) (hsane : s.isotp.Sane)
      (hleft : dataFrames s.templates s.channel s.current.step frames ++ s.isotp.remaining
        = segmentation s.templates s.channel s.current.step i.message) : Current s i frames
  /-- the frames are out and the step waits for its answer -/
  | waiting {frames : List FrameMessage} (hphase : s.current.phase = .wait)
      (hframes : ItemFrames s.templates s.channel i frames)
      (hlink : s.currentTemplate.isIsotp = true →
        s.isotp.line = (linkFor s.templates s.channel s.current.step).line ∧ s.isotp.Sane ∧ s.isotp.remaining = []) :
      Current s i frames

theorem Current.notIdle {s : TransactionRunner} {i : StepItem} {frames : List FrameMessage} (h : Current s i frames) :
    s.current.phase ≠ .idle := by
  cases h with
  | toSend h => rw [h]; decide
  | toStart h => rw [h]; decide
  | sending h => rw [h]; decide
  | waiting h => rw [h]; decide

/-- The frames on the bus are those of the steps done, then those of the step that is loaded. -/
inductive Work (base : List FrameMessage) (g : Gathered) (s : TransactionRunner) : Prop
  | between {frames : List FrameMessage} (hphase : s.current.phase = .idle) (hmessage : s.message = g.pending)
      (hframes : s.stepFrames = base ++ frames) (hcarried : Carried s.templates s.channel g.items frames)
  | within {frames group : List FrameMessage}
      (hmessage : s.current.step.isMessage = true → s.message = g.pending ++ s.current.step.payload)
      (hframes : s.stepFrames = base ++ (frames ++ group)) (hcarried : Carried s.templates s.channel g.items frames)
      (hcurrent : Current s (g.item s.current.step) group)

/-- What holds of the books of a transaction that runs: `done` are its records released, `queue` those in the ring. -/
structure Kept (b : Books) (done queue : List StepRecord) : Prop where
  active : b.active = true
  ledger : Ledger b done queue
  capacity : b.ring.capacity ≤ 2 ^ 32
  typed : ∀ i, b.definedTemplates.testBit i = true → (b.templates i).isTypeValid = true
    ∧ ((b.templates i).advanceMode = TxnAdvanceMode.count.code → (b.templates i).countK ≠ 0)
  admits : ∀ r ∈ done ++ queue, Admits b r.step
  seq : b.nextSeq = UInt32.ofNat (stepCount (done ++ queue))
  length : b.message.length ≤ txnIsotpMessageSizeMax

/-- What the records done have gathered. -/
abbrev account (done : List StepRecord) : Gathered := gathered (done.map StepRecord.step)

/-- The invariant of a transaction that runs, `base` being the frames that were on the bus before it. -/
structure Doing (base : List FrameMessage) (done queue : List StepRecord) (s : TransactionRunner) : Prop where
  kept : Kept s.books done queue
  work : Work base (gathered (done.map StepRecord.step)) s

namespace Kept

variable {b : Books} {done rest : List StepRecord} {rec : StepRecord}

variable (h : Kept b done (rec :: rest))
include h

/-- A record of a message that goes on is gathered and released. -/
theorem gather (hcont : rec.step.isContinued = true) {message : List UInt8}
    (hmax : message.length ≤ txnIsotpMessageSizeMax) :
    Kept (b.loaded rec.step rec.size message).released (done ++ [rec]) rest where
  active := h.active
  ledger := h.ledger.gather h.active hcont message
  capacity := (StepRing.release_capacity b.ring rec.size).trans_le h.capacity
  typed := h.typed
  admits := (append_cons done rec rest).symm ▸ h.admits
  seq := (append_cons done rec rest).symm ▸ h.seq
  length := hmax

/-- A step is loaded and waits or transmits. -/
theorem start (hfinal : rec.step.isContinued = false) {message : List UInt8}
    (hmax : message.length ≤ txnIsotpMessageSizeMax) (phase : TransactionPhase) :
    Kept ((b.loaded rec.step rec.size message).inPhase phase) done (rec :: rest) :=
  ⟨h.active, h.ledger.start hfinal message phase, h.capacity, h.typed, h.admits, h.seq, hmax⟩

/-- The loaded step is completed. -/
theorem complete (hsize : b.recordSize = rec.size)
    (hfinal : rec.step.isContinued = false) : Kept b.completed (done ++ [rec]) rest where
  active := h.active
  ledger := h.ledger.complete h.active hsize hfinal
  capacity := (StepRing.release_capacity b.ring b.recordSize).trans_le h.capacity
  typed := h.typed
  admits := (append_cons done rec rest).symm ▸ h.admits
  seq := (append_cons done rec rest).symm ▸ h.seq
  length := Nat.zero_le _

end Kept

/-! ### Frames from the bus and keepalives -/

/-- What the loaded step depends on is the same. Reports and records may have been entered in the books, and templates
that the step does not name. -/
structure Same (s s' : TransactionRunner) : Prop extends Unmoved s s' where
  template : s.current.phase ≠ .idle → s'.currentTemplate = s.currentTemplate
  channel : s'.channel = s.channel
  step : s'.current.step = s.current.step
  phase : s'.current.phase = s.current.phase
  message : s'.message = s.message

theorem Stays.same {s s' : TransactionRunner} (h : Stays s s') : Same s s' := by
  have hstep : s'.current.step = s.current.step := congrArg Books.step h.books
  refine ⟨h.toUnmoved, fun _ => ?_, congrArg Books.channel h.books, hstep, congrArg Books.phase h.books,
    congrArg Books.message h.books⟩
  unfold currentTemplate
  rw [hstep]
  exact congrFun (congrArg Books.templates h.books) _

section Same

variable {s s' : TransactionRunner} (h : Same s s')
include h

theorem Current.same {i : StepItem} {frames : List FrameMessage} (hc : Current s i frames) (hi : i.step = s.current.step) :
    Current s' i frames := by
  have htemplate := h.template hc.notIdle
  have hsame : s'.templates s.current.step.templateId.toNat = s.templates s.current.step.templateId.toNat := by
    unfold currentTemplate at htemplate
    rwa [h.step] at htemplate
  have hlink : linkFor s'.templates s'.channel s'.current.step = linkFor s.templates s.channel s.current.step := by
    unfold linkFor
    rw [h.channel, h.step, hsame]
  cases hc with
  | toSend hphase hgeneric hsends =>
    exact .toSend (h.phase.trans hphase) (htemplate ▸ hgeneric) (h.step ▸ hsends)
  | toStart hphase hisotp hmessage hstarted hline hsane =>
    exact .toStart (h.phase.trans hphase) (htemplate ▸ hisotp) (h.step ▸ hmessage) (h.started.trans hstarted)
      (by rw [h.line, hline, hlink]) (h.link hsane).1
  | sending hphase hisotp hmessage hstarted hline hsane hleft =>
    refine .sending (h.phase.trans hphase) (htemplate ▸ hisotp) (h.step ▸ hmessage) (h.started.trans hstarted)
      (by rw [h.line, hline, hlink]) (h.link hsane).1 ?_
    unfold dataFrames segmentation at hleft ⊢
    rw [hlink, (h.link hsane).2]
    exact hleft
  | waiting hphase hframes hlinked =>
    refine .waiting (h.phase.trans hphase) ?_ ?_
    · rw [h.channel]
      exact hframes.congr (by rw [hi]; exact hsame)
    · intro hisotp
      obtain ⟨hline, hsane, hr⟩ := hlinked (htemplate ▸ hisotp)
      exact ⟨by rw [h.line, hline, hlink], (h.link hsane).1, (h.link hsane).2.trans hr⟩

theorem Work.same {base : List FrameMessage} (hw : Work base g s)
    (hitems : ∀ i ∈ g.items, s'.templates i.step.templateId.toNat = s.templates i.step.templateId.toNat) :
    Work base g s' := by
  cases hw with
  | between hphase hmessage hframes hcarried =>
    refine .between (h.phase.trans hphase) (h.message.trans hmessage) (h.frames.trans hframes) ?_
    rw [h.channel]
    exact hcarried.congr hitems
  | within hmessage hframes hcarried hcurrent =>
    refine .within ?_ (h.frames.trans hframes) ?_ ?_
    · rw [h.step, h.message]
      exact hmessage
    · rw [h.channel]
      exact hcarried.congr hitems
    · rw [h.step]
      exact hcurrent.same h rfl

end Same

theorem Doing.stays {s s' : TransactionRunner} (h : Stays s s') {base : List FrameMessage}
    {done queue : List StepRecord} (hd : Doing base done queue s) : Doing base done queue s' :=
  ⟨h.books ▸ hd.kept, hd.work.same h.same fun _ _ => congrFun (congrArg Books.templates h.books) _⟩

/-! ### A step of the runner -/

/-- What the status of a transaction that ended DONE stands for. -/
def Finished (base : List FrameMessage) (pushed : List StepRecord) (s : TransactionRunner) (m : TxnStatusMessage) :
    Prop :=
  m.completedSteps = s.nextSeq ∧ ∃ frames, s.stepFrames = base ++ frames
    ∧ Carried s.templates s.channel (gathered (pushed.map StepRecord.step)).items frames

/-- The transaction goes on, or it is over; `reports` were reported before. -/
inductive Outcome (base : List FrameMessage) (pushed : List StepRecord) (reports : List TxnStatusMessage)
    (s : TransactionRunner) : Prop
  | going {done queue : List StepRecord} (hpushed : done ++ queue = pushed) (hdoing : Doing base done queue s)
      (hreports : s.books.reports = reports)
  | finished (hactive : s.active = false)
      (hdone : ∀ m, s.books.reports = reports ++ [m] → m.state = TxnState.done.code → Finished base pushed s m)

variable {base : List FrameMessage} {done queue : List StepRecord} {s : TransactionRunner}

/-- The transaction ended and its report is an abort. -/
def AbortReported (reports : List TxnStatusMessage) (s : TransactionRunner) : Prop :=
  s.active = false ∧ ∃ m, s.books.reports = reports ++ [m] ∧ m.state = TxnState.aborted.code

theorem Aborted.reported {b : Books} (h : Aborted b s.books) : AbortReported b.reports s := by
  refine ⟨h.inactive, ?_⟩
  obtain ⟨m, hb, hstate⟩ := h
  exact ⟨m, congrArg Books.reports hb, hstate⟩

variable {pushed : List StepRecord}

theorem Outcome.of_report {reports : List TxnStatusMessage} (h : AbortReported reports s) :
    Outcome base pushed reports s := by
  obtain ⟨hactive, m', hreports, hstate'⟩ := h
  refine .finished hactive ?_
  intro m hm hstate
  have hsame : m' = m := by simpa [hreports] using hm
  rw [← hsame, hstate'] at hstate
  exact absurd hstate (by decide)

theorem Outcome.aborted {b : Books} (h : Aborted b s.books) :
    Outcome base pushed b.reports s := .of_report h.reported

theorem Outcome.of_stays {s' : TransactionRunner} (hd : Doing base done queue s)
    (h : Stays s s' ∨ Aborted s.books s'.books) : Outcome base (done ++ queue) s.books.reports s' := by
  rcases h with h | h
  · exact .going rfl (hd.stays h) (congrArg Books.reports h.books)
  · exact .aborted h

/-- A step is loaded: `frames` are those of the steps done, `group` its own so far. -/
structure Within (base frames group : List FrameMessage) (g : Gathered) (s : TransactionRunner) : Prop where
  message : s.current.step.isMessage = true → s.message = g.pending ++ s.current.step.payload
  sent : s.stepFrames = base ++ (frames ++ group)
  carried : Carried s.templates s.channel g.items frames

/-- The link of an ISO-TP step is open and has sent everything. -/
def LinkDone (s : TransactionRunner) : Prop := s.currentTemplate.isIsotp = true →
  s.isotp.line = (linkFor s.templates s.channel s.current.step).line ∧ s.isotp.Sane ∧ s.isotp.remaining = []

/-- A step that waits has put its frames on the bus. -/
theorem Work.waiting (h : Work base g s) (hphase : s.current.phase = .wait) :
    ∃ frames group, Within base frames group g s ∧ ItemFrames s.templates s.channel (g.item s.current.step) group
      ∧ s.LinkDone := by
  have hne : s.current.phase ≠ .transmit := by rw [hphase]; decide
  cases h with
  | between hidle => exact absurd (hidle.symm.trans hphase) (by decide)
  | within hmessage hframes hcarried hcurrent =>
    cases hcurrent with
    | toSend h => exact absurd h hne
    | toStart h => exact absurd h hne
    | sending h => exact absurd h hne
    | waiting _ hgroup hlink => exact ⟨_, _, ⟨hmessage, hframes, hcarried⟩, hgroup, hlink⟩

variable {frames group : List FrameMessage}

/-- The loaded step's frames are out: it is completed. -/
theorem completeStep_doing (hk : Kept s.books done queue) (hphase : s.current.phase ≠ .idle)
    (hw : Within base frames group (account done) s)
    (hgroup : ItemFrames s.templates s.channel ((account done).item s.current.step) group) :
    Outcome base (done ++ queue) s.books.reports s.completeStep := by
  obtain ⟨rec, rest, rfl, hstep, hsize, hfinal⟩ := hk.ledger.loaded hk.active hphase
  have hbooks := s.completeStep_books
  have hreports : s.completeStep.books.reports = s.books.reports := by rw [hbooks]; rfl
  refine .going (append_cons done rec rest).symm ⟨?_, ?_⟩ hreports
  · rw [hbooks]
    exact hk.complete hsize hfinal
  · rw [map_append, map_singleton, gathered_append_singleton]
    have hout : s.completeStep.stepFrames = s.stepFrames := by
      change s.reportMissingRoster.stepFrames = _
      unfold reportMissingRoster
      split
      · rfl
      · exact s.emit_roster_stepFrames _
    have htemplates : s.completeStep.templates = s.templates := congrArg Books.templates hbooks
    have hchannel : s.completeStep.channel = s.channel := congrArg Books.channel hbooks
    have hcurrent : s.current.step = rec.step := hstep
    rw [hcurrent] at hgroup
    refine .between rfl ?_ (hout.trans hw.sent) ?_
    · exact (Gathered.add_pending _ hfinal).symm
    · rw [Gathered.add_items _ hfinal, htemplates, hchannel]
      exact hw.carried.snoc hgroup

/-- The frames of a step that transmits are out: it is completed, or waits. -/
theorem finishTransmit_outcome (hk : Kept s.books done queue) (hphase : s.current.phase = .transmit)
    (hw : Within base frames group (account done) s)
    (hgroup : ItemFrames s.templates s.channel ((account done).item s.current.step) group) (hlink : s.LinkDone)
    (nowUs : ℕ) : Outcome base (done ++ queue) s.books.reports (s.finishTransmit nowUs) := by
  have hactive : s.current.phase ≠ .idle := by rw [hphase]; decide
  unfold finishTransmit
  dsimp only
  split
  · exact completeStep_doing (s := s.startGap nowUs) hk hactive ⟨hw.message, hw.sent, hw.carried⟩ hgroup
  · have hloaded := hk.ledger.loaded hk.active hactive
    refine .going rfl ⟨⟨hk.active, hk.ledger.inPhase .wait fun _ => hloaded, hk.capacity, hk.typed, hk.admits, hk.seq,
      hk.length⟩, ?_⟩ rfl
    exact .within hw.message hw.sent hw.carried (.waiting rfl hgroup hlink)

/-- A tick of the link that does not fail: frames of the message, and flow control. -/
theorem isotpTick_taken (hsane : s.isotp.Sane) (hdata : ∀ f ∈ s.isotp.remaining, s.isotp.isFlowControl f = false)
    (nowUs : ℕ) :
    (s.isotpTick nowUs).2 = .failed
      ∨ ∃ taken port lastFrameUs l, (s.isotpTick nowUs).1 = { s with port, lastFrameUs, isotp := l }
        ∧ (s.isotpTick nowUs).1.stepFrames = s.stepFrames ++ taken
        ∧ taken.filter (fun f => !s.isotp.isFlowControl f) ++ l.remaining = s.isotp.remaining
        ∧ l.line = s.isotp.line ∧ l.Sane ∧ ((s.isotpTick nowUs).2 = .sent → l.remaining = []) := by
  have htx (e : TransactionRunner) (f : FrameMessage) :
      (e.transmitIsotpFrame f).1.stepFrames = e.stepFrames ++ if (e.transmitIsotpFrame f).2 then [f] else [] :=
    e.transmitTracked_stepFrames .isotp (fun h => nomatch h) f e.lastTickUs
  have horderly := tick_traffic htx hsane hdata s nowUs
  obtain ⟨port, lastFrameUs, henv⟩ := IsotpLink.tick_env
    (R := fun a b => ∃ port lastFrameUs, b = ({ a with port, lastFrameUs } : TransactionRunner))
    (fun e => ⟨e.port, e.lastFrameUs, rfl⟩)
    (fun a b c ⟨_, _, hb⟩ ⟨port, lastFrameUs, hc⟩ => ⟨port, lastFrameUs, by rw [hc, hb]⟩)
    (fun e f => e.transmitTracked_eq .isotp f e.lastTickUs) s.isotp s nowUs
  change (s.isotp.tick transmitIsotpFrame s nowUs).2.1 = _ at henv
  unfold isotpTick
  generalize s.isotp.tick transmitIsotpFrame s nowUs = r at horderly henv
  obtain ⟨l, env, event⟩ := r
  subst henv
  by_cases he : event = .failed
  · exact .inl he
  · obtain ⟨taken, hframes, hleft⟩ := horderly.moved he
    exact .inr ⟨taken, port, lastFrameUs, l, rfl, hframes, hleft, horderly.line, horderly.sane he, horderly.sent⟩

/-- The link has put more frames on the bus. -/
theorem Within.taken (h : Within base frames group g s) {taken : List FrameMessage} {port : RunnerPort}
    {lastFrameUs : ℕ} {l : IsotpLink}
    (ht : ({ s with port, lastFrameUs, isotp := l } : TransactionRunner).stepFrames = s.stepFrames ++ taken) :
    Within base frames (group ++ taken) g { s with port, lastFrameUs, isotp := l } := by
  refine ⟨h.message, ?_, h.carried⟩
  rw [ht, h.sent]
  simp

variable {message : List UInt8}

/-- The segments of a message are not flow control. -/
theorem segmentation_data (templates : ℕ → TxnTemplateMessage) (channel : UInt8) (step : TxnStep)
    (h : message.length ≤ txnIsotpMessageSizeMax) :
    ∀ f ∈ segmentation templates channel step message, (linkFor templates channel step).isFlowControl f = false :=
  segments_data (l := (linkFor templates channel step).send message 0) h

theorem transmitMessage_sending (hk : Kept s.books done queue) (hw : Within base frames group (account done) s)
    (hphase : s.current.phase = .transmit) (hisotp : s.currentTemplate.isIsotp = true)
    (hstep : s.current.step.isMessage = true) (hstarted : s.current.messageStarted = true)
    (hline : s.isotp.line = (linkFor s.templates s.channel s.current.step).line) (hsane : s.isotp.Sane)
    (hleft : dataFrames s.templates s.channel s.current.step group ++ s.isotp.remaining
      = segmentation s.templates s.channel s.current.step s.message) (nowUs : ℕ) :
    Outcome base (done ++ queue) s.books.reports (s.transmitMessage nowUs).1 := by
  have hflow := isFlowControl_congr hline
  have hdata : ∀ f ∈ s.isotp.remaining, s.isotp.isFlowControl f = false := by
    intro f hf
    rw [hflow]
    exact segmentation_data _ _ _ hk.length f (hleft ▸ mem_append_right _ hf)
  have hitem : ((account done).item s.current.step).message = s.message := by
    rw [hw.message hstep]
    exact if_pos hstep
  have hkept : s.startMessage nowUs = s := if_pos hstarted
  have hbooks := s.isotpTick_books nowUs
  have hticked := isotpTick_taken hsane hdata nowUs
  unfold transmitMessage
  rw [hkept]
  generalize s.isotpTick nowUs = r at hticked hbooks
  obtain ⟨s', event⟩ := r
  dsimp only at hticked hbooks ⊢
  rw [← hbooks] at hk ⊢
  split
  · exact .aborted (s'.abortWith_aborted _ _)
  rename_i hne
  obtain ⟨taken, port, lastFrameUs, l, rfl, htaken, hfewer, hline', hsane', hsent⟩ := hticked.resolve_left hne
  have hw' := hw.taken htaken
  have hrest : dataFrames s.templates s.channel s.current.step (group ++ taken) ++ l.remaining
      = segmentation s.templates s.channel s.current.step s.message := by
    rw [← hleft, ← hfewer, hflow]
    simp [dataFrames]
  split
  · refine .going rfl ⟨hk, .within hw'.message hw'.sent hw'.carried ?_⟩ rfl
    exact .sending hphase hisotp hstep hstarted (hline'.trans hline) hsane' (hitem ▸ hrest)
  · rename_i he
    have hempty : l.remaining = [] := hsent (not_not.mp he)
    refine finishTransmit_outcome hk hphase hw' ?_
      (fun _ => ⟨hline'.trans hline, hsane', hempty⟩) nowUs
    rw [hempty, append_nil, ← hitem] at hrest
    exact ItemFrames.ofMessage hisotp hstep hrest

variable (hd : Doing base done queue s)
include hd

/-- A generic step's frame is offered to the port. -/
theorem offer_outcome {s' : TransactionRunner} (harm : Stays s s')
    (hphase : s.current.phase = .transmit) (hgeneric : s.currentTemplate.isIsotp = false)
    (hsends : s.current.step.isExpectOnly = false) (hw : Within base frames [] (account done) s) (nowUs : ℕ) :
    let r := s'.transmitTracked .step (stepFrame s'.channel s'.current.step) nowUs
    (r.2 = true → Outcome base (done ++ queue) s.books.reports (r.1.finishTransmit nowUs))
      ∧ (r.2 = false → Doing base done queue r.1 ∧ r.1.books = s.books) := by
  have hbooks := s'.transmitTracked_books .step (stepFrame s'.channel s'.current.step) nowUs
  have htaken := s'.transmitTracked_stepFrames .step (fun h => nomatch h) (stepFrame s'.channel s'.current.step) nowUs
  obtain ⟨port, lastFrameUs, heq⟩ := s'.transmitTracked_eq .step (stepFrame s'.channel s'.current.step) nowUs
  generalize s'.transmitTracked .step (stepFrame s'.channel s'.current.step) nowUs = r at hbooks htaken heq
  obtain ⟨t, accepted⟩ := r
  subst heq
  have hb := hbooks.trans harm.books
  have htemplates : s'.templates = s.templates := congrArg Books.templates harm.books
  constructor
  · rintro rfl
    rw [if_pos rfl, harm.frames, hw.sent, append_nil, append_assoc] at htaken
    rw [← hb]
    refine finishTransmit_outcome (s := { s' with port, lastFrameUs }) (hb ▸ hd.kept) (harm.same.phase.trans hphase)
      ⟨?_, htaken, ?_⟩ ?_ ?_ nowUs
    · change s'.current.step.isMessage = true → s'.message = _ ++ s'.current.step.payload
      rw [harm.same.step, harm.same.message]
      exact hw.message
    · change Carried s'.templates s'.channel _ _
      rw [htemplates, harm.same.channel]
      exact hw.carried
    · change ItemFrames s'.templates s'.channel (Gathered.item _ s'.current.step) _
      rw [htemplates, harm.same.channel, harm.same.step]
      exact ItemFrames.ofGeneric hgeneric hsends
    · intro hisotp
      change s'.currentTemplate.isIsotp = true at hisotp
      rw [harm.same.template (by rw [hphase]; decide), hgeneric] at hisotp
      cases hisotp
  · rintro rfl
    refine ⟨hd.stays (harm.trans (.of_isotp hbooks rfl ?_ rfl)), hb⟩
    simpa using htaken

theorem transmitStep_outcome (hphase : s.current.phase = .transmit) (nowUs : ℕ) :
    Outcome base (done ++ queue) s.books.reports (s.transmitStep nowUs).1 := by
  have hnotIdle : s.current.phase ≠ .idle := by rw [hphase]; decide
  obtain ⟨hk, hwork⟩ := id hd
  unfold transmitStep
  split
  · exact .of_stays hd (.inl (.refl s))
  cases hwork with
  | between hidle => exact absurd hidle hnotIdle
  | @within frames group hmessage hframes hcarried hcurrent =>
    cases hcurrent with
    | waiting hwait => exact absurd (hphase.symm.trans hwait) (by decide)
    | toStart _ hisotp hstep hstarted hline hsane =>
      rw [if_pos (show s.isIsotpStep = true from decide_eq_true ⟨hnotIdle, hisotp⟩)]
      have hsent : s.startMessage nowUs = { s with
          isotp := s.isotp.send s.message nowUs, current := { s.current with messageStarted := true } } :=
        if_neg (by rw [hstarted]; decide)
      have hagain : s.transmitMessage nowUs = (s.startMessage nowUs).transmitMessage nowUs := by
        unfold transmitMessage
        rw [show (s.startMessage nowUs).startMessage nowUs = s.startMessage nowUs from by rw [hsent]; rfl]
      rw [hagain, hsent]
      refine transmitMessage_sending (s := { s with
        isotp := s.isotp.send s.message nowUs, current := { s.current with messageStarted := true } })
        hk ⟨hmessage, hframes, hcarried⟩ hphase hisotp hstep rfl hline ⟨hsane.room, fun h => ?_⟩ ?_ nowUs
      · rcases h with h | h <;> cases h
      · exact segments_congr hline rfl
    | sending _ hisotp hstep hstarted hline hsane hleft =>
      rw [if_pos (show s.isIsotpStep = true from decide_eq_true ⟨hnotIdle, hisotp⟩)]
      have hitem : ((account done).item s.current.step).message = s.message := by
        rw [hmessage hstep]
        exact if_pos hstep
      rw [hitem] at hleft
      exact transmitMessage_sending hk ⟨hmessage, hframes, hcarried⟩ hphase hisotp hstep hstarted hline hsane hleft nowUs
    | toSend _ hgeneric hsends =>
      have hplain : ¬s.isIsotpStep = true := by
        intro h
        rw [(of_decide_eq_true h).2] at hgeneric
        cases hgeneric
      rw [if_neg hplain]
      have harm : Stays s (s.armTransmit nowUs) := by
        unfold armTransmit
        split
        · exact .of_isotp rfl rfl rfl rfl
        · exact .refl s
      obtain ⟨htaken, hrefused⟩ :=
        offer_outcome hd harm hphase hgeneric hsends ⟨hmessage, hframes, hcarried⟩ nowUs
      generalize s.armTransmit nowUs = s' at htaken hrefused
      dsimp only
      generalize s'.transmitTracked .step (stepFrame s'.channel s'.current.step) nowUs = r at htaken hrefused
      obtain ⟨t, accepted⟩ := r
      cases accepted with
      | true => exact htaken rfl
      | false =>
        obtain ⟨hdoing, hbooks⟩ := hrefused rfl
        rw [← hbooks, if_neg (fun h => nomatch h)]
        split
        · exact .aborted (t.abortWith_aborted _ _)
        · exact .of_stays hdoing (.inl (.of_isotp rfl rfl rfl rfl))

/-- A step that waits is completed, waits on, or the transaction ends. -/
theorem settle_outcome (hphase : s.current.phase = .wait) (nowUs : ℕ) :
    Outcome base (done ++ queue) s.books.reports (s.settle nowUs).1 := by
  have hnotIdle : s.current.phase ≠ .idle := by rw [hphase]; decide
  have hcomplete {s : TransactionRunner} (hd : Doing base done queue s) (hphase : s.current.phase = .wait) :
      Outcome base (done ++ queue) s.books.reports s.completeStep := by
    obtain ⟨frames, group, hw, hgroup, -⟩ := hd.work.waiting hphase
    exact completeStep_doing hd.kept (by rw [hphase]; decide) hw hgroup
  unfold settle
  split
  · exact hcomplete hd hphase
  have hextend : Stays s (s.applyExtension nowUs) := by
    unfold applyExtension
    split
    · exact .of_isotp rfl rfl rfl rfl
    · exact .refl s
  have hd' := hd.stays hextend
  have hphase' := hextend.same.phase.trans hphase
  rw [← hextend.books]
  generalize s.applyExtension nowUs = s' at hd' hphase'
  dsimp only
  split
  · exact .of_stays hd' (.inl (.refl s'))
  split
  · exact hcomplete hd' hphase'
  · exact .aborted (s'.abortWith_aborted _ _)

theorem settleWait_outcome (hphase : s.current.phase = .wait) (nowUs : ℕ) :
    Outcome base (done ++ queue) s.books.reports (s.settleWait nowUs).1 := by
  unfold settleWait
  split
  swap
  · exact settle_outcome hd hphase nowUs
  rename_i hstep
  have hisotp : s.currentTemplate.isIsotp = true := (of_decide_eq_true hstep).2
  obtain ⟨hk, hwork⟩ := hd
  obtain ⟨frames, group, hw, hgroup, hlink⟩ := hwork.waiting hphase
  obtain ⟨hline, hsane, hempty⟩ := hlink hisotp
  have hticked := isotpTick_taken hsane (by rw [hempty]; exact fun f h => nomatch h) nowUs
  have hbooks := s.isotpTick_books nowUs
  unfold tickIsotp
  generalize s.isotpTick nowUs = r at hticked hbooks
  obtain ⟨s', event⟩ := r
  dsimp only at hticked hbooks ⊢
  rw [← hbooks] at hk ⊢
  by_cases he : event = .failed
  · rw [if_neg (not_not.mpr he)]
    exact .aborted (s'.abortWith_aborted _ _)
  rw [if_pos he]
  -- the link has nothing more to send, so what it sent is flow control
  obtain ⟨taken, port, lastFrameUs, l, rfl, htaken, hfewer, hline', hsane', -⟩ := hticked.resolve_left he
  rw [hempty] at hfewer
  obtain ⟨hflow, hempty'⟩ := append_eq_nil_iff.mp hfewer
  rw [isFlowControl_congr hline] at hflow
  have hw' := hw.taken htaken
  refine settle_outcome (s := { s with port, lastFrameUs, isotp := l }) ⟨hk, ?_⟩ hphase nowUs
  refine .within hw'.message hw'.sent hw'.carried (.waiting hphase ?_ fun _ => ⟨hline'.trans hline, hsane', hempty'⟩)
  exact ItemFrames.append hgroup hisotp hflow

omit hd

/-! ### Loading a step -/

variable {step : TxnStep}

theorem Admits.isotp {b : Books} (h : Admits b step)
    (hisotp : (b.templates step.templateId.toNat).isIsotp = true) :
    step.isMessage = true ∨ step.isExpectOnly = true := by
  have hfits := h.2.1
  unfold TxnStep.fitsTemplate at hfits
  rw [if_pos hisotp] at hfits
  simpa using hfits

/-- The parameters of a template that is defined leave room in a frame. -/
theorem Kept.room {b : Books} (hk : Kept b done queue) (ha : Admits b step)
    (hisotp : (b.templates step.templateId.toNat).isIsotp = true) :
    classicFrameSize ≤ (linkFor b.templates b.channel step).txDataLength := by
  have htyped := (hk.typed _ ha.1).1
  have htype : (b.templates step.templateId.toNat).type = TxnTemplateType.isotp.code := of_decide_eq_true hisotp
  have hvalid : (b.templates step.templateId.toNat).isotp.isIsotpDataLengthValid = true := by
    unfold TxnTemplateMessage.isTypeValid at htyped
    rw [if_neg (by rw [htype]; decide), if_neg (not_not.mpr htype)] at htyped
    by_contra hnot
    rw [if_pos (.inr (by simpa using hnot))] at htyped
    cases htyped
  exact (txDataLength_bounds (l := linkFor b.templates b.channel step) hvalid).1

@[simp] theorem openIsotp_current (s : TransactionRunner) : s.openIsotp.current = s.current := by
  unfold openIsotp
  split <;> rfl

@[simp] theorem openIsotp_stepFrames (s : TransactionRunner) : s.openIsotp.stepFrames = s.stepFrames := by
  unfold openIsotp
  split <;> rfl

/-- The link of an ISO-TP step is open and has nothing to send. -/
theorem openIsotp_ready (hisotp : s.currentTemplate.isIsotp = true)
    (hroom : classicFrameSize ≤ (linkFor s.templates s.channel s.current.step).txDataLength) :
    s.openIsotp.isotp.line = (linkFor s.templates s.channel s.current.step).line
      ∧ s.openIsotp.isotp.Sane ∧ s.openIsotp.isotp.remaining = [] := by
  unfold openIsotp
  rw [if_pos hisotp]
  refine ⟨rfl, ⟨hroom, ?_⟩, remaining_idle rfl⟩
  rintro (h | h) <;> cases h

/-- A step whose record is loaded, with its message if it carries one, waits or transmits. -/
theorem startStep_outcome {rec : StepRecord} {rest : List StepRecord} {b : Books}
    {frames : List FrameMessage} (hk : Kept b done (rec :: rest)) (hfinal : rec.step.isContinued = false)
    (hmax : message.length ≤ txnIsotpMessageSizeMax) (hbooks : s.books = b.loaded rec.step rec.size message)
    (hstarted : s.current.messageStarted = false)
    (hmessage : rec.step.isMessage = true →
      message = (account done).pending ++ rec.step.payload)
    (hframes : s.stepFrames = base ++ frames)
    (hcarried : Carried b.templates b.channel (account done).items frames) (nowUs : ℕ) :
    Outcome base (done ++ rec :: rest) b.reports (s.startStep nowUs).1 := by
  have hadmits : Admits b rec.step := hk.admits rec (mem_append_right _ mem_cons_self)
  have hlink : s.openIsotp.currentTemplate.isIsotp = true →
      s.openIsotp.isotp.line = (linkFor b.templates b.channel rec.step).line
        ∧ s.openIsotp.isotp.Sane ∧ s.openIsotp.isotp.remaining = [] := by
    intro hisotp
    have hstep : s.current.step = rec.step := congrArg Books.step hbooks
    have htemplates : s.templates = b.templates := congrArg Books.templates hbooks
    have hchannel : s.channel = b.channel := congrArg Books.channel hbooks
    have hopen : s.openIsotp.currentTemplate = b.templates rec.step.templateId.toNat := by
      unfold currentTemplate
      rw [openIsotp_current, hstep, ← htemplates]
      exact congrFun (congrArg Books.templates s.openIsotp_books) _
    rw [hopen] at hisotp
    have hready := s.openIsotp_ready (by unfold currentTemplate; rw [hstep, htemplates]; exact hisotp)
      (by rw [hstep, htemplates, hchannel]; exact hk.room hadmits hisotp)
    rw [hstep, htemplates, hchannel] at hready
    exact hready
  have hbooks' : s.openIsotp.books = b.loaded rec.step rec.size message := s.openIsotp_books.trans hbooks
  have hframes' : s.openIsotp.stepFrames = base ++ (frames ++ []) := by rw [openIsotp_stepFrames, hframes]; simp
  have hstarted' : s.openIsotp.current.messageStarted = false := by rw [openIsotp_current, hstarted]
  unfold startStep
  generalize s.openIsotp = s' at hlink hbooks' hframes' hstarted'
  have hkept (phase : TransactionPhase) : Kept (s'.books.inPhase phase) done (rec :: rest) :=
    hbooks' ▸ hk.start hfinal hmax phase
  have hstep : s'.current.step = rec.step := congrArg Books.step hbooks'
  have htemplates : s'.templates = b.templates := congrArg Books.templates hbooks'
  have hchannel : s'.channel = b.channel := congrArg Books.channel hbooks'
  have hreports : s'.books.reports = b.reports := by rw [hbooks']; rfl
  have hmessage' : s'.current.step.isMessage = true →
      s'.message = (account done).pending ++ s'.current.step.payload := by
    rw [hstep, show s'.message = message from congrArg Books.message hbooks']
    exact hmessage
  rw [← htemplates, ← hchannel] at hcarried hlink
  rw [← hstep] at hlink
  rw [← hreports]
  dsimp only
  split
  · rename_i hexpect
    have hdoing : Doing base done (rec :: rest) (s'.startWait nowUs) := by
      refine ⟨hkept .wait, .within hmessage' hframes' hcarried (.waiting rfl ?_ hlink)⟩
      exact ItemFrames.ofExpectOnly (hstep ▸ rec.valid) hexpect
    exact Outcome.of_stays (s := s'.startWait nowUs) hdoing (s'.startWait nowUs).replayEarlyFrames_stays
  · rename_i hexpect
    have hsends : s'.current.step.isExpectOnly = false := by simpa using hexpect
    refine .going rfl ⟨hkept .transmit, .within hmessage' hframes' hcarried ?_⟩ rfl
    cases hisotp : s'.currentTemplate.isIsotp with
    | false => exact .toSend rfl hisotp hsends
    | true =>
      obtain ⟨hline, hsane, -⟩ := hlink hisotp
      have hmsg : s'.current.step.isMessage = true := by
        rw [← hstep] at hadmits
        refine (hadmits.isotp ?_).resolve_right hexpect
        rw [← htemplates]
        exact hisotp
      exact .toStart rfl hisotp hmsg hstarted' hline hsane

/-- A record of a message that goes on is gathered. -/
theorem gather_doing {rec : StepRecord} {rest : List StepRecord} {b : Books}
    {frames : List FrameMessage} (hk : Kept b done (rec :: rest)) (hcont : rec.step.isContinued = true)
    (hmax : message.length ≤ txnIsotpMessageSizeMax)
    (hbooks : s.books = (b.loaded rec.step rec.size message).released)
    (hmessage : message = (account done).pending ++ rec.step.payload)
    (hframes : s.stepFrames = base ++ frames)
    (hcarried : Carried b.templates b.channel (account done).items frames) :
    Outcome base (done ++ rec :: rest) b.reports s := by
  have hreports : s.books.reports = b.reports := by rw [hbooks]; rfl
  refine .going (append_cons done rec rest).symm ⟨hbooks ▸ hk.gather hcont hmax, ?_⟩ hreports
  rw [map_append, map_singleton, gathered_append_singleton, Gathered.add_continued _ hcont]
  refine .between (congrArg Books.phase hbooks) ?_ hframes ?_
  · exact (congrArg Books.message hbooks).trans hmessage
  · rw [show s.templates = b.templates from congrArg Books.templates hbooks,
      show s.channel = b.channel from congrArg Books.channel hbooks]
    exact hcarried

theorem finishDone_outcome (hk : Kept s.books done []) {frames : List FrameMessage}
    (hframes : s.stepFrames = base ++ frames)
    (hcarried : Carried s.templates s.channel (account done).items frames) :
    Outcome base (done ++ []) s.books.reports s.finishDone := by
  have hbooks : s.finishDone.books = s.books.ended (s.prepareStatus .done .none) := s.finish_books _
  refine .finished rfl ?_
  intro m hm _
  have hsame : s.prepareStatus .done .none = m := by
    rw [hbooks] at hm
    simpa [Books.ended] using hm
  have hseq : s.finishDone.nextSeq = s.nextSeq := congrArg Books.nextSeq hbooks
  refine ⟨?_, frames, (s.finish_stepFrames _).trans hframes, ?_⟩
  · rw [← hsame, hseq, show s.nextSeq = _ from hk.seq, append_nil]
    exact hk.ledger.completed
  · rw [show s.finishDone.templates = s.templates from congrArg Books.templates hbooks,
      show s.finishDone.channel = s.channel from congrArg Books.channel hbooks, append_nil]
    exact hcarried

section

variable (hd : Doing base done queue s)
include hd

theorem loadNextStep_outcome (hphase : s.current.phase = .idle) (nowUs : ℕ) :
    Outcome base (done ++ queue) s.books.reports (s.loadNextStep nowUs).1 := by
  obtain ⟨hk, hwork⟩ := id hd
  cases hwork with
  | within _ _ _ hcurrent => exact absurd hphase hcurrent.notIdle
  | @between frames _ hmessage hframes hcarried =>
    unfold loadNextStep
    dsimp only
    split
    · rename_i hend
      -- an empty ring holds no record
      have hempty : queue = [] := by
        cases queue with
        | nil => rfl
        | cons rec rest =>
          obtain ⟨t, ht⟩ := StepRing.peek_holds (hk.ledger.holds hk.active)
          have hsize := rec.size_pos
          have hlength := hend.1
          rw [show s.ring.peek = rec.bytes ++ t from ht, length_append] at hlength
          unfold StepRecord.size at hsize
          omega
      subst hempty
      exact finishDone_outcome hk hframes hcarried
    split
    · exact .of_stays hd (s.waitForSteps_stays nowUs)
    rename_i havail
    have hring : s.books.ring.peek ≠ [] := fun h => havail (by rw [show s.ring.peek = [] from h]; rfl)
    generalize hdecode : (TxnStep.decode s.ring.peek).getD ({}, 0) = sd
    obtain ⟨step, size⟩ := sd
    obtain ⟨rec, rest, rfl, rfl, rfl⟩ := hk.ledger.front hk.active hring hdecode
    have hbooks := loadRecord_books hdecode
    have hstarted : (s.loadRecord s.ring.peek).current.messageStarted = false := rfl
    have hout : (s.loadRecord s.ring.peek).stepFrames = base ++ frames := hframes
    generalize s.loadRecord s.ring.peek = l at hbooks hstarted hout
    have hstep : l.current.step = rec.step := congrArg Books.step hbooks
    have hsame : l.message = s.message := congrArg Books.message hbooks
    rw [hstep]
    split
    · rename_i hmsg
      unfold gatherMessage
      rw [hstep, hsame]
      dsimp only
      split
      · have habort := l.abortWith_aborted .invalidStep l.completedSteps
        rw [hbooks] at habort
        exact Outcome.aborted (b := s.books.loaded rec.step rec.size s.message) habort
      have hmax : (s.message ++ rec.step.payload).length ≤ txnIsotpMessageSizeMax := by
        rw [length_append]
        omega
      have hextended : (l.extendMessage rec.step.payload).books
          = s.books.loaded rec.step rec.size (s.message ++ rec.step.payload) := by
        rw [extendMessage_books, hbooks, hsame]
        rfl
      cases hcont : rec.step.isContinued with
      | true =>
        refine gather_doing (s := (l.extendMessage rec.step.payload).releaseRecord) hk hcont hmax ?_ (by rw [hmessage])
          hout hcarried
        rw [releaseRecord_books, hextended]
      | false =>
        exact startStep_outcome (s := l.extendMessage rec.step.payload) hk hcont hmax hextended hstarted
          (fun _ => by rw [hmessage]) hout hcarried nowUs
    · rename_i hmsg
      have hfinal : rec.step.isContinued = false := by
        by_contra hc
        exact hmsg (rec.valid.isMessage (by simpa using hc))
      exact startStep_outcome hk hfinal hk.length hbooks hstarted (fun h => absurd h hmsg) hout hcarried nowUs

/-- **A step of the runner keeps the account**, or ends the transaction. -/
theorem runOnce_outcome (nowUs : ℕ) :
    Outcome base (done ++ queue) s.books.reports (s.runOnce nowUs).1 := by
  unfold runOnce
  split
  · rename_i h
    exact loadNextStep_outcome hd h nowUs
  · rename_i h
    exact transmitStep_outcome hd h nowUs
  · rename_i h
    exact settleWait_outcome hd h nowUs

/-! ### Events -/

/-- Reporting progress touches nothing the account depends on. -/
theorem Doing.reportProgress : Doing base done queue s.reportProgress := by
  obtain ⟨hk, hwork⟩ := hd
  refine ⟨⟨hk.active, ⟨hk.ledger.1, hk.ledger.2, hk.ledger.3, hk.ledger.4, hk.ledger.5, hk.ledger.6, hk.ledger.7⟩,
    hk.capacity, hk.typed, hk.admits, hk.seq, hk.length⟩, ?_⟩
  have hsame : Same s s.reportProgress :=
    ⟨⟨rfl, emit_progress_stepFrames _ _, rfl, fun h => ⟨h, rfl⟩⟩, fun _ => rfl, rfl, rfl, rfl, rfl⟩
  exact hwork.same hsame fun _ _ => rfl

theorem tick_outcome (nowUs : ℕ) :
    Outcome base (done ++ queue) s.books.reports (s.tick nowUs) := by
  have hstamp : Outcome base (done ++ queue) s.books.reports (s.stampTick nowUs) :=
    .of_stays hd (.inl (.of_isotp rfl rfl rfl rfl))
  have hgoing {t : TransactionRunner} (ha : t.active = true)
      (h : Outcome base (done ++ queue) s.books.reports t) :
      ∃ done' queue', done' ++ queue' = done ++ queue ∧ Doing base done' queue' t
        ∧ t.books.reports = s.books.reports := by
    cases h with
    | going hpushed hdoing hreports => exact ⟨_, _, hpushed, hdoing, hreports⟩
    | finished hover => exact absurd (ha.symm.trans hover) (by decide)
  refine tick_rule (J := Outcome base (done ++ queue) s.books.reports) ?_ (fun _ _ h => h) ?_ hd.kept.active hstamp
  · intro t ha h
    obtain ⟨done', queue', hpushed, hdoing, hreports⟩ := hgoing ha h
    rw [← hpushed, ← hreports]
    exact runOnce_outcome hdoing nowUs
  · intro t ha h
    obtain ⟨done', queue', hpushed, hdoing, hreports⟩ := hgoing ha h
    rcases t.flushProgress_cases nowUs with ⟨due, he⟩ | he
    · rw [he]
      refine .going hpushed (hdoing.stays ?_) hreports
      exact .of_isotp rfl rfl rfl rfl
    · rw [he]
      have hsame := congrArg Books.reports t.reportProgress_books
      exact .going hpushed hdoing.reportProgress (hsame.trans hreports)

end

/-! ### Batches -/

variable {seq : UInt32}

def atSeq (s : TransactionRunner) (seq : UInt32) : TransactionRunner := { s with nextSeq := seq }

/-- A record is taken, or the transaction ends. The loop over a batch keeps the sequence number to itself. -/
theorem pushRecord_doing (hd : Doing base done queue (s.atSeq seq)) (rec : StepRecord) :
    ((s.pushRecord rec.step rec.bytes seq).2 = false
        ∧ Aborted s.books (s.pushRecord rec.step rec.bytes seq).1.books)
      ∨ (s.pushRecord rec.step rec.bytes seq).2 = true
        ∧ (s.pushRecord rec.step rec.bytes seq).1.books.reports = s.books.reports
        ∧ Doing base done (queue ++ [rec])
          ((s.pushRecord rec.step rec.bytes seq).1.atSeq (if rec.step.isContinued then seq else seq + 1)) := by
  have heq := s.pushRecord_eq rec.step rec.bytes seq
  cases haccept : accept s.books rec.step rec.bytes with
  | error reason =>
    rw [heq, haccept]
    exact .inl ⟨rfl, s.abortWith_aborted _ _⟩
  | ok ring =>
    rw [haccept] at heq
    have htaken : (s.pushRecord rec.step rec.bytes seq).2 = true := by rw [heq]
    refine .inr ⟨htaken, ?_⟩
    obtain ⟨hk, hwork⟩ := hd
    have hactive : s.active = true := hk.active
    have hledger : Ledger s.books done queue :=
      ⟨hk.ledger.1, hk.ledger.2, hk.ledger.3, hk.ledger.4, hk.ledger.5, hk.ledger.6, hk.ledger.7⟩
    have hcap : s.ring.capacity ≤ 2 ^ 32 := hk.capacity
    obtain ⟨hadmits, hroom⟩ := accept_ok haccept
    rw [hledger.inFlight hcap] at hroom
    rcases pushRecord_ledger hledger hactive hcap rec hroom seq with ⟨-, hl, ring, pushedBytes, hs⟩ | ⟨hf, -⟩
    swap
    · rw [htaken] at hf
      cases hf
    rw [hs] at hl ⊢
    have hcap' : ring.capacity ≤ 2 ^ 32 := by
      have h1 : s.windowBytes + txnStepRecordSizeMax = ring.capacity := hl.room
      have h2 : s.windowBytes + txnStepRecordSizeMax = s.ring.capacity := hledger.room
      omega
    refine ⟨rfl, ⟨hactive, ⟨hl.1, hl.2, hl.3, hl.4, hl.5, hl.6, hl.7⟩, hcap', hk.typed, ?_, ?_, hk.length⟩, ?_⟩
    · intro r hr
      rcases mem_append.mp (append_assoc done queue [rec] ▸ hr) with hr | hr
      · exact hk.admits r hr
      · rw [mem_singleton.mp hr]
        exact hadmits
    · change (if rec.step.isContinued then seq else seq + 1) = _
      rw [← append_assoc, stepCount_append, UInt32.ofNat_add, ← show seq = _ from hk.seq]
      cases hc : rec.step.isContinued with
      | true => simp [stepCount_continued hc]
      | false => simp [stepCount_final hc]
    · refine hwork.same ?_ fun _ _ => rfl
      exact ⟨⟨rfl, rfl, rfl, fun h => ⟨h, rfl⟩⟩, fun _ => rfl, rfl, rfl, rfl, rfl⟩

/-- **A batch is taken record by record**, or ends the transaction. -/
theorem pushRecords_doing (isEnd : Bool) : ∀ (rs : List StepRecord) {s : TransactionRunner}
    {queue : List StepRecord} (seq : UInt32), Doing base done queue (s.atSeq seq) →
    let s' := s.pushRecords (flatten rs) seq isEnd rs.length
    (Doing base done (queue ++ rs) s' ∧ s'.books.reports = s.books.reports)
      ∨ AbortReported s.books.reports s'
  | [], s, queue, seq, hd => by
    rw [append_nil]
    obtain ⟨hk, hwork⟩ := hd
    refine .inl ⟨⟨⟨hk.active, ⟨hk.ledger.1, hk.ledger.2, hk.ledger.3, hk.ledger.4, hk.ledger.5, hk.ledger.6,
      hk.ledger.7⟩, hk.capacity, hk.typed, hk.admits, hk.seq, hk.length⟩, ?_⟩, rfl⟩
    refine hwork.same ?_ fun _ _ => rfl
    exact ⟨⟨rfl, rfl, rfl, fun h => ⟨h, rfl⟩⟩, fun _ => rfl, rfl, rfl, rfl, rfl⟩
  | r :: rs, s, queue, seq, hd => by
    have hdec : TxnStep.decode (flatten (r :: rs)) = some (r.step, r.size) := r.decode_append _
    have htake : (flatten (r :: rs)).take r.size = r.bytes := take_left' rfl
    have hdrop : (flatten (r :: rs)).drop r.size = flatten rs := drop_left' rfl
    rw [length_cons]
    unfold pushRecords
    rw [hdec]
    dsimp only
    rw [htake, hdrop]
    rcases pushRecord_doing hd r with ⟨hf, hover⟩ | ⟨ht, hreports, hd'⟩
    · rw [hf]
      exact .inr hover.reported
    · rw [ht, if_neg (by decide)]
      have ih := pushRecords_doing isEnd rs _ hd'
      dsimp only at ih
      rw [hreports, append_assoc, singleton_append] at ih
      exact ih

/-! ### Definitions -/

/-- A template is defined that was not before: no record pushed so far names it. -/
theorem defineTemplate_outcome (hd : Doing base done queue s) (t : TxnTemplateMessage) :
    Outcome base (done ++ queue) s.books.reports (s.defineTemplate t) := by
  unfold defineTemplate
  split
  · exact .of_stays hd (.inl (.refl s))
  split
  · exact .aborted (s.abortWith_aborted _ _)
  rename_i hvalid
  obtain ⟨hnew, htype⟩ : s.definedTemplates.testBit t.templateId.toNat = false ∧ t.isTypeValid = true
      ∧ (t.advanceMode = TxnAdvanceMode.count.code → t.countK ≠ 0) := by
    have h : s.isTemplateValid t = true := by simpa using hvalid
    unfold isTemplateValid at h
    split at h
    · cases h
    split at h
    · cases h
    split at h
    · cases h
    split at h
    · cases h
    rename_i hdefined htype _ hcount
    exact ⟨by simpa [isTemplateDefined] using hdefined, by simpa using fun hn => htype (.inr hn),
      fun hmode hzero => hcount ⟨.inl hmode, hzero⟩⟩
  obtain ⟨templates, htemplates⟩ : ∃ T : ℕ → TxnTemplateMessage,
      (fun i => if i = t.templateId.toNat then t else s.templates i) = T := ⟨_, rfl⟩
  have hsame {i : ℕ} (hi : s.definedTemplates.testBit i = true) : templates i = s.templates i := by
    rw [← htemplates]
    refine if_neg ?_
    rintro rfl
    rw [hnew] at hi
    cases hi
  have hbit (i : ℕ) : (s.definedTemplates ||| 1 <<< t.templateId.toNat).testBit i = true ↔
      s.definedTemplates.testBit i = true ∨ t.templateId.toNat = i := by
    rw [Nat.testBit_or, Nat.one_shiftLeft, Nat.testBit_two_pow]
    simp
  rw [htemplates]
  obtain ⟨hk, hwork⟩ := hd
  refine .going rfl ⟨⟨hk.active, ⟨hk.ledger.1, hk.ledger.2, hk.ledger.3, hk.ledger.4, hk.ledger.5, hk.ledger.6,
    hk.ledger.7⟩, hk.capacity, ?_, ?_, hk.seq, hk.length⟩, ?_⟩ rfl
  · intro i hi
    change (templates i).isTypeValid = true ∧ ((templates i).advanceMode = _ → (templates i).countK ≠ 0)
    rcases (hbit i).mp hi with hi | rfl
    · rw [hsame hi]
      exact hk.typed i hi
    · rw [← htemplates]
      simpa using htype
  · intro r hr
    obtain ⟨hdefined, hfits, hwaits⟩ := hk.admits r hr
    have hr' : templates r.step.templateId.toNat = s.templates r.step.templateId.toNat := hsame hdefined
    refine ⟨(hbit _).mpr (.inl hdefined), ?_, ?_⟩
    · change r.step.fitsTemplate (templates _) = true
      rw [hr']
      exact hfits
    · change _ → (templates _).isWaitingMode = true
      rw [hr']
      exact hwaits
  -- the records done and the one loaded name templates that were defined
  have hstays : Same s { s with templates, definedTemplates := s.definedTemplates ||| 1 <<< t.templateId.toNat } := by
    refine ⟨⟨rfl, rfl, rfl, fun h => ⟨h, rfl⟩⟩, fun hloaded => hsame ?_, rfl, rfl, rfl, rfl⟩
    obtain ⟨rec, rest, hqueue, hstep, -⟩ := hk.ledger.loaded hk.active hloaded
    rw [show s.current.step = rec.step from hstep]
    exact (hk.admits rec (mem_append_right _ (hqueue ▸ mem_cons_self))).1
  refine hwork.same hstays fun i hi => ?_
  obtain ⟨r, hr, hstep⟩ := mem_map.mp (gathered_mem _ i hi)
  rw [← hstep]
  exact hsame (hk.admits r (mem_append_left _ hr)).1

end TransactionRunner

/-! ### Whole transactions -/

/-- The steps of a batch, as the loop over its records reads them. -/
def stepsOf (records : List UInt8) : ℕ → List TxnStep
  | 0 => []
  | count + 1 =>
    match TxnStep.decode records with
    | none => []
    | some (step, size) => step :: stepsOf (records.drop size) count

theorem stepsOf_flatten : ∀ rs : List StepRecord, stepsOf (flatten rs) rs.length = rs.map StepRecord.step
  | [] => rfl
  | r :: rs => by
    have hdec : TxnStep.decode (flatten (r :: rs)) = some (r.step, r.size) := r.decode_append _
    have hdrop : (flatten (r :: rs)).drop r.size = flatten rs := drop_left' rfl
    rw [length_cons, stepsOf, hdec]
    dsimp only
    rw [hdrop, stepsOf_flatten rs]
    rfl

/-- The records an event pushes into the transaction. -/
def RunnerEvent.pushed (txnId : UInt16) : RunnerEvent → List TxnStep
  | .steps body =>
    match TxnStepsMessage.decode body with
    | some m => if m.txnId = txnId then stepsOf m.records m.stepCount.toNat else []
    | none => []
  | _ => []

def pushedBy (txnId : UInt16) (es : List RunnerEvent) : List TxnStep := es.flatMap (RunnerEvent.pushed txnId)

namespace TransactionRunner

open Books

variable {base : List FrameMessage} {done queue : List StepRecord} {s : TransactionRunner}

theorem steps_doing (hd : Doing base done queue s) (body : List UInt8) :
    ∃ rs : List StepRecord, rs.map StepRecord.step = RunnerEvent.pushed s.txnId (.steps body)
      ∧ ((Doing base done (queue ++ rs) (s.handle (.steps body))
          ∧ (s.handle (.steps body)).books.reports = s.books.reports)
        ∨ AbortReported s.books.reports (s.handle (.steps body))) := by
  have hactive : s.active = true := hd.kept.active
  simp only [handle, RunnerEvent.pushed]
  cases hdecode : TxnStepsMessage.decode body with
  | none =>
    refine ⟨[], rfl, .inl ?_⟩
    rw [append_nil]
    exact ⟨hd, rfl⟩
  | some m =>
    obtain ⟨rs, hlength, hrecords⟩ := TxnStepsMessage.decode_some hdecode
    dsimp only [Option.map_some, Option.getD_some]
    unfold pushSteps
    by_cases hid : m.txnId = s.txnId
    swap
    · refine ⟨[], by rw [if_neg hid]; rfl, .inl ?_⟩
      rw [if_pos (.inr hid), append_nil]
      exact ⟨hd, rfl⟩
    refine ⟨rs, by rw [if_pos hid, hrecords, ← hlength, stepsOf_flatten], ?_⟩
    rw [if_neg (by rw [hactive]; simp [hid])]
    split
    · exact .inr (s.abortWith_aborted _ _).reported
    · rename_i hseq
      have hfirst : m.firstSeq = s.nextSeq := by
        by_contra hne
        exact hseq (.inr hne)
      rw [hrecords, ← hlength, hfirst]
      exact pushRecords_doing m.isEnd rs s.nextSeq hd

/-- **Every event keeps the account of a running transaction**, or ends it. -/
theorem handle_outcome (hd : Doing base done queue s) (e : RunnerEvent) :
    ∃ rs : List StepRecord, rs.map StepRecord.step = e.pushed s.txnId
      ∧ Outcome base (done ++ (queue ++ rs)) s.books.reports (s.handle e) := by
  have hactive : s.active = true := hd.kept.active
  have hnone {e : RunnerEvent} (hpushed : e.pushed s.txnId = [])
      (h : Outcome base (done ++ queue) s.books.reports (s.handle e)) :
      ∃ rs : List StepRecord, rs.map StepRecord.step = e.pushed s.txnId
        ∧ Outcome base (done ++ (queue ++ rs)) s.books.reports (s.handle e) :=
    ⟨[], hpushed.symm, by rw [append_nil]; exact h⟩
  cases e with
  | begin b i nowUs =>
    refine hnone rfl ?_
    rw [show s.handle (.begin b i nowUs) = s from begin_busy hactive b i nowUs]
    exact .of_stays hd (.inl (.refl s))
  | roster r =>
    refine hnone rfl ?_
    unfold handle defineRoster
    dsimp only
    split
    · exact .of_stays hd (.inl (.refl s))
    split
    · exact .aborted (s.abortWith_aborted _ _)
    · exact .of_stays hd (.inl (.of_isotp rfl rfl rfl rfl))
  | template t => exact hnone rfl (defineTemplate_outcome hd t)
  | steps body =>
    obtain ⟨rs, hrs, hout⟩ := steps_doing hd body
    refine ⟨rs, hrs, ?_⟩
    rcases hout with ⟨hd', hreports⟩ | h
    · exact .going rfl hd' hreports
    · exact .of_report h
  | frame i f _ => exact hnone rfl (.of_stays hd (s.onFrame_stays i f))
  | tick nowUs => exact hnone rfl (tick_outcome hd nowUs)
  | abort txnId =>
    refine hnone rfl ?_
    unfold handle TransactionRunner.abort
    dsimp only
    split
    · exact .of_stays hd (.inl (.refl s))
    · exact .aborted (s.abortWith_aborted _ _)
  | cancel =>
    refine hnone rfl (.finished rfl ?_)
    intro m hm
    have hsame : s.books.reports = s.books.reports ++ [m] := hm
    simp at hsame

/-- **A transaction that runs through the events**, none of which comes after its end. -/
theorem run_outcome : ∀ (es : List RunnerEvent) {s : TransactionRunner} {done queue : List StepRecord},
    Doing base done queue s → Along handle (fun s _ => s.active = true) s es →
    ∃ rs : List StepRecord, rs.map StepRecord.step = pushedBy s.txnId es
      ∧ Outcome base (done ++ (queue ++ rs)) s.books.reports (run handle s es)
  | [], s, done, queue, hd, _ => ⟨[], rfl, by rw [append_nil]; exact .of_stays hd (.inl (.refl s))⟩
  | e :: es, s, done, queue, hd, halong => by
    obtain ⟨rs, hrs, hone⟩ := handle_outcome hd e
    have hrun : run handle s (e :: es) = run handle (s.handle e) es := rfl
    rw [hrun]
    cases hone with
    | finished hactive hdone =>
      -- the end is the last event
      cases es with
      | cons e' es => exact absurd (hactive.symm.trans halong.2.1) (by decide)
      | nil => exact ⟨rs, by simpa [pushedBy] using hrs, .finished hactive hdone⟩
    | @going done' queue' hpushed hdoing hreports =>
      obtain ⟨rs', hrs', hrest⟩ := run_outcome es hdoing halong.2
      have hid : (s.handle e).txnId = s.txnId := by
        by_cases hbegin : ∃ b i nowUs, e = .begin b i nowUs
        · obtain ⟨b, i, nowUs, rfl⟩ := hbegin
          rw [show s.handle (.begin b i nowUs) = s from begin_busy hd.kept.active b i nowUs]
        · exact (handle_active (fun b i nowUs he => hbegin ⟨b, i, nowUs, he⟩) hdoing.kept.active).2
      rw [hreports] at hrest
      refine ⟨rs ++ rs', ?_, ?_⟩
      · rw [map_append, hrs, hrs', hid]
        rfl
      · rw [← append_assoc, hpushed] at hrest
        simpa using hrest

/-- A transaction that has begun: nothing is pushed yet. -/
theorem begin_doing {r : TransactionRunner} (hr : r.active = false)
    (hring : r.windowBytes + txnStepRecordSizeMax = r.ring.capacity) (hcap : r.ring.capacity ≤ 2 ^ 32)
    {b : TxnBeginMessage} (hb : b.isBeginValid = true) (i : UInt8) (nowUs : ℕ) :
    Doing r.stepFrames [] [] (r.begin b i nowUs).1 := by
  unfold TransactionRunner.begin
  rw [if_neg (by rw [hr]; decide), if_neg (by rw [hb]; decide)]
  refine ⟨⟨rfl, ⟨fun _ => r.ring.clear_holds, rfl, rfl, Nat.zero_le _, hring, rfl, fun _ h => absurd rfl h⟩, hcap, ?_,
    (fun _ h => nomatch h), rfl, Nat.zero_le _⟩, ?_⟩
  · intro i hi
    exact absurd hi (by simp [books])
  · exact .between rfl rfl (append_nil _).symm (Carried.nil _ _)

/-- Everything the records pushed ask for is done: every step is counted, the frames the port took since `base` are
those of the steps, in order, and no byte of a message is left. -/
structure EverythingRan (base : List FrameMessage) (s : TransactionRunner) (pushed : List TxnStep)
    (m : TxnStatusMessage) : Prop where
  steps : m.completedSteps = s.nextSeq
  frames : ∃ frames, s.stepFrames = base ++ frames
    ∧ Carried s.templates s.channel (gathered pushed).items frames
  bytes : (gathered pushed).unsent = []

/-- **A transaction that ended DONE has done everything its records ask for iff the records are joined.** -/
theorem done_iff {r : TransactionRunner} (hr : r.active = false)
    (hring : r.windowBytes + txnStepRecordSizeMax = r.ring.capacity) (hcap : r.ring.capacity ≤ 2 ^ 32)
    {b : TxnBeginMessage} (hb : b.isBeginValid = true) (i : UInt8) (nowUs : ℕ) {es : List RunnerEvent}
    (hes : Along handle (fun s _ => s.active = true) (r.begin b i nowUs).1 es) {m : TxnStatusMessage}
    (hm : (run handle (r.begin b i nowUs).1 es).books.reports = (r.begin b i nowUs).1.books.reports ++ [m])
    (hdone : m.state = TxnState.done.code) :
    EverythingRan r.stepFrames (run handle (r.begin b i nowUs).1 es) (pushedBy (r.begin b i nowUs).1.txnId es) m
      ↔ joined (pushedBy (r.begin b i nowUs).1.txnId es) = true := by
  obtain ⟨rs, hrs, hout⟩ := run_outcome es (begin_doing hr hring hcap hb i nowUs) hes
  have hvalid : ∀ s ∈ pushedBy (r.begin b i nowUs).1.txnId es, s.Valid := by
    rw [← hrs]
    intro s hs
    obtain ⟨rec, -, rfl⟩ := mem_map.mp hs
    exact rec.valid
  have hfinished : Finished r.stepFrames rs (run handle (r.begin b i nowUs).1 es) m := by
    cases hout with
    | going _ _ hreports =>
      rw [hreports] at hm
      simp at hm
    | finished _ h => exact h m hm hdone
  rw [← unsent_eq_nil_iff hvalid]
  constructor
  · exact fun h => h.bytes
  · intro hbytes
    refine ⟨hfinished.1, ?_, hbytes⟩
    rw [← hrs]
    exact hfinished.2

/-! ### A message that is cut off -/

/-- One batch with the steps of a transaction, and the end. -/
def batch (steps : List TxnStep) : List UInt8 :=
  (steps.foldl (fun w s => w.bind (·.append s)) (TxnStepsWriter.init 3 1 0 0 404)).elim [] (·.markEnd.body)

/-- The first two bytes of a message. -/
def firstPart : TxnStep := { flags := txnStepFlagMessage ||| txnStepFlagContinued, canId := 0x7e0, payload := [1, 2] }

def lastPart : TxnStep := { flags := txnStepFlagMessage, canId := 0x7e0, payload := [3, 4] }

def plainStep : TxnStep := { templateId := 1, canId := 0x100, payload := [5] }

/-- The steps run under an ISO-TP and a generic template that wait for nothing. -/
def transaction (steps : List TxnStep) : List RunnerEvent :=
  [.template { txnId := 1, type := TxnTemplateType.isotp.code, isotp := { responseId := 0x7e8, txDataLength := 8 } },
    .template { txnId := 1, templateId := 1 }, .steps (batch steps), .tick 0]

def begun : TransactionRunner := (smallStart.begin ⟨3, 0, 0, {}⟩ 0 0).1

def doneStatus (completedSteps : UInt32) : TxnStatusMessage :=
  { channel := 3, state := TxnState.done.code, txnId := 1, failingSeq := completedSteps, completedSteps }

theorem done_iff_joined :
    (run handle begun (transaction [firstPart, lastPart, plainStep])).books.reports = [doneStatus 2]
      ∧ EverythingRan [] (run handle begun (transaction [firstPart, lastPart, plainStep]))
        [firstPart, lastPart, plainStep] (doneStatus 2) := by
  have hreports : (run handle begun (transaction [firstPart, lastPart, plainStep])).books.reports = [doneStatus 2] := by
    decide +kernel
  have hpushed : pushedBy 1 (transaction [firstPart, lastPart, plainStep]) = [firstPart, lastPart, plainStep] := by
    decide +kernel
  have halong : Along handle (fun s _ => s.active = true) begun (transaction [firstPart, lastPart, plainStep]) := by
    decide +kernel
  have h := (done_iff (r := smallStart) (b := ⟨3, 0, 0, {}⟩) rfl rfl (by decide) rfl 0 0 halong hreports rfl).mpr
    (by decide +kernel)
  exact ⟨hreports, hpushed ▸ h⟩

/-- A generic step behind the first record of a message: the transaction ends DONE with two bytes unsent. -/
theorem cut_message_done :
    (run handle begun (transaction [firstPart, plainStep])).books.reports = [doneStatus 1]
      ∧ (run handle begun (transaction [firstPart, plainStep])).stepFrames = [stepFrame 3 plainStep]
      ∧ pushedBy 1 (transaction [firstPart, plainStep]) = [firstPart, plainStep]
      ∧ ¬EverythingRan [] (run handle begun (transaction [firstPart, plainStep])) [firstPart, plainStep] (doneStatus 1) := by
  refine ⟨by decide +kernel, by decide +kernel, by decide +kernel, fun h => ?_⟩
  exact absurd h.bytes (by decide)

end TransactionRunner
end CanHub
