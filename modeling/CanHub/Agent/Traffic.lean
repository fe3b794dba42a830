/-
# What a link puts on the bus

A link hands two kinds of frames to its port: the frames of its own message, in
the order of `segments`, and flow control for its peer's. The protocol byte
tells them apart. `tick_traffic` and `onFrame_traffic` say this of the two
operations, over any port whose owner can list the frames it took (`frames`):
without the flow control, what was taken is what left `remaining`.
-/
import CanHub.Agent.Reassembly

namespace CanHub

open Wire List

namespace IsotpLink

/-- Whether a frame of the link is flow control. -/
def isFlowControl (l : IsotpLink) (f : FrameMessage) : Bool := byteAt f.payload l.addressSize >>> 4 = pciFlowControl

theorem isFlowControl_dataFrame (l : IsotpLink) (x : UInt8) (xs : List UInt8) :
    l.isFlowControl (l.dataFrame (x :: xs)) = decide (x >>> 4 = pciFlowControl) := by
  have hbyte : byteAt (l.dataFrame (x :: xs)).payload l.addressSize = x := by
    rw [payload_eq]
    exact byteAt_append l.address_length (x :: xs ++ l.fill (x :: xs)) 0
  unfold isFlowControl
  rw [hbyte]

variable {l : IsotpLink} {l' : IsotpLink}

theorem isFlowControl_congr (h : l'.line = l.line) : l'.isFlowControl = l.isFlowControl := by
  rw [eq_of_line h]
  rfl

theorem isFlowControl_continue (l : IsotpLink) :
    l.isFlowControl (l.dataFrame (l.flowControlData flowStatusContinue)) = true :=
  (l.isFlowControl_dataFrame _ _).trans (by decide)

/-! ### Segments are not flow control -/

/-- No protocol byte of a message's frames is one of flow control. -/
private theorem pci_not_flowControl : ∀ n < 16,
    UInt8.ofNat n >>> 4 ≠ pciFlowControl
      ∧ (pciFirstFrame <<< 4 ||| UInt8.ofNat n) >>> 4 ≠ pciFlowControl
      ∧ (pciConsecutiveFrame <<< 4 ||| UInt8.ofNat n) >>> 4 ≠ pciFlowControl := by
  decide

theorem consecutiveFrames_data (l : IsotpLink) : ∀ (pieces : List (List UInt8)) (sequence : UInt8),
    sequence.toNat < 16 → ∀ f ∈ l.consecutiveFrames sequence pieces, l.isFlowControl f = false
  | [], _, _, _, h => nomatch h
  | piece :: pieces, sequence, hs, f, h => by
    rcases mem_cons.mp h with rfl | h
    · have hpci := (pci_not_flowControl _ hs).2.2
      rw [UInt8.ofNat_toNat] at hpci
      rw [isFlowControl_dataFrame]
      exact decide_eq_false hpci
    · refine consecutiveFrames_data l pieces _ ?_ f h
      rw [UInt8.toNat_and]
      exact Nat.lt_of_le_of_lt Nat.and_le_right (by decide)

/-- **The frames of a message are told apart from flow control.** -/
theorem segments_data (hmax : l.sender.message.length ≤ txnIsotpMessageSizeMax) :
    ∀ f ∈ l.segments, l.isFlowControl f = false := by
  intro f hf
  by_cases hsingle : l.IsSingle
  · rw [segments_single hsingle, mem_singleton] at hf
    subst hf
    unfold singleFrameData
    dsimp only
    by_cases hlong : l.classicSingleFrameCapacity < l.sender.message.length
    · rw [if_pos hlong, isFlowControl_dataFrame]
      decide
    · have hlt : l.sender.message.length < 16 := by
        unfold classicSingleFrameCapacity at hlong
        simp only [classicFrameSize, singleFrameHeaderSize] at hlong
        omega
      rw [if_neg hlong, isFlowControl_dataFrame]
      exact decide_eq_false (pci_not_flowControl _ hlt).1
  · rw [segments_first hsingle] at hf
    rcases mem_cons.mp hf with rfl | hf
    · have hhigh : l.sender.message.length >>> 8 < 16 := by
        rw [Nat.shiftRight_eq_div_pow]
        simp only [txnIsotpMessageSizeMax] at hmax
        omega
      unfold firstFrameData
      rw [isFlowControl_dataFrame]
      exact decide_eq_false (pci_not_flowControl _ hhigh).2.1
    · exact l.consecutiveFrames_data _ 1 (by decide) f hf

/-! ### The traffic of an operation -/

section Traffic

variable {ε : Type} {tx : ε → FrameMessage → ε × Bool} {frames : ε → List FrameMessage}
  (htx : ∀ e f, frames (tx e f).1 = frames e ++ if (tx e f).2 then [f] else [])

/-- Frames were taken that, without the flow control, are those that left `remaining`. -/
def Moved (frames : ε → List FrameMessage) (l : IsotpLink) (env : ε) (l' : IsotpLink) (env' : ε) : Prop :=
  ∃ taken, frames env' = frames env ++ taken
    ∧ taken.filter (fun f => !l.isFlowControl f) ++ l'.remaining = l.remaining

theorem Moved.refl (l : IsotpLink) (env : ε) : Moved frames l env l env :=
  ⟨[], (append_nil _).symm, rfl⟩

theorem Moved.trans {l'' : IsotpLink} {env env' env'' : ε} (h : Moved frames l env l' env')
    (hline : l'.line = l.line) (h' : Moved frames l' env' l'' env'') : Moved frames l env l'' env'' := by
  obtain ⟨taken, hframes, hleft⟩ := h
  obtain ⟨taken', hframes', hleft'⟩ := h'
  refine ⟨taken ++ taken', by rw [hframes', hframes, append_assoc], ?_⟩
  rw [filter_append, append_assoc, ← hleft, ← hleft', isFlowControl_congr hline]

include htx in
/-- A flow control frame leaves `remaining` alone. -/
theorem moved_flowControl {env : ε} {f : FrameMessage} (hf : l.isFlowControl f = true)
    (hr : l'.remaining = l.remaining) : Moved frames l env l' (tx env f).1 := by
  refine ⟨if (tx env f).2 then [f] else [], htx env f, ?_⟩
  split
  · simp [hf, hr]
  · exact hr

include htx in
/-- An attempt that does not give up. -/
theorem Handed.moved {env env' : ε} {event : IsotpEvent} (h : Handed tx l env l' env' event)
    (hd : ∀ f ∈ l.remaining, l.isFlowControl f = false) (he : event ≠ .failed) : Moved frames l env l' env' := by
  have key {f : FrameMessage} {b : Bool} (hf : tx env f = (env', b)) : frames env' = frames env ++ if b then [f] else [] := by
    have := htx env f
    rwa [hf] at this
  cases h with
  | taken hr _ hf =>
    refine ⟨_, key hf, ?_⟩
    rw [if_pos rfl, hr]
    simp [hd _ (hr ▸ mem_cons_self)]
  | lastTaken hr hs hf =>
    refine ⟨_, key hf, ?_⟩
    rw [if_pos rfl, hr, remaining_idle hs]
    simp [hd _ (hr ▸ mem_cons_self)]
  | notTaken _ hr hf => exact ⟨_, key hf, by simpa using hr⟩
  | gaveUp => exact absurd rfl he

/-- What an operation that does not fail leaves: frames of `remaining` in order, a link of the same line in a sane
state, and nothing remaining once it reports SENT. -/
structure Orderly (frames : ε → List FrameMessage) (l : IsotpLink) (env : ε) (l' : IsotpLink) (env' : ε)
    (event : IsotpEvent) : Prop where
  line : l'.line = l.line
  moved : event ≠ .failed → Moved frames l env l' env'
  sane : event ≠ .failed → l'.Sane
  sent : event = .sent → l'.remaining = []

theorem Orderly.refl (hl : l.Sane) (env : ε) : Orderly frames l env l env .none :=
  ⟨rfl, fun _ => Moved.refl l env, fun _ => hl, fun h => nomatch h⟩

/-- The frames still remaining are among those that were. -/
theorem Moved.data {env env' : ε} (h : Moved frames l env l' env') (hline : l'.line = l.line)
    (hd : ∀ f ∈ l.remaining, l.isFlowControl f = false) : ∀ f ∈ l'.remaining, l'.isFlowControl f = false := by
  intro f hf
  obtain ⟨taken, -, hleft⟩ := h
  rw [isFlowControl_congr hline]
  exact hd f (hleft ▸ mem_append_right _ hf)

include htx in
theorem sendDue_traffic (hl : l.Sane) (hd : ∀ f ∈ l.remaining, l.isFlowControl f = false) (env : ε)
    (nowUs budget : ℕ) :
    Orderly frames l env (sendDue tx nowUs budget l env).1 (sendDue tx nowUs budget l env).2.1
      (sendDue tx nowUs budget l env).2.2 := by
  refine sendDue_rule (J := fun l' env' event => Orderly frames l env l' env' event) ?_ budget hl (.refl hl env)
  intro l₁ env₁ l₂ env₂ event hl₁ _ h hstep
  have hmoved := h.moved (fun he => nomatch he)
  have hhanded := hstep.handed hl₁
  refine ⟨hstep.line.trans h.line, fun he => ?_, fun _ => hstep.sane hl₁, fun he => ?_⟩
  · exact hmoved.trans h.line (hhanded.moved htx (hmoved.data h.line hd) he)
  · subst he
    cases hhanded with
    | lastTaken _ hs _ => exact remaining_idle hs

include htx in
/-- **A tick puts frames of the message on the bus in order, and flow control.** -/
theorem tick_traffic (hl : l.Sane) (hd : ∀ f ∈ l.remaining, l.isFlowControl f = false) (env : ε)
    (nowUs : ℕ) :
    Orderly frames l env (l.tick tx env nowUs).1 (l.tick tx env nowUs).2.1 (l.tick tx env nowUs).2.2 := by
  -- the receiver sends at most flow control and leaves the sender alone
  have hreceiver : Orderly frames l env (l.tickReceiver tx env nowUs).1 (l.tickReceiver tx env nowUs).2.1
      (l.tickReceiver tx env nowUs).2.2 ∧ (l.tickReceiver tx env nowUs).2.2 ≠ .sent := by
    refine ⟨?_, (tickReceiver_sender tx l env nowUs).2⟩
    unfold tickReceiver
    split
    · exact .refl hl env
    split
    · split
      · exact ⟨rfl, (fun h => absurd rfl h), (fun h => absurd rfl h), fun h => nomatch h⟩
      · exact .refl hl env
    split
    · exact .refl hl env
    · have hsame {r : IsotpReceiver} : { l with receiver := r }.remaining = l.remaining :=
        remaining_congr rfl rfl rfl rfl rfl
      dsimp only
      split
      · exact ⟨rfl, fun _ => moved_flowControl htx l.isFlowControl_continue hsame, fun _ => ⟨hl.room, hl.left⟩,
          fun h => nomatch h⟩
      · exact ⟨rfl, fun _ => moved_flowControl htx l.isFlowControl_continue hsame, fun _ => ⟨hl.room, hl.left⟩,
          fun h => nomatch h⟩
  obtain ⟨hfirst, hnotSent⟩ := hreceiver
  unfold tick
  generalize l.tickReceiver tx env nowUs = r at hfirst hnotSent
  obtain ⟨l₁, env₁, event₁⟩ := r
  dsimp only at *
  by_cases he : event₁ = .none
  swap
  · rw [if_pos he]
    exact ⟨hfirst.line, hfirst.moved, hfirst.sane, fun h => absurd h hnotSent⟩
  subst he
  rw [if_neg (fun h => h rfl)]
  have hl₁ := hfirst.sane (fun h => nomatch h)
  have hmoved := hfirst.moved (fun h => nomatch h)
  unfold tickSender
  split
  · split
    · exact ⟨hfirst.line, (fun h => absurd rfl h), (fun h => absurd rfl h), fun h => nomatch h⟩
    · exact ⟨hfirst.line, fun _ => hmoved, fun _ => hl₁, fun h => nomatch h⟩
  · have hsecond := sendDue_traffic htx hl₁ (hmoved.data hfirst.line hd) env₁ nowUs isotpFramesPerTickMax
    exact ⟨hsecond.line.trans hfirst.line, fun he => hmoved.trans hfirst.line (hsecond.moved he), hsecond.sane,
      hsecond.sent⟩

variable (tx) in
/-- **A frame from the bus makes a link send nothing, unless it fails.** -/
theorem onFrame_traffic (l : IsotpLink) (env : ε) (f : FrameMessage) (nowUs : ℕ) :
    (l.onFrame tx env f nowUs).2.2 = .failed
      ∨ (l.onFrame tx env f nowUs).2.1 = env
        ∧ (l.Sane → (l.onFrame tx env f nowUs).1.Sane ∧ (l.onFrame tx env f nowUs).1.remaining = l.remaining) := by
  have quiet (r : IsotpReceiver) (hl : l.Sane) :
      { l with receiver := r }.Sane ∧ { l with receiver := r }.remaining = l.remaining :=
    ⟨⟨hl.room, hl.left⟩, remaining_congr rfl rfl rfl rfl rfl⟩
  obtain ⟨l', env', event, hr, h⟩ := onFrame_heard tx l env f nowUs
  rw [hr]
  cases h with
  | failed => exact .inl rfl
  | ignored => exact .inr ⟨rfl, fun hl => ⟨hl, rfl⟩⟩
  | waits => exact .inr ⟨rfl, fun hl => ⟨⟨hl.room, hl.left⟩, remaining_congr rfl rfl rfl rfl rfl⟩⟩
  | granted hstate =>
    exact .inr ⟨rfl, fun hl => ⟨⟨hl.room, fun _ => hl.left (.inl hstate)⟩, remaining_granted hstate _ _ _⟩⟩
  | receiving r => exact .inr ⟨rfl, quiet r⟩
  | completes r => exact .inr ⟨rfl, quiet r⟩

end Traffic
end IsotpLink
end CanHub
