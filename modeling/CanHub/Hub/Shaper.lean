/-
# The token bucket conforms

`EgressShaper` meters bits in whole tokens and keeps what a division leaves as a
remainder, in millionths of a bit: `credit` is the two together. A refill adds
exactly what the elapsed time is worth, or fills the bucket; a grant takes exactly
what it grants. The time of a grant is the time of the refill before it.

Key theorems: `refill_spec`, `Metered.Bounded.step` (what one call keeps), and
`shaper_conforms`, for every run of calls.
-/
import CanHub.Hub.Registry
import CanHub.Lib.Run
import Mathlib.Tactic.Ring

namespace CanHub

open Nat

namespace EgressShaper

/-- `EgressShaper_DelayUs`. -/
def delayUs (s : EgressShaper) (bits : ℕ) : ℕ :=
  if s.rateBitsPerS = 0 ∨ bits ≤ s.tokensBits then 0
  else ((bits - s.tokensBits) * microsecondsPerSecond + s.rateBitsPerS.toNat - 1) / s.rateBitsPerS.toNat

/-- `EgressShaper_Refill` as the machine computes it, every sum and product in 64 bits. -/
def refill64 (s : EgressShaper) (nowUs : ℕ) : EgressShaper :=
  if s.rateBitsPerS = 0 ∨ nowUs ≤ s.lastUs then { s with lastUs := nowUs }
  else
    let rate := s.rateBitsPerS.toNat
    let elapsed := nowUs - s.lastUs
    if (s.burstBits * microsecondsPerSecond % 2 ^ 64 / rate + 1) % 2 ^ 64 ≤ elapsed then
      { s with lastUs := nowUs, tokensBits := s.burstBits, remainder := 0 }
    else
      let numerator := (rate * elapsed % 2 ^ 64 + s.remainder) % 2 ^ 64
      let tokens := (s.tokensBits + numerator / microsecondsPerSecond) % 2 ^ 64
      if s.burstBits < tokens then { s with lastUs := nowUs, tokensBits := s.burstBits, remainder := 0 }
      else { s with lastUs := nowUs, tokensBits := tokens, remainder := numerator % microsecondsPerSecond }

def delayUs64 (s : EgressShaper) (bits : ℕ) : ℕ :=
  if s.rateBitsPerS = 0 ∨ bits ≤ s.tokensBits then 0
  else (((bits - s.tokensBits) * microsecondsPerSecond % 2 ^ 64 + s.rateBitsPerS.toNat) % 2 ^ 64 - 1)
    / s.rateBitsPerS.toNat

/-- What the bucket is worth, in millionths of a bit. -/
def credit (s : EgressShaper) : ℕ := s.tokensBits * microsecondsPerSecond + s.remainder

/-- A bucket that paces: it holds no more than its burst, and the remainder is less than a bit. -/
structure Filled (s : EgressShaper) (rate : UInt32) (burst : ℕ) : Prop where
  rateBitsPerS : s.rateBitsPerS = rate
  burstBits : s.burstBits = burst
  paced : rate ≠ 0
  tokens : s.tokensBits ≤ burst
  remainder : s.remainder < microsecondsPerSecond

variable {s : EgressShaper} {rate : UInt32} {burst nowUs bits : ℕ}

variable (h : s.Filled rate burst)
include h

theorem Filled.rate_pos : 0 < rate.toNat :=
  pos_of_ne_zero fun h0 => h.paced (UInt32.toNat_inj.mp h0)

theorem Filled.credit_lt : s.credit < burst * microsecondsPerSecond + microsecondsPerSecond := by
  have ht := h.tokens
  have hr := h.remainder
  simp only [credit, microsecondsPerSecond] at hr ⊢
  omega

/-- The three ways a refill goes. -/
theorem refill_cases (hnow : s.lastUs ≤ nowUs) :
    s.refill nowUs = { s with lastUs := nowUs } ∧ nowUs = s.lastUs
      ∨ s.refill nowUs = { s with lastUs := nowUs, tokensBits := burst, remainder := 0 }
        ∧ burst * microsecondsPerSecond ≤ s.credit + rate.toNat * (nowUs - s.lastUs)
      ∨ s.refill nowUs = { s with
            lastUs := nowUs
            tokensBits := s.tokensBits + (rate.toNat * (nowUs - s.lastUs) + s.remainder) / microsecondsPerSecond
            remainder := (rate.toNat * (nowUs - s.lastUs) + s.remainder) % microsecondsPerSecond }
        ∧ s.tokensBits + (rate.toNat * (nowUs - s.lastUs) + s.remainder) / microsecondsPerSecond ≤ burst := by
  have hrate := h.rate_pos
  unfold refill
  simp only [h.rateBitsPerS, h.burstBits]
  by_cases hlast : nowUs ≤ s.lastUs
  · exact .inl ⟨if_pos (.inr hlast), by omega⟩
  rw [if_neg (not_or.mpr ⟨h.paced, hlast⟩)]
  by_cases hfill : burst * microsecondsPerSecond / rate.toNat + 1 ≤ nowUs - s.lastUs
  · -- the time that fills an empty bucket has passed
    have hworth := (div_lt_iff_lt_mul hrate).mp hfill
    rw [mul_comm (nowUs - s.lastUs)] at hworth
    exact .inr (.inl ⟨if_pos hfill, by omega⟩)
  rw [if_neg hfill]
  by_cases hover : burst < s.tokensBits + (rate.toNat * (nowUs - s.lastUs) + s.remainder) / microsecondsPerSecond
  · refine .inr (.inl ⟨if_pos hover, ?_⟩)
    simp only [credit, microsecondsPerSecond] at hover ⊢
    omega
  · exact .inr (.inr ⟨if_neg hover, by omega⟩)

/-- **A refill loses nothing**: it adds what the time is worth, unless it fills the bucket. -/
theorem refill_spec (hnow : s.lastUs ≤ nowUs) :
    (s.refill nowUs).Filled rate burst ∧ (s.refill nowUs).lastUs = nowUs
      ∧ (s.refill nowUs).credit ≤ s.credit + rate.toNat * (nowUs - s.lastUs)
      ∧ ((s.refill nowUs).tokensBits < burst →
        (s.refill nowUs).credit = s.credit + rate.toNat * (nowUs - s.lastUs)) := by
  have hpos : 0 < microsecondsPerSecond := by decide
  rcases refill_cases h hnow with ⟨he, hsame⟩ | ⟨he, hle⟩ | ⟨he, hle⟩
  · rw [he, hsame, Nat.sub_self]
    refine ⟨⟨h.rateBitsPerS, h.burstBits, h.paced, h.tokens, h.remainder⟩, rfl, ?_, fun _ => ?_⟩ <;> simp [credit]
  · rw [he]
    refine ⟨⟨h.rateBitsPerS, h.burstBits, h.paced, le_rfl, hpos⟩, rfl, ?_, fun hlt => absurd hlt (lt_irrefl burst)⟩
    simpa [credit] using hle
  · have hcredit : (s.refill nowUs).credit = s.credit + rate.toNat * (nowUs - s.lastUs) := by
      rw [he]
      simp only [credit, microsecondsPerSecond]
      omega
    refine ⟨?_, by rw [he], hcredit.le, fun _ => hcredit⟩
    rw [he]
    exact ⟨h.rateBitsPerS, h.burstBits, h.paced, hle, mod_lt _ hpos⟩

/-- A grant takes what it grants; a refusal takes nothing and comes of too few tokens. -/
theorem tryConsume_spec (hbits : bits ≤ burst) :
    (s.tryConsume bits = (s, false) ∧ s.tokensBits < bits)
      ∨ (s.tryConsume bits = ({ s with tokensBits := s.tokensBits - bits }, true) ∧ bits ≤ s.tokensBits) := by
  unfold tryConsume
  rw [h.rateBitsPerS, h.burstBits, if_neg h.paced, min_eq_left hbits]
  by_cases hlt : s.tokensBits < bits
  · exact .inl ⟨if_pos hlt, hlt⟩
  · exact .inr ⟨if_neg hlt, not_lt.mp hlt⟩

/-- **The delay is long enough**: after it and a refill, what was refused is there. -/
theorem tryConsume_after_delay (hbits : bits ≤ burst) (hrefused : (s.tryConsume bits).2 = false) :
    ((s.refill (s.lastUs + s.delayUs bits)).tryConsume bits).2 = true := by
  have hrate := h.rate_pos
  have hfew : s.tokensBits < bits := by
    rcases tryConsume_spec h hbits with ⟨-, hlt⟩ | ⟨he, -⟩
    · exact hlt
    · simp [he] at hrefused
  -- the delay is worth the deficit
  have hworth : (bits - s.tokensBits) * microsecondsPerSecond ≤ rate.toNat * s.delayUs bits := by
    unfold delayUs
    rw [h.rateBitsPerS, if_neg (not_or.mpr ⟨h.paced, not_le.mpr hfew⟩)]
    have hdiv := div_add_mod ((bits - s.tokensBits) * microsecondsPerSecond + rate.toNat - 1) rate.toNat
    have hmod := mod_lt ((bits - s.tokensBits) * microsecondsPerSecond + rate.toNat - 1) hrate
    omega
  obtain ⟨hfilled, -, -, hexact⟩ := refill_spec h (le_add_right s.lastUs (s.delayUs bits))
  have henough : bits ≤ (s.refill (s.lastUs + s.delayUs bits)).tokensBits := by
    by_contra hless
    have hcredit := hexact (by omega)
    have hrem := hfilled.remainder
    rw [Nat.add_sub_cancel_left] at hcredit
    simp only [credit, microsecondsPerSecond] at hcredit hrem hworth
    omega
  rcases tryConsume_spec hfilled hbits with ⟨-, hlt⟩ | ⟨he, -⟩
  · omega
  · rw [he]

/-- **Nothing overflows**: in 64 bits a refill is what it is in numbers. -/
theorem refill64_eq (hburst : burst ≤ 2 ^ 32) : s.refill64 nowUs = s.refill nowUs := by
  have hrate := h.rate_pos
  have hlt := rate.toNat_lt
  have hrem := h.remainder
  have htokens := h.tokens
  have hwhole : burst * microsecondsPerSecond % 2 ^ 64 = burst * microsecondsPerSecond :=
    mod_eq_of_lt (by simp only [microsecondsPerSecond]; omega)
  have hfill : (burst * microsecondsPerSecond / rate.toNat + 1) % 2 ^ 64
      = burst * microsecondsPerSecond / rate.toNat + 1 := by
    have := div_le_self (burst * microsecondsPerSecond) rate.toNat
    refine mod_eq_of_lt ?_
    simp only [microsecondsPerSecond] at this ⊢
    omega
  unfold refill64 refill
  simp only [h.rateBitsPerS, h.burstBits, hwhole, hfill]
  by_cases hlast : rate = 0 ∨ nowUs ≤ s.lastUs
  · rw [if_pos hlast, if_pos hlast]
  rw [if_neg hlast, if_neg hlast]
  by_cases hlong : burst * microsecondsPerSecond / rate.toNat + 1 ≤ nowUs - s.lastUs
  · rw [if_pos hlong, if_pos hlong]
  rw [if_neg hlong, if_neg hlong]
  -- a shorter time is worth at most a burst
  have hshort : rate.toNat * (nowUs - s.lastUs) ≤ burst * microsecondsPerSecond :=
    (Nat.mul_le_mul_left _ (by omega)).trans (Nat.mul_div_le _ _)
  simp only [microsecondsPerSecond] at hshort hrem ⊢
  have hproduct : rate.toNat * (nowUs - s.lastUs) % 2 ^ 64 = rate.toNat * (nowUs - s.lastUs) :=
    mod_eq_of_lt (by omega)
  have hsum : (rate.toNat * (nowUs - s.lastUs) + s.remainder) % 2 ^ 64
      = rate.toNat * (nowUs - s.lastUs) + s.remainder := mod_eq_of_lt (by omega)
  have hfull : (s.tokensBits + (rate.toNat * (nowUs - s.lastUs) + s.remainder) / 1000000) % 2 ^ 64
      = s.tokensBits + (rate.toNat * (nowUs - s.lastUs) + s.remainder) / 1000000 := mod_eq_of_lt (by omega)
  rw [hproduct, hsum, hfull]

theorem delayUs64_eq (hburst : burst ≤ 2 ^ 32) (hbits : bits ≤ burst) :
    s.delayUs64 bits = s.delayUs bits := by
  have hlt := rate.toNat_lt
  unfold delayUs64 delayUs
  rw [h.rateBitsPerS]
  simp only [microsecondsPerSecond]
  have hproduct : (bits - s.tokensBits) * 1000000 % 2 ^ 64 = (bits - s.tokensBits) * 1000000 :=
    mod_eq_of_lt (by omega)
  have hsum : ((bits - s.tokensBits) * 1000000 + rate.toNat) % 2 ^ 64 = (bits - s.tokensBits) * 1000000 + rate.toNat :=
    mod_eq_of_lt (by omega)
  rw [hproduct, hsum]

end EgressShaper

/-! ### Runs of calls -/

inductive ShaperCall
  | refill (nowUs : ℕ)
  | tryConsume (bits : ℕ)

/-- A bucket, and what it has granted: the time and the bits of each grant. -/
structure Metered where
  shaper : EgressShaper
  grants : List (ℕ × ℕ) := []

namespace Metered

open EgressShaper Run

def step (m : Metered) : ShaperCall → Metered
  | .refill nowUs => { m with shaper := m.shaper.refill nowUs }
  | .tryConsume bits =>
    { shaper := (m.shaper.tryConsume bits).1
      grants := if (m.shaper.tryConsume bits).2 then m.grants ++ [(m.shaper.lastUs, bits)] else m.grants }

/-- Times do not go back, and no amount exceeds the burst. -/
def Orderly (burst : ℕ) (m : Metered) : ShaperCall → Prop
  | .refill nowUs => m.shaper.lastUs ≤ nowUs
  | .tryConsume bits => bits ≤ burst

/-- All bits granted. -/
def granted (m : Metered) : ℕ := (m.grants.map Prod.snd).sum

/-- The bits granted from a time on, for a duration. -/
def grantedIn (m : Metered) (fromUs durationUs : ℕ) : ℕ :=
  ((m.grants.filter fun g => fromUs ≤ g.1 ∧ g.1 ≤ fromUs + durationUs).map Prod.snd).sum

/-- The bucket is filled, and an interval's grants and what is left are covered by a burst and the time's worth. -/
structure Bounded (rate : UInt32) (burst fromUs durationUs : ℕ) (m : Metered) : Prop where
  filled : m.shaper.Filled rate burst
  before : m.shaper.lastUs < fromUs → m.grantedIn fromUs durationUs = 0
  covered : microsecondsPerSecond * m.grantedIn fromUs durationUs
      + (if m.shaper.lastUs ≤ fromUs + durationUs then m.shaper.credit else 0)
    < burst * microsecondsPerSecond + microsecondsPerSecond
      + rate.toNat * (min m.shaper.lastUs (fromUs + durationUs) - fromUs)

variable {m : Metered} {rate : UInt32} {burst fromUs durationUs : ℕ} {c : ShaperCall} {calls : List ShaperCall}

/-- What a call does, whichever it is: time passes and is worth its rate at most, or bits are granted. -/
theorem step_spec (h : m.shaper.Filled rate burst) (hc : m.Orderly burst c) :
    (m.step c).shaper.Filled rate burst ∧ m.shaper.lastUs ≤ (m.step c).shaper.lastUs
      ∧ (((m.step c).grants = m.grants
          ∧ (m.step c).shaper.credit ≤ m.shaper.credit + rate.toNat * ((m.step c).shaper.lastUs - m.shaper.lastUs)
          ∧ ((m.step c).shaper.tokensBits < burst → (m.step c).shaper.credit
              = m.shaper.credit + rate.toNat * ((m.step c).shaper.lastUs - m.shaper.lastUs)))
        ∨ ∃ bits, (m.step c).grants = m.grants ++ [(m.shaper.lastUs, bits)]
          ∧ (m.step c).shaper.lastUs = m.shaper.lastUs
          ∧ (m.step c).shaper.credit + microsecondsPerSecond * bits = m.shaper.credit) := by
  cases c with
  | refill nowUs =>
    obtain ⟨hfilled, hlast, hle, hexact⟩ := refill_spec h hc
    have hnow : m.shaper.lastUs ≤ nowUs := hc
    simp only [step]
    rw [hlast]
    exact ⟨hfilled, hnow, .inl ⟨trivial, hle, hexact⟩⟩
  | tryConsume bits =>
    rcases tryConsume_spec h hc with ⟨he, -⟩ | ⟨he, hle⟩
    · simp [step, he, h]
    · simp only [step, he]
      have htokens := h.tokens
      refine ⟨⟨h.rateBitsPerS, h.burstBits, h.paced, ?_, h.remainder⟩, le_rfl, .inr ⟨bits, by simp, by simp, ?_⟩⟩
      · simp only
        omega
      · simp only [credit, microsecondsPerSecond]
        omega

section

variable (h : Bounded rate burst fromUs durationUs m)
include h

/-- **One call keeps an interval within its bound.** -/
theorem Bounded.step (hc : m.Orderly burst c) :
    Bounded rate burst fromUs durationUs (m.step c) := by
  have hcovered := h.covered
  obtain ⟨hfilled, hlast, ⟨hgrants, hle, -⟩ | ⟨bits, hgrants, hsame, hcredit⟩⟩ := step_spec h.filled hc
  · have hin : (m.step c).grantedIn fromUs durationUs = m.grantedIn fromUs durationUs := by
      simp only [grantedIn, hgrants]
    refine ⟨hfilled, fun hbefore => hin.trans (h.before (by omega)), ?_⟩
    have hcredit := hfilled.credit_lt
    rw [hin]
    by_cases hbefore : m.shaper.lastUs < fromUs
    · rw [h.before hbefore]
      split <;> omega
    · -- the time since the last refill is worth its rate at most
      have hmul : rate.toNat * ((m.step c).shaper.lastUs - fromUs)
          = rate.toNat * ((m.step c).shaper.lastUs - m.shaper.lastUs) + rate.toNat * (m.shaper.lastUs - fromUs) := by
        rw [← mul_add]
        congr 1
        omega
      have hmono : rate.toNat * (min m.shaper.lastUs (fromUs + durationUs) - fromUs) ≤ rate.toNat * durationUs :=
        mul_le_mul_left _ (by omega)
      by_cases hin' : (m.step c).shaper.lastUs ≤ fromUs + durationUs
      · rw [if_pos (hlast.trans hin'), min_eq_left (hlast.trans hin')] at hcovered
        rw [if_pos hin', min_eq_left hin', hmul]
        omega
      · rw [if_neg hin', Nat.min_eq_right (by omega), Nat.add_sub_cancel_left]
        omega
  · have hin : (m.step c).grantedIn fromUs durationUs = m.grantedIn fromUs durationUs
        + if fromUs ≤ m.shaper.lastUs ∧ m.shaper.lastUs ≤ fromUs + durationUs then bits else 0 := by
      simp only [grantedIn, hgrants, List.filter_append, List.map_append, List.sum_append, List.filter_singleton]
      by_cases hw : fromUs ≤ m.shaper.lastUs ∧ m.shaper.lastUs ≤ fromUs + durationUs
      · simp [hw]
      · simp [hw]
    refine ⟨hfilled, fun hbefore => ?_, ?_⟩
    · rw [hsame] at hbefore
      rw [hin, h.before hbefore, if_neg (by omega)]
    · rw [hin, hsame]
      by_cases hw : m.shaper.lastUs ≤ fromUs + durationUs
      · rw [if_pos hw] at hcovered ⊢
        split
        · rw [mul_add]
          omega
        · rw [add_zero]
          omega
      · rw [if_neg hw] at hcovered ⊢
        rw [if_neg (by omega)]
        exact hcovered

theorem Bounded.run
    (hcalls : Along Metered.step (Orderly burst) m calls) :
    Bounded rate burst fromUs durationUs (run Metered.step m calls) :=
  hcalls.invariant (fun _ _ hb hc => hb.step hc) h

/-- The bits granted in an interval. -/
theorem Bounded.grantedIn_le :
    m.grantedIn fromUs durationUs ≤ burst + (rate.toNat * durationUs + 999999) / microsecondsPerSecond := by
  have hcovered := h.covered
  have hmono : rate.toNat * (min m.shaper.lastUs (fromUs + durationUs) - fromUs) ≤ rate.toNat * durationUs :=
    mul_le_mul_left _ (by omega)
  simp only [microsecondsPerSecond] at hcovered ⊢
  omega

end

/-- **No credit is lost to rounding**: while the bucket stays below its burst, the time's worth is in it or granted. -/
theorem run_exact (calls : List ShaperCall) : ∀ m : Metered, m.shaper.Filled rate burst →
    Along Metered.step (Orderly burst) m calls →
    Along Metered.step (fun m c => (m.step c).shaper.tokensBits < burst) m calls →
    m.shaper.lastUs ≤ (run Metered.step m calls).shaper.lastUs
      ∧ (run Metered.step m calls).shaper.credit + microsecondsPerSecond * (run Metered.step m calls).granted
        = m.shaper.credit + microsecondsPerSecond * m.granted
          + rate.toNat * ((run Metered.step m calls).shaper.lastUs - m.shaper.lastUs) := by
  induction calls with
  | nil => simp [run]
  | cons c calls ih =>
    intro m hfilled horderly hbelow
    obtain ⟨hfilled', hlast, hstep⟩ := step_spec hfilled horderly.1
    obtain ⟨hlast', hexact⟩ := ih (m.step c) hfilled' horderly.2 hbelow.2
    have hrun : run Metered.step m (c :: calls) = run Metered.step (m.step c) calls := rfl
    rw [hrun]
    generalize run Metered.step (m.step c) calls = m' at hlast' hexact ⊢
    refine ⟨hlast.trans hlast', ?_⟩
    have hmul : rate.toNat * (m'.shaper.lastUs - m.shaper.lastUs)
        = rate.toNat * (m'.shaper.lastUs - (m.step c).shaper.lastUs)
          + rate.toNat * ((m.step c).shaper.lastUs - m.shaper.lastUs) := by
      rw [← mul_add]
      congr 1
      omega
    rw [hexact, hmul]
    rcases hstep with ⟨hgrants, -, hcredit⟩ | ⟨bits, hgrants, hsame, hcredit⟩
    · have hgranted : (m.step c).granted = m.granted := by simp only [granted, hgrants]
      rw [hgranted, hcredit hbelow.1]
      omega
    · have hgranted : (m.step c).granted = m.granted + bits := by simp [granted, hgrants]
      rw [hgranted, ← hcredit, hsame, Nat.sub_self, Nat.mul_add]
      omega

/-- A bucket as `EgressShaper_Init` leaves it. -/
def fresh (nowUs : ℕ) (rate : UInt32) (burst : ℕ) : Metered := { shaper := .init nowUs rate burst }

theorem fresh_bounded (nowUs : ℕ) (hrate : rate ≠ 0) : Bounded rate burst fromUs durationUs (fresh nowUs rate burst) where
  filled := ⟨rfl, rfl, hrate, le_rfl, by simp [fresh, init]⟩
  before _ := rfl
  covered := by
    have hnone : (fresh nowUs rate burst).grantedIn fromUs durationUs = 0 := rfl
    have hcredit : (fresh nowUs rate burst).shaper.credit = burst * microsecondsPerSecond := add_zero _
    rw [hnone, hcredit]
    split <;> simp only [microsecondsPerSecond] <;> omega

/-- **The token bucket conforms.** With a fixed rate and burst, in every run of refills and requests: an interval's
grants are at most the burst and the interval's worth, the tokens at most the burst; no credit is lost while they stay
below it; 64 bits suffice; and a request that was refused is granted after the delay told for it. -/
theorem shaper_conforms {nowUs : ℕ} (hrate : rate ≠ 0) (hburst : burst ≤ 2 ^ 32)
    (hcalls : Along Metered.step (Orderly burst) (fresh nowUs rate burst) calls) {m : Metered}
    (hm : m = run Metered.step (fresh nowUs rate burst) calls) :
    (∀ fromUs durationUs, m.grantedIn fromUs durationUs
      ≤ burst + (rate.toNat * durationUs + 999999) / microsecondsPerSecond)
    ∧ m.shaper.tokensBits ≤ burst
    ∧ (∀ later, Along Metered.step (Orderly burst) m later →
      Along Metered.step (fun m c => (m.step c).shaper.tokensBits < burst) m later →
      (run Metered.step m later).shaper.credit + microsecondsPerSecond * (run Metered.step m later).granted
        = m.shaper.credit + microsecondsPerSecond * m.granted
          + rate.toNat * ((run Metered.step m later).shaper.lastUs - m.shaper.lastUs))
    ∧ (∀ nowUs bits, bits ≤ burst → m.shaper.refill64 nowUs = m.shaper.refill nowUs
      ∧ m.shaper.delayUs64 bits = m.shaper.delayUs bits)
    ∧ ∀ bits ≤ burst, (m.shaper.tryConsume bits).2 = false →
      ((m.shaper.refill (m.shaper.lastUs + m.shaper.delayUs bits)).tryConsume bits).2 = true := by
  have hbounded : ∀ fromUs durationUs, Bounded rate burst fromUs durationUs m :=
    fun fromUs durationUs => hm ▸ (fresh_bounded nowUs hrate).run hcalls
  have hfilled := (hbounded 0 0).filled
  refine ⟨fun fromUs durationUs => (hbounded fromUs durationUs).grantedIn_le, hfilled.tokens, ?_, ?_, ?_⟩
  · exact fun later horderly hbelow => (run_exact later m hfilled horderly hbelow).2
  · exact fun nowUs bits hbits => ⟨refill64_eq hfilled hburst, delayUs64_eq hfilled hburst hbits⟩
  · exact fun bits hbits hrefused => tryConsume_after_delay hfilled hbits hrefused

/-- A bucket of 100 bits at one bit a microsecond: emptied, refilled for 50 us, and asked for 60 bits. -/
theorem shaper_conforms_refused :
    let m := run Metered.step (fresh 0 1000000 100) [.tryConsume 100, .refill 50, .tryConsume 60]
    (m.shaper.tryConsume 60).2 = false ∧ m.grantedIn 0 50 = 100 ∧
      ((m.shaper.refill (m.shaper.lastUs + m.shaper.delayUs 60)).tryConsume 60).2 = true := by
  have hcalls : Along Metered.step (Orderly 100) (fresh 0 1000000 100) [.tryConsume 100, .refill 50, .tryConsume 60] :=
    ⟨(le_refl 100 :), (zero_le 50 :), (by decide : 60 ≤ 100), trivial⟩
  exact ⟨by decide, by decide, (shaper_conforms (by decide) (by decide) hcalls rfl).2.2.2.2 60 (by decide) (by decide)⟩

end Metered
end CanHub
