/-
# The rate an agent can sustain, and the rate the hub paces to

`TxPacer` keeps a credit per interface: it backs off when the bus dropped frames
and ramps up when it did not. The credit goes to the hub with the advertised rate,
and the hub sets the interface's shaper from the two.

A back-off is bounded from below only and a ramp from above only, and the ramp is
a sum in 32 bits; the hub takes a credit of 0 for none and rounds the paced rate
down to 0, which is no pace at all. `InStep` says when none of this shows
(`update_within_iff`).
-/
import CanHub.Hub.Registry
import CanHub.Lib.Run

namespace CanHub

@[simp] abbrev decreaseNumerator : ℕ := 4
@[simp] abbrev decreaseDenominator : ℕ := 5

/-- What `TxPacer_Update` is called with, once in a status window. -/
structure StatusWindow where
  interfaceIndex : UInt8
  advertisedRate : UInt32
  txDropped : UInt64

structure TxPacer where
  credit : ℕ → UInt32 := fun _ => 0
  lastTxDropped : ℕ → UInt64 := fun _ => 0
  seen : ℕ → Bool := fun _ => false

namespace TxPacer

open Run UInt32

section

variable (p : TxPacer) (w : StatusWindow)

/-- The credit after a window, before it is clamped. -/
def aim : UInt32 :=
  let credit := p.credit w.interfaceIndex.toNat
  if p.lastTxDropped w.interfaceIndex.toNat < w.txDropped then
    ofNat (credit.toNat * decreaseNumerator / decreaseDenominator)
  else credit + w.advertisedRate / 8

/-- `TxPacer_Update`: the pacer, and the credit returned. -/
def update (p : TxPacer) (w : StatusWindow) : TxPacer × UInt32 :=
  let i := w.interfaceIndex.toNat
  if registerInterfacesMax ≤ i then (p, w.advertisedRate)
  else
    let credit :=
      if !p.seen i then w.advertisedRate
      else if p.lastTxDropped i < w.txDropped then
        if p.aim w < w.advertisedRate / 16 then w.advertisedRate / 16 else p.aim w
      else if w.advertisedRate < p.aim w then w.advertisedRate else p.aim w
    ({ credit := Function.update p.credit i credit
       lastTxDropped := Function.update p.lastTxDropped i w.txDropped
       seen := Function.update p.seen i true }, credit)

/-- Whatever the hub's registry is, a status with the two rates sets the interface's shaper to at most 80 % of the
lower one, and to no pace only if that is 0. -/
def HubPaces (advertisedRate credit : UInt32) : Prop :=
  ∀ (r : InterfaceRegistry) (agentPeerId : UInt32) (agentChannel : UInt8) (k : EntrySlot) (nowUs : ℕ),
    r.findByAgentChannel agentPeerId agentChannel = some k →
    let rate := ((r.applyAdvertisedRate agentPeerId agentChannel advertisedRate credit nowUs).entries k).shaper.rateBitsPerS
    100 * rate.toNat ≤ 80 * min advertisedRate.toNat credit.toNat
      ∧ (rate = 0 → min advertisedRate.toNat credit.toNat = 0)

/-- The credit a call returns is within the advertised rate, and so is the hub's pace. -/
def Within : Prop :=
  w.advertisedRate / 16 ≤ (p.update w).2 ∧ (p.update w).2 ≤ w.advertisedRate
    ∧ HubPaces w.advertisedRate (p.update w).2

/-- The clamp that is missing is not needed, and the credit is not so low that the hub takes it for none. -/
def InStep : Prop :=
  if registerInterfacesMax ≤ w.interfaceIndex.toNat ∨ p.seen w.interfaceIndex.toNat = false then w.advertisedRate ≠ 1
  else
    (if p.lastTxDropped w.interfaceIndex.toNat < w.txDropped then p.aim w ≤ w.advertisedRate
      else w.advertisedRate / 16 ≤ p.aim w)
    ∧ (32 ≤ w.advertisedRate ∨ w.advertisedRate = 0 ∨ 2 ≤ w.advertisedRate ∧ 2 ≤ p.aim w
      ∨ w.advertisedRate = 1 ∧ p.aim w = 0)

/-- The rate the hub sets. -/
theorem applyAdvertisedRate_rate {r : InterfaceRegistry} {agentPeerId : UInt32} {agentChannel : UInt8} {k : EntrySlot}
    (hk : r.findByAgentChannel agentPeerId agentChannel = some k) (advertisedRate credit : UInt32) (nowUs : ℕ) :
    ((r.applyAdvertisedRate agentPeerId agentChannel advertisedRate credit nowUs).entries k).shaper.rateBitsPerS.toNat
      = (if credit ≠ 0 then credit else advertisedRate).toNat * 80 / 100 := by
  have hlt := (if credit ≠ 0 then credit else advertisedRate).toNat_lt
  have hrate : ∀ s : EgressShaper, ∀ rate : UInt32,
      (if s.burstBits = 0 then EgressShaper.init nowUs rate paceBurstBits else s.setRate rate).rateBitsPerS = rate := by
    intro s rate
    split <;> rfl
  unfold InterfaceRegistry.applyAdvertisedRate InterfaceRegistry.modify
  rw [hk]
  simp only [Function.update_self, hrate]
  exact toNat_ofNat_of_lt (by simp only [paceEffectivePercent, size]; omega)

/-- With a credit within the advertised rate, the hub's pace is right unless the credit is 1, or 0 without need. -/
theorem hubPaces_iff {advertisedRate credit : UInt32} (hle : credit ≤ advertisedRate) :
    HubPaces advertisedRate credit ↔ 2 ≤ credit ∨ credit = 0 ∧ advertisedRate ≤ 1 := by
  have hmin : min advertisedRate.toNat credit.toNat = credit.toNat := Nat.min_eq_right (le_iff_toNat_le.mp hle)
  have hrule : ∀ rate : UInt32, rate.toNat = (if credit ≠ 0 then credit else advertisedRate).toNat * 80 / 100 →
      ((100 * rate.toNat ≤ 80 * credit.toNat ∧ (rate = 0 → credit.toNat = 0))
        ↔ 2 ≤ credit ∨ credit = 0 ∧ advertisedRate ≤ 1) := by
    intro rate hrate
    rw [← UInt32.toNat_inj, hrate]
    simp only [UInt32.le_iff_toNat_le, ← UInt32.toNat_inj, UInt32.toNat_ofNat]
    by_cases h0 : credit = 0
    · subst h0
      simp
      omega
    · have hpos : credit.toNat ≠ 0 := fun h => h0 (UInt32.toNat_inj.mp h)
      simp only [ne_eq, h0, not_false_eq_true, if_true]
      omega
  unfold HubPaces
  simp only [hmin]
  constructor
  · intro h
    -- a registry with one interface
    obtain ⟨k, hk⟩ : ∃ k, InterfaceRegistry.findByAgentChannel { entries := fun _ => { inUse := true } } 0 0 = some k :=
      Table.exists_of_find? (i := 0) rfl
    exact (hrule _ (applyAdvertisedRate_rate hk _ _ 0)).mp (h _ 0 0 k 0 hk)
  · intro h r agentPeerId agentChannel k nowUs hk
    exact (hrule _ (applyAdvertisedRate_rate hk _ _ nowUs)).mpr h

/-- **One window**: what is returned is within the rate exactly when the window is in step with the credit. -/
theorem update_within_iff : p.Within w ↔ p.InStep w := by
  have hfloor : (w.advertisedRate / 16).toNat = w.advertisedRate.toNat / 16 := by simp
  have hwithin : ∀ c : UInt32, (w.advertisedRate / 16 ≤ c ∧ c ≤ w.advertisedRate ∧ HubPaces w.advertisedRate c)
      ↔ w.advertisedRate.toNat / 16 ≤ c.toNat ∧ c.toNat ≤ w.advertisedRate.toNat
        ∧ (2 ≤ c.toNat ∨ c.toNat = 0 ∧ w.advertisedRate.toNat ≤ 1) := by
    intro c
    rw [← hfloor, ← UInt32.le_iff_toNat_le, ← UInt32.le_iff_toNat_le]
    refine and_congr_right fun _ => and_congr_right fun hle => ?_
    rw [hubPaces_iff hle]
    simp [UInt32.le_iff_toNat_le, ← UInt32.toNat_inj]
  have hbranch : ∀ q : Prop, ∀ [Decidable q], ∀ a b : UInt32, (if q then a else b).toNat = if q then a.toNat else b.toNat :=
    fun q _ a b => apply_ite UInt32.toNat q a b
  unfold Within InStep
  rw [hwithin]
  by_cases hout : registerInterfacesMax ≤ w.interfaceIndex.toNat
  · simp only [update, hout, true_or, if_true, ne_eq, ← UInt32.toNat_inj, UInt32.toNat_ofNat]
    omega
  cases hseen : p.seen w.interfaceIndex.toNat with
  | false =>
    simp only [update, if_neg hout, hseen, Bool.not_false, if_true, or_true, ne_eq, ← UInt32.toNat_inj, UInt32.toNat_ofNat]
    omega
  | true =>
    simp only [update, hseen, hout, false_or, Bool.true_eq_false, Bool.not_true, Bool.false_eq_true, if_false]
    by_cases hdrop : p.lastTxDropped w.interfaceIndex.toNat < w.txDropped
    · simp only [hdrop, if_true, hbranch, UInt32.lt_iff_toNat_lt, UInt32.le_iff_toNat_le, ← UInt32.toNat_inj,
        hfloor, UInt32.toNat_ofNat]
      split <;> omega
    · simp only [hdrop, if_false, hbranch, UInt32.lt_iff_toNat_lt, UInt32.le_iff_toNat_le, ← UInt32.toNat_inj,
        hfloor, UInt32.toNat_ofNat]
      split <;> omega

end

/-- **The credit stays within the advertised rate**, and the hub's pace within 80 % of it, in every run of status windows
that are in step with the credit; no other window of a run is within it. -/
theorem credit_within_rate_iff (windows : List StatusWindow) :
    Along (fun p w => (update p w).1) Within {} windows ↔ Along (fun p w => (update p w).1) InStep {} windows :=
  ⟨Along.mono fun p w => (p.update_within_iff w).mp, Along.mono fun p w => (p.update_within_iff w).mpr⟩

/-- The bitrate of an interface is lowered from 1000 to 100, and the bus drops frames meanwhile: the credit is 800, eight
times what the bus can carry, and the hub paces to 640. -/
theorem credit_exceeds_lowered_rate :
    ¬ Along (fun p w => (update p w).1) Within {} [⟨0, 1000, 0⟩, ⟨0, 100, 1⟩] := by
  intro h
  exact absurd h.2.1.2.1 (by decide)

end TxPacer
end CanHub
