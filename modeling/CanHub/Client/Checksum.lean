/-
# The checks of a transaction script

`checksum.c` computes a sum of bytes, or a CRC with a shift register of up to 32 bits that
takes the bytes one at a time. A register holds the coefficients of a polynomial over the
field of two elements, and a shift multiplies it by `X` modulo the generator; so the register
is the remainder of the message, whatever its pieces (`checksum_eq`).
-/
import Mathlib

namespace CanHub

open Polynomial List

def checksumWidthMin : ℕ := 8
def checksumWidthMax : ℕ := 32

inductive ChecksumKind
  | sum
  | crc
deriving DecidableEq

structure ChecksumModel where
  kind : ChecksumKind
  width : ℕ
  polynomial : BitVec 32 := 0
  initial : BitVec 32 := 0
  reflectInput : Bool := false
  reflectOutput : Bool := false
  finalXor : BitVec 32 := 0

/-- `ChecksumModel_IsValid`: there is no other kind to refuse. -/
def ChecksumModel.IsValid (m : ChecksumModel) : Prop := checksumWidthMin ≤ m.width ∧ m.width ≤ checksumWidthMax

def checksumCrc16 : ChecksumModel := { kind := .crc, width := 16, polynomial := 0x1021, initial := 0xFFFF }

def widthMask (width : ℕ) : BitVec 32 := if width ≥ checksumWidthMax then BitVec.allOnes 32 else (1#32 <<< width) - 1

def reflect (value : BitVec 32) (width : ℕ) : BitVec 32 :=
  (range width).foldl
    (fun reflected i => if value.getLsbD i then reflected ||| 1#32 <<< (width - 1 - i) else reflected) 0

structure Checksum where
  model : ChecksumModel
  value : BitVec 32

namespace Checksum

def start (model : ChecksumModel) : Checksum :=
  ⟨model, if model.kind = .crc then model.initial &&& widthMask model.width else 0⟩

def shift (model : ChecksumModel) (value : BitVec 32) : BitVec 32 :=
  if value.getLsbD (model.width - 1) then (value <<< 1) ^^^ model.polynomial else value <<< 1

def input (model : ChecksumModel) (byte : BitVec 8) : BitVec 8 :=
  if model.reflectInput then (reflect (byte.setWidth 32) 8).setWidth 8 else byte

def crcByte (model : ChecksumModel) (value : BitVec 32) (byte : BitVec 8) : BitVec 32 :=
  let value := value ^^^ ((input model byte).setWidth 32 <<< (model.width - 8))
  (range 8).foldl (fun value _ => shift model value) value &&& widthMask model.width

def updateByte (c : Checksum) (byte : BitVec 8) : Checksum :=
  match c.model.kind with
  | .sum => { c with value := (c.value + byte.setWidth 32) &&& widthMask c.model.width }
  | .crc => { c with value := crcByte c.model c.value byte }

def update (c : Checksum) (data : List (BitVec 8)) : Checksum := data.foldl updateByte c

def finish (c : Checksum) : BitVec 32 :=
  match c.model.kind with
  | .sum => c.value
  | .crc =>
    let value := if c.model.reflectOutput then reflect c.value c.model.width else c.value
    (value ^^^ c.model.finalXor) &&& widthMask c.model.width

end Checksum

/-! ### Masks and mirrors -/

variable {w : ℕ}

theorem widthMask_toNat (hw : w ≤ 32) : (widthMask w).toNat = 2 ^ w - 1 := by
  unfold widthMask checksumWidthMax
  split
  · obtain rfl : w = 32 := by omega
    rfl
  · have hlt : 2 ^ w < 2 ^ 32 := Nat.pow_lt_pow_right (by omega) (by omega)
    have hpos : 0 < 2 ^ w := Nat.two_pow_pos w
    have hone : (1#32 <<< w).toNat = 2 ^ w := by
      rw [BitVec.toNat_shiftLeft, BitVec.toNat_one (by decide), Nat.one_shiftLeft, Nat.mod_eq_of_lt hlt]
    rw [BitVec.toNat_sub_of_le (by rw [BitVec.le_def, hone]; exact hpos), hone]
    rfl

theorem and_widthMask_toNat (hw : w ≤ 32) (v : BitVec 32) : (v &&& widthMask w).toNat = v.toNat % 2 ^ w := by
  rw [BitVec.toNat_and, widthMask_toNat hw, Nat.and_two_pow_sub_one_eq_mod]

theorem and_widthMask_getLsbD (hw : w ≤ 32) (v : BitVec 32) (i : ℕ) :
    (v &&& widthMask w).getLsbD i = (decide (i < w) && v.getLsbD i) := by
  unfold BitVec.getLsbD
  rw [and_widthMask_toNat hw, Nat.testBit_mod_two_pow]

theorem reflect_getLsbD (hw : w ≤ 32) (v : BitVec 32) (j : ℕ) :
    (reflect v w).getLsbD j = (decide (j < w) && v.getLsbD (w - 1 - j)) := by
  -- after `k` rounds the upper `k` bits are there
  have hrounds : ∀ k ≤ w, ((range k).foldl
      (fun reflected i => if v.getLsbD i then reflected ||| 1#32 <<< (w - 1 - i) else reflected) 0).getLsbD j
      = (decide (w - k ≤ j ∧ j < w) && v.getLsbD (w - 1 - j)) := by
    intro k hk
    induction k with
    | zero => simp
    | succ k ih =>
      rw [range_succ, foldl_concat]
      have ih := ih (by omega)
      generalize (range k).foldl _ _ = reflected at ih ⊢
      have hbit : (1#32 <<< (w - 1 - k)).getLsbD j = decide (w - 1 - k = j) := by
        rw [← BitVec.twoPow_eq, BitVec.getLsbD_twoPow, decide_eq_true (by omega : w - 1 - k < 32), Bool.true_and]
      have hround : (if v.getLsbD k then reflected ||| 1#32 <<< (w - 1 - k) else reflected).getLsbD j
          = (reflected.getLsbD j || (decide (w - 1 - k = j) && v.getLsbD k)) := by
        cases v.getLsbD k <;> simp [hbit]
      rw [hround, ih]
      by_cases hj : w - 1 - k = j
      · have hback : w - 1 - j = k := by omega
        have hbefore : ¬ w - k ≤ j := by omega
        have hafter : w - (k + 1) ≤ j ∧ j < w := by omega
        simp [hj, hback, hbefore, hafter]
      · have hsame : w - (k + 1) ≤ j ∧ j < w ↔ w - k ≤ j ∧ j < w := by omega
        rw [decide_eq_false hj, Bool.false_and, Bool.or_false, decide_eq_decide.mpr hsame]
  have := hrounds w le_rfl
  simpa [reflect] using this

/-! ### Registers as polynomials -/

def coefficient (b : Bool) : ZMod 2 := if b then 1 else 0

theorem coefficient_xor (a b : Bool) : coefficient (a ^^ b) = coefficient a + coefficient b := by
  cases a <;> cases b <;> rfl

/-- The polynomial of the lower bits of a register. -/
noncomputable def bits (w : ℕ) (v : BitVec 32) : (ZMod 2)[X] :=
  ∑ i ∈ Finset.range w, C (coefficient (v.getLsbD i)) * X ^ i

theorem coeff_bits (w : ℕ) (v : BitVec 32) (i : ℕ) :
    (bits w v).coeff i = if i < w then coefficient (v.getLsbD i) else 0 := by
  simp [bits, finsetSum_coeff, coeff_X_pow]

theorem bits_xor (w : ℕ) (v v' : BitVec 32) : bits w (v ^^^ v') = bits w v + bits w v' := by
  ext i
  rw [coeff_add, coeff_bits, coeff_bits, coeff_bits, BitVec.getLsbD_xor, coefficient_xor]
  split
  · rfl
  · rw [add_zero]

theorem bits_mask (hw : w ≤ 32) (v : BitVec 32) : bits w (v &&& widthMask w) = bits w v := by
  ext i
  rw [coeff_bits, coeff_bits, and_widthMask_getLsbD hw]
  simp +contextual

theorem degree_bits_lt (w : ℕ) (v : BitVec 32) : (bits w v).degree < w := by
  refine (degree_lt_iff_coeff_zero _ _).mpr fun i hi => ?_
  rw [coeff_bits, if_neg (by omega)]

theorem bits_shiftLeft {k : ℕ} (hw : w ≤ 32) (v : BitVec 32) : bits w (v <<< k) = X ^ k * bits (w - k) v := by
  ext i
  rw [coeff_X_pow_mul', coeff_bits, coeff_bits, BitVec.getLsbD_shiftLeft]
  by_cases hi : k ≤ i
  · rw [if_pos hi, decide_eq_false hi.not_gt]
    by_cases hi' : i < w
    · rw [if_pos hi', if_pos (by omega), decide_eq_true (by omega : i < 32)]
      rfl
    · rw [if_neg hi', if_neg (by omega)]
  · simp [hi, not_le.mp hi, coefficient]

/-- The generator of a CRC, whose leading term is not in the register. -/
noncomputable def generator (m : ChecksumModel) : (ZMod 2)[X] := X ^ m.width + bits m.width m.polynomial

/-- The bits of a byte, the first one last where the input is reflected. -/
noncomputable def bytePolynomial (reflected : Bool) (b : BitVec 8) : (ZMod 2)[X] :=
  ∑ i ∈ Finset.range 8, C (coefficient (b.getLsbD (if reflected then 7 - i else i))) * X ^ i

/-- The message: each byte takes eight places. -/
noncomputable def messagePolynomial (reflected : Bool) (data : List (BitVec 8)) : (ZMod 2)[X] :=
  data.foldl (fun p b => p * X ^ 8 + bytePolynomial reflected b) 0

/-- The remainder of a message, of which the initial value stands in front. -/
noncomputable def crcRemainder (m : ChecksumModel) (data : List (BitVec 8)) : (ZMod 2)[X] :=
  (bits m.width m.initial * X ^ (8 * data.length) + messagePolynomial m.reflectInput data * X ^ m.width) %ₘ generator m

namespace Checksum

variable {m : ChecksumModel}

section

variable (m : ChecksumModel)

theorem bits_input (b : BitVec 8) :
    bits 8 ((input m b).setWidth 32) = bytePolynomial m.reflectInput b := by
  unfold bits bytePolynomial input
  refine Finset.sum_congr rfl fun i hi => ?_
  have hi := Finset.mem_range.mp hi
  split
  · rw [BitVec.getLsbD_setWidth, BitVec.getLsbD_setWidth, reflect_getLsbD (by decide), BitVec.getLsbD_setWidth]
    simp [hi, (by omega : i < 32), (by omega : 7 - i < 32)]
  · rw [BitVec.getLsbD_setWidth]
    simp [(by omega : i < 32)]

theorem generator_monic : (generator m).Monic := monic_X_pow_add (degree_bits_lt _ _)

theorem degree_generator : (generator m).degree = m.width := by
  unfold generator
  rw [add_comm, degree_add_eq_right_of_degree_lt, degree_X_pow]
  rw [degree_X_pow]
  exact degree_bits_lt _ _

theorem update_concat (c : Checksum) (data : List (BitVec 8)) (b : BitVec 8) :
    c.update (data ++ [b]) = (c.update data).updateByte b := foldl_concat ..

theorem update_model (data : List (BitVec 8)) : ((start m).update data).model = m := by
  induction data using reverseRecOn with
  | nil => rfl
  | append_singleton data b ih =>
    rw [update_concat, updateByte]
    split <;> exact ih

end

/-- A polynomial modulo the generator. -/
noncomputable def residue (m : ChecksumModel) : (ZMod 2)[X] →+* AdjoinRoot (generator m) := AdjoinRoot.mk (generator m)

theorem residue_eq_iff {p q : (ZMod 2)[X]} : residue m p = residue m q ↔ generator m ∣ p - q := AdjoinRoot.mk_eq_mk

section

variable (hm : m.IsValid)
include hm

/-- **A shift is a multiplication by `X`** modulo the generator. -/
theorem residue_shift (v : BitVec 32) :
    residue m (bits m.width (shift m v)) = residue m (X * bits m.width v) := by
  obtain ⟨hmin, hmax⟩ := hm
  unfold checksumWidthMin at hmin
  -- the leading coefficient goes out of the register
  have hout : X * bits m.width v = bits m.width (v <<< 1) + C (coefficient (v.getLsbD (m.width - 1))) * X ^ m.width := by
    obtain ⟨n, hn⟩ : ∃ n, m.width = n + 1 := ⟨m.width - 1, by omega⟩
    rw [bits_shiftLeft hmax, hn, Nat.add_sub_cancel, bits, Finset.sum_range_succ, ← bits]
    ring
  refine residue_eq_iff.mpr ⟨C (coefficient (v.getLsbD (m.width - 1))), ?_⟩
  rw [hout]
  unfold shift generator
  cases v.getLsbD (m.width - 1) with
  | false => simp [coefficient]
  | true =>
    have htwice : (X : (ZMod 2)[X]) ^ m.width + X ^ m.width = 0 := CharTwo.add_self_eq_zero _
    simp only [if_true, bits_xor, coefficient, map_one, one_mul]
    linear_combination -htwice

theorem residue_shifts (n : ℕ) (v : BitVec 32) :
    residue m (bits m.width ((range n).foldl (fun value _ => shift m value) v))
      = residue m (X ^ n * bits m.width v) := by
  induction n with
  | zero => simp
  | succ n ih => rw [range_succ, foldl_concat, residue_shift hm, map_mul, ih, ← map_mul, pow_succ', mul_assoc]

/-- What a byte does to the register. -/
theorem residue_crcByte (v : BitVec 32) (b : BitVec 8) :
    residue m (bits m.width (crcByte m v b))
      = residue m (X ^ 8 * bits m.width v + X ^ m.width * bytePolynomial m.reflectInput b) := by
  have hmin : 8 ≤ m.width := hm.1
  have hplace : X ^ 8 * X ^ (m.width - 8) = (X : (ZMod 2)[X]) ^ m.width := by
    rw [← pow_add, Nat.add_sub_cancel' hmin]
  unfold crcByte
  rw [bits_mask hm.2, residue_shifts hm, bits_xor, bits_shiftLeft hm.2, Nat.sub_sub_self hmin, bits_input, mul_add,
    ← mul_assoc, hplace]

theorem residue_update (hkind : m.kind = .crc) (data : List (BitVec 8)) :
    residue m (bits m.width ((start m).update data).value)
      = residue m (bits m.width m.initial * X ^ (8 * data.length)
        + messagePolynomial m.reflectInput data * X ^ m.width) := by
  induction data using reverseRecOn with
  | nil => simp [update, start, hkind, bits_mask hm.2, messagePolynomial]
  | append_singleton data b ih =>
    have hmessage : messagePolynomial m.reflectInput (data ++ [b])
        = messagePolynomial m.reflectInput data * X ^ 8 + bytePolynomial m.reflectInput b := foldl_concat ..
    rw [update_concat, updateByte, update_model, hkind]
    dsimp only
    rw [residue_crcByte hm, map_add, map_mul, ih, ← map_mul, ← map_add, hmessage, length_append, length_singleton]
    refine congrArg (residue m) ?_
    ring

/-- **The register is the remainder of the message.** -/
theorem bits_update (hkind : m.kind = .crc) (data : List (BitVec 8)) :
    bits m.width ((start m).update data).value = crcRemainder m data := by
  have hself : bits m.width ((start m).update data).value %ₘ generator m = bits m.width ((start m).update data).value := by
    rw [modByMonic_eq_self_iff (generator_monic m), degree_generator]
    exact degree_bits_lt _ _
  rw [← hself]
  exact modByMonic_eq_of_dvd_sub (generator_monic m) (residue_eq_iff.mp (residue_update hm hkind data))

theorem sum_update (hkind : m.kind = .sum) (data : List (BitVec 8)) :
    ((start m).update data).value.toNat = (data.map BitVec.toNat).sum % 2 ^ m.width := by
  induction data using reverseRecOn with
  | nil => simp [update, start, hkind]
  | append_singleton data b ih =>
    have hdvd : 2 ^ m.width ∣ 2 ^ 32 := pow_dvd_pow 2 hm.2
    have hbyte : (b.setWidth 32).toNat = b.toNat := BitVec.toNat_setWidth_of_le (by decide)
    rw [update_concat, updateByte, update_model, hkind]
    dsimp only
    rw [and_widthMask_toNat hm.2, BitVec.toNat_add, Nat.mod_mod_of_dvd _ hdvd, hbyte, ih, Nat.mod_add_mod]
    simp

end

end Checksum

open Checksum in
/-- **Checksums follow their model**: over any pieces, a sum is that of the bytes modulo the
width; of a CRC each bit is that of the remainder, mirrored where the output is reflected,
with the final xor. -/
theorem checksum_eq (m : ChecksumModel) (hm : m.IsValid) (pieces : List (List (BitVec 8))) :
    match m.kind with
    | .sum => (pieces.foldl update (start m)).finish.toNat = (pieces.flatten.map BitVec.toNat).sum % 2 ^ m.width
    | .crc => ∀ i, coefficient ((pieces.foldl update (start m)).finish.getLsbD i) = if i < m.width then
        (crcRemainder m pieces.flatten).coeff (if m.reflectOutput then m.width - 1 - i else i)
          + coefficient (m.finalXor.getLsbD i)
      else 0 := by
  have hpieces : pieces.foldl update (start m) = (start m).update pieces.flatten := (foldl_flatten ..).symm
  rw [hpieces]
  cases hkind : m.kind with
  | sum =>
    rw [finish, update_model, hkind]
    exact sum_update hm hkind pieces.flatten
  | crc =>
    intro i
    rw [finish, update_model, hkind]
    dsimp only
    rw [and_widthMask_getLsbD hm.2]
    by_cases hi : i < m.width
    · rw [if_pos hi, decide_eq_true hi, Bool.true_and, BitVec.getLsbD_xor, coefficient_xor, ← bits_update hm hkind, coeff_bits]
      split
      · rw [if_pos (by omega), reflect_getLsbD hm.2, decide_eq_true hi, Bool.true_and]
      · rfl
    · rw [if_neg hi, decide_eq_false hi]
      rfl

open Checksum in
/-- The CRC of two pieces. -/
theorem checksum_eq_crc16 : checksumCrc16.IsValid
    ∧ coefficient ((((start checksumCrc16).update [0x31, 0x32]).update [0x33]).finish.getLsbD 5)
      = (crcRemainder checksumCrc16 [0x31, 0x32, 0x33]).coeff 5 + coefficient false :=
  ⟨⟨by decide, by decide⟩, checksum_eq checksumCrc16 ⟨by decide, by decide⟩ [[0x31, 0x32], [0x33]] 5⟩

end CanHub
