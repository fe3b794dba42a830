/-
# The byte order of the wire

Every multi-byte field of the protocol is little endian. `Wire_WriteU16/32/64`
write a word as a list of bytes, `Wire_ReadU16/32/64` read one back from the
front of a list; a wider word is two halves, the low half first. What the
codecs need of them is one fact each: reading what was written gives the word
back, whatever follows it.
-/
import Mathlib.Data.Nat.Bitwise

namespace CanHub
namespace Wire

/-- The byte at an offset of a buffer; the codecs only read inside it. -/
def byteAt (b : List UInt8) (i : ℕ) : UInt8 := b.getD i 0

theorem byteAt_append {a : List UInt8} {n : ℕ} (h : a.length = n) (t : List UInt8) (k : ℕ) :
    byteAt (a ++ t) (n + k) = byteAt t k := by
  subst h
  simp [byteAt, List.getElem?_append_right]

theorem drop_append {a : List UInt8} {n : ℕ} (h : a.length = n) (t : List UInt8) (k : ℕ) :
    (a ++ t).drop (n + k) = t.drop k := by
  subst h
  exact List.drop_length_add_append k

theorem byteAt_drop (b : List UInt8) (k i : ℕ) : byteAt (b.drop k) i = byteAt b (k + i) := by
  simp [byteAt, List.getElem?_drop]

/-- Bytes before the cut are those of the list that was cut. -/
theorem byteAt_take_append {r : List UInt8} {n i : ℕ} (hn : n ≤ r.length) (hi : i < n) (t : List UInt8) :
    byteAt (r.take n ++ t) i = byteAt r i := by
  unfold byteAt
  rw [List.getD_append _ _ _ _ (by simp; omega)]
  simp [hi]

def writeU16 (v : UInt16) : List UInt8 := [v.toUInt8, (v >>> 8).toUInt8]

def writeU32 (v : UInt32) : List UInt8 := writeU16 v.toUInt16 ++ writeU16 (v >>> 16).toUInt16

def writeU64 (v : UInt64) : List UInt8 := writeU32 v.toUInt32 ++ writeU32 (v >>> 32).toUInt32

def readU16 (b : List UInt8) : UInt16 := (byteAt b 0).toUInt16 ||| (byteAt b 1).toUInt16 <<< 8

def readU32 (b : List UInt8) : UInt32 :=
  (readU16 b).toUInt32 ||| (readU16 (b.drop 2)).toUInt32 <<< 16

def readU64 (b : List UInt8) : UInt64 :=
  (readU32 b).toUInt64 ||| (readU32 (b.drop 4)).toUInt64 <<< 32

@[simp] theorem length_writeU16 (v : UInt16) : (writeU16 v).length = 2 := rfl
@[simp] theorem length_writeU32 (v : UInt32) : (writeU32 v).length = 4 := rfl
@[simp] theorem length_writeU64 (v : UInt64) : (writeU64 v).length = 8 := rfl

@[simp] theorem drop_writeU16 (v : UInt16) (n : ℕ) : (writeU16 v).drop (n + 2) = [] := by simp [writeU16]
@[simp] theorem drop_writeU32 (v : UInt32) (n : ℕ) : (writeU32 v).drop (n + 4) = [] := by
  simp [writeU32, writeU16]
@[simp] theorem drop_writeU64 (v : UInt64) (n : ℕ) : (writeU64 v).drop (n + 8) = [] := by
  simp [writeU64, writeU32, writeU16]

/-- A word is its low half and its high half moved up. -/
theorem halves (v w : ℕ) (hv : v < 2 ^ (2 * w)) :
    v % 2 ^ w ||| (v >>> w % 2 ^ w) <<< w % 2 ^ (2 * w) = v := by
  have hhi : v >>> w < 2 ^ w := by
    rw [Nat.shiftRight_eq_div_pow, Nat.div_lt_iff_lt_mul (Nat.two_pow_pos w)]
    calc v < 2 ^ (2 * w) := hv
      _ = 2 ^ w * 2 ^ w := by rw [← pow_add]; congr 1; omega
  have hlo : v % 2 ^ w < 2 ^ w := Nat.mod_lt _ (Nat.two_pow_pos w)
  have hsum : (v >>> w) <<< w + v % 2 ^ w = v := by
    rw [Nat.shiftRight_eq_div_pow, Nat.shiftLeft_eq]
    exact Nat.div_add_mod' v (2 ^ w)
  have hle : (v >>> w) <<< w < 2 ^ (2 * w) := by omega
  rw [Nat.mod_eq_of_lt hhi, Nat.mod_eq_of_lt hle, Nat.or_comm,
    ← Nat.shiftLeft_add_eq_or_of_lt hlo, hsum]

@[simp] theorem readU16_write (v : UInt16) (r : List UInt8) : readU16 (writeU16 v ++ r) = v := by
  have h := halves v.toNat 8 v.toNat_lt
  apply UInt16.toNat_inj.mp
  simpa [readU16, writeU16, byteAt] using h

@[simp] theorem readU32_write (v : UInt32) (r : List UInt8) : readU32 (writeU32 v ++ r) = v := by
  have h := halves v.toNat 16 v.toNat_lt
  apply UInt32.toNat_inj.mp
  have hd : (writeU32 v ++ r).drop 2 = writeU16 (v >>> 16).toUInt16 ++ r := rfl
  have ha : writeU32 v ++ r = writeU16 v.toUInt16 ++ (writeU16 (v >>> 16).toUInt16 ++ r) := rfl
  rw [readU32, hd, readU16_write, ha, readU16_write]
  simpa using h

@[simp] theorem readU64_write (v : UInt64) (r : List UInt8) : readU64 (writeU64 v ++ r) = v := by
  have h := halves v.toNat 32 v.toNat_lt
  apply UInt64.toNat_inj.mp
  have hd : (writeU64 v ++ r).drop 4 = writeU32 (v >>> 32).toUInt32 ++ r := rfl
  have ha : writeU64 v ++ r = writeU32 v.toUInt32 ++ (writeU32 (v >>> 32).toUInt32 ++ r) := rfl
  rw [readU64, hd, readU32_write, ha, readU32_write]
  simpa using h

/-- The high half of a word put together from its halves. -/
theorem high_half {x y w : ℕ} (hx : x < 2 ^ w) (hy : y < 2 ^ w) : (x ||| y <<< w % 2 ^ (2 * w)) >>> w % 2 ^ w = y := by
  have hle : y <<< w < 2 ^ (2 * w) := by
    rw [Nat.shiftLeft_eq, Nat.two_mul, pow_add]
    exact Nat.mul_lt_mul_of_pos_right hy (Nat.two_pow_pos w)
  rw [Nat.mod_eq_of_lt hle, Nat.or_comm, ← Nat.shiftLeft_add_eq_or_of_lt hx, Nat.shiftLeft_eq, Nat.shiftRight_eq_div_pow,
    Nat.add_comm, Nat.add_mul_div_right _ _ (Nat.two_pow_pos w), Nat.div_eq_of_lt hx, Nat.zero_add, Nat.mod_eq_of_lt hy]

variable {b : List UInt8}

theorem take_four (h : 4 ≤ b.length) : [byteAt b 0, byteAt b 1, byteAt b 2, byteAt b 3] = b.take 4 := by
  match b, h with
  | _ :: _ :: _ :: _ :: _, _ => rfl

theorem writeU16_read (h : 2 ≤ b.length) : writeU16 (readU16 b) = b.take 2 := by
  match b, h with
  | x :: y :: t, _ =>
    have hlow : (readU16 (x :: y :: t)).toUInt8 = x := by
      apply UInt8.toNat_inj.mp
      simp [readU16, byteAt, Nat.shiftLeft_eq]
    have hhigh : (readU16 (x :: y :: t) >>> 8).toUInt8 = y := by
      apply UInt8.toNat_inj.mp
      simpa [readU16, byteAt] using high_half (w := 8) x.toNat_lt y.toNat_lt
    rw [writeU16, hlow, hhigh]
    rfl

theorem writeU32_read (h : 4 ≤ b.length) : writeU32 (readU32 b) = b.take 4 := by
  have hlow : (readU32 b).toUInt16 = readU16 b := by
    apply UInt16.toNat_inj.mp
    simp [readU32, Nat.shiftLeft_eq]
  have hhigh : (readU32 b >>> 16).toUInt16 = readU16 (b.drop 2) := by
    apply UInt16.toNat_inj.mp
    simpa [readU32] using high_half (w := 16) (readU16 b).toNat_lt (readU16 (b.drop 2)).toNat_lt
  rw [writeU32, hlow, hhigh, writeU16_read (by omega), writeU16_read (by rw [List.length_drop]; omega)]
  exact (List.take_add (l := b) (i := 2) (j := 2)).symm

theorem writeU64_read (h : 8 ≤ b.length) : writeU64 (readU64 b) = b.take 8 := by
  have hlow : (readU64 b).toUInt32 = readU32 b := by
    apply UInt32.toNat_inj.mp
    simp [readU64, Nat.shiftLeft_eq]
  have hhigh : (readU64 b >>> 32).toUInt32 = readU32 (b.drop 4) := by
    apply UInt32.toNat_inj.mp
    simpa [readU64] using high_half (w := 32) (readU32 b).toNat_lt (readU32 (b.drop 4)).toNat_lt
  rw [writeU64, hlow, hhigh, writeU32_read (by omega), writeU32_read (by rw [List.length_drop]; omega)]
  exact (List.take_add (l := b) (i := 4) (j := 4)).symm

/-- A word read inside the cut is the word of the list that was cut. -/
theorem readU32_take_append {r : List UInt8} {n k : ℕ} (hn : n ≤ r.length) (hk : k + 4 ≤ n) (t : List UInt8) :
    readU32 ((r.take n ++ t).drop k) = readU32 (r.drop k) := by
  simp only [readU32, readU16, List.drop_drop, byteAt_drop]
  rw [byteAt_take_append hn (by omega), byteAt_take_append hn (by omega),
    byteAt_take_append hn (by omega), byteAt_take_append hn (by omega)]

theorem readU64_take_append {r : List UInt8} {n k : ℕ} (hn : n ≤ r.length) (hk : k + 8 ≤ n) (t : List UInt8) :
    readU64 ((r.take n ++ t).drop k) = readU64 (r.drop k) := by
  simp only [readU64, List.drop_drop]
  rw [readU32_take_append hn (by omega), readU32_take_append hn (by omega)]

end Wire
end CanHub
