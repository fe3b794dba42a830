/-
# A flat memory and its slices

Memory is a function from addresses to cells; a slice is the list of the cells
from an address on, and storing a list overwrites as many cells. The lemmas say
what a store does to the slices inside and outside of it, which is all a
structure laid out in one buffer needs to know about its memory. `storeAround` is
the store of a ring.
-/
import Mathlib.Data.List.Range

namespace CanHub
namespace Memory

variable {α : Type}

section

variable (m : ℕ → α)

/-- The `n` cells from `off` on. -/
def slice (off n : ℕ) : List α := (List.range n).map fun i => m (off + i)

/-- Overwrite the cells from `off` on with a list. -/
def store (off : ℕ) (b : List α) : ℕ → α := fun i =>
  if i < off then m i else b.getD (i - off) (m i)

@[simp] theorem length_slice (off n : ℕ) : (slice m off n).length = n := by simp [slice]

@[simp] theorem slice_zero (off : ℕ) : slice m off 0 = [] := rfl

theorem slice_add (off n k : ℕ) : slice m off (n + k) = slice m off n ++ slice m (off + n) k := by
  simp [slice, List.range_add, Function.comp_def, Nat.add_assoc]

theorem slice_congr {m m' : ℕ → α} {off n : ℕ} (h : ∀ i < n, m (off + i) = m' (off + i)) :
    slice m off n = slice m' off n := by
  apply List.map_congr_left
  intro i hi
  exact h i (List.mem_range.mp hi)

/-- A store reads back. -/
theorem slice_store_self (off : ℕ) (b : List α) : slice (store m off b) off b.length = b := by
  apply List.ext_getElem
  · simp
  · intro i h₁ h₂
    simp [slice, store, h₂]

/-- A store leaves the slices beside it as they were. -/
theorem slice_store_of_disjoint {off x n : ℕ} {b : List α}
    (h : x + n ≤ off ∨ off + b.length ≤ x) : slice (store m off b) x n = slice m x n := by
  apply slice_congr
  intro i hi
  unfold store
  rcases h with h | h
  · rw [if_pos (by omega)]
  · rw [if_neg (by omega), List.getD_eq_getElem?_getD, List.getElem?_eq_none (by omega)]
    rfl

/-- Storing right behind a slice extends it. -/
theorem slice_store_append (x n : ℕ) (b : List α) :
    slice (store m (x + n) b) x (n + b.length) = slice m x n ++ b := by
  rw [slice_add, slice_store_self, slice_store_of_disjoint m (Or.inl le_rfl)]

end

/-! ### Rings -/

/-- Overwrite the cells of a ring from `off` on: what does not fit at the end goes to the start. -/
def storeAround (m : ℕ → α) (capacity off : ℕ) (b : List α) : ℕ → α :=
  if b.length ≤ capacity - off then store m off b
  else store (store m off (b.take (capacity - off))) 0 (b.drop (capacity - off))

/-- A cell gets what is as far into the data as the cell is behind the first one. -/
theorem storeAround_apply (m : ℕ → α) {capacity off i : ℕ} {b : List α} (hoff : off < capacity) (hb : b.length ≤ capacity)
    (hi : i < capacity) :
    storeAround m capacity off b i = b.getD (if off ≤ i then i - off else i + capacity - off) (m i) := by
  unfold storeAround
  by_cases hle : off ≤ i
  · rw [if_pos hle]
    split
    · exact if_neg (Nat.not_lt.mpr hle)
    · simp only [store, Nat.not_lt.mpr hle, Nat.not_lt_zero, if_false, Nat.sub_zero, List.getD_eq_getElem?_getD,
        List.getElem?_drop, List.getElem?_take_of_lt (show i - off < capacity - off by omega)]
      rw [List.getElem?_eq_none (show b.length ≤ capacity - off + i by omega)]
      rfl
  · rw [if_neg hle]
    split
    · rw [List.getD_eq_getElem?_getD, List.getElem?_eq_none (by omega)]
      exact if_pos (Nat.lt_of_not_le hle)
    · simp only [store, Nat.lt_of_not_le hle, Nat.not_lt_zero, if_true, if_false, Nat.sub_zero, List.getD_eq_getElem?_getD,
        List.getElem?_drop]
      rw [show capacity - off + i = i + capacity - off by omega]

/-- How far one position of a stream is behind another, from their cells. -/
theorem mod_distance {capacity n k : ℕ} (h : n ≤ k) (hk : k < n + capacity) :
    (if n % capacity ≤ k % capacity then k % capacity - n % capacity else k % capacity + capacity - n % capacity)
      = k - n := by
  obtain ⟨j, rfl⟩ := Nat.exists_eq_add_of_le h
  have hn := Nat.mod_lt n (show 0 < capacity by omega)
  have hj : j < capacity := by omega
  rw [← Nat.mod_add_mod]
  generalize n % capacity = a at hn
  by_cases hlt : a + j < capacity
  · rw [Nat.mod_eq_of_lt hlt, if_pos (by omega)]
    omega
  · rw [Nat.mod_eq_sub_mod (Nat.le_of_not_lt hlt), Nat.mod_eq_of_lt (by omega), if_neg (by omega)]
    omega

end Memory
end CanHub
