/-
# A list cut into pieces

`chunks k l` is `l` in pieces of `k` elements, the last one as long as what is
left. A loop that takes `k` elements at a time takes the pieces in order
(`chunks_of_ne_nil`).
-/
import Mathlib.Data.List.Basic

namespace CanHub
namespace Chunks

variable {α : Type*} {k : ℕ}

/-- At most so many pieces of `k` elements. -/
def upTo (k : ℕ) : ℕ → List α → List (List α)
  | 0, _ => []
  | n + 1, l => if l.isEmpty then [] else l.take k :: upTo k n (l.drop k)

/-- The list in pieces of `k` elements. -/
def chunks (k : ℕ) (l : List α) : List (List α) := upTo k l.length l

private theorem drop_length_lt (hk : 0 < k) {l : List α} (h : l ≠ []) : (l.drop k).length < l.length := by
  have := List.length_pos_iff.mpr h
  rw [List.length_drop]
  omega

/-- Pieces enough for the list are all of its pieces. -/
private theorem upTo_enough (hk : 0 < k) : ∀ (n : ℕ) (l : List α), l.length ≤ n → upTo k n l = chunks k l
  | 0, l, h => by
    rw [List.length_eq_zero_iff.mp (Nat.le_zero.mp h)]
    rfl
  | n + 1, l, h => by
    by_cases hl : l = []
    · subst hl
      rfl
    · obtain ⟨m, hm⟩ : ∃ m, l.length = m + 1 := Nat.exists_eq_add_one.mpr (List.length_pos_iff.mpr hl)
      have hlt := drop_length_lt hk hl
      unfold chunks
      rw [hm]
      simp only [upTo, List.isEmpty_iff, hl, if_false]
      rw [upTo_enough hk n _ (by omega), upTo_enough hk m _ (by omega)]
  termination_by n => n

theorem chunks_of_ne_nil (hk : 0 < k) {l : List α} (h : l ≠ []) :
    chunks k l = l.take k :: chunks k (l.drop k) := by
  obtain ⟨m, hm⟩ : ∃ m, l.length = m + 1 := Nat.exists_eq_add_one.mpr (List.length_pos_iff.mpr h)
  have hlt := drop_length_lt hk h
  rw [← upTo_enough hk m (l.drop k) (by omega)]
  unfold chunks
  rw [hm]
  simp only [upTo, List.isEmpty_iff, h, if_false]

end Chunks
end CanHub
