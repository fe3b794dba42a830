/-
# Records cut from a stream

A stream arrives in pieces and is collected in a buffer; whenever the buffer has a
whole record at its front, the record is taken out. A `Splitter` says how the first
record is taken, which what follows in the stream does not change; `Cuts` are the
records of a buffer, one after the other.
-/
import Mathlib.Data.List.Basic

namespace CanHub

/-- How a record is taken from the front of a buffer, whatever follows. -/
structure Splitter (α β : Type) where
  next : List α → Option (β × List α)
  next_append : ∀ {b r b'}, next b = some (r, b') → ∀ t, next (b ++ t) = some (r, b' ++ t)

namespace Splitter

variable {α β : Type} (S : Splitter α β)

/-- The records of a buffer, one after the other, and what is left in the end. -/
inductive Cuts : List α → List β → List α → Prop
  | done {b : List α} (h : S.next b = none) : Cuts b [] b
  | more {b b' e : List α} {r : β} {rs : List β} (h : S.next b = some (r, b')) (hrest : Cuts b' rs e) :
      Cuts b (r :: rs) e

variable {S}

theorem Cuts.of_next {b b' e : List α} {r : β} {rs : List β} (h : S.Cuts b rs e) (hnext : S.next b = some (r, b')) :
    ∃ rs', rs = r :: rs' ∧ S.Cuts b' rs' e := by
  cases h with
  | done hnone => exact absurd (hnone.symm.trans hnext) (by simp)
  | more hmore hrest =>
    obtain ⟨rfl, rfl⟩ : _ ∧ _ := by simpa [hnext] using hmore
    exact ⟨_, rfl, hrest⟩

theorem Cuts.of_none {b e : List α} {rs : List β} (h : S.Cuts b rs e) (hnone : S.next b = none) :
    rs = [] ∧ e = b := by
  cases h with
  | done => exact ⟨rfl, rfl⟩
  | more hnext => exact absurd (hnone.symm.trans hnext) (by simp)

end Splitter
end CanHub
