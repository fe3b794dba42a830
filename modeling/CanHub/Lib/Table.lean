/-
# Fixed tables

An array of `n` slots searched from the front: `find?` is the loop
`for(i=0; i<n; i++) if (p(slots[i])) return &slots[i]`, a pointer into the array
is the slot's index, and `count` is the loop that counts. Slots are changed by
`Function.update`.

`first?Round` is one round of a loop that keeps the slot that goes first among
those with the property: it ends with a slot none of them goes before
(`foldl_first?Round`). `least?` is such a loop, for the smallest key
(`least?_some`).

What proofs need of a search is whether a slot has the property (`find?_some`,
`exists_of_find?`), that it fails only when none has (`find?_eq_none`), that it
is the only one there is (`find?_unique`), and what a change of one slot does to
a count (`count_update`).
-/
import Mathlib.Data.List.FinRange

namespace CanHub

open List

/-- `n` slots of one type. -/
abbrev Table (n : ℕ) (α : Type*) := Fin n → α

namespace Table

variable {n : ℕ} {α β : Type*} {t : Table n α} {p : α → Bool} {i : Fin n}

/-- The first slot with the property. -/
@[irreducible] def find? (t : Table n α) (p : α → Bool) : Option (Fin n) := (finRange n).find? fun i => p (t i)

/-- How many slots have the property. -/
def count (t : Table n α) (p : α → Bool) : ℕ := (finRange n).countP fun i => p (t i)

theorem find?_some (h : t.find? p = some i) : p (t i) := by
  unfold find? at h
  have := List.find?_some h
  exact this

theorem find?_eq_none : t.find? p = none ↔ ∀ i, p (t i) = false := by
  simp [find?]

theorem exists_of_find? (h : p (t i)) : ∃ j, t.find? p = some j := by
  cases hf : t.find? p with
  | some j => exact ⟨j, rfl⟩
  | none => simp [find?_eq_none.mp hf i] at h

/-- The search returns the one slot there is to find. -/
theorem find?_unique (hi : p (t i)) (hu : ∀ j, p (t j) → j = i) : t.find? p = some i := by
  obtain ⟨j, hj⟩ := exists_of_find? hi
  rw [hj, hu j (find?_some hj)]

/-- The search returns the first slot there is to find. -/
theorem find?_first (hi : p (t i)) (hfirst : ∀ j, j < i → p (t j) = false) : t.find? p = some i := by
  unfold find?
  rw [find?_eq_some_iff_getElem]
  refine ⟨hi, i.val, by simp, by simp, fun j hj => ?_⟩
  simpa using hfirst ⟨j, hj.trans i.isLt⟩ hj

theorem find?_isSome_iff : (t.find? p).isSome ↔ ∃ i, p (t i) := by
  constructor
  · intro h
    obtain ⟨i, hi⟩ := Option.isSome_iff_exists.mp h
    exact ⟨i, find?_some hi⟩
  · rintro ⟨i, hi⟩
    obtain ⟨j, hj⟩ := exists_of_find? hi
    simp [hj]

/-- Two tables whose slots answer alike are searched alike. -/
theorem find?_congr {u : Table n β} {q : β → Bool} (h : ∀ i, p (t i) = q (u i)) : t.find? p = u.find? q := by
  simp only [find?, h]

/-- Slots no two of which are related, one of which changes to be related to none. -/
theorem unrelated_of_ne {R : α → α → Prop} {t' : Table n α} (hsymm : ∀ a b, R a b → R b a)
    (hother : ∀ j, j ≠ i → t' j = t j) (hold : ∀ j k, p (t j) → p (t k) → R (t j) (t k) → j = k)
    (hnew : p (t' i) → ∀ j, j ≠ i → p (t j) → ¬R (t j) (t' i)) (j k : Fin n) (hj : p (t' j)) (hk : p (t' k))
    (hR : R (t' j) (t' k)) : j = k := by
  by_cases hji : j = i
  · by_cases hki : k = i
    · rw [hji, hki]
    · rw [hji] at hj hR
      rw [hother k hki] at hk hR
      exact absurd (hsymm _ _ hR) (hnew hj k hki hk)
  · rw [hother j hji] at hj hR
    by_cases hki : k = i
    · rw [hki] at hk hR
      exact absurd hR (hnew hk j hji hj)
    · rw [hother k hki] at hk hR
      exact hold j k hj hk hR

theorem count_congr {u : Table n β} {q : β → Bool} (h : ∀ i, p (t i) = q (u i)) : t.count p = u.count q := by
  simp only [count, h]

theorem count_le (t : Table n α) (p : α → Bool) : t.count p ≤ n := by
  calc t.count p ≤ (finRange n).length := countP_le_length
    _ = n := length_finRange

theorem count_eq : t.count p = n ↔ ∀ i, p (t i) := by
  have hlength := countP_eq_length (l := finRange n) (p := fun i => p (t i))
  rw [length_finRange] at hlength
  rw [count, hlength]
  exact ⟨fun h i => h i (mem_finRange i), fun h i _ => h i⟩

theorem count_pos_iff : 0 < t.count p ↔ ∃ i, p (t i) := by
  simp [count, countP_pos_iff]

/-- Counting over a list without repetitions, one of whose slots changes. -/
private theorem countP_update (t : Table n α) (p : α → Bool) (i : Fin n) (a : α) :
    ∀ l : List (Fin n), l.Nodup →
      l.countP (fun j => p (Function.update t i a j)) + (if i ∈ l then (p (t i)).toNat else 0)
        = l.countP (fun j => p (t j)) + (if i ∈ l then (p a).toNat else 0)
  | [], _ => rfl
  | j :: l, h => by
    have ih := countP_update t p i a l (nodup_cons.mp h).2
    rw [countP_cons, countP_cons]
    by_cases hj : j = i
    · subst hj
      have hout : j ∉ l := (nodup_cons.mp h).1
      simp only [hout, if_false, Nat.add_zero] at ih
      simp only [Function.update_self, mem_cons_self, if_true, ih]
      cases p a <;> cases p (t j) <;> simp
    · have hm : i ∈ j :: l ↔ i ∈ l := by simp [Ne.symm hj]
      simp only [Function.update_of_ne hj, hm]
      omega

/-- A count after one slot has changed. -/
theorem count_update (t : Table n α) (p : α → Bool) (i : Fin n) (a : α) :
    Table.count (Function.update t i a) p + (p (t i)).toNat = t.count p + (p a).toNat := by
  have h := countP_update t p i a (finRange n) (nodup_finRange n)
  simp only [mem_finRange, if_true] at h
  exact h

/-! ### The slot that goes first -/

/-- One round of a search: the slot takes the place of the one found if it goes before it. -/
def first?Round (t : Table n α) (p : α → Bool) (before : α → α → Bool) (best : Option (Fin n)) (i : Fin n) :
    Option (Fin n) :=
  if !p (t i) then best
  else
    match best with
    | none => some i
    | some b => if before (t i) (t b) then some i else some b

section

variable (before : α → α → Bool) (hirrefl : ∀ a, before a a = false) (best : Option (Fin n))
  (hbest : ∀ b, best = some b → p (t b))
include hirrefl hbest

/-- A round ends with a slot that has the property, is the one found so far or goes before it, and that its slot does
not go before. -/
theorem first?Round_spec (i : Fin n) :
    (∀ r, first?Round t p before best i = some r → p (t r)) ∧
      (∀ b, best = some b → ∃ r, first?Round t p before best i = some r ∧ (r = b ∨ before (t r) (t b))) ∧
      (p (t i) → ∃ r, first?Round t p before best i = some r ∧ before (t i) (t r) = false) := by
  unfold first?Round
  by_cases hp : p (t i)
  · simp only [hp, Bool.not_true, Bool.false_eq_true, if_false, true_implies]
    cases best with
    | none => exact ⟨fun r hr => Option.some.inj hr ▸ hp, nofun, i, rfl, hirrefl _⟩
    | some b =>
      by_cases hlt : before (t i) (t b)
      · simp only [hlt, if_true]
        exact ⟨fun r hr => Option.some.inj hr ▸ hp, fun b' hb' => ⟨i, rfl, .inr (Option.some.inj hb' ▸ hlt)⟩, i, rfl,
          hirrefl _⟩
      · simp only [hlt]
        exact ⟨hbest, fun b' hb' => ⟨b, rfl, .inl (Option.some.inj hb')⟩, b, rfl, by simpa using hlt⟩
  · simp only [hp, Bool.not_false, if_true]
    exact ⟨hbest, fun b hb => ⟨b, hb, .inl rfl⟩, nofun⟩

/-- The loop over any slots, from any slot found. -/
theorem foldl_first?Round (htrans : ∀ a b c, before a b → before b c → before a c) (slots : List (Fin n)) :
    (∀ r, slots.foldl (first?Round t p before) best = some r → p (t r)) ∧
      (∀ b, best = some b → ∃ r, slots.foldl (first?Round t p before) best = some r ∧ (r = b ∨ before (t r) (t b))) ∧
      ∀ i ∈ slots, p (t i) → ∃ r, slots.foldl (first?Round t p before) best = some r ∧ before (t i) (t r) = false := by
  induction slots generalizing best with
  | nil => exact ⟨hbest, fun b hb => ⟨b, hb, .inl rfl⟩, nofun⟩
  | cons k slots ih =>
    obtain ⟨hprop, hold, hnew⟩ := first?Round_spec before hirrefl best hbest k
    obtain ⟨hprop', hold', hnew'⟩ := ih _ hprop
    refine ⟨hprop', fun b hb => ?_, fun i hi hp => ?_⟩
    · obtain ⟨r, hr, hrb⟩ := hold b hb
      obtain ⟨r', hr', hlt⟩ := hold' r hr
      refine ⟨r', hr', ?_⟩
      rcases hlt with rfl | hlt
      · exact hrb
      · rcases hrb with rfl | hrb
        · exact .inr hlt
        · exact .inr (htrans _ _ _ hlt hrb)
    · rcases mem_cons.mp hi with rfl | hi
      · obtain ⟨r, hr, hnot⟩ := hnew hp
        obtain ⟨r', hr', hlt⟩ := hold' r hr
        refine ⟨r', hr', ?_⟩
        rcases hlt with rfl | hlt
        · exact hnot
        · -- else the slot would go before the one its round ended with
          by_contra hi'
          rw [htrans _ _ _ (by simpa using hi') hlt] at hnot
          cases hnot
      · exact hnew' i hi hp

end

/-! ### The slot with the least key -/

/-- One round of the search for the least key. -/
def least?Round (t : Table n α) (p : α → Bool) (key : α → ℕ) (oldest : Option (Fin n)) (i : Fin n) : Option (Fin n) :=
  if !p (t i) then oldest
  else
    match oldest with
    | none => some i
    | some o => if key (t i) < key (t o) then some i else some o

/-- The slot with the property and the least key, the first of those with equal keys. -/
@[irreducible] def least? (t : Table n α) (p : α → Bool) (key : α → ℕ) : Option (Fin n) :=
  (finRange n).foldl (least?Round t p key) none

variable {key : α → ℕ}

theorem least?_first : (∀ r, t.least? p key = some r → p (t r)) ∧
    ∀ i, p (t i) → ∃ r, t.least? p key = some r ∧ key (t r) ≤ key (t i) := by
  have hround : least?Round t p key = first?Round t p fun a b => key a < key b := by
    funext oldest i
    cases oldest <;> simp [least?Round, first?Round]
  unfold least?
  rw [hround]
  obtain ⟨hprop, -, hfirst⟩ := foldl_first?Round (t := t) (p := p) (fun a b => key a < key b) (by simp) none nofun
    (fun a b c hab hbc => by simpa using (of_decide_eq_true hab).trans (of_decide_eq_true hbc)) (finRange n)
  refine ⟨hprop, fun i hi => ?_⟩
  obtain ⟨r, hr, hnot⟩ := hfirst i (mem_finRange i) hi
  exact ⟨r, hr, by simpa using hnot⟩

theorem least?_some (h : t.least? p key = some i) : p (t i) ∧ ∀ j, p (t j) → key (t i) ≤ key (t j) := by
  refine ⟨least?_first.1 i h, fun j hj => ?_⟩
  obtain ⟨r, hr, hle⟩ := least?_first.2 j hj
  obtain rfl : r = i := Option.some.inj (hr.symm.trans h)
  exact hle

/-- The search returns the one slot with the least key. -/
theorem least?_unique (hi : p (t i)) (hu : ∀ j, p (t j) → key (t j) ≤ key (t i) → j = i) :
    t.least? p key = some i := by
  obtain ⟨j, hj, -⟩ := least?_first.2 i hi
  obtain ⟨hp, hleast⟩ := least?_some hj
  rw [hj, hu j hp (hleast i hi)]

end Table
end CanHub
