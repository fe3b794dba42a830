/-
# Tables with a primary key

A table of a database in the order of its row ids: rows whose keys are all
different. The statements a program runs on it are `insert`, which fails where
the key is taken, `update` of the row with a key, `upsert` (insert, and on a
conflict update) and `delete`. Each is met by what it does to `select`, the row
with a key.
-/
import Mathlib.Data.List.Nodup

namespace CanHub

open List

/-- The rows of a table; no two have the same key. -/
structure Rows {ρ κ : Type*} (key : ρ → κ) where
  rows : List ρ
  unique : (rows.map key).Nodup

namespace Rows

variable {ρ κ : Type*} [DecidableEq κ] {key : ρ → κ} {t : Rows key} {k : κ} {r : ρ} {t' : Rows key}

def empty : Rows key := ⟨[], nodup_nil⟩

def select (t : Rows key) (k : κ) : Option ρ := t.rows.find? fun r => key r = k

/-- A row at the end, unless the key is taken. -/
def insert (t : Rows key) (r : ρ) : Option (Rows key) :=
  if h : key r ∈ t.rows.map key then none
  else some ⟨t.rows ++ [r], by
    rw [map_append]
    exact t.unique.append (nodup_singleton _) (by simpa using h)⟩

/-- A change of the row with the key. -/
def update (t : Rows key) (k : κ) (f : ρ → ρ) (hf : ∀ r, key (f r) = key r) : Rows key where
  rows := t.rows.map fun r => if key r = k then f r else r
  unique := by
    have hkeys : (t.rows.map fun r => if key r = k then f r else r).map key = t.rows.map key := by
      rw [map_map]
      refine map_congr_left fun r _ => ?_
      rw [Function.comp_apply]
      split
      · exact hf r
      · rfl
    rw [hkeys]
    exact t.unique

/-- `INSERT … ON CONFLICT … DO UPDATE`. -/
def upsert (t : Rows key) (r : ρ) (f : ρ → ρ) (hf : ∀ r, key (f r) = key r) : Rows key :=
  (t.insert r).getD (t.update (key r) f hf)

def delete (t : Rows key) (p : ρ → Bool) : Rows key where
  rows := t.rows.filter fun r => !p r
  unique := t.unique.sublist (filter_sublist.map key)

/-! ### What `select` finds -/

theorem mem_of_select (h : t.select k = some r) : r ∈ t.rows ∧ key r = k := by
  unfold select at h
  exact ⟨mem_of_find?_eq_some h, by simpa using find?_some h⟩

omit [DecidableEq κ] in
theorem eq_of_key {q : ρ} (hq : q ∈ t.rows) (hr : r ∈ t.rows) (h : key q = key r) : q = r :=
  inj_on_of_nodup_map t.unique hq hr h

theorem select_eq_some : t.select k = some r ↔ r ∈ t.rows ∧ key r = k := by
  refine ⟨mem_of_select, fun ⟨hr, hk⟩ => ?_⟩
  cases h : t.select k with
  | none =>
    unfold select at h
    rw [find?_eq_none] at h
    exact absurd hk (by simpa using h r hr)
  | some q =>
    obtain ⟨hq, hqk⟩ := mem_of_select h
    rw [t.eq_of_key hq hr (hqk.trans hk.symm)]

/-- Two tables in which the same rows have a key. -/
theorem select_congr (h : ∀ r, key r = k → (r ∈ t'.rows ↔ r ∈ t.rows)) : t'.select k = t.select k := by
  refine Option.ext fun r => ?_
  rw [select_eq_some, select_eq_some]
  constructor
  · rintro ⟨hr, hk⟩
    exact ⟨(h r hk).mp hr, hk⟩
  · rintro ⟨hr, hk⟩
    exact ⟨(h r hk).mpr hr, hk⟩

/-- An insertion goes through exactly where the key is free. -/
theorem insert_eq_none : t.insert r = none ↔ (t.select (key r)).isSome := by
  unfold insert
  constructor
  · intro h
    split at h
    next hmem =>
      obtain ⟨q, hq, hk⟩ := mem_map.mp hmem
      rw [select_eq_some.mpr ⟨hq, hk⟩]
      rfl
    next => cases h
  · intro h
    obtain ⟨q, hq⟩ := Option.isSome_iff_exists.mp h
    obtain ⟨hmem, hk⟩ := mem_of_select hq
    exact dif_pos (mem_map.mpr ⟨q, hmem, hk⟩)

theorem rows_of_insert (h : t.insert r = some t') : t'.rows = t.rows ++ [r] := by
  unfold insert at h
  split at h
  · cases h
  · cases h
    rfl

theorem insert_isSome (h : t.select (key r) = none) : ∃ t', t.insert r = some t' := by
  cases ht : t.insert r with
  | some t' => exact ⟨t', rfl⟩
  | none =>
    rw [insert_eq_none, h] at ht
    cases ht

theorem select_insert_self (h : t.insert r = some t') : t'.select (key r) = some r := by
  rw [select_eq_some, rows_of_insert h]
  exact ⟨mem_append_right _ (mem_singleton_self r), rfl⟩

theorem select_insert_of_ne (h : t.insert r = some t') (hk : k ≠ key r) : t'.select k = t.select k := by
  refine select_congr fun q hq => ?_
  rw [rows_of_insert h, mem_append, mem_singleton]
  refine ⟨fun hmem => hmem.resolve_right ?_, .inl⟩
  rintro rfl
  exact hk hq.symm

section Update

variable {f : ρ → ρ} {hf : ∀ r, key (f r) = key r}

theorem select_update_self : (t.update k f hf).select k = (t.select k).map f := by
  refine Option.ext fun q => ?_
  rw [select_eq_some, Option.map_eq_some_iff]
  constructor
  · rintro ⟨hq, hk⟩
    obtain ⟨r, hr, rfl⟩ := mem_map.mp hq
    by_cases hrk : key r = k
    · rw [if_pos hrk]
      exact ⟨r, select_eq_some.mpr ⟨hr, hrk⟩, rfl⟩
    · rw [if_neg hrk] at hk
      exact absurd hk hrk
  · rintro ⟨r, hr, rfl⟩
    obtain ⟨hmem, hk⟩ := mem_of_select hr
    exact ⟨mem_map.mpr ⟨r, hmem, if_pos hk⟩, (hf r).trans hk⟩

theorem select_update_of_ne {k' : κ} (h : k' ≠ k) : (t.update k f hf).select k' = t.select k' := by
  refine select_congr fun q hq => ?_
  have hne : key q ≠ k := hq ▸ h
  constructor
  · intro hmem
    obtain ⟨r, hr, hrq⟩ := mem_map.mp hmem
    by_cases hrk : key r = k
    · rw [if_pos hrk] at hrq
      exact absurd (((congrArg key hrq).symm.trans (hf r)).trans hrk) hne
    · rw [if_neg hrk] at hrq
      exact hrq ▸ hr
  · intro hmem
    exact mem_map.mpr ⟨q, hmem, if_neg hne⟩

theorem upsert_of_none (h : t.insert r = some t') : t.upsert r f hf = t' := by
  rw [upsert, h]
  rfl

theorem upsert_of_some (h : (t.select (key r)).isSome) : t.upsert r f hf = t.update (key r) f hf := by
  rw [upsert, insert_eq_none.mpr h]
  rfl

/-- After an upsert the key has the new row, or the old one changed. -/
theorem select_upsert_self : (t.upsert r f hf).select (key r) = some (((t.select (key r)).map f).getD r) := by
  cases h : t.select (key r) with
  | none =>
    obtain ⟨t', ht⟩ := insert_isSome h
    rw [upsert_of_none ht]
    exact select_insert_self ht
  | some q =>
    rw [upsert_of_some (by rw [h]; rfl), select_update_self, h]
    rfl

theorem select_upsert_of_ne (hk : k ≠ key r) : (t.upsert r f hf).select k = t.select k := by
  cases h : t.select (key r) with
  | none =>
    obtain ⟨t', ht⟩ := insert_isSome h
    rw [upsert_of_none ht]
    exact select_insert_of_ne ht hk
  | some q =>
    rw [upsert_of_some (by rw [h]; rfl)]
    exact select_update_of_ne hk

end Update

omit [DecidableEq κ] in
theorem mem_delete {p : ρ → Bool} {q : ρ} : q ∈ (t.delete p).rows ↔ q ∈ t.rows ∧ p q = false := by
  simp [delete]

/-- A deletion that spares the rows with a key. -/
theorem select_delete_of_spared {p : ρ → Bool} (h : ∀ r, key r = k → p r = false) : (t.delete p).select k = t.select k :=
  select_congr fun r hr => by rw [mem_delete, h r hr]; simp

end Rows
end CanHub
