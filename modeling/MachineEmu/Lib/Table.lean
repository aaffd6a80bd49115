import Mathlib.Data.List.Nodup
import Mathlib.Tactic.Common

/-!
# Tables with a primary key

A table is a list of rows no two of which have the same key. The statements of a database that
respect the key are its operations, so a table with a duplicate key cannot be built.

* `Table.find?`, `Table.insert`, `Table.modifyAt`, `Table.filter` — select, insert, update and
  delete.
* `Table.find?_modifyAt`, `Table.find?_insert`, `Table.find?_filter` — what a select sees after
  each of them.
-/

namespace Lib

open List

/-- Rows with unique keys, in insertion order. -/
structure Table {α κ : Type} (key : α → κ) where
  rows : List α
  nodup : (rows.map key).Nodup

namespace Table

variable {α κ : Type} {key : α → κ} {t : Table key}

variable {a : α}

theorem key_injective {b : α} (ha : a ∈ t.rows) (hb : b ∈ t.rows) (h : key a = key b) : a = b :=
  inj_on_of_nodup_map t.nodup ha hb h

/-- The table without rows. -/
def empty : Table key := ⟨[], nodup_nil⟩

variable [DecidableEq κ]

/-- The row with a key. -/
def find? (t : Table key) (k : κ) : Option α := t.rows.find? fun a => key a = k

/-- Insert a row with a new key. -/
def insert (t : Table key) (a : α) : Option (Table key) :=
  if h : key a ∈ t.rows.map key then none
  else some ⟨t.rows ++ [a], by
    rw [map_append]
    exact List.Nodup.append t.nodup (nodup_singleton _) (by simpa using h)⟩

/-- Update the row with a key; the update keeps the key. -/
def modifyAt (t : Table key) (k : κ) (f : α → α) (hf : ∀ a, key (f a) = key a) : Table key :=
  ⟨t.rows.map fun a => if key a = k then f a else a, by
    have hkeys : (t.rows.map fun a => if key a = k then f a else a).map key = t.rows.map key := by
      rw [map_map]
      refine map_congr_left fun a _ => ?_
      simp only [Function.comp_apply]
      split
      · exact hf a
      · rfl
    rw [hkeys]
    exact t.nodup⟩

/-- Keep the rows that satisfy `p`. -/
def filter (t : Table key) (p : α → Bool) : Table key :=
  ⟨t.rows.filter p, t.nodup.sublist (filter_sublist.map key)⟩

/-! ## Selecting -/

variable {k : κ}

theorem mem_of_find? (h : t.find? k = some a) : a ∈ t.rows ∧ key a = k := by
  refine ⟨mem_of_find?_eq_some h, ?_⟩
  have hkey := List.find?_some h
  simpa using hkey

theorem find?_eq_some_iff : t.find? k = some a ↔ a ∈ t.rows ∧ key a = k := by
  refine ⟨mem_of_find?, ?_⟩
  rintro ⟨hmem, hkey⟩
  cases h : t.find? k with
  | none =>
    have hnone := List.find?_eq_none.1 h a hmem
    simp [hkey] at hnone
  | some b =>
    obtain ⟨hb, hkb⟩ := mem_of_find? h
    rw [key_injective hb hmem (hkb.trans hkey.symm)]

theorem find?_eq_none_iff : t.find? k = none ↔ ∀ a ∈ t.rows, key a ≠ k := by
  unfold find?
  rw [List.find?_eq_none]
  simp

theorem find?_modifyAt {f : α → α} (hf : ∀ a, key (f a) = key a) (j : κ) :
    (t.modifyAt k f hf).find? j = if j = k then (t.find? k).map f else t.find? j := by
  unfold find? modifyAt
  rw [List.find?_map]
  have hpred : (fun a => decide (key a = j)) ∘ (fun a => if key a = k then f a else a) =
      fun a => decide (key a = j) := by
    funext a
    simp only [Function.comp_apply]
    split
    · rw [hf a]
    · rfl
  rw [hpred]
  by_cases hjk : j = k
  · subst hjk
    rw [if_pos rfl]
    cases h : t.rows.find? fun a => decide (key a = j) with
    | none => rfl
    | some a =>
      have hkey := List.find?_some h
      simp only [decide_eq_true_eq] at hkey
      simp [hkey]
  · rw [if_neg hjk]
    cases h : t.rows.find? fun a => decide (key a = j) with
    | none => rfl
    | some a =>
      have hkey := List.find?_some h
      simp only [decide_eq_true_eq] at hkey
      have hne : ¬ key a = k := fun hk => hjk (hkey.symm.trans hk)
      simp [hne]

theorem insert_eq_some {u : Table key} (h : t.insert a = some u) :
    u.rows = t.rows ++ [a] ∧ t.find? (key a) = none := by
  unfold insert at h
  split at h
  · cases h
  · next hnew =>
    cases h
    refine ⟨rfl, find?_eq_none_iff.2 ?_⟩
    intro b hb hkey
    exact hnew (mem_map.2 ⟨b, hb, hkey⟩)

theorem insert_of_find?_none (h : t.find? (key a) = none) : ∃ u, t.insert a = some u := by
  unfold insert
  have hnew : key a ∉ t.rows.map key := by
    rintro hmem
    obtain ⟨b, hb, hkey⟩ := mem_map.1 hmem
    exact find?_eq_none_iff.1 h b hb hkey
  rw [dif_neg hnew]
  exact ⟨_, rfl⟩

theorem find?_insert {u : Table key} (h : t.insert a = some u) (k : κ) :
    u.find? k = if k = key a then some a else t.find? k := by
  obtain ⟨hrows, hnone⟩ := insert_eq_some h
  unfold find?
  rw [hrows, List.find?_append]
  by_cases hk : k = key a
  · subst hk
    rw [if_pos rfl]
    have hfind : t.rows.find? (fun b => decide (key b = key a)) = none := hnone
    rw [hfind]
    simp
  · rw [if_neg hk]
    have hlast : [a].find? (fun b => decide (key b = k)) = none := by
      simp [Ne.symm hk]
    rw [hlast]
    cases t.rows.find? _ <;> rfl

theorem find?_filter {p : α → Bool} (k : κ) : (t.filter p).find? k = (t.find? k).filter p := by
  cases h : t.find? k with
  | none =>
    rw [Option.filter_none, find?_eq_none_iff]
    intro a ha
    exact find?_eq_none_iff.1 h a (mem_of_mem_filter ha)
  | some a =>
    obtain ⟨hmem, hkey⟩ := mem_of_find? h
    by_cases hp : p a = true
    · rw [Option.filter_some_pos hp, find?_eq_some_iff]
      exact ⟨mem_filter.2 ⟨hmem, hp⟩, hkey⟩
    · rw [Option.filter_some_neg (by simpa using hp), find?_eq_none_iff]
      intro b hb hkb
      obtain ⟨hb, hpb⟩ := mem_filter.1 hb
      rw [key_injective hb hmem (hkb.trans hkey.symm)] at hpb
      exact hp hpb

end Table

end Lib
