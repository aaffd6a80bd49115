import Mathlib.Algebra.GroupWithZero.Nat
import Mathlib.Data.List.Nodup
import Mathlib.Data.String.Basic
import Mathlib.Tactic.Common

/-!
# Maps sorted by key

A map is the list of its bindings in the order of their keys, so that two maps with the same
bindings are equal and an iteration is in key order.

* `SortedMap.get?`, `SortedMap.insert` — look up and bind a key.
* `SortedMap.get?_insert` — what a look-up sees after a binding.
* `SortedMap.ext_get?` — a map is what its look-ups see.
* `SortedMap.erase`, `SortedMap.filter` — remove a key, or the values that fail a test.
* `SortedMap.total`, `total_insert`, `total_erase` — the sum of a quantity over the values.
-/

namespace Lib

open List

/-- Bindings with strictly increasing keys. -/
structure SortedMap (κ α : Type) [LinearOrder κ] where
  entries : List (κ × α)
  sorted : entries.Pairwise fun a b => a.1 < b.1

namespace SortedMap

variable {κ α : Type} [LinearOrder κ] {m : SortedMap κ α}

theorem ext_entries {n : SortedMap κ α} (h : m.entries = n.entries) : m = n := by
  cases m
  cases n
  cases h
  rfl

instance [DecidableEq α] : DecidableEq (SortedMap κ α) := fun m n =>
  decidable_of_iff (m.entries = n.entries) ⟨ext_entries, congrArg entries⟩

/-- The map without bindings. -/
def empty : SortedMap κ α := ⟨[], List.Pairwise.nil⟩

/-- The value bound to a key. -/
def get? (m : SortedMap κ α) (k : κ) : Option α :=
  (m.entries.find? fun e => e.1 = k).map Prod.snd

/-- Bind a key in a sorted list. -/
def insertInto (k : κ) (v : α) : List (κ × α) → List (κ × α)
  | [] => [(k, v)]
  | e :: es =>
    if k < e.1 then (k, v) :: e :: es
    else if e.1 < k then e :: insertInto k v es
    else (k, v) :: es

variable {es : List (κ × α)} {k : κ} {v : α}

theorem mem_insertInto {e : κ × α} (h : e ∈ insertInto k v es) : e = (k, v) ∨ e ∈ es := by
  induction es with
  | nil => exact .inl (mem_singleton.1 h)
  | cons f es ih =>
    unfold insertInto at h
    split at h
    · exact mem_cons.1 h
    · split at h
      · rcases mem_cons.1 h with rfl | h
        · exact .inr mem_cons_self
        · exact (ih h).imp id (mem_cons_of_mem f)
      · exact (mem_cons.1 h).imp id (mem_cons_of_mem f)

theorem pairwise_insertInto (h : es.Pairwise fun a b => a.1 < b.1) :
    (insertInto k v es).Pairwise fun a b => a.1 < b.1 := by
  induction es with
  | nil => exact pairwise_singleton _ _
  | cons f es ih =>
    obtain ⟨hf, hes⟩ := pairwise_cons.1 h
    unfold insertInto
    split
    · next hlt =>
      refine pairwise_cons.2 ⟨fun b hb => ?_, h⟩
      rcases mem_cons.1 hb with rfl | hb
      · exact hlt
      · exact hlt.trans (hf b hb)
    · split
      · next hgt =>
        refine pairwise_cons.2 ⟨fun b hb => ?_, ih hes⟩
        rcases mem_insertInto hb with rfl | hb
        · exact hgt
        · exact hf b hb
      · next hge hle =>
        have hkey : k = f.1 := le_antisymm (not_lt.1 hle) (not_lt.1 hge)
        refine pairwise_cons.2 ⟨fun b hb => ?_, hes⟩
        rw [hkey]
        exact hf b hb

/-- Bind a key. -/
def insert (m : SortedMap κ α) (k : κ) (v : α) : SortedMap κ α :=
  ⟨insertInto k v m.entries, pairwise_insertInto m.sorted⟩

theorem find?_insertInto (k j : κ) (v : α) (es : List (κ × α)) :
    ((insertInto k v es).find? fun e => e.1 = j).map Prod.snd =
      if j = k then some v else (es.find? fun e => e.1 = j).map Prod.snd := by
  induction es with
  | nil =>
    by_cases hj : j = k
    · simp [insertInto, hj]
    · simp [insertInto, hj, Ne.symm hj]
  | cons f es ih =>
    unfold insertInto
    split
    · by_cases hj : j = k
      · simp [hj]
      · simp [hj, Ne.symm hj, List.find?_cons]
    · split
      · next hgt =>
        by_cases hf : f.1 = j
        · have hj : j ≠ k := by
            rintro rfl
            exact absurd hf hgt.ne
          simp [hf, hj]
        · rw [List.find?_cons_of_neg (by simpa using hf), ih,
            List.find?_cons_of_neg (by simpa using hf)]
      · next hge hle =>
        have hkey : f.1 = k := le_antisymm (not_lt.1 hge) (not_lt.1 hle)
        by_cases hj : j = k
        · simp [hj]
        · have hfj : f.1 ≠ j := by
            rw [hkey]
            exact Ne.symm hj
          rw [List.find?_cons_of_neg (by simpa using Ne.symm hj), if_neg hj,
            List.find?_cons_of_neg (by simpa using hfj)]

theorem get?_insert (m : SortedMap κ α) (k j : κ) (v : α) :
    (m.insert k v).get? j = if j = k then some v else m.get? j :=
  find?_insertInto k j v m.entries

@[simp] theorem get?_empty (k : κ) : (empty : SortedMap κ α).get? k = none := rfl

theorem get?_eq_some_iff : m.get? k = some v ↔ (k, v) ∈ m.entries := by
  unfold get?
  constructor
  · intro h
    obtain ⟨e, he, rfl⟩ := Option.map_eq_some_iff.1 h
    have hkey := List.find?_some he
    rw [decide_eq_true_eq] at hkey
    rw [← hkey]
    exact mem_of_find?_eq_some he
  · intro h
    cases hfind : m.entries.find? fun e => e.1 = k with
    | none =>
      have hnone := List.find?_eq_none.1 hfind (k, v) h
      simp at hnone
    | some e =>
      have hkey := List.find?_some hfind
      rw [decide_eq_true_eq] at hkey
      have hmem := mem_of_find?_eq_some hfind
      -- two bindings of one key are the same binding
      have hkeys : (m.entries.map Prod.fst).Nodup :=
        pairwise_map.2 (m.sorted.imp fun hab => hab.ne)
      rw [inj_on_of_nodup_map hkeys hmem h hkey]
      rfl

/-- Two maps whose look-ups agree are equal. -/
theorem ext_get? {n : SortedMap κ α} (h : ∀ k, m.get? k = n.get? k) : m = n := by
  have hmem : ∀ e, e ∈ m.entries ↔ e ∈ n.entries := by
    rintro ⟨k, v⟩
    rw [← get?_eq_some_iff, ← get?_eq_some_iff, h]
  have hnodup : ∀ l : SortedMap κ α, l.entries.Nodup := fun l =>
    l.sorted.imp fun {a b} hab heq => by
      subst heq
      exact lt_irrefl _ hab
  refine ext_entries ?_
  refine List.Perm.eq_of_pairwise ?_ m.sorted n.sorted
    ((perm_ext_iff_of_nodup (hnodup m) (hnodup n)).2 hmem)
  intro a b _ _ hab hba
  exact absurd hab hba.not_gt

/-! ## Removing a key -/

/-- Remove a key. -/
def erase (m : SortedMap κ α) (k : κ) : SortedMap κ α :=
  ⟨m.entries.filter fun e => e.1 ≠ k, m.sorted.filter _⟩

theorem get?_erase (m : SortedMap κ α) (k j : κ) :
    (m.erase k).get? j = if j = k then none else m.get? j := by
  unfold get? erase
  rw [List.find?_filter]
  by_cases hj : j = k
  · rw [if_pos hj, hj]
    simp
  · rw [if_neg hj]
    congr 2
    funext e
    by_cases he : e.1 = j
    · simp [he, hj]
    · simp [he]

/-- Keep the bindings whose values pass a test. -/
def filter (m : SortedMap κ α) (p : α → Bool) : SortedMap κ α :=
  ⟨m.entries.filter fun e => p e.2, m.sorted.filter _⟩

theorem get?_of_filter {p : α → Bool} (h : (m.filter p).get? k = some v) : m.get? k = some v := by
  rw [get?_eq_some_iff] at h ⊢
  exact (mem_filter.1 h).1

theorem get?_filter_of {p : α → Bool}
    (h : m.get? k = some v) (hp : p v = true) : (m.filter p).get? k = some v := by
  rw [get?_eq_some_iff] at h ⊢
  exact mem_filter.2 ⟨h, hp⟩

/-- The number of bindings. -/
def size (m : SortedMap κ α) : Nat := m.entries.length

theorem size_filter_le (m : SortedMap κ α) (p : α → Bool) : (m.filter p).size ≤ m.size :=
  length_filter_le _ _

theorem size_insert_le (m : SortedMap κ α) (k : κ) (v : α) : (m.insert k v).size ≤ m.size + 1 := by
  have hlength : ∀ es : List (κ × α), (insertInto k v es).length ≤ es.length + 1 := by
    intro es
    induction es with
    | nil => exact le_rfl
    | cons e es ih =>
      unfold insertInto
      split
      · exact le_rfl
      · split
        · exact Nat.succ_le_succ ih
        · exact Nat.le_succ _
  exact hlength m.entries

/-! ## Sums over the values -/

/-- The sum of a quantity over the values. -/
def total (m : SortedMap κ α) (f : α → Nat) : Nat := (m.entries.map fun e => f e.2).sum

/-- The quantity of the value bound to a key. -/
def amount (m : SortedMap κ α) (k : κ) (f : α → Nat) : Nat := ((m.get? k).map f).getD 0

@[simp] theorem total_empty (f : α → Nat) : (empty : SortedMap κ α).total f = 0 := rfl

theorem sum_insertInto (f : α → Nat) (hsorted : es.Pairwise fun a b => a.1 < b.1) :
    ((insertInto k v es).map fun e => f e.2).sum +
        (((es.find? fun e => e.1 = k).map Prod.snd).map f).getD 0 =
      (es.map fun e => f e.2).sum + f v := by
  induction es with
  | nil => simp [insertInto]
  | cons e es ih =>
    obtain ⟨hhead, htail⟩ := pairwise_cons.1 hsorted
    -- a key that is smaller than every key of a list is not in it
    have habsent : ∀ l : List (κ × α), (∀ x ∈ l, k < x.1) → l.find? (fun x => x.1 = k) = none := by
      intro l hl
      apply List.find?_eq_none.2
      intro x hx
      have hlt := hl x hx
      simpa using hlt.ne'
    unfold insertInto
    split
    · next hlt =>
      rw [habsent (e :: es)]
      · simp
        omega
      · intro x hx
        rcases mem_cons.1 hx with rfl | hx
        · exact hlt
        · exact hlt.trans (hhead x hx)
    · split
      · next hgt =>
        rw [List.find?_cons_of_neg (by simpa using hgt.ne)]
        have htotal := ih htail
        simp only [map_cons, sum_cons]
        omega
      · next hge hle =>
        have hkey : e.1 = k := le_antisymm (not_lt.1 hge) (not_lt.1 hle)
        rw [List.find?_cons_of_pos (by simpa using hkey)]
        simp
        omega

/-- A binding changes the sum by its value. -/
theorem total_insert (m : SortedMap κ α) (k : κ) (v : α) (f : α → Nat) :
    (m.insert k v).total f + m.amount k f = m.total f + f v :=
  sum_insertInto f m.sorted

theorem sum_filter_ne (f : α → Nat) (hsorted : es.Pairwise fun a b => a.1 < b.1) :
    ((es.filter fun e => e.1 ≠ k).map fun e => f e.2).sum +
        (((es.find? fun e => e.1 = k).map Prod.snd).map f).getD 0 =
      (es.map fun e => f e.2).sum := by
  induction es with
  | nil => rfl
  | cons e es ih =>
    obtain ⟨hhead, htail⟩ := pairwise_cons.1 hsorted
    by_cases he : e.1 = k
    · have hrest : es.filter (fun x => x.1 ≠ k) = es := by
        apply filter_eq_self.2
        intro x hx
        have hlt := hhead x hx
        rw [he] at hlt
        simpa using hlt.ne'
      rw [filter_cons_of_neg (by simpa using he), hrest, List.find?_cons_of_pos (by simpa using he)]
      simp
      omega
    · rw [filter_cons_of_pos (by simpa using he), List.find?_cons_of_neg (by simpa using he)]
      have htotal := ih htail
      simp only [map_cons, sum_cons]
      omega

/-- The removal of a key takes its value from the sum. -/
theorem total_erase (m : SortedMap κ α) (k : κ) (f : α → Nat) :
    (m.erase k).total f + m.amount k f = m.total f :=
  sum_filter_ne f m.sorted

theorem amount_of_get? (h : m.get? k = some v) (f : α → Nat) : m.amount k f = f v := by
  unfold amount
  rw [h]
  rfl

/-- One value is at most the sum. -/
theorem le_total (h : m.get? k = some v) (f : α → Nat) : f v ≤ m.total f := by
  have htotal := total_erase m k f
  rw [amount_of_get? h] at htotal
  omega

theorem total_eq_zero_iff {f : α → Nat} : m.total f = 0 ↔ ∀ k v, m.get? k = some v → f v = 0 := by
  constructor
  · intro h k v hv
    have hle := le_total hv f
    omega
  · intro h
    have hvalues : ∀ e ∈ m.entries, f e.2 = 0 := fun e he => h e.1 e.2 (get?_eq_some_iff.2 he)
    unfold total
    rw [map_congr_left hvalues]
    simp

/-- The map of a quantity of the values. -/
def map {β : Type} (m : SortedMap κ α) (f : α → β) : SortedMap κ β :=
  ⟨m.entries.map fun e => (e.1, f e.2), by
    rw [pairwise_map]
    exact m.sorted⟩

theorem get?_map {β : Type} (m : SortedMap κ α) (f : α → β) (k : κ) :
    (m.map f).get? k = (m.get? k).map f := by
  unfold get? map
  rw [List.find?_map, Option.map_map, Option.map_map]
  rfl

/-- Sums of maps with the same quantities are equal. -/
theorem total_congr {n : SortedMap κ α} {f : α → Nat}
    (h : ∀ k, (m.get? k).map f = (n.get? k).map f) : m.total f = n.total f := by
  have hmaps : m.map f = n.map f := by
    apply ext_get?
    intro k
    rw [get?_map, get?_map, h]
  have hvalues : ∀ l : SortedMap κ α, l.total f = ((l.map f).entries.map Prod.snd).sum := by
    intro l
    simp [total, map, Function.comp_def]
  rw [hvalues, hvalues, hmaps]

end SortedMap

end Lib
