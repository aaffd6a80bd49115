import Mathlib.Data.List.Nodup

/-!
# Filling the gaps of a list

Each item of a list has a value of its own, or takes the one that belongs to its place.

* `fill` — the values of all items.
* `filterMap_mapIdx_eq_fill` — where they stand in other items.
* `nodup_fill_iff` — they are distinct, where the own values are, the taken ones are, and the two
  are apart.
-/

namespace Lib

open List

variable {α β : Type} (own : α → Option β) (taken : Nat → β)

/-- The values of the items: their own ones, or those of their places. -/
def fill (items : List α) : List β := items.mapIdx fun i a => (own a).getD (taken i)

/-- A place whose item has no value of its own. -/
def Gap (items : List α) (i : Nat) : Prop := ∃ a, items[i]? = some a ∧ own a = none

variable {own taken} {items : List α} {a : α}

@[simp] theorem fill_nil : fill own taken [] = [] := rfl

theorem fill_cons :
    fill own taken (a :: items) =
      (own a).getD (taken 0) :: fill own (fun i => taken (i + 1)) items := by
  unfold fill
  rw [mapIdx_cons]

@[simp] theorem not_gap_nil (i : Nat) : ¬Gap own [] i := by
  rintro ⟨a, ha, -⟩
  cases ha

@[simp] theorem gap_cons_zero : Gap own (a :: items) 0 ↔ own a = none := by
  simp [Gap]

@[simp] theorem gap_cons_succ (i : Nat) : Gap own (a :: items) (i + 1) ↔ Gap own items i := by
  simp [Gap]

/-- A value of the items is an own one, or the one of a gap. -/
theorem mem_fill {b : β} :
    b ∈ fill own taken items ↔ b ∈ items.filterMap own ∨ ∃ i, Gap own items i ∧ b = taken i := by
  induction items generalizing taken with
  | nil => simp
  | cons a items ih =>
    rw [fill_cons, mem_cons, ih]
    cases hown : own a with
    | some value =>
      rw [filterMap_cons_some hown, mem_cons, Option.getD_some, or_assoc]
      refine or_congr_right (or_congr_right ⟨?_, ?_⟩)
      · rintro ⟨i, hi, rfl⟩
        exact ⟨i + 1, (gap_cons_succ i).2 hi, rfl⟩
      · rintro ⟨i, hi, rfl⟩
        cases i with
        | zero => simp [hown] at hi
        | succ i => exact ⟨i, (gap_cons_succ i).1 hi, rfl⟩
    | none =>
      rw [filterMap_cons_none hown, Option.getD_none, or_left_comm]
      refine or_congr_right ⟨?_, ?_⟩
      · rintro (rfl | ⟨i, hi, rfl⟩)
        · exact ⟨0, gap_cons_zero.2 hown, rfl⟩
        · exact ⟨i + 1, (gap_cons_succ i).2 hi, rfl⟩
      · rintro ⟨i, hi, rfl⟩
        cases i with
        | zero => exact Or.inl rfl
        | succ i => exact Or.inr ⟨i, (gap_cons_succ i).1 hi, rfl⟩

/-- Items that are turned into others with their values are read back as these. -/
theorem filterMap_mapIdx_eq_fill {γ : Type} {turn : Nat → α → γ} {read : γ → Option β}
    (h : ∀ i, ∀ a ∈ items, read (turn i a) = some ((own a).getD (taken i))) :
    (items.mapIdx turn).filterMap read = fill own taken items := by
  induction items generalizing turn taken with
  | nil => rfl
  | cons a items ih =>
    rw [mapIdx_cons, filterMap_cons_some (h 0 a mem_cons_self), fill_cons,
      ih fun i a' ha' => h (i + 1) a' (mem_cons_of_mem a ha')]

/-- The values are distinct, where the own ones are, those of two gaps are, and no gap takes an own
one. -/
theorem nodup_fill_iff :
    (fill own taken items).Nodup ↔ (items.filterMap own).Nodup ∧
      (∀ i j, i < j → Gap own items i → Gap own items j → taken i ≠ taken j) ∧
        ∀ i, Gap own items i → taken i ∉ items.filterMap own := by
  induction items generalizing taken with
  | nil => simp
  | cons a items ih =>
    rw [fill_cons, nodup_cons, mem_fill, ih]
    cases hown : own a with
    | some value =>
      rw [filterMap_cons_some hown, nodup_cons, Option.getD_some]
      constructor
      · rintro ⟨hnot, hnodup, hgaps, hapart⟩
        rw [not_or] at hnot
        refine ⟨⟨hnot.1, hnodup⟩, fun i j hij hi hj => ?_, fun i hi hmem => ?_⟩
        · cases i with
          | zero => simp [hown] at hi
          | succ i =>
            obtain ⟨j, rfl⟩ : ∃ k, j = k + 1 := ⟨j - 1, by omega⟩
            exact hgaps i j (by omega) ((gap_cons_succ i).1 hi) ((gap_cons_succ j).1 hj)
        · cases i with
          | zero => simp [hown] at hi
          | succ i =>
            have hi := (gap_cons_succ i).1 hi
            rcases mem_cons.1 hmem with heq | hmem
            · exact hnot.2 ⟨i, hi, heq.symm⟩
            · exact hapart i hi hmem
      · rintro ⟨⟨hnew, hnodup⟩, hgaps, hapart⟩
        refine ⟨?_, hnodup, fun i j hij hi hj => ?_, fun i hi hmem => ?_⟩
        · rintro (hmem | ⟨i, hi, heq⟩)
          · exact hnew hmem
          · exact hapart (i + 1) ((gap_cons_succ i).2 hi) (heq ▸ mem_cons_self)
        · exact hgaps (i + 1) (j + 1) (by omega) ((gap_cons_succ i).2 hi) ((gap_cons_succ j).2 hj)
        · exact hapart (i + 1) ((gap_cons_succ i).2 hi) (mem_cons_of_mem value hmem)
    | none =>
      rw [filterMap_cons_none hown, Option.getD_none]
      constructor
      · rintro ⟨hnot, hnodup, hgaps, hapart⟩
        rw [not_or] at hnot
        refine ⟨hnodup, fun i j hij hi hj => ?_, fun i hi => ?_⟩
        · obtain ⟨j, rfl⟩ : ∃ k, j = k + 1 := ⟨j - 1, by omega⟩
          have hj := (gap_cons_succ j).1 hj
          cases i with
          | zero => exact fun heq => hnot.2 ⟨j, hj, heq⟩
          | succ i => exact hgaps i j (by omega) ((gap_cons_succ i).1 hi) hj
        · cases i with
          | zero => exact hnot.1
          | succ i => exact hapart i ((gap_cons_succ i).1 hi)
      · rintro ⟨hnodup, hgaps, hapart⟩
        refine ⟨?_, hnodup, fun i j hij hi hj => ?_, fun i hi => ?_⟩
        · rintro (hmem | ⟨i, hi, heq⟩)
          · exact hapart 0 (gap_cons_zero.2 hown) hmem
          · exact hgaps 0 (i + 1) (by omega) (gap_cons_zero.2 hown) ((gap_cons_succ i).2 hi) heq
        · exact hgaps (i + 1) (j + 1) (by omega) ((gap_cons_succ i).2 hi) ((gap_cons_succ j).2 hj)
        · exact hapart (i + 1) ((gap_cons_succ i).2 hi)

end Lib
