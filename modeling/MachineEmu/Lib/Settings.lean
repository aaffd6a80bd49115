import Mathlib.Data.List.Basic

/-!
# Settings read in order

The members of a list may set a value; they are read from left to right, and the last one wins.

* `settle` — the value in the end.
* `settle_ne_true_iff`, `settle_eq_false_iff` — a switch is not on in the end exactly when each
  member that turns it on is followed by one that turns it off.
-/

namespace Lib

open List

variable {α β : Type}

/-- The value in the end. -/
def settle (set : α → Option β) (l : List α) : Option β :=
  l.foldl (fun state a => (set a).or state) none

section Settle

variable {set : α → Option β}

@[simp] theorem settle_nil : settle set [] = none := rfl

theorem foldl_settle (l : List α) (state : Option β) :
    l.foldl (fun state a => (set a).or state) state = (settle set l).or state := by
  induction l generalizing state with
  | nil => rfl
  | cons a l ih =>
    rw [settle, foldl_cons, foldl_cons, ih, ih ((set a).or none)]
    cases settle set l <;> simp

theorem settle_cons (a : α) (l : List α) : settle set (a :: l) = (settle set l).or (set a) := by
  rw [settle, foldl_cons, foldl_settle, Option.or_none]

/-- A value in the end was set by a member. -/
theorem exists_of_settle {l : List α} {b : β} (h : settle set l = some b) :
    ∃ x ∈ l, set x = some b := by
  induction l with
  | nil => cases h
  | cons a l ih =>
    rw [settle_cons, Option.or_eq_some_iff] at h
    rcases h with h | ⟨-, h⟩
    · obtain ⟨x, hx, hset⟩ := ih h
      exact ⟨x, mem_cons_of_mem _ hx, hset⟩
    · exact ⟨a, mem_cons_self, h⟩

theorem settle_eq_none_iff {l : List α} : settle set l = none ↔ ∀ x ∈ l, set x = none := by
  induction l with
  | nil => simp
  | cons a l ih => rw [settle_cons, Option.or_eq_none_iff, ih, forall_mem_cons, and_comm]

end Settle

/-! ## Switches -/

/-- Each member that turns a switch on is followed by one that turns it off. -/
def TurnedOff (set : α → Option Bool) : List α → Prop
  | [] => True
  | a :: l => (set a = some true → ∃ x ∈ l, set x = some false) ∧ TurnedOff set l

section Switch

variable {set : α → Option Bool} {l : List α}

theorem settle_ne_true_iff : settle set l ≠ some true ↔ TurnedOff set l := by
  induction l with
  | nil => simp [TurnedOff]
  | cons a l ih =>
    rw [TurnedOff, settle_cons, ← ih]
    rcases hl : settle set l with _ | _ | _
    · -- nothing is set after this member
      have hnone := settle_eq_none_iff.1 hl
      have hoff : ¬ ∃ x ∈ l, set x = some false := by
        rintro ⟨x, hx, hset⟩
        rw [hnone x hx] at hset
        cases hset
      simp [hoff]
    · have hoff := exists_of_settle hl
      simp [hoff]
    · simp

theorem settle_eq_false_iff :
    settle set l = some false ↔ (∃ x ∈ l, set x = some false) ∧ TurnedOff set l := by
  rw [← settle_ne_true_iff]
  constructor
  · intro h
    exact ⟨exists_of_settle h, by simp [h]⟩
  · rintro ⟨⟨x, hx, hset⟩, hne⟩
    rcases hl : settle set l with _ | _ | _
    · rw [settle_eq_none_iff.1 hl x hx] at hset
      cases hset
    · rfl
    · exact absurd hl hne

end Switch

end Lib
