import Mathlib.Data.List.Basic

/-!
# Lists taken apart at a separator

* `notMem_of_mem_splitOn` — no part holds the separator.
* `intercalate_sublist` — with fewer parts the list is a part of what it was.
-/

namespace Lib

open List

variable {α : Type} {sep : α}

theorem notMem_of_mem_splitOn [DecidableEq α] {text field : List α}
    (h : field ∈ text.splitOn sep) : sep ∉ field := by
  induction text generalizing field with
  | nil =>
    obtain rfl : field = [] := by simpa using h
    exact not_mem_nil
  | cons c text ih =>
    rw [splitOn_cons_eq_if_modifyHead] at h
    split at h
    · rcases mem_cons.1 h with rfl | h
      · exact not_mem_nil
      · exact ih h
    · rename_i hc
      cases hsplit : text.splitOn sep with
      | nil => exact absurd hsplit (splitOn_ne_nil _ _)
      | cons first fields =>
        rw [hsplit, modifyHead_cons, mem_cons] at h
        rcases h with rfl | h
        · rw [mem_cons, not_or]
          exact ⟨by simpa using Ne.symm (by simpa using hc), ih (hsplit ▸ mem_cons_self)⟩
        · exact ih (hsplit ▸ mem_cons_of_mem _ h)

theorem intercalate_sublist {parts parts' : List (List α)} (h : parts.Sublist parts') :
    ([sep].intercalate parts).Sublist ([sep].intercalate parts') := by
  induction h with
  | slnil => exact List.Sublist.refl _
  | @cons parts parts' part _ ih =>
    refine ih.trans ?_
    cases parts' with
    | nil => exact nil_sublist _
    | cons next parts' =>
      rw [List.intercalate_cons_cons]
      exact sublist_append_right _ _
  | @cons_cons parts parts' part h ih =>
    cases parts with
    | nil =>
      rw [intercalate_singleton]
      cases parts' with
      | nil => rw [intercalate_singleton]
      | cons next parts' =>
        rw [List.intercalate_cons_cons, append_assoc]
        exact sublist_append_left _ _
    | cons next parts =>
      cases parts' with
      | nil => cases h
      | cons next' parts' =>
        rw [List.intercalate_cons_cons, List.intercalate_cons_cons]
        exact List.Sublist.append (List.Sublist.refl _) ih

end Lib
