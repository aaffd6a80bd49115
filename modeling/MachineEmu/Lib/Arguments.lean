import Mathlib.Data.List.Basic

/-!
# Argument vectors

A vector of flags, each followed by its value.

* `options` — the flags with their values.
* `Args` — a vector of flags with values of which a property holds; its parts are put together with
  `Args.append`, and `Args.options_append` reads them back.
* `mem_options_set`, `mem_options_of_mem_set` — what is left of the options where one member of the
  vector is replaced.
-/

namespace Lib

open List

variable {α : Type} {P Q : α → α → Prop}

/-- The flags of a vector with their values. -/
def options : List α → List (α × α)
  | flag :: value :: rest => (flag, value) :: options rest
  | _ => []

/-- A vector of even length is read before what follows it. -/
theorem options_append {l : List α} (h : l.length % 2 = 0) (m : List α) :
    options (l ++ m) = options l ++ options m := by
  fun_induction options l with
  | case1 flag value rest ih =>
    simp only [length_cons] at h
    exact congrArg _ (ih (by omega))
  | case2 l hl =>
    match l with
    | [] => rfl
    | [_] => cases h
    | a :: b :: l => exact absurd rfl (hl a b l)

theorem mem_options_append {l : List α} {p : α × α} (h : p ∈ options l) (m : List α) :
    p ∈ options (l ++ m) := by
  fun_induction options l with
  | case1 flag value rest ih =>
    rcases mem_cons.1 h with rfl | h
    · exact mem_cons_self
    · exact mem_cons_of_mem _ (ih h)
  | case2 l hl => cases h

/-- Flags with values of which a property holds. -/
inductive Args (P : α → α → Prop) : List α → Prop
  | nil : Args P []
  | cons {flag value : α} {rest : List α} : P flag value → Args P rest →
      Args P (flag :: value :: rest)

@[simp] theorem args_nil : Args P [] := .nil

@[simp] theorem args_cons {flag value : α} {rest : List α} :
    Args P (flag :: value :: rest) ↔ P flag value ∧ Args P rest := by
  constructor
  · intro h
    cases h with
    | cons hflag hrest => exact ⟨hflag, hrest⟩
  · rintro ⟨hflag, hrest⟩
    exact .cons hflag hrest

namespace Args

variable {l m : List α}

theorem append (hl : Args P l) (hm : Args P m) : Args P (l ++ m) := by
  induction hl with
  | nil => exact hm
  | cons hflag _ ih => exact .cons hflag ih

theorem mono (h : ∀ flag value, P flag value → Q flag value) (hl : Args P l) : Args Q l := by
  induction hl with
  | nil => exact .nil
  | cons hflag _ ih => exact .cons (h _ _ hflag) ih

theorem even (hl : Args P l) : l.length % 2 = 0 := by
  induction hl with
  | nil => rfl
  | cons _ _ ih =>
    simp only [length_cons]
    omega

theorem of_mem (hl : Args P l) {p : α × α} (h : p ∈ options l) : P p.1 p.2 := by
  induction hl with
  | nil => cases h
  | cons hflag _ ih =>
    rcases mem_cons.1 h with rfl | h
    · exact hflag
    · exact ih h

/-- A part that comes in a condition. -/
theorem ite {c : Prop} [Decidable c] (hl : c → Args P l) (hm : ¬ c → Args P m) :
    Args P (if c then l else m) := by
  split
  · exact hl ‹_›
  · exact hm ‹_›

/-- A part for each element of a list. -/
theorem flatMap {β : Type} {bs : List β} {f : β → List α} (h : ∀ b ∈ bs, Args P (f b)) :
    Args P (bs.flatMap f) := by
  induction bs with
  | nil => exact .nil
  | cons b bs ih =>
    rw [flatMap_cons]
    exact (h b mem_cons_self).append (ih fun b' hb' => h b' (mem_cons_of_mem _ hb'))

/-- A property of the flags stays where it holds of the new member. -/
theorem set {R : α → Prop} (hl : Args (fun flag _ => R flag) l) {x : α} (hx : R x) (k : Nat) :
    Args (fun flag _ => R flag) (l.set k x) := by
  induction hl generalizing k with
  | nil => exact .nil
  | cons hflag hrest ih =>
    match k with
    | 0 => exact .cons hx hrest
    | 1 => exact .cons hflag hrest
    | k + 2 => exact .cons hflag (ih k)

/-- Two vectors of flags with values that have the same options are the same. -/
theorem ext_options (hl : Args P l) (hm : Args Q m) (h : options l = options m) : l = m := by
  induction hl generalizing m with
  | nil =>
    cases hm with
    | nil => rfl
    | cons => cases h
  | cons hflag _ ih =>
    cases hm with
    | nil => cases h
    | cons hflag' hrest =>
      simp only [options, List.cons.injEq, Prod.mk.injEq] at h
      obtain ⟨⟨rfl, rfl⟩, h⟩ := h
      rw [ih hrest h]

end Args

/-! ## Replacing a member -/

/-- The options after a member is replaced: each was there before, or has the new member as its
value or as its flag. -/
theorem mem_options_of_mem_set {l : List α} {k : Nat} {x : α} {p : α × α}
    (h : p ∈ options (l.set k x)) :
    p ∈ options l ∨ (p.2 = x ∧ l[k - 1]? = some p.1 ∧ k % 2 = 1) ∨ p.1 = x := by
  fun_induction options l generalizing k with
  | case1 flag value rest ih =>
    match k with
    | 0 =>
      rw [set_cons_zero, options, mem_cons] at h
      rcases h with rfl | h
      · exact .inr (.inr rfl)
      · exact .inl (mem_cons_of_mem _ h)
    | 1 =>
      rw [set_cons_succ, set_cons_zero, options, mem_cons] at h
      rcases h with rfl | h
      · exact .inr (.inl ⟨rfl, rfl, rfl⟩)
      · exact .inl (mem_cons_of_mem _ h)
    | k + 2 =>
      rw [set_cons_succ, set_cons_succ, options, mem_cons] at h
      rcases h with rfl | h
      · exact .inl mem_cons_self
      · rcases ih h with h | ⟨hx, hl, hk⟩ | hx
        · exact .inl (mem_cons_of_mem _ h)
        · refine .inr (.inl ⟨hx, ?_, by omega⟩)
          have hk' : k + 2 - 1 = (k - 1) + 2 := by omega
          rw [hk', List.getElem?_cons_succ, List.getElem?_cons_succ]
          exact hl
        · exact .inr (.inr hx)
  | case2 l hl =>
    match l with
    | [] => exact .inl h
    | [a] =>
      match k with
      | 0 => cases h
      | k + 1 => cases h
    | a :: b :: l => exact absurd rfl (hl a b l)

/-- An option stays where neither its flag nor its value is replaced. -/
theorem mem_options_set {front back : List α} {flag value x : α} {k : Nat}
    (hfront : front.length % 2 = 0) (hflag : k ≠ front.length) (hvalue : k ≠ front.length + 1) :
    (flag, value) ∈ options ((front ++ flag :: value :: back).set k x) := by
  rw [set_append]
  split
  · rw [options_append (by rw [length_set]; exact hfront)]
    exact mem_append_right _ mem_cons_self
  · obtain ⟨n, hn⟩ : ∃ n, k - front.length = n + 2 := ⟨k - front.length - 2, by omega⟩
    rw [options_append hfront, hn, set_cons_succ, set_cons_succ]
    exact mem_append_right _ mem_cons_self

end Lib
