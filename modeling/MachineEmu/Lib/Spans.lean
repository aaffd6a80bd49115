import Mathlib.Data.Int.Notation
import Mathlib.Data.List.Basic
import Mathlib.Order.Defs.LinearOrder
import Mathlib.Algebra.Order.Ring.Int

/-!
# Spans one after the other

* `Lined` — each span of a list begins where the one before ends.
* `lined_append_singleton`, `Lined.le_of_mem`, `Lined.pairwise` — spans that do not go back are apart.
-/

namespace Lib

open List

variable {α : Type} {first last : α → ℤ} {off stop : ℤ} {spans : List α} {span : α}

/-- From a position to another, each span begins where the one before ends. -/
def Lined (first last : α → ℤ) : ℤ → List α → ℤ → Prop
  | off, [], stop => off = stop
  | off, span :: spans, stop => first span = off ∧ Lined first last (last span) spans stop

theorem lined_append_singleton : Lined first last off (spans ++ [span]) stop ↔
    Lined first last off spans (first span) ∧ last span = stop := by
  induction spans generalizing off with
  | nil => simp only [nil_append, Lined, eq_comm]
  | cons head spans ih => simp only [cons_append, Lined, ih, and_assoc]

/-- Where spans do not go back, they lie behind where they begin. -/
theorem Lined.le_of_mem (h : Lined first last off spans stop)
    (hforth : ∀ span ∈ spans, first span ≤ last span) : ∀ span ∈ spans, off ≤ first span := by
  induction spans generalizing off with
  | nil => exact fun span hspan => absurd hspan not_mem_nil
  | cons head spans ih =>
    intro span hspan
    have hhead := hforth head mem_cons_self
    have hoff := h.1
    rcases mem_cons.1 hspan with rfl | hspan
    · omega
    · have hle := ih h.2 (fun s hs => hforth s (mem_cons_of_mem _ hs)) span hspan
      omega

/-- Spans that do not go back do not overlap. -/
theorem Lined.pairwise (h : Lined first last off spans stop)
    (hforth : ∀ span ∈ spans, first span ≤ last span) :
    spans.Pairwise fun a b => last a ≤ first b := by
  induction spans generalizing off with
  | nil => exact List.Pairwise.nil
  | cons head spans ih =>
    have hrest : ∀ span ∈ spans, first span ≤ last span :=
      fun s hs => hforth s (mem_cons_of_mem _ hs)
    exact List.Pairwise.cons (h.2.le_of_mem hrest) (ih h.2 hrest)

end Lib
