import Mathlib.Data.List.Basic

/-!
# Lines of a stream

A reader takes a stream element by element and cuts it at a separator. A line has a length limit;
what has come of a line when it exceeds the limit is given up.

* `LineReader.next` — what one element makes of the line read so far.
* `LineReader.Piece`, `LineReader.Cut` — what the reader makes of a stream.
* `LineReader.encode` — lines with their separators.
* `LineReader.pieces_eq_take` — when no line is longer than the limit, the pieces are the lines.
-/

namespace Lib

open List

/-- A reader of lines: the separator and the length limit. -/
structure LineReader (α : Type) where
  separator : α
  limit : Nat

namespace LineReader

variable {α : Type}

/-- What one element makes of a line. -/
inductive Next (α : Type) where
  | more (line : List α)
  | complete (line : List α)
  | overlong

def next [DecidableEq α] (R : LineReader α) (line : List α) (x : α) : Next α :=
  if x = R.separator then .complete line
  else if R.limit ≤ line.length then .overlong
  else .more (line ++ [x])

/-- A part of the stream the reader is done with. -/
inductive Piece (α : Type) where
  | line (elements : List α)
  | overlong (elements : List α)

namespace Piece

/-- The elements of the stream the piece stands for. -/
def elements (R : LineReader α) : Piece α → List α
  | line l => l ++ [R.separator]
  | overlong l => l

/-- The line, if the piece is one. -/
def line? : Piece α → Option (List α)
  | line l => some l
  | overlong _ => none

end Piece

/-- Elements of one line within the limit. -/
def Short (R : LineReader α) (l : List α) : Prop := R.separator ∉ l ∧ l.length ≤ R.limit

/-- A piece as the reader leaves it. -/
def Cut (R : LineReader α) : Piece α → Prop
  | .line l => R.Short l
  | .overlong l => R.separator ∉ l ∧ R.limit < l.length

/-- The stream of some lines. -/
def encode (R : LineReader α) (lines : List (List α)) : List α :=
  lines.flatMap fun l => l ++ [R.separator]

variable {R : LineReader α}

@[simp] theorem encode_nil : R.encode [] = [] := rfl

@[simp] theorem encode_cons (l : List α) (lines : List (List α)) :
    R.encode (l :: lines) = l ++ R.separator :: R.encode lines := by
  simp [encode]

theorem short_nil : R.Short [] := ⟨not_mem_nil, Nat.zero_le _⟩

section Next

variable [DecidableEq α] {line line' : List α} {x : α}

theorem next_more (h : R.next line x = .more line') (hshort : R.Short line) :
    line' = line ++ [x] ∧ R.Short line' := by
  unfold next at h
  split at h
  · cases h
  · next hx =>
    split at h
    · cases h
    · next hlimit =>
      cases h
      refine ⟨rfl, ?_, ?_⟩
      · simp only [mem_append, mem_singleton, not_or]
        exact ⟨hshort.1, fun h => hx h.symm⟩
      · simp only [length_append, length_singleton]
        omega

theorem next_complete (h : R.next line x = .complete line') : line' = line ∧ x = R.separator := by
  unfold next at h
  split at h
  · next hx =>
    cases h
    exact ⟨rfl, hx⟩
  · split at h <;> cases h

theorem next_overlong (h : R.next line x = .overlong) (hshort : R.Short line) :
    R.Cut (.overlong (line ++ [x])) := by
  unfold next at h
  split at h
  · cases h
  · next hx =>
    split at h
    · next hlimit =>
      refine ⟨?_, ?_⟩
      · simp only [mem_append, mem_singleton, not_or]
        exact ⟨hshort.1, fun h => hx h.symm⟩
      · simp only [length_append, length_singleton]
        omega
    · cases h

end Next

/-- Two ways to cut a stream at its first separator agree. -/
theorem first_line {l l' rest rest' : List α} (hl : R.separator ∉ l) (hl' : R.separator ∉ l')
    (h : l ++ R.separator :: rest = l' ++ R.separator :: rest') : l = l' ∧ rest = rest' := by
  rcases append_eq_append_iff.1 h with ⟨more, rfl, hmore⟩ | ⟨more, rfl, hmore⟩ <;>
    rcases more with _ | ⟨x, more⟩ <;> simp_all

/-- An overlong piece is not the beginning of a stream of short lines. -/
theorem not_overlong {lines : List (List α)} {l rest tail : List α}
    (hlines : ∀ l ∈ lines, R.Short l) (hrest : R.Short rest) (hl : R.Cut (.overlong l))
    (h : l ++ tail = R.encode lines ++ rest) : False := by
  obtain ⟨hmem, hlength⟩ := hl
  cases lines with
  | nil =>
    have hlengths := congrArg List.length h
    simp only [encode_nil, nil_append, length_append] at hlengths
    have := hrest.2
    omega
  | cons first lines =>
    have hfirst := hlines first mem_cons_self
    rw [encode_cons, append_assoc] at h
    rcases append_eq_append_iff.1 h with ⟨more, hmore, -⟩ | ⟨more, hmore, hseparator⟩
    · -- the piece lies within the first line
      have hlengths := congrArg List.length hmore
      simp only [length_append] at hlengths
      have := hfirst.2
      omega
    · cases more with
      | nil =>
        have hlengths := congrArg List.length hmore
        simp only [append_nil] at hlengths
        have := hfirst.2
        omega
      | cons x more =>
        simp only [cons_append, List.cons.injEq] at hseparator
        exact hmem (hmore ▸ by simp [hseparator.1])

/-- When the stream is made of short lines and a beginning of one, the pieces are its first
lines. -/
theorem pieces_eq_take {pieces : List (Piece α)} {lines : List (List α)} {tail rest : List α}
    (hpieces : ∀ p ∈ pieces, R.Cut p) (hlines : ∀ l ∈ lines, R.Short l) (hrest : R.Short rest)
    (h : pieces.flatMap (Piece.elements R) ++ tail = R.encode lines ++ rest) :
    pieces = (lines.take pieces.length).map Piece.line ∧
      tail = R.encode (lines.drop pieces.length) ++ rest := by
  induction pieces generalizing lines with
  | nil => exact ⟨by simp, by simpa using h⟩
  | cons p pieces ih =>
    rw [flatMap_cons, append_assoc] at h
    cases p with
    | overlong l => exact (not_overlong hlines hrest (hpieces _ mem_cons_self) h).elim
    | line l =>
      have hl : R.Short l := hpieces _ mem_cons_self
      simp only [Piece.elements, append_assoc, singleton_append] at h
      cases lines with
      | nil =>
        have hmem : R.separator ∈ rest := by
          rw [encode_nil, nil_append] at h
          simp [← h]
        exact (hrest.1 hmem).elim
      | cons first lines =>
        rw [encode_cons, append_assoc] at h
        obtain ⟨rfl, hmore⟩ := first_line hl.1 (hlines first mem_cons_self).1 h
        obtain ⟨hpieces, htail⟩ := ih (fun p hp => hpieces p (mem_cons_of_mem _ hp))
          (fun l hl => hlines l (mem_cons_of_mem _ hl)) hmore
        refine ⟨?_, by simpa using htail⟩
        rw [length_cons, take_succ_cons, map_cons, ← hpieces]

end LineReader

end Lib
