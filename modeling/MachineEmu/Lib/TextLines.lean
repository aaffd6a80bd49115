import Mathlib.Data.List.Infix
import Mathlib.Data.List.Induction

/-!
# The lines of a text

A text is cut behind each line feed. A line is a piece without its line feed and without a carriage
return before that.

* `Text.pieces` — the pieces of a text.
* `Text.lines` — its lines.
* `Text.tail` — the last lines, each with a line feed if the text has one there.
* `Text.pieces_append` — a text that grows changes its last piece only.
* `Text.tail_eq` — the tail is made of the last pieces.
-/

namespace Lib.Text

open List

/-- The pieces of a text, cut behind each line feed. -/
def pieces : List Char → List (List Char)
  | [] => []
  | c :: cs =>
    if c = '\n' then [c] :: pieces cs
    else
      match pieces cs with
      | [] => [[c]]
      | piece :: rest => (c :: piece) :: rest

/-- A piece without its line feed, and without a carriage return before that. -/
def strip (piece : List Char) : List Char :=
  if piece.getLast? = some '\n' then
    if piece.dropLast.getLast? = some '\r' then piece.dropLast.dropLast else piece.dropLast
  else piece

/-- `str::lines`. -/
def lines (text : List Char) : List (List Char) := (pieces text).map strip

/-- The line feed at the end of a text. -/
def ending (text : List Char) : List Char := if text.getLast? = some '\n' then ['\n'] else []

/-- The last `count` lines, joined, with the line feed at the end. -/
def tail (text : List Char) (count : Nat) : List Char :=
  ['\n'].intercalate ((lines text).drop ((lines text).length - count)) ++ ending text

/-- A piece with a line feed in place of its carriage return and line feed. -/
def plain (piece : List Char) : List Char := strip piece ++ ending piece

/-- A text without a carriage return before a line feed. -/
def Plain (text : List Char) : Prop := ¬['\r', '\n'] <:+: text

instance (text : List Char) : Decidable (Plain text) :=
  inferInstanceAs (Decidable (¬['\r', '\n'] <:+: text))

/-! ## Pieces -/

@[simp] theorem pieces_nil : pieces [] = [] := rfl

theorem pieces_lineFeed (cs : List Char) : pieces ('\n' :: cs) = ['\n'] :: pieces cs := by
  simp [pieces]

/-- The pieces of a text are the text. -/
theorem flatten_pieces (text : List Char) : (pieces text).flatten = text := by
  induction text with
  | nil => rfl
  | cons c cs ih =>
    unfold pieces
    split
    · simp [ih]
    · split <;> next heq => simp_all

variable {text : List Char}

/-- A line feed is only at the end of a piece. -/
theorem lineFeed_notMem_dropLast {piece : List Char} (h : piece ∈ pieces text) :
    piece ≠ [] ∧ '\n' ∉ piece.dropLast := by
  induction text generalizing piece with
  | nil => cases h
  | cons c cs ih =>
    unfold pieces at h
    split at h
    · rcases mem_cons.1 h with rfl | h
      · simp
      · exact ih h
    · next hne =>
      split at h
      · rw [mem_singleton] at h
        subst h
        simp
      · next first rest heq =>
        rcases mem_cons.1 h with rfl | h
        · obtain ⟨hfirst, hdrop⟩ := ih (show first ∈ pieces cs by rw [heq]; exact mem_cons_self)
          refine ⟨cons_ne_nil _ _, ?_⟩
          rw [dropLast_cons_of_ne_nil hfirst, mem_cons, not_or]
          exact ⟨Ne.symm hne, hdrop⟩
        · exact ih (by rw [heq]; exact mem_cons_of_mem _ h)

theorem singleton_eq_concat {α : Type} {x last : α} {front : List α} (h : [x] = front ++ [last]) :
    front = [] ∧ x = last := by
  cases front <;> simp_all

/-- A text that grows changes its last piece only. -/
theorem pieces_append {last : List Char} {front : List (List Char)}
    (h : pieces text = front ++ [last]) (more : List Char) :
    pieces (text ++ more) = front ++ pieces (last ++ more) := by
  induction text generalizing front last with
  | nil => simp at h
  | cons c cs ih =>
    by_cases hc : c = '\n'
    · subst hc
      rw [pieces_lineFeed] at h
      rcases eq_nil_or_concat' (pieces cs) with heq | ⟨front', last', heq⟩
      · rw [heq] at h
        obtain ⟨rfl, rfl⟩ := singleton_eq_concat h
        obtain rfl : cs = [] := by rw [← flatten_pieces cs, heq]; rfl
        rfl
      · rw [heq, ← cons_append] at h
        obtain ⟨rfl, hlast⟩ := append_inj' h rfl
        obtain rfl := (List.cons.inj hlast).1
        rw [cons_append, pieces_lineFeed, ih heq, cons_append]
    · cases heq : pieces cs with
      | nil =>
        obtain rfl : cs = [] := by rw [← flatten_pieces cs, heq]; rfl
        simp only [pieces, if_neg hc] at h
        obtain ⟨rfl, rfl⟩ := singleton_eq_concat h
        rfl
      | cons first rest =>
        have hpieces : pieces (c :: cs) = (c :: first) :: rest := by simp [pieces, hc, heq]
        rw [hpieces] at h
        rcases eq_nil_or_concat' rest with rfl | ⟨front', last', rfl⟩
        · -- the text is one piece
          obtain ⟨rfl, rfl⟩ := singleton_eq_concat h
          have hmore : pieces (cs ++ more) = [] ++ pieces (first ++ more) := ih heq
          simp only [cons_append, nil_append] at hmore ⊢
          simp only [pieces, hmore]
        · rw [← cons_append] at h heq
          obtain ⟨rfl, hlast⟩ := append_inj' h rfl
          obtain rfl := (List.cons.inj hlast).1
          simp [pieces, hc, ih heq]

theorem pieces_eq_nil : pieces text = [] ↔ text = [] := by
  refine ⟨fun h => ?_, fun h => by rw [h]; rfl⟩
  rw [← flatten_pieces text, h]
  rfl

/-- The last piece ends as the text does. -/
theorem getLast?_of_pieces {last : List Char} {front : List (List Char)}
    (h : pieces text = front ++ [last]) : text.getLast? = last.getLast? := by
  have hne := (lineFeed_notMem_dropLast (show last ∈ pieces text by rw [h]; simp)).1
  rw [← flatten_pieces text, h, flatten_append, flatten_singleton,
    List.getLast?_append_of_ne_nil _ hne]

/-- Each piece but the last one ends with a line feed. -/
theorem getLast?_of_mem_dropLast {piece : List Char} (h : piece ∈ (pieces text).dropLast) :
    piece.getLast? = some '\n' := by
  induction text generalizing piece with
  | nil => cases h
  | cons c cs ih =>
    unfold pieces at h
    split at h
    · next hc =>
      cases heq : pieces cs with
      | nil =>
        rw [heq] at h
        cases h
      | cons first rest =>
        rw [dropLast_cons_of_ne_nil (by rw [heq]; exact cons_ne_nil _ _)] at h
        rcases mem_cons.1 h with rfl | h
        · simp [hc]
        · exact ih h
    · split at h
      · cases h
      · next first rest heq =>
        cases rest with
        | nil => cases h
        | cons second rest =>
          rw [heq] at ih
          rw [dropLast_cons_of_ne_nil (cons_ne_nil _ _)] at h ih
          rcases mem_cons.1 h with rfl | h
          · rw [List.getLast?_cons, ih mem_cons_self]
            rfl
          · exact ih (mem_cons_of_mem _ h)

/-! ## The tail -/

theorem intercalate_concat (separator : List Char) (front : List (List Char)) (last : List Char) :
    separator.intercalate (front ++ [last]) = front.flatMap (· ++ separator) ++ last := by
  induction front with
  | nil => simp
  | cons first front ih =>
    cases front with
    | nil => simp [List.intercalate]
    | cons second front =>
      rw [cons_append, cons_append, List.intercalate_cons_cons, ← cons_append, ih]
      simp

/-- The tail is made of the last pieces. -/
theorem tail_eq (text : List Char) {count : Nat} (hcount : 0 < count) :
    tail text count = ((pieces text).drop ((pieces text).length - count)).flatMap plain := by
  rcases eq_nil_or_concat' (pieces text) with heq | ⟨front, last, heq⟩
  · obtain rfl := pieces_eq_nil.1 heq
    simp [tail, lines, ending, List.intercalate]
  · have hending : ending text = ending last := by unfold ending; rw [getLast?_of_pieces heq]
    have hfront : ∀ piece ∈ front, plain piece = strip piece ++ ['\n'] := by
      intro piece hpiece
      have hlast := getLast?_of_mem_dropLast
        (show piece ∈ (pieces text).dropLast by rw [heq, dropLast_concat]; exact hpiece)
      unfold plain ending
      rw [if_pos hlast]
    have hk : (front ++ [last]).length - count ≤ front.length := by
      rw [length_append, length_singleton]
      omega
    unfold tail lines
    rw [length_map, ← map_drop, heq, drop_append_of_le_length hk, map_append,
      map_singleton, intercalate_concat, hending, flatMap_append, flatMap_singleton,
      flatMap_map, append_assoc]
    congr 1
    exact flatMap_congr fun piece hpiece => (hfront piece (mem_of_mem_drop hpiece)).symm

/-! ## Texts without carriage returns before line feeds -/

theorem plain_of_plain {piece : List Char} (h : Plain piece) : plain piece = piece := by
  unfold plain strip ending
  split
  · next hlast =>
    obtain ⟨front, rfl⟩ := List.getLast?_eq_some_iff.1 hlast
    rw [dropLast_concat, if_neg]
    intro hreturn
    obtain ⟨before, rfl⟩ := List.getLast?_eq_some_iff.1 hreturn
    exact h ⟨before, [], by simp⟩
  · simp

theorem flatMap_plain {ps : List (List Char)} (h : Plain ps.flatten) :
    ps.flatMap plain = ps.flatten := by
  induction ps with
  | nil => rfl
  | cons first rest ih =>
    rw [flatten_cons] at h ⊢
    rw [flatMap_cons, plain_of_plain fun hin => h (hin.trans (infix_append' [] first _)),
      ih fun hin => h (hin.trans (suffix_append _ _).isInfix)]

theorem pieces_line {line : List Char} (h : '\n' ∉ line) (more : List Char) :
    pieces (line ++ '\n' :: more) = (line ++ ['\n']) :: pieces more := by
  induction line with
  | nil => exact pieces_lineFeed more
  | cons c line ih =>
    rw [mem_cons, not_or] at h
    simp [pieces, Ne.symm h.1, ih h.2]

/-- Behind a line feed new pieces begin. -/
theorem pieces_append_of_lineFeed (h : text.getLast? = some '\n')
    (more : List Char) : pieces (text ++ more) = pieces text ++ pieces more := by
  rcases eq_nil_or_concat' (pieces text) with heq | ⟨front, last, heq⟩
  · rw [pieces_eq_nil.1 heq] at h
    cases h
  · have hline := (lineFeed_notMem_dropLast (show last ∈ pieces text by rw [heq]; simp)).2
    rw [getLast?_of_pieces heq] at h
    obtain ⟨line, rfl⟩ := List.getLast?_eq_some_iff.1 h
    rw [dropLast_concat] at hline
    rw [pieces_append heq, heq, append_assoc line, singleton_append, pieces_line hline]
    simp

theorem Plain.append {line more : List Char} (hline : '\n' ∉ line)
    (hmore : Plain (line.getLast?.toList ++ more)) : Plain (line ++ more) := by
  rcases eq_nil_or_concat' line with rfl | ⟨front, c, rfl⟩
  · exact hmore
  · rw [List.getLast?_concat, Option.toList_some] at hmore
    rintro ⟨before, after, heq⟩
    rw [append_assoc front, append_assoc before] at heq
    rcases append_eq_append_iff.1 heq with ⟨middle, hfront, hrest⟩ | ⟨middle, -, hrest⟩
    · -- the line feed is in the line
      rcases middle with _ | ⟨a, middle⟩
      · exact hmore ⟨[], after, by simpa using hrest⟩
      · rcases middle with _ | ⟨b, middle⟩ <;> simp_all
    · exact hmore ⟨middle, after, by rw [append_assoc]; exact hrest.symm⟩

/-- A piece that goes on shows what it goes on with. -/
theorem flatMap_plain_append {last more : List Char} (hlast : '\n' ∉ last.dropLast)
    (hmore : Plain (last.getLast?.toList ++ more)) :
    (pieces (last ++ more)).flatMap plain = plain last ++ more := by
  by_cases hend : last.getLast? = some '\n'
  · obtain ⟨line, rfl⟩ := List.getLast?_eq_some_iff.1 hend
    rw [dropLast_concat] at hlast
    rw [hend, Option.toList_some] at hmore
    rw [append_assoc, singleton_append, pieces_line hlast, flatMap_cons,
      flatMap_plain, flatten_pieces]
    rw [flatten_pieces]
    exact fun hin => hmore (hin.trans (suffix_append _ _).isInfix)
  · have hline : '\n' ∉ last := by
      rcases eq_nil_or_concat' last with rfl | ⟨front, c, rfl⟩
      · exact not_mem_nil
      · rw [dropLast_concat] at hlast
        rw [List.getLast?_concat, Option.some_inj] at hend
        simp [hlast, Ne.symm hend]
    have hplain := Plain.append hline hmore
    rw [flatMap_plain (by rwa [flatten_pieces]), flatten_pieces,
      plain_of_plain fun hin => hplain (hin.trans (prefix_append _ _).isInfix)]

end Lib.Text
