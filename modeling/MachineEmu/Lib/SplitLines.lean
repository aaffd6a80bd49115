import Mathlib.Data.List.Basic
import Mathlib.Data.Nat.Notation
import Mathlib.Algebra.Order.Group.Nat

/-!
# Lines of a text in Python

`str.splitlines` knows more line breaks than the newline, and a line keeps its own.

* `splitLines`, `joinLines` — the lines of a text, each with its content and its break.
* `splitLines_replace` — another content of a line changes this line alone.
* `breakCount` — how many lines have a break; `terminated_merge` — a line that loses its break runs
  into the next one.
-/

namespace Lib.Python

open List

/-- Where `splitlines` ends a line, but for a carriage return with a newline. -/
def lineBreaks : List Char :=
  ['\n', '\r', '\x0b', '\x0c', '\x1c', '\x1d', '\x1e', '\u0085', '\u2028', '\u2029']

/-- The lines of a text: contents and breaks. -/
def splitLines : List Char → List (List Char × List Char)
  | [] => []
  | c :: rest =>
    if c = '\r' ∧ rest.head? = some '\n' then ([], ['\r', '\n']) :: (splitLines rest).tail
    else if c ∈ lineBreaks then ([], [c]) :: splitLines rest
    else
      match splitLines rest with
      | [] => [([c], [])]
      | (content, ending) :: more => (c :: content, ending) :: more

def joinLines (lines : List (List Char × List Char)) : List Char :=
  lines.flatMap fun line => line.1 ++ line.2

/-- A break before the rest of a text. There is none at the end of the text alone, and a carriage
return before a newline is no break. -/
inductive Ends : List Char → List Char → Prop
  | last : Ends [] []
  | pair (rest : List Char) : Ends ['\r', '\n'] rest
  | single {c : Char} {rest : List Char} (hc : c ∈ lineBreaks)
    (hpair : c = '\r' → rest.head? ≠ some '\n') : Ends [c] rest

structure IsLine (content ending rest : List Char) : Prop where
  plain : ∀ c ∈ content, c ∉ lineBreaks
  ends : Ends ending rest
  nonempty : ending = [] → content ≠ []

variable {text rest content ending : List Char} {line : List Char × List Char}
  {front back more : List (List Char × List Char)}

/-! ## One line -/

theorem splitLines_plain {c : Char} (hc : c ∉ lineBreaks) (rest : List Char) :
    splitLines (c :: rest) =
      match splitLines rest with
      | [] => [([c], [])]
      | (content, ending) :: more => (c :: content, ending) :: more := by
  have hpair : ¬(c = '\r' ∧ rest.head? = some '\n') := by
    rintro ⟨rfl, -⟩
    exact hc (by decide)
  rw [splitLines, if_neg hpair, if_neg hc]

theorem splitLines_break {c : Char} (hc : c ∈ lineBreaks)
    (hpair : c = '\r' → rest.head? ≠ some '\n') :
    splitLines (c :: rest) = ([], [c]) :: splitLines rest := by
  rw [splitLines, if_neg fun h => hpair h.1 h.2, if_pos hc]

theorem splitLines_pair (rest : List Char) :
    splitLines ('\r' :: '\n' :: rest) = ([], ['\r', '\n']) :: splitLines rest := by
  rw [splitLines, if_pos ⟨rfl, rfl⟩, splitLines_break (by decide) fun heq => absurd heq (by decide),
    tail_cons]

theorem splitLines_eq_nil (h : splitLines text = []) : text = [] := by
  cases text with
  | nil => rfl
  | cons c rest =>
    rw [splitLines] at h
    split at h
    · cases h
    · split at h
      · cases h
      · split at h <;> cases h

/-- A line at the front of a text. -/
theorem splitLines_isLine (h : IsLine content ending rest) :
    splitLines (content ++ ending ++ rest) = (content, ending) :: splitLines rest := by
  obtain ⟨hplain, hends, hnonempty⟩ := h
  induction content with
  | nil =>
    cases hends with
    | last => exact absurd rfl (hnonempty rfl)
    | pair rest => exact splitLines_pair rest
    | single hc hpair => exact splitLines_break hc hpair
  | cons c content ih =>
    rw [cons_append, cons_append, splitLines_plain (hplain c mem_cons_self)]
    by_cases hempty : ending = [] ∧ content = []
    · obtain ⟨rfl, rfl⟩ := hempty
      cases hends
      rfl
    · rw [ih (fun d hd => hplain d (mem_cons_of_mem c hd))
        fun hending hcontent => hempty ⟨hending, hcontent⟩]

/-- The first line of a text is a line. -/
theorem splitLines_eq_cons (h : splitLines text = line :: more) :
    ∃ rest, text = line.1 ++ line.2 ++ rest ∧ splitLines rest = more ∧
      IsLine line.1 line.2 rest := by
  induction text generalizing line more with
  | nil => cases h
  | cons c rest ih =>
    by_cases hc : c ∈ lineBreaks
    · by_cases hpair : c = '\r' ∧ rest.head? = some '\n'
      · obtain ⟨rfl, hhead⟩ := hpair
        obtain ⟨rest', rfl⟩ := List.head?_eq_some_iff.1 hhead
        rw [splitLines_pair] at h
        obtain ⟨rfl, rfl⟩ := List.cons.inj h
        exact ⟨rest', rfl, rfl, fun d hd => absurd hd not_mem_nil, .pair rest', nofun⟩
      · have hhead : c = '\r' → rest.head? ≠ some '\n' := fun heq hhead => hpair ⟨heq, hhead⟩
        rw [splitLines_break hc hhead] at h
        obtain ⟨rfl, rfl⟩ := List.cons.inj h
        exact ⟨rest, rfl, rfl, fun d hd => absurd hd not_mem_nil, .single hc hhead, nofun⟩
    · rw [splitLines_plain hc] at h
      cases hrest : splitLines rest with
      | nil =>
        obtain rfl := splitLines_eq_nil hrest
        obtain ⟨rfl, rfl⟩ := List.cons.inj h
        exact ⟨[], rfl, rfl, fun d hd => by rwa [mem_singleton.1 hd], .last,
          fun _ => cons_ne_nil _ _⟩
      | cons next more' =>
        rw [hrest] at h
        obtain ⟨rfl, rfl⟩ := List.cons.inj h
        obtain ⟨rest', hrest', hmore, hline⟩ := ih hrest
        refine ⟨rest', by rw [hrest']; rfl, hmore, ?_, hline.ends, fun _ => cons_ne_nil _ _⟩
        intro d hd
        rcases mem_cons.1 hd with rfl | hd
        · exact hc
        · exact hline.plain d hd

theorem IsLine.ne_nil (h : IsLine content ending rest) : content ++ ending ≠ [] := by
  intro heq
  exact h.nonempty (append_eq_nil_iff.1 heq).2 (append_eq_nil_iff.1 heq).1

/-! ## A line among others -/

theorem joinLines_splitLines (text : List Char) : joinLines (splitLines text) = text := by
  induction h : splitLines text generalizing text with
  | nil => exact (splitLines_eq_nil h).symm
  | cons line more ih =>
    obtain ⟨rest, rfl, hrest, -⟩ := splitLines_eq_cons h
    rw [joinLines, flatMap_cons, ← joinLines, ih rest hrest]

/-- The last lines of a text are those of what they are joined to. -/
theorem splitLines_joinLines (h : splitLines text = front ++ back) :
    splitLines (joinLines back) = back := by
  induction front generalizing text with
  | nil =>
    rw [nil_append] at h
    rw [← h, joinLines_splitLines]
  | cons line front ih =>
    obtain ⟨rest, -, hrest, -⟩ := splitLines_eq_cons h
    exact ih hrest

/-- The first lines of a text stay before another rest that begins with no newline, unless the old
rest does. -/
theorem splitLines_append (h : splitLines text = front ++ back) (hback : back ≠ [])
    (hhead : rest.head? ≠ some '\n') :
    splitLines (joinLines front ++ rest) = front ++ splitLines rest := by
  induction front generalizing text with
  | nil => rfl
  | cons line front ih =>
    obtain ⟨old, htext, hold, hline⟩ := splitLines_eq_cons h
    have hnext : IsLine line.1 line.2 (joinLines front ++ rest) := by
      refine ⟨hline.plain, ?_, hline.nonempty⟩
      have hends := hline.ends
      generalize line.2 = ending at hends
      cases hends with
      | last => exact absurd (append_eq_nil_iff.1 hold.symm).2 hback
      | pair old => exact .pair _
      | single hc hpair =>
        refine .single hc fun heq => ?_
        cases front with
        | nil => exact hhead
        | cons next front =>
          obtain ⟨last, hlast, -, hnext⟩ := splitLines_eq_cons hold
          have hne := hnext.ne_nil
          obtain ⟨d, tail, hd⟩ := exists_cons_of_ne_nil hne
          have hbefore := hpair heq
          rw [hlast, hd] at hbefore
          rw [joinLines, flatMap_cons, hd]
          exact hbefore
    rw [joinLines, flatMap_cons, ← joinLines, append_assoc, splitLines_isLine hnext, ih hold]
    rfl

/-- Another content of a line changes this line alone. -/
theorem splitLines_replace {new : List Char} (h : splitLines text = front ++ line :: back)
    (hne : new ≠ []) (hplain : ∀ c ∈ new, c ∉ lineBreaks) :
    splitLines (joinLines front ++ (new ++ line.2 ++ joinLines back)) =
      front ++ (new, line.2) :: back := by
  obtain ⟨c, rest, rfl⟩ := exists_cons_of_ne_nil hne
  have hhead : (c :: rest ++ line.2 ++ joinLines back).head? ≠ some '\n' := by
    intro heq
    exact hplain c mem_cons_self (by rw [Option.some.inj heq]; decide)
  have hback : splitLines (joinLines back) = back :=
    splitLines_joinLines (h.trans (append_cons front line back))
  obtain ⟨last, hlast, hmore, hline⟩ := splitLines_eq_cons (splitLines_joinLines h)
  obtain rfl : last = joinLines back := by rw [← joinLines_splitLines last, hmore]
  rw [splitLines_append h (cons_ne_nil _ _) hhead,
    splitLines_isLine ⟨hplain, hline.ends, fun _ => cons_ne_nil _ _⟩, hback]

/-! ## Breaks -/

/-- How many lines have a break. -/
def breakCount (lines : List (List Char × List Char)) : ℕ := lines.countP fun line => line.2 ≠ []

theorem terminated_append (front back : List (List Char × List Char)) :
    breakCount (front ++ back) = breakCount front + breakCount back := countP_append

/-- What has no break runs into the first line. -/
theorem terminated_plain {new : List Char} (hplain : ∀ c ∈ new, c ∉ lineBreaks)
    (rest : List Char) : breakCount (splitLines (new ++ rest)) = breakCount (splitLines rest) := by
  induction new with
  | nil => rfl
  | cons c new ih =>
    rw [cons_append, splitLines_plain (hplain c mem_cons_self),
      ← ih fun d hd => hplain d (mem_cons_of_mem c hd)]
    cases splitLines (new ++ rest) <;> rfl

/-- A line that loses its break runs into the next one. -/
theorem terminated_merge {new : List Char} (h : splitLines text = front ++ line :: back)
    (hbreak : line.2 ≠ []) (hne : new ≠ []) (hplain : ∀ c ∈ new, c ∉ lineBreaks) :
    breakCount (splitLines (joinLines front ++ (new ++ joinLines back))) <
      breakCount (splitLines text) := by
  obtain ⟨c, rest, rfl⟩ := exists_cons_of_ne_nil hne
  have hhead : (c :: rest ++ joinLines back).head? ≠ some '\n' := by
    intro heq
    exact hplain c mem_cons_self (by rw [Option.some.inj heq]; decide)
  have hback : splitLines (joinLines back) = back :=
    splitLines_joinLines (h.trans (append_cons front line back))
  have hline : breakCount (line :: back) = breakCount back + 1 :=
    countP_cons_of_pos (by simpa using hbreak)
  rw [splitLines_append h (cons_ne_nil _ _) hhead, h, terminated_append, terminated_append,
    terminated_plain hplain, hback, hline]
  omega

example : splitLines ['a', '\r', '\n', 'b', '\r', 'c'] =
    [(['a'], ['\r', '\n']), (['b'], ['\r']), (['c'], [])] := by decide

end Lib.Python
