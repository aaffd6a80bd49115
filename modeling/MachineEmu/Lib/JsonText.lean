import MachineEmu.Lib.Json

/-!
# JSON texts

What the text of a value looks like, as far as brackets and strings go. A text that begins with a
bracket ends where this bracket is closed, so no text in brackets is the front of another one.

* `Value` — the text of a value without space around it.
* `skip` — what comes after the bracket that closes the outermost one.
* `Reader` — a function that reads texts.
* `Reader.line` — the first line of a text of an object is read as nothing else than the object.
-/

namespace Lib

open List

namespace JsonText

/-- Space, tab, line feed and carriage return. -/
def isSpace (c : UInt8) : Bool := c == 32 || c == 9 || c == 10 || c == 13

def Spaces (bs : List UInt8) : Prop := ∀ c ∈ bs, isSpace c = true

def quote : UInt8 := 34
def backslash : UInt8 := 92

/-- An opening bracket or brace. -/
def isOpening (c : UInt8) : Bool := c == 91 || c == 123

/-- A closing bracket or brace. -/
def isClosing (c : UInt8) : Bool := c == 93 || c == 125

/-- A byte outside of strings that is neither a quote nor a bracket. -/
def isPlain (c : UInt8) : Bool := c != quote && !isOpening c && !isClosing c

/-- What stands between the quotes of a string. -/
inductive Chars : List UInt8 → Prop
  | nil : Chars []
  | escape {cs : List UInt8} (c : UInt8) (hcs : Chars cs) : Chars (backslash :: c :: cs)
  | plain {c : UInt8} {cs : List UInt8} (hc : c ≠ quote ∧ c ≠ backslash) (hcs : Chars cs) :
      Chars (c :: cs)

/-- What stands between brackets: strings are closed, and so are the brackets outside of them. -/
inductive Balanced : List UInt8 → Prop
  | nil : Balanced []
  | plain {c : UInt8} {bs : List UInt8} (hc : isPlain c = true) (hbs : Balanced bs) :
      Balanced (c :: bs)
  | string {cs bs : List UInt8} (hcs : Chars cs) (hbs : Balanced bs) :
      Balanced (quote :: (cs ++ quote :: bs))
  | nested {o c : UInt8} {inner bs : List UInt8} (ho : isOpening o = true) (hc : isClosing c = true)
      (hinner : Balanced inner) (hbs : Balanced bs) : Balanced (o :: (inner ++ c :: bs))

/-- The text of a value: a literal or a number, a string, an array or an object. -/
inductive Value : List UInt8 → Prop
  | scalar {bs : List UInt8} (hne : bs ≠ [])
      (hbs : ∀ c ∈ bs, isPlain c = true ∧ isSpace c = false) : Value bs
  | string {cs : List UInt8} (hcs : Chars cs) : Value (quote :: (cs ++ [quote]))
  | nested {o c : UInt8} {inner : List UInt8} (ho : isOpening o = true) (hc : isClosing c = true)
      (hinner : Balanced inner) : Value (o :: (inner ++ [c]))

/-! ## Brackets -/

/-- Where a byte stands. -/
inductive Place where
  | outside
  | string
  | escaped

/-- What comes after the bracket that closes the outermost one; `depth` more are open. -/
def skip : Nat → Place → List UInt8 → Option (List UInt8)
  | _, _, [] => none
  | depth, .escaped, _ :: rest => skip depth .string rest
  | depth, .string, c :: rest =>
    if c = quote then skip depth .outside rest
    else if c = backslash then skip depth .escaped rest
    else skip depth .string rest
  | depth, .outside, c :: rest =>
    if c = quote then skip depth .string rest
    else if isOpening c then skip (depth + 1) .outside rest
    else if isClosing c then
      match depth with
      | 0 => some rest
      | depth + 1 => skip depth .outside rest
    else skip depth .outside rest

theorem skip_quote (depth : Nat) (rest : List UInt8) :
    skip depth .outside (quote :: rest) = skip depth .string rest := by
  cases depth <;> rfl

variable {c : UInt8}

theorem skip_opening (ho : isOpening c = true) (hne : c ≠ quote) (depth : Nat)
    (rest : List UInt8) : skip depth .outside (c :: rest) = skip (depth + 1) .outside rest := by
  cases depth <;> simp [skip, ho, hne]

theorem skip_plain (hc : isPlain c = true) (depth : Nat) (rest : List UInt8) :
    skip depth .outside (c :: rest) = skip depth .outside rest := by
  simp only [isPlain, Bool.and_eq_true, bne_iff_ne, Bool.not_eq_true'] at hc
  cases depth <;> simp [skip, hc]

theorem not_quote_of_opening (h : isOpening c = true) : c ≠ quote := by
  rintro rfl
  exact absurd h (by decide)

theorem closing_of (h : isClosing c = true) : c ≠ quote ∧ isOpening c = false := by
  simp only [isClosing, Bool.or_eq_true, beq_iff_eq] at h
  rcases h with rfl | rfl <;> decide

theorem skip_chars {cs : List UInt8} (h : Chars cs) (depth : Nat) (rest : List UInt8) :
    skip depth .string (cs ++ quote :: rest) = skip depth .outside rest := by
  induction h with
  | nil => rw [nil_append, skip, if_pos rfl]
  | escape c _ ih =>
    have hne : ¬ backslash = quote := by decide
    rw [cons_append, cons_append, skip, if_neg hne, if_pos rfl, skip, ih]
  | plain hc _ ih => rw [cons_append, skip, if_neg hc.1, if_neg hc.2, ih]

theorem skip_closing (hc : isClosing c = true) (rest : List UInt8) :
    skip 0 .outside (c :: rest) = some rest ∧
      ∀ depth, skip (depth + 1) .outside (c :: rest) = skip depth .outside rest := by
  obtain ⟨hquote, hopen⟩ := closing_of hc
  constructor
  · rw [skip, if_neg hquote, if_neg (by simp [hopen]), if_pos hc]
  · intro depth
    rw [skip, if_neg hquote, if_neg (by simp [hopen]), if_pos hc]

/-- What is balanced is skipped. -/
theorem skip_balanced {bs : List UInt8} (h : Balanced bs) (depth : Nat) (rest : List UInt8) :
    skip depth .outside (bs ++ rest) = skip depth .outside rest := by
  induction h generalizing depth rest with
  | nil => rfl
  | @plain c bs hc _ ih =>
    rw [cons_append, skip_plain hc, ih]
  | @string cs bs hcs _ ih =>
    rw [cons_append, append_assoc, skip_quote, cons_append, skip_chars hcs, ih]
  | @nested o c inner bs ho hc _ _ ihinner ihbs =>
    rw [cons_append, append_assoc, skip_opening ho (not_quote_of_opening ho),
      cons_append, ihinner, (skip_closing hc _).2, ihbs]

/-- A value in brackets ends where its bracket is closed. -/
theorem skip_inner {inner : List UInt8} (h : Balanced inner) (hc : isClosing c = true)
    (rest : List UInt8) : skip 0 .outside (inner ++ c :: rest) = some rest := by
  rw [skip_balanced h, (skip_closing hc rest).1]

/-! ## Values -/

theorem Value.head {body : List UInt8} (h : Value body) :
    ∃ c rest, body = c :: rest ∧ isSpace c = false := by
  cases h with
  | scalar hne hbs =>
    obtain ⟨c, rest, rfl⟩ := exists_cons_of_ne_nil hne
    exact ⟨c, rest, rfl, (hbs c mem_cons_self).2⟩
  | string => exact ⟨_, _, rfl, by decide⟩
  | nested ho =>
    refine ⟨_, _, rfl, ?_⟩
    simp only [isOpening, Bool.or_eq_true, beq_iff_eq] at ho
    rcases ho with rfl | rfl <;> decide

theorem Value.nested_of {o : UInt8} {rest : List UInt8} (ho : isOpening o = true)
    (h : Value (o :: rest)) :
    ∃ inner c, rest = inner ++ [c] ∧ Balanced inner ∧ isClosing c = true := by
  generalize hbody : o :: rest = body at h
  cases h with
  | scalar _ hbs =>
    rw [← hbody] at hbs
    have hplain := (hbs o mem_cons_self).1
    simp [isPlain, ho] at hplain
  | string =>
    cases hbody
    exact absurd ho (by decide)
  | nested _ hc hinner =>
    cases hbody
    exact ⟨_, _, rfl, hinner, hc⟩

/-- Two texts that begin alike and with a bracket are the same. -/
theorem Value.unique {o : UInt8} {rest rest' later later' : List UInt8} (ho : isOpening o = true)
    (h : Value (o :: rest)) (h' : Value (o :: rest')) (heq : rest ++ later = rest' ++ later') :
    rest = rest' ∧ later = later' := by
  obtain ⟨inner, c, rfl, hinner, hc⟩ := h.nested_of ho
  obtain ⟨inner', c', rfl, hinner', hc'⟩ := h'.nested_of ho
  have hskip := skip_inner hinner hc later
  have hskip' := skip_inner hinner' hc' later'
  rw [append_assoc, append_assoc, singleton_append, singleton_append] at heq
  rw [heq, hskip'] at hskip
  have hlater := (Option.some.inj hskip).symm
  refine ⟨?_, hlater⟩
  rw [hlater] at heq
  have hfront : inner ++ [c] ++ later' = inner' ++ [c'] ++ later' := by simpa using heq
  exact append_cancel_right hfront

/-- The space in front of a text is the same for all ways to read it. -/
theorem spaces_unique {pre pre' rest rest' : List UInt8} {c' : UInt8} (hpre : Spaces pre)
    (hpre' : Spaces pre') (hc : isSpace c = false) (hc' : isSpace c' = false)
    (h : pre ++ c :: rest = pre' ++ c' :: rest') : pre = pre' ∧ c = c' ∧ rest = rest' := by
  induction pre generalizing pre' with
  | nil =>
    cases pre' with
    | nil =>
      cases h
      exact ⟨rfl, rfl, rfl⟩
    | cons b bs =>
      cases h
      rw [hpre' c mem_cons_self] at hc
      cases hc
  | cons b bs ih =>
    cases pre' with
    | nil =>
      cases h
      rw [hpre c' mem_cons_self] at hc'
      cases hc'
    | cons b' bs' =>
      obtain ⟨rfl, hrest⟩ := List.cons.inj h
      obtain ⟨rfl, hcs⟩ := ih (fun x hx => hpre x (mem_cons_of_mem _ hx))
        (fun x hx => hpre' x (mem_cons_of_mem _ hx)) hrest
      exact ⟨rfl, hcs⟩

/-! ## Reading -/

/-- A function that reads texts. It accepts texts of values with space around them, which does not
matter, and an object is written in braces. -/
structure Reader where
  fromSlice : List UInt8 → Option Json
  text : ∀ {bs v}, fromSlice bs = some v → ∃ pre body post, bs = pre ++ body ++ post ∧
    Spaces pre ∧ Spaces post ∧ Value body ∧ (v.isObj = true → body.head? = some 123)
  spaces : ∀ {pre body post}, Spaces pre → Spaces post →
    fromSlice (pre ++ body ++ post) = fromSlice body

namespace Reader

variable (reader : Reader)

/-- Space is no text. -/
theorem fromSlice_spaces {bs : List UInt8} (h : Spaces bs) : reader.fromSlice bs = none := by
  cases hread : reader.fromSlice bs with
  | none => rfl
  | some v =>
    obtain ⟨pre, body, post, rfl, -, -, hbody, -⟩ := reader.text hread
    obtain ⟨c, rest, rfl, hc⟩ := hbody.head
    rw [h c (by simp)] at hc
    cases hc

/-- When a front of the text of an object can be read, it is the object, and what comes after it is
space. -/
theorem line {front later : List UInt8} {v v' : Json} (hv : v.isObj = true)
    (h : reader.fromSlice (front ++ later) = some v) (hfront : reader.fromSlice front = some v') :
    v' = v ∧ Spaces later := by
  obtain ⟨pre, body, post, htext, hpre, hpost, hbody, hobj⟩ := reader.text h
  obtain ⟨pre', body', post', rfl, hpre', hpost', hbody', -⟩ := reader.text hfront
  obtain ⟨c, rest, rfl, hc⟩ := hbody.head
  obtain ⟨c', rest', rfl, hc'⟩ := hbody'.head
  have hopening : isOpening c = true := by
    have hbrace := hobj hv
    simp only [List.head?_cons, Option.some.injEq] at hbrace
    rw [hbrace]
    decide
  have hsplit : pre' ++ c' :: (rest' ++ (post' ++ later)) = pre ++ c :: (rest ++ post) := by
    simpa using htext
  obtain ⟨rfl, rfl, hrest⟩ := spaces_unique hpre' hpre hc' hc hsplit
  obtain ⟨rfl, hlater⟩ := Value.unique hopening hbody' hbody hrest
  constructor
  · rw [htext, reader.spaces hpre hpost] at h
    rw [reader.spaces hpre hpost', h] at hfront
    exact (Option.some.inj hfront).symm
  · intro b hb
    exact hpost b (by rw [← hlater]; exact mem_append_right _ hb)

end Reader

end JsonText

end Lib
