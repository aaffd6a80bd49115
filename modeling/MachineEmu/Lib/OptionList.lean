import MachineEmu.Lib.Splitting
import Mathlib.Data.List.Induction

/-!
# Option lists

A text of options, each a name with a value, with a comma between two options. In a value a doubled
comma stands for a comma. An option may have no value.

* `items` — the options of a text, read character by character.
* `AtOption` — an option starts after a text.
* `exists_rest` — what follows a value adds to it and then has options of its own.
* `items_option` — an option that is written where one starts.
* `field_of_items` — an option with a value starts a field of the text, which is what stands between
  two commas.
-/

namespace Lib

open List

/-- An option: its name and its value. -/
abbrev Item : Type := List Char × Option (List Char)

/-- What is read: a name, a value, or a value with a comma that may be the first of two. -/
inductive Reading
  | name (name : List Char)
  | value (name value : List Char)
  | comma (name value : List Char)

/-- The options that are read in full, and what is read. -/
abbrev OptionReader : Type := List Item × Reading

/-- One character. -/
def readChar : OptionReader → Char → OptionReader
  | (done, .name name), c =>
    if c = ',' then (done ++ [(name, none)], .name [])
    else if c = '=' then (done, .value name [])
    else (done, .name (name ++ [c]))
  | (done, .value name value), c =>
    if c = ',' then (done, .comma name value) else (done, .value name (value ++ [c]))
  | (done, .comma name value), c =>
    if c = ',' then (done, .value name (value ++ [',']))
    else if c = '=' then (done ++ [(name, some value)], .value [] [])
    else (done ++ [(name, some value)], .name [c])

/-- The options at the end of the text. -/
def closeOptions : OptionReader → List Item
  | (done, .name name) => if name = [] then done else done ++ [(name, none)]
  | (done, .value name value) => done ++ [(name, some value)]
  | (done, .comma name value) => done ++ [(name, some value)]

/-- A text is read. -/
def readOptions (r : OptionReader) (text : List Char) : OptionReader := text.foldl readChar r

/-- The options of a text. -/
def items (text : List Char) : List Item := closeOptions (readOptions ([], .name []) text)

/-- An option starts here. -/
def Reading.atOption : Reading → Bool
  | .name n => n = []
  | .value _ _ => false
  | .comma _ _ => true

/-- An option starts after the text. -/
def AtOption (text : List Char) : Prop := (readOptions ([], .name []) text).2.atOption = true

instance (text : List Char) : Decidable (AtOption text) :=
  inferInstanceAs (Decidable (_ = true))

section Reading

variable {done : List Item} {name value text : List Char}

@[simp] theorem readOptions_nil (r : OptionReader) : readOptions r [] = r := rfl

@[simp] theorem readOptions_cons (r : OptionReader) (c : Char) (text : List Char) :
    readOptions r (c :: text) = readOptions (readChar r c) text := rfl

theorem readOptions_append (r : OptionReader) (text more : List Char) :
    readOptions r (text ++ more) = readOptions (readOptions r text) more := foldl_append

/-- A text without a comma goes on with the value. -/
theorem readOptions_value {more : List Char} (h : ',' ∉ more) :
    readOptions (done, .value name value) more = (done, .value name (value ++ more)) := by
  induction more generalizing value with
  | nil => simp
  | cons c more ih =>
    rw [mem_cons, not_or] at h
    rw [readOptions_cons, readChar, if_neg (Ne.symm h.1), ih h.2, append_assoc]
    rfl

/-- A text without a comma and an equals sign goes on with the name. -/
theorem readOptions_name {more : List Char} (hcomma : ',' ∉ more) (hequals : '=' ∉ more) :
    readOptions (done, .name name) more = (done, .name (name ++ more)) := by
  induction more generalizing name with
  | nil => simp
  | cons c more ih =>
    rw [mem_cons, not_or] at hcomma hequals
    rw [readOptions_cons, readChar, if_neg (Ne.symm hcomma.1), if_neg (Ne.symm hequals.1),
      ih hcomma.2 hequals.2, append_assoc]
    rfl

/-- What was read before stays in front. -/
theorem closeOptions_readOptions (done : List Item) (r : Reading) (text : List Char) :
    closeOptions (readOptions (done, r) text) =
      done ++ closeOptions (readOptions ([], r) text) := by
  have hclose : ∀ (done : List Item) (r : Reading),
      closeOptions (done, r) = done ++ closeOptions ([], r) := by
    intro done r
    cases r with
    | name name =>
      simp only [closeOptions]
      split_ifs <;> simp
    | value name value => rfl
    | comma name value => rfl
  have hchar : ∀ (done : List Item) (r : Reading) (c : Char), readChar (done, r) c =
      (done ++ (readChar ([], r) c).1, (readChar ([], r) c).2) := by
    intro done r c
    cases r <;> simp only [readChar] <;> split_ifs <;> simp
  have hread : ∀ (text : List Char) (done : List Item) (r : Reading), readOptions (done, r) text =
      (done ++ (readOptions ([], r) text).1, (readOptions ([], r) text).2) := by
    intro text
    induction text with
    | nil => simp
    | cons c text ih =>
      intro done r
      rw [readOptions_cons, readOptions_cons, hchar, ih]
      rw [ih (readChar ([], r) c).1 (readChar ([], r) c).2, append_assoc]
  rw [hread, hclose, append_assoc, ← hclose]

/-- What follows a value adds to it and then has options of its own, whatever the value is. -/
theorem exists_rest (text : List Char) : ∃ (more : List Char) (rest : List Item),
    ∀ done name value, closeOptions (readOptions (done, .value name value) text) =
      done ++ (name, some (value ++ more)) :: rest := by
  have hboth : (∃ (more : List Char) (rest : List Item),
      ∀ done name value, closeOptions (readOptions (done, .value name value) text) =
        done ++ (name, some (value ++ more)) :: rest) ∧
      ∃ (more : List Char) (rest : List Item),
      ∀ done name value, closeOptions (readOptions (done, .comma name value) text) =
        done ++ (name, some (value ++ more)) :: rest := by
    induction text with
    | nil => exact ⟨⟨[], [], by simp [closeOptions]⟩, ⟨[], [], by simp [closeOptions]⟩⟩
    | cons c text ih =>
      obtain ⟨⟨more, rest, hvalue⟩, ⟨more', rest', hcomma⟩⟩ := ih
      constructor
      · by_cases hc : c = ','
        · exact ⟨more', rest', by simp [readChar, hc, hcomma]⟩
        · exact ⟨c :: more, rest, by simp [readChar, hc, hvalue]⟩
      · by_cases hc : c = ','
        · exact ⟨',' :: more, rest, by simp [readChar, hc, hvalue]⟩
        · by_cases hequals : c = '='
          · exact ⟨[], ([], some more) :: rest, by simp [readChar, hequals, hvalue]⟩
          · refine ⟨[], closeOptions (readOptions ([], .name [c]) text), fun done name value => ?_⟩
            rw [readOptions_cons, readChar, if_neg hc, if_neg hequals, closeOptions_readOptions]
            simp
  exact hboth.1

/-- Where an option starts, a name with an equals sign starts one. -/
theorem readOptions_option {r : OptionReader} (h : r.2.atOption = true) {c : Char}
    (hname : ',' ∉ c :: name) (hequals : '=' ∉ c :: name) :
    readOptions r (c :: (name ++ ['='])) = (closeOptions r, .value (c :: name) []) := by
  rw [mem_cons, not_or] at hname hequals
  have hstart : readChar r c = (closeOptions r, .name [c]) := by
    obtain ⟨done, reading⟩ := r
    cases reading with
    | name start =>
      obtain rfl : start = [] := by simpa [Reading.atOption] using h
      simp [readChar, closeOptions, Ne.symm hname.1, Ne.symm hequals.1]
    | value start value => cases h
    | comma start value => simp [readChar, closeOptions, Ne.symm hname.1, Ne.symm hequals.1]
  rw [readOptions_cons, hstart, readOptions_append, readOptions_name hname.2 hequals.2]
  simp [readChar]

end Reading

/-! ## Where options start in the text -/

/-- A field starts after the text: it is empty or ends with a comma. -/
def AtField (text : List Char) : Prop := text = [] ∨ text.getLast? = some ','

/-- The name with an equals sign stands at the start of a field. -/
def Opened (text name : List Char) : Prop :=
  ∃ front back, text = front ++ (name ++ '=' :: back) ∧ AtField front

variable {text : List Char}

theorem Opened.append {name : List Char} (h : Opened text name) (more : List Char) :
    Opened (text ++ more) name := by
  obtain ⟨front, back, rfl, hfront⟩ := h
  exact ⟨front, back ++ more, by simp, hfront⟩

/-- What is known of the options that were read from a text. -/
structure Traced (text : List Char) (r : OptionReader) : Prop where
  done : ∀ name value, (name, some value) ∈ r.1 → Opened text name
  name : ∀ name, r.2 = .name name → ∃ front, text = front ++ name ∧ AtField front
  value : ∀ name value, r.2 = .value name value → Opened text name
  comma : ∀ name value, r.2 = .comma name value → Opened text name ∧ text.getLast? = some ','

theorem Traced.readChar {r : OptionReader} (h : Traced text r) (c : Char) :
    Traced (text ++ [c]) (Lib.readChar r c) := by
  obtain ⟨done, reading⟩ := r
  have hdone : ∀ name value, (name, some value) ∈ done → Opened (text ++ [c]) name :=
    fun name value hmem => (h.done name value hmem).append [c]
  cases reading with
  | name name =>
    obtain ⟨front, rfl, hfront⟩ := h.name name rfl
    simp only [Lib.readChar]
    split_ifs with hcomma hequals
    · refine ⟨?_, ?_, by simp, by simp⟩
      · intro other value hmem
        refine hdone other value ?_
        simpa using hmem
      · rintro other ⟨⟩
        exact ⟨front ++ name ++ [c], by simp, .inr (by simp [hcomma])⟩
    · refine ⟨hdone, by simp, ?_, by simp⟩
      rintro other value ⟨⟩
      exact ⟨front, [], by simp [hequals], hfront⟩
    · refine ⟨hdone, ?_, by simp, by simp⟩
      rintro other ⟨⟩
      exact ⟨front, by simp, hfront⟩
  | value name value =>
    have hopened := (h.value name value rfl).append [c]
    simp only [Lib.readChar]
    split_ifs with hcomma
    · refine ⟨hdone, by simp, by simp, ?_⟩
      rintro other value' ⟨⟩
      exact ⟨hopened, by simp [hcomma]⟩
    · refine ⟨hdone, by simp, ?_, by simp⟩
      rintro other value' ⟨⟩
      exact hopened
  | comma name value =>
    obtain ⟨hopened, hlast⟩ := h.comma name value rfl
    have hdone' : ∀ other value', (other, some value') ∈ done ++ [(name, some value)] →
        Opened (text ++ [c]) other := by
      intro other value' hmem
      rcases mem_append.1 hmem with hmem | hmem
      · exact hdone other value' hmem
      · obtain ⟨rfl, rfl⟩ : other = name ∧ value' = value := by simpa using hmem
        exact hopened.append [c]
    simp only [Lib.readChar]
    split_ifs with hcomma hequals
    · refine ⟨hdone, by simp, ?_, by simp⟩
      rintro other value' ⟨⟩
      exact hopened.append [c]
    · refine ⟨hdone', by simp, ?_, by simp⟩
      rintro other value' ⟨⟩
      exact ⟨text, [], by simp [hequals], .inr hlast⟩
    · refine ⟨hdone', ?_, by simp, by simp⟩
      rintro other ⟨⟩
      exact ⟨text, rfl, .inr hlast⟩

theorem traced (text : List Char) : Traced text (readOptions ([], .name []) text) := by
  induction text using List.reverseRecOn with
  | nil => exact ⟨by simp, by simp [AtField], by simp, by simp⟩
  | append_singleton text c ih =>
    rw [readOptions_append]
    exact ih.readChar c

theorem splitOn_append_of_notMem (h : ',' ∉ text) (more : List Char) :
    (text ++ more).splitOn ',' = (more.splitOn ',').modifyHead (text ++ ·) := by
  induction text with
  | nil =>
    cases hmore : more.splitOn ',' with
    | nil => exact absurd hmore (splitOn_ne_nil _ _)
    | cons field fields => simp [hmore]
  | cons c text ih =>
    rw [mem_cons, not_or] at h
    rw [cons_append, splitOn_cons_eq_if_modifyHead, if_neg (by simpa using Ne.symm h.1), ih h.2]
    cases more.splitOn ',' <;> simp

/-- What starts a field is the beginning of one of the fields. -/
theorem Opened.field {name : List Char} (h : Opened text name) (hname : ',' ∉ name) :
    ∃ field ∈ text.splitOn ',', name ++ ['='] <+: field := by
  obtain ⟨front, back, rfl, hfront⟩ := h
  have hhead : ∃ field ∈ (name ++ '=' :: back).splitOn ',', name ++ ['='] <+: field := by
    have hkey : ',' ∉ name ++ ['='] := by simp [hname]
    have hsplit := splitOn_append_of_notMem hkey back
    rw [append_assoc] at hsplit
    cases hback : back.splitOn ',' with
    | nil => exact absurd hback (splitOn_ne_nil _ _)
    | cons field fields =>
      rw [hback] at hsplit
      refine ⟨name ++ ['='] ++ field, ?_, prefix_append _ _⟩
      rw [show name ++ '=' :: back = name ++ (['='] ++ back) from rfl, hsplit]
      exact mem_cons_self
  rcases hfront with rfl | hfront
  · exact hhead
  · obtain ⟨front', rfl⟩ := List.getLast?_eq_some_iff.1 hfront
    obtain ⟨field, hfield, hprefix⟩ := hhead
    refine ⟨field, ?_, hprefix⟩
    rw [append_assoc, singleton_append, splitOn_append_cons_self]
    exact mem_append_right _ hfield

/-! ## Writing an option into a text -/

/-- An option that is written where one starts is read, with what follows its value. -/
theorem items_option {front : List Char} (h : AtOption front) (c : Char) (name : List Char)
    (hname : ',' ∉ c :: name) (hequals : '=' ∉ c :: name) (back : List Char) :
    ∃ (more : List Char) (rest : List Item), ∀ value : List Char, ',' ∉ value →
      items (front ++ (c :: (name ++ ['=']) ++ value ++ back)) =
        items front ++ (c :: name, some (value ++ more)) :: rest := by
  obtain ⟨more, rest, hrest⟩ := exists_rest back
  refine ⟨more, rest, fun value hvalue => ?_⟩
  unfold items
  rw [readOptions_append, readOptions_append, readOptions_append,
    readOptions_option h hname hequals, readOptions_value hvalue, hrest, nil_append]

/-- An option that is written at the end. -/
theorem items_last {front : List Char} (h : AtOption front) (c : Char) (name : List Char)
    {value : List Char} (hname : ',' ∉ c :: name) (hequals : '=' ∉ c :: name) (hvalue : ',' ∉ value) :
    items (front ++ (c :: (name ++ ['=']) ++ value)) = items front ++ [(c :: name, some value)] := by
  unfold items
  rw [readOptions_append, readOptions_append, readOptions_option h hname hequals,
    readOptions_value hvalue, nil_append]
  rfl

/-- A text without a comma that is written elsewhere in front of a field is in a value. -/
theorem items_value {front : List Char} (hfield : AtField front) (h : ¬ AtOption front)
    (back : List Char) :
    ∃ (name : List Char) (start more : List Char) (done rest : List Item), Opened front name ∧
      ∀ value : List Char, ',' ∉ value → items (front ++ (value ++ back)) =
        done ++ (name, some (start ++ value ++ more)) :: rest := by
  have htraced := traced front
  obtain ⟨done, name, start, hread⟩ : ∃ done name start,
      readOptions ([], .name []) front = (done, .value name start) := by
    rcases hfield with rfl | hfield
    · exact absurd rfl h
    · obtain ⟨front, rfl⟩ := List.getLast?_eq_some_iff.1 hfield
      unfold AtOption at h
      rw [readOptions_append] at h ⊢
      generalize readOptions ([], .name []) front = r at h ⊢
      obtain ⟨done, reading⟩ := r
      cases reading with
      | name other => exact absurd (by simp [readChar, Reading.atOption]) h
      | value other start => exact absurd (by simp [readChar, Reading.atOption]) h
      | comma other start => exact ⟨done, other, start ++ [','], by simp [readChar]⟩
  obtain ⟨more, rest, hrest⟩ := exists_rest back
  refine ⟨name, start, more, done, rest, htraced.value name start (by rw [hread]), ?_⟩
  intro value hvalue
  unfold items
  rw [readOptions_append, readOptions_append, hread, readOptions_value hvalue, hrest]

/-- A comma ends the last option of a text, where no option starts there already. -/
theorem items_comma (h : ¬ AtOption text) :
    AtOption (text ++ [',']) ∧ items (text ++ [',']) = items text := by
  unfold AtOption items at *
  rw [readOptions_append]
  generalize readOptions ([], .name []) text = r at h ⊢
  obtain ⟨done, reading⟩ := r
  cases reading with
  | name name =>
    have hne : name ≠ [] := by simpa [Reading.atOption] using h
    simp [readChar, Reading.atOption, closeOptions, hne]
  | value name value => simp [readChar, Reading.atOption, closeOptions]
  | comma name value => exact absurd rfl h

/-- A comma where an option starts makes an option without a name, or goes on with a value. -/
theorem items_comma_of_atOption (h : AtOption text) :
    (AtOption (text ++ [',']) ∧ items (text ++ [',']) = items text ++ [([], none)]) ∨
    ∃ (done : List Item) (name value : List Char), Opened text name ∧
      items text = done ++ [(name, some value)] ∧
      ∀ more, ',' ∉ more →
        items (text ++ [','] ++ more) = done ++ [(name, some (value ++ ',' :: more))] := by
  have htraced := traced text
  unfold AtOption items at *
  simp only [readOptions_append]
  generalize readOptions ([], .name []) text = r at h htraced ⊢
  obtain ⟨done, reading⟩ := r
  cases reading with
  | name name =>
    obtain rfl : name = [] := by simpa [Reading.atOption] using h
    left
    simp [readChar, Reading.atOption, closeOptions]
  | value name value => cases h
  | comma name value =>
    right
    refine ⟨done, name, value, (htraced.comma name value rfl).1, rfl, fun more hmore => ?_⟩
    simp [readChar, readOptions_value hmore, closeOptions]

end Lib
