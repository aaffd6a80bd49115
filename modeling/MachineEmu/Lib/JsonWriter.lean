import MachineEmu.Lib.JsonText
import MachineEmu.Lib.Sha256

/-!
# The text that a value is written as

The compact text of a value is a JSON text in UTF-8 without a line feed. A character of a string
takes at most six bytes for each byte of its own.

* `utf8` — characters in UTF-8.
* `quotedBytes` — a string between its quotes, with bounds for its length.
* `Json.bytes` — the text of a value.
* `Json.value_bytes`, `Json.lineFeed_notMem_bytes` — it is a text, and it is one line.
-/

namespace Lib

open JsonText List

/-! ## UTF-8 -/

/-- Characters in UTF-8. -/
def utf8 (cs : List Char) : List UInt8 := cs.flatMap String.utf8EncodeChar

@[simp] theorem utf8_nil : utf8 [] = [] := rfl

@[simp] theorem utf8_cons (c : Char) (cs : List Char) :
    utf8 (c :: cs) = String.utf8EncodeChar c ++ utf8 cs := rfl

@[simp] theorem utf8_append (cs ds : List Char) : utf8 (cs ++ ds) = utf8 cs ++ utf8 ds :=
  flatMap_append

theorem mem_utf8 {cs : List Char} {b : UInt8} :
    b ∈ utf8 cs ↔ ∃ c ∈ cs, b ∈ String.utf8EncodeChar c := mem_flatMap

theorem toList_toUTF8 (s : String) : s.toUTF8.toList = utf8 s.toList := by
  have hencode : s.toByteArray = s.toList.utf8Encode := by
    rw [← String.toByteArray_ofList, String.ofList_toList]
  rw [String.toUTF8_eq_toByteArray, Sha256.toList_eq, hencode, List.utf8Encode,
    toList_data_toByteArray]
  rfl

/-- A character is a byte below 128, or all of its bytes are above. -/
theorem utf8EncodeChar_cases (c : Char) :
    (c.toNat < 128 ∧ String.utf8EncodeChar c = [UInt8.ofNat c.toNat]) ∨
      (128 ≤ c.toNat ∧ ∀ b ∈ String.utf8EncodeChar c, 128 ≤ b) := by
  unfold String.utf8EncodeChar
  simp only [Char.toNat]
  split
  · exact .inl ⟨by omega, rfl⟩
  · refine .inr ⟨by omega, ?_⟩
    split
    · simp only [mem_cons, not_mem_nil, or_false, forall_eq_or_imp, forall_eq,
        UInt8.le_iff_toNat_le, UInt8.toNat_ofNat', UInt8.reduceToNat]
      omega
    · split
      · simp only [mem_cons, not_mem_nil, or_false, forall_eq_or_imp, forall_eq,
          UInt8.le_iff_toNat_le, UInt8.toNat_ofNat', UInt8.reduceToNat]
        omega
      · simp only [mem_cons, not_mem_nil, or_false, forall_eq_or_imp, forall_eq,
          UInt8.le_iff_toNat_le, UInt8.toNat_ofNat', UInt8.reduceToNat]
        omega

/-- A byte below 128 stands for the character with its number. -/
theorem toNat_of_mem_utf8EncodeChar {c : Char} {b : UInt8} (hb : b < 128)
    (h : b ∈ String.utf8EncodeChar c) : c.toNat = b.toNat := by
  rcases utf8EncodeChar_cases c with ⟨hc, hencode⟩ | ⟨-, hhigh⟩
  · rw [hencode, mem_singleton] at h
    rw [h, UInt8.toNat_ofNat', Nat.mod_eq_of_lt (by omega)]
  · exact absurd (hhigh b h) (UInt8.not_le.2 hb)

theorem utf8_ascii {cs : List Char} (h : ∀ c ∈ cs, c.toNat < 128) :
    utf8 cs = cs.map fun c => UInt8.ofNat c.toNat := by
  induction cs with
  | nil => rfl
  | cons c cs ih =>
    obtain ⟨hc, hcs⟩ := forall_mem_cons.1 h
    rcases utf8EncodeChar_cases c with ⟨-, hencode⟩ | ⟨hhigh, -⟩
    · rw [utf8_cons, hencode, ih hcs]
      rfl
    · omega

/-! ## Strings -/

theorem hexDigit_toNat {n : Nat} (h : n < 16) :
    (Json.hexDigit n).toNat = 48 + n ∧ n < 10 ∨ (Json.hexDigit n).toNat = 87 + n ∧ 10 ≤ n := by
  have hall : ∀ n, n < 16 →
      ((Json.hexDigit n).toNat = 48 + n ∧ n < 10 ∨ (Json.hexDigit n).toNat = 87 + n ∧ 10 ≤ n) := by
    decide
  exact hall n h

/-- What stands for a character between quotes: two characters after a backslash, six for other
control characters, or the character itself. -/
theorem escape_cases (c : Char) :
    (∃ d, Json.escape c = ['\\', d] ∧ d.toNat ∈ [34, 92, 110, 114, 116, 98, 102] ∧
        c.toNat < 128) ∨
      (c.toNat < 32 ∧ Json.escape c = ['\\', 'u', '0', '0', Json.hexDigit (c.toNat / 16),
        Json.hexDigit (c.toNat % 16)]) ∨
      (32 ≤ c.toNat ∧ c ≠ '"' ∧ c ≠ '\\' ∧ Json.escape c = [c]) := by
  unfold Json.escape
  split
  · next h => exact .inl ⟨'"', rfl, by decide, by rw [h]; decide⟩
  split
  · next h => exact .inl ⟨'\\', rfl, by decide, by rw [h]; decide⟩
  split
  · next h => exact .inl ⟨'n', rfl, by decide, by rw [h]; decide⟩
  split
  · next h => exact .inl ⟨'r', rfl, by decide, by rw [h]; decide⟩
  split
  · next h => exact .inl ⟨'t', rfl, by decide, by rw [h]; decide⟩
  split
  · next h => exact .inl ⟨'b', rfl, by decide, by omega⟩
  split
  · next h => exact .inl ⟨'f', rfl, by decide, by omega⟩
  split
  · next h => exact .inr (.inl ⟨h, rfl⟩)
  · next hquote hback _ _ _ _ _ h => exact .inr (.inr ⟨by omega, hquote, hback, rfl⟩)

theorem hexDigit_lt {n : Nat} (h : n < 16) : (Json.hexDigit n).toNat < 128 := by
  have := hexDigit_toNat h
  omega

/-- The six bytes of a control character. -/
theorem utf8_control {c : Char} (h : c.toNat < 32) :
    utf8 ['\\', 'u', '0', '0', Json.hexDigit (c.toNat / 16), Json.hexDigit (c.toNat % 16)] =
      [92, 117, 48, 48, UInt8.ofNat (Json.hexDigit (c.toNat / 16)).toNat,
        UInt8.ofNat (Json.hexDigit (c.toNat % 16)).toNat] := by
  have hdiv : c.toNat / 16 < 16 := by omega
  have hmod : c.toNat % 16 < 16 := by omega
  refine utf8_ascii ?_
  simp only [forall_mem_cons]
  exact ⟨by decide, by decide, by decide, by decide, hexDigit_lt hdiv, hexDigit_lt hmod, nofun⟩

theorem utf8_escaped {d : Char} (h : d.toNat ∈ [34, 92, 110, 114, 116, 98, 102]) :
    utf8 ['\\', d] = [92, UInt8.ofNat d.toNat] := by
  have hd : d.toNat < 128 := by
    simp only [mem_cons, not_mem_nil, or_false] at h
    omega
  refine utf8_ascii ?_
  simp only [forall_mem_cons]
  exact ⟨by decide, hd, nofun⟩

/-- The digits of a control character close no string. -/
theorem hexByte_plain {n : Nat} (h : n < 16) :
    UInt8.ofNat (Json.hexDigit n).toNat ≠ quote ∧
      UInt8.ofNat (Json.hexDigit n).toNat ≠ backslash ∧
      UInt8.ofNat (Json.hexDigit n).toNat ≠ 10 := by
  have hall : ∀ n, n < 16 → (UInt8.ofNat (Json.hexDigit n).toNat ≠ quote ∧
      UInt8.ofNat (Json.hexDigit n).toNat ≠ backslash ∧
      UInt8.ofNat (Json.hexDigit n).toNat ≠ 10) := by decide
  exact hall n h

variable {bs : List UInt8}

theorem Chars.plains {cs : List UInt8} (hbs : ∀ b ∈ bs, b ≠ quote ∧ b ≠ backslash)
    (hcs : Chars cs) : Chars (bs ++ cs) := by
  induction bs with
  | nil => exact hcs
  | cons b bs ih =>
    obtain ⟨hb, hbs⟩ := forall_mem_cons.1 hbs
    exact .plain hb (ih hbs)

theorem chars_escape (c : Char) {cs : List UInt8} (hcs : Chars cs) :
    Chars (utf8 (Json.escape c) ++ cs) := by
  rcases escape_cases c with ⟨d, heq, hd, -⟩ | ⟨hc, heq⟩ | ⟨-, hquote, hback, heq⟩
  · rw [heq, utf8_escaped hd]
    exact .escape _ hcs
  · rw [heq, utf8_control hc]
    have hdiv := hexByte_plain (n := c.toNat / 16) (by omega)
    have hmod := hexByte_plain (n := c.toNat % 16) (by omega)
    exact .escape _ (.plain (by decide) (.plain (by decide)
      (.plain ⟨hdiv.1, hdiv.2.1⟩ (.plain ⟨hmod.1, hmod.2.1⟩ hcs))))
  · rw [heq, utf8_cons, utf8_nil, append_nil]
    refine Chars.plains (fun b hb => ⟨?_, ?_⟩) hcs
    · rintro rfl
      exact hquote (Char.toNat_inj.1 (toNat_of_mem_utf8EncodeChar (by decide) hb))
    · rintro rfl
      exact hback (Char.toNat_inj.1 (toNat_of_mem_utf8EncodeChar (by decide) hb))

theorem lineFeed_notMem_escape (c : Char) : 10 ∉ utf8 (Json.escape c) := by
  rcases escape_cases c with ⟨d, heq, hd, -⟩ | ⟨hc, heq⟩ | ⟨hc, -, -, heq⟩
  · rw [heq, utf8_escaped hd]
    simp only [mem_cons, not_mem_nil, or_false] at hd
    rcases hd with hd | hd | hd | hd | hd | hd | hd <;> rw [hd] <;> decide
  · rw [heq, utf8_control hc]
    have hdiv := (hexByte_plain (n := c.toNat / 16) (by omega)).2.2
    have hmod := (hexByte_plain (n := c.toNat % 16) (by omega)).2.2
    simp [hdiv.symm, hmod.symm]
  · rw [heq, utf8_cons, utf8_nil, append_nil]
    intro h
    have hten : c.toNat = 10 := toNat_of_mem_utf8EncodeChar (by decide) h
    omega

theorem length_escape (c : Char) : c.utf8Size ≤ (utf8 (Json.escape c)).length ∧
    (utf8 (Json.escape c)).length ≤ 6 * c.utf8Size := by
  have hone : ∀ {c : Char}, c.toNat < 128 → c.utf8Size = 1 := fun h =>
    Char.utf8Size_eq_one_iff.2 (UInt32.le_iff_toNat_le.2 (Nat.le_of_lt_succ h))
  rcases escape_cases c with ⟨d, heq, hd, hc⟩ | ⟨hc, heq⟩ | ⟨-, -, -, heq⟩
  · rw [heq, utf8_escaped hd, hone hc]
    simp
  · rw [heq, utf8_control hc, hone (by omega)]
    simp
  · rw [heq, utf8_cons, utf8_nil, append_nil, String.length_utf8EncodeChar]
    omega

/-- A string between its quotes. -/
def quotedBytes (s : String) : List UInt8 := utf8 (Json.quote s).toList

theorem utf8_flatMap (f : Char → List Char) (cs : List Char) :
    utf8 (cs.flatMap f) = cs.flatMap fun c => utf8 (f c) :=
  flatMap_assoc

theorem quotedBytes_eq (s : String) : quotedBytes s =
    quote :: (s.toList.flatMap fun c => utf8 (Json.escape c)) ++ [quote] := by
  have hquote : String.utf8EncodeChar '"' = [quote] := rfl
  rw [quotedBytes, Json.quote, String.toList_ofList, cons_append, utf8_cons, utf8_append,
    utf8_flatMap, hquote]
  rfl

theorem chars_flatMap (cs : List Char) : Chars (cs.flatMap fun c => utf8 (Json.escape c)) := by
  induction cs with
  | nil => exact .nil
  | cons c cs ih => exact chars_escape c ih

theorem lineFeed_notMem_quotedBytes (s : String) : 10 ∉ quotedBytes s := by
  have hquote : (10 : UInt8) ≠ quote := by decide
  simp only [quotedBytes_eq, cons_append, mem_cons, mem_append, mem_flatMap,
    not_mem_nil, or_false, hquote, false_or, not_exists, not_and]
  exact fun c _ => lineFeed_notMem_escape c

theorem length_flatMap_escape (cs : List Char) :
    (utf8 cs).length ≤ (cs.flatMap fun c => utf8 (Json.escape c)).length ∧
      (cs.flatMap fun c => utf8 (Json.escape c)).length ≤ 6 * (utf8 cs).length := by
  induction cs with
  | nil => simp
  | cons c cs ih =>
    have hc := length_escape c
    simp only [flatMap_cons, length_append, utf8_cons, String.length_utf8EncodeChar]
    omega

/-- Quoting adds two bytes or more, -/
theorem le_length_quotedBytes (s : String) :
    s.toUTF8.toList.length + 2 ≤ (quotedBytes s).length := by
  have hlen := (length_flatMap_escape s.toList).1
  simp only [quotedBytes_eq, toList_toUTF8, length_append, length_cons, length_nil]
  omega

/-- and makes a string at most six times as long. -/
theorem length_quotedBytes_le (s : String) :
    (quotedBytes s).length ≤ 6 * s.toUTF8.toList.length + 2 := by
  have hlen := (length_flatMap_escape s.toList).2
  simp only [quotedBytes_eq, toList_toUTF8, length_append, length_cons, length_nil]
  omega

/-! ## Values -/

theorem utf8_intercalate (sep : List Char) (ls : List (List Char)) :
    utf8 (sep.intercalate ls) = (utf8 sep).intercalate (ls.map utf8) := by
  induction ls with
  | nil => rfl
  | cons l ls ih =>
    cases ls with
    | nil => simp
    | cons l' ls =>
      simp only [map_cons, List.intercalate_cons_cons, utf8_append] at ih ⊢
      rw [ih]

theorem mem_intercalate {α : Type*} {x : α} {sep : List α} {ls : List (List α)}
    (h : x ∈ sep.intercalate ls) : x ∈ sep ∨ ∃ l ∈ ls, x ∈ l := by
  induction ls with
  | nil => cases h
  | cons l ls ih =>
    cases ls with
    | nil => exact .inr ⟨l, by simp, by simpa using h⟩
    | cons l' ls =>
      rw [List.intercalate_cons_cons, mem_append, mem_append] at h
      rcases h with (h | h) | h
      · exact .inr ⟨l, by simp, h⟩
      · exact .inl h
      · exact (ih h).imp id fun ⟨m, hm, hx⟩ => ⟨m, mem_cons_of_mem _ hm, hx⟩

namespace Json

/-- The compact text of a value. -/
def bytes (v : Json) : List UInt8 := (render v).toUTF8.toList

/-- A field with its name. -/
def fieldBytes (e : String × Json) : List UInt8 := quotedBytes e.1 ++ 58 :: bytes e.2

theorem renderItems_eq (items : List Json) : renderItems items = items.map render := by
  induction items with
  | nil => rfl
  | cons v items ih => rw [renderItems, ih, map_cons]

theorem renderFields_eq (fields : List (String × Json)) :
    renderFields fields = fields.map renderField := by
  induction fields with
  | nil => rfl
  | cons e fields ih => rw [renderFields, ih, map_cons]

theorem bytes_arr (items : List Json) :
    bytes (.arr items) = 91 :: List.intercalate [44] (items.map bytes) ++ [93] := by
  have hitem : ∀ v, utf8 (render v).toList = bytes v := fun v => (toList_toUTF8 _).symm
  rw [bytes, toList_toUTF8, render, renderItems_eq, String.toList_append, String.toList_append,
    utf8_append, utf8_append, String.toList_intercalate, utf8_intercalate, map_map,
    map_map]
  simp only [Function.comp_def, hitem]
  rfl

theorem utf8_renderField (e : String × Json) : utf8 (renderField e).toList = fieldBytes e := by
  obtain ⟨name, v⟩ := e
  have hcolon : utf8 ":".toList = [58] := rfl
  rw [renderField, String.toList_append, String.toList_append, utf8_append, utf8_append, hcolon,
    append_assoc]
  simp only [fieldBytes, bytes, toList_toUTF8, quotedBytes, singleton_append]

theorem bytes_obj (fields : List (String × Json)) :
    bytes (.obj fields) = 123 :: List.intercalate [44] (fields.map fieldBytes) ++ [125] := by
  rw [bytes, toList_toUTF8, render, renderFields_eq, String.toList_append, String.toList_append,
    utf8_append, utf8_append, String.toList_intercalate, utf8_intercalate, map_map,
    map_map]
  simp only [Function.comp_def, utf8_renderField]
  rfl

@[simp] theorem bytes_str (s : String) : bytes (.str s) = quotedBytes s := by
  rw [bytes, toList_toUTF8, render, quotedBytes]

theorem digit_of_mem_repr {m : Nat} {c : Char} (h : c ∈ m.repr.toList) :
    48 ≤ c.toNat ∧ c.toNat ≤ 57 := by
  rw [Nat.toList_repr] at h
  exact Char.isDigit_iff_toNat.1 (Nat.isDigit_of_mem_toDigits (by decide) (by decide) h)

/-- What a number is written with. -/
theorem mem_bytes_num {n : Int} {b : UInt8} (h : b ∈ bytes (.num n)) :
    b = 45 ∨ 48 ≤ b ∧ b ≤ 57 := by
  have hdigits : ∀ m : Nat, b ∈ utf8 m.repr.toList → b = 45 ∨ 48 ≤ b ∧ b ≤ 57 := by
    intro m hmem
    obtain ⟨c, hc, hb⟩ := mem_utf8.1 hmem
    have hdigit := digit_of_mem_repr hc
    rcases utf8EncodeChar_cases c with ⟨-, hencode⟩ | ⟨hhigh, -⟩
    · rw [hencode, mem_singleton] at hb
      right
      rw [hb, UInt8.le_iff_toNat_le, UInt8.le_iff_toNat_le, UInt8.toNat_ofNat']
      simp only [UInt8.reduceToNat]
      omega
    · omega
  rw [bytes, toList_toUTF8, render] at h
  cases n with
  | ofNat m => exact hdigits m h
  | negSucc m =>
    have hneg : toString (Int.negSucc m) = "-" ++ m.succ.repr := rfl
    have hminus : utf8 "-".toList = [45] := rfl
    rw [hneg, String.toList_append, utf8_append, hminus, mem_append, mem_singleton] at h
    exact h.elim .inl (hdigits _)

theorem bytes_num_ne_nil (n : Int) : bytes (.num n) ≠ [] := by
  have hrepr : ∀ m : Nat, utf8 m.repr.toList ≠ [] := by
    intro m hnil
    have hempty : m.repr.toList = [] := by
      cases hlist : m.repr.toList with
      | nil => rfl
      | cons c cs =>
        rw [hlist, utf8_cons, append_eq_nil_iff] at hnil
        exact absurd hnil.1 String.utf8EncodeChar_ne_nil
    rw [Nat.toList_repr] at hempty
    exact Nat.toDigits_ne_nil hempty
  rw [bytes, toList_toUTF8, render]
  cases n with
  | ofNat m => exact hrepr m
  | negSucc m =>
    have hneg : toString (Int.negSucc m) = "-" ++ m.succ.repr := rfl
    rw [hneg, String.toList_append, utf8_append]
    exact fun hnil => hrepr _ (append_eq_nil_iff.1 hnil).2

theorem balanced_append {cs : List UInt8} (hbs : Balanced bs) (hcs : Balanced cs) :
    Balanced (bs ++ cs) := by
  induction hbs with
  | nil => exact hcs
  | plain hc _ ih => exact .plain hc ih
  | string hchars _ ih =>
    rw [cons_append, append_assoc, cons_append]
    exact .string hchars ih
  | nested ho hc hinner _ _ ih =>
    rw [cons_append, append_assoc, cons_append]
    exact .nested ho hc hinner ih

theorem balanced_of_value (h : JsonText.Value bs) : Balanced bs := by
  cases h with
  | scalar _ hbs =>
    induction bs with
    | nil => exact .nil
    | cons b bs ih =>
      obtain ⟨hb, hbs⟩ := forall_mem_cons.1 hbs
      by_cases hnil : bs = []
      · rw [hnil]
        exact .plain hb.1 .nil
      · exact .plain hb.1 (ih hnil hbs)
  | string hchars => exact .string hchars .nil
  | nested ho hc hinner => exact .nested ho hc hinner .nil

theorem balanced_intercalate {ls : List (List UInt8)} (h : ∀ l ∈ ls, Balanced l) :
    Balanced (List.intercalate [44] ls) := by
  induction ls with
  | nil => exact .nil
  | cons l ls ih =>
    obtain ⟨hl, hls⟩ := forall_mem_cons.1 h
    cases ls with
    | nil =>
      rw [intercalate_singleton]
      exact hl
    | cons l' ls =>
      rw [List.intercalate_cons_cons]
      exact balanced_append (balanced_append hl (.plain (by decide) .nil)) (ih hls)

theorem balanced_quotedBytes (s : String) (hbs : Balanced bs) : Balanced (quotedBytes s ++ bs) := by
  rw [quotedBytes_eq, cons_append, cons_append, append_assoc]
  exact .string (chars_flatMap s.toList) hbs

/-- What is written is the text of a value. -/
theorem value_bytes (v : Json) : JsonText.Value (bytes v) := by
  have hscalar : ∀ {bs : List UInt8}, bs ≠ [] →
      (bs.all fun b => isPlain b && !isSpace b) = true → JsonText.Value bs := by
    intro bs hne hall
    refine .scalar hne fun b hb => ?_
    simpa using all_eq_true.1 hall b hb
  induction v using Json.induct with
  | null =>
    rw [bytes, toList_toUTF8, render]
    exact hscalar (by decide) (by decide)
  | bool b =>
    rw [bytes, toList_toUTF8, render]
    cases b with
    | false => exact hscalar (by decide) (by decide)
    | true => exact hscalar (by decide) (by decide)
  | num n =>
    refine hscalar (bytes_num_ne_nil n) (all_eq_true.2 fun b hb => ?_)
    have hdigits : ∀ b : Fin 256, (UInt8.ofFin b = 45 ∨ 48 ≤ UInt8.ofFin b ∧ UInt8.ofFin b ≤ 57) →
        (isPlain (UInt8.ofFin b) && !isSpace (UInt8.ofFin b)) = true := by decide +kernel
    exact hdigits b.toFin (mem_bytes_num hb)
  | str s =>
    rw [bytes_str, quotedBytes_eq, cons_append]
    exact .string (chars_flatMap s.toList)
  | arr items ih =>
    rw [bytes_arr, cons_append]
    refine .nested (by decide) (by decide) (balanced_intercalate ?_)
    exact forall_mem_map.2 fun v hv => balanced_of_value (ih v hv)
  | obj fields ih =>
    rw [bytes_obj, cons_append]
    refine .nested (by decide) (by decide) (balanced_intercalate ?_)
    refine forall_mem_map.2 fun e he => balanced_quotedBytes e.1 ?_
    exact .plain (by decide) (balanced_of_value (ih e he))

/-- What is written is one line. -/
theorem lineFeed_notMem_bytes (v : Json) : 10 ∉ bytes v := by
  induction v using Json.induct with
  | null =>
    rw [bytes, toList_toUTF8, render]
    decide
  | bool b =>
    rw [bytes, toList_toUTF8, render]
    cases b with
    | false => decide
    | true => decide
  | num n => exact fun h => absurd (mem_bytes_num h) (by decide)
  | str s =>
    rw [bytes_str]
    exact lineFeed_notMem_quotedBytes s
  | arr items ih =>
    rw [bytes_arr]
    intro h
    have hinner : (10 : UInt8) ∈ List.intercalate [44] (items.map bytes) := by simpa using h
    rcases mem_intercalate hinner with hcomma | ⟨_, hl, hten⟩
    · exact absurd hcomma (by decide)
    · obtain ⟨v, hv, rfl⟩ := mem_map.1 hl
      exact ih v hv hten
  | obj fields ih =>
    rw [bytes_obj]
    intro h
    have hinner : (10 : UInt8) ∈ List.intercalate [44] (fields.map fieldBytes) := by simpa using h
    rcases mem_intercalate hinner with hcomma | ⟨_, hl, hten⟩
    · exact absurd hcomma (by decide)
    · obtain ⟨e, he, rfl⟩ := mem_map.1 hl
      rw [fieldBytes, mem_append, mem_cons] at hten
      rcases hten with hten | hten | hten
      · exact lineFeed_notMem_quotedBytes e.1 hten
      · exact absurd hten (by decide)
      · exact ih e he hten

/-! ## Lengths -/

/-- A number of at most `k` digits, with its sign. -/
theorem length_bytes_num_le {n : Int} {k : Nat} (hk : 0 < k) (h : n.natAbs < 10 ^ k) :
    (bytes (.num n)).length ≤ k + 1 := by
  have hrepr : ∀ m : Nat, m < 10 ^ k → (utf8 m.repr.toList).length ≤ k := by
    intro m hm
    have hascii : ∀ c ∈ m.repr.toList, c.toNat < 128 := by
      intro c hc
      have hdigit := digit_of_mem_repr hc
      omega
    rw [utf8_ascii hascii, length_map, String.length_toList]
    exact (Nat.length_repr_le_iff hk).2 hm
  rw [bytes, toList_toUTF8, render]
  cases n with
  | ofNat m =>
    have hm := hrepr m h
    have hofNat : toString (Int.ofNat m) = m.repr := rfl
    rw [hofNat]
    omega
  | negSucc m =>
    have hm := hrepr m.succ h
    have hneg : toString (Int.negSucc m) = "-" ++ m.succ.repr := rfl
    have hminus : utf8 "-".toList = [45] := rfl
    rw [hneg, String.toList_append, utf8_append, hminus, length_append, length_singleton]
    omega

theorem length_fieldBytes (name : String) (v : Json) :
    (fieldBytes (name, v)).length = (quotedBytes name).length + 1 + (bytes v).length := by
  simp only [fieldBytes, length_append, length_cons]
  omega

theorem length_intercalate_le (ls : List (List UInt8)) :
    (List.intercalate [44] ls).length ≤ (ls.map fun l => l.length + 1).sum := by
  induction ls with
  | nil => exact Nat.zero_le _
  | cons l ls ih =>
    cases ls with
    | nil => simp
    | cons l' ls =>
      rw [List.intercalate_cons_cons, map_cons, sum_cons, length_append,
        length_append, length_singleton]
      omega

theorem sum_insertInto_le (f : String × Json → Nat) (name : String) (v : Json)
    (fields : List (String × Json)) :
    ((SortedMap.insertInto name v fields).map f).sum ≤ f (name, v) + (fields.map f).sum := by
  induction fields with
  | nil => simp [SortedMap.insertInto]
  | cons e fields ih =>
    unfold SortedMap.insertInto
    split
    · rw [map_cons, sum_cons]
    split
    · rw [map_cons, sum_cons, map_cons, sum_cons]
      omega
    · rw [map_cons, sum_cons, map_cons, sum_cons]
      omega

/-- The text of an object is at most as long as its fields with a comma each, and two braces. -/
theorem length_bytes_ofFields_le (fields : List (String × Json)) :
    (bytes (ofFields fields)).length ≤
      2 + (fields.map fun e => (fieldBytes e).length + 1).sum := by
  have hmembers : ∀ fields : List (String × Json), ∃ members, ofFields fields = .obj members ∧
      (members.map fun e => (fieldBytes e).length + 1).sum ≤
        (fields.map fun e => (fieldBytes e).length + 1).sum := by
    intro fields
    induction fields using List.reverseRec with
    | nil => exact ⟨[], rfl, le_rfl⟩
    | append_singleton fields e ih =>
      obtain ⟨name, v⟩ := e
      obtain ⟨members, heq, hsum⟩ := ih
      refine ⟨SortedMap.insertInto name v members, by rw [ofFields_concat, heq]; rfl, ?_⟩
      have hinsert := sum_insertInto_le (fun e => (fieldBytes e).length + 1) name v members
      rw [map_append, sum_append, map_singleton, sum_singleton]
      omega
  obtain ⟨members, heq, hsum⟩ := hmembers fields
  have hinner := length_intercalate_le (members.map fieldBytes)
  rw [map_map] at hinner
  simp only [Function.comp_def] at hinner
  rw [heq, bytes_obj, length_append, length_cons, length_singleton]
  omega

end Json

end Lib
