import Mathlib.Data.Nat.Notation
import Mathlib.Data.Int.Notation
import Mathlib.Data.List.Induction
import Mathlib.Tactic.Ring

/-!
# Bytes in Python

What Python's own operations do with a string of bytes.

* `Python.slice`, `Python.item` — the bytes between two positions and the byte at one. A position
  may be negative: it counts from the end.
* `Python.parseHex` — `int(text, 16)`. It takes more than digits: blanks around the numeral, a sign,
  a prefix and single underscores.
* `Python.formatHex` — a format with the type `x`, zeros in front and a width.
* `parseHex_digits`, `parseHex_formatHex` — what plain digits mean, and that they are read as they
  were written.
-/

namespace Lib.Python

open List Option

/-! ## Positions -/

/-- A position of a slice, within the bytes. -/
def clip (length : ℕ) (position : ℤ) : ℕ :=
  if position < 0 then (length + position).toNat else min position.toNat length

/-- `data[start:stop]`. -/
def slice (data : List UInt8) (start stop : ℤ) : List UInt8 :=
  (data.drop (clip data.length start)).take (clip data.length stop - clip data.length start)

/-- `data[position]`, or none where Python raises an error. -/
def item (data : List UInt8) (position : ℤ) : Option UInt8 :=
  if position < 0 then
    if 0 ≤ data.length + position then data[(data.length + position).toNat]? else none
  else data[position.toNat]?

theorem slice_natCast (data : List UInt8) (start stop : ℕ) (h : stop ≤ data.length) :
    slice data start stop = (data.drop start).take (stop - start) := by
  have hstop : clip data.length stop = stop := by
    rw [clip, if_neg (by omega), Int.toNat_natCast, min_eq_left h]
  rw [slice, hstop]
  by_cases hstart : start ≤ data.length
  · rw [clip, if_neg (by omega), Int.toNat_natCast, min_eq_left hstart]
  · rw [Nat.sub_eq_zero_of_le (by omega : stop ≤ start), take_zero, clip, if_neg (by omega),
      Int.toNat_natCast, min_eq_right (by omega), Nat.sub_eq_zero_of_le h, take_zero]

theorem item_natCast (data : List UInt8) (position : ℕ) : item data position = data[position]? := by
  rw [item, if_neg (by omega), Int.toNat_natCast]

theorem length_slice (data : List UInt8) (start stop : ℤ) :
    (slice data start stop).length = clip data.length stop - clip data.length start := by
  rw [slice, length_take, length_drop]
  have hle : clip data.length stop ≤ data.length := by
    unfold clip
    split <;> omega
  omega

/-- Bytes of a slice that is not cut are all in the data. -/
theorem neg_length_le_of_length_slice {data : List UInt8} {start : ℤ} {n : ℕ} (hn : 0 < n)
    (h : (slice data start (start + n)).length = n) : -data.length ≤ start := by
  rw [length_slice] at h
  unfold clip at h
  split at h <;> split at h <;> omega

theorem item_isSome {data : List UInt8} {position : ℤ} (hlow : -data.length ≤ position)
    (hhigh : position < data.length) : (item data position).isSome := by
  unfold item
  split
  · rw [if_pos (by omega), List.getElem?_eq_getElem (by omega), isSome_some]
  · rw [List.getElem?_eq_getElem (by omega), isSome_some]

/-! ## Numerals -/

/-- The value of a digit. -/
def hexValue (b : UInt8) : Option ℕ :=
  if 48 ≤ b.toNat ∧ b.toNat ≤ 57 then some (b.toNat - 48)
  else if 97 ≤ b.toNat ∧ b.toNat ≤ 102 then some (b.toNat - 87)
  else if 65 ≤ b.toNat ∧ b.toNat ≤ 70 then some (b.toNat - 55)
  else none

/-- A byte that `int` drops at both ends. -/
def isBlank (b : UInt8) : Bool := b = 32 || (9 ≤ b && b ≤ 13)

/-- The digits at the front with a single underscore between two, and what follows them. The flag
says that an underscore is the last byte. -/
def scanDigits : Bool → ℕ → List UInt8 → Option (ℕ × List UInt8)
  | underscore, value, [] => if underscore then none else some (value, [])
  | underscore, value, b :: rest =>
    match hexValue b with
    | some digit => scanDigits false (value * 16 + digit) rest
    | none =>
      if underscore then none
      else if b = 95 then scanDigits true value rest
      else some (value, b :: rest)

/-- What follows `0x`, and an underscore after it. -/
def afterPrefix (text : List UInt8) : List UInt8 :=
  match text with
  | 48 :: x :: rest =>
    if x = 120 ∨ x = 88 then
      match rest with
      | 95 :: rest => rest
      | rest => rest
    else text
  | text => text

/-- A numeral without a sign. There is a digit at its front. -/
def parseUnsignedHex (text : List UInt8) : Option ℕ :=
  if ((afterPrefix text).head?.bind hexValue).isSome then
    match scanDigits false 0 (afterPrefix text) with
    | some (value, rest) => if rest.all isBlank then some value else none
    | none => none
  else none

/-- `int(text, 16)`, or none where Python raises an error. -/
def parseHex (text : List UInt8) : Option ℤ :=
  match text.dropWhile isBlank with
  | 43 :: rest => (parseUnsignedHex rest).map fun value : ℕ => (value : ℤ)
  | 45 :: rest => (parseUnsignedHex rest).map fun value : ℕ => -(value : ℤ)
  | rest => (parseUnsignedHex rest).map fun value : ℕ => (value : ℤ)

/-- Zeros in front of a text up to a width. -/
def zfill (width : ℕ) (text : List UInt8) : List UInt8 :=
  List.replicate (width - text.length) 48 ++ text

/-- The digits of a number. -/
def hexDigits (n : ℕ) : List UInt8 := (Nat.toDigits 16 n).map fun c => UInt8.ofNat c.toNat

/-- The format of a number with the type `x`, zeros in front and a width. A sign is in the width. -/
def formatHex (width : ℕ) (value : ℤ) : List UInt8 :=
  if value < 0 then 45 :: zfill (width - 1) (hexDigits value.natAbs)
  else zfill width (hexDigits value.natAbs)

/-- The number that digits stand for. -/
def hexNumber (digits : List UInt8) : ℕ :=
  digits.foldl (fun value b => value * 16 + (hexValue b).getD 0) 0

/-- Every byte is a digit. -/
def PlainHex (text : List UInt8) : Prop := ∀ b ∈ text, (hexValue b).isSome

instance (text : List UInt8) : Decidable (PlainHex text) :=
  inferInstanceAs (Decidable (∀ b ∈ text, (hexValue b).isSome))

theorem hexValue_lt {b : UInt8} {digit : ℕ} (h : hexValue b = some digit) : digit < 16 := by
  unfold hexValue at h
  split at h
  · obtain rfl := Option.some.inj h
    omega
  · split at h
    · obtain rfl := Option.some.inj h
      omega
    · split at h
      · obtain rfl := Option.some.inj h
        omega
      · cases h

theorem not_isBlank_of_hexValue {b : UInt8} (h : (hexValue b).isSome) : isBlank b = false := by
  by_contra hblank
  have hb : b.toNat = 32 ∨ (9 ≤ b.toNat ∧ b.toNat ≤ 13) := by
    have himp : ¬b.toNat = 32 → 9 ≤ b.toNat ∧ b.toNat ≤ 13 := by
      simpa [isBlank, ← UInt8.toNat_inj, UInt8.le_iff_toNat_le] using hblank
    omega
  unfold hexValue at h
  rw [if_neg (by omega), if_neg (by omega), if_neg (by omega)] at h
  cases h

theorem ne_of_hexValue {b c : UInt8} (h : (hexValue b).isSome) (hc : hexValue c = none) : b ≠ c := by
  rintro rfl
  rw [hc] at h
  cases h

variable {text : List UInt8}

theorem scanDigits_plain (h : PlainHex text) (value : ℕ) :
    scanDigits false value text =
      some (text.foldl (fun value b => value * 16 + (hexValue b).getD 0) value, []) := by
  induction text generalizing value with
  | nil => rfl
  | cons b text ih =>
    obtain ⟨digit, hdigit⟩ := isSome_iff_exists.1 (h b mem_cons_self)
    simp only [scanDigits, hdigit, foldl_cons, getD_some]
    exact ih (fun c hc => h c (mem_cons_of_mem b hc)) _

theorem afterPrefix_plain (h : PlainHex text) : afterPrefix text = text := by
  unfold afterPrefix
  split
  · next x rest =>
    have hx : (hexValue x).isSome := h x (by simp)
    rw [if_neg]
    rintro (rfl | rfl)
    · exact absurd hx (by decide)
    · exact absurd hx (by decide)
  · rfl

theorem parseUnsignedHex_plain (h : PlainHex text) (hne : text ≠ []) :
    parseUnsignedHex text = some (hexNumber text) := by
  obtain ⟨b, rest, rfl⟩ := exists_cons_of_ne_nil hne
  have hb : (hexValue b).isSome := h b mem_cons_self
  rw [parseUnsignedHex, afterPrefix_plain h, scanDigits_plain h, List.head?_cons, bind_some,
    if_pos hb]
  rfl

/-- Plain digits stand for their number. -/
theorem parseHex_plain (h : PlainHex text) (hne : text ≠ []) :
    parseHex text = some (hexNumber text : ℤ) := by
  obtain ⟨b, rest, rfl⟩ := exists_cons_of_ne_nil hne
  have hb : (hexValue b).isSome := h b mem_cons_self
  rw [parseHex, dropWhile_cons_of_neg (by simp [not_isBlank_of_hexValue hb])]
  split
  · next heq => exact absurd (List.cons.inj heq).1 (ne_of_hexValue hb (by decide))
  · next heq => exact absurd (List.cons.inj heq).1 (ne_of_hexValue hb (by decide))
  · rw [parseUnsignedHex_plain h hne, map_some]

theorem hexNumber_append_singleton (text : List UInt8) (b : UInt8) :
    hexNumber (text ++ [b]) = hexNumber text * 16 + (hexValue b).getD 0 := by
  rw [hexNumber, foldl_append]
  rfl

theorem hexNumber_lt (text : List UInt8) : hexNumber text < 16 ^ text.length := by
  induction text using List.reverseRecOn with
  | nil => decide
  | append_singleton text b ih =>
    have hb : (hexValue b).getD 0 < 16 := by
      cases h : hexValue b with
      | none => decide
      | some digit => exact hexValue_lt h
    rw [hexNumber_append_singleton, length_append, length_singleton, pow_succ]
    omega

theorem hexValue_digitChar {n : ℕ} (h : n < 16) :
    hexValue (UInt8.ofNat n.digitChar.toNat) = some n := by
  have hall : ∀ n < 16, hexValue (UInt8.ofNat n.digitChar.toNat) = some n := by decide
  exact hall n h

theorem hexDigits_eq_if (n : ℕ) :
    hexDigits n = if n < 16 then [UInt8.ofNat n.digitChar.toNat]
      else hexDigits (n / 16) ++ [UInt8.ofNat (n % 16).digitChar.toNat] := by
  unfold hexDigits
  rw [Nat.toDigits_eq_if (by decide)]
  split <;> simp

theorem plainHex_hexDigits (n : ℕ) : PlainHex (hexDigits n) := by
  induction n using Nat.strongRecOn with
  | ind n ih =>
    intro b hb
    rw [hexDigits_eq_if] at hb
    split at hb
    · next hn =>
      rw [mem_singleton.1 hb, hexValue_digitChar hn, isSome_some]
    · next hn =>
      rcases mem_append.1 hb with hb | hb
      · exact ih (n / 16) (by omega) b hb
      · rw [mem_singleton.1 hb, hexValue_digitChar (Nat.mod_lt n (by decide)), isSome_some]

theorem hexNumber_hexDigits (n : ℕ) : hexNumber (hexDigits n) = n := by
  induction n using Nat.strongRecOn with
  | ind n ih =>
    rw [hexDigits_eq_if]
    split
    · next hn => simp [hexNumber, hexValue_digitChar hn]
    · next hn =>
      rw [hexNumber_append_singleton, ih (n / 16) (by omega),
        hexValue_digitChar (Nat.mod_lt n (by decide)), getD_some]
      omega

theorem hexNumber_zfill (width : ℕ) (text : List UInt8) :
    hexNumber (zfill width text) = hexNumber text := by
  have hzeros (k : ℕ) : (List.replicate k (48 : UInt8)).foldl
      (fun value b => value * 16 + (hexValue b).getD 0) 0 = 0 := by
    induction k with
    | zero => rfl
    | succ k ih =>
      rw [replicate_succ, foldl_cons]
      exact ih
  rw [hexNumber, zfill, foldl_append, hzeros]
  rfl

theorem plainHex_zfill (h : PlainHex text) (width : ℕ) : PlainHex (zfill width text) := by
  intro b hb
  rcases mem_append.1 hb with hb | hb
  · rw [eq_of_mem_replicate hb]
    decide
  · exact h b hb

section Format

variable {width : ℕ} {value : ℤ} (hlow : 0 ≤ value) (hhigh : value < 16 ^ width)

include hlow

theorem formatHex_of_nonneg : formatHex width value = zfill width (hexDigits value.natAbs) :=
  if_neg (by omega)

theorem plainHex_formatHex : PlainHex (formatHex width value) := by
  rw [formatHex_of_nonneg hlow]
  exact plainHex_zfill (plainHex_hexDigits _) width

include hhigh

theorem length_hexDigits_le (hpos : 0 < width) : (hexDigits value.natAbs).length ≤ width := by
  rw [hexDigits, length_map, Nat.length_toDigits_le_iff (by decide) hpos]
  have hcast : ((value.natAbs : ℕ) : ℤ) < ((16 ^ width : ℕ) : ℤ) := by
    rw [Int.natAbs_of_nonneg hlow]
    simpa using hhigh
  exact_mod_cast hcast

theorem length_formatHex (hpos : 0 < width) : (formatHex width value).length = width := by
  have hle := length_hexDigits_le hlow hhigh hpos
  rw [formatHex_of_nonneg hlow, zfill, length_append, length_replicate]
  omega

/-- A number that has room is read as it was written. -/
theorem parseHex_formatHex (hpos : 0 < width) : parseHex (formatHex width value) = some value := by
  have hne : formatHex width value ≠ [] := by
    intro h
    have hlength := length_formatHex hlow hhigh hpos
    rw [h, length_nil] at hlength
    omega
  rw [parseHex_plain (plainHex_formatHex hlow) hne, formatHex_of_nonneg hlow, hexNumber_zfill,
    hexNumber_hexDigits, Int.natAbs_of_nonneg hlow]

end Format

example : parseHex [48, 120, 95, 48, 48, 49, 95, 70] = some 31 := by decide

end Lib.Python
