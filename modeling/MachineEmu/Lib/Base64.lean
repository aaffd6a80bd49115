import Mathlib.Data.List.Basic
import Mathlib.Data.Nat.Notation

/-!
# Base64

The texts of bytes in the standard alphabet with padding. A text is read only if it is the one that
its bytes are written as.

* `encode`, `decode` — the text of bytes, and the bytes of a text.
* `decode_encode` — the text of bytes is read as the bytes.
-/

namespace Lib

namespace Base64

/-- The letters of the alphabet, in the order of their values. -/
def letters : List Char :=
  "ABCDEFGHIJKLMNOPQRSTUVWXYZabcdefghijklmnopqrstuvwxyz0123456789+/".toList

/-- The letter of a value of six bits. -/
def letter (n : ℕ) : Char := letters.getD n '='

/-- The value of a letter. -/
def value (c : Char) : Option ℕ := letters.idxOf? c

/-! ## Writing -/

def encodeChars : List UInt8 → List Char
  | [] => []
  | [a] => [letter (a.toNat / 4), letter (a.toNat % 4 * 16), '=', '=']
  | [a, b] =>
    [letter (a.toNat / 4), letter (a.toNat % 4 * 16 + b.toNat / 16), letter (b.toNat % 16 * 4), '=']
  | a :: b :: c :: rest =>
    letter (a.toNat / 4) :: letter (a.toNat % 4 * 16 + b.toNat / 16) ::
      letter (b.toNat % 16 * 4 + c.toNat / 64) :: letter (c.toNat % 64) :: encodeChars rest

/-- The text of bytes. -/
def encode (bytes : List UInt8) : String := String.ofList (encodeChars bytes)

/-! ## Reading -/

/-- The bytes of the last four characters, which end in padding. -/
def decodeLast (a b c : Char) : Option (List UInt8) :=
  match value a, value b with
  | some x, some y =>
    if c = '=' then
      if y % 16 = 0 then some [UInt8.ofNat (x * 4 + y / 16)] else none
    else
      match value c with
      | some z =>
        if z % 4 = 0 then
          some [UInt8.ofNat (x * 4 + y / 16), UInt8.ofNat (y % 16 * 16 + z / 4)]
        else none
      | none => none
  | _, _ => none

/-- The bytes of four letters. -/
def decodeGroup (a b c d : Char) : Option (List UInt8) :=
  match value a, value b, value c, value d with
  | some x, some y, some z, some w =>
    some [UInt8.ofNat (x * 4 + y / 16), UInt8.ofNat (y % 16 * 16 + z / 4),
      UInt8.ofNat (z % 4 * 64 + w)]
  | _, _, _, _ => none

def decodeChars : List Char → Option (List UInt8)
  | [] => some []
  | a :: b :: c :: d :: rest =>
    if d = '=' ∧ rest = [] then decodeLast a b c
    else
      match decodeGroup a b c d, decodeChars rest with
      | some bytes, some more => some (bytes ++ more)
      | _, _ => none
  | _ => none

/-- The bytes of a text. -/
def decode (text : String) : Option (List UInt8) := decodeChars text.toList

/-! ## Round trip -/

theorem value_letter {n : ℕ} (h : n < 64) : value (letter n) = some n := by
  have hall : ∀ n < 64, value (letter n) = some n := by decide +kernel
  exact hall n h

theorem letter_ne_pad {n : ℕ} (h : n < 64) : letter n ≠ '=' := by
  have hall : ∀ n < 64, letter n ≠ '=' := by decide +kernel
  exact hall n h

/-- A byte is put together from its parts. -/
theorem ofNat_eq {n : ℕ} {a : UInt8} (h : n = a.toNat) : UInt8.ofNat n = a := by
  rw [h, UInt8.ofNat_toNat]

theorem decodeLast_one (a : UInt8) :
    decodeLast (letter (a.toNat / 4)) (letter (a.toNat % 4 * 16)) '=' = some [a] := by
  have ha := a.toNat_lt
  unfold decodeLast
  rw [value_letter (by omega), value_letter (by omega)]
  dsimp only
  rw [if_pos rfl, if_pos (by omega), ofNat_eq (a := a) (by omega)]

theorem decodeLast_two (a b : UInt8) :
    decodeLast (letter (a.toNat / 4)) (letter (a.toNat % 4 * 16 + b.toNat / 16))
      (letter (b.toNat % 16 * 4)) = some [a, b] := by
  have ha := a.toNat_lt
  have hb := b.toNat_lt
  unfold decodeLast
  rw [value_letter (by omega), value_letter (by omega), value_letter (by omega)]
  dsimp only
  rw [if_neg (letter_ne_pad (by omega)), if_pos (by omega), ofNat_eq (a := a) (by omega),
    ofNat_eq (a := b) (by omega)]

theorem decodeGroup_three (a b c : UInt8) :
    decodeGroup (letter (a.toNat / 4)) (letter (a.toNat % 4 * 16 + b.toNat / 16))
      (letter (b.toNat % 16 * 4 + c.toNat / 64)) (letter (c.toNat % 64)) = some [a, b, c] := by
  have ha := a.toNat_lt
  have hb := b.toNat_lt
  have hc := c.toNat_lt
  unfold decodeGroup
  rw [value_letter (by omega), value_letter (by omega), value_letter (by omega),
    value_letter (by omega)]
  dsimp only
  rw [ofNat_eq (a := a) (by omega), ofNat_eq (a := b) (by omega), ofNat_eq (a := c) (by omega)]

theorem decodeChars_encodeChars (bytes : List UInt8) :
    decodeChars (encodeChars bytes) = some bytes := by
  induction bytes using encodeChars.induct with
  | case1 => rfl
  | case2 a =>
    unfold encodeChars decodeChars
    rw [if_pos ⟨rfl, rfl⟩, decodeLast_one]
  | case3 a b =>
    unfold encodeChars decodeChars
    rw [if_pos ⟨rfl, rfl⟩, decodeLast_two]
  | case4 a b c rest ih =>
    have hc := c.toNat_lt
    unfold encodeChars decodeChars
    rw [if_neg fun h => letter_ne_pad (by omega) h.1, decodeGroup_three, ih]
    rfl

/-- The text of bytes is read as the bytes. -/
theorem decode_encode (bytes : List UInt8) : decode (encode bytes) = some bytes := by
  unfold decode encode
  rw [String.toList_ofList, decodeChars_encodeChars]

end Base64

end Lib
