import MachineEmu.Lib.JsonWriter

/-!
# Characters from UTF-8

* `Utf8.decode` — the characters of bytes that are UTF-8.
* `Utf8.lossy` — characters of any bytes, with a replacement for what is none.
* `Utf8.decode_eq_some_iff` — decoding is the inverse of encoding.
-/

namespace Lib.Utf8

/-- The first character. -/
def first (bytes : List UInt8) : Option Char := bytes.toByteArray.utf8DecodeChar? 0

/-- The characters, with a bound on their number. -/
def decodeFrom : Nat → List UInt8 → Option (List Char)
  | _, [] => some []
  | 0, _ :: _ => none
  | n + 1, bytes =>
    match first bytes with
    | none => none
    | some c => (decodeFrom n (bytes.drop c.utf8Size)).map (c :: ·)

/-- The characters of bytes that are UTF-8. -/
def decode (bytes : List UInt8) : Option (List Char) := decodeFrom bytes.length bytes

/-- Whether a second byte can follow the first one of three or four. -/
def follows (lead second : UInt8) : Bool :=
  if lead = 0xE0 then 0xA0 ≤ second && second ≤ 0xBF
  else if lead = 0xED then 0x80 ≤ second && second ≤ 0x9F
  else if 0xE1 ≤ lead && lead ≤ 0xEF then 0x80 ≤ second && second ≤ 0xBF
  else if lead = 0xF0 then 0x90 ≤ second && second ≤ 0xBF
  else if 0xF1 ≤ lead && lead ≤ 0xF3 then 0x80 ≤ second && second ≤ 0xBF
  else lead == 0xF4 && 0x80 ≤ second && second ≤ 0x8F

/-- How many bytes begin a character that does not go on. -/
def brokenLength : List UInt8 → Nat
  | lead :: second :: rest =>
    if follows lead second then
      match rest with
      | third :: _ => if 0xF0 ≤ lead && 0x80 ≤ third && third ≤ 0xBF then 3 else 2
      | [] => 2
    else 1
  | _ => 1

/-- The characters, with a replacement for each broken one, and a bound on their number. -/
def lossyFrom : Nat → List UInt8 → List Char
  | _, [] => []
  | 0, _ :: _ => []
  | n + 1, bytes =>
    match first bytes with
    | none => '\uFFFD' :: lossyFrom n (bytes.drop (brokenLength bytes))
    | some c => c :: lossyFrom n (bytes.drop c.utf8Size)

/-- `String::from_utf8_lossy`. -/
def lossy (bytes : List UInt8) : List Char := lossyFrom bytes.length bytes

/-! ## One character -/

theorem first_encode (c : Char) (rest : List UInt8) :
    first (String.utf8EncodeChar c ++ rest) = some c := by
  unfold first
  rw [List.toByteArray_append]
  exact ByteArray.utf8DecodeChar?_utf8EncodeChar_append

theorem first_eq_some {bytes : List UInt8} {c : Char} (h : first bytes = some c) :
    ∃ rest, bytes = String.utf8EncodeChar c ++ rest := by
  obtain ⟨rest, hrest⟩ := ByteArray.exists_of_utf8DecodeChar?_eq_some h
  refine ⟨rest.data.toList, ?_⟩
  have := congrArg (fun b : ByteArray => b.data.toList) hrest
  simpa using this

theorem drop_encode (c : Char) (rest : List UInt8) :
    (String.utf8EncodeChar c ++ rest).drop c.utf8Size = rest := by
  rw [← String.length_utf8EncodeChar, List.drop_left]

/-! ## Texts -/

section Steps

variable {bytes : List UInt8} {c : Char} (n : Nat)

theorem decodeFrom_some (h : first bytes = some c) :
    decodeFrom (n + 1) bytes = (decodeFrom n (bytes.drop c.utf8Size)).map (c :: ·) := by
  cases bytes with
  | nil => cases h
  | cons b bytes => simp [decodeFrom, h]

theorem decodeFrom_none (hne : bytes ≠ []) (h : first bytes = none) :
    decodeFrom n bytes = none := by
  cases bytes with
  | nil => exact absurd rfl hne
  | cons b bytes => cases n <;> simp [decodeFrom, h]

end Steps

/-- A bound on the bytes leaves room for the first character. -/
theorem exists_succ {c : Char} {cs : List Char} {n : Nat} (h : (utf8 (c :: cs)).length ≤ n) :
    ∃ m, n = m + 1 ∧ (utf8 cs).length ≤ m := by
  have hpos := c.utf8Size_pos
  rw [utf8_cons, List.length_append, String.length_utf8EncodeChar] at h
  exact ⟨n - 1, by omega, by omega⟩

theorem decodeFrom_utf8 (cs : List Char) {n : Nat} (h : (utf8 cs).length ≤ n) :
    decodeFrom n (utf8 cs) = some cs := by
  induction cs generalizing n with
  | nil => cases n <;> rfl
  | cons c cs ih =>
    obtain ⟨n, rfl, hn⟩ := exists_succ h
    rw [utf8_cons, decodeFrom_some n (first_encode c _), drop_encode, ih hn]
    rfl

theorem utf8_of_decodeFrom {n : Nat} {bytes : List UInt8} {cs : List Char}
    (h : decodeFrom n bytes = some cs) : bytes = utf8 cs := by
  induction n generalizing bytes cs with
  | zero =>
    cases bytes with
    | nil =>
      cases h
      rfl
    | cons b bytes => cases h
  | succ n ih =>
    by_cases hne : bytes = []
    · subst hne
      cases h
      rfl
    · cases hfirst : first bytes with
      | none =>
        rw [decodeFrom_none _ hne hfirst] at h
        cases h
      | some c =>
        obtain ⟨rest, rfl⟩ := first_eq_some hfirst
        rw [decodeFrom_some _ hfirst, drop_encode] at h
        obtain ⟨tail, htail, rfl⟩ := Option.map_eq_some_iff.1 h
        rw [ih htail, utf8_cons]

/-- Decoding is the inverse of encoding. -/
theorem decode_eq_some_iff {bytes : List UInt8} {cs : List Char} :
    decode bytes = some cs ↔ bytes = utf8 cs := by
  refine ⟨utf8_of_decodeFrom, ?_⟩
  rintro rfl
  exact decodeFrom_utf8 cs (Nat.le_refl _)

end Lib.Utf8
