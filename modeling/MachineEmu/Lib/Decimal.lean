import Mathlib.Algebra.Group.Nat.Defs

/-!
# Decimal numerals

The text of a natural number, and what its characters are.

* `parseUnsigned` — the value of a numeral within a bound.
* `parseUnsigned_toString` — the text of a number is parsed to the number.
-/

namespace Lib

theorem toList_toString (n : Nat) : (toString n).toList = Nat.toDigits 10 n := by
  simp [toString, Nat.repr_eq_ofList_toDigits]

theorem isDigit_of_mem_toString {n : Nat} {c : Char} (h : c ∈ (toString n).toList) :
    c.isDigit = true := by
  rw [toList_toString] at h
  exact Nat.isDigit_of_mem_toDigits (by decide) (by decide) h

theorem toString_all_isDigit (n : Nat) : (toString n).toList.all Char.isDigit = true := by
  rw [List.all_eq_true]
  exact fun c hc => isDigit_of_mem_toString hc

theorem toList_toString_ne_nil (n : Nat) : (toString n).toList ≠ [] := by
  rw [toList_toString]
  exact Nat.toDigits_ne_nil

theorem ofDigitChars_toString (n : Nat) : Nat.ofDigitChars 10 (toString n).toList 0 = n := by
  rw [toList_toString]
  exact Nat.ofDigitChars_ten_toDigits

/-- A number below `10 ^ k` has at most `k` digits. -/
theorem length_toString {n k : Nat} (h : n < 10 ^ k) (hk : 0 < k) :
    (toString n).toList.length ≤ k := by
  rw [toList_toString]
  exact (Nat.length_toDigits_le_iff (by decide) hk).2 h

/-- The value of a numeral below a bound, with an optional plus sign. -/
def parseUnsigned (bound : Nat) (text : List Char) : Option Nat :=
  let digits := if text.head? = some '+' then text.tail else text
  if digits = [] ∨ digits.all Char.isDigit = false then none
  else
    let n := Nat.ofDigitChars 10 digits 0
    if n < bound then some n else none

theorem head?_toString (n : Nat) : (toString n).toList.head? ≠ some '+' := by
  intro h
  have hdigit := isDigit_of_mem_toString (List.mem_of_head? h)
  revert hdigit
  decide

theorem parseUnsigned_toString {n bound : Nat} (h : n < bound) :
    parseUnsigned bound (toString n).toList = some n := by
  unfold parseUnsigned
  rw [if_neg (head?_toString n), if_neg, ofDigitChars_toString, if_pos h]
  rw [not_or, toString_all_isDigit]
  exact ⟨toList_toString_ne_nil n, by decide⟩

end Lib
