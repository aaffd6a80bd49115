import Mathlib.Data.Nat.Notation

/-!
# Hexadecimal numerals

The text of a natural number in hexadecimal.

* `hexadecimal` — the text.
* `hexadecimal_injective` — different numbers have different texts.
-/

namespace Lib

open List

/-- The text of a number in hexadecimal. -/
def hexadecimal (n : ℕ) : String := String.ofList (Nat.toDigits 16 n)

theorem toList_hexadecimal (n : ℕ) : (hexadecimal n).toList = Nat.toDigits 16 n :=
  String.toList_ofList

theorem digitChar_inj {a b : ℕ} (ha : a < 16) (hb : b < 16) (h : a.digitChar = b.digitChar) :
    a = b := by
  have hall : ∀ a < 16, ∀ b < 16, a.digitChar = b.digitChar → a = b := by decide
  exact hall a ha b hb h

/-- The digits of different numbers are different. -/
theorem toDigits_inj {a b : ℕ} (h : Nat.toDigits 16 a = Nat.toDigits 16 b) : a = b := by
  induction a using Nat.strongRecOn generalizing b with
  | ind a ih =>
    rw [Nat.toDigits_eq_if (by decide), Nat.toDigits_eq_if (n := b) (by decide)] at h
    split at h
    · next ha =>
      split at h
      · next hb => exact digitChar_inj ha hb (singleton_inj.1 h)
      · next hb =>
        have hlength := congrArg List.length h
        have hpos := Nat.length_toDigits_pos (b := 16) (n := b / 16)
        simp only [length_append, length_singleton] at hlength
        omega
    · next ha =>
      split at h
      · next hb =>
        have hlength := congrArg List.length h
        have hpos := Nat.length_toDigits_pos (b := 16) (n := a / 16)
        simp only [length_append, length_singleton] at hlength
        omega
      · next hb =>
        obtain ⟨hfront, hlast⟩ := append_inj' h rfl
        have hdiv := ih (a / 16) (by omega) hfront
        have hmod := digitChar_inj (Nat.mod_lt a (by decide)) (Nat.mod_lt b (by decide))
          (singleton_inj.1 hlast)
        omega

theorem hexadecimal_injective : Function.Injective hexadecimal := by
  intro a b h
  apply toDigits_inj
  rw [← toList_hexadecimal, h, toList_hexadecimal]

/-- A hyphen is no digit. -/
theorem hyphen_notMem_hexadecimal (n : ℕ) : '-' ∉ (hexadecimal n).toList := by
  rw [toList_hexadecimal]
  induction n using Nat.strongRecOn with
  | ind n ih =>
    rw [Nat.toDigits_eq_if (by decide)]
    split
    · simp
    · next hn =>
      rw [mem_append, not_or]
      exact ⟨ih (n / 16) (by omega), by simp⟩

end Lib
