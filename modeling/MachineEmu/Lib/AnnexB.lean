import Mathlib.Data.List.Infix

/-!
# Byte streams of units

A stream of units, each of them behind a start code of three or four bytes.

* `Nal` — a unit: it is not empty, no start code is in it, and its last byte is not zero.
* `encode` — the stream of some units.
* `startCode` — the start code at the beginning of some bytes.
* `startCode_bytes`, `startCode_suffix` — it is found before every unit and nowhere inside of one.
-/

namespace Lib.AnnexB

open List

/-- A start code: three or four bytes. -/
inductive StartCode where
  | short
  | long

def StartCode.bytes : StartCode → List UInt8
  | .short => [0, 0, 1]
  | .long => [0, 0, 0, 1]

/-- A unit. -/
structure Nal where
  bytes : List UInt8
  ne_nil : bytes ≠ []
  plain : ¬[0, 0, 1] <:+: bytes
  last_ne : bytes.getLast ne_nil ≠ 0

/-- The units of a stream, with their start codes. -/
abbrev Units := List (StartCode × Nal)

/-- The stream. -/
def encode (units : Units) : List UInt8 := units.flatMap fun u => u.1.bytes ++ u.2.bytes

/-- The length of the start code at the beginning. -/
def startCode (bytes : List UInt8) : Option Nat :=
  if [0, 0, 1] <+: bytes then some 3 else if [0, 0, 0, 1] <+: bytes then some 4 else none

section Codes

variable {u : StartCode × Nal} {units : Units}

@[simp] theorem encode_nil : encode [] = [] := rfl

theorem encode_cons : encode (u :: units) = u.1.bytes ++ (u.2.bytes ++ encode units) := by
  simp [encode]

theorem three_le_length_bytes (code : StartCode) : 3 ≤ code.bytes.length := by
  cases code <;> decide

theorem length_nal_pos (nal : Nal) : 0 < nal.bytes.length := length_pos_iff.2 nal.ne_nil

/-- A stream has a unit, or nothing. -/
theorem four_le_length_encode (h : units ≠ []) : 4 ≤ (encode units).length := by
  cases units with
  | nil => exact absurd rfl h
  | cons u units =>
    have hcode := three_le_length_bytes u.1
    have hnal := length_nal_pos u.2
    rw [encode_cons, length_append, length_append]
    omega

/-- A start code is found where it is. -/
theorem startCode_bytes (code : StartCode) (later : List UInt8) :
    startCode (code.bytes ++ later) = some code.bytes.length := by
  unfold startCode
  cases code with
  | short => exact if_pos (prefix_append _ _)
  | long =>
    rw [if_neg (by simp [StartCode.bytes])]
    exact if_pos (prefix_append [0, 0, 0, 1] later)

theorem startCode_nil : startCode [] = none := by
  simp [startCode]

/-- Where a start code begins. -/
theorem exists_of_startCode {bytes : List UInt8} (h : startCode bytes ≠ none) :
    [0, 0, 1] <+: bytes ∨ [0, 0, 0, 1] <+: bytes := by
  unfold startCode at h
  by_cases hshort : [0, 0, 1] <+: bytes
  · exact Or.inl hshort
  · rw [if_neg hshort] at h
    by_cases hlong : [0, 0, 0, 1] <+: bytes
    · exact Or.inr hlong
    · exact absurd (if_neg hlong) h

/-- No start code begins inside of a unit, whatever follows the unit. -/
theorem startCode_suffix {nal : Nal} {suffix : List UInt8} (h : suffix <:+ nal.bytes)
    (hne : suffix ≠ []) (later : List UInt8) : startCode (suffix ++ later) = none := by
  have hlast : suffix.getLast hne ≠ 0 := by
    obtain ⟨front, hfront⟩ := h
    have heq : nal.bytes.getLast nal.ne_nil = suffix.getLast hne := by
      simp only [← hfront, getLast_append_of_ne_nil _ hne]
    exact heq ▸ nal.last_ne
  have hplain : ¬[0, 0, 1] <:+: suffix := fun hin => nal.plain (hin.trans h.isInfix)
  by_contra hfound
  rcases exists_of_startCode hfound with hshort | hlong
  · match suffix, hne with
    | [a], _ =>
      rw [singleton_append, cons_prefix_cons] at hshort
      exact hlast hshort.1.symm
    | [a, b], _ =>
      rw [cons_append, singleton_append, cons_prefix_cons, cons_prefix_cons] at hshort
      exact hlast hshort.2.1.symm
    | a :: b :: c :: rest, _ =>
      simp only [cons_append, cons_prefix_cons] at hshort
      obtain ⟨rfl, rfl, rfl, -⟩ := hshort
      exact hplain ⟨[], rest, rfl⟩
  · match suffix, hne with
    | [a], _ =>
      rw [singleton_append, cons_prefix_cons] at hlong
      exact hlast hlong.1.symm
    | [a, b], _ =>
      rw [cons_append, singleton_append, cons_prefix_cons, cons_prefix_cons] at hlong
      exact hlast hlong.2.1.symm
    | [a, b, c], _ =>
      simp only [cons_append, cons_prefix_cons] at hlong
      exact hlast hlong.2.2.1.symm
    | a :: b :: c :: d :: rest, _ =>
      simp only [cons_append, cons_prefix_cons] at hlong
      obtain ⟨rfl, rfl, rfl, rfl, -⟩ := hlong
      exact hplain ⟨[0], rest, rfl⟩

end Codes

end Lib.AnnexB
