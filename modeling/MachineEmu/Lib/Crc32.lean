import Mathlib.Data.Nat.Notation
import Mathlib.Data.Nat.Bitwise

/-!
# Checksums

The checksum of zlib, on natural numbers.

* `crc32` — the checksum of some bytes, going on from another.
* `crc32_append`, `crc32_lt` — bytes may be taken in pieces; it has 32 bits.
* `crc32_middle_inj` — one other byte makes another checksum.
-/

namespace Lib

/-- One bit of the division by the reversed polynomial. -/
def crcBit (c : ℕ) : ℕ := if c % 2 = 1 then (c / 2) ^^^ 0xEDB88320 else c / 2

def crcByte (c : ℕ) (b : UInt8) : ℕ := Nat.repeat crcBit 8 (c ^^^ b.toNat)

/-- `zlib.crc32(data, start)`. -/
def crc32 (start : ℕ) (data : List UInt8) : ℕ :=
  data.foldl crcByte (start ^^^ 0xFFFFFFFF) ^^^ 0xFFFFFFFF

@[simp] theorem crc32_nil (start : ℕ) : crc32 start [] = start := by
  rw [crc32, List.foldl_nil, Nat.xor_assoc, Nat.xor_self, Nat.xor_zero]

/-- The checksum goes on where it was left. -/
theorem crc32_append (start : ℕ) (front rest : List UInt8) :
    crc32 start (front ++ rest) = crc32 (crc32 start front) rest := by
  rw [crc32, crc32, crc32, List.foldl_append, Nat.xor_assoc, Nat.xor_self, Nat.xor_zero]

variable {c : ℕ}

theorem crcBit_lt (hc : c < 2 ^ 32) : crcBit c < 2 ^ 32 := by
  unfold crcBit
  split
  · exact Nat.xor_lt_two_pow (by omega) (by decide)
  · omega

theorem repeat_crcBit_lt (n : ℕ) (hc : c < 2 ^ 32) : Nat.repeat crcBit n c < 2 ^ 32 := by
  induction n with
  | zero => exact hc
  | succ n ih => exact crcBit_lt ih

theorem xor_byte_lt (hc : c < 2 ^ 32) (b : UInt8) : c ^^^ b.toNat < 2 ^ 32 :=
  Nat.xor_lt_two_pow hc (lt_trans b.toNat_lt (by decide))

theorem foldl_crcByte_lt (data : List UInt8) (hc : c < 2 ^ 32) : data.foldl crcByte c < 2 ^ 32 := by
  induction data generalizing c with
  | nil => exact hc
  | cons b data ih => exact ih (repeat_crcBit_lt 8 (xor_byte_lt hc b))

/-- A checksum has 32 bits. -/
theorem crc32_lt {start : ℕ} (h : start < 2 ^ 32) (data : List UInt8) : crc32 start data < 2 ^ 32 :=
  Nat.xor_lt_two_pow (foldl_crcByte_lt data (Nat.xor_lt_two_pow h (by decide))) (by decide)

/-! ## One byte decides -/

/-- The highest bit says whether the polynomial was subtracted. -/
theorem testBit_crcBit (hc : c < 2 ^ 32) : (crcBit c).testBit 31 = decide (c % 2 = 1) := by
  have hhalf : (c / 2).testBit 31 = false := Nat.testBit_lt_two_pow (by omega)
  unfold crcBit
  split
  · next hodd =>
    rw [Nat.testBit_xor, hhalf, decide_eq_true hodd]
    rfl
  · next hodd => rw [hhalf, decide_eq_false hodd]

theorem crcBit_inj {d : ℕ} (hc : c < 2 ^ 32) (hd : d < 2 ^ 32) (h : crcBit c = crcBit d) :
    c = d := by
  have hparity : decide (c % 2 = 1) = decide (d % 2 = 1) := by
    rw [← testBit_crcBit hc, ← testBit_crcBit hd, h]
  rw [decide_eq_decide] at hparity
  have hhalf : c / 2 = d / 2 := by
    unfold crcBit at h
    split_ifs at h with hodd hodd' hodd'
    · exact Nat.xor_left_injective h
    · exact absurd (hparity.1 hodd) hodd'
    · exact absurd (hparity.2 hodd') hodd
    · exact h
  omega

theorem repeat_crcBit_inj (n : ℕ) {d : ℕ} (hc : c < 2 ^ 32) (hd : d < 2 ^ 32)
    (h : Nat.repeat crcBit n c = Nat.repeat crcBit n d) : c = d := by
  induction n with
  | zero => exact h
  | succ n ih => exact ih (crcBit_inj (repeat_crcBit_lt n hc) (repeat_crcBit_lt n hd) h)

theorem foldl_crcByte_inj (data : List UInt8) {d : ℕ} (hc : c < 2 ^ 32) (hd : d < 2 ^ 32)
    (h : data.foldl crcByte c = data.foldl crcByte d) : c = d := by
  induction data generalizing c d with
  | nil => exact h
  | cons b data ih =>
    have hbyte := ih (repeat_crcBit_lt 8 (xor_byte_lt hc b)) (repeat_crcBit_lt 8 (xor_byte_lt hd b)) h
    exact Nat.xor_left_injective (repeat_crcBit_inj 8 (xor_byte_lt hc b) (xor_byte_lt hd b) hbyte)

/-- Data that differ in one byte differ in their checksums. -/
theorem crc32_middle_inj {start : ℕ} (hstart : start < 2 ^ 32) {front rest : List UInt8}
    {b b' : UInt8} (h : crc32 start (front ++ b :: rest) = crc32 start (front ++ b' :: rest)) :
    b = b' := by
  have hfront : crc32 start front ^^^ 0xFFFFFFFF < 2 ^ 32 :=
    Nat.xor_lt_two_pow (crc32_lt hstart front) (by decide)
  rw [crc32_append, crc32_append] at h
  have hfirst := foldl_crcByte_inj rest (repeat_crcBit_lt 8 (xor_byte_lt hfront b))
    (repeat_crcBit_lt 8 (xor_byte_lt hfront b')) (Nat.xor_left_injective h)
  have hbyte := repeat_crcBit_inj 8 (xor_byte_lt hfront b) (xor_byte_lt hfront b') hfirst
  exact UInt8.toNat_inj.1 (Nat.xor_right_injective hbyte)

theorem eq_of_crc32_set {start : ℕ} (hstart : start < 2 ^ 32) {data : List UInt8} {k : ℕ} {b : UInt8}
    (hk : k < data.length) (h : crc32 start (data.set k b) = crc32 start data) : b = data[k] := by
  have hself : data = data.take k ++ data[k] :: data.drop (k + 1) := by
    rw [List.getElem_cons_drop, List.take_append_drop]
  have hset : data.set k b = data.take k ++ b :: data.drop (k + 1) := by
    rw [List.set_eq_take_append_cons_drop, if_pos hk]
  exact crc32_middle_inj hstart ((congrArg (crc32 start) hset).symm.trans
    (h.trans (congrArg (crc32 start) hself)))

example : crc32 0 [49, 50, 51, 52, 53, 54, 55, 56, 57] = 0xCBF43926 := by decide +kernel

end Lib
