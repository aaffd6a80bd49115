import Mathlib.Algebra.Order.Ring.Nat
import Mathlib.Tactic.Ring

/-!
# Numbers in bytes

* `beNat`, `beBytes` — big-endian numbers; each undoes the other.
* `leNat` — little-endian numbers.
* `slice`, `splice` — a range of a buffer read and written.
-/

namespace Lib

open List

/-- The number that some bytes hold, the most significant first. -/
def beNat : List UInt8 → Nat
  | [] => 0
  | b :: bs => b.toNat * 256 ^ bs.length + beNat bs

/-- The number that some bytes hold, the least significant first. -/
def leNat : List UInt8 → Nat
  | [] => 0
  | b :: bs => b.toNat + 256 * leNat bs

/-- The lowest `k` bytes of a number, the most significant first. -/
def beBytes : Nat → Nat → List UInt8
  | 0, _ => []
  | k + 1, n => UInt8.ofNat (n / 256 ^ k) :: beBytes k n

/-- The `n` elements from `start` on. -/
def slice {α : Type} (bs : List α) (start n : Nat) : List α := (bs.drop start).take n

@[simp] theorem length_beBytes (k n : Nat) : (beBytes k n).length = k := by
  induction k with
  | zero => rfl
  | succ k ih => simp [beBytes, ih]

theorem beNat_lt (bs : List UInt8) : beNat bs < 256 ^ bs.length := by
  induction bs with
  | nil => simp [beNat]
  | cons b bs ih =>
    have hb : b.toNat + 1 ≤ 256 := b.toNat_lt
    calc beNat (b :: bs) < b.toNat * 256 ^ bs.length + 256 ^ bs.length := Nat.add_lt_add_left ih _
      _ = (b.toNat + 1) * 256 ^ bs.length := by ring
      _ ≤ 256 * 256 ^ bs.length := Nat.mul_le_mul_right _ hb
      _ = 256 ^ (b :: bs).length := by rw [length_cons, pow_succ]; ring

/-- Reading what was written. -/
theorem beNat_beBytes (k n : Nat) : beNat (beBytes k n) = n % 256 ^ k := by
  induction k with
  | zero => simp [beNat, beBytes, Nat.mod_one]
  | succ k ih =>
    rw [beBytes, beNat, ih, length_beBytes, Nat.mod_pow_succ, UInt8.toNat_ofNat']
    ring

/-- Only the lowest bytes are written. -/
theorem beBytes_add (k m n : Nat) : beBytes k (m * 256 ^ k + n) = beBytes k n := by
  induction k generalizing m with
  | zero => rfl
  | succ k ih =>
    have hsplit : m * 256 ^ (k + 1) + n = (m * 256) * 256 ^ k + n := by ring
    have hdiv : ((m * 256) * 256 ^ k + n) / 256 ^ k = m * 256 + n / 256 ^ k := by
      rw [Nat.mul_comm, Nat.mul_add_div (Nat.pow_pos (by decide))]
    rw [hsplit, beBytes, beBytes, ih, hdiv]
    congr 1
    apply UInt8.toNat_inj.1
    rw [UInt8.toNat_ofNat', UInt8.toNat_ofNat']
    omega

/-- Writing what was read. -/
theorem beBytes_beNat (bs : List UInt8) : beBytes bs.length (beNat bs) = bs := by
  induction bs with
  | nil => rfl
  | cons b bs ih =>
    have hdiv : (b.toNat * 256 ^ bs.length + beNat bs) / 256 ^ bs.length = b.toNat := by
      rw [Nat.mul_comm, Nat.mul_add_div (Nat.pow_pos (by decide)), Nat.div_eq_of_lt (beNat_lt bs),
        Nat.add_zero]
    rw [length_cons, beNat, beBytes, beBytes_add, hdiv, ih, UInt8.ofNat_toNat]

section Slice

variable {α : Type} {bs : List α} {start n : Nat}

@[simp] theorem length_slice (h : start + n ≤ bs.length) : (slice bs start n).length = n := by
  rw [slice, length_take, length_drop]
  omega

theorem slice_all (h : bs.length = n) : slice bs 0 n = bs := by
  rw [slice, drop_zero, ← h, take_length]

variable {k : Nat}

/-- The front of a range. -/
theorem slice_slice (h : k ≤ n) : slice (slice bs start n) 0 k = slice bs start k := by
  rw [slice, slice, slice, drop_zero, take_take, Nat.min_eq_left h]

/-- What comes later changes nothing. -/
theorem slice_append (h : start + n ≤ bs.length) (later : List α) :
    slice (bs ++ later) start n = slice bs start n := by
  rw [slice, slice, drop_append_of_le_length (by omega), take_append_of_le_length]
  rw [length_drop]
  omega

/-- A range behind a front and before the rest. -/
theorem slice_middle {front middle : List α} (h : front.length = start) (hn : middle.length = n)
    (later : List α) : slice (front ++ middle ++ later) start n = middle := by
  rw [slice, append_assoc, ← h, drop_left, ← hn, take_left]

/-- A range and what comes after it. -/
theorem slice_drop (bs : List α) (start n : Nat) :
    slice bs start n ++ bs.drop (start + n) = bs.drop start := by
  rw [slice, ← drop_drop, take_append_drop]

theorem getD_append_of_lt {d : α} (h : n < bs.length) (later : List α) :
    (bs ++ later).getD n d = bs.getD n d := by
  rw [getD_eq_getElem?_getD, getD_eq_getElem?_getD, List.getElem?_append_left h]

/-- Write a piece over a list. -/
def splice (bs : List α) (start : Nat) (piece : List α) : List α :=
  bs.take start ++ piece ++ bs.drop (start + piece.length)

variable {piece : List α}

theorem length_splice (h : start + piece.length ≤ bs.length) :
    (splice bs start piece).length = bs.length := by
  simp only [splice, length_append, length_take, length_drop]
  omega

/-- A piece after the part that stays. -/
theorem splice_append {front later : List α} (h : front.length = start) :
    splice (front ++ later) start piece = front ++ piece ++ later.drop piece.length := by
  rw [splice, ← h, take_left, drop_length_add_append]

theorem take_splice (piece : List α) (h : start ≤ bs.length) :
    (splice bs start piece).take (start + piece.length) = bs.take start ++ piece := by
  refine take_left' ?_
  rw [length_append, length_take, Nat.min_eq_left h]

/-- A range inside of a range. -/
theorem slice_of_slice {m : Nat} (h : k + m ≤ n) :
    slice (slice bs start n) k m = slice bs (start + k) m := by
  simp only [slice]
  rw [drop_take, take_take, drop_drop, Nat.min_eq_left (by omega)]

/-- A range inside of a piece that was written. -/
theorem slice_splice_inside {m : Nat} (h : start + piece.length ≤ bs.length)
    (hk : k + m ≤ piece.length) : slice (splice bs start piece) (start + k) m = slice piece k m := by
  have hfront : (bs.take start).length = start := by
    rw [length_take, Nat.min_eq_left (by omega)]
  rw [splice, append_assoc, slice, ← drop_drop, drop_left' hfront, slice,
    drop_append_of_le_length (by omega), take_append_of_le_length]
  rw [length_drop]
  omega

/-- A range before a piece that was written, or behind it. -/
theorem slice_splice_outside {m : Nat} (h : start + piece.length ≤ bs.length)
    (hk : k + m ≤ start ∨ start + piece.length ≤ k) :
    slice (splice bs start piece) k m = slice bs k m := by
  have hfront : (bs.take start).length = start := by
    rw [length_take, Nat.min_eq_left (by omega)]
  rcases hk with hk | hk
  · rw [splice, append_assoc, slice_append (by omega), slice, slice, drop_take,
      take_take, Nat.min_eq_left (by omega)]
  · have hlength : (bs.take start ++ piece).length = start + piece.length := by
      rw [length_append, hfront]
    obtain ⟨j, rfl⟩ : ∃ j, k = start + piece.length + j := ⟨k - (start + piece.length), by omega⟩
    rw [splice, slice, ← hlength, drop_length_add_append, hlength, drop_drop, slice]

theorem getElem?_slice (bs : List α) (start n i : Nat) :
    (slice bs start n)[i]? = if i < n then bs[start + i]? else none := by
  rw [slice, List.getElem?_take, List.getElem?_drop]

/-- A range, and the range behind it. -/
theorem slice_add (bs : List α) (start n m : Nat) :
    slice bs start (n + m) = slice bs start n ++ slice bs (start + n) m := by
  rw [slice, slice, slice, take_add, drop_drop]

theorem splice_slice (h : start + n ≤ bs.length) : splice bs start (slice bs start n) = bs := by
  rw [splice, length_slice h, append_assoc, slice_drop, take_append_drop]

/-- A range with one other element. -/
theorem slice_set {i : Nat} (h : start ≤ i) (b : α) :
    slice (bs.set i b) start n = (slice bs start n).set (i - start) b := by
  rw [slice, slice, drop_set, if_neg (Nat.not_lt.2 h), take_set]

/-- What is at a place after a piece was written. -/
theorem getElem?_splice (h : start + piece.length ≤ bs.length) (p : Nat) :
    (splice bs start piece)[p]? =
      if start ≤ p ∧ p < start + piece.length then piece[p - start]? else bs[p]? := by
  have hfront : (bs.take start).length = start := by
    rw [length_take, Nat.min_eq_left (by omega)]
  rw [splice, append_assoc]
  by_cases hlow : p < start
  · rw [List.getElem?_append_left (by omega), List.getElem?_take_of_lt hlow, if_neg (by omega)]
  · rw [List.getElem?_append_right (by omega), hfront]
    by_cases hhigh : p < start + piece.length
    · rw [List.getElem?_append_left (by omega), if_pos ⟨by omega, hhigh⟩]
    · rw [List.getElem?_append_right (by omega), List.getElem?_drop, if_neg (by omega)]
      congr 1
      omega

/-- Two pieces, one behind the other. -/
theorem splice_splice {first second : List α} (h : start + first.length ≤ bs.length) :
    splice (splice bs start first) (start + first.length) second =
      splice bs start (first ++ second) := by
  have hfront : (bs.take start ++ first).length = start + first.length := by
    rw [length_append, length_take, Nat.min_eq_left (by omega)]
  have hsplit : splice bs start first = (bs.take start ++ first) ++ bs.drop (start + first.length) :=
    rfl
  rw [hsplit, splice_append hfront, drop_drop, splice, length_append, Nat.add_assoc,
    append_assoc (bs.take start) first]

/-- A range, element by element. -/
theorem slice_eq_map (h : start + n ≤ bs.length) (d : α) :
    slice bs start n = (List.range n).map fun k => bs.getD (start + k) d := by
  apply ext_getElem
  · rw [length_slice h, length_map, length_range]
  · intro k hk _
    rw [length_slice h] at hk
    rw [getElem_map, getElem_range, getD_eq_getElem?_getD,
      List.getElem?_eq_getElem (by omega), Option.getD_some]
    simp only [slice, getElem_take, getElem_drop]

/-- Blocks of one size. -/
theorem length_flatMap_blocks {block : Nat → List α} {size count : Nat}
    (hblock : ∀ j < count, (block j).length = size) :
    ((List.range count).flatMap block).length = count * size := by
  induction count with
  | zero => simp
  | succ count ih =>
    rw [range_succ, flatMap_append, length_append,
      ih fun j hj => hblock j (Nat.lt_succ_of_lt hj), flatMap_singleton,
      hblock count (Nat.lt_succ_self _), Nat.succ_mul]

/-- A range of one of many blocks of one size. -/
theorem slice_flatMap {block : Nat → List α} {size count i : Nat}
    (hblock : ∀ j < count, (block j).length = size) (hi : i < count)
    (h : start + n ≤ size) :
    slice ((List.range count).flatMap block) (i * size + start) n = slice (block i) start n := by
  have hfront : ((List.range i).flatMap block).length = i * size :=
    length_flatMap_blocks fun j hj => hblock j (by omega)
  have hsplit : List.range count =
      List.range i ++ i :: (List.range (count - i - 1)).map fun k => i + 1 + k := by
    have hcount : count = i + (1 + (count - i - 1)) := by omega
    conv_lhs => rw [hcount, range_add, range_add]
    simp [Nat.add_assoc]
  rw [hsplit, flatMap_append, flatMap_cons, slice, ← drop_drop,
    drop_left' hfront, ← slice, slice_append]
  rw [hblock i hi]
  exact h

end Slice

end Lib
