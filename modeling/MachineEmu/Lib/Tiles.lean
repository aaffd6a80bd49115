import Mathlib.Data.Nat.Init
import Mathlib.Tactic.Ring

/-!
# Planes of tiles

A plane of bytes that is kept tile by tile: the tiles of a tile row one after the other, and in a
tile its lines one after the other.

* `Tiling.address` — where a byte of a line lies.
* `Tiling.address_add` — the bytes of a line of a tile lie together.
* `Tiling.address_mono` — bytes further right and further down lie further on.
-/

namespace Lib

/-- A tile has `lines` lines of `pitch` bytes. -/
structure Tiling where
  pitch : Nat
  lines : Nat
  pitch_pos : 0 < pitch
  lines_pos : 0 < lines

namespace Tiling

/-- Where byte `b` of line `y` lies in a plane of `columns` columns of tiles. -/
def address (T : Tiling) (columns y b : Nat) : Nat :=
  (y / T.lines * columns + b / T.pitch) * (T.lines * T.pitch) + y % T.lines * T.pitch + b % T.pitch

variable {T : Tiling} {columns y y' b b' : Nat}

/-- The bytes of a line of a tile lie together. -/
theorem address_add {k : Nat} (h : b % T.pitch + k < T.pitch) :
    T.address columns y (b + k) = T.address columns y b + k := by
  have hdiv : (b + k) / T.pitch = b / T.pitch := by
    rw [Nat.add_div T.pitch_pos, if_neg]
    · rw [Nat.div_eq_of_lt (Nat.lt_of_le_of_lt (Nat.le_add_left _ _) h), Nat.add_zero]
    · rw [Nat.mod_eq_of_lt (Nat.lt_of_le_of_lt (Nat.le_add_left k _) h)]
      exact Nat.not_le.2 h
  have hmod : (b + k) % T.pitch = b % T.pitch + k := by
    rw [Nat.add_mod, Nat.mod_eq_of_lt (Nat.lt_of_le_of_lt (Nat.le_add_left k _) h),
      Nat.mod_eq_of_lt h]
  unfold address
  rw [hdiv, hmod, Nat.add_assoc _ (b % T.pitch)]

/-- A line of a tile ends before the next tile begins. -/
theorem line_end_le : y % T.lines * T.pitch + b % T.pitch < T.lines * T.pitch := by
  calc y % T.lines * T.pitch + b % T.pitch
      < y % T.lines * T.pitch + T.pitch := Nat.add_lt_add_left (Nat.mod_lt _ T.pitch_pos) _
    _ = (y % T.lines + 1) * T.pitch := by ring
    _ ≤ T.lines * T.pitch := Nat.mul_le_mul_right _ (Nat.mod_lt _ T.lines_pos)

theorem address_lt_right (h : b < b') : T.address columns y b < T.address columns y b' := by
  unfold address
  have hline := T.line_end_le (y := y) (b := b)
  rcases Nat.eq_or_lt_of_le (Nat.div_le_div_right (c := T.pitch) (Nat.le_of_lt h)) with hsame | hless
  · have hmod : b % T.pitch < b' % T.pitch := by
      have hb := Nat.div_add_mod b T.pitch
      have hb' := Nat.div_add_mod b' T.pitch
      rw [hsame] at hb
      omega
    rw [hsame]
    exact Nat.add_lt_add_left hmod _
  · -- the tile of `b'` is a later one
    have htile : (y / T.lines * columns + b / T.pitch) * (T.lines * T.pitch) + T.lines * T.pitch ≤
        (y / T.lines * columns + b' / T.pitch) * (T.lines * T.pitch) := by
      rw [← Nat.succ_mul]
      exact Nat.mul_le_mul_right _ (by omega)
    omega

theorem address_le_down (hcolumns : 0 < columns) (h : y ≤ y') :
    T.address columns y b ≤ T.address columns y' b := by
  unfold address
  have hline := T.line_end_le (y := y) (b := b)
  rcases Nat.eq_or_lt_of_le (Nat.div_le_div_right (c := T.lines) h) with hsame | hless
  · have hmod : y % T.lines ≤ y' % T.lines := by
      have hy := Nat.div_add_mod y T.lines
      have hy' := Nat.div_add_mod y' T.lines
      rw [hsame] at hy
      omega
    rw [hsame]
    exact Nat.add_le_add_right (Nat.add_le_add_left (Nat.mul_le_mul_right _ hmod) _) _
  · -- the tile row of `y'` is a later one
    have hrow : y / T.lines * columns + 1 ≤ y' / T.lines * columns :=
      calc y / T.lines * columns + 1 ≤ y / T.lines * columns + columns := Nat.add_le_add_left hcolumns _
        _ = (y / T.lines + 1) * columns := by ring
        _ ≤ y' / T.lines * columns := Nat.mul_le_mul_right _ hless
    have htile : (y / T.lines * columns + b / T.pitch) * (T.lines * T.pitch) + T.lines * T.pitch ≤
        (y' / T.lines * columns + b / T.pitch) * (T.lines * T.pitch) := by
      rw [← Nat.succ_mul]
      exact Nat.mul_le_mul_right _ (by omega)
    omega

/-- Bytes further right and further down lie further on. -/
theorem address_mono (hcolumns : 0 < columns) (hy : y ≤ y') (hb : b ≤ b') :
    T.address columns y b ≤ T.address columns y' b' := by
  apply Nat.le_trans (address_le_down hcolumns hy)
  rcases Nat.eq_or_lt_of_le hb with rfl | hless
  · exact Nat.le_refl _
  · exact Nat.le_of_lt (address_lt_right hless)

end Tiling

end Lib
