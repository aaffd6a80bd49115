import MachineEmu.Safety.CursorCallbacks
import MachineEmu.Safety.ToolbarRoom
import Mathlib.Tactic.Positivity

/-!
# When the viewer draws a window

* `scaled_inside`, `scaled_width_le` — a viewport is inside of its area, and how much it scales.
* `paints_blit`, `paints_drawCursor` — the frame and the cursor in their viewport.
* `drawn` — when a window is drawn; `not_drawn` — a small window.
-/

namespace MachineEmu.Viewer

open Lib Lib.Painting Display List

/-! ## The viewport -/

/-- A viewport of at least one pixel inside an area. -/
structure Viewport.Inside (view area : Viewport) : Prop where
  left : area.x ≤ view.x
  top : area.y ≤ view.y
  right : view.x + view.width ≤ area.x + area.width
  bottom : view.y + view.height ≤ area.y + area.height
  width : 0 < view.width
  height : 0 < view.height

variable {source : Nat × Nat}

theorem fit_inside {width height : Nat} {view : Viewport}
    (h : Viewport.fit source (width, height) = some view) : view.Inside ⟨0, 0, width, height⟩ := by
  obtain ⟨sw, sh⟩ := source
  unfold Viewport.fit at h
  dsimp only at h
  split at h
  · cases h
  · cases h
    constructor <;> dsimp only <;> omega

theorem scaledTo_inside {width height : Nat} {view : Viewport}
    {scale : ScaleMode} (hwidth : width ≠ 0) (hheight : height ≠ 0)
    (h : Viewport.scaledTo source (width, height) scale = some view) :
    view.Inside ⟨0, 0, width, height⟩ := by
  cases scale with
  | fit => exact fit_inside h
  | percent percent =>
    unfold Viewport.scaledTo at h
    dsimp only at h
    split at h
    · cases h
      constructor <;> dsimp only <;> omega
    · exact fit_inside h

theorem scaled_inside {area view : Viewport} {scale : ScaleMode}
    (h : Viewport.scaled source area scale = some view) : view.Inside area := by
  unfold Viewport.scaled at h
  split at h
  · cases h
  · next harea =>
    obtain ⟨inner, hinner, rfl⟩ := Option.map_eq_some_iff.1 h
    obtain ⟨hleft, htop, hright, hbottom, hwidth, hheight⟩ :=
      scaledTo_inside (fun hw => harea (.inl hw)) (fun hh => harea (.inr hh)) hinner
    dsimp only at hright hbottom
    constructor <;> dsimp only <;> omega

/-! ### How much a viewport scales -/

theorem toU32_le (q : ℚ) (hq : 0 ≤ q) : (toU32 (nearestInt q) : ℚ) ≤ q + 1 / 2 := by
  have herror := abs_le.1 (nearestInt_error q)
  have hsmall : (toU32 (nearestInt q) : ℚ) ≤ ((nearestInt q).toNat : ℚ) := by
    unfold toU32
    exact_mod_cast Nat.min_le_left _ _
  by_cases hneg : nearestInt q < 0
  · have hzero : (nearestInt q).toNat = 0 := by omega
    rw [hzero, Nat.cast_zero] at hsmall
    linarith
  · have hcast : ((nearestInt q).toNat : ℚ) = (nearestInt q : ℚ) := by
      exact_mod_cast congrArg (Int.cast (R := ℚ)) (Int.toNat_of_nonneg (not_lt.1 hneg))
    rw [hcast] at hsmall
    linarith [herror.2]

/-- The width is at most twice the scaled one, where the height decides. -/
theorem fit_width_le {sw sh ww wh : Nat} {view : Viewport}
    (h : Viewport.fit (sw, sh) (ww, wh) = some view) :
    (view.width : ℚ) ≤ 2 * (sw * (wh / sh)) + 1 := by
  have hratio : (0 : ℚ) ≤ ww / sw := by positivity
  have hratio' : (0 : ℚ) ≤ wh / sh := by positivity
  have hscale : 0 ≤ min (binary64 ((ww : ℚ) / sw)) (binary64 (wh / sh)) :=
    le_min (binary64_nonneg hratio) (binary64_nonneg hratio')
  have hscale' : min (binary64 ((ww : ℚ) / sw)) (binary64 (wh / sh)) ≤
      wh / sh * (1 + 1 / 2 ^ 53) := (min_le_right _ _).trans (binary64_le hratio')
  have hproduct : (0 : ℚ) ≤ sw * min (binary64 ((ww : ℚ) / sw)) (binary64 (wh / sh)) :=
    mul_nonneg (Nat.cast_nonneg _) hscale
  have hround := toU32_le _ (binary64_nonneg hproduct)
  have hbinary := binary64_le hproduct
  have hsw : (0 : ℚ) ≤ sw := Nat.cast_nonneg _
  have hupper : (sw : ℚ) * min (binary64 ((ww : ℚ) / sw)) (binary64 (wh / sh)) ≤
      sw * (wh / sh * (1 + 1 / 2 ^ 53)) := mul_le_mul_of_nonneg_left hscale' hsw
  have hexact : (0 : ℚ) ≤ sw * (wh / sh) := mul_nonneg hsw hratio'
  unfold Viewport.fit at h
  dsimp only at h
  split at h
  · cases h
  · cases h
    push_cast
    refine (min_le_left _ _).trans (max_le ?_ (by linarith))
    nlinarith

/-- The viewport with the axes swapped. -/
def Viewport.swap (view : Viewport) : Viewport := ⟨view.y, view.x, view.height, view.width⟩

theorem fit_swap (sw sh ww wh : Nat) :
    Viewport.fit (sh, sw) (wh, ww) = (Viewport.fit (sw, sh) (ww, wh)).map Viewport.swap := by
  have hzero : (sh = 0 ∨ sw = 0 ∨ wh = 0 ∨ ww = 0) ↔ (sw = 0 ∨ sh = 0 ∨ ww = 0 ∨ wh = 0) := by
    omega
  unfold Viewport.fit
  dsimp only
  rw [min_comm (binary64 ((wh : ℚ) / sh))]
  simp only [hzero]
  split <;> rfl

theorem scaledTo_swap (sw sh ww wh : Nat) (scale : ScaleMode) :
    Viewport.scaledTo (sh, sw) (wh, ww) scale =
      (Viewport.scaledTo (sw, sh) (ww, wh) scale).map Viewport.swap := by
  cases scale with
  | fit => exact fit_swap sw sh ww wh
  | percent percent =>
    have hfits : (saturatingMul sh percent.toNat / 100 ≤ wh ∧
        saturatingMul sw percent.toNat / 100 ≤ ww) ↔ (saturatingMul sw percent.toNat / 100 ≤ ww ∧
        saturatingMul sh percent.toNat / 100 ≤ wh) := and_comm
    simp only [Viewport.scaledTo, hfits]
    split
    · rfl
    · exact fit_swap _ _ _ _

theorem scaled_swap (sw sh : Nat) (area : Viewport) (scale : ScaleMode) :
    Viewport.scaled (sh, sw) area.swap scale =
      (Viewport.scaled (sw, sh) area scale).map Viewport.swap := by
  unfold Viewport.scaled
  by_cases harea : area.width = 0 ∨ area.height = 0
  · rw [if_pos harea]
    exact if_pos harea.symm
  · rw [if_neg harea, Option.map_map]
    refine (if_neg fun h => harea h.symm).trans ?_
    rw [Viewport.swap, scaledTo_swap, Option.map_map]
    rfl

theorem saturatingMul_le (a b : Nat) : saturatingMul a b / 100 ≤ 2 ^ 26 := by
  unfold saturatingMul maxU32
  omega

theorem scaled_width_le {sw sh : Nat} {area view : Viewport} {scale : ScaleMode} (hsw : 0 < sw)
    (harea : area.width * area.height < 2 ^ 61)
    (h : Viewport.scaled (sw, sh) area scale = some view) :
    (view.width : ℚ) ≤ sw * (2 ^ 31 + 1) := by
  have hone : (1 : ℚ) ≤ sw := by exact_mod_cast hsw
  have hwide := (scaled_inside h).right
  have hx := (scaled_inside h).left
  by_cases hnarrow : area.width < 2 ^ 31
  · have hsmall : (view.width : ℚ) ≤ 2 ^ 31 := by
      exact_mod_cast (show view.width ≤ 2 ^ 31 by omega)
    nlinarith
  · have hlow : area.height < 2 ^ 30 := by
      by_contra hhigh
      have := Nat.mul_le_mul (Nat.not_lt.1 hnarrow) (Nat.not_lt.1 hhigh)
      omega
    have hlowQ : (area.height : ℚ) ≤ 2 ^ 30 := by exact_mod_cast hlow.le
    unfold Viewport.scaled at h
    split at h
    · cases h
    · obtain ⟨inner, hinner, rfl⟩ := Option.map_eq_some_iff.1 h
      dsimp only
      cases scale with
      | fit =>
        have hfit := fit_width_le hinner
        have hheight : ((area.height : ℚ) / sh) ≤ 2 ^ 30 := by
          rcases Nat.eq_zero_or_pos sh with hsh | hsh
          · rw [hsh]
            simp
          · exact (div_le_self (Nat.cast_nonneg _) (by exact_mod_cast hsh)).trans hlowQ
        nlinarith
      | percent percent =>
        have hscaled := saturatingMul_le sw percent.toNat
        unfold Viewport.scaledTo at hinner
        dsimp only at hinner
        split at hinner
        · cases hinner
          have hsmall : ((max (saturatingMul sw percent.toNat / 100) 1 : Nat) : ℚ) ≤ 2 ^ 31 := by
            exact_mod_cast (show max (saturatingMul sw percent.toNat / 100) 1 ≤ 2 ^ 31 by omega)
          dsimp only
          nlinarith
        · next hlarge =>
          have hfit := fit_width_le hinner
          have hhigh : area.height < saturatingMul sh percent.toNat / 100 := by omega
          have hratio : ((area.height : ℚ) / (saturatingMul sh percent.toNat / 100 : Nat)) ≤ 1 :=
            div_le_one_of_le₀ (by exact_mod_cast hhigh.le) (Nat.cast_nonneg _)
          have hscaledQ : ((saturatingMul sw percent.toNat / 100 : Nat) : ℚ) ≤ 2 ^ 26 := by
            exact_mod_cast hscaled
          have hnonneg : (0 : ℚ) ≤ (saturatingMul sw percent.toNat / 100 : Nat) :=
            Nat.cast_nonneg _
          nlinarith

/-! ## The frame -/

section Blit

variable {stride rows : Nat}

theorem piece?_eq_some {α : Type} {xs : List α} {start n : Nat} (h : start + n ≤ xs.length) :
    piece? xs start n = some (slice xs start n) := if_pos h

/-- Values that are all there. -/
theorem mapM_of_isSome {α β : Type} {f : α → Option β} {xs : List α}
    (h : ∀ x ∈ xs, (f x).isSome) : ∃ ys, xs.mapM f = some ys ∧ ys.length = xs.length := by
  induction xs with
  | nil => exact ⟨[], rfl, rfl⟩
  | cons x xs ih =>
    obtain ⟨y, hy⟩ := Option.isSome_iff_exists.1 (h x mem_cons_self)
    obtain ⟨ys, hys, hlength⟩ := ih fun x' hx' => h x' (mem_cons_of_mem x hx')
    refine ⟨y :: ys, ?_, by rw [length_cons, length_cons, hlength]⟩
    rw [mapM_cons, hy, hys]
    rfl

/-- A row of a viewport is inside of the window. -/
theorem start_le {view : Viewport} (hright : view.x + view.width ≤ stride)
    (hbottom : view.y + view.height ≤ rows) {row : Nat} (hrow : row < view.height) :
    view.start stride row + view.width ≤ rows * stride := by
  have hlast : (view.y + row + 1) * stride ≤ rows * stride :=
    Nat.mul_le_mul_right stride (by omega)
  unfold Viewport.start
  rw [Nat.add_mul (view.y + row), Nat.one_mul] at hlast
  omega

theorem row_le {row width height : Nat} (hrow : row < height) : row * width + width ≤ width * height := by
  calc row * width + width = (row + 1) * width := by ring
    _ ≤ height * width := Nat.mul_le_mul_right width hrow
    _ = width * height := Nat.mul_comm _ _

/-- A frame that has the size of the viewport. -/
theorem paints_blit_same {frame : Frame} {view : Viewport}
    (hright : view.x + view.width ≤ stride) (hbottom : view.y + view.height ≤ rows)
    (hsame : frame.width.toNat = view.width ∧ frame.height.toNat = view.height) :
    Paints (rows * stride) True (fun _ => True) fun target => blit frame target stride view := by
  have hrow : ∀ row ∈ List.range view.height, Paints (rows * stride) True (fun _ => True)
      fun target => piece? frame.pixels (row * frame.width.toNat) frame.width.toNat >>= fun line =>
        copySpan target (view.start stride row) line := by
    intro row hmem
    have hlt := mem_range.1 hmem
    have hline : row * frame.width.toNat + frame.width.toNat ≤ frame.pixels.length := by
      rw [frame.tight]
      exact row_le (by omega)
    have hroom := start_le hright hbottom hlt
    rw [piece?_eq_some hline]
    refine paints_copySpan.mono (iff_of_true ?_ trivial) fun i _ => trivial
    rw [length_slice hline, hsame.1]
    exact hroom
  unfold blit
  simp only [if_pos hsame]
  exact (Paints.foldlM hrow).mono (iff_of_true (fun _ _ => trivial) trivial) fun i hi => hi

/-- A row of a frame that is scaled is drawn if and only if the frame has a pixel. -/
theorem paints_blit_row {frame : Frame} {view : Viewport}
    (hright : view.x + view.width ≤ stride) (hbottom : view.y + view.height ≤ rows)
    (hwidth : 0 < view.width) {row : Nat} (hlt : row < view.height) :
    Paints (rows * stride) (0 < frame.width.toNat ∧ 0 < frame.height.toNat) (fun _ => True)
      fun target =>
        piece? frame.pixels (row * frame.height.toNat / view.height * frame.width.toNat)
            frame.width.toNat >>= fun source =>
          ((List.range view.width).mapM fun x =>
            source[x * frame.width.toNat / view.width]?) >>= fun line =>
              copySpan target (view.start stride row) line := by
  by_cases hpixel : 0 < frame.width.toNat ∧ 0 < frame.height.toNat
  · have hline : row * frame.height.toNat / view.height * frame.width.toNat +
        frame.width.toNat ≤ frame.pixels.length := by
      rw [frame.tight]
      refine row_le ?_
      rw [Nat.div_lt_iff_lt_mul (by omega), Nat.mul_comm]
      exact Nat.mul_lt_mul_of_pos_left hlt hpixel.2
    have hcolumns : ∀ x ∈ List.range view.width,
        ((slice frame.pixels (row * frame.height.toNat / view.height * frame.width.toNat)
          frame.width.toNat)[x * frame.width.toNat / view.width]?).isSome := by
      intro x hx
      have hcolumn : x * frame.width.toNat / view.width < frame.width.toNat := by
        rw [Nat.div_lt_iff_lt_mul hwidth, Nat.mul_comm]
        exact Nat.mul_lt_mul_of_pos_left (mem_range.1 hx) hpixel.1
      rw [List.getElem?_eq_getElem (by rwa [length_slice hline])]
      rfl
    obtain ⟨line, hmap, hlength⟩ := mapM_of_isSome hcolumns
    rw [length_range] at hlength
    have hroom := start_le hright hbottom hlt
    rw [piece?_eq_some hline]
    simp only [Option.bind_eq_bind, Option.bind_some, hmap]
    refine paints_copySpan.mono (iff_of_true ?_ hpixel) fun i _ => trivial
    rw [hlength]
    exact hroom
  · have hnone : ∀ source, piece? frame.pixels
        (row * frame.height.toNat / view.height * frame.width.toNat) frame.width.toNat =
          some source → ((List.range view.width).mapM fun x =>
            source[x * frame.width.toNat / view.width]?) = none := by
      intro source hsource
      have hempty : frame.pixels = [] := by
        rw [← length_eq_zero_iff, frame.tight, Nat.mul_eq_zero]
        omega
      unfold piece? at hsource
      rw [hempty] at hsource
      split at hsource
      · cases hsource
        obtain ⟨width, hsucc⟩ := Nat.exists_eq_succ_of_ne_zero hwidth.ne'
        rw [hsucc, range_succ_eq_map, mapM_cons]
        simp [slice]
      · cases hsource
    refine ⟨fun hok => absurd hok hpixel, fun _ places _ => ?_, fun places out _ hout => ?_⟩
    · cases hsource : piece? frame.pixels
          (row * frame.height.toNat / view.height * frame.width.toNat) frame.width.toNat with
      | none => rfl
      | some source =>
        show ((List.range view.width).mapM _ >>= _) = none
        rw [hnone source hsource]
        rfl
    · obtain ⟨source, hsource, hrest⟩ := Option.bind_eq_some_iff.1 hout
      rw [hnone source hsource] at hrest
      cases hrest

theorem paints_blit {frame : Frame} {view : Viewport} (hright : view.x + view.width ≤ stride)
    (hbottom : view.y + view.height ≤ rows) (hwidth : 0 < view.width) (hheight : 0 < view.height) :
    Paints (rows * stride) (0 < frame.width.toNat ∧ 0 < frame.height.toNat) (fun _ => True)
      fun target => blit frame target stride view := by
  by_cases hsame : frame.width.toNat = view.width ∧ frame.height.toNat = view.height
  · exact (paints_blit_same hright hbottom hsame).mono
      (iff_of_true trivial ⟨by omega, by omega⟩) fun i hi => hi
  · have hrow : ∀ row ∈ List.range view.height, Paints _ _ _ _ := fun row hmem =>
      @paints_blit_row stride rows frame view hright hbottom hwidth row (mem_range.1 hmem)
    unfold blit
    simp only [if_neg hsame]
    refine (Paints.foldlM hrow).mono ?_ fun i hi => hi
    constructor
    · exact fun h => h 0 (mem_range.2 hheight)
    · exact fun h _ _ => h

end Blit

/-! ## The cursor -/

section Axis

variable {scale : ℚ}

/-- The scale of a viewport that is not too large for its source. -/
theorem cursorScale_bounds {n m : Nat} (hm : 0 < m) (h : (n : ℚ) ≤ m * (2 ^ 31 + 1)) :
    0 ≤ binary64 ((n : ℚ) / m) ∧ binary64 ((n : ℚ) / m) ≤ 2 ^ 31 + 2 := by
  have hmQ : (0 : ℚ) < m := by exact_mod_cast hm
  have hratio : (0 : ℚ) ≤ n / m := by positivity
  have hle : (n : ℚ) / m ≤ 2 ^ 31 + 1 := (div_le_iff₀ hmQ).2 (by linarith)
  refine ⟨binary64_nonneg hratio, (binary64_le hratio).trans ?_⟩
  nlinarith

theorem checkedI64_eq_some {n : ℤ} (hlow : -2 ^ 63 ≤ n) (hhigh : n < 2 ^ 63) :
    checkedI64 n = some n := if_pos ⟨hlow, hhigh⟩

/-- A cursor starts well inside of `i64`. -/
theorem cursorStart_eq_some {origin : Nat} {position hot : Int32} (horigin : origin ≤ 2 ^ 32)
    (hhot : 0 ≤ hot.toInt ∧ hot.toInt < 256) (hscale : 0 ≤ scale ∧ scale ≤ 2 ^ 31 + 2) :
    ∃ start, cursorStart origin position hot scale = some start ∧
      -2 ^ 63 + 2 ^ 42 ≤ start ∧ start ≤ 2 ^ 63 - 2 ^ 42 := by
  have hdelta : |((position.toInt : ℚ) - hot.toInt)| ≤ 2 ^ 31 + 256 := by
    have hlow := position.le_toInt
    have hhigh := position.toInt_lt
    have hbound : |position.toInt - hot.toInt| ≤ 2 ^ 31 + 256 := abs_le.2 ⟨by omega, by omega⟩
    exact_mod_cast hbound
  have hrounded : |binary64 ((position.toInt : ℚ) - hot.toInt)| ≤ 2 ^ 31 + 257 := by
    refine (abs_binary64_le _).trans ?_
    nlinarith
  have hproduct : |binary64 ((position.toInt : ℚ) - hot.toInt) * scale| ≤
      (2 ^ 31 + 257) * (2 ^ 31 + 2) := by
    rw [abs_mul, abs_of_nonneg hscale.1]
    exact mul_le_mul hrounded hscale.2 hscale.1 (by norm_num)
  have hplace : |binary64 (binary64 ((position.toInt : ℚ) - hot.toInt) * scale)| ≤
      2 ^ 62 + 2 ^ 41 := by
    refine (abs_binary64_le _).trans ?_
    nlinarith
  have herror := abs_le.1
    (nearestInt_error (binary64 (binary64 ((position.toInt : ℚ) - hot.toInt) * scale)))
  obtain ⟨hplaceLow, hplaceHigh⟩ := abs_le.1 hplace
  have hlow : -(2 ^ 62 + 2 ^ 41 + 1 : ℤ) ≤
      nearestInt (binary64 (binary64 ((position.toInt : ℚ) - hot.toInt) * scale)) := by
    have hlowQ : (-(2 ^ 62 + 2 ^ 41 + 1 : ℤ) : ℚ) ≤
        nearestInt (binary64 (binary64 ((position.toInt : ℚ) - hot.toInt) * scale)) := by
      push_cast
      linarith [herror.1]
    exact_mod_cast hlowQ
  have hhigh : nearestInt (binary64 (binary64 ((position.toInt : ℚ) - hot.toInt) * scale)) ≤
      (2 ^ 62 + 2 ^ 41 + 1 : ℤ) := by
    have hhighQ : (nearestInt (binary64 (binary64 ((position.toInt : ℚ) - hot.toInt) * scale)) : ℚ)
        ≤ ((2 ^ 62 + 2 ^ 41 + 1 : ℤ) : ℚ) := by
      push_cast
      linarith [herror.2]
    exact_mod_cast hhighQ
  unfold cursorStart toI64
  dsimp only
  refine ⟨_, checkedI64_eq_some ?_ ?_, ?_, ?_⟩ <;> omega

theorem cursorLength_bounds {size : UInt32} (hsize : size.toNat ≤ 256)
    (hscale : 0 ≤ scale ∧ scale ≤ 2 ^ 31 + 2) :
    1 ≤ cursorLength size scale ∧ cursorLength size scale ≤ 2 ^ 41 := by
  have hsizeQ : (size.toNat : ℚ) ≤ 256 := by exact_mod_cast hsize
  have hproduct : (0 : ℚ) ≤ size.toNat * scale := mul_nonneg (Nat.cast_nonneg _) hscale.1
  have hupper : (size.toNat : ℚ) * scale ≤ 256 * (2 ^ 31 + 2) :=
    mul_le_mul hsizeQ hscale.2 hscale.1 (by norm_num)
  have hbinary := binary64_le hproduct
  have herror := abs_le.1 (nearestInt_error (binary64 (size.toNat * scale)))
  have hhigh : nearestInt (binary64 (size.toNat * scale)) ≤ 2 ^ 41 := by
    have hhighQ : (nearestInt (binary64 (size.toNat * scale)) : ℚ) ≤ ((2 ^ 41 : ℤ) : ℚ) := by
      push_cast
      nlinarith [herror.2]
    exact_mod_cast hhighQ
  unfold cursorLength toI64
  omega

end Axis

/-- The hot spot of a valid cursor. -/
theorem hot_bounds {hot : Int32} {size : UInt32} (hnonneg : 0 ≤ hot)
    (hsize : size ≤ maxCursorDimension) (hpos : size ≠ 0) (h : size = 0 ∨ hot < size.toInt32) :
    0 ≤ hot.toInt ∧ hot.toInt < 256 := by
  have hless := Int32.lt_iff_toInt_lt.1 (h.resolve_left hpos)
  have hbound : size.toNat ≤ 256 := UInt32.le_iff_toNat_le.1 hsize
  have hcast : size.toInt32.toInt = size.toNat :=
    BitVec.toInt_eq_toNat_of_lt (by show 2 * size.toNat < 2 ^ 32; omega)
  exact ⟨Int32.le_iff_toInt_le.1 hnonneg, by omega⟩

theorem mem_span {low high i : ℤ} : i ∈ span low high ↔ low ≤ i ∧ i < high := by
  unfold span
  rw [mem_map]
  constructor
  · rintro ⟨k, hk, rfl⟩
    have := mem_range.1 hk
    omega
  · rintro ⟨hlow, hhigh⟩
    exact ⟨(i - low).toNat, mem_range.2 (by omega), by omega⟩

/-- A pixel of the cursor for a pixel of the cursor on the window. -/
theorem cursorPixel_bounds {offset length : ℤ} {size : Nat} (hlow : 0 ≤ offset)
    (hhigh : offset < length) (hsize : 0 < size) :
    (offset * size / length).toNat < size := by
  have hlength : 0 < length := lt_of_le_of_lt hlow hhigh
  have hless : offset * size / length < size := by
    rw [Int.ediv_lt_iff_lt_mul hlength, mul_comm]
    exact Int.mul_lt_mul_of_pos_left hhigh (by exact_mod_cast hsize)
  have hnonneg : 0 ≤ offset * size / length :=
    Int.ediv_nonneg (Int.mul_nonneg hlow (Int.natCast_nonneg _)) hlength.le
  omega

section Cursor

variable {stride rows : Nat} {cursor : Cursor}

theorem paints_drawPixel {cx cy x y : ℤ}
    (hdata : cursor.data.length = cursor.width.toNat * cursor.height.toNat * 4)
    (hcx : cx.toNat < cursor.width.toNat) (hcy : cy.toNat < cursor.height.toNat)
    (hx : x.toNat < stride) (hy : y.toNat < rows) :
    Paints (rows * stride) True (fun _ => True)
      fun target => drawPixel cursor target stride cx cy x y := by
  have hpixel : (cy.toNat * cursor.width.toNat + cx.toNat) * 4 + 4 ≤ cursor.data.length := by
    have hrow := @row_le _ cursor.width.toNat _ hcy
    rw [hdata]
    omega
  have hplace : y.toNat * stride + x.toNat < rows * stride := by
    have hrow := Nat.mul_le_mul_right stride (Nat.succ_le_of_lt hy)
    rw [Nat.succ_mul] at hrow
    omega
  unfold drawPixel
  rw [piece?_eq_some hpixel]
  simp only [Option.bind_eq_bind, Option.bind_some]
  split
  · exact paints_some
  · exact paints_setPlace.mono (iff_of_true hplace trivial) fun i _ => trivial

theorem paints_drawSpan {left top width height x0 x1 y0 y1 : ℤ}
    (hdata : cursor.data.length = cursor.width.toNat * cursor.height.toNat * 4)
    (hcw : 0 < cursor.width.toNat ∧ cursor.width.toNat ≤ 256)
    (hch : 0 < cursor.height.toNat ∧ cursor.height.toNat ≤ 256)
    (hwidth : width ≤ 2 ^ 41) (hheight : height ≤ 2 ^ 41)
    (hx0 : left ≤ x0 ∧ 0 ≤ x0) (hx1 : x1 ≤ left + width ∧ x1 ≤ stride)
    (hy0 : top ≤ y0 ∧ 0 ≤ y0) (hy1 : y1 ≤ top + height ∧ y1 ≤ rows) :
    Paints (rows * stride) True (fun _ => True) fun target =>
      drawSpan cursor target stride left top width height x0 x1 y0 y1 := by
  have hrow : ∀ y ∈ span y0 y1, Paints (rows * stride) True (fun _ => True) fun target =>
      checkedI64 ((y - top) * cursor.height.toNat) >>= fun down =>
        (span x0 x1).foldlM
          (fun target x => checkedI64 ((x - left) * cursor.width.toNat) >>= fun across =>
            drawPixel cursor target stride (across / width) (down / height) x y) target := by
    intro y hy
    obtain ⟨hyLow, hyHigh⟩ := mem_span.1 hy
    have hdown : checkedI64 ((y - top) * cursor.height.toNat) =
        some ((y - top) * cursor.height.toNat) := by
      have hlow : 0 ≤ (y - top) * cursor.height.toNat := Int.mul_nonneg (by omega) (by omega)
      have hhigh : (y - top) * cursor.height.toNat ≤ 2 ^ 41 * 256 :=
        Int.mul_le_mul (by omega) (by omega) (by omega) (by omega)
      exact checkedI64_eq_some (by omega) (by omega)
    have hpixel : ∀ x ∈ span x0 x1, Paints (rows * stride) True (fun _ => True) fun target =>
        checkedI64 ((x - left) * cursor.width.toNat) >>= fun across =>
          drawPixel cursor target stride (across / width)
            ((y - top) * cursor.height.toNat / height) x y := by
      intro x hx
      obtain ⟨hxLow, hxHigh⟩ := mem_span.1 hx
      have hacross : checkedI64 ((x - left) * cursor.width.toNat) =
          some ((x - left) * cursor.width.toNat) := by
        have hlow : 0 ≤ (x - left) * cursor.width.toNat := Int.mul_nonneg (by omega) (by omega)
        have hhigh : (x - left) * cursor.width.toNat ≤ 2 ^ 41 * 256 :=
          Int.mul_le_mul (by omega) (by omega) (by omega) (by omega)
        exact checkedI64_eq_some (by omega) (by omega)
      rw [hacross]
      exact paints_drawPixel hdata (cursorPixel_bounds (by omega) (by omega) hcw.1)
        (cursorPixel_bounds (by omega) (by omega) hch.1) (by omega) (by omega)
    rw [hdown]
    exact (Paints.foldlM hpixel).mono (iff_of_true (fun _ _ => trivial) trivial) fun i hi => hi
  exact (Paints.foldlM hrow).mono (iff_of_true (fun _ _ => trivial) trivial) fun i hi => hi

theorem paints_drawCursorAt {view : Viewport} {left top width height : ℤ} (hstride : 0 < stride)
    (hdata : cursor.data.length = cursor.width.toNat * cursor.height.toNat * 4)
    (hcw : 0 < cursor.width.toNat ∧ cursor.width.toNat ≤ 256)
    (hch : 0 < cursor.height.toNat ∧ cursor.height.toNat ≤ 256)
    (hleft : -2 ^ 63 + 2 ^ 42 ≤ left ∧ left ≤ 2 ^ 63 - 2 ^ 42)
    (htop : -2 ^ 63 + 2 ^ 42 ≤ top ∧ top ≤ 2 ^ 63 - 2 ^ 42)
    (hwidth : 1 ≤ width ∧ width ≤ 2 ^ 41) (hheight : 1 ≤ height ∧ height ≤ 2 ^ 41) :
    Paints (rows * stride) True (fun _ => True)
      fun target => drawCursorAt cursor target stride view left top width height := by
  have hright : checkedI64 (left + width) = some (left + width) :=
    checkedI64_eq_some (by omega) (by omega)
  have hbottom : checkedI64 (top + height) = some (top + height) :=
    checkedI64_eq_some (by omega) (by omega)
  have hspan := @paints_drawSpan stride rows cursor left top width height
    (max (max left view.x) 0) (min (min (left + width) (view.x + view.width : Nat)) stride)
    (max (max top view.y) 0) (min (min (top + height) (view.y + view.height : Nat)) rows)
    hdata hcw hch hwidth.2 hheight.2 (by omega) (by omega) (by omega) (by omega)
  refine hspan.congr fun target hlength => ?_
  unfold drawCursorAt
  rw [hright, hbottom]
  simp only [Option.bind_eq_bind, Option.bind_some]
  rw [hlength, Nat.mul_div_cancel _ hstride]

theorem paints_drawCursor {view : Viewport} (hstride : 0 < stride)
    (hwide : stride ≤ maxU32) (hrows : rows ≤ maxU32) (hright : view.x + view.width ≤ stride)
    (hbottom : view.y + view.height ≤ rows)
    (hwidth : 0 < source.1 → (view.width : ℚ) ≤ source.1 * (2 ^ 31 + 1))
    (hheight : 0 < source.2 → (view.height : ℚ) ≤ source.2 * (2 ^ 31 + 1)) :
    Paints (rows * stride) True (fun _ => True)
      fun target => drawCursor cursor target stride view source := by
  unfold drawCursor
  split
  · exact paints_some
  · next hdrawn =>
    simp only [not_or] at hdrawn
    obtain ⟨-, hvalid, hcw, hch, hsw, hsh⟩ := hdrawn
    obtain ⟨⟨-, hw, hh, hhotX, hhotY, hx, hy⟩, hdata⟩ :=
      Cursor.valid_iff.1 (by simpa using hvalid)
    have hscaleX := cursorScale_bounds (Nat.pos_of_ne_zero hsw) (hwidth (Nat.pos_of_ne_zero hsw))
    have hscaleY := cursorScale_bounds (Nat.pos_of_ne_zero hsh) (hheight (Nat.pos_of_ne_zero hsh))
    unfold maxU32 at hwide hrows
    obtain ⟨left, hleft, hleftLow, hleftHigh⟩ := @cursorStart_eq_some _ view.x cursor.x cursor.hotX
      (by omega) (hot_bounds hhotX hw hcw hx) hscaleX
    obtain ⟨top, htop, htopLow, htopHigh⟩ := @cursorStart_eq_some _ view.y cursor.y cursor.hotY
      (by omega) (hot_bounds hhotY hh hch hy) hscaleY
    have hcw256 : cursor.width.toNat ≤ 256 := UInt32.le_iff_toNat_le.1 hw
    have hch256 : cursor.height.toNat ≤ 256 := UInt32.le_iff_toNat_le.1 hh
    have hcwPos : 0 < cursor.width.toNat :=
      Nat.pos_of_ne_zero fun h => hcw (UInt32.toNat_inj.1 h)
    have hchPos : 0 < cursor.height.toNat :=
      Nat.pos_of_ne_zero fun h => hch (UInt32.toNat_inj.1 h)
    have hlengthX := cursorLength_bounds hcw256 hscaleX
    have hlengthY := cursorLength_bounds hch256 hscaleY
    dsimp only
    rw [hleft, htop]
    exact paints_drawCursorAt hstride hdata ⟨hcwPos, hcw256⟩ ⟨hchPos, hch256⟩
      ⟨hleftLow, hleftHigh⟩ ⟨htopLow, htopHigh⟩ hlengthX hlengthY

end Cursor

/-! ## The window -/

/-- The windows and scenes that are drawn: a frame that is shown has a pixel, and the toolbar has
room. -/
structure Fits (scene : Scene) (window : Window) : Prop where
  frame : ∀ frame, scene.frame = some frame → (scene.viewport window).isSome →
    0 < frame.width.toNat ∧ 0 < frame.height.toNat
  toolbar : Roomy window.width.toNat window.height.toNat scene.grabbed

/-- A window that is drawn, with a toolbar that changes the rows of the toolbar only. -/
def Drawn (scene : Scene) (window : Window) : Prop :=
  ∃ picture out, scene.picture window = some picture ∧ scene.draw window = some out ∧
    out.length = window.height.toNat * window.width.toNat ∧
      ∀ i, toolbarHeight ≤ i / window.width.toNat → out[i]? = picture[i]?

section Window

variable {scene : Scene} {window : Window}

theorem Window.bounds (window : Window) : window.width.toNat ≤ maxU32 ∧
    window.height.toNat ≤ maxU32 ∧ window.width.toNat * (window.height.toNat - toolbarHeight) <
      2 ^ 61 := by
  have hwidth := window.width.toNat_lt
  have hheight := window.height.toNat_lt
  have hfits := window.fits
  have hless := Nat.mul_le_mul_left window.width.toNat
    (Nat.sub_le window.height.toNat toolbarHeight)
  unfold maxU32
  omega

theorem viewport_inside {view : Viewport} (h : scene.viewport window = some view) :
    view.x + view.width ≤ window.width.toNat ∧ view.y + view.height ≤ window.height.toNat ∧
      0 < view.width ∧ 0 < view.height := by
  obtain ⟨source, -, hscaled⟩ := Option.bind_eq_some_iff.1 h
  obtain ⟨-, htop, hright, hbottom, hwidth, hheight⟩ := scaled_inside hscaled
  dsimp only at htop hright hbottom
  omega

theorem viewport_scale {view : Viewport} {sw sh : UInt32} (hsource : scene.source = some (sw, sh))
    (h : scene.viewport window = some view) :
    (0 < sw.toNat → (view.width : ℚ) ≤ sw.toNat * (2 ^ 31 + 1)) ∧
      (0 < sh.toNat → (view.height : ℚ) ≤ sh.toNat * (2 ^ 31 + 1)) := by
  obtain ⟨source, hsize, hscaled⟩ := Option.bind_eq_some_iff.1 h
  unfold Scene.sourceSize at hsize
  rw [hsource] at hsize
  cases hsize
  have harea := window.bounds.2.2
  refine ⟨fun hsw => scaled_width_le hsw harea hscaled, fun hsh => ?_⟩
  have hswap := scaled_swap sw.toNat sh.toNat
    ⟨0, toolbarHeight, window.width.toNat, window.height.toNat - toolbarHeight⟩ scene.scale
  rw [hscaled, Option.map_some] at hswap
  exact scaled_width_le hsh (by rw [Nat.mul_comm]; exact harea) hswap

theorem paints_drawFrame :
    Paints (window.height.toNat * window.width.toNat)
      (∀ frame, scene.frame = some frame → (scene.viewport window).isSome →
        0 < frame.width.toNat ∧ 0 < frame.height.toNat) (fun _ => True)
      (scene.drawFrame window) := by
  unfold Scene.drawFrame
  cases hframe : scene.frame with
  | none => exact paints_some.mono (by simp) fun i hi => hi
  | some frame =>
    cases hview : scene.viewport window with
    | none => exact paints_some.mono (by simp) fun i hi => hi
    | some view =>
      obtain ⟨hright, hbottom, hwidth, hheight⟩ := viewport_inside hview
      exact (paints_blit hright hbottom hwidth hheight).mono (by simp) fun i hi => hi

theorem paints_drawPointer :
    Paints (window.height.toNat * window.width.toNat) True (fun _ => True)
      (scene.drawPointer window) := by
  unfold Scene.drawPointer
  cases scene.cursor with
  | none => exact paints_some
  | some cursor =>
    cases hview : scene.viewport window with
    | none => exact paints_some
    | some view =>
      cases hsource : scene.source with
      | none => exact paints_some
      | some source =>
        obtain ⟨hright, hbottom, -, -⟩ := viewport_inside hview
        obtain ⟨hwidth, hheight⟩ := viewport_scale hsource hview
        obtain ⟨hwide, hrows, -⟩ := window.bounds
        exact paints_drawCursor window.width_pos hwide hrows hright hbottom hwidth hheight

theorem Window.length_buffer (window : Window) :
    (List.replicate (window.width.toNat * window.height.toNat) (0 : UInt32)).length =
      window.height.toNat * window.width.toNat := by
  rw [length_replicate, Nat.mul_comm]

theorem paints_picture :
    Paints (window.height.toNat * window.width.toNat)
      (∀ frame, scene.frame = some frame → (scene.viewport window).isSome →
        0 < frame.width.toNat ∧ 0 < frame.height.toNat) (fun _ => True)
      fun buffer => scene.drawFrame window buffer >>= scene.drawPointer window :=
  (paints_drawFrame.bind paints_drawPointer).mono (iff_of_eq (and_true _)) fun _ h => h

theorem paints_toolbar :
    Paints (window.height.toNat * window.width.toNat)
      (Roomy window.width.toNat window.height.toNat scene.grabbed)
      (toolbarRegion window.width.toNat) fun pixels =>
        drawToolbar pixels window.width.toNat scene.screenSize scene.scale scene.resizeGuest
          scene.grabbed := by
  obtain ⟨hwide, hrows, -⟩ := window.bounds
  exact paints_drawToolbar window.width_pos hwide hrows _ _ _ _

end Window

/-- A window is drawn if and only if its frame has a pixel and it has room for the toolbar. -/
theorem drawn (scene : Scene) (window : Window) : Drawn scene window ↔ Fits scene window := by
  have hbuffer := window.length_buffer
  have hpicture := @paints_picture scene window
  have htoolbar := @paints_toolbar scene window
  constructor
  · rintro ⟨picture, out, hpic, hdraw, -, -⟩
    have hlength := (hpicture.kept _ _ hbuffer hpic).1
    constructor
    · by_contra hframe
      exact absurd ((hpicture.fails hframe _ hbuffer).symm.trans hpic) nofun
    · by_contra hroom
      have hnone := htoolbar.fails hroom picture hlength
      unfold Scene.draw at hdraw
      rw [hpic] at hdraw
      exact absurd (hnone.symm.trans hdraw) nofun
  · rintro ⟨hframe, hroom⟩
    obtain ⟨picture, hpic⟩ := Option.isSome_iff_exists.1 (hpicture.works hframe _ hbuffer)
    have hlength := (hpicture.kept _ _ hbuffer hpic).1
    obtain ⟨out, hout⟩ := Option.isSome_iff_exists.1 (htoolbar.works hroom picture hlength)
    obtain ⟨houtLength, hsame⟩ := htoolbar.kept picture out hlength hout
    refine ⟨picture, out, hpic, ?_, houtLength, fun i hi => hsame i (Nat.not_lt.2 hi)⟩
    unfold Scene.draw
    rw [show scene.picture window = some picture from hpic]
    exact hout

/-- A window of 300 by 200 pixels. -/
def smallWindow : Window := ⟨300, 200, by decide, by decide, by decide⟩

theorem one_lt_screenSizes : 1 < screenSizes.length := by decide

/-- A viewer before its first frame. -/
def firstScene : Scene := ⟨none, none, none, .fit, ⟨1, one_lt_screenSizes⟩, true, false⟩

/-- A window that is not as wide as the toolbar is not drawn. -/
theorem not_drawn : ¬∀ (scene : Scene) (window : Window), Drawn scene window := by
  intro h
  obtain ⟨picture, out, hpic, hdraw, -, -⟩ := h firstScene smallWindow
  have hlength := (paints_picture.kept _ _ smallWindow.length_buffer hpic).1
  -- the last button starts right of the window
  have hnarrow : ¬Roomy smallWindow.width.toNat smallWindow.height.toNat firstScene.grabbed := by
    have hwidth : smallWindow.width.toNat = 300 := rfl
    have hheight : smallWindow.height.toNat = 200 := rfl
    rw [hwidth, hheight]
    simp [Roomy]
  have hnone := paints_toolbar.fails hnarrow picture hlength
  unfold Scene.draw at hdraw
  rw [hpic] at hdraw
  exact absurd (hnone.symm.trans hdraw) nofun

end MachineEmu.Viewer
