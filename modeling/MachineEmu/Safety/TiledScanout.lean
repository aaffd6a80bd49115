import MachineEmu.Display.Capture

/-!
# Reading a tiled surface

The mapping of a scanout holds as many bytes as the image has lines, while the last row of tiles is
always whole: an image whose height is no multiple of the tile height can end behind the mapping.

* `copyRuns_ok`, `copyRuns_error` — a line is read whole, or refused.
* `linearizeXTiled_eq`, `linearizeXTiled_error` — an image is read whole, or refused.
* `x_tiled_scanout` — when a tiled scanout is accepted, and what it shows.
-/

namespace MachineEmu.Display

open Lib List

/-- The tiles of an X-tiled surface. -/
def xTiles : Tiling := ⟨512, 8, by decide, by decide⟩

/-- Where byte `b` of line `y` of an X-tiled surface lies. -/
def tileAddress (stride y b : Nat) : Nat := xTiles.address (stride / 512) y b

/-- The first `n` bytes of a line of a tiled surface. -/
def tiledLine (mapped : List UInt8) (stride y n : Nat) : List UInt8 :=
  (List.range n).map fun b => mapped.getD (tileAddress stride y b) 0

/-- The line of the source that is shown as line `y`. -/
def sourceLine (height : Nat) (y0Top : Bool) (y : Nat) : Nat :=
  if y0Top then height - 1 - y else y

/-- The last byte of the image lies in the first `length` bytes. -/
def TilesFit (width height stride length : Nat) : Prop :=
  width = 0 ∨ height = 0 ∨ tileAddress stride (height - 1) (width * 4 - 1) + 1 ≤ length

instance (width height stride length : Nat) : Decidable (TilesFit width height stride length) :=
  inferInstanceAs (Decidable (_ ∨ _ ∨ _))

/-- The plain image of a tiled surface. -/
def IsPlain (mapped : List UInt8) (width height stride : Nat) (y0Top : Bool)
    (output : List UInt8) : Prop :=
  output.length = stride * height ∧ ∀ x y, x < width → y < height →
    tileAddress stride (sourceLine height y0Top y) (4 * x) + 4 ≤ mapped.length ∧
    slice output (y * stride + 4 * x) 4 =
      slice mapped (tileAddress stride (sourceLine height y0Top y) (4 * x)) 4

@[simp] theorem length_tiledLine (mapped : List UInt8) (stride y n : Nat) :
    (tiledLine mapped stride y n).length = n := by
  simp [tiledLine]

/-! ## A line -/

section Line

variable {mapped : List UInt8} {stride y stop : Nat}

/-- The bytes of a run lie together. -/
theorem tileAddress_add {p k : Nat} (h : p % 512 + k < 512) :
    tileAddress stride y (p + k) = tileAddress stride y p + k :=
  Tiling.address_add (T := xTiles) h

/-- What a run copies. -/
theorem slice_run {p n : Nat} (hrun : p % 512 + n ≤ 512)
    (hfits : tileAddress stride y p + n ≤ mapped.length) :
    slice mapped (tileAddress stride y p) n =
      (List.range' p n).map fun b => mapped.getD (tileAddress stride y b) 0 := by
  rw [slice_eq_map hfits 0, range'_eq_map_range, map_map]
  apply map_congr_left
  intro k hk
  rw [Function.comp_apply, tileAddress_add]
  have := mem_range.1 hk
  omega

/-- A line whose bytes are all in the mapping is copied. -/
theorem copyRuns_ok {fuel p : Nat} {front later : List UInt8} (hfront : front.length = p)
    (hlater : later.length = stop - p) (hstop : p ≤ stop) (hfuel : stop - p ≤ fuel)
    (h : ∀ b < stop, tileAddress stride y b < mapped.length) :
    copyRuns mapped (stride / 512) y stop fuel p p (front ++ later) =
      .ok (front ++
        (List.range' p (stop - p)).map fun b => mapped.getD (tileAddress stride y b) 0) := by
  induction fuel generalizing p front later with
  | zero =>
    have hzero : stop - p = 0 := by omega
    rw [hzero, length_eq_zero_iff] at hlater
    rw [copyRuns, hzero, hlater]
    rfl
  | succ fuel ih =>
    unfold copyRuns
    by_cases hless : p < stop
    · rw [if_pos hless]
      dsimp only
      generalize hbytes : min (512 - p % 512) (stop - p) = bytes
      have hmod := Nat.mod_lt p (show 512 > 0 by decide)
      have hsource : (y / 8 * (stride / 512) + p / 512) * 4096 + y % 8 * 512 + p % 512 =
        tileAddress stride y p := rfl
      have hlast : tileAddress stride y p + (bytes - 1) < mapped.length := by
        rw [← tileAddress_add (by omega)]
        exact h _ (by omega)
      have hfits : tileAddress stride y p + bytes ≤ mapped.length := by omega
      have hroom : p + bytes ≤ (front ++ later).length := by
        rw [length_append]
        omega
      rw [hsource, if_neg (by omega), splice_append hfront, length_slice hfits, ih]
      · rw [slice_run (by omega) hfits, append_assoc, ← map_append]
        have hsplit : List.range' p (stop - p) =
            List.range' p bytes ++ List.range' (p + bytes) (stop - (p + bytes)) := by
          have hcount : stop - p = bytes + (stop - (p + bytes)) := by omega
          rw [hcount, range'_append_1]
        rw [hsplit]
      · rw [length_append, length_slice hfits, hfront]
      · rw [length_drop]
        omega
      · omega
      · omega
    · have hzero : stop - p = 0 := by omega
      rw [hzero, length_eq_zero_iff] at hlater
      rw [if_neg hless, hzero, hlater]
      rfl

/-- A line whose last byte is not in the mapping is refused. -/
theorem copyRuns_error {fuel p : Nat} {target : List UInt8} (hlength : target.length = stop)
    (hless : p < stop) (hfuel : stop - p ≤ fuel)
    (h : mapped.length ≤ tileAddress stride y (stop - 1)) :
    copyRuns mapped (stride / 512) y stop fuel p p target = .error (.error .shortData) := by
  induction fuel generalizing p target with
  | zero => omega
  | succ fuel ih =>
    unfold copyRuns
    rw [if_pos hless]
    dsimp only
    generalize hbytes : min (512 - p % 512) (stop - p) = bytes
    have hmod := Nat.mod_lt p (show 512 > 0 by decide)
    have hsource : (y / 8 * (stride / 512) + p / 512) * 4096 + y % 8 * 512 + p % 512 =
      tileAddress stride y p := rfl
    rw [hsource]
    split
    · rfl
    · next hfits =>
      rw [not_or, Nat.not_lt, Nat.not_lt] at hfits
      by_cases hmore : p + bytes < stop
      · apply ih
        · rw [length_splice]
          · exact hlength
          · rw [length_slice hfits.1]
            exact hfits.2
        · exact hmore
        · omega
      · -- the run ends with the line
        have hlast : tileAddress stride y (stop - 1) = tileAddress stride y p + (bytes - 1) := by
          rw [← tileAddress_add (by omega)]
          congr 1
          omega
        omega

end Line

/-! ## An image -/

section Image

variable {mapped : List UInt8} {width height stride : Nat} {y0Top : Bool}

/-- The last byte of a line is in the mapping. -/
def LineFits (mapped : List UInt8) (width stride y : Nat) : Prop :=
  width = 0 ∨ tileAddress stride y (width * 4 - 1) < mapped.length

/-- A line of the image and what is behind it. -/
def imageLine (mapped : List UInt8) (width height stride : Nat) (y0Top : Bool) (y : Nat) :
    List UInt8 :=
  tiledLine mapped stride (sourceLine height y0Top y) (width * 4) ++
    List.replicate (stride - width * 4) 0

theorem copyXTiledRow_eq (hwidth : width < 2 ^ 32) (y : Nat) (target : List UInt8) :
    copyXTiledRow mapped stride y 0 width target =
      copyRuns mapped (stride / 512) y (width * 4) (width * 4) 0 0 target := by
  have hsmall : width * 4 < 18446744073709551616 := by omega
  simp [copyXTiledRow, checkedMul, hsmall, bind, Except.bind]

theorem copyXTiledRow_ok {y : Nat} {target : List UInt8} (hwidth : width < 2 ^ 32)
    (htarget : target.length = width * 4) (h : LineFits mapped width stride y) :
    copyXTiledRow mapped stride y 0 width target = .ok (tiledLine mapped stride y (width * 4)) := by
  have hline := @copyRuns_ok mapped stride y (width * 4) (width * 4) 0 [] target rfl htarget
    (Nat.zero_le _) (Nat.le_refl _) fun b hb => by
      rcases h with hzero | hlast
      · omega
      · apply Nat.lt_of_le_of_lt _ hlast
        rcases Nat.eq_or_lt_of_le (Nat.le_sub_one_of_lt hb) with rfl | hless
        · exact Nat.le_refl _
        · exact Nat.le_of_lt (Tiling.address_lt_right hless)
  rw [copyXTiledRow_eq hwidth, ← nil_append target, hline, tiledLine, range_eq_range']
  rfl

theorem copyXTiledRow_error {y : Nat} {target : List UInt8} (hwidth : width < 2 ^ 32)
    (htarget : target.length = width * 4) (h : ¬ LineFits mapped width stride y) :
    copyXTiledRow mapped stride y 0 width target = .error (.error .shortData) := by
  rw [LineFits, not_or, Nat.not_lt] at h
  rw [copyXTiledRow_eq hwidth]
  exact copyRuns_error htarget (by omega) (by omega) h.2

/-- The lines from `y` on, when all of them are in the mapping. -/
theorem copyTiledRows_ok {count y : Nat} {front : List UInt8} (hwidth : width < 2 ^ 32)
    (hstride : width * 4 ≤ stride) (hfront : front.length = y * stride)
    (h : ∀ i < count, LineFits mapped width stride (sourceLine height y0Top (y + i))) :
    copyTiledRows mapped width height stride y0Top count y
        (front ++ List.replicate (count * stride) 0) =
      .ok (front ++ (List.range' y count).flatMap (imageLine mapped width height stride y0Top)) := by
  induction count generalizing y front with
  | zero => simp [copyTiledRows]
  | succ count ih =>
    have hlater : (count + 1) * stride = width * 4 + (stride - width * 4 + count * stride) := by
      rw [Nat.succ_mul]
      omega
    have hlength : (front ++ List.replicate ((count + 1) * stride) (0 : UInt8)).length =
        y * stride + (count + 1) * stride := by
      rw [length_append, length_replicate, hfront]
    have hroom : y * stride + width * 4 ≤
        (front ++ List.replicate ((count + 1) * stride) (0 : UInt8)).length := by
      rw [hlength, hlater]
      omega
    have hline := copyXTiledRow_ok hwidth (length_slice hroom) (h 0 (Nat.succ_pos _))
    unfold copyTiledRows
    dsimp only
    rw [if_neg (Nat.not_lt.2 hroom)]
    change (copyXTiledRow mapped stride (sourceLine height y0Top y) 0 width _ >>= _) = _
    rw [Nat.add_zero] at hline
    rw [hline]
    change copyTiledRows mapped width height stride y0Top count (y + 1) _ = _
    rw [splice_append hfront, length_tiledLine, drop_replicate, hlater,
      Nat.add_sub_cancel_left, ← replicate_append_replicate, ← append_assoc, ih]
    · rw [range'_succ, flatMap_cons, imageLine]
      simp only [append_assoc]
    · rw [length_append, length_append, hfront, length_tiledLine, length_replicate, Nat.succ_mul]
      omega
    · intro i hi
      rw [Nat.add_right_comm, Nat.add_assoc]
      exact h (i + 1) (by omega)

/-- A line that is not in the mapping ends the reading. -/
theorem copyTiledRows_error {count y : Nat} {output : List UInt8} (hwidth : width < 2 ^ 32)
    (hstride : width * 4 ≤ stride) (hlength : (y + count) * stride ≤ output.length)
    (h : ∃ i < count, ¬ LineFits mapped width stride (sourceLine height y0Top (y + i))) :
    copyTiledRows mapped width height stride y0Top count y output =
      .error (.error .shortData) := by
  induction count generalizing y output with
  | zero =>
    obtain ⟨i, hi, -⟩ := h
    omega
  | succ count ih =>
    have hroom : y * stride + width * 4 ≤ output.length := by
      have hnext : (y + 1) * stride ≤ (y + (count + 1)) * stride :=
        Nat.mul_le_mul_right _ (by omega)
      rw [Nat.succ_mul] at hnext
      omega
    unfold copyTiledRows
    dsimp only
    rw [if_neg (Nat.not_lt.2 hroom)]
    change (copyXTiledRow mapped stride (sourceLine height y0Top y) 0 width _ >>= _) = _
    by_cases hfits : LineFits mapped width stride (sourceLine height y0Top y)
    · rw [copyXTiledRow_ok hwidth (length_slice hroom) hfits]
      apply ih
      · rw [length_splice]
        · rwa [Nat.add_right_comm]
        · rwa [length_tiledLine]
      · obtain ⟨i, hi, hnot⟩ := h
        cases i with
        | zero => exact absurd hfits hnot
        | succ i =>
          refine ⟨i, by omega, ?_⟩
          rwa [Nat.add_right_comm, Nat.add_assoc]
    · rw [copyXTiledRow_error hwidth (length_slice hroom) hfits]
      rfl

/-- All lines are in the mapping when the last byte of the image is. -/
theorem linesFit_iff (y0Top : Bool) (htiles : stride % 512 = 0) (hstride : width * 4 ≤ stride) :
    (∀ y < height, LineFits mapped width stride (sourceLine height y0Top y)) ↔
      TilesFit width height stride mapped.length := by
  have hsource : ∀ {y}, y < height → sourceLine height y0Top y ≤ height - 1 := by
    intro y hy
    unfold sourceLine
    split <;> omega
  have hback : 0 < height → sourceLine height y0Top
      (sourceLine height y0Top (height - 1)) = height - 1 := by
    intro hpos
    unfold sourceLine
    split <;> omega
  unfold LineFits TilesFit
  constructor
  · intro h
    by_cases hheight : height = 0
    · exact .inr (.inl hheight)
    · have hlast := h (sourceLine height y0Top (height - 1)) (by have := hsource (y := height - 1); omega)
      rw [hback (by omega)] at hlast
      exact hlast.imp_right .inr
  · rintro (hzero | hzero | hlast) y hy
    · exact .inl hzero
    · omega
    · by_cases hwidth : width = 0
      · exact .inl hwidth
      · right
        apply Nat.lt_of_le_of_lt _ hlast
        exact Tiling.address_mono (by omega) (hsource hy) (Nat.le_refl _)

end Image

section Linearize

variable {mapped : List UInt8} {width height stride : UInt32} {y0Top : Bool}

/-- The image of a tiled surface, line by line. -/
def tiledImage (mapped : List UInt8) (width height stride : Nat) (y0Top : Bool) : List UInt8 :=
  (List.range height).flatMap (imageLine mapped width height stride y0Top)

theorem checkedMul_eq (a b : UInt32) :
    checkedMul a.toNat b.toNat = .ok (a.toNat * b.toNat) := by
  apply if_pos
  calc a.toNat * b.toNat ≤ 2 ^ 32 * b.toNat := Nat.mul_le_mul_right _ (Nat.le_of_lt a.toNat_lt)
    _ < 2 ^ 32 * 2 ^ 32 := (Nat.mul_lt_mul_left (by decide)).2 b.toNat_lt
    _ = 2 ^ 64 := by decide

theorem linearizeXTiled_unfold (htiles : stride.toNat % 512 = 0)
    (hstride : width.toNat * 4 ≤ stride.toNat)
    (hmapped : stride.toNat * height.toNat ≤ mapped.length) :
    linearizeXTiled mapped width height stride y0Top =
      copyTiledRows mapped width.toNat height.toNat stride.toNat y0Top height.toNat 0
        (List.replicate (height.toNat * stride.toNat) 0) := by
  unfold linearizeXTiled
  rw [if_neg (by omega), checkedMul_eq]
  change (if _ < _ then _ else _) = _
  rw [if_neg (Nat.not_lt.2 hmapped), Nat.mul_comm]

theorem linearizeXTiled_eq (htiles : stride.toNat % 512 = 0)
    (hstride : width.toNat * 4 ≤ stride.toNat)
    (hmapped : stride.toNat * height.toNat ≤ mapped.length)
    (hfits : TilesFit width.toNat height.toNat stride.toNat mapped.length) :
    linearizeXTiled mapped width height stride y0Top =
      .ok (tiledImage mapped width.toNat height.toNat stride.toNat y0Top) := by
  rw [linearizeXTiled_unfold htiles hstride hmapped, tiledImage, range_eq_range']
  rw [← linesFit_iff y0Top htiles hstride] at hfits
  have hlines : ∀ i < height.toNat, LineFits mapped width.toNat stride.toNat
      (sourceLine height.toNat y0Top (0 + i)) := by
    intro i hi
    rw [Nat.zero_add]
    exact hfits i hi
  exact @copyTiledRows_ok _ _ _ _ _ _ 0 [] width.toNat_lt hstride (Nat.zero_mul _).symm hlines

theorem linearizeXTiled_error (htiles : stride.toNat % 512 = 0)
    (hstride : width.toNat * 4 ≤ stride.toNat)
    (hmapped : stride.toNat * height.toNat ≤ mapped.length)
    (hfits : ¬ TilesFit width.toNat height.toNat stride.toNat mapped.length) :
    linearizeXTiled mapped width height stride y0Top = .error (.error .shortData) := by
  rw [linearizeXTiled_unfold htiles hstride hmapped]
  rw [← linesFit_iff y0Top htiles hstride] at hfits
  push Not at hfits
  obtain ⟨i, hi, hnot⟩ := hfits
  refine copyTiledRows_error width.toNat_lt hstride ?_ ⟨i, hi, ?_⟩
  · rw [Nat.zero_add, length_replicate]
  · rwa [Nat.zero_add]

/-- The image is the plain image. -/
theorem tiledImage_isPlain {mapped : List UInt8} {width height stride : Nat}
    (htiles : stride % 512 = 0) (hstride : width * 4 ≤ stride)
    (hfits : TilesFit width height stride mapped.length) :
    IsPlain mapped width height stride y0Top (tiledImage mapped width height stride y0Top) := by
  have hblock : ∀ y < height, (imageLine mapped width height stride y0Top y).length = stride := by
    intro y _
    rw [imageLine, length_append, length_tiledLine, length_replicate]
    omega
  refine ⟨?_, fun x y hx hy => ?_⟩
  · rw [tiledImage, length_flatMap_blocks hblock, Nat.mul_comm]
  · have haddress : tileAddress stride (sourceLine height y0Top y) (4 * x + 3) =
        tileAddress stride (sourceLine height y0Top y) (4 * x) + 3 := tileAddress_add (by omega)
    have hlast : tileAddress stride (sourceLine height y0Top y) (4 * x + 3) < mapped.length := by
      rcases (linesFit_iff y0Top htiles hstride).2 hfits y hy with hzero | hlast
      · omega
      · apply Nat.lt_of_le_of_lt _ hlast
        exact Tiling.address_mono (by omega) (Nat.le_refl _) (by omega)
    have hroom : tileAddress stride (sourceLine height y0Top y) (4 * x) + 4 ≤ mapped.length := by
      omega
    have hline : 4 * x + 4 ≤ (tiledLine mapped stride (sourceLine height y0Top y) (width * 4)).length := by
      rw [length_tiledLine]
      omega
    refine ⟨hroom, ?_⟩
    rw [tiledImage, slice_flatMap hblock hy (by omega), imageLine, slice_append hline,
      slice_run (by omega) hroom, slice_eq_map hline 0, range'_eq_map_range, map_map]
    apply map_congr_left
    intro k hk
    have hk4 := mem_range.1 hk
    rw [Function.comp_apply, tiledLine, getD_eq_getElem?_getD, List.getElem?_map,
      List.getElem?_range (by omega)]
    rfl

end Linearize

/-! ## Scanouts -/

theorem fromPixman_of_fourcc {fourcc raw : UInt32} (h : pixmanFromFourcc fourcc = some raw) :
    ∃ format, PixelFormat.fromPixman raw = some format := by
  unfold pixmanFromFourcc at h
  repeat' split at h
  all_goals cases h
  all_goals exact ⟨_, rfl⟩

/-- The first bytes of a buffer that is large enough are mapped. -/
theorem DmaBufFrame.read_eq {self : DmaBufFrame} {memory : Memory}
    (h : self.stride.toNat * self.height.toNat ≤ (memory self.file).length) :
    self.read memory =
      (self.linear ((memory self.file).take (self.stride.toNat * self.height.toNat))).bind
        fun linear =>
          Frame.scanout self.width self.height self.stride self.pixmanFormat linear := by
  unfold read
  rw [checkedMul_eq]
  change mapFile _ _ >>= _ = _
  rw [mapFile, if_pos h]
  rfl

theorem CaptureState.scanoutDmabuf_eq {self : CaptureState} {memory : Memory} {dmabuf : Nat}
    {width height stride fourcc raw : UInt32} {modifier : UInt64} {y0Top : Bool}
    (hmodifier : modifier = 0 ∨ modifier = i915FormatModXTiled)
    (hfourcc : pixmanFromFourcc fourcc = some raw) :
    self.scanoutDmabuf memory dmabuf width height stride fourcc modifier y0Top =
      ((⟨dmabuf, width, height, stride, fourcc, modifier, y0Top, raw⟩ : DmaBufFrame).read
        memory).map fun frame =>
          { self with
            frame := some frame
            dma := some ⟨dmabuf, width, height, stride, fourcc, modifier, y0Top, raw⟩
            refresh := true } := by
  unfold scanoutDmabuf
  rw [if_neg (by tauto), hfourcc]
  dsimp only
  cases DmaBufFrame.read ⟨dmabuf, width, height, stride, fourcc, modifier, y0Top, raw⟩ memory <;> rfl

/-- A tiled surface is read, and shows the plain image, exactly when the mapping holds its last
byte. A scanout maps as many bytes as the lines of the image have. -/
theorem x_tiled_scanout (width height stride : UInt32) (y0Top : Bool)
    (htiles : stride.toNat % 512 = 0) (hstride : width.toNat * 4 ≤ stride.toNat) :
    (∀ mapped : List UInt8, stride.toNat * height.toNat ≤ mapped.length →
      ((∃ output, linearizeXTiled mapped width height stride y0Top = .ok output ∧
          IsPlain mapped width.toNat height.toNat stride.toNat y0Top output) ↔
        TilesFit width.toNat height.toNat stride.toNat mapped.length)) ∧
    ∀ (self : CaptureState) (memory : Memory) (dmabuf : Nat) (fourcc : UInt32),
      pixmanFromFourcc fourcc ≠ none → stride.toNat * height.toNat ≤ (memory dmabuf).length →
      ((self.scanoutDmabuf memory dmabuf width height stride fourcc i915FormatModXTiled
          y0Top).isOk ↔
        TilesFit width.toNat height.toNat stride.toNat (stride.toNat * height.toNat)) := by
  constructor
  · intro mapped hmapped
    constructor
    · rintro ⟨output, houtput, -⟩
      by_contra hfits
      rw [linearizeXTiled_error htiles hstride hmapped hfits] at houtput
      cases houtput
    · intro hfits
      exact ⟨_, linearizeXTiled_eq htiles hstride hmapped hfits,
        tiledImage_isPlain htiles hstride hfits⟩
  · intro self memory dmabuf fourcc hfourcc hlength
    obtain ⟨raw, hraw⟩ := Option.ne_none_iff_exists'.1 hfourcc
    obtain ⟨format, hformat⟩ := fromPixman_of_fourcc hraw
    generalize hmapped : (memory dmabuf).take (stride.toNat * height.toNat) = mapped
    have hsize : mapped.length = stride.toNat * height.toNat := by
      rw [← hmapped, length_take, Nat.min_eq_left hlength]
    have hread : DmaBufFrame.read ⟨dmabuf, width, height, stride, fourcc, i915FormatModXTiled, y0Top,
        raw⟩ memory = (linearizeXTiled mapped width height stride y0Top).bind fun linear =>
          Frame.scanout width height stride raw linear := by
      rw [DmaBufFrame.read_eq hlength, hmapped]
      rfl
    rw [CaptureState.scanoutDmabuf_eq (.inr rfl) hraw, hread, ← hsize]
    by_cases hfits : TilesFit width.toNat height.toNat stride.toNat mapped.length
    · have hlines : stride.toNat * height.toNat ≤
          (tiledImage mapped width.toNat height.toNat stride.toNat y0Top).length :=
        Nat.le_of_eq (tiledImage_isPlain htiles hstride hfits).1.symm
      obtain ⟨frame, hframe, -⟩ := Frame.scanout_eq hformat hstride hlines
      rw [linearizeXTiled_eq htiles hstride (Nat.le_of_eq hsize.symm) hfits]
      change Except.isOk (Except.map _ (Frame.scanout _ _ _ _ _)) = true ↔ _
      rw [hframe]
      exact iff_of_true rfl hfits
    · rw [linearizeXTiled_error htiles hstride (Nat.le_of_eq hsize.symm) hfits]
      exact iff_of_false nofun hfits

/-- A whole tile. -/
theorem x_tiled_scanout_of_tile :
    ∃ output, linearizeXTiled (List.replicate 4096 7) 4 8 512 true = .ok output ∧
      IsPlain (List.replicate 4096 7) 4 8 512 true output := by
  have hlength : (List.replicate 4096 (7 : UInt8)).length = 4096 := length_replicate
  apply ((x_tiled_scanout 4 8 512 true (by decide) (by decide)).1 _ (Nat.le_of_eq hlength.symm)).2
  rw [hlength]
  decide

/-- A screen of 1680 times 1050 pixels is not read. -/
theorem x_tiled_scanout_cut : ∃ (width height stride : UInt32) (mapped : List UInt8),
    stride.toNat % 512 = 0 ∧ width.toNat * 4 ≤ stride.toNat ∧
    mapped.length = stride.toNat * height.toNat ∧
    linearizeXTiled mapped width height stride false = .error (.error .shortData) := by
  have hmapped : (List.replicate (UInt32.toNat 7168 * UInt32.toNat 1050) (0 : UInt8)).length =
    UInt32.toNat 7168 * UInt32.toNat 1050 := length_replicate
  refine ⟨1680, 1050, 7168, _, by decide, by decide, hmapped, ?_⟩
  apply linearizeXTiled_error (by decide) (by decide) (Nat.le_of_eq hmapped.symm)
  rw [hmapped]
  decide

end MachineEmu.Display
