import MachineEmu.Display.Frame
import Mathlib.Order.Bounds.Basic

/-!
# Updates of the framebuffer

An update writes the pixels of its rectangle and no others, and the damage is the smallest rectangle
around what was painted. The size of the arrays and of the lines is checked after it was computed.

* `pixelAt`, `sourcePixel` — a pixel of a framebuffer, and one of the data of a callback.
* `Frame.scanoutStrict`, `Frame.updateStrict` — the callbacks with checked arithmetic.
* `Painted` — the framebuffers of a run, with what was painted since the damage was taken.
* `frame_callbacks` — what holds of them; `not_frame_callbacks` — a width that overflows.
-/

namespace MachineEmu.Display

open Lib

/-! ## Pixels -/

/-- A pixel of a framebuffer. -/
def pixelAt (pixels : List UInt8) (lineWidth col row : Nat) : List UInt8 :=
  slice pixels ((row * lineWidth + col) * 4) 4

/-- A pixel of the data of a callback, in B, G, R, A order. -/
def sourcePixel (format : PixelFormat) (stride : Nat) (data : List UInt8) (col row : Nat) :
    List UInt8 :=
  Frame.convert format (slice data (row * stride + col * 4) 4)

section Pixels

variable {format : PixelFormat} {lineWidth x y width stride : Nat} {data pixels : List UInt8}

theorem drop_swap (k : Nat) (line : List UInt8) :
    (Frame.swap line).drop (k * 4) = Frame.swap (line.drop (k * 4)) := by
  induction k generalizing line with
  | zero => rfl
  | succ k ih =>
    match line with
    | a :: b :: c :: d :: rest =>
      rw [Frame.swap, Nat.succ_mul]
      exact ih rest
    | [] => simp [Frame.swap]
    | [a] => simp [Frame.swap, Nat.succ_mul]
    | [a, b] => simp [Frame.swap, Nat.succ_mul]
    | [a, b, c] => simp [Frame.swap, Nat.succ_mul]

theorem take_swap (line : List UInt8) : (Frame.swap line).take 4 = Frame.swap (line.take 4) := by
  match line with
  | a :: b :: c :: d :: rest => rfl
  | [] => rfl
  | [a] => rfl
  | [a, b] => rfl
  | [a, b, c] => rfl

/-- A line is converted pixel by pixel. -/
theorem slice_convert (format : PixelFormat) (line : List UInt8) (k : Nat) :
    slice (Frame.convert format line) (k * 4) 4 = Frame.convert format (slice line (k * 4) 4) := by
  cases format with
  | x8r8g8b8 => rfl
  | a8r8g8b8 => rfl
  | x8b8g8r8 =>
    change ((Frame.swap line).drop (k * 4)).take 4 = Frame.swap ((line.drop (k * 4)).take 4)
    rw [drop_swap, take_swap]
  | a8b8g8r8 =>
    change ((Frame.swap line).drop (k * 4)).take 4 = Frame.swap ((line.drop (k * 4)).take 4)
    rw [drop_swap, take_swap]

/-- A line that is written changes its own pixels. -/
theorem pixelAt_splice {row col target : Nat} (hcol : col < lineWidth) (hx : x + width ≤ lineWidth)
    (hline : (target + 1) * lineWidth * 4 ≤ pixels.length) {line : List UInt8}
    (hlength : line.length = width * 4) :
    pixelAt (splice pixels ((target * lineWidth + x) * 4) (Frame.convert format line)) lineWidth col
        row =
      if row = target ∧ x ≤ col ∧ col < x + width then
        Frame.convert format (slice line ((col - x) * 4) 4)
      else pixelAt pixels lineWidth col row := by
  have hconvert : (Frame.convert format line).length = width * 4 := by
    rw [Frame.length_convert, hlength]
  have hroom : (target * lineWidth + x) * 4 + (Frame.convert format line).length ≤
      pixels.length := by
    rw [Nat.succ_mul] at hline
    omega
  unfold pixelAt
  by_cases hinside : row = target ∧ x ≤ col ∧ col < x + width
  · obtain ⟨rfl, hleft, hright⟩ := hinside
    rw [if_pos ⟨rfl, hleft, hright⟩]
    have hplace : (row * lineWidth + col) * 4 = (row * lineWidth + x) * 4 + (col - x) * 4 := by
      omega
    rw [hplace, slice_splice_inside hroom (by omega), slice_convert]
  · rw [if_neg hinside]
    refine slice_splice_outside hroom ?_
    rw [hconvert]
    rcases Nat.lt_trichotomy row target with hrow | rfl | hrow
    · have hle : (row + 1) * lineWidth ≤ target * lineWidth := Nat.mul_le_mul_right _ hrow
      rw [Nat.succ_mul] at hle
      omega
    · omega
    · have hle : (target + 1) * lineWidth ≤ row * lineWidth := Nat.mul_le_mul_right _ hrow
      rw [Nat.succ_mul] at hle
      omega

/-- The rows of a rectangle are written, and nothing else. -/
theorem copyRows_pixels {count row : Nat} (hx : x + width ≤ lineWidth)
    (hpixels : (y + row + count) * lineWidth * 4 ≤ pixels.length) (hstride : width * 4 ≤ stride)
    (hdata : (row + count) * stride ≤ data.length) :
    ∃ out, Frame.copyRows format lineWidth x y width stride data count row pixels = .ok out ∧
      ∀ col < lineWidth, ∀ r, pixelAt out lineWidth col r =
        if (x ≤ col ∧ col < x + width) ∧ y + row ≤ r ∧ r < y + row + count then
          sourcePixel format stride data (col - x) (r - y)
        else pixelAt pixels lineWidth col r := by
  induction count generalizing row pixels with
  | zero =>
    refine ⟨pixels, rfl, fun col _ r => ?_⟩
    rw [if_neg (by omega)]
  | succ count ih =>
    have hlines : (y + row + 1) * lineWidth * 4 ≤ pixels.length := by
      refine Nat.le_trans (Nat.mul_le_mul_right 4 (Nat.mul_le_mul_right lineWidth ?_)) hpixels
      omega
    have hline : row * stride + width * 4 ≤ data.length := by
      have hnext : (row + 1) * stride ≤ (row + (count + 1)) * stride :=
        Nat.mul_le_mul_right _ (by omega)
      rw [Nat.succ_mul] at hnext
      omega
    have hroom : ((y + row) * lineWidth + x) * 4 + width * 4 ≤ pixels.length := by
      rw [Nat.succ_mul] at hlines
      omega
    have hlength : (slice data (row * stride) (width * 4)).length = width * 4 := length_slice hline
    have hconvert : (Frame.convert format (slice data (row * stride) (width * 4))).length =
        width * 4 := by
      rw [Frame.length_convert, hlength]
    have hspliced : (splice pixels (((y + row) * lineWidth + x) * 4)
        (Frame.convert format (slice data (row * stride) (width * 4)))).length = pixels.length :=
      length_splice (by rw [hconvert]; exact hroom)
    obtain ⟨out, hout, hall⟩ := @ih (splice pixels (((y + row) * lineWidth + x) * 4)
        (Frame.convert format (slice data (row * stride) (width * 4)))) (row + 1)
      (by rw [hspliced]; exact Nat.le_trans (Nat.le_of_eq (by ring)) hpixels)
      (by rwa [Nat.add_right_comm, Nat.add_assoc])
    refine ⟨out, ?_, fun col hcol r => ?_⟩
    · unfold Frame.copyRows
      dsimp only
      rw [if_neg (by omega)]
      exact hout
    · rw [hall col hcol r, pixelAt_splice hcol hx hlines hlength]
      by_cases hcols : x ≤ col ∧ col < x + width
      · rcases Nat.lt_trichotomy r (y + row) with hr | rfl | hr
        · rw [if_neg (by omega), if_neg (by omega), if_neg (by omega)]
        · rw [if_neg (by omega), if_pos ⟨rfl, hcols⟩, if_pos (by omega)]
          unfold sourcePixel
          rw [slice_of_slice (by omega), Nat.add_sub_cancel_left]
        · by_cases hlast : r < y + (row + 1) + count
          · rw [if_pos (by omega), if_pos (by omega)]
          · rw [if_neg (by omega), if_neg (by omega), if_neg (by omega)]
      · rw [if_neg (by omega), if_neg (by omega), if_neg (by omega)]

end Pixels

/-! ## Checked arithmetic -/

/-- The sums of the damage fit in `u32`. -/
def mergeFits : Option Rect → Rect → Bool
  | none, _ => true
  | some d, r => d.x + d.width < 2 ^ 32 && d.y + d.height < 2 ^ 32 && r.x + r.width < 2 ^ 32 &&
      r.y + r.height < 2 ^ 32

namespace Frame

/-- `Frame::copy_rect`, where the bytes of a line are a product that is checked. -/
def copyRectStrict (self : Frame) (x y : Nat) (width height stride rawFormat : UInt32)
    (data : List UInt8) : Except Failure Frame :=
  match PixelFormat.fromPixman rawFormat with
  | none => .error (.error (.format rawFormat))
  | some _ =>
    if 2 ^ 32 ≤ width.toNat * 4 then .error .panic
    else self.copyRect x y width height stride rawFormat data

/-- `Frame::scanout`, where a vector of more than `isize::MAX` bytes panics. -/
def scanoutStrict (width height stride format : UInt32) (data : List UInt8) :
    Except Failure Frame :=
  match empty width height with
  | .error e => .error e
  | .ok frame =>
    if 2 ^ 63 ≤ frame.pixels.length then .error .panic
    else
      match frame.copyRectStrict 0 0 width height stride format data with
      | .error e => .error e
      | .ok frame => .ok { frame with damage := some ⟨0, 0, width.toNat, height.toNat⟩ }

/-- The rectangle of an update. -/
def rectOf (x y width height : Int32) : Rect :=
  ⟨x.toNatClampNeg, y.toNatClampNeg, width.toNatClampNeg, height.toNatClampNeg⟩

/-- `Frame::update`, where the sums of the damage are checked. -/
def updateStrict (self : Frame) (x y width height : Int32) (stride format : UInt32)
    (data : List UInt8) : Except Failure Frame :=
  if x < 0 ∨ y < 0 ∨ width ≤ 0 ∨ height ≤ 0 then .error (.error .outside)
  else
    let r := rectOf x y width height
    if self.width.toNat < r.x + r.width ∨ self.height.toNat < r.y + r.height then
      .error (.error .outside)
    else
      match self.copyRectStrict r.x r.y width.toUInt32 height.toUInt32 stride format data with
      | .error e => .error e
      | .ok frame =>
        if mergeFits self.damage r then .ok { frame with damage := some (merge self.damage r) }
        else .error .panic

/-- Source: `display-stream/src/frame.rs` `Frame::take_damage`. -/
def takeDamage (self : Frame) : Option Rect × Frame := (self.damage, { self with damage := none })

end Frame

section Strict

variable {frame result : Frame} {x y : Nat} {width height stride raw : UInt32} {data : List UInt8}

/-- A product that does not overflow: the rows are copied. -/
theorem copyRectStrict_cases (hx : x + width.toNat ≤ frame.width.toNat)
    (hy : y + height.toNat ≤ frame.height.toNat) (hwidth : width.toNat * 4 < 2 ^ 32) :
    (∃ e, frame.copyRectStrict x y width height stride raw data = .error (.error e)) ∨
      ∃ result format, frame.copyRectStrict x y width height stride raw data = .ok result ∧
        result.width = frame.width ∧ result.height = frame.height ∧
          PixelFormat.fromPixman raw = some format ∧
            ∀ col < frame.width.toNat, ∀ row,
              pixelAt result.pixels frame.width.toNat col row =
                if (x ≤ col ∧ col < x + width.toNat) ∧ y ≤ row ∧ row < y + height.toNat then
                  sourcePixel format stride.toNat data (col - x) (row - y)
                else pixelAt frame.pixels frame.width.toNat col row := by
  unfold Frame.copyRectStrict
  cases hformat : PixelFormat.fromPixman raw with
  | none => exact Or.inl ⟨_, rfl⟩
  | some format =>
    dsimp only
    rw [if_neg (by omega)]
    by_cases hshort : stride < width * 4 ∨ data.length < stride.toNat * height.toNat
    · refine Or.inl ⟨.shortData, ?_⟩
      unfold Frame.copyRect
      rw [hformat]
      exact if_pos hshort
    · rw [not_or] at hshort
      have hstride : width.toNat * 4 ≤ stride.toNat := by
        have hle := hshort.1
        rw [UInt32.lt_iff_toNat_lt, UInt32.toNat_mul] at hle
        have hfour : (4 : UInt32).toNat = 4 := rfl
        rw [hfour, Nat.mod_eq_of_lt hwidth] at hle
        omega
      have hpixels : (y + 0 + height.toNat) * frame.width.toNat * 4 ≤ frame.pixels.length := by
        rw [frame.sized, Nat.add_zero, Nat.mul_comm frame.width.toNat]
        exact Nat.mul_le_mul_right _ (Nat.mul_le_mul_right _ hy)
      have hdata : (0 + height.toNat) * stride.toNat ≤ data.length := by
        rw [Nat.zero_add, Nat.mul_comm]
        omega
      obtain ⟨out, hout, hall⟩ := @copyRows_pixels format _ _ _ _ _ _ _ _ _ hx hpixels hstride hdata
      obtain ⟨result, hresult, hw, hh, hpix⟩ := Frame.copyRect_eq hformat hshort.1
        (Nat.not_lt.1 hshort.2) hout
      refine Or.inr ⟨result, format, hresult, hw, hh, rfl, fun col hcol row => ?_⟩
      rw [hpix, hall col hcol row, Nat.add_zero]

end Strict

/-! ## Damage -/

namespace Rect

/-- One rectangle lies in the other. -/
instance : Preorder Rect where
  le r d := d.x ≤ r.x ∧ r.x + r.width ≤ d.x + d.width ∧ d.y ≤ r.y ∧ r.y + r.height ≤ d.y + d.height
  le_refl r := ⟨le_rfl, le_rfl, le_rfl, le_rfl⟩
  le_trans a b c := fun ⟨h1, h2, h3, h4⟩ ⟨k1, k2, k3, k4⟩ =>
    ⟨k1.trans h1, h2.trans k2, k3.trans h3, h4.trans k4⟩

theorem le_def {r d : Rect} : r ≤ d ↔ d.x ≤ r.x ∧ r.x + r.width ≤ d.x + d.width ∧ d.y ≤ r.y ∧
    r.y + r.height ≤ d.y + d.height := Iff.rfl

end Rect

/-- The damage is the smallest rectangle around what was painted. -/
def Surrounds (painted : List Rect) : Option Rect → Prop
  | none => painted = []
  | some d => painted ≠ [] ∧ IsLUB {r | r ∈ painted} d

theorem merge_some (d r : Rect) :
    Frame.merge (some d) r =
      ⟨min d.x r.x, min d.y r.y, max (d.x + d.width) (r.x + r.width) - min d.x r.x,
        max (d.y + d.height) (r.y + r.height) - min d.y r.y⟩ := rfl

/-- One more rectangle. -/
theorem surrounds_merge {painted : List Rect} {damage : Option Rect} (h : Surrounds painted damage)
    (r : Rect) : Surrounds (r :: painted) (some (Frame.merge damage r)) := by
  refine ⟨List.cons_ne_nil _ _, ?_⟩
  cases damage with
  | none =>
    obtain rfl : painted = [] := h
    have hset : {d | d ∈ [r]} = {r} := by
      ext d
      simp
    rw [hset]
    exact isLUB_singleton
  | some d =>
    obtain ⟨-, hupper, hleast⟩ := h
    rw [merge_some]
    constructor
    · intro p hp
      rcases List.mem_cons.1 hp with rfl | hp
      · rw [Rect.le_def]
        dsimp only
        omega
      · have hle := hupper hp
        rw [Rect.le_def] at hle ⊢
        dsimp only
        omega
    · intro e he
      have hr : r ≤ e := he List.mem_cons_self
      have hd : d ≤ e := hleast fun p hp => he (List.mem_cons_of_mem r hp)
      rw [Rect.le_def] at hr hd ⊢
      dsimp only
      omega

/-! ## Runs -/

/-- The framebuffers of a run, with the rectangles that were painted since the damage was taken. -/
inductive Painted : Frame → List Rect → Prop
  | scanout {frame : Frame} {width height stride raw : UInt32} {data : List UInt8}
      (h : Frame.scanoutStrict width height stride raw data = .ok frame) :
      Painted frame [⟨0, 0, width.toNat, height.toNat⟩]
  | update {frame result : Frame} {painted : List Rect} {x y width height : Int32}
      {stride raw : UInt32} {data : List UInt8} (before : Painted frame painted)
      (h : frame.updateStrict x y width height stride raw data = .ok result) :
      Painted result (Frame.rectOf x y width height :: painted)
  | taken {frame : Frame} {painted : List Rect} (before : Painted frame painted) :
      Painted frame.takeDamage.2 []

/-- A scanout does not panic, and shows the pixels of its data. -/
structure ScanoutHolds (width height stride raw : UInt32) (data : List UInt8) : Prop where
  calm : Frame.scanoutStrict width height stride raw data ≠ .error .panic
  pixels : ∀ frame, Frame.scanoutStrict width height stride raw data = .ok frame →
    frame.width = width ∧ frame.height = height ∧
      ∃ format, PixelFormat.fromPixman raw = some format ∧
        ∀ col < width.toNat, ∀ row < height.toNat,
          pixelAt frame.pixels width.toNat col row =
            sourcePixel format stride.toNat data col row

/-- The bytes of the image fit in a vector or are refused, and those of a line fit in `u32`. -/
structure ScanoutFits (width height raw : UInt32) : Prop where
  size : width.toNat * height.toNat * 4 < 2 ^ 63 ∨ 2 ^ 64 ≤ width.toNat * height.toNat * 4
  line : width.toNat * height.toNat * 4 < 2 ^ 64 → (PixelFormat.fromPixman raw).isSome = true →
    width.toNat * 4 < 2 ^ 32

/-- An update does not panic, and paints the pixels of its rectangle and no others. -/
structure UpdateHolds (frame : Frame) (x y width height : Int32) (stride raw : UInt32)
    (data : List UInt8) : Prop where
  calm : frame.updateStrict x y width height stride raw data ≠ .error .panic
  pixels : ∀ result, frame.updateStrict x y width height stride raw data = .ok result →
    result.width = frame.width ∧ result.height = frame.height ∧
      ∃ format, PixelFormat.fromPixman raw = some format ∧
        ∀ col < frame.width.toNat, ∀ row < frame.height.toNat,
          pixelAt result.pixels frame.width.toNat col row =
            let r := Frame.rectOf x y width height
            if (r.x ≤ col ∧ col < r.x + r.width) ∧ r.y ≤ row ∧ row < r.y + r.height then
              sourcePixel format stride.toNat data (col - r.x) (row - r.y)
            else pixelAt frame.pixels frame.width.toNat col row

/-- The damage lies inside the framebuffer. -/
def Inside (frame : Frame) : Prop :=
  ∀ d, frame.damage = some d →
    d ≤ ⟨0, 0, frame.width.toNat, frame.height.toNat⟩

/-- What holds of a framebuffer of a run. -/
structure PaintedOk (frame : Frame) (painted : List Rect) : Prop where
  line : frame.width.toNat * 4 < 2 ^ 32
  surrounds : Surrounds painted frame.damage
  inside : Inside frame

section Scanout

variable {frame : Frame} {width height stride raw : UInt32} {data : List UInt8}

theorem empty_of_lt (h : width.toNat * height.toNat * 4 < 2 ^ 64) :
    ∃ base, Frame.empty width height = .ok base ∧ base.width = width ∧ base.height = height := by
  unfold Frame.empty
  rw [if_pos h]
  exact ⟨_, rfl, rfl, rfl⟩

/-- The steps of a scanout whose size is not refused. -/
theorem scanoutStrict_eq (h : width.toNat * height.toNat * 4 < 2 ^ 64) :
    ∃ base : Frame, base.width = width ∧ base.height = height ∧
      Frame.scanoutStrict width height stride raw data =
        if 2 ^ 63 ≤ width.toNat * height.toNat * 4 then .error .panic
        else
          match base.copyRectStrict 0 0 width height stride raw data with
          | .error e => .error e
          | .ok frame => .ok { frame with damage := some ⟨0, 0, width.toNat, height.toNat⟩ } := by
  obtain ⟨base, hbase, hwidth, hheight⟩ := empty_of_lt h
  refine ⟨base, hwidth, hheight, ?_⟩
  unfold Frame.scanoutStrict
  rw [hbase]
  dsimp only
  rw [base.sized, hwidth, hheight]

theorem scanoutHolds_of_fits (hfits : ScanoutFits width height raw) :
    ScanoutHolds width height stride raw data := by
  by_cases hsize : width.toNat * height.toNat * 4 < 2 ^ 64
  swap
  · have hrefused : Frame.scanoutStrict width height stride raw data =
        .error (.error .geometry) := by
      unfold Frame.scanoutStrict Frame.empty
      rw [if_neg hsize]
    rw [Nat.not_lt] at hsize
    exact ⟨by rw [hrefused]; nofun, fun frame h => by rw [hrefused] at h; cases h⟩
  obtain ⟨base, hwidth, hheight, heq⟩ := @scanoutStrict_eq width height stride raw data hsize
  rw [if_neg (by have := hfits.size; omega)] at heq
  cases hformat : PixelFormat.fromPixman raw with
  | none =>
    have hcopy : base.copyRectStrict 0 0 width height stride raw data =
        .error (.error (.format raw)) := by
      unfold Frame.copyRectStrict
      rw [hformat]
    rw [hcopy] at heq
    exact ⟨by rw [heq]; nofun, fun frame h => by rw [heq] at h; cases h⟩
  | some format =>
    have hline := hfits.line hsize (by rw [hformat]; rfl)
    rcases @copyRectStrict_cases base 0 0 width height stride raw data
        (by rw [hwidth, Nat.zero_add]) (by rw [hheight, Nat.zero_add]) hline with
      ⟨e, he⟩ | ⟨copied, format', hcopied, hw, hh, hformat', hall⟩
    · rw [he] at heq
      exact ⟨by rw [heq]; nofun, fun frame h => by rw [heq] at h; cases h⟩
    · rw [hcopied] at heq
      refine ⟨by rw [heq]; nofun, fun frame h => ?_⟩
      rw [heq] at h
      obtain rfl := Except.ok.inj h
      refine ⟨hw.trans hwidth, hh.trans hheight, format', hformat',
        fun col hcol row hrow => ?_⟩
      have hpixel := hall col (hwidth.symm ▸ hcol) row
      rw [hwidth, if_pos (by omega), Nat.sub_zero, Nat.sub_zero] at hpixel
      exact hpixel

theorem scanoutFits_of_calm
    (h : Frame.scanoutStrict width height stride raw data ≠ .error .panic) :
    ScanoutFits width height raw := by
  by_cases hsize : width.toNat * height.toNat * 4 < 2 ^ 64
  swap
  · exact ⟨Or.inr (Nat.not_lt.1 hsize), fun hlt => absurd hlt hsize⟩
  obtain ⟨base, -, -, heq⟩ := @scanoutStrict_eq width height stride raw data hsize
  by_cases hbig : 2 ^ 63 ≤ width.toNat * height.toNat * 4
  · rw [if_pos hbig] at heq
    exact absurd heq h
  · rw [if_neg hbig] at heq
    refine ⟨Or.inl (Nat.not_le.1 hbig), fun _ hformat => ?_⟩
    obtain ⟨format, hformat⟩ := Option.isSome_iff_exists.1 hformat
    by_contra hline
    have hcopy : base.copyRectStrict 0 0 width height stride raw data = .error .panic := by
      unfold Frame.copyRectStrict
      rw [hformat]
      exact if_pos (Nat.not_lt.1 hline)
    rw [hcopy] at heq
    exact h heq

/-- What a scanout leaves. -/
theorem paintedOk_scanout (h : Frame.scanoutStrict width height stride raw data = .ok frame) :
    PaintedOk frame [⟨0, 0, width.toNat, height.toNat⟩] := by
  have hfits : ScanoutFits width height raw := by
    refine @scanoutFits_of_calm width height stride raw data ?_
    rw [h]
    nofun
  obtain ⟨hwidth, hheight, format, hformat, -⟩ := (scanoutHolds_of_fits hfits).pixels frame h
  have hsize : width.toNat * height.toNat * 4 < 2 ^ 64 := by
    by_contra hsize
    unfold Frame.scanoutStrict Frame.empty at h
    rw [if_neg hsize] at h
    cases h
  have hdamage : frame.damage = some ⟨0, 0, width.toNat, height.toNat⟩ := by
    obtain ⟨base, -, -, heq⟩ := @scanoutStrict_eq width height stride raw data hsize
    rw [h] at heq
    split at heq
    · cases heq
    · split at heq
      · cases heq
      · rw [Except.ok.inj heq]
  refine ⟨?_, ?_, fun d hd => ?_⟩
  · rw [hwidth]
    exact hfits.line hsize (by rw [hformat]; rfl)
  · rw [hdamage]
    have hfirst : Surrounds [] none := rfl
    exact surrounds_merge hfirst ⟨0, 0, width.toNat, height.toNat⟩
  · rw [hdamage] at hd
    rw [← Option.some.inj hd, hwidth, hheight]

end Scanout

section Update

variable {frame result : Frame} {painted : List Rect} {x y width height : Int32}
  {stride raw : UInt32} {data : List UInt8}

/-- The sums of a damage inside the framebuffer fit. -/
theorem mergeFits_of_inside (hinside : Inside frame) {r : Rect}
    (hr : r ≤ ⟨0, 0, frame.width.toNat, frame.height.toNat⟩) :
    mergeFits frame.damage r = true := by
  have hwidth := frame.width.toNat_lt
  have hheight := frame.height.toNat_lt
  rw [Rect.le_def] at hr
  cases hdamage : frame.damage with
  | none => rfl
  | some d =>
    have hd := hinside d hdamage
    rw [Rect.le_def] at hd
    dsimp only at hr hd
    simp only [mergeFits, Bool.and_eq_true, decide_eq_true_eq]
    omega

/-- An update that is in order fails with an error, or paints its rectangle. -/
theorem updateStrict_cases (h : PaintedOk frame painted) :
    (∃ e, frame.updateStrict x y width height stride raw data = .error (.error e)) ∨
      ∃ result format, frame.updateStrict x y width height stride raw data = .ok result ∧
        result.width = frame.width ∧ result.height = frame.height ∧
          result.damage = some (Frame.merge frame.damage (Frame.rectOf x y width height)) ∧
            Frame.rectOf x y width height ≤ ⟨0, 0, frame.width.toNat, frame.height.toNat⟩ ∧
              PixelFormat.fromPixman raw = some format ∧
                ∀ col < frame.width.toNat, ∀ row,
                  pixelAt result.pixels frame.width.toNat col row =
                    let r := Frame.rectOf x y width height
                    if (r.x ≤ col ∧ col < r.x + r.width) ∧ r.y ≤ row ∧ row < r.y + r.height then
                      sourcePixel format stride.toNat data (col - r.x) (row - r.y)
                    else pixelAt frame.pixels frame.width.toNat col row := by
  by_cases hsigns : x < 0 ∨ y < 0 ∨ width ≤ 0 ∨ height ≤ 0
  · refine Or.inl ⟨.outside, ?_⟩
    unfold Frame.updateStrict
    exact if_pos hsigns
  by_cases houtside : frame.width.toNat < (Frame.rectOf x y width height).x +
      (Frame.rectOf x y width height).width ∨ frame.height.toNat <
        (Frame.rectOf x y width height).y + (Frame.rectOf x y width height).height
  · refine Or.inl ⟨.outside, ?_⟩
    unfold Frame.updateStrict
    rw [if_neg hsigns]
    exact if_pos houtside
  have heq : frame.updateStrict x y width height stride raw data =
      match frame.copyRectStrict (Frame.rectOf x y width height).x (Frame.rectOf x y width height).y
        width.toUInt32 height.toUInt32 stride raw data with
      | .error e => .error e
      | .ok copied =>
        if mergeFits frame.damage (Frame.rectOf x y width height) then
          .ok { copied with damage := some (Frame.merge frame.damage
            (Frame.rectOf x y width height)) }
        else .error .panic := by
    unfold Frame.updateStrict
    rw [if_neg hsigns]
    exact if_neg houtside
  have hwidth : width.toUInt32.toNat = (Frame.rectOf x y width height).width :=
    Int32.toNat_toUInt32_of_le (by
      rw [not_or, not_or, not_or] at hsigns
      exact Int32.le_of_lt (Int32.not_le.1 hsigns.2.2.1))
  have hheight : height.toUInt32.toNat = (Frame.rectOf x y width height).height :=
    Int32.toNat_toUInt32_of_le (by
      rw [not_or, not_or, not_or] at hsigns
      exact Int32.le_of_lt (Int32.not_le.1 hsigns.2.2.2))
  have hinside : Frame.rectOf x y width height ≤
      ⟨0, 0, frame.width.toNat, frame.height.toNat⟩ := by
    rw [Rect.le_def]
    dsimp only
    omega
  have hline := h.line
  rcases @copyRectStrict_cases frame (Frame.rectOf x y width height).x
      (Frame.rectOf x y width height).y width.toUInt32 height.toUInt32 stride raw data
      (by omega) (by omega) (by omega) with
    ⟨e, he⟩ | ⟨copied, format, hcopied, hw, hh, hformat, hall⟩
  · rw [he] at heq
    exact Or.inl ⟨e, heq⟩
  · rw [hcopied] at heq
    dsimp only at heq
    rw [if_pos (mergeFits_of_inside h.inside hinside)] at heq
    rw [hwidth, hheight] at hall
    exact Or.inr ⟨_, format, heq, hw, hh, rfl, hinside, hformat, hall⟩

theorem updateHolds_of_paintedOk (h : PaintedOk frame painted) :
    UpdateHolds frame x y width height stride raw data := by
  rcases @updateStrict_cases frame painted x y width height stride raw data h with
    ⟨e, he⟩ | ⟨result, format, heq, hw, hh, -, -, hformat, hall⟩
  · exact ⟨by rw [he]; nofun, fun result hresult => by rw [he] at hresult; cases hresult⟩
  · refine ⟨by rw [heq]; nofun, fun result' hresult => ?_⟩
    rw [heq] at hresult
    obtain rfl := Except.ok.inj hresult
    exact ⟨hw, hh, format, hformat, fun col hcol row _ => hall col hcol row⟩

theorem paintedOk_update (h : PaintedOk frame painted)
    (hupdate : frame.updateStrict x y width height stride raw data = .ok result) :
    PaintedOk result (Frame.rectOf x y width height :: painted) := by
  rcases @updateStrict_cases frame painted x y width height stride raw data h with
    ⟨e, he⟩ | ⟨result', format, heq, hw, hh, hdamage, hr, -, -⟩
  · rw [he] at hupdate
    cases hupdate
  · rw [heq] at hupdate
    obtain rfl := Except.ok.inj hupdate
    have hsurrounds := surrounds_merge h.surrounds (Frame.rectOf x y width height)
    refine ⟨hw.symm ▸ h.line, hdamage.symm ▸ hsurrounds, fun d hd => ?_⟩
    rw [hdamage] at hd
    obtain rfl := Option.some.inj hd
    rw [hw, hh]
    -- The framebuffer surrounds what was painted, so it surrounds the smallest such rectangle.
    refine hsurrounds.2.2 fun p hp => ?_
    rcases List.mem_cons.1 hp with rfl | hp
    · exact hr
    · have hbefore := h.surrounds
      cases hold : frame.damage with
      | none =>
        rw [hold] at hbefore
        obtain rfl : painted = [] := hbefore
        cases hp
      | some d =>
        rw [hold] at hbefore
        exact (hbefore.2.1 hp).trans (h.inside d hold)

end Update

/-- Every framebuffer of a run is in order. -/
theorem paintedOk_of_painted {frame : Frame} {painted : List Rect} (h : Painted frame painted) :
    PaintedOk frame painted := by
  induction h with
  | scanout h => exact paintedOk_scanout h
  | update _ h ih => exact paintedOk_update ih h
  | taken _ ih => exact ⟨ih.line, rfl, nofun⟩

/-- A scanout holds up exactly where its sizes fit; and in a run of scanouts that succeeded, updates
and taken damages, every update holds up, and the damage is the smallest rectangle around what was
painted since it was taken and lies inside. -/
theorem frame_callbacks (width height stride raw : UInt32) (data : List UInt8) :
    (ScanoutHolds width height stride raw data ↔ ScanoutFits width height raw) ∧
    ∀ (frame : Frame) (painted : List Rect), Painted frame painted →
      (Surrounds painted frame.damage ∧ Inside frame) ∧
        ∀ (x y width height : Int32) (stride raw : UInt32) (data : List UInt8),
          UpdateHolds frame x y width height stride raw data := by
  refine ⟨⟨fun h => scanoutFits_of_calm h.calm, scanoutHolds_of_fits⟩, fun frame painted h => ?_⟩
  have hok := paintedOk_of_painted h
  exact ⟨⟨hok.surrounds, hok.inside⟩, fun _ _ _ _ _ _ _ => updateHolds_of_paintedOk hok⟩

/-- The bytes of the image are fewer than `usize` counts, and more than a vector holds. -/
theorem not_frame_callbacks :
    ¬∀ (width height stride raw : UInt32) (data : List UInt8),
      ScanoutHolds width height stride raw data := by
  intro h
  have hcalm := (h 0x80000000 0x40000000 0 pixmanX8r8g8b8 []).calm
  obtain ⟨base, -, -, heq⟩ :=
    @scanoutStrict_eq 0x80000000 0x40000000 0 pixmanX8r8g8b8 [] (by decide)
  rw [if_pos (by decide)] at heq
  exact hcalm heq

end MachineEmu.Display
