import MachineEmu.Lib.Bytes

/-!
# Framebuffers

The framebuffer that the inline display callbacks of QEMU build up.

* `Frame` — the dimensions, the pixels in B, G, R, A order and the damage.
* `Frame.scanout`, `Frame.update` — a whole image, and a rectangle of one.
* `Frame.scanout_eq` — what a scanout shows, line by line.
-/

namespace MachineEmu.Display

open Lib List

/-- Source: `display-stream/src/frame.rs` `PixelFormat`. -/
inductive PixelFormat where
  | x8r8g8b8
  | a8r8g8b8
  | x8b8g8r8
  | a8b8g8r8

def pixmanX8r8g8b8 : UInt32 := 0x20020888
def pixmanA8r8g8b8 : UInt32 := 0x20028888
def pixmanX8b8g8r8 : UInt32 := 0x20030888
def pixmanA8b8g8r8 : UInt32 := 0x20038888

def PixelFormat.fromPixman (value : UInt32) : Option PixelFormat :=
  if value = pixmanX8r8g8b8 then some .x8r8g8b8
  else if value = pixmanA8r8g8b8 then some .a8r8g8b8
  else if value = pixmanX8b8g8r8 then some .x8b8g8r8
  else if value = pixmanA8b8g8r8 then some .a8b8g8r8
  else none

/-- Source: `display-stream/src/frame.rs` `FrameError`. -/
inductive FrameError where
  | format (value : UInt32)
  | geometry
  | outside
  | shortData
  deriving DecidableEq

/-- How a callback fails: with an error, or with a panic. -/
inductive Failure where
  | error (e : FrameError)
  | panic
  deriving DecidableEq

/-- Source: `display-stream/src/frame.rs` `pixman_from_fourcc`. -/
def pixmanFromFourcc (fourcc : UInt32) : Option UInt32 :=
  if fourcc = 0x34325258 then some pixmanX8r8g8b8
  else if fourcc = 0x34325241 then some pixmanA8r8g8b8
  else if fourcc = 0x34324258 then some pixmanX8b8g8r8
  else if fourcc = 0x34324241 then some pixmanA8b8g8r8
  else none

/-- Multiplication that fails where `usize` overflows. -/
def checkedMul (a b : Nat) : Except Failure Nat :=
  if a * b < 2 ^ 64 then .ok (a * b) else .error (.error .geometry)

/-- A rectangle: left, top, width and height. -/
structure Rect where
  x : Nat
  y : Nat
  width : Nat
  height : Nat
  deriving DecidableEq

/-- Source: `display-stream/src/frame.rs` `Frame`. -/
@[ext]
structure Frame where
  width : UInt32
  height : UInt32
  pixels : List UInt8
  damage : Option Rect
  sized : pixels.length = width.toNat * height.toNat * 4
  deriving DecidableEq

namespace Frame

/-- Source: `display-stream/src/frame.rs` `Frame::empty`. -/
def empty (width height : UInt32) : Except Failure Frame :=
  if width.toNat * height.toNat * 4 < 2 ^ 64 then
    .ok ⟨width, height, List.replicate (width.toNat * height.toNat * 4) 0, none,
      length_replicate⟩
  else .error (.error .geometry)

/-- Red and blue change places. -/
def swap : List UInt8 → List UInt8
  | a :: b :: c :: d :: rest => c :: b :: a :: d :: swap rest
  | rest => rest

/-- The bytes of a line in B, G, R, A order. -/
def convert : PixelFormat → List UInt8 → List UInt8
  | .x8r8g8b8, line => line
  | .a8r8g8b8, line => line
  | .x8b8g8r8, line => swap line
  | .a8b8g8r8, line => swap line

/-- The lines of a rectangle from `row` on. -/
def copyRows (format : PixelFormat) (lineWidth x y width stride : Nat) (data : List UInt8) :
    (count row : Nat) → List UInt8 → Except Failure (List UInt8)
  | 0, _, pixels => .ok pixels
  | count + 1, row, pixels =>
    let targetStart := ((y + row) * lineWidth + x) * 4
    if data.length < row * stride + width * 4 ∨ pixels.length < targetStart + width * 4 then
      .error .panic
    else
      copyRows format lineWidth x y width stride data count (row + 1)
        (splice pixels targetStart (convert format (slice data (row * stride) (width * 4))))

/-! ## Lines -/

@[simp] theorem length_swap (line : List UInt8) : (swap line).length = line.length := by
  induction line using swap.induct with
  | case1 a b c d rest ih => simp [swap, ih]
  | case2 rest h =>
    rw [swap]
    exact h

@[simp] theorem length_convert (format : PixelFormat) (line : List UInt8) :
    (convert format line).length = line.length := by
  cases format <;> simp [convert]

theorem swap_swap (line : List UInt8) : swap (swap line) = line := by
  induction line using swap.induct with
  | case1 a b c d rest ih => simp [swap, ih]
  | case2 rest h =>
    have hswap : swap rest = rest := by
      rw [swap]
      exact h
    rw [hswap, hswap]

theorem convert_convert (format : PixelFormat) (line : List UInt8) :
    convert format (convert format line) = line := by
  cases format <;> simp [convert, swap_swap]

theorem convert_inj {format : PixelFormat} {line line' : List UInt8}
    (h : convert format line = convert format line') : line = line' := by
  rw [← convert_convert format line, h, convert_convert]

theorem length_copyRows {format : PixelFormat} {lineWidth x y width stride : Nat}
    {data pixels out : List UInt8} {count row : Nat}
    (h : copyRows format lineWidth x y width stride data count row pixels = .ok out) :
    out.length = pixels.length := by
  induction count generalizing row pixels with
  | zero =>
    cases h
    rfl
  | succ count ih =>
    unfold copyRows at h
    dsimp only at h
    split at h
    · cases h
    · next hfits =>
      rw [not_or] at hfits
      have hline : (convert format (slice data (row * stride) (width * 4))).length = width * 4 := by
        rw [length_convert, length_slice (Nat.not_lt.1 hfits.1)]
      rw [ih h, length_splice]
      rw [hline]
      exact Nat.not_lt.1 hfits.2

/-! ## Scanouts and updates -/

/-- The comparison of the stride wraps. Source: `display-stream/src/frame.rs` `Frame::copy_rect`. -/
def copyRect (self : Frame) (x y : Nat) (width height stride rawFormat : UInt32)
    (data : List UInt8) : Except Failure Frame :=
  match PixelFormat.fromPixman rawFormat with
  | none => .error (.error (.format rawFormat))
  | some format =>
    if stride < width * 4 ∨ data.length < stride.toNat * height.toNat then
      .error (.error .shortData)
    else
      match h : copyRows format self.width.toNat x y width.toNat stride.toNat data height.toNat 0
          self.pixels with
      | .error e => .error e
      | .ok pixels => .ok { self with pixels, sized := (length_copyRows h).trans self.sized }

/-- Source: `display-stream/src/frame.rs` `Frame::scanout`. -/
def scanout (width height stride format : UInt32) (data : List UInt8) : Except Failure Frame :=
  match empty width height with
  | .error e => .error e
  | .ok frame =>
    match frame.copyRect 0 0 width height stride format data with
    | .error e => .error e
    | .ok frame => .ok { frame with damage := some ⟨0, 0, width.toNat, height.toNat⟩ }

/-- The damage after an update. -/
def merge : Option Rect → Rect → Rect
  | none, r => r
  | some d, r =>
    let right := max (d.x + d.width) (r.x + r.width)
    let bottom := max (d.y + d.height) (r.y + r.height)
    ⟨min d.x r.x, min d.y r.y, right - min d.x r.x, bottom - min d.y r.y⟩

/-- The sums fit in `u32`, since neither term is more than `i32::MAX`.
Source: `display-stream/src/frame.rs` `Frame::update`. -/
def update (self : Frame) (x y width height : Int32) (stride format : UInt32)
    (data : List UInt8) : Except Failure Frame :=
  if x < 0 ∨ y < 0 ∨ width ≤ 0 ∨ height ≤ 0 then .error (.error .outside)
  else
    let r : Rect := ⟨x.toNatClampNeg, y.toNatClampNeg, width.toNatClampNeg, height.toNatClampNeg⟩
    if self.width.toNat < r.x + r.width ∨ self.height.toNat < r.y + r.height then
      .error (.error .outside)
    else
      match self.copyRect r.x r.y width.toUInt32 height.toUInt32 stride format data with
      | .error e => .error e
      | .ok frame => .ok { frame with damage := some (merge self.damage r) }

/-! ### Dimensions -/

section Dimensions

variable {frame frame' : Frame} {stride raw : UInt32} {data : List UInt8}

theorem dimensions_copyRect {x y : Nat} {width height : UInt32}
    (h : frame.copyRect x y width height stride raw data = .ok frame') :
    frame'.width = frame.width ∧ frame'.height = frame.height := by
  unfold copyRect at h
  split at h
  · cases h
  · split at h
    · cases h
    · split at h
      · cases h
      · cases h
        exact ⟨rfl, rfl⟩

theorem dimensions_scanout {width height : UInt32}
    (h : scanout width height stride raw data = .ok frame) :
    frame.width = width ∧ frame.height = height := by
  unfold scanout at h
  split at h
  · cases h
  · next base hbase =>
    split at h
    · cases h
    · next copied hcopied =>
      have hdims := dimensions_copyRect hcopied
      unfold empty at hbase
      split at hbase
      · cases hbase
        cases h
        exact hdims
      · cases hbase

theorem dimensions_update {x y width height : Int32}
    (h : frame.update x y width height stride raw data = .ok frame') :
    frame'.width = frame.width ∧ frame'.height = frame.height := by
  unfold update at h
  dsimp only at h
  split at h
  · cases h
  · split at h
    · cases h
    · split at h
      · cases h
      · next copied hcopied =>
        have hdims := dimensions_copyRect hcopied
        cases h
        exact hdims

end Dimensions

/-! ## What a scanout shows -/

/-- The lines of an image, in B, G, R, A order. -/
def lines (format : PixelFormat) (width stride : Nat) (data : List UInt8) (row count : Nat) :
    List UInt8 :=
  (List.range' row count).flatMap fun row => convert format (slice data (row * stride) (width * 4))

theorem copyRows_eq {format : PixelFormat} {width stride : Nat} {data front later : List UInt8}
    {count row : Nat} (hstride : width * 4 ≤ stride) (hdata : (row + count) * stride ≤ data.length)
    (hfront : front.length = row * width * 4) (hlater : later.length = count * width * 4) :
    copyRows format width 0 0 width stride data count row (front ++ later) =
      .ok (front ++ lines format width stride data row count) := by
  induction count generalizing row front later with
  | zero =>
    rw [Nat.zero_mul, Nat.zero_mul, length_eq_zero_iff] at hlater
    simp [copyRows, lines, hlater]
  | succ count ih =>
    have hline : row * stride + width * 4 ≤ data.length := by
      have hnext : (row + 1) * stride ≤ (row + (count + 1)) * stride :=
        Nat.mul_le_mul_right _ (by omega)
      rw [Nat.succ_mul] at hnext
      omega
    have hconvert : (convert format (slice data (row * stride) (width * 4))).length = width * 4 := by
      rw [length_convert, length_slice hline]
    have hsplit : (count + 1) * width * 4 = width * 4 + count * width * 4 := by ring
    have hroom : front.length + width * 4 ≤ (front ++ later).length := by
      rw [length_append, hlater, hsplit]
      omega
    unfold copyRows
    dsimp only
    rw [Nat.zero_add, Nat.add_zero, ← hfront, if_neg (by omega), splice_append rfl, hconvert, ih]
    · rw [lines, lines, range'_succ, flatMap_cons, append_assoc]
    · rwa [Nat.add_right_comm]
    · rw [length_append, hfront, hconvert]
      ring
    · rw [length_drop, hlater, hsplit]
      omega

theorem copyRect_eq {self : Frame} {x y : Nat} {width height stride raw : UInt32}
    {format : PixelFormat} {data pixels : List UInt8}
    (hformat : PixelFormat.fromPixman raw = some format) (hstride : ¬ stride < width * 4)
    (hdata : stride.toNat * height.toNat ≤ data.length)
    (hrows : copyRows format self.width.toNat x y width.toNat stride.toNat data height.toNat 0
      self.pixels = .ok pixels) :
    ∃ frame, self.copyRect x y width height stride raw data = .ok frame ∧
      frame.width = self.width ∧ frame.height = self.height ∧ frame.pixels = pixels := by
  unfold copyRect
  split
  · next hnone =>
    rw [hformat] at hnone
    cases hnone
  · next format' hsome =>
    rw [hformat] at hsome
    cases hsome
    rw [if_neg (not_or.2 ⟨hstride, Nat.not_lt.2 hdata⟩)]
    split
    · next e he =>
      rw [hrows] at he
      cases he
    · next pixels' hpixels =>
      rw [hrows] at hpixels
      cases hpixels
      exact ⟨_, rfl, rfl, rfl, rfl⟩

/-- A scanout shows the lines of its data. -/
theorem scanout_eq {width height stride raw : UInt32} {format : PixelFormat} {data : List UInt8}
    (hformat : PixelFormat.fromPixman raw = some format)
    (hstride : width.toNat * 4 ≤ stride.toNat)
    (hdata : stride.toNat * height.toNat ≤ data.length) :
    ∃ frame, scanout width height stride raw data = .ok frame ∧
      frame.width = width ∧ frame.height = height ∧
      frame.damage = some ⟨0, 0, width.toNat, height.toNat⟩ ∧
      frame.pixels = lines format width.toNat stride.toNat data 0 height.toNat := by
  have hsize : width.toNat * height.toNat * 4 < 2 ^ 64 := by
    calc width.toNat * height.toNat * 4 = width.toNat * 4 * height.toNat := by ring
      _ ≤ stride.toNat * height.toNat := Nat.mul_le_mul_right _ hstride
      _ ≤ 2 ^ 32 * height.toNat := Nat.mul_le_mul_right _ (Nat.le_of_lt stride.toNat_lt)
      _ < 2 ^ 32 * 2 ^ 32 := (Nat.mul_lt_mul_left (by decide)).2 height.toNat_lt
      _ = 2 ^ 64 := by decide
  have hwrap : ¬ stride < width * 4 := by
    rw [UInt32.lt_iff_toNat_lt, UInt32.toNat_mul]
    exact Nat.not_lt.2 (Nat.le_trans (Nat.mod_le _ _) hstride)
  have hrows := @copyRows_eq format width.toNat stride.toNat data []
    (List.replicate (width.toNat * height.toNat * 4) 0) height.toNat 0 hstride
    (by rwa [Nat.zero_add, Nat.mul_comm]) (by simp)
    (by rw [length_replicate, Nat.mul_comm width.toNat])
  rw [nil_append] at hrows
  unfold scanout empty
  rw [if_pos hsize]
  dsimp only
  obtain ⟨frame, hframe, hwidth, hheight, hpixels⟩ := @copyRect_eq
    ⟨width, height, _, none, length_replicate⟩ 0 0 _ _ _ _ _ _ _ hformat hwrap hdata hrows
  rw [hframe]
  exact ⟨_, rfl, hwidth, hheight, rfl, hpixels⟩

end Frame

end MachineEmu.Display
