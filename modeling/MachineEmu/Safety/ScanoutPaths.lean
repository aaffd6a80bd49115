import MachineEmu.Safety.TiledScanout

/-!
# Linear and tiled scanouts of one image

A linear surface is read as it is when its flag says top-down, and from its last line otherwise. A
tiled surface is read the other way round. The two show the same only where the image is the same
read from either end.

* `shown` — the pixels of an image, from its first line or from its last.
* `DmaBufFrame.read_linear`, `DmaBufFrame.read_tiled` — what each path shows.
* `dmabuf_paths` — when the two paths show the same.
-/

namespace MachineEmu.Display

open Lib List

/-- A linear surface that holds an image, given by its lines. -/
def HoldsLinear (contents : List UInt8) (width height stride : Nat) (image : Nat → List UInt8) :
    Prop :=
  stride * height ≤ contents.length ∧
    ∀ y < height, slice contents (y * stride) (width * 4) = image y

/-- A tiled surface that holds an image. -/
def HoldsTiled (contents : List UInt8) (width height stride : Nat) (image : Nat → List UInt8) :
    Prop :=
  stride * height ≤ contents.length ∧
    ∀ y < height, tiledLine contents stride y (width * 4) = image y

/-- An image that is the same from either end. -/
def Symmetric (height : Nat) (image : Nat → List UInt8) : Prop :=
  ∀ y < height, image (height - 1 - y) = image y

/-- The pixels of an image, from the first line or from the last. -/
def shown (format : PixelFormat) (height : Nat) (image : Nat → List UInt8) (flip : Bool) :
    List UInt8 :=
  (List.range height).flatMap fun y => Frame.convert format (image (sourceLine height flip y))

/-- A framebuffer with these pixels, all of them damaged. -/
def Shows (frame : Frame) (width height : UInt32) (pixels : List UInt8) : Prop :=
  frame.width = width ∧ frame.height = height ∧
    frame.damage = some ⟨0, 0, width.toNat, height.toNat⟩ ∧ frame.pixels = pixels

theorem Shows.eq_iff {frame frame' : Frame} {width height : UInt32} {pixels pixels' : List UInt8}
    (h : Shows frame width height pixels) (h' : Shows frame' width height pixels') :
    frame = frame' ↔ pixels = pixels' := by
  obtain ⟨hwidth, hheight, hdamage, rfl⟩ := h
  obtain ⟨hwidth', hheight', hdamage', rfl⟩ := h'
  rw [Frame.ext_iff, hwidth, hwidth', hheight, hheight', hdamage, hdamage']
  tauto

/-- The two readings of an image are the same when the image is. -/
theorem shown_eq_iff {format : PixelFormat} {width height : Nat} {image : Nat → List UInt8}
    (hlength : ∀ y < height, (image y).length = width * 4) (flip : Bool) :
    shown format height image (!flip) = shown format height image flip ↔
      Symmetric height image := by
  have hblock : ∀ flip, ∀ y < height,
      (Frame.convert format (image (sourceLine height flip y))).length = width * 4 := by
    intro flip y hy
    rw [Frame.length_convert, hlength]
    unfold sourceLine
    split <;> omega
  have hback : ∀ y < height, height - 1 - (height - 1 - y) = y := fun y hy => by omega
  constructor
  · intro h y hy
    -- the lines of two equal images are equal
    have hline := congrArg (fun pixels => slice pixels (y * (width * 4) + 0) (width * 4)) h
    dsimp only [shown] at hline
    rw [slice_flatMap (hblock _) hy (by omega), slice_flatMap (hblock _) hy (by omega),
      slice_all (hblock _ y hy), slice_all (hblock _ y hy)] at hline
    have hsame := Frame.convert_inj hline
    cases flip
    · exact hsame
    · exact hsame.symm
  · intro h
    have hlines : ∀ y ∈ List.range height, image (sourceLine height (!flip) y) =
        image (sourceLine height flip y) := by
      intro y hy
      cases flip
      · exact h y (mem_range.1 hy)
      · exact (h y (mem_range.1 hy)).symm
    rw [shown, shown, flatMap_def, flatMap_def]
    congr 1
    apply map_congr_left
    intro y hy
    rw [hlines y hy]

/-! ## Reading -/

/-- A range of what is mapped. -/
theorem slice_take {contents : List UInt8} {length start n : Nat} (h : start + n ≤ length)
    (hlength : length ≤ contents.length) :
    slice (contents.take length) start n = slice contents start n := by
  conv_rhs => rw [← take_append_drop length contents]
  rw [slice_append]
  rwa [length_take, Nat.min_eq_left hlength]

/-- The lines of a linear surface, the last one first. -/
theorem flipRows_eq {mapped front : List UInt8} {height stride count row : Nat}
    (hfront : front.length = row * stride) (hcount : row + count ≤ height)
    (hmapped : stride * height ≤ mapped.length) :
    flipRows mapped height stride count row (front ++ List.replicate (count * stride) 0) =
      front ++ (List.range' row count).flatMap fun y =>
        slice mapped ((height - 1 - y) * stride) stride := by
  induction count generalizing row front with
  | zero => simp [flipRows]
  | succ count ih =>
    have hline : (height - 1 - row) * stride + stride ≤ mapped.length := by
      rw [← Nat.succ_mul]
      apply Nat.le_trans _ hmapped
      rw [Nat.mul_comm stride]
      exact Nat.mul_le_mul_right _ (by omega)
    unfold flipRows
    rw [splice_append hfront, length_slice hline, drop_replicate, Nat.succ_mul,
      Nat.add_sub_cancel, ih]
    · rw [range'_succ, flatMap_cons, append_assoc]
    · rw [length_append, hfront, length_slice hline, Nat.succ_mul]
    · omega

section Read

variable {self : DmaBufFrame} {memory : Memory} {format : PixelFormat} {image : Nat → List UInt8}

/-- A scanout of some lines shows the image that they hold. -/
theorem shows_of_lines {width height stride raw : UInt32} {linear : List UInt8} {flip : Bool}
    (hformat : PixelFormat.fromPixman raw = some format)
    (hstride : width.toNat * 4 ≤ stride.toNat)
    (hlinear : stride.toNat * height.toNat ≤ linear.length)
    (hlines : ∀ y < height.toNat, slice linear (y * stride.toNat) (width.toNat * 4) =
      image (sourceLine height.toNat flip y)) :
    ∃ frame, Frame.scanout width height stride raw linear = .ok frame ∧
      Shows frame width height (shown format height.toNat image flip) := by
  obtain ⟨frame, hframe, hwidth, hheight, hdamage, hpixels⟩ :=
    Frame.scanout_eq hformat hstride hlinear
  refine ⟨frame, hframe, hwidth, hheight, hdamage, ?_⟩
  rw [hpixels, Frame.lines, shown, range_eq_range', flatMap_def, flatMap_def]
  congr 1
  apply map_congr_left
  intro y hy
  rw [hlines y (by simpa using hy)]

/-- What a linear surface shows. -/
theorem DmaBufFrame.read_linear (hmodifier : self.modifier ≠ i915FormatModXTiled)
    (hformat : PixelFormat.fromPixman self.pixmanFormat = some format)
    (hstride : self.width.toNat * 4 ≤ self.stride.toNat)
    (h : HoldsLinear (memory self.file) self.width.toNat self.height.toNat self.stride.toNat
      image) :
    ∃ frame, self.read memory = .ok frame ∧
      Shows frame self.width self.height (shown format self.height.toNat image (!self.y0Top)) := by
  obtain ⟨hlength, himage⟩ := h
  generalize hmapped : (memory self.file).take (self.stride.toNat * self.height.toNat) = mapped
  have hsize : mapped.length = self.stride.toNat * self.height.toNat := by
    rw [← hmapped, length_take, Nat.min_eq_left hlength]
  have hroom : ∀ y < self.height.toNat, y * self.stride.toNat + self.stride.toNat ≤
      self.stride.toNat * self.height.toNat := by
    intro y hy
    rw [← Nat.succ_mul, Nat.mul_comm self.stride.toNat]
    exact Nat.mul_le_mul_right _ hy
  have hline : ∀ y < self.height.toNat,
      slice mapped (y * self.stride.toNat) (self.width.toNat * 4) = image y := by
    intro y hy
    rw [← himage y hy, ← hmapped, slice_take _ hlength]
    have := hroom y hy
    omega
  rw [DmaBufFrame.read_eq hlength, hmapped, DmaBufFrame.linear, if_neg hmodifier]
  by_cases htop : self.y0Top = true
  · rw [if_pos htop, htop]
    exact shows_of_lines hformat hstride (Nat.le_of_eq hsize.symm) hline
  · have hflipped : flipLinear mapped self.height self.stride =
        .ok ((List.range self.height.toNat).flatMap fun y =>
          slice mapped ((self.height.toNat - 1 - y) * self.stride.toNat) self.stride.toNat) := by
      unfold flipLinear
      rw [checkedMul_eq]
      change (if _ < _ then _ else _) = _
      rw [if_neg (by rw [hsize, Nat.mul_comm]; exact Nat.lt_irrefl _), range_eq_range']
      exact congrArg _ (@flipRows_eq mapped [] _ _ _ 0 (Nat.zero_mul _).symm (by omega)
        (Nat.le_of_eq hsize.symm))
    have hblock : ∀ y < self.height.toNat,
        (slice mapped ((self.height.toNat - 1 - y) * self.stride.toNat)
          self.stride.toNat).length = self.stride.toNat := by
      intro y hy
      apply length_slice
      rw [hsize]
      exact hroom _ (by omega)
    rw [if_neg htop, hflipped]
    apply shows_of_lines hformat hstride
    · rw [length_flatMap_blocks hblock, Nat.mul_comm]
    · intro y hy
      have hback := hline (self.height.toNat - 1 - y) (by omega)
      rw [← Nat.add_zero (y * _), slice_flatMap hblock hy (by omega), slice_slice (by omega), hback]
      simp [sourceLine, htop]

/-- What a tiled surface shows. -/
theorem DmaBufFrame.read_tiled (hmodifier : self.modifier = i915FormatModXTiled)
    (hformat : PixelFormat.fromPixman self.pixmanFormat = some format)
    (htiles : self.stride.toNat % 512 = 0) (hstride : self.width.toNat * 4 ≤ self.stride.toNat)
    (h : HoldsTiled (memory self.file) self.width.toNat self.height.toNat self.stride.toNat image)
    (hfits : TilesFit self.width.toNat self.height.toNat self.stride.toNat
      (self.stride.toNat * self.height.toNat)) :
    ∃ frame, self.read memory = .ok frame ∧
      Shows frame self.width self.height (shown format self.height.toNat image self.y0Top) := by
  obtain ⟨hlength, himage⟩ := h
  generalize hmapped : (memory self.file).take (self.stride.toNat * self.height.toNat) = mapped
  have hsize : mapped.length = self.stride.toNat * self.height.toNat := by
    rw [← hmapped, length_take, Nat.min_eq_left hlength]
  rw [← hsize] at hfits
  have hlines := (linesFit_iff self.y0Top htiles hstride).2 hfits
  have hblock : ∀ y < self.height.toNat, (imageLine mapped self.width.toNat self.height.toNat
      self.stride.toNat self.y0Top y).length = self.stride.toNat := by
    intro y _
    rw [imageLine, length_append, length_tiledLine, length_replicate]
    omega
  have hline : ∀ y < self.height.toNat,
      tiledLine mapped self.stride.toNat (sourceLine self.height.toNat self.y0Top y)
        (self.width.toNat * 4) = image (sourceLine self.height.toNat self.y0Top y) := by
    intro y hy
    have hsource : sourceLine self.height.toNat self.y0Top y < self.height.toNat := by
      unfold sourceLine
      split <;> omega
    rw [← himage _ hsource, tiledLine, tiledLine]
    apply map_congr_left
    intro b hb
    have hb' := mem_range.1 hb
    have haddress : tileAddress self.stride.toNat (sourceLine self.height.toNat self.y0Top y) b <
        self.stride.toNat * self.height.toNat := by
      rw [← hsize]
      rcases hlines y hy with hzero | hlast
      · omega
      · exact Nat.lt_of_le_of_lt
          (Tiling.address_mono (by omega) (Nat.le_refl _) (by omega)) hlast
    rw [← hmapped, getD_eq_getElem?_getD, getD_eq_getElem?_getD, List.getElem?_take_of_lt haddress]
  rw [DmaBufFrame.read_eq hlength, hmapped, DmaBufFrame.linear, if_pos hmodifier,
    linearizeXTiled_eq htiles hstride (Nat.le_of_eq hsize.symm) hfits]
  apply shows_of_lines hformat hstride
  · rw [tiledImage, length_flatMap_blocks hblock, Nat.mul_comm]
  · intro y hy
    rw [← Nat.add_zero (y * _), tiledImage, slice_flatMap hblock hy (by omega), imageLine,
      slice_append (by rw [length_tiledLine]; omega),
      slice_all (length_tiledLine _ _ _ _), hline y hy]

/-- A tiled surface that is not in the mapping is not read. -/
theorem DmaBufFrame.read_tiled_error (hmodifier : self.modifier = i915FormatModXTiled)
    (htiles : self.stride.toNat % 512 = 0) (hstride : self.width.toNat * 4 ≤ self.stride.toNat)
    (hlength : self.stride.toNat * self.height.toNat ≤ (memory self.file).length)
    (hfits : ¬ TilesFit self.width.toNat self.height.toNat self.stride.toNat
      (self.stride.toNat * self.height.toNat)) :
    self.read memory = .error (.error .shortData) := by
  generalize hmapped : (memory self.file).take (self.stride.toNat * self.height.toNat) = mapped
  have hsize : mapped.length = self.stride.toNat * self.height.toNat := by
    rw [← hmapped, length_take, Nat.min_eq_left hlength]
  rw [← hsize] at hfits
  rw [DmaBufFrame.read_eq hlength, hmapped, DmaBufFrame.linear, if_pos hmodifier,
    linearizeXTiled_error htiles hstride (Nat.le_of_eq hsize.symm) hfits]
  rfl

end Read

/-! ## The two paths -/

/-- What QEMU says about a surface besides its buffer, its stride and its modifier. -/
structure Screen where
  width : UInt32
  height : UInt32
  fourcc : UInt32
  y0Top : Bool

/-- A buffer of a screen. -/
structure Surface where
  file : Nat
  stride : UInt32
  modifier : UInt64

/-- The scanout of a surface, and an update of it after the buffer has changed. -/
def present (self : CaptureState) (screen : Screen) (surface : Surface) (memory memory' : Memory)
    (x y width height : Int32) : Except Failure (CaptureState × CaptureState) := do
  let scanned ← self.scanoutDmabuf memory surface.file screen.width screen.height surface.stride
    screen.fourcc surface.modifier screen.y0Top
  let updated ← scanned.updateDmabuf memory' x y width height
  return (scanned, updated)

/-- Two presentations are both accepted and leave the same framebuffers. -/
def SameFrames (r₁ r₂ : Except Failure (CaptureState × CaptureState)) : Prop :=
  ∃ s₁ s₁' s₂ s₂', r₁ = .ok (s₁, s₁') ∧ r₂ = .ok (s₂, s₂') ∧ s₁.frame = s₂.frame ∧
    s₁'.frame = s₂'.frame

/-- An update of a rectangle of the screen reads the buffer again, unless the mode is native. -/
theorem updateDmabuf_eq {self : CaptureState} {source : DmaBufFrame} {memory : Memory}
    {x y width height : Int32} (hdma : self.dma = some source)
    (hpositive : 0 ≤ x ∧ 0 ≤ y ∧ 0 ≤ width ∧ 0 ≤ height)
    (hinside : x.toNatClampNeg + width.toNatClampNeg ≤ source.width.toNat ∧
      y.toNatClampNeg + height.toNatClampNeg ≤ source.height.toNat) :
    self.updateDmabuf memory x y width height =
      if self.native then .ok { self with refresh := true }
      else (source.read memory).map fun frame => { self with frame := some frame, refresh := true } := by
  unfold CaptureState.updateDmabuf
  rw [hdma]
  dsimp only
  rw [if_neg, if_neg (by omega)]
  · split
    · rfl
    · cases source.read memory <;> rfl
  · simp only [not_or, Int32.not_lt]
    exact hpositive

/-- The shared buffer behind a surface. -/
def Surface.source (surface : Surface) (screen : Screen) (raw : UInt32) : DmaBufFrame :=
  ⟨surface.file, screen.width, screen.height, surface.stride, screen.fourcc, surface.modifier,
    screen.y0Top, raw⟩

/-- A surface that can be read is presented. -/
theorem present_eq (self : CaptureState) {screen : Screen} {surface : Surface}
    {memory memory' : Memory} {x y width height : Int32} {raw : UInt32} {frame frame' : Frame}
    (hmodifier : surface.modifier = 0 ∨ surface.modifier = i915FormatModXTiled)
    (hraw : pixmanFromFourcc screen.fourcc = some raw)
    (hpositive : 0 ≤ x ∧ 0 ≤ y ∧ 0 ≤ width ∧ 0 ≤ height)
    (hinside : x.toNatClampNeg + width.toNatClampNeg ≤ screen.width.toNat ∧
      y.toNatClampNeg + height.toNatClampNeg ≤ screen.height.toNat)
    (hframe : (surface.source screen raw).read memory = .ok frame)
    (hframe' : (surface.source screen raw).read memory' = .ok frame') :
    ∃ s s', present self screen surface memory memory' x y width height = .ok (s, s') ∧
      s.frame = some frame ∧ s'.frame = if self.native then some frame else some frame' := by
  have hscanout : self.scanoutDmabuf memory surface.file screen.width screen.height surface.stride
      screen.fourcc surface.modifier screen.y0Top =
      .ok { self with
        frame := some frame
        dma := some (surface.source screen raw)
        refresh := true } := by
    rw [CaptureState.scanoutDmabuf_eq hmodifier hraw]
    change Except.map _ ((surface.source screen raw).read memory) = _
    rw [hframe]
    rfl
  unfold present
  rw [hscanout]
  change ∃ s s', (CaptureState.updateDmabuf _ _ _ _ _ _ >>= _) = _ ∧ _
  rw [updateDmabuf_eq rfl hpositive hinside]
  by_cases hnative : self.native = true
  · rw [if_pos hnative, if_pos hnative]
    exact ⟨_, _, rfl, rfl, rfl⟩
  · rw [if_neg hnative, if_neg hnative, hframe']
    exact ⟨_, _, rfl, rfl, rfl⟩

/-- A linear and a tiled surface of a screen. -/
structure TwoSurfaces (screen : Screen) (linear tiled : Surface) : Prop where
  fourcc : pixmanFromFourcc screen.fourcc ≠ none
  linearModifier : linear.modifier = 0
  tiledModifier : tiled.modifier = i915FormatModXTiled
  linearStride : screen.width.toNat * 4 ≤ linear.stride.toNat
  tiledStride : screen.width.toNat * 4 ≤ tiled.stride.toNat
  tiles : tiled.stride.toNat % 512 = 0

/-- Both surfaces hold the image. -/
def BothHold (screen : Screen) (linear tiled : Surface) (memory : Memory)
    (image : Nat → List UInt8) : Prop :=
  HoldsLinear (memory linear.file) screen.width.toNat screen.height.toNat linear.stride.toNat
      image ∧
    HoldsTiled (memory tiled.file) screen.width.toNat screen.height.toNat tiled.stride.toNat image

section Paths

variable {screen : Screen} {linear tiled : Surface} {memory : Memory} {image : Nat → List UInt8}
  {raw : UInt32}

/-- Both surfaces are read, with the same result when the image is the same from either end. -/
theorem TwoSurfaces.read (hsurfaces : TwoSurfaces screen linear tiled)
    (hraw : pixmanFromFourcc screen.fourcc = some raw)
    (himage : BothHold screen linear tiled memory image)
    (hfits : TilesFit screen.width.toNat screen.height.toNat tiled.stride.toNat
      (tiled.stride.toNat * screen.height.toNat)) :
    ∃ l t, (linear.source screen raw).read memory = .ok l ∧
      (tiled.source screen raw).read memory = .ok t ∧
      (l = t ↔ Symmetric screen.height.toNat image) := by
  obtain ⟨format, hformat⟩ := fromPixman_of_fourcc hraw
  obtain ⟨hlinear, htiled⟩ := himage
  have hmodifier : linear.modifier ≠ i915FormatModXTiled := by
    rw [hsurfaces.linearModifier]
    decide
  obtain ⟨l, hl, hlShows⟩ := (linear.source screen raw).read_linear hmodifier hformat
    hsurfaces.linearStride hlinear
  obtain ⟨t, ht, htShows⟩ := (tiled.source screen raw).read_tiled hsurfaces.tiledModifier hformat
    hsurfaces.tiles hsurfaces.tiledStride htiled hfits
  have hlength : ∀ y < screen.height.toNat, (image y).length = screen.width.toNat * 4 := by
    intro y hy
    rw [← htiled.2 y hy, length_tiledLine]
  refine ⟨l, t, hl, ht, ?_⟩
  rw [hlShows.eq_iff htShows]
  exact shown_eq_iff hlength screen.y0Top

/-- A tiled surface that is not in the mapping is not presented. -/
theorem TwoSurfaces.not_presented (hsurfaces : TwoSurfaces screen linear tiled)
    (himage : BothHold screen linear tiled memory image)
    (hfits : ¬ TilesFit screen.width.toNat screen.height.toNat tiled.stride.toNat
      (tiled.stride.toNat * screen.height.toNat)) (self : CaptureState) (memory' : Memory)
    (x y width height : Int32) :
    present self screen tiled memory memory' x y width height = .error (.error .shortData) := by
  obtain ⟨raw, hraw⟩ := Option.ne_none_iff_exists'.1 hsurfaces.fourcc
  have herror := (tiled.source screen raw).read_tiled_error hsurfaces.tiledModifier hsurfaces.tiles
    hsurfaces.tiledStride himage.2.1 hfits
  have hscanout : self.scanoutDmabuf memory tiled.file screen.width screen.height tiled.stride
      screen.fourcc tiled.modifier screen.y0Top = .error (.error .shortData) := by
    rw [CaptureState.scanoutDmabuf_eq (.inr hsurfaces.tiledModifier) hraw]
    change Except.map _ ((tiled.source screen raw).read memory) = _
    rw [herror]
    rfl
  unfold present
  rw [hscanout]
  rfl

end Paths

/-- The two paths leave the same framebuffers exactly when the mapping of the tiled surface holds its
last byte and the images that are read are the same from either end. -/
theorem dmabuf_paths (self : CaptureState) (screen : Screen) (linear tiled : Surface)
    (memory memory' : Memory) (image image' : Nat → List UInt8) (x y width height : Int32)
    (hsurfaces : TwoSurfaces screen linear tiled)
    (himage : BothHold screen linear tiled memory image)
    (himage' : BothHold screen linear tiled memory' image')
    (hpositive : 0 ≤ x ∧ 0 ≤ y ∧ 0 ≤ width ∧ 0 ≤ height)
    (hinside : x.toNatClampNeg + width.toNatClampNeg ≤ screen.width.toNat ∧
      y.toNatClampNeg + height.toNatClampNeg ≤ screen.height.toNat) :
    SameFrames (present self screen linear memory memory' x y width height)
        (present self screen tiled memory memory' x y width height) ↔
      TilesFit screen.width.toNat screen.height.toNat tiled.stride.toNat
          (tiled.stride.toNat * screen.height.toNat) ∧
        Symmetric screen.height.toNat image ∧
        (self.native = true ∨ Symmetric screen.height.toNat image') := by
  obtain ⟨raw, hraw⟩ := Option.ne_none_iff_exists'.1 hsurfaces.fourcc
  by_cases hfits : TilesFit screen.width.toNat screen.height.toNat tiled.stride.toNat
      (tiled.stride.toNat * screen.height.toNat)
  · obtain ⟨l, t, hl, ht, hsame⟩ := hsurfaces.read hraw himage hfits
    obtain ⟨l', t', hl', ht', hsame'⟩ := hsurfaces.read hraw himage' hfits
    obtain ⟨s₁, s₁', hpresent₁, hframe₁, hframe₁'⟩ :=
      present_eq self (.inl hsurfaces.linearModifier) hraw hpositive hinside hl hl'
    obtain ⟨s₂, s₂', hpresent₂, hframe₂, hframe₂'⟩ :=
      present_eq self (.inr hsurfaces.tiledModifier) hraw hpositive hinside ht ht'
    rw [hpresent₁, hpresent₂, and_iff_right hfits, ← hsame, ← hsame']
    constructor
    · rintro ⟨_, _, _, _, h₁, h₂, hframe, hframe'⟩
      cases h₁
      cases h₂
      rw [hframe₁, hframe₂, Option.some_inj] at hframe
      refine ⟨hframe, ?_⟩
      by_cases hnative : self.native = true
      · exact .inl hnative
      · rw [hframe₁', hframe₂', if_neg hnative, if_neg hnative, Option.some_inj] at hframe'
        exact .inr hframe'
    · rintro ⟨hframe, hupdate⟩
      refine ⟨s₁, s₁', s₂, s₂', rfl, rfl, ?_, ?_⟩
      · rw [hframe₁, hframe₂, hframe]
      · rw [hframe₁', hframe₂']
        rcases hupdate with hnative | hframe'
        · rw [if_pos hnative, if_pos hnative, hframe]
        · rw [hframe, hframe']
  · refine iff_of_false ?_ (fun h => hfits h.1)
    rintro ⟨_, _, _, _, -, h₂, -⟩
    rw [hsurfaces.not_presented himage hfits] at h₂
    cases h₂

/-- A screen of one column in a linear buffer and in a tiled one. -/
def column (first second : List UInt8) : Memory := fun file =>
  if file = 0 then first ++ second
  else first ++ List.replicate 508 0 ++ second ++ List.replicate 508 0

/-- One line is the same from either end. -/
theorem dmabuf_paths_of_line :
    SameFrames
      (present {} ⟨1, 1, 0x34325258, false⟩ ⟨0, 4, 0⟩ (column [1, 2, 3, 4] [])
        (column [5, 6, 7, 8] []) 0 0 1 1)
      (present {} ⟨1, 1, 0x34325258, false⟩ ⟨1, 512, i915FormatModXTiled⟩ (column [1, 2, 3, 4] [])
        (column [5, 6, 7, 8] []) 0 0 1 1) := by
  refine (dmabuf_paths {} ⟨1, 1, 0x34325258, false⟩ ⟨0, 4, 0⟩ ⟨1, 512, i915FormatModXTiled⟩
    (column [1, 2, 3, 4] []) (column [5, 6, 7, 8] []) (fun _ => [1, 2, 3, 4])
    (fun _ => [5, 6, 7, 8]) 0 0 1 1 ⟨by decide, rfl, rfl, by decide, by decide, by decide⟩ ?_ ?_
    (by decide) (by decide)).2 ⟨by decide, fun _ _ => rfl, .inr fun _ _ => rfl⟩
  · unfold BothHold HoldsLinear HoldsTiled
    decide +kernel
  · unfold BothHold HoldsLinear HoldsTiled
    decide +kernel

/-- Two lines that differ are shown in opposite orders. -/
theorem dmabuf_paths_cut : ∃ (screen : Screen) (linear tiled : Surface) (memory : Memory)
    (image : Nat → List UInt8), TwoSurfaces screen linear tiled ∧
      BothHold screen linear tiled memory image ∧
      ¬ SameFrames (present {} screen linear memory memory 0 0 1 1)
        (present {} screen tiled memory memory 0 0 1 1) := by
  have hsurfaces : TwoSurfaces ⟨1, 2, 0x34325258, false⟩ ⟨0, 4, 0⟩ ⟨1, 512, i915FormatModXTiled⟩ :=
    ⟨by decide, rfl, rfl, by decide, by decide, by decide⟩
  have himage : BothHold ⟨1, 2, 0x34325258, false⟩ ⟨0, 4, 0⟩ ⟨1, 512, i915FormatModXTiled⟩
      (column [1, 2, 3, 4] [5, 6, 7, 8])
      (fun y => if y = 0 then [1, 2, 3, 4] else [5, 6, 7, 8]) := by
    unfold BothHold HoldsLinear HoldsTiled
    decide +kernel
  refine ⟨_, _, _, _, _, hsurfaces, himage, ?_⟩
  obtain ⟨l, t, hl, ht, hsame⟩ := hsurfaces.read rfl himage (by decide)
  have hinside : (0 : Int32).toNatClampNeg + (1 : Int32).toNatClampNeg ≤ (1 : UInt32).toNat ∧
      (0 : Int32).toNatClampNeg + (1 : Int32).toNatClampNeg ≤ (2 : UInt32).toNat := by decide
  have hpositive : (0 : Int32) ≤ 0 ∧ (0 : Int32) ≤ 0 ∧ (0 : Int32) ≤ 1 ∧ (0 : Int32) ≤ 1 := by decide
  obtain ⟨s₁, s₁', hpresent₁, hframe₁, -⟩ := present_eq {} (.inl rfl) rfl hpositive hinside hl hl
  obtain ⟨s₂, s₂', hpresent₂, hframe₂, -⟩ := present_eq {} (.inr rfl) rfl hpositive hinside ht ht
  rintro ⟨_, _, _, _, h₁, h₂, hframe, -⟩
  rw [hpresent₁] at h₁
  rw [hpresent₂] at h₂
  cases h₁
  cases h₂
  rw [hframe₁, hframe₂, Option.some_inj, hsame] at hframe
  exact absurd (hframe 0 (by decide)) (by decide)

end MachineEmu.Display
