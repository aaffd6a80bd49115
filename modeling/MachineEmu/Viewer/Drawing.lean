import MachineEmu.Display.Cursor
import MachineEmu.Lib.Binary64
import MachineEmu.Lib.Painting

/-!
# What the viewer draws

A window shows the frame of the guest, the cursor over it, and a toolbar on top. The pixels of a
window are one list; an access outside of it is a panic, which is `none`. The operations of `f64`
are exact ones rounded by `binary64`.

* `Viewport.fit`, `Viewport.scaled` — where the frame is shown.
* `blit`, `drawCursor`, `fillRect`, `drawText`, `drawToolbar` — what writes on the pixels.
* `Scene.picture`, `Scene.draw` — the frame and the cursor, and everything.
-/

namespace MachineEmu.Viewer

open Lib Display

/-! ## The viewport -/

/-- The bound of `u32`. -/
def maxU32 : Nat := 2 ^ 32 - 1

/-- `u32::saturating_mul` and `u32::saturating_add`. -/
def saturatingMul (a b : Nat) : Nat := min (a * b) maxU32

def saturatingAdd (a b : Nat) : Nat := min (a + b) maxU32

/-- A float that is cast to `u32`. -/
def toU32 (n : ℤ) : Nat := min n.toNat maxU32

/-- Source: `machineemu-viewer/src/app.rs` `TOOLBAR_HEIGHT`. -/
def toolbarHeight : Nat := 38

/-- Source: `app.rs` `ScaleMode`. -/
inductive ScaleMode where
  | fit
  | percent (percent : UInt32)
  deriving DecidableEq

/-- Source: `app.rs` `Viewport`. -/
structure Viewport where
  x : Nat
  y : Nat
  width : Nat
  height : Nat

/-- Source: `Viewport::fit`. -/
def Viewport.fit (source window : Nat × Nat) : Option Viewport :=
  let (sw, sh) := source
  let (ww, wh) := window
  if sw = 0 ∨ sh = 0 ∨ ww = 0 ∨ wh = 0 then none
  else
    let scale := min (binary64 (ww / sw)) (binary64 (wh / sh))
    let width := min (max (toU32 (nearestInt (binary64 (sw * scale)))) 1) ww
    let height := min (max (toU32 (nearestInt (binary64 (sh * scale)))) 1) wh
    some { x := (ww - width) / 2, y := (wh - height) / 2, width, height }

/-- The viewport in an area at the origin. Source: `Viewport::scaled`, `match scale`. -/
def Viewport.scaledTo (source window : Nat × Nat) : ScaleMode → Option Viewport
  | .fit => Viewport.fit source window
  | .percent percent =>
    let scaledWidth := saturatingMul source.1 percent.toNat / 100
    let scaledHeight := saturatingMul source.2 percent.toNat / 100
    if scaledWidth ≤ window.1 ∧ scaledHeight ≤ window.2 then
      some
        { x := (window.1 - scaledWidth) / 2
          y := (window.2 - scaledHeight) / 2
          width := max scaledWidth 1
          height := max scaledHeight 1 }
    else Viewport.fit (scaledWidth, scaledHeight) window

/-- Source: `Viewport::scaled`. -/
def Viewport.scaled (source : Nat × Nat) (area : Viewport) (scale : ScaleMode) : Option Viewport :=
  if area.width = 0 ∨ area.height = 0 then none
  else
    (Viewport.scaledTo source (area.width, area.height) scale).map fun view =>
      { view with x := view.x + area.x, y := view.y + area.y }

/-! ## The frame -/

/-- As many pixels as the size says. Source: `media.rs` `Frame`, `frame_from_sample`. -/
structure Frame where
  width : UInt32
  height : UInt32
  pixels : List UInt32
  tight : pixels.length = width.toNat * height.toNat

/-- The place of a row of a viewport. -/
def Viewport.start (view : Viewport) (stride row : Nat) : Nat := (view.y + row) * stride + view.x

/-- `xs[start..start + n]`. -/
def piece? {α : Type} (xs : List α) (start n : Nat) : Option (List α) :=
  if start + n ≤ xs.length then some (slice xs start n) else none

/-- Source: `blit`. -/
def blit (frame : Frame) (target : List UInt32) (stride : Nat) (view : Viewport) :
    Option (List UInt32) :=
  let fw := frame.width.toNat
  let fh := frame.height.toNat
  if fw = view.width ∧ fh = view.height then
    (List.range view.height).foldlM
      (fun target row => do
        let line ← piece? frame.pixels (row * fw) fw
        copySpan target (view.start stride row) line) target
  else
    (List.range view.height).foldlM
      (fun target row => do
        let source ← piece? frame.pixels (row * fh / view.height * fw) fw
        let line ← (List.range view.width).mapM fun x => source[x * fw / view.width]?
        copySpan target (view.start stride row) line) target

/-! ## The cursor -/

/-- A sum or a product of `i64`; an overflow is a panic. -/
def checkedI64 (n : ℤ) : Option ℤ := if -2 ^ 63 ≤ n ∧ n < 2 ^ 63 then some n else none

/-- A float that is cast to `i64`. -/
def toI64 (n : ℤ) : ℤ := max (-2 ^ 63) (min n (2 ^ 63 - 1))

/-- One part of the colour. Source: `draw_cursor`, `blend`. -/
def blend (pixel dst alpha shift : UInt32) : UInt32 :=
  let src := (pixel >>> shift) &&& 0xff
  let old := (dst >>> shift) &&& 0xff
  ((src * alpha + old * (255 - alpha) + 127) / 255) <<< shift

/-- What a pixel of the cursor makes of a pixel. Source: `draw_cursor`. -/
def overlay (pixel dst : UInt32) : UInt32 :=
  let alpha := (pixel >>> 24) &&& 0xff
  if alpha = 0 then dst
  else if alpha = 255 then pixel &&& 0x00ffffff
  else blend pixel dst alpha 16 ||| blend pixel dst alpha 8 ||| blend pixel dst alpha 0

/-- Where a cursor starts on an axis. Source: `draw_cursor`, `left` and `top`. -/
def cursorStart (origin : Nat) (position hot : Int32) (scale : ℚ) : Option ℤ :=
  let delta := binary64 (position.toInt - hot.toInt)
  checkedI64 (origin + toI64 (nearestInt (binary64 (delta * scale))))

/-- How long a cursor is on an axis. Source: `draw_cursor`, `width` and `height`. -/
def cursorLength (size : UInt32) (scale : ℚ) : ℤ :=
  toI64 (max (nearestInt (binary64 (size.toNat * scale))) 1)

/-- The numbers from `low` to `high`. -/
def span (low high : ℤ) : List ℤ := (List.range (high - low).toNat).map fun i : Nat => low + i

/-- One pixel of a cursor. Source: `draw_cursor`. -/
def drawPixel (cursor : Cursor) (target : List UInt32) (stride : Nat) (cx cy x y : ℤ) :
    Option (List UInt32) := do
  let bytes ← piece? cursor.data ((cy.toNat * cursor.width.toNat + cx.toNat) * 4) 4
  let pixel : UInt32 := .ofNat (leNat bytes)
  if (pixel >>> 24) &&& 0xff = 0 then some target
  else setPlace target (y.toNat * stride + x.toNat) (overlay pixel)

/-- The pixels from `x0` to `x1` of the rows from `y0` to `y1`. Source: `draw_cursor`, the loops. -/
def drawSpan (cursor : Cursor) (target : List UInt32) (stride : Nat)
    (left top width height x0 x1 y0 y1 : ℤ) : Option (List UInt32) :=
  (span y0 y1).foldlM
    (fun target y => do
      let down ← checkedI64 ((y - top) * cursor.height.toNat)
      (span x0 x1).foldlM
        (fun target x => do
          let across ← checkedI64 ((x - left) * cursor.width.toNat)
          drawPixel cursor target stride (across / width) (down / height) x y) target) target

/-- A cursor whose place and size on the window are known. Source: `draw_cursor`. -/
def drawCursorAt (cursor : Cursor) (target : List UInt32) (stride : Nat) (view : Viewport)
    (left top width height : ℤ) : Option (List UInt32) := do
  let right ← checkedI64 (left + width)
  let bottom ← checkedI64 (top + height)
  let rows := target.length / stride
  drawSpan cursor target stride left top width height
    (max (max left view.x) 0) (min (min right (view.x + view.width : Nat)) stride)
    (max (max top view.y) 0) (min (min bottom (view.y + view.height : Nat)) rows)

/-- Source: `draw_cursor`. -/
def drawCursor (cursor : Cursor) (target : List UInt32) (stride : Nat) (view : Viewport)
    (source : Nat × Nat) : Option (List UInt32) :=
  if cursor.visible = false ∨ cursor.valid = false ∨ cursor.width = 0 ∨ cursor.height = 0 ∨
      source.1 = 0 ∨ source.2 = 0 then some target
  else do
    let scaleX := binary64 (view.width / source.1)
    let scaleY := binary64 (view.height / source.2)
    let left ← cursorStart view.x cursor.x cursor.hotX scaleX
    let top ← cursorStart view.y cursor.y cursor.hotY scaleY
    drawCursorAt cursor target stride view left top (cursorLength cursor.width scaleX)
      (cursorLength cursor.height scaleY)

/-! ## The toolbar -/

structure Rect where
  x : Nat
  y : Nat
  width : Nat
  height : Nat

/-- Source: `fill_rect`. -/
def fillRect (pixels : List UInt32) (stride : Nat) (rect : Rect) (color : UInt32) :
    Option (List UInt32) :=
  let rows := pixels.length / stride
  let x1 := min (saturatingAdd rect.x rect.width) stride
  let y1 := min (saturatingAdd rect.y rect.height) (rows % 2 ^ 32)
  (List.range' rect.y (y1 - rect.y)).foldlM
    (fun pixels row => fillSpan pixels (row * stride + rect.x) (row * stride + x1) color) pixels

/-- Source: `glyph`. -/
def glyph (character : Char) : List String :=
  match character.toUpper with
  | 'A' => ["01110", "10001", "10001", "11111", "10001", "10001", "10001"]
  | 'B' => ["11110", "10001", "10001", "11110", "10001", "10001", "11110"]
  | 'C' => ["01111", "10000", "10000", "10000", "10000", "10000", "01111"]
  | 'E' => ["11111", "10000", "10000", "11110", "10000", "10000", "11111"]
  | 'F' => ["11111", "10000", "10000", "11110", "10000", "10000", "10000"]
  | 'G' => ["01111", "10000", "10000", "10111", "10001", "10001", "01111"]
  | 'I' => ["11111", "00100", "00100", "00100", "00100", "00100", "11111"]
  | 'L' => ["10000", "10000", "10000", "10000", "10000", "10000", "11111"]
  | 'N' => ["10001", "11001", "10101", "10011", "10001", "10001", "10001"]
  | 'O' => ["01110", "10001", "10001", "10001", "10001", "10001", "01110"]
  | 'P' => ["11110", "10001", "10001", "11110", "10000", "10000", "10000"]
  | 'R' => ["11110", "10001", "10001", "11110", "10100", "10010", "10001"]
  | 'S' => ["01111", "10000", "10000", "01110", "00001", "00001", "11110"]
  | 'T' => ["11111", "00100", "00100", "00100", "00100", "00100", "00100"]
  | 'U' => ["10001", "10001", "10001", "10001", "10001", "10001", "01110"]
  | 'V' => ["10001", "10001", "10001", "10001", "10001", "01010", "00100"]
  | 'X' => ["10001", "10001", "01010", "00100", "01010", "10001", "10001"]
  | '0' => ["01110", "10011", "10101", "10101", "10101", "11001", "01110"]
  | '1' => ["00100", "01100", "00100", "00100", "00100", "00100", "01110"]
  | '2' => ["01110", "10001", "00001", "00010", "00100", "01000", "11111"]
  | '3' => ["11110", "00001", "00001", "01110", "00001", "00001", "11110"]
  | '4' => ["00010", "00110", "01010", "10010", "11111", "00010", "00010"]
  | '5' => ["11111", "10000", "10000", "11110", "00001", "00001", "11110"]
  | '6' => ["01110", "10000", "10000", "11110", "10001", "10001", "01110"]
  | '7' => ["11111", "00001", "00010", "00100", "01000", "01000", "01000"]
  | '8' => ["01110", "10001", "10001", "01110", "10001", "10001", "01110"]
  | '9' => ["01110", "10001", "10001", "01111", "00001", "00001", "01110"]
  | '+' => ["00000", "00100", "00100", "11111", "00100", "00100", "00000"]
  | '%' => ["11001", "11010", "00100", "01000", "10110", "00110", "00000"]
  | _ => List.replicate 7 "00000"

/-- Source: `draw_text`, the body of the loop. -/
def drawGlyph (pixels : List UInt32) (stride x y : Nat) (character : Char) (color : UInt32) :
    Option (List UInt32) :=
  (glyph character).zipIdx.foldlM
    (fun pixels line =>
      line.1.toList.zipIdx.foldlM
        (fun pixels bit =>
          if bit.1 = '1' then fillRect pixels stride ⟨x + bit.2, y + line.2, 1, 1⟩ color
          else some pixels) pixels) pixels

/-- Source: `draw_text`. -/
def drawText (pixels : List UInt32) (stride x y : Nat) (text : List Char) (color : UInt32) :
    Option (List UInt32) :=
  match text with
  | [] => some pixels
  | character :: text => do
    let pixels ← drawGlyph pixels stride x y character color
    drawText pixels stride (x + 6) y text color

/-- Source: `toolbar_button`. -/
def toolbarButton (pixels : List UInt32) (stride : Nat) (rect : Rect) (label : String)
    (active : Bool) : Option (List UInt32) := do
  let pixels ← fillRect pixels stride rect (if active then 0x003b82f6 else 0x00303745)
  drawText pixels stride (rect.x + 8) (rect.y + 10) label.toList 0x00f3f4f6

/-- Source: `SCREEN_SIZES`. -/
def screenSizes : List (Nat × Nat) := [(1024, 768), (1280, 800), (1920, 1080), (2560, 1440)]

/-- Source: `ScaleMode::label`. -/
def ScaleMode.label : ScaleMode → String
  | .fit => "FIT"
  | .percent value => toString value.toNat ++ "%"

/-- The labels of the buttons. Source: `draw_toolbar`. -/
def sizeLabel (size : Nat × Nat) : String :=
  "SIZE " ++ toString size.1 ++ "X" ++ toString size.2

def scaleLabel (scale : ScaleMode) : String := "SCALE " ++ scale.label

def resizeLabel (resizeGuest : Bool) : String := if resizeGuest then "AUTO ON" else "AUTO OFF"

def grabLabel (grabbed : Bool) : String := if grabbed then "INPUT GRAB" else "INPUT FREE"

/-- Source: `draw_toolbar`. -/
def drawToolbar (pixels : List UInt32) (stride : Nat) (screenSize : Fin screenSizes.length)
    (scale : ScaleMode) (resizeGuest grabbed : Bool) : Option (List UInt32) := do
  let pixels ← fillRect pixels stride ⟨0, 0, stride, toolbarHeight⟩ 0x00111827
  let pixels ← toolbarButton pixels stride ⟨8, 5, 152, 28⟩ (sizeLabel (screenSizes.get screenSize))
    false
  let pixels ← toolbarButton pixels stride ⟨168, 5, 118, 28⟩ (scaleLabel scale) (scale ≠ .fit)
  let pixels ← toolbarButton pixels stride ⟨294, 5, 104, 28⟩ (resizeLabel resizeGuest) resizeGuest
  let pixels ← toolbarButton pixels stride ⟨406, 5, 116, 28⟩ (grabLabel grabbed) grabbed
  if 690 < stride then
    drawText pixels stride 538 15 "RELEASE CTRL+ALT+G".toList 0x009ca3af
  else some pixels

/-! ## The window -/

/-- A window of at least one pixel, whose buffer is at most as long as a slice can be. -/
structure Window where
  width : UInt32
  height : UInt32
  width_pos : 0 < width.toNat
  height_pos : 0 < height.toNat
  fits : width.toNat * height.toNat * 4 < 2 ^ 63

/-- What is drawn. Source: `app.rs` `App`. -/
structure Scene where
  frame : Option Frame
  cursor : Option Cursor
  /-- The size of the guest. -/
  source : Option (UInt32 × UInt32)
  scale : ScaleMode
  screenSize : Fin screenSizes.length
  resizeGuest : Bool
  grabbed : Bool

/-- Source: `App::source_size`. -/
def Scene.sourceSize (scene : Scene) : Option (Nat × Nat) :=
  match scene.source with
  | some (width, height) => some (width.toNat, height.toNat)
  | none => scene.frame.map fun frame => (frame.width.toNat, frame.height.toNat)

/-- Source: `App::viewport`. -/
def Scene.viewport (scene : Scene) (window : Window) : Option Viewport := do
  let source ← scene.sourceSize
  Viewport.scaled source
    ⟨0, toolbarHeight, window.width.toNat, window.height.toNat - toolbarHeight⟩ scene.scale

/-- The frame, if there is one and a place for it. Source: `App::draw`. -/
def Scene.drawFrame (scene : Scene) (window : Window) (buffer : List UInt32) :
    Option (List UInt32) :=
  match scene.frame, scene.viewport window with
  | some frame, some view => blit frame buffer window.width.toNat view
  | _, _ => some buffer

/-- The cursor, if the size of the guest is known. Source: `App::draw`. -/
def Scene.drawPointer (scene : Scene) (window : Window) (buffer : List UInt32) :
    Option (List UInt32) :=
  match scene.cursor, scene.viewport window, scene.source with
  | some cursor, some view, some (width, height) =>
    drawCursor cursor buffer window.width.toNat view (width.toNat, height.toNat)
  | _, _, _ => some buffer

/-- The frame and the cursor on a black window. Source: `App::draw`. -/
def Scene.picture (scene : Scene) (window : Window) : Option (List UInt32) := do
  let buffer ← scene.drawFrame window
    (List.replicate (window.width.toNat * window.height.toNat) 0)
  scene.drawPointer window buffer

/-- Source: `App::draw`. -/
def Scene.draw (scene : Scene) (window : Window) : Option (List UInt32) := do
  let picture ← scene.picture window
  drawToolbar picture window.width.toNat scene.screenSize scene.scale scene.resizeGuest
    scene.grabbed

end MachineEmu.Viewer
