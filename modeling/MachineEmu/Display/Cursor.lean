import MachineEmu.Lib.Bytes

/-!
# The cursor of the display

QEMU sends the cursor apart from the image: its shape, its place and whether it is there.

* `Cursor`, `Cursor.valid` — the cursor of the protocol, and what makes one valid.
* `CursorState` — the stored cursor, and how often it was set.
* `CursorCallback`, `CursorState.step` — the callbacks; each leaves a result and a state.
-/

namespace MachineEmu.Display

open Lib

/-- Source: `display-stream-protocol/src/lib.rs` `MAX_CURSOR_DIMENSION`. -/
def maxCursorDimension : UInt32 := 256

/-- Source: `display-stream-protocol/src/lib.rs` `Cursor`. -/
structure Cursor where
  kind : String := "cursor"
  x : Int32 := 0
  y : Int32 := 0
  visible : Bool := false
  width : UInt32 := 0
  height : UInt32 := 0
  hotX : Int32 := 0
  hotY : Int32 := 0
  data : List UInt8 := []

/-- The last product is computed for small sizes only. Source: `display-stream-protocol/src/lib.rs`
`Cursor::valid`. -/
def Cursor.valid (self : Cursor) : Bool :=
  self.kind = "cursor" && self.width ≤ maxCursorDimension && self.height ≤ maxCursorDimension &&
    0 ≤ self.hotX && 0 ≤ self.hotY && (self.width = 0 || self.hotX < self.width.toInt32) &&
    (self.height = 0 || self.hotY < self.height.toInt32) &&
    self.data.length = self.width.toNat * self.height.toNat * 4

/-- How a callback fails: with `InvalidArgs`, or with a panic. -/
inductive CursorFailure where
  | invalidArgs (message : String)
  | panic

/-- Source: `display-stream/src/listener.rs` `CaptureState`, the cursor of it. -/
structure CursorState where
  cursor : Cursor := {}
  revision : UInt64 := 0

/-- What a callback leaves. -/
abbrev CursorResult := Except CursorFailure Unit × CursorState

namespace CursorState

/-- Source: `display-stream/src/listener.rs` `mouse_set`. -/
def mouseSet (self : CursorState) (x y on : Int32) : CursorResult :=
  (.ok (), ⟨{ self.cursor with x, y, visible := on ≠ 0 }, self.revision + 1⟩)

/-- Source: `display-stream/src/listener.rs` `cursor_define`. -/
def cursorDefine (self : CursorState) (width height hotX hotY : Int32) (data : List UInt8) :
    CursorResult :=
  if width < 0 then (.error (.invalidArgs "negative cursor width"), self)
  else if height < 0 then (.error (.invalidArgs "negative cursor height"), self)
  else
    let cursor :=
      { self.cursor with width := width.toUInt32, height := height.toUInt32, hotX, hotY, data }
    if ¬cursor.valid ∨ maxCursorDimension < cursor.width then
      (.error (.invalidArgs "invalid cursor image"), self)
    else (.ok (), ⟨cursor, self.revision + 1⟩)

/-- Source: `display-stream/src/listener.rs` `cursor_move`. -/
def cursorMove (self : CursorState) (x y : Int32) : CursorResult :=
  (.ok (), ⟨{ self.cursor with x, y }, self.revision + 1⟩)

/-- The rows of an update: the ranges of the target and of the data are taken, or there is a
panic. -/
def copyCursorRows (lineWidth x y rowBytes : Nat) (data : List UInt8) :
    (count row : Nat) → List UInt8 → Option (List UInt8)
  | 0, _, pixels => some pixels
  | count + 1, row, pixels =>
    let target := ((y + row) * lineWidth + x) * 4
    if pixels.length < target + rowBytes ∨ data.length < (row + 1) * rowBytes then none
    else
      copyCursorRows lineWidth x y rowBytes data count (row + 1)
        (splice pixels target (slice data (row * rowBytes) rowBytes))

/-- The length of the data is computed for a rectangle inside the cursor only. Source:
`display-stream/src/listener.rs` `cursor_update`. -/
def cursorUpdate (self : CursorState) (x y width height : Int32) (data : List UInt8) :
    CursorResult :=
  if x < 0 ∨ y < 0 ∨ width < 0 ∨ height < 0 ∨
      self.cursor.width.toNat < x.toNatClampNeg + width.toNatClampNeg ∨
      self.cursor.height.toNat < y.toNatClampNeg + height.toNatClampNeg ∨
      data.length ≠ width.toNatClampNeg * height.toNatClampNeg * 4 then
    (.error (.invalidArgs "invalid cursor update"), self)
  else
    match copyCursorRows self.cursor.width.toNat x.toNatClampNeg y.toNatClampNeg
        (width.toNatClampNeg * 4) data height.toNatClampNeg 0 self.cursor.data with
    | none => (.error .panic, self)
    | some pixels => (.ok (), ⟨{ self.cursor with data := pixels }, self.revision + 1⟩)

/-- Source: `display-stream/src/listener.rs` `disable`. -/
def disable (self : CursorState) : CursorResult := (.ok (), self)

end CursorState

/-- A callback of the display that concerns the cursor. -/
inductive CursorCallback where
  | mouseSet (x y on : Int32)
  | cursorDefine (width height hotX hotY : Int32) (data : List UInt8)
  | cursorMove (x y : Int32)
  | cursorUpdate (x y width height : Int32) (data : List UInt8)
  | disable

def CursorState.step (s : CursorState) : CursorCallback → CursorResult
  | .mouseSet x y on => s.mouseSet x y on
  | .cursorDefine width height hotX hotY data => s.cursorDefine width height hotX hotY data
  | .cursorMove x y => s.cursorMove x y
  | .cursorUpdate x y width height data => s.cursorUpdate x y width height data
  | .disable => s.disable

/-- The stored cursor after some callbacks. -/
def CursorState.run (s : CursorState) (callbacks : List CursorCallback) : CursorState :=
  callbacks.foldl (fun s callback => (s.step callback).2) s

end MachineEmu.Display
