import MachineEmu.Display.Frame
import MachineEmu.Lib.Tiles

/-!
# Captured images

What the display listener keeps of the images that QEMU shows: a framebuffer of its own and the
shared buffer of the last DMA-BUF scanout.

* `linearizeXTiled`, `flipLinear` — the lines of a shared buffer, from the top.
* `DmaBufFrame.read` — the framebuffer that a shared buffer shows.
* `CaptureState` — the callbacks, the snapshots and the mode.
-/

namespace MachineEmu.Display

open Lib

/-- The contents of the shared buffers. Whoever draws into them changes them at any time. -/
abbrev Memory := Nat → List UInt8

/-- A mapping of the first bytes of a shared buffer. It fails when the buffer is smaller. -/
def mapFile (contents : List UInt8) (length : Nat) : Except Failure (List UInt8) :=
  if length ≤ contents.length then .ok (contents.take length) else .error (.error .shortData)

/-! ## Tiled buffers -/

/-- The runs of a line from byte `sourceByteX` on. Each turn copies a byte at least. -/
def copyRuns (mapped : List UInt8) (tilesPerRow sourceY stop : Nat) :
    (fuel sourceByteX targetOffset : Nat) → List UInt8 → Except Failure (List UInt8)
  | 0, _, _, target => .ok target
  | fuel + 1, sourceByteX, targetOffset, target =>
    if sourceByteX < stop then
      let inTileX := sourceByteX % 512
      let bytes := min (512 - inTileX) (stop - sourceByteX)
      let source := (sourceY / 8 * tilesPerRow + sourceByteX / 512) * 4096 + sourceY % 8 * 512 +
        inTileX
      if mapped.length < source + bytes ∨ target.length < targetOffset + bytes then
        .error (.error .shortData)
      else
        copyRuns mapped tilesPerRow sourceY stop fuel (sourceByteX + bytes) (targetOffset + bytes)
          (splice target targetOffset (slice mapped source bytes))
    else .ok target

/-- Source: `display-stream/src/listener.rs` `copy_x_tiled_row`. -/
def copyXTiledRow (mapped : List UInt8) (stride sourceY sourceX width : Nat)
    (target : List UInt8) : Except Failure (List UInt8) := do
  let start ← checkedMul sourceX 4
  let bytes ← checkedMul width 4
  let stop ← if start + bytes < 2 ^ 64 then .ok (start + bytes) else .error (.error .geometry)
  copyRuns mapped (stride / 512) sourceY stop (stop - start) start 0 target

/-- The lines from `y` on. A bottom-up surface is read from its last line. -/
def copyTiledRows (mapped : List UInt8) (width height stride : Nat) (y0Top : Bool) :
    (count y : Nat) → List UInt8 → Except Failure (List UInt8)
  | 0, _, output => .ok output
  | count + 1, y, output =>
    let sourceY := if y0Top then height - 1 - y else y
    if output.length < y * stride + width * 4 then .error .panic
    else do
      let line ← copyXTiledRow mapped stride sourceY 0 width (slice output (y * stride) (width * 4))
      copyTiledRows mapped width height stride y0Top count (y + 1)
        (splice output (y * stride) line)

/-- Source: `display-stream/src/listener.rs` `linearize_x_tiled`. -/
def linearizeXTiled (mapped : List UInt8) (width height stride : UInt32) (y0Top : Bool) :
    Except Failure (List UInt8) :=
  if stride.toNat < min (width.toNat * 4) (2 ^ 32 - 1) ∨ stride.toNat % 512 ≠ 0 then
    .error (.error .geometry)
  else do
    let required ← checkedMul stride.toNat height.toNat
    if mapped.length < required then .error (.error .shortData)
    else
      copyTiledRows mapped width.toNat height.toNat stride.toNat y0Top height.toNat 0
        (List.replicate required 0)

/-! ## Linear buffers -/

/-- The lines from `row` on, the last line of the source first. -/
def flipRows (mapped : List UInt8) (height stride : Nat) :
    (count row : Nat) → List UInt8 → List UInt8
  | 0, _, output => output
  | count + 1, row, output =>
    flipRows mapped height stride count (row + 1)
      (splice output (row * stride) (slice mapped ((height - 1 - row) * stride) stride))

/-- Source: `display-stream/src/listener.rs` `flip_linear`. -/
def flipLinear (mapped : List UInt8) (height stride : UInt32) : Except Failure (List UInt8) := do
  let length ← checkedMul height.toNat stride.toNat
  if mapped.length < length then .error (.error .shortData)
  else .ok (flipRows mapped height.toNat stride.toNat height.toNat 0 (List.replicate length 0))

/-! ## The capture state -/

/-- The modifier of an X-tiled buffer. -/
def i915FormatModXTiled : UInt64 := 0x0100000000000001

/-- A shared buffer and how to read it. Source: `display-stream/src/listener.rs` `DmaBufFrame`. -/
structure DmaBufFrame where
  file : Nat
  width : UInt32
  height : UInt32
  stride : UInt32
  fourcc : UInt32
  modifier : UInt64
  y0Top : Bool
  pixmanFormat : UInt32

/-- The lines of a mapped buffer, from the top. -/
def DmaBufFrame.linear (self : DmaBufFrame) (mapped : List UInt8) : Except Failure (List UInt8) :=
  if self.modifier = i915FormatModXTiled then
    linearizeXTiled mapped self.width self.height self.stride self.y0Top
  else if self.y0Top then .ok mapped
  else flipLinear mapped self.height self.stride

/-- The framebuffer that a shared buffer shows. -/
def DmaBufFrame.read (self : DmaBufFrame) (memory : Memory) : Except Failure Frame := do
  let length ← checkedMul self.stride.toNat self.height.toNat
  let mapped ← mapFile (memory self.file) length
  let linear ← self.linear mapped
  Frame.scanout self.width self.height self.stride self.pixmanFormat linear

/-- Source: `display-stream/src/listener.rs` `CaptureState`, without the cursor. -/
structure CaptureState where
  frame : Option Frame := none
  refresh : Bool := false
  dma : Option DmaBufFrame := none
  native : Bool := false

/-- Source: `display-stream/src/listener.rs` `CaptureFrame`. -/
structure CaptureFrame where
  cpu : Frame
  dma : Option DmaBufFrame

/-! A callback that fails has changed nothing. -/

namespace CaptureState

/-- Source: `display-stream/src/listener.rs` `CaptureState::scanout`. -/
def scanout (self : CaptureState) (width height stride format : UInt32) (data : List UInt8) :
    Except Failure CaptureState := do
  let frame ← Frame.scanout width height stride format data
  return { self with frame := some frame, refresh := true }

/-- Source: `display-stream/src/listener.rs` `CaptureState::update`. -/
def update (self : CaptureState) (x y width height : Int32) (stride format : UInt32)
    (data : List UInt8) : Except Failure CaptureState :=
  match self.frame with
  | none => .error (.error .outside)
  | some frame => do
    let frame ← frame.update x y width height stride format data
    return { self with frame := some frame, refresh := true }

/-- Source: `display-stream/src/listener.rs` `CaptureState::scanout_dmabuf`. -/
def scanoutDmabuf (self : CaptureState) (memory : Memory) (dmabuf : Nat)
    (width height stride fourcc : UInt32) (modifier : UInt64) (y0Top : Bool) :
    Except Failure CaptureState :=
  if modifier ≠ 0 ∧ modifier ≠ i915FormatModXTiled then .error (.error (.format fourcc))
  else
    match pixmanFromFourcc fourcc with
    | none => .error (.error (.format fourcc))
    | some pixmanFormat => do
      let source : DmaBufFrame :=
        { file := dmabuf, width, height, stride, fourcc, modifier, y0Top, pixmanFormat }
      let frame ← source.read memory
      return { self with frame := some frame, dma := some source, refresh := true }

/-- The rectangle is checked, then the whole buffer is read.
Source: `display-stream/src/listener.rs` `CaptureState::update_dmabuf`. -/
def updateDmabuf (self : CaptureState) (memory : Memory) (x y width height : Int32) :
    Except Failure CaptureState :=
  match self.dma with
  | none => .error (.error .outside)
  | some source =>
    if x < 0 ∨ y < 0 ∨ width < 0 ∨ height < 0 then .error (.error .outside)
    else if source.width.toNat < x.toNatClampNeg + width.toNatClampNeg ∨
        source.height.toNat < y.toNatClampNeg + height.toNatClampNeg then
      .error (.error .outside)
    else if self.native then .ok { self with refresh := true }
    else do
      let frame ← source.read memory
      return { self with frame := some frame, refresh := true }

/-- Source: `display-stream/src/listener.rs` `CaptureState::scanout_dmabuf2`. -/
def scanoutDmabuf2 (self : CaptureState) (memory : Memory) (dmabufs : List Nat)
    (offsets strides : List UInt32) (width height fourcc backingWidth backingHeight : UInt32)
    (modifier : UInt64) (y0Top : Bool) : Except Failure CaptureState :=
  match dmabufs with
  | [dmabuf] =>
    if offsets.head?.getD 0 ≠ 0 then .error (.error (.format fourcc))
    else
      match strides.head? with
      | none => .error (.error .geometry)
      | some stride =>
        self.scanoutDmabuf memory dmabuf (max backingWidth width) (max backingHeight height) stride
          fourcc modifier y0Top
  | _ => .error (.error (.format fourcc))

/-- Source: `display-stream/src/listener.rs` `CaptureState::snapshot`. -/
def snapshot (self : CaptureState) (force : Bool) : Option CaptureFrame × CaptureState :=
  if self.refresh = false ∧ force = false then (none, self)
  else (self.frame.map fun frame => ⟨frame, self.dma⟩, { self with refresh := false })

/-- Source: `display-stream/src/listener.rs` `CaptureState::set_native`. -/
def setNative (self : CaptureState) (native : Bool) : CaptureState :=
  { self with native, refresh := if native then self.refresh else true }

end CaptureState

end MachineEmu.Display
