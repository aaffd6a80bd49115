import MachineEmu.Api.ViewerMessages
import MachineEmu.Viewer.Drawing
import MachineEmu.Viewer.Keymap

/-!
# The window of the viewer

The window turns what happens to it into messages to the display stream. What the platform answers
is part of what happens: whether the cursor can be grabbed, what the host clipboard has, and in
which order a set of keys is iterated.

* `App` — the window, what it holds down in the guest, and the messages so far.
* `App.setGrabbed`, `App.releaseInputs`, `App.toolbarAction` — input is grabbed and released.
* `App.step`, `App.run` — the events.
-/

namespace MachineEmu.Viewer

open Lib

/-- An order in which a set is iterated. -/
structure Order where
  list : List UInt32 → List UInt32
  perm : ∀ keys, (list keys).Perm keys

/-- What the platform answers in a turn. -/
structure Platform where
  /-- Whether the cursor can be confined, and whether it can be locked. -/
  confined : Bool
  locked : Bool
  keyOrder : Order
  buttonOrder : Order

/-- Source: `machineemu-viewer/src/app.rs` `App`. -/
structure App where
  control : Bool
  resizeGuest : Bool
  /-- Whether there is a clipboard of the host. -/
  clipboard : Bool
  /-- Whether messages go out. -/
  outbound : Bool := true
  /-- The size of the window. -/
  window : Option (UInt32 × UInt32) := none
  frame : Option (UInt32 × UInt32) := none
  pointerPosition : Option (UInt32 × UInt32) := none
  source : Option (UInt32 × UInt32) := none
  sizedToGuest : Bool := false
  keys : List UInt32 := []
  buttons : List UInt32 := []
  wheel : ℚ := 0
  /-- Whether a resize of the guest is due. -/
  resizeAt : Bool := false
  scale : ScaleMode := .fit
  screenSize : Fin screenSizes.length := ⟨1, by decide⟩
  grabbed : Bool := false
  controlKey : Bool := false
  altKey : Bool := false
  pointerWindow : Option (ℚ × ℚ) := none
  clipboardAvailable : Bool := false
  lastClipboard : Option String := none
  /-- The messages that were given to the stream. -/
  sent : List ViewerCall := []

namespace App

/-- Source: `App::new`. -/
def new (control resizeGuest clipboard : Bool) : App :=
  { control, resizeGuest, clipboard := clipboard && control }

/-- Source: `App::send`. -/
def send (self : App) (call : ViewerCall) : App :=
  if self.outbound then { self with sent := self.sent ++ [call] } else self

/-- Source: `App::control`. -/
def post (self : App) (call : ViewerCall) : App := if self.control then self.send call else self

/-- Source: `App::release_inputs`. -/
def releaseInputs (self : App) (platform : Platform) : App :=
  let self := (platform.keyOrder.list self.keys).foldl
    (fun self key => self.post (.key key false)) { self with keys := [] }
  (platform.buttonOrder.list self.buttons).foldl
    (fun self button => self.post (.mouseButton button false)) { self with buttons := [] }

/-- Source: `App::set_grabbed`. -/
def setGrabbed (self : App) (platform : Platform) (grabbed : Bool) : App :=
  if self.control = false ∨ self.window.isNone then self
  else if grabbed then
    if platform.confined ∨ platform.locked then { self with grabbed := true } else self
  else { self.releaseInputs platform with grabbed := false }

/-- Source: `ScaleMode::next`. -/
def nextScale : ScaleMode → ScaleMode
  | .fit => .percent 100
  | .percent value =>
    if value = 100 then .percent 125
    else if value = 125 then .percent 150
    else if value = 150 then .percent 200
    else .fit

/-- Source: `App::toolbar_action`, with `true` where the toolbar took the press. -/
def toolbarAction (self : App) (platform : Platform) (x y : ℚ) : App × Bool :=
  if y < 0 ∨ toolbarHeight ≤ y then (self, false)
  else
    let column := toU32 ⌊x⌋
    if 8 ≤ column ∧ column ≤ 159 then
      let next : Fin screenSizes.length :=
        ⟨(self.screenSize.val + 1) % screenSizes.length, Nat.mod_lt _ (by decide)⟩
      let size := screenSizes.get next
      ({ self with screenSize := next }.post (.resize (.ofNat size.1) (.ofNat size.2)), true)
    else if 168 ≤ column ∧ column ≤ 285 then ({ self with scale := nextScale self.scale }, true)
    else if 294 ≤ column ∧ column ≤ 397 then
      ({ self with resizeGuest := !self.resizeGuest, resizeAt := false }, true)
    else if 406 ≤ column ∧ column ≤ 521 then (self.setGrabbed platform !self.grabbed, true)
    else (self, true)

/-- Source: `App::source_size`. -/
def sourceSize (self : App) : Option (UInt32 × UInt32) := self.source.or self.frame

/-- Source: `App::viewport`. -/
def viewport (self : App) : Option Viewport := do
  let source ← self.sourceSize
  let (width, height) ← self.window
  Viewport.scaled (source.1.toNat, source.2.toNat)
    ⟨0, toolbarHeight, width.toNat, height.toNat - toolbarHeight⟩ self.scale

/-- Source: `Viewport::guest_position`. -/
def guestPosition (view : Viewport) (source : UInt32 × UInt32) (x y : ℚ) :
    Option (UInt32 × UInt32) :=
  let localX := binary64 (x - view.x)
  let localY := binary64 (y - view.y)
  if localX < 0 ∨ localY < 0 ∨ view.width ≤ localX ∨ view.height ≤ localY then none
  else
    let gx := toU32 ⌊binary64 (binary64 (localX * source.1.toNat) / view.width)⌋
    let gy := toU32 ⌊binary64 (binary64 (localY * source.2.toNat) / view.height)⌋
    some (.ofNat (min gx (source.1.toNat - 1)), .ofNat (min gy (source.2.toNat - 1)))

/-- Source: `App::push_clipboard`, with the text of the host clipboard. -/
def pushClipboard (self : App) (text : Option String) : App :=
  match text with
  | none => self
  | some text =>
    if self.clipboardAvailable = false ∨ self.clipboard = false ∨ self.lastClipboard = some text
    then self
    else if (Message.clipboardSet text).isSome then
      { self with lastClipboard := some text }.post (.clipboardSet text)
    else self

/-- The buttons of `winit`. -/
inductive MouseButton where
  | left
  | right
  | middle
  | back
  | forward
  | other
  deriving DecidableEq

/-- Source: `mouse_button`. -/
def mouseButton : MouseButton → Option UInt32
  | .left => some 0
  | .middle => some 1
  | .right => some 2
  | .back => some 5
  | .forward => some 6
  | .other => none

inductive ScrollDelta where
  | line (y : ℚ)
  | pixel (y : ℚ)

/-- The steps of a wheel. Source: `window_event`, `PIXELS_PER_WHEEL_STEP`. -/
def ScrollDelta.steps : ScrollDelta → ℚ
  | .line y => y
  | .pixel y => binary64 (y / 50)

/-- A number without its fraction. -/
def truncate (q : ℚ) : ℤ := if 0 ≤ q then ⌊q⌋ else ⌈q⌉

/-- What happens to the window, and what the stream brings. -/
inductive Event where
  | resumed (width height : UInt32)
  | closeRequested
  | resized (width height : UInt32)
  /-- With the text of the host clipboard. -/
  | focused (text : Option String)
  | unfocused
  | modifiersChanged (control alt : Bool)
  | keyboardInput (code : Option KeyCode) (pressed : Bool)
  | cursorMoved (x y : ℚ)
  | mouseInput (pressed : Bool) (button : MouseButton)
  | mouseWheel (delta : ScrollDelta)
  /-- Whether the time of a resize has come. -/
  | aboutToWait (due : Bool)
  | frame (width height : UInt32)
  | config (width height : UInt32)
  /-- Whether the host clipboard took the text. -/
  | clipboard (available : Bool) (text : Option String) (taken : Bool)
  | other

/-- Source: `window_event`, `KeyboardInput`. -/
def keyboardInput (self : App) (platform : Platform) (code : Option KeyCode) (pressed : Bool) :
    App :=
  match code with
  | none => self
  | some code =>
    if code = .keyG ∧ pressed = true ∧ self.controlKey = true ∧ self.altKey = true then
      self.setGrabbed platform false
    else if self.grabbed = false then self
    else
      match qnum code with
      | none => self
      | some key =>
        if pressed then { self with keys := self.keys.insert key }.post (.key key true)
        else if key ∈ self.keys then
          { self with keys := self.keys.erase key }.post (.key key false)
        else self

/-- Source: `window_event`, `CursorMoved`. -/
def cursorMoved (self : App) (x y : ℚ) : App :=
  let position := do
    let view ← self.viewport
    let source ← self.sourceSize
    guestPosition view source x y
  let self := { self with pointerWindow := some (x, y), pointerPosition := position }
  match position with
  | some (gx, gy) => if self.grabbed then self.post (.mouseAbs gx gy) else self
  | none => self

/-- The pointer is put where it was seen last. Source: `window_event`, `MouseInput`. -/
def placePointer (self : App) : App :=
  match self.pointerPosition with
  | some (x, y) => self.post (.mouseAbs x y)
  | none => self

/-- A button of a window that has the input. Source: `window_event`, `MouseInput`. -/
def forwardButton (self : App) (pressed : Bool) (button : MouseButton) : App :=
  if self.grabbed = false then self
  else
    match mouseButton button with
    | none => self
    | some button =>
      if pressed then
        let self := self.placePointer
        { self with buttons := self.buttons.insert button }.post (.mouseButton button true)
      else if button ∈ self.buttons then
        { self with buttons := self.buttons.erase button }.post (.mouseButton button false)
      else self

/-- A button that the toolbar did not take. Source: `window_event`, `MouseInput`. -/
def pressButton (self : App) (platform : Platform) (pressed : Bool) (button : MouseButton) : App :=
  if pressed ∧ self.grabbed = false then
    (self.setGrabbed platform true).forwardButton pressed button
  else self.forwardButton pressed button

/-- Source: `window_event`, `MouseInput`. -/
def mouseInput (self : App) (platform : Platform) (pressed : Bool) (button : MouseButton) : App :=
  match self.pointerWindow with
  | some (x, y) =>
    if pressed ∧ button = .left then
      let (self, taken) := self.toolbarAction platform x y
      if taken then self else self.pressButton platform pressed button
    else self.pressButton platform pressed button
  | none => self.pressButton platform pressed button

/-- Source: `window_event`, `MouseWheel`. -/
def mouseWheel (self : App) (delta : ScrollDelta) : App :=
  if self.grabbed = false then self
  else
    let wheel := binary64 (self.wheel + delta.steps)
    let steps := truncate wheel
    if steps ≠ 0 then
      { self with wheel := binary64 (wheel - steps) }.post
        (.mouseWheel (.ofInt (-toI64 steps)))
    else { self with wheel }

/-- Source: `about_to_wait`. -/
def aboutToWait (self : App) (due : Bool) : App :=
  if self.resizeAt = false ∨ due = false then self
  else
    let self := { self with resizeAt := false }
    match self.window, self.source with
    | some (width, height), some source =>
      let guest := (width, .ofNat (height.toNat - toolbarHeight))
      if guest = source then self
      else if (Message.resize guest.1 guest.2).isSome then self.post (.resize guest.1 guest.2)
      else self
    | _, _ => self

/-- Source: `window_event`, `user_event`, `resumed` and `about_to_wait`. -/
def step (self : App) (platform : Platform) : Event → App
  | .resumed width height =>
    if self.window.isSome then self else { self with window := some (width, height) }
  | .closeRequested =>
    { (self.setGrabbed platform false).releaseInputs platform with outbound := false }
  | .resized width height =>
    { self with
      window := self.window.map fun _ => (width, height)
      resizeAt := self.resizeAt || (self.control && self.resizeGuest && self.sizedToGuest) }
  | .focused text => self.pushClipboard text
  | .unfocused => self.setGrabbed platform false
  | .modifiersChanged control alt => { self with controlKey := control, altKey := alt }
  | .keyboardInput code pressed => self.keyboardInput platform code pressed
  | .cursorMoved x y => self.cursorMoved x y
  | .mouseInput pressed button => self.mouseInput platform pressed button
  | .mouseWheel delta => self.mouseWheel delta
  | .aboutToWait due => self.aboutToWait due
  | .frame width height => { self with frame := some (width, height) }
  | .config width height =>
    { self with
      source := some (width, height), sizedToGuest := self.sizedToGuest || self.window.isSome }
  | .clipboard available text taken =>
    { self with
      clipboardAvailable := available
      lastClipboard := if self.clipboard && taken && text.isSome then text else self.lastClipboard }
  | .other => self

def run (self : App) (events : List (Platform × Event)) : App :=
  events.foldl (fun self event => self.step event.1 event.2) self

end App

end MachineEmu.Viewer
