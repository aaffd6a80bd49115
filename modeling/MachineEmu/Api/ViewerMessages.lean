import MachineEmu.Api.VideoControl
import MachineEmu.Lib.JsonWriter

/-!
# What a viewer sends to a display

A viewer sends the text of a message as one frame. The relay writes it to the helper as a line, and
the helper reads lines byte by byte and puts inputs into the queue that all viewers share. A worker
takes them out.

* `ViewerCall.message` — the messages that a viewer can build.
* `push` — the queue of inputs.
* `readByte` — the helper, with the next byte.
* `VideoSession.step`, `VideoSession.run` — a viewer with its relay, the helper and the worker.
-/

namespace MachineEmu

open Lib JsonText

/-! ## Messages -/

/-- Source: `MAX_CLIPBOARD_BYTES`. -/
def maxClipboardBytes : Nat := 64 * 1024

namespace Message

def requestIdr : Json := .ofFields [("type", .str "request_idr")]

def key (keycode : UInt32) (down : Bool) : Json :=
  let kind := if down then "key_down" else "key_up"
  .ofFields [("type", .str kind), ("keycode", .num keycode.toNat)]

def mouseAbs (x y : UInt32) : Json :=
  .ofFields [("type", .str "mouse_abs"), ("x", .num x.toNat), ("y", .num y.toNat)]

def mouseButton (button : UInt32) (down : Bool) : Json :=
  let kind := if down then "mouse_down" else "mouse_up"
  .ofFields [("type", .str kind), ("button", .num button.toNat)]

/-- Negative steps scroll up, positive steps scroll down. -/
def mouseWheel (steps : Int64) : Json :=
  .ofFields [("type", .str "mouse_wheel"), ("steps", .num (max (-10) (min 10 steps.toInt)))]

/-- `none` outside of what the guest accepts. -/
def resize (width height : UInt32) : Option Json :=
  if (320 ≤ width ∧ width ≤ 7680) ∧ 200 ≤ height ∧ height ≤ 4320 then
    some (.ofFields
      [("type", .str "resize"), ("width", .num width.toNat), ("height", .num height.toNat)])
  else none

def clipboardSet (text : String) : Option Json :=
  if text.toUTF8.toList.length ≤ maxClipboardBytes then
    some (.ofFields [("type", .str "clipboard_set"), ("text", .str text)])
  else none

end Message

/-- A call of one of the functions that build messages. -/
inductive ViewerCall where
  | requestIdr
  | key (keycode : UInt32) (down : Bool)
  | mouseAbs (x y : UInt32)
  | mouseButton (button : UInt32) (down : Bool)
  | mouseWheel (steps : Int64)
  | resize (width height : UInt32)
  | clipboardSet (text : String)

/-- The message that is built, of which the viewer sends the text. -/
def ViewerCall.message : ViewerCall → Option Json
  | .requestIdr => some Message.requestIdr
  | .key keycode down => some (Message.key keycode down)
  | .mouseAbs x y => some (Message.mouseAbs x y)
  | .mouseButton button down => some (Message.mouseButton button down)
  | .mouseWheel steps => some (Message.mouseWheel steps)
  | .resize width height => Message.resize width height
  | .clipboardSet text => Message.clipboardSet text

/-! ## The helper -/

/-- The queue without a motion that the input replaces. Source: `bin/stream.rs` `Inputs::push`. -/
def coalesce (queue : List Json) (value : Json) : List Json :=
  if messageType value = some "mouse_abs" ∧ queue.getLast?.bind messageType = some "mouse_abs" then
    queue.dropLast
  else queue

/-- The queue with one more input, unless it is full. Source: `bin/stream.rs` `Inputs::push`. -/
def push (queue : List Json) (value : Json) : Option (List Json) :=
  if 256 ≤ (coalesce queue value).length then none else some (coalesce queue value ++ [value])

/-- A viewer with its relay and the helper. -/
structure VideoSession where
  /-- Whether the relay goes on with the session. -/
  relayOpen : Bool
  /-- What is written to the helper and not read. -/
  pipe : List UInt8
  /-- Whether the helper goes on with the connection. -/
  helperOpen : Bool
  /-- The beginning of a line that the helper has read. -/
  line : List UInt8
  /-- The inputs of all viewers. -/
  queue : List Json
  /-- The messages that the viewer has sent. -/
  sent : List Json
  /-- The messages that the helper has read. -/
  arrived : List Json

namespace VideoSession

/-- The helper with a queue of inputs from other viewers. -/
def start (queue : List Json) : VideoSession :=
  { relayOpen := true, pipe := [], helperOpen := true, line := [], queue := queue, sent := [],
    arrived := [] }

variable (reader : Reader)

/-- The next byte. Source: `bin/stream.rs` `serve_viewer`. -/
def readByte (s : VideoSession) (byte : UInt8) : VideoSession :=
  if byte ≠ lineFeed then
    if maxLine ≤ s.line.length then { s with helperOpen := false }
    else { s with line := s.line ++ [byte] }
  else
    match reader.fromSlice s.line with
    | none => { s with helperOpen := false }
    | some value =>
      if messageType value = some "request_idr" then
        { s with line := [], arrived := s.arrived ++ [value] }
      else
        match messageType value with
        | some command =>
          if command ∈ controlCommands then
            match push s.queue value with
            | some queue =>
              { s with line := [], queue := queue, arrived := s.arrived ++ [value] }
            | none => { s with helperOpen := false }
          else { s with helperOpen := false }
        | none => { s with helperOpen := false }

/-! ## Runs -/

/-- What happens next. -/
inductive Action where
  /-- The viewer sends a message that it builds. -/
  | send (call : ViewerCall)
  /-- The helper reads a byte. -/
  | read
  /-- Another viewer's input arrives. -/
  | other (value : Json)
  /-- The worker takes an input. -/
  | take

/-- One step. The viewer has control. -/
def step (s : VideoSession) : Action → VideoSession
  | .send call =>
    match call.message with
    | none => s
    | some value =>
      if s.relayOpen then
        match relayText reader true (Json.bytes value) with
        | .error _ => { s with relayOpen := false, sent := s.sent ++ [value] }
        | .ok bytes => { s with pipe := s.pipe ++ bytes, sent := s.sent ++ [value] }
      else s
  | .read =>
    match s.pipe with
    | [] => s
    | byte :: rest => if s.helperOpen then readByte reader { s with pipe := rest } byte else s
  | .other value => { s with queue := (push s.queue value).getD (coalesce s.queue value) }
  | .take => { s with queue := s.queue.drop 1 }

def run (s : VideoSession) (actions : List Action) : VideoSession :=
  actions.foldl (step reader) s

end VideoSession

end MachineEmu
