import MachineEmu.Lib.JsonText

/-!
# What a browser sends to a video display

The relay of a video ticket checks the command of each text that the browser sends and passes the
text on as it is, with a line feed. The helper reads lines.

* `relayText`, `relayVideo` — one text, and the frames of a session.
* `serveViewer` — what the helper makes of the bytes.
-/

namespace MachineEmu

open Lib JsonText

/-- A frame from the browser; a text is in UTF-8. -/
inductive WsFrame where
  | text (text : List UInt8)
  | binary (bytes : List UInt8)
  | ping
  | pong
  | close

/-- The type of a message, when it is a text. -/
def messageType (value : Json) : Option String := (value.field "type").bind Json.asStr

/-- The commands that need control. -/
def controlCommands : List String :=
  ["key_down", "key_up", "mouse_move", "mouse_abs", "mouse_down", "mouse_up", "mouse_wheel",
    "resize", "clipboard_set", "clipboard_request"]

def lineFeed : UInt8 := 10

section Relay

variable (reader : Reader)

/-- What is written to the helper for a text. Source: `api/streams.rs` `relay`. -/
def relayText (control : Bool) (text : List UInt8) : Except String (List UInt8) :=
  if 64 * 1024 < text.length then .error "invalid stream message"
  else
    match reader.fromSlice text with
    | none => .error "invalid JSON"
    | some value =>
      let command := (messageType value).getD ""
      if command = "request_idr" ∨ control ∧ command ∈ controlCommands then
        .ok (text ++ [lineFeed])
      else .error "video control is not allowed"

/-- What is written for the frames of a session, up to one that ends it.
Source: `api/streams.rs` `relay`. -/
def relayVideo (control : Bool) : List WsFrame → List UInt8
  | [] => []
  | .text text :: frames =>
    match relayText reader control text with
    | .error _ => []
    | .ok bytes => bytes ++ relayVideo control frames
  | .ping :: frames | .pong :: frames => relayVideo control frames
  | .binary _ :: _ | .close :: _ => []

/-! ## The helper -/

/-- What the helper is asked for: a key frame, or input for the guest. -/
inductive ViewerMessage where
  | requestIdr
  | input (value : Json)

/-- The longest line. Source: `bin/stream.rs` `serve_viewer`. -/
def maxLine : Nat := 64 * 1024 * 6 + 1024

/-- The messages of a viewer's bytes after the beginning of a line, up to one that ends the
connection. Source: `bin/stream.rs` `serve_viewer`. -/
def serveViewer : List UInt8 → List UInt8 → List ViewerMessage
  | _, [] => []
  | line, byte :: rest =>
    if byte ≠ lineFeed then
      if maxLine ≤ line.length then [] else serveViewer (line ++ [byte]) rest
    else
      match reader.fromSlice line with
      | none => []
      | some value =>
        if messageType value = some "request_idr" then .requestIdr :: serveViewer [] rest
        else
          match messageType value with
          | some command =>
            -- a full queue of inputs ends the connection as well
            if command ∈ controlCommands then .input value :: serveViewer [] rest else []
          | none => []

end Relay

end MachineEmu
