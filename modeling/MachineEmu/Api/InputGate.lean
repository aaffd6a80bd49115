import MachineEmu.Lib.Bytes

/-!
# The gate of a VNC console

A viewer that may only look on is connected through a gate. It passes the handshake on as it
arrives, cuts what follows into client messages, and drops those that carry input.

* `RfbInputGate.messageSize` — the length of the message at the front of a buffer.
* `RfbInputGate.feed` — one chunk from the browser; returns what is forwarded.
-/

namespace MachineEmu

open Lib

/-- Source: `api/streams.rs` `MAX_MESSAGE`. -/
def maxMessage : Nat := 1048576

/-- How far the handshake is: the bytes that its parts still need. -/
structure RfbState where
  handshake : List Nat := [12, 1, 1]
  securitySelected : Bool := false

/-- Source: `api/streams.rs` `RfbInputGate`. -/
structure RfbInputGate extends RfbState where
  buffer : List UInt8 := []

namespace RfbState

/-- The first part of the handshake is complete with this last byte; the one after the version is
the security type. -/
def complete (self : RfbState) (last : UInt8) (later : List Nat) : Except String RfbState :=
  if later.length = 1 ∧ self.securitySelected = false then
    if last = 1 then .ok { handshake := later, securitySelected := true }
    else if last = 2 then .ok { handshake := 16 :: later, securitySelected := true }
    else .error "unsupported view-only RFB security type"
  else .ok { self with handshake := later }

/-- The loop over the handshake: what is forwarded, what is left of the chunk, and the state. It
ends before the fuel does when there is more fuel than bytes. -/
def shake : Nat → RfbState → List UInt8 → List UInt8 →
    Except String (List UInt8 × List UInt8 × RfbState)
  | 0, self, data, output => .ok (output, data, self)
  | fuel + 1, self, data, output =>
    match self.handshake, data with
    | [], _ => .ok (output, data, self)
    | _ :: _, [] => .ok (output, data, self)
    | needed :: later, first :: _ =>
      let taken := min needed data.length
      let rest := data.drop taken
      let output := output ++ data.take taken
      if needed - taken = 0 then
        match self.complete ((data.take taken).getLastD first) later with
        | .error e => .error e
        | .ok next => shake fuel next rest output
      else shake fuel { self with handshake := (needed - taken) :: later } rest output

end RfbState

namespace RfbInputGate

/-- The magnitude of a signed number of 32 bits. -/
def unsignedAbs (n : Nat) : Nat := if n < 2 ^ 31 then n else 2 ^ 32 - n

/-- The length of a message of the kind at the front, before it is compared with the limit. -/
def kindSize (data : List UInt8) : Except String (Option Nat) :=
  match (data.getD 0 0).toNat with
  | 0 => .ok (some 20)
  | 2 => .ok (if data.length < 4 then none else some (4 + 4 * beNat (slice data 2 2)))
  | 3 | 150 => .ok (some 10)
  | 4 => .ok (some 8)
  | 5 =>
    .ok (if data.length < 2 then none else some (if (data.getD 1 0).toNat < 128 then 6 else 7))
  | 6 => .ok (if data.length < 8 then none else some (8 + unsignedAbs (beNat (slice data 4 4))))
  | 248 => .ok (if data.length < 9 then none else some (9 + (data.getD 8 0).toNat))
  | 251 => .ok (if data.length < 8 then none else some (8 + 16 * (data.getD 6 0).toNat))
  | 255 => .ok (some 12)
  | _ => .error "unsupported RFB message"

/-- Source: `api/streams.rs` `RfbInputGate::message_size`. -/
def messageSize (data : List UInt8) : Except String (Option Nat) :=
  match kindSize data with
  | .error e => .error e
  | .ok none => .ok none
  | .ok (some size) =>
    if maxMessage < size then .error "RFB message too large" else .ok (some size)

/-- The messages that carry input: keys, pointer, clipboard, desktop size and extended keys. -/
def isInput (kind : UInt8) : Bool :=
  kind == 4 || kind == 5 || kind == 6 || kind == 251 || kind == 255

/-- What is forwarded of a message. -/
def passed (allowInput : Bool) (message : List UInt8) : List UInt8 :=
  if allowInput || !isInput (message.getD 0 0) then message else []

/-- The loop over the messages: what is forwarded and what is left of the buffer. It ends before
the fuel does when there is more fuel than bytes. -/
def loop (allowInput : Bool) : Nat → List UInt8 → List UInt8 →
    Except String (List UInt8 × List UInt8)
  | 0, buffer, output => .ok (output, buffer)
  | fuel + 1, buffer, output =>
    if buffer = [] then .ok (output, buffer)
    else
      match messageSize buffer with
      | .error e => .error e
      | .ok none => .ok (output, buffer)
      | .ok (some size) =>
        if buffer.length < size then .ok (output, buffer)
        else loop allowInput fuel (buffer.drop size)
          (output ++ passed allowInput (buffer.take size))

/-- Take a chunk and return what is forwarded. Source: `api/streams.rs` `RfbInputGate::feed`. -/
def feed (allowInput : Bool) (self : RfbInputGate) (data : List UInt8) :
    Except String (List UInt8 × RfbInputGate) :=
  match self.toRfbState.shake (data.length + 1) data [] with
  | .error e => .error e
  | .ok (output, rest, state) =>
    let buffer := self.buffer ++ rest
    if state.handshake ≠ [] then .ok (output, ⟨state, buffer⟩)
    else
      match loop allowInput (buffer.length + 1) buffer output with
      | .error e => .error e
      | .ok (output, buffer) =>
        if maxMessage < buffer.length then .error "RFB message too large"
        else .ok (output, ⟨state, buffer⟩)

end RfbInputGate

end MachineEmu
