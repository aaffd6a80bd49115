import MachineEmu.Lib.Bytes

/-!
# The gates of a SPICE audio channel

What the relay of an audio channel lets through: the gates buffer the bytes of each direction, check
every link, authentication and channel message, and pass on what is complete.

* `ClientGate.feed` — from the browser to QEMU; returns what is forwarded.
* `ServerGate.feed`, `ServerGate.forward` — from QEMU to the browser.
* `feedAll` — the chunks of a stream, in either direction.
-/

namespace MachineEmu

open Lib

namespace Spice

/-- The channels that the browser may use. -/
inductive Channel where
  | main
  | playback
  | record
  deriving DecidableEq

def linkHeader : Nat := 16
def linkMess : Nat := 18
def linkReply : Nat := 178
def miniHeader : Nat := 6
def maxLink : Nat := 4096
def maxClient : Nat := 64 * 1024
def maxServer : Nat := 512 * 1024

/-- The text `REDQ`. -/
def magic : List UInt8 := [82, 69, 68, 81]

def u16le (bytes : List UInt8) (offset : Nat) : Nat := leNat (slice bytes offset 2)

def u32le (bytes : List UInt8) (offset : Nat) : Nat := leNat (slice bytes offset 4)

/-- Whether a capability is set. Source: `api/spice_audio.rs` `cap`. -/
def cap (words : List UInt8) (bit : Nat) : Bool :=
  let offset := bit / 32 * 4
  decide (offset + 4 ≤ words.length) && (u32le words offset).testBit (bit % 32)

/-- The common capabilities of a link message. Source: `api/spice_audio.rs` `capabilities`. -/
def capabilities (body : List UInt8) (offset common channel : Nat) :
    Except String (List UInt8) :=
  if maxLink / 4 < common + channel ∨ offset < linkMess then
    .error "invalid SPICE capabilities"
  else if body.length < offset + common * 4 + channel * 4 then
    .error "SPICE capabilities exceed the link message"
  else .ok (slice body offset (common * 4))

/-- The chunks of a stream, up to one that is refused: what is forwarded, and the gate unless a
chunk was refused. -/
def feedAll {γ : Type} (feed : γ → List UInt8 → Except String (List UInt8 × γ)) :
    γ → List (List UInt8) → List UInt8 × Option γ
  | gate, [] => ([], some gate)
  | gate, chunk :: chunks =>
    match feed gate chunk with
    | .error _ => ([], none)
    | .ok (output, next) =>
      (output ++ (feedAll feed next chunks).1, (feedAll feed next chunks).2)

/-! ## From the browser -/

inductive Phase where
  | header
  | link
  | auth
  | ticket
  | messages
  deriving DecidableEq

/-- What a gate has read so far. -/
structure ClientState where
  channel : Channel
  connectionId : UInt32
  phase : Phase := .header
  linkSize : Nat := 0

/-- Source: `api/spice_audio.rs` `ClientGate`. -/
structure ClientGate extends ClientState where
  buffer : List UInt8 := []

namespace ClientState

/-- The number of the channel in a link message. -/
def expected : Channel → UInt8
  | .main => 1
  | .playback => 5
  | .record => 6

/-- The messages that a client may send on a channel. -/
def allowed (channel : Channel) (kind : Nat) : Bool :=
  kind == 1 || kind == 2 || kind == 3 || kind == 6 ||
    match channel with
    | .main => kind == 101 || kind == 104
    | .record => 101 ≤ kind && kind ≤ 103
    | .playback => false

/-- The check of a link message. -/
def checkLink (self : ClientState) (body : List UInt8) : Except String Unit :=
  if u32le body 0 ≠ self.connectionId.toNat ∨ body.getD 4 0 ≠ expected self.channel ∨
      body.getD 5 0 ≠ 0 then
    .error "SPICE audio channel or connection ID does not match"
  else
    match capabilities body (u32le body 14) (u32le body 6) (u32le body 10) with
    | .error e => .error e
    | .ok common =>
      if cap common 1 = false ∨ cap common 3 = false ∨ cap common 2 = true then
        .error "SPICE audio requires ticket auth and mini headers"
      else .ok ()

/-- One turn of the loop: the length of what is complete at the front of the buffer, if anything is,
and the state after it. -/
def turn (self : ClientState) (buffer : List UInt8) : Except String (Option (Nat × ClientState)) :=
  match self.phase with
  | .header =>
    if buffer.length < linkHeader then .ok none
    else if slice buffer 0 4 ≠ magic ∨ u32le buffer 4 ≠ 2 then .error "invalid SPICE link header"
    else
      let linkSize := u32le buffer 12
      if linkSize < linkMess ∨ maxLink < linkSize then .error "invalid SPICE link size"
      else .ok (some (linkHeader, { self with linkSize, phase := .link }))
  | .link =>
    if buffer.length < self.linkSize then .ok none
    else
      match self.checkLink (slice buffer 0 self.linkSize) with
      | .error e => .error e
      | .ok _ => .ok (some (self.linkSize, { self with phase := .auth }))
  | .auth =>
    if buffer.length < 4 then .ok none
    else if u32le buffer 0 ≠ 1 then .error "SPICE SASL authentication is not allowed"
    else .ok (some (4, { self with phase := .ticket }))
  | .ticket =>
    if buffer.length < 128 then .ok none
    else .ok (some (128, { self with phase := .messages }))
  | .messages =>
    if buffer.length < miniHeader then .ok none
    else
      let kind := u16le buffer 0
      let size := u32le buffer 2
      if allowed self.channel kind = false ∨ maxClient < size then
        .error "SPICE message is not allowed on this audio channel"
      else if buffer.length < miniHeader + size then .ok none
      else .ok (some (miniHeader + size, self))

end ClientState

namespace ClientGate

/-- Source: `api/spice_audio.rs` `ClientGate::new`. -/
def new (channel : Channel) (connectionId : UInt32) : ClientGate := { channel, connectionId }

/-- The loop. It ends before the fuel does when there is more fuel than bytes in the buffer. -/
def loop : Nat → ClientGate → List UInt8 → Except String (List UInt8 × ClientGate)
  | 0, self, output => .ok (output, self)
  | fuel + 1, self, output =>
    match self.turn self.buffer with
    | .error e => .error e
    | .ok none => .ok (output, self)
    | .ok (some (length, next)) =>
      loop fuel ⟨next, self.buffer.drop length⟩ (output ++ self.buffer.take length)

/-- Take a chunk and return what is forwarded. Source: `api/spice_audio.rs` `ClientGate::feed`. -/
def feed (self : ClientGate) (input : List UInt8) : Except String (List UInt8 × ClientGate) :=
  let self := { self with buffer := self.buffer ++ input }
  if maxLink + maxClient + miniHeader < self.buffer.length then
    .error "SPICE client buffer is too large"
  else self.loop (self.buffer.length + 1) []

end ClientGate

/-! ## From QEMU -/

inductive ServerPhase where
  | header
  | reply
  | result
  | messages
  | done

/-- What a gate has read so far. -/
structure ServerState where
  channel : Channel
  phase : ServerPhase := .header
  replySize : Nat := 0
  connectionId : Option UInt32 := none

/-- Source: `api/spice_audio.rs` `ServerGate`. -/
structure ServerGate extends ServerState where
  buffer : List UInt8 := []

namespace ServerState

/-- What a turn of the loop does: it waits for more, it drops the buffer for good, or it takes the
front of the buffer. -/
inductive Turn where
  | wait
  | clear
  | take (length : Nat) (next : ServerState)

/-- The check of a link reply: the phase after it. -/
def checkReply (body : List UInt8) : Except String ServerPhase :=
  if u32le body 0 ≠ 0 then .ok .done
  else
    match capabilities body (u32le body 174) (u32le body 166) (u32le body 170) with
    | .error e => .error e
    | .ok common =>
      if cap common 3 = false then .error "SPICE server declined mini headers" else .ok .result

/-- One turn of the loop. -/
def turn (self : ServerState) (buffer : List UInt8) : Except String Turn :=
  match self.phase with
  | .header =>
    if buffer.length < linkHeader then .ok .wait
    else if slice buffer 0 4 ≠ magic ∨ u32le buffer 4 ≠ 2 then .error "invalid SPICE server header"
    else
      let replySize := u32le buffer 12
      if replySize < linkReply ∨ maxLink < replySize then .error "invalid SPICE reply size"
      else .ok (.take linkHeader { self with replySize, phase := .reply })
  | .reply =>
    if buffer.length < self.replySize then .ok .wait
    else
      match checkReply (slice buffer 0 self.replySize) with
      | .error e => .error e
      | .ok phase => .ok (.take self.replySize { self with phase })
  | .result =>
    if buffer.length < 4 then .ok .wait
    else .ok (.take 4 { self with phase := if u32le buffer 0 = 0 then .messages else .done })
  | .messages =>
    if buffer.length < miniHeader then .ok .wait
    else
      let kind := u16le buffer 0
      let size := u32le buffer 2
      if maxServer < size then .error "SPICE server message is too large"
      else if buffer.length < miniHeader + size then .ok .wait
      else if self.channel = .main ∧ kind = 103 ∧ self.connectionId = none then
        if size < 32 then .error "SPICE main init is too short"
        else .ok (.take (miniHeader + size)
          { self with connectionId := some (UInt32.ofNat (u32le buffer miniHeader)) })
      else .ok (.take (miniHeader + size) self)
  | .done => .ok .clear

end ServerState

namespace ServerGate

/-- Source: `api/spice_audio.rs` `ServerGate::new`. -/
def new (channel : Channel) : ServerGate := { channel }

/-- The loop. It ends before the fuel does when there is more fuel than bytes in the buffer. -/
def loop : Nat → ServerGate → Except String ServerGate
  | 0, self => .ok self
  | fuel + 1, self =>
    match self.turn self.buffer with
    | .error e => .error e
    | .ok .wait => .ok self
    | .ok .clear => .ok { self with buffer := [] }
    | .ok (.take length next) => loop fuel ⟨next, self.buffer.drop length⟩

/-- Take a chunk. Source: `api/spice_audio.rs` `ServerGate::feed`. -/
def feed (self : ServerGate) (input : List UInt8) : Except String (Option UInt32 × ServerGate) :=
  let self := { self with buffer := self.buffer ++ input }
  if maxLink + maxServer + miniHeader < self.buffer.length then
    .error "SPICE server buffer is too large"
  else (self.loop (self.buffer.length + 1)).map fun self => (self.connectionId, self)

/-- The gate only looks on: the relay forwards each chunk that it has accepted.
Source: `api/spice_audio.rs` `relay`. -/
def forward (self : ServerGate) (input : List UInt8) : Except String (List UInt8 × ServerGate) :=
  (self.feed input).map fun r => (input, r.2)

end ServerGate

end Spice

end MachineEmu
