import MachineEmu.Display.Protocol
import MachineEmu.Lib.Broadcast

/-!
# The hub of a display stream

The encoder publishes packets through the hub; each viewer has a task of its own that subscribes,
writes what the hub has kept and then what is published.

* `Hub` — the group of packets since the last key packet, and the latest records.
* `Viewer` — the task of a viewer.
* `Stream`, `Stream.step` — the hub with its viewers.
-/

namespace MachineEmu.Display

open Lib

/-- What a packet was published as. -/
inductive Role where
  | key
  | delta
  | audio
  | audioConfig
  | clipboard
  | cursor
  deriving DecidableEq

/-- A packet. The hub and the viewers only look at its bytes. -/
structure Packet where
  bytes : List UInt8
  role : Role

/-- The type of the first record of a packet. -/
def Role.kind : Role → RecordType
  | key => .config
  | delta => .delta
  | audio => .audioData
  | audioConfig => .audioConfig
  | clipboard => .control
  | cursor => .control

/-- A packet starts with the type of its first record. -/
def Packet.Headed (packet : Packet) : Prop :=
  packet.bytes.head? = some packet.role.kind.toByte

instance (packet : Packet) : Decidable packet.Headed :=
  inferInstanceAs (Decidable (_ = _))

def maxGopBytes : Nat := 32 * 1024 * 1024

def maxViewerQueue : Nat := 64

/-! ## The hub -/

/-- Source: `display-stream/src/bin/stream.rs` `Hub`. The log is what the sender has sent. -/
structure Hub where
  log : List Packet := []
  bootstrap : List Packet := []
  audioConfig : Option Packet := none
  clipboard : Option Packet := none
  cursor : Option Packet := none
  bytes : Nat := 0

namespace Hub

def reset (self : Hub) : Hub := { self with bootstrap := [], bytes := 0 }

def send (self : Hub) (packet : Packet) : Hub := { self with log := self.log ++ [packet] }

/-- Source: `display-stream/src/bin/stream.rs` `Hub::publish`. -/
def publish (self : Hub) (packet : Packet) (key : Bool) : Hub :=
  let self := if key then self.reset else self
  let self :=
    if key = true ∨ self.bootstrap ≠ [] then
      let bytes := self.bytes + packet.bytes.length
      if maxGopBytes < bytes then { self with bytes }.reset
      else { self with bytes, bootstrap := self.bootstrap ++ [packet] }
    else self
  self.send packet

/-- The packets that a viewer starts with, and its position.
Source: `display-stream/src/bin/stream.rs` `Hub::subscribe`. -/
def subscribe (self : Hub) : List Packet × Nat :=
  (self.bootstrap ++ self.audioConfig.toList ++ self.clipboard.toList ++ self.cursor.toList,
    self.log.length)

def publishAudioConfig (self : Hub) (packet : Packet) : Hub :=
  { self with audioConfig := some packet }.send packet

def publishAudio (self : Hub) (packet : Packet) : Hub := self.send packet

def publishClipboard (self : Hub) (packet : Packet) : Hub :=
  { self with clipboard := some packet }.send packet

def publishCursor (self : Hub) (packet : Packet) : Hub :=
  { self with cursor := some packet }.send packet

end Hub

/-! ## Viewers -/

/-- The task of a viewer: whether it has a key packet to go on from, its position, the packets that it
is about to write, and those that it has written. -/
structure Viewer where
  ready : Bool
  next : Nat
  outbox : List Packet
  sent : List Packet

namespace Viewer

/-- The first record is of this type. -/
def starts (packet : Packet) (kind : RecordType) : Bool :=
  packet.bytes.head? == some kind.toByte

/-- Subscribe, also again: the position moves behind what the hub has kept. -/
def subscribe (hub : Hub) (sent : List Packet) : Viewer where
  ready := hub.subscribe.1.any fun packet => starts packet .config
  next := hub.subscribe.2
  outbox := hub.subscribe.1
  sent

/-- Source: `display-stream/src/bin/stream.rs` `serve_viewer`, the arm of `receiver.recv`. -/
def receive (self : Viewer) (hub : Hub) : Option Viewer :=
  match Broadcast.recv maxViewerQueue hub.log self.next with
  | .empty => none
  | .lagged => some (subscribe hub self.sent)
  | .value packet =>
    let ready := self.ready || starts packet .config || starts packet .resize
    let independent := starts packet .control || starts packet .audioConfig ||
      starts packet .audioData
    some { self with
      ready
      next := self.next + 1
      outbox := if ready || independent then [packet] else [] }

/-- Write the next packet. -/
def write (self : Viewer) : Option Viewer :=
  match self.outbox with
  | [] => none
  | packet :: outbox => some { self with outbox, sent := self.sent ++ [packet] }

end Viewer

/-! ## The stream -/

/-- What the encoder, the listeners and the viewers do. -/
inductive Stream.Op where
  | publish (packet : Packet) (key : Bool)
  | reset
  | publishAudio (packet : Packet)
  | publishAudioConfig (packet : Packet)
  | publishClipboard (packet : Packet)
  | publishCursor (packet : Packet)
  | connect (viewer : Nat)
  | write (viewer : Nat)
  | receive (viewer : Nat)
  | requestIdr (viewer : Nat)
  | disconnect (viewer : Nat)

/-- The hub and its viewers. After a reset the encoder starts with a key packet. -/
structure Stream where
  hub : Hub := {}
  restarted : Bool := false
  viewers : Nat → Option Viewer := fun _ => none

namespace Stream

/-- Publish a packet that was made for this. -/
def emit (w : Stream) (packet : Packet) (role : Role) (hub : Hub) : Option Stream :=
  if packet.role = role ∧ packet.Headed then some { w with hub } else none

/-- A viewer goes on. -/
def withViewer (w : Stream) (viewer : Nat) (f : Viewer → Option Viewer) : Option Stream := do
  let v ← w.viewers viewer
  let next ← f v
  return { w with viewers := Function.update w.viewers viewer (some next) }

/-- One step. A viewer looks at its channel and at its requests when it has written what it has. -/
def step (w : Stream) : Op → Option Stream
  | .publish packet key =>
    if w.restarted = true ∧ key = false then none
    else
      ({ w with restarted := false } : Stream).emit packet (if key then .key else .delta)
        (w.hub.publish packet key)
  | .reset => some { w with hub := w.hub.reset, restarted := true }
  | .publishAudio packet => w.emit packet .audio (w.hub.publishAudio packet)
  | .publishAudioConfig packet => w.emit packet .audioConfig (w.hub.publishAudioConfig packet)
  | .publishClipboard packet => w.emit packet .clipboard (w.hub.publishClipboard packet)
  | .publishCursor packet => w.emit packet .cursor (w.hub.publishCursor packet)
  | .connect viewer =>
    match w.viewers viewer with
    | some _ => none
    | none =>
      some { w with viewers := Function.update w.viewers viewer (some (.subscribe w.hub [])) }
  | .write viewer => w.withViewer viewer Viewer.write
  | .receive viewer => w.withViewer viewer fun v =>
      if v.outbox = [] then v.receive w.hub else none
  | .requestIdr viewer => w.withViewer viewer fun v =>
      if v.outbox = [] then some (.subscribe w.hub v.sent) else none
  | .disconnect viewer => some { w with viewers := Function.update w.viewers viewer none }

def steps (w : Stream) : List Op → Option Stream
  | [] => some w
  | op :: ops => (w.step op).bind fun next => next.steps ops

/-- The streams that are reached from the start. -/
inductive Reachable : Stream → Prop where
  | start : Reachable {}
  | step {w w' : Stream} {op : Op} (h : Reachable w) (hstep : w.step op = some w') : Reachable w'

end Stream

end MachineEmu.Display
