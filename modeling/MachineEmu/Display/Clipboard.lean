/-!
# The clipboard of the display

The display helper and QEMU take the clipboard from each other. Each grab carries a serial, and the
newer one wins.

* `ClipboardData` — the serial and the text of the host.
* `acceptGuestSerial`, `setHostText` — a grab of the guest, and one of the host.
* `ClipboardOp`, `ClipboardSession.step` — what happens in a session, with the serials that it has seen.
-/

namespace MachineEmu.Display

/-- Source: `display-stream-protocol/src/lib.rs` `MAX_CLIPBOARD_BYTES`. -/
def maxClipboardBytes : Nat := 64 * 1024

/-- Source: `display-stream/src/listener.rs` `CLIPBOARD_MIME`. -/
def clipboardMime : String := "text/plain;charset=utf-8"

/-- Source: `display-stream/src/listener.rs` `ClipboardEvent`. -/
inductive ClipboardEvent where
  | grab (selection serial : UInt32) (mimes : List String)
  | release (selection : UInt32)

/-- Source: `display-stream/src/listener.rs` `ClipboardData`. -/
structure ClipboardData where
  serial : UInt32 := 0
  hostText : Option (List UInt8) := none

namespace ClipboardData

/-- Source: `display-stream/src/listener.rs` `ClipboardState::accept_guest_serial`. -/
def acceptGuestSerial (self : ClipboardData) (serial : UInt32) : Bool × ClipboardData :=
  if serial ≤ self.serial then (false, self) else (true, { serial, hostText := none })

/-- `wrapping_add(1).max(1)`. Source: `display-stream/src/listener.rs`
`ClipboardState::set_host_text`. -/
def setHostText (self : ClipboardData) (text : List UInt8) : UInt32 × ClipboardData :=
  let serial := max (self.serial + 1) 1
  (serial, { serial, hostText := some text })

/-- Source: `display-stream/src/listener.rs` `ClipboardPeer::grab`. -/
def grab (self : ClipboardData) (selection serial : UInt32) (mimes : List String) :
    Except String (Option ClipboardEvent) × ClipboardData :=
  if 2 < selection then (.error "invalid clipboard selection", self)
  else
    match self.acceptGuestSerial serial with
    | (true, data) => (.ok (some (.grab selection serial mimes)), data)
    | (false, data) => (.ok none, data)

/-- Source: `display-stream/src/listener.rs` `ClipboardPeer::release`. -/
def release (self : ClipboardData) (selection : UInt32) :
    Except String (Option ClipboardEvent) × ClipboardData :=
  if 2 < selection then (.error "invalid clipboard selection", self)
  else (.ok (some (.release selection)), self)

/-- The serial of the grab that tells QEMU. Source: `display-stream/src/listener.rs`
`set_clipboard`. -/
def setClipboard (self : ClipboardData) (text : List UInt8) :
    Except String UInt32 × ClipboardData :=
  if maxClipboardBytes < text.length then (.error "clipboard text exceeds 64 KiB", self)
  else
    match self.setHostText text with
    | (serial, data) => (.ok serial, data)

end ClipboardData

/-- What happens to the clipboard. -/
inductive ClipboardOp where
  | set (text : List UInt8)
  | grab (selection serial : UInt32) (mimes : List String)
  | release (selection : UInt32)
  | register
  | unregister

/-- A session: the clipboard, and the serials of the grabs since it began. A grab that is refused for
its arguments is none. -/
structure ClipboardSession where
  data : ClipboardData := {}
  seen : List UInt32 := []

namespace ClipboardSession

def step (s : ClipboardSession) : ClipboardOp → ClipboardSession
  | .set text =>
    match s.data.setClipboard text with
    | (.ok serial, data) => { data, seen := serial :: s.seen }
    | (.error _, data) => { s with data }
  | .grab selection serial mimes =>
    match s.data.grab selection serial mimes with
    | (.ok _, data) => { data, seen := serial :: s.seen }
    | (.error _, data) => { s with data }
  | .release selection => { s with data := (s.data.release selection).2 }
  | .register => {}
  | .unregister => {}

def run (s : ClipboardSession) (ops : List ClipboardOp) : ClipboardSession := ops.foldl step s

theorem run_append (s : ClipboardSession) (front back : List ClipboardOp) :
    s.run (front ++ back) = (s.run front).run back := List.foldl_append

end ClipboardSession

end MachineEmu.Display
