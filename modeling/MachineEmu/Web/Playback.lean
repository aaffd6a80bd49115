import MachineEmu.Web.Channel

/-!
# The speakers of the web client

The guest announces a stream, and the client builds a node for it once the worklets are loaded.
Messages are handled as they arrive, so that others may come while a start waits.

* `SpicePlayback.handle`, `SpicePlayback.setMuted`, `SpicePlayback.teardown` — what is called.
* `SpicePlayback.loaded` — how a start goes on after its wait.
* `SpicePlayback.step`, `SpicePlayback.run` — all of it, in any order.

What is posted to the worklet is left out.
-/

namespace MachineEmu.Web

open Lib Spice

/-- Source: `web/src/spice-audio/protocol.ts` `AUDIO_MODE`. -/
inductive AudioMode where
  | raw
  | celt
  | opus
  deriving DecidableEq

/-- Source: `web/src/spice-audio/codec.ts` `PlaybackStart`. -/
structure PlaybackStart where
  channels : Nat
  format : Nat
  frequency : Nat
  time : Nat

/-- The channels and the rate are the same. -/
def PlaybackStart.SameStream (a b : PlaybackStart) : Prop :=
  a.channels = b.channels ∧ a.frequency = b.frequency

instance (a b : PlaybackStart) : Decidable (a.SameStream b) := inferInstanceAs (Decidable (_ ∧ _))

/-- Source: `codec.ts` `parsePlaybackStart`. -/
def parsePlaybackStart (payload : List UInt8) : Except String PlaybackStart :=
  if payload.length < 14 then .error "MSG_PLAYBACK_START is too short"
  else if u16le payload 4 ≠ 1 then .error "unsupported SPICE sample format"
  else .ok { channels := u32le payload 0, format := u16le payload 4
             frequency := u32le payload 6, time := u32le payload 10 }

/-- Source: `codec.ts` `parseModeMessage`. -/
def parseModeMessage (payload : List UInt8) : Except String AudioMode :=
  if payload.length < 6 then .error "mode message is too short"
  else if u16le payload 4 = 1 then .ok .raw
  else if u16le payload 4 = 2 then .ok .celt
  else if u16le payload 4 = 3 then .ok .opus
  else .error "unknown SPICE audio mode"

/-- The samples. Source: `codec.ts` `parseAudioData`. -/
def parseAudioData (payload : List UInt8) : Except String (List UInt8) :=
  if payload.length < 4 then .error "audio data has no timestamp" else .ok (payload.drop 4)

/-- What the browser accepts. -/
structure Browser where
  /-- There is an `AudioDecoder`. -/
  webCodecs : Bool
  /-- `new AudioWorkletNode` does not throw. -/
  makesNode : PlaybackStart → Bool
  /-- `AudioDecoder.configure` does not throw. -/
  configures : PlaybackStart → Bool

/-- A playback node that is connected to the output through its gain. -/
structure Connected where
  id : Nat
  format : PlaybackStart
  gain : Nat

/-- Source: `web/src/spice-audio/playback.ts` `SpicePlayback`. -/
structure SpicePlayback where
  node : Option Nat := none
  gain : Option Nat := none
  /-- The decoder, with what it is configured for. -/
  decoder : Option (Option PlaybackStart) := none
  mode : AudioMode := .raw
  format : Option PlaybackStart := none
  muted : Bool := false
  /-- The calls of `start` that wait for `addWorklets`. -/
  pending : List PlaybackStart := []
  /-- The nodes so far. -/
  opened : Nat := 0
  connected : List Connected := []
  /-- For every frame that was decoded: the format of the decoder, and that of the stream. -/
  decodes : List (PlaybackStart × PlaybackStart) := []
  /-- The last argument of `setMuted`. -/
  operatorMuted : Bool := false
  /-- Whether `teardown` was called from outside after the last start. -/
  tornDown : Bool := false

namespace SpicePlayback

/-- The value that `applyGain` gives to the gain. -/
def volume (s : SpicePlayback) : Nat := if s.muted then 0 else 1

/-- Source: `applyGain`. -/
def applyGain (s : SpicePlayback) : SpicePlayback :=
  { s with connected := s.connected.map fun c =>
      if s.gain = some c.id then { c with gain := s.volume } else c }

/-- Source: `setMuted`. -/
def setMuted (s : SpicePlayback) (muted : Bool) : SpicePlayback :=
  { s with muted, operatorMuted := muted }.applyGain

/-- Source: `teardown`. -/
def teardown (s : SpicePlayback) : SpicePlayback :=
  { s with decoder := none, node := none, gain := none
           connected := s.connected.filter fun c => s.node ≠ some c.id ∧ s.gain ≠ some c.id }

/-- Source: `openDecoder`. A decoder that cannot be configured is kept. -/
def openDecoder (s : SpicePlayback) (browser : Browser) (format : PlaybackStart) : SpicePlayback :=
  if browser.webCodecs then
    { s with decoder := some (if browser.configures format then some format else none) }
  else s

/-- Whether a start announces another stream. Source: `start`. -/
def changed (s : SpicePlayback) (format : PlaybackStart) : Prop :=
  ∀ old, s.format = some old → ¬ old.SameStream format

instance (s : SpicePlayback) (format : PlaybackStart) : Decidable (s.changed format) :=
  match h : s.format with
  | none => isTrue (by simp [changed, h])
  | some old => decidable_of_iff (¬ old.SameStream format) (by simp [changed, h])

/-- Up to the wait. Source: `start`. -/
def start (s : SpicePlayback) (format : PlaybackStart) : SpicePlayback :=
  if s.node.isSome ∧ ¬ s.changed format then { s with format := some format, tornDown := false }
  else
    let s := { s with format := some format, tornDown := false }.teardown
    { s with pending := s.pending ++ [format] }

/-- From the wait on, for the start that has waited at this place: whether the worklets could be
loaded. Source: `start`. -/
def loaded (s : SpicePlayback) (browser : Browser) (place : Nat) (ok : Bool) : SpicePlayback :=
  match s.pending[place]? with
  | none => s
  | some format =>
    let s := { s with pending := s.pending.eraseIdx place }
    if ok ∧ browser.makesNode format then
      let s := { s with node := some s.opened, gain := some s.opened, opened := s.opened + 1
                        connected := s.connected ++ [⟨s.opened, format, s.volume⟩] }
      if s.mode = .opus then s.openDecoder browser format else s
    else s

/-- Frames of Opus go to the decoder. Source: `data`. -/
def data (s : SpicePlayback) (browser : Browser) (samples : List UInt8) : SpicePlayback :=
  match s.format with
  | none => s
  | some format =>
    if s.node.isNone ∨ samples = [] ∨ s.mode ≠ .opus then s
    else
      let s := if s.decoder.isNone then s.openDecoder browser format else s
      match s.decoder with
      | some (some configured) => { s with decodes := s.decodes ++ [(configured, format)] }
      | _ => s

/-- A message that cannot be read changes nothing. Source: `handle`. -/
def handle (s : SpicePlayback) (browser : Browser) (message : SpiceMessage) : SpicePlayback :=
  if message.kind = 102 then
    match parseModeMessage message.payload with
    | .ok mode => { s with mode }
    | .error _ => s
  else if message.kind = 103 then
    match parsePlaybackStart message.payload with
    | .ok format => s.start format
    | .error _ => s
  else if message.kind = 101 then
    match parseAudioData message.payload with
    | .ok samples => s.data browser samples
    | .error _ => s
  else if message.kind = 106 then
    { s with muted := message.payload.head?.any (· ≠ 0) }.applyGain
  else s

/-- What happens next. -/
inductive Action where
  | message (message : SpiceMessage)
  | setMuted (muted : Bool)
  | teardown
  | loaded (place : Nat) (ok : Bool)
  /-- The decoder reports an error. -/
  | decoderError

def step (browser : Browser) (s : SpicePlayback) : Action → SpicePlayback
  | .message message => s.handle browser message
  | .setMuted muted => s.setMuted muted
  | .teardown => { s with tornDown := true }.teardown
  | .loaded place ok => s.loaded browser place ok
  | .decoderError => { s with decoder := none }

def run (browser : Browser) (actions : List Action) : SpicePlayback :=
  actions.foldl (step browser) {}

end SpicePlayback

end MachineEmu.Web
