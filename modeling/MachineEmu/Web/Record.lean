import MachineEmu.Lib.Slot

/-!
# The microphone of the web client

The guest opens and closes its capture stream. The client asks for the microphone when the guest
opens it, which takes two waits: for the operator's grant and for the audio worklets.

* `SpiceRecord.handle`, `SpiceRecord.stop`, `SpiceRecord.setMuted` — what is called.
* `SpiceRecord.granted`, `SpiceRecord.loaded` — how an `open` goes on after its waits.
* `SpiceRecord.step`, `SpiceRecord.run` — all of it, in any order.
-/

namespace MachineEmu.Web

open Lib

/-- The messages of the guest that open and close its stream. -/
inductive RecordMessage where
  | start
  | stop
  deriving DecidableEq

/-- Source: `web/src/spice-audio/record.ts` `SpiceRecord`. -/
structure SpiceRecord where
  context : Slot := {}
  /-- A stream is live while its tracks are. -/
  stream : Slot := {}
  node : Bool := false
  source : Bool := false
  muted : Bool := false
  guestListening : Bool := false
  sending : Bool := false
  /-- The calls of `open` that wait for `getUserMedia`. -/
  awaitingMedia : Nat := 0
  /-- The calls of `open` that wait for `addWorklets`. -/
  awaitingWorklets : Nat := 0
  /-- The streams and contexts so far. -/
  opened : Nat := 0
  /-- The last message of the guest. -/
  last : Option RecordMessage := none
  /-- Whether `stop` was called from outside. -/
  stopped : Bool := false

namespace SpiceRecord

/-- Source: `setMuted`. -/
def setMuted (s : SpiceRecord) (muted : Bool) : SpiceRecord :=
  { s with muted, sending := s.guestListening && !muted }

/-- Up to the first wait. Source: `open`. -/
def begin (s : SpiceRecord) : SpiceRecord :=
  if s.context.held.isSome then s else { s with awaitingMedia := s.awaitingMedia + 1 }

/-- Source: `stop`. -/
def stop (s : SpiceRecord) : SpiceRecord :=
  { s with stream := s.stream.close, context := s.context.close, node := false, source := false
           sending := false }

/-- A message whose payload can be read. Source: `handle`. -/
def handle (s : SpiceRecord) : RecordMessage → SpiceRecord
  | .start => { s with guestListening := true, last := some .start }.begin
  | .stop => { s with guestListening := false, last := some .stop }.stop

/-- How `getUserMedia` and the constructor of the context end. -/
inductive Grant where
  | denied
  /-- The stream is there, and there is no context at this rate. -/
  | streamOnly
  | both
  deriving DecidableEq

/-- Source: `open`, from the first wait to the second. -/
def granted (s : SpiceRecord) (grant : Grant) : SpiceRecord :=
  match s.awaitingMedia with
  | 0 => s
  | awaitingMedia + 1 =>
    match grant with
    | .denied => { s with awaitingMedia }
    | .streamOnly =>
      { s with awaitingMedia, opened := s.opened + 1, stream := s.stream.assign s.opened }
    | .both =>
      { s with awaitingMedia, awaitingWorklets := s.awaitingWorklets + 1, opened := s.opened + 2
               stream := s.stream.assign s.opened, context := s.context.assign (s.opened + 1) }

/-- Source: `open`, from the second wait on. Without a context, or where the worklets cannot be
loaded, there is an error. -/
def loaded (s : SpiceRecord) (ok : Bool) : SpiceRecord :=
  match s.awaitingWorklets with
  | 0 => s
  | awaitingWorklets + 1 =>
    if ok ∧ s.context.held.isSome then
      if s.stream.held.isSome then
        { s with awaitingWorklets, node := true, source := true }.setMuted s.muted
      else { s with awaitingWorklets, node := true }
    else { s with awaitingWorklets }

/-- What happens next. -/
inductive Action where
  | message (message : RecordMessage)
  | setMuted (muted : Bool)
  | stop
  | granted (grant : Grant)
  | loaded (ok : Bool)

def step (s : SpiceRecord) : Action → SpiceRecord
  | .message message => s.handle message
  | .setMuted muted => s.setMuted muted
  | .stop => { s with stopped := true }.stop
  | .granted grant => s.granted grant
  | .loaded ok => s.loaded ok

def run (actions : List Action) : SpiceRecord := actions.foldl step {}

end SpiceRecord

end MachineEmu.Web
