import MachineEmu.Lib.Decimal
import MachineEmu.Lib.Json

/-!
# Progress of imports

The events that the daemon publishes of the import of an image or of an engine. The job keeps the
last events, so that a client that lost its connection can resume after the last one it received.

* `ImageImportJob`, `ImageImportJob.statusJson` — the job, and the data of a snapshot of it.
* `publishImportEvent`, `streamImageImportEvents` — an event is published, a client connects.
* `World`, `World.step` — the job with its worker, the streams of the server and the clients.
-/

namespace MachineEmu

open Lib

namespace Imports

/-! ## Events -/

/-- The kind of an event. Source: `api/images.rs`, `api/engines.rs`, the names that
`publish_import_event` is called with, and the snapshots'. -/
inductive Kind where
  | snapshot | queued | componentStart | progress | componentComplete | complete | failed
  deriving DecidableEq

def Kind.name : Kind → String
  | .snapshot => "snapshot"
  | .queued => "queued"
  | .componentStart => "component-start"
  | .progress => "progress"
  | .componentComplete => "component-complete"
  | .complete => "complete"
  | .failed => "failed"

/-- Whether the event is the last of its job. -/
def Kind.isTerminal : Kind → Bool
  | .complete | .failed => true
  | _ => false

/-- Source: `api/images.rs` `ImageImportEvent`. -/
structure ImageImportEvent where
  sequence : Nat
  kind : Kind
  data : Json

/-- What is sent to a client of an event. -/
structure Sse where
  event : String
  id : String
  data : String

/-- Source: `api/images.rs` `ImageImportEvent::sse`. -/
def ImageImportEvent.sse (event : ImageImportEvent) (importId : String) : Sse where
  event := event.kind.name
  id := importId ++ ":" ++ toString event.sequence
  data := event.data.render

/-! ## The job -/

/-- The request for an import. Source: `api/dto.rs` `ImportVmmanagerBase`. -/
structure ImportVmmanagerBase where
  source : String
  imageId : String
  engineTrack : String
  target : String

/-- A subscriber's sender is its stream's, which has the subscriber's number. Source:
`api/images.rs` `ImageImportJob`. -/
structure ImageImportJob where
  status : String
  phase : String
  source : String
  imageId : String
  engineTrack : String
  target : String
  currentComponent : Option String
  bytesDone : Nat
  bytesTotal : Nat
  manifest : Option Json
  error : Option String
  nextSequence : Nat
  nextSubscriber : Nat
  events : List ImageImportEvent
  subscribers : List Nat

namespace ImageImportJob

/-- Source: `api/images.rs` `ImageImportJob::new`. -/
def new (input : ImportVmmanagerBase) : ImageImportJob where
  status := "queued"
  phase := "queued"
  source := input.source
  imageId := input.imageId
  engineTrack := input.engineTrack
  target := input.target
  currentComponent := none
  bytesDone := 0
  bytesTotal := 0
  manifest := none
  error := none
  nextSequence := 0
  nextSubscriber := 0
  events := []
  subscribers := []

/-- Source: `api/images.rs` `ImageImportJob::engine`. -/
def engine (source : String) : ImageImportJob := new ⟨source, "", "", ""⟩

/-- Source: `api/images.rs` `ImageImportJob::status_json`. -/
def statusJson (job : ImageImportJob) (importId : String) : Json :=
  .ofFields [("import_id", .str importId),
    ("status", .str job.status),
    ("phase", .str job.phase),
    ("source", .str job.source),
    ("image_id", .str job.imageId),
    ("engine_track", .str job.engineTrack),
    ("target", .str job.target),
    ("current_component", (job.currentComponent.map Json.str).getD .null),
    ("bytes_done", .num job.bytesDone),
    ("bytes_total", .num job.bytesTotal),
    ("manifest", job.manifest.getD .null),
    ("error", (job.error.map Json.str).getD .null)]

/-- Source: `api/images.rs` `set_import_status`. -/
def setImportStatus (job : ImageImportJob) (status phase : String)
    (currentComponent : Option String) (bytesDone bytesTotal : Nat) : ImageImportJob :=
  { job with status, phase, currentComponent, bytesDone, bytesTotal }

/-- Source: `api/images.rs` `finish_import`. -/
def finishImport (job : ImageImportJob) (manifest : Json) : ImageImportJob :=
  { job with
    status := "complete"
    phase := "complete"
    currentComponent := none
    bytesDone := job.bytesTotal
    manifest := some manifest }

/-- Source: `api/images.rs` `fail_import`. -/
def failImport (job : ImageImportJob) (error : String) : ImageImportJob :=
  { job with
    status := "failed"
    phase := "failed"
    error := some error
    currentComponent := none }

/-- The job after its next event, which goes to the subscribers that take it. -/
def publish (job : ImageImportJob) (event : ImageImportEvent) (accepts : Nat → Bool) :
    ImageImportJob :=
  let events := job.events ++ [event]
  { job with
    nextSequence := event.sequence
    subscribers := job.subscribers.filter accepts
    events := events.drop (events.length - 512) }

end ImageImportJob

/-! ## Streams -/

/-- The stream of a subscriber: the events that it starts with, those in its channel, and whether
its receiver has been dropped. -/
structure Stream where
  initial : List ImageImportEvent := []
  queue : List ImageImportEvent := []
  closed : Bool := false

/-- The capacity of the channel of a subscriber. -/
def channelCapacity : Nat := 64

namespace Stream

/-- Whether `try_send` succeeds. -/
def accepts (stream : Stream) : Bool :=
  !stream.closed && decide (stream.queue.length < channelCapacity)

/-- `try_send`. -/
def send (stream : Stream) (event : ImageImportEvent) : Stream :=
  if stream.accepts then { stream with queue := stream.queue ++ [event] } else stream

/-- The next event of the stream, if there is one, and the stream after it. -/
def next (stream : Stream) : Option (ImageImportEvent × Stream) :=
  match stream.initial, stream.queue with
  | event :: initial, _ => some (event, { stream with initial })
  | [], event :: queue => some (event, { stream with queue })
  | [], [] => none

end Stream

/-- Publish an event: number it, send it to the subscribers and drop those that take no more, and
keep the last events. An overflow of the number ends the operation. Source: `api/images.rs`
`publish_import_event`. -/
def publishImportEvent (job : ImageImportJob) (streams : Nat → Stream) (kind : Kind)
    (data : Json) : Option (ImageImportEvent × ImageImportJob × (Nat → Stream)) :=
  if 2 ^ 64 ≤ job.nextSequence + 1 then none
  else
    let event : ImageImportEvent := ⟨job.nextSequence + 1, kind, data⟩
    some (event, job.publish event fun n => (streams n).accepts,
      fun n => if n ∈ job.subscribers then (streams n).send event else streams n)

/-- The sequence number that the last part of an event id is. -/
def cursor (lastEventId : Option String) : Option Nat :=
  lastEventId.bind fun value =>
    (value.toList.splitOn ':').getLast?.bind (parseUnsigned (2 ^ 64))

/-- The first events of a new stream, and the job after them. -/
def startOf (job : ImageImportJob) (importId : String) :
    Option Nat → Option (List ImageImportEvent × ImageImportJob)
  | some sequence => some (job.events.filter fun event => sequence < event.sequence, job)
  | none =>
    if 2 ^ 64 ≤ job.nextSequence + 1 then none
    else
      let job := { job with nextSequence := job.nextSequence + 1 }
      some ([⟨job.nextSequence, .snapshot, job.statusJson importId⟩], job)

/-- A client connects with the id of the last event it received; returns the number of its
subscriber. An overflow of a number ends the operation. Source: `api/images.rs`
`stream_image_import_events`. -/
def streamImageImportEvents (job : ImageImportJob) (streams : Nat → Stream) (importId : String)
    (lastEventId : Option String) : Option (Nat × ImageImportJob × (Nat → Stream)) :=
  match startOf job importId (cursor lastEventId) with
  | none => none
  | some (initial, job) =>
    if 2 ^ 64 ≤ job.nextSubscriber + 1 then none
    else
      let subscriber := job.nextSubscriber + 1
      some (subscriber,
        { job with nextSubscriber := subscriber, subscribers := subscriber :: job.subscribers },
        Function.update streams subscriber { initial })

/-! ## Runs -/

/-- Where the worker of the job is: at work, with the final status set, or done. -/
inductive Worker where
  | running
  | settled (kind : Kind)
  | done
  deriving DecidableEq

/-- A connection of a client: the number of its subscriber, and the events on their way. -/
structure Connection where
  subscriber : Nat
  sent : List ImageImportEvent := []

/-- A client, and all events it received over its connections. -/
structure Client where
  connection : Option Connection := none
  received : List ImageImportEvent := []

/-- The import job `importId`, and all events that it ever published. -/
structure World where
  importId : String
  job : ImageImportJob
  worker : Worker
  streams : Nat → Stream
  clients : Nat → Client
  published : List ImageImportEvent

def World.initial (importId : String) (job : ImageImportJob) : World where
  importId
  job
  worker := .running
  streams := fun _ => {}
  clients := fun _ => {}
  published := []

inductive Op where
  /-- The worker reports its status. -/
  | setStatus (status phase : String) (currentComponent : Option String) (bytesDone bytesTotal : Nat)
  /-- The worker publishes an event that is not its last. -/
  | publish (kind : Kind) (data : Json)
  /-- The worker sets the final status. -/
  | finish (manifest : Json)
  | fail (error : String)
  /-- The worker publishes its last event. -/
  | announce (data : Json)
  /-- A client connects, for the first time or again. -/
  | connect (client : Nat)
  /-- The stream of a subscriber is asked for its next event, which is sent to the client. -/
  | poll (client : Nat)
  /-- A client receives an event. -/
  | receive (client : Nat)
  /-- A connection is lost, for the client or for the server. -/
  | disconnect (client : Nat)
  | drop (subscriber : Nat)

namespace World

/-- The id of the last event that a client received. -/
def lastEventId (w : World) (client : Nat) : Option String :=
  (w.clients client).received.getLast?.map fun event => (event.sse w.importId).id

def setClient (w : World) (client : Nat) (value : Client) : World :=
  { w with clients := Function.update w.clients client value }

def publish (w : World) (kind : Kind) (data : Json) (worker : Worker) : Option World :=
  (publishImportEvent w.job w.streams kind data).map fun (event, job, streams) =>
    { w with job, streams, worker, published := w.published ++ [event] }

def connect (w : World) (client : Nat) : Option World :=
  (streamImageImportEvents w.job w.streams w.importId (w.lastEventId client)).map
    fun (subscriber, job, streams) =>
      { w with job, streams }.setClient client
        { w.clients client with connection := some { subscriber } }

/-- The stream of a client's connection: its next event is sent, or the stream ends when there is
none and its sender is gone. -/
def poll (w : World) (client : Nat) : World :=
  match (w.clients client).connection with
  | none => w
  | some connection =>
    match (w.streams connection.subscriber).next with
    | some (event, stream) =>
      { w with streams := Function.update w.streams connection.subscriber stream }.setClient client
        { w.clients client with
          connection := some { connection with sent := connection.sent ++ [event] } }
    | none =>
      if connection.subscriber ∈ w.job.subscribers then w
      else
        { w with
          job := { w.job with
            subscribers := w.job.subscribers.filter fun n => n ≠ connection.subscriber }
          streams := Function.update w.streams connection.subscriber { closed := true } }

def receive (w : World) (client : Nat) : World :=
  match (w.clients client).connection with
  | none => w
  | some connection =>
    match connection.sent with
    | [] => w
    | event :: sent =>
      w.setClient client
        ⟨some { connection with sent }, (w.clients client).received ++ [event]⟩

/-- One step of a run, if it is possible. -/
def step (w : World) : Op → Option World
  | .setStatus status phase currentComponent bytesDone bytesTotal =>
    if w.worker = .running then
      some { w with
        job := w.job.setImportStatus status phase currentComponent bytesDone bytesTotal }
    else none
  | .publish kind data =>
    if w.worker = .running ∧ kind ≠ .snapshot ∧ kind.isTerminal = false then
      w.publish kind data .running
    else none
  | .finish manifest =>
    if w.worker = .running then
      some { w with job := w.job.finishImport manifest, worker := .settled .complete }
    else none
  | .fail error =>
    if w.worker = .running then
      some { w with job := w.job.failImport error, worker := .settled .failed }
    else none
  | .announce data =>
    match w.worker with
    | .settled kind => w.publish kind data .done
    | _ => none
  | .connect client => w.connect client
  | .poll client => some (w.poll client)
  | .receive client => some (w.receive client)
  | .disconnect client =>
    some (w.setClient client { w.clients client with connection := none })
  | .drop subscriber =>
    some { w with streams := Function.update w.streams subscriber { closed := true } }

end World

/-- The states of the runs whose steps are all allowed. -/
inductive Reachable (allowed : World → Op → Prop) : World → Prop where
  | image (importId : String) (input : ImportVmmanagerBase) :
      Reachable allowed (World.initial importId (.new input))
  | engine (importId source : String) :
      Reachable allowed (World.initial importId (.engine source))
  | step {w w' : World} {op : Op} (h : Reachable allowed w) (hallowed : allowed w op)
      (hstep : w.step op = some w') : Reachable allowed w'

end Imports

end MachineEmu
