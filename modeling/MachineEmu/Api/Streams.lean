import Mathlib.Data.Finset.Basic
import MachineEmu.Api.SpiceAudio
import MachineEmu.Domain
import MachineEmu.Lib.Lease

/-!
# Stream tickets, audio sessions and input control

A client asks for tickets and connects a websocket with each. A connection takes its ticket, claims
input control where the ticket grants it, takes its channel of an audio session, and is then a task
of its own; what it has taken it gives back when it ends.

* `claimControl`, `revokeDisplay` — the table of the input control.
* `issueStreamTicket`, `issueSpiceTickets` — new tickets.
* `redeem`, `claimStream`, `attach` — the steps of `connect_stream`.
* `Relay` — the relay of an audio channel.
* `Streams`, `Streams.step` — the tables with the tasks that use them.
-/

namespace MachineEmu

open Lib

/-! ## Tickets -/

/-- Source: `api/streams.rs` `Endpoint`. -/
inductive Endpoint where
  | unix (path : String)
  | tcp (address : String)

/-- Source: `api/streams.rs` `StreamTicket`. -/
structure StreamTicket where
  instanceId : String
  runId : String
  kind : String
  control : Bool
  takeover : Bool
  endpoint : Endpoint
  expires : Nat
  audioGroup : Option String

/-- Source: `api/streams.rs` `AudioSession`. -/
structure AudioSession where
  instanceId : String
  runId : String
  connectionId : Option UInt32
  active : Finset String
  microphone : Bool
  expires : Nat

/-- What a request for a ticket may ask for. Source: `api/streams.rs` `issue_stream_ticket`. -/
def checkTicketRequest (kind : String) (control takeover : Bool) : Except String Unit :=
  if kind ∉ ["vnc", "video", "audio-dbus", "usbredir", "serial", "lcm", "frontpanel"] then
    .error "unknown stream kind"
  else if kind = "usbredir" ∧ control = false then
    .error "this stream requires control permission"
  else if kind = "serial" ∧ control = false then
    .error "serial streams require control permission"
  else if takeover = true ∧ (control = false ∨ kind ∉ ["vnc", "video"]) then
    .error "takeover requires display control"
  else if kind ∈ ["audio-dbus", "lcm", "frontpanel"] ∧ control = true then
    .error "this stream is read only"
  else .ok ()

/-! ## Input control -/

/-- A claim of input control. The token is the identity of the flag `revoked`.
Source: `api/streams.rs` `ControlLease`. -/
structure ControlLease where
  key : String
  token : Nat

/-- The display control of a run. -/
def displayKey (instanceId runId : String) : String := instanceId ++ ":" ++ runId ++ ":display"

/-- What a ticket controls. -/
def controlKey (ticket : StreamTicket) : String :=
  let group := if ticket.kind ∈ ["vnc", "video"] then "display" else ticket.kind
  if ticket.kind = "serial" then ticket.instanceId ++ ":serial"
  else ticket.instanceId ++ ":" ++ ticket.runId ++ ":" ++ group

/-- Source: `api/streams.rs` `claim_control`. -/
def claimControl (ticket : StreamTicket) (owners : Leases String) (token : Nat) :
    Except Nat (Option ControlLease × Leases String) :=
  if ticket.control = false then .ok (none, owners)
  else
    match owners.claim (controlKey ticket) ticket.takeover token with
    | none => .error 409
    | some owners => .ok (some ⟨controlKey ticket, token⟩, owners)

/-- Source: `api/streams.rs` `ControlLease`, `drop`. -/
def ControlLease.drop (lease : ControlLease) (owners : Leases String) : Leases String :=
  owners.drop lease.key lease.token

/-- Source: `api/streams.rs` `revoke_display`. -/
def revokeDisplay (owners : Leases String) (instanceId runId : String) : Leases String :=
  owners.revoke (displayKey instanceId runId)

/-! ## The tasks -/

/-- A channel of an audio session that a task has taken. Source: `api/streams.rs` `AudioLease`. -/
structure AudioLease where
  group : String
  channel : String
  deriving DecidableEq

/-- Source: `api/streams.rs` `AudioLease`, `drop`. -/
def AudioLease.drop (self : AudioLease) (sessions : SortedMap String AudioSession) :
    SortedMap String AudioSession :=
  if self.channel = "main" then sessions.erase self.group
  else
    match sessions.get? self.group with
    | none => sessions
    | some session =>
      sessions.insert self.group { session with active := session.active.erase self.channel }

/-- The relay of an audio channel: the gate for what the browser sends, and, from the connection to
QEMU on, the gate for what QEMU sends. Source: `api/spice_audio.rs` `relay`. -/
structure Relay where
  group : String
  gate : Spice.ClientGate
  observer : Option Spice.ServerGate := none

/-- Source: `api/spice_audio.rs` `relay`. -/
def Relay.start (ticket : StreamTicket) (expectedId : UInt32) : Except String Relay :=
  let channel : Option Spice.Channel :=
    if ticket.kind = "spice-main" then some .main
    else if ticket.kind = "spice-playback" then some .playback
    else if ticket.kind = "spice-record" then some .record
    else none
  match channel with
  | none => .error "unknown SPICE audio channel"
  | some channel =>
    match ticket.audioGroup with
    | none => .error "audio ticket has no client binding"
    | some group =>
      match ticket.endpoint with
      | .tcp _ => .error "SPICE audio must use a Unix socket"
      | .unix _ => .ok { group, gate := .new channel expectedId }

/-- The link of the browser has been checked. -/
def Relay.linked (self : Relay) : Bool := self.gate.phase ∉ [.header, .link]

/-- What a task of an audio session holds. -/
structure Attachment where
  lease : AudioLease
  expectedId : UInt32
  relay : Option Relay := none

/-- How far a request has come: it asks for tickets, has taken its ticket, has claimed control, or is
a connected stream. -/
inductive StreamTask where
  | issuing (id : String) (run : Option String)
  | redeemed (id : String) (ticket : StreamTicket)
  | claimed (id : String) (ticket : StreamTicket) (control : Option ControlLease)
  | stream (id : String) (ticket : StreamTicket) (control : Option ControlLease)
  | audio (id : String) (ticket : StreamTicket) (control : Option ControlLease)
      (attachment : Attachment)

namespace StreamTask

def control : StreamTask → Option ControlLease
  | claimed _ _ control | stream _ _ control | audio _ _ control _ => control
  | issuing .. | redeemed .. => none

def attachment : StreamTask → Option Attachment
  | audio _ _ _ attachment => some attachment
  | issuing .. | redeemed .. | claimed .. | stream .. => none

end StreamTask

/-! ## The tables -/

/-- The tables of the daemon, the live run of each instance, and the tasks. The last two fields only
record: the random values that were drawn, and the tickets that were taken. -/
structure Streams where
  now : Nat := 0
  live : String → Option String := fun _ => none
  streamTickets : SortedMap String StreamTicket := .empty
  audioSessions : SortedMap String AudioSession := .empty
  controlStreams : Leases String := {}
  tasks : Nat → Option StreamTask := fun _ => none
  drawn : List String := []
  taken : List String := []

namespace Streams

def setTask (w : Streams) (t : Nat) (task : StreamTask) : Streams :=
  { w with tasks := Function.update w.tasks t (some task) }

/-- What a task holds of an audio session. -/
def attachment (w : Streams) (t : Nat) : Option Attachment :=
  (w.tasks t).bind StreamTask.attachment

/-- A task ends, and drops its leases. -/
def endTask (w : Streams) (t : Nat) : Streams := { w with
  audioSessions :=
    match w.attachment t with
    | none => w.audioSessions
    | some attachment => attachment.lease.drop w.audioSessions
  controlStreams :=
    match (w.tasks t).bind StreamTask.control with
    | none => w.controlStreams
    | some control => control.drop w.controlStreams
  tasks := Function.update w.tasks t none }

/-- Forget the tickets that fail a test. -/
def retainTickets (w : Streams) (p : StreamTicket → Bool) : Streams :=
  { w with streamTickets := w.streamTickets.filter p }

/-- Forget the sessions that fail a test. -/
def retainSessions (w : Streams) (p : AudioSession → Bool) : Streams :=
  { w with audioSessions := w.audioSessions.filter p }

def insertTicket (w : Streams) (value : String) (ticket : StreamTicket) : Streams :=
  { w with streamTickets := w.streamTickets.insert value ticket }

/-- Random values are drawn. -/
def draw (w : Streams) (values : List String) : Streams := { w with drawn := values ++ w.drawn }

/-! ### Issuing -/

/-- Source: `api/streams.rs` `issue_stream_ticket`, from the lock of the tickets on. -/
def issueStreamTicket (w : Streams) (id kind : String) (control takeover : Bool)
    (run : Option String) (endpoint : Endpoint) (value : String) : Except String Unit × Streams :=
  let w := w.retainTickets fun ticket => w.now < ticket.expires
  if 128 ≤ w.streamTickets.size then (.error "too many outstanding stream tickets", w)
  else
    (.ok (), w.insertTicket value
      { instanceId := id, runId := run.getD "pending", kind, control, takeover, endpoint,
        expires := w.now + 30, audioGroup := none })

/-- The tickets of the channels. When a random value cannot be drawn the earlier tickets stay. -/
def insertTickets (w : Streams) (ticket : String → StreamTicket) :
    List String → List String → Except String Unit × Streams
  | [], _ => (.ok (), w)
  | _ :: _, [] => (.error "cannot create stream ticket", w)
  | channel :: channels, token :: tokens =>
    insertTickets (w.insertTicket token (ticket channel)) ticket channels tokens

/-- The channels that are asked for. Source: `api/streams.rs` `issue_spice_tickets`. -/
def spiceChannels (microphone : Bool) : List String :=
  if microphone then ["main", "playback", "record"] else ["main", "playback"]

/-- Source: `api/streams.rs` `issue_spice_tickets`, from the lock of the tickets on. -/
def issueSpiceTickets (w : Streams) (id run : String) (microphone : Bool) (endpoint : Endpoint)
    (group : String) (tokens : List String) : Except String Unit × Streams :=
  let channels := spiceChannels microphone
  let w := w.retainTickets fun ticket => w.now < ticket.expires
  if 128 < w.streamTickets.size + channels.length then
    (.error "too many outstanding stream tickets", w)
  else
    let w := w.retainSessions fun session => w.now < session.expires || session.active ≠ ∅
    if 128 ≤ w.audioSessions.size then (.error "too many audio sessions", w)
    else
      let session : AudioSession :=
        { instanceId := id, runId := run, connectionId := none, active := ∅, microphone,
          expires := w.now + 120 }
      insertTickets { w with audioSessions := w.audioSessions.insert group session }
        (fun channel =>
          { instanceId := id, runId := run, kind := "spice-" ++ channel,
            control := channel = "record", takeover := false, endpoint, expires := w.now + 30,
            audioGroup := some group })
        channels tokens

/-! ### Connecting -/

/-- The first part of `connect_stream`: the ticket is taken, also when it is then rejected.
Source: `api/streams.rs` `connect_stream`. -/
def redeem (w : Streams) (id kind value : String) : Except Nat StreamTicket × Streams :=
  match w.streamTickets.get? value with
  | none => (.error 401, w)
  | some ticket =>
    let w := { w with streamTickets := w.streamTickets.erase value, taken := value :: w.taken }
    if ticket.expires ≤ w.now ∨ ticket.instanceId ≠ id ∨ ticket.kind ≠ kind then (.error 401, w)
    else (.ok ticket, w)

/-- The part of `connect_stream` under the instance lock: the run and the input control.
Source: `api/streams.rs` `connect_stream`. -/
def claimStream (w : Streams) (id : String) (ticket : StreamTicket) (token : Nat) :
    Except Nat (Option ControlLease × Leases String) :=
  if ticket.kind ≠ "serial" ∧ w.live id ≠ some ticket.runId then .error 409
  else claimControl ticket w.controlStreams token

/-- The channel that the kind of a ticket names. -/
def channelOf (kind : String) : String :=
  match "spice-".toList.isPrefixOf? kind.toList with
  | some channel => String.ofList channel
  | none => ""

/-- The part of `connect_stream` that takes the channel of the audio session, with the connection ID
that the browser has to send. Source: `api/streams.rs` `connect_stream`. -/
def attach (w : Streams) (id : String) (ticket : StreamTicket) (group : String) :
    Except Nat (Attachment × SortedMap String AudioSession) :=
  let channel := channelOf ticket.kind
  match w.audioSessions.get? group with
  | none => .error 409
  | some session =>
    if session.instanceId ≠ id ∨ session.runId ≠ ticket.runId ∨ session.expires ≤ w.now ∨
        channel ∈ session.active ∨ (channel = "record" ∧ session.microphone = false) then
      .error 409
    else
      let expectedId : Option UInt32 :=
        if channel = "main" then
          if session.active ≠ ∅ ∨ session.connectionId ≠ none then none else some 0
        else if "main" ∉ session.active then none
        else session.connectionId
      match expectedId with
      | none => .error 409
      | some expectedId =>
        .ok ({ lease := ⟨group, channel⟩, expectedId }, w.audioSessions.insert group
          { session with active := insert channel session.active })

/-! ### Relaying -/

/-- A chunk from the browser. Source: `api/spice_audio.rs` `relay`. -/
def fromBrowser (relay : Relay) (bytes : List UInt8) : Except String Relay :=
  if Spice.maxClient < bytes.length then .error "SPICE frame is too large"
  else (relay.gate.feed bytes).map fun r => { relay with gate := r.2 }

/-- A chunk from QEMU: the main channel reports its connection ID to the session, as long as there
is one. Source: `api/spice_audio.rs` `relay`. -/
def fromServer (w : Streams) (relay : Relay) (observer : Spice.ServerGate) (bytes : List UInt8) :
    Except String (Relay × SortedMap String AudioSession) :=
  (observer.feed bytes).map fun r =>
    ({ relay with observer := some r.2 },
      match r.1 with
      | none => w.audioSessions
      | some id =>
        if relay.gate.channel = .main then
          match w.audioSessions.get? relay.group with
          | none => w.audioSessions
          | some session =>
            w.audioSessions.insert relay.group { session with connectionId := some id }
        else w.audioSessions)

/-- A relay goes on, or its task ends with an error. -/
def withRelay (w : Streams) (t : Nat)
    (f : Relay → Option (Except String (Relay × SortedMap String AudioSession))) :
    Option Streams :=
  match w.tasks t with
  | some (.audio id ticket control attachment) =>
    match attachment.relay.bind f with
    | none => none
    | some (.error _) => some (w.endTask t)
    | some (.ok (relay, audioSessions)) =>
      some (({ w with audioSessions } : Streams).setTask t
        (.audio id ticket control { attachment with relay := some relay }))
  | _ => none

/-! ### Runs -/

/-- The random values have not been drawn before. -/
def Fresh (w : Streams) (values : List String) : Prop :=
  values.Nodup ∧ ∀ value ∈ values, value ∉ w.drawn

instance (w : Streams) (values : List String) : Decidable (w.Fresh values) :=
  inferInstanceAs (Decidable (_ ∧ _))

/-- What clients, relays, QEMU, the lifecycle of the instances and the clock do. -/
inductive Op where
  | tick
  | setLive (id : String) (run : Option String)
  | ask (t : Nat) (id : String)
  | issueStream (t : Nat) (kind : String) (control takeover : Bool) (endpoint : Endpoint)
      (value : String)
  | issueSpice (t : Nat) (microphone : Bool) (endpoint : Endpoint) (group : String)
      (tokens : List String)
  | redeem (t : Nat) (id kind value : String)
  | claim (t token : Nat)
  | attach (t : Nat)
  | startRelay (t : Nat)
  | fromBrowser (t : Nat) (bytes : List UInt8)
  | connect (t : Nat)
  | fromServer (t : Nat) (bytes : List UInt8)
  | close (t : Nat)
  | revokeDisplay (id run : String)
  | dropSessions (id : String)
  | dropTickets (id : String)

/-- One step. What holds a lock of the tables is one step; between the steps of a request others may
come. -/
def step (w : Streams) : Op → Option Streams
  | .tick => some { w with now := w.now + 1 }
  | .setLive id run => some { w with live := Function.update w.live id run }
  | .ask t id =>
    if (w.tasks t).isNone ∧ (Id.new "instance" id).isOk then
      some (w.setTask t (.issuing id (w.live id)))
    else none
  | .issueStream t kind control takeover endpoint value =>
    match w.tasks t with
    | some (.issuing id run) =>
      if (checkTicketRequest kind control takeover).isOk ∧ (kind = "serial" ∨ run ≠ none) ∧
          w.Fresh [value] then
        some ((w.draw [value]).issueStreamTicket id kind control takeover run endpoint value
          |>.2.endTask t)
      else none
    | _ => none
  | .issueSpice t microphone endpoint group tokens =>
    match w.tasks t with
    | some (.issuing id (some run)) =>
      if w.Fresh (group :: tokens) then
        some ((w.draw (group :: tokens)).issueSpiceTickets id run microphone endpoint group tokens
          |>.2.endTask t)
      else none
    | _ => none
  | .redeem t id kind value =>
    if (w.tasks t).isNone then
      match w.redeem id kind value with
      | (.error _, w) => some w
      | (.ok ticket, w) => some (w.setTask t (.redeemed id ticket))
    else none
  | .claim t token =>
    match w.tasks t with
    | some (.redeemed id ticket) =>
      if w.controlStreams.Fresh token then
        match w.claimStream id ticket token with
        | .error _ => some (w.endTask t)
        | .ok (control, controlStreams) =>
          some (({ w with controlStreams } : Streams).setTask t (.claimed id ticket control))
      else none
    | _ => none
  | .attach t =>
    match w.tasks t with
    | some (.claimed id ticket control) =>
      match ticket.audioGroup with
      | none => some (w.setTask t (.stream id ticket control))
      | some group =>
        match w.attach id ticket group with
        | .error _ => some (w.endTask t)
        | .ok (attachment, audioSessions) =>
          some (({ w with audioSessions } : Streams).setTask t
            (.audio id ticket control attachment))
    | _ => none
  | .startRelay t =>
    match w.tasks t with
    | some (.audio id ticket control ⟨lease, expectedId, none⟩) =>
      match Relay.start ticket expectedId with
      | .error _ => some (w.endTask t)
      | .ok relay =>
        some (w.setTask t (.audio id ticket control { lease, expectedId, relay := some relay }))
    | _ => none
  | .fromBrowser t bytes => w.withRelay t fun relay =>
      -- once the link is checked the relay connects before it reads on
      if relay.linked ∧ relay.observer = none then none
      else some ((fromBrowser relay bytes).map fun relay => (relay, w.audioSessions))
  | .connect t => w.withRelay t fun relay =>
      if relay.linked ∧ relay.observer = none then
        some (.ok ({ relay with observer := some (.new relay.gate.channel) }, w.audioSessions))
      else none
  | .fromServer t bytes => w.withRelay t fun relay =>
      relay.observer.map fun observer => w.fromServer relay observer bytes
  | .close t => some (w.endTask t)
  | .revokeDisplay id run =>
    some { w with controlStreams := revokeDisplay w.controlStreams id run }
  | .dropSessions id => some (w.retainSessions fun session => session.instanceId ≠ id)
  | .dropTickets id => some (w.retainTickets fun ticket => ticket.instanceId ≠ id)

def steps (w : Streams) : List Op → Option Streams
  | [] => some w
  | op :: ops => (w.step op).bind fun next => next.steps ops

/-- What is reached from the start of the daemon. -/
inductive Reachable : Streams → Prop where
  | start : Reachable {}
  | step {w w' : Streams} {op : Op} (h : Reachable w) (hstep : w.step op = some w') : Reachable w'

end Streams

end MachineEmu
