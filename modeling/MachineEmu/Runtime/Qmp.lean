import MachineEmu.Lib.Json
import MachineEmu.Lib.Lines
import Mathlib.Data.List.Perm.Basic

/-!
# The QMP client

The client of a running QEMU's monitor. A call is one command or one wait for the removal of a
device; it may be cancelled wherever it awaits, by its own timeout or because its caller is.

* `AsyncQmp` — the client between two calls.
* `readReply`, `popEvents` — what a command and a wait make of a message.
* `Session`, `Session.step` — the connection with the call in progress, byte by byte.
* `Session.Reachable` — the sessions reached by steps that a policy admits.
-/

namespace MachineEmu.Qmp

open Lib

/-- serde_json between bytes and values. -/
structure Codec where
  fromSlice : List UInt8 → Option Json
  toVec : Json → List UInt8

/-- `RuntimeError`, as far as the client makes it. -/
inductive Fault where
  | qmp (text : String)
  | json

/-- Source: `protocols/async_qmp.rs` `MAX_FRAME`, and the line feed `read_frame` looks for. -/
def frames : LineReader UInt8 where
  separator := 10
  limit := 1024 * 1024

/-- Source: `protocols/async_qmp.rs` `AsyncQmp`, less the socket. -/
structure AsyncQmp where
  nextId : UInt64 := 1
  events : List Json := []

/-! ## Commands -/

/-- `Value::from(id)`. -/
def idValue (id : UInt64) : Json := .num id.toNat

/-- The request of a command. -/
def request (name : String) (id : UInt64) (arguments : Json) : Json :=
  let request := Json.obj [("execute", .str name), ("id", idValue id)]
  match arguments with
  | .null => request
  | arguments => request.setField "arguments" arguments

/-- `name.is_empty() || name.contains(char::is_whitespace)`. -/
def isToken (name : String) : Bool := !name.isEmpty && !name.toList.any Char.isWhitespace

/-- Whether a message is an event. -/
def isEvent (message : Json) : Bool := (message.field "event").isSome

/-- Whether a message bears the id. -/
def bears (id : UInt64) : Json → Bool
  | .obj fields =>
    match (Json.obj fields).field "id" with
    | some (.num n) => n = id.toNat
    | _ => false
  | _ => false

/-- What the caller of a command gets for its reply. -/
def replied (message : Json) : Except Fault Json :=
  match message.field "error" with
  | some error => .error (.qmp error.render)
  | none => .ok ((message.field "return").getD .null)

/-- The queue after an event that arrives while a command waits for its reply, and the event that
leaves it for that. -/
def keep (events : List Json) (event : Json) : List Json × List Json :=
  if events.length = 256 then (events.tail ++ [event], events.take 1) else (events ++ [event], [])

/-- What a message is to the command with the id. -/
inductive Reply where
  | event
  | other
  | reply (result : Except Fault Json)

/-- One round of the loop of `read_reply`. -/
def readReply (id : UInt64) (message : Json) : Reply :=
  if isEvent message then .event
  else if bears id message then .reply (replied message)
  else .other

/-! ## Waits -/

/-- The device an event names. -/
def deviceOf (event : Json) : Option String :=
  ((event.field "data").bind fun data => data.field "device").bind Json.asStr

/-- What an event says to a wait for the removal of the device; nothing, if it does not end the
wait. -/
def removal (device : String) (event : Json) : Option (Except Fault Bool) :=
  if deviceOf event ≠ some device then none
  else
    match (event.field "event").bind Json.asStr with
    | some "DEVICE_DELETED" => some (.ok true)
    | some "DEVICE_UNPLUG_GUEST_ERROR" => some (.error (.qmp "guest rejected device removal"))
    | _ => none

/-- What a wait leaves of the queue. -/
structure Popped where
  taken : List Json
  result : Option (Except Fault Bool)
  left : List Json

/-- `while let Some(event) = self.events.pop_front()`. -/
def popEvents (device : String) : List Json → Popped
  | [] => ⟨[], none, []⟩
  | event :: rest =>
    match removal device event with
    | some result => ⟨[event], some result, rest⟩
    | none =>
      let more := popEvents device rest
      { more with taken := event :: more.taken }

/-! ## The session -/

/-- The call in progress. A command has part of its request to write before it reads. -/
inductive Call where
  | greeting
  | command (name : String) (id : UInt64) (unsent : List UInt8)
  | wait (device : String)

/-- What a call returns. `noReply` stands for what a command returns without its reply: a timeout,
an I/O error, a line that is too long or no JSON. -/
inductive Returned where
  | command (id : UInt64) (result : Except Fault Json)
  | noReply (id : UInt64) (fault : Fault)
  | wait (device : String) (result : Except Fault Bool)

/-- What happened so far: the bytes that came from QEMU, the parts of them `read_frame` is done
with, the beginning of a line the connection ended in, the ids of the commands, what the calls
returned, the events the waits took from the queue, and those it lost to its limit and to
`drain_events`. -/
structure History where
  received : List UInt8 := []
  pieces : List (LineReader.Piece UInt8) := []
  torn : List UInt8 := []
  issued : List UInt64 := []
  returned : List Returned := []
  taken : List (String × Json) := []
  forgotten : List Json := []
  drained : List Json := []

/-- A connection to QEMU: what has come and is not read, what has been sent, whether QEMU closed
it, the client with the call in progress and the bytes `read_frame` has of a line. -/
structure Session where
  incoming : List UInt8 := []
  outgoing : List UInt8 := []
  hungUp : Bool := false
  connected : Bool := false
  client : AsyncQmp := {}
  call : Option Call := some .greeting
  line : List UInt8 := []
  history : History := {}

namespace Session

/-- The call returns; the bytes it has of a line go with it. -/
def finish (s : Session) (returned : List Returned) : Session :=
  { s with
    call := none
    line := []
    history := { s.history with returned := s.history.returned ++ returned } }

/-- Write a request: the id, then what is to be sent. -/
def issue (codec : Codec) (s : Session) (name : String) (arguments : Json) : Session :=
  let id := s.client.nextId
  { s with
    client := { s.client with nextId := id + 1 }
    call := some (.command name id (codec.toVec (request name id arguments) ++ [13, 10]))
    history := { s.history with issued := s.history.issued ++ [id] } }

/-- Source: `protocols/async_qmp.rs` `AsyncQmp::execute`, up to its first await. -/
def execute (codec : Codec) (s : Session) (name : String) (arguments : Json) : Session :=
  if isToken name then s.issue codec name arguments else s

/-- The wait looks through the events: it returns, or it reads on. -/
def takeEvents (s : Session) (device : String) (events : List Json) : Session :=
  let popped := popEvents device events
  let s :=
    { s with
      client := { s.client with events := popped.left }
      history := { s.history with taken := s.history.taken ++ popped.taken.map (device, ·) } }
  match popped.result with
  | some result => s.finish [.wait device result]
  | none => { s with call := some (.wait device) }

/-- The call fails; the greeting's failure ends the connection. -/
def fail (s : Session) (fault : Fault) : Session :=
  s.finish
    (match s.call with
    | some (.command _ id _) => [.noReply id fault]
    | some (.wait device) => [.wait device (.error fault)]
    | _ => [])

/-- The call is cancelled. A command fails with its timeout, and so does the greeting; a wait
returns that the device is still there. -/
def cancel (s : Session) : Session :=
  s.finish
    (match s.call with
    | some (.command name id _) => [.noReply id (.qmp ("QMP " ++ name ++ " timed out"))]
    | some (.wait device) => [.wait device (.ok false)]
    | _ => [])

/-- A message for the command with the id. The first command is part of connecting. -/
def receiveReply (s : Session) (id : UInt64) (message : Json) : Session :=
  match readReply id message with
  | .event =>
    let kept := keep s.client.events message
    { s with
      client := { s.client with events := kept.1 }
      history := { s.history with forgotten := s.history.forgotten ++ kept.2 } }
  | .other => s
  | .reply result =>
    { s with connected := s.connected || result.toBool }.finish [.command id result]

/-- A line for the call in progress. -/
def receive (codec : Codec) (s : Session) (line : List UInt8) : Session :=
  match codec.fromSlice line with
  | none => s.fail .json
  | some message =>
    match s.call with
    | none => s
    | some .greeting =>
      if (message.field "QMP").isSome then s.issue codec "qmp_capabilities" .null
      else s.fail (.qmp "QMP greeting is missing")
    | some (.command _ id _) => s.receiveReply id message
    | some (.wait device) =>
      if isEvent message then s.takeEvents device (s.client.events ++ [message]) else s

/-- Whether the call reads. -/
def reading (s : Session) : Bool :=
  match s.call with
  | some (.command _ _ unsent) => unsent.isEmpty
  | some _ => true
  | none => false

/-- `read_frame` is done with a part of the stream. -/
def cut (s : Session) (piece : LineReader.Piece UInt8) : Session :=
  { s with line := [], history := { s.history with pieces := s.history.pieces ++ [piece] } }

/-- One byte of `read_frame`. -/
def readByte (codec : Codec) (s : Session) (byte : UInt8) (rest : List UInt8) : Session :=
  let s := { s with incoming := rest }
  match frames.next s.line byte with
  | .more line => { s with line }
  | .complete line => (s.cut (.line line)).receive codec line
  | .overlong => (s.cut (.overlong (s.line ++ [byte]))).fail (.qmp "QMP frame exceeds size limit")

/-- The end of the connection in `read_frame`. -/
def readEnd (s : Session) (error : String) : Session :=
  { s with history := { s.history with torn := s.history.torn ++ s.line } }.fail
    (.qmp ("QMP I/O failed: " ++ error))

inductive Action where
  | arrive (bytes : List UInt8)
  | hangUp
  | execute (name : String) (arguments : Json)
  | waitDeviceDeleted (device : String)
  | send (n : Nat)
  | sendFails (error : String)
  | read (error : String)
  | drainEvents
  | cancel

/-- One step; nothing where the action cannot happen. The caller holds the client for its call. -/
def step (codec : Codec) (s : Session) : Action → Option Session
  | .arrive bytes =>
    if s.hungUp then none
    else
      some { s with
        incoming := s.incoming ++ bytes
        history := { s.history with received := s.history.received ++ bytes } }
  | .hangUp => some { s with hungUp := true }
  | .execute name arguments =>
    if s.connected ∧ s.call.isNone then some (s.execute codec name arguments) else none
  | .waitDeviceDeleted device =>
    if s.connected ∧ s.call.isNone then some (s.takeEvents device s.client.events) else none
  | .send n =>
    match s.call with
    | some (.command name id unsent) =>
      some { s with
        outgoing := s.outgoing ++ unsent.take n
        call := some (.command name id (unsent.drop n)) }
    | _ => none
  | .sendFails error =>
    match s.call with
    | some (.command _ _ (_ :: _)) => some (s.fail (.qmp ("QMP I/O failed: " ++ error)))
    | _ => none
  | .read error =>
    if s.reading then
      match s.incoming with
      | byte :: rest => some (s.readByte codec byte rest)
      | [] => if s.hungUp then some (s.readEnd error) else none
    else none
  | .drainEvents =>
    if s.call.isNone then
      some { s with
        client := { s.client with events := [] }
        history := { s.history with drained := s.history.drained ++ s.client.events } }
    else none
  | .cancel => if s.call.isSome then some s.cancel else none

/-- What is reached from a new connection by steps the policy `ok` admits. -/
inductive Reachable (codec : Codec) (ok : Session → Action → Prop) : Session → Prop where
  | start : Reachable codec ok {}
  | step {s s' : Session} {a : Action} (h : Reachable codec ok s) (hok : ok s a)
      (hstep : s.step codec a = some s') : Reachable codec ok s'

/-- A run given by its steps, as long as the policy admits them. -/
def play (codec : Codec) (ok : Session → Action → Bool) (s : Session) :
    List Action → Option Session
  | [] => some s
  | a :: actions =>
    if ok s a then (s.step codec a).bind fun s => s.play codec ok actions else none

theorem Reachable.play {codec : Codec} {ok : Session → Action → Bool} {s s' : Session}
    {actions : List Action} (h : Reachable codec (fun s a => ok s a = true) s)
    (hplay : s.play codec ok actions = some s') :
    Reachable codec (fun s a => ok s a = true) s' := by
  induction actions generalizing s with
  | nil =>
    cases hplay
    exact h
  | cons a actions ih =>
    simp only [Session.play, Option.ite_none_right_eq_some, Option.bind_eq_some_iff] at hplay
    obtain ⟨hok, next, hstep, hplay⟩ := hplay
    exact ih (.step h hok hstep) hplay

end Session

end MachineEmu.Qmp
