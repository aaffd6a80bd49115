import MachineEmu.Api.Events

/-!
# The clients of the event hub

Runs of the hub with its clients. A client subscribes to an instance and receives the stream of its
session; after a disconnection it resumes with the id of the last event that it received.

* `Session` — a subscription, and what its client has received.
* `World`, `World.step` — the hub with the sessions, and with a log of all that was published.
* `Reachable` — the runs.
-/

namespace MachineEmu

namespace Events

/-- A subscription to an instance. Its incarnation counts the times that the instance had been
closed, `since` is the event it was resumed after, and `start` the events that had been published
when it began. Source: `api/events.rs` `Subscription` and `stream_events`. -/
structure Session where
  instanceId : String
  incarnation : Nat
  since : Option (Nat × Nat)
  start : Nat
  initial : List Record
  taken : Nat := 0
  live : Bool := true

/-- The hub, the times that each instance was closed, the records that each incarnation of an
instance has published, and the sessions by the number of their subscriber. -/
structure World where
  hub : EventHub
  closes : String → Nat
  log : String → Nat → List Record
  sessions : Nat → Option Session

inductive Op where
  | publishState (instanceId data : String)
  | publishOperation (instanceId data : String)
  | publishQmp (instanceId data : String)
  | subscribe (instanceId : String) (cursor : Option Cursor) (snapshot : String)
  | resume (subscriber : Nat) (snapshot : String)
  | unsubscribe (instanceId : String) (subscriber : Nat)
  | closeInstance (instanceId : String)
  | receive (subscriber : Nat)
  | hangUp (subscriber : Nat)

namespace World

/-- The world of a new hub. -/
def initial (generation : String) : World where
  hub := EventHub.new generation
  closes := fun _ => 0
  log := fun _ _ => []
  sessions := fun _ => none

/-- The log of the world with one more record. -/
def logged (w : World) (instanceId : String) (record : Record) (i : String) (k : Nat) :
    List Record :=
  if i = instanceId ∧ k = w.closes instanceId then w.log i k ++ [record] else w.log i k

/-- The sessions of which those with the given property end. -/
def ended (w : World) (ends : Nat → Session → Bool) (n : Nat) : Option Session :=
  (w.sessions n).map fun session => { session with live := session.live && !ends n session }

/-- The stream of a session: its first records, and those that were sent to its channel. -/
def stream (w : World) (n : Nat) : List Record :=
  match w.sessions n with
  | some session => session.initial ++ (w.hub.channels n).sent
  | none => []

/-- The records of its stream that the client has received. -/
def received (w : World) (n : Nat) : List Record :=
  match w.sessions n with
  | some session =>
    session.initial.take session.taken ++ (w.hub.channels n).sent.take (w.hub.channels n).received
  | none => []

/-- Publish an event to the subscribers of an instance. -/
def publish (w : World) (instanceId : String) (kind : Kind) (data : String) : Except Fault World :=
  match w.hub.publish instanceId kind data true with
  | .error fault => .error fault
  | .ok (false, hub) => .ok { w with hub }
  | .ok (true, hub) =>
    .ok { w with
      hub
      log := w.logged instanceId (w.hub.record instanceId kind data)
      sessions := w.ended fun n session =>
        decide (session.instanceId = instanceId) && !(w.hub.channels n).accepts }

/-- The log after a subscription, which publishes a snapshot unless it replays. -/
def subscribedLog (w : World) (instanceId : String) (cursor : Option Cursor) (snapshot : String) :
    String → Nat → List Record :=
  if (w.hub.replayed instanceId cursor).isSome then w.log
  else w.logged instanceId (w.hub.record instanceId .snapshot snapshot)

/-- The session that a subscription begins. -/
def session (w : World) (instanceId : String) (cursor : Option Cursor) (since : Option (Nat × Nat))
    (snapshot : String) (initial : List Record) : Session where
  instanceId
  incarnation := w.closes instanceId
  since
  start := (w.subscribedLog instanceId cursor snapshot instanceId (w.closes instanceId)).length
  initial

/-- Subscribe to an instance. -/
def subscribe (w : World) (instanceId : String) (cursor : Option Cursor)
    (since : Option (Nat × Nat)) (snapshot : String) : Except Fault World :=
  match w.hub.subscribe instanceId cursor snapshot with
  | .error fault => .error fault
  | .ok (.error _, hub) => .ok { w with hub }
  | .ok (.ok (n, initial), hub) =>
    .ok { w with
      hub
      log := w.subscribedLog instanceId cursor snapshot
      sessions := Function.update w.sessions n
        (some (w.session instanceId cursor since snapshot initial)) }

/-- Subscribe again, after the last record that the client of a session received; an id that does
not parse is a bad request. -/
def resume (w : World) (n : Nat) (snapshot : String) : Except Fault World :=
  match w.sessions n with
  | none => .ok w
  | some session =>
    match (w.received n).getLast? with
    | none => w.subscribe session.instanceId none none snapshot
    | some record =>
      match Cursor.parse record.id with
      | none => .ok w
      | some cursor =>
        w.subscribe session.instanceId (some cursor)
          (some (session.incarnation, record.sequence)) snapshot

/-- Unsubscribe from an instance. -/
def unsubscribe (w : World) (instanceId : String) (subscriber : Nat) : World :=
  { w with
    hub := w.hub.unsubscribe instanceId subscriber
    sessions := w.ended fun n session =>
      decide (n = subscriber) && decide (session.instanceId = instanceId) }

/-- Close an instance. -/
def closeInstance (w : World) (instanceId : String) : Except Fault World :=
  match w.hub.closeInstance instanceId with
  | .error fault => .error fault
  | .ok hub =>
    .ok { w with
      hub
      closes := Function.update w.closes instanceId (w.closes instanceId + 1)
      sessions := w.ended fun _ session => decide (session.instanceId = instanceId) }

/-- The client of a session receives the next record of its stream: the first records, and then
those of its channel. -/
def receive (w : World) (n : Nat) : World :=
  match w.sessions n with
  | none => w
  | some session =>
    if session.taken < session.initial.length then
      { w with
        sessions := Function.update w.sessions n
          (some { session with taken := session.taken + 1 }) }
    else
      { w with
        hub := { w.hub with
          channels := Function.update w.hub.channels n (w.hub.channels n).receive } }

/-- The client of a session drops its channel. -/
def hangUp (w : World) (n : Nat) : World :=
  { w with
    hub := { w.hub with
      channels := Function.update w.hub.channels n { w.hub.channels n with closed := true } } }

def step (w : World) : Op → Except Fault World
  | .publishState instanceId data => w.publish instanceId .state data
  | .publishOperation instanceId data => w.publish instanceId .operation data
  | .publishQmp instanceId data => w.publish instanceId .qmp data
  | .subscribe instanceId cursor snapshot => w.subscribe instanceId cursor none snapshot
  | .resume n snapshot => w.resume n snapshot
  | .unsubscribe instanceId n => .ok (w.unsubscribe instanceId n)
  | .closeInstance instanceId => w.closeInstance instanceId
  | .receive n => .ok (w.receive n)
  | .hangUp n => .ok (w.hangUp n)

end World

/-- The worlds that the allowed steps reach from a new hub. -/
inductive Reachable (allowed : World → Op → Prop) (generation : String) : World → Prop
  | initial : Reachable allowed generation (World.initial generation)
  | step {w w' : World} {op : Op} :
      Reachable allowed generation w → allowed w op → w.step op = .ok w' →
        Reachable allowed generation w'

end Events

end MachineEmu
