import MachineEmu.Domain
import MachineEmu.Lib.Decimal
import Mathlib.Data.Finset.Card

/-!
# The event hub

The events that the daemon publishes of its instances. The hub keeps a bounded history of each
instance, so that a client that lost its connection can resume after the last event it received,
and sends every new event to the subscribers of the instance.

* `EventHub` — the histories, and the channels of the subscribers.
* `EventHub.publish`, `EventHub.subscribe`, `EventHub.unsubscribe`, `EventHub.closeInstance` — the
  operations; an arithmetic fault ends them.
* `Cursor.parse` — the event id that a client sends back.
-/

namespace MachineEmu

open Lib List

namespace Events

/-! ## Limits -/

def maxEventBytes : Nat := 16 * 1024
def instanceHistoryBytes : Nat := 1024 * 1024
def globalHistoryBytes : Nat := 32 * 1024 * 1024
def historyEvents : Nat := 256
def instanceSubscribers : Nat := 8
def globalSubscribers : Nat := 128

/-- The capacity of the channel of a subscriber. -/
def channelCapacity : Nat := 64

/-- What ends an operation without a result: a counter of 64 bits that overflows, a subtraction
below zero, a missing history, or a loop that makes no progress. -/
inductive Fault where
  | overflow | underflow | missing | endless

/-- Subtract. -/
def subtract (n k : Nat) : Except Fault Nat := if k ≤ n then .ok (n - k) else .error .underflow

/-! ## Records -/

/-- The kind of an event. Source: `api/events.rs`, the names that `publish` is called with. -/
inductive Kind where
  | snapshot | state | operation | qmp
  deriving DecidableEq

/-- Source: `api/events.rs` `Record`. -/
structure Record where
  sequence : Nat
  order : Nat
  kind : Kind
  id : String
  data : String
  deriving DecidableEq

/-- Source: `api/events.rs` `Record::bytes`. -/
def Record.bytes (record : Record) : Nat := record.id.utf8ByteSize + record.data.utf8ByteSize + 32

/-- The bytes of some records. -/
def size (records : List Record) : Nat := (records.map Record.bytes).sum

/-- The channel of a subscriber: what was sent, how much of it was received, and whether the
receiver has been dropped. -/
structure Channel where
  sent : List Record := []
  received : Nat := 0
  closed : Bool := false

namespace Channel

/-- Whether `try_send` succeeds. -/
def accepts (channel : Channel) : Bool :=
  !channel.closed && decide (channel.sent.length - channel.received < channelCapacity)

/-- `try_send`. -/
def send (channel : Channel) (record : Record) : Channel :=
  if channel.accepts then { channel with sent := channel.sent ++ [record] } else channel

/-- `recv`, when there is a message. -/
def receive (channel : Channel) : Channel :=
  if channel.received < channel.sent.length then
    { channel with received := channel.received + 1 }
  else channel

end Channel

/-- The history of an instance. A subscriber's sender is its channel's, which has the subscriber's
number. Source: `api/events.rs` `History`. -/
structure History where
  nextSequence : Nat := 0
  bytes : Nat := 0
  records : List Record := []
  subscribers : Finset Nat := ∅

/-- The first records of a stream: those after a sequence, or the snapshot. -/
def History.initial (history : History) (replayed : Option Nat) : List Record :=
  match replayed with
  | some sequence => history.records.filter fun record => sequence < record.sequence
  | none => history.records.getLast?.toList

/-- The hub, and the channels of its subscribers. Source: `api/events.rs` `EventHub`. -/
structure EventHub where
  generation : String
  histories : SortedMap String History
  bytes : Nat
  nextOrder : Nat
  nextSubscriber : Nat
  channels : Nat → Channel

/-- Source: `api/events.rs` `EventHub::new`. -/
def EventHub.new (generation : String) : EventHub where
  generation
  histories := SortedMap.empty
  bytes := 0
  nextOrder := 0
  nextSubscriber := 0
  channels := fun _ => {}

/-! ## Cursors -/

/-- Source: `api/events.rs` `Cursor`. -/
structure Cursor where
  instanceId : String
  generation : String
  sequence : Nat

/-- The id of an event. -/
def eventId (instanceId generation : String) (sequence : Nat) : String :=
  instanceId ++ ":" ++ generation ++ ":" ++ toString sequence

/-- Source: `api/events.rs` `Cursor::parse`. -/
def Cursor.parse (value : String) : Option Cursor :=
  match (value.toList.splitOn ':') with
  | [instanceId, generation, sequence] =>
    if Id.isValid (String.ofList instanceId) = false ∨ generation.length ≠ 32 ∨
        generation.all isHexDigit = false ∨ sequence = [] ∨
        sequence.all Char.isDigit = false then none
    else
      let n := Nat.ofDigitChars 10 sequence 0
      if 2 ^ 64 ≤ n ∨ n = 0 then none
      else some ⟨String.ofList instanceId, String.ofList generation, n⟩
  | _ => none

/-- A generation of a hub: 16 bytes in hexadecimal. -/
def IsGeneration (generation : String) : Prop :=
  generation.toList.length = 32 ∧ generation.toList.all isHexDigit = true

variable {instanceId : String}

theorem colon_notMem_of_isValid (h : Id.isValid instanceId = true) : ':' ∉ instanceId.toList := by
  unfold Id.isValid at h
  intro hmem
  split at h
  · cases h
  · next c cs heq =>
    rw [heq] at hmem
    simp only [Bool.and_eq_true] at h
    have hvalid := all_eq_true.1 h.2 ':' hmem
    revert hvalid
    decide

theorem colon_notMem_of_isGeneration {generation : String} (h : IsGeneration generation) :
    ':' ∉ generation.toList := by
  intro hmem
  have hhex := all_eq_true.1 h.2 ':' hmem
  revert hhex
  decide

theorem colon_notMem_toString (n : Nat) : ':' ∉ (toString n).toList := by
  intro hmem
  have hdigit := isDigit_of_mem_toString hmem
  revert hdigit
  decide

/-- The id of an event is parsed to its cursor. -/
theorem Cursor.parse_eventId {generation : String} {sequence : Nat}
    (hinstance : Id.isValid instanceId = true) (hgeneration : IsGeneration generation)
    (hpos : 0 < sequence) (hlt : sequence < 2 ^ 64) :
    Cursor.parse (eventId instanceId generation sequence) =
      some ⟨instanceId, generation, sequence⟩ := by
  have hfields : (eventId instanceId generation sequence).toList.splitOn ':' =
      [instanceId.toList, generation.toList, (toString sequence).toList] := by
    have hjoin : (eventId instanceId generation sequence).toList =
        [':'].intercalate [instanceId.toList, generation.toList, (toString sequence).toList] := by
      simp [eventId, List.intercalate]
    rw [hjoin]
    apply splitOn_intercalate
    · intro field hfield
      simp only [mem_cons, not_mem_nil, or_false] at hfield
      rcases hfield with rfl | rfl | rfl
      · exact colon_notMem_of_isValid hinstance
      · exact colon_notMem_of_isGeneration hgeneration
      · exact colon_notMem_toString sequence
    · simp
  unfold Cursor.parse
  rw [hfields]
  dsimp only
  rw [String.ofList_toList, String.ofList_toList, if_neg, ofDigitChars_toString, if_neg]
  · omega
  · rw [hinstance, hgeneration.1, hgeneration.2, toString_all_isDigit]
    simp

theorem utf8ByteSize_ofList_le (cs : List Char) :
    (String.ofList cs).utf8ByteSize ≤ 4 * cs.length := by
  induction cs with
  | nil => simp
  | cons c cs ih =>
    have hle := Char.utf8Size_le_four c
    rw [String.ofList_cons, String.utf8ByteSize_append, String.utf8ByteSize_singleton, length_cons]
    omega

/-- A character is at most four bytes long. -/
theorem utf8ByteSize_le (s : String) : s.utf8ByteSize ≤ 4 * s.toList.length := by
  have hle := utf8ByteSize_ofList_le s.toList
  rwa [String.ofList_toList] at hle

theorem length_of_isValid (h : Id.isValid instanceId = true) : instanceId.toList.length ≤ 64 := by
  unfold Id.isValid at h
  split at h
  · cases h
  · next c cs heq =>
    rw [heq]
    simp only [Bool.and_eq_true, decide_eq_true_eq] at h
    exact h.1.1

/-- An event that is not too large is far below the limits of the histories. -/
theorem bytes_le {record : Record} {generation : String}
    (hid : record.id = eventId instanceId generation record.sequence)
    (hinstance : Id.isValid instanceId = true) (hgeneration : IsGeneration generation)
    (hsequence : record.sequence < 2 ^ 64) (hdata : record.data.utf8ByteSize ≤ maxEventBytes) :
    record.bytes ≤ instanceHistoryBytes := by
  have hinstanceBytes := utf8ByteSize_le instanceId
  have hinstanceLength := length_of_isValid hinstance
  have hgenerationBytes := utf8ByteSize_le generation
  have hgenerationLength := hgeneration.1
  have hsequenceBytes := utf8ByteSize_le (toString record.sequence)
  have hsequenceLength : (toString record.sequence).toList.length ≤ 20 :=
    length_toString (by omega) (by decide)
  have hcolon : ":".utf8ByteSize = 1 := by decide
  unfold Record.bytes
  rw [hid]
  unfold eventId
  rw [String.utf8ByteSize_append, String.utf8ByteSize_append, String.utf8ByteSize_append,
    String.utf8ByteSize_append, hcolon]
  unfold maxEventBytes at hdata
  unfold instanceHistoryBytes
  omega

/-! ## Publishing -/

/-- Drop the oldest records of an instance until it is within its limits; returns the bytes of the
hub and of the instance, and the records that stay. -/
def evictInstance (total bytes : Nat) : List Record → Except Fault (Nat × Nat × List Record)
  | [] => if bytes > instanceHistoryBytes then .error .endless else .ok (total, bytes, [])
  | old :: records =>
    if records.length + 1 > historyEvents ∨ bytes > instanceHistoryBytes then
      match subtract bytes old.bytes, subtract total old.bytes with
      | .ok bytes, .ok total => evictInstance total bytes records
      | _, _ => .error .underflow
    else .ok (total, bytes, old :: records)

/-- The instance with the oldest record, and its order. -/
def oldest : List (String × History) → Option (String × Nat)
  | [] => none
  | (id, history) :: histories =>
    match history.records.head?, oldest histories with
    | none, found => found
    | some item, none => some (id, item.order)
    | some item, some (other, order) =>
      if item.order ≤ order then some (id, item.order) else some (other, order)

/-- Drop the oldest records of the hub until it is within its limit, `fuel` of them at most. -/
def evictGlobal : Nat → SortedMap String History → Nat →
    Except Fault (SortedMap String History × Nat)
  | 0, _, _ => .error .endless
  | fuel + 1, histories, bytes =>
    if bytes > globalHistoryBytes then
      match oldest histories.entries with
      | none => .ok (histories, bytes)
      | some (id, _) =>
        match histories.get? id with
        | none => evictGlobal fuel histories bytes
        | some history =>
          match history.records with
          | [] => evictGlobal fuel histories bytes
          | old :: records =>
            match subtract history.bytes old.bytes, subtract bytes old.bytes with
            | .ok instanceBytes, .ok bytes =>
              evictGlobal fuel
                (histories.insert id { history with bytes := instanceBytes, records }) bytes
            | _, _ => .error .underflow
    else .ok (histories, bytes)

namespace EventHub

/-- The history of an instance, or an empty one. -/
def history (hub : EventHub) (instanceId : String) : History :=
  (hub.histories.get? instanceId).getD {}

/-- The number of the records of the hub, which bounds what it can drop. -/
def retained (histories : SortedMap String History) : Nat :=
  histories.total fun history => history.records.length

/-- The next record of an instance. -/
def record (hub : EventHub) (instanceId : String) (kind : Kind) (data : String) : Record where
  sequence := (hub.history instanceId).nextSequence + 1
  order := hub.nextOrder + 1
  kind := kind
  id := eventId instanceId hub.generation ((hub.history instanceId).nextSequence + 1)
  data := data

/-- The subscribers of an instance after an event: a broadcast drops those that take no more. -/
def keptSubscribers (hub : EventHub) (instanceId : String) (broadcast : Bool) : Finset Nat :=
  if broadcast then (hub.history instanceId).subscribers.filter fun n => (hub.channels n).accepts
  else (hub.history instanceId).subscribers

/-- The channels after an event: a broadcast sends it to the subscribers of the instance. -/
def sentTo (hub : EventHub) (instanceId : String) (record : Record) (broadcast : Bool) (n : Nat) :
    Channel :=
  if broadcast ∧ n ∈ (hub.history instanceId).subscribers then (hub.channels n).send record
  else hub.channels n

/-- Publish an event, whose JSON text is `data`; returns whether it was. Source: `api/events.rs`
`EventHub::publish`. -/
def publish (hub : EventHub) (instanceId : String) (kind : Kind) (data : String)
    (broadcast : Bool) : Except Fault (Bool × EventHub) :=
  if data.utf8ByteSize > maxEventBytes then .ok (false, hub)
  else
    let history := hub.history instanceId
    let record := hub.record instanceId kind data
    if 2 ^ 64 ≤ record.order ∨ 2 ^ 64 ≤ record.sequence then .error .overflow
    else
      let subscribers := hub.keptSubscribers instanceId broadcast
      let channels := hub.sentTo instanceId record broadcast
      match evictInstance (hub.bytes + record.bytes) (history.bytes + record.bytes)
          (history.records ++ [record]) with
      | .error fault => .error fault
      | .ok (total, bytes, records) =>
        let histories := hub.histories.insert instanceId
          { nextSequence := record.sequence, bytes, records, subscribers }
        match evictGlobal (retained histories + 1) histories total with
        | .error fault => .error fault
        | .ok (histories, bytes) =>
          .ok (true, { hub with histories, bytes, nextOrder := record.order, channels })

/-- Whether the history of an instance has every record after a cursor. -/
def replayable (hub : EventHub) (instanceId : String) (cursor : Cursor) : Bool :=
  if cursor.instanceId ≠ instanceId ∨ cursor.generation ≠ hub.generation then false
  else
    match hub.histories.get? instanceId with
    | none => false
    | some history =>
      let first := (history.records.head?.map Record.sequence).getD (history.nextSequence + 1)
      decide (first - 1 ≤ cursor.sequence) && decide (cursor.sequence ≤ history.nextSequence)

/-- The sequence after which the history of an instance is replayed, or nothing. -/
def replayed (hub : EventHub) (instanceId : String) (cursor : Option Cursor) : Option Nat :=
  (cursor.filter (hub.replayable instanceId)).map Cursor.sequence

/-- The errors of `subscribe`, by the name of their HTTP status. -/
inductive Refusal where
  | tooManyRequests | serviceUnavailable

/-- The subscribers of the hub. -/
def subscriberCount (hub : EventHub) : Nat :=
  hub.histories.total fun history => history.subscribers.card

/-- The hub with one more subscriber, whose channel is new. -/
def withSubscriber (hub : EventHub) (instanceId : String) (history : History) : EventHub :=
  { hub with
    histories := hub.histories.insert instanceId
      { history with subscribers := insert (hub.nextSubscriber + 1) history.subscribers }
    nextSubscriber := hub.nextSubscriber + 1
    channels := Function.update hub.channels (hub.nextSubscriber + 1) {} }

/-- Add a subscriber; returns its number, which is its channel's, and the first records of its
stream. -/
def register (hub : EventHub) (instanceId : String) (replayed : Option Nat) :
    Except Fault ((Nat × List Record) × EventHub) :=
  match hub.histories.get? instanceId with
  | none => .error .missing
  | some history =>
    if 2 ^ 64 ≤ hub.nextSubscriber + 1 then .error .overflow
    else
      .ok ((hub.nextSubscriber + 1, history.initial replayed), hub.withSubscriber instanceId history)

/-- Subscribe to an instance after a cursor; `snapshot` is the JSON text of its state. Source:
`api/events.rs` `EventHub::subscribe`. -/
def subscribe (hub : EventHub) (instanceId : String) (cursor : Option Cursor)
    (snapshot : String) : Except Fault (Except Refusal (Nat × List Record) × EventHub) :=
  if globalSubscribers ≤ hub.subscriberCount ∨
      instanceSubscribers ≤ (hub.history instanceId).subscribers.card then
    .ok (.error .tooManyRequests, hub)
  else
    let replayed := hub.replayed instanceId cursor
    match (if replayed.isSome then .ok (true, hub)
      else hub.publish instanceId .snapshot snapshot false) with
    | .error fault => .error fault
    | .ok (false, hub) => .ok (.error .serviceUnavailable, hub)
    | .ok (true, hub) =>
      (hub.register instanceId replayed).map fun registered => (.ok registered.1, registered.2)

/-- Source: `api/events.rs` `EventHub::unsubscribe`. -/
def unsubscribe (hub : EventHub) (instanceId : String) (subscriber : Nat) : EventHub :=
  match hub.histories.get? instanceId with
  | none => hub
  | some history =>
    { hub with
      histories := hub.histories.insert instanceId
        { history with subscribers := history.subscribers.erase subscriber } }

/-- Source: `api/events.rs` `EventHub::close_instance`. -/
def closeInstance (hub : EventHub) (instanceId : String) : Except Fault EventHub :=
  match hub.histories.get? instanceId with
  | none => .ok hub
  | some history =>
    match subtract hub.bytes history.bytes with
    | .error fault => .error fault
    | .ok bytes => .ok { hub with histories := hub.histories.erase instanceId, bytes }

end EventHub

end Events

end MachineEmu
