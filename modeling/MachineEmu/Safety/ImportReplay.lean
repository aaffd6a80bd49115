import MachineEmu.Api.Events
import MachineEmu.Api.ImportEvents
import MachineEmu.Lib.Runs
import MachineEmu.Lib.Tracking

/-!
# Replay of import events

A client of an import job gets every event after its snapshot, each once and in order, as long as
it comes back before the history has dropped an event that it has not received.

* `Delivers`, `LosesNothing` — the statement.
* `Retained` — what a client that comes back relies on.
* `Logged`, `Serves` — what a run keeps.
* `losesNothing_of_retained` — the result.
-/

namespace MachineEmu

open Lib Lib.Tracking Function Option

namespace Imports

/-! ## Statements -/

/-- A stream of snapshots and events of a log that has no gap. -/
def Unbroken (log stream : List ImageImportEvent) : Prop :=
  Tracks ImageImportEvent.sequence (fun event => event.kind = .snapshot) log stream

/-- A stream that has the last event of a log. -/
def Complete (log stream : List ImageImportEvent) : Prop :=
  UpToDate ImageImportEvent.sequence log stream

/-- A snapshot shows the final status of the job. -/
def Shows (snapshot : ImageImportEvent) (kind : Kind) : Prop :=
  snapshot.data.field "status" = some (.str kind.name)

/-- A stream has the event, or a snapshot after it that shows the same final status. -/
def Tells (stream : List ImageImportEvent) (event : ImageImportEvent) : Prop :=
  event ∈ stream ∨ ∃ snapshot ∈ stream,
    snapshot.kind = .snapshot ∧ event.sequence < snapshot.sequence ∧ Shows snapshot event.kind

namespace World

variable (w : World) (client : Nat)

/-- What a client has received, and what it will receive over its connection. -/
def stream : List ImageImportEvent :=
  (w.clients client).received ++
    match (w.clients client).connection with
    | none => []
    | some connection =>
      connection.sent ++ (w.streams connection.subscriber).initial ++
        (w.streams connection.subscriber).queue

/-- The stream of the client's connection is still a subscriber's. -/
def Live : Prop :=
  ∃ connection, (w.clients client).connection = some connection ∧
    connection.subscriber ∈ w.job.subscribers ∧ (w.streams connection.subscriber).closed = false

end World

/-- What a client receives has no gap, and is all there is as long as its connection is a
subscriber's. It is told the end of the job, and a client that comes back is a subscriber again. -/
structure Delivers (w : World) (client : Nat) : Prop where
  unbroken : Unbroken w.published (w.stream client)
  complete : w.Live client → Complete w.published (w.stream client)
  told : ∀ event ∈ w.published, event.kind.isTerminal = true →
    ∀ last, (w.clients client).received.getLast? = some last → event.sequence ≤ last.sequence →
      Tells (w.clients client).received event
  tells : w.Live client → ∀ event ∈ w.published, event.kind.isTerminal = true →
    Tells (w.stream client) event
  returns : ∀ w', w.step (.connect client) = some w' → w'.Live client

/-- No client misses an event. -/
def LosesNothing (w : World) : Prop := ∀ client, Delivers w client

/-- A client that comes back has received all events that the history has dropped. -/
def Retained (w : World) : Op → Prop
  | .connect client => ∀ last, (w.clients client).received.getLast? = some last →
      ∀ event ∈ w.published, last.sequence < event.sequence → event ∈ w.job.events
  | _ => True

/-! ## Cursors -/

/-- The id of an event is parsed to its number. -/
theorem cursor_sse (event : ImageImportEvent) (importId : String)
    (h : event.sequence < 2 ^ 64) : cursor (some (event.sse importId).id) = some event.sequence := by
  have hid : (event.sse importId).id.toList =
      importId.toList ++ ':' :: (toString event.sequence).toList := by
    simp [ImageImportEvent.sse]
  unfold cursor
  rw [bind_some, hid, List.splitOn_append_cons_self,
    List.splitOn_eq_singleton (Events.colon_notMem_toString event.sequence),
    List.getLast?_concat, bind_some, parseUnsigned_toString h]

/-! ## What a run keeps -/

/-- The job and its log: the numbers increase, the history is the end of the log, and after the
last event the job has its final status. -/
structure Logged (job : ImageImportJob) (worker : Worker) (log : List ImageImportEvent) : Prop where
  small : job.nextSequence < 2 ^ 64
  increasing : log.Pairwise fun a b => a.sequence < b.sequence
  bounded : ∀ event ∈ log, event.sequence ≤ job.nextSequence
  kinds : ∀ event ∈ log, event.kind ≠ .snapshot
  history : job.events <:+ log
  settled : ∀ kind, worker = .settled kind → kind.isTerminal = true ∧ job.status = kind.name
  ended : ∀ event ∈ log, event.kind.isTerminal = true →
    worker = .done ∧ job.status = event.kind.name
  numbered : ∀ n ∈ job.subscribers, n ≤ job.nextSubscriber

/-- The stream of a client: it has no gap and nothing missing while it is live, and its snapshots
after the last event show the final status. -/
structure Serves (log stream : List ImageImportEvent) (next : Nat) (live : Prop) : Prop where
  unbroken : Unbroken log stream
  complete : live → Complete log stream
  bounded : ∀ event ∈ stream, event.sequence ≤ next
  shows : ∀ snapshot ∈ stream, snapshot.kind = .snapshot → ∀ event ∈ log,
    event.kind.isTerminal = true → snapshot.sequence < event.sequence ∨
      event.sequence < snapshot.sequence ∧ Shows snapshot event.kind

variable {w w' : World} {job : ImageImportJob} {worker : Worker}
  {log stream : List ImageImportEvent} {next : Nat} {live : Prop} {event : ImageImportEvent}

/-- The same stream, or the beginning of it when it is not live any more. -/
theorem Serves.of_front {front : List ImageImportEvent} {live' : Prop} {next' : Nat}
    (h : Serves log stream next live) (hfront : front <+: stream) (hnext : next ≤ next')
    (hlive : live' → live ∧ front = stream) : Serves log front next' live' where
  unbroken := Tracks.of_front h.unbroken hfront
  complete h' := by
    obtain ⟨hold, rfl⟩ := hlive h'
    exact h.complete hold
  bounded event hevent := (h.bounded event (hfront.subset hevent)).trans hnext
  shows snapshot hsnapshot := h.shows snapshot (hfront.subset hsnapshot)

/-- An event that is published. -/
theorem Serves.publish (h : Serves log stream next live) (hsequence : event.sequence = next + 1) :
    Serves (log ++ [event]) stream (next + 1) False where
  unbroken := Tracks.append h.unbroken [event]
  complete := False.elim
  bounded other hother := (h.bounded other hother).trans (Nat.le_succ next)
  shows snapshot hsnapshot hkind other hother hterminal := by
    rcases List.mem_append.1 hother with hother | hother
    · exact h.shows snapshot hsnapshot hkind other hother hterminal
    · rw [List.mem_singleton] at hother
      have hle := h.bounded snapshot hsnapshot
      left
      rw [hother]
      omega

/-- An event that is published and sent to the stream. -/
theorem Serves.send (h : Serves log stream next live) (hlive : live)
    (hsequence : event.sequence = next + 1) (hkind : event.kind ≠ .snapshot) (live' : Prop) :
    Serves (log ++ [event]) (stream ++ [event]) (next + 1) live' := by
  have hlt : ∀ other ∈ stream, other.sequence < event.sequence := by
    intro other hother
    have hle := h.bounded other hother
    omega
  obtain ⟨hunbroken, hcomplete⟩ := Tracks.send h.unbroken (h.complete hlive) hlt
  have hskip := h.publish hsequence
  constructor
  · exact hunbroken
  · exact fun _ => hcomplete
  · intro other hother
    rcases List.mem_append.1 hother with hother | hother
    · exact hskip.bounded other hother
    · rw [List.mem_singleton] at hother
      rw [hother, hsequence]
  · intro snapshot hsnapshot hsnap
    rcases List.mem_append.1 hsnapshot with hsnapshot | hsnapshot
    · exact hskip.shows snapshot hsnapshot hsnap
    · rw [List.mem_singleton] at hsnapshot
      rw [hsnapshot] at hsnap
      exact absurd hsnap hkind

/-- A stream that begins with a snapshot of the job. -/
theorem serves_snapshot (hlogged : Logged job worker log) (importId : String) (live : Prop)
    (hdata : event.data = job.statusJson importId) (hkind : event.kind = .snapshot)
    (hsequence : event.sequence = job.nextSequence + 1) :
    Serves log [event] (job.nextSequence + 1) live := by
  have hlog : ∀ other ∈ log, other.sequence ≤ event.sequence := by
    intro other hother
    have hle := hlogged.bounded other hother
    omega
  obtain ⟨hunbroken, hcomplete⟩ := @Tracks.restart _ ImageImportEvent.sequence
    (fun event => event.kind = .snapshot) log event hkind hlog
  constructor
  · exact hunbroken
  · exact fun _ => hcomplete
  · intro other hother
    rw [List.mem_singleton] at hother
    rw [hother, hsequence]
  · intro snapshot hsnapshot _ other hother hterminal
    rw [List.mem_singleton] at hsnapshot
    have hle := hlogged.bounded other hother
    obtain ⟨-, hstatus⟩ := hlogged.ended other hother hterminal
    right
    rw [hsnapshot]
    constructor
    · omega
    · unfold Shows
      rw [hdata, ← hstatus]
      simp [ImageImportJob.statusJson, Json.field_ofFields]

/-- A stream that goes on with all that the history has after its last event. -/
theorem Serves.resume {front : List ImageImportEvent} {last : ImageImportEvent}
    (h : Serves log stream next live) (hlogged : Logged job worker log)
    (hnext : next = job.nextSequence) (hfront : front <+: stream)
    (hlast : front.getLast? = some last)
    (hretained : ∀ event ∈ log, last.sequence < event.sequence → event ∈ job.events)
    (live' : Prop) :
    Serves log (front ++ job.events.filter fun event => last.sequence < event.sequence) next
      live' := by
  have hreplay : (job.events.filter fun event => last.sequence < event.sequence) =
      after ImageImportEvent.sequence log last.sequence :=
    after_suffix hlogged.history hlogged.increasing hretained
  have hbegun : Serves log front next False := h.of_front hfront le_rfl False.elim
  obtain ⟨hunbroken, hcomplete⟩ := Tracks.resume hbegun.unbroken hlogged.increasing hlast
  rw [hreplay]
  constructor
  · exact hunbroken
  · exact fun _ => hcomplete
  · intro event hevent
    rcases List.mem_append.1 hevent with hevent | hevent
    · exact hbegun.bounded event hevent
    · rw [hnext]
      exact hlogged.bounded event (mem_after.1 hevent).1
  · intro snapshot hsnapshot hkind
    rcases List.mem_append.1 hsnapshot with hsnapshot | hsnapshot
    · exact hbegun.shows snapshot hsnapshot hkind
    · exact absurd hkind (hlogged.kinds snapshot (mem_after.1 hsnapshot).1)

/-- Whatever part of a stream got past the last event of the job tells how the job ended. -/
theorem Serves.tells {front : List ImageImportEvent} {last : ImageImportEvent}
    (h : Serves log stream next live)
    (hincreasing : log.Pairwise fun a b => a.sequence < b.sequence) (hfront : front <+: stream)
    (hevent : event ∈ log) (hterminal : event.kind.isTerminal = true)
    (hlast : front.getLast? = some last) (hle : event.sequence ≤ last.sequence) :
    Tells front event := by
  have hbegun : Serves log front next False := h.of_front hfront le_rfl False.elim
  rcases Tracks.mem_or_fresh hbegun.unbroken hincreasing hevent hlast hle with
    hmem | ⟨snapshot, hsnapshot, hkind, hpast⟩
  · exact .inl hmem
  · rcases hbegun.shows snapshot hsnapshot hkind event hevent hterminal with hbefore | hafter
    · omega
    · exact .inr ⟨snapshot, hsnapshot, hkind, hafter⟩

/-! ## Steps -/

/-- What every reachable state satisfies. -/
structure Good (w : World) : Prop where
  logged : Logged w.job w.worker w.published
  serves : ∀ client, Serves w.published (w.stream client) w.job.nextSequence (w.Live client)
  opened : ∀ client connection, (w.clients client).connection = some connection →
    connection.subscriber ≤ w.job.nextSubscriber
  apart : ∀ a b connection connection', (w.clients a).connection = some connection →
    (w.clients b).connection = some connection' →
      connection.subscriber = connection'.subscriber → a = b

variable {client : Nat} {connection : Connection}

theorem stream_of_connection (h : (w.clients client).connection = some connection) :
    w.stream client = (w.clients client).received ++ (connection.sent ++
      (w.streams connection.subscriber).initial ++ (w.streams connection.subscriber).queue) := by
  unfold World.stream
  rw [h]

theorem received_prefix_stream (w : World) (client : Nat) :
    (w.clients client).received <+: w.stream client := List.prefix_append _ _

theorem not_live_of_none (h : (w.clients client).connection = none) : ¬w.Live client := by
  rintro ⟨connection, hconnection, -⟩
  rw [h] at hconnection
  cases hconnection

/-- A step that publishes nothing and opens no connection. -/
theorem Good.of_front (h : Good w) (hlogged : Logged w'.job w'.worker w.published)
    (hpublished : w'.published = w.published)
    (hsequence : w'.job.nextSequence = w.job.nextSequence)
    (hsubscriber : w'.job.nextSubscriber = w.job.nextSubscriber)
    (hconnection : ∀ client connection, (w'.clients client).connection = some connection →
      ∃ before, (w.clients client).connection = some before ∧
        before.subscriber = connection.subscriber)
    (hstream : ∀ client, w'.stream client <+: w.stream client ∧
      (w'.Live client → w.Live client ∧ w'.stream client = w.stream client)) : Good w' := by
  constructor
  · rw [hpublished]
    exact hlogged
  · intro client
    rw [hpublished, hsequence]
    exact (h.serves client).of_front (hstream client).1 le_rfl (hstream client).2
  · intro client connection hclient
    obtain ⟨before, hbefore, hsame⟩ := hconnection client connection hclient
    rw [hsubscriber, ← hsame]
    exact h.opened client before hbefore
  · intro a b connection connection' ha hb heq
    obtain ⟨before, hbefore, hsame⟩ := hconnection a connection ha
    obtain ⟨before', hbefore', hsame'⟩ := hconnection b connection' hb
    exact h.apart a b before before' hbefore hbefore' (by omega)

/-- A step of the worker that only changes the status of the job. -/
theorem Good.of_job (h : Good w) {job : ImageImportJob} {worker : Worker}
    (hlogged : Logged job worker w.published)
    (hsequence : job.nextSequence = w.job.nextSequence)
    (hsubscriber : job.nextSubscriber = w.job.nextSubscriber)
    (hsubscribers : job.subscribers = w.job.subscribers) : Good { w with job, worker } := by
  refine h.of_front hlogged rfl hsequence hsubscriber
    (fun client connection hclient => ⟨connection, hclient, rfl⟩) fun client => ?_
  refine ⟨List.prefix_rfl, ?_⟩
  rintro ⟨connection, hconnection, hmem, hclosed⟩
  refine ⟨⟨connection, hconnection, ?_, hclosed⟩, rfl⟩
  rwa [← hsubscribers]

/-- While the worker is at work the last event has not been published. -/
theorem Logged.not_terminal (h : Logged job worker log) (hworker : worker ≠ .done) :
    ∀ event ∈ log, event.kind.isTerminal = false := by
  intro event hevent
  by_contra hterminal
  rw [Bool.not_eq_false] at hterminal
  exact hworker (h.ended event hevent hterminal).1

variable {job' : ImageImportJob} {worker' : Worker}

/-- The status of the job changes before its last event. -/
theorem Logged.of_status (h : Logged job .running log)
    (hsequence : job'.nextSequence = job.nextSequence) (hevents : job'.events = job.events)
    (hsubscriber : job'.nextSubscriber = job.nextSubscriber)
    (hsubscribers : job'.subscribers = job.subscribers)
    (hsettled : ∀ kind, worker' = .settled kind →
      kind.isTerminal = true ∧ job'.status = kind.name) : Logged job' worker' log where
  small := hsequence ▸ h.small
  increasing := h.increasing
  bounded := hsequence ▸ h.bounded
  kinds := h.kinds
  history := hevents ▸ h.history
  settled := hsettled
  ended event hevent hterminal := by
    rw [h.not_terminal (by decide) event hevent] at hterminal
    cases hterminal
  numbered := by
    rw [hsubscriber, hsubscribers]
    exact h.numbered

/-! ### Publishing -/

theorem publishImportEvent_eq_some {streams streams' : Nat → Stream} {kind : Kind} {data : Json}
    (h : publishImportEvent job streams kind data = some (event, job', streams')) :
    job.nextSequence + 1 < 2 ^ 64 ∧ event = ⟨job.nextSequence + 1, kind, data⟩ ∧
      job' = job.publish event (fun n => (streams n).accepts) ∧
      streams' = fun n => if n ∈ job.subscribers then (streams n).send event else streams n := by
  unfold publishImportEvent at h
  split at h
  · cases h
  · next hsmall =>
    cases h
    exact ⟨by omega, rfl, rfl, rfl⟩

theorem publish_nextSequence (event : ImageImportEvent) (accepts : Nat → Bool) :
    (job.publish event accepts).nextSequence = event.sequence := rfl

theorem publish_events (job : ImageImportJob) (event : ImageImportEvent) (accepts : Nat → Bool) :
    (job.publish event accepts).events <:+ job.events ++ [event] := by
  simp only [ImageImportJob.publish]
  exact List.drop_suffix _ _

theorem Logged.publish (h : Logged job worker log) (accepts : Nat → Bool)
    (hsmall : job.nextSequence + 1 < 2 ^ 64) (hsequence : event.sequence = job.nextSequence + 1)
    (hkind : event.kind ≠ .snapshot) (hworker : worker ≠ .done)
    (hworker' : ∀ kind, worker' ≠ .settled kind)
    (hended : event.kind.isTerminal = true → worker' = .done ∧ job.status = event.kind.name) :
    Logged (job.publish event accepts) worker' (log ++ [event]) where
  small := by
    rw [publish_nextSequence, hsequence]
    exact hsmall
  increasing := by
    rw [List.pairwise_append]
    refine ⟨h.increasing, List.pairwise_singleton _ event, fun other hother last hlast => ?_⟩
    rw [List.mem_singleton] at hlast
    have hle := h.bounded other hother
    rw [hlast]
    omega
  bounded other hother := by
    rw [publish_nextSequence]
    rcases List.mem_append.1 hother with hother | hother
    · have hle := h.bounded other hother
      omega
    · rw [List.mem_singleton] at hother
      rw [hother]
  kinds other hother := by
    rcases List.mem_append.1 hother with hother | hother
    · exact h.kinds other hother
    · rw [List.mem_singleton] at hother
      rw [hother]
      exact hkind
  history := by
    obtain ⟨dropped, hdropped⟩ := h.history
    have hkept := publish_events job event accepts
    refine hkept.trans ⟨dropped, ?_⟩
    rw [← hdropped, List.append_assoc]
  settled kind hsettled := absurd hsettled (hworker' kind)
  ended other hother hterminal := by
    rcases List.mem_append.1 hother with hother | hother
    · rw [h.not_terminal hworker other hother] at hterminal
      cases hterminal
    · rw [List.mem_singleton] at hother
      rw [hother] at hterminal ⊢
      exact hended hterminal
  numbered n hn := h.numbered n (List.mem_filter.1 hn).1

theorem World.publish_eq_some {kind : Kind} {data : Json}
    (h : w.publish kind data worker' = some w') :
    ∃ event : ImageImportEvent, w.job.nextSequence + 1 < 2 ^ 64 ∧
      event.sequence = w.job.nextSequence + 1 ∧ event.kind = kind ∧
      w'.job = w.job.publish event (fun n => (w.streams n).accepts) ∧
      w'.streams = (fun n =>
        if n ∈ w.job.subscribers then (w.streams n).send event else w.streams n) ∧
      w'.worker = worker' ∧ w'.clients = w.clients ∧ w'.published = w.published ++ [event] := by
  obtain ⟨⟨event, job, streams⟩, hpublish, rfl⟩ := map_eq_some_iff.1 h
  obtain ⟨hsmall, rfl, hjob, hstreams⟩ := publishImportEvent_eq_some hpublish
  exact ⟨_, hsmall, rfl, rfl, hjob, hstreams, rfl, rfl, rfl⟩

/-- A client's stream goes on with the event that is published, or is not live any more. -/
theorem stream_publish (hjob : w'.job = w.job.publish event fun n => (w.streams n).accepts)
    (hstreams : w'.streams = fun n =>
      if n ∈ w.job.subscribers then (w.streams n).send event else w.streams n)
    (hclients : w'.clients = w.clients) (client : Nat) :
    (w.Live client ∧ w'.stream client = w.stream client ++ [event]) ∨
      (¬w'.Live client ∧ w'.stream client = w.stream client) := by
  cases hconnection : (w.clients client).connection with
  | none =>
    have hconnection' : (w'.clients client).connection = none := by rw [hclients, hconnection]
    refine .inr ⟨not_live_of_none hconnection', ?_⟩
    unfold World.stream
    rw [hclients, hconnection]
  | some connection =>
    have hconnection' : (w'.clients client).connection = some connection := by
      rw [hclients, hconnection]
    rw [stream_of_connection hconnection, stream_of_connection hconnection', hclients, hstreams]
    dsimp only
    by_cases hmem : connection.subscriber ∈ w.job.subscribers
    · rw [if_pos hmem]
      cases haccepts : (w.streams connection.subscriber).accepts with
      | true =>
        have hclosed := (Bool.and_eq_true_iff.1 haccepts).1
        refine .inl ⟨⟨connection, hconnection, hmem, by simpa using hclosed⟩, ?_⟩
        unfold Stream.send
        rw [if_pos haccepts]
        simp
      | false =>
        right
        constructor
        · rintro ⟨other, hother, hsubscriber, -⟩
          cases hconnection'.symm.trans hother
          rw [hjob] at hsubscriber
          exact Bool.false_ne_true (haccepts ▸ (List.mem_filter.1 hsubscriber).2)
        · unfold Stream.send
          rw [if_neg (by rw [haccepts]; decide)]
    · rw [if_neg hmem]
      refine .inr ⟨?_, rfl⟩
      rintro ⟨other, hother, hsubscriber, -⟩
      cases hconnection'.symm.trans hother
      rw [hjob] at hsubscriber
      exact hmem (List.mem_filter.1 hsubscriber).1

theorem Good.publish (h : Good w) {kind : Kind} {data : Json}
    (hkind : kind ≠ .snapshot) (hworker : w.worker ≠ .done)
    (hworker' : ∀ kind, worker' ≠ .settled kind)
    (hended : kind.isTerminal = true → worker' = .done ∧ w.job.status = kind.name)
    (hstep : w.publish kind data worker' = some w') : Good w' := by
  obtain ⟨event, hsmall, hsequence, rfl, hjob, hstreams, rfl, hclients, hpublished⟩ :=
    World.publish_eq_some hstep
  have hnext : w'.job.nextSequence = w.job.nextSequence + 1 := by
    rw [hjob, publish_nextSequence, hsequence]
  have hsubscriber : w'.job.nextSubscriber = w.job.nextSubscriber := by
    rw [hjob]
    rfl
  constructor
  · rw [hjob, hpublished]
    exact h.logged.publish _ hsmall hsequence hkind hworker hworker' hended
  · intro client
    rw [hpublished, hnext]
    rcases stream_publish hjob hstreams hclients client with ⟨hlive, hstream⟩ | ⟨hover, hstream⟩
    · rw [hstream]
      exact (h.serves client).send hlive hsequence hkind _
    · rw [hstream]
      exact ((h.serves client).publish hsequence).of_front List.prefix_rfl le_rfl
        fun hlive => absurd hlive hover
  · rw [hclients, hsubscriber]
    exact h.opened
  · rw [hclients]
    exact h.apart

/-! ### Connecting -/

theorem startOf_some (importId : String) (sequence : Nat) :
    startOf job importId (some sequence) =
      some (job.events.filter fun event => sequence < event.sequence, job) := rfl

theorem startOf_none {importId : String} {initial : List ImageImportEvent}
    (h : startOf job importId none = some (initial, job')) :
    job.nextSequence + 1 < 2 ^ 64 ∧ job' = { job with nextSequence := job.nextSequence + 1 } ∧
      initial = [⟨job.nextSequence + 1, .snapshot, job.statusJson importId⟩] := by
  unfold startOf at h
  dsimp only at h
  split at h
  · cases h
  · next hsmall =>
    cases h
    exact ⟨by omega, rfl, rfl⟩

/-- The job with one more subscriber. -/
def subscribed (job : ImageImportJob) : ImageImportJob :=
  { job with
    nextSubscriber := job.nextSubscriber + 1
    subscribers := (job.nextSubscriber + 1) :: job.subscribers }

theorem World.connect_eq_some (h : w.connect client = some w') :
    ∃ initial job', startOf w.job w.importId (cursor (w.lastEventId client)) =
        some (initial, job') ∧
      w'.job = subscribed job' ∧
      w'.streams = Function.update w.streams (job'.nextSubscriber + 1) { initial } ∧
      w'.clients = Function.update w.clients client
        { w.clients client with connection := some { subscriber := job'.nextSubscriber + 1 } } ∧
      w'.worker = w.worker ∧ w'.published = w.published := by
  obtain ⟨⟨subscriber, job, streams⟩, hstream, rfl⟩ := map_eq_some_iff.1 h
  unfold streamImageImportEvents at hstream
  split at hstream
  · cases hstream
  · next initial job' hstart =>
    split at hstream
    · cases hstream
    · cases hstream
      exact ⟨initial, job', hstart, rfl, rfl, rfl, rfl, rfl⟩

/-- The stream of a client that connects, and those of the others. -/
theorem stream_connect (h : Good w) {initial : List ImageImportEvent}
    (hsubscriber : job'.nextSubscriber = w.job.nextSubscriber)
    (hsubscribers : job'.subscribers = w.job.subscribers) (hjob : w'.job = subscribed job')
    (hstreams : w'.streams = Function.update w.streams (job'.nextSubscriber + 1) { initial })
    (hclients : w'.clients = Function.update w.clients client
      { w.clients client with connection := some { subscriber := job'.nextSubscriber + 1 } }) :
    (w'.Live client ∧ w'.stream client = (w.clients client).received ++ initial) ∧
      ∀ other, other ≠ client →
        (w'.Live other → w.Live other) ∧ w'.stream other = w.stream other := by
  have hnew : w'.clients client =
      { w.clients client with connection := some { subscriber := job'.nextSubscriber + 1 } } := by
    rw [hclients, update_self]
  have hnewStream : w'.streams (job'.nextSubscriber + 1) = { initial } := by
    rw [hstreams, update_self]
  constructor
  · constructor
    · refine ⟨{ subscriber := job'.nextSubscriber + 1 }, by rw [hnew], ?_, ?_⟩
      · rw [hjob]
        exact List.mem_cons_self
      · rw [hnewStream]
    · unfold World.stream
      rw [hnew]
      dsimp only
      rw [hnewStream]
      simp
  · intro other hother
    have hsame : w'.clients other = w.clients other := by
      rw [hclients, update_of_ne hother]
    cases hconnection : (w.clients other).connection with
    | none =>
      constructor
      · exact fun hlive => absurd hlive (not_live_of_none (by rw [hsame, hconnection]))
      · unfold World.stream
        rw [hsame, hconnection]
    | some connection =>
      have hle := h.opened other connection hconnection
      have hne : connection.subscriber ≠ job'.nextSubscriber + 1 := by omega
      have hsameStream : w'.streams connection.subscriber = w.streams connection.subscriber := by
        rw [hstreams, update_of_ne hne]
      constructor
      · rintro ⟨connection', hconnection', hmem, hclosed⟩
        rw [hsame, hconnection] at hconnection'
        cases hconnection'
        rw [hsameStream] at hclosed
        rw [hjob] at hmem
        refine ⟨connection, hconnection, ?_, hclosed⟩
        rcases List.mem_cons.1 hmem with heq | hmem
        · exact absurd heq hne
        · rwa [← hsubscribers]
      · rw [stream_of_connection hconnection,
          @stream_of_connection w' other _ (by rw [hsame, hconnection]), hsame, hsameStream]

/-- The numbers of the subscribers after a client has connected. -/
theorem opened_connect (h : Good w)
    (hsubscriber : job'.nextSubscriber = w.job.nextSubscriber) (hjob : w'.job = subscribed job')
    (hclients : w'.clients = Function.update w.clients client
      { w.clients client with connection := some { subscriber := job'.nextSubscriber + 1 } }) :
    (∀ other connection, (w'.clients other).connection = some connection →
      connection.subscriber ≤ w'.job.nextSubscriber) ∧
    ∀ a b connection connection', (w'.clients a).connection = some connection →
      (w'.clients b).connection = some connection' →
        connection.subscriber = connection'.subscriber → a = b := by
  have hnext : w'.job.nextSubscriber = w.job.nextSubscriber + 1 := by
    rw [hjob, ← hsubscriber]
    rfl
  have hcases : ∀ other connection, (w'.clients other).connection = some connection →
      (other = client ∧ connection.subscriber = w.job.nextSubscriber + 1) ∨
        (w.clients other).connection = some connection := by
    intro other connection hconnection
    rw [hclients, update_apply] at hconnection
    split at hconnection
    · next hother =>
      cases hconnection
      exact .inl ⟨hother, by rw [hsubscriber]⟩
    · exact .inr hconnection
  constructor
  · intro other connection hconnection
    rw [hnext]
    rcases hcases other connection hconnection with ⟨-, hnew⟩ | hold
    · omega
    · have hle := h.opened other connection hold
      omega
  · intro a b connection connection' ha hb heq
    rcases hcases a connection ha with ⟨hea, hnewa⟩ | holda <;>
      rcases hcases b connection' hb with ⟨heb, hnewb⟩ | holdb
    · rw [hea, heb]
    · have hle := h.opened b connection' holdb
      omega
    · have hle := h.opened a connection holda
      omega
    · exact h.apart a b connection connection' holda holdb heq

/-- Only the numbers that the next snapshot and subscriber get have changed. -/
theorem Logged.connect (h : Logged job worker log)
    (hsmall : job'.nextSequence < 2 ^ 64) (hsequence : job.nextSequence ≤ job'.nextSequence)
    (hevents : job'.events = job.events) (hstatus : job'.status = job.status)
    (hsubscriber : job'.nextSubscriber = job.nextSubscriber)
    (hsubscribers : job'.subscribers = job.subscribers) : Logged (subscribed job') worker log where
  small := hsmall
  increasing := h.increasing
  bounded event hevent := (h.bounded event hevent).trans hsequence
  kinds := h.kinds
  history := by
    have hhistory := h.history
    rw [← hevents] at hhistory
    exact hhistory
  settled kind hsettled := by
    obtain ⟨hterminal, hkind⟩ := h.settled kind hsettled
    exact ⟨hterminal, hstatus.trans hkind⟩
  ended event hevent hterminal := by
    obtain ⟨hworker, hkind⟩ := h.ended event hevent hterminal
    exact ⟨hworker, hstatus.trans hkind⟩
  numbered n hn := by
    have hnext : (subscribed job').nextSubscriber = job'.nextSubscriber + 1 := rfl
    rw [hnext, hsubscriber]
    rcases List.mem_cons.1 hn with heq | hmem
    · omega
    · rw [hsubscribers] at hmem
      have hle := h.numbered n hmem
      omega

/-- A client connects and its stream serves it from then on. -/
theorem Good.of_connect (h : Good w) {initial : List ImageImportEvent}
    (hsmall : job'.nextSequence < 2 ^ 64)
    (hsequence : w.job.nextSequence ≤ job'.nextSequence) (hevents : job'.events = w.job.events)
    (hstatus : job'.status = w.job.status)
    (hsubscriber : job'.nextSubscriber = w.job.nextSubscriber)
    (hsubscribers : job'.subscribers = w.job.subscribers) (hjob : w'.job = subscribed job')
    (hstreams : w'.streams = Function.update w.streams (job'.nextSubscriber + 1) { initial })
    (hclients : w'.clients = Function.update w.clients client
      { w.clients client with connection := some { subscriber := job'.nextSubscriber + 1 } })
    (hworker : w'.worker = w.worker) (hpublished : w'.published = w.published)
    (hserves : Serves w.published ((w.clients client).received ++ initial) job'.nextSequence
      (w'.Live client)) : Good w' := by
  obtain ⟨⟨-, hstream⟩, hothers⟩ :=
    stream_connect h hsubscriber hsubscribers hjob hstreams hclients
  obtain ⟨hopened, hapart⟩ := opened_connect h hsubscriber hjob hclients
  have hnext : w'.job.nextSequence = job'.nextSequence := by
    rw [hjob]
    rfl
  refine ⟨?_, fun other => ?_, hopened, hapart⟩
  · rw [hjob, hworker, hpublished]
    exact h.logged.connect hsmall hsequence hevents hstatus hsubscriber hsubscribers
  · rw [hpublished, hnext]
    by_cases hother : other = client
    · rw [hother, hstream]
      exact hserves
    · obtain ⟨hlive, hsame⟩ := hothers other hother
      rw [hsame]
      exact (h.serves other).of_front List.prefix_rfl hsequence fun hlive' => ⟨hlive hlive', rfl⟩

/-- A client that has received nothing gets a snapshot, and one that comes back gets the events
that follow. -/
theorem Good.connect (h : Good w) (hretained : Retained w (.connect client))
    (hstep : w.connect client = some w') : Good w' := by
  obtain ⟨initial, job', hstart, hjob, hstreams, hclients, hworker, hpublished⟩ :=
    World.connect_eq_some hstep
  unfold World.lastEventId at hstart
  cases hlast : (w.clients client).received.getLast? with
  | none =>
    rw [hlast] at hstart
    obtain ⟨hsmall, hjob', rfl⟩ := startOf_none hstart
    have hnext : job'.nextSequence = w.job.nextSequence + 1 := by rw [hjob']
    refine h.of_connect (by rw [hnext]; exact hsmall) (by rw [hnext]; exact Nat.le_succ _)
      (by rw [hjob']) (by rw [hjob']) (by rw [hjob']) (by rw [hjob']) hjob hstreams hclients
      hworker hpublished ?_
    rw [List.getLast?_eq_none_iff.1 hlast, List.nil_append, hnext]
    exact serves_snapshot h.logged w.importId _ rfl rfl rfl
  | some last =>
    have hle := (h.serves client).bounded last
      ((received_prefix_stream w client).subset (List.mem_of_getLast? hlast))
    rw [hlast, map_some, cursor_sse last w.importId (hle.trans_lt h.logged.small),
      startOf_some] at hstart
    cases hstart
    refine h.of_connect h.logged.small le_rfl rfl rfl rfl rfl hjob hstreams hclients hworker
      hpublished ?_
    exact (h.serves client).resume h.logged rfl (received_prefix_stream w client) hlast
      (hretained last hlast) _

/-- A client that connects is live. -/
theorem live_connect (h : Good w) (hstep : w.connect client = some w') : w'.Live client := by
  obtain ⟨initial, job', hstart, hjob, hstreams, hclients, -, -⟩ := World.connect_eq_some hstep
  have hsame : job'.nextSubscriber = w.job.nextSubscriber ∧
      job'.subscribers = w.job.subscribers := by
    cases hcursor : cursor (w.lastEventId client) with
    | none =>
      rw [hcursor] at hstart
      obtain ⟨-, rfl, -⟩ := startOf_none hstart
      exact ⟨rfl, rfl⟩
    | some sequence =>
      rw [hcursor, startOf_some] at hstart
      cases hstart
      exact ⟨rfl, rfl⟩
  exact (stream_connect h hsame.1 hsame.2 hjob hstreams hclients).1.1

/-! ### The streams of the clients -/

theorem Stream.next_eq_some {stream stream' : Stream} (h : stream.next = some (event, stream')) :
    stream.initial ++ stream.queue = event :: (stream'.initial ++ stream'.queue) ∧
      stream'.closed = stream.closed := by
  unfold Stream.next at h
  split at h
  · next hinitial =>
    cases h
    rw [hinitial]
    exact ⟨rfl, rfl⟩
  · next hinitial hqueue =>
    cases h
    rw [hinitial, hqueue]
    exact ⟨rfl, rfl⟩
  · cases h

theorem Stream.next_eq_none {stream : Stream} (h : stream.next = none) :
    stream.initial = [] ∧ stream.queue = [] := by
  unfold Stream.next at h
  split at h
  · cases h
  · cases h
  · next hinitial hqueue => exact ⟨hinitial, hqueue⟩

/-- A step that changes one client, and the streams of no other one. -/
theorem Good.of_client (h : Good w) (client : Nat)
    (hlogged : Logged w'.job w'.worker w.published) (hpublished : w'.published = w.published)
    (hsequence : w'.job.nextSequence = w.job.nextSequence)
    (hsubscriber : w'.job.nextSubscriber = w.job.nextSubscriber)
    (hsubscribers : ∀ n ∈ w'.job.subscribers, n ∈ w.job.subscribers)
    (hothers : ∀ other, other ≠ client → w'.clients other = w.clients other)
    (hconnection : ∀ connection, (w'.clients client).connection = some connection →
      ∃ before, (w.clients client).connection = some before ∧
        before.subscriber = connection.subscriber)
    (hstreams : ∀ n, (∀ connection, (w.clients client).connection = some connection →
      connection.subscriber ≠ n) → w'.streams n = w.streams n)
    (hstream : w'.stream client <+: w.stream client ∧
      (w'.Live client → w.Live client ∧ w'.stream client = w.stream client)) : Good w' := by
  refine h.of_front hlogged hpublished hsequence hsubscriber ?_ ?_
  · intro other connection hother
    by_cases heq : other = client
    · rw [heq] at hother ⊢
      exact hconnection connection hother
    · rw [hothers other heq] at hother
      exact ⟨connection, hother, rfl⟩
  · intro other
    by_cases heq : other = client
    · rw [heq]
      exact hstream
    cases hold : (w.clients other).connection with
    | none =>
      have hsame : w'.stream other = w.stream other := by
        unfold World.stream
        rw [hothers other heq, hold]
      refine ⟨hsame ▸ List.prefix_rfl, fun hlive => ?_⟩
      exact absurd hlive (not_live_of_none (by rw [hothers other heq, hold]))
    | some connection =>
      have hkept : w'.streams connection.subscriber = w.streams connection.subscriber := by
        apply hstreams
        intro mine hmine hsame
        exact heq (h.apart client other mine connection hmine hold hsame).symm
      have hnew : (w'.clients other).connection = some connection := by
        rw [hothers other heq, hold]
      have hsame : w'.stream other = w.stream other := by
        rw [stream_of_connection hold, stream_of_connection hnew, hothers other heq, hkept]
      refine ⟨hsame ▸ List.prefix_rfl, ?_⟩
      rintro ⟨connection', hconnection', hmem, hclosed⟩
      cases hnew.symm.trans hconnection'
      rw [hkept] at hclosed
      exact ⟨⟨connection, hold, hsubscribers _ hmem, hclosed⟩, hsame⟩

/-- A step that changes nothing but one client and its stream. -/
theorem Good.of_update (h : Good w) {value : Client}
    (hclients : w'.clients = Function.update w.clients client value) (hjob : w'.job = w.job)
    (hworker : w'.worker = w.worker) (hpublished : w'.published = w.published)
    (hconnection : ∀ connection, value.connection = some connection →
      ∃ before, (w.clients client).connection = some before ∧
        before.subscriber = connection.subscriber)
    (hstreams : ∀ n, (∀ connection, (w.clients client).connection = some connection →
      connection.subscriber ≠ n) → w'.streams n = w.streams n)
    (hstream : w'.clients client = value → w'.stream client <+: w.stream client ∧
      (w'.Live client → w.Live client ∧ w'.stream client = w.stream client)) : Good w' := by
  have hnew : w'.clients client = value := by rw [hclients, update_self]
  refine h.of_client client (by rw [hjob, hworker]; exact h.logged) hpublished (by rw [hjob])
    (by rw [hjob]) (by rw [hjob]; exact fun n hn => hn) ?_ ?_ hstreams (hstream hnew)
  · intro other hother
    rw [hclients, update_of_ne hother]
  · rw [hnew]
    exact hconnection

theorem Logged.of_subscribers (h : Logged job worker log) (p : Nat → Bool) :
    Logged { job with subscribers := job.subscribers.filter p } worker log where
  small := h.small
  increasing := h.increasing
  bounded := h.bounded
  kinds := h.kinds
  history := h.history
  settled := h.settled
  ended := h.ended
  numbered n hn := h.numbered n (List.mem_filter.1 hn).1

/-- The next event of a stream is sent. -/
theorem Good.sends (h : Good w) {stream : Stream}
    (hconnection : (w.clients client).connection = some connection)
    (hnext : (w.streams connection.subscriber).next = some (event, stream))
    (hclients : w'.clients = Function.update w.clients client { w.clients client with
      connection := some { connection with sent := connection.sent ++ [event] } })
    (hstreams : w'.streams = Function.update w.streams connection.subscriber stream)
    (hjob : w'.job = w.job) (hworker : w'.worker = w.worker)
    (hpublished : w'.published = w.published) : Good w' := by
  obtain ⟨hevent, hclosed⟩ := Stream.next_eq_some hnext
  have hnewStream : w'.streams connection.subscriber = stream := by
    rw [hstreams, update_self]
  refine h.of_update hclients hjob hworker hpublished ?_ ?_ fun hnew => ?_
  · rintro _ ⟨⟩
    exact ⟨connection, hconnection, rfl⟩
  · intro n hn
    rw [hstreams, update_of_ne (hn connection hconnection).symm]
  · have hsame : w'.stream client = w.stream client := by
      rw [stream_of_connection hconnection, @stream_of_connection w' client _ (by rw [hnew]), hnew]
      dsimp only
      rw [hnewStream, List.append_assoc connection.sent
        (w.streams connection.subscriber).initial, hevent]
      simp
    refine ⟨hsame ▸ List.prefix_rfl, ?_⟩
    rintro ⟨connection', hconnection', hmem, hopen⟩
    rw [hnew] at hconnection'
    cases hconnection'
    dsimp only at hmem hopen
    rw [hjob] at hmem
    rw [hnewStream, hclosed] at hopen
    exact ⟨⟨connection, hconnection, hmem, hopen⟩, hsame⟩

/-- A stream ends that has no next event and is no subscriber's. -/
theorem Good.ends (h : Good w) (hconnection : (w.clients client).connection = some connection)
    (hnext : (w.streams connection.subscriber).next = none)
    (hover : connection.subscriber ∉ w.job.subscribers) (p : Nat → Bool)
    (hclients : w'.clients = w.clients)
    (hstreams : w'.streams = Function.update w.streams connection.subscriber { closed := true })
    (hjob : w'.job = { w.job with subscribers := w.job.subscribers.filter p })
    (hworker : w'.worker = w.worker) (hpublished : w'.published = w.published) : Good w' := by
  obtain ⟨hinitial, hqueue⟩ := Stream.next_eq_none hnext
  have hconnection' : (w'.clients client).connection = some connection := by
    rw [hclients, hconnection]
  refine h.of_client client (by rw [hjob, hworker]; exact h.logged.of_subscribers p) hpublished
    (by rw [hjob]) (by rw [hjob]) ?_ ?_ ?_ ?_ ?_
  · intro n hn
    rw [hjob] at hn
    exact (List.mem_filter.1 hn).1
  · intro other _
    rw [hclients]
  · intro other hother
    rw [hclients] at hother
    exact ⟨other, hother, rfl⟩
  · intro n hn
    rw [hstreams, update_of_ne (hn connection hconnection).symm]
  · have hsame : w'.stream client = w.stream client := by
      rw [stream_of_connection hconnection, stream_of_connection hconnection', hinitial, hqueue,
        hclients, hstreams, update_self]
    refine ⟨hsame ▸ List.prefix_rfl, ?_⟩
    rintro ⟨other, hother, hmem, -⟩
    cases hconnection'.symm.trans hother
    rw [hjob] at hmem
    exact absurd (List.mem_filter.1 hmem).1 hover

theorem Good.poll (h : Good w) (client : Nat) : Good (w.poll client) := by
  unfold World.poll
  split
  · exact h
  · next connection hconnection =>
    split
    · next event stream hnext => exact h.sends hconnection hnext rfl rfl rfl rfl rfl
    · next hnext =>
      split
      · exact h
      · next hover => exact h.ends hconnection hnext hover _ rfl rfl rfl rfl rfl

/-- A client receives the next of the events on their way to it. -/
theorem Good.receives (h : Good w) {sent : List ImageImportEvent}
    (hconnection : (w.clients client).connection = some connection)
    (hsent : connection.sent = event :: sent)
    (hclients : w'.clients = Function.update w.clients client
      ⟨some { connection with sent }, (w.clients client).received ++ [event]⟩)
    (hstreams : w'.streams = w.streams) (hjob : w'.job = w.job) (hworker : w'.worker = w.worker)
    (hpublished : w'.published = w.published) : Good w' := by
  refine h.of_update hclients hjob hworker hpublished ?_ ?_ fun hnew => ?_
  · rintro _ ⟨⟩
    exact ⟨connection, hconnection, rfl⟩
  · intro n _
    rw [hstreams]
  · have hsame : w'.stream client = w.stream client := by
      rw [stream_of_connection hconnection, @stream_of_connection w' client _ (by rw [hnew]), hnew,
        hstreams, hsent]
      simp
    refine ⟨hsame ▸ List.prefix_rfl, ?_⟩
    rintro ⟨connection', hconnection', hmem, hopen⟩
    rw [hnew] at hconnection'
    cases hconnection'
    dsimp only at hmem hopen
    rw [hjob] at hmem
    rw [hstreams] at hopen
    exact ⟨⟨connection, hconnection, hmem, hopen⟩, hsame⟩

theorem Good.receive (h : Good w) (client : Nat) : Good (w.receive client) := by
  unfold World.receive
  split
  · exact h
  · next connection hconnection =>
    split
    · exact h
    · next event sent hsent => exact h.receives hconnection hsent rfl rfl rfl rfl rfl

theorem Good.disconnects (h : Good w) (hclients : w'.clients =
      Function.update w.clients client { w.clients client with connection := none })
    (hstreams : w'.streams = w.streams) (hjob : w'.job = w.job) (hworker : w'.worker = w.worker)
    (hpublished : w'.published = w.published) : Good w' := by
  refine h.of_update hclients hjob hworker hpublished nofun ?_ fun hnew => ?_
  · intro n _
    rw [hstreams]
  · constructor
    · unfold World.stream
      rw [hnew, List.append_nil]
      exact List.prefix_append _ _
    · exact fun hlive => absurd hlive (not_live_of_none (by rw [hnew]))

/-- The server drops a stream, and with it what was not sent yet. -/
theorem Good.drops (h : Good w) {n : Nat} (hclients : w'.clients = w.clients)
    (hstreams : w'.streams = Function.update w.streams n { closed := true })
    (hjob : w'.job = w.job) (hworker : w'.worker = w.worker)
    (hpublished : w'.published = w.published) : Good w' := by
  refine h.of_front (by rw [hjob, hworker]; exact h.logged) hpublished (by rw [hjob])
    (by rw [hjob]) ?_ fun client => ?_
  · intro client connection hclient
    rw [hclients] at hclient
    exact ⟨connection, hclient, rfl⟩
  cases hconnection : (w.clients client).connection with
  | none =>
    have hsame : w'.stream client = w.stream client := by
      unfold World.stream
      rw [hclients, hconnection]
    refine ⟨hsame ▸ List.prefix_rfl, fun hlive => ?_⟩
    exact absurd hlive (not_live_of_none (by rw [hclients, hconnection]))
  | some connection =>
    have hconnection' : (w'.clients client).connection = some connection := by
      rw [hclients, hconnection]
    by_cases hn : connection.subscriber = n
    · constructor
      · rw [stream_of_connection hconnection, stream_of_connection hconnection', hclients,
          hstreams, hn, update_self, List.append_nil, List.append_nil, List.append_assoc]
        exact (List.prefix_append_right_inj _).2 (List.prefix_append _ _)
      · rintro ⟨other, hother, -, hopen⟩
        cases hconnection'.symm.trans hother
        rw [hstreams, hn, update_self] at hopen
        cases hopen
    · have hkept : w'.streams connection.subscriber = w.streams connection.subscriber := by
        rw [hstreams, update_of_ne hn]
      have hsame : w'.stream client = w.stream client := by
        rw [stream_of_connection hconnection, stream_of_connection hconnection', hclients, hkept]
      refine ⟨hsame ▸ List.prefix_rfl, ?_⟩
      rintro ⟨other, hother, hmem, hopen⟩
      cases hconnection'.symm.trans hother
      rw [hjob] at hmem
      rw [hkept] at hopen
      exact ⟨⟨connection, hconnection, hmem, hopen⟩, hsame⟩

/-! ### The result -/

theorem good_step (h : Good w) {op : Op} (hretained : Retained w op) (hstep : w.step op = some w') :
    Good w' := by
  cases op with
  | setStatus status phase currentComponent bytesDone bytesTotal =>
    obtain ⟨hworker, hstep⟩ := ite_none_right_eq_some.1 hstep
    cases hstep
    have hlogged := h.logged
    rw [hworker] at hlogged
    refine h.of_job (hlogged.of_status rfl rfl rfl rfl ?_) rfl rfl rfl
    intro kind hsettled
    cases hworker.symm.trans hsettled
  | publish kind data =>
    obtain ⟨⟨hworker, hkind, hterminal⟩, hstep⟩ := ite_none_right_eq_some.1 hstep
    refine h.publish hkind ?_ (fun _ => Worker.noConfusion) ?_ hstep
    · rw [hworker]
      decide
    · rw [hterminal]
      exact fun hfalse => nomatch hfalse
  | finish manifest =>
    obtain ⟨hworker, hstep⟩ := ite_none_right_eq_some.1 hstep
    cases hstep
    have hlogged := h.logged
    rw [hworker] at hlogged
    refine h.of_job (hlogged.of_status rfl rfl rfl rfl ?_) rfl rfl rfl
    intro kind hsettled
    cases hsettled
    exact ⟨rfl, rfl⟩
  | fail error =>
    obtain ⟨hworker, hstep⟩ := ite_none_right_eq_some.1 hstep
    cases hstep
    have hlogged := h.logged
    rw [hworker] at hlogged
    refine h.of_job (hlogged.of_status rfl rfl rfl rfl ?_) rfl rfl rfl
    intro kind hsettled
    cases hsettled
    exact ⟨rfl, rfl⟩
  | announce data =>
    cases hworker : w.worker with
    | settled kind =>
      unfold World.step at hstep
      rw [hworker] at hstep
      obtain ⟨hterminal, hstatus⟩ := h.logged.settled kind hworker
      refine h.publish ?_ ?_ (fun _ => Worker.noConfusion) (fun _ => ⟨rfl, hstatus⟩) hstep
      · rintro rfl
        cases hterminal
      · rw [hworker]
        exact Worker.noConfusion
    | running =>
      unfold World.step at hstep
      rw [hworker] at hstep
      cases hstep
    | done =>
      unfold World.step at hstep
      rw [hworker] at hstep
      cases hstep
  | connect client => exact h.connect hretained hstep
  | poll client =>
    cases hstep
    exact h.poll client
  | receive client =>
    cases hstep
    exact h.receive client
  | disconnect client =>
    cases hstep
    exact h.disconnects rfl rfl rfl rfl rfl
  | drop n =>
    cases hstep
    exact h.drops rfl rfl rfl rfl rfl

theorem good_initial (importId : String) (input : ImportVmmanagerBase) :
    Good (World.initial importId (.new input)) where
  logged := by
    constructor
    · exact Nat.two_pow_pos 64
    · exact List.Pairwise.nil
    · exact fun _ h => nomatch h
    · exact fun _ h => nomatch h
    · exact List.nil_suffix
    · exact fun _ h => nomatch h
    · exact fun _ h => nomatch h
    · exact fun _ h => nomatch h
  serves client := by
    constructor
    · exact Tracks.nil
    · exact fun hlive => absurd hlive (not_live_of_none rfl)
    · exact fun _ h => nomatch h
    · exact fun _ h => nomatch h
  opened _ _ h := nomatch h
  apart _ _ _ _ h := nomatch h

theorem good_of_reachable (h : Reachable Retained w) : Good w := by
  induction h with
  | image importId input => exact good_initial importId input
  | engine importId source => exact good_initial importId _
  | step _ hretained hstep ih => exact good_step ih hretained hstep

theorem Good.delivers (h : Good w) (client : Nat) : Delivers w client := by
  have hserves := h.serves client
  constructor
  · exact hserves.unbroken
  · exact hserves.complete
  · intro event hevent hterminal last hlast hle
    exact hserves.tells h.logged.increasing (received_prefix_stream w client) hevent hterminal
      hlast hle
  · intro hlive event hevent hterminal
    obtain ⟨last, hlast, hnothing⟩ := hserves.complete hlive
    refine hserves.tells h.logged.increasing List.prefix_rfl hevent hterminal hlast ?_
    by_contra hlt
    have hmem := mem_after.2 ⟨hevent, Nat.lt_of_not_le hlt⟩
    rw [hnothing] at hmem
    cases hmem
  · exact fun w' hstep => live_connect h hstep

/-- In every run in which each client that comes back has received all events that the history has
dropped by then, no client misses an event. -/
theorem losesNothing_of_retained (h : Reachable Retained w) : LosesNothing w :=
  (good_of_reachable h).delivers

/-! ### Runs -/

/-- The history has dropped nothing when a client connects. -/
def intact (w : World) : Op → Bool
  | .connect _ => decide (w.job.events.length = w.published.length)
  | _ => true

theorem retained_of_intact (w : World) (op : Op) (h : Reachable Retained w)
    (hintact : intact w op = true) : Retained w op := by
  cases op with
  | connect client =>
    have hall : w.job.events = w.published :=
      (good_of_reachable h).logged.history.eq_of_length (of_decide_eq_true hintact)
    intro last _ event hevent _
    rwa [hall]
  | _ => trivial

/-- A client that comes back after its snapshot gets the event published since, and the last one. -/
theorem losesNothing_of_retained_imgimp :
    ∃ w, LosesNothing w ∧
      (w.clients 1).received.map (fun event => (event.sequence, event.kind)) =
        [(1, .snapshot), (2, .progress), (3, .failed)] := by
  have hruns : (runChecked intact World.step (World.initial "imgimp-1-0" (.engine "/srv/qemu"))
      [.connect 1, .poll 1, .receive 1, .disconnect 1, .publish .progress .null, .connect 1,
        .fail "lost", .announce .null, .poll 1, .poll 1, .receive 1, .receive 1]).map (fun w =>
          (w.clients 1).received.map fun event => (event.sequence, event.kind)) =
      some [(1, .snapshot), (2, .progress), (3, .failed)] := by
    decide +kernel
  obtain ⟨w, hw, hreceived⟩ := map_eq_some_iff.1 hruns
  have hreachable : Reachable Retained w := runChecked_induction
    (fun w op w' h hintact hstep => h.step (retained_of_intact w op h hintact) hstep)
    (.engine "imgimp-1-0" "/srv/qemu") hw
  exact ⟨w, losesNothing_of_retained hreachable, hreceived⟩

/-- The events that a worker publishes after the first snapshot. -/
def progress (n : ℕ) : List ImageImportEvent :=
  (List.range' 2 n).map fun sequence => ⟨sequence, .progress, .null⟩

/-- A client went away with its snapshot, and these events were published since. -/
structure Missed (w : World) (n : ℕ) : Prop where
  reachable : Reachable (fun _ _ => True) w
  running : w.worker = .running
  received : (w.clients 1).received.map ImageImportEvent.sequence = [1]
  cursor : cursor (w.lastEventId 1) = some 1
  sequence : w.job.nextSequence = n + 1
  subscriber : w.job.nextSubscriber = 1
  published : w.published = progress n
  events : w.job.events = (progress n).drop (n - 512)

theorem exists_missed : ∃ w, Missed w 0 := by
  have hruns : (runChecked (fun _ _ => true) World.step
      (World.initial "imgimp-1-0" (.engine "/srv/qemu"))
      [.connect 1, .poll 1, .receive 1, .disconnect 1]).map (fun w =>
        ((w.clients 1).received.map ImageImportEvent.sequence, cursor (w.lastEventId 1),
          w.job.nextSequence, w.job.nextSubscriber)) = some ([1], some 1, 1, 1) := by
    decide +kernel
  obtain ⟨w, hw, hresult⟩ := map_eq_some_iff.1 hruns
  simp only [Prod.mk.injEq] at hresult
  obtain ⟨hreceived, hcursor, hsequence, hsubscriber⟩ := hresult
  have hreachable : Reachable (fun _ _ => True) w := runChecked_induction
    (fun w op w' h _ hstep => h.step trivial hstep) (.engine "imgimp-1-0" "/srv/qemu") hw
  cases hw
  exact ⟨_, hreachable, rfl, hreceived, hcursor, hsequence, hsubscriber, rfl, rfl⟩

/-- One event more. -/
theorem Missed.publish {n : ℕ} (h : Missed w n) (hsmall : n < 2 ^ 32) :
    ∃ w', Missed w' (n + 1) := by
  have hprogress : progress (n + 1) = progress n ++ [⟨n + 1 + 1, .progress, .null⟩] := by
    rw [progress, List.range'_1_concat, List.map_append, Nat.add_comm 2 n]
    rfl
  have hlength : (progress n).length = n := by simp [progress]
  have hroom : ¬ 2 ^ 64 ≤ w.job.nextSequence + 1 := by
    rw [h.sequence]
    omega
  have hstep : w.step (.publish .progress .null) = w.publish .progress .null .running :=
    if_pos ⟨h.running, by decide, rfl⟩
  unfold World.publish publishImportEvent at hstep
  rw [if_neg hroom, h.sequence] at hstep
  obtain ⟨event, hevent⟩ : ∃ event : ImageImportEvent, event = ⟨n + 1 + 1, .progress, .null⟩ :=
    ⟨_, rfl⟩
  rw [← hevent] at hstep hprogress
  have hkept (accepts : Nat → Bool) :
      (w.job.publish event accepts).events = (progress (n + 1)).drop (n + 1 - 512) := by
    unfold ImageImportJob.publish
    dsimp only
    rw [h.events, hprogress, List.length_append, List.length_drop, hlength,
      ← List.drop_append_of_le_length (by omega), List.drop_drop, List.length_singleton,
      show n - 512 + (n - (n - 512) + 1 - 512) = n + 1 - 512 by omega]
  refine ⟨_, h.reachable.step trivial hstep, rfl, h.received, h.cursor, ?_, h.subscriber, ?_,
    hkept _⟩
  · show event.sequence = n + 1 + 1
    rw [hevent]
  · show w.published ++ [event] = progress (n + 1)
    rw [h.published, hprogress]

theorem exists_missed_of (n : ℕ) (hsmall : n ≤ 2 ^ 32) : ∃ w, Missed w n := by
  induction n with
  | zero => exact exists_missed
  | succ n ih =>
    obtain ⟨w, hmissed⟩ := ih (by omega)
    exact hmissed.publish (by omega)

/-- The history drops the first event after a client's snapshot before the client comes back, which
then gets the second one. -/
theorem not_losesNothing_of_evicted :
    ¬∀ w, Reachable (fun _ _ => True) w → LosesNothing w := by
  intro h
  obtain ⟨w, hmissed⟩ := exists_missed_of 513 (by omega)
  have hstart : startOf w.job w.importId (cursor (w.lastEventId 1)) =
      some (w.job.events.filter fun event => 1 < event.sequence, w.job) := by
    rw [hmissed.cursor]
    rfl
  have hconnect : ∃ w', w.step (.connect 1) = some w' ∧ w'.published = w.published ∧
      w'.stream 1 =
        (w.clients 1).received ++ w.job.events.filter fun event => 1 < event.sequence := by
    unfold World.step World.connect streamImageImportEvents
    dsimp only
    rw [hstart]
    dsimp only
    rw [if_neg (by rw [hmissed.subscriber]; decide)]
    refine ⟨_, rfl, rfl, ?_⟩
    unfold World.stream World.setClient
    dsimp only
    rw [update_self]
    dsimp only
    rw [update_self, List.nil_append, List.append_nil]
  obtain ⟨w', hstep, hpublished, hstream⟩ := hconnect
  have hunbroken := (h w' (hmissed.reachable.step trivial hstep) 1).unbroken.continues
  obtain ⟨snapshot, hreceived, hone⟩ := List.map_eq_singleton_iff.1 hmissed.received
  have hprogress : ∃ rest, progress 513 = ⟨2, .progress, .null⟩ :: ⟨3, .progress, .null⟩ :: rest :=
    ⟨_, rfl⟩
  obtain ⟨rest, hprogress⟩ := hprogress
  rw [hstream, hpublished, hreceived, hmissed.events, hmissed.published, hprogress] at hunbroken
  rcases (List.isChain_cons_cons.1 hunbroken).1 with ⟨hsnapshot, -⟩ | hnext
  · cases hsnapshot
  · unfold after at hnext
    rw [List.filter_cons_of_pos (by rw [hone]; decide), List.head?_cons] at hnext
    cases hnext

end Imports

end MachineEmu
