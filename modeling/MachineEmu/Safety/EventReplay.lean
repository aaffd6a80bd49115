import MachineEmu.Safety.EventSessions

/-!
# Replay of events

A client that resumes after the last event it received gets the events that follow, or a snapshot,
as long as no id of a closed instance is taken for one of the instance created after it.

* `Follows`, `LosesNothing` — the statement.
* `Logged`, `Open`, `Streams` — what a run keeps.
* `losesNothing_of_distinct` — the result.
-/

namespace MachineEmu

open Lib List Function Option

namespace Events

/-! ## Statements -/

/-- The events of some records: all but the snapshots, each of which is for one subscriber. -/
def events (records : List Record) : List Record :=
  records.filter fun record => record.kind ≠ .snapshot

/-- The records of a log that follow a sequence number. -/
def following (log : List Record) (sequence : Nat) : List Record :=
  log.filter fun record => sequence < record.sequence

/-- A stream that follows a log after a sequence number: its records follow it, in order and each
once, and it skips no event. As long as its session is live it has all events. -/
structure Follows (log : List Record) (sequence : Nat) (stream : List Record) (live : Bool) :
    Prop where
  sublist : stream.Sublist (following log sequence)
  events : events stream <+: events (following log sequence)
  complete : live = true → Events.events stream = Events.events (following log sequence)

/-- A stream that starts with a snapshot and follows the log after it. -/
def Resyncs (log stream : List Record) (live : Bool) : Prop :=
  ∃ record rest, stream = record :: rest ∧ record.kind = .snapshot ∧ record ∈ log ∧
    Follows log record.sequence rest live

/-- Every session that was resumed after an event of some incarnation of its instance is one of the
same incarnation and follows its log after the event, or it resyncs. -/
def LosesNothing (w : World) : Prop :=
  ∀ n session incarnation sequence, w.sessions n = some session →
    session.since = some (incarnation, sequence) →
      w.received n <+: w.stream n ∧
      ((session.incarnation = incarnation ∧
          Follows (w.log session.instanceId incarnation) sequence (w.stream n) session.live) ∨
        Resyncs (w.log session.instanceId session.incarnation) (w.stream n) session.live)

/-- The instances of the operations have valid ids, as `Id::new` checks. -/
def Op.isValid : Op → Bool
  | .publishState instanceId _ | .publishOperation instanceId _ | .publishQmp instanceId _
  | .subscribe instanceId _ _ => Id.isValid instanceId
  | _ => true

/-- The history of an instance reaches back to a sequence number. -/
def History.Covers (history : History) (sequence : Nat) : Prop :=
  history.nextSequence - history.records.length ≤ sequence ∧ sequence ≤ history.nextSequence

/-- No session is resumed after an event of an earlier incarnation of its instance whose sequence
number the present history of the instance covers. -/
def Distinct (w : World) : Op → Prop
  | .resume n _ => ∀ session record, w.sessions n = some session →
      (w.received n).getLast? = some record →
        session.incarnation = w.closes session.instanceId ∨
          ¬(w.hub.history session.instanceId).Covers record.sequence
  | _ => True

/-! ## Logs -/

/-- The records of a log are numbered from one. -/
def Numbered (log : List Record) : Prop := log.map Record.sequence = List.range' 1 log.length

variable {log : List Record}

theorem Numbered.append {record : Record} (h : Numbered log)
    (hsequence : record.sequence = log.length + 1) : Numbered (log ++ [record]) := by
  unfold Numbered at h ⊢
  rw [map_append, h, length_append, length_singleton, map_singleton, hsequence, range'_concat]
  congr 2
  omega

/-- The sequence numbers of a log's first records are up to their length, and those of the rest
are above it. -/
theorem Numbered.split {a b : List Record} (h : Numbered (a ++ b)) :
    (∀ record ∈ a, record.sequence ≤ a.length) ∧ ∀ record ∈ b, a.length < record.sequence := by
  unfold Numbered at h
  rw [map_append, length_append, ← range'_append_1] at h
  obtain ⟨ha, hb⟩ := append_inj h (by simp)
  constructor
  · intro record hrecord
    have hmem := mem_map_of_mem (f := Record.sequence) hrecord
    rw [ha, mem_range'_1] at hmem
    omega
  · intro record hrecord
    have hmem := mem_map_of_mem (f := Record.sequence) hrecord
    rw [hb, mem_range'_1] at hmem
    omega

theorem following_append (a b : List Record) (sequence : Nat) :
    following (a ++ b) sequence = following a sequence ++ following b sequence :=
  filter_append a b

variable {sequence : Nat}

theorem following_eq_self
    (h : ∀ record ∈ log, sequence < record.sequence) : following log sequence = log := by
  apply filter_eq_self.2
  simpa using h

theorem following_eq_nil
    (h : ∀ record ∈ log, record.sequence ≤ sequence) : following log sequence = [] := by
  apply filter_eq_nil_iff.2
  simpa using h

/-- What follows a sequence number in a log is what follows it in the first records of the log,
and then the rest. -/
theorem following_eq (h : Numbered log) {start : Nat}
    (hsequence : sequence ≤ start) (hstart : start ≤ log.length) :
    following log sequence = following (log.take start) sequence ++ log.drop start := by
  rw [← take_append_drop start log] at h
  have hrest := h.split.2
  rw [length_take, Nat.min_eq_left hstart] at hrest
  calc
    following log sequence = following (log.take start ++ log.drop start) sequence := by
      rw [take_append_drop]
    _ = following (log.take start) sequence ++ following (log.drop start) sequence :=
      following_append _ _ sequence
    _ = following (log.take start) sequence ++ log.drop start := by
      rw [following_eq_self fun record hrecord => hsequence.trans_lt (hrest record hrecord)]

/-- The last records of a log have all that follows a sequence number they reach back to. -/
theorem following_suffix {records : List Record} (h : Numbered log) (hsuffix : records <:+ log)
    (hsequence : log.length - records.length ≤ sequence) :
    following records sequence = following log sequence := by
  obtain ⟨dropped, rfl⟩ := hsuffix
  rw [length_append, Nat.add_sub_cancel] at hsequence
  have hdropped : following dropped sequence = [] :=
    following_eq_nil fun record hrecord => (h.split.1 record hrecord).trans hsequence
  rw [following_append, hdropped, nil_append]

theorem events_append (a b : List Record) : events (a ++ b) = events a ++ events b :=
  filter_append a b

theorem events_of_prefix {a b : List Record} (h : a <+: events b) : events a = a := by
  apply filter_eq_self.2
  intro record hrecord
  exact (mem_filter.1 (h.subset hrecord)).2

/-- A stream that replayed the first records of a log and was sent events of the rest. -/
theorem follows_of {sent : List Record} (h : Numbered log) {start : Nat}
    {live : Bool} (hsequence : sequence ≤ start) (hstart : start ≤ log.length)
    (hsent : sent <+: events (log.drop start))
    (hcomplete : live = true → sent = events (log.drop start)) :
    Follows log sequence (following (log.take start) sequence ++ sent) live := by
  have hlog := following_eq h hsequence hstart
  constructor
  · rw [hlog]
    exact (List.Sublist.refl _).append (hsent.sublist.trans filter_sublist)
  · rw [hlog, events_append, events_append, events_of_prefix hsent]
    exact (prefix_append_right_inj _).2 hsent
  · intro hlive
    rw [hlog, events_append, events_append, events_of_prefix hsent, hcomplete hlive]

/-- The sequence number of the last of the first records of a log is their number. -/
theorem sequence_of_getLast? (h : Numbered log) {start : Nat} {record : Record}
    (hstart : start ≤ log.length) (hlast : (log.take start).getLast? = some record) :
    record.sequence = start := by
  obtain ⟨before, hbefore⟩ := List.getLast?_eq_some_iff.1 hlast
  have hlength : before.length + 1 = start := by
    have hboth := congrArg List.length hbefore
    rw [length_take, Nat.min_eq_left hstart, length_append, length_singleton] at hboth
    omega
  rw [← take_append_drop start log, hbefore] at h
  have hle := h.split.1 record (by simp)
  rw [append_assoc] at h
  have hlt := h.split.2 record (by simp)
  rw [length_append, length_singleton] at hle
  omega

/-! ## Sessions -/

/-- A session of an incarnation with the given log: it began with the records after the event that
it was resumed after or with a snapshot, and its channel was sent the first of the events since,
and all of them while the session is live. -/
structure Open (log : List Record) (channel : Channel) (session : Session) : Prop where
  start : session.start ≤ log.length
  began : (∃ sequence, sequence ≤ session.start ∧
      session.initial = following (log.take session.start) sequence ∧
      ∀ k s, session.since = some (k, s) → session.incarnation = k ∧ sequence = s) ∨
    ∃ record, record.kind = .snapshot ∧ session.initial = [record] ∧
      (log.take session.start).getLast? = some record
  sent : channel.sent <+: events (log.drop session.start)
  complete : session.live = true → channel.sent = events (log.drop session.start)

variable {log : List Record} {channel : Channel} {session : Session} {record : Record}

theorem Open.mem_log (h : Open log channel session) :
    ∀ r ∈ session.initial ++ channel.sent, r ∈ log := by
  intro r hr
  rcases mem_append.1 hr with hr | hr
  · obtain ⟨sequence, -, hinitial, -⟩ | ⟨snapshot, -, hinitial, hlast⟩ := h.began
    · rw [hinitial] at hr
      exact mem_of_mem_take (mem_filter.1 hr).1
    · rw [hinitial, mem_singleton] at hr
      rw [hr]
      exact mem_of_mem_take (mem_of_getLast? hlast)
  · exact mem_of_mem_drop (mem_filter.1 (h.sent.subset hr)).1

/-- A session that was resumed follows the log, or it resyncs. -/
theorem Open.follows (h : Open log channel session) (hnumbered : Numbered log) {k s : Nat}
    (hsince : session.since = some (k, s)) :
    (session.incarnation = k ∧ Follows log s (session.initial ++ channel.sent) session.live) ∨
      Resyncs log (session.initial ++ channel.sent) session.live := by
  obtain ⟨sequence, hsequence, hinitial, hresumed⟩ | ⟨snapshot, hkind, hinitial, hlast⟩ := h.began
  · obtain ⟨hincarnation, rfl⟩ := hresumed k s hsince
    rw [hinitial]
    exact .inl ⟨hincarnation, follows_of hnumbered hsequence h.start h.sent h.complete⟩
  · have hstart := sequence_of_getLast? hnumbered h.start hlast
    have hnothing : following (log.take session.start) session.start = [] := by
      apply following_eq_nil
      intro r hr
      rw [← take_append_drop session.start log] at hnumbered
      exact (hnumbered.split.1 r hr).trans (length_take_le _ _)
    have hfollows := follows_of hnumbered le_rfl h.start h.sent h.complete
    rw [hnothing, nil_append] at hfollows
    refine .inr ⟨snapshot, channel.sent, ?_, hkind, ?_, ?_⟩
    · rw [hinitial]
      rfl
    · exact mem_of_mem_take (mem_of_getLast? hlast)
    · rw [hstart]
      exact hfollows

/-- A session that ends. -/
theorem Open.end (h : Open log channel session) :
    Open log channel { session with live := false } :=
  ⟨h.start, h.began, h.sent, fun hlive => nomatch hlive⟩

theorem Open.began_append (h : Open log channel session) (record : Record) :
    session.start ≤ (log ++ [record]).length ∧
      (log ++ [record]).take session.start = log.take session.start ∧
      (log ++ [record]).drop session.start = log.drop session.start ++ [record] := by
  have hstart := h.start
  refine ⟨?_, take_append_of_le_length hstart, drop_append_of_le_length hstart⟩
  rw [length_append]
  omega

/-- A snapshot for another subscriber. -/
theorem Open.snapshot (h : Open log channel session) (hkind : record.kind = .snapshot) :
    Open (log ++ [record]) channel session := by
  obtain ⟨hstart, htake, hdrop⟩ := h.began_append record
  have hevents : events (log.drop session.start ++ [record]) = events (log.drop session.start) := by
    rw [events_append]
    simp [events, hkind]
  constructor
  · exact hstart
  · rw [htake]
    exact h.began
  · rw [hdrop, hevents]
    exact h.sent
  · rw [hdrop, hevents]
    exact h.complete

theorem events_concat (hkind : record.kind ≠ .snapshot) (a : List Record) :
    events (a ++ [record]) = events a ++ [record] := by
  rw [events_append]
  simp [events, hkind]

/-- An event that the channel takes. -/
theorem Open.send (h : Open log channel session) (hkind : record.kind ≠ .snapshot)
    (hlive : session.live = true) (haccepts : channel.accepts = true) :
    Open (log ++ [record]) (channel.send record) session := by
  obtain ⟨hstart, htake, hdrop⟩ := h.began_append record
  have hsent : (channel.send record).sent = events ((log ++ [record]).drop session.start) := by
    unfold Channel.send
    rw [if_pos haccepts, hdrop, events_concat hkind, ← h.complete hlive]
  constructor
  · exact hstart
  · rw [htake]
    exact h.began
  · rw [hsent]
  · exact fun _ => hsent

/-- An event that the session does not get, for it is over. -/
theorem Open.skip (h : Open log channel session) (hkind : record.kind ≠ .snapshot)
    (hlive : session.live = false) : Open (log ++ [record]) channel session := by
  obtain ⟨hstart, htake, hdrop⟩ := h.began_append record
  constructor
  · exact hstart
  · rw [htake]
    exact h.began
  · rw [hdrop, events_concat hkind]
    exact h.sent.trans (prefix_append _ _)
  · intro h'
    rw [hlive] at h'
    cases h'

/-- An event that is sent to the channel of a live session; the session ends if the channel does
not take it. -/
theorem Open.broadcast (h : Open log channel session) (hkind : record.kind ≠ .snapshot) :
    Open (log ++ [record]) (if session.live then channel.send record else channel)
      { session with live := session.live && channel.accepts } := by
  cases hlive : session.live with
  | false =>
    have hskip := h.skip hkind hlive
    exact ⟨hskip.start, hskip.began, hskip.sent, fun hlive => nomatch hlive⟩
  | true =>
    rw [if_pos rfl]
    cases haccepts : channel.accepts with
    | true =>
      have hsend := h.send hkind hlive haccepts
      exact ⟨hsend.start, hsend.began, hsend.sent, fun _ => hsend.complete hlive⟩
    | false =>
      have hsame : channel.send record = channel := by
        unfold Channel.send
        rw [haccepts]
        rfl
      rw [hsame]
      exact h.end.skip hkind rfl

/-- What a session is about does not include what its client has received. -/
theorem Open.of_eq {channel' : Channel} {session' : Session} (h : Open log channel session)
    (hsent : channel'.sent = channel.sent)
    (hsession : session' = { session with taken := session'.taken }) :
    Open log channel' session' := by
  rw [hsession]
  exact ⟨h.start, h.began, hsent ▸ h.sent, fun hlive => hsent.trans (h.complete hlive)⟩

/-! ## Runs -/

variable {w w' : World} {generation instanceId : String} {hub hub' : EventHub}
  {closes : String → Nat} {logs : String → Nat → List Record} {kind : Kind} {data : String}
  {broadcast : Bool}

/-- The logs of a hub: the records of each incarnation are numbered, the history of an instance has
the last records of its present incarnation, and there is nothing yet of the later ones. -/
structure Logged (generation : String) (hub : EventHub) (closes : String → Nat)
    (logs : String → Nat → List Record) : Prop where
  generated : hub.generation = generation
  numbered : ∀ i k, Numbered (logs i k)
  bounded : ∀ i k, (logs i k).length < 2 ^ 64
  ids : ∀ i k, ∀ record ∈ logs i k, record.id = eventId i generation record.sequence
  unborn : ∀ i k, closes i < k → logs i k = []
  current : ∀ i, (hub.history i).nextSequence = (logs i (closes i)).length
  retained : ∀ i, (hub.history i).records <:+ logs i (closes i)

/-- Every session is one of its instance's incarnations, and a session that is alive is one of the
present incarnation. A client receives the first records of its stream before the others. -/
structure Streams (w : World) : Prop where
  opened : ∀ n session, w.sessions n = some session →
    Open (w.log session.instanceId session.incarnation) (w.hub.channels n) session
  incarnation : ∀ n session, w.sessions n = some session → session.live = true →
    session.incarnation = w.closes session.instanceId
  valid : ∀ n session, w.sessions n = some session → Id.isValid session.instanceId = true
  ordered : ∀ n session, w.sessions n = some session →
    (w.hub.channels n).received = 0 ∨ session.initial.length ≤ session.taken

theorem Logged.of_history (h : Logged generation hub closes logs)
    (hgeneration : hub'.generation = hub.generation)
    (hsame : ∀ i, (hub'.history i).nextSequence = (hub.history i).nextSequence ∧
      (hub'.history i).records = (hub.history i).records) :
    Logged generation hub' closes logs where
  generated := hgeneration.trans h.generated
  numbered := h.numbered
  bounded := h.bounded
  ids := h.ids
  unborn := h.unborn
  current := fun i => (hsame i).1.trans (h.current i)
  retained := fun i => (hsame i).2 ▸ h.retained i

theorem logged_self (w : World) (instanceId : String) (record : Record) :
    w.logged instanceId record instanceId (w.closes instanceId) =
      w.log instanceId (w.closes instanceId) ++ [record] := by
  simp [World.logged]

theorem logged_other (w : World) (record : Record) {i : String} {k : Nat}
    (h : ¬(i = instanceId ∧ k = w.closes instanceId)) :
    w.logged instanceId record i k = w.log i k := by
  simp [World.logged, h]

/-- An event adds a record to the log of its instance. -/
theorem Logged.publish (h : Logged generation w.hub w.closes w.log)
    (hpublished : Published w.hub instanceId (w.hub.record instanceId kind data) broadcast hub') :
    Logged generation hub' w.closes
      (w.logged instanceId (w.hub.record instanceId kind data)) := by
  have hsequence : (w.hub.record instanceId kind data).sequence =
      (w.log instanceId (w.closes instanceId)).length + 1 := by
    rw [← h.current instanceId]
    rfl
  have hid : (w.hub.record instanceId kind data).id =
      eventId instanceId generation (w.hub.record instanceId kind data).sequence := by
    rw [← h.generated]
    rfl
  have hbound := hpublished.sequence
  have hhistory := hpublished.history_trims
  generalize w.hub.record instanceId kind data = record at *
  constructor
  · exact hpublished.generation.trans h.generated
  · intro i k
    by_cases hlog : i = instanceId ∧ k = w.closes instanceId
    · obtain ⟨rfl, rfl⟩ := hlog
      rw [logged_self]
      exact (h.numbered _ _).append hsequence
    · rw [logged_other w record hlog]
      exact h.numbered i k
  · intro i k
    by_cases hlog : i = instanceId ∧ k = w.closes instanceId
    · obtain ⟨rfl, rfl⟩ := hlog
      rw [logged_self, length_append, length_singleton, ← hsequence]
      exact hbound
    · rw [logged_other w record hlog]
      exact h.bounded i k
  · intro i k r hr
    by_cases hlog : i = instanceId ∧ k = w.closes instanceId
    · obtain ⟨rfl, rfl⟩ := hlog
      rw [logged_self] at hr
      rcases mem_append.1 hr with hr | hr
      · exact h.ids _ _ r hr
      · rw [mem_singleton.1 hr]
        exact hid
    · rw [logged_other w record hlog] at hr
      exact h.ids i k r hr
  · intro i k hk
    rw [logged_other w record, h.unborn i k hk]
    rintro ⟨rfl, rfl⟩
    omega
  · intro i
    rw [(hhistory i).nextSequence]
    split
    · next hi =>
      rw [hi, logged_self, length_append, length_singleton]
      exact hsequence
    · next hi =>
      rw [logged_other w record fun hlog => hi hlog.1]
      exact h.current i
  · intro i
    apply (hhistory i).records.trans
    split
    · next hi =>
      rw [hi, logged_self]
      obtain ⟨dropped, hdropped⟩ := h.retained instanceId
      refine ⟨dropped, ?_⟩
      rw [← hdropped, append_assoc]
      rfl
    · next hi =>
      rw [logged_other w record fun hlog => hi hlog.1]
      exact h.retained i

/-! ### Publishing -/

/-- A snapshot leaves the sessions as they are. -/
theorem Streams.snapshot (h : Streams w) (n : Nat) (session : Session)
    (hsession : w.sessions n = some session) (hkind : record.kind = .snapshot) :
    Open (w.logged instanceId record session.instanceId session.incarnation) (w.hub.channels n)
      session := by
  by_cases hlog : session.instanceId = instanceId ∧ session.incarnation = w.closes instanceId
  · obtain ⟨rfl, hincarnation⟩ := hlog
    have hopen := h.opened n session hsession
    rw [hincarnation] at hopen ⊢
    rw [logged_self]
    exact hopen.snapshot hkind
  · rw [logged_other w record hlog]
    exact h.opened n session hsession

theorem streams_publish (h : Streams w) (hattended : Attended w) (haccounted : Accounted w.hub)
    (hlogged : Logged generation w.hub w.closes w.log) (hkind : kind ≠ .snapshot)
    (hstep : w.publish instanceId kind data = .ok w') :
    Streams w' ∧ Logged generation w'.hub w'.closes w'.log := by
  unfold World.publish at hstep
  rcases publish_cases haccounted instanceId kind data true with
    ⟨-, hlarge⟩ | hfault | ⟨-, hub', hok, hpublished, -⟩
  · rw [hlarge] at hstep
    cases hstep
    exact ⟨h, hlogged⟩
  · rw [hfault] at hstep
    cases hstep
  rw [hok] at hstep
  cases hstep
  refine ⟨?_, hlogged.publish hpublished⟩
  have hchannels := hpublished.channels
  have hrecord : (w.hub.record instanceId kind data).kind ≠ .snapshot := hkind
  generalize w.hub.record instanceId kind data = record at *
  constructor
  · intro n session hsession
    dsimp only at hsession ⊢
    unfold World.ended at hsession
    obtain ⟨before, hbefore, rfl⟩ := map_eq_some_iff.1 hsession
    have hopen := h.opened n before hbefore
    have hmem : n ∈ (w.hub.history instanceId).subscribers ↔
        before.instanceId = instanceId ∧ before.live = true := by
      rw [hattended.live, hbefore]
      simp
    rw [hchannels]
    unfold EventHub.sentTo
    dsimp only
    by_cases hinstance : before.instanceId = instanceId
    · subst hinstance
      by_cases hincarnation : before.incarnation = w.closes before.instanceId
      · -- the log of the session has the event
        have hbroadcast := hopen.broadcast hrecord
        rw [hincarnation] at hbroadcast ⊢
        rw [logged_self]
        simpa [hmem] using hbroadcast
      · -- the session is over
        have hlive : before.live = false := by
          rw [Bool.eq_false_iff]
          exact fun hlive => hincarnation (h.incarnation n before hbefore hlive)
        rw [logged_other w record fun hlog => hincarnation hlog.2]
        simpa [hmem, hlive] using hopen.end
    · rw [logged_other w record fun hlog => hinstance hlog.1]
      simpa [hmem, hinstance] using hopen
  · intro n session hsession hlive
    dsimp only at hsession hlive ⊢
    unfold World.ended at hsession
    obtain ⟨before, hbefore, rfl⟩ := map_eq_some_iff.1 hsession
    exact h.incarnation n before hbefore (Bool.and_eq_true_iff.1 hlive).1
  · intro n session hsession
    dsimp only at hsession
    unfold World.ended at hsession
    obtain ⟨before, hbefore, rfl⟩ := map_eq_some_iff.1 hsession
    exact h.valid n before hbefore
  · intro n session hsession
    dsimp only at hsession ⊢
    unfold World.ended at hsession
    obtain ⟨before, hbefore, rfl⟩ := map_eq_some_iff.1 hsession
    have hreceived : (hub'.channels n).received = (w.hub.channels n).received := by
      rw [hchannels]
      unfold EventHub.sentTo Channel.send
      split
      · split <;> rfl
      · rfl
    rw [hreceived]
    exact h.ordered n before hbefore

/-! ### Subscribing -/

/-- The first retained sequence number of a history, or the next one. -/
theorem first_eq {history : History} (h : Consecutive history.nextSequence history.records) :
    (history.records.head?.map Record.sequence).getD (history.nextSequence + 1) =
      history.nextSequence + 1 - history.records.length := by
  obtain ⟨-, hmap⟩ := h
  cases hrecords : history.records with
  | nil => simp
  | cons first rest =>
    rw [hrecords, map_cons, length_cons, range'_succ] at hmap
    exact (List.cons.inj hmap).1

theorem replayed_eq_some (h : Accounted hub) {cursor : Option Cursor}
    (hreplayed : hub.replayed instanceId cursor = some sequence) :
    ∃ c, cursor = some c ∧ c.sequence = sequence ∧ (hub.history instanceId).Covers sequence := by
  unfold EventHub.replayed at hreplayed
  obtain ⟨c, hfilter, rfl⟩ := map_eq_some_iff.1 hreplayed
  obtain ⟨hcursor, hreplayable⟩ := filter_eq_some_iff.1 hfilter
  refine ⟨c, hcursor, rfl, ?_⟩
  unfold EventHub.replayable at hreplayable
  split at hreplayable
  · cases hreplayable
  cases hget : hub.histories.get? instanceId with
  | none =>
    rw [hget] at hreplayable
    cases hreplayable
  | some history =>
    have hfirst := first_eq (h.histories instanceId history hget).consecutive
    rw [hget] at hreplayable
    dsimp only at hreplayable
    rw [hfirst, Bool.and_eq_true, decide_eq_true_eq, decide_eq_true_eq] at hreplayable
    rw [history_of_get? hget]
    unfold History.Covers
    omega

/-- A session that replays the records after a sequence number of the history of its instance. -/
theorem open_replay (hlogged : Logged generation hub closes logs)
    (hcovers : (hub.history instanceId).Covers sequence)
    (hstart : session.start = (logs instanceId (closes instanceId)).length)
    (hinitial : session.initial = (hub.history instanceId).initial (some sequence))
    (hsince : ∀ k s, session.since = some (k, s) → session.incarnation = k ∧ sequence = s) :
    Open (logs instanceId (closes instanceId)) {} session := by
  have hcurrent := hlogged.current instanceId
  obtain ⟨hfirst, hlast⟩ := hcovers
  constructor
  · omega
  · refine .inl ⟨sequence, by omega, ?_, hsince⟩
    rw [hinitial, hstart, take_length]
    apply following_suffix (hlogged.numbered _ _) (hlogged.retained instanceId)
    omega
  · exact nil_prefix
  · intro hlive
    rw [hstart, drop_length]
    rfl

/-- A session that starts with the snapshot that was just published. -/
theorem open_snapshot (snapshot : Record) (hkind : snapshot.kind = .snapshot)
    (hlast : log.getLast? = some snapshot) (hstart : session.start = log.length)
    (hinitial : session.initial = [snapshot]) : Open log {} session := by
  constructor
  · omega
  · refine .inr ⟨snapshot, hkind, hinitial, ?_⟩
    rw [hstart, take_length]
    exact hlast
  · exact nil_prefix
  · intro hlive
    rw [hstart, drop_length]
    rfl

theorem streams_subscribe (h : Streams w) (haccounted : Accounted w.hub)
    (hlogged : Logged generation w.hub w.closes w.log) (hgeneration : IsGeneration generation)
    (hvalid : Id.isValid instanceId = true) {cursor : Option Cursor} {since : Option (Nat × Nat)}
    {snapshot : String}
    (hsince : ∀ k s, since = some (k, s) → ∀ sequence,
      w.hub.replayed instanceId cursor = some sequence → w.closes instanceId = k ∧ sequence = s)
    (hstep : w.subscribe instanceId cursor since snapshot = .ok w') :
    Streams w' ∧ Logged generation w'.hub w'.closes w'.log := by
  unfold World.subscribe at hstep
  rcases subscribe_cases haccounted instanceId cursor snapshot with
    ⟨refusal, hrefused⟩ | hfault | ⟨hub₁, history, hprepared, haccounted₁, hget, hok, -⟩
  · rw [hrefused] at hstep
    cases hstep
    exact ⟨h, hlogged⟩
  · rw [hfault] at hstep
    cases hstep
  rw [hok] at hstep
  cases hstep
  have hnumber := hprepared.nextSubscriber
  have hhistory := history_of_get? hget
  -- what the subscription does before it adds the subscriber
  have hbefore : Logged generation hub₁ w.closes (w.subscribedLog instanceId cursor snapshot) ∧
      (∀ n session, w.sessions n = some session →
        Open (w.subscribedLog instanceId cursor snapshot session.instanceId session.incarnation)
          (hub₁.channels n) session) ∧
      hub₁.channels = w.hub.channels ∧
      Open (w.subscribedLog instanceId cursor snapshot instanceId (w.closes instanceId)) {}
        (w.session instanceId cursor since snapshot
          (history.initial (w.hub.replayed instanceId cursor))) := by
    obtain ⟨hreplayed, rfl⟩ | ⟨hreplayed, hsmall, hpublished⟩ := hprepared
    · obtain ⟨sequence, hsequence⟩ := ne_none_iff_exists'.1 hreplayed
      obtain ⟨c, -, -, hcovers⟩ := replayed_eq_some haccounted hsequence
      have hlog : w.subscribedLog instanceId cursor snapshot = w.log := by
        unfold World.subscribedLog
        rw [hsequence]
        rfl
      rw [hlog]
      refine ⟨hlogged, h.opened, rfl, ?_⟩
      apply open_replay hlogged hcovers
      · unfold World.session
        rw [hlog]
      · rw [hhistory, hsequence]
        rfl
      · exact fun k s hk => hsince k s hk sequence hsequence
    · have hlog : w.subscribedLog instanceId cursor snapshot =
          w.logged instanceId (w.hub.record instanceId .snapshot snapshot) := by
        unfold World.subscribedLog
        rw [hreplayed]
        rfl
      have hchannels : hub₁.channels = w.hub.channels := hpublished.channels
      have hfits : (w.hub.record instanceId .snapshot snapshot).bytes ≤ instanceHistoryBytes := by
        refine bytes_le ?_ hvalid hgeneration hpublished.sequence hsmall
        rw [← hlogged.generated]
        rfl
      obtain ⟨history', hget', hlast⟩ := hpublished.newest hfits
      rw [hget] at hget'
      cases hget'
      rw [hlog]
      refine ⟨hlogged.publish hpublished, ?_, hchannels, ?_⟩
      · intro n session hsession
        rw [hchannels]
        exact h.snapshot n session hsession rfl
      · apply open_snapshot (w.hub.record instanceId .snapshot snapshot) rfl
        · rw [logged_self]
          simp
        · unfold World.session
          rw [hlog]
        · rw [hreplayed]
          unfold World.session History.initial
          rw [hlast]
          rfl
  obtain ⟨hlogged₁, hothers, hchannels, hnew⟩ := hbefore
  refine ⟨⟨?_, ?_, ?_, ?_⟩, ?_⟩
  · intro n session hsession
    dsimp only [EventHub.withSubscriber] at hsession ⊢
    rw [update_apply] at hsession ⊢
    split at hsession
    · next hn =>
      cases hsession
      rw [if_pos hn]
      exact hnew
    · next hn =>
      rw [if_neg hn]
      exact hothers n session hsession
  · intro n session hsession hlive
    dsimp only at hsession ⊢
    rw [update_apply] at hsession
    split at hsession
    · cases hsession
      rfl
    · exact h.incarnation n session hsession hlive
  · intro n session hsession
    dsimp only at hsession
    rw [update_apply] at hsession
    split at hsession
    · cases hsession
      exact hvalid
    · exact h.valid n session hsession
  · intro n session hsession
    dsimp only [EventHub.withSubscriber] at hsession ⊢
    rw [update_apply] at hsession ⊢
    split at hsession
    · next hn =>
      rw [if_pos hn]
      exact .inl rfl
    · next hn =>
      rw [if_neg hn, hchannels]
      exact h.ordered n session hsession
  · dsimp only
    refine hlogged₁.of_history ?_ ?_
    · rfl
    intro i
    unfold EventHub.withSubscriber
    unfold EventHub.history at hhistory ⊢
    dsimp only
    rw [history_insert]
    split
    · next hi =>
      rw [hi, hhistory]
      exact ⟨rfl, rfl⟩
    · exact ⟨rfl, rfl⟩

/-! ### Resuming -/

theorem received_prefix_stream (h : Streams w) (n : Nat) : w.received n <+: w.stream n := by
  unfold World.received World.stream
  cases hsession : w.sessions n with
  | none => exact nil_prefix
  | some session =>
    dsimp only
    rcases h.ordered n session hsession with hnone | hall
    · rw [hnone, take_zero, append_nil]
      exact (List.take_prefix _ _).trans (prefix_append _ _)
    · rw [take_of_length_le hall]
      exact (prefix_append_right_inj _).2 (List.take_prefix _ _)

/-- The id of a record that the client of a session received is parsed to its cursor. -/
theorem parse_received (h : Streams w) (hlogged : Logged generation w.hub w.closes w.log)
    (hgeneration : IsGeneration generation) {n : Nat} {session : Session}
    (hsession : w.sessions n = some session) (hlast : (w.received n).getLast? = some record) :
    Cursor.parse record.id = some ⟨session.instanceId, generation, record.sequence⟩ := by
  have hstream : record ∈ w.stream n :=
    (received_prefix_stream h n).subset (mem_of_getLast? hlast)
  have hmem : record ∈ w.log session.instanceId session.incarnation := by
    unfold World.stream at hstream
    rw [hsession] at hstream
    exact (h.opened n session hsession).mem_log record hstream
  have hnumbered := hlogged.numbered session.instanceId session.incarnation
  have hsequence := mem_map_of_mem (f := Record.sequence) hmem
  rw [hnumbered, mem_range'_1] at hsequence
  have hbound := hlogged.bounded session.instanceId session.incarnation
  rw [hlogged.ids _ _ record hmem]
  apply Cursor.parse_eventId (h.valid n session hsession) hgeneration
  · omega
  · omega

theorem streams_resume (h : Streams w) (haccounted : Accounted w.hub)
    (hlogged : Logged generation w.hub w.closes w.log) (hgeneration : IsGeneration generation)
    {n : Nat} {snapshot : String} (hdistinct : Distinct w (.resume n snapshot))
    (hstep : w.resume n snapshot = .ok w') :
    Streams w' ∧ Logged generation w'.hub w'.closes w'.log := by
  unfold World.resume at hstep
  cases hsession : w.sessions n with
  | none =>
    rw [hsession] at hstep
    cases hstep
    exact ⟨h, hlogged⟩
  | some session =>
    rw [hsession] at hstep
    dsimp only at hstep
    have hvalid := h.valid n session hsession
    cases hlast : (w.received n).getLast? with
    | none =>
      rw [hlast] at hstep
      refine streams_subscribe h haccounted hlogged hgeneration hvalid ?_ hstep
      intro k s hk
      cases hk
    | some record =>
      rw [hlast] at hstep
      dsimp only at hstep
      rw [parse_received h hlogged hgeneration hsession hlast] at hstep
      refine streams_subscribe h haccounted hlogged hgeneration hvalid ?_ hstep
      intro k s hk sequence hreplayed
      cases hk
      obtain ⟨c, hc, rfl, hcovers⟩ := replayed_eq_some haccounted hreplayed
      cases hc
      rcases hdistinct session record hsession hlast with hincarnation | hnot
      · exact ⟨hincarnation.symm, rfl⟩
      · exact absurd hcovers hnot

/-! ### The other steps -/

theorem Streams.ended (h : Streams w) (ends : Nat → Session → Bool)
    (hsessions : w'.sessions = w.ended ends) (hlog : w'.log = w.log)
    (hchannels : w'.hub.channels = w.hub.channels)
    (hcloses : ∀ n session, w.sessions n = some session → ends n session = false →
      w'.closes session.instanceId = w.closes session.instanceId) : Streams w' := by
  have hbefore : ∀ n session, w'.sessions n = some session → ∃ before,
      w.sessions n = some before ∧
        session = { before with live := before.live && !ends n before } := by
    intro n session hsession
    rw [hsessions] at hsession
    obtain ⟨before, hbefore, rfl⟩ := map_eq_some_iff.1 hsession
    exact ⟨before, hbefore, rfl⟩
  constructor
  · intro n session hsession
    obtain ⟨before, hold, rfl⟩ := hbefore n session hsession
    have hopen := h.opened n before hold
    rw [hlog, hchannels]
    exact ⟨hopen.start, hopen.began, hopen.sent, fun hlive =>
      hopen.complete (Bool.and_eq_true_iff.1 hlive).1⟩
  · intro n session hsession hlive
    obtain ⟨before, hold, rfl⟩ := hbefore n session hsession
    obtain ⟨hlive, hends⟩ := Bool.and_eq_true_iff.1 hlive
    rw [h.incarnation n before hold hlive]
    exact (hcloses n before hold (Bool.not_eq_true' _ ▸ hends)).symm
  · intro n session hsession
    obtain ⟨before, hold, rfl⟩ := hbefore n session hsession
    exact h.valid n before hold
  · intro n session hsession
    obtain ⟨before, hold, rfl⟩ := hbefore n session hsession
    rw [hchannels]
    exact h.ordered n before hold

theorem streams_unsubscribe (h : Streams w) (hlogged : Logged generation w.hub w.closes w.log)
    (instanceId : String) (n : Nat) :
    Streams (w.unsubscribe instanceId n) ∧
      Logged generation (w.unsubscribe instanceId n).hub w.closes w.log := by
  constructor
  · refine h.ended _ rfl rfl ?_ fun _ _ _ _ => rfl
    unfold World.unsubscribe EventHub.unsubscribe
    dsimp only
    split <;> rfl
  · unfold World.unsubscribe EventHub.unsubscribe
    dsimp only
    cases hget : w.hub.histories.get? instanceId with
    | none => exact hlogged
    | some history =>
      refine hlogged.of_history ?_ ?_
      · rfl
      intro i
      unfold EventHub.history
      dsimp only
      rw [history_insert]
      split
      · next hi =>
        rw [hi, hget]
        exact ⟨rfl, rfl⟩
      · exact ⟨rfl, rfl⟩

/-- Closing an instance begins its next incarnation, of which nothing is published yet. -/
theorem streams_closeInstance (h : Streams w) (haccounted : Accounted w.hub)
    (hlogged : Logged generation w.hub w.closes w.log)
    (hstep : w.closeInstance instanceId = .ok w') :
    Streams w' ∧ Logged generation w'.hub w'.closes w'.log := by
  obtain ⟨hub', hok, -, hhub'⟩ := closeInstance_ok haccounted instanceId
  unfold World.closeInstance at hstep
  rw [hok] at hstep
  cases hstep
  have hhistory : ∀ i, hub'.history i = if i = instanceId then {} else w.hub.history i := by
    intro i
    rw [hhub']
    exact history_erase w.hub.histories i
  constructor
  · refine h.ended _ rfl rfl ?_ ?_
    · dsimp only
      rw [hhub']
    · intro n session _ hends
      have hother : session.instanceId ≠ instanceId := by simpa using hends
      exact update_of_ne hother _ _
  · constructor
    · dsimp only
      rw [hhub']
      exact hlogged.generated
    · exact hlogged.numbered
    · exact hlogged.bounded
    · exact hlogged.ids
    · intro i k hk
      dsimp only at hk
      rw [update_apply] at hk
      apply hlogged.unborn i k
      split at hk
      · next hi =>
        rw [hi]
        omega
      · exact hk
    · intro i
      dsimp only
      rw [hhistory, update_apply]
      split
      · next hi =>
        rw [hi, hlogged.unborn instanceId _ (Nat.lt_succ_self _)]
        rfl
      · exact hlogged.current i
    · intro i
      dsimp only
      rw [hhistory, update_apply]
      split
      · exact nil_suffix
      · exact hlogged.retained i

theorem streams_receive (h : Streams w) (n : Nat) : Streams (w.receive n) := by
  unfold World.receive
  cases hsession : w.sessions n with
  | none => exact h
  | some session =>
    have hopen := h.opened n session hsession
    dsimp only
    split
    · next hmore =>
      have hnothing : (w.hub.channels n).received = 0 := by
        rcases h.ordered n session hsession with hnone | hall
        · exact hnone
        · omega
      constructor
      · intro m s hs
        dsimp only at hs ⊢
        rw [update_apply] at hs
        split at hs
        · next hm =>
          cases hs
          rw [hm]
          exact hopen.of_eq rfl rfl
        · exact h.opened m s hs
      · intro m s hs
        dsimp only at hs ⊢
        rw [update_apply] at hs
        split at hs
        · cases hs
          exact h.incarnation n session hsession
        · exact h.incarnation m s hs
      · intro m s hs
        dsimp only at hs
        rw [update_apply] at hs
        split at hs
        · cases hs
          exact h.valid n session hsession
        · exact h.valid m s hs
      · intro m s hs
        dsimp only at hs ⊢
        rw [update_apply] at hs
        split at hs
        · next hm =>
          rw [hm]
          exact .inl hnothing
        · exact h.ordered m s hs
    · next hdone =>
      constructor
      · intro m s hs
        dsimp only at hs ⊢
        rw [update_apply]
        split
        · next hm =>
          rw [hm] at hs
          refine (h.opened n s hs).of_eq ?_ rfl
          unfold Channel.receive
          split <;> rfl
        · exact h.opened m s hs
      · exact h.incarnation
      · exact h.valid
      · intro m s hs
        dsimp only at hs ⊢
        rw [update_apply]
        split
        · next hm =>
          rw [hm, hsession] at hs
          cases hs
          exact .inr (Nat.not_lt.1 hdone)
        · exact h.ordered m s hs

theorem streams_hangUp (h : Streams w) (n : Nat) : Streams (w.hangUp n) := by
  have hsame : ∀ m, ((w.hangUp n).hub.channels m).sent = (w.hub.channels m).sent ∧
      ((w.hangUp n).hub.channels m).received = (w.hub.channels m).received := by
    intro m
    unfold World.hangUp
    dsimp only
    rw [update_apply]
    split
    · next hm =>
      rw [hm]
      exact ⟨rfl, rfl⟩
    · exact ⟨rfl, rfl⟩
  constructor
  · exact fun m s hs => (h.opened m s hs).of_eq (hsame m).1 rfl
  · exact h.incarnation
  · exact h.valid
  · intro m s hs
    rw [(hsame m).2]
    exact h.ordered m s hs

/-! ### The result -/

theorem streams_step (h : Streams w) (hattended : Attended w) (haccounted : Accounted w.hub)
    (hlogged : Logged generation w.hub w.closes w.log) (hgeneration : IsGeneration generation)
    {op : Op} (hvalid : op.isValid = true) (hdistinct : Distinct w op) (hstep : w.step op = .ok w') :
    Streams w' ∧ Logged generation w'.hub w'.closes w'.log := by
  cases op with
  | publishState instanceId data =>
    exact streams_publish h hattended haccounted hlogged (by decide) hstep
  | publishOperation instanceId data =>
    exact streams_publish h hattended haccounted hlogged (by decide) hstep
  | publishQmp instanceId data =>
    exact streams_publish h hattended haccounted hlogged (by decide) hstep
  | subscribe instanceId cursor snapshot =>
    refine streams_subscribe h haccounted hlogged hgeneration hvalid ?_ hstep
    intro k s hk
    cases hk
  | resume n snapshot =>
    exact streams_resume h haccounted hlogged hgeneration hdistinct hstep
  | unsubscribe instanceId n =>
    cases hstep
    exact streams_unsubscribe h hlogged instanceId n
  | closeInstance instanceId => exact streams_closeInstance h haccounted hlogged hstep
  | receive n =>
    cases hstep
    refine ⟨streams_receive h n, ?_⟩
    unfold World.receive
    split
    · exact hlogged
    · split
      · exact hlogged
      · exact hlogged.of_history rfl fun _ => ⟨rfl, rfl⟩
  | hangUp n =>
    cases hstep
    exact ⟨streams_hangUp h n, hlogged.of_history rfl fun _ => ⟨rfl, rfl⟩⟩

theorem streams_initial (generation : String) : Streams (World.initial generation) := by
  constructor <;> exact fun _ _ hsession => nomatch hsession

theorem logged_initial (generation : String) :
    Logged generation (World.initial generation).hub (World.initial generation).closes
      (World.initial generation).log where
  generated := rfl
  numbered := fun _ _ => rfl
  bounded := fun _ _ => by simp [World.initial]
  ids := fun _ _ _ h => nomatch h
  unborn := fun _ _ _ => rfl
  current := fun _ => rfl
  retained := fun _ => nil_suffix

theorem streams_of_reachable (hgeneration : IsGeneration generation)
    (h : Reachable (fun w op => op.isValid = true ∧ Distinct w op) generation w) :
    Streams w ∧ Logged generation w.hub w.closes w.log := by
  induction h with
  | initial => exact ⟨streams_initial generation, logged_initial generation⟩
  | step hreachable hallowed hstep ih =>
    obtain ⟨haccounted, hattended⟩ := attended_of_reachable hreachable
    exact streams_step ih.1 hattended haccounted ih.2 hgeneration hallowed.1 hallowed.2 hstep

/-- In every run in which no session is resumed after an event of an earlier incarnation of its
instance whose sequence number the present history covers, a client that resumes loses nothing. -/
theorem losesNothing_of_distinct (hgeneration : IsGeneration generation)
    (h : Reachable (fun w op => op.isValid = true ∧ Distinct w op) generation w) : LosesNothing w := by
  obtain ⟨hstreams, hlogged⟩ := streams_of_reachable hgeneration h
  intro n session k s hsession hsince
  have hopen := hstreams.opened n session hsession
  have hstream : w.stream n = session.initial ++ (w.hub.channels n).sent := by
    unfold World.stream
    rw [hsession]
  refine ⟨received_prefix_stream hstreams n, ?_⟩
  rw [hstream]
  rcases hopen.follows (hlogged.numbered _ _) hsince with ⟨rfl, hfollows⟩ | hresyncs
  · exact .inl ⟨rfl, hfollows⟩
  · exact .inr hresyncs

/-! ### Runs that lose events -/

/-- Run some operations, each of which passes a check. -/
def World.runs (check : World → Op → Bool) : World → List Op → Option World
  | w, [] => some w
  | w, op :: ops =>
    if check w op then
      match w.step op with
      | .ok w' => World.runs check w' ops
      | .error _ => none
    else none

theorem Reachable.runs {allowed : World → Op → Prop} {check : World → Op → Bool}
    (hcheck : ∀ w op, check w op = true → allowed w op) {ops : List Op}
    (h : Reachable allowed generation w) (hruns : World.runs check w ops = some w') :
    Reachable allowed generation w' := by
  induction ops generalizing w with
  | nil =>
    cases hruns
    exact h
  | cons op ops ih =>
    unfold World.runs at hruns
    split at hruns
    · next hop =>
      split at hruns
      · next hstep => exact ih (h.step (hcheck w op hop) hstep) hruns
      · cases hruns
    · cases hruns

/-- The operation is valid, and a session is resumed in the incarnation it is of. -/
def checked (w : World) (op : Op) : Bool :=
  op.isValid &&
    match op with
    | .resume n _ =>
      (w.sessions n).all fun session => decide (session.incarnation = w.closes session.instanceId)
    | _ => true

theorem checked_distinct (w : World) (op : Op) (h : checked w op = true) :
    op.isValid = true ∧ Distinct w op := by
  unfold checked at h
  obtain ⟨hvalid, hcheck⟩ := Bool.and_eq_true_iff.1 h
  refine ⟨hvalid, ?_⟩
  cases op with
  | resume n snapshot =>
    intro session record hsession _
    dsimp only at hcheck
    rw [hsession] at hcheck
    exact .inl (of_decide_eq_true hcheck)
  | _ => trivial

/-- A client that resumes after the snapshot it received gets the event published since. -/
theorem losesNothing_of_distinct_lab01 :
    ∃ w, LosesNothing w ∧
      (w.sessions 2).map Session.since = some (some (0, 1)) ∧
      (w.stream 2).map Record.sequence = [2] := by
  have hruns : (World.runs checked (World.initial "0123456789abcdef0123456789abcdef")
      [.subscribe "lab01" none "null", .receive 1, .publishState "lab01" "null",
        .resume 1 "null"]).map (fun w =>
          ((w.sessions 2).map Session.since, (w.stream 2).map Record.sequence)) =
      some (some (some (0, 1)), [2]) := by
    decide
  obtain ⟨w, hw, hresult⟩ := map_eq_some_iff.1 hruns
  obtain ⟨hsince, hstream⟩ := Prod.mk.inj hresult
  have hreachable := Reachable.runs checked_distinct .initial hw
  exact ⟨w, losesNothing_of_distinct ⟨by decide, by decide⟩ hreachable, hsince, hstream⟩

/-- An id from before an instance was closed is taken for one of the instance created after it, and
the client does not get the first event of that one. -/
theorem not_losesNothing :
    ¬∀ generation w, IsGeneration generation →
      Reachable (fun _ op => op.isValid = true) generation w → LosesNothing w := by
  intro h
  have hruns : (World.runs (fun _ op => op.isValid)
      (World.initial "0123456789abcdef0123456789abcdef")
      [.subscribe "lab01" none "null", .receive 1, .closeInstance "lab01",
        .publishState "lab01" "null", .resume 1 "null"]).map (fun w =>
          ((w.sessions 2).map fun session => (session.since, session.incarnation), w.stream 2)) =
      some (some (some (0, 1), 1), []) := by
    decide
  obtain ⟨w, hw, hresult⟩ := map_eq_some_iff.1 hruns
  obtain ⟨hsession, hstream⟩ := Prod.mk.inj hresult
  obtain ⟨session, hsome, hpair⟩ := map_eq_some_iff.1 hsession
  obtain ⟨hsince, hincarnation⟩ := Prod.mk.inj hpair
  have hreachable := Reachable.runs (fun _ _ hop => hop) .initial hw
  obtain ⟨-, ⟨hsame, -⟩ | ⟨record, rest, hnonempty, -⟩⟩ :=
    h _ w ⟨by decide, by decide⟩ hreachable 2 session 0 1 hsome hsince
  · omega
  · rw [hstream] at hnonempty
    cases hnonempty

end Events

end MachineEmu
