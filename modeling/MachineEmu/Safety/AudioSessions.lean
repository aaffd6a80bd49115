import MachineEmu.Safety.AudioSlots

/-!
# The channels of an audio session are bound to one main channel

Whichever way requests, relays and teardowns come after each other, each channel of a session is held
by at most one task, and a playback or record channel has the connection ID that QEMU gave to the main
channel of its session.

* `Streams.Bound` — the invariant of a run.
* `Streams.Bound.step` — what each step keeps.
* `audio_sessions` — what follows for each admission, close and ticket.
-/

namespace MachineEmu

open Lib List Function Option

/-! ## The invariant of a run -/

/-- The tickets of audio sessions are for audio channels. -/
def StreamTicket.Kinded (ticket : StreamTicket) : Prop :=
  ∀ group, ticket.audioGroup = some group →
    ∃ channel ∈ ["main", "playback", "record"], ticket.kind = "spice-" ++ channel

/-- A relay is that of the channel that its task holds. -/
structure Relay.Fits (relay : Relay) (a : Attachment) : Prop where
  group : relay.group = a.lease.group
  id : relay.gate.connectionId = a.expectedId
  main : relay.gate.channel = .main → a.lease.channel = "main"

/-- What holds of a task by itself. -/
def StreamTask.Good : StreamTask → Prop
  | issuing .. => True
  | redeemed id ticket | claimed id ticket _ | stream id ticket _ =>
    ticket.instanceId = id ∧ ticket.Kinded
  | audio id ticket _ a =>
    ticket.instanceId = id ∧ ticket.Kinded ∧
      a.lease = ⟨ticket.audioGroup.getD "", Streams.channelOf ticket.kind⟩ ∧
      ∀ relay, a.relay = some relay → relay.Fits a

variable {ticket : StreamTicket}

theorem Relay.start_ok {expectedId : UInt32} {relay : Relay}
    (h : Relay.start ticket expectedId = .ok relay) :
    ticket.audioGroup = some relay.group ∧ relay.gate.connectionId = expectedId ∧
      relay.observer = none ∧
      (relay.gate.channel = .main → ticket.kind = "spice-main") := by
  unfold Relay.start at h
  simp only at h
  split at h
  · cases h
  · next channel hchannel =>
    split at h
    · cases h
    · next group hgroup =>
      split at h
      · cases h
      · cases h
        refine ⟨hgroup, rfl, rfl, ?_⟩
        rintro (rfl : channel = .main)
        grind

namespace Streams

/-- What holds in every run. -/
structure Bound (w : Streams) : Prop where
  slots : Slots w.audioSessions w.attachment
  tasks : ∀ t task, w.tasks t = some task → task.Good
  groups : ∀ g session, w.audioSessions.get? g = some session → g ∈ w.drawn
  holders : ∀ t a, w.attachment t = some a → a.lease.group ∈ w.drawn
  tickets : ∀ value ticket, w.streamTickets.get? value = some ticket →
    value ∈ w.drawn ∧ value ∉ w.taken ∧ ticket.Kinded
  nodup : w.taken.Nodup
  taken : ∀ value ∈ w.taken, value ∈ w.drawn

variable {w w' : Streams} {t : Nat} {task : StreamTask}

theorem attachment_setTask (w : Streams) (t : Nat) (task : StreamTask) :
    (w.setTask t task).attachment = Function.update w.attachment t task.attachment := by
  funext u
  by_cases hu : u = t
  · subst hu
    simp [attachment, setTask]
  · simp [attachment, setTask, hu]

theorem attachment_endTask (w : Streams) (t : Nat) :
    (w.endTask t).attachment = Function.update w.attachment t none := by
  funext u
  by_cases hu : u = t
  · subst hu
    simp [attachment, endTask]
  · simp [attachment, endTask, hu]

variable {id : String} {a : Attachment}

theorem attach_ok {group : String}
    {sessions : SortedMap String AudioSession} (h : w.attach id ticket group = .ok (a, sessions)) :
    ∃ session, w.audioSessions.get? group = some session ∧ session.instanceId = id ∧
      session.runId = ticket.runId ∧ a.lease = ⟨group, channelOf ticket.kind⟩ ∧ a.relay = none ∧
      channelOf ticket.kind ∉ session.active ∧
      (channelOf ticket.kind ≠ "main" →
        "main" ∈ session.active ∧ session.connectionId = some a.expectedId) ∧
      sessions = w.audioSessions.insert group
        { session with active := insert (channelOf ticket.kind) session.active } := by
  unfold attach at h
  simp only at h
  split at h
  · cases h
  · next session hsession =>
    split at h
    · cases h
    · next hmatch =>
      push Not at hmatch
      split at h
      · cases h
      · next expectedId hexpected =>
        cases h
        refine ⟨session, hsession, hmatch.1, hmatch.2.1, rfl, rfl, hmatch.2.2.2.1, ?_, rfl⟩
        intro hchild
        rw [if_neg hchild] at hexpected
        grind

/-- What a request finds: no ticket, or one that is taken, whether it matches or not. -/
theorem redeem_cases (w : Streams) (id kind value : String) :
    w.redeem id kind value = (.error 401, w) ∨
    ∃ ticket, w.streamTickets.get? value = some ticket ∧
      (w.redeem id kind value = (.error 401, { w with
          streamTickets := w.streamTickets.erase value, taken := value :: w.taken }) ∨
        ticket.instanceId = id ∧ ticket.kind = kind ∧
          w.redeem id kind value = (.ok ticket, { w with
            streamTickets := w.streamTickets.erase value, taken := value :: w.taken })) := by
  unfold redeem
  split
  · exact .inl rfl
  · next ticket hticket =>
    refine .inr ⟨ticket, hticket, ?_⟩
    simp only
    split
    · exact .inl rfl
    · next hmatch =>
      push Not at hmatch
      exact .inr ⟨hmatch.2.1, hmatch.2.2, rfl⟩

/-- What a relay leads to: the end of its task, or what it goes on with. -/
theorem withRelay_cases {f : Relay → Option (Except String (Relay × SortedMap String AudioSession))}
    (h : w.withRelay t f = some w') :
    w' = w.endTask t ∨ ∃ id ticket control a relay after sessions,
      w.tasks t = some (.audio id ticket control a) ∧ a.relay = some relay ∧
      f relay = some (.ok (after, sessions)) ∧
      w' = ({ w with audioSessions := sessions } : Streams).setTask t
        (.audio id ticket control { a with relay := some after }) := by
  unfold withRelay at h
  split at h
  · next id ticket control a htask =>
    split at h
    · cases h
    · cases h
      exact .inl rfl
    · next after sessions hf =>
      cases h
      obtain ⟨relay, hrelay, hf⟩ := bind_eq_some_iff.1 hf
      exact .inr ⟨id, ticket, control, a, relay, after, sessions, htask, hrelay, hf, rfl⟩
  · cases h

namespace Bound

theorem start : Bound {} where
  slots := Slots.empty
  tasks := by simp
  groups := by simp
  holders := by simp [attachment]
  tickets := by simp
  nodup := nodup_nil
  taken := by simp

/-- The clock, the runs and the input control do not matter. -/
theorem congr (h : Bound w) (hsessions : w'.audioSessions = w.audioSessions)
    (htasks : w'.tasks = w.tasks) (htickets : w'.streamTickets = w.streamTickets)
    (hdrawn : w'.drawn = w.drawn) (htaken : w'.taken = w.taken) : Bound w' := by
  have hheld : w'.attachment = w.attachment := by
    funext t
    simp [attachment, htasks]
  constructor
  · rw [hsessions, hheld]
    exact h.slots
  · rw [htasks]
    exact h.tasks
  · rw [hsessions, hdrawn]
    exact h.groups
  · rw [hheld, hdrawn]
    exact h.holders
  · rw [htickets, hdrawn, htaken]
    exact h.tickets
  · rw [htaken]
    exact h.nodup
  · rw [htaken, hdrawn]
    exact h.taken

theorem retainTickets (h : Bound w) (p : StreamTicket → Bool) : Bound (w.retainTickets p) :=
  ⟨h.slots, h.tasks, h.groups, h.holders,
    fun value ticket hticket => h.tickets value ticket (SortedMap.get?_of_filter hticket),
    h.nodup, h.taken⟩

theorem retainSessions (h : Bound w) (p : AudioSession → Bool) : Bound (w.retainSessions p) :=
  ⟨h.slots.forget fun _ _ => SortedMap.get?_of_filter, h.tasks,
    fun g session hsession => h.groups g session (SortedMap.get?_of_filter hsession),
    h.holders, h.tickets, h.nodup, h.taken⟩

theorem draw (h : Bound w) (values : List String) : Bound (w.draw values) where
  slots := h.slots
  tasks := h.tasks
  groups g session hs := mem_append_right _ (h.groups g session hs)
  holders t a ha := mem_append_right _ (h.holders t a ha)
  tickets value ticket ht :=
    ⟨mem_append_right _ (h.tickets value ticket ht).1, (h.tickets value ticket ht).2⟩
  nodup := h.nodup
  taken value hv := mem_append_right _ (h.taken value hv)

variable {value : String}

theorem insertTicket (h : Bound w)
    (hdrawn : value ∈ w.drawn) (htaken : value ∉ w.taken) (hkind : ticket.Kinded) :
    Bound (w.insertTicket value ticket) := by
  refine ⟨h.slots, h.tasks, h.groups, h.holders, fun v other hv => ?_, h.nodup, h.taken⟩
  unfold Streams.insertTicket at hv
  rw [SortedMap.get?_insert] at hv
  split at hv
  · next hsame =>
    cases hv
    subst hsame
    exact ⟨hdrawn, htaken, hkind⟩
  · exact h.tickets v other hv

theorem insertTickets {ticket : String → StreamTicket} {channels tokens : List String}
    (h : Bound w) (hdrawn : ∀ token ∈ tokens, token ∈ w.drawn)
    (htaken : ∀ token ∈ tokens, token ∉ w.taken)
    (hkind : ∀ channel ∈ channels, (ticket channel).Kinded) :
    Bound (w.insertTickets ticket channels tokens).2 := by
  induction channels generalizing w tokens with
  | nil => exact h
  | cons channel channels ih =>
    cases tokens with
    | nil => exact h
    | cons token tokens =>
      simp only [forall_mem_cons] at hdrawn htaken hkind
      exact ih (h.insertTicket hdrawn.1 htaken.1 hkind.1) hdrawn.2 htaken.2 hkind.2

/-- A task that holds no channel becomes another one that holds none. -/
theorem setTask (h : Bound w) (hnone : w.attachment t = none) (hplain : task.attachment = none)
    (hgood : task.Good) : Bound (w.setTask t task) := by
  have hheld : (w.setTask t task).attachment = w.attachment := by
    rw [attachment_setTask, hplain, ← hnone, update_eq_self]
  refine ⟨?_, fun u other hu => ?_, h.groups, ?_, h.tickets, h.nodup, h.taken⟩
  · rw [hheld]
    exact h.slots
  · simp only [Streams.setTask, update_apply] at hu
    have hold := h.tasks u other
    grind
  · rw [hheld]
    exact h.holders

theorem endTask (h : Bound w) (t : Nat) : Bound (w.endTask t) := by
  have hslots : Slots (w.endTask t).audioSessions (w.endTask t).attachment := by
    rw [attachment_endTask]
    cases ha : w.attachment t with
    | none =>
      rw [← ha, update_eq_self]
      simp only [Streams.endTask, ha]
      exact h.slots
    | some a =>
      simp only [Streams.endTask, ha]
      exact h.slots.drop ha
  refine ⟨hslots, fun u other hu => ?_, fun g after hafter => ?_, fun u a ha => ?_, h.tickets,
    h.nodup, h.taken⟩
  · simp only [Streams.endTask, update_apply] at hu
    have hold := h.tasks u other
    grind
  · simp only [Streams.endTask] at hafter
    split at hafter
    · exact h.groups g after hafter
    · obtain ⟨session, hsession, -⟩ := AudioLease.of_get?_drop hafter
      exact h.groups g session hsession
  · rw [attachment_endTask, update_apply] at ha
    split at ha
    · cases ha
    · exact h.holders u a ha

theorem issueStreamTicket {kind : String} {control takeover : Bool}
    {run : Option String} {endpoint : Endpoint} (h : Bound w) (hfresh : w.Fresh [value]) :
    Bound ((w.draw [value]).issueStreamTicket id kind control takeover run endpoint value).2 := by
  have hdrawn := (h.draw [value]).retainTickets
    fun ticket => decide ((w.draw [value]).now < ticket.expires)
  have hnew : value ∉ w.drawn := hfresh.2 value (mem_singleton_self value)
  unfold Streams.issueStreamTicket
  simp only
  split
  · exact hdrawn
  · exact hdrawn.insertTicket (mem_append_left _ (mem_singleton_self value))
      (fun htaken => hnew (h.taken value htaken)) nofun

theorem issueSpiceTickets {run group : String} {microphone : Bool} {endpoint : Endpoint}
    {tokens : List String} (h : Bound w) (hfresh : w.Fresh (group :: tokens)) :
    Bound ((w.draw (group :: tokens)).issueSpiceTickets id run microphone endpoint group
      tokens).2 := by
  have hdrawn := (h.draw (group :: tokens)).retainTickets
    fun ticket => decide ((w.draw (group :: tokens)).now < ticket.expires)
  obtain ⟨hnodup, hnew⟩ := hfresh
  unfold Streams.issueSpiceTickets
  simp only
  split
  · exact hdrawn
  · split
    · exact hdrawn.retainSessions _
    · have hkept := hdrawn.retainSessions fun session =>
        decide ((w.draw (group :: tokens)).now < session.expires) || decide (session.active ≠ ∅)
      apply insertTickets
      · refine ⟨hkept.slots.new (fun t a ha hgroup => ?_) rfl rfl, hkept.tasks,
          fun g session hs => ?_, hkept.holders, hkept.tickets, hkept.nodup, hkept.taken⟩
        · have hheld := h.holders t a ha
          rw [hgroup] at hheld
          exact hnew group mem_cons_self hheld
        · rw [SortedMap.get?_insert] at hs
          split at hs
          · next hg =>
            rw [hg]
            exact mem_append_left _ mem_cons_self
          · exact hkept.groups g session hs
      · intro token htoken
        exact mem_append_left _ (mem_cons_of_mem _ htoken)
      · intro token htoken htaken
        exact hnew token (mem_cons_of_mem _ htoken) (h.taken token htaken)
      · intro channel hchannel g hg
        refine ⟨channel, ?_, rfl⟩
        cases microphone <;> simp [spiceChannels] at hchannel ⊢ <;> tauto

/-- A ticket is taken. -/
theorem take (h : Bound w) (hticket : w.streamTickets.get? value = some ticket) : Bound { w with
      streamTickets := w.streamTickets.erase value, taken := value :: w.taken } := by
  obtain ⟨hdrawn, htaken, -⟩ := h.tickets value ticket hticket
  refine ⟨h.slots, h.tasks, h.groups, h.holders, fun v other hv => ?_,
    nodup_cons.2 ⟨htaken, h.nodup⟩, forall_mem_cons.2 ⟨hdrawn, h.taken⟩⟩
  rw [SortedMap.get?_erase] at hv
  split at hv
  · cases hv
  · next hne =>
    obtain ⟨hd, ht, hk⟩ := h.tickets v other hv
    exact ⟨hd, fun hmem => (mem_cons.1 hmem).elim hne ht, hk⟩

variable {control : Option ControlLease}

/-- A task takes its channel. -/
theorem attach {group : String} {sessions : SortedMap String AudioSession} (h : Bound w)
    (htask : w.tasks t = some (.claimed id ticket control))
    (hgroup : ticket.audioGroup = some group) (hattach : w.attach id ticket group = .ok (a, sessions)) :
    Bound (({ w with audioSessions := sessions } : Streams).setTask t
      (.audio id ticket control a)) := by
  obtain ⟨session, hsession, -, -, hlease, hrelay, hfree, hchild, rfl⟩ := attach_ok hattach
  have hnone : w.attachment t = none := by simp [attachment, htask, StreamTask.attachment]
  obtain ⟨hid, hkind⟩ := h.tasks t _ htask
  have hchannel : a.lease.channel = channelOf ticket.kind := by rw [hlease]
  have hgroup' : a.lease.group = group := by rw [hlease]
  have hslots := h.slots.attach (a := a) hnone (by rw [hgroup', hsession])
    (by rwa [hchannel]) (fun hmain => (hchild (by rwa [hchannel] at hmain)).2)
  rw [hgroup', hchannel] at hslots
  refine ⟨?_, fun u other hu => ?_, fun g after hafter => ?_, fun u b hb => ?_, h.tickets, h.nodup,
    h.taken⟩
  · rw [attachment_setTask]
    exact hslots
  · simp only [Streams.setTask, update_apply] at hu
    split at hu
    · cases hu
      exact ⟨hid, hkind, by rw [hlease, hgroup]; rfl, by rw [hrelay]; exact nofun⟩
    · exact h.tasks u other hu
  · simp only [Streams.setTask, SortedMap.get?_insert] at hafter
    split at hafter
    · next hg =>
      rw [hg]
      exact h.groups group session hsession
    · exact h.groups g after hafter
  · rw [attachment_setTask, update_apply] at hb
    split at hb
    · cases hb
      rw [hgroup']
      exact h.groups group session hsession
    · exact h.holders u b hb

/-- A relay goes on. Only the relay of a main channel changes a session: it reports the connection ID
that it has seen. -/
theorem relay {after : Relay} {sessions : SortedMap String AudioSession}
    (h : Bound w) (htask : w.tasks t = some (.audio id ticket control a)) (hfits : after.Fits a)
    (hassigned : ∀ id, a.assigned = some id →
      ∃ o, after.observer = some o ∧ o.connectionId = some id)
    (hsessions : sessions = w.audioSessions ∨ ∃ id o session, after.gate.channel = .main ∧
      after.observer = some o ∧ o.connectionId = some id ∧
      w.audioSessions.get? after.group = some session ∧
      sessions = w.audioSessions.insert after.group { session with connectionId := some id }) :
    Bound (({ w with audioSessions := sessions } : Streams).setTask t
      (.audio id ticket control { a with relay := some after })) := by
  have ha : w.attachment t = some a := by simp [attachment, htask, StreamTask.attachment]
  obtain ⟨hid, hkind, hlease, -⟩ := h.tasks t _ htask
  have hgoes : Slots w.audioSessions
      (Function.update w.attachment t (some { a with relay := some after })) := by
    refine h.slots.goOn ha rfl rfl fun id hid => ?_
    obtain ⟨o, ho, hid⟩ := hassigned id hid
    simp [Attachment.assigned, ho, hid]
  have hslots : Slots sessions
      (Function.update w.attachment t (some { a with relay := some after })) := by
    obtain rfl | ⟨id, o, session, hmain, ho, hid, hsession, rfl⟩ := hsessions
    · exact hgoes
    · refine hgoes.report (update_self ..) ?_ (by simp [Attachment.assigned, ho, hid])
        hsession
      cases hl : a.lease
      have hchannel := hfits.main hmain
      have hgroup := hfits.group
      simp_all
  have hgroups : ∀ g session, sessions.get? g = some session → g ∈ w.drawn := by
    intro g session hs
    obtain rfl | ⟨id, o, old, -, -, -, hold, rfl⟩ := hsessions
    · exact h.groups g session hs
    · rw [SortedMap.get?_insert] at hs
      split at hs
      · next hg =>
        rw [hg]
        exact h.groups _ old hold
      · exact h.groups g session hs
  refine ⟨?_, fun u other hu => ?_, hgroups, fun u b hb => ?_, h.tickets, h.nodup, h.taken⟩
  · rw [attachment_setTask]
    exact hslots
  · simp only [Streams.setTask, update_apply] at hu
    split at hu
    · cases hu
      refine ⟨hid, hkind, hlease, fun relay hr => ?_⟩
      cases hr
      exact ⟨hfits.group, hfits.id, hfits.main⟩
    · exact h.tasks u other hu
  · rw [attachment_setTask, update_apply] at hb
    split at hb
    · cases hb
      exact h.holders t a ha
    · exact h.holders u b hb

theorem startRelay {lease : AudioLease} {expectedId : UInt32} {relay : Relay} (h : Bound w)
    (htask : w.tasks t = some (.audio id ticket control ⟨lease, expectedId, none⟩))
    (hstart : Relay.start ticket expectedId = .ok relay) :
    Bound (w.setTask t (.audio id ticket control ⟨lease, expectedId, some relay⟩)) := by
  obtain ⟨hgroup, hid, hobserver, hmain⟩ := Relay.start_ok hstart
  obtain ⟨-, -, hlease, -⟩ := h.tasks t _ htask
  have hfits : relay.Fits ⟨lease, expectedId, none⟩ := by
    refine ⟨?_, hid, fun hchannel => ?_⟩
    · simp only [hgroup, getD_some] at hlease
      rw [hlease]
    · simp only at hlease
      rw [hlease, hmain hchannel]
      rfl
  exact h.relay htask hfits nofun (.inl rfl)

theorem fromBrowser {bytes : List UInt8} (h : Bound w)
    (hstep : w.step (.fromBrowser t bytes) = some w') : Bound w' := by
  obtain rfl | ⟨id, ticket, control, a, relay, after, sessions, htask, hrelay, hf, rfl⟩ :=
    withRelay_cases hstep
  · exact h.endTask t
  · have hfits := (h.tasks t _ htask).2.2.2 relay hrelay
    split at hf
    · cases hf
    · rw [Option.some.injEq] at hf
      unfold Streams.fromBrowser at hf
      split at hf
      · cases hf
      · cases hfeed : relay.gate.feed bytes with
        | error e =>
          rw [hfeed] at hf
          cases hf
        | ok r =>
          rw [hfeed] at hf
          cases hf
          obtain ⟨hchannel, hid⟩ := Spice.ClientGate.keeps_of_feed hfeed
          exact h.relay htask
            ⟨hfits.group, hid.trans hfits.id, fun hmain => hfits.main (hchannel.symm.trans hmain)⟩
            (fun id => (assigned_iff hrelay).1) (.inl rfl)

theorem connect (h : Bound w) (hstep : w.step (.connect t) = some w') : Bound w' := by
  obtain rfl | ⟨id, ticket, control, a, relay, after, sessions, htask, hrelay, hf, rfl⟩ :=
    withRelay_cases hstep
  · exact h.endTask t
  · have hfits := (h.tasks t _ htask).2.2.2 relay hrelay
    split at hf
    · next hready =>
      cases hf
      exact h.relay htask ⟨hfits.group, hfits.id, hfits.main⟩
        (by simp [assigned_iff hrelay, hready.2]) (.inl rfl)
    · cases hf

theorem fromServer {bytes : List UInt8} (h : Bound w)
    (hstep : w.step (.fromServer t bytes) = some w') : Bound w' := by
  obtain rfl | ⟨id, ticket, control, a, relay, after, sessions, htask, hrelay, hf, rfl⟩ :=
    withRelay_cases hstep
  · exact h.endTask t
  · have hfits := (h.tasks t _ htask).2.2.2 relay hrelay
    obtain ⟨observer, hobserver, hf⟩ := map_eq_some_iff.1 hf
    unfold Streams.fromServer at hf
    cases hfeed : observer.feed bytes with
    | error e =>
      rw [hfeed] at hf
      cases hf
    | ok r =>
      obtain ⟨answer, next⟩ := r
      rw [hfeed] at hf
      cases hf
      obtain ⟨-, hanswer, hsticky⟩ := Spice.ServerGate.keeps_of_feed hfeed
      refine h.relay htask ⟨hfits.group, hfits.id, hfits.main⟩ (fun id hid => ?_) ?_
      · obtain ⟨o, ho, hid⟩ := (assigned_iff hrelay).1 hid
        rw [hobserver] at ho
        cases ho
        exact ⟨next, rfl, hsticky id hid⟩
      · cases answer with
        | none => exact .inl rfl
        | some id =>
          simp only
          split
          · next hmain =>
            split
            · exact .inl rfl
            · next session hsession =>
              exact .inr ⟨id, next, session, hmain, rfl, hanswer.symm, hsession, rfl⟩
          · exact .inl rfl

/-- What each step keeps. -/
theorem step {op : Op} (h : Bound w) (hstep : w.step op = some w') : Bound w' := by
  have hplain : ∀ {t task}, w.tasks t = some task → task.attachment = none →
      w.attachment t = none := by
    intro t task htask hnone
    simp [attachment, htask, hnone]
  cases op with
  | fromBrowser t bytes => exact h.fromBrowser hstep
  | connect t => exact h.connect hstep
  | fromServer t bytes => exact h.fromServer hstep
  | tick | setLive | revokeDisplay =>
    cases hstep
    exact h.congr rfl rfl rfl rfl rfl
  | dropSessions | dropTickets | close =>
    cases hstep
    first
      | exact h.retainSessions _
      | exact h.retainTickets _
      | exact h.endTask _
  | ask t id =>
    simp only [Streams.step] at hstep
    split at hstep
    · next hfree =>
      cases hstep
      rw [isNone_iff_eq_none] at hfree
      exact h.setTask (by simp [attachment, hfree.1]) rfl trivial
    · cases hstep
  | issueStream t kind control takeover endpoint value =>
    simp only [Streams.step] at hstep
    split at hstep
    · split at hstep
      · next hready =>
        cases hstep
        exact (h.issueStreamTicket hready.2.2).endTask t
      · cases hstep
    · cases hstep
  | issueSpice t microphone endpoint group tokens =>
    simp only [Streams.step] at hstep
    split at hstep
    · split at hstep
      · next hfresh =>
        cases hstep
        exact (h.issueSpiceTickets hfresh).endTask t
      · cases hstep
    · cases hstep
  | redeem t id kind value =>
    simp only [Streams.step] at hstep
    split at hstep
    · next hfree =>
      rw [isNone_iff_eq_none] at hfree
      rcases redeem_cases w id kind value with hnone | ⟨ticket, hticket, hredeem | hredeem⟩
      · rw [hnone] at hstep
        cases hstep
        exact h
      · rw [hredeem] at hstep
        cases hstep
        exact h.take hticket
      · rw [hredeem.2.2] at hstep
        cases hstep
        have hkind := (h.tickets value ticket hticket).2.2
        exact (h.take hticket).setTask (by simp [attachment, hfree]) rfl ⟨hredeem.1, hkind⟩
    · cases hstep
  | claim t token =>
    simp only [Streams.step] at hstep
    split at hstep
    · next id ticket htask =>
      split at hstep
      · split at hstep
        · cases hstep
          exact h.endTask t
        · next control controlStreams hclaim =>
          cases hstep
          have hcontrol : Bound { w with controlStreams } := h.congr rfl rfl rfl rfl rfl
          have hgood := h.tasks t _ htask
          exact hcontrol.setTask (hplain htask rfl) rfl hgood
      · cases hstep
    · cases hstep
  | attach t =>
    simp only [Streams.step] at hstep
    split at hstep
    · next id ticket control htask =>
      split at hstep
      · cases hstep
        have hgood := h.tasks t _ htask
        exact h.setTask (hplain htask rfl) rfl hgood
      · next group hgroup =>
        split at hstep
        · cases hstep
          exact h.endTask t
        · next a sessions hattach =>
          cases hstep
          exact h.attach htask hgroup hattach
    · cases hstep
  | startRelay t =>
    simp only [Streams.step] at hstep
    split at hstep
    · next id ticket control lease expectedId htask =>
      split at hstep
      · cases hstep
        exact h.endTask t
      · next relay hstart =>
        cases hstep
        exact h.startRelay htask hstart
    · cases hstep

end Bound

theorem Reachable.bound (h : w.Reachable) : Bound w := by
  induction h with
  | start => exact Bound.start
  | step _ hstep ih => exact ih.step hstep

theorem Reachable.steps {ops : List Op} (h : w.Reachable) (hsteps : w.steps ops = some w') :
    w'.Reachable := by
  induction ops generalizing w with
  | nil =>
    cases hsteps
    exact h
  | cons op ops ih =>
    obtain ⟨next, hstep, hrest⟩ := bind_eq_some_iff.1 hsteps
    exact ih (h.step hstep) hrest

/-- A channel of a session that a task could take. -/
def Free (w : Streams) (g c : String) : Prop :=
  ∃ session, w.audioSessions.get? g = some session ∧ c ∉ session.active

theorem free_endTask {g c : String} (h : (w.endTask t).Free g c) :
    w.Free g c ∨ ∃ a, w.attachment t = some a ∧ a.lease = ⟨g, c⟩ := by
  obtain ⟨after, hafter, hc⟩ := h
  simp only [endTask] at hafter
  split at hafter
  · exact .inl ⟨after, hafter, hc⟩
  · next a ha =>
    obtain ⟨session, hsession, -, hactive⟩ := AudioLease.of_get?_drop hafter
    rw [hactive] at hc
    by_cases hmem : c ∈ session.active
    · exact .inr ⟨a, ha, by_contra fun hne => hc ⟨hmem, Ne.symm hne⟩⟩
    · exact .inl ⟨session, hsession, hmem⟩

/-- What is attached was claimed, and matches its session. -/
theorem of_attach {control : Option ControlLease} (hstep : w.step (.attach t) = some w')
    (htask : w'.tasks t = some (.audio id ticket control a)) :
    w.tasks t = some (.claimed id ticket control) ∧ ∃ group sessions,
      ticket.audioGroup = some group ∧ w.attach id ticket group = .ok (a, sessions) := by
  simp only [step] at hstep
  split at hstep
  · next id ticket control hclaimed =>
    split at hstep
    · cases hstep
      simp [setTask] at htask
    · next group hgroup =>
      split at hstep
      · cases hstep
        simp [endTask] at htask
      · next a sessions hattach =>
        cases hstep
        simp only [setTask, update_self] at htask
        cases htask
        exact ⟨hclaimed, group, sessions, hgroup, hattach⟩
  · cases hstep

/-- A ticket that lets a request go on was there, and is that of its instance and kind. -/
theorem of_redeem {id' kind value : String} (h : Bound w)
    (hstep : w.step (.redeem t id kind value) = some w')
    (htask : w'.tasks t = some (.redeemed id' ticket)) :
    value ∉ w.taken ∧ value ∈ w'.taken ∧ w.streamTickets.get? value = some ticket ∧
      ticket.instanceId = id ∧ ticket.kind = kind := by
  simp only [step] at hstep
  split at hstep
  · next hfree =>
    rw [isNone_iff_eq_none] at hfree
    rcases redeem_cases w id kind value with hnone | ⟨found, hfound, hredeem | ⟨hid, hkind, hredeem⟩⟩
    · rw [hnone] at hstep
      cases hstep
      rw [hfree] at htask
      cases htask
    · rw [hredeem] at hstep
      cases hstep
      rw [hfree] at htask
      cases htask
    · rw [hredeem] at hstep
      cases hstep
      simp only [setTask, update_self] at htask
      cases htask
      exact ⟨(h.tickets value ticket hfound).2.1, mem_cons_self, hfound, hid, hkind⟩
  · cases hstep

/-- A request that has claimed control is for the run of its ticket. -/
theorem of_claim {control : Option ControlLease}
    {token : Nat} (h : Bound w) (hstep : w.step (.claim t token) = some w')
    (htask : w'.tasks t = some (.claimed id ticket control)) :
    ticket.instanceId = id ∧ (ticket.kind ≠ "serial" → w.live id = some ticket.runId) := by
  simp only [step] at hstep
  split at hstep
  · next id ticket hredeemed =>
    have hgood := h.tasks t _ hredeemed
    split at hstep
    · split at hstep
      · cases hstep
        simp [endTask] at htask
      · next control owners hclaim =>
        cases hstep
        simp only [setTask, update_self] at htask
        cases htask
        refine ⟨hgood.1, fun hkind => by_contra fun hlive => ?_⟩
        unfold claimStream at hclaim
        rw [if_pos ⟨hkind, hlive⟩] at hclaim
        cases hclaim
    · cases hstep
  · cases hstep

end Streams

/-- An audio ticket is not one of those that no run is checked for. -/
theorem StreamTicket.Kinded.ne_serial (h : ticket.Kinded)
    (haudio : ticket.audioGroup ≠ none) : ticket.kind ≠ "serial" := by
  obtain ⟨group, hgroup⟩ := ne_none_iff_exists'.1 haudio
  obtain ⟨channel, hchannel, hkind⟩ := h group hgroup
  rw [hkind]
  simp only [mem_cons, not_mem_nil, or_false] at hchannel
  rcases hchannel with rfl | rfl | rfl <;> decide

open Streams in
/-- In every run: a channel is admitted to the session of its instance and run, and another channel
than the main one only while the main channel is active, with the connection ID that QEMU has given
to it; the link of the browser has to name this ID, and it stays that of the main channel as long as
there is the session; each channel is held by one task, so that none that is held is free, and a
task that ends frees no other; no ticket is taken twice, and it is only good for its instance and
its kind, and for the live run unless it is a serial one, which audio tickets are not. -/
theorem audio_sessions (w : Streams) (h : w.Reachable) :
    (∀ t id ticket control a w', w.step (.attach t) = some w' →
      w'.tasks t = some (.audio id ticket control a) →
      ∃ session, w.audioSessions.get? a.lease.group = some session ∧
        session.instanceId = ticket.instanceId ∧ session.runId = ticket.runId ∧
        a.lease.channel ∉ session.active ∧
        (a.lease.channel ≠ "main" → "main" ∈ session.active ∧
          session.connectionId = some a.expectedId ∧
          ∃ u m, w.attachment u = some m ∧ m.lease = ⟨a.lease.group, "main"⟩ ∧
            m.assigned = some a.expectedId)) ∧
    (∀ t a relay bytes n next, w.attachment t = some a → a.relay = some relay →
      relay.gate.phase = .link → relay.gate.turn bytes = .ok (some (n, next)) →
      Spice.u32le (slice bytes 0 n) 0 = a.expectedId.toNat) ∧
    (∀ t a session, w.attachment t = some a → a.lease.channel ≠ "main" →
      w.audioSessions.get? a.lease.group = some session →
      ∃ u m, w.attachment u = some m ∧ m.lease = ⟨a.lease.group, "main"⟩ ∧
        m.assigned = some a.expectedId) ∧
    (∀ t u a b, w.attachment t = some a → w.attachment u = some b → a.lease = b.lease → t = u) ∧
    (∀ t a, w.attachment t = some a → ¬ w.Free a.lease.group a.lease.channel) ∧
    (∀ t g c, (w.endTask t).Free g c →
      w.Free g c ∨ ∃ a, w.attachment t = some a ∧ a.lease = ⟨g, c⟩) ∧
    w.taken.Nodup ∧
    (∀ t id kind value id' ticket w', w.step (.redeem t id kind value) = some w' →
      w'.tasks t = some (.redeemed id' ticket) →
      value ∉ w.taken ∧ value ∈ w'.taken ∧ w.streamTickets.get? value = some ticket ∧
        ticket.instanceId = id ∧ ticket.kind = kind) ∧
    (∀ t token id ticket control w', w.step (.claim t token) = some w' →
      w'.tasks t = some (.claimed id ticket control) →
      ticket.instanceId = id ∧
        (ticket.kind ≠ "serial" ∨ ticket.audioGroup ≠ none → w.live id = some ticket.runId)) := by
  have hbound := h.bound
  have hslots := hbound.slots
  refine ⟨?_, ?_, ?_, hslots.unique, ?_, fun t g c => free_endTask, hbound.nodup,
    fun t id kind value id' ticket w' hstep htask => of_redeem hbound hstep htask, ?_⟩
  · intro t id ticket control a w' hstep htask
    obtain ⟨hclaimed, group, sessions, -, hattach⟩ := of_attach hstep htask
    obtain ⟨session, hsession, hid, hrun, hlease, -, hfree, hchild, -⟩ := attach_ok hattach
    have hgood := hbound.tasks t _ hclaimed
    rw [hlease]
    refine ⟨session, hsession, hid.trans hgood.1.symm, hrun, hfree, fun hmain => ?_⟩
    obtain ⟨hactive, hconnection⟩ := hchild hmain
    exact ⟨hactive, hconnection, hslots.assigned group session _ hsession hconnection⟩
  · intro t a relay bytes n next ha hrelay hphase hturn
    obtain ⟨task, htask, hattachment⟩ := bind_eq_some_iff.1 ha
    have hgood := hbound.tasks t task htask
    cases task with
    | audio id ticket control b =>
      cases hattachment
      rw [← (hgood.2.2.2 relay hrelay).id]
      exact Spice.ClientState.id_of_link hphase hturn
    | issuing | redeemed | claimed | stream => cases hattachment
  · intro t a session ha hmain hsession
    exact hslots.assigned _ session _ hsession (hslots.child t a session ha hmain hsession)
  · rintro t a ha ⟨session, hsession, hfree⟩
    exact hfree (hslots.taken t a session ha hsession)
  · intro t token id ticket control w' hstep htask
    obtain ⟨hid, hlive⟩ := of_claim hbound hstep htask
    have hgood := (hbound.step hstep).tasks t _ htask
    exact ⟨hid, fun hkind => hlive (hkind.elim (fun hne => hne) hgood.2.ne_serial)⟩

namespace Streams

/-- A link message for the main channel. -/
def mainLink : List UInt8 := Spice.magic ++
  [2, 0, 0, 0, 2, 0, 0, 0, 22, 0, 0, 0, 0, 0, 0, 0, 1, 0, 1, 0, 0, 0, 0, 0, 0, 0, 18, 0, 0, 0,
    10, 0, 0, 0]

/-- What QEMU answers: it accepts the link, and gives the connection ID 42. -/
def mainInit : List UInt8 := Spice.magic ++ [2, 0, 0, 0, 2, 0, 0, 0, 182, 0, 0, 0] ++
  List.replicate 166 0 ++ [1, 0, 0, 0, 0, 0, 0, 0, 178, 0, 0, 0, 8, 0, 0, 0] ++ [0, 0, 0, 0] ++
  [103, 0, 32, 0, 0, 0, 42] ++ List.replicate 31 0

/-- The main channel of a session is linked, and then the playback channel is attached. -/
def playback : List Op := [.setLive "lab01" (some "run01"), .ask 0 "lab01",
  .issueSpice 0 false (.unix "spice.sock") "g" ["a", "b"], .redeem 1 "lab01" "spice-main" "a",
  .claim 1 0, .attach 1, .startRelay 1, .fromBrowser 1 mainLink, .connect 1,
  .fromServer 1 mainInit, .redeem 2 "lab01" "spice-playback" "b", .claim 2 0, .attach 2]

end Streams

open Streams in
/-- The playback channel has the connection ID that the main channel has been given. -/
theorem audio_sessions_of_playback : ∃ (w : Streams) (a m : Attachment) (u : Nat),
    w.attachment 2 = some a ∧ a.lease = ⟨"g", "playback"⟩ ∧ w.attachment u = some m ∧
    m.lease = ⟨"g", "main"⟩ ∧ m.assigned = some 42 := by
  have hrun : ((Streams.steps {} playback).bind fun w => (w.attachment 2).bind fun a =>
      (w.audioSessions.get? a.lease.group).map fun _ => (a.lease, a.expectedId)) =
        some (⟨"g", "playback"⟩, 42) := by
    decide +kernel
  obtain ⟨w, hsteps, hrun⟩ := bind_eq_some_iff.1 hrun
  obtain ⟨a, ha, hrun⟩ := bind_eq_some_iff.1 hrun
  obtain ⟨session, hsession, hvalues⟩ := map_eq_some_iff.1 hrun
  obtain ⟨hlease, hid⟩ := Prod.mk.inj hvalues
  have hsafe := audio_sessions w (Reachable.start.steps hsteps)
  obtain ⟨u, m, hm, hmain, hassigned⟩ :=
    hsafe.2.2.1 2 a session ha (by rw [hlease]; decide) hsession
  exact ⟨w, a, m, u, ha, hlease, hm, by rw [hmain, hlease], by rw [hassigned, hid]⟩

end MachineEmu
