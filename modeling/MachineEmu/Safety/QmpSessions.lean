import MachineEmu.Runtime.Qmp

/-!
# Sessions with the QMP client

Whatever is cancelled and however the bytes arrive, a command only returns a reply that bears its
own id. As long as calls are cancelled between two lines only, no byte of the stream is lost, and
the lines `read_frame` returns are the first lines QEMU sent. As long as a wait looks through no
event that another wait is for, none of these is lost to a wait.

* `Move`, `move_of_step` — what a step can do.
* `Sound` — the invariant of every session.
* `Framed`, `Spared` — what the framing and the waits keep.
* `Careful` — the steps under which they do.
* `qmp_sessions` — the theorem about sessions.
-/

namespace MachineEmu.Qmp

open Lib LineReader List

namespace Session

/-! ## What a step can do -/

/-- The session with the bytes that are left to read. -/
def advance (s : Session) (rest : List UInt8) : Session := { s with incoming := rest }

section Fields

variable (s : Session)

@[simp] theorem advance_call (rest : List UInt8) : (s.advance rest).call = s.call := rfl

@[simp] theorem advance_line (rest : List UInt8) : (s.advance rest).line = s.line := rfl

@[simp] theorem advance_incoming (rest : List UInt8) : (s.advance rest).incoming = rest := rfl

@[simp] theorem advance_history (rest : List UInt8) : (s.advance rest).history = s.history := rfl

@[simp] theorem advance_client (rest : List UInt8) : (s.advance rest).client = s.client := rfl

@[simp] theorem advance_connected (rest : List UInt8) :
    (s.advance rest).connected = s.connected := rfl

@[simp] theorem advance_hungUp (rest : List UInt8) : (s.advance rest).hungUp = s.hungUp := rfl

end Fields

/-- What a step can do, with the conditions it does it under. -/
inductive Move (codec : Codec) (s : Session) : Action → Session → Prop where
  | arrive (bytes : List UInt8) (h : s.hungUp = false) :
    Move codec s (.arrive bytes)
      { s with
        incoming := s.incoming ++ bytes
        history := { s.history with received := s.history.received ++ bytes } }
  | hangUp : Move codec s .hangUp { s with hungUp := true }
  | noToken (name : String) (arguments : Json) : Move codec s (.execute name arguments) s
  | execute (name : String) (arguments : Json) (hconnected : s.connected = true)
      (hcall : s.call = none) :
    Move codec s (.execute name arguments) (s.issue codec name arguments)
  | wait (device : String) (hconnected : s.connected = true) (hcall : s.call = none) :
    Move codec s (.waitDeviceDeleted device) (s.takeEvents device s.client.events)
  | send (n : Nat) (name : String) (id : UInt64) (unsent : List UInt8)
      (hcall : s.call = some (.command name id unsent)) :
    Move codec s (.send n)
      { s with
        outgoing := s.outgoing ++ unsent.take n
        call := some (.command name id (unsent.drop n)) }
  | sendFails (error : String) (fault : Fault) (hreading : s.reading = false) :
    Move codec s (.sendFails error) (s.fail fault)
  | more (error : String) (byte : UInt8) (rest line : List UInt8) (hreading : s.reading = true)
      (hincoming : s.incoming = byte :: rest) (hnext : frames.next s.line byte = .more line) :
    Move codec s (.read error) { s with incoming := rest, line }
  | overlong (error : String) (byte : UInt8) (rest : List UInt8) (fault : Fault)
      (hreading : s.reading = true) (hincoming : s.incoming = byte :: rest)
      (hnext : frames.next s.line byte = .overlong) :
    Move codec s (.read error)
      (((s.advance rest).cut (.overlong (s.line ++ [byte]))).fail fault)
  | complete (error : String) (rest : List UInt8) (hreading : s.reading = true)
      (hincoming : s.incoming = frames.separator :: rest) :
    Move codec s (.read error) (((s.advance rest).cut (.line s.line)).receive codec s.line)
  | ended (error : String) (hreading : s.reading = true) (hincoming : s.incoming = [])
      (hhungUp : s.hungUp = true) : Move codec s (.read error) (s.readEnd error)
  | drain (hcall : s.call = none) :
    Move codec s .drainEvents
      { s with
        client := { s.client with events := [] }
        history := { s.history with drained := s.history.drained ++ s.client.events } }
  | cancel : Move codec s .cancel s.cancel

variable {a : Action}

theorem move_of_step {codec : Codec} {s s' : Session}
    (h : s.step codec a = some s') : Move codec s a s' := by
  cases a with
  | arrive bytes =>
    simp only [step, Option.ite_none_left_eq_some, Option.some.injEq] at h
    obtain ⟨hhungUp, rfl⟩ := h
    exact .arrive bytes (by simpa using hhungUp)
  | hangUp =>
    cases h
    exact .hangUp
  | execute name arguments =>
    simp only [step, Option.ite_none_right_eq_some, Option.some.injEq,
      Option.isNone_iff_eq_none] at h
    obtain ⟨⟨hconnected, hcall⟩, rfl⟩ := h
    unfold execute
    split
    · exact .execute name arguments hconnected hcall
    · exact .noToken name arguments
  | waitDeviceDeleted device =>
    simp only [step, Option.ite_none_right_eq_some, Option.some.injEq,
      Option.isNone_iff_eq_none] at h
    obtain ⟨⟨hconnected, hcall⟩, rfl⟩ := h
    exact .wait device hconnected hcall
  | send n =>
    simp only [step] at h
    split at h
    · next name id unsent hcall =>
      cases h
      exact .send n name id unsent hcall
    · cases h
  | sendFails error =>
    simp only [step] at h
    split at h
    · next hcall =>
      cases h
      exact .sendFails error _ (by simp [reading, hcall])
    · cases h
  | read error =>
    simp only [step, Option.ite_none_right_eq_some] at h
    obtain ⟨hreading, h⟩ := h
    split at h
    · next byte rest hincoming =>
      cases h
      unfold readByte
      dsimp only
      split
      · next line hnext => exact .more error byte rest line hreading hincoming hnext
      · next line hnext =>
        obtain ⟨rfl, rfl⟩ := next_complete hnext
        exact .complete error rest hreading hincoming
      · next hnext => exact .overlong error byte rest _ hreading hincoming hnext
    · next hincoming =>
      simp only [Option.ite_none_right_eq_some, Option.some.injEq] at h
      obtain ⟨hhungUp, rfl⟩ := h
      exact .ended error hreading hincoming hhungUp
  | drainEvents =>
    simp only [step, Option.ite_none_right_eq_some, Option.some.injEq,
      Option.isNone_iff_eq_none] at h
    obtain ⟨hcall, rfl⟩ := h
    exact .drain hcall
  | cancel =>
    simp only [step, Option.ite_none_right_eq_some, Option.some.injEq] at h
    obtain ⟨-, rfl⟩ := h
    exact .cancel

/-- What a line does to the session that has read it. -/
inductive Receives (codec : Codec) (s : Session) (line : List UInt8) : Session → Prop where
  | junk (fault : Fault) (h : codec.fromSlice line = none ∨ s.call = some .greeting) :
    Receives codec s line (s.fail fault)
  | greeted (hcall : s.call = some .greeting) :
    Receives codec s line (s.issue codec "qmp_capabilities" .null)
  | event (name : String) (id : UInt64) (unsent : List UInt8) (message : Json)
      (hmessage : codec.fromSlice line = some message)
      (hcall : s.call = some (.command name id unsent)) (hevent : isEvent message = true) :
    Receives codec s line
      { s with
        client := { s.client with events := (keep s.client.events message).1 }
        history :=
          { s.history with forgotten := s.history.forgotten ++ (keep s.client.events message).2 } }
  | reply (name : String) (id : UInt64) (unsent : List UInt8) (message : Json)
      (hmessage : codec.fromSlice line = some message)
      (hcall : s.call = some (.command name id unsent)) (hevent : isEvent message = false)
      (hbears : bears id message = true) :
    Receives codec s line
      ({ s with connected := s.connected || (replied message).toBool }.finish
        [.command id (replied message)])
  | ignored (message : Json) (hmessage : codec.fromSlice line = some message)
      (hcall : s.call ≠ some .greeting) (hevent : s.call ≠ none → isEvent message = false) :
    Receives codec s line s
  | waited (device : String) (message : Json) (hmessage : codec.fromSlice line = some message)
      (hcall : s.call = some (.wait device)) (hevent : isEvent message = true) :
    Receives codec s line (s.takeEvents device (s.client.events ++ [message]))

theorem receives (codec : Codec) (s : Session) (line : List UInt8) :
    Receives codec s line (s.receive codec line) := by
  unfold receive
  split
  · next hnone => exact .junk _ (.inl hnone)
  · next message hmessage =>
    split
    · next hcall => exact .ignored message hmessage (by simp [hcall]) fun h => (h hcall).elim
    · next hcall =>
      split
      · exact .greeted hcall
      · exact .junk _ (.inr hcall)
    · next name id unsent hcall =>
      unfold receiveReply readReply
      cases hevent : isEvent message with
      | true => exact .event name id unsent message hmessage hcall hevent
      | false =>
        cases hbears : bears id message with
        | true => exact .reply name id unsent message hmessage hcall hevent hbears
        | false => exact .ignored message hmessage (by simp [hcall]) fun _ => hevent
    · next device hcall =>
      cases hevent : isEvent message with
      | true => exact .waited device message hmessage hcall hevent
      | false => exact .ignored message hmessage (by simp [hcall]) fun _ => hevent

/-! ## What waits pop -/

theorem popEvents_append (device : String) (events : List Json) :
    (popEvents device events).taken ++ (popEvents device events).left = events := by
  induction events with
  | nil => rfl
  | cons event rest ih =>
    unfold popEvents
    cases removal device event with
    | some result => rfl
    | none => simp [ih]

variable {events : List Json} {device : String}

theorem left_of_result_none
    (h : (popEvents device events).result = none) : (popEvents device events).left = [] := by
  induction events with
  | nil => rfl
  | cons event rest ih =>
    unfold popEvents at h ⊢
    cases hremoval : removal device event with
    | some result => simp [hremoval] at h
    | none =>
      simp only [hremoval] at h ⊢
      exact ih h

/-- A wait takes an event only when none before it ends the wait. -/
theorem taken_before {event : Json} (h : event ∈ (popEvents device events).taken) :
    ∃ pre rest, events = pre ++ event :: rest ∧ ∀ e ∈ pre, removal device e = none := by
  induction events with
  | nil => cases h
  | cons first rest ih =>
    unfold popEvents at h
    cases hremoval : removal device first with
    | some result =>
      simp only [hremoval, mem_singleton] at h
      exact ⟨[], rest, by simp [h], nofun⟩
    | none =>
      simp only [hremoval, mem_cons] at h
      rcases h with rfl | h
      · exact ⟨[], rest, rfl, nofun⟩
      · obtain ⟨pre, later, rfl, hpre⟩ := ih h
        refine ⟨first :: pre, later, rfl, ?_⟩
        simpa [hremoval] using hpre

/-! ## Every session -/

/-- What a command returns is what a line with its own id says. -/
def Own (codec : Codec) (s : Session) : Returned → Prop
  | .command id result =>
    id ∈ s.history.issued ∧
      ∃ line message, Piece.line line ∈ s.history.pieces ∧ codec.fromSlice line = some message ∧
        bears id message = true ∧ isEvent message = false ∧ result = replied message
  | _ => True

/-- Whether a call of a caller is in progress. -/
def Engaged (s : Session) : Prop := s.call ≠ none ∧ s.call ≠ some .greeting

/-- The invariant of every session, also between the reading of a line and its message. -/
structure Core (codec : Codec) (s : Session) : Prop where
  quiet : s.reading = false → s.line = []
  short : frames.Short s.line
  cut : ∀ p ∈ s.history.pieces, frames.Cut p
  greeted : s.connected = true ∨ s.Engaged → s.history.pieces ≠ []
  waiting : ∀ device, s.call = some (.wait device) → s.client.events = []
  own : ∀ r ∈ s.history.returned, Own codec s r
  calling : ∀ name id unsent, s.call = some (.command name id unsent) → id ∈ s.history.issued
  issued : s.history.issued = (List.range s.history.issued.length).map fun k => UInt64.ofNat (k + 1)
  nextId : s.client.nextId = UInt64.ofNat (s.history.issued.length + 1)

variable {codec : Codec} {s s' : Session}

theorem Own.mono {r : Returned} (h : Own codec s r) (hissued : s.history.issued ⊆ s'.history.issued)
    (hpieces : s.history.pieces ⊆ s'.history.pieces) : Own codec s' r := by
  cases r with
  | command id result =>
    obtain ⟨hid, line, message, hline, hmessage⟩ := h
    exact ⟨hissued hid, line, message, hpieces hline, hmessage⟩
  | noReply id fault => trivial
  | wait device result => trivial

/-- What a call returns that fails or is cancelled is no reply. -/
theorem own_fail (codec : Codec) (s : Session) (fault : Fault) :
    ∃ returned, s.fail fault = s.finish returned ∧ ∀ r ∈ returned, Own codec s r := by
  refine ⟨_, rfl, ?_⟩
  split <;> simp [Own]

theorem own_cancel (codec : Codec) (s : Session) :
    ∃ returned, s.cancel = s.finish returned ∧ ∀ r ∈ returned, Own codec s r := by
  refine ⟨_, rfl, ?_⟩
  split <;> simp [Own]

namespace Core

theorem advance (h : Core codec s) (rest : List UInt8) : Core codec (s.advance rest) :=
  ⟨h.quiet, h.short, h.cut, h.greeted, h.waiting, h.own, h.calling, h.issued, h.nextId⟩

theorem cutPiece (h : Core codec s) {p : Piece UInt8} (hp : frames.Cut p) :
    Core codec (s.cut p) where
  quiet _ := rfl
  short := short_nil
  cut q hq := by
    rcases mem_append.1 hq with hq | hq
    · exact h.cut q hq
    · rw [mem_singleton.1 hq]
      exact hp
  greeted _ := by simp [Session.cut]
  waiting := h.waiting
  own r hr := (h.own r hr).mono (List.Subset.refl _) (subset_append_left _ _)
  calling := h.calling
  issued := h.issued
  nextId := h.nextId

theorem finish (h : Core codec s) {returned : List Returned}
    (hreturned : ∀ r ∈ returned, Own codec s r) : Core codec (s.finish returned) where
  quiet _ := rfl
  short := short_nil
  cut := h.cut
  greeted hcalled := by
    refine h.greeted (.inl ?_)
    simpa [Session.finish, Engaged] using hcalled
  waiting _ hcall := by simp [Session.finish] at hcall
  own r hr := by
    rcases mem_append.1 hr with hr | hr
    · exact h.own r hr
    · exact hreturned r hr
  calling _ _ _ hcall := by simp [Session.finish] at hcall
  issued := h.issued
  nextId := h.nextId

theorem fail (h : Core codec s) (fault : Fault) : Core codec (s.fail fault) := by
  obtain ⟨returned, heq, hreturned⟩ := own_fail codec s fault
  rw [heq]
  exact h.finish hreturned

theorem cancel (h : Core codec s) : Core codec s.cancel := by
  obtain ⟨returned, heq, hreturned⟩ := own_cancel codec s
  rw [heq]
  exact h.finish hreturned

theorem issue (h : Core codec s) (hline : s.line = []) (hpieces : s.history.pieces ≠ [])
    (name : String) (arguments : Json) : Core codec (s.issue codec name arguments) where
  quiet _ := hline
  short := h.short
  cut := h.cut
  greeted _ := hpieces
  waiting _ hcall := by simp [Session.issue] at hcall
  own r hr := (h.own r hr).mono (subset_append_left _ _) (List.Subset.refl _)
  calling name' id unsent hcall := by
    simp only [Session.issue, Option.some.injEq, Call.command.injEq] at hcall
    simp [Session.issue, hcall.2.1]
  issued := by
    simp only [Session.issue, length_append, length_singleton, range_succ,
      map_append, map_singleton, ← h.issued, ← h.nextId]
  nextId := by
    simp only [Session.issue, length_append, length_singleton, h.nextId]
    rw [UInt64.ofNat_add (s.history.issued.length + 1) 1]
    rfl

theorem takeEvents (h : Core codec s) (hline : s.line = []) (hpieces : s.history.pieces ≠ [])
    (device : String) (events : List Json) : Core codec (s.takeEvents device events) := by
  unfold Session.takeEvents
  dsimp only
  split
  · next result hresult =>
    refine ⟨fun _ => rfl, short_nil, h.cut, fun _ => hpieces, nofun, ?_, nofun, h.issued, h.nextId⟩
    intro r hr
    rcases mem_append.1 hr with hr | hr
    · exact h.own r hr
    · rw [mem_singleton.1 hr]
      trivial
  · next hresult =>
    refine ⟨fun _ => hline, h.short, h.cut, fun _ => hpieces, ?_, h.own, nofun, h.issued, h.nextId⟩
    intro _ _
    exact left_of_result_none hresult

/-- Every line keeps the invariant. -/
theorem receive (h : Core codec s) (hline : s.line = []) {line : List UInt8}
    (hpiece : Piece.line line ∈ s.history.pieces) (hreceives : Receives codec s line s') :
    Core codec s' := by
  have hpieces : s.history.pieces ≠ [] := ne_nil_of_mem hpiece
  cases hreceives with
  | junk fault _ => exact h.fail fault
  | greeted _ => exact h.issue hline hpieces _ _
  | event name id unsent message hmessage hcall hevent =>
    exact ⟨h.quiet, h.short, h.cut, h.greeted, by simp [hcall], h.own, h.calling, h.issued,
      h.nextId⟩
  | reply name id unsent message hmessage hcall hevent hbears =>
    have hconnected : Core codec { s with connected := s.connected || (replied message).toBool } :=
      ⟨h.quiet, h.short, h.cut, fun _ => hpieces, h.waiting, h.own, h.calling, h.issued, h.nextId⟩
    refine hconnected.finish ?_
    intro r hr
    rw [mem_singleton.1 hr]
    exact ⟨h.calling name id unsent hcall, line, message, hpiece, hmessage, hbears, hevent, rfl⟩
  | ignored => exact h
  | waited device message => exact h.takeEvents hline hpieces device _

/-- Every step keeps the invariant. -/
theorem move (h : Core codec s) (hmove : Move codec s a s') : Core codec s' := by
  cases hmove with
  | arrive bytes hhungUp =>
    exact ⟨h.quiet, h.short, h.cut, h.greeted, h.waiting, h.own, h.calling, h.issued, h.nextId⟩
  | hangUp =>
    exact ⟨h.quiet, h.short, h.cut, h.greeted, h.waiting, h.own, h.calling, h.issued, h.nextId⟩
  | noToken => exact h
  | execute name arguments hconnected hcall =>
    exact h.issue (h.quiet (by simp [reading, hcall])) (h.greeted (.inl hconnected)) name arguments
  | wait device hconnected hcall =>
    exact h.takeEvents (h.quiet (by simp [reading, hcall])) (h.greeted (.inl hconnected)) device _
  | send n name id unsent hcall =>
    have hengaged : s.Engaged := by simp [Engaged, hcall]
    refine ⟨?_, h.short, h.cut, fun _ => h.greeted (.inr hengaged), nofun, h.own, ?_, h.issued,
      h.nextId⟩
    · intro hreading
      apply h.quiet
      simp only [reading, hcall, isEmpty_eq_false_iff] at hreading ⊢
      exact fun hunsent => hreading (by simp [hunsent])
    · intro name' id' unsent' hcall'
      cases hcall'
      exact h.calling name id unsent hcall
  | sendFails error fault hreading => exact h.fail fault
  | more error byte rest line hreading hincoming hnext =>
    obtain ⟨-, hshort⟩ := next_more hnext h.short
    refine ⟨?_, hshort, h.cut, h.greeted, h.waiting, h.own, h.calling, h.issued, h.nextId⟩
    intro hquiet
    exact absurd (hreading.symm.trans hquiet) (by decide)
  | overlong error byte rest fault hreading hincoming hnext =>
    exact ((h.advance rest).cutPiece (next_overlong hnext h.short)).fail fault
  | complete error rest hreading hincoming =>
    have hcut : frames.Cut (.line s.line) := h.short
    exact ((h.advance rest).cutPiece hcut).receive rfl (by simp [Session.cut]) (receives codec _ _)
  | ended error hreading hincoming hhungUp =>
    have htorn : Core codec { s with history := { s.history with torn := s.history.torn ++ s.line } } :=
      ⟨h.quiet, h.short, h.cut, h.greeted, h.waiting, h.own, h.calling, h.issued, h.nextId⟩
    exact htorn.fail _
  | drain hcall =>
    exact ⟨h.quiet, h.short, h.cut, h.greeted, fun _ _ => rfl, h.own, h.calling, h.issued, h.nextId⟩
  | cancel => exact h.cancel

theorem start (codec : Codec) : Core codec {} where
  quiet _ := rfl
  short := short_nil
  cut := nofun
  greeted hcalled := by simp [Engaged] at hcalled
  waiting := nofun
  own := nofun
  calling := nofun
  issued := rfl
  nextId := rfl

end Core

/-! ## Where the events go -/

/-- The event a piece of the stream holds. -/
def eventIn (codec : Codec) (p : Piece UInt8) : Option Json :=
  (p.line?.bind codec.fromSlice).filter isEvent

/-- The events among the lines after the greeting. -/
def eventsRead (codec : Codec) (s : Session) : List Json :=
  s.history.pieces.tail.filterMap (eventIn codec)

/-- The events that a session has no longer, or has in its queue. -/
def eventsHeld (s : Session) : List Json :=
  s.history.taken.map Prod.snd ++ s.history.forgotten ++ s.history.drained ++ s.client.events

/-- Each event that was read is in the queue or where it went from there. -/
structure Accounted (codec : Codec) (s : Session) : Prop where
  fresh : s.call = some .greeting → s.history.pieces = []
  events : (s.eventsRead codec).Perm s.eventsHeld

theorem keep_perm (events : List Json) (event : Json) :
    ((keep events event).2 ++ (keep events event).1).Perm (events ++ [event]) := by
  unfold keep
  split
  · rw [← append_assoc, ← drop_one, take_append_drop]
  · rfl

theorem eventsHeld_takeEvents (s : Session) (device : String) (events : List Json) :
    (s.takeEvents device events).eventsHeld.Perm
      (s.history.taken.map Prod.snd ++ s.history.forgotten ++ s.history.drained ++ events) := by
  have hheld : (s.takeEvents device events).eventsHeld =
      (s.history.taken ++ (popEvents device events).taken.map (device, ·)).map Prod.snd ++
        s.history.forgotten ++ s.history.drained ++ (popEvents device events).left := by
    unfold takeEvents
    dsimp only
    split <;> rfl
  have hmap : ((popEvents device events).taken.map (device, ·)).map Prod.snd =
      (popEvents device events).taken := by
    simp [Function.comp_def]
  rw [hheld, map_append, hmap]
  conv_rhs => rw [← popEvents_append device events]
  simp only [append_assoc]
  apply List.Perm.append_left
  rw [← append_assoc, ← append_assoc, ← append_assoc]
  have hswap : ((popEvents device events).taken ++ (s.history.forgotten ++ s.history.drained) ++
      (popEvents device events).left).Perm
      (s.history.forgotten ++ s.history.drained ++ (popEvents device events).taken ++
        (popEvents device events).left) := perm_append_comm.append_right _
  simpa only [append_assoc] using hswap

theorem takeEvents_call (s : Session) (device : String) (events : List Json) :
    (s.takeEvents device events).call ≠ some .greeting := by
  unfold takeEvents
  dsimp only
  split <;> exact nofun

theorem eventsRead_takeEvents (codec : Codec) (s : Session) (device : String)
    (events : List Json) :
    (s.takeEvents device events).eventsRead codec = s.eventsRead codec := by
  unfold takeEvents
  dsimp only
  split <;> rfl

theorem eventsRead_cut (codec : Codec) (s : Session) (h : s.history.pieces ≠ [])
    (p : Piece UInt8) :
    (s.cut p).eventsRead codec = s.eventsRead codec ++ (eventIn codec p).toList := by
  simp only [eventsRead, Session.cut, tail_append_of_ne_nil h, filterMap_append]
  cases heventIn : eventIn codec p <;> simp [heventIn]

section EventIn

variable {line : List UInt8} {message : Json}

theorem eventIn_junk (h : codec.fromSlice line = none) :
    eventIn codec (.line line) = none := by
  simp [eventIn, Piece.line?, h]

theorem eventIn_event (h : codec.fromSlice line = some message) (hevent : isEvent message = true) :
    eventIn codec (.line line) = some message := by
  simp [eventIn, Piece.line?, h, hevent]

theorem eventIn_other (h : codec.fromSlice line = some message)
    (hevent : isEvent message = false) : eventIn codec (.line line) = none := by
  simp [eventIn, Piece.line?, h, hevent]

end EventIn

namespace Accounted

/-- A line that is read leaves each event with its account. -/
theorem receive {line : List UInt8} (hreading : s.call ≠ none)
    (hgreeting : s.call = some .greeting → (s.eventsRead codec).Perm s.eventsHeld)
    (hcall : s.call ≠ some .greeting →
      (s.eventsRead codec).Perm (s.eventsHeld ++ (eventIn codec (.line line)).toList))
    (hreceives : Receives codec s line s') : Accounted codec s' := by
  cases hreceives with
  | junk fault h =>
    refine ⟨nofun, ?_⟩
    by_cases hnow : s.call = some .greeting
    · exact hgreeting hnow
    · have hread := hcall hnow
      rw [eventIn_junk (h.resolve_right hnow), Option.toList_none, append_nil] at hread
      exact hread
  | greeted hnow => exact ⟨nofun, hgreeting hnow⟩
  | event name id unsent message hmessage hnow hevent =>
    refine ⟨by simp [hnow], ?_⟩
    have hread := hcall (by simp [hnow])
    rw [eventIn_event hmessage hevent, Option.toList_some] at hread
    refine hread.trans ?_
    have hkeep := (keep_perm s.client.events message).symm.append_left s.history.drained
    have hswap : (s.history.drained ++ (keep s.client.events message).2 ++
        (keep s.client.events message).1).Perm
        ((keep s.client.events message).2 ++ s.history.drained ++
          (keep s.client.events message).1) := perm_append_comm.append_right _
    simp only [eventsHeld, append_assoc] at hkeep hswap ⊢
    exact ((hkeep.trans hswap).append_left _).append_left _
  | reply name id unsent message hmessage hnow hevent hbears =>
    refine ⟨nofun, ?_⟩
    have hread := hcall (by simp [hnow])
    rw [eventIn_other hmessage hevent, Option.toList_none, append_nil] at hread
    exact hread
  | ignored message hmessage hnow hevent =>
    refine ⟨fun h => (hnow h).elim, ?_⟩
    have hread := hcall hnow
    rw [eventIn_other hmessage (hevent hreading), Option.toList_none, append_nil] at hread
    exact hread
  | waited device message hmessage hnow hevent =>
    refine ⟨fun h => (takeEvents_call _ _ _ h).elim, ?_⟩
    rw [eventsRead_takeEvents]
    have hread := hcall (by simp [hnow])
    rw [eventIn_event hmessage hevent, Option.toList_some] at hread
    refine hread.trans (List.Perm.trans ?_ (eventsHeld_takeEvents s device _).symm)
    simp [eventsHeld]

/-- Every step keeps the account. -/
theorem move (h : Accounted codec s) (hcore : Core codec s)
    (hmove : Move codec s a s') : Accounted codec s' := by
  cases hmove with
  | arrive bytes hhungUp => exact ⟨h.fresh, h.events⟩
  | hangUp => exact ⟨h.fresh, h.events⟩
  | noToken => exact h
  | execute name arguments hconnected hcall => exact ⟨nofun, h.events⟩
  | wait device hconnected hcall =>
    refine ⟨fun h => (takeEvents_call _ _ _ h).elim, ?_⟩
    rw [eventsRead_takeEvents]
    exact h.events.trans (eventsHeld_takeEvents s device _).symm
  | send n name id unsent hcall => exact ⟨nofun, h.events⟩
  | sendFails error fault hreading => exact ⟨nofun, h.events⟩
  | more error byte rest line hreading hincoming hnext => exact ⟨h.fresh, h.events⟩
  | overlong error byte rest fault hreading hincoming hnext =>
    refine ⟨nofun, ?_⟩
    by_cases hpieces : s.history.pieces = []
    · have hread := h.events
      simp only [eventsRead, hpieces, tail_nil, filterMap_nil] at hread
      have htail : (((s.advance rest).cut (.overlong (s.line ++ [byte]))).fail fault).eventsRead
          codec = [] := by
        simp [eventsRead, Session.fail, Session.finish, Session.cut, hpieces]
      rw [htail]
      exact hread
    · have hread := eventsRead_cut codec (s.advance rest) hpieces (.overlong (s.line ++ [byte]))
      simp only [eventIn, Piece.line?, Option.bind_none, Option.filter_none, Option.toList_none,
        append_nil] at hread
      exact (List.Perm.of_eq hread).trans h.events
  | complete error rest hreading hincoming =>
    have hsome : s.call ≠ none := by
      intro hcall
      simp [reading, hcall] at hreading
    refine receive (s := (s.advance rest).cut (.line s.line)) hsome ?_ ?_ (receives codec _ _)
    · intro hcall
      have hpieces := h.fresh hcall
      have hread := h.events
      simp only [eventsRead, hpieces, tail_nil, filterMap_nil] at hread
      have htail : ((s.advance rest).cut (.line s.line)).eventsRead codec = [] := by
        simp [eventsRead, Session.cut, hpieces]
      rw [htail]
      exact hread
    · intro hcall
      have hpieces := hcore.greeted (.inr ⟨hsome, hcall⟩)
      rw [eventsRead_cut codec (s.advance rest) hpieces]
      exact h.events.append_right _
  | ended error hreading hincoming hhungUp => exact ⟨nofun, h.events⟩
  | drain hcall =>
    refine ⟨by simp [hcall], h.events.trans ?_⟩
    simp [eventsHeld]
  | cancel => exact ⟨nofun, h.events⟩

theorem start (codec : Codec) : Accounted codec {} := ⟨fun _ => rfl, .refl _⟩

end Accounted

/-! ## Careful sessions -/

/-- Only a wait for the device itself is for the event. -/
def Concerns (device : String) (event : Json) : Prop :=
  ∀ other, (removal other event).isSome = true → other = device

/-- What a wait for the device looks through is for no other wait. -/
def Harmless (device : String) (events : List Json) : Prop :=
  ∀ before event after, events = before ++ event :: after →
    (∀ e ∈ before, removal device e = none) → Concerns device event

/-- A call is cancelled only between two lines, and a wait looks through no event another wait is
for: neither when it starts nor when it has read one. -/
def Careful (codec : Codec) (s : Session) : Action → Prop
  | .cancel => s.line = []
  | .waitDeviceDeleted device => Harmless device s.client.events
  | .read _ => ∀ device message, s.call = some (.wait device) →
    s.incoming.head? = some frames.separator → codec.fromSlice s.line = some message →
    isEvent message = true → Concerns device message
  | _ => True

/-! ## No byte is lost -/

/-- What a session knows of the stream, but for the line it is in. -/
def stream (s : Session) : List UInt8 × List (Piece UInt8) × List UInt8 × List UInt8 × Bool :=
  (s.history.received, s.history.pieces, s.history.torn, s.incoming, s.hungUp)

/-- The stream is what was read of it, the line in progress and what is to be read. -/
structure Whole (s : Session) : Prop where
  account : s.history.received =
    s.history.pieces.flatMap (Piece.elements frames) ++ (s.history.torn ++ s.line ++ s.incoming)
  torn : s.history.torn ≠ [] → s.incoming = [] ∧ s.hungUp = true

theorem stream_takeEvents (s : Session) (device : String) (events : List Json) :
    (s.takeEvents device events).stream = s.stream := by
  unfold takeEvents
  dsimp only
  split <;> rfl

theorem line_takeEvents (hline : s.line = []) : (s.takeEvents device events).line = [] := by
  unfold takeEvents
  dsimp only
  split
  · rfl
  · exact hline

theorem Receives.stream {line : List UInt8} (h : Receives codec s line s') :
    s'.stream = s.stream := by
  cases h with
  | waited device message => exact stream_takeEvents s device _
  | _ => rfl

theorem Receives.line {line : List UInt8} (h : Receives codec s line s') (hline : s.line = []) :
    s'.line = [] := by
  cases h with
  | waited device message => exact line_takeEvents hline
  | junk => rfl
  | reply => rfl
  | _ => exact hline

namespace Whole

theorem of_stream (h : Whole s) (hstream : s'.stream = s.stream) (hline : s'.line = s.line) :
    Whole s' := by
  simp only [stream, Prod.mk.injEq] at hstream
  obtain ⟨hreceived, hpieces, htorn, hincoming, hhungUp⟩ := hstream
  constructor
  · rw [hreceived, hpieces, htorn, hline, hincoming]
    exact h.account
  · rw [htorn, hincoming, hhungUp]
    exact h.torn

theorem finish (h : Whole s) (hline : s.line = []) (returned : List Returned) :
    Whole (s.finish returned) :=
  h.of_stream rfl hline.symm

theorem torn_eq_nil (h : Whole s) {byte : UInt8} {rest : List UInt8}
    (hincoming : s.incoming = byte :: rest) : s.history.torn = [] := by
  by_contra htorn
  exact absurd (h.torn htorn).1 (by simp [hincoming])

/-- A piece of the stream takes the line in progress and perhaps one byte more. -/
theorem cut (h : Whole s) {byte : UInt8} {rest : List UInt8} (hincoming : s.incoming = byte :: rest)
    {p : Piece UInt8} (hp : p.elements frames = s.line ++ [byte]) :
    Whole ((s.advance rest).cut p) := by
  have htorn := h.torn_eq_nil hincoming
  constructor
  · have haccount := h.account
    rw [htorn, hincoming] at haccount
    simp [Session.cut, haccount, htorn, hp]
  · intro h
    exact (h htorn).elim

/-- A step loses no byte, but for a call that is cancelled within a line. -/
theorem move (h : Whole s) (hcore : Core codec s) (hmove : Move codec s a s')
    (hcancel : a = .cancel → s.line = []) : Whole s' := by
  cases hmove with
  | arrive bytes hhungUp =>
    constructor
    · simp [h.account]
    · intro htorn
      exact absurd (h.torn htorn).2 (by simp [hhungUp])
  | hangUp => exact ⟨h.account, fun htorn => ⟨(h.torn htorn).1, rfl⟩⟩
  | noToken => exact h
  | execute name arguments hconnected hcall => exact h.of_stream rfl rfl
  | wait device hconnected hcall =>
    have hline := hcore.quiet (by simp [reading, hcall])
    exact h.of_stream (stream_takeEvents s device _) ((line_takeEvents hline).trans hline.symm)
  | send n name id unsent hcall => exact h.of_stream rfl rfl
  | sendFails error fault hreading => exact h.finish (hcore.quiet hreading) _
  | more error byte rest line hreading hincoming hnext =>
    obtain ⟨rfl, -⟩ := next_more hnext hcore.short
    constructor
    · simp [h.account, hincoming]
    · intro htorn
      exact (htorn (h.torn_eq_nil hincoming)).elim
  | overlong error byte rest fault hreading hincoming hnext =>
    exact (h.cut hincoming rfl).finish rfl _
  | complete error rest hreading hincoming =>
    have hreceives := receives codec ((s.advance rest).cut (.line s.line)) s.line
    exact (h.cut hincoming rfl).of_stream hreceives.stream (hreceives.line rfl)
  | ended error hreading hincoming hhungUp =>
    constructor
    · simp [readEnd, Session.fail, Session.finish, h.account, hincoming]
    · intro _
      exact ⟨hincoming, hhungUp⟩
  | drain hcall => exact h.of_stream rfl rfl
  | cancel => exact h.finish (hcancel rfl) _

theorem start : Whole {} := ⟨rfl, fun h => (h rfl).elim⟩

end Whole

/-! ## No event is lost to a wait -/

/-- What the waits took was for them. -/
def Fair (s : Session) : Prop := ∀ p ∈ s.history.taken, Concerns p.1 p.2

theorem taken_takeEvents (s : Session) (device : String) (events : List Json) :
    (s.takeEvents device events).history.taken =
      s.history.taken ++ (popEvents device events).taken.map (device, ·) := by
  unfold takeEvents
  dsimp only
  split <;> rfl

theorem concerns_of_taken (h : Harmless device events)
    {event : Json} (hevent : event ∈ (popEvents device events).taken) : Concerns device event := by
  obtain ⟨before, after, hevents, hbefore⟩ := taken_before hevent
  exact h before event after hevents hbefore

theorem harmless_singleton {event : Json} (h : Concerns device event) :
    Harmless device [event] := by
  intro before e after hevents _
  have hmem : e ∈ [event] := hevents ▸ by simp
  rw [mem_singleton.1 hmem]
  exact h

namespace Fair

theorem takeEvents (h : Fair s)
    (hharmless : Harmless device events) : Fair (s.takeEvents device events) := by
  intro p hp
  rw [taken_takeEvents, mem_append] at hp
  rcases hp with hp | hp
  · exact h p hp
  · obtain ⟨event, hevent, rfl⟩ := mem_map.1 hp
    exact concerns_of_taken hharmless hevent

/-- A careful step takes no event another wait is for. -/
theorem move (h : Fair s) (hcore : Core codec s) (hmove : Move codec s a s')
    (hcareful : Careful codec s a) : Fair s' := by
  cases hmove with
  | wait device hconnected hcall => exact h.takeEvents hcareful
  | complete error rest hreading hincoming =>
    have hreceives := receives codec ((s.advance rest).cut (.line s.line)) s.line
    generalize Session.receive codec _ _ = s'' at hreceives
    cases hreceives with
    | waited device message hmessage hcall hevent =>
      have hevents : s.client.events = [] := hcore.waiting device hcall
      have hconcerns := hcareful device message hcall (by simp [hincoming]) hmessage hevent
      have hharmless : Harmless device (s.client.events ++ [message]) := by
        rw [hevents, nil_append]
        exact harmless_singleton hconcerns
      exact takeEvents (s := (s.advance rest).cut (.line s.line)) h hharmless
    | _ => exact h
  | _ => exact h

end Fair

/-! ## Whole sessions -/

/-- Every command that returns its reply returns what a line with its own id says, and no other
command had that id before the ids are used up. -/
structure Answered (codec : Codec) (s : Session) : Prop where
  own : ∀ r ∈ s.history.returned, Own codec s r
  distinct : s.history.issued.length < 2 ^ 64 → s.history.issued.Nodup

/-- No byte of the stream is lost, and the lines that were read are the first that QEMU sent. -/
structure Framed (s : Session) : Prop where
  account : s.history.received =
    s.history.pieces.flatMap (Piece.elements frames) ++ (s.history.torn ++ s.line ++ s.incoming)
  lines : ∀ lines rest, (∀ l ∈ lines, frames.Short l) → frames.Short rest →
    s.history.received = frames.encode lines ++ rest →
    s.history.pieces = (lines.take s.history.pieces.length).map .line ∧
      s.history.torn ++ s.line ++ s.incoming =
        frames.encode (lines.drop s.history.pieces.length) ++ rest

/-- No wait took an event another wait is for. Each event that was read is in the queue, or a wait
took it, or the queue was full, or the queue was drained. -/
structure Spared (codec : Codec) (s : Session) : Prop where
  fair : ∀ p ∈ s.history.taken, Concerns p.1 p.2
  events : (s.eventsRead codec).Perm s.eventsHeld

theorem Core.answered (h : Core codec s) : Answered codec s where
  own := h.own
  distinct hlength := by
    rw [h.issued]
    apply List.Nodup.map_on _ nodup_range
    intro i hi j hj heq
    rw [mem_range] at hi hj
    have htoNat := congrArg UInt64.toNat heq
    rw [UInt64.toNat_ofNat_of_lt' (by simp only [UInt64.size]; omega),
      UInt64.toNat_ofNat_of_lt' (by simp only [UInt64.size]; omega)] at htoNat
    omega

theorem Whole.framed (h : Whole s) (hcore : Core codec s) : Framed s where
  account := h.account
  lines _ _ hlines hrest hreceived :=
    pieces_eq_take hcore.cut hlines hrest (h.account.symm.trans hreceived)

variable {ok : Session → Action → Prop}

theorem Reachable.sound (h : Reachable codec ok s) : Core codec s ∧ Accounted codec s := by
  induction h with
  | start => exact ⟨.start codec, .start codec⟩
  | step h hok hstep ih =>
    obtain ⟨hcore, haccounted⟩ := ih
    have hmove := move_of_step hstep
    exact ⟨hcore.move hmove, haccounted.move hcore hmove⟩

theorem Reachable.careful (hok : ∀ s a, ok s a → Careful codec s a) (h : Reachable codec ok s) :
    Whole s ∧ Fair s := by
  induction h with
  | start => exact ⟨.start, nofun⟩
  | @step s s' a h hstepok hstep ih =>
    obtain ⟨hwhole, hfair⟩ := ih
    have hmove := move_of_step hstep
    have hcareful := hok s a hstepok
    refine ⟨hwhole.move h.sound.1 hmove ?_, hfair.move h.sound.1 hmove hcareful⟩
    rintro rfl
    exact hcareful

end Session

open Session

/-- In every session a command only returns a reply of its own. In a session whose calls are
cancelled between two lines only and whose waits look through no event of another device's removal,
no byte of the stream is lost, what is read are the lines QEMU sent, and no wait discards an event
that another wait is for. -/
theorem qmp_sessions (codec : Codec) {ok : Session → Action → Prop} {s : Session}
    (h : Reachable codec ok s) :
    Answered codec s ∧
      ((∀ s a, ok s a → Careful codec s a) → Framed s ∧ Spared codec s) := by
  refine ⟨h.sound.1.answered, fun hok => ?_⟩
  obtain ⟨hwhole, hfair⟩ := h.careful hok
  exact ⟨hwhole.framed h.sound.1, hfair, h.sound.2.events⟩

/-- In every session, whatever is cancelled, the ids of the commands count from one, a wait goes on
when all queued events are looked through, and each event that was read was taken, forgotten or
drained, or is queued, just once. -/
theorem events_conserved (codec : Codec) {ok : Session → Action → Prop} {s : Session}
    (h : Reachable codec ok s) :
    s.history.issued = (List.range s.history.issued.length).map (fun k => UInt64.ofNat (k + 1)) ∧
      (∀ device, s.call = some (.wait device) → s.client.events = []) ∧
      (s.eventsRead codec).Perm s.eventsHeld :=
  ⟨h.sound.1.issued, h.sound.1.waiting, h.sound.2.events⟩

/-! ## Sessions of three messages -/

namespace SessionExample

def toVec (v : Json) : List UInt8 := v.render.toUTF8.toList

def greeting : Json := .obj [("QMP", .obj [])]

def reply (id : UInt64) : Json := .obj [("id", idValue id), ("return", .obj [])]

def deleted (device : String) : Json :=
  .obj [("data", .obj [("device", .str device)]), ("event", .str "DEVICE_DELETED")]

/-- A line of QEMU. -/
def sent (message : Json) : List UInt8 := toVec message ++ [13, 10]

/-- serde_json on the lines of the sessions below, and on the parts of them. -/
def codec : Codec where
  fromSlice bytes :=
    [greeting, reply 1, reply 2, reply 3, deleted "usb1", deleted "usb2"].find? fun message =>
      bytes = toVec message ++ [13]
  toVec := toVec

/-- QEMU sends a message and the call in progress reads it. -/
def answer (message : Json) : List Action :=
  .arrive (sent message) :: List.replicate (sent message).length (.read "")

/-- A connection is made. -/
def connect : List Action := answer greeting ++ .send 100 :: answer (reply 1)

/-- Commands answered late and a wait whose event comes before the reply. -/
def quiet : List Action :=
  connect ++
    .execute "device_del" (.obj [("id", .str "usb1")]) :: .send 100 :: answer (deleted "usb1") ++
    .cancel :: .execute "query-status" .null :: .send 100 :: answer (reply 2) ++ answer (reply 3) ++
    [.waitDeviceDeleted "usb1"]

/-- A command is cancelled when it has five bytes of its reply. -/
def cutShort : List Action :=
  connect ++
    .execute "query-status" .null :: .send 100 :: .arrive (sent (reply 2)) ::
    List.replicate 5 (.read "") ++
    .cancel :: .execute "query-status" .null :: .send 100 :: List.replicate 17 (.read "")

/-- A wait for one device looks through the event of another, whose removal is waited for next. -/
def confused : List Action :=
  connect ++
    .execute "device_del" (.obj [("id", .str "usb2")]) :: .send 100 :: answer (deleted "usb2") ++
    answer (reply 2) ++ [.waitDeviceDeleted "usb1", .cancel, .waitDeviceDeleted "usb2", .cancel]

/-- A policy that can be decided: what a wait looks through names its device. -/
def prudent (s : Session) : Action → Bool
  | .cancel => s.line.isEmpty
  | .waitDeviceDeleted device => s.client.events.all fun event => deviceOf event = some device
  | .read _ =>
    match s.call, codec.fromSlice s.line with
    | some (.wait device), some message => deviceOf message = some device
    | _, _ => true
  | _ => true

/-- The command with the id found no message in its line. -/
def fails (id : UInt64) : Option Returned → Bool
  | some (.noReply i .json) => i = id
  | _ => false

/-- The wait for the device saw no event for it. -/
def stays (device : String) : Option Returned → Bool
  | some (.wait d (.ok false)) => d = device
  | _ => false

/-- Bytes are missing. -/
def lossy (s : Session) : Bool :=
  s.history.received.length ≠
    (s.history.pieces.flatMap (Piece.elements frames) ++
      (s.history.torn ++ s.line ++ s.incoming)).length

/-- A wait took an event that another device's removal is waited for with. -/
def unfair (other : String) (s : Session) : Bool :=
  s.history.taken.any fun p => (removal other p.2).isSome && other ≠ p.1

theorem not_framed_of_lossy {s : Session} (h : lossy s = true) : ¬ Framed s := by
  intro hframed
  simp only [lossy, decide_eq_true_eq] at h
  exact h (congrArg List.length hframed.account)

theorem not_spared_of_unfair {other : String} {s : Session} (h : unfair other s = true) :
    ¬ Spared codec s := by
  intro hspared
  simp only [unfair, any_eq_true, Bool.and_eq_true, decide_eq_true_eq] at h
  obtain ⟨p, hp, hremoval, hne⟩ := h
  exact hne (hspared.fair p hp other hremoval)

theorem careful_of_prudent (s : Session) (a : Action) (h : prudent s a = true) :
    Careful codec s a := by
  have hconcerns (device : String) (event : Json) (hdevice : deviceOf event = some device) :
      Concerns device event := by
    intro other hremoval
    by_contra hne
    have hother : deviceOf event ≠ some other := by
      rw [hdevice]
      exact fun h => hne (Option.some.inj h).symm
    simp [removal, hother] at hremoval
  cases a with
  | cancel => exact List.isEmpty_iff.1 h
  | waitDeviceDeleted device =>
    intro before event after hevents _
    simp only [prudent, hevents, all_eq_true, decide_eq_true_eq] at h
    exact hconcerns device event (h event (by simp))
  | read error =>
    intro device message hcall _ hmessage _
    simp only [prudent, hcall, hmessage, decide_eq_true_eq] at h
    exact hconcerns device message h
  | _ => trivial

end SessionExample

open SessionExample

theorem qmp_sessions_quiet :
    ∃ s, Session.play codec prudent {} quiet = some s ∧
      Answered codec s ∧ Framed s ∧ Spared codec s := by
  obtain ⟨s, hs⟩ := Option.isSome_iff_exists.1
    (show (Session.play codec prudent {} quiet).isSome = true by decide +kernel)
  have hreachable := Reachable.play .start hs
  obtain ⟨hanswered, hrest⟩ := qmp_sessions codec hreachable
  exact ⟨s, hs, hanswered, hrest careful_of_prudent⟩

theorem events_conserved_confused :
    ∃ s, Session.play codec (fun _ _ => true) {} confused = some s ∧
      (s.eventsRead codec).Perm s.eventsHeld := by
  obtain ⟨s, hs⟩ := Option.isSome_iff_exists.1
    (show (Session.play codec (fun _ _ => true) {} confused).isSome = true by decide +kernel)
  exact ⟨s, hs, (events_conserved codec (Reachable.play .start hs)).2.2⟩

/-- A command that is cancelled within a line loses what it has of it, and the next command finds
no message in the rest; a wait for one device discards the event another wait is for. -/
theorem qmp_sessions_lossy :
    (∃ s, Session.play codec (fun _ _ => true) {} cutShort = some s ∧ ¬ Framed s ∧
        fails 3 s.history.returned.getLast? = true) ∧
      ∃ s, Session.play codec (fun _ _ => true) {} confused = some s ∧ ¬ Spared codec s ∧
        stays "usb2" s.history.returned.getLast? = true := by
  constructor
  · have hplay : (Session.play codec (fun _ _ => true) {} cutShort).any
        (fun s => lossy s && fails 3 s.history.returned.getLast?) = true := by decide +kernel
    obtain ⟨s, hs, htest⟩ := (Option.any_eq_true _ _).1 hplay
    rw [Bool.and_eq_true] at htest
    exact ⟨s, hs, not_framed_of_lossy htest.1, htest.2⟩
  · have hplay : (Session.play codec (fun _ _ => true) {} confused).any
        (fun s => unfair "usb2" s && stays "usb2" s.history.returned.getLast?) = true := by
      decide +kernel
    obtain ⟨s, hs, htest⟩ := (Option.any_eq_true _ _).1 hplay
    rw [Bool.and_eq_true] at htest
    exact ⟨s, hs, not_spared_of_unfair htest.1, htest.2⟩

end MachineEmu.Qmp
