import MachineEmu.Safety.LinkHandshake

/-!
# What a SPICE channel of the web client delivers

* `SpiceChannel.run_talking`, `SpiceChannel.run_talking_faulted` — messages, however they are cut.
* `SpiceChannel.run_result`, `SpiceChannel.run_faulty` — with the ticket result before them.
* `SpiceChannel.Calm`, `SpiceChannel.run_calm`, `SpiceChannel.run_noise` — the frames before the
  ticket is encrypted.
* `SpiceChannel.Delivers`, `SpiceChannel.Closes` — what is delivered and answered, and what a fault
  leaves.
* `SpiceChannel.channel_delivers` — when every message is delivered, and that a fault closes the
  channel; `SpiceChannel.not_channel_delivers` — a message that comes with the ticket result.
-/

namespace MachineEmu.Web

open Lib Spice List Framing

namespace SpiceChannel

/-! ### From the ticket result on -/

/-- Whether a message goes to the listener. -/
def heard (message : SpiceMessage) : Bool := (answer message).isNone

/-- The answers to messages of flow control. -/
def answers (messages : List SpiceMessage) : List (List UInt8) :=
  (messages.filterMap answer).map encodeMessage

theorem answers_append (front back : List SpiceMessage) :
    answers (front ++ back) = answers front ++ answers back := by
  simp [answers]

section Messages

variable {s : SpiceChannel}

/-- What one message does to an open channel. -/
theorem deliver_eq (hopen : s.isOpen = true) (message : SpiceMessage) :
    s.deliver message =
      { s with
        sent := s.sent ++ answers [message]
        delivered := s.delivered ++ if s.handlers then [message].filter heard else [] } := by
  unfold deliver
  cases hanswer : answer message with
  | none =>
    simp only [answers, heard, hanswer, filterMap_cons, filterMap_nil, map_nil,
      append_nil, filter_cons, filter_nil, Option.isNone_none, if_true]
    split
    · rfl
    · rw [append_nil]
  | some reply =>
    simp [SpiceChannel.send, hopen, answers, heard, hanswer]

theorem foldl_deliver (hopen : s.isOpen = true) (units : List SpiceMessage) :
    units.foldl deliver s =
      { s with
        sent := s.sent ++ answers units
        delivered := s.delivered ++ if s.handlers then units.filter heard else [] } := by
  induction units generalizing s with
  | nil => simp [answers]
  | cons unit units ih =>
    have hanswers := answers_append [unit] units
    have hheard : (unit :: units).filter heard = [unit].filter heard ++ units.filter heard :=
      filter_append [unit] units
    rw [cons_append, nil_append] at hanswers
    rw [foldl_cons, deliver_eq hopen, ih (by exact hopen)]
    dsimp only
    rw [hanswers, hheard, append_assoc, append_assoc]
    congr 2
    split <;> rfl

theorem feed_drained {d} (hclean : Web.framer.drain () s.framer = some ⟨(), s.framer, []⟩)
    (hd : Web.framer.drain () (s.framer ++ s.buffer) = some d) :
    s.feed = d.units.foldl deliver { s with buffer := [], framer := d.rest } := by
  unfold feed
  split
  · next hbuffer =>
    rw [hbuffer, append_nil, hclean] at hd
    cases hd
    rw [foldl_nil, ← hbuffer]
  · rw [hd]

theorem feed_faulted (hclean : Web.framer.drain () s.framer = some ⟨(), s.framer, []⟩)
    (hd : Web.framer.drain () (s.framer ++ s.buffer) = none) :
    s.feed = { s with buffer := [] }.fault := by
  unfold feed
  split
  · next hbuffer =>
    rw [hbuffer, append_nil, hclean] at hd
    cases hd
  · rw [hd]

end Messages

/-! ### Turns -/

/-- A channel that is done with. -/
structure Shut (s : SpiceChannel) : Prop where
  isOpen : s.isOpen = false
  encrypting : s.encrypting = 0
  link : s.link ≠ .pending

variable {s : SpiceChannel}

theorem Shut.run (h : s.Shut) (events : List Event) : s.run events = s := by
  induction events with
  | nil => rfl
  | cons event events ih =>
    have hstep : s.step event = s := by
      unfold step
      rw [if_neg fun hpending => h.link hpending.1]
      cases event with
      | frame bytes => simp [handle, h.isOpen]
      | encrypted cipher => simp [handle, SpiceChannel.encrypted, h.encrypting]
    exact (congrArg (SpiceChannel.run · events) hstep).trans ih

theorem run_append (s : SpiceChannel) (front back : List Event) :
    s.run (front ++ back) = (s.run front).run back := foldl_append

/-- A turn in which the link does not resolve. -/
theorem step_quiet {event : Event} (h : (s.handle event).link ≠ .resolved) :
    s.step event = s.handle event := if_neg fun hresolved => h hresolved.2

theorem step_settled {event : Event} (h : s.link ≠ .pending) :
    s.step event = s.handle event := if_neg fun hpending => h hpending.1

/-- The bytes that come with an event. -/
def Event.bytes : Event → List UInt8
  | .frame bytes => bytes
  | .encrypted _ => []

/-- While the bytes of the ticket result come. -/
def resulting (start : SpiceChannel) (link cipher got : List UInt8) : SpiceChannel :=
  { start with
    phase := .result, buffer := got, replySize := link.length - linkHeader
    opus := start.agrees link, sent := [selection, cipher] }

/-- Behind the ticket result, with some messages taken. -/
def talking (start : SpiceChannel) (link cipher rest : List UInt8)
    (units delivered : List SpiceMessage) : SpiceChannel :=
  { start with
    phase := .messages, handlers := true, link := .resolved, framer := rest
    replySize := link.length - linkHeader, opus := start.agrees link
    sent := [selection, cipher] ++ answers units, delivered }

section Talking

variable {channel : Channel} {wantOpus : Bool} {link cipher got rest chunk : List UInt8}
  {units delivered messages : List SpiceMessage} {events : List Event}

theorem step_talking {d} (hclean : Web.framer.drain () rest = some ⟨(), rest, []⟩)
    (hd : Web.framer.drain () (rest ++ chunk) = some d) :
    ((opening channel wantOpus).talking link cipher rest units delivered).step (.frame chunk) =
      (opening channel wantOpus).talking link cipher d.rest (units ++ d.units)
        (delivered ++ d.units.filter heard) := by
  rw [step_settled (by simp [talking])]
  show SpiceChannel.feed _ = _
  rw [feed_drained hclean hd, foldl_deliver (by rfl)]
  simp only [talking, answers_append, append_assoc, if_true]
  rfl

theorem step_talking_faulted (hclean : Web.framer.drain () rest = some ⟨(), rest, []⟩)
    (hd : Web.framer.drain () (rest ++ chunk) = none) :
    Shut (((opening channel wantOpus).talking link cipher rest units delivered).step
      (.frame chunk)) ∧
      (((opening channel wantOpus).talking link cipher rest units delivered).step
        (.frame chunk)).delivered = delivered := by
  rw [step_settled (by simp [talking])]
  have hfeed := feed_faulted (s := { (opening channel wantOpus).talking link cipher rest units
    delivered with buffer := chunk }) hclean hd
  have hhandle : ((opening channel wantOpus).talking link cipher rest units delivered).handle
      (.frame chunk) = SpiceChannel.feed { (opening channel wantOpus).talking link cipher rest units
    delivered with buffer := chunk } := rfl
  rw [hhandle, hfeed]
  exact ⟨⟨rfl, rfl, by simp [fault, talking]⟩, rfl⟩

theorem step_talking_encrypted (cipher' : Option (List UInt8)) :
    ((opening channel wantOpus).talking link cipher rest units delivered).step
      (.encrypted cipher') = (opening channel wantOpus).talking link cipher rest units delivered :=
  step_settled (by simp [talking])

/-- What is taken of a good stream, however it is cut. -/
theorem run_talking {d} (hclean : Web.framer.drain () rest = some ⟨(), rest, []⟩)
    (hd : Web.framer.drain () (rest ++ events.flatMap Event.bytes) = some d) :
    ((opening channel wantOpus).talking link cipher rest units delivered).run events =
      (opening channel wantOpus).talking link cipher d.rest (units ++ d.units)
        (delivered ++ d.units.filter heard) := by
  induction events generalizing rest units delivered d with
  | nil =>
    rw [flatMap_nil, append_nil, hclean] at hd
    cases hd
    simp [SpiceChannel.run]
  | cons event events ih =>
    rw [flatMap_cons] at hd
    cases event with
    | encrypted cipher' =>
      rw [SpiceChannel.run, foldl_cons, step_talking_encrypted]
      exact ih hclean hd
    | frame chunk =>
      rw [Event.bytes, ← append_assoc] at hd
      cases hfront : Web.framer.drain () (rest ++ chunk) with
      | none =>
        rw [drain_append_of_none hfront] at hd
        cases hd
      | some front =>
        rw [drain_append hfront] at hd
        obtain ⟨back, hback, rfl⟩ := Option.map_eq_some_iff.1 hd
        rw [SpiceChannel.run, foldl_cons, step_talking hclean hfront, Framing.Drained.after,
          filter_append, ← append_assoc, ← append_assoc]
        exact ih (drain_drained hfront) hback

/-- A fault behind some messages closes the channel. -/
theorem run_talking_faulted {bad : List UInt8} (hfits : ∀ m ∈ messages, m.Fits)
    (hbad : parseMessage bad = .bad) (hclean : Web.framer.drain () rest = some ⟨(), rest, []⟩)
    (heq : rest ++ events.flatMap Event.bytes = encodeMessages messages ++ bad) :
    Shut (((opening channel wantOpus).talking link cipher rest units delivered).run events) ∧
      ∃ taken, taken <+: messages ∧
        (((opening channel wantOpus).talking link cipher rest units delivered).run
          events).delivered = delivered ++ taken.filter heard := by
  have htail : ∀ n v, parseMessage bad ≠ .unit n () v := by simp [hbad]
  induction events generalizing rest units delivered messages with
  | nil =>
    rw [flatMap_nil, append_nil] at heq
    have hdrain := drain_encodeMessages hfits
    have hnone : Web.framer.drain () (encodeMessages messages ++ bad) = none := by
      rw [drain_append hdrain, nil_append, drain_of_bad hbad]
      rfl
    rw [← heq, hclean] at hnone
    cases hnone
  | cons event events ih =>
    rw [flatMap_cons] at heq
    cases event with
    | encrypted cipher' =>
      rw [SpiceChannel.run, foldl_cons, step_talking_encrypted]
      exact ih hfits hclean heq
    | frame chunk =>
      rw [Event.bytes, ← append_assoc] at heq
      rw [SpiceChannel.run, foldl_cons]
      cases hfront : Web.framer.drain () (rest ++ chunk) with
      | none =>
        obtain ⟨hshut, hdelivered⟩ := @step_talking_faulted channel wantOpus link cipher rest
          chunk units delivered hclean hfront
        have hrun := hshut.run events
        unfold SpiceChannel.run at hrun
        rw [hrun]
        exact ⟨hshut, [], nil_prefix, by rw [hdelivered]; simp⟩
      | some front =>
        obtain ⟨hunits, hrest⟩ := drain_front hfits heq htail hfront
        rw [step_talking hclean hfront]
        obtain ⟨hshut, taken, htaken, hdelivered⟩ := @ih front.rest (units ++ front.units)
          (delivered ++ front.units.filter heard) (messages.drop front.units.length)
          (fun m hm => hfits m (mem_of_mem_drop hm)) (drain_drained hfront)
          (hunits ▸ hrest)
        refine ⟨hshut, front.units ++ taken, ?_, ?_⟩
        · have hall := early_append (rest ++ chunk).length messages
          rw [← hunits] at hall
          rw [← hall]
          exact (prefix_append_right_inj _).2 htaken
        · rw [filter_append, ← append_assoc]
          exact hdelivered

end Talking

/-! ### The ticket result -/

/-- The end of a turn that may have the ticket result. -/
def finish (s : SpiceChannel) : SpiceChannel :=
  if s.proceed.link = .resolved then { s.proceed with handlers := true } else s.proceed

/-- Behind a good ticket result, before its messages are taken. -/
def resolving (start : SpiceChannel) (link cipher tail : List UInt8) : SpiceChannel :=
  { start.resulting link cipher tail with phase := .messages, link := .resolved }

section Result

variable {channel : Channel} {wantOpus : Bool} {link cipher got chunk : List UInt8}

theorem step_pending {t : SpiceChannel} {event : Event} (hlink : s.link = .pending)
    (hhandle : s.handle event = t.proceed) : s.step event = t.finish := by
  unfold step finish
  rw [hhandle]
  simp only [hlink, true_and]

theorem step_resulting :
    ((opening channel wantOpus).resulting link cipher got).step (.frame chunk) =
      ((opening channel wantOpus).resulting link cipher (got ++ chunk)).finish :=
  step_pending rfl rfl

theorem step_authorising (hcipher : cipher.length = 128) :
    ((opening channel wantOpus).authorising link got).step (.encrypted (some cipher)) =
      ((opening channel wantOpus).resulting link cipher (got.drop link.length)).finish := by
  refine step_pending rfl ?_
  show ite _ _ _ = _
  rw [if_neg (not_not.2 hcipher)]
  rfl

theorem finish_short (hshort : got.length < 4) :
    ((opening channel wantOpus).resulting link cipher got).finish =
      (opening channel wantOpus).resulting link cipher got := by
  have hproceed : ((opening channel wantOpus).resulting link cipher got).proceed =
      (opening channel wantOpus).resulting link cipher got := by
    unfold proceed
    exact (if_pos rfl).trans (if_pos hshort)
  unfold finish
  rw [hproceed]
  exact if_neg (by simp [resulting, opening])

theorem step_resulting_encrypted (cipher' : Option (List UInt8)) :
    ((opening channel wantOpus).resulting link cipher got).step (.encrypted cipher') =
      (opening channel wantOpus).resulting link cipher got :=
  step_quiet (by simp [handle, SpiceChannel.encrypted, resulting, opening])

theorem proceed_resulting (hlong : 4 ≤ got.length) (hzero : u32le got 0 = 0) :
    ((opening channel wantOpus).resulting link cipher got).proceed =
      ((opening channel wantOpus).resolving link cipher (got.drop 4)).feed := by
  unfold proceed
  exact ((if_pos rfl).trans (if_neg (Nat.not_lt.2 hlong))).trans (if_neg (not_not.2 hzero))

theorem finish_talking (hlong : 4 ≤ got.length) (hzero : u32le got 0 = 0) {d}
    (hd : Web.framer.drain () (got.drop 4) = some d) :
    ((opening channel wantOpus).resulting link cipher got).finish =
      (opening channel wantOpus).talking link cipher d.rest d.units [] := by
  have hfeed := @feed_drained ((opening channel wantOpus).resolving link cipher (got.drop 4)) d
    (drain_of_more rfl) hd
  unfold finish
  rw [proceed_resulting hlong hzero, hfeed, foldl_deliver (by rfl)]
  rfl

theorem finish_faulted (hlong : 4 ≤ got.length) (hzero : u32le got 0 = 0)
    (hd : Web.framer.drain () (got.drop 4) = none) :
    Shut ((opening channel wantOpus).resulting link cipher got).finish ∧
      ((opening channel wantOpus).resulting link cipher got).finish.delivered = [] := by
  have hfeed := @feed_faulted ((opening channel wantOpus).resolving link cipher (got.drop 4))
    (drain_of_more rfl) hd
  unfold finish
  rw [proceed_resulting hlong hzero, hfeed]
  exact ⟨⟨rfl, rfl, by simp [fault, resolving]⟩, rfl⟩

theorem finish_refused (hlong : 4 ≤ got.length) (hnonzero : u32le got 0 ≠ 0) :
    Shut ((opening channel wantOpus).resulting link cipher got).finish ∧
      ((opening channel wantOpus).resulting link cipher got).finish.delivered = [] := by
  have hproceed : ((opening channel wantOpus).resulting link cipher got).proceed =
      { (opening channel wantOpus).resulting link cipher got with buffer := got.drop 4 }.fault := by
    unfold proceed
    exact ((if_pos rfl).trans (if_neg (Nat.not_lt.2 hlong))).trans (if_pos hnonzero)
  unfold finish
  rw [hproceed]
  exact ⟨⟨rfl, rfl, by simp [fault, resulting, opening]⟩, rfl⟩

end Result

/-! ### Runs -/

/-- The bytes behind the link reply that are there at the end of the turn with the ticket result. -/
def withResult : Nat → List Event → Nat
  | got, [] => got
  | got, event :: events =>
    if 4 ≤ got then got else withResult (got + event.bytes.length) events

/-- What is behind a good link reply and breaks the channel, with the messages before it. -/
inductive Faulty : List UInt8 → List SpiceMessage → Prop
  | result {tail} (hlong : 4 ≤ tail.length) (hnonzero : u32le tail 0 ≠ 0) : Faulty tail []
  | message {messages bad} (hfits : ∀ m ∈ messages, m.Fits) (hbad : parseMessage bad = .bad) :
      Faulty (leBytes 4 0 ++ (encodeMessages messages ++ bad)) messages

section Runs

variable {channel : Channel} {wantOpus : Bool} {link cipher got : List UInt8}
  {messages : List SpiceMessage} {events : List Event}

/-- Four bytes that a stream begins with. -/
theorem u32le_front {back stream : List UInt8} (hlong : 4 ≤ got.length) (heq : got ++ back = stream) :
    u32le got 0 = u32le stream 0 := by
  unfold u32le
  rw [← heq, slice_append (by omega)]

theorem u32le_zero (later : List UInt8) : u32le (leBytes 4 0 ++ later) 0 = 0 := by
  unfold u32le
  rw [slice_append (by simp), slice_all (by simp), leNat_leBytes]
  rfl

/-- What is behind the ticket result. -/
theorem drop_result {back stream : List UInt8} (hlong : 4 ≤ got.length)
    (heq : got ++ back = leBytes 4 0 ++ stream) : got.drop 4 ++ back = stream := by
  rw [← drop_append_of_le_length hlong, heq, drop_left' (by simp)]

/-- One more event before the ticket result is complete. -/
theorem run_finish_cons (hshort : got.length < 4) (event : Event) :
    ((opening channel wantOpus).resulting link cipher got).finish.run (event :: events) =
      ((opening channel wantOpus).resulting link cipher (got ++ event.bytes)).finish.run events := by
  rw [finish_short hshort, SpiceChannel.run, foldl_cons]
  cases event with
  | frame chunk =>
    rw [step_resulting]
    rfl
  | encrypted cipher' =>
    rw [step_resulting_encrypted, Event.bytes, append_nil, finish_short hshort]
    rfl

theorem withResult_now (hlong : 4 ≤ got.length) : withResult got.length events = got.length := by
  cases events with
  | nil => rfl
  | cons event events => exact if_pos hlong

/-- The end of a run of a good stream whose ticket result is there. -/
theorem run_result_now (hfits : ∀ m ∈ messages, m.Fits) (hlong : 4 ≤ got.length)
    (heq : got ++ events.flatMap Event.bytes = leBytes 4 0 ++ encodeMessages messages) :
    ((opening channel wantOpus).resulting link cipher got).finish.run events =
      (opening channel wantOpus).talking link cipher [] messages
        ((messages.drop (early (got.length - 4) messages).length).filter heard) := by
  have hzero : u32le got 0 = 0 := by rw [u32le_front hlong heq, u32le_zero]
  have hrest := drop_result hlong heq
  have hall := drain_encodeMessages hfits
  cases hfront : Web.framer.drain () (got.drop 4) with
  | none =>
    rw [← hrest, drain_append_of_none hfront] at hall
    cases hall
  | some front =>
    have hstream : got.drop 4 ++ events.flatMap Event.bytes = encodeMessages messages ++ [] :=
      hrest.trans (append_nil _).symm
    obtain ⟨hunits, -⟩ := drain_front hfits hstream (by simp [parseMessage_nil]) hfront
    rw [← hrest, drain_append hfront] at hall
    obtain ⟨back, hback, hd⟩ := Option.map_eq_some_iff.1 hall
    have hrestBack : back.rest = [] := congrArg Framing.Drained.rest hd
    have hunitsBack : front.units ++ back.units = messages := congrArg Framing.Drained.units hd
    rw [length_drop] at hunits
    rw [finish_talking hlong hzero hfront, run_talking (drain_drained hfront) hback,
      hrestBack, hunitsBack, nil_append, ← hunits, ← hunitsBack, drop_left]

/-- The end of a run of a good stream. -/
theorem run_result (hfits : ∀ m ∈ messages, m.Fits)
    (heq : got ++ events.flatMap Event.bytes = leBytes 4 0 ++ encodeMessages messages) :
    ((opening channel wantOpus).resulting link cipher got).finish.run events =
      (opening channel wantOpus).talking link cipher [] messages
        ((messages.drop (early (withResult got.length events - 4) messages).length).filter
          heard) := by
  induction events generalizing got with
  | nil =>
    have hlong : 4 ≤ got.length := by
      have hlength := congrArg List.length heq
      simp only [flatMap_nil, append_nil, length_append, length_leBytes] at hlength
      omega
    exact run_result_now hfits hlong heq
  | cons event events ih =>
    by_cases hlong : 4 ≤ got.length
    · rw [withResult_now hlong]
      exact run_result_now hfits hlong heq
    · rw [run_finish_cons (Nat.not_le.1 hlong), withResult, if_neg hlong, ← length_append]
      exact ih (by rw [append_assoc, ← flatMap_cons, heq])

/-- A faulty stream whose ticket result is there closes the channel. -/
theorem run_faulty_now (hlong : 4 ≤ got.length)
    (h : Faulty (got ++ events.flatMap Event.bytes) messages) :
    Shut (((opening channel wantOpus).resulting link cipher got).finish.run events) ∧
      ∃ taken, List.Sublist taken messages ∧
        (((opening channel wantOpus).resulting link cipher got).finish.run events).delivered =
          taken.filter heard := by
  generalize hstream : got ++ events.flatMap Event.bytes = stream at h
  cases h with
  | result _ hnonzero =>
    obtain ⟨hshut, hdelivered⟩ := @finish_refused channel wantOpus link cipher got hlong
      (by rwa [u32le_front hlong hstream])
    rw [hshut.run events]
    exact ⟨hshut, [], List.Sublist.refl _, hdelivered⟩
  | message hfits hbad =>
    have hzero : u32le got 0 = 0 := by rw [u32le_front hlong hstream, u32le_zero]
    have hrest := drop_result hlong hstream
    cases hfront : Web.framer.drain () (got.drop 4) with
    | none =>
      obtain ⟨hshut, hdelivered⟩ := @finish_faulted channel wantOpus link cipher got hlong hzero
        hfront
      rw [hshut.run events]
      exact ⟨hshut, [], nil_sublist _, hdelivered⟩
    | some front =>
      obtain ⟨hunits, hback⟩ := drain_front hfits hrest (by simp [hbad]) hfront
      rw [finish_talking hlong hzero hfront]
      obtain ⟨hshut, taken, htaken, hdelivered⟩ := @run_talking_faulted channel wantOpus link
        cipher front.rest front.units [] (messages.drop front.units.length) events _
        (fun m hm => hfits m (mem_of_mem_drop hm)) hbad (drain_drained hfront)
        (hunits ▸ hback)
      exact ⟨hshut, taken, htaken.sublist.trans (drop_sublist _ _), hdelivered⟩

theorem Faulty.long {tail : List UInt8} (h : Faulty tail messages) : 4 ≤ tail.length := by
  cases h with
  | result hlong _ => exact hlong
  | message _ _ => simp

/-- A faulty stream closes the channel. -/
theorem run_faulty (h : Faulty (got ++ events.flatMap Event.bytes) messages) :
    Shut (((opening channel wantOpus).resulting link cipher got).finish.run events) ∧
      ∃ taken, List.Sublist taken messages ∧
        (((opening channel wantOpus).resulting link cipher got).finish.run events).delivered =
          taken.filter heard := by
  induction events generalizing got with
  | nil =>
    have hlong := h.long
    rw [flatMap_nil, append_nil] at hlong
    exact run_faulty_now hlong h
  | cons event events ih =>
    by_cases hlong : 4 ≤ got.length
    · exact run_faulty_now hlong h
    · rw [run_finish_cons (Nat.not_le.1 hlong)]
      exact ih (by rwa [append_assoc, ← flatMap_cons])

end Runs

/-! ### The handshake -/

/-- No frame that comes behind the reply brings as many bytes as the reply again. -/
def Calm (size : Nat) : Nat → List (List UInt8) → Prop
  | _, [] => True
  | got, chunk :: chunks =>
    (size ≤ got → got + chunk.length < size + size) ∧ Calm size (got + chunk.length) chunks

/-- A link that does not go on as it should. -/
def Spoiled (s : SpiceChannel) : Prop := s.link = .rejected ∨ [selection, selection] <+: s.sent

theorem Spoiled.run (h : s.Spoiled) (events : List Event) : (s.run events).Spoiled := by
  have hfollows := follows_run s events
  rcases h with hrejected | hsent
  · exact .inl (by rw [hfollows.link (by simp [hrejected]), hrejected])
  · exact .inr (hsent.trans hfollows.sent)

section Before

variable {channel : Channel} {wantOpus : Bool} {link tail got chunk back : List UInt8}
  {chunks : List (List UInt8)}

theorem handshake_open (got : List UInt8) :
    ((opening channel wantOpus).handshake link got).isOpen = true ∧
      ((opening channel wantOpus).handshake link got).link = .pending := by
  unfold handshake
  split <;> exact ⟨rfl, rfl⟩

theorem handle_handshake :
    ((opening channel wantOpus).handshake link got).handle (.frame chunk) =
      ((opening channel wantOpus).handshake link got).receive chunk := if_pos (handshake_open got).1

theorem step_handshake (hlink : GoodReply link) (hstream : got ++ chunk ++ back = link ++ tail)
    (hcalm : link.length ≤ got.length → got.length + chunk.length < link.length + link.length) :
    ((opening channel wantOpus).handshake link got).step (.frame chunk) =
      (opening channel wantOpus).handshake link (got ++ chunk) := by
  have hreceive : ((opening channel wantOpus).handshake link got).receive chunk =
      (opening channel wantOpus).handshake link (got ++ chunk) := by
    by_cases hgot : got.length < link.length
    · exact receive_handshake hlink hgot hstream
    · have hlong := Nat.not_lt.1 hgot
      have hnext : ¬(got ++ chunk).length < link.length := by
        rw [length_append]
        omega
      unfold handshake
      rw [if_neg hgot, if_neg hnext,
        receive_authorising hlink hlong (by rw [length_append]; exact hcalm hlong)]
  rw [step_quiet (by rw [handle_handshake, hreceive, (handshake_open _).2]; simp),
    handle_handshake, hreceive]

theorem run_calm (hlink : GoodReply link) (hcalm : Calm link.length got.length chunks)
    (hstream : got ++ chunks.flatten ++ back = link ++ tail) :
    ((opening channel wantOpus).handshake link got).run (chunks.map .frame) =
      (opening channel wantOpus).handshake link (got ++ chunks.flatten) := by
  induction chunks generalizing got with
  | nil => simp [SpiceChannel.run]
  | cons chunk chunks ih =>
    rw [flatten_cons, ← append_assoc] at hstream ⊢
    have hnext : got ++ chunk ++ (chunks.flatten ++ back) = link ++ tail := by
      rw [← append_assoc, hstream]
    rw [SpiceChannel.run, map_cons, foldl_cons, step_handshake hlink hnext hcalm.1]
    exact ih (by rw [length_append]; exact hcalm.2) hstream

theorem run_noise (hlink : GoodReply link) (hnoise : ¬Calm link.length got.length chunks)
    (hstream : got ++ chunks.flatten ++ back = link ++ tail) :
    Spoiled (((opening channel wantOpus).handshake link got).run (chunks.map .frame)) := by
  induction chunks generalizing got with
  | nil => exact absurd trivial hnoise
  | cons chunk chunks ih =>
    rw [flatten_cons, ← append_assoc] at hstream
    by_cases hcalm : link.length ≤ got.length → got.length + chunk.length < link.length + link.length
    · have hnext : got ++ chunk ++ (chunks.flatten ++ back) = link ++ tail := by
        rw [← append_assoc, hstream]
      rw [SpiceChannel.run, map_cons, foldl_cons, step_handshake hlink hnext hcalm]
      exact ih (fun h => hnoise ⟨hcalm, by rwa [length_append] at h⟩) hstream
    · obtain ⟨hlong, hmany⟩ := Classical.not_imp.1 hcalm
      have hagain := @receive_again channel wantOpus link got chunk hlink hlong
        (by rw [length_append]; exact Nat.not_lt.1 hmany)
      have hhandshake : (opening channel wantOpus).handshake link got =
          (opening channel wantOpus).authorising link got := if_neg (Nat.not_lt.2 hlong)
      have hspoiled : Spoiled (((opening channel wantOpus).handshake link got).step
          (.frame chunk)) := by
        rw [step_quiet, handle_handshake, hhandshake]
        · rcases hagain with hrejected | ⟨-, hsent⟩
          · exact .inl hrejected
          · exact .inr (by rw [hsent])
        · rw [handle_handshake, hhandshake]
          rcases hagain with hrejected | ⟨hpending, -⟩
          · simp [hrejected]
          · simp [hpending]
      exact hspoiled.run _

/-- A stream whose link reply is refused. -/
inductive Refused : List UInt8 → Prop
  | header {stream message} (hlong : linkHeader ≤ stream.length)
      (herror : parseLinkHeader stream = .error message) : Refused stream
  | body {stream size message} (hsize : parseLinkHeader stream = .ok size)
      (hlong : linkHeader + size ≤ stream.length)
      (herror : acceptReply (slice stream linkHeader size) = .error message) : Refused stream

theorem shut_fault (hencrypting : s.encrypting = 0)
    (hlink : s.link ≠ .resolved) : Shut s.fault ∧ s.fault.link ≠ .resolved ∧
      s.fault.delivered = s.delivered := by
  have hrejected : s.fault.link = .rejected := by
    cases h : s.link <;> simp_all [fault]
  exact ⟨⟨rfl, hencrypting, by simp [hrejected]⟩, by simp [hrejected], rfl⟩

/-- What a closed channel has delivered at most. -/
structure Closes (s : SpiceChannel) (messages : List SpiceMessage) : Prop where
  shut : Shut s
  delivered : ∃ taken, List.Sublist taken messages ∧ s.delivered = taken.filter heard

section Refused

variable {size : Nat} {events : List Event}

/-- A frame that completes a reply that is refused. -/
theorem run_fault (hhandle :
    ((opening channel wantOpus).waiting size got).handle (.frame chunk) = s.fault)
    (hencrypting : s.encrypting = 0) (hlink : s.link ≠ .resolved) (hdelivered : s.delivered = []) :
    Closes (((opening channel wantOpus).waiting size got).run (.frame chunk :: events)) [] := by
  obtain ⟨hshut, hresolved, hsame⟩ := shut_fault hencrypting hlink
  have hrun := hshut.run events
  have hstep : ((opening channel wantOpus).waiting size got).step (.frame chunk) = s.fault := by
    rw [step_quiet (hhandle ▸ hresolved), hhandle]
  rw [SpiceChannel.run, foldl_cons, hstep]
  unfold SpiceChannel.run at hrun
  rw [hrun]
  exact ⟨hshut, [], List.Sublist.refl _, hsame.trans hdelivered⟩

theorem step_waiting {t : List UInt8}
    (h : ((opening channel wantOpus).waiting size got).receive chunk =
      (opening channel wantOpus).waiting size t) :
    ((opening channel wantOpus).waiting size got).step (.frame chunk) =
      (opening channel wantOpus).waiting size t := by
  have hhandle : ((opening channel wantOpus).waiting size got).handle (.frame chunk) =
      (opening channel wantOpus).waiting size t := h
  rw [step_quiet (by rw [hhandle]; simp [waiting, opening]), hhandle]

theorem run_refused_header {stream : List UInt8} {message : String}
    (hlong : linkHeader ≤ stream.length) (herror : parseLinkHeader stream = .error message)
    (hgot : got.length < linkHeader) (heq : got ++ events.flatMap Event.bytes = stream) :
    Closes (((opening channel wantOpus).waiting 0 got).run events) [] := by
  induction events generalizing got with
  | nil =>
    rw [flatMap_nil, append_nil] at heq
    exact absurd hlong (by rw [← heq]; omega)
  | cons event events ih =>
    rw [flatMap_cons] at heq
    cases event with
    | encrypted cipher => exact ih hgot heq
    | frame chunk =>
      rw [Event.bytes, ← append_assoc] at heq
      by_cases hshort : (got ++ chunk).length < linkHeader
      · have hreceive : ((opening channel wantOpus).waiting 0 got).receive chunk =
            (opening channel wantOpus).waiting 0 (got ++ chunk) := by
          rw [receive_short rfl hshort]
          simp only [waiting, if_pos hgot, if_pos hshort]
        rw [SpiceChannel.run, foldl_cons, step_waiting hreceive]
        exact ih hshort heq
      · have hheader := Nat.not_lt.1 hshort
        have hparse : parseLinkHeader (got ++ chunk) = .error message := by
          rw [← parseLinkHeader_append hheader (events.flatMap Event.bytes), heq, herror]
        have hrefused := @receive_refused ((opening channel wantOpus).waiting 0 got) chunk rfl
          hheader message ((replyLength_zero (if_pos hgot)).trans hparse)
        exact run_fault hrefused rfl (by simp [waiting, opening]) rfl

theorem run_refused_body {stream : List UInt8} {message : String}
    (hsize : parseLinkHeader stream = .ok size) (hlong : linkHeader + size ≤ stream.length)
    (herror : acceptReply (slice stream linkHeader size) = .error message)
    (hgot : got.length < linkHeader + size) (heq : got ++ events.flatMap Event.bytes = stream) :
    Closes (((opening channel wantOpus).waiting size got).run events) [] := by
  induction events generalizing got with
  | nil =>
    rw [flatMap_nil, append_nil] at heq
    exact absurd hlong (by rw [← heq]; omega)
  | cons event events ih =>
    rw [flatMap_cons] at heq
    cases event with
    | encrypted cipher => exact ih hgot heq
    | frame chunk =>
      rw [Event.bytes, ← append_assoc] at heq
      by_cases hshort : (got ++ chunk).length < linkHeader + size
      · rw [SpiceChannel.run, foldl_cons, step_waiting (receive_waiting hsize heq hshort)]
        exact ih hshort heq
      · have hreply := Nat.not_lt.1 hshort
        have hwaited := @receive_waited channel wantOpus stream got chunk _ size hsize heq hreply
        rw [takeReply, slice_front heq hreply, herror] at hwaited
        exact run_fault hwaited rfl (by simp [waiting, opening]) rfl

theorem run_refused (h : Refused (events.flatMap Event.bytes)) :
    Closes ((opening channel wantOpus).run events) [] := by
  have hopening (size : Nat) : opening channel wantOpus =
      (opening channel wantOpus).waiting size [] := rfl
  generalize hstream : events.flatMap Event.bytes = stream at h
  cases h with
  | header hlong herror =>
    rw [hopening 0]
    exact run_refused_header hlong herror (by decide) hstream
  | @body size _ hsize hlong herror =>
    rw [hopening size]
    exact run_refused_body hsize hlong herror (by simp [linkHeader]) hstream

end Refused

end Before

/-! ### The whole stream -/

/-- A link that resolves, with every message delivered or answered. -/
structure Delivers (s : SpiceChannel) (cipher : List UInt8) (messages : List SpiceMessage) :
    Prop where
  link : s.link = .resolved
  delivered : s.delivered = messages.filter heard
  sent : s.sent = [selection, cipher] ++ answers messages

section Whole

variable {channel : Channel} {wantOpus : Bool} {before : List (List UInt8)}
  {link cipher tail : List UInt8} {after : List Event} {messages : List SpiceMessage}

/-- The turns of a link: frames, the end of the encryption, and anything. -/
def turns (before : List (List UInt8)) (cipher : List UInt8) (after : List Event) : List Event :=
  before.map .frame ++ .encrypted (some cipher) :: after

theorem opening_handshake (hlink : GoodReply link) :
    opening channel wantOpus = (opening channel wantOpus).handshake link [] := by
  have hpositive : ([] : List UInt8).length < link.length := by
    have hlength := hlink.length
    unfold linkHeader at hlength
    rw [length_nil]
    omega
  unfold handshake
  rw [if_pos hpositive]
  rfl

theorem run_turns (hlink : GoodReply link) (hcipher : cipher.length = 128)
    (hlong : link.length ≤ before.flatten.length)
    (hstream : before.flatten ++ after.flatMap Event.bytes = link ++ tail)
    (hcalm : Calm link.length 0 before) :
    (opening channel wantOpus).run (turns before cipher after) =
      ((opening channel wantOpus).resulting link cipher
        (before.flatten.drop link.length)).finish.run after := by
  have hbefore : (opening channel wantOpus).run (before.map .frame) =
      (opening channel wantOpus).authorising link before.flatten := by
    have hrun := @run_calm channel wantOpus link tail [] (after.flatMap Event.bytes) before hlink
      hcalm hstream
    rw [← opening_handshake hlink] at hrun
    rw [hrun, nil_append]
    exact if_neg (Nat.not_lt.2 hlong)
  rw [turns, run_append, hbefore, SpiceChannel.run, foldl_cons, step_authorising hcipher]
  rfl

theorem run_noisy (hlink : GoodReply link)
    (hstream : before.flatten ++ after.flatMap Event.bytes = link ++ tail)
    (hnoise : ¬Calm link.length 0 before) :
    Spoiled ((opening channel wantOpus).run (turns before cipher after)) := by
  have hrun := @run_noise channel wantOpus link tail [] (after.flatMap Event.bytes) before hlink
    hnoise hstream
  rw [← opening_handshake hlink] at hrun
  rw [turns, run_append]
  exact hrun.run _

/-- A link that is spoiled does not deliver. -/
theorem Spoiled.not_delivers (h : s.Spoiled) (hcipher : cipher.length = 128) :
    ¬Delivers s cipher messages := by
  intro hdelivers
  rcases h with hrejected | hsent
  · rw [hdelivers.link] at hrejected
    cases hrejected
  · rw [hdelivers.sent] at hsent
    have hsecond : selection = cipher := by simpa using hsent
    rw [← hsecond] at hcipher
    exact absurd hcipher (by decide)

/-- The messages that come before the listener does. -/
def unheard (link : List UInt8) (before : List (List UInt8)) (after : List Event)
    (messages : List SpiceMessage) : List SpiceMessage :=
  early (withResult (before.flatten.length - link.length) after - 4) messages

theorem filter_unheard {front back : List SpiceMessage} :
    back.filter heard = (front ++ back).filter heard ↔ ∀ m ∈ front, heard m = false := by
  rw [filter_append, self_eq_append_left, filter_eq_nil_iff]
  simp only [Bool.not_eq_true]

end Whole

/-- When a channel delivers every message of its stream, and that a stream with a fault closes it. -/
theorem channel_delivers (channel : Channel) (wantOpus : Bool) (cipher : List UInt8)
    (hcipher : cipher.length = 128) :
    (∀ (link : List UInt8) (messages : List SpiceMessage) (before : List (List UInt8))
        (after : List Event), GoodReply link → (∀ m ∈ messages, m.Fits) →
      link.length ≤ before.flatten.length →
      before.flatten ++ after.flatMap Event.bytes =
        link ++ (leBytes 4 0 ++ encodeMessages messages) →
      (Delivers ((opening channel wantOpus).run (turns before cipher after)) cipher messages ↔
        Calm link.length 0 before ∧ ∀ m ∈ unheard link before after messages, heard m = false)) ∧
    (∀ (link tail : List UInt8) (messages : List SpiceMessage) (before : List (List UInt8))
        (after : List Event), GoodReply link → Faulty tail messages →
      link.length ≤ before.flatten.length →
      before.flatten ++ after.flatMap Event.bytes = link ++ tail → Calm link.length 0 before →
      Closes ((opening channel wantOpus).run (turns before cipher after)) messages) ∧
    ∀ events : List Event, Refused (events.flatMap Event.bytes) →
      Closes ((opening channel wantOpus).run events) [] := by
  refine ⟨?_, ?_, fun events h => run_refused h⟩
  · intro link messages before after hlink hfits hlong hstream
    by_cases hcalm : Calm link.length 0 before
    · have hrest : before.flatten.drop link.length ++ after.flatMap Event.bytes =
          leBytes 4 0 ++ encodeMessages messages := by
        rw [← drop_append_of_le_length hlong, hstream, drop_left]
      have hsplit := early_append
        (withResult (before.flatten.length - link.length) after - 4) messages
      rw [run_turns hlink hcipher hlong hstream hcalm, run_result hfits hrest, length_drop]
      have hdelivered := @filter_unheard (unheard link before after messages)
        (messages.drop (unheard link before after messages).length)
      rw [unheard, hsplit] at hdelivered
      constructor
      · intro hdelivers
        exact ⟨hcalm, hdelivered.1 hdelivers.delivered⟩
      · rintro ⟨-, hquiet⟩
        exact ⟨rfl, hdelivered.2 hquiet, rfl⟩
    · have hspoiled := @run_noisy channel wantOpus before link cipher _ after hlink hstream hcalm
      exact ⟨fun h => absurd h (hspoiled.not_delivers hcipher), fun h => absurd h.1 hcalm⟩
  · intro link tail messages before after hlink hfaulty hlong hstream hcalm
    have hrest : before.flatten.drop link.length ++ after.flatMap Event.bytes = tail := by
      rw [← drop_append_of_le_length hlong, hstream, drop_left]
    rw [run_turns hlink hcipher hlong hstream hcalm]
    obtain ⟨hshut, hdelivered⟩ := @run_faulty channel wantOpus link cipher
      (before.flatten.drop link.length) messages after (by rwa [hrest])
    exact ⟨hshut, hdelivered⟩

/-- A link reply with mini headers. -/
def plainReply : List UInt8 :=
  magic ++ leBytes 4 2 ++ leBytes 4 2 ++ leBytes 4 182 ++ leBytes 4 0 ++ List.replicate 162 0 ++
    leBytes 4 1 ++ leBytes 4 0 ++ leBytes 4 178 ++ leBytes 4 8

/-- The first message of a main channel. -/
def mainInit : SpiceMessage := { kind := 103, payload := [7, 0, 0, 0] }

theorem goodReply_plainReply : GoodReply plainReply where
  length := by decide +kernel
  header := by decide +kernel
  body := ⟨{ error := 0, publicKey := List.replicate 162 0, commonCaps := [8], channelCaps := [] },
    by decide +kernel⟩

/-- A message in the frame behind the ticket result. -/
theorem channel_delivers_init :
    Delivers ((opening .main false).run (turns [plainReply] (List.replicate 128 1)
      [.frame (leBytes 4 0), .frame (encodeMessage mainInit)]))
      (List.replicate 128 1) [mainInit] := by
  refine ((channel_delivers .main false (List.replicate 128 1) length_replicate).1 plainReply
    [mainInit] [plainReply] _ goodReply_plainReply ?_ ?_ ?_).2 ⟨?_, ?_⟩
  · intro m hm
    rw [mem_singleton.1 hm]
    exact ⟨by decide, by decide⟩
  · simp
  · decide +kernel
  · exact ⟨fun h => absurd h (by decide +kernel), trivial⟩
  · have hearly : unheard plainReply [plainReply] [.frame (leBytes 4 0),
        .frame (encodeMessage mainInit)] [mainInit] = [] := by decide +kernel
    rw [hearly]
    exact fun m hm => absurd hm not_mem_nil

/-- A message in the frame with the ticket result is not delivered. -/
theorem not_channel_delivers :
    ¬∀ (channel : Channel) (wantOpus : Bool) (cipher link : List UInt8)
      (messages : List SpiceMessage) (before : List (List UInt8)) (after : List Event),
      cipher.length = 128 → GoodReply link → (∀ m ∈ messages, m.Fits) →
      link.length ≤ before.flatten.length →
      before.flatten ++ after.flatMap Event.bytes =
        link ++ (leBytes 4 0 ++ encodeMessages messages) →
      Delivers ((opening channel wantOpus).run (turns before cipher after)) cipher messages := by
  intro h
  have hdelivers := h .main false (List.replicate 128 1) plainReply [mainInit] [plainReply]
    [.frame (leBytes 4 0 ++ encodeMessage mainInit)] length_replicate goodReply_plainReply
    (fun m hm => by rw [mem_singleton.1 hm]; exact ⟨by decide, by decide⟩) (by simp)
    (by decide +kernel)
  have hlost : ((opening .main false).run (turns [plainReply] (List.replicate 128 1)
      [.frame (leBytes 4 0 ++ encodeMessage mainInit)])).delivered = [] := by decide +kernel
  have hnone := hlost.symm.trans hdelivers.delivered
  exact absurd hnone (by decide)

end SpiceChannel

end MachineEmu.Web
