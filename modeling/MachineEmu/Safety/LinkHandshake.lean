import MachineEmu.Web.Channel
import Mathlib.Data.List.Infix

/-!
# The handshake of a SPICE channel in the web client

* `early`, `drain_front` — the messages that the front of a stream has.
* `GoodReply` — a link reply that the link goes on with.
* `SpiceChannel.receive_handshake`, `SpiceChannel.receive_authorising`,
  `SpiceChannel.receive_again` — the frames of a reply, and those that come while the ticket is
  encrypted.
* `SpiceChannel.Follows`, `SpiceChannel.follows_run` — what no turn takes back.
-/

namespace MachineEmu.Web

open Lib Spice List Framing

/-! ## Bytes -/

theorem leNat_append (bs cs : List UInt8) :
    leNat (bs ++ cs) = leNat bs + 256 ^ bs.length * leNat cs := by
  induction bs with
  | nil => simp [leNat]
  | cons b bs ih =>
    rw [cons_append, leNat, leNat, ih, length_cons, pow_succ]
    ring

theorem leNat_reverse (bs : List UInt8) : leNat bs.reverse = beNat bs := by
  induction bs with
  | nil => rfl
  | cons b bs ih =>
    rw [reverse_cons, leNat_append, ih, beNat, length_reverse]
    simp only [leNat]
    ring

@[simp] theorem length_leBytes (count n : Nat) : (leBytes count n).length = count := by
  simp [leBytes]

theorem leNat_leBytes (count n : Nat) : leNat (leBytes count n) = n % 256 ^ count := by
  rw [leBytes, leNat_reverse, beNat_beBytes]

/-! ## Messages -/

/-- A message that the wire can carry. -/
structure SpiceMessage.Fits (message : SpiceMessage) : Prop where
  kind : message.kind < 65536
  payload : message.payload.length ≤ maxServer

/-- The bytes of some messages. -/
def encodeMessages (messages : List SpiceMessage) : List UInt8 := messages.flatMap encodeMessage

@[simp] theorem encodeMessages_nil : encodeMessages [] = [] := rfl

@[simp] theorem encodeMessages_cons (message : SpiceMessage) (messages : List SpiceMessage) :
    encodeMessages (message :: messages) = encodeMessage message ++ encodeMessages messages := rfl

theorem length_encodeMessage (message : SpiceMessage) :
    (encodeMessage message).length = miniHeader + message.payload.length := by
  simp only [encodeMessage, length_append, length_leBytes, miniHeader]

theorem parse_encodeMessage {message : SpiceMessage} (h : message.Fits) (later : List UInt8) :
    parseMessage (encodeMessage message ++ later) =
      .unit (miniHeader + message.payload.length) () message := by
  have hlength := length_encodeMessage message
  have hkind : u16le (encodeMessage message ++ later) 0 = message.kind := by
    unfold u16le
    rw [slice_append (by rw [hlength, miniHeader]; omega), encodeMessage, append_assoc,
      slice_append (by simp), slice_all (by simp), leNat_leBytes]
    exact Nat.mod_eq_of_lt h.kind
  have hsize : u32le (encodeMessage message ++ later) 2 = message.payload.length := by
    unfold u32le
    rw [slice_append (by rw [hlength, miniHeader]; omega), encodeMessage,
      slice_middle (length_leBytes 2 _) (length_leBytes 4 _), leNat_leBytes]
    exact Nat.mod_eq_of_lt (Nat.lt_of_le_of_lt h.payload (by decide))
  have hpayload : slice (encodeMessage message ++ later) miniHeader message.payload.length =
      message.payload := by
    rw [encodeMessage]
    exact slice_middle (by simp [miniHeader]) rfl later
  unfold parseMessage
  have hlimit := h.payload
  rw [if_neg (by rw [length_append, hlength]; omega), hsize, hkind]
  dsimp only
  rw [if_neg (by omega), if_neg (by rw [length_append, hlength]; omega), hpayload]

theorem drain_encodeMessages {messages : List SpiceMessage} (h : ∀ m ∈ messages, m.Fits) :
    framer.drain () (encodeMessages messages) = some ⟨(), [], messages⟩ := by
  induction messages with
  | nil => exact drain_of_more rfl
  | cons message messages ih =>
    have hparse : framer.parse () (encodeMessage message ++ encodeMessages messages) = _ :=
      parse_encodeMessage (h message mem_cons_self) (encodeMessages messages)
    have hdrop : (encodeMessage message ++ encodeMessages messages).drop
        (miniHeader + message.payload.length) = encodeMessages messages := by
      rw [← length_encodeMessage, drop_left]
    rw [encodeMessages_cons, drain_of_unit hparse, hdrop, ih fun m hm => h m (mem_cons_of_mem _ hm)]
    rfl

/-- The messages that are complete in the first bytes of a stream. -/
def early : Nat → List SpiceMessage → List SpiceMessage
  | _, [] => []
  | room, message :: messages =>
    if miniHeader + message.payload.length ≤ room then
      message :: early (room - (miniHeader + message.payload.length)) messages
    else []

theorem early_append (room : Nat) (messages : List SpiceMessage) :
    early room messages ++ messages.drop (early room messages).length = messages := by
  fun_induction early room messages with
  | case1 => rfl
  | case2 room message messages hroom ih =>
    rw [length_cons, drop_succ_cons, cons_append, ih]
  | case3 => rfl

theorem parseMessage_nil : parseMessage [] = .more := rfl

/-- A message that is not complete yet. -/
theorem parse_incomplete {message : SpiceMessage} (h : message.Fits)
    {front back later : List UInt8} (heq : front ++ back = encodeMessage message ++ later)
    (hshort : front.length < miniHeader + message.payload.length) :
    framer.parse () front = .more := by
  have hwhole : framer.parse () (front ++ back) = _ := heq ▸ parse_encodeMessage h later
  cases hparse : framer.parse () front with
  | more => rfl
  | bad =>
    rw [framer.bad_append hparse] at hwhole
    cases hwhole
  | rest =>
    rw [framer.rest_always hparse] at hwhole
    cases hwhole
  | unit n s v =>
    have hbound := (framer.unit_bound hparse).2
    rw [framer.unit_append hparse] at hwhole
    cases hwhole
    omega

/-- What the framer makes of the front of some messages. -/
theorem drain_front {messages : List SpiceMessage} (h : ∀ m ∈ messages, m.Fits)
    {front back tail : List UInt8} (heq : front ++ back = encodeMessages messages ++ tail)
    (htail : ∀ n v, parseMessage tail ≠ .unit n () v) {d} (hd : framer.drain () front = some d) :
    d.units = early front.length messages ∧
      d.rest ++ back =
        encodeMessages (messages.drop (early front.length messages).length) ++ tail := by
  induction messages generalizing front d with
  | nil =>
    rw [encodeMessages_nil, nil_append] at heq
    cases hparse : framer.parse () front with
    | more =>
      rw [drain_of_more hparse] at hd
      cases hd
      exact ⟨rfl, heq⟩
    | bad =>
      rw [drain_of_bad hparse] at hd
      cases hd
    | rest => exact absurd (framer.rest_always hparse []) (by simp [framer, parseMessage_nil])
    | unit n s v =>
      have hwhole := framer.unit_append hparse back
      rw [heq] at hwhole
      exact absurd hwhole (htail n v)
  | cons message messages ih =>
    have hmessage := h message mem_cons_self
    have hlength := length_encodeMessage message
    rw [encodeMessages_cons, append_assoc] at heq
    by_cases hroom : miniHeader + message.payload.length ≤ front.length
    · obtain ⟨more, hfront⟩ : encodeMessage message <+: front :=
        prefix_of_prefix_length_le ⟨_, heq.symm⟩ ⟨back, rfl⟩ (hlength ▸ hroom)
      subst hfront
      rw [append_assoc, append_cancel_left_eq] at heq
      have hdrop : (encodeMessage message ++ more).drop (miniHeader + message.payload.length) =
          more := by rw [← hlength, drop_left]
      rw [drain_of_unit (parse_encodeMessage hmessage more), hdrop] at hd
      obtain ⟨d', hd', rfl⟩ := Option.map_eq_some_iff.1 hd
      obtain ⟨hunits, hrest⟩ := ih (fun m hm => h m (mem_cons_of_mem _ hm)) heq hd'
      have hmore : (encodeMessage message ++ more).length -
          (miniHeader + message.payload.length) = more.length := by
        rw [length_append, hlength]
        omega
      rw [early, if_pos hroom, hmore]
      exact ⟨by rw [← hunits]; rfl, hrest⟩
    · rw [drain_of_more (parse_incomplete hmessage heq (Nat.not_le.1 hroom))] at hd
      cases hd
      rw [early, if_neg hroom]
      exact ⟨rfl, by rw [heq]; simp [append_assoc]⟩

/-! ## The link reply -/

/-- A link reply that the link goes on with. -/
structure GoodReply (link : List UInt8) : Prop where
  length : linkHeader ≤ link.length
  header : parseLinkHeader link = .ok (link.length - linkHeader)
  body : ∃ reply, acceptReply (link.drop linkHeader) = .ok reply

theorem parseLinkHeader_append {frame : List UInt8} (h : linkHeader ≤ frame.length)
    (later : List UInt8) : parseLinkHeader (frame ++ later) = parseLinkHeader frame := by
  have hlong : ¬(frame ++ later).length < linkHeader := by
    rw [length_append]
    omega
  unfold parseLinkHeader u32le
  rw [if_neg hlong, if_neg (Nat.not_lt.2 h)]
  unfold linkHeader at h
  rw [slice_append (by omega), slice_append (by omega), slice_append (by omega)]

theorem parseLinkHeader_bounds {frame : List UInt8} {size : Nat}
    (h : parseLinkHeader frame = .ok size) : linkReply ≤ size ∧ linkHeader ≤ frame.length := by
  unfold parseLinkHeader at h
  split at h
  · cases h
  · split at h
    · cases h
    · split at h
      · cases h
      · dsimp only at h
        split at h
        · cases h
        · cases h
          omega

variable {link : List UInt8}

theorem GoodReply.lt_length (h : GoodReply link) : linkHeader + linkReply ≤ link.length := by
  have hlength := h.length
  have := (parseLinkHeader_bounds h.header).1
  omega

theorem GoodReply.total (h : GoodReply link) :
    linkHeader + (link.length - linkHeader) = link.length := by
  have := h.length
  omega

theorem GoodReply.header_append (h : GoodReply link) (tail : List UInt8) :
    parseLinkHeader (link ++ tail) = .ok (link.length - linkHeader) := by
  rw [parseLinkHeader_append h.length, h.header]

theorem GoodReply.slice_append (h : GoodReply link) (tail : List UInt8) :
    slice (link ++ tail) linkHeader (link.length - linkHeader) = link.drop linkHeader := by
  rw [Lib.slice_append (Nat.le_of_eq h.total), slice, take_of_length_le (by simp)]

namespace SpiceChannel

/-- A channel of a kind when its socket opens. -/
def opening (channel : Channel) (wantOpus : Bool) : SpiceChannel := { channel, wantOpus }

/-- While the reply is not complete. -/
def waiting (start : SpiceChannel) (size : Nat) (got : List UInt8) : SpiceChannel :=
  { start with buffer := got, replySize := if got.length < linkHeader then 0 else size }

/-- Whether Opus is agreed on. -/
def agrees (start : SpiceChannel) (link : List UInt8) : Bool :=
  match acceptReply (link.drop linkHeader) with
  | .ok reply => start.wantOpus && start.channel ≠ Channel.main &&
      hasCap reply.channelCaps (opusCap start.channel)
  | .error _ => false

/-- While the ticket is encrypted. -/
def authorising (start : SpiceChannel) (link got : List UInt8) : SpiceChannel :=
  { start with
    buffer := got.drop link.length, replySize := link.length - linkHeader
    opus := start.agrees link, encrypting := 1, sent := [selection] }

/-- Up to the end of the encryption. -/
def handshake (start : SpiceChannel) (link got : List UInt8) : SpiceChannel :=
  if got.length < link.length then start.waiting (link.length - linkHeader) got
  else start.authorising link got

/-! ### What a frame does before the ticket result -/

section Reply

variable {s : SpiceChannel} {chunk : List UInt8} {n : Nat}

theorem replyLength_zero (h : s.replySize = 0) : s.replyLength = parseLinkHeader s.buffer :=
  if_pos h

theorem replyLength_known (h : s.replySize = n) (hn : n ≠ 0) : s.replyLength = .ok n := by
  unfold replyLength
  rw [if_neg (h ▸ hn), h]

theorem receive_short (hphase : s.phase = .reply)
    (hshort : (s.buffer ++ chunk).length < linkHeader) :
    s.receive chunk = { s with buffer := s.buffer ++ chunk } := by
  simp only [SpiceChannel.receive]
  rw [if_pos hphase, if_pos hshort]

theorem receive_begun (hphase : s.phase = .reply)
    (hlong : linkHeader ≤ (s.buffer ++ chunk).length)
    (hsize : { s with buffer := s.buffer ++ chunk }.replyLength = .ok n)
    (hshort : (s.buffer ++ chunk).length < linkHeader + n) :
    s.receive chunk = { s with buffer := s.buffer ++ chunk, replySize := n } := by
  simp only [SpiceChannel.receive]
  rw [if_pos hphase, if_neg (Nat.not_lt.2 hlong), hsize]
  dsimp only
  rw [if_pos hshort]

theorem receive_complete (hphase : s.phase = .reply)
    (hsize : { s with buffer := s.buffer ++ chunk }.replyLength = .ok n)
    (hlong : linkHeader + n ≤ (s.buffer ++ chunk).length) :
    s.receive chunk = { s with buffer := s.buffer ++ chunk }.takeReply n := by
  have hheader : ¬(s.buffer ++ chunk).length < linkHeader := by omega
  simp only [SpiceChannel.receive]
  rw [if_pos hphase, if_neg hheader, hsize]
  dsimp only
  rw [if_neg (Nat.not_lt.2 hlong)]

theorem receive_refused (hphase : s.phase = .reply)
    (hlong : linkHeader ≤ (s.buffer ++ chunk).length) {message : String}
    (hsize : { s with buffer := s.buffer ++ chunk }.replyLength = .error message) :
    s.receive chunk = { s with buffer := s.buffer ++ chunk }.fault := by
  simp only [SpiceChannel.receive]
  rw [if_pos hphase, if_neg (Nat.not_lt.2 hlong), hsize]

end Reply

section Handshake

variable {channel : Channel} {wantOpus : Bool} {stream link got chunk tail back : List UInt8}
  {size : Nat}

theorem replyLength_waiting (hsize : parseLinkHeader stream = .ok size)
    (hlong : linkHeader ≤ (got ++ chunk).length) (hstream : got ++ chunk ++ back = stream) :
    { (opening channel wantOpus).waiting size got with buffer := got ++ chunk }.replyLength =
      .ok size := by
  have hbounds := parseLinkHeader_bounds hsize
  by_cases hgot : got.length < linkHeader
  · have hparse : parseLinkHeader (got ++ chunk) = .ok size := by
      rw [← parseLinkHeader_append hlong back, hstream, hsize]
    exact (replyLength_zero (if_pos hgot)).trans hparse
  · unfold linkReply at hbounds
    exact replyLength_known (if_neg hgot) (by omega)

theorem receive_waiting (hsize : parseLinkHeader stream = .ok size)
    (hstream : got ++ chunk ++ back = stream) (hshort : (got ++ chunk).length < linkHeader + size) :
    ((opening channel wantOpus).waiting size got).receive chunk =
      (opening channel wantOpus).waiting size (got ++ chunk) := by
  by_cases hheader : (got ++ chunk).length < linkHeader
  · have hgot : got.length < linkHeader := by
      rw [length_append] at hheader
      omega
    rw [receive_short rfl hheader]
    simp only [waiting, if_pos hgot, if_pos hheader]
  · have hlong := Nat.not_lt.1 hheader
    rw [receive_begun rfl hlong (replyLength_waiting hsize hlong hstream) hshort]
    simp only [waiting, if_neg hheader]

theorem receive_waited (hsize : parseLinkHeader stream = .ok size)
    (hstream : got ++ chunk ++ back = stream) (hlong : linkHeader + size ≤ (got ++ chunk).length) :
    ((opening channel wantOpus).waiting size got).receive chunk =
      { (opening channel wantOpus).waiting size got with buffer := got ++ chunk }.takeReply size :=
  receive_complete rfl (replyLength_waiting hsize (by omega) hstream) hlong

theorem slice_front {k : Nat} (hstream : got ++ back = stream) (hlong : k + size ≤ got.length) :
    slice got k size = slice stream k size := by
  rw [← hstream, slice_append hlong]

theorem receive_handshake (hlink : GoodReply link) (hgot : got.length < link.length)
    (hstream : got ++ chunk ++ back = link ++ tail) :
    ((opening channel wantOpus).handshake link got).receive chunk =
      (opening channel wantOpus).handshake link (got ++ chunk) := by
  have hsize := hlink.header_append tail
  have htotal := hlink.total
  unfold handshake
  rw [if_pos hgot]
  by_cases hreply : (got ++ chunk).length < link.length
  · rw [if_pos hreply, receive_waiting hsize hstream (by rw [htotal]; exact hreply)]
  · have hlong : linkHeader + (link.length - linkHeader) ≤ (got ++ chunk).length := by omega
    have hslice : slice (got ++ chunk) linkHeader (link.length - linkHeader) =
        link.drop linkHeader := by
      rw [slice_front hstream hlong, hlink.slice_append]
    obtain ⟨reply, haccept⟩ := hlink.body
    rw [if_neg hreply, receive_waited hsize hstream hlong]
    simp only [takeReply, waiting, authorising, agrees, SpiceChannel.send, haccept, opening,
      hslice, htotal]
    rfl

theorem receive_authorising (hlink : GoodReply link) (hgot : link.length ≤ got.length)
    (hcalm : (got ++ chunk).length < link.length + link.length) :
    ((opening channel wantOpus).authorising link got).receive chunk =
      (opening channel wantOpus).authorising link (got ++ chunk) := by
  have hbound := hlink.lt_length
  have htotal : linkHeader + (link.length - linkHeader) = link.length := by omega
  have hbuffer : got.drop link.length ++ chunk = (got ++ chunk).drop link.length := by
    rw [drop_append_of_le_length hgot]
  have hlength : (got.drop link.length ++ chunk).length < link.length := by
    rw [hbuffer, length_drop]
    omega
  by_cases hheader : (got.drop link.length ++ chunk).length < linkHeader
  · rw [receive_short rfl hheader]
    simp only [authorising, hbuffer]
  · have hsize : { (opening channel wantOpus).authorising link got with
        buffer := got.drop link.length ++ chunk }.replyLength = .ok (link.length - linkHeader) := by
      unfold linkReply at hbound
      exact replyLength_known rfl (by omega)
    rw [receive_begun rfl (Nat.not_lt.1 hheader) hsize (by rw [htotal]; exact hlength)]
    simp only [authorising, hbuffer]

/-- A frame that brings as many bytes as the reply before the ticket is encrypted is read as another
reply. -/
theorem receive_again (hlink : GoodReply link) (hgot : link.length ≤ got.length)
    (hnoise : link.length + link.length ≤ (got ++ chunk).length) :
    (((opening channel wantOpus).authorising link got).receive chunk).link = .rejected ∨
      ((((opening channel wantOpus).authorising link got).receive chunk).link = .pending ∧
        (((opening channel wantOpus).authorising link got).receive chunk).sent =
          [selection, selection]) := by
  have hbound := hlink.lt_length
  have htotal : linkHeader + (link.length - linkHeader) = link.length := by omega
  have hlength : link.length ≤ (got.drop link.length ++ chunk).length := by
    rw [← drop_append_of_le_length hgot, length_drop]
    omega
  have hsize : { (opening channel wantOpus).authorising link got with
      buffer := got.drop link.length ++ chunk }.replyLength = .ok (link.length - linkHeader) := by
    unfold linkReply at hbound
    exact replyLength_known rfl (by omega)
  rw [receive_complete rfl hsize (by rw [htotal]; exact hlength)]
  unfold takeReply
  split
  · exact .inl rfl
  · exact .inr ⟨rfl, rfl⟩

end Handshake

/-! ### What stays -/

/-- What no turn takes back. -/
structure Follows (s t : SpiceChannel) : Prop where
  link : s.link ≠ .pending → t.link = s.link
  sent : s.sent <+: t.sent

section Follows

variable {s t u : SpiceChannel}

theorem Follows.of_eq (hlink : t.link = s.link) (hsent : t.sent = s.sent) : Follows s t :=
  ⟨fun _ => hlink, hsent ▸ prefix_rfl⟩

theorem Follows.before (h : Follows t u) (hlink : t.link = s.link) (hsent : t.sent = s.sent) :
    Follows s u where
  link hs := by rw [h.link (hlink ▸ hs), hlink]
  sent := hsent ▸ h.sent

theorem Follows.refl (s : SpiceChannel) : Follows s s := .of_eq rfl rfl

theorem Follows.trans (h : Follows s t) (h' : Follows t u) : Follows s u where
  link hs := by rw [h'.link (h.link hs ▸ hs), h.link hs]
  sent := h.sent.trans h'.sent

theorem follows_fault (s : SpiceChannel) : Follows s s.fault where
  link hs := if_neg hs
  sent := prefix_rfl

theorem follows_send (s : SpiceChannel) (frame : List UInt8) : Follows s (s.send frame) := by
  unfold SpiceChannel.send
  split
  · exact ⟨fun _ => rfl, prefix_append _ _⟩
  · exact .refl s

theorem follows_deliver (s : SpiceChannel) (message : SpiceMessage) :
    Follows s (s.deliver message) := by
  unfold deliver
  split
  · exact follows_send s _
  · split
    · exact .of_eq rfl rfl
    · exact .refl s

theorem follows_foldl (units : List SpiceMessage) (s : SpiceChannel) :
    Follows s (units.foldl deliver s) := by
  induction units generalizing s with
  | nil => exact .refl s
  | cons unit units ih => exact (follows_deliver s unit).trans (ih _)

theorem follows_feed (s : SpiceChannel) : Follows s s.feed := by
  unfold feed
  split
  · exact .refl s
  · split
    · exact (follows_fault _).before rfl rfl
    · exact (follows_foldl _ _).before rfl rfl

theorem follows_proceed (s : SpiceChannel) : Follows s s.proceed := by
  unfold proceed
  split
  · split
    · exact .refl s
    · split
      · exact (follows_fault _).before rfl rfl
      · refine Follows.trans ?_ (follows_feed _)
        exact ⟨fun hs => if_neg hs, prefix_rfl⟩
  · exact follows_feed s

theorem follows_takeReply (s : SpiceChannel) (replySize : Nat) :
    Follows s (s.takeReply replySize) := by
  unfold takeReply
  split
  · exact (follows_fault _).before rfl rfl
  · exact (follows_send _ _).before rfl rfl

theorem follows_receive (s : SpiceChannel) (chunk : List UInt8) : Follows s (s.receive chunk) := by
  refine Follows.trans (t := { s with buffer := s.buffer ++ chunk }) (.of_eq rfl rfl) ?_
  simp only [SpiceChannel.receive]
  split
  · split
    · exact .refl _
    · split
      · exact follows_fault _
      · split
        · exact .of_eq rfl rfl
        · exact follows_takeReply _ _
  · exact follows_proceed _

theorem follows_encrypted (s : SpiceChannel) (cipher : Option (List UInt8)) :
    Follows s (s.encrypted cipher) := by
  unfold SpiceChannel.encrypted
  split
  · exact .refl s
  · next encrypting _ =>
    refine Follows.trans (t := { s with encrypting }) (.of_eq rfl rfl) ?_
    dsimp only
    cases cipher with
    | none => exact follows_fault _
    | some bytes =>
      dsimp only
      split
      · exact follows_fault _
      · refine (follows_send _ bytes).trans ?_
        exact (follows_proceed _).before rfl rfl

theorem follows_handle (s : SpiceChannel) (event : Event) : Follows s (s.handle event) := by
  cases event with
  | frame bytes =>
    unfold handle
    dsimp only
    split
    · exact follows_receive s bytes
    · exact .refl s
  | encrypted cipher => exact follows_encrypted s cipher

theorem follows_step (s : SpiceChannel) (event : Event) : Follows s (s.step event) := by
  unfold step
  split
  · exact (follows_handle s event).trans (.of_eq rfl rfl)
  · exact follows_handle s event

theorem follows_run (s : SpiceChannel) (events : List Event) : Follows s (s.run events) := by
  induction events generalizing s with
  | nil => exact .refl s
  | cons event events ih => exact (follows_step s event).trans (ih _)

end Follows

end SpiceChannel

end MachineEmu.Web
