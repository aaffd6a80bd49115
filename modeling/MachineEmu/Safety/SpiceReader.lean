import MachineEmu.Safety.SpiceGates
import Mathlib.Data.List.Infix

/-!
# What QEMU reads of an audio channel

QEMU reads a link, the choice of an authentication when both sides have the capability for it, a
ticket, and then messages. The gate takes the choice for granted but does not ask for the
capability. Without it QEMU takes the choice for the first bytes of the ticket, and from there on
reads messages four bytes early.

* `serverReads` — the messages that QEMU reads.
* `SelectsAuth` — both sides have the capability.
* `client_gate` — the messages that QEMU reads are allowed ones exactly behind such a link.
-/

namespace MachineEmu

open Lib List Framing

namespace Spice

/-! ## The reader -/

/-- The common capabilities in a link message. -/
def commonCaps (body : List UInt8) : List UInt8 := slice body (u32le body 14) (u32le body 6 * 4)

/-- The client of a stream may choose the authentication, and the server lets it. -/
def SelectsAuth (offers : Bool) (stream : List UInt8) : Prop :=
  offers = true ∧ cap (commonCaps (slice stream linkHeader (u32le stream 12))) 0 = true

instance (offers : Bool) (stream : List UInt8) : Decidable (SelectsAuth offers stream) :=
  inferInstanceAs (Decidable (_ ∧ _))

/-- The kinds and sizes of the messages, of which the last one may be incomplete. -/
def serverMessages : Nat → List UInt8 → List (Nat × Nat)
  | 0, _ => []
  | fuel + 1, bytes =>
    if bytes.length < miniHeader then []
    else (u16le bytes 0, u32le bytes 2) ::
      serverMessages fuel (bytes.drop (miniHeader + u32le bytes 2))

/-- The messages behind the link, the choice if there is one, and the ticket. -/
def serverReads (offers : Bool) (bytes : List UInt8) : List (Nat × Nat) :=
  if bytes.length < linkHeader ∨ bytes.length < linkHeader + u32le bytes 12 then []
  else serverMessages bytes.length (bytes.drop
    (linkHeader + u32le bytes 12 + (if SelectsAuth offers bytes then 4 else 0) + 128))

/-- Every message is of an allowed kind and not too large. -/
def Legal (channel : Channel) (messages : List (Nat × Nat)) : Prop :=
  ∀ m ∈ messages, ClientState.allowed channel m.1 = true ∧ m.2 ≤ maxClient

/-- A link that the gate of a channel lets through. -/
structure Links (channel : Channel) (connectionId : UInt32) (link : List UInt8) : Prop where
  magic : slice link 0 4 = magic
  version : u32le link 4 = 2
  size : linkMess ≤ u32le link 12 ∧ u32le link 12 ≤ maxLink
  whole : link.length = linkHeader + u32le link 12
  checked : (ClientGate.new channel connectionId).checkLink (link.drop linkHeader) = .ok ()

/-- A stream begins with one link only. -/
theorem Links.unique {channel : Channel} {connectionId : UInt32} {link link' stream : List UInt8}
    (h : Links channel connectionId link) (h' : Links channel connectionId link')
    (hfront : link <+: stream) (hfront' : link' <+: stream) : link = link' := by
  have hsizes : linkHeader = 16 := rfl
  have hlength : ∀ {l : List UInt8}, Links channel connectionId l → l <+: stream →
      l.length = linkHeader + u32le stream 12 := by
    rintro l hl ⟨later, rfl⟩
    have hwhole := hl.whole
    rw [u32le_append (by omega), hwhole]
  have hsame : link.length = link'.length := by
    rw [hlength h hfront, hlength h' hfront']
  exact (prefix_of_prefix_length_le hfront hfront' hsame.le).eq_of_length hsame

theorem selectsAuth_append {offers : Bool} {bytes : List UInt8} (hheader : linkHeader ≤ bytes.length)
    (hlink : linkHeader + u32le bytes 12 ≤ bytes.length) (later : List UInt8) :
    SelectsAuth offers (bytes ++ later) ↔ SelectsAuth offers bytes := by
  have hsizes : linkHeader = 16 := rfl
  unfold SelectsAuth
  rw [u32le_append (by omega), slice_append hlink]

/-! ## Messages in step -/

namespace ClientState

variable {bs : List UInt8} {s : ClientState}

/-- A gate waits with its buffer, or takes a unit. -/
theorem drain_cases
    {d : Framing.Drained ClientState UInt8 (List UInt8)} (h : messages.drain s bs = some d) :
    d = ⟨s, bs, []⟩ ∨ ∃ n next d', s.turn bs = .ok (some (n, next)) ∧
      messages.drain next (bs.drop n) = some d' ∧ d = d'.after [bs.take n] := by
  cases hparse : messages.parse s bs with
  | more =>
    rw [drain_of_more hparse] at h
    exact .inl (Option.some.inj h).symm
  | bad =>
    rw [drain_of_bad hparse] at h
    cases h
  | rest => exact absurd hparse parse_ne_rest
  | unit n next v =>
    rw [drain_of_unit hparse] at h
    obtain ⟨hturn, rfl⟩ := turn_of_unit hparse
    obtain ⟨d', hd', hd⟩ := Option.map_eq_some_iff.1 h
    exact .inr ⟨n, next, d', hturn, hd', hd.symm⟩

variable {next : ClientState} {n : Nat}

/-- A message that is taken. -/
theorem turn_messages (hphase : s.phase = .messages) (h : s.turn bs = .ok (some (n, next))) :
    next = s ∧ n = miniHeader + u32le bs 2 ∧ n ≤ bs.length ∧
      allowed s.channel (u16le bs 0) = true ∧ u32le bs 2 ≤ maxClient := by
  unfold turn at h
  simp only [hphase] at h
  split at h
  · cases h
  · split at h
    · cases h
    · next hgood =>
      split at h
      · cases h
      · next hwhole =>
        cases h
        rw [not_or, Bool.not_eq_false] at hgood
        exact ⟨rfl, rfl, Nat.not_lt.1 hwhole, hgood.1, Nat.not_lt.1 hgood.2⟩

/-- The messages that the gate takes are read as they are. -/
theorem legal_of_drain
    {d : Framing.Drained ClientState UInt8 (List UInt8)} (hphase : s.phase = .messages)
    (h : messages.drain s bs = some d) (fuel : Nat) :
    Legal s.channel (serverMessages fuel d.units.flatten) := by
  induction fuel generalizing bs d with
  | zero => exact fun m hm => by cases hm
  | succ fuel ih =>
    have hsizes : miniHeader = 6 := rfl
    rcases drain_cases h with rfl | ⟨n, next, d', hturn, hd', rfl⟩
    · exact fun m hm => by cases hm
    · obtain ⟨rfl, rfl, hwhole, hallowed, hsize⟩ := turn_messages hphase hturn
      have hfront : (bs.take (miniHeader + u32le bs 2)).length = miniHeader + u32le bs 2 := by
        rw [length_take, Nat.min_eq_left hwhole]
      have hbytes : (bs.take (miniHeader + u32le bs 2) ++ bs.drop (miniHeader + u32le bs 2)) = bs :=
        take_append_drop _ bs
      have hkind : u16le (bs.take (miniHeader + u32le bs 2)) 0 = u16le bs 0 := by
        rw [← u16le_append (by omega) (bs.drop (miniHeader + u32le bs 2)), hbytes]
      have hlength : u32le (bs.take (miniHeader + u32le bs 2)) 2 = u32le bs 2 := by
        rw [← u32le_append (by omega) (bs.drop (miniHeader + u32le bs 2)), hbytes]
      have hflatten : (d'.after [bs.take (miniHeader + u32le bs 2)]).units.flatten =
          bs.take (miniHeader + u32le bs 2) ++ d'.units.flatten := rfl
      rw [hflatten]
      unfold serverMessages
      rw [length_append, if_neg (by omega), u16le_append (by omega), u32le_append (by omega),
        hkind, hlength, drop_left' hfront]
      intro m hm
      rcases mem_cons.1 hm with rfl | hm
      · exact ⟨hallowed, hsize⟩
      · exact ih hd' m hm

/-- A link header that is taken. -/
theorem turn_header (hphase : s.phase = .header) (h : s.turn bs = .ok (some (n, next))) :
    next = { s with linkSize := u32le bs 12, phase := .link } ∧ n = linkHeader ∧
      linkHeader ≤ bs.length ∧ slice bs 0 4 = Spice.magic ∧ u32le bs 4 = 2 ∧
      linkMess ≤ u32le bs 12 ∧ u32le bs 12 ≤ maxLink := by
  unfold turn at h
  simp only [hphase] at h
  split at h
  · cases h
  · next hwhole =>
    split at h
    · cases h
    · next hmagic =>
      split at h
      · cases h
      · next hsize =>
        cases h
        rw [not_or, not_ne_iff, not_ne_iff] at hmagic
        rw [not_or, Nat.not_lt, Nat.not_lt] at hsize
        exact ⟨rfl, rfl, Nat.not_lt.1 hwhole, hmagic.1, hmagic.2, hsize.1, hsize.2⟩

/-- A link message that is taken. -/
theorem turn_link (hphase : s.phase = .link) (h : s.turn bs = .ok (some (n, next))) :
    next = { s with phase := .auth } ∧ n = s.linkSize ∧ s.linkSize ≤ bs.length ∧
      s.checkLink (slice bs 0 s.linkSize) = .ok () := by
  unfold turn at h
  simp only [hphase] at h
  split at h
  · cases h
  · next hwhole =>
    split at h
    · cases h
    · next hchecked =>
      cases h
      exact ⟨rfl, rfl, Nat.not_lt.1 hwhole, hchecked⟩

/-- A choice that is taken. -/
theorem turn_auth (hphase : s.phase = .auth) (h : s.turn bs = .ok (some (n, next))) :
    next = { s with phase := .ticket } ∧ n = 4 ∧ 4 ≤ bs.length := by
  unfold turn at h
  simp only [hphase] at h
  split at h
  · cases h
  · next hwhole =>
    split at h
    · cases h
    · cases h
      exact ⟨rfl, rfl, Nat.not_lt.1 hwhole⟩

/-- A ticket that is taken. -/
theorem turn_ticket (hphase : s.phase = .ticket) (h : s.turn bs = .ok (some (n, next))) :
    next = { s with phase := .messages } ∧ n = 128 ∧ 128 ≤ bs.length := by
  unfold turn at h
  simp only [hphase] at h
  split at h
  · cases h
  · next hwhole =>
    cases h
    exact ⟨rfl, rfl, Nat.not_lt.1 hwhole⟩

end ClientState

/-! ## Behind a link with the capability -/

theorem serverMessages_nil (fuel : Nat) : serverMessages fuel [] = [] := by
  cases fuel <;> rfl

theorem legal_nil (channel : Channel) : Legal channel [] := fun m hm => by cases hm

/-- What is read of a front that ends before the messages. -/
theorem legal_of_short {channel : Channel} {bytes : List UInt8} {fuel n : Nat}
    (h : bytes.length ≤ n) : Legal channel (serverMessages fuel (bytes.drop n)) := by
  rw [drop_of_length_le h, serverMessages_nil]
  exact legal_nil channel

section Reads

open ClientState

variable {channel : Channel} {connectionId : UInt32} {offers : Bool}

/-- What the gate takes is read as it is when both sides have the capability. -/
theorem legal_of_selectsAuth {bs : List UInt8}
    {d : Framing.Drained ClientState UInt8 (List UInt8)}
    (h : messages.drain (ClientGate.new channel connectionId).toClientState bs = some d)
    (hselects : ∀ link, Links channel connectionId link → link <+: d.units.flatten →
      SelectsAuth offers link) :
    Legal channel (serverReads offers d.units.flatten) := by
  have hsizes : linkHeader = 16 ∧ linkMess = 18 := ⟨rfl, rfl⟩
  unfold serverReads
  split
  · exact legal_nil channel
  next hlong =>
  rw [not_or, Nat.not_lt, Nat.not_lt] at hlong
  rcases drain_cases h with rfl | ⟨n, next, d₁, hturn, h₁, rfl⟩
  · have hnone : linkHeader ≤ 0 := hlong.1
    omega
  obtain ⟨rfl, rfl, hheader, hmagic, hversion, hmess⟩ := turn_header rfl hturn
  have hfront : (bs.take linkHeader).length = linkHeader := by
    rw [length_take, Nat.min_eq_left hheader]
  have hbytes : bs.take linkHeader ++ bs.drop linkHeader = bs := take_append_drop _ bs
  have hword : ∀ offset later, offset + 4 ≤ linkHeader →
      u32le (bs.take linkHeader ++ later) offset = u32le bs offset := by
    intro offset later hoffset
    rw [u32le_append (by omega), ← u32le_append (by omega) (bs.drop linkHeader), hbytes]
  have hsize : ∀ later, u32le (bs.take linkHeader ++ later) 12 = u32le bs 12 :=
    fun later => hword 12 later (by omega)
  rcases drain_cases h₁ with rfl | ⟨n, next, d₂, hturn₁, h₂, rfl⟩
  · simp only [Framing.Drained.after, append_nil, flatten_cons, flatten_nil] at hlong
    rw [← append_nil (bs.take linkHeader), hsize, append_nil] at hlong
    omega
  obtain ⟨rfl, rfl, hlink, hchecked⟩ := turn_link rfl hturn₁
  dsimp only at hlink hchecked h₂
  have hbody : ((bs.drop linkHeader).take (u32le bs 12)).length = u32le bs 12 := by
    rw [length_take, Nat.min_eq_left hlink]
  -- both sides can choose: the link that was taken says so
  have hlinks : Links channel connectionId
      (bs.take linkHeader ++ (bs.drop linkHeader).take (u32le bs 12)) := by
    refine ⟨?_, by rw [hword 4 _ (by omega), hversion], by rw [hsize]; exact hmess, ?_, ?_⟩
    · rw [slice_append (by omega), ← slice_append (by omega) (bs.drop linkHeader), hbytes, hmagic]
    · rw [length_append, hfront, hbody, hsize]
    · rw [drop_left' hfront]
      exact hchecked
  have hselected : SelectsAuth offers
      ((d₂.after [(bs.drop linkHeader).take (u32le bs 12)]).after
        [bs.take linkHeader]).units.flatten := by
    have hunits : ((d₂.after [(bs.drop linkHeader).take (u32le bs 12)]).after
        [bs.take linkHeader]).units.flatten =
          bs.take linkHeader ++ (bs.drop linkHeader).take (u32le bs 12) ++ d₂.units.flatten := by
      simp [Framing.Drained.after]
    have hwhole := hlinks.whole
    rw [hunits, selectsAuth_append (by omega) (by omega)]
    exact hselects _ hlinks (by rw [hunits]; exact prefix_append ..)
  rw [if_pos hselected]
  rcases drain_cases h₂ with rfl | ⟨n, next, d₃, hturn₂, h₃, rfl⟩
  · refine legal_of_short ?_
    simp only [Framing.Drained.after, append_nil, flatten_cons, flatten_nil,
      cons_append, nil_append, length_append, hsize, hbody]
    omega
  obtain ⟨rfl, rfl, hauth⟩ := turn_auth rfl hturn₂
  rcases drain_cases h₃ with rfl | ⟨n, next, d₄, hturn₃, h₄, rfl⟩
  · refine legal_of_short ?_
    simp only [Framing.Drained.after, append_nil, flatten_cons, flatten_nil,
      cons_append, nil_append, length_append, hsize, hbody, length_take]
    omega
  obtain ⟨rfl, rfl, hticket⟩ := turn_ticket rfl hturn₃
  have hmessages : ∀ fuel, Legal channel (serverMessages fuel d₄.units.flatten) :=
    legal_of_drain rfl h₄
  have hchoice : (((bs.drop linkHeader).drop (u32le bs 12)).take 4).length = 4 := by
    rw [length_take, Nat.min_eq_left hauth]
  have hcode : ((((bs.drop linkHeader).drop (u32le bs 12)).drop 4).take 128).length = 128 := by
    rw [length_take, Nat.min_eq_left hticket]
  simp only [Framing.Drained.after, flatten_cons, cons_append, nil_append, hsize]
  rw [← append_assoc, ← append_assoc, ← append_assoc, drop_left']
  · exact hmessages _
  · simp only [length_append, hfront, hbody, hchoice, hcode]

/-- What the gate forwards of the chunks that it admits. -/
theorem forwarded_eq (channel : Channel) (connectionId : UInt32) (chunks : List (List UInt8)) :
    ∃ d later,
      messages.drain (ClientGate.new channel connectionId).toClientState
        (d.units.flatten ++ d.rest) = some d ∧
      chunks.flatten = d.units.flatten ++ d.rest ++ later ∧
      (feedAll ClientGate.feed (ClientGate.new channel connectionId) chunks).1 =
        d.units.flatten := by
  have hempty : messages.drain (ClientGate.new channel connectionId).toClientState [] =
      some ⟨_, [], []⟩ := drain_of_more rfl
  obtain ⟨earlier, d, ⟨hfront, -, -⟩, hd, hforwarded, -⟩ :=
    (ClientGate.follows (ClientGate.new channel connectionId)).result hempty chunks
  obtain ⟨later, hlater⟩ := List.IsPrefix.flatten hfront
  rw [← ClientGate.drain_bytes hd] at hlater hd
  exact ⟨d, later, hd, hlater.symm, hforwarded⟩

/-! ## Behind a link without it -/

/-- The choice, a ticket, and a message without a body. -/
def tail : List UInt8 :=
  [1, 0, 0, 0] ++ List.replicate 124 0 ++ [255, 255, 0, 0] ++ [1, 0, 0, 0, 0, 0]

/-- A link that the gate lets through is taken. -/
theorem Links.drain {link : List UInt8} (h : Links channel connectionId link)
    (later : List UInt8) :
    messages.drain (ClientGate.new channel connectionId).toClientState (link ++ later) =
      (messages.drain { channel, connectionId, phase := .auth, linkSize := u32le link 12 }
        later).map (Framing.Drained.after [link.take linkHeader, link.drop linkHeader]) := by
  have hsizes : linkHeader = 16 := rfl
  have hwhole := h.whole
  have hgrow : (link ++ later).length = link.length + later.length := length_append
  have hheader : messages.parse (ClientGate.new channel connectionId).toClientState (link ++ later) =
      .unit linkHeader { channel, connectionId, phase := .link, linkSize := u32le link 12 }
        (link.take linkHeader) := by
    change ClientState.parse _ _ = _
    unfold ClientState.parse ClientState.turn
    dsimp only [ClientGate.new]
    rw [if_neg (by omega), slice_append (by omega), u32le_append (by omega),
      u32le_append (by omega), if_neg (by simp [h.magic, h.version]),
      if_neg (by have := h.size; omega)]
    dsimp only
    rw [take_append_of_le_length (by omega)]
  have hbody : (link.drop linkHeader).length = u32le link 12 := by
    rw [length_drop]
    omega
  have hlink : messages.parse
      { channel, connectionId, phase := .link, linkSize := u32le link 12 }
        (link.drop linkHeader ++ later) =
      .unit (u32le link 12) { channel, connectionId, phase := .auth, linkSize := u32le link 12 }
        (link.drop linkHeader) := by
    have hchecked : ClientState.checkLink
        { channel, connectionId, phase := .link, linkSize := u32le link 12 }
          (link.drop linkHeader) = .ok () := h.checked
    change ClientState.parse _ _ = _
    unfold ClientState.parse ClientState.turn
    dsimp only
    rw [length_append, if_neg (by omega), slice_append (by omega), slice_all hbody, hchecked]
    dsimp only
    rw [take_left' hbody]
  rw [drain_of_unit hheader, drop_append_of_le_length (by omega),
    drain_of_unit hlink, drop_left' hbody, map_after_after]
  rfl

set_option maxRecDepth 4000 in
theorem drain_tail (s : ClientState) (hphase : s.phase = .auth) :
    messages.drain s tail = some ⟨{ s with phase := .messages }, [],
      [tail.take 4, (tail.drop 4).take 128, (tail.drop 4).drop 128]⟩ := by
  have hauth : messages.parse s tail = .unit 4 { s with phase := .ticket } (tail.take 4) := by
    change ClientState.parse _ _ = _
    unfold ClientState.parse ClientState.turn
    rw [hphase]
    rfl
  have hticket : messages.parse { s with phase := .ticket } (tail.drop 4) =
      .unit 128 { s with phase := .messages } ((tail.drop 4).take 128) := rfl
  have hmessage : messages.parse { s with phase := .messages } ((tail.drop 4).drop 128) =
      .unit 6 { s with phase := .messages } ((tail.drop 4).drop 128) := rfl
  rw [drain_of_unit hauth, drain_of_unit hticket, drain_of_unit hmessage, drain_of_more rfl]
  rfl

/-- What QEMU reads of the tail when it has not made the choice. -/
theorem not_legal_tail (channel : Channel) (fuel : Nat) :
    ¬ Legal channel (serverMessages (fuel + 1) (tail.drop 128)) := by
  intro h
  have hfirst := (h (65535, 65536) (by
    unfold serverMessages
    exact mem_cons_self)).1
  cases channel <;> cases hfirst

/-- A stream that begins with a link without the capability, of which QEMU reads a message that no
channel allows. -/
theorem Links.not_legal {link : List UInt8} (h : Links channel connectionId link)
    (hselects : ¬ SelectsAuth offers link) :
    ¬ Legal channel (serverReads offers
      (feedAll ClientGate.feed (ClientGate.new channel connectionId) [link ++ tail]).1) := by
  have hsizes : linkHeader = 16 ∧ linkMess = 18 ∧ maxLink = 4096 := ⟨rfl, rfl, rfl⟩
  have hwhole := h.whole
  have hsize := h.size
  have htail : tail.length = 138 := by simp [tail]
  have hempty : messages.drain (ClientGate.new channel connectionId).toClientState [] =
      some ⟨_, [], []⟩ := drain_of_more rfl
  have hdrain := h.drain tail
  rw [drain_tail _ rfl] at hdrain
  have hfeed : messages.feed ClientGate.limit (ClientGate.new channel connectionId).toClientState []
      (link ++ tail) = some _ := feed_of_fits (by
    have hlimit : ClientGate.limit = 69638 := rfl
    rw [length_nil, length_append]
    omega) hdrain
  have hforwarded :
      (feedAll ClientGate.feed (ClientGate.new channel connectionId) [link ++ tail]).1 =
        link ++ tail := by
    rw [(ClientGate.follows (ClientGate.new channel connectionId) [link ++ tail]).1]
    have hgate : (ClientGate.new channel connectionId).buffer = [] := rfl
    rw [hgate]
    simp only [Framing.feedAll, hfeed, Framing.Drained.after, append_nil, flatten_append,
      flatten_cons, flatten_nil, take_append_drop]
  rw [hforwarded]
  unfold serverReads
  rw [length_append, u32le_append (by omega), if_neg (by omega),
    if_neg (by rwa [selectsAuth_append (by omega) (by omega)])]
  have hbehind : (link ++ tail).drop (linkHeader + u32le link 12 + 0 + 128) = tail.drop 128 := by
    rw [Nat.add_zero, ← hwhole, ← drop_drop, drop_left]
  obtain ⟨fuel, hfuel⟩ : ∃ fuel, link.length + tail.length = fuel + 1 :=
    ⟨link.length + 137, by omega⟩
  rw [hbehind, hfuel]
  exact not_legal_tail channel fuel

end Reads

/-- The messages that QEMU reads are allowed ones whenever the links that the gate lets through are
such that both sides have the capability to choose the authentication. Behind a link, this is so for
every stream exactly when they have. -/
theorem client_gate (channel : Channel) (connectionId : UInt32) (offers : Bool) :
    (∀ chunks : List (List UInt8),
      (∀ link, Links channel connectionId link → link <+: chunks.flatten →
        SelectsAuth offers link) →
      Legal channel (serverReads offers
        (feedAll ClientGate.feed (ClientGate.new channel connectionId) chunks).1)) ∧
    ∀ link, Links channel connectionId link →
      ((∀ chunks : List (List UInt8), link <+: chunks.flatten →
        Legal channel (serverReads offers
          (feedAll ClientGate.feed (ClientGate.new channel connectionId) chunks).1)) ↔
      SelectsAuth offers link) := by
  have hsound : ∀ chunks : List (List UInt8),
      (∀ link, Links channel connectionId link → link <+: chunks.flatten →
        SelectsAuth offers link) →
      Legal channel (serverReads offers
        (feedAll ClientGate.feed (ClientGate.new channel connectionId) chunks).1) := by
    intro chunks hselects
    obtain ⟨d, later, hd, hstream, hforwarded⟩ := forwarded_eq channel connectionId chunks
    rw [hforwarded]
    refine legal_of_selectsAuth hd fun link hlink hfront => hselects link hlink ?_
    rw [hstream, append_assoc]
    exact hfront.trans (prefix_append ..)
  refine ⟨hsound, fun link hlink => ⟨fun hall => ?_, fun hselects chunks hfront => ?_⟩⟩
  · by_contra hnot
    exact hlink.not_legal hnot (hall [link ++ tail] (by simp))
  · refine hsound chunks fun link' hlink' hfront' => ?_
    rwa [hlink'.unique hlink hfront' hfront]

/-- The link of a main channel with some common capabilities. -/
def linkWith (capabilities : UInt8) : List UInt8 :=
  magic ++ [2, 0, 0, 0, 2, 0, 0, 0, 22, 0, 0, 0] ++
    [0, 0, 0, 0, 1, 0, 1, 0, 0, 0, 0, 0, 0, 0, 18, 0, 0, 0, capabilities, 0, 0, 0]

theorem links_linkWith (capabilities : UInt8) (h : capabilities = 10 ∨ capabilities = 11) :
    Links .main 0 (linkWith capabilities) := by
  rcases h with rfl | rfl
  · exact ⟨by decide, by decide, by decide, by decide, by rfl⟩
  · exact ⟨by decide, by decide, by decide, by decide, by rfl⟩

/-- A client that has the capabilities for tickets and mini headers only sends QEMU a message of a
kind that no channel allows. -/
theorem client_gate_misread : ¬ ∀ (channel : Channel) (connectionId : UInt32) (offers : Bool)
    (chunks : List (List UInt8)), Legal channel (serverReads offers
      (feedAll ClientGate.feed (ClientGate.new channel connectionId) chunks).1) := by
  intro h
  exact (links_linkWith 10 (.inl rfl)).not_legal (by decide) (h .main 0 true [linkWith 10 ++ tail])

/-- The link of the browser's own client has all three. -/
theorem client_gate_of_browser : ∀ chunks : List (List UInt8), linkWith 11 <+: chunks.flatten →
    Legal .main (serverReads true
      (feedAll ClientGate.feed (ClientGate.new .main 0) chunks).1) :=
  ((client_gate .main 0 true).2 (linkWith 11) (links_linkWith 11 (.inr rfl))).2 (by decide)

end Spice

end MachineEmu
