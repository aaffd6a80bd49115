import MachineEmu.Api.SpiceAudio
import MachineEmu.Lib.Framing

/-!
# A SPICE channel in the web client

A channel is one WebSocket. The frames of the server are bytes of a link reply, a ticket result and
messages, cut anywhere. The ticket is encrypted by the browser, which takes a wait in the middle of
the handshake.

* `parseLinkHeader`, `parseLinkReply` — what a reply has to be.
* `framer` — the messages in a stream.
* `SpiceChannel.receive`, `SpiceChannel.encrypted` — a frame arrives, and the wait ends.
* `SpiceChannel.step`, `SpiceChannel.run` — with a caller that listens as soon as the link resolves.
-/

namespace MachineEmu.Web

open Lib Spice

/-- Source: `web/src/spice-audio/codec.ts` `SpiceMessage`. -/
structure SpiceMessage where
  kind : Nat
  payload : List UInt8

/-- The lowest bytes of a number, the least significant first. -/
def leBytes (count n : Nat) : List UInt8 := (beBytes count n).reverse

/-- Source: `encodeMessage`. -/
def encodeMessage (message : SpiceMessage) : List UInt8 :=
  leBytes 2 message.kind ++ leBytes 4 message.payload.length ++ message.payload

/-! ## The link reply -/

/-- The length of the body. Source: `parseLinkHeader`. -/
def parseLinkHeader (frame : List UInt8) : Except String Nat :=
  if frame.length < linkHeader then .error "short SPICE link header"
  else if slice frame 0 4 ≠ magic then .error "SPICE link magic is not REDQ"
  else if u32le frame 4 ≠ 2 then .error "unsupported SPICE major version"
  else
    let size := u32le frame 12
    if size < linkReply ∨ maxLink < size then .error "SPICE link reply length is out of range"
    else .ok size

/-- Source: `capabilities`. -/
def capabilityWords (body : List UInt8) (offset count : Nat) : Except String (List Nat) :=
  if maxLink / 4 < count ∨ maxLink < offset then
    .error "SPICE capability count exceeds the limit"
  else if body.length < offset + count * 4 then
    .error "SPICE capabilities fall outside the link message"
  else .ok ((List.range count).map fun i => u32le body (offset + i * 4))

/-- Source: `LinkReply`. -/
structure LinkReply where
  error : Nat
  publicKey : List UInt8
  commonCaps : List Nat
  channelCaps : List Nat
  deriving DecidableEq

/-- Source: `parseLinkReply`. -/
def parseLinkReply (body : List UInt8) : Except String LinkReply :=
  if body.length < linkReply then .error "short SPICE link reply"
  else if maxLink < body.length then .error "SPICE link reply exceeds the size limit"
  else do
    let common := u32le body 166
    let offset := u32le body 174
    let commonCaps ← capabilityWords body offset common
    let channelCaps ← capabilityWords body (offset + common * 4) (u32le body 170)
    return { error := u32le body 0, publicKey := slice body 4 162, commonCaps, channelCaps }

/-- Source: `hasCap`. -/
def hasCap (words : List Nat) (bit : Nat) : Bool :=
  decide (bit / 32 < words.length) && (words.getD (bit / 32) 0).testBit (bit % 32)

/-- The reply that a link goes on with. Source: `SpiceChannel.receive`. -/
def acceptReply (body : List UInt8) : Except String LinkReply :=
  match parseLinkReply body with
  | .error message => .error message
  | .ok reply =>
    if reply.error ≠ 0 then .error "the SPICE server refused the link"
    else if hasCap reply.commonCaps 3 = false then .error "the SPICE server declined mini headers"
    else .ok reply

/-! ## Messages -/

/-- The next message. Source: `Framer.feed`. -/
def parseMessage (bytes : List UInt8) : Parse Unit SpiceMessage :=
  if bytes.length < miniHeader then .more
  else
    let size := u32le bytes 2
    if maxServer < size then .bad
    else if bytes.length < miniHeader + size then .more
    else .unit (miniHeader + size) () { kind := u16le bytes 0, payload := slice bytes miniHeader size }

theorem header_append {bytes : List UInt8} (h : ¬bytes.length < miniHeader) (later : List UInt8) :
    u32le (bytes ++ later) 2 = u32le bytes 2 ∧ u16le (bytes ++ later) 0 = u16le bytes 0 := by
  unfold miniHeader at h
  unfold u32le u16le
  exact ⟨by rw [slice_append (by omega)], by rw [slice_append (by omega)]⟩

/-- Source: `Framer`. -/
def framer : Framing Unit UInt8 SpiceMessage where
  parse _ := parseMessage
  unit_bound := by
    intro s bs n s' v h
    unfold parseMessage at h
    split at h
    · cases h
    · dsimp only at h
      split at h
      · cases h
      · split at h
        · cases h
        · cases h
          unfold miniHeader at *
          omega
  unit_append := by
    intro s bs n s' v h later
    unfold parseMessage at h ⊢
    split at h
    · cases h
    · next hheader =>
      obtain ⟨hsize, hkind⟩ := header_append hheader later
      rw [if_neg (by rw [List.length_append]; omega), hsize, hkind]
      dsimp only at h ⊢
      split at h
      · cases h
      · next hlimit =>
        split at h
        · cases h
        · next hfull =>
          rw [if_neg hlimit, if_neg (by rw [List.length_append]; omega), slice_append (by omega)]
          exact h
  bad_append := by
    intro s bs h later
    unfold parseMessage at h ⊢
    split at h
    · cases h
    · next hheader =>
      obtain ⟨hsize, -⟩ := header_append hheader later
      rw [if_neg (by rw [List.length_append]; omega), hsize]
      dsimp only at h ⊢
      split at h
      · next hlimit => rw [if_pos hlimit]
      · split at h <;> cases h
  rest_always := by
    intro s bs h
    unfold parseMessage at h
    split at h
    · cases h
    · dsimp only at h
      split at h
      · cases h
      · split at h <;> cases h

/-! ## The channel -/

inductive LinkPhase where
  | reply
  | result
  | messages
  deriving DecidableEq

/-- How the promise of `link` stands. -/
inductive LinkResult where
  | pending
  | resolved
  | rejected
  deriving DecidableEq

/-- Source: `web/src/spice-audio/channel.ts` `SpiceChannel`. -/
structure SpiceChannel where
  channel : Channel
  wantOpus : Bool
  /-- Whether the socket is open. -/
  isOpen : Bool := true
  framer : List UInt8 := []
  /-- Whether the caller listens. -/
  handlers : Bool := false
  phase : LinkPhase := .reply
  buffer : List UInt8 := []
  replySize : Nat := 0
  link : LinkResult := .pending
  opus : Bool := false
  /-- The calls of `receive` that wait for `encryptTicket`. -/
  encrypting : Nat := 0
  /-- The frames that the socket was given. -/
  sent : List (List UInt8) := []
  /-- The messages that the listener was given. -/
  delivered : List SpiceMessage := []
  /-- Whether `receive` threw. -/
  faulted : Bool := false

namespace SpiceChannel

/-- `socket.send`; a closed socket drops the frame. -/
def send (s : SpiceChannel) (frame : List UInt8) : SpiceChannel :=
  if s.isOpen then { s with sent := s.sent ++ [frame] } else s

/-- The end of a call of `receive` that threw, with `close`. -/
def fault (s : SpiceChannel) : SpiceChannel :=
  { s with
    link := if s.link = .pending then .rejected else s.link
    handlers := false, framer := [], isOpen := false, faulted := true }

/-- The answer to a message of flow control. Source: `answerFlowControl`. -/
def answer (message : SpiceMessage) : Option SpiceMessage :=
  if message.kind = 3 then some { kind := 1, payload := message.payload.take 4 }
  else if message.kind = 4 then some { kind := 3, payload := message.payload }
  else none

/-- One message of the framer. -/
def deliver (s : SpiceChannel) (message : SpiceMessage) : SpiceChannel :=
  match answer message with
  | some reply => s.send (encodeMessage reply)
  | none => if s.handlers then { s with delivered := s.delivered ++ [message] } else s

/-- The bytes behind the ticket result. Source: `receive`. -/
def feed (s : SpiceChannel) : SpiceChannel :=
  if s.buffer = [] then s
  else
    match Web.framer.drain () (s.framer ++ s.buffer) with
    | none => { s with buffer := [] }.fault
    | some drained => drained.units.foldl deliver { s with buffer := [], framer := drained.rest }

/-- From the ticket result on. Source: `receive`. -/
def proceed (s : SpiceChannel) : SpiceChannel :=
  if s.phase = .result then
    if s.buffer.length < 4 then s
    else if u32le s.buffer 0 ≠ 0 then { s with buffer := s.buffer.drop 4 }.fault
    else
      { s with
        buffer := s.buffer.drop 4, phase := .messages
        link := if s.link = LinkResult.pending then .resolved else s.link }.feed
  else s.feed

/-- The selection of the authentication. -/
def selection : List UInt8 := leBytes 4 1

/-- The capability that stands for Opus on a channel. -/
def opusCap (channel : Channel) : Nat := if channel = .record then 2 else 3

/-- The length of the body of the reply, once its header is there. -/
def replyLength (s : SpiceChannel) : Except String Nat :=
  if s.replySize = 0 then parseLinkHeader s.buffer else .ok s.replySize

/-- The end of the reply. Source: `receive`. -/
def takeReply (s : SpiceChannel) (replySize : Nat) : SpiceChannel :=
  match acceptReply (slice s.buffer linkHeader replySize) with
  | .error _ => { s with buffer := s.buffer.drop (linkHeader + replySize), replySize }.fault
  | .ok reply =>
    { s with
      buffer := s.buffer.drop (linkHeader + replySize), replySize
      opus := s.wantOpus && s.channel ≠ Channel.main &&
        hasCap reply.channelCaps (opusCap s.channel)
      encrypting := s.encrypting + 1 }.send selection

/-- Up to the wait. Source: `receive`. -/
def receive (s : SpiceChannel) (chunk : List UInt8) : SpiceChannel :=
  let s := { s with buffer := s.buffer ++ chunk }
  if s.phase = .reply then
    if s.buffer.length < linkHeader then s
    else
      match s.replyLength with
      | .error _ => s.fault
      | .ok replySize =>
        if s.buffer.length < linkHeader + replySize then { s with replySize }
        else s.takeReply replySize
  else s.proceed

/-- The wait ends, with the cipher or an error. Source: `receive`, `encryptTicket`. -/
def encrypted (s : SpiceChannel) (cipher : Option (List UInt8)) : SpiceChannel :=
  match s.encrypting with
  | 0 => s
  | encrypting + 1 =>
    let s := { s with encrypting }
    match cipher with
    | none => s.fault
    | some cipher =>
      if cipher.length ≠ 128 then s.fault
      else { s.send cipher with phase := .result }.proceed

/-- What happens to a channel. -/
inductive Event where
  | frame (bytes : List UInt8)
  | encrypted (cipher : Option (List UInt8))

/-- What happens up to the end of the turn. A closed socket has no more frames. -/
def handle (s : SpiceChannel) : Event → SpiceChannel
  | .frame bytes => if s.isOpen then s.receive bytes else s
  | .encrypted cipher => s.encrypted cipher

/-- One turn. The caller listens at the end of the turn in which the link resolves. -/
def step (s : SpiceChannel) (event : Event) : SpiceChannel :=
  if s.link = .pending ∧ (s.handle event).link = .resolved then
    { s.handle event with handlers := true }
  else s.handle event

def run (s : SpiceChannel) (events : List Event) : SpiceChannel := events.foldl step s

end SpiceChannel

end MachineEmu.Web
