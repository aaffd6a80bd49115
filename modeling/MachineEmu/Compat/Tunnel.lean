import MachineEmu.Lib.Bytes

/-!
# The setup tunnel over Bluetooth

The layers of `unifi_ble_tunnel.py` that are no cryptography: frames with a length, envelopes with a
sequence number and a protocol, and containers of two blocks.

* `frame`, `FrameReader` — frames are written, and read from chunks of a stream.
* `envelope`, `parseEnvelope` — packets.
* `binme`, `parseBinme` — containers. What `json` and `zlib` do is a parameter.
-/

namespace MachineEmu.Compat

open Lib

/-- What is raised: `TunnelError`, or an error that is none. -/
inductive TunnelFailure
  | tunnel (message : String)
  | zlib
  | struct
  | recursion
  deriving DecidableEq

/-! ## Frames -/

def maxFrame : ℕ := 65535

def frame (payload : List UInt8) : Except TunnelFailure (List UInt8) :=
  if maxFrame < payload.length + 2 then .error (.tunnel "frame exceeds the 16-bit length field")
  else .ok (beBytes 2 (payload.length + 2) ++ payload)

/-- The loop of `FrameReader.feed`: the buffer that is left, and the frames or an error. -/
def takeFrames (buffer : List UInt8) (frames : List (List UInt8)) :
    List UInt8 × Except TunnelFailure (List (List UInt8)) :=
  if 2 ≤ buffer.length then
    if beNat (buffer.take 2) = 0 then takeFrames (buffer.drop 2) frames
    else if beNat (buffer.take 2) < 2 then
      (buffer, .error (.tunnel ("frame length " ++ toString (beNat (buffer.take 2)) ++
        " is shorter than its own field")))
    else if buffer.length < beNat (buffer.take 2) then (buffer, .ok frames)
    else takeFrames (buffer.drop (beNat (buffer.take 2)))
      (frames ++ [(buffer.take (beNat (buffer.take 2))).drop 2])
  else (buffer, .ok frames)
termination_by buffer.length
decreasing_by
  · rw [List.length_drop]
    omega
  · rw [List.length_drop]
    omega

/-- A reader of frames. -/
structure FrameReader where
  buffer : List UInt8

namespace FrameReader

def init : FrameReader := ⟨[]⟩

def feed (r : FrameReader) (chunk : List UInt8) :
    FrameReader × Except TunnelFailure (List (List UInt8)) :=
  (⟨(takeFrames (r.buffer ++ chunk) []).1⟩, (takeFrames (r.buffer ++ chunk) []).2)

/-- What the calls of `feed` give, one after the other. -/
def feedAll : FrameReader → List (List UInt8) → List (Except TunnelFailure (List (List UInt8)))
  | _, [] => []
  | r, chunk :: chunks => (r.feed chunk).2 :: feedAll (r.feed chunk).1 chunks

end FrameReader

/-! ## Envelopes -/

def authentication : ℕ := 0
def management : ℕ := 1
def allJoin : ℕ := 2
def binaryMessage : ℕ := 3

/-- A number of 16 bits with a sign. -/
def signed16 (n : ℕ) : ℤ := if n < 32768 then n else n - 65536

def parseEnvelope (packet : List UInt8) : Except TunnelFailure (ℤ × ℕ × List UInt8) :=
  if packet.length < 2 then
    .error (.tunnel ("Failed to parse Sequence Number from packet fragment of length " ++
      toString packet.length))
  else if packet.length < 3 then
    .error (.tunnel ("Failed to parse Protocol from packet fragment of length " ++
      toString packet.length))
  else if beNat (slice packet 2 1) ∉ [authentication, management, allJoin, binaryMessage] then
    .error (.tunnel ("Unknown message protocol '" ++ toString (beNat (slice packet 2 1)) ++ "'"))
  else .ok (signed16 (beNat (packet.take 2)), beNat (slice packet 2 1), packet.drop 3)

/-! ## Containers -/

/-- What `json.loads` gives: an object, another value, `ValueError` with its text, or
`RecursionError`. -/
inductive Loaded (Header : Type)
  | object (header : Header)
  | other
  | invalid (message : String)
  | deep

/-- What is used of `json` and `zlib`. Both are lossless, and no text is no JSON. -/
structure Codecs (Header : Type) where
  dumps : Header → List UInt8
  loads : List UInt8 → Loaded Header
  compress : List UInt8 → List UInt8
  decompress : List UInt8 → Option (List UInt8)
  loads_dumps : ∀ header, loads (dumps header) = .object header
  dumps_ne_nil : ∀ header, dumps header ≠ []
  decompress_compress : ∀ data, decompress (compress data) = some data

def headerBlock : UInt8 := 1
def bodyBlock : UInt8 := 2
def encodingJson : UInt8 := 1
def compressionDisabled : UInt8 := 0
def compressionEnabled : UInt8 := 1

section Containers

variable {Header : Type} (C : Codecs Header)

/-- What is stored of some data. -/
def stored (compress : Bool) (data : List UInt8) : List UInt8 :=
  if compress then C.compress data else data

/-- `struct.pack(">I", ...)` takes a number of 32 bits. -/
def block (compress : Bool) (kind encoding : UInt8) (data : List UInt8) :
    Except TunnelFailure (List UInt8) :=
  if (stored C compress data).length < 2 ^ 32 then
    .ok ([kind, encoding, if compress then compressionEnabled else compressionDisabled, 0] ++
      beBytes 4 (stored C compress data).length ++ stored C compress data)
  else .error .struct

def binme (header : Header) (body : List UInt8) (encoding : UInt8) (compress : Bool) :
    Except TunnelFailure (List UInt8) :=
  match block C compress headerBlock encodingJson (C.dumps header) with
  | .error failure => .error failure
  | .ok first =>
    match block C compress bodyBlock encoding body with
    | .error failure => .error failure
    | .ok second => .ok (first ++ second)

/-- A block that is read: its kind, its encoding and its data. -/
structure Block where
  kind : UInt8
  encoding : UInt8
  data : List UInt8

/-- The data of a block. -/
def blockData (compression : UInt8) (data : List UInt8) : Except TunnelFailure (List UInt8) :=
  if compression = compressionEnabled then
    match C.decompress data with
    | some data => .ok data
    | none => .error .zlib
  else if compression ≠ compressionDisabled then
    .error (.tunnel ("unknown Binme compression " ++ toString compression.toNat))
  else .ok data

/-- The loop of `parse_binme` over what is left of the message. -/
def parseBlocks (rest : List UInt8) (blocks : List Block) : Except TunnelFailure (List Block) :=
  match rest with
  | [] => .ok blocks
  | kind :: encoding :: compression :: reserved :: a :: b :: c :: d :: body =>
    if reserved ≠ 0 ∨ body.length < beNat [a, b, c, d] then
      .error (.tunnel "malformed Binme block")
    else
      match blockData C compression (body.take (beNat [a, b, c, d])) with
      | .error failure => .error failure
      | .ok data => parseBlocks (body.drop (beNat [a, b, c, d])) (blocks ++ [⟨kind, encoding, data⟩])
  | _ => .error (.tunnel "truncated Binme block header")
termination_by rest.length
decreasing_by
  simp only [List.length_drop, List.length_cons]
  omega

/-- What `parse_binme` gives for the header: an object, as it declares, or another value. -/
inductive Parsed (Header : Type)
  | object (header : Header)
  | other
  deriving DecidableEq

def parseHeader (data : List UInt8) : Except TunnelFailure (Parsed Header) :=
  match C.loads (if data = [] then [123, 125] else data) with
  | .object header => .ok (.object header)
  | .other => .ok .other
  | .invalid message => .error (.tunnel ("invalid Binme header: " ++ message))
  | .deep => .error .recursion

def parseBinme (message : List UInt8) : Except TunnelFailure (Parsed Header × List UInt8) :=
  match parseBlocks C message [] with
  | .error failure => .error failure
  | .ok blocks =>
    match blocks with
    | first :: more =>
      if first.kind ≠ headerBlock then
        .error (.tunnel "a Binme message must start with a header block")
      else
        match more with
        | second :: _ =>
          if second.kind ≠ bodyBlock then
            .error (.tunnel "a Binme message must carry a body block")
          else
            match parseHeader C first.data with
            | .error failure => .error failure
            | .ok header => .ok (header, second.data)
        | [] => .error (.tunnel "a Binme message must carry a body block")
    | [] => .error (.tunnel "a Binme message must start with a header block")

end Containers

end MachineEmu.Compat
