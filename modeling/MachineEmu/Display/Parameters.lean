import MachineEmu.Lib.AnnexB
import MachineEmu.Lib.Bytes
import MachineEmu.Lib.Sha256

/-!
# Parameters of the video

The display helper looks for units in the packets of the encoder: keyframes, and the parameter sets
that describe the video.

* `containsIdr`, `codecFromSps`, `parameterSets`, `avccDescription` — the four scanners.
* `parseAvcc` — what a decoder reads from the description.
-/

namespace MachineEmu.Display

open Lib Lib.AnnexB

/-- The type of a unit. -/
def nalType (header : UInt8) : UInt8 := header &&& 0x1f

/-- The loop of `contains_idr` from an index on. -/
def containsIdrFrom (payload : List UInt8) : (fuel index : Nat) → Bool
  | 0, _ => false
  | fuel + 1, index =>
    if index + 3 ≤ payload.length then
      match startCode (payload.drop index) with
      | none => containsIdrFrom payload fuel (index + 1)
      | some n =>
        if (payload[index + n]?).any fun b => nalType b = 5 then true
        else containsIdrFrom payload fuel (index + n)
    else false

/-- Every turn goes on by a byte. Source: `display-stream/src/bin/stream.rs` `contains_idr`. -/
def containsIdr (payload : List UInt8) : Bool := containsIdrFrom payload payload.length 0

/-- The first start code from an index on, or the end. -/
def nextStart (payload : List UInt8) (start : Nat) : Nat :=
  ((List.range' start (payload.length - start)).find? fun position =>
    (startCode (payload.drop position)).isSome).getD payload.length

/-- The loop of `codec_from_sps` from an index on. -/
def codecFrom (payload : List UInt8) : (fuel index : Nat) → Option String
  | 0, _ => none
  | fuel + 1, index =>
    if index + 4 ≤ payload.length then
      match startCode (payload.drop index) with
      | none => codecFrom payload fuel (index + 1)
      | some n =>
        let start := index + n
        let stop := nextStart payload start
        if start + 4 ≤ stop ∧ nalType (payload.getD start 0) = 7 then
          some ("avc1." ++ Sha256.hex [(payload.getD (start + 1) 0).toNat,
            (payload.getD (start + 2) 0).toNat, (payload.getD (start + 3) 0).toNat])
        else codecFrom payload fuel stop
    else none

/-- Source: `display-stream/src/bin/stream.rs` `codec_from_sps`. -/
def codecFromSps (payload : List UInt8) : Option String := codecFrom payload payload.length 0

/-- The start codes from an index on, with their lengths: the first loop of `parameter_sets`, which
`avcc_description` has as well. -/
def startsFrom (payload : List UInt8) : (fuel index : Nat) → List (Nat × Nat)
  | 0, _ => []
  | fuel + 1, index =>
    if index + 3 ≤ payload.length then
      match startCode (payload.drop index) with
      | none => startsFrom payload fuel (index + 1)
      | some n => (index, n) :: startsFrom payload fuel (index + n)
    else []

/-- The start codes of a packet. -/
def starts (payload : List UInt8) : List (Nat × Nat) := startsFrom payload payload.length 0

/-- The end of a unit: the next start code, or the end of the packet. -/
def endOf (payload : List UInt8) (starts : List (Nat × Nat)) (position : Nat) : Nat :=
  ((starts.map Prod.fst).find? fun next => position < next).getD payload.length

/-- The bytes of a range. -/
def rangeOf (payload : List UInt8) (start stop : Nat) : List UInt8 :=
  slice payload start (stop - start)

/-- A unit with one of the two types of parameters. -/
def isParameter (header : UInt8) : Bool := nalType header = 7 || nalType header = 8

/-- Source: `display-stream/src/bin/stream.rs` `parameter_sets`. -/
def parameterSets (payload : List UInt8) : List UInt8 :=
  (starts payload).flatMap fun (position, n) =>
    if isParameter (payload.getD (position + n) 0) then
      rangeOf payload position (endOf payload (starts payload) position)
    else []

/-- The units with parameters. -/
def parameterNals (payload : List UInt8) : List (List UInt8) :=
  (starts payload).filterMap fun (position, n) =>
    let nal := rangeOf payload (position + n) (endOf payload (starts payload) position)
    if nal.head?.any isParameter then some nal else none

/-- The description of a pair of units. -/
def description (sps pps : List UInt8) : List UInt8 :=
  [1, sps.getD 1 0, sps.getD 2 0, sps.getD 3 0, 0xff, 0xe1] ++ beBytes 2 sps.length ++ sps ++ [1] ++
    beBytes 2 pps.length ++ pps

/-- The first unit of a type. -/
def firstOf (type : UInt8) (nals : List (List UInt8)) : Option (List UInt8) :=
  nals.find? fun nal => nal.head?.any fun b => nalType b = type

/-- Source: `display-stream/src/bin/stream.rs` `avcc_description`. -/
def avccDescription (payload : List UInt8) : Option (List UInt8) :=
  match firstOf 7 (parameterNals payload), firstOf 8 (parameterNals payload) with
  | some sps, some pps =>
    if sps.length < 4 ∨ 2 ^ 16 ≤ sps.length ∨ 2 ^ 16 ≤ pps.length then none
    else some (description sps pps)
  | _, _ => none

/-- A decoder takes one unit of each of the types from the description. -/
def parseAvcc (bytes : List UInt8) : Option (List UInt8 × List UInt8) :=
  let n := beNat (slice bytes 6 2)
  let m := beNat (slice bytes (9 + n) 2)
  if bytes.take 1 = [1] ∧ slice bytes 4 2 = [0xff, 0xe1] ∧ slice bytes (8 + n) 1 = [1] ∧
      bytes.length = 11 + n + m then
    some (slice bytes 8 n, slice bytes (11 + n) m)
  else none

end MachineEmu.Display
