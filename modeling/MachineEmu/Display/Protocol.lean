import MachineEmu.Lib.Bytes
import MachineEmu.Lib.Framing

/-!
# Records of a display stream

The framing of the display stream: a header of sixteen bytes and a payload.

* `Record.encode`, `decode` — the encoder and the streaming decoder.
* `checkVideoHeader` — the check of a header by the relay of the API.
* `recordFraming` — the decoder as a parser of units.
-/

namespace MachineEmu.Display

open Lib List

def headerLen : Nat := 16

def maxPayload : Nat := 16 * 1024 * 1024

/-- Source: `display-stream-protocol/src/lib.rs` `VideoError`. -/
inductive VideoError where
  | unknownType (value : UInt8)
  | payloadTooLarge
  | reserved
  deriving DecidableEq

/-- Source: `display-stream-protocol/src/lib.rs` `RecordType`. -/
inductive RecordType where
  | config
  | keyframe
  | delta
  | resize
  | control
  | audioConfig
  | audioData
  deriving DecidableEq

namespace RecordType

/-- The number of a type. -/
def toByte : RecordType → UInt8
  | config => 0
  | keyframe => 1
  | delta => 2
  | resize => 3
  | control => 4
  | audioConfig => 5
  | audioData => 6

def tryFrom (value : UInt8) : Except VideoError RecordType :=
  match value with
  | 0 => .ok config
  | 1 => .ok keyframe
  | 2 => .ok delta
  | 3 => .ok resize
  | 4 => .ok control
  | 5 => .ok audioConfig
  | 6 => .ok audioData
  | value => .error (.unknownType value)

@[simp] theorem tryFrom_toByte (kind : RecordType) : tryFrom kind.toByte = .ok kind := by
  cases kind <;> rfl

/-- The known types are those up to six. -/
theorem tryFrom_isOk (value : UInt8) : (tryFrom value).isOk = true ↔ ¬ 6 < value := by
  unfold tryFrom
  split <;> try decide
  next h₀ h₁ h₂ h₃ h₄ h₅ h₆ =>
    refine iff_of_false nofun (fun hle => ?_)
    grind

theorem toByte_of_tryFrom {value : UInt8} {kind : RecordType} (h : tryFrom value = .ok kind) :
    kind.toByte = value := by
  unfold tryFrom at h
  split at h <;> cases h <;> rfl

end RecordType

/-- Source: `display-stream-protocol/src/lib.rs` `Record`. -/
structure Record where
  kind : RecordType
  flags : UInt8
  ptsUs : UInt64
  payload : List UInt8
  deriving DecidableEq

/-- The bytes of a record. -/
def Record.bytes (self : Record) : List UInt8 :=
  [self.kind.toByte, self.flags] ++ beBytes 2 0 ++ beBytes 4 self.payload.length ++
    beBytes 8 self.ptsUs.toNat ++ self.payload

/-- Append a record to the output. Source: `display-stream-protocol/src/lib.rs` `Record::encode`. -/
def Record.encode (self : Record) (output : List UInt8) : Except VideoError Unit × List UInt8 :=
  if maxPayload < self.payload.length then (.error .payloadTooLarge, output)
  else (.ok (), output ++ self.bytes)

/-- Take a record from the front of the input. Returns the input that is left.
Source: `display-stream-protocol/src/lib.rs` `decode`. -/
def decode (input : List UInt8) : Except VideoError (Option Record) × List UInt8 :=
  if input.length < headerLen then (.ok none, input)
  else
    match RecordType.tryFrom (input.getD 0 0) with
    | .error e => (.error e, input)
    | .ok kind =>
      let flags := input.getD 1 0
      if beNat (slice input 2 2) ≠ 0 then (.error .reserved, input)
      else
        let length := beNat (slice input 4 4)
        let ptsUs := UInt64.ofNat (beNat (slice input 8 8))
        if maxPayload < length then (.error .payloadTooLarge, input)
        else if input.length < headerLen + length then (.ok none, input)
        else
          (.ok (some { kind, flags, ptsUs, payload := slice input headerLen length }),
            input.drop (headerLen + length))

/-! ## The decoder -/

section Decode

variable {input rest : List UInt8} {record : Record}

/-- The fields of the header of a record. -/
theorem slice_bytes (record : Record) (later : List UInt8) :
    slice (record.bytes ++ later) 2 2 = beBytes 2 0 ∧
      slice (record.bytes ++ later) 4 4 = beBytes 4 record.payload.length ∧
      slice (record.bytes ++ later) 8 8 = beBytes 8 record.ptsUs.toNat ∧
      slice (record.bytes ++ later) headerLen record.payload.length = record.payload ∧
      (record.bytes ++ later).drop (headerLen + record.payload.length) = later := by
  have hbytes : record.bytes = [record.kind.toByte, record.flags] ++ beBytes 2 0 ++
      beBytes 4 record.payload.length ++ beBytes 8 record.ptsUs.toNat ++ record.payload := rfl
  refine ⟨?_, ?_, ?_, ?_, ?_⟩
  · rw [hbytes, append_assoc _ record.payload, append_assoc _ (beBytes 8 _),
      append_assoc _ (beBytes 4 _)]
    exact slice_middle rfl (length_beBytes 2 0) _
  · rw [hbytes, append_assoc _ record.payload, append_assoc _ (beBytes 8 _)]
    exact slice_middle (by simp) (length_beBytes 4 _) _
  · rw [hbytes, append_assoc _ record.payload]
    exact slice_middle (by simp) (length_beBytes 8 _) _
  · rw [hbytes]
    exact slice_middle (by simp [headerLen]) rfl _
  · rw [hbytes]
    apply drop_left'
    simp [headerLen]
    omega

@[simp] theorem length_bytes : record.bytes.length = headerLen + record.payload.length := by
  simp [Record.bytes, headerLen]
  omega

/-- A record that is there is taken. -/
theorem decode_bytes (hpayload : record.payload.length ≤ maxPayload) (later : List UInt8) :
    decode (record.bytes ++ later) = (.ok (some record), later) := by
  obtain ⟨hreserved, hlength, hpts, htaken, hrest⟩ := slice_bytes record later
  have hsmall : record.payload.length < 256 ^ 4 := lt_of_le_of_lt hpayload (by decide)
  have hkind : (record.bytes ++ later).getD 0 0 = record.kind.toByte := rfl
  have hflags : (record.bytes ++ later).getD 1 0 = record.flags := rfl
  unfold decode
  rw [hkind, hflags, hreserved, hlength, hpts, beNat_beBytes, beNat_beBytes, beNat_beBytes,
    Nat.mod_eq_of_lt hsmall, Nat.mod_eq_of_lt (show record.ptsUs.toNat < 256 ^ 8 from
      record.ptsUs.toNat_lt), RecordType.tryFrom_toByte, UInt64.ofNat_toNat]
  rw [if_neg (by simp [headerLen]; omega)]
  dsimp only
  rw [if_neg (by simp), if_neg (by omega), if_neg (by simp [headerLen]), htaken, hrest]

/-- What is taken is the bytes of the record. -/
theorem eq_of_decode (h : decode input = (.ok (some record), rest)) :
    input = record.bytes ++ rest ∧ record.payload.length ≤ maxPayload := by
  unfold decode at h
  split at h
  · cases h
  · next hheader =>
    split at h
    · cases h
    · next kind hkind =>
      dsimp only at h
      split at h
      · cases h
      · next hreserved =>
        split at h
        · cases h
        · next hpayload =>
          split at h
          · cases h
          · next hinput =>
            cases h
            unfold headerLen at hheader hinput
            have hlength : (slice input 16 (beNat (slice input 4 4))).length =
                beNat (slice input 4 4) := length_slice (by omega)
            have htwo : beBytes 2 0 = slice input 2 2 := by
              rw [← beBytes_beNat (slice input 2 2), length_slice (by omega), not_not.1 hreserved]
            have hfour : beBytes 4 (beNat (slice input 4 4)) = slice input 4 4 := by
              conv_rhs => rw [← beBytes_beNat (slice input 4 4), length_slice (by omega)]
            have height : beBytes 8 (UInt64.ofNat (beNat (slice input 8 8))).toNat =
                slice input 8 8 := by
              have hlt := beNat_lt (slice input 8 8)
              rw [length_slice (by omega)] at hlt
              rw [UInt64.toNat_ofNat_of_lt' hlt]
              conv_rhs => rw [← beBytes_beNat (slice input 8 8), length_slice (by omega)]
            refine ⟨?_, by rw [headerLen, hlength]; exact Nat.not_lt.1 hpayload⟩
            have hfront : input = [input.getD 0 0, input.getD 1 0] ++ input.drop 2 := by
              match input, hheader with
              | a :: b :: rest, _ => rfl
            conv_lhs => rw [hfront, ← slice_drop input 2 2, ← slice_drop input 4 4,
              ← slice_drop input 8 8, ← slice_drop input 16 (beNat (slice input 4 4))]
            simp only [Record.bytes, headerLen, hlength, htwo, hfour, height,
              RecordType.toByte_of_tryFrom hkind, append_assoc]

/-- A call that takes nothing leaves the input as it is. -/
theorem decode_unchanged (h : ∀ record, (decode input).1 ≠ .ok (some record)) :
    (decode input).2 = input := by
  unfold decode at h ⊢
  split
  · rfl
  · next hheader =>
    rw [if_neg hheader] at h
    split
    · rfl
    · next kind hkind =>
      rw [hkind] at h
      dsimp only at h ⊢
      split
      · rfl
      · next hreserved =>
        rw [if_neg hreserved] at h
        split
        · rfl
        · next hpayload =>
          rw [if_neg hpayload] at h
          split
          · rfl
          · next hinput =>
            rw [if_neg hinput] at h
            exact absurd rfl (h _)

end Decode

def maxVideoRecord : Nat := 16 * 1024 * 1024

/-- Whether the relay of the API accepts a header. Source: `api/streams.rs` `relay`. -/
def checkVideoHeader (header : List UInt8) : Bool :=
  let length := beNat (slice header 4 4)
  !(slice header 2 2 != [0, 0] || maxVideoRecord < length || 6 < header.getD 0 0)

end MachineEmu.Display
