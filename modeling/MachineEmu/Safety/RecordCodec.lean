import MachineEmu.Display.Protocol

/-!
# The record codec

The decoder undoes the encoder, however the stream is cut, and the relay accepts the headers that
the decoder accepts.

* `recordFraming` — the decoder as a parser of units.
* `encodeAll`, `receive` — the records of a stream, written and read.
* `record_codec` — the round trip, what a call leaves, and the check of the relay.
-/

namespace MachineEmu.Display

open Lib List

/-! ## The decoder as a parser -/

/-- An error is in the header. -/
theorem decode_error_append {input : List UInt8} {e : VideoError} (h : (decode input).1 = .error e)
    (later : List UInt8) : (decode (input ++ later)).1 = .error e := by
  unfold decode at h ⊢
  split at h
  · cases h
  · next hheader =>
    unfold headerLen at hheader
    rw [if_neg (by rw [length_append, headerLen]; omega),
      getD_append_of_lt (by omega), getD_append_of_lt (by omega), slice_append (by omega),
      slice_append (by omega), slice_append (by omega)]
    split at h
    · exact h
    · dsimp only at h ⊢
      split at h
      · next hreserved =>
        rw [if_pos hreserved]
        exact h
      · next hreserved =>
        rw [if_neg hreserved]
        split at h
        · next hpayload =>
          rw [if_pos hpayload]
          exact h
        · split at h <;> cases h

/-- The decoder takes one record after the other. -/
def recordFraming : Framing Unit UInt8 Record where
  parse _ bs :=
    match decode bs with
    | (.ok (some record), rest) => .unit (bs.length - rest.length) () record
    | (.ok none, _) => .more
    | (.error _, _) => .bad
  unit_bound := by
    intro _ bs n _ record h
    split at h
    · next record' rest hdecode =>
      cases h
      have hinput := congrArg List.length (eq_of_decode hdecode).1
      rw [length_append, length_bytes, headerLen] at hinput
      rw [hinput, Nat.add_sub_cancel]
      exact ⟨Nat.add_pos_left (Nat.succ_pos 15) _, Nat.le_add_right _ _⟩
    · cases h
    · cases h
  unit_append := by
    intro _ bs n _ record h later
    split at h
    · next record' rest hdecode =>
      cases h
      obtain ⟨hinput, hpayload⟩ := eq_of_decode hdecode
      rw [hinput, append_assoc, decode_bytes hpayload]
      simp
    · cases h
    · cases h
  bad_append := by
    intro _ bs h later
    split at h
    · cases h
    · cases h
    · next e rest hdecode =>
      have hlater := decode_error_append (congrArg Prod.fst hdecode) later
      split
      · next hsome =>
        rw [hsome] at hlater
        cases hlater
      · next hnone =>
        rw [hnone] at hlater
        cases hlater
      · rfl
  rest_always := by
    intro _ bs h
    split at h <;> cases h

theorem parse_bytes {record : Record} (hpayload : record.payload.length ≤ maxPayload)
    (later : List UInt8) :
    recordFraming.parse () (record.bytes ++ later) = .unit record.bytes.length () record := by
  simp [recordFraming, decode_bytes hpayload]

/-! ## Streams of records -/

/-- Append some records to the output. -/
def encodeAll : List Record → List UInt8 → Except VideoError Unit × List UInt8
  | [], output => (.ok (), output)
  | record :: records, output =>
    match record.encode output with
    | (.ok _, output) => encodeAll records output
    | (.error e, output) => (.error e, output)

/-- Take records from the chunks of a stream as they arrive. The result has the input that is left
and the records. -/
def receive (chunks : List (List UInt8)) : Option (Framing.Drained Unit UInt8 Record) :=
  recordFraming.drainChunks () [] chunks

theorem encodeAll_of_valid {records : List Record}
    (h : ∀ record ∈ records, record.payload.length ≤ maxPayload) (output : List UInt8) :
    encodeAll records output = (.ok (), output ++ (records.flatMap Record.bytes)) := by
  induction records generalizing output with
  | nil => simp [encodeAll]
  | cons record records ih =>
    have hfirst := h record mem_cons_self
    unfold encodeAll Record.encode
    rw [if_neg (by omega)]
    dsimp only
    rw [ih (fun r hr => h r (mem_cons_of_mem _ hr)), flatMap_cons, append_assoc]

/-- The records of a stream are taken, in order. -/
theorem drain_records {records : List Record}
    (h : ∀ record ∈ records, record.payload.length ≤ maxPayload) (tail : List UInt8) :
    recordFraming.drain () (records.flatMap Record.bytes ++ tail) =
      (recordFraming.drain () tail).map (Framing.Drained.after records) := by
  induction records with
  | nil => cases hdrain : recordFraming.drain () tail <;> simp [hdrain, Framing.Drained.after]
  | cons record records ih =>
    rw [flatMap_cons, append_assoc,
      Framing.drain_of_unit (parse_bytes (h record mem_cons_self) _), drop_left,
      ih fun r hr => h r (mem_cons_of_mem _ hr), Option.map_map]
    rfl

/-- The front of a record is not enough. -/
theorem decode_front {record : Record} (h : record.payload.length ≤ maxPayload)
    {front later : List UInt8} (hrecord : record.bytes = front ++ later) (hlater : later ≠ []) :
    decode front = (.ok none, front) := by
  have hwhole := decode_bytes h []
  rw [append_nil, hrecord] at hwhole
  cases hdecode : decode front with
  | mk result rest =>
    match result, hdecode with
    | .error e, hdecode =>
      have herror := decode_error_append (congrArg Prod.fst hdecode) later
      rw [hwhole] at herror
      cases herror
    | .ok (some taken), hdecode =>
      -- a record that is taken from the front is taken from the whole
      obtain ⟨rfl, hpayload⟩ := eq_of_decode hdecode
      rw [append_assoc, decode_bytes hpayload] at hwhole
      have hnone := (Prod.mk.inj hwhole).2
      exact absurd (append_eq_nil_iff.1 hnone).2 hlater
    | .ok none, hdecode =>
      have hsame : (decode front).2 = front := decode_unchanged (by simp [hdecode])
      rw [hdecode] at hsame
      rw [← hsame]

/-- The relay accepts the headers that the decoder accepts. -/
theorem checkVideoHeader_iff {header : List UInt8} (h : header.length = headerLen)
    (body : List UInt8) :
    checkVideoHeader header = true ↔ (decode (header ++ body)).1.isOk = true := by
  unfold headerLen at h
  have hreserved : beNat (slice header 2 2) = 0 ↔ slice header 2 2 = [0, 0] := by
    constructor
    · intro hzero
      rw [← beBytes_beNat (slice header 2 2), length_slice (by omega), hzero]
      rfl
    · intro hzero
      rw [hzero]
      rfl
  have hkind := RecordType.tryFrom_isOk (header.getD 0 0)
  have haccepts : checkVideoHeader header = true ↔ slice header 2 2 = [0, 0] ∧
      ¬ maxPayload < beNat (slice header 4 4) ∧ ¬ 6 < header.getD 0 0 := by
    simp only [checkVideoHeader, maxPayload, maxVideoRecord, Bool.not_eq_true',
      Bool.or_eq_false_iff, bne_eq_false_iff_eq, decide_eq_false_iff_not, and_assoc]
    exact and_congr_right fun _ => and_congr_left fun _ => decide_eq_false_iff_not
  rw [haccepts, ← hkind, ← hreserved]
  unfold decode
  rw [if_neg (by rw [length_append, headerLen]; omega), getD_append_of_lt (by omega),
    getD_append_of_lt (by omega), slice_append (by omega), slice_append (by omega),
    slice_append (by omega)]
  cases RecordType.tryFrom (header.getD 0 0) with
  | error e => exact iff_of_false (fun h => Bool.noConfusion h.2.2) nofun
  | ok kind =>
    dsimp only
    split
    · next hnot => exact iff_of_false (fun h => hnot h.1) nofun
    · next hzero =>
      split
      · next hlarge => exact iff_of_false (fun h => h.2.1 hlarge) nofun
      · next hlarge =>
        refine iff_of_true ⟨not_not.1 hzero, hlarge, rfl⟩ ?_
        split <;> rfl

/-- The decoder gives back the records that were encoded, in order and however the stream is cut,
and leaves what it has not read. What it takes is the encoding of the record it returns, and it
takes nothing otherwise. The relay accepts the headers that the decoder accepts. -/
theorem record_codec :
    (∀ records : List Record, (∀ record ∈ records, record.payload.length ≤ maxPayload) →
      ∃ wire, encodeAll records [] = (.ok (), wire) ∧
        ∀ tail chunks, chunks.flatten = wire ++ tail → decode tail = (.ok none, tail) →
          receive chunks = some ⟨(), tail, records⟩) ∧
    (∀ (record : Record) (front later : List UInt8), record.payload.length ≤ maxPayload →
      record.encode [] = (.ok (), front ++ later) → later ≠ [] →
        decode front = (.ok none, front)) ∧
    (∀ (input rest : List UInt8) (record : Record), decode input = (.ok (some record), rest) →
      ∃ consumed, input = consumed ++ rest ∧ record.encode [] = (.ok (), consumed)) ∧
    (∀ input : List UInt8, (∀ record, (decode input).1 ≠ .ok (some record)) →
      (decode input).2 = input) ∧
    ∀ header body : List UInt8, header.length = headerLen →
      (checkVideoHeader header = true ↔ (decode (header ++ body)).1.isOk = true) := by
  have hencode : ∀ record : Record, record.payload.length ≤ maxPayload →
      record.encode [] = (.ok (), record.bytes) := by
    intro record h
    unfold Record.encode
    rw [if_neg (by omega), nil_append]
  refine ⟨fun records h => ?_, fun record front later h hwire hlater => ?_,
    fun input rest record h => ?_, fun _ => decode_unchanged,
    fun header body h => checkVideoHeader_iff h body⟩
  · refine ⟨records.flatMap Record.bytes, ?_, fun tail chunks hchunks htail => ?_⟩
    · rw [encodeAll_of_valid h, nil_append]
    · have hstop : recordFraming.parse () tail = .more := by
        simp only [recordFraming, htail]
      have hempty : recordFraming.drain () [] = some ⟨(), [], []⟩ := rfl
      unfold receive
      rw [Framing.drainChunks_eq hempty, nil_append, hchunks, drain_records h,
        Framing.drain_of_more hstop]
      simp [Framing.Drained.after]
  · rw [hencode record h] at hwire
    exact decode_front h (Prod.mk.inj hwire).2 hlater
  · obtain ⟨hinput, hpayload⟩ := eq_of_decode h
    exact ⟨record.bytes, hinput, hencode record hpayload⟩

/-- A keyframe that arrives in two chunks, with the front of the next record behind it. -/
theorem record_codec_of_keyframe :
    receive [(⟨.keyframe, 1, 42, [0, 0, 0, 1, 101]⟩ : Record).bytes.take 7,
      (⟨.keyframe, 1, 42, [0, 0, 0, 1, 101]⟩ : Record).bytes.drop 7 ++ [2, 0, 0]] =
      some ⟨(), [2, 0, 0], [⟨.keyframe, 1, 42, [0, 0, 0, 1, 101]⟩]⟩ := by
  obtain ⟨wire, hwire, hreceive⟩ :=
    record_codec.1 [⟨.keyframe, 1, 42, [0, 0, 0, 1, 101]⟩] (by decide)
  refine hreceive [2, 0, 0] _ ?_ (by decide)
  have hbytes : wire = (⟨.keyframe, 1, 42, [0, 0, 0, 1, 101]⟩ : Record).bytes := by
    rw [encodeAll_of_valid (by decide)] at hwire
    simpa using (Prod.mk.inj hwire).2.symm
  rw [hbytes]
  rfl

end MachineEmu.Display
