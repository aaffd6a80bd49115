import MachineEmu.Safety.ArchiveRecords
import Mathlib.Data.List.FinRange
import Mathlib.Data.List.Flatten

/-!
# Archives that are written again

A walk over plain headers is repeated on the archive that is written from its entries.

* `Tiles` — records with plain headers that lie one after the other.
* `recordBytes` — what is written for an entry, wherever it is written.
* `walk_written` — the walk over the records that are written.
* `readCpio_writeCpio` — the whole archive is read, and gives the entries as they were written.
-/

namespace MachineEmu.Firmware

open Lib List

variable {data : List UInt8} {start off : ℤ} {allow : Bool} {entries : List Entry} {r : Record}
  {e : Entry}

/-! ## Plain headers -/

/-- Eight digits. -/
def PlainNumeral (text : List UInt8) : Prop := text.length = 8 ∧ Python.PlainHex text

def PlainHeader (data : List UInt8) (off : ℤ) : Prop := ∀ i, PlainNumeral (fieldText data off i)

/-- The name and the data of a record lie in it, one after the other. -/
structure Inside (data : List UInt8) (start : ℤ) (r : Record) : Prop where
  begins : start ≤ r.offset
  header : r.offset < r.nameStart
  name : r.nameStart < r.nameEnd
  payload : r.nameEnd ≤ r.payload start
  length : 0 ≤ r.length
  next : r.payload start + r.length ≤ r.next start
  archive : r.next start ≤ data.length

/-- Records tile what is between two positions. -/
structure Tiles (data : List UInt8) (start : ℤ) (records : List Record) (stop : ℤ) : Prop where
  lined : Lined Record.offset (Record.next start) start records stop
  disjoint : records.Pairwise fun a b => a.next start ≤ b.offset
  inside : ∀ r ∈ records, Inside data start r
  plain : ∀ r ∈ records, PlainHeader data r.offset

theorem HeaderAt.field_range {fields : Fin 13 → ℤ} (h : HeaderAt data off fields)
    (hplain : PlainHeader data off) (i : Fin 13) : 0 ≤ fields i ∧ fields i < 2 ^ 32 := by
  obtain ⟨hlength, hdigits⟩ := hplain i
  have hne : fieldText data off i ≠ [] := by
    intro hnil
    rw [hnil] at hlength
    cases hlength
  have hvalue := Python.parseHex_plain hdigits hne
  rw [h.numerals i] at hvalue
  have hlt := Python.hexNumber_lt (fieldText data off i)
  rw [hlength] at hlt
  rw [Option.some.inj hvalue]
  constructor
  · exact Int.natCast_nonneg _
  · exact_mod_cast hlt

theorem RecordAt.in_place (h : RecordAt data start r) (hplain : PlainHeader data r.offset)
    (hbegins : start ≤ r.offset) : Inside data start r := by
  have hlength := (h.field_range hplain 6).1
  have hnonempty := h.nonempty
  have hbounded := h.bounded
  refine ⟨hbegins, ?_, ?_, ?_, hlength, ?_, hbounded⟩
  · unfold Record.nameStart
    omega
  · unfold Record.nameEnd Record.nameLength
    omega
  · unfold Record.payload align
    omega
  · unfold Record.next align
    omega

/-- The next record of one in the archive is behind it. -/
theorem RecordAt.offset_le_next (h : RecordAt data start r) (hplain : PlainHeader data r.offset) :
    r.offset ≤ r.next start := by
  have hlength : 0 ≤ r.length := (h.field_range hplain 6).1
  have hnonempty : 1 ≤ r.nameLength := h.nonempty
  unfold Record.next Record.payload Record.nameEnd Record.nameStart align
  omega

/-! ## What is written -/

/-- An entry as it is written. -/
def Entry.written (e : Entry) : Entry := { e with fields := e.writtenFields }

/-- An entry that can be written: its numbers have room in a header, and its name is a path. -/
structure Writable (e : Entry) : Prop where
  fields : ∀ i, 0 ≤ e.fields i ∧ e.fields i < 2 ^ 32
  data : e.data.length < 2 ^ 32
  name : guestPath e.name = .ok e.name
  nameLength : (utf8 e.name).length + 1 ≤ 4096

/-- What is written for an entry. -/
def recordBytes (e : Entry) : List UInt8 := pad (pad (e.header ++ (utf8 e.name ++ [0])) ++ e.data)

theorem pad_append {output : List UInt8} (h : output.length % 4 = 0) (more : List UInt8) :
    pad (output ++ more) = output ++ pad more := by
  have hmod : (output ++ more).length % 4 = more.length % 4 := by
    rw [length_append]
    omega
  rw [pad, pad, hmod, append_assoc]

theorem length_pad (output : List UInt8) : ((pad output).length : ℤ) = align output.length := by
  rw [pad, length_append, length_replicate, align]
  omega

theorem length_pad_mod (output : List UInt8) : (pad output).length % 4 = 0 := by
  rw [pad, length_append, length_replicate]
  omega

theorem writeEntry_eq {output : List UInt8} (h : output.length % 4 = 0) (e : Entry) :
    writeEntry output e = output ++ recordBytes e := by
  rw [writeEntry, append_assoc, pad_append h, append_assoc, pad_append h, recordBytes]

theorem length_recordBytes_mod (e : Entry) : (recordBytes e).length % 4 = 0 := length_pad_mod _

theorem length_flatMap_recordBytes_mod (entries : List Entry) :
    (entries.flatMap recordBytes).length % 4 = 0 := by
  induction entries with
  | nil => rfl
  | cons e entries ih =>
    have he := length_recordBytes_mod e
    rw [flatMap_cons, length_append]
    omega

theorem foldl_writeEntry {output : List UInt8} (h : output.length % 4 = 0) (entries : List Entry) :
    entries.foldl writeEntry output = output ++ entries.flatMap recordBytes := by
  induction entries generalizing output with
  | nil => simp
  | cons e entries ih =>
    have he := length_recordBytes_mod e
    rw [foldl_cons, writeEntry_eq h, ih, flatMap_cons, append_assoc]
    rw [length_append]
    omega

theorem writeCpio_eq (entries : List Entry) :
    writeCpio entries = entries.flatMap recordBytes ++ recordBytes trailer := by
  rw [writeCpio, foldl_writeEntry rfl, nil_append, flatMap_append, flatMap_singleton]

section Header

/-- One of the pieces of a text whose pieces are of one length. -/
theorem exists_flatMap_finRange {α : Type} {n k : ℕ} (f : Fin n → List α)
    (hf : ∀ i, (f i).length = k) (i : Fin n) :
    ∃ front back, (List.finRange n).flatMap f = front ++ (f i ++ back) ∧
      front.length = k * i := by
  refine ⟨((List.finRange n).take i).flatMap f, ((List.finRange n).drop (i + 1)).flatMap f, ?_, ?_⟩
  · have hlength : i.val < (List.finRange n).length := by
      rw [length_finRange]
      exact i.isLt
    conv_lhs => rw [← take_append_drop i (List.finRange n), drop_eq_getElem_cons hlength]
    rw [flatMap_append, flatMap_cons, getElem_finRange]
    rfl
  · rw [length_flatMap, map_congr_left (g := fun _ => k) (fun a _ => hf a),
      map_const', sum_replicate_nat, length_take, length_finRange,
      min_eq_left (Nat.le_of_lt i.isLt), Nat.mul_comm]

variable (h : Writable e)

include h

theorem Writable.writtenFields_range (i : Fin 13) :
    0 ≤ e.writtenFields i ∧ e.writtenFields i < 16 ^ 8 := by
  have hdata := h.data
  have hname := h.nameLength
  have hfield := h.fields i
  unfold Entry.writtenFields
  split
  · omega
  · split
    · omega
    · split <;> omega

theorem Writable.length_field (i : Fin 13) :
    (Python.formatHex 8 (e.writtenFields i)).length = 8 :=
  Python.length_formatHex (h.writtenFields_range i).1 (h.writtenFields_range i).2 (by decide)

theorem Writable.length_header : e.header.length = 110 := by
  rw [Entry.header, length_append, length_flatMap,
    map_congr_left (g := fun _ => 8) (fun i _ => h.length_field i)]
  rfl

end Header

/-! ## What is written is read -/

/-- A part of a text, where the text is put together. -/
theorem slice_eq (pre mid post : List UInt8) {first last : ℤ} (hdata : data = pre ++ (mid ++ post))
    (hfirst : first = pre.length) (hlast : last = pre.length + mid.length) :
    Python.slice data first last = mid := by
  have hstop : pre.length + mid.length ≤ data.length := by
    rw [hdata, length_append, length_append]
    omega
  have hcast : last = ((pre.length + mid.length : ℕ) : ℤ) := by
    rw [hlast]
    push_cast
    rfl
  rw [hfirst, hcast, Python.slice_natCast data _ _ hstop, hdata, drop_left,
    Nat.add_sub_cancel_left, take_left]

/-- The record of an entry that is written after some bytes. -/
def writtenRecord (pre : List UInt8) (e : Entry) : Record := ⟨pre.length, e.writtenFields, e.name⟩

section Written

variable {pre post : List UInt8} (h : Writable e)

/-- What is written for an entry, part by part. -/
theorem recordBytes_eq (e : Entry) : ∃ gap gap', recordBytes e =
      magic ++ (((List.finRange 13).flatMap fun i => Python.formatHex 8 (e.writtenFields i)) ++
        (utf8 e.name ++ ([0] ++ (gap ++ (e.data ++ gap'))))) ∧
    pad (e.header ++ (utf8 e.name ++ [0])) = e.header ++ (utf8 e.name ++ [0]) ++ gap := by
  have hpad (output : List UInt8) : ∃ gap, pad output = output ++ gap := ⟨_, rfl⟩
  obtain ⟨gap, hgap⟩ := hpad (e.header ++ (utf8 e.name ++ [0]))
  obtain ⟨gap', hgap'⟩ := hpad (pad (e.header ++ (utf8 e.name ++ [0])) ++ e.data)
  refine ⟨gap, gap', ?_, hgap⟩
  rw [recordBytes, hgap', hgap, Entry.header]
  simp only [append_assoc]

include h

theorem Writable.length_front : (e.header ++ (utf8 e.name ++ [0])).length =
    110 + ((utf8 e.name).length + 1) := by
  rw [length_append, h.length_header, length_append, length_singleton]

/-- How long what is written is. -/
theorem Writable.length_recordBytes : ((recordBytes e).length : ℤ) =
    align (align (110 + ((utf8 e.name).length + 1)) + e.data.length) := by
  have hfront := h.length_front
  rw [recordBytes, length_pad, length_append, Nat.cast_add, length_pad, hfront]
  push_cast
  rfl

/-- The fields of a written record. -/
theorem Writable.fieldText (i : Fin 13) :
    fieldText (pre ++ (recordBytes e ++ post)) pre.length i =
      Python.formatHex 8 (e.writtenFields i) := by
  obtain ⟨gap, gap', hbytes, -⟩ := recordBytes_eq e
  obtain ⟨front, back, hsplit, hfront⟩ := exists_flatMap_finRange _ h.length_field i
  rw [Firmware.fieldText]
  refine slice_eq (pre ++ (magic ++ front)) _ (back ++ (utf8 e.name ++ ([0] ++
    (gap ++ (e.data ++ gap'))) ++ post)) ?_ ?_ ?_
  · rw [hbytes, hsplit]
    simp only [append_assoc]
  · rw [length_append, length_append, hfront]
    push_cast [magic, length_cons, length_nil]
    omega
  · rw [h.length_field, length_append, length_append, hfront]
    push_cast [magic, length_cons, length_nil]
    omega

/-- The name of a written record. -/
theorem Writable.rawName :
    rawName (pre ++ (recordBytes e ++ post)) pre.length e.writtenFields = utf8 e.name := by
  obtain ⟨gap, gap', hbytes, -⟩ := recordBytes_eq e
  have hheader := h.length_header
  rw [Firmware.rawName]
  refine slice_eq (pre ++ e.header) _ ([0] ++ (gap ++ (e.data ++ gap')) ++ post) ?_ ?_ ?_
  · rw [hbytes, Entry.header]
    simp only [append_assoc]
  · rw [length_append, hheader]
    push_cast
    omega
  · have hlength : e.writtenFields 11 = (utf8 e.name).length + 1 := rfl
    rw [length_append, hheader, hlength]
    push_cast
    omega

/-- The zero after the name of a written record. -/
theorem Writable.item : Python.item (pre ++ (recordBytes e ++ post))
    (pre.length + 110 + e.writtenFields 11 - 1) = some 0 := by
  obtain ⟨gap, gap', hbytes, -⟩ := recordBytes_eq e
  have hposition : (pre.length : ℤ) + 110 + e.writtenFields 11 - 1 =
      ((pre ++ (e.header ++ utf8 e.name)).length : ℕ) := by
    have hlength : e.writtenFields 11 = (utf8 e.name).length + 1 := rfl
    rw [length_append, length_append, h.length_header, hlength]
    push_cast
    omega
  have hdata : pre ++ (recordBytes e ++ post) =
      (pre ++ (e.header ++ utf8 e.name)) ++ (0 :: (gap ++ (e.data ++ gap') ++ post)) := by
    rw [hbytes, Entry.header]
    simp only [append_assoc, cons_append, nil_append]
  rw [hposition, Python.item_natCast, hdata, List.getElem?_append_right (Nat.le_refl _),
    Nat.sub_self, List.getElem?_cons_zero]

section Aligned

variable (hpre : pre.length % 4 = 0)

include hpre

omit h in
theorem payload_writtenRecord : (writtenRecord pre e).payload 0 =
    pre.length + align (110 + ((utf8 e.name).length + 1)) := by
  have hlength : e.writtenFields 11 = (utf8 e.name).length + 1 := rfl
  simp only [Record.payload, Record.nameEnd, Record.nameStart, Record.nameLength, writtenRecord,
    hlength, align]
  omega

/-- A written record ends where what is written for its entry ends. -/
theorem Writable.next : (writtenRecord pre e).next 0 = pre.length + (recordBytes e).length := by
  have hlength : (writtenRecord pre e).length = e.data.length := rfl
  rw [Record.next, payload_writtenRecord hpre, hlength, h.length_recordBytes]
  unfold align
  omega

/-- The entry of a written record is the entry as it is written. -/
theorem Writable.entry :
    (writtenRecord pre e).entry 0 (pre ++ (recordBytes e ++ post)) = e.written := by
  obtain ⟨gap, gap', hbytes, hgap⟩ := recordBytes_eq e
  have hfront := congrArg List.length hgap
  have hpadded := length_pad (e.header ++ (utf8 e.name ++ [0]))
  rw [hgap, h.length_front] at hpadded
  have hdata : Python.slice (pre ++ (recordBytes e ++ post)) ((writtenRecord pre e).payload 0)
      ((writtenRecord pre e).payload 0 + (writtenRecord pre e).length) = e.data := by
    have hlength : (writtenRecord pre e).length = e.data.length := rfl
    have hstart : ((pre ++ (e.header ++ (utf8 e.name ++ [0]) ++ gap)).length : ℤ) =
        pre.length + align (110 + ((utf8 e.name).length + 1)) := by
      rw [length_append, Nat.cast_add, hpadded]
      push_cast
      rfl
    refine slice_eq (pre ++ (e.header ++ (utf8 e.name ++ [0]) ++ gap)) _ (gap' ++ post) ?_ ?_ ?_
    · rw [hbytes, Entry.header]
      simp only [append_assoc]
    · rw [hstart, payload_writtenRecord hpre]
    · rw [hstart, payload_writtenRecord hpre, hlength]
  rw [Record.entry, hdata]
  rfl

/-- A written record is read. -/
theorem Writable.recordAt
    (hlimited : (pre.length : ℤ) + (recordBytes e).length ≤ maxPayload) :
    RecordAt (pre ++ (recordBytes e ++ post)) 0 (writtenRecord pre e) where
  magic := by
    obtain ⟨gap, gap', hbytes, -⟩ := recordBytes_eq e
    rw [hbytes, append_assoc]
    exact slice_eq pre _ _ rfl rfl rfl
  room := by
    have hle : 110 ≤ (recordBytes e).length := by
      have hlength := h.length_recordBytes
      unfold align at hlength
      omega
    simp only [writtenRecord, length_append]
    omega
  numerals i := by
    have hrange := h.writtenFields_range i
    rw [writtenRecord, h.fieldText i, Python.parseHex_formatHex hrange.1 hrange.2 (by decide)]
  nonempty := by
    have hlength : (writtenRecord pre e).fields 11 = (utf8 e.name).length + 1 := rfl
    omega
  short := by
    have hlength : (writtenRecord pre e).fields 11 = (utf8 e.name).length + 1 := rfl
    have hname := h.nameLength
    omega
  inside := by
    have hlength : (writtenRecord pre e).fields 11 = (utf8 e.name).length + 1 := rfl
    have hoffset : (writtenRecord pre e).offset = pre.length := rfl
    have hbytes := h.length_recordBytes
    unfold align at hbytes
    rw [hlength, hoffset, length_append, length_append]
    omega
  terminated := h.item
  named := ⟨e.name, by rw [writtenRecord, h.rawName, Utf8.decode_eq_some_iff], h.name⟩
  bounded := by
    rw [h.next hpre, length_append, length_append]
    omega
  limited := by
    rw [h.next hpre]
    omega

end Aligned

end Written

/-! ## An entry as it is written is admitted -/

theorem seen_written (entries : List Entry) (name : List Char) :
    seen (entries.map Entry.written) name = (seen entries name).map Entry.written := by
  rw [seen, ← map_reverse, List.find?_map]
  rfl

/-- No check looks at a field that is written anew. -/
theorem Admitted.written (h : Admitted allow entries e) :
    Admitted allow (entries.map Entry.written) e.written where
  repeats old hold := by
    rw [show e.written.name = e.name from rfl, seen_written, Option.map_eq_some_iff] at hold
    obtain ⟨old, hold, rfl⟩ := hold
    exact h.repeats old hold
  mode := h.mode
  repeatable hseen := by
    rw [show e.written.name = e.name from rfl, seen_written, Option.isSome_map] at hseen
    exact h.repeatable hseen
  readable := h.readable
  stays := h.stays

theorem writable_trailer : Writable trailer where
  fields _ := ⟨Int.le_refl 0, (by decide : (0 : ℤ) < 2 ^ 32)⟩
  data := by decide
  name := by decide
  nameLength := by decide

/-! ## The records of an archive are written -/

theorem local_of_guestPath {name path : List Char} (h : guestPath name = .ok path) :
    PosixPath.Local name ∧ '\x00' ∉ name ∧ path = PosixPath.normpath name := by
  unfold guestPath at h
  split at h
  · cases h
  · next hsafe =>
    rw [not_or, not_or] at hsafe
    exact ⟨⟨hsafe.1, hsafe.2.1⟩, hsafe.2.2, (Except.ok.inj h).symm⟩

/-- The path of a name is its own path. -/
theorem guestPath_idem {name path : List Char} (h : guestPath name = .ok path) :
    guestPath path = .ok path := by
  obtain ⟨hlocal, hzero, rfl⟩ := local_of_guestPath h
  have hsafe : '\x00' ∉ PosixPath.normpath name := by
    rcases PosixPath.normpath_sublist hlocal with hdot | hsub
    · rw [hdot]
      decide
    · exact fun hmem => hzero (hsub.subset hmem)
  rw [guestPath, if_neg, PosixPath.normpath_normpath hlocal]
  rw [not_or, not_or]
  exact ⟨hlocal.normpath.relative, hlocal.normpath.inside, hsafe⟩

theorem length_utf8_le {name path : List Char} (h : guestPath name = .ok path) :
    (utf8 path).length ≤ 1 ∨ (utf8 path).length ≤ (utf8 name).length := by
  obtain ⟨hlocal, -, rfl⟩ := local_of_guestPath h
  rcases PosixPath.normpath_sublist hlocal with hdot | hsub
  · left
    rw [hdot]
    decide
  · exact Or.inr (hsub.flatMap String.utf8EncodeChar).length_le

theorem length_slice_le (data : List UInt8) {first last : ℤ} (h : first ≤ last) :
    ((Python.slice data first last).length : ℤ) ≤ last - first := by
  rw [Python.length_slice]
  unfold Python.clip
  split <;> split <;> omega

section Records

variable (h : RecordAt data start r) (hplain : PlainHeader data r.offset)

include h

/-- The name of a record has room for its path. -/
theorem RecordAt.length_name :
    ((utf8 r.name).length : ℤ) + 1 ≤ 2 ∨ ((utf8 r.name).length : ℤ) + 1 ≤ r.nameLength := by
  obtain ⟨name, hraw, hname⟩ := h.named
  have hnonempty : 1 ≤ r.nameLength := h.nonempty
  have hfield : r.nameLength = r.fields 11 := rfl
  have hlength : ((rawName data r.offset r.fields).length : ℤ) ≤
      r.offset + 110 + r.fields 11 - 1 - (r.offset + 110) := length_slice_le data (by omega)
  rw [Utf8.decode_eq_some_iff.1 hraw] at hlength
  rcases length_utf8_le hname with hle | hle <;> omega

include hplain

theorem RecordAt.length_data : ((r.entry start data).data.length : ℤ) ≤ r.length := by
  have hlength : 0 ≤ r.length := (h.field_range hplain 6).1
  have hslice : ((r.entry start data).data.length : ℤ) ≤
      r.payload start + r.length - r.payload start := length_slice_le data (by omega)
  omega

/-- An entry that is read from a plain header can be written. -/
theorem RecordAt.writable : Writable (r.entry start data) where
  fields := h.field_range hplain
  data := by
    have hdata := h.length_data hplain
    have hlength : r.length < 2 ^ 32 := (h.field_range hplain 6).2
    omega
  name := by
    obtain ⟨name, -, hname⟩ := h.named
    exact guestPath_idem hname
  nameLength := by
    have hname := h.length_name
    have hshort : r.nameLength ≤ 4096 := h.short
    have hpath : (r.entry start data).name = r.name := rfl
    rw [hpath]
    omega

/-- What is written for a record is not longer than the record. -/
theorem RecordAt.length_recordBytes (haligned : (r.offset - start) % 4 = 0) :
    ((recordBytes (r.entry start data)).length : ℤ) ≤ r.next start - r.offset := by
  have hname := h.length_name
  have hdata := h.length_data hplain
  have hnonempty : 1 ≤ r.nameLength := h.nonempty
  rw [(h.writable hplain).length_recordBytes]
  have hpath : (r.entry start data).name = r.name := rfl
  rw [hpath]
  unfold Record.next Record.payload Record.nameEnd Record.nameStart align
  omega

end Records

section Walks

variable {records : List Record}

theorem Walk.aligned (h : Walk data start allow records off) : (off - start) % 4 = 0 := by
  cases h with
  | start => simp
  | next =>
    unfold Record.next align
    omega

/-- What is written for some records is not longer than the records. -/
theorem Walk.length_written (h : Walk data start allow records off)
    (hplain : ∀ r ∈ records, PlainHeader data r.offset) :
    (((entriesOf data start records).flatMap recordBytes).length : ℤ) ≤ off - start := by
  induction h with
  | start => simp [entriesOf]
  | @next records r hwalk _ record _ _ ih =>
    have hr : PlainHeader data r.offset := hplain r (by simp)
    have hlength := record.length_recordBytes hr hwalk.aligned
    have hih := ih fun r hr => hplain r (mem_append_left _ hr)
    rw [entriesOf, map_append, map_singleton, flatMap_append, flatMap_singleton,
      length_append, ← entriesOf]
    push_cast
    omega

/-- The walk over what is written for some records. -/
theorem Walk.written (h : Walk data start allow records off)
    (hplain : ∀ r ∈ records, PlainHeader data r.offset) (post : List UInt8) :
    ∃ written : List Record, written.length = records.length ∧
      entriesOf ((entriesOf data start records).flatMap recordBytes ++ post) 0 written =
        (entriesOf data start records).map Entry.written ∧
      Walk ((entriesOf data start records).flatMap recordBytes ++ post) 0 allow written
        ((entriesOf data start records).flatMap recordBytes).length := by
  induction h generalizing post with
  | start => exact ⟨[], rfl, rfl, Walk.start⟩
  | @next records r hwalk room record name admitted ih =>
    have hr : PlainHeader data r.offset := hplain r (by simp)
    have hrecords : ∀ r ∈ records, PlainHeader data r.offset :=
      fun r hr => hplain r (mem_append_left _ hr)
    have hwritable := record.writable hr
    obtain ⟨written, hlength, hentries, hwritten⟩ :=
      ih hrecords (recordBytes (r.entry start data) ++ post)
    have hbytes : (entriesOf data start (records ++ [r])).flatMap recordBytes ++ post =
        (entriesOf data start records).flatMap recordBytes ++
          (recordBytes (r.entry start data) ++ post) := by
      simp [entriesOf]
    have hmod := length_flatMap_recordBytes_mod (entriesOf data start records)
    have hsize := hwalk.length_written hrecords
    have hfits := record.length_recordBytes hr hwalk.aligned
    have hlimited := record.limited
    have hrecord := @Writable.recordAt _ _ post hwritable hmod (by omega)
    have hentry := @Writable.entry _ _ post hwritable hmod
    have hnext := hwritable.next hmod
    rw [hbytes]
    refine ⟨written ++ [writtenRecord ((entriesOf data start records).flatMap recordBytes)
      (r.entry start data)], ?_, ?_, ?_⟩
    · rw [length_append, length_append, hlength, length_singleton, length_singleton]
    · rw [entriesOf, map_append, ← entriesOf, hentries, map_singleton, hentry, entriesOf,
        entriesOf, map_append, map_append, map_singleton, map_singleton]
    · have hadmitted := admitted.written
      rw [← hentries, ← hentry] at hadmitted
      have hstep := hwritten.next (by omega) hrecord name hadmitted
      rw [hnext] at hstep
      simpa [entriesOf] using hstep

/-- The trailer of what is written. -/
theorem trailerAt_written {pre : List UInt8} (hmod : pre.length % 4 = 0)
    (hlimited : (pre.length : ℤ) + (recordBytes trailer).length ≤ maxPayload) :
    TrailerAt (pre ++ recordBytes trailer) 0 (writtenRecord pre trailer) := by
  have hrecord := @Writable.recordAt _ _ [] writable_trailer hmod hlimited
  rw [append_nil] at hrecord
  exact { hrecord with trailer := rfl, empty := rfl }

/-- An archive with plain headers is read again as it is written from its entries. -/
theorem readCpio_writeCpio (h : Walk data start allow records r.offset)
    (room : records.length < maxEntries) (htrailer : TrailerAt data start r)
    (hplain : ∀ r' ∈ records ++ [r], PlainHeader data r'.offset) :
    readCpio (writeCpio (entriesOf data start records)) 0 allow =
      .ok ((entriesOf data start records).map Entry.written,
        (writeCpio (entriesOf data start records)).length) := by
  have hrecords : ∀ r ∈ records, PlainHeader data r.offset :=
    fun r hr => hplain r (mem_append_left _ hr)
  have hr : PlainHeader data r.offset := hplain r (by simp)
  have hmod := length_flatMap_recordBytes_mod (entriesOf data start records)
  -- what is written for the trailer is not longer than the trailer that was read
  have hsize := h.length_written hrecords
  have hfits : ((recordBytes trailer).length : ℤ) ≤ r.next start - r.offset := by
    have hbytes := htrailer.length_recordBytes hr h.aligned
    have hname : (r.entry start data).name = trailerName := htrailer.trailer
    rw [(htrailer.writable hr).length_recordBytes, hname] at hbytes
    have hlength := writable_trailer.length_recordBytes
    rw [show trailer.name = trailerName from rfl, show trailer.data.length = 0 from rfl] at hlength
    unfold align at hbytes hlength
    omega
  have hlimited := htrailer.limited
  obtain ⟨written, hlength, hentries, hwritten⟩ := h.written hrecords (recordBytes trailer)
  have hend := trailerAt_written hmod (by omega)
  rw [writeCpio_eq, readCpio_of_trailerAt hwritten (by omega) hend, hentries,
    writable_trailer.next hmod, length_append, Nat.cast_add]

end Walks

end MachineEmu.Firmware
