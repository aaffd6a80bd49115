import MachineEmu.Firmware.Cpio
import MachineEmu.Lib.Spans

/-!
# The records of an archive

What the reader of newc archives finds at a position, and which records it passes on its way.

* `HeaderAt`, `RecordAt` — a header whose name is in the archive, and a record that is in it.
* `Admitted` — an entry that may follow those before it.
* `Walk` — the records that are passed, and the position after them.
* `FaultAt` — where another error than `FirmwareError` is raised.
* `readRecord_eq_ok_iff`, `readRecord_eq_error` — what is read at a position.
* `check_spec` — which entries are admitted.
* `readCpio_cases` — how a read ends.
-/

namespace MachineEmu.Firmware

open Lib List

def Failure.IsFirmware (failure : Failure) : Prop := ∃ message, failure = .firmware message

variable {data : List UInt8} {start off : ℤ} {allow : Bool} {entries : List Entry} {r : Record}
  {failure : Failure}

/-- There is a header at a position, and its name is in the archive. -/
structure HeaderAt (data : List UInt8) (off : ℤ) (fields : Fin 13 → ℤ) : Prop where
  magic : Python.slice data off (off + 6) = magic
  room : off + 110 ≤ data.length
  numerals : ∀ i, Python.parseHex (fieldText data off i) = some (fields i)
  nonempty : 1 ≤ fields 11
  short : fields 11 ≤ 4096
  inside : off + 110 + fields 11 ≤ data.length
  terminated : Python.item data (off + 110 + fields 11 - 1) = some 0

/-- There is a record at a position. Its name is a path, and its data is in the archive. -/
structure RecordAt (data : List UInt8) (start : ℤ) (r : Record) : Prop
    extends HeaderAt data r.offset r.fields where
  named : ∃ name, Utf8.decode (rawName data r.offset r.fields) = some name ∧
    guestPath name = .ok r.name
  bounded : r.next start ≤ data.length
  limited : r.next start - start ≤ maxPayload

/-! ## One record -/

variable {fields : Fin 13 → ℤ}

theorem readFields_eq_some_iff : readFields data off = some fields ↔
    ∀ i, Python.parseHex (fieldText data off i) = some (fields i) := by
  unfold readFields
  constructor
  · intro h i
    split at h
    · next hall =>
      obtain ⟨value, hvalue⟩ := Option.isSome_iff_exists.1 (hall i)
      obtain rfl := Option.some.inj h
      simp only [hvalue, Option.getD_some]
    · cases h
  · intro h
    rw [if_pos fun i => by rw [h i, Option.isSome_some]]
    congr 1
    funext i
    rw [h i, Option.getD_some]

/-- The byte before the end of a name is in the archive. -/
theorem item_name_isSome (hmagic : Python.slice data off (off + 6) = magic)
    (hnonempty : 1 ≤ fields 11) (hinside : off + 110 + fields 11 ≤ data.length) :
    (Python.item data (off + 110 + fields 11 - 1)).isSome := by
  have hlow : -data.length ≤ off := by
    apply Python.neg_length_le_of_length_slice (n := 6) (by decide)
    rw [Nat.cast_ofNat, hmagic]
    rfl
  exact Python.item_isSome (by omega) (by omega)

theorem guestPath_eq_error {name : List Char} (h : guestPath name = .error failure) :
    failure.IsFirmware := by
  unfold guestPath at h
  split at h
  · exact ⟨_, (Except.error.inj h).symm⟩
  · cases h

section ReadName

variable {fields : Fin 13 → ℤ}

theorem readName_of_headerAt (h : HeaderAt data off fields) : readName data off fields =
    match Utf8.decode (rawName data off fields) with
    | none => .error .unicode
    | some name => guestPath name := by
  have hbounds : ¬(¬(1 ≤ fields 11 ∧ fields 11 ≤ 4096) ∨ data.length < off + 110 + fields 11) := by
    have hnonempty := h.nonempty
    have hshort := h.short
    have hinside := h.inside
    omega
  rw [readName, if_neg hbounds, h.terminated]
  rfl

theorem readName_of_not_headerAt (hmagic : Python.slice data off (off + 6) = magic)
    (hroom : off + 110 ≤ data.length) (hfields : readFields data off = some fields)
    (h : ¬HeaderAt data off fields) :
    readName data off fields = .error (.firmware "invalid newc name") := by
  unfold readName
  split
  · rfl
  · next hbounds =>
    have hnonempty : 1 ≤ fields 11 := by omega
    have hinside : off + 110 + fields 11 ≤ data.length := by omega
    obtain ⟨b, hb⟩ := Option.isSome_iff_exists.1 (item_name_isSome hmagic hnonempty hinside)
    simp only [hb]
    rw [if_pos]
    rintro rfl
    exact h
      { magic := hmagic
        room := hroom
        numerals := readFields_eq_some_iff.1 hfields
        nonempty := hnonempty
        short := by omega
        inside := hinside
        terminated := hb }

end ReadName

theorem readRecord_of_headerAt (h : HeaderAt data off fields) :
    readRecord data start off =
      match readName data off fields with
      | .error failure => .error failure
      | .ok name =>
        if data.length < (Record.mk off fields name).next start ∨
            maxPayload < (Record.mk off fields name).next start - start then
          .error (.firmware "newc payload exceeds bounds")
        else .ok ⟨off, fields, name⟩ := by
  have hfront : ¬(Python.slice data off (off + 6) ≠ magic ∨ data.length < off + 110) := by
    have hroom := h.room
    rw [not_or, not_not]
    exact ⟨h.magic, by omega⟩
  rw [readRecord, if_neg hfront, readFields_eq_some_iff.2 h.numerals] <;> rfl

theorem readRecord_of_not_headerAt (start : ℤ) (h : ¬∃ fields, HeaderAt data off fields) :
    ∃ message, readRecord data start off = .error (.firmware message) := by
  unfold readRecord
  split
  · exact ⟨_, rfl⟩
  · next hfront =>
    rw [not_or, not_not] at hfront
    cases hfields : readFields data off with
    | none => exact ⟨_, rfl⟩
    | some fields =>
      have hname := readName_of_not_headerAt hfront.1 (by omega) hfields
        fun hheader => h ⟨fields, hheader⟩
      exact ⟨_, by simp only [hname]; rfl⟩

/-- What is read at a position is the record there. -/
theorem readRecord_eq_ok_iff :
    readRecord data start off = .ok r ↔ r.offset = off ∧ RecordAt data start r := by
  constructor
  · intro h
    by_cases hheader : ∃ fields, HeaderAt data off fields
    · obtain ⟨fields, hheader⟩ := hheader
      rw [readRecord_of_headerAt hheader, readName_of_headerAt hheader] at h
      cases hraw : Utf8.decode (rawName data off fields) with
      | none => simp [hraw] at h
      | some raw =>
        cases hname : guestPath raw with
        | error failure => simp [hraw, hname] at h
        | ok name =>
          simp only [hraw, hname] at h
          split at h
          · cases h
          · next hbounds =>
            obtain rfl := Except.ok.inj h
            refine ⟨rfl, { hheader with named := ⟨raw, hraw, hname⟩, bounded := ?_, limited := ?_ }⟩
            · omega
            · omega
    · obtain ⟨message, hmessage⟩ := readRecord_of_not_headerAt start hheader
      rw [hmessage] at h
      cases h
  · rintro ⟨rfl, h⟩
    obtain ⟨raw, hraw, hname⟩ := h.named
    have hbounded : (Record.mk r.offset r.fields r.name).next start ≤ data.length := h.bounded
    have hlimited : (Record.mk r.offset r.fields r.name).next start - start ≤ maxPayload :=
      h.limited
    rw [readRecord_of_headerAt h.toHeaderAt, readName_of_headerAt h.toHeaderAt, hraw]
    simp only [hname]
    rw [if_neg (by omega)]

/-- What is raised at a position is `FirmwareError`, but for a name that is not UTF-8. -/
theorem readRecord_eq_error (h : readRecord data start off = .error failure) :
    failure.IsFirmware ∨ failure = .unicode ∧
      ∃ fields, HeaderAt data off fields ∧ Utf8.decode (rawName data off fields) = none := by
  by_cases hheader : ∃ fields, HeaderAt data off fields
  · obtain ⟨fields, hheader⟩ := hheader
    rw [readRecord_of_headerAt hheader, readName_of_headerAt hheader] at h
    cases hraw : Utf8.decode (rawName data off fields) with
    | none =>
      simp only [hraw] at h
      exact Or.inr ⟨(Except.error.inj h).symm, fields, hheader, hraw⟩
    | some raw =>
      left
      cases hname : guestPath raw with
      | error failure' =>
        simp only [hraw, hname] at h
        exact Except.error.inj h ▸ guestPath_eq_error hname
      | ok name =>
        simp only [hraw, hname] at h
        split at h
        · exact ⟨_, (Except.error.inj h).symm⟩
        · cases h
  · obtain ⟨message, hmessage⟩ := readRecord_of_not_headerAt start hheader
    rw [hmessage] at h
    exact Or.inl ⟨message, (Except.error.inj h).symm⟩

theorem readRecord_eq_unicode (h : HeaderAt data off fields)
    (hraw : Utf8.decode (rawName data off fields) = none) :
    readRecord data start off = .error .unicode := by
  rw [readRecord_of_headerAt h, readName_of_headerAt h, hraw]

/-! ## One entry -/

/-- An entry repeats the latest one with its name: the same fields, and no data. -/
def Repeats (entries : List Entry) (entry : Entry) : Prop :=
  ∀ old, seen entries entry.name = some old → sameFields old entry = true ∧ entry.data = []

/-- The target of a link is UTF-8. -/
def Readable (entry : Entry) : Prop := (Utf8.decode (rstrip 0 entry.data)).isSome

/-- The target of a link does not go above the guest's root. -/
def LinkStays (allow : Bool) (entry : Entry) : Prop :=
  ∀ target, Utf8.decode (rstrip 0 entry.data) = some target →
    '\x00' ∉ target ∧ (allow = true ∨ staysInside entry.name target = true)

/-- Whether an entry may be a second one with its name. -/
def Repeatable (entries : List Entry) (entry : Entry) : Prop :=
  (seen entries entry.name).isSome →
    hasType sIFDIR entry.mode = true ∨ hasType sIFCHR entry.mode = true

/-- An entry may follow some others. -/
structure Admitted (allow : Bool) (entries : List Entry) (entry : Entry) : Prop where
  repeats : Repeats entries entry
  mode : IsMode entry.mode
  repeatable : Repeatable entries entry
  readable : hasType sIFLNK entry.mode = true → Readable entry
  stays : hasType sIFLNK entry.mode = true → LinkStays allow entry

/-- An entry at which another error than `FirmwareError` is raised: no check before refuses it, and
its mode is none or it is a link whose target cannot be read. -/
def Faulty (entries : List Entry) (entry : Entry) : Prop :=
  Repeats entries entry ∧ (¬IsMode entry.mode ∨
    Repeatable entries entry ∧ hasType sIFLNK entry.mode = true ∧ ¬Readable entry)

/-- The two checks of an entry. -/
def check (allow : Bool) (entries : List Entry) (entry : Entry) : Except Failure Unit :=
  match checkDuplicate entries entry with
  | .error failure => .error failure
  | .ok () => checkLink allow entry

theorem Failure.not_isFirmware_unicode : ¬Failure.unicode.IsFirmware := nofun

theorem Failure.not_isFirmware_overflow : ¬Failure.overflow.IsFirmware := nofun

section Entries

variable {entry : Entry}

theorem isType_of_isMode {mode : ℤ} (h : IsMode mode) (type : ℕ) :
    isType type mode = .ok (hasType type mode) := if_pos h

theorem isType_of_not_isMode {mode : ℤ} (h : ¬IsMode mode) (type : ℕ) :
    isType type mode = .error .overflow := if_neg h

theorem checkDuplicate_of_not_repeats (h : ¬Repeats entries entry) :
    checkDuplicate entries entry = .error (.firmware "conflicting duplicate archive path") := by
  unfold Repeats at h
  push Not at h
  obtain ⟨old, hold, hdiffers⟩ := h
  simp only [checkDuplicate, hold]
  rw [if_pos]
  by_cases hsame : sameFields old entry = true
  · exact Or.inr (hdiffers hsame)
  · exact Or.inl (by simpa using hsame)

theorem checkDuplicate_of_seen_eq_none (h : seen entries entry.name = none) :
    checkDuplicate entries entry = .ok () := by
  simp only [checkDuplicate, h]

/-- Past the comparison with the latest entry, the type decides. -/
theorem checkDuplicate_of_repeats {old : Entry} (h : Repeats entries entry)
    (hold : seen entries entry.name = some old) (hmode : IsMode entry.mode) :
    checkDuplicate entries entry =
      if hasType sIFDIR entry.mode = true ∨ hasType sIFCHR entry.mode = true then .ok ()
      else .error (.firmware "conflicting duplicate archive path") := by
  obtain ⟨hsame, hdata⟩ := h old hold
  simp only [checkDuplicate, hold]
  rw [if_neg (by simp [hsame, hdata]), isType_of_isMode hmode, isType_of_isMode hmode]
  cases hasType sIFDIR entry.mode <;> cases hasType sIFCHR entry.mode <;> rfl

theorem checkDuplicate_of_not_isMode {old : Entry} (h : Repeats entries entry)
    (hold : seen entries entry.name = some old) (hmode : ¬IsMode entry.mode) :
    checkDuplicate entries entry = .error .overflow := by
  obtain ⟨hsame, hdata⟩ := h old hold
  simp only [checkDuplicate, hold]
  rw [if_neg (by simp [hsame, hdata]), isType_of_not_isMode hmode]

theorem checkLink_of_not_isMode (hmode : ¬IsMode entry.mode) :
    checkLink allow entry = .error .overflow := by
  rw [checkLink, isType_of_not_isMode hmode]

theorem checkLink_of_not_link (hmode : IsMode entry.mode)
    (hlink : hasType sIFLNK entry.mode = false) : checkLink allow entry = .ok () := by
  rw [checkLink, isType_of_isMode hmode, hlink]

theorem checkLink_of_link (hmode : IsMode entry.mode) (hlink : hasType sIFLNK entry.mode = true) :
    checkLink allow entry =
      match Utf8.decode (rstrip 0 entry.data) with
      | none => .error .unicode
      | some target =>
        if '\x00' ∈ target ∨ (allow = false ∧ staysInside entry.name target = false) then
          .error (.firmware "archive link escapes guest root")
        else .ok () := by
  rw [checkLink, isType_of_isMode hmode, hlink] <;> rfl

/-- With a mode, a duplicate is refused with `FirmwareError`. -/
theorem checkDuplicate_cases (hmode : IsMode entry.mode) :
    Repeats entries entry ∧ Repeatable entries entry ∧ checkDuplicate entries entry = .ok () ∨
      ¬(Repeats entries entry ∧ Repeatable entries entry) ∧
        ∃ message, checkDuplicate entries entry = .error (.firmware message) := by
  by_cases hrepeats : Repeats entries entry
  · cases hold : seen entries entry.name with
    | none =>
      refine Or.inl ⟨hrepeats, fun hseen => ?_, checkDuplicate_of_seen_eq_none hold⟩
      rw [hold] at hseen
      cases hseen
    | some old =>
      rw [checkDuplicate_of_repeats hrepeats hold hmode]
      split
      · next htype => exact Or.inl ⟨hrepeats, fun _ => htype, rfl⟩
      · next htype =>
        refine Or.inr ⟨fun h => htype (h.2 ?_), _, rfl⟩
        rw [hold, Option.isSome_some]
  · exact Or.inr ⟨fun h => hrepeats h.1, _, checkDuplicate_of_not_repeats hrepeats⟩

theorem checkLink_cases (hmode : IsMode entry.mode) (hlink : hasType sIFLNK entry.mode = true) :
    ¬Readable entry ∧ checkLink allow entry = .error .unicode ∨
      Readable entry ∧ LinkStays allow entry ∧ checkLink allow entry = .ok () ∨
      Readable entry ∧ ¬LinkStays allow entry ∧
        ∃ message, checkLink allow entry = .error (.firmware message) := by
  rw [checkLink_of_link hmode hlink]
  cases htarget : Utf8.decode (rstrip 0 entry.data) with
  | none => exact Or.inl ⟨by simp [Readable, htarget], rfl⟩
  | some target =>
    have hreadable : Readable entry := by simp [Readable, htarget]
    have hstays : LinkStays allow entry ↔
        ¬('\x00' ∈ target ∨ (allow = false ∧ staysInside entry.name target = false)) := by
      simp only [LinkStays, htarget, Option.some.injEq, forall_eq']
      cases allow <;> simp
    simp only
    right
    split
    · next hrefused => exact Or.inr ⟨hreadable, fun h => hstays.1 h hrefused, _, rfl⟩
    · next hstay => exact Or.inl ⟨hreadable, hstays.2 hstay, rfl⟩

/-- What the checks of an entry give. -/
theorem check_spec :
    Admitted allow entries entry ∧ check allow entries entry = .ok () ∨
      ¬Admitted allow entries entry ∧ ∃ failure, check allow entries entry = .error failure ∧
        (failure.IsFirmware ↔ ¬Faulty entries entry) := by
  by_cases hmode : IsMode entry.mode
  · rcases @checkDuplicate_cases entries entry hmode with
      ⟨hrepeats, hrepeatable, hok⟩ | ⟨hnot, message, herror⟩
    · have hcheck : check allow entries entry = checkLink allow entry := by rw [check, hok]
      rw [hcheck]
      by_cases hlink : hasType sIFLNK entry.mode = true
      · rcases @checkLink_cases allow entry hmode hlink with
          ⟨hunread, hfails⟩ | ⟨hread, hstays, hok⟩ | ⟨hread, hleaves, message, hfails⟩
        · refine Or.inr ⟨fun h => hunread (h.readable hlink), _, hfails, ?_⟩
          refine iff_of_false Failure.not_isFirmware_unicode (not_not.2 ⟨hrepeats, Or.inr ?_⟩)
          exact ⟨hrepeatable, hlink, hunread⟩
        · exact Or.inl ⟨⟨hrepeats, hmode, hrepeatable, fun _ => hread, fun _ => hstays⟩, hok⟩
        · refine Or.inr ⟨fun h => hleaves (h.stays hlink), _, hfails, ?_⟩
          exact iff_of_true ⟨message, rfl⟩ fun h => h.2.elim (· hmode) fun h => h.2.2 hread
      · refine Or.inl ⟨⟨hrepeats, hmode, hrepeatable, ?_, ?_⟩, ?_⟩
        · exact fun h => absurd h hlink
        · exact fun h => absurd h hlink
        · exact checkLink_of_not_link hmode (by simpa using hlink)
    · refine Or.inr ⟨fun h => hnot ⟨h.repeats, h.repeatable⟩, _, by rw [check, herror], ?_⟩
      exact iff_of_true ⟨message, rfl⟩ fun h => h.2.elim (· hmode) fun h' => hnot ⟨h.1, h'.1⟩
  · refine Or.inr ⟨fun h => hmode h.mode, ?_⟩
    by_cases hrepeats : Repeats entries entry
    · refine ⟨.overflow, ?_, ?_⟩
      · cases hold : seen entries entry.name with
        | none => rw [check, checkDuplicate_of_seen_eq_none hold, checkLink_of_not_isMode hmode]
        | some old => rw [check, checkDuplicate_of_not_isMode hrepeats hold hmode]
      · exact iff_of_false Failure.not_isFirmware_overflow (not_not.2 ⟨hrepeats, Or.inl hmode⟩)
    · refine ⟨_, by rw [check, checkDuplicate_of_not_repeats hrepeats], ?_⟩
      exact iff_of_true ⟨_, rfl⟩ fun h => hrepeats h.1

end Entries

/-! ## The records on the way -/

/-- The entries of some records. -/
def entriesOf (data : List UInt8) (start : ℤ) (records : List Record) : List Entry :=
  records.map (Record.entry start · data)

/-- The records that are passed, and the position after them. -/
inductive Walk (data : List UInt8) (start : ℤ) (allow : Bool) : List Record → ℤ → Prop
  | start : Walk data start allow [] start
  | next {records : List Record} {r : Record} (h : Walk data start allow records r.offset)
      (room : records.length < maxEntries) (record : RecordAt data start r)
      (name : r.name ≠ trailerName)
      (admitted : Admitted allow (entriesOf data start records) (r.entry start data)) :
      Walk data start allow (records ++ [r]) (r.next start)

/-- Another error than `FirmwareError` is raised at a position: at a name that is not UTF-8, or at an
entry. -/
def FaultAt (data : List UInt8) (start : ℤ) (records : List Record) (off : ℤ) : Prop :=
  (∃ fields, HeaderAt data off fields ∧ Utf8.decode (rawName data off fields) = none) ∨
    ∃ r : Record, r.offset = off ∧ RecordAt data start r ∧ r.name ≠ trailerName ∧
      Faulty (entriesOf data start records) (r.entry start data)

/-- The trailer of an archive. -/
structure TrailerAt (data : List UInt8) (start : ℤ) (r : Record) : Prop
    extends RecordAt data start r where
  trailer : r.name = trailerName
  empty : r.length = 0

theorem RecordAt.unique {r' : Record} (h : RecordAt data start r) (h' : RecordAt data start r')
    (hoffset : r.offset = r'.offset) : r = r' := by
  have hread : readRecord data start r.offset = .ok r := readRecord_eq_ok_iff.2 ⟨rfl, h⟩
  have hread' : readRecord data start r.offset = .ok r' := readRecord_eq_ok_iff.2 ⟨hoffset.symm, h'⟩
  exact Except.ok.inj (hread.symm.trans hread')

section Walks

variable {records : List Record}

theorem Walk.limited (h : Walk data start allow records off) : off - start ≤ maxPayload := by
  cases h with
  | start =>
    rw [Int.sub_self]
    decide
  | next _ _ record _ _ => exact record.limited

theorem Walk.recordAt (h : Walk data start allow records off) :
    ∀ r ∈ records, RecordAt data start r ∧ r.name ≠ trailerName := by
  induction h with
  | start => exact fun r hr => absurd hr not_mem_nil
  | next _ _ record name _ ih =>
    intro r hr
    rcases mem_append.1 hr with hr | hr
    · exact ih r hr
    · rw [mem_singleton.1 hr]
      exact ⟨record, name⟩

theorem Walk.lined (h : Walk data start allow records off) :
    Lined Record.offset (Record.next start) start records off := by
  induction h with
  | start => rfl
  | next _ _ _ _ _ ih => exact lined_append_singleton.2 ⟨ih, rfl⟩

/-- One turn of the loop. -/
theorem readFrom_succ (h : Walk data start allow records off) (n : ℕ) (entries : List Entry) :
    readFrom data start allow (n + 1) off entries =
      match readRecord data start off with
      | .error failure => .error failure
      | .ok r =>
        if r.name = trailerName then
          if r.length ≠ 0 then .error (.firmware "invalid newc trailer")
          else .ok (entries, r.next start)
        else
          match check allow entries (r.entry start data) with
          | .error failure => .error failure
          | .ok () => readFrom data start allow n (r.next start) (entries ++ [r.entry start data]) := by
  have hlimited := h.limited
  rw [readFrom, if_neg (by omega)]
  cases readRecord data start off with
  | error failure => rfl
  | ok r =>
    simp only
    split
    · rfl
    · unfold check
      cases checkDuplicate entries (r.entry start data) <;> rfl

theorem readFrom_record (h : Walk data start allow records r.offset) (record : RecordAt data start r)
    (hname : r.name ≠ trailerName) (n : ℕ) :
    readFrom data start allow (n + 1) r.offset (entriesOf data start records) =
      match check allow (entriesOf data start records) (r.entry start data) with
      | .error failure => .error failure
      | .ok () =>
        readFrom data start allow n (r.next start) (entriesOf data start (records ++ [r])) := by
  rw [readFrom_succ h, readRecord_eq_ok_iff.2 ⟨rfl, record⟩]
  simp only
  rw [if_neg hname, entriesOf, entriesOf, map_append, map_singleton]

/-- An archive is read from every position of the walk on. -/
theorem readCpio_of_walk (h : Walk data start allow records off) :
    readCpio data start allow = readFrom data start allow (maxEntries - records.length) off
      (entriesOf data start records) := by
  induction h with
  | start => rfl
  | @next records r h room record name admitted ih =>
    obtain ⟨n, hn⟩ : ∃ n, maxEntries - records.length = n + 1 :=
      ⟨maxEntries - records.length - 1, by omega⟩
    have hrest : maxEntries - (records ++ [r]).length = n := by
      rw [length_append, length_singleton]
      omega
    rcases @check_spec allow (entriesOf data start records) (r.entry start data) with
      ⟨-, hok⟩ | ⟨hnot, -⟩
    · rw [ih, hn, readFrom_record h record name, hok, hrest]
    · exact absurd admitted hnot

/-- At the trailer the archive ends. -/
theorem readCpio_of_trailerAt (h : Walk data start allow records r.offset)
    (room : records.length < maxEntries) (htrailer : TrailerAt data start r) :
    readCpio data start allow = .ok (entriesOf data start records, r.next start) := by
  obtain ⟨n, hn⟩ : ∃ n, maxEntries - records.length = n + 1 :=
    ⟨maxEntries - records.length - 1, by omega⟩
  rw [readCpio_of_walk h, hn, readFrom_succ h, readRecord_eq_ok_iff.2 ⟨rfl, htrailer.toRecordAt⟩]
  simp only
  rw [if_pos htrailer.trailer, if_neg (not_not.2 htrailer.empty)]

/-- A fault on the way is what the reader raises. -/
theorem readCpio_of_faultAt (h : Walk data start allow records off)
    (room : records.length < maxEntries) (hfault : FaultAt data start records off) :
    ∃ failure, readCpio data start allow = .error failure ∧ ¬failure.IsFirmware := by
  obtain ⟨n, hn⟩ : ∃ n, maxEntries - records.length = n + 1 :=
    ⟨maxEntries - records.length - 1, by omega⟩
  rw [readCpio_of_walk h, hn]
  rcases hfault with ⟨fields, hheader, hraw⟩ | ⟨r, rfl, record, hname, hfaulty⟩
  · refine ⟨.unicode, ?_, Failure.not_isFirmware_unicode⟩
    rw [readFrom_succ h, readRecord_eq_unicode hheader hraw]
  · rw [readFrom_record h record hname]
    rcases @check_spec allow (entriesOf data start records) (r.entry start data) with
      ⟨hadmitted, -⟩ | ⟨-, failure, herror, hiff⟩
    · refine absurd hfaulty fun hf => hf.2.elim (· hadmitted.mode) fun h' => ?_
      exact h'.2.2 (hadmitted.readable h'.2.1)
    · exact ⟨failure, by rw [herror], fun h => hiff.1 h hfaulty⟩

/-- A read ends: at a trailer, with a fault, or with `FirmwareError`. -/
theorem readFrom_cases (h : Walk data start allow records off) (n : ℕ)
    (hn : records.length + n = maxEntries) :
    (∃ records r, Walk data start allow records r.offset ∧ records.length < maxEntries ∧
      TrailerAt data start r) ∨
    (∃ records off, Walk data start allow records off ∧ records.length < maxEntries ∧
      FaultAt data start records off) ∨
    ∃ failure, readCpio data start allow = .error failure ∧ failure.IsFirmware := by
  induction n generalizing records off with
  | zero =>
    right; right
    refine ⟨.firmware "newc archive exceeds limits", ?_, _, rfl⟩
    rw [readCpio_of_walk h, (by omega : maxEntries - records.length = 0), readFrom]
  | succ n ih =>
    have hleft : maxEntries - records.length = n + 1 := by omega
    cases hread : readRecord data start off with
    | error failure =>
      rcases readRecord_eq_error hread with hfirmware | ⟨-, fields, hheader, hraw⟩
      · right; right
        refine ⟨failure, ?_, hfirmware⟩
        rw [readCpio_of_walk h, hleft, readFrom_succ h, hread]
      · exact Or.inr (Or.inl ⟨records, off, h, by omega, Or.inl ⟨fields, hheader, hraw⟩⟩)
    | ok r =>
      obtain ⟨rfl, record⟩ := readRecord_eq_ok_iff.1 hread
      by_cases hname : r.name = trailerName
      · by_cases hempty : r.length = 0
        · exact Or.inl ⟨records, r, h, by omega, { record with trailer := hname, empty := hempty }⟩
        · right; right
          refine ⟨.firmware "invalid newc trailer", ?_, _, rfl⟩
          rw [readCpio_of_walk h, hleft, readFrom_succ h, hread]
          simp only
          rw [if_pos hname, if_pos hempty]
      · rcases @check_spec allow (entriesOf data start records) (r.entry start data) with
          ⟨hadmitted, -⟩ | ⟨-, failure, herror, hiff⟩
        · refine ih (h.next (by omega) record hname hadmitted) ?_
          rw [length_append, length_singleton]
          omega
        · by_cases hfaulty : Faulty (entriesOf data start records) (r.entry start data)
          · right; left
            exact ⟨records, r.offset, h, by omega, Or.inr ⟨r, rfl, record, hname, hfaulty⟩⟩
          · right; right
            refine ⟨failure, ?_, hiff.2 hfaulty⟩
            rw [readCpio_of_walk h, hleft, readFrom_record h record hname, herror]

theorem readCpio_cases (data : List UInt8) (start : ℤ) (allow : Bool) :
    (∃ records r, Walk data start allow records r.offset ∧ records.length < maxEntries ∧
      TrailerAt data start r) ∨
    (∃ records off, Walk data start allow records off ∧ records.length < maxEntries ∧
      FaultAt data start records off) ∨
    ∃ failure, readCpio data start allow = .error failure ∧ failure.IsFirmware :=
  readFrom_cases Walk.start maxEntries (Nat.zero_add _)

end Walks

end MachineEmu.Firmware
