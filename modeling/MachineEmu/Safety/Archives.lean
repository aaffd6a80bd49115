import MachineEmu.Safety.ArchiveRoundTrip

/-!
# The reader and the writer of archives

The records that the reader accepts tile what it consumes, and an archive that is written from them
is read as they were. Both hold where the headers are plain: the number parser takes prefixes,
signs, blanks and underscores. The reader does not raise `FirmwareError` at a name or a target of a
link that is not UTF-8, nor at a mode that is negative.

* `Agrees` — what the reader and the writer should do with some bytes.
* `Regular` — no such fault on the way, and plain headers if there is a trailer.
* `newc_agrees` — the one exactly where the other.
-/

namespace MachineEmu.Firmware

open Lib List

/-- What is consumed is tiled by records, the last of which is the trailer. The entries are those of
the other records. -/
def Tiled (data : List UInt8) (start : ℤ) (entries : List Entry) (stop : ℤ) : Prop :=
  ∃ records r, Tiles data start (records ++ [r]) stop ∧
    (∀ r' ∈ records, RecordAt data start r' ∧ r'.name ≠ trailerName) ∧ TrailerAt data start r ∧
    entries = entriesOf data start records

/-- Two entries have the same name, data and fields, apart from the two sizes and the checksum. -/
structure SameEntry (e e' : Entry) : Prop where
  name : e'.name = e.name
  data : e'.data = e.data
  fields : ∀ i, i ≠ 6 → i ≠ 11 → i ≠ 12 → e'.fields i = e.fields i

/-- Entries that are written are read again, with nothing left. -/
def RoundTrips (allow : Bool) (entries : List Entry) : Prop :=
  ∃ entries', readCpio (writeCpio entries) 0 allow = .ok (entries', (writeCpio entries).length) ∧
    List.Forall₂ SameEntry entries entries'

/-- What the reader and the writer should do with some bytes. -/
structure Agrees (data : List UInt8) (start : ℕ) (allow : Bool) : Prop where
  accepted : ∀ entries stop, readCpio data start allow = .ok (entries, stop) →
    Tiled data start entries stop ∧ RoundTrips allow entries
  rejected : ∀ failure, readCpio data start allow = .error failure → failure.IsFirmware

/-- On the way of the reader nothing is read at which it raises another error, and when it comes to
the trailer the headers on its way are plain. -/
structure Regular (data : List UInt8) (start : ℕ) (allow : Bool) : Prop where
  sound : ∀ records off, Walk data start allow records off → records.length < maxEntries →
    ¬FaultAt data start records off
  plain : ∀ records r, Walk data start allow records r.offset → records.length < maxEntries →
    TrailerAt data start r → ∀ r' ∈ records ++ [r], PlainHeader data r'.offset

variable {data : List UInt8} {start : ℤ} {allow : Bool} {records : List Record} {r : Record}

theorem sameEntry_written (e : Entry) : SameEntry e e.written where
  name := rfl
  data := rfl
  fields i h6 h11 h12 := by
    show e.writtenFields i = e.fields i
    unfold Entry.writtenFields
    rw [if_neg h6, if_neg h11, if_neg h12]

/-- Records with plain headers tile what they are read from. -/
theorem Walk.tiles (h : Walk data start allow records r.offset) (htrailer : TrailerAt data start r)
    (hplain : ∀ r' ∈ records ++ [r], PlainHeader data r'.offset) :
    Tiles data start (records ++ [r]) (r.next start) := by
  have hrecord : ∀ r' ∈ records ++ [r], RecordAt data start r' := by
    intro r' hr'
    rcases mem_append.1 hr' with hr' | hr'
    · exact (h.recordAt r' hr').1
    · rw [mem_singleton.1 hr']
      exact htrailer.toRecordAt
  have hforth : ∀ r' ∈ records ++ [r], r'.offset ≤ r'.next start :=
    fun r' hr' => (hrecord r' hr').offset_le_next (hplain r' hr')
  have hlined : Lined Record.offset (Record.next start) start (records ++ [r]) (r.next start) :=
    lined_append_singleton.2 ⟨h.lined, rfl⟩
  exact
    { lined := hlined
      disjoint := hlined.pairwise hforth
      inside := fun r' hr' =>
        (hrecord r' hr').in_place (hplain r' hr') (hlined.le_of_mem hforth r' hr')
      plain := hplain }

/-- The records of an archive are found one way only. -/
theorem records_unique {off stop stop' : ℤ} {records records' : List Record} {r r' : Record}
    (hlined : Lined Record.offset (Record.next start) off (records ++ [r]) stop)
    (hlined' : Lined Record.offset (Record.next start) off (records' ++ [r']) stop')
    (hrecord : ∀ s ∈ records, RecordAt data start s ∧ s.name ≠ trailerName)
    (hrecord' : ∀ s ∈ records', RecordAt data start s ∧ s.name ≠ trailerName)
    (htrailer : TrailerAt data start r) (htrailer' : TrailerAt data start r') :
    records ++ [r] = records' ++ [r'] := by
  induction records generalizing off records' with
  | nil =>
    cases records' with
    | nil =>
      have hr := htrailer.toRecordAt.unique htrailer'.toRecordAt (hlined.1.trans hlined'.1.symm)
      rw [hr]
    | cons s' records' =>
      have hs' := hrecord' s' mem_cons_self
      have hr := htrailer.toRecordAt.unique hs'.1 (hlined.1.trans hlined'.1.symm)
      exact absurd (hr ▸ htrailer.trailer) hs'.2
  | cons s records ih =>
    have hs := hrecord s mem_cons_self
    cases records' with
    | nil =>
      have hr := htrailer'.toRecordAt.unique hs.1 (hlined'.1.trans hlined.1.symm)
      exact absurd (hr ▸ htrailer'.trailer) hs.2
    | cons s' records' =>
      have hs' := hrecord' s' mem_cons_self
      obtain rfl := hs.1.unique hs'.1 (hlined.1.trans hlined'.1.symm)
      have hrest := ih hlined.2 hlined'.2 (fun t ht => hrecord t (mem_cons_of_mem _ ht))
        fun t ht => hrecord' t (mem_cons_of_mem _ ht)
      rw [cons_append, cons_append, hrest]

/-- The reader and the writer do what they should exactly where no other error than `FirmwareError`
is on the way and the headers up to the trailer are plain. -/
theorem newc_agrees (data : List UInt8) (start : ℕ) (allow : Bool) :
    Agrees data start allow ↔ Regular data start allow := by
  constructor
  · intro h
    constructor
    · intro records off hwalk room hfault
      obtain ⟨failure, hread, hnot⟩ := readCpio_of_faultAt hwalk room hfault
      exact hnot (h.rejected failure hread)
    · intro records r hwalk room htrailer
      obtain ⟨⟨records', r', htiles, hrecord', htrailer', -⟩, -⟩ :=
        h.accepted _ _ (readCpio_of_trailerAt hwalk room htrailer)
      have hlined : Lined Record.offset (Record.next start) start (records ++ [r]) (r.next start) :=
        lined_append_singleton.2 ⟨hwalk.lined, rfl⟩
      rw [records_unique hlined htiles.lined hwalk.recordAt hrecord' htrailer htrailer']
      exact htiles.plain
  · intro h
    rcases readCpio_cases data start allow with
      ⟨records, r, hwalk, room, htrailer⟩ | ⟨records, off, hwalk, room, hfault⟩ |
        ⟨failure, hread, hfirmware⟩
    · have hplain := h.plain records r hwalk room htrailer
      have hread := readCpio_of_trailerAt hwalk room htrailer
      refine ⟨fun entries stop heq => ?_, fun failure heq => ?_⟩
      · obtain ⟨rfl, rfl⟩ := Prod.mk.inj (Except.ok.inj (hread.symm.trans heq))
        refine ⟨⟨records, r, hwalk.tiles htrailer hplain, hwalk.recordAt, htrailer, rfl⟩, ?_⟩
        refine ⟨_, readCpio_writeCpio hwalk room htrailer hplain, ?_⟩
        rw [List.forall₂_map_right_iff]
        exact List.forall₂_same.2 fun e _ => sameEntry_written e
      · cases hread.symm.trans heq
    · exact absurd hfault (h.sound records off hwalk room)
    · refine ⟨fun entries stop heq => ?_, fun failure' heq => ?_⟩
      · cases hread.symm.trans heq
      · exact Except.error.inj (hread.symm.trans heq) ▸ hfirmware

/-- An archive with a trailer only, whose first field is `0x000000`. -/
def prefixed : List UInt8 :=
  magic ++ [48, 120, 48, 48, 48, 48, 48, 48] ++ List.replicate 80 48 ++
    [48, 48, 48, 48, 48, 48, 48, 66] ++ List.replicate 8 48 ++ (utf8 trailerName ++ [0]) ++
    List.replicate 3 0

/-- A header with a name of one byte that is not UTF-8. -/
def unreadable : List UInt8 :=
  magic ++ List.replicate 88 48 ++ [48, 48, 48, 48, 48, 48, 48, 50] ++ List.replicate 8 48 ++ [255, 0]

/-- Whether a result is that bytes are not UTF-8. -/
def raisesUnicode {α : Type} : Except Failure α → Bool
  | .error .unicode => true
  | _ => false

theorem eq_unicode_of_raises {α : Type} {result : Except Failure α}
    (h : raisesUnicode result = true) : result = .error .unicode := by
  unfold raisesUnicode at h
  split at h
  · rfl
  · cases h

theorem exists_ok_of_toBool {ε α : Type} {result : Except ε α} (h : result.toBool = true) :
    ∃ value, result = .ok value := by
  cases result with
  | error failure => cases h
  | ok value => exact ⟨value, rfl⟩

/-- A header with a prefix is accepted, and a name that is not UTF-8 is rejected otherwise. -/
theorem not_newc_agrees : ¬(∀ (data : List UInt8) (start : ℕ) (allow : Bool),
    Agrees data start allow) ∧ ¬Agrees prefixed 0 false ∧ ¬Agrees unreadable 0 false := by
  have hprefixed : ¬Agrees prefixed 0 false := by
    have hread : (readCpio prefixed (0 : ℕ) false).toBool = true := by decide +kernel
    have hdigits : ¬PlainHeader prefixed (0 : ℕ) := fun h => absurd (h 0).2 (by decide +kernel)
    intro h
    obtain ⟨⟨entries, stop⟩, hresult⟩ := exists_ok_of_toBool hread
    obtain ⟨⟨records, r, htiles, -⟩, -⟩ := h.accepted entries stop hresult
    -- the first record is at the front, wherever the trailer is
    have hfirst : ∃ first ∈ records ++ [r], first.offset = (0 : ℕ) := by
      cases records with
      | nil => exact ⟨r, by simp, htiles.lined.1⟩
      | cons first records => exact ⟨first, by simp, htiles.lined.1⟩
    obtain ⟨first, hmem, hoffset⟩ := hfirst
    exact hdigits (hoffset ▸ htiles.plain first hmem)
  have hunreadable : ¬Agrees unreadable 0 false := by
    have hread : raisesUnicode (readCpio unreadable (0 : ℕ) false) = true := by decide +kernel
    exact fun h => Failure.not_isFirmware_unicode (h.rejected _ (eq_unicode_of_raises hread))
  exact ⟨fun h => hprefixed (h prefixed 0 false), hprefixed, hunreadable⟩

end MachineEmu.Firmware
