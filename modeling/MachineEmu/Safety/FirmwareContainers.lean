import MachineEmu.Firmware.Formats
import MachineEmu.Safety.ArchiveRecords

/-!
# The sections of a container

A container is read section by section, each behind the one before.

* `HeaderPasses`, `SectionAt`, `EndsAt` — what the reader asks of the header, of a section and of
  the trailer.
* `SectionWalk` — the sections that are passed, and the position after them.
* `SectionWalk.Laid` — where they lie.
* `ContainerAgrees`, `RegularContainer` — what is expected of the reader, and when it is so.
* `containerAgrees_iff` — it is so exactly then.
-/

namespace MachineEmu.Firmware

open Lib List

variable {source : List UInt8} {sections : List Section} {start : ℕ} {s : Section}
  {failure : Failure}

def IsAscii (value : List UInt8) : Prop := ∀ b ∈ value, b < 128

theorem decodeAscii_of_isAscii {value : List UInt8} (h : IsAscii value) :
    decodeAscii value = .ok (value.map fun b => Char.ofNat b.toNat) := if_pos h

theorem decodeAscii_of_not_isAscii {value : List UInt8} (h : ¬IsAscii value) :
    decodeAscii value = .error .unicode := if_neg h

theorem decodeAscii_eq_error {value : List UInt8} (h : decodeAscii value = .error failure) :
    failure = .unicode ∧ ¬IsAscii value := by
  by_cases hascii : IsAscii value
  · rw [decodeAscii_of_isAscii hascii] at h
    cases h
  · rw [decodeAscii_of_not_isAscii hascii] at h
    exact ⟨(Except.error.inj h).symm, hascii⟩

/-- A range of a file, piece by piece. -/
theorem slice_add (bs : List UInt8) (start m n : ℕ) :
    slice bs start (m + n) = slice bs start m ++ slice bs (start + m) n := by
  rw [slice, slice, slice, take_add, drop_drop]

/-! ## One section -/

/-- The chunks of a section are all its bytes. -/
theorem readChunks_eq {position remaining crc : ℕ} (h : position + remaining ≤ source.length) :
    readChunks source position remaining crc =
      .ok (crc32 crc (slice source position remaining), position + remaining) := by
  induction remaining using Nat.strongRecOn generalizing position crc with
  | ind remaining ih =>
    rw [readChunks]
    split
    · next hpos =>
      have hmin : min remaining (1024 * 1024) ≤ remaining := Nat.min_le_left _ _
      have hpos' : 0 < min remaining (1024 * 1024) := Nat.lt_min.2 ⟨hpos, by decide⟩
      generalize min remaining (1024 * 1024) = chunk at hmin hpos'
      have hlength : (slice source position chunk).length = chunk := length_slice (by omega)
      rw [if_neg (ne_nil_of_length_pos (by omega)), hlength, ih _ (by omega) (by omega),
        ← crc32_append, ← slice_add, Nat.add_sub_cancel' hmin, Nat.add_assoc,
        Nat.add_sub_cancel' hmin]
    · next hzero =>
      obtain rfl : remaining = 0 := by omega
      rw [slice, take_zero, crc32_nil, Nat.add_zero]

/-- A section whose record is at a position, behind those before it. -/
structure SectionAt (source : List UInt8) (sections : List Section) (start : ℕ) (s : Section) :
    Prop where
  magic : slice source start 4 ∈ sectionMagics
  kind : Utf8.decode (slice source start 4) = some s.kind
  name : decodeAscii (nameField (sectionRecord source start)) = .ok s.name
  nonempty : s.name ≠ []
  fresh : s.name ∉ sections.map (·.name)
  size : sectionLength source start = s.size
  capacity : s.size ≤ sectionCapacity source start
  offset : s.offset = start + 56
  room : start + 64 + s.size ≤ source.length
  checksum : crc32 0 (sectionRecord source start ++ slice source s.offset s.size) =
    word source (s.offset + s.size)

theorem sectionRecord_eq : sectionRecord source start = slice source start 56 :=
  (slice_add source start 4 52).symm

theorem length_sectionRecord (h : start + 56 ≤ source.length) :
    (sectionRecord source start).length = 56 := by
  rw [sectionRecord_eq, length_slice h]

theorem utf8_sectionMagics {magic : List UInt8} (h : magic ∈ sectionMagics) :
    ∃ kind, Utf8.decode magic = some kind := by
  rcases mem_cons.1 h with rfl | h
  · exact ⟨['P', 'A', 'R', 'T'], by decide +kernel⟩
  · rw [mem_singleton.1 h]
    exact ⟨['E', 'M', 'M', 'C'], by decide +kernel⟩

theorem le_length_of_sectionRecord (h : (sectionRecord source start).length = 56) :
    start + 56 ≤ source.length := by
  rw [sectionRecord_eq, slice, length_take, length_drop] at h
  omega

/-- A section is read, or it fails with `FirmwareError`, or its name is not ASCII. -/
theorem readSection_cases (source : List UInt8) (sections : List Section) (start : ℕ) :
    (∃ s, readSection source sections start = .ok s ∧ SectionAt source sections start s) ∨
      (∃ message, readSection source sections start = .error (.firmware message)) ∨
      (readSection source sections start = .error .unicode ∧ slice source start 4 ∈ sectionMagics ∧
        start + 56 ≤ source.length ∧ ¬IsAscii (nameField (sectionRecord source start))) := by
  unfold readSection
  by_cases hmagic : slice source start 4 ∈ sectionMagics
  · rw [if_neg (not_not.2 hmagic)]
    by_cases hrecord : (sectionRecord source start).length = 56
    · rw [if_neg (not_not.2 hrecord)]
      cases hname : decodeAscii (nameField (sectionRecord source start)) with
      | error failure =>
        obtain ⟨rfl, hascii⟩ := decodeAscii_eq_error hname
        exact Or.inr (Or.inr ⟨rfl, hmagic, le_length_of_sectionRecord hrecord, hascii⟩)
      | ok name =>
        by_cases hbounds : name = [] ∨ name ∈ sections.map (·.name) ∨
            sectionCapacity source start < sectionLength source start ∨
            source.length < start + 64 + sectionLength source start
        · exact Or.inr (Or.inl ⟨_, if_pos hbounds⟩)
        · simp only [if_neg hbounds]
          simp only [not_or, not_lt] at hbounds
          obtain ⟨hnonempty, hfresh, hcapacity, hroom⟩ := hbounds
          rw [readChunks_eq (by omega), ← crc32_append]
          by_cases hcrc : crc32 0 (sectionRecord source start ++
              slice source (start + 56) (sectionLength source start)) =
                word source (start + 56 + sectionLength source start)
          · have htrailer : (slice source (start + 56 + sectionLength source start) 8).length = 8 :=
              length_slice (by omega)
            obtain ⟨kind, hkind⟩ := utf8_sectionMagics hmagic
            refine Or.inl ⟨⟨name, kind, start + 56, sectionLength source start⟩, ?_, ?_⟩
            · simp only [hkind]
              rw [if_neg]
              rw [not_or, not_not, not_not]
              exact ⟨htrailer, hcrc⟩
            · exact
                { magic := hmagic
                  kind := hkind
                  name := hname
                  nonempty := hnonempty
                  fresh := hfresh
                  size := rfl
                  capacity := hcapacity
                  offset := rfl
                  room := hroom
                  checksum := hcrc }
          · exact Or.inr (Or.inl ⟨_, if_pos (Or.inr hcrc)⟩)
    · exact Or.inr (Or.inl ⟨_, if_pos hrecord⟩)
  · exact Or.inr (Or.inl ⟨_, if_pos hmagic⟩)

theorem readSection_of_sectionAt (h : SectionAt source sections start s) :
    readSection source sections start = .ok s := by
  have hroom := h.room
  unfold readSection
  rw [if_neg (not_not.2 h.magic), if_neg (not_not.2 (length_sectionRecord (by omega))), h.name]
  simp only [h.size]
  have hbounds : ¬(s.name = [] ∨ s.name ∈ sections.map (·.name) ∨
      sectionCapacity source start < s.size ∨ source.length < start + 64 + s.size) := by
    have hcapacity := h.capacity
    rw [not_or, not_or]
    exact ⟨h.nonempty, h.fresh, by omega⟩
  rw [if_neg hbounds, readChunks_eq (by omega), ← crc32_append, ← h.offset]
  have hlength : (slice source (s.offset + s.size) 8).length = 8 := length_slice (by
    rw [h.offset]
    omega)
  simp only [h.kind]
  rw [if_neg]
  rw [not_or, not_not, not_not]
  exact ⟨hlength, h.checksum⟩

/-! ## The walk -/

/-- The header is accepted, but for its version. -/
structure HeaderPasses (source : List UInt8) : Prop where
  room : headerLength ≤ source.length
  magic : source.take 4 ∈ containerMagics
  checksum : crc32 0 (source.take 0x104) = word source 0x104

/-- The trailer is at a position, and nothing is behind it. -/
structure EndsAt (source : List UInt8) (start : ℕ) : Prop where
  magic : slice source start 4 = endsMagic
  last : source.length = start + 264
  zeros : slice source (start + 260) 4 = [0, 0, 0, 0]

/-- The sections that are passed, and the position after them. -/
inductive SectionWalk (source : List UInt8) : ℕ → List Section → Prop
  | header (passes : HeaderPasses source) (ascii : IsAscii (versionField source)) :
    SectionWalk source headerLength []
  | next {start : ℕ} {sections : List Section} {s : Section} (walk : SectionWalk source start sections)
      (few : sections.length < maxSections) (found : SectionAt source sections start s) :
    SectionWalk source (start + 64 + s.size) (sections ++ [s])

theorem endsMagic_notMem : endsMagic ∉ sectionMagics := by decide

theorem SectionAt.ne_ends (h : SectionAt source sections start s) :
    slice source start 4 ≠ endsMagic := by
  intro heq
  exact endsMagic_notMem (heq ▸ h.magic)

theorem container_of_header (hpasses : HeaderPasses source) :
    container source =
      match decodeAscii (versionField source) with
      | .error failure => .error failure
      | .ok version => readSections source version maxSections headerLength [] := by
  have hroom := hpasses.room
  have hfront : ¬(source.length < headerLength ∨ source.take 4 ∉ containerMagics) := by
    rw [not_or, not_not]
    exact ⟨by omega, hpasses.magic⟩
  rw [container, if_neg hfront, if_neg (not_not.2 hpasses.checksum)] <;> rfl

/-- The reader goes on behind the sections that are passed. -/
theorem container_of_walk (h : SectionWalk source start sections) : ∃ version,
    container source = readSections source version (maxSections - sections.length) start sections := by
  induction h with
  | header hpasses hascii =>
    exact ⟨_, by rw [container_of_header hpasses, decodeAscii_of_isAscii hascii]; rfl⟩
  | @next start sections s walk few found ih =>
    obtain ⟨version, ih⟩ := ih
    obtain ⟨n, hn⟩ : ∃ n, maxSections - sections.length = n + 1 :=
      ⟨maxSections - sections.length - 1, by omega⟩
    have hn' : maxSections - (sections ++ [s]).length = n := by
      rw [length_append, length_singleton]
      omega
    refine ⟨version, ?_⟩
    rw [ih, hn, hn', readSections, if_neg found.ne_ends, readSection_of_sectionAt found]

theorem container_of_trailer (h : SectionWalk source start sections) (hfew : sections.length < maxSections)
    (htrailer : EndsAt source start) : ∃ version, container source = .ok (version, sections) := by
  obtain ⟨version, hcontainer⟩ := container_of_walk h
  obtain ⟨n, hn⟩ : ∃ n, maxSections - sections.length = n + 1 :=
    ⟨maxSections - sections.length - 1, by omega⟩
  have hlast := htrailer.last
  refine ⟨version, ?_⟩
  rw [hcontainer, hn, readSections, if_pos htrailer.magic, if_neg]
  rw [not_or, not_not, not_not]
  exact ⟨by omega, htrailer.zeros⟩

theorem container_of_name (h : SectionWalk source start sections) (hfew : sections.length < maxSections)
    (hmagic : slice source start 4 ∈ sectionMagics) (hroom : start + 56 ≤ source.length)
    (hname : ¬IsAscii (nameField (sectionRecord source start))) : container source = .error .unicode := by
  obtain ⟨version, hcontainer⟩ := container_of_walk h
  obtain ⟨n, hn⟩ : ∃ n, maxSections - sections.length = n + 1 :=
    ⟨maxSections - sections.length - 1, by omega⟩
  have hread : readSection source sections start = .error .unicode := by
    unfold readSection
    rw [if_neg (not_not.2 hmagic), if_neg (not_not.2 (length_sectionRecord hroom)),
      decodeAscii_of_not_isAscii hname]
  have hends : slice source start 4 ≠ endsMagic := fun heq => endsMagic_notMem (heq ▸ hmagic)
  rw [hcontainer, hn, readSections, if_neg hends, hread]

/-- The name of a record that is come to is not ASCII. -/
def NameFault (source : List UInt8) : Prop :=
  ∃ start sections, SectionWalk source start sections ∧ sections.length < maxSections ∧
    slice source start 4 ∈ sectionMagics ∧ start + 56 ≤ source.length ∧
      ¬IsAscii (nameField (sectionRecord source start))

/-- How a read of sections ends. -/
theorem readSections_cases (version : List Char) (n : ℕ) (h : SectionWalk source start sections)
    (hn : sections.length + n = maxSections) :
    (∃ stop found, readSections source version n start sections = .ok (version, found) ∧
        SectionWalk source stop found ∧ found.length < maxSections ∧ EndsAt source stop) ∨
      (∃ message, readSections source version n start sections = .error (.firmware message)) ∨
      (readSections source version n start sections = .error .unicode ∧ NameFault source) := by
  induction n generalizing start sections with
  | zero => exact Or.inr (Or.inl ⟨_, rfl⟩)
  | succ n ih =>
    rw [readSections]
    by_cases hends : slice source start 4 = endsMagic
    · rw [if_pos hends]
      by_cases htrailer : source.length - start ≠ 264 ∨ slice source (start + 260) 4 ≠ [0, 0, 0, 0]
      · exact Or.inr (Or.inl ⟨_, if_pos htrailer⟩)
      · rw [if_neg htrailer]
        rw [not_or, not_not, not_not] at htrailer
        exact Or.inl ⟨start, sections, rfl, h, by omega, ⟨hends, by omega, htrailer.2⟩⟩
    · rw [if_neg hends]
      rcases readSection_cases source sections start with
        ⟨s, hread, hfound⟩ | ⟨message, hread⟩ | ⟨hread, hmagic, hroom, hname⟩
      · rw [hread]
        exact ih (.next h (by omega) hfound) (by
          rw [length_append, length_singleton]
          omega)
      · exact Or.inr (Or.inl ⟨message, by rw [hread]⟩)
      · exact Or.inr (Or.inr ⟨by rw [hread], start, sections, h, by omega, hmagic, hroom, hname⟩)

/-- How a read ends. -/
theorem container_cases (source : List UInt8) :
    (∃ version stop found, container source = .ok (version, found) ∧
        SectionWalk source stop found ∧ found.length < maxSections ∧ EndsAt source stop) ∨
      (∃ message, container source = .error (.firmware message)) ∨
      (container source = .error .unicode ∧
        (HeaderPasses source ∧ ¬IsAscii (versionField source) ∨ NameFault source)) := by
  by_cases hpasses : HeaderPasses source
  · rw [container_of_header hpasses]
    by_cases hascii : IsAscii (versionField source)
    · rw [decodeAscii_of_isAscii hascii]
      rcases readSections_cases ((versionField source).map fun b => Char.ofNat b.toNat) maxSections
        (.header hpasses hascii) (by rw [length_nil, Nat.zero_add]) with
        ⟨stop, found, hread, hwalk⟩ | ⟨message, hread⟩ | ⟨hread, hfault⟩
      · exact Or.inl ⟨_, stop, found, hread, hwalk⟩
      · exact Or.inr (Or.inl ⟨message, hread⟩)
      · exact Or.inr (Or.inr ⟨hread, Or.inr hfault⟩)
    · rw [decodeAscii_of_not_isAscii hascii]
      exact Or.inr (Or.inr ⟨rfl, Or.inl ⟨hpasses, hascii⟩⟩)
  · unfold container
    by_cases hfront : source.length < headerLength ∨ source.take 4 ∉ containerMagics
    · exact Or.inr (Or.inl ⟨_, if_pos hfront⟩)
    · rw [if_neg hfront]
      rw [not_or, not_not, not_lt] at hfront
      exact Or.inr (Or.inl ⟨_, if_pos fun hcrc => hpasses ⟨hfront.1, hfront.2, hcrc⟩⟩)

/-! ## Where sections lie -/

/-- Sections lie behind the header and each other, with distinct names, and their checksums hold. -/
structure Laid (source : List UInt8) (stop : ℕ) (sections : List Section) : Prop where
  names : (sections.map (·.name)).Nodup
  first : ∀ s ∈ sections, headerLength ≤ s.offset
  last : ∀ s ∈ sections, s.offset + s.size ≤ stop
  order : sections.Pairwise fun s t => s.offset + s.size ≤ t.offset
  inside : ∀ s ∈ sections, s.offset + s.size ≤ source.length
  checksum : ∀ s ∈ sections,
    crc32 0 (sectionRecord source (s.offset - 56) ++ slice source s.offset s.size) =
      word source (s.offset + s.size)

theorem SectionWalk.headerLength_le (h : SectionWalk source start sections) : headerLength ≤ start := by
  induction h with
  | header hpasses hascii => exact le_rfl
  | next walk few found ih => omega

theorem SectionWalk.laid (h : SectionWalk source start sections) : Laid source start sections := by
  induction h with
  | header hpasses hascii =>
    exact
      { names := nodup_nil
        first := fun s hs => absurd hs not_mem_nil
        last := fun s hs => absurd hs not_mem_nil
        order := List.Pairwise.nil
        inside := fun s hs => absurd hs not_mem_nil
        checksum := fun s hs => absurd hs not_mem_nil }
  | @next start sections s walk few found ih =>
    have hoffset := found.offset
    have hroom := found.room
    have hstart := walk.headerLength_le
    have hlast {t : Section} (ht : t ∈ sections ++ [s]) : t ∈ sections ∨ t = s := by
      simpa using ht
    constructor
    · rw [map_append, map_singleton]
      exact List.Nodup.append ih.names (nodup_singleton _)
        (disjoint_singleton.2 found.fresh)
    · intro t ht
      rcases hlast ht with ht | rfl
      · exact ih.first t ht
      · omega
    · intro t ht
      rcases hlast ht with ht | rfl
      · have hle := ih.last t ht
        omega
      · omega
    · refine pairwise_append.2 ⟨ih.order, pairwise_singleton _ _, ?_⟩
      intro t ht u hu
      have hle := ih.last t ht
      rw [mem_singleton.1 hu]
      omega
    · intro t ht
      rcases hlast ht with ht | rfl
      · exact ih.inside t ht
      · omega
    · intro t ht
      rcases hlast ht with ht | rfl
      · exact ih.checksum t ht
      · have hchecksum := found.checksum
        rwa [← Nat.add_sub_cancel (n := start) (m := 56), ← hoffset] at hchecksum

/-! ## What is expected -/

/-- The bytes that are read for a section are those whose checksum was verified. -/
def ReadsVerified (source : List UInt8) (s : Section) : Prop :=
  ∃ bytes, s.read source = .ok bytes ∧ bytes = slice source s.offset s.size ∧
    crc32 0 (sectionRecord source (s.offset - 56) ++ bytes) = word source (s.offset + s.size)

/-- The sections of a container are in order and apart, between the header and the trailer, with
distinct names, and are read as they were verified. What is raised is `FirmwareError`. -/
structure ContainerAgrees (source : List UInt8) : Prop where
  names : ∀ version sections, container source = .ok (version, sections) →
    (sections.map (·.name)).Nodup
  order : ∀ version sections, container source = .ok (version, sections) →
    sections.Pairwise fun s t => s.offset + s.size ≤ t.offset
  between : ∀ version sections, container source = .ok (version, sections) →
    ∀ s ∈ sections, headerLength ≤ s.offset ∧ s.offset + s.size + 264 ≤ source.length
  read : ∀ version sections, container source = .ok (version, sections) →
    ∀ s ∈ sections, ReadsVerified source s
  raises : ∀ failure, container source = .error failure → failure.IsFirmware

/-- The version and the names that are come to are ASCII, and no section of a complete container is
larger than what is read. -/
structure RegularContainer (source : List UInt8) : Prop where
  version : HeaderPasses source → IsAscii (versionField source)
  names : ∀ start sections, SectionWalk source start sections → sections.length < maxSections →
    slice source start 4 ∈ sectionMagics → start + 56 ≤ source.length →
      IsAscii (nameField (sectionRecord source start))
  sizes : ∀ start sections, SectionWalk source start sections → sections.length < maxSections →
    EndsAt source start → ∀ s ∈ sections, (s.size : ℤ) ≤ maxPayload

theorem readsVerified_iff (hinside : s.offset + s.size ≤ source.length)
    (hchecksum : crc32 0 (sectionRecord source (s.offset - 56) ++ slice source s.offset s.size) =
      word source (s.offset + s.size)) :
    ReadsVerified source s ↔ (s.size : ℤ) ≤ maxPayload := by
  constructor
  · rintro ⟨bytes, hread, -⟩
    by_contra hlarge
    rw [Section.read, if_pos (by omega)] at hread
    cases hread
  · intro hsmall
    refine ⟨_, ?_, rfl, hchecksum⟩
    rw [Section.read, if_neg (by omega), if_neg (not_not.2 (length_slice hinside))]

/-- A container is read as expected exactly where its names are ASCII and its sections small. -/
theorem containerAgrees_iff (source : List UInt8) :
    ContainerAgrees source ↔ RegularContainer source := by
  constructor
  · intro h
    have hunicode : container source ≠ .error .unicode := fun hcontainer =>
      Failure.not_isFirmware_unicode (h.raises _ hcontainer)
    constructor
    · intro hpasses
      by_contra hascii
      exact hunicode (by rw [container_of_header hpasses, decodeAscii_of_not_isAscii hascii])
    · intro start sections hwalk hfew hmagic hroom
      by_contra hascii
      exact hunicode (container_of_name hwalk hfew hmagic hroom hascii)
    · intro start sections hwalk hfew htrailer s hs
      obtain ⟨version, hcontainer⟩ := container_of_trailer hwalk hfew htrailer
      exact (readsVerified_iff (hwalk.laid.inside s hs) (hwalk.laid.checksum s hs)).1
        (h.read version sections hcontainer s hs)
  · intro h
    rcases container_cases source with
      ⟨version, stop, found, hcontainer, hwalk, hfew, htrailer⟩ | ⟨message, hcontainer⟩ |
        ⟨hcontainer, hfault⟩
    · have hfound {version' : List Char} {sections : List Section}
          (hok : container source = .ok (version', sections)) : sections = found := by
        rw [hcontainer] at hok
        exact (Prod.mk.inj (Except.ok.inj hok)).2.symm
      have hlast := htrailer.last
      constructor
      · intro version' sections hok
        obtain rfl := hfound hok
        exact hwalk.laid.names
      · intro version' sections hok
        obtain rfl := hfound hok
        exact hwalk.laid.order
      · intro version' sections hok s hs
        obtain rfl := hfound hok
        have hle := hwalk.laid.last s hs
        exact ⟨hwalk.laid.first s hs, by omega⟩
      · intro version' sections hok s hs
        obtain rfl := hfound hok
        exact (readsVerified_iff (hwalk.laid.inside s hs) (hwalk.laid.checksum s hs)).2
          (h.sizes stop sections hwalk hfew htrailer s hs)
      · intro failure herror
        rw [hcontainer] at herror
        cases herror
    · have hnone {version : List Char} {sections : List Section}
          (hok : container source = .ok (version, sections)) : False := by
        rw [hcontainer] at hok
        cases hok
      refine ⟨fun _ _ hok => (hnone hok).elim, fun _ _ hok => (hnone hok).elim,
        fun _ _ hok => (hnone hok).elim, fun _ _ hok => (hnone hok).elim, ?_⟩
      intro failure herror
      rw [hcontainer] at herror
      exact ⟨message, (Except.error.inj herror).symm⟩
    · rcases hfault with ⟨hpasses, hascii⟩ | ⟨start, sections, hwalk, hfew, hmagic, hroom, hascii⟩
      · exact absurd (h.version hpasses) hascii
      · exact absurd (h.names start sections hwalk hfew hmagic hroom) hascii

end MachineEmu.Firmware
