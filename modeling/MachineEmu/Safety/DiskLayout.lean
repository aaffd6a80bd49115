import MachineEmu.Firmware.Disk
import MachineEmu.Lib.Regions

/-!
# The layout of a disk

What is kept of the template when a disk is built.

* `InOrder` — the partitions lie in order between the tables.
* `exists_buildDisk` — a disk is built, and its regions say what it is.
* `layoutPreserved_iff` — the layout is kept exactly if the table lies in what is copied, and a
  template is rejected as it should be exactly if no name is the first thing that is wrong.
-/

namespace MachineEmu.Firmware

open Lib List

/-! ## Copies -/

/-- A copy over blanks is a copy of all bytes. -/
theorem copyRegion_eq {source : List UInt8} (n : ℕ) {target : List UInt8} {start place : ℕ}
    (hsource : start + n ≤ source.length) (htarget : place + n ≤ target.length)
    (hblank : slice target place n = List.replicate n 0) :
    copyRegion source target start place n = .ok (splice target place (slice source start n)) := by
  induction n using Nat.strong_induction_on generalizing target start place with
  | _ n ih =>
    rw [copyRegion]
    by_cases hn : n = 0
    · subst hn
      rw [if_pos rfl, show slice source start 0 = slice target place 0 from rfl, splice_slice htarget]
    · obtain ⟨k, m, hk, rfl⟩ : ∃ k m, k = min n (1024 * 1024) ∧ n = k + m :=
        ⟨_, n - min n (1024 * 1024), rfl, by omega⟩
      have hlength : (slice source start k).length = k := length_slice (by omega)
      have hroom : place + (slice source start k).length ≤ target.length := by omega
      have hne : slice source start k ≠ [] := by
        rintro hnil
        rw [hnil, length_nil] at hlength
        omega
      rw [slice_add, replicate_add] at hblank
      obtain ⟨hfront, hrest⟩ := append_inj hblank (by
        rw [length_slice (by omega), length_replicate])
      -- Zeros are not written, but they are there already.
      have hwritten : (if ∀ b ∈ slice source start k, b = 0 then target
          else splice target place (slice source start k)) = splice target place (slice source start k) := by
        split
        · next hzero =>
          have hsame : slice source start k = slice target place k :=
            (eq_replicate_iff.2 ⟨hlength, hzero⟩).trans hfront.symm
          rw [hsame, splice_slice (by omega)]
        · rfl
      simp only [← hk, if_neg hn, if_neg hne, hwritten, hlength, Nat.add_sub_cancel_left]
      rw [ih m (by omega) (by omega) (by rw [length_splice hroom]; omega), slice_add]
      · conv_lhs => rw [show place + k = place + (slice source start k).length by rw [hlength]]
        rw [splice_splice hroom]
      · rw [slice_splice_outside hroom (Or.inr (by omega))]
        exact hrest

variable {out : List UInt8} {size : ℕ}

/-- A copy into a disk that is blank there. -/
theorem exists_copyRegion {regions : List (Region UInt8)}
    (source : List UInt8) (start place n : ℕ) (h : Filled 0 size regions out)
    (hsource : start + n ≤ source.length)
    (hroom : place + n ≤ size) (hapart : ∀ s ∈ regions, place + n ≤ s.start ∨ s.stop ≤ place) :
    ∃ out', copyRegion source out start place n = .ok out' ∧
      Filled 0 size (⟨place, slice source start n⟩ :: regions) out' := by
  have hlength := length_slice hsource
  refine ⟨_, copyRegion_eq n hsource (h.length.symm ▸ hroom) (h.slice_blank hroom hapart),
    h.write (r := ⟨place, slice source start n⟩) ?_ fun s hs => ?_⟩
  · show place + (slice source start n).length ≤ size
    rw [hlength]
    exact hroom
  · show place + (slice source start n).length ≤ s.start ∨ s.stop ≤ place
    rw [hlength]
    exact hapart s hs

/-! ## Layouts -/

/-- The partitions lie in order between the two tables. -/
structure InOrder (size : ℕ) (layout : List Partition) : Prop where
  bounds : ∀ p ∈ layout, 34 * sectorSize ≤ p.offset ∧
    p.offset + p.length + 33 * sectorSize ≤ size
  ordered : layout.Pairwise fun p q => p.offset + p.length ≤ q.offset

/-- One entry more. -/
theorem InOrder.placeEntry {placed placed' : List Partition} {entry : List UInt8}
    (h : InOrder size placed) (hplace : placeEntry size placed entry = .ok placed') :
    InOrder size placed' := by
  unfold Firmware.placeEntry at hplace
  split_ifs at hplace with hunused
  · cases hplace
    exact h
  · split at hplace
    · cases hplace
    · dsimp only at hplace
      split_ifs at hplace with hbounds hover
      cases hplace
      refine ⟨fun p hp => ?_, ?_⟩
      · rcases mem_append.1 hp with hp | hp
        · exact h.bounds p hp
        · obtain rfl := mem_singleton.1 hp
          simp only [sectorSize] at hbounds ⊢
          omega
      · refine pairwise_append.2 ⟨h.ordered, pairwise_singleton _ _, fun p hp q hq => ?_⟩
        obtain rfl := mem_singleton.1 hq
        -- The last partition ends behind all others.
        obtain ⟨front, last, rfl⟩ :=
          (eq_nil_or_concat placed).resolve_left (ne_nil_of_mem hp)
        simp only [concat_eq_append] at hp hover h
        rw [List.getLast?_concat, Option.any_some, decide_eq_true_iff, Nat.not_lt] at hover
        rcases mem_append.1 hp with hp | hp
        · have hlast := (pairwise_append.1 h.ordered).2.2 p hp last mem_cons_self
          exact hlast.trans ((Nat.le_add_right _ _).trans hover)
        · obtain rfl := mem_singleton.1 hp
          exact hover

theorem InOrder.foldlM {entries : List (List UInt8)} {placed layout : List Partition}
    (h : InOrder size placed) (hfold : entries.foldlM (Firmware.placeEntry size) placed = .ok layout) :
    InOrder size layout := by
  induction entries generalizing placed with
  | nil =>
    cases hfold
    exact h
  | cons entry entries ih =>
    rw [foldlM_cons] at hfold
    cases hplace : Firmware.placeEntry size placed entry with
    | error failure =>
      rw [hplace] at hfold
      cases hfold
    | ok placed' =>
      rw [hplace] at hfold
      exact ih (h.placeEntry hplace) hfold

/-- Where a step of a fold fails. -/
theorem exists_of_foldlM_error {α β ε : Type} {step : β → α → Except ε β} {xs : List α} {b : β}
    {failure : ε} (h : xs.foldlM step b = .error failure) :
    ∃ before x after b', xs = before ++ x :: after ∧ before.foldlM step b = .ok b' ∧
      step b' x = .error failure := by
  induction xs generalizing b with
  | nil => cases h
  | cons x xs ih =>
    rw [foldlM_cons] at h
    cases hstep : step b x with
    | error failure' =>
      rw [hstep] at h
      cases h
      exact ⟨[], x, xs, b, rfl, rfl, hstep⟩
    | ok next =>
      rw [hstep] at h
      obtain ⟨before, y, after, b', rfl, hbefore, hfails⟩ := ih h
      refine ⟨x :: before, y, after, b', rfl, ?_, hfails⟩
      rw [foldlM_cons, hstep]
      exact hbefore

variable {image image' template rootfs : List UInt8} {layout : List Partition}

/-- What is known of a template that is accepted. -/
theorem partitions_eq_ok (h : partitions image = .ok layout) :
    ∃ table, readTable image = .ok table ∧ InOrder image.length layout ∧
      layout.map Partition.name = partitionNames := by
  unfold partitions at h
  split at h
  · cases h
  · next table htable =>
    split at h
    · cases h
    · next placed hfold =>
      split_ifs at h with hnames
      cases h
      exact ⟨table, htable, (InOrder.mk (by simp) List.Pairwise.nil).foldlM hfold, hnames⟩

/-- A table that was read has the checksum of the header. -/
theorem readTable_eq_ok {table : List UInt8} (h : readTable image = .ok table) :
    table = slice image (tableStart (gptHeader image)) (tableLength (gptHeader image)) ∧
      tableStart (gptHeader image) + tableLength (gptHeader image) ≤ image.length ∧
      crc32 0 table = field (gptHeader image) 88 4 := by
  unfold readTable at h
  dsimp only at h
  split_ifs at h with hmagic hsize hheader hplace htable
  cases h
  exact ⟨rfl, by omega, not_not.1 htable⟩

/-- The table says what the partitions are. -/
theorem partitions_congr (hlength : image'.length = image.length)
    (hheader : gptHeader image' = gptHeader image)
    (htable : slice image' (tableStart (gptHeader image)) (tableLength (gptHeader image)) =
      slice image (tableStart (gptHeader image)) (tableLength (gptHeader image))) :
    partitions image' = partitions image := by
  have hread : readTable image' = readTable image := by
    unfold readTable
    dsimp only
    rw [hheader, htable, hlength]
  unfold partitions
  rw [hread, hlength]

/-! ## The disk -/

/-- What a partition of the disk holds. -/
def Partition.content (mke2fs : Mke2fs) (template rootfs : List UInt8) (p : Partition) :
    List UInt8 :=
  if p.Kept then slice template p.offset p.length else mke2fs.image rootfs p.name p.length

/-- Where the first partition is. -/
def firstOffset (layout : List Partition) : ℕ := (layout.map Partition.offset).headD 0

/-- The regions of a disk that are written. -/
def written (mke2fs : Mke2fs) (template rootfs : List UInt8) (layout : List Partition) :
    List (Region UInt8) :=
  (layout.map fun p => ⟨p.offset, p.content mke2fs template rootfs⟩).reverse ++
    [⟨tailStart template, slice template (tailStart template) (33 * sectorSize)⟩,
      ⟨0, slice template 0 (firstOffset layout)⟩]

variable {mke2fs : Mke2fs}

theorem length_content {p : Partition} (h : p.offset + p.length ≤ template.length) :
    (p.content mke2fs template rootfs).length = p.length := by
  unfold Partition.content
  split
  · exact length_slice h
  · exact mke2fs.length rootfs p.name p.length

/-- One partition more. -/
theorem exists_buildPartition (mke2fs : Mke2fs) (rootfs : List UInt8)
    {regions : List (Region UInt8)} {p : Partition} (h : Filled 0 size regions out) (hp : p.offset + p.length ≤ template.length)
    (hsize : template.length = size)
    (hapart : ∀ s ∈ regions, p.offset + p.length ≤ s.start ∨ s.stop ≤ p.offset) :
    ∃ out', buildPartition mke2fs template rootfs out p = .ok out' ∧
      Filled 0 size (⟨p.offset, p.content mke2fs template rootfs⟩ :: regions) out' := by
  unfold buildPartition Partition.content
  split
  · exact exists_copyRegion template _ _ _ h hp (hsize ▸ hp) hapart
  · have hlength := mke2fs.length rootfs p.name p.length
    have hcopy := exists_copyRegion (mke2fs.image rootfs p.name p.length) 0 _ _ h (by omega)
      (hsize ▸ hp) hapart
    rwa [slice_all hlength] at hcopy

theorem exists_foldlM_buildPartition (mke2fs : Mke2fs) (rootfs : List UInt8)
    {layout : List Partition} {regions : List (Region UInt8)}
    (h : Filled 0 size regions out) (hsize : template.length = size)
    (hroom : ∀ p ∈ layout, p.offset + p.length ≤ template.length)
    (hordered : layout.Pairwise fun p q => p.offset + p.length ≤ q.offset)
    (hapart : ∀ p ∈ layout, ∀ s ∈ regions, p.offset + p.length ≤ s.start ∨ s.stop ≤ p.offset) :
    ∃ out', layout.foldlM (buildPartition mke2fs template rootfs) out = .ok out' ∧
      Filled 0 size ((layout.map fun p => ⟨p.offset, p.content mke2fs template rootfs⟩).reverse ++
        regions) out' := by
  induction layout generalizing regions out with
  | nil => exact ⟨out, rfl, h⟩
  | cons p layout ih =>
    rw [forall_mem_cons] at hroom hapart
    rw [pairwise_cons] at hordered
    obtain ⟨middle, hbuild, hmiddle⟩ :=
      exists_buildPartition mke2fs rootfs h hroom.1 hsize hapart.1
    obtain ⟨out', hrest, hout'⟩ := ih hmiddle hroom.2 hordered.2 fun q hq s hs => by
      rcases mem_cons.1 hs with rfl | hs
      · right
        show p.offset + (p.content mke2fs template rootfs).length ≤ q.offset
        rw [length_content hroom.1]
        exact hordered.1 q hq
      · exact hapart.2 q hq s hs
    refine ⟨out', ?_, ?_⟩
    · rw [foldlM_cons, hbuild]
      exact hrest
    · rwa [map_cons, reverse_cons, append_assoc, singleton_append]

/-- There is a first partition, and the tables at the end have their room. -/
theorem exists_first (hlayout : partitions template = .ok layout) :
    ∃ first rest, layout = first :: rest ∧ InOrder template.length layout ∧
      34 * sectorSize ≤ first.offset ∧ first.offset ≤ tailStart template ∧
      tailStart template + 33 * sectorSize = template.length := by
  obtain ⟨-, -, hlaid, hnames⟩ := partitions_eq_ok hlayout
  cases layout with
  | nil => cases hnames
  | cons first rest =>
    obtain ⟨hlow, hhigh⟩ := hlaid.bounds first mem_cons_self
    have htail : tailStart template + 33 * sectorSize = template.length :=
      Nat.sub_add_cancel (by omega)
    exact ⟨first, rest, rfl, hlaid, hlow, by omega, htail⟩

theorem buildDisk_cons {first : Partition} (hlayout : partitions template = .ok (first :: layout))
    (hrootfs : rootfs.length % 4096 = 0) :
    buildDisk (some mke2fs) template rootfs = (do
      let output ← copyRegion template (List.replicate template.length 0) 0 0 first.offset
      let output ← copyRegion template output (tailStart template) (tailStart template)
        (33 * sectorSize)
      (first :: layout).foldlM (buildPartition mke2fs template rootfs) output) := by
  unfold buildDisk
  rw [if_neg (not_not.2 hrootfs), hlayout]

/-- A disk is built, and its regions say what it is. -/
theorem exists_buildDisk (mke2fs : Mke2fs) (hlayout : partitions template = .ok layout)
    (hrootfs : rootfs.length % 4096 = 0) :
    ∃ out, buildDisk (some mke2fs) template rootfs = .ok out ∧
      Filled 0 template.length (written mke2fs template rootfs layout) out := by
  obtain ⟨first, layout, rfl, hlaid, -, hfirst, htail⟩ := exists_first hlayout
  have hgap : 0 + (slice template 0 first.offset).length = first.offset := by
    rw [length_slice (by omega), Nat.zero_add]
  obtain ⟨front, hfront, hfilled⟩ := exists_copyRegion template 0 0 first.offset
    (filled_nil : Filled (0 : UInt8) template.length [] _) (by omega) (by omega) (by simp)
  obtain ⟨tables, htables, hfilled⟩ := exists_copyRegion template (tailStart template)
    (tailStart template) (33 * sectorSize) hfilled htail.le htail.le fun s hs => by
      obtain rfl := mem_singleton.1 hs
      right
      show 0 + (slice template 0 first.offset).length ≤ tailStart template
      rw [hgap]
      omega
  obtain ⟨out, hout, hfilled⟩ := exists_foldlM_buildPartition mke2fs rootfs hfilled rfl
    (fun p hp => by have := (hlaid.bounds p hp).2; omega) hlaid.ordered fun p hp s hs => by
      have hp' := (hlaid.bounds p hp).2
      rcases mem_cons.1 hs with rfl | hs
      · left
        show p.offset + p.length ≤ tailStart template
        omega
      · obtain rfl := mem_singleton.1 hs
        right
        show 0 + (slice template 0 first.offset).length ≤ p.offset
        rw [hgap]
        rcases mem_cons.1 hp with rfl | hp
        · exact le_rfl
        · exact (Nat.le_add_right _ _).trans ((pairwise_cons.1 hlaid.ordered).1 p hp)
  refine ⟨out, ?_, hfilled⟩
  have hbind (output : List UInt8) (f : List UInt8 → Except Failure (List UInt8)) :
      (Except.ok output >>= f) = f output := rfl
  rw [buildDisk_cons hlayout hrootfs, hfront, hbind, htables, hbind]
  exact hout

/-! ## What is kept -/

/-- The bytes of the template that are copied. -/
def Copied (template : List UInt8) (layout : List Partition) (i : ℕ) : Prop :=
  i < firstOffset layout ∨ tailStart template ≤ i ∨
    ∃ p ∈ layout, p.Kept ∧ p.offset ≤ i ∧ i < p.offset + p.length

/-- The table of the partitions lies in what is copied. -/
def TableCopied (template : List UInt8) (layout : List Partition) : Prop :=
  ∀ i, tableStart (gptHeader template) ≤ i →
    i < tableStart (gptHeader template) + tableLength (gptHeader template) →
    Copied template layout i

/-- The disk keeps the layout, the partitions to boot from and nothing else of the template. -/
structure Preserves (mke2fs : Mke2fs) (template rootfs : List UInt8) (layout : List Partition)
    (out : List UInt8) : Prop where
  table : partitions out = .ok layout
  kept : ∀ p ∈ layout, p.Kept → slice out p.offset p.length = slice template p.offset p.length
  fresh : ∀ p ∈ layout, ¬ p.Kept →
    slice out p.offset p.length = mke2fs.image rootfs p.name p.length
  confined : ∀ template' : List UInt8, template'.length = template.length →
    (∀ i, Copied template layout i → template'[i]? = template[i]?) →
    buildDisk (some mke2fs) template' rootfs = .ok out

/-- Disks of this template keep its layout, and if it is not accepted that is reported. -/
def LayoutPreserved (template : List UInt8) : Prop :=
  (∀ layout mke2fs rootfs out, partitions template = .ok layout → rootfs.length % 4096 = 0 →
    buildDisk (some mke2fs) template rootfs = .ok out →
    Preserves mke2fs template rootfs layout out) ∧
  ∀ failure, partitions template = .error failure → ∀ mke2fs rootfs,
    ∃ message, buildDisk mke2fs template rootfs = .error (.firmware message)

/-- The first thing that is wrong with an entry is that its name is no text. -/
def Misnamed (template : List UInt8) : Prop :=
  ∃ table before entry after placed, readTable template = .ok table ∧
    tableEntries table = before ++ entry :: after ∧
    before.foldlM (placeEntry template.length) [] = .ok placed ∧
    (¬ ∀ b ∈ entry.take 16, b = 0) ∧ decodeUtf16 (slice entry 56 72) = none

/-- What is copied lies in a region that is written. -/
theorem getElem?_copied (hlayout : partitions template = .ok layout)
    (h : Filled 0 template.length (written mke2fs template rootfs layout) out) {i : ℕ}
    (hi : Copied template layout i) : out[i]? = template[i]? := by
  obtain ⟨first, rest, rfl, hlaid, -, hfirst, htail⟩ := exists_first hlayout
  have hregion {start n : ℕ}
      (hmem : ⟨start, slice template start n⟩ ∈ written mke2fs template rootfs (first :: rest))
      (hroom : start + n ≤ template.length) (hlow : start ≤ i) (hhigh : i < start + n) :
      out[i]? = template[i]? := by
    have hcovers : i < start + (slice template start n).length := by rwa [length_slice hroom]
    rw [h.inside _ hmem i ⟨hlow, hcovers⟩, getElem?_slice,
      if_pos ((Nat.sub_lt_iff_lt_add' hlow).2 hhigh)]
    rw [Nat.add_sub_cancel' hlow]
  by_cases hend : i < template.length
  · rcases hi with hi | hi | ⟨p, hp, hkept, hlow, hhigh⟩
    · exact hregion (n := first.offset) (by simp [written, firstOffset]) (by omega)
        (Nat.zero_le i) (by rwa [Nat.zero_add])
    · exact hregion (by simp [written]) htail.le hi (by omega)
    · refine hregion (mem_append_left _ (mem_reverse.2 (mem_map.2 ⟨p, hp, ?_⟩)))
        (by have := (hlaid.bounds p hp).2; omega) hlow hhigh
      rw [Partition.content, if_pos hkept]
  · rw [List.getElem?_eq_none (Nat.le_of_not_lt hend),
      List.getElem?_eq_none (h.length.symm ▸ Nat.le_of_not_lt hend)]

theorem slice_of_copied {start n : ℕ}
    (hsame : ∀ i, Copied template layout i → image[i]? = template[i]?)
    (hcopied : ∀ i, start ≤ i → i < start + n → Copied template layout i) :
    slice image start n = slice template start n := by
  refine ext_getElem? fun k => ?_
  rw [getElem?_slice, getElem?_slice]
  split
  · next hk => exact hsame _ (hcopied _ (Nat.le_add_right _ _) (Nat.add_lt_add_left hk _))
  · rfl

/-- The bytes that are copied say what the layout is. -/
theorem partitions_of_copied (hlayout : partitions template = .ok layout)
    (htable : TableCopied template layout) (hlength : image.length = template.length)
    (hsame : ∀ i, Copied template layout i → image[i]? = template[i]?) :
    partitions image = .ok layout := by
  obtain ⟨first, rest, rfl, -, hfirst, -, -⟩ := exists_first hlayout
  have hheader : gptHeader image = gptHeader template :=
    slice_of_copied hsame fun i _ hi => Or.inl (by show i < first.offset; omega)
  exact (partitions_congr hlength hheader (slice_of_copied hsame htable)).trans hlayout

theorem written_of_copied {template' : List UInt8} (hlength : template'.length = template.length)
    (hsame : ∀ i, Copied template layout i → template'[i]? = template[i]?) :
    written mke2fs template' rootfs layout = written mke2fs template rootfs layout := by
  have hcontent : ∀ p ∈ layout,
      p.content mke2fs template' rootfs = p.content mke2fs template rootfs := by
    intro p hp
    unfold Partition.content
    split
    · next hkept =>
      exact slice_of_copied hsame fun i hlow hhigh => Or.inr (Or.inr ⟨p, hp, hkept, hlow, hhigh⟩)
    · rfl
  have htail : tailStart template' = tailStart template := by rw [tailStart, tailStart, hlength]
  unfold written
  rw [htail, slice_of_copied hsame fun i hi _ => Or.inr (Or.inl hi),
    slice_of_copied hsame fun i _ hi => Or.inl ((Nat.zero_add (firstOffset layout)).subst hi),
    map_congr_left fun p hp => by rw [hcontent p hp]]

/-- With its table in what is copied, a template is preserved. -/
theorem preserves_of_tableCopied (hlayout : partitions template = .ok layout)
    (htable : TableCopied template layout) (hrootfs : rootfs.length % 4096 = 0)
    (hbuild : buildDisk (some mke2fs) template rootfs = .ok out) :
    Preserves mke2fs template rootfs layout out := by
  obtain ⟨-, -, hlaid, -⟩ := partitions_eq_ok hlayout
  obtain ⟨out', hbuild', hfilled⟩ := exists_buildDisk mke2fs hlayout hrootfs
  obtain rfl : out = out' := Except.ok.inj (hbuild.symm.trans hbuild')
  have hcontent : ∀ p ∈ layout,
      slice out p.offset p.length = p.content mke2fs template rootfs := by
    intro p hp
    have hroom := (hlaid.bounds p hp).2
    have hregion := hfilled.slice_region (r := ⟨p.offset, p.content mke2fs template rootfs⟩)
      (mem_append_left _ (mem_reverse.2 (mem_map.2 ⟨p, hp, rfl⟩)))
    rwa [show (Region.mk p.offset (p.content mke2fs template rootfs)).bytes.length = p.length from
      length_content (by omega)] at hregion
  refine ⟨?_, fun p hp hkept => (hcontent p hp).trans (if_pos hkept),
    fun p hp hkept => (hcontent p hp).trans (if_neg hkept), fun template' hlength hsame => ?_⟩
  · exact partitions_of_copied hlayout htable hfilled.length fun i hi =>
      getElem?_copied hlayout hfilled hi
  · obtain ⟨out', hbuild', hfilled'⟩ := exists_buildDisk mke2fs
      (partitions_of_copied hlayout htable hlength hsame) hrootfs
    rw [hlength, written_of_copied hlength hsame] at hfilled'
    rw [hbuild', hfilled'.unique hfilled]

/-! ## What is lost -/

/-- A table with one other byte is not accepted. -/
theorem partitions_set_ne_ok {i : ℕ} {b : UInt8} {layout' : List Partition}
    (hlayout : partitions template = .ok layout) (hpast : 2 * sectorSize ≤ i)
    (hlow : tableStart (gptHeader template) ≤ i)
    (hhigh : i < tableStart (gptHeader template) + tableLength (gptHeader template))
    (hb : template[i]? ≠ some b) : partitions (template.set i b) ≠ .ok layout' := by
  intro hlayout'
  obtain ⟨table, htable, -, -⟩ := partitions_eq_ok hlayout
  obtain ⟨rfl, hroom, hcrc⟩ := readTable_eq_ok htable
  obtain ⟨table', htable', -, -⟩ := partitions_eq_ok hlayout'
  obtain ⟨rfl, -, hcrc'⟩ := readTable_eq_ok htable'
  have hheader : gptHeader (template.set i b) = gptHeader template := by
    refine ext_getElem? fun k => ?_
    rw [gptHeader, gptHeader, getElem?_slice, getElem?_slice]
    split
    · exact List.getElem?_set_ne (by omega)
    · rfl
  rw [hheader, slice_set hlow, ← hcrc] at hcrc'
  have hk : i - tableStart (gptHeader template) <
      (slice template (tableStart (gptHeader template))
        (tableLength (gptHeader template))).length := by
    rw [length_slice hroom]
    omega
  have hsame := eq_of_crc32_set (by decide) hk hcrc'
  have hread := getElem?_slice template (tableStart (gptHeader template))
    (tableLength (gptHeader template)) (i - tableStart (gptHeader template))
  rw [List.getElem?_eq_getElem hk, ← hsame, if_pos (by omega), Nat.add_sub_cancel' hlow] at hread
  exact hb hread.symm

theorem exists_partitions {mke2fs : Option Mke2fs}
    (h : buildDisk mke2fs template rootfs = .ok out) : ∃ layout, partitions template = .ok layout := by
  cases hlayout : partitions template with
  | ok layout => exact ⟨layout, rfl⟩
  | error failure =>
    unfold buildDisk at h
    rw [hlayout] at h
    split_ifs at h

/-- Where a byte of the table is not copied, another one there makes the template useless. -/
theorem tableCopied_of_layoutPreserved (h : LayoutPreserved template)
    (hlayout : partitions template = .ok layout) : TableCopied template layout := by
  intro i hlow hhigh
  by_contra hfree
  obtain ⟨out, hbuild, -⟩ := exists_buildDisk
    ⟨fun _ _ n => List.replicate n 0, fun _ _ _ => length_replicate⟩ hlayout
    (show ([] : List UInt8).length % 4096 = 0 from rfl)
  obtain ⟨first, rest, rfl, -, hfirst, -, -⟩ := exists_first hlayout
  have hpast : first.offset ≤ i := Nat.le_of_not_lt fun hi => hfree (Or.inl hi)
  obtain ⟨b, hb⟩ : ∃ b, template[i]? ≠ some b := by
    rcases eq_or_ne template[i]? (some 0) with hzero | hzero
    · exact ⟨1, by rw [hzero]; decide⟩
    · exact ⟨0, hzero⟩
  have hconfined := (h.1 _ _ _ _ hlayout rfl hbuild).confined (template.set i b)
    length_set fun k hk => List.getElem?_set_ne (by rintro rfl; exact hfree hk)
  obtain ⟨layout', hlayout'⟩ := exists_partitions hconfined
  exact partitions_set_ne_ok hlayout (by omega) hlow hhigh hb hlayout'

/-! ## What is reported -/

theorem exists_message_of_readTable {failure : Failure} (h : readTable image = .error failure) :
    ∃ message, failure = .firmware message := by
  unfold readTable at h
  dsimp only at h
  split_ifs at h <;> cases h <;> exact ⟨_, rfl⟩

/-- All but a name that is no text is reported. -/
theorem exists_message {failure : Failure} (hnamed : ¬ Misnamed template)
    (h : partitions template = .error failure) : ∃ message, failure = .firmware message := by
  unfold partitions at h
  split at h
  · next failure' hread =>
    cases h
    exact exists_message_of_readTable hread
  · next table hread =>
    split at h
    · next failure' hfold =>
      cases h
      obtain ⟨before, entry, after, placed, hsplit, hbefore, hentry⟩ := exists_of_foldlM_error hfold
      unfold placeEntry at hentry
      split_ifs at hentry with hunused
      split at hentry
      · next hname =>
        exact absurd ⟨table, before, entry, after, placed, hread, hsplit, hbefore, hunused, hname⟩
          hnamed
      · dsimp only at hentry
        split_ifs at hentry <;> cases hentry <;> exact ⟨_, rfl⟩
    · split_ifs at h
      cases h
      exact ⟨_, rfl⟩

theorem partitions_of_misnamed (h : Misnamed template) : partitions template = .error .unicode := by
  obtain ⟨table, before, entry, after, placed, hread, hsplit, hbefore, hunused, hname⟩ := h
  have hentry : placeEntry template.length placed entry = .error .unicode := by
    unfold placeEntry
    rw [if_neg hunused, hname]
  have hfold : (tableEntries table).foldlM (placeEntry template.length) [] = .error .unicode := by
    rw [hsplit, foldlM_append, hbefore]
    show (entry :: after).foldlM (placeEntry template.length) placed = _
    rw [foldlM_cons, hentry]
    rfl
  simp only [partitions, hread, hfold]

theorem buildDisk_of_error {failure : Failure} {mke2fs : Option Mke2fs}
    (h : partitions template = .error failure) (hrootfs : rootfs.length % 4096 = 0) :
    buildDisk mke2fs template rootfs = .error failure := by
  unfold buildDisk
  rw [if_neg (not_not.2 hrootfs), h]

theorem layoutPreserved_iff (template : List UInt8) :
    LayoutPreserved template ↔
      (∀ layout, partitions template = .ok layout → TableCopied template layout) ∧
        ¬ Misnamed template := by
  constructor
  · intro h
    refine ⟨fun layout hlayout => tableCopied_of_layoutPreserved h hlayout, fun hmisnamed => ?_⟩
    have herror := partitions_of_misnamed hmisnamed
    obtain ⟨message, hmessage⟩ := h.2 .unicode herror none []
    rw [buildDisk_of_error herror rfl] at hmessage
    cases hmessage
  · rintro ⟨htable, hnamed⟩
    refine ⟨fun layout mke2fs rootfs out hlayout hrootfs hbuild =>
      preserves_of_tableCopied hlayout (htable layout hlayout) hrootfs hbuild, ?_⟩
    intro failure herror mke2fs rootfs
    by_cases hrootfs : rootfs.length % 4096 = 0
    · obtain ⟨message, rfl⟩ := exists_message hnamed herror
      exact ⟨message, buildDisk_of_error herror hrootfs⟩
    · exact ⟨_, if_pos hrootfs⟩

/-- A template of three sectors and one entry, named by half of a surrogate pair. -/
def misnamedTemplate : List UInt8 :=
  List.replicate 512 0 ++
    ([69, 70, 73, 32, 80, 65, 82, 84, 0, 0, 0, 0, 92, 0, 0, 0, 27, 79, 248, 223] ++
      List.replicate 52 0 ++ [2, 0, 0, 0, 0, 0, 0, 0, 1, 0, 0, 0, 128, 0, 0, 0, 82, 142, 104, 199]) ++
    List.replicate 420 0 ++
    (1 :: List.replicate 31 0 ++ [34, 0, 0, 0, 0, 0, 0, 0, 34, 0, 0, 0, 0, 0, 0, 0] ++
      List.replicate 8 0 ++ [0, 0xD8] ++ List.replicate 70 0)

theorem not_layoutPreserved : ¬ ∀ template, LayoutPreserved template := by
  intro h
  have herror : partitions misnamedTemplate = .error .unicode := by decide +kernel
  obtain ⟨message, hmessage⟩ := (h misnamedTemplate).2 .unicode herror none []
  rw [buildDisk_of_error herror rfl] at hmessage
  cases hmessage

end MachineEmu.Firmware
