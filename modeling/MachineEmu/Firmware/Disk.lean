import MachineEmu.Firmware.Cpio
import MachineEmu.Lib.Bytes
import MachineEmu.Lib.Crc32
import Mathlib.Data.List.DropRight

/-!
# Disks

The partition table of a template disk, and the disk that is built from it. A file is the list of
its bytes.

* `partitions` — the layout of a template that is accepted.
* `copyRegion` — a region is copied, and blocks of zeros are skipped.
* `buildDisk` — the disk with the boot partitions of the template and fresh ones for the rest.

The file that is built and the scratch files are new ones.
-/

namespace MachineEmu.Firmware

open Lib

/-! ## Texts -/

/-- The characters of some units of UTF-16; a surrogate without its other half is an error. -/
def decodeUnits : List ℕ → Option (List Char)
  | [] => some []
  | unit :: rest =>
    if unit < 0xD800 ∨ 0xE000 ≤ unit then (decodeUnits rest).map (Char.ofNat unit :: ·)
    else
      match rest with
      | [] => none
      | low :: rest =>
        if unit < 0xDC00 ∧ 0xDC00 ≤ low ∧ low < 0xE000 then
          (decodeUnits rest).map
            (Char.ofNat (0x10000 + (unit - 0xD800) * 0x400 + (low - 0xDC00)) :: ·)
        else none

/-- `value.decode('utf-16-le')`, for a value of even length. -/
def decodeUtf16 (value : List UInt8) : Option (List Char) :=
  decodeUnits ((List.range (value.length / 2)).map fun i => leNat (slice value (2 * i) 2))

/-- `text.rstrip('\0')`. -/
def stripZeros (text : List Char) : List Char := text.rdropWhile (· = '\x00')

/-! ## The partition table -/

/-- `SECTOR`. -/
def sectorSize : ℕ := 512

/-- `PARTITIONS`. -/
def partitionNames : List (List Char) :=
  ["boot".toList, "recovery".toList, "root".toList, "log".toList, "persistent".toList,
    "overlay".toList]

structure Partition where
  name : List Char
  offset : ℕ
  length : ℕ
  deriving DecidableEq

/-- The sector of the header. -/
def gptHeader (image : List UInt8) : List UInt8 := slice image sectorSize sectorSize

/-- `EFI PART`. -/
def gptMagic : List UInt8 := [69, 70, 73, 32, 80, 65, 82, 84]

/-- A little-endian number of a header or an entry. -/
def field (record : List UInt8) (offset width : ℕ) : ℕ := leNat (slice record offset width)

/-- Where the header says that the table is, and how many entries it has. -/
def tableStart (header : List UInt8) : ℕ := field header 72 8 * sectorSize

def tableLength (header : List UInt8) : ℕ := field header 80 4 * 128

/-- The header without its checksum. -/
def unsigned (header : List UInt8) : List UInt8 := splice header 16 [0, 0, 0, 0]

/-- The bytes of the table, after the checks of the header. Source: `partitions`. -/
def readTable (image : List UInt8) : Except Failure (List UInt8) :=
  let header := gptHeader image
  if header.length ≠ sectorSize ∨ header.take 8 ≠ gptMagic then
    .error (.firmware "boot template requires GPT")
  else if ¬(92 ≤ field header 12 4 ∧ field header 12 4 ≤ sectorSize) then
    .error (.firmware "invalid GPT header size")
  else if crc32 0 ((unsigned header).take (field header 12 4)) ≠ field header 16 4 then
    .error (.firmware "GPT header checksum mismatch")
  else if 128 < field header 80 4 ∨ field header 84 4 ≠ 128 ∨
      image.length < tableStart header + tableLength header then
    .error (.firmware "unsupported GPT partition table")
  else if crc32 0 (slice image (tableStart header) (tableLength header)) ≠ field header 88 4 then
    .error (.firmware "GPT partition checksum mismatch")
  else .ok (slice image (tableStart header) (tableLength header))

/-- The entries of a table. -/
def tableEntries (table : List UInt8) : List (List UInt8) :=
  (List.range (table.length / 128)).map fun i => slice table (128 * i) 128

/-- One turn of the loop over the entries. Source: `partitions`. -/
def placeEntry (size : ℕ) (placed : List Partition) (entry : List UInt8) :
    Except Failure (List Partition) :=
  let first := field entry 32 8
  let last := field entry 40 8
  if ∀ b ∈ entry.take 16, b = 0 then .ok placed
  else
    match decodeUtf16 (slice entry 56 72) with
    | none => .error .unicode
    | some name =>
      if first < 34 ∨ last < first ∨ size < (last + 1) * sectorSize + 33 * sectorSize then
        .error (.firmware "GPT partition exceeds image bounds")
      else if placed.getLast?.any fun p => first * sectorSize < p.offset + p.length then
        .error (.firmware "overlapping GPT partitions")
      else
        .ok (placed ++ [⟨stripZeros name, first * sectorSize, (last - first + 1) * sectorSize⟩])

/-- Source: `partitions`. -/
def partitions (image : List UInt8) : Except Failure (List Partition) :=
  match readTable image with
  | .error failure => .error failure
  | .ok table =>
    match (tableEntries table).foldlM (placeEntry image.length) [] with
    | .error failure => .error failure
    | .ok layout =>
      if layout.map Partition.name = partitionNames then .ok layout
      else
        .error (.firmware ("UDM boot template requires " ++
          "boot/recovery/root/log/persistent/overlay GPT partitions"))

/-! ## Copies -/

/-- The loop of a copy. Source: `copy_region`. -/
def copyRegion (source target : List UInt8) (sourceOffset targetOffset remaining : ℕ) :
    Except Failure (List UInt8) :=
  if remaining = 0 then .ok target
  else
    let data := slice source sourceOffset (min remaining (1024 * 1024))
    if data = [] then .error (.firmware "truncated disk input")
    else
      copyRegion source (if ∀ b ∈ data, b = 0 then target else splice target targetOffset data)
        (sourceOffset + data.length) (targetOffset + data.length) (remaining - data.length)
termination_by remaining
decreasing_by
  have hlength : 0 < data.length := List.length_pos_iff.2 ‹_›
  exact Nat.sub_lt (Nat.pos_of_ne_zero ‹_›) hlength

/-- `mke2fs`: the image it leaves in a file of this length for the partition of this name. -/
structure Mke2fs where
  image : List UInt8 → List Char → ℕ → List UInt8
  length : ∀ rootfs name n, (image rootfs name n).length = n

/-- Whether a partition is that of the template. -/
def Partition.Kept (p : Partition) : Prop := p.name = "boot".toList ∨ p.name = "recovery".toList

instance (p : Partition) : Decidable p.Kept := inferInstanceAs (Decidable (_ ∨ _))

/-- One partition of the disk. Source: `build_disk`. -/
def buildPartition (mke2fs : Mke2fs) (template rootfs output : List UInt8) (p : Partition) :
    Except Failure (List UInt8) :=
  if p.Kept then copyRegion template output p.offset p.offset p.length
  else copyRegion (mke2fs.image rootfs p.name p.length) output 0 p.offset p.length

/-- The tables at the end of the disk. -/
def tailStart (template : List UInt8) : ℕ := template.length - 33 * sectorSize

/-- Source: `build_disk`. -/
def buildDisk (mke2fs : Option Mke2fs) (template rootfs : List UInt8) :
    Except Failure (List UInt8) :=
  if rootfs.length % 4096 ≠ 0 then
    .error (.firmware "the rootfs image must be padded to a loop-device sector boundary")
  else
    match partitions template, mke2fs with
    | .error failure, _ => .error failure
    | .ok _, none =>
      .error (.firmware "mke2fs is required for unprivileged UDM disk construction")
    | .ok [], some _ => .error .index
    | .ok (first :: layout), some mke2fs => do
      let output ← copyRegion template (List.replicate template.length 0) 0 0 first.offset
      let output ← copyRegion template output (tailStart template) (tailStart template)
        (33 * sectorSize)
      (first :: layout).foldlM (buildPartition mke2fs template rootfs) output

end MachineEmu.Firmware
