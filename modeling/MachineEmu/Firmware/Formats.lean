import MachineEmu.Firmware.Cpio
import MachineEmu.Lib.Bytes
import MachineEmu.Lib.Crc32

/-!
# Containers of firmware

The readers of `formats.py` for containers with checked sections and for flattened device trees. A
file is the list of its bytes; it does not change while it is read.

* `container`, `Section.read` — the sections of a container, and the bytes of one.
* `fdt` — the nodes of a device tree with their properties.
-/

namespace MachineEmu.Firmware

open Lib

/-! ## Texts -/

/-- `value.decode('ascii')`. -/
def decodeAscii (value : List UInt8) : Except Failure (List Char) :=
  if ∀ b ∈ value, b < 128 then .ok (value.map fun b => Char.ofNat b.toNat) else .error .unicode

/-- `value.split(b'\0')[0]`. -/
def beforeZero (value : List UInt8) : List UInt8 := value.takeWhile (· ≠ 0)

/-- A big-endian number of 32 bits. -/
def word (data : List UInt8) (off : ℕ) : ℕ := beNat (slice data off 4)

/-! ## Containers -/

structure Section where
  name : List Char
  kind : List Char
  offset : ℕ
  size : ℕ

def Section.read (s : Section) (source : List UInt8) : Except Failure (List UInt8) :=
  if maxPayload < s.size then .error (.firmware "payload exceeds reader limit")
  else if (slice source s.offset s.size).length ≠ s.size then .error (.firmware "truncated payload")
  else .ok (slice source s.offset s.size)

def headerLength : ℕ := 0x10c

/-- `UBNT`, `GEOS` and `OPEN`. -/
def containerMagics : List (List UInt8) := [[85, 66, 78, 84], [71, 69, 79, 83], [79, 80, 69, 78]]

def endsMagic : List UInt8 := [69, 78, 68, 83]

/-- `PART` and `EMMC`. -/
def sectionMagics : List (List UInt8) := [[80, 65, 82, 84], [69, 77, 77, 67]]

/-- How many sections are read. -/
def maxSections : ℕ := 64

def versionField (source : List UInt8) : List UInt8 := beforeZero (slice source 4 0x100)

/-- The name in the record of a section. -/
def nameField (record : List UInt8) : List UInt8 := beforeZero (slice record 4 16)

/-- The data of a section is read in chunks: its checksum, and the position after it. -/
def readChunks (source : List UInt8) (position remaining crc : ℕ) : Except Failure (ℕ × ℕ) :=
  if 0 < remaining then
    if slice source position (min remaining (1024 * 1024)) = [] then
      .error (.firmware "truncated container data")
    else
      readChunks source
        (position + (slice source position (min remaining (1024 * 1024))).length)
        (remaining - (slice source position (min remaining (1024 * 1024))).length)
        (crc32 crc (slice source position (min remaining (1024 * 1024))))
  else .ok (crc, position)
termination_by remaining
decreasing_by
  have hpos := List.length_pos_of_ne_nil ‹_›
  omega

/-- The record of a section: its magic number, and what is read behind it. -/
def sectionRecord (source : List UInt8) (start : ℕ) : List UInt8 :=
  slice source start 4 ++ slice source (start + 4) 52

/-- The size of the data, as the record has it. -/
def sectionLength (source : List UInt8) (start : ℕ) : ℕ := word (sectionRecord source start) 48

def sectionCapacity (source : List UInt8) (start : ℕ) : ℕ := word (sectionRecord source start) 52

/-- A section whose magic number is read. -/
def readSection (source : List UInt8) (sections : List Section) (start : ℕ) :
    Except Failure Section :=
  if slice source start 4 ∉ sectionMagics then
    .error (.firmware "unsupported container record or missing ENDS trailer")
  else if (sectionRecord source start).length ≠ 56 then
    .error (.firmware "truncated container record")
  else
    match decodeAscii (nameField (sectionRecord source start)) with
    | .error failure => .error failure
    | .ok name =>
      if name = [] ∨ name ∈ sections.map (·.name) ∨
          sectionCapacity source start < sectionLength source start ∨
          source.length < start + 64 + sectionLength source start then
        .error (.firmware "invalid or duplicate container section")
      else
        match readChunks source (start + 56) (sectionLength source start)
            (crc32 0 (sectionRecord source start)) with
        | .error failure => .error failure
        | .ok (crc, position) =>
          if (slice source position 8).length ≠ 8 ∨ crc ≠ word source position then
            .error (.firmware ("container section CRC mismatch: " ++ String.ofList name))
          else
            match Utf8.decode (slice source start 4) with
            | none => .error .unicode
            | some kind => .ok ⟨name, kind, start + 56, sectionLength source start⟩

/-- The sections from a position on. -/
def readSections (source : List UInt8) (version : List Char) :
    ℕ → ℕ → List Section → Except Failure (List Char × List Section)
  | 0, _, _ => .error (.firmware "too many container records")
  | n + 1, start, sections =>
    if slice source start 4 = endsMagic then
      if source.length - start ≠ 264 ∨ slice source (start + 260) 4 ≠ [0, 0, 0, 0] then
        .error (.firmware "invalid ENDS signature trailer")
      else .ok (version, sections)
    else
      match readSection source sections start with
      | .error failure => .error failure
      | .ok s => readSections source version n (start + 64 + s.size) (sections ++ [s])

def container (source : List UInt8) : Except Failure (List Char × List Section) :=
  if source.length < headerLength ∨ source.take 4 ∉ containerMagics then
    .error (.firmware "unsupported firmware container")
  else if crc32 0 (source.take 0x104) ≠ word source 0x104 then
    .error (.firmware "container header CRC mismatch")
  else
    match decodeAscii (versionField source) with
    | .error failure => .error failure
    | .ok version => readSections source version maxSections headerLength []

/-! ## Device trees -/

/-- `(off + 3) & ~3`. -/
def alignToken (off : ℕ) : ℕ := (off + 3) / 4 * 4

/-- The bytes between two positions up to a zero, and whether there is one. -/
def terminatedField (blob : List UInt8) (start limit : ℕ) : List UInt8 :=
  beforeZero (slice blob start (limit - start))

def IsTerminated (blob : List UInt8) (start limit : ℕ) : Prop :=
  0 ∈ slice blob start (limit - start)

instance (blob : List UInt8) (start limit : ℕ) : Decidable (IsTerminated blob start limit) :=
  inferInstanceAs (Decidable (0 ∈ slice blob start (limit - start)))

/-- A name up to a zero. The position behind it is one byte a letter away, and the zero. -/
def terminated (blob : List UInt8) (start limit : ℕ) : Except Failure (List Char) :=
  if ¬IsTerminated blob start limit then .error (.firmware "unterminated FDT name")
  else decodeAscii (terminatedField blob start limit)

/-- The properties of a node. -/
abbrev Properties := List (List Char × List UInt8)

/-- The open nodes, and the nodes so far with their paths. -/
structure TreeState where
  stack : List (List Char)
  nodes : List (List Char × Properties)

/-- `'/'.join(stack) or '/'`. -/
def nodePath (stack : List (List Char)) : List Char :=
  let joined := List.intercalate ['/'] stack
  if joined = [] then ['/'] else joined

namespace TreeState

def init : TreeState := ⟨[], []⟩

def beginNode (name : List Char) (s : TreeState) : Except Failure TreeState :=
  if '/' ∈ name ∨ 64 < s.stack.length then .error (.firmware "invalid FDT node")
  else if nodePath (s.stack ++ [name]) ∈ s.nodes.map Prod.fst then
    .error (.firmware "duplicate FDT node")
  else .ok ⟨s.stack ++ [name], s.nodes ++ [(nodePath (s.stack ++ [name]), [])]⟩

def endNode (s : TreeState) : Except Failure TreeState :=
  if s.stack = [] then .error (.firmware "unbalanced FDT nodes")
  else .ok { s with stack := s.stack.dropLast }

/-- The properties of the innermost node. -/
def setProperty (name : List Char) (value : List UInt8) (s : TreeState) :
    Except Failure TreeState :=
  match s.nodes.find? (·.1 = nodePath s.stack) with
  | none => .error .key
  | some (_, properties) =>
    if name ∈ properties.map Prod.fst then .error (.firmware "duplicate FDT property")
    else
      .ok { s with nodes := s.nodes.map fun node =>
        if node.1 = nodePath s.stack then (node.1, node.2 ++ [(name, value)]) else node }

end TreeState

/-- What the header says: the bytes, the strings, and the bounds of the structure block. -/
structure Blob where
  data : List UInt8
  strings : List UInt8
  first : ℕ
  stop : ℕ

def Blob.readProperty (B : Blob) (off : ℕ) (s : TreeState) : Except Failure (ℕ × TreeState) :=
  if s.stack = [] ∨ B.stop < off + 8 then .error (.firmware "invalid FDT property")
  else if B.stop < off + 8 + word B.data off ∨ B.strings.length ≤ word B.data (off + 4) then
    .error (.firmware "FDT property out of bounds")
  else
    match terminated B.strings (word B.data (off + 4)) B.strings.length with
    | .error failure => .error failure
    | .ok name =>
      match s.setProperty name (slice B.data (off + 8) (word B.data off)) with
      | .error failure => .error failure
      | .ok s => .ok (word B.data off, s)

/-- The tokens from a position on. -/
def Blob.readTokens (B : Blob) (off : ℕ) (s : TreeState) :
    Except Failure (List (List Char × Properties)) :=
  if off + 4 ≤ B.stop then
    if word B.data off = 1 then
      match terminated B.data (off + 4) B.stop with
      | .error failure => .error failure
      | .ok name =>
        match s.beginNode name with
        | .error failure => .error failure
        | .ok s => B.readTokens (alignToken (off + 4 + name.length + 1)) s
    else if word B.data off = 2 then
      match s.endNode with
      | .error failure => .error failure
      | .ok s => B.readTokens (off + 4) s
    else if word B.data off = 3 then
      match B.readProperty (off + 4) s with
      | .error failure => .error failure
      | .ok (length, s) => B.readTokens (alignToken (off + 12 + length)) s
    else if word B.data off = 9 then
      if s.stack ≠ [] ∨ ['/'] ∉ s.nodes.map Prod.fst then .error (.firmware "incomplete FDT")
      else .ok s.nodes
    else if word B.data off = 4 then B.readTokens (off + 4) s
    else .error (.firmware "unknown FDT token")
  else .error (.firmware "missing FDT end token")
termination_by B.stop - off
decreasing_by
  · unfold alignToken
    omega
  · omega
  · unfold alignToken
    omega
  · omega

/-- The header, where it is accepted. -/
def fdtHeader (data : List UInt8) : Except Failure Blob :=
  if data.length < 40 then .error (.firmware "truncated FDT header")
  else if word data 0 ≠ 0xd00dfeed ∨ data.length < word data 4 ∨ maxPayload < word data 4 ∨
      word data 20 ≠ 17 then
    .error (.firmware "unsupported or truncated FDT")
  else if min (word data 8) (word data 12) < 40 ∨ word data 4 < word data 8 + word data 36 ∨
      word data 4 < word data 12 + word data 32 then
    .error (.firmware "FDT section out of bounds")
  else .ok ⟨data, slice data (word data 12) (word data 32), word data 8, word data 8 + word data 36⟩

def fdt (data : List UInt8) : Except Failure (List (List Char × Properties)) :=
  match fdtHeader data with
  | .error failure => .error failure
  | .ok B => B.readTokens B.first TreeState.init

end MachineEmu.Firmware
