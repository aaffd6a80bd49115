import Mathlib.Data.FinEnum
import MachineEmu.Lib.PosixPath
import MachineEmu.Lib.Python
import MachineEmu.Lib.Utf8

/-!
# Archives of firmware

The reader and the writer of newc archives (`patches.py`). Entries are kept in memory. Positions are
integers, since a size in a header may be negative for Python's number parser.

* `readCpio`, `writeCpio` — an archive is read and written.
* `replaceFile` — the data of one regular file is replaced.
-/

namespace MachineEmu.Firmware

open Lib

scoped instance lawfulBEqChars : LawfulBEq (List Char) := inferInstance
scoped instance neZeroFields : NeZero 13 := inferInstance

/-- What is raised: `FirmwareError`, or an error that is none. -/
inductive Failure
  | firmware (message : String)
  | unicode
  | overflow
  | index
  | key
  deriving DecidableEq

/-- An entry. The thirteen fields are those of the header after the magic number. -/
structure Entry where
  name : List Char
  fields : Fin 13 → ℤ
  data : List UInt8

def Entry.mode (e : Entry) : ℤ := e.fields 1

def maxPayload : ℤ := 256 * 1024 * 1024

/-- How many entries are read. -/
def maxEntries : ℕ := 100000

def magic : List UInt8 := [48, 55, 48, 55, 48, 49]

def trailerName : List Char := ['T', 'R', 'A', 'I', 'L', 'E', 'R', '!', '!', '!']

def guestPath (name : List Char) : Except Failure (List Char) :=
  if name.head? = some '/' ∨ PosixPath.dotdot ∈ name.splitOn '/' ∨ '\x00' ∈ name then
    .error (.firmware "unsafe archive path")
  else .ok (PosixPath.normpath name)

/-! ## The type of a file -/

def sIFDIR : ℕ := 0o040000
def sIFCHR : ℕ := 0o020000
def sIFREG : ℕ := 0o100000
def sIFLNK : ℕ := 0o120000

/-- A mode that the functions of `stat` take. -/
def IsMode (mode : ℤ) : Prop := 0 ≤ mode ∧ mode < 2 ^ 32

instance (mode : ℤ) : Decidable (IsMode mode) := inferInstanceAs (Decidable (_ ∧ _))

/-- Whether a mode is one of a type of file. -/
def hasType (type : ℕ) (mode : ℤ) : Bool := mode.toNat &&& 0o170000 = type

/-- `stat.S_ISDIR` and the like, which raise `OverflowError` at a number that is no mode. -/
def isType (type : ℕ) (mode : ℤ) : Except Failure Bool :=
  if IsMode mode then .ok (hasType type mode) else .error .overflow

/-! ## Reading -/

/-- `(x + 3) & ~3`. -/
def align (x : ℤ) : ℤ := (x + 3) / 4 * 4

/-- A header with its name: where it starts, its fields and the path that the name stands for. -/
structure Record where
  offset : ℤ
  fields : Fin 13 → ℤ
  name : List Char

namespace Record

variable (start : ℤ) (r : Record)

def length : ℤ := r.fields 6
def nameLength : ℤ := r.fields 11
def nameStart : ℤ := r.offset + 110
def nameEnd : ℤ := r.nameStart + r.nameLength

/-- Where the data starts. -/
def payload : ℤ := start + align (r.nameEnd - start)

/-- Where the next record starts. -/
def next : ℤ := start + align (r.payload start - start + r.length)

def entry (data : List UInt8) : Entry :=
  ⟨r.name, r.fields, Python.slice data (r.payload start) (r.payload start + r.length)⟩

end Record

/-- The text of a field of a header. -/
def fieldText (data : List UInt8) (off : ℤ) (i : Fin 13) : List UInt8 :=
  Python.slice data (off + 6 + 8 * i) (off + 6 + 8 * i + 8)

def readFields (data : List UInt8) (off : ℤ) : Option (Fin 13 → ℤ) :=
  if ∀ i, (Python.parseHex (fieldText data off i)).isSome then
    some fun i => (Python.parseHex (fieldText data off i)).getD 0
  else none

/-- The bytes of a name without the zero at its end. -/
def rawName (data : List UInt8) (off : ℤ) (fields : Fin 13 → ℤ) : List UInt8 :=
  Python.slice data (off + 110) (off + 110 + fields 11 - 1)

def readName (data : List UInt8) (off : ℤ) (fields : Fin 13 → ℤ) : Except Failure (List Char) :=
  if ¬(1 ≤ fields 11 ∧ fields 11 ≤ 4096) ∨ data.length < off + 110 + fields 11 then
    .error (.firmware "invalid newc name")
  else
    match Python.item data (off + 110 + fields 11 - 1) with
    | none => .error .index
    | some b =>
      if b ≠ 0 then .error (.firmware "invalid newc name")
      else
        match Utf8.decode (rawName data off fields) with
        | none => .error .unicode
        | some name => guestPath name

def readRecord (data : List UInt8) (start off : ℤ) : Except Failure Record :=
  if Python.slice data off (off + 6) ≠ magic ∨ data.length < off + 110 then
    .error (.firmware "unsupported or truncated newc archive")
  else
    match readFields data off with
    | none => .error (.firmware "invalid newc header")
    | some fields =>
      match readName data off fields with
      | .error failure => .error failure
      | .ok name =>
        if data.length < (Record.mk off fields name).next start ∨
            maxPayload < (Record.mk off fields name).next start - start then
          .error (.firmware "newc payload exceeds bounds")
        else .ok ⟨off, fields, name⟩

/-- `seen`: the latest entry with a name. -/
def seen (entries : List Entry) (name : List Char) : Option Entry :=
  entries.reverse.find? (·.name = name)

/-- The fields that a repeated entry has in common with the one before. -/
def sameFields (old entry : Entry) : Bool :=
  ([1, 2, 3, 9, 10] : List (Fin 13)).all fun i => old.fields i = entry.fields i

/-- The generated initramfs of Linux repeats directories and device nodes. -/
def checkDuplicate (entries : List Entry) (entry : Entry) : Except Failure Unit :=
  match seen entries entry.name with
  | none => .ok ()
  | some old =>
    if sameFields old entry = false ∨ entry.data ≠ [] then
      .error (.firmware "conflicting duplicate archive path")
    else
      match isType sIFDIR entry.mode, isType sIFCHR entry.mode with
      | .error failure, _ => .error failure
      | .ok true, _ => .ok ()
      | .ok false, .error failure => .error failure
      | .ok false, .ok true => .ok ()
      | .ok false, .ok false => .error (.firmware "conflicting duplicate archive path")

/-- `data.rstrip(b'\0')`. -/
def rstrip (b : UInt8) (data : List UInt8) : List UInt8 := (data.reverse.dropWhile (· = b)).reverse

/-- A link from a name to a target does not go above the guest's root. -/
def staysInside (name target : List Char) : Bool :=
  let resolved := PosixPath.normpath (PosixPath.join (PosixPath.dirname name) target)
  resolved ≠ PosixPath.dotdot && !(PosixPath.dotdot ++ ['/']).isPrefixOf resolved

def checkLink (allowRootClampedLinks : Bool) (entry : Entry) : Except Failure Unit :=
  match isType sIFLNK entry.mode with
  | .error failure => .error failure
  | .ok false => .ok ()
  | .ok true =>
    match Utf8.decode (rstrip 0 entry.data) with
    | none => .error .unicode
    | some target =>
      if '\x00' ∈ target ∨ (allowRootClampedLinks = false ∧ staysInside entry.name target = false)
      then .error (.firmware "archive link escapes guest root")
      else .ok ()

def readFrom (data : List UInt8) (start : ℤ) (allowRootClampedLinks : Bool) :
    ℕ → ℤ → List Entry → Except Failure (List Entry × ℤ)
  | 0, _, _ => .error (.firmware "newc archive exceeds limits")
  | n + 1, off, entries =>
    if maxPayload < off - start then .error (.firmware "newc archive exceeds limits")
    else
      match readRecord data start off with
      | .error failure => .error failure
      | .ok r =>
        if r.name = trailerName then
          if r.length ≠ 0 then .error (.firmware "invalid newc trailer")
          else .ok (entries, r.next start)
        else
          match checkDuplicate entries (r.entry start data) with
          | .error failure => .error failure
          | .ok () =>
            match checkLink allowRootClampedLinks (r.entry start data) with
            | .error failure => .error failure
            | .ok () =>
              readFrom data start allowRootClampedLinks n (r.next start)
                (entries ++ [r.entry start data])

/-- The entries, and where the archive ends. -/
def readCpio (data : List UInt8) (start : ℤ) (allowRootClampedLinks : Bool) :
    Except Failure (List Entry × ℤ) :=
  readFrom data start allowRootClampedLinks maxEntries start []

/-! ## Writing -/

/-- The fields that are written: the sizes are those of the entry, and there is no checksum. -/
def Entry.writtenFields (e : Entry) (i : Fin 13) : ℤ :=
  if i = 6 then e.data.length
  else if i = 11 then (utf8 e.name).length + 1
  else if i = 12 then 0
  else e.fields i

/-- `b'\0' * (-len(output) % 4)` after the output. -/
def pad (output : List UInt8) : List UInt8 :=
  output ++ List.replicate ((4 - output.length % 4) % 4) 0

def Entry.header (e : Entry) : List UInt8 :=
  magic ++ (List.finRange 13).flatMap fun i => Python.formatHex 8 (e.writtenFields i)

def writeEntry (output : List UInt8) (e : Entry) : List UInt8 :=
  pad (pad (output ++ e.header ++ (utf8 e.name ++ [0])) ++ e.data)

def trailer : Entry := ⟨trailerName, fun _ => 0, []⟩

def writeCpio (entries : List Entry) : List UInt8 := (entries ++ [trailer]).foldl writeEntry []

/-! ## Patching -/

def replaceFile (entries : List Entry) (path : List Char) (content : List UInt8) :
    Except Failure (List Entry) :=
  match guestPath path with
  | .error failure => .error failure
  | .ok path =>
    match entries.filter (·.name = path) with
    | [target] =>
      match isType sIFREG target.mode with
      | .error failure => .error failure
      | .ok regular =>
        if regular = false ∨ target.fields 4 ≠ 1 then
          .error (.firmware
            "patch target must be an existing regular file without hardlinks")
        else .ok (entries.map fun e => if e.name = path then { e with data := content } else e)
    | _ => .error (.firmware "patch target must be an existing regular file without hardlinks")

end MachineEmu.Firmware
