import MachineEmu.Storage.Files
import Mathlib.Data.Finset.Basic
import Mathlib.Data.Finset.Filter

/-!
# Garbage collection

The cleanup of the object store of a workspace. An object is a file of the store that is named by a
digest; it is kept if its name occurs in some file of the workspace outside the store.

* `scanMetadata` — the names that occur.
* `collect` — the collection, which a dry run only reports.
-/

namespace MachineEmu

open Lib Prog

/-- The largest file that is scanned. Source: `storage/gc.rs` `MAX_METADATA_BYTES`. -/
def maxMetadataBytes : Nat := 64 * 1024 * 1024

/-- Source: `storage/gc.rs` `GarbageCollectionReport`. -/
structure GarbageCollectionReport where
  dryRun : Bool
  retained : List String
  candidates : List String
  removed : List String

/-- Source: `storage/gc.rs` `is_digest`. -/
def Garbage.isDigest (value : String) : Bool :=
  value.toList.length = 64 && value.toList.all isHexDigit

/-- Whether a text contains another one. Where a text has bytes that are not UTF-8 they are
replaced, which makes and breaks no digest. -/
def Garbage.contains (bytes : List UInt8) (digest : String) : Bool :=
  decide (textBytes digest <:+: bytes)

namespace Handle

variable (self : Handle)

def objects : Path := self.root ++ ["objects"]

/-- The directory of the objects. -/
def objectRoot : Path := self.root ++ ["objects", "sha256"]

/-- The path of an object. -/
def object (digest : String) : Path := self.objectRoot ++ [digest]

end Handle

namespace Store

/-- `fs::read_dir`, or nothing when nothing is there. -/
def readDirIfAny (p : Path) : Task (Option (List String)) :=
  .ask fun o =>
    match o.fault with
    | some detail => .throw (.io (display p) detail)
    | none => .act (.readDir p) id fun s =>
      match s.files.look p with
      | some .dir => .ret (some (s.files.names p))
      | some (.file _) => .throw (.io (display p) "not a directory")
      | none =>
        if p.inits.any fun q => isFileEntry (s.files.look q) then
          .throw (.io (display p) "not a directory")
        else .ret none

/-- `fs::remove_file`, or nothing when nothing is there; returns whether there was a file. -/
def removeFileIfAny (p : Path) : Task Bool :=
  (metadata p).bind fun entry =>
    match entry with
    | none => .ret false
    | some _ => (removeFile p).bind fun _ => .ret true

variable (self : Handle)

/-- The objects among the entries of a directory. -/
def objectNames (directory : Path) : List String → Task (List String)
  | [] => .ret []
  | name :: rest =>
    (metadata (directory ++ [name])).bind fun entry =>
      (objectNames directory rest).bind fun names =>
        .ret (if isFileEntry entry && Garbage.isDigest name then name :: names else names)

/-- Scan the entries of a directory, with `recurse` for the directories among them. -/
def scanEntries (objects : List String) (directory : Path)
    (recurse : Path → Finset String → Task (Finset String)) :
    List String → Finset String → Task (Finset String)
  | [], retained => .ret retained
  | name :: rest, retained =>
    (metadata (directory ++ [name])).bind fun entry =>
      match entry with
      | none => .throw (.io (display (directory ++ [name])) "not found")
      | some .dir =>
        if directory ++ [name] = self.objects then
          scanEntries objects directory recurse rest retained
        else
          (recurse (directory ++ [name]) retained).bind fun retained =>
            scanEntries objects directory recurse rest retained
      | some (.file bytes) =>
        if bytes.length > maxMetadataBytes then
          scanEntries objects directory recurse rest retained
        else
          (readFile (directory ++ [name])).bind fun bytes =>
            scanEntries objects directory recurse rest
              (retained ∪ (objects.filter fun digest => Garbage.contains bytes digest).toFinset)

/-- Scan a directory and those below it, `fuel` of them deep at most. Source: `storage/gc.rs`
`scan_metadata`. -/
def scanMetadata (objects : List String) : Nat → Path → Finset String → Task (Finset String)
  | 0, directory, _ => .throw (.io (display directory) "too deep")
  | fuel + 1, directory, retained =>
    (readDir directory).bind fun names =>
      scanEntries self objects directory (scanMetadata objects fuel) names retained

/-- The names that occur in a file outside the store; the scan goes as deep as the files do.
Source: `storage/gc.rs` `referenced_digests`. -/
def referencedDigests (objects : List String) : Task (Finset String) :=
  .act (.metadata self.root) id fun s =>
    scanMetadata self objects (s.files.height + 1) self.root ∅

/-- Remove the objects that are candidates; returns those that were there. -/
def removeCandidates : List String → Task (List String)
  | [] => .ret []
  | digest :: rest =>
    (removeFileIfAny (self.object digest)).bind fun removed =>
      (removeCandidates rest).bind fun others =>
        .ret (if removed then digest :: others else others)

/-- Source: `storage/gc.rs` `collect`. -/
def collect (dryRun : Bool) : Task GarbageCollectionReport :=
  (readDirIfAny self.objectRoot).bind fun entries =>
    match entries with
    | none => .ret ⟨dryRun, [], [], []⟩
    | some entries =>
      (objectNames self.objectRoot entries).bind fun names =>
        let objects := names.mergeSort
        (referencedDigests self objects).bind fun retained =>
          let candidates := objects.filter fun digest => digest ∉ retained
          (if dryRun then .ret [] else removeCandidates self candidates).bind fun removed =>
            (if removed = [] then .ret () else sync self.objectRoot).bind fun _ =>
              .ret ⟨dryRun, objects.filter fun digest => digest ∈ retained, candidates, removed⟩

end Store

end MachineEmu
