import MachineEmu.Storage.Snapshots

/-!
# The components of an image

A document names a component by a path and a digest. The file of a digest is kept in the objects.

* `resolvePath`, `locateComponent` — the file that a component names.
* `objectPath` — the path of an object.
-/

namespace MachineEmu

open Lib Prog

/-- The text of a field. -/
def textAt (j : Json) (name : String) : Option String := (j.field name).bind Json.asStr

/-- The file that the operating system finds at a path with `.` and `..`. -/
def resolvePath (t : FileTree) : Path → List String → Option Path
  | p, [] => some p
  | p, part :: rest =>
    if part = "" ∨ part = "." then if t.look p = some .dir then resolvePath t p rest else none
    else if part = ".." then
      if t.look p = some .dir then resolvePath t p.dropLast rest else none
    else resolvePath t (p ++ [part]) rest

/-- Whether a digest without its prefix is 64 hexadecimal digits. -/
def isHexDigest (digest : String) : Bool :=
  digest.toList.length = 64 && digest.toList.all isHexDigit

/-- The file that a component of a document in a directory names, if it is one. -/
def locateComponent (t : FileTree) (directory : Path) (raw : String) : Option Path :=
  let parts := (raw.toList.splitOn '/').map String.ofList
  (resolvePath t (if raw.toList.head? = some '/' then [] else directory) parts).filter fun p =>
    Store.isFileEntry (t.look p)

namespace Store

/-- `Path::is_dir`. -/
def isDir (p : Path) : Task Bool :=
  .act (.metadata p) id fun s => .ret (decide (s.files.look p = some .dir))

theorem ends_isDir {p : Path} {s : Store} {good : Store → Outcome → Prop}
    {X : Error → Store → Prop} {Q : Bool → Store → Prop}
    (h : Q (decide (s.files.look p = some .dir)) s) : Ends good Q X (isDir p) s := h

/-- The path of an object. -/
def objectPath (self : Handle) (digest : String) : Path := self.root ++ ["objects", "sha256", digest]

end Store

end MachineEmu
