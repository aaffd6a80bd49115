import MachineEmu.Storage.Instances

/-!
# Snapshots

A snapshot of a stopped instance is a directory with copies of its files and a manifest of their
digests. A restore copies the files of the manifest back, through a staging directory next to the
destination; a clone restores a snapshot into a new instance.

* `stem`, `withExtension` — the replacement of the extension of a name.
* `SnapshotRow.json` — the manifest.
* `createSnapshot`, `createInstanceSnapshot`, `restoreSnapshot`, `cloneSnapshot` — the procedures.
-/

namespace MachineEmu

open Lib Prog

/-! ## Names -/

/-- A name without its extension: what stands before the last dot, unless nothing does. Source:
`Path::file_stem`. -/
def stem (name : String) : String :=
  match name.toList.reverse.dropWhile fun c => c ≠ '.' with
  | _ :: c :: rest => String.ofList (c :: rest).reverse
  | _ => name

/-- Replace the extension of the last name. Source: `Path::with_extension`. -/
def withExtension (p : Path) (extension : String) : Path :=
  p.dropLast ++ [stem (p.getLast?.getD "") ++ "." ++ extension]

/-- Whether a text is one name of a path: `file_name` gives it back. -/
def isPlainName (name : String) : Bool :=
  name ≠ "" && name ≠ "." && name ≠ ".." && !name.toList.contains '/'

/-! ## Manifests -/

/-- The text of a manifest. -/
def SnapshotRow.json (snapshot : SnapshotRow) : String :=
  Json.render (.obj [("snapshot_id", .str snapshot.snapshotId.asStr),
    ("instance_id", .str snapshot.instanceId.asStr),
    ("generation", .num snapshot.generation),
    ("files", .obj (snapshot.files.entries.map fun e => (e.1, .str e.2)))])

/-- The insertion of a snapshot. The ids of the snapshots are distinct, and so are the digests of
their manifests. -/
def Workspace.insertSnapshot (w : Workspace) (snapshot : SnapshotRow) :
    Except Error Unit × Workspace :=
  match w.instances.find? snapshot.instanceId, w.snapshots.insert snapshot with
  | some _, some snapshots =>
    if w.snapshots.rows.any fun row =>
        sha256 (textBytes row.json) = sha256 (textBytes snapshot.json) then
      (.error (.snapshotConflict snapshot.snapshotId.asStr), w)
    else (.ok (), { w with snapshots })
  | _, _ => (.error (.snapshotConflict snapshot.snapshotId.asStr), w)

namespace Handle

variable (self : Handle)

/-- The directory of a snapshot. -/
def snapshotDir (snapshotId : Id) : Path := self.root ++ ["snapshots", snapshotId.asStr]

/-- The staging directory of a snapshot. -/
def snapshotStaging (snapshotId : Id) : Path :=
  self.root ++ ["staging", "snapshot-" ++ snapshotId.asStr ++ "-" ++ toString self.pid]

/-- The staging directory of a clone. -/
def cloneStaging (i : Id) : Path :=
  self.root ++ ["staging", "clone-" ++ i.asStr ++ "-" ++ toString self.pid]

end Handle

/-! ## Paths -/

/-- Two directories of the workspace are apart. -/
theorem not_below {r p q : Path} {a b : String} (h : a ≠ b) : ¬ (r ++ a :: p) <+: (r ++ b :: q) := by
  rw [List.prefix_append_right_inj, List.cons_prefix_cons]
  exact fun hsame => h hsame.1

theorem instanceDir_eq (self : Handle) (i : Id) :
    self.instanceDir i = self.root ++ ["instances", i.asStr] := by
  simp [Handle.instanceDir, Handle.instances]

/-- The staging directory of a restore is next to the destination. -/
theorem withExtension_instanceDir (self : Handle) (j : Id) (extension : String) :
    withExtension (self.instanceDir j) extension =
      self.instances ++ [stem j.asStr ++ "." ++ extension] := by
  simp [withExtension, Handle.instanceDir]

namespace Store

section Snapshots

variable (self : Handle) (yaml : Yaml) (documents : Documents)

/-- Copy the components to a staging directory; returns their digests by name. -/
def copySnapshotComponents (staging : Path) : List (String × Path) →
    SortedMap String String → Task (SortedMap String String)
  | [], files => .ret files
  | (name, source) :: rest, files =>
    if isPlainName name = false then .throw (.invalidSnapshotComponent name)
    else
      (create (staging ++ [name])).bind fun _ =>
        (copyAndHash source (staging ++ [name])).bind fun digest =>
          copySnapshotComponents staging rest (files.insert name digest)

/-- Source: `storage/snapshots.rs` `create_snapshot`. -/
def createSnapshot (snapshotId i : Id) (components : List (String × Path)) : Task SnapshotRow :=
  (select fun w => w.instance_ i).bind fun row =>
    if row.state ≠ .created ∧ row.state ≠ .stopped then .throw .snapshotRequiresStopped
    else
      let destination := self.snapshotDir snapshotId
      (exists_ destination).bind fun taken =>
        if taken then .throw (.snapshotConflict snapshotId.asStr)
        else
          let staging := self.snapshotStaging snapshotId
          (createDirAll staging).bind fun _ =>
            (onError (copySnapshotComponents staging components .empty)
                (removeDirAll staging)).bind fun files =>
              let manifest : SnapshotRow :=
                { snapshotId, instanceId := i, generation := row.revision, files }
              (writeFile (staging ++ ["manifest.json"]) (textBytes manifest.json)).bind fun _ =>
                (rename staging destination destination).bind fun _ =>
                  (statement fun w => w.insertSnapshot manifest).attempt.bind fun result =>
                    match result with
                    | .ok _ => .ret manifest
                    | .error _ => .throw (.snapshotConflict snapshotId.asStr)

/-- The regular files among the entries of a directory. -/
def regularFiles (directory : Path) : List String → Task (List (String × Path))
  | [] => .ret []
  | name :: rest =>
    (metadata (directory ++ [name])).bind fun entry =>
      (regularFiles directory rest).bind fun components =>
        .ret (if isFileEntry entry then (name, directory ++ [name]) :: components else components)

/-- Source: `storage/snapshots.rs` `create_instance_snapshot`. -/
def createInstanceSnapshot (snapshotId i : Id) : Task SnapshotRow :=
  (readDir (self.instanceDir i)).bind fun names =>
    (regularFiles (self.instanceDir i) names).bind fun components =>
      createSnapshot self snapshotId i components

/-- Source: `storage/snapshots.rs` `snapshot`. -/
def snapshot (snapshotId : Id) : Task SnapshotRow :=
  select fun w =>
    match w.snapshots.find? snapshotId with
    | some row => .ok row
    | none => .error (.notFound "snapshot" snapshotId.asStr)

/-- Copy the files of a manifest to a staging directory and compare their digests. -/
def restoreFiles (source staging : Path) : List (String × String) → Task Unit
  | [] => .ret ()
  | (name, expected) :: rest =>
    (create (staging ++ [name])).bind fun _ =>
      (copyAndHash (source ++ [name]) (staging ++ [name])).bind fun actual =>
        if actual ≠ expected then .throw (.digestMismatch expected actual)
        else restoreFiles source staging rest

/-- Move the entries of a directory to another one. -/
def moveEntries (source target : Path) : List String → Task Unit
  | [] => .ret ()
  | name :: rest =>
    (rename (source ++ [name]) (target ++ [name]) (target ++ [name])).bind fun _ =>
      moveEntries source target rest

/-- Whether a destination is there; one that is not empty is refused. -/
def checkDestination (destination : Path) : Task Bool :=
  (exists_ destination).bind fun preexists =>
    if preexists then
      (readDir destination).bind fun names =>
        if names ≠ [] then .throw (.snapshotConflict (display destination)) else .ret true
    else .ret false

/-- Source: `storage/snapshots.rs` `restore_snapshot`. -/
def restoreSnapshot (snapshotId : Id) (destination : Path) : Task SnapshotRow :=
  (snapshot snapshotId).bind fun manifest =>
    (checkDestination destination).bind fun preexists =>
      let target := if preexists then withExtension destination "clone-staging" else destination
      let staging := withExtension target "restore-staging"
      (createDirAll staging).bind fun _ =>
        (onError (restoreFiles (self.snapshotDir snapshotId) staging manifest.files.entries)
            (removeDirAll staging)).bind fun _ =>
          (rename staging target target).bind fun _ =>
            (if preexists then
                (readDir target).bind fun names =>
                  (moveEntries target destination names).bind fun _ =>
                    change (.removeDir target) target (·.removeDir target)
              else .ret ()).bind fun _ => .ret manifest

/-- Remove the files that a clone must not take from its source. -/
def removeIfAny (p : Path) : Task Unit :=
  change (.removeFile p) p fun t => if t.look p = none then some t else t.removeFile p

/-- Source: `storage/snapshots.rs` `clone_snapshot`, for a destination that is the directory of
the new instance. -/
def cloneSnapshot (snapshotId i profileId : Id) : Task Instance :=
  let destination := self.instanceDir i
  (snapshot snapshotId).bind fun manifest =>
    (select fun w => w.instance_ manifest.instanceId).bind fun source =>
      (restoreSnapshot self snapshotId destination).bind fun _ =>
        (removeIfAny (destination ++ ["instance.yaml"])).bind fun _ =>
        (removeIfAny (destination ++ ["instance.yml"])).bind fun _ =>
        (removeIfAny (destination ++ ["profile.yaml"])).bind fun _ =>
          let staged := self.cloneStaging i
          (rename destination staged staged).bind fun _ =>
            onError
              (publishPreparedInstance self yaml documents i source.imageId profileId staged
                "null" false)
              (rename staged destination destination)

end Snapshots

end Store

end MachineEmu
