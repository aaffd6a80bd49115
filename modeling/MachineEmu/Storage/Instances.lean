import MachineEmu.Storage.Images
import MachineEmu.Lib.Json

/-!
# Instance directories

The creation and the removal of an instance: its row, its directory and the document in it. A
prepared directory is moved into its place before the row is inserted; a removal commits a pending
deletion before the directory goes.

* `InstanceDocument`, `Documents` — the stored document and its serialiser.
* `atomicConfigurationFile`, `writeInstanceDocumentAt` — the document replaces the old one.
* `publishPreparedInstance` — the creation.
* `openStore` — the opening of a workspace.
* `finishInstanceDeletion`, `removeInstance`, `reconcileInstanceDeletions` — the removal.
-/

namespace MachineEmu

open Lib Prog

/-- Source: `storage/configuration.rs` `InstanceDocument`. -/
structure InstanceDocument where
  schemaVersion : Int := 1
  instanceId : String
  imageId : String
  profileId : String := "custom"
  autoRemove : Bool := false
  profile : Option Json := none
  launchPlan : Option Json := none
  domainDocument : Option Json := none

/-- The serialisers of the documents: YAML and JSON texts, or the text of an error. -/
structure Documents where
  load : List UInt8 → Except String Json
  parse : String → Except String Json
  write : InstanceDocument → List UInt8

namespace Handle

variable (self : Handle)

/-- The directory of the instances. -/
def instances : Path := self.root ++ ["instances"]

/-- The directory of an instance. -/
def instanceDir (i : Id) : Path := self.instances ++ [i.asStr]

end Handle

namespace Store

section Documents

variable (self : Handle) (documents : Documents)

/-- `canonicalize`: the path exists. No part of it is a symbolic link. -/
def canonicalize (p : Path) : Task Unit :=
  change (.metadata p) p fun t => if t.look p = none then none else some t

/-- Source: `storage/configuration.rs` `check_configuration_path`. -/
def checkConfigurationPath (path : Path) : Task Unit :=
  (canonicalize self.root).bind fun _ =>
    (canonicalize path).bind fun _ =>
      (canonicalize path.dropLast).bind fun _ =>
        if self.root <+: path.dropLast ∧ path.dropLast <+: path then .ret ()
        else .throw (.process "configuration path escapes its owning directory")

/-- Source: `engine/document.rs` `load_document`. -/
def loadDocument (path : Path) : Task Json :=
  (readFile path).bind fun bytes =>
    match documents.load bytes with
    | .ok value => .ret value
    | .error e => .throw (.process (display path ++ ": " ++ e))

/-- Source: `storage/configuration.rs` `read_staged_profile`. -/
def readStagedProfile (directory : Path) : Task (Option Json) :=
  let path := directory ++ ["profile.yaml"]
  (metadata path).bind fun found =>
    match found with
    | none => .ret none
    | some _ =>
      (checkConfigurationPath self path).bind fun _ =>
        (loadDocument documents path).bind fun value => .ret (some value)

/-- The domain document that a staged directory may have. -/
def readStagedDomain (directory : Path) : Task (Option Json) :=
  let path := directory ++ ["domain_document.yaml"]
  (metadata path).bind fun found =>
    match found with
    | none => .ret none
    | some _ =>
      (readFile path).bind fun _ =>
        (loadDocument documents path).bind fun value => .ret (some value)

/-- Open a directory and `sync_all` it. -/
def syncDirectory (p : Path) : Task Unit :=
  change (.sync p) p fun t => if t.look p = none then none else some t

/-- Write a file next to its place and move it there.
Source: `storage/configuration.rs` `atomic_configuration_file`. -/
def atomicConfigurationFile (path : Path) (bytes : List UInt8) : Task Unit :=
  let directory := path.dropLast
  (canonicalize self.root).bind fun _ =>
    (canonicalize directory).bind fun _ =>
      if ¬ self.root <+: directory then
        .throw (.process "configuration path escapes the workspace")
      else
        clock.bind fun nanos =>
          let temporary := directory ++ [self.temporary "instance" nanos]
          onError
            ((createNew temporary).bind fun _ =>
              (writeAll temporary bytes).bind fun _ =>
                (sync temporary).bind fun _ =>
                  (rename temporary path path).bind fun _ => syncDirectory directory)
            (removeFile temporary)

/-- Source: `storage/configuration.rs` `write_instance_document_at`. -/
def writeInstanceDocumentAt (path : Path) (document : InstanceDocument) : Task Unit :=
  atomicConfigurationFile self path (documents.write document)

end Documents

/-! ## Removal -/

section Removal

variable (self : Handle)

/-- `fs::remove_dir_all`, where a missing directory is no failure. -/
def removeDirAllIfAny (p : Path) : Task Unit :=
  change (.removeDirAll p) p fun t => if t.look p = none then some t else t.removeDirAll p

/-- Finish the removal of an instance whose deletion is pending; returns whether there was one.
Source: `storage/instances.rs` `finish_instance_deletion`. -/
def finishInstanceDeletion (i : Id) : Task Bool :=
  (select fun w => .ok (decide (i ∈ w.pendingInstanceDeletions))).bind fun pending =>
    if pending = false then .ret false
    else
      (removeDirAllIfAny (self.instanceDir i)).bind fun _ =>
        (syncDirectory self.instances).bind fun _ =>
          (statement fun w => (.ok (), w.clearPendingDeletion i)).bind fun _ => .ret true

/-- Each of the pending deletions. -/
def finishEachDeletion : List Id → Task Unit
  | [] => .ret ()
  | i :: rest =>
    (ofExcept (Id.new "instance" i.asStr)).bind fun i =>
      (finishInstanceDeletion self i).bind fun _ => finishEachDeletion rest

/-- Source: `storage/instances.rs` `reconcile_instance_deletions`. -/
def reconcileInstanceDeletions : Task Unit :=
  (select fun w => .ok w.pendingInstanceDeletions).bind fun ids => finishEachDeletion self ids

/-- End the active run of an instance that is to be removed, if it has one whose process is gone.
`matches_` is `process_identity_matches`. -/
def endActiveRun (matches_ : ProcessIdentity → Bool) (instance_ : Instance) : Task Instance :=
  (select fun w => .ok (w.activeRun instance_.instanceId)).bind fun active =>
    match active with
    | none => .ret instance_
    | some active =>
      (statement fun w => w.reconcileRun matches_ active.runId).bind fun reconciled =>
        if reconciled.status = .running then .throw (.activeRun instance_.instanceId.asStr)
        else
          (statement fun w => w.finishRun active.runId .failed).bind fun _ =>
            (statement fun w => (.ok (), w.setLifecycle instance_.instanceId .stopped)).bind
              fun _ => select fun w => w.instance_ instance_.instanceId

/-- Source: `storage/instances.rs` `remove_instance`. -/
def removeInstance (matches_ : ProcessIdentity → Bool) (i : Id) : Task Unit :=
  (finishInstanceDeletion self i).bind fun finished =>
    if finished then .ret ()
    else
      (select fun w => w.instance_ i).bind fun row =>
        (endActiveRun matches_ row).bind fun row =>
          if row.state ≠ .created ∧ row.state ≠ .stopped ∧ row.state ≠ .error then
            .throw (.process ("instance " ++ Error.quoted i.asStr ++
              " must be stopped before removal (state " ++ row.state.debug ++ ")"))
          else
            (select fun w =>
              .ok (w.snapshots.rows.filter fun snapshot => snapshot.instanceId = i).length).bind
              fun snapshots =>
              if snapshots ≠ 0 then
                .throw (.process ("instance " ++ Error.quoted i.asStr ++ " still has " ++
                  toString snapshots ++ " snapshot(s)"))
              else
                (statement fun w => (.ok (), w.deleteInstance i)).bind fun _ =>
                  (finishInstanceDeletion self i).bind fun _ => .ret ()

end Removal

/-! ## Creation -/

section Creation

variable (self : Handle) (yaml : Yaml) (documents : Documents)

/-- Whether a directory has nothing but empty runtime directories.
Source: `storage/instances.rs` `empty_legacy_plan_directory`. -/
def emptyLegacyEntries (directory : Path) : List String → Task Bool
  | [] => .ret true
  | name :: rest =>
    if name ≠ "sockets" ∧ name ≠ "control" then .ret false
    else
      (metadata (directory ++ [name])).bind fun entry =>
        if entry ≠ some .dir then .ret false
        else
          (readDir (directory ++ [name])).bind fun names =>
            if names ≠ [] then .ret false else emptyLegacyEntries directory rest

def emptyLegacyPlanDirectory (directory : Path) : Task Bool :=
  (readDir directory).bind fun names => emptyLegacyEntries directory names

/-- Whether a directory that is in the way of a new instance may go. -/
def isReplaceable (i : Id) (destination : Path) : Task Bool :=
  (metadata destination).bind fun found =>
    if found ≠ some .dir then .ret false
    else
      (select fun w => w.instance_ i).attempt.bind fun row =>
        match row with
        | .error (.notFound _ _) =>
          (isFile (destination ++ [".machineemu-create"])).bind fun marked =>
            if marked then .ret true else emptyLegacyPlanDirectory destination
        | _ => .ret false

/-- Make way for a new instance. -/
def clearDestination (i : Id) : Task Unit :=
  let destination := self.instanceDir i
  (exists_ destination).bind fun taken =>
    if taken then
      (isReplaceable i destination).bind fun replaceable =>
        if replaceable then removeDirAll destination
        else .throw (.process ("instance directory already exists: " ++ display destination))
    else .ret ()

/-- Source: `storage/instances.rs` `publish_prepared_instance`. -/
def publishPreparedInstance (i imageId profileId : Id) (staged : Path) (planJson : String)
    (autoRemove : Bool) : Task Instance :=
  (finishInstanceDeletion self i).bind fun _ =>
    (image self yaml imageId).bind fun _ =>
      let destination := self.instanceDir i
      (clearDestination self i).bind fun _ =>
        (readStagedProfile self documents staged).bind fun profile =>
          (readStagedDomain documents staged).bind fun domainDocument =>
            match documents.parse planJson with
            | .error e => .throw (.manifestJson e)
            | .ok plan =>
              let document : InstanceDocument :=
                { instanceId := i.asStr, imageId := imageId.asStr, profileId := profileId.asStr
                  autoRemove, profile
                  launchPlan := match plan with
                    | .null => none
                    | plan => some plan
                  domainDocument }
              (writeInstanceDocumentAt self documents (staged ++ ["instance.yaml"])
                  document).bind fun _ =>
                (writeFile (staged ++ [".machineemu-create"])
                    (textBytes "staged\n")).bind fun _ =>
                  (rename staged destination destination).bind fun _ =>
                    (statement fun w => w.insertInstance i imageId profileId).attempt.bind
                      fun result =>
                      match result with
                      | .error e =>
                        (ignore (removeDirAll destination)).bind fun _ => .throw e
                      | .ok _ =>
                        (ignore (removeFile (destination ++ [".machineemu-create"]))).bind
                          fun _ => select fun w => w.instance_ i

end Creation

/-- The part of the opening of a workspace that concerns its files. The tables of an older version,
which the migrations read, are gone. Source: `storage/mod.rs` `migrate`. -/
def openStore (self : Handle) : Task Unit :=
  (createDirAll (self.root ++ ["images"])).bind fun _ =>
  (createDirAll self.instances).bind fun _ =>
  (createDirAll (self.root ++ ["staging"])).bind fun _ =>
  (createDirAll (self.root ++ ["snapshots"])).bind fun _ => reconcileInstanceDeletions self

end Store

end MachineEmu
