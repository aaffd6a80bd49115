import MachineEmu.Storage.Images

/-!
# The import job of the daemon

The import of a base directory that the daemon runs in the background: it copies the components
with progress reports, each to a temporary file that takes the place of the component file, and
registers the image last.

* `copyComponentWithProgress` — one component.
* `importVmmanagerBaseJob` — the job.
-/

namespace MachineEmu

open Lib Prog Store

/-- Report the status or an event of an import: the table of the imports is locked. -/
def notify : Task Unit :=
  .ask fun o =>
    match o.fault with
    | some _ => .throw (.process "image import lock poisoned")
    | none => .ret ()

/-- Lock the workspace. -/
def lockWorkspace : Task Unit :=
  .ask fun o =>
    match o.fault with
    | some _ => .throw (.process "workspace lock poisoned")
    | none => .ret ()

/-- Open a file for reading. -/
def openFile (p : Path) : Task Unit :=
  change (.metadata p) p fun t => if t.look p = none then none else some t

/-- Read a file and write it to an open one. Either may fail in the middle. -/
def copyParts (source target : Path) : Task (List UInt8) :=
  .ask fun o => .act (.read source) id fun s =>
    match s.files.look source with
    | some (.file bytes) =>
      match o.fault with
      | some detail =>
        (Store.perform (.write target) target (·.write target (bytes.take o.reached))).bind fun _ =>
          .throw (.io (display source) detail)
      | none => (writeAll target bytes).bind fun _ => .ret bytes
    | _ => .throw (.io (display source) "not a file")

/-- A component of a base directory: its name, its file there and its file in the store. -/
structure BaseComponent where
  name : String
  source : Path
  file : String

section Job

variable (self : Handle) (yaml : Yaml)

/-- The temporary file of a component. -/
def importing (imageId : Id) (file : String) : Path :=
  self.componentsDir imageId ++ ["." ++ file ++ "." ++ toString self.pid ++ ".importing"]

/-- Copy a component to its temporary file and move that one to its place; returns the digest.
Source: `api/images.rs` `copy_component_with_progress`. -/
def copyComponentWithProgress (source temporary destination : Path) : Task String :=
  (openFile source).bind fun _ =>
    (create temporary).bind fun _ =>
      (copyParts source temporary).bind fun bytes =>
        -- the last one of the background worker, and the one of the job
        (sync temporary).bind fun _ => (sync temporary).bind fun _ =>
          (rename temporary destination destination).bind fun _ => .ret (sha256 bytes)

/-- Copy the components in order; returns the digests by name. -/
def copyComponents (imageId : Id) : List BaseComponent → Task (List (String × String))
  | [] => .ret []
  | c :: rest =>
    notify.bind fun _ => notify.bind fun _ =>
      (copyComponentWithProgress c.source (importing self imageId c.file)
          (self.componentPath imageId c.file)).bind fun digest =>
        notify.bind fun _ =>
          (copyComponents imageId rest).bind fun digests => .ret ((c.name, digest) :: digests)

/-- The components of a base directory. -/
def baseComponents (source : Path) : List BaseComponent :=
  [⟨"disk", source ++ ["disk.qcow2"], "disk.qcow2"⟩,
    ⟨"firmware", source ++ ["OVMF_VARS.fd"], "firmware.fd"⟩,
    ⟨"tpm_state", source ++ ["tpm", "tpm2-00.permall"], "tpm-state"⟩]

/-- The manifest of the copied components. -/
def importedManifest (imageId engineTrack : Id) (target : String)
    (digests : List (String × String)) : ImageManifest :=
  { imageId, engineTrack, supportedEngineTracks := [], target
    components := componentsOf (digests.lookup "disk") (digests.lookup "firmware")
      (digests.lookup "tpm_state")
    -- the disk is always one of the components
    diskSha256 := (digests.lookup "disk").getD ""
    firmwareSha256 := digests.lookup "firmware"
    tpmStateSha256 := digests.lookup "tpm_state" }

/-- Source: `api/images.rs` `import_vmmanager_base_job`. -/
def importVmmanagerBaseJob (source : Path) (imageId engineTrack target : String) : Task Unit :=
  let disk := source ++ ["disk.qcow2"]
  (isFile disk).bind fun present =>
    if present = false then .throw (.invalidBundlePath (display disk))
    else
      (isFile (source ++ ["OVMF_VARS.fd"])).bind fun firmware =>
        (isFile (source ++ ["tpm", "tpm2-00.permall"])).bind fun tpm =>
          let components := (baseComponents source).filter fun c =>
            c.name = "disk" || (c.name = "firmware" && firmware) || (c.name = "tpm_state" && tpm)
          notify.bind fun _ => notify.bind fun _ =>
            (ofExcept (Id.new "image" imageId)).bind fun imageId =>
              (ofExcept (Id.new "engine track" engineTrack)).bind fun engineTrack =>
                lockWorkspace.bind fun _ =>
                  (createDirAll (self.componentsDir imageId)).bind fun _ =>
                    (copyComponents self imageId components).bind fun digests =>
                      notify.bind fun _ => notify.bind fun _ =>
                        (registerImage self yaml
                            (importedManifest imageId engineTrack target digests)).bind fun _ =>
                          notify.bind fun _ => notify

end Job

end MachineEmu
