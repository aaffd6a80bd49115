import MachineEmu.Storage.Files

/-!
# Images

The image store: the manifest of an image and its component files under `images/<id>`, the import
of a base directory, and the export and import of bundles.

* `publishManifest`, `readManifest`, `registerImage` — manifests.
* `publishComponent`, `verifyComponent` — component files.
* `importVmmanagerBase`, `exportImageBundle`, `importImageBundle` — the procedures.
-/

namespace MachineEmu

open Lib Prog Store

/-- The serialiser of the manifests: what it writes, and what it reads or the text of its error.
Reading an image manifest takes the `spec` of a document that has one. -/
structure Yaml where
  manifest : ImageManifest → List UInt8
  readManifest : List UInt8 → Except String ImageManifest
  bundle : ImageBundleManifest → List UInt8
  readBundle : List UInt8 → Except String ImageBundleManifest

/-! ## Digests and paths -/

/-- `strip_prefix("sha256:").unwrap_or(…)`. -/
def stripDigest (s : String) : String :=
  match "sha256:".toList.isPrefixOf? s.toList with
  | some rest => String.ofList rest
  | none => s

/-- Whether a digest, with its prefix or without, is 64 hexadecimal digits. -/
def isDigest (s : String) : Bool :=
  (stripDigest s).toList.length = 64 && (stripDigest s).toList.all isHexDigit

/-- The path of a bundle component below the bundle, or nothing when it is absolute, goes to a
parent directory or names no file. -/
def bundlePath (path : String) : Option Path :=
  let parts := (path.toList.splitOn '/').map String.ofList
  if path.toList.head? = some '/' ∨ ".." ∈ parts ∨ parts.getLast? = some "" ∨
      parts.getLast? = some "." then none
  else some (parts.filter fun part => part ≠ "" ∧ part ≠ ".")

namespace Handle

variable (self : Handle)

/-- The directory of an image. Source: `storage/images.rs` `image_root`, after its validation. -/
def imageRoot (image : Id) : Path := self.root ++ ["images", image.asStr]

/-- Source: `storage/images.rs` `manifest_path`, after its validation. -/
def manifestPath (image : Id) : Path := self.imageRoot image ++ ["manifest.yaml"]

/-- The directory of the component files of an image. -/
def componentsDir (image : Id) : Path := self.imageRoot image ++ ["components"]

/-- The component files of an image, by name. -/
def componentPath (image : Id) (name : String) : Path := self.componentsDir image ++ [name]

end Handle

/-! ## Manifests -/

namespace ImageManifest

/-- The digests of a manifest, in the order in which they are checked. -/
def digests (image : ImageManifest) : List String :=
  (image.components.entries.map fun e => e.2.sha256) ++
    (if image.diskSha256 = "" then [] else [image.diskSha256]) ++
    image.firmwareSha256.toList ++ image.tpmStateSha256.toList

/-- Source: `storage/images.rs` `validate_manifest`. -/
def validate (image : ImageManifest) (expected : String) : Except Error Unit :=
  match Id.new "image" image.imageId.asStr with
  | .error e => .error e
  | .ok _ =>
    match (image.engineTrack :: image.supportedEngineTracks).find? fun track =>
        Id.isValid track.asStr = false with
    | some track => .error (.invalidId "engine track" track.asStr)
    | none =>
      if image.imageId.asStr ≠ expected then
        .error (.invalidBundlePath ("manifest image_id " ++ Error.quoted image.imageId.asStr ++
          " must match directory " ++ Error.quoted expected))
      else if image.digests.all isDigest then .ok ()
      else .error (.invalidBundlePath "image manifest contains an invalid SHA-256 digest")

/-- The digest of a component of the map. -/
def componentDigest (image : ImageManifest) (name : String) : Option String :=
  (image.components.get? name).map fun component => stripDigest component.sha256

/-- Fill the digests that a manifest gives in its components only.
Source: `storage/images.rs` `read_manifest`. -/
def completed (image : ImageManifest) : ImageManifest :=
  { image with
    diskSha256 := if image.diskSha256 = "" then (image.componentDigest "disk").getD ""
      else image.diskSha256
    firmwareSha256 := image.firmwareSha256.or (image.componentDigest "firmware")
    tpmStateSha256 := image.tpmStateSha256.or (image.componentDigest "tpm_state") }

end ImageManifest

section Procedures

variable (self : Handle) (yaml : Yaml)

/-- Source: `storage/images.rs` `read_manifest`. -/
def readManifest (path : Path) (expected : String) : Task ImageManifest :=
  (readFile path).bind fun bytes =>
    match yaml.readManifest bytes with
    | .error e => .throw (.invalidBundlePath (display path ++ ": " ++ e))
    | .ok image =>
      (ofExcept (image.completed.validate expected)).bind fun _ => .ret image.completed

/-- Source: `storage/images.rs` `image`. -/
def image (imageId : Id) : Task ImageManifest :=
  (ofExcept (Id.new "image" imageId.asStr)).bind fun _ =>
    readManifest yaml (self.manifestPath imageId) imageId.asStr

/-- The manifest of a registered image, when the store accepts it. -/
def registeredImage (files : FileTree) (imageId : Id) : Option ImageManifest :=
  match files.look (self.manifestPath imageId) with
  | some (.file bytes) =>
    match yaml.readManifest bytes with
    | .ok image =>
      match image.completed.validate imageId.asStr with
      | .ok _ => some image.completed
      | .error _ => none
    | .error _ => none
  | _ => none

/-- Publish a manifest where none is. Source: `storage/images.rs` `publish_manifest`. -/
def publishManifest (path : Path) (image : ImageManifest) : Task Unit :=
  let directory := path.dropLast
  let temporary := directory ++ [".manifest-" ++ toString self.pid ++ ".tmp"]
  (createDirAll directory).bind fun _ =>
    (createNew temporary).bind fun _ =>
      onError
        ((writeAll temporary (yaml.manifest image)).bind fun _ =>
          (sync temporary).bind fun _ =>
            (change (.hardLink temporary path) path (·.link temporary path)).bind fun _ =>
              (removeFile temporary).bind fun _ =>
                (sync directory).bind fun _ => sync directory.dropLast)
        (removeFile temporary)

/-- Source: `storage/images.rs` `register_image`. -/
def registerImage (manifest : ImageManifest) : Task String :=
  (ofExcept (manifest.validate manifest.imageId.asStr)).bind fun _ =>
    let path := self.manifestPath manifest.imageId
    (metadata path).bind fun found =>
      (match found with
        | some _ => (readManifest yaml path manifest.imageId.asStr).bind fun existing =>
          if existing ≠ manifest then .throw (.imageConflict manifest.imageId.asStr) else .ret ()
        | none => publishManifest self yaml path manifest).bind fun _ =>
          -- the row that instances refer to
          (statement fun w => (.ok (), w)).bind fun _ => .ret (sha256 (yaml.manifest manifest))

/-! ## Components -/

/-- The clock of a temporary name. -/
def clock : Task Nat := .ask fun o => .ret o.nanos

/-- The digest of a file, copied to a temporary file next to it.
Source: `storage/images.rs` `hash_file`. -/
def hashFile (path : Path) : Task String :=
  clock.bind fun nanos =>
    let staging := path.dropLast ++ [self.temporary "hash" nanos]
    (create staging).bind fun _ =>
      (copyAndHash path staging).attempt.bind fun result =>
        (ignore (removeFile staging)).bind fun _ => ofExcept result

/-- Compare a digest with the expected one. -/
def checkDigest (digest : String) (expected : Option String) : Task Unit :=
  match expected with
  | some expected =>
    if digest ≠ expected then .throw (.digestMismatch expected digest) else .ret ()
  | none => .ret ()

/-- Source: `storage/images.rs` `verify_component`. -/
def verifyComponent (path : Path) (expected : String) : Task Unit :=
  (hashFile self path).bind fun actual => checkDigest actual (some (stripDigest expected))

/-- Copy a component file into the store, unless the store has one.
Source: `storage/images.rs` `publish_component`. -/
def publishComponent (source destination : Path) (expected : Option String) : Task String :=
  (isFile destination).bind fun published =>
    if published then
      (hashFile self destination).bind fun digest =>
        (checkDigest digest (expected.map stripDigest)).bind fun _ => .ret digest
    else
      let directory := destination.dropLast
      (createDirAll directory).bind fun _ =>
        clock.bind fun nanos =>
          let temporary := directory ++ [self.temporary "component" nanos]
          (createNew temporary).bind fun _ =>
            onError
              ((copyAndHash source temporary).bind fun digest =>
                (checkDigest digest (expected.map stripDigest)).bind fun _ =>
                  (Store.rename temporary destination destination).bind fun _ => .ret digest)
              (removeFile temporary)

/-! ## Import and export -/

/-- The components map of a manifest with these digests. -/
def componentsOf (disk firmware tpm : Option String) : SortedMap String ImageBundleComponent :=
  [("disk", "disk.qcow2", disk), ("firmware", "firmware.fd", firmware),
    ("tpm_state", "tpm-state", tpm)].foldl
    (fun components (name, file, digest) =>
      match digest with
      | some digest => components.insert name
          { path := "components/" ++ file, sha256 := "sha256:" ++ digest }
      | none => components) SortedMap.empty

/-- Publish a component that the base may lack. -/
def publishOptional (source destination : Path) : Task (Option String) :=
  (isFile source).bind fun present =>
    if present then
      (publishComponent self source destination none).bind fun digest => .ret (some digest)
    else .ret none

/-- Import a base directory. Source: `storage/images.rs` `import_vmmanager_base`. -/
def importVmmanagerBase (source : Path) (imageId engineTrack : Id) (target : String) :
    Task ImageManifest :=
  let disk := source ++ ["disk.qcow2"]
  (isFile disk).bind fun present =>
    if present = false then .throw (.invalidBundlePath (display disk))
    else
      (ofExcept (Id.new "image" imageId.asStr)).bind fun _ =>
        (createDirAll (self.componentsDir imageId)).bind fun _ =>
          (publishComponent self disk (self.componentPath imageId "disk.qcow2") none).bind
            fun diskSha256 =>
          (publishOptional self (source ++ ["OVMF_VARS.fd"])
              (self.componentPath imageId "firmware.fd")).bind fun firmwareSha256 =>
          (publishOptional self (source ++ ["tpm", "tpm2-00.permall"])
              (self.componentPath imageId "tpm-state")).bind fun tpmStateSha256 =>
          let manifest : ImageManifest :=
            { imageId, engineTrack, supportedEngineTracks := [], target
              components := componentsOf (some diskSha256) firmwareSha256 tpmStateSha256
              diskSha256, firmwareSha256, tpmStateSha256 }
          (registerImage self yaml manifest).bind fun _ => .ret manifest

/-- Export one component of a known digest; returns the bundle's components with it. -/
def exportComponent (imageId : Id) (destination : Path) (name file : String)
    (digest : Option String) (components : SortedMap String ImageBundleComponent) :
    Task (SortedMap String ImageBundleComponent) :=
  match digest with
  | none => .ret components
  | some digest =>
    let source := self.componentPath imageId file
    (verifyComponent self source (stripDigest digest)).bind fun _ =>
      (copy source (destination ++ ["components", file])).bind fun _ =>
        .ret (components.insert name
          { path := "components/" ++ file, sha256 := "sha256:" ++ stripDigest digest })

/-- Export an image. Source: `storage/images.rs` `export_image_bundle_from_root`. -/
def exportImageBundle (imageId : Id) (destination : Path) : Task ImageBundleManifest :=
  (exists_ destination).bind fun present =>
    if present then .throw (.bundleExists (display destination))
    else
      (image self yaml imageId).bind fun image =>
        (createDirAll (destination ++ ["components"])).bind fun _ =>
          (exportComponent self image.imageId destination "disk" "disk.qcow2"
              (some image.diskSha256) SortedMap.empty).bind fun components =>
          (exportComponent self image.imageId destination "firmware" "firmware.fd"
              image.firmwareSha256 components).bind fun components =>
          (exportComponent self image.imageId destination "tpm_state" "tpm-state"
              image.tpmStateSha256 components).bind fun components =>
          let bundle : ImageBundleManifest :=
            { schemaVersion := 1, imageId := image.imageId, engineTrack := image.engineTrack
              supportedEngineTracks := image.supportedEngineTracks, target := image.target
              components }
          (writeFile (destination ++ ["manifest.yaml"]) (yaml.bundle bundle)).bind fun _ =>
            .ret bundle

/-- Import one component of a bundle. -/
def importComponent (source : Path) (bundle : ImageBundleManifest) (name file : String) :
    Task (Option String) :=
  match bundle.components.get? name with
  | none => .ret none
  | some component =>
    match bundlePath component.path with
    | none => .throw (.invalidBundlePath component.path)
    | some path =>
      (isFile (source ++ path)).bind fun present =>
        if present = false then .throw (.invalidBundlePath component.path)
        else
          (publishComponent self (source ++ path) (self.componentPath bundle.imageId file)
            (some component.sha256)).bind fun digest => .ret (some digest)

/-- Import a bundle. Source: `storage/images.rs` `import_image_bundle`. -/
def importImageBundle (source : Path) : Task (ImageManifest × String) :=
  let manifestPath := source ++ ["manifest.yaml"]
  (readFile manifestPath).bind fun bytes =>
    match yaml.readBundle bytes with
    | .error e => .throw (.invalidBundlePath (display manifestPath ++ ": " ++ e))
    | .ok bundle =>
      if bundle.schemaVersion ≠ 1 then
        .throw (.invalidBundlePath "unsupported schema_version")
      else
        (ofExcept (Id.new "image" bundle.imageId.asStr)).bind fun _ =>
          (createDirAll (self.componentsDir bundle.imageId)).bind fun _ =>
            (importComponent self source bundle "disk" "disk.qcow2").bind fun disk =>
              match disk with
              | none => .throw (.invalidBundlePath "disk component is required")
              | some diskSha256 =>
                (importComponent self source bundle "firmware" "firmware.fd").bind
                  fun firmwareSha256 =>
                (importComponent self source bundle "tpm_state" "tpm-state").bind
                  fun tpmStateSha256 =>
                let manifest : ImageManifest :=
                  { imageId := bundle.imageId, engineTrack := bundle.engineTrack
                    supportedEngineTracks := bundle.supportedEngineTracks
                    target := bundle.target, components := bundle.components
                    diskSha256, firmwareSha256, tpmStateSha256 }
                (registerImage self yaml manifest).bind fun digest => .ret (manifest, digest)

end Procedures

/-! ## What a reader sees -/

/-- A reader gets the manifest of a registered image, and changes nothing. -/
theorem ends_image {self : Handle} {yaml : Yaml} {good : Store → Outcome → Prop} {s : Store}
    (imageId : Id) : Ends good
      (fun image s' => s' = s ∧ registeredImage self yaml s.files imageId = some image)
      (fun _ _ => True) (image self yaml imageId) s := by
  refine Ends.seq (ends_ofExcept.2 ⟨fun _ _ => ?_, fun _ _ => trivial⟩)
  refine Ends.seq (ends_readFile (fun _ _ _ _ => trivial) (fun _ _ => trivial) fun bytes hbytes => ?_)
  cases hread : yaml.readManifest bytes with
  | error e => trivial
  | ok manifest =>
    refine Ends.bind (M := fun _ s' => s' = s ∧ manifest.completed.validate imageId.asStr = .ok ())
      (ends_ofExcept.2 ⟨fun _ h => ⟨rfl, h⟩, fun _ _ => trivial⟩) ?_
    intro _ s₃ h₃
    refine ⟨h₃.1, ?_⟩
    unfold registeredImage
    simp [hbytes, hread, h₃.2]

end MachineEmu
