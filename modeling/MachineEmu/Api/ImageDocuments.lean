import MachineEmu.Storage.Instances

/-!
# The manifest of an image over the API

Clients read the manifest of an image as a document, and replace it by one.

* `ImageManifest.toDocument`, `ImageManifest.fromDocument` — the document of a manifest.
* `replaceImageManifest` — the manifest is put in the place of the one that is there.
* `getImage`, `putImage` — the handlers.
-/

namespace MachineEmu

open Lib Prog Store

/-! ## Documents -/

/-- Whether a field stands in the document (`skip_serializing_if`). -/
def fieldUnless (empty : Bool) (name : String) (value : Json) : List (String × Json) :=
  if empty then [] else [(name, value)]

/-- A field that may be absent. -/
def optionalField (name : String) (value : Option String) : List (String × Json) :=
  (value.map fun text => (name, Json.str text)).toList

/-- The document of a component. -/
def ImageBundleComponent.toDocument (component : ImageBundleComponent) : Json :=
  .ofFields [("path", .str component.path), ("sha256", .str component.sha256)]

namespace ImageManifest

/-- The fields of the document. -/
def documentFields (image : ImageManifest) : List (String × Json) :=
  [("image_id", .str image.imageId.asStr), ("engine_track", .str image.engineTrack.asStr)] ++
    fieldUnless image.supportedEngineTracks.isEmpty "supported_engine_tracks"
      (.arr (image.supportedEngineTracks.map fun track => .str track.asStr)) ++
    [("target", .str image.target)] ++
    fieldUnless image.components.entries.isEmpty "components"
      (.ofFields (image.components.entries.map fun e => (e.1, e.2.toDocument))) ++
    fieldUnless (image.diskSha256 = "") "disk_sha256" (.str image.diskSha256) ++
    optionalField "firmware_sha256" image.firmwareSha256 ++
    optionalField "tpm_state_sha256" image.tpmStateSha256

/-- Source: `domain/mod.rs`, the `Serialize` of `ImageManifest`. -/
def toDocument (image : ImageManifest) : Json := .ofFields image.documentFields

end ImageManifest

/-- An identifier in a document. Source: `domain/mod.rs`, `TryFrom<String>` of `Id`. -/
def idIn (value : Json) : Option Id := value.asStr.bind fun text => (Id.new "id" text).toOption

/-- A text that may be absent or null. -/
def nullableText : Option Json → Option (Option String)
  | none => some none
  | some .null => some none
  | some value => value.asStr.map some

/-- A component in a document. -/
def componentOf (value : Json) : Option ImageBundleComponent :=
  match (value.field "path").bind Json.asStr, (value.field "sha256").bind Json.asStr with
  | some path, some sha256 => some { path, sha256 }
  | _, _ => none

/-- The components in a document. -/
def componentsIn : Option Json → Option (SortedMap String ImageBundleComponent)
  | none => some SortedMap.empty
  | some (.obj fields) =>
    (fields.mapM fun e => (componentOf e.2).map fun component => (e.1, component)).map
      fun components => components.foldl (fun map e => map.insert e.1 e.2) SortedMap.empty
  | some _ => none

/-- The further tracks in a document. -/
def tracksIn : Option Json → Option (List Id)
  | none => some []
  | some value => value.asArr.bind fun items => items.mapM idIn

/-- The digest of the disk in a document. -/
def diskIn : Option Json → Option String
  | none => some ""
  | some value => value.asStr

/-- Source: `domain/mod.rs`, the `Deserialize` of `ImageManifest`. -/
def ImageManifest.fromDocument (document : Json) : Option ImageManifest := do
  let imageId ← (document.field "image_id").bind idIn
  let engineTrack ← (document.field "engine_track").bind idIn
  let supportedEngineTracks ← tracksIn (document.field "supported_engine_tracks")
  let target ← (document.field "target").bind Json.asStr
  let components ← componentsIn (document.field "components")
  let diskSha256 ← diskIn (document.field "disk_sha256")
  let firmwareSha256 ← nullableText (document.field "firmware_sha256")
  let tpmStateSha256 ← nullableText (document.field "tpm_state_sha256")
  return { imageId, engineTrack, supportedEngineTracks, target, components, diskSha256
           firmwareSha256, tpmStateSha256 }

/-- The text of documents: how one is written, and how it is read or the text of its error. -/
structure DocumentText where
  render : Json → List UInt8
  parse : List UInt8 → Except String Json

/-! ## The handlers -/

/-- The fields that a request may have. -/
def imageFields : List String :=
  ["image_id", "engine_track", "supported_engine_tracks", "target", "disk_sha256",
    "firmware_sha256", "tpm_state_sha256"]

/-- The document of a request and its manifest: the checks of `api/documents.rs` `put_image` before
the workspace is locked. -/
def imageRequest (text : DocumentText) (id : String) (body : List UInt8) :
    Except Error (Json × ImageManifest) :=
  match text.parse body with
  | .error e => .error (.process e)
  | .ok document =>
    match document.asObj with
    | none => .error (.process "image manifest must be an object")
    | some fields =>
      match fields.find? fun e => e.1 ∉ imageFields with
      | some e => .error (.process ("unknown image manifest field: " ++ e.1))
      | none =>
        match ImageManifest.fromDocument document with
        | none => .error (.process "invalid image manifest")
        | some image =>
          match Id.new "image" id with
          | .error e => .error e
          | .ok imageId =>
            if image.imageId ≠ imageId then .error (.process "image_id must match URL ID")
            else .ok (document, image)

section Handlers

variable (self : Handle) (yaml : Yaml) (text : DocumentText)

/-- Source: `storage/images.rs` `replace_image_manifest`. -/
def replaceImageManifest (manifest : ImageManifest) : Task String :=
  (ofExcept (manifest.validate manifest.imageId.asStr)).bind fun _ =>
    let path := self.manifestPath manifest.imageId
    (isFile path).bind fun present =>
      if present = false then .throw (.notFound "image" manifest.imageId.asStr)
      else
        let directory := self.imageRoot manifest.imageId
        (canonicalize self.root).bind fun _ =>
        (canonicalize directory).bind fun _ =>
        if ¬self.root <+: directory then
          .throw (.invalidBundlePath "image manifest directory escapes the workspace")
        else
          clock.bind fun nanos =>
            let temporary := directory ++ [self.temporary "manifest" nanos]
            let bytes := yaml.manifest manifest
            (onError
              ((createNew temporary).bind fun _ =>
                (writeAll temporary bytes).bind fun _ =>
                -- the line's end, behind the bytes
                (writeAll temporary (bytes ++ textBytes "\n")).bind fun _ =>
                (sync temporary).bind fun _ =>
                (Store.rename temporary path path).bind fun _ => sync directory)
              (removeFile temporary)).bind fun _ => .ret (sha256 bytes)

/-- Source: `api/images.rs` `get_image`. -/
def getImage (id : String) : Task (List UInt8) :=
  (ofExcept (Id.new "image" id)).bind fun imageId =>
    (image self yaml imageId).bind fun manifest => .ret (text.render manifest.toDocument)

/-- Source: `api/documents.rs` `put_image`. -/
def putImage (id : String) (body : List UInt8) : Task (List UInt8) :=
  (ofExcept (imageRequest text id body)).bind fun request =>
    (replaceImageManifest self yaml request.2).bind fun _ =>
      .ret (text.render request.2.toDocument)

/-- A client sends back what it has read. -/
def getThenPut (id : String) : Task (List UInt8) :=
  (getImage self yaml text id).bind fun body => putImage self yaml text id body

end Handlers

end MachineEmu
