import MachineEmu.Storage.Instances
import MachineEmu.Resolution.Engine

/-!
# The configuration of an instance

The stored document of an instance is an envelope with its ids and the resolved domain document.
Two readers take the document from the directory of the instance: one takes the envelope, the
other one the domain document in it or a bare one.

* `DomainDocument`, `InstanceDocument` — the two documents and what reads and writes them.
* `instanceDocument`, `domainInstanceDocument` — the readers.
* `replaceDomainDocument` — the writer.
-/

namespace MachineEmu

open Lib Prog

/-! ## Structures -/

/-- The fields of a structure: an object has known fields only, and an array has the fields in
their order, the required ones at least. -/
def structFields (names : List String) (required : Nat) :
    Json → Except String (List (String × Json))
  | .obj fields =>
    match fields.find? fun e => e.1 ∉ names with
    | some e => .error ("unknown field `" ++ e.1 ++ "`")
    | none => .ok fields
  | .arr items =>
    if items.length < required ∨ names.length < items.length then
      .error ("invalid length " ++ toString items.length)
    else .ok (names.zip items)
  | _ => .error "invalid type"

section Fields

variable (fields : List (String × Json)) (name : String)

/-- The value of a field, unless it is missing. -/
def givenField : Option Json := (fields.find? fun e => e.1 = name).map Prod.snd

/-- A text that may not be missing. -/
def textField : Except String String :=
  match givenField fields name with
  | some (.str s) => .ok s
  | some _ => .error "invalid type"
  | none => .error ("missing field `" ++ name ++ "`")

/-- A text with a default. -/
def textFieldOr (default : String) : Except String String :=
  match givenField fields name with
  | some (.str s) => .ok s
  | some _ => .error "invalid type"
  | none => .ok default

/-- A text that may be null. -/
def optionalText : Except String (Option String) :=
  match givenField fields name with
  | some (.str s) => .ok (some s)
  | some .null => .ok none
  | some _ => .error "invalid type"
  | none => .ok none

/-- A flag that is false by default. -/
def flagField : Except String Bool :=
  match givenField fields name with
  | some (.bool b) => .ok b
  | some _ => .error "invalid type"
  | none => .ok false

/-- An unsigned number of some bits. -/
def unsignedField (bits : Nat) (default : Option Int) : Except String Int :=
  match givenField fields name, default with
  | some (.num n), _ => if 0 ≤ n ∧ n < 2 ^ bits then .ok n else .error "invalid value"
  | some _, _ => .error "invalid type"
  | none, some n => .ok n
  | none, none => .error ("missing field `" ++ name ++ "`")

/-- A value that may be null. -/
def optionalValue : Option Json :=
  match givenField fields name with
  | some .null => none
  | value => value

/-- A structure that may be null. -/
def optionalStruct {α : Type} (read : Json → Except String α) : Except String (Option α) :=
  match givenField fields name with
  | some .null => .ok none
  | some value => (read value).map some
  | none => .ok none

end Fields

/-! ## Domain documents -/

/-- Read the metadata of a document. -/
def DocumentMetadata.ofJson (value : Json) : Except String DocumentMetadata := do
  let fields ← structFields ["name", "revision", "digest"] 1 value
  let name ← textField fields "name"
  let revision ← unsignedField fields "revision" 64 (some 0)
  let digest ← optionalText fields "digest"
  return { name, revision, digest }

def DocumentMetadata.toJson (metadata : DocumentMetadata) : Json :=
  .obj [("digest", optional metadata.digest), ("name", .str metadata.name),
    ("revision", .num metadata.revision)]

/-- Source: `domain/configuration.rs` `SourceRef`. -/
structure SourceRef where
  id : String
  revision : Int := 0
  digest : Option String := none

def SourceRef.ofJson (value : Json) : Except String SourceRef := do
  let fields ← structFields ["id", "revision", "digest"] 1 value
  let id ← textField fields "id"
  let revision ← unsignedField fields "revision" 64 (some 0)
  let digest ← optionalText fields "digest"
  return { id, revision, digest }

def SourceRef.toJson (source : SourceRef) : Json :=
  .obj [("digest", optional source.digest), ("id", .str source.id),
    ("revision", .num source.revision)]

/-- Source: `domain/configuration.rs` `SourceProvenance`. -/
structure SourceProvenance where
  profile : Option SourceRef := none
  hardwareIdentity : Option SourceRef := none
  image : Option SourceRef := none
  overrides : List (String × Json) := []

def SourceProvenance.ofJson (value : Json) : Except String SourceProvenance := do
  let fields ← structFields ["profile", "hardware_identity", "image", "overrides"] 0 value
  let profile ← optionalStruct fields "profile" SourceRef.ofJson
  let hardwareIdentity ← optionalStruct fields "hardware_identity" SourceRef.ofJson
  let image ← optionalStruct fields "image" SourceRef.ofJson
  match givenField fields "overrides" with
  | some (.obj overrides) => return { profile, hardwareIdentity, image, overrides }
  | some _ => .error "invalid type"
  | none => return { profile, hardwareIdentity, image }

/-- A structure that may be missing. -/
def optionalJson {α : Type} (write : α → Json) : Option α → Json
  | some a => write a
  | none => .null

def SourceProvenance.toJson (source : SourceProvenance) : Json :=
  .obj [("hardware_identity", optionalJson SourceRef.toJson source.hardwareIdentity),
    ("image", optionalJson SourceRef.toJson source.image), ("overrides", .obj source.overrides),
    ("profile", optionalJson SourceRef.toJson source.profile)]

/-- Source: `domain/configuration.rs` `InstanceDocument`. -/
structure DomainDocument where
  apiVersion : String
  kind : String
  metadata : DocumentMetadata
  spec : Json
  source : Option SourceProvenance := none
  status : Option Json := none

def DomainDocument.ofJson (value : Json) : Except String DomainDocument := do
  let fields ← structFields ["api_version", "kind", "metadata", "spec", "source", "status"] 4 value
  let apiVersion ← textField fields "api_version"
  let kind ← textField fields "kind"
  match givenField fields "metadata", givenField fields "spec" with
  | some metadata, some spec =>
    let metadata ← DocumentMetadata.ofJson metadata
    let source ← optionalStruct fields "source" SourceProvenance.ofJson
    return { apiVersion, kind, metadata, spec, source, status := optionalValue fields "status" }
  | none, _ => .error "missing field `metadata`"
  | _, none => .error "missing field `spec`"

def DomainDocument.toJson (document : DomainDocument) : Json :=
  .obj [("api_version", .str document.apiVersion), ("kind", .str document.kind),
    ("metadata", document.metadata.toJson),
    ("source", optionalJson SourceProvenance.toJson document.source), ("spec", document.spec),
    ("status", document.status.getD .null)]

/-! ## Envelopes -/

/-- The fields of an envelope, in their order. -/
def InstanceDocument.fields (document : InstanceDocument) : List (String × Json) :=
  [("schema_version", .num document.schemaVersion), ("instance_id", .str document.instanceId),
    ("image_id", .str document.imageId), ("profile_id", .str document.profileId),
    ("auto_remove", .bool document.autoRemove), ("profile", document.profile.getD .null),
    ("launch_plan", document.launchPlan.getD .null)] ++
    (document.domainDocument.toList.map fun value => ("domain_document", value))

/-- The value of an envelope. -/
def InstanceDocument.toJson (document : InstanceDocument) : Json :=
  .obj ([("auto_remove", .bool document.autoRemove)] ++
    (document.domainDocument.toList.map fun value => ("domain_document", value)) ++
    [("image_id", .str document.imageId), ("instance_id", .str document.instanceId),
      ("launch_plan", document.launchPlan.getD .null), ("profile", document.profile.getD .null),
      ("profile_id", .str document.profileId), ("schema_version", .num document.schemaVersion)])

def InstanceDocument.ofJson (value : Json) : Except String InstanceDocument := do
  let fields ← structFields ["schema_version", "instance_id", "image_id", "profile_id",
    "auto_remove", "profile", "launch_plan", "domain_document"] 7 value
  let schemaVersion ← unsignedField fields "schema_version" 32 none
  let instanceId ← textField fields "instance_id"
  let imageId ← textField fields "image_id"
  let profileId ← textFieldOr fields "profile_id" "custom"
  let autoRemove ← flagField fields "auto_remove"
  return { schemaVersion, instanceId, imageId, profileId, autoRemove
           profile := optionalValue fields "profile"
           launchPlan := optionalValue fields "launch_plan"
           domainDocument := optionalValue fields "domain_document" }

/-- The token of the content of an envelope. Source: `storage/configuration.rs` `revision`. -/
def InstanceDocument.revision (document : InstanceDocument) : Int :=
  let text := textBytes (Json.render (.obj document.fields))
  let number := ((Sha256.digest (text.map UInt8.toNat)).take 8).foldl (fun n b => n * 256 + b) 0
  (number % 2 ^ 53 : Nat)

/-- Whether a value is a bare domain document. -/
def isDomainInstance (value : Json) : Bool :=
  ((value.field "api_version").bind Json.asStr) = some "machineemu.io/v1" &&
    ((value.field "kind").bind Json.asStr) = some "Instance"

/-! ## Readers -/

/-- Source: `storage/configuration.rs` `validate_domain_instance_document`. -/
def validateDomainInstanceDocument (value : Json) (instance_ : Instance) :
    Except Error DomainDocument :=
  match DomainDocument.ofJson value with
  | .error e => .error (.process ("invalid resolved instance document: " ++ e))
  | .ok document =>
    if document.apiVersion ≠ "machineemu.io/v1" ∨ document.kind ≠ "Instance" then
      .error (.process ("resolved instance document must have api_version machineemu.io/v1 " ++
        "and kind Instance"))
    else if document.metadata.name ≠ instance_.instanceId.asStr then
      .error (.process "resolved instance metadata.name does not match the instance ID")
    else .ok document

/-- The checks of an envelope. -/
def checkInstanceDocument (value : Json) (instance_ : Instance) (i : Id) :
    Except Error InstanceDocument :=
  match InstanceDocument.ofJson (value.removeField "revision") with
  | .error e => .error (.manifestJson e)
  | .ok document =>
    if document.schemaVersion ≠ 1 then
      .error (.process "instance document schema_version must be 1")
    else if document.instanceId ≠ i.asStr ∨ document.imageId ≠ instance_.imageId.asStr ∨
        document.profileId ≠ instance_.profileId.asStr then
      .error (.process
        "instance, image and template IDs cannot change on an existing instance")
    else if document.autoRemove ∧ document.launchPlan.isNone ∧ document.domainDocument.isNone then
      .error (.process "auto_remove requires a launch plan or complete domain document")
    else
      match (document.profile.bind (·.field "id")).bind Json.asStr with
      | some profileId =>
        if profileId ≠ document.profileId then
          .error (.process "profile.id must match profile_id")
        else .ok document
      | none => .ok document

namespace Store

section Configuration

variable (self : Handle) (documents : Documents)

/-- Source: `storage/configuration.rs` `instance_document_path`. -/
def instanceDocumentPath (i : Id) : Task Path :=
  let directory := self.instanceDir i
  (metadata (directory ++ ["instance.yaml"])).bind fun yaml =>
    (metadata (directory ++ ["instance.yml"])).bind fun yml =>
      if yaml ≠ none ∧ yml ≠ none then
        .throw (.process ("multiple instance documents in " ++ display directory ++
          "; keep exactly one YAML file"))
      else .ret (directory ++ [if yml ≠ none then "instance.yml" else "instance.yaml"])

/-- Source: `storage/configuration.rs` `instance_document`. -/
def instanceDocument (i : Id) : Task InstanceDocument :=
  (select fun w => w.instance_ i).bind fun row =>
    (instanceDocumentPath self i).bind fun path =>
      (checkConfigurationPath self path).bind fun _ =>
        (loadDocument documents path).bind fun value =>
          ofExcept (checkInstanceDocument value row i)

/-- Source: `storage/configuration.rs` `domain_instance_document`. -/
def domainInstanceDocument (i : Id) : Task DomainDocument :=
  let path := self.instanceDir i ++ ["instance.yaml"]
  (select fun w => w.instance_ i).bind fun row =>
    (checkConfigurationPath self path).bind fun _ =>
      (loadDocument documents path).bind fun value =>
        if isDomainInstance value then ofExcept (validateDomainInstanceDocument value row)
        else
          (instanceDocument self documents i).bind fun envelope =>
            match envelope.domainDocument with
            | some value => ofExcept (validateDomainInstanceDocument value row)
            | none => .throw (.process
                "instance.yaml does not contain a complete resolved domain document")

/-- Source: `storage/configuration.rs` `replace_domain_document`. -/
def replaceDomainDocument (i : Id) (revision : Int) (domain : Json) (autoRemove : Bool) :
    Task Int :=
  if domain.isObj = false then .throw (.process "domain document must be an object")
  else
    (instanceDocument self documents i).bind fun document =>
      if document.revision ≠ revision then
        .throw (.process "instance configuration revision changed")
      else
        (select fun w => w.instance_ i).bind fun row =>
          (ofExcept (validateDomainInstanceDocument domain row)).bind fun _ =>
            let document := { document with domainDocument := some domain, autoRemove }
            (instanceDocumentPath self i).bind fun path =>
              (writeInstanceDocumentAt self documents path document).bind fun _ =>
                .ret document.revision

end Configuration

end Store

end MachineEmu
