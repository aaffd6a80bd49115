import MachineEmu.Storage.Configuration
import MachineEmu.Storage.Components

/-!
# The upgrade of a pinned engine

A stopped instance gets another engine build. The build has to be available in the workspace, and
the compatibility that was saved with the document has to admit it.

* `EngineCandidate` — what a request asks for.
* `checkManifest`, `checkTracks`, `checkMachine` — the checks of a build.
* `upgradedDocument` — the document with the new engine.
* `upgradeInstanceEngine` — the request.
-/

namespace MachineEmu

open Lib Prog

/-! ## The request -/

/-- An engine that is asked for, and the three fields that it must have. -/
structure EngineCandidate where
  value : Json
  track : String
  digest : String
  executable : String

/-- A text that is not empty. -/
def nonEmptyText (value : Json) (name : String) : Option String :=
  (textAt value name).filter fun text => text ≠ ""

/-- Read the engine of a request. -/
def EngineCandidate.ofJson (value : Json) : Except Error EngineCandidate :=
  if value.isObj = false then .error (.process "engine upgrade must be an object")
  else
    match nonEmptyText value "track" with
    | none => .error (.process "engine upgrade track is required")
    | some track =>
      match nonEmptyText value "build_digest" with
      | none => .error (.process "engine upgrade build_digest is required")
      | some digest =>
        if isHexDigest (stripDigest digest) = false then
          .error (.process "engine upgrade build_digest must be a SHA-256 digest")
        else
          match nonEmptyText value "executable" with
          | none => .error (.process "engine upgrade executable is required")
          | some executable => .ok { value, track, digest, executable }

/-! ## The checks -/

/-- The fields of an object. -/
def fieldsOf : Json → Option (List (String × Json))
  | .obj fields => some fields
  | _ => none

/-- The value of a field that is an object. -/
def objectAt (value : Json) (name : String) : Option Json :=
  (value.field name).filter Json.isObj

/-- The executable of a build: the first of its executables that is a text. -/
def manifestExecutable (manifest : Json) : Option String :=
  ((manifest.field "executables").bind fieldsOf).bind fun fields =>
    fields.findSome? fun e => e.2.asStr

/-- The build provides what is asked for. -/
def checkManifest (manifest : Json) (candidate : EngineCandidate) : Except Error Unit :=
  if textAt manifest "build_digest" ≠ some candidate.digest then
    .error (.process ("engine build manifest for " ++ candidate.track ++
      " does not provide requested digest " ++ candidate.digest))
  else if manifestExecutable manifest ≠ some candidate.executable then
    .error (.process ("engine executable is not provided by the " ++ candidate.track ++ " build"))
  else .ok ()

/-- A list of tracks lacks this one. Another value, or none, lacks nothing. -/
def lacksTrack (tracks : Option Json) (track : String) : Bool :=
  match tracks.bind Json.asArr with
  | some items => (items.filterMap Json.asStr).all fun item => item ≠ track
  | none => false

/-- The saved compatibility admits the track and the patch revision. -/
def checkTracks (spec engine : Json) (candidate : EngineCandidate) : Except Error Unit :=
  let track := candidate.track
  let saved (key : String) := (objectAt engine "compatibility").bind (·.field key)
  let identity := (spec.field "hardware_identity").bind (objectAt · "compatibility")
  if lacksTrack (saved "image_tracks") track then
    .error (.process ("engine track " ++ track ++ " is outside saved image_tracks compatibility"))
  else if lacksTrack (saved "profile_tracks") track then
    .error (.process
      ("engine track " ++ track ++ " is outside saved profile_tracks compatibility"))
  else if lacksTrack ((spec.field "image").bind (·.field "compatible_engines")) track then
    .error (.process ("engine track " ++ track ++ " is incompatible with the saved image"))
  else if lacksTrack (identity.bind (·.field "engine_tracks")) track then
    .error (.process
      ("engine track " ++ track ++ " is incompatible with the saved hardware identity"))
  else
    match identity.bind (textAt · "patch_revision") with
    | none => .ok ()
    | some required =>
      if textAt candidate.value "patch_revision" ≠ some required then
        .error (.process ("engine patch revision must remain " ++ required ++
          " for the saved hardware identity"))
      else .ok ()

/-- Whether a build for `supported` runs a machine. -/
def supportsMachine (machine supported : String) : Bool :=
  supported = machine || decide (supported.toList <:+: machine.toList) ||
    decide (supported.toList <+: machine.toList) || decide (machine.toList <+: supported.toList)

/-- The build runs the machine of the instance, where it lists machines. -/
def checkMachine (manifest spec : Json) (candidate : EngineCandidate) : Except Error Unit :=
  let listed (value : Json) (name : String) := (value.field name).bind Json.asArr
  match ((listed candidate.value "machines").or (listed manifest "machines")).or
    (listed manifest "targets") with
  | none => .ok ()
  | some machines =>
    match ((spec.field "machine").bind fun value => (value.field "type").or (some value)).bind
      Json.asStr with
    | none => .error (.process "resolved instance has no machine type")
    | some machine =>
      if (machines.filterMap Json.asStr).any (supportsMachine machine) then .ok ()
      else .error (.process ("engine build does not support machine " ++ machine))

/-! ## The document -/

/-- The engine that is stored: what was asked for, with the saved compatibility. -/
def upgradedEngine (engine : Json) (candidate : EngineCandidate) : Json :=
  (((candidate.value.setField "track" (.str candidate.track)).setField "build_digest"
    (.str candidate.digest)).setField "executable" (.str candidate.executable)).setField
    "compatibility" ((objectAt engine "compatibility").getD (.obj []))

/-- The document with the new engine and without the launch plans, which were derived from the old
one. Source: `storage/configuration.rs` `upgrade_instance_engine`. -/
def upgradedDocument (document : DomainDocument) (manifest : Json) (candidate : EngineCandidate) :
    Except Error DomainDocument :=
  if document.spec.isObj = false then
    .error (.process "resolved instance spec must be an object")
  else
    match objectAt document.spec "engine" with
    | none => .error (.process "resolved instance has no pinned engine")
    | some engine =>
      match checkTracks document.spec engine candidate with
      | .error e => .error e
      | .ok _ =>
        match checkMachine manifest document.spec candidate with
        | .error e => .error e
        | .ok _ =>
          if textAt engine "track" = some candidate.track ∧
              textAt engine "build_digest" = some candidate.digest then
            .error (.process "engine upgrade must advance the pinned build")
          else
            .ok { document with
              spec := ((document.spec.setField "engine" (upgradedEngine engine candidate)).removeField
                "launch_plan").removeField "rendered_launch_plan"
              metadata := { document.metadata with
                revision := min (document.metadata.revision + 1) (2 ^ 64 - 1) } }

namespace Store

section Upgrade

variable (self : Handle) (documents : Documents)
  (fromSlice : List UInt8 → Except String Json)

/-- The manifest of the builds of a track. -/
def manifestName (track : String) : String :=
  if track.toList.head? = some '/' then track ++ "/engine-build.json"
  else "generated-engines/" ++ track ++ "/engine-build.json"

/-- Read the manifest of a track. `fromSlice` is the JSON parser. -/
def readManifestOf (track : String) : Task Json :=
  (Prog.act (.metadata self.root) id fun s =>
      .ret (locateComponent s.files self.root (manifestName track)) : Task (Option Path)).bind
    fun found =>
      match found with
      | none => .throw (.io (display
          (self.root ++ ["generated-engines", track, "engine-build.json"])) "not found")
      | some path =>
        (readFile path).bind fun bytes =>
          match fromSlice bytes with
          | .ok manifest => .ret manifest
          | .error e => .throw (.process
              ("invalid engine build manifest " ++ display path ++ ": " ++ e))

/-- Whether an instance is at rest: its state is one of three, and it has no active run. -/
def atRest (row : Instance) : Task Bool :=
  if row.state ≠ .created ∧ row.state ≠ .stopped ∧ row.state ≠ .error then .ret false
  else
    (select fun w => .ok (w.activeRun row.instanceId)).bind fun active => .ret active.isNone

/-- Source: `storage/configuration.rs` `upgrade_instance_engine`. -/
def upgradeInstanceEngine (i : Id) (revision : Int) (candidate : Json) : Task Int :=
  (select fun w => w.instance_ i).bind fun row =>
  (atRest row).bind fun rest =>
  if rest = false then .throw (.process "stop the instance before upgrading its engine")
  else
    (instanceDocument self documents i).bind fun envelope =>
    if envelope.revision ≠ revision then
      .throw (.process "instance configuration revision changed")
    else
      (domainInstanceDocument self documents i).bind fun domain =>
      (ofExcept (EngineCandidate.ofJson candidate)).bind fun candidate =>
      (readManifestOf self fromSlice candidate.track).bind fun manifest =>
      (ofExcept (checkManifest manifest candidate)).bind fun _ =>
      (ofExcept (upgradedDocument domain manifest candidate)).bind fun upgraded =>
        let envelope := { envelope with domainDocument := some upgraded.toJson }
        (instanceDocumentPath self i).bind fun path =>
        (writeInstanceDocumentAt self documents path envelope).bind fun _ =>
        (statement fun w => (.ok (), { w with
          instances := w.instances.modifyAt i
            (fun row => { row with revision := row.revision + 1 }) fun _ => rfl })).bind fun _ =>
          .ret envelope.revision

end Upgrade

end Store

end MachineEmu
