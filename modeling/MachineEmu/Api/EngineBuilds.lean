import MachineEmu.Api.Render
import MachineEmu.Resolution.Instance
import MachineEmu.Storage.EngineUpgrade

/-!
# The engine builds of a workspace

The directories below `generated-engines` hold the builds of the tracks, each with a manifest that
lists an executable for each of its targets.

* `engineCapability`, `workspaceEngineCapabilities` — the builds that an instance may be resolved to.
* `resolveInWorkspace` — the resolution with these builds.
* `executableFor` — the executable of a target.
-/

namespace MachineEmu

open Lib Prog Store

/-- The machines that a build lists. -/
def machinesOf (manifest : Json) : List String :=
  ((((manifest.field "machines").or (manifest.field "targets")).bind Json.asArr).map
    fun items => items.filterMap Json.asStr).getD []

/-- The build of a track with a manifest. -/
def engineCapability (track : String) (manifest : Json) : EngineCapability where
  track := track
  buildDigest := textAt manifest "build_digest"
  executable := manifestExecutable manifest
  patchRevision := textAt manifest "patch_revision"
  machines := machinesOf manifest

/-- The executable that a build lists for a target. -/
def executableFor (manifest : Json) (target : String) : Option String :=
  ((manifest.field "executables").bind fun executables => executables.field target).bind Json.asStr

section Capabilities

variable (self : Handle) (fromSlice : List UInt8 → Except String Json)

/-- The directory of the builds. -/
def Handle.generatedEngines (self : Handle) : Path := self.root ++ ["generated-engines"]

/-- The manifest of a track. -/
def Handle.generatedManifest (self : Handle) (track : String) : Path :=
  self.generatedEngines ++ [track, "engine-build.json"]

/-- The builds of some directories. One whose manifest is not read is left out. -/
def capabilitiesOf : List String → Task (List EngineCapability)
  | [] => .ret []
  | track :: rest =>
    (readFile (self.generatedManifest track)).attempt.bind fun read =>
      (capabilitiesOf rest).bind fun later =>
        .ret (match read with
          | .ok bytes =>
            match fromSlice bytes with
            | .ok manifest => engineCapability track manifest :: later
            | .error _ => later
          | .error _ => later)

/-- Source: `api/instances.rs` `workspace_engine_capabilities`. -/
def workspaceEngineCapabilities : Task (List EngineCapability) :=
  (readDir self.generatedEngines).attempt.bind fun
    | .ok tracks => capabilitiesOf self fromSlice tracks
    | .error _ => .ret []

/-- Resolve an instance: with the builds of the request, or those of the workspace when it names
none. Source: `api/instances.rs` `create_instance`. -/
def resolveInWorkspace (profile : Document) (identity : Option Document) (image : Document)
    (overrides : Json) (context : Resolution.ResolutionContext) : Task DomainDocument :=
  (if context.engines.isEmpty then workspaceEngineCapabilities self fromSlice
    else .ret context.engines).bind fun engines =>
      match Resolution.resolveInstance profile identity image overrides { context with engines } with
      | .ok document => .ret document
      | .error (.failed error) => .throw error
      | .error .panicked => .throw (.process "resolution panicked")

end Capabilities

end MachineEmu
