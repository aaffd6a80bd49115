import MachineEmu.Lib.Locks
import MachineEmu.Storage.EngineUpgrade

/-!
# The configuration of an instance over the API

Clients read the document of an instance with its revision, replace its domain document, or upgrade
its engine. Each request holds the lock of the workspace while it runs, and those that write hold
the lock of the instance before.

* `InstanceConfig` — what is read and replaced.
* `getInstanceConfig`, `putInstanceConfig` — the handlers under their locks.
* `ConfigRequest`, `configuration` — the requests side by side.
-/

namespace MachineEmu

open Lib Prog

/-- Source: `api/documents.rs` `InstanceConfig`. -/
structure InstanceConfig where
  schemaVersion : Int
  instanceId : String
  imageId : String
  profileId : String
  revision : Int
  autoRemove : Bool
  domainDocument : Json

namespace Store

section Documents

variable (self : Handle) (documents : Documents)
  (fromSlice : List UInt8 → Except String Json)

/-- Source: `api/documents.rs` `get_instance_config`. -/
def getInstanceConfig (i : Id) : Task InstanceConfig :=
  (instanceDocument self documents i).bind fun document =>
    match document.domainDocument with
    | none => .throw (.process ("instance has no complete domain document; run " ++
        "machineemu-migrate before editing it"))
    | some domainDocument =>
      .ret { schemaVersion := document.schemaVersion, instanceId := document.instanceId
             imageId := document.imageId, profileId := document.profileId
             revision := document.revision, autoRemove := document.autoRemove, domainDocument }

/-- Source: `api/documents.rs` `put_instance_config`. -/
def putInstanceConfig (i : Id) (input : InstanceConfig) : Task InstanceConfig :=
  if input.schemaVersion ≠ 1 then
    .throw (.process "instance document schema_version must be 1")
  else
    (select fun w => w.instance_ i).bind fun row =>
    (atRest row).bind fun rest =>
    if rest = false then
      .throw (.process "stop the instance before editing its configuration")
    else
      (instanceDocument self documents i).bind fun current =>
      if input.revision ≠ current.revision then
        .throw (.process ("instance configuration changed since revision " ++
          toString input.revision ++ "; current revision is " ++ toString current.revision))
      else if input.instanceId ≠ i.asStr ∨ input.imageId ≠ row.imageId.asStr ∨
          input.profileId ≠ row.profileId.asStr then
        .throw (.process "instance, image and profile IDs cannot be changed here")
      else
        (replaceDomainDocument self documents i input.revision input.domainDocument
          input.autoRemove).bind fun updated => .ret { input with revision := updated }

end Documents

end Store

/-! ## Side by side -/

/-- The locks: the one of the instance, and the one of the workspace. -/
inductive ConfigLock where
  | ofInstance
  | workspace
  deriving DecidableEq

/-- A request for the configuration of one instance. -/
inductive ConfigRequest where
  | get
  | put (input : InstanceConfig)
  | upgrade (revision : Int) (engine : Json)

/-- What a request is answered with. -/
inductive ConfigAnswer where
  | config (config : InstanceConfig)
  | upgraded (revision : Int)

namespace ConfigRequest

/-- The revision that a request to write carries. -/
def revision : ConfigRequest → Option Int
  | get => none
  | put input => some input.revision
  | upgrade revision _ => some revision

/-- Source: `api/documents.rs`, the locks that the handlers take. -/
def locks : ConfigRequest → List ConfigLock
  | get => [.workspace]
  | put _ | upgrade _ _ => [.ofInstance, .workspace]

/-- What a request does under its locks. -/
def body (self : Handle) (documents : Documents) (fromSlice : List UInt8 → Except String Json)
    (i : Id) : ConfigRequest → Task ConfigAnswer
  | get => (Store.getInstanceConfig self documents i).bind fun c => .ret (.config c)
  | put input => (Store.putInstanceConfig self documents i input).bind fun c => .ret (.config c)
  | upgrade revision engine =>
    (Store.upgradeInstanceEngine self documents fromSlice i revision engine).bind fun r =>
      .ret (.upgraded r)

end ConfigRequest

/-- The requests for the configuration of one instance. -/
def configuration (self : Handle) (documents : Documents)
    (fromSlice : List UInt8 → Except String Json) (i : Id) :
    Guarded Store Outcome Call Error ConfigAnswer ConfigRequest ConfigLock where
  locks := ConfigRequest.locks
  body := ConfigRequest.body self documents fromSlice i

end MachineEmu
