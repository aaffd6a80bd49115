import MachineEmu.Storage.Configuration

/-!
# The creation of an instance by the daemon

The daemon resolves a profile and an image into a document, writes it to a staging directory and
publishes that directory.

* `resolvedDocument` — the document of the resolver.
* `createInstance` — the request.
* `Json.texts`, `machineName`, `machineAddresses`, `machineIdentity` — what a document names.
-/

namespace Lib.Json

mutual

/-- The texts in a value. -/
def texts : Json → List String
  | str s => [s]
  | arr items => textsIn items
  | obj fields => textsOf fields
  | _ => []

def textsIn : List Json → List String
  | [] => []
  | j :: rest => texts j ++ textsIn rest

def textsOf : List (String × Json) → List String
  | [] => []
  | e :: rest => textsOfField e ++ textsOf rest

def textsOfField : String × Json → List String
  | (_, j) => texts j

end

end Lib.Json

namespace MachineEmu

open Lib Prog

/-! ## Documents -/

/-- The document of a resolved instance, from its hardware and its sources. The request gives the
id. Source: `resolution/mod.rs` `resolve_instance`, its result. -/
def resolvedDocument (i : Id) (spec source : Json) : Json :=
  .obj [("api_version", .str "machineemu.io/v1"), ("kind", .str "Instance"),
    ("metadata", .obj [("digest", .null), ("name", .str i.asStr), ("revision", .num 1)]),
    ("source", source), ("spec", spec), ("status", .obj [("state", .str "created")])]

/-- The name in the metadata of a document. -/
def machineName (document : Json) : Option String :=
  ((document.field "metadata").bind (·.field "name")).bind Json.asStr

/-- The MAC addresses of the interfaces of a document. -/
def machineAddresses (document : Json) : List String :=
  let interfaces := (((document.field "spec").bind (·.field "devices")).bind
    (·.field "interfaces")).bind Json.asArr
  (interfaces.getD []).filterMap fun nic => (nic.field "mac").bind Json.asStr

/-- The hardware identity of a document. -/
def machineIdentity (document : Json) : Option Json :=
  ((document.field "spec").bind (·.field "hardware_identity")).bind (·.field "identity")

namespace Store

section Creation

variable (self : Handle) (yaml : Yaml) (documents : Documents) (toYaml : Json → List UInt8)

/-- Create a directory and publish it with a resolved document in it. `toYaml` is the serialiser
of the document. Source: `api/instances.rs` `create_instance`. -/
def createInstance (i imageId profileId : Id) (spec source : Json) (autoRemove : Bool) :
    Task Instance :=
  let stagingRoot := self.root ++ ["staging", "instances", i.asStr]
  (createDirAll stagingRoot).bind fun _ =>
    clock.bind fun nanos =>
      let staged := stagingRoot ++ [toString self.pid ++ "-" ++ toString nanos]
      (change (.createDir staged) staged (·.createDir staged)).bind fun _ =>
        (onError
          (writeFile (staged ++ ["domain_document.yaml"])
            (toYaml (resolvedDocument i spec source)))
          (removeDirAll staged)).bind fun _ =>
          onError
            (publishPreparedInstance self yaml documents i imageId profileId staged "null"
              autoRemove)
            (removeDirAll staged)

end Creation

end Store

end MachineEmu
