import MachineEmu.Lib.Json

/-!
# Merging the layers of a profile

A layer is merged into an object field by field. Fields that are objects on both sides are merged in
turn. The collections of devices are merged by id: an entry with `remove` takes one out.

* `mergeObject`, `mergeDevices` — the fields of a layer, and the entries of a collection.
* `mergeValues` — one layer; `mergeAll` — one layer after the other.
-/

namespace MachineEmu

open Lib

/-- Source: `resolution/mod.rs` `object_or_empty`. -/
def objectOrEmpty : Json → List (String × Json)
  | .obj fields => fields
  | _ => []

/-- Source: `resolution/mod.rs` `is_device_collection`. -/
def isDeviceCollection (k : String) : Bool :=
  k ∈ ["disks", "interfaces", "controllers", "graphics", "video", "serial", "channels"]

/-- The id of an entry of a collection. -/
def idOf (v : Json) : Option String := (v.field "id").bind Json.asStr

/-- Whether an entry takes its device out. -/
def isRemoval (v : Json) : Bool :=
  match v.field "remove" with
  | some (.bool b) => b
  | _ => false

/-- The entries of what was there before. -/
def oldDevices (old : Option Json) : List Json := (old.bind Json.asArr).getD []

/-- The first entry with an id. -/
def position (out : List Json) (id : String) : Option Nat := out.findIdx? fun v => idOf v = some id

mutual

/-- Source: `resolution/mod.rs` `merge_object`. -/
def mergeObject (base : List (String × Json)) :
    List (String × Json) → Except String (List (String × Json))
  | [] => .ok base
  | e :: rest =>
    match mergeField base e with
    | .error message => .error message
    | .ok next => mergeObject next rest
termination_by structural high => high

/-- One turn of the loop. -/
def mergeField (base : List (String × Json)) : String × Json → Except String (List (String × Json))
  | (key, value) =>
    match mergeValue ((Json.obj base).field key) key value with
    | .error message => .error message
    | .ok merged => .ok (SortedMap.insertInto key merged base)
termination_by structural e => e

/-- What is bound to a key afterwards. -/
def mergeValue (old : Option Json) (key : String) : Json → Except String Json
  | .null => .error ("null is not valid at " ++ key)
  | .arr items =>
    if isDeviceCollection key then
      match mergeDevices key [] (oldDevices old) items with
      | .error message => .error message
      | .ok out => .ok (.arr out)
    else .ok (.arr items)
  | .obj new =>
    match old with
    | some (.obj fields) =>
      match mergeObject fields new with
      | .error message => .error message
      | .ok merged => .ok (.obj merged)
    | _ => .ok (.obj new)
  | value => .ok value
termination_by structural value => value

/-- Source: `resolution/mod.rs` `merge_devices`. -/
def mergeDevices (key : String) (seen : List String) (out : List Json) :
    List Json → Except String (List Json)
  | [] => .ok out
  | item :: rest =>
    match mergeDevice key seen out item with
    | .error message => .error message
    | .ok (id, next) => mergeDevices key (id :: seen) next rest
termination_by structural high => high

/-- One turn of the loop: the id of the entry and the devices after it. -/
def mergeDevice (key : String) (seen : List String) (out : List Json) :
    Json → Except String (String × List Json)
  | .obj fields =>
    match idOf (.obj fields) with
    | none => .error (key ++ " entries require id")
    | some id =>
      if id ∈ seen then .error ("duplicate device id " ++ id)
      else if isRemoval (.obj fields) then
        if fields.length ≠ 2 then .error ("removal for " ++ id ++ " has extra fields")
        else
          match position out id with
          | none => .error ("cannot remove unknown device " ++ id)
          | some pos => .ok (id, out.eraseIdx pos)
      else
        match position out id with
        | none => .ok (id, out ++ [.obj fields])
        | some pos =>
          match mergeObject (objectOrEmpty (out.getD pos .null)) fields with
          | .error message => .error message
          | .ok merged => .ok (id, out.set pos (.obj merged))
  | _ => .error (key ++ " entries must be objects")
termination_by structural item => item

end

/-- Source: `resolution/mod.rs` `merge_values`. -/
def mergeValues (base higher : Json) : Except String Json :=
  match mergeObject (objectOrEmpty base) (objectOrEmpty higher) with
  | .error message => .error message
  | .ok merged => .ok (.obj merged)

end MachineEmu
