import MachineEmu.Engine.Analysis
import MachineEmu.Resolution.Merge
import MachineEmu.Storage.Configuration

/-!
# Resolving an instance

The layers of an instance are merged, defaults are filled in, the result is checked, and what
identifies the instance is generated.

* `Resolves` — what a step returns: a value, an error, or a panic.
* `layered` — the merged layers; `expandDefaults` — the defaults; `validate` — the checks;
  `generateIdentities` — the identifiers.
* `resolveInstance` — all of it.
-/

namespace MachineEmu.Resolution

open Lib

/-! ## Steps -/

/-- What stops a resolution: an error, or a panic. -/
inductive Stop
  | failed (error : Error)
  | panicked
  deriving DecidableEq

/-- A step of the resolution. -/
abbrev Resolves := Except Stop

/-- `Err(Error::Process(..))`. -/
def fails {α : Type} (message : String) : Resolves α := .error (.failed (.process message))

/-- `unwrap` on nothing, or arithmetic that overflows. -/
def panics {α : Type} : Resolves α := .error .panicked

/-- `ok_or_else`. -/
def orFails {α : Type} (value : Option α) (message : String) : Resolves α :=
  match value with
  | some a => .ok a
  | none => fails message

/-- A check with its message. -/
def must (condition : Bool) (message : String) : Resolves Unit :=
  if condition then .ok () else fails message

/-- The result of a merge. -/
def merging {α : Type} (result : Except String α) : Resolves α :=
  match result with
  | .ok a => .ok a
  | .error message => fails message

/-- `entry(name).or_insert(value)` on an object. -/
def orInsert (v : Json) (name : String) (value : Json) : Json :=
  if (v.field name).isSome then v else v.setField name value

/-- The text of a field. -/
def textOf (v : Json) (name : String) : Option String := (v.field name).bind Json.asStr

section Steps

variable {α β : Type} {x : Resolves α}

theorem bind_ok_iff {f : α → Resolves β} {b : β} :
    (x >>= f) = .ok b ↔ ∃ a, x = .ok a ∧ f a = .ok b := by
  cases x with
  | error e => simp [bind, Except.bind]
  | ok a => simp [bind, Except.bind]

variable {a : α}

@[simp] theorem fails_ne_ok {message : String} : fails message ≠ .ok a := by
  intro h
  cases h

@[simp] theorem panics_ne_ok : panics ≠ .ok a := by
  intro h
  cases h

@[simp] theorem orFails_ok_iff {value : Option α} {message : String} :
    orFails value message = .ok a ↔ value = some a := by
  cases value <;> simp [orFails]

@[simp] theorem merging_ok_iff {result : Except String α} :
    merging result = .ok a ↔ result = .ok a := by
  cases result <;> simp [merging]

/-- A step that does not panic. -/
def Calm (r : Resolves α) : Prop := r ≠ panics

@[simp] theorem calm_ok (a : α) : Calm (.ok a : Resolves α) := nofun

@[simp] theorem calm_fails (message : String) : Calm (fails message : Resolves α) := nofun

@[simp] theorem calm_failed (error : Error) : Calm (.error (.failed error) : Resolves α) := nofun

@[simp] theorem calm_orFails (value : Option α) (message : String) :
    Calm (orFails value message) := by
  cases value with
  | none => exact calm_fails message
  | some a => exact calm_ok a

@[simp] theorem calm_must (condition : Bool) (message : String) : Calm (must condition message) := by
  cases condition with
  | false => exact calm_fails message
  | true => exact calm_ok ()

@[simp] theorem calm_merging (result : Except String α) : Calm (merging result) := by
  cases result with
  | error message => exact calm_fails message
  | ok a => exact calm_ok a

/-- A sequence panics in its first step, or in what follows it. -/
theorem bind_panics_iff {f : α → Resolves β} :
    (x >>= f) = panics ↔ x = panics ∨ ∃ a, x = .ok a ∧ f a = panics := by
  cases x with
  | error e => simp [bind, Except.bind, panics]
  | ok a => simp [bind, Except.bind, panics]

theorem Calm.bind {f : α → Resolves β} (hx : Calm x)
    (hf : ∀ a, x = .ok a → Calm (f a)) : Calm (x >>= f) := by
  intro h
  rcases bind_panics_iff.1 h with h | ⟨a, ha, h⟩
  · exact hx h
  · exact hf a ha h

theorem Calm.map (hx : Calm x) (f : α → β) : Calm (f <$> x) := by
  cases x with
  | error e =>
    intro h
    cases h
    exact hx rfl
  | ok a => exact calm_ok (f a)

theorem calm_forM {as : List α} {f : α → Resolves Unit} (h : ∀ a ∈ as, Calm (f a)) :
    Calm (as.forM f) := by
  induction as with
  | nil => exact calm_ok ()
  | cons a as ih =>
    change Calm (f a >>= fun _ => as.forM f)
    exact (h a List.mem_cons_self).bind fun _ _ =>
      ih fun a' ha' => h a' (List.mem_cons_of_mem a ha')

theorem calm_foldlM {as : List α} {f : β → α → Resolves β} (h : ∀ b, ∀ a ∈ as, Calm (f b a))
    (b : β) : Calm (as.foldlM f b) := by
  induction as generalizing b with
  | nil => exact calm_ok b
  | cons a as ih =>
    rw [List.foldlM_cons]
    exact (h b a List.mem_cons_self).bind fun b' _ =>
      ih (fun b'' a' ha' => h b'' a' (List.mem_cons_of_mem a ha')) b'

end Steps

/-! ## Documents -/

/-- Source: `resolution/mod.rs` `ResolutionContext`. -/
structure ResolutionContext where
  instanceId : String := ""
  engines : List EngineCapability := []
  defaultNetwork : Option String := none
  defaults : Json := .null

/-- Source: `resolution/mod.rs` `source_ref`. -/
def sourceRef (m : DocumentMetadata) : SourceRef :=
  { id := m.name, revision := m.revision, digest := m.digest }

/-- Source: `resolution/mod.rs` `require_kind`. -/
def requireKind (actual expected : String) : Resolves Unit :=
  must (actual = expected) ("expected kind " ++ expected ++ ", got " ++ actual)

/-! ## The fields of the documents -/

/-- Source: `resolution/mod.rs` `validate_object_keys`. -/
def validateObjectKeys (value : Json) (path : String) (allowed : List String) : Resolves Unit :=
  match value with
  | .null => .ok ()
  | .obj fields =>
    fields.forM fun e => must (e.1 ∈ allowed) ("unknown field " ++ path ++ "." ++ e.1)
  | _ => fails (path ++ " must be an object")

/-- Source: `resolution/mod.rs` `validate_profile_fields`. -/
def validateProfileFields (value : Json) (path : String) : Resolves Unit :=
  validateObjectKeys value path
    ["architecture", "machine", "firmware", "resources", "devices", "boot", "lifecycle",
      "hardware_identity", "engine", "image", "network", "policy", "storage", "target", "domain",
      "cpu", "smm", "tpm", "state", "analysis"]

mutual

/-- Source: `resolution/mod.rs` `reject_obsolete_identity_flags`. -/
def rejectObsoleteIdentityFlags (path : String) : Json → Resolves Unit
  | .obj fields => do
    ["telemetry", "overlay"].forM fun key =>
      must (!((Json.obj fields).field key).isSome)
        ("unknown field " ++ path ++ "." ++ key ++ "; telemetry and overlay are not supported")
    rejectObsoleteFields path fields
  | .arr items => rejectObsoleteItems path 0 items
  | _ => .ok ()
termination_by structural v => v

def rejectObsoleteFields (path : String) : List (String × Json) → Resolves Unit
  | [] => .ok ()
  | e :: rest => do
    rejectObsoleteField path e
    rejectObsoleteFields path rest
termination_by structural fields => fields

def rejectObsoleteField (path : String) : String × Json → Resolves Unit
  | (key, nested) => rejectObsoleteIdentityFlags (path ++ "." ++ key) nested
termination_by structural e => e

def rejectObsoleteItems (path : String) (index : Nat) : List Json → Resolves Unit
  | [] => .ok ()
  | nested :: rest => do
    rejectObsoleteIdentityFlags (path ++ "[" ++ toString index ++ "]") nested
    rejectObsoleteItems path (index + 1) rest
termination_by structural items => items

end

/-- The fields of a hardware identity that go to `hardware_identity`. -/
def identityKeys : List String :=
  ["identity", "pci", "descriptors", "smbios", "acpi", "sensors", "compatibility"]

/-- Source: `resolution/mod.rs` `validate_identity_fields`. -/
def validateIdentityFields (value : Json) (path : String) : Resolves Unit := do
  validateObjectKeys value path
    ["compatibility", "identity", "pci", "descriptors", "smbios", "acpi", "sensors", "analysis"]
  match value.field "analysis" with
  | some analysis => rejectObsoleteIdentityFlags (path ++ ".analysis") analysis
  | none => .ok ()

/-- Source: `resolution/mod.rs` `validate_image_fields`. -/
def validateImageFields (value : Json) (path : String) : Resolves Unit :=
  validateObjectKeys value path
    ["architecture", "compatible_machines", "components", "compatible_engines", "engine_track",
      "supported_engine_tracks", "target", "image_id", "schema_version", "firmware", "disk_sha256",
      "firmware_sha256", "tpm_state_sha256"]

/-! ## The layers -/

/-- The value of a compact field that becomes a collection. -/
def compactValue (devices : Json) (compact collection : String) : Option Json :=
  if compact = collection then (devices.field collection).filter Json.isObj
  else if (devices.field collection).isSome then none
  else devices.field compact

/-- A compact field: its name, the name of its collection and the id of its entry. -/
def normalizeCompact (devices : Json) (entry : String × String × String) : Json :=
  match compactValue devices entry.1 entry.2.1 with
  | some (.obj item) =>
    (devices.removeField entry.1).setField entry.2.1
      (.arr [(Json.obj item).setField "id" (.str entry.2.2)])
  | _ => devices

/-- A network device becomes an interface. -/
def normalizeNic (devices : Json) : Json :=
  match devices.field "interfaces", devices.field "nic" with
  | none, some (.str model) =>
    (devices.removeField "nic").setField "interfaces"
      (.arr [.ofFields [("id", .str "net0"), ("model", .str model)]])
  | none, some _ => devices.removeField "nic"
  | _, _ => devices

/-- Source: `resolution/mod.rs` `normalize_compact_devices`. -/
def normalizeCompactDevices (spec : Json) : Json :=
  match spec.field "devices" with
  | some (.obj fields) =>
    spec.setField "devices" (normalizeNic
      ([("console", "graphics", "graphics0"), ("video", "video", "video0"),
        ("serial", "serial", "serial0")].foldl normalizeCompact (.obj fields)))
  | _ => spec

/-- The analysis of an identity is merged into the one of the profile; where one of them is no
object, it takes its place. -/
def mergedAnalysis (current analysis : Json) : Resolves Json :=
  match current, analysis with
  | .obj fields, .obj new => Json.obj <$> merging (mergeObject fields new)
  | _, _ => .ok analysis

/-- The layer of the hardware identity. -/
def withIdentity (spec : Json) (identity : Option Document) : Resolves Json := do
  match identity with
  | none => .ok spec
  | some identity =>
    let source := objectOrEmpty identity.spec
    let owned := source.filter fun e => e.1 ∈ identityKeys
    let target ← orFails ((spec.field "hardware_identity").getD (.obj [])).asObj
      "hardware_identity must be object"
    let merged ← merging (mergeObject target owned)
    let spec := spec.setField "hardware_identity" (.obj merged)
    match (Json.obj source).field "analysis" with
    | none => .ok spec
    | some analysis =>
      let merged ← mergedAnalysis ((spec.field "analysis").getD (.obj [])) analysis
      .ok (spec.setField "analysis" merged)

/-- The binding of the image. -/
def imageBinding (image : Document) : Json :=
  ["components", "compatible_engines", "target", "architecture", "compatible_machines"].foldl
    (fun binding key =>
      match image.spec.field key with
      | some value => binding.setField key value
      | none => binding)
    (Json.ofFields [("name", .str image.metadata.name)])

/-- The selected engine. -/
def withEngine (spec : Json) (profile image : Document) (engines : List EngineCapability) :
    Resolves Json :=
  match chooseEngine .empty profile image engines with
  | .error error => .error (.failed error)
  | .ok chosen => .ok (spec.setField "engine" ((chosen.get? "engine").getD .null))

/-- The layers before the image is bound: the defaults, the profile and the identity. -/
def lowerLayers (profile : Document) (identity : Option Document) (context : ResolutionContext) :
    Resolves Json := do
  let spec ← merging (mergeValues context.defaults profile.spec)
  withIdentity (normalizeCompactDevices spec) identity

/-- The merged layers, with the engine. -/
def layered (profile : Document) (identity : Option Document) (image : Document)
    (overrides : Json) (context : ResolutionContext) : Resolves Json := do
  let spec ← lowerLayers profile identity context
  let spec ← merging (mergeValues (spec.setField "image" (imageBinding image)) overrides)
  withEngine spec profile image context.engines

/-! ## Defaults -/

/-- The architecture of the image, where the layers have none. -/
def withArchitecture (spec image : Json) : Json :=
  match spec.field "architecture", image.field "architecture" with
  | none, some architecture => spec.setField "architecture" architecture
  | _, _ => spec

/-- The machine in its structured form. -/
def withMachine (spec : Json) : Json :=
  match spec.field "machine" with
  | none => spec.setField "machine" (.ofFields [("type", .str "q35")])
  | some (.str machine) => spec.setField "machine" (.ofFields [("type", .str machine)])
  | some _ => spec

/-- The number of processors. -/
def vcpuCount (resources : Json) : Nat :=
  (((resources.field "vcpus").bind Json.asU64).or
    ((resources.field "vcpus").bind fun v => (v.field "count").bind Json.asU64)).getD 1

/-- The processors in their structured form. -/
def vcpusOf (resources : Json) : Json :=
  let structured := Json.ofFields [("count", .num (vcpuCount resources)), ("sockets", .num 1),
    ("cores", .num (vcpuCount resources)), ("threads", .num 1)]
  match resources.field "vcpus" with
  | none => resources.setField "vcpus" structured
  | some (.num _) => resources.setField "vcpus" structured
  | some _ => resources

/-- The resources. -/
def withResources (spec : Json) : Resolves Json := do
  let resources ← orFails ((spec.field "resources").getD (.obj [])).asObj
    "resources must be object"
  .ok (spec.setField "resources" (vcpusOf (.obj resources)))

/-- The components of an image. -/
def componentMap (image : Json) : Option Json := (image.field "components").filter Json.isObj

/-- The disk of the image, where the devices have none. -/
def withRootDisk (devices : Json) (components : Option Json) : Json :=
  let root := components.bind fun components =>
    ["root_disk", "disk"].findSome? fun name =>
      (components.field name).map fun component => (name, component)
  match devices.field "disks", root with
  | none, some (name, component) =>
    devices.setField "disks" (.arr [.ofFields [("id", .str "root"), ("role", .str "root"),
      ("source", .ofFields [("image_component", .str name)]),
      ("driver", .ofFields [("name", .str "qemu"),
        ("type", (component.field "format").getD (.str "qcow2"))]),
      ("target", .ofFields [("bus", .str "virtio"), ("dev", .str "vda")])]])
  | _, _ => devices

/-- The network of the context, where the devices have none. -/
def withInterfaces (devices : Json) (defaultNetwork : Option String) : Json :=
  orInsert devices "interfaces" (.arr [.ofFields [("id", .str "net0"),
    ("network", .str (defaultNetwork.getD "default")), ("model", .str "virtio-net-pci")]])

/-! ### Disks -/

/-- The component that a disk is made from. -/
def diskComponent (source : Json) : String :=
  ((textOf source "component").or (textOf source "image_component")).getD "root_disk"

/-- The format of a component. -/
def componentFormat (components : Option Json) (component : String) : Option Json :=
  (components.bind fun components => components.field component).bind fun c => c.field "format"

/-- The settings of a driver that every disk has. -/
def driverDefaults (driver : Json) : Json :=
  let driver := orInsert (orInsert driver "name" (.str "qemu")) "cache" (.str "none")
  if textOf driver "type" = some "qcow2" then orInsert driver "discard" (.str "unmap") else driver

/-- The driver of a disk. A component with a format needs an object here. -/
def diskDriver (format driver : Option Json) : Resolves Json :=
  match format with
  | some format =>
    let driver := driver.getD (.obj [])
    if driver.isObj then .ok (driverDefaults (orInsert driver "type" format)) else panics
  | none =>
    let driver := driver.getD (.ofFields [("name", .str "qemu")])
    if driver.isObj then .ok (driverDefaults driver) else fails "disk driver must be object"

/-- The letters of the names on a bus. -/
def busLetters (bus : String) : Option String :=
  if bus = "virtio" then some "vd"
  else if bus = "sata" ∨ bus = "scsi" then some "sd"
  else none

/-- The name of a disk: the letters and the letter after `a`, as a byte. -/
def diskName (letters : String) (n : Nat) : Resolves String :=
  if 97 + n < 256 then .ok (letters ++ String.singleton (Char.ofNat (97 + n))) else panics

/-- How many names were given on each kind of bus. -/
structure NextNames where
  virtio : Nat := 0
  sd : Nat := 0

/-- The number of names with the letters. -/
def NextNames.of (next : NextNames) (letters : String) : Nat :=
  if letters = "vd" then next.virtio else next.sd

/-- One more name with the letters. -/
def NextNames.add (next : NextNames) (letters : String) : NextNames :=
  if letters = "vd" then { next with virtio := next.virtio + 1 }
  else { next with sd := next.sd + 1 }

/-- The target of a disk, with its name. -/
def diskTarget (next : NextNames) (target : Json) : Resolves (NextNames × Json) := do
  let target ← orFails target.asObj "disk target must be object"
  let target := orInsert (.obj target) "bus" (.str "virtio")
  let bus ← orFails (textOf target "bus") "disk target.bus must be string"
  if (target.field "dev").isSome then .ok (next, target)
  else
    let letters ← orFails (busLetters bus) ("unsupported disk bus " ++ bus)
    let dev ← diskName letters (next.of letters)
    .ok (next.add letters, target.setField "dev" (.str dev))

/-- One disk with its defaults. -/
def defaultDisk (components : Option Json) (next : NextNames) (disk : Json) :
    Resolves (NextNames × Json) := do
  let d ← orFails disk.asObj "disk entries must be objects"
  let source ← orFails (((Json.obj d).field "source").getD (.obj [])).asObj
    "disk source must be object"
  let component := diskComponent (.obj source)
  let d := (Json.obj d).setField "source" (orInsert (.obj source) "component" (.str component))
  let driver ← diskDriver (componentFormat components component) (d.field "driver")
  let d := d.setField "driver" driver
  let (next, target) ← diskTarget next ((d.field "target").getD (.obj []))
  .ok (next, d.setField "target" target)

/-- The loop over the disks. -/
def defaultDiskList (components : Option Json) : NextNames → List Json → Resolves (List Json)
  | _, [] => .ok []
  | next, disk :: rest => do
    let (next, disk) ← defaultDisk components next disk
    let rest ← defaultDiskList components next rest
    .ok (disk :: rest)

/-- Source: `resolution/mod.rs` `default_disks`. -/
def defaultDisks (devices : Json) (components : Option Json) : Resolves Json := do
  match devices.field "disks" with
  | some (.arr disks) =>
    let disks ← defaultDiskList components {} disks
    .ok (devices.setField "disks" (.arr disks))
  | _ => .ok devices

/-! ### Other devices -/

/-- Source: `resolution/mod.rs` `default_interfaces`. -/
def defaultInterfaces (devices : Json) : Resolves Json := do
  match devices.field "interfaces" with
  | some (.arr interfaces) =>
    let interfaces ← interfaces.mapM fun interface => do
      let i ← orFails interface.asObj "interface entries must be objects"
      .ok (orInsert (.obj i) "model" (.str "virtio-net-pci"))
    .ok (devices.setField "interfaces" (.arr interfaces))
  | _ => .ok devices

/-- The entries of a collection that are objects get their defaults. -/
def defaultEntries (devices : Json) (collection : String) (defaults : Json → Json) : Json :=
  match devices.field collection with
  | some (.arr items) =>
    devices.setField collection
      (.arr (items.map fun item => if item.isObj then defaults item else item))
  | _ => devices

/-- Source: `resolution/mod.rs` `default_graphics`. -/
def defaultGraphics (devices : Json) : Json :=
  defaultEntries devices "graphics" fun graphic =>
    orInsert (orInsert graphic "listen" (.str "127.0.0.1")) "port" (.str "auto")

/-- A machine that gets a video device. -/
def isX86Q35 (architecture machine : Option Json) : Bool :=
  ((architecture.bind Json.asStr).all fun a => a = "x86_64") &&
    (machine.bind fun m => textOf m "type").all fun m => Planner.contains m "q35"

/-- Source: `resolution/mod.rs` `default_video`. -/
def defaultVideo (devices : Json) (architecture machine : Option Json) : Json :=
  if isX86Q35 architecture machine ∧ (devices.field "video").isNone then
    devices.setField "video" (.arr [.ofFields [("id", .str "video0"), ("model", .str "virtio-vga"),
      ("primary", .bool true), ("heads", .num 1)]])
  else defaultEntries devices "video" fun video => orInsert video "model" (.str "virtio-vga")

/-- Source: `resolution/mod.rs` `default_serial`. -/
def defaultSerial (devices : Json) : Json :=
  defaultEntries devices "serial" fun serial =>
    orInsert serial "path" (.str "sockets/serial.sock")

/-- Source: `resolution/mod.rs` `default_channels`. -/
def defaultChannels (devices : Json) : Json :=
  defaultEntries devices "channels" fun channel =>
    if textOf channel "id" = some "qmp" then orInsert channel "path" (.str "sockets/qmp.sock")
    else channel

/-- The devices with their defaults. -/
def expandDevices (devices : Json) (components : Option Json) (defaultNetwork : Option String)
    (architecture machine : Option Json) : Resolves Json := do
  let devices := withInterfaces (withRootDisk devices components) defaultNetwork
  let devices ← defaultDisks devices components
  let devices ← defaultInterfaces devices
  .ok (defaultChannels (defaultSerial (defaultVideo (defaultGraphics devices) architecture
    machine)))

/-- Source: `resolution/mod.rs` `expand_defaults`. -/
def expandDefaults (spec image : Json) (context : ResolutionContext) : Resolves Json := do
  let spec ← withResources (withMachine (withArchitecture spec image))
  let spec := orInsert spec "devices" (.obj [])
  match spec.field "devices" with
  | some (.obj fields) =>
    let devices ← expandDevices (.obj fields) (componentMap image) context.defaultNetwork
      (spec.field "architecture") (spec.field "machine")
    .ok (spec.setField "devices" devices)
  | _ => .ok spec

/-! ## Checks -/

/-- The type of the machine. -/
def machineName (spec : Json) : Option String :=
  (spec.field "machine").bind fun v => (textOf v "type").or v.asStr

/-- A list of names lists a machine: one of them is the beginning of the other. -/
def listsMachine (machines : Json) (machine : String) : Bool :=
  ((machines.asArr.getD []).filterMap Json.asStr).any fun allowed =>
    machine = allowed || Planner.startsWith machine allowed || Planner.startsWith allowed machine

/-- The architecture is the one of the image. -/
def validateArchitecture (spec image : Json) : Resolves Unit :=
  match textOf spec "architecture", textOf image "architecture" with
  | some profileArch, some imageArch =>
    must (profileArch = imageArch) ("image architecture " ++ imageArch ++
      " is incompatible with instance architecture " ++ profileArch)
  | _, _ => .ok ()

/-- A machine is on a list, where there is one. -/
def requireMachine (machines : Option Json) (spec : Json) (message : String → String) :
    Resolves Unit :=
  match machines.filter (·.asArr.isSome), machineName spec with
  | some machines, some machine => must (listsMachine machines machine) (message machine)
  | _, _ => .ok ()

/-- The architecture and the machine. -/
def validateTarget (spec image : Json) : Resolves Unit := do
  must (textOf spec "architecture" ≠ some "") "architecture cannot be empty"
  validateArchitecture spec image
  requireMachine (image.field "compatible_machines") spec fun machine =>
    "machine " ++ machine ++ " is incompatible with image"

/-- `saturating_mul`. -/
def saturatingMul (a b : Nat) : Nat := min (a * b) (2 ^ 64 - 1)

/-- The topology of the processors: their number, sockets, cores and threads. -/
def topology (vcpus : Json) : Resolves (Nat × Nat × Nat × Nat) := do
  match vcpus.asU64 with
  | some n => .ok (n, 1, n, 1)
  | none =>
    let o ← orFails vcpus.asObj "resources.vcpus must be number or object"
    let part (name : String) : Option Nat := ((Json.obj o).field name).bind Json.asU64
    let count ← orFails (part "count") "resources.vcpus.count is required"
    .ok (count, (part "sockets").getD 1, (part "cores").getD 1, (part "threads").getD 1)

/-- Source: `resolution/mod.rs` `validate_resources`. -/
def validateResources (spec : Json) : Resolves Unit := do
  match spec.field "resources" with
  | none => .ok ()
  | some resources =>
    let resources ← orFails resources.asObj "resources must be object"
    let vcpus ← orFails ((Json.obj resources).field "vcpus") "resources.vcpus is required"
    let (count, sockets, cores, threads) ← topology vcpus
    must (count ≠ 0 && sockets ≠ 0 && cores ≠ 0 && threads ≠ 0 &&
        saturatingMul (saturatingMul sockets cores) threads = count)
      ("vCPU topology does not match count " ++ toString count)

/-- A byte in hexadecimal, as `u8::from_str_radix` reads two characters: the first may be a plus
sign. -/
def isHexByte (part : List Char) : Bool :=
  match part with
  | [a, b] => (isHexDigit a || a = '+') && isHexDigit b
  | _ => false

/-- Source: `resolution/mod.rs` `validate_mac`. -/
def validateMac (mac : String) : Resolves Unit :=
  must ((mac.toList.splitOn ':').length = 6 && (mac.toList.splitOn ':').all isHexByte)
    ("invalid MAC address " ++ mac)

/-- The address of an interface, if it is a text. -/
def validateAddress (collection : String) (item : Json) : Resolves Unit :=
  match if collection = "interfaces" then textOf item "mac" else none with
  | some mac => validateMac mac
  | none => .ok ()

/-- The collections of devices. -/
def collections : List String :=
  ["disks", "interfaces", "controllers", "graphics", "video", "serial", "channels"]

/-- An entry of a collection, and the ids with its own. -/
def validateDevice (collection : String) (seen : List String) (item : Json) :
    Resolves (List String) := do
  let fields ← orFails item.asObj ("devices." ++ collection ++ " entries must be objects")
  let item := Json.obj fields
  let id ← orFails ((textOf item "id").filter (· ≠ ""))
    ("devices." ++ collection ++ " entries require id")
  must (item.field "remove").isNone ("merge directive remains for device " ++ id)
  must (id ∉ seen) ("duplicate device id " ++ id)
  validateAddress collection item
  must (textOf item "address" ≠ some "") ("device " ++ id ++ " has empty PCI address")
  .ok (id :: seen)

/-- The entries of a collection. -/
def validateCollection (devices : Json) (seen : List String) (collection : String) :
    Resolves (List String) := do
  match devices.field collection with
  | none => .ok seen
  | some items =>
    let items ← orFails items.asArr ("devices." ++ collection ++ " must be array")
    items.foldlM (validateDevice collection) seen

/-- The name of the target of a disk. -/
def targetName (disk : Json) : Option String :=
  (disk.field "target").bind fun target => textOf target "dev"

/-- No two disks have one target. -/
def validateTargets (seen : List String) : List Json → Resolves Unit
  | [] => .ok ()
  | disk :: rest =>
    match targetName disk with
    | none => validateTargets seen rest
    | some dev =>
      if dev ∈ seen then fails ("duplicate disk target " ++ dev)
      else validateTargets (dev :: seen) rest

/-- The ids of the entries of the collections. -/
def deviceIds (devices : Json) : List String :=
  match devices with
  | .obj fields => fields.flatMap fun e => (e.2.asArr.getD []).filterMap fun v => textOf v "id"
  | _ => []

/-- The order of the boot devices. -/
def validateBootOrder (spec devices : Json) : Resolves Unit :=
  (((((spec.field "boot").bind fun b => b.field "order").bind Json.asArr).getD []).forM fun entry =>
    do
      let id ← orFails entry.asStr "boot.order entries must be strings"
      must (id ∈ deviceIds devices) ("boot references unknown device " ++ id))

/-- Source: `resolution/mod.rs` `validate_devices`. -/
def validateDevices (spec : Json) : Resolves Unit := do
  match spec.field "devices" with
  | none => .ok ()
  | some devices =>
    let fields ← orFails devices.asObj "devices must be object"
    let devices := Json.obj fields
    let _ ← collections.foldlM (validateCollection devices) []
    validateTargets [] (((devices.field "disks").bind Json.asArr).getD [])
    validateBootOrder spec devices

/-- Source: `resolution/mod.rs` `validate_artifact`. -/
def validateArtifact (artifact : Json) (name : String) : Resolves Unit := do
  let digest ← orFails (textOf artifact "digest") ("artifact for " ++ name ++ " has no digest")
  let hex := stripDigest digest
  must (hex.utf8ByteSize = 64 && hex.toList.all isHexDigit)
    ("artifact for " ++ name ++ " has invalid SHA-256 digest")
  let path ← orFails (textOf artifact "path") ("artifact for " ++ name ++ " has no path")
  must (path = "objects/sha256/" ++ hex)
    ("artifact for " ++ name ++ " is not bound to its immutable object")

/-- The component that a disk refers to. -/
def boundComponentOf (disk : Json) : Option String :=
  ((disk.field "source").bind fun source => textOf source "component").or
    ((disk.field "source").bind fun source => textOf source "image_component")

/-- A disk refers to a component with an artifact. -/
def validateDiskBinding (components disk : Json) : Resolves Unit := do
  match boundComponentOf disk with
  | none => .ok ()
  | some component =>
    let documented ← orFails ((components.field component).bind Json.asObj)
      ("disk references missing image component " ++ component)
    let artifact ← orFails ((Json.obj documented).field "artifact")
      ("image component " ++ component ++ " has no immutable artifact")
    let artifact ← orFails artifact.asObj
      ("image component " ++ component ++ ".artifact must be an object")
    validateArtifact (.obj artifact) component

/-- The artifact of a part of the firmware. -/
def validatePartArtifact (part : Json) (name : String) : Resolves Unit := do
  match part.field "artifact" with
  | none => .ok ()
  | some artifact =>
    let artifact ← orFails artifact.asObj ("firmware." ++ name ++ ".artifact must be an object")
    validateArtifact (.obj artifact) name

/-- The artifact of the template of a part of the firmware. -/
def validatePartTemplate (part : Json) (name : String) : Resolves Unit :=
  match ((part.field "template").bind fun t => t.field "artifact").filter Json.isObj with
  | none => .ok ()
  | some artifact => validateArtifact artifact name

/-- A part of the firmware. -/
def validateFirmwarePart (firmware : Json) (name : String) : Resolves Unit := do
  match (firmware.field name).filter Json.isObj with
  | none => .ok ()
  | some part =>
    validatePartArtifact part name
    validatePartTemplate part name

/-- The parts of the firmware. -/
def validateFirmware (spec : Json) : Resolves Unit :=
  match (spec.field "firmware").filter Json.isObj with
  | none => .ok ()
  | some firmware => ["loader", "nvram"].forM (validateFirmwarePart firmware)

/-- Source: `resolution/mod.rs` `validate_image_bindings`. -/
def validateImageBindings (spec image : Json) : Resolves Unit := do
  match (spec.field "devices").filter Json.isObj with
  | none => .ok ()
  | some devices =>
    (((devices.field "disks").bind Json.asArr).getD []).forM
      (validateDiskBinding ((componentMap image).getD (.obj [])))
    validateFirmware spec

/-- A path that stays in the directory of the instance. -/
def isInside (path : String) : Bool :=
  !Planner.isAbsolute path && ".." ∉ Planner.splitAt '/' path

/-- The paths of the state files, with the names of their fields. -/
def statePaths (spec : Json) : List (String × String) :=
  let nvram := ((spec.field "firmware").bind fun firmware => firmware.field "nvram").bind fun nvram =>
    textOf nvram "path"
  let entries (collection : String) : List (String × String) :=
    ((((spec.field "devices").bind fun devices => devices.field collection).bind
      Json.asArr).getD []).filterMap fun item =>
        (textOf item "path").map fun path => (collection, path)
  (nvram.map fun path => ("firmware.nvram.path", path)).toList ++ entries "serial" ++
    entries "channels"

/-- Source: `resolution/mod.rs` `validate_state_paths`. -/
def validateStatePaths (spec : Json) : Resolves Unit :=
  (statePaths spec).forM fun (field, path) =>
    must (isInside path) (field ++ " must remain inside the instance directory")

/-- Source: `resolution/mod.rs` `validate`. -/
def validate (spec image : Json) : Resolves Unit := do
  validateTarget spec image
  validateResources spec
  validateDevices spec
  validateImageBindings spec image
  validateStatePaths spec

/-- A setting that an identity requires and that is given must be the same. -/
def requireSame (required actual : Option String) (message : String → String → String) :
    Resolves Unit :=
  match required, actual with
  | some required, some actual => must (required = actual) (message required actual)
  | _, _ => .ok ()

/-- The track of the engine is on a list, where there is one. -/
def requireTrack (tracks : Option Json) (engine : Json) : Resolves Unit :=
  match tracks.bind Json.asArr, textOf engine "track" with
  | some tracks, some track =>
    must (track ∈ tracks.filterMap Json.asStr)
      ("hardware identity engine track " ++ track ++ " is incompatible")
  | _, _ => .ok ()

/-- Source: `resolution/mod.rs` `validate_identity_source_compatibility`. -/
def validateIdentitySourceCompatibility (spec identity : Json) : Resolves Unit := do
  match (identity.field "compatibility").filter Json.isObj with
  | none => .ok ()
  | some compatibility =>
    let engine := (spec.field "engine").getD .null
    requireSame (textOf compatibility "architecture") (textOf spec "architecture")
      fun required actual => "hardware identity architecture " ++ required ++
        " is incompatible with instance architecture " ++ actual
    requireMachine (compatibility.field "machines") spec fun machine =>
      "hardware identity machine " ++ machine ++ " is incompatible"
    requireTrack (compatibility.field "engine_tracks") engine
    requireSame (textOf compatibility "patch_revision") (textOf engine "patch_revision")
      fun required _ => "hardware identity patch revision " ++ required ++ " is incompatible"

/-! ## Identifiers -/

/-- The identifiers of the system. -/
def systemIdentity (digest : List Nat) (values : Json) : Json :=
  orInsert (orInsert values "uuid" (.str (Planner.uuidText (Planner.uuidBytes digest))))
    "system_serial" (.str ("ME-" ++ Planner.uppercase (Sha256.hex (digest.take 4))))

/-- The address of the interface with an index. -/
def derivedMac (digest : List Nat) (index : Nat) : String :=
  "52:54:00:" ++ Planner.colonHex
    [digest.getD 0 0, digest.getD 1 0, (digest.getD 2 0 + index) % 256]

/-- An interface with its address. -/
def withMac (digest : List Nat) (index : Nat) (nic : Json) : Resolves Json :=
  match nic.field "mac", nic with
  | some _, nic => .ok nic
  | none, .obj fields => .ok ((Json.obj fields).setField "mac" (.str (derivedMac digest index)))
  | none, _ => panics

/-- The interfaces from an index on, with their addresses. -/
def withMacs (digest : List Nat) : Nat → List Json → Resolves (List Json)
  | _, [] => .ok []
  | index, nic :: rest => do
    let nic ← withMac digest index nic
    let rest ← withMacs digest (index + 1) rest
    .ok (nic :: rest)

/-- The identity under `hardware_identity`. -/
def withSystemIdentity (spec : Json) (digest : List Nat) : Json :=
  let identity := (spec.field "hardware_identity").getD (.obj [])
  let values := (identity.field "identity").getD (.obj [])
  let values := if values.isObj then systemIdentity digest values else values
  spec.setField "hardware_identity"
    (if identity.isObj then identity.setField "identity" values else identity)

/-- The devices with the addresses of their interfaces. -/
def withInterfaceMacs (digest : List Nat) (devices : Json) : Resolves Json := do
  match devices.field "interfaces" with
  | some (.arr interfaces) =>
    let interfaces ← withMacs digest 0 interfaces
    .ok (devices.setField "interfaces" (.arr interfaces))
  | _ => .ok devices

/-- Source: `resolution/mod.rs` `generate_identities`. -/
def generateIdentities (spec : Json) (instanceId : String) : Resolves Json := do
  let digest := Sha256.digest (Sha256.bytes instanceId)
  let spec := withSystemIdentity spec digest
  match spec.field "devices" with
  | some devices =>
    let devices ← withInterfaceMacs digest devices
    .ok (spec.setField "devices" devices)
  | none => .ok spec

/-! ## The resolution -/

/-- The checks of the documents. -/
def checkDocuments (profile : Document) (identity : Option Document) (image : Document)
    (overrides : Json) : Resolves Unit := do
  requireKind profile.kind "Profile"
  requireKind image.kind "Image"
  identity.toList.forM fun identity => requireKind identity.kind "HardwareIdentity"
  validateProfileFields profile.spec "profile.spec"
  validateImageFields image.spec "image.spec"
  identity.toList.forM fun identity => validateIdentityFields identity.spec "hardware_identity.spec"
  validateProfileFields overrides "overrides.spec"

/-- The checks of the resolved fields. -/
def checkResolved (spec : Json) (identity : Option Document) (image : Document) :
    Resolves Unit := do
  validate spec image.spec
  identity.toList.forM fun identity => validateIdentitySourceCompatibility spec identity.spec

/-- The name of the instance. -/
def instanceName (profile : Document) (context : ResolutionContext) : String :=
  if context.instanceId = "" then profile.metadata.name else context.instanceId

/-- Source: `resolution/mod.rs` `resolve_instance`. -/
def resolveInstance (profile : Document) (identity : Option Document) (image : Document)
    (overrides : Json) (context : ResolutionContext) : Resolves DomainDocument := do
  checkDocuments profile identity image overrides
  let spec ← layered profile identity image overrides context
  let spec ← expandDefaults spec image.spec context
  checkResolved spec identity image
  let spec ← generateIdentities spec (instanceName profile context)
  .ok
    { apiVersion := "machineemu.io/v1", kind := "Instance"
      metadata := { name := instanceName profile context, revision := 1, digest := none }
      spec
      source := some
        { profile := some (sourceRef profile.metadata)
          hardwareIdentity := identity.map fun v => sourceRef v.metadata
          image := some (sourceRef image.metadata) }
      status := some (.ofFields [("state", .str "created")]) }

end MachineEmu.Resolution
