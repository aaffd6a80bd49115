import MachineEmu.Engine.Plan

/-!
# Rendering a resolved instance

The fields of a resolved instance are structured; the planner reads the flat ones of a profile. The
renderer translates them, binds the artifacts to files and calls the planner.

* `normalizeMachine`, `normalizeResources`, `normalizeFirmware`, `normalizeDevices` — the fields.
* `imageComponents` — the files of the image.
* `renderDomainLaunchPlan` — the launch plan.
* `refreshVncPort`, `applyDaemonHelpers` — what is changed in a plan when it is started.
-/

namespace MachineEmu.Planner

open Lib

/-! ## Fields -/

/-- `entry(name).or_insert(value)` on an object. -/
def withDefault (v : Json) (name : String) (value : Json) : Json :=
  if (v.field name).isSome then v else v.setField name value

/-- A field, if it is there, is copied. -/
def copyField (target source : Json) (name as : String) : Json :=
  match source.field name with
  | some value => target.setField as value
  | none => target

/-- The first element of an array. -/
def firstOf (v : Option Json) : Option Json := (v.bind Json.asArr).bind List.head?

/-! ## Machine and resources -/

/-- A structured machine becomes its type, with the settings it carries. -/
def normalizeMachine (profile : Json) : Plans Json :=
  match profile.field "machine" with
  | some (.obj fields) => do
    let machine := Json.obj fields
    let kind ← orInvalid (text machine "type") "resolved instance machine.type is required"
    let profile := copyField (profile.setField "machine" (.str kind)) machine "smm" "smm"
    .ok (match machine.field "accelerator" with
      | none => profile
      | some accelerator =>
        profile.setField "resources"
          (withDefault ((profile.field "resources").getD (.obj [])) "accelerator" accelerator))
  | _ => .ok profile

/-- The type of the machine. -/
def machineType (profile : Json) : Plans String :=
  orInvalid ((profile.field "machine").bind fun v => (text v "type").or v.asStr)
    "resolved instance has no machine"

/-- The units of a memory amount. -/
def memoryUnits : List (String × Nat) :=
  [("T", 2 ^ 40), ("G", 2 ^ 30), ("M", 2 ^ 20), ("K", 2 ^ 10)]

/-- Source: `api/lifecycle.rs` `memory_size`. -/
def memorySize (bytes : Nat) : Plans String :=
  match memoryUnits.find? fun unit => unit.2 ≤ bytes ∧ bytes % unit.2 = 0 with
  | some (unit, size) => .ok (toString (bytes / size) ++ unit)
  | none =>
    if 0 < bytes then .ok (toString bytes)
    else invalid "resolved instance memory must be positive"

/-- The bytes of a structured memory amount. -/
def memoryBytes (resources : Json) : Option Nat :=
  match resources.field "memory" with
  | some (.obj fields) => ((Json.obj fields).field "bytes").bind Json.asU64
  | _ => none

def normalizeMemory (resources : Json) : Plans Json :=
  match memoryBytes resources with
  | none => .ok resources
  | some bytes => do
    let amount ← memorySize bytes
    .ok (resources.setField "memory" (.str amount))

/-- Structured processors become their count, with the topology beside it. -/
def normalizeVcpus (resources : Json) : Plans Json :=
  match resources.field "vcpus" with
  | some (.obj fields) => do
    let vcpus := Json.obj fields
    let count ← orInvalid ((vcpus.field "count").bind Json.asU64)
      "resolved instance resources.vcpus.count is required"
    let resources := resources.setField "vcpus" (.num count)
    let topology := ["sockets", "dies", "clusters", "cores", "threads"].foldl
      (fun topology key => copyField topology vcpus key key) (.obj [])
    .ok (if keys topology = [] then resources else resources.setField "topology" topology)
  | _ => .ok resources

def normalizeResources (profile : Json) : Plans Json :=
  match profile.field "resources" with
  | some (.obj fields) => do
    let resources ← normalizeMemory (.obj fields)
    let resources ← normalizeVcpus resources
    .ok (profile.setField "resources" resources)
  | _ => .ok profile

/-! ## Firmware -/

/-- A source with a path. -/
def pathSource (path : Json) : Json := .obj [("path", path)]

/-- A binding becomes a source, where there is none. -/
def withSource (v : Json) (binding : Option Json) : Json :=
  match v.field "source", (binding.bind fun b => b.field "artifact").bind fun a => a.field "path" with
  | none, some path => v.setField "source" (pathSource path)
  | _, _ => v

/-- A part of the firmware. -/
def normalizeSection (part : Json) : Json :=
  withSource (withSource part (some part)) (part.field "template")

def normalizeFirmware (profile : Json) : Json :=
  match profile.field "firmware" with
  | some (.obj fields) =>
    let firmware := Json.obj fields
    let firmware := match firmware.field "loader" with
      | some (.obj part) => firmware.setField "loader" (normalizeSection (.obj part))
      | _ => firmware
    let firmware := match firmware.field "nvram" with
      | some (.obj part) =>
        firmware.setField "nvram"
          (withDefault (normalizeSection (.obj part)) "name" (.str "OVMF_VARS.fd"))
      | _ => firmware
    profile.setField "firmware" firmware
  | _ => profile

/-! ## Devices -/

/-- The settings that are copied as they are. -/
def copiedDevices : List String :=
  ["console", "guest_agent", "nic", "mac", "video", "audio", "usb_tablet", "usb_mouse", "serial",
    "vsock", "snapshots", "usb", "lcd", "bluetooth"]

/-- The console of the first display. -/
def graphicsConsole (graphics : Json) : Json :=
  .obj [("type", .str ((text graphics "type").getD "none"))]

/-- The devices as the planner reads them: the first of a collection stands for it. -/
def flatDevices (devices : Json) : Json :=
  let flat := copiedDevices.foldl (fun flat key => copyField flat devices key key) (.obj [])
  let flat := match firstOf (devices.field "graphics") with
    | some graphics => flat.setField "console" (graphicsConsole graphics)
    | none => flat
  let flat := match firstOf (devices.field "video") with
    | some video =>
      flat.setField "video"
        (((video.removeField "id").removeField "primary").removeField "heads")
    | none => flat
  match firstOf (devices.field "serial") with
  | some serial => flat.setField "serial" (serial.removeField "id")
  | none => flat

/-- The disk that is booted from: the one with the role, or the first. -/
def rootDisk (devices : Json) : Option Json :=
  ((devices.field "disks").bind Json.asArr).bind fun disks =>
    (disks.find? fun disk => text disk "role" = some "root").or disks.head?

/-- The source of a disk. -/
def diskSource (disk : Json) : Option Json :=
  match disk.field "source" with
  | some (.obj fields) =>
    match ((Json.obj fields).field "artifact").bind fun a => a.field "path" with
    | some path => some (pathSource path)
    | none => ((Json.obj fields).field "component").map fun c => .obj [("image_component", c)]
  | _ => none

/-- The disk as the planner reads it. -/
def diskSpec (disk : Json) : Json :=
  let spec := match disk.field "driver" with
    | some (.obj driver) =>
      copyField (copyField (.obj []) (.obj driver) "type" "format") (.obj driver) "bus" "bus"
    | _ => .obj []
  let spec := match (disk.field "target").bind fun target => target.field "bus" with
    | some bus => spec.setField "bus" bus
    | none => spec
  let spec := match diskSource disk with
    | some source => spec.setField "source" source
    | none => spec
  withDefault spec "bus" (.str "virtio")

/-- The network of an interface. -/
def interfaceNetwork (interface : Json) : Json :=
  .obj [("type", .str (((interface.field "network").bind fun v => (text v "type").or v.asStr).getD
    "user"))]

/-- The network device of an interface. -/
def withInterface (profile interface : Json) : Json :=
  match (interface.field "model").or (interface.field "device") with
  | none => profile
  | some model =>
    let devices := (profile.field "devices").getD (.obj [])
    profile.setField "devices" (copyField (devices.setField "nic" model) interface "mac" "mac")

/-- The storage of a profile without one: the root disk. -/
def withStorage (profile devices : Json) : Json :=
  match profile.field "storage", rootDisk devices with
  | none, some disk => profile.setField "storage" (.obj [("disk", diskSpec disk)])
  | _, _ => profile

/-- The network of a profile without one: the first interface. -/
def withNetwork (profile devices : Json) : Json :=
  match profile.field "network", firstOf (devices.field "interfaces") with
  | none, some interface =>
    withInterface (profile.setField "network" (interfaceNetwork interface)) interface
  | _, _ => profile

def normalizeDevices (profile : Json) : Json :=
  match profile.field "devices" with
  | some (.obj fields) =>
    let devices := Json.obj fields
    withNetwork (withStorage (profile.setField "devices" (flatDevices devices)) devices) devices
  | _ => profile

/-! ## The plan -/

/-- The path of an artifact of the image in the workspace. -/
def boundPath (root path : String) : String := joinPath root path

/-- The files of the components of the image. -/
def imageComponents (root : String) (profile : Json) : List (String × String) :=
  match (profile.field "image").bind fun v => v.field "components" with
  | some (.obj components) =>
    components.filterMap fun entry =>
      (((entry.2.field "artifact").bind fun a => text a "path").or (text entry.2 "path")).map
        fun path => (entry.1, boundPath root path)
  | _ => []

/-- The directory of an instance. -/
def instanceDir (root instanceId : String) : String :=
  joinPath (joinPath root "instances") instanceId

/-- The fields of the profile that the planner reads. -/
def normalize (spec : Json) : Plans Json := do
  ensure spec.isObj "resolved instance spec must be an object"
  let profile ← normalizeMachine spec
  let machine ← machineType profile
  let profile ← normalizeResources (profile.setField "machine" (.str machine))
  .ok (normalizeDevices (normalizeFirmware profile))

/-- The pinned engine: its track and its executable. -/
def pinnedEngine (profile : Json) : Plans (String × String) := do
  let track ← orInvalid ((profile.field "engine").bind fun v => text v "track")
    "resolved instance has no pinned engine track"
  let executable ← orInvalid ((profile.field "engine").bind fun v => text v "executable")
    "resolved instance has no pinned engine executable"
  .ok (track, executable)

/-- The target of the engine. -/
def engineTarget (profile : Json) : String :=
  ((text profile "target").or ((profile.field "image").bind fun v => text v "target")).getD
    "x86_64-softmmu"

/-- The profile with what every plan needs. -/
def withHeader (profile : Json) (instanceId track : String) : Json :=
  ((profile.setField "schema_version" (.num 2)).setField "id" (.str instanceId)).setField "engine"
    (.arr [.str track])

/-- The input of the planner. -/
def renderInput (root instanceId : String) (spec : Json) : Plans PlanInput := do
  let profile ← normalize spec
  let (track, executable) ← pinnedEngine profile
  let bundles := joinPath root "generated-engines"
  let digest := ((spec.field "engine").bind fun v => text v "build_digest").getD "0"
  .ok
    { profile := withHeader profile instanceId track
      releaseSet := .ofFields [("schema_version", .num 1), ("engines", .ofFields [(track,
        .ofFields [("executable", .str (joinPath (joinPath bundles track) executable)),
          ("build_digest", .str digest)])])]
      bundleRoot := bundles
      assetRoot := some root
      imageComponents := imageComponents root profile
      target := engineTarget profile
      runtimeDir := instanceDir root instanceId
      stateDir := some (instanceDir root instanceId)
      instanceName := some instanceId }

/-! ## The launch contract -/

/-- Source: `launch.rs` `PreparationSpec`. -/
structure PreparationSpec where
  diskBacking : String
  backingFormat : String
  diskSize : Option String
  nvramSeed : Option String
  tpmSeed : Option String

/-- Source: `launch.rs` `LaunchSpec`, less the helpers, of which a rendered plan has none. -/
structure LaunchSpec where
  argv : List String
  vncAuto : Bool
  qmpSocket : String
  stdout : Option String
  stderr : Option String
  preparation : Option PreparationSpec
  helperArgv : Option (List String)

/-- The components of a path. -/
def pathParts (path : String) : List String :=
  (splitAt '/' path).filter fun part => part ≠ "" ∧ part ≠ "."

/-- `Path::strip_prefix`. -/
def relativePath (root path : String) : Plans String :=
  if isAbsolute root = isAbsolute path ∧ pathParts root <+: pathParts path then
    .ok (joinWith "/" ((pathParts path).drop (pathParts root).length))
  else invalid ("runtime path is outside workspace: " ++ path)

/-- What is prepared: nothing without a disk overlay. -/
def preparationSpec (root : String) (files : Preparation) : Plans (Option PreparationSpec) := do
  match files.diskOverlay with
  | none => .ok none
  | some disk =>
    let backing ← relativePath root disk.backing
    let nvram ← match files.nvram with
      | none => .ok none
      | some file => some <$> relativePath root file.seed
    .ok (some
      { diskBacking := backing, backingFormat := disk.backingFormat, diskSize := disk.size
        nvramSeed := nvram, tpmSeed := none })

/-- Whether the console is a VNC display. -/
def vncAuto (profile : Json) : Bool :=
  (((profile.field "devices").bind fun v => v.field "console").bind fun v => text v "type") =
    some "vnc"

/-- Source: `launch.rs` `LaunchSpec::from_plan`. -/
def fromPlan (root instanceId : String) (plan : LaunchPlan) (vncAuto : Bool) :
    Plans LaunchSpec := do
  let preparation ← preparationSpec root plan.preparation
  let runtime := instanceDir root instanceId
  let qmpSocket ← relativePath root (joinPath runtime "sockets/qmp.sock")
  let stdout ← relativePath root (joinPath runtime "qemu.stdout")
  let stderr ← relativePath root (joinPath runtime "qemu.stderr")
  .ok
    { argv := plan.argv, vncAuto, qmpSocket, stdout := some stdout, stderr := some stderr
      preparation, helperArgv := plan.helperArgv }

/-- Source: `api/lifecycle.rs` `render_domain_launch_plan`. -/
def renderDomainLaunchPlan (host : Host) (root instanceId : String) (spec : Json) :
    Plans LaunchSpec := do
  let input ← renderInput root instanceId spec
  let plan ← buildPlan host input
  fromPlan root instanceId plan (vncAuto input.profile)

/-- The parts of a rendered plan. -/
theorem rendered_eq_ok {host : Host} {root instanceId : String} {spec : Json}
    {launch : LaunchSpec} (h : renderDomainLaunchPlan host root instanceId spec = .ok launch) :
    ∃ input plan, renderInput root instanceId spec = .ok input ∧
      buildPlan host input = .ok plan ∧ launch.argv = plan.argv ∧
      launch.vncAuto = vncAuto input.profile := by
  simp only [renderDomainLaunchPlan, fromPlan, bind_eq_ok] at h
  obtain ⟨input, hinput, plan, hplan, _, -, _, -, _, -, _, -, h⟩ := h
  cases h
  exact ⟨input, plan, hinput, hplan, rfl, rfl⟩

theorem exists_launch_of_isOk {host : Host} {root instanceId : String} {spec : Json}
    (h : (renderDomainLaunchPlan host root instanceId spec).isOk = true) :
    ∃ launch, renderDomainLaunchPlan host root instanceId spec = .ok launch := by
  cases hlaunch : renderDomainLaunchPlan host root instanceId spec with
  | error e =>
    rw [hlaunch] at h
    cases h
  | ok launch => exact ⟨launch, rfl⟩

/-- A host where every file is there. -/
def hostWithFiles : Host where
  isFile _ := true
  canonicalize path := some path
  document _ := .error "no documents"
  digest _ := .error "no digests"

/-! ## Starting -/

/-- A local VNC display. -/
def isVnc (setting : String) : Bool :=
  startsWith setting "vnc=127.0.0.1:" || startsWith setting "vnc=:"

/-- The place of the first `-display` with a local VNC display. -/
def vncPlace : List String → Option Nat
  | a :: b :: rest =>
    if a = "-display" ∧ isVnc b then some 0 else (vncPlace (b :: rest)).map (· + 1)
  | _ => none

/-- What follows the address. -/
def vncTail (setting : String) : List Char :=
  if startsWith setting "vnc=127.0.0.1:" then setting.toList.drop "vnc=127.0.0.1:".length
  else setting.toList.drop "vnc=:".length

/-- The number of a display, before the first comma, and the text after it. -/
def splitDisplay (tail : List Char) : List Char × List Char :=
  (tail.takeWhile (· ≠ ','), (tail.dropWhile (· ≠ ',')).tail)

/-- The setting for a port, with the options of the old one. -/
def vncSetting (port : Nat) (suffix : List Char) : String :=
  "vnc=127.0.0.1:" ++ toString (port - 5900) ++
    if suffix = [] then "" else "," ++ String.ofList suffix

/-- The ports of VNC displays. -/
def vncPorts : List Nat := List.range' 5900 100

/-- The port of a VNC display, and the vector for it. With `auto` the first free port is taken.
Source: `api/lifecycle.rs` `refresh_vnc_port`. -/
def refreshVncPort (free : Nat → Bool) (argv : List String) (auto : Bool) :
    Plans (Option Nat × List String) :=
  match vncPlace argv with
  | none =>
    if auto then invalid "automatic VNC port requested without a local VNC display"
    else .ok (none, argv)
  | some place => do
    let (number, suffix) := splitDisplay (vncTail (argv.getD (place + 1) ""))
    let number ← orInvalid (parseUnsigned (2 ^ 16) number) "invalid local VNC display number"
    ensure (number + 5900 < 2 ^ 16) "invalid local VNC port"
    let port := number + 5900
    ensure (5900 ≤ port && port ≤ 5999) "local VNC port must be 5900–5999"
    match (if auto then vncPorts else [port]).find? free with
    | some candidate =>
      .ok (some candidate,
        if auto then argv.set (place + 1) (vncSetting candidate suffix) else argv)
    | none =>
      if auto then invalid "no free VNC port in 5900–5999"
      else invalid ("VNC port " ++ toString port ++ " is already in use")

/-- The first field that names a helper is replaced; without one, the helper is added. -/
def withHelper (helper : String) : List String → List String
  | [] => ["helper=" ++ helper]
  | field :: fields =>
    if startsWith field "helper=" then ("helper=" ++ helper) :: fields
    else field :: withHelper helper fields

/-- The backend with the helper. -/
def injectHelper (helper value : String) : String :=
  joinWith "," (withHelper helper (splitAt ',' value))

/-- The arguments after another one: each backend that follows `-netdev` gets the helper. -/
def injectAfter (helper previous : String) : List String → List String
  | [] => []
  | value :: rest =>
    let value :=
      if previous = "-netdev" ∧ startsWith value "bridge," then injectHelper helper value else value
    value :: injectAfter helper value rest

/-- The vector with the helper in its backends. -/
def injectHelpers (helper : String) : List String → List String
  | [] => []
  | first :: rest => first :: injectAfter helper first rest

/-- Source: `api/launch.rs` `apply_daemon_helpers`. -/
def applyDaemonHelpers (plan : LaunchSpec) (swtpm bridgeHelper : Option String) : LaunchSpec :=
  let plan := match swtpm, plan.helperArgv with
    | some swtpm, some (_ :: arguments) => { plan with helperArgv := some (swtpm :: arguments) }
    | _, _ => plan
  match bridgeHelper with
  | none => plan
  | some helper => { plan with argv := injectHelpers helper plan.argv }

end MachineEmu.Planner
