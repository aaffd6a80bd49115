import MachineEmu.Engine.Analysis
import MachineEmu.Lib.Decimal

/-!
# The launch planner

A profile, the release set of engines and the paths of an instance become the argument vector of
QEMU, with the files that must be prepared for it.

* `memory`, `mac`, `diskSize` — the scalar settings.
* `network`, `udmNetwork`, `devices`, `withAudio`, … — the arguments of a section of the profile.
* `Preparation` — the files.
* `buildPlan` — the plan.
-/

namespace MachineEmu.Planner

open Lib

/-! ## Input and output -/

/-- What the planner asks of the file system: whether a path is a regular file, its canonical form,
the documents of engines and the digests of files. -/
structure Host where
  isFile : String → Bool
  canonicalize : String → Option String
  document : String → Plans Json
  digest : String → Plans String

/-- Source: `engine/plan.rs` `PlanInput`. -/
structure PlanInput where
  profile : Json
  releaseSet : Json
  bundleRoot : String
  assetRoot : Option String := none
  imageComponents : List (String × String) := []
  target : String
  runtimeDir : String
  stateDir : Option String := none
  seed : Option String := none
  swtpm : Option String := none
  bridgeHelper : Option String := none
  mac : Option String := none
  instanceName : Option String := none

/-- Source: `engine/plan.rs` `PreparationFile`. -/
structure PreparationFile where
  path : String
  seed : String

/-- Source: `engine/plan.rs` `DiskPreparation`. -/
structure DiskPreparation where
  path : String
  backing : String
  backingFormat : String
  size : Option String

/-- Source: `engine/plan.rs` `Preparation`. -/
structure Preparation where
  nvram : Option PreparationFile := none
  diskOverlay : Option DiskPreparation := none
  tpmState : Option String := none

/-- Source: `engine/plan.rs` `LaunchPlan`, less the manifest and the empty environment. -/
structure LaunchPlan where
  executable : String
  argv : List String
  preparation : Preparation
  helperArgv : Option (List String)

/-! ## Scalar settings -/

/-- `char::is_whitespace`: the white space of Unicode. -/
def isWhite (c : Char) : Bool :=
  (9 ≤ c.toNat && c.toNat ≤ 13) || (0x2000 ≤ c.toNat && c.toNat ≤ 0x200a) ||
    c.toNat ∈ [0x20, 0x85, 0xa0, 0x1680, 0x2028, 0x2029, 0x202f, 0x205f, 0x3000]

/-- `trim`, on characters. -/
def trimChars (chars : List Char) : List Char :=
  ((chars.dropWhile isWhite).reverse.dropWhile isWhite).reverse

/-- `trim`. -/
def trim (s : String) : String := String.ofList (trimChars s.toList)

/-- The suffix as QEMU gets it. -/
def memorySuffix : String → Option String
  | "" | "M" | "MiB" => some "M"
  | "K" | "KiB" => some "K"
  | "G" | "GiB" => some "G"
  | "T" => some "T"
  | "B" => some "B"
  | _ => none

/-- The digits of a text, wherever they stand. -/
def digitsOf (raw : String) : List Char := (trim raw).toList.filter Char.isDigit

/-- The other characters of a text. -/
def restOf (raw : String) : List Char := (trim raw).toList.filter (!Char.isDigit ·)

/-- The text of a memory amount: its digits and its suffix. Source: `engine/plan.rs` `memory`. -/
def memoryText (raw : String) : Plans String :=
  if digitsOf raw = [] ∨ (parseUnsigned (2 ^ 64) (digitsOf raw)).getD 0 = 0 then
    invalid "profile.resources.memory is not a supported size"
  else
    match memorySuffix (String.ofList (restOf raw)) with
    | none => invalid "profile.resources.memory is not a supported size"
    | some suffix => .ok (String.ofList (digitsOf raw) ++ suffix)

def memory (v : Json) : Plans String :=
  match v.asStr, v.asI64 with
  | some raw, _ => memoryText raw
  | none, some n => memoryText (toString n)
  | none, none => invalid "profile.resources.memory must be a non-empty size"

/-- Source: `engine/plan.rs` `smp`. -/
def smp (resources : Json) (vcpus : Int) : Plans String := do
  match resources.field "topology" with
  | none => .ok (toString vcpus)
  | some t =>
    let t ← object t "profile.resources.topology"
    let parts ← ["sockets", "dies", "clusters", "cores", "threads"].filterMapM fun k =>
      match t.field k with
      | none => .ok none
      | some x => do
        let n ← positiveInt x ("profile.resources.topology." ++ k)
        .ok (some (k ++ "=" ++ toString n))
    .ok (joinWith "," (toString vcpus :: parts))

/-- Source: `engine/plan.rs` `accelerator`. -/
def accelerator (a : String) (thread : Option Json) : Plans (List String) :=
  if a = "kvm" then .ok ["-accel", "kvm"]
  else if a = "tcg" then
    let t := (thread.bind Json.asStr).getD "multi"
    if t = "single" ∨ t = "multi" then .ok ["-accel", "tcg,thread=" ++ t]
    else invalid "profile.resources.accelerator_thread must be single or multi"
  else invalid "profile.resources.accelerator must be kvm or tcg"

/-- Source: `engine/plan.rs` `machine_value`. -/
def machineValue (machine : String) (smm : Option Json) : String :=
  machine ++ if (smm.bind Json.asBool).getD false then ",smm=on" else ""

/-- Source: `engine/plan.rs` `derive_mac`. -/
def deriveMac (instanceName : String) : String :=
  "52:54:00:" ++ colonHex ((Sha256.digest (Sha256.bytes instanceName)).take 3)

/-- Source: `engine/plan.rs` `derive_vsock_cid`. -/
def deriveVsockCid (runtime : String) (instanceName : Option String) : Nat :=
  let bytes := Sha256.bytes "machineemu-vsock-cid-v1\x00" ++ Sha256.bytes runtime ++
    Sha256.bytes "\x00" ++ (instanceName.map Sha256.bytes).getD []
  let candidate := ((Sha256.digest bytes).take 4).foldl (fun n b => 256 * n + b) 0
  3 + candidate % (2 ^ 32 - 3)

/-- The octets of a MAC address. -/
def octets (value : String) : List (List Char) := value.toList.splitOn ':'

/-- Source: `engine/plan.rs` `mac`. -/
def mac (value : String) : Plans String :=
  if ¬ ((octets value).length = 6 ∧
      (octets value).all fun octet => octet.length = 2 && octet.all isHexDigit) then
    invalid ("mac address must be six colon-separated hex octets: " ++ Error.quoted value)
  else if hexValue ((octets value).headD []) % 2 = 1 then
    invalid ("mac address " ++ Error.quoted value ++
      " is multicast; the low bit of the first octet must be clear")
  else .ok (lowercase value)

/-! ## Checks of the profile -/

/-- Source: `engine/plan.rs` `validate_launch_settings`, the part about booting. -/
def validateBoot (profile : Json) : Plans Unit := do
  match profile.field "boot" with
  | none => .ok ()
  | some boot =>
    let boot ← object boot "profile.boot"
    (keys boot).forM fun key =>
      ensure (key ∈ ["kernel", "initrd", "dtb", "append", "menu", "from", "once", "strict",
          "reboot_timeout", "splash", "timeout"])
        ("profile.boot." ++ key ++ " is not supported by the launch planner")
    ensure (text boot "from" ≠ some "disk" ||
        ((profile.field "storage").bind fun v => v.field "disk").isSome)
      "profile.boot.from=disk requires profile.storage.disk"

/-- The models of video devices. -/
def videoModels : List String := ["vga", "virtio-vga", "virtio-vga-gl", "virtio-gpu-gl"]

/-- The models that render with OpenGL. -/
def isGl (model : String) : Bool := model = "virtio-vga-gl" || model = "virtio-gpu-gl"

/-- The checks of the video device. -/
def validateVideo (video : Json) (consoleType : String) : Plans Unit := do
  (keys video).forM fun key =>
    ensure (key ∈ ["model", "heads", "primary"])
      ("profile.devices.video." ++ key ++ " is not supported")
  ensure ((video.field "heads").all fun v => v.asU64 = some 1)
    "profile.devices.video.heads only supports 1"
  ensure ((video.field "primary").all fun v => v.asBool = some true)
    "profile.devices.video.primary only supports true"
  let model ← orInvalid (text video "model") "profile.devices.video.model is required"
  ensure (!(consoleType = "vnc" && isGl model)) "profile.devices.console=vnc conflicts with GL video"
  ensure (model ∈ videoModels)
    ("profile.devices.video.model " ++ Error.quoted model ++ " is not supported by the launch " ++
      "planner; supported models: vga, virtio-vga, virtio-vga-gl, virtio-gpu-gl")
  ensure (!(isGl model && consoleType ≠ "h264"))
    "GL video requires profile.devices.console.type=h264"

/-- The type of the console. -/
def consoleType (console : Option Json) : String :=
  (console.bind fun v => text v "type").getD "none"

/-- Source: `engine/plan.rs` `validate_launch_settings`, the part about devices. -/
def validateDevices (devices : Json) : Plans Unit := do
  (keys devices).forM fun key =>
    ensure (key ∈ ["nic", "mac", "console", "video", "audio", "usb_tablet", "usb_mouse",
        "guest_agent", "serial", "vsock", "snapshots", "usb", "lcd", "bluetooth"])
      ("profile.devices." ++ key ++ " is not supported by the launch planner")
  ensure ((devices.field "vsock").all fun v => v.asBool.isSome)
    "profile.devices.vsock must be a boolean"
  let console ← optionalMapping (devices.field "console") "profile.devices.console"
  ensure (consoleType console ∈ ["none", "vnc", "h264", "serial"])
    "profile.devices.console.type must be none, vnc, h264, or serial"
  ensure ((devices.field "guest_agent").all fun v => v.asBool.isSome)
    "profile.devices.guest_agent must be a boolean"
  match devices.field "serial" with
  | none => .ok ()
  | some serial =>
    let serial ← object serial "profile.devices.serial"
    ensure ((text serial "type").getD "none" ∈ ["none", "file", "socket", "stdout"])
      "profile.devices.serial.type must be none, file, socket, or stdout"
  ensure ((devices.field "nic").all fun v =>
      v.asStr.any fun s => s ≠ "" && !s.toList.contains ',')
    "profile.devices.nic must be a QEMU device name"
  match devices.field "mac" with
  | none => .ok ()
  | some address =>
    let address ← orInvalid address.asStr "profile.devices.mac must be a string"
    discard (mac address)
  match ← optionalMapping (devices.field "video") "profile.devices.video" with
  | none => .ok ()
  | some video => validateVideo video (consoleType console)

/-- Source: `engine/plan.rs` `validate_launch_settings`. -/
def validateLaunchSettings (profile : Json) : Plans Unit := do
  validateBoot profile
  match profile.field "devices" with
  | none => .ok ()
  | some devices =>
    let devices ← object devices "profile.devices"
    validateDevices devices

/-! ## Networks -/

/-- The type of the network. -/
def networkType (network : Option Json) (default : String) : String :=
  (network.bind fun v => text v "type").getD default

/-- The option of the address. -/
def macOption (address : Option String) : Plans String :=
  match address with
  | some value => do
    let address ← mac value
    .ok (",mac=" ++ address)
  | none => .ok ""

/-- The arguments of the network. Source: `engine/plan.rs` `append_network`. -/
def network (v : Option Json) (nic bridgeHelper address : Option String) :
    Plans (List String) := do
  let macOption ← macOption address
  let model := nic.getD "virtio-net-pci"
  let kind := networkType v "user"
  if kind = "disabled" then .ok ["-nic", "none"]
  else if kind = "user" then
    .ok ["-netdev", "user,id=net0", "-device", model ++ ",netdev=net0" ++ macOption]
  else if kind = "bridge" then
    let b ← orInvalid (v.bind fun v => text v "bridge")
      "profile.network.bridge is required for bridge networking"
    .ok ["-netdev", "bridge,id=net0,br=" ++ b ++ option "helper" bridgeHelper, "-device",
      model ++ ",netdev=net0" ++ macOption]
  else invalid "profile.network.type must be disabled, user, or bridge"

/-- The characters of the name of a bridge on a port. -/
def isBridgeName (bridge : String) : Bool :=
  bridge.utf8ByteSize ≤ 15 &&
    bridge.toList.all fun c => isAlphanumeric c || c = '_' || c = '.' || c = '-'

/-- The backend of a port. -/
def portBackend (port : Json) (index : Nat) (helper : Option String) : Plans String := do
  let kind ← string port "type"
  let id := "udm-port" ++ toString index
  if kind = "disabled" then .ok ("hubport,id=" ++ id ++ ",hubid=" ++ toString index)
  else if kind = "user" then .ok ("user,id=" ++ id)
  else if kind = "bridge" then
    let bridge ← string port "bridge"
    if ¬ isBridgeName bridge then invalid "invalid UDM Pro bridge name"
    else .ok ("bridge,id=" ++ id ++ ",br=" ++ bridge ++ option "helper" (helper.map escapeProp))
  else invalid "UDM Pro port type must be disabled, user, or bridge"

/-- The address after a base address: the last three bytes are counted up. -/
def adjacentMac (base : String) (index : Nat) : String :=
  let bytes := (octets base).map hexValue
  let suffix := bytes.getD 3 0 * 2 ^ 16 + bytes.getD 4 0 * 2 ^ 8 + bytes.getD 5 0 + index
  colonHex (bytes.take 3 ++
    [suffix / 2 ^ 16 % 256, suffix / 2 ^ 8 % 256, suffix % 256])

/-- The address of a port. -/
def portMac (port : Json) (index : Nat) (address : Option String) : Plans String :=
  match port.field "mac" with
  | some value => do
    let value ← orInvalid value.asStr "port.mac must be a string"
    mac value
  | none =>
    match address with
    | some base => do
      let base ← mac base
      .ok (adjacentMac base index)
    | none => invalid ("UDM Pro multi-port networking requires an instance identity or a MAC " ++
        "for every port")

/-- The arguments of the ports from an index on. -/
def udmPorts (helper address : Option String) : Nat → List Json → Plans (List String)
  | _, [] => .ok []
  | index, port :: rest => do
    let port ← object port "UDM Pro network port"
    let backend ← portBackend port index helper
    let address' ← portMac port index address
    let more ← udmPorts helper address (index + 1) rest
    .ok (["-netdev", backend, "-net", "nic,model=alpine-eth-pci,netdev=udm-port" ++
      toString index ++ ",macaddr=" ++ address'] ++ more)

/-- The backend of the network of the board, for a type that has one. -/
def nicBackend (v : Option Json) (helper : Option String) (kind : String) : Plans String :=
  if kind = "user" then .ok "user"
  else if kind = "bridge" then do
    let bridge ← orInvalid (v.bind fun v => text v "bridge") "profile.network.bridge is required"
    .ok ("bridge,br=" ++ bridge ++ option "helper" helper)
  else invalid "unsupported UDM Pro network type"

/-- The address of the network, as it is written. -/
def nicAddress (address : Option String) : Plans (Option String) :=
  match address with
  | some address => some <$> mac address
  | none => .ok none

/-- Source: `engine/plan.rs` `append_udm_network`. -/
def udmNetwork (v : Option Json) (helper address : Option String) : Plans (List String) := do
  match v.bind fun v => v.field "ports" with
  | some ports =>
    let ports ← orInvalid (ports.asArr.filter fun ports => ports.length = 4)
      "UDM Pro network.ports must contain eth9, eth8, eth10, switch0 (four ports)"
    let more ← udmPorts helper address 0 ports
    .ok (["-net", "none"] ++ more)
  | none =>
    let kind := networkType v "disabled"
    if kind = "disabled" then .ok ["-net", "none"]
    else
      let backend ← nicBackend v helper kind
      let address ← nicAddress address
      .ok ["-net", "none", "-nic", backend ++ ",model=alpine-eth-pci" ++ option "mac" address]

/-! ## Sources and firmware -/

/-- Source: `engine/plan.rs` `SourceResolver`. -/
structure SourceResolver where
  host : Host
  components : List (String × String)
  baseDir : Option String

/-- Source: `engine/plan.rs` `SourceResolver::path`. -/
def SourceResolver.path (sources : SourceResolver) (v : Option Json) (place : String) :
    Plans String := do
  let v ← orInvalid v (place ++ ".source is required")
  let value ← object v (place ++ ".source")
  (keys value).forM fun key =>
    ensure (key ∈ ["path", "image_component"]) (place ++ ".source." ++ key ++ " is not supported")
  match text value "path", text value "image_component" with
  | some _, some _ => invalid (place ++ ".source must choose path or image_component")
  | some path, none =>
    let path :=
      match sources.baseDir with
      | some base => joinPath base path
      | none => path
    if sources.host.isFile path then .ok path
    else invalid (place ++ ".source.path is unavailable: " ++ path)
  | none, some component =>
    orInvalid ((sources.components.find? fun e => e.1 = component).map Prod.snd)
      (place ++ ".source.image_component is unavailable: " ++ component)
  | none, none => invalid (place ++ ".source must include path or image_component")

/-- The name of the variable store. -/
def nvramName (nvram : Json) : String := (text nvram "name").getD "OVMF_VARS.fd"

/-- The arguments of the firmware and its variable store. Source: `engine/plan.rs`
`append_firmware`. -/
def firmware (v : Option Json) (sources : SourceResolver) (state : String) :
    Plans (List String × Option PreparationFile) := do
  match v with
  | none => .ok ([], none)
  | some v =>
    let x ← object v "profile.firmware"
    let loader ← orInvalid (x.field "loader")
      "profile.firmware requires both loader and nvram mappings"
    let loader ← object loader "loader"
    let nvram ← orInvalid (x.field "nvram")
      "profile.firmware requires both loader and nvram mappings"
    let nvram ← object nvram "nvram"
    let code ← sources.path (loader.field "source") "profile.firmware.loader"
    let seed ← sources.path (nvram.field "source") "profile.firmware.nvram"
    let name := nvramName nvram
    if name.toList.contains '/' ∨ name = "." ∨ name = ".." then
      invalid "profile.firmware.nvram.name must be a plain file name"
    else
      let path := joinPath state name
      let readonly := if (flag loader "readonly").getD true then "on" else "off"
      .ok (["-drive", "if=pflash,format=raw,unit=0,readonly=" ++ readonly ++ ",file=" ++ code,
        "-drive", "if=pflash,format=raw,unit=1,file=" ++ path] ++
        (if (flag loader "secure").getD false then
          ["-global", "driver=cfi.pflash01,property=secure,value=on"] else []),
        some { path, seed })

/-! ## Direct boot -/

/-- The drive letter of a boot device. -/
def bootDrive : Option String → Option String
  | some "disk" => some "c"
  | some "cdrom" => some "d"
  | some "network" => some "n"
  | some "floppy" => some "a"
  | _ => none

def onOff (b : Bool) : String := if b then "on" else "off"

/-- An option of `-boot`, if the setting is there. -/
def bootOption (boot : Json) (key : String) (read : Json → Plans String) :
    Plans (List String) := do
  match boot.field key with
  | none => .ok []
  | some value =>
    let option ← read value
    .ok [option]

/-- The path of the splash image. -/
def splashPath (host : Host) (value : Json) : Plans String := do
  let splash ← orInvalid (value.asStr.filter (· ≠ ""))
    "profile.boot.splash must be a non-empty file path"
  let path ← orInvalid (host.canonicalize splash)
    ("cannot open profile.boot.splash " ++ Error.quoted splash)
  ensure (host.isFile path) "profile.boot.splash must name a regular file"
  .ok ("splash=" ++ escapeProp path)

/-- The options of `-boot`. -/
def bootOptions (host : Host) (boot : Json) : Plans (List String) := do
  let drive (key option : String) (value : Json) : Plans String := do
    let drive ← orInvalid (bootDrive value.asStr)
      ("profile.boot." ++ key ++ " must be disk, cdrom, network, or floppy")
    .ok (option ++ "=" ++ drive)
  let truth (key : String) (value : Json) : Plans String := do
    let b ← orInvalid value.asBool ("profile.boot." ++ key ++ " must be a boolean")
    .ok (key ++ "=" ++ onOff b)
  let «from» ← bootOption boot "from" (drive "from" "order")
  let once ← bootOption boot "once" (drive "once" "once")
  let strict ← bootOption boot "strict" (truth "strict")
  let reboot ← bootOption boot "reboot_timeout" fun value => do
    let n ← orInvalid (value.asI64.filter fun n => -1 ≤ n ∧ n ≤ 2 ^ 31 - 1)
      "profile.boot.reboot_timeout must be -1 or milliseconds from 0 to 2147483647"
    .ok ("reboot-timeout=" ++ toString n)
  let menu ← bootOption boot "menu" (truth "menu")
  let splash ← bootOption boot "splash" (splashPath host)
  let timeout ← bootOption boot "timeout" fun value => do
    let n ← orInvalid (value.asU64.filter fun n => n ≤ 2 ^ 32 - 1)
      "profile.boot.timeout must be milliseconds from 0 to 4294967295"
    .ok ("splash-time=" ++ toString n)
  .ok («from» ++ once ++ strict ++ reboot ++ menu ++ splash ++ timeout)

/-- A file that is booted from. -/
def bootFile (boot : Json) (sources : SourceResolver) (key name : String) :
    Plans (List String) := do
  match boot.field key with
  | none | some .null => .ok []
  | some reference =>
    let reference ← object reference ("profile.boot." ++ key)
    let path ← sources.path (reference.field "source") ("profile.boot." ++ key)
    .ok [name, path]

/-- The command line of the kernel. -/
def kernelCommand (boot : Json) : Plans (List String) :=
  match boot.field "append" with
  | none => .ok []
  | some value => do
    let append ← orInvalid value.asStr "profile.boot.append must be a string"
    .ok ["-append", append]

/-- Source: `engine/plan.rs` `append_direct_boot`. -/
def directBoot (boot : Option Json) (sources : SourceResolver) : Plans (List String) := do
  match boot with
  | none => .ok []
  | some boot =>
    let options ← bootOptions sources.host boot
    let kernel ← bootFile boot sources "kernel" "-kernel"
    let initrd ← bootFile boot sources "initrd" "-initrd"
    let dtb ← bootFile boot sources "dtb" "-dtb"
    let append ← kernelCommand boot
    .ok ((if options = [] then [] else ["-boot", joinWith "," options]) ++ kernel ++ initrd ++
      dtb ++ append)

/-! ## Storage -/

/-- The length of the longest beginning with digits and points. -/
def numberLength (value : List Char) : Nat :=
  (value.takeWhile fun c => c.isDigit || c = '.').length

/-- A number that `parse::<f64>` reads: digits with at most one point. -/
def isNumber (number : List Char) : Bool :=
  number.any Char.isDigit && (number.filter (· = '.')).length ≤ 1

/-- Source: `engine/plan.rs` `disk_size`. -/
def diskSize (value : String) : Plans String :=
  let value := (trim value).toList
  let number := value.take (numberLength value)
  let suffix := String.ofList (value.drop (numberLength value))
  if suffix = "" then invalid "profile.storage.disk.size must include a unit"
  else if number = [] ∨ ¬ isNumber number ∨
      suffix ∉ ["M", "G", "T", "MiB", "GiB", "TiB"] then
    invalid "profile.storage.disk.size must use M, G, T, MiB, GiB, or TiB"
  else .ok (String.ofList number ++ String.ofList (suffix.toList.take 1))

/-- An option of a drive that is passed on: the name of the setting and of the option. -/
def driveOption (disk : Json) (entry : String × String) : Plans String :=
  match disk.field entry.1 with
  | none => .ok ""
  | some value => do
    let value ← orInvalid (value.asStr.filter fun value =>
        value ≠ "" ∧ ¬ value.toList.any fun c => c = ',' || c = '\n' || c = '\r')
      ("profile.storage.disk." ++ entry.1 ++ " is invalid")
    .ok ("," ++ entry.2 ++ "=" ++ value)

/-- The options of a drive that are passed on. -/
def driveOptions (disk : Json) : Plans String := do
  let options ← [("cache", "cache"), ("aio", "aio"), ("discard", "discard"),
    ("detect_zeroes", "detect-zeroes")].mapM (driveOption disk)
  .ok (String.join options)

/-- The device of a disk on a bus. -/
def diskDevice (bus : String) (legacy : Bool) : Option String :=
  if bus = "virtio" then some "virtio-blk-pci,drive=pc-disk"
  else if bus = "ide" ∧ legacy then some "ide-hd,bus=ide.0,drive=pc-disk"
  else if bus = "sata" ∧ ¬ legacy then some "ide-hd,bus=pc-sata.0,drive=pc-disk"
  else none

/-- The identity of a disk: an explicit serial number wins over the one of the analysis profile. -/
def diskIdentity (disk : Json) (descriptor : Option Json) : String :=
  let model := descriptor.bind fun d => text d "disk_product"
  let serial := (text disk "serial").or
    ((descriptor.bind fun d => text d "disk_serial_prefix").map fun start => start ++ "-0")
  option "model" (model.map escapeProp) ++ option "serial" (serial.map escapeProp)

/-- The size of the overlay. -/
def overlaySize (disk : Json) : Plans (Option String) :=
  match disk.field "size" with
  | none => .ok none
  | some value => do
    let value ← orInvalid value.asStr "profile.storage.disk.size must be a size string"
    some <$> diskSize value

/-- The arguments of the disk and its overlay. Source: `engine/plan.rs` `append_storage`. -/
def storage (v : Option Json) (sources : SourceResolver) (machine state : String)
    (descriptor : Option Json) : Plans (List String × Option DiskPreparation) := do
  match v with
  | none => .ok ([], none)
  | some v =>
    let x ← object v "profile.storage"
    (keys x).forM fun key =>
      ensure (key = "disk") ("profile.storage." ++ key ++ " is not supported for this machine")
    let disk ← orInvalid (x.field "disk") "profile.storage.disk must be a mapping"
    let disk ← object disk "profile.storage.disk"
    (keys disk).forM fun key =>
      ensure (key ∈ ["source", "bus", "format", "size", "readonly", "cache", "aio", "discard",
          "detect_zeroes", "serial"])
        ("profile.storage.disk." ++ key ++ " is not supported by the launch planner")
    let backing ← sources.path (disk.field "source") "profile.storage.disk"
    ensure ((disk.field "bus").all fun v => v.asStr.isSome)
      "profile.storage.disk.bus must be a string"
    ensure ((disk.field "format").all fun v => v.asStr.isSome)
      "profile.storage.disk.format must be raw or qcow2"
    ensure ((disk.field "readonly").all fun v => v.asBool.isSome)
      "profile.storage.disk.readonly must be a boolean"
    let bus := (text disk "bus").getD "sata"
    ensure (!(bus = "virtio" && (disk.field "serial").isSome))
      "profile.storage.disk.serial is unsupported on virtio"
    let legacy := machine = "pc" || startsWith machine "pc-i440fx"
    ensure (!(legacy && bus = "sata")) "the pc machine uses bus ide; sata requires q35"
    ensure (!(!legacy && bus = "ide")) "q35 machines use bus sata; ide requires the pc machine"
    let path := joinPath state "overlay.qcow2"
    let format := (text disk "format").getD "qcow2"
    ensure (format ∈ ["raw", "qcow2"]) "profile.storage.disk.format must be raw or qcow2"
    let size ← overlaySize disk
    let options ← driveOptions disk
    let readonly := if (flag disk "readonly").getD false then ",readonly=on" else ""
    let device ← orInvalid (diskDevice bus legacy)
      "unsupported storage bus for selected machine"
    let identity := if bus = "virtio" then "" else diskIdentity disk descriptor
    .ok ((if bus = "sata" then ["-device", "ich9-ahci,id=pc-sata"] else []) ++
      ["-drive", "if=none,id=pc-disk,file=" ++ path ++ ",format=qcow2" ++ options ++ readonly,
        "-device", device ++ identity],
      some { path, backing, backingFormat := format, size })

/-- A disk of the board, by its role. -/
def udmDisk (storage : Json) (sources : SourceResolver) (role id : String) :
    Plans (List String) := do
  let disk ← orInvalid (storage.field role) ("profile.storage." ++ role ++ " is required")
  ensure (text disk "format" = some "raw") "UDM Pro storage requires raw images"
  let disk ← object disk ("profile.storage." ++ role)
  let path ← sources.path (disk.field "source") ("profile.storage." ++ role)
  .ok ["-drive", "file=" ++ escapeProp path ++ ",if=none,format=raw,id=" ++ id ++ ",snapshot=on"]

/-- Source: `engine/plan.rs` `append_udm_storage`. -/
def udmStorage (v : Option Json) (sources : SourceResolver) : Plans (List String) := do
  let v ← orInvalid v "UDM Pro requires boot and SPI storage"
  let storage ← object v "profile.storage"
  let boot ← udmDisk storage sources "boot" "udm-boot"
  let spi ← udmDisk storage sources "spi" "udm-config"
  .ok (boot ++ spi)

/-! ## The TPM -/

/-- The check of the backend of the TPM. -/
def validateTpmBackend (tpm : Json) : Plans Unit := do
  match tpm.field "backend" with
  | none => .ok ()
  | some backend =>
    let backend ← object backend "profile.tpm.backend"
    ensure ((backend.field "type").all fun v => v.asStr = some "emulator")
      "profile.tpm.backend.type must be emulator"
    ensure ((backend.field "version").all fun v => v.asStr = some "2.0")
      "profile.tpm.backend.version only supports 2.0"

/-- Source: `engine/plan.rs` `append_tpm`. -/
def tpm (v : Json) (socket : String) : Plans (List String) := do
  let x ← object v "profile.tpm"
  let model := (text x "model").getD "tpm-tis"
  ensure (model ∈ ["tpm-tis", "tpm-crb"]) "profile.tpm.model must be tpm-tis or tpm-crb"
  validateTpmBackend x
  .ok ["-chardev", "socket,id=chrtpm,path=" ++ socket, "-tpmdev",
    "emulator,id=tpm0,chardev=chrtpm", "-device", model ++ ",tpmdev=tpm0"]

/-! ## Devices -/

/-- A socket that QEMU listens on. -/
def socketChardev (id path : String) : String :=
  "socket,id=" ++ id ++ ",path=" ++ path ++ ",server=on,wait=off"

/-- The arguments of the guest agent. -/
def guestAgent (devices : Json) (runtime : String) : List String :=
  if (flag devices "guest_agent").getD false then
    ["-chardev", socketChardev "qga0" (joinPath runtime "qga.sock"), "-device",
      "virtio-serial-pci,id=virtio-serial0", "-device",
      "virtserialport,chardev=qga0,name=org.qemu.guest_agent.0"]
  else []

/-- The arguments of the serial port. -/
def serialPort (devices : Json) (runtime : String) : List String :=
  match (devices.field "serial").bind fun serial => text serial "type" with
  | some "socket" =>
    ["-chardev", socketChardev "uart0" (escapeProp (joinPath runtime "serial.sock")) ++
      ",logfile=" ++ escapeProp (joinPath runtime "serial.log") ++ ",logappend=off", "-serial",
      "chardev:uart0"]
  | some "file" => ["-serial", "file:" ++ joinPath runtime "serial.log"]
  | some "stdout" => ["-serial", "stdio"]
  | _ => []

/-- A boolean setting of the devices. -/
def deviceFlag (devices : Json) (key : String) : Plans Bool :=
  match devices.field key with
  | none => .ok false
  | some (.bool b) => .ok b
  | some _ => invalid ("profile.devices." ++ key ++ " must be a boolean")

/-- The model of the video device. -/
def videoModel (devices : Json) : Option String :=
  (devices.field "video").bind fun video => text video "model"

/-- The arguments of the pointers. -/
def pointers (tablet mouse : Bool) : List String :=
  if tablet ∨ mouse then
    ["-device", "qemu-xhci,id=usb"] ++
      (if tablet then ["-device", "usb-tablet,bus=usb.0"] else []) ++
      (if mouse then ["-device", "usb-mouse,bus=usb.0"] else [])
  else []

/-- The arguments of the display. -/
def display (console : Option Json) (model : Option String) : Plans (List String) :=
  if consoleType console = "h264" then
    match model.filter isGl with
    | none => invalid ("profile.devices.console.type=h264 requires devices.video.model=" ++
        "virtio-vga-gl or virtio-gpu-gl")
    | some model =>
      .ok ["-vga", "none", "-device", model ++ ",id=me-video", "-display", "dbus,p2p=on,gl=on"]
  else if consoleType console = "vnc" then .ok ["-display", "vnc=:0"]
  else .ok ["-display", "none"]

/-- The arguments of the devices. Source: `engine/plan.rs` `append_devices`. -/
def devices (v : Option Json) (runtime : String) : Plans (List String) := do
  let devices ← object (v.getD (.obj [])) "profile.devices"
  let console ← optionalMapping (devices.field "console") "profile.devices.console"
  let tablet ← deviceFlag devices "usb_tablet"
  let mouse ← deviceFlag devices "usb_mouse"
  let model := videoModel devices
  ensure (!(consoleType console = "vnc" && model.any isGl))
    "profile.devices.console.type=vnc conflicts with GL video"
  let display ← display console model
  .ok (guestAgent devices runtime ++ serialPort devices runtime ++
    (if model = some "virtio-vga" then ["-vga", "none", "-device", "virtio-vga,id=me-video"]
      else []) ++
    pointers tablet mouse ++ display)

/-- The socket of the VNC server. -/
def vncSocket (runtime : String) : String := "unix:" ++ joinPath runtime "sockets/vnc.sock"

/-- The characters of the id of an audio backend. -/
def isAudioId (id : String) : Bool :=
  id ≠ "" && id.utf8ByteSize ≤ 48 &&
    id.toList.all fun c => isAlphanumeric c || c = '-' || c = '_' || c = '.'

/-- The backend of the audio device: its type and its id; none if there is no sound. -/
def audioBackend (audio : Option Json) : Plans (Option (String × String)) := do
  match audio with
  | none => .ok none
  | some audio =>
    let audio ← object audio "profile.audio"
    let model := (text audio "model").getD "ich9"
    if model = "none" then .ok none
    else
      ensure (model = "ich9") "profile.audio.model must be ich9 or none"
      let backend ← orInvalid (audio.field "backend") "profile.audio.backend is required"
      let backend ← object backend "profile.audio.backend"
      let kind := (text backend "type").getD "none"
      if kind = "none" then .ok none
      else
        ensure (kind = "dbus" || kind = "spice")
          "profile.audio.backend.type must be dbus, spice, or none"
        let id := (text backend "id").getD "pc-audio"
        ensure (isAudioId id) "profile.audio.backend.id is invalid"
        .ok (some (kind, id))

/-- The place of the first `-display` that something follows. -/
def displayAt : List String → Option Nat
  | a :: b :: rest => if a = "-display" then some 0 else (displayAt (b :: rest)).map (· + 1)
  | _ => none

/-- The display with sound: a D-Bus display gets the backend, any other is replaced by one. -/
def dbusDisplay (argv : List String) (id : String) (vnc : Bool) (runtime : String) :
    Plans (List String) :=
  match displayAt argv with
  | none => invalid "audio requires a display backend"
  | some place =>
    let old := argv.getD (place + 1) ""
    if startsWith old "dbus," then .ok (argv.set (place + 1) (old ++ ",audiodev=" ++ id))
    else
      .ok (argv.set (place + 1) ("dbus,p2p=on,audiodev=" ++ id) ++
        if vnc then ["-vnc", vncSocket runtime] else [])

/-- The argument vector with the place where the sound is heard. -/
def soundOutput (argv : List String) (kind id : String) (vnc : Bool) (runtime : String) :
    Plans (List String) :=
  if kind = "dbus" then dbusDisplay argv id vnc runtime
  else .ok (argv ++ ["-spice",
    "disable-ticketing=on,unix=on,addr=" ++ joinPath runtime "sockets/spice.sock"])

/-- The argument vector with sound. Source: `engine/plan.rs` `append_audio`. -/
def withAudio (argv : List String) (audio devices : Option Json) (runtime : String) :
    Plans (List String) := do
  match ← audioBackend audio with
  | none => .ok argv
  | some (kind, id) =>
    let vnc := (((devices.bind fun d => d.field "console").bind fun c => text c "type") =
      some "vnc")
    let argv ← soundOutput argv kind id vnc runtime
    .ok (argv ++ ["-audiodev", kind ++ ",id=" ++ id, "-device", "ich9-intel-hda,id=pc-sound",
      "-device", "hda-duplex,audiodev=" ++ id])

/-- The forged display adapter of an analysis profile. Source: `engine/plan.rs`
`append_analysis_video`. -/
def analysisVideo (video descriptor : Option Json) : List String :=
  match descriptor with
  | none => []
  | some display =>
    let model :=
      (((video.bind fun v => v.field "type").or (video.bind fun v => v.field "model")).bind
        Json.asStr).getD "vga"
    if model ≠ "vga" then []
    else
      let stringProp (key prop : String) : String := option prop ((text display key).map escapeProp)
      let intProp (entry : String × String) : String :=
        option entry.2 (((display.field entry.1).bind Json.asU64).map toString)
      let device := "VGA,id=pc-video" ++ stringProp "vendor" "vendor" ++ stringProp "name" "name" ++
        stringProp "serial" "serial" ++
        String.join ([("xres", "xres"), ("yres", "yres"), ("xres", "xmax"), ("yres", "ymax"),
          ("width_mm", "width-mm"), ("height_mm", "height-mm")].map intProp) ++
        if flag display "pci_identity" = some true then
          String.join ([("pci_vendor_id", "pci-vendor-id"), ("pci_device_id", "pci-device-id"),
            ("pci_subsystem_vendor_id", "pci-subsystem-vendor-id"),
            ("pci_subsystem_id", "pci-subsystem-id"),
            ("pci_identity_delay_ms", "pci-identity-delay-ms")].map intProp)
        else ""
      ["-vga", "none", "-device", device]

/-- A boolean setting of the board. -/
def udmFlag (devices : Json) (key : String) : Plans Bool :=
  match devices.field key with
  | none => .ok false
  | some v => orInvalid v.asBool ("UDM Pro devices." ++ key ++ " must be a boolean")

/-- Source: `engine/plan.rs` `append_udm_devices`. -/
def udmDevices (v : Option Json) (runtime : String) : Plans (List String) := do
  match v with
  | none => .ok []
  | some devices =>
    let socket (file : String) := escapeProp (joinPath runtime file)
    let lcd ← udmFlag devices "lcd"
    let bluetooth ← udmFlag devices "bluetooth"
    let serial := (devices.field "serial").bind fun serial => text serial "type"
    ensure (!bluetooth || serial = some "file" || serial = some "socket")
      "UDM Pro Bluetooth requires devices.serial.type=file or socket to reserve ttyS0"
    .ok ((if lcd then
        ["-device", "qemu-xhci,id=udm-usb,bus=pcie-external,addr=9", "-chardev",
          socketChardev "lcm-events" (socket "lcm-events.sock"), "-chardev",
          socketChardev "lcm-input" (socket "lcm-input.sock"), "-device",
          "unifi-lcm,bus=udm-usb.0,events=lcm-events,input=lcm-input,udm-pro=on"]
      else []) ++
      if bluetooth then
        ["-chardev", socketChardev "btuart" (socket "bluetooth.sock"), "-serial",
          "chardev:btuart"]
      else [])

/-- Source: `engine/plan.rs` `append_wifi`. -/
def wifi (v : Option Json) (machine runtime : String) : Plans (List String) := do
  match v with
  | none => .ok []
  | some v =>
    let wifi ← object v "profile.wifi"
    if flag wifi "enabled" ≠ some true then .ok []
    else
      ensure (machine = "mt7981") "profile.wifi requires the mt7981 machine"
      .ok ["-global",
        "unifi-board.wifi-socket=" ++ escapeProp (joinPath runtime "wifi.sock")]

/-! ## The engine -/

/-- Source: `engine/plan.rs` `engine_tracks`. -/
def engineTracks (profile : Json) : Plans (List String) := do
  match profile.field "engine" with
  | none => .ok ["qemu-system"]
  | some engine =>
    let tracks ← orInvalid engine.asArr "profile.engine must be an array of engine track names"
    ensure (tracks ≠ []) "profile.engine must not be empty"
    tracks.zipIdx.mapM fun (entry : Json × Nat) =>
      orInvalid (entry.1.asStr.filter (· ≠ ""))
        ("profile.engine[" ++ toString entry.2 ++ "] must be a non-empty string")

/-- `Path::parent`. -/
def parentPath (path : String) : String :=
  let rest := (path.toList.reverse.dropWhile (· = '/')).dropWhile (· ≠ '/')
  let parent := (rest.dropWhile (· = '/')).reverse
  if parent = [] ∧ isAbsolute path then "/" else String.ofList parent

/-- The executable of a release manifest. -/
def releaseExecutable (host : Host) (manifestPath : String) (manifest entry : Json)
    (track target : String) : Plans String := do
  let manifest ← object manifest "engine manifest"
  let version ← number manifest "schema_version"
  ensure (version = 1) "engine manifest schema_version must be 1"
  let trackId ← string manifest "track_id"
  ensure (trackId = track) "manifest track does not match release track"
  let digest ← string manifest "build_digest"
  let pinned ← string entry "build_digest"
  ensure (digest = pinned) "engine build digest does not match release set"
  ensure (flag manifest "dirty_source" = some false)
    "dirty engine builds cannot be used for release"
  let executables ← orInvalid (manifest.field "executables") "engine executables must be a mapping"
  let executables ← object executables "executables"
  let relative ← orInvalid (text executables target)
    ("engine has no executable for target " ++ target)
  let executable := joinPath (parentPath manifestPath) relative
  ensure (host.isFile executable) ("engine executable is missing: " ++ executable)
  let hashes ← object ((manifest.field "executable_sha256").getD (.obj [])) "executable_sha256"
  match text hashes target with
  | none => .ok executable
  | some expected =>
    let actual ← host.digest executable
    ensure (actual = expected) ("engine executable digest mismatch for " ++ target)
    .ok executable

/-- The executable of a track. A resolved instance pins it in the release set.
Source: `engine/plan.rs` `resolve_engine`. -/
def resolveEngine (host : Host) (release : Json) (bundle track target : String) :
    Plans String := do
  let release ← object release "release set"
  let version ← number release "schema_version"
  ensure (version = 1) "release set schema_version must be 1"
  let engines ← orInvalid (release.field "engines") "release set engines must be a mapping"
  let engines ← object engines "engines"
  let entry ← orInvalid (engines.field track)
    ("engine track is not in the release set: " ++ track)
  let entry ← object entry "engine entry"
  match text entry "executable" with
  | some executable =>
    ensure (host.isFile executable) ("engine executable is missing: " ++ executable)
    discard (string entry "build_digest")
    .ok executable
  | none =>
    let relative ← string entry "manifest"
    ensure (!isAbsolute relative) "engine manifest must be relative"
    let manifestPath := joinPath bundle relative
    let manifest ← host.document manifestPath
    releaseExecutable host manifestPath manifest entry track target

/-- The executable of the first track that has one; without any, the error of the last.
Source: `engine/plan.rs` `resolve_engine_ordered`. -/
def resolveEngineOrdered (host : Host) (release : Json) (bundle : String) (tracks : List String)
    (target : String) : Plans String :=
  tracks.foldl
    (fun last track =>
      match last with
      | .ok executable => .ok executable
      | .error _ => resolveEngine host release bundle track target)
    (invalid "profile.engine must not be empty")

/-! ## The plan -/

/-- What the sections of the plan are built from, after the checks. -/
structure Setup where
  machine : String
  executable : String
  runtime : String
  state : String
  resources : Json
  memory : String
  vcpus : Int
  analysis : Option AnalysisPlan
  sources : SourceResolver

/-- The checks of the profile, the engine and the resources. -/
def setup (host : Host) (input : PlanInput) : Plans Setup := do
  let profile ← object input.profile "profile"
  let version ← number profile "schema_version"
  ensure (version = 2) "profile schema_version must be 2"
  discard (string profile "id")
  let machine ← string profile "machine"
  validateLaunchSettings profile
  let tracks ← engineTracks profile
  let executable ← resolveEngineOrdered host input.releaseSet input.bundleRoot tracks input.target
  let runtime := (host.canonicalize input.runtimeDir).getD input.runtimeDir
  let resources ← object ((profile.field "resources").getD (.obj [])) "profile.resources"
  let amount ← orInvalid (resources.field "memory") "profile.resources.memory must be supplied"
  let memory ← memory amount
  let vcpus ← positiveInt ((resources.field "vcpus").getD (.num 1)) "profile.resources.vcpus"
  let analysis ← analysisPlan profile machine input.target vcpus
  .ok
    { machine, executable, runtime, state := input.stateDir.getD runtime, resources, memory, vcpus
      analysis
      sources := { host, components := input.imageComponents, baseDir := input.assetRoot } }

/-- The argument of `-machine`. -/
def machineArg (profile : Json) (s : Setup) : String :=
  machineValue s.machine (profile.field "smm") ++
    (s.analysis.map fun analysis => "," ++ analysis.machineSuffix).getD ""

/-- The processor model. -/
def cpuModel (profile : Json) : String :=
  (text profile "cpu").getD
    (if (profile.field "analysis").isSome then "host,kvm=off" else "max")

/-- Devices cannot be plugged into the root bus of a q35 machine, so there are ports for them. -/
def rootPorts (machine : String) : List String :=
  if contains machine "q35" then
    ["-device", "pcie-root-port,id=pcie-root-port-iso,chassis=16,slot=16", "-device",
      "pcie-root-port,id=pcie-root-port-1,chassis=17,slot=17", "-device",
      "pcie-root-port,id=pcie-root-port-2,chassis=18,slot=18"]
  else []

/-- The arguments of the accelerator. -/
def accelArgs (resources : Json) : Plans (List String) :=
  match text resources "accelerator" with
  | none => .ok []
  | some kind => accelerator kind (resources.field "accelerator_thread")

/-- The arguments of the machine, the processor, the memory and the control files. -/
def machineArgs (profile : Json) (s : Setup) : Plans (List String) := do
  let accel ← accelArgs s.resources
  let smp ← smp s.resources s.vcpus
  .ok (["-machine", machineArg profile s] ++ rootPorts s.machine ++ accel ++
    (if s.machine ≠ "udm-pro" ∨ (profile.field "cpu").isSome then ["-cpu", cpuModel profile]
      else []) ++
    ["-m", s.memory, "-smp", smp, "-qmp",
      "unix:" ++ joinPath s.runtime "sockets/qmp.sock" ++ ",server=on,wait=off", "-pidfile",
      joinPath s.runtime "control/qemu.pid"])

/-- A field of the devices. -/
def deviceField (profile : Json) (key : String) : Option Json :=
  (profile.field "devices").bind fun devices => devices.field key

/-- The address of the network device: an explicit one wins, then the one that the profile
declares; otherwise the name of the instance decides. -/
def address (input : PlanInput) : Option String :=
  (input.mac.or ((deviceField input.profile "mac").bind Json.asStr)).or
    (input.instanceName.map deriveMac)

/-- The arguments of the network of the machine. -/
def networkArgs (input : PlanInput) (s : Setup) : Plans (List String) :=
  if s.machine = "udm-pro" then
    udmNetwork (input.profile.field "network") input.bridgeHelper (address input)
  else
    network (input.profile.field "network") ((deviceField input.profile "nic").bind Json.asStr)
      input.bridgeHelper (address input)

/-- The arguments of the seed of cloud-init. -/
def seedArgs (host : Host) : Option String → Plans (List String)
  | none => .ok []
  | some seed => do
    ensure (host.isFile seed) ("cloud-init seed is unavailable: " ++ seed)
    .ok ["-drive", "file=" ++ seed ++ ",media=cdrom,readonly=on"]

/-- The board boots a kernel of its own. -/
def requireBoot (profile : Json) (machine : String) : Plans Unit :=
  if machine = "udm-pro" then
    ["kernel", "initrd"].forM fun role =>
      match (profile.field "boot").bind fun boot => boot.field role with
      | none | some .null => invalid ("UDM Pro requires profile.boot." ++ role)
      | some _ => .ok ()
  else .ok ()

/-- A descriptor of the analysis profile. -/
def descriptor (s : Setup) (name : String) : Option Json :=
  s.analysis.bind fun analysis =>
    ((analysis.payload.field "analysis").bind fun v => v.field "device_descriptors").bind
      fun v => v.field name

/-- The arguments of the storage of the machine. -/
def storageArgs (profile : Json) (s : Setup) : Plans (List String × Option DiskPreparation) :=
  if s.machine = "udm-pro" then do
    let argv ← udmStorage (profile.field "storage") s.sources
    .ok (argv, none)
  else
    storage (profile.field "storage") s.sources s.machine s.state (descriptor s "storage")

/-- The socket of the TPM emulator. -/
def tpmSocket (s : Setup) : String := joinPath s.runtime "sockets/tpm.sock"

/-- The arguments of the TPM. -/
def tpmArgs (profile : Json) (s : Setup) : Plans (List String) :=
  match profile.field "tpm" with
  | none => .ok []
  | some v => tpm v (tpmSocket s)

/-- The command of the TPM emulator. -/
def helperCommand (input : PlanInput) (s : Setup) : Option (List String) :=
  (input.profile.field "tpm").map fun _ =>
    [input.swtpm.getD "swtpm", "socket", "--tpm2", "--tpmstate",
      "dir=" ++ joinPath s.state "tpm", "--ctrl", "type=unixio,path=" ++ tpmSocket s]

/-- The arguments of the vsock device. -/
def vsockArgs (input : PlanInput) (s : Setup) : List String :=
  if (deviceField input.profile "vsock").bind Json.asBool = some true then
    ["-device", "vhost-vsock-pci,id=machineemu-vsock,guest-cid=" ++
      toString (deriveVsockCid s.runtime input.instanceName)]
  else []

/-- The arguments before the ones of the sound, and the files. -/
def baseArgs (host : Host) (input : PlanInput) (s : Setup) :
    Plans (List String × Preparation) := do
  let machine ← machineArgs input.profile s
  let network ← networkArgs input s
  let seed ← seedArgs host input.seed
  let (firmware, nvram) ← firmware (input.profile.field "firmware") s.sources s.state
  requireBoot input.profile s.machine
  let boot ← directBoot (input.profile.field "boot") s.sources
  let (storage, diskOverlay) ← storageArgs input.profile s
  let tpm ← tpmArgs input.profile s
  let devices ← devices (input.profile.field "devices") s.runtime
  .ok (s.executable :: (machine ++ network ++ seed ++ firmware ++ boot ++ storage ++ tpm ++
      devices ++ vsockArgs input s),
    { nvram, diskOverlay
      tpmState := (input.profile.field "tpm").map fun _ => joinPath s.state "tpm" })

/-- The settings of the sound. -/
def audioSettings (profile : Json) : Option Json :=
  (profile.field "audio").or (deviceField profile "audio")

/-- The arguments of the front panel. -/
def frontPanel (runtime : String) : List String :=
  ["-chardev", socketChardev "frontpanel-events"
      (escapeProp (joinPath runtime "frontpanel-events.sock")), "-global",
    "unifi-board.frontpanel=frontpanel-events"]

/-- The arguments of the board. -/
def boardArgs (profile : Json) (s : Setup) : Plans (List String) :=
  if s.machine = "udm-pro" then udmDevices (profile.field "devices") s.runtime
  else .ok (if s.machine = "us24pro" then frontPanel s.runtime else [])

/-- The arguments after the ones of the sound. -/
def lastArgs (profile : Json) (s : Setup) : Plans (List String) := do
  let standard := (descriptor s "display").isNone &&
    (((deviceField profile "video").bind fun v => v.field "model").bind Json.asStr) = some "vga"
  let board ← boardArgs profile s
  let wifi ← wifi (profile.field "wifi") s.machine s.runtime
  .ok (analysisVideo (deviceField profile "video") (descriptor s "display") ++
    (if standard then ["-vga", "std"] else []) ++ board ++ wifi ++
    (s.analysis.map AnalysisPlan.argv).getD [])

/-- Source: `engine/plan.rs` `build_plan`. -/
def buildPlan (host : Host) (input : PlanInput) : Plans LaunchPlan := do
  let s ← setup host input
  let (base, preparation) ← baseArgs host input s
  let sounding ← withAudio base (audioSettings input.profile) (input.profile.field "devices")
    s.runtime
  let last ← lastArgs input.profile s
  .ok
    { executable := s.executable, argv := sounding ++ last, preparation
      helperArgv := helperCommand input s }

end MachineEmu.Planner
