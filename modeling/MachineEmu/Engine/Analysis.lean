import MachineEmu.Engine.Values

/-!
# The analysis profile

A profile for malware analysis carries an identity of its own: everything the guest could recognise
the machine by is derived from a seed or stated in the profile, checked, and passed to QEMU.

* `hashInput`, `systemUuid`, `macAddress`, `serials` — the derived identity.
* `validateSmbios`, `validateAcpi`, `validateDescriptors`, `validateSensors`, `validatePci` — the
  stated one.
* `cpuPolicy` — the check of the processor model.
* `analysisPlan` — the plan.
-/

namespace MachineEmu.Planner

open Lib

/-- Source: `engine/analysis.rs` `AnalysisPlan`. -/
structure AnalysisPlan where
  machineSuffix : String
  argv : List String
  payload : Json

/-! ## Readers -/

/-- Printable ASCII of a length. Source: `engine/analysis.rs` `ascii`. -/
def ascii (value : Json) (name : String) (limit : Nat) : Plans String := do
  let text ← orInvalid value.asStr (name ++ " must be printable ASCII")
  if text = "" ∨ limit < text.utf8ByteSize ∨
      ¬ text.toList.all fun c => ' ' ≤ c && c ≤ '~' then
    invalid (name ++ " must be printable ASCII of length 1.." ++ toString limit)
  else .ok text

/-- An integer in a range. Source: `engine/analysis.rs` `number`. -/
def numberIn (value : Json) (name : String) (low high : Int) : Plans Int := do
  let n ← orInvalid value.asI64 (name ++ " must be an integer")
  if low ≤ n ∧ n ≤ high then .ok n else invalid (name ++ " is outside its supported range")

/-- The fields of an object, which may be missing. Source: `engine/analysis.rs`
`optional_mapping`. -/
def optionalMapping (value : Option Json) (name : String) : Plans (Option Json) :=
  match value with
  | none => .ok none
  | some v => some <$> object v name

/-- Defaults with the fields that are overridden, each of which must have one.
Source: `engine/analysis.rs` `merge_known`. -/
def mergeKnown (defaults : List (String × Json)) (override : Option Json) (name : String) :
    Plans Json := do
  match ← optionalMapping override name with
  | some (.obj fields) =>
    fields.foldlM (fun target (field : String × Json) => do
      if (target.field field.1).isNone then
        invalid (name ++ "." ++ field.1 ++ " is unsupported")
      else .ok (target.setField field.1 field.2)) (Json.ofFields defaults)
  | _ => .ok (Json.ofFields defaults)

/-- Each field of an object is checked. -/
def forFields (v : Json) (check : String → Json → Plans Unit) : Plans Unit :=
  match v with
  | .obj fields => fields.forM fun field => check field.1 field.2
  | _ => .ok ()

/-! ## The derived identity -/

/-- The bytes that are hashed for a label. Source: `engine/analysis.rs` `digest`. -/
def hashInput (seed label : String) : List Nat :=
  Sha256.bytes "unifi-qemu-analysis\x00" ++ Sha256.bytes seed ++ Sha256.bytes "\x00" ++
    Sha256.bytes label

/-- The text the derived fields are hashed from. -/
def effectiveSeed (seed : String) (clone : Option String) : String :=
  match clone with
  | none => seed
  | some clone => seed ++ "\x00clone\x00" ++ clone

/-- The first 16 bytes of a digest with the version and the variant of a random UUID. -/
def uuidBytes (digest : List Nat) : List Nat :=
  let bytes := digest.take 16
  (bytes.set 6 (bytes.getD 6 0 % 16 + 0x40)).set 8 (bytes.getD 8 0 % 64 + 0x80)

/-- The text of a UUID. -/
def uuidText (bytes : List Nat) : String :=
  let h := (Sha256.hex bytes).toList
  joinWith "-" ([h.take 8, (h.drop 8).take 4, (h.drop 12).take 4, (h.drop 16).take 4,
    h.drop 20].map String.ofList)

def systemUuid (effective : String) : String :=
  uuidText (uuidBytes (Sha256.digest (hashInput effective "uuid")))

/-- Bytes with colons. -/
def colonHex (bytes : List Nat) : String := joinWith ":" (bytes.map fun b => Sha256.hex [b])

def macAddress (effective : String) : String :=
  "02:" ++ colonHex ((Sha256.digest (hashInput effective "mac")).take 5)

/-- The kinds of serial numbers. -/
def serialKinds : List String := ["bios", "system", "board", "chassis", "processor", "memory"]

/-- `to_ascii_uppercase`. -/
def uppercase (s : String) : String := String.ofList (s.toList.map Char.toUpper)

/-- The digest the serial numbers are made of. -/
def seedHash (seed : String) : String := Sha256.hex (Sha256.digest (Sha256.bytes seed))

def serial (seed kind : String) : String :=
  "AN-" ++ uppercase kind ++ "-" ++ String.ofList ((seedHash seed).toList.take 12)

def serials (seed : String) : Json :=
  .ofFields (serialKinds.map fun kind => (kind, .str (serial seed kind)))

/-- The clone of a profile in its payload. -/
def cloneValue (clone : Option String) : Json := (clone.map Json.str).getD .null

/-- The derived identity in the payload. -/
def identityDocument (seed : String) (clone : Option String) : Json :=
  .ofFields [("uuid", .str (systemUuid (effectiveSeed seed clone))),
    ("mac", .str (macAddress (effectiveSeed seed clone))), ("serials", serials seed),
    ("identity_seed_sha256", .str (seedHash seed)), ("clone", cloneValue clone)]

/-! ## The stated identity -/

/-- The texts of `analysis.smbios`. -/
def smbiosTexts : List String :=
  ["bios_vendor", "bios_version", "system_manufacturer", "system_product", "system_version",
    "board_manufacturer", "board_product", "board_version", "chassis_manufacturer",
    "chassis_version", "chassis_asset", "chassis_sku", "processor_manufacturer",
    "processor_version", "processor_asset", "processor_part", "processor_socket_prefix",
    "memory_manufacturer", "memory_part", "memory_bank", "memory_asset", "memory_locator_prefix"]

/-- Source: `engine/analysis.rs` `validate_smbios`. -/
def validateSmbios (input : Option Json) : Plans Json := do
  match ← optionalMapping input "analysis.smbios" with
  | none => .ok (.obj [])
  | some smbios =>
    forFields smbios fun key value => do
      if key ∈ smbiosTexts then discard (ascii value ("analysis.smbios." ++ key) 64)
      else if key ∈ ["processor_max_speed", "processor_current_speed", "processor_family",
          "memory_speed"] then
        discard (numberIn value ("analysis.smbios." ++ key) 0 65535)
      else if key = "processor_id" then
        ensure value.asU64.isSome "analysis.smbios.processor_id must be a u64 integer"
      else if key = "bios_vm" then
        ensure value.asBool.isSome "analysis.smbios.bios_vm must be boolean"
      else invalid ("analysis.smbios." ++ key ++ " is unsupported")
    .ok smbios

/-- Source: `engine/analysis.rs` `validate_acpi`. -/
def validateAcpi (input : Option Json) : Plans Json := do
  let acpi ← object (input.getD (.obj [])) "analysis.acpi"
  forFields acpi fun key value => do
    if key = "oem_id" then discard (ascii value "analysis.acpi.oem_id" 6)
    else if key = "oem_table_id" then discard (ascii value "analysis.acpi.oem_table_id" 8)
    else if key = "creator_id" then discard (ascii value "analysis.acpi.creator_id" 4)
    else if key = "oem_revision" ∨ key = "creator_revision" then
      discard (numberIn value ("analysis.acpi." ++ key) 0 (2 ^ 32 - 1))
    else invalid ("analysis.acpi." ++ key ++ " is unsupported")
  .ok acpi

def storageDefaults : List (String × Json) :=
  [("disk_vendor", .str "ATA"), ("disk_product", .str "SATA SSD"),
    ("disk_serial_prefix", .str "ANSSD"), ("optical_vendor", .str "ATA"),
    ("optical_product", .str "DVD-ROM")]

def displayDefaults : List (String × Json) :=
  [("vendor", .str "DEL"), ("name", .str "DELL P2419H"), ("serial", .str "10000001"),
    ("xres", .num 1920), ("yres", .num 1080), ("width_mm", .num 527), ("height_mm", .num 296),
    ("refresh_rate", .num 60000), ("pci_identity", .bool false),
    ("pci_identity_delay_ms", .num 15000), ("pci_vendor_id", .num 32902),
    ("pci_device_id", .num 18048), ("pci_subsystem_vendor_id", .num 4136),
    ("pci_subsystem_id", .num 2646)]

def hidDefaults : List (String × Json) :=
  [("manufacturer", .str "Wacom Co.,Ltd."), ("product", .str "Wacom Tablet"),
    ("serial", .str "WTAB10000001"), ("vendorid", .num 1386), ("productid", .num 185),
    ("bcd_device", .num 256)]

def usbStorageDefaults : List (String × Json) :=
  [("manufacturer", .str "SanDisk"), ("product", .str "Ultra USB 3.0"),
    ("serial_prefix", .str "USBSSD"), ("vendorid", .num 1921), ("productid", .num 21889),
    ("bcd_device", .num 256)]

/-- The fields of an object are among the names. -/
def onlyKeys (v : Option Json) (names : List String) (path : String) : Plans Unit :=
  match v with
  | some (.obj fields) =>
    fields.forM fun field =>
      ensure (field.1 ∈ names) (path ++ "." ++ field.1 ++ " is unsupported")
  | _ => .ok ()

def checkStorage (key : String) (value : Json) : Plans Unit :=
  let limit :=
    if key = "disk_vendor" ∨ key = "optical_vendor" then 8
    else if key = "disk_serial_prefix" then 12 else 16
  discard (ascii value ("analysis.device_descriptors.storage." ++ key) limit)

def checkDisplay (key : String) (value : Json) : Plans Unit := do
  let path := "analysis.device_descriptors.display." ++ key
  if key = "vendor" then
    let value ← ascii value path 3
    ensure (value.utf8ByteSize = 3 && value.toList.all fun c => 'A' ≤ c && c ≤ 'Z')
      (path ++ " must be three uppercase ASCII letters")
  else if key = "name" ∨ key = "serial" then discard (ascii value path 12)
  else if key = "pci_identity" then ensure value.asBool.isSome (path ++ " must be boolean")
  else if key = "xres" then discard (numberIn value path 640 7680)
  else if key = "yres" then discard (numberIn value path 480 4320)
  else if key = "width_mm" ∨ key = "height_mm" then discard (numberIn value path 100 2000)
  else if key = "refresh_rate" then discard (numberIn value path 24000 240000)
  else if key = "pci_identity_delay_ms" then discard (numberIn value path 0 300000)
  else discard (numberIn value path 1 65535)

def checkUsb (name key : String) (value : Json) : Plans Unit :=
  let path := "analysis.device_descriptors.usb." ++ name ++ "." ++ key
  if key ∈ ["vendorid", "productid", "bcd_device"] then discard (numberIn value path 1 65535)
  else discard (ascii value path 31)

/-- Source: `engine/analysis.rs` `validate_descriptors`. -/
def validateDescriptors (input : Option Json) : Plans Json := do
  let input ← optionalMapping input "analysis.device_descriptors"
  onlyKeys input ["storage", "display", "usb"] "analysis.device_descriptors"
  let storage ← mergeKnown storageDefaults (input.bind fun v => v.field "storage")
    "analysis.device_descriptors.storage"
  forFields storage checkStorage
  let display ← mergeKnown displayDefaults (input.bind fun v => v.field "display")
    "analysis.device_descriptors.display"
  forFields display checkDisplay
  let usb ← optionalMapping (input.bind fun v => v.field "usb") "analysis.device_descriptors.usb"
  onlyKeys usb ["hid", "storage"] "analysis.device_descriptors.usb"
  let hid ← mergeKnown hidDefaults (usb.bind fun v => v.field "hid")
    "analysis.device_descriptors.usb.hid"
  let usbStorage ← mergeKnown usbStorageDefaults (usb.bind fun v => v.field "storage")
    "analysis.device_descriptors.usb.storage"
  forFields hid (checkUsb "hid")
  forFields usbStorage (checkUsb "storage")
  .ok (.ofFields [("storage", storage), ("display", display),
    ("usb", .ofFields [("hid", hid), ("storage", usbStorage)])])

/-- Source: `engine/analysis.rs` `validate_sensors`. -/
def validateSensors (input : Option Json) : Plans Json := do
  let sensors ← mergeKnown [("temperature_celsius", .num 42), ("passive_celsius", .num 75),
    ("critical_celsius", .num 95), ("fan_rpm", .num 1200)] input "analysis.sensors"
  let get (key : String) : Plans Int :=
    numberIn ((sensors.field key).getD .null) ("analysis.sensors." ++ key) (-20) 20000
  let temp ← get "temperature_celsius"
  let passive ← get "passive_celsius"
  let critical ← get "critical_celsius"
  let fan ← get "fan_rpm"
  if passive < temp ∨ critical < passive ∨ 127 < critical ∨ fan < 0 ∨ 20000 < fan then
    invalid "analysis.sensors thresholds are invalid"
  else .ok sensors

/-- Source: `engine/analysis.rs` `validate_pci`. -/
def validatePci (input : Option Json) : Plans Json := do
  let pci ← mergeKnown [("subsystem_vendor_id", .num 4136), ("subsystem_id", .num 2646)] input
    "analysis.pci"
  forFields pci fun key value => discard (numberIn value ("analysis.pci." ++ key) 1 65535)
  .ok pci

/-! ## The arguments -/

/-- The fields of an SMBIOS table: its texts, its numbers and its serial number. -/
structure SmbiosTable where
  kind : Nat
  texts : List (String × String)
  numbers : List (String × String) := []
  serial : Option String := none

def smbiosTables : List SmbiosTable :=
  [{ kind := 0, texts := [("vendor", "bios_vendor"), ("version", "bios_version")] },
    { kind := 1
      texts := [("manufacturer", "system_manufacturer"), ("product", "system_product"),
        ("version", "system_version")]
      serial := some "system" },
    { kind := 2
      texts := [("manufacturer", "board_manufacturer"), ("product", "board_product"),
        ("version", "board_version")]
      serial := some "board" },
    { kind := 3
      texts := [("manufacturer", "chassis_manufacturer"), ("version", "chassis_version"),
        ("asset", "chassis_asset"), ("sku", "chassis_sku")]
      serial := some "chassis" },
    { kind := 4
      texts := [("manufacturer", "processor_manufacturer"), ("version", "processor_version"),
        ("asset", "processor_asset"), ("part", "processor_part"),
        ("sock_pfx", "processor_socket_prefix")]
      numbers := [("max-speed", "processor_max_speed"),
        ("current-speed", "processor_current_speed"), ("processor-family", "processor_family"),
        ("processor-id", "processor_id")]
      serial := some "processor" },
    { kind := 17
      texts := [("manufacturer", "memory_manufacturer"), ("part", "memory_part"),
        ("asset", "memory_asset"), ("bank", "memory_bank"), ("loc_pfx", "memory_locator_prefix")]
      numbers := [("speed", "memory_speed")]
      serial := some "memory" }]

/-- The options of a table. -/
def smbiosOptions (smbios : Json) (uuid : String) (serials : Json) (table : SmbiosTable) :
    List String :=
  ["type=" ++ toString table.kind] ++
    table.texts.filterMap (fun entry =>
      (text smbios entry.2).map fun value => entry.1 ++ "=" ++ escapeProp value) ++
    table.numbers.filterMap (fun entry =>
      (smbios.field entry.2).map fun value => entry.1 ++ "=" ++ value.render) ++
    (if table.kind = 0 then
      ((flag smbios "bios_vm").map fun value => "vm=" ++ toString value).toList else []) ++
    (if table.kind = 1 then ["uuid=" ++ uuid] else []) ++
    (table.serial.map fun kind => "serial=" ++ (text serials kind).getD "").toList

/-- Source: `engine/analysis.rs` `smbios_argv`. -/
def smbiosArgv (smbios : Json) (uuid : String) (serials : Json) : List String :=
  ["-uuid", uuid] ++ smbiosTables.flatMap fun table =>
    let parts := smbiosOptions smbios uuid serials table
    if 1 < parts.length then ["-smbios", joinWith "," parts] else []

/-- The letters of base64. -/
def base64Letters : List Char :=
  "ABCDEFGHIJKLMNOPQRSTUVWXYZabcdefghijklmnopqrstuvwxyz0123456789+/".toList

/-- Source: `engine/analysis.rs` `base64`. -/
def base64 : List Nat → List Char
  | [] => []
  | [a] => [base64Letters.getD (a / 4) '=', base64Letters.getD (a % 4 * 16) '=', '=', '=']
  | [a, b] =>
    [base64Letters.getD (a / 4) '=', base64Letters.getD (a % 4 * 16 + b / 16) '=',
      base64Letters.getD (b % 16 * 4) '=', '=']
  | a :: b :: c :: rest =>
    base64Letters.getD (a / 4) '=' :: base64Letters.getD (a % 4 * 16 + b / 16) '=' ::
      base64Letters.getD (b % 16 * 4 + c / 64) '=' :: base64Letters.getD (c % 64) '=' ::
      base64 rest

/-- Source: `engine/analysis.rs` `escape_machine`. -/
def escapeMachine : Json → String
  | .str text => escapeProp text
  | value => escapeProp value.render

/-- The options of the machine that are taken from the values. -/
def machineOptions (source : Json) (names : List (String × String)) : String :=
  String.join (names.map fun entry => option entry.2 ((source.field entry.1).map escapeMachine))

/-- A safe identifier: a letter or a digit first, then also `_`, `.` and `-`. -/
def isSafe (clone : String) : Bool :=
  (clone.toList.head?.any isAlphanumeric) &&
    clone.toList.all fun c => isAlphanumeric c || c = '_' || c = '.' || c = '-'

/-- The processor model of an analysis profile. -/
def cpuPolicy (cpu : Json) : Plans Unit := do
  let text ← orInvalid (cpu.asStr.filter fun text => text ≠ "" ∧ '\x00' ∉ text.toList)
    "profile.cpu must be a non-empty string"
  let parts := splitAt ',' text
  ensure (!parts.contains "" && parts.contains "kvm=off" && !parts.contains "hypervisor")
    "malware-analysis CPU policy must include kvm=off and omit hypervisor"

/-- The clone of a profile, as it is written. -/
def cloneText (raw : Json) : Plans (Option String) :=
  match raw.field "clone" with
  | none | some .null => .ok none
  | some v => some <$> ascii v "analysis.clone" 64

/-- The seed and the clone of a profile. -/
def identitySource (raw : Json) : Plans (String × Option String) := do
  let seed ← orInvalid ((text raw "identity_seed").filter fun s => s ≠ "" ∧ '\x00' ∉ s.toList)
    "analysis.identity_seed must be a non-empty string"
  let clone ← cloneText raw
  ensure (clone.all isSafe) "analysis.clone must be a safe identifier"
  .ok (seed, clone)

/-- The machines that the analysis profile is for. -/
def supportsAnalysis (machine target : String) : Bool :=
  (machine = "q35" || machine = "pc" || startsWith machine "pc-q35-" ||
    startsWith machine "pc-i440fx-") && startsWith target "x86_64-"

/-- The revision of the patches of the engine. -/
def patchRevision (raw : Json) : Plans String :=
  match raw.field "patch_revision" with
  | none => .ok "machineemu-analysis-1"
  | some v =>
    orInvalid (v.asStr.filter fun text => text ≠ "" ∧ '\x00' ∉ text.toList)
      "analysis.patch_revision must be a non-empty string"

/-- What was stated and checked, with its defaults. -/
structure Stated where
  revision : String
  smbios : Json
  acpi : Json
  descriptors : Json
  sensors : Json
  pci : Json

/-- The checks of what is stated. -/
def stated (raw : Json) : Plans Stated := do
  ensure ((raw.field "collection").all fun v => v.asBool.isSome)
    "analysis.collection must be boolean"
  let revision ← patchRevision raw
  let smbios ← validateSmbios (raw.field "smbios")
  let acpi ← validateAcpi (raw.field "acpi")
  let descriptors ← validateDescriptors (raw.field "device_descriptors")
  let sensors ← validateSensors (raw.field "sensors")
  let pci ← validatePci (raw.field "pci")
  .ok { revision, smbios, acpi, descriptors, sensors, pci }

/-- The part of the payload about the identity. -/
def normalized (raw : Json) (seed : String) (clone : Option String) (s : Stated) : Json :=
  .ofFields [("schema_version", .num 1), ("profile", .str "malware-analysis"),
    ("identity_seed_sha256", .str (seedHash seed)), ("identity", identityDocument seed clone),
    ("clone", cloneValue clone), ("collection", (raw.field "collection").getD (.bool false)),
    ("patch_revision", .str s.revision), ("smbios", s.smbios), ("acpi", s.acpi),
    ("device_descriptors", s.descriptors), ("sensors", s.sensors), ("pci", s.pci)]

/-- The payload for the engine. -/
def payload (profile normalized cpu : Json) (vcpus : Int) : Json :=
  .ofFields [("analysis", normalized),
    ("network", (profile.field "network").getD (.ofFields [("type", .str "user")])),
    ("cpu", cpu), ("vcpu", .num vcpus),
    ("memory", ((profile.field "resources").bind fun v => v.field "memory").getD .null)]

/-- The options of the machine. -/
def suffixOf (payload : Json) (s : Stated) : String :=
  "analysis-profile=on,x-analysis-profile-json-base64=" ++
    String.ofList (base64 (Sha256.bytes payload.render)) ++
    machineOptions s.acpi [("oem_id", "x-oem-id"), ("oem_table_id", "x-oem-table-id"),
      ("oem_revision", "x-oem-revision"), ("creator_id", "x-creator-id"),
      ("creator_revision", "x-creator-revision")] ++
    machineOptions s.sensors [("temperature_celsius", "x-analysis-temp-c"),
      ("passive_celsius", "x-analysis-passive-temp-c"),
      ("critical_celsius", "x-analysis-critical-temp-c"), ("fan_rpm", "x-analysis-fan-rpm")] ++
    machineOptions s.pci [("subsystem_vendor_id", "x-analysis-pci-subsystem-vendor-id"),
      ("subsystem_id", "x-analysis-pci-subsystem-id")]

/-- The checks of a profile of this kind. -/
def validateAnalysis (raw : Json) (machine target : String) : Plans Unit := do
  discard (object raw "profile.analysis")
  onlyKeys (some raw) ["enabled", "profile", "identity_seed", "clone", "collection",
    "patch_revision", "smbios", "acpi", "device_descriptors", "sensors", "pci"]
    "profile.analysis"
  ensure (flag raw "enabled" = some true && text raw "profile" = some "malware-analysis")
    "profile.analysis requires enabled=true and profile=malware-analysis"
  ensure (supportsAnalysis machine target)
    "malware-analysis requires an x86_64 q35 or pc machine"

/-- Source: `engine/analysis.rs` `plan`. -/
def analysisPlan (profile : Json) (machine target : String) (vcpus : Int) :
    Plans (Option AnalysisPlan) := do
  match profile.field "analysis" with
  | none => .ok none
  | some raw =>
    validateAnalysis raw machine target
    let (seed, clone) ← identitySource raw
    let s ← stated raw
    let cpu := (profile.field "cpu").getD (.str "host,kvm=off")
    cpuPolicy cpu
    let payload := payload profile (normalized raw seed clone s) cpu vcpus
    .ok (some
      { machineSuffix := suffixOf payload s
        argv := smbiosArgv s.smbios (systemUuid (effectiveSeed seed clone)) (serials seed)
        payload })

/-! ## What is planned -/

section Planned

variable {profile : Json} {machine target : String} {vcpus : Int}

theorem field_payload (profile normalized cpu : Json) (vcpus : Int) :
    (payload profile normalized cpu vcpus).field "analysis" = some normalized := by
  simp [payload, Json.ofFields, Json.setField]

theorem field_normalized (raw : Json) (seed : String) (clone : Option String) (s : Stated) :
    (normalized raw seed clone s).field "identity" = some (identityDocument seed clone) := by
  simp [normalized, Json.ofFields, Json.setField]

theorem supports_of_validateAnalysis {raw : Json}
    (h : validateAnalysis raw machine target = .ok ()) : supportsAnalysis machine target = true := by
  unfold validateAnalysis at h
  simp only [bind_eq_ok, ensure_eq_ok] at h
  obtain ⟨_, -, _, -, _, -, hsupports⟩ := h
  exact hsupports

theorem analysisPlan_eq_none (h : analysisPlan profile machine target vcpus = .ok none) :
    profile.field "analysis" = none := by
  unfold analysisPlan at h
  split at h
  · assumption
  · simp [bind_eq_ok] at h

/-- What is checked of a profile that is planned, and its identity in the payload. -/
theorem analysisPlan_eq_some {plan : AnalysisPlan}
    (h : analysisPlan profile machine target vcpus = .ok (some plan)) :
    ∃ raw seed clone, profile.field "analysis" = some raw ∧
      identitySource raw = .ok (seed, clone) ∧ supportsAnalysis machine target = true ∧
      cpuPolicy ((profile.field "cpu").getD (.str "host,kvm=off")) = .ok () ∧
      (plan.payload.field "analysis").bind (fun v => v.field "identity") =
        some (identityDocument seed clone) := by
  unfold analysisPlan at h
  split at h
  · cases h
  · rename_i raw hraw
    simp only [bind_eq_ok] at h
    obtain ⟨_, hvalid, ⟨seed, clone⟩, hsource, s, -, _, hcpu, h⟩ := h
    cases h
    refine ⟨raw, seed, clone, hraw, hsource, supports_of_validateAnalysis hvalid, hcpu, ?_⟩
    rw [field_payload, Option.bind_some, field_normalized]

end Planned

end MachineEmu.Planner
