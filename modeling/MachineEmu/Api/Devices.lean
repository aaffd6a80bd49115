import MachineEmu.Domain
import MachineEmu.Lib.Json
import Mathlib.Data.List.Infix

/-!
# Live devices

Devices are attached to a running machine and detached from it by commands to QEMU's monitor: a
backend first, then the device in front of it, and the other way round.

* `managedId`, `pciBus`, `mediaPath` — the checks of a request.
* `attach`, `detach` — the commands, as a dialog.
* `Monitor`, `Runs` — what QEMU has, and what a dialog with it may lead to.
-/

namespace MachineEmu.Devices

open Lib

/-- `RuntimeError`, as far as it is made here. -/
inductive Fault where
  | process (text : String)
  | id (error : Error)
  | qmp (text : String)

/-- Source: `api/devices.rs` `invalid`. -/
def invalid (message : String) : Fault := .process message

/-- Source: `api/devices.rs` `AttachDevice`. -/
structure AttachDevice where
  deviceId : String
  hostbus : Option Nat := none
  hostaddr : Option Nat := none
  path : Option String := none
  readOnly : Option Bool := none
  model : Option String := none
  mac : Option String := none
  bus : Option String := none

/-! ## Checks -/

/-- The managed prefix of a kind. -/
def managedPrefix : String → Option String
  | "usb-host" => some "me-usbh-"
  | "usb-image" => some "me-usbi-"
  | "iso" => some "me-iso-"
  | "network" => some "me-net-"
  | "usbredir" => some "me-redir-"
  | _ => none

/-- Source: `api/devices.rs` `managed_id`. -/
def managedId (kind value : String) : Except Fault Id :=
  match Id.new "device" value with
  | .error error => .error (.id error)
  | .ok id =>
    match managedPrefix kind with
    | none => .error (invalid "unknown device kind")
    | some start =>
      if ¬ start.toList <+: id.asStr.toList ∨ id.asStr.utf8ByteSize = start.utf8ByteSize then
        .error (invalid "device ID must use its managed prefix")
      else if 48 < id.asStr.utf8ByteSize then .error (invalid "device ID is too long")
      else .ok id

/-- Source: `api/devices.rs` `pci_bus`. -/
def pciBus (value : Option String) : Except Fault String :=
  match value with
  | none =>
    .error (invalid "bus is required for PCI hotplug; reserve a PCIe root port at VM launch")
  | some bus =>
    if "pcie-root-port-".toList <+: bus.toList ∧
        bus.toList.all fun c => ('a' ≤ c && c ≤ 'z') || ('0' ≤ c && c ≤ '9') || c = '-' then
      .ok bus
    else .error (invalid "bus must name a reserved pcie-root-port-* device")

/-- `std::path::Component`. -/
inductive Component where
  | rootDir
  | curDir
  | parentDir
  | normal (name : String)

/-- `matches!(part, Component::Normal(_))`. -/
def Component.isNormal : Component → Bool
  | normal _ => true
  | _ => false

/-- A part of a path between two slashes. -/
def component (part : String) : Option Component :=
  if part = "" ∨ part = "." then none
  else if part = ".." then some .parentDir
  else some (.normal part)

/-- `Path::components`. -/
def components (path : String) : List Component :=
  match (path.toList.splitOn '/').map String.ofList with
  | [] => []
  | first :: rest =>
    (if first = "" then [.rootDir] else if first = "." then [.curDir]
      else (component first).toList) ++ rest.filterMap component

/-- `Path::extension`. -/
def extension (path : String) : Option String :=
  match (components path).getLast? with
  | some (.normal name) =>
    match name.toList.reverse.span (· ≠ '.') with
    | (ext, _ :: _ :: _) => some (String.ofList ext.reverse)
    | _ => none
  | _ => none

/-- A file that exists: its canonical path, if that is UTF-8, and whether it is a regular file. -/
structure MediaFile where
  path : Option String
  regular : Bool

/-- The workspace root and what the file system makes of a path. -/
structure Media where
  root : String
  canonicalize : String → Option MediaFile

/-- Source: `api/devices.rs` `media_path`. -/
def mediaPath (media : Media) (value : String) (iso : Bool) : Except Fault MediaFile :=
  if value = "" then .error (invalid "media path is empty")
  else if iso = true ∧ extension value ≠ some "iso" then
    .error (invalid "CD media must have an .iso extension")
  else if ['/'] <+: value.toList ∨ (components value).all Component.isNormal then
    let path := if ['/'] <+: value.toList then value else media.root ++ "/media/" ++ value
    match media.canonicalize path with
    | none => .error (invalid "media file does not exist")
    | some file =>
      if file.regular then .ok file else .error (invalid "media path must name a regular file")
  else .error (invalid "relative media paths must stay inside workspace/media")

/-- Source: `api/devices.rs` `file_name`. -/
def fileName (path : Option String) : Except Fault String :=
  match path with
  | some text => .ok text
  | none => .error (invalid "media path is not UTF-8")

/-- A MAC address: six octets of two hexadecimal digits. -/
def isMac (mac : String) : Bool :=
  mac.utf8ByteSize = 17 &&
    (mac.toList.splitOn ':').length = 6 &&
    (mac.toList.splitOn ':').all fun octet => octet.length = 2 && octet.all isHexDigit

/-! ## Dialogs with the monitor -/

/-- A command of QMP. -/
structure Command where
  name : String
  arguments : Json

/-- A request in progress, up to its next await: a command or the wait for the removal of a
device. -/
inductive Dialog (α : Type) where
  | done (a : α)
  | fail (fault : Fault)
  | execute (command : Command) (k : Except Fault Json → Dialog α)
  | wait (device : String) (k : Except Fault Bool → Dialog α)

/-- `json!`. -/
def object (fields : List (String × Json)) : Json :=
  fields.foldl (fun j field => j.setField field.1 field.2) (.obj [])

/-- What was returned is the result. -/
def Dialog.reply : Except Fault Json → Dialog Json
  | .ok value => done value
  | .error fault => fail fault

/-- Go on with a value, or fail. -/
def Dialog.try_ {α β : Type} (value : Except Fault α) (k : α → Dialog β) : Dialog β :=
  match value with
  | .ok a => k a
  | .error fault => fail fault

/-- Send the commands whatever they answer, then fail. -/
def Dialog.undo (fault : Fault) : List Command → Dialog Json
  | [] => fail fault
  | command :: commands => execute command fun _ => undo fault commands

/-- A device in front of its backend: when the device cannot be added, the commands undo what was
there before it. -/
def Dialog.withBackend (backend device : Command) (undoing : List Command) : Dialog Json :=
  execute backend fun
    | .error fault => fail fault
    | .ok _ =>
      execute device fun
        | .ok value => done value
        | .error fault => undo fault undoing

def deviceAdd (fields : List (String × Json)) : Command := ⟨"device_add", object fields⟩

def deviceDel (id : String) : Command := ⟨"device_del", object [("id", .str id)]⟩

def blockdevAdd (node : String) (readOnly : Bool) (filename : String) : Command :=
  ⟨"blockdev-add", object [("node-name", .str node), ("driver", .str "raw"),
    ("read-only", .bool readOnly),
    ("file", object [("driver", .str "file"), ("filename", .str filename)])]⟩

def blockdevDel (node : String) : Command := ⟨"blockdev-del", object [("node-name", .str node)]⟩

def netdevAdd (backend : String) : Command :=
  ⟨"netdev_add", object [("type", .str "user"), ("id", .str backend)]⟩

def netdevDel (backend : String) : Command := ⟨"netdev_del", object [("id", .str backend)]⟩

def chardevAdd (chardev socket : String) : Command :=
  ⟨"chardev-add", object [("id", .str chardev), ("backend", object [("type", .str "socket"),
    ("data", object [("addr", object [("type", .str "unix"),
      ("data", object [("path", .str socket)])]), ("server", .bool true),
      ("wait", .bool false)])])]⟩

def chardevRemove (chardev : String) : Command :=
  ⟨"chardev-remove", object [("id", .str chardev)]⟩

/-! ## Attach and detach -/

/-- The session of a live machine: the media and the path of the socket for USB redirection, if it
is UTF-8. -/
structure DeviceSession where
  media : Media
  usbredirSocket : Option String

open Dialog

def attachUsbHost (id : String) (request : AttachDevice) : Dialog Json :=
  match request.hostbus, request.hostaddr with
  | none, _ => fail (invalid "hostbus is required")
  | some _, none => fail (invalid "hostaddr is required")
  | some bus, some addr =>
    execute (deviceAdd [("driver", .str "usb-host"), ("id", .str id), ("hostbus", .num bus),
      ("hostaddr", .num addr)]) reply

/-- The path of a request in the media. -/
def requestedMedia (session : DeviceSession) (request : AttachDevice) (iso : Bool) :
    Except Fault MediaFile :=
  match request.path with
  | none => .error (invalid "path is required")
  | some path => mediaPath session.media path iso

def attachUsbImage (session : DeviceSession) (id : String) (request : AttachDevice) :
    Dialog Json :=
  try_ (requestedMedia session request false) fun file =>
  try_ (fileName file.path) fun filename =>
  let node := id ++ "-node"
  withBackend (blockdevAdd node (request.readOnly.getD false) filename)
    (deviceAdd [("driver", .str "usb-storage"), ("id", .str id), ("drive", .str node)])
    [blockdevDel node]

/-- The name of the file is looked at when the controller is there. -/
def attachIso (session : DeviceSession) (id : String) (request : AttachDevice) : Dialog Json :=
  try_ (requestedMedia session request true) fun file =>
  let controller := id ++ "-ctl"
  let node := id ++ "-node"
  try_ (pciBus (some (request.bus.getD "pcie-root-port-iso"))) fun bus =>
  execute (deviceAdd [("driver", .str "virtio-scsi-pci"), ("id", .str controller),
      ("bus", .str bus)]) fun
    | .error fault => fail fault
    | .ok _ =>
      try_ (fileName file.path) fun filename =>
      execute (blockdevAdd node true filename) fun
        | .error fault => undo fault [deviceDel controller]
        | .ok _ =>
          execute (deviceAdd [("driver", .str "scsi-cd"), ("id", .str id),
              ("bus", .str (controller ++ ".0")), ("drive", .str node)]) fun
            | .ok value => done value
            | .error fault => undo fault [blockdevDel node, deviceDel controller]

def attachNetwork (id : String) (request : AttachDevice) : Dialog Json :=
  let model := request.model.getD "virtio-net-pci"
  if model ≠ "virtio-net-pci" ∧ model ≠ "e1000" ∧ model ≠ "rtl8139" then
    fail (invalid "unsupported network card model")
  else if request.mac.any fun mac => !isMac mac then fail (invalid "invalid MAC address")
  else
    try_ (pciBus request.bus) fun bus =>
    let backend := id ++ "-netdev"
    let device := [("driver", .str model), ("id", .str id), ("netdev", .str backend),
      ("bus", .str bus)]
    withBackend (netdevAdd backend)
      (deviceAdd (device ++ (request.mac.map fun mac => ("mac", Json.str mac)).toList))
      [netdevDel backend]

def attachUsbredir (session : DeviceSession) (id : String) : Dialog Json :=
  if id ≠ "me-redir-0" then
    fail (invalid "USB redirection supports device ID me-redir-0")
  else
    let chardev := id ++ "-char"
    try_ (fileName session.usbredirSocket) fun socket =>
    withBackend (chardevAdd chardev socket)
      (deviceAdd [("driver", .str "usb-redir"), ("id", .str id), ("chardev", .str chardev)])
      [chardevRemove chardev]

/-- Source: `api/devices.rs` `attach`. -/
def attach (session : DeviceSession) (kind : String) (id : Id) (request : AttachDevice) :
    Dialog Json :=
  match kind with
  | "usb-host" => attachUsbHost id.asStr request
  | "usb-image" => attachUsbImage session id.asStr request
  | "iso" => attachIso session id.asStr request
  | "network" => attachNetwork id.asStr request
  | "usbredir" => attachUsbredir session id.asStr
  | _ => fail (invalid "unknown device kind")

/-- The command that removes the backend of a device. -/
def cleanup (kind id : String) : Except Fault (Option Command) :=
  match kind with
  | "usb-image" | "iso" => .ok (some (blockdevDel (id ++ "-node")))
  | "network" => .ok (some (netdevDel (id ++ "-netdev")))
  | "usbredir" => .ok (some (chardevRemove (id ++ "-char")))
  | "usb-host" => .ok none
  | _ => .error (invalid "unknown device kind")

/-- The controller of an iso goes after its device; whether it does is not looked at, unless the
wait fails. -/
def detachController (kind id : String) : Dialog Bool :=
  if kind = "iso" then
    execute (deviceDel (id ++ "-ctl")) fun
      | .error _ => done true
      | .ok _ =>
        wait (id ++ "-ctl") fun
          | .error fault => fail fault
          | .ok _ => done true
  else done true

/-- Source: `api/devices.rs` `detach`. -/
def detach (id : Id) (kind : String) : Dialog Bool :=
  execute (deviceDel id.asStr) fun
    | .error fault => fail fault
    | .ok _ =>
      wait id.asStr fun
        | .error fault => fail fault
        | .ok false => done false
        | .ok true =>
          try_ (cleanup kind id.asStr) fun
            | none => detachController kind id.asStr
            | some command =>
              execute command fun
                | .error fault => fail fault
                | .ok _ => detachController kind id.asStr

/-- A request of a client: the device's name is checked before anything is done.
Source: `api/devices.rs` `attach_device`. -/
def attachDevice (session : DeviceSession) (kind : String) (request : AttachDevice) :
    Dialog Json :=
  try_ (managedId kind request.deviceId) fun id => attach session kind id request

/-! ## The monitor -/

/-- What QEMU has by name. -/
inductive Object where
  | device (id : String)
  | node (name : String)
  | netdev (id : String)
  | chardev (id : String)
  deriving DecidableEq

namespace Command

/-- The text of an argument. -/
def argument (command : Command) (name : String) : Option String :=
  (command.arguments.field name).bind Json.asStr

/-- What a command adds. -/
def created (command : Command) : Option Object :=
  match command.name with
  | "device_add" => (command.argument "id").map .device
  | "blockdev-add" => (command.argument "node-name").map .node
  | "netdev_add" => (command.argument "id").map .netdev
  | "chardev-add" => (command.argument "id").map .chardev
  | _ => none

/-- What a command removes. -/
def deleted (command : Command) : Option Object :=
  match command.name with
  | "device_del" => (command.argument "id").map .device
  | "blockdev-del" => (command.argument "node-name").map .node
  | "netdev_del" => (command.argument "id").map .netdev
  | "chardev-remove" => (command.argument "id").map .chardev
  | _ => none

end Command

/-- What QEMU has, the devices that it asked the guest to let go, and the `DEVICE_DELETED` events
that no call has looked at. -/
structure Monitor where
  objects : List Object := []
  leaving : List String := []
  events : List String := []

namespace Monitor

/-- An object goes. -/
def remove (m : Monitor) (o : Object) : Monitor :=
  { m with objects := m.objects.filter (· ≠ o) }

/-- A command takes effect. A device only goes when the guest lets it go. -/
def apply (m : Monitor) (command : Command) : Monitor :=
  match command.created, command.deleted with
  | some o, _ => { m with objects := o :: m.objects }
  | none, some (.device id) => { m with leaving := id :: m.leaving }
  | none, some o => m.remove o
  | none, none => m

/-- The names are there once: what is added is new, and what is removed is there. -/
def Admits (m : Monitor) (command : Command) : Prop :=
  (∀ o, command.created = some o → o ∉ m.objects) ∧
    ∀ o, command.deleted = some o → o ∈ m.objects

/-- What happens without a command: the guest lets a device go, or keeps it, and events are lost. -/
inductive Idle (m : Monitor) : Monitor → Prop where
  | release (id : String) (h : id ∈ m.leaving) :
    Idle m { m.remove (.device id) with
      leaving := m.leaving.filter (· ≠ id), events := m.events ++ [id] }
  | keep (id : String) : Idle m { m with leaving := m.leaving.filter (· ≠ id) }
  | lose (events : List String) (h : events.Sublist m.events) : Idle m { m with events }

end Monitor

/-- A command with its reply, and whether it took effect. -/
structure Exchange where
  command : Command
  reply : Except Fault Json
  effect : Bool

/-- Whether the reply is a success. -/
def Exchange.accepted (ex : Exchange) : Bool := ex.reply.toBool

/-- What a dialog may lead to: the exchanges, the result and what QEMU has then. A command that
succeeds took effect; one that fails may have too, when its reply is lost. A wait succeeds with an
event of the device, the first in the queue. -/
inductive Runs {α : Type} :
    Dialog α → Monitor → List Exchange → Except Fault α → Monitor → Prop where
  | done (a : α) (m : Monitor) : Runs (.done a) m [] (.ok a) m
  | fail (fault : Fault) (m : Monitor) : Runs (.fail fault) m [] (.error fault) m
  | idle (p : Dialog α) (m m' m'' : Monitor) (exchanges : List Exchange) (r : Except Fault α)
      (h : m.Idle m') (hruns : Runs p m' exchanges r m'') : Runs p m exchanges r m''
  | execute (command : Command) (k : Except Fault Json → Dialog α) (m m' : Monitor)
      (reply : Except Fault Json) (effect : Bool) (exchanges : List Exchange) (r : Except Fault α)
      (hreply : reply.toBool = true → effect = true) (hadmits : effect = true → m.Admits command)
      (hruns : Runs (k reply) (if effect then m.apply command else m) exchanges r m') :
    Runs (.execute command k) m (⟨command, reply, effect⟩ :: exchanges) r m'
  | seen (id : String) (k : Except Fault Bool → Dialog α) (m m' : Monitor)
      (before after : List String) (exchanges : List Exchange) (r : Except Fault α)
      (hevents : m.events = before ++ id :: after) (hbefore : id ∉ before)
      (hruns : Runs (k (.ok true)) { m with events := after } exchanges r m') :
    Runs (.wait id k) m exchanges r m'
  | unseen (id : String) (k : Except Fault Bool → Dialog α) (m m' : Monitor)
      (exchanges : List Exchange) (r : Except Fault α) (hevents : id ∉ m.events)
      (hruns : Runs (k (.ok false)) { m with events := [] } exchanges r m') :
    Runs (.wait id k) m exchanges r m'
  | failed (id : String) (k : Except Fault Bool → Dialog α) (m m' : Monitor) (fault : Fault)
      (exchanges : List Exchange) (r : Except Fault α)
      (hruns : Runs (k (.error fault)) m exchanges r m') :
    Runs (.wait id k) m exchanges r m'

end MachineEmu.Devices
