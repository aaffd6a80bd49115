import Mathlib.Logic.Function.Basic
import MachineEmu.Lib.Service
import MachineEmu.Storage.Workspace

/-!
# The state of the daemon and its processes

What one request reads and writes: the workspace database and the stored documents, which survive
a crash; the processes of the host, which survive it too; and the volatile tables of the daemon.

* `World` — the state; `World.crash` — what a crash of the daemon leaves of it.
* `World.alive` — the probe of `/proc/<pid>/stat`, exact on the process table.
* `World.spawn`, `World.exitProcess`, `World.stopUnit` — what happens to processes.
* `Label`, `Reply` — the labels of the acts and the replies of the outside world.
-/

namespace MachineEmu

/-! ## Processes -/

/-- Source: `runtime/process.rs` `ProcessExit`. -/
structure ProcessExit where
  code : Option Int
  success : Bool

/-- The exit of a process that was killed. -/
def ProcessExit.killed : ProcessExit := { code := none, success := false }

/-- What a process was started as. The kernel does not record it; statements about processes do. -/
inductive Owner where
  | qemu (instanceId runId : Id)
  | helper (instanceId runId : Id)
  | launcher
  | other
  deriving DecidableEq

/-- A process of the host: its identity, the systemd unit it runs in and its exit, once it has
exited. -/
structure Proc where
  identity : ProcessIdentity
  owner : Owner
  unit : Option String
  exit : Option ProcessExit

/-- Source: `runtime/process.rs` `ManagedProcess`. `child` says that the handle owns a `Child`;
`identity` is the process the kernel knows it by. -/
structure ManagedProcess where
  identity : ProcessIdentity
  child : Bool
  adoptedStart : Option Nat
  preserveOnDrop : Bool
  systemdScope : Option String
  runId : Id

/-- Source: `runtime/lifecycle_async.rs` `AsyncRunningInstance`. -/
structure AsyncRunningInstance where
  process : Option ManagedProcess
  runId : Id
  recovered : Option ProcessIdentity

/-! ## Launch specifications -/

/-- Source: `launch.rs` `HelperSpec`. -/
structure HelperSpec where
  name : String
  argv : List String
  afterQemu : Bool
  readySocket : Option String

/-- Source: `launch.rs` `PreparationSpec`. -/
structure PreparationSpec where
  diskBacking : String
  backingFormat : String
  diskSize : Option String
  nvramSeed : Option String
  tpmSeed : Option String

/-- Source: `launch.rs` `LaunchSpec`. -/
structure LaunchSpec where
  argv : List String
  vncAuto : Bool
  qmpSocket : String
  stdout : Option String
  stderr : Option String
  preparation : Option PreparationSpec
  helperArgv : Option (List String)
  helpers : List HelperSpec

/-- The stored document of an instance: whether it is removed when its run ends, and what its
domain document, if it has one, renders to. -/
structure StoredDocument where
  autoRemove : Bool
  plan : Option (Except Error LaunchSpec)

/-! ## The tables of the daemon -/

/-- Source: `api/supervisor.rs` `RunSupervisor`. -/
structure RunSupervisor where
  runId : Id
  running : Option AsyncRunningInstance
  helpers : List ManagedProcess
  display : Option ManagedProcess
  watching : Bool

/-- Source: `RunSupervisor::new`. -/
def RunSupervisor.new (r : Id) : RunSupervisor :=
  { runId := r, running := none, helpers := [], display := none, watching := false }

/-- Source: `ManagedProcess::preserve_on_drop`, `AsyncRunningInstance::preserve_on_drop`, for what
an entry owns. -/
def RunSupervisor.preserveOnDrop (owner : RunSupervisor) : RunSupervisor :=
  { owner with
    running := owner.running.map fun running =>
      { running with process := running.process.map fun p => { p with preserveOnDrop := true } }
    helpers := owner.helpers.map fun p => { p with preserveOnDrop := true } }

/-- The two tasks that `run_events::spawn` starts for a run, each until it returns. -/
structure Watch where
  run : Run
  processWatcher : Bool
  qmpReader : Bool
  deriving DecidableEq

/-- The unlocked tail of an accepted start: it reads the active run of the instance and then
spawns the tasks for it. -/
inductive SpawnTail where
  | unread (instanceId : Id)
  | read (run : Run)

/-- Source: `api/events.rs` `StateEvent`. -/
structure StateEvent where
  instanceId : Id
  runId : Option Id
  state : InstanceState
  revision : Int
  runStatus : Option RunStatus
  reason : String

/-- The database, the documents, the processes of the host and the tables of the daemon. -/
structure World where
  workspace : Workspace
  documents : Id → Option StoredDocument
  procs : List Proc
  supervisors : Id → Option RunSupervisor
  watches : List Watch
  spawnTails : List SpawnTail
  stateEvents : List StateEvent

/-- A new workspace on a host without processes. -/
def World.empty : World :=
  { workspace := {}, documents := fun _ => none, procs := [], supervisors := fun _ => none,
    watches := [], spawnTails := [], stateEvents := [] }

/-! ## Labels and replies -/

/-- Who finishes a run. -/
inductive Finisher where
  | start | recover | remove | stop | watcher | rollback
  deriving DecidableEq

/-- The label of an act. -/
inductive Label where
  | quiet
  | transition (instanceId : Id) (next : InstanceState)
  | observe (instanceId : Id)
  | operation
  | reconcileRun (runId : Id)
  | recordRun (instanceId runId : Id)
  | finishRun (instanceId runId : Id) (status : RunStatus) (who : Finisher)
  | createInstance (instanceId : Id)
  | deleteInstance (instanceId : Id)
  | spawn (owner : Owner)
  | terminate
  | install (instanceId runId : Id)
  | disconnect (instanceId runId : Id)
  | teardown (instanceId runId : Id)
  | publish
  | exited (identity : ProcessIdentity)
  | tailRead (instanceId : Id)
  | tailSpawn (instanceId : Id)
  | watchEnd
  | elsewhere
  deriving DecidableEq

/-- How the attempt to run `systemd-run` goes. -/
inductive ScopeLaunch where
  | missing
  | failed (detail : String)
  | launched (accepted : Bool)

/-- What the pid file of a scope shows before the deadline. -/
inductive Pidfile where
  | published
  | invalid (contents : String)
  | absent
  | unreadable (detail : String)

/-- A reply of the outside world; an act reads the fields it needs. -/
structure Reply where
  ok : Bool := true
  error : Error := .process ""
  timedOut : Bool := false
  status : Option String := some "running"
  identity : ProcessIdentity := ⟨0, 0⟩
  exit : ProcessExit := ⟨some 0, true⟩
  scope : ScopeLaunch := .missing
  pidfile : Pidfile := .published
  systemctl : Option Bool := some true
  now : Nat := 0

/-- A request or a part of one. -/
abbrev Act (α : Type) := Lib.Prog World Reply Label Error α

/-- The processes evolve: each keeps its identity, owner and unit, an exit is final, and new ones
are appended with identities not used before. -/
def Evolves (ps qs : List Proc) : Prop :=
  ∃ (f : Proc → Proc) (new : List Proc),
    qs = ps.map f ++ new ∧
    (∀ p, (f p).identity = p.identity ∧ (f p).owner = p.owner ∧ (f p).unit = p.unit ∧
      (∀ exit, p.exit = some exit → (f p).exit = some exit)) ∧
    (∀ p ∈ new, p.identity ∉ ps.map Proc.identity) ∧
    (new.map Proc.identity).Nodup

namespace World

variable (s : World)

/-! ## What happens to processes -/

/-- The identities of all processes so far. -/
def identities : List ProcessIdentity := s.procs.map Proc.identity

/-- Whether a process with this identity is running. Source: `runtime/process.rs`
`process_identity_matches`; a zombie counts as exited. -/
def alive (identity : ProcessIdentity) : Bool :=
  s.procs.any fun p => p.identity = identity && p.exit.isNone

/-- The exit of a process, if it has exited. -/
def exitOf (identity : ProcessIdentity) : Option ProcessExit :=
  match s.procs.find? fun p => p.identity = identity with
  | some p => p.exit
  | none => none

/-- The identity of a new process: the one offered unless it was used before. -/
def freshIdentity (offered : ProcessIdentity) : ProcessIdentity :=
  if offered ∈ s.identities then
    ⟨offered.pid, 1 + (s.identities.map ProcessIdentity.processStart).sum⟩
  else offered

/-- Whether a running process uses this unit. -/
def unitInUse (unit : String) : Bool :=
  s.procs.any fun p => p.unit = some unit && p.exit.isNone

/-- A new process. -/
def spawn (owner : Owner) (unit : Option String) (exit : Option ProcessExit)
    (offered : ProcessIdentity) : World :=
  { s with procs := s.procs ++ [{ identity := s.freshIdentity offered, owner, unit, exit }] }

/-- A running process exits. -/
def exitProcess (identity : ProcessIdentity) (exit : ProcessExit) : World :=
  { s with procs := s.procs.map fun p =>
      if p.identity = identity ∧ p.exit = none then { p with exit := some exit } else p }

/-- `systemctl stop <unit>`: every running process of the unit is killed. -/
def stopUnit (unit : String) : World :=
  { s with procs := s.procs.map fun p =>
      if p.unit = some unit ∧ p.exit = none then { p with exit := some .killed } else p }

/-- The state with other tables in the database. -/
def withWorkspace (w : Workspace) : World := { s with workspace := w }

/-! ## Crash -/

/-- What a crash leaves: the database, the documents and the processes. -/
def crash : World :=
  { s with supervisors := fun _ => none, watches := [], spawnTails := [], stateEvents := [] }

end World

/-! ## Acts -/

namespace Act

open Lib.Prog

/-- Read the state. -/
def query {α : Type} (f : World → α) : Act α := step .quiet fun s => (f s, s)

/-- Read the state; the result may be an error. -/
def queryE {α : Type} (f : World → Except Error α) : Act α := stepE .quiet fun s => (f s, s)

/-- Run a statement on the database. -/
def statement {α : Type} (l : Label) (f : World → Except Error α × Workspace) : Act α :=
  stepE l fun s => ((f s).1, s.withWorkspace (f s).2)

/-- Change the state. -/
def modify (l : Label) (f : World → World) : Act Unit := step l fun s => ((), f s)

/-- A call outside the daemon that may fail. -/
def outside : Act Unit :=
  ask fun r => if r.ok then ret () else throw r.error

/-- Run the task for each element in turn. -/
def forEach {α : Type} : List α → (α → Act Unit) → Act Unit
  | [], _ => ret ()
  | a :: rest, f => (f a).bind fun _ => forEach rest f

/-- Run a task and forget its error (`let _ = …`). -/
def ignore {α : Type} (p : Act α) : Act Unit := p.attempt.bind fun _ => ret ()

end Act

end MachineEmu
