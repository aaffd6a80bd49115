import MachineEmu.Runtime.World

/-!
# Managed processes

Spawning, probing and ending processes, as `runtime/process.rs` does it: in a systemd scope with a
plain fallback, and with the destructor that ends a process its handle still owns.

* `spawnSystemdScope`, `terminate`, `terminateGracefully`, `dropProcess` — the operations.
* `systemdScopeName` — the unit of a run id; it is not injective.
-/

namespace MachineEmu

open Lib.Prog Act

/-! ## Scope names -/

/-- The character a unit name has for a character of the run id. -/
def scopeChar (c : Char) : Char :=
  if ('a' ≤ c ∧ c ≤ 'z') ∨ ('0' ≤ c ∧ c ≤ '9') ∨ c = '_' ∨ c = '-' then c else '-'

/-- Source: `systemd_scope_name`. -/
def systemdScopeName (r : Id) : String :=
  "machineemu-" ++ String.ofList (r.asStr.toList.map scopeChar) ++ ".scope"

/-! ## Observing and ending a process -/

/-- Source: `ManagedProcess::try_wait`. A handle without a child only knows that the process is
gone. -/
def tryWait (p : ManagedProcess) : Act (Option ProcessExit) :=
  query fun s =>
    if p.child then s.exitOf p.identity
    else if s.alive p.identity then none else some { code := none, success := true }

/-- The process has exited, by itself if nothing ended it before: what a blocking wait returns
from. -/
def reap (p : ManagedProcess) (exit : ProcessExit) : Act ProcessExit :=
  step .terminate fun s =>
    (if p.child then ((s.exitProcess p.identity exit).exitOf p.identity).getD exit
     else { code := none, success := true }, s.exitProcess p.identity exit)

/-- Source: `ManagedProcess::wait`. -/
def waitProcess (p : ManagedProcess) : Act ProcessExit :=
  ask fun r =>
    if p.child then reap p r.exit
    else if r.timedOut then
      queryE fun s =>
        if s.alive p.identity then .error (.process "adopted helper did not exit")
        else .ok { code := none, success := true }
    else reap p r.exit

/-- Signal one process. -/
def killProcess (p : ManagedProcess) : Act Unit :=
  ask fun r =>
    if r.ok then modify .terminate fun s => s.exitProcess p.identity .killed
    else throw r.error

/-- Source: `ManagedProcess::terminate`. A handle with a scope first stops the unit by name. -/
def terminate (p : ManagedProcess) : Act Unit :=
  let signal : Act Unit :=
    if p.child then killProcess p
    else (tryWait p).bind fun exit =>
      match exit with
      | some _ => ret ()
      | none => killProcess p
  match p.systemdScope with
  | none => signal
  | some unit =>
    ask fun r =>
      match r.systemctl with
      | none => throw (.spawn "systemctl" "No such file or directory (os error 2)")
      | some true => modify .terminate fun s => s.stopUnit unit
      | some false => signal

/-- Source: `ManagedProcess::terminate_gracefully`. -/
def terminateGracefully (p : ManagedProcess) : Act Unit :=
  (tryWait p).bind fun exit =>
    match exit with
    | some _ => ret ()
    | none =>
      -- SIGTERM, then two seconds of grace
      outside.bind fun _ =>
        ask fun r =>
          if r.timedOut then (terminate p).bind fun _ => (waitProcess p).bind fun _ => ret ()
          else (reap p r.exit).bind fun _ => ret ()

/-- Source: `impl Drop for ManagedProcess`. -/
def dropProcess (p : ManagedProcess) : Act Unit :=
  if p.preserveOnDrop then ret ()
  else if p.systemdScope.isSome then
    (ignore (terminate p)).bind fun _ => ignore (waitProcess p)
  else if p.child then
    (tryWait p).bind fun exit =>
      match exit with
      | some _ => ret ()
      | none => modify .terminate fun s => s.exitProcess p.identity .killed
  else ret ()

/-- Drop an optional handle. -/
def dropOption : Option ManagedProcess → Act Unit
  | some p => dropProcess p
  | none => ret ()

/-- Drop a list of handles. -/
def dropAll (ps : List ManagedProcess) : Act Unit := forEach ps dropProcess

/-- Run a task that owns the handle; the handle is dropped when the task fails. -/
def owning {α : Type} (p : ManagedProcess) (body : Act α) : Act α :=
  body.attempt.bind fun result =>
    match result with
    | .ok a => ret a
    | .error e => (dropProcess p).bind fun _ => throw e

/-! ## Spawning -/

/-- Source: `ManagedProcess::spawn_inner`. -/
def spawnPlain (owner : Owner) (r : Id) (argv : List String) : Act ManagedProcess :=
  if argv = [] then throw (.process "empty process argv")
  else ask fun reply =>
    if reply.ok then
      step (.spawn owner) fun s =>
        ({ identity := s.freshIdentity reply.identity, child := true, adoptedStart := none,
           preserveOnDrop := false, systemdScope := none, runId := r },
          s.spawn owner none none reply.identity)
    else throw reply.error

/-- Why a scope did not start a process. -/
inductive ScopeFailure where
  | emptyArgv
  | missing
  | spawn (detail : String)
  | exited (unit : String)
  | timedOut
  | invalidPid (contents : String)
  | noIdentity
  | io (detail : String)

/-- The error of a scope failure. Source: `spawn_systemd_scope_inner`. -/
def ScopeFailure.toError : ScopeFailure → Error
  | emptyArgv => .process "empty process argv"
  | missing => .executableNotFound "systemd-run"
  | spawn detail => .spawn "systemd-run" detail
  | exited unit => .process ("systemd scope " ++ unit ++ " exited before QEMU published its pid")
  | timedOut => .process "timed out waiting for scoped QEMU pid"
  | invalidPid contents => .process ("invalid scoped QEMU pid " ++ Error.quoted contents)
  | noIdentity => .process "cannot read process identity for scoped QEMU pid"
  | io detail => .io "pidfile" detail

/-- The failures after which the process is spawned without a scope; the source tests the text of
the error. Source: `spawn_systemd_scope`. -/
def ScopeFailure.fallsBack : ScopeFailure → Bool
  | missing | exited _ | timedOut | invalidPid _ => true
  | emptyArgv | spawn _ | noIdentity | io _ => false

/-- `systemd-run --scope --unit`: systemd refuses a unit in use, and then the child exits at once.
The second component says whether the command runs. -/
def launchScope (owner : Owner) (r : Id) (accepted : Bool) (offered : ProcessIdentity) :
    Act (ManagedProcess × Bool) :=
  step (.spawn owner) fun s =>
    let unit := systemdScopeName r
    let runs := accepted && !s.unitInUse unit
    let handle : ManagedProcess :=
      { identity := s.freshIdentity offered, child := true, adoptedStart := none,
        preserveOnDrop := false, systemdScope := some unit, runId := r }
    ((handle, runs),
      if runs then s.spawn owner (some unit) none offered
      else s.spawn .launcher none (some { code := some 1, success := false }) offered)

/-- Wait for the pid file of the scope. -/
def awaitPid (p : ManagedProcess) (runs : Bool) :
    Act (Except ScopeFailure ManagedProcess) :=
  ask fun r =>
    match (if runs then r.pidfile else .absent) with
    | .published =>
      query fun s =>
        if s.alive p.identity then
          .ok { p with adoptedStart := some p.identity.processStart }
        else .error .noIdentity
    | .invalid contents => ret (.error (.invalidPid contents))
    | .absent =>
      (tryWait p).bind fun exit =>
        match exit with
        | some _ => ret (.error (.exited (systemdScopeName p.runId)))
        | none => (ignore (terminate p)).bind fun _ => ret (.error .timedOut)
    | .unreadable detail =>
      (ignore (terminate p)).bind fun _ => ret (.error (.io detail))

/-- Source: `ManagedProcess::spawn_systemd_scope_inner`. The handle is dropped on every failure. -/
def spawnSystemdScopeInner (owner : Owner) (r : Id) (argv : List String) :
    Act (Except ScopeFailure ManagedProcess) :=
  if argv = [] then ret (.error .emptyArgv)
  else ask fun reply =>
    match reply.scope with
    | .missing => ret (.error .missing)
    | .failed detail => ret (.error (.spawn detail))
    | .launched accepted =>
      (launchScope owner r accepted reply.identity).bind fun launched =>
        (awaitPid launched.1 launched.2).bind fun result =>
          match result with
          | .ok p => ret (.ok p)
          | .error failure =>
            (dropProcess launched.1).bind fun _ => ret (.error failure)

/-- Source: `ManagedProcess::spawn_systemd_scope`. -/
def spawnSystemdScope (owner : Owner) (r : Id) (argv : List String) : Act ManagedProcess :=
  (spawnSystemdScopeInner owner r argv).bind fun result =>
    match result with
    | .ok p => ret p
    | .error failure =>
      if failure.fallsBack then spawnPlain owner r argv else throw failure.toError

/-- Source: `ManagedProcess::process_start`. -/
def processStart (p : ManagedProcess) : Act Nat :=
  queryE fun s =>
    match p.adoptedStart with
    | some start => .ok start
    | none =>
      if s.alive p.identity then .ok p.identity.processStart
      else .error (.process "cannot read process identity for pid")

/-- Source: `ManagedProcess::adopt`. -/
def adopt (r : Id) (identity : ProcessIdentity) : Act ManagedProcess :=
  queryE fun s =>
    if s.alive identity then
      .ok { identity, child := false, adoptedStart := some identity.processStart,
            preserveOnDrop := true, systemdScope := none, runId := r }
    else .error (.process "helper process identity no longer matches")

end MachineEmu
