import MachineEmu.Runtime.Lifecycle

/-!
# One resource owner per run

The supervisor table of the daemon: at most one entry for each instance, which names its run and
owns the QMP connection, the helpers and the display process. Callers hold the instance lock.

* `install`, `disconnect`, `teardown` — the operations on the table.
* `qmp` — the shared connection, recovered when the entry has none.
* `spawnHelper`, `stopAllChecked` — the helper processes of a run.
-/

namespace MachineEmu

open Lib.Prog Act

/-! ## Helpers -/

/-- Source: `api/helpers.rs` `stop_all_checked`: every helper is ended, from the last one, and the
first error is kept. -/
def stopAllChecked : List ManagedProcess → Act Unit
  | helpers => go helpers.reverse none
where
  go : List ManagedProcess → Option Error → Act Unit
    | [], none => ret ()
    | [], some e => throw e
    | p :: rest, first =>
      (terminateGracefully p).attempt.bind fun result =>
      (dropProcess p).bind fun _ =>
        match result with
        | .ok _ => go rest first
        | .error e => go rest (first.or (some e))

/-- Source: `api/helpers.rs` `stop_all`. -/
def stopAll (helpers : List ManagedProcess) : Act Unit := ignore (stopAllChecked helpers)

/-- Wait until the readiness socket of a helper appears. -/
def awaitReady (name : Id) (p : ManagedProcess) : Act Unit :=
  ask fun r =>
    if r.ok then
      (tryWait p).bind fun exit =>
        match exit with
        | some _ => throw (.process ("helper " ++ name.asStr ++ " exited during startup"))
        | none => ret ()
    else
      (ignore (terminateGracefully p)).bind fun _ =>
        throw (.process ("helper " ++ name.asStr ++ " did not become ready"))

/-- Source: `api/helpers.rs` `spawn`. -/
def spawnHelper (i r : Id) (spec : HelperSpec) : Act ManagedProcess :=
  (ofExcept (Id.new "helper" spec.name)).bind fun name =>
  if spec.argv = [] then
    throw (.process ("helper " ++ Error.quoted name.asStr ++ " has no command"))
  else
    -- the instance directory and the readiness socket are checked here
    outside.bind fun _ =>
    (ofExcept (Id.new "run" (r.asStr ++ "-" ++ name.asStr))).bind fun helperId =>
    (spawnSystemdScope (.helper i r) helperId spec.argv).bind fun p =>
      match spec.readySocket with
      | none => ret p
      | some _ => (owning p (awaitReady name p)).bind fun _ => ret p

/-! ## The table -/

/-- Source: `api/supervisor.rs` `connection`. -/
def connection (i : Id) : Act (Option AsyncRunningInstance) :=
  query fun s => (s.supervisors i).bind RunSupervisor.running

/-- The entry a run may use: its own, or a new one. -/
def ownEntry (s : World) (i r : Id) : Option RunSupervisor :=
  match s.supervisors i with
  | none => some (RunSupervisor.new r)
  | some owner => if owner.runId = r then some owner else none

/-- Drop the process handle of a connection. -/
def dropConnection : Option AsyncRunningInstance → Act Unit
  | some running => dropOption running.process
  | none => ret ()

/-- Source: `api/supervisor.rs` `install`. An entry of another run refuses the installation, and
what was to be installed is dropped; an entry of the same run drops what it held before. -/
def install (i r : Id) (running : Option AsyncRunningInstance) (helpers : List ManagedProcess) :
    Act Unit :=
  (step (.install i r) fun s =>
    match ownEntry s i r with
    | none => (none, s)
    | some owner =>
      (some owner, { s with supervisors := Function.update s.supervisors i (some
        { owner with running, helpers := if helpers = [] then owner.helpers else helpers }) })).bind
    fun previous =>
      match previous with
      | none =>
        (dropAll helpers).bind fun _ => (dropConnection running).bind fun _ =>
          throw (.activeRun i.asStr)
      | some owner =>
        (dropConnection owner.running).bind fun _ =>
          if helpers = [] then ret () else dropAll owner.helpers

/-- Source: `api/supervisor.rs` `disconnect`; the connection that is dropped owns the process
handle. -/
def disconnect (i r : Id) : Act Unit :=
  (step (.disconnect i r) fun s =>
    match s.supervisors i with
    | none => (none, s)
    | some owner =>
      if owner.runId = r then
        (owner.running,
          { s with supervisors := Function.update s.supervisors i (some
            { owner with running := none }) })
      else (none, s)).bind dropConnection

/-- Source: `api/supervisor.rs` `teardown`. The entry of another run is left alone. -/
def teardown (i r : Id) : Act Unit :=
  (step (.teardown i r) fun s =>
    match s.supervisors i with
    | none => (none, s)
    | some owner =>
      if owner.runId = r then
        (some owner, { s with supervisors := Function.update s.supervisors i none })
      else (none, s)).bind fun owner =>
    match owner with
    | none => ret ()
    | some owner =>
      (dropOption owner.display).bind fun _ =>
      (stopAllChecked owner.helpers).attempt.bind fun stopped =>
      (dropConnection owner.running).bind fun _ => ofExcept stopped

/-- Source: `api/supervisor.rs` `qmp`. -/
def qmp (run : Run) : Act AsyncRunningInstance :=
  (connection run.instanceId).bind fun connected =>
    (match connected with
      | some running => ret running
      | none =>
        (AsyncRunningInstance.recover run).bind fun running =>
        (install run.instanceId run.runId (some running) []).bind fun _ => ret running).bind
    fun running =>
      if running.runId = run.runId then ret running
      else throw (.process "QMP request belongs to a stale run")

/-- Source: `AsyncRunningInstance::poll_exit`. -/
def pollExit (running : AsyncRunningInstance) : Act (Option ProcessExit) :=
  match running.process with
  | some p => tryWait p
  | none =>
    query fun s =>
      match running.recovered with
      | some identity =>
        if s.alive identity then none else some { code := none, success := false }
      | none => none

/-- Source: `storage/runs.rs` `recover_run_helpers`. -/
def recoverRunHelpers (r : Id) : Act (List ManagedProcess) :=
  (query fun s => s.workspace.runHelpers.filter fun row => row.runId = r).bind adoptEach
where
  adoptEach : List RunHelper → Act (List ManagedProcess)
    | [] => ret []
    | row :: rest =>
      (query fun s => s.alive row.identity).bind fun matches_ =>
        if matches_ then
          (ofExcept (Id.new "helper" row.helperId.asStr)).bind fun id =>
          (adopt id row.identity).bind fun p =>
          (adoptEach rest).bind fun ps => ret (p :: ps)
        else adoptEach rest

end MachineEmu
