import MachineEmu.Api.Supervisor

/-!
# Lifecycle requests

What the API does for one lifecycle request while it holds the lock of the instance.

* `startInstanceWithLock` — a start with its helpers, its publication and its rollback.
* `lifecycleAction` — stop, pause, resume and reset.
* `removeIfDisposable`, `removeInstanceRequest` — removal.
-/

namespace MachineEmu

open Lib.Prog Act

/-! ## Removal -/

/-- Source: `api/instances.rs` `remove_if_disposable`. -/
def removeIfDisposable (i : Id) (r : Option Id) (reason : String) : Act Unit :=
  (queryE fun s =>
    match s.workspace.instanceRow i, s.documents i with
    | none, _ => .ok false
    | some _, none => .error (.io "instance.yaml" "not found")
    | some _, some document => .ok (document.plan.isSome && document.autoRemove)).bind
    fun disposable =>
      if disposable then
        (removeInstance i).bind fun _ =>
        modify .quiet fun s =>
          { s with workspace := s.workspace.recordInstanceTombstone i r reason }
      else ret ()

/-- Source: `api/lifecycle.rs` `start_instance_with_lock`, the end of a failed start. -/
def disposeFailedStart (i : Id) : Act Unit :=
  (queryE fun s =>
    match s.workspace.activeRun i, s.workspace.instance_ i with
    | some _, _ => .ok false
    | none, .error e => .error e
    | none, .ok current =>
      .ok (current.state = .created || current.state = .stopped || current.state = .error)).bind
    fun idle => if idle then removeIfDisposable i none "start_failed" else ret ()

/-! ## Start -/

/-- Source: `api/lifecycle.rs` `rollback_failed_start`. -/
def rollbackFailedStart (i r o : Id) (running : AsyncRunningInstance)
    (helpers : List ManagedProcess) (e : Error) : Act Unit :=
  (stopInstanceAsync i running .rollback).attempt.bind fun stopped =>
  (match stopped with
    | .ok _ => ret ()
    | .error _ =>
      (match running.process with
        | some p => ignore ((tryWait p).bind fun exit =>
            match exit with
            | some _ => ret ()
            | none => (terminate p).bind fun _ => (waitProcess p).bind fun _ => ret ())
        | none => ret ()).bind fun _ =>
      (ignore (finishRun i r .failed .rollback)).bind fun _ => ignore (markError i)).bind fun _ =>
  (stopAll helpers).bind fun _ =>
  (ignore (failOperation o e.message)).bind fun _ =>
  (readInstance i).attempt.bind fun found =>
    match found with
    | .error _ => ret ()
    | .ok current =>
      (query fun s => s.workspace.runRow r).bind fun run =>
        publishState current run "start_failed"

/-- A start that fails after QEMU is up is rolled back, and its connection dropped. -/
def failStart {α : Type} (i r o : Id) (running : AsyncRunningInstance)
    (helpers : List ManagedProcess) (e : Error) : Act α :=
  (rollbackFailedStart i r o running helpers e).bind fun _ =>
  (dropConnection (some running)).bind fun _ => throw e

/-- Run a step after QEMU is up. -/
def orRollback {α : Type} (i r o : Id) (running : AsyncRunningInstance)
    (helpers : List ManagedProcess) (body : Act α) : Act α :=
  body.attempt.bind fun result =>
    match result with
    | .ok a => ret a
    | .error e => failStart i r o running helpers e

/-- The helpers spawned before QEMU, in order; when one fails the earlier ones are stopped. -/
def spawnBefore (i r : Id) : List HelperSpec → List ManagedProcess →
    Act (List ManagedProcess)
  | [], helpers => ret helpers
  | spec :: rest, helpers =>
    (spawnHelper i r spec).attempt.bind fun result =>
      match result with
      | .ok p => spawnBefore i r rest (helpers ++ [p])
      | .error e => (stopAll helpers).bind fun _ => throw e

/-- The Bluetooth simulator must attach to QEMU; each query for it first looks for the live run.
Source: `api/helpers.rs` `wait_bluetooth_attached`. -/
def awaitAttached (i : Id) (spec : HelperSpec) (p : ManagedProcess) : Act Unit :=
  if spec.name = "bluetooth" then
    (tryWait p).bind fun exit =>
      match exit with
      | some _ => throw (.process "Bluetooth simulator exited before attaching to QEMU")
      | none => (ignore (liveRun i)).bind fun _ => outside
  else ret ()

/-- The helpers spawned after QEMU, in order. -/
def spawnAfter (i r o : Id) (running : AsyncRunningInstance) : List HelperSpec →
    List ManagedProcess → Act (List ManagedProcess)
  | [], helpers => ret helpers
  | spec :: rest, helpers =>
    (orRollback i r o running helpers (spawnHelper i r spec)).bind fun p =>
    (awaitAttached i spec p).attempt.bind fun attached =>
      match attached with
      | .ok _ => spawnAfter i r o running rest (helpers ++ [p])
      | .error e =>
        (ignore (terminateGracefully p)).bind fun _ =>
        (rollbackFailedStart i r o running helpers e).bind fun _ =>
        (dropProcess p).bind fun _ =>
        (dropConnection (some running)).bind fun _ => throw e

/-- The body of a start request. Source: `api/dto.rs` `StartInstance`, with its identifiers
parsed. -/
structure StartInstance where
  operationId : Id
  runId : Id
  idempotencyKey : String
  inputJson : String

/-- The launch plan of the stored domain document. -/
def launchPlan (i : Id) : Act LaunchSpec :=
  queryE fun s =>
    match s.documents i with
    | none => .error (.notFound "instance" i.asStr)
    | some document =>
      match document.plan with
      | none => .error (.process ("instance " ++ i.asStr ++
          " has no complete domain document; run machineemu-migrate before starting it"))
      | some plan => plan

/-- The helper of the legacy plan, spawned without a readiness check. -/
def spawnLegacyHelper (i r : Id) : Option (List String) → Act (List ManagedProcess)
  | none => ret []
  | some argv =>
    (ofExcept (Id.new "run" (r.asStr ++ "-helper"))).bind fun helperId =>
    (spawnSystemdScope (.helper i r) helperId argv).bind fun p => ret [p]

/-- Publish the run: its helper rows and the completed operation. -/
def publication (i r o : Id) (helpers : List ManagedProcess) : Act Instance :=
  (forEach helpers fun p => (processStart p).bind fun _ => ret ()).bind fun _ =>
  (modify .quiet fun s =>
    { s with workspace :=
        s.workspace.saveRunHelpers r (helpers.map fun p => (p.runId, p.identity)) }).bind fun _ =>
  (readInstance i).bind fun result =>
  (completeOperation o (.state result.state)).bind fun _ =>
  ret result

/-- Only published, fully initialised runs outlive the daemon. -/
def preserve (i : Id) : Act Unit :=
  modify .quiet fun s =>
    { s with
      supervisors := Function.update s.supervisors i
        ((s.supervisors i).map RunSupervisor.preserveOnDrop) }

/-- The command line of QEMU: it starts paused when helpers must attach first. -/
def startArgv (plan : LaunchSpec) : List String :=
  if (plan.helpers.any fun spec => spec.afterQemu) && !plan.argv.contains "-S" then
    plan.argv ++ ["-S"]
  else plan.argv

/-- The part of a start from the spawn of QEMU to the installed supervisor. -/
def startWithHelpers (i : Id) (input : StartInstance) (plan : LaunchSpec)
    (helpers : List ManagedProcess) : Act Unit :=
  (startInstanceAsync
    { operationId := input.operationId, runId := input.runId, instanceId := i,
      idempotencyKey := input.idempotencyKey, inputJson := input.inputJson,
      argv := startArgv plan, qmpSocket := plan.qmpSocket,
      completeOperation := false }).attempt.bind fun started =>
    match started with
    | .error e => (stopAll helpers).bind fun _ => throw e
    | .ok running =>
      (spawnAfter i input.runId input.operationId running
        (plan.helpers.filter fun spec => spec.afterQemu) helpers).bind fun helpers =>
      (if plan.helpers.any fun spec => spec.afterQemu then
        (orRollback i input.runId input.operationId running helpers
          (resumeInstanceAsync i)).bind fun current =>
        publishStateFields current (some input.runId) (some .running) "resume"
      else ret ()).bind fun _ =>
      (orRollback i input.runId input.operationId running helpers
        (publication i input.runId input.operationId helpers)).bind fun _ =>
      (install i input.runId (some running) helpers).bind fun _ =>
      (preserve i).bind fun _ =>
      modify .quiet fun s => { s with spawnTails := s.spawnTails ++ [.unread i] }

/-- Source: `api/lifecycle.rs` `start_instance_with_lock`, under the instance lock. -/
def startInstanceWithLock (i : Id) (input : StartInstance) : Act Unit :=
  (launchPlan i).bind fun plan =>
  -- paths, writable files and the VNC port
  outside.bind fun _ =>
  (spawnLegacyHelper i input.runId plan.helperArgv).bind fun helpers =>
  (spawnBefore i input.runId (plan.helpers.filter fun spec => !spec.afterQemu) helpers).bind
    fun helpers => startWithHelpers i input plan helpers

/-! ## Stop, pause, resume and reset -/

/-- The actions of `lifecycle_action`. -/
inductive LifecycleAction where
  | stop | pause | resume | reset
  deriving DecidableEq

/-- The reason an action is published with. -/
def LifecycleAction.asStr : LifecycleAction → String
  | stop => "stop"
  | pause => "pause"
  | resume => "resume"
  | reset => "reset"

/-- The connection an action uses: the installed one, or a recovered one, which is installed. -/
def liveConnection (i : Id) : Act (Option AsyncRunningInstance) :=
  (connection i).bind fun connected =>
    match connected with
    | some running => ret (some running)
    | none =>
      (recoverInstanceRunAsync i).bind fun recovered =>
        match recovered with
        | none => ret none
        | some running =>
          (recoverRunHelpers running.runId).bind fun helpers =>
          (install i running.runId (some running) helpers).bind fun _ => ret (some running)

/-- The workspace part of an action. -/
def perform (i : Id) (running : AsyncRunningInstance) : LifecycleAction → Act Instance
  | .stop => stopInstanceAsync i running .stop
  | .pause => pauseInstanceAsync i
  | .resume => resumeInstanceAsync i
  | .reset => (resetInstanceAsync i).bind fun _ => readInstance i

/-- What follows an action: a stop tears the entry down, a failed action drops a recovered
connection, a successful one is published. -/
def concludeAction (i : Id) (running : AsyncRunningInstance) (action : LifecycleAction) :
    Except Error Instance → Act Unit
  | .error e =>
    (if running.recovered.isSome then disconnect i running.runId else ret ()).bind fun _ => throw e
  | .ok current =>
    (if action = .stop then teardown i running.runId else ret ()).bind fun _ =>
    (query fun s => s.workspace.runRow running.runId).bind fun run =>
    (publishState current run action.asStr).bind fun _ =>
      if action = .stop then removeIfDisposable i (some running.runId) "operator_stop" else ret ()

/-- Source: `api/lifecycle.rs` `lifecycle_action_with_lock`. -/
def lifecycleAction (i : Id) (action : LifecycleAction) : Act Unit :=
  (liveConnection i).bind fun connected =>
    match connected with
    | some running =>
      (perform i running action).attempt.bind fun result => concludeAction i running action result
    | none =>
      (readInstance i).bind fun current =>
        if action = .stop ∧ (current.state = .stopped ∨ current.state = .error) then ret ()
        else throw (.process "instance has no live run")

/-- Source: `api/lifecycle.rs` `restart_instance`: a stop of a live run and a start under one
lock. -/
def restartInstance (i : Id) (input : StartInstance) : Act Unit :=
  (readInstance i).bind fun current =>
  (queryE fun s =>
    match s.documents i with
    | none => .error (.io "instance.yaml" "not found")
    | some document =>
      if document.plan.isNone then .error (.process "instance has no saved launch plan")
      else if document.autoRemove then .error (.process "disposable instances cannot restart")
      else .ok ()).bind fun _ =>
  (if current.state = .running ∨ current.state = .paused then lifecycleAction i .stop
   else if current.state = .created ∨ current.state = .stopped ∨ current.state = .error then ret ()
   else throw (.process ("cannot restart instance in state " ++ current.state.asStr))).bind fun _ =>
  startInstanceWithLock i input

end MachineEmu
