import MachineEmu.Runtime.Process

/-!
# The asynchronous lifecycle of an instance

Recover, start, pause, resume, reset and stop of one instance, and its removal, as the workspace
runs them: each persisted step is one act, so that a crash or an exit may fall between any two.

* `recoverInstanceRunAsync`, `startInstanceAsync`, `stopInstanceAsync` — the long procedures.
* `pauseInstanceAsync`, `resumeInstanceAsync`, `resetInstanceAsync` — the QMP commands.
* `reconcileActiveRuns`, `reconcileOperations`, `removeInstance` — the workspace's own recovery.
-/

namespace MachineEmu

open Lib.Prog Act

/-! ## Statements as acts -/

/-- Read the row of an instance. -/
def readInstance (i : Id) : Act Instance := queryE fun s => s.workspace.instance_ i

def transitionInstance (i : Id) (next : InstanceState) : Act Instance :=
  statement (.transition i next) fun s => s.workspace.transitionInstance i next

def reconcileRun (r : Id) : Act Run :=
  statement (.reconcileRun r) fun s => s.workspace.reconcileRun s.alive r

def finishRun (i r : Id) (status : RunStatus) (who : Finisher) : Act Run :=
  statement (.finishRun i r status who) fun s => s.workspace.finishRun r status

def observeRunStatus (run : Run) (status : String) : Act Instance :=
  statement (.observe run.instanceId) fun s =>
    s.workspace.observeRunStatus s.alive run status

def failOperation (o : Id) (reason : String) : Act Operation :=
  statement .operation fun s => s.workspace.failOperation o reason

def completeOperation (o : Id) (result : OperationResult) : Act Operation :=
  statement .operation fun s => s.workspace.completeOperation o result

/-- Move the instance to `error` if a run may be in progress in its state. -/
def markError (i : Id) : Act Unit :=
  (readInstance i).bind fun current =>
    if current.state.inFlight then (transitionInstance i .error).bind fun _ => ret ()
    else ret ()

/-- A dead run is finished as failed and its instance moved to `error`. -/
def finishDeadRun (i r : Id) (who : Finisher) : Act Unit :=
  (finishRun i r .failed who).bind fun _ => markError i

/-! ## Published states -/

/-- Append a state event. Source: `api/events.rs` `publish_state_fields`. -/
def publishStateFields (current : Instance) (r : Option Id) (status : Option RunStatus)
    (reason : String) : Act Unit :=
  modify .publish fun s =>
    { s with stateEvents := s.stateEvents ++
        [{ instanceId := current.instanceId, runId := r, state := current.state,
           revision := current.revision, runStatus := status, reason }] }

/-- Source: `api/events.rs` `publish_state`. -/
def publishState (current : Instance) (run : Option Run) (reason : String) : Act Unit :=
  publishStateFields current (run.map Run.runId) (run.map Run.status) reason

/-! ## Recover -/

/-- Source: `AsyncRunningInstance::recover`. -/
def AsyncRunningInstance.recover (run : Run) : Act AsyncRunningInstance :=
  (queryE fun s =>
    if s.alive run.identity then .ok ()
    else .error (.process "recorded process is no longer alive")).bind fun _ =>
  outside.bind fun _ =>
  ret { process := none, runId := run.runId, recovered := some run.identity }

/-- The status of a reply to `query-status`. -/
def statusOf : Option String → Except Error String
  | some status => .ok status
  | none => .error (.qmp "query-status response has no status")

/-- The QMP command `query-status`. -/
def queryStatus : Act String :=
  ask fun r => if r.ok then ofExcept (statusOf r.status) else throw r.error

/-- The QMP part of a recovery. -/
def reconnectRun (run : Run) : Act AsyncRunningInstance :=
  (AsyncRunningInstance.recover run).bind fun running =>
  queryStatus.bind fun status =>
  (observeRunStatus run status).bind fun _ =>
  ret running

/-- Source: `recover_instance_run_async`. -/
def recoverInstanceRunAsync (i : Id) : Act (Option AsyncRunningInstance) :=
  (query fun s => s.workspace.activeRun i).bind fun active =>
    match active with
    | none => ret none
    | some active =>
      (reconcileRun active.runId).bind fun run =>
        if run.status = .running then (reconnectRun run).bind fun running => ret (some running)
        else (finishDeadRun i run.runId .recover).bind fun _ => ret none

/-- Source: `live_run`: the current run only when its recorded process is alive. -/
def liveRun (i : Id) : Act (Option Run) :=
  (query fun s => s.workspace.activeRun i).bind fun active =>
    match active with
    | none => ret none
    | some active =>
      (reconcileRun active.runId).bind fun run =>
        ret (if run.status = .running then some run else none)

/-! ## Start -/

/-- Source: `runtime/lifecycle.rs` `StartRequest`; the callbacks publish what they are given. -/
structure StartRequest where
  operationId : Id
  runId : Id
  instanceId : Id
  idempotencyKey : String
  inputJson : String
  argv : List String
  qmpSocket : String
  completeOperation : Bool

/-- The start's own reconciliation of the active run, before anything else. -/
def admitStart (i : Id) : Act Unit :=
  (query fun s => s.workspace.activeRun i).bind fun active =>
    match active with
    | none => ret ()
    | some active =>
      (reconcileRun active.runId).bind fun reconciled =>
        if reconciled.status = .running then throw (.activeRun i.asStr)
        else finishDeadRun i active.runId .start

/-- The operation of a start, which must be accepted. -/
def beginStart (request : StartRequest) : Act Operation :=
  ask fun reply =>
    (statement .operation fun s =>
      s.workspace.beginOperation request.operationId request.instanceId "start"
        request.idempotencyKey request.inputJson reply.now).bind fun operation =>
      if operation.status = .accepted then ret operation
      else throw (.process ("start operation " ++ operation.operationId.asStr ++ " is already " ++
        operation.status.asStr))

/-- The event of a state the start reaches. Source: `start_instance_with_lock`, `on_state`. -/
def onState (r : Id) (current : Instance) : Act Unit :=
  publishStateFields current (some r)
    (if current.state = .running ∨ current.state = .paused then some .running else none)
    (if current.state = .error then "start_failed" else "start")

/-- Record the spawned process as the run of the instance. -/
def recordSpawned (request : StartRequest) (p : ManagedProcess) : Act Run :=
  (processStart p).bind fun _ =>
  ask fun reply =>
    statement (.recordRun request.instanceId request.runId) fun s =>
      s.workspace.recordRun request.runId request.instanceId p.identity request.qmpSocket reply.now

/-- From the recorded run to the final state: QMP must answer and QEMU must still run. -/
def negotiate (request : StartRequest) (operationId : Id) (p : ManagedProcess) : Act Unit :=
  outside.bind fun _ =>
  queryStatus.bind fun status =>
  (ofExcept (InstanceState.fromQmp status)).bind fun target =>
  (tryWait p).bind fun exit =>
    match exit with
    | some _ => throw (.process "QEMU exited during QMP negotiation")
    | none =>
      (transitionInstance request.instanceId target).bind fun final =>
      (onState request.runId final).bind fun _ =>
        if request.completeOperation then
          (completeOperation operationId (.state target)).bind fun _ => ret ()
        else ret ()

/-- The state before the process. -/
def enterStarting (request : StartRequest) : Act Unit :=
  (transitionInstance request.instanceId .starting).bind fun starting =>
  onState request.runId starting

/-- The body of the start. The Boolean says whether the run was recorded; until the end the process
handle owns the rollback, so every failure drops it. -/
def launch (request : StartRequest) (operationId : Id) :
    Act (Bool × Except Error AsyncRunningInstance) :=
  (((enterStarting request).bind fun _ =>
      spawnSystemdScope (.qemu request.instanceId request.runId) request.runId
        request.argv).attempt).bind fun spawned =>
    match spawned with
    | .error e => ret (false, .error e)
    | .ok p =>
      (owning p (recordSpawned request p)).attempt.bind fun recorded =>
        match recorded with
        | .error e => ret (false, .error e)
        | .ok _ =>
          (owning p (negotiate request operationId p)).attempt.bind fun negotiated =>
            match negotiated with
            | .error e => ret (true, .error e)
            | .ok _ =>
              ret (true, .ok { process := some p, runId := request.runId, recovered := none })

/-- The rollback of a start that failed after its operation began. -/
def cleanupStart (request : StartRequest) (operationId : Id) (recorded : Bool) (e : Error) :
    Act Unit :=
  (ignore (failOperation operationId e.message)).bind fun _ =>
  (if recorded then ignore (finishRun request.instanceId request.runId .failed .rollback)
   else ret ()).bind fun _ =>
  (readInstance request.instanceId).attempt.bind fun found =>
    match found with
    | .error _ => ret ()
    | .ok current =>
      if current.state = .starting ∨ current.state = .running ∨ current.state = .paused then
        (transitionInstance request.instanceId .error).attempt.bind fun failed =>
          match failed with
          | .ok state => onState request.runId state
          | .error _ => ret ()
      else if current.state = .error then onState request.runId current
      else ret ()

/-- Source: `start_instance_async`. -/
def startInstanceAsync (request : StartRequest) : Act AsyncRunningInstance :=
  (admitStart request.instanceId).bind fun _ =>
  (beginStart request).bind fun operation =>
  (launch request operation.operationId).bind fun started =>
    match started with
    | (_, .ok running) => ret running
    | (recorded, .error e) =>
      (cleanupStart request operation.operationId recorded e).bind fun _ => throw e

/-! ## Pause, resume and reset -/

/-- The error of an action the lifecycle does not allow. -/
def invalidTransition (current : Instance) (target : String) : Error :=
  .invalidTransition current.state.asStr target

/-- Source: `pause_instance_async`. -/
def pauseInstanceAsync (i : Id) : Act Instance :=
  (readInstance i).bind fun current =>
    if current.state ≠ .running then throw (invalidTransition current "paused")
    else outside.bind fun _ => transitionInstance i .paused

/-- Source: `resume_instance_async`. -/
def resumeInstanceAsync (i : Id) : Act Instance :=
  (readInstance i).bind fun current =>
    if current.state ≠ .paused then throw (invalidTransition current "running")
    else outside.bind fun _ => transitionInstance i .running

/-- Source: `reset_instance_async`. -/
def resetInstanceAsync (i : Id) : Act Unit :=
  (readInstance i).bind fun current =>
    if current.state ≠ .running ∧ current.state ≠ .paused then
      throw (invalidTransition current "running")
    else outside

/-! ## Stop -/

/-- Wait for an owned process after `quit`; it is ended when it does not exit in time. -/
def stopOwned (p : ManagedProcess) (quit : Bool) : Act RunStatus :=
  (if quit then ret () else ignore (terminate p)).bind fun _ =>
  ask fun r =>
    (if r.timedOut then (ignore (terminate p)).bind fun _ => waitProcess p
     else reap p r.exit).bind fun exit =>
      ret (if exit.success then .exited else .failed)

/-- Wait for an adopted process after a successful `quit`. -/
def stopRecovered (identity : ProcessIdentity) (quit : Except Error Unit) : Act RunStatus :=
  (ofExcept quit).bind fun _ =>
  ask fun r =>
    if r.timedOut then
      queryE fun s =>
        if s.alive identity then
          .error (.process "recovered process did not exit after QMP quit")
        else .ok .exited
    else
      (modify .terminate fun s => s.exitProcess identity r.exit).bind fun _ => ret .exited

/-- The end of the run's process, and the status it gives the run. -/
def endRun (running : AsyncRunningInstance) : Act RunStatus :=
  outside.attempt.bind fun quit =>
    match running.process with
    | some p => stopOwned p quit.isOk
    | none =>
      match running.recovered with
      | some identity => stopRecovered identity quit
      | none => throw (.process "run has no process owner")

/-- Source: `stop_instance_async`. -/
def stopInstanceAsync (i : Id) (running : AsyncRunningInstance) (who : Finisher) :
    Act Instance :=
  (readInstance i).bind fun current =>
    if current.state ≠ .running ∧ current.state ≠ .paused ∧ current.state ≠ .stopping then
      throw (invalidTransition current "stopped")
    else
      (if current.state ≠ .stopping then
        (transitionInstance i .stopping).bind fun _ => ret () else ret ()).bind fun _ =>
      (endRun running).bind fun status =>
      (finishRun i running.runId status who).bind fun _ =>
      transitionInstance i (if status = .failed then .error else .stopped)

/-! ## Removal -/

/-- Source: `finish_instance_deletion`. -/
def finishInstanceDeletion (i : Id) : Act Bool :=
  (query fun s => decide (i ∈ s.workspace.pendingInstanceDeletions)).bind fun pending =>
    if pending then
      outside.bind fun _ =>
      (modify .quiet fun s =>
        { s with documents := Function.update s.documents i none }).bind fun _ =>
      (modify .quiet fun s =>
        { s with workspace := s.workspace.clearPendingDeletion i }).bind fun _ => ret true
    else ret false

/-- The reconciliation of the active run in a removal: a dead run is finished, and the lifecycle
is set to `stopped` whatever it was. -/
def reconcileForRemoval (i : Id) : Act Unit :=
  (query fun s => s.workspace.activeRun i).bind fun active =>
    match active with
    | none => ret ()
    | some active =>
      (reconcileRun active.runId).bind fun reconciled =>
        if reconciled.status = .running then throw (.activeRun i.asStr)
        else
          (finishRun i active.runId .failed .remove).bind fun _ =>
          modify (.transition i .stopped) fun s =>
            { s with workspace := s.workspace.setLifecycle i .stopped }

/-- The checks a removal makes after the reconciliation. -/
def checkRemovable (i : Id) : Act Unit :=
  (readInstance i).bind fun current =>
    if current.state ≠ .created ∧ current.state ≠ .stopped ∧ current.state ≠ .error then
      throw (.process ("instance " ++ Error.quoted i.asStr ++
        " must be stopped before removal (state " ++ current.state.debug ++ ")"))
    else
      queryE fun s =>
        let snapshots := (s.workspace.snapshots.rows.filter fun row => row.instanceId = i).length
        if snapshots = 0 then .ok ()
        else .error (.process ("instance " ++ Error.quoted i.asStr ++ " still has " ++
          toString snapshots ++ " snapshot(s)"))

/-- Source: `remove_instance`. -/
def removeInstance (i : Id) : Act Unit :=
  (finishInstanceDeletion i).bind fun finished =>
    if finished then ret ()
    else
      (readInstance i).bind fun _ =>
      (reconcileForRemoval i).bind fun _ =>
      (checkRemovable i).bind fun _ =>
      (modify (.deleteInstance i) fun s =>
        { s with workspace := s.workspace.deleteInstance i }).bind fun _ =>
      (finishInstanceDeletion i).bind fun _ => ret ()

/-! ## Reconciliation of the whole workspace -/

/-- Reconcile each run in turn. -/
def reconcileEach : List Id → Act (List Run)
  | [] => ret []
  | r :: rest =>
    (reconcileRun r).bind fun run => (reconcileEach rest).bind fun runs => ret (run :: runs)

/-- Source: `reconcile_active_runs`. -/
def reconcileActiveRuns : Act (List Run) :=
  (query fun s => (s.workspace.runs.rows.filter fun run => run.status.active).map Run.runId).bind
    fun ids =>
  (reconcileEach ids).bind fun runs =>
  (forEach runs fun run =>
    if run.status = .uncertain then markError run.instanceId else ret ()).bind fun _ =>
  ret runs

/-- Complete or fail one interrupted operation. -/
def reconcileOperation (o : Id) : Act Unit :=
  (queryE fun s => s.workspace.operation o).bind fun row =>
  (queryE fun s => s.workspace.recoveredResult row).bind fun completed =>
    match completed with
    | some result => (completeOperation o result).bind fun _ => ret ()
    | none => (failOperation o "interrupted_by_recovery").bind fun _ => ret ()

/-- Source: `reconcile_operations`. -/
def reconcileOperations : Act Unit :=
  (query fun s => s.workspace.acceptedOperations).bind fun ids => forEach ids reconcileOperation

end MachineEmu
