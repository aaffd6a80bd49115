import MachineEmu.Api.Lifecycle

/-!
# The tasks that follow a run

The process watcher and the QMP reader of a run, each under the instance lock for one tick, and
the requests of clients that reconnect QMP.

* `spawnRunEvents` — the start of the two tasks.
* `watcherTick` — one tick of the process watcher.
* `readerPoll` — one poll of the QMP reader.
-/

namespace MachineEmu

open Lib.Prog Act

/-! ## Starting and ending the tasks -/

/-- Source: `api/run_events.rs` `spawn`. -/
def spawnRunEvents (s : World) (run : Run) : World :=
  match ownEntry s run.instanceId run.runId with
  | none => s
  | some owner =>
    if owner.watching then s
    else
      { s with
        supervisors := Function.update s.supervisors run.instanceId
          (some { owner with watching := true })
        watches := s.watches ++ [{ run, processWatcher := true, qmpReader := true }] }

/-- The tasks of the run have both returned: the entry is no longer watched. -/
def endWatch (s : World) (watch : Watch) : World :=
  { s with
    watches := s.watches.erase watch
    supervisors := Function.update s.supervisors watch.run.instanceId
      ((s.supervisors watch.run.instanceId).map fun owner =>
        if owner.runId = watch.run.runId then { owner with watching := false } else owner) }

/-- One of the two tasks of the run returns. -/
def returnTask (run : Run) (f : Watch → Watch) (s : World) : World :=
  { s with watches := s.watches.map fun watch => if watch.run = run then f watch else watch }

/-- The process watcher of the run returns. -/
def returnWatcher (run : Run) : Act Unit :=
  modify .watchEnd (returnTask run fun watch => { watch with processWatcher := false })

/-! ## The process watcher -/

/-- The exit the watcher observes: from the shared connection, or by the probe when there is
none. The first component says that the tick ends the watcher without an observation. -/
def observeExit (run : Run) : Act (Bool × Option ProcessExit) :=
  (connection run.instanceId).bind fun connected =>
    match connected with
    | some running =>
      if running.runId ≠ run.runId then ret (true, none)
      else (pollExit running).bind fun exit => ret (false, exit)
    | none =>
      (reconcileRun run.runId).bind fun reconciled =>
        ret (false, if reconciled.status = .uncertain then some { code := none, success := false }
          else none)

/-- The run's helpers could not be ended: the run stays uncertain. -/
def concludeHelperFailure (run : Run) : Act Unit :=
  (finishRun run.instanceId run.runId .uncertain .watcher).bind fun final =>
  (readInstance run.instanceId).bind fun current =>
    if current.state.inFlight then
      (transitionInstance run.instanceId .error).bind fun failed =>
      publishState failed (some final) "helper_cleanup_failed"
    else ret ()

/-- The reason an observed exit is published with. -/
def exitReason (exit : ProcessExit) : String :=
  if exit.success then "guest_shutdown" else "qemu_exit_failure"

/-- The lifecycle after an observed exit. -/
def settleLifecycle (run final : Run) (exit : ProcessExit) (current : Instance) :
    Act Instance :=
  if (current.state = .running ∨ current.state = .paused) ∧ exit.success = true then
    (transitionInstance run.instanceId .stopping).bind fun stopping =>
    (publishState stopping (some final) "process_exit").bind fun _ =>
    transitionInstance run.instanceId .stopped
  else if current.state.inFlight then transitionInstance run.instanceId .error
  else ret current

/-- The run and its instance after an observed exit. -/
def concludeExit (run : Run) (exit : ProcessExit) : Act Unit :=
  (finishRun run.instanceId run.runId (if exit.success then .exited else .failed) .watcher).bind
    fun final =>
  (readInstance run.instanceId).bind fun current =>
  (settleLifecycle run final exit current).bind fun settled =>
  (publishState settled (some final) (exitReason exit)).bind fun _ =>
  removeIfDisposable run.instanceId (some run.runId) (exitReason exit)

/-- The body of a tick; the result says whether the watcher returns. -/
def watchRun (run : Run) : Act Bool :=
  (queryE fun s => s.workspace.run run.runId).bind fun recorded =>
    if recorded.status.active = false then ret true
    else
      (observeExit run).bind fun observed =>
        match observed with
        | (true, _) => ret true
        | (false, none) => ret false
        | (false, some exit) =>
          (teardown run.instanceId run.runId).attempt.bind fun cleaned =>
            match cleaned with
            | .error _ => (concludeHelperFailure run).bind fun _ => ret true
            | .ok _ => (concludeExit run exit).bind fun _ => ret true

/-- One tick of the watcher: it returns when the body says so and when the body fails.
Source: `api/run_events.rs` `process_watcher`. -/
def watcherTick (run : Run) : Act Unit :=
  (watchRun run).attempt.bind fun result =>
    match result with
    | .ok false => ret ()
    | _ => returnWatcher run

/-! ## The QMP reader -/

/-- Whether the run is the instance's active run. -/
def isActiveRun (s : World) (run : Run) : Bool :=
  (s.workspace.activeRun run.instanceId).any fun active => active.runId = run.runId

/-- Source: `run_is_alive`. -/
def runIsAlive (run : Run) : Act Bool :=
  (connection run.instanceId).bind fun connected =>
    match connected with
    | some owned =>
      (pollExit owned).bind fun exit => ret (decide (owned.runId = run.runId) && exit.isNone)
    | none => (reconcileRun run.runId).bind fun reconciled =>
        ret (decide (reconciled.status = .running))

/-- Source: `apply_status_locked`. -/
def applyStatusLocked (run : Run) (status : String) : Act Unit :=
  match InstanceState.fromQmp status with
  | .error _ => ret ()
  | .ok target =>
    (query fun s => isActiveRun s run).bind fun active =>
      if active = false then ret ()
      else (runIsAlive run).bind fun alive =>
        if alive = false then ret ()
        else
          (readInstance run.instanceId).bind fun current =>
          (observeRunStatus run target.asStr).bind fun changed =>
            if changed.revision ≠ current.revision then publishState changed (some run) "qmp_status"
            else ret ()

/-- The events of a poll that move the lifecycle. Source: `apply_qmp_locked`; the other events are
only published. -/
inductive QmpEvent where
  | stop | resume | other
  deriving DecidableEq

/-- Source: `apply_qmp_locked`. -/
def applyQmpLocked (run : Run) (event : QmpEvent) : Act Unit :=
  (query fun s => isActiveRun s run).bind fun active =>
    if active = false then ret ()
    else (runIsAlive run).bind fun alive =>
      if alive = false then ret ()
      else
        (readInstance run.instanceId).bind fun current =>
          if (event = .stop ∧ current.state = .running) ∨
              (event = .resume ∧ current.state = .paused) then
            (transitionInstance run.instanceId
              (if event = .stop then .paused else .running)).bind fun changed =>
            publishState changed (some run) "qmp_event"
          else ret ()

/-- One poll of the reader: a failed query disconnects, and with the connection goes the process
handle. Source: `api/run_events.rs` `qmp_reader`. -/
def readerPoll (run : Run) (events : List QmpEvent) : Act Unit :=
  (qmp run).bind fun _ =>
  ask fun r =>
    if r.ok then
      (ofExcept (statusOf r.status)).bind fun status =>
      (forEach events (applyQmpLocked run)).bind fun _ => applyStatusLocked run status
    else (disconnect run.instanceId run.runId).bind fun _ => throw r.error

/-- A client request that needs QMP: the live run's connection, recovered if necessary. -/
def reconnectRequest (i : Id) : Act Unit :=
  (liveRun i).bind fun run =>
    match run with
    | none => throw (.process "instance has no live run")
    | some run => (qmp run).bind fun _ => outside

end MachineEmu
