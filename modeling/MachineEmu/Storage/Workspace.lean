import Mathlib.Data.List.Sort
import MachineEmu.Domain
import MachineEmu.Lib.Sha256
import MachineEmu.Lib.Table

/-!
# The workspace database

The tables of `metadata.sqlite3` and the statements the workspace runs on them. A statement is a
function from the tables to its result and the next tables; each is one atomic act of a request.

* `Workspace.activeRun`, `Workspace.reconcileRun`, `Workspace.recordRun`, `Workspace.finishRun` —
  the runs table.
* `Workspace.transitionInstance`, `Workspace.observeRunStatus` — the lifecycle column.
* `Workspace.beginOperation`, `Workspace.completeOperation`, `Workspace.failOperation` — the
  operations table.
* `Workspace.deleteInstance` — the transaction that removes an instance.
-/

namespace MachineEmu

open Lib

/-- A row of `run_helpers`. -/
structure RunHelper where
  runId : Id
  ordinal : Nat
  helperId : Id
  identity : ProcessIdentity

/-- A row of `snapshots`: the manifest it stores. The lifecycle reads the two ids.
Source: `domain/mod.rs` `Snapshot`. -/
structure SnapshotRow where
  snapshotId : Id
  instanceId : Id
  generation : Int := 1
  files : SortedMap String String := SortedMap.empty

/-- A row of `instance_tombstones`. -/
structure Tombstone where
  instanceId : Id
  lastRunId : Option Id
  reason : String

/-- The tables of the database. Source: `storage/mod.rs` `Workspace::migrate`. -/
structure Workspace where
  instances : Table Instance.instanceId := Table.empty
  pendingInstanceDeletions : List Id := []
  instanceTombstones : List Tombstone := []
  operations : Table Operation.operationId := Table.empty
  runs : Table Run.runId := Table.empty
  runHelpers : List RunHelper := []
  snapshots : Table SnapshotRow.snapshotId := Table.empty
  deriving Inhabited

namespace Workspace

variable (w : Workspace)

/-! ## Instances -/

/-- The row of an instance, if it exists. -/
def instanceRow (i : Id) : Option Instance := w.instances.find? i

/-- Source: `storage/instances.rs` `instance`. -/
def instance_ (i : Id) : Except Error Instance :=
  match w.instanceRow i with
  | some row => .ok row
  | none => .error (.notFound "instance" i.asStr)

/-- `UPDATE instances SET lifecycle = ?1, revision = revision + 1 WHERE instance_id = ?2`. -/
def setLifecycle (i : Id) (next : InstanceState) : Workspace :=
  { w with
    instances := w.instances.modifyAt i
      (fun row => { row with state := next, revision := row.revision + 1 }) fun _ => rfl }

/-- Source: `storage/instances.rs` `transition_instance`. -/
def transitionInstance (i : Id) (next : InstanceState) : Except Error Instance × Workspace :=
  match w.instance_ i with
  | .error e => (.error e, w)
  | .ok current =>
    if current.state.allows next then
      ((w.setLifecycle i next).instance_ i, w.setLifecycle i next)
    else (.error (.invalidTransition current.state.asStr next.asStr), w)

/-- The row of a published instance. -/
def newInstance (i image profile : Id) : Instance :=
  { instanceId := i, imageId := image, profileId := profile, state := .created, revision := 1 }

/-- The insertion of a published instance.
Source: `storage/instances.rs` `publish_prepared_instance`, its transaction. -/
def insertInstance (i image profile : Id) : Except Error Instance × Workspace :=
  match w.instances.insert (newInstance i image profile) with
  | none => (.error (.sqlite "UNIQUE constraint failed: instances.instance_id"), w)
  | some instances =>
    (.ok (newInstance i image profile), { w with
      instances
      instanceTombstones := w.instanceTombstones.filter fun t => t.instanceId ≠ i })

/-! ## Runs -/

/-- The runs of an instance, in row order. -/
def runsOf (i : Id) : List Run := w.runs.rows.filter fun run => run.instanceId = i

/-- The active runs of an instance, in row order. -/
def activeRuns (i : Id) : List Run := (w.runsOf i).filter fun run => run.status.active

/-- `ORDER BY created_at DESC LIMIT 1`; of equal times the earlier row. -/
def latest : List Run → Option Run
  | [] => none
  | run :: rest =>
    match latest rest with
    | none => some run
    | some other => if run.createdAt < other.createdAt then some other else some run

/-- Source: `storage/runs.rs` `active_run`. -/
def activeRun (i : Id) : Option Run := latest (w.activeRuns i)

/-- The row of a run, if it exists. -/
def runRow (r : Id) : Option Run := w.runs.find? r

/-- Source: `storage/runs.rs` `run`. -/
def run (r : Id) : Except Error Run :=
  match w.runRow r with
  | some row => .ok row
  | none => .error (.notFound "run" r.asStr)

/-- `UPDATE runs SET status = ?1 WHERE run_id = ?2`. -/
def setRunStatus (r : Id) (status : RunStatus) : Workspace :=
  { w with
    runs := w.runs.modifyAt r (fun row => { row with status }) fun _ => rfl }

/-- The row `record_run` inserts. -/
def newRun (r i : Id) (identity : ProcessIdentity) (qmpSocket : String) (now : Nat) : Run :=
  { runId := r, instanceId := i, identity, qmpSocket, status := .running, createdAt := now }

/-- Source: `storage/runs.rs` `record_run`. -/
def recordRun (r i : Id) (identity : ProcessIdentity) (qmpSocket : String) (now : Nat) :
    Except Error Run × Workspace :=
  match w.instance_ i with
  | .error e => (.error e, w)
  | .ok _ =>
    match w.runs.insert (newRun r i identity qmpSocket now) with
    | none => (.error (.runConflict r.asStr), w)
    | some runs => (.ok (newRun r i identity qmpSocket now), { w with runs })

/-- The status `reconcile_run` writes for a probed process. -/
def probedStatus (alive : Bool) : RunStatus := if alive then .running else .uncertain

/-- Source: `storage/runs.rs` `reconcile_run`; `matches_` is `process_identity_matches`. -/
def reconcileRun (matches_ : ProcessIdentity → Bool) (r : Id) : Except Error Run × Workspace :=
  match w.run r with
  | .error e => (.error e, w)
  | .ok row =>
    let next := w.setRunStatus r (probedStatus (matches_ row.identity))
    (next.run r, next)

/-- Source: `storage/runs.rs` `finish_run`. -/
def finishRun (r : Id) (status : RunStatus) : Except Error Run × Workspace :=
  if status = .exited ∨ status = .failed ∨ status = .uncertain then
    ((w.setRunStatus r status).run r, w.setRunStatus r status)
  else (.error (.process ("invalid terminal run status " ++ Error.quoted status.asStr)), w)

/-- `UPDATE instances SET lifecycle = ?1, revision = revision + 1 WHERE instance_id = ?2 AND
lifecycle != ?1`. -/
def observeLifecycle (i : Id) (target : InstanceState) : Workspace :=
  { w with
    instances := w.instances.modifyAt i
      (fun row => if row.state = target then row
        else { row with state := target, revision := row.revision + 1 })
      fun row => by split <;> rfl }

/-- Whether the run is still the active run of its instance, with the same process. -/
def isCurrentRun (observed : Run) : Bool :=
  (w.activeRun observed.instanceId).any fun active =>
    active.runId = observed.runId && active.identity = observed.identity

/-- Source: `storage/runs.rs` `observe_run_status`. -/
def observeRunStatus (matches_ : ProcessIdentity → Bool) (observed : Run) (status : String) :
    Except Error Instance × Workspace :=
  match InstanceState.fromQmp status with
  | .error e => (.error e, w)
  | .ok target =>
    if matches_ observed.identity && w.isCurrentRun observed then
      ((w.observeLifecycle observed.instanceId target).instance_ observed.instanceId,
        w.observeLifecycle observed.instanceId target)
    else (.error (.process "QMP observation belongs to a stale or dead run"), w)

/-- Source: `storage/runs.rs` `save_run_helpers`. -/
def saveRunHelpers (r : Id) (helpers : List (Id × ProcessIdentity)) : Workspace :=
  { w with runHelpers :=
      (w.runHelpers.filter fun row => row.runId ≠ r) ++
        helpers.mapIdx fun ordinal helper =>
          { runId := r, ordinal, helperId := helper.1, identity := helper.2 } }

/-! ## Operations -/

/-- Source: `storage/operations.rs` `operation`. -/
def operation (o : Id) : Except Error Operation :=
  match w.operations.find? o with
  | some row => .ok row
  | none => .error (.notFound "operation" o.asStr)

/-- Source: `storage/operations.rs` `begin_operation`. -/
def beginOperation (o i : Id) (kind key inputJson : String) (now : Nat) :
    Except Error Operation × Workspace :=
  match w.instance_ i with
  | .error e => (.error e, w)
  | .ok _ =>
    let inputSha256 := Lib.Sha256.hexDigest inputJson
    match w.operations.rows.find? fun row =>
        row.instanceId = i && row.idempotencyKey = key with
    | some existing =>
      if existing.kind ≠ kind ∨ existing.inputSha256 ≠ inputSha256 then
        (.error (.operationConflict key), w)
      else (.ok existing, w)
    | none =>
      let row : Operation :=
        { operationId := o, instanceId := i, kind, idempotencyKey := key, inputSha256,
          status := .accepted, resultJson := none, createdAt := now }
      match w.operations.insert row with
      | none => (.error (.sqlite "UNIQUE constraint failed: operations.operation_id"), w)
      | some operations => (.ok row, { w with operations })

/-- The update of one operation row. -/
def setOperation (o : Id) (status : OperationStatus) (result : OperationResult) : Workspace :=
  { w with
    operations := w.operations.modifyAt o
      (fun row => { row with status, resultJson := some result }) fun _ => rfl }

/-- Source: `storage/operations.rs` `complete_operation`. -/
def completeOperation (o : Id) (result : OperationResult) : Except Error Operation × Workspace :=
  match w.operation o with
  | .error e => (.error e, w)
  | .ok _ => ((w.setOperation o .completed result).operation o, w.setOperation o .completed result)

/-- Source: `storage/operations.rs` `fail_operation`. -/
def failOperation (o : Id) (reason : String) : Except Error Operation × Workspace :=
  match w.operation o with
  | .error _ => (.error (.process ("operation " ++ o.asStr ++ " is not accepted")), w)
  | .ok row =>
    if row.status = .accepted then
      ((w.setOperation o .failed (.error reason)).operation o,
        w.setOperation o .failed (.error reason))
    else (.error (.process ("operation " ++ o.asStr ++ " is not accepted")), w)

/-- The order `created_at, operation_id`. -/
def beforeOperation (a b : Operation) : Prop :=
  a.createdAt < b.createdAt ∨
    (a.createdAt = b.createdAt ∧ a.operationId.asStr ≤ b.operationId.asStr)

instance : DecidableRel beforeOperation := fun _ _ => inferInstanceAs (Decidable (_ ∨ _))

/-- The accepted operations in the order `created_at, operation_id`. -/
def acceptedOperations : List Id :=
  ((w.operations.rows.filter fun row => row.status = .accepted).insertionSort
    beforeOperation).map Operation.operationId

/-- What an interrupted operation is completed with, if anything. The key of a snapshot operation
is `snapshot:<id>`. Source: `storage/operations.rs` `reconcile_operations`. -/
def recoveredResult (row : Operation) : Except Error (Option OperationResult) :=
  if row.kind = "start" then
    match w.instance_ row.instanceId with
    | .error e => .error e
    | .ok current =>
      if (current.state = .running ∨ current.state = .paused) ∧
          (w.activeRun row.instanceId).any (fun run => run.status = .running) then
        .ok (some (.state current.state))
      else .ok none
  else if row.kind = "snapshot" then
    .ok ((w.snapshots.rows.find? fun s =>
      row.idempotencyKey = "snapshot:" ++ s.snapshotId.asStr && Id.isValid s.snapshotId.asStr).map
        fun s => .snapshotId s.snapshotId)
  else .ok none

/-! ## Removal -/

/-- The transaction that deletes an instance and its rows; helper rows go with their runs.
Source: `storage/instances.rs` `remove_instance`. -/
def deleteInstance (i : Id) : Workspace :=
  { w with
    pendingInstanceDeletions := w.pendingInstanceDeletions ++ [i]
    operations := w.operations.filter fun row => row.instanceId ≠ i
    runHelpers := w.runHelpers.filter fun row =>
      (w.runs.rows.any fun run => run.instanceId = i && run.runId = row.runId) = false
    runs := w.runs.filter fun row => row.instanceId ≠ i
    instances := w.instances.filter fun row => row.instanceId ≠ i }

/-- `DELETE FROM pending_instance_deletions WHERE instance_id = ?1`. -/
def clearPendingDeletion (i : Id) : Workspace :=
  { w with pendingInstanceDeletions := w.pendingInstanceDeletions.filter fun j => j ≠ i }

/-- Source: `storage/instances.rs` `record_instance_tombstone`; the latest thousand are kept. -/
def recordInstanceTombstone (i : Id) (r : Option Id) (reason : String) : Workspace :=
  let kept := (w.instanceTombstones.filter fun t => t.instanceId ≠ i) ++
    [{ instanceId := i, lastRunId := r, reason }]
  { w with instanceTombstones := kept.drop (kept.length - 1000) }

end Workspace

end MachineEmu
