import MachineEmu.Api.RunEvents

/-!
# The daemon as a service

The requests of one instance, serialised by its lock, and what else may happen to its state: QEMU
and other processes exit, the requests of other instances run, the unlocked tail of a start goes
on, and the daemon may crash and reopen the workspace.

* `Request`, `program` — the requests and the programs that answer them.
* `Elsewhere` — what the rest of the world may do between two acts of an instance.
* `daemon` — the service of one instance.
-/

namespace MachineEmu

open Lib Lib.Prog Lib.Service Act

/-! ## Creation -/

/-- Source: `storage/instances.rs` `publish_prepared_instance`. -/
def publishPreparedInstance (i image profile : Id) (document : StoredDocument) :
    Act Instance :=
  (finishInstanceDeletion i).bind fun _ =>
  -- the image and the staged files
  outside.bind fun _ =>
  (queryE fun s =>
    match s.workspace.instanceRow i with
    | some _ => .error (.process ("instance directory already exists: " ++ i.asStr))
    | none => .ok ()).bind fun _ =>
  (modify .quiet fun s =>
    { s with documents := Function.update s.documents i (some document) }).bind fun _ =>
  statement (.createInstance i) fun s => s.workspace.insertInstance i image profile

/-- Source: `storage/snapshots.rs` `snapshot`. -/
def snapshotRow (snapshot : Id) : Act SnapshotRow :=
  queryE fun s =>
    match s.workspace.snapshots.find? snapshot with
    | none => .error (.notFound "snapshot" snapshot.asStr)
    | some row => .ok row

/-- Source: `storage/snapshots.rs` `restore_snapshot`; it only copies files. -/
def restoreSnapshot (snapshot : Id) : Act SnapshotRow :=
  (snapshotRow snapshot).bind fun row => outside.bind fun _ => ret row

/-- Source: `storage/snapshots.rs` `clone_snapshot`: the files of the snapshot are restored into
the directory of the new instance, which has no domain document. -/
def cloneSnapshot (snapshot i profile : Id) : Act Instance :=
  (snapshotRow snapshot).bind fun row =>
  (readInstance row.instanceId).bind fun source =>
  (restoreSnapshot snapshot).bind fun _ =>
  publishPreparedInstance i source.imageId profile { autoRemove := false, plan := none }

/-- Source: `storage/snapshots.rs` `create_snapshot`, the row it inserts. -/
def createSnapshot (snapshot i : Id) : Act Unit :=
  (readInstance i).bind fun current =>
    if current.state ≠ .created ∧ current.state ≠ .stopped then throw .snapshotRequiresStopped
    else
      outside.bind fun _ =>
      statement .operation fun s =>
        match s.workspace.snapshots.insert { snapshotId := snapshot, instanceId := i } with
        | none => (.error (.snapshotConflict snapshot.asStr), s.workspace)
        | some snapshots => (.ok (), { s.workspace with snapshots })

/-! ## Opening the workspace -/

/-- Install the helpers of a recovered run and start its tasks. -/
def resumeSupervision (run : Run) : Act Unit :=
  (recoverRunHelpers run.runId).bind fun helpers =>
  (install run.instanceId run.runId none helpers).bind fun _ =>
  modify .quiet fun s => spawnRunEvents s run

/-- The daemon opens the workspace. Source: `storage/mod.rs` `Workspace::open`, `api/mod.rs`
`serve`. -/
def openWorkspace : Act Unit :=
  (query fun s => s.workspace.pendingInstanceDeletions).bind fun pending =>
  (forEach pending fun i => (finishInstanceDeletion i).bind fun _ => ret ()).bind fun _ =>
  reconcileActiveRuns.bind fun runs =>
  (forEach (runs.filter fun run => run.status = .running) fun run =>
    ignore (recoverInstanceRunAsync run.instanceId)).bind fun _ =>
  reconcileOperations.bind fun _ =>
  forEach (runs.filter fun run => run.status = .running) resumeSupervision

/-! ## Requests -/

/-- What is done under the lock of an instance. -/
inductive Request where
  | create (image profile : Id) (document : StoredDocument)
  | clone (snapshot profile : Id)
  | snapshot (snapshot : Id)
  | restore (snapshot : Id)
  | start (input : StartInstance)
  | restart (input : StartInstance)
  | action (action : LifecycleAction)
  | recover
  | remove
  | disposeFailedStart
  | reconcile
  | reconnect
  | watcherTick (run : Run)
  | readerPoll (run : Run) (events : List QmpEvent)
  | openWorkspace

/-- A task of the instance acts only while it has not returned. -/
def whileTask (i : Id) (run : Run) (task : Watch → Bool) (body : Act Unit) : Act Unit :=
  (query fun s => s.watches.any fun watch =>
    watch.run = run && run.instanceId = i && task watch).bind fun going =>
      if going then body else ret ()

/-- The program of a request for an instance. -/
def program (i : Id) : Request → Act Unit
  | .create image profile document =>
    (publishPreparedInstance i image profile document).bind fun _ => ret ()
  | .clone snapshot profile => (cloneSnapshot snapshot i profile).bind fun _ => ret ()
  | .snapshot snapshot => createSnapshot snapshot i
  | .restore snapshot => (restoreSnapshot snapshot).bind fun _ => ret ()
  | .start input => startInstanceWithLock i input
  | .restart input => restartInstance i input
  | .action action => lifecycleAction i action
  | .recover => (liveConnection i).bind fun _ => ret ()
  | .remove => removeInstance i
  | .disposeFailedStart => disposeFailedStart i
  | .reconcile => reconcileActiveRuns.bind fun _ => reconcileOperations
  | .reconnect => reconnectRequest i
  | .watcherTick run => whileTask i run Watch.processWatcher (watcherTick run)
  | .readerPoll run events => whileTask i run Watch.qmpReader (readerPoll run events)
  | .openWorkspace => openWorkspace

/-! ## The rest of the world -/

/-- The rows of one instance: its own row, its runs, and its deletion mark. -/
def SameRows (i : Id) (w w' : Workspace) : Prop :=
  w'.instanceRow i = w.instanceRow i ∧
  w'.runsOf i = w.runsOf i ∧
  (i ∈ w'.pendingInstanceDeletions ↔ i ∈ w.pendingInstanceDeletions) ∧
  w'.snapshots.rows.filter (fun row => row.instanceId = i) =
    w.snapshots.rows.filter (fun row => row.instanceId = i)

/-- What the requests of other instances and the processes of the host may do between two acts:
anything that keeps the rows, the document, the supervisor and the tasks of instance `i` and spawns
no QEMU for it. -/
def Elsewhere (i : Id) (s s' : World) : Prop :=
  SameRows i s.workspace s'.workspace ∧
  s'.documents i = s.documents i ∧
  s'.supervisors i = s.supervisors i ∧
  s'.watches.filter (fun watch => watch.run.instanceId = i) =
    s.watches.filter (fun watch => watch.run.instanceId = i) ∧
  s'.spawnTails = s.spawnTails ∧
  s'.stateEvents.filter (fun event => event.instanceId = i) =
    s.stateEvents.filter (fun event => event.instanceId = i) ∧
  Evolves s.procs s'.procs ∧
  (∀ p ∈ s'.procs, (∃ r, p.owner = .qemu i r) → p.identity ∈ s.identities)

/-- A step that no request takes: a process exits, the rest of the world moves, or an unlocked
part of the daemon goes on. -/
inductive Background (i : Id) : Label → World → World → Prop
  | exited (s : World) (identity : ProcessIdentity) (exit : ProcessExit) :
      Background i (.exited identity) s (s.exitProcess identity exit)
  | elsewhere (s s' : World) (h : Elsewhere i s s') : Background i .elsewhere s s'
  | tailRead (s : World) (before after : List SpawnTail)
      (h : s.spawnTails = before ++ .unread i :: after) :
      Background i (.tailRead i) s
        { s with spawnTails := before ++ (match s.workspace.activeRun i with
          | some run => [.read run]
          | none => []) ++ after }
  | tailSpawn (s : World) (run : Run) (before after : List SpawnTail) (hrun : run.instanceId = i)
      (h : s.spawnTails = before ++ .read run :: after) :
      Background i (.tailSpawn i) s (spawnRunEvents { s with spawnTails := before ++ after } run)
  | readerReturns (s : World) (run : Run) (h : isActiveRun s run = false) :
      Background i .watchEnd s (returnTask run (fun watch => { watch with qmpReader := false }) s)
  | watchEnds (s : World) (watch : Watch) (h : watch ∈ s.watches)
      (hdone : watch.processWatcher = false ∧ watch.qmpReader = false) :
      Background i .watchEnd s (endWatch s watch)

/-- The service of one instance. -/
def daemon (i : Id) : Service World Reply Label Error Request where
  request := program i
  env := Background i
  crash := World.crash
  reopen := .openWorkspace

/-- The runs of the daemon from a new workspace, under a policy. -/
abbrev Runs (i : Id) (ok : World → Event Label Request → Prop) :
    Config World Reply Label Error Request → Prop :=
  Reachable (daemon i) (fun s => s = World.empty) ok

/-- A computed run from a new workspace. -/
theorem runs_of_play {i : Id} {ok : World → Event Label Request → Prop}
    {admits : World → Event Label Request → Bool} {moves : List (Move World Reply Label Request)}
    {s : World} (hok : ∀ s e, admits s e = true → ok s e)
    (hplay : play (daemon i) admits moves World.empty = some s) : Runs i ok ⟨s, none⟩ :=
  Reachable.play hok (.init World.empty rfl) hplay

/-! ## A machine -/

/-- The machine of the computed runs. -/
def vm : Id := ⟨"vm"⟩

/-- Its launch plan, without helpers. -/
def vmPlan : LaunchSpec :=
  { argv := ["qemu-system-x86_64"], vncAuto := false, qmpSocket := "qmp.sock", stdout := none,
    stderr := none, preparation := none, helperArgv := none, helpers := [] }

/-- The body of a start under this run id. -/
def vmStart (r : String) : StartInstance :=
  { operationId := ⟨"start-" ++ r⟩, runId := ⟨r⟩, idempotencyKey := r, inputJson := "{}" }

/-- Create the machine; the replies are the good ones. -/
def vmCreate : Move World Reply Label Request :=
  .request (.create ⟨"image"⟩ ⟨"profile"⟩ { autoRemove := false, plan := some (.ok vmPlan) })
    [{}]

end MachineEmu
