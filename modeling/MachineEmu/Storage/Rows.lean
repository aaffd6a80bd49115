import MachineEmu.Storage.Workspace

/-!
# What the statements do to the rows of an instance

Each statement of the workspace database, by its cases: what it returns and how the row of an
instance and its active runs change.

* `Workspace.activeIds` — the ids of the active runs of an instance.
* `Workspace.transitionInstance_cases`, `Workspace.reconcileRun_cases`,
  `Workspace.recordRun_cases`, `Workspace.finishRun_cases`, `Workspace.observeRunStatus_cases` —
  the statements.
* `Workspace.activeRuns_setRunStatus_of_terminal`, `Workspace.activeRuns_setRunStatus_of_active`,
  `Workspace.activeRuns_insert` — the active runs after each.
-/

namespace MachineEmu

open Lib List

namespace Workspace

variable {w w' : Workspace} {i j r : Id}

/-! ## Active runs -/

/-- The ids of the active runs of an instance. -/
def activeIds (w : Workspace) (i : Id) : List Id := (w.activeRuns i).map Run.runId

/-- The lifecycle state of an instance, if it exists. -/
def lifecycle (w : Workspace) (i : Id) : Option InstanceState := (w.instanceRow i).map Instance.state

variable {run : Run}

theorem mem_runsOf : run ∈ w.runsOf i ↔ run ∈ w.runs.rows ∧ run.instanceId = i := by
  simp [runsOf]

theorem mem_activeRuns :
    run ∈ w.activeRuns i ↔ run ∈ w.runs.rows ∧ run.instanceId = i ∧ run.status.active = true := by
  simp [activeRuns, mem_runsOf, and_assoc]

theorem runRow_eq_some_iff : w.runRow r = some run ↔ run ∈ w.runs.rows ∧ run.runId = r :=
  Table.find?_eq_some_iff

theorem latest_eq_none_iff {runs : List Run} : latest runs = none ↔ runs = [] := by
  cases runs with
  | nil => simp [latest]
  | cons run rest =>
    simp only [latest, reduceCtorEq, iff_false]
    split
    · simp
    · split <;> simp

theorem latest_mem {runs : List Run} (h : latest runs = some run) : run ∈ runs := by
  induction runs generalizing run with
  | nil => cases h
  | cons a rest ih =>
    simp only [latest] at h
    split at h
    · cases h
      exact mem_cons_self
    · next other hother =>
      split at h
      · cases h
        exact mem_cons_of_mem a (ih hother)
      · cases h
        exact mem_cons_self

theorem activeRun_eq_none_iff : w.activeRun i = none ↔ w.activeIds i = [] := by
  unfold activeRun activeIds
  rw [latest_eq_none_iff, map_eq_nil_iff]

theorem activeRun_mem (h : w.activeRun i = some run) : run ∈ w.activeRuns i :=
  latest_mem h

theorem runRow_of_activeRun (h : w.activeRun i = some run) : w.runRow run.runId = some run :=
  runRow_eq_some_iff.2 ⟨(mem_activeRuns.1 (activeRun_mem h)).1, rfl⟩

theorem activeRun_mem_activeIds (h : w.activeRun i = some run) : run.runId ∈ w.activeIds i :=
  mem_map.2 ⟨run, activeRun_mem h, rfl⟩

theorem mem_activeIds : r ∈ w.activeIds i ↔
    ∃ run, w.runRow r = some run ∧ run.instanceId = i ∧ run.status.active = true := by
  unfold activeIds
  rw [mem_map]
  constructor
  · rintro ⟨run, hmem, rfl⟩
    obtain ⟨hrow, hi, ha⟩ := mem_activeRuns.1 hmem
    exact ⟨run, runRow_eq_some_iff.2 ⟨hrow, rfl⟩, hi, ha⟩
  · rintro ⟨run, hrow, hi, ha⟩
    obtain ⟨hmem, rfl⟩ := runRow_eq_some_iff.1 hrow
    exact ⟨run, mem_activeRuns.2 ⟨hmem, hi, ha⟩, rfl⟩

/-- An instance with at most one active run has the one `active_run` returns. -/
theorem activeIds_eq_of_activeRun (hone : (w.activeIds i).length ≤ 1)
    (h : w.activeRun i = some run) : w.activeIds i = [run.runId] := by
  have hmem := activeRun_mem_activeIds h
  match hids : w.activeIds i with
  | [] => simp [hids] at hmem
  | [a] =>
    rw [hids, mem_singleton] at hmem
    rw [hmem]
  | a :: b :: rest =>
    rw [hids] at hone
    simp at hone

/-! ## The lifecycle column -/

variable {next : InstanceState}

@[simp] theorem instanceRow_setLifecycle :
    (w.setLifecycle i next).instanceRow j =
      if j = i then (w.instanceRow i).map fun row =>
        { row with state := next, revision := row.revision + 1 }
      else w.instanceRow j :=
  Table.find?_modifyAt (f := fun row : Instance =>
    { row with state := next, revision := row.revision + 1 }) (fun _ => rfl) j

variable {row : Instance}

theorem instance_eq_ok : w.instance_ i = .ok row ↔ w.instanceRow i = some row := by
  unfold instance_
  cases w.instanceRow i <;> simp

theorem instance_eq_error {e : Error} (h : w.instance_ i = .error e) :
    w.instanceRow i = none := by
  unfold instance_ at h
  cases hrow : w.instanceRow i with
  | none => rfl
  | some row => simp [hrow] at h

/-- A transition either moves the lifecycle as the current state allows, or fails and changes
nothing. -/
theorem transitionInstance_cases (w : Workspace) (i : Id) (next : InstanceState) :
    (∃ row, w.instanceRow i = some row ∧ row.state.allows next = true ∧
      w.transitionInstance i next =
        (.ok { row with state := next, revision := row.revision + 1 }, w.setLifecycle i next)) ∨
    (∃ e, w.transitionInstance i next = (.error e, w) ∧
      ∀ row, w.instanceRow i = some row → row.state.allows next = false) := by
  unfold transitionInstance
  cases hrow : w.instance_ i with
  | error e =>
    refine .inr ⟨e, rfl, ?_⟩
    simp [instance_eq_error hrow]
  | ok row =>
    rw [instance_eq_ok] at hrow
    by_cases hallow : row.state.allows next = true
    · refine .inl ⟨row, hrow, hallow, ?_⟩
      have hnext : (w.setLifecycle i next).instance_ i =
          .ok { row with state := next, revision := row.revision + 1 } := by
        rw [instance_eq_ok, instanceRow_setLifecycle, if_pos rfl, hrow]
        rfl
      simp [hallow, hnext]
    · refine .inr ⟨_, by simp [hallow]; rfl, ?_⟩
      intro row' hrow'
      rw [hrow] at hrow'
      cases hrow'
      simpa using hallow

/-- An allowed transition. -/
theorem transitionInstance_of_allows
    (hrow : w.instanceRow i = some row) (hallow : row.state.allows next = true) :
    w.transitionInstance i next =
      (.ok { row with state := next, revision := row.revision + 1 }, w.setLifecycle i next) := by
  rcases w.transitionInstance_cases i next with ⟨row', hrow', _, hstep⟩ | ⟨e, _, hdeny⟩
  · rw [hrow] at hrow'
    cases hrow'
    exact hstep
  · rw [hdeny row hrow] at hallow
    cases hallow

/-- A transition that is not allowed. -/
theorem transitionInstance_of_not_allows
    (hrow : w.instanceRow i = some row) (hdeny : row.state.allows next = false) :
    ∃ e, w.transitionInstance i next = (.error e, w) := by
  rcases w.transitionInstance_cases i next with ⟨row', hrow', hallow, _⟩ | ⟨e, hstep, _⟩
  · rw [hrow] at hrow'
    cases hrow'
    rw [hdeny] at hallow
    cases hallow
  · exact ⟨e, hstep⟩

/-! ## The status column of runs -/

variable {status : RunStatus}

@[simp] theorem runRow_setRunStatus {q : Id} :
    (w.setRunStatus r status).runRow q =
      if q = r then (w.runRow r).map fun row => { row with status } else w.runRow q :=
  Table.find?_modifyAt (f := fun row : Run => { row with status }) (fun _ => rfl) q

theorem runsOf_setRunStatus :
    (w.setRunStatus r status).runsOf i =
      (w.runsOf i).map fun row => if row.runId = r then { row with status } else row := by
  unfold runsOf
  rw [show (w.setRunStatus r status).runs.rows =
    w.runs.rows.map fun row => if row.runId = r then { row with status } else row from rfl,
    filter_map]
  congr 1
  refine filter_congr fun row _ => ?_
  simp only [Function.comp_apply]
  split <;> rfl

/-- A terminal status removes the run from the active ones. -/
theorem activeRuns_setRunStatus_of_terminal (h : status.active = false) :
    (w.setRunStatus r status).activeRuns i =
      (w.activeRuns i).filter fun row => row.runId ≠ r := by
  unfold activeRuns
  rw [runsOf_setRunStatus]
  induction w.runsOf i with
  | nil => rfl
  | cons row rest ih =>
    by_cases hr : row.runId = r
    · cases ha : row.status.active <;> simp_all
    · cases ha : row.status.active <;> simp_all

theorem activeIds_setRunStatus_of_terminal (h : status.active = false) :
    (w.setRunStatus r status).activeIds i = (w.activeIds i).filter (· ≠ r) := by
  unfold activeIds
  rw [activeRuns_setRunStatus_of_terminal h, filter_map]
  rfl

/-- An active status of a run that is not finished changes the status of an active run only. -/
theorem activeRuns_setRunStatus_of_active (h : status.active = true)
    (hrow : ∀ row ∈ w.runsOf i, row.runId = r → row.status.active = true) :
    (w.setRunStatus r status).activeRuns i =
      (w.activeRuns i).map fun row => if row.runId = r then { row with status } else row := by
  unfold activeRuns
  rw [runsOf_setRunStatus]
  revert hrow
  induction w.runsOf i with
  | nil => intro _; rfl
  | cons row rest ih =>
    intro hrow
    have ih' := ih fun row' hmem => hrow row' (mem_cons_of_mem _ hmem)
    by_cases hr : row.runId = r
    · have ha := hrow row mem_cons_self hr
      simp_all
    · cases ha : row.status.active <;> simp_all

theorem activeIds_setRunStatus_of_active (h : status.active = true)
    (hrow : ∀ row, w.runRow r = some row → row.instanceId = i → row.status.active = true) :
    (w.setRunStatus r status).activeIds i = w.activeIds i := by
  have hactive : ∀ row ∈ w.runsOf i, row.runId = r → row.status.active = true := by
    intro row hmem hr
    obtain ⟨hmem, hi⟩ := mem_runsOf.1 hmem
    exact hrow row (runRow_eq_some_iff.2 ⟨hmem, hr⟩) hi
  unfold activeIds
  rw [activeRuns_setRunStatus_of_active h hactive, map_map]
  refine map_congr_left fun row _ => ?_
  simp only [Function.comp_apply]
  split <;> rfl

/-! ## The statements on runs -/

theorem run_eq_ok {row : Run} : w.run r = .ok row ↔ w.runRow r = some row := by
  unfold run
  cases w.runRow r <;> simp

theorem run_eq_error {e : Error} (h : w.run r = .error e) : w.runRow r = none := by
  unfold run at h
  cases hrow : w.runRow r with
  | none => rfl
  | some row => simp [hrow] at h

/-- A reconciliation writes the probed status of an existing run. -/
theorem reconcileRun_cases (w : Workspace) (matches_ : ProcessIdentity → Bool) (r : Id) :
    (∃ row, w.runRow r = some row ∧
      w.reconcileRun matches_ r =
        (.ok { row with status := probedStatus (matches_ row.identity) },
          w.setRunStatus r (probedStatus (matches_ row.identity)))) ∨
    (∃ e, w.runRow r = none ∧ w.reconcileRun matches_ r = (.error e, w)) := by
  unfold reconcileRun
  cases hrow : w.run r with
  | error e => exact .inr ⟨e, run_eq_error hrow, rfl⟩
  | ok row =>
    rw [run_eq_ok] at hrow
    refine .inl ⟨row, hrow, ?_⟩
    have hnext : (w.setRunStatus r (probedStatus (matches_ row.identity))).run r =
        .ok { row with status := probedStatus (matches_ row.identity) } := by
      rw [run_eq_ok, runRow_setRunStatus, if_pos rfl, hrow]
      rfl
    simp [hnext]

theorem reconcileRun_of_row {matches_ : ProcessIdentity → Bool} {row : Run}
    (hrow : w.runRow r = some row) :
    w.reconcileRun matches_ r =
      (.ok { row with status := probedStatus (matches_ row.identity) },
        w.setRunStatus r (probedStatus (matches_ row.identity))) := by
  rcases w.reconcileRun_cases matches_ r with ⟨row', hrow', hstep⟩ | ⟨e, hnone, _⟩
  · rw [hrow] at hrow'
    cases hrow'
    exact hstep
  · rw [hrow] at hnone
    cases hnone

theorem probedStatus_active (alive : Bool) : (probedStatus alive).active = true := by
  cases alive <;> rfl

theorem probedStatus_eq_running {alive : Bool} : probedStatus alive = .running ↔ alive = true := by
  cases alive <;> simp [probedStatus]

/-- A run is finished by writing its status; an unknown run is reported. -/
theorem finishRun_cases (w : Workspace) (r : Id)
    (h : status = .exited ∨ status = .failed ∨ status = .uncertain) :
    (∃ row, w.runRow r = some row ∧
      w.finishRun r status = (.ok { row with status }, w.setRunStatus r status)) ∨
    (∃ e, w.runRow r = none ∧ w.finishRun r status = (.error e, w.setRunStatus r status)) := by
  unfold finishRun
  rw [if_pos h]
  cases hrow : w.runRow r with
  | none =>
    refine .inr ⟨.notFound "run" r.asStr, rfl, ?_⟩
    unfold run
    simp [hrow]
  | some row =>
    refine .inl ⟨row, rfl, ?_⟩
    unfold run
    simp [hrow]

theorem finishRun_of_row {row : Run} (h : status = .exited ∨ status = .failed ∨ status = .uncertain)
    (hrow : w.runRow r = some row) :
    w.finishRun r status = (.ok { row with status }, w.setRunStatus r status) := by
  rcases w.finishRun_cases r h with ⟨row', hrow', hstep⟩ | ⟨e, hnone, _⟩
  · rw [hrow] at hrow'
    cases hrow'
    exact hstep
  · rw [hrow] at hnone
    cases hnone

/-- A run is recorded under a new id for an existing instance. -/
theorem recordRun_cases (w : Workspace) (r i : Id) (identity : ProcessIdentity)
    (qmpSocket : String) (now : Nat) :
    (∃ runs, w.runRow r = none ∧
      w.runs.insert (newRun r i identity qmpSocket now) = some runs ∧
      w.recordRun r i identity qmpSocket now =
        (.ok (newRun r i identity qmpSocket now), { w with runs })) ∨
    (∃ e, w.recordRun r i identity qmpSocket now = (.error e, w)) := by
  unfold recordRun
  cases w.instance_ i with
  | error e => exact .inr ⟨e, rfl⟩
  | ok row =>
    cases hinsert : w.runs.insert (newRun r i identity qmpSocket now) with
    | none => exact .inr ⟨_, rfl⟩
    | some runs => exact .inl ⟨runs, (Table.insert_eq_some hinsert).2, rfl, rfl⟩

/-- A new id is recorded for an existing instance. -/
theorem recordRun_of_new (identity : ProcessIdentity) (qmpSocket : String) (now : Nat)
    (hrow : w.instanceRow i ≠ none) (hr : w.runRow r = none) :
    ∃ runs, w.runs.insert (newRun r i identity qmpSocket now) = some runs ∧
      w.recordRun r i identity qmpSocket now =
        (.ok (newRun r i identity qmpSocket now), { w with runs }) := by
  obtain ⟨row, hrow⟩ := Option.ne_none_iff_exists'.1 hrow
  obtain ⟨runs, hinsert⟩ :=
    Table.insert_of_find?_none (a := newRun r i identity qmpSocket now) hr
  refine ⟨runs, hinsert, ?_⟩
  unfold recordRun
  rw [instance_eq_ok.2 hrow]
  simp only [hinsert]

theorem runsOf_insert {runs : Table Run.runId} (h : w.runs.insert run = some runs) :
    ({ w with runs } : Workspace).runsOf i =
      if run.instanceId = i then w.runsOf i ++ [run] else w.runsOf i := by
  unfold runsOf
  rw [(Table.insert_eq_some h).1, filter_append]
  by_cases hi : run.instanceId = i <;> simp [hi]

/-- A recorded run is the last active one of its instance. -/
theorem activeRuns_insert {runs : Table Run.runId} (h : w.runs.insert run = some runs)
    (hi : run.instanceId = i) (ha : run.status.active = true) :
    ({ w with runs } : Workspace).activeRuns i = w.activeRuns i ++ [run] := by
  unfold activeRuns
  rw [runsOf_insert h, if_pos hi]
  simp [filter_append, ha]

theorem activeIds_insert {runs : Table Run.runId} (h : w.runs.insert run = some runs)
    (hi : run.instanceId = i) (ha : run.status.active = true) :
    ({ w with runs } : Workspace).activeIds i = w.activeIds i ++ [run.runId] := by
  unfold activeIds
  rw [activeRuns_insert h hi ha, map_append]
  rfl

@[simp] theorem instanceRow_observeLifecycle {target : InstanceState} :
    (w.observeLifecycle i target).instanceRow j =
      if j = i then (w.instanceRow i).map fun row =>
        if row.state = target then row
        else { row with state := target, revision := row.revision + 1 }
      else w.instanceRow j :=
  Table.find?_modifyAt (fun row => by split <;> rfl) j

/-- A current run is the active run of its instance and has a row. -/
theorem isCurrentRun_iff :
    w.isCurrentRun run = true ↔ ∃ active, w.activeRun run.instanceId = some active ∧
      active.runId = run.runId ∧ active.identity = run.identity := by
  unfold isCurrentRun
  cases w.activeRun run.instanceId <;> simp

/-- An observation moves the lifecycle of the active run's instance, or fails and changes
nothing. -/
theorem observeRunStatus_cases (w : Workspace) (matches_ : ProcessIdentity → Bool) (run : Run)
    (status : String) :
    (∃ target, InstanceState.fromQmp status = .ok target ∧ matches_ run.identity = true ∧
      w.isCurrentRun run = true ∧
      w.observeRunStatus matches_ run status =
        ((w.observeLifecycle run.instanceId target).instance_ run.instanceId,
          w.observeLifecycle run.instanceId target)) ∨
    (∃ e, w.observeRunStatus matches_ run status = (.error e, w)) := by
  unfold observeRunStatus
  cases hstatus : InstanceState.fromQmp status with
  | error e => exact .inr ⟨e, rfl⟩
  | ok target =>
    by_cases hcurrent : (matches_ run.identity && w.isCurrentRun run) = true
    · obtain ⟨hmatch, hrun⟩ := Bool.and_eq_true_iff.1 hcurrent
      exact .inl ⟨target, rfl, hmatch, hrun, by simp [hcurrent]⟩
    · exact .inr ⟨_, by simp only [if_neg hcurrent]; rfl⟩

/-- An observation of the current, live run. -/
theorem observeRunStatus_of_current {matches_ : ProcessIdentity → Bool}
    {status : String} {target : InstanceState}
    (hstatus : InstanceState.fromQmp status = .ok target) (hmatch : matches_ run.identity = true)
    (hcurrent : w.isCurrentRun run = true) (hrow : w.instanceRow run.instanceId = some row) :
    w.observeRunStatus matches_ run status =
      (.ok (if row.state = target then row
        else { row with state := target, revision := row.revision + 1 }),
        w.observeLifecycle run.instanceId target) := by
  have hnext : (w.observeLifecycle run.instanceId target).instance_ run.instanceId =
      .ok (if row.state = target then row
        else { row with state := target, revision := row.revision + 1 }) := by
    rw [instance_eq_ok, instanceRow_observeLifecycle, if_pos rfl, hrow]
    rfl
  unfold observeRunStatus
  simp only [hstatus, hmatch, hcurrent, Bool.and_self, if_true, hnext]

/-- The active run with its only id. -/
theorem activeRun_of_activeIds (hids : w.activeIds i = [run.runId])
    (hrow : w.runRow run.runId = some run) : w.activeRun i = some run := by
  cases hactive : w.activeRun i with
  | none =>
    rw [activeRun_eq_none_iff.1 hactive] at hids
    cases hids
  | some active =>
    have hmem := activeRun_mem_activeIds hactive
    rw [hids, mem_singleton] at hmem
    have hsame := runRow_of_activeRun hactive
    rw [hmem, hrow] at hsame
    exact hsame.symm

/-! ## Operations -/

/-- The statements on the operations table keep the instances and the runs. -/
theorem beginOperation_keeps (w : Workspace) (o i : Id) (kind key inputJson : String) (now : Nat) :
    (w.beginOperation o i kind key inputJson now).2.runs = w.runs ∧
      (w.beginOperation o i kind key inputJson now).2.instances = w.instances := by
  unfold beginOperation
  split
  · exact ⟨rfl, rfl⟩
  · dsimp only
    split
    · split <;> exact ⟨rfl, rfl⟩
    · split <;> exact ⟨rfl, rfl⟩

/-- An operation under a new id and a new key is accepted. -/
theorem beginOperation_of_new {o : Id} {key : String} (kind inputJson : String) (now : Nat)
    (hrow : w.instanceRow i ≠ none) (ho : w.operations.find? o = none)
    (hkey : ∀ row ∈ w.operations.rows, row.idempotencyKey ≠ key) :
    ∃ operation operations, operation.status = .accepted ∧
      w.beginOperation o i kind key inputJson now = (.ok operation, { w with operations }) := by
  obtain ⟨row, hrow⟩ := Option.ne_none_iff_exists'.1 hrow
  have hnone : (w.operations.rows.find? fun row =>
      row.instanceId = i && row.idempotencyKey = key) = none := by
    rw [List.find?_eq_none]
    intro operation hmem hsame
    have hsamekey := (Bool.and_eq_true_iff.1 hsame).2
    exact hkey operation hmem (by simpa using hsamekey)
  let operation : Operation :=
    { operationId := o, instanceId := i, kind, idempotencyKey := key,
      inputSha256 := Lib.Sha256.hexDigest inputJson, status := .accepted, resultJson := none,
      createdAt := now }
  obtain ⟨operations, hinsert⟩ := Table.insert_of_find?_none (a := operation) ho
  refine ⟨operation, operations, rfl, ?_⟩
  unfold beginOperation
  rw [instance_eq_ok.2 hrow]
  simp only [hnone]
  simp only [operation] at hinsert
  simp only [hinsert, operation]

theorem completeOperation_keeps (w : Workspace) (o : Id) (result : OperationResult) :
    (w.completeOperation o result).2.runs = w.runs ∧
      (w.completeOperation o result).2.instances = w.instances := by
  unfold completeOperation
  split <;> exact ⟨rfl, rfl⟩

theorem failOperation_keeps (w : Workspace) (o : Id) (reason : String) :
    (w.failOperation o reason).2.runs = w.runs ∧
      (w.failOperation o reason).2.instances = w.instances := by
  unfold failOperation
  split
  · exact ⟨rfl, rfl⟩
  · split <;> exact ⟨rfl, rfl⟩

/-! ## Insertion and removal of instances -/

theorem insertInstance_cases (w : Workspace) (i image profile : Id) :
    (∃ instances tombstones, w.instanceRow i = none ∧
      w.instances.insert (newInstance i image profile) = some instances ∧
      w.insertInstance i image profile = (.ok (newInstance i image profile),
        { w with instances, instanceTombstones := tombstones })) ∨
    (∃ e, w.insertInstance i image profile = (.error e, w)) := by
  unfold insertInstance
  cases hinsert : w.instances.insert (newInstance i image profile) with
  | none => exact .inr ⟨_, rfl⟩
  | some instances =>
    exact .inl ⟨instances, _, (Table.insert_eq_some hinsert).2, rfl, rfl⟩

@[simp] theorem runsOf_deleteInstance : (w.deleteInstance i).runsOf i = [] := by
  unfold runsOf
  rw [show (w.deleteInstance i).runs.rows = w.runs.rows.filter fun row => row.instanceId ≠ i
    from rfl, filter_filter]
  simp

@[simp] theorem activeIds_deleteInstance : (w.deleteInstance i).activeIds i = [] := by
  simp [activeIds, activeRuns]

@[simp] theorem instanceRow_deleteInstance : (w.deleteInstance i).instanceRow i = none := by
  refine Table.find?_eq_none_iff.2 fun row hrow hi => ?_
  have hne := (mem_filter.1 hrow).2
  simp [hi] at hne

theorem runs_recordInstanceTombstone (w : Workspace) (i : Id) (r : Option Id) (reason : String) :
    (w.recordInstanceTombstone i r reason).runs = w.runs := by
  unfold recordInstanceTombstone
  rfl

theorem instances_recordInstanceTombstone (w : Workspace) (i : Id) (r : Option Id)
    (reason : String) : (w.recordInstanceTombstone i r reason).instances = w.instances := by
  unfold recordInstanceTombstone
  rfl

end Workspace

end MachineEmu
