import MachineEmu.Api.Daemon
import MachineEmu.Runtime.Frames
import MachineEmu.Storage.Rows

/-!
# What most of a request leaves alone

Most acts of the requests neither write a run nor start a QEMU nor touch what a supervisor entry
names. They are the tame steps, and the parts of the requests built from them are framed once here.

* `TameStep` — the steps; `TameStep.of_procStep` — the process operations are tame.
* `frame_…` — the parts of the requests that consist of tame steps.
-/

namespace MachineEmu

open Lib Lib.Prog Act

/-! ## Tame steps -/

/-- The labels of the acts that need no argument about runs, processes or supervisors. -/
def Label.tame : Label → Bool
  | .quiet | .transition .. | .observe _ | .operation | .terminate | .publish => true
  | .spawn owner =>
    match owner with
    | .qemu .. => false
    | _ => true
  | _ => false

/-- A step that writes no run, starts no QEMU, keeps the set of instances, and keeps the
supervisor entries up to `preserve_on_drop`. -/
structure TameStep (l : Label) (s s' : World) : Prop where
  label : l.tame = true
  runs : s'.workspace.runs = s.workspace.runs
  instances : ∀ j, (s'.workspace.instanceRow j).isSome = (s.workspace.instanceRow j).isSome
  evolves : Evolves s.procs s'.procs
  noQemu : ∀ p ∈ s'.procs, p.identity ∉ s.identities → ∀ j r, p.owner ≠ .qemu j r
  supervisors : ∀ j, s'.supervisors j = s.supervisors j ∨
    s'.supervisors j = (s.supervisors j).map RunSupervisor.preserveOnDrop
  watches : s'.watches = s.watches
  spawnTails : s'.spawnTails = s.spawnTails

namespace TameStep

/-- A step that changes neither the processes nor the tables of the daemon. -/
theorem of_workspace {l : Label} {s : World} {w : Workspace} (hl : l.tame = true)
    (hruns : w.runs = s.workspace.runs)
    (hinstances : ∀ j, (w.instanceRow j).isSome = (s.workspace.instanceRow j).isSome) :
    TameStep l s { s with workspace := w } :=
  { label := hl, runs := hruns, instances := hinstances, evolves := Evolves.refl _,
    noQemu := fun p hp hnew => absurd (World.mem_identities.2 ⟨p, hp, rfl⟩) hnew,
    supervisors := fun _ => .inl rfl, watches := rfl, spawnTails := rfl }

theorem refl {l : Label} (hl : l.tame = true) (s : World) : TameStep l s s :=
  of_workspace hl rfl fun _ => rfl

theorem quiet (s : World) : TameStep .quiet s s := refl rfl s

/-- The operations on processes other than QEMU are tame. -/
theorem of_procStep {owner : Owner} (howner : ∀ j r, owner ≠ .qemu j r) {l : Label} {s s' : World}
    (h : ProcStep owner l s s') : TameStep l s s' := by
  have hrest := h.rest
  refine { label := ?_, runs := by rw [hrest], instances := fun j => by rw [hrest],
           evolves := h.evolves, noQemu := fun p hp hnew j r hq => ?_,
           supervisors := fun j => .inl (by rw [hrest]), watches := by rw [hrest],
           spawnTails := by rw [hrest] }
  · rcases h.label with rfl | rfl | rfl
    · rfl
    · rfl
    · cases owner with
      | qemu j r => exact absurd rfl (howner j r)
      | helper _ _ => rfl
      | launcher => rfl
      | other => rfl
  · rcases h.new p hp hnew with ho | ⟨ho, _⟩
    · exact howner j r (ho.symm.trans hq)
    · rw [ho] at hq
      cases hq

end TameStep

/-- A process operation that spawns no QEMU and no helper. -/
theorem TameStep.of_other {l : Label} {s s' : World} (h : ProcStep .other l s s') :
    TameStep l s s' :=
  .of_procStep (by simp) h

/-! ## Process operations of the requests -/

section Procs

variable {owner : Owner}

theorem frame_stopAllChecked (helpers : List ManagedProcess) :
    Frame (ProcStep owner) anyValue (stopAllChecked helpers) := by
  have hgo : ∀ (ps : List ManagedProcess) (first : Option Error),
      Frame (ProcStep owner) anyValue (stopAllChecked.go ps first) := by
    intro ps
    induction ps with
    | nil =>
      intro first
      cases first with
      | none => exact trivial
      | some e => exact frame_throw
    | cons p rest ih =>
      intro first
      refine (frame_terminateGracefully p).attempt.bind fun result _ =>
        (frame_dropProcess p).andThen fun _ => ?_
      cases result with
      | ok _ => exact ih first
      | error e => exact ih _
  exact hgo _ none

theorem frame_stopAll (helpers : List ManagedProcess) :
    Frame (ProcStep owner) anyValue (stopAll helpers) :=
  frame_ignore (frame_stopAllChecked helpers)

theorem frame_awaitReady (name : Id) (p : ManagedProcess) :
    Frame (ProcStep owner) anyValue (awaitReady name p) := by
  refine Frame.ask fun r => ?_
  split
  · refine (frame_tryWait p).andThen fun exit => ?_
    cases exit with
    | some _ => exact frame_throw
    | none => exact trivial
  · exact (frame_ignore (frame_terminateGracefully p)).andThen fun _ => frame_throw

theorem frame_spawnHelper (i r : Id) (spec : HelperSpec) :
    Frame (ProcStep (.helper i r)) anyValue (spawnHelper i r spec) := by
  refine (frame_ofExcept (V := anyValue) fun _ _ => trivial).andThen fun name => ?_
  split
  · exact frame_throw
  · refine frame_outside.andThen fun _ =>
      (frame_ofExcept (V := anyValue) fun _ _ => trivial).andThen fun helperId =>
      (frame_spawnSystemdScope helperId _).andThen fun p => ?_
    cases spec.readySocket with
    | none => exact trivial
    | some _ =>
      exact (frame_owning (fun _ _ _ h => h) (frame_awaitReady name p)).andThen fun _ => trivial

theorem frame_dropConnection (running : Option AsyncRunningInstance) :
    Frame (ProcStep owner) anyValue (dropConnection running) := by
  cases running with
  | none => exact trivial
  | some running => exact frame_dropOption _

theorem frame_pollExit (running : AsyncRunningInstance) :
    Frame (ProcStep owner) anyValue (pollExit running) := by
  unfold pollExit
  split
  · exact frame_tryWait _
  · exact frame_query ProcStep.quiet

end Procs

/-! ## Parts of the requests -/

section Frames

/-- A process operation other than the spawn of QEMU. -/
theorem frame_tame {α : Type} {V : α → Prop} {p : Act α}
    (hp : Frame (ProcStep .other) V p) : Frame TameStep V p :=
  hp.mono (fun _ _ _ h => .of_other h) fun _ h => h

theorem frame_tame_helper {α : Type} {V : α → Prop} {p : Act α} {i r : Id}
    (hp : Frame (ProcStep (.helper i r)) V p) : Frame TameStep V p :=
  hp.mono (fun _ _ _ h => TameStep.of_procStep (by simp) h) fun _ h => h

theorem frame_readInstance (i : Id) : Frame TameStep anyValue (readInstance i) :=
  frame_queryE TameStep.quiet

theorem isSome_setLifecycle (w : Workspace) (i j : Id) (next : InstanceState) :
    ((w.setLifecycle i next).instanceRow j).isSome = (w.instanceRow j).isSome := by
  rw [Workspace.instanceRow_setLifecycle]
  by_cases hj : j = i
  · subst hj
    simp
  · rw [if_neg hj]

theorem frame_transitionInstance (i : Id) (next : InstanceState) :
    Frame TameStep anyValue (transitionInstance i next) := by
  refine frame_stepE (fun s => ?_) fun _ _ _ => trivial
  rcases s.workspace.transitionInstance_cases i next with ⟨row, _, _, hstep⟩ | ⟨e, hstep, _⟩
  · simp only [hstep]
    exact TameStep.of_workspace rfl rfl (isSome_setLifecycle _ i · next)
  · simp only [hstep]
    exact TameStep.refl rfl s

theorem frame_observeRunStatus (run : Run) (status : String) :
    Frame TameStep anyValue (observeRunStatus run status) := by
  refine frame_stepE (fun s => ?_) fun _ _ _ => trivial
  rcases s.workspace.observeRunStatus_cases s.alive run status with
    ⟨target, _, _, _, hstep⟩ | ⟨e, hstep⟩
  · simp only [hstep]
    refine TameStep.of_workspace rfl rfl fun j => ?_
    rw [Workspace.instanceRow_observeLifecycle]
    by_cases hj : j = run.instanceId
    · subst hj
      simp
    · rw [if_neg hj]
  · simp only [hstep]
    exact TameStep.refl rfl s

/-- A statement on the operations table. -/
theorem frame_operation {α : Type} {f : World → Except Error α × Workspace}
    (hf : ∀ s, (f s).2.runs = s.workspace.runs ∧ (f s).2.instances = s.workspace.instances) :
    Frame TameStep anyValue (statement .operation f) := by
  refine frame_stepE (fun s => TameStep.of_workspace rfl (hf s).1 fun j => ?_) fun _ _ _ => trivial
  unfold Workspace.instanceRow
  rw [(hf s).2]

/-- A quiet change of the other tables. -/
theorem frame_tables {f : World → Workspace} (hruns : ∀ s, (f s).runs = s.workspace.runs)
    (hinstances : ∀ s, (f s).instances = s.workspace.instances) :
    Frame TameStep anyValue (modify .quiet fun s => { s with workspace := f s }) := by
  refine frame_modify fun s => TameStep.of_workspace rfl (hruns s) fun j => ?_
  unfold Workspace.instanceRow
  rw [hinstances s]

theorem frame_failOperation (o : Id) (reason : String) :
    Frame TameStep anyValue (failOperation o reason) :=
  frame_operation fun s => s.workspace.failOperation_keeps o reason

theorem frame_completeOperation (o : Id) (result : OperationResult) :
    Frame TameStep anyValue (completeOperation o result) :=
  frame_operation fun s => s.workspace.completeOperation_keeps o result

theorem frame_markError (i : Id) : Frame TameStep anyValue (markError i) := by
  refine (frame_readInstance i).andThen fun current => ?_
  split
  · exact (frame_transitionInstance i .error).andThen fun _ => trivial
  · exact trivial

theorem frame_publishStateFields (current : Instance) (r : Option Id) (status : Option RunStatus)
    (reason : String) : Frame TameStep anyValue (publishStateFields current r status reason) :=
  frame_modify fun _ =>
    { label := rfl, runs := rfl, instances := fun _ => rfl, evolves := Evolves.refl _,
      noQemu := fun p hp hnew => absurd (World.mem_identities.2 ⟨p, hp, rfl⟩) hnew,
      supervisors := fun _ => .inl rfl, watches := rfl, spawnTails := rfl }

theorem frame_publishState (current : Instance) (run : Option Run) (reason : String) :
    Frame TameStep anyValue (publishState current run reason) :=
  frame_publishStateFields _ _ _ _

theorem frame_onState (r : Id) (current : Instance) : Frame TameStep anyValue (onState r current) :=
  frame_publishStateFields _ _ _ _

theorem frame_recover (run : Run) :
    Frame TameStep (fun running => running.process = none ∧ running.runId = run.runId ∧
      running.recovered = some run.identity) (AsyncRunningInstance.recover run) :=
  (frame_queryE TameStep.quiet).andThen fun _ => frame_outside.andThen fun _ => ⟨rfl, rfl, rfl⟩

theorem frame_queryStatus {F : Label → World → World → Prop} : Frame F anyValue queryStatus := by
  refine Frame.ask fun r => ?_
  split
  · exact frame_ofExcept fun _ _ => trivial
  · exact frame_throw

theorem frame_reconnectRun (run : Run) :
    Frame TameStep (fun running => running.process = none ∧ running.runId = run.runId ∧
      running.recovered = some run.identity) (reconnectRun run) :=
  (frame_recover run).bind fun _ h => frame_queryStatus.andThen fun _ =>
    (frame_observeRunStatus run _).andThen fun _ => h

theorem frame_beginStart (request : StartRequest) :
    Frame TameStep anyValue (beginStart request) := by
  refine Frame.ask fun reply =>
    (frame_operation fun s => s.workspace.beginOperation_keeps ..).andThen fun operation => ?_
  split
  · exact trivial
  · exact frame_throw

theorem frame_enterStarting (request : StartRequest) :
    Frame TameStep anyValue (enterStarting request) :=
  (frame_transitionInstance _ _).andThen fun _ => frame_onState _ _

theorem frame_pauseInstanceAsync (i : Id) : Frame TameStep anyValue (pauseInstanceAsync i) := by
  refine (frame_readInstance i).andThen fun current => ?_
  split
  · exact frame_throw
  · exact frame_outside.andThen fun _ => frame_transitionInstance i _

theorem frame_resumeInstanceAsync (i : Id) : Frame TameStep anyValue (resumeInstanceAsync i) := by
  refine (frame_readInstance i).andThen fun current => ?_
  split
  · exact frame_throw
  · exact frame_outside.andThen fun _ => frame_transitionInstance i _

theorem frame_resetInstanceAsync (i : Id) : Frame TameStep anyValue (resetInstanceAsync i) := by
  refine (frame_readInstance i).andThen fun current => ?_
  split
  · exact frame_throw
  · exact frame_outside

theorem frame_finishInstanceDeletion (i : Id) :
    Frame TameStep anyValue (finishInstanceDeletion i) := by
  refine (frame_query TameStep.quiet).andThen fun pending => ?_
  split
  · refine frame_outside.andThen fun _ => (frame_modify fun s => ?_).andThen fun _ =>
      (frame_tables (by intro; rfl) (by intro; rfl)).andThen fun _ => frame_pure
    exact
      { label := rfl, runs := rfl, instances := fun _ => rfl, evolves := Evolves.refl _,
        noQemu := fun p hp hnew => absurd (World.mem_identities.2 ⟨p, hp, rfl⟩) hnew,
        supervisors := fun _ => .inl rfl, watches := rfl, spawnTails := rfl }
  · exact trivial

theorem frame_recordTombstone (i : Id) (r : Option Id) (reason : String) :
    Frame TameStep anyValue (modify .quiet fun s =>
      { s with workspace := s.workspace.recordInstanceTombstone i r reason }) :=
  frame_tables (fun s => s.workspace.runs_recordInstanceTombstone i r reason)
    fun s => s.workspace.instances_recordInstanceTombstone i r reason

theorem frame_checkRemovable (i : Id) : Frame TameStep anyValue (checkRemovable i) := by
  refine (frame_readInstance i).andThen fun current => ?_
  split
  · exact frame_throw
  · exact frame_queryE TameStep.quiet

theorem frame_reconcileOperation (o : Id) : Frame TameStep anyValue (reconcileOperation o) := by
  refine (frame_queryE TameStep.quiet).andThen fun row =>
    (frame_queryE TameStep.quiet).andThen fun completed => ?_
  cases completed with
  | some result => exact (frame_completeOperation o result).andThen fun _ => trivial
  | none => exact (frame_failOperation o _).andThen fun _ => trivial

theorem frame_reconcileOperations : Frame TameStep anyValue reconcileOperations :=
  (frame_query TameStep.quiet).andThen fun _ => frame_forEach fun o _ => frame_reconcileOperation o

theorem frame_recoverRunHelpers (r : Id) : Frame TameStep anyValue (recoverRunHelpers r) := by
  refine (frame_query TameStep.quiet).andThen fun rows => ?_
  induction rows with
  | nil => exact trivial
  | cons row rest ih =>
    refine (frame_query TameStep.quiet).andThen fun matches_ => ?_
    split
    · exact (frame_ofExcept (V := anyValue) fun _ _ => trivial).andThen fun id =>
        (frame_tame (frame_adopt id _)).andThen fun p => ih.andThen fun ps => frame_pure
    · exact ih

theorem frame_spawnBefore (i r : Id) (specs : List HelperSpec) (helpers : List ManagedProcess) :
    Frame TameStep anyValue (spawnBefore i r specs helpers) := by
  induction specs generalizing helpers with
  | nil => exact trivial
  | cons spec rest ih =>
    refine (frame_tame_helper (frame_spawnHelper i r spec)).attempt.bind fun result _ => ?_
    cases result with
    | ok p => exact ih _
    | error e => exact (frame_tame (frame_stopAll helpers)).andThen fun _ => frame_throw

theorem frame_launchPlan (i : Id) : Frame TameStep anyValue (launchPlan i) :=
  frame_queryE TameStep.quiet

theorem frame_spawnLegacyHelper (i r : Id) (argv : Option (List String)) :
    Frame TameStep anyValue (spawnLegacyHelper i r argv) := by
  cases argv with
  | none => exact trivial
  | some argv =>
    exact (frame_ofExcept (V := anyValue) fun _ _ => trivial).andThen fun helperId =>
      (frame_tame_helper (frame_spawnSystemdScope helperId argv)).andThen fun p => trivial

theorem frame_preserve (i : Id) : Frame TameStep anyValue (preserve i) := by
  refine frame_modify fun s =>
    { label := rfl, runs := rfl, instances := fun _ => rfl, evolves := Evolves.refl _,
      noQemu := fun p hp hnew => absurd (World.mem_identities.2 ⟨p, hp, rfl⟩) hnew,
      supervisors := fun j => ?_, watches := rfl, spawnTails := rfl }
  by_cases hj : j = i
  · subst hj
    exact .inr (Function.update_self ..)
  · exact .inl (Function.update_of_ne hj ..)

theorem workspace_spawnRunEvents (s : World) (run : Run) :
    (spawnRunEvents s run).workspace = s.workspace := by
  unfold spawnRunEvents
  split
  · rfl
  · split <;> rfl

theorem procs_spawnRunEvents (s : World) (run : Run) : (spawnRunEvents s run).procs = s.procs := by
  unfold spawnRunEvents
  split
  · rfl
  · split <;> rfl

theorem frame_snapshotRow (snapshot : Id) : Frame TameStep anyValue (snapshotRow snapshot) :=
  frame_queryE TameStep.quiet

theorem frame_restoreSnapshot (snapshot : Id) :
    Frame TameStep anyValue (restoreSnapshot snapshot) :=
  (frame_snapshotRow snapshot).andThen fun _ => frame_outside.andThen fun _ => frame_pure

theorem frame_createSnapshot (snapshot i : Id) :
    Frame TameStep anyValue (createSnapshot snapshot i) := by
  refine (frame_readInstance i).andThen fun current => ?_
  split
  · exact frame_throw
  · refine frame_outside.andThen fun _ => frame_operation fun s => ?_
    simp only
    split <;> exact ⟨rfl, rfl⟩

end Frames

end MachineEmu
