import Mathlib.Data.Fintype.EquivFin
import Mathlib.Data.Finset.Dedup
import MachineEmu.Safety.Processes

/-!
# Recoverable instances

An instance is recoverable when some requests lead to a started or removed one. That fails only
between the end of its run and the transition out of `stopping`: no request leaves that state.

* `Recoverable` — some requests lead to a started or removed instance.
* `Stranded` — lifecycle `stopping` and no active run.
* `Stranded.not_recoversIn` — a stranded instance stays stranded.
* `recoverable_iff_not_stranded` — every other one is recoverable.
-/

namespace MachineEmu.CrashRecovery

open Lib Lib.Prog Lib.Service Act List

/-! ## Recoverable states -/

/-- The requests of a recovery, as the workspace answers them. -/
inductive Recovery where
  | recover
  | stop
  | start (request : StartRequest)
  | remove

/-- The answer to a request: `recover_instance_run_async`, `stop_instance_async` with the connection
a recovery returns, `start_instance_async`, `remove_instance`. -/
def answer (i : Id) : Recovery → Act Unit
  | .recover => (recoverInstanceRunAsync i).bind fun _ => ret ()
  | .stop =>
    (recoverInstanceRunAsync i).bind fun recovered =>
      match recovered with
      | none => throw (.process "instance has no live run")
      | some running => (stopInstanceAsync i running .stop).bind fun _ => ret ()
  | .start request =>
    (startInstanceAsync { request with instanceId := i }).bind fun _ => ret ()
  | .remove => removeInstance i

/-- The instance runs: its lifecycle says so and the process of an active run is alive. -/
def Started (i : Id) (s : World) : Prop :=
  (s.workspace.lifecycle i = some .running ∨ s.workspace.lifecycle i = some .paused) ∧
    ∃ run ∈ s.workspace.activeRuns i, s.alive run.identity = true

/-- The instance does not exist any more. -/
def Removed (i : Id) (s : World) : Prop := s.workspace.instanceRow i = none

/-- So many requests, the last of which is accepted, can lead to a started or removed instance. -/
def RecoversIn (i : Id) : Nat → World → Prop
  | 0, s => Started i s ∨ Removed i s
  | n + 1, s => ∃ q : Recovery,
    May (fun result s' => (n = 0 → result = .ok ()) ∧ RecoversIn i n s') (answer i q) s

/-- The instance is not stuck. -/
def Recoverable (i : Id) (s : World) : Prop := ∃ n, RecoversIn i n s

/-- The run has ended and the lifecycle has not left `stopping`. -/
def Stranded (i : Id) (s : World) : Prop :=
  s.workspace.lifecycle i = some .stopping ∧ s.workspace.activeIds i = []

instance (i : Id) (s : World) : Decidable (Stranded i s) := inferInstanceAs (Decidable (_ ∧ _))

variable {i r : Id} {s s' : World}

/-! ## Stranded instances stay stranded -/

/-- The judgement of a request that runs alone. -/
abbrev Keeps {α : Type} (i : Id) (Q : α → World → Prop) (p : Act α) (s : World) : Prop :=
  Ok (· = ·) (fun _ _ => True) (fun _ _ _ => True) Q (fun _ => Stranded i) p s

/-- A step that leaves the row and the runs of the instance alone. -/
structure SameInstance (i : Id) (s s' : World) : Prop where
  row : s'.workspace.instanceRow i = s.workspace.instanceRow i
  runs : s'.workspace.runsOf i = s.workspace.runsOf i

theorem SameInstance.refl (i : Id) (s : World) : SameInstance i s s := ⟨rfl, rfl⟩

theorem SameInstance.lifecycle (h : SameInstance i s s') :
    s'.workspace.lifecycle i = s.workspace.lifecycle i := by
  unfold Workspace.lifecycle
  rw [h.row]

theorem SameInstance.activeIds (h : SameInstance i s s') :
    s'.workspace.activeIds i = s.workspace.activeIds i := by
  unfold Workspace.activeIds Workspace.activeRuns
  rw [h.runs]

theorem SameInstance.stranded (h : SameInstance i s s') : Stranded i s' ↔ Stranded i s := by
  unfold Stranded
  rw [h.lifecycle, h.activeIds]

theorem SameInstance.of_tables (hinstances : s'.workspace.instances = s.workspace.instances)
    (hruns : s'.workspace.runs = s.workspace.runs) : SameInstance i s s' := by
  refine ⟨?_, ?_⟩
  · unfold Workspace.instanceRow
    rw [hinstances]
  · unfold Workspace.runsOf
    rw [hruns]

variable {owner : Owner}

theorem SameInstance.of_procStep {l : Label} (h : ProcStep owner l s s') : SameInstance i s s' := by
  refine .of_tables ?_ ?_ <;> rw [h.rest]

variable {α : Type}

/-- What a program of such steps keeps. -/
theorem ok_of_same {R : World → World → Prop} {A : Label → World → Prop}
    {V : α → Prop} {P : World → Prop} {p : Act α}
    (hp : Frame (fun _ => SameInstance i) V p) (hs : P s)
    (hR : ∀ s₁ s₂, R s₁ s₂ → SameInstance i s₁ s₂)
    (hP : ∀ s₁ s₂, SameInstance i s₁ s₂ → P s₁ → P s₂) :
    Ok R A (fun _ _ _ => True) (fun a s' => V a ∧ P s') (fun _ => P) p s :=
  Ok.of_frame hp hs (fun s₁ s₂ h => hP s₁ s₂ (hR s₁ s₂ h)) fun _ s₁ s₂ _ h hF =>
    ⟨hP s₁ s₂ hF h, trivial⟩

theorem same_procs {V : α → Prop} {p : Act α}
    (hp : Frame (ProcStep owner) V p) : Frame (fun _ => SameInstance i) V p :=
  hp.mono (fun _ _ _ h => .of_procStep h) fun _ h => h

theorem same_operation {f : World → Except Error α × Workspace}
    (hf : ∀ s, (f s).2.runs = s.workspace.runs ∧ (f s).2.instances = s.workspace.instances) :
    Frame (fun _ => SameInstance i) anyValue (statement .operation f) :=
  frame_stepE (fun s => .of_tables (hf s).2 (hf s).1) fun _ _ _ => trivial

theorem same_failOperation (o : Id) (reason : String) :
    Frame (fun _ => SameInstance i) anyValue (failOperation o reason) :=
  same_operation fun s => s.workspace.failOperation_keeps o reason

theorem same_completeOperation (o : Id) (result : OperationResult) :
    Frame (fun _ => SameInstance i) anyValue (completeOperation o result) :=
  same_operation fun s => s.workspace.completeOperation_keeps o result

theorem same_readInstance (j : Id) :
    Frame (fun _ => SameInstance i) anyValue (readInstance j) :=
  frame_queryE (SameInstance.refl i)

theorem same_beginStart (request : StartRequest) :
    Frame (fun _ => SameInstance i) anyValue (beginStart request) := by
  refine Frame.ask fun reply =>
    (same_operation fun s => s.workspace.beginOperation_keeps ..).andThen fun operation => ?_
  split
  · exact trivial
  · exact frame_throw

theorem same_finishInstanceDeletion (j : Id) :
    Frame (fun _ => SameInstance i) anyValue (finishInstanceDeletion j) := by
  refine (frame_query (SameInstance.refl i)).andThen fun pending => ?_
  split
  · exact frame_outside.andThen fun _ => (frame_modify fun _ => .of_tables rfl rfl).andThen fun _ =>
      (frame_modify fun _ => .of_tables rfl rfl).andThen fun _ => frame_pure
  · exact frame_pure

theorem keeps_of_same {V : α → Prop} {p : Act α}
    (hp : Frame (fun _ => SameInstance i) V p) (hs : Stranded i s) :
    Keeps i (fun a s' => V a ∧ Stranded i s') p s :=
  ok_of_same hp hs (fun s₁ _ h => h ▸ SameInstance.refl i s₁) fun _ _ h hs => h.stranded.2 hs

theorem Stranded.activeRun (h : Stranded i s) : s.workspace.activeRun i = none :=
  Workspace.activeRun_eq_none_iff.2 h.2

theorem Stranded.row (h : Stranded i s) :
    ∃ row, s.workspace.instanceRow i = some row ∧ row.state = .stopping := by
  obtain ⟨row, hrow, hstate⟩ := Option.map_eq_some_iff.1 h.1
  exact ⟨row, hrow, hstate⟩

/-- A recovery finds no run. -/
theorem keeps_recover (hs : Stranded i s) :
    Keeps i (fun recovered s' => recovered = none ∧ Stranded i s')
      (recoverInstanceRunAsync i) s := by
  refine ok_query_bind fun s₁ hR _ => ?_
  subst hR
  rw [hs.activeRun]
  exact ⟨trivial, rfl, hs⟩

/-- A transition other than to `stopped` or `error` is refused. -/
theorem keeps_transition {next : InstanceState}
    (hnext : InstanceState.stopping.allows next = false) (hs : Stranded i s) :
    Keeps i (fun _ _ => False) (transitionInstance i next) s := by
  refine ok_statement fun s₁ hR _ => ?_
  subst hR
  obtain ⟨row, hrow, hstate⟩ := hs.row
  rcases s.workspace.transitionInstance_cases i next with ⟨row', hrow', hallow, _⟩ | ⟨e, hstep, _⟩
  · rw [hrow] at hrow'
    cases hrow'
    rw [hstate, hnext] at hallow
    cases hallow
  · rw [hstep]
    exact ⟨trivial, by simp, fun _ _ => hs⟩

/-- The start fails before it spawns anything. -/
theorem keeps_launch (request : StartRequest) (o : Id) (hi : request.instanceId = i)
    (hs : Stranded i s) :
    Keeps i (fun started s' => started.1 = false ∧ (∃ e, started.2 = .error e) ∧ Stranded i s')
      (launch request o) s := by
  subst hi
  have henter : Keeps request.instanceId (fun _ _ => False) (enterStarting request) s := by
    refine (keeps_transition rfl hs).bind fun _ _ h => h.elim
  have hspawn : Keeps request.instanceId (fun _ _ => False)
      ((enterStarting request).bind fun _ =>
        spawnSystemdScope (.qemu request.instanceId request.runId) request.runId
          request.argv) s := henter.bind fun _ _ h => h.elim
  refine (Ok.attempt (E := fun result s' => (∃ e, result = .error e) ∧
    Stranded request.instanceId s') (hspawn.mono (fun _ _ h => h.elim)
      fun e _ h => ⟨⟨e, rfl⟩, h⟩)).bind fun spawned s₁ h₁ => ?_
  obtain ⟨⟨e, rfl⟩, h₁⟩ := h₁
  exact ⟨rfl, ⟨e, rfl⟩, h₁⟩

theorem keeps_cleanupStart (request : StartRequest) (o : Id) (e : Error)
    (hi : request.instanceId = i) (hs : Stranded i s) :
    Keeps i (fun _ => Stranded i) (cleanupStart request o false e) s := by
  subst hi
  refine ((keeps_of_same (frame_ignore (same_failOperation o e.message)) hs).mono
    (fun _ _ h => h.2) fun _ _ h => h).bind fun _ s₁ h₁ => ?_
  refine Ok.bind (M := fun _ => Stranded request.instanceId) h₁ fun _ s₂ h₂ => ?_
  have hread : Keeps request.instanceId
      (fun current s' => current.state = .stopping ∧ Stranded request.instanceId s')
      (readInstance request.instanceId) s₂ := by
    refine ok_queryE fun s₃ hR _ => ?_
    subst hR
    refine ⟨trivial, fun current hcurrent => ?_, fun _ _ => h₂⟩
    obtain ⟨row, hrow, hstate⟩ := h₂.row
    rw [Workspace.instance_eq_ok, hrow] at hcurrent
    cases hcurrent
    exact ⟨hstate, h₂⟩
  refine (Ok.attempt (E := fun found s' => (∀ current, found = .ok current →
    current.state = .stopping) ∧ Stranded request.instanceId s') (hread.mono
      (fun current _ h => ⟨by rintro _ ⟨⟩; exact h.1, h.2⟩)
      fun _ _ h => ⟨by rintro _ ⟨⟩, h⟩)).bind fun found s₃ h₃ => ?_
  cases found with
  | error _ => exact h₃.2
  | ok current =>
    have hstate := h₃.1 current rfl
    simp only [hstate, reduceCtorEq, or_self, if_false]
    exact h₃.2

theorem keeps_start (request : StartRequest) (hi : request.instanceId = i) (hs : Stranded i s) :
    Keeps i (fun _ => Stranded i) (startInstanceAsync request) s := by
  subst hi
  have hadmit : Keeps request.instanceId (fun _ => Stranded request.instanceId)
      (admitStart request.instanceId) s := by
    refine ok_query_bind fun s₁ hR _ => ?_
    subst hR
    rw [hs.activeRun]
    exact ⟨trivial, hs⟩
  refine hadmit.bind fun _ s₁ h₁ => ?_
  refine (keeps_of_same (same_beginStart request) h₁).bind fun operation s₂ h₂ => ?_
  refine (keeps_launch request _ rfl h₂.2).bind fun started s₃ h₃ => ?_
  obtain ⟨recorded, result⟩ := started
  obtain ⟨rfl, ⟨e, rfl⟩, h₃⟩ := h₃
  exact (keeps_cleanupStart request _ e rfl h₃).bind fun _ _ h => h

/-- A removal is refused. -/
theorem keeps_remove (hs : Stranded i s) :
    Keeps i (fun _ => Stranded i) (removeInstance i) s := by
  refine (keeps_of_same (same_finishInstanceDeletion i) hs).bind fun finished s₁ h₁ => ?_
  split
  · exact h₁.2
  · refine (keeps_of_same (same_readInstance i) h₁.2).bind fun _ s₂ h₂ => ?_
    have hreconcile : Keeps i (fun _ => Stranded i) (reconcileForRemoval i) s₂ := by
      refine ok_query_bind fun s₃ hR _ => ?_
      subst hR
      rw [h₂.2.activeRun]
      exact ⟨trivial, h₂.2⟩
    refine hreconcile.bind fun _ s₃ h₃ => ?_
    have hcheck : Keeps i (fun _ _ => False) (checkRemovable i) s₃ := by
      refine ok_queryE_bind fun s₄ hR _ => ?_
      subst hR
      refine ⟨trivial, fun current hcurrent => ?_, fun _ _ => h₃⟩
      obtain ⟨row, hrow, hstate⟩ := h₃.row
      rw [Workspace.instance_eq_ok, hrow] at hcurrent
      cases hcurrent
      simp only [hstate, ne_eq, reduceCtorEq, not_false_eq_true, and_self, if_true]
      exact h₃
    exact hcheck.bind fun _ _ h => h.elim

theorem keeps_answer (q : Recovery) (hs : Stranded i s) :
    Keeps i (fun _ => Stranded i) (answer i q) s := by
  cases q with
  | recover => exact (keeps_recover hs).bind fun _ _ h => h.2
  | stop =>
    refine (keeps_recover hs).bind fun recovered s₁ h₁ => ?_
    rw [h₁.1]
    exact h₁.2
  | start request =>
    exact (keeps_start { request with instanceId := i } rfl hs).bind fun _ _ h => h
  | remove => exact keeps_remove hs

theorem Stranded.not_done (hs : Stranded i s) : ¬ (Started i s ∨ Removed i s) := by
  rintro (⟨_, run, hrun, _⟩ | hremoved)
  · have hids : (s.workspace.activeRuns i).map Run.runId = [] := hs.2
    rw [map_eq_nil_iff.1 hids] at hrun
    cases hrun
  · obtain ⟨row, hrow, _⟩ := hs.row
    rw [Removed, hrow] at hremoved
    cases hremoved

/-- No sequence of requests leads out of a stranded state. -/
theorem Stranded.not_recoversIn (n : Nat) (hs : Stranded i s) : ¬ RecoversIn i n s := by
  induction n generalizing s with
  | zero => exact hs.not_done
  | succ n ih =>
    rintro ⟨q, hmay⟩
    obtain ⟨result, s', hresult, hok, herror⟩ :=
      (keeps_answer q hs).of_may (fun _ => rfl) (fun _ _ => trivial) hmay
    cases result with
    | ok u => exact ih (hok u rfl) hresult.2
    | error e => exact ih (herror e rfl) hresult.2

/-! ## A start that succeeds -/

/-- A start whose ids and key are new; its command is not empty, and the caller completes its
operation, as the API does. -/
structure Fresh (request : StartRequest) (s : World) : Prop where
  operation : s.workspace.operations.find? request.operationId = none
  key : ∀ row ∈ s.workspace.operations.rows, row.idempotencyKey ≠ request.idempotencyKey
  run : s.workspace.runRow request.runId = none
  argv : request.argv ≠ []
  complete : request.completeOperation = false

/-- A list of ids leaves one out. -/
theorem exists_new_id (ids : List Id) : ∃ new : Id, new ∉ ids := by
  have hinj : Function.Injective fun n : Nat => (⟨String.ofList (List.replicate n 'a')⟩ : Id) := by
    intro m n h
    have hlist : List.replicate m 'a' = List.replicate n 'a' :=
      String.ofList_injective (Id.mk.inj h)
    simpa using congrArg List.length hlist
  have : Infinite Id := Infinite.of_injective _ hinj
  obtain ⟨new, hnew⟩ := Infinite.exists_notMem_finset ids.toFinset
  exact ⟨new, by simpa using hnew⟩

/-- There is always a request with new ids. -/
theorem exists_fresh (i : Id) (s : World) :
    ∃ request : StartRequest, request.instanceId = i ∧ Fresh request s := by
  obtain ⟨o, ho⟩ := exists_new_id (s.workspace.operations.rows.map Operation.operationId)
  obtain ⟨key, hkey⟩ := exists_new_id
    (s.workspace.operations.rows.map fun row => ⟨row.idempotencyKey⟩)
  obtain ⟨q, hq⟩ := exists_new_id (s.workspace.runs.rows.map Run.runId)
  refine ⟨{ operationId := o, runId := q, instanceId := i, idempotencyKey := key.asStr,
            inputJson := "", argv := ["qemu"], qmpSocket := "", completeOperation := false },
    rfl, ?_, ?_, ?_, by simp, rfl⟩
  · rw [Table.find?_eq_none_iff]
    rintro row hrow rfl
    exact ho (mem_map_of_mem hrow)
  · rintro row hrow hsame
    exact hkey (mem_map.2 ⟨row, hrow, by rw [hsame]⟩)
  · refine Table.find?_eq_none_iff.2 ?_
    rintro row hrow rfl
    exact hq (mem_map_of_mem hrow)

/-- The instance may be started: its lifecycle allows it and no run is active. -/
structure Startable (i : Id) (s : World) : Prop where
  row : ∃ row, s.workspace.instanceRow i = some row ∧ row.state.allows .starting = true
  none : s.workspace.activeIds i = []

variable {request : StartRequest}

/-- `begin_operation` accepts a fresh request. -/
theorem may_beginStart (hfresh : Fresh request s)
    (hrow : s.workspace.instanceRow request.instanceId ≠ none) :
    May (fun result s' => ∃ operation operations, result = .ok operation ∧
        s' = s.withWorkspace { s.workspace with operations }) (beginStart request) s := by
  obtain ⟨operation, operations, hstatus, hbegin⟩ := Workspace.beginOperation_of_new "start"
    request.inputJson 0 hrow hfresh.operation hfresh.key
  refine ⟨{}, may_statement_bind hbegin ?_⟩
  rw [if_pos hstatus]
  exact ⟨operation, operations, rfl, rfl⟩

/-- What is known of a started process. -/
structure Spawned (p : ManagedProcess) (s : World) : Prop where
  child : p.child = true
  adopted : p.adoptedStart = none
  alive : s.alive p.identity = true
  exit : s.exitOf p.identity = none

theorem spawned_spawnPlain {argv : List String} (hargv : argv ≠ []) :
    May (fun result s' => ∃ p, result = .ok p ∧ Spawned p s' ∧
      s' = { s with procs := s'.procs }) (spawnPlain owner r argv) s := by
  unfold spawnPlain
  rw [if_neg hargv]
  refine ⟨{}, ?_⟩
  have hfresh := s.freshIdentity_not_known ⟨0, 0⟩
  refine ⟨_, rfl, ⟨rfl, rfl, ?_, ?_⟩, rfl⟩
  · rw [World.alive_iff]
    exact ⟨_, mem_append_right _ mem_cons_self, rfl, rfl⟩
  · have hnone : (s.procs.find? fun p => p.identity = s.freshIdentity ⟨0, 0⟩) = none := by
      rw [List.find?_eq_none]
      intro p hp hsame
      exact hfresh (World.mem_identities.2 ⟨p, hp, by simpa using hsame⟩)
    unfold World.exitOf World.spawn
    simp only [List.find?_append, hnone]
    simp

theorem may_spawn {argv : List String} (hargv : argv ≠ []) :
    May (fun result s' => ∃ p, result = .ok p ∧ Spawned p s' ∧
      s' = { s with procs := s'.procs }) (spawnSystemdScope owner r argv) s := by
  have hinner : May (fun result s' => result = .ok (.error .missing) ∧ s' = s)
      (spawnSystemdScopeInner owner r argv) s := by
    unfold spawnSystemdScopeInner
    rw [if_neg hargv]
    exact ⟨{}, rfl, rfl⟩
  refine May.bind (hinner.mono ?_)
  rintro _ _ ⟨rfl, rfl⟩
  exact ⟨_, rfl, spawned_spawnPlain hargv⟩

variable {row : Instance}

/-- The first part of the body of a start: the state before the process. -/
theorem may_enterStarting (hrow : s.workspace.instanceRow request.instanceId = some row)
    (hallow : row.state.allows .starting = true) :
    May (fun result s' => result = .ok () ∧
        s'.workspace = s.workspace.setLifecycle request.instanceId .starting)
      (enterStarting request) s :=
  may_statement_bind (Workspace.transitionInstance_of_allows hrow hallow) ⟨rfl, rfl⟩

/-- The second part: the run of the spawned process is recorded. -/
theorem may_recordSpawned {p : ManagedProcess} (hp : Spawned p s)
    (hrow : s.workspace.instanceRow request.instanceId ≠ none)
    (hrun : s.workspace.runRow request.runId = none) :
    May (fun result s' => (∃ run, result = .ok run) ∧ ∃ runs,
        s.workspace.runs.insert (Workspace.newRun request.runId request.instanceId p.identity
          request.qmpSocket 0) = some runs ∧
        s' = s.withWorkspace { s.workspace with runs }) (recordSpawned request p) s := by
  obtain ⟨runs, hinsert, hrecord⟩ := Workspace.recordRun_of_new p.identity
    request.qmpSocket 0 hrow hrun
  refine may_queryE_bind (a := p.identity.processStart) (by simp [hp.adopted, hp.alive])
    ⟨{}, may_statement hrecord ?_⟩
  exact ⟨⟨_, rfl⟩, runs, hinsert, rfl⟩

variable {o : Id}

/-- The third part: QMP answers and QEMU still runs. -/
theorem may_negotiate {p : ManagedProcess}
    (hp : Spawned p s) (hrow : s.workspace.instanceRow request.instanceId = some row)
    (hstate : row.state = .starting) (hcomplete : request.completeOperation = false) :
    May (fun result s' => result = .ok () ∧
        s'.workspace = s.workspace.setLifecycle request.instanceId .running ∧
        s'.procs = s.procs) (negotiate request o p) s := by
  have hallow : row.state.allows .running = true := by
    rw [hstate]
    rfl
  have hexit : (if p.child then s.exitOf p.identity
      else if s.alive p.identity then none else some { code := none, success := true }) = none := by
    rw [hp.child, hp.exit]
    rfl
  refine may_outside_bind ⟨{}, ?_⟩
  refine may_query_bind ?_
  rw [hexit]
  refine may_statement_bind (Workspace.transitionInstance_of_allows hrow hallow) ?_
  rw [hcomplete]
  exact ⟨rfl, rfl, rfl⟩

/-- A part of a start that succeeds leaves its process running. -/
theorem may_owning {Q : Except Error α → World → Prop} {p : ManagedProcess}
    {body : Act α} (h : May (fun result s' => (∃ a, result = .ok a) ∧ Q result s') body s) :
    May Q (owning p body) s := by
  refine May.bind (May.attempt (h.mono ?_))
  rintro _ s' ⟨⟨a, rfl⟩, hQ⟩
  exact ⟨_, rfl, hQ⟩

/-- A fresh start of a startable instance starts it. -/
theorem may_launch (hargv : request.argv ≠ []) (hrun : s.workspace.runRow request.runId = none)
    (hcomplete : request.completeOperation = false) (hs : Startable request.instanceId s) :
    May (fun result s' => (∃ running, result = .ok (true, .ok running)) ∧
      Started request.instanceId s') (launch request o) s := by
  obtain ⟨row, hrow, hallow⟩ := hs.row
  have hspawn : May (fun result s' => ∃ p, result = .ok p ∧ Spawned p s' ∧
      s'.workspace = s.workspace.setLifecycle request.instanceId .starting)
      ((enterStarting request).bind fun _ =>
        spawnSystemdScope (.qemu request.instanceId request.runId) request.runId
          request.argv) s := by
    refine May.bind ((may_enterStarting hrow hallow).mono ?_)
    rintro _ s₁ ⟨rfl, h₁⟩
    refine ⟨(), rfl, (may_spawn hargv).mono ?_⟩
    rintro _ s₂ ⟨p, rfl, hp, h₂⟩
    refine ⟨p, rfl, hp, ?_⟩
    rw [h₂]
    exact h₁
  refine May.bind (May.attempt (hspawn.mono ?_))
  rintro _ s₁ ⟨p, rfl, hp, hw₁⟩
  refine ⟨_, rfl, ?_⟩
  -- the row after the transition, and the run that is recorded
  have hrow₁ : s₁.workspace.instanceRow request.instanceId =
      some { row with state := .starting, revision := row.revision + 1 } := by
    rw [hw₁]
    simp [hrow]
  have hrun₁ : s₁.workspace.runRow request.runId = none := by
    rw [hw₁]
    exact hrun
  have hids₁ : s₁.workspace.activeIds request.instanceId = [] := by
    rw [hw₁]
    exact hs.none
  refine May.bind (May.attempt (may_owning ((may_recordSpawned hp (by simp [hrow₁]) hrun₁).mono ?_)))
  rintro _ s₂ ⟨⟨run, rfl⟩, runs, hinsert, h₂⟩
  refine ⟨⟨run, rfl⟩, _, rfl, ?_⟩
  have hp₂ : Spawned p s₂ := by
    subst h₂
    exact ⟨hp.child, hp.adopted, hp.alive, hp.exit⟩
  have hrow₂ : s₂.workspace.instanceRow request.instanceId =
      some { row with state := .starting, revision := row.revision + 1 } := by
    subst h₂
    exact hrow₁
  refine May.bind (May.attempt (may_owning ((may_negotiate hp₂ hrow₂ rfl hcomplete).mono ?_)))
  rintro _ s₃ ⟨rfl, hw₃, hprocs₃⟩
  refine ⟨⟨(), rfl⟩, _, rfl, ⟨_, rfl⟩, .inl ?_, ?_⟩
  · unfold Workspace.lifecycle
    rw [hw₃]
    simp [hrow₂]
  · let recorded := Workspace.newRun request.runId request.instanceId p.identity
      request.qmpSocket 0
    have hmem : recorded ∈ runs.rows := by
      rw [(Table.insert_eq_some hinsert).1]
      exact mem_append_right _ mem_cons_self
    refine ⟨recorded, ?_, ?_⟩
    · rw [Workspace.mem_activeRuns, hw₃, h₂]
      exact ⟨hmem, rfl, rfl⟩
    · unfold World.alive
      rw [hprocs₃]
      exact hp₂.alive

/-- The part of a start after its own reconciliation. -/
def startAdmitted (request : StartRequest) : Act AsyncRunningInstance :=
  (beginStart request).bind fun operation =>
  (launch request operation.operationId).bind fun started =>
    match started with
    | (_, .ok running) => ret running
    | (recorded, .error e) =>
      (cleanupStart request operation.operationId recorded e).bind fun _ => throw e

theorem may_startAdmitted (hfresh : Fresh request s) (hs : Startable request.instanceId s) :
    May (fun result s' => (∃ running, result = .ok running) ∧ Started request.instanceId s')
      (startAdmitted request) s := by
  obtain ⟨row, hrow, hallow⟩ := hs.row
  refine May.bind ((may_beginStart hfresh (by simp [hrow])).mono ?_)
  rintro _ s₁ ⟨operation, operations, rfl, rfl⟩
  refine ⟨operation, rfl, ?_⟩
  have hs₁ : Startable request.instanceId
      (s.withWorkspace { s.workspace with operations }) := ⟨⟨row, hrow, hallow⟩, hs.none⟩
  have hrun₁ : (s.withWorkspace { s.workspace with operations }).workspace.runRow
      request.runId = none := hfresh.run
  refine May.bind ((may_launch hfresh.argv hrun₁ hfresh.complete hs₁).mono ?_)
  rintro _ s₂ ⟨⟨running, rfl⟩, hstarted⟩
  exact ⟨_, rfl, ⟨running, rfl⟩, hstarted⟩

theorem may_admitStart_none (hnone : s.workspace.activeIds i = []) :
    May (fun result s' => result = .ok () ∧ s' = s) (admitStart i) s := by
  refine may_query_bind ?_
  rw [Workspace.activeRun_eq_none_iff.2 hnone]
  exact ⟨rfl, rfl⟩

theorem may_start_of_startable (hfresh : Fresh request s) (hs : Startable request.instanceId s) :
    May (fun result s' => (∃ running, result = .ok running) ∧ Started request.instanceId s')
      (startInstanceAsync request) s := by
  refine May.bind ((may_admitStart_none hs.none).mono ?_)
  rintro _ _ ⟨rfl, rfl⟩
  exact ⟨(), rfl, may_startAdmitted hfresh hs⟩

/-! ## A start that is refused, and one after a dead run -/

theorem may_launch_refused (hrow : s.workspace.instanceRow request.instanceId = some row)
    (hdeny : row.state.allows .starting = false) :
    May (fun result s' => (∃ e, result = .ok (false, .error e)) ∧ s' = s)
      (launch request o) s := by
  obtain ⟨e, hrefused⟩ := Workspace.transitionInstance_of_not_allows hrow hdeny
  have henter : May (fun result s' => result = .error e ∧ s' = s) (enterStarting request) s :=
    May.bind_error (may_statement_error hrefused ⟨e, rfl, rfl, rfl⟩)
  have hspawn : May (fun result s' => result = .error e ∧ s' = s)
      ((enterStarting request).bind fun _ =>
        spawnSystemdScope (.qemu request.instanceId request.runId) request.runId
          request.argv) s := by
    refine May.bind_error (henter.mono ?_)
    rintro _ _ ⟨rfl, rfl⟩
    exact ⟨e, rfl, rfl, rfl⟩
  refine May.bind (May.attempt (hspawn.mono ?_))
  rintro _ _ ⟨rfl, rfl⟩
  exact ⟨_, rfl, ⟨e, rfl⟩, rfl⟩

/-- A refused start moves an instance without an active run to `error`. -/
theorem may_cleanupStart {e : Error} (hrow : s.workspace.instanceRow request.instanceId = some row)
    (hnone : s.workspace.activeIds request.instanceId = [])
    (hstate : row.state = .starting ∨ row.state = .running ∨ row.state = .paused) :
    May (fun result s' => result = .ok () ∧ Startable request.instanceId s')
      (cleanupStart request o false e) s := by
  have hallow : row.state.allows .error = true := by
    rcases hstate with h | h | h <;> rw [h] <;> rfl
  have hfail : May (fun result s' => result = .ok () ∧ SameInstance request.instanceId s s')
      (ignore (failOperation o e.message)) s := by
    refine May.bind (May.attempt (may_stepE.2 ?_))
    refine ⟨_, rfl, rfl, ?_⟩
    have hkeeps := s.workspace.failOperation_keeps o e.message
    exact .of_tables hkeeps.2 hkeeps.1
  refine May.bind (hfail.mono ?_)
  rintro _ s₁ ⟨rfl, hsame⟩
  have hrow₁ := hsame.row.trans hrow
  have hnone₁ := hsame.activeIds.trans hnone
  refine ⟨(), rfl, May.bind ?_⟩
  rw [if_neg Bool.false_ne_true]
  refine ⟨(), rfl, May.bind (May.attempt (may_stepE.2 ?_))⟩
  refine ⟨.ok row, congrArg _ (Workspace.instance_eq_ok.2 hrow₁), ?_⟩
  simp only [if_pos hstate]
  refine May.bind (May.attempt (may_statement
    (Workspace.transitionInstance_of_allows hrow₁ hallow) ⟨_, rfl, rfl, ?_, hnone₁⟩))
  refine ⟨{ row with state := .error, revision := row.revision + 1 }, ?_, rfl⟩
  show (s₁.workspace.setLifecycle request.instanceId .error).instanceRow request.instanceId = _
  simp [hrow₁]

theorem may_start_refused (hfresh : Fresh request s)
    (hrow : s.workspace.instanceRow request.instanceId = some row)
    (hnone : s.workspace.activeIds request.instanceId = [])
    (hstate : row.state = .starting ∨ row.state = .running ∨ row.state = .paused) :
    May (fun result s' => (∃ e, result = .error e) ∧ Startable request.instanceId s')
      (startInstanceAsync request) s := by
  have hdeny : row.state.allows .starting = false := by
    rcases hstate with h | h | h <;> rw [h] <;> rfl
  refine May.bind ((may_admitStart_none hnone).mono ?_)
  rintro _ _ ⟨rfl, rfl⟩
  refine ⟨(), rfl, May.bind ((may_beginStart hfresh (by simp [hrow])).mono ?_)⟩
  rintro _ s₁ ⟨operation, operations, rfl, hs₁⟩
  have hrow₁ : s₁.workspace.instanceRow request.instanceId = some row := by
    rw [hs₁]
    exact hrow
  have hnone₁ : s₁.workspace.activeIds request.instanceId = [] := by
    rw [hs₁]
    exact hnone
  refine ⟨operation, rfl, May.bind ((may_launch_refused hrow₁ hdeny).mono ?_)⟩
  rintro _ _ ⟨⟨e, rfl⟩, rfl⟩
  refine ⟨_, rfl, May.bind ((may_cleanupStart hrow₁ hnone₁ hstate).mono ?_)⟩
  rintro _ s₂ ⟨rfl, hstartable⟩
  exact ⟨(), rfl, ⟨e, rfl⟩, hstartable⟩

/-- The start's own reconciliation of a dead run leaves the instance startable. -/
theorem may_admitStart_dead {run : Run} (hrow : s.workspace.instanceRow i ≠ none)
    (hone : One i s) (hactive : s.workspace.activeRun i = some run)
    (hdead : s.alive run.identity = false) :
    May (fun result s' => result = .ok () ∧ Startable i s' ∧
        s'.workspace.operations = s.workspace.operations ∧
        ∀ q, s.workspace.runRow q = none → s'.workspace.runRow q = none) (admitStart i) s := by
  obtain ⟨row, hrow⟩ := Option.ne_none_iff_exists'.1 hrow
  have hrun := Workspace.runRow_of_activeRun hactive
  have hids := Workspace.activeIds_eq_of_activeRun hone hactive
  refine may_query_bind ?_
  rw [hactive]
  refine may_statement_bind (Workspace.reconcileRun_of_row hrun) ?_
  rw [hdead, if_neg (by simp [Workspace.probedStatus])]
  -- the dead run is recorded as uncertain and then finished
  generalize hw : s.workspace.setRunStatus run.runId (Workspace.probedStatus false) = w
  have hrun₁ : w.runRow run.runId = some { run with status := .uncertain } := by
    rw [← hw]
    simp [hrun, Workspace.probedStatus]
  have hnone : (w.setRunStatus run.runId .failed).activeIds i = [] := by
    rw [Workspace.activeIds_setRunStatus_of_terminal rfl, ← hw,
      Workspace.activeIds_setRunStatus_of_active rfl, hids]
    · simp
    · intro row' hrow' _
      rw [hrun] at hrow'
      cases hrow'
      exact (Workspace.mem_activeRuns.1 (Workspace.activeRun_mem hactive)).2.2
  have hrow₁ : (w.setRunStatus run.runId .failed).instanceRow i = some row := by
    rw [← hw]
    exact hrow
  have hruns : ∀ q, s.workspace.runRow q = none →
      (w.setRunStatus run.runId .failed).runRow q = none := by
    intro q hq
    rw [← hw]
    by_cases hqr : q = run.runId
    · rw [hqr, hrun] at hq
      cases hq
    · simp [hqr, hq]
  have hoperations : (w.setRunStatus run.runId .failed).operations = s.workspace.operations := by
    rw [← hw]
    rfl
  refine may_statement_bind (w := w.setRunStatus run.runId .failed)
    (Workspace.finishRun_of_row (.inr (.inl rfl)) hrun₁) ?_
  refine may_queryE_bind (Workspace.instance_eq_ok.2 hrow₁) ?_
  by_cases hflight : row.state.inFlight = true
  · rw [if_pos hflight]
    refine may_statement_bind (Workspace.transitionInstance_of_allows hrow₁
      (InstanceState.allows_error_of_inFlight hflight)) ⟨rfl, ⟨?_, hnone⟩, hoperations, hruns⟩
    refine ⟨{ row with state := .error, revision := row.revision + 1 }, ?_, rfl⟩
    show ((w.setRunStatus run.runId .failed).setLifecycle i .error).instanceRow i = _
    simp [hrow₁]
  · rw [if_neg hflight]
    refine ⟨rfl, ⟨⟨row, hrow₁, ?_⟩, hnone⟩, hoperations, hruns⟩
    cases hs : row.state <;> simp_all [InstanceState.inFlight, InstanceState.allows]

theorem may_start_dead {run : Run} (hfresh : Fresh request s)
    (hrow : s.workspace.instanceRow request.instanceId ≠ none) (hone : One request.instanceId s)
    (hactive : s.workspace.activeRun request.instanceId = some run)
    (hdead : s.alive run.identity = false) :
    May (fun result s' => (∃ running, result = .ok running) ∧ Started request.instanceId s')
      (startInstanceAsync request) s := by
  refine May.bind ((may_admitStart_dead hrow hone hactive hdead).mono ?_)
  rintro _ s₁ ⟨rfl, hstartable, hoperations, hruns⟩
  have hfresh₁ : Fresh request s₁ := by
    refine ⟨?_, ?_, hruns _ hfresh.run, hfresh.argv, hfresh.complete⟩
    · rw [hoperations]
      exact hfresh.operation
    · rw [hoperations]
      exact hfresh.key
  exact ⟨(), rfl, may_startAdmitted hfresh₁ hstartable⟩

/-! ## A recovery of a live run -/

/-- A recovery of a live run starts the instance, whatever its lifecycle was. -/
theorem may_recover_alive {run : Run} (hrow : s.workspace.instanceRow i ≠ none) (hone : One i s)
    (hactive : s.workspace.activeRun i = some run) (halive : s.alive run.identity = true) :
    May (fun result s' => (∃ running, result = .ok running) ∧ Started i s')
      (recoverInstanceRunAsync i) s := by
  obtain ⟨row, hrow⟩ := Option.ne_none_iff_exists'.1 hrow
  have hrun := Workspace.runRow_of_activeRun hactive
  have hids := Workspace.activeIds_eq_of_activeRun hone hactive
  have hinstance := (Workspace.mem_activeRuns.1 (Workspace.activeRun_mem hactive)).2.1
  refine may_query_bind ?_
  rw [hactive]
  refine may_statement_bind (Workspace.reconcileRun_of_row hrun) ?_
  rw [halive, if_pos (by simp [Workspace.probedStatus])]
  -- the run is still the active one after its status is written
  generalize hw : s.workspace.setRunStatus run.runId (Workspace.probedStatus true) = w
  have hrun₁ : w.runRow run.runId = some { run with status := .running } := by
    rw [← hw]
    simp [hrun, Workspace.probedStatus]
  have hids₁ : w.activeIds i = [run.runId] := by
    rw [← hw, Workspace.activeIds_setRunStatus_of_active rfl, hids]
    intro row' hrow' _
    rw [hrun] at hrow'
    cases hrow'
    exact (Workspace.mem_activeRuns.1 (Workspace.activeRun_mem hactive)).2.2
  let live : Run := { run with status := .running }
  have hactive₁ : w.activeRun i = some live := Workspace.activeRun_of_activeIds hids₁ hrun₁
  have hcurrent : w.isCurrentRun live = true := by
    rw [Workspace.isCurrentRun_iff]
    exact ⟨live, by rw [← hactive₁, ← hinstance], rfl, rfl⟩
  have hrow₁ : w.instanceRow live.instanceId = some row := by
    rw [← hw, show live.instanceId = i from hinstance]
    exact hrow
  have hqmp : InstanceState.fromQmp "running" = .ok .running := rfl
  have hrecover : May (fun result s' => (∃ running, result = .ok running) ∧ s' = s.withWorkspace w)
      (AsyncRunningInstance.recover live) (s.withWorkspace w) :=
    may_queryE_bind (a := ()) (if_pos halive) (may_outside_bind ⟨⟨_, rfl⟩, rfl⟩)
  refine May.bind (May.bind (hrecover.mono ?_))
  rintro _ _ ⟨⟨running, rfl⟩, rfl⟩
  refine ⟨running, rfl, ⟨{}, ?_⟩⟩
  refine may_statement_bind (w := w.observeLifecycle live.instanceId .running)
    (Workspace.observeRunStatus_of_current hqmp halive hcurrent hrow₁)
    ⟨running, rfl, ⟨_, rfl⟩, .inl ?_, live, Workspace.activeRun_mem hactive₁, halive⟩
  show (w.observeLifecycle live.instanceId .running).lifecycle i = some .running
  unfold Workspace.lifecycle
  rw [← hinstance, Workspace.instanceRow_observeLifecycle, if_pos rfl, hrow₁]
  by_cases hsame : row.state = .running
  · simp [hsame]
  · simp [hsame]

/-! ## Recoverable or stranded -/

theorem recoversIn_of_startable (hs : Startable i s) : RecoversIn i 1 s := by
  obtain ⟨request, rfl, hfresh⟩ := exists_fresh i s
  refine ⟨.start request, May.bind ((may_start_of_startable hfresh hs).mono ?_)⟩
  rintro _ s₁ ⟨⟨running, rfl⟩, hstarted⟩
  exact ⟨running, rfl, fun _ => rfl, .inl hstarted⟩

theorem not_stranded_cases (hs : ¬ Stranded i s) :
    Removed i s ∨ Startable i s ∨
      (∃ row, s.workspace.instanceRow i = some row ∧ s.workspace.activeIds i = [] ∧
        (row.state = .starting ∨ row.state = .running ∨ row.state = .paused)) ∨
      s.workspace.instanceRow i ≠ none ∧ ∃ run, s.workspace.activeRun i = some run := by
  cases hrow : s.workspace.instanceRow i with
  | none => exact .inl hrow
  | some row =>
    cases hactive : s.workspace.activeRun i with
    | some run => exact .inr (.inr (.inr ⟨by simp, run, rfl⟩))
    | none =>
      have hnone := Workspace.activeRun_eq_none_iff.1 hactive
      have hlife : s.workspace.lifecycle i = some row.state := by
        unfold Workspace.lifecycle
        rw [hrow]
        rfl
      have hstopping : row.state ≠ .stopping := fun h => hs ⟨hlife.trans (congrArg some h), hnone⟩
      cases hstate : row.state with
      | created | stopped | error =>
        exact .inr (.inl ⟨⟨row, hrow, by rw [hstate]; rfl⟩, hnone⟩)
      | starting | running | paused =>
        exact .inr (.inr (.inl ⟨row, rfl, hnone, by simp [hstate]⟩))
      | stopping => exact absurd hstate hstopping

/-- With at most one active run, an instance is recoverable unless it is stranded. -/
theorem recoverable_iff_not_stranded (hone : One i s) : Recoverable i s ↔ ¬ Stranded i s := by
  constructor
  · rintro ⟨n, hrecovers⟩ hs
    exact hs.not_recoversIn n hrecovers
  · intro hs
    rcases not_stranded_cases hs with hremoved | hstartable | ⟨row, hrow, hnone, hstate⟩ |
      ⟨hrow, run, hactive⟩
    · exact ⟨0, .inr hremoved⟩
    · exact ⟨1, recoversIn_of_startable hstartable⟩
    · -- the first start is refused, the second one is accepted
      obtain ⟨request, rfl, hfresh⟩ := exists_fresh i s
      refine ⟨2, .start request,
        May.bind_error ((may_start_refused hfresh hrow hnone hstate).mono ?_)⟩
      rintro _ s₁ ⟨⟨e, rfl⟩, hstartable⟩
      exact ⟨e, rfl, by simp, recoversIn_of_startable hstartable⟩
    · cases halive : s.alive run.identity with
      | true =>
        refine ⟨1, .recover, May.bind ((may_recover_alive hrow hone hactive halive).mono ?_)⟩
        rintro _ s₁ ⟨⟨running, rfl⟩, hstarted⟩
        exact ⟨running, rfl, fun _ => rfl, .inl hstarted⟩
      | false =>
        obtain ⟨request, rfl, hfresh⟩ := exists_fresh i s
        refine ⟨1, .start request,
          May.bind ((may_start_dead hfresh hrow hone hactive halive).mono ?_)⟩
        rintro _ s₁ ⟨⟨running, rfl⟩, hstarted⟩
        exact ⟨running, rfl, fun _ => rfl, .inl hstarted⟩

end MachineEmu.CrashRecovery
