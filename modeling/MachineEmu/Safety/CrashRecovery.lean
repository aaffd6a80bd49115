import MachineEmu.Safety.OneQemu
import MachineEmu.Safety.Recoverable

/-!
# Recovery after a crash

After a crash the workspace is reopened. No instance is stuck then, unless the crash fell in a
stranded state.

* `settles_openWorkspace` — the reopening strands no instance.
* `neverStuck_of_crashesUnstranded` — every run without a crash in a stranded state.
* `not_neverStuck_vm` — a run with one.
-/

namespace MachineEmu.CrashRecovery

open Lib Lib.Prog Lib.Service Act

variable {i r : Id} {s s' : World}

/-! ## The reopening leaves no stranded instance behind -/

/-- The judgement of a part of the reopening: whatever else happens meanwhile leaves the rows of
the instance alone. -/
abbrev Settles {α : Type} (i : Id) (Q : α → World → Prop) (p : Act α) (s : World) : Prop :=
  Ok (SameInstance i) (fun _ _ => True) (fun _ _ _ => True) Q (fun _ s' => ¬ Stranded i s') p s

theorem settles_of_same {α : Type} {V : α → Prop} {p : Act α}
    (hp : Frame (fun _ => SameInstance i) V p) (hs : ¬ Stranded i s) :
    Settles i (fun a s' => V a ∧ ¬ Stranded i s') p s :=
  ok_of_same hp hs (fun _ _ h => h) fun _ _ h hs => fun hs' => hs (h.stranded.1 hs')

theorem not_stranded_of_lifecycle (state : InstanceState)
    (h : s.workspace.lifecycle i = some state) (hstate : state ≠ .stopping) : ¬ Stranded i s := by
  rintro ⟨hstopping, _⟩
  rw [h] at hstopping
  exact hstate (Option.some.inj hstopping)

theorem not_stranded_of_no_row (h : s.workspace.instanceRow i = none) : ¬ Stranded i s := by
  intro hs
  obtain ⟨row, hrow, _⟩ := hs.row
  rw [h] at hrow
  cases hrow

/-- A transition of any instance to `error` strands none. -/
theorem settles_toError (j : Id) (hs : ¬ Stranded i s) :
    Settles i (fun _ s' => ¬ Stranded i s') (transitionInstance j .error) s := by
  refine ok_statement fun s₁ hR _ => ?_
  have hs₁ : ¬ Stranded i s₁ := fun h => hs (hR.stranded.1 h)
  rcases s₁.workspace.transitionInstance_cases j .error with
    ⟨row, hrow, _, hstep⟩ | ⟨e, hstep, _⟩
  · rw [hstep]
    have hnext : ¬ Stranded i (s₁.withWorkspace (s₁.workspace.setLifecycle j .error)) := by
      by_cases hj : j = i
      · subst hj
        refine not_stranded_of_lifecycle .error ?_ (by simp)
        show (s₁.workspace.setLifecycle j .error).lifecycle j = some .error
        unfold Workspace.lifecycle
        simp [hrow]
      · have hsame : SameInstance i s₁ (s₁.withWorkspace (s₁.workspace.setLifecycle j .error)) := by
          refine ⟨?_, rfl⟩
          show (s₁.workspace.setLifecycle j .error).instanceRow i = _
          simp [Ne.symm hj]
        exact fun h => hs₁ (hsame.stranded.1 h)
    exact ⟨trivial, fun _ _ => hnext, fun _ _ => hnext⟩
  · rw [hstep]
    exact ⟨trivial, fun _ _ => hs₁, fun _ _ => hs₁⟩

theorem settles_markError (j : Id) (hs : ¬ Stranded i s) :
    Settles i (fun _ s' => ¬ Stranded i s') (markError j) s := by
  refine (settles_of_same (same_readInstance j) hs).bind fun current s₁ h₁ => ?_
  split
  · exact (settles_toError j h₁.2).bind fun _ _ h => h
  · exact h₁.2

/-- Even a stranded instance is moved to `error`. -/
theorem settles_markError_self (s : World) :
    Settles i (fun _ s' => ¬ Stranded i s') (markError i) s := by
  refine ok_queryE_bind fun s₁ _ _ => ⟨trivial, fun current hcurrent => ?_, fun e he => ?_⟩
  · rw [Workspace.instance_eq_ok] at hcurrent
    have hlife : s₁.workspace.lifecycle i = some current.state := by
      unfold Workspace.lifecycle
      rw [hcurrent]
      rfl
    split
    · next hflight =>
      refine Ok.bind (M := fun _ s' => ¬ Stranded i s') ?_ fun _ _ h => h
      refine ok_statement fun s₂ hR _ => ?_
      have hrow : s₂.workspace.instanceRow i = some current := hR.row.trans hcurrent
      rw [Workspace.transitionInstance_of_allows hrow
        (InstanceState.allows_error_of_inFlight hflight)]
      refine ⟨trivial, fun _ _ => not_stranded_of_lifecycle .error ?_ (by simp), by simp⟩
      show (s₂.workspace.setLifecycle i .error).lifecycle i = some .error
      unfold Workspace.lifecycle
      simp [hrow]
    · next hflight =>
      refine not_stranded_of_lifecycle current.state hlife fun hstopping => hflight ?_
      rw [hstopping]
      rfl
  · exact not_stranded_of_no_row (Workspace.instance_eq_error he)

variable {q : Id}

/-- Writing an active status strands no instance. -/
theorem not_stranded_setRunStatus {status : RunStatus} (hstatus : status.active = true)
    (hs : ¬ Stranded i s) : ¬ Stranded i (s.withWorkspace (s.workspace.setRunStatus q status)) := by
  rintro ⟨hlife, hnone⟩
  refine hs ⟨hlife, ?_⟩
  refine List.eq_nil_iff_forall_not_mem.2 fun id hid => ?_
  obtain ⟨run, hrun, hi, hactive⟩ := Workspace.mem_activeIds.1 hid
  have hmem : id ∈ (s.workspace.setRunStatus q status).activeIds i := by
    refine Workspace.mem_activeIds.2 ?_
    rw [Workspace.runRow_setRunStatus]
    by_cases hq : id = q
    · subst hq
      refine ⟨{ run with status }, ?_, hi, hstatus⟩
      rw [if_pos rfl, hrun]
      rfl
    · rw [if_neg hq]
      exact ⟨run, hrun, hi, hactive⟩
  have hnone' : (s.workspace.setRunStatus q status).activeIds i = [] := hnone
  rw [hnone'] at hmem
  cases hmem

/-- The run belongs to another instance. -/
def Foreign (i q : Id) (s : World) : Prop := ∀ row ∈ s.workspace.runsOf i, row.runId ≠ q

theorem SameInstance.foreign (h : SameInstance i s s') (hq : Foreign i q s) : Foreign i q s' := by
  unfold Foreign
  rw [h.runs]
  exact hq

theorem Foreign.setRunStatus {p : Id} {status : RunStatus} (h : Foreign i p s) :
    Foreign i p (s.withWorkspace (s.workspace.setRunStatus q status)) := by
  intro row hrow
  rw [World.withWorkspace, Workspace.runsOf_setRunStatus] at hrow
  obtain ⟨row', hrow', rfl⟩ := List.mem_map.1 hrow
  split <;> exact h row' hrow'

theorem settles_reconcileRun (q : Id) (hs : ¬ Stranded i s) :
    Settles i (fun run s' => run.runId = q ∧ ¬ Stranded i s' ∧ (Foreign i q s → Foreign i q s'))
      (reconcileRun q) s := by
  refine ok_statement fun s₁ hR _ => ?_
  have hs₁ : ¬ Stranded i s₁ := fun h => hs (hR.stranded.1 h)
  rcases s₁.workspace.reconcileRun_cases s₁.alive q with ⟨row, hrow, hstep⟩ | ⟨e, _, hstep⟩
  · rw [hstep]
    refine ⟨trivial, ?_, by simp⟩
    rintro run ⟨⟩
    exact ⟨(Workspace.runRow_eq_some_iff.1 hrow).2,
      not_stranded_setRunStatus (Workspace.probedStatus_active _) hs₁,
      fun h => (hR.foreign h).setRunStatus⟩
  · rw [hstep]
    exact ⟨trivial, by simp, fun _ _ => hs₁⟩

/-- Finishing a run that is no active run of the instance does not strand it. -/
theorem not_stranded_finished (hs : ¬ Stranded i s) (hq : q ∉ s.workspace.activeIds i) :
    ¬ Stranded i (s.withWorkspace (s.workspace.setRunStatus q .failed)) := by
  rintro ⟨hlife, hids⟩
  refine hs ⟨hlife, ?_⟩
  have hterminal : RunStatus.failed.active = false := rfl
  have hfilter : (s.workspace.activeIds i).filter (· ≠ q) = s.workspace.activeIds i := by
    rw [List.filter_eq_self]
    intro id hid
    simpa using fun h : id = q => hq (h ▸ hid)
  rw [← hfilter, ← Workspace.activeIds_setRunStatus_of_terminal hterminal]
  exact hids

theorem Foreign.not_mem_activeIds (h : Foreign i q s) : q ∉ s.workspace.activeIds i := by
  intro hmem
  obtain ⟨run, hrun, hi, _⟩ := Workspace.mem_activeIds.1 hmem
  obtain ⟨hrow, hid⟩ := Workspace.runRow_eq_some_iff.1 hrun
  exact h run (Workspace.mem_runsOf.2 ⟨hrow, hi⟩) hid

/-- The end of a dead run strands no instance: the lifecycle of its own instance is moved too. -/
theorem settles_finishDeadRun {j : Id} {who : Finisher} (hs : ¬ Stranded i s)
    (hq : j = i ∨ Foreign i q s) :
    Settles i (fun _ s' => ¬ Stranded i s') (finishDeadRun j q who) s := by
  have hvalid : RunStatus.failed = .exited ∨ RunStatus.failed = .failed ∨
      RunStatus.failed = .uncertain := .inr (.inl rfl)
  by_cases hj : j = i
  · subst hj
    refine Ok.bind (M := fun _ _ => True) ?_ fun _ s₁ _ => settles_markError_self s₁
    refine ok_statement fun s₁ hR _ => ⟨trivial, fun _ _ => trivial, fun e he => ?_⟩
    rcases s₁.workspace.finishRun_cases q hvalid with ⟨row, _, hstep⟩ | ⟨e', hnone, hstep⟩
    · rw [hstep] at he
      cases he
    · -- a run without a row is not active
      rw [hstep]
      refine not_stranded_finished (fun h => hs (hR.stranded.1 h)) fun hmem => ?_
      obtain ⟨run, hrun, _⟩ := Workspace.mem_activeIds.1 hmem
      rw [hnone] at hrun
      cases hrun
  · have hforeign := hq.resolve_left hj
    refine Ok.bind (M := fun _ s' => ¬ Stranded i s') ?_ fun _ s₁ h₁ => settles_markError j h₁
    refine ok_statement fun s₁ hR _ => ?_
    have hnext := not_stranded_finished (fun h => hs (hR.stranded.1 h))
      (hR.foreign hforeign).not_mem_activeIds
    rcases s₁.workspace.finishRun_cases q hvalid with ⟨row, _, hstep⟩ | ⟨e', _, hstep⟩ <;>
    · rw [hstep]
      exact ⟨trivial, fun _ _ => hnext, fun _ _ => hnext⟩

/-- An observation moves the lifecycle to `running` or `paused`. -/
theorem settles_observeRunStatus (run : Run) (status : String) (hs : ¬ Stranded i s) :
    Settles i (fun _ s' => ¬ Stranded i s') (observeRunStatus run status) s := by
  refine ok_statement fun s₁ hR _ => ?_
  have hs₁ : ¬ Stranded i s₁ := fun h => hs (hR.stranded.1 h)
  rcases s₁.workspace.observeRunStatus_cases s₁.alive run status with
    ⟨target, htarget, _, _, hstep⟩ | ⟨e, hstep⟩
  · rw [hstep]
    have hstopping : target ≠ .stopping := by
      rcases InstanceState.fromQmp_cases htarget with h | h <;> rw [h] <;> simp
    have hnext : ¬ Stranded i (s₁.withWorkspace
        (s₁.workspace.observeLifecycle run.instanceId target)) := by
      by_cases hi : i = run.instanceId
      · rintro ⟨hlife, _⟩
        have hlife' : (s₁.workspace.observeLifecycle run.instanceId target).lifecycle i =
            some .stopping := hlife
        unfold Workspace.lifecycle at hlife'
        rw [Workspace.instanceRow_observeLifecycle, if_pos hi] at hlife'
        cases hrow : s₁.workspace.instanceRow run.instanceId with
        | none => simp [hrow] at hlife'
        | some row =>
          by_cases hsame : row.state = target
          · simp [hrow, hsame] at hlife'
            exact hstopping hlife'
          · simp [hrow, hsame] at hlife'
            exact hstopping hlife'
      · have hsame : SameInstance i s₁ (s₁.withWorkspace
            (s₁.workspace.observeLifecycle run.instanceId target)) := by
          refine ⟨?_, rfl⟩
          show (s₁.workspace.observeLifecycle run.instanceId target).instanceRow i = _
          simp [hi]
        exact fun h => hs₁ (hsame.stranded.1 h)
    exact ⟨trivial, fun _ _ => hnext, fun _ _ => hnext⟩
  · rw [hstep]
    exact ⟨trivial, fun _ _ => hs₁, fun _ _ => hs₁⟩

theorem settles_reconnectRun (run : Run) (hs : ¬ Stranded i s) :
    Settles i (fun _ s' => ¬ Stranded i s') (reconnectRun run) s := by
  have hrecover : Frame (fun _ => SameInstance i) anyValue (AsyncRunningInstance.recover run) :=
    (frame_queryE (SameInstance.refl i)).andThen fun _ => frame_outside.andThen fun _ => frame_pure
  refine (settles_of_same hrecover hs).bind fun running s₁ h₁ => ?_
  refine (settles_of_same frame_queryStatus h₁.2).bind fun status s₂ h₂ => ?_
  exact (settles_observeRunStatus run status h₂.2).bind fun _ _ h => h

theorem settles_recover (j : Id) (hs : ¬ Stranded i s) :
    Settles i (fun _ s' => ¬ Stranded i s') (recoverInstanceRunAsync j) s := by
  refine ok_query_bind fun s₁ hR _ => ⟨trivial, ?_⟩
  have hs₁ : ¬ Stranded i s₁ := fun h => hs (hR.stranded.1 h)
  cases hactive : s₁.workspace.activeRun j with
  | none => exact hs₁
  | some active =>
    have hq : j = i ∨ Foreign i active.runId s₁ := by
      by_cases hj : j = i
      · exact .inl hj
      · refine .inr fun row hrow hid => hj ?_
        obtain ⟨hmem, hi⟩ := Workspace.mem_runsOf.1 hrow
        obtain ⟨hmem', hj', _⟩ := Workspace.mem_activeRuns.1 (Workspace.activeRun_mem hactive)
        rw [← hj', ← hi, Table.key_injective hmem hmem' hid]
    refine (settles_reconcileRun active.runId hs₁).bind fun run s₂ h₂ => ?_
    obtain ⟨hrun, hs₂, hforeign⟩ := h₂
    split
    · exact (settles_reconnectRun run hs₂).bind fun _ _ h => h
    · rw [hrun]
      exact (settles_finishDeadRun hs₂ (hq.imp id hforeign)).bind fun _ _ h => h

theorem settles_reconcileEach (rs : List Id) (hs : ¬ Stranded i s) :
    Settles i (fun _ s' => ¬ Stranded i s') (reconcileEach rs) s := by
  induction rs generalizing s with
  | nil => exact hs
  | cons q rest ih =>
    refine (settles_reconcileRun q hs).bind fun run s₁ h₁ => ?_
    exact (ih h₁.2.1).bind fun _ _ h => h

theorem settles_reconcileActiveRuns (hs : ¬ Stranded i s) :
    Settles i (fun _ s' => ¬ Stranded i s') reconcileActiveRuns s := by
  refine ok_query_bind fun s₁ hR _ => ⟨trivial, ?_⟩
  have hs₁ : ¬ Stranded i s₁ := fun h => hs (hR.stranded.1 h)
  refine (settles_reconcileEach _ hs₁).bind fun runs s₂ h₂ => ?_
  refine (ok_forEach (P := fun s => ¬ Stranded i s) h₂ fun run _ s h => ?_).bind fun _ _ h => h
  split
  · exact settles_markError run.instanceId h
  · exact h

theorem same_reconcileOperations :
    Frame (fun _ => SameInstance i) anyValue reconcileOperations := by
  refine (frame_query (SameInstance.refl i)).andThen fun ids => frame_forEach fun o _ => ?_
  refine (frame_queryE (SameInstance.refl i)).andThen fun row =>
    (frame_queryE (SameInstance.refl i)).andThen fun completed => ?_
  cases completed with
  | some result => exact (same_completeOperation o result).andThen fun _ => frame_pure
  | none => exact (same_failOperation o _).andThen fun _ => frame_pure

theorem SameInstance.of_workspace (h : s'.workspace = s.workspace) : SameInstance i s s' :=
  .of_tables (by rw [h]) (by rw [h])

theorem same_recoverRunHelpers (q : Id) :
    Frame (fun _ => SameInstance i) anyValue (recoverRunHelpers q) := by
  refine (frame_query (SameInstance.refl i)).andThen fun rows => ?_
  induction rows with
  | nil => exact trivial
  | cons row rest ih =>
    refine (frame_query (SameInstance.refl i)).andThen fun matches_ => ?_
    split
    · exact (frame_ofExcept (V := anyValue) fun _ _ => trivial).andThen fun id =>
        (frame_queryE (SameInstance.refl i)).andThen fun p => ih.andThen fun ps => frame_pure
    · exact ih

theorem same_dropAll (ps : List ManagedProcess) :
    Frame (fun _ => SameInstance i) anyValue (dropAll ps) :=
  have hdrop : Frame (ProcStep .other) anyValue (dropAll ps) := frame_dropAll ps
  same_procs hdrop

theorem same_dropConnection (running : Option AsyncRunningInstance) :
    Frame (fun _ => SameInstance i) anyValue (dropConnection running) := by
  cases running with
  | none => exact trivial
  | some running =>
    have hdrop : Frame (ProcStep .other) anyValue (dropOption running.process) :=
      frame_dropOption _
    exact same_procs hdrop

theorem same_install (j q : Id) (running : Option AsyncRunningInstance)
    (helpers : List ManagedProcess) :
    Frame (fun _ => SameInstance i) anyValue (install j q running helpers) := by
  refine Frame.andThen (frame_step (fun s => ?_) fun _ => trivial) fun previous => ?_
  · refine .of_workspace ?_
    split <;> rfl
  · cases previous with
    | none =>
      exact (same_dropAll helpers).andThen fun _ =>
        (same_dropConnection running).andThen fun _ => frame_throw
    | some owner =>
      refine (same_dropConnection owner.running).andThen fun _ => ?_
      split
      · exact trivial
      · exact same_dropAll owner.helpers

theorem same_resumeSupervision (run : Run) :
    Frame (fun _ => SameInstance i) anyValue (resumeSupervision run) :=
  (same_recoverRunHelpers _).andThen fun helpers => (same_install _ _ _ helpers).andThen fun _ =>
    frame_modify fun s => .of_workspace (workspace_spawnRunEvents s run)

/-- The reopening of the workspace strands no instance. -/
theorem settles_openWorkspace (hs : ¬ Stranded i s) :
    Settles i (fun _ s' => ¬ Stranded i s') openWorkspace s := by
  have hdelete : ∀ (j : Id) s, ¬ Stranded i s → Settles i (fun _ s' => ¬ Stranded i s')
      ((finishInstanceDeletion j).bind fun _ => ret ()) s := fun j s h =>
    (settles_of_same (same_finishInstanceDeletion j) h).bind fun _ _ h => h.2
  refine ok_query_bind fun s₁ hR _ => ⟨trivial, ?_⟩
  have hs₁ : ¬ Stranded i s₁ := fun h => hs (hR.stranded.1 h)
  refine (ok_forEach (P := fun s => ¬ Stranded i s) hs₁ fun j _ s h => hdelete j s h).bind
    fun _ s₂ h₂ => ?_
  refine (settles_reconcileActiveRuns h₂).bind fun runs s₃ h₃ => ?_
  refine (ok_forEach (P := fun s => ¬ Stranded i s) h₃ fun run _ s h =>
    ok_ignore (P := fun s => ¬ Stranded i s) (settles_recover run.instanceId h)).bind
    fun _ s₄ h₄ => ?_
  refine (settles_of_same same_reconcileOperations h₄).bind fun _ s₅ h₅ => ?_
  exact ok_forEach (P := fun s => ¬ Stranded i s) h₅.2 fun run _ s h =>
    (settles_of_same (same_resumeSupervision run) h).mono (fun _ _ h => h.2) fun _ _ h => h

/-! ## The service -/

/-- No crash falls in a stranded state, and the workspace is opened after a crash only. -/
def CrashesUnstranded (i : Id) (s : World) : Event Label Request → Prop
  | .crash => ¬ Stranded i s
  | .accept request => request ≠ .openWorkspace
  | _ => True

/-- A quiet step leaves the row and the runs of the instance alone. -/
theorem SameInstance.of_quiet (h : Quiet i s s') : SameInstance i s s' := ⟨h.row, h.runs⟩

/-- A reopening leaves the instance unstranded. -/
def discipline (i : Id) :
    Discipline (daemon i) (fun s => s = World.empty) (CrashesUnstranded i) (Quiet i)
      (OneQemu.Guarantee False i) :=
  let runs := @OneQemu.discipline False i (CrashesUnstranded i) fun _ _ h => h.elim
  { always := runs.always
    idle := runs.idle
    post := fun request s => runs.post request s ∧ (request = .openWorkspace → ¬ Stranded i s)
    refl := runs.refl
    trans := runs.trans
    env := runs.env
    init_idle := runs.init_idle
    always_of_idle := runs.always_of_idle
    always_stable := runs.always_stable
    idle_stable := runs.idle_stable
    idle_of_post := fun request s h => runs.idle_of_post request s h.1
    post_stable := fun request s s' h hs => ⟨runs.post_stable request s s' h hs.1,
      fun ho hs' => hs.2 ho ((SameInstance.of_quiet h).stranded.1 hs')⟩
    always_of_act := runs.always_of_act
    request := fun request s hok h =>
      (runs.request request s hok h).mono (fun _ _ h => ⟨h, fun ho => absurd ho hok⟩)
        fun _ _ h => h
    crash := fun s hok h => by
      obtain ⟨halways, hopen⟩ := runs.crash s hok h
      have hsettles : Settles i (fun _ s' => ¬ Stranded i s') openWorkspace s.crash :=
        settles_openWorkspace hok
      refine ⟨halways, ?_⟩
      exact ((hopen.and (hsettles.calmer fun _ _ h => .of_quiet h)).mono
        (fun _ _ h => ⟨h.1, fun _ => h.2⟩) fun _ _ h => h.1).weaken (fun _ _ _ => trivial)
          fun _ _ _ _ h => h.1 }

/-- After every reopening of the workspace that completes, the instance is recoverable. -/
def NeverStuck (i : Id) (ok : World → Event Label Request → Prop) : Prop :=
  ∀ c : Config World Reply Label Error Request,
    Runs i ok c → c.busy = some (.openWorkspace, .ret ()) → Recoverable i c.state

/-- In every run without a crash in a stranded state, the instance is never stuck. -/
theorem neverStuck_of_crashesUnstranded (i : Id) : NeverStuck i (CrashesUnstranded i) := by
  intro c hc hopen
  obtain ⟨⟨pending, hinv⟩, hbusy⟩ := (discipline i).sound hc
  rw [hopen] at hbusy
  exact (recoverable_iff_not_stranded hinv.one).2 (hbusy.2 rfl)

/-- The machine is created and started, and a crash falls between the two last steps of its stop:
the run has exited and the lifecycle is still `stopping`. -/
theorem not_neverStuck_vm : ¬ NeverStuck vm fun _ _ => True := by
  intro hnever
  have hplay : ((play (daemon vm) (fun _ _ => true)
      [vmCreate, .request (.start (vmStart "run")) (List.replicate 10 {})] World.empty).bind
        (reopened (daemon vm) (fun _ _ => true) (.action .stop) [{}, {}]
          (fun l _ => l = .transition vm .stopped) [])).any
      (fun s => decide (Stranded vm s)) = true := by decide
  obtain ⟨s', hs', hstranded⟩ := (Option.any_eq_true _ _).1 hplay
  obtain ⟨s, hs, hopen⟩ := Option.bind_eq_some_iff.1 hs'
  have hidle : Runs vm (fun _ _ => True) ⟨s, none⟩ := runs_of_play (fun _ _ _ => trivial) hs
  obtain ⟨n, hrecovers⟩ := hnever _ (hidle.reopened (fun _ _ _ => trivial) hopen) rfl
  exact (of_decide_eq_true hstranded).not_recoversIn n hrecovers

end MachineEmu.CrashRecovery
