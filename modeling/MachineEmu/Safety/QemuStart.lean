import MachineEmu.Safety.QemuRuns

/-!
# Starting and stopping QEMU

The process operations that end a process, the spawn of QEMU, and the two long procedures around
them. A start that fails leaves no QEMU behind; a stop finishes the run after its process.

* `meets_reap`, `meets_dropProcess`, `meets_endRun` — the process has ended afterwards.
* `Spawned`, `Up`, `Live`, `Started` — the stages of a start.
* `meets_spawnSystemdScope`, `meets_recordSpawned`, `meets_negotiate` — from stage to stage.
* `meets_startInstanceAsync`, `meets_stopInstanceAsync` — the procedures.
-/

namespace MachineEmu.OneQemu

open Lib Lib.Prog Lib.Service Act List

variable {safe : Prop} {i r : Id} {l : Label} {c : Pending} {s s' : World} {x : ProcessIdentity} {P : World → Prop}
  {p : ManagedProcess}

/-! ## The end of a process -/

theorem exitProcess_dead (s : World) (x : ProcessIdentity) (exit : ProcessExit) :
    (s.exitProcess x exit).alive x = false := by
  by_contra halive
  obtain ⟨q, hq, hx, hexit⟩ := World.alive_iff.1 (by simpa using halive)
  obtain ⟨p, _, rfl⟩ := mem_map.1 hq
  by_cases hp : p.identity = x ∧ p.exit = none
  · rw [if_pos hp] at hexit
    cases hexit
  · rw [if_neg hp] at hx hexit
    exact hp ⟨hx, hexit⟩

/-- A process whose exit is known is not alive. -/
theorem dead_of_exitOf {exit : ProcessExit} (hnodup : s.identities.Nodup)
    (h : s.exitOf x = some exit) : s.alive x = false := by
  by_contra halive
  obtain ⟨q, hq, hx, hexit⟩ := World.alive_iff.1 (by simpa using halive)
  unfold World.exitOf at h
  cases hfind : s.procs.find? fun p => p.identity = x with
  | none => simp [hfind] at h
  | some p =>
    rw [hfind] at h
    have hp : p.identity = x := by simpa using List.find?_some hfind
    have hsame : p = q :=
      inj_on_of_nodup_map hnodup (mem_of_find?_eq_some hfind) hq (hp.trans hx.symm)
    simp only [hsame, hexit] at h
    cases h

theorem calm_exitProcess (s : World) (x : ProcessIdentity) (exit : ProcessExit) :
    Calm i s (s.exitProcess x exit) :=
  .of_tame (.of_other (.exitProcess s x exit))

variable {α : Type} {X : Error → World → Prop}

/-- An act on the processes that ends this one. -/
theorem meets_exitProcess {l : Label} {f : World → α} {exit : ProcessExit}
    (hl : l.guarded i = false) (hP : Stable safe i P) (hs : P s) :
    Meets safe i (fun _ s' => P s' ∧ s'.alive x = false) X
      (step l fun s => (f s, s.exitProcess x exit)) s := by
  refine ok_step.2 fun s₁ hR _ => ?_
  have h₁ := hP.calm s s₁ hR.toCalm hs
  obtain ⟨c, hc⟩ := hP.inv s₁ h₁
  have hcalm := calm_exitProcess (i := i) s₁ x exit
  exact ⟨.of_calm hc hcalm hl, hP.calm s₁ _ hcalm h₁, exitProcess_dead s₁ x exit⟩

theorem meets_reap {exit : ProcessExit} (hP : Stable safe i P)
    (hs : P s) : Meets safe i (fun _ s' => P s' ∧ s'.alive p.identity = false) X (reap p exit) s :=
  meets_exitProcess rfl hP hs

/-- A wait returns when the process has ended; for a child it does return. -/
theorem meets_waitProcess (hP : Stable safe i P) (hs : P s) :
    Meets safe i (fun _ s' => P s' ∧ s'.alive p.identity = false)
      (fun _ s' => p.child = false ∧ P s') (waitProcess p) s := by
  refine Ok.ask fun reply => ?_
  split
  · exact meets_reap hP hs
  · next hchild =>
    split
    · refine ok_queryE fun s₁ hR _ => ?_
      have h₁ := hP.calm s s₁ hR.toCalm hs
      obtain ⟨c, hc⟩ := hP.inv s₁ h₁
      refine ⟨.of_procs hc rfl rfl, fun exit h => ⟨h₁, ?_⟩, fun e _ => ⟨by simpa using hchild, h₁⟩⟩
      split at h
      · cases h
      · next hdead => simpa using hdead
    · exact meets_reap hP hs

theorem meets_tryWait (hP : Stable safe i P) (hs : P s) :
    Meets safe i (fun exit s' => P s' ∧ (exit ≠ none → s'.alive p.identity = false)) X (tryWait p) s := by
  refine ok_step.2 fun s₁ hR _ => ?_
  have h₁ := hP.calm s s₁ hR.toCalm hs
  obtain ⟨c, hc⟩ := hP.inv s₁ h₁
  refine ⟨.of_procs hc rfl rfl, h₁, fun hexit => ?_⟩
  obtain ⟨exit, hexit⟩ := Option.ne_none_iff_exists'.1 hexit
  simp only at hexit
  split at hexit
  · exact dead_of_exitOf hc.nodup hexit
  · split at hexit
    · cases hexit
    · next hdead => simpa using hdead

/-- A tame part whose error is forgotten. -/
theorem meets_ignore {V : α → Prop} {body : Act α}
    (hP : Stable safe i P) (hbody : Frame TameStep V body) (hs : P s) :
    Meets safe i (fun _ => P) X (ignore body) s :=
  ok_ignore ((meets_tame hP hbody hs).mono (fun _ _ h => h.2) fun _ _ h => h)

/-- A handle that owns its child ends the process when it is dropped. -/
theorem meets_dropProcess (hP : Stable safe i P)
    (hchild : p.child = true) (hdrop : p.preserveOnDrop = false) (hs : P s) :
    Meets safe i (fun _ s' => P s' ∧ s'.alive p.identity = false) X (dropProcess p) s := by
  unfold dropProcess
  rw [if_neg (by simp [hdrop]), if_pos hchild]
  split
  · refine (meets_ignore hP (frame_tame (frame_terminate p)) hs).bind fun _ s₁ h₁ => ?_
    refine (Ok.attempt (E := fun _ s' => P s' ∧ s'.alive p.identity = false)
      ((meets_waitProcess hP h₁).mono (fun _ _ h => h) fun _ _ h => ?_)).bind fun _ _ h => h
    rw [hchild] at h
    exact absurd h.1 (by simp)
  · refine (meets_tryWait hP hs).bind fun exit s₁ h₁ => ?_
    cases exit with
    | some _ => exact ⟨h₁.1, h₁.2 (by simp)⟩
    | none => exact meets_exitProcess rfl hP h₁.1

/-! ## Stop -/

/-- The process of a stopped connection has ended; an owned child is always ended. -/
theorem meets_stopOwned (quit : Bool) (hP : Stable safe i P) (hs : P s) :
    Meets safe i (fun status s' => (status = .exited ∨ status = .failed) ∧ P s' ∧
        s'.alive p.identity = false)
      (fun _ s' => p.child = false ∧ P s') (stopOwned p quit) s := by
  refine Ok.bind (M := fun _ => P) ?_ fun _ s₁ h₁ => Ok.ask fun reply => ?_
  · split
    · exact hs
    · exact meets_ignore hP (frame_tame (frame_terminate p)) hs
  · refine Ok.bind (M := fun _ s' => P s' ∧ s'.alive p.identity = false) ?_ fun exit s₂ h₂ => ?_
    · split
      · exact (meets_ignore hP (frame_tame (frame_terminate p)) h₁).bind fun _ s₂ h₂ => meets_waitProcess hP h₂
      · exact meets_reap hP h₁
    · refine ⟨?_, h₂⟩
      split
      · exact .inl rfl
      · exact .inr rfl

theorem meets_stopRecovered (quit : Except Error Unit) (hP : Stable safe i P) (hs : P s) :
    Meets safe i (fun status s' => (status = .exited ∨ status = .failed) ∧ P s' ∧ s'.alive x = false)
      (fun _ => P) (stopRecovered x quit) s := by
  refine (ok_ofExcept.2 ⟨fun _ _ => hs, fun _ _ => hs⟩ :
    Meets safe i (fun _ => P) (fun _ => P) (ofExcept quit) s).bind fun _ s₁ h₁ =>
      Ok.ask fun reply => ?_
  split
  · refine ok_queryE fun s₂ hR _ => ?_
    have h₂ := hP.calm s₁ s₂ hR.toCalm h₁
    obtain ⟨c, hc⟩ := hP.inv s₂ h₂
    refine ⟨.of_procs hc rfl rfl, fun status h => ?_, fun _ _ => h₂⟩
    split at h
    · cases h
    · next hdead =>
      cases h
      exact ⟨.inl rfl, h₂, by simpa using hdead⟩
  · exact (meets_exitProcess (f := fun _ => ()) rfl hP h₁).bind fun _ _ h₂ => ⟨.inl rfl, h₂⟩

/-- After the end of a run its process has ended. It fails only without an owned child. -/
theorem meets_endRun (running : AsyncRunningInstance) (hP : Stable safe i P) (hs : P s) :
    Meets safe i (fun status s' => (status = .exited ∨ status = .failed) ∧ P s' ∧
        ∃ x, running.identity = some x ∧ s'.alive x = false)
      (fun _ s' => P s' ∧ ∀ p, running.process = some p → p.child = false) (endRun running) s := by
  obtain ⟨process, runId, recovered⟩ := running
  refine (Ok.attempt (E := fun _ => P) (ok_outside hs fun _ => hs)).bind fun quit s₁ h₁ => ?_
  cases process with
  | some p =>
    refine (meets_stopOwned quit.isOk hP h₁).mono (fun _ _ h => ?_) fun _ _ h => ?_
    · exact ⟨h.1, h.2.1, p.identity, rfl, h.2.2⟩
    · refine ⟨h.2, fun q hq => ?_⟩
      cases hq
      exact h.1
  | none =>
    cases recovered with
    | some identity =>
      refine (meets_stopRecovered quit hP h₁).mono (fun _ _ h => ?_) fun _ _ h => ?_
      · exact ⟨h.1, h.2.1, identity, rfl, h.2.2⟩
      · exact ⟨h, nofun⟩
    | none => exact ⟨h₁, nofun⟩

/-- The instance is running or paused. -/
def Live (i : Id) (s : World) : Prop :=
  ∃ row, s.workspace.instanceRow i = some row ∧ (row.state = .running ∨ row.state = .paused)

theorem Live.of_row (h : Live i s)
    (hrow : s'.workspace.instanceRow i = s.workspace.instanceRow i) : Live i s' := by
  obtain ⟨row, hr, hstate⟩ := h
  exact ⟨row, hrow.trans hr, hstate⟩

/-- A transition is refused only by the lifecycle. -/
theorem meets_transitionInstance {next : InstanceState} (hP : Stable safe i P) (hs : P s) :
    Meets safe i (fun row s' => P s' ∧ row.state = next ∧ s'.workspace.instanceRow i = some row)
      (fun _ s' => P s' ∧ s'.workspace.instanceRow i = s.workspace.instanceRow i ∧
        ∀ row, s.workspace.instanceRow i = some row → row.state.allows next = false)
      (transitionInstance i next) s := by
  refine ok_statement fun s₁ hR _ => ?_
  have h₁ := hP.calm s s₁ hR.toCalm hs
  obtain ⟨c, hc⟩ := hP.inv s₁ h₁
  rcases s₁.workspace.transitionInstance_cases i next with
    ⟨row, hrow, _, hstep⟩ | ⟨e, hstep, hdeny⟩
  · rw [hstep]
    have hcalm : Calm i s₁ (s₁.withWorkspace (s₁.workspace.setLifecycle i next)) :=
      .of_workspace rfl
    refine ⟨.of_calm hc hcalm rfl, ?_, by simp⟩
    rintro row' ⟨⟩
    refine ⟨hP.calm s₁ _ hcalm h₁, rfl, ?_⟩
    show (s₁.workspace.setLifecycle i next).instanceRow i = _
    rw [Workspace.instanceRow_setLifecycle, if_pos rfl, hrow]
    rfl
  · rw [hstep]
    refine ⟨.of_procs hc rfl rfl, by simp, fun _ _ => ⟨h₁, hR.row, fun row hrow => ?_⟩⟩
    exact hdeny row (hR.row.trans hrow)

theorem Live.allows_stopping {row : Instance} (h : Live i s)
    (hrow : s.workspace.instanceRow i = some row) : row.state.allows .stopping = true := by
  obtain ⟨row', hrow', hstate⟩ := h
  rw [hrow] at hrow'
  cases hrow'
  rcases hstate with hstate | hstate <;> rw [hstate] <;> rfl

/-- A stop finishes the run once its process has ended. Of a live instance with an owned child it
always gets that far. -/
theorem meets_stopInstanceAsync {running : AsyncRunningInstance} {who : Finisher}
    (hs : Invariant safe i c s) (hfits : Fits i running.runId running s) :
    Meets safe i (fun _ s' => Invariant safe i c s' ∧
        s'.workspace.activeIds i = (s.workspace.activeIds i).filter (· ≠ running.runId))
      (fun _ s' => Invariant safe i c s' ∧
        (Live i s → (∃ p, running.process = some p ∧ p.child = true) →
          s'.workspace.activeIds i = (s.workspace.activeIds i).filter (· ≠ running.runId)))
      (stopInstanceAsync i running who) s := by
  have hP := ((stable_inv safe i c).and (Q := Fits i running.runId running)
    fun _ _ _ hc h => h.calm hc).and (Q := Active i (s.workspace.activeIds i))
      fun _ _ _ hc h => active_calm h hc
  refine meets_queryE_bind hs (fun e s₁ hR h₁ hnone => ⟨h₁, fun hlive => ?_⟩)
    fun current s₁ hR h₁ hrow => ?_
  · obtain ⟨row, hr, _⟩ := hlive.of_row hR.row
    rw [Workspace.instance_eq_error hnone] at hr
    cases hr
  have hs₁ := hP.calm s s₁ hR.toCalm ⟨⟨hs, hfits⟩, rfl⟩
  have hrow₁ := Workspace.instance_eq_ok.1 hrow
  split
  · next hstate =>
    refine ⟨h₁, fun hlive => ?_⟩
    obtain ⟨row, hr, hlive⟩ := hlive.of_row hR.row
    rw [hrow₁] at hr
    cases hr
    rcases hlive with hlive | hlive
    · exact absurd hlive hstate.1
    · exact absurd hlive hstate.2.1
  · refine Ok.bind (M := fun _ s' => (Invariant safe i c s' ∧ Fits i running.runId running s') ∧
      Active i (s.workspace.activeIds i) s') ?_ fun _ s₂ h₂ => ?_
    · split
      · refine ((meets_transitionInstance hP hs₁).mono (fun _ _ h => h.1) fun _ _ h => ?_).bind
          fun _ _ h => h
        refine ⟨h.1.1.1, fun hlive => ?_⟩
        have hallow := (hlive.of_row hR.row).allows_stopping hrow₁
        rw [h.2.2 current hrow₁] at hallow
        cases hallow
      · exact hs₁
    · refine ((meets_endRun running hP h₂).mono (fun _ _ h => h) fun _ _ h => ?_).bind
        fun status s₃ h₃ => ?_
      · refine ⟨h.1.1.1, fun _ ⟨p, hp, hchild⟩ => ?_⟩
        rw [h.2 p hp] at hchild
        cases hchild
      · obtain ⟨hstatus, ⟨⟨hinv, hfit⟩, hids⟩, x, hx, hdead⟩ := h₃
        have hids' : s₃.workspace.activeIds i = s.workspace.activeIds i := hids
        rw [← hids']
        refine ((meets_finishRun hstatus hinv (hfit.deadRun hinv hx hdead)).mono
          (fun _ _ h => h.2) fun _ _ h => ⟨h.1, fun _ _ => h.2⟩).bind fun _ s₄ h₄ => ?_
        have hP' := (stable_inv safe i c).and
          (Q := Active i ((s₃.workspace.activeIds i).filter (· ≠ running.runId)))
          fun _ _ _ hc h => active_calm h hc
        exact (meets_tame hP' (frame_transitionInstance i _) h₄).mono (fun _ _ h => h.2)
          fun _ _ h => ⟨h.1, fun _ _ => h.2⟩

/-! ## The stages of a start -/

/-- QEMU is spawned and no run records it yet; its handle ends it when it is dropped. -/
structure Spawned (safe : Prop) (i : Id) (p : ManagedProcess) (s : World) : Prop where
  inv : Invariant safe i { extra := some p.identity } s
  none : Active i [] s
  known : p.identity ∈ s.identities
  child : p.child = true
  drops : p.preserveOnDrop = false

/-- The run records the process, and its connection is not installed yet. -/
structure Up (safe : Prop) (i r : Id) (x : ProcessIdentity) (s : World) : Prop where
  inv : Invariant safe i { skip := some r } s
  ids : Active i [r] s
  known : x ∈ s.identities
  process : ∀ run ∈ processes i s, run.1 = r → run.2 = x

/-- A start has succeeded: the run is up, the instance is live and the handle owns the child. -/
structure Started (safe : Prop) (i r : Id) (running : AsyncRunningInstance) (s : World) : Prop where
  up : ∃ p, running = { process := some p, runId := r, recovered := none } ∧ p.child = true ∧
    Up safe i r p.identity s
  live : Live i s

/-- No run is active. -/
def Clear (safe : Prop) (i : Id) (s : World) : Prop := Invariant safe i {} s ∧ Active i [] s

theorem processes_calm (hc : Calm i s s') : processes i s' = processes i s := by
  unfold processes
  rw [hc.runs]

theorem stable_clear (safe : Prop) (i : Id) : Stable safe i (Clear safe i) :=
  (stable_inv safe i {}).and fun _ _ _ hc h => active_calm h hc

theorem stable_spawned (safe : Prop) (i : Id) (p : ManagedProcess) : Stable safe i (Spawned safe i p) :=
  ⟨fun _ h => ⟨_, h.inv⟩, fun _ _ hc h =>
    ⟨h.inv.calm hc, active_calm h.none hc, hc.identities h.known, h.child, h.drops⟩⟩

theorem stable_up (safe : Prop) (i r : Id) (x : ProcessIdentity) : Stable safe i (Up safe i r x) := by
  refine ⟨fun _ h => ⟨_, h.inv⟩, fun s s' hc h => ?_⟩
  refine ⟨h.inv.calm hc, active_calm h.ids hc, hc.identities h.known, ?_⟩
  rw [processes_calm hc]
  exact h.process

/-- A run that is up has an unfinished row only with its process. -/
theorem Up.identity {row : Run} (h : Up safe i r x s) (hrow : row ∈ s.workspace.runsOf i)
    (hid : row.runId = r) : row.identity = x :=
  h.process (row.runId, row.identity) (mem_map_of_mem hrow) hid

theorem Up.deadRun (h : Up safe i r x s) (hdead : s.alive x = false) : DeadRun i r s := by
  intro row hrow hid
  rw [h.identity hrow hid]
  exact hdead

theorem Up.fits {running : AsyncRunningInstance} (h : Up safe i r x s) (hr : running.runId = r)
    (hx : running.identity = some x) : Fits i r running s := by
  refine ⟨hr, fun y hy => ?_⟩
  rw [hx] at hy
  cases hy
  refine ⟨h.known, fun run hrun hid => ?_⟩
  obtain ⟨hmem, hi, _⟩ := Workspace.mem_activeRuns.1 hrun
  exact h.identity (Workspace.mem_runsOf.2 ⟨hmem, hi⟩) hid

/-- Once the run is no longer active nothing is left to install. -/
theorem clear_of_inactive (h : Invariant safe i { skip := some r } s) (hids : Active i [] s) :
    Clear safe i s := by
  refine ⟨h.unskip fun q _ => ?_, hids⟩
  rw [hids]
  exact not_mem_nil

/-! ## The spawn of QEMU -/

/-- A spawned process that has ended is forgotten. -/
theorem Spawned.clear (h : Spawned safe i p s) (hdead : s.alive p.identity = false) : Clear safe i s := by
  refine ⟨h.inv.unextra fun y hy => ?_, h.none⟩
  cases hy
  exact hdead

theorem meets_dropSpawned (hs : Spawned safe i p s) :
    Meets safe i (fun _ => Clear safe i) X (dropProcess p) s :=
  (meets_dropProcess (stable_spawned safe i p) hs.child hs.drops hs).mono
    (fun _ _ h => h.1.clear h.2) fun _ _ h => h

/-- The spawn of a QEMU when no run is active. -/
theorem Clear.spawned {unit : Option String} {offered : ProcessIdentity} (hs : Clear safe i s)
    (hx : p.identity = s.freshIdentity offered) (hchild : p.child = true)
    (hdrop : p.preserveOnDrop = false) :
    Guarantee safe i l s (s.spawn (.qemu i r) unit none offered) ∧
      Spawned safe i p (s.spawn (.qemu i r) unit none offered) := by
  have hinv := hs.1.spawn (r := r) rfl hs.2 unit offered
  refine ⟨⟨⟨_, hinv⟩, fun h _ _ _ _ => hs.1.noQemu h rfl hs.2, fun _ => hs.2⟩, ?_, hs.2, ?_, hchild, hdrop⟩
  · rw [hx]
    exact hinv
  · rw [hx]
    exact World.mem_identities.2 ⟨_, mem_append_right _ (mem_singleton_self _), rfl⟩

variable {q : Id}

theorem meets_spawnPlain {argv : List String} (hs : Clear safe i s) :
    Meets safe i (fun p => Spawned safe i p) (fun _ => Clear safe i) (spawnPlain (.qemu i r) q argv) s := by
  unfold spawnPlain
  split
  · exact hs
  · refine Ok.ask fun reply => ?_
    split
    · refine ok_step.2 fun s₁ hR _ => ?_
      have h₁ := (stable_clear safe i).calm s s₁ hR.toCalm hs
      exact h₁.spawned rfl rfl rfl
    · exact hs

/-- A refused scope starts a launcher that has exited. -/
theorem calm_spawnLauncher (s : World) (exit : ProcessExit) (offered : ProcessIdentity) :
    Calm i s (s.spawn .launcher none (some exit) offered) :=
  .of_tame (.of_other (.spawn s (.inr ⟨rfl, rfl⟩) none offered))

theorem meets_launchScope {accepted : Bool} {offered : ProcessIdentity} (hs : Clear safe i s) :
    Meets safe i (fun launched => Spawned safe i launched.1) (fun _ => Clear safe i)
      (launchScope (.qemu i r) q accepted offered) s := by
  refine ok_step.2 fun s₁ hR _ => ?_
  have h₁ := (stable_clear safe i).calm s s₁ hR.toCalm hs
  simp only
  split
  · exact h₁.spawned rfl rfl rfl
  · have hcalm := calm_spawnLauncher (i := i) s₁ { code := some 1, success := false } offered
    have h₂ := (stable_clear safe i).calm s₁ _ hcalm h₁
    refine ⟨.of_calm h₁.1 hcalm rfl, h₂.1.withExtra h₂.2 _, h₂.2, ?_, rfl, rfl⟩
    exact World.mem_identities.2 ⟨_, mem_append_right _ (mem_singleton_self _), rfl⟩

/-- Waiting for the pid file does not fail; the handle it confirms is the launched one. -/
theorem meets_awaitPid (runs : Bool) (hP : Stable safe i P) (hs : P s) :
    Meets safe i (fun result s' => (∀ q, result = .ok q →
        q = { p with adoptedStart := some p.identity.processStart }) ∧ P s') X
      (awaitPid p runs) s := by
  refine Ok.ask fun reply => ?_
  generalize (if runs = true then reply.pidfile else Pidfile.absent) = pidfile
  cases pidfile with
  | published =>
    refine ok_step.2 fun s₁ hR _ => ?_
    have h₁ := hP.calm s s₁ hR.toCalm hs
    obtain ⟨c, hc⟩ := hP.inv s₁ h₁
    refine ⟨.of_procs hc rfl rfl, fun q hq => ?_, h₁⟩
    simp only at hq
    split at hq
    · cases hq
      rfl
    · cases hq
  | invalid contents => exact ⟨nofun, hs⟩
  | absent =>
    refine (meets_tryWait hP hs).bind fun exit s₁ h₁ => ?_
    cases exit with
    | some _ => exact ⟨nofun, h₁.1⟩
    | none => exact (meets_ignore hP (frame_tame (frame_terminate p)) h₁.1).bind fun _ _ h₂ => ⟨nofun, h₂⟩
  | unreadable detail =>
    exact (meets_ignore hP (frame_tame (frame_terminate p)) hs).bind fun _ _ h₁ => ⟨nofun, h₁⟩

/-- An adopted start changes nothing about the process. -/
theorem Spawned.adopted (h : Spawned safe i p s) (start : Option Nat) :
    Spawned safe i { p with adoptedStart := start } s :=
  ⟨h.inv, h.none, h.known, h.child, h.drops⟩

theorem meets_spawnSystemdScopeInner {argv : List String} (hs : Clear safe i s) :
    Meets safe i (fun result s' => (∀ p, result = .ok p → Spawned safe i p s') ∧
        ∀ e, result = .error e → Clear safe i s')
      (fun _ => Clear safe i) (spawnSystemdScopeInner (.qemu i r) q argv) s := by
  unfold spawnSystemdScopeInner
  split
  · exact ⟨nofun, fun _ _ => hs⟩
  · refine Ok.ask fun reply => ?_
    cases reply.scope with
    | missing => exact ⟨nofun, fun _ _ => hs⟩
    | failed detail => exact ⟨nofun, fun _ _ => hs⟩
    | launched accepted =>
      refine (meets_launchScope hs).bind fun launched s₁ h₁ => ?_
      refine (meets_awaitPid _ (stable_spawned safe i launched.1) h₁).bind fun result s₂ h₂ => ?_
      cases result with
      | ok p =>
        refine ⟨?_, nofun⟩
        rintro _ ⟨⟩
        rw [h₂.1 p rfl]
        exact h₂.2.adopted _
      | error failure =>
        exact (meets_dropSpawned h₂.2).bind fun _ _ h₃ => ⟨nofun, fun _ _ => h₃⟩

/-- QEMU is spawned once: a scope that failed has ended before the plain process starts. -/
theorem meets_spawnSystemdScope {argv : List String} (hs : Clear safe i s) :
    Meets safe i (fun p => Spawned safe i p) (fun _ => Clear safe i)
      (spawnSystemdScope (.qemu i r) q argv) s := by
  refine (meets_spawnSystemdScopeInner hs).bind fun result s₁ h₁ => ?_
  cases result with
  | ok p => exact h₁.1 p rfl
  | error failure =>
    have hclear := h₁.2 failure rfl
    simp only
    split
    · exact meets_spawnPlain hclear
    · exact hclear

/-! ## From the spawn to the live run -/

theorem meets_owning {Q : α → World → Prop} {Y : Error → World → Prop}
    {body : Act α} (hbody : Meets safe i Q X body s)
    (hdrop : ∀ e s', X e s' → Meets safe i (fun _ => Y e) Y (dropProcess p) s') :
    Meets safe i Q Y (owning p body) s := by
  refine (Ok.attempt (E := Either Q X) hbody).bind fun result s' h => ?_
  cases result with
  | ok a => exact h
  | error e => exact (hdrop e s' h).bind fun _ _ h => h

variable {request : StartRequest}

/-- The spawned process is recorded as the run, or nothing is. -/
theorem meets_recordSpawned (hi : request.instanceId = i) (hs : Spawned safe i p s) :
    Meets safe i (fun _ => Up safe i request.runId p.identity) (fun _ => Spawned safe i p)
      (recordSpawned request p) s := by
  subst hi
  refine meets_tame_bind (stable_spawned safe _ p) (frame_tame (frame_processStart p)) hs
    (fun _ _ h => h) fun _ s₁ h₁ => Ok.ask fun reply => ok_statement fun s₂ hR _ => ?_
  have h₂ := (stable_spawned safe _ p).calm s₁ s₂ hR.toCalm h₁
  rcases s₂.workspace.recordRun_cases request.runId request.instanceId p.identity
      request.qmpSocket reply.now with ⟨runs, hnew, hinsert, hstep⟩ | ⟨e, hstep⟩
  · rw [hstep]
    have hinv := h₂.inv.recordRun rfl hinsert rfl rfl h₂.known
    have hids : Active request.instanceId [request.runId]
        (s₂.withWorkspace { s₂.workspace with runs }) :=
      (Workspace.activeIds_insert hinsert rfl rfl).trans (congrArg (· ++ [request.runId]) h₂.none)
    refine ⟨.of_inactive hinv rfl fun _ => h₂.none, fun _ _ => ⟨hinv, hids, h₂.known, ?_⟩, by simp⟩
    -- a row with the id of the run is the one that was inserted
    intro run hrun hid
    obtain ⟨row, hrow, rfl⟩ := mem_map.1 hrun
    have hnewId : (Workspace.newRun request.runId request.instanceId p.identity
      request.qmpSocket reply.now).instanceId = request.instanceId := rfl
    rw [World.withWorkspace, Workspace.runsOf_insert hinsert, if_pos hnewId, mem_append,
      mem_singleton] at hrow
    rcases hrow with hrow | rfl
    · have hold := Workspace.runRow_eq_some_iff.2 ⟨(Workspace.mem_runsOf.1 hrow).1, hid⟩
      rw [hnew] at hold
      cases hold
    · rfl
  · rw [hstep]
    exact ⟨.of_inactive h₂.inv rfl fun _ => h₂.none, by simp, fun _ _ => h₂⟩

theorem live_stable (safe : Prop) (i r : Id) (x : ProcessIdentity) (s s' : World) (h : Quiet i s s')
    (hs : Up safe i r x s ∧ Live i s) : Up safe i r x s' ∧ Live i s' :=
  ⟨(stable_up safe i r x).calm s s' h.toCalm hs.1, hs.2.of_row h.row⟩

/-- A part of a request that keeps the row of the instance. -/
theorem meets_live {V : α → Prop} {body : Act α}
    (hbody : Frame (QuietStep i) V body) (hs : Up safe i r x s ∧ Live i s) :
    Meets safe i (fun _ s' => Up safe i r x s' ∧ Live i s') (fun _ s' => Up safe i r x s' ∧ Live i s') body s :=
  (meets_quiet hbody (fun _ h => ⟨_, h.1.inv⟩) (live_stable safe i r x) hs).mono (fun _ _ h => h.2)
    fun _ _ h => h

theorem quiet_of_workspace {w : Workspace} (hruns : w.runs = s.workspace.runs)
    (hinstances : w.instances = s.workspace.instances) : Quiet i s { s with workspace := w } := by
  refine ⟨.of_workspace ?_, ?_⟩
  · unfold Workspace.runsOf
    rw [hruns]
  · unfold Workspace.instanceRow
    rw [hinstances]

theorem quiet_tables {f : World → Workspace} (hruns : ∀ s, (f s).runs = s.workspace.runs)
    (hinstances : ∀ s, (f s).instances = s.workspace.instances) :
    Frame (QuietStep i) anyValue (modify .quiet fun s => { s with workspace := f s }) :=
  frame_modify fun s => ⟨rfl, quiet_of_workspace (hruns s) (hinstances s)⟩

/-- A publication changes the event log only. -/
theorem quiet_publishEvent (s : World) (events : List StateEvent) :
    Quiet i s { s with stateEvents := events } :=
  ⟨⟨rfl, Evolves.refl _, fun _ hp hnew => absurd (World.mem_identities.2 ⟨_, hp, rfl⟩) hnew,
    .inl rfl, fun _ h => .inl h⟩, rfl⟩

theorem quiet_publishStateFields (current : Instance) (q : Option Id) (status : Option RunStatus)
    (reason : String) :
    Frame (QuietStep i) anyValue (publishStateFields current q status reason) :=
  frame_modify fun s => ⟨rfl, quiet_publishEvent s _⟩

theorem quiet_completeOperation (o : Id) (result : OperationResult) :
    Frame (QuietStep i) anyValue (completeOperation o result) :=
  frame_stepE (fun s => ⟨rfl, quiet_of_workspace (s.workspace.completeOperation_keeps o result).1
    (s.workspace.completeOperation_keeps o result).2⟩) fun _ _ _ => trivial

/-- A successful negotiation leaves the instance live. -/
theorem meets_negotiate {o : Id} (hi : request.instanceId = i) (hs : Up safe i request.runId x s) :
    Meets safe i (fun _ s' => Up safe i request.runId x s' ∧ Live i s') (fun _ => Up safe i request.runId x)
      (negotiate request o p) s := by
  have hP := stable_up safe i request.runId x
  refine meets_tame_bind hP frame_outside hs (fun _ _ h => h) fun _ s₁ h₁ => ?_
  refine meets_tame_bind hP frame_queryStatus h₁ (fun _ _ h => h) fun status s₂ h₂ => ?_
  refine Ok.bind (M := fun target s' => (target = .running ∨ target = .paused) ∧
    Up safe i request.runId x s') (ok_ofExcept.2 ⟨fun target h => ?_, fun _ _ => h₂⟩)
    fun target s₃ h₃ => ?_
  · exact ⟨InstanceState.fromQmp_cases h, h₂⟩
  refine (meets_tryWait hP h₃.2).bind fun exit s₄ h₄ => ?_
  cases exit with
  | some _ => exact h₄.1
  | none =>
    rw [hi]
    refine ((meets_transitionInstance hP h₄.1).mono (fun _ _ h => h) fun _ _ h => h.1).bind
      fun final s₅ h₅ => ?_
    have hlive : Live i s₅ := ⟨final, h₅.2.2, by rw [h₅.2.1]; exact h₃.1⟩
    refine ((meets_live (quiet_publishStateFields final _ _ _) ⟨h₅.1, hlive⟩).mono
      (fun _ _ h => h) fun _ _ h => h.1).bind fun _ s₆ h₆ => ?_
    split
    · exact ((meets_live (quiet_completeOperation o _) h₆).mono (fun _ _ h => h)
        fun _ _ h => h.1).bind fun _ _ h => h
    · exact h₆

/-- What the body of a start leaves: the live run, or its process has ended. -/
theorem meets_launch {o : Id} (hi : request.instanceId = i) (hs : Clear safe i s) :
    Meets safe i (fun result s' => match result with
        | (_, .ok running) => Started safe i request.runId running s'
        | (false, .error _) => Clear safe i s'
        | (true, .error _) => ∃ x, Up safe i request.runId x s' ∧ s'.alive x = false)
      (fun _ _ => False) (launch request o) s := by
  have hspawn : Meets safe i (fun p => Spawned safe i p) (fun _ => Clear safe i)
      ((enterStarting request).bind fun _ =>
        spawnSystemdScope (.qemu request.instanceId request.runId) request.runId request.argv) s := by
    refine meets_tame_bind (stable_clear safe i) (frame_enterStarting request) hs (fun _ _ h => h)
      fun _ s₁ h₁ => ?_
    rw [hi]
    exact meets_spawnSystemdScope h₁
  refine (Ok.attempt (E := Either (Spawned safe i) fun _ => Clear safe i) hspawn).bind fun spawned s₁ h₁ => ?_
  cases spawned with
  | error e => exact h₁
  | ok p =>
    have hrecord := meets_owning (meets_recordSpawned hi h₁) fun e _ h =>
      meets_dropSpawned (X := fun _ => Clear safe i) h
    refine (Ok.attempt (E := Either (fun _ => Up safe i request.runId p.identity)
      fun _ => Clear safe i) hrecord).bind fun recorded s₂ h₂ => ?_
    cases recorded with
    | error e => exact h₂
    | ok _ =>
      have hnegotiate := meets_owning (meets_negotiate (o := o) (p := p) hi h₂) fun e _ h =>
        meets_dropProcess (X := fun _ s' => Up safe i request.runId p.identity s' ∧
          s'.alive p.identity = false) (stable_up safe i _ _) h₁.child h₁.drops h
      refine (Ok.attempt (E := Either
        (fun _ s' => Up safe i request.runId p.identity s' ∧ Live i s')
        fun _ s' => Up safe i request.runId p.identity s' ∧ s'.alive p.identity = false)
        hnegotiate).bind fun negotiated s₃ h₃ => ?_
      cases negotiated with
      | error e => exact ⟨p.identity, h₃⟩
      | ok _ => exact ⟨⟨p, rfl, h₁.child, h₃.1⟩, h₃.2⟩

/-! ## The start -/

theorem stable_upDead (safe : Prop) (i r : Id) (x : ProcessIdentity) :
    Stable safe i fun s => Up safe i r x s ∧ s.alive x = false :=
  (stable_up safe i r x).and fun _ _ h hc hdead => hc.dead h.known hdead

/-- The end of a rollback only moves the lifecycle. -/
theorem frame_rollbackState (request : StartRequest) :
    Frame TameStep anyValue ((readInstance request.instanceId).attempt.bind fun found =>
      match found with
      | .error _ => ret ()
      | .ok current =>
        if current.state = .starting ∨ current.state = .running ∨ current.state = .paused then
          (transitionInstance request.instanceId .error).attempt.bind fun failed =>
            match failed with
            | .ok state => onState request.runId state
            | .error _ => ret ()
        else if current.state = .error then onState request.runId current
        else ret ()) := by
  refine (frame_readInstance _).attempt.bind fun found _ => ?_
  cases found with
  | error _ => exact frame_pure
  | ok current =>
    simp only
    split
    · refine (frame_transitionInstance _ _).attempt.bind fun failed _ => ?_
      cases failed with
      | ok state => exact frame_onState _ state
      | error _ => exact frame_pure
    · split
      · exact frame_onState _ current
      · exact frame_pure

/-- A run that is up and dead is finished. -/
theorem meets_finishUp {j : Id} {who : Finisher} (hs : Up safe i r x s) (hdead : DeadRun i r s) :
    Meets safe i (fun _ => Clear safe i) (fun _ => Clear safe i) (finishRun j r .failed who) s := by
  have hnone : (s.workspace.activeIds i).filter (· ≠ r) = [] := by
    rw [hs.ids]
    simp
  refine (meets_finishRun (.inr rfl) hs.inv hdead).mono (fun _ s' h => ?_) fun _ s' h => ?_
  · exact clear_of_inactive h.2.1 (h.2.2.trans hnone)
  · exact clear_of_inactive h.1 (h.2.trans hnone)

/-- The rollback of a start finishes its run, if it was recorded. -/
theorem meets_cleanupStart {o : Id} {recorded : Bool} {e : Error} (hi : request.instanceId = i)
    (hs : match recorded with
      | false => Clear safe i s
      | true => ∃ x, Up safe i request.runId x s ∧ s.alive x = false) :
    Meets safe i (fun _ => Clear safe i) (fun _ => Clear safe i) (cleanupStart request o recorded e) s := by
  subst hi
  have hP := stable_clear safe request.instanceId
  cases recorded with
  | false =>
    refine meets_tame_bind hP (frame_ignore (frame_failOperation o e.message)) hs
      (fun _ _ h => h) fun _ s₁ h₁ => ?_
    exact (meets_tame hP (frame_rollbackState request) h₁).mono (fun _ _ h => h.2) fun _ _ h => h
  | true =>
    obtain ⟨x, hs⟩ := hs
    refine (meets_ignore (stable_upDead safe _ _ x) (frame_failOperation o e.message) hs).bind
      fun _ s₁ h₁ => ?_
    refine Ok.bind (M := fun _ => Clear safe request.instanceId)
      (ok_ignore (meets_finishUp h₁.1 (h₁.1.deadRun h₁.2))) fun _ s₂ h₂ => ?_
    exact (meets_tame hP (frame_rollbackState request) h₂).mono (fun _ _ h => h.2) fun _ _ h => h

/-- A start ends in a live run whose process it owns, or with no QEMU alive. -/
theorem meets_startInstanceAsync (hi : request.instanceId = i) (hs : Invariant safe i {} s) :
    Meets safe i (fun running => Started safe i request.runId running) (fun _ => Invariant safe i {})
      (startInstanceAsync request) s := by
  unfold startInstanceAsync
  rw [hi]
  refine (meets_admitStart hs).bind fun _ s₁ h₁ => ?_
  refine meets_tame_bind (stable_clear safe i) (frame_beginStart request) h₁ (fun _ _ h => h.1)
    fun operation s₂ h₂ => ?_
  refine ((meets_launch hi h₂).mono (fun _ _ h => h) fun _ _ h => h.elim).bind
    fun started s₃ h₃ => ?_
  obtain ⟨recorded, result⟩ := started
  cases result with
  | ok running => exact h₃
  | error e =>
    refine ((meets_cleanupStart hi ?_).mono (fun _ _ h => h) fun _ _ h => h.1).bind
      fun _ _ h => h.1
    cases recorded with
    | false => exact h₃
    | true => exact h₃

end MachineEmu.OneQemu
