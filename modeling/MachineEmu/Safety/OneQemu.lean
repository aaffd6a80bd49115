import MachineEmu.Safety.QemuStart

/-!
# At most one live QEMU

No QEMU is started for an instance while an earlier one is alive, and a run is recorded as finished
only after its process has ended, in every run of the daemon in which no crash falls between the
spawn of a QEMU and the row that records it.

* `meets_install`, `calm_disconnect`, `calm_teardown`, `meets_qmp` — the supervisor table.
* `meets_startInstanceWithLock`, `meets_lifecycleAction`, `meets_watchRun`, `meets_readerPoll`,
  `meets_openWorkspace` — the requests.
* `oneLiveQemu_of_crashesRecorded` — every run without a crash in that window.
* `not_oneLiveQemu_vm` — a run with one.
-/

namespace MachineEmu.OneQemu

open Lib Lib.Prog Lib.Service Act List

variable {safe : Prop} {i r : Id} {l : Label} {c : Pending} {s s' : World} {x : ProcessIdentity} {P : World → Prop}
  {p : ManagedProcess}

/-! ## The supervisor table -/

/-- A connection that fits is installed. -/
theorem meets_install (j q : Id) (running : Option AsyncRunningInstance)
    (helpers : List ManagedProcess) (hs : Invariant safe i c s)
    (hfits : j = i → ∀ live, running = some live → Fits i q live s)
    (hskip : ∀ k, c.skip = some k → j = i ∧ q = k) :
    Meets safe i (fun _ s' => Invariant safe i { c with skip := none } s' ∧
        ∀ k live, Fits i k live s → Fits i k live s')
      (fun _ => Invariant safe i { c with skip := none }) (install j q running helpers) s := by
  have hP := (stable_inv safe i { c with skip := none }).and
    (Q := fun s' => ∀ k live, Fits i k live s → Fits i k live s')
    fun _ _ _ hc h k live hfit => (h k live hfit).calm hc
  refine Ok.bind (M := fun _ s' => Invariant safe i { c with skip := none } s' ∧
    ∀ k live, Fits i k live s → Fits i k live s') (ok_step.2 fun s₁ hR _ => ?_)
    fun previous s₂ h₂ => ?_
  · have h₁ := hs.calm hR.toCalm
    have hkeep : ∀ k live, Fits i k live s → Fits i k live s₁ :=
      fun k live hfit => hfit.calm hR.toCalm
    cases hown : ownEntry s₁ j q with
    | none =>
      -- an entry of another run refuses
      obtain ⟨owner, hentry, hid⟩ := ownEntry_eq_none hown
      have h₂ : Invariant safe i { c with skip := none } s₁ := by
        refine h₁.unskip_of_entry fun owner' hentry' hk => ?_
        obtain ⟨rfl, rfl⟩ := hskip _ hk.symm
        rw [hentry] at hentry'
        cases hentry'
        exact hid rfl
      exact ⟨.of_procs h₂ rfl rfl, h₂, hkeep⟩
    | some owner =>
      obtain ⟨hid, _⟩ := ownEntry_eq_some hown
      simp only
      let supervisors := Function.update s₁.supervisors j (some
        { owner with running, helpers := if helpers = [] then owner.helpers else helpers })
      have h₂ : Invariant safe i { c with skip := none } { s₁ with supervisors } := by
        refine h₁.setSupervisors fun k k' y hlink => ?_
        rw [World.link_update] at hlink
        by_cases hj : i = j
        · rw [if_pos hj, Option.bind_some] at hlink
          obtain ⟨live, hlive, hlink⟩ := Option.bind_eq_some_iff.1 hlink
          obtain ⟨y', hy, hlink⟩ := Option.map_eq_some_iff.1 hlink
          cases hlink
          have hfit := (hfits hj.symm live hlive).calm hR.toCalm
          rw [hid]
          exact ⟨hfit.1.symm, (hfit.2 y hy).1, (hfit.2 y hy).2⟩
        · rw [if_neg hj] at hlink
          obtain ⟨hk, hy, hactive⟩ := h₁.linked k k' y hlink
          refine ⟨hk, hy, hactive fun hk => hj ?_⟩
          exact (hskip k hk.symm).1.symm
      exact ⟨.of_procs h₂ rfl rfl, h₂, hkeep⟩
  · cases previous with
    | none =>
      refine meets_tame_bind hP (frame_tame (frame_dropAll helpers)) h₂ (fun _ _ h => h.1)
        fun _ s₃ h₃ => ?_
      exact meets_tame_bind hP (frame_tame (frame_dropConnection running)) h₃ (fun _ _ h => h.1)
        fun _ _ h => h.1
    | some owner =>
      refine meets_tame_bind hP (frame_tame (frame_dropConnection owner.running)) h₂
        (fun _ _ h => h.1) fun _ s₃ h₃ => ?_
      split
      · exact h₃
      · exact (meets_tame hP (frame_tame (frame_dropAll owner.helpers)) h₃).mono (fun _ _ h => h.2)
          fun _ _ h => h.1

/-- A change of one entry that drops its connection. -/
theorem calm_dropLink {j : Id} {entry : Option RunSupervisor}
    (hentry : entry.bind RunSupervisor.link = none) :
    Calm i s { s with supervisors := Function.update s.supervisors j entry } := by
  refine .of_supervisors ?_
  rw [World.link_update]
  by_cases hi : i = j
  · rw [if_pos hi]
    exact .inr hentry
  · rw [if_neg hi]
    exact .inl rfl

theorem calm_disconnect (j q : Id) : Frame (CalmStep i) anyValue (disconnect j q) := by
  refine Frame.andThen (frame_step (fun s => ?_) fun _ => trivial) fun running =>
    calm_procs (frame_dropConnection running)
  cases hentry : s.supervisors j with
  | none => exact ⟨rfl, Calm.refl i s⟩
  | some owner =>
    simp only
    split
    · exact ⟨rfl, calm_dropLink rfl⟩
    · exact ⟨rfl, Calm.refl i s⟩

theorem calm_teardown (j q : Id) : Frame (CalmStep i) anyValue (teardown j q) := by
  refine Frame.andThen (frame_step (fun s => ?_) fun _ => trivial) fun owner => ?_
  · cases hentry : s.supervisors j with
    | none => exact ⟨rfl, Calm.refl i s⟩
    | some owner =>
      simp only
      split
      · exact ⟨rfl, calm_dropLink rfl⟩
      · exact ⟨rfl, Calm.refl i s⟩
  · cases owner with
    | none => exact frame_pure
    | some owner =>
      exact (calm_procs (frame_dropOption owner.display)).andThen fun _ =>
        (calm_procs (frame_stopAllChecked owner.helpers)).attempt.bind fun stopped _ =>
        (calm_procs (frame_dropConnection owner.running)).andThen fun _ =>
          frame_ofExcept fun _ _ => trivial

variable {run : Run}

/-- The shared connection of a traced run. -/
theorem meets_qmp (hs : Invariant safe i c s) (hskip : c.skip = none) (hrun : Traced i run s) :
    Meets safe i (fun _ => Invariant safe i c) (fun _ => Invariant safe i c) (qmp run) s := by
  refine meets_query_bind hs fun s₁ hR h₁ => ?_
  refine Ok.bind (M := fun _ => Invariant safe i c) ?_ fun running s₂ h₂ => ?_
  · cases (s₁.supervisors run.instanceId).bind RunSupervisor.running with
    | some running => exact h₁
    | none =>
      have hfound : Meets safe i (fun running s' => Invariant safe i c s' ∧ Fits i run.runId running s')
          (fun _ => Invariant safe i c) (AsyncRunningInstance.recover run) s₁ := by
        refine meets_queryE_bind h₁ (fun _ _ _ h _ => h) fun _ s₂ hR₂ h₂ halive => ?_
        have htraced := (hrun.calm hR.toCalm).calm hR₂.toCalm
        have hal : s₂.alive run.identity = true := by
          split at halive
          · assumption
          · cases halive
        obtain ⟨row, hrow, hid, hx⟩ := htraced.2 hal
        -- the active run with this id is the traced one
        have hfits : Fits i run.runId
            { process := none, runId := run.runId, recovered := some run.identity } s₂ := by
          refine ⟨rfl, fun y hy => ?_⟩
          cases hy
          refine ⟨htraced.1, fun row' hrow' hid' => ?_⟩
          have hmem := (Workspace.mem_activeRuns.1 hrow).1
          have hmem' := (Workspace.mem_activeRuns.1 hrow').1
          rw [Table.key_injective hmem' hmem (hid'.trans hid.symm), hx]
        have houtside : Meets safe i (fun _ s' => Invariant safe i c s' ∧ Fits i run.runId
            { process := none, runId := run.runId, recovered := some run.identity } s')
            (fun _ => Invariant safe i c) outside s₂ :=
          ok_outside ⟨h₂, hfits⟩ fun _ => h₂
        exact houtside.bind fun _ _ h => h
      refine hfound.bind fun running s₂ h₂ => ?_
      have hsame : { c with skip := none } = c := by rw [← hskip]
      have hfits : run.instanceId = i → ∀ live, some running = some live →
          Fits i run.runId live s₂ := by
        rintro _ live ⟨⟩
        exact h₂.2
      have hinstall := meets_install run.instanceId run.runId (some running) [] h₂.1 hfits
        fun k hk => by
          rw [hskip] at hk
          cases hk
      rw [hsame] at hinstall
      exact hinstall.bind fun _ _ h => h.1
  · split
    · exact h₂
    · exact h₂

/-! ## Removal -/

theorem meets_reconcileForRemoval (hs : Invariant safe i c s) :
    Meets safe i (fun _ s' => Invariant safe i c s' ∧ Active i [] s') (fun _ => Invariant safe i c)
      (reconcileForRemoval i) s := by
  refine meets_reconcileActive i hs (fun _ _ h _ => h) (fun s₁ h₁ _ hnone => ⟨h₁, hnone rfl⟩)
    fun active run s₁ h₁ _ hid hrun hi => ?_
  split
  · exact h₁
  · next hnot =>
    rw [hid]
    refine ((meets_finishRun (.inr rfl) h₁ (hrun.deadRun hnot)).mono (fun _ _ h => h.2)
      fun _ _ h => h.1).bind fun _ s₂ h₂ => ok_modify fun s₃ hR _ => ?_
    have hcalm : Calm i s₃ (s₃.withWorkspace (s₃.workspace.setLifecycle i .stopped)) :=
      .of_workspace rfl
    have hs₃ := h₂.1.calm hR.toCalm
    refine ⟨.of_calm hs₃ hcalm rfl, hs₃.calm hcalm, ?_⟩
    show s₃.workspace.activeIds i = []
    rw [hR.toCalm.activeIds, h₂.2, (hi rfl).2]
    simp

theorem meets_removeInstance (hs : Invariant safe i c s) :
    Meets safe i (fun _ => Invariant safe i c) (fun _ => Invariant safe i c) (removeInstance i) s := by
  have hP := stable_inv safe i c
  refine meets_tame_bind hP (frame_finishInstanceDeletion i) hs (fun _ _ h => h)
    fun finished s₁ h₁ => ?_
  split
  · exact h₁
  · refine meets_tame_bind hP (frame_readInstance i) h₁ (fun _ _ h => h) fun _ s₂ h₂ => ?_
    refine (meets_reconcileForRemoval h₂).bind fun _ s₃ h₃ => ?_
    refine meets_tame_bind (hP.and (Q := Active i []) fun _ _ _ hc h => active_calm h hc)
      (frame_checkRemovable i) h₃ (fun _ _ h => h.1) fun _ s₄ h₄ => ?_
    refine Ok.bind (M := fun _ => Invariant safe i c) (ok_modify fun s₅ hR _ => ?_) fun _ s₆ h₆ => ?_
    · have h₅ := (h₄.1.calm hR.toCalm).deleteInstance (active_calm h₄.2 hR.toCalm)
      exact ⟨.of_inactive h₅ rfl fun _ => active_calm h₄.2 hR.toCalm, h₅⟩
    · exact meets_tame_bind hP (frame_finishInstanceDeletion i) h₆ (fun _ _ h => h) fun _ _ h => h

theorem meets_removeIfDisposable {q : Option Id} {reason : String} (hs : Invariant safe i c s) :
    Meets safe i (fun _ => Invariant safe i c) (fun _ => Invariant safe i c)
      (removeIfDisposable i q reason) s := by
  refine meets_queryE_bind hs (fun _ _ _ h _ => h) fun disposable s₁ _ h₁ _ => ?_
  split
  · refine (meets_removeInstance h₁).bind fun _ s₂ h₂ => ?_
    exact (meets_tame (stable_inv safe i c) (frame_recordTombstone i q reason) h₂).mono
      (fun _ _ h => h.2) fun _ _ h => h
  · exact h₁

theorem meets_disposeFailedStart (hs : Invariant safe i c s) :
    Meets safe i (fun _ => Invariant safe i c) (fun _ => Invariant safe i c) (disposeFailedStart i) s := by
  refine meets_queryE_bind hs (fun _ _ _ h _ => h) fun idle s₁ _ h₁ _ => ?_
  split
  · exact meets_removeIfDisposable h₁
  · exact h₁

/-! ## The rollback of a live start -/

/-- A finished run leaves no run active. -/
theorem meets_finishClear {j : Id} {who : Finisher} (hs : Clear safe i s) :
    Meets safe i (fun _ => Clear safe i) (fun _ => Clear safe i) (finishRun j r .failed who) s := by
  have hnone : (s.workspace.activeIds i).filter (· ≠ r) = [] := by
    rw [hs.2]
    rfl
  have hdead : DeadRun i r s := hs.1.deadRun (by rw [hs.2]; exact not_mem_nil)
  exact (meets_finishRun (.inr rfl) hs.1 hdead).mono (fun _ _ h => ⟨h.2.1, h.2.2.trans hnone⟩)
    fun _ _ h => ⟨h.1, h.2.trans hnone⟩

theorem frame_publishFailure (j q : Id) :
    Frame TameStep anyValue ((readInstance j).attempt.bind fun found =>
      match found with
      | .error _ => ret ()
      | .ok current =>
        (query fun s => s.workspace.runRow q).bind fun run =>
          publishState current run "start_failed") := by
  refine (frame_readInstance j).attempt.bind fun found _ => ?_
  cases found with
  | error _ => exact frame_pure
  | ok current =>
    exact (frame_query TameStep.quiet).andThen fun run => frame_publishState current run _

variable {helpers : List ManagedProcess} {running : AsyncRunningInstance} {o : Id}

/-- The rollback ends the process before it finishes the run. -/
theorem meets_rollbackFailedStart {e : Error} (hs : Started safe i r running s) :
    Meets safe i (fun _ => Clear safe i) (fun _ => Clear safe i)
      (rollbackFailedStart i r o running helpers e) s := by
  obtain ⟨⟨p, rfl, hchild, hup⟩, hlive⟩ := hs
  have hP := stable_clear safe i
  have hnone : (s.workspace.activeIds i).filter (· ≠ r) = [] := by
    rw [hup.ids]
    simp
  have hstop : Meets safe i (fun _ => Clear safe i) (fun _ => Clear safe i)
      (stopInstanceAsync i { process := some p, runId := r, recovered := none } .rollback) s := by
    refine (meets_stopInstanceAsync hup.inv (hup.fits rfl rfl)).mono (fun _ _ h => ?_)
      fun _ _ h => ?_
    · exact clear_of_inactive h.1 (h.2.trans hnone)
    · exact clear_of_inactive h.1 ((h.2 hlive ⟨p, rfl, hchild⟩).trans hnone)
  refine (Ok.attempt (E := fun _ => Clear safe i) hstop).bind fun stopped s₁ h₁ => ?_
  refine Ok.bind (M := fun _ => Clear safe i) ?_ fun _ s₂ h₂ => ?_
  · cases stopped with
    | ok _ => exact h₁
    | error _ =>
      refine Ok.bind (M := fun _ => Clear safe i) ?_ fun _ s₂ h₂ => ?_
      · refine meets_ignore (V := anyValue) hP (frame_tame ((frame_tryWait p).andThen fun exit => ?_)) h₁
        cases exit with
        | some _ => exact frame_pure
        | none => exact (frame_terminate p).andThen fun _ =>
            (frame_waitProcess p).andThen fun _ => frame_pure
      · refine (ok_ignore (meets_finishClear h₂)).bind fun _ s₃ h₃ => ?_
        exact meets_ignore hP (frame_markError i) h₃
  · refine meets_tame_bind hP (frame_tame (frame_stopAll helpers)) h₂ (fun _ _ h => h)
      fun _ s₃ h₃ => ?_
    refine (meets_ignore hP (frame_failOperation o e.message) h₃).bind fun _ s₄ h₄ => ?_
    exact (meets_tame hP (frame_publishFailure i r) h₄).mono (fun _ _ h => h.2) fun _ _ h => h

theorem meets_failStart {α : Type} {e : Error} {Q : α → World → Prop}
    (hs : Started safe i r running s) :
    Meets safe i Q (fun _ => Invariant safe i {}) (failStart i r o running helpers e : Act α) s :=
  ((meets_rollbackFailedStart hs).mono (fun _ _ h => h) fun _ _ h => h.1).bind fun _ _ h₁ =>
    meets_tame_bind (stable_clear safe i) (frame_tame (frame_dropConnection (some running))) h₁
      (fun _ _ h => h.1) fun _ _ h => h.1

theorem meets_orRollback {α : Type} {body : Act α} {Q : α → World → Prop}
    (hbody : Meets safe i Q (fun _ => Started safe i r running) body s) :
    Meets safe i Q (fun _ => Invariant safe i {}) (orRollback i r o running helpers body) s := by
  refine (Ok.attempt (E := Either Q fun _ => Started safe i r running) hbody).bind fun result s₁ h₁ => ?_
  cases result with
  | ok a => exact h₁
  | error e => exact meets_failStart h₁

/-! ## A live start -/

variable {running : AsyncRunningInstance}

theorem Started.inv (h : Started safe i r running s) : Invariant safe i { skip := some r } s := by
  obtain ⟨⟨p, _, _, hup⟩, _⟩ := h
  exact hup.inv

theorem Started.quiet (h : Started safe i r running s) (hq : Quiet i s s') :
    Started safe i r running s' := by
  obtain ⟨⟨p, hrunning, hchild, hup⟩, hlive⟩ := h
  exact ⟨⟨p, hrunning, hchild, (stable_up safe i r _).calm s s' hq.toCalm hup⟩, hlive.of_row hq.row⟩

/-- A part that keeps the row keeps a live start. -/
theorem meets_started {α : Type} {V : α → Prop} {body : Act α}
    (hbody : Frame (QuietStep i) V body) (hs : Started safe i r running s) :
    Meets safe i (fun _ => Started safe i r running) (fun _ => Started safe i r running) body s :=
  (meets_quiet hbody (fun _ h => ⟨_, h.inv⟩) (fun _ _ hq h => h.quiet hq) hs).mono
    (fun _ _ h => h.2) fun _ _ h => h

/-- A reconciliation of the active run keeps a live start. -/
theorem Started.kept (h : Started safe i r running s) (hinv : Invariant safe i { skip := some r } s')
    (hk : Kept i s s') : Started safe i r running s' := by
  obtain ⟨⟨p, hrunning, hchild, hup⟩, hlive⟩ := h
  have hids : Active i [r] s' := hk.ids.trans hup.ids
  have hprocess : ∀ run ∈ processes i s', run.1 = r → run.2 = p.identity := by
    rw [hk.processes]
    exact hup.process
  refine ⟨⟨p, hrunning, hchild, hinv, hids, ?_, hprocess⟩, hlive.of_row hk.row⟩
  -- the active run has a row, whose process is known
  have hmem : r ∈ s'.workspace.activeIds i := by
    rw [hids]
    exact mem_singleton_self r
  obtain ⟨run, hrun, hid⟩ := mem_map.1 hmem
  obtain ⟨hrows, hi, _⟩ := Workspace.mem_activeRuns.1 hrun
  have hrow := Workspace.mem_runsOf.2 ⟨hrows, hi⟩
  rw [← hprocess (run.runId, run.identity) (mem_map_of_mem hrow) hid]
  exact hinv.known run hrow

/-- A publication keeps a live start and does not fail. -/
theorem meets_publishStarted {current : Instance} {q : Option Id} {status : Option RunStatus}
    {reason : String} {X : Error → World → Prop} (hs : Started safe i r running s) :
    Meets safe i (fun _ => Started safe i r running) X (publishStateFields current q status reason) s := by
  refine ok_modify fun s₁ hR _ => ?_
  have h₁ := hs.quiet hR
  exact ⟨.of_calm h₁.inv (quiet_publishEvent s₁ _).toCalm rfl, h₁.quiet (quiet_publishEvent s₁ _)⟩

theorem meets_awaitAttached {spec : HelperSpec} (hs : Started safe i r running s) :
    Meets safe i (fun _ => Started safe i r running) (fun _ => Started safe i r running)
      (awaitAttached i spec p) s := by
  unfold awaitAttached
  split
  · refine (meets_started (quiet_other (frame_tryWait p)) hs).bind
      fun exit s₁ h₁ => ?_
    cases exit with
    | some _ => exact h₁
    | none =>
      refine (ok_ignore ((meets_liveRun h₁.inv).mono (fun _ _ h => h₁.kept h.1 h.2.1)
        fun _ _ h => h₁.kept h.1 h.2)).bind fun _ s₂ h₂ => ?_
      exact ok_outside h₂ fun _ => h₂
  · exact hs

theorem meets_spawnAfter {specs : List HelperSpec} (hs : Started safe i r running s) :
    Meets safe i (fun _ => Started safe i r running) (fun _ => Invariant safe i {})
      (spawnAfter i r o running specs helpers) s := by
  induction specs generalizing helpers s with
  | nil => exact hs
  | cons spec rest ih =>
    refine (meets_orRollback (meets_started (quiet_procs (by simp)
      (frame_spawnHelper i r spec)) hs)).bind fun p s₁ h₁ => ?_
    refine (Ok.attempt (E := fun _ => Started safe i r running) (meets_awaitAttached h₁)).bind
      fun attached s₂ h₂ => ?_
    cases attached with
    | ok _ => exact ih h₂
    | error e =>
      refine (ok_ignore (meets_started (quiet_other (frame_terminateGracefully p)) h₂)).bind fun _ s₃ h₃ => ?_
      refine ((meets_rollbackFailedStart h₃).mono (fun _ _ h => h) fun _ _ h => h.1).bind
        fun _ s₄ h₄ => ?_
      refine meets_tame_bind (stable_clear safe i) (frame_tame (frame_dropProcess p)) h₄
        (fun _ _ h => h.1) fun _ s₅ h₅ => ?_
      exact meets_tame_bind (stable_clear safe i) (frame_tame (frame_dropConnection (some running))) h₅
        (fun _ _ h => h.1) fun _ _ h => h.1

/-- The resume that follows the helpers leaves the instance live. -/
theorem meets_resume (hs : Started safe i r running s) :
    Meets safe i (fun _ => Started safe i r running) (fun _ => Started safe i r running)
      (resumeInstanceAsync i) s := by
  have hread : Frame (QuietStep i) anyValue (readInstance i) :=
    frame_queryE fun s => ⟨rfl, Calm.refl i s, rfl⟩
  refine (meets_started hread hs).bind fun current s₁ h₁ => ?_
  split
  · exact h₁
  · have houtside : Meets safe i (fun _ => Started safe i r running) (fun _ => Started safe i r running)
        outside s₁ := ok_outside h₁ fun _ => h₁
    refine houtside.bind fun _ s₂ h₂ => ?_
    obtain ⟨⟨p, hrunning, hchild, hup⟩, hlive⟩ := h₂
    refine (meets_transitionInstance (stable_up safe i r p.identity) hup).mono (fun row s₃ h₃ => ?_)
      fun _ s₃ h₃ => ?_
    · exact ⟨⟨p, hrunning, hchild, h₃.1⟩, row, h₃.2.2, .inl h₃.2.1⟩
    · exact ⟨⟨p, hrunning, hchild, h₃.1⟩, hlive.of_row h₃.2.1⟩

theorem quiet_publication (o : Id) (helpers : List ManagedProcess) :
    Frame (QuietStep i) anyValue (publication i r o helpers) := by
  refine (frame_forEach fun p _ => (quiet_other (frame_processStart p)).andThen fun _ => frame_pure).andThen fun _ => ?_
  refine (quiet_tables (by intro; rfl) (by intro; rfl)).andThen fun _ => ?_
  refine Frame.andThen (frame_queryE fun s => ⟨rfl, Calm.refl i s, rfl⟩) fun result => ?_
  exact (quiet_completeOperation o _).andThen fun _ => frame_pure

/-! ## Start -/

/-- The tail of a start is announced. -/
theorem calm_announceTail (s : World) :
    Calm i s { s with spawnTails := s.spawnTails ++ [.unread i] } := by
  refine ⟨rfl, Evolves.refl _, fun p hp hnew => absurd (World.mem_identities.2 ⟨p, hp, rfl⟩) hnew,
    .inl rfl, fun run hrun => .inl ⟨hrun.1, hrun.2.imp id fun htail => ?_⟩⟩
  rcases mem_append.1 htail with htail | htail
  · exact htail
  · rw [mem_singleton] at htail
    cases htail

theorem meets_startWithHelpers {input : StartInstance} {plan : LaunchSpec}
    (hs : Invariant safe i {} s) :
    Meets safe i (fun _ => Invariant safe i {}) (fun _ => Invariant safe i {})
      (startWithHelpers i input plan helpers) s := by
  have hP := stable_inv safe i {}
  refine (Ok.attempt (E := Either (Started safe i input.runId)
    fun _ => Invariant safe i {}) ((meets_startInstanceAsync (i := i) rfl hs).mono
      (fun _ _ h => by exact h) fun _ _ h => h)).bind fun started s₁ h₁ => ?_
  cases started with
  | error e =>
    exact meets_tame_bind hP (frame_tame (frame_stopAll helpers)) h₁ (fun _ _ h => h)
      fun _ _ h => h
  | ok running =>
    refine (meets_spawnAfter h₁).bind fun helpers s₂ h₂ => ?_
    refine Ok.bind (M := fun _ => Started safe i input.runId running) ?_ fun _ s₃ h₃ => ?_
    · split
      · refine (meets_orRollback (meets_resume h₂)).bind fun current s₃ h₃ => ?_
        exact meets_publishStarted h₃
      · exact h₂
    · refine (meets_orRollback (meets_started (quiet_publication _ helpers) h₃)).bind
        fun _ s₄ h₄ => ?_
      obtain ⟨⟨p, rfl, _, hup⟩, _⟩ := h₄
      refine ((meets_install _ _ _ _ hup.inv ?_ ?_).mono (fun _ _ h => h.1) fun _ _ h => h).bind
        fun _ s₅ h₅ => ?_
      · rintro _ live ⟨⟩
        exact hup.fits rfl rfl
      · rintro k ⟨⟩
        exact ⟨rfl, rfl⟩
      · refine meets_tame_bind hP (frame_preserve i) h₅ (fun _ _ h => h) fun _ s₆ h₆ => ?_
        refine ok_modify fun s₇ hR _ => ?_
        have h₇ := h₆.calm hR.toCalm
        exact ⟨.of_calm h₇ (calm_announceTail s₇) rfl, h₇.calm (calm_announceTail s₇)⟩

theorem meets_startInstanceWithLock {input : StartInstance} (hs : Invariant safe i {} s) :
    Meets safe i (fun _ => Invariant safe i {}) (fun _ => Invariant safe i {})
      (startInstanceWithLock i input) s := by
  have hP := stable_inv safe i {}
  refine meets_tame_bind hP (frame_launchPlan i) hs (fun _ _ h => h) fun plan s₁ h₁ => ?_
  refine meets_tame_bind hP frame_outside h₁ (fun _ _ h => h) fun _ s₂ h₂ => ?_
  refine meets_tame_bind hP (frame_spawnLegacyHelper i _ _) h₂ (fun _ _ h => h)
    fun helpers s₃ h₃ => ?_
  refine meets_tame_bind hP (frame_spawnBefore i _ _ helpers) h₃ (fun _ _ h => h)
    fun helpers s₄ h₄ => ?_
  exact meets_startWithHelpers h₄

/-! ## Stop, pause, resume and reset -/

/-- The connection of an action fits. -/
theorem meets_liveConnection (hs : Invariant safe i {} s) :
    Meets safe i (fun connected s' => Invariant safe i {} s' ∧
        ∀ live, connected = some live → Fits i live.runId live s')
      (fun _ => Invariant safe i {}) (liveConnection i) s := by
  refine meets_query_bind hs fun s₁ hR h₁ => ?_
  cases hconnected : (s₁.supervisors i).bind RunSupervisor.running with
  | some running =>
    refine ⟨h₁, ?_⟩
    rintro live ⟨⟩
    exact h₁.fits_of_connection rfl hconnected
  | none =>
    refine (meets_recover i h₁).bind fun recovered s₂ h₂ => ?_
    cases recovered with
    | none => exact ⟨h₂.1, nofun⟩
    | some running =>
      have hP := (stable_inv safe i {}).and (Q := Fits i running.runId running)
        fun _ _ _ hc h => h.calm hc
      refine meets_tame_bind hP (frame_recoverRunHelpers running.runId)
        ⟨h₂.1, h₂.2 rfl running rfl⟩ (fun _ _ h => h.1) fun helpers s₃ h₃ => ?_
      have hinstall := meets_install i running.runId (some running) helpers h₃.1
        (by rintro _ live ⟨⟩; exact h₃.2) nofun
      refine hinstall.bind fun _ s₄ h₄ => ⟨h₄.1, ?_⟩
      rintro live ⟨⟩
      exact h₄.2 _ _ h₃.2

theorem meets_lifecycleAction {action : LifecycleAction} (hs : Invariant safe i {} s) :
    Meets safe i (fun _ => Invariant safe i {}) (fun _ => Invariant safe i {}) (lifecycleAction i action) s := by
  have hP := stable_inv safe i {}
  refine (meets_liveConnection hs).bind fun connected s₁ h₁ => ?_
  cases connected with
  | none =>
    refine meets_tame_bind hP (frame_readInstance i) h₁.1 (fun _ _ h => h) fun current s₂ h₂ => ?_
    split
    · exact h₂
    · exact h₂
  | some running =>
    have hperform : Meets safe i (fun _ => Invariant safe i {}) (fun _ => Invariant safe i {})
        (perform i running action) s₁ := by
      cases action with
      | stop =>
        exact (meets_stopInstanceAsync h₁.1 (h₁.2 running rfl)).mono (fun _ _ h => h.1)
          fun _ _ h => h.1
      | pause =>
        exact (meets_tame hP (frame_pauseInstanceAsync i) h₁.1).mono (fun _ _ h => h.2)
          fun _ _ h => h
      | resume =>
        exact (meets_tame hP (frame_resumeInstanceAsync i) h₁.1).mono (fun _ _ h => h.2)
          fun _ _ h => h
      | reset =>
        refine meets_tame_bind hP (frame_resetInstanceAsync i) h₁.1 (fun _ _ h => h)
          fun _ s₂ h₂ => ?_
        exact (meets_tame hP (frame_readInstance i) h₂).mono (fun _ _ h => h.2) fun _ _ h => h
    refine (Ok.attempt (E := fun _ => Invariant safe i {}) hperform).bind fun result s₂ h₂ => ?_
    cases result with
    | error e =>
      refine Ok.bind (M := fun _ => Invariant safe i {}) ?_ fun _ s₃ h₃ => h₃
      split
      · exact (meets_calm hP (calm_disconnect i _) h₂).mono (fun _ _ h => h.2) fun _ _ h => h
      · exact h₂
    | ok current =>
      refine Ok.bind (M := fun _ => Invariant safe i {}) ?_ fun _ s₃ h₃ => ?_
      · split
        · exact (meets_calm hP (calm_teardown i _) h₂).mono (fun _ _ h => h.2) fun _ _ h => h
        · exact h₂
      · refine meets_tame_bind hP (frame_query TameStep.quiet) h₃ (fun _ _ h => h)
          fun run s₄ h₄ => ?_
        refine meets_tame_bind hP (frame_publishState current run _) h₄ (fun _ _ h => h)
          fun _ s₅ h₅ => ?_
        split
        · exact meets_removeIfDisposable h₅
        · exact h₅

theorem meets_restartInstance {input : StartInstance} (hs : Invariant safe i {} s) :
    Meets safe i (fun _ => Invariant safe i {}) (fun _ => Invariant safe i {}) (restartInstance i input) s := by
  have hP := stable_inv safe i {}
  refine meets_tame_bind hP (frame_readInstance i) hs (fun _ _ h => h) fun current s₁ h₁ => ?_
  refine meets_tame_bind hP (frame_queryE TameStep.quiet) h₁ (fun _ _ h => h) fun _ s₂ h₂ => ?_
  refine Ok.bind (M := fun _ => Invariant safe i {}) ?_ fun _ s₃ h₃ => meets_startInstanceWithLock h₃
  split
  · exact meets_lifecycleAction h₂
  · split
    · exact h₂
    · exact h₂

/-! ## The tasks of a run -/

/-- A polled connection of the run whose process has exited. -/
theorem meets_pollExit (hP : Stable safe i P) (hs : P s) :
    Meets safe i (fun exit s' => P s' ∧ (exit ≠ none →
        ∃ x, running.identity = some x ∧ s'.alive x = false))
      (fun _ => P) (pollExit running) s := by
  obtain ⟨process, runId, recovered⟩ := running
  cases process with
  | some p =>
    refine (meets_tryWait hP hs).mono (fun exit s₁ h₁ => ⟨h₁.1, fun hexit => ?_⟩) fun _ _ h => h
    exact ⟨p.identity, rfl, h₁.2 hexit⟩
  | none =>
    refine ok_step.2 fun s₁ hR _ => ?_
    have h₁ := hP.calm s s₁ hR.toCalm hs
    obtain ⟨c, hc⟩ := hP.inv s₁ h₁
    refine ⟨.of_procs hc rfl rfl, h₁, fun hexit => ?_⟩
    cases recovered with
    | none => exact absurd rfl hexit
    | some identity =>
      refine ⟨identity, rfl, ?_⟩
      by_contra halive
      simp [show s₁.alive identity = true by simpa using halive] at hexit

/-- The watcher observes an exit only when the run's process has ended. -/
theorem meets_observeExit (hi : run.instanceId = i) (hs : Invariant safe i c s)
    (hskip : c.skip = none) (hr : Unfinished i run.runId s) :
    Meets safe i (fun observed s' => Invariant safe i c s' ∧ Unfinished i run.runId s' ∧
        ∀ exit, observed = (false, some exit) → DeadRun i run.runId s')
      (fun _ => Invariant safe i c) (observeExit run) s := by
  refine meets_query_bind hs fun s₁ hR h₁ => ?_
  have hunf := unfinished_calm hr hR.toCalm
  rw [hi]
  cases hconnected : (s₁.supervisors i).bind RunSupervisor.running with
  | some running =>
    simp only
    split
    · exact ⟨h₁, hunf, nofun⟩
    · next hsame =>
      have hfits := h₁.fits_of_connection hskip hconnected
      have hP := ((stable_inv safe i c).and (Q := Fits i running.runId running)
        fun _ _ _ hc h => h.calm hc).and (Q := Unfinished i run.runId)
          fun _ _ _ hc h => unfinished_calm h hc
      refine ((meets_pollExit hP ⟨⟨h₁, hfits⟩, hunf⟩).mono (fun _ _ h => h)
        fun _ _ h => h.1.1).bind fun exit s₂ h₂ => ?_
      refine ⟨h₂.1.1.1, h₂.1.2, ?_⟩
      rintro exit' ⟨⟩
      obtain ⟨x, hx, hdead⟩ := h₂.2 (by simp)
      rw [← not_not.1 hsame]
      exact h₂.1.1.2.deadRun h₂.1.1.1 hx hdead
  | none =>
    refine ((meets_reconcileRun h₁ hunf).mono (fun _ _ h => h) fun _ _ h => h.1).bind
      fun reconciled s₂ h₂ => ?_
    refine ⟨h₂.1, h₂.2.1, fun exit hexit => h₂.2.2.1.deadRun fun hrunning => ?_⟩
    simp [hrunning] at hexit

/-- The lifecycle after an observed exit. -/
theorem frame_settleLifecycle (run final : Run) (exit : ProcessExit) (current : Instance) :
    Frame TameStep anyValue (settleLifecycle run final exit current) := by
  unfold settleLifecycle
  split
  · exact (frame_transitionInstance _ _).andThen fun stopping =>
      (frame_publishState stopping _ _).andThen fun _ => frame_transitionInstance _ _
  · split
    · exact frame_transitionInstance _ _
    · exact frame_pure

theorem meets_concludeExit {exit : ProcessExit} (hi : run.instanceId = i)
    (hs : Invariant safe i c s) (hdead : DeadRun i run.runId s) :
    Meets safe i (fun _ => Invariant safe i c) (fun _ => Invariant safe i c) (concludeExit run exit) s := by
  subst hi
  have hP := stable_inv safe run.instanceId c
  have hstatus : (if exit.success = true then RunStatus.exited else .failed) = .exited ∨
      (if exit.success = true then RunStatus.exited else .failed) = .failed := by
    split
    · exact .inl rfl
    · exact .inr rfl
  refine ((meets_finishRun hstatus hs hdead).mono (fun _ _ h => h.2.1) fun _ _ h => h.1).bind
    fun final s₁ h₁ => ?_
  refine meets_tame_bind hP (frame_readInstance _) h₁ (fun _ _ h => h) fun current s₂ h₂ => ?_
  refine meets_tame_bind hP (frame_settleLifecycle run final exit current) h₂ (fun _ _ h => h)
    fun settled s₃ h₃ => ?_
  exact meets_tame_bind hP (frame_publishState settled _ _) h₃ (fun _ _ h => h)
    fun _ s₄ h₄ => meets_removeIfDisposable h₄

theorem meets_concludeHelperFailure (hs : Invariant safe i c s) (hr : Unfinished i run.runId s) :
    Meets safe i (fun _ => Invariant safe i c) (fun _ => Invariant safe i c) (concludeHelperFailure run) s := by
  have hP := stable_inv safe i c
  refine (meets_finishUncertain hs hr).bind fun final s₁ h₁ => ?_
  refine meets_tame_bind hP (frame_readInstance _) h₁ (fun _ _ h => h) fun current s₂ h₂ => ?_
  split
  · refine meets_tame_bind hP (frame_transitionInstance _ _) h₂ (fun _ _ h => h)
      fun failed s₃ h₃ => ?_
    exact (meets_tame hP (frame_publishState failed _ _) h₃).mono (fun _ _ h => h.2) fun _ _ h => h
  · exact h₂

theorem meets_watchRun (hi : run.instanceId = i) (hs : Invariant safe i c s)
    (hskip : c.skip = none) :
    Meets safe i (fun _ => Invariant safe i c) (fun _ => Invariant safe i c) (watchRun run) s := by
  refine meets_queryE_bind hs (fun _ _ _ h _ => h) fun recorded s₁ _ h₁ hrow => ?_
  split
  · exact h₁
  · next hactive =>
    have hunf : Unfinished i run.runId s₁ := by
      intro row hmem hid
      have hsame := Workspace.runRow_eq_some_iff.2 ⟨(Workspace.mem_runsOf.1 hmem).1, hid⟩
      rw [Workspace.run_eq_ok.1 hrow] at hsame
      cases hsame
      simpa using hactive
    refine (meets_observeExit hi h₁ hskip hunf).bind fun observed s₂ h₂ => ?_
    obtain ⟨ended, exit⟩ := observed
    cases ended with
    | true => exact h₂.1
    | false =>
      cases exit with
      | none => exact h₂.1
      | some exit =>
        have hP := ((stable_inv safe i c).and (Q := DeadRun i run.runId)
          fun _ _ hinv hc h => h.calm hinv hc).and (Q := Unfinished i run.runId)
            fun _ _ _ hc h => unfinished_calm h hc
        refine (Ok.attempt (E := fun _ s' => (Invariant safe i c s' ∧ DeadRun i run.runId s') ∧
          Unfinished i run.runId s') ((meets_calm hP (calm_teardown _ _)
            ⟨⟨h₂.1, h₂.2.2 exit rfl⟩, h₂.2.1⟩).mono (fun _ _ h => h.2) fun _ _ h => h)).bind
              fun cleaned s₃ h₃ => ?_
        cases cleaned with
        | ok _ => exact (meets_concludeExit hi h₃.1.1 h₃.1.2).bind fun _ _ h => h
        | error _ => exact (meets_concludeHelperFailure h₃.1.1 h₃.2).bind fun _ _ h => h

/-- A task that returns still follows its run. -/
theorem calm_returnTask (run : Run) (f : Watch → Watch) (hf : ∀ watch, (f watch).run = watch.run)
    (s : World) : Calm i s (returnTask run f s) := by
  refine ⟨rfl, Evolves.refl _, fun p hp hnew => absurd (World.mem_identities.2 ⟨p, hp, rfl⟩) hnew,
    .inl rfl, fun row hrow => .inl ⟨hrow.1, hrow.2.imp (fun hwatch => ?_) id⟩⟩
  obtain ⟨watch, hwatch, hrun⟩ := hwatch
  obtain ⟨old, hold, rfl⟩ := mem_map.1 hwatch
  refine ⟨old, hold, ?_⟩
  rw [← hrun]
  split
  · exact (hf old).symm
  · rfl

theorem meets_watcherTick (hi : run.instanceId = i) (hs : Invariant safe i {} s) :
    Meets safe i (fun _ => Invariant safe i {}) (fun _ => Invariant safe i {}) (watcherTick run) s := by
  refine (Ok.attempt (E := fun _ => Invariant safe i {}) (meets_watchRun hi hs rfl)).bind
    fun result s₁ h₁ => ?_
  have hreturn : Meets safe i (fun _ => Invariant safe i {}) (fun _ => Invariant safe i {})
      (returnWatcher run) s₁ :=
    (meets_calm (stable_inv safe i {}) (frame_modify fun s => ⟨rfl, calm_returnTask run _ (by intro; rfl) s⟩)
      h₁).mono (fun _ _ h => h.2) fun _ _ h => h
  cases result with
  | error e => exact hreturn
  | ok ended =>
    cases ended with
    | true => exact hreturn
    | false => exact h₁

theorem unfinished_of_isActiveRun (hi : run.instanceId = i)
    (h : isActiveRun s run = true) : Unfinished i run.runId s := by
  unfold isActiveRun at h
  rw [hi] at h
  cases hactive : s.workspace.activeRun i with
  | none => simp [hactive] at h
  | some active =>
    have hid : active.runId = run.runId := by simpa [hactive] using h
    exact hid ▸ unfinished_of_mem (Workspace.activeRun_mem_activeIds hactive)

theorem meets_runIsAlive (hs : Invariant safe i c s) (hr : Unfinished i run.runId s) :
    Meets safe i (fun _ => Invariant safe i c) (fun _ => Invariant safe i c) (runIsAlive run) s := by
  refine meets_query_bind hs fun s₁ hR h₁ => ?_
  cases (s₁.supervisors run.instanceId).bind RunSupervisor.running with
  | some owned =>
    exact meets_tame_bind (stable_inv safe i c) (frame_tame (frame_pollExit owned)) h₁ (fun _ _ h => h)
      fun _ _ h => h
  | none =>
    exact ((meets_reconcileRun h₁ (unfinished_calm hr hR.toCalm)).mono (fun _ _ h => h.1)
      fun _ _ h => h.1).bind fun _ _ h => h

theorem meets_applyStatusLocked {status : String} (hi : run.instanceId = i)
    (hs : Invariant safe i c s) :
    Meets safe i (fun _ => Invariant safe i c) (fun _ => Invariant safe i c) (applyStatusLocked run status) s := by
  have hP := stable_inv safe i c
  unfold applyStatusLocked
  cases InstanceState.fromQmp status with
  | error _ => exact hs
  | ok target =>
    refine meets_query_bind hs fun s₁ _ h₁ => ?_
    split
    · exact h₁
    · next hactive =>
      refine (meets_runIsAlive h₁ (unfinished_of_isActiveRun hi (by simpa using hactive))).bind
        fun alive s₂ h₂ => ?_
      split
      · exact h₂
      · refine meets_tame_bind hP (frame_readInstance _) h₂ (fun _ _ h => h)
          fun current s₃ h₃ => ?_
        refine meets_tame_bind hP (frame_observeRunStatus run _) h₃ (fun _ _ h => h)
          fun changed s₄ h₄ => ?_
        split
        · exact (meets_tame hP (frame_publishState changed _ _) h₄).mono (fun _ _ h => h.2)
            fun _ _ h => h
        · exact h₄

theorem meets_applyQmpLocked {event : QmpEvent} (hi : run.instanceId = i)
    (hs : Invariant safe i c s) :
    Meets safe i (fun _ => Invariant safe i c) (fun _ => Invariant safe i c) (applyQmpLocked run event) s := by
  have hP := stable_inv safe i c
  refine meets_query_bind hs fun s₁ _ h₁ => ?_
  split
  · exact h₁
  · next hactive =>
    refine (meets_runIsAlive h₁ (unfinished_of_isActiveRun hi (by simpa using hactive))).bind
      fun alive s₂ h₂ => ?_
    split
    · exact h₂
    · refine meets_tame_bind hP (frame_readInstance _) h₂ (fun _ _ h => h) fun current s₃ h₃ => ?_
      split
      · refine meets_tame_bind hP (frame_transitionInstance _ _) h₃ (fun _ _ h => h)
          fun changed s₄ h₄ => ?_
        exact (meets_tame hP (frame_publishState changed _ _) h₄).mono (fun _ _ h => h.2)
          fun _ _ h => h
      · exact h₃

theorem meets_readerPoll {events : List QmpEvent} (hi : run.instanceId = i)
    (hs : Invariant safe i c s) (hskip : c.skip = none) (hrun : Traced i run s) :
    Meets safe i (fun _ => Invariant safe i c) (fun _ => Invariant safe i c) (readerPoll run events) s := by
  have hP := stable_inv safe i c
  refine (meets_qmp hs hskip hrun).bind fun _ s₁ h₁ => Ok.ask fun reply => ?_
  split
  · refine meets_tame_bind hP (frame_ofExcept (V := anyValue) fun _ _ => trivial) h₁
      (fun _ _ h => h) fun status s₂ h₂ => ?_
    exact (ok_forEach h₂ fun event _ s h => meets_applyQmpLocked hi h).bind
      fun _ s₃ h₃ => meets_applyStatusLocked hi h₃
  · refine ((meets_calm hP (calm_disconnect _ _) h₁).mono (fun _ _ h => h.2) fun _ _ h => h).bind
      fun _ _ h => h

/-- A task runs for a traced run of the instance. -/
theorem meets_whileTask {task : Watch → Bool} {body : Act Unit} (hs : Invariant safe i {} s)
    (hbody : run.instanceId = i → ∀ s, Invariant safe i {} s → Traced i run s →
      Meets safe i (fun _ => Invariant safe i {}) (fun _ => Invariant safe i {}) body s) :
    Meets safe i (fun _ => Invariant safe i {}) (fun _ => Invariant safe i {}) (whileTask i run task body) s := by
  refine meets_query_bind hs fun s₁ _ h₁ => ?_
  split
  · next hgoing =>
    obtain ⟨watch, hwatch, hgoing⟩ := any_eq_true.1 hgoing
    simp only [Bool.and_eq_true, decide_eq_true_eq] at hgoing
    have hi := hgoing.1.2
    exact hbody hi s₁ h₁ (h₁.traced run (.inl ⟨hi, .inl ⟨watch, hwatch, hgoing.1.1⟩⟩))
  · exact h₁

theorem meets_reconnectRequest (hs : Invariant safe i {} s) :
    Meets safe i (fun _ => Invariant safe i {}) (fun _ => Invariant safe i {}) (reconnectRequest i) s := by
  refine ((meets_liveRun hs).mono (fun _ _ h => h) fun _ _ h => h.1).bind fun run s₁ h₁ => ?_
  cases run with
  | none => exact h₁.1
  | some run =>
    refine (meets_qmp h₁.1 rfl (h₁.2.2 run rfl).2).bind fun _ s₂ h₂ => ?_
    exact ok_outside h₂ fun _ => h₂

/-! ## The whole workspace -/

/-- The reconciled runs are traced from then on. -/
theorem meets_reconcileEach {rs : List Id} (hs : Invariant safe i c s)
    (hr : ∀ r ∈ rs, Unfinished i r s) :
    Meets safe i (fun runs => Invariant safe i { c with runs := runs ++ c.runs }) (fun _ => Invariant safe i c)
      (reconcileEach rs) s := by
  induction rs generalizing s c with
  | nil => exact hs
  | cons r rest ih =>
    refine ((meets_reconcileRun hs (hr r mem_cons_self)).mono (fun _ _ h => h)
      fun _ _ h => h.1).bind fun run s₁ h₁ => ?_
    obtain ⟨hs₁, _, hrun, hk⟩ := h₁
    have hfollow := hs₁.follow fun hi => hs₁.traced_of_active (hrun.mem hi)
    have hrest : ∀ q ∈ rest, Unfinished i q s₁ :=
      fun q hq => hk.unfinished q (hr q (mem_cons_of_mem r hq))
    refine ((ih hfollow hrest).mono (fun _ _ h => h) fun _ _ h => ?_).bind fun runs s₂ h₂ => ?_
    · exact h.followLess fun _ hmem => mem_cons_of_mem run hmem
    · refine h₂.followLess fun row hmem => ?_
      simp only [cons_append, mem_cons, mem_append] at hmem ⊢
      tauto

theorem meets_reconcileActiveRuns (hs : Invariant safe i {} s) :
    Meets safe i (fun runs => Invariant safe i { runs }) (fun _ => Invariant safe i {}) reconcileActiveRuns s := by
  refine meets_query_bind hs fun s₁ _ h₁ => ?_
  have hunf : ∀ r ∈ (s₁.workspace.runs.rows.filter fun run => run.status.active).map Run.runId,
      Unfinished i r s₁ := by
    intro r hr row hrow hid
    obtain ⟨run, hrun, rfl⟩ := mem_map.1 hr
    obtain ⟨hmem, hactive⟩ := mem_filter.1 hrun
    rwa [Table.key_injective (Workspace.mem_runsOf.1 hrow).1 hmem hid]
  refine (meets_reconcileEach h₁ hunf).bind fun runs s₂ h₂ => ?_
  have hP := stable_inv safe i { runs := runs ++ [] }
  refine ((ok_forEach (P := Invariant safe i { runs := runs ++ [] }) (X := fun _ => Invariant safe i {}) h₂
    fun run _ s h => ?_).bind fun _ s₃ h₃ => ?_)
  · split
    · exact (meets_tame hP (frame_markError _) h).mono (fun _ _ h => h.2)
        fun _ _ h => h.followLess nofun
    · exact h
  · rw [append_nil] at h₃
    exact h₃

theorem meets_resumeSupervision (hs : Invariant safe i c s) (hskip : c.skip = none)
    (hrun : run ∈ c.runs) :
    Meets safe i (fun _ => Invariant safe i c) (fun _ => Invariant safe i c) (resumeSupervision run) s := by
  have hsame : { c with skip := none } = c := by rw [← hskip]
  refine meets_tame_bind (stable_inv safe i c) (frame_recoverRunHelpers _) hs (fun _ _ h => h)
    fun helpers s₁ h₁ => ?_
  have hinstall := meets_install run.instanceId run.runId none helpers h₁ nofun fun k hk => by
    rw [hskip] at hk
    cases hk
  rw [hsame] at hinstall
  refine hinstall.bind fun _ s₂ h₂ => ok_modify fun s₃ hR _ => ?_
  have h₃ := h₂.1.calm hR.toCalm
  have h₄ := h₃.spawnRunEvents fun hi => h₃.traced run (.inr ⟨hrun, hi⟩)
  exact ⟨.of_procs h₄ (procs_spawnRunEvents s₃ run) rfl, h₄⟩

theorem meets_openWorkspace (hs : Invariant safe i {} s) :
    Meets safe i (fun _ => Invariant safe i {}) (fun _ => Invariant safe i {}) openWorkspace s := by
  refine meets_query_bind hs fun s₁ _ h₁ => ?_
  have hdelete : ∀ (j : Id) s, Invariant safe i {} s →
      Meets safe i (fun _ => Invariant safe i {}) (fun _ => Invariant safe i {})
        ((finishInstanceDeletion j).bind fun _ => ret ()) s := fun j s h =>
    meets_tame_bind (stable_inv safe i {}) (frame_finishInstanceDeletion j) h (fun _ _ h => h)
      fun _ _ h => h
  refine (ok_forEach h₁ fun j _ s h => hdelete j s h).bind fun _ s₂ h₂ => ?_
  refine (meets_reconcileActiveRuns h₂).bind fun runs s₃ h₃ => ?_
  have hrest : Meets safe i (fun _ => Invariant safe i { runs }) (fun _ => Invariant safe i { runs })
      ((forEach (runs.filter fun run => run.status = .running) fun run =>
          ignore (recoverInstanceRunAsync run.instanceId)).bind fun _ =>
        reconcileOperations.bind fun _ =>
        forEach (runs.filter fun run => run.status = .running) resumeSupervision) s₃ := by
    refine (ok_forEach h₃ fun run _ s h => ok_ignore ((meets_recover run.instanceId h).mono
      (fun _ _ h => h.1) fun _ _ h => h)).bind fun _ s₄ h₄ => ?_
    refine meets_tame_bind (stable_inv safe i { runs }) frame_reconcileOperations h₄ (fun _ _ h => h)
      fun _ s₅ h₅ => ?_
    exact ok_forEach h₅ fun run hrun s h =>
      meets_resumeSupervision h rfl (mem_of_mem_filter hrun)
  exact hrest.mono (fun _ _ h => h.followLess nofun) fun _ _ h => h.followLess nofun

theorem meets_publishPreparedInstance {image profile : Id} {document : StoredDocument}
    (hs : Invariant safe i c s) :
    Meets safe i (fun _ => Invariant safe i c) (fun _ => Invariant safe i c)
      (publishPreparedInstance i image profile document) s := by
  have hP := stable_inv safe i c
  refine meets_tame_bind hP (frame_finishInstanceDeletion i) hs (fun _ _ h => h) fun _ s₁ h₁ => ?_
  refine meets_tame_bind hP frame_outside h₁ (fun _ _ h => h) fun _ s₂ h₂ => ?_
  refine meets_tame_bind hP (frame_queryE TameStep.quiet) h₂ (fun _ _ h => h) fun _ s₃ h₃ => ?_
  refine Ok.bind (M := fun _ => Invariant safe i c) (ok_modify fun s₄ hR _ => ?_) fun _ s₅ h₅ => ?_
  · have h₄ := h₃.calm hR.toCalm
    have hcalm : Calm i s₄
        { s₄ with documents := Function.update s₄.documents i (some document) } :=
      ⟨rfl, Evolves.refl _, fun p hp hnew => absurd (World.mem_identities.2 ⟨p, hp, rfl⟩) hnew,
        .inl rfl, fun _ h => .inl h⟩
    exact ⟨.of_calm h₄ hcalm rfl, h₄.calm hcalm⟩
  · refine ok_statement fun s₆ hR _ => ?_
    have h₆ := h₅.calm hR.toCalm
    rcases s₆.workspace.insertInstance_cases i image profile with
      ⟨instances, tombstones, _, _, hstep⟩ | ⟨e, hstep⟩
    · rw [hstep]
      have hcalm : Calm i s₆ (s₆.withWorkspace { s₆.workspace with
          instances, instanceTombstones := tombstones }) := .of_workspace rfl
      exact ⟨.of_calm h₆ hcalm rfl, fun _ _ => h₆.calm hcalm, fun _ _ => h₆.calm hcalm⟩
    · rw [hstep]
      exact ⟨.of_procs h₆ rfl rfl, fun _ _ => h₆, fun _ _ => h₆⟩

/-- Every request keeps the invariant. -/
theorem meets_program (request : Request) (hs : Invariant safe i {} s) :
    Meets safe i (fun _ => Invariant safe i {}) (fun _ => Invariant safe i {}) (program i request) s := by
  have hP := stable_inv safe i {}
  cases request with
  | create image profile document => exact (meets_publishPreparedInstance hs).bind fun _ _ h => h
  | clone snapshot profile =>
    refine Ok.bind (M := fun _ => Invariant safe i {}) ?_ fun _ _ h => h
    refine meets_tame_bind hP (frame_snapshotRow snapshot) hs (fun _ _ h => h) fun row s₁ h₁ => ?_
    refine meets_tame_bind hP (frame_readInstance _) h₁ (fun _ _ h => h) fun source s₂ h₂ => ?_
    exact meets_tame_bind hP (frame_restoreSnapshot snapshot) h₂ (fun _ _ h => h)
      fun _ s₃ h₃ => meets_publishPreparedInstance h₃
  | snapshot snapshot =>
    exact (meets_tame hP (frame_createSnapshot snapshot i) hs).mono (fun _ _ h => h.2)
      fun _ _ h => h
  | restore snapshot =>
    exact meets_tame_bind hP (frame_restoreSnapshot snapshot) hs (fun _ _ h => h) fun _ _ h => h
  | start input => exact meets_startInstanceWithLock hs
  | restart input => exact meets_restartInstance hs
  | action action => exact meets_lifecycleAction hs
  | recover => exact (meets_liveConnection hs).bind fun _ _ h => h.1
  | remove => exact meets_removeInstance hs
  | disposeFailedStart => exact meets_disposeFailedStart hs
  | reconcile =>
    refine (meets_reconcileActiveRuns hs).bind fun runs s₁ h₁ => ?_
    exact (meets_tame (stable_inv safe i { runs }) frame_reconcileOperations h₁).mono
      (fun _ _ h => h.2.followLess nofun) fun _ _ h => h.followLess nofun
  | reconnect => exact meets_reconnectRequest hs
  | watcherTick run => exact meets_whileTask hs fun hi _ h _ => meets_watcherTick hi h
  | readerPoll run events =>
    exact meets_whileTask hs fun hi _ h hrun => meets_readerPoll hi h rfl hrun
  | openWorkspace => exact meets_openWorkspace hs

/-! ## The service -/

theorem quiet_of_background {l : Label} (h : Background i l s s') : Quiet i s s' := by
  cases h with
  | exited _ identity exit => exact ⟨calm_exitProcess s identity exit, rfl⟩
  | elsewhere _ _ h =>
    obtain ⟨⟨hrow, hruns, _⟩, _, hentry, hwatches, htails, _, hevolves, hqemu⟩ := h
    refine ⟨⟨hruns, hevolves, fun p hp hnew hq => hnew (hqemu p hp hq), .inl ?_, ?_⟩, hrow⟩
    · unfold World.link
      rw [hentry]
    · rintro run ⟨hi, hrun⟩
      refine .inl ⟨hi, hrun.imp (fun hwatch => ?_) fun htail => htails ▸ htail⟩
      obtain ⟨watch, hwatch, rfl⟩ := hwatch
      have hmem : watch ∈ s.watches.filter fun watch => watch.run.instanceId = i := by
        rw [← hwatches]
        exact mem_filter.2 ⟨hwatch, by simpa using hi⟩
      exact ⟨watch, mem_of_mem_filter hmem, rfl⟩
  | tailRead _ before after htails =>
    refine ⟨⟨rfl, Evolves.refl _,
      fun p hp hnew => absurd (World.mem_identities.2 ⟨p, hp, rfl⟩) hnew, .inl rfl, ?_⟩, rfl⟩
    rintro run ⟨hi, hwatch | htail⟩
    · exact .inl ⟨hi, .inl hwatch⟩
    · simp only [mem_append] at htail
      rcases htail with (htail | htail) | htail
      · exact .inl ⟨hi, .inr (by rw [htails]; simp [htail])⟩
      · cases hactive : s.workspace.activeRun i with
        | none => simp [hactive] at htail
        | some active =>
          simp only [hactive, mem_singleton, SpawnTail.read.injEq] at htail
          rw [htail]
          exact .inr (Workspace.activeRun_mem hactive)
      · exact .inl ⟨hi, .inr (by rw [htails]; simp [htail])⟩
  | tailSpawn _ run before after hrun htails =>
    -- the run that the tail has read is followed by its tasks
    refine ⟨⟨?_, ?_, ?_, .inl ?_, ?_⟩, ?_⟩
    · rw [workspace_spawnRunEvents]
    · rw [procs_spawnRunEvents]
      exact Evolves.refl _
    · rw [procs_spawnRunEvents]
      exact fun p hp hnew => absurd (World.mem_identities.2 ⟨p, hp, rfl⟩) hnew
    · rw [link_spawnRunEvents]
      rfl
    · intro row hrow
      rcases follows_spawnRunEvents hrow with ⟨hi, hwatch | htail⟩ | rfl
      · exact .inl ⟨hi, .inl hwatch⟩
      · refine .inl ⟨hi, .inr ?_⟩
        rw [htails]
        simp only [mem_append, mem_cons] at htail ⊢
        tauto
      · exact .inl ⟨hrun, .inr (by rw [htails]; simp)⟩
    · rw [workspace_spawnRunEvents]
  | readerReturns _ run h => exact ⟨calm_returnTask run _ (by intro; rfl) s, rfl⟩
  | watchEnds _ watch h hdone =>
    refine ⟨⟨rfl, Evolves.refl _,
      fun p hp hnew => absurd (World.mem_identities.2 ⟨p, hp, rfl⟩) hnew, .inl ?_, ?_⟩, rfl⟩
    · show ({ s with supervisors := Function.update s.supervisors watch.run.instanceId _ } :
        World).link i = s.link i
      rw [World.link_update]
      by_cases hi : i = watch.run.instanceId
      · rw [if_pos hi, hi]
        unfold World.link
        cases s.supervisors watch.run.instanceId with
        | none => rfl
        | some owner =>
          simp only [Option.map_some, Option.bind_some]
          split <;> rfl
      · rw [if_neg hi]
    · rintro run ⟨hi, hwatch | htail⟩
      · obtain ⟨watch', hwatch', hrun⟩ := hwatch
        exact .inl ⟨hi, .inl ⟨watch', mem_of_mem_erase hwatch', hrun⟩⟩
      · exact .inl ⟨hi, .inr htail⟩

/-- No crash falls between the spawn of a QEMU of the instance and the row that records it. -/
def CrashesRecorded (i : Id) (s : World) : Event Label Request → Prop
  | .crash => ∀ p ∈ s.procs, p.isQemu i → p.exit = none →
      ∃ run ∈ s.workspace.runsOf i, run.identity = p.identity
  | _ => True

theorem Quiet.refl (i : Id) (s : World) : Quiet i s s := ⟨Calm.refl i s, rfl⟩

theorem Quiet.trans (i : Id) (s s' s'' : World) (h : Quiet i s s') (h' : Quiet i s' s'') :
    Quiet i s s'' :=
  ⟨h.toCalm.trans h'.toCalm, h'.row.trans h.row⟩

/-- The service keeps the processes of each instance in agreement with its runs, for every policy
that is safe as far as it is claimed to be. -/
def discipline (safe : Prop) (i : Id) {ok : World → Event Label Request → Prop}
    (hsafe : ∀ s, ok s .crash → safe → CrashesRecorded i s .crash) :
    Discipline (daemon i) (fun s => s = World.empty) ok (Quiet i) (Guarantee safe i) where
  always s := ∃ c, Invariant safe i c s
  idle := Invariant safe i {}
  post _ := Invariant safe i {}
  refl := Quiet.refl i
  trans := Quiet.trans i
  env _ _ _ _ h := quiet_of_background h
  init_idle := by
    rintro s rfl
    exact Invariant.empty safe i
  always_of_idle _ h := ⟨_, h⟩
  always_stable _ _ h := fun ⟨c, hc⟩ => ⟨c, hc.calm h.toCalm⟩
  idle_stable _ _ h hs := hs.calm h.toCalm
  idle_of_post _ _ h := h
  post_stable _ _ _ h hs := hs.calm h.toCalm
  always_of_act _ _ _ h := h.inv
  request request s _ h := (meets_program request h).weaken (fun _ _ _ => trivial) fun _ _ _ _ h => h
  crash s hok h := by
    obtain ⟨c, hc⟩ := h
    have hcrash := hc.crash (hsafe s hok)
    exact ⟨⟨_, hcrash⟩, (meets_program .openWorkspace hcrash).weaken (fun _ _ _ => trivial)
      fun _ _ _ _ h => h⟩

/-- In every run under the policy: no QEMU of the instance is started while another one is alive,
so that at most one is, and the process of a finished run has ended. -/
def OneLiveQemu (i : Id) (ok : World → Event Label Request → Prop) : Prop :=
  ∀ c : Config World Reply Label Error Request, Runs i ok c →
    (∀ run ∈ c.state.workspace.runsOf i, run.status = .exited ∨ run.status = .failed →
      c.state.alive run.identity = false) ∧
    (∀ p ∈ c.state.procs, ∀ q ∈ c.state.procs, p.isQemu i → q.isQemu i → p.exit = none →
      q.exit = none → p = q) ∧
    ∀ (e : Event Label Request) (c' : Config World Reply Label Error Request),
      ok c.state e → Step (daemon i) c e c' →
        ∀ p ∈ c'.state.procs, p.identity ∉ c.state.identities → p.isQemu i → NoQemu i c.state

/-- Only an act starts a QEMU of the instance. -/
theorem spawn_of_step {c c' : Config World Reply Label Error Request} {e : Event Label Request}
    (hc : Runs i (CrashesRecorded i) c) (hok : CrashesRecorded i c.state e)
    (hstep : Step (daemon i) c e c') {p : Proc} (hp : p ∈ c'.state.procs)
    (hnew : p.identity ∉ c.state.identities) (hq : p.isQemu i) : NoQemu i c.state := by
  have hsame : c'.state.procs = c.state.procs → NoQemu i c.state := by
    intro h
    rw [h] at hp
    exact absurd (World.mem_identities.2 ⟨p, hp, rfl⟩) hnew
  cases hstep with
  | accept => exact hsame rfl
  | reply => exact hsame rfl
  | ret => exact hsame rfl
  | throw => exact hsame rfl
  | crash => exact hsame rfl
  | env _ _ _ l henv => exact absurd hq ((quiet_of_background henv).noQemu p hp hnew)
  | act s r l f k =>
    exact ((discipline True i fun _ h _ => h).act hc hok (.act s r l f k)).spawn trivial p hp hnew hq

/-- In every run without a crash between a spawn and its record, at most one QEMU is alive. -/
theorem oneLiveQemu_of_crashesRecorded (i : Id) : OneLiveQemu i (CrashesRecorded i) := by
  intro c hc
  obtain ⟨⟨pending, hinv⟩, _⟩ := (discipline True i fun _ h _ => h).sound hc
  refine ⟨fun run hrun hstatus => hinv.ended run hrun ?_, fun p hp q hq hpq hqq hpe hqe =>
    hinv.oneQemu trivial hp hq hpq hqq hpe hqe, fun e c' hok hstep p hp hnew hq =>
    spawn_of_step hc hok hstep hp hnew hq⟩
  rcases hstatus with hstatus | hstatus <;> rw [hstatus] <;> rfl

/-- A crash falls between the spawn of a QEMU and its record. The next start finds no active run
and moves the instance to `error`. -/
def crashedAtRecord : List (Move World Reply Label Request) :=
  [vmCreate,
    .cut (.start (vmStart "run")) (List.replicate 10 {}) (fun l _ => l = .recordRun vm ⟨"run"⟩) [],
    .request (.start (vmStart "again")) (List.replicate 10 {})]

/-- A start up to its spawn of QEMU. -/
def startAtSpawn (s : World) : Prog World Reply Label Error Unit × World :=
  advance (fun (_ : World) (_ : Event Label Request) => true)
    (fun l _ => l = .spawn (.qemu vm ⟨"third"⟩)) (program vm (.start (vmStart "third")))
    (List.replicate 10 {}) s

/-- After a crash between a spawn and its record a second QEMU of the machine is started. -/
theorem not_oneLiveQemu_vm : ¬ OneLiveQemu vm fun _ _ => True := by
  intro hone
  have hplay : (play (daemon vm) (fun _ _ => true) crashedAtRecord World.empty).any (fun s =>
      (afterAct (startAtSpawn s).1 (startAtSpawn s).2).any fun s' =>
        s'.procs.any (fun p => decide (p.identity ∉ (startAtSpawn s).2.identities ∧
          p.owner = .qemu vm ⟨"third"⟩)) &&
        (startAtSpawn s).2.procs.any fun p =>
          decide (p.owner = .qemu vm ⟨"run"⟩ ∧ p.exit = none)) = true := by
    decide
  obtain ⟨s, hs, hnext⟩ := (Option.any_eq_true _ _).1 hplay
  obtain ⟨s', hafter, hprocs⟩ := (Option.any_eq_true _ _).1 hnext
  have hidle : Runs vm (fun _ _ => True) ⟨s, none⟩ := runs_of_play (fun _ _ _ => trivial) hs
  have hbusy : Runs vm (fun _ _ => True)
      ⟨(startAtSpawn s).2, some (Request.start (vmStart "third"), (startAtSpawn s).1)⟩ :=
    Reachable.advance (fun _ _ _ => trivial)
      (.step _ _ _ hidle trivial (.accept s (Request.start (vmStart "third"))))
  obtain ⟨l, c', hstep, rfl⟩ := Step.of_afterAct (S := daemon vm) hafter
  simp only [Bool.and_eq_true, any_eq_true, decide_eq_true_eq] at hprocs
  obtain ⟨⟨p, hp, hnew, howner⟩, q, hq, hqowner, hexit⟩ := hprocs
  exact (hone _ hbusy).2.2 _ c' trivial hstep p hp hnew ⟨_, howner⟩ q hq ⟨_, hqowner⟩ hexit

end MachineEmu.OneQemu
