import MachineEmu.Safety.Processes

/-!
# Runs and their processes in a request

The judgement that a part of a request keeps the processes of an instance in agreement with its
runs, and the statements on the runs table that every request is built from.

* `Guarantee`, `Meets` — what each act guarantees, and the judgement.
* `Stable`, `meets_calm` — assertions that calm steps keep, and the parts made of such steps.
* `meets_reconcileRun`, `meets_finishRun` — a run is probed, or finished once its process ended.
* `meets_recover`, `meets_liveRun`, `meets_admitStart` — the procedures that look for a live run.
-/

namespace MachineEmu.OneQemu

open Lib Lib.Prog Lib.Service Act

/-- After an act the invariant holds, a QEMU that it started is the only one alive, and a run is
recorded, or the instance deleted, only when no run was active. -/
structure Guarantee (safe : Prop) (i : Id) (l : Label) (s s' : World) : Prop where
  inv : ∃ c, Invariant safe i c s'
  spawn : safe → ∀ p ∈ s'.procs, p.identity ∉ s.identities → p.isQemu i → NoQemu i s
  inactive : l.guarded i = true → Active i [] s

/-- The judgement of this module. -/
abbrev Meets {α : Type} (safe : Prop) (i : Id) (Q : α → World → Prop) (X : Error → World → Prop)
    (p : Act α) (s : World) : Prop :=
  Ok (Quiet i) (fun _ _ => True) (Guarantee safe i) Q X p s

variable {safe : Prop} {i r : Id} {l : Label} {c : Pending} {s s' : World} {x : ProcessIdentity}

/-- An act on the tables when no run is active. -/
theorem Guarantee.of_inactive (h : Invariant safe i c s') (hprocs : s'.procs = s.procs)
    (hnone : l.guarded i = true → Active i [] s) : Guarantee safe i l s s' := by
  refine ⟨⟨c, h⟩, fun _ p hp hnew => ?_, hnone⟩
  rw [hprocs] at hp
  exact absurd (World.mem_identities.2 ⟨p, hp, rfl⟩) hnew

theorem Guarantee.of_procs (h : Invariant safe i c s') (hprocs : s'.procs = s.procs)
    (hl : l.guarded i = false) : Guarantee safe i l s s' :=
  .of_inactive h hprocs (by simp [hl])

theorem Guarantee.of_calm (h : Invariant safe i c s) (hc : Calm i s s')
    (hl : l.guarded i = false) : Guarantee safe i l s s' :=
  ⟨⟨c, h.calm hc⟩, fun _ p hp hnew hq => absurd hq (hc.noQemu p hp hnew), by simp [hl]⟩

/-- A calm step that neither records a run of the instance nor deletes it. -/
def CalmStep (i : Id) (l : Label) (s s' : World) : Prop := l.guarded i = false ∧ Calm i s s'

/-- A quiet step that neither records a run of the instance nor deletes it. -/
def QuietStep (i : Id) (l : Label) (s s' : World) : Prop := l.guarded i = false ∧ Quiet i s s'

/-! ## Calm parts of a request -/

/-- An assertion that entails the invariant and that calm steps keep. -/
structure Stable (safe : Prop) (i : Id) (P : World → Prop) : Prop where
  inv : ∀ s, P s → ∃ c, Invariant safe i c s
  calm : ∀ s s', Calm i s s' → P s → P s'

theorem stable_inv (safe : Prop) (i : Id) (c : Pending) : Stable safe i (Invariant safe i c) :=
  ⟨fun _ h => ⟨c, h⟩, fun _ _ hc h => h.calm hc⟩

variable {P : World → Prop}

/-- What calm steps keep may be added. -/
theorem Stable.and {Q : World → Prop} (hP : Stable safe i P)
    (hQ : ∀ s s', P s → Calm i s s' → Q s → Q s') : Stable safe i fun s => P s ∧ Q s :=
  ⟨fun s h => hP.inv s h.1, fun s s' hc h => ⟨hP.calm s s' hc h.1, hQ s s' h.1 hc h.2⟩⟩

variable {α : Type} {V : α → Prop} {p : Act α}

/-- A program of calm steps keeps what calm steps keep. -/
theorem meets_calm (hP : Stable safe i P) (hp : Frame (CalmStep i) V p) (hs : P s) :
    Meets safe i (fun a s' => V a ∧ P s') (fun _ => P) p s := by
  refine Ok.of_frame hp hs (fun s₁ s₂ h => hP.calm s₁ s₂ h.toCalm) fun l s₁ s₂ _ h₁ hF => ?_
  obtain ⟨c, hc⟩ := hP.inv s₁ h₁
  exact ⟨hP.calm s₁ s₂ hF.2 h₁, .of_calm hc hF.2 hF.1⟩

/-- A program of quiet steps keeps what quiet steps keep. -/
theorem meets_quiet (hp : Frame (QuietStep i) V p) (hinv : ∀ s, P s → ∃ c, Invariant safe i c s)
    (hquiet : ∀ s s', Quiet i s s' → P s → P s') (hs : P s) :
    Meets safe i (fun a s' => V a ∧ P s') (fun _ => P) p s := by
  refine Ok.of_frame hp hs (fun s₁ s₂ h => hquiet s₁ s₂ h) fun l s₁ s₂ _ h₁ hF => ?_
  obtain ⟨c, hc⟩ := hinv s₁ h₁
  exact ⟨hquiet s₁ s₂ hF.2 h₁, .of_calm hc hF.2.toCalm hF.1⟩

theorem calm_tame (hp : Frame TameStep V p) : Frame (CalmStep i) V p :=
  hp.mono (fun _ _ _ h => ⟨h.unguarded, .of_tame h⟩) fun _ h => h

theorem quiet_procs {owner : Owner}
    (howner : ∀ j q, owner ≠ .qemu j q) (hp : Frame (ProcStep owner) V p) :
    Frame (QuietStep i) V p :=
  hp.mono (fun _ _ _ h => ⟨(TameStep.of_procStep howner h).unguarded,
    .of_tame (.of_procStep howner h), by rw [h.rest]⟩) fun _ h => h

theorem quiet_other (hp : Frame (ProcStep .other) V p) : Frame (QuietStep i) V p :=
  quiet_procs (by simp) hp

theorem calm_procs (hp : Frame (ProcStep .other) V p) : Frame (CalmStep i) V p :=
  calm_tame (frame_tame hp)

theorem meets_tame (hP : Stable safe i P) (hp : Frame TameStep V p) (hs : P s) :
    Meets safe i (fun a s' => V a ∧ P s') (fun _ => P) p s :=
  meets_calm hP (calm_tame hp) hs

variable {β : Type} {X : Error → World → Prop} {Q : β → World → Prop}

/-- The value of a tame part does not matter. -/
theorem meets_tame_bind {g : α → Act β} (hP : Stable safe i P)
    (hp : Frame TameStep V p) (hs : P s) (hX : ∀ e s', P s' → X e s')
    (hg : ∀ a s', P s' → Meets safe i Q X (g a) s') : Meets safe i Q X (p.bind g) s :=
  ((meets_tame hP hp hs).mono (fun _ _ h => h.2) fun e s' h => hX e s' h).bind hg

theorem meets_query_bind {f : World → α} {g : α → Act β} (hs : Invariant safe i c s)
    (hg : ∀ s', Quiet i s s' → Invariant safe i c s' → Meets safe i Q X (g (f s')) s') :
    Meets safe i Q X ((query f).bind g) s :=
  ok_query_bind fun s' hR _ =>
    ⟨.of_procs (hs.calm hR.toCalm) rfl rfl, hg s' hR (hs.calm hR.toCalm)⟩

theorem meets_queryE_bind {f : World → Except Error α} {g : α → Act β} (hs : Invariant safe i c s)
    (hX : ∀ e s', Quiet i s s' → Invariant safe i c s' → f s' = .error e → X e s')
    (hg : ∀ a s', Quiet i s s' → Invariant safe i c s' → f s' = .ok a → Meets safe i Q X (g a) s') :
    Meets safe i Q X ((queryE f).bind g) s :=
  ok_queryE_bind fun s' hR _ => ⟨.of_procs (hs.calm hR.toCalm) rfl rfl,
    fun a h => hg a s' hR (hs.calm hR.toCalm) h, fun e h => hX e s' hR (hs.calm hR.toCalm) h⟩

/-! ## The statements on runs -/

theorem active_calm {ids : List Id} (h : Active i ids s) (hc : Calm i s s') : Active i ids s' :=
  hc.activeIds.trans h

theorem unfinished_calm (h : Unfinished i r s) (hc : Calm i s s') : Unfinished i r s' := by
  unfold Unfinished
  rw [hc.runs]
  exact h

/-- What a reconciliation says about a run: its row, with the outcome of the probe. -/
structure Reconciled (r : Id) (run : Run) (s : World) : Prop where
  row : s.workspace.runRow r = some run
  active : run.status.active = true
  probe : run.status = .running ↔ s.alive run.identity = true

variable {run : Run}

theorem Reconciled.runId (h : Reconciled r run s) : run.runId = r :=
  (Workspace.runRow_eq_some_iff.1 h.row).2

/-- A row of the instance with the id is the run. -/
theorem Reconciled.eq {row : Run} (h : Reconciled r run s) (hrow : row ∈ s.workspace.runsOf i)
    (hid : row.runId = r) : row = run := by
  have hsame : s.workspace.runRow r = some row :=
    Workspace.runRow_eq_some_iff.2 ⟨(Workspace.mem_runsOf.1 hrow).1, hid⟩
  rw [h.row] at hsame
  exact (Option.some.inj hsame).symm

theorem Reconciled.deadRun (h : Reconciled r run s) (hnot : run.status ≠ .running) :
    DeadRun i r s := by
  intro row hrow hid
  rw [h.eq hrow hid]
  by_contra halive
  exact hnot (h.probe.2 (by simpa using halive))

theorem Reconciled.mem (h : Reconciled r run s) (hi : run.instanceId = i) :
    run ∈ s.workspace.activeRuns i :=
  Workspace.mem_activeRuns.2 ⟨(Workspace.runRow_eq_some_iff.1 h.row).1, hi, h.active⟩

/-- The run of an instance, recovered, fits as its connection. -/
theorem Reconciled.fits {running : AsyncRunningInstance} (h : Reconciled r run s)
    (hinv : Invariant safe i c s) (hi : run.instanceId = i)
    (hrunning : running.process = none ∧ running.runId = run.runId ∧
      running.recovered = some run.identity) : Fits i run.runId running s := by
  refine ⟨hrunning.2.1, fun x hx => ?_⟩
  have hx' : x = run.identity := by
    unfold AsyncRunningInstance.identity at hx
    rw [hrunning.1, hrunning.2.2] at hx
    exact (Option.some.inj hx).symm
  obtain ⟨hmem, hii, _⟩ := Workspace.mem_activeRuns.1 (h.mem hi)
  refine ⟨hx' ▸ hinv.known run (Workspace.mem_runsOf.2 ⟨hmem, hii⟩), fun row hrow hid => ?_⟩
  obtain ⟨hrmem, hri, _⟩ := Workspace.mem_activeRuns.1 hrow
  rw [hx', h.eq (Workspace.mem_runsOf.2 ⟨hrmem, hri⟩) (hid.trans h.runId)]

/-- The run belongs to the instance when it is one of its active runs. -/
theorem Reconciled.instanceId (h : Reconciled r run s)
    (hmem : r ∈ s.workspace.activeIds i) : run.instanceId = i := by
  obtain ⟨run', hrow, hi, _⟩ := Workspace.mem_activeIds.1 hmem
  rw [h.row] at hrow
  cases hrow
  exact hi

/-- The runs of an instance with their processes. -/
def processes (i : Id) (s : World) : List (Id × ProcessIdentity) :=
  (s.workspace.runsOf i).map fun run => (run.runId, run.identity)

/-- The active runs, the processes of the runs and the row of the instance stay, and no run
becomes a finished one. -/
structure Kept (i : Id) (s s' : World) : Prop where
  ids : s'.workspace.activeIds i = s.workspace.activeIds i
  processes : processes i s' = processes i s
  row : s'.workspace.instanceRow i = s.workspace.instanceRow i
  unfinished : ∀ q, Unfinished i q s → Unfinished i q s'

theorem Kept.of_quiet (h : Quiet i s s') : Kept i s s' := by
  refine ⟨h.toCalm.activeIds, ?_, h.row, fun q hq => unfinished_calm hq h.toCalm⟩
  unfold OneQemu.processes
  rw [h.runs]

theorem Kept.trans {s'' : World} (h : Kept i s s') (h' : Kept i s' s'') : Kept i s s'' :=
  ⟨h'.ids.trans h.ids, h'.processes.trans h.processes, h'.row.trans h.row,
    fun q hq => h'.unfinished q (h.unfinished q hq)⟩

theorem processes_setRunStatus {status : RunStatus} :
    processes i (s.withWorkspace (s.workspace.setRunStatus r status)) = processes i s := by
  unfold processes World.withWorkspace
  rw [Workspace.runsOf_setRunStatus, List.map_map]
  refine List.map_congr_left fun run _ => ?_
  rw [Function.comp_apply]
  split <;> rfl

/-- An active status finishes no run. -/
theorem unfinished_setActive {status : RunStatus} (hstatus : status.active = true) (q : Id)
    (hq : Unfinished i q s) :
    Unfinished i q (s.withWorkspace (s.workspace.setRunStatus r status)) := by
  intro row hrow hid
  rw [World.withWorkspace, Workspace.runsOf_setRunStatus] at hrow
  obtain ⟨row', hrow', rfl⟩ := List.mem_map.1 hrow
  by_cases hsame : row'.runId = r
  · rw [if_pos hsame]
    exact hstatus
  · rw [if_neg hsame] at hid ⊢
    exact hq row' hrow' hid

/-- A reconciliation of a run that is not finished. -/
theorem meets_reconcileRun (hs : Invariant safe i c s) (hr : Unfinished i r s) :
    Meets safe i (fun run s' => Invariant safe i c s' ∧ Unfinished i r s' ∧ Reconciled r run s' ∧
        Kept i s s')
      (fun _ s' => Invariant safe i c s' ∧ Kept i s s') (reconcileRun r) s := by
  refine ok_statement fun s₁ hR _ => ?_
  have hs₁ := hs.calm hR.toCalm
  have hr₁ := unfinished_calm hr hR.toCalm
  rcases s₁.workspace.reconcileRun_cases s₁.alive r with ⟨row, hrow, hstep⟩ | ⟨e, _, hstep⟩
  · rw [hstep]
    have hactive := Workspace.probedStatus_active (s₁.alive row.identity)
    have hs₂ := hs₁.setActive hactive hr₁
    refine ⟨.of_procs hs₂ rfl rfl, ?_, by simp⟩
    rintro run ⟨⟩
    refine ⟨hs₂, unfinished_setActive hactive r hr₁,
      ⟨?_, hactive, Workspace.probedStatus_eq_running⟩,
      (Kept.of_quiet hR).trans ⟨?_, processes_setRunStatus, rfl, unfinished_setActive hactive⟩⟩
    · show (s₁.workspace.setRunStatus r _).runRow r = _
      rw [Workspace.runRow_setRunStatus, if_pos rfl, hrow]
      rfl
    · refine Workspace.activeIds_setRunStatus_of_active hactive fun row' hrow' hi => ?_
      obtain ⟨hmem, hid⟩ := Workspace.runRow_eq_some_iff.1 hrow'
      exact hr₁ row' (Workspace.mem_runsOf.2 ⟨hmem, hi⟩) hid
  · rw [hstep]
    exact ⟨.of_procs hs₁ rfl rfl, by simp, fun _ _ => ⟨hs₁, Kept.of_quiet hR⟩⟩

/-- A run is finished once its process has ended. -/
theorem meets_finishRun {j : Id} {status : RunStatus} {who : Finisher}
    (hstatus : status = .exited ∨ status = .failed) (hs : Invariant safe i c s) (hr : DeadRun i r s) :
    Meets safe i (fun run s' => run.runId = r ∧ Invariant safe i c s' ∧
        s'.workspace.activeIds i = (s.workspace.activeIds i).filter (· ≠ r))
      (fun _ s' => Invariant safe i c s' ∧
        s'.workspace.activeIds i = (s.workspace.activeIds i).filter (· ≠ r))
      (finishRun j r status who) s := by
  refine ok_statement fun s₁ hR _ => ?_
  have hs₁ := hs.calm hR.toCalm
  have hterminal : status.active = false := by
    rcases hstatus with rfl | rfl <;> rfl
  have hs₂ := hs₁.setTerminal hterminal (hr.calm hs hR.toCalm)
  have hids : (s₁.workspace.setRunStatus r status).activeIds i =
      (s.workspace.activeIds i).filter (· ≠ r) := by
    rw [Workspace.activeIds_setRunStatus_of_terminal hterminal, hR.toCalm.activeIds]
  have hvalid : status = .exited ∨ status = .failed ∨ status = .uncertain := hstatus.imp id .inl
  rcases s₁.workspace.finishRun_cases r hvalid with ⟨row, hrow, hstep⟩ | ⟨e, _, hstep⟩
  · rw [hstep]
    refine ⟨.of_procs hs₂ rfl rfl, ?_, by simp⟩
    rintro run ⟨⟩
    exact ⟨(Workspace.runRow_eq_some_iff.1 hrow).2, hs₂, hids⟩
  · rw [hstep]
    exact ⟨.of_procs hs₂ rfl rfl, by simp, fun _ _ => ⟨hs₂, hids⟩⟩

/-- A run is left uncertain. -/
theorem meets_finishUncertain {j : Id} {who : Finisher} (hs : Invariant safe i c s)
    (hr : Unfinished i r s) :
    Meets safe i (fun _ => Invariant safe i c) (fun _ => Invariant safe i c) (finishRun j r .uncertain who) s := by
  refine ok_statement fun s₁ hR _ => ?_
  have hactive : RunStatus.uncertain.active = true := rfl
  have hs₂ := (hs.calm hR.toCalm).setActive hactive (unfinished_calm hr hR.toCalm)
  have hvalid : RunStatus.uncertain = .exited ∨ RunStatus.uncertain = .failed ∨
      RunStatus.uncertain = .uncertain := .inr (.inr rfl)
  rcases s₁.workspace.finishRun_cases r hvalid with ⟨row, _, hstep⟩ | ⟨e, _, hstep⟩ <;>
  · rw [hstep]
    exact ⟨.of_procs hs₂ rfl rfl, fun _ _ => hs₂, fun _ _ => hs₂⟩

/-- A dead run is finished and its instance moved to `error`. -/
theorem meets_finishDeadRun {j : Id} {who : Finisher} (hs : Invariant safe i c s)
    (hr : DeadRun i r s) :
    Meets safe i (fun _ s' => Invariant safe i c s' ∧
        s'.workspace.activeIds i = (s.workspace.activeIds i).filter (· ≠ r))
      (fun _ => Invariant safe i c) (finishDeadRun j r who) s := by
  refine ((meets_finishRun (.inr rfl) hs hr).mono (fun _ _ h => h) fun _ _ h => h.1).bind
    fun _ s₁ h₁ => ?_
  have hP := (stable_inv safe i c).and (Q := Active i ((s.workspace.activeIds i).filter (· ≠ r)))
    fun _ _ _ hc h => active_calm h hc
  exact (meets_tame hP (frame_markError j) h₁.2).mono (fun _ _ h => h.2) fun _ _ h => h.1

/-! ## Looking for the live run -/

/-- Read the active run and reconcile it, as every procedure that looks for a live run does. -/
theorem meets_reconcileActive
    {none_ : Act β} {some_ : Run → Run → Act β} (j : Id) (hs : Invariant safe i c s)
    (hX : ∀ e s', Invariant safe i c s' → Kept i s s' → X e s')
    (hnone : ∀ s', Invariant safe i c s' → Kept i s s' → (j = i → Active i [] s') →
      Meets safe i Q X none_ s')
    (hsome : ∀ active run s', Invariant safe i c s' → Kept i s s' → active.runId = run.runId →
      Reconciled run.runId run s' → (j = i → run.instanceId = i ∧ Active i [run.runId] s') →
        Meets safe i Q X (some_ active run) s') :
    Meets safe i Q X
      ((query fun s => s.workspace.activeRun j).bind fun active =>
        match active with
        | none => none_
        | some active => (reconcileRun active.runId).bind (some_ active)) s := by
  refine meets_query_bind hs fun s₁ hR hs₁ => ?_
  have hkept := Kept.of_quiet hR
  cases hactive : s₁.workspace.activeRun j with
  | none =>
    refine hnone s₁ hs₁ hkept fun hj => ?_
    subst hj
    exact Workspace.activeRun_eq_none_iff.1 hactive
  | some active =>
    have hunf : Unfinished i active.runId s₁ := by
      intro row hrow hid
      obtain ⟨hmem, _, ha⟩ := Workspace.mem_activeRuns.1 (Workspace.activeRun_mem hactive)
      rwa [Table.key_injective (Workspace.mem_runsOf.1 hrow).1 hmem hid]
    refine ((meets_reconcileRun hs₁ hunf).mono (fun _ _ h => h)
      fun e s' h => hX e s' h.1 (hkept.trans h.2)).bind fun run s₂ h => ?_
    obtain ⟨hs₂, _, hrun, hk⟩ := h
    have hid : active.runId = run.runId := hrun.runId.symm
    rw [hid] at hrun
    refine hsome active run s₂ hs₂ (hkept.trans hk) hid hrun fun hj => ?_
    subst hj
    have hids : Active j [run.runId] s₂ := by
      have hone := Workspace.activeIds_eq_of_activeRun hs₁.one hactive
      rw [hid] at hone
      exact hk.ids.trans hone
    refine ⟨hrun.instanceId ?_, hids⟩
    rw [hids]
    exact List.mem_singleton_self _

/-- A recovery ends in a connection that fits. -/
theorem meets_recover (j : Id) (hs : Invariant safe i c s) :
    Meets safe i (fun running s' => Invariant safe i c s' ∧
        (j = i → ∀ live, running = some live → Fits i live.runId live s'))
      (fun _ => Invariant safe i c) (recoverInstanceRunAsync j) s := by
  refine meets_reconcileActive j hs (fun _ _ h _ => h) (fun s₁ h₁ _ _ => ⟨h₁, by simp⟩)
    fun active run s₁ h₁ _ _ hrun hi => ?_
  split
  · -- the connection names the process that the reconciliation found
    have hfits : ∀ running : AsyncRunningInstance, running.process = none ∧
        running.runId = run.runId ∧ running.recovered = some run.identity →
          j = i → Fits i running.runId running s₁ := by
      intro running hrunning hj
      rw [hrunning.2.1]
      exact hrun.fits h₁ (hi hj).1 hrunning
    have hP := (stable_inv safe i c).and (Q := fun s' => ∀ running : AsyncRunningInstance,
      running.process = none ∧ running.runId = run.runId ∧
        running.recovered = some run.identity → j = i → Fits i running.runId running s')
      fun _ _ _ hc h running hr hj => (h running hr hj).calm hc
    refine ((meets_tame hP (frame_reconnectRun run) ⟨h₁, hfits⟩).mono (fun _ _ h => h)
      fun _ _ h => h.1).bind fun running s₂ h₂ => ?_
    refine ⟨h₂.2.1, fun hj live hlive => ?_⟩
    cases hlive
    exact h₂.2.2 running h₂.1 hj
  · next hnot =>
    refine (meets_finishDeadRun h₁ (hrun.deadRun hnot)).bind fun _ s₂ h₂ => ?_
    exact ⟨h₂.1, by simp⟩

/-- The live run of the instance is an active run. -/
theorem meets_liveRun (hs : Invariant safe i c s) :
    Meets safe i (fun run s' => Invariant safe i c s' ∧ Kept i s s' ∧
        ∀ live, run = some live → live.instanceId = i ∧ Traced i live s')
      (fun _ s' => Invariant safe i c s' ∧ Kept i s s') (liveRun i) s := by
  refine meets_reconcileActive i hs (fun _ _ h hk => ⟨h, hk⟩)
    (fun s₁ h₁ hk _ => ⟨h₁, hk, by simp⟩) fun active run s₁ h₁ hk _ hrun hi => ?_
  refine ⟨h₁, hk, fun live hlive => ?_⟩
  split at hlive
  · cases hlive
    exact ⟨(hi rfl).1, h₁.traced_of_active (hrun.mem (hi rfl).1)⟩
  · cases hlive

/-- A start is admitted only when no run is active any more. -/
theorem meets_admitStart (hs : Invariant safe i c s) :
    Meets safe i (fun _ s' => Invariant safe i c s' ∧ Active i [] s') (fun _ => Invariant safe i c)
      (admitStart i) s := by
  refine meets_reconcileActive i hs (fun _ _ h _ => h) (fun s₁ h₁ _ hnone => ⟨h₁, hnone rfl⟩)
    fun active run s₁ h₁ _ hid hrun hi => ?_
  split
  · exact h₁
  · next hnot =>
    rw [hid]
    refine (meets_finishDeadRun h₁ (hrun.deadRun hnot)).mono (fun _ s₂ h₂ => ⟨h₂.1, ?_⟩)
      fun _ _ h => h
    show s₂.workspace.activeIds i = []
    rw [h₂.2, (hi rfl).2]
    simp

end MachineEmu.OneQemu
