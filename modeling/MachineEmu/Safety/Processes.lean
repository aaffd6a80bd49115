import MachineEmu.Api.Frames

/-!
# The processes of an instance and its runs

The QEMU processes of an instance that are alive belong to its active run, the processes of its
finished runs have ended, and what the daemon holds on to (the connection of the supervisor entry,
the runs its tasks follow) agrees with the runs table.

* `Invariant` — the invariant, with what a request in progress may add to it.
* `Calm`, `Quiet` — the steps that keep it; `Invariant.calm` — they do.
* `Invariant.reconcileRun`, `Invariant.finishRun`, `Invariant.recordRun`, `Invariant.spawn`,
  `Invariant.deleteInstance`, `Invariant.install` — the acts that need an argument.
-/

namespace MachineEmu

open Lib Lib.Prog Act List Option

/-! ## What the daemon holds on to -/

/-- The process of a connection. -/
def AsyncRunningInstance.identity (running : AsyncRunningInstance) : Option ProcessIdentity :=
  match running.process with
  | some p => some p.identity
  | none => running.recovered

/-- The connection of an entry: the run of the entry, the run of the connection and its process. -/
def RunSupervisor.link (owner : RunSupervisor) : Option (Id × Id × ProcessIdentity) :=
  owner.running.bind fun running =>
    running.identity.map fun identity => (owner.runId, running.runId, identity)

/-- The connection of the entry of an instance. -/
def World.link (s : World) (i : Id) : Option (Id × Id × ProcessIdentity) :=
  (s.supervisors i).bind RunSupervisor.link

/-- The connections after a change of one entry. -/
theorem World.link_update (s : World) (i j : Id) (entry : Option RunSupervisor) :
    ({ s with supervisors := Function.update s.supervisors j entry } : World).link i =
      if i = j then entry.bind RunSupervisor.link else s.link i := by
  unfold World.link
  by_cases hi : i = j
  · subst hi
    rw [if_pos rfl]
    show (Function.update s.supervisors i entry i).bind _ = _
    rw [Function.update_self]
  · rw [if_neg hi]
    show (Function.update s.supervisors j entry i).bind _ = _
    rw [Function.update_of_ne hi]

theorem ownEntry_eq_some {s : World} {i r : Id} {owner : RunSupervisor}
    (h : ownEntry s i r = some owner) : owner.runId = r ∧ s.link i = owner.link := by
  unfold ownEntry at h
  unfold World.link
  cases hentry : s.supervisors i with
  | none =>
    rw [hentry] at h
    cases h
    exact ⟨rfl, rfl⟩
  | some entry =>
    rw [hentry] at h
    simp only [ite_none_right_eq_some, Option.some.injEq] at h
    obtain ⟨hid, rfl⟩ := h
    exact ⟨hid, rfl⟩

theorem ownEntry_eq_none {s : World} {i r : Id} (h : ownEntry s i r = none) :
    ∃ owner, s.supervisors i = some owner ∧ owner.runId ≠ r := by
  unfold ownEntry at h
  cases hentry : s.supervisors i with
  | none =>
    rw [hentry] at h
    cases h
  | some entry =>
    rw [hentry] at h
    refine ⟨entry, rfl, fun hid => ?_⟩
    simp only [hid, if_true] at h
    cases h

/-- A task of the instance, or the tail of its start, follows the run. -/
def Follows (i : Id) (run : Run) (s : World) : Prop :=
  run.instanceId = i ∧ ((∃ watch ∈ s.watches, watch.run = run) ∨ .read run ∈ s.spawnTails)

/-- If the process of the run is alive, the run is active. -/
def Traced (i : Id) (run : Run) (s : World) : Prop :=
  run.identity ∈ s.identities ∧
    (s.alive run.identity = true →
      ∃ row ∈ s.workspace.activeRuns i, row.runId = run.runId ∧ row.identity = run.identity)

/-- A process was started as QEMU of the instance. -/
def Proc.isQemu (i : Id) (p : Proc) : Prop := ∃ r, p.owner = .qemu i r

/-- No QEMU of the instance is alive. -/
def NoQemu (i : Id) (s : World) : Prop := ∀ p ∈ s.procs, p.isQemu i → p.exit ≠ none

/-- The acts that record a run of the instance or delete it. -/
def Label.guarded (i : Id) : Label → Bool
  | .recordRun j _ => j = i
  | .deleteInstance j => j = i
  | _ => false

/-- The active runs of the instance are these. -/
def Active (i : Id) (ids : List Id) (s : World) : Prop := s.workspace.activeIds i = ids

/-- At most one run of the instance is active. -/
def One (i : Id) (s : World) : Prop := (s.workspace.activeIds i).length ≤ 1

/-- The run is not a finished run of the instance. -/
def Unfinished (i r : Id) (s : World) : Prop :=
  ∀ row ∈ s.workspace.runsOf i, row.runId = r → row.status.active = true

/-- An active run is not finished. -/
theorem unfinished_of_mem {s : World} {i r : Id} (h : r ∈ s.workspace.activeIds i) :
    Unfinished i r s := by
  intro row hrow hr
  obtain ⟨run, hrun, _, ha⟩ := Workspace.mem_activeIds.1 h
  obtain ⟨hmem, _⟩ := Workspace.mem_runsOf.1 hrow
  have hsame : s.workspace.runRow r = some row := Workspace.runRow_eq_some_iff.2 ⟨hmem, hr⟩
  rw [hrun] at hsame
  cases hsame
  exact ha

/-! ## The invariant -/

/-- What a request in progress adds: a process that no run records yet, a run whose connection is
not installed yet, and runs that it is about to follow. -/
structure Pending where
  extra : Option ProcessIdentity := none
  skip : Option Id := none
  runs : List Run := []

/-- The processes, the runs and the tables of the daemon agree; every QEMU that is alive is
covered as long as the crashes so far were `safe`. -/
structure Invariant (safe : Prop) (i : Id) (c : Pending) (s : World) : Prop where
  one : (s.workspace.activeIds i).length ≤ 1
  nodup : s.identities.Nodup
  known : ∀ run ∈ s.workspace.runsOf i, run.identity ∈ s.identities
  /-- The process of a finished run has ended. -/
  ended : ∀ run ∈ s.workspace.runsOf i, run.status.active = false →
    s.alive run.identity = false
  /-- A QEMU that is alive belongs to an active run. -/
  covered : safe → ∀ p ∈ s.procs, p.isQemu i → p.exit = none →
    some p.identity = c.extra ∨ ∃ run ∈ s.workspace.activeRuns i, run.identity = p.identity
  alone : c.extra ≠ none → s.workspace.activeIds i = []
  linked : ∀ q q' x, s.link i = some (q, q', x) → q = q' ∧ x ∈ s.identities ∧
    (some q ≠ c.skip → ∀ run ∈ s.workspace.activeRuns i, run.runId = q → run.identity = x)
  traced : ∀ run, Follows i run s ∨ (run ∈ c.runs ∧ run.instanceId = i) → Traced i run s

/-- A step that keeps the runs of the instance, starts no QEMU for it, keeps or drops its
connection, and follows no runs but active ones. -/
structure Calm (i : Id) (s s' : World) : Prop where
  runs : s'.workspace.runsOf i = s.workspace.runsOf i
  evolves : Evolves s.procs s'.procs
  noQemu : ∀ p ∈ s'.procs, p.identity ∉ s.identities → ¬ p.isQemu i
  link : s'.link i = s.link i ∨ s'.link i = none
  follows : ∀ run, Follows i run s' → Follows i run s ∨ run ∈ s.workspace.activeRuns i

/-- A calm step that keeps the row of the instance. -/
structure Quiet (i : Id) (s s' : World) : Prop extends Calm i s s' where
  row : s'.workspace.instanceRow i = s.workspace.instanceRow i

variable {safe : Prop} {i r : Id} {c : Pending} {s s' : World}

theorem Calm.refl (i : Id) (s : World) : Calm i s s :=
  ⟨rfl, Evolves.refl _, fun p hp hnew => absurd (World.mem_identities.2 ⟨p, hp, rfl⟩) hnew,
    .inl rfl, fun _ h => .inl h⟩

theorem Calm.identities (h : Calm i s s') {x : ProcessIdentity} (hx : x ∈ s.identities) :
    x ∈ s'.identities :=
  h.evolves.identities hx

theorem Calm.activeRuns (h : Calm i s s') :
    s'.workspace.activeRuns i = s.workspace.activeRuns i := by
  unfold Workspace.activeRuns
  rw [h.runs]

theorem Calm.activeIds (h : Calm i s s') :
    s'.workspace.activeIds i = s.workspace.activeIds i := by
  unfold Workspace.activeIds
  rw [h.activeRuns]

theorem Calm.dead (h : Calm i s s') {x : ProcessIdentity} (hx : x ∈ s.identities)
    (hdead : s.alive x = false) : s'.alive x = false := by
  by_contra halive
  rw [World.alive_of_evolves h.evolves hx (by simpa using halive)] at hdead
  cases hdead

theorem Calm.trans {s'' : World} (h : Calm i s s') (h' : Calm i s' s'') : Calm i s s'' := by
  refine ⟨h'.runs.trans h.runs, h.evolves.trans h'.evolves, ?_, ?_, ?_⟩
  · intro p hp hnew hq
    by_cases hmid : p.identity ∈ s'.identities
    · -- the process appeared in the first step
      rcases h'.evolves.mem hp with ⟨p', hp', hi, ho, _⟩ | hnew'
      · rw [hi] at hnew
        refine h.noQemu p' hp' hnew ?_
        obtain ⟨q, hq⟩ := hq
        exact ⟨q, ho.symm.trans hq⟩
      · exact hnew' hmid
    · exact h'.noQemu p hp hmid hq
  · rcases h'.link with hl' | hl'
    · rw [hl']
      exact h.link
    · exact .inr hl'
  · intro run hrun
    rcases h'.follows run hrun with hf | hactive
    · exact h.follows run hf
    · rw [h.activeRuns] at hactive
      exact .inr hactive

variable {run : Run}

theorem Traced.calm (h : Traced i run s) (hc : Calm i s s') : Traced i run s' := by
  refine ⟨hc.identities h.1, fun halive => ?_⟩
  rw [hc.activeRuns]
  exact h.2 (World.alive_of_evolves hc.evolves h.1 halive)

theorem Invariant.traced_of_active (h : Invariant safe i c s)
    (hrun : run ∈ s.workspace.activeRuns i) : Traced i run s := by
  obtain ⟨hmem, hi, _⟩ := Workspace.mem_activeRuns.1 hrun
  exact ⟨h.known run (Workspace.mem_runsOf.2 ⟨hmem, hi⟩), fun _ => ⟨run, hrun, rfl, rfl⟩⟩

/-- Calm steps keep the invariant. -/
theorem Invariant.calm (h : Invariant safe i c s) (hc : Calm i s s') : Invariant safe i c s' := by
  refine ⟨?_, hc.evolves.nodup h.nodup, ?_, ?_, ?_, ?_, ?_, ?_⟩
  · rw [hc.activeIds]
    exact h.one
  · intro run hrun
    rw [hc.runs] at hrun
    exact hc.identities (h.known run hrun)
  · intro run hrun hstatus
    rw [hc.runs] at hrun
    exact hc.dead (h.known run hrun) (h.ended run hrun hstatus)
  · intro hsafe p hp hq hexit
    rw [hc.activeRuns]
    rcases hc.evolves.mem hp with ⟨p', hp', hi, ho, _, hexit'⟩ | hnew
    · rw [hi]
      obtain ⟨q, hq⟩ := hq
      exact h.covered hsafe p' hp' ⟨q, ho.symm.trans hq⟩ (hexit' hexit)
    · exact absurd hq (hc.noQemu p hp hnew)
  · rw [hc.activeIds]
    exact h.alone
  · intro q q' x hlink
    rcases hc.link with hl | hl
    · rw [hl] at hlink
      obtain ⟨hq, hx, hactive⟩ := h.linked q q' x hlink
      rw [hc.activeRuns]
      exact ⟨hq, hc.identities hx, hactive⟩
    · rw [hl] at hlink
      cases hlink
  · rintro run (hrun | hrun)
    · rcases hc.follows run hrun with hf | hactive
      · exact (h.traced run (.inl hf)).calm hc
      · exact (h.traced_of_active hactive).calm hc
    · exact (h.traced run (.inr hrun)).calm hc

/-- At most one QEMU of the instance is alive. -/
theorem Invariant.oneQemu (h : Invariant safe i c s) (hsafe : safe) {p q : Proc} (hp : p ∈ s.procs) (hq : q ∈ s.procs)
    (hpq : p.isQemu i) (hqq : q.isQemu i) (hpe : p.exit = none) (hqe : q.exit = none) : p = q := by
  have hsame : p.identity = q.identity := by
    rcases h.covered hsafe p hp hpq hpe with hpx | ⟨run, hrun, hpx⟩
    · have hnone := h.alone (by rw [← hpx]; simp)
      rcases h.covered hsafe q hq hqq hqe with hqx | ⟨run, hrun, _⟩
      · exact Option.some.inj (hpx.trans hqx.symm)
      · rw [map_eq_nil_iff.1 hnone] at hrun
        cases hrun
    · rcases h.covered hsafe q hq hqq hqe with hqx | ⟨run', hrun', hqx⟩
      · have hnone := h.alone (by rw [← hqx]; simp)
        rw [map_eq_nil_iff.1 hnone] at hrun
        cases hrun
      · have hone : (s.workspace.activeRuns i).length ≤ 1 := by
          simpa [Workspace.activeIds] using h.one
        have hrr : run = run' := by
          rcases hruns : s.workspace.activeRuns i with _ | ⟨a, _ | ⟨b, rest⟩⟩
          · simp [hruns] at hrun
          · rw [hruns, mem_singleton] at hrun hrun'
            rw [hrun, hrun']
          · rw [hruns] at hone
            simp at hone
        rw [← hpx, ← hqx, hrr]
  exact inj_on_of_nodup_map h.nodup hp hq hsame

/-! ## Steps that are calm -/

theorem RunSupervisor.link_preserveOnDrop (owner : RunSupervisor) :
    owner.preserveOnDrop.link = owner.link := by
  obtain ⟨runId, running, helpers, display, watching⟩ := owner
  cases running with
  | none => rfl
  | some running =>
    obtain ⟨process, runId', recovered⟩ := running
    cases process <;> rfl

theorem Calm.of_tame {l : Label} (h : TameStep l s s') : Calm i s s' := by
  refine ⟨?_, h.evolves, ?_, .inl ?_, ?_⟩
  · unfold Workspace.runsOf
    rw [h.runs]
  · rintro p hp hnew ⟨q, hq⟩
    exact h.noQemu p hp hnew i q hq
  · unfold World.link
    rcases h.supervisors i with hs | hs
    · rw [hs]
    · rw [hs]
      cases s.supervisors i with
      | none => rfl
      | some owner => exact owner.link_preserveOnDrop
  · rintro run ⟨hi, hrun⟩
    rw [h.watches, h.spawnTails] at hrun
    exact .inl ⟨hi, hrun⟩

theorem TameStep.unguarded {l : Label} (h : TameStep l s s') : l.guarded i = false := by
  cases l with
  | recordRun => cases h.label
  | deleteInstance => cases h.label
  | _ => rfl

/-- A step that changes nothing but the tables of the database other than the runs. -/
theorem Calm.of_workspace {w : Workspace} (h : w.runsOf i = s.workspace.runsOf i) :
    Calm i s { s with workspace := w } :=
  ⟨h, Evolves.refl _, fun p hp hnew => absurd (World.mem_identities.2 ⟨p, hp, rfl⟩) hnew,
    .inl rfl, fun _ h => .inl h⟩

/-- A step that changes nothing but the supervisor entries and keeps or drops the connection. -/
theorem Calm.of_supervisors {supervisors : Id → Option RunSupervisor}
    (h : ({ s with supervisors } : World).link i = s.link i ∨
      ({ s with supervisors } : World).link i = none) : Calm i s { s with supervisors } :=
  ⟨rfl, Evolves.refl _, fun p hp hnew => absurd (World.mem_identities.2 ⟨p, hp, rfl⟩) hnew, h,
    fun _ h => .inl h⟩

/-! ## Statements on the runs -/

/-- The process of this run of the instance has ended. -/
def DeadRun (i r : Id) (s : World) : Prop :=
  ∀ row ∈ s.workspace.runsOf i, row.runId = r → s.alive row.identity = false

theorem DeadRun.calm (h : DeadRun i r s) (hinv : Invariant safe i c s) (hc : Calm i s s') :
    DeadRun i r s' := by
  intro row hrow hr
  rw [hc.runs] at hrow
  exact hc.dead (hinv.known row hrow) (h row hrow hr)

/-- A run that is not active has ended. -/
theorem Invariant.deadRun (h : Invariant safe i c s) (hr : r ∉ s.workspace.activeIds i) :
    DeadRun i r s := by
  intro row hrow hid
  refine h.ended row hrow ?_
  by_contra hactive
  refine hr ?_
  obtain ⟨hmem, hi⟩ := Workspace.mem_runsOf.1 hrow
  rw [← hid]
  exact mem_map_of_mem (Workspace.mem_activeRuns.2 ⟨hmem, hi, by simpa using hactive⟩)

/-- A change of the runs table that keeps ids and processes keeps the processes of the runs
known. -/
theorem known_setRunStatus {status : RunStatus}
    (h : ∀ run ∈ s.workspace.runsOf i, run.identity ∈ s.identities) :
    ∀ run ∈ (s.workspace.setRunStatus r status).runsOf i, run.identity ∈ s.identities := by
  intro run hrun
  rw [Workspace.runsOf_setRunStatus] at hrun
  obtain ⟨run', hrun', rfl⟩ := mem_map.1 hrun
  split <;> exact h run' hrun'

/-- An active status for a run that is not finished. -/
theorem Invariant.setActive {status : RunStatus} (h : Invariant safe i c s)
    (hstatus : status.active = true) (hr : Unfinished i r s) :
    Invariant safe i c (s.withWorkspace (s.workspace.setRunStatus r status)) := by
  have hruns := Workspace.activeRuns_setRunStatus_of_active hstatus hr
  have hids : (s.workspace.setRunStatus r status).activeIds i = s.workspace.activeIds i := by
    refine Workspace.activeIds_setRunStatus_of_active hstatus fun row hrow hi => ?_
    obtain ⟨hmem, hid⟩ := Workspace.runRow_eq_some_iff.1 hrow
    exact hr row (Workspace.mem_runsOf.2 ⟨hmem, hi⟩) hid
  -- every active run stays one, with the same id and process
  have hkeep : ∀ run ∈ s.workspace.activeRuns i,
      ∃ run' ∈ (s.workspace.setRunStatus r status).activeRuns i,
        run'.runId = run.runId ∧ run'.identity = run.identity := by
    intro run hrun
    rw [hruns]
    refine ⟨_, mem_map_of_mem hrun, ?_⟩
    split <;> exact ⟨rfl, rfl⟩
  refine ⟨?_, h.nodup, known_setRunStatus h.known, ?_, ?_, ?_, ?_, ?_⟩
  · show ((s.workspace.setRunStatus r status).activeIds i).length ≤ 1
    rw [hids]
    exact h.one
  · intro run hrun hfinished
    rw [World.withWorkspace, Workspace.runsOf_setRunStatus] at hrun
    obtain ⟨run', hrun', rfl⟩ := mem_map.1 hrun
    by_cases hid : run'.runId = r
    · rw [if_pos hid] at hfinished
      rw [hstatus] at hfinished
      cases hfinished
    · rw [if_neg hid] at hfinished ⊢
      exact h.ended run' hrun' hfinished
  · intro hsafe p hp hq hexit
    rcases h.covered hsafe p hp hq hexit with hx | ⟨run, hrun, hx⟩
    · exact .inl hx
    · obtain ⟨run', hrun', _, hx'⟩ := hkeep run hrun
      exact .inr ⟨run', hrun', hx'.trans hx⟩
  · intro hextra
    exact hids.trans (h.alone hextra)
  · intro q q' x hlink
    obtain ⟨hq, hx, hactive⟩ := h.linked q q' x hlink
    refine ⟨hq, hx, fun hskip run hrun hid => ?_⟩
    rw [World.withWorkspace, hruns] at hrun
    obtain ⟨run', hrun', rfl⟩ := mem_map.1 hrun
    have hid' : run'.runId = q := by
      rw [← hid]
      split <;> rfl
    rw [← hactive hskip run' hrun' hid']
    split <;> rfl
  · intro run hrun
    obtain ⟨hknown, halive⟩ := h.traced run hrun
    refine ⟨hknown, fun hal => ?_⟩
    obtain ⟨row, hrow, hid, hx⟩ := halive hal
    obtain ⟨row', hrow', hid', hx'⟩ := hkeep row hrow
    exact ⟨row', hrow', hid'.trans hid, hx'.trans hx⟩

/-- A run is finished once its process has ended. -/
theorem Invariant.setTerminal {status : RunStatus} (h : Invariant safe i c s)
    (hstatus : status.active = false) (hr : DeadRun i r s) :
    Invariant safe i c (s.withWorkspace (s.workspace.setRunStatus r status)) := by
  have hruns := Workspace.activeRuns_setRunStatus_of_terminal (w := s.workspace) (i := i) (r := r) hstatus
  have hids := Workspace.activeIds_setRunStatus_of_terminal (w := s.workspace) (i := i) (r := r) hstatus
  -- an active run with a live process is another run
  have hkeep : ∀ run ∈ s.workspace.activeRuns i, s.alive run.identity = true →
      run ∈ (s.workspace.setRunStatus r status).activeRuns i := by
    intro run hrun halive
    rw [hruns, mem_filter]
    refine ⟨hrun, ?_⟩
    by_contra hid
    have hrow := (Workspace.mem_activeRuns.1 hrun)
    rw [hr run (Workspace.mem_runsOf.2 ⟨hrow.1, hrow.2.1⟩) (by simpa using hid)] at halive
    cases halive
  refine ⟨?_, h.nodup, known_setRunStatus h.known, ?_, ?_, ?_, ?_, ?_⟩
  · show ((s.workspace.setRunStatus r status).activeIds i).length ≤ 1
    rw [hids]
    exact (length_filter_le _ _).trans h.one
  · intro run hrun hfinished
    rw [World.withWorkspace, Workspace.runsOf_setRunStatus] at hrun
    obtain ⟨run', hrun', rfl⟩ := mem_map.1 hrun
    by_cases hid : run'.runId = r
    · rw [if_pos hid]
      exact hr run' hrun' hid
    · rw [if_neg hid] at hfinished ⊢
      exact h.ended run' hrun' hfinished
  · intro hsafe p hp hq hexit
    rcases h.covered hsafe p hp hq hexit with hx | ⟨run, hrun, hx⟩
    · exact .inl hx
    · have halive : s.alive run.identity = true := World.alive_iff.2 ⟨p, hp, hx.symm, hexit⟩
      exact .inr ⟨run, hkeep run hrun halive, hx⟩
  · intro hextra
    show (s.workspace.setRunStatus r status).activeIds i = []
    rw [hids, h.alone hextra]
    rfl
  · intro q q' x hlink
    obtain ⟨hq, hx, hactive⟩ := h.linked q q' x hlink
    refine ⟨hq, hx, fun hskip run hrun hid => ?_⟩
    rw [World.withWorkspace, hruns] at hrun
    exact hactive hskip run (mem_of_mem_filter hrun) hid
  · intro run hrun
    obtain ⟨hknown, halive⟩ := h.traced run hrun
    refine ⟨hknown, fun hal => ?_⟩
    obtain ⟨row, hrow, hid, hx⟩ := halive hal
    have halive' : s.alive row.identity = true := by
      rw [hx]
      exact hal
    exact ⟨row, hkeep row hrow halive', hid, hx⟩

/-- A run whose connection is not installed is finished: nothing is left to skip. -/
theorem Invariant.unskip (h : Invariant safe i c s)
    (hr : ∀ q, c.skip = some q → q ∉ s.workspace.activeIds i) :
    Invariant safe i { c with skip := none } s := by
  refine ⟨h.one, h.nodup, h.known, h.ended, h.covered, h.alone, ?_, h.traced⟩
  intro q q' x hlink
  obtain ⟨hq, hx, hactive⟩ := h.linked q q' x hlink
  refine ⟨hq, hx, fun _ run hrun hid => ?_⟩
  by_cases hskip : some q = c.skip
  · refine absurd ?_ (hr q hskip.symm)
    rw [← hid]
    exact mem_map_of_mem hrun
  · exact hactive hskip run hrun hid

/-- The process that no run records yet is recorded. -/
theorem Invariant.recordRun {runs : Table Run.runId} (h : Invariant safe i c s)
    (hextra : c.extra = some run.identity) (hinsert : s.workspace.runs.insert run = some runs)
    (hi : run.instanceId = i) (hactive : run.status.active = true)
    (hx : run.identity ∈ s.identities) :
    Invariant safe i { c with extra := none, skip := some run.runId }
      (s.withWorkspace { s.workspace with runs }) := by
  have hnone : s.workspace.activeRuns i = [] :=
    map_eq_nil_iff.1 (h.alone (by rw [hextra]; simp))
  have hruns : ({ s.workspace with runs } : Workspace).activeRuns i = [run] := by
    rw [Workspace.activeRuns_insert hinsert hi hactive, hnone]
    rfl
  have hrows : ({ s.workspace with runs } : Workspace).runsOf i = s.workspace.runsOf i ++ [run] := by
    rw [Workspace.runsOf_insert hinsert, if_pos hi]
  refine ⟨?_, h.nodup, ?_, ?_, ?_, by simp, ?_, ?_⟩
  · show (Workspace.activeIds { s.workspace with runs } i).length ≤ 1
    unfold Workspace.activeIds
    rw [hruns]
    simp
  · intro row hrow
    rw [World.withWorkspace, hrows, mem_append, mem_singleton] at hrow
    rcases hrow with hrow | rfl
    · exact h.known row hrow
    · exact hx
  · intro row hrow hfinished
    rw [World.withWorkspace, hrows, mem_append, mem_singleton] at hrow
    rcases hrow with hrow | rfl
    · exact h.ended row hrow hfinished
    · rw [hactive] at hfinished
      cases hfinished
  · intro hsafe p hp hq hexit
    refine .inr ⟨run, ?_, ?_⟩
    · rw [World.withWorkspace, hruns]
      exact mem_singleton_self run
    · rcases h.covered hsafe p hp hq hexit with hpx | ⟨row, hrow, _⟩
      · exact (Option.some.inj (hpx.trans hextra)).symm
      · rw [hnone] at hrow
        cases hrow
  · intro q q' x hlink
    obtain ⟨hq, hx, _⟩ := h.linked q q' x hlink
    refine ⟨hq, hx, fun hskip row hrow hid => ?_⟩
    rw [World.withWorkspace, hruns, mem_singleton] at hrow
    subst hrow
    exact absurd (congrArg some hid.symm) hskip
  · intro row hrow
    obtain ⟨hknown, halive⟩ := h.traced row hrow
    refine ⟨hknown, fun hal => ?_⟩
    obtain ⟨row', hrow', _⟩ := halive hal
    rw [hnone] at hrow'
    cases hrow'

/-- The instance's rows go when no run is active. -/
theorem Invariant.deleteInstance (h : Invariant safe i c s)
    (hnone : s.workspace.activeIds i = []) :
    Invariant safe i c (s.withWorkspace (s.workspace.deleteInstance i)) := by
  have hruns : s.workspace.activeRuns i = [] := map_eq_nil_iff.1 hnone
  have hrows : (s.workspace.deleteInstance i).runsOf i = [] := Workspace.runsOf_deleteInstance
  have hactive : (s.workspace.deleteInstance i).activeRuns i = [] := by
    unfold Workspace.activeRuns
    rw [hrows]
    rfl
  refine ⟨?_, h.nodup, ?_, ?_, ?_, fun _ => Workspace.activeIds_deleteInstance, ?_, ?_⟩
  · show ((s.workspace.deleteInstance i).activeIds i).length ≤ 1
    simp
  · intro run hrun
    rw [World.withWorkspace, hrows] at hrun
    cases hrun
  · intro run hrun
    rw [World.withWorkspace, hrows] at hrun
    cases hrun
  · intro hsafe p hp hq hexit
    rcases h.covered hsafe p hp hq hexit with hx | ⟨run, hrun, _⟩
    · exact .inl hx
    · rw [hruns] at hrun
      cases hrun
  · intro q q' x hlink
    obtain ⟨hq, hx, _⟩ := h.linked q q' x hlink
    refine ⟨hq, hx, fun _ run hrun => ?_⟩
    rw [World.withWorkspace, hactive] at hrun
    cases hrun
  · intro run hrun
    obtain ⟨hknown, halive⟩ := h.traced run hrun
    refine ⟨hknown, fun hal => ?_⟩
    obtain ⟨row, hrow, _⟩ := halive hal
    rw [hruns] at hrow
    cases hrow

/-! ## Processes -/

/-- With no active run no QEMU of the instance is alive. -/
theorem Invariant.noQemu (h : Invariant safe i c s) (hsafe : safe) (hextra : c.extra = none)
    (hnone : s.workspace.activeIds i = []) : NoQemu i s := by
  intro p hp hq hexit
  rcases h.covered hsafe p hp hq hexit with hx | ⟨run, hrun, _⟩
  · rw [hextra] at hx
    cases hx
  · rw [map_eq_nil_iff.1 hnone] at hrun
    cases hrun

/-- A QEMU is started when no run is active. -/
theorem Invariant.spawn (h : Invariant safe i c s) (hextra : c.extra = none)
    (hnone : s.workspace.activeIds i = []) (unit : Option String) (offered : ProcessIdentity) :
    Invariant safe i { c with extra := some (s.freshIdentity offered) }
      (s.spawn (.qemu i r) unit none offered) := by
  have hevolves := s.spawn_evolves (.qemu i r) unit none offered
  have hdead : ∀ x, x ∈ s.identities → s.alive x = false →
      (s.spawn (.qemu i r) unit none offered).alive x = false := by
    intro x hx hdead
    by_contra halive
    rw [World.alive_of_evolves hevolves hx (by simpa using halive)] at hdead
    cases hdead
  refine ⟨h.one, hevolves.nodup h.nodup, fun run hrun => hevolves.identities (h.known run hrun),
    fun run hrun hfinished => hdead _ (h.known run hrun) (h.ended run hrun hfinished), ?_,
    fun _ => hnone, ?_, ?_⟩
  · intro hsafe p hp hq hexit
    rcases mem_append.1 hp with hp | hp
    · exact absurd hexit (h.noQemu hsafe hextra hnone p hp hq)
    · rw [mem_singleton] at hp
      subst hp
      exact .inl rfl
  · intro q q' x hlink
    obtain ⟨hq, hx, hactive⟩ := h.linked q q' x hlink
    exact ⟨hq, hevolves.identities hx, hactive⟩
  · intro run hrun
    obtain ⟨hknown, halive⟩ := h.traced run hrun
    exact ⟨hevolves.identities hknown,
      fun hal => halive (World.alive_of_evolves hevolves hknown hal)⟩

/-- The process that no run records yet has ended. -/
theorem Invariant.unextra (h : Invariant safe i c s) (hdead : ∀ x, c.extra = some x → s.alive x = false) :
    Invariant safe i { c with extra := none } s := by
  refine ⟨h.one, h.nodup, h.known, h.ended, ?_, by simp, h.linked, h.traced⟩
  intro hsafe p hp hq hexit
  rcases h.covered hsafe p hp hq hexit with hx | hrun
  · have halive : s.alive p.identity = true := World.alive_iff.2 ⟨p, hp, rfl, hexit⟩
    rw [hdead p.identity hx.symm] at halive
    cases halive
  · exact .inr hrun

/-- A process that has not been counted may be. -/
theorem Invariant.withExtra (h : Invariant safe i {} s) (hnone : s.workspace.activeIds i = [])
    (x : ProcessIdentity) :
    Invariant safe i { extra := some x } s := by
  refine ⟨h.one, h.nodup, h.known, h.ended, fun hsafe p hp hq hexit => ?_, fun _ => hnone, h.linked,
    h.traced⟩
  rcases h.covered hsafe p hp hq hexit with hx | hrun
  · cases hx
  · exact .inr hrun

/-! ## The tables of the daemon -/

/-- What may be installed as the connection of a run. -/
def Fits (i r : Id) (running : AsyncRunningInstance) (s : World) : Prop :=
  running.runId = r ∧ ∀ x, running.identity = some x → x ∈ s.identities ∧
    ∀ run ∈ s.workspace.activeRuns i, run.runId = r → run.identity = x

theorem Fits.calm {running : AsyncRunningInstance} (h : Fits i r running s) (hc : Calm i s s') :
    Fits i r running s' := by
  refine ⟨h.1, fun x hx => ⟨hc.identities (h.2 x hx).1, ?_⟩⟩
  rw [hc.activeRuns]
  exact (h.2 x hx).2

/-- A connection that fits and whose process has ended belongs to a dead run. -/
theorem Fits.deadRun {running : AsyncRunningInstance} {x : ProcessIdentity}
    (h : Fits i r running s) (hinv : Invariant safe i c s) (hx : running.identity = some x)
    (hdead : s.alive x = false) : DeadRun i r s := by
  intro row hrow hid
  by_cases hactive : row.status.active = true
  · obtain ⟨hmem, hi⟩ := Workspace.mem_runsOf.1 hrow
    rw [(h.2 x hx).2 row (Workspace.mem_activeRuns.2 ⟨hmem, hi, hactive⟩) hid]
    exact hdead
  · exact hinv.ended row hrow (by simpa using hactive)

/-- A change of the supervisor entries: the new connection agrees with the active run. -/
theorem Invariant.setSupervisors {supervisors : Id → Option RunSupervisor} (h : Invariant safe i c s)
    (hlink : ∀ q q' x, ({ s with supervisors } : World).link i = some (q, q', x) →
      q = q' ∧ x ∈ s.identities ∧
        ∀ run ∈ s.workspace.activeRuns i, run.runId = q → run.identity = x) :
    Invariant safe i { c with skip := none } { s with supervisors } := by
  refine ⟨h.one, h.nodup, h.known, h.ended, h.covered, h.alone, ?_, h.traced⟩
  intro q q' x hl
  obtain ⟨hq, hx, hactive⟩ := hlink q q' x hl
  exact ⟨hq, hx, fun _ => hactive⟩

/-- An entry of another run: the connection that was to be installed is not missed. -/
theorem Invariant.unskip_of_entry (h : Invariant safe i c s)
    (hentry : ∀ owner, s.supervisors i = some owner → some owner.runId ≠ c.skip) :
    Invariant safe i { c with skip := none } s := by
  refine ⟨h.one, h.nodup, h.known, h.ended, h.covered, h.alone, ?_, h.traced⟩
  intro q q' x hlink
  obtain ⟨hq, hx, hactive⟩ := h.linked q q' x hlink
  refine ⟨hq, hx, fun _ => hactive ?_⟩
  obtain ⟨owner, howner, hlink⟩ := bind_eq_some_iff.1 hlink
  obtain ⟨running, _, hlink⟩ := bind_eq_some_iff.1 hlink
  obtain ⟨identity, _, hlink⟩ := map_eq_some_iff.1 hlink
  cases hlink
  exact hentry owner howner

/-- The installed connection fits. -/
theorem Invariant.fits_of_connection {running : AsyncRunningInstance} (h : Invariant safe i c s)
    (hskip : c.skip = none)
    (hrunning : (s.supervisors i).bind RunSupervisor.running = some running) :
    Fits i running.runId running s := by
  refine ⟨rfl, fun y hy => ?_⟩
  obtain ⟨owner, howner, hrunning⟩ := bind_eq_some_iff.1 hrunning
  have hlink : s.link i = some (owner.runId, running.runId, y) := by
    unfold World.link RunSupervisor.link
    rw [howner, bind_some, hrunning, bind_some, hy]
    rfl
  obtain ⟨hid, hx, hactive⟩ := h.linked _ _ _ hlink
  rw [← hid]
  refine ⟨hx, hactive ?_⟩
  rw [hskip]
  exact some_ne_none _

/-- A task follows a traced run. -/
theorem Invariant.follow (h : Invariant safe i c s) (hrun : run.instanceId = i → Traced i run s) :
    Invariant safe i { c with runs := run :: c.runs } s := by
  refine ⟨h.one, h.nodup, h.known, h.ended, h.covered, h.alone, h.linked, fun row hrow => ?_⟩
  rcases hrow with hrow | ⟨hmem, hi⟩
  · exact h.traced row (.inl hrow)
  · rcases mem_cons.1 hmem with rfl | hmem
    · exact hrun hi
    · exact h.traced row (.inr ⟨hmem, hi⟩)

/-- Fewer runs are followed. -/
theorem Invariant.followLess (h : Invariant safe i c s) {runs : List Run}
    (hruns : ∀ run ∈ runs, run ∈ c.runs) : Invariant safe i { c with runs } s :=
  ⟨h.one, h.nodup, h.known, h.ended, h.covered, h.alone, h.linked,
    fun run hrun => h.traced run (hrun.imp_right fun hmem => ⟨hruns run hmem.1, hmem.2⟩)⟩

/-- A change of the tables of the daemon that keeps the connection. -/
theorem Invariant.retable (h : Invariant safe i c s) (hworkspace : s'.workspace = s.workspace)
    (hprocs : s'.procs = s.procs) (hlink : s'.link i = s.link i)
    (hfollows : ∀ run, Follows i run s' → Follows i run s ∨ Traced i run s) :
    Invariant safe i c s' := by
  have hids : s'.identities = s.identities := congrArg (List.map Proc.identity) hprocs
  have halive : ∀ x, s'.alive x = s.alive x := fun x => by
    unfold World.alive
    rw [hprocs]
  have htraced : ∀ run, Traced i run s → Traced i run s' := by
    intro run hrun
    unfold Traced
    rw [hids, halive, hworkspace]
    exact hrun
  refine ⟨?_, ?_, ?_, ?_, ?_, ?_, ?_, ?_⟩
  · rw [hworkspace]
    exact h.one
  · rw [hids]
    exact h.nodup
  · rw [hworkspace, hids]
    exact h.known
  · intro run hrun hfinished
    rw [hworkspace] at hrun
    rw [halive]
    exact h.ended run hrun hfinished
  · rw [hworkspace, hprocs]
    exact h.covered
  · rw [hworkspace]
    exact h.alone
  · rw [hlink, hids, hworkspace]
    exact h.linked
  · rintro run (hrun | hrun)
    · rcases hfollows run hrun with hf | ht
      · exact htraced run (h.traced run (.inl hf))
      · exact htraced run ht
    · exact htraced run (h.traced run (.inr hrun))

theorem link_spawnRunEvents (s : World) (run : Run) :
    (spawnRunEvents s run).link i = s.link i := by
  unfold spawnRunEvents
  cases hown : ownEntry s run.instanceId run.runId with
  | none => rfl
  | some owner =>
    simp only
    split
    · rfl
    · show ({ s with supervisors := _ } : World).link i = s.link i
      rw [World.link_update]
      by_cases hi : i = run.instanceId
      · rw [if_pos hi, hi, (ownEntry_eq_some hown).2]
        rfl
      · rw [if_neg hi]

/-- The tasks that are started follow the run. -/
theorem follows_spawnRunEvents {row : Run} (h : Follows i row (spawnRunEvents s run)) :
    Follows i row s ∨ row = run := by
  unfold spawnRunEvents at h
  split at h
  · exact .inl h
  · split at h
    · exact .inl h
    · obtain ⟨hi, ⟨watch, hwatch, rfl⟩ | htail⟩ := h
      · rcases mem_append.1 hwatch with hold | hnew
        · exact .inl ⟨hi, .inl ⟨watch, hold, rfl⟩⟩
        · rw [mem_singleton] at hnew
          exact .inr (by rw [hnew])
      · exact .inl ⟨hi, .inr htail⟩

/-- The tasks of a traced run are started. -/
theorem Invariant.spawnRunEvents (h : Invariant safe i c s)
    (hrun : run.instanceId = i → Traced i run s) :
    Invariant safe i c (MachineEmu.spawnRunEvents s run) := by
  refine h.retable (workspace_spawnRunEvents s run) (procs_spawnRunEvents s run)
    (link_spawnRunEvents s run) fun row hrow => ?_
  rcases follows_spawnRunEvents hrow with hf | rfl
  · exact .inl hf
  · exact .inr (hrun hrow.1)

/-- A crash keeps the invariant when every QEMU that is alive has a run. -/
theorem Invariant.crash (h : Invariant safe i c s)
    (hrecorded : safe → ∀ p ∈ s.procs, p.isQemu i → p.exit = none →
      ∃ run ∈ s.workspace.runsOf i, run.identity = p.identity) :
    Invariant safe i {} s.crash := by
  refine ⟨h.one, h.nodup, h.known, h.ended, ?_, by simp, ?_, ?_⟩
  · intro hsafe p hp hq hexit
    obtain ⟨run, hrun, hx⟩ := hrecorded hsafe p hp hq hexit
    obtain ⟨hmem, hi⟩ := Workspace.mem_runsOf.1 hrun
    refine .inr ⟨run, Workspace.mem_activeRuns.2 ⟨hmem, hi, ?_⟩, hx⟩
    by_contra hfinished
    have hdead := h.ended run hrun (by simpa using hfinished)
    have halive : s.alive run.identity = true := World.alive_iff.2 ⟨p, hp, hx.symm, hexit⟩
    rw [hdead] at halive
    cases halive
  · intro q q' x hlink
    cases hlink
  · rintro run (⟨_, hrun⟩ | ⟨hrun, _⟩)
    · rcases hrun with ⟨watch, hwatch, _⟩ | htail
      · cases hwatch
      · cases htail
    · cases hrun

theorem Invariant.empty (safe : Prop) (i : Id) : Invariant safe i {} World.empty := by
  refine ⟨Nat.zero_le 1, nodup_nil, nofun, nofun, fun _ => nofun, by simp, ?_, ?_⟩
  · intro q q' x hlink
    cases hlink
  · rintro run (⟨_, hrun⟩ | ⟨hrun, _⟩)
    · rcases hrun with ⟨watch, hwatch, _⟩ | htail
      · cases hwatch
      · cases htail
    · cases hrun

end MachineEmu
