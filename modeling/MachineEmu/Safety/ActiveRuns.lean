import MachineEmu.Safety.OneQemu

/-!
# At most one active run

Every instance has at most one active run, whatever requests, crashes and other instances do: a
run is recorded only when the instance has none, and an instance is deleted only then. Both are
part of what the requests keep of the processes and runs, and hold whenever the daemon crashes.

* `at_most_one_active_run` — every reachable configuration and every step.
* `connected` — whom the tasks of the instance follow, and where its connection leads.
-/

namespace MachineEmu.ActiveRuns

open Lib Lib.Prog Lib.Service Act

/-- The discipline of the runs that promises nothing about the processes after a crash. -/
def discipline (i : Id) : Discipline (daemon i) (fun s => s = World.empty) (fun _ _ => True)
    (Quiet i) (OneQemu.Guarantee False i) :=
  OneQemu.discipline False i fun _ _ h => h.elim

/-- In every run of the daemon an instance has at most one active run, a run is recorded only when
there is none, and the instance is deleted only when there is none. -/
theorem at_most_one_active_run (i : Id) {c : Config World Reply Label Error Request}
    (hc : Runs i (fun _ _ => True) c) :
    (c.state.workspace.activeRuns i).length ≤ 1 ∧
      ∀ (c' : Config World Reply Label Error Request) (l : Label),
        Step (daemon i) c (.act l) c' →
          ((∃ r, l = .recordRun i r) ∨ l = .deleteInstance i) →
            c.state.workspace.activeRuns i = [] := by
  constructor
  · obtain ⟨⟨pending, hinv⟩, _⟩ := (discipline i).sound hc
    simpa [Workspace.activeIds] using hinv.one
  · intro c' l hstep hl
    have hact := (discipline i).act hc trivial hstep
    refine List.map_eq_nil_iff.1 (hact.inactive ?_)
    rcases hl with ⟨r, rfl⟩ | rfl <;> simp [Label.guarded]

/-- Two starts of the machine: the second is refused. -/
def startedTwice : List (Move World Reply Label Request) :=
  [vmCreate, .request (.start (vmStart "run")) (List.replicate 10 {}),
    .request (.start (vmStart "again")) [{}]]

theorem at_most_one_active_run_vm : ∃ s, play (daemon vm) (fun _ _ => true) startedTwice
      World.empty = some s ∧ s.workspace.activeRuns vm ≠ [] ∧
    (s.workspace.activeRuns vm).length ≤ 1 := by
  have hplay : (play (daemon vm) (fun _ _ => true) startedTwice World.empty).any
      (fun s => s.workspace.activeRuns vm ≠ []) = true := by decide
  obtain ⟨s, hs, hactive⟩ := (Option.any_eq_true _ _).1 hplay
  exact ⟨s, hs, by simpa using hactive,
    (at_most_one_active_run vm (runs_of_play (fun _ _ _ => trivial) hs)).1⟩

/-- In every run of the daemon a process that is alive and followed belongs to an active run. The
connection of the instance leads to a process that was started; when no request is in progress,
that of an active run leads to its own. -/
theorem connected (i : Id) {c : Config World Reply Label Error Request}
    (hc : Runs i (fun _ _ => True) c) :
    (∀ run, Follows i run c.state → Traced i run c.state) ∧
      ∀ q q' x, c.state.link i = some (q, q', x) → q = q' ∧ x ∈ c.state.identities ∧
        (c.busy = none → ∀ run ∈ c.state.workspace.activeRuns i, run.runId = q →
          run.identity = x) := by
  obtain ⟨⟨pending, hinv⟩, hbusy⟩ := (discipline i).sound hc
  refine ⟨fun run hrun => hinv.traced run (.inl hrun), fun q q' x hlink => ?_⟩
  obtain ⟨hsame, hknown, -⟩ := hinv.linked q q' x hlink
  refine ⟨hsame, hknown, fun hnone => ?_⟩
  rw [hnone] at hbusy
  exact (hbusy.linked q q' x hlink).2.2 nofun

theorem connected_vm : ∃ s, play (daemon vm) (fun _ _ => true) startedTwice World.empty = some s ∧
    ∃ q x, s.link vm = some (q, q, x) ∧
      ∀ run ∈ s.workspace.activeRuns vm, run.runId = q → run.identity = x := by
  have hplay : (play (daemon vm) (fun _ _ => true) startedTwice World.empty).any
      (fun s => (s.link vm).isSome) = true := by decide
  obtain ⟨s, hs, hlink⟩ := (Option.any_eq_true _ _).1 hplay
  obtain ⟨⟨q, q', x⟩, hlink⟩ := Option.isSome_iff_exists.1 hlink
  obtain ⟨rfl, -, hown⟩ := (connected vm (runs_of_play (fun _ _ _ => trivial) hs)).2 _ _ _ hlink
  exact ⟨s, hs, q, x, hlink, hown rfl⟩

end MachineEmu.ActiveRuns
