import MachineEmu.Storage.Lock

/-!
# The safety of the workspace lock

At most one process has the workspace open, a process that drops it removes its own lock file, and
the lock of a dead process can be acquired again. This holds as long as no process removes the lock
file of a running one, and no process dies before its lock file names it.

* `Safe`, `Careful` — the statement.
* `Sound`, `Invariant` — what the steps keep.
* `safe_of_careful` — the result.
-/

namespace MachineEmu

open Function

namespace WorkspaceLock

variable {w w' : World} {p q : Process} {phase : Phase}

/-! ## Statements -/

structure Safe (w : World) : Prop where
  exclusive : ∀ p q, w.Holds p → w.Holds q → p = q
  own : ∀ p file, w.Holds p → w.file = some file → file.creator = p
  recoverable : ∀ p, w.alive p = true → w.phase p = .closed →
    (∀ file, w.file = some file → w.alive file.creator = false) →
      ∃ ops w', (∀ op ∈ ops, op.process = p) ∧ w.steps ops = some w' ∧ w'.Holds p

/-- A process that removes the lock file as stale removes the one that it read, or one whose creator
is not running either; and a process that dies has written the owner to its lock file. -/
def Careful (w : World) : Op → Prop
  | .remove p => ∀ n file, w.phase p = .stale n → w.file = some file →
      file.number = n ∨ w.alive file.creator = false
  | .crash p => ∀ file, w.file = some file → file.creator = p → file.contents ≠ ""
  | _ => True

/-! ## The invariant -/

/-- What holds of a process in a phase: the lock file is the one that it created, or the file that
it read has the owner that it read, who is not running once the file is stale. -/
def Sound (w : World) (p : Process) : Phase → Prop
  | .created n => w.alive p = true → w.file = some ⟨n, p, ""⟩
  | .written n | .holding n => w.alive p = true → w.file = some ⟨n, p, ownerText p⟩
  | .owned n owner => n < w.nextFile ∧ ∀ file, w.file = some file → file.number = n →
      file.creator = owner ∧ file.contents = ownerText owner
  | .stale n => n < w.nextFile ∧ ∀ file, w.file = some file → file.number = n →
      w.alive file.creator = false
  | _ => True

/-- A lock file names its creator, or it is empty and its creator is running. -/
structure Invariant (w : World) : Prop where
  numbers : ∀ file, w.file = some file → file.number < w.nextFile
  contents : ∀ file, w.file = some file →
    (file.contents = "" ∧ w.alive file.creator = true) ∨ file.contents = ownerText file.creator
  sound : ∀ p, Sound w p (w.phase p)

theorem ownerText_ne_empty (p : Process) : ownerText p ≠ "" := by
  intro h
  have hparse := parseOwner_ownerText p
  rw [h, parseOwner_empty] at hparse
  cases hparse

/-- A process goes on to another phase. -/
theorem Invariant.enter (h : Invariant w) (hphase : Sound w p phase) :
    Invariant (w.enter p phase) := by
  refine ⟨h.numbers, h.contents, ?_⟩
  intro q
  unfold World.enter
  dsimp only
  rw [update_apply]
  split
  · next hq =>
    rw [hq]
    cases phase <;> exact hphase
  · have hsound := h.sound q
    revert hsound
    cases w.phase q <;> exact id

/-- The process has created a file, which it has as its lock file. -/
def Phase.Own (phase : Phase) (n : Nat) : Prop :=
  phase = .created n ∨ phase = .written n ∨ phase = .holding n

variable {n : Nat}

theorem Sound.own (h : Sound w q phase) (halive : w.alive q = true)
    (hphase : phase.Own n) : ∃ file, w.file = some file ∧ file.creator = q ∧ file.number = n := by
  obtain rfl | rfl | rfl := hphase
  · exact ⟨_, h halive, rfl, rfl⟩
  · exact ⟨_, h halive, rfl, rfl⟩
  · exact ⟨_, h halive, rfl, rfl⟩

/-- What a step of another process has to leave: the lock file of a process that has one, and
otherwise the creator and the owner of a file that is still there. -/
theorem Sound.frame (h : Sound w q phase) (hnext : w.nextFile ≤ w'.nextFile)
    (hown : ∀ n, phase.Own n → w'.alive q = true → w.alive q = true ∧ w'.file = w.file)
    (hread : ∀ file, w'.file = some file → file.number < w.nextFile → ∃ old, w.file = some old ∧
      old.number = file.number ∧ old.creator = file.creator ∧
      (old.contents ≠ "" → file.contents = old.contents))
    (hdead : ∀ r, w.alive r = false → w'.alive r = false) : Sound w' q phase := by
  cases phase with
  | created n =>
    intro halive
    obtain ⟨hbefore, hfile⟩ := hown n (.inl rfl) halive
    exact hfile.trans (h hbefore)
  | written n =>
    intro halive
    obtain ⟨hbefore, hfile⟩ := hown n (.inr (.inl rfl)) halive
    exact hfile.trans (h hbefore)
  | holding n =>
    intro halive
    obtain ⟨hbefore, hfile⟩ := hown n (.inr (.inr rfl)) halive
    exact hfile.trans (h hbefore)
  | owned n owner =>
    refine ⟨Nat.lt_of_lt_of_le h.1 hnext, ?_⟩
    rintro file hfile rfl
    obtain ⟨old, hold, hnumber, hcreator, hcontents⟩ := hread file hfile h.1
    obtain ⟨howner, htext⟩ := h.2 old hold hnumber
    refine ⟨hcreator.symm.trans howner, (hcontents ?_).trans htext⟩
    rw [htext]
    exact ownerText_ne_empty owner
  | stale n =>
    refine ⟨Nat.lt_of_lt_of_le h.1 hnext, ?_⟩
    rintro file hfile rfl
    obtain ⟨old, hold, hnumber, hcreator, -⟩ := hread file hfile h.1
    rw [← hcreator]
    exact hdead _ (h.2 old hold hnumber)
  | closed => trivial
  | found => trivial
  | removed => trivial

/-! ## Steps -/

/-- A phase that asks nothing of the world. -/
def Phase.Quiet (phase : Phase) : Prop := phase = .closed ∨ phase = .found ∨ phase = .removed

theorem Phase.Quiet.sound (h : phase.Quiet) : Sound w p phase := by
  obtain rfl | rfl | rfl := h <;> trivial

theorem Invariant.createNew (h : Invariant w) (halive : w.alive p = true) (hphase : phase.Quiet) :
    Invariant (w.createNew p phase) := by
  unfold World.createNew
  cases hfile : w.file with
  | some file => exact h.enter hphase.sound
  | none =>
    refine ⟨?_, ?_, ?_⟩
    · intro file hsome
      cases hsome
      exact Nat.lt_succ_self _
    · intro file hsome
      cases hsome
      exact .inl ⟨rfl, halive⟩
    · intro q
      unfold World.enter
      dsimp only
      rw [update_apply]
      split
      · next hq =>
        rw [hq]
        exact fun _ => rfl
      · refine (h.sound q).frame (Nat.le_succ _) ?_ ?_ fun _ hdead => hdead
        · -- without a lock file no other process has one
          intro n hn halive
          obtain ⟨file, hsome, -⟩ := (h.sound q).own halive hn
          rw [hfile] at hsome
          cases hsome
        · intro file hsome hnumber
          cases hsome
          exact absurd hnumber (Nat.lt_irrefl _)

theorem Invariant.readOwner (h : Invariant w) (p : Process) : Invariant (w.readOwner p) := by
  unfold World.readOwner
  cases hfile : w.file with
  | none => exact h.enter trivial
  | some file =>
    dsimp only
    cases hparse : parseOwner file.contents with
    | none => exact h.enter trivial
    | some owner =>
      apply h.enter
      refine ⟨h.numbers file hfile, ?_⟩
      intro same hsame _
      rw [hfile] at hsame
      cases hsame
      rcases h.contents file hfile with ⟨hempty, -⟩ | hcontents
      · rw [hempty, parseOwner_empty] at hparse
        cases hparse
      · rw [hcontents, parseOwner_ownerText] at hparse
        cases hparse
        exact ⟨rfl, hcontents⟩

theorem Invariant.probe (h : Invariant w) {owner : Process} (hphase : w.phase p = .owned n owner) :
    Invariant (w.enter p (if w.alive owner then .closed else .stale n)) := by
  have hsound := h.sound p
  rw [hphase] at hsound
  apply h.enter
  split
  · trivial
  · next hdead =>
    refine ⟨hsound.1, ?_⟩
    intro file hfile hnumber
    rw [(hsound.2 file hfile hnumber).1]
    exact Bool.eq_false_iff.2 hdead

/-- The file at the path is removed, and no running process but `p` has it as its own. -/
theorem Invariant.unlink (h : Invariant w) (hquiet : phase.Quiet)
    (hnobody : ∀ q n, q ≠ p → (w.phase q).Own n → w.alive q = false) :
    Invariant { w.enter p phase with file := none } := by
  refine ⟨?_, ?_, ?_⟩
  · intro file hsome
    cases hsome
  · intro file hsome
    cases hsome
  · intro q
    unfold World.enter
    dsimp only
    rw [update_apply]
    split
    · next hq =>
      rw [hq]
      exact hquiet.sound
    · next hq =>
      refine (h.sound q).frame (Nat.le_refl _) ?_ ?_ fun _ hdead => hdead
      · intro n hn halive
        have hdead := hnobody q n hq hn
        rw [show w.alive q = true from halive] at hdead
        cases hdead
      · intro file hsome
        cases hsome

/-- A running process whose lock file is at the path is its creator. -/
theorem Invariant.creator (h : Invariant w) {file : LockFile} (hfile : w.file = some file)
    (hown : (w.phase q).Own n) (hcreator : file.creator ≠ q) : w.alive q = false := by
  rw [Bool.eq_false_iff]
  intro halive
  obtain ⟨same, hsame, hq, -⟩ := (h.sound q).own halive hown
  rw [hfile] at hsame
  cases hsame
  exact hcreator hq

theorem Invariant.removeFile (h : Invariant w) (hphase : w.phase p = .stale n)
    (hcareful : Careful w (.remove p)) : Invariant (w.removeFile p) := by
  unfold World.removeFile
  cases hfile : w.file with
  | none => exact h.enter trivial
  | some file =>
    have hstale := h.sound p
    rw [hphase] at hstale
    -- the creator of the file is not running
    have hdead : w.alive file.creator = false := by
      rcases hcareful n file hphase hfile with hsame | hdead
      · exact hstale.2 file hfile hsame
      · exact hdead
    apply h.unlink (.inr (.inr rfl))
    intro q m _ hq
    by_cases hcreator : file.creator = q
    · rw [← hcreator, hdead]
    · exact h.creator hfile hq hcreator

theorem Invariant.writeOwner (h : Invariant w) (halive : w.alive p = true)
    (hphase : w.phase p = .created n) : Invariant (w.writeOwner p n) := by
  have hown := h.sound p
  rw [hphase] at hown
  have hfile : w.file = some ⟨n, p, ""⟩ := hown halive
  have hafter : (w.writeOwner p n).file = some ⟨n, p, ownerText p⟩ := by
    unfold World.writeOwner
    dsimp only
    rw [hfile, Option.map_some, if_pos rfl]
  refine ⟨?_, ?_, ?_⟩
  · intro file hsome
    rw [hafter] at hsome
    cases hsome
    exact h.numbers ⟨n, p, ""⟩ hfile
  · intro file hsome
    rw [hafter] at hsome
    cases hsome
    exact .inr rfl
  · intro q
    have hphases : (w.writeOwner p n).phase q = if q = p then .written n else w.phase q := by
      unfold World.writeOwner World.enter
      dsimp only
      rw [update_apply]
    rw [hphases]
    split
    · next hq =>
      rw [hq]
      exact fun _ => hafter
    · next hq =>
      refine (h.sound q).frame (Nat.le_refl _) ?_ ?_ fun _ hdead => hdead
      · intro m hm hlive
        have hdead := h.creator hfile hm (Ne.symm hq)
        rw [show w.alive q = true from hlive] at hdead
        cases hdead
      · intro file hsome _
        rw [hafter] at hsome
        cases hsome
        exact ⟨_, hfile, rfl, rfl, fun hempty => absurd rfl hempty⟩

theorem Invariant.drop (h : Invariant w) (halive : w.alive p = true)
    (hphase : w.phase p = .holding n) : Invariant { w.enter p .closed with file := none } := by
  have hown := h.sound p
  rw [hphase] at hown
  apply h.unlink (.inl rfl)
  intro q m hq hm
  exact h.creator (hown halive) hm (Ne.symm hq)

theorem Invariant.crash (h : Invariant w) (hcareful : Careful w (.crash p)) :
    Invariant { w with alive := Function.update w.alive p false } := by
  have hless : ∀ q, Function.update w.alive p false q = true → w.alive q = true := by
    intro q hq
    rw [update_apply] at hq
    split at hq
    · cases hq
    · exact hq
  refine ⟨h.numbers, ?_, ?_⟩
  · intro file hfile
    rcases h.contents file hfile with ⟨hempty, halive⟩ | hcontents
    · refine .inl ⟨hempty, ?_⟩
      dsimp only
      rw [update_of_ne, halive]
      exact fun hcreator => hcareful file hfile hcreator hempty
    · exact .inr hcontents
  · intro q
    refine (h.sound q).frame (Nat.le_refl _) ?_ ?_ ?_
    · exact fun n _ halive => ⟨hless q halive, rfl⟩
    · exact fun file hfile _ => ⟨file, hfile, rfl, rfl, fun _ => rfl⟩
    · intro r hdead
      rw [Bool.eq_false_iff] at hdead ⊢
      exact fun halive => hdead (hless r halive)

theorem invariant_step (h : Invariant w) {op : Op} (hcareful : Careful w op)
    (hstep : w.step op = some w') : Invariant w' := by
  unfold World.step at hstep
  split at hstep
  · next halive =>
    unfold World.stepAlive at hstep
    cases op with
    | create p =>
      dsimp only at hstep
      split at hstep
      · cases hstep
        exact h.createNew halive (.inr (.inl rfl))
      · cases hstep
        exact h.createNew halive (.inl rfl)
      · cases hstep
    | read p =>
      dsimp only at hstep
      split at hstep
      · cases hstep
        exact h.readOwner p
      · cases hstep
    | probe p =>
      dsimp only at hstep
      split at hstep
      · next hphase =>
        cases hstep
        exact h.probe hphase
      · cases hstep
    | remove p =>
      dsimp only at hstep
      split at hstep
      · next hphase =>
        cases hstep
        exact h.removeFile hphase hcareful
      · cases hstep
    | write p =>
      dsimp only at hstep
      split at hstep
      · next hphase =>
        cases hstep
        exact h.writeOwner halive hphase
      · cases hstep
    | sync p =>
      dsimp only at hstep
      split at hstep
      · next hphase =>
        cases hstep
        have hsound := h.sound p
        rw [hphase] at hsound
        exact h.enter hsound
      · cases hstep
    | fails p =>
      dsimp only at hstep
      split at hstep
      all_goals cases hstep
      all_goals exact h.enter trivial
    | drop p =>
      dsimp only at hstep
      split at hstep
      · next hphase =>
        cases hstep
        exact h.drop halive hphase
      · cases hstep
    | crash p =>
      cases hstep
      exact h.crash hcareful
  · cases hstep

theorem invariant_initial : Invariant World.initial where
  numbers := fun _ hsome => nomatch hsome
  contents := fun _ hsome => nomatch hsome
  sound := fun _ => trivial

theorem invariant_of_reachable (h : Reachable Careful w) : Invariant w := by
  induction h with
  | initial => exact invariant_initial
  | step _ hcareful hstep ih => exact invariant_step ih hcareful hstep

/-! ## Acquiring the lock again -/

/-- Without a lock file a process acquires the lock. -/
theorem acquires_of_no_file (halive : w.alive p = true)
    (hphase : w.phase p = .closed ∨ w.phase p = .removed) (hfile : w.file = none) :
    ∃ w', w.steps [.create p, .write p, .sync p] = some w' ∧ w'.Holds p := by
  obtain ⟨w₁, hcreate, halive₁, n, hphase₁⟩ : ∃ w₁, w.step (.create p) = some w₁ ∧
      w₁.alive p = true ∧ ∃ n, w₁.phase p = .created n := by
    refine ⟨w.createNew p .closed, ?_, ?_⟩
    · rw [World.step_of_alive halive]
      unfold World.stepAlive World.createNew
      dsimp only
      rw [hfile]
      rcases hphase with hphase | hphase <;> rw [hphase]
    · unfold World.createNew
      rw [hfile]
      exact ⟨halive, w.nextFile, w.enter_phase p _⟩
  have hwrite : w₁.step (.write p) = some (w₁.writeOwner p n) := by
    rw [World.step_of_alive halive₁]
    unfold World.stepAlive
    simp only [hphase₁]
  have hphase₂ : (w₁.writeOwner p n).phase p = .written n := w₁.enter_phase p _
  have hsync : (w₁.writeOwner p n).step (.sync p) =
      some ((w₁.writeOwner p n).enter p (.holding n)) := by
    rw [World.step_of_alive (show (w₁.writeOwner p n).alive p = true from halive₁)]
    unfold World.stepAlive
    simp only [hphase₂]
  refine ⟨(w₁.writeOwner p n).enter p (.holding n), ?_, halive₁, n, by simp⟩
  rw [World.steps_cons hcreate, World.steps_cons hwrite, World.steps_cons hsync]
  rfl

/-- The lock of a process that is not running is removed. -/
theorem removes_of_dead (h : Invariant w) (halive : w.alive p = true)
    (hphase : w.phase p = .closed) {file : LockFile} (hfile : w.file = some file)
    (hdead : w.alive file.creator = false) :
    ∃ w', w.steps [.create p, .read p, .probe p, .remove p] = some w' ∧
      w'.alive p = true ∧ w'.phase p = .removed ∧ w'.file = none := by
  have hcontents : file.contents = ownerText file.creator := by
    rcases h.contents file hfile with ⟨-, hrunning⟩ | hcontents
    · rw [hdead] at hrunning
      cases hrunning
    · exact hcontents
  have hparse : parseOwner file.contents = some file.creator := by
    rw [hcontents, parseOwner_ownerText]
  have hcreate : w.step (.create p) = some (w.enter p .found) := by
    rw [World.step_of_alive halive]
    unfold World.stepAlive World.createNew
    simp only [hphase, hfile]
  have hread : (w.enter p .found).step (.read p) =
      some ((w.enter p .found).enter p (.owned file.number file.creator)) := by
    rw [World.step_of_alive (show (w.enter p .found).alive p = true from halive)]
    unfold World.stepAlive World.readOwner
    simp only [World.enter_phase, World.enter_file, hfile, hparse]
  obtain ⟨w₂, hw₂⟩ : ∃ w₂, w₂ = (w.enter p .found).enter p (.owned file.number file.creator) :=
    ⟨_, rfl⟩
  rw [← hw₂] at hread
  have halive₂ : w₂.alive = w.alive := by rw [hw₂]; rfl
  have hfile₂ : w₂.file = some file := by rw [hw₂]; exact hfile
  have hphase₂ : w₂.phase p = .owned file.number file.creator := by rw [hw₂]; simp
  have hprobe : w₂.step (.probe p) = some (w₂.enter p (.stale file.number)) := by
    rw [World.step_of_alive (show w₂.alive p = true by rw [halive₂, halive])]
    unfold World.stepAlive
    simp only [hphase₂, halive₂, hdead]
    rfl
  have hremove : (w₂.enter p (.stale file.number)).step (.remove p) =
      some ((w₂.enter p (.stale file.number)).removeFile p) := by
    rw [World.step_of_alive (show w₂.alive p = true by rw [halive₂, halive])]
    unfold World.stepAlive
    simp only [World.enter_phase]
  refine ⟨(w₂.enter p (.stale file.number)).removeFile p, ?_, ?_⟩
  · rw [World.steps_cons hcreate, World.steps_cons hread, World.steps_cons hprobe,
      World.steps_cons hremove]
    rfl
  · unfold World.removeFile
    rw [World.enter_file, hfile₂]
    refine ⟨?_, ?_, rfl⟩
    · rw [← halive, ← halive₂]
      rfl
    · exact World.enter_phase _ p _

theorem steps_append {ops more : List Op} (h : w.steps ops = some w') :
    w.steps (ops ++ more) = w'.steps more := by
  induction ops generalizing w with
  | nil =>
    cases h
    rfl
  | cons op ops ih =>
    obtain ⟨w₁, hstep, hsteps⟩ := Option.bind_eq_some_iff.1 h
    rw [List.cons_append, World.steps_cons hstep]
    exact ih hsteps

theorem Invariant.recoverable (h : Invariant w) (halive : w.alive p = true)
    (hphase : w.phase p = .closed)
    (hdead : ∀ file, w.file = some file → w.alive file.creator = false) :
    ∃ ops w', (∀ op ∈ ops, op.process = p) ∧ w.steps ops = some w' ∧ w'.Holds p := by
  cases hfile : w.file with
  | none =>
    obtain ⟨w', hsteps, hholds⟩ := acquires_of_no_file halive (.inl hphase) hfile
    exact ⟨_, w', by simp [Op.process], hsteps, hholds⟩
  | some file =>
    obtain ⟨w₁, hremoves, halive₁, hphase₁, hfile₁⟩ :=
      removes_of_dead h halive hphase hfile (hdead file hfile)
    obtain ⟨w', hsteps, hholds⟩ := acquires_of_no_file halive₁ (.inr hphase₁) hfile₁
    exact ⟨_, w', by simp [Op.process], (steps_append hremoves).trans hsteps, hholds⟩

/-! ## The result -/

theorem Invariant.file_of_holds (h : Invariant w) (hholds : w.Holds p) :
    ∃ n, w.file = some ⟨n, p, ownerText p⟩ := by
  obtain ⟨halive, n, hphase⟩ := hholds
  have hsound := h.sound p
  rw [hphase] at hsound
  exact ⟨n, hsound halive⟩

/-- In every run in which a process that removes the lock file as stale removes the one that it
read, or one of another process that is not running, and no process dies before its lock file names
it, at most one process has the workspace open, it drops its own lock file, and the lock of a dead
process can be acquired. -/
theorem safe_of_careful (h : Reachable Careful w) : Safe w := by
  have hinvariant := invariant_of_reachable h
  constructor
  · intro p q hp hq
    obtain ⟨n, hfile⟩ := hinvariant.file_of_holds hp
    obtain ⟨m, hsame⟩ := hinvariant.file_of_holds hq
    rw [hfile] at hsame
    cases hsame
    rfl
  · intro p file hp hfile
    obtain ⟨n, hown⟩ := hinvariant.file_of_holds hp
    rw [hfile] at hown
    cases hown
    rfl
  · exact fun p halive hphase hdead => hinvariant.recoverable halive hphase hdead

/-- Some steps from a world that is reached, which are allowed. -/
theorem Reachable.steps {allowed : World → Op → Prop} (h : Reachable allowed w) {ops : List Op}
    (hallowed : ∀ w, ∀ op ∈ ops, allowed w op) (hsteps : w.steps ops = some w') :
    Reachable allowed w' := by
  induction ops generalizing w with
  | nil =>
    cases hsteps
    exact h
  | cons op ops ih =>
    obtain ⟨w₁, hstep, hrest⟩ := Option.bind_eq_some_iff.1 hsteps
    exact ih (h.step (hallowed w op List.mem_cons_self) hstep)
      (fun w op hop => hallowed w op (List.mem_cons_of_mem _ hop)) hrest

/-- A process that had the workspace open died, and another one can acquire the lock. -/
theorem safe_of_careful_dead :
    ∃ w : World, Safe w ∧ w.alive ⟨1, 1⟩ = false ∧ ∃ ops w', w.steps ops = some w' ∧
      w'.Holds ⟨2, 2⟩ := by
  have hruns : (World.initial.steps [.create ⟨1, 1⟩, .write ⟨1, 1⟩, .sync ⟨1, 1⟩]).map
      (fun w => (w.file, w.alive ⟨2, 2⟩, w.phase ⟨2, 2⟩, w.alive ⟨1, 1⟩)) =
        some (some ⟨0, ⟨1, 1⟩, ownerText ⟨1, 1⟩⟩, true, .closed, true) := by
    decide
  obtain ⟨w, hw, hresult⟩ := Option.map_eq_some_iff.1 hruns
  simp only [Prod.mk.injEq] at hresult
  obtain ⟨hfile, halive, hphase, hrunning⟩ := hresult
  have hreachable : Reachable Careful w := by
    refine Reachable.initial.steps ?_ hw
    intro w op hop
    simp only [List.mem_cons, List.not_mem_nil, or_false] at hop
    rcases hop with rfl | rfl | rfl <;> trivial
  have hcrash : w.step (.crash ⟨1, 1⟩) =
      some { w with alive := Function.update w.alive ⟨1, 1⟩ false } :=
    World.step_of_alive hrunning
  have hcareful : Careful w (.crash ⟨1, 1⟩) := by
    intro file hsome _
    rw [hfile] at hsome
    cases hsome
    exact ownerText_ne_empty _
  have hsafe := safe_of_careful (hreachable.step hcareful hcrash)
  have hother : Function.update w.alive ⟨1, 1⟩ false ⟨2, 2⟩ = true := by
    rw [update_of_ne (by decide), halive]
  have hdead : Function.update w.alive ⟨1, 1⟩ false ⟨1, 1⟩ = false := update_self _ _ _
  obtain ⟨ops, w', -, hsteps, hholds⟩ := hsafe.recoverable ⟨2, 2⟩ hother hphase (by
    intro file hsome
    rw [show w.file = some file from hsome] at hfile
    cases hfile
    exact hdead)
  exact ⟨_, hsafe, hdead, ops, w', hsteps, hholds⟩

/-- Two processes read the lock of a dead one; the second removes the lock of the first. -/
theorem not_safe : ¬∀ w, Reachable (fun _ _ => True) w → Safe w := by
  intro h
  have hruns : (World.initial.steps
      [.create ⟨1, 1⟩, .write ⟨1, 1⟩, .sync ⟨1, 1⟩, .crash ⟨1, 1⟩,
        .create ⟨2, 2⟩, .read ⟨2, 2⟩, .probe ⟨2, 2⟩,
        .create ⟨3, 3⟩, .read ⟨3, 3⟩, .probe ⟨3, 3⟩,
        .remove ⟨3, 3⟩, .create ⟨3, 3⟩, .write ⟨3, 3⟩, .sync ⟨3, 3⟩,
        .remove ⟨2, 2⟩, .create ⟨2, 2⟩, .write ⟨2, 2⟩, .sync ⟨2, 2⟩]).map
      (fun w => (w.alive ⟨2, 2⟩, w.phase ⟨2, 2⟩, w.alive ⟨3, 3⟩, w.phase ⟨3, 3⟩)) =
        some (true, .holding 2, true, .holding 1) := by
    decide
  obtain ⟨w, hw, hresult⟩ := Option.map_eq_some_iff.1 hruns
  simp only [Prod.mk.injEq] at hresult
  obtain ⟨halive, hphase, halive', hphase'⟩ := hresult
  have hsame := (h w (Reachable.initial.steps (fun _ _ _ => trivial) hw)).exclusive ⟨2, 2⟩ ⟨3, 3⟩
    ⟨halive, 2, hphase⟩ ⟨halive', 1, hphase'⟩
  revert hsame
  decide

end WorkspaceLock

end MachineEmu
