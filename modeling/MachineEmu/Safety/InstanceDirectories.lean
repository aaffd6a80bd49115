import MachineEmu.Lib.Service
import MachineEmu.Storage.Rows
import MachineEmu.Storage.Snapshots

/-!
# Instance directories under creation, removal and crashes

A workspace that publishes and removes instances, may be cut short before every call, and is then
opened again.

* `Consistent` — every row has its directory with a document, a pending deletion has no row, and
  a directory without either is marked.
* `Filled` — files come into the directory of an id without a row only all at once, from a staging
  directory, when the directory has none.
* `Reclaims` — a later creation makes way for itself.
* `instanceService`, `consistent_of_reachable` — every run.
* `not_rows_iff_documents` — a run that leaves a marked directory.
-/

namespace MachineEmu

open Lib Prog Service List FileTree

namespace Store

/-! ## Statements -/

/-- The directory of an instance has its document. -/
def HasDocument (t : FileTree) (directory : Path) : Prop :=
  ∃ bytes, t.look (directory ++ ["instance.yaml"]) = some (.file bytes)

/-- A directory has the marker of a creation that was not committed. -/
def IsMarked (t : FileTree) (directory : Path) : Prop :=
  ∃ bytes, t.look (directory ++ [".machineemu-create"]) = some (.file bytes)

/-- The rows and the directories of the instances agree, up to pending deletions and to marked
directories. -/
structure Consistent (handle : Handle) (s : Store) : Prop where
  instances : s.files.look handle.instances = some .dir
  directory : ∀ i bytes, s.files.look (handle.instanceDir i) ≠ some (.file bytes)
  document : ∀ i, s.tables.instanceRow i ≠ none → HasDocument s.files (handle.instanceDir i)
  pending : ∀ i ∈ s.tables.pendingInstanceDeletions,
    s.tables.instanceRow i = none ∧ Id.isValid i.asStr = true
  leftover : ∀ i, s.tables.instanceRow i = none → i ∉ s.tables.pendingInstanceDeletions →
    s.files.look (handle.instanceDir i) ≠ none → IsMarked s.files (handle.instanceDir i)

/-- A file appears in the directory of an id without a row only when the directory has no file, and
then the directory is the staging directory as it was. -/
def Filled (self : Handle) (s s' : Store) : Prop :=
  ∀ i, s.tables.instanceRow i = none →
    (∃ q bytes, s'.files.look (self.instanceDir i ++ q) = some (.file bytes) ∧
      s.files.look (self.instanceDir i ++ q) ≠ some (.file bytes)) →
    (∀ q bytes, s.files.look (self.instanceDir i ++ q) ≠ some (.file bytes)) ∧
      ∃ staged, ∀ q, s'.files.look (self.instanceDir i ++ q) =
        s.files.look (self.root ++ "staging" :: staged ++ q)

/-- The first steps of a creation remove what is left in the directory of its id. -/
def Reclaims (self : Handle) (i : Id) (s : Store) : Prop :=
  Ends Faultless (fun _ s' => s'.files.look (self.instanceDir i) = none ∧
      i ∉ s'.tables.pendingInstanceDeletions) (fun _ _ => False)
    ((finishInstanceDeletion self i).bind fun _ => clearDestination self i) s

/-- What else the workspace does leaves the rows of the instances, the pending deletions and the
directories of the ids without a row as they are, and keeps the documents. -/
structure Unrelated (handle : Handle) (s s' : Store) : Prop where
  instances : s.files.look handle.instances = some .dir →
    s'.files.look handle.instances = some .dir
  rows : ∀ i, s'.tables.instanceRow i = none ↔ s.tables.instanceRow i = none
  pending : s'.tables.pendingInstanceDeletions = s.tables.pendingInstanceDeletions
  directories : ∀ i, s.tables.instanceRow i = none → ∀ q,
    s'.files.look (handle.instanceDir i ++ q) = s.files.look (handle.instanceDir i ++ q)
  documents : ∀ i, s.tables.instanceRow i ≠ none → HasDocument s.files (handle.instanceDir i) →
    HasDocument s'.files (handle.instanceDir i)

/-! ## The service -/

/-- What the workspace is asked for. A staging directory is below `staging`; a run of an instance,
a change of its document, a preparation of a staging directory are `other` requests. -/
inductive InstanceRequest (handle : Handle) : Type where
  | publish (i imageId profileId : Id) (staged : Path) (planJson : String) (autoRemove : Bool)
  | remove (matches_ : ProcessIdentity → Bool) (i : Id)
  | other (f : Store → Store) (h : ∀ s, Unrelated handle s (f s))
  | reopen

/-- The ids of a request are validated. -/
def InstanceRequest.Valid {handle : Handle} : InstanceRequest handle → Prop
  | .publish i _ _ _ _ _ | .remove _ i => Id.isValid i.asStr = true
  | .other _ _ | .reopen => True

instance {handle : Handle} (r : InstanceRequest handle) : Decidable r.Valid :=
  match r with
  | .publish i _ _ _ _ _ | .remove _ i => inferInstanceAs (Decidable (Id.isValid i.asStr = true))
  | .other _ _ | .reopen => inferInstanceAs (Decidable True)

/-- The program of a request. -/
def InstanceRequest.task {handle : Handle} (yaml : Yaml) (documents : Documents) :
    InstanceRequest handle → Task Unit
  | .publish i imageId profileId staged planJson autoRemove =>
    (publishPreparedInstance handle yaml documents i imageId profileId
      (handle.root ++ "staging" :: staged) planJson autoRemove).bind fun _ => .ret ()
  | .remove matches_ i => removeInstance handle matches_ i
  | .other f _ => .act .database f fun _ => .ret ()
  | .reopen => openStore handle

/-- The workspace, which a crash cuts short and whose next process opens it again. -/
def instanceService (self : Handle) (yaml : Yaml) (documents : Documents) :
    Service Store Outcome Call Error (InstanceRequest self) where
  request := InstanceRequest.task yaml documents
  env := fun _ _ _ => False
  crash := id
  reopen := .reopen

/-- A workspace without instances. -/
structure NoInstances (handle : Handle) (s : Store) : Prop where
  instances : s.files.look handle.instances = some .dir
  directories : ∀ i, s.files.look (handle.instanceDir i) = none
  rows : ∀ i, s.tables.instanceRow i = none
  pending : s.tables.pendingInstanceDeletions = []

/-- The steps of a run: the ids of its requests are valid. -/
def Admits {self : Handle} (_ : Store) : Event Call (InstanceRequest self) → Prop
  | .accept r => r.Valid
  | _ => True

instance {handle : Handle} (s : Store) (e : Event Call (InstanceRequest handle)) :
    Decidable (Admits s e) :=
  match e with
  | .accept r => inferInstanceAs (Decidable r.Valid)
  | .act _ | .reply | .answer | .env _ | .crash => inferInstanceAs (Decidable True)

variable {self : Handle} {yaml : Yaml} {documents : Documents} {i j : Id} {s s' : Store}

/-! ## Changes elsewhere -/

theorem instanceDir_append (self : Handle) (i : Id) (q : Path) :
    self.instanceDir i ++ q = self.instances ++ i.asStr :: q := by
  simp [Handle.instanceDir]

/-- The rows, the pending deletions and everything below `instances` are the same. -/
structure Quiet (handle : Handle) (s s' : Store) : Prop where
  rows : ∀ i, s'.tables.instanceRow i = none ↔ s.tables.instanceRow i = none
  pending : s'.tables.pendingInstanceDeletions = s.tables.pendingInstanceDeletions
  files : ∀ q, s'.files.look (handle.instances ++ q) = s.files.look (handle.instances ++ q)

theorem Quiet.refl (self : Handle) (s : Store) : Quiet self s s :=
  ⟨fun _ => Iff.rfl, rfl, fun _ => rfl⟩

theorem Quiet.look (h : Quiet self s s') (i : Id) (q : Path) :
    s'.files.look (self.instanceDir i ++ q) = s.files.look (self.instanceDir i ++ q) := by
  rw [instanceDir_append]
  exact h.files _

theorem Quiet.unrelated (h : Quiet self s s') : Unrelated self s s' where
  instances hdir := by
    have hsame := h.files []
    rw [append_nil] at hsame
    rw [hsame]
    exact hdir
  rows := h.rows
  pending := h.pending
  directories i _ q := h.look i q
  documents i _ := fun ⟨bytes, hbytes⟩ => ⟨bytes, (h.look i _).trans hbytes⟩

theorem Unrelated.consistent (h : Unrelated self s s') (hs : Consistent self s) :
    Consistent self s' := by
  have hdir : ∀ i, s.tables.instanceRow i = none →
      s'.files.look (self.instanceDir i) = s.files.look (self.instanceDir i) := by
    intro i hrow
    have hsame := h.directories i hrow []
    rwa [append_nil] at hsame
  refine ⟨h.instances hs.instances, ?_, ?_, ?_, ?_⟩
  · intro i bytes hfile
    by_cases hrow : s.tables.instanceRow i = none
    · rw [hdir i hrow] at hfile
      exact hs.directory i bytes hfile
    · obtain ⟨b, hb⟩ := h.documents i hrow (hs.document i hrow)
      rw [look_append_of_file hfile (by simp)] at hb
      cases hb
  · intro i hrow
    have hrow' : s.tables.instanceRow i ≠ none := fun hnone => hrow ((h.rows i).2 hnone)
    exact h.documents i hrow' (hs.document i hrow')
  · intro i hi
    rw [h.pending] at hi
    exact ⟨(h.rows i).2 (hs.pending i hi).1, (hs.pending i hi).2⟩
  · intro i hrow hpending hthere
    have hrow' := (h.rows i).1 hrow
    rw [h.pending] at hpending
    rw [hdir i hrow'] at hthere
    obtain ⟨b, hb⟩ := hs.leftover i hrow' hpending hthere
    exact ⟨b, (h.directories i hrow' _).trans hb⟩

theorem Unrelated.filled (h : Unrelated self s s') : Filled self s s' := by
  rintro i hrow ⟨q, bytes, hnew, hold⟩
  rw [h.directories i hrow] at hnew
  exact absurd hnew hold

/-- What every act of a request keeps and guarantees. -/
abbrev Keeps {α : Type} (self : Handle) (Q : α → Store → Prop) (task : Task α) (s : Store) : Prop :=
  Ok (· = ·) (fun _ _ => True) (fun _ s s' => Consistent self s' ∧ Filled self s s') Q
    (fun _ => Consistent self) task s

theorem Consistent.same (hs : Consistent self s) : Consistent self s ∧ Filled self s s :=
  ⟨hs, (Quiet.refl self s).unrelated.filled⟩

theorem Unrelated.kept (h : Unrelated self s s') (hs : Consistent self s) :
    Consistent self s' ∧ Filled self s s' :=
  ⟨h.consistent hs, h.filled⟩

variable {α : Type} {task : Task α}

/-- A task that only reads. -/
theorem keeps_of_reads {Q : α → Store → Prop} (h : Reads task)
    (hs : Consistent self s) (hends : Ends (fun _ _ => True) Q (fun _ _ => True) task s) :
    Keeps self (fun a s' => Q a s' ∧ s' = s) task s := by
  refine (h.ok hends fun _ => hs.same).mono (fun _ _ h => h) ?_
  rintro e s' ⟨-, rfl⟩
  exact hs

/-- A task that does nothing to the instances. -/
theorem keeps_of_quiet {Q : α → Store → Prop}
    (h : Frame (fun _ => Quiet self) (fun _ => True) task) (hs : Consistent self s)
    (hends : Ends (fun _ _ => True) Q (fun _ _ => True) task s) :
    Keeps self (fun a s' => Q a s' ∧ Consistent self s') task s := by
  refine (hends.ok h hs (fun _ _ h => h) ?_).mono (fun _ _ h => h) fun _ _ h => h.2
  intro call s₁ s₂ hs₁ hquiet
  exact ⟨hquiet.unrelated.consistent hs₁, hquiet.unrelated.kept hs₁⟩

variable {p : Path}

/-- A call, with what it does to the files. -/
theorem keeps_change {call : Call} {f : FileTree → Option FileTree}
    {U : Unit → Store → Prop} (hs : Consistent self s)
    (h : ∀ t, f s.files = some t → Consistent self (s.withFiles t) ∧
      Filled self s (s.withFiles t) ∧ U () (s.withFiles t)) :
    Keeps self U (change call p f) s :=
  ok_change (fun _ => hs) hs.same fun t ht => ⟨⟨(h t ht).1, (h t ht).2.1⟩, (h t ht).2.2⟩

/-- A statement on the tables. -/
theorem keeps_statement {f : Workspace → Except Error α × Workspace}
    {Q : α → Store → Prop} (hs : Consistent self s)
    (hnext : Consistent self { s with tables := (f s.tables).2 })
    (h : ∀ a, (f s.tables).1 = .ok a → Q a { s with tables := (f s.tables).2 }) :
    Keeps self Q (statement f) s := by
  refine ok_statement (fun _ => hs) ⟨hnext, ?_⟩ (fun _ _ => hnext) h
  rintro i - ⟨q, bytes, hnew, hold⟩
  exact absurd hnew hold

/-! ## Removal -/

theorem instanceDir_inj (self : Handle) (h : self.instanceDir i = self.instanceDir j) : i = j := by
  have hname : i.asStr = j.asStr := by simpa [Handle.instanceDir] using h
  cases i
  cases j
  rw [Id.mk.injEq]
  exact hname

/-- The directories of two instances are apart. -/
theorem not_instanceDir_below (self : Handle) (hne : i ≠ j) (q : Path) :
    ¬ self.instanceDir i <+: self.instanceDir j ++ q := by
  have hname : i.asStr ≠ j.asStr := by
    intro h
    exact hne (instanceDir_inj self (by rw [Handle.instanceDir, Handle.instanceDir, h]))
  rw [instanceDir_append]
  exact not_below (p := []) hname

variable {t : FileTree}

/-- The directory of an id without a row is removed. -/
theorem kept_of_removed (hs : Consistent self s) (hrow : s.tables.instanceRow i = none)
    (h : ∀ q, t.look q = if self.instanceDir i <+: q then none else s.files.look q) :
    Consistent self (s.withFiles t) ∧ Filled self s (s.withFiles t) := by
  have hother : ∀ j, i ≠ j → ∀ q,
      t.look (self.instanceDir j ++ q) = s.files.look (self.instanceDir j ++ q) := by
    intro j hne q
    rw [h, if_neg (not_instanceDir_below self hne q)]
  have hself : ∀ q, t.look (self.instanceDir i ++ q) = none := by
    intro q
    rw [h, if_pos (prefix_append _ q)]
  have hself' : t.look (self.instanceDir i) = none := by simpa using hself []
  refine ⟨⟨?_, ?_, ?_, hs.pending, ?_⟩, ?_⟩
  · rw [withFiles_files, h, if_neg, hs.instances]
    exact not_prefix_of_length (by simp [Handle.instanceDir])
  · intro j bytes hfile
    rw [withFiles_files, h] at hfile
    split at hfile
    · cases hfile
    · exact hs.directory j bytes hfile
  · intro j hj
    have hne : i ≠ j := by
      rintro rfl
      exact hj hrow
    obtain ⟨bytes, hbytes⟩ := hs.document j hj
    exact ⟨bytes, (hother j hne _).trans hbytes⟩
  · intro j hj hpending hthere
    by_cases hne : i = j
    · rw [← hne] at hthere
      exact absurd hself' hthere
    · have hsame : t.look (self.instanceDir j) = s.files.look (self.instanceDir j) := by
        simpa using hother j hne []
      rw [withFiles_files, hsame] at hthere
      obtain ⟨bytes, hbytes⟩ := hs.leftover j hj hpending hthere
      exact ⟨bytes, (hother j hne _).trans hbytes⟩
  · rintro j - ⟨q, bytes, hnew, hold⟩
    rw [withFiles_files] at hnew
    by_cases hne : i = j
    · rw [← hne, hself] at hnew
      cases hnew
    · rw [hother j hne] at hnew
      exact absurd hnew hold

/-- The removal of a directory that may be missing. -/
theorem look_removeDirAllIfAny {t' : FileTree}
    (h : (if t.look p = none then some t else t.removeDirAll p) = some t') (q : Path) :
    t'.look q = if p <+: q then none else t.look q := by
  split at h
  · next hnone =>
    cases h
    split
    · next hbelow =>
      obtain ⟨r, rfl⟩ := hbelow
      exact look_append_of_none hnone r
    · rfl
  · exact look_removeDirAll h q

theorem reads_syncDirectory (p : Path) : Reads (syncDirectory p) := by
  apply reads_change
  intro t t' h
  split at h
  · cases h
  · exact (Option.some.inj h).symm

/-- A pending deletion is forgotten when its directory is gone. -/
theorem consistent_clearPendingDeletion (hs : Consistent self s)
    (hgone : s.files.look (self.instanceDir i) = none) :
    Consistent self { s with tables := s.tables.clearPendingDeletion i } := by
  refine ⟨hs.instances, hs.directory, hs.document, ?_, ?_⟩
  · intro j hj
    exact hs.pending j (mem_of_mem_filter hj)
  · intro j hrow hpending hthere
    by_cases hne : j = i
    · rw [hne] at hthere
      exact absurd hgone hthere
    · refine hs.leftover j hrow (fun hmem => hpending ?_) hthere
      exact mem_filter.2 ⟨hmem, by simpa using hne⟩

theorem keeps_finishInstanceDeletion (i : Id) (hs : Consistent self s) :
    Keeps self (fun _ s' => Consistent self s' ∧
        s'.tables.pendingInstanceDeletions = s.tables.pendingInstanceDeletions.filter (· ≠ i))
      (finishInstanceDeletion self i) s := by
  refine Ok.bind (keeps_of_reads (Q := fun pending s' =>
    pending = decide (i ∈ s.tables.pendingInstanceDeletions)) reads_select hs ?_) ?_
  · apply ends_select
    · exact fun _ _ _ _ => trivial
    · exact fun _ _ => trivial
    · intro pending hpending
      exact (Except.ok.inj hpending).symm
  rintro pending s₁ ⟨hpending, hs₁⟩
  rw [hs₁]
  split
  · next hfalse =>
    rw [hfalse] at hpending
    have hnot : i ∉ s.tables.pendingInstanceDeletions := of_decide_eq_false hpending.symm
    refine ⟨hs, (filter_eq_self.2 fun j hj => ?_).symm⟩
    have hne : j ≠ i := by
      rintro rfl
      exact hnot hj
    simpa using hne
  · next htrue =>
    rw [Bool.not_eq_false] at htrue
    rw [htrue] at hpending
    have hmem : i ∈ s.tables.pendingInstanceDeletions := of_decide_eq_true hpending.symm
    refine Ok.bind (M := fun _ s' => Consistent self s' ∧ s'.tables = s.tables ∧
      s'.files.look (self.instanceDir i) = none) (keeps_change hs fun t ht => ?_) ?_
    · have hlook := look_removeDirAllIfAny ht
      have hkept := kept_of_removed hs (hs.pending i hmem).1 hlook
      refine ⟨hkept.1, hkept.2, hkept.1, rfl, ?_⟩
      rw [withFiles_files, hlook, if_pos prefix_rfl]
    rintro _ s₂ ⟨hs₂, htables, hgone⟩
    refine Ok.bind (keeps_of_reads (reads_syncDirectory _) hs₂
      (Ends.always (Q := fun _ _ => True) (fun _ _ => trivial) fun _ _ => trivial)) ?_
    rintro _ s₃ ⟨-, hs₃⟩
    rw [hs₃]
    have hclear := consistent_clearPendingDeletion hs₂ hgone
    refine Ok.bind (keeps_statement hs₂ hclear (Q := fun _ s' => s' =
      { s₂ with tables := s₂.tables.clearPendingDeletion i }) fun _ _ => rfl) ?_
    rintro _ s₄ rfl
    refine ⟨hclear, ?_⟩
    show s₂.tables.pendingInstanceDeletions.filter _ = _
    rw [htables]

/-- A statement that keeps the ids of the rows and the pending deletions. -/
theorem keeps_quiet_statement {f : Workspace → Except Error α × Workspace} (hs : Consistent self s)
    (hrows : ∀ i, (f s.tables).2.instanceRow i = none ↔ s.tables.instanceRow i = none)
    (hpending : (f s.tables).2.pendingInstanceDeletions = s.tables.pendingInstanceDeletions) :
    Keeps self (fun _ s' => Consistent self s' ∧
      s'.tables.pendingInstanceDeletions = s.tables.pendingInstanceDeletions) (statement f) s := by
  have hquiet : Quiet self s { s with tables := (f s.tables).2 } := ⟨hrows, hpending, fun _ => rfl⟩
  have hnext := hquiet.unrelated.consistent hs
  exact keeps_statement hs hnext fun _ _ => ⟨hnext, hpending⟩

theorem keeps_select {f : Workspace → Except Error α} (hs : Consistent self s) :
    Keeps self (fun _ s' => s' = s) (select f) s :=
  (keeps_of_reads reads_select hs (Ends.always (Q := fun _ _ => True) (fun _ _ => trivial)
    fun _ _ => trivial)).mono (fun _ _ h => h.2) fun _ _ h => h

theorem keeps_endActiveRun {matches_ : ProcessIdentity → Bool} {instance_ : Instance}
    (hs : Consistent self s) : Keeps self (fun _ s' => Consistent self s' ∧
      s'.tables.pendingInstanceDeletions = s.tables.pendingInstanceDeletions)
      (endActiveRun matches_ instance_) s := by
  refine Ok.bind (keeps_select hs) ?_
  rintro active s₁ rfl
  cases active with
  | none => exact ⟨hs, rfl⟩
  | some active =>
    refine Ok.bind (keeps_quiet_statement hs ?_ ?_) ?_
    · intro j
      rcases s₁.tables.reconcileRun_cases matches_ active.runId with ⟨_, _, h⟩ | ⟨_, _, h⟩
      · rw [h]
        exact Iff.rfl
      · rw [h]
    · rcases s₁.tables.reconcileRun_cases matches_ active.runId with ⟨_, _, h⟩ | ⟨_, _, h⟩
      · rw [h]
        rfl
      · rw [h]
    rintro reconciled s₂ ⟨hs₂, hpending₂⟩
    split
    · exact hs₂
    have hfailed : RunStatus.failed = .exited ∨ RunStatus.failed = .failed ∨
        RunStatus.failed = .uncertain := .inr (.inl rfl)
    refine Ok.bind (keeps_quiet_statement hs₂ ?_ ?_) ?_
    · intro j
      rcases s₂.tables.finishRun_cases active.runId hfailed with
        ⟨_, _, h⟩ | ⟨_, _, h⟩
      · rw [h]
        exact Iff.rfl
      · rw [h]
        exact Iff.rfl
    · rcases s₂.tables.finishRun_cases active.runId hfailed with
        ⟨_, _, h⟩ | ⟨_, _, h⟩
      · rw [h]
        rfl
      · rw [h]
        rfl
    rintro _ s₃ ⟨hs₃, hpending₃⟩
    refine Ok.bind (keeps_quiet_statement hs₃ ?_ ?_) ?_
    · intro j
      rw [Workspace.instanceRow_setLifecycle]
      split
      · next heq =>
        rw [heq]
        simp
      · exact Iff.rfl
    · rfl
    rintro _ s₄ ⟨hs₄, hpending₄⟩
    refine (keeps_select hs₄).mono ?_ fun _ _ h => h
    rintro _ _ rfl
    exact ⟨hs₄, hpending₄.trans (hpending₃.trans hpending₂)⟩

/-- The row of an instance goes and its deletion is pending. -/
theorem consistent_deleteInstance (hs : Consistent self s) (hi : Id.isValid i.asStr = true) :
    Consistent self { s with tables := s.tables.deleteInstance i } := by
  have hrow : ∀ j, j ≠ i → (s.tables.deleteInstance i).instanceRow j = s.tables.instanceRow j := by
    intro j hne
    show (s.tables.instances.filter _).find? j = _
    rw [Table.find?_filter]
    unfold Workspace.instanceRow
    cases hfind : s.tables.instances.find? j with
    | none => rfl
    | some row =>
      have hkey := (Table.mem_of_find? hfind).2
      exact Option.filter_some_pos (by simpa [hkey] using hne)
  refine ⟨hs.instances, hs.directory, ?_, ?_, ?_⟩
  · intro j hj
    have hne : j ≠ i := by
      rintro rfl
      exact hj Workspace.instanceRow_deleteInstance
    exact hs.document j fun hnone => hj ((hrow j hne).trans hnone)
  · intro j hj
    rcases mem_append.1 hj with hold | hnew
    · by_cases hne : j = i
      · rw [hne]
        exact ⟨Workspace.instanceRow_deleteInstance, hi⟩
      · exact ⟨(hrow j hne).trans (hs.pending j hold).1, (hs.pending j hold).2⟩
    · rw [mem_singleton.1 hnew]
      exact ⟨Workspace.instanceRow_deleteInstance, hi⟩
  · intro j hj hpending hthere
    have hnot : j ∉ s.tables.pendingInstanceDeletions ∧ j ≠ i := by
      constructor
      · exact fun hmem => hpending (mem_append_left _ hmem)
      · rintro rfl
        exact hpending (mem_append_right _ (mem_singleton_self _))
    rw [hrow j hnot.2] at hj
    exact hs.leftover j hj hnot.1 hthere

theorem keeps_removeInstance {matches_ : ProcessIdentity → Bool} (hs : Consistent self s)
    (hi : Id.isValid i.asStr = true) :
    Keeps self (fun _ => Consistent self) (removeInstance self matches_ i) s := by
  refine Ok.bind (keeps_finishInstanceDeletion i hs) ?_
  rintro finished s₁ ⟨hs₁, -⟩
  split
  · exact hs₁
  refine Ok.bind (keeps_select hs₁) ?_
  rintro row s₂ hs₂
  rw [hs₂]
  refine Ok.bind (keeps_endActiveRun hs₁) ?_
  rintro row s₃ ⟨hs₃, -⟩
  split
  · exact hs₃
  refine Ok.bind (keeps_select hs₃) ?_
  rintro snapshots s₄ hs₄
  rw [hs₄]
  split
  · exact hs₃
  have hdeleted := consistent_deleteInstance hs₃ hi
  refine Ok.bind (M := fun _ => Consistent self)
    (keeps_statement hs₃ hdeleted fun _ _ => hdeleted) ?_
  intro _ s₅ hs₅
  refine Ok.bind (keeps_finishInstanceDeletion i hs₅) ?_
  exact fun _ _ h => h.1

/-! ## The reopening -/

theorem keeps_createDirAll {a : String} (hs : Consistent self s) :
    Keeps self (fun _ s' => Consistent self s' ∧ s'.tables = s.tables)
      (createDirAll (self.root ++ [a])) s := by
  refine keeps_change hs fun t ht => ?_
  have hquiet : Quiet self s (s.withFiles t) := by
    refine ⟨fun _ => Iff.rfl, rfl, fun q => ?_⟩
    rw [withFiles_files, look_createDirAll ht]
    split
    · next hbelow =>
      have hempty : q = [] := by
        have hlength := hbelow.length_le
        simp only [Handle.instances, length_append, length_singleton] at hlength
        exact eq_nil_of_length_eq_zero (by omega)
      rw [hempty, append_nil, hs.instances]
    · rfl
  have hkept := hquiet.unrelated.kept hs
  exact ⟨hkept.1, hkept.2, hkept.1, rfl⟩

theorem keeps_finishEachDeletion (ids : List Id) (hs : Consistent self s) :
    Keeps self (fun _ s' => Consistent self s' ∧ s'.tables.pendingInstanceDeletions =
        s.tables.pendingInstanceDeletions.filter (· ∉ ids)) (finishEachDeletion self ids) s := by
  induction ids generalizing s with
  | nil => exact ⟨hs, by simp⟩
  | cons i rest ih =>
    refine Ok.bind (M := fun i' s' => s' = s ∧ i' = i) (ok_ofExcept.2 ⟨?_, fun _ _ => hs⟩) ?_
    · intro i' hnew
      have hname := Id.new_ok hnew
      refine ⟨rfl, ?_⟩
      cases i
      cases i'
      rw [Id.mk.injEq]
      exact hname
    rintro i' s₁ ⟨hs₁, rfl⟩
    rw [hs₁]
    refine Ok.bind (keeps_finishInstanceDeletion i' hs) ?_
    rintro _ s₂ ⟨hs₂, hpending⟩
    refine (ih hs₂).mono ?_ fun _ _ h => h
    rintro _ s₃ ⟨hs₃, hrest⟩
    refine ⟨hs₃, ?_⟩
    rw [hrest, hpending, filter_filter]
    refine filter_congr fun j _ => ?_
    rw [Bool.eq_iff_iff]
    simp
    tauto

/-- After a reopening no deletion is pending. -/
theorem keeps_openStore (hs : Consistent self s) :
    Keeps self (fun _ s' => Consistent self s' ∧ s'.tables.pendingInstanceDeletions = [])
      (openStore self) s := by
  refine (keeps_createDirAll hs).bind ?_
  rintro _ s₁ ⟨hs₁, -⟩
  refine (keeps_createDirAll hs₁).bind ?_
  rintro _ s₂ ⟨hs₂, -⟩
  refine (keeps_createDirAll hs₂).bind ?_
  rintro _ s₃ ⟨hs₃, -⟩
  refine (keeps_createDirAll hs₃).bind ?_
  rintro _ s₄ ⟨hs₄, -⟩
  refine Ok.bind (keeps_of_reads (Q := fun ids _ => ids = s₄.tables.pendingInstanceDeletions)
    reads_select hs₄ ?_) ?_
  · apply ends_select
    · exact fun _ _ _ _ => trivial
    · exact fun _ _ => trivial
    · exact fun ids hids => (Except.ok.inj hids).symm
  rintro ids s₅ ⟨hids, hs₅⟩
  rw [hs₅]
  refine (keeps_finishEachDeletion ids hs₄).mono ?_ fun _ _ h => h
  rintro _ s₆ ⟨hs₆, hpending⟩
  refine ⟨hs₆, ?_⟩
  rw [hpending, hids, filter_eq_nil_iff]
  intro j hj
  simpa using hj

/-! ## Creation -/

theorem reads_image (imageId : Id) : Reads (image self yaml imageId) := by
  refine reads_ofExcept.bind fun _ => ?_
  refine reads_readFile.bind fun bytes => ?_
  split
  · exact reads_throw
  · exact reads_ofExcept.bind fun _ => reads_ret

theorem reads_canonicalize (p : Path) : Reads (canonicalize p) := by
  apply reads_change
  intro t t' h
  split at h
  · cases h
  · exact (Option.some.inj h).symm

theorem reads_emptyLegacyEntries (directory : Path) (names : List String) :
    Reads (emptyLegacyEntries directory names) := by
  induction names with
  | nil => exact reads_ret
  | cons name rest ih =>
    unfold emptyLegacyEntries
    split
    · exact reads_ret
    refine reads_metadata.bind fun entry => ?_
    split
    · exact reads_ret
    refine reads_readDir.bind fun names => ?_
    split
    · exact reads_ret
    · exact ih

theorem reads_isReplaceable (p : Path) : Reads (isReplaceable i p) := by
  refine reads_metadata.bind fun found => ?_
  split
  · exact reads_ret
  refine reads_select.attempt.bind fun row => ?_
  split
  · refine reads_isFile.bind fun marked => ?_
    split
    · exact reads_ret
    · exact reads_readDir.bind fun names => reads_emptyLegacyEntries p names
  · exact reads_ret

theorem reads_readStagedProfile (directory : Path) :
    Reads (readStagedProfile self documents directory) := by
  refine reads_metadata.bind fun found => ?_
  split
  · exact reads_ret
  refine Reads.bind ?_ fun _ => Reads.bind ?_ fun _ => reads_ret
  · refine (reads_canonicalize _).bind fun _ => ?_
    refine (reads_canonicalize _).bind fun _ => ?_
    refine (reads_canonicalize _).bind fun _ => ?_
    split
    · exact reads_ret
    · exact reads_throw
  · refine reads_readFile.bind fun bytes => ?_
    split
    · exact reads_ret
    · exact reads_throw

theorem reads_readStagedDomain (directory : Path) :
    Reads (readStagedDomain documents directory) := by
  refine reads_metadata.bind fun found => ?_
  split
  · exact reads_ret
  refine reads_readFile.bind fun _ => Reads.bind ?_ fun _ => reads_ret
  refine reads_readFile.bind fun bytes => ?_
  split
  · exact reads_ret
  · exact reads_throw

theorem keeps_reads (h : Reads task) (hs : Consistent self s) :
    Keeps self (fun _ s' => s' = s) task s :=
  (keeps_of_reads h hs (Ends.always (Q := fun _ _ => True) (fun _ _ => trivial)
    fun _ _ => trivial)).mono (fun _ _ h => h.2) fun _ _ h => h

/-- Only the directory of an id without a row is replaced. -/
theorem ends_isReplaceable (p : Path) : Ends (fun _ _ => True)
    (fun replaceable _ => replaceable = true → s.tables.instanceRow i = none)
    (fun _ _ => True) (isReplaceable i p) s := by
  refine Ends.value (ends_metadata (fun _ _ _ _ => trivial)) fun found _ => ?_
  split
  · exact nofun
  have hrow : Ends (fun _ _ => True) (fun _ _ => True)
      (fun e _ => ∀ kind id, e = .notFound kind id → s.tables.instanceRow i = none)
      (select fun w => w.instance_ i) s := by
    refine Ends.ask fun o _ => ?_
    cases o.fault with
    | some detail => exact nofun
    | none => exact ends_stepE.2 ⟨fun _ _ => trivial, fun e he _ _ _ =>
        Workspace.instance_eq_error he⟩
  refine Ends.bind (M := fun row _ => ∀ kind id, row = .error (.notFound kind id) →
    s.tables.instanceRow i = none) (Ends.attempt (hrow.mono ?_ ?_)) ?_
  · exact fun _ _ _ => nofun
  · intro e _ he kind id heq
    exact he kind id (Except.error.inj heq)
  intro row s₂ hnone
  split
  · exact Ends.always (fun _ _ _ => hnone _ _ rfl) fun _ _ => trivial
  · exact nofun

/-- The way is clear for a new instance. -/
theorem keeps_clearDestination (hs : Consistent self s) :
    Keeps self (fun _ s' => Consistent self s' ∧ s'.tables = s.tables ∧
      s'.files.look (self.instanceDir i) = none) (clearDestination self i) s := by
  refine Ok.bind (keeps_of_reads (Q := fun taken _ =>
    taken = decide (s.files.look (self.instanceDir i) ≠ none)) reads_exists hs
    (ends_exists rfl)) ?_
  rintro taken s₁ ⟨htaken, hs₁⟩
  rw [hs₁]
  split
  · refine Ok.bind (keeps_of_reads (reads_isReplaceable _) hs (ends_isReplaceable _)) ?_
    rintro replaceable s₂ ⟨hrow, hs₂⟩
    rw [hs₂]
    split
    · next htrue =>
      refine keeps_change hs fun t ht => ?_
      have hlook := look_removeDirAll ht
      have hkept := kept_of_removed hs (hrow htrue) hlook
      refine ⟨hkept.1, hkept.2, hkept.1, rfl, ?_⟩
      rw [withFiles_files, hlook, if_pos prefix_rfl]
    · exact hs
  · next hfree =>
    rw [htaken, decide_eq_true_iff, not_not] at hfree
    exact ⟨hs, rfl, hfree⟩

/-- A change below `staging`. -/
theorem quiet_of_staging (staged : Path)
    (h : ∀ q, ¬ self.root ++ "staging" :: staged <+: q → t.look q = s.files.look q) :
    Quiet self s (s.withFiles t) := by
  refine ⟨fun _ => Iff.rfl, rfl, fun q => h _ ?_⟩
  have heq : self.instances ++ q = self.root ++ "instances" :: q := by simp [Handle.instances]
  rw [heq]
  exact not_below (by decide)

/-- A call that changes the files below `staging` only. -/
theorem frame_change_staging (staged : Path) {call : Call} {f : FileTree → Option FileTree}
    (h : ∀ t t', f t = some t' → ∀ q, ¬ self.root ++ "staging" :: staged <+: q →
      t'.look q = t.look q) :
    Frame (fun _ => Quiet self) (fun _ => True) (change call p f) := by
  refine Frame.ask fun o => ?_
  cases o.fault with
  | some detail => trivial
  | none =>
    refine ⟨fun s => ?_, fun s => ?_⟩
    · dsimp only
      cases hf : f s.files with
      | none => exact Quiet.refl self s
      | some t => exact quiet_of_staging staged (h _ _ hf)
    · dsimp only
      split <;> trivial

variable {bytes : List UInt8} {staged : Path}

theorem frame_write_staging (hp : self.root ++ "staging" :: staged <+: p) :
    Frame (fun _ => Quiet self) (fun _ => True)
      (perform (.write p) p (·.write p bytes) : Task Unit) := by
  refine ⟨fun s => ?_, fun s => ?_⟩
  · dsimp only
    cases hf : s.files.write p bytes with
    | none => exact Quiet.refl self s
    | some t =>
      refine quiet_of_staging staged fun q hq => ?_
      rw [Option.getD_some, look_write hf, if_neg]
      rintro rfl
      exact hq hp
  · dsimp only
    split <;> trivial

theorem frame_writeAll_staging (hp : self.root ++ "staging" :: staged <+: p) :
    Frame (fun _ => Quiet self) (fun _ => True) (writeAll p bytes) := by
  refine Frame.ask fun o => ?_
  cases o.fault with
  | some detail => exact (frame_write_staging hp).andThen fun _ => frame_throw
  | none => exact frame_write_staging hp

theorem Reads.quiet (h : Reads task) : Frame (fun _ => Quiet self) (fun _ => True) task := by
  refine Frame.mono h ?_ fun _ h => h
  rintro _ s s' rfl
  exact Quiet.refl self _

theorem frame_onError {cleanup : Task Unit} (h : Frame (fun _ => Quiet self) (fun _ => True) task)
    (h' : Frame (fun _ => Quiet self) (fun _ => True) cleanup) :
    Frame (fun _ => Quiet self) (fun _ => True) (onError task cleanup) := by
  refine Frame.bind h.attempt fun r _ => ?_
  cases r with
  | ok a => exact frame_ret.2 trivial
  | error e =>
    refine Frame.bind (V := fun _ => True) ?_ fun _ _ => frame_throw
    exact Frame.bind h'.attempt fun _ _ => frame_ret.2 trivial

/-- The document of a prepared instance is written below `staging`. -/
theorem frame_atomicConfigurationFile {name : String} :
    Frame (fun _ => Quiet self) (fun _ => True)
      (atomicConfigurationFile self (self.root ++ "staging" :: staged ++ [name]) bytes) := by
  unfold atomicConfigurationFile
  simp only [dropLast_concat]
  refine (reads_canonicalize _).quiet.andThen fun _ => ?_
  refine (reads_canonicalize _).quiet.andThen fun _ => ?_
  split
  · exact frame_throw
  refine Frame.andThen (fun _ => trivial) fun nanos => ?_
  have hin : ∀ a, self.root ++ "staging" :: staged <+: self.root ++ "staging" :: staged ++ [a] :=
    fun a => prefix_append _ _
  refine frame_onError ?_ (frame_change_staging staged fun t t' ht q hq => ?_)
  · refine (frame_change_staging staged fun t t' ht q hq => ?_).andThen fun _ => ?_
    · split at ht
      · rw [look_write ht, if_neg]
        rintro rfl
        exact hq (hin _)
      · cases ht
    refine (frame_writeAll_staging (hin _)).andThen fun _ => ?_
    refine (Reads.quiet (reads_change fun t t' ht => (Option.some.inj ht).symm)).andThen fun _ => ?_
    refine (frame_change_staging staged fun t t' ht q hq => ?_).andThen fun _ => ?_
    · by_cases hne : self.root ++ "staging" :: staged ++ [self.temporary "instance" nanos] =
          self.root ++ "staging" :: staged ++ [name]
      · rw [hne] at ht
        unfold FileTree.rename at ht
        split at ht
        · cases ht
        · rw [if_pos rfl] at ht
          cases ht
          rfl
      · rw [look_rename ht hne, if_neg fun h => hq ((hin _).trans h),
          if_neg fun h => hq ((hin _).trans h)]
    · exact (reads_syncDirectory _).quiet
  · rw [look_removeFile ht, if_neg]
    rintro rfl
    exact hq (hin _)

/-- The document is in its place. -/
theorem ends_atomicConfigurationFile {directory : Path} {name : String}
    (hname : ∀ nanos, self.temporary "instance" nanos ≠ name) :
    Ends (fun _ _ => True)
      (fun _ s' => s'.tables = s.tables ∧
        s'.files.look (directory ++ [name]) = some (.file bytes) ∧
        ∀ q, ¬ directory <+: q → s'.files.look q = s.files.look q)
      (fun _ _ => True) (atomicConfigurationFile self (directory ++ [name]) bytes) s := by
  unfold atomicConfigurationFile
  simp only [dropLast_concat]
  refine ((reads_canonicalize _).ends.mono (fun _ _ h => h) fun _ _ _ => trivial).bind ?_
  rintro _ s₁ hs₁
  rw [hs₁]
  refine ((reads_canonicalize _).ends.mono (fun _ _ h => h) fun _ _ _ => trivial).bind ?_
  rintro _ s₂ hs₂
  rw [hs₂]
  split
  · trivial
  refine Ends.ask fun o _ => ?_
  have hne : directory ++ [self.temporary "instance" o.nanos] ≠ directory ++ [name] := by
    intro h
    exact hname o.nanos (by simpa using h)
  refine ends_onError (Ends.mono (X := fun _ _ => True) ?_ (fun _ _ h => h) fun _ _ _ =>
    Ends.always (fun _ _ _ => trivial) fun _ _ _ => trivial)
  refine Ends.bind (M := fun _ s' => ∃ t,
    s.files.write (directory ++ [self.temporary "instance" o.nanos]) [] = some t ∧
      s' = s.withFiles t) ?_ ?_
  · refine ends_change (fun _ _ _ _ => trivial) (fun _ _ => trivial) fun t ht => ?_
    split at ht
    · exact ⟨t, ht, rfl⟩
    · cases ht
  rintro _ _ ⟨t₁, ht₁, rfl⟩
  refine Ends.bind (M := fun _ s' => ∃ t, s' = s.withFiles t ∧ ∀ q, t.look q =
    if q = directory ++ [self.temporary "instance" o.nanos] then some (.file bytes)
      else s.files.look q) ?_ ?_
  · refine ends_writeAll (fun _ _ _ _ _ _ => trivial) (fun _ _ _ => trivial) fun t₂ ht₂ => ?_
    exact ⟨t₂, rfl, look_write_write ht₁ ht₂⟩
  rintro _ _ ⟨t₂, rfl, ht₂⟩
  refine Ends.bind (M := fun _ s' => s' = s.withFiles t₂) ?_ ?_
  · refine ends_change (fun _ _ _ _ => trivial) nofun fun t ht => ?_
    cases ht
    rfl
  rintro _ s₃ hs₃
  rw [hs₃]
  refine Ends.bind (M := fun _ s' => s'.tables = s.tables ∧
    s'.files.look (directory ++ [name]) = some (.file bytes) ∧
    ∀ q, ¬ directory <+: q → s'.files.look q = s.files.look q) ?_ ?_
  · refine ends_change (fun _ _ _ _ => trivial) (fun _ _ => trivial) fun t₃ ht₃ => ?_
    have hlook := (look_rename_file ht₃ hne (by rw [withFiles_files, ht₂, if_pos rfl])).2
    refine ⟨rfl, ?_, fun q hq => ?_⟩
    · rw [withFiles_files, hlook, if_pos rfl]
    · have hout : ∀ a, q ≠ directory ++ [a] := by
        rintro a rfl
        exact hq (prefix_append _ _)
      rw [withFiles_files, hlook, if_neg (hout _), if_neg (hout _), withFiles_files, ht₂,
        if_neg (hout _)]
  rintro _ s₄ hs₄
  refine ((reads_syncDirectory _).ends.mono ?_ fun _ _ _ => trivial)
  rintro _ s₅ rfl
  exact hs₄

theorem temporary_ne_document (self : Handle) (nanos : Nat) :
    self.temporary "instance" nanos ≠ "instance.yaml" := by
  intro h
  have hlist := congrArg (fun s => s.toList.head?) h
  simp [Handle.temporary, String.toList_append] at hlist

/-- A prepared directory moves into the place of an instance. -/
theorem kept_of_published (hs : Consistent self s)
    (hrow : s.tables.instanceRow i = none) (hfree : s.files.look (self.instanceDir i) = none)
    (hdocument : HasDocument s.files (self.root ++ "staging" :: staged))
    (hmarked : IsMarked s.files (self.root ++ "staging" :: staged))
    (h : s.files.rename (self.root ++ "staging" :: staged) (self.instanceDir i) = some t) :
    Consistent self (s.withFiles t) ∧ Filled self s (s.withFiles t) ∧
      HasDocument t (self.instanceDir i) := by
  have hstaging : ∀ q, ¬ self.root ++ "staging" :: staged <+: self.instances ++ q := by
    intro q
    have heq : self.instances ++ q = self.root ++ "instances" :: q := by simp [Handle.instances]
    rw [heq]
    exact not_below (by decide)
  have hne : self.root ++ "staging" :: staged ≠ self.instanceDir i := by
    intro heq
    refine hstaging [i.asStr] ?_
    rw [heq]
    exact prefix_rfl
  have hself : ∀ q, t.look (self.instanceDir i ++ q) =
      s.files.look (self.root ++ "staging" :: staged ++ q) := by
    intro q
    rw [look_rename h hne, if_pos (prefix_append _ q), drop_left]
  have hother : ∀ j, i ≠ j → ∀ q,
      t.look (self.instanceDir j ++ q) = s.files.look (self.instanceDir j ++ q) := by
    intro j hij q
    rw [look_rename h hne, if_neg (not_instanceDir_below self hij q), if_neg]
    rw [instanceDir_append]
    exact hstaging _
  have hdir : t.look (self.instanceDir i) = some .dir := by
    obtain ⟨bytes, hbytes⟩ := hdocument
    refine look_above (prefix_append _ ["instance.yaml"]) (by simp) ?_
    rw [hself, hbytes]
    simp
  refine ⟨⟨?_, ?_, ?_, hs.pending, ?_⟩, ?_, ?_⟩
  · rw [withFiles_files, look_rename h hne, if_neg, if_neg, hs.instances]
    · have hroot := hstaging []
      rwa [append_nil] at hroot
    · exact not_prefix_of_length (by simp [Handle.instanceDir])
  · intro j bytes hfile
    rw [withFiles_files] at hfile
    by_cases hij : i = j
    · rw [← hij, hdir] at hfile
      cases hfile
    · have hsame := hother j hij []
      rw [append_nil] at hsame
      rw [hsame] at hfile
      exact hs.directory j bytes hfile
  · intro j hj
    have hij : i ≠ j := by
      rintro rfl
      exact hj hrow
    obtain ⟨bytes, hbytes⟩ := hs.document j hj
    exact ⟨bytes, (hother j hij _).trans hbytes⟩
  · intro j hj hpending hthere
    by_cases hij : i = j
    · rw [← hij]
      obtain ⟨bytes, hbytes⟩ := hmarked
      exact ⟨bytes, (hself _).trans hbytes⟩
    · have hsame := hother j hij []
      rw [append_nil] at hsame
      rw [withFiles_files, hsame] at hthere
      obtain ⟨bytes, hbytes⟩ := hs.leftover j hj hpending hthere
      exact ⟨bytes, (hother j hij _).trans hbytes⟩
  · rintro j - ⟨q, bytes, hnew, hold⟩
    rw [withFiles_files] at hnew
    by_cases hij : i = j
    · subst hij
      refine ⟨fun q' bytes' hfile => ?_, staged, fun q' => hself q'⟩
      rw [look_append_of_none hfree] at hfile
      cases hfile
    · rw [hother j hij] at hnew
      exact absurd hnew hold
  · obtain ⟨bytes, hbytes⟩ := hdocument
    exact ⟨bytes, (hself _).trans hbytes⟩

/-- The row of a published instance. -/
theorem consistent_insertInstance (imageId profileId : Id) (hs : Consistent self s)
    (hpending : i ∉ s.tables.pendingInstanceDeletions)
    (hdocument : HasDocument s.files (self.instanceDir i)) :
    Consistent self { s with tables := (s.tables.insertInstance i imageId profileId).2 } := by
  rcases s.tables.insertInstance_cases i imageId profileId with
    ⟨instances, tombstones, hnone, hinsert, hstep⟩ | ⟨e, hstep⟩
  · rw [hstep]
    have hrow : ∀ j, j ≠ i →
        Workspace.instanceRow { s.tables with instances, instanceTombstones := tombstones } j =
          s.tables.instanceRow j := by
      intro j hij
      have hfind := Table.find?_insert hinsert j
      rw [if_neg (show j ≠ (Workspace.newInstance i imageId profileId).instanceId from hij)] at hfind
      exact hfind
    refine ⟨hs.instances, hs.directory, ?_, ?_, ?_⟩
    · intro j hj
      by_cases hij : j = i
      · rw [hij]
        exact hdocument
      · rw [hrow j hij] at hj
        exact hs.document j hj
    · intro j hj
      have hij : j ≠ i := by
        rintro rfl
        exact hpending hj
      exact ⟨(hrow j hij).trans (hs.pending j hj).1, (hs.pending j hj).2⟩
    · intro j hj hnot hthere
      have hij : j ≠ i := by
        rintro rfl
        have hfind := Table.find?_insert hinsert j
        rw [if_pos (show j = (Workspace.newInstance j imageId profileId).instanceId from rfl)] at hfind
        have hsome : instances.find? j = none := hj
        rw [hfind] at hsome
        cases hsome
      rw [hrow j hij] at hj
      exact hs.leftover j hj hnot hthere
  · rw [hstep]
    exact hs

theorem keeps_ignore {task : Task Unit} (h : Keeps self (fun _ => Consistent self) task s) :
    Keeps self (fun _ => Consistent self) (ignore task) s :=
  Ok.bind (Ok.attempt (E := fun _ => Consistent self) h) fun _ _ h => h

/-- The marker of a committed instance goes. -/
theorem keeps_removeMarker (hs : Consistent self s) (hrow : s.tables.instanceRow i ≠ none) :
    Keeps self (fun _ => Consistent self)
      (removeFile (self.instanceDir i ++ [".machineemu-create"])) s := by
  refine keeps_change hs fun t ht => ?_
  have hlook := look_removeFile ht
  have hunrelated : Unrelated self s (s.withFiles t) := by
    refine ⟨fun hdir => ?_, fun _ => Iff.rfl, rfl, fun j hj q => ?_, ?_⟩
    · rw [withFiles_files, hlook, if_neg]
      · exact hdir
      · intro heq
        have hlength := congrArg List.length heq
        simp [Handle.instanceDir] at hlength
    · have hij : i ≠ j := by
        rintro rfl
        exact hrow hj
      rw [withFiles_files, hlook, if_neg]
      intro heq
      refine not_instanceDir_below self hij q ?_
      rw [heq]
      exact prefix_append _ _
    · rintro j - ⟨bytes, hbytes⟩
      refine ⟨bytes, ?_⟩
      rw [withFiles_files, hlook, if_neg]
      · exact hbytes
      · intro heq
        have hlast := congrArg List.getLast? heq
        simp at hlast
  have hkept := hunrelated.kept hs
  exact ⟨hkept.1, hkept.2, hkept.1⟩

/-- A creation leaves the rows and the directories in agreement, wherever it is cut short. -/
theorem keeps_publishPreparedInstance {imageId profileId : Id} {planJson : String}
    {autoRemove : Bool} (hs : Consistent self s) :
    Keeps self (fun _ => Consistent self) (publishPreparedInstance self yaml documents i imageId
      profileId (self.root ++ "staging" :: staged) planJson autoRemove) s := by
  refine (keeps_finishInstanceDeletion i hs).bind ?_
  rintro _ s₁ ⟨hs₁, hpending₁⟩
  have hnot₁ : i ∉ s₁.tables.pendingInstanceDeletions := by
    rw [hpending₁]
    simp
  refine (keeps_reads (reads_image imageId) hs₁).bind ?_
  rintro _ s₂ rfl
  refine (keeps_clearDestination (i := i) hs₁).bind ?_
  rintro _ s₃ ⟨hs₃, htables₃, hfree₃⟩
  have hrow₃ : s₃.tables.instanceRow i = none := by
    by_contra hrow
    obtain ⟨bytes, hbytes⟩ := hs₃.document i hrow
    rw [look_append_of_none hfree₃] at hbytes
    cases hbytes
  have hnot₃ : i ∉ s₃.tables.pendingInstanceDeletions := by
    rw [htables₃]
    exact hnot₁
  refine (keeps_reads (reads_readStagedProfile _) hs₃).bind ?_
  rintro profile s₄ rfl
  refine (keeps_reads (reads_readStagedDomain _) hs₃).bind ?_
  rintro domainDocument s₅ rfl
  split
  · exact hs₃
  -- the staging directory gets its document and its marker
  have houtside : ¬ self.root ++ "staging" :: staged <+: self.instanceDir i := by
    rw [instanceDir_eq]
    exact not_below (by decide)
  refine Ok.bind (keeps_of_quiet frame_atomicConfigurationFile hs₃
    (ends_atomicConfigurationFile (temporary_ne_document self))) ?_
  rintro _ s₆ ⟨⟨htables₆, hdocument₆, hothers₆⟩, hs₆⟩
  have hmarker : Frame (fun _ => Quiet self) (fun _ => True)
      (writeFile (self.root ++ "staging" :: staged ++ [".machineemu-create"])
        (textBytes "staged\n")) := by
    refine (frame_change_staging staged fun t t' ht q hq => ?_).andThen fun _ =>
      frame_writeAll_staging (prefix_append _ _)
    rw [look_write ht, if_neg]
    rintro rfl
    exact hq (prefix_append _ _)
  refine Ok.bind (keeps_of_quiet hmarker hs₆ (ends_writeFile (fun _ _ => trivial) _ _)) ?_
  rintro _ s₇ ⟨⟨htables₇, hlook₇⟩, hs₇⟩
  have hdocument₇ : HasDocument s₇.files (self.root ++ "staging" :: staged) := by
    have hsame := hlook₇ (self.root ++ "staging" :: staged ++ ["instance.yaml"])
    rw [if_neg (by simp)] at hsame
    exact ⟨_, hsame.trans hdocument₆⟩
  have hmarked₇ : IsMarked s₇.files (self.root ++ "staging" :: staged) :=
    ⟨_, (hlook₇ _).trans (if_pos rfl)⟩
  have hfree₇ : s₇.files.look (self.instanceDir i) = none := by
    rw [hlook₇, if_neg, hothers₆ _ houtside]
    · exact hfree₃
    · intro heq
      refine houtside ?_
      rw [heq]
      exact prefix_append _ _
  have htables : s₇.tables = s₅.tables := htables₇.trans htables₆
  -- the directory is published, then the row
  refine Ok.bind (M := fun _ s' => Consistent self s' ∧ s'.tables = s₇.tables ∧
    HasDocument s'.files (self.instanceDir i)) (keeps_change hs₇ fun t ht => ?_) ?_
  · have hkept := kept_of_published hs₇ (by rw [htables]; exact hrow₃) hfree₇ hdocument₇
      hmarked₇ ht
    exact ⟨hkept.1, hkept.2.1, hkept.1, rfl, hkept.2.2⟩
  rintro _ s₈ ⟨hs₈, htables₈, hdocument₈⟩
  have hrow₈ : s₈.tables.instanceRow i = none := by
    rw [htables₈, htables]
    exact hrow₃
  have hnot₈ : i ∉ s₈.tables.pendingInstanceDeletions := by
    rw [htables₈, htables]
    exact hnot₃
  have hinserted := consistent_insertInstance imageId profileId hs₈
    hnot₈ hdocument₈
  refine Ok.bind (M := fun r s' => Consistent self s' ∧ Either
    (fun _ s' => s'.tables.instanceRow i ≠ none) (fun _ s' => s'.tables.instanceRow i = none)
    r s') (Ok.attempt (ok_statement ?_ ?_ ?_ ?_)) ?_
  · exact fun _ => ⟨hs₈, hrow₈⟩
  · refine ⟨hinserted, ?_⟩
    rintro j - ⟨q, bytes, hnew, hold⟩
    exact absurd hnew hold
  · intro e he
    refine ⟨hinserted, ?_⟩
    rcases s₈.tables.insertInstance_cases i imageId profileId with
      ⟨_, _, _, _, hstep⟩ | ⟨e', hstep⟩
    · rw [hstep] at he
      cases he
    · rw [hstep]
      exact hrow₈
  · intro row hrow
    refine ⟨hinserted, ?_⟩
    rcases s₈.tables.insertInstance_cases i imageId profileId with
      ⟨instances, _, _, hinsert, hstep⟩ | ⟨e', hstep⟩
    · rw [hstep]
      have hfind := Table.find?_insert hinsert i
      rw [if_pos (show i = (Workspace.newInstance i imageId profileId).instanceId from rfl)] at hfind
      intro hnone
      have hnone' : instances.find? i = none := hnone
      rw [hfind] at hnone'
      cases hnone'
    · rw [hstep] at hrow
      cases hrow
  rintro result s₉ ⟨hs₉, hrow₉⟩
  cases result with
  | error e =>
    refine (keeps_ignore (keeps_change hs₉ fun t ht => ?_)).bind fun _ _ h => h
    have hkept := kept_of_removed hs₉ hrow₉ (look_removeDirAll ht)
    exact ⟨hkept.1, hkept.2, hkept.1⟩
  | ok row =>
    refine (keeps_ignore (keeps_removeMarker hs₉ hrow₉)).bind ?_
    intro _ s₁₀ hs₁₀
    refine (keeps_select hs₁₀).mono ?_ fun _ _ h => h
    rintro _ _ rfl
    exact hs₁₀

/-! ## Every run -/

/-- What a request leaves when it has succeeded: after a reopening no deletion is pending. -/
def Settled {self : Handle} (r : InstanceRequest self) (s : Store) : Prop :=
  Consistent self s ∧ (r = .reopen → s.tables.pendingInstanceDeletions = [])

theorem keeps_request {r : InstanceRequest self} (hs : Consistent self s) (hr : r.Valid) :
    Keeps self (fun _ => Settled r) (r.task yaml documents) s := by
  cases r with
  | publish i imageId profileId staged planJson autoRemove =>
    exact (keeps_publishPreparedInstance hs).bind fun _ _ h => ⟨h, nofun⟩
  | remove matches_ i =>
    exact (keeps_removeInstance hs hr).mono (fun _ _ h => ⟨h, nofun⟩) fun _ _ h => h
  | other f h =>
    rintro s' rfl -
    exact ⟨(h s).kept hs, (h s).consistent hs, nofun⟩
  | reopen => exact (keeps_openStore hs).mono (fun _ _ h => ⟨h.1, fun _ => h.2⟩) fun _ _ h => h

/-- The invariant of the service. -/
def instanceDiscipline (self : Handle) (yaml : Yaml) (documents : Documents) :
    Discipline (instanceService self yaml documents) (NoInstances self) Admits (· = ·)
      (fun _ s s' => Consistent self s' ∧ Filled self s s') where
  always := Consistent self
  idle := Consistent self
  post := Settled
  refl _ := rfl
  trans _ _ _ h h' := h.trans h'
  env _ _ _ _ := False.elim
  init_idle s h := ⟨h.instances, fun i _ => by simp [h.directories i],
    fun i hi => absurd (h.rows i) hi, fun i hi => by simp [h.pending] at hi,
    fun i _ _ hthere => absurd (h.directories i) hthere⟩
  always_of_idle _ h := h
  always_stable := by
    rintro s _ rfl h
    exact h
  idle_stable := by
    rintro s _ rfl h
    exact h
  idle_of_post _ _ h := h.1
  post_stable := by
    rintro r s _ rfl h
    exact h
  always_of_act _ _ _ h := h.1
  request _ _ hr hs := keeps_request hs hr
  crash s _ hs := by
    have hreopen : Keeps self (fun _ => Settled .reopen)
        (InstanceRequest.task yaml documents (.reopen : InstanceRequest self)) s :=
      keeps_request hs trivial
    exact ⟨hs, hreopen⟩

/-! ## Reclaiming -/

theorem dir_of_there (hs : Consistent self s) (hthere : s.files.look (self.instanceDir i) ≠ none) :
    s.files.look (self.instanceDir i) = some .dir := by
  obtain ⟨entry, hentry⟩ := Option.ne_none_iff_exists'.1 hthere
  cases entry with
  | dir => exact hentry
  | file bytes => exact absurd hentry (hs.directory i bytes)

theorem removeDirAll_of_dir (h : t.look (self.instanceDir i) = some .dir) :
    ∃ t', t.removeDirAll (self.instanceDir i) = some t' ∧
      t'.look (self.instanceDir i) = none ∧ t'.look self.instances = t.look self.instances := by
  have hne : self.instanceDir i ≠ [] := by simp [Handle.instanceDir]
  refine ⟨_, if_pos ⟨h, hne⟩, ?_, ?_⟩
  · rw [look_put_none hne (by simp [h]), if_pos prefix_rfl]
  · rw [look_put_none hne (by simp [h]), if_neg]
    exact not_prefix_of_length (by simp [Handle.instanceDir])

/-- A free place is clear. -/
theorem ends_clearDestination_of_free {good : Store → Outcome → Prop} {X : Error → Store → Prop}
    (h : s.files.look (self.instanceDir i) = none) :
    Ends good (fun _ s' => s' = s) X (clearDestination self i) s := by
  refine Ends.bind (M := fun taken s' => taken = false ∧ s' = s) (ends_exists ?_) ?_
  · exact ⟨by simp [h], rfl⟩
  rintro taken s₁ ⟨rfl, hs₁⟩
  exact hs₁

/-- A marked directory goes. -/
theorem ends_clearDestination_of_marked (hdir : s.files.look (self.instanceDir i) = some .dir)
    (hrow : s.tables.instanceRow i = none) (hmarked : IsMarked s.files (self.instanceDir i)) :
    Ends Faultless (fun _ s' => s'.files.look (self.instanceDir i) = none ∧ s'.tables = s.tables)
      (fun _ _ => False) (clearDestination self i) s := by
  refine Ends.bind (M := fun taken s' => taken = true ∧ s' = s) (ends_exists ?_) ?_
  · exact ⟨by simp [hdir], rfl⟩
  rintro taken s₁ ⟨rfl, hs₁⟩
  rw [hs₁]
  refine Ends.bind (M := fun replaceable s' => replaceable = true ∧ s' = s) ?_ ?_
  · refine Ends.bind (M := fun found s' => found = some .dir ∧ s' = s) ?_ ?_
    · exact ends_metadata (fun _ ho h => absurd ho h) ⟨hdir, rfl⟩
    rintro found s₂ ⟨rfl, hs₂⟩
    rw [hs₂, if_neg (by simp)]
    have hnone : s.tables.instance_ i = .error (.notFound "instance" i.asStr) := by
      unfold Workspace.instance_
      rw [hrow]
    refine Ends.bind (M := fun row s' => row = .error (.notFound "instance" i.asStr) ∧ s' = s)
      (Ends.attempt (ends_select (fun _ ho h => absurd ho h) (fun e he => ?_) fun row hok => ?_)) ?_
    · rw [hnone] at he
      cases he
      exact ⟨rfl, rfl⟩
    · rw [hnone] at hok
      cases hok
    rintro row s₃ ⟨rfl, hs₃⟩
    rw [hs₃]
    obtain ⟨bytes, hbytes⟩ := hmarked
    refine Ends.bind (M := fun marked s' => marked = true ∧ s' = s) (ends_isFile ?_) ?_
    · rw [hbytes]
      exact ⟨rfl, rfl⟩
    rintro marked s₄ ⟨rfl, hs₄⟩
    exact ⟨rfl, hs₄⟩
  rintro replaceable s₂ ⟨rfl, hs₂⟩
  rw [hs₂]
  obtain ⟨t, ht, hgone, -⟩ := removeDirAll_of_dir hdir
  exact ends_change_of_some (fun _ ho h => absurd ho h) ht ⟨hgone, rfl⟩

/-- What is left in the directory of an id without a row is removed by the next creation. -/
theorem reclaims_of_consistent (hs : Consistent self s) (hrow : s.tables.instanceRow i = none) :
    Reclaims self i s := by
  refine Ends.bind (M := fun _ s' => s'.tables.instanceRow i = none ∧
    i ∉ s'.tables.pendingInstanceDeletions ∧ (s'.files.look (self.instanceDir i) = none ∨
      s'.files.look (self.instanceDir i) = some .dir ∧ IsMarked s'.files (self.instanceDir i)))
    ?_ ?_
  · refine Ends.bind (M := fun pending s' => pending =
      decide (i ∈ s.tables.pendingInstanceDeletions) ∧ s' = s) ?_ ?_
    · refine ends_select (fun _ ho h => absurd ho h) nofun fun pending hpending => ?_
      exact ⟨(Except.ok.inj hpending).symm, rfl⟩
    rintro pending s₁ ⟨hpending, hs₁⟩
    rw [hs₁]
    split
    · next hfalse =>
      rw [hfalse] at hpending
      have hnot : i ∉ s.tables.pendingInstanceDeletions := of_decide_eq_false hpending.symm
      refine ⟨hrow, hnot, ?_⟩
      by_cases hthere : s.files.look (self.instanceDir i) = none
      · exact .inl hthere
      · exact .inr ⟨dir_of_there hs hthere, hs.leftover i hrow hnot hthere⟩
    · have hremoved : ∃ t, (if s.files.look (self.instanceDir i) = none then some s.files
          else s.files.removeDirAll (self.instanceDir i)) = some t ∧
          t.look (self.instanceDir i) = none ∧ t.look self.instances = some .dir := by
        split
        · next hnone => exact ⟨s.files, rfl, hnone, hs.instances⟩
        · next hthere =>
          obtain ⟨t, ht, hgone, hparent⟩ := removeDirAll_of_dir (dir_of_there hs hthere)
          exact ⟨t, ht, hgone, hparent.trans hs.instances⟩
      obtain ⟨t, ht, hgone, hparent⟩ := hremoved
      refine Ends.bind (M := fun _ s' => s' = s.withFiles t)
        (ends_change_of_some (fun _ ho h => absurd ho h) ht rfl) ?_
      rintro _ s₂ hs₂
      rw [hs₂]
      refine Ends.bind (M := fun _ s' => s' = s.withFiles t)
        (ends_change_of_some (fun _ ho h => absurd ho h) (by simp [hparent]) rfl) ?_
      rintro _ s₃ hs₃
      rw [hs₃]
      refine Ends.seq (ends_statement (fun _ ho h => absurd ho h) nofun fun _ _ => ?_)
      refine ⟨hrow, ?_, .inl hgone⟩
      intro hmem
      have hne := (mem_filter.1 hmem).2
      simp at hne
  rintro _ s₁ ⟨hrow₁, hnot₁, hfree | ⟨hdir, hmarked⟩⟩
  · refine (ends_clearDestination_of_free hfree).mono ?_ fun _ _ h => h
    rintro _ _ rfl
    exact ⟨hfree, hnot₁⟩
  · refine (ends_clearDestination_of_marked hdir hrow₁ hmarked).mono ?_ fun _ _ h => h
    rintro _ s₂ ⟨hgone, htables⟩
    rw [htables]
    exact ⟨hgone, hnot₁⟩

/-! ## The result -/

/-- In every run the rows and the directories agree up to pending deletions and marked
directories, a reopening settles the pending deletions, a creation makes way for itself, and a new
directory has the files of its staging directory only. -/
theorem consistent_of_reachable {c : Config Store Outcome Call Error (InstanceRequest self)}
    (h : Reachable (instanceService self yaml documents) (NoInstances self) Admits c) :
    Consistent self c.state ∧
      (c.busy = some (.reopen, .ret ()) → c.state.tables.pendingInstanceDeletions = []) ∧
      (∀ i, c.state.tables.instanceRow i = none → Reclaims self i c.state) ∧
      (∀ call c', Step (instanceService self yaml documents) c (.act call) c' →
        Filled self c.state c'.state) ∧
      ∀ staged t, c.state.files.removeDirAll (self.root ++ "staging" :: staged) = some t →
        Unrelated self c.state (c.state.withFiles t) := by
  have hholds := (instanceDiscipline self yaml documents).sound h
  refine ⟨hholds.1, fun hbusy => ?_, fun i hrow => reclaims_of_consistent hholds.1 hrow,
    fun call c' hstep => ?_, fun staged t ht => ?_⟩
  · have hpost := hholds.2
    rw [hbusy] at hpost
    exact hpost.2 rfl
  · exact ((instanceDiscipline self yaml documents).act h trivial hstep).2
  · refine (quiet_of_staging staged fun q hq => ?_).unrelated
    rw [look_removeDirAll ht, if_neg hq]

/-! ## A marked directory -/

/-- A workspace with the image `win11` and a prepared staging directory. -/
def preparedStore : Store where
  tables := {}
  files := .dir [("workspace", .dir [
    ("images", .dir [("win11", .dir [("manifest.yaml", .file [])])]),
    ("instances", .dir []),
    ("staging", .dir [("vm", .dir [("disk.qcow2", .file [1])])])])]

/-- A serialiser that reads the manifest of this image. -/
def readsWin11 : Yaml where
  manifest _ := []
  readManifest _ := .ok
    { imageId := ⟨"win11"⟩, engineTrack := ⟨"qemu"⟩, supportedEngineTracks := []
      target := "x86_64-softmmu", components := .empty, diskSha256 := ""
      firmwareSha256 := none, tpmStateSha256 := none }
  bundle _ := []
  readBundle _ := .error "not read"

/-- A serialiser that reads the plan `null`. -/
def readsNull : Documents := ⟨fun _ => .error "not read", fun _ => .ok .null, fun _ => []⟩

def preparedHandle : Handle := { root := ["workspace"], pid := 7 }

theorem noInstances_preparedStore : NoInstances preparedHandle preparedStore := by
  refine ⟨by decide, fun i => ?_, fun i => rfl, rfl⟩
  show FileTree.look preparedStore.files ["workspace", "instances", i.asStr] = none
  rfl

/-- The creation of `vm` is cut short between the rename of its directory and the row, and the
workspace is opened again: there is a document and no row. -/
theorem exists_document_without_row :
    ∃ c : Config Store Outcome Call Error (InstanceRequest preparedHandle),
      Reachable (instanceService preparedHandle readsWin11 readsNull) (NoInstances preparedHandle)
        Admits c ∧ c.busy = some (.reopen, .ret ()) ∧ c.state.tables.instanceRow ⟨"vm"⟩ = none ∧
        HasDocument c.state.files (preparedHandle.instanceDir ⟨"vm"⟩) := by
  have hrun : (reopened (instanceService preparedHandle readsWin11 readsNull)
      (fun s e => decide (Admits s e))
      (.publish ⟨"vm"⟩ ⟨"win11"⟩ ⟨"desktop"⟩ ["vm"] "null" false) (List.replicate 30 {})
      (fun call s => call = .database &&
        s.files.look (preparedHandle.instanceDir ⟨"vm"⟩) ≠ none) (List.replicate 10 {})
      preparedStore).any (fun s => decide (s.tables.instanceRow ⟨"vm"⟩ = none) &&
        decide (s.files.look (preparedHandle.instanceDir ⟨"vm"⟩ ++ ["instance.yaml"]) =
          some (.file []))) = true := by
    decide +kernel
  obtain ⟨s, hopen, hcheck⟩ := (Option.any_eq_true _ _).1 hrun
  rw [Bool.and_eq_true, decide_eq_true_iff, decide_eq_true_iff] at hcheck
  have hidle : Reachable (instanceService preparedHandle readsWin11 readsNull)
      (NoInstances preparedHandle) Admits ⟨preparedStore, none⟩ :=
    .init preparedStore noInstances_preparedStore
  exact ⟨_, hidle.reopened (fun _ _ h => of_decide_eq_true h) hopen, rfl, hcheck.1, _, hcheck.2⟩

/-- After a reopening there may be a directory with a document and without a row. -/
theorem not_rows_iff_documents : ¬ ∀ (self : Handle) (yaml : Yaml) (documents : Documents)
    (c : Config Store Outcome Call Error (InstanceRequest self)),
    Reachable (instanceService self yaml documents) (NoInstances self) Admits c →
    c.busy = some (.reopen, .ret ()) → ∀ i, c.state.tables.instanceRow i ≠ none ↔
      (HasDocument c.state.files (self.instanceDir i) ∨
        i ∈ c.state.tables.pendingInstanceDeletions) := by
  intro h
  obtain ⟨c, hc, hbusy, hrow, hdocument⟩ := exists_document_without_row
  exact (h _ _ _ c hc hbusy ⟨"vm"⟩).2 (.inl hdocument) hrow

/-- The directory that is left is marked, and the next creation removes it. -/
theorem exists_marked_reclaimed :
    ∃ c : Config Store Outcome Call Error (InstanceRequest preparedHandle),
      c.busy = some (.reopen, .ret ()) ∧
        HasDocument c.state.files (preparedHandle.instanceDir ⟨"vm"⟩) ∧
        IsMarked c.state.files (preparedHandle.instanceDir ⟨"vm"⟩) ∧
        Reclaims preparedHandle ⟨"vm"⟩ c.state := by
  obtain ⟨c, hc, hbusy, hrow, hdocument⟩ := exists_document_without_row
  obtain ⟨hs, hpending, hreclaims, -⟩ := consistent_of_reachable hc
  refine ⟨c, hbusy, hdocument, hs.leftover ⟨"vm"⟩ hrow ?_ ?_, hreclaims ⟨"vm"⟩ hrow⟩
  · rw [hpending hbusy]
    simp
  · intro hnone
    obtain ⟨bytes, hbytes⟩ := hdocument
    rw [look_append_of_none hnone] at hbytes
    cases hbytes

end Store

end MachineEmu
