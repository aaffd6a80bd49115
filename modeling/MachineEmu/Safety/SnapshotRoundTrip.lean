import MachineEmu.Storage.Snapshots

/-!
# Snapshots and restores

Whether a snapshot of an instance can be restored, and whether the restored instance has every
file of the source.

* `IsManifest` — the manifest of an instance: the digests of the files directly in its directory.
* `Captured` — what a snapshot that was created holds.
* `Restores` — a restore into a fresh instance returns and has every file.
* `Complete` — the files of the source are directly in its directory, and none but the manifest
  itself is named as the manifest.
* `restores_iff_complete` — the result.
* `snapshot_of_restored` — a snapshot of what was restored.
-/

namespace MachineEmu

open Lib Prog List FileTree

namespace Store

/-! ## Statements -/

/-- The bytes of a file in a directory. -/
def contents (t : FileTree) (directory : Path) (name : String) : List UInt8 :=
  match t.look (directory ++ [name]) with
  | some (.file bytes) => bytes
  | _ => []

/-- A manifest of the files directly in the directory of an instance. -/
structure IsManifest (handle : Handle) (snapshotId i : Id) (s : Store) (manifest : SnapshotRow) :
    Prop where
  snapshotId : manifest.snapshotId = snapshotId
  instanceId : manifest.instanceId = i
  generation : ∃ row, s.tables.instanceRow i = some row ∧ manifest.generation = row.revision
  files : ∀ name digest, manifest.files.get? name = some digest ↔ ∃ bytes,
    s.files.look (handle.instanceDir i ++ [name]) = some (.file bytes) ∧ digest = sha256 bytes

/-- Every file of the instance is directly in its directory, and one named as the manifest is the
manifest. -/
structure Complete (handle : Handle) (snapshotId i : Id) (s : Store) : Prop where
  direct : ∀ q bytes, s.files.look (handle.instanceDir i ++ q) = some (.file bytes) →
    ∃ name, q = [name]
  reserved : ∀ manifest, IsManifest handle snapshotId i s manifest → ∀ bytes,
    s.files.look (handle.instanceDir i ++ ["manifest.json"]) = some (.file bytes) →
      bytes = textBytes manifest.json

/-- An instance that does not exist, and of which no restore has left anything. -/
structure FreshInstance (handle : Handle) (j : Id) (s : Store) : Prop where
  directory : s.files.look (handle.instanceDir j) = none
  staging : s.files.look (withExtension (handle.instanceDir j) "restore-staging") = none

/-- The files of an instance are those of another one. -/
def Reproduces (self : Handle) (i j : Id) (t t' : FileTree) : Prop :=
  ∀ q bytes, t.look (self.instanceDir i ++ q) = some (.file bytes) →
    t'.look (self.instanceDir j ++ q) = some (.file bytes)

/-- A restore into the instance `j` returns, unless a call fails, and has every file of the
instance `i`. -/
def Restores (self : Handle) (snapshotId i j : Id) (t : FileTree) (s : Store) : Prop :=
  Ends Faultless (fun _ s' => Reproduces self i j t s'.files) (fun _ _ => False)
    (restoreSnapshot self snapshotId (self.instanceDir j)) s

/-- What a created snapshot holds. -/
structure Captured (handle : Handle) (snapshotId i : Id) (s : Store) (manifest : SnapshotRow)
    (s' : Store) : Prop where
  row : s'.tables.snapshots.find? snapshotId = some manifest
  records : IsManifest handle snapshotId i s manifest
  files : ∀ name bytes, s.files.look (handle.instanceDir i ++ [name]) = some (.file bytes) →
    name ≠ "manifest.json" →
      s'.files.look (handle.snapshotDir snapshotId ++ [name]) = some (.file bytes)
  text : s'.files.look (handle.snapshotDir snapshotId ++ ["manifest.json"]) =
    some (.file (textBytes manifest.json))
  instances : s'.files.look handle.instances = some .dir

variable {self : Handle} {snapshotId i j : Id} {s : Store} {good : Store → Outcome → Prop}

/-! ## Copies -/

/-- The files that a snapshot or a restore has put in a directory. -/
structure Placed (directory : Path) (names : List String) (bytes : String → List UInt8)
    (t t' : FileTree) : Prop where
  placed : ∀ name ∈ names, t'.look (directory ++ [name]) = some (.file (bytes name))
  others : ∀ q, (∀ name ∈ names, q ≠ directory ++ [name]) → t'.look q = t.look q

theorem Placed.nil (directory : Path) (bytes : String → List UInt8) (t : FileTree) :
    Placed directory [] bytes t t :=
  ⟨nofun, fun _ _ => rfl⟩

variable {directory : Path} {t : FileTree} {name : String}

/-- One more file. -/
theorem Placed.cons {names : List String} {bytes : String → List UInt8} {t' t'' : FileTree}
    (h : ∀ q, t'.look q = if q = directory ++ [name] then some (.file (bytes name)) else t.look q)
    (hrest : Placed directory names bytes t' t'') (hnew : name ∉ names) :
    Placed directory (name :: names) bytes t t'' := by
  constructor
  · intro other hother
    rcases mem_cons.1 hother with rfl | hother
    · rw [hrest.others, h, if_pos rfl]
      intro b hb hsame
      have hname : other = b := by simpa using hsame
      rw [hname] at hnew
      exact hnew hb
    · exact hrest.placed other hother
  · intro q hq
    rw [hrest.others q fun b hb => hq b (mem_cons_of_mem _ hb), h, if_neg (hq name mem_cons_self)]

/-- The copies of a restore: a file for each entry, whose digest is the recorded one. -/
theorem ends_restoreFiles {source staging : Path} {X : Error → Store → Prop}
    {bytes : String → List UInt8} {entries : List (String × String)} (hX : Covers good X)
    (hapart : source ≠ staging) (hnodup : (entries.map Prod.fst).Nodup)
    (hdir : s.files.look staging = some .dir)
    (hfree : ∀ e ∈ entries, s.files.look (staging ++ [e.1]) = none)
    (hsource : ∀ e ∈ entries, s.files.look (source ++ [e.1]) = some (.file (bytes e.1)))
    (hmismatch : (∃ e ∈ entries, sha256 (bytes e.1) ≠ e.2) → ∀ e s', X e s') :
    Ends good
      (fun _ s' => (∀ e ∈ entries, sha256 (bytes e.1) = e.2) ∧
        Placed staging (entries.map Prod.fst) bytes s.files s'.files)
      X (restoreFiles source staging entries) s := by
  induction entries generalizing s with
  | nil => exact ⟨nofun, Placed.nil _ _ _⟩
  | cons e entries ih =>
    obtain ⟨name, expected⟩ := e
    obtain ⟨hnew, hnodup⟩ := nodup_cons.1 hnodup
    have hne : ∀ other, source ++ [other] ≠ staging ++ [name] := by
      intro other hsame
      exact hapart (append_inj_left' hsame rfl)
    have hwrite : ∀ t : FileTree, t.look staging = some .dir →
        t.look (staging ++ [name]) ≠ some .dir → ∀ b, ∃ t', t.write (staging ++ [name]) b = some t' := by
      intro t ht hplace b
      apply write_of_look
      · simp
      · rw [dropLast_concat]
        exact ht
      · exact hplace
    obtain ⟨t₁, ht₁⟩ := hwrite s.files hdir (by simp [hfree _ mem_cons_self]) []
    refine Ends.seq (ends_change_of_some
      (fun o ho hfault e => hX s o ho hfault e s) ht₁ ?_)
    have hdir₁ : t₁.look staging = some .dir := by
      rw [look_write ht₁, if_neg, hdir]
      simp
    have hsource₁ : t₁.look (source ++ [name]) = some (.file (bytes name)) := by
      rw [look_write ht₁, if_neg (hne name)]
      exact hsource _ mem_cons_self
    refine Ends.bind (M := fun actual s' => actual = sha256 (bytes name) ∧ ∃ t,
      t₁.write (staging ++ [name]) (bytes name) = some t ∧ s' = s.withFiles t)
      (ends_copyAndHash_of_file hX hsource₁ (hwrite t₁ hdir₁ ?_) fun t ht => ⟨rfl, t, ht, rfl⟩) ?_
    · rw [look_write ht₁, if_pos rfl]
      nofun
    rintro actual _ ⟨hactual, t₂, ht₂, rfl⟩
    rw [hactual]
    split
    · next hdigest => exact hmismatch ⟨_, mem_cons_self, hdigest⟩ _ _
    · next hdigest =>
      have hlook := look_write_write ht₁ ht₂
      have hother : ∀ e ∈ entries, ∀ directory, directory = source ∨ directory = staging →
          t₂.look (directory ++ [e.1]) = s.files.look (directory ++ [e.1]) := by
        intro e he directory hdirectory
        rw [hlook, if_neg]
        rcases hdirectory with rfl | rfl
        · exact hne e.1
        · intro hsame
          have hname : e.1 = name := by simpa using hsame
          exact hnew (mem_map.2 ⟨e, he, hname⟩)
      refine (ih (s := s.withFiles t₂) hnodup ?_ ?_ ?_ ?_).mono ?_ fun _ _ h => h
      · rw [withFiles_files, hlook, if_neg, hdir]
        simp
      · intro e he
        rw [withFiles_files, hother e he staging (.inr rfl)]
        exact hfree e (mem_cons_of_mem _ he)
      · intro e he
        rw [withFiles_files, hother e he source (.inl rfl)]
        exact hsource e (mem_cons_of_mem _ he)
      · rintro ⟨e, he, hne⟩
        exact hmismatch ⟨e, mem_cons_of_mem _ he, hne⟩
      · rintro _ s₃ ⟨hdigests, hplaced⟩
        refine ⟨?_, Placed.cons hlook hplaced hnew⟩
        intro e he
        rcases mem_cons.1 he with rfl | he
        · exact not_not.1 hdigest
        · exact hdigests e he

/-! ## Restoring -/

/-- The names of a manifest are distinct. -/
theorem nodup_names_entries (files : SortedMap String String) :
    (files.entries.map Prod.fst).Nodup :=
  pairwise_map.2 (files.sorted.imp fun hab => hab.ne)

/-- What was restored into a directory. -/
def Restored (directory : Path) (entries : List (String × String)) (bytes : String → List UInt8)
    (t : FileTree) : Prop :=
  ∀ q b, t.look (directory ++ q) = some (.file b) ↔ ∃ e ∈ entries, q = [e.1] ∧ b = bytes e.1

theorem rename_self {t' : FileTree} {p : Path} (h : t.rename p p = some t') : t' = t := by
  unfold FileTree.rename at h
  split at h
  · cases h
  · rw [if_pos rfl] at h
    exact (Option.some.inj h).symm

/-- An entry moves to a place next to it where nothing is, or stays where it is. -/
theorem rename_of_fresh {a b : String} (ha : t.look (directory ++ [a]) ≠ none)
    (hb : a = b ∨ t.look (directory ++ [b]) = none) :
    ∃ t', t.rename (directory ++ [a]) (directory ++ [b]) = some t' := by
  by_cases hab : a = b
  · rw [hab] at ha ⊢
    obtain ⟨e, he⟩ := Option.ne_none_iff_exists'.1 ha
    unfold FileTree.rename
    rw [he]
    exact ⟨t, if_pos rfl⟩
  · apply rename_of_look
    · simp
    · simp
    · intro hbelow
      have hsame := hbelow.eq_of_length_le (by simp)
      have hname : a = b := by simpa using hsame
      exact hab hname
    · rw [dropLast_concat]
      exact look_parent ha
    · exact ha
    · exact hb.resolve_left hab

/-- A staging directory that has the files of the entries and nothing else. -/
theorem restored_of_placed {staging target : Path} {entries : List (String × String)}
    {bytes : String → List UInt8} {t₁ t₂ t₃ : FileTree} (hfresh : t.look staging = none)
    (hdirs : t.createDirAll staging = some t₁)
    (hplaced : Placed staging (entries.map Prod.fst) bytes t₁ t₂)
    (hrename : t₂.rename staging target = some t₃) : Restored target entries bytes t₃ := by
  intro q b
  have hlook : t₃.look (target ++ q) = t₂.look (staging ++ q) := by
    by_cases hsame : staging = target
    · rw [hsame] at hrename ⊢
      rw [rename_self hrename]
    · rw [look_rename hrename hsame, if_pos (prefix_append target q), drop_left]
  rw [hlook]
  by_cases hq : ∃ e ∈ entries, q = [e.1]
  · obtain ⟨e, he, rfl⟩ := hq
    rw [hplaced.placed e.1 (mem_map.2 ⟨e, he, rfl⟩)]
    constructor
    · intro hb
      cases hb
      exact ⟨e, he, rfl, rfl⟩
    · rintro ⟨e', -, hname, rfl⟩
      simp only [List.cons.injEq, and_true] at hname
      rw [hname]
  · have hnot : ∀ name ∈ entries.map Prod.fst, staging ++ q ≠ staging ++ [name] := by
      intro name hname hsame
      obtain ⟨e, he, rfl⟩ := mem_map.1 hname
      exact hq ⟨e, he, append_cancel_left hsame⟩
    have hbefore : t₂.look (staging ++ q) ≠ some (.file b) := by
      rw [hplaced.others _ hnot, look_createDirAll hdirs]
      split
      · nofun
      · rw [look_append_of_none hfresh]
        nofun
    constructor
    · exact fun hb => absurd hb hbefore
    · rintro ⟨e, he, hqe, -⟩
      exact absurd ⟨e, he, hqe⟩ hq

/-- A restore into a fresh instance. -/
theorem ends_restoreSnapshot {X : Error → Store → Prop} {manifest : SnapshotRow}
    {bytes : String → List UInt8} (hX : Covers good X)
    (hrow : s.tables.snapshots.find? snapshotId = some manifest) (hfresh : FreshInstance self j s)
    (hinstances : s.files.look self.instances = some .dir)
    (hsource : ∀ e ∈ manifest.files.entries,
      s.files.look (self.snapshotDir snapshotId ++ [e.1]) = some (.file (bytes e.1)))
    (hmismatch : (∃ e ∈ manifest.files.entries, sha256 (bytes e.1) ≠ e.2) → ∀ e s', X e s') :
    Ends good
      (fun _ s' => (∀ e ∈ manifest.files.entries, sha256 (bytes e.1) = e.2) ∧
        Restored (self.instanceDir j) manifest.files.entries bytes s'.files)
      X (restoreSnapshot self snapshotId (self.instanceDir j)) s := by
  refine Ends.bind (M := fun m s' => s' = s ∧ m = manifest) (ends_select
    (fun o ho hfault e => hX s o ho hfault e s) ?_ ?_) ?_
  · intro e he
    rw [hrow] at he
    cases he
  · intro m hm
    rw [hrow] at hm
    cases hm
    exact ⟨rfl, rfl⟩
  intro m s₁ h₁
  obtain ⟨hs₁, hm⟩ := h₁
  rw [hs₁, hm]
  refine Ends.bind (M := fun preexists s' => s' = s ∧ preexists = false)
    (Ends.bind (M := fun preexists s' => s' = s ∧ preexists = false)
      (ends_exists ⟨rfl, by simp [hfresh.directory]⟩) ?_) ?_
  · intro preexists s₂ h₂
    obtain ⟨hs₂, hpreexists⟩ := h₂
    rw [hs₂, hpreexists]
    exact ⟨rfl, rfl⟩
  intro preexists s₃ h₃
  obtain ⟨hs₃, hpreexists⟩ := h₃
  rw [hs₃, hpreexists]
  simp only [Bool.false_eq_true, if_false]
  have hstaging := withExtension_instanceDir self j "restore-staging"
  have hnone := hfresh.staging
  generalize withExtension (self.instanceDir j) "restore-staging" = staging at *
  have hparent : staging.dropLast = self.instances := by
    rw [hstaging, dropLast_concat]
  have hempty : staging ≠ [] := by
    rw [hstaging]
    simp
  -- everything above the staging directory is a directory
  obtain ⟨t₁, ht₁⟩ : ∃ t₁, s.files.createDirAll staging = some t₁ := by
    apply createDirAll_of_look
    intro q hq
    by_cases hqs : q = staging
    · rw [hqs]
      exact .inr hnone
    · refine .inl ?_
      have hbelow : q <+: self.instances := by
        rw [← hparent]
        rw [← dropLast_append_getLast hempty, prefix_concat_iff] at hq
        rcases hq with hq | hq
        · rw [dropLast_append_getLast hempty] at hq
          exact absurd hq hqs
        · exact hq
      by_cases hqi : q = self.instances
      · rw [hqi]
        exact hinstances
      · exact look_above hbelow hqi (by simp [hinstances])
  refine Ends.seq (ends_change_of_some
    (fun o ho hfault e => hX s o ho hfault e s) ht₁ ?_)
  have hdir : t₁.look staging = some .dir := by
    rw [look_createDirAll ht₁, if_pos prefix_rfl]
  have hapart : ∀ q, ¬ (self.snapshotDir snapshotId ++ q) <+: staging ∧
      ¬ staging <+: (self.snapshotDir snapshotId ++ q) := by
    intro q
    rw [hstaging]
    unfold Handle.snapshotDir Handle.instances
    rw [append_assoc, append_assoc]
    exact ⟨not_below (by decide), not_below (by decide)⟩
  have hcopies : Ends good
      (fun _ s' => (∀ e ∈ manifest.files.entries, sha256 (bytes e.1) = e.2) ∧
        Placed staging (manifest.files.entries.map Prod.fst) bytes (s.withFiles t₁).files s'.files)
      (fun _ _ => ∀ e s', X e s')
      (restoreFiles (self.snapshotDir snapshotId) staging manifest.files.entries)
      (s.withFiles t₁) := by
    apply ends_restoreFiles (fun s o ho hfault _ _ => hX s o ho hfault) ?_
      (nodup_names_entries manifest.files) hdir ?_ ?_ fun hbad _ _ => hmismatch hbad
    · rintro hsame
      have hbelow := (hapart []).1
      rw [append_nil, hsame] at hbelow
      exact hbelow prefix_rfl
    · intro e he
      rw [withFiles_files, look_createDirAll ht₁, if_neg, look_append_of_none hnone]
      exact not_prefix_of_length (by simp)
    · intro e he
      rw [withFiles_files, look_createDirAll ht₁, if_neg (hapart [e.1]).1]
      exact hsource e he
  refine Ends.bind (ends_onError (hcopies.mono (fun _ _ h => h) fun _ s' hall =>
    Ends.always (fun _ s'' e => hall e s'') fun _ s'' e => hall e s'')) ?_
  rintro _ s₅ ⟨hdigests, hplaced⟩
  -- the staging directory takes the place of the instance directory
  have hbefore : ∀ q, ¬ staging <+: q → s₅.files.look q = t₁.look q := by
    intro q hq
    apply hplaced.others
    intro name _ hsame
    rw [hsame] at hq
    exact hq (prefix_append _ _)
  obtain ⟨t₃, ht₃⟩ : ∃ t₃, s₅.files.rename staging (self.instanceDir j) = some t₃ := by
    rw [hstaging]
    apply rename_of_fresh
    · rw [← hstaging, hplaced.others]
      · simp [hdir]
      intro name _ hsame
      have hlength := congrArg List.length hsame
      simp at hlength
    · by_cases hsame : stem j.asStr ++ "." ++ "restore-staging" = j.asStr
      · exact .inl hsame
      · refine .inr ?_
        have hplace : ∀ r : Path, self.instances ++ [j.asStr] ≠ staging ++ r := by
          intro r hr
          rw [hstaging, append_assoc] at hr
          have hname := append_cancel_left hr
          simp only [cons_append, nil_append, List.cons.injEq] at hname
          exact hsame hname.1.symm
        rw [hbefore _ fun hbelow => ?_, look_createDirAll ht₁, if_neg fun hbelow => ?_]
        · exact hfresh.directory
        · rw [hstaging] at hbelow
          have hend := hbelow.eq_of_length_le (by simp)
          have hname : j.asStr = stem j.asStr ++ "." ++ "restore-staging" := by simpa using hend
          exact hsame hname.symm
        · obtain ⟨r, hr⟩ := hbelow
          exact hplace r hr.symm
  refine Ends.seq (ends_change_of_some
    (fun o ho hfault e => hX s₅ o ho hfault e s₅) ht₃ ?_)
  exact ⟨hdigests, restored_of_placed hnone ht₁ hplaced ht₃⟩

/-! ## Creating -/

theorem ends_regularFiles (names : List String) :
    Ends good
      (fun components s' => s' = s ∧ components = (names.filter fun name =>
        isFileEntry (s.files.look (directory ++ [name]))).map fun name =>
          (name, directory ++ [name])) (fun _ _ => True) (regularFiles directory names) s := by
  induction names with
  | nil => exact ⟨rfl, rfl⟩
  | cons name names ih =>
    refine Ends.value (ends_metadata (fun _ _ _ _ => trivial)) fun entry hentry => ?_
    rw [hentry]
    refine Ends.bind ih ?_
    intro components s₂ h₂
    obtain ⟨hs₂, hcomponents⟩ := h₂
    refine ⟨hs₂, ?_⟩
    rw [hcomponents, filter_cons]
    split <;> rfl

/-- The copies of a snapshot: a file for each component, with its digest in the map. -/
theorem ends_copySnapshotComponents {staging : Path} {bytes : String → List UInt8}
    {names : List String} {files : SortedMap String String} (hapart : directory ≠ staging)
    (hnodup : names.Nodup)
    (hsource : ∀ name ∈ names, s.files.look (directory ++ [name]) = some (.file (bytes name))) :
    Ends good
      (fun digests s' => s'.tables = s.tables ∧
        Placed staging names bytes s.files s'.files ∧ ∀ name digest,
          digests.get? name = some digest ↔
            (name ∈ names ∧ digest = sha256 (bytes name)) ∨
              (name ∉ names ∧ files.get? name = some digest)) (fun _ _ => True)
      (copySnapshotComponents staging (names.map fun name => (name, directory ++ [name])) files)
      s := by
  induction names generalizing s files with
  | nil => exact ⟨rfl, Placed.nil _ _ _, fun name digest => by simp⟩
  | cons name names ih =>
    obtain ⟨hnew, hnodup⟩ := nodup_cons.1 hnodup
    have hne : ∀ other, directory ++ [other] ≠ staging ++ [name] := by
      intro other hsame
      exact hapart (append_inj_left' hsame rfl)
    unfold copySnapshotComponents
    rw [map_cons]
    dsimp only
    split
    · trivial
    refine Ends.seq (ends_change (fun _ _ _ _ => trivial) (fun _ _ => trivial)
      fun t₁ ht₁ => ?_)
    refine Ends.bind (M := fun digest s' => ∃ t, digest = sha256 (bytes name) ∧
      t₁.write (staging ++ [name]) (bytes name) = some t ∧ s' = s.withFiles t)
      (ends_copyAndHash (fun _ _ _ => trivial) ?_) ?_
    · intro read t hread ht
      rw [withFiles_files, look_write ht₁, if_neg (hne name), hsource name mem_cons_self] at hread
      cases hread
      exact ⟨t, rfl, ht, rfl⟩
    rintro digest _ ⟨t₂, hdigest, ht₂, rfl⟩
    have hlook := look_write_write ht₁ ht₂
    refine (ih (s := s.withFiles t₂) hnodup ?_).mono ?_ fun _ _ _ => trivial
    · intro other hother
      rw [withFiles_files, hlook, if_neg (hne other)]
      exact hsource other (mem_cons_of_mem _ hother)
    · rintro digests s₃ ⟨htables, hplaced, hfiles⟩
      refine ⟨htables, Placed.cons hlook hplaced hnew, fun other digest' => ?_⟩
      rw [hfiles, SortedMap.get?_insert, hdigest, mem_cons]
      by_cases hother : other = name
      · rw [hother]
        simp [hnew, eq_comm]
      · simp [hother]

/-- The files of a directory are the names that are files. -/
theorem mem_filter_names :
    name ∈ (t.names directory).filter (fun name => isFileEntry (t.look (directory ++ [name]))) ↔
      ∃ bytes, t.look (directory ++ [name]) = some (.file bytes) := by
  rw [mem_filter, mem_names]
  constructor
  · rintro ⟨-, hfile⟩
    unfold isFileEntry at hfile
    split at hfile
    · next bytes hlook => exact ⟨bytes, hlook⟩
    · cases hfile
  · rintro ⟨bytes, hlook⟩
    simp [hlook, isFileEntry]

theorem contents_of_look {bytes : List UInt8}
    (h : t.look (directory ++ [name]) = some (.file bytes)) : contents t directory name = bytes := by
  unfold contents
  rw [h]

/-- The insertion of a snapshot adds its row. -/
theorem find?_insertSnapshot {w w' : Workspace} {manifest : SnapshotRow}
    (h : w.insertSnapshot manifest = (.ok (), w')) :
    w'.snapshots.find? manifest.snapshotId = some manifest := by
  unfold Workspace.insertSnapshot at h
  split at h
  · next hinsert =>
    split at h
    · cases h
    · cases h
      rw [Table.find?_insert hinsert, if_pos rfl]
  · cases h

/-- A snapshot that is created holds the files directly in the directory of the instance. -/
theorem ends_createInstanceSnapshot (snapshotId i : Id) (s : Store) :
    Ends good (fun manifest s' => Captured self snapshotId i s manifest s') (fun _ _ => True)
      (createInstanceSnapshot self snapshotId i) s := by
  refine Ends.bind (M := fun names s' => s' = s ∧ names = s.files.names (self.instanceDir i) ∧
    s.files.look (self.instanceDir i) = some .dir)
    (ends_readDir (fun _ _ _ _ => trivial) (fun _ _ => trivial) fun h => ⟨rfl, rfl, h⟩) ?_
  intro names s₁ h₁
  obtain ⟨hs₁, hnames, hinstance⟩ := h₁
  rw [hs₁]
  refine Ends.bind (ends_regularFiles names) ?_
  intro components s₂ h₂
  obtain ⟨hs₂, hcomponents⟩ := h₂
  rw [hs₂, hcomponents, hnames]
  refine Ends.bind (M := fun row s' => s' = s ∧ s.tables.instanceRow i = some row)
    (ends_select (fun _ _ _ _ => trivial) (fun _ _ => trivial) ?_) ?_
  · intro row hrow
    refine ⟨rfl, ?_⟩
    unfold Workspace.instance_ at hrow
    split at hrow
    · next found hfound =>
      cases hrow
      exact hfound
    · cases hrow
  intro row s₃ h₃
  obtain ⟨hs₃, hrow⟩ := h₃
  rw [hs₃]
  split
  · trivial
  refine Ends.value ends_exists fun taken _ => ?_
  split
  · trivial
  have hother : ∀ q, ¬ self.instanceDir i ++ q <+: self.snapshotStaging snapshotId ∧
      ¬ self.snapshotStaging snapshotId <+: self.instanceDir i ++ q := by
    intro q
    rw [instanceDir_eq, append_assoc]
    exact ⟨not_below (by decide), not_below (by decide)⟩
  have hinstances : ∀ a b : String, a ≠ "instances" → ¬ self.root ++ [a, b] <+: self.instances :=
    fun a b hab => not_below hab
  generalize hstaging : self.snapshotStaging snapshotId = staging at *
  refine Ends.seq (ends_change (fun _ _ _ _ => trivial) (fun _ _ => trivial) fun t₁ ht₁ => ?_)
  have hsame : ∀ q, t₁.look (self.instanceDir i ++ q) = s.files.look (self.instanceDir i ++ q) := by
    intro q
    rw [look_createDirAll ht₁, if_neg (hother q).1]
  have hsource : ∀ name ∈ (s.files.names (self.instanceDir i)).filter
      (fun name => isFileEntry (s.files.look (self.instanceDir i ++ [name]))),
      (s.withFiles t₁).files.look (self.instanceDir i ++ [name]) =
        some (.file (contents s.files (self.instanceDir i) name)) := by
    intro name hname
    obtain ⟨bytes, hbytes⟩ := mem_filter_names.1 hname
    rw [contents_of_look hbytes, withFiles_files, hsame, hbytes]
  have hdistinct := ((nodup_names s.files (self.instanceDir i)).filter
    fun name => isFileEntry (s.files.look (self.instanceDir i ++ [name])))
  have hapart : self.instanceDir i ≠ staging := by
    intro h
    have hbelow := (hother []).1
    rw [append_nil, h] at hbelow
    exact hbelow prefix_rfl
  refine Ends.bind (ends_onError ((ends_copySnapshotComponents hapart hdistinct hsource).mono
    (fun _ _ h => h) fun _ _ _ => Ends.always (fun _ _ _ => trivial) fun _ _ _ => trivial)) ?_
  rintro digests s₅ ⟨htables, hplaced, hdigests⟩
  refine Ends.bind (ends_writeFile (fun _ _ => trivial) _ _) ?_
  rintro _ s₆ ⟨htables₆, hlook₆⟩
  refine Ends.seq (ends_change (fun _ _ _ _ => trivial) (fun _ _ => trivial) fun t₇ ht₇ => ?_)
  have hmoved : ∀ q, t₇.look (self.snapshotDir snapshotId ++ q) = s₆.files.look (staging ++ q) := by
    intro q
    rw [look_rename ht₇, if_pos (prefix_append _ q), drop_left]
    rw [← hstaging]
    unfold Handle.snapshotStaging Handle.snapshotDir
    simp
  refine Ends.bind (M := fun result s' => ∀ u, result = .ok u →
      s'.files = t₇ ∧ s'.tables.snapshots.find? snapshotId = some
        { snapshotId, instanceId := i, generation := row.revision, files := digests })
    (Ends.attempt (ends_statement ?_ ?_ ?_)) ?_
  · exact fun _ _ _ _ _ => nofun
  · exact fun _ _ _ => nofun
  · intro u hu _ _
    refine ⟨rfl, ?_⟩
    exact find?_insertSnapshot (Prod.ext hu rfl)
  intro result s₈ h₈
  cases result with
  | error e => trivial
  | ok u =>
    obtain ⟨hfiles, hfind⟩ := h₈ u rfl
    constructor
    · exact hfind
    · constructor
      · rfl
      · rfl
      · exact ⟨row, hrow, rfl⟩
      · intro name digest
        rw [hdigests, mem_filter_names]
        constructor
        · rintro (⟨⟨bytes, hbytes⟩, hdigest⟩ | ⟨-, hnone⟩)
          · refine ⟨bytes, hbytes, ?_⟩
            rw [hdigest, contents_of_look hbytes]
          · cases hnone
        · rintro ⟨bytes, hbytes, hdigest⟩
          refine .inl ⟨⟨bytes, hbytes⟩, ?_⟩
          rw [hdigest, contents_of_look hbytes]
    · intro name bytes hbytes hname
      rw [hfiles, hmoved, hlook₆, if_neg (by simpa using hname),
        hplaced.placed name (mem_filter_names.2 ⟨bytes, hbytes⟩), contents_of_look hbytes]
    · rw [hfiles, hmoved, hlook₆, if_pos rfl]
    · have hdir : t₁.look self.instances = some .dir := by
        rw [look_createDirAll ht₁]
        split
        · rfl
        · refine look_above (p := self.instanceDir i) (prefix_append _ _) ?_ ?_
          · simp [Handle.instanceDir]
          · simp [hinstance]
      have hnot : ∀ q, self.instances ≠ staging ++ q := by
        intro q h
        rw [← hstaging] at h
        exact hinstances "staging" _ (by decide) ⟨q, h.symm⟩
      have hsnapshots : ¬ self.snapshotDir snapshotId <+: self.instances :=
        hinstances "snapshots" _ (by decide)
      rw [hfiles, look_rename ht₇, if_neg hsnapshots, if_neg, hlook₆, if_neg (hnot _),
        hplaced.others _ fun name _ => hnot _]
      · exact hdir
      · rintro ⟨q, hq⟩
        exact hnot q hq.symm
      · rw [← hstaging]
        simp [Handle.snapshotStaging, Handle.snapshotDir]

/-! ## The round trip -/

/-- What a snapshot directory has under the name of an entry. -/
def snapshotBytes (self : Handle) (i : Id) (t : FileTree) (manifest : SnapshotRow)
    (name : String) : List UInt8 :=
  if name = "manifest.json" then textBytes manifest.json
  else contents t (self.instanceDir i) name

section RoundTrip

variable {manifest : SnapshotRow} {s' : Store}

theorem mem_entries_iff (h : Captured self snapshotId i s manifest s') {digest : String} :
    (name, digest) ∈ manifest.files.entries ↔ ∃ bytes,
      s.files.look (self.instanceDir i ++ [name]) = some (.file bytes) ∧ digest = sha256 bytes := by
  rw [← SortedMap.get?_eq_some_iff]
  exact h.records.files name digest

theorem Captured.look (h : Captured self snapshotId i s manifest s')
    (e : String × String) (he : e ∈ manifest.files.entries) :
    s'.files.look (self.snapshotDir snapshotId ++ [e.1]) =
      some (.file (snapshotBytes self i s.files manifest e.1)) := by
  unfold snapshotBytes
  by_cases hname : e.1 = "manifest.json"
  · rw [if_pos hname, hname]
    exact h.text
  · obtain ⟨bytes, hbytes, -⟩ := (mem_entries_iff h).1 he
    rw [if_neg hname, contents_of_look hbytes]
    exact h.files e.1 bytes hbytes hname

/-- The manifest of an instance is determined. -/
theorem IsManifest.eq {m : SnapshotRow} (h : IsManifest self snapshotId i s manifest)
    (h' : IsManifest self snapshotId i s m) : m = manifest := by
  obtain ⟨row, hrow, hgeneration⟩ := h.generation
  obtain ⟨row', hrow', hgeneration'⟩ := h'.generation
  rw [hrow] at hrow'
  cases hrow'
  have hfiles : m.files = manifest.files := by
    apply SortedMap.ext_get?
    intro name
    apply Option.ext
    intro digest
    rw [h.files, h'.files]
  cases m
  cases manifest
  simp only [SnapshotRow.mk.injEq]
  exact ⟨h'.snapshotId.trans h.snapshotId.symm, h'.instanceId.trans h.instanceId.symm,
    hgeneration'.trans hgeneration.symm, hfiles⟩

/-- The files of a complete instance are what the snapshot directory has. -/
theorem Complete.bytes (hcomplete : Complete self snapshotId i s)
    (h : Captured self snapshotId i s manifest s') {bytes : List UInt8}
    (hbytes : s.files.look (self.instanceDir i ++ [name]) = some (.file bytes)) :
    snapshotBytes self i s.files manifest name = bytes := by
  unfold snapshotBytes
  by_cases hname : name = "manifest.json"
  · rw [if_pos hname]
    rw [hname] at hbytes
    exact (hcomplete.reserved manifest h.records bytes hbytes).symm
  · rw [if_neg hname, contents_of_look hbytes]

/-- Of a snapshot that was created, a restore has every file exactly when the source was
complete. -/
theorem restores_iff_of_captured (h : Captured self snapshotId i s manifest s')
    (hfresh : FreshInstance self j s') :
    Restores self snapshotId i j s.files s' ↔ Complete self snapshotId i s := by
  constructor
  · intro hrestores
    have hrun : Ends Faultless
        (fun _ s₂ => (∀ e ∈ manifest.files.entries,
            sha256 (snapshotBytes self i s.files manifest e.1) = e.2) ∧
          Restored (self.instanceDir j) manifest.files.entries
            (snapshotBytes self i s.files manifest) s₂.files)
        (fun _ _ => True) (restoreSnapshot self snapshotId (self.instanceDir j)) s' :=
      ends_restoreSnapshot covers_true h.row hfresh h.instances h.look fun _ _ _ => trivial
    have hboth := (hrestores.and hrun).mono (fun _ _ h => h)
      fun _ _ h => (h.1 : (fun (_ : Error) (_ : Store) => False) _ _)
    obtain ⟨_, s₂, hreproduces, -, hrestored⟩ := hboth.exists fun _ => ⟨{}, rfl⟩
    constructor
    · intro q bytes hbytes
      obtain ⟨e, -, hq, -⟩ := (hrestored q bytes).1 (hreproduces q bytes hbytes)
      exact ⟨e.1, hq⟩
    · intro m hm bytes hbytes
      obtain ⟨e, -, hq, hsame⟩ := (hrestored _ bytes).1 (hreproduces _ bytes hbytes)
      simp only [List.cons.injEq, and_true] at hq
      rw [hsame, ← hq, h.records.eq hm]
      rfl
  · intro hcomplete
    have hrun : Ends Faultless
        (fun _ s₂ => (∀ e ∈ manifest.files.entries,
            sha256 (snapshotBytes self i s.files manifest e.1) = e.2) ∧
          Restored (self.instanceDir j) manifest.files.entries
            (snapshotBytes self i s.files manifest) s₂.files)
        (fun _ _ => False) (restoreSnapshot self snapshotId (self.instanceDir j)) s' := by
      refine ends_restoreSnapshot covers_faultless h.row hfresh h.instances h.look ?_
      rintro ⟨e, he, hne⟩
      obtain ⟨bytes, hbytes, hdigest⟩ := (mem_entries_iff h).1 he
      rw [hcomplete.bytes h hbytes, hdigest] at hne
      exact absurd rfl hne
    refine hrun.mono ?_ fun _ _ h => h
    rintro _ s₂ ⟨-, hrestored⟩ q bytes hbytes
    obtain ⟨name, rfl⟩ := hcomplete.direct q bytes hbytes
    exact (hrestored _ bytes).2 ⟨(name, sha256 bytes),
      (mem_entries_iff h).2 ⟨bytes, hbytes, rfl⟩, rfl, (hcomplete.bytes h hbytes).symm⟩

end RoundTrip

/-- Whenever a snapshot of an instance is created, its restore into a fresh instance returns and
has every file of the source exactly when the source was complete. -/
theorem restores_iff_complete (self : Handle) (snapshotId i j : Id) (s : Store) :
    Ends (fun _ _ => True)
      (fun _ s' => FreshInstance self j s' →
        (Restores self snapshotId i j s.files s' ↔ Complete self snapshotId i s))
      (fun _ _ => True) (createInstanceSnapshot self snapshotId i) s :=
  (ends_createInstanceSnapshot snapshotId i s).mono
    (fun _ _ h hfresh => restores_iff_of_captured h hfresh) fun _ _ h => h

/-- What is in a directory is the same in both. -/
def SameIn (p : Path) (t t' : FileTree) : Prop := ∀ q, t'.look (p ++ q) = t.look (p ++ q)

/-- Restored as long as its directory and its row are as they were created, a snapshot gives an
instance of which a snapshot, as long as its directory is as it was restored, has the same files. -/
theorem snapshot_of_restored (self : Handle) (snapshotId again i j : Id) (s : Store) :
    Ends (fun _ _ => True)
      (fun manifest s' => ∀ s₁, SameIn (self.snapshotDir snapshotId) s'.files s₁.files →
        s₁.tables.snapshots.find? snapshotId = s'.tables.snapshots.find? snapshotId →
        s₁.files.look self.instances = some .dir → FreshInstance self j s₁ →
        Ends (fun _ _ => True)
          (fun _ s₂ => ∀ s₃, SameIn (self.instanceDir j) s₂.files s₃.files →
            Ends (fun _ _ => True) (fun manifest' _ => manifest'.files = manifest.files)
              (fun _ _ => True) (createInstanceSnapshot self again j) s₃)
          (fun _ _ => True) (restoreSnapshot self snapshotId (self.instanceDir j)) s₁)
      (fun _ _ => True) (createInstanceSnapshot self snapshotId i) s := by
  refine (ends_createInstanceSnapshot snapshotId i s).mono ?_ fun _ _ h => h
  intro manifest s' h s₁ hsource hrow hinstances hfresh
  refine (ends_restoreSnapshot covers_true (hrow.trans h.row) hfresh hinstances
    (fun e he => (hsource _).trans (h.look e he)) fun _ _ _ => trivial).mono ?_ fun _ _ h => h
  rintro _ s₂ ⟨hdigests, hrestored⟩ s₃ hsame
  refine (ends_createInstanceSnapshot again j s₃).mono (fun manifest' _ h' => ?_) fun _ _ h => h
  apply SortedMap.ext_get?
  intro name
  apply Option.ext
  intro digest
  rw [h'.records.files, SortedMap.get?_eq_some_iff]
  constructor
  · rintro ⟨bytes, hbytes, rfl⟩
    rw [hsame] at hbytes
    obtain ⟨e, he, hname, rfl⟩ := (hrestored _ bytes).1 hbytes
    cases hname
    rw [hdigests e he]
    exact he
  · intro he
    refine ⟨_, (hsame [name]).trans ((hrestored [name] _).2 ⟨_, he, rfl, rfl⟩), ?_⟩
    exact (hdigests _ he).symm

/-! ## A file in a subdirectory -/

/-- A stopped instance with TPM state, as its preparation leaves it. -/
def stoppedWithTpm : Store where
  tables := (({} : Workspace).insertInstance ⟨"vm"⟩ ⟨"win11"⟩ ⟨"desktop"⟩).2.setLifecycle ⟨"vm"⟩
    .stopped
  files := .dir [("workspace", .dir [("staging", .dir []), ("snapshots", .dir []),
    ("instances", .dir [("vm", .dir [("OVMF_VARS.fd", .file [1]),
      ("tpm", .dir [("tpm2-00.permall", .file [2])])])])])]

/-- The snapshot of the instance is created, and no restore has its TPM state. -/
theorem not_restores : ¬ ∀ (self : Handle) (snapshotId i j : Id) (s : Store),
    Ends (fun _ _ => True)
      (fun _ s' => FreshInstance self j s' → Restores self snapshotId i j s.files s')
      (fun _ _ => True) (createInstanceSnapshot self snapshotId i) s := by
  intro h
  let self : Handle := { root := ["workspace"], pid := 7 }
  have hrun := (h self ⟨"snap"⟩ ⟨"vm"⟩ ⟨"copy"⟩ stoppedWithTpm).and
    (ends_createInstanceSnapshot ⟨"snap"⟩ ⟨"vm"⟩ stoppedWithTpm)
  obtain ⟨r, s', hcheck, hQ, -⟩ := hrun.of_eval (fun _ _ => true) {} []
    (fun r => r.1.isOk && decide (r.2.files.look (self.instanceDir ⟨"copy"⟩) = none) &&
      decide (r.2.files.look
        (withExtension (self.instanceDir ⟨"copy"⟩) "restore-staging") = none))
    (fun _ _ _ => trivial) (by decide +kernel)
  simp only [Bool.and_eq_true, decide_eq_true_eq] at hcheck
  obtain ⟨⟨hok, hdirectory⟩, hstaging⟩ := hcheck
  cases r with
  | error e => cases hok
  | ok manifest =>
    obtain ⟨hrestores, hcaptured⟩ := hQ manifest rfl
    have hfresh : FreshInstance self ⟨"copy"⟩ s' := ⟨hdirectory, hstaging⟩
    have hcomplete := (restores_iff_of_captured hcaptured hfresh).1 (hrestores hfresh)
    obtain ⟨name, hname⟩ := hcomplete.direct ["tpm", "tpm2-00.permall"] [2] (by decide +kernel)
    simp at hname

end Store

end MachineEmu
