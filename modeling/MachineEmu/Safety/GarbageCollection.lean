import MachineEmu.Storage.Garbage

/-!
# The safety of garbage collection

A collection keeps the objects whose names occur in a file of the workspace that it scans. So it
keeps every object that is referenced exactly if each of them is named that way.

* `Referenced`, `Keeps`, `Marked` — the statement.
* `ends_scanMetadata`, `ends_removeCandidates`, `ends_collect` — what the procedures do.
* `keeps_iff_marked` — the result.
-/

namespace MachineEmu

open Lib Prog List FileTree

namespace Garbage

open Store

variable (handle : Handle)

/-! ## Statements -/

/-- The objects that are referenced: `references` gives the digests that a reader takes from the
bytes of a file. A file of the workspace outside the store is metadata; an object that is
referenced may reference other ones, such as its backing file. -/
inductive Referenced (references : List UInt8 → Set String) (files : FileTree) : String → Prop
  | metadata {q : Path} {bytes : List UInt8} {digest : String} :
      files.look (handle.root ++ q) = some (.file bytes) → ¬ handle.objects <+: handle.root ++ q →
        digest ∈ references bytes → Referenced references files digest
  | backing {object digest : String} {bytes : List UInt8} :
      Referenced references files object → files.look (handle.object object) = some (.file bytes) →
        digest ∈ references bytes → Referenced references files digest

/-- The files after some objects were removed. -/
def Removed (files files' : FileTree) (digests : List String) : Prop :=
  ∀ p, files'.look p = if p ∈ digests.map handle.object then none else files.look p

/-- A collection keeps the objects that are referenced, and a dry run reports the objects that a
collection removes; a collection that fails has removed some of them. -/
structure Keeps (references : List UInt8 → Set String) (s : Store) : Prop where
  kept : ∀ digest bytes, Referenced handle references s.files digest →
    s.files.look (handle.object digest) = some (.file bytes) → ∀ dryRun,
      Ends (fun _ _ => True)
        (fun _ s' => s'.files.look (handle.object digest) = some (.file bytes))
        (fun _ s' => s'.files.look (handle.object digest) = some (.file bytes))
        (collect handle dryRun) s
  dryRun : Ends (fun _ _ => True)
    (fun report s' => s' = s ∧
      Ends (fun _ _ => True)
        (fun report' s' => report'.removed = report.candidates ∧
          Removed handle s.files s'.files report.candidates)
        (fun _ s' => ∃ digests, digests ⊆ report.candidates ∧ Removed handle s.files s'.files digests)
        (collect handle false) s)
    (fun _ s' => s' = s) (collect handle true) s

/-- A digest occurs in a file below a path that is scanned. -/
def Marked (files : FileTree) (p : Path) (digest : String) : Prop :=
  ∃ q bytes, files.look (p ++ q) = some (.file bytes) ∧ ¬ handle.objects <+: p ++ q ∧
    bytes.length ≤ maxMetadataBytes ∧ contains bytes digest = true

/-! ## The scan -/

variable {handle} {good : Store → Outcome → Prop} {X : Error → Store → Prop} {s : Store}
  {files : FileTree} {p : Path} {digest : String} {digests : List String}

theorem marked_of_dir (hdir : files.look p = some .dir) :
    Marked handle files p digest ↔
      ∃ name ∈ files.names p, Marked handle files (p ++ [name]) digest := by
  constructor
  · rintro ⟨q, bytes, hfile, hmarked⟩
    cases q with
    | nil =>
      rw [append_nil, hdir] at hfile
      cases hfile
    | cons name q =>
      have hsame : p ++ name :: q = p ++ [name] ++ q := by simp
      rw [hsame] at hfile hmarked
      refine ⟨name, ?_, q, bytes, hfile, hmarked⟩
      rw [mem_names]
      intro hnone
      rw [look_append_of_none hnone] at hfile
      cases hfile
  · rintro ⟨name, -, q, bytes, hfile, hmarked⟩
    rw [append_assoc] at hfile hmarked
    exact ⟨name :: q, bytes, hfile, hmarked⟩

variable {bytes : List UInt8}

theorem marked_of_file (hfile : files.look p = some (.file bytes))
    (houtside : ¬ handle.objects <+: p) :
    Marked handle files p digest ↔
      bytes.length ≤ maxMetadataBytes ∧ contains bytes digest = true := by
  constructor
  · rintro ⟨q, bytes', hfile', -, hmarked⟩
    cases q with
    | nil =>
      rw [append_nil, hfile] at hfile'
      cases hfile'
      exact hmarked
    | cons name q =>
      rw [look_append_of_file hfile (by simp)] at hfile'
      cases hfile'
  · rintro ⟨hsmall, hcontains⟩
    refine ⟨[], bytes, ?_, ?_, hsmall, hcontains⟩
    · rwa [append_nil]
    · rwa [append_nil]

theorem not_marked_of_below (hbelow : handle.objects <+: p) : ¬ Marked handle files p digest := by
  rintro ⟨q, bytes, -, houtside, -⟩
  exact houtside (hbelow.trans (prefix_append p q))

/-- The scan of some entries: `recurse` scans the directories among them. -/
theorem ends_scanEntries {objects : List String}
    {recurse : Path → Finset String → Task (Finset String)} {Q : Finset String → Store → Prop}
    {names : List String} {retained : Finset String}
    (hfault : ∀ o, good s o → o.fault ≠ none → ∀ e, X e s)
    (hobjects : s.files.look handle.objects = some .dir) (houtside : ¬ handle.objects <+: p)
    (hnames : ∀ name ∈ names, s.files.look (p ++ [name]) ≠ none)
    (hrecurse : ∀ name ∈ names, s.files.look (p ++ [name]) = some .dir →
      p ++ [name] ≠ handle.objects → ∀ (before : Finset String) (R : Finset String → Store → Prop),
        (∀ after : Finset String, (∀ digest, digest ∈ after ↔ digest ∈ before ∨
          digest ∈ objects ∧ Marked handle s.files (p ++ [name]) digest) → R after s) →
        Ends good R X (recurse (p ++ [name]) before) s)
    (hQ : ∀ after : Finset String, (∀ digest, digest ∈ after ↔ digest ∈ retained ∨
      digest ∈ objects ∧ ∃ name ∈ names, Marked handle s.files (p ++ [name]) digest) → Q after s) :
    Ends good Q X (scanEntries handle objects p recurse names retained) s := by
  induction names generalizing retained with
  | nil =>
    apply hQ
    simp
  | cons name rest ih =>
    unfold scanEntries
    refine Ends.bind (M := fun entry s' => s' = s ∧ entry = s.files.look (p ++ [name]))
      (ends_metadata hfault ⟨rfl, rfl⟩) ?_
    rintro entry s' ⟨hs, hentry⟩
    rw [hs]
    have hnames' : ∀ name ∈ rest, s.files.look (p ++ [name]) ≠ none :=
      fun name hname => hnames name (mem_cons_of_mem _ hname)
    have hrecurse' := fun name hname => hrecurse name (mem_cons_of_mem _ hname)
    -- what the rest adds to the digests of the entry
    have hrest : ∀ middle : Finset String, (∀ digest, digest ∈ middle ↔ digest ∈ retained ∨
        digest ∈ objects ∧ Marked handle s.files (p ++ [name]) digest) →
          Ends good Q X (scanEntries handle objects p recurse rest middle) s := by
      intro middle hmiddle
      apply ih hnames' hrecurse'
      intro after hafter
      apply hQ
      intro digest
      rw [hafter, hmiddle, exists_mem_cons_iff]
      tauto
    cases hlook : s.files.look (p ++ [name]) with
    | none => exact absurd hlook (hnames name mem_cons_self)
    | some found =>
      rw [hentry, hlook]
      cases found with
      | dir =>
        dsimp only
        split
        · next hsame =>
          apply hrest
          intro digest
          have hnot : ¬ Marked handle s.files (p ++ [name]) digest :=
            not_marked_of_below (by rw [hsame])
          tauto
        · next hother =>
          apply Ends.bind (M := fun middle s' => s' = s ∧ ∀ digest, digest ∈ middle ↔
            digest ∈ retained ∨ digest ∈ objects ∧ Marked handle s.files (p ++ [name]) digest)
          · apply hrecurse name mem_cons_self hlook hother
            exact fun after hafter => ⟨rfl, hafter⟩
          · rintro middle s' ⟨hs, hmiddle⟩
            rw [hs]
            exact hrest middle hmiddle
      | file bytes =>
        -- the entry is not below the store, as the store is a directory
        have hout : ¬ handle.objects <+: p ++ [name] := by
          intro hbelow
          rcases prefix_concat_iff.1 hbelow with hsame | hbelow
          · rw [← hsame, hobjects] at hlook
            cases hlook
          · exact houtside hbelow
        have hmarked : ∀ digest, Marked handle s.files (p ++ [name]) digest ↔
            bytes.length ≤ maxMetadataBytes ∧ contains bytes digest = true :=
          fun digest => marked_of_file hlook hout
        dsimp only
        split
        · next hlarge =>
          apply hrest
          intro digest
          have hnot : ¬ Marked handle s.files (p ++ [name]) digest := by
            rw [hmarked]
            omega
          tauto
        · next hsmall =>
          apply Ends.bind (M := fun read s' => s' = s ∧ read = bytes)
          · apply ends_readFile hfault
            · exact fun hnot => absurd hlook (hnot bytes)
            · intro read hread
              rw [hlook] at hread
              cases hread
              exact ⟨rfl, rfl⟩
          · rintro read s' ⟨hs, rfl⟩
            rw [hs]
            apply hrest
            intro digest
            rw [hmarked, Finset.mem_union, mem_toFinset, mem_filter]
            have hle := Nat.not_lt.1 hsmall
            tauto

/-- The scan of a directory finds the objects that are named below it. -/
theorem ends_scanMetadata {objects : List String} {fuel : Nat} {Q : Finset String → Store → Prop}
    {retained : Finset String} (hfault : ∀ o, good s o → o.fault ≠ none → ∀ e, X e s)
    (hobjects : s.files.look handle.objects = some .dir) (houtside : ¬ handle.objects <+: p)
    (hdir : s.files.look p = some .dir) (hfuel : s.files.height < fuel + p.length)
    (hQ : ∀ after : Finset String, (∀ digest, digest ∈ after ↔ digest ∈ retained ∨
      digest ∈ objects ∧ Marked handle s.files p digest) → Q after s) :
    Ends good Q X (scanMetadata handle objects fuel p retained) s := by
  induction fuel generalizing p retained Q with
  | zero =>
    -- the path is longer than any that there is
    have hle := length_le_height (t := s.files) (p := p) (by rw [hdir]; simp)
    omega
  | succ fuel ih =>
    unfold scanMetadata
    apply Ends.bind (M := fun names s' => s' = s ∧ names = s.files.names p)
    · apply ends_readDir hfault
      · exact fun hnot => absurd hdir hnot
      · exact fun _ => ⟨rfl, rfl⟩
    · rintro names s' ⟨hs, rfl⟩
      rw [hs]
      apply ends_scanEntries hfault hobjects houtside
      · exact fun name hname => mem_names.1 hname
      · intro name hname hlook hother before R hR
        apply ih _ hlook _ hR
        · intro hbelow
          rcases prefix_concat_iff.1 hbelow with hsame | hbelow
          · exact hother hsame.symm
          · exact houtside hbelow
        · rw [length_append, length_singleton]
          omega
      · intro after hafter
        apply hQ
        intro digest
        rw [hafter, marked_of_dir hdir]

/-! ## The objects -/

/-- The objects of the store, in order. -/
def objectsOf (handle : Handle) (files : FileTree) : List String :=
  ((files.names handle.objectRoot).filter fun name =>
    isFileEntry (files.look (handle.object name)) && isDigest name).mergeSort

open Classical in
/-- The objects that no file names. -/
noncomputable def candidatesOf (handle : Handle) (files : FileTree) : List String :=
  (objectsOf handle files).filter fun digest => ¬ Marked handle files handle.root digest

theorem mem_objectsOf : digest ∈ objectsOf handle files ↔
    isDigest digest = true ∧ ∃ bytes, files.look (handle.object digest) = some (.file bytes) := by
  unfold objectsOf
  rw [mem_mergeSort, mem_filter, mem_names, Bool.and_eq_true, isFileEntry_iff]
  constructor
  · exact fun h => ⟨h.2.2, h.2.1⟩
  · rintro ⟨hdigest, bytes, hfile⟩
    refine ⟨?_, ⟨bytes, hfile⟩, hdigest⟩
    rw [show handle.objectRoot ++ [digest] = handle.object digest from rfl, hfile]
    simp

theorem mem_candidatesOf : digest ∈ candidatesOf handle files ↔
    digest ∈ objectsOf handle files ∧ ¬ Marked handle files handle.root digest := by
  unfold candidatesOf
  simp

theorem nodup_candidatesOf (handle : Handle) (files : FileTree) :
    (candidatesOf handle files).Nodup := by
  apply List.Nodup.filter
  exact (mergeSort_perm _ _).nodup_iff.2 ((nodup_names files _).filter _)

theorem object_injective {a b : String} (h : handle.object a = handle.object b) : a = b := by
  unfold Handle.object at h
  simpa using h

theorem ends_objectNames {names : List String} {Q : List String → Store → Prop}
    (hfault : ∀ o, good s o → o.fault ≠ none → ∀ e, X e s)
    (hQ : Q (names.filter fun name => isFileEntry (s.files.look (p ++ [name])) && isDigest name) s) :
    Ends good Q X (objectNames p names) s := by
  induction names generalizing Q with
  | nil => exact hQ
  | cons name rest ih =>
    unfold objectNames
    refine Ends.bind (M := fun entry s' => s' = s ∧ entry = s.files.look (p ++ [name]))
      (ends_metadata hfault ⟨rfl, rfl⟩) ?_
    rintro entry s' ⟨hs, rfl⟩
    rw [hs]
    refine Ends.bind (M := fun found s' => s' = s ∧ found = rest.filter fun name =>
      isFileEntry (s.files.look (p ++ [name])) && isDigest name) (ih ⟨rfl, rfl⟩) ?_
    rintro found s' ⟨hs, rfl⟩
    rw [hs, ends_ret]
    rwa [filter_cons] at hQ

theorem Removed.nil (files : FileTree) : Removed handle files files [] := by
  intro p
  simp

theorem Removed.cons {files' files'' : FileTree}
    (h : ∀ q, files'.look q = if q = handle.object digest then none else files.look q)
    (h' : Removed handle files' files'' digests) : Removed handle files files'' (digest :: digests) := by
  intro p
  rw [h' p, h p, map_cons]
  simp only [mem_cons]
  split
  · next hmem => rw [if_pos (.inr hmem)]
  · next hmem =>
    split
    · next hsame => rw [if_pos (.inl hsame)]
    · next hother => rw [if_neg (not_or.2 ⟨hother, hmem⟩)]

/-- The candidates are removed one after the other; a failure leaves some of them. -/
theorem ends_removeCandidates {Q : List String → Store → Prop} (hnodup : digests.Nodup)
    (hfiles : ∀ digest ∈ digests, ∃ bytes, s.files.look (handle.object digest) = some (.file bytes))
    (hfault : ∀ some_ s' o, some_ ⊆ digests → Removed handle s.files s'.files some_ → good s' o →
      o.fault ≠ none → ∀ e, X e s')
    (hQ : ∀ s', Removed handle s.files s'.files digests → Q digests s') :
    Ends good Q X (removeCandidates handle digests) s := by
  induction digests generalizing s Q with
  | nil => exact hQ s (Removed.nil s.files)
  | cons digest rest ih =>
    obtain ⟨bytes, hfile⟩ := hfiles digest mem_cons_self
    obtain ⟨hnew, hrest⟩ := nodup_cons.1 hnodup
    have hnow : ∀ o, good s o → o.fault ≠ none → ∀ e, X e s :=
      fun o => hfault [] s o (nil_subset _) (Removed.nil s.files)
    unfold removeCandidates
    apply Ends.bind (M := fun removed s' => removed = true ∧ ∀ q, s'.files.look q =
      if q = handle.object digest then none else s.files.look q)
    · unfold removeFileIfAny
      refine Ends.bind (M := fun entry s' => s' = s ∧ entry = some (.file bytes))
        (ends_metadata hnow ⟨rfl, hfile⟩) ?_
      rintro entry s' ⟨hs, rfl⟩
      rw [hs]
      dsimp only
      obtain ⟨t, ht⟩ := removeFile_of_look (by simp [Handle.object]) hfile
      refine Ends.bind (M := fun _ s' => s' = s.withFiles t)
        (ends_change_of_some hnow ht rfl) ?_
      rintro _ s' hs'
      rw [hs', ends_ret]
      exact ⟨rfl, look_removeFile ht⟩
    · rintro removed s₁ ⟨rfl, hlook⟩
      apply Ends.bind (M := fun others s' => others = rest ∧ Removed handle s₁.files s'.files rest)
      · apply ih hrest
        · intro other hother
          obtain ⟨bytes', hfile'⟩ := hfiles other (mem_cons_of_mem _ hother)
          refine ⟨bytes', ?_⟩
          rw [hlook, if_neg, hfile']
          intro hsame
          rw [object_injective hsame] at hother
          exact hnew hother
        · intro some_ s' o hsub hremoved
          apply hfault (digest :: some_) s' o (cons_subset_cons digest hsub)
          exact Removed.cons hlook hremoved
        · exact fun s' hremoved => ⟨rfl, hremoved⟩
      · rintro others s' ⟨rfl, hremoved⟩
        exact hQ s' (Removed.cons hlook hremoved)

/-! ## The collection -/

theorem ends_readDirIfAny {Q : Option (List String) → Store → Prop}
    (hfault : ∀ o, good s o → o.fault ≠ none → ∀ e, X e s) (hdir : s.files.look p = some .dir)
    (hQ : Q (some (s.files.names p)) s) : Ends good Q X (readDirIfAny p) s := by
  refine Ends.ask fun o ho => ?_
  cases hfail : o.fault with
  | some detail => exact hfault o ho (by simp [hfail]) _
  | none =>
    dsimp only
    rw [ends_act]
    dsimp only [id]
    rw [hdir]
    exact hQ

theorem objectRoot_eq (handle : Handle) : handle.objectRoot = handle.objects ++ ["sha256"] := by
  simp [Handle.objectRoot, Handle.objects]

/-- The store is a directory if the directory of the objects is. -/
theorem objects_of_objectRoot (hdir : files.look handle.objectRoot = some .dir) :
    files.look handle.objects = some .dir ∧ files.look handle.root = some .dir := by
  have hexists : files.look handle.objectRoot ≠ none := by
    rw [hdir]
    simp
  constructor
  · apply look_above _ _ hexists
    · rw [objectRoot_eq]
      exact prefix_append _ _
    · simp [objectRoot_eq]
  · apply look_above _ _ hexists
    · exact prefix_append _ _
    · simp [Handle.objectRoot]

theorem not_objects_prefix_root (handle : Handle) : ¬ handle.objects <+: handle.root := by
  intro h
  have hle := h.length_le
  simp [Handle.objects] at hle

/-- What a collection removes. -/
noncomputable def removedOf (handle : Handle) (files : FileTree) (dryRun : Bool) : List String :=
  if dryRun then [] else candidatesOf handle files

/-- A collection reports the candidates and removes them, unless it is a dry run. -/
theorem ends_collect {Q : GarbageCollectionReport → Store → Prop} {dryRun : Bool}
    (hdir : s.files.look handle.objectRoot = some .dir)
    (hfault : ∀ s' o, (∃ some_, some_ ⊆ removedOf handle s.files dryRun ∧
        Removed handle s.files s'.files some_) → (dryRun = true → s' = s) → good s' o →
      o.fault ≠ none → ∀ e, X e s')
    (hQ : ∀ report s', report.candidates = candidatesOf handle s.files →
      report.removed = removedOf handle s.files dryRun →
      Removed handle s.files s'.files (removedOf handle s.files dryRun) → (dryRun = true → s' = s) →
        Q report s') :
    Ends good Q X (collect handle dryRun) s := by
  have hnow : ∀ o, good s o → o.fault ≠ none → ∀ e, X e s :=
    fun o => hfault s o ⟨[], nil_subset _, Removed.nil s.files⟩ fun _ => rfl
  obtain ⟨hobjects, hroot⟩ := objects_of_objectRoot hdir
  unfold collect
  refine Ends.bind (M := fun entries s' => s' = s ∧ entries = some (s.files.names handle.objectRoot))
    (ends_readDirIfAny hnow hdir ⟨rfl, rfl⟩) ?_
  rintro entries s' ⟨hs, rfl⟩
  rw [hs]
  dsimp only
  refine Ends.bind (M := fun names s' => s' = s ∧ names.mergeSort = objectsOf handle s.files)
    (ends_objectNames hnow ⟨rfl, rfl⟩) ?_
  rintro names s' ⟨hs, hnames⟩
  rw [hs, hnames]
  apply Ends.bind (M := fun retained s' => s' = s ∧ ∀ digest, digest ∈ retained ↔
    digest ∈ objectsOf handle s.files ∧ Marked handle s.files handle.root digest)
  · unfold referencedDigests
    rw [ends_act]
    apply ends_scanMetadata hnow hobjects (not_objects_prefix_root handle) hroot
    · omega
    · intro after hafter
      refine ⟨rfl, fun digest => ?_⟩
      rw [hafter]
      simp
  rintro retained s' ⟨hs, hretained⟩
  rw [hs]
  have hcandidates : ((objectsOf handle s.files).filter fun digest => digest ∉ retained) =
      candidatesOf handle s.files := by
    unfold candidatesOf
    apply filter_congr
    intro digest hdigest
    simp [hretained, hdigest]
  rw [hcandidates]
  -- what is removed
  apply Ends.bind (M := fun removed s' => removed = removedOf handle s.files dryRun ∧
    Removed handle s.files s'.files (removedOf handle s.files dryRun) ∧ (dryRun = true → s' = s))
  · unfold removedOf
    cases dryRun with
    | true => exact ⟨rfl, Removed.nil s.files, fun _ => rfl⟩
    | false =>
      apply ends_removeCandidates (nodup_candidatesOf handle s.files)
      · exact fun digest hdigest => (mem_objectsOf.1 (mem_candidatesOf.1 hdigest).1).2
      · intro some_ s' o hsub hremoved
        exact hfault s' o ⟨some_, hsub, hremoved⟩ fun h => nomatch h
      · exact fun s' hremoved => ⟨rfl, hremoved, fun h => nomatch h⟩
  rintro removed s' ⟨rfl, hremoved, hsame⟩
  apply Ends.bind (M := fun _ s'' => s'' = s')
  · split
    · exact rfl
    · apply ends_change_of_some (t := s'.files)
      · exact fun o ho => hfault s' o ⟨_, List.Subset.refl _, hremoved⟩ hsame ho
      · rfl
      · exact withFiles_self s'
  · rintro _ s'' hs''
    rw [hs'', ends_ret]
    exact hQ _ s' rfl rfl hremoved hsame

/-- Without a store there is nothing to collect. -/
theorem ends_collect_of_not_dir {Q : GarbageCollectionReport → Store → Prop} {dryRun : Bool}
    (hdir : s.files.look handle.objectRoot ≠ some .dir) (hX : ∀ e, X e s)
    (hQ : Q ⟨dryRun, [], [], []⟩ s) : Ends good Q X (collect handle dryRun) s := by
  unfold collect
  apply Ends.bind (M := fun entries s' => s' = s ∧ entries = none)
  · refine Ends.ask fun o _ => ?_
    cases o.fault with
    | some detail => exact hX _
    | none =>
      dsimp only
      rw [ends_act]
      dsimp only [id]
      split
      · next hlook => exact absurd hlook hdir
      · exact hX _
      · split
        · exact hX _
        · exact ⟨rfl, rfl⟩
  · rintro entries s' ⟨hs, rfl⟩
    rw [hs]
    exact hQ

/-! ## The result -/

theorem dryRun_reports (handle : Handle) (s : Store) : Ends (fun _ _ => True)
    (fun report s' => s' = s ∧
      Ends (fun _ _ => True)
        (fun report' s' => report'.removed = report.candidates ∧
          Removed handle s.files s'.files report.candidates)
        (fun _ s' => ∃ digests, digests ⊆ report.candidates ∧ Removed handle s.files s'.files digests)
        (collect handle false) s)
    (fun _ s' => s' = s) (collect handle true) s := by
  by_cases hdir : s.files.look handle.objectRoot = some .dir
  · apply ends_collect hdir
    · exact fun s' o _ hsame _ _ _ => hsame rfl
    · intro report s' hcandidates _ _ hsame
      refine ⟨hsame rfl, ?_⟩
      rw [hcandidates]
      apply ends_collect hdir
      · exact fun s' o hremoved _ _ _ _ => hremoved
      · exact fun report' s' _ hreport hremoved _ => ⟨hreport, hremoved⟩
  · apply ends_collect_of_not_dir hdir
    · exact fun _ => rfl
    · refine ⟨rfl, ?_⟩
      apply ends_collect_of_not_dir hdir
      · exact fun _ => ⟨[], List.Subset.refl _, Removed.nil s.files⟩
      · exact ⟨rfl, Removed.nil s.files⟩

theorem look_of_removed {files' : FileTree} (h : Removed handle files files' digests)
    (hnot : digest ∉ digests) :
    files'.look (handle.object digest) = files.look (handle.object digest) := by
  rw [h, if_neg]
  intro hmem
  obtain ⟨other, hother, hsame⟩ := mem_map.1 hmem
  rw [object_injective hsame] at hother
  exact hnot hother

/-- An object that is not a candidate is kept. -/
theorem kept_of_not_candidate {dryRun : Bool}
    (hfile : s.files.look (handle.object digest) = some (.file bytes))
    (hnot : digest ∉ candidatesOf handle s.files) :
    Ends good (fun _ s' => s'.files.look (handle.object digest) = some (.file bytes))
      (fun _ s' => s'.files.look (handle.object digest) = some (.file bytes))
      (collect handle dryRun) s := by
  have hdir : s.files.look handle.objectRoot = some .dir :=
    look_parent (a := digest) (by
      rw [show handle.objectRoot ++ [digest] = handle.object digest from rfl, hfile]
      simp)
  have hnone : digest ∉ removedOf handle s.files dryRun := by
    unfold removedOf
    split
    · exact not_mem_nil
    · exact hnot
  apply ends_collect hdir
  · rintro s' o ⟨some_, hsub, hremoved⟩ - - - -
    rw [look_of_removed hremoved fun hmem => hnone (hsub hmem), hfile]
  · intro report s' _ _ hremoved _
    rw [look_of_removed hremoved hnone, hfile]

/-- A candidate is removed when no call fails. -/
theorem removed_of_candidate (hmem : digest ∈ candidatesOf handle s.files) :
    Ends Faultless (fun _ s' => s'.files.look (handle.object digest) = none) (fun _ _ => False)
      (collect handle false) s := by
  obtain ⟨-, bytes, hfile⟩ := mem_objectsOf.1 (mem_candidatesOf.1 hmem).1
  have hdir : s.files.look handle.objectRoot = some .dir :=
    look_parent (a := digest) (by
      rw [show handle.objectRoot ++ [digest] = handle.object digest from rfl, hfile]
      simp)
  apply ends_collect hdir
  · exact fun s' o _ _ ho hfault _ => absurd ho hfault
  · intro report s' _ _ hremoved _
    rw [hremoved, if_pos]
    exact mem_map_of_mem hmem

/-- An object that is referenced, and whose name occurs in no file that is scanned, is lost. -/
theorem not_keeps_of_not_marked {references : List UInt8 → Set String}
    (hreferenced : Referenced handle references s.files digest) (hdigest : isDigest digest = true)
    (hfile : s.files.look (handle.object digest) = some (.file bytes))
    (hnot : ¬ Marked handle s.files handle.root digest) : ¬ Keeps handle references s := by
  intro h
  have hmem : digest ∈ candidatesOf handle s.files :=
    mem_candidatesOf.2 ⟨mem_objectsOf.2 ⟨hdigest, bytes, hfile⟩, hnot⟩
  have hkept : Ends Faultless
      (fun _ s' => s'.files.look (handle.object digest) = some (.file bytes))
      (fun _ s' => s'.files.look (handle.object digest) = some (.file bytes))
      (collect handle false) s :=
    (h.kept digest bytes hreferenced hfile false).fewer fun _ _ _ => trivial
  have hboth := (hkept.and (removed_of_candidate hmem)).mono (fun _ _ h => h) fun _ _ h => h.2
  obtain ⟨report, s', hlook, hnone⟩ := hboth.exists fun _ => ⟨{}, rfl⟩
  rw [hlook] at hnone
  cases hnone

/-- A collection keeps the objects that are referenced, and a dry run reports what a collection
removes, exactly if the name of each object that is referenced occurs in a file of at most 64 MiB
outside the store. -/
theorem keeps_iff_marked (handle : Handle) (references : List UInt8 → Set String) (s : Store) :
    Keeps handle references s ↔
      ∀ digest bytes, Referenced handle references s.files digest → isDigest digest = true →
        s.files.look (handle.object digest) = some (.file bytes) →
          Marked handle s.files handle.root digest := by
  constructor
  · intro h digest bytes hreferenced hdigest hfile
    by_contra hnot
    exact not_keeps_of_not_marked hreferenced hdigest hfile hnot h
  · intro h
    refine ⟨?_, dryRun_reports handle s⟩
    intro digest bytes hreferenced hfile dryRun
    apply kept_of_not_candidate hfile
    intro hmem
    obtain ⟨hobject, hnot⟩ := mem_candidatesOf.1 hmem
    exact hnot (h digest bytes hreferenced (mem_objectsOf.1 hobject).1 hfile)

/-- The digests that occur in a file as they are. -/
def literally (bytes : List UInt8) : Set String := {digest | contains bytes digest = true}

/-- A workspace with one object and one instance, whose document has the given bytes. -/
def workspaceOf (digest : String) (bytes : List UInt8) : FileTree :=
  .dir [("objects", .dir [("sha256", .dir [(digest, .file [])])]),
    ("instances", .dir [("lab01", .dir [("domain_document.yaml", .file bytes)])])]

theorem not_marked_workspaceOf (hlarge : maxMetadataBytes < bytes.length) :
    ¬ Marked ⟨[], 1⟩ (workspaceOf digest bytes) [] digest := by
  intro h
  obtain ⟨name, hname, h⟩ := (marked_of_dir rfl).1 h
  have hnames : name = "objects" ∨ name = "instances" := by
    simpa [FileTree.names, FileTree.get, workspaceOf] using hname
  obtain rfl | rfl := hnames
  · exact not_marked_of_below prefix_rfl h
  · obtain ⟨name, hname, h⟩ := (marked_of_dir rfl).1 h
    have hnames : name = "lab01" := by
      simpa [FileTree.names, FileTree.get, FileTree.entry, workspaceOf] using hname
    obtain rfl := hnames
    obtain ⟨name, hname, h⟩ := (marked_of_dir rfl).1 h
    have hnames : name = "domain_document.yaml" := by
      simpa [FileTree.names, FileTree.get, FileTree.entry, workspaceOf] using hname
    obtain rfl := hnames
    have hsmall := ((marked_of_file rfl (by decide)).1 h).1
    omega

/-- The object that the document of an instance names is lost when the document is larger than
64 MiB. -/
theorem not_keeps : ¬ ∀ handle s, Keeps handle literally s := by
  intro h
  let digest := "bbbbbbbbbbbbbbbbbbbbbbbbbbbbbbbbbbbbbbbbbbbbbbbbbbbbbbbbbbbbbbbb"
  let bytes := List.replicate (maxMetadataBytes + 1) 32 ++ textBytes digest
  have hlarge : maxMetadataBytes < bytes.length := by
    rw [length_append, length_replicate]
    omega
  have hcontains : contains bytes digest = true :=
    decide_eq_true (suffix_append _ _).isInfix
  have hreferenced : Referenced ⟨[], 1⟩ literally (workspaceOf digest bytes) digest :=
    .metadata (q := ["instances", "lab01", "domain_document.yaml"]) rfl (by decide) hcontains
  exact not_keeps_of_not_marked (s := ⟨default, workspaceOf digest bytes⟩) hreferenced (by decide)
    rfl (not_marked_workspaceOf hlarge) (h ⟨[], 1⟩ _)

/-- After some objects were removed the others are candidates as before. -/
theorem mem_candidatesOf_of_removed {files' : FileTree} (h : Removed handle files files' digests) :
    digest ∈ candidatesOf handle files' ↔
      digest ∈ candidatesOf handle files ∧ digest ∉ digests := by
  have hmarked : Marked handle files' handle.root digest ↔
      Marked handle files handle.root digest := by
    refine exists_congr fun q => exists_congr fun bytes => ?_
    by_cases hbelow : handle.objects <+: handle.root ++ q
    · simp [hbelow]
    · rw [h, if_neg]
      intro hmem
      obtain ⟨other, -, hsame⟩ := mem_map.1 hmem
      rw [← hsame, Handle.object, objectRoot_eq, append_assoc] at hbelow
      exact hbelow (prefix_append _ _)
  rw [mem_candidatesOf, mem_candidatesOf, mem_objectsOf, mem_objectsOf, hmarked]
  by_cases hmem : digest ∈ digests
  · rw [h, if_pos (mem_map_of_mem hmem)]
    simp [hmem]
  · rw [look_of_removed h hmem]
    simp [hmem]

/-- A collection that meets no failure removes what was collectable in `s`, and nothing else. -/
def Finishes (handle : Handle) (s s' : Store) : Prop :=
  Ends Faultless (fun _ s'' => Removed handle s.files s''.files (candidatesOf handle s.files))
    (fun _ _ => False) (collect handle false) s'

theorem finishes_of_removed (hdir : s.files.look handle.objectRoot = some .dir)
    (hsub : digests ⊆ candidatesOf handle s.files)
    (h : Removed handle s.files s'.files digests) : Finishes handle s s' := by
  apply ends_collect
  · rw [h, if_neg, hdir]
    simp [Handle.object]
  · exact fun _ _ _ _ ho hfault _ => absurd ho hfault
  · intro _ s'' _ _ h' _ p
    have hleft : p ∈ (candidatesOf handle s.files).map handle.object ↔
        p ∈ (candidatesOf handle s'.files).map handle.object ∨ p ∈ digests.map handle.object := by
      simp only [mem_map, mem_candidatesOf_of_removed h]
      grind
    rw [h' p, h p]
    simp only [removedOf, hleft]
    grind

/-- After a collection that ended, or failed anywhere, another one that meets no failure leaves what
one collection leaves. -/
theorem finishes_of_collect (handle : Handle) (s : Store)
    (hdir : s.files.look handle.objectRoot = some .dir) :
    Ends (fun _ _ => True) (fun _ => Finishes handle s) (fun _ => Finishes handle s)
      (collect handle false) s := by
  apply ends_collect hdir
  · rintro s' o ⟨digests, hsub, h⟩ - - - -
    exact finishes_of_removed hdir hsub h
  · exact fun _ s' _ _ h _ => finishes_of_removed hdir (List.Subset.refl _) h

theorem finishes_of_collect_orphan :
    let s : Store := ⟨default, workspaceOf (String.ofList (replicate 64 'b')) []⟩
    Ends (fun _ _ => True) (fun _ => Finishes ⟨[], 1⟩ s) (fun _ => Finishes ⟨[], 1⟩ s)
      (collect ⟨[], 1⟩ false) s :=
  finishes_of_collect _ _ rfl

end Garbage

end MachineEmu
