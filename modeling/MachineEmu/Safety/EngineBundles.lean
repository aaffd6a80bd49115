import MachineEmu.Safety.SnapshotRoundTrip
import MachineEmu.Storage.EngineImport

/-!
# The bundle in an archive

The extraction of an archive into a directory of its own, and the checks of what was extracted.

* `unpack` — the tree that an archive unpacks to; `Checked` — what this tree must have.
* `ends_extract` — the directory looks like the tree.
* `ends_checkBundle` — a build passes exactly when it is checked.
-/

namespace MachineEmu

open Lib Prog Store List FileTree Option

/-! ## Directories apart -/

/-- Nothing has changed outside of a directory. -/
def Within (directory : Path) (t t' : FileTree) : Prop :=
  ∀ q, ¬ directory <+: q → t'.look q = t.look q

namespace Within

variable {directory : Path} {t t' t'' : FileTree}

theorem refl (directory : Path) (t : FileTree) : Within directory t t := fun _ _ => rfl

theorem trans (h : Within directory t t') (h' : Within directory t' t'') :
    Within directory t t'' := by
  intro q hq
  rw [h' q hq, h q hq]

theorem createDirAll {p : Path} (hdir : t.look directory = some .dir)
    (h : t.createDirAll (directory ++ p) = some t') : Within directory t t' := by
  intro q hq
  rw [look_createDirAll h]
  split
  · next hprefix =>
    -- a path above the directory
    have habove : q <+: directory := by
      rcases prefix_or_prefix_of_prefix hprefix (prefix_append directory p) with h | h
      · exact h
      · exact absurd h hq
    have hne : q ≠ directory := fun heq => hq (by rw [heq])
    exact (look_above habove hne (by simp [hdir])).symm
  · rfl

theorem write {p : Path} {bytes : List UInt8} (h : t.write (directory ++ p) bytes = some t') :
    Within directory t t' := by
  intro q hq
  rw [look_write h, if_neg]
  rintro rfl
  exact hq (prefix_append directory p)

theorem write_self {bytes : List UInt8} (h : t.write directory bytes = some t') :
    Within directory t t' := by
  intro q hq
  rw [look_write h, if_neg]
  rintro rfl
  exact hq prefix_rfl

theorem removeDirAll (h : t.removeDirAll directory = some t') : Within directory t t' := by
  intro q hq
  rw [look_removeDirAll h, if_neg hq]

end Within

/-- A directory looks like a tree of its own. -/
structure Mirrors (directory : Path) (t sub : FileTree) : Prop where
  dir : t.look directory = some .dir
  look : ∀ q, t.look (directory ++ q) = sub.look q

namespace Mirrors

variable {directory : Path} {t t' sub : FileTree}

theorem createDirAll_isSome (h : Mirrors directory t sub) (p : Path) :
    (t.createDirAll (directory ++ p)).isSome = (sub.createDirAll p).isSome := by
  rw [Bool.eq_iff_iff, FileTree.createDirAll_isSome, FileTree.createDirAll_isSome]
  constructor
  · intro hall q hq
    rw [← h.look q]
    exact hall _ ((prefix_append_right_inj directory).2 hq)
  · intro hall q hq
    by_cases hbelow : directory <+: q
    · obtain ⟨r, rfl⟩ := hbelow
      rw [h.look r]
      exact hall r ((prefix_append_right_inj directory).1 hq)
    · left
      have habove : q <+: directory := by
        rcases prefix_or_prefix_of_prefix hq (prefix_append directory p) with hq | hq
        · exact hq
        · exact absurd hq hbelow
      exact look_above habove (fun heq => hbelow (by rw [heq])) (by simp [h.dir])

variable {p : Path}

theorem createDirAll (h : Mirrors directory t sub)
    (ht : t.createDirAll (directory ++ p) = some t') :
    ∃ sub', sub.createDirAll p = some sub' ∧ Mirrors directory t' sub' := by
  have hsome := h.createDirAll_isSome p
  rw [ht, isSome_some] at hsome
  obtain ⟨sub', hsub⟩ := isSome_iff_exists.1 hsome.symm
  refine ⟨sub', hsub, ?_, fun q => ?_⟩
  · rw [look_createDirAll ht, if_pos (prefix_append directory p)]
  · rw [look_createDirAll ht, look_createDirAll hsub, h.look q]
    simp only [prefix_append_right_inj]

theorem write_isSome (h : Mirrors directory t sub) (hp : p ≠ []) (bytes : List UInt8) :
    (t.write (directory ++ p) bytes).isSome = (sub.write p bytes).isSome := by
  rw [Bool.eq_iff_iff, FileTree.write_isSome, FileTree.write_isSome,
    dropLast_append_of_ne_nil hp, h.look, h.look]
  simp [hp]

theorem write {bytes : List UInt8} (h : Mirrors directory t sub) (hp : p ≠ [])
    (ht : t.write (directory ++ p) bytes = some t') :
    ∃ sub', sub.write p bytes = some sub' ∧ Mirrors directory t' sub' := by
  have hsome := h.write_isSome hp bytes
  rw [ht, isSome_some] at hsome
  obtain ⟨sub', hsub⟩ := isSome_iff_exists.1 hsome.symm
  refine ⟨sub', hsub, ?_, fun q => ?_⟩
  · rw [look_write ht, if_neg (by simpa using hp), h.dir]
  · rw [look_write ht, look_write hsub, h.look q]
    simp only [append_cancel_left_eq]

theorem createDirAll_none (h : Mirrors directory t sub)
    (hnone : t.createDirAll (directory ++ p) = none) : sub.createDirAll p = none := by
  have hsome := h.createDirAll_isSome p
  rwa [hnone, isSome_none, eq_comm, isSome_eq_false_iff,
    isNone_iff_eq_none] at hsome

/-- Whether a file can be written does not depend on its bytes. -/
theorem write_none (h : Mirrors directory t sub) (hp : p ≠ []) {bytes : List UInt8}
    (hnone : t.write (directory ++ p) bytes = none) (bytes' : List UInt8) :
    sub.write p bytes' = none := by
  have hsome := h.write_isSome hp bytes
  rw [hnone, isSome_none] at hsome
  by_contra hwrite
  have hcond := FileTree.write_isSome.1 (isSome_iff_ne_none.2 hwrite)
  rw [FileTree.write_isSome.2 hcond] at hsome
  cases hsome

end Mirrors

/-! ## What an archive unpacks to -/

/-- Unpack a file or a directory into a tree. -/
def unpackInto (t : FileTree) (path : Path) : Option (List UInt8) → Option FileTree
  | none => t.createDirAll (trimmed path)
  | some bytes =>
    if trimmed path = path ∧ t.look path ≠ none ∨
        trimmed path ≠ path ∧ t.look (trimmed path) = some .dir then none
    else (t.createDirAll (trimmed path).dropLast).bind (·.write (trimmed path) bytes)

/-- Unpack an archive into a tree, and return its files and its directory. -/
def unpack : FileTree → List (Except String ArchiveEntry) → List Path → Option String →
    Option (FileTree × List Path × Option String)
  | t, [], files, name => some (t, files, name)
  | _, .error _ :: _, _, _ => none
  | t, .ok entry :: rest, files, name =>
    match entry.accept name with
    | .error _ => none
    | .ok (path, content) =>
      (unpackInto t path content).bind fun t' =>
        unpack t' rest (if content.isSome then files ++ [path] else files) path.head?

variable {path : Path}

theorem relativePath_cons {text : List Char} (h : relativePath text = some path) :
    ∃ first rest, path = first :: rest ∧ "" ∉ path := by
  unfold relativePath at h
  split at h
  · cases h
  · next first rest hsplit =>
    split at h
    · cases h
    · next hcond =>
      cases h
      refine ⟨first, _, rfl, fun hmem => ?_⟩
      rcases mem_cons.1 hmem with hfirst | hrest
      · exact hcond (.inl hfirst.symm)
      · simp at hrest

/-- A path that was read has a first name, and only its last one may be empty. -/
theorem writtenPath_cons {text : List Char} (h : writtenPath text = some path) :
    ∃ first rest, path = first :: rest ∧ trimmed path = first :: trimmed rest := by
  obtain ⟨names, hnames, hpath⟩ := map_eq_some_iff.1 h
  obtain ⟨first, rest, rfl, hempty⟩ := relativePath_cons hnames
  have hfirst : first ≠ "" := fun heq => hempty (by rw [heq]; exact mem_cons_self)
  split at hpath
  · subst hpath
    exact ⟨first, rest ++ [""], rfl, by simp [trimmed, hfirst]⟩
  · subst hpath
    exact ⟨first, rest, rfl, by simp [trimmed, hfirst]⟩

theorem ArchiveEntry.accept_ok {entry : ArchiveEntry} {name : Option String}
    {content : Option (List UInt8)} (h : entry.accept name = .ok (path, content)) :
    (∃ first rest, path = first :: rest ∧ trimmed path = first :: trimmed rest) ∧
      (name = none ∨ name = path.head?) := by
  unfold ArchiveEntry.accept at h
  split at h
  · cases h
  · next written hwritten =>
    split at h
    · cases h
    · next hname =>
      have hpath : path = written := by
        split at h
        · cases h
          rfl
        · cases h
          rfl
        · cases h
      rw [hpath]
      refine ⟨writtenPath_cons hwritten, ?_⟩
      cases name with
      | none => exact .inl rfl
      | some name => exact .inr (by simpa using hname)

/-! ## Extraction -/

/-- No call fails, and a temporary name is new. -/
structure Undisturbed (engines : Path) (s : Store) (o : Outcome) : Prop where
  fault : o.fault = none
  fresh : s.files.look (engines ++ [temporaryName o.nanos]) = none

/-- Some run that is looked at is disturbed. -/
def Disturbed (good : Store → Outcome → Prop) (engines : Path) : Prop :=
  ∃ s o, good s o ∧ ¬ Undisturbed engines s o

theorem disturbed_of_fault {good : Store → Outcome → Prop} {s : Store} {o : Outcome}
    (engines : Path) (ho : good s o) (hfault : o.fault ≠ none) : Disturbed good engines :=
  ⟨s, o, ho, fun h => hfault h.fault⟩

section Extract

variable {good : Store → Outcome → Prop} {X : Error → Store → Prop} {engines staging : Path}
  {s : Store} {sub : FileTree}

/-- A file is written into a directory as into the tree that it looks like. -/
theorem ends_writeFile_mirrored (engines : Path) {p : Path}
    (hmirror : Mirrors staging s.files sub) (hp : p ≠ [])
    (bytes : List UInt8)
    (hX : ∀ e s', (Disturbed good engines ∨ sub.write p bytes = none) →
      Within staging s.files s'.files → X e s') :
    Ends good
      (fun _ s' => Within staging s.files s'.files ∧
        ∃ sub', sub.write p bytes = some sub' ∧ Mirrors staging s'.files sub')
      X (writeFile (staging ++ p) bytes) s := by
  refine Ends.bind (M := fun _ s' => ∃ t, s.files.write (staging ++ p) [] = some t ∧
    s' = s.withFiles t) ?_ ?_
  · apply ends_change
    · exact fun o ho hfault e => hX e s (.inl (disturbed_of_fault engines ho hfault))
        (Within.refl _ _)
    · exact fun hnone e => hX e s (.inr (hmirror.write_none hp hnone bytes)) (Within.refl _ _)
    · exact fun t ht => ⟨t, ht, rfl⟩
  rintro _ _ ⟨t₁, ht₁, rfl⟩
  have hwithin := Within.write ht₁
  apply ends_writeAll
  · exact fun o ho hfault t e ht => hX e _ (.inl (disturbed_of_fault engines ho hfault))
      (hwithin.trans (Within.write ht))
  · intro n hnone
    obtain ⟨t, ht⟩ := write_again (bytes.take n) ht₁
    cases hnone.symm.trans ht
  · intro t ht
    refine ⟨hwithin.trans (Within.write ht), ?_⟩
    have hcond := FileTree.write_isSome.1 (isSome_iff_exists.2 ⟨t₁, ht₁⟩)
    obtain ⟨t', ht'⟩ : ∃ t', s.files.write (staging ++ p) bytes = some t' :=
      write_of_look hcond.1 hcond.2.1 hcond.2.2
    obtain ⟨sub', hsub', hmirror'⟩ := hmirror.write hp ht'
    refine ⟨sub', hsub', ?_, fun q => ?_⟩
    · rw [withFiles_files, ← hmirror'.dir]
      simp only [withFiles_files, look_write ht, look_write ht₁, look_write ht']
      split <;> rfl
    · rw [← hmirror'.look q]
      simp only [withFiles_files, look_write ht, look_write ht₁, look_write ht']
      split <;> rfl

/-- An entry is unpacked into a directory as into the tree that it looks like. -/
theorem ends_unpackIn (engines : Path) {content : Option (List UInt8)}
    (hmirror : Mirrors staging s.files sub) (hpath : trimmed path ≠ [])
    (hX : ∀ e s', (Disturbed good engines ∨ unpackInto sub path content = none) →
      Within staging s.files s'.files → X e s') :
    Ends good
      (fun _ s' => Within staging s.files s'.files ∧
        ∃ sub', unpackInto sub path content = some sub' ∧ Mirrors staging s'.files sub')
      X (unpackIn staging path content) s := by
  cases content with
  | none =>
    apply ends_change
    · exact fun o ho hfault e => hX e s (.inl (disturbed_of_fault engines ho hfault))
        (Within.refl _ _)
    · exact fun hnone e => hX e s (.inr (hmirror.createDirAll_none hnone)) (Within.refl _ _)
    · intro t ht
      exact ⟨Within.createDirAll hmirror.dir ht, hmirror.createDirAll ht⟩
  | some bytes =>
    apply Ends.bind (M := fun there s' => s' = s ∧ (there = true ↔
      trimmed path = path ∧ sub.look path ≠ none ∨
        trimmed path ≠ path ∧ sub.look (trimmed path) = some .dir))
    · unfold isDuplicate
      split
      · next htrimmed =>
        refine ends_exists ⟨rfl, ?_⟩
        rw [hmirror.look]
        simp [htrimmed]
      · next htrimmed =>
        refine ends_isDir ⟨rfl, ?_⟩
        rw [hmirror.look]
        simp [htrimmed]
    rintro there s₁ ⟨rfl, hthere⟩
    cases there with
    | true =>
      refine hX _ _ (.inr ?_) (Within.refl _ _)
      rw [unpackInto, if_pos (hthere.1 rfl)]
    | false =>
      have hcond : ¬ (trimmed path = path ∧ sub.look path ≠ none ∨
          trimmed path ≠ path ∧ sub.look (trimmed path) = some .dir) :=
        fun h => Bool.false_ne_true (hthere.2 h)
      rw [unpackInto, if_neg hcond] at hX ⊢
      apply Ends.bind (M := fun _ s' => Within staging s₁.files s'.files ∧
        ∃ sub', sub.createDirAll (trimmed path).dropLast = some sub' ∧
          Mirrors staging s'.files sub')
      · apply ends_change
        · exact fun o ho hfault e => hX e _ (.inl (disturbed_of_fault engines ho hfault))
            (Within.refl _ _)
        · intro hnone e
          refine hX e _ (.inr ?_) (Within.refl _ _)
          rw [hmirror.createDirAll_none hnone, bind_none]
        · intro t ht
          exact ⟨Within.createDirAll hmirror.dir ht, hmirror.createDirAll ht⟩
      rintro _ s₂ ⟨hwithin, sub₁, hsub₁, hmirror₁⟩
      rw [hsub₁, bind_some] at hX ⊢
      refine (ends_writeFile_mirrored engines hmirror₁ hpath bytes ?_).mono ?_
        fun _ _ h => h
      · exact fun e s' hwhy hs' => hX e s' hwhy (hwithin.trans hs')
      · rintro _ s' ⟨hs', hsub⟩
        exact ⟨hwithin.trans hs', hsub⟩

/-- An archive is extracted to what it unpacks to. -/
theorem ends_extract (engines : Path) (entries : List (Except String ArchiveEntry)) (files : List Path)
    (name : Option String) (hmirror : Mirrors staging s.files sub)
    (hX : ∀ e s', (Disturbed good engines ∨ unpack sub entries files name = none) →
      Within staging s.files s'.files → X e s') :
    Ends good
      (fun r s' => Within staging s.files s'.files ∧
        ∃ sub', unpack sub entries files name = some (sub', r) ∧ Mirrors staging s'.files sub')
      X (extract staging entries files name) s := by
  induction entries generalizing s sub files name with
  | nil => exact ⟨Within.refl _ _, sub, rfl, hmirror⟩
  | cons entry rest ih =>
    cases entry with
    | error e => exact hX _ _ (.inr rfl) (Within.refl _ _)
    | ok entry =>
      unfold extract
      unfold unpack at hX ⊢
      cases haccept : entry.accept name with
      | error e =>
        rw [haccept] at hX
        exact hX _ _ (.inr rfl) (Within.refl _ _)
      | ok accepted =>
        obtain ⟨path, content⟩ := accepted
        obtain ⟨⟨first, rest', -, htrimmed⟩, -⟩ := ArchiveEntry.accept_ok haccept
        have hpath : trimmed path ≠ [] := by
          rw [htrimmed]
          exact cons_ne_nil _ _
        rw [haccept] at hX
        dsimp only at hX ⊢
        change Ends good _ X ((unpackIn staging path content).bind _) s
        refine Ends.bind (ends_unpackIn engines hmirror hpath ?_) ?_
        rotate_left
        · rintro _ s₁ ⟨hwithin, sub₁, hsub₁, hmirror₁⟩
          rw [hsub₁, bind_some] at hX ⊢
          refine (ih _ _ hmirror₁ ?_).mono ?_ fun _ _ h => h
          · exact fun e s' hwhy hs' => hX e s' hwhy (hwithin.trans hs')
          · rintro r s' ⟨hs', hsub⟩
            exact ⟨hwithin.trans hs', hsub⟩
        · rintro e s' (hwhy | hwhy) hs'
          · exact hX e s' (.inl hwhy) hs'
          · rw [hwhy, bind_none] at hX
            exact hX e s' (.inr rfl) hs'

end Extract

/-! ## What is in an archive -/

/-- The files of a tree are the ones that were unpacked, and they are below one directory. -/
structure Unpacked (t : FileTree) (files : List Path) (name : Option String) : Prop where
  file : ∀ q b, t.look q = some (.file b) → q ∈ files.map trimmed
  names : ∀ q, t.look q ≠ none → "" ∉ q
  below : ∀ f ∈ files, ∃ n rest, name = some n ∧ f = n :: rest ∧ trimmed f = n :: trimmed rest

theorem not_mem_trimmed (path : Path) : "" ∉ trimmed path := by
  simp [trimmed]

namespace Unpacked

theorem empty : Unpacked (.dir []) [] none where
  file q b h := by
    cases q with
    | nil => cases h
    | cons a q =>
      rw [look_dir_cons] at h
      cases h
  names q h := by
    cases q with
    | nil => exact nofun
    | cons a q =>
      rw [look_dir_cons] at h
      exact absurd rfl h
  below := nofun

variable {t t' : FileTree} {files : List Path} {name : Option String} {path p : Path}

theorem createDirAll (h : Unpacked t files name) (hp : "" ∉ p) (ht : t.createDirAll p = some t') :
    Unpacked t' files name where
  file q b hq := by
    rw [look_createDirAll ht] at hq
    split at hq
    · cases hq
    · exact h.file q b hq
  names q hq := by
    rw [look_createDirAll ht] at hq
    split at hq
    · next habove => exact fun hmem => hp (habove.subset hmem)
    · exact h.names q hq
  below := h.below

theorem write {bytes : List UInt8} (h : Unpacked t files name) (hp : "" ∉ trimmed path)
    (hbelow : ∃ n rest, name = some n ∧ path = n :: rest ∧ trimmed path = n :: trimmed rest)
    (ht : t.write (trimmed path) bytes = some t') : Unpacked t' (files ++ [path]) name where
  file q b hq := by
    rw [look_write ht] at hq
    rw [map_append, mem_append]
    split at hq
    · next heq => exact .inr (by simp [heq])
    · exact .inl (h.file q b hq)
  names q hq := by
    rw [look_write ht] at hq
    split at hq
    · next heq => rwa [heq]
    · exact h.names q hq
  below f hf := by
    rcases mem_append.1 hf with hf | hf
    · exact h.below f hf
    · rw [mem_singleton.1 hf]
      exact hbelow

theorem rename (h : Unpacked t files name) {name' : Option String}
    (hname : name = none ∨ name = name') : Unpacked t files name' where
  file := h.file
  names := h.names
  below f hf := by
    obtain ⟨n, rest, hn, hrest⟩ := h.below f hf
    rcases hname with hname | hname
    · rw [hname] at hn
      cases hn
    · exact ⟨n, rest, hname ▸ hn, hrest⟩

theorem unpackInto {content : Option (List UInt8)} (h : Unpacked t files name)
    (hbelow : ∃ n rest, name = some n ∧ path = n :: rest ∧ trimmed path = n :: trimmed rest)
    (ht : MachineEmu.unpackInto t path content = some t') :
    Unpacked t' (if content.isSome then files ++ [path] else files) name := by
  cases content with
  | none => exact h.createDirAll (not_mem_trimmed path) ht
  | some bytes =>
    unfold MachineEmu.unpackInto at ht
    dsimp only at ht
    split at ht
    · cases ht
    · obtain ⟨t₁, ht₁, hwrite⟩ := bind_eq_some_iff.1 ht
      have hparent : "" ∉ (trimmed path).dropLast :=
        fun hmem => not_mem_trimmed path ((dropLast_subset _) hmem)
      exact (h.createDirAll hparent ht₁).write (not_mem_trimmed path) hbelow hwrite

end Unpacked

/-- An archive is unpacked as it should be. -/
theorem unpacked_of_unpack {t sub : FileTree} {entries : List (Except String ArchiveEntry)}
    {files files' : List Path} {name name' : Option String} (h : Unpacked t files name)
    (hunpack : unpack t entries files name = some (sub, files', name')) :
    Unpacked sub files' name' := by
  induction entries generalizing t files name with
  | nil =>
    cases hunpack
    exact h
  | cons entry rest ih =>
    cases entry with
    | error e => cases hunpack
    | ok entry =>
      unfold unpack at hunpack
      cases haccept : entry.accept name with
      | error e =>
        rw [haccept] at hunpack
        cases hunpack
      | ok accepted =>
        obtain ⟨path, content⟩ := accepted
        obtain ⟨⟨first, rest', hpath, htrimmed⟩, hname⟩ := ArchiveEntry.accept_ok haccept
        rw [haccept] at hunpack
        obtain ⟨t₁, ht₁, hrest⟩ := bind_eq_some_iff.1 hunpack
        refine ih (Unpacked.unpackInto (h.rename hname) ?_ ht₁) hrest
        exact ⟨first, rest', by rw [hpath]; rfl, hpath, htrimmed⟩

/-! ## What is checked -/

/-- The name of the checksum file. -/
def sumsPath : Path := ["SHA256SUMS"]

/-- The files of a bundle other than the checksum file, as often as they occur. -/
def payload (files : List Path) : List Path :=
  (files.map fun f => trimmed f.tail).filter (· ≠ sumsPath)

/-- The files of a bundle have the expected digests, and no other file is expected. -/
structure Verified (look : Path → Option FileTree.Entry) (files : List Path)
    (expected : List (Path × String)) : Prop where
  file : ∀ f ∈ files, trimmed f.tail ≠ sumsPath → ∃ b, look f.tail = some (.file b) ∧
    (trimmed f.tail, sha256 b) ∈ expected
  complete : ∀ e ∈ expected, e.1 ∈ payload files
  once : (payload files).Nodup

namespace Verified

variable {look : Path → Option FileTree.Entry} {f : Path} {files : List Path}
  {expected : List (Path × String)}

theorem nil_iff : Verified look [] expected ↔ expected = [] := by
  constructor
  · intro h
    exact eq_nil_iff_forall_not_mem.2 fun e he => by cases h.complete e he
  · rintro rfl
    exact ⟨nofun, nofun, nodup_nil⟩

theorem payload_sums (h : trimmed f.tail = sumsPath) : payload (f :: files) = payload files := by
  simp [payload, h]

theorem payload_file (h : trimmed f.tail ≠ sumsPath) :
    payload (f :: files) = trimmed f.tail :: payload files := by
  simp [payload, h]

/-- The checksum file is skipped. -/
theorem cons_sums (h : trimmed f.tail = sumsPath) :
    Verified look (f :: files) expected ↔ Verified look files expected := by
  constructor
  · rintro ⟨hfile, hcomplete, honce⟩
    rw [payload_sums h] at hcomplete honce
    exact ⟨fun g hg => hfile g (mem_cons_of_mem _ hg), hcomplete, honce⟩
  · rintro ⟨hfile, hcomplete, honce⟩
    refine ⟨fun g hg hne => ?_, by rwa [payload_sums h], by rwa [payload_sums h]⟩
    rcases mem_cons.1 hg with rfl | hg
    · exact absurd h hne
    · exact hfile g hg hne

/-- A file has its digest, and the rest is verified without it. -/
theorem cons_file (h : trimmed f.tail ≠ sumsPath) {b : List UInt8} (hlook : look f.tail = some (.file b))
    (hmem : (trimmed f.tail, sha256 b) ∈ expected) :
    Verified look (f :: files) expected ↔
      Verified look files (expected.filter fun e => e.1 ≠ trimmed f.tail) := by
  constructor
  · rintro ⟨hfile, hcomplete, honce⟩
    rw [payload_file h] at hcomplete honce
    obtain ⟨hnew, honce⟩ := nodup_cons.1 honce
    refine ⟨fun g hg hne => ?_, fun e he => ?_, honce⟩
    · obtain ⟨b', hlook', hmem'⟩ := hfile g (mem_cons_of_mem _ hg) hne
      refine ⟨b', hlook', mem_filter.2 ⟨hmem', ?_⟩⟩
      have hg' : trimmed g.tail ∈ payload files :=
        mem_filter.2 ⟨mem_map_of_mem hg, by simpa using hne⟩
      simp only [ne_eq, decide_eq_true_eq]
      exact fun heq => hnew (heq ▸ hg')
    · obtain ⟨he, hne⟩ := mem_filter.1 he
      rcases mem_cons.1 (hcomplete e he) with heq | hrest
      · exact absurd heq (by simpa using hne)
      · exact hrest
  · rintro ⟨hfile, hcomplete, honce⟩
    refine ⟨fun g hg hne => ?_, fun e he => ?_, ?_⟩
    · rcases mem_cons.1 hg with rfl | hg
      · exact ⟨b, hlook, hmem⟩
      · obtain ⟨b', hlook', hmem'⟩ := hfile g hg hne
        exact ⟨b', hlook', (mem_filter.1 hmem').1⟩
    · rw [payload_file h]
      by_cases heq : e.1 = trimmed f.tail
      · rw [heq]
        exact mem_cons_self
      · exact mem_cons_of_mem _ (hcomplete e (mem_filter.2 ⟨he, by simpa using heq⟩))
    · rw [payload_file h]
      refine nodup_cons.2 ⟨fun hmem' => ?_, honce⟩
      obtain ⟨hg, hne⟩ := mem_filter.1 hmem'
      obtain ⟨g, hg, heq⟩ := mem_map.1 hg
      obtain ⟨b', -, hmem''⟩ := hfile g hg (by rw [heq]; simpa using hne)
      simp [heq] at hmem''

end Verified

/-! ## Verification -/

/-- What an archive that was unpacked must have, below its directory. -/
structure Checked (formats : EngineFormats) (look : Path → Option FileTree.Entry)
    (files : List Path) (build : EngineBuild) : Prop where
  sums : look sumsPath = some (.file build.sums)
  verified : ∃ expected, checksums build.sums = .ok expected ∧ Verified look files expected
  manifest : ∃ bytes, look ["engine-build.json"] = some (.file bytes) ∧
    formats.manifest bytes = .ok build.manifest
  valid : build.manifest.check = .ok ()
  executables : ∀ e ∈ build.manifest.executables.entries, ∃ path b,
    build.manifest.executable e.1 e.2 = .ok (path, sha256 b) ∧ look path = some (.file b)
  version : build.manifest.version = .ok build.version

theorem nodup_checksumLines {lines : List (List Char)} {expected expected' : List (Path × String)}
    (hexpected : (expected.map Prod.fst).Nodup)
    (h : checksumLines lines expected = .ok expected') : (expected'.map Prod.fst).Nodup := by
  induction lines generalizing expected with
  | nil =>
    cases h
    exact hexpected
  | cons line lines ih =>
    unfold checksumLines at h
    split at h
    · cases h
    · next path digest hline =>
      split at h
      · cases h
      · next hnew =>
        refine ih ?_ h
        simpa using hexpected.concat hnew

theorem nodup_checksums {bytes : List UInt8} {expected : List (Path × String)}
    (h : checksums bytes = .ok expected) : (expected.map Prod.fst).Nodup := by
  unfold checksums at h
  split at h
  · cases h
  · exact nodup_checksumLines (by simp) h

section Verify

variable {good : Store → Outcome → Prop} {X : Error → Store → Prop} {s : Store}
  (engines : Path)

theorem ends_readFile_undisturbed {p : Path}
    (hX : ∀ e, (Disturbed good engines ∨ ∀ b, s.files.look p ≠ some (.file b)) → X e s) :
    Ends good (fun bytes s' => s' = s ∧ s.files.look p = some (.file bytes)) X (readFile p) s :=
  ends_readFile
    (fun _ ho hfault e => hX e (.inl (disturbed_of_fault engines ho hfault)))
    (fun hnone e => hX e (.inr hnone)) fun _ hbytes => ⟨rfl, hbytes⟩

theorem ends_engineHash {p : Path}
    (hX : ∀ e, (Disturbed good engines ∨ ∀ b, s.files.look p ≠ some (.file b)) → X e s) :
    Ends good (fun digest s' => s' = s ∧ ∃ b, s.files.look p = some (.file b) ∧ digest = sha256 b)
      X (engineHash p) s := by
  refine Ends.bind (ends_readFile_undisturbed engines hX) ?_
  rintro bytes s₁ ⟨rfl, hbytes⟩
  exact ⟨rfl, bytes, hbytes, rfl⟩

/-- Nothing is left when the files of a bundle are verified. -/
theorem ends_verify (bundle : Path) (files : List Path) (expected : List (Path × String))
    (hkeys : (expected.map Prod.fst).Nodup)
    (hX : ∀ e, (Disturbed good engines ∨
      ¬ Verified (fun q => s.files.look (bundle ++ q)) files expected) → X e s) :
    Ends good
      (fun left s' => s' = s ∧
        (left = [] ↔ Verified (fun q => s.files.look (bundle ++ q)) files expected))
      X (verify bundle files expected) s := by
  induction files generalizing expected with
  | nil => exact ⟨rfl, Verified.nil_iff.symm⟩
  | cons f files ih =>
    unfold verify
    dsimp only
    split
    · next hsums =>
      rw [Verified.cons_sums hsums] at hX ⊢
      exact ih expected hkeys hX
    · next hsums =>
      split
      · next hnone =>
        refine hX _ (.inr fun hverified => ?_)
        obtain ⟨b, -, hmem⟩ := hverified.file f mem_cons_self hsums
        exact absurd (List.find?_eq_none.1 hnone _ hmem) (by simp)
      · next key digest hfind =>
        have hmem := mem_of_find?_eq_some hfind
        obtain rfl : key = trimmed f.tail := by simpa using List.find?_some hfind
        apply Ends.bind (ends_engineHash engines ?_)
        · rintro actual s₁ ⟨rfl, b, hlook, rfl⟩
          split
          · next hne =>
            refine hX _ (.inr fun hverified => hne ?_)
            obtain ⟨b', hlook', hmem'⟩ := hverified.file f mem_cons_self hsums
            rw [hlook] at hlook'
            cases hlook'
            exact congrArg Prod.snd
              (inj_on_of_nodup_map hkeys hmem' hmem rfl)
          · next heq =>
            rw [← not_not.1 heq] at hmem
            rw [Verified.cons_file hsums hlook hmem] at hX ⊢
            exact ih _ (hkeys.sublist (filter_sublist.map _)) hX
        · rintro e (hwhy | hwhy)
          · exact hX e (.inl hwhy)
          · refine hX e (.inr fun hverified => ?_)
            obtain ⟨b, hlook, -⟩ := hverified.file f mem_cons_self hsums
            exact hwhy b hlook

/-- The executables of a bundle have their digests. -/
theorem ends_checkExecutables (bundle : Path) (manifest : EngineManifest)
    (executables : List (String × String))
    (hX : ∀ e, (Disturbed good engines ∨ ¬ ∀ e ∈ executables, ∃ path b,
      manifest.executable e.1 e.2 = .ok (path, sha256 b) ∧
        s.files.look (bundle ++ path) = some (.file b)) → X e s) :
    Ends good
      (fun _ s' => s' = s ∧ ∀ e ∈ executables, ∃ path b,
        manifest.executable e.1 e.2 = .ok (path, sha256 b) ∧
          s.files.look (bundle ++ path) = some (.file b))
      X (checkExecutables bundle manifest executables) s := by
  induction executables with
  | nil => exact ⟨rfl, nofun⟩
  | cons e rest ih =>
    obtain ⟨target, executable⟩ := e
    unfold checkExecutables
    cases hexecutable : manifest.executable target executable with
    | error e =>
      refine hX _ (.inr fun hall => ?_)
      obtain ⟨path, b, hok, -⟩ := hall _ mem_cons_self
      rw [hexecutable] at hok
      cases hok
    | ok found =>
      obtain ⟨path, digest⟩ := found
      change Ends good _ X ((engineHash (bundle ++ path)).bind _) s
      apply Ends.bind (ends_engineHash engines ?_)
      · rintro actual s₁ ⟨rfl, b, hlook, rfl⟩
        split
        · next hne =>
          refine hX _ (.inr fun hall => hne ?_)
          obtain ⟨path', b', hok, hlook'⟩ := hall _ mem_cons_self
          rw [hexecutable] at hok
          cases hok
          rw [hlook] at hlook'
          cases hlook'
          rfl
        · next heq =>
          obtain rfl := not_not.1 heq
          refine (ih ?_).mono ?_ fun _ _ h => h
          · rintro e (hwhy | hwhy)
            · exact hX e (.inl hwhy)
            · exact hX e (.inr fun hall => hwhy fun e he => hall e (mem_cons_of_mem _ he))
          · rintro _ s' ⟨rfl, hall⟩
            refine ⟨rfl, fun e he => ?_⟩
            rcases mem_cons.1 he with rfl | he
            · exact ⟨path, b, hexecutable, hlook⟩
            · exact hall e he
      · rintro e (hwhy | hwhy)
        · exact hX e (.inl hwhy)
        · refine hX e (.inr fun hall => ?_)
          obtain ⟨path', b', hok, hlook'⟩ := hall _ mem_cons_self
          rw [hexecutable] at hok
          cases hok
          exact hwhy b' hlook'

/-- The checks of a bundle whose files are verified. -/
theorem ends_checkManifest {formats : EngineFormats} {bundle : Path} {files : List Path}
    {sums bytes : List UInt8} {expected : List (Path × String)}
    (hsums : s.files.look (bundle ++ sumsPath) = some (.file sums))
    (hexpected : checksums sums = .ok expected)
    (hverified : Verified (fun q => s.files.look (bundle ++ q)) files expected)
    (hbytes : s.files.look (bundle ++ ["engine-build.json"]) = some (.file bytes))
    (hX : ∀ e, (Disturbed good engines ∨
      ¬ ∃ build, Checked formats (fun q => s.files.look (bundle ++ q)) files build) → X e s) :
    Ends good
      (fun build s' => s' = s ∧ Checked formats (fun q => s.files.look (bundle ++ q)) files build)
      X
      (match formats.manifest bytes with
        | .error e => .throw (.process e)
        | .ok manifest =>
          (ofExcept manifest.check).bind fun _ =>
            (checkExecutables bundle manifest manifest.executables.entries).bind fun _ =>
              (ofExcept manifest.version).bind fun version =>
                .ret { manifest, version, sums }) s := by
  have hwhy : ∀ e, (Disturbed good engines ∨ ∀ build,
      ¬ Checked formats (fun q => s.files.look (bundle ++ q)) files build) → X e s :=
    fun e h => hX e (h.imp_right not_exists.2)
  have hread : ∀ {build}, Checked formats (fun q => s.files.look (bundle ++ q)) files build →
      formats.manifest bytes = .ok build.manifest := by
    intro build hbuild
    obtain ⟨bytes', hlook, hok⟩ := hbuild.manifest
    have hsame := hlook.symm.trans hbytes
    simp only [Option.some.injEq, FileTree.Entry.file.injEq] at hsame
    rw [← hsame, hok]
  cases hmanifest : formats.manifest bytes with
  | error e =>
    refine hwhy _ (.inr fun build hbuild => ?_)
    rw [hread hbuild] at hmanifest
    cases hmanifest
  | ok manifest =>
    have hsame : ∀ {build},
        Checked formats (fun q => s.files.look (bundle ++ q)) files build →
          build.manifest = manifest := by
      intro build hbuild
      rw [hread hbuild] at hmanifest
      exact Except.ok.inj hmanifest
    dsimp only
    cases hcheck : manifest.check with
    | error e =>
      refine hwhy _ (.inr fun build hbuild => ?_)
      have hvalid := hbuild.valid
      rw [hsame hbuild, hcheck] at hvalid
      cases hvalid
    | ok =>
      change Ends good _ X ((checkExecutables bundle manifest manifest.executables.entries).bind _) s
      apply Ends.bind (ends_checkExecutables engines bundle manifest _ ?_)
      · rintro _ s₁ ⟨rfl, hexecutables⟩
        cases hversion : manifest.version with
        | error e =>
          refine hwhy _ (.inr fun build hbuild => ?_)
          have hok := hbuild.version
          rw [hsame hbuild, hversion] at hok
          cases hok
        | ok version =>
          exact ⟨rfl, hsums, ⟨expected, hexpected, hverified⟩, ⟨bytes, hbytes, hmanifest⟩, hcheck,
            hexecutables, hversion⟩
      · rintro e (h | h)
        · exact hwhy e (.inl h)
        · refine hwhy e (.inr fun build hbuild => h ?_)
          rw [← hsame hbuild]
          exact hbuild.executables

/-- A bundle is checked. -/
theorem ends_checkBundle (formats : EngineFormats) (bundle : Path) (files : List Path)
    (hX : ∀ e, (Disturbed good engines ∨
      ¬ ∃ build, Checked formats (fun q => s.files.look (bundle ++ q)) files build) → X e s) :
    Ends good
      (fun build s' => s' = s ∧ Checked formats (fun q => s.files.look (bundle ++ q)) files build)
      X (checkBundle formats bundle files) s := by
  -- each check fails only where no build is the right one
  have hwhy : ∀ e, (Disturbed good engines ∨ ∀ build,
      ¬ Checked formats (fun q => s.files.look (bundle ++ q)) files build) → X e s :=
    fun e h => hX e (h.imp_right not_exists.2)
  apply Ends.bind (ends_readFile_undisturbed engines ?_)
  · rintro sums s₁ ⟨rfl, hsums⟩
    have hsame : ∀ {build}, Checked formats (fun q => s₁.files.look (bundle ++ q)) files build →
        build.sums = sums := by
      intro build hbuild
      have := hbuild.sums.symm.trans hsums
      simpa using this
    cases hexpected : checksums sums with
    | error e =>
      refine hwhy _ (.inr fun build hbuild => ?_)
      obtain ⟨expected, hok, -⟩ := hbuild.verified
      rw [hsame hbuild, hexpected] at hok
      cases hok
    | ok expected =>
      have hverified : ∀ {build},
          Checked formats (fun q => s₁.files.look (bundle ++ q)) files build →
            Verified (fun q => s₁.files.look (bundle ++ q)) files expected := by
        intro build hbuild
        obtain ⟨expected', hok, hverified⟩ := hbuild.verified
        rw [hsame hbuild, hexpected] at hok
        cases hok
        exact hverified
      change Ends good _ X ((verify bundle files expected).bind _) s₁
      apply Ends.bind (ends_verify engines bundle files expected (nodup_checksums hexpected) ?_)
      · rintro left s₂ ⟨rfl, hleft⟩
        split
        · next hne => exact hwhy _ (.inr fun build hbuild => hne (hleft.2 (hverified hbuild)))
        · next heq =>
          have hdone := hleft.1 (not_not.1 heq)
          apply Ends.bind (ends_readFile_undisturbed engines ?_)
          · rintro bytes s₃ ⟨rfl, hbytes⟩
            exact ends_checkManifest engines hsums hexpected hdone hbytes hX
          · rintro e (h | h)
            · exact hwhy e (.inl h)
            · refine hwhy e (.inr fun build hbuild => ?_)
              obtain ⟨bytes, hlook, -⟩ := hbuild.manifest
              exact h bytes hlook
      · rintro e (h | h)
        · exact hwhy e (.inl h)
        · exact hwhy e (.inr fun build hbuild => h (hverified hbuild))
  · rintro e (h | h)
    · exact hwhy e (.inl h)
    · exact hwhy e (.inr fun build hbuild => h _ hbuild.sums)

end Verify

end MachineEmu
