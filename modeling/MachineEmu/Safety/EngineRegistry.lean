import MachineEmu.Lib.Decimal
import MachineEmu.Safety.EngineBundles
import Mathlib.Data.Countable.Basic
import Mathlib.Logic.Equiv.List
import Mathlib.Data.Set.Finite.Basic

/-!
# The registry of the engines

What an import leaves behind, whether it succeeds or fails. Everything happens in a directory whose
name begins with a dot, until the bundle is moved to its place; the registry is replaced last.

* `SoundEngines` — the registry can be read, and every build in its place has its checksums.
* `ends_importEngine` — one import.
* `engine_registry` — the result, and `engine_registry_lost`, where it fails.
-/

namespace MachineEmu

open Lib Prog Store List FileTree

/-! ## The directory of the engines -/

/-- The files of a build are the ones that its checksum file lists, whose digest is its name. -/
def IntactBuild (look : Path → Option FileTree.Entry) (identity : String) : Prop :=
  ∃ sums expected, look sumsPath = some (.file sums) ∧ sha256 sums = identity ∧
    checksums sums = .ok expected ∧
    (∀ q b, look q = some (.file b) → q ≠ sumsPath → (q, sha256 b) ∈ expected) ∧
    ∀ e ∈ expected, ∃ b, look e.1 = some (.file b) ∧ e.2 = sha256 b

variable {t : FileTree} {name : String}

/-- A file of a bundle is where its components say. -/
theorem Unpacked.trimmed_tail {files : List Path}
    (h : Unpacked t files (some name)) {rest : Path} {b : List UInt8}
    (hlook : t.look (name :: rest) = some (.file b)) : trimmed rest = rest := by
  have hnames := h.names (name :: rest) (by simp [hlook])
  refine filter_eq_self.2 fun part hpart => ?_
  simp only [ne_eq, decide_eq_true_eq]
  rintro rfl
  exact hnames (mem_cons_of_mem _ hpart)

/-- A bundle that was checked is intact. -/
theorem Checked.intact {formats : EngineFormats} {files : List Path}
    {build : EngineBuild} (h : Checked formats (fun q => t.look (name :: q)) files build)
    (hunpacked : Unpacked t files (some name)) :
    IntactBuild (fun q => t.look (name :: q)) build.identity := by
  obtain ⟨expected, hexpected, hverified⟩ := h.verified
  refine ⟨build.sums, expected, h.sums, rfl, hexpected, ?_, ?_⟩
  · intro q b hq hne
    obtain ⟨f, hf, htrimmed⟩ := mem_map.1 (hunpacked.file _ b hq)
    obtain ⟨n, rest, hn, rfl, hrest⟩ := hunpacked.below f hf
    cases hn
    obtain ⟨-, rfl⟩ := List.cons.inj (hrest.symm.trans htrimmed)
    obtain ⟨b', hlook, hmem⟩ := hverified.file _ hf hne
    rw [tail_cons] at hlook hmem
    rw [hunpacked.trimmed_tail hlook] at hq
    cases hlook.symm.trans hq
    exact hmem
  · intro e he
    obtain ⟨hpayload, hne⟩ := mem_filter.1 (hverified.complete e he)
    obtain ⟨f, hf, htail⟩ := mem_map.1 hpayload
    obtain ⟨b, hlook, hmem⟩ := hverified.file f hf (by rw [htail]; simpa using hne)
    have hsame := inj_on_of_nodup_map (nodup_checksums hexpected) he hmem htail.symm
    refine ⟨b, ?_, congrArg Prod.snd hsame⟩
    rw [← htail, hunpacked.trimmed_tail hlook]
    exact hlook

section Registry

variable (handle : Handle) (formats : EngineFormats)

/-- The registry of a workspace, when it can be read. -/
def registeredEngines (t : FileTree) : Option EngineRegistry :=
  match t.look handle.engineRegistry with
  | none => some SortedMap.empty
  | some (.file bytes) => (formats.readRegistry bytes).toOption
  | some .dir => none

/-- The tracks are directories, and every build in them is intact. -/
structure SoundBuilds (t : FileTree) : Prop where
  tracks : ∀ a, Id.isValid a = true → a ≠ "registry.json" →
    t.look (handle.engines ++ [a]) = some .dir ∨ t.look (handle.engines ++ [a]) = none
  builds : ∀ a b, Id.isValid a = true → t.look (handle.engineBuild a b) ≠ none →
    IntactBuild (fun q => t.look (handle.engineBuild a b ++ q)) b

/-- The registry can be read, and it names builds that are there. -/
structure SoundEngines (t : FileTree) : Prop extends SoundBuilds handle t where
  engines : t.look handle.engines = some .dir ∨ t.look handle.engines = none
  readable : ∃ registry, registeredEngines handle formats t = some registry ∧
    ∀ a config, registry.get? a = some config → Id.isValid a = true ∧
      ∃ b, config.path = handle.engineBuild a b ∧ t.look (handle.engineBuild a b) ≠ none

/-- The builds of one state are the same in another one. -/
def Untouched (t t' : FileTree) : Prop :=
  ∀ a b, Id.isValid a = true → t.look (handle.engineBuild a b) ≠ none →
    ∀ q, t'.look (handle.engineBuild a b ++ q) = t.look (handle.engineBuild a b ++ q)

/-- A name that no temporary file has. -/
def IsPublic (a : String) : Prop := a.toList.head? ≠ some '.'

theorem isPublic_registry : IsPublic "registry.json" := by
  unfold IsPublic
  decide

variable {a : String}

theorem isPublic_of_isValid (h : Id.isValid a = true) : IsPublic a := by
  unfold Id.isValid at h
  unfold IsPublic
  split at h
  · cases h
  · next c cs hcs =>
    rw [hcs]
    simp only [List.head?_cons, ne_eq, Option.some.injEq]
    rintro rfl
    simp at h

/-- The directory in which a bundle is unpacked. -/
abbrev Handle.staging (self : Handle) (nanos : Nat) : Path :=
  self.engines ++ [temporaryName nanos]

theorem not_below_temporary (ha : IsPublic a) (nanos : Nat) (q r : Path) :
    ¬ (handle.engines ++ temporaryName nanos :: r) <+: (handle.engines ++ a :: q) := by
  rw [prefix_append_right_inj, cons_prefix_cons]
  rintro ⟨rfl, -⟩
  exact ha (by simp [temporaryName])

/-- Outside of temporary directories everything is the same. -/
def SamePublic (t t' : FileTree) : Prop :=
  ∀ a q, IsPublic a → t'.look (handle.engines ++ a :: q) = t.look (handle.engines ++ a :: q)

/-- Outside of temporary directories everything but the registry file is the same. -/
def SameTracks (t t' : FileTree) : Prop :=
  ∀ a q, IsPublic a → (a = "registry.json" → q ≠ []) →
    t'.look (handle.engines ++ a :: q) = t.look (handle.engines ++ a :: q)

/-- What an import that has not reached the registry keeps. -/
structure KeptEngines (t t' : FileTree) : Prop extends SoundBuilds handle t' where
  dir : t'.look handle.engines = some .dir
  untouched : Untouched handle t t'

variable {handle formats} {t t' t'' : FileTree}

theorem SamePublic.registry (h : SamePublic handle t t') :
    t'.look handle.engineRegistry = t.look handle.engineRegistry :=
  h "registry.json" [] isPublic_registry

theorem SamePublic.tracks (h : SamePublic handle t t') : SameTracks handle t t' :=
  fun a q ha _ => h a q ha

theorem SameTracks.build (h : SameTracks handle t t') (ha : Id.isValid a = true)
    (b : String) (q : Path) :
    t'.look (handle.engineBuild a b ++ q) = t.look (handle.engineBuild a b ++ q) := by
  have hsame := h a (b :: q) (isPublic_of_isValid ha) fun _ => cons_ne_nil b q
  simpa [Handle.engineBuild] using hsame

theorem SameTracks.root (h : SameTracks handle t t') {a : String} (ha : Id.isValid a = true)
    (b : String) : t'.look (handle.engineBuild a b) = t.look (handle.engineBuild a b) := by
  simpa using h.build ha b []

theorem Untouched.root (h : Untouched handle t t') {a b : String} (ha : Id.isValid a = true)
    (hthere : t.look (handle.engineBuild a b) ≠ none) :
    t'.look (handle.engineBuild a b) = t.look (handle.engineBuild a b) := by
  simpa using h a b ha hthere []

theorem SamePublic.trans (h : SamePublic handle t t') (h' : SamePublic handle t' t'') :
    SamePublic handle t t'' := by
  intro a q ha
  rw [h' a q ha, h a q ha]

theorem samePublic_of_within {nanos : Nat}
    (h : Within (handle.staging nanos) t t') : SamePublic handle t t' :=
  fun _ q ha => h _ (not_below_temporary handle ha nanos q [])

theorem Within.engines {nanos : Nat} (h : Within (handle.staging nanos) t t') :
    t'.look handle.engines = t.look handle.engines := by
  apply h
  exact not_prefix_of_length (by simp)

theorem SoundBuilds.same (h : SoundBuilds handle t) (hsame : SameTracks handle t t') :
    SoundBuilds handle t' where
  tracks a ha hne := by
    rw [hsame a [] (isPublic_of_isValid ha) fun heq => absurd heq hne]
    exact h.tracks a ha hne
  builds a b ha hlook := by
    rw [hsame.root ha b] at hlook
    have hall : (fun q => t'.look (handle.engineBuild a b ++ q)) =
        fun q => t.look (handle.engineBuild a b ++ q) := funext fun q => hsame.build ha b q
    rw [hall]
    exact h.builds a b ha hlook

theorem KeptEngines.of_same (h : SoundBuilds handle t) (hdir : t'.look handle.engines = some .dir)
    (hsame : SameTracks handle t t') : KeptEngines handle t t' :=
  { h.same hsame with
    dir := hdir
    untouched := fun _ b ha _ q => hsame.build ha b q }

theorem KeptEngines.same (h : KeptEngines handle t t') (hdir : t''.look handle.engines = some .dir)
    (hsame : SameTracks handle t' t'') : KeptEngines handle t t'' :=
  { h.toSoundBuilds.same hsame with
    dir := hdir
    untouched := fun a b ha hlook q => by rw [hsame.build ha b q, h.untouched a b ha hlook q] }

/-- What is done to a temporary file or directory is not seen. -/
theorem KeptEngines.within {nanos : Nat} (h : KeptEngines handle t t')
    (hwithin : Within (handle.staging nanos) t' t'') : KeptEngines handle t t'' :=
  h.same (by rw [hwithin.engines, h.dir]) (samePublic_of_within hwithin).tracks

end Registry

/-! ## Publication -/

section Publish

variable {good : Store → Outcome → Prop} {X : Error → Store → Prop} {s : Store}
  {handle : Handle} {formats : EngineFormats} {t₀ : FileTree}

/-- The builds are kept, and so is the registry file. -/
def CarriedEngines (handle : Handle) (t t' : FileTree) : Prop :=
  KeptEngines handle t t' ∧ t'.look handle.engineRegistry = t.look handle.engineRegistry

variable {nanos : Nat} {t'' : FileTree}

theorem CarriedEngines.within {t' : FileTree} (h : CarriedEngines handle t t')
    (hwithin : Within (handle.staging nanos) t' t'') :
    CarriedEngines handle t t'' :=
  ⟨h.1.within hwithin, by rw [(samePublic_of_within hwithin).registry, h.2]⟩

/-- The registry is written to a temporary file, which is renamed. -/
theorem ends_writeRegistry (registry : EngineRegistry) (hcarried : CarriedEngines handle t₀ s.files)
    (hfile : s.files.look handle.engineRegistry ≠ some .dir)
    (hX : ∀ e s', Disturbed good handle.engines → CarriedEngines handle t₀ s'.files → X e s') :
    Ends good
      (fun _ s' => KeptEngines handle t₀ s'.files ∧
        s'.files.look handle.engineRegistry = some (.file (formats.registry registry)))
      X (writeRegistry handle formats registry) s := by
  refine Ends.ask fun o ho => ?_
  change Ends good _ X ((createNew (handle.engines ++ [temporaryName o.nanos])).bind _) s
  generalize htemporary : handle.engines ++ [temporaryName o.nanos] = temporary
  have hwithin : ∀ {t}, Within temporary s.files t → CarriedEngines handle t₀ t := by
    intro t ht
    rw [← htemporary] at ht
    exact hcarried.within ht
  refine Ends.bind (M := fun _ s' => ∃ t, s.files.write temporary [] = some t ∧
    s' = s.withFiles t) ?_ ?_
  · apply ends_change
    · exact fun o ho hfault e => hX e s (disturbed_of_fault _ ho hfault) hcarried
    · intro hnone e
      refine hX e s ⟨s, o, ho, fun hcalm => ?_⟩ hcarried
      have hfresh := hcalm.fresh
      rw [htemporary] at hfresh
      rw [if_pos hfresh] at hnone
      have hplace : s.files.look (handle.engines ++ [temporaryName o.nanos]) ≠ some .dir := by
        rw [htemporary, hfresh]
        exact nofun
      obtain ⟨t, ht⟩ := write_child [] hcarried.1.dir hplace
      rw [htemporary, hnone] at ht
      cases ht
    · intro t ht
      split at ht
      · exact ⟨t, ht, rfl⟩
      · cases ht
  rintro _ _ ⟨t₁, ht₁, rfl⟩
  have hremove : ∀ {s' : Store} (e : Error), Disturbed good handle.engines →
      Within temporary s.files s'.files →
      Ends good (fun _ s'' => ∀ e, X e s'') (fun _ s'' => ∀ e, X e s'') (removeFile temporary)
        s' := by
    intro s' _ hdisturbed hs'
    apply ends_change
    · exact fun _ _ _ _ e => hX e s' hdisturbed (hwithin hs')
    · exact fun _ _ e => hX e s' hdisturbed (hwithin hs')
    · intro t ht e
      refine hX e _ hdisturbed (hwithin (hs'.trans fun q hq => ?_))
      rw [withFiles_files, look_removeFile ht, if_neg]
      rintro rfl
      exact hq prefix_rfl
  apply ends_onError
  apply Ends.bind (M := fun _ s' => Within temporary s.files s'.files ∧
    s'.files.look temporary = some (.file (formats.registry registry)))
  · apply ends_writeAll
    · exact fun o ho hfault t e ht => hremove e (disturbed_of_fault _ ho hfault)
        ((Within.write_self ht₁).trans (Within.write_self ht))
    · intro n hnone
      obtain ⟨t, ht⟩ := write_again ((formats.registry registry).take n) ht₁
      cases hnone.symm.trans ht
    · intro t ht
      refine ⟨(Within.write_self ht₁).trans (Within.write_self ht), ?_⟩
      rw [withFiles_files, look_write ht, if_pos rfl]
  rintro _ s₂ ⟨hs₂, hbytes⟩
  refine Ends.seq
    (ends_sync (fun o ho hfault e => hremove e (disturbed_of_fault _ ho hfault) hs₂) ?_)
  have hne : temporary ≠ handle.engineRegistry := by
    rw [← htemporary]
    intro heq
    refine not_below_temporary handle isPublic_registry o.nanos [] [] ?_
    rw [heq]
    exact prefix_rfl
  obtain ⟨hkept₂, hregistry₂⟩ := hwithin hs₂
  have hparent : handle.engineRegistry.dropLast = handle.engines := dropLast_concat
  have hnonempty : handle.engineRegistry ≠ [] := by simp [Handle.engineRegistry]
  apply ends_change
  · exact fun o ho hfault e => hremove e (disturbed_of_fault _ ho hfault) hs₂
  · intro hnone
    obtain ⟨t, ht⟩ := rename_of_file hbytes hnonempty (by rw [hparent, hkept₂.dir])
      (by rwa [hregistry₂, ← hcarried.2])
    cases hnone.symm.trans ht
  · intro t ht
    obtain ⟨-, hlook⟩ := look_rename_file ht hne hbytes
    refine ⟨hkept₂.same ?_ fun a q ha hq => ?_, by rw [withFiles_files, hlook, if_pos rfl]⟩
    · rw [withFiles_files, hlook, if_neg, if_neg, hkept₂.dir]
      · rw [← htemporary]
        simp
      · simp [Handle.engineRegistry]
    · rw [withFiles_files, hlook, if_neg, if_neg]
      · intro heq
        refine not_below_temporary handle ha o.nanos q [] ?_
        rw [heq, htemporary]
      · intro heq
        obtain ⟨rfl, rfl⟩ : a = "registry.json" ∧ q = [] := by
          simpa [Handle.engineRegistry] using heq
        exact hq rfl rfl

theorem EngineManifest.isValid_of_check {manifest : EngineManifest}
    (h : manifest.check = .ok ()) : Id.isValid manifest.trackId = true := by
  unfold EngineManifest.check Id.new at h
  by_contra hinvalid
  rw [if_neg hinvalid] at h
  cases h

/-- A directory that is named like a build has the checksums of the build. -/
def CollisionFreeBuild (handle : Handle) (t : FileTree) (build : EngineBuild) : Prop :=
  ∀ sums, t.look (handle.engineBuild build.manifest.trackId build.identity ++ sumsPath) =
    some (.file sums) → sha256 sums = build.identity → sums = build.sums

/-- A bundle that has been checked in its staging directory. -/
structure Staged (handle : Handle) (formats : EngineFormats) (t₀ t sub : FileTree)
    (files : List Path) (name : String) (build : EngineBuild) (nanos : Nat) : Prop where
  sound : SoundEngines handle formats t₀
  carried : CarriedEngines handle t₀ t
  same : ∀ a b q, Id.isValid a = true →
    t.look (handle.engineBuild a b ++ q) = t₀.look (handle.engineBuild a b ++ q)
  mirror : Mirrors (handle.engines ++ [temporaryName nanos]) t sub
  unpacked : Unpacked sub files (some name)
  checked : Checked formats (fun q => sub.look (name :: q)) files build

namespace Staged

variable {t sub : FileTree} {files : List Path} {name : String} {build : EngineBuild} {nanos : Nat}

theorem isValid (h : Staged handle formats t₀ t sub files name build nanos) :
    Id.isValid build.manifest.trackId = true :=
  EngineManifest.isValid_of_check h.checked.valid

theorem bundle (h : Staged handle formats t₀ t sub files name build nanos) (q : Path) :
    t.look (handle.staging nanos ++ [name] ++ q) = sub.look (name :: q) := by
  rw [append_assoc, h.mirror.look]
  rfl

/-- What is installed under the name of a build is the build. -/
theorem installed (h : Staged handle formats t₀ t sub files name build nanos)
    (hfree : CollisionFreeBuild handle t₀ build)
    (hthere : t.look (handle.engineBuild build.manifest.trackId build.identity) ≠ none) :
    ∀ f ∈ files, ∃ b b',
      t.look (handle.engineBuild build.manifest.trackId build.identity ++ trimmed f.tail) =
        some (.file b) ∧
      t.look (handle.staging nanos ++ [name] ++ trimmed f.tail) =
        some (.file b') ∧ sha256 b = sha256 b' := by
  obtain ⟨sums, expected, hsums, hidentity, hexpected, -, hfound⟩ :=
    h.carried.1.builds _ _ h.isValid hthere
  obtain rfl : sums = build.sums := by
    refine hfree sums ?_ hidentity
    rw [← h.same _ _ _ h.isValid]
    exact hsums
  obtain ⟨expected', hexpected', hverified⟩ := h.checked.verified
  obtain rfl : expected = expected' := Except.ok.inj (hexpected.symm.trans hexpected')
  intro f hf
  by_cases hf' : trimmed f.tail = sumsPath
  · refine ⟨build.sums, build.sums, ?_, ?_, rfl⟩
    · rw [hf']
      exact hsums
    · rw [hf', h.bundle]
      exact h.checked.sums
  · obtain ⟨b', hlook, hmem⟩ := hverified.file f hf hf'
    obtain ⟨b, hinstalled, hdigest⟩ := hfound _ hmem
    refine ⟨b, b', hinstalled, ?_, hdigest.symm⟩
    rw [h.bundle, h.unpacked.trimmed_tail hlook]
    exact hlook

end Staged

/-- The files of an installed build are compared. -/
theorem ends_compareInstalled (engines bundle destination : Path) (files : List Path)
    (hX : ∀ e, (Disturbed good engines ∨ ¬ ∀ f ∈ files, ∃ b b',
      s.files.look (destination ++ trimmed f.tail) = some (.file b) ∧
      s.files.look (bundle ++ trimmed f.tail) = some (.file b') ∧ sha256 b = sha256 b') → X e s) :
    Ends good (fun _ s' => s' = s) X (compareInstalled bundle destination files) s := by
  induction files with
  | nil => rfl
  | cons f files ih =>
    have hhead : ∀ e, (¬ ∃ b b', s.files.look (destination ++ trimmed f.tail) = some (.file b) ∧
        s.files.look (bundle ++ trimmed f.tail) = some (.file b') ∧ sha256 b = sha256 b') →
        X e s :=
      fun e hnot => hX e (.inr fun hall => hnot (hall f mem_cons_self))
    apply Ends.bind (ends_engineHash engines ?_)
    · rintro installed s₁ ⟨rfl, b, hb, hinstalled⟩
      apply Ends.bind (ends_engineHash engines ?_)
      · rintro imported s₂ ⟨rfl, b', hb', himported⟩
        by_cases heq : installed = imported
        · rw [if_neg (not_not.2 heq)]
          apply ih
          rintro e (h | h)
          · exact hX e (.inl h)
          · exact hX e (.inr fun hall => h fun g hg => hall g (mem_cons_of_mem _ hg))
        · rw [if_pos heq]
          refine hhead _ ?_
          rintro ⟨c, c', hc, hc', hsame⟩
          cases hb.symm.trans hc
          cases hb'.symm.trans hc'
          exact heq (by rw [hinstalled, himported, hsame])
      · rintro e (h | h)
        · exact hX e (.inl h)
        · refine hhead e ?_
          rintro ⟨-, b', -, hb', -⟩
          exact h b' hb'
    · rintro e (h | h)
      · exact hX e (.inl h)
      · refine hhead e ?_
        rintro ⟨b, -, hb, -, -⟩
        exact h b hb

theorem engineBuild_prefix_iff (handle : Handle) {a b a' b' : String} {q : Path} :
    handle.engineBuild a b <+: handle.engineBuild a' b' ++ q ↔ a = a' ∧ b = b' := by
  simp [Handle.engineBuild, prefix_append_right_inj, cons_prefix_cons]

theorem dropLast_engineBuild (handle : Handle) (a b : String) :
    (handle.engineBuild a b).dropLast = handle.engines ++ [a] := by
  have hsplit : handle.engineBuild a b = handle.engines ++ [a] ++ [b] := by
    simp [Handle.engineBuild]
  rw [hsplit, dropLast_concat]

namespace Staged

variable {t t' sub : FileTree} {files : List Path} {name : String} {build : EngineBuild}
  {nanos : Nat}

/-- The bundle is a directory. -/
theorem bundle_dir (h : Staged handle formats t₀ t sub files name build nanos) :
    t.look (handle.staging nanos ++ [name]) = some .dir := by
  refine look_above (prefix_append _ sumsPath) (by simp [sumsPath]) ?_
  rw [h.bundle, h.checked.sums]
  exact Option.some_ne_none _

/-- What the move of a bundle keeps. -/
theorem moved (h : Staged handle formats t₀ t sub files name build nanos)
    (hnone : t.look (handle.engineBuild build.manifest.trackId build.identity) = none)
    (hlook : ∀ q, t'.look q =
      if handle.engineBuild build.manifest.trackId build.identity <+: q then
        t.look (handle.staging nanos ++ [name] ++
          q.drop (handle.engineBuild build.manifest.trackId build.identity).length)
      else if handle.staging nanos ++ [name] <+: q then none
      else t.look q) :
    CarriedEngines handle t₀ t' ∧
      t'.look (handle.engineBuild build.manifest.trackId build.identity) ≠ none := by
  obtain ⟨hkept, hregistry⟩ := h.carried
  have hpublic : ∀ a q, IsPublic a →
      ¬ handle.staging nanos ++ [name] <+: handle.engines ++ a :: q := by
    intro a q ha
    rw [append_assoc]
    exact not_below_temporary handle ha nanos q [name]
  have htop : ∀ a, IsPublic a → t'.look (handle.engines ++ [a]) = t.look (handle.engines ++ [a]) := by
    intro a ha
    rw [hlook, if_neg, if_neg (hpublic a [] ha)]
    exact not_prefix_of_length (by simp [Handle.engineBuild])
  have hother : ∀ a b q, Id.isValid a = true →
      ¬ (build.manifest.trackId = a ∧ build.identity = b) →
      t'.look (handle.engineBuild a b ++ q) = t.look (handle.engineBuild a b ++ q) := by
    intro a b q ha hne
    rw [hlook, if_neg (mt (engineBuild_prefix_iff handle).1 hne), if_neg]
    simpa [Handle.engineBuild] using hpublic a (b :: q) (isPublic_of_isValid ha)
  have hmoved : ∀ q, t'.look (handle.engineBuild build.manifest.trackId build.identity ++ q) =
      sub.look (name :: q) := by
    intro q
    rw [hlook, if_pos (prefix_append _ _), drop_left, h.bundle]
  have hdir : t'.look handle.engines = some .dir := by
    rw [hlook, if_neg, if_neg, hkept.dir]
    · exact not_prefix_of_length (by simp)
    · exact not_prefix_of_length (by simp [Handle.engineBuild])
  refine ⟨⟨{ tracks := ?_, builds := ?_, dir := hdir, untouched := ?_ }, ?_⟩, ?_⟩
  · intro a ha hne
    rw [htop a (isPublic_of_isValid ha)]
    exact hkept.tracks a ha hne
  · intro a b ha hthere
    by_cases hsame : build.manifest.trackId = a ∧ build.identity = b
    · obtain ⟨rfl, rfl⟩ := hsame
      rw [funext hmoved]
      exact h.checked.intact h.unpacked
    · have hbuild := hother a b [] ha hsame
      rw [append_nil] at hbuild
      rw [hbuild] at hthere
      rw [funext fun q => hother a b q ha hsame]
      exact hkept.builds a b ha hthere
  · intro a b ha hthere q
    rw [hother a b q ha, hkept.untouched a b ha hthere]
    rintro ⟨rfl, rfl⟩
    have hbuild := h.same _ build.identity [] ha
    rw [append_nil] at hbuild
    exact hthere (hbuild.symm.trans hnone)
  · rw [Handle.engineRegistry, htop _ isPublic_registry]
    exact hregistry
  · have hroot := hmoved []
    rw [append_nil] at hroot
    rw [hroot]
    have hbundle := h.bundle []
    rw [append_nil, h.bundle_dir] at hbundle
    rw [← hbundle]
    exact Option.some_ne_none _

end Staged

variable {sub : FileTree}

/-- A bundle is moved to its place, or it is there. -/
theorem ends_installEngine {files : List Path} {build : EngineBuild}
    (h : Staged handle formats t₀ s.files sub files name build nanos)
    (htrack : s.files.look (handle.engines ++ [build.manifest.trackId]) = some .dir)
    (hX : ∀ e, (Disturbed good handle.engines ∨ ¬ CollisionFreeBuild handle t₀ build) → X e s) :
    Ends good
      (fun _ s' => CarriedEngines handle t₀ s'.files ∧
        s'.files.look (handle.engineBuild build.manifest.trackId build.identity) ≠ none)
      X (installEngine (handle.staging nanos ++ [name])
        (handle.engineBuild build.manifest.trackId build.identity) files) s := by
  refine Ends.value ends_exists fun there hthere => ?_
  cases there with
  | true =>
    have hexists :
        s.files.look (handle.engineBuild build.manifest.trackId build.identity) ≠ none := by
      simpa using hthere.symm
    refine (ends_compareInstalled handle.engines _ _ files ?_).mono ?_ fun _ _ h => h
    · rintro e (hwhy | hwhy)
      · exact hX e (.inl hwhy)
      · exact hX e (.inr fun hfree => hwhy (h.installed hfree hexists))
    · rintro _ s' rfl
      exact ⟨h.carried, hexists⟩
  | false =>
    have hnone :
        s.files.look (handle.engineBuild build.manifest.trackId build.identity) = none := by
      simpa using hthere.symm
    have happly : ¬ handle.staging nanos ++ [name] <+:
        handle.engineBuild build.manifest.trackId build.identity := by
      rw [append_assoc]
      exact not_below_temporary handle (isPublic_of_isValid h.isValid) nanos _ [name]
    apply ends_change
    · exact fun o ho hfault e => hX e (.inl (disturbed_of_fault _ ho hfault))
    · intro hrefused
      obtain ⟨t, ht⟩ := rename_of_look (by simp) (by simp [Handle.engineBuild]) happly
        (by rw [dropLast_engineBuild, htrack]) (by rw [h.bundle_dir]; simp) hnone
      cases hrefused.symm.trans ht
    · intro t ht
      exact h.moved hnone (look_rename ht fun heq => happly (by rw [heq]))

theorem KeptEngines.trans {t' : FileTree} (h : KeptEngines handle t t')
    (h' : KeptEngines handle t' t'') : KeptEngines handle t t'' :=
  { h'.toSoundBuilds with
    dir := h'.dir
    untouched := by
      intro a b ha hthere q
      rw [h'.untouched a b ha (by rwa [h.untouched.root ha hthere]), h.untouched a b ha hthere] }

theorem CarriedEngines.self {t' : FileTree} (h : CarriedEngines handle t t') :
    CarriedEngines handle t' t' :=
  ⟨{ h.1 with untouched := fun _ _ _ _ _ => rfl }, rfl⟩

theorem CarriedEngines.trans {t' : FileTree} (h : CarriedEngines handle t t')
    (h' : CarriedEngines handle t' t'') : CarriedEngines handle t t'' :=
  ⟨h.1.trans h'.1, h'.2.trans h.2⟩

theorem registeredEngines_congr {t' : FileTree}
    (h : t'.look handle.engineRegistry = t.look handle.engineRegistry) :
    registeredEngines handle formats t' = registeredEngines handle formats t := by
  rw [registeredEngines, registeredEngines, h]

theorem registry_not_dir {registry : EngineRegistry}
    (h : registeredEngines handle formats t = some registry) :
    t.look handle.engineRegistry ≠ some .dir := by
  intro hdir
  rw [registeredEngines, hdir] at h
  cases h

theorem ends_registered
    (hX : ∀ e, (Disturbed good handle.engines ∨
      registeredEngines handle formats s.files = none) → X e s) :
    Ends good
      (fun registry s' => s' = s ∧ registeredEngines handle formats s.files = some registry)
      X (registered handle formats) s := by
  refine Ends.ask fun o ho => ?_
  cases hfault : o.fault with
  | some detail => exact hX _ (.inl (disturbed_of_fault _ ho (by simp [hfault])))
  | none =>
    dsimp only
    rw [ends_act]
    unfold registeredEngines at hX ⊢
    dsimp only [id]
    cases hlook : s.files.look handle.engineRegistry with
    | none => exact ⟨rfl, rfl⟩
    | some entry =>
    cases entry with
    | dir =>
      rw [hlook] at hX
      exact hX _ (.inr rfl)
    | file bytes =>
      rw [hlook] at hX
      dsimp only at hX ⊢
      cases hread : formats.readRegistry bytes with
      | error e =>
        rw [hread] at hX
        exact hX _ (.inr rfl)
      | ok registry => exact ⟨rfl, rfl⟩

/-- What an import that has published a build leaves. -/
structure PublishedEngine (handle : Handle) (formats : EngineFormats) (t t' : FileTree)
    (build : EngineBuild) : Prop where
  kept : KeptEngines handle t t'
  registry : ∃ registry, registeredEngines handle formats t = some registry ∧
    registeredEngines handle formats t' = some (registry.insert build.manifest.trackId
      (build.config (handle.engineBuild build.manifest.trackId build.identity)))
  there : t'.look (handle.engineBuild build.manifest.trackId build.identity) ≠ none

/-- A track gets its directory. -/
theorem Staged.track {t' : FileTree} {files : List Path} {build : EngineBuild}
    (h : Staged handle formats t₀ t sub files name build nanos)
    (ht : t.createDirAll (handle.engines ++ [build.manifest.trackId]) = some t')
    (htrack : build.manifest.trackId ≠ "registry.json") :
    Staged handle formats t₀ t' sub files name build nanos ∧
      t'.look (handle.engines ++ [build.manifest.trackId]) = some .dir := by
  obtain ⟨hkept, hregistry⟩ := h.carried
  have hlook := look_createDirAll ht
  have hbuild : ∀ a b q, t'.look (handle.engineBuild a b ++ q) =
      t.look (handle.engineBuild a b ++ q) := by
    intro a b q
    rw [hlook, if_neg]
    exact not_prefix_of_length (by simp [Handle.engineBuild])
  have htop : ∀ a, a ≠ build.manifest.trackId →
      t'.look (handle.engines ++ [a]) = t.look (handle.engines ++ [a]) := by
    intro a ha
    rw [hlook, if_neg]
    simpa [prefix_append_right_inj] using ha
  have hthere : t'.look (handle.engines ++ [build.manifest.trackId]) = some .dir := by
    rw [hlook, if_pos prefix_rfl]
  have hmirror : Mirrors (handle.staging nanos) t' sub := by
    have hpublic := not_below_temporary handle (isPublic_of_isValid h.isValid) nanos [] []
    have hne : temporaryName nanos ≠ build.manifest.trackId := by
      intro heq
      rw [heq] at hpublic
      exact hpublic prefix_rfl
    have hnot : ∀ q, ¬ handle.staging nanos ++ q <+:
        handle.engines ++ [build.manifest.trackId] := by
      intro q
      rw [append_assoc, prefix_append_right_inj, singleton_append, cons_prefix_cons]
      exact fun heq => hne heq.1
    constructor
    · have hnone := hnot []
      rw [append_nil] at hnone
      rw [hlook, if_neg hnone, h.mirror.dir]
    · intro q
      rw [hlook, if_neg (hnot q), h.mirror.look]
  refine ⟨{ h with carried := ⟨{ tracks := ?_, builds := ?_, dir := ?_, untouched := ?_ }, ?_⟩,
                   same := ?_, mirror := hmirror }, hthere⟩
  · intro a ha hne
    by_cases hsame : a = build.manifest.trackId
    · rw [hsame]
      exact .inl hthere
    · rw [htop a hsame]
      exact hkept.tracks a ha hne
  · intro a b ha hlook'
    have hroot := hbuild a b []
    rw [append_nil] at hroot
    rw [hroot] at hlook'
    rw [funext fun q => hbuild a b q]
    exact hkept.builds a b ha hlook'
  · rw [hlook, if_pos (prefix_append _ _)]
  · intro a b ha hlook' q
    rw [hbuild, hkept.untouched a b ha hlook']
  · rw [Handle.engineRegistry, htop _ (Ne.symm htrack)]
    exact hregistry
  · intro a b q ha
    rw [hbuild, h.same a b q ha]

/-- A bundle is published. -/
theorem ends_publishEngine {files : List Path} {build : EngineBuild}
    (h : Staged handle formats t₀ s.files sub files name build nanos)
    (hadmitted : build.manifest.trackId = "registry.json" →
      t₀.look handle.engineRegistry ≠ none)
    (hX : ∀ e s', (Disturbed good handle.engines ∨ build.manifest.trackId = "registry.json" ∨
      ¬ CollisionFreeBuild handle t₀ build) → CarriedEngines handle t₀ s'.files → X e s') :
    Ends good
      (fun build' s' => build' = build ∧ PublishedEngine handle formats t₀ s'.files build)
      X (publishEngine handle formats (handle.staging nanos ++ [name]) files
        build) s := by
  obtain ⟨registry, hregistry, -⟩ := h.sound.readable
  refine Ends.seq (ends_change (fun o ho hfault e => hX e s (.inl (disturbed_of_fault _ ho hfault)) h.carried)
    ?_ fun t ht => ?_)
  · intro hrefused e
    refine hX e s (.inr (.inl ?_)) h.carried
    by_contra htrack
    obtain ⟨t, ht⟩ : ∃ t, s.files.createDirAll (handle.engines ++ [build.manifest.trackId]) =
        some t := by
      refine createDirAll_of_look fun q hq => ?_
      rcases prefix_concat_iff.1 hq with rfl | hq
      · exact h.carried.1.tracks _ h.isValid htrack
      · by_cases heq : q = handle.engines
        · exact .inl (heq ▸ h.carried.1.dir)
        · exact .inl (look_above hq heq (by simp [h.carried.1.dir]))
    cases hrefused.symm.trans ht
  have htrack : build.manifest.trackId ≠ "registry.json" := by
    -- a registry that is there is a file
    intro heq
    rw [heq] at ht
    rcases look_of_createDirAll ht prefix_rfl with hdir | hnone
    · exact registry_not_dir hregistry (h.carried.2.symm.trans hdir)
    · exact hadmitted heq (h.carried.2.symm.trans hnone)
  obtain ⟨h₁, hdir⟩ := h.track ht htrack
  apply Ends.bind (ends_installEngine (s := s.withFiles t) h₁ hdir ?_)
  · rintro _ s₂ ⟨hcarried, hthere⟩
    have hsame : registeredEngines handle formats s₂.files = some registry := by
      rw [registeredEngines_congr hcarried.2, hregistry]
    apply Ends.bind (ends_registered ?_)
    · rintro registry' s₃ ⟨rfl, hregistry'⟩
      obtain rfl : registry = registry' := Option.some.inj (hsame.symm.trans hregistry')
      apply Ends.bind (ends_writeRegistry _ hcarried.self (registry_not_dir hsame) ?_)
      · rintro _ s₄ ⟨hkept, hwritten⟩
        refine ⟨rfl, hcarried.1.trans hkept, ⟨registry, hregistry, ?_⟩, ?_⟩
        · rw [registeredEngines, hwritten]
          dsimp only
          rw [formats.read_registry]
          rfl
        · rwa [hkept.untouched.root h.isValid hthere]
      · exact fun e s' hdisturbed hs' => hX e s' (.inl hdisturbed) (hcarried.trans hs')
    · rintro e (hwhy | hwhy)
      · exact hX e s₂ (.inl hwhy) hcarried
      · rw [hsame] at hwhy
        cases hwhy
  · rintro e (hwhy | hwhy)
    · exact hX e _ (.inl hwhy) h₁.carried
    · exact hX e _ (.inr (.inr hwhy)) h₁.carried

end Publish

/-! ## One import -/

theorem Checked.unique {formats : EngineFormats} {look : Path → Option FileTree.Entry}
    {files files' : List Path} {build build' : EngineBuild} (h : Checked formats look files build)
    (h' : Checked formats look files' build') : build = build' := by
  obtain ⟨bytes, hbytes, hread⟩ := h.manifest
  obtain ⟨bytes', hbytes', hread'⟩ := h'.manifest
  have hversion := h.version
  have hversion' := h'.version
  have hsums := h.sums.symm.trans h'.sums
  cases hbytes.symm.trans hbytes'
  have hmanifest := Except.ok.inj (hread.symm.trans hread')
  rw [← hmanifest] at hversion'
  cases build
  cases build'
  simp only [Option.some.injEq, FileTree.Entry.file.injEq] at hsums
  simp only [EngineBuild.mk.injEq]
  exact ⟨hmanifest, Except.ok.inj (hversion.symm.trans hversion'), hsums⟩

/-- An archive holds a build. -/
def HoldsBuild (formats : EngineFormats) (t : FileTree) (source : Path) (build : EngineBuild) :
    Prop :=
  ∃ bytes sub files name, t.look source = some (.file bytes) ∧
    unpack (.dir []) (formats.archive bytes) [] none = some (sub, files, some name) ∧
    Checked formats (fun q => sub.look (name :: q)) files build

/-- The track of a build has not the name of the registry, or the registry is there. -/
def AdmittedEngine (handle : Handle) (formats : EngineFormats) (t : FileTree) (source : Path) :
    Prop :=
  ∀ build, HoldsBuild formats t source build → build.manifest.trackId = "registry.json" →
    t.look handle.engineRegistry ≠ none

/-- An archive of a build that can be installed. -/
def InstallableEngine (handle : Handle) (formats : EngineFormats) (t : FileTree) (source : Path) :
    Prop :=
  ∃ build, HoldsBuild formats t source build ∧ build.manifest.trackId ≠ "registry.json" ∧
    CollisionFreeBuild handle t build

theorem HoldsBuild.unique {formats : EngineFormats} {source : Path}
    {build build' : EngineBuild} (h : HoldsBuild formats t source build)
    (h' : HoldsBuild formats t source build') : build = build' := by
  obtain ⟨bytes, sub, files, name, hlook, hunpack, hchecked⟩ := h
  obtain ⟨bytes', sub', files', name', hlook', hunpack', hchecked'⟩ := h'
  cases hlook.symm.trans hlook'
  cases hunpack.symm.trans hunpack'
  exact hchecked.unique hchecked'

section Import

variable {good : Store → Outcome → Prop} {s : Store} {handle : Handle} {formats : EngineFormats}
  {source : Path}

/-- The import in an empty staging directory fails without a build, or publishes it. -/
theorem ends_importStaged {t₀ : FileTree} {nanos : Nat} {Q : EngineBuild → Store → Prop}
    {X : Error → Store → Prop} (hsound : SoundEngines handle formats t₀)
    (hdir : s.files.look handle.engines = some .dir) (hsame : SamePublic handle t₀ s.files)
    (hmirror : Mirrors (handle.staging nanos) s.files (.dir []))
    (hsource : ∀ b, s.files.look source = some (.file b) ↔ t₀.look source = some (.file b))
    (hX : ∀ e s', (Disturbed good handle.engines ∨ ∀ build, ¬ HoldsBuild formats t₀ source build) →
      CarriedEngines handle t₀ s'.files → X e s')
    (hpublish : ∀ s' sub files name build, HoldsBuild formats t₀ source build →
      Staged handle formats t₀ s'.files sub files name build nanos →
      Ends good Q X (publishEngine handle formats
        (handle.staging nanos ++ [name]) files build) s') :
    Ends good Q X
      (importStaged handle formats (handle.staging nanos) source) s := by
  have hcarried : CarriedEngines handle t₀ s.files :=
    ⟨KeptEngines.of_same hsound.toSoundBuilds hdir hsame.tracks, hsame.registry⟩
  apply Ends.bind (ends_readFile_undisturbed handle.engines ?_)
  · rintro bytes s₁ ⟨rfl, hbytes⟩
    have hlook := (hsource bytes).1 hbytes
    -- the build is read from the archive
    have hnot : ∀ {sub files name}, unpack (.dir []) (formats.archive bytes) [] none =
        some (sub, files, name) → (∀ n, name = some n →
          ¬ ∃ build, Checked formats (fun q => sub.look (n :: q)) files build) →
        ∀ build, ¬ HoldsBuild formats t₀ source build := by
      rintro sub files name hunpack hnone build
        ⟨bytes', sub', files', name', hlook', hunpack', hchecked⟩
      cases hlook.symm.trans hlook'
      cases hunpack.symm.trans hunpack'
      exact hnone name' rfl ⟨build, hchecked⟩
    apply Ends.bind (ends_extract handle.engines (formats.archive bytes) [] none hmirror ?_)
    · rintro ⟨files, name⟩ s₂ ⟨hwithin, sub, hunpack, hmirror₂⟩
      have hcarried₂ := hcarried.within hwithin
      have hunpacked := unpacked_of_unpack Unpacked.empty hunpack
      cases name with
      | none => exact hX _ _ (.inr (hnot hunpack nofun)) hcarried₂
      | some name =>
        have hbundle : (fun q => s₂.files.look
            (handle.staging nanos ++ [name] ++ q)) =
              fun q => sub.look (name :: q) := by
          funext q
          rw [append_assoc, hmirror₂.look]
          rfl
        apply Ends.bind (ends_checkBundle handle.engines formats
          (handle.staging nanos ++ [name]) files ?_)
        · rintro build s₃ ⟨rfl, hchecked⟩
          rw [hbundle] at hchecked
          refine hpublish s₃ sub files name build
            ⟨bytes, sub, files, name, hlook, hunpack, hchecked⟩ ?_
          exact
            { sound := hsound
              carried := hcarried₂
              same := fun a b q ha =>
                (hsame.trans (samePublic_of_within hwithin)).tracks.build ha b q
              mirror := hmirror₂
              unpacked := hunpacked
              checked := hchecked }
        · rintro e (hwhy | hwhy)
          · exact hX e _ (.inl hwhy) hcarried₂
          · rw [hbundle] at hwhy
            refine hX e _ (.inr (hnot hunpack ?_)) hcarried₂
            rintro _ ⟨⟩
            exact hwhy
    · rintro e s' (hwhy | hwhy) hs'
      · exact hX e s' (.inl hwhy) (hcarried.within hs')
      · refine hX e s' (.inr ?_) (hcarried.within hs')
        rintro build ⟨bytes', sub', files', name', hlook', hunpack', -⟩
        cases hlook.symm.trans hlook'
        cases hwhy.symm.trans hunpack'
  · rintro e (hwhy | hwhy)
    · exact hX e s (.inl hwhy) hcarried
    · refine hX e s (.inr ?_) hcarried
      rintro build ⟨bytes, -, -, -, hlook, -⟩
      exact hwhy bytes ((hsource bytes).2 hlook)

/-- What happens around the staging directory: nothing is seen of it in the end. -/
theorem ends_importEngine_of {Q : EngineBuild → FileTree → Prop} {X : FileTree → Prop}
    (hengines : s.files.look handle.engines = some .dir ∨ s.files.look handle.engines = none)
    (hroot : s.files.look handle.root = some .dir)
    (hearly : ∀ t, Disturbed good handle.engines →
      t = s.files ∨ t.look handle.engines = some .dir ∧ SamePublic handle s.files t → X t)
    (hQ : ∀ build t t' nanos, Q build t →
      Within (handle.staging nanos) t t' → Q build t')
    (hX : ∀ t t' nanos, X t → Within (handle.staging nanos) t t' → X t')
    (hstaged : ∀ t nanos, t.look handle.engines = some .dir → SamePublic handle s.files t →
      Mirrors (handle.staging nanos) t (.dir []) →
      (∀ b, t.look source = some (.file b) ↔ s.files.look source = some (.file b)) →
      Ends good (fun build s' => Q build s'.files) (fun _ s' => X s'.files)
        (importStaged handle formats (handle.staging nanos) source)
        (s.withFiles t)) :
    Ends good (fun build s' => Q build s'.files) (fun _ s' => X s'.files)
      (importEngine handle formats source) s := by
  refine Ends.seq (ends_change (fun o ho hfault e => hearly _ (disturbed_of_fault _ ho hfault) (.inl rfl))
    ?_ fun t₁ ht₁ => ?_)
  · intro hrefused
    obtain ⟨t, ht⟩ : ∃ t, s.files.createDirAll handle.engines = some t := by
      refine createDirAll_of_look fun q hq => ?_
      rcases prefix_concat_iff.1 hq with rfl | hq
      · exact hengines
      · by_cases heq : q = handle.root
        · exact .inl (heq ▸ hroot)
        · exact .inl (look_above hq heq (by simp [hroot]))
    cases hrefused.symm.trans ht
  have hlook₁ := look_createDirAll ht₁
  have hdir₁ : t₁.look handle.engines = some .dir := by rw [hlook₁, if_pos prefix_rfl]
  have hbelow₁ : ∀ q, q ≠ [] →
      t₁.look (handle.engines ++ q) = s.files.look (handle.engines ++ q) := by
    intro q hq
    rw [hlook₁, if_neg]
    intro hprefix
    have hlength := hprefix.length_le
    simp only [length_append] at hlength
    exact hq (length_eq_zero_iff.1 (by omega))
  have hsame₁ : SamePublic handle s.files t₁ := fun a q _ => hbelow₁ _ (cons_ne_nil a q)
  have hearly₁ : Disturbed good handle.engines → X t₁ :=
    fun hdisturbed => hearly _ hdisturbed (.inr ⟨hdir₁, hsame₁⟩)
  apply Ends.bind (M := fun _ s' => s' = s.withFiles t₁)
  · apply ends_change
    · exact fun o ho hfault e => hearly₁ (disturbed_of_fault _ ho hfault)
    · intro hrefused
      simp [hdir₁] at hrefused
    · intro t ht
      split at ht
      · cases ht
      · cases ht
        rfl
  rintro _ _ rfl
  refine Ends.ask fun o ho => ?_
  change Ends good _ _ ((change (.createDir (handle.staging o.nanos))
    (handle.staging o.nanos)
    (·.createDir (handle.staging o.nanos))).bind _) (s.withFiles t₁)
  apply Ends.bind (M := fun _ s' => ∃ t,
    t₁.createDir (handle.staging o.nanos) = some t ∧ s' = s.withFiles t)
  · apply ends_change
    · exact fun o ho hfault e => hearly₁ (disturbed_of_fault _ ho hfault)
    · intro hrefused e
      refine hearly₁ ⟨_, o, ho, fun hcalm => ?_⟩
      have hcreated : (t₁.createDir (handle.staging o.nanos)).isSome = true :=
        createDir_isSome.2 ⟨by simp, by rwa [dropLast_concat], hcalm.fresh⟩
      rw [Option.isSome_iff_ne_none] at hcreated
      exact hcreated hrefused
    · exact fun t ht => ⟨t, ht, rfl⟩
  rintro _ _ ⟨t₂, ht₂, rfl⟩
  generalize o.nanos = nanos at ht₂ ⊢
  obtain ⟨-, -, hnone⟩ := createDir_isSome.1 (Option.isSome_iff_exists.2 ⟨t₂, ht₂⟩)
  have hlook₂ := look_createDir ht₂
  have hwithin : Within (handle.staging nanos) t₁ t₂ := by
    intro q hq
    rw [hlook₂, if_neg]
    rintro rfl
    exact hq prefix_rfl
  have hmirror : Mirrors (handle.staging nanos) t₂ (.dir []) := by
    refine ⟨by rw [hlook₂, if_pos rfl], fun q => ?_⟩
    cases q with
    | nil =>
      rw [append_nil, hlook₂, if_pos rfl]
      rfl
    | cons a q =>
      rw [hlook₂, if_neg (by simp), look_append_of_none hnone, look_dir_cons,
        FileTree.entry, Option.bind_none]
  have hsource : ∀ b, t₂.look source = some (.file b) ↔ s.files.look source = some (.file b) := by
    intro b
    have hnone₀ : s.files.look (handle.staging nanos) = none := by
      rw [← hbelow₁ _ (cons_ne_nil _ _), hnone]
    rw [hlook₂]
    split
    · next heq =>
      simp [heq, hnone₀]
    · rw [hlook₁]
      split
      · next hprefix =>
        -- a directory above the archive is no archive
        rcases look_of_createDirAll ht₁ hprefix with hdir | hnone'
        · rw [hdir]
        · simp [hnone']
      · rfl
  apply Ends.bind (M := Either (fun build s' => Q build s'.files) fun _ s' => X s'.files)
  · exact Ends.attempt (hstaged t₂ nanos (by rw [hwithin.engines, hdir₁])
      (hsame₁.trans (samePublic_of_within hwithin)) hmirror hsource)
  intro r s₃ hs₃
  apply Ends.bind (M := fun _ s' =>
    Within (handle.staging nanos) s₃.files s'.files)
  · apply ends_ignore
    apply ends_change
    · exact fun _ _ _ _ => Within.refl _ _
    · exact fun _ _ => Within.refl _ _
    · exact fun t ht => Within.removeDirAll ht
  intro _ s₄ hs₄
  cases r with
  | ok build => exact hQ build _ _ nanos hs₃ hs₄
  | error e => exact hX _ _ nanos hs₃ hs₄

/-- An import that fails: it was disturbed, or the archive cannot be installed. -/
def Excused (good : Store → Outcome → Prop) (handle : Handle) (formats : EngineFormats)
    (t : FileTree) (source : Path) : Prop :=
  Disturbed good handle.engines ∨ ¬ InstallableEngine handle formats t source

/-- What every import leaves: the registry can be read, and the builds are the same. -/
structure KeepsEngines (handle : Handle) (formats : EngineFormats) (t t' : FileTree) : Prop where
  sound : SoundEngines handle formats t'
  untouched : Untouched handle t t'

variable {t' : FileTree}

theorem PublishedEngine.within {t'' : FileTree} {build : EngineBuild} {nanos : Nat}
    (h : PublishedEngine handle formats t t' build)
    (hvalid : Id.isValid build.manifest.trackId = true)
    (hwithin : Within (handle.staging nanos) t' t'') :
    PublishedEngine handle formats t t'' build where
  kept := h.kept.within hwithin
  registry := by
    rw [registeredEngines_congr (samePublic_of_within hwithin).registry]
    exact h.registry
  there := by
    rw [(samePublic_of_within hwithin).tracks.root hvalid]
    exact h.there

theorem there_of_untouched {a b : String} (h : Untouched handle t t')
    (ha : Id.isValid a = true) (hthere : t.look (handle.engineBuild a b) ≠ none) :
    t'.look (handle.engineBuild a b) ≠ none := by
  rwa [h.root ha hthere]

theorem CarriedEngines.keeps (h : CarriedEngines handle t t')
    (hsound : SoundEngines handle formats t) : KeepsEngines handle formats t t' where
  sound :=
    { h.1.toSoundBuilds with
      engines := .inl h.1.dir
      readable := by
        obtain ⟨registry, hregistry, hpaths⟩ := hsound.readable
        refine ⟨registry, by rw [registeredEngines_congr h.2, hregistry], ?_⟩
        intro a config ha
        obtain ⟨hvalid, b, hpath, hthere⟩ := hpaths a config ha
        exact ⟨hvalid, b, hpath, there_of_untouched h.1.untouched hvalid hthere⟩ }
  untouched := h.1.untouched

theorem PublishedEngine.keeps {build : EngineBuild}
    (h : PublishedEngine handle formats t t' build) (hsound : SoundEngines handle formats t)
    (hvalid : Id.isValid build.manifest.trackId = true) : KeepsEngines handle formats t t' where
  sound :=
    { h.kept.toSoundBuilds with
      engines := .inl h.kept.dir
      readable := by
        obtain ⟨registry, hregistry, hinserted⟩ := h.registry
        obtain ⟨registry', hregistry', hpaths⟩ := hsound.readable
        obtain rfl : registry = registry' := Option.some.inj (hregistry.symm.trans hregistry')
        refine ⟨_, hinserted, ?_⟩
        intro a config ha
        rw [SortedMap.get?_insert] at ha
        split at ha
        · next heq =>
          cases ha
          rw [heq]
          exact ⟨hvalid, build.identity, rfl, h.there⟩
        · obtain ⟨ha', b, hpath, hthere⟩ := hpaths a config ha
          exact ⟨ha', b, hpath, there_of_untouched h.kept.untouched ha' hthere⟩ }
  untouched := h.kept.untouched

theorem KeepsEngines.trans {t'' : FileTree} (h : KeepsEngines handle formats t t')
    (h' : KeepsEngines handle formats t' t'') : KeepsEngines handle formats t t'' where
  sound := h'.sound
  untouched := by
    intro a b ha hthere q
    rw [h'.untouched a b ha (there_of_untouched h.untouched ha hthere), h.untouched a b ha hthere]

/-- What is not seen keeps the registry and the builds. -/
theorem SoundEngines.same (h : SoundEngines handle formats t)
    (hengines : t'.look handle.engines = t.look handle.engines) (hsame : SamePublic handle t t') :
    KeepsEngines handle formats t t' := by
  have huntouched : Untouched handle t t' := fun a b ha _ q => hsame.tracks.build ha b q
  refine ⟨{ h.toSoundBuilds.same hsame.tracks with engines := ?_, readable := ?_ }, huntouched⟩
  · rw [hengines]
    exact h.engines
  · obtain ⟨registry, hregistry, hpaths⟩ := h.readable
    refine ⟨registry, by rw [registeredEngines_congr hsame.registry, hregistry], ?_⟩
    intro a config ha
    obtain ⟨hvalid, b, hpath, hthere⟩ := hpaths a config ha
    exact ⟨hvalid, b, hpath, there_of_untouched huntouched hvalid hthere⟩

theorem KeepsEngines.within {t'' : FileTree} {nanos : Nat} (h : KeepsEngines handle formats t t')
    (hwithin : Within (handle.staging nanos) t' t'') :
    KeepsEngines handle formats t t'' :=
  h.trans (h.sound.same (hwithin.engines) (samePublic_of_within hwithin))

theorem HoldsBuild.isValid {build : EngineBuild}
    (h : HoldsBuild formats t source build) : Id.isValid build.manifest.trackId = true := by
  obtain ⟨bytes, sub, files, name, -, -, hchecked⟩ := h
  exact EngineManifest.isValid_of_check hchecked.valid

/-- An import publishes the build of its archive, or the registry is the same. -/
theorem ends_importEngine (hsound : SoundEngines handle formats s.files)
    (hroot : s.files.look handle.root = some .dir)
    (hadmitted : AdmittedEngine handle formats s.files source) :
    Ends good
      (fun build s' => HoldsBuild formats s.files source build ∧
        KeepsEngines handle formats s.files s'.files ∧
        PublishedEngine handle formats s.files s'.files build)
      (fun _ s' => Excused good handle formats s.files source ∧
        KeepsEngines handle formats s.files s'.files ∧
        s'.files.look handle.engineRegistry = s.files.look handle.engineRegistry)
      (importEngine handle formats source) s := by
  refine (ends_importEngine_of
    (Q := fun build t => HoldsBuild formats s.files source build ∧
      PublishedEngine handle formats s.files t build)
    (X := fun t => Excused good handle formats s.files source ∧
      KeepsEngines handle formats s.files t ∧
      t.look handle.engineRegistry = s.files.look handle.engineRegistry)
    hsound.engines hroot ?_ ?_ ?_ ?_).mono ?_ fun _ _ h => h
  · rintro t hdisturbed (rfl | ⟨hdir, hsame⟩)
    · exact ⟨.inl hdisturbed, ⟨hsound, fun _ _ _ _ _ => rfl⟩, rfl⟩
    · have hcarried : CarriedEngines handle s.files t :=
        ⟨KeptEngines.of_same hsound.toSoundBuilds hdir hsame.tracks, hsame.registry⟩
      exact ⟨.inl hdisturbed, hcarried.keeps hsound, hcarried.2⟩
  · rintro build t t' nanos ⟨hholds, hpublished⟩ hwithin
    exact ⟨hholds, hpublished.within hholds.isValid hwithin⟩
  · rintro t t' nanos ⟨hexcused, hkeeps, hregistry⟩ hwithin
    exact ⟨hexcused, hkeeps.within hwithin,
      by rw [(samePublic_of_within hwithin).registry, hregistry]⟩
  · intro t nanos hdir hsame hmirror hsource
    apply ends_importStaged (s := s.withFiles t) hsound hdir hsame hmirror hsource
    · rintro e s' (hwhy | hwhy) hcarried
      · exact ⟨.inl hwhy, hcarried.keeps hsound, hcarried.2⟩
      · refine ⟨.inr ?_, hcarried.keeps hsound, hcarried.2⟩
        rintro ⟨build, hholds, -⟩
        exact hwhy build hholds
    · intro s' sub files name build hholds hstaged
      refine (ends_publishEngine hstaged (hadmitted build hholds) ?_).mono ?_ fun _ _ h => h
      · rintro e s'' (hwhy | hwhy) hcarried
        · exact ⟨.inl hwhy, hcarried.keeps hsound, hcarried.2⟩
        · refine ⟨.inr ?_, hcarried.keeps hsound, hcarried.2⟩
          rintro ⟨build', hholds', htrack, hfree⟩
          cases hholds.unique hholds'
          exact hwhy.elim htrack fun h => h hfree
      · rintro _ s'' ⟨rfl, hpublished⟩
        exact ⟨hholds, hpublished⟩
  · rintro build s' ⟨hholds, hpublished⟩
    exact ⟨hholds, hpublished.keeps hsound hholds.isValid, hpublished⟩

/-! ## Imports one after the other -/

/-- Between two imports nothing below the directory of the engines changes. -/
structure OutsideEngines (handle : Handle) (s t : Store) : Prop where
  root : t.files.look handle.root = some .dir
  same : ∀ q, handle.engines <+: q → t.files.look q = s.files.look q

/-- Imports one after the other, as long as each is admitted. -/
inductive EngineImports (handle : Handle) (formats : EngineFormats) : Store → Store → Prop
  | refl (s : Store) : EngineImports handle formats s s
  | step {s s₁ s₂ s₃ : Store} {source : Path} {r : Except Error EngineBuild}
      (himports : EngineImports handle formats s s₁) (houtside : OutsideEngines handle s₁ s₂)
      (hadmitted : AdmittedEngine handle formats s₂.files source)
      (himport : May (fun r' t => r' = r ∧ t = s₃) (importEngine handle formats source) s₂) :
      EngineImports handle formats s s₃

theorem OutsideEngines.below {t : Store} (h : OutsideEngines handle s t) (q : Path) :
    t.files.look (handle.engines ++ q) = s.files.look (handle.engines ++ q) :=
  h.same _ (prefix_append _ _)

theorem OutsideEngines.keeps {t : Store} (h : OutsideEngines handle s t)
    (hsound : SoundEngines handle formats s.files) :
    KeepsEngines handle formats s.files t.files := by
  have hroot := h.below []
  rw [append_nil] at hroot
  exact hsound.same hroot fun a q _ => h.below (a :: q)

/-- A workspace without engines. -/
theorem soundEngines_of_none (h : t.look handle.engines = none) :
    SoundEngines handle formats t := by
  have hnone : ∀ q, t.look (handle.engines ++ q) = none := look_append_of_none h
  refine { tracks := fun a _ _ => .inr (hnone [a]), builds := ?_, engines := .inr h,
           readable := ⟨SortedMap.empty, ?_, ?_⟩ }
  · intro a b _ hthere
    exact absurd (hnone [a, b]) hthere
  · rw [registeredEngines, Handle.engineRegistry, hnone]
  · intro a config ha
    rw [SortedMap.get?_empty] at ha
    cases ha

/-- What one import keeps, every run of imports keeps. -/
theorem EngineImports.keeps {t : Store} (h : EngineImports handle formats s t)
    (hsound : SoundEngines handle formats s.files) :
    KeepsEngines handle formats s.files t.files := by
  induction h with
  | refl => exact ⟨hsound, fun _ _ _ _ _ => rfl⟩
  | step _ houtside hadmitted himport ih =>
    have hkeeps := ih.trans (houtside.keeps ih.sound)
    obtain ⟨r', s', ⟨rfl, rfl⟩, hok, herror⟩ :=
      (ends_importEngine hkeeps.sound houtside.root hadmitted).of_may himport
    cases r' with
    | ok build => exact hkeeps.trans (hok build rfl).2.1
    | error e => exact hkeeps.trans (herror e rfl).2.1

theorem temporaryName_injective : Function.Injective temporaryName := by
  intro m n h
  have hlist := congrArg String.toList h
  simp only [temporaryName, String.toList_append, append_cancel_left_eq] at hlist
  rw [← ofDigitChars_toString m, hlist, ofDigitChars_toString]

/-- A temporary name is left. -/
theorem exists_undisturbed (engines : Path) (s : Store) : ∃ o, Undisturbed engines s o := by
  obtain ⟨name, ⟨nanos, rfl⟩, hname⟩ :=
    (Set.infinite_range_of_injective temporaryName_injective).exists_notMem_finite
      (finite_toSet (s.files.names engines))
  refine ⟨{ nanos := nanos }, rfl, ?_⟩
  by_contra hthere
  exact hname (mem_names.2 hthere)

theorem not_disturbed (engines : Path) : ¬ Disturbed (Undisturbed engines) engines := by
  rintro ⟨s, o, ho, hnot⟩
  exact hnot ho

/-- An archive of a build can be imported. -/
theorem may_importEngine (hsound : SoundEngines handle formats s.files)
    (hroot : s.files.look handle.root = some .dir)
    (hinstallable : InstallableEngine handle formats s.files source) :
    May (fun r _ => r.isOk = true) (importEngine handle formats source) s := by
  have hadmitted : AdmittedEngine handle formats s.files source := by
    obtain ⟨build, hholds, htrack, -⟩ := hinstallable
    intro build' hholds' heq
    cases hholds.unique hholds'
    exact absurd heq htrack
  have hends : Ends (Undisturbed handle.engines) _ _ (importEngine handle formats source) s :=
    ends_importEngine hsound hroot hadmitted
  have hmay := (hends.mono (fun _ _ h => h) fun _ _ h => h.1.elim (not_disturbed _)
    fun hnot => hnot hinstallable).may (exists_undisturbed handle.engines)
  refine hmay.mono ?_
  rintro _ s' ⟨build, rfl, -⟩
  rfl

/-- A failed import leaves the registry as it is, and another archive can be imported. A successful
one enters its build, whose files have their checksums. The directories that the registry names do
not change. This holds as long as no build has the track `registry.json` before the registry is
there. -/
theorem engine_registry (handle : Handle) (formats : EngineFormats) {s₀ s s₁ : Store}
    {source : Path} (hfresh : s₀.files.look handle.engines = none)
    (himports : EngineImports handle formats s₀ s) (houtside : OutsideEngines handle s s₁)
    (hadmitted : AdmittedEngine handle formats s₁.files source) :
    (∃ registry, registeredEngines handle formats s.files = some registry ∧
      Ends (fun _ _ => True)
        (fun build s' =>
          registeredEngines handle formats s'.files =
            some (registry.insert build.manifest.trackId
              (build.config (handle.engineBuild build.manifest.trackId build.identity))) ∧
          IntactBuild (fun q => s'.files.look
            (handle.engineBuild build.manifest.trackId build.identity ++ q)) build.identity)
        (fun _ s' => registeredEngines handle formats s'.files = some registry ∧
          ∀ s₂ later, OutsideEngines handle s' s₂ →
            InstallableEngine handle formats s₂.files later →
            May (fun r _ => r.isOk = true) (importEngine handle formats later) s₂)
        (importEngine handle formats source) s₁) ∧
    ∀ s', EngineImports handle formats s₀ s' → EngineImports handle formats s' s →
      ∀ registry track config, registeredEngines handle formats s'.files = some registry →
        registry.get? track = some config →
        ∀ q, s.files.look (config.path ++ q) = s'.files.look (config.path ++ q) := by
  have hsound₀ : SoundEngines handle formats s₀.files := soundEngines_of_none hfresh
  have hsound := (himports.keeps hsound₀).sound
  have hkeeps := houtside.keeps hsound
  constructor
  · obtain ⟨registry, hregistry, -⟩ := hsound.readable
    have hpublic : SamePublic handle s.files s₁.files := fun a q _ => houtside.below (a :: q)
    have hregistry₁ : registeredEngines handle formats s₁.files = some registry := by
      rw [registeredEngines_congr hpublic.registry, hregistry]
    refine ⟨registry, hregistry, ?_⟩
    refine (ends_importEngine hkeeps.sound houtside.root hadmitted).mono ?_ ?_
    · rintro build s' ⟨hholds, hkeeps', hpublished⟩
      obtain ⟨registry', hregistry', hinserted⟩ := hpublished.registry
      cases hregistry₁.symm.trans hregistry'
      exact ⟨hinserted, hkeeps'.sound.builds _ _ hholds.isValid hpublished.there⟩
    · rintro e s' ⟨-, hkeeps', hsame⟩
      refine ⟨by rw [registeredEngines_congr hsame, hregistry₁], ?_⟩
      intro s₂ later houtside' hinstallable
      exact may_importEngine (houtside'.keeps hkeeps'.sound).sound houtside'.root hinstallable
  · intro s' himports' hlater registry track config hregistry hconfig q
    have hsound' := (himports'.keeps hsound₀).sound
    obtain ⟨registry', hregistry', hpaths⟩ := hsound'.readable
    cases hregistry.symm.trans hregistry'
    obtain ⟨hvalid, b, hpath, hthere⟩ := hpaths track config hconfig
    rw [hpath]
    exact (hlater.keeps hsound').untouched track b hvalid hthere q

theorem reads_engineHash {p : Path} : Reads (engineHash p) :=
  reads_readFile.bind fun _ => reads_ret

theorem reads_compareInstalled (bundle destination : Path) (files : List Path) :
    Reads (compareInstalled bundle destination files) := by
  induction files with
  | nil => exact reads_ret
  | cons f files ih =>
    refine reads_engineHash.bind fun installed => reads_engineHash.bind fun imported => ?_
    split
    · exact reads_throw
    · exact ih

/-- A directory in the place of the registry stays there. -/
theorem ends_installEngine_lost {bundle destination : Path} (files : List Path)
    (hbundle : ¬ bundle <+: handle.engineRegistry)
    (hdestination : ¬ destination <+: handle.engineRegistry) (hne : bundle ≠ destination)
    (hdir : s.files.look handle.engineRegistry = some .dir) :
    Ends good (fun _ s' => s'.files.look handle.engineRegistry = some .dir)
      (fun _ s' => s'.files.look handle.engineRegistry = some .dir)
      (installEngine bundle destination files) s := by
  refine Ends.value ends_exists fun there _ => ?_
  cases there with
  | true =>
    refine (reads_compareInstalled bundle destination files).ends.mono ?_ ?_
    · rintro _ _ rfl
      exact hdir
    · rintro _ _ rfl
      exact hdir
  | false =>
    apply ends_change
    · exact fun _ _ _ _ => hdir
    · exact fun _ _ => hdir
    · intro t ht
      rw [withFiles_files, look_rename ht hne, if_neg hdestination, if_neg hbundle, hdir]

/-- Where no registry is, a build of the track `registry.json` puts a directory in its place. -/
theorem ends_publishEngine_lost {t₀ sub : FileTree} {files : List Path}
    {build : EngineBuild} {nanos : Nat}
    (h : Staged handle formats t₀ s.files sub files name build nanos)
    (htrack : build.manifest.trackId = "registry.json")
    (hnone : t₀.look handle.engineRegistry = none) :
    Ends (Undisturbed handle.engines) (fun _ _ => False)
      (fun _ s' => s'.files.look handle.engineRegistry = some .dir)
      (publishEngine handle formats (handle.staging nanos ++ [name]) files
        build) s := by
  have hplace : handle.engines ++ [build.manifest.trackId] = handle.engineRegistry := by
    rw [htrack]
    rfl
  apply Ends.bind (M := fun _ s' => s'.files.look handle.engineRegistry = some .dir)
  · rw [hplace]
    apply ends_change
    · exact fun o ho hfault => absurd ho.fault hfault
    · intro hrefused
      obtain ⟨t, ht⟩ : ∃ t, s.files.createDirAll handle.engineRegistry = some t := by
        refine createDirAll_of_look fun q hq => ?_
        rcases prefix_concat_iff.1 hq with rfl | hq
        · exact .inr (h.carried.2.trans hnone)
        · by_cases heq : q = handle.engines
          · exact .inl (heq ▸ h.carried.1.dir)
          · exact .inl (look_above hq heq (by simp [h.carried.1.dir]))
      cases hrefused.symm.trans ht
    · intro t ht
      rw [withFiles_files, look_createDirAll ht, if_pos prefix_rfl]
  intro _ s₁ hdir
  have hbelow : ¬ handle.staging nanos ++ [name] <+: handle.engineRegistry := by
    rw [append_assoc]
    exact not_below_temporary handle isPublic_registry nanos [] [name]
  have hdestination :
      ¬ handle.engineBuild build.manifest.trackId build.identity <+: handle.engineRegistry := by
    exact not_prefix_of_length (by simp [Handle.engineBuild, Handle.engineRegistry])
  have hne : handle.staging nanos ++ [name] ≠
      handle.engineBuild build.manifest.trackId build.identity := by
    intro heq
    have happly := not_below_temporary handle (isPublic_of_isValid h.isValid) nanos
      [build.identity] [name]
    rw [← singleton_append, ← append_assoc, heq] at happly
    exact happly prefix_rfl
  apply Ends.bind (ends_installEngine_lost files hbelow hdestination hne hdir)
  intro _ s₂ hdir₂
  apply Ends.bind (M := fun _ _ => False)
  · refine Ends.ask fun o ho => ?_
    rw [ho.fault]
    dsimp only
    rw [ends_act, hdir₂]
    exact hdir₂
  · exact fun _ _ h => h.elim

/-- The registry cannot be read any more after an import of such a build. -/
theorem ends_importEngine_lost {build : EngineBuild}
    (hsound : SoundEngines handle formats s.files)
    (hroot : s.files.look handle.root = some .dir)
    (hholds : HoldsBuild formats s.files source build)
    (htrack : build.manifest.trackId = "registry.json")
    (hnone : s.files.look handle.engineRegistry = none) :
    Ends (Undisturbed handle.engines) (fun _ _ => False)
      (fun _ s' => registeredEngines handle formats s'.files = none)
      (importEngine handle formats source) s := by
  have hcalm := not_disturbed handle.engines
  refine (ends_importEngine_of (Q := fun _ _ => False)
    (X := fun t => t.look handle.engineRegistry = some .dir) hsound.engines hroot
    ?_ ?_ ?_ ?_).mono (fun _ _ h => h) ?_
  · exact fun t hdisturbed => absurd hdisturbed hcalm
  · exact fun _ _ _ _ h => h.elim
  · intro t t' nanos hdir hwithin
    rw [(samePublic_of_within hwithin).registry, hdir]
  · intro t nanos hdir hsame hmirror hsource
    apply ends_importStaged (s := s.withFiles t) hsound hdir hsame hmirror hsource
    · rintro e s' (hwhy | hwhy)
      · exact absurd hwhy hcalm
      · exact absurd hholds (hwhy build)
    · intro s' sub files name build' hholds' hstaged
      cases hholds.unique hholds'
      exact ends_publishEngine_lost hstaged htrack hnone
  · intro e s' hdir
    rw [registeredEngines, hdir]

/-- A bundle that passes the checks in a directory of its own is the build of its archive. -/
theorem holdsBuild_of_ends {bytes : List UInt8} {track : String}
    (hlook : s.files.look source = some (.file bytes))
    (hrun : (Prog.eval (fun _ _ => true) default
      ((extract ["staging"] (formats.archive bytes) [] none).bind fun r =>
        match r.2 with
        | none => .throw (.process "empty engine archive")
        | some name => checkBundle formats ["staging", name] r.1) []
      { s with files := .dir [("staging", .dir [])] }).any
        (fun r => match r.1 with
          | .ok build => decide (build.manifest.trackId = track)
          | .error _ => false) = true) :
    ∃ build, HoldsBuild formats s.files source build ∧ build.manifest.trackId = track := by
  have hmirror : Mirrors ["staging"] (.dir [("staging", .dir [])]) (.dir []) := by
    refine ⟨rfl, fun q => ?_⟩
    rw [singleton_append, look_dir_cons]
    rfl
  have hends : Ends (fun _ _ => True)
      (fun build _ => ∃ sub files name,
        unpack (.dir []) (formats.archive bytes) [] none = some (sub, files, some name) ∧
        Checked formats (fun q => sub.look (name :: q)) files build)
      (fun _ _ => True)
      ((extract ["staging"] (formats.archive bytes) [] none).bind fun r =>
        match r.2 with
        | none => .throw (.process "empty engine archive")
        | some name => checkBundle formats ["staging", name] r.1)
      { s with files := .dir [("staging", .dir [])] } := by
    apply Ends.bind (ends_extract [] (formats.archive bytes) [] none hmirror fun _ _ _ _ => trivial)
    rintro ⟨files, name⟩ s₁ ⟨-, sub, hunpack, hmirror₁⟩
    cases name with
    | none => trivial
    | some name =>
      refine (ends_checkBundle [] formats ["staging", name] files fun _ _ => trivial).mono ?_
        fun _ _ h => h
      rintro build s₂ ⟨rfl, hchecked⟩
      refine ⟨sub, files, name, hunpack, ?_⟩
      have hbundle : (fun q => sub.look (name :: q)) =
          fun q => s₂.files.look (["staging", name] ++ q) :=
        funext fun q => (hmirror₁.look (name :: q)).symm
      rw [hbundle]
      exact hchecked
  obtain ⟨r, s', hcheck, hok, -⟩ := hends.of_eval _ _ _ _ (fun _ _ _ => trivial) hrun
  cases r with
  | error e => cases hcheck
  | ok build =>
    obtain ⟨sub, files, name, hunpack, hchecked⟩ := hok build rfl
    exact ⟨build, ⟨bytes, sub, files, name, hlook, hunpack, hchecked⟩, by simpa using hcheck⟩

end Import

/-! ## An archive -/

/-- A field of a tar header: a text and zeros. -/
def tarField (width : Nat) (text : String) : List UInt8 :=
  textBytes text ++ List.replicate (width - text.length) 0

/-- A number in octal digits. -/
def octal (width n : Nat) : String :=
  let digits := Nat.toDigits 8 n
  String.ofList (List.replicate (width - digits.length) '0' ++ digits)

/-- The header of a file in a tar archive, with its checksum. -/
def tarHeader (name : String) (size : Nat) : List UInt8 :=
  let front := tarField 100 name ++ tarField 8 "0000755" ++ tarField 8 "0000000" ++
    tarField 8 "0000000" ++ tarField 12 (octal 11 size) ++ tarField 12 (octal 11 0)
  let back := tarField 1 "0" ++ tarField 100 "" ++ tarField 6 "ustar" ++ textBytes "00" ++
    tarField 247 ""
  let sum := ((front ++ textBytes "        " ++ back).map UInt8.toNat).sum
  front ++ tarField 7 (octal 6 sum) ++ textBytes " " ++ back

/-- A file in a tar archive. -/
def tarFile (name : String) (bytes : List UInt8) : List UInt8 :=
  tarHeader name bytes.length ++ bytes ++ List.replicate ((512 - bytes.length % 512) % 512) 0

/-- A number in bytes, the lowest first. -/
def littleEndian (width n : Nat) : List UInt8 :=
  (List.range width).map fun i => UInt8.ofNat (n / 256 ^ i)

/-- A gzip file that is not compressed, with the CRC of its data. -/
def gzipStored (crc : Nat) (data : List UInt8) : List UInt8 :=
  [31, 139, 8, 0, 0, 0, 0, 0, 0, 255, 1] ++ littleEndian 2 data.length ++
    littleEndian 2 (65535 - data.length) ++ data ++ littleEndian 4 crc ++
    littleEndian 4 data.length

/-- A track, the digest of its manifest and the CRC of its archive. -/
structure BuildExample where
  track : String
  digest : List String
  crc : Nat

/-- The digest of the executable, which is the letter q. -/
def executableDigest : List String :=
  ["8e35c2cd3bf6641b", "db0e2050b76932cb", "b2e6034a0ddacc1d", "9bea82a6ba57f7cf"]

namespace BuildExample

variable (self : BuildExample)

def manifest : EngineManifest where
  schemaVersion := 1
  trackId := self.track
  buildDigest := String.ofList (List.replicate 64 'a')
  dirtySource := false
  executables := SortedMap.empty.insert "x86_64-softmmu" "bin/qemu-system-x86_64"
  executableSha256 := SortedMap.empty.insert "x86_64-softmmu" (String.join executableDigest)
  qemuVersion := "QEMU emulator version 10.2"

/-- The text of the manifest, in short pieces, which is faster to evaluate. -/
def json : List UInt8 :=
  ["\x7b\"schema_version\":1,", "\"track_id\":\"", self.track, "\",\"build_digest\":\""].flatMap
      textBytes ++
    List.replicate 64 97 ++
    (["\",\"dirty_source\"", ":false,", "\"executables\":\x7b", "\"x86_64-softmmu\":\"",
      "bin/qemu-system", "-x86_64\"\x7d,", "\"executable", "_sha256\":\x7b",
      "\"x86_64-softmmu\":\""] ++ executableDigest ++
      ["\"\x7d,\"qemu_version\":\"", "QEMU emulator", " version 10.2\"\x7d"]).flatMap textBytes

/-- The checksum file. -/
def sums : List UInt8 :=
  (executableDigest ++ ["  bin/qemu-", "system-x86_64\n"] ++ self.digest ++
    ["  engine-", "build.json\n"]).flatMap textBytes

/-- The files of the archive. -/
def files : List (String × List UInt8) :=
  [("engine/bin/qemu-system-x86_64", [113]), ("engine/engine-build.json", self.json),
    ("engine/SHA256SUMS", self.sums)]

def archive : List UInt8 := gzipStored self.crc (self.files.flatMap fun e => tarFile e.1 e.2)

/-- The registry with this build alone. -/
def registry : EngineRegistry :=
  SortedMap.empty.insert self.track
    { path := ["workspace", "engines", self.track, sha256 self.sums]
      version := some "10.2"
      buildDigest := some self.manifest.buildDigest
      target := some "x86_64-softmmu" }

def registryJson : List UInt8 :=
  textBytes ("\x7b\n  \"" ++ self.track ++ "\": \x7b\n    \"path\": \"/workspace/engines/" ++
    self.track ++ "/" ++ sha256 self.sums ++ "\",\n    \"version\": \"10.2\",\n" ++
    "    \"build_digest\": \"" ++ self.manifest.buildDigest ++
    "\",\n    \"target\": \"x86_64-softmmu\"\n  \x7d\n\x7d")

/-- Registries can be told apart by a number. -/
theorem exists_code : ∃ code : EngineRegistry → Nat, Function.Injective code := by
  have hchar : Countable Char := by
    refine Function.Injective.countable (f := Char.toNat) fun c d h => ?_
    rw [← Char.ofNat_toNat c, h, Char.ofNat_toNat]
  have hstring : Countable String :=
    Function.Injective.countable (f := String.toList) fun _ _ => String.toList_injective
  have hconfig : Countable EngineConfig := by
    refine Function.Injective.countable (f := fun c : EngineConfig =>
      (c.path, c.version, c.buildDigest, c.target)) ?_
    rintro ⟨⟩ ⟨⟩ h
    simpa using h
  have hregistry : Countable EngineRegistry :=
    Function.Injective.countable (f := SortedMap.entries) fun _ _ => SortedMap.ext_entries
  exact hregistry.exists_injective_nat'

/-- The readers of this archive. Another registry is written as zeros. -/
noncomputable def formats : EngineFormats where
  archive bytes :=
    if bytes = self.archive then
      self.files.map fun e => .ok { path := e.1, content := .file e.2 }
    else [.error "invalid gzip header"]
  manifest bytes :=
    if bytes = self.json then .ok self.manifest else .error "expected value at line 1 column 1"
  registry registry :=
    if registry = self.registry then self.registryJson
    else List.replicate (self.registryJson.length + 1 + exists_code.choose registry) 0
  readRegistry bytes :=
    if bytes = self.registryJson then .ok self.registry
    else
      match Function.partialInv exists_code.choose
        (bytes.length - (self.registryJson.length + 1)) with
      | some registry => .ok registry
      | none => .error "expected value at line 1 column 1"
  read_registry registry := by
    split
    · next h =>
      rw [if_pos rfl, h]
    · have hne : List.replicate (self.registryJson.length + 1 + exists_code.choose registry) 0 ≠
          self.registryJson := by
        intro heq
        have hlength := congrArg List.length heq
        simp only [length_replicate] at hlength
        omega
      rw [if_neg hne, length_replicate, Nat.add_sub_cancel_left,
        Function.partialInv_left exists_code.choose_spec]

theorem admitted (h : self.track ≠ "registry.json") (handle : Handle) (t : FileTree)
    (source : Path) : AdmittedEngine handle self.formats t source := by
  intro build hholds htrack
  obtain ⟨bytes, sub, files, name, -, -, hchecked⟩ := hholds
  obtain ⟨json, -, hread⟩ := hchecked.manifest
  unfold formats at hread
  dsimp only at hread
  split at hread
  · rw [← Except.ok.inj hread] at htrack
    exact absurd htrack h
  · cases hread

end BuildExample

/-- A build of the track `registry.json`. -/
def lostBuild : BuildExample where
  track := "registry.json"
  digest := ["57c1d57791fa0fa2", "60b2a71fae070e47", "f8a9ec200c350959", "b49dd5869a9b9c84"]
  crc := 2737952156

/-- A build of the track `qemu`. -/
def qemuBuild : BuildExample where
  track := "qemu"
  digest := ["0add18674fb40f7c", "77c784c1c2f02664", "eb24ddaf1b7f8505", "57de6a7789a1ded1"]
  crc := 2277215771

def engineHandle : Handle := { root := ["workspace"], pid := 7 }

/-- An empty workspace, with an archive next to it. -/
def storeWithArchive (archive : List UInt8) : Store where
  tables := default
  files := .dir [("workspace", .dir []), ("engine.tar.gz", .file archive)]

/-- A failed import may leave a registry that cannot be read. -/
theorem engine_registry_lost : ¬ ∀ (handle : Handle) (formats : EngineFormats) (s : Store)
    (source : Path) (registry : EngineRegistry),
    s.files.look handle.engines = none → s.files.look handle.root = some .dir →
    registeredEngines handle formats s.files = some registry →
    Ends (fun _ _ => True) (fun _ _ => True)
      (fun _ s' => registeredEngines handle formats s'.files = some registry)
      (importEngine handle formats source) s := by
  intro hall
  have hfresh : (storeWithArchive lostBuild.archive).files.look engineHandle.engines = none := rfl
  have hroot : (storeWithArchive lostBuild.archive).files.look engineHandle.root = some .dir := rfl
  have hsound : SoundEngines engineHandle lostBuild.formats
      (storeWithArchive lostBuild.archive).files := soundEngines_of_none hfresh
  have hlook : (storeWithArchive lostBuild.archive).files.look ["engine.tar.gz"] =
      some (.file lostBuild.archive) := rfl
  have hholds : ∃ build, HoldsBuild lostBuild.formats (storeWithArchive lostBuild.archive).files
      ["engine.tar.gz"] build ∧ build.manifest.trackId = "registry.json" := by
    have hentries : lostBuild.formats.archive lostBuild.archive =
        lostBuild.files.map fun e => .ok { path := e.1, content := .file e.2 } := if_pos rfl
    apply holdsBuild_of_ends hlook
    rw [hentries]
    decide +kernel
  obtain ⟨build, hholds, htrack⟩ := hholds
  have hlost := ends_importEngine_lost hsound hroot hholds htrack rfl
  have hkept : Ends (Undisturbed engineHandle.engines) (fun _ _ => True)
      (fun _ s' => registeredEngines engineHandle lostBuild.formats s'.files =
        some SortedMap.empty)
      (importEngine engineHandle lostBuild.formats ["engine.tar.gz"])
      (storeWithArchive lostBuild.archive) :=
    (hall _ _ _ _ _ hfresh hroot rfl).fewer fun _ _ _ => trivial
  have hnever : Ends (Undisturbed engineHandle.engines) (fun _ _ => False) (fun _ _ => False)
      (importEngine engineHandle lostBuild.formats ["engine.tar.gz"])
      (storeWithArchive lostBuild.archive) :=
    (hlost.and hkept).mono (fun _ _ h => h.1) fun _ _ h => by cases h.1.symm.trans h.2
  obtain ⟨-, -, hfalse⟩ := hnever.exists (exists_undisturbed engineHandle.engines)
  exact hfalse

/-- The import of the build of the track `qemu` into an empty workspace. -/
theorem engine_registry_of_qemu :
    ∃ registry, registeredEngines engineHandle qemuBuild.formats
        (storeWithArchive qemuBuild.archive).files = some registry ∧
      Ends (fun _ _ => True)
        (fun build s' =>
          registeredEngines engineHandle qemuBuild.formats s'.files =
            some (registry.insert build.manifest.trackId
              (build.config
                (engineHandle.engineBuild build.manifest.trackId build.identity))) ∧
          IntactBuild (fun q => s'.files.look
            (engineHandle.engineBuild build.manifest.trackId build.identity ++ q)) build.identity)
        (fun _ s' => registeredEngines engineHandle qemuBuild.formats s'.files = some registry ∧
          ∀ s₂ later, OutsideEngines engineHandle s' s₂ →
            InstallableEngine engineHandle qemuBuild.formats s₂.files later →
            May (fun r _ => r.isOk = true) (importEngine engineHandle qemuBuild.formats later) s₂)
        (importEngine engineHandle qemuBuild.formats ["engine.tar.gz"])
        (storeWithArchive qemuBuild.archive) := by
  exact (engine_registry engineHandle qemuBuild.formats rfl
    (.refl (storeWithArchive qemuBuild.archive)) ⟨rfl, fun _ _ => rfl⟩
    (qemuBuild.admitted (by decide) _ _ _)).1

end MachineEmu
