import MachineEmu.Safety.ImageImport
import MachineEmu.Safety.SnapshotRoundTrip

/-!
# Bundles

Whether an image that is exported as a bundle and imported into a fresh workspace is the same
image.

* `parts` — the components that a bundle can have, with the digests of the manifest.
* `Intact` — the store has a file for each digest of the manifest, with that digest.
* `normal` — the manifest that the import registers: the digests without their
  prefix, and the components in the layout of a bundle.
* `Reproduced` — what the import leaves in the fresh workspace.
* `exportThenImport_reproduces` — an image with a disk whose files are intact is reproduced.
-/

namespace MachineEmu

open Lib Prog Store ImageImport List FileTree

namespace BundleRoundTrip

/-! ## Statements -/

/-- The components of a bundle: the name, the file and the digest of the manifest. -/
def parts (image : ImageManifest) : List (String × String × Option String) :=
  [("disk", "disk.qcow2", some image.diskSha256), ("firmware", "firmware.fd", image.firmwareSha256),
    ("tpm_state", "tpm-state", image.tpmStateSha256)]

/-- The store has the files whose digests the manifest gives. -/
def Intact (handle : Handle) (image : ImageManifest) (t : FileTree) : Prop :=
  ∀ part ∈ parts image, ∀ digest, part.2.2 = some digest → digest ≠ "" → ∃ bytes,
    t.look (handle.componentPath image.imageId part.2.1) = some (.file bytes) ∧
      stripDigest digest = sha256 bytes

/-- The store has a file for every part with a digest. -/
def Stored (handle : Handle) (image : ImageManifest) (t : FileTree) : Prop :=
  ∀ part ∈ parts image, ∀ digest, part.2.2 = some digest → ∃ bytes,
    t.look (handle.componentPath image.imageId part.2.1) = some (.file bytes) ∧
      stripDigest digest = sha256 bytes

/-- The manifest with its digests and its components as a bundle has them. -/
def normal (image : ImageManifest) : ImageManifest :=
  { image with
    components := componentsOf (some (stripDigest image.diskSha256))
      (image.firmwareSha256.map stripDigest) (image.tpmStateSha256.map stripDigest)
    diskSha256 := stripDigest image.diskSha256
    firmwareSha256 := image.firmwareSha256.map stripDigest
    tpmStateSha256 := image.tpmStateSha256.map stripDigest }

/-- The bundle of an image. -/
def bundleOf (image : ImageManifest) : ImageBundleManifest :=
  { schemaVersion := 1, imageId := image.imageId, engineTrack := image.engineTrack
    supportedEngineTracks := image.supportedEngineTracks, target := image.target
    components := (normal image).components }

/-- A manifest and a bundle are read as they were written. -/
structure ReadsBack (yaml : Yaml) (image : ImageManifest) : Prop where
  manifest : yaml.readManifest (yaml.manifest (normal image)) = .ok (normal image)
  bundle : yaml.readBundle (yaml.bundle (bundleOf image)) = .ok (bundleOf image)

/-- A place for the bundle, and a workspace without the image. -/
structure Ready (handle : Handle) (imageId : Id) (destination : Path) (t : FileTree) : Prop where
  absent : t.look destination = none
  above : ∀ q, q <+: destination → t.look q = some .dir ∨ t.look q = none
  fresh : t.look (handle.imageRoot imageId) = none
  aboveFresh : ∀ q, q <+: handle.imageRoot imageId → t.look q = some .dir ∨ t.look q = none
  outside : ¬ handle.imageRoot imageId <+: destination
  apart : ¬ destination <+: handle.imageRoot imageId

/-- No call fails, and the clock names no file that exists. -/
structure Smooth (handle handle' : Handle) (s : Store) (o : Outcome) : Prop where
  fault : o.fault = none
  fresh : Fresh handle s o
  fresh' : Fresh handle' s o

/-- The fresh workspace has the manifest, and the component files of the other one. -/
structure Reproduced (handle handle' : Handle) (yaml : Yaml) (image result : ImageManifest)
    (t t' : FileTree) : Prop where
  registered : registeredImage handle' yaml t' image.imageId = some result
  files : ∀ part ∈ parts image, part.2.2 ≠ none → ∃ bytes,
    t.look (handle.componentPath image.imageId part.2.1) = some (.file bytes) ∧
      t'.look (handle'.componentPath image.imageId part.2.1) = some (.file bytes)

/-- Export an image from a workspace and import it into another one. -/
def exportThenImport (handle handle' : Handle) (yaml : Yaml) (imageId : Id) (destination : Path) :
    Task (ImageManifest × String) :=
  (exportImageBundle handle yaml imageId destination).bind fun _ =>
    importImageBundle handle' yaml destination

variable {handle handle' : Handle} {yaml : Yaml} {image : ImageManifest} {s : Store}
  {good : Store → Outcome → Prop} {X : Error → Store → Prop}

/-! ## Digests -/

/-- A digest is written with hexadecimal digits. -/
theorem isHexDigit_of_mem {bytes : List UInt8} {c : Char} (h : c ∈ (sha256 bytes).toList) :
    isHexDigit c = true ∧ c ≠ 's' := by
  obtain ⟨n, hn, rfl⟩ := Sha256.mem_hex (fun b hb => Sha256.lt_of_mem_digest hb) h
  clear h
  revert n
  decide

/-- A digest has no prefix. -/
@[simp] theorem stripDigest_digest (bytes : List UInt8) :
    stripDigest (sha256 bytes) = sha256 bytes := by
  unfold stripDigest
  have htag : "sha256:".toList = 's' :: ['h', 'a', '2', '5', '6', ':'] := by decide
  rw [htag]
  cases htext : (sha256 bytes).toList with
  | nil => rfl
  | cons c rest =>
    have hc : 's' ≠ c := by
      have hmem : c ∈ (sha256 bytes).toList := by simp [htext]
      exact Ne.symm (isHexDigit_of_mem hmem).2
    simp [List.isPrefixOf?, hc]

theorem isDigest_digest (bytes : List UInt8) : isDigest (sha256 bytes) = true := by
  unfold isDigest
  rw [stripDigest_digest, Bool.and_eq_true, decide_eq_true_eq, all_eq_true]
  constructor
  · unfold sha256
    rw [Sha256.length_hex, Sha256.length_digest]
  · exact fun c hc => (isHexDigit_of_mem hc).1

/-- A digest with its prefix. -/
theorem isDigest_prefixed (bytes : List UInt8) : isDigest ("sha256:" ++ sha256 bytes) = true := by
  have h := isDigest_digest bytes
  unfold isDigest at h ⊢
  rwa [stripDigest_sha256, ← stripDigest_digest]

/-! ## Calls that succeed -/

/-- No call fails, and the clock names no file that exists. -/
def Quiet (handle : Handle) (good : Store → Outcome → Prop) : Prop :=
  ∀ s o, good s o → o.fault = none ∧ Fresh handle s o

theorem Quiet.elim {P : Prop} (h : Quiet handle good) (o : Outcome) (ho : good s o)
    (hfault : o.fault ≠ none) : P :=
  absurd (h s o ho).1 hfault

theorem Quiet.covers (h : Quiet handle good) : Covers good X :=
  fun _ o ho hfault => h.elim o ho hfault

theorem quiet_left (handle handle' : Handle) : Quiet handle (Smooth handle handle') :=
  fun _ _ ho => ⟨ho.fault, ho.fresh⟩

theorem quiet_right (handle handle' : Handle) : Quiet handle' (Smooth handle handle') :=
  fun _ _ ho => ⟨ho.fault, ho.fresh'⟩

/-- A directory is not in itself. -/
theorem ne_child (directory : Path) (name : String) : directory ≠ directory ++ [name] := by
  intro hsame
  have hlength := congrArg List.length hsame
  simp at hlength

variable {directory : Path} {name : String}

/-- The hash of a file; every file is as before. -/
theorem ends_hashFile_of_file {bytes : List UInt8} (hgood : Quiet handle good)
    (hfile : s.files.look (directory ++ [name]) = some (.file bytes)) :
    Ends good (fun digest s' => digest = sha256 bytes ∧ s'.files.look = s.files.look) X
      (hashFile handle (directory ++ [name])) s := by
  have hdir : s.files.look directory = some .dir := look_parent (a := name) (by simp [hfile])
  apply Ends.bind (M := fun nanos s' => s' = s ∧
    s.files.look (directory ++ [handle.temporary "hash" nanos]) = none)
  · exact ends_clock fun o ho => ⟨rfl, (hgood s o ho).2.look _ _⟩
  rintro nanos s₁ ⟨hs₁, hfresh⟩
  rw [hs₁]
  dsimp only
  rw [dropLast_concat]
  have hne : directory ++ [name] ≠ directory ++ [handle.temporary "hash" nanos] := by
    intro hsame
    rw [hsame, hfresh] at hfile
    cases hfile
  generalize handle.temporary "hash" nanos = temporary at *
  obtain ⟨t₁, ht₁⟩ := write_child (a := temporary) [] hdir (by simp [hfresh])
  refine Ends.seq (ends_change_of_some hgood.elim ht₁ ?_)
  apply Ends.bind (M := fun r s' => r = .ok (sha256 bytes) ∧
    ∃ t₂, t₁.write (directory ++ [temporary]) bytes = some t₂ ∧ s' = s.withFiles t₂)
  · apply Ends.attempt
    apply ends_copyAndHash_of_file hgood.covers
    · rw [withFiles_files, look_write ht₁, if_neg hne, hfile]
    · intro b
      apply write_child
      · rw [withFiles_files, look_write ht₁, if_neg (ne_child _ _), hdir]
      · simp [look_write ht₁]
    · exact fun t₂ ht₂ => ⟨rfl, t₂, ht₂, rfl⟩
  rintro result s₂ ⟨hresult, t₂, ht₂, hs₂⟩
  rw [hresult, hs₂]
  obtain ⟨t₃, ht₃⟩ : ∃ t₃, t₂.removeFile (directory ++ [temporary]) = some t₃ := by
    apply removeFile_of_look
    · simp
    · rw [look_write ht₂, if_pos rfl]
  apply Ends.bind (M := fun _ s' => s' = s.withFiles t₃)
  · apply ends_ignore
    exact ends_change_of_some hgood.elim ht₃ rfl
  rintro _ _ rfl
  refine ⟨rfl, funext fun q => ?_⟩
  rw [withFiles_files, look_removeFile ht₃, look_write_write ht₁ ht₂]
  by_cases hq : q = directory ++ [temporary]
  · rw [if_pos hq, hq, hfresh]
  · rw [if_neg hq, if_neg hq]

variable {digest : String}

/-- A digest that is the expected one. -/
theorem ends_checkDigest_of_eq {expected : Option String}
    (h : ∀ e, expected = some e → digest = e) :
    Ends good (fun _ s' => s' = s) X (checkDigest digest expected) s := by
  unfold checkDigest
  cases expected with
  | none => exact rfl
  | some expected =>
    dsimp only
    rw [if_neg (by simp [h expected rfl])]
    exact rfl

/-- A component that the store has is verified. -/
theorem ends_verifyComponent {bytes : List UInt8} (hgood : Quiet handle good)
    (hfile : s.files.look (directory ++ [name]) = some (.file bytes))
    (hdigest : stripDigest digest = sha256 bytes) :
    Ends good (fun _ s' => s'.files.look = s.files.look) X
      (verifyComponent handle (directory ++ [name]) digest) s := by
  apply Ends.bind (ends_hashFile_of_file hgood hfile)
  rintro actual s₁ ⟨hactual, hsame⟩
  apply (ends_checkDigest_of_eq ?_).mono
  · rintro _ _ rfl
    exact hsame
  · exact fun _ _ h => h
  · intro e he
    rw [Option.some.injEq] at he
    rw [hactual, ← he, hdigest]

/-- A component is put where none is. -/
theorem ends_publishComponent_of_fresh {source : Path}
    {bytes : List UInt8} (hgood : Quiet handle good) (hvisible : ¬ Hidden (directory ++ [name]))
    (hfile : s.files.look source = some (.file bytes)) (hdir : s.files.look directory = some .dir)
    (hnone : s.files.look (directory ++ [name]) = none)
    (hdigest : stripDigest digest = sha256 bytes) :
    Ends good
      (fun actual s' => actual = sha256 bytes ∧ ∀ q, s'.files.look q =
        if q = directory ++ [name] then some (.file bytes) else s.files.look q) X
      (publishComponent handle source (directory ++ [name]) (some digest)) s := by
  apply Ends.bind (M := fun published s' => s' = s ∧ published = false)
  · exact ends_isFile ⟨rfl, by rw [hnone]; rfl⟩
  rintro _ s₀ ⟨hs₀, rfl⟩
  rw [hs₀]
  simp only [Bool.false_eq_true, if_false, dropLast_concat]
  obtain ⟨t₀, ht₀, hsame⟩ := createDirAll_of_dir hdir
  refine Ends.seq (ends_change_of_some hgood.elim ht₀ ?_)
  apply Ends.bind (M := fun nanos s' => s' = s.withFiles t₀ ∧
    t₀.look (directory ++ [handle.temporary "component" nanos]) = none)
  · exact ends_clock fun o ho => ⟨rfl, (hgood _ o ho).2.look _ _⟩
  rintro nanos s₁ ⟨hs₁, hfresh⟩
  rw [hs₁]
  rw [← hsame] at hfile hdir hnone ⊢
  have hother : source ≠ directory ++ [handle.temporary "component" nanos] := by
    rintro rfl
    rw [hfresh] at hfile
    cases hfile
  have hdestination : directory ++ [name] ≠
      directory ++ [handle.temporary "component" nanos] := by
    intro hsame
    rw [hsame] at hvisible
    exact hvisible (hidden_temporary _ _ _ _)
  generalize handle.temporary "component" nanos = temporary at *
  obtain ⟨t₁, ht₁⟩ := write_child (a := temporary) [] hdir (by simp [hfresh])
  apply Ends.bind (M := fun _ s' => s' = s.withFiles t₁)
  · apply ends_change_of_some hgood.elim ?_ rfl
    exact (if_pos hfresh).trans ht₁
  rintro _ _ rfl
  apply ends_onError
  apply Ends.bind (M := fun actual s' => actual = sha256 bytes ∧
    ∃ t₂, t₁.write (directory ++ [temporary]) bytes = some t₂ ∧ s' = s.withFiles t₂)
  · apply ends_copyAndHash_of_file hgood.covers
    · rw [withFiles_files, look_write ht₁, if_neg hother, hfile]
    · intro b
      apply write_child
      · rw [withFiles_files, look_write ht₁, if_neg (ne_child _ _), hdir]
      · simp [look_write ht₁]
    · exact fun t₂ ht₂ => ⟨rfl, t₂, ht₂, rfl⟩
  rintro result s₂ ⟨hresult, t₂, ht₂, hs₂⟩
  rw [hs₂]
  apply Ends.bind (M := fun _ s' => s' = s.withFiles t₂)
  · rw [Option.map_some, hdigest, ← hresult]
    exact ends_checkDigest_of_eq fun _ h => Option.some.inj h
  rintro _ _ rfl
  have hlook₂ := look_write_write ht₁ ht₂
  obtain ⟨t₃, ht₃⟩ : ∃ t₃,
      t₂.rename (directory ++ [temporary]) (directory ++ [name]) = some t₃ := by
    apply rename_of_fresh
    · simp [hlook₂]
    · rw [hlook₂, if_neg hdestination, hnone]
      exact .inr rfl
  refine Ends.seq (ends_change_of_some hgood.elim ht₃ ?_)
  refine ⟨hresult, fun q => ?_⟩
  have hmoved := look_rename_file ht₃ (Ne.symm hdestination) (by rw [hlook₂, if_pos rfl])
  rw [withFiles_files, hmoved.2]
  by_cases hq : q = directory ++ [name]
  · rw [if_pos hq, if_pos hq]
  · rw [if_neg hq, if_neg hq, hlook₂]
    by_cases hqt : q = directory ++ [temporary]
    · rw [if_pos hqt, hqt, hfresh]
    · rw [if_neg hqt, if_neg hqt]

/-- A manifest is put where none is. -/
theorem ends_publishManifest_of_fresh (hgood : Quiet handle good)
    (hdir : s.files.look directory = some .dir)
    (htemporary : s.files.look (directory ++ [".manifest-" ++ toString handle.pid ++ ".tmp"]) = none)
    (hnone : s.files.look (directory ++ ["manifest.yaml"]) = none) :
    Ends good
      (fun _ s' => ∀ q, s'.files.look q = if q = directory ++ ["manifest.yaml"] then
        some (.file (yaml.manifest image)) else s.files.look q) X
      (publishManifest handle yaml (directory ++ ["manifest.yaml"]) image) s := by
  unfold publishManifest
  rw [dropLast_concat]
  have hne : directory ++ ["manifest.yaml"] ≠
      directory ++ [".manifest-" ++ toString handle.pid ++ ".tmp"] := by
    intro hsame
    have hname : "manifest.yaml" = ".manifest-" ++ toString handle.pid ++ ".tmp" := by
      simpa using hsame
    have hhead := congrArg (fun name => name.toList.head?) hname
    simp at hhead
  generalize ".manifest-" ++ toString handle.pid ++ ".tmp" = temporary at *
  obtain ⟨t₀, ht₀, hsame⟩ := createDirAll_of_dir hdir
  rw [← hsame] at hdir htemporary hnone ⊢
  refine Ends.seq (ends_change_of_some hgood.elim ht₀ ?_)
  obtain ⟨t₁, ht₁⟩ := write_child (a := temporary) [] hdir (by simp [htemporary])
  apply Ends.bind (M := fun _ s' => s' = s.withFiles t₁)
  · apply ends_change_of_some hgood.elim ?_ rfl
    exact (if_pos htemporary).trans ht₁
  rintro _ _ rfl
  apply ends_onError
  obtain ⟨t₂, ht₂⟩ : ∃ t₂, t₁.write (directory ++ [temporary]) (yaml.manifest image) = some t₂ := by
    apply write_child
    · rw [look_write ht₁, if_neg (ne_child _ _), hdir]
    · simp [look_write ht₁]
  have hlook₂ := look_write_write ht₁ ht₂
  apply Ends.bind (M := fun _ s' => s' = s.withFiles t₂)
  · apply ends_writeAll
    · exact fun o ho hfault => hgood.elim o ho hfault
    · intro n hnothing
      obtain ⟨t, ht⟩ := write_child (a := temporary) (t := t₁)
        ((yaml.manifest image).take n)
        (by rw [look_write ht₁, if_neg (ne_child _ _), hdir])
        (by simp [look_write ht₁])
      rw [withFiles_files, ht] at hnothing
      cases hnothing
    · intro t ht
      rw [withFiles_files, ht₂] at ht
      rw [← Option.some.inj ht]
      rfl
  rintro _ _ rfl
  refine Ends.seq (ends_change_of_some hgood.elim rfl ?_)
  obtain ⟨t₃, ht₃⟩ : ∃ t₃,
      t₂.link (directory ++ [temporary]) (directory ++ ["manifest.yaml"]) = some t₃ := by
    apply link_of_look
    · rw [hlook₂, if_pos rfl]
    · simp
    · rw [dropLast_concat, hlook₂, if_neg (ne_child _ _), hdir]
    · rw [hlook₂, if_neg hne, hnone]
  have hlook₃ := (look_link ht₃).2
  refine Ends.seq (ends_change_of_some hgood.elim ht₃ ?_)
  obtain ⟨t₄, ht₄⟩ : ∃ t₄, t₃.removeFile (directory ++ [temporary]) = some t₄ := by
    apply removeFile_of_look
    · simp
    · rw [hlook₃, if_neg (Ne.symm hne), hlook₂, if_pos rfl]
  refine Ends.seq (ends_change_of_some hgood.elim ht₄ ?_)
  refine Ends.seq (ends_change_of_some hgood.elim rfl ?_)
  apply ends_change_of_some hgood.elim rfl
  intro q
  simp only [withFiles_files]
  rw [look_removeFile ht₄, hlook₃]
  by_cases hq : q = directory ++ ["manifest.yaml"]
  · rw [if_pos hq, if_pos hq, hq, if_neg hne, hlook₂, if_pos rfl]
  · rw [if_neg hq, if_neg hq, hlook₂]
    by_cases hqt : q = directory ++ [temporary]
    · rw [if_pos hqt, hqt, htemporary]
    · rw [if_neg hqt, if_neg hqt]

/-- A manifest that the store accepts is registered where none is. -/
theorem ends_registerImage_of_fresh (hgood : Quiet handle good)
    (hvalid : image.validate image.imageId.asStr = .ok ())
    (hdir : s.files.look (handle.imageRoot image.imageId) = some .dir)
    (hnew : ∀ name, name ≠ "components" →
      s.files.look (handle.imageRoot image.imageId ++ [name]) = none) :
    Ends good
      (fun _ s' => ∀ q, s'.files.look q = if q = handle.manifestPath image.imageId then
        some (.file (yaml.manifest image)) else s.files.look q) X
      (registerImage handle yaml image) s := by
  unfold registerImage
  rw [hvalid]
  apply Ends.bind (M := fun found s' => s' = s ∧ found = none)
  · exact ends_metadata hgood.elim ⟨rfl, hnew "manifest.yaml" (by decide)⟩
  rintro _ _ ⟨hs, rfl⟩
  rw [hs]
  apply Ends.bind (M := fun _ s' => ∀ q, s'.files.look q =
    if q = handle.manifestPath image.imageId then
      some (.file (yaml.manifest image)) else s.files.look q)
  · apply ends_publishManifest_of_fresh hgood hdir
    · apply hnew
      intro hname
      have hhead := congrArg (fun name => name.toList.head?) hname
      simp at hhead
    · exact hnew "manifest.yaml" (by decide)
  · intro _ s₁ h₁
    apply Ends.bind (M := fun _ s' => s'.files = s₁.files)
    · apply ends_statement hgood.elim
      · rintro _ ⟨⟩
      · exact fun _ _ => rfl
    · intro _ s₂ h₂ q
      rw [h₂, h₁]

/-- A file is written in a directory. -/
theorem ends_writeFile_of_dir {bytes : List UInt8}
    (hgood : Quiet handle good) (hdir : s.files.look directory = some .dir)
    (hplace : s.files.look (directory ++ [name]) ≠ some .dir) :
    Ends good
      (fun _ s' => ∀ q, s'.files.look q =
        if q = directory ++ [name] then some (.file bytes) else s.files.look q) X
      (writeFile (directory ++ [name]) bytes) s := by
  obtain ⟨t₁, ht₁⟩ := write_child (a := name) [] hdir hplace
  have hwrite : ∀ b, ∃ t, t₁.write (directory ++ [name]) b = some t := by
    intro b
    apply write_child
    · rw [look_write ht₁, if_neg (ne_child _ _), hdir]
    · simp [look_write ht₁]
  refine Ends.seq (ends_change_of_some hgood.elim ht₁ ?_)
  apply ends_writeAll
  · exact fun o ho hfault => hgood.elim o ho hfault
  · intro n hnothing
    obtain ⟨t, ht⟩ := hwrite (bytes.take n)
    rw [withFiles_files, ht] at hnothing
    cases hnothing
  · exact fun t ht q => look_write_write ht₁ ht q

/-! ## Components -/

/-- The components of a bundle with one more, if it has a digest. -/
def withPart (components : SortedMap String ImageBundleComponent) (name file : String)
    (digest : Option String) : SortedMap String ImageBundleComponent :=
  match digest with
  | some digest => components.insert name
      { path := "components/" ++ file, sha256 := "sha256:" ++ digest }
  | none => components

theorem componentsOf_eq (disk firmware tpm : Option String) :
    componentsOf disk firmware tpm =
      withPart (withPart (withPart SortedMap.empty "disk" "disk.qcow2" disk)
        "firmware" "firmware.fd" firmware) "tpm_state" "tpm-state" tpm := by
  cases disk <;> cases firmware <;> cases tpm <;> rfl

/-- The files that a bundle of the image has. -/
def names (image : ImageManifest) : List String :=
  (parts image).flatMap fun part => (part.2.2.map fun _ => part.2.1).toList

theorem mem_names_of_mem {part : String × String × Option String} (h : part ∈ parts image)
    (hdigest : part.2.2 ≠ none) : part.2.1 ∈ names image := by
  obtain ⟨digest, hdigest⟩ := Option.ne_none_iff_exists'.1 hdigest
  apply mem_flatMap.2
  exact ⟨part, h, by simp [hdigest]⟩

variable {bytes : String → List UInt8} {t : FileTree} {done : List String}

/-- One more file, or none. -/
theorem placed_snoc {t' t'' : FileTree} (h : Placed directory done bytes t t')
    (hlook : ∀ q, t''.look q =
      if q = directory ++ [name] then some (.file (bytes name)) else t'.look q) :
    Placed directory (done ++ [name]) bytes t t'' := by
  constructor
  · intro other hother
    rw [hlook]
    split
    · next hsame =>
      have hname : other = name := by simpa using hsame
      rw [hname]
    · next hne =>
      apply h.placed
      simp only [mem_append, mem_singleton] at hother
      exact hother.resolve_right fun hname => hne (by rw [hname])
  · intro q hq
    rw [hlook, if_neg (hq name (by simp))]
    exact h.others q fun other hother => hq other (by simp [hother])

/-- What is somewhere else is still there. -/
theorem look_of_placed {p : Path}
    {t' : FileTree} {e : FileTree.Entry} (h : Placed directory done bytes t t')
    (hempty : ∀ name, t.look (directory ++ [name]) = none) (hp : t.look p = some e) :
    t'.look p = some e := by
  rw [h.others p, hp]
  rintro name - rfl
  rw [hempty] at hp
  cases hp

theorem not_dir_of_placed {t' : FileTree} (h : Placed directory done bytes t t')
    (hempty : ∀ name, t.look (directory ++ [name]) = none) (name : String) :
    t'.look (directory ++ [name]) ≠ some .dir := by
  by_cases hname : name ∈ done
  · simp [h.placed name hname]
  · rw [h.others, hempty]
    · simp
    · intro other hother hsame
      have hnames : name = other := by simpa using hsame
      rw [hnames] at hname
      exact hname hother

variable {imageId : Id} {destination : Path} {file : String}

/-- One component is exported. -/
theorem ends_exportComponent
    {digest : Option String} {components : SortedMap String ImageBundleComponent}
    (hgood : Quiet handle good) (hdir : t.look (destination ++ ["components"]) = some .dir)
    (hempty : ∀ name, t.look (destination ++ ["components"] ++ [name]) = none)
    (hfile : ∀ d, digest = some d →
      t.look (handle.componentPath imageId file) = some (.file (bytes file)) ∧
        stripDigest d = sha256 (bytes file))
    (hplaced : Placed (destination ++ ["components"]) done bytes t s.files) :
    Ends good
      (fun components' s' =>
        components' = withPart components name file (digest.map stripDigest) ∧
        Placed (destination ++ ["components"]) (done ++ (digest.map fun _ => file).toList) bytes
          t s'.files) X
      (exportComponent handle imageId destination name file digest components) s := by
  cases digest with
  | none => exact ⟨rfl, by simpa using hplaced⟩
  | some d =>
    obtain ⟨hsource, hdigest⟩ := hfile d rfl
    have hsource' := look_of_placed hplaced hempty hsource
    apply Ends.bind (ends_verifyComponent hgood hsource' ?_)
    · intro _ s₁ hs₁
      rw [← hs₁] at hsource'
      have hplaced₁ : Placed (destination ++ ["components"]) done bytes t s₁.files := by
        refine ⟨?_, ?_⟩
        · rw [hs₁]
          exact hplaced.placed
        · rw [hs₁]
          exact hplaced.others
      have htarget : destination ++ ["components", file] =
          destination ++ ["components"] ++ [file] := by simp
      apply Ends.bind (M := fun _ s' => Placed (destination ++ ["components"]) (done ++ [file])
        bytes t s'.files)
      · rw [htarget]
        apply Ends.ask
        intro o ho
        rw [(hgood _ o ho).1]
        dsimp only
        rw [ends_act]
        simp only [id, hsource']
        apply (ends_writeFile_of_dir hgood ?_ ?_).mono
        · exact fun _ _ h => placed_snoc hplaced₁ h
        · exact fun _ _ h => h
        · exact look_of_placed hplaced₁ hempty hdir
        · exact not_dir_of_placed hplaced₁ hempty file
      · exact fun _ _ h => ⟨rfl, h⟩
    · rw [hdigest, stripDigest_digest]

/-- One component is imported. -/
theorem ends_importComponent_of_fresh {source : Path} {bundle : ImageBundleManifest}
    {digest : Option String} (hgood : Quiet handle good)
    (hcomponent : bundle.components.get? name = digest.map fun d =>
      { path := "components/" ++ file, sha256 := "sha256:" ++ d })
    (hpath : bundlePath ("components/" ++ file) = some ["components", file])
    (hvisible : file.toList.head? ≠ some '.') (hnew : file ∉ done)
    (hdir : t.look (handle.componentsDir bundle.imageId) = some .dir)
    (hempty : ∀ name, t.look (handle.componentsDir bundle.imageId ++ [name]) = none)
    (hfile : ∀ d, digest = some d →
      t.look (source ++ ["components", file]) = some (.file (bytes file)) ∧
        d = sha256 (bytes file))
    (hplaced : Placed (handle.componentsDir bundle.imageId) done bytes t s.files) :
    Ends good
      (fun result s' => result = digest ∧ Placed (handle.componentsDir bundle.imageId)
        (done ++ (digest.map fun _ => file).toList) bytes t s'.files) X
      (importComponent handle source bundle name file) s := by
  unfold importComponent
  rw [hcomponent]
  cases digest with
  | none => exact ⟨rfl, by simpa using hplaced⟩
  | some d =>
    obtain ⟨hsource, hdigest⟩ := hfile d rfl
    have hsource' := look_of_placed hplaced hempty hsource
    dsimp only [Option.map_some]
    rw [hpath]
    apply Ends.bind (M := fun present s' => s' = s ∧ present = true)
    · exact ends_isFile ⟨rfl, by rw [hsource']; rfl⟩
    rintro _ _ ⟨hs, rfl⟩
    rw [hs, if_neg (by decide)]
    apply Ends.bind (ends_publishComponent_of_fresh hgood ?_ hsource' ?_ ?_ ?_)
    · rintro actual s₁ ⟨hactual, hlook⟩
      refine ⟨?_, placed_snoc hplaced hlook⟩
      rw [hactual, hdigest]
    · exact not_hidden_componentPath handle bundle.imageId hvisible
    · exact look_of_placed hplaced hempty hdir
    · rw [hplaced.others, hempty]
      intro other hother hsame
      have hnames : file = other := by simpa using hsame
      rw [hnames] at hnew
      exact hnew hother
    · rw [stripDigest_sha256, hdigest]

/-! ## Manifests -/

variable {expected : String}

/-- The parts of the check of a manifest that do not depend on its digests. -/
theorem validate_of_digests {image' : ImageManifest}
    (h : image.validate expected = .ok ()) (himage : image'.imageId = image.imageId)
    (htrack : image'.engineTrack = image.engineTrack)
    (htracks : image'.supportedEngineTracks = image.supportedEngineTracks)
    (hdigests : image'.digests.all isDigest = true) : image'.validate expected = .ok () := by
  unfold ImageManifest.validate at h ⊢
  rw [himage, htrack, htracks, hdigests]
  split at h
  · cases h
  · next hid =>
    split at h
    · cases h
    · next hnone =>
      split at h
      · cases h
      · next hname =>
        simp [hname]

theorem new_of_validate (h : image.validate expected = .ok ()) :
    (∃ i, Id.new "image" image.imageId.asStr = .ok i) ∧ image.imageId.asStr = expected := by
  unfold ImageManifest.validate at h
  split at h
  · cases h
  · next i hid =>
    refine ⟨⟨i, hid⟩, ?_⟩
    split at h
    · cases h
    · split at h
      · cases h
      · next hname => exact not_not.1 hname

theorem digests_of_validate (h : image.validate expected = .ok ()) :
    image.digests.all isDigest = true := by
  unfold ImageManifest.validate at h
  split at h
  · cases h
  · split at h
    · cases h
    · split at h
      · cases h
      · split at h
        · assumption
        · cases h

/-- An image with a disk has a digest for every part. -/
theorem Intact.stored (h : Intact handle image t)
    (hvalid : image.validate expected = .ok ()) (hdisk : image.diskSha256 ≠ "") :
    Stored handle image t := by
  have hdigests := digests_of_validate hvalid
  rw [all_eq_true] at hdigests
  intro part hpart digest hdigest
  apply h part hpart digest hdigest
  rintro rfl
  have hempty : isDigest "" = false := by decide
  unfold parts at hpart
  simp only [mem_cons, not_mem_nil, or_false] at hpart
  rcases hpart with rfl | rfl | rfl
  · exact hdisk (Option.some.inj hdigest)
  · dsimp only at hdigest
    have hbad := hdigests "" (by simp [ImageManifest.digests, hdigest])
    rw [hempty] at hbad
    cases hbad
  · dsimp only at hdigest
    have hbad := hdigests "" (by simp [ImageManifest.digests, hdigest])
    rw [hempty] at hbad
    cases hbad

theorem registeredImage_eq_some (h : registeredImage handle yaml t imageId = some image) :
    image.imageId = imageId ∧ image.validate imageId.asStr = .ok () ∧
      ∃ bytes manifest, t.look (handle.manifestPath imageId) = some (.file bytes) ∧
        yaml.readManifest bytes = .ok manifest ∧ manifest.completed = image := by
  unfold registeredImage at h
  split at h
  · next bytes hbytes =>
    split at h
    · next manifest hread =>
      split at h
      · next hvalid =>
        rw [Option.some.injEq] at h
        rw [h] at hvalid
        refine ⟨?_, hvalid, bytes, manifest, hbytes, hread, h⟩
        exact congrArg MachineEmu.Id.mk (new_of_validate hvalid).2
      · cases h
    · cases h
  · cases h

/-- A registered image is read. -/
theorem ends_image_of_registered (hgood : ∀ s o, good s o → o.fault = none)
    (h : registeredImage handle yaml s.files imageId = some image) :
    Ends good (fun found s' => s' = s ∧ found = image) X (MachineEmu.image handle yaml imageId)
      s := by
  obtain ⟨himage, hvalid, bytes, manifest, hbytes, hread, hcompleted⟩ := registeredImage_eq_some h
  obtain ⟨⟨i, hid⟩, hname⟩ := new_of_validate hvalid
  unfold MachineEmu.image
  rw [← hname, hid]
  apply Ends.bind (M := fun read s' => s' = s ∧ read = bytes)
  · apply ends_readFile
    · exact fun o ho hfault => absurd (hgood s o ho) hfault
    · exact fun hnone => absurd hbytes (hnone bytes)
    · intro read hfound
      rw [hbytes] at hfound
      cases hfound
      exact ⟨rfl, rfl⟩
  rintro _ _ ⟨hs, rfl⟩
  rw [hs, hread]
  dsimp only
  rw [hcompleted, hname, hvalid]
  exact ⟨rfl, rfl⟩

theorem sha256_of_mem_withPart {components : SortedMap String ImageBundleComponent}
    {digest : Option String} {e : String × ImageBundleComponent}
    (h : e ∈ (withPart components name file digest).entries) :
    e ∈ components.entries ∨ ∃ d, digest = some d ∧ e.2.sha256 = "sha256:" ++ d := by
  cases digest with
  | none => exact .inl h
  | some d =>
    rcases SortedMap.mem_insertInto h with rfl | h
    · exact .inr ⟨d, rfl, rfl⟩
    · exact .inl h

/-- The digests of a bundle are those of its parts. -/
theorem digests_normal (h : ∀ part ∈ parts image, ∀ digest, part.2.2 = some digest →
    isDigest (stripDigest digest) = true ∧ isDigest ("sha256:" ++ stripDigest digest) = true) :
    (normal image).digests.all isDigest = true := by
  have hdisk := h ("disk", "disk.qcow2", some image.diskSha256) (by simp [parts]) _ rfl
  have hfirmware := h ("firmware", "firmware.fd", image.firmwareSha256) (by simp [parts])
  have htpm := h ("tpm_state", "tpm-state", image.tpmStateSha256) (by simp [parts])
  rw [all_eq_true]
  intro digest hdigest
  unfold ImageManifest.digests normal at hdigest
  simp only [mem_append, mem_map, Option.mem_toList, Option.map_eq_some_iff] at hdigest
  rcases hdigest with ((⟨e, he, rfl⟩ | hempty) | ⟨d, hd, rfl⟩) | ⟨d, hd, rfl⟩
  · rw [componentsOf_eq] at he
    rcases sha256_of_mem_withPart he with he | ⟨d, hd, hsha⟩
    · rcases sha256_of_mem_withPart he with he | ⟨d, hd, hsha⟩
      · rcases sha256_of_mem_withPart he with he | ⟨d, hd, hsha⟩
        · cases he
        · cases hd
          rw [hsha]
          exact hdisk.2
      · obtain ⟨d', hd', rfl⟩ := Option.map_eq_some_iff.1 hd
        rw [hsha]
        exact (hfirmware d' hd').2
    · obtain ⟨d', hd', rfl⟩ := Option.map_eq_some_iff.1 hd
      rw [hsha]
      exact (htpm d' hd').2
  · split at hempty
    · cases hempty
    · rw [mem_singleton.1 hempty]
      exact hdisk.1
  · exact (hfirmware d hd).1
  · exact (htpm d hd).1

/-! ## The round trip -/

/-- What an export leaves at the destination. -/
structure Exported (handle : Handle) (yaml : Yaml) (image : ImageManifest) (destination : Path)
    (t t' : FileTree) : Prop where
  bundle : t'.look (destination ++ ["manifest.yaml"]) = some (.file (yaml.bundle (bundleOf image)))
  files : ∀ part ∈ parts image, part.2.2 ≠ none →
    t'.look (destination ++ ["components", part.2.1]) =
      some (.file (contents t (handle.componentsDir image.imageId) part.2.1))
  above : ∀ q, q <+: destination → t'.look q = some .dir
  others : ∀ q, ¬ q <+: destination → ¬ destination <+: q → t'.look q = t.look q

theorem Stored.look (h : Stored handle image t)
    {part : String × String × Option String} (hpart : part ∈ parts image)
    (hdigest : part.2.2 = some digest) :
    t.look (handle.componentPath image.imageId part.2.1) =
        some (.file (contents t (handle.componentsDir image.imageId) part.2.1)) ∧
      stripDigest digest = sha256 (contents t (handle.componentsDir image.imageId) part.2.1) := by
  obtain ⟨bytes, hbytes, hsha⟩ := h part hpart digest hdigest
  have hcontents : contents t (handle.componentsDir image.imageId) part.2.1 = bytes :=
    contents_of_look hbytes
  rw [hcontents]
  exact ⟨hbytes, hsha⟩

/-- An image that is stored is exported. -/
theorem ends_exportImageBundle (hgood : Quiet handle good)
    (himage : registeredImage handle yaml s.files imageId = some image)
    (hstored : Stored handle image s.files) (habsent : s.files.look destination = none)
    (habove : ∀ q, q <+: destination → s.files.look q = some .dir ∨ s.files.look q = none) :
    Ends good (fun _ s' => Exported handle yaml image destination s.files s'.files) X
      (exportImageBundle handle yaml imageId destination) s := by
  obtain ⟨hid, -, -⟩ := registeredImage_eq_some himage
  apply Ends.bind (M := fun present s' => s' = s ∧ present = false)
  · exact ends_exists ⟨rfl, by simp [habsent]⟩
  rintro _ _ ⟨hs, rfl⟩
  rw [hs, if_neg (by decide)]
  apply Ends.bind (ends_image_of_registered (fun s o ho => (hgood s o ho).1) himage)
  rintro found s₁ ⟨hs₁, hfound⟩
  rw [hs₁, hfound]
  obtain ⟨t₁, ht₁⟩ : ∃ t₁, s.files.createDirAll (destination ++ ["components"]) = some t₁ := by
    apply createDirAll_of_look
    intro q hq
    rw [prefix_concat_iff] at hq
    rcases hq with rfl | hq
    · exact .inr (look_append_of_none habsent _)
    · exact habove q hq
  have hlook₁ := look_createDirAll ht₁
  have hbelow : ∀ name, t₁.look (destination ++ ["components"] ++ [name]) = none := by
    intro name
    rw [hlook₁, if_neg, append_assoc, look_append_of_none habsent]
    exact not_prefix_of_length (by simp)
  have hfiles : ∀ part ∈ parts image, ∀ d, part.2.2 = some d →
      t₁.look (handle.componentPath image.imageId part.2.1) =
          some (.file (contents s.files (handle.componentsDir image.imageId) part.2.1)) ∧
        stripDigest d =
          sha256 (contents s.files (handle.componentsDir image.imageId) part.2.1) := by
    intro part hpart d hd
    obtain ⟨hlook, hsha⟩ := hstored.look hpart hd
    refine ⟨?_, hsha⟩
    rw [hlook₁, if_neg, hlook]
    -- a file is not above a directory that was created
    intro hprefix
    rcases look_of_createDirAll ht₁ hprefix with hdir | hnone
    · rw [hlook] at hdir
      cases hdir
    · rw [hlook] at hnone
      cases hnone
  refine Ends.seq (ends_change_of_some hgood.elim ht₁ ?_)
  have hdir : t₁.look (destination ++ ["components"]) = some .dir := by
    rw [hlook₁, if_pos prefix_rfl]
  apply Ends.bind (ends_exportComponent hgood hdir hbelow
    (hfiles ("disk", "disk.qcow2", some image.diskSha256) (by simp [parts]))
    (Placed.nil _ _ _))
  rintro _ s₂ ⟨rfl, hplaced₂⟩
  apply Ends.bind (ends_exportComponent hgood hdir hbelow
    (hfiles ("firmware", "firmware.fd", image.firmwareSha256) (by simp [parts])) hplaced₂)
  rintro _ s₃ ⟨rfl, hplaced₃⟩
  apply Ends.bind (ends_exportComponent hgood hdir hbelow
    (hfiles ("tpm_state", "tpm-state", image.tpmStateSha256) (by simp [parts])) hplaced₃)
  rintro _ s₄ ⟨rfl, hplaced₄⟩
  rw [Option.map_some, ← componentsOf_eq]
  have hnames : [] ++ ((some image.diskSha256).map fun _ => "disk.qcow2").toList ++
      (image.firmwareSha256.map fun _ => "firmware.fd").toList ++
      (image.tpmStateSha256.map fun _ => "tpm-state").toList = names image := by
    simp [names, parts]
  rw [hnames] at hplaced₄
  have habove₄ : ∀ q, q <+: destination → s₄.files.look q = some .dir := by
    intro q hq
    apply look_of_placed hplaced₄ hbelow
    rw [hlook₁, if_pos (hq.trans (prefix_append _ _))]
  apply Ends.bind (ends_writeFile_of_dir hgood (habove₄ _ prefix_rfl) ?_)
  · intro _ s₅ hlook₅
    constructor
    · rw [hlook₅, if_pos rfl]
      rfl
    · intro part hpart hdigest
      rw [hlook₅, if_neg]
      · have hfile := hplaced₄.placed _ (mem_names_of_mem hpart hdigest)
        rwa [append_assoc] at hfile
      · intro hsame
        have hlength := congrArg List.length hsame
        simp at hlength
    · intro q hq
      rw [hlook₅, if_neg, habove₄ q hq]
      rintro rfl
      have hlength := hq.length_le
      simp at hlength
    · intro q hq hqd
      rw [hlook₅, if_neg, hplaced₄.others, hlook₁, if_neg]
      · intro hprefix
        rw [prefix_concat_iff] at hprefix
        rcases hprefix with rfl | hprefix
        · exact hqd (prefix_append _ _)
        · exact hq hprefix
      · rintro name - rfl
        apply hqd
        rw [append_assoc]
        exact prefix_append _ _
      · rintro rfl
        exact hqd (prefix_append _ _)
  · rw [hplaced₄.others, hlook₁, if_neg, look_append_of_none habsent]
    · simp
    · intro hprefix
      have hname := hprefix.eq_of_length_le (by simp)
      simp at hname
    · intro name _ hsame
      have hlength := congrArg List.length hsame
      simp at hlength

/-- The bundle of an image has its parts. -/
theorem get?_components_normal {part : String × String × Option String} (h : part ∈ parts image) :
    (normal image).components.get? part.1 = (part.2.2.map stripDigest).map fun d =>
      { path := "components/" ++ part.2.1, sha256 := "sha256:" ++ d } := by
  have hget : ∀ (components : SortedMap String ImageBundleComponent) (name file key : String)
      (digest : Option String), (withPart components name file digest).get? key =
        if key = name ∧ digest ≠ none then digest.map fun d =>
          { path := "components/" ++ file, sha256 := "sha256:" ++ d }
        else components.get? key := by
    intro components name file key digest
    cases digest with
    | none => simp [withPart]
    | some d => simp [withPart, SortedMap.get?_insert]
  unfold normal
  rw [componentsOf_eq, hget, hget, hget]
  unfold parts at h
  simp only [mem_cons, not_mem_nil, or_false] at h
  rcases h with rfl | rfl | rfl
  · simp
  · cases image.firmwareSha256 <;> simp
  · cases image.tpmStateSha256 <;> simp

theorem completed_normal (image : ImageManifest) : (normal image).completed = normal image := by
  have hcomponents : (normal image).components = componentsOf
      (some (stripDigest image.diskSha256)) (image.firmwareSha256.map stripDigest)
      (image.tpmStateSha256.map stripDigest) := rfl
  obtain ⟨hdisk, hfirmware, htpm⟩ := componentDigest_componentsOf _ _ _ _ hcomponents
  unfold ImageManifest.completed
  rw [hdisk, hfirmware, htpm]
  have hor : ∀ digest : Option String, digest.or digest = digest := by
    intro digest
    cases digest <;> rfl
  unfold normal
  simp only [Option.getD_some, ite_self, hor]

theorem registeredImage_of_look {bytes : List UInt8}
    (hlook : t.look (handle.manifestPath imageId) = some (.file bytes))
    (hread : yaml.readManifest bytes = .ok image) (hcompleted : image.completed = image)
    (hvalid : image.validate imageId.asStr = .ok ()) :
    registeredImage handle yaml t imageId = some image := by
  unfold registeredImage
  rw [hlook]
  dsimp only
  rw [hread]
  dsimp only
  rw [hcompleted, hvalid]

/-- A bundle that has been exported is imported. -/
theorem ends_importImageBundle_of_exported
    (hgood : Quiet handle' good) (hvalid : image.validate imageId.asStr = .ok ())
    (hyaml : ReadsBack yaml image) (hstored : Stored handle image t)
    (hexported : Exported handle yaml image destination t s.files)
    (hfresh : s.files.look (handle'.imageRoot imageId) = none)
    (habove : ∀ q, q <+: handle'.imageRoot imageId →
      s.files.look q = some .dir ∨ s.files.look q = none) :
    Ends good
      (fun result s' => result.1 = normal image ∧
        Reproduced handle handle' yaml image (normal image) t s'.files) X
      (importImageBundle handle' yaml destination) s := by
  obtain ⟨⟨i, hid⟩, hname⟩ := new_of_validate hvalid
  obtain rfl : image.imageId = imageId := congrArg MachineEmu.Id.mk hname
  apply Ends.bind (M := fun read s' => s' = s ∧ read = yaml.bundle (bundleOf image))
  · apply ends_readFile
    · exact fun o ho hfault => hgood.elim o ho hfault
    · exact fun hnone => absurd hexported.bundle (hnone _)
    · intro read hfound
      rw [hexported.bundle] at hfound
      cases hfound
      exact ⟨rfl, rfl⟩
  rintro read s₀ ⟨hs₀, hread⟩
  rw [hs₀, hread, hyaml.bundle]
  dsimp only
  rw [if_neg (by simp [bundleOf]), show (bundleOf image).imageId = image.imageId from rfl, hid]
  obtain ⟨t₁, ht₁⟩ : ∃ t₁, s.files.createDirAll (handle'.componentsDir image.imageId) = some t₁ := by
    apply createDirAll_of_look
    intro q hq
    unfold Handle.componentsDir at hq
    rw [prefix_concat_iff] at hq
    rcases hq with rfl | hq
    · exact .inr (look_append_of_none hfresh _)
    · exact habove q hq
  have hlook₁ := look_createDirAll ht₁
  have hbelow : ∀ name, t₁.look (handle'.componentsDir image.imageId ++ [name]) = none := by
    intro name
    rw [hlook₁, if_neg]
    · unfold Handle.componentsDir
      rw [append_assoc, look_append_of_none hfresh]
    · exact not_prefix_of_length (by simp)
  have hfiles : ∀ part ∈ parts image, ∀ d, part.2.2.map stripDigest = some d →
      t₁.look (destination ++ ["components", part.2.1]) =
          some (.file (contents t (handle.componentsDir image.imageId) part.2.1)) ∧
        d = sha256 (contents t (handle.componentsDir image.imageId) part.2.1) := by
    intro part hpart d hd
    obtain ⟨digest, hdigest, rfl⟩ := Option.map_eq_some_iff.1 hd
    have hlook := hexported.files part hpart (by simp [hdigest])
    refine ⟨?_, (hstored.look hpart hdigest).2⟩
    rw [hlook₁, if_neg, hlook]
    intro hprefix
    rcases look_of_createDirAll ht₁ hprefix with hdir | hnone
    · rw [hlook] at hdir
      cases hdir
    · rw [hlook] at hnone
      cases hnone
  apply Ends.bind (M := fun _ s' => s' = s)
  · exact rfl
  rintro _ s₁ hs₁
  rw [hs₁]
  refine Ends.seq (ends_change_of_some hgood.elim ht₁ ?_)
  have hdir : t₁.look (handle'.componentsDir image.imageId) = some .dir := by
    rw [hlook₁, if_pos prefix_rfl]
  have hdisk : ("disk", "disk.qcow2", some image.diskSha256) ∈ parts image := by simp [parts]
  have hfirmware : ("firmware", "firmware.fd", image.firmwareSha256) ∈ parts image := by
    simp [parts]
  have htpm : ("tpm_state", "tpm-state", image.tpmStateSha256) ∈ parts image := by simp [parts]
  have hgetDisk := get?_components_normal hdisk
  have hgetFirmware := get?_components_normal hfirmware
  have hgetTpm := get?_components_normal htpm
  have hfilesDisk := hfiles _ hdisk
  have hfilesFirmware := hfiles _ hfirmware
  have hfilesTpm := hfiles _ htpm
  dsimp only at hgetDisk hgetFirmware hgetTpm hfilesDisk hfilesFirmware hfilesTpm
  apply Ends.bind (ends_importComponent_of_fresh hgood hgetDisk (by decide) (by decide)
    not_mem_nil hdir hbelow hfilesDisk (Placed.nil _ _ _))
  rintro _ s₂ ⟨rfl, hplaced₂⟩
  dsimp only [Option.map_some]
  apply Ends.bind (ends_importComponent_of_fresh hgood hgetFirmware (by decide) (by decide)
    (by simp) hdir hbelow hfilesFirmware hplaced₂)
  rintro _ s₃ ⟨rfl, hplaced₃⟩
  apply Ends.bind (ends_importComponent_of_fresh hgood hgetTpm (by decide) (by decide)
    ?_ hdir hbelow hfilesTpm hplaced₃)
  · rintro _ s₄ ⟨rfl, hplaced₄⟩
    have hnames : [] ++
        (((some image.diskSha256).map stripDigest).map fun _ => "disk.qcow2").toList ++
        ((image.firmwareSha256.map stripDigest).map fun _ => "firmware.fd").toList ++
        ((image.tpmStateSha256.map stripDigest).map fun _ => "tpm-state").toList = names image := by
      simp [names, parts, Function.comp_def]
    rw [hnames] at hplaced₄
    have hvalid' : (normal image).validate image.imageId.asStr = .ok () := by
      have himage : (normal image).imageId = image.imageId := rfl
      apply validate_of_digests hvalid himage rfl rfl
      apply digests_normal
      intro part hpart digest hdigest
      rw [(hstored.look hpart hdigest).2]
      exact ⟨isDigest_digest _, isDigest_prefixed _⟩
    have hroot : t₁.look (handle'.imageRoot image.imageId) = some .dir := by
      have hprefix : handle'.imageRoot image.imageId <+: handle'.componentsDir image.imageId :=
        prefix_append _ _
      rw [hlook₁, if_pos hprefix]
    have hother : ∀ name, name ≠ "components" →
        t₁.look (handle'.imageRoot image.imageId ++ [name]) = none := by
      intro name hname
      rw [hlook₁, if_neg, look_append_of_none hfresh]
      intro hprefix
      have hsame := hprefix.eq_of_length_le (by simp [Handle.componentsDir])
      exact hname (by simpa [Handle.componentsDir] using hsame)
    have hnew : ∀ name, name ≠ "components" →
        s₄.files.look (handle'.imageRoot image.imageId ++ [name]) = none := by
      intro name hname
      rw [hplaced₄.others, hother name hname]
      intro file _ hsame
      have hlength := congrArg List.length hsame
      simp [Handle.componentsDir, bundleOf] at hlength
    change Ends good _ X ((registerImage handle' yaml (normal image)).bind fun digest =>
      .ret (normal image, digest)) s₄
    apply Ends.bind (ends_registerImage_of_fresh hgood hvalid'
      (look_of_placed hplaced₄ hbelow hroot) hnew)
    intro digest s₅ hlook₅
    refine ⟨rfl, ?_, ?_⟩
    · apply registeredImage_of_look _ hyaml.manifest (completed_normal image) hvalid'
      rw [hlook₅]
      exact if_pos rfl
    · intro part hpart hdigest
      obtain ⟨d, hd⟩ := Option.ne_none_iff_exists'.1 hdigest
      refine ⟨_, (hstored.look hpart hd).1, ?_⟩
      rw [hlook₅, if_neg]
      · exact hplaced₄.placed _ (mem_names_of_mem hpart hdigest)
      · intro hsame
        have hlength := congrArg List.length hsame
        simp [Handle.componentPath, Handle.componentsDir, Handle.manifestPath, normal] at hlength
  · cases image.firmwareSha256 <;> simp

/-- An image with a disk whose files have the digests of its manifest is exported and imported: the
fresh workspace has its files, and its manifest in the form of a bundle. -/
theorem exportThenImport_reproduces (handle handle' : Handle) (yaml : Yaml) (imageId : Id)
    (destination : Path) (image : ImageManifest) (s : Store)
    (himage : registeredImage handle yaml s.files imageId = some image)
    (hdisk : image.diskSha256 ≠ "") (hintact : Intact handle image s.files)
    (hready : Ready handle' imageId destination s.files) (hyaml : ReadsBack yaml image) :
    Ends (Smooth handle handle')
      (fun result s' => result.1 = normal image ∧
        Reproduced handle handle' yaml image (normal image) s.files s'.files)
      (fun _ _ => False) (exportThenImport handle handle' yaml imageId destination) s := by
  obtain ⟨-, hvalid, -⟩ := registeredImage_eq_some himage
  have hstored := hintact.stored hvalid hdisk
  apply Ends.bind (ends_exportImageBundle (quiet_left handle handle') himage hstored
    hready.absent hready.above)
  intro _ s₁ hexported
  have hroot : ∀ q, q <+: handle'.imageRoot imageId → ¬ destination <+: q := by
    intro q hq hdestination
    exact hready.apart (hdestination.trans hq)
  apply ends_importImageBundle_of_exported (quiet_right handle handle') hvalid hyaml hstored
    hexported
  · rw [hexported.others _ hready.outside hready.apart]
    exact hready.fresh
  · intro q hq
    by_cases hqd : q <+: destination
    · exact .inl (hexported.above q hqd)
    · rw [hexported.others q hqd (hroot q hq)]
      exact hready.aboveFresh q hq

/-! ## Two images -/

/-- The text of the components of a manifest. -/
def componentsText (components : SortedMap String ImageBundleComponent) : String :=
  if components.entries = [] then ""
  else "components:\n" ++ String.join (components.entries.map fun e =>
    "  " ++ e.1 ++ ":\n    path: " ++ e.2.path ++ "\n    sha256: " ++ e.2.sha256 ++ "\n")

/-- The text of a digest that may be missing. -/
def digestText (field : String) (digest : Option String) : String :=
  match digest with
  | some digest => field ++ ": " ++ digest ++ "\n"
  | none => ""

/-- The text of an image manifest with plain scalars. -/
def imageText (image : ImageManifest) : String :=
  "image_id: " ++ image.imageId.asStr ++ "\nengine_track: " ++ image.engineTrack.asStr ++
    "\ntarget: " ++ image.target ++ "\n" ++ componentsText image.components ++
    digestText "disk_sha256" (if image.diskSha256 = "" then none else some image.diskSha256) ++
    digestText "firmware_sha256" image.firmwareSha256 ++
    digestText "tpm_state_sha256" image.tpmStateSha256

/-- The text of a bundle manifest with plain scalars. -/
def bundleText (bundle : ImageBundleManifest) : String :=
  "schema_version: 1\nimage_id: " ++ bundle.imageId.asStr ++ "\nengine_track: " ++
    bundle.engineTrack.asStr ++ "\ntarget: " ++ bundle.target ++ "\n" ++
    componentsText bundle.components

/-- A serialiser that reads the manifest and the bundle of one image. -/
def yamlOf (image : ImageManifest) : Yaml where
  manifest manifest := textBytes (imageText manifest)
  readManifest bytes :=
    if bytes = textBytes (imageText image) then .ok image
    else if bytes = textBytes (imageText (normal image)) then .ok (normal image)
    else .error "not read"
  bundle bundle := textBytes (bundleText bundle)
  readBundle bytes :=
    if bytes = textBytes (bundleText (bundleOf image)) then .ok (bundleOf image)
    else .error "not read"

theorem readsBack_yamlOf {image : ImageManifest}
    (h : textBytes (imageText (normal image)) ≠ textBytes (imageText image)) :
    ReadsBack (yamlOf image) image where
  manifest := by
    unfold yamlOf
    dsimp only
    rw [if_neg h, if_pos rfl]
  bundle := by
    unfold yamlOf
    dsimp only
    rw [if_pos rfl]

/-- An image with a disk, whose digest has its prefix. -/
def win11 : ImageManifest where
  imageId := ⟨"win11"⟩
  engineTrack := ⟨"qemu"⟩
  supportedEngineTracks := []
  target := "x86_64-softmmu"
  components := SortedMap.empty
  diskSha256 := "sha256:" ++ sha256 [1]
  firmwareSha256 := none
  tpmStateSha256 := none

/-- An image without a disk. -/
def appliance : ImageManifest where
  imageId := ⟨"appliance"⟩
  engineTrack := ⟨"qemu"⟩
  supportedEngineTracks := []
  target := "aarch64-softmmu"
  components := SortedMap.empty
  diskSha256 := ""
  firmwareSha256 := some (sha256 [1])
  tpmStateSha256 := none

/-- A workspace with one image of one file, and an empty one. -/
def storeOf (image : ImageManifest) (file : String) : Store where
  tables := {}
  files := .dir [
    ("full", .dir [("images", .dir [(image.imageId.asStr, .dir [
      ("manifest.yaml", .file (textBytes (imageText image))),
      ("components", .dir [(file, .file [1])])])])]),
    ("empty", .dir [("images", .dir [])])]

theorem registered_storeOf {image : ImageManifest} (hcompleted : image.completed = image)
    (hvalid : image.validate image.imageId.asStr = .ok ()) :
    registeredImage { root := ["full"], pid := 7 } (yamlOf image) (storeOf image file).files
      image.imageId = some image := by
  apply registeredImage_of_look _ _ hcompleted hvalid
  · exact textBytes (imageText image)
  · simp [storeOf, Handle.manifestPath, Handle.imageRoot, FileTree.look, FileTree.get,
      FileTree.entry, FileTree.head]
  · exact if_pos rfl

theorem ready_of_inits
    (habsent : t.look destination = none ∧ t.look (handle.imageRoot imageId) = none)
    (habove : ∀ q ∈ destination.inits ++ (handle.imageRoot imageId).inits,
      t.look q = some .dir ∨ t.look q = none)
    (hapart : ¬ handle.imageRoot imageId <+: destination ∧
      ¬ destination <+: handle.imageRoot imageId) : Ready handle imageId destination t where
  absent := habsent.1
  above q hq := habove q (mem_append_left _ ((mem_inits q _).2 hq))
  fresh := habsent.2
  aboveFresh q hq := habove q (mem_append_right _ ((mem_inits q _).2 hq))
  outside := hapart.1
  apart := hapart.2

theorem exportThenImport_reproduces_win11 :
    Ends (Smooth { root := ["full"], pid := 7 } { root := ["empty"], pid := 8 })
      (fun result s' => result.1 = normal win11 ∧
        Reproduced { root := ["full"], pid := 7 } { root := ["empty"], pid := 8 } (yamlOf win11)
          win11 (normal win11) (storeOf win11 "disk.qcow2").files s'.files)
      (fun _ _ => False)
      (exportThenImport { root := ["full"], pid := 7 } { root := ["empty"], pid := 8 }
        (yamlOf win11) ⟨"win11"⟩ ["bundle"]) (storeOf win11 "disk.qcow2") := by
  have hintact : Intact { root := ["full"], pid := 7 } win11
      (storeOf win11 "disk.qcow2").files := by
    intro part hpart digest hdigest _
    unfold parts at hpart
    simp only [mem_cons, not_mem_nil, or_false] at hpart
    rcases hpart with rfl | rfl | rfl
    · refine ⟨[1], by decide, ?_⟩
      rw [← Option.some.inj hdigest]
      exact stripDigest_sha256 _
    · cases hdigest
    · cases hdigest
  have hready : Ready { root := ["empty"], pid := 8 } ⟨"win11"⟩ ["bundle"]
      (storeOf win11 "disk.qcow2").files :=
    ready_of_inits (by decide) (by decide) (by decide)
  exact exportThenImport_reproduces _ _ _ _ _ win11 _
    (registered_storeOf (by decide +kernel) (by decide +kernel)) (by decide +kernel) hintact hready (readsBack_yamlOf (by decide +kernel))

/-- An image without a disk is registered, and its export fails. -/
theorem not_exportThenImport_reproduces : ¬ ∀ (handle handle' : Handle) (yaml : Yaml)
    (imageId : Id) (destination : Path) (image : ImageManifest) (s : Store),
    registeredImage handle yaml s.files imageId = some image → Intact handle image s.files →
      Ready handle' imageId destination s.files → ReadsBack yaml image →
        Ends (Smooth handle handle')
          (fun result s' => result.1 = image ∧
            Reproduced handle handle' yaml image image s.files s'.files)
          (fun _ _ => False) (exportThenImport handle handle' yaml imageId destination) s := by
  intro h
  let handle : Handle := { root := ["full"], pid := 7 }
  let handle' : Handle := { root := ["empty"], pid := 8 }
  have hintact : Intact handle appliance (storeOf appliance "firmware.fd").files := by
    intro part hpart digest hdigest hempty
    unfold parts at hpart
    simp only [mem_cons, not_mem_nil, or_false] at hpart
    rcases hpart with rfl | rfl | rfl
    · cases hdigest
      exact absurd rfl hempty
    · refine ⟨[1], by decide, ?_⟩
      rw [← Option.some.inj hdigest]
      exact stripDigest_digest _
    · cases hdigest
  have hrun := h handle handle' (yamlOf appliance) ⟨"appliance"⟩ ["bundle"] appliance
    (storeOf appliance "firmware.fd")
    (registered_storeOf (by decide +kernel) (by decide +kernel)) hintact
    (ready_of_inits (by decide) (by decide) (by decide)) (readsBack_yamlOf (by decide +kernel))
  have hsmooth : ∀ s o, (decide (o.fault = none) && decide (Fresh handle s o) &&
      decide (Fresh handle' s o)) = true → Smooth handle handle' s o := by
    intro s o ho
    simp only [Bool.and_eq_true, decide_eq_true_eq] at ho
    exact ⟨ho.1.1, ho.1.2, ho.2⟩
  obtain ⟨r, s', hcheck, -, hX⟩ := hrun.of_eval _ { nanos := 32 }
    ((List.range 32).map fun n => { nanos := n }) (fun r => !r.1.isOk) hsmooth (by decide +kernel)
  cases r with
  | error e => exact hX e rfl
  | ok result => cases hcheck

end BundleRoundTrip

end MachineEmu
