import MachineEmu.Storage.Images

/-!
# Imports are faithful

Whether the component files that an import leaves in the store are those of its source.

* `Adds` — what an import does to the files of the host: it keeps what is there and creates files
  at a destination and hidden temporaries only.
* `Published` — what `publish_component` leaves at a destination.
* `Faithful`, `Matches` — every component of the source is stored with its digest; every
  destination that is already a file has the bytes of the source.
-/

namespace MachineEmu

open Lib Prog Store FileTree List

namespace ImageImport

/-- The end of the names of the temporary files that the clock names. -/
def temporaryEnd (self : Handle) (nanos : Nat) : List Char :=
  ("-" ++ toString self.pid ++ "-" ++ toString nanos ++ ".tmp").toList

/-- The clock names no file that exists. -/
def Fresh (self : Handle) (s : Store) (o : Outcome) : Prop :=
  s.files.anyName (fun name => (temporaryEnd self o.nanos).isSuffixOf name.toList) = false

instance (self : Handle) (s : Store) (o : Outcome) : Decidable (Fresh self s o) :=
  inferInstanceAs (Decidable (_ = _))

theorem Fresh.look {self : Handle} {s : Store} {o : Outcome} (h : Fresh self s o) (kind : String)
    (d : Path) : s.files.look (d ++ [self.temporary kind o.nanos]) = none := by
  refine look_of_anyName h ?_
  rw [isSuffixOf_iff_suffix]
  refine ⟨("." ++ kind).toList, ?_⟩
  unfold temporaryEnd Handle.temporary
  simp

/-- A path whose last name starts with a dot. -/
def Hidden (q : Path) : Prop := ∃ d name, q = d ++ [name] ∧ name.toList.head? = some '.'

/-- What exists stays, and new files are hidden or at one of the destinations. -/
structure Adds (destinations : List Path) (t t' : FileTree) : Prop where
  keeps : ∀ q e, t.look q = some e → t'.look q = some e
  only : ∀ q bytes, t'.look q = some (.file bytes) →
    t.look q = some (.file bytes) ∨ Hidden q ∨ q ∈ destinations

variable {self : Handle} {yaml : Yaml} {destinations : List Path}
  {destination source p : Path} {t t' t'' : FileTree}
  {s : Store}

theorem Adds.refl (destinations : List Path) (t : FileTree) : Adds destinations t t :=
  ⟨fun _ _ h => h, fun _ _ h => .inl h⟩

theorem Adds.trans (h : Adds destinations t t') (h' : Adds destinations t' t'') :
    Adds destinations t t'' := by
  constructor
  · intro q e he
    exact h'.keeps q e (h.keeps q e he)
  · intro q bytes hq
    rcases h'.only q bytes hq with hq | hq
    · exact h.only q bytes hq
    · exact .inr hq

theorem Adds.mono {more : List Path} (h : Adds destinations t t')
    (hmore : ∀ q ∈ destinations, q ∈ more) : Adds more t t' := by
  refine ⟨h.keeps, fun q bytes hq => ?_⟩
  rcases h.only q bytes hq with hq | hq | hq
  · exact .inl hq
  · exact .inr (.inl hq)
  · exact .inr (.inr (hmore q hq))

/-- A path that is not hidden and not a destination has a file before and after. -/
theorem Adds.file_iff (h : Adds destinations t t') (hidden : ¬ Hidden p) (hp : p ∉ destinations)
    (bytes : List UInt8) : t'.look p = some (.file bytes) ↔ t.look p = some (.file bytes) := by
  constructor
  · intro hfile
    rcases h.only p bytes hfile with hfile | hfile | hfile
    · exact hfile
    · exact absurd hfile hidden
    · exact absurd hfile hp
  · exact h.keeps p _

/-- The path of a temporary file is hidden. -/
theorem hidden_temporary (self : Handle) (kind : String) (nanos : Nat) (d : Path) :
    Hidden (d ++ [self.temporary kind nanos]) := by
  refine ⟨d, _, rfl, ?_⟩
  unfold Handle.temporary
  simp

theorem adds_createDirAll (h : t.createDirAll p = some t') : Adds destinations t t' := by
  constructor
  · intro q e he
    rw [look_createDirAll h]
    split
    · next hq =>
      rcases look_of_createDirAll h hq with hdir | hnone
      · rw [← hdir, he]
      · rw [hnone] at he
        cases he
    · exact he
  · intro q bytes hq
    rw [look_createDirAll h] at hq
    split at hq
    · cases hq
    · exact .inl hq

/-! ## Hashing -/

/-- A file at a path `p` that did not exist at first. -/
structure Scratch (p : Path) (t t' : FileTree) : Prop where
  fresh : t.look p = none
  hidden : Hidden p
  same : ∀ q, q ≠ p → t'.look q = t.look q

theorem Scratch.adds (h : Scratch p t t') : Adds destinations t t' := by
  constructor
  · intro q e he
    rw [h.same q, he]
    rintro rfl
    rw [h.fresh] at he
    cases he
  · intro q bytes hq
    by_cases hqp : q = p
    · rw [hqp]
      exact .inr (.inl h.hidden)
    · rw [h.same q hqp] at hq
      exact .inl hq

theorem Scratch.trans (h : Scratch p t t') (h' : ∀ q, q ≠ p → t''.look q = t'.look q) :
    Scratch p t t'' :=
  ⟨h.fresh, h.hidden, fun q hq => (h' q hq).trans (h.same q hq)⟩

variable {bytes : List UInt8}

/-- The scratch file takes the place of nothing. -/
theorem Scratch.moved (h : Scratch p t t') (hnone : t.look destination = none)
    (hmoved : ∀ q, t''.look q = if q = destination then some (.file bytes)
      else if q = p then none else t'.look q) : Adds [destination] t t'' := by
  constructor
  · intro q e he
    have hqp : q ≠ p := by
      rintro rfl
      rw [h.fresh] at he
      cases he
    have hqd : q ≠ destination := by
      rintro rfl
      rw [hnone] at he
      cases he
    rw [hmoved, if_neg hqd, if_neg hqp, h.same q hqp, he]
  · intro q b hb
    rw [hmoved] at hb
    split at hb
    · next hq => exact .inr (.inr (mem_singleton.2 hq))
    · split at hb
      · cases hb
      · next hq =>
        rw [h.same q hq] at hb
        exact .inl hb

variable {X : Error → Store → Prop} {good : Store → Outcome → Prop}

/-- A task that reports the clock. -/
theorem ends_clock {Q : Nat → Store → Prop}
    (h : ∀ o, good s o → Q o.nanos s) : Ends good Q X clock s :=
  Ends.ask fun o ho => h o ho

/-- Ignore a removal, whether it happens or not. -/
theorem ends_ignore_removeFile {U : Unit → Store → Prop} (hstay : U () s)
    (hgone : ∀ t, s.files.removeFile p = some t → U () (s.withFiles t)) :
    Ends good U X (ignore (removeFile p)) s :=
  ends_ignore (ends_change (fun _ _ _ _ => hstay) (fun _ _ => hstay) hgone)

/-- The hash of a file leaves at most a temporary behind. -/
theorem ends_hashFile (hX : ∀ e s', X e s') (hp : ¬ Hidden p) :
    Ends (Fresh self) (fun digest s' => ∃ bytes staging,
      s.files.look p = some (.file bytes) ∧ digest = sha256 bytes ∧
        Scratch staging s.files s'.files) X (hashFile self p) s := by
  refine Ends.bind (M := fun nanos s' => s' = s ∧
    ∀ kind d, s.files.look (d ++ [self.temporary kind nanos]) = none)
    (ends_clock fun o ho => ⟨rfl, ho.look⟩) ?_
  intro nanos s₁ h₁
  obtain ⟨hs₁, hfresh⟩ := h₁
  rw [hs₁]
  generalize hstaging : p.dropLast ++ [self.temporary "hash" nanos] = staging
  have hnone : s.files.look staging = none := by
    rw [← hstaging]
    exact hfresh _ _
  have hhidden : Hidden staging := by
    rw [← hstaging]
    exact hidden_temporary self _ _ _
  have hne : p ≠ staging := by
    rintro rfl
    exact hp hhidden
  refine Ends.bind (M := fun _ s' => Scratch staging s.files s'.files)
    (ends_change (fun _ _ _ e => hX e _) (fun _ e => hX e _) ?_) ?_
  · intro t ht
    exact ⟨hnone, hhidden, fun q hq => by rw [withFiles_files, look_write ht, if_neg hq]⟩
  · intro _ s₂ h₂
    refine Ends.bind (M := fun r s' => Scratch staging s.files s'.files ∧
      ∀ digest, r = .ok digest → ∃ bytes, s.files.look p = some (.file bytes) ∧
        digest = sha256 bytes) (Ends.attempt (ends_copyAndHash ?_ ?_)) ?_
    · intro e t ht
      exact ⟨h₂.trans ht, nofun⟩
    · intro bytes t hbytes ht
      refine ⟨h₂.trans fun q hq => ?_, ?_⟩
      · rw [withFiles_files, look_write ht, if_neg hq]
      · rintro _ ⟨⟩
        rw [h₂.same p hne] at hbytes
        exact ⟨bytes, hbytes, rfl⟩
    · intro r s₃ h₃
      refine Ends.bind (M := fun _ s' => Scratch staging s.files s'.files)
        (ends_ignore_removeFile h₃.1 ?_) ?_
      · intro t ht
        refine h₃.1.trans fun q hq => ?_
        rw [withFiles_files, look_removeFile ht, if_neg hq]
      · intro _ s₄ h₄
        refine ends_ofExcept.2 ⟨?_, fun e _ => hX e _⟩
        intro digest hdigest
        obtain ⟨bytes, hbytes, hsha⟩ := h₃.2 digest hdigest
        exact ⟨bytes, staging, hbytes, hsha, h₄⟩

/-! ## Publishing -/

/-- What `publish_component` leaves at its destination: the bytes that were there, or those of
the source. -/
structure Published (source destination : Path) (expected : Option String) (digest : String)
    (t t' : FileTree) : Prop where
  adds : Adds [destination] t t'
  checked : ∀ e, expected = some e → digest = stripDigest e
  stored : ∃ bytes, t'.look destination = some (.file bytes) ∧ digest = sha256 bytes ∧
    ((∀ old, t.look destination ≠ some (.file old)) → t.look source = some (.file bytes))

variable {expected : Option String}

theorem ends_checkDigest {digest : String} {U : Unit → Store → Prop}
    (hX : ∀ e, X e s) (h : (∀ e, expected = some e → digest = e) → U () s) :
    Ends good U X (checkDigest digest expected) s := by
  unfold checkDigest
  cases expected with
  | none => exact h nofun
  | some expected =>
    dsimp only
    split
    · exact hX _
    · next hsame =>
      refine h fun e he => ?_
      cases he
      exact not_not.1 hsame

/-- The source is copied to a temporary file, which takes the place of the destination. -/
theorem ends_copyComponent (hX : ∀ e s', X e s') (hdestination : ¬ Hidden destination)
    (hbytes : s.files.look source = some (.file bytes))
    (hnofile : ∀ old, s.files.look destination ≠ some (.file old)) :
    Ends (Fresh self) (fun digest s' => Published source destination expected digest
      s.files s'.files) X
      (let directory := destination.dropLast
      (createDirAll directory).bind fun _ =>
        clock.bind fun nanos =>
          let temporary := directory ++ [self.temporary "component" nanos]
          (createNew temporary).bind fun _ =>
            onError
              ((copyAndHash source temporary).bind fun digest =>
                (checkDigest digest (expected.map stripDigest)).bind fun _ =>
                  (Store.rename temporary destination destination).bind fun _ => .ret digest)
              (removeFile temporary)) s := by
  have hcleanup : ∀ temporary s', Ends (Fresh self) (fun _ s'' => ∀ e, X e s'')
      (fun _ s'' => ∀ e, X e s'') (removeFile temporary) s' :=
    fun _ _ => Ends.always (fun _ _ e => hX e _) fun _ _ e => hX e _
  refine Ends.bind (M := fun _ s' => Adds [] s.files s'.files)
    (ends_change (fun _ _ _ e => hX e _) (fun _ e => hX e _) fun t ht => adds_createDirAll ht) ?_
  intro _ s₁ h₁
  refine Ends.bind (M := fun nanos s' => s' = s₁ ∧
    ∀ kind d, s₁.files.look (d ++ [self.temporary kind nanos]) = none)
    (ends_clock fun o ho => ⟨rfl, ho.look⟩) ?_
  intro nanos s₂ h₂
  obtain ⟨hs₂, hfresh⟩ := h₂
  rw [hs₂]
  dsimp only
  generalize htemporary : destination.dropLast ++ [self.temporary "component" nanos] = temporary
  have hnone : s₁.files.look temporary = none := by
    rw [← htemporary]
    exact hfresh _ _
  have hhidden : Hidden temporary := by
    rw [← htemporary]
    exact hidden_temporary self _ _ _
  have hne : temporary ≠ destination := by
    rintro rfl
    exact hdestination hhidden
  have hsource := h₁.keeps source _ hbytes
  have hother : source ≠ temporary := by
    rintro rfl
    rw [hnone] at hsource
    cases hsource
  refine Ends.bind (M := fun _ s' => Scratch temporary s₁.files s'.files)
    (ends_change (fun _ _ _ e => hX e _) (fun _ e => hX e _) ?_) ?_
  · intro t ht
    refine ⟨hnone, hhidden, fun q hq => ?_⟩
    rw [if_pos hnone] at ht
    rw [withFiles_files, look_write ht, if_neg hq]
  · intro _ s₃ h₃
    refine ends_onError (Ends.bind (M := fun digest s' => digest = sha256 bytes ∧
      s'.files.look temporary = some (.file bytes) ∧ Scratch temporary s₁.files s'.files)
      (ends_copyAndHash (fun _ _ _ => hcleanup _ _) ?_) ?_)
    · intro read t hread ht
      rw [h₃.same source hother, hsource] at hread
      cases hread
      refine ⟨rfl, ?_, h₃.trans fun q hq => ?_⟩
      · rw [withFiles_files, look_write ht, if_pos rfl]
      · rw [withFiles_files, look_write ht, if_neg hq]
    · rintro digest s₄ ⟨hdigest, hstored, h₄⟩
      refine Ends.bind (M := fun _ s' => s' = s₄ ∧ ∀ e, expected = some e →
        digest = stripDigest e) (ends_checkDigest (fun _ => hcleanup _ _) fun h => ⟨rfl, ?_⟩) ?_
      · intro e he
        exact h _ (by rw [he]; rfl)
      intro _ s₅ h₅
      obtain ⟨hs₅, hchecked⟩ := h₅
      rw [hs₅]
      refine Ends.seq (ends_change (fun _ _ _ _ => hcleanup _ _) (fun _ _ => hcleanup _ _)
        fun t ht => ?_)
      obtain ⟨hdir, hlook⟩ := look_rename_file ht hne hstored
      have hempty : s₁.files.look destination = none := by
        rw [h₄.same destination (Ne.symm hne)] at hdir
        cases he : s₁.files.look destination with
        | none => rfl
        | some e =>
          cases e with
          | dir => exact absurd he hdir
          | file old =>
            have hold := (h₁.file_iff hdestination not_mem_nil old).1 he
            exact absurd hold (hnofile old)
      have hmoved : Adds [destination] s₁.files t := h₄.moved hempty hlook
      refine ⟨(h₁.mono (by simp)).trans hmoved, hchecked, bytes, ?_, hdigest, fun _ => hbytes⟩
      rw [withFiles_files, hlook, if_pos rfl]

/-- Publishing a component, when its source is a file. -/
theorem ends_publishComponent (hX : ∀ e s', X e s') (hdestination : ¬ Hidden destination)
    (hbytes : s.files.look source = some (.file bytes)) :
    Ends (Fresh self) (fun digest s' => Published source destination expected digest
      s.files s'.files) X
      (publishComponent self source destination expected) s := by
  refine Ends.value ends_isFile fun published hpublished => ?_
  by_cases hfile : published = true
  · -- the store has a file at the destination
    rw [if_pos hfile]
    rw [hpublished] at hfile
    obtain ⟨old, hold⟩ := isFileEntry_iff.1 hfile
    refine Ends.bind (ends_hashFile hX hdestination) ?_
    rintro digest s₂ ⟨stored, staging, hstored, hsha, hscratch⟩
    refine Ends.bind (M := fun _ s' => s' = s₂ ∧ ∀ e, expected = some e →
      digest = stripDigest e) (ends_checkDigest (fun e => hX e _) fun h => ⟨rfl, ?_⟩) ?_
    · intro e he
      exact h _ (by rw [he]; rfl)
    intro _ s₃ h₃
    obtain ⟨hs₃, hchecked⟩ := h₃
    rw [hs₃]
    have hadds : Adds [destination] s.files s₂.files := hscratch.adds
    refine ⟨hadds, hchecked, stored, hadds.keeps _ _ hstored, hsha, ?_⟩
    exact fun hnone => absurd hstored (hnone stored)
  · rw [if_neg hfile]
    refine ends_copyComponent hX hdestination hbytes fun old hold => hfile ?_
    rw [hpublished]
    exact isFileEntry_iff.2 ⟨old, hold⟩

/-! ## Registering -/

/-- Reading a manifest. -/
theorem ends_readManifest (hX : ∀ e s', X e s') (expected : String) :
    Ends good (fun existing s' => s' = s ∧ ∃ bytes image, s.files.look p = some (.file bytes) ∧
      yaml.readManifest bytes = .ok image ∧ existing = image.completed) X
      (readManifest yaml p expected) s := by
  refine Ends.seq (ends_readFile (fun _ _ _ e => hX e _) (fun _ e => hX e _) fun bytes hbytes => ?_)
  cases hread : yaml.readManifest bytes with
  | error e => exact hX _ _
  | ok image =>
    refine Ends.bind (M := fun _ s' => s' = s)
      (ends_ofExcept.2 ⟨fun _ _ => rfl, fun e _ => hX e _⟩) ?_
    exact fun _ _ h => ⟨h, bytes, image, hbytes, hread, rfl⟩

/-- The manifest is the only file that is new. -/
theorem ends_publishManifest (hX : ∀ e s', X e s') (manifest : ImageManifest) :
    Ends good (fun _ s' => Adds [p] s.files s'.files ∧
      s'.files.look p = some (.file (yaml.manifest manifest))) X
      (publishManifest self yaml p manifest) s := by
  refine Ends.bind (M := fun _ s' => Adds [p] s.files s'.files)
    (ends_change (fun _ _ _ e => hX e _) (fun _ e => hX e _) fun t ht => adds_createDirAll ht) ?_
  intro _ s₁ h₁
  generalize htemporary : p.dropLast ++ [".manifest-" ++ toString self.pid ++ ".tmp"] = temporary
  have hhidden : Hidden temporary := by
    refine ⟨_, _, htemporary.symm, ?_⟩
    simp
  refine Ends.bind (M := fun _ s' => Scratch temporary s₁.files s'.files)
    (ends_change (fun _ _ _ e => hX e _) (fun _ e => hX e _) ?_) ?_
  · intro t ht
    split at ht
    · next hnone =>
      refine ⟨hnone, hhidden, fun q hq => ?_⟩
      rw [withFiles_files, look_write ht, if_neg hq]
    · cases ht
  · intro _ s₂ h₂
    have hcleanup : ∀ s', Ends good (fun _ s'' => ∀ e, X e s'') (fun _ s'' => ∀ e, X e s'')
        (removeFile temporary) s' :=
      fun s' => Ends.always (fun _ _ e => hX e _) fun _ _ e => hX e _
    refine ends_onError (Ends.bind (M := fun _ s' => Scratch temporary s₁.files s'.files ∧
        s'.files.look temporary = some (.file (yaml.manifest manifest)))
      (ends_writeAll (fun _ _ _ _ _ _ => hcleanup _) (fun _ _ _ => hcleanup _) ?_) ?_)
    · intro t ht
      refine ⟨h₂.trans fun q hq => ?_, ?_⟩
      · rw [withFiles_files, look_write ht, if_neg hq]
      · rw [withFiles_files, look_write ht, if_pos rfl]
    · rintro _ s₃ ⟨h₃, hbytes⟩
      refine Ends.seq (ends_sync (fun _ _ _ _ => hcleanup _) ?_)
      refine Ends.seq (ends_change (fun _ _ _ _ => hcleanup _) (fun _ _ => hcleanup _)
        fun linked hlinked => ?_)
      obtain ⟨hempty, hlook⟩ := look_link hlinked
      refine Ends.bind (M := fun _ s' => Adds [p] s.files s'.files ∧
          s'.files.look p = some (.file (yaml.manifest manifest)))
        (ends_change (fun _ _ _ _ => hcleanup _) (fun _ _ => hcleanup _) ?_) ?_
      · intro t ht
        have hne : p ≠ temporary := by
          rintro rfl
          rw [hempty] at hbytes
          cases hbytes
        rw [h₃.same p hne] at hempty
        have hmoved : ∀ q, t.look q = if q = p then some (.file (yaml.manifest manifest))
            else if q = temporary then none else s₃.files.look q := by
          intro q
          rw [look_removeFile ht, withFiles_files, hlook]
          by_cases hq : q = p
          · rw [if_pos hq, if_pos hq, if_neg, hbytes]
            rw [hq]
            exact hne
          · rw [if_neg hq, if_neg hq]
        refine ⟨h₁.trans (h₃.moved hempty hmoved), ?_⟩
        rw [withFiles_files, hmoved, if_pos rfl]
      · intro _ s₅ h₅
        refine Ends.seq (ends_sync (fun _ _ _ _ => hcleanup _) ?_)
        refine ends_change (fun _ _ _ _ => hcleanup _) nofun ?_
        intro t ht
        cases ht
        exact h₅

/-- What the store reads of a manifest that was registered: its components. -/
def Registers (self : Handle) (yaml : Yaml) (manifest : ImageManifest) (t : FileTree) : Prop :=
  yaml.readManifest (yaml.manifest manifest) = .ok manifest → ∀ image,
    registeredImage self yaml t manifest.imageId = some image →
      image.components = manifest.components

theorem registers_of_read {t : FileTree} {manifest read : ImageManifest}
    (hlook : t.look (self.manifestPath manifest.imageId) = some (.file bytes))
    (hread : yaml.readManifest bytes = .ok read)
    (hsame : read.completed.components = manifest.components) {image : ImageManifest}
    (himage : registeredImage self yaml t manifest.imageId = some image) :
    image.components = manifest.components := by
  unfold registeredImage at himage
  rw [hlook] at himage
  dsimp only at himage
  rw [hread] at himage
  dsimp only at himage
  split at himage
  · cases himage
    exact hsame
  · cases himage

/-- A valid manifest is registered. -/
theorem ends_registerImage (hX : ∀ e s', X e s') (manifest : ImageManifest) :
    Ends good (fun _ s' => Adds [self.manifestPath manifest.imageId] s.files s'.files ∧
      manifest.validate manifest.imageId.asStr = .ok () ∧ Registers self yaml manifest s'.files) X
      (registerImage self yaml manifest) s := by
  refine Ends.seq (ends_ofExcept.2 ⟨fun _ hvalid => ?_, fun e _ => hX e _⟩)
  refine Ends.value (ends_metadata (fun _ _ _ e => hX e _)) fun found _ => ?_
  refine Ends.bind (M := fun _ s' => Adds [self.manifestPath manifest.imageId] s.files s'.files ∧
    Registers self yaml manifest s'.files) ?_ ?_
  · cases found with
    | some e =>
      refine Ends.bind (ends_readManifest hX _) ?_
      rintro existing s₃ ⟨hs₃, bytes, read, hlook, hread, hexisting⟩
      rw [hs₃]
      split
      · exact hX _ _
      · next hsame =>
        refine ⟨Adds.refl _ _, fun _ image => registers_of_read hlook hread ?_⟩
        rw [← hexisting, not_not.1 hsame]
    | none =>
      refine (ends_publishManifest hX manifest).mono (fun _ s' h => ?_) fun _ _ h => h
      exact ⟨h.1, fun hyaml image => registers_of_read h.2 hyaml rfl⟩
  · intro _ s₃ h₃
    refine Ends.bind (M := fun _ s' => s'.files = s₃.files)
      (ends_statement (fun _ _ _ e => hX e _) nofun fun _ _ => rfl) ?_
    intro _ s₄ h₄
    rw [ends_ret, h₄]
    exact ⟨h₃.1, hvalid, h₃.2⟩

/-! ## Components -/

/-- What the import of one component leaves, if the source has it. -/
structure Imported (source : Option Path) (destination : Path) (digest : Option String)
    (t t' : FileTree) : Prop where
  adds : Adds [destination] t t'
  stored : ∀ path, source = some path → ∀ bytes, t.look path = some (.file bytes) → ∃ stored,
    t'.look destination = some (.file stored) ∧ digest = some (sha256 stored) ∧
      ((∀ old, t.look destination ≠ some (.file old)) → stored = bytes)

theorem Published.imported {digest : String}
    (h : Published source destination expected digest t t') :
    Imported (some source) destination (some digest) t t' := by
  refine ⟨h.adds, fun path hpath bytes hbytes => ?_⟩
  cases hpath
  obtain ⟨stored, hstored, hdigest, hsource⟩ := h.stored
  refine ⟨stored, hstored, by rw [hdigest], fun hnone => ?_⟩
  have hsame := hsource hnone
  rw [hbytes] at hsame
  cases hsame
  rfl

/-- What one component leaves, seen from before the other components to after them. -/
theorem Imported.lift {before : List Path} {t₀ t₁ : FileTree} {source : Option Path}
    {digest : Option String} (h : Imported source destination digest t t')
    (hbefore : Adds before t₀ t) (hafter : ∀ q e, t'.look q = some e → t₁.look q = some e)
    (hidden : ¬ Hidden destination) (hnew : destination ∉ before) {path : Path}
    (hpath : source = some path) (hbytes : t₀.look path = some (.file bytes)) :
    ∃ stored, t₁.look destination = some (.file stored) ∧ digest = some (sha256 stored) ∧
      ((∀ old, t₀.look destination ≠ some (.file old)) → stored = bytes) := by
  obtain ⟨stored, hstored, hdigest, hsource⟩ :=
    h.stored path hpath bytes (hbefore.keeps _ _ hbytes)
  refine ⟨stored, hafter _ _ hstored, hdigest, fun hnone => hsource fun old hold => ?_⟩
  exact hnone old ((hbefore.file_iff hidden hnew old).1 hold)

theorem not_hidden_componentPath (self : Handle) (imageId : Id) {file : String}
    (hfile : file.toList.head? ≠ some '.') : ¬ Hidden (self.componentPath imageId file) := by
  rintro ⟨d, name, hsame, hhead⟩
  have hlast := congrArg List.getLast? hsame
  unfold Handle.componentPath at hlast
  rw [List.getLast?_concat, List.getLast?_concat] at hlast
  cases hlast
  exact hfile hhead

theorem componentPath_injective {imageId : Id} {a b : String}
    (h : self.componentPath imageId a = self.componentPath imageId b) : a = b := by
  have hlast := congrArg List.getLast? h
  unfold Handle.componentPath at hlast
  rw [List.getLast?_concat, List.getLast?_concat] at hlast
  cases hlast
  rfl

/-- A component that the base may lack has a digest only if it is there. -/
theorem ends_publishOptional (hX : ∀ e s', X e s') (hdestination : ¬ Hidden destination) :
    Ends (Fresh self) (fun digest s' =>
      Imported (some source) destination digest s.files s'.files ∧
        (digest ≠ none → ∃ bytes, s.files.look source = some (.file bytes))) X
      (publishOptional self source destination) s := by
  refine Ends.value ends_isFile fun present hpresent => ?_
  by_cases hfile : present = true
  · rw [if_pos hfile]
    rw [hpresent] at hfile
    obtain ⟨bytes, hbytes⟩ := isFileEntry_iff.1 hfile
    refine Ends.bind (ends_publishComponent hX hdestination hbytes) ?_
    exact fun digest s₂ h₂ => ⟨h₂.imported, fun _ => ⟨bytes, hbytes⟩⟩
  · rw [if_neg hfile]
    refine ⟨⟨Adds.refl _ _, fun path hpath bytes hbytes => absurd ?_ hfile⟩, fun h => absurd rfl h⟩
    cases hpath
    rw [hpresent]
    exact isFileEntry_iff.2 ⟨bytes, hbytes⟩

/-! ## The imports -/

/-- The digest that the fields of a manifest record for a component. -/
def fieldDigest (manifest : ImageManifest) (name : String) : Option String :=
  if name = "disk" then some manifest.diskSha256
  else if name = "firmware" then manifest.firmwareSha256
  else if name = "tpm_state" then manifest.tpmStateSha256
  else none

/-- The components that an import stores, with their files in the store. -/
def componentFiles : List (String × String) :=
  [("disk", "disk.qcow2"), ("firmware", "firmware.fd"), ("tpm_state", "tpm-state")]

/-- Every component of the source is stored, and the manifest records its digest, in its fields
and in its components. -/
def Faithful (self : Handle) (sources : String → Option Path) (t : FileTree)
    (manifest : ImageManifest) (s' : Store) : Prop :=
  ∀ c ∈ componentFiles, ∀ path, sources c.1 = some path → ∀ bytes,
    t.look path = some (.file bytes) →
      s'.files.look (self.componentPath manifest.imageId c.2) = some (.file bytes) ∧
        fieldDigest manifest c.1 = some (sha256 bytes) ∧
        manifest.componentDigest c.1 = some (sha256 bytes)

/-- Every destination that is a file already has the bytes of the source. -/
def Matches (self : Handle) (imageId : Id) (sources : String → Option Path) (t : FileTree) :
    Prop :=
  ∀ c ∈ componentFiles, ∀ path, sources c.1 = some path → ∀ bytes,
    t.look path = some (.file bytes) →
      ∀ old, t.look (self.componentPath imageId c.2) = some (.file old) → old = bytes

/-- The components of a base directory. -/
def baseSource (source : Path) (name : String) : Option Path :=
  if name = "disk" then some (source ++ ["disk.qcow2"])
  else if name = "firmware" then some (source ++ ["OVMF_VARS.fd"])
  else if name = "tpm_state" then some (source ++ ["tpm", "tpm2-00.permall"])
  else none

/-- The components of a bundle. -/
def bundleSource (source : Path) (bundle : ImageBundleManifest) (name : String) : Option Path :=
  (bundle.components.get? name).bind fun component =>
    (bundlePath component.path).map fun path => source ++ path

/-- The bundle in a directory. -/
def bundleAt (yaml : Yaml) (t : FileTree) (source : Path) : Option ImageBundleManifest :=
  match t.look (source ++ ["manifest.yaml"]) with
  | some (.file bytes) => (yaml.readBundle bytes).toOption
  | _ => none

variable {sources : String → Option Path} {manifest : ImageManifest} {imageId : Id}

/-- An import that keeps what exists and stores, for every component of the source, what was
there or else the bytes of the source, is faithful exactly when the destinations match. -/
theorem faithful_iff_matches {s' : Store}
    (hkeeps : ∀ q e, t.look q = some e → s'.files.look q = some e)
    (hstored : ∀ c ∈ componentFiles, ∀ path, sources c.1 = some path → ∀ bytes,
      t.look path = some (.file bytes) → ∃ stored,
        s'.files.look (self.componentPath manifest.imageId c.2) = some (.file stored) ∧
        fieldDigest manifest c.1 = some (sha256 stored) ∧
        manifest.componentDigest c.1 = some (sha256 stored) ∧
        ((∀ old, t.look (self.componentPath manifest.imageId c.2) ≠ some (.file old)) →
          stored = bytes)) :
    Faithful self sources t manifest s' ↔ Matches self manifest.imageId sources t := by
  constructor
  · intro hfaithful c hc path hpath bytes hbytes old hold
    have hlook := (hfaithful c hc path hpath bytes hbytes).1
    rw [hkeeps _ _ hold] at hlook
    cases hlook
    rfl
  · intro hmatches c hc path hpath bytes hbytes
    obtain ⟨stored, hlook, hfield, hcomponent, hsource⟩ := hstored c hc path hpath bytes hbytes
    have hsame : stored = bytes := by
      by_cases hold : ∃ old, t.look (self.componentPath manifest.imageId c.2) = some (.file old)
      · obtain ⟨old, hold⟩ := hold
        rw [hkeeps _ _ hold] at hlook
        cases hlook
        exact hmatches c hc path hpath bytes hbytes _ hold
      · exact hsource fun old h => hold ⟨old, h⟩
    rw [hsame] at hlook hfield hcomponent
    exact ⟨hlook, hfield, hcomponent⟩

/-- Three components that are stored one after the other. -/
theorem faithful_iff_of_imported {t₁ t₂ t₃ t₄ : FileTree} {last : List Path} {s' : Store}
    (h₁ : Adds [] t t₁)
    (h₂ : Imported (sources "disk") (self.componentPath manifest.imageId "disk.qcow2")
      (fieldDigest manifest "disk") t₁ t₂)
    (h₃ : Imported (sources "firmware") (self.componentPath manifest.imageId "firmware.fd")
      (fieldDigest manifest "firmware") t₂ t₃)
    (h₄ : Imported (sources "tpm_state") (self.componentPath manifest.imageId "tpm-state")
      (fieldDigest manifest "tpm_state") t₃ t₄)
    (h₅ : Adds last t₄ s'.files)
    (hdigest : ∀ c ∈ componentFiles, sources c.1 ≠ none →
      manifest.componentDigest c.1 = fieldDigest manifest c.1) :
    Faithful self sources t manifest s' ↔ Matches self manifest.imageId sources t := by
  have hhidden : ∀ c ∈ componentFiles, ¬ Hidden (self.componentPath manifest.imageId c.2) := by
    intro c hc
    refine not_hidden_componentPath self manifest.imageId ?_
    revert c
    decide
  have hnew : ∀ {a b : String}, a ≠ b →
      self.componentPath manifest.imageId a ≠ self.componentPath manifest.imageId b :=
    fun hne hsame => hne (componentPath_injective hsame)
  -- what exists after one step exists at the end
  have keeps₄ : ∀ q e, t₄.look q = some e → s'.files.look q = some e := h₅.keeps
  have keeps₃ : ∀ q e, t₃.look q = some e → s'.files.look q = some e :=
    fun q e he => keeps₄ q e (h₄.adds.keeps q e he)
  have keeps₂ : ∀ q e, t₂.look q = some e → s'.files.look q = some e :=
    fun q e he => keeps₃ q e (h₃.adds.keeps q e he)
  have adds₂ : Adds [self.componentPath manifest.imageId "disk.qcow2"] t t₂ :=
    (h₁.mono (by simp)).trans h₂.adds
  have adds₃ : Adds [self.componentPath manifest.imageId "disk.qcow2",
      self.componentPath manifest.imageId "firmware.fd"] t t₃ :=
    (adds₂.mono (by simp)).trans (h₃.adds.mono (by simp))
  refine faithful_iff_matches (fun q e he => keeps₂ q e (adds₂.keeps q e he)) ?_
  intro c hc path hpath bytes hbytes
  have hrecorded := hdigest c hc (by simp [hpath])
  have hnothidden := hhidden c hc
  rw [hrecorded]
  unfold componentFiles at hc
  simp only [mem_cons, not_mem_nil, or_false] at hc
  rcases hc with rfl | rfl | rfl
  · obtain ⟨stored, hlook, hfield, hsource⟩ :=
      h₂.lift h₁ keeps₂ hnothidden (by simp) hpath hbytes
    exact ⟨stored, hlook, hfield, hfield, hsource⟩
  · obtain ⟨stored, hlook, hfield, hsource⟩ :=
      h₃.lift adds₂ keeps₃ hnothidden (by simpa using hnew (by decide)) hpath hbytes
    exact ⟨stored, hlook, hfield, hfield, hsource⟩
  · have hother : self.componentPath manifest.imageId "tpm-state" ∉
        [self.componentPath manifest.imageId "disk.qcow2",
          self.componentPath manifest.imageId "firmware.fd"] := by
      simp only [mem_cons, not_mem_nil, or_false, not_or]
      exact ⟨hnew (by decide), hnew (by decide)⟩
    obtain ⟨stored, hlook, hfield, hsource⟩ :=
      h₄.lift adds₃ keeps₄ hnothidden hother hpath hbytes
    exact ⟨stored, hlook, hfield, hfield, hsource⟩

theorem stripDigest_sha256 (d : String) : stripDigest ("sha256:" ++ d) = d := by
  unfold stripDigest
  rw [String.toList_append]
  have hsplit : ("sha256:".toList).isPrefixOf? ("sha256:".toList ++ d.toList) = some d.toList := by
    have hlist : "sha256:".toList = ['s', 'h', 'a', '2', '5', '6', ':'] := by decide
    rw [hlist]
    simp [List.isPrefixOf?]
  rw [hsplit]
  exact String.ofList_toList

/-- The components of a manifest record the digests that it was made from. -/
theorem componentDigest_componentsOf (manifest : ImageManifest)
    (disk firmware tpm : Option String) (h : manifest.components = componentsOf disk firmware tpm) :
    manifest.componentDigest "disk" = disk ∧ manifest.componentDigest "firmware" = firmware ∧
      manifest.componentDigest "tpm_state" = tpm := by
  unfold ImageManifest.componentDigest
  rw [h]
  unfold componentsOf
  cases disk <;> cases firmware <;> cases tpm <;>
    simp [SortedMap.get?_insert, stripDigest_sha256]

/-- What the import of a base directory does: the three components one after the other, and the
manifest. -/
structure BaseImport (handle : Handle) (yaml : Yaml) (source : Path) (t : FileTree)
    (manifest : ImageManifest) (t' : FileTree) : Prop where
  components : manifest.components = componentsOf (some manifest.diskSha256)
    manifest.firmwareSha256 manifest.tpmStateSha256
  disk : ∃ bytes, t.look (source ++ ["disk.qcow2"]) = some (.file bytes)
  steps : ∃ t₁ t₂ t₃ t₄, Adds [] t t₁ ∧
    Imported (some (source ++ ["disk.qcow2"]))
      (handle.componentPath manifest.imageId "disk.qcow2") (some manifest.diskSha256) t₁ t₂ ∧
    (Imported (some (source ++ ["OVMF_VARS.fd"]))
        (handle.componentPath manifest.imageId "firmware.fd") manifest.firmwareSha256 t₂ t₃ ∧
      (manifest.firmwareSha256 ≠ none →
        ∃ bytes, t₂.look (source ++ ["OVMF_VARS.fd"]) = some (.file bytes))) ∧
    (Imported (some (source ++ ["tpm", "tpm2-00.permall"]))
        (handle.componentPath manifest.imageId "tpm-state") manifest.tpmStateSha256 t₃ t₄ ∧
      (manifest.tpmStateSha256 ≠ none →
        ∃ bytes, t₃.look (source ++ ["tpm", "tpm2-00.permall"]) = some (.file bytes))) ∧
    Adds [handle.manifestPath manifest.imageId] t₄ t'
  valid : manifest.validate manifest.imageId.asStr = .ok ()
  registers : Registers handle yaml manifest t'

/-- The steps of the import of a base directory. -/
theorem ends_importVmmanagerBase_steps (imageId engineTrack : Id) (target : String) :
    Ends (Fresh self)
      (fun manifest s' => manifest.imageId = imageId ∧ manifest.engineTrack = engineTrack ∧
        manifest.supportedEngineTracks = [] ∧ manifest.target = target ∧
        BaseImport self yaml source s.files manifest s'.files)
      (fun _ _ => True) (importVmmanagerBase self yaml source imageId engineTrack target) s := by
  have hX : ∀ (e : Error) (s' : Store), (fun (_ : Error) (_ : Store) => True) e s' :=
    fun _ _ => trivial
  refine Ends.value ends_isFile fun present hpresent => ?_
  by_cases hfile : present = false
  · rw [if_pos hfile]
    trivial
  · rw [if_neg hfile]
    rw [Bool.not_eq_false, hpresent] at hfile
    obtain ⟨bytes, hbytes⟩ := isFileEntry_iff.1 hfile
    refine Ends.seq (ends_ofExcept.2 ⟨fun _ _ => ?_, fun _ _ => trivial⟩)
    refine Ends.bind (M := fun _ s' => Adds [] s.files s'.files)
      (ends_change (fun _ _ _ _ => trivial) (fun _ _ => trivial) fun t ht => adds_createDirAll ht) ?_
    intro _ s₃ h₃
    have hhidden : ∀ file ∈ ["disk.qcow2", "firmware.fd", "tpm-state"],
        ¬ Hidden (self.componentPath imageId file) := by
      intro file hfile
      refine not_hidden_componentPath self imageId ?_
      revert file
      decide
    refine Ends.bind (ends_publishComponent hX (hhidden _ (by simp)) (h₃.keeps _ _ hbytes)) ?_
    intro diskSha256 s₄ h₄
    refine Ends.bind (ends_publishOptional hX (hhidden _ (by simp))) ?_
    intro firmwareSha256 s₅ h₅
    refine Ends.bind (ends_publishOptional hX (hhidden _ (by simp))) ?_
    intro tpmStateSha256 s₆ h₆
    refine Ends.bind (ends_registerImage hX _) ?_
    intro _ s₇ h₇
    exact ⟨rfl, rfl, rfl, rfl, rfl, ⟨bytes, hbytes⟩,
      ⟨_, _, _, _, h₃, h₄.imported, h₅, h₆, h₇.1⟩, h₇.2.1, h₇.2.2⟩

/-- The import of a base directory. -/
theorem ends_importVmmanagerBase (imageId engineTrack : Id) (target : String) :
    Ends (Fresh self)
      (fun manifest s' => Faithful self (baseSource source) s.files manifest s' ↔
        Matches self imageId (baseSource source) s.files)
      (fun _ _ => True) (importVmmanagerBase self yaml source imageId engineTrack target) s := by
  refine (ends_importVmmanagerBase_steps imageId engineTrack target).mono (fun manifest s' h => ?_)
    fun _ _ h => h
  obtain ⟨rfl, -, -, -, himport⟩ := h
  obtain ⟨t₁, t₂, t₃, t₄, h₁, h₂, ⟨h₃, -⟩, ⟨h₄, -⟩, h₅⟩ := himport.steps
  refine faithful_iff_of_imported h₁ h₂ h₃ h₄ h₅ ?_
  obtain ⟨hdisk, hfirmware, htpm⟩ :=
    componentDigest_componentsOf manifest _ _ _ himport.components
  intro c hc _
  unfold componentFiles at hc
  simp only [mem_cons, not_mem_nil, or_false] at hc
  rcases hc with rfl | rfl | rfl
  · exact hdisk
  · exact hfirmware
  · exact htpm

/-- One component of a bundle; its digest is the one that the bundle gives. -/
theorem ends_importComponent (hX : ∀ e s', X e s')
    (bundle : ImageBundleManifest) (name : String) {file : String}
    (hhidden : ¬ Hidden (self.componentPath bundle.imageId file)) :
    Ends (Fresh self) (fun digest s' =>
      Imported (bundleSource source bundle name) (self.componentPath bundle.imageId file) digest
        s.files s'.files ∧
      (bundle.components.get? name).map (fun component => stripDigest component.sha256) =
        digest) X
      (importComponent self source bundle name file) s := by
  unfold importComponent
  cases hcomponent : bundle.components.get? name with
  | none =>
    have hsource : bundleSource source bundle name = none := by
      unfold bundleSource
      rw [hcomponent]
      rfl
    rw [hsource]
    exact ⟨⟨Adds.refl _ _, nofun⟩, rfl⟩
  | some component =>
    dsimp only
    cases hpath : bundlePath component.path with
    | none => exact hX _ _
    | some path =>
      have hsource : bundleSource source bundle name = some (source ++ path) := by
        unfold bundleSource
        rw [hcomponent, Option.bind_some, hpath]
        rfl
      rw [hsource]
      dsimp only
      refine Ends.value ends_isFile fun present hpresent => ?_
      by_cases hfile : present = false
      · rw [if_pos hfile]
        exact hX _ _
      · rw [if_neg hfile]
        rw [Bool.not_eq_false, hpresent] at hfile
        obtain ⟨bytes, hbytes⟩ := isFileEntry_iff.1 hfile
        refine Ends.bind (ends_publishComponent hX hhidden hbytes) ?_
        intro digest s₂ h₂
        refine ⟨h₂.imported, ?_⟩
        rw [h₂.checked _ rfl]
        rfl

/-- The digest that a bundle gives for a component. -/
def bundleDigest (bundle : ImageBundleManifest) (name : String) : Option String :=
  (bundle.components.get? name).map fun component => stripDigest component.sha256

/-- The manifest of the image in a bundle. -/
def bundleImage (bundle : ImageBundleManifest) (disk : String) : ImageManifest :=
  { imageId := bundle.imageId, engineTrack := bundle.engineTrack
    supportedEngineTracks := bundle.supportedEngineTracks
    target := bundle.target, components := bundle.components
    diskSha256 := disk, firmwareSha256 := bundleDigest bundle "firmware"
    tpmStateSha256 := bundleDigest bundle "tpm_state" }

/-- What the import of a bundle does: the three components one after the other, and the
manifest. -/
structure BundleImport (handle : Handle) (yaml : Yaml) (source : Path)
    (bundle : ImageBundleManifest) (t : FileTree) (manifest : ImageManifest) (t' : FileTree) :
    Prop where
  disk : bundleDigest bundle "disk" = some manifest.diskSha256
  made : manifest = bundleImage bundle manifest.diskSha256
  steps : ∃ t₁ t₂ t₃ t₄, Adds [] t t₁ ∧
    Imported (bundleSource source bundle "disk")
      (handle.componentPath bundle.imageId "disk.qcow2") (bundleDigest bundle "disk") t₁ t₂ ∧
    Imported (bundleSource source bundle "firmware")
      (handle.componentPath bundle.imageId "firmware.fd") (bundleDigest bundle "firmware")
      t₂ t₃ ∧
    Imported (bundleSource source bundle "tpm_state")
      (handle.componentPath bundle.imageId "tpm-state") (bundleDigest bundle "tpm_state")
      t₃ t₄ ∧
    Adds [handle.manifestPath bundle.imageId] t₄ t'
  valid : manifest.validate bundle.imageId.asStr = .ok ()
  registers : Registers handle yaml manifest t'

/-- The steps of the import of a bundle. -/
theorem ends_importImageBundle_steps :
    Ends (Fresh self)
      (fun result s' => ∃ bundle, bundleAt yaml s.files source = some bundle ∧
        BundleImport self yaml source bundle s.files result.1 s'.files)
      (fun _ _ => True) (importImageBundle self yaml source) s := by
  have hX : ∀ (e : Error) (s' : Store), (fun (_ : Error) (_ : Store) => True) e s' :=
    fun _ _ => trivial
  refine Ends.seq (ends_readFile (fun _ _ _ _ => trivial) (fun _ _ => trivial) fun bytes hbytes => ?_)
  cases hread : yaml.readBundle bytes with
  | error e => trivial
  | ok bundle =>
    have hbundle : bundleAt yaml s.files source = some bundle := by
      unfold bundleAt
      rw [hbytes]
      dsimp only
      rw [hread]
      rfl
    dsimp only
    by_cases hversion : bundle.schemaVersion ≠ 1
    · rw [if_pos hversion]
      trivial
    · rw [if_neg hversion]
      refine Ends.seq (ends_ofExcept.2 ⟨fun _ _ => ?_, fun _ _ => trivial⟩)
      refine Ends.bind (M := fun _ s' => Adds [] s.files s'.files)
        (ends_change (fun _ _ _ _ => trivial) (fun _ _ => trivial) fun t ht => adds_createDirAll ht) ?_
      intro _ s₃ h₃
      have hhidden : ∀ file ∈ ["disk.qcow2", "firmware.fd", "tpm-state"],
          ¬ Hidden (self.componentPath bundle.imageId file) := by
        intro file hfile
        refine not_hidden_componentPath self bundle.imageId ?_
        revert file
        decide
      refine Ends.bind (ends_importComponent hX bundle "disk" (hhidden _ (by simp))) ?_
      intro disk s₄ h₄
      cases disk with
      | none => trivial
      | some diskSha256 =>
        refine Ends.bind (ends_importComponent hX bundle "firmware" (hhidden _ (by simp))) ?_
        rintro firmwareSha256 s₅ ⟨h₅, rfl⟩
        refine Ends.bind (ends_importComponent hX bundle "tpm_state" (hhidden _ (by simp))) ?_
        rintro tpmStateSha256 s₆ ⟨h₆, rfl⟩
        refine Ends.bind (ends_registerImage hX _) ?_
        intro _ s₇ h₇
        have hdisk : bundleDigest bundle "disk" = some diskSha256 := h₄.2
        have hfirst := h₄.1
        rw [← hdisk] at hfirst
        exact ⟨bundle, hbundle, hdisk, rfl, ⟨_, _, _, _, h₃, hfirst, h₅, h₆, h₇.1⟩, h₇.2.1,
          h₇.2.2⟩

/-- The import of a bundle. -/
theorem ends_importImageBundle :
    Ends (Fresh self)
      (fun result s' => ∃ bundle, bundleAt yaml s.files source = some bundle ∧
        (Faithful self (bundleSource source bundle) s.files result.1 s' ↔
          Matches self bundle.imageId (bundleSource source bundle) s.files))
      (fun _ _ => True) (importImageBundle self yaml source) s := by
  refine ends_importImageBundle_steps.mono (fun result s' h => ?_) fun _ _ h => h
  obtain ⟨bundle, hbundle, himport⟩ := h
  obtain ⟨t₁, t₂, t₃, t₄, h₁, h₂, h₃, h₄, h₅⟩ := himport.steps
  refine ⟨bundle, hbundle, ?_⟩
  have hdisk := himport.disk
  have hmade := himport.made
  generalize result.1.diskSha256 = disk at hdisk hmade
  rw [hmade]
  rw [hdisk] at h₂
  refine faithful_iff_of_imported h₁ h₂ h₃ h₄ h₅ ?_
  intro c hc _
  unfold componentFiles at hc
  simp only [mem_cons, not_mem_nil, or_false] at hc
  rcases hc with rfl | rfl | rfl
  · exact hdisk
  · rfl
  · rfl

/-- Whenever an import returns, what it has stored is faithful exactly when every component file
that was there before already had the bytes of its source. -/
theorem imports_faithful_iff_matches (self : Handle) (yaml : Yaml) (source : Path) (s : Store) :
    (∀ imageId engineTrack target, Ends (Fresh self)
      (fun manifest s' => Faithful self (baseSource source) s.files manifest s' ↔
        Matches self imageId (baseSource source) s.files)
      (fun _ _ => True) (importVmmanagerBase self yaml source imageId engineTrack target) s) ∧
    Ends (Fresh self)
      (fun result s' => ∃ bundle, bundleAt yaml s.files source = some bundle ∧
        (Faithful self (bundleSource source bundle) s.files result.1 s' ↔
          Matches self bundle.imageId (bundleSource source bundle) s.files))
      (fun _ _ => True) (importImageBundle self yaml source) s :=
  ⟨ends_importVmmanagerBase, ends_importImageBundle⟩

/-! ## A component that was left behind -/

/-- The text of a manifest with plain scalars. -/
def manifestText (manifest : ImageManifest) : String :=
  "image_id: " ++ manifest.imageId.asStr ++ "\nengine_track: " ++ manifest.engineTrack.asStr ++
    "\ntarget: " ++ manifest.target ++ "\ncomponents:\n" ++
    String.join (manifest.components.entries.map fun e =>
      "  " ++ e.1 ++ ":\n    path: " ++ e.2.path ++ "\n    sha256: " ++ e.2.sha256 ++ "\n") ++
    "disk_sha256: " ++ manifest.diskSha256 ++ "\n"

/-- A serialiser that writes image manifests and reads nothing. -/
def writesManifests : Yaml where
  manifest manifest := textBytes (manifestText manifest)
  readManifest _ := .error "not read"
  bundle _ := []
  readBundle _ := .error "not read"

/-- A base directory, and a workspace with the disk of an interrupted import. -/
def leftBehind : Store where
  tables := {}
  files := .dir [
    ("base", .dir [("disk.qcow2", .file [2])]),
    ("workspace", .dir [("images", .dir [("win11", .dir [("components", .dir [
      ("disk.qcow2", .file [1])])])])])]

/-- Whether an import of the image has returned and the store still has the old disk. -/
def keptOldDisk (self : Handle) (result : Except Error ImageManifest × Store) : Bool :=
  (match result.1 with
    | .ok manifest => decide (manifest.imageId = ⟨"win11"⟩)
    | .error _ => false) &&
  decide (result.2.files.look (self.componentPath ⟨"win11"⟩ "disk.qcow2") = some (.file [1]))

/-- The import returns, and the store keeps the disk that was left behind. -/
theorem not_imports_faithful : ¬ ∀ (self : Handle) (yaml : Yaml) (source : Path) (s : Store)
    (imageId engineTrack : Id) (target : String), Ends (Fresh self)
      (fun manifest s' => Faithful self (baseSource source) s.files manifest s')
      (fun _ _ => True) (importVmmanagerBase self yaml source imageId engineTrack target) s := by
  intro h
  let self : Handle := { root := ["workspace"], pid := 7 }
  have hrun := h self writesManifests ["base"] leftBehind ⟨"win11"⟩ ⟨"qemu"⟩ "x86_64-softmmu"
  obtain ⟨r, s', hcheck, hQ, _⟩ := hrun.of_eval (fun s o => decide (Fresh self s o))
    { nanos := 32 } ((List.range 32).map fun n => { nanos := n }) (keptOldDisk self) (fun _ _ ho => of_decide_eq_true ho) (by decide +kernel)
  unfold keptOldDisk at hcheck
  rw [Bool.and_eq_true, decide_eq_true_eq] at hcheck
  obtain ⟨hok, hold⟩ := hcheck
  cases r with
  | error e => cases hok
  | ok manifest =>
    have himage : manifest.imageId = ⟨"win11"⟩ := of_decide_eq_true hok
    obtain ⟨hstored, _⟩ := hQ manifest rfl ("disk", "disk.qcow2") (by decide) _ rfl [2] (by decide)
    rw [himage, hold] at hstored
    cases hstored

end ImageImport

end MachineEmu
