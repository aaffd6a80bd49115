import MachineEmu.Api.Images
import MachineEmu.Safety.ImageImport

/-!
# A failing import and the registered images

What an import of a base directory that fails leaves of the images that were registered before.

* `recorded`, `Held` — the component files of a manifest; a file has the recorded digest.
* `Undamaged` — the registered images are the same and keep the files they held.
* `Harmless` — what the copies would put in the place of a held file has its digest.
* `Touches` — what the copies do to the files; `OnTime` — no failure comes after the manifest.
* `undamaged_of_harmless` — the result.
-/

namespace MachineEmu

open Lib Prog Store ImageImport List FileTree

namespace ImageDamage

/-! ## Registered images -/

/-- A digest without its prefix, in lowercase. -/
def plainDigest (s : String) : String := String.ofList ((stripDigest s).toList.map Char.toLower)

/-- The component files of a manifest, with their digests: those of its components, and those of
its digest fields. -/
def recorded (self : Handle) (imageId : Id) (image : ImageManifest) : List (Path × String) :=
  (image.components.entries.filterMap fun e =>
      (bundlePath e.2.path).map fun p => (self.imageRoot imageId ++ p, e.2.sha256)) ++
    [("disk.qcow2", some image.diskSha256), ("firmware.fd", image.firmwareSha256),
      ("tpm-state", image.tpmStateSha256)].filterMap fun e =>
        e.2.map fun digest => (self.imageRoot imageId ++ ["components", e.1], digest)

/-- A component file has the bytes of its digest. -/
def Held (t : FileTree) (f : Path × String) : Prop :=
  ∃ bytes, t.look f.1 = some (.file bytes) ∧ sha256 bytes = plainDigest f.2

/-- The registered images are the same, and keep every component file that they held. -/
structure Undamaged (handle : Handle) (yaml : Yaml) (t t' : FileTree) : Prop where
  registered : ∀ imageId,
    registeredImage handle yaml t' imageId = registeredImage handle yaml t imageId
  held : ∀ imageId image, registeredImage handle yaml t imageId = some image →
    ∀ f ∈ recorded handle imageId image, Held t f → Held t' f

/-- Where the image is registered, a component file that it holds is no temporary file of the
import, and a component that would take its place has its digest. -/
def Harmless (self : Handle) (yaml : Yaml) (source : Path) (imageId : Id) (t : FileTree) : Prop :=
  ∀ image, registeredImage self yaml t imageId = some image →
    ∀ f ∈ recorded self imageId image, Held t f →
      ∀ c ∈ baseComponents source, ∀ bytes, t.look c.source = some (.file bytes) →
        f.1 ≠ importing self imageId c.file ∧
          (f.1 = self.componentPath imageId c.file → sha256 bytes = plainDigest f.2)

/-- No call fails after the manifest of the image was published. -/
def OnTime (self : Handle) (imageId : Id) (t : FileTree) (s : Store) (o : Outcome) : Prop :=
  s.files.look (self.manifestPath imageId) = t.look (self.manifestPath imageId) ∨ o.fault = none

variable {self : Handle} {yaml : Yaml} {imageId : Id} {source : Path} {t t' t'' : FileTree}
  {s : Store} {c c' : BaseComponent}

/-- A registered image depends on the file of its manifest. -/
theorem registeredImage_congr
    (h : ∀ bytes, t'.look (self.manifestPath imageId) = some (.file bytes) ↔
      t.look (self.manifestPath imageId) = some (.file bytes)) :
    registeredImage self yaml t' imageId = registeredImage self yaml t imageId := by
  unfold registeredImage
  rcases hlook : t.look (self.manifestPath imageId) with _ | (bytes | _)
  · rcases hlook' : t'.look (self.manifestPath imageId) with _ | (bytes | _)
    · rfl
    · have hfile := (h bytes).1 hlook'
      rw [hlook] at hfile
      cases hfile
    · rfl
  · rw [(h bytes).2 hlook]
  · rcases hlook' : t'.look (self.manifestPath imageId) with _ | (bytes | _)
    · rfl
    · have hfile := (h bytes).1 hlook'
      rw [hlook] at hfile
      cases hfile
    · rfl

variable {p : Path}

theorem file_createDirAll (h : t.createDirAll p = some t') (q : Path)
    (bytes : List UInt8) : t'.look q = some (.file bytes) ↔ t.look q = some (.file bytes) := by
  rw [look_createDirAll h]
  split
  · next hq =>
    rcases look_of_createDirAll h hq with hdir | hnone
    · simp [hdir]
    · simp [hnone]
  · rfl

/-! ## Paths -/

/-- The files of a component are none of another one's. -/
structure Apart (handle : Handle) (imageId : Id) (c c' : BaseComponent) : Prop where
  source_temporary : c'.source ≠ importing handle imageId c.file
  source_place : c'.source ≠ handle.componentPath imageId c.file
  temporary_temporary : importing handle imageId c'.file ≠ importing handle imageId c.file
  temporary_place : importing handle imageId c'.file ≠ handle.componentPath imageId c.file
  place_temporary : handle.componentPath imageId c'.file ≠ importing handle imageId c.file
  place_place : handle.componentPath imageId c'.file ≠ handle.componentPath imageId c.file

theorem getLast?_importing (file : String) : (importing self imageId file).getLast? =
    some ("." ++ file ++ "." ++ toString self.pid ++ ".importing") := by
  unfold importing
  exact List.getLast?_concat

theorem getLast?_componentPath (file : String) :
    (self.componentPath imageId file).getLast? = some file := by
  unfold Handle.componentPath
  exact List.getLast?_concat

theorem getLast?_source (hc : c ∈ baseComponents source) :
    ∃ name ∈ ["disk.qcow2", "OVMF_VARS.fd", "tpm2-00.permall"],
      c.source.getLast? = some name := by
  unfold baseComponents at hc
  simp only [mem_cons, not_mem_nil, or_false] at hc
  rcases hc with rfl | rfl | rfl <;> simp

/-- The name of a temporary file starts with a dot. -/
theorem ne_temporary {name file : String} {pid : Nat} (h : name.toList.head? ≠ some '.') :
    name ≠ "." ++ file ++ "." ++ toString pid ++ ".importing" := by
  rintro rfl
  apply h
  simp

theorem source_ne_importing (hc : c ∈ baseComponents source) (file : String) :
    c.source ≠ importing self imageId file := by
  intro h
  obtain ⟨name, hname, hlast⟩ := getLast?_source hc
  rw [h, getLast?_importing] at hlast
  simp only [mem_cons, not_mem_nil, or_false] at hname
  refine ne_temporary ?_ (Option.some.inj hlast).symm
  rcases hname with rfl | rfl | rfl <;> decide

theorem componentPath_ne_importing {file : String} (hfile : file.toList.head? ≠ some '.')
    (other : String) : self.componentPath imageId file ≠ importing self imageId other := by
  intro h
  have hlast := congrArg List.getLast? h
  rw [getLast?_componentPath, getLast?_importing] at hlast
  exact ne_temporary hfile (Option.some.inj hlast)

theorem importing_injective {a b : String}
    (h : importing self imageId a = importing self imageId b) : a = b := by
  have hlast := congrArg List.getLast? h
  rw [getLast?_importing, getLast?_importing] at hlast
  have hchars := congrArg String.toList (Option.some.inj hlast)
  simp only [String.toList_append, append_assoc] at hchars
  have hnames := append_cancel_left hchars
  rw [← append_assoc, ← append_assoc, ← append_assoc, ← append_assoc] at hnames
  exact String.toList_injective (append_cancel_right (append_cancel_right
    (append_cancel_right hnames)))

theorem head?_file (hc : c ∈ baseComponents source) : c.file.toList.head? ≠ some '.' := by
  unfold baseComponents at hc
  simp only [mem_cons, not_mem_nil, or_false] at hc
  rcases hc with rfl | rfl | rfl <;> simp

theorem apart_baseComponents (self : Handle) (imageId : Id) (source : Path) :
    (baseComponents source).Pairwise (Apart self imageId) := by
  have hapart : ∀ c ∈ baseComponents source, ∀ c' ∈ baseComponents source,
      c.file ≠ c'.file → c'.source.getLast? ≠ some c.file → Apart self imageId c c' := by
    intro c hc c' hc' hne hsource
    constructor
    · exact source_ne_importing hc' _
    · intro h
      rw [h, getLast?_componentPath] at hsource
      exact hsource rfl
    · exact fun h => hne (importing_injective h).symm
    · exact (componentPath_ne_importing (head?_file hc) _).symm
    · exact componentPath_ne_importing (head?_file hc') _
    · exact fun h => hne (componentPath_injective h).symm
  unfold baseComponents at *
  refine pairwise_cons.2 ⟨?_, pairwise_cons.2 ⟨?_, pairwise_singleton _ _⟩⟩
  · intro c' hc'
    refine hapart _ mem_cons_self _ (mem_cons_of_mem _ hc') ?_ ?_ <;>
      simp only [mem_cons, not_mem_nil, or_false] at hc' <;>
      rcases hc' with rfl | rfl <;> simp
  · intro c' hc'
    refine hapart _ (by simp) _ (mem_cons_of_mem _ (mem_cons_of_mem _ hc')) ?_ ?_ <;>
      simp only [mem_cons, not_mem_nil, or_false] at hc' <;> subst hc' <;> simp

/-- The files of a component are below its own image only. -/
theorem recorded_apart {j : Id} {image : ImageManifest} {f : Path × String}
    (hf : f ∈ recorded self j image) (hj : j ≠ imageId) (file : String) :
    f.1 ≠ importing self imageId file ∧ f.1 ≠ self.componentPath imageId file := by
  have hbelow : ∃ p, f.1 = self.imageRoot j ++ p := by
    unfold recorded at hf
    rcases mem_append.1 hf with hf | hf
    · obtain ⟨e, -, he⟩ := mem_filterMap.1 hf
      obtain ⟨p, -, rfl⟩ := Option.map_eq_some_iff.1 he
      exact ⟨p, rfl⟩
    · obtain ⟨e, -, he⟩ := mem_filterMap.1 hf
      obtain ⟨p, -, rfl⟩ := Option.map_eq_some_iff.1 he
      exact ⟨_, rfl⟩
  obtain ⟨p, hp⟩ := hbelow
  have hroot : ∀ q, f.1 ≠ self.imageRoot imageId ++ q := by
    intro q hq
    rw [hp] at hq
    unfold Handle.imageRoot at hq
    simp only [append_assoc, cons_append, nil_append] at hq
    have hids := append_cancel_left hq
    apply hj
    injection hids with _ hids
    injection hids with hid _
    cases j
    cases imageId
    exact congrArg Id.mk hid
  constructor
  · unfold importing Handle.componentsDir
    rw [append_assoc]
    exact hroot _
  · unfold Handle.componentPath Handle.componentsDir
    rw [append_assoc]
    exact hroot _

/-- The manifest of an image is no component file of the import. -/
theorem manifestPath_apart (j : Id) (file : String) :
    self.manifestPath j ≠ importing self imageId file ∧
      self.manifestPath j ≠ self.componentPath imageId file := by
  have hlength : ∀ name, self.manifestPath j ≠ self.componentsDir imageId ++ [name] := by
    intro name h
    have hsame := congrArg List.length h
    simp [Handle.manifestPath, Handle.componentsDir, Handle.imageRoot] at hsame
  exact ⟨hlength _, hlength _⟩

/-! ## The copies -/

/-- What the copies of some components do: they change their temporary files, and put the bytes of
a source in the place of a component file. -/
structure Touches (handle : Handle) (imageId : Id) (cs : List BaseComponent) (t t' : FileTree) :
    Prop where
  others : ∀ q, (∀ c ∈ cs, q ≠ importing handle imageId c.file ∧
    q ≠ handle.componentPath imageId c.file) → t'.look q = t.look q
  places : ∀ c ∈ cs, t'.look (handle.componentPath imageId c.file) =
      t.look (handle.componentPath imageId c.file) ∨
    ∃ bytes, t.look c.source = some (.file bytes) ∧
      t'.look (handle.componentPath imageId c.file) = some (.file bytes)

/-- Every component was copied: the bytes of its source are in its place, and its temporary file
is gone. -/
def Moved (self : Handle) (imageId : Id) (cs : List BaseComponent) (t t' : FileTree) : Prop :=
  ∀ c ∈ cs, ∃ bytes, t.look c.source = some (.file bytes) ∧
    t'.look (self.componentPath imageId c.file) = some (.file bytes) ∧
      t'.look (importing self imageId c.file) = none

theorem Touches.refl (cs : List BaseComponent) (t : FileTree) : Touches self imageId cs t t :=
  ⟨fun _ _ => rfl, fun _ _ => .inl rfl⟩

/-- Everything but one file is the same. -/
def Aside (p : Path) (t t' : FileTree) : Prop := ∀ q, q ≠ p → t'.look q = t.look q

theorem Aside.touches (h : Aside (importing self imageId c.file) t t')
    (hplace : self.componentPath imageId c.file ≠ importing self imageId c.file) :
    Touches self imageId [c] t t' := by
  constructor
  · intro q hq
    exact h q (hq c mem_cons_self).1
  · intro c' hc'
    rw [mem_singleton.1 hc']
    exact .inl (h _ hplace)

variable {good : Store → Outcome → Prop} {X : Error → Store → Prop}

/-- Reading a file and writing it to another one. -/
theorem ends_copyParts {q : Path} {Q : List UInt8 → Store → Prop}
    (hX : ∀ e t, Aside q s.files t → X e (s.withFiles t))
    (h : ∀ bytes t, s.files.look p = some (.file bytes) → s.files.write q bytes = some t →
      Q bytes (s.withFiles t)) : Ends good Q X (copyParts p q) s := by
  have hsame : ∀ e, X e s := fun e => hX e s.files fun _ _ => rfl
  have hother : ∀ {bytes t}, s.files.write q bytes = some t → Aside q s.files t := by
    intro bytes t ht r hr
    rw [look_write ht, if_neg hr]
  refine Ends.ask fun o ho => ?_
  rw [ends_act]
  dsimp only [id]
  split
  · next bytes hbytes =>
    cases o.fault with
    | some detail =>
      refine Ends.bind (M := fun _ s' => ∃ t, Aside q s.files t ∧ s' = s.withFiles t)
        (ends_perform (fun _ => hsame) fun t ht => ⟨t, hother ht, rfl⟩) ?_
      rintro _ _ ⟨t, ht, rfl⟩
      exact hX _ t ht
    | none =>
      refine Ends.bind (M := fun _ s' => Q bytes s') (ends_writeAll ?_ (fun _ _ => hsame) ?_) ?_
      · intro o _ _ t e ht
        exact hX e t (hother ht)
      · exact fun t ht => h bytes t hbytes ht
      · exact fun _ _ hQ => hQ
  · exact hsame _

/-- The digest of a component of the base, if it is there. -/
def copiedDigest (t : FileTree) (c : BaseComponent) : Option String :=
  match t.look c.source with
  | some (.file bytes) => some (sha256 bytes)
  | _ => none

/-- A component is moved into its place, or its temporary file alone has changed. -/
theorem ends_copyComponentWithProgress (hsource : c.source ≠ importing self imageId c.file)
    (hplace : self.componentPath imageId c.file ≠ importing self imageId c.file) :
    Ends good
      (fun digest s' => Touches self imageId [c] s.files s'.files ∧
        Moved self imageId [c] s.files s'.files ∧ copiedDigest s.files c = some digest)
      (fun _ s' => Touches self imageId [c] s.files s'.files)
      (copyComponentWithProgress c.source (importing self imageId c.file)
        (self.componentPath imageId c.file)) s := by
  generalize htemporary : importing self imageId c.file = temporary at *
  have hfails : ∀ e : Error, ∀ t, Aside temporary s.files t →
      (fun (_ : Error) (s' : Store) => Touches self imageId [c] s.files s'.files) e
        (s.withFiles t) := by
    intro _ t ht
    rw [← htemporary] at ht hplace
    exact ht.touches hplace
  refine Ends.bind (M := fun _ s' => s' = s) (ends_change
    (fun _ _ _ e => hfails e _ fun _ _ => rfl) (fun _ e => hfails e _ fun _ _ => rfl) ?_) ?_
  · intro t ht
    split at ht
    · cases ht
    · cases ht
      rfl
  intro _ s₁ hs₁
  rw [hs₁]
  refine Ends.bind (M := fun _ s' => ∃ t, Aside temporary s.files t ∧ s' = s.withFiles t)
    (ends_change (fun _ _ _ e => hfails e _ fun _ _ => rfl)
      (fun _ e => hfails e _ fun _ _ => rfl) ?_) ?_
  · intro t ht
    refine ⟨t, fun q hq => ?_, rfl⟩
    rw [look_write ht, if_neg hq]
  rintro _ _ ⟨t₂, h₂, rfl⟩
  refine Ends.bind (M := fun bytes s' => ∃ t, Aside temporary s.files t ∧ s' = s.withFiles t ∧
    s.files.look c.source = some (.file bytes) ∧ t.look temporary = some (.file bytes))
    (ends_copyParts (fun e t ht => hfails e t fun q hq => (ht q hq).trans (h₂ q hq)) ?_) ?_
  · intro bytes t hbytes ht
    refine ⟨t, fun q hq => ?_, rfl, ?_, ?_⟩
    · rw [look_write ht, if_neg hq]
      exact h₂ q hq
    · rw [← h₂ c.source hsource]
      exact hbytes
    · rw [look_write ht, if_pos rfl]
  rintro bytes _ ⟨t₃, h₃, rfl, hbytes, hstored⟩
  have hsync : ∀ (U : Unit → Store → Prop), U () (s.withFiles t₃) → Ends good U
      (fun _ s' => Touches self imageId [c] s.files s'.files) (sync temporary)
      (s.withFiles t₃) := by
    intro U hU
    refine ends_change (fun _ _ _ e => hfails e _ h₃) nofun fun t ht => ?_
    cases ht
    exact hU
  refine Ends.seq (hsync _ ?_)
  refine Ends.seq (hsync _ ?_)
  refine Ends.seq (ends_change (fun _ _ _ e => hfails e _ h₃) (fun _ e => hfails e _ h₃)
      fun t ht => ?_)
  obtain ⟨-, hlook⟩ := look_rename_file ht (Ne.symm hplace) hstored
  have hmoved : t.look (self.componentPath imageId c.file) = some (.file bytes) := by
    rw [hlook, if_pos rfl]
  refine ⟨?_, ?_, ?_⟩
  · constructor
    · intro q hq
      obtain ⟨hqt, hqp⟩ := hq c mem_cons_self
      rw [htemporary] at hqt
      rw [withFiles_files, hlook, if_neg hqp, if_neg hqt]
      exact h₃ q hqt
    · intro c' hc'
      rw [mem_singleton.1 hc']
      exact .inr ⟨bytes, hbytes, hmoved⟩
  · intro c' hc'
    rw [mem_singleton.1 hc', htemporary]
    refine ⟨bytes, hbytes, hmoved, ?_⟩
    rw [withFiles_files, hlook, if_neg (Ne.symm hplace), if_pos rfl]
  · unfold copiedDigest
    rw [hbytes]

/-- A report changes nothing. -/
theorem ends_notify {U : Unit → Store → Prop}
    (hX : ∀ o, good s o → o.fault ≠ none → ∀ e, X e s) (h : U () s) : Ends good U X notify s := by
  refine Ends.ask fun o ho => ?_
  cases hfault : o.fault with
  | some detail => exact hX o ho (by simp [hfault]) _
  | none => exact h

theorem ends_lockWorkspace {U : Unit → Store → Prop}
    (hX : ∀ o, good s o → o.fault ≠ none → ∀ e, X e s) (h : U () s) :
    Ends good U X lockWorkspace s := by
  refine Ends.ask fun o ho => ?_
  cases hfault : o.fault with
  | some detail => exact hX o ho (by simp [hfault]) _
  | none => exact h

variable {cs : List BaseComponent}

/-- The copies of one component and of the rest, whose files are others. -/
theorem Touches.cons (h : Touches self imageId [c] t t')
    (h' : Touches self imageId cs t' t'') (hapart : ∀ c' ∈ cs, Apart self imageId c c') :
    Touches self imageId (c :: cs) t t'' := by
  constructor
  · intro q hq
    rw [h'.others q fun c' hc' => hq c' (mem_cons_of_mem _ hc')]
    refine h.others q fun c' hc' => ?_
    rw [mem_singleton.1 hc']
    exact hq c mem_cons_self
  · intro c' hc'
    rcases mem_cons.1 hc' with rfl | hc'
    · rw [h'.others _ fun d hd => ⟨(hapart d hd).temporary_place.symm,
        (hapart d hd).place_place.symm⟩]
      exact h.places c' mem_cons_self
    · have hnot : ∀ q, q ≠ importing self imageId c.file → q ≠ self.componentPath imageId c.file →
          t'.look q = t.look q := by
        intro q hqt hqp
        refine h.others q fun d hd => ?_
        rw [mem_singleton.1 hd]
        exact ⟨hqt, hqp⟩
      have hc := hapart c' hc'
      rw [← hnot _ hc.place_temporary hc.place_place, ← hnot _ hc.source_temporary hc.source_place]
      exact h'.places c' hc'

theorem Moved.cons (h : Moved self imageId [c] t t')
    (ht : Touches self imageId [c] t t') (h' : Moved self imageId cs t' t'')
    (ht' : Touches self imageId cs t' t'') (hapart : ∀ c' ∈ cs, Apart self imageId c c') :
    Moved self imageId (c :: cs) t t'' := by
  intro c' hc'
  rcases mem_cons.1 hc' with rfl | hc'
  · rw [ht'.others _ fun d hd => ⟨(hapart d hd).temporary_place.symm,
        (hapart d hd).place_place.symm⟩,
      ht'.others _ fun d hd => ⟨(hapart d hd).temporary_temporary.symm,
        (hapart d hd).place_temporary.symm⟩]
    exact h c' mem_cons_self
  · have hc := hapart c' hc'
    have hsource : t'.look c'.source = t.look c'.source := by
      refine ht.others _ fun d hd => ?_
      rw [mem_singleton.1 hd]
      exact ⟨hc.source_temporary, hc.source_place⟩
    rw [← hsource]
    exact h' c' hc'

/-- The copies of some components, with their digests. -/
theorem ends_copyComponents (hsource : ∀ c ∈ cs, c.source ≠ importing self imageId c.file)
    (hplace : ∀ c ∈ cs, self.componentPath imageId c.file ≠ importing self imageId c.file)
    (hapart : cs.Pairwise (Apart self imageId)) :
    Ends good
      (fun digests s' => Touches self imageId cs s.files s'.files ∧
        Moved self imageId cs s.files s'.files ∧
        digests = cs.filterMap fun c => (copiedDigest s.files c).map fun digest => (c.name, digest))
      (fun _ s' => Touches self imageId cs s.files s'.files)
      (copyComponents self imageId cs) s := by
  induction cs generalizing s with
  | nil => exact ⟨Touches.refl _ _, nofun, rfl⟩
  | cons c cs ih =>
    obtain ⟨hc, hcs⟩ := pairwise_cons.1 hapart
    have hnone : Touches self imageId (c :: cs) s.files s.files := Touches.refl _ _
    refine Ends.seq (ends_notify (fun _ _ _ _ => hnone) ?_)
    refine Ends.seq (ends_notify (fun _ _ _ _ => hnone) ?_)
    have hcopy : Ends good _ _ _ s := ends_copyComponentWithProgress
      (hsource c mem_cons_self) (hplace c mem_cons_self)
    refine Ends.bind (hcopy.mono (fun _ _ h => h) fun _ s' h => h.cons (Touches.refl _ _) hc) ?_
    rintro digest s₃ ⟨htouches, hmoved, hdigest⟩
    refine Ends.seq (ends_notify (fun _ _ _ _ => htouches.cons (Touches.refl _ _) hc) ?_)
    have hrest := ih (s := s₃) (fun d hd => hsource d (mem_cons_of_mem _ hd))
      (fun d hd => hplace d (mem_cons_of_mem _ hd)) hcs
    refine Ends.bind (hrest.mono (fun _ _ h => h) fun _ s' h => htouches.cons h hc) ?_
    rintro digests s₅ ⟨htouches', hmoved', rfl⟩
    refine ⟨htouches.cons htouches' hc, hmoved.cons htouches hmoved' htouches' hc, ?_⟩
    have hlater : cs.filterMap (fun d => (copiedDigest s₃.files d).map fun digest =>
          (d.name, digest)) =
        cs.filterMap fun d => (copiedDigest s.files d).map fun digest => (d.name, digest) := by
      refine filterMap_congr fun d hd => ?_
      have hd := hc d hd
      unfold copiedDigest
      rw [htouches.others _ fun d' hd' => by
        rw [mem_singleton.1 hd']
        exact ⟨hd.source_temporary, hd.source_place⟩]
    rw [hlater, filterMap_cons, hdigest]
    rfl

/-! ## Registering -/

/-- Once the manifest is there, no call fails. -/
theorem OnTime.fault {o : Outcome} (h : OnTime self imageId t s o)
    (hpublished : s.files.look (self.manifestPath imageId) ≠ t.look (self.manifestPath imageId)) :
    o.fault = none := h.resolve_left hpublished

/-- Where no call fails, one that is not refused has its effect. -/
theorem ends_change_of_published {U : Unit → Store → Prop} {call : Call}
    {f : FileTree → Option FileTree}
    (hpublished : s.files.look (self.manifestPath imageId) ≠ t.look (self.manifestPath imageId))
    (ht : f s.files = some t') (h : U () (s.withFiles t')) :
    Ends (OnTime self imageId t) U X (change call p f) s := by
  refine ends_change (fun o ho hfault => absurd (ho.fault hpublished) hfault) ?_ ?_
  · intro hnone
    rw [ht] at hnone
    cases hnone
  · intro t'' ht''
    rw [ht] at ht''
    cases ht''
    exact h

/-- Reading a manifest changes nothing. -/
theorem ends_readManifest_keeps (expected : String) :
    Ends good (fun _ s' => s' = s) (fun _ s' => Adds [] s.files s'.files)
      (readManifest yaml p expected) s := by
  have hstay : ∀ e : Error, (fun (_ : Error) (s' : Store) => Adds [] s.files s'.files) e s :=
    fun _ => Adds.refl _ _
  refine Ends.seq (ends_readFile (fun _ _ _ => hstay) (fun _ => hstay) fun bytes _ => ?_)
  cases yaml.readManifest bytes with
  | error e => exact Adds.refl _ _
  | ok image =>
    refine Ends.bind (M := fun _ s' => s' = s)
      (ends_ofExcept.2 ⟨fun _ _ => rfl, fun e _ => hstay e⟩) ?_
    exact fun _ _ h => h

/-- A manifest is published where none was, or a hidden file alone is new. -/
theorem ends_publishManifest_onTime
    (hsame : s.files.look (self.manifestPath imageId) = t.look (self.manifestPath imageId))
    (manifest : ImageManifest) :
    Ends (OnTime self imageId t)
      (fun _ s' => s'.files.look (self.manifestPath imageId) ≠
        t.look (self.manifestPath imageId))
      (fun _ s' => Adds [] s.files s'.files)
      (publishManifest self yaml (self.manifestPath imageId) manifest) s := by
  have hstay : ∀ e : Error, (fun (_ : Error) (s' : Store) => Adds [] s.files s'.files) e s :=
    fun _ => Adds.refl _ _
  refine Ends.bind (M := fun _ s' => Adds [] s.files s'.files)
    (ends_change (fun _ _ _ => hstay) (fun _ => hstay) fun t ht => adds_createDirAll ht) ?_
  intro _ s₁ h₁
  generalize hpath : self.manifestPath imageId = path at *
  generalize htemporary : path.dropLast ++ [".manifest-" ++ toString self.pid ++ ".tmp"] = temporary
  have hhidden : Hidden temporary := ⟨_, _, htemporary.symm, by simp⟩
  have hne : path ≠ temporary := by
    rintro rfl
    rw [← hpath] at htemporary
    have hlast := congrArg List.getLast? htemporary
    unfold Handle.manifestPath at hlast
    rw [List.getLast?_concat, List.getLast?_concat] at hlast
    have hchars := congrArg (fun s => s.toList.head?) (Option.some.inj hlast)
    simp at hchars
  refine Ends.bind (M := fun _ s' => Scratch temporary s₁.files s'.files)
    (ends_change (fun _ _ _ _ => h₁) (fun _ _ => h₁) ?_) ?_
  · intro t ht
    split at ht
    · next hnone =>
      refine ⟨hnone, hhidden, fun q hq => ?_⟩
      rw [withFiles_files, look_write ht, if_neg hq]
    · cases ht
  intro _ s₂ h₂
  have hcleanup : ∀ {s' : Store}, Scratch temporary s₁.files s'.files →
      Ends (OnTime self imageId t) (fun _ s'' => Error → Adds [] s.files s''.files)
        (fun _ s'' => Error → Adds [] s.files s''.files) (removeFile temporary) s' := by
    intro s' h'
    refine ends_change (fun _ _ _ _ _ => h₁.trans h'.adds) (fun _ _ _ => h₁.trans h'.adds) ?_
    intro t' ht' _
    refine h₁.trans (h'.trans fun q hq => ?_).adds
    rw [withFiles_files, look_removeFile ht', if_neg hq]
  refine ends_onError (Ends.bind (M := fun _ s' => Scratch temporary s₁.files s'.files ∧
      s'.files.look temporary = some (.file (yaml.manifest manifest)))
    (ends_writeAll ?_ (fun _ _ _ => hcleanup h₂) ?_) ?_)
  · intro o _ _ t' _ ht'
    refine hcleanup (h₂.trans fun q hq => ?_)
    rw [withFiles_files, look_write ht', if_neg hq]
  · intro t' ht'
    refine ⟨h₂.trans fun q hq => ?_, ?_⟩
    · rw [withFiles_files, look_write ht', if_neg hq]
    · rw [withFiles_files, look_write ht', if_pos rfl]
  rintro _ s₃ ⟨h₃, hstored⟩
  refine Ends.seq (ends_sync (fun _ _ _ _ => hcleanup h₃) ?_)
  refine Ends.seq (ends_change (fun _ _ _ _ => hcleanup h₃) (fun _ _ => hcleanup h₃)
    fun linked hlinked => ?_)
  obtain ⟨hempty, hlook⟩ := look_link hlinked
  -- the manifest is there, and was not there before
  have hbefore : t.look path = none := by
    cases hfound : s.files.look path with
    | none => rw [← hsame, hfound]
    | some e =>
      rw [h₃.same path hne, h₁.keeps path e hfound] at hempty
      cases hempty
  have hpublished : linked.look path ≠ t.look path := by
    rw [hlook, if_pos rfl, hstored, hbefore]
    nofun
  obtain ⟨t₅, ht₅⟩ : ∃ t₅, linked.removeFile temporary = some t₅ := by
    have hfile : linked.look temporary = some (.file (yaml.manifest manifest)) := by
      rw [hlook, if_neg (Ne.symm hne), hstored]
    unfold FileTree.removeFile
    rw [hfile, ← htemporary]
    simp
  have hpublished₅ : t₅.look path ≠ t.look path := by
    rw [look_removeFile ht₅, if_neg hne]
    exact hpublished
  rw [← hpath] at hpublished hpublished₅
  refine Ends.seq (ends_change_of_published hpublished ht₅ ?_)
  refine Ends.seq (ends_change_of_published hpublished₅ rfl ?_)
  refine ends_change_of_published hpublished₅ rfl ?_
  rw [← hpath]
  exact hpublished₅

theorem ends_registerImage_onTime {manifest : ImageManifest} (hid : manifest.imageId = imageId)
    (hsame : s.files.look (self.manifestPath imageId) = t.look (self.manifestPath imageId)) :
    Ends (OnTime self imageId t)
      (fun _ s' => s'.files = s.files ∨ s'.files.look (self.manifestPath imageId) ≠
        t.look (self.manifestPath imageId))
      (fun _ s' => Adds [] s.files s'.files) (registerImage self yaml manifest) s := by
  have hstay : ∀ e : Error, (fun (_ : Error) (s' : Store) => Adds [] s.files s'.files) e s :=
    fun _ => Adds.refl _ _
  refine Ends.seq (ends_ofExcept.2 ⟨fun _ _ => ?_, fun e _ => hstay e⟩)
  rw [hid]
  refine Ends.value (ends_metadata (fun _ _ _ => hstay)) fun found _ => ?_
  refine Ends.bind (M := fun _ s' => s' = s ∨ s'.files.look (self.manifestPath imageId) ≠
    t.look (self.manifestPath imageId)) ?_ ?_
  · cases found with
    | some e =>
      refine Ends.bind (M := fun _ s' => s' = s) (ends_readManifest_keeps _) ?_
      intro existing s₃ hs₃
      rw [hs₃]
      split
      · exact Adds.refl _ _
      · exact .inl rfl
    | none =>
      exact (ends_publishManifest_onTime hsame manifest).mono (fun _ _ h => .inr h)
        fun _ _ h => h
  · intro _ s₃ h₃
    refine Ends.bind (M := fun _ s' => s'.files = s₃.files) (ends_statement ?_ nofun ?_) ?_
    · intro o ho hfault
      rcases h₃ with hs₃ | hpublished
      · rw [hs₃]
        exact hstay
      · exact absurd (ho.fault hpublished) hfault
    · exact fun _ _ => rfl
    · intro _ s₄ h₄
      rcases h₃ with hs₃ | hpublished
      · refine .inl ?_
        rw [h₄, hs₃]
      · refine .inr ?_
        rw [h₄]
        exact hpublished

/-! ## The job -/

/-- What a failing import leaves: the files of the copies, and hidden new ones. -/
structure Leaves (handle : Handle) (imageId : Id) (cs : List BaseComponent) (t t' : FileTree) :
    Prop where
  keeps : ∀ q bytes, (∀ c ∈ cs, q ≠ importing handle imageId c.file ∧
    q ≠ handle.componentPath imageId c.file) → t.look q = some (.file bytes) →
      t'.look q = some (.file bytes)
  only : ∀ q bytes, ¬ Hidden q → (∀ c ∈ cs, q ≠ importing handle imageId c.file ∧
    q ≠ handle.componentPath imageId c.file) → t'.look q = some (.file bytes) →
      t.look q = some (.file bytes)
  places : ∀ c ∈ cs, ∀ bytes, t.look (handle.componentPath imageId c.file) = some (.file bytes) →
    t'.look (handle.componentPath imageId c.file) = some (.file bytes) ∨
      ∃ copied, t.look c.source = some (.file copied) ∧
        t'.look (handle.componentPath imageId c.file) = some (.file copied)

/-- The directories, the copies and the manifest. -/
theorem Leaves.of_touches
    (h : ∀ q bytes, t'.look q = some (.file bytes) ↔ t.look q = some (.file bytes))
    (htouches : Touches self imageId cs t' t'') {t₃ : FileTree} (hadds : Adds [] t'' t₃) :
    Leaves self imageId cs t t₃ := by
  constructor
  · intro q bytes hq hfile
    apply hadds.keeps
    rw [htouches.others q hq]
    exact (h q bytes).2 hfile
  · intro q bytes hhidden hq hfile
    have hbefore := (hadds.file_iff hhidden not_mem_nil bytes).1 hfile
    rw [htouches.others q hq] at hbefore
    exact (h q bytes).1 hbefore
  · intro c hc bytes hfile
    rcases htouches.places c hc with hplace | ⟨copied, hsource, hplace⟩
    · refine .inl (hadds.keeps _ _ ?_)
      rw [hplace]
      exact (h _ bytes).2 hfile
    · exact .inr ⟨copied, (h _ copied).1 hsource, hadds.keeps _ _ hplace⟩

theorem not_hidden_manifestPath (j : Id) : ¬ Hidden (self.manifestPath j) := by
  rintro ⟨d, name, hsame, hhead⟩
  have hlast := congrArg List.getLast? hsame
  unfold Handle.manifestPath at hlast
  rw [List.getLast?_concat, List.getLast?_concat] at hlast
  cases hlast
  simp at hhead

/-- What a failing import leaves is undamaged, when its copies are harmless. -/
theorem undamaged_of_harmless (hcs : ∀ c ∈ cs, c ∈ baseComponents source ∧
    ∃ bytes, t.look c.source = some (.file bytes)) (h : Leaves self imageId cs t t')
    (hharmless : Harmless self yaml source imageId t) : Undamaged self yaml t t' := by
  constructor
  · intro j
    apply registeredImage_congr
    intro bytes
    have hq : ∀ c ∈ cs, self.manifestPath j ≠ importing self imageId c.file ∧
        self.manifestPath j ≠ self.componentPath imageId c.file :=
      fun c _ => manifestPath_apart j c.file
    exact ⟨h.only _ bytes (not_hidden_manifestPath j) hq, h.keeps _ bytes hq⟩
  · rintro j image himage f hf ⟨bytes, hbytes, hdigest⟩
    by_cases hplace : ∃ c ∈ cs, f.1 = self.componentPath imageId c.file
    · -- a copy may have taken its place
      obtain ⟨c, hc, hfc⟩ := hplace
      have hj : j = imageId := by
        by_contra hj
        exact (recorded_apart hf hj c.file).2 hfc
      rw [hj] at himage hf
      rw [hfc] at hbytes
      rcases h.places c hc bytes hbytes with hkept | ⟨copied, hsource, hcopied⟩
      · refine ⟨bytes, ?_, hdigest⟩
        rw [hfc]
        exact hkept
      · rw [← hfc] at hbytes hcopied
        exact ⟨copied, hcopied, (hharmless image himage f hf ⟨bytes, hbytes, hdigest⟩ c (hcs c hc).1
          copied hsource).2 hfc⟩
    · refine ⟨bytes, h.keeps f.1 bytes (fun c hc => ⟨?_, fun hfc => hplace ⟨c, hc, hfc⟩⟩) hbytes,
        hdigest⟩
      by_cases hj : j = imageId
      · rw [hj] at himage hf
        obtain ⟨hbase, copied, hsource⟩ := hcs c hc
        exact (hharmless image himage f hf ⟨bytes, hbytes, hdigest⟩ c hbase copied hsource).1
      · exact (recorded_apart hf hj c.file).1

/-- An import that has replaced every component file is harmless if nothing is damaged. -/
theorem harmless_of_moved (hcs : ∀ c ∈ baseComponents source,
    ∀ bytes, t.look c.source = some (.file bytes) → c ∈ cs)
    (hmoved : Moved self imageId cs t t') (h : Undamaged self yaml t t') :
    Harmless self yaml source imageId t := by
  intro image himage f hf hheld c hc bytes hbytes
  obtain ⟨after, hafter, hdigest⟩ := h.held imageId image himage f hf hheld
  obtain ⟨copied, hsource, hplace, hgone⟩ := hmoved c (hcs c hc bytes hbytes)
  rw [hbytes] at hsource
  cases hsource
  constructor
  · intro hfc
    rw [hfc, hgone] at hafter
    cases hafter
  · intro hfc
    rw [hfc, hplace] at hafter
    cases hafter
    exact hdigest

/-- A component that the base has. -/
def present (t : FileTree) (c : BaseComponent) : Bool := isFileEntry (t.look c.source)

/-- The components that the job copies are those of which the base has a file. -/
theorem filter_baseComponents (hdisk : isFileEntry (t.look (source ++ ["disk.qcow2"])) = true) :
    ((baseComponents source).filter fun c => c.name = "disk" ||
      (c.name = "firmware" && isFileEntry (t.look (source ++ ["OVMF_VARS.fd"]))) ||
      (c.name = "tpm_state" && isFileEntry (t.look (source ++ ["tpm", "tpm2-00.permall"])))) =
        (baseComponents source).filter (present t) := by
  apply filter_congr
  intro c hc
  unfold baseComponents at hc
  simp only [mem_cons, not_mem_nil, or_false] at hc
  rcases hc with rfl | rfl | rfl <;> simp [present, hdisk]

/-- Every import of a base directory that fails, at whatever call, leaves the registered images
undamaged if its copies are harmless; and one that fails when every component file is replaced
leaves them undamaged only then. -/
theorem failed_import_undamaged_of_harmless (self : Handle) (yaml : Yaml) (source : Path)
    (imageId engineTrack target : String) (s : Store) :
    Ends (OnTime self ⟨imageId⟩ s.files) (fun _ _ => True)
      (fun _ s' =>
        (Harmless self yaml source ⟨imageId⟩ s.files → Undamaged self yaml s.files s'.files) ∧
        (Moved self ⟨imageId⟩ ((baseComponents source).filter (present s.files)) s.files s'.files →
          Undamaged self yaml s.files s'.files → Harmless self yaml source ⟨imageId⟩ s.files))
      (importVmmanagerBaseJob self yaml source imageId engineTrack target) s := by
  generalize hcomponents : (baseComponents source).filter (present s.files) = cs
  have hcs : ∀ c ∈ cs, c ∈ baseComponents source ∧
      ∃ bytes, s.files.look c.source = some (.file bytes) := by
    intro c hc
    rw [← hcomponents] at hc
    obtain ⟨hbase, hpresent⟩ := mem_filter.1 hc
    exact ⟨hbase, isFileEntry_iff.1 hpresent⟩
  have hall : ∀ c ∈ baseComponents source, ∀ bytes,
      s.files.look c.source = some (.file bytes) → c ∈ cs := by
    intro c hc bytes hbytes
    rw [← hcomponents]
    exact mem_filter.2 ⟨hc, isFileEntry_iff.2 ⟨bytes, hbytes⟩⟩
  -- it is enough to say what is left
  suffices hleaves : Ends (OnTime self ⟨imageId⟩ s.files) (fun _ _ => True)
      (fun _ s' => Leaves self ⟨imageId⟩ cs s.files s'.files)
      (importVmmanagerBaseJob self yaml source imageId engineTrack target) s from
    hleaves.mono (fun _ _ _ => trivial) fun _ _ h =>
      ⟨undamaged_of_harmless hcs h, harmless_of_moved hall⟩
  have hnone : ∀ e : Error, (fun (_ : Error) (s' : Store) =>
      Leaves self ⟨imageId⟩ cs s.files s'.files) e s :=
    fun _ => Leaves.of_touches (fun _ _ => Iff.rfl) (Touches.refl _ _) (Adds.refl _ _)
  refine Ends.value ends_isFile fun r hr => ?_
  by_cases hdisk : r = false
  · rw [if_pos hdisk]
    exact hnone default
  rw [if_neg hdisk]
  rw [hr, Bool.not_eq_false] at hdisk
  refine Ends.value ends_isFile fun firmware hfirmware => ?_
  refine Ends.value ends_isFile fun tpm htpm => ?_
  rw [hfirmware, htpm]
  dsimp only
  rw [filter_baseComponents hdisk, hcomponents]
  refine Ends.seq (ends_notify (fun _ _ _ => hnone) ?_)
  refine Ends.seq (ends_notify (fun _ _ _ => hnone) ?_)
  refine Ends.bind (M := fun id s' => s' = s ∧ id = ⟨imageId⟩)
    (ends_ofExcept.2 ⟨fun id hid => ⟨rfl, ?_⟩, fun e _ => hnone e⟩) ?_
  · rw [← Id.new_ok hid]
  intro id s₆ h₆
  obtain ⟨hs₆, hid⟩ := h₆
  rw [hs₆, hid]
  refine Ends.seq (ends_ofExcept.2 ⟨fun track _ => ?_, fun e _ => hnone e⟩)
  refine Ends.seq (ends_lockWorkspace (fun _ _ _ => hnone) ?_)
  refine Ends.seq (ends_change (fun _ _ _ => hnone) (fun _ => hnone) fun t ht => ?_)
  have hfiles := file_createDirAll ht
  have hapart : cs.Pairwise (Apart self ⟨imageId⟩) := by
    rw [← hcomponents]
    exact (apart_baseComponents self ⟨imageId⟩ source).filter _
  have hcopies : Ends (OnTime self ⟨imageId⟩ s.files) _ _ (copyComponents self ⟨imageId⟩ cs)
      (s.withFiles t) := ends_copyComponents
    (fun c hc => source_ne_importing (hcs c hc).1 c.file)
    (fun c hc => componentPath_ne_importing (head?_file (hcs c hc).1) c.file) hapart
  refine Ends.bind (hcopies.mono (fun _ _ h => h)
    fun _ _ h => Leaves.of_touches hfiles h (Adds.refl _ _)) ?_
  rintro digests s₉ ⟨htouches, -, -⟩
  have hcopied : ∀ e : Error, (fun (_ : Error) (s' : Store) =>
      Leaves self ⟨imageId⟩ cs s.files s'.files) e s₉ :=
    fun _ => Leaves.of_touches hfiles htouches (Adds.refl _ _)
  refine Ends.seq (ends_notify (fun _ _ _ => hcopied) ?_)
  refine Ends.seq (ends_notify (fun _ _ _ => hcopied) ?_)
  have hmanifest : s₉.files.look (self.manifestPath ⟨imageId⟩) =
      s.files.look (self.manifestPath ⟨imageId⟩) := by
    rw [htouches.others _ fun c _ => manifestPath_apart _ c.file, withFiles_files,
      look_createDirAll ht, if_neg]
    intro hbelow
    have hlength := hbelow.length_le
    have hname := hbelow.eq_of_length_le (by
      simp [Handle.manifestPath, Handle.componentsDir, Handle.imageRoot])
    simp [Handle.manifestPath, Handle.componentsDir] at hname
  have hregister : Ends _ _ _ (registerImage self yaml
      (importedManifest ⟨imageId⟩ track target digests)) s₉ :=
    ends_registerImage_onTime rfl hmanifest
  refine Ends.bind (hregister.mono (fun _ _ h => h)
    fun _ _ h => Leaves.of_touches hfiles htouches h) ?_
  intro _ s₁₂ h₁₂
  -- a report fails only where nothing was published
  have hlate : ∀ o, OnTime self ⟨imageId⟩ s.files s₁₂ o → o.fault ≠ none →
      Leaves self ⟨imageId⟩ cs s.files s₁₂.files := by
    intro o ho hfault
    rcases h₁₂ with hs₁₂ | hpublished
    · rw [hs₁₂]
      exact Leaves.of_touches hfiles htouches (Adds.refl _ _)
    · exact absurd (ho.fault hpublished) hfault
  refine Ends.seq (ends_notify (fun o ho hfault _ => hlate o ho hfault) ?_)
  exact ends_notify (fun o ho hfault _ => hlate o ho hfault) trivial

/-! ## A conflicting import -/

/-- The manifest of an image whose disk is the byte 1. -/
def registeredManifest : ImageManifest where
  imageId := ⟨"win11"⟩
  engineTrack := ⟨"qemu"⟩
  supportedEngineTracks := []
  target := "x86_64-softmmu"
  components := componentsOf (some (sha256 [1])) none none
  diskSha256 := sha256 [1]
  firmwareSha256 := none
  tpmStateSha256 := none

/-- A serialiser that reads this manifest. -/
def readsRegistered : Yaml where
  manifest _ := []
  readManifest _ := .ok registeredManifest
  bundle _ := []
  readBundle _ := .error "not read"

/-- A workspace with the image, and a base directory with another disk. -/
def registeredStore : Store where
  tables := {}
  files := .dir [
    ("base", .dir [("disk.qcow2", .file [2])]),
    ("workspace", .dir [("images", .dir [("win11", .dir [
      ("manifest.yaml", .file []), ("components", .dir [("disk.qcow2", .file [1])])])])])]

/-- Whether an import has failed and the store has the new disk. -/
def failedWithNewDisk (self : Handle) (result : Except Error Unit × Store) : Bool :=
  (match result.1 with
    | .ok _ => false
    | .error e => decide (e = .imageConflict "win11")) &&
  decide (result.2.files.look (self.componentPath ⟨"win11"⟩ "disk.qcow2") = some (.file [2]))

/-- The import reports a conflict and leaves its disk in the place of the registered one. -/
theorem not_failed_import_undamaged : ¬ ∀ (self : Handle) (yaml : Yaml) (source : Path)
    (imageId engineTrack target : String) (s : Store),
    Ends (fun _ _ => True) (fun _ _ => True)
      (fun _ s' => Undamaged self yaml s.files s'.files)
      (importVmmanagerBaseJob self yaml source imageId engineTrack target) s := by
  intro h
  let self : Handle := { root := ["workspace"], pid := 7 }
  have hrun := h self readsRegistered ["base"] "win11" "qemu" "x86_64-softmmu" registeredStore
  obtain ⟨r, s', hcheck, -, hX⟩ := hrun.of_eval (fun _ _ => true) {} [] (failedWithNewDisk self)
    (fun _ _ _ => trivial) (by decide +kernel)
  unfold failedWithNewDisk at hcheck
  rw [Bool.and_eq_true, decide_eq_true_eq] at hcheck
  obtain ⟨herror, hnew⟩ := hcheck
  cases r with
  | ok _ => cases herror
  | error e =>
    have himage : registeredImage self readsRegistered registeredStore.files ⟨"win11"⟩ =
        some registeredManifest := by decide +kernel
    have hheld : Held registeredStore.files (self.componentPath ⟨"win11"⟩ "disk.qcow2",
        sha256 [1]) := ⟨[1], by decide +kernel, by decide +kernel⟩
    obtain ⟨bytes, hbytes, hdigest⟩ := (hX e rfl).held ⟨"win11"⟩ registeredManifest himage _
      (by decide +kernel) hheld
    rw [hnew] at hbytes
    cases hbytes
    revert hdigest
    decide +kernel

end ImageDamage

end MachineEmu
