import MachineEmu.Resolution.Engine
import MachineEmu.Safety.BundleRoundTrip
import MachineEmu.Safety.ImageDamage
import MachineEmu.Storage.Components

/-!
# Artifacts of imported images

The document of an image binds every component to an object of the workspace. The imports put the
component files into the directory of the image and nothing into the object store; only the
migration of a legacy tree does.

* `artifacts`, `bindingPath` — what a document binds, and the file that a launch takes for it.
* `Bound` — every artifact is a file with the recorded digest.
* `SameObjects` — an import changes no object.
* `documents_bound_iff` — a document is bound exactly if the objects were there before the import.
-/

namespace MachineEmu

open Lib Prog Store ImageImport ImageDamage List

namespace BoundArtifacts

/-! ## Documents -/

/-- The path and the digest of the artifact of a component. -/
def artifactOf (component : Json) : Option (String × String) := do
  let artifact ← component.field "artifact"
  let path ← (artifact.field "path").bind Json.asStr
  let digest ← (artifact.field "digest").bind Json.asStr
  return (path, digest)

/-- The artifacts of the components of an image. -/
def artifacts (document : Document) : List (String × String) :=
  match document.spec.field "components" with
  | some (.obj components) => components.filterMap fun e => artifactOf e.2
  | _ => []

/-- The file that a launch binds to a path of a document: a relative path is below the workspace.
Source: `api/lifecycle.rs`. -/
def bindingPath (self : Handle) (path : String) : Path :=
  let parts := (path.toList.splitOn '/').map String.ofList
  if path.toList.head? = some '/' then parts.filter (· ≠ "") else self.root ++ parts

/-- Every artifact of a document is a file of the workspace with its digest. -/
def Bound (self : Handle) (document : Document) (t : FileTree) : Prop :=
  ∀ artifact ∈ artifacts document, ∃ bytes,
    t.look (bindingPath self artifact.1) = some (.file bytes) ∧
      sha256 bytes = plainDigest artifact.2

/-- The object store has the file of a digest. -/
def HasObject (self : Handle) (t : FileTree) (digest : String) : Prop :=
  ∃ bytes, t.look (objectPath self (stripDigest digest)) = some (.file bytes) ∧
    sha256 bytes = plainDigest digest

variable {self : Handle} {yaml : Yaml} {source : Path} {t t' t'' : FileTree} {s : Store}
  {image : ImageManifest}

theorem artifactOf_componentDocument (path sha256 digest : String) :
    artifactOf (componentDocument path sha256 digest) =
      some ("objects/sha256/" ++ digest, "sha256:" ++ digest) := rfl

theorem artifacts_manifestDocument (h : image.components.entries ≠ []) :
    artifacts (manifestDocument image) = image.components.entries.map fun e =>
      ("objects/sha256/" ++ stripDigest e.2.sha256, "sha256:" ++ stripDigest e.2.sha256) := by
  have hcomponents : (manifestDocument image).spec.field "components" =
      some (componentDocuments image) := rfl
  have hempty : ¬ image.components.entries.isEmpty = true := by simpa using h
  unfold artifacts
  rw [hcomponents, componentDocuments, if_neg hempty]
  dsimp only
  rw [filterMap_map]
  simp only [Function.comp_def, artifactOf_componentDocument, filterMap_eq_map']

/-! ## Objects -/

variable {digest : String}

theorem notMem_of_isDigest (h : isDigest digest = true) {c : Char}
    (hc : isHexDigit c = false) : c ∉ (stripDigest digest).toList := by
  unfold isDigest at h
  rw [Bool.and_eq_true, all_eq_true] at h
  intro hmem
  rw [h.2 c hmem] at hc
  cases hc

theorem bindingPath_object (h : isDigest digest = true) :
    bindingPath self ("objects/sha256/" ++ stripDigest digest) =
      objectPath self (stripDigest digest) := by
  have hslash := notMem_of_isDigest h (c := '/') (by decide)
  have hparts : ("objects/sha256/" ++ stripDigest digest).toList =
      ['/'].intercalate ["objects".toList, "sha256".toList, (stripDigest digest).toList] := by
    have hfront : "objects/sha256/".toList =
        "objects".toList ++ ['/'] ++ ("sha256".toList ++ ['/']) := by decide
    rw [String.toList_append, hfront, List.intercalate_cons_cons, List.intercalate_cons_cons,
      intercalate_singleton, append_assoc]
  have hnone : ∀ l ∈ ["objects".toList, "sha256".toList, (stripDigest digest).toList],
      '/' ∉ l := by
    simp only [forall_mem_cons, not_mem_nil, false_imp_iff, implies_true, and_true]
    exact ⟨by decide, by decide, hslash⟩
  have hsplit := splitOn_intercalate '/' hnone (by simp)
  have hhead : ("objects/sha256/" ++ stripDigest digest).toList.head? = some 'o' := by
    have hfront : "objects/sha256/".toList = 'o' :: "bjects/sha256/".toList := by decide
    rw [String.toList_append, hfront]
    rfl
  unfold bindingPath
  rw [hhead, if_neg (by decide), hparts, hsplit]
  simp [objectPath]

/-- The document of a manifest with components is bound if the store has their objects. -/
theorem bound_iff (hne : image.components.entries ≠ [])
    (hdigests : ∀ e ∈ image.components.entries, isDigest e.2.sha256 = true) :
    Bound self (manifestDocument image) t ↔
      ∀ e ∈ image.components.entries, HasObject self t e.2.sha256 := by
  unfold Bound
  rw [artifacts_manifestDocument hne, forall_mem_map]
  refine forall₂_congr fun e he => ?_
  unfold HasObject plainDigest
  rw [bindingPath_object (hdigests e he), stripDigest_sha256]

/-- No object is another file than before. -/
def SameObjects (self : Handle) (t t' : FileTree) : Prop :=
  ∀ digest, isDigest digest = true → ∀ bytes,
    t'.look (objectPath self (stripDigest digest)) = some (.file bytes) ↔
      t.look (objectPath self (stripDigest digest)) = some (.file bytes)

theorem SameObjects.trans (h : SameObjects self t t') (h' : SameObjects self t' t'') :
    SameObjects self t t'' := fun digest hdigest bytes =>
  (h' digest hdigest bytes).trans (h digest hdigest bytes)

theorem SameObjects.hasObject_iff (h : SameObjects self t t')
    (hdigest : isDigest digest = true) : HasObject self t' digest ↔ HasObject self t digest := by
  unfold HasObject
  simp only [h digest hdigest]

/-- An object is no file of an image. -/
theorem objectPath_ne_imageRoot (digest : String) (imageId : Id) (rest : Path) :
    objectPath self digest ≠ self.imageRoot imageId ++ rest := by
  intro h
  unfold objectPath Handle.imageRoot at h
  rw [append_assoc] at h
  have htail := append_cancel_left h
  exact absurd (List.cons.inj htail).1 (by decide)

theorem not_hidden_objectPath (h : isDigest digest = true) :
    ¬ Hidden (objectPath self (stripDigest digest)) := by
  rintro ⟨d, name, hsame, hhead⟩
  have hlast := congrArg List.getLast? hsame
  have hobject : objectPath self (stripDigest digest) =
      (self.root ++ ["objects", "sha256"]) ++ [stripDigest digest] := by
    simp [objectPath]
  rw [hobject, List.getLast?_concat, List.getLast?_concat] at hlast
  cases hlast
  exact notMem_of_isDigest h (c := '.') (by decide) (mem_of_head? hhead)

theorem sameObjects_of_adds {destinations : List Path} (h : Adds destinations t t')
    (hd : ∀ q ∈ destinations, ∃ imageId rest, q = self.imageRoot imageId ++ rest) :
    SameObjects self t t' := by
  intro digest hdigest bytes
  refine h.file_iff (not_hidden_objectPath hdigest) (fun hmem => ?_) bytes
  obtain ⟨imageId, rest, hq⟩ := hd _ hmem
  exact objectPath_ne_imageRoot _ imageId rest hq

/-! ## Base directories -/

/-- The digests of the components of a base directory, by name. -/
def baseDigests (digest : BaseComponent → Option String) (source : Path) :
    List (String × String) :=
  (baseComponents source).filterMap fun c => (digest c).map fun d => (c.name, d)

/-- The digest that the import of a base directory records: that of the file which the image
already has, or else that of the source. -/
def placedDigest (self : Handle) (imageId : Id) (t : FileTree) (c : BaseComponent) :
    Option String :=
  match t.look c.source with
  | some (.file bytes) =>
    match t.look (self.componentPath imageId c.file) with
    | some (.file old) => some (sha256 old)
    | _ => some (sha256 bytes)
  | _ => none

theorem lookup_baseDigests (digest : BaseComponent → Option String) (source : Path) :
    (baseDigests digest source).lookup "disk" =
        digest ⟨"disk", source ++ ["disk.qcow2"], "disk.qcow2"⟩ ∧
      (baseDigests digest source).lookup "firmware" =
        digest ⟨"firmware", source ++ ["OVMF_VARS.fd"], "firmware.fd"⟩ ∧
      (baseDigests digest source).lookup "tpm_state" =
        digest ⟨"tpm_state", source ++ ["tpm", "tpm2-00.permall"], "tpm-state"⟩ := by
  unfold baseDigests baseComponents
  simp only [filterMap_cons, filterMap_nil]
  cases digest ⟨"disk", source ++ ["disk.qcow2"], "disk.qcow2"⟩ <;>
    cases digest ⟨"firmware", source ++ ["OVMF_VARS.fd"], "firmware.fd"⟩ <;>
    cases digest ⟨"tpm_state", source ++ ["tpm", "tpm2-00.permall"], "tpm-state"⟩ <;>
    simp [List.lookup_cons]

theorem forall_componentsOf {P : String → Prop} (disk firmware tpm : Option String) :
    (∀ e ∈ (componentsOf disk firmware tpm).entries, P e.2.sha256) ↔
      ∀ digest ∈ [disk, firmware, tpm], ∀ d, digest = some d → P ("sha256:" ++ d) := by
  constructor
  · intro h
    have hget : ∀ (name : String) (component : ImageBundleComponent),
        (componentsOf disk firmware tpm).get? name = some component → P component.sha256 :=
      fun _ _ hname => h _ (SortedMap.get?_eq_some_iff.1 hname)
    simp only [forall_mem_cons, not_mem_nil, false_imp_iff, implies_true, and_true]
    refine ⟨?_, ?_, ?_⟩
    · rintro d rfl
      refine hget "disk" ⟨"components/disk.qcow2", "sha256:" ++ d⟩ ?_
      cases firmware <;> cases tpm <;> simp [componentsOf, SortedMap.get?_insert]
    · rintro d rfl
      refine hget "firmware" ⟨"components/firmware.fd", "sha256:" ++ d⟩ ?_
      cases disk <;> cases tpm <;> simp [componentsOf, SortedMap.get?_insert]
    · rintro d rfl
      refine hget "tpm_state" ⟨"components/tpm-state", "sha256:" ++ d⟩ ?_
      cases disk <;> cases firmware <;> simp [componentsOf, SortedMap.get?_insert]
  · intro h e he
    rw [BundleRoundTrip.componentsOf_eq] at he
    rcases BundleRoundTrip.sha256_of_mem_withPart he with he | ⟨d, hd, hsha⟩
    · rcases BundleRoundTrip.sha256_of_mem_withPart he with he | ⟨d, hd, hsha⟩
      · rcases BundleRoundTrip.sha256_of_mem_withPart he with he | ⟨d, hd, hsha⟩
        · cases he
        · rw [hsha]
          exact h disk (by simp) d hd
      · rw [hsha]
        exact h firmware (by simp) d hd
    · rw [hsha]
      exact h tpm (by simp) d hd

/-- A valid manifest records digests for its components. -/
theorem isDigest_of_valid {expected : String} (h : image.validate expected = .ok ()) :
    ∀ e ∈ image.components.entries, isDigest e.2.sha256 = true := by
  intro e he
  refine all_eq_true.1 (BundleRoundTrip.digests_of_validate h) _ ?_
  unfold ImageManifest.digests
  simp only [mem_append, mem_map]
  exact .inl (.inl (.inl ⟨e, he, rfl⟩))

variable {imageId : Id}

/-- The document of an image from a base directory. -/
theorem bound_of_base {digest : BaseComponent → Option String} {engineTrack : Id}
    {target expected : String} {manifest : ImageManifest}
    (hmanifest : manifest = importedManifest imageId engineTrack target (baseDigests digest source))
    (hdisk : digest ⟨"disk", source ++ ["disk.qcow2"], "disk.qcow2"⟩ ≠ none)
    (hvalid : manifest.validate expected = .ok ())
    (himage : image.components = manifest.components) (hobjects : SameObjects self t t') :
    Bound self (manifestDocument image) t' ↔ ∀ c ∈ baseComponents source, ∀ d,
      digest c = some d → HasObject self t ("sha256:" ++ d) := by
  obtain ⟨hlookup, hfirmware, htpm⟩ := lookup_baseDigests digest source
  have hcomponents : image.components = componentsOf
      (digest ⟨"disk", source ++ ["disk.qcow2"], "disk.qcow2"⟩)
      (digest ⟨"firmware", source ++ ["OVMF_VARS.fd"], "firmware.fd"⟩)
      (digest ⟨"tpm_state", source ++ ["tpm", "tpm2-00.permall"], "tpm-state"⟩) := by
    rw [himage, hmanifest, ← hlookup, ← hfirmware, ← htpm]
    rfl
  have hdigests : ∀ e ∈ image.components.entries, isDigest e.2.sha256 = true := by
    rw [himage]
    exact isDigest_of_valid hvalid
  have hne : image.components.entries ≠ [] := by
    obtain ⟨d, hd⟩ := Option.ne_none_iff_exists'.1 hdisk
    intro hempty
    have hall := (forall_componentsOf (P := fun _ => False)
      (digest ⟨"disk", source ++ ["disk.qcow2"], "disk.qcow2"⟩)
      (digest ⟨"firmware", source ++ ["OVMF_VARS.fd"], "firmware.fd"⟩)
      (digest ⟨"tpm_state", source ++ ["tpm", "tpm2-00.permall"], "tpm-state"⟩)).1
    rw [← hcomponents, hempty] at hall
    exact hall nofun _ mem_cons_self d hd
  rw [bound_iff hne hdigests]
  have hsame : (∀ e ∈ image.components.entries, HasObject self t' e.2.sha256) ↔
      ∀ e ∈ image.components.entries, HasObject self t e.2.sha256 :=
    forall₂_congr fun e he => hobjects.hasObject_iff (hdigests e he)
  rw [hsame, hcomponents, forall_componentsOf]
  unfold baseComponents
  simp only [forall_mem_cons, not_mem_nil, false_imp_iff, implies_true, and_true]

/-! ## The imports -/

/-- The serialiser reads a manifest as it wrote it. -/
def Reads (yaml : Yaml) (manifest : ImageManifest) : Prop :=
  yaml.readManifest (yaml.manifest manifest) = .ok manifest

/-- The document of a registered image. -/
theorem ends_imageDocument {good : Store → Outcome → Prop} (imageId : Id) : Ends good
    (fun document s' => s' = s ∧ ∃ image, registeredImage self yaml s.files imageId = some image ∧
      document = manifestDocument image)
    (fun _ _ => True) (imageDocument self yaml imageId.asStr) s := by
  refine Ends.bind (M := fun id s' => s' = s ∧ id = imageId)
    (ends_ofExcept.2 ⟨fun id hid => ⟨rfl, ?_⟩, fun _ _ => trivial⟩) ?_
  · have hsame := Id.new_ok hid
    cases id
    cases imageId
    exact congrArg Id.mk hsame
  · rintro id s₁ ⟨rfl, rfl⟩
    refine Ends.bind (ends_image _) ?_
    rintro image s₂ ⟨rfl, himage⟩
    exact ⟨rfl, image, himage, rfl⟩

/-- A component that is imported after others has the digest of the file that was there first, or
of its source. -/
theorem placed_of_imported {before : List Path} {path destination : Path}
    {digest : Option String} (himported : Imported (some path) destination digest t' t'')
    (hpresent : digest ≠ none → ∃ bytes, t'.look path = some (.file bytes))
    (hbefore : Adds before t t') (hpath : ¬ Hidden path ∧ path ∉ before)
    (hdestination : ¬ Hidden destination ∧ destination ∉ before) :
    digest = match t.look path with
      | some (.file bytes) =>
        match t.look destination with
        | some (.file old) => some (sha256 old)
        | _ => some (sha256 bytes)
      | _ => none := by
  split
  · next bytes hbytes =>
    obtain ⟨stored, hstored, hdigest, hsource⟩ := himported.lift hbefore (fun _ _ h => h)
      hdestination.1 hdestination.2 rfl hbytes
    split
    · next old hold =>
      have hkept := himported.adds.keeps _ _ (hbefore.keeps _ _ hold)
      rw [hstored] at hkept
      cases hkept
      exact hdigest
    · next hnofile => rw [hdigest, hsource hnofile]
  · next hnofile =>
    by_contra hsome
    obtain ⟨bytes, hbytes⟩ := hpresent hsome
    exact hnofile bytes ((hbefore.file_iff hpath.1 hpath.2 bytes).1 hbytes)

theorem not_hidden_concat {d : Path} {name : String} (h : name.toList.head? ≠ some '.') :
    ¬ Hidden (d ++ [name]) := by
  rintro ⟨d', name', hsame, hhead⟩
  have hlast := congrArg List.getLast? hsame
  rw [List.getLast?_concat, List.getLast?_concat] at hlast
  cases hlast
  exact h hhead

theorem concat_ne_componentPath {d : Path} {name file : String} (imageId : Id)
    (h : name ≠ file) : d ++ [name] ≠ self.componentPath imageId file := by
  intro hsame
  have hlast := congrArg List.getLast? hsame
  unfold Handle.componentPath at hlast
  rw [List.getLast?_concat, List.getLast?_concat] at hlast
  exact h (Option.some.inj hlast)

theorem componentPath_eq (imageId : Id) (file : String) :
    self.componentPath imageId file = self.imageRoot imageId ++ ["components", file] := by
  unfold Handle.componentPath Handle.componentsDir
  rw [append_assoc]
  rfl

theorem sameObjects_of_component {file : String}
    (h : Adds [self.componentPath imageId file] t t') : SameObjects self t t' := by
  refine sameObjects_of_adds h fun q hq => ⟨imageId, ["components", file], ?_⟩
  rw [mem_singleton.1 hq, componentPath_eq]

theorem sameObjects_of_manifest (h : Adds [self.manifestPath imageId] t t') :
    SameObjects self t t' :=
  sameObjects_of_adds h fun _ hq => ⟨imageId, ["manifest.yaml"], mem_singleton.1 hq⟩

/-- What the import of a base directory records, and that it changes no object. -/
theorem recorded_of_baseImport {manifest : ImageManifest}
    (h : BaseImport self yaml source t manifest t')
    (hlists : manifest.supportedEngineTracks = []) :
    manifest = importedManifest manifest.imageId manifest.engineTrack manifest.target
        (baseDigests (placedDigest self manifest.imageId t) source) ∧
      placedDigest self manifest.imageId t
        ⟨"disk", source ++ ["disk.qcow2"], "disk.qcow2"⟩ ≠ none ∧
      SameObjects self t t' := by
  obtain ⟨t₁, t₂, t₃, t₄, h₁, h₂, ⟨h₃, hfirmware⟩, ⟨h₄, htpm⟩, h₅⟩ := h.steps
  have adds₂ : Adds [self.componentPath manifest.imageId "disk.qcow2"] t t₂ :=
    (h₁.mono (by simp)).trans h₂.adds
  have adds₃ : Adds [self.componentPath manifest.imageId "disk.qcow2",
      self.componentPath manifest.imageId "firmware.fd"] t t₃ :=
    (adds₂.mono (by simp)).trans (h₃.adds.mono (by simp))
  have hnew : ∀ {a b : String}, a ≠ b →
      self.componentPath manifest.imageId a ≠ self.componentPath manifest.imageId b :=
    fun hne hsame => hne (componentPath_injective hsame)
  have hhidden : ∀ {file : String}, file.toList.head? ≠ some '.' →
      ¬ Hidden (self.componentPath manifest.imageId file) :=
    fun hfile => not_hidden_componentPath self manifest.imageId hfile
  have hdot : "disk.qcow2".toList.head? ≠ some '.' ∧ "firmware.fd".toList.head? ≠ some '.' ∧
      "tpm-state".toList.head? ≠ some '.' := by decide
  have hnames : "firmware.fd" ≠ "disk.qcow2" ∧ "tpm-state" ≠ "disk.qcow2" ∧
      "tpm-state" ≠ "firmware.fd" := by decide
  have hdisk : some manifest.diskSha256 = placedDigest self manifest.imageId t
      ⟨"disk", source ++ ["disk.qcow2"], "disk.qcow2"⟩ := by
    obtain ⟨bytes, hbytes⟩ := h.disk
    exact placed_of_imported h₂ (fun _ => ⟨bytes, h₁.keeps _ _ hbytes⟩) h₁
      ⟨not_hidden_concat (by decide), not_mem_nil⟩
      ⟨hhidden hdot.1, not_mem_nil⟩
  have hfirmware : manifest.firmwareSha256 = placedDigest self manifest.imageId t
      ⟨"firmware", source ++ ["OVMF_VARS.fd"], "firmware.fd"⟩ := by
    refine placed_of_imported h₃ hfirmware adds₂ ⟨not_hidden_concat (by decide), ?_⟩
      ⟨hhidden hdot.2.1, ?_⟩
    · rw [mem_singleton]
      exact concat_ne_componentPath _ (by decide)
    · rw [mem_singleton]
      exact hnew hnames.1
  have htpm : manifest.tpmStateSha256 = placedDigest self manifest.imageId t
      ⟨"tpm_state", source ++ ["tpm", "tpm2-00.permall"], "tpm-state"⟩ := by
    have hsplit : source ++ ["tpm", "tpm2-00.permall"] =
        (source ++ ["tpm"]) ++ ["tpm2-00.permall"] := by simp
    refine placed_of_imported h₄ htpm adds₃ ⟨?_, ?_⟩
      ⟨hhidden hdot.2.2, ?_⟩
    · rw [hsplit]
      exact not_hidden_concat (by decide)
    · rw [hsplit, mem_cons, mem_singleton, not_or]
      exact ⟨concat_ne_componentPath _ (by decide), concat_ne_componentPath _ (by decide)⟩
    · rw [mem_cons, mem_singleton, not_or]
      exact ⟨hnew hnames.2.1, hnew hnames.2.2⟩
  refine ⟨?_, by rw [← hdisk]; simp, ?_⟩
  · obtain ⟨hlookup, hlookup', hlookup''⟩ :=
      lookup_baseDigests (placedDigest self manifest.imageId t) source
    unfold importedManifest
    rw [hlookup, hlookup', hlookup'', ← hdisk, ← hfirmware, ← htpm, ← h.components,
      Option.getD_some, ← hlists]
  · exact (sameObjects_of_adds h₁ nofun).trans ((sameObjects_of_component h₂.adds).trans
      ((sameObjects_of_component h₃.adds).trans ((sameObjects_of_component h₄.adds).trans
        (sameObjects_of_manifest h₅))))

/-- The document after the import of a base directory. -/
theorem ends_documentOfBase (imageId engineTrack : Id) (target : String)
    (hyaml : Reads yaml (importedManifest imageId engineTrack target
      (baseDigests (placedDigest self imageId s.files) source))) :
    Ends (Fresh self)
      (fun document s' => Bound self document s'.files ↔ ∀ c ∈ baseComponents source, ∀ d,
        placedDigest self imageId s.files c = some d → HasObject self s.files ("sha256:" ++ d))
      (fun _ _ => True)
      ((importVmmanagerBase self yaml source imageId engineTrack target).bind fun manifest =>
        imageDocument self yaml manifest.imageId.asStr) s := by
  refine Ends.bind (ends_importVmmanagerBase_steps imageId engineTrack target) ?_
  rintro manifest s₁ ⟨rfl, rfl, hlists, rfl, himport⟩
  obtain ⟨hmanifest, hdisk, hobjects⟩ := recorded_of_baseImport himport hlists
  rw [← hmanifest] at hyaml
  refine (ends_imageDocument manifest.imageId).mono ?_ fun _ _ h => h
  rintro document s₂ ⟨rfl, image, himage, rfl⟩
  exact bound_of_base hmanifest hdisk himport.valid (himport.registers hyaml image himage) hobjects

theorem sameObjects_of_files (h : ∀ q bytes, t'.look q = some (.file bytes) ↔
    t.look q = some (.file bytes)) : SameObjects self t t' := fun _ _ bytes => h _ bytes

theorem sameObjects_of_touches {cs : List BaseComponent}
    (h : Touches self imageId cs t t') : SameObjects self t t' := by
  intro digest _ bytes
  rw [h.others _ fun c _ => ⟨?_, ?_⟩]
  · unfold importing Handle.componentsDir
    rw [append_assoc]
    exact objectPath_ne_imageRoot _ _ _
  · rw [componentPath_eq]
    exact objectPath_ne_imageRoot _ _ _

/-- The job looks for the digests of the components that are there. -/
theorem digests_of_present (h : ∀ q bytes, t'.look q = some (.file bytes) ↔
    t.look q = some (.file bytes)) :
    (((baseComponents source).filter (present t)).filterMap fun c =>
      (copiedDigest t' c).map fun digest => (c.name, digest)) =
        baseDigests (copiedDigest t) source := by
  have hsame : ∀ c : BaseComponent, copiedDigest t' c = copiedDigest t c := by
    intro c
    unfold copiedDigest
    rcases hlook : t.look c.source with _ | (bytes | _)
    · rcases hlook' : t'.look c.source with _ | (bytes | _)
      · rfl
      · rw [(h _ bytes).1 hlook'] at hlook
        cases hlook
      · rfl
    · rw [(h _ bytes).2 hlook]
    · rcases hlook' : t'.look c.source with _ | (bytes | _)
      · rfl
      · rw [(h _ bytes).1 hlook'] at hlook
        cases hlook
      · rfl
  unfold baseDigests
  rw [filterMap_filter]
  refine filterMap_congr fun c _ => ?_
  rw [hsame]
  split
  · rfl
  · next habsent =>
    unfold copiedDigest
    split
    · next bytes hbytes => exact absurd (isFileEntry_iff.2 ⟨bytes, hbytes⟩) habsent
    · rfl

/-- The document after the import job. -/
theorem ends_documentOfJob (imageId engineTrack target : String)
    (hyaml : Reads yaml (importedManifest ⟨imageId⟩ ⟨engineTrack⟩ target
      (baseDigests (copiedDigest s.files) source))) :
    Ends (fun _ _ => True)
      (fun document s' => Bound self document s'.files ↔ ∀ c ∈ baseComponents source, ∀ d,
        copiedDigest s.files c = some d → HasObject self s.files ("sha256:" ++ d))
      (fun _ _ => True)
      ((importVmmanagerBaseJob self yaml source imageId engineTrack target).bind fun _ =>
        imageDocument self yaml imageId) s := by
  have hX : ∀ (e : Error) (s' : Store), (fun (_ : Error) (_ : Store) => True) e s' :=
    fun _ _ => trivial
  -- it is enough to know the manifest and the objects at the end of the job
  suffices hjob : Ends (fun _ _ => True) (fun _ s' =>
      copiedDigest s.files ⟨"disk", source ++ ["disk.qcow2"], "disk.qcow2"⟩ ≠ none ∧
      SameObjects self s.files s'.files ∧
      ∀ manifest, manifest = importedManifest ⟨imageId⟩ ⟨engineTrack⟩ target
          (baseDigests (copiedDigest s.files) source) →
        manifest.validate imageId = .ok () ∧ Registers self yaml manifest s'.files)
      (fun _ _ => True) (importVmmanagerBaseJob self yaml source imageId engineTrack target) s by
    refine Ends.bind hjob ?_
    rintro _ s₁ ⟨hdisk, hobjects, hmanifest⟩
    obtain ⟨hvalid, hregisters⟩ := hmanifest _ rfl
    refine (ends_imageDocument ⟨imageId⟩).mono ?_ fun _ _ h => h
    rintro document s₂ ⟨rfl, image, himage, rfl⟩
    exact bound_of_base rfl hdisk hvalid (hregisters hyaml image himage) hobjects
  refine Ends.bind (M := fun r s' => s' = s ∧
    r = isFileEntry (s.files.look (source ++ ["disk.qcow2"]))) (ends_isFile ⟨rfl, rfl⟩) ?_
  rintro r s₁ ⟨rfl, rfl⟩
  by_cases hdisk : isFileEntry (s₁.files.look (source ++ ["disk.qcow2"])) = false
  · rw [if_pos hdisk]
    trivial
  rw [if_neg hdisk]
  rw [Bool.not_eq_false] at hdisk
  refine Ends.bind (M := fun firmware s' => s' = s₁ ∧
    firmware = isFileEntry (s₁.files.look (source ++ ["OVMF_VARS.fd"]))) (ends_isFile ⟨rfl, rfl⟩) ?_
  rintro firmware s₂ ⟨rfl, rfl⟩
  refine Ends.bind (M := fun tpm s' => s' = s₂ ∧
    tpm = isFileEntry (s₂.files.look (source ++ ["tpm", "tpm2-00.permall"])))
    (ends_isFile ⟨rfl, rfl⟩) ?_
  rintro tpm s₃ ⟨rfl, rfl⟩
  dsimp only
  rw [filter_baseComponents hdisk]
  refine Ends.value (ends_notify (fun _ _ _ _ => trivial)) fun _ _ => ?_
  refine Ends.value (ends_notify (fun _ _ _ _ => trivial)) fun _ _ => ?_
  refine Ends.bind (M := fun id s' => s' = s₃ ∧ id = ⟨imageId⟩)
    (ends_ofExcept.2 ⟨fun id hid => ⟨rfl, ?_⟩, fun _ _ => trivial⟩) ?_
  · rw [← Id.new_ok hid]
  rintro _ s₆ ⟨rfl, rfl⟩
  refine Ends.bind (M := fun id s' => s' = s₆ ∧ id = ⟨engineTrack⟩)
    (ends_ofExcept.2 ⟨fun id hid => ⟨rfl, ?_⟩, fun _ _ => trivial⟩) ?_
  · rw [← Id.new_ok hid]
  rintro _ s₇ ⟨rfl, rfl⟩
  refine Ends.value (ends_lockWorkspace (fun _ _ _ _ => trivial)) fun _ _ => ?_
  refine Ends.seq (ends_change (fun _ _ _ _ => trivial) (fun _ _ => trivial) fun t ht => ?_)
  have hfiles := file_createDirAll ht
  have hapart : ((baseComponents source).filter (present s₇.files)).Pairwise
      (Apart self ⟨imageId⟩) := (apart_baseComponents self ⟨imageId⟩ source).filter _
  have hbase : ∀ c ∈ (baseComponents source).filter (present s₇.files), c ∈ baseComponents source :=
    fun c hc => (mem_filter.1 hc).1
  have hcopies : Ends (fun _ _ => True) _ _ (copyComponents self ⟨imageId⟩
      ((baseComponents source).filter (present s₇.files))) (s₇.withFiles t) := ends_copyComponents
    (fun c hc => source_ne_importing (hbase c hc) c.file)
    (fun c hc => componentPath_ne_importing (head?_file (hbase c hc)) c.file) hapart
  refine Ends.bind (hcopies.mono (fun _ _ h => h) fun _ _ _ => trivial) ?_
  rintro digests s₉ ⟨htouches, -, hdigests⟩
  refine Ends.seq (ends_notify (fun _ _ _ _ => trivial) ?_)
  refine Ends.seq (ends_notify (fun _ _ _ _ => trivial) ?_)
  refine Ends.bind (ends_registerImage hX _) ?_
  rintro _ s₁₂ ⟨hadds, hvalid, hregisters⟩
  refine Ends.seq (ends_notify (fun _ _ _ _ => trivial) ?_)
  refine ends_notify (fun _ _ _ _ => trivial) ?_
  refine ⟨?_, ?_, ?_⟩
  · obtain ⟨bytes, hbytes⟩ := isFileEntry_iff.1 hdisk
    simp [copiedDigest, hbytes]
  · exact ((sameObjects_of_files hfiles).trans (sameObjects_of_touches htouches)).trans
      (sameObjects_of_manifest hadds)
  · rintro manifest rfl
    have hrecorded := hdigests.trans (digests_of_present hfiles)
    rw [← hrecorded]
    exact ⟨hvalid, hregisters⟩

/-- The document after the import of a bundle. -/
theorem ends_documentOfBundle
    (hyaml : ∀ bundle disk, bundleAt yaml s.files source = some bundle →
      bundleDigest bundle "disk" = some disk → Reads yaml (bundleImage bundle disk)) :
    Ends (Fresh self)
      (fun document s' => ∃ bundle, bundleAt yaml s.files source = some bundle ∧
        (Bound self document s'.files ↔
          ∀ e ∈ bundle.components.entries, HasObject self s.files e.2.sha256))
      (fun _ _ => True)
      ((importImageBundle self yaml source).bind fun result =>
        imageDocument self yaml result.1.imageId.asStr) s := by
  refine Ends.bind ends_importImageBundle_steps ?_
  rintro ⟨manifest, digest⟩ s₁ ⟨bundle, hbundle, himport⟩
  refine (ends_imageDocument manifest.imageId).mono ?_ fun _ _ h => h
  rintro document s₂ ⟨rfl, image, himage, rfl⟩
  refine ⟨bundle, hbundle, ?_⟩
  obtain ⟨t₁, t₂, t₃, t₄, h₁, h₂, h₃, h₄, h₅⟩ := himport.steps
  have hobjects : SameObjects self s.files s₂.files := (sameObjects_of_adds h₁ nofun).trans
    ((sameObjects_of_component h₂.adds).trans ((sameObjects_of_component h₃.adds).trans
      ((sameObjects_of_component h₄.adds).trans (sameObjects_of_manifest h₅))))
  have hmade : manifest = bundleImage bundle manifest.diskSha256 := himport.made
  have hreads := hyaml bundle manifest.diskSha256 hbundle himport.disk
  rw [← hmade] at hreads
  have hmanifest : manifest.components = bundle.components := congrArg (·.components) hmade
  have hcomponents : image.components = bundle.components :=
    (himport.registers hreads image himage).trans hmanifest
  have hdigests : ∀ e ∈ image.components.entries, isDigest e.2.sha256 = true := by
    rw [hcomponents, ← hmanifest]
    exact isDigest_of_valid himport.valid
  have hne : image.components.entries ≠ [] := by
    obtain ⟨component, hcomponent, -⟩ := Option.map_eq_some_iff.1 himport.disk
    rw [hcomponents]
    exact ne_nil_of_mem (SortedMap.get?_eq_some_iff.1 hcomponent)
  rw [bound_iff hne hdigests, ← hcomponents]
  exact forall₂_congr fun e he => hobjects.hasObject_iff (hdigests e he)

/-- After every import, the document of the image binds its components to objects with the recorded
digests exactly if the workspace had these objects before. -/
theorem documents_bound_iff (self : Handle) (yaml : Yaml) (source : Path) (s : Store) :
    (∀ imageId engineTrack target,
      Reads yaml (importedManifest imageId engineTrack target
        (baseDigests (placedDigest self imageId s.files) source)) →
      Ends (Fresh self)
        (fun document s' => Bound self document s'.files ↔ ∀ c ∈ baseComponents source, ∀ d,
          placedDigest self imageId s.files c = some d → HasObject self s.files ("sha256:" ++ d))
        (fun _ _ => True)
        ((importVmmanagerBase self yaml source imageId engineTrack target).bind fun manifest =>
          imageDocument self yaml manifest.imageId.asStr) s) ∧
    (∀ imageId engineTrack target : String,
      Reads yaml (importedManifest ⟨imageId⟩ ⟨engineTrack⟩ target
        (baseDigests (copiedDigest s.files) source)) →
      Ends (fun _ _ => True)
        (fun document s' => Bound self document s'.files ↔ ∀ c ∈ baseComponents source, ∀ d,
          copiedDigest s.files c = some d → HasObject self s.files ("sha256:" ++ d))
        (fun _ _ => True)
        ((importVmmanagerBaseJob self yaml source imageId engineTrack target).bind fun _ =>
          imageDocument self yaml imageId) s) ∧
    ((∀ bundle disk, bundleAt yaml s.files source = some bundle →
        bundleDigest bundle "disk" = some disk → Reads yaml (bundleImage bundle disk)) →
      Ends (Fresh self)
        (fun document s' => ∃ bundle, bundleAt yaml s.files source = some bundle ∧
          (Bound self document s'.files ↔
            ∀ e ∈ bundle.components.entries, HasObject self s.files e.2.sha256))
        (fun _ _ => True)
        ((importImageBundle self yaml source).bind fun result =>
          imageDocument self yaml result.1.imageId.asStr) s) :=
  ⟨ends_documentOfBase, ends_documentOfJob, ends_documentOfBundle⟩

/-! ### A base directory with a disk -/

/-- The image of the base directory. -/
def debian : ImageManifest :=
  importedManifest ⟨"debian"⟩ ⟨"qemu"⟩ "x86_64-softmmu" [("disk", sha256 [1])]

/-- A serialiser that reads the image and its bundle. -/
def debianYaml : Yaml := BundleRoundTrip.yamlOf debian

/-- The handle of the workspace. -/
def workspace : Handle := { root := ["workspace"], pid := 7 }

/-- A directory that is a base and a bundle, and an empty workspace. -/
def baseStore : Store where
  tables := {}
  files := .dir [
    ("base", .dir [
      ("components", .dir [("disk.qcow2", .file [1])]),
      ("disk.qcow2", .file [1]),
      ("manifest.yaml", .file (debianYaml.bundle (BundleRoundTrip.bundleOf debian)))]),
    ("workspace", .dir [])]

theorem reads_debian : Reads debianYaml debian := if_pos rfl

theorem copied_debian : importedManifest ⟨"debian"⟩ ⟨"qemu"⟩ "x86_64-softmmu"
    (baseDigests (copiedDigest baseStore.files) ["base"]) = debian := by
  decide +kernel

theorem documents_bound_iff_debian :
    Ends (Fresh workspace)
      (fun document s' => Bound workspace document s'.files ↔
        ∀ c ∈ baseComponents ["base"], ∀ d,
          placedDigest workspace ⟨"debian"⟩ baseStore.files c = some d →
            HasObject workspace baseStore.files ("sha256:" ++ d))
      (fun _ _ => True)
      ((importVmmanagerBase workspace debianYaml ["base"] ⟨"debian"⟩ ⟨"qemu"⟩
          "x86_64-softmmu").bind fun manifest =>
        imageDocument workspace debianYaml manifest.imageId.asStr) baseStore ∧
    Ends (fun _ _ => True)
      (fun document s' => Bound workspace document s'.files ↔
        ∀ c ∈ baseComponents ["base"], ∀ d, copiedDigest baseStore.files c = some d →
          HasObject workspace baseStore.files ("sha256:" ++ d))
      (fun _ _ => True)
      ((importVmmanagerBaseJob workspace debianYaml ["base"] "debian" "qemu"
          "x86_64-softmmu").bind fun _ =>
        imageDocument workspace debianYaml "debian") baseStore ∧
    Ends (Fresh workspace)
      (fun document s' => ∃ bundle,
        bundleAt debianYaml baseStore.files ["base"] = some bundle ∧
        (Bound workspace document s'.files ↔
          ∀ e ∈ bundle.components.entries, HasObject workspace baseStore.files e.2.sha256))
      (fun _ _ => True)
      ((importImageBundle workspace debianYaml ["base"]).bind fun result =>
        imageDocument workspace debianYaml result.1.imageId.asStr) baseStore := by
  have hplaced : importedManifest ⟨"debian"⟩ ⟨"qemu"⟩ "x86_64-softmmu"
      (baseDigests (placedDigest workspace ⟨"debian"⟩ baseStore.files) ["base"]) = debian := by decide +kernel
  have hbundle : bundleAt debianYaml baseStore.files ["base"] =
      some (BundleRoundTrip.bundleOf debian) := by decide +kernel
  have hdigest : bundleDigest (BundleRoundTrip.bundleOf debian) "disk" = some (sha256 [1]) := by
    decide +kernel
  have himage : bundleImage (BundleRoundTrip.bundleOf debian) (sha256 [1]) = debian := by
    decide +kernel
  obtain ⟨hbase, hjob, himport⟩ := documents_bound_iff workspace debianYaml ["base"] baseStore
  refine ⟨hbase _ _ _ ?_, hjob _ _ _ (copied_debian ▸ reads_debian), himport ?_⟩
  · rw [hplaced]
    exact reads_debian
  · intro bundle disk hat hdisk
    rw [hbundle] at hat
    cases hat
    rw [hdigest] at hdisk
    cases hdisk
    rw [himage]
    exact reads_debian

/-- Whether a document is there and its first artifact is no file. -/
def unbound (self : Handle) (result : Except Error Document × Store) : Bool :=
  match result.1 with
  | .ok document =>
    match artifacts document with
    | artifact :: _ => decide (result.2.files.look (bindingPath self artifact.1) = none)
    | [] => false
  | .error _ => false

/-- The job registers the image, and its document binds a disk that is not there. -/
theorem not_documents_bound : ¬ ∀ (self : Handle) (yaml : Yaml) (source : Path)
    (imageId engineTrack target : String) (s : Store),
    Reads yaml (importedManifest ⟨imageId⟩ ⟨engineTrack⟩ target
      (baseDigests (copiedDigest s.files) source)) →
    Ends (fun _ _ => True) (fun document s' => Bound self document s'.files) (fun _ _ => True)
      ((importVmmanagerBaseJob self yaml source imageId engineTrack target).bind fun _ =>
        imageDocument self yaml imageId) s := by
  intro h
  -- the text of the manifest is short: nothing depends on it
  let yaml : Yaml :=
    { debianYaml with
      manifest := fun _ => textBytes "debian"
      readManifest := fun bytes =>
        if bytes = textBytes "debian" then .ok debian else .error "not read" }
  have hreads : Reads yaml debian := if_pos rfl
  have hrun := h workspace yaml ["base"] "debian" "qemu" "x86_64-softmmu" baseStore
    (copied_debian ▸ hreads)
  obtain ⟨r, s', hcheck, hQ, -⟩ := hrun.of_eval (fun _ _ => true) {} [] (unbound workspace)
    (fun _ _ _ => trivial) (by decide +kernel)
  unfold unbound at hcheck
  split at hcheck
  · next document hdocument =>
    split at hcheck
    · next artifact rest hartifacts =>
      obtain ⟨bytes, hbytes, -⟩ := hQ document hdocument artifact (by simp [hartifacts])
      rw [of_decide_eq_true hcheck] at hbytes
      cases hbytes
    · cases hcheck
  · cases hcheck

end BoundArtifacts

end MachineEmu
