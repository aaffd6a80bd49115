import Mathlib.Data.Set.Finite.Basic
import MachineEmu.Api.ImageDocuments
import MachineEmu.Lib.Decimal
import MachineEmu.Safety.BundleRoundTrip

/-!
# Image documents

Whether a client may send back the document of an image, and what a request leaves of the manifest.

* `field_toDocument` — the fields of the document; `fromDocument_toDocument` — it is read back.
* `ends_replaceImageManifest` — the manifest that a request puts in place.
* `Preserved` — the components that the request does not name are as before.
* `image_documents_iff` — when the document may be sent back, and what every request preserves.
-/

namespace MachineEmu.ImageDocuments

open Lib Prog Store BundleRoundTrip FileTree List

/-! ## The document of a manifest -/

section Document

variable {image : ImageManifest}

@[simp] theorem find?_fieldUnless (empty : Bool) (name : String) (value : Json) (key : String) :
    ((fieldUnless empty name value).reverse.find? fun e => e.1 = key) =
      if empty = false ∧ name = key then some (name, value) else none := by
  unfold fieldUnless
  cases empty <;> by_cases h : name = key <;> simp [h]

@[simp] theorem find?_optionalField (name : String) (value : Option String) (key : String) :
    ((optionalField name value).reverse.find? fun e => e.1 = key) =
      if name = key then value.map fun text => (name, Json.str text) else none := by
  unfold optionalField
  cases value <;> by_cases h : name = key <;> simp [h]

/-- A field of the document. -/
theorem field_toDocument (image : ImageManifest) (name : String) :
    image.toDocument.field name = (image.documentFields.reverse.find? fun e => e.1 = name).map
      Prod.snd :=
  Json.field_ofFields _ _

@[simp] theorem field_imageId (image : ImageManifest) :
    image.toDocument.field "image_id" = some (.str image.imageId.asStr) := by
  rw [field_toDocument]
  simp [ImageManifest.documentFields]

@[simp] theorem field_engineTrack (image : ImageManifest) :
    image.toDocument.field "engine_track" = some (.str image.engineTrack.asStr) := by
  rw [field_toDocument]
  simp [ImageManifest.documentFields]

@[simp] theorem field_target (image : ImageManifest) :
    image.toDocument.field "target" = some (.str image.target) := by
  rw [field_toDocument]
  simp [ImageManifest.documentFields]

@[simp] theorem field_tracks (image : ImageManifest) :
    image.toDocument.field "supported_engine_tracks" =
      if image.supportedEngineTracks = [] then none
      else some (.arr (image.supportedEngineTracks.map fun track => .str track.asStr)) := by
  rw [field_toDocument]
  by_cases h : image.supportedEngineTracks = [] <;> simp [ImageManifest.documentFields, h]

@[simp] theorem field_components (image : ImageManifest) :
    image.toDocument.field "components" =
      if image.components.entries = [] then none
      else some (.ofFields (image.components.entries.map fun e => (e.1, e.2.toDocument))) := by
  rw [field_toDocument]
  by_cases h : image.components.entries = [] <;> simp [ImageManifest.documentFields, h]

@[simp] theorem field_disk (image : ImageManifest) :
    image.toDocument.field "disk_sha256" =
      if image.diskSha256 = "" then none else some (.str image.diskSha256) := by
  rw [field_toDocument]
  by_cases h : image.diskSha256 = "" <;> simp [ImageManifest.documentFields, h]

@[simp] theorem field_firmware (image : ImageManifest) :
    image.toDocument.field "firmware_sha256" = image.firmwareSha256.map Json.str := by
  rw [field_toDocument]
  cases h : image.firmwareSha256 <;> simp [ImageManifest.documentFields, h]

@[simp] theorem field_tpmState (image : ImageManifest) :
    image.toDocument.field "tpm_state_sha256" = image.tpmStateSha256.map Json.str := by
  rw [field_toDocument]
  cases h : image.tpmStateSha256 <;> simp [ImageManifest.documentFields, h]

/-- An identifier is read back. -/
theorem idIn_str {i : Id} (h : Id.isValid i.asStr = true) : idIn (.str i.asStr) = some i := by
  simp [idIn, Id.new, h, Json.asStr, Except.toOption]

theorem mapM_idIn {ids : List Id} (h : ∀ i ∈ ids, Id.isValid i.asStr = true) :
    (ids.map fun i => Json.str i.asStr).mapM idIn = some ids := by
  induction ids with
  | nil => rfl
  | cons i ids ih =>
    obtain ⟨hi, hids⟩ := forall_mem_cons.1 h
    rw [map_cons, mapM_cons, idIn_str hi, ih hids]
    rfl

@[simp] theorem nullableText_map (value : Option String) :
    nullableText (value.map Json.str) = some value := by
  cases value <;> rfl

/-- The manifest is read from its document. -/
theorem fromDocument_toDocument (hid : Id.isValid image.imageId.asStr = true)
    (htracks : ∀ track ∈ image.engineTrack :: image.supportedEngineTracks,
      Id.isValid track.asStr = true)
    (hcomponents : image.components = SortedMap.empty) :
    ImageManifest.fromDocument image.toDocument = some image := by
  obtain ⟨htrack, hmore⟩ := forall_mem_cons.1 htracks
  have htracksIn : tracksIn (image.toDocument.field "supported_engine_tracks") =
      some image.supportedEngineTracks := by
    rw [field_tracks]
    by_cases h : image.supportedEngineTracks = []
    · simp [h, tracksIn]
    · simp [h, tracksIn, Json.asArr, mapM_idIn hmore]
  have hcomponentsIn : componentsIn (image.toDocument.field "components") =
      some image.components := by
    rw [field_components, hcomponents]
    rfl
  have hdisk : diskIn (image.toDocument.field "disk_sha256") = some image.diskSha256 := by
    rw [field_disk]
    by_cases h : image.diskSha256 = "" <;> simp [h, diskIn, Json.asStr]
  unfold ImageManifest.fromDocument
  simp only [htracksIn, hcomponentsIn, hdisk, field_imageId, field_engineTrack, field_target,
    field_firmware, field_tpmState, nullableText_map, Option.bind_some, idIn_str hid,
    idIn_str htrack, Json.asStr]
  rfl

theorem fst_of_mem_fieldUnless {empty : Bool} {name : String} {value : Json} {e : String × Json}
    (h : e ∈ fieldUnless empty name value) : empty = false ∧ e.1 = name := by
  unfold fieldUnless at h
  cases empty
  · exact ⟨rfl, congrArg Prod.fst (mem_singleton.1 h)⟩
  · exact absurd h not_mem_nil

theorem fst_of_mem_optionalField {name : String} {value : Option String} {e : String × Json}
    (h : e ∈ optionalField name value) : e.1 = name := by
  unfold optionalField at h
  cases value with
  | none => exact absurd h not_mem_nil
  | some text => exact congrArg Prod.fst (mem_singleton.1 h)

/-- The names of the fields, when there is no map of components. -/
theorem mem_imageFields (hcomponents : image.components = SortedMap.empty) {e : String × Json}
    (h : e ∈ image.documentFields) : e.1 ∈ imageFields := by
  have hentries : image.components.entries.isEmpty = true := by rw [hcomponents]; rfl
  unfold ImageManifest.documentFields at h
  simp only [mem_append, mem_cons, not_mem_nil, or_false] at h
  unfold imageFields
  rcases h with (((((((rfl | rfl) | h) | rfl) | h) | h) | h) | h)
  · simp
  · simp
  · simp [(fst_of_mem_fieldUnless h).2]
  · simp
  · rw [hentries] at h
    cases (fst_of_mem_fieldUnless h).1
  · simp [(fst_of_mem_fieldUnless h).2]
  · simp [fst_of_mem_optionalField h]
  · simp [fst_of_mem_optionalField h]

/-- The members of a document are its fields. -/
theorem exists_asObj (document : Json) (h : document.isObj = true) :
    ∃ members, document = .obj members ∧ document.asObj = some members := by
  cases document with
  | obj members => exact ⟨members, rfl, rfl⟩
  | _ => cases h

end Document

/-! ## Requests -/

section Requests

variable {image m : ImageManifest} {text : DocumentText} {imageId : Id} {body : List UInt8}
  {document : Json}

/-- What an accepted request says. -/
theorem imageRequest_eq_ok {id : String} (h : imageRequest text id body = .ok (document, m)) :
    text.parse body = .ok document ∧ ImageManifest.fromDocument document = some m ∧
      document.field "components" = none ∧ Id.new "image" id = .ok m.imageId := by
  unfold imageRequest at h
  cases hparse : text.parse body with
  | error e => simp [hparse] at h
  | ok found =>
    simp only [hparse] at h
    cases hobj : found.asObj with
    | none => simp [hobj] at h
    | some members =>
      simp only [hobj] at h
      cases hunknown : members.find? fun e => e.1 ∉ imageFields with
      | some e =>
        rw [hunknown] at h
        cases h
      | none =>
        rw [hunknown] at h
        dsimp only at h
        cases hread : ImageManifest.fromDocument found with
        | none => simp [hread] at h
        | some manifest =>
          simp only [hread] at h
          cases hid : Id.new "image" id with
          | error e => simp [hid] at h
          | ok i =>
            simp only [hid] at h
            split at h
            · cases h
            · next hsame =>
              obtain ⟨rfl, rfl⟩ := Prod.mk.inj (Except.ok.inj h)
              refine ⟨rfl, hread, ?_, by rw [not_not.1 hsame]⟩
              cases hfield : found.field "components" with
              | none => rfl
              | some value =>
                have hmembers : found = .obj members := by
                  cases found with
                  | obj fields => exact congrArg Json.obj (Option.some.inj hobj)
                  | _ => cases hobj
                rw [hmembers] at hfield
                have hmem := List.find?_eq_none.1 hunknown _ (Json.mem_of_field hfield)
                exact absurd hmem (by simp [imageFields])

/-- The document of a manifest without a map is accepted. -/
theorem imageRequest_of_empty (hid : Id.isValid image.imageId.asStr = true)
    (htracks : ∀ track ∈ image.engineTrack :: image.supportedEngineTracks,
      Id.isValid track.asStr = true)
    (hcomponents : image.components = SortedMap.empty)
    (htext : text.parse body = .ok image.toDocument) :
    imageRequest text image.imageId.asStr body = .ok (image.toDocument, image) := by
  obtain ⟨members, hmembers, hobj⟩ := exists_asObj image.toDocument (Json.isObj_ofFields _)
  have hunknown : (members.find? fun e => e.1 ∉ imageFields) = none := by
    rw [List.find?_eq_none]
    intro e he
    have := mem_imageFields hcomponents (Json.mem_of_mem_ofFields hmembers he)
    simpa using this
  unfold imageRequest
  simp only [htext, hobj, hunknown, fromDocument_toDocument hid htracks hcomponents]
  simp [Id.new, hid]

/-- The document of a manifest with a map is refused. -/
theorem imageRequest_of_nonempty (hcomponents : image.components ≠ SortedMap.empty)
    (htext : text.parse body = .ok image.toDocument) (id : String) :
    ∃ name, imageRequest text id body =
      .error (.process ("unknown image manifest field: " ++ name)) := by
  obtain ⟨members, hmembers, hobj⟩ := exists_asObj image.toDocument (Json.isObj_ofFields _)
  have hentries : image.components.entries ≠ [] :=
    fun h => hcomponents (SortedMap.ext_entries h)
  have hfield := field_components image
  rw [if_neg hentries, hmembers] at hfield
  cases hunknown : members.find? fun e => e.1 ∉ imageFields with
  | none =>
    have hmem := List.find?_eq_none.1 hunknown _ (Json.mem_of_field hfield)
    exact absurd hmem (by simp [imageFields])
  | some e =>
    refine ⟨e.1, ?_⟩
    unfold imageRequest
    simp only [htext, hobj, hunknown]

end Requests

/-! ## The manifest in its place -/

section Replace

variable {self : Handle} {yaml : Yaml} {imageId : Id} {m : ImageManifest} {s : Store}
  {good : Store → Outcome → Prop} {X : Error → Store → Prop}

/-- No call fails, and the clock names no file of the image. -/
def Calm (self : Handle) (imageId : Id) (s : Store) (o : Outcome) : Prop :=
  o.fault = none ∧
    s.files.look (self.imageRoot imageId ++ [self.temporary "manifest" o.nanos]) = none

/-- The bytes of a manifest that a request has put in its place. -/
def replaced (yaml : Yaml) (m : ImageManifest) : List UInt8 := yaml.manifest m ++ textBytes "\n"

theorem manifestPath_ne_temporary (nanos : Nat) :
    self.imageRoot imageId ++ [self.temporary "manifest" nanos] ≠ self.manifestPath imageId := by
  intro hsame
  have hname : self.temporary "manifest" nanos = "manifest.yaml" := by
    simpa [Handle.manifestPath] using hsame
  have hhead := congrArg (fun name => name.toList.head?) hname
  simp [Handle.temporary] at hhead

/-- A request that succeeds has put its manifest in the place of the one before. -/
theorem ends_replaceImageManifest (hX : ∀ e s', X e s') :
    Ends good (fun _ s' => s'.files.look (self.manifestPath m.imageId) =
      some (.file (replaced yaml m))) X (replaceImageManifest self yaml m) s := by
  unfold replaceImageManifest
  apply Ends.bind (M := fun _ _ => True) (Ends.always (fun _ _ => trivial) hX)
  intro _ s₁ _
  apply Ends.bind (M := fun _ _ => True) (Ends.always (fun _ _ => trivial) hX)
  intro present s₂ _
  dsimp only
  split
  · exact hX _ _
  apply Ends.bind (M := fun _ _ => True) (Ends.always (fun _ _ => trivial) hX)
  intro _ s₃ _
  apply Ends.bind (M := fun _ _ => True) (Ends.always (fun _ _ => trivial) hX)
  intro _ s₄ _
  split
  · exact hX _ _
  apply Ends.bind (M := fun _ _ => True) (Ends.always (fun _ _ => trivial) hX)
  intro nanos s₅ _
  have hne := @manifestPath_ne_temporary self m.imageId nanos
  generalize self.imageRoot m.imageId ++ [self.temporary "manifest" nanos] = temporary at hne ⊢
  have hcleanup : ∀ s', Ends good (fun _ s'' => ∀ e, X e s'') (fun _ s'' => ∀ e, X e s'')
      (removeFile temporary) s' :=
    fun s' => Ends.always (fun _ _ e => hX e _) fun _ _ e => hX e _
  apply Ends.bind (M := fun _ s' => s'.files.look (self.manifestPath m.imageId) =
    some (.file (replaced yaml m)))
  · apply ends_onError
    apply Ends.bind (M := fun _ _ => True)
      (Ends.always (fun _ _ => trivial) fun _ _ => hcleanup _)
    intro _ s₆ _
    apply Ends.bind (M := fun _ _ => True)
      (Ends.always (fun _ _ => trivial) fun _ _ => hcleanup _)
    intro _ s₇ _
    apply Ends.bind (M := fun _ s' => s'.files.look temporary = some (.file (replaced yaml m)))
    · apply ends_writeAll
      · exact fun _ _ _ _ _ _ => hcleanup _
      · exact fun _ _ _ => hcleanup _
      · intro t ht
        rw [withFiles_files, look_write ht, if_pos rfl]
        rfl
    intro _ s₈ h₈
    apply Ends.bind (M := fun _ s' => s' = s₈)
    · exact ends_change (fun _ _ _ _ => hcleanup _) nofun fun t ht => by cases ht; rfl
    intro _ s₉ h₉
    rw [h₉]
    apply Ends.bind (M := fun _ s' => s'.files.look (self.manifestPath m.imageId) =
      some (.file (replaced yaml m)))
    · apply ends_change (fun _ _ _ _ => hcleanup _) (fun _ _ => hcleanup _)
      intro t ht
      rw [withFiles_files, (look_rename_file ht hne h₈).2, if_pos rfl]
    intro _ s₁₀ h₁₀
    refine ends_change (fun _ _ _ _ => hcleanup _) nofun fun t ht => ?_
    cases ht
    exact h₁₀
  · exact fun _ _ h => h

/-- A path that exists is its own canonical path. -/
theorem ends_canonicalize {p : Path} (hfault : ∀ o, good s o → o.fault ≠ none → ∀ e, X e s)
    (h : s.files.look p ≠ none) : Ends good (fun _ s' => s' = s) X (canonicalize p) s := by
  unfold canonicalize
  apply ends_change hfault
  · intro hnone
    rw [if_neg h] at hnone
    cases hnone
  · intro t ht
    rw [if_neg h] at ht
    cases ht
    rfl

/-- A file takes the place of another one. -/
theorem rename_over {t : FileTree} {p q : Path} {bytes old : List UInt8}
    (hp : t.look p = some (.file bytes)) (hq : t.look q = some (.file old)) (hpnil : p ≠ [])
    (hqnil : q ≠ []) (hne : p ≠ q) : ∃ t', t.rename p q = some t' := by
  have hbelow : ¬p <+: q := by
    intro hbelow
    have habove := look_above hbelow hne (by rw [hq]; simp)
    rw [hp] at habove
    cases habove
  have hparent : t.look q.dropLast = some .dir := look_dropLast hqnil (by rw [hq]; simp)
  unfold FileTree.rename
  rw [hp]
  dsimp only
  rw [if_neg hne, if_pos ⟨hpnil, hqnil, hbelow, hparent, by rw [hq]; rfl⟩]
  exact ⟨_, rfl⟩

/-- A file is overwritten. -/
theorem ends_writeAll_over {p : Path} {bytes old : List UInt8}
    (hfault : ∀ s o, good s o → o.fault = none) (hp : p ≠ [])
    (hold : s.files.look p = some (.file old)) :
    Ends good (fun _ s' => ∀ q, s'.files.look q =
      if q = p then some (.file bytes) else s.files.look q) X (writeAll p bytes) s := by
  have hwrite : ∀ b, ∃ t, s.files.write p b = some t := fun b =>
    write_of_look hp (look_dropLast hp (by rw [hold]; simp)) (by rw [hold]; simp)
  apply ends_writeAll
  · exact fun o ho hne => absurd (hfault s o ho) hne
  · intro n hnone
    obtain ⟨t, ht⟩ := hwrite (bytes.take n)
    rw [ht] at hnone
    cases hnone
  · intro t ht q
    rw [withFiles_files, look_write ht]

/-- A request for a manifest that is there succeeds when no call fails. -/
theorem ends_replaceImageManifest_calm {bytes : List UInt8}
    (hvalid : m.validate m.imageId.asStr = .ok ())
    (hfile : s.files.look (self.manifestPath m.imageId) = some (.file bytes)) :
    Ends (Calm self m.imageId) (fun _ _ => True) X (replaceImageManifest self yaml m) s := by
  have hfault : ∀ {s : Store} {P : Prop} (o : Outcome), Calm self m.imageId s o →
      o.fault ≠ none → P := fun o ho hne => absurd ho.1 hne
  have hdir : s.files.look (self.imageRoot m.imageId) = some .dir := by
    apply look_parent (a := "manifest.yaml")
    exact ne_of_eq_of_ne hfile (by simp)
  have hroot : s.files.look self.root ≠ none := by
    by_cases h : self.root = self.imageRoot m.imageId
    · rw [h, hdir]
      simp
    · have habove := look_above (q := self.root) (p := self.imageRoot m.imageId)
        (prefix_append _ _) h (by rw [hdir]; simp)
      rw [habove]
      simp
  unfold replaceImageManifest
  rw [hvalid]
  apply Ends.bind (M := fun present s' => s' = s ∧ present = true)
  · apply ends_isFile
    rw [hfile]
    exact ⟨rfl, rfl⟩
  rintro _ _ ⟨hs, rfl⟩
  rw [hs]
  dsimp only
  rw [if_neg (by simp)]
  apply Ends.bind (M := fun _ s' => s' = s)
  · exact ends_canonicalize hfault hroot
  rintro _ _ hs
  rw [hs]
  apply Ends.bind (M := fun _ s' => s' = s)
  · exact ends_canonicalize hfault (by rw [hdir]; simp)
  rintro _ _ hs
  rw [hs, if_neg (by rw [not_not]; exact prefix_append _ _)]
  apply Ends.bind (M := fun nanos s' => s' = s ∧
    s.files.look (self.imageRoot m.imageId ++ [self.temporary "manifest" nanos]) = none)
  · exact ImageImport.ends_clock fun o ho => ⟨rfl, ho.2⟩
  rintro nanos _ ⟨hs, hfresh⟩
  rw [hs]
  have hne := @manifestPath_ne_temporary self m.imageId nanos
  generalize self.temporary "manifest" nanos = temporary at hne hfresh ⊢
  apply Ends.bind (M := fun _ _ => True)
  · apply ends_onError
    obtain ⟨t₁, ht₁⟩ := write_child (a := temporary) [] hdir (by rw [hfresh]; simp)
    apply Ends.bind (M := fun _ s' => s' = s.withFiles t₁)
    · apply ends_change_of_some hfault ?_ rfl
      exact (if_pos hfresh).trans ht₁
    rintro _ _ rfl
    have htemporary : self.imageRoot m.imageId ++ [temporary] ≠ [] := by simp
    have hlook₁ : t₁.look (self.imageRoot m.imageId ++ [temporary]) = some (.file []) := by
      rw [look_write ht₁, if_pos rfl]
    apply Ends.bind (ends_writeAll_over (fun _ _ ho => ho.1) htemporary hlook₁)
    intro _ s₂ h₂
    have hlook₂ := h₂ (self.imageRoot m.imageId ++ [temporary])
    rw [if_pos rfl] at hlook₂
    apply Ends.bind (ends_writeAll_over (fun _ _ ho => ho.1) htemporary hlook₂)
    intro _ s₃ h₃
    have hlook₃ := h₃ (self.imageRoot m.imageId ++ [temporary])
    rw [if_pos rfl] at hlook₃
    apply Ends.bind (M := fun _ s' => s' = s₃)
    · exact ends_change_of_some hfault rfl rfl
    rintro _ _ hs₃
    rw [hs₃]
    -- The manifest of before is still there.
    have hmanifest : s₃.files.look (self.manifestPath m.imageId) = some (.file bytes) := by
      rw [h₃, if_neg (Ne.symm hne), h₂, if_neg (Ne.symm hne), withFiles_files,
        look_write ht₁, if_neg (Ne.symm hne), hfile]
    obtain ⟨t₄, ht₄⟩ := rename_over hlook₃ hmanifest htemporary
      (by simp [Handle.manifestPath]) hne
    apply Ends.bind (M := fun _ _ => True)
    · exact ends_change_of_some hfault ht₄ trivial
    intro _ s₄ _
    exact ends_change_of_some hfault rfl trivial
  · exact fun _ _ h => h

/-- The clock may name no file of the image. -/
theorem exists_calm (self : Handle) (imageId : Id) (s : Store) : ∃ o, Calm self imageId s o := by
  have hinjective : Function.Injective (self.temporary "manifest") := by
    intro a b h
    have hdigits : (toString a).toList = (toString b).toList := by
      have htext := congrArg String.toList h
      simpa [Handle.temporary] using htext
    rw [← ofDigitChars_toString a, ← ofDigitChars_toString b, hdigits]
  obtain ⟨_, ⟨nanos, rfl⟩, hnew⟩ := (Set.infinite_range_of_injective hinjective).exists_notMem_finset
    (s.files.names (self.imageRoot imageId)).toFinset
  refine ⟨{ nanos }, rfl, ?_⟩
  rw [mem_toFinset, mem_names, not_not] at hnew
  exact hnew

end Replace

/-! ## What is preserved -/

/-- The components that the request does not name are as before. -/
structure Preserved (document : Json) (m m' : ImageManifest) : Prop where
  components : ∀ name, m'.components.get? name = m.components.get? name
  disk : document.field "disk_sha256" = none → m'.diskSha256 = m.diskSha256
  firmware : document.field "firmware_sha256" = none → m'.firmwareSha256 = m.firmwareSha256
  tpmState : document.field "tpm_state_sha256" = none → m'.tpmStateSha256 = m.tpmStateSha256

/-- The request names every digest that the manifest has. -/
structure Names (document : Json) (m : ImageManifest) : Prop where
  disk : document.field "disk_sha256" = none → m.diskSha256 = ""
  firmware : document.field "firmware_sha256" = none → m.firmwareSha256 = none
  tpmState : document.field "tpm_state_sha256" = none → m.tpmStateSha256 = none

section Main

variable {self : Handle} {yaml : Yaml} {text : DocumentText} {imageId : Id} {m m' : ImageManifest}
  {s : Store} {document : Json} {body : List UInt8}

/-- What is read from a document without the map. -/
theorem fields_of_fromDocument (h : ImageManifest.fromDocument document = some m')
    (hcomponents : document.field "components" = none) :
    m'.components = SortedMap.empty ∧
      diskIn (document.field "disk_sha256") = some m'.diskSha256 ∧
      nullableText (document.field "firmware_sha256") = some m'.firmwareSha256 ∧
      nullableText (document.field "tpm_state_sha256") = some m'.tpmStateSha256 := by
  unfold ImageManifest.fromDocument at h
  simp only [Option.bind_eq_bind, Option.bind_eq_some_iff, hcomponents] at h
  obtain ⟨_, -, _, -, _, -, _, -, components, hmap, disk, hdisk, firmware, hfirmware, tpm, htpm, hrest⟩
    := h
  obtain rfl := Option.some.inj hrest
  exact ⟨(Option.some.inj hmap).symm, hdisk, hfirmware, htpm⟩

/-- What the code does not preserve. -/
theorem preserved_iff (h : ImageManifest.fromDocument document = some m')
    (hcomponents : document.field "components" = none) :
    Preserved document m m' ↔ m.components = SortedMap.empty ∧ Names document m := by
  obtain ⟨hmap, hdisk, hfirmware, htpm⟩ := fields_of_fromDocument h hcomponents
  have hdefault : ∀ {value : Option String}, nullableText none = some value → value = none :=
    fun h => (Option.some.inj h).symm
  constructor
  · intro hpreserved
    refine ⟨SortedMap.ext_get? fun name => ?_, ?_, ?_, ?_⟩
    · rw [← hpreserved.components name, hmap]
    · intro hnone
      rw [← hpreserved.disk hnone]
      rw [hnone] at hdisk
      exact (Option.some.inj hdisk).symm
    · intro hnone
      rw [← hpreserved.firmware hnone]
      rw [hnone] at hfirmware
      exact hdefault hfirmware
    · intro hnone
      rw [← hpreserved.tpmState hnone]
      rw [hnone] at htpm
      exact hdefault htpm
  · rintro ⟨hempty, hnames⟩
    refine ⟨fun name => by rw [hmap, hempty], ?_, ?_, ?_⟩
    · intro hnone
      rw [hnames.disk hnone]
      rw [hnone] at hdisk
      exact (Option.some.inj hdisk).symm
    · intro hnone
      rw [hnames.firmware hnone]
      rw [hnone] at hfirmware
      exact hdefault hfirmware
    · intro hnone
      rw [hnames.tpmState hnone]
      rw [hnone] at htpm
      exact hdefault htpm

theorem completed_of_empty (h : m.components = SortedMap.empty) : m.completed = m := by
  have hdigest : ∀ name, m.componentDigest name = none := by
    intro name
    unfold ImageManifest.componentDigest
    rw [h]
    rfl
  unfold ImageManifest.completed
  simp only [hdigest, Option.getD_none, Option.or_none]
  split
  · next hdisk => rw [← hdisk]
  · rfl

/-- The manifest that a request has put in place is the registered one. -/
theorem registeredImage_of_replaced (hcomponents : m'.components = SortedMap.empty)
    (hvalid : m'.validate m'.imageId.asStr = .ok ())
    (hyaml : yaml.readManifest (replaced yaml m') = .ok m')
    (hlook : s.files.look (self.manifestPath m'.imageId) = some (.file (replaced yaml m'))) :
    registeredImage self yaml s.files m'.imageId = some m' :=
  registeredImage_of_look hlook hyaml (completed_of_empty hcomponents) hvalid

/-- The tracks of a manifest that the store accepts. -/
theorem valid_of_validate {expected : String} (h : m.validate expected = .ok ()) :
    Id.isValid m.imageId.asStr = true ∧
      ∀ track ∈ m.engineTrack :: m.supportedEngineTracks, Id.isValid track.asStr = true := by
  unfold ImageManifest.validate at h
  split at h
  · cases h
  · next i hid =>
    split at h
    · cases h
    · next hnone =>
      refine ⟨?_, ?_⟩
      · by_contra hbad
        rw [Id.new, if_neg hbad] at hid
        cases hid
      · intro track htrack
        simpa using List.find?_eq_none.1 hnone track htrack

/-- A request ends, when it succeeds, with its manifest registered. -/
theorem ends_putImage {id : String} (h : imageRequest text id body = .ok (document, m'))
    (hvalid : m'.validate m'.imageId.asStr = .ok ())
    (hyaml : yaml.readManifest (replaced yaml m') = .ok m') {good : Store → Outcome → Prop} :
    Ends good (fun _ s' => registeredImage self yaml s'.files m'.imageId = some m')
      (fun _ _ => True) (putImage self yaml text id body) s := by
  obtain ⟨-, hread, hcomponents, -⟩ := imageRequest_eq_ok h
  have hmap := (fields_of_fromDocument hread hcomponents).1
  unfold putImage
  rw [h]
  apply Ends.bind (ends_replaceImageManifest (fun _ _ => trivial))
  intro _ s' hlook
  exact registeredImage_of_replaced hmap hvalid hyaml hlook

/-- A request for a registered image succeeds when no call fails. -/
theorem ends_putImage_calm {id : String} (h : imageRequest text id body = .ok (document, m'))
    (hvalid : m'.validate m'.imageId.asStr = .ok ())
    (himage : registeredImage self yaml s.files m'.imageId = some m) :
    Ends (Calm self m'.imageId) (fun _ _ => True) (fun _ _ => False)
      (putImage self yaml text id body) s := by
  obtain ⟨-, -, bytes, -, hfile, -⟩ := registeredImage_eq_some himage
  unfold putImage
  rw [h]
  apply Ends.bind (ends_replaceImageManifest_calm hvalid hfile)
  exact fun _ _ _ => trivial

/-- A client may send back what it reads: the request succeeds and the manifest stays. -/
def RoundTrips (self : Handle) (yaml : Yaml) (text : DocumentText) (imageId : Id)
    (m : ImageManifest) (s : Store) : Prop :=
  Ends (Calm self imageId)
    (fun _ s' => registeredImage self yaml s'.files imageId = some m) (fun _ _ => False)
    (getThenPut self yaml text imageId.asStr) s

/-- Every request that succeeds leaves the components that it does not name. -/
def Preserves (self : Handle) (yaml : Yaml) (text : DocumentText) (imageId : Id)
    (m : ImageManifest) (s : Store) (body : List UInt8) (document : Json) : Prop :=
  Ends (fun _ _ => True)
    (fun _ s' => ∃ m', registeredImage self yaml s'.files imageId = some m' ∧
      Preserved document m m') (fun _ _ => True)
    (putImage self yaml text imageId.asStr body) s

theorem Calm.fault {s : Store} {o : Outcome} (h : Calm self imageId s o) : o.fault = none := h.1

theorem roundTrips_iff (himage : registeredImage self yaml s.files imageId = some m)
    (htext : text.parse (text.render m.toDocument) = .ok m.toDocument)
    (hyaml : yaml.readManifest (replaced yaml m) = .ok m) :
    RoundTrips self yaml text imageId m s ↔ m.components = SortedMap.empty := by
  obtain ⟨hid, hvalid, -⟩ := registeredImage_eq_some himage
  subst hid
  obtain ⟨hidValid, htracks⟩ := valid_of_validate hvalid
  have hget : ∀ {X : Error → Store → Prop}, Ends (Calm self m.imageId)
      (fun body s' => s' = s ∧ body = text.render m.toDocument) X
      (getImage self yaml text m.imageId.asStr) s := by
    intro X
    unfold getImage
    rw [show Id.new "image" m.imageId.asStr = .ok m.imageId from if_pos hidValid]
    apply Ends.bind (ends_image_of_registered (fun _ _ ho => ho.fault) himage)
    rintro _ _ ⟨rfl, rfl⟩
    exact ⟨rfl, rfl⟩
  constructor
  · intro h
    by_contra hmap
    obtain ⟨name, hrefused⟩ := imageRequest_of_nonempty hmap htext m.imageId.asStr
    have hnever : Ends (Calm self m.imageId) (fun _ _ => False) (fun _ _ => True)
        (getThenPut self yaml text m.imageId.asStr) s := by
      apply Ends.bind hget
      rintro _ _ ⟨rfl, rfl⟩
      unfold putImage
      rw [hrefused]
      trivial
    have hboth : Ends (Calm self m.imageId) (fun _ _ => False) (fun _ _ => False)
        (getThenPut self yaml text m.imageId.asStr) s :=
      (h.and hnever).mono (fun _ _ h => h.2) fun _ _ h => h.1
    obtain ⟨-, -, hfalse⟩ := hboth.exists (exists_calm self m.imageId)
    exact hfalse
  · intro hmap
    have hrequest := imageRequest_of_empty hidValid htracks hmap htext
    apply Ends.bind hget
    rintro _ _ ⟨hs, rfl⟩
    rw [hs]
    have hput : Ends (Calm self m.imageId)
        (fun _ s' => registeredImage self yaml s'.files m.imageId = some m) (fun _ _ => True)
        (putImage self yaml text m.imageId.asStr (text.render m.toDocument)) s :=
      ends_putImage hrequest hvalid hyaml
    exact (hput.and (ends_putImage_calm hrequest hvalid himage)).mono (fun _ _ h => h.1)
      fun _ _ h => h.2

theorem preserves_iff (himage : registeredImage self yaml s.files imageId = some m)
    (hrequest : imageRequest text imageId.asStr body = .ok (document, m'))
    (hvalid : m'.validate m'.imageId.asStr = .ok ())
    (hyaml : yaml.readManifest (replaced yaml m') = .ok m') :
    Preserves self yaml text imageId m s body document ↔
      m.components = SortedMap.empty ∧ Names document m := by
  obtain ⟨-, hread, hcomponents, hid⟩ := imageRequest_eq_ok hrequest
  have hsame : m'.imageId = imageId := by
    unfold Id.new at hid
    split at hid
    · exact (Except.ok.inj hid).symm
    · cases hid
  subst hsame
  rw [← preserved_iff hread hcomponents]
  constructor
  · intro h
    have hcalm : Ends (Calm self m'.imageId) _ _ _ _ := h.fewer fun _ _ _ => trivial
    have hall : Ends (Calm self m'.imageId) (fun _ _ => Preserved document m m')
        (fun _ _ => False) (putImage self yaml text m'.imageId.asStr body) s := by
      refine ((hcalm.and (ends_putImage hrequest hvalid hyaml)).and
        (ends_putImage_calm hrequest hvalid himage)).mono ?_ fun _ _ h => h.2
      rintro _ s' ⟨⟨⟨found, hfound, hpreserved⟩, hput⟩, -⟩
      rw [hput] at hfound
      rwa [← Option.some.inj hfound] at hpreserved
    obtain ⟨-, -, hpreserved⟩ := hall.exists (exists_calm self m'.imageId)
    exact hpreserved
  · intro h
    exact (ends_putImage hrequest hvalid hyaml).mono (fun _ _ hput => ⟨m', hput, h⟩)
      fun _ _ _ => trivial

/-- The document of an image may be sent back when there is no map of components, and a request
leaves what it does not name when there is no map and it names every digest. -/
theorem image_documents_iff (self : Handle) (yaml : Yaml) (text : DocumentText) (imageId : Id)
    (m : ImageManifest) (s : Store) (himage : registeredImage self yaml s.files imageId = some m)
    (htext : text.parse (text.render m.toDocument) = .ok m.toDocument)
    (hyaml : yaml.readManifest (replaced yaml m) = .ok m) :
    (RoundTrips self yaml text imageId m s ↔ m.components = SortedMap.empty) ∧
      ∀ body document m', imageRequest text imageId.asStr body = .ok (document, m') →
        m'.validate m'.imageId.asStr = .ok () → yaml.readManifest (replaced yaml m') = .ok m' →
          (Preserves self yaml text imageId m s body document ↔
            m.components = SortedMap.empty ∧ Names document m) :=
  ⟨roundTrips_iff himage htext hyaml, fun _ _ _ => preserves_iff himage⟩

end Main

/-! ## Two images -/

/-- A serialiser of the manifest of one image. -/
def yamlFor (image : ImageManifest) : Yaml where
  manifest manifest := textBytes (imageText manifest)
  readManifest bytes :=
    if bytes = textBytes (imageText image) ∨ bytes = textBytes (imageText image) ++ textBytes "\n" then
      .ok image
    else .error "not read"
  bundle bundle := textBytes (bundleText bundle)
  readBundle _ := .error "not read"

/-- The text of the document of one image. -/
def textFor (image : ImageManifest) : DocumentText where
  render document := textBytes document.render
  parse bytes :=
    if bytes = textBytes image.toDocument.render then .ok image.toDocument else .error "not read"

theorem parse_textFor (image : ImageManifest) :
    (textFor image).parse ((textFor image).render image.toDocument) = .ok image.toDocument :=
  if_pos rfl

theorem readManifest_yamlFor (image : ImageManifest) :
    (yamlFor image).readManifest (replaced (yamlFor image) image) = .ok image :=
  if_pos (Or.inr rfl)

theorem registered_yamlFor {image : ImageManifest} {file : String}
    (hcompleted : image.completed = image)
    (hvalid : image.validate image.imageId.asStr = .ok ()) :
    registeredImage { root := ["full"], pid := 7 } (yamlFor image) (storeOf image file).files
      image.imageId = some image := by
  have hlook : (storeOf image file).files.look
      (Handle.manifestPath { root := ["full"], pid := 7 } image.imageId) =
        some (.file (textBytes (imageText image))) := by
    simp [storeOf, Handle.manifestPath, Handle.imageRoot, FileTree.look, FileTree.get,
      FileTree.entry, FileTree.head]
  exact registeredImage_of_look hlook (if_pos (Or.inl rfl)) hcompleted hvalid

/-- An image that has been imported has a map of its components. -/
def imported : ImageManifest where
  imageId := ⟨"win11"⟩
  engineTrack := ⟨"qemu"⟩
  supportedEngineTracks := []
  target := "x86_64-softmmu"
  components := componentsOf (some (sha256 [1])) none none
  diskSha256 := sha256 [1]
  firmwareSha256 := none
  tpmStateSha256 := none

/-- An image that has been registered has none. -/
theorem image_documents_iff_win11 :
    (RoundTrips { root := ["full"], pid := 7 } (yamlFor win11) (textFor win11) ⟨"win11"⟩ win11
        (storeOf win11 "disk.qcow2") ↔ win11.components = SortedMap.empty) ∧
      ∀ body document m', imageRequest (textFor win11) "win11" body = .ok (document, m') →
        m'.validate m'.imageId.asStr = .ok () →
          (yamlFor win11).readManifest (replaced (yamlFor win11) m') = .ok m' →
            (Preserves { root := ["full"], pid := 7 } (yamlFor win11) (textFor win11) ⟨"win11"⟩
                win11 (storeOf win11 "disk.qcow2") body document ↔
              win11.components = SortedMap.empty ∧ Names document win11) :=
  image_documents_iff _ _ _ _ _ _
    (@registered_yamlFor win11 "disk.qcow2" (by decide +kernel) (by decide +kernel))
    (parse_textFor win11) (readManifest_yamlFor win11)

/-- The document of an image that has been imported is refused. -/
theorem not_image_documents : ¬ ∀ (self : Handle) (yaml : Yaml) (text : DocumentText)
    (imageId : Id) (m : ImageManifest) (s : Store),
    registeredImage self yaml s.files imageId = some m →
      text.parse (text.render m.toDocument) = .ok m.toDocument →
        yaml.readManifest (replaced yaml m) = .ok m →
          RoundTrips self yaml text imageId m s ∧
            ∀ body document m', imageRequest text imageId.asStr body = .ok (document, m') →
              m'.validate m'.imageId.asStr = .ok () →
                yaml.readManifest (replaced yaml m') = .ok m' →
                  Preserves self yaml text imageId m s body document := by
  intro h
  have himage := @registered_yamlFor imported "disk.qcow2" (by decide +kernel) (by decide +kernel)
  have hround := (h _ _ (textFor imported) _ _ _ himage (parse_textFor imported)
    (readManifest_yamlFor imported)).1
  rw [roundTrips_iff himage (parse_textFor imported) (readManifest_yamlFor imported)] at hround
  have hentries := congrArg (fun map => map.entries.length) hround
  simp [imported, componentsOf, SortedMap.insert, SortedMap.insertInto, SortedMap.empty] at hentries

end MachineEmu.ImageDocuments
