import MachineEmu.Storage.Images
import MachineEmu.Lib.Json

/-!
# Engine selection

The choice of the engine build of a new instance, from the engine constraint of the profile, the
engines that the image lists and the builds that are available.

* `EngineCapability` — a build of an engine track.
* `profileTracks`, `imageTracks` — the tracks that a document accepts, in every shape of its
  constraint.
* `chooseEngine` — the choice; `imageDocument` — the document of a registered image.
* `selects_iff_firstFits` — when the choice is sound and complete.
* `supportsOwnTrack_iff` — when an image supports the track it was built for.
-/

namespace MachineEmu

open Lib Prog Store List

/-! ## Documents -/

/-- Source: `resolution/mod.rs` `EngineCapability`. -/
structure EngineCapability where
  track : String
  buildDigest : Option String := none
  executable : Option String := none
  patchRevision : Option String := none
  machines : List String := []
  deriving Inhabited

/-- The build carries a digest and an executable. -/
def EngineCapability.Pinned (e : EngineCapability) : Prop :=
  e.buildDigest ≠ none ∧ e.executable ≠ none

instance (e : EngineCapability) : Decidable e.Pinned := inferInstanceAs (Decidable (_ ∧ _))

/-- Source: `domain/configuration.rs` `DocumentMetadata`. -/
structure DocumentMetadata where
  name : String
  revision : Int := 1
  digest : Option String := none

/-- A versioned document: `PartialProfile`, `ImageManifestDocument`.
Source: `domain/configuration.rs`. -/
structure Document where
  apiVersion : String := "machineemu.io/v1"
  kind : String
  metadata : DocumentMetadata
  spec : Json

/-- A JSON value that may be missing. -/
def optional : Option String → Json
  | some s => .str s
  | none => .null

/-! ## Constraints -/

/-- The tracks that a constraint lists: one track, or a list of tracks. -/
def listedTracks : Json → Option (List String)
  | .str track => some [track]
  | .arr items => some (items.filterMap Json.asStr)
  | _ => none

/-- The tracks that the engine constraint of a profile accepts: the constraint is a track, a list
of tracks, or an object with `tracks` or `track`. A profile without one accepts every track. -/
def profileTracks (profile : Json) : Option (List String) :=
  (profile.field "engine").bind fun v =>
    (((v.field "tracks").bind listedTracks).or ((v.field "track").bind listedTracks)).or
      (listedTracks v)

/-- The tracks that the compatible engines of an image accept. -/
def imageTracks (image : Json) : Option (List String) :=
  (image.field "compatible_engines").bind listedTracks

/-- A profile and an image accept a track. -/
def Accepts (profile image : Json) (track : String) : Prop :=
  (∀ tracks ∈ profileTracks profile, track ∈ tracks) ∧
    ∀ tracks ∈ imageTracks image, track ∈ tracks

/-- A build that may be selected. -/
def EngineCapability.Fits (e : EngineCapability) (profile image : Json) : Prop :=
  e.Pinned ∧ Accepts profile image e.track

/-! ## The choice -/

/-- The track that the choice looks for. -/
def preferredTrack (profile : Json) : Option String :=
  (profile.field "engine").bind fun v =>
    ((((v.field "tracks").bind Json.asArr).bind fun items => items.findSome? Json.asStr).or
      ((v.field "track").bind Json.asStr)).or v.asStr

/-- The tracks that the choice takes from the image. -/
def compatibleEngines (image : Json) : Option (List String) :=
  ((image.field "compatible_engines").bind Json.asArr).map fun items => items.filterMap Json.asStr

/-- Whether the choice stops at a build. -/
def candidate (profile image : Json) (e : EngineCapability) : Bool :=
  (preferredTrack profile).all (fun track => track = e.track) &&
    (compatibleEngines image).all fun tracks => e.track ∈ tracks

/-- The `engine` field of a resolved instance. -/
def engineSelection (profile image : Json) (e : EngineCapability) : Json :=
  .obj [("build_digest", optional e.buildDigest),
    ("compatibility", .obj [
      ("image_tracks", (image.field "compatible_engines").getD (.arr [])),
      ("profile_tracks", ((profile.field "engine").bind fun v =>
        (v.field "tracks").or (some v)).getD (.arr []))]),
    ("executable", optional e.executable),
    ("patch_revision", optional e.patchRevision),
    ("track", .str e.track)]

/-- Choose the build of an instance and write it to its fields.
Source: `resolution/mod.rs` `choose_engine`. -/
def chooseEngine (spec : SortedMap String Json) (profile image : Document)
    (engines : List EngineCapability) : Except Error (SortedMap String Json) :=
  if engines.isEmpty then .error (.process "resolution context has no available engine builds")
  else
    match engines.find? (candidate profile.spec image.spec) with
    | none => .error (.process "no compatible engine build")
    | some e =>
      if e.buildDigest.isNone || e.executable.isNone then
        .error (.process ("engine build " ++ e.track ++
          " is not pinned to a digest and executable"))
      else .ok (spec.insert "engine" (engineSelection profile.spec image.spec e))

/-- The document of a component of an image. -/
def componentDocument (path sha256 digest : String) : Json :=
  .obj [("artifact", .obj [("digest", .str ("sha256:" ++ digest)),
      ("path", .str ("objects/sha256/" ++ digest))]),
    ("path", .str path), ("sha256", .str sha256)]

/-- The components of an image document: those of the manifest, or those of its digests where it
lists none. -/
def componentDocuments (image : ImageManifest) : Json :=
  if image.components.entries.isEmpty then
    [("disk", "components/disk.qcow2", some image.diskSha256),
      ("firmware", "components/firmware.fd", image.firmwareSha256),
      ("tpm_state", "components/tpm-state", image.tpmStateSha256)].foldl
      (fun components (name, path, digest) =>
        match digest with
        | some digest =>
          if digest = "" then components
          else components.setField name (componentDocument path
            ("sha256:" ++ stripDigest digest) (stripDigest digest))
        | none => components) (.obj [])
  else
    .obj (image.components.entries.map fun (name, component) =>
      (name, componentDocument component.path component.sha256 (stripDigest component.sha256)))

/-- The document of a manifest. -/
def manifestDocument (image : ImageManifest) : Document where
  kind := "Image"
  metadata := { name := image.imageId.asStr }
  spec := .obj [
    ("compatible_engines", .arr (image.supportedEngineTracks.map fun track => .str track.asStr)),
    ("components", componentDocuments image),
    ("disk_sha256", .str image.diskSha256),
    ("engine_track", .str image.engineTrack.asStr),
    ("firmware_sha256", optional image.firmwareSha256),
    ("target", .str image.target),
    ("tpm_state_sha256", optional image.tpmStateSha256)]

/-- Source: `api/instances.rs` `image_document`. -/
def imageDocument (self : Handle) (yaml : Yaml) (imageId : String) : Task Document :=
  (ofExcept (Id.new "image" imageId)).bind fun id =>
    (image self yaml id).bind fun image => .ret (manifestDocument image)

/-! ## What the choice does -/

section Choice

variable {spec spec' : SortedMap String Json} {profile image : Document}
  {engines : List EngineCapability}

theorem isNone_or_isNone_iff {e : EngineCapability} :
    (e.buildDigest.isNone || e.executable.isNone) = true ↔ ¬ e.Pinned := by
  unfold EngineCapability.Pinned
  cases e.buildDigest <;> cases e.executable <;> simp

/-- The choice takes the first build that it stops at, if that one is pinned. -/
theorem chooseEngine_eq_ok_iff :
    chooseEngine spec profile image engines = .ok spec' ↔
      ∃ e, engines.find? (candidate profile.spec image.spec) = some e ∧ e.Pinned ∧
        spec' = spec.insert "engine" (engineSelection profile.spec image.spec e) := by
  unfold chooseEngine
  cases engines with
  | nil => simp
  | cons first rest =>
    simp only [isEmpty_cons, Bool.false_eq_true, if_false]
    cases (first :: rest).find? (candidate profile.spec image.spec) with
    | none => simp
    | some e =>
      simp only [isNone_or_isNone_iff, Option.some.injEq, exists_eq_left']
      by_cases hpinned : e.Pinned
      · simp [hpinned, eq_comm]
      · simp [hpinned]

theorem optional_injective {a b : Option String} (h : optional a = optional b) : a = b := by
  cases a <;> cases b <;> simp_all [optional]

/-- The field says which build was selected. -/
theorem fits_of_engineSelection {p i : Json} {e e' : EngineCapability}
    (h : engineSelection p i e = engineSelection p i e') (hfits : e'.Fits p i) : e.Fits p i := by
  unfold engineSelection at h
  simp only [Json.obj.injEq, List.cons.injEq, Prod.mk.injEq, true_and, Json.str.injEq, and_true]
    at h
  obtain ⟨hdigest, hexecutable, -, htrack⟩ := h
  unfold EngineCapability.Fits EngineCapability.Pinned at *
  rw [optional_injective hdigest, optional_injective hexecutable, htrack]
  exact hfits

/-! ## Soundness and completeness -/

/-- The result is sound: what is selected is one of the builds and fits; and complete: it is a
failure only where no build fits. -/
structure Selects (spec : SortedMap String Json) (profile image : Document)
    (engines : List EngineCapability) (result : Except Error (SortedMap String Json)) : Prop where
  sound : ∀ spec', result = .ok spec' → ∃ e ∈ engines, e.Fits profile.spec image.spec ∧
    spec' = spec.insert "engine" (engineSelection profile.spec image.spec e)
  complete : ∀ error, result = .error error → ∀ e ∈ engines, ¬ e.Fits profile.spec image.spec

/-- The first of the builds with the track that the choice looks for and that the image lists.
Where a build fits, that one does; where none does, that one is not pinned. -/
structure FirstFits (profile image : Json) (engines : List EngineCapability) : Prop where
  fits : (∃ e ∈ engines, e.Fits profile image) →
    ∃ e, engines.find? (candidate profile image) = some e ∧ e.Fits profile image
  unfit : (∀ e ∈ engines, ¬ e.Fits profile image) →
    ∀ e, engines.find? (candidate profile image) = some e → ¬ e.Pinned

/-- The choice of an engine build is sound and complete for the inputs whose first candidate
decides. -/
theorem selects_iff_firstFits (spec : SortedMap String Json) (profile image : Document)
    (engines : List EngineCapability) :
    Selects spec profile image engines (chooseEngine spec profile image engines) ↔
      FirstFits profile.spec image.spec engines := by
  constructor
  · intro h
    have hpinned : ∀ e, engines.find? (candidate profile.spec image.spec) = some e → e.Pinned →
        e.Fits profile.spec image.spec := by
      intro e he hpinned
      obtain ⟨e', -, hfits, hspec⟩ := h.sound _ (chooseEngine_eq_ok_iff.2 ⟨e, he, hpinned, rfl⟩)
      apply fits_of_engineSelection ?_ hfits
      have hengine := congrArg (fun m => SortedMap.get? m "engine") hspec
      simpa [SortedMap.get?_insert] using hengine
    constructor
    · rintro ⟨e, he, hfits⟩
      cases hresult : chooseEngine spec profile image engines with
      | error error => exact absurd hfits (h.complete error hresult e he)
      | ok spec' =>
        obtain ⟨e', he', hp, -⟩ := chooseEngine_eq_ok_iff.1 hresult
        exact ⟨e', he', hpinned e' he' hp⟩
    · intro hnone e he hp
      exact hnone e (mem_of_find?_eq_some he) (hpinned e he hp)
  · intro h
    have hsome : ∀ e ∈ engines, e.Fits profile.spec image.spec →
        ∃ e, engines.find? (candidate profile.spec image.spec) = some e ∧
          e.Fits profile.spec image.spec := fun e he hfits => h.fits ⟨e, he, hfits⟩
    constructor
    · intro spec' hspec'
      obtain ⟨e, he, hp, rfl⟩ := chooseEngine_eq_ok_iff.1 hspec'
      refine ⟨e, mem_of_find?_eq_some he, ?_, rfl⟩
      by_cases hany : ∃ e ∈ engines, e.Fits profile.spec image.spec
      · obtain ⟨e', he', hfits⟩ := h.fits hany
        rw [he] at he'
        cases he'
        exact hfits
      · simp only [not_exists, not_and] at hany
        exact absurd hp (h.unfit hany e he)
    · intro error herror e he hfits
      obtain ⟨e', he', hfits'⟩ := hsome e he hfits
      rw [chooseEngine_eq_ok_iff.2 ⟨e', he', hfits'.1, rfl⟩] at herror
      cases herror

/-- The choice looks for the first track of the profile only, and fails where another one of them
has a build. -/
theorem not_selects : ¬ ∀ spec profile image engines,
    Selects spec profile image engines (chooseEngine spec profile image engines) := by
  intro h
  let profile : Document :=
    { kind := "Profile", metadata := { name := "desktop" }
      spec := .obj [("engine", .obj [("tracks", .arr [.str "qemu-next", .str "qemu"])])] }
  let image : Document :=
    { kind := "Image", metadata := { name := "win11" }, spec := .obj [] }
  let build : EngineCapability :=
    { track := "qemu", buildDigest := some "sha256:00", executable := some "/opt/qemu" }
  refine (h .empty profile image [build]).complete _ rfl build (by simp) ⟨⟨?_, ?_⟩, ?_⟩
  · simp [build]
  · simp [build]
  · simp [Accepts, profileTracks, imageTracks, listedTracks, Json.field, profile, image, build,
      Json.asStr]

end Choice

/-! ## The track an image was built for -/

/-- A manifest accepts a track: the one it was built for or one that it supports. -/
def ImageManifest.Accepts (image : ImageManifest) (track : String) : Prop :=
  track = image.engineTrack.asStr ∨ track ∈ image.supportedEngineTracks.map Id.asStr

/-- A pinned build of the track that the image was built for is available. -/
def ImageManifest.OwnTrackAvailable (image : ImageManifest) (engines : List EngineCapability) :
    Prop :=
  ∃ e ∈ engines, e.Pinned ∧ e.track = image.engineTrack.asStr

/-- A profile without an engine constraint gets a build of a track that the manifest accepts,
where a pinned build of the image's own track is available. -/
def SupportsOwnTrack (image : ImageManifest) (document profile : Document)
    (spec : SortedMap String Json) (engines : List EngineCapability) : Prop :=
  profileTracks profile.spec = none → image.OwnTrackAvailable engines →
    ∃ e ∈ engines, image.Accepts e.track ∧ chooseEngine spec profile document engines =
      .ok (spec.insert "engine" (engineSelection profile.spec document.spec e))

/-- Where a pinned build of the image's own track is available, the first build of a track that
the image lists as supported is pinned. -/
def FirstSupportedPinned (image : ImageManifest) (profile : Document)
    (engines : List EngineCapability) : Prop :=
  profileTracks profile.spec = none → image.OwnTrackAvailable engines →
    ∃ e, engines.find? (fun e => e.track ∈ image.supportedEngineTracks.map Id.asStr) = some e ∧
      e.Pinned

section OwnTrack

variable {image : ImageManifest} {profile : Document} {spec : SortedMap String Json}
  {engines : List EngineCapability}

/-- A profile without a constraint prefers no track. -/
theorem preferredTrack_of_profileTracks {p : Json} (h : profileTracks p = none) :
    preferredTrack p = none := by
  unfold profileTracks at h
  unfold preferredTrack
  cases hengine : p.field "engine" with
  | none => rfl
  | some v =>
    simp only [hengine, Option.bind_some, Option.or_eq_none_iff] at h
    obtain ⟨⟨htracks, htrack⟩, hv⟩ := h
    have hstr : ∀ j, listedTracks j = none → j.asStr = none ∧ j.asArr = none := by
      intro j hj
      cases j <;> simp_all [listedTracks, Json.asStr, Json.asArr]
    simp only [Option.bind_some, Option.or_eq_none_iff]
    refine ⟨⟨?_, ?_⟩, (hstr v hv).1⟩
    · cases hfield : v.field "tracks" with
      | none => rfl
      | some j =>
        rw [hfield] at htracks
        simp [(hstr j htracks).2]
    · cases hfield : v.field "track" with
      | none => rfl
      | some j =>
        rw [hfield] at htrack
        exact (hstr j htrack).1

/-- The document of an image lists the tracks that its manifest supports, and not its own one. -/
theorem compatibleEngines_manifestDocument (image : ImageManifest) :
    compatibleEngines (manifestDocument image).spec =
      some (image.supportedEngineTracks.map Id.asStr) := by
  have hfield : (manifestDocument image).spec.field "compatible_engines" =
      some (.arr (image.supportedEngineTracks.map fun track => .str track.asStr)) := rfl
  unfold compatibleEngines
  rw [hfield]
  simp only [Option.bind_some, Json.asArr, Option.map_some, Option.some.injEq, filterMap_map]
  exact congrFun (filterMap_eq_map (f := Id.asStr)) _

theorem candidate_manifestDocument (h : profileTracks profile.spec = none) :
    candidate profile.spec (manifestDocument image).spec =
      fun e => decide (e.track ∈ image.supportedEngineTracks.map Id.asStr) := by
  funext e
  unfold candidate
  rw [preferredTrack_of_profileTracks h, compatibleEngines_manifestDocument]
  simp

theorem supportsOwnTrack_iff :
    SupportsOwnTrack image (manifestDocument image) profile spec engines ↔
      FirstSupportedPinned image profile engines := by
  unfold SupportsOwnTrack FirstSupportedPinned
  refine imp_congr_right fun hprofile => imp_congr_right fun _ => ?_
  constructor
  · rintro ⟨e, -, -, hok⟩
    obtain ⟨e', he', hpinned, -⟩ := chooseEngine_eq_ok_iff.1 hok
    rw [candidate_manifestDocument hprofile] at he'
    exact ⟨e', he', hpinned⟩
  · rintro ⟨e, he, hpinned⟩
    have haccepts := List.find?_some he
    rw [decide_eq_true_eq] at haccepts
    refine ⟨e, mem_of_find?_eq_some he, .inr haccepts, ?_⟩
    refine chooseEngine_eq_ok_iff.2 ⟨e, ?_, hpinned, rfl⟩
    rw [candidate_manifestDocument hprofile]
    exact he

/-- For every registered image, a profile without an engine constraint gets a build of the track
the image was built for, or of another that it accepts, exactly when the first available build of
a track listed as supported is pinned. -/
theorem imageDocument_supportsOwnTrack_iff (self : Handle) (yaml : Yaml) (imageId : String)
    (profile : Document) (spec : SortedMap String Json) (engines : List EngineCapability)
    (s : Store) :
    Ends (fun _ _ => True)
      (fun document _ => ∃ image, registeredImage self yaml s.files ⟨imageId⟩ = some image ∧
        (SupportsOwnTrack image document profile spec engines ↔
          FirstSupportedPinned image profile engines))
      (fun _ _ => True) (imageDocument self yaml imageId) s := by
  refine Ends.bind (M := fun id s' => s' = s ∧ id = ⟨imageId⟩)
    (ends_ofExcept.2 ⟨fun id hid => ⟨rfl, ?_⟩, fun _ _ => trivial⟩) ?_
  · rw [← Id.new_ok hid]
  · intro id s₁ h₁
    obtain ⟨hs₁, hid⟩ := h₁
    rw [hs₁, hid]
    refine Ends.bind (ends_image _) ?_
    intro image s₂ h₂
    exact ⟨image, h₂.2, supportsOwnTrack_iff⟩

end OwnTrack

/-! ### An image without a list -/

/-- The manifest that the import of a base directory writes. -/
def importedImage : ImageManifest where
  imageId := ⟨"win11"⟩
  engineTrack := ⟨"qemu"⟩
  supportedEngineTracks := []
  target := "x86_64-softmmu"
  components := .empty
  diskSha256 := ""
  firmwareSha256 := none
  tpmStateSha256 := none

/-- A serialiser that reads this manifest. -/
def readsImported : Yaml where
  manifest _ := []
  readManifest _ := .ok importedImage
  bundle _ := []
  readBundle _ := .error "not read"

/-- An image without supported tracks has no build, although one of its own track is there. -/
theorem not_imageDocument_supportsOwnTrack : ¬ ∀ (self : Handle) (yaml : Yaml) (imageId : String)
    (profile : Document) (spec : SortedMap String Json) (engines : List EngineCapability)
    (s : Store), Ends (fun _ _ => True)
      (fun document _ => ∃ image, registeredImage self yaml s.files ⟨imageId⟩ = some image ∧
        SupportsOwnTrack image document profile spec engines)
      (fun _ _ => True) (imageDocument self yaml imageId) s := by
  intro h
  let self : Handle := { root := ["workspace"], pid := 7 }
  let profile : Document :=
    { kind := "Profile", metadata := { name := "desktop" }, spec := .obj [] }
  let build : EngineCapability :=
    { track := "qemu", buildDigest := some "sha256:00", executable := some "/opt/qemu" }
  let s : Store := { tables := {}, files := .dir [("workspace", .dir [("images", .dir [
    ("win11", .dir [("manifest.yaml", .file [])])])])] }
  have hrun := h self readsImported "win11" profile .empty [build] s
  have himage : registeredImage self readsImported s.files ⟨"win11"⟩ = some importedImage := by
    decide +kernel
  let refuses : Except Error Document × Store → Bool := fun r =>
    match r.1 with
    | .ok document => !(chooseEngine .empty profile document [build]).isOk
    | .error _ => false
  obtain ⟨r, s', hcheck, hQ, -⟩ := hrun.of_eval (fun _ _ => true) {} [] refuses
    (fun _ _ _ => trivial) (by decide +kernel)
  cases r with
  | error e => cases hcheck
  | ok document =>
    obtain ⟨image, hregistered, hsupports⟩ := hQ document rfl
    rw [himage] at hregistered
    cases hregistered
    obtain ⟨e, -, -, hok⟩ := hsupports rfl ⟨build, by simp, by simp [EngineCapability.Pinned, build],
      rfl⟩
    simp only [refuses, hok] at hcheck
    cases hcheck

end MachineEmu
