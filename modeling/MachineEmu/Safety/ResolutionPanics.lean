import MachineEmu.Resolution.Interfaces

/-!
# The panics of a resolution

Every check of a resolution ends in a value or an error. What is left are the defaults of the disks:
a driver that is no object is unwrapped, and the letter of a name is a byte.

* `calm_checkDocuments`, `calm_layered`, `calm_validate`, … — the steps that do not panic.
* `PanicFree` — the documents whose disks the defaults get through.
* `resolveInstance_calm_iff` — the two are the same; `not_resolveInstance_calm` — a panic.
-/

namespace MachineEmu.Resolution

open Lib

/-! ## The documents -/

theorem calm_requireKind (actual expected : String) : Calm (requireKind actual expected) :=
  calm_must _ _

theorem calm_validateObjectKeys (value : Json) (path : String) (allowed : List String) :
    Calm (validateObjectKeys value path allowed) := by
  unfold validateObjectKeys
  split
  · exact calm_ok ()
  · exact calm_forM fun _ _ => calm_must _ _
  · exact calm_fails _

/-- The fields, one after the other. -/
theorem calm_rejectObsoleteFields {fields : List (String × Json)} (path : String)
    (h : ∀ e ∈ fields, ∀ path, Calm (rejectObsoleteIdentityFlags path e.2)) :
    Calm (rejectObsoleteFields path fields) := by
  induction fields with
  | nil => exact calm_ok ()
  | cons e rest ih =>
    unfold rejectObsoleteFields
    refine Calm.bind ?_ fun _ _ => ih fun e' he' => h e' (List.mem_cons_of_mem e he')
    unfold rejectObsoleteField
    exact h e List.mem_cons_self _

/-- The items, one after the other. -/
theorem calm_rejectObsoleteItems {items : List Json} (path : String)
    (h : ∀ v ∈ items, ∀ path, Calm (rejectObsoleteIdentityFlags path v)) (index : Nat) :
    Calm (rejectObsoleteItems path index items) := by
  induction items generalizing index with
  | nil => exact calm_ok ()
  | cons v rest ih =>
    unfold rejectObsoleteItems
    exact (h v List.mem_cons_self _).bind fun _ _ =>
      ih (fun v' hv' => h v' (List.mem_cons_of_mem v hv')) (index + 1)

theorem calm_rejectObsoleteIdentityFlags (v : Json) :
    ∀ path, Calm (rejectObsoleteIdentityFlags path v) := by
  induction v using Json.induct with
  | arr items ih =>
    intro path
    unfold rejectObsoleteIdentityFlags
    exact calm_rejectObsoleteItems path ih 0
  | obj fields ih =>
    intro path
    unfold rejectObsoleteIdentityFlags
    exact (calm_forM fun _ _ => calm_must _ _).bind fun _ _ => calm_rejectObsoleteFields path ih
  | _ =>
    intro path
    unfold rejectObsoleteIdentityFlags
    exact calm_ok ()

theorem calm_validateIdentityFields (value : Json) (path : String) :
    Calm (validateIdentityFields value path) := by
  unfold validateIdentityFields
  refine (calm_validateObjectKeys value path _).bind fun _ _ => ?_
  split
  · exact calm_rejectObsoleteIdentityFlags _ _
  · exact calm_ok ()

theorem calm_checkDocuments (profile : Document) (identity : Option Document) (image : Document)
    (overrides : Json) : Calm (checkDocuments profile identity image overrides) := by
  unfold checkDocuments
  refine (calm_requireKind _ _).bind fun _ _ => ?_
  refine (calm_requireKind _ _).bind fun _ _ => ?_
  refine (calm_forM fun _ _ => calm_requireKind _ _).bind fun _ _ => ?_
  refine (calm_validateObjectKeys _ _ _).bind fun _ _ => ?_
  refine (calm_validateObjectKeys _ _ _).bind fun _ _ => ?_
  refine (calm_forM fun _ _ => calm_validateIdentityFields _ _).bind fun _ _ => ?_
  exact calm_validateObjectKeys _ _ _

/-! ## The layers -/

theorem calm_mergedAnalysis (current analysis : Json) : Calm (mergedAnalysis current analysis) := by
  unfold mergedAnalysis
  split
  · exact (calm_merging _).map _
  · exact calm_ok _

theorem calm_withIdentity (spec : Json) (identity : Option Document) :
    Calm (withIdentity spec identity) := by
  unfold withIdentity
  cases identity with
  | none => exact calm_ok spec
  | some identity =>
    refine (calm_orFails _ _).bind fun _ _ => ?_
    refine (calm_merging _).bind fun _ _ => ?_
    dsimp only
    split
    · exact calm_ok _
    · exact (calm_mergedAnalysis _ _).bind fun _ _ => calm_ok _

theorem calm_withEngine (spec : Json) (profile image : Document) (engines : List EngineCapability) :
    Calm (withEngine spec profile image engines) := by
  unfold withEngine
  split
  · exact calm_failed _
  · exact calm_ok _

theorem calm_layered (profile : Document) (identity : Option Document) (image : Document)
    (overrides : Json) (context : ResolutionContext) :
    Calm (layered profile identity image overrides context) := by
  unfold layered lowerLayers
  refine Calm.bind ?_ fun _ _ => ?_
  · exact (calm_merging _).bind fun _ _ => calm_withIdentity _ _
  · exact (calm_merging _).bind fun _ _ => calm_withEngine _ _ _ _

/-! ## The defaults -/

theorem calm_defaultInterfaces (devices : Json) : Calm (defaultInterfaces devices) := by
  have hmapM : ∀ (items : List Json) (f : Json → Resolves Json), (∀ v, Calm (f v)) →
      Calm (items.mapM f) := by
    intro items f hf
    induction items with
    | nil => exact calm_ok []
    | cons v rest ih =>
      rw [List.mapM_cons]
      exact (hf v).bind fun _ _ => ih.bind fun _ _ => calm_ok _
  unfold defaultInterfaces
  split
  · refine (hmapM _ _ fun v => ?_).bind fun _ _ => calm_ok _
    exact (calm_orFails _ _).bind fun _ _ => calm_ok _
  · exact calm_ok _

/-- The disks that the defaults go through. -/
def disksToFill (spec image : Json) : List Json :=
  match (orInsert spec "devices" (.obj [])).field "devices" with
  | some (.obj fields) =>
    (((withRootDisk (.obj fields) (componentMap image)).field "disks").bind Json.asArr).getD []
  | _ => []

theorem defaultDisks_panics_iff {devices : Json} {components : Option Json} :
    defaultDisks devices components = panics ↔
      DisksPanic components {} (((devices.field "disks").bind Json.asArr).getD []) := by
  have hnil : ¬DisksPanic components {} [] := by
    rw [← defaultDiskList_panics_iff]
    exact calm_ok []
  unfold defaultDisks
  cases hdisks : devices.field "disks" with
  | none => exact iff_of_false (calm_ok _) hnil
  | some value =>
    cases value with
    | arr disks =>
      rw [← defaultDiskList_panics_iff]
      refine bind_panics_iff.trans ⟨?_, Or.inl⟩
      rintro (h | ⟨_, -, h⟩)
      · exact h
      · exact absurd h (calm_ok _)
    | _ => exact iff_of_false (calm_ok _) hnil

theorem expandDevices_panics_iff {devices : Json} {components : Option Json}
    {defaultNetwork : Option String} {architecture machine : Option Json} :
    expandDevices devices components defaultNetwork architecture machine = panics ↔
      DisksPanic components {}
        ((((withRootDisk devices components).field "disks").bind Json.asArr).getD []) := by
  have hdisks : (withInterfaces (withRootDisk devices components) defaultNetwork).field "disks" =
      (withRootDisk devices components).field "disks" := field_orInsert_ne (by decide)
  unfold expandDevices
  dsimp only
  rw [bind_panics_iff, defaultDisks_panics_iff, hdisks]
  refine or_iff_left ?_
  rintro ⟨filled, -, h⟩
  rcases bind_panics_iff.1 h with h | ⟨_, -, h⟩
  · exact calm_defaultInterfaces _ h
  · exact calm_ok _ h

variable {spec : Json}

/-- The fields that neither the architecture nor the machine is in. -/
theorem field_withMachine {image : Json} {name : String} (ha : name ≠ "architecture")
    (hm : name ≠ "machine") :
    (withMachine (withArchitecture spec image)).field name = spec.field name := by
  have harchitecture : (withArchitecture spec image).field name = spec.field name := by
    unfold withArchitecture
    split
    · exact Json.field_setField_ne _ ha _
    · rfl
  unfold withMachine
  split
  · exact (Json.field_setField_ne _ hm _).trans harchitecture
  · exact (Json.field_setField_ne _ hm _).trans harchitecture
  · exact harchitecture

theorem isObj_withMachine {image : Json} :
    (withMachine (withArchitecture spec image)).isObj = spec.isObj := by
  have harchitecture : (withArchitecture spec image).isObj = spec.isObj := by
    unfold withArchitecture
    split
    · exact Json.isObj_setField _ _ _
    · rfl
  unfold withMachine
  split
  · exact (Json.isObj_setField _ _ _).trans harchitecture
  · exact (Json.isObj_setField _ _ _).trans harchitecture
  · exact harchitecture

theorem withResources_ok_iff {result : Json} :
    withResources spec = .ok result ↔ ∃ fields, (spec.field "resources").getD (.obj []) = .obj fields ∧
      result = spec.setField "resources" (vcpusOf (.obj fields)) := by
  unfold withResources
  rw [bind_ok_iff]
  constructor
  · rintro ⟨fields, hfields, h⟩
    exact ⟨fields, asObj_eq_some.1 (orFails_ok_iff.1 hfields), (Except.ok.inj h).symm⟩
  · rintro ⟨fields, hfields, rfl⟩
    exact ⟨fields, orFails_ok_iff.2 (asObj_eq_some.2 hfields), rfl⟩

theorem calm_withResources (spec : Json) : Calm (withResources spec) :=
  (calm_orFails _ _).bind fun _ _ => calm_ok _

/-- The defaults panic on the disks that they go through, where the resources are an object. -/
theorem expandDefaults_panics_iff {image : Json} {context : ResolutionContext} :
    expandDefaults spec image context = panics ↔
      ((spec.field "resources").getD (.obj [])).isObj = true ∧
        DisksPanic (componentMap image) {} (disksToFill spec image) := by
  have hresources : (withMachine (withArchitecture spec image)).field "resources" =
      spec.field "resources" := field_withMachine (by decide) (by decide)
  have hdevices : ∀ value, (orInsert ((withMachine (withArchitecture spec image)).setField
      "resources" value) "devices" (.obj [])).field "devices" =
        (orInsert spec "devices" (.obj [])).field "devices" := by
    intro value
    refine field_orInsert_congr _ ?_ ?_
    · exact (Json.isObj_setField _ _ _).trans isObj_withMachine
    · exact (Json.field_setField_ne _ (by decide) _).trans
        (field_withMachine (by decide) (by decide))
  unfold expandDefaults disksToFill
  rw [bind_panics_iff, or_iff_right (calm_withResources _)]
  have hsome : (∃ filled, withResources (withMachine (withArchitecture spec image)) = .ok filled) ↔
      ((spec.field "resources").getD (.obj [])).isObj = true := by
    rw [← hresources, ← isSome_asObj, Option.isSome_iff_exists]
    simp only [withResources_ok_iff, asObj_eq_some]
    exact ⟨fun ⟨_, fields, h, _⟩ => ⟨fields, h⟩, fun ⟨fields, h⟩ => ⟨_, fields, h, rfl⟩⟩
  rw [← hsome, exists_and_right.symm]
  refine exists_congr fun filled => and_congr_right fun hfilled => ?_
  obtain ⟨fields, -, rfl⟩ := withResources_ok_iff.1 hfilled
  dsimp only
  rw [hdevices]
  have hnil : ¬DisksPanic (componentMap image) {} [] := by
    rw [← defaultDiskList_panics_iff]
    exact calm_ok []
  cases (orInsert spec "devices" (.obj [])).field "devices" with
  | none => exact iff_of_false (calm_ok _) hnil
  | some devices =>
    cases devices with
    | obj fields =>
      rw [← expandDevices_panics_iff]
      refine bind_panics_iff.trans ⟨?_, Or.inl⟩
      rintro (h | ⟨_, -, h⟩)
      · exact h
      · exact absurd h (calm_ok _)
    | _ => exact iff_of_false (calm_ok _) hnil

/-! ## The checks -/

theorem calm_validateTarget (spec image : Json) : Calm (validateTarget spec image) := by
  have harchitecture : Calm (validateArchitecture spec image) := by
    unfold validateArchitecture
    split
    · exact calm_must _ _
    · exact calm_ok ()
  unfold validateTarget
  refine (calm_must _ _).bind fun _ _ => harchitecture.bind fun _ _ => ?_
  unfold requireMachine
  split
  · exact calm_must _ _
  · exact calm_ok ()

theorem calm_validateResources (spec : Json) : Calm (validateResources spec) := by
  have htopology : ∀ vcpus, Calm (topology vcpus) := by
    intro vcpus
    unfold topology
    split
    · exact calm_ok _
    · refine (calm_orFails _ _).bind fun _ _ => ?_
      exact (calm_orFails _ _).bind fun _ _ => calm_ok _
  unfold validateResources
  split
  · exact calm_ok ()
  · refine (calm_orFails _ _).bind fun _ _ => (calm_orFails _ _).bind fun _ _ => ?_
    exact (htopology _).bind fun _ _ => calm_must _ _

theorem calm_validateDevice (collection : String) (seen : List String) (item : Json) :
    Calm (validateDevice collection seen item) := by
  have haddress : ∀ item, Calm (validateAddress collection item) := by
    intro item
    unfold validateAddress
    split
    · exact calm_must _ _
    · exact calm_ok ()
  unfold validateDevice
  refine (calm_orFails _ _).bind fun _ _ => (calm_orFails _ _).bind fun _ _ => ?_
  refine (calm_must _ _).bind fun _ _ => (calm_must _ _).bind fun _ _ => ?_
  exact (haddress _).bind fun _ _ => (calm_must _ _).bind fun _ _ => calm_ok _

theorem calm_validateCollection (devices : Json) (seen : List String) (collection : String) :
    Calm (validateCollection devices seen collection) := by
  unfold validateCollection
  split
  · exact calm_ok seen
  · refine (calm_orFails _ _).bind fun _ _ => ?_
    exact calm_foldlM (fun _ _ _ => calm_validateDevice _ _ _) _

theorem calm_validateTargets (seen : List String) (disks : List Json) :
    Calm (validateTargets seen disks) := by
  induction disks generalizing seen with
  | nil => exact calm_ok ()
  | cons disk rest ih =>
    rw [validateTargets]
    split
    · exact ih seen
    · split
      · exact calm_fails _
      · exact ih _

theorem calm_validateDevices (spec : Json) : Calm (validateDevices spec) := by
  unfold validateDevices
  split
  · exact calm_ok ()
  · refine (calm_orFails _ _).bind fun _ _ => ?_
    refine (calm_foldlM (fun _ _ _ => calm_validateCollection _ _ _) _).bind fun _ _ => ?_
    refine (calm_validateTargets _ _).bind fun _ _ => ?_
    exact calm_forM fun _ _ => (calm_orFails _ _).bind fun _ _ => calm_must _ _

theorem calm_validateArtifact (artifact : Json) (name : String) :
    Calm (validateArtifact artifact name) := by
  unfold validateArtifact
  refine (calm_orFails _ _).bind fun _ _ => (calm_must _ _).bind fun _ _ => ?_
  exact (calm_orFails _ _).bind fun _ _ => calm_must _ _

theorem calm_validateDiskBinding (components disk : Json) :
    Calm (validateDiskBinding components disk) := by
  unfold validateDiskBinding
  split
  · exact calm_ok ()
  · refine (calm_orFails _ _).bind fun _ _ => (calm_orFails _ _).bind fun _ _ => ?_
    exact (calm_orFails _ _).bind fun _ _ => calm_validateArtifact _ _

theorem calm_validateFirmware (spec : Json) : Calm (validateFirmware spec) := by
  have hartifact : ∀ part name, Calm (validatePartArtifact part name) := by
    intro part name
    unfold validatePartArtifact
    split
    · exact calm_ok ()
    · exact (calm_orFails _ _).bind fun _ _ => calm_validateArtifact _ _
  have htemplate : ∀ part name, Calm (validatePartTemplate part name) := by
    intro part name
    unfold validatePartTemplate
    split
    · exact calm_ok ()
    · exact calm_validateArtifact _ _
  unfold validateFirmware
  split
  · exact calm_ok ()
  · refine calm_forM fun name _ => ?_
    unfold validateFirmwarePart
    split
    · exact calm_ok ()
    · exact (hartifact _ name).bind fun _ _ => htemplate _ name

theorem calm_validateImageBindings (spec image : Json) : Calm (validateImageBindings spec image) := by
  unfold validateImageBindings
  split
  · exact calm_ok ()
  · exact (calm_forM fun _ _ => calm_validateDiskBinding _ _).bind fun _ _ =>
      calm_validateFirmware spec

theorem calm_validate (spec image : Json) : Calm (validate spec image) := by
  unfold validate
  refine (calm_validateTarget spec image).bind fun _ _ => ?_
  refine (calm_validateResources spec).bind fun _ _ => ?_
  refine (calm_validateDevices spec).bind fun _ _ => ?_
  refine (calm_validateImageBindings spec image).bind fun _ _ => ?_
  exact calm_forM fun _ _ => calm_must _ _

theorem calm_validateIdentitySourceCompatibility (spec identity : Json) :
    Calm (validateIdentitySourceCompatibility spec identity) := by
  have hsame : ∀ required actual message, Calm (requireSame required actual message) := by
    intro required actual message
    unfold requireSame
    split
    · exact calm_must _ _
    · exact calm_ok ()
  unfold validateIdentitySourceCompatibility
  split
  · exact calm_ok ()
  · refine (hsame _ _ _).bind fun _ _ => Calm.bind ?_ fun _ _ => Calm.bind ?_ fun _ _ => hsame _ _ _
    · unfold requireMachine
      split
      · exact calm_must _ _
      · exact calm_ok ()
    · unfold requireTrack
      split
      · exact calm_must _ _
      · exact calm_ok ()

theorem calm_checkResolved (spec : Json) (identity : Option Document) (image : Document) :
    Calm (checkResolved spec identity image) := by
  unfold checkResolved
  exact (calm_validate _ _).bind fun _ _ =>
    calm_forM fun _ _ => calm_validateIdentitySourceCompatibility _ _

/-! ## The resolution -/

/-- After the checks the interfaces are objects, so each of them takes an address. -/
theorem calm_generateIdentities {identity : Option Document} {image : Document}
    (h : checkResolved spec identity image = .ok ()) (instanceId : String) :
    Calm (generateIdentities spec instanceId) := by
  obtain ⟨_, hvalidate, -⟩ := bind_ok_iff.1 h
  obtain ⟨_, -, hvalidate⟩ := bind_ok_iff.1 hvalidate
  obtain ⟨_, -, hvalidate⟩ := bind_ok_iff.1 hvalidate
  obtain ⟨_, hdevices, -⟩ := bind_ok_iff.1 hvalidate
  obtain ⟨result, hresult, -⟩ := generateIdentities_ok instanceId
    fun nic hnic => (validateDevices_ok hdevices hnic).1
  rw [hresult]
  exact calm_ok result

/-- Documents with which the defaults of the disks do not panic: where the documents are accepted
and their layers are merged into resources that are an object, no accepted disks are followed by one
whose driver is no object while its component has a format, or by the 160th without a name. -/
def PanicFree (profile : Document) (identity : Option Document) (image : Document)
    (overrides : Json) (context : ResolutionContext) : Prop :=
  ∀ spec, checkDocuments profile identity image overrides = .ok () →
    layered profile identity image overrides context = .ok spec →
      ((spec.field "resources").getD (.obj [])).isObj = true →
        ¬DisksPanic (componentMap image.spec) {} (disksToFill spec image.spec)

/-- A resolution ends in a document or an error, exactly where the defaults of the disks do not
panic. -/
theorem resolveInstance_calm_iff (profile : Document) (identity : Option Document)
    (image : Document) (overrides : Json) (context : ResolutionContext) :
    Calm (resolveInstance profile identity image overrides context) ↔
      PanicFree profile identity image overrides context := by
  constructor
  · intro h spec hdocuments hlayered hresources hpanic
    refine h (bind_panics_iff.2 (Or.inr ⟨(), hdocuments, bind_panics_iff.2 (Or.inr
      ⟨spec, hlayered, bind_panics_iff.2 (Or.inl ?_)⟩)⟩))
    exact expandDefaults_panics_iff.2 ⟨hresources, hpanic⟩
  · intro h
    refine (calm_checkDocuments _ _ _ _).bind fun _ hdocuments => ?_
    refine (calm_layered _ _ _ _ _).bind fun spec hlayered => Calm.bind ?_ fun filled _ => ?_
    · intro hpanics
      obtain ⟨hresources, hpanic⟩ := expandDefaults_panics_iff.1 hpanics
      exact h spec hdocuments hlayered hresources hpanic
    · refine (calm_checkResolved _ _ _).bind fun _ hchecked => ?_
      exact (calm_generateIdentities hchecked _).bind fun _ _ => calm_ok _

/-! ## A panic -/

/-- The result of a panic. -/
def isPanic {α : Type} : Resolves α → Bool
  | .error .panicked => true
  | _ => false

theorem not_calm_of_isPanic {α : Type} {r : Resolves α} (h : isPanic r = true) : ¬Calm r := by
  intro hcalm
  unfold isPanic at h
  split at h
  · exact hcalm rfl
  · cases h

/-- A profile with a disk whose driver is a text. -/
def textDriver : Document where
  kind := "Profile"
  metadata := { name := "p", revision := 1 }
  spec := .ofFields [("devices", .ofFields [("disks",
    .arr [.ofFields [("id", .str "a"), ("driver", .str "qcow2")]])])]

/-- An image with a disk. -/
def diskImage : Document where
  kind := "Image"
  metadata := { name := "i", revision := 1 }
  spec := .ofFields [("components",
    .ofFields [("root_disk", .ofFields [("format", .str "qcow2")])])]

/-- A context with an engine. -/
def oneEngine : ResolutionContext where
  instanceId := "vm"
  engines := [{ track := "stable", buildDigest := some "d", executable := some "/qemu" }]

/-- The driver of the disk is unwrapped. -/
theorem not_resolveInstance_calm :
    ¬∀ (profile : Document) (identity : Option Document) (image : Document) (overrides : Json)
      (context : ResolutionContext),
      Calm (resolveInstance profile identity image overrides context) := by
  intro h
  have hpanic : isPanic (resolveInstance textDriver none diskImage .null oneEngine) = true := by
    decide +kernel
  exact not_calm_of_isPanic hpanic (h textDriver none diskImage .null oneEngine)

end MachineEmu.Resolution
