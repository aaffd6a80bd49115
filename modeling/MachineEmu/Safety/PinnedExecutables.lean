import MachineEmu.Api.EngineBuilds
import MachineEmu.Safety.ConfigurationUpdates
import MachineEmu.Safety.MacAddresses
import MachineEmu.Safety.MemorySize

/-!
# Pinned executables

Whether the executable that an instance pins is the one that the build has for its target.

* `Pins` — the document pins the digest of a build and its executable for the target.
* `OwnFirst` — the first of the executables of a build is the one for the target.
* `ends_resolveInWorkspace`, `ends_upgrade` — what is pinned by a new instance and by an upgrade.
* `renderInput_executable` — what is pinned is what is started.
* `pinned_executables_iff` — the instance pins the executable for its target when that comes first.
-/

namespace MachineEmu.EngineBuilds

open Lib Prog Store Resolution Planner

/-! ## Statements -/

/-- What the engine of a document pins. -/
def pinned (spec : Json) (name : String) : Option String :=
  (spec.field "engine").bind fun engine => textAt engine name

/-- The document pins the digest of the build, and its executable for the target. -/
structure Pins (spec manifest : Json) : Prop where
  digest : pinned spec "build_digest" = textAt manifest "build_digest"
  executable : ∃ executable, executableFor manifest (engineTarget spec) = some executable ∧
    pinned spec "executable" = some executable

/-- The first executable, in the order of the targets, is the one for this target. -/
def OwnFirst (manifest : Json) (target : String) : Prop :=
  ∃ front name executable later,
    manifest.field "executables" = some (.obj (front ++ (name, .str executable) :: later)) ∧
      (∀ e ∈ front, e.2.asStr = none) ∧ executableFor manifest target = some executable

/-- The manifest of the builds of a track. -/
def buildOf (self : Handle) (fromSlice : List UInt8 → Except String Json) (t : FileTree)
    (track : String) : Option Json :=
  match t.look (self.generatedManifest track) with
  | some (.file bytes) => (fromSlice bytes).toOption
  | _ => none

/-- A manifest that an upgrade to a track reads. -/
def Upgrades (self : Handle) (fromSlice : List UInt8 → Except String Json) (t : FileTree)
    (track : String) (manifest : Json) : Prop :=
  ∃ path bytes, locateComponent t self.root (manifestName track) = some path ∧
    t.look path = some (.file bytes) ∧ fromSlice bytes = .ok manifest

/-! ## The first executable -/

section First

variable {spec manifest : Json} {target executable : String}

theorem asStr_eq_some {v : Json} {s : String} : v.asStr = some s ↔ v = .str s := by
  cases v <;> simp [Json.asStr]

/-- The build starts with the executable that it is taken from. -/
theorem manifestExecutable_eq_some (h : manifestExecutable manifest = some executable) :
    ∃ front name later,
      manifest.field "executables" = some (.obj (front ++ (name, .str executable) :: later)) ∧
        ∀ e ∈ front, e.2.asStr = none := by
  unfold manifestExecutable at h
  obtain ⟨fields, hfields, hfirst⟩ := Option.bind_eq_some_iff.1 h
  obtain ⟨executables, hexecutables, hobj⟩ := Option.bind_eq_some_iff.1 hfields
  have hvalue : executables = .obj fields := by
    cases executables with
    | obj members => exact congrArg Json.obj (Option.some.inj hobj)
    | _ => cases hobj
  obtain ⟨front, ⟨name, value⟩, later, rfl, hstr, hfront⟩ := List.findSome?_eq_some_iff.1 hfirst
  obtain rfl := asStr_eq_some.1 hstr
  exact ⟨front, name, later, by rw [hexecutables, hvalue], hfront⟩

theorem ownFirst_iff (h : manifestExecutable manifest = some executable) :
    OwnFirst manifest target ↔ executableFor manifest target = some executable := by
  obtain ⟨front, name, later, hfields, hfront⟩ := manifestExecutable_eq_some h
  constructor
  · rintro ⟨front', name', executable', later', hfields', hfront', hown⟩
    have hfirst : manifestExecutable manifest = some executable' := by
      unfold manifestExecutable
      rw [hfields']
      exact List.findSome?_eq_some_iff.2
        ⟨front', (name', .str executable'), later', rfl, rfl, hfront'⟩
    rw [h] at hfirst
    rw [hown, hfirst]
  · exact fun hown => ⟨front, name, executable, later, hfields, hfront, hown⟩

/-- What is pinned is the first executable. -/
theorem pins_iff (hfirst : manifestExecutable manifest = some executable)
    (hdigest : pinned spec "build_digest" = textAt manifest "build_digest")
    (hpinned : pinned spec "executable" = some executable) :
    Pins spec manifest ↔ OwnFirst manifest (engineTarget spec) := by
  rw [ownFirst_iff hfirst]
  constructor
  · rintro ⟨-, own, hown, hsame⟩
    rw [hpinned] at hsame
    rw [hown, hsame]
  · exact fun hown => ⟨hdigest, executable, hown, hpinned⟩

end First

/-! ## New instances -/

section Resolution

variable {profile : Document} {identity : Option Document} {image : Document} {overrides : Json}
  {context : ResolutionContext} {spec filled : Json} {document : DomainDocument}

/-- The defaults leave the other fields. -/
theorem field_expandDefaults (h : expandDefaults spec image.spec context = .ok filled)
    {name : String} (harchitecture : name ≠ "architecture") (hmachine : name ≠ "machine")
    (hresources : name ≠ "resources") (hdevices : name ≠ "devices") :
    filled.field name = spec.field name := by
  obtain ⟨resources, hresult, hrest⟩ := bind_ok_iff.1 h
  obtain ⟨fields, -, rfl⟩ := withResources_ok_iff.1 hresult
  have hsame : (Resolution.orInsert ((withMachine (withArchitecture spec image.spec)).setField "resources"
      (vcpusOf (.obj fields))) "devices" (.obj [])).field name = spec.field name := by
    rw [field_orInsert_ne hdevices, Json.field_setField_ne _ hresources,
      field_withMachine harchitecture hmachine]
  dsimp only at hrest
  split at hrest
  · obtain ⟨devices, -, heq⟩ := bind_ok_iff.1 hrest
    rw [← Except.ok.inj heq, Json.field_setField_ne _ hdevices, hsame]
  · rw [← Except.ok.inj hrest, hsame]

/-- The identifiers leave the other fields. -/
theorem field_generateIdentities {instanceId : String}
    (h : generateIdentities spec instanceId = .ok filled) {name : String}
    (hidentity : name ≠ "hardware_identity") (hdevices : name ≠ "devices") :
    filled.field name = spec.field name := by
  have hsame : (withSystemIdentity spec (Sha256.digest (Sha256.bytes instanceId))).field name =
      spec.field name := Json.field_setField_ne _ hidentity _
  unfold generateIdentities at h
  dsimp only at h
  split at h
  · obtain ⟨devices, -, heq⟩ := bind_ok_iff.1 h
    rw [← Except.ok.inj heq, Json.field_setField_ne _ hdevices, hsame]
  · rw [← Except.ok.inj h, hsame]

/-- The engine of a new instance is one of the builds, which has a digest and an executable. -/
theorem engine_of_resolveInstance
    (h : resolveInstance profile identity image overrides context = .ok document) :
    ∃ e ∈ context.engines, e.Pinned ∧
      document.spec.field "engine" = some (engineSelection profile.spec image.spec e) := by
  obtain ⟨_, -, hrest⟩ := bind_ok_iff.1 h
  obtain ⟨spec, hlayered, hrest⟩ := bind_ok_iff.1 hrest
  obtain ⟨filled, hfilled, hrest⟩ := bind_ok_iff.1 hrest
  obtain ⟨_, -, hrest⟩ := bind_ok_iff.1 hrest
  obtain ⟨resolved, hresolved, heq⟩ := bind_ok_iff.1 hrest
  obtain rfl := Except.ok.inj heq
  dsimp only
  rw [field_generateIdentities hresolved (by decide) (by decide),
    field_expandDefaults hfilled (by decide) (by decide) (by decide) (by decide)]
  obtain ⟨lower, -, hrest⟩ := bind_ok_iff.1 hlayered
  obtain ⟨merged, hmerged, hengine⟩ := bind_ok_iff.1 hrest
  have hobj : merged.isObj = true := by
    have hspec := isObj_layered hlayered
    unfold withEngine at hengine
    split at hengine
    · cases hengine
    · rwa [← Except.ok.inj hengine, Json.isObj_setField] at hspec
  unfold withEngine at hengine
  split at hengine
  · cases hengine
  · next chosen hchosen =>
    obtain ⟨e, hfind, hpinned, rfl⟩ := chooseEngine_eq_ok_iff.1 hchosen
    refine ⟨e, List.mem_of_find?_eq_some hfind, hpinned, ?_⟩
    rw [← Except.ok.inj hengine, Json.field_setField_self hobj, SortedMap.get?_insert, if_pos rfl]
    rfl

/-- What the engine of a new instance pins. -/
theorem pinned_engineSelection {p i : Json} {e : EngineCapability}
    (h : spec.field "engine" = some (engineSelection p i e)) :
    pinned spec "track" = some e.track ∧ pinned spec "build_digest" = e.buildDigest ∧
      pinned spec "executable" = e.executable := by
  have hoptional : ∀ value : Option String, (optional value).asStr = value := by
    intro value
    cases value <;> rfl
  have hpinned : ∀ name, pinned spec name = textAt (engineSelection p i e) name := by
    intro name
    unfold pinned
    rw [h]
    rfl
  refine ⟨(hpinned _).trans ?_, (hpinned _).trans ?_, (hpinned _).trans ?_⟩
  · simp [textAt, engineSelection, Json.field, Json.asStr]
  · simp [textAt, engineSelection, Json.field, hoptional]
  · simp [textAt, engineSelection, Json.field, hoptional]

end Resolution

section Workspace

variable {self : Handle} {fromSlice : List UInt8 → Except String Json} {s : Store}
  {good : Store → Outcome → Prop} {X : Error → Store → Prop}

/-- A build that is listed has a manifest. -/
def Listed (self : Handle) (fromSlice : List UInt8 → Except String Json) (t : FileTree)
    (e : EngineCapability) : Prop :=
  ∃ manifest, buildOf self fromSlice t e.track = some manifest ∧
    e = engineCapability e.track manifest

theorem ends_capabilitiesOf (tracks : List String) :
    Ends good (fun engines s' => s' = s ∧ ∀ e ∈ engines, Listed self fromSlice s.files e) X
      (capabilitiesOf self fromSlice tracks) s := by
  induction tracks with
  | nil => exact ⟨rfl, nofun⟩
  | cons track rest ih =>
    apply Ends.bind (M := fun read s' => s' = s ∧ ∀ bytes, read = .ok bytes →
      s.files.look (self.generatedManifest track) = some (.file bytes))
    · apply Ends.attempt
      apply ends_readFile
      · exact fun _ _ _ _ => ⟨rfl, nofun⟩
      · exact fun _ _ => ⟨rfl, nofun⟩
      · rintro bytes hbytes
        refine ⟨rfl, ?_⟩
        rintro _ ⟨⟩
        exact hbytes
    rintro read _ ⟨hs, hread⟩
    rw [hs]
    apply Ends.bind ih
    rintro later _ ⟨hs, hlater⟩
    refine ⟨hs, ?_⟩
    split
    · next bytes =>
      split
      · next manifest hmanifest =>
        refine List.forall_mem_cons.2 ⟨⟨manifest, ?_, rfl⟩, hlater⟩
        unfold buildOf
        change (match s.files.look (self.generatedManifest track) with
          | some (.file bytes) => (fromSlice bytes).toOption
          | _ => none) = some manifest
        rw [hread bytes rfl]
        dsimp only
        rw [hmanifest]
        rfl
      · exact hlater
    · exact hlater

theorem ends_workspaceEngineCapabilities :
    Ends good (fun engines s' => s' = s ∧ ∀ e ∈ engines, Listed self fromSlice s.files e) X
      (workspaceEngineCapabilities self fromSlice) s := by
  apply Ends.bind (M := fun _ s' => s' = s)
  · apply Ends.attempt
    apply ends_readDir
    · exact fun _ _ _ _ => rfl
    · exact fun _ _ => rfl
    · exact fun _ => rfl
  rintro read _ hs
  rw [hs]
  split
  · exact ends_capabilitiesOf _
  · exact ⟨rfl, nofun⟩

/-- A new instance pins the executable for its target when that is the first one of the build. -/
theorem ends_resolveInWorkspace (profile : Document) (identity : Option Document)
    (image : Document) (overrides : Json) (context : ResolutionContext)
    (hcontext : context.engines = []) :
    Ends good
      (fun document s' => s' = s ∧ ∃ track manifest, pinned document.spec "track" = some track ∧
        buildOf self fromSlice s.files track = some manifest ∧
          (Pins document.spec manifest ↔ OwnFirst manifest (engineTarget document.spec)))
      (fun _ _ => True)
      (resolveInWorkspace self fromSlice profile identity image overrides context) s := by
  unfold resolveInWorkspace
  rw [hcontext]
  apply Ends.bind ends_workspaceEngineCapabilities
  rintro engines _ ⟨hs, hlisted⟩
  rw [hs]
  split
  · next document hdocument =>
    obtain ⟨e, he, hpinned, hengine⟩ := engine_of_resolveInstance hdocument
    obtain ⟨manifest, hbuild, heq⟩ := hlisted e he
    obtain ⟨htrack, hdigest, hexecutable⟩ := pinned_engineSelection hengine
    obtain ⟨executable, hfirst⟩ := Option.ne_none_iff_exists'.1 hpinned.2
    refine ⟨rfl, e.track, manifest, htrack, hbuild, pins_iff ?_ ?_ (hexecutable.trans hfirst)⟩
    · rw [← hfirst, heq]
      rfl
    · rw [hdigest, heq]
      rfl
  · trivial
  · trivial

end Workspace

/-! ## Upgrades -/

section Upgrade

variable {manifest : Json} {candidate : EngineCandidate} {document upgraded : DomainDocument}

theorem field_removeField_ne (j : Json) {name other : String} (h : other ≠ name) :
    (j.removeField name).field other = j.field other := by
  cases j with
  | obj fields =>
    unfold Json.removeField Json.field
    dsimp only
    rw [List.find?_filter]
    congr 2
    funext e
    by_cases he : e.1 = other
    · simp [he, h]
    · simp [he]
  | _ => rfl

/-- An accepted build has the digest and the executable that are asked for. -/
theorem checkManifest_ok (h : checkManifest manifest candidate = .ok ()) :
    textAt manifest "build_digest" = some candidate.digest ∧
      manifestExecutable manifest = some candidate.executable := by
  unfold checkManifest at h
  split at h
  · cases h
  · next hdigest =>
    split at h
    · cases h
    · next hexecutable => exact ⟨not_not.1 hdigest, not_not.1 hexecutable⟩

theorem isObj_of_ofJson {value : Json} (h : EngineCandidate.ofJson value = .ok candidate) :
    candidate.value.isObj = true := by
  unfold EngineCandidate.ofJson at h
  split at h
  · cases h
  · next hobj =>
    split at h
    · cases h
    · split at h
      · cases h
      · split at h
        · cases h
        · split at h
          · cases h
          · rw [← Except.ok.inj h]
            simpa using hobj

/-- What the engine of an upgraded instance pins. -/
theorem pinned_upgradedDocument (hvalue : candidate.value.isObj = true)
    (h : upgradedDocument document manifest candidate = .ok upgraded) :
    pinned upgraded.spec "track" = some candidate.track ∧
      pinned upgraded.spec "build_digest" = some candidate.digest ∧
        pinned upgraded.spec "executable" = some candidate.executable := by
  unfold upgradedDocument at h
  split at h
  · cases h
  next hspec =>
  split at h
  · cases h
  next engine hengine =>
  split at h
  · cases h
  split at h
  · cases h
  split at h
  · cases h
  obtain rfl := Except.ok.inj h
  have hfield : ∀ name, pinned ((((document.spec.setField "engine"
      (upgradedEngine engine candidate)).removeField "launch_plan").removeField
        "rendered_launch_plan")) name = textAt (upgradedEngine engine candidate) name := by
    intro name
    unfold pinned
    rw [field_removeField_ne _ (by decide), field_removeField_ne _ (by decide),
      Json.field_setField_self (by simpa using hspec)]
    rfl
  have htrack : (candidate.value.setField "track" (.str candidate.track)).isObj = true := by
    rw [Json.isObj_setField, hvalue]
  have hdigest : ((candidate.value.setField "track" (.str candidate.track)).setField
      "build_digest" (.str candidate.digest)).isObj = true := by
    rw [Json.isObj_setField, htrack]
  refine ⟨(hfield _).trans ?_, (hfield _).trans ?_, (hfield _).trans ?_⟩
  · unfold textAt upgradedEngine
    rw [Json.field_setField_ne _ (by decide), Json.field_setField_ne _ (by decide),
      Json.field_setField_ne _ (by decide), Json.field_setField_self hvalue]
    rfl
  · unfold textAt upgradedEngine
    rw [Json.field_setField_ne _ (by decide), Json.field_setField_ne _ (by decide),
      Json.field_setField_self htrack]
    rfl
  · unfold textAt upgradedEngine
    rw [Json.field_setField_ne _ (by decide), Json.field_setField_self hdigest]
    rfl

variable {self : Handle} {documents : Documents} {i : Id} {s : Store}
  {fromSlice : List UInt8 → Except String Json} {good : Store → Outcome → Prop}

/-- A task that only reads ends where it started, or fails. -/
theorem ends_reads {α : Type} {task : Task α} (h : Reads task) :
    Ends good (fun _ s' => s' = s) (fun _ _ => True) task s :=
  h.ends.mono (fun _ _ h => h) fun _ _ _ => trivial

theorem reads_checkConfigurationPath (path : Path) : Reads (checkConfigurationPath self path) := by
  refine (reads_canonicalize _).bind fun _ => (reads_canonicalize _).bind fun _ =>
    (reads_canonicalize _).bind fun _ => ?_
  split
  · exact reads_ret
  · exact reads_throw

theorem reads_loadDocument (path : Path) : Reads (loadDocument documents path) := by
  refine reads_readFile.bind fun bytes => ?_
  split
  · exact reads_ret
  · exact reads_throw

theorem ends_domainInstanceDocument :
    Ends good (fun _ s' => s' = s) (fun _ _ => True) (domainInstanceDocument self documents i) s := by
  unfold domainInstanceDocument
  apply Ends.bind (ends_reads reads_select)
  intro row _ hs
  rw [hs]
  apply Ends.bind (ends_reads (reads_checkConfigurationPath _))
  intro _ _ hs
  rw [hs]
  apply Ends.bind (ends_reads (reads_loadDocument _))
  intro value _ hs
  rw [hs]
  split
  · exact ends_reads reads_ofExcept
  · apply Ends.bind (ends_instanceDocument.mono (fun _ _ h => h.1) fun _ _ _ => trivial)
    intro envelope _ hs
    rw [hs]
    split
    · exact ends_reads reads_ofExcept
    · trivial

/-- What an upgrade reads is the manifest of the track. -/
theorem ends_readManifestOf (track : String) :
    Ends good (fun manifest s' => s' = s ∧ Upgrades self fromSlice s.files track manifest)
      (fun _ _ => True) (readManifestOf self fromSlice track) s := by
  unfold readManifestOf
  apply Ends.bind (M := fun found s' => s' = s ∧
    found = locateComponent s.files self.root (manifestName track))
  · exact ⟨rfl, rfl⟩
  rintro found _ ⟨hs, hfound⟩
  rw [hs]
  split
  · trivial
  · next path =>
    apply Ends.bind (M := fun bytes s' => s' = s ∧ s.files.look path = some (.file bytes))
      (ends_readFile (fun _ _ _ _ => trivial) (fun _ _ => trivial) fun bytes h => ⟨rfl, h⟩)
    rintro bytes _ ⟨hs, hbytes⟩
    split
    · next manifest hmanifest => exact ⟨hs, path, bytes, hfound.symm, hbytes, hmanifest⟩
    · trivial

/-- The document of the instance holds a domain document. -/
def Written (self : Handle) (documents : Documents) (i : Id) (t : FileTree)
    (domain : DomainDocument) : Prop :=
  ∃ (name : String) (envelope : InstanceDocument), t.look (self.instanceDir i ++ [name]) =
    some (.file (documents.write { envelope with domainDocument := some domain.toJson }))

/-- An upgrade pins the executable for the target when that is the first one of the build. -/
theorem ends_upgrade (revision : Int) (candidate : Json) :
    Ends good
      (fun _ s' => ∃ upgraded track manifest, Written self documents i s'.files upgraded ∧
        pinned upgraded.spec "track" = some track ∧
          Upgrades self fromSlice s.files track manifest ∧
            (Pins upgraded.spec manifest ↔ OwnFirst manifest (engineTarget upgraded.spec)))
      (fun _ _ => True)
      (upgradeInstanceEngine self documents fromSlice i revision candidate) s := by
  unfold upgradeInstanceEngine
  apply Ends.bind (ends_reads reads_select)
  intro row _ hs
  rw [hs]
  apply Ends.bind (ends_reads (reads_atRest row))
  intro rest _ hs
  rw [hs]
  split
  · trivial
  apply Ends.bind (ends_instanceDocument.mono (fun _ _ h => h.1) fun _ _ _ => trivial)
  intro envelope _ hs
  rw [hs]
  split
  · trivial
  apply Ends.bind ends_domainInstanceDocument
  intro domain _ hs
  rw [hs]
  apply Ends.bind (M := fun parsed s' => s' = s ∧ EngineCandidate.ofJson candidate = .ok parsed)
    (ends_ofExcept.2 ⟨fun _ h => ⟨rfl, h⟩, fun _ _ => trivial⟩)
  rintro parsed _ ⟨hs, hparsed⟩
  rw [hs]
  apply Ends.bind (ends_readManifestOf _)
  rintro manifest _ ⟨hs, hmanifest⟩
  rw [hs]
  apply Ends.bind (M := fun _ s' => s' = s ∧ checkManifest manifest parsed = .ok ())
    (ends_ofExcept.2 ⟨fun _ h => ⟨rfl, h⟩, fun _ _ => trivial⟩)
  rintro _ _ ⟨hs, hchecked⟩
  rw [hs]
  apply Ends.bind (M := fun upgraded s' => s' = s ∧
    upgradedDocument domain manifest parsed = .ok upgraded)
    (ends_ofExcept.2 ⟨fun _ h => ⟨rfl, h⟩, fun _ _ => trivial⟩)
  rintro upgraded _ ⟨hs, hupgraded⟩
  rw [hs]
  apply Ends.bind (ends_instanceDocumentPath.mono (fun _ _ h => h) fun _ _ _ => trivial)
  rintro path _ ⟨-, name, hname, rfl⟩
  apply Ends.bind (ends_writeDocument (mem_of_documentName hname))
  intro _ s₁ hwritten
  apply Ends.bind (M := fun _ s' => s'.files.look (self.instanceDir i ++ [name]) =
    some (.file (documents.write { envelope with domainDocument := some upgraded.toJson })))
    (ends_statement (fun _ _ _ _ => trivial) (fun _ _ => trivial) fun _ _ => hwritten)
  intro _ s₂ hkept
  obtain ⟨htrack, hdigest, hexecutable⟩ :=
    pinned_upgradedDocument (isObj_of_ofJson hparsed) hupgraded
  obtain ⟨hbuild, hfirst⟩ := checkManifest_ok hchecked
  exact ⟨upgraded, parsed.track, manifest, ⟨name, envelope, hkept⟩, htrack, hmanifest,
    pins_iff hfirst (hdigest.trans hbuild.symm) hexecutable⟩

end Upgrade

/-! ## Rendering -/

section Rendering

variable {root instanceId : String} {spec profile profile' : Json} {input : PlanInput}

theorem field_normalizeMachine (h : normalizeMachine profile = .ok profile') {name : String}
    (hmachine : name ≠ "machine") (hsmm : name ≠ "smm") (hresources : name ≠ "resources") :
    profile'.field name = profile.field name := by
  unfold normalizeMachine at h
  split at h
  · simp only [bind_eq_ok] at h
    obtain ⟨kind, -, heq⟩ := h
    rw [← Except.ok.inj heq]
    split
    · rw [field_copyField_ne _ _ hsmm, Json.field_setField_ne _ hmachine]
    · rw [Json.field_setField_ne _ hresources, field_copyField_ne _ _ hsmm,
        Json.field_setField_ne _ hmachine]
  · rw [← Except.ok.inj h]

theorem field_normalizeResources (h : normalizeResources profile = .ok profile') {name : String}
    (hresources : name ≠ "resources") : profile'.field name = profile.field name := by
  unfold normalizeResources at h
  split at h
  · simp only [bind_eq_ok] at h
    obtain ⟨_, -, _, -, heq⟩ := h
    rw [← Except.ok.inj heq, Json.field_setField_ne _ hresources]
  · rw [← Except.ok.inj h]

/-- The executable that is started. -/
def startedExecutable (input : PlanInput) (track : String) : Option String :=
  ((input.releaseSet.field "engines").bind fun engines => engines.field track).bind fun entry =>
    text entry "executable"

/-- What is started is what is pinned, below the directory of the track, for the same target. -/
theorem renderInput_executable (h : renderInput root instanceId spec = .ok input) :
    ∃ track executable, pinned spec "track" = some track ∧
      pinned spec "executable" = some executable ∧ input.target = engineTarget spec ∧
        startedExecutable input track =
          some (joinPath (joinPath (joinPath root "generated-engines") track) executable) := by
  simp only [renderInput, Planner.normalize, bind_eq_ok] at h
  obtain ⟨profile, ⟨_, -, machine, hmachine, kind, -, resources, hresources, hprofile⟩,
    ⟨track, executable⟩, hpinned, heq⟩ := h
  obtain rfl := Except.ok.inj hprofile
  have hfield : ∀ name, name ∉ ["machine", "smm", "resources", "firmware", "devices", "storage",
      "network"] → (normalizeDevices (normalizeFirmware resources)).field name = spec.field name := by
    intro name hname
    simp only [List.mem_cons, List.not_mem_nil, or_false, not_or] at hname
    obtain ⟨hmachineName, hsmm, hresourcesName, hfirmware, hdevices, hstorage, hnetwork⟩ := hname
    rw [field_normalizeDevices _ hdevices hstorage hnetwork, field_normalizeFirmware _ hfirmware,
      field_normalizeResources hresources hresourcesName, Json.field_setField_ne _ hmachineName,
      field_normalizeMachine hmachine hmachineName hsmm hresourcesName]
  have hengine := hfield "engine" (by decide)
  simp only [pinnedEngine, bind_eq_ok, hengine] at hpinned
  obtain ⟨track', htrack, executable', hexecutable, hsame⟩ := hpinned
  obtain ⟨rfl, rfl⟩ := Prod.mk.inj (Except.ok.inj hsame)
  refine ⟨track', executable', orInvalid_eq_ok.1 htrack, orInvalid_eq_ok.1 hexecutable, ?_, ?_⟩
  · rw [← Except.ok.inj heq]
    unfold engineTarget text
    rw [hfield "target" (by decide), hfield "image" (by decide)]
  · rw [← Except.ok.inj heq]
    simp [startedExecutable, text, Json.field_ofFields, Json.asStr]

end Rendering

/-! ## Everywhere -/

/-- An instance pins the executable for its target, as a new one and after an upgrade, when that is
the first executable of the build; and it starts what it pins. -/
theorem pinned_executables_iff (self : Handle) (documents : Documents)
    (fromSlice : List UInt8 → Except String Json) (s : Store) :
    (∀ profile identity image overrides (context : ResolutionContext), context.engines = [] →
      Ends (fun _ _ => True)
        (fun document s' => s' = s ∧ ∃ track manifest,
          pinned document.spec "track" = some track ∧
            buildOf self fromSlice s.files track = some manifest ∧
              (Pins document.spec manifest ↔ OwnFirst manifest (engineTarget document.spec)))
        (fun _ _ => True)
        (resolveInWorkspace self fromSlice profile identity image overrides context) s) ∧
    (∀ i revision candidate,
      Ends (fun _ _ => True)
        (fun _ s' => ∃ upgraded track manifest, Written self documents i s'.files upgraded ∧
          pinned upgraded.spec "track" = some track ∧
            Upgrades self fromSlice s.files track manifest ∧
              (Pins upgraded.spec manifest ↔ OwnFirst manifest (engineTarget upgraded.spec)))
        (fun _ _ => True)
        (upgradeInstanceEngine self documents fromSlice i revision candidate) s) ∧
    ∀ root instanceId spec input, renderInput root instanceId spec = .ok input →
      ∃ track executable, pinned spec "track" = some track ∧
        pinned spec "executable" = some executable ∧ input.target = engineTarget spec ∧
          startedExecutable input track =
            some (joinPath (joinPath (joinPath root "generated-engines") track) executable) :=
  ⟨ends_resolveInWorkspace, fun _ => ends_upgrade, fun _ _ _ _ => renderInput_executable⟩

/-- A build with executables for two targets. -/
def twoTargets : Json :=
  .ofFields [("build_digest", .str "d"), ("executables",
    .ofFields [("aarch64-softmmu", .str "bin/qemu-system-aarch64"),
      ("x86_64-softmmu", .str "bin/qemu-system-x86_64")])]

/-- A workspace with this build. -/
def twoTargetsStore : Store where
  tables := {}
  files := .dir [("generated-engines", .dir [("stable", .dir [("engine-build.json", .file [])])])]

/-- An image for one of the targets. -/
def x86Image : Document where
  kind := "Image"
  metadata := { name := "i", revision := 1 }
  spec := .ofFields [("target", .str "x86_64-softmmu")]

/-- A profile without devices. -/
def plainProfile : Document where
  kind := "Profile"
  metadata := { name := "p", revision := 1 }
  spec := .ofFields []

/-- The instance got the executable of the other target. -/
def pinsOther (result : Except Error DomainDocument × Store) : Bool :=
  match result.1 with
  | .ok document => pinned document.spec "track" = some "stable" &&
      pinned document.spec "executable" = some "bin/qemu-system-aarch64" &&
        engineTarget document.spec = "x86_64-softmmu"
  | .error _ => false

/-- An instance for one target is resolved to the executable of another. -/
theorem not_pinned_executables : ¬ ∀ (self : Handle)
    (fromSlice : List UInt8 → Except String Json) (s : Store) (profile : Document)
    (identity : Option Document) (image : Document) (overrides : Json)
    (context : ResolutionContext), context.engines = [] →
      Ends (fun _ _ => True)
        (fun document _ => ∃ track manifest, pinned document.spec "track" = some track ∧
          buildOf self fromSlice s.files track = some manifest ∧ Pins document.spec manifest)
        (fun _ _ => True)
        (resolveInWorkspace self fromSlice profile identity image overrides context) s := by
  intro h
  obtain ⟨r, s', hother, hpins, -⟩ := (h { root := [], pid := 7 } (fun _ => .ok twoTargets)
    twoTargetsStore plainProfile none x86Image .null { instanceId := "vm" } rfl).of_eval
      (fun _ _ => true) {} [] pinsOther (fun _ _ _ => trivial) (by decide +kernel)
  cases r with
  | error e => cases hother
  | ok document =>
    simp only [pinsOther, Bool.and_eq_true, decide_eq_true_eq] at hother
    obtain ⟨⟨htrack, hexecutable⟩, htarget⟩ := hother
    obtain ⟨track, manifest, htrack', hbuild, -, executable, hown, hpinned⟩ := hpins document rfl
    obtain rfl : "stable" = track := Option.some.inj (htrack.symm.trans htrack')
    obtain rfl : twoTargets = manifest := Option.some.inj hbuild
    rw [htarget] at hown
    obtain rfl : "bin/qemu-system-aarch64" = executable :=
      Option.some.inj (hexecutable.symm.trans hpinned)
    have hx86 : executableFor twoTargets "x86_64-softmmu" = some "bin/qemu-system-x86_64" := by
      decide +kernel
    rw [hx86] at hown
    exact absurd hown (by decide)

end MachineEmu.EngineBuilds
