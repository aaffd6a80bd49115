import MachineEmu.Resolution.Disks

/-!
# The interfaces of an instance

What the checks say about the interfaces, and what the identifiers do to them.

* `isObj_of_validateDevices`, `validMac_of_validateDevices` — what accepted devices have.
* `withAddress` — an interface with its address; `withMacs_eq` — all of them.
* `calm_generateIdentities`, `interfacesOf_generateIdentities` — the identifiers of the interfaces.
-/

namespace MachineEmu.Resolution

open Lib List

/-! ## Checked devices -/

/-- The interfaces among the devices. -/
def nicsOf (devices : Json) : List Json := ((devices.field "interfaces").bind Json.asArr).getD []

/-- The interfaces of an instance. -/
def interfacesOf (spec : Json) : List Json := ((spec.field "devices").map nicsOf).getD []

section Checked

variable {α β : Type} {spec devices : Json} {u : Unit}

/-- Every turn of a loop that came to its end has succeeded. -/
theorem foldlM_ok_of_mem {as : List α} {f : β → α → Resolves β} {b b' : β}
    (h : as.foldlM f b = .ok b') {a : α} (ha : a ∈ as) : ∃ c c', f c a = .ok c' := by
  induction as generalizing b with
  | nil => cases ha
  | cons first rest ih =>
    rw [foldlM_cons] at h
    obtain ⟨next, hfirst, hrest⟩ := bind_ok_iff.1 h
    rcases mem_cons.1 ha with rfl | ha
    · exact ⟨b, next, hfirst⟩
    · exact ih hrest ha

theorem validateDevice_ok {collection : String} {seen seen' : List String} {item : Json}
    (h : validateDevice collection seen item = .ok seen') :
    item.isObj = true ∧ validateAddress collection item = .ok () := by
  obtain ⟨fields, hfields, hchecks⟩ := bind_ok_iff.1 h
  obtain rfl := asObj_eq_some.1 (orFails_ok_iff.1 hfields)
  obtain ⟨id, -, hchecks⟩ := bind_ok_iff.1 hchecks
  obtain ⟨_, -, hchecks⟩ := bind_ok_iff.1 hchecks
  obtain ⟨_, -, hchecks⟩ := bind_ok_iff.1 hchecks
  obtain ⟨_, haddress, -⟩ := bind_ok_iff.1 hchecks
  exact ⟨rfl, haddress⟩

/-- The interfaces of accepted devices are objects, and their addresses were checked. -/
theorem validateDevices_ok (h : validateDevices spec = .ok u) {nic : Json}
    (hnic : nic ∈ interfacesOf spec) :
    nic.isObj = true ∧ validateAddress "interfaces" nic = .ok () := by
  unfold interfacesOf at hnic
  unfold validateDevices at h
  cases hdevices : spec.field "devices" with
  | none => simp [hdevices] at hnic
  | some devices =>
    rw [hdevices, Option.map_some, Option.getD_some] at hnic
    simp only [hdevices] at h
    obtain ⟨fields, hfields, hchecks⟩ := bind_ok_iff.1 h
    obtain rfl := asObj_eq_some.1 (orFails_ok_iff.1 hfields)
    obtain ⟨seen, hcollections, -⟩ := bind_ok_iff.1 hchecks
    have hmem : "interfaces" ∈ collections := by decide
    obtain ⟨before, after, hinterfaces⟩ := foldlM_ok_of_mem hcollections hmem
    unfold validateCollection at hinterfaces
    unfold nicsOf at hnic
    cases hfield : (Json.obj fields).field "interfaces" with
    | none => simp [hfield] at hnic
    | some items =>
      rw [hfield, Option.bind_some] at hnic
      simp only [hfield] at hinterfaces
      obtain ⟨items, hitems, hloop⟩ := bind_ok_iff.1 hinterfaces
      rw [orFails_ok_iff.1 hitems, Option.getD_some] at hnic
      obtain ⟨c, c', hdevice⟩ := foldlM_ok_of_mem hloop hnic
      exact validateDevice_ok hdevice

end Checked

/-! ## Addresses -/

/-- An interface with its address. -/
def withAddress (digest : List Nat) (index : Nat) (nic : Json) : Json :=
  if (nic.field "mac").isSome then nic
  else nic.setField "mac" (.str (derivedMac digest index))

section Addresses

variable {digest : List Nat} {index : Nat} {nics : List Json} {spec result : Json}
  {instanceId : String}

theorem withMac_eq {nic : Json} (h : nic.isObj = true) :
    withMac digest index nic = .ok (withAddress digest index nic) := by
  unfold withMac withAddress
  cases hmac : nic.field "mac" with
  | some mac => rfl
  | none =>
    cases nic with
    | obj fields => rfl
    | _ => cases h

theorem withMacs_eq (h : ∀ nic ∈ nics, nic.isObj = true) :
    withMacs digest index nics =
      .ok (nics.mapIdx fun i nic => withAddress digest (index + i) nic) := by
  induction nics generalizing index with
  | nil => rfl
  | cons nic rest ih =>
    rw [withMacs, withMac_eq (h nic mem_cons_self)]
    refine (bind_ok_iff (b := _)).2 ⟨_, rfl, bind_ok_iff.2
      ⟨_, ih fun n hn => h n (mem_cons_of_mem nic hn), ?_⟩⟩
    rw [mapIdx_cons]
    simp only [Nat.add_zero, Nat.add_comm 1, Nat.add_assoc]

theorem withInterfaceMacs_ok {devices : Json} (h : ∀ nic ∈ nicsOf devices, nic.isObj = true) :
    ∃ result, withInterfaceMacs digest devices = .ok result ∧
      nicsOf result = (nicsOf devices).mapIdx (withAddress digest) := by
  unfold withInterfaceMacs nicsOf at *
  cases hfield : devices.field "interfaces" with
  | none => exact ⟨devices, rfl, by rw [hfield]; rfl⟩
  | some value =>
    cases value with
    | arr nics =>
      rw [hfield] at h
      refine ⟨_, bind_ok_iff.2 ⟨_, withMacs_eq h, rfl⟩, ?_⟩
      rw [Json.field_setField_self (Json.isObj_of_field hfield)]
      simp [Json.asArr]
    | _ => exact ⟨devices, rfl, by rw [hfield]; rfl⟩

theorem field_devices_withSystemIdentity :
    (withSystemIdentity spec digest).field "devices" = spec.field "devices" :=
  Json.field_setField_ne _ (by decide) _

/-- The interfaces of a resolved instance: each has its address. -/
theorem generateIdentities_ok (instanceId : String)
    (h : ∀ nic ∈ interfacesOf spec, nic.isObj = true) :
    ∃ result, generateIdentities spec instanceId = .ok result ∧
      interfacesOf result = (interfacesOf spec).mapIdx
        (withAddress (Sha256.digest (Sha256.bytes instanceId))) := by
  unfold generateIdentities
  dsimp only
  rw [field_devices_withSystemIdentity]
  unfold interfacesOf at h ⊢
  cases hdevices : spec.field "devices" with
  | none =>
    refine ⟨_, rfl, ?_⟩
    rw [field_devices_withSystemIdentity, hdevices]
    rfl
  | some devices =>
    rw [hdevices, Option.map_some, Option.getD_some] at h
    obtain ⟨after, hafter, hnics⟩ := withInterfaceMacs_ok h
    refine ⟨_, bind_ok_iff.2 ⟨after, hafter, rfl⟩, ?_⟩
    rw [Json.field_setField_self (Json.isObj_of_field
      (field_devices_withSystemIdentity.trans hdevices))]
    exact hnics

end Addresses

/-! ## Defaults -/

/-- The interfaces of the merged layers, or the one that an instance without any gets. -/
def mergedNics (spec : Json) (context : ResolutionContext) : List Json :=
  nicsOf (withInterfaces ((spec.field "devices").getD (.obj [])) context.defaultNetwork)

/-- An interface with its model. -/
def withModel (nic : Json) : Json := orInsert nic "model" (.str "virtio-net-pci")

section Defaults

variable {devices result spec image : Json} {components : Option Json} {context : ResolutionContext}

variable {name : String}

/-- The field after `or_insert` depends on the field before, and on whether there are fields. -/
theorem field_orInsert_congr {v w : Json} (value : Json) (hobj : v.isObj = w.isObj)
    (hfield : v.field name = w.field name) :
    (orInsert v name value).field name = (orInsert w name value).field name := by
  by_cases h : v.isObj = true
  · rw [field_orInsert_self h, field_orInsert_self (hobj ▸ h), hfield]
  · have hnot : ∀ u : Json, u.isObj = false → (orInsert u name value).field name = none := by
      intro u hu
      have hfield : (orInsert u name value).isObj = false := isObj_orInsert.trans hu
      cases horInsert : orInsert u name value with
      | obj fields => simp [horInsert, Json.isObj] at hfield
      | _ => rfl
    rw [Bool.not_eq_true] at h
    rw [hnot v h, hnot w (hobj ▸ h)]

theorem isObj_withRootDisk : (withRootDisk devices components).isObj = devices.isObj := by
  unfold withRootDisk
  dsimp only
  split
  · exact Json.isObj_setField _ _ _
  · rfl

theorem field_withRootDisk (h : name ≠ "disks") :
    (withRootDisk devices components).field name = devices.field name := by
  unfold withRootDisk
  dsimp only
  split
  · exact Json.field_setField_ne _ h _
  · rfl

theorem field_defaultEntries {collection : String} {defaults : Json → Json}
    (h : name ≠ collection) :
    (defaultEntries devices collection defaults).field name = devices.field name := by
  unfold defaultEntries
  split
  · exact Json.field_setField_ne _ h _
  · rfl

theorem field_defaultDisks (h : defaultDisks devices components = .ok result)
    (hname : name ≠ "disks") : result.field name = devices.field name := by
  unfold defaultDisks at h
  split at h
  · obtain ⟨disks, -, heq⟩ := bind_ok_iff.1 h
    obtain rfl := Except.ok.inj heq
    exact Json.field_setField_ne _ hname _
  · obtain rfl := Except.ok.inj h
    rfl

theorem mapM_withModel_ok {nics results : List Json}
    (h : (nics.mapM fun nic => do
      let i ← orFails nic.asObj "interface entries must be objects"
      .ok (orInsert (.obj i) "model" (.str "virtio-net-pci"))) = Except.ok results) :
    results = nics.map withModel := by
  induction nics generalizing results with
  | nil => exact (Except.ok.inj h).symm
  | cons nic rest ih =>
    rw [mapM_cons] at h
    obtain ⟨first, hfirst, hrest⟩ := bind_ok_iff.1 h
    obtain ⟨more, hmore, heq⟩ := bind_ok_iff.1 hrest
    obtain ⟨fields, hfields, hnic⟩ := bind_ok_iff.1 hfirst
    rw [← Except.ok.inj heq, ih hmore, ← Except.ok.inj hnic,
      ← asObj_eq_some.1 (orFails_ok_iff.1 hfields)]
    rfl

theorem nicsOf_defaultInterfaces (h : defaultInterfaces devices = .ok result) :
    nicsOf result = (nicsOf devices).map withModel := by
  unfold defaultInterfaces at h
  unfold nicsOf
  cases hfield : devices.field "interfaces" with
  | none =>
    rw [hfield] at h
    rw [← Except.ok.inj h, hfield]
    rfl
  | some value =>
    rw [hfield] at h
    cases value with
    | arr nics =>
      obtain ⟨results, hresults, heq⟩ := bind_ok_iff.1 h
      rw [← Except.ok.inj heq, Json.field_setField_self (Json.isObj_of_field hfield),
        mapM_withModel_ok hresults]
      rfl
    | _ =>
      rw [← Except.ok.inj h, hfield]
      rfl

theorem nicsOf_congr {v w : Json} (h : v.field "interfaces" = w.field "interfaces") :
    nicsOf v = nicsOf w := by
  unfold nicsOf
  rw [h]

/-- The defaults of the devices give each interface its model. -/
theorem nicsOf_expandDevices {defaultNetwork : Option String} {architecture machine : Option Json}
    (h : expandDevices devices components defaultNetwork architecture machine = .ok result) :
    nicsOf result = (nicsOf (withInterfaces devices defaultNetwork)).map withModel := by
  obtain ⟨disks, hdisks, h⟩ := bind_ok_iff.1 h
  obtain ⟨nics, hnics, heq⟩ := bind_ok_iff.1 h
  have hlast : result.field "interfaces" = nics.field "interfaces" := by
    rw [← Except.ok.inj heq]
    have hvideo : ∀ v : Json, (defaultVideo v architecture machine).field "interfaces" =
        v.field "interfaces" := by
      intro v
      unfold defaultVideo
      split
      · exact Json.field_setField_ne _ (by decide) _
      · exact field_defaultEntries (by decide)
    refine (field_defaultEntries (by decide)).trans ?_
    refine (field_defaultEntries (by decide)).trans ?_
    refine (hvideo _).trans ?_
    exact field_defaultEntries (by decide)
  have hfirst : disks.field "interfaces" =
      (withInterfaces devices defaultNetwork).field "interfaces" := by
    refine (field_defaultDisks hdisks (by decide)).trans ?_
    exact field_orInsert_congr _ isObj_withRootDisk (field_withRootDisk (by decide))
  rw [nicsOf_congr hlast, nicsOf_defaultInterfaces hnics, nicsOf_congr hfirst]

end Defaults

end MachineEmu.Resolution
