import MachineEmu.Engine.Macs
import MachineEmu.Safety.ResolutionPanics

/-!
# MAC addresses

An interface without an address gets one from the name of the instance and its place, as a byte. The
addresses that it was given are read by a laxer grammar than the one of the planner, and nothing
compares them.

* `NicsHold`, `NicsFit` — the interfaces of a resolved instance, and those of the merged layers.
* `PortsFit` — the ports of a board.
* `mac_addresses` — the addresses are in order exactly for these; `not_mac_addresses` — where they
  are not.
-/

namespace MachineEmu.Resolution

open Lib Planner List Option

/-! ## Derived addresses -/

/-- The bytes of the address that an interface gets. -/
def derivedBytes (digest : List Nat) (index : Nat) : List Nat :=
  [82, 84, 0, digest.getD 0 0, digest.getD 1 0, (digest.getD 2 0 + index) % 256]

/-- The address that an interface was given. -/
def ownNic (nic : Json) : Option String := (textOf nic "mac").map lowercase

section Derived

variable {digest : List Nat} {index i j : Nat}

theorem derivedMac_eq (digest : List Nat) (index : Nat) :
    derivedMac digest index = colonHex (derivedBytes digest index) := by
  have hcons : ∀ (b : Nat) (rest : List Nat), rest ≠ [] →
      colonHex (b :: rest) = Sha256.hex [b] ++ ":" ++ colonHex rest := by
    intro b rest hne
    unfold colonHex joinWith
    rw [map_cons, String.intercalate_cons_of_ne_nil (by simpa using hne)]
  unfold derivedMac derivedBytes
  rw [hcons 82 _ (by simp), hcons 84 _ (by simp), hcons 0 _ (by simp)]
  have hfront : Sha256.hex [82] ++ ":" ++ (Sha256.hex [84] ++ ":" ++ (Sha256.hex [0] ++ ":")) =
      "52:54:00:" := by decide +kernel
  rw [← hfront]
  simp only [String.append_assoc]

theorem lt_of_mem_derivedBytes (h : ∀ b ∈ digest, b < 256) :
    ∀ b ∈ derivedBytes digest index, b < 256 := by
  have hget : ∀ i, digest.getD i 0 < 256 := by
    intro i
    rw [getD_eq_getElem?_getD]
    cases hi : digest[i]? with
    | none => decide
    | some b => exact h b (mem_of_getElem? hi)
  intro b hb
  simp only [derivedBytes, mem_cons, not_mem_nil, or_false] at hb
  rcases hb with rfl | rfl | rfl | rfl | rfl | rfl
  · decide
  · decide
  · decide
  · exact hget 0
  · exact hget 1
  · exact Nat.mod_lt _ (by decide)

theorem unicast_derivedMac (h : ∀ b ∈ digest, b < 256) : Unicast (derivedMac digest index) := by
  rw [derivedMac_eq]
  exact unicast_colonHex rfl (lt_of_mem_derivedBytes h) (by simp [derivedBytes])

theorem lowercase_derivedMac (h : ∀ b ∈ digest, b < 256) :
    lowercase (derivedMac digest index) = derivedMac digest index := by
  rw [derivedMac_eq]
  exact lowercase_colonHex (lt_of_mem_derivedBytes h)

/-- The place counts as a byte. -/
theorem derivedMac_eq_iff (h : ∀ b ∈ digest, b < 256) :
    derivedMac digest i = derivedMac digest j ↔ i % 256 = j % 256 := by
  rw [derivedMac_eq, derivedMac_eq]
  constructor
  · intro heq
    have hbytes := colonHex_injective (by simp [derivedBytes]) (by simp [derivedBytes])
      (lt_of_mem_derivedBytes h) (lt_of_mem_derivedBytes h) heq
    simp only [derivedBytes, List.cons.injEq, true_and, and_true] at hbytes
    omega
  · intro heq
    unfold derivedBytes
    rw [Nat.add_mod, heq, ← Nat.add_mod]

end Derived

/-! ## Interfaces -/

/-- The addresses of interfaces: each has one that is valid, unicast and accepted by the planner, and
they are distinct. -/
structure NicsHold (nics : List Json) : Prop where
  valid : ∀ nic ∈ nics, ∃ text, nic.field "mac" = some (.str text) ∧ Unicast text ∧
    mac text = .ok (lowercase text)
  distinct : (nics.filterMap ownNic).Nodup

/-- An interface without an address. -/
def IsBare (nics : List Json) (i : Nat) : Prop := ∃ nic, nics[i]? = some nic ∧ nic.field "mac" = none

/-- The given addresses are unicast and distinct, the places of the interfaces without one are
distinct as bytes, and none of these gets an address that was given. -/
structure NicsFit (digest : List Nat) (nics : List Json) : Prop where
  given : ∀ nic ∈ nics, ∀ value, nic.field "mac" = some value →
    ∃ text, value = .str text ∧ Unicast text
  distinct : (nics.filterMap ownNic).Nodup
  places : ∀ i j, i < j → IsBare nics i → IsBare nics j → i % 256 ≠ j % 256
  apart : ∀ i, IsBare nics i → derivedMac digest i ∉ nics.filterMap ownNic

section Nics

variable {digest : List Nat} {nics : List Json}

theorem field_mac_withModel (nic : Json) : (withModel nic).field "mac" = nic.field "mac" :=
  field_orInsert_ne (by decide)

theorem ownNic_withModel (nic : Json) : ownNic (withModel nic) = ownNic nic := by
  unfold ownNic textOf
  rw [field_mac_withModel]

/-- The model of an interface does not matter. -/
theorem nicsFit_withModel : NicsFit digest (nics.map withModel) ↔ NicsFit digest nics := by
  have hown : (nics.map withModel).filterMap ownNic = nics.filterMap ownNic := by
    rw [filterMap_map]
    exact filterMap_congr fun nic _ => ownNic_withModel nic
  have hbare : ∀ i, IsBare (nics.map withModel) i ↔ IsBare nics i := by
    intro i
    unfold IsBare
    rw [List.getElem?_map]
    cases nics[i]? with
    | none => simp
    | some nic => simp [field_mac_withModel]
  constructor
  · intro h
    refine ⟨fun nic hnic value hvalue => ?_, hown ▸ h.distinct, fun i j hij hi hj => ?_,
      fun i hi => ?_⟩
    · exact h.given (withModel nic) (mem_map_of_mem hnic) value
        ((field_mac_withModel nic).trans hvalue)
    · exact h.places i j hij ((hbare i).2 hi) ((hbare j).2 hj)
    · exact hown ▸ h.apart i ((hbare i).2 hi)
  · intro h
    refine ⟨fun nic hnic value hvalue => ?_, hown.symm ▸ h.distinct, fun i j hij hi hj => ?_,
      fun i hi => ?_⟩
    · obtain ⟨plain, hplain, rfl⟩ := mem_map.1 hnic
      exact h.given plain hplain value ((field_mac_withModel plain).symm.trans hvalue)
    · exact h.places i j hij ((hbare i).1 hi) ((hbare j).1 hj)
    · exact hown.symm ▸ h.apart i ((hbare i).1 hi)

/-- Where the given addresses are texts, the gaps are the interfaces without one. -/
theorem gap_ownNic_iff (h : ∀ nic ∈ nics, ∀ value, nic.field "mac" = some value →
    ∃ text, value = .str text ∧ Unicast text) (i : Nat) : Gap ownNic nics i ↔ IsBare nics i := by
  refine exists_congr fun nic => and_congr_right fun hnic => ?_
  unfold ownNic textOf
  cases hfield : nic.field "mac" with
  | none => simp
  | some value =>
    obtain ⟨text, rfl, -⟩ := h nic (mem_of_getElem? hnic) value hfield
    simp [Json.asStr]

/-- The address of a resolved interface. -/
theorem field_mac_withAddress {nic : Json} (hobj : nic.isObj = true) (i : Nat) :
    (withAddress digest i nic).field "mac" =
      some ((nic.field "mac").getD (.str (derivedMac digest i))) := by
  unfold withAddress
  cases hfield : nic.field "mac" with
  | none => rw [if_neg (by simp), Json.field_setField_self hobj, getD_none]
  | some value => rw [if_pos isSome_some, hfield, getD_some]

/-- The addresses of the resolved interfaces are those that were given, with the gaps filled. -/
theorem filterMap_ownNic_withAddress (hdigest : ∀ b ∈ digest, b < 256)
    (hobj : ∀ nic ∈ nics, nic.isObj = true)
    (h : ∀ nic ∈ nics, ∀ value, nic.field "mac" = some value →
      ∃ text, value = .str text ∧ Unicast text) :
    (nics.mapIdx (withAddress digest)).filterMap ownNic = fill ownNic (derivedMac digest) nics := by
  refine filterMap_mapIdx_eq_fill fun i nic hnic => ?_
  unfold ownNic textOf
  rw [field_mac_withAddress (hobj nic hnic)]
  cases hfield : nic.field "mac" with
  | none => exact congrArg some (lowercase_derivedMac hdigest)
  | some value =>
    obtain ⟨text, rfl, -⟩ := h nic hnic value hfield
    rfl

/-- The addresses of resolved interfaces are in order, exactly where the interfaces of the layers
fit. -/
theorem nicsHold_withAddress_iff (hdigest : ∀ b ∈ digest, b < 256)
    (hobj : ∀ nic ∈ nics, nic.isObj = true) :
    NicsHold (nics.mapIdx (withAddress digest)) ↔ NicsFit digest nics := by
  have hmem : ∀ nic ∈ nics, ∃ i, withAddress digest i nic ∈ nics.mapIdx (withAddress digest) := by
    intro nic hnic
    obtain ⟨i, hi, rfl⟩ := getElem_of_mem hnic
    exact ⟨i, mem_mapIdx.2 ⟨i, hi, rfl⟩⟩
  constructor
  · intro hold
    have hgiven : ∀ nic ∈ nics, ∀ value, nic.field "mac" = some value →
        ∃ text, value = .str text ∧ Unicast text := by
      intro nic hnic value hvalue
      obtain ⟨i, hi⟩ := hmem nic hnic
      obtain ⟨text, htext, hunicast, -⟩ := hold.valid _ hi
      rw [field_mac_withAddress (hobj nic hnic), hvalue, getD_some] at htext
      exact ⟨text, Option.some.inj htext, hunicast⟩
    have hnodup := hold.distinct
    rw [filterMap_ownNic_withAddress hdigest hobj hgiven, nodup_fill_iff] at hnodup
    obtain ⟨hdistinct, hplaces, hapart⟩ := hnodup
    simp only [gap_ownNic_iff hgiven] at hplaces hapart
    refine ⟨hgiven, hdistinct, fun i j hij hi hj heq => ?_, hapart⟩
    exact hplaces i j hij hi hj ((derivedMac_eq_iff hdigest).2 heq)
  · intro hfit
    refine ⟨fun result hresult => ?_, ?_⟩
    · obtain ⟨i, hi, rfl⟩ := mem_mapIdx.1 hresult
      have hnic : nics[i] ∈ nics := getElem_mem hi
      have hunicast : ∃ text, (nics[i].field "mac").getD (.str (derivedMac digest i)) = .str text ∧
          Unicast text := by
        cases hfield : nics[i].field "mac" with
        | none => exact ⟨_, rfl, unicast_derivedMac hdigest⟩
        | some value => exact hfit.given _ hnic value hfield
      obtain ⟨text, htext, hunicast⟩ := hunicast
      refine ⟨text, ?_, hunicast, mac_eq_ok_iff.2 ⟨hunicast, rfl⟩⟩
      rw [field_mac_withAddress (hobj _ hnic), htext]
    · rw [filterMap_ownNic_withAddress hdigest hobj hfit.given, nodup_fill_iff]
      simp only [gap_ownNic_iff hfit.given]
      refine ⟨hfit.distinct, fun i j hij hi hj heq => ?_, hfit.apart⟩
      exact hfit.places i j hij hi hj ((derivedMac_eq_iff hdigest).1 heq)

end Nics

/-! ## The resolution -/

section Resolution

variable {profile : Document} {identity : Option Document} {image : Document} {overrides : Json}
  {context : ResolutionContext} {spec filled : Json} {doc : DomainDocument}

theorem isObj_layered (h : layered profile identity image overrides context = .ok spec) :
    spec.isObj = true := by
  obtain ⟨lower, -, hrest⟩ := bind_ok_iff.1 h
  obtain ⟨merged, hmerged, hengine⟩ := bind_ok_iff.1 hrest
  have hobj : merged.isObj = true := by
    rw [merging_ok_iff] at hmerged
    unfold mergeValues at hmerged
    split at hmerged
    · cases hmerged
    · rw [← Except.ok.inj hmerged]
      rfl
  unfold withEngine at hengine
  split at hengine
  · cases hengine
  · rw [← Except.ok.inj hengine]
    exact (Json.isObj_setField _ _ _).trans hobj

/-- The interfaces after the defaults are those of the merged layers, with their models. -/
theorem interfacesOf_expandDefaults (hobj : spec.isObj = true)
    (h : expandDefaults spec image.spec context = .ok filled) :
    interfacesOf filled = (mergedNics spec context).map withModel := by
  obtain ⟨resources, hresources, hrest⟩ := bind_ok_iff.1 h
  obtain ⟨fields, -, rfl⟩ := withResources_ok_iff.1 hresources
  have hisObj : ((withMachine (withArchitecture spec image.spec)).setField "resources"
      (vcpusOf (.obj fields))).isObj = true :=
    ((Json.isObj_setField _ _ _).trans isObj_withMachine).trans hobj
  have hfield : ((withMachine (withArchitecture spec image.spec)).setField "resources"
      (vcpusOf (.obj fields))).field "devices" = spec.field "devices" :=
    (Json.field_setField_ne _ (by decide) _).trans (field_withMachine (by decide) (by decide))
  dsimp only at hrest
  rw [field_orInsert_self hisObj, hfield] at hrest
  unfold interfacesOf mergedNics
  have hother : ∀ v : Json, v.isObj = false → nicsOf v = [] := by
    intro v hv
    cases v with
    | obj fields => cases hv
    | _ => rfl
  by_cases hdevices : ((spec.field "devices").getD (.obj [])).isObj = true
  · obtain ⟨devices, hdevices⟩ := isSome_iff_exists.1 (isSome_asObj.trans hdevices)
    rw [asObj_eq_some] at hdevices
    rw [hdevices] at hrest ⊢
    obtain ⟨expanded, hexpanded, heq⟩ := bind_ok_iff.1 hrest
    rw [← Except.ok.inj heq, Json.field_setField_self (isObj_orInsert.trans hisObj)]
    exact nicsOf_expandDevices hexpanded
  · rw [Bool.not_eq_true] at hdevices
    have hfilled : filled.field "devices" = some ((spec.field "devices").getD (.obj [])) := by
      have heq : filled = orInsert ((withMachine (withArchitecture spec image.spec)).setField
          "resources" (vcpusOf (.obj fields))) "devices" (.obj []) := by
        cases hvalue : (spec.field "devices").getD (.obj []) with
        | obj fields => rw [hvalue] at hdevices; cases hdevices
        | _ => rw [hvalue] at hrest; exact (Except.ok.inj hrest).symm
      rw [heq, field_orInsert_self hisObj, hfield]
    rw [hfilled, map_some, getD_some, hother _ hdevices,
      hother (withInterfaces _ _) (isObj_orInsert.trans hdevices)]
    rfl

/-- The addresses of the interfaces of a resolved instance. -/
theorem nicsHold_resolveInstance_iff
    (hlayered : layered profile identity image overrides context = .ok spec)
    (h : resolveInstance profile identity image overrides context = .ok doc) :
    NicsHold (interfacesOf doc.spec) ↔
      NicsFit (Sha256.digest (Sha256.bytes (instanceName profile context)))
        (mergedNics spec context) := by
  obtain ⟨_, -, hrest⟩ := bind_ok_iff.1 h
  obtain ⟨spec', hspec', hrest⟩ := bind_ok_iff.1 hrest
  obtain ⟨filled, hfilled, hrest⟩ := bind_ok_iff.1 hrest
  obtain ⟨_, hchecked, hrest⟩ := bind_ok_iff.1 hrest
  obtain ⟨resolved, hresolved, heq⟩ := bind_ok_iff.1 hrest
  obtain rfl : spec' = spec := Except.ok.inj (hspec'.symm.trans hlayered)
  obtain ⟨_, hvalidate, -⟩ := bind_ok_iff.1 hchecked
  obtain ⟨_, -, hvalidate⟩ := bind_ok_iff.1 hvalidate
  obtain ⟨_, -, hvalidate⟩ := bind_ok_iff.1 hvalidate
  obtain ⟨_, hdevices, -⟩ := bind_ok_iff.1 hvalidate
  have hobj : ∀ nic ∈ interfacesOf filled, nic.isObj = true :=
    fun nic hnic => (validateDevices_ok hdevices hnic).1
  obtain ⟨result, hresult, hinterfaces⟩ := generateIdentities_ok (instanceName profile context) hobj
  obtain rfl : result = resolved := Except.ok.inj (hresult.symm.trans hresolved)
  obtain rfl := Except.ok.inj heq
  dsimp only
  rw [hinterfaces, nicsHold_withAddress_iff (fun b => Sha256.lt_of_mem_digest) hobj,
    interfacesOf_expandDefaults (isObj_layered hlayered) hfilled, nicsFit_withModel]

end Resolution

/-! ## The ports of a board -/

/-- The given addresses of the ports are distinct, and no port without one takes one of them. -/
structure PortsFit (address : Option String) (ports : List Json) : Prop where
  distinct : (ports.filterMap ownMac).Nodup
  apart : ∀ i, Gap ownMac ports i → takenMac address i ∉ ports.filterMap ownMac

/-- The addresses of the ports of a board are distinct, exactly where the ports fit. -/
theorem nodup_portAddresses_iff {v : Option Json} {helper address : Option String}
    {ports : List Json} {argv : List String}
    (hports : ((v.bind fun v => v.field "ports").bind Json.asArr) = some ports)
    (h : udmNetwork v helper address = .ok argv) :
    (portAddresses 0 (argv.drop 2)).Nodup ↔ PortsFit address ports := by
  obtain ⟨value, hvalue, harr⟩ := bind_eq_some_iff.1 hports
  unfold udmNetwork at h
  rw [hvalue] at h
  obtain ⟨four, hfour, hrest⟩ := bind_eq_ok.1 h
  obtain ⟨more, hmore, heq⟩ := bind_eq_ok.1 hrest
  rw [orInvalid_eq_ok, harr, filter_eq_some_iff] at hfour
  obtain ⟨hsame, hlength⟩ := hfour
  obtain rfl := Option.some.inj hsame
  obtain ⟨haddresses, hgaps⟩ := portAddresses_udmPorts hmore
  rw [← Except.ok.inj heq]
  change (portAddresses 0 more).Nodup ↔ _
  rw [haddresses, nodup_fill_iff]
  simp only [Nat.zero_add]
  constructor
  · rintro ⟨hdistinct, -, hapart⟩
    exact ⟨hdistinct, hapart⟩
  · intro hfit
    refine ⟨hfit.distinct, fun i j hij hi hj hsame => ?_, hfit.apart⟩
    obtain ⟨base, rfl, hbase⟩ := hgaps i hi
    have hbound : ∀ k, Gap ownMac ports k → k < 2 ^ 24 := by
      rintro k ⟨port, hport, -⟩
      have hlt := (List.getElem?_eq_some_iff.1 hport).1
      have hfour : ports.length = 4 := by simpa using hlength
      omega
    have := adjacentMac_injective hbase.lowercase (hbound i hi) (hbound j hj) hsame
    omega

/-! ## Both -/

/-- The addresses of a resolved instance are in order exactly where the interfaces of its layers
fit, and those of the ports of a board are distinct exactly where the ports fit. -/
theorem mac_addresses (profile : Document) (identity : Option Document) (image : Document)
    (overrides : Json) (context : ResolutionContext) :
    (∀ (spec : Json) (doc : DomainDocument),
      layered profile identity image overrides context = .ok spec →
        resolveInstance profile identity image overrides context = .ok doc →
          (NicsHold (interfacesOf doc.spec) ↔
            NicsFit (Sha256.digest (Sha256.bytes (instanceName profile context)))
              (mergedNics spec context))) ∧
    ∀ (v : Option Json) (helper address : Option String) (ports : List Json) (argv : List String),
      ((v.bind fun v => v.field "ports").bind Json.asArr) = some ports →
        udmNetwork v helper address = .ok argv →
          ((portAddresses 0 (argv.drop 2)).Nodup ↔ PortsFit address ports) :=
  ⟨fun _ _ hlayered h => nicsHold_resolveInstance_iff hlayered h,
    fun _ _ _ _ _ hports h => nodup_portAddresses_iff hports h⟩

/-- A profile with interfaces. -/
def nicProfile (nics : List Json) : Document where
  kind := "Profile"
  metadata := { name := "p", revision := 1 }
  spec := .ofFields [("devices", .ofFields [("interfaces", .arr nics)])]

/-- An image without components. -/
def plainImage : Document where
  kind := "Image"
  metadata := { name := "i", revision := 1 }
  spec := .ofFields []

/-- An interface with an address, and one without. -/
def mixedNics : List Json :=
  [.ofFields [("id", .str "a"), ("mac", .str "02:00:00:00:00:0A")], .ofFields [("id", .str "b")]]

/-- Four ports, one of them with an address. -/
def mixedPorts : Json :=
  let port := Json.ofFields [("type", .str "user")]
  .ofFields [("ports", .arr [port, port,
    .ofFields [("type", .str "user"), ("mac", .str "02:00:00:00:00:0A")], port])]

/-- Two interfaces of which the first has an address fit, unless the second gets it. -/
theorem nicsFit_pair {digest : List Nat} {first second : Json} {address : String}
    (hfirst : first.field "mac" = some (.str address)) (hsecond : second.field "mac" = none)
    (haddress : Unicast address) (hapart : derivedMac digest 1 ≠ lowercase address) :
    NicsFit digest [first, second] := by
  have hown : [first, second].filterMap ownNic = [lowercase address] := by
    simp [ownNic, textOf, hfirst, hsecond, Json.asStr]
  have hbare : ∀ i, IsBare [first, second] i → i = 1 := by
    rintro i ⟨nic, hnic, hfield⟩
    rcases i with _ | _ | i
    · obtain rfl : first = nic := by simpa using hnic
      rw [hfirst] at hfield
      cases hfield
    · rfl
    · simp at hnic
  refine ⟨fun nic hnic value hvalue => ?_, ?_, fun i j hij hi hj => ?_, fun i hi => ?_⟩
  · simp only [mem_cons, not_mem_nil, or_false] at hnic
    rcases hnic with rfl | rfl
    · exact ⟨address, Option.some.inj (hvalue.symm.trans hfirst), haddress⟩
    · rw [hsecond] at hvalue
      cases hvalue
  · rw [hown]
    exact nodup_singleton _
  · have := hbare i hi
    have := hbare j hj
    omega
  · rw [hbare i hi, hown, mem_singleton]
    exact hapart

theorem mac_addresses_mixed :
    (∃ doc, resolveInstance (nicProfile mixedNics) none plainImage .null oneEngine = .ok doc ∧
      NicsHold (interfacesOf doc.spec)) ∧
    ∃ argv, udmNetwork (some mixedPorts) none (some "02:00:00:00:01:00") = .ok argv ∧
      (portAddresses 0 (argv.drop 2)).Nodup := by
  constructor
  · have hok : (resolveInstance (nicProfile mixedNics) none plainImage .null oneEngine).isOk =
        true := by decide +kernel
    have hnics : ((layered (nicProfile mixedNics) none plainImage .null oneEngine).toOption.map
        fun spec => (mergedNics spec oneEngine).map fun nic => (nic.field "mac").map Json.asStr) =
          some [some (some "02:00:00:00:00:0A"), none] := by decide +kernel
    cases hdoc : resolveInstance (nicProfile mixedNics) none plainImage .null oneEngine with
    | error stop =>
      rw [hdoc] at hok
      cases hok
    | ok doc =>
      cases hspec : layered (nicProfile mixedNics) none plainImage .null oneEngine with
      | error stop =>
        rw [hspec] at hnics
        cases hnics
      | ok spec =>
        refine ⟨doc, rfl, ((mac_addresses _ _ _ _ _).1 _ _ hspec hdoc).2 ?_⟩
        rw [hspec] at hnics
        have hpair := Option.some.inj hnics
        obtain ⟨first, rest, hcons, hfirst, hrest⟩ := map_eq_cons_iff.1 hpair
        obtain ⟨second, more, rfl, hsecond, hmore⟩ := map_eq_cons_iff.1 hrest
        obtain rfl := map_eq_nil_iff.1 hmore
        obtain ⟨value, hvalue, htext⟩ := map_eq_some_iff.1 hfirst
        obtain rfl : value = .str "02:00:00:00:00:0A" := by
          cases value <;> simp_all [Json.asStr]
        rw [hcons]
        exact nicsFit_pair hvalue (map_eq_none_iff.1 hsecond) (by decide +kernel)
          (by decide +kernel)
  · have hok : (udmNetwork (some mixedPorts) none (some "02:00:00:00:01:00")).isOk = true := by
      decide +kernel
    cases hargv : udmNetwork (some mixedPorts) none (some "02:00:00:00:01:00") with
    | error message =>
      rw [hargv] at hok
      cases hok
    | ok argv =>
      refine ⟨argv, rfl, ((mac_addresses (nicProfile mixedNics) none plainImage .null oneEngine).2
        _ _ _ _ _ rfl hargv).2 ⟨by decide +kernel, ?_⟩⟩
      have htaken : ∀ i < 4, takenMac (some "02:00:00:00:01:00") i ∉
          ["02:00:00:00:00:0a"] := by decide +kernel
      rintro i ⟨port, hport, -⟩
      exact htaken i (List.getElem?_eq_some_iff.1 hport).1

/-- Two interfaces with one address. -/
def sharedNics : List Json :=
  [.ofFields [("id", .str "a"), ("mac", .str "02:00:00:00:00:01")],
    .ofFields [("id", .str "b"), ("mac", .str "02:00:00:00:00:01")]]

/-- The instance is accepted, and both interfaces have the address. -/
theorem not_mac_addresses :
    ¬∀ (profile : Document) (identity : Option Document) (image : Document) (overrides : Json)
      (context : ResolutionContext) (doc : DomainDocument),
      resolveInstance profile identity image overrides context = .ok doc →
        NicsHold (interfacesOf doc.spec) := by
  intro h
  have hcheck : ((resolveInstance (nicProfile sharedNics) none plainImage .null oneEngine).toOption.map
      fun doc => decide ((interfacesOf doc.spec).filterMap ownNic).Nodup) = some false := by
    decide +kernel
  cases hdoc : resolveInstance (nicProfile sharedNics) none plainImage .null oneEngine with
  | error stop =>
    rw [hdoc] at hcheck
    cases hcheck
  | ok doc =>
    have hnodup := (h _ _ _ _ _ doc hdoc).distinct
    rw [hdoc] at hcheck
    simp only [Except.toOption, map_some, hnodup, decide_true] at hcheck
    cases hcheck

end MachineEmu.Resolution
