import MachineEmu.Resolution.Disks

/-!
# The targets of disks

The names that the defaults give to disks are `vd` or `sd` and a letter, counted from `a` on for
each of the two, whatever names the other disks have.

* `NamesHold` — the given names are proper, distinct and apart from those that were there.
* `NamesFit` — the lists of disks for which they are.
* `default_targets` — the two are the same; `not_default_targets` — a list for which they are not.
-/

namespace MachineEmu.Resolution

open Lib List

/-- The disks of the devices, as the checks read them. -/
def disksOf (devices : Json) : List Json := ((devices.field "disks").bind Json.asArr).getD []

/-- A name of a disk: `vd` or `sd`, and lowercase letters. -/
def isDiskName (name : String) : Bool :=
  (name.toList.take 2 = ['v', 'd'] || name.toList.take 2 = ['s', 'd']) &&
    name.toList.drop 2 ≠ [] && (name.toList.drop 2).all Char.isLower

/-- The names that are in the document. -/
def explicitNames (disks : List Json) : List String := disks.filterMap targetName

/-- The name that a disk got, if it had none. -/
def assignedName (p : Json × Json) : Option String :=
  if Explicit p.1 then none else targetName p.2

/-- The names that the disks without one got. -/
def assignedNames (disks results : List Json) : List String :=
  (disks.zip results).filterMap assignedName

/-- The names that the disks got. -/
structure NamesOk (disks results : List Json) : Prop where
  valid : ∀ name ∈ assignedNames disks results, isDiskName name = true
  distinct : (assignedNames disks results).Nodup
  apart : ∀ name ∈ assignedNames disks results, name ∉ explicitNames disks
  accepted : (explicitNames disks).Nodup → validateTargets [] results = .ok ()

/-- The defaults of the disks do not panic, and the names that they give are in order. -/
structure NamesHold (components : Option Json) (devices : Json) : Prop where
  calm : Calm (defaultDisks devices components)
  names : ∀ results, defaultDisks devices components = .ok results →
    NamesOk (disksOf devices) (disksOf results)

/-- No panic; and where all disks are accepted, at most 26 names are needed for each of the letters,
and none of them is in the document. -/
structure NamesFit (components : Option Json) (disks : List Json) : Prop where
  calm : ¬DisksPanic components {} disks
  few : (∀ disk ∈ disks, ProperDisk disk) → ∀ letters, letters = "vd" ∨ letters = "sd" →
    unnamed letters disks ≤ 26
  apart : (∀ disk ∈ disks, ProperDisk disk) → ∀ letters, letters = "vd" ∨ letters = "sd" →
    ∀ n < unnamed letters disks, nameOf letters n ∉ explicitNames disks

/-! ## Names -/

theorem isDiskName_nameOf : ∀ n < 26, isDiskName (nameOf "vd" n) = true ∧
    isDiskName (nameOf "sd" n) = true := by
  decide +kernel

theorem not_isDiskName_nameOf :
    isDiskName (nameOf "vd" 26) = false ∧ isDiskName (nameOf "sd" 26) = false := by
  decide +kernel

theorem letter_injective : ∀ n < 26, ∀ m < 26, Char.ofNat (97 + n) = Char.ofNat (97 + m) → n = m := by
  decide +kernel

theorem nameOf_injective {letters other : String} {n m : Nat}
    (hl : letters = "vd" ∨ letters = "sd") (ho : other = "vd" ∨ other = "sd") (hn : n < 26)
    (hm : m < 26) (h : nameOf letters n = nameOf other m) : letters = other ∧ n = m := by
  have hlist := congrArg String.toList h
  simp only [nameOf, String.toList_append, String.toList_singleton] at hlist
  have hchar : Char.ofNat (97 + n) = Char.ofNat (97 + m) := by
    rcases hl with rfl | rfl <;> rcases ho with rfl | rfl <;> simp at hlist <;> exact hlist
  refine ⟨?_, letter_injective n hn m hm hchar⟩
  rcases hl with rfl | rfl <;> rcases ho with rfl | rfl <;> simp at hlist ⊢

section Names

variable {components : Option Json} {disks results : List Json} {next : NextNames}

/-- Few names are distinct. -/
theorem nodup_givenNames (h : ∀ letters, letters = "vd" ∨ letters = "sd" →
    next.of letters + unnamed letters disks ≤ 26) : (givenNames next disks).Nodup := by
  induction disks generalizing next with
  | nil => exact nodup_nil
  | cons disk rest ih =>
    have hrest : (givenNames (next.after disk) rest).Nodup :=
      ih fun letters hl => of_after_add hl disk rest ▸ h letters hl
    rw [givenNames]
    cases hown : ownLetters disk with
    | none => simpa using hrest
    | some letters =>
      have hl := letters_of_own hown
      refine nodup_cons.2 ⟨fun hmem => ?_, hrest⟩
      obtain ⟨other, n, ho, hle, hlt, heq⟩ := mem_givenNames.1 hmem
      have hbound := h other ho
      rw [← of_after_add ho disk rest] at hbound
      have hroom := h letters hl
      rw [unnamed_cons, if_pos hown] at hroom
      obtain ⟨rfl, rfl⟩ := nameOf_injective hl ho (by omega) (by omega) heq
      rw [of_after hl, if_pos hown] at hle
      omega

/-- The names that the disks without one got are the given ones. -/
theorem assignedNames_eq (h : results.map targetName = namesAfter next disks) :
    assignedNames disks results = givenNames next disks := by
  induction disks generalizing next results with
  | nil => rfl
  | cons disk rest ih =>
    cases results with
    | nil => cases h
    | cons result results =>
      rw [map_cons, namesAfter] at h
      obtain ⟨hname, hrest⟩ := List.cons.inj h
      rw [givenNames, ← ih hrest]
      unfold assignedNames
      rw [zip_cons_cons]
      have hassigned : assignedName (disk, result) =
          (ownLetters disk).map fun letters => nameOf letters (next.of letters) := by
        unfold assignedName
        dsimp only
        rw [hname, nameAfter]
        by_cases hexplicit : Explicit disk
        · rw [if_pos hexplicit, ownLetters_of_explicit hexplicit, Option.map_none]
        · rw [if_neg hexplicit, if_neg hexplicit, ownLetters_of_not_explicit hexplicit]
      rw [← hassigned]
      cases hresult : assignedName (disk, result) with
      | none => rw [filterMap_cons_none hresult]; rfl
      | some name => rw [filterMap_cons_some hresult]; rfl

theorem validateTargets_ok_iff {seen : List String} {u : Unit} :
    validateTargets seen disks = .ok u ↔
      (explicitNames disks).Nodup ∧ ∀ name ∈ explicitNames disks, name ∉ seen := by
  induction disks generalizing seen with
  | nil => simp [validateTargets, explicitNames]
  | cons disk rest ih =>
    unfold explicitNames at ih ⊢
    rw [validateTargets]
    cases hname : targetName disk with
    | none => rw [filterMap_cons_none hname]; exact ih
    | some name =>
      rw [filterMap_cons_some hname, nodup_cons, forall_mem_cons]
      by_cases hseen : name ∈ seen
      · simp [hseen]
      · simp only [if_neg hseen, ih, mem_cons, not_or]
        constructor
        · rintro ⟨hnodup, h⟩
          exact ⟨⟨fun hmem => (h name hmem).1 rfl, hnodup⟩, hseen, fun n hn => (h n hn).2⟩
        · rintro ⟨⟨hmem, hnodup⟩, -, h⟩
          exact ⟨hnodup, fun n hn => ⟨fun heq => hmem (heq ▸ hn), h n hn⟩⟩

/-- The targets of the results are distinct, where those of the document and the given ones are
and the two are apart. -/
theorem nodup_explicitNames_results (h : results.map targetName = namesAfter next disks) :
    (explicitNames results).Nodup ↔ (explicitNames disks ++ givenNames next disks).Nodup := by
  have heq : explicitNames results = (namesAfter next disks).filterMap id := by
    rw [← h, filterMap_map]
    rfl
  rw [heq]
  exact namesAfter_perm.nodup_iff

theorem defaultDisks_eq {devices : Json} (h : devices.field "disks" = some (.arr disks)) :
    defaultDisks devices components =
      (defaultDiskList components {} disks >>= fun disks =>
        .ok (devices.setField "disks" (.arr disks))) := by
  unfold defaultDisks
  rw [h]

theorem disksOf_setField {devices : Json} (h : devices.field "disks" = some (.arr disks)) :
    disksOf (devices.setField "disks" (.arr results)) = results := by
  unfold disksOf
  rw [Json.field_setField_self (Json.isObj_of_field h)]
  rfl

end Names

/-! ## The result -/

section Result

variable {components : Option Json} {disks : List Json} {devices : Json}

theorem namesHold_iff (h : devices.field "disks" = some (.arr disks)) :
    NamesHold components devices ↔ ¬DisksPanic components {} disks ∧
      ∀ results, defaultDiskList components {} disks = .ok results → NamesOk disks results := by
  have hdisks : disksOf devices = disks := by
    unfold disksOf
    rw [h]
    rfl
  have hcalm : Calm (defaultDisks devices components) ↔ ¬DisksPanic components {} disks := by
    rw [← defaultDiskList_panics_iff, defaultDisks_eq h]
    refine not_congr (bind_panics_iff.trans ⟨?_, Or.inl⟩)
    rintro (hpanics | ⟨_, -, hpanics⟩)
    · exact hpanics
    · cases hpanics
  constructor
  · intro hold
    refine ⟨hcalm.1 hold.calm, fun results hresults => ?_⟩
    have hok := hold.names _ ((defaultDisks_eq h).trans (bind_ok_iff.2 ⟨results, hresults, rfl⟩))
    rwa [hdisks, disksOf_setField h] at hok
  · rintro ⟨hpanic, hnames⟩
    refine ⟨hcalm.2 hpanic, fun devices' hdevices' => ?_⟩
    rw [defaultDisks_eq h] at hdevices'
    obtain ⟨results, hresults, heq⟩ := bind_ok_iff.1 hdevices'
    obtain rfl := Except.ok.inj heq
    rw [hdisks, disksOf_setField h]
    exact hnames results hresults

/-- The names that the defaults give hold up, exactly where no disk makes them panic, at most 26
names are needed for each of the letters, and none of them is in the document. -/
theorem default_targets (components : Option Json) (devices : Json) (disks : List Json)
    (h : devices.field "disks" = some (.arr disks)) :
    NamesHold components devices ↔ NamesFit components disks := by
  rw [namesHold_iff h]
  constructor
  · rintro ⟨hcalm, hnames⟩
    -- A number below the count of the unnamed disks is the number of a given name.
    have hgiven : (∀ disk ∈ disks, ProperDisk disk) → ∀ letters,
        letters = "vd" ∨ letters = "sd" → ∀ n < unnamed letters disks,
          isDiskName (nameOf letters n) = true ∧ nameOf letters n ∉ explicitNames disks := by
      intro hproper letters hl n hn
      obtain ⟨results, hresults⟩ := defaultDiskList_of_proper hproper hcalm
      have hok := hnames results hresults
      have hmem : nameOf letters n ∈ assignedNames disks results := by
        rw [assignedNames_eq (defaultDiskList_ok hresults).2]
        have hzero : (({} : NextNames)).of letters = 0 := by
          unfold NextNames.of
          split <;> rfl
        exact mem_givenNames.2 ⟨letters, n, hl, by omega, by omega, rfl⟩
      exact ⟨hok.valid _ hmem, hok.apart _ hmem⟩
    refine ⟨hcalm, fun hproper letters hl => ?_, fun hproper letters hl n hn =>
      (hgiven hproper letters hl n hn).2⟩
    by_contra hmany
    have hvalid := (hgiven hproper letters hl 26 (by omega)).1
    rcases hl with rfl | rfl
    · exact Bool.false_ne_true (not_isDiskName_nameOf.1.symm.trans hvalid)
    · exact Bool.false_ne_true (not_isDiskName_nameOf.2.symm.trans hvalid)
  · intro hfit
    refine ⟨hfit.calm, fun results hresults => ?_⟩
    obtain ⟨hproper, hmap⟩ := defaultDiskList_ok hresults
    have hzero : ∀ letters, (({} : NextNames)).of letters = 0 := by
      intro letters
      unfold NextNames.of
      split <;> rfl
    have hapart : ∀ name ∈ givenNames {} disks, name ∉ explicitNames disks := by
      intro name hname
      obtain ⟨letters, n, hl, -, hlt, rfl⟩ := mem_givenNames.1 hname
      rw [hzero, Nat.zero_add] at hlt
      exact hfit.apart hproper letters hl n hlt
    have hnodup : (givenNames {} disks).Nodup := by
      refine nodup_givenNames fun letters hl => ?_
      rw [hzero, Nat.zero_add]
      exact hfit.few hproper letters hl
    refine ⟨?_, ?_, ?_, fun hexplicit => ?_⟩
    · rw [assignedNames_eq hmap]
      intro name hname
      obtain ⟨letters, n, hl, -, hlt, rfl⟩ := mem_givenNames.1 hname
      rw [hzero, Nat.zero_add] at hlt
      have hle := hfit.few hproper letters hl
      rcases hl with rfl | rfl
      · exact (isDiskName_nameOf n (by omega)).1
      · exact (isDiskName_nameOf n (by omega)).2
    · rw [assignedNames_eq hmap]
      exact hnodup
    · rw [assignedNames_eq hmap]
      exact hapart
    · refine validateTargets_ok_iff.2 ⟨?_, by simp⟩
      rw [nodup_explicitNames_results hmap, nodup_append]
      refine ⟨hexplicit, hnodup, fun a ha b hb heq => ?_⟩
      exact hapart b hb (heq ▸ ha)

/-- A disk without a name, one with the name of the second kind of bus, and one without. -/
def mixedDisks : List Json :=
  [.ofFields [("id", .str "a")],
    .ofFields [("id", .str "b"), ("target", .ofFields [("bus", .str "sata"), ("dev", .str "sda")])],
    .ofFields [("id", .str "c")]]

theorem default_targets_mixed :
    NamesHold none (.ofFields [("disks", .arr mixedDisks)]) := by
  have hcalm : (defaultDiskList none {} mixedDisks).isOk = true := by decide +kernel
  refine (default_targets none _ mixedDisks rfl).2 ⟨fun hpanic => ?_, fun _ => ?_, fun _ => ?_⟩
  · rw [defaultDiskList_panics_iff.2 hpanic] at hcalm
    cases hcalm
  · rintro letters (rfl | rfl) <;> decide +kernel
  · rintro letters (rfl | rfl) <;> decide +kernel

/-- A disk without a name before one with the name that it gets. -/
def sharedName : List Json :=
  [.ofFields [("id", .str "a")],
    .ofFields [("id", .str "b"), ("target", .ofFields [("dev", .str "vda")])]]

/-- The name of the second disk is given to the first: the document, whose targets were distinct,
is refused. -/
theorem not_default_targets :
    ¬∀ (components : Option Json) (devices : Json) (disks : List Json),
      devices.field "disks" = some (.arr disks) → NamesHold components devices := by
  intro h
  have hold := h none (.ofFields [("disks", .arr sharedName)]) sharedName rfl
  have hcheck : ((defaultDisks (.ofFields [("disks", .arr sharedName)]) none).toOption.map
      fun results => (validateTargets [] (disksOf results)).isOk) = some false := by
    decide +kernel
  cases hresults : defaultDisks (.ofFields [("disks", .arr sharedName)]) none with
  | error stop =>
    rw [hresults] at hcheck
    cases hcheck
  | ok results =>
    have hexplicit : (explicitNames (disksOf (.ofFields [("disks", .arr sharedName)]))).Nodup := by
      decide +kernel
    rw [hresults] at hcheck
    simp only [Except.toOption, Option.map_some, (hold.names results hresults).accepted hexplicit]
      at hcheck
    cases hcheck

end Result

end MachineEmu.Resolution
