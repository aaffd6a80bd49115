import MachineEmu.Resolution.Instance

/-!
# The defaults of disks

What the defaults do to a disk, and what stops them.

* `ProperDisk` — a disk that the defaults accept; `DriverClash` — one that they panic on.
* `defaultDisk_ok` — what an accepted disk becomes.
* `defaultDisk_panics_iff`, `defaultDiskList_panics_iff` — when they panic.
-/

namespace MachineEmu.Resolution

open Lib List Option

/-! ## Fields -/

section Fields

variable {v : Json} {name other : String} {value : Json}

@[simp] theorem isObj_orInsert : (orInsert v name value).isObj = v.isObj := by
  unfold orInsert
  split <;> simp

theorem field_orInsert_ne (h : other ≠ name) :
    (orInsert v name value).field other = v.field other := by
  unfold orInsert
  split
  · rfl
  · exact Json.field_setField_ne v h value

theorem field_orInsert_self (h : v.isObj = true) :
    (orInsert v name value).field name = some ((v.field name).getD value) := by
  unfold orInsert
  cases hfield : v.field name with
  | some a => rw [isSome_some, if_pos rfl, hfield, getD_some]
  | none =>
    rw [isSome_none, if_neg Bool.false_ne_true, Json.field_setField_self h, getD_none]

theorem asObj_eq_some {fields : List (String × Json)} : v.asObj = some fields ↔ v = .obj fields := by
  cases v <;> simp [Json.asObj, eq_comm]

theorem isSome_asObj : v.asObj.isSome = v.isObj := by
  cases v <;> rfl

theorem asObj_eq_none : v.asObj = none ↔ v.isObj = false := by
  cases v <;> simp [Json.asObj, Json.isObj]

end Fields

/-! ## Disks -/

/-- The source of a disk. -/
def sourceOf (disk : Json) : Json := (disk.field "source").getD (.obj [])

/-- The driver of a disk. -/
def driverOf (disk : Json) : Json := (disk.field "driver").getD (.obj [])

/-- The target of a disk. -/
def targetOf (disk : Json) : Json := (disk.field "target").getD (.obj [])

/-- The format of the component of a disk. -/
def formatOf (components : Option Json) (disk : Json) : Option Json :=
  componentFormat components (diskComponent (sourceOf disk))

/-- A disk whose target has a name. -/
def Explicit (disk : Json) : Prop := ((targetOf disk).field "dev").isSome = true

instance (disk : Json) : Decidable (Explicit disk) := inferInstanceAs (Decidable (_ = true))

/-- The bus of a disk. -/
def busOf (disk : Json) : Option String :=
  (((targetOf disk).field "bus").getD (.str "virtio")).asStr

/-- The letters of the name that a disk gets. -/
def lettersOf (disk : Json) : Option String := (busOf disk).bind busLetters

/-- A disk that the defaults accept. -/
structure ProperDisk (disk : Json) : Prop where
  isObj : disk.isObj = true
  source : (sourceOf disk).isObj = true
  driver : (driverOf disk).isObj = true
  target : (targetOf disk).isObj = true
  bus : (busOf disk).isSome = true
  named : Explicit disk ∨ (lettersOf disk).isSome = true

/-- A disk whose driver is no object, and whose component has a format to write into it. -/
structure DriverClash (components : Option Json) (disk : Json) : Prop where
  isObj : disk.isObj = true
  source : (sourceOf disk).isObj = true
  format : (formatOf components disk).isSome = true
  driver : (driverOf disk).isObj = false

/-! ## One disk -/

section Disk

variable {components : Option Json} {disk : Json} {next : NextNames}

theorem diskDriver_ok {format driver : Option Json} {result : Json}
    (h : diskDriver format driver = .ok result) :
    (driver.getD (.obj [])).isObj = true ∧ result.isObj = true := by
  have hdefaults : ∀ v : Json, (driverDefaults v).isObj = v.isObj := by
    intro v
    unfold driverDefaults
    dsimp only
    split <;> simp
  unfold diskDriver at h
  cases format with
  | some format =>
    dsimp only at h
    split at h
    · rename_i hobj
      cases h
      exact ⟨hobj, by simp [hdefaults, hobj]⟩
    · exact absurd h panics_ne_ok
  | none =>
    dsimp only at h
    split at h
    · rename_i hobj
      cases h
      refine ⟨?_, by simp [hdefaults, hobj]⟩
      cases driver with
      | none => rfl
      | some driver => exact hobj
    · exact absurd h fails_ne_ok

theorem diskDriver_panics_iff {format driver : Option Json} :
    diskDriver format driver = panics ↔
      format.isSome = true ∧ (driver.getD (.obj [])).isObj = false := by
  unfold diskDriver
  cases format with
  | some format =>
    dsimp only
    split
    · rename_i hobj
      simp [hobj, panics]
    · rename_i hobj
      simpa using hobj
  | none =>
    dsimp only
    split
    · simp [panics]
    · simp [panics, fails]

theorem diskDriver_isOk (format : Option Json) {driver : Option Json}
    (h : (driver.getD (.obj [])).isObj = true) : ∃ result, diskDriver format driver = .ok result := by
  unfold diskDriver
  cases format with
  | some format => exact ⟨_, if_pos h⟩
  | none =>
    refine ⟨_, if_pos ?_⟩
    cases driver with
    | none => rfl
    | some driver => exact h

/-- The name with the letters for a number. -/
def nameOf (letters : String) (n : Nat) : String :=
  letters ++ String.singleton (Char.ofNat (97 + n))

theorem diskName_eq {letters : String} {n : Nat} :
    diskName letters n = if n < 159 then .ok (nameOf letters n) else panics := by
  unfold diskName nameOf
  split_ifs <;> first | rfl | omega

/-- What the target of a disk becomes. -/
theorem diskTarget_eq {target : Json} (h : target.isObj = true) :
    diskTarget next target =
      match ((target.field "bus").getD (.str "virtio")).asStr with
      | none => fails "disk target.bus must be string"
      | some bus =>
        if (target.field "dev").isSome then .ok (next, orInsert target "bus" (.str "virtio"))
        else
          match busLetters bus with
          | none => fails ("unsupported disk bus " ++ bus)
          | some letters =>
            if next.of letters < 159 then
              .ok (next.add letters, (orInsert target "bus" (.str "virtio")).setField "dev"
                (.str (nameOf letters (next.of letters))))
            else panics := by
  obtain ⟨fields, rfl⟩ : ∃ fields, target = .obj fields := by
    cases target with
    | obj fields => exact ⟨fields, rfl⟩
    | _ => cases h
  have hbus : textOf (orInsert (.obj fields) "bus" (.str "virtio")) "bus" =
      (((Json.obj fields).field "bus").getD (.str "virtio")).asStr := by
    unfold textOf
    rw [field_orInsert_self rfl, bind_some]
  have hdev : (orInsert (.obj fields) "bus" (.str "virtio")).field "dev" =
      (Json.obj fields).field "dev" := field_orInsert_ne (by decide)
  unfold diskTarget
  simp only [Json.asObj, orFails, hbus, hdev, bind, Except.bind]
  cases (((Json.obj fields).field "bus").getD (.str "virtio")).asStr with
  | none => rfl
  | some bus =>
    dsimp only
    split
    · rfl
    · cases busLetters bus with
      | none => rfl
      | some letters =>
        dsimp only
        rw [diskName_eq]
        by_cases hfits : next.of letters < 159
        · rw [if_pos hfits, if_pos hfits]
        · rw [if_neg hfits, if_neg hfits]
          rfl

/-- The steps of the defaults of a disk that is an object with a source. -/
theorem defaultDisk_eq (hdisk : disk.isObj = true) (hsource : (sourceOf disk).isObj = true) :
    defaultDisk components next disk =
      (diskDriver (formatOf components disk) (disk.field "driver") >>= fun driver =>
        diskTarget next (targetOf disk) >>= fun r =>
          .ok (r.1, ((disk.setField "source" (orInsert (sourceOf disk) "component"
            (.str (diskComponent (sourceOf disk))))).setField "driver" driver).setField "target"
              r.2)) := by
  obtain ⟨fields, rfl⟩ : ∃ fields, disk = .obj fields := by
    cases disk with
    | obj fields => exact ⟨fields, rfl⟩
    | _ => cases hdisk
  obtain ⟨source, hsource'⟩ := isSome_iff_exists.1 (isSome_asObj.trans hsource)
  have heq := asObj_eq_some.1 hsource'
  unfold defaultDisk formatOf
  unfold sourceOf at hsource' heq ⊢
  rw [heq]
  have hdriver : ((Json.obj fields).setField "source" (orInsert (.obj source) "component"
      (.str (diskComponent (.obj source))))).field "driver" = (Json.obj fields).field "driver" :=
    Json.field_setField_ne _ (by decide) _
  have htarget : ∀ driver : Json, ((((Json.obj fields).setField "source" (orInsert (.obj source)
      "component" (.str (diskComponent (.obj source))))).setField "driver" driver).field
        "target").getD (.obj []) = targetOf (.obj fields) := by
    intro driver
    rw [Json.field_setField_ne _ (by decide), Json.field_setField_ne _ (by decide)]
    rfl
  have hfields : (Json.obj fields).asObj = some fields := rfl
  simp only [hfields, orFails, hsource', bind, Except.bind, hdriver, htarget]

end Disk

/-! ## Names -/

/-- The letters of the name that a disk gets, if it gets one. -/
def ownLetters (disk : Json) : Option String := if Explicit disk then none else lettersOf disk

/-- The names given after a disk. -/
def NextNames.after (next : NextNames) (disk : Json) : NextNames :=
  match ownLetters disk with
  | some letters => next.add letters
  | none => next

/-- There is a byte left for the name of a disk. -/
def Room (next : NextNames) (disk : Json) : Prop :=
  ∀ letters, ownLetters disk = some letters → next.of letters < 159

instance (next : NextNames) (disk : Json) : Decidable (Room next disk) :=
  match h : ownLetters disk with
  | none => .isTrue fun letters hl => by simp [h] at hl
  | some letters => decidable_of_iff (next.of letters < 159) (by simp [Room, h])

/-- The name of a disk after the defaults. -/
def nameAfter (next : NextNames) (disk : Json) : Option String :=
  if Explicit disk then targetName disk
  else (lettersOf disk).map fun letters => nameOf letters (next.of letters)

section Names

variable {components : Option Json} {disk result : Json} {next after : NextNames}

variable {letters : String}

theorem busLetters_eq_some {bus : String} (h : busLetters bus = some letters) :
    letters = "vd" ∨ letters = "sd" := by
  unfold busLetters at h
  split_ifs at h
  · exact Or.inl (Option.some.inj h).symm
  · exact Or.inr (Option.some.inj h).symm

theorem ownLetters_of_explicit (h : Explicit disk) : ownLetters disk = none := if_pos h

theorem ownLetters_of_not_explicit (h : ¬Explicit disk) : ownLetters disk = lettersOf disk :=
  if_neg h

theorem ownLetters_eq_some :
    ownLetters disk = some letters ↔ ¬Explicit disk ∧ lettersOf disk = some letters := by
  unfold ownLetters
  split <;> simp_all

theorem letters_of_own (h : ownLetters disk = some letters) : letters = "vd" ∨ letters = "sd" := by
  obtain ⟨bus, -, hbus⟩ := bind_eq_some_iff.1 (ownLetters_eq_some.1 h).2
  exact busLetters_eq_some hbus

/-- Names with other letters are counted apart. -/
theorem of_after (h : letters = "vd" ∨ letters = "sd") :
    (next.after disk).of letters =
      next.of letters + if ownLetters disk = some letters then 1 else 0 := by
  unfold NextNames.after
  cases hown : ownLetters disk with
  | none => simp
  | some own =>
    rcases letters_of_own hown with rfl | rfl <;> rcases h with rfl | rfl <;>
      simp [NextNames.of, NextNames.add]

theorem targetName_eq (disk : Json) : targetName disk = textOf (targetOf disk) "dev" := by
  unfold targetName targetOf
  cases disk.field "target" <;> rfl

theorem explicit_of_targetName {name : String} (h : targetName disk = some name) :
    Explicit disk := by
  rw [targetName_eq] at h
  obtain ⟨dev, hdev, -⟩ := bind_eq_some_iff.1 h
  exact isSome_iff_exists.2 ⟨dev, hdev⟩

/-- What the target of a disk becomes, by its name. -/
theorem diskTarget_explicit {bus : String} (htarget : (targetOf disk).isObj = true)
    (hbus : busOf disk = some bus) (h : Explicit disk) :
    diskTarget next (targetOf disk) = .ok (next, orInsert (targetOf disk) "bus" (.str "virtio")) := by
  rw [diskTarget_eq htarget]
  unfold busOf at hbus
  simp only [hbus]
  exact if_pos h

theorem diskTarget_given {bus : String} (htarget : (targetOf disk).isObj = true)
    (hbus : busOf disk = some bus) (h : ¬Explicit disk) :
    diskTarget next (targetOf disk) =
      match lettersOf disk with
      | none => fails ("unsupported disk bus " ++ bus)
      | some letters =>
        if next.of letters < 159 then
          .ok (next.add letters, (orInsert (targetOf disk) "bus" (.str "virtio")).setField "dev"
            (.str (nameOf letters (next.of letters))))
        else panics := by
  rw [diskTarget_eq htarget]
  have hletters : lettersOf disk = busLetters bus := by
    unfold lettersOf
    rw [hbus, bind_some]
  rw [hletters]
  unfold busOf at hbus
  simp only [hbus]
  exact if_neg h

theorem diskTarget_bus {r : NextNames × Json} (htarget : (targetOf disk).isObj = true)
    (h : diskTarget next (targetOf disk) = .ok r) : ∃ bus, busOf disk = some bus := by
  rw [diskTarget_eq htarget] at h
  unfold busOf
  cases hbus : (((targetOf disk).field "bus").getD (.str "virtio")).asStr with
  | none => simp [hbus] at h
  | some bus => exact ⟨bus, rfl⟩

theorem diskTarget_ok {r : NextNames × Json} (htarget : (targetOf disk).isObj = true)
    (h : diskTarget next (targetOf disk) = .ok r) :
    (Explicit disk ∨ (lettersOf disk).isSome = true) ∧ r.1 = next.after disk ∧
      r.2.isObj = true ∧ textOf r.2 "dev" = nameAfter next disk := by
  obtain ⟨bus, hbus⟩ := diskTarget_bus htarget h
  by_cases hexplicit : Explicit disk
  · rw [diskTarget_explicit htarget hbus hexplicit] at h
    obtain rfl := Except.ok.inj h
    refine ⟨Or.inl hexplicit, ?_, ?_, ?_⟩
    · simp only [NextNames.after, ownLetters_of_explicit hexplicit]
    · exact isObj_orInsert.trans htarget
    · rw [nameAfter, if_pos hexplicit, targetName_eq]
      exact congrArg (Option.bind · Json.asStr) (field_orInsert_ne (by decide))
  · rw [diskTarget_given htarget hbus hexplicit] at h
    cases hletters : lettersOf disk with
    | none => simp [hletters] at h
    | some letters =>
      rw [hletters] at h
      dsimp only at h
      by_cases hroom : next.of letters < 159
      · rw [if_pos hroom] at h
        obtain rfl := Except.ok.inj h
        have hobj : (orInsert (targetOf disk) "bus" (.str "virtio")).isObj = true :=
          isObj_orInsert.trans htarget
        refine ⟨Or.inr rfl, ?_, ?_, ?_⟩
        · simp only [NextNames.after, ownLetters_of_not_explicit hexplicit, hletters]
        · exact (Json.isObj_setField _ _ _).trans hobj
        · rw [nameAfter, if_neg hexplicit, hletters]
          simp [textOf, Json.field_setField_self hobj, Json.asStr]
      · rw [if_neg hroom] at h
        exact absurd h panics_ne_ok

theorem diskTarget_panics_iff (htarget : (targetOf disk).isObj = true) :
    diskTarget next (targetOf disk) = panics ↔ ¬Room next disk := by
  cases hbus : busOf disk with
  | none =>
    have hfails : diskTarget next (targetOf disk) = fails "disk target.bus must be string" := by
      rw [diskTarget_eq htarget]
      unfold busOf at hbus
      simp only [hbus]
    have hroom : Room next disk := by
      intro letters hletters
      have h := (ownLetters_eq_some.1 hletters).2
      unfold lettersOf at h
      rw [hbus] at h
      cases h
    rw [hfails]
    exact iff_of_false (calm_fails _) (not_not_intro hroom)
  | some bus =>
    by_cases hexplicit : Explicit disk
    · rw [diskTarget_explicit htarget hbus hexplicit]
      refine iff_of_false (calm_ok _) (not_not_intro ?_)
      intro letters hletters
      exact absurd hexplicit (ownLetters_eq_some.1 hletters).1
    · rw [diskTarget_given htarget hbus hexplicit]
      unfold Room
      rw [ownLetters_of_not_explicit hexplicit]
      cases lettersOf disk with
      | none => simp [panics, fails]
      | some letters => by_cases hroom : next.of letters < 159 <;> simp [hroom, panics]

theorem diskTarget_isOk (htarget : (targetOf disk).isObj = true) (hbus : (busOf disk).isSome = true)
    (hnamed : Explicit disk ∨ (lettersOf disk).isSome = true) (hroom : Room next disk) :
    ∃ r, diskTarget next (targetOf disk) = .ok r := by
  obtain ⟨bus, hbus⟩ := isSome_iff_exists.1 hbus
  by_cases hexplicit : Explicit disk
  · exact ⟨_, diskTarget_explicit htarget hbus hexplicit⟩
  · obtain ⟨letters, hletters⟩ := isSome_iff_exists.1 (hnamed.resolve_left hexplicit)
    have hfits := hroom letters (ownLetters_eq_some.2 ⟨hexplicit, hletters⟩)
    rw [diskTarget_given htarget hbus hexplicit, hletters]
    exact ⟨_, if_pos hfits⟩

theorem diskTarget_notObj (htarget : (targetOf disk).isObj = false) :
    diskTarget next (targetOf disk) = fails "disk target must be object" := by
  unfold diskTarget
  rw [asObj_eq_none.2 htarget]
  rfl

theorem defaultDisk_notObj (hdisk : disk.isObj = false) :
    defaultDisk components next disk = fails "disk entries must be objects" := by
  unfold defaultDisk
  rw [asObj_eq_none.2 hdisk]
  rfl

theorem defaultDisk_source_notObj (hdisk : disk.isObj = true)
    (hsource : (sourceOf disk).isObj = false) :
    defaultDisk components next disk = fails "disk source must be object" := by
  obtain ⟨fields, rfl⟩ : ∃ fields, disk = .obj fields := by
    cases disk with
    | obj fields => exact ⟨fields, rfl⟩
    | _ => cases hdisk
  have hnone := asObj_eq_none.2 hsource
  unfold sourceOf at hnone
  unfold defaultDisk
  have hfields : (Json.obj fields).asObj = some fields := rfl
  simp only [hfields, orFails, hnone, bind, Except.bind]
  rfl

/-- What a disk becomes. -/
theorem defaultDisk_ok (h : defaultDisk components next disk = .ok (after, result)) :
    ProperDisk disk ∧ after = next.after disk ∧ targetName result = nameAfter next disk := by
  have hdisk : disk.isObj = true := by
    by_contra hdisk
    rw [defaultDisk_notObj (Bool.not_eq_true _ ▸ hdisk)] at h
    exact fails_ne_ok h
  have hsource : (sourceOf disk).isObj = true := by
    by_contra hsource
    rw [defaultDisk_source_notObj hdisk (Bool.not_eq_true _ ▸ hsource)] at h
    exact fails_ne_ok h
  rw [defaultDisk_eq hdisk hsource] at h
  obtain ⟨driver, hdriver, h⟩ := bind_ok_iff.1 h
  obtain ⟨r, hr, h⟩ := bind_ok_iff.1 h
  have htarget : (targetOf disk).isObj = true := by
    by_contra htarget
    rw [diskTarget_notObj (Bool.not_eq_true _ ▸ htarget)] at hr
    exact fails_ne_ok hr
  obtain ⟨bus, hbus⟩ := diskTarget_bus htarget hr
  obtain ⟨hnamed, hafter, -, hname⟩ := diskTarget_ok htarget hr
  obtain ⟨rfl, rfl⟩ := Prod.mk.inj (Except.ok.inj h)
  refine ⟨⟨hdisk, hsource, (diskDriver_ok hdriver).1, htarget, by rw [hbus]; rfl, hnamed⟩, hafter, ?_⟩
  unfold targetName
  rw [Json.field_setField_self (by simpa using hdisk), bind_some, hname]

theorem defaultDisk_isOk (components : Option Json) (h : ProperDisk disk) (hroom : Room next disk) :
    ∃ result, defaultDisk components next disk = .ok (next.after disk, result) := by
  obtain ⟨driver, hdriver⟩ := diskDriver_isOk (formatOf components disk) h.driver
  obtain ⟨r, hr⟩ := diskTarget_isOk h.target h.bus h.named hroom
  refine ⟨((disk.setField "source" (orInsert (sourceOf disk) "component"
    (.str (diskComponent (sourceOf disk))))).setField "driver" driver).setField "target" r.2, ?_⟩
  rw [defaultDisk_eq h.isObj h.source, hdriver, ← (diskTarget_ok h.target hr).2.1]
  simp only [bind, Except.bind, hr]

/-- The defaults of a disk panic on a driver that is no object, and where there is no byte left
for its name. -/
theorem defaultDisk_panics_iff :
    defaultDisk components next disk = panics ↔
      DriverClash components disk ∨ ProperDisk disk ∧ ¬Room next disk := by
  by_cases hdisk : disk.isObj = true
  swap
  · rw [defaultDisk_notObj (Bool.not_eq_true _ ▸ hdisk)]
    refine iff_of_false (calm_fails _) ?_
    rintro (h | h)
    · exact hdisk h.isObj
    · exact hdisk h.1.isObj
  by_cases hsource : (sourceOf disk).isObj = true
  swap
  · rw [defaultDisk_source_notObj hdisk (Bool.not_eq_true _ ▸ hsource)]
    refine iff_of_false (calm_fails _) ?_
    rintro (h | h)
    · exact hsource h.source
    · exact hsource h.1.source
  rw [defaultDisk_eq hdisk hsource, bind_panics_iff]
  refine or_congr ?_ ?_
  · rw [diskDriver_panics_iff]
    exact ⟨fun h => ⟨hdisk, hsource, h.1, h.2⟩, fun h => ⟨h.format, h.driver⟩⟩
  · by_cases htarget : (targetOf disk).isObj = true
    swap
    · rw [diskTarget_notObj (Bool.not_eq_true _ ▸ htarget)]
      refine iff_of_false ?_ fun h => htarget h.1.target
      rintro ⟨driver, -, h⟩
      cases h
    constructor
    · rintro ⟨driver, hdriver, h⟩
      rcases bind_panics_iff.1 h with h | ⟨r, -, h⟩
      · have hroom := (diskTarget_panics_iff htarget).1 h
        obtain ⟨letters, hletters, -⟩ := not_forall₂.1 hroom
        obtain ⟨-, hletters⟩ := ownLetters_eq_some.1 hletters
        obtain ⟨bus, hbus, -⟩ := bind_eq_some_iff.1 hletters
        exact ⟨⟨hdisk, hsource, (diskDriver_ok hdriver).1, htarget, by rw [hbus]; rfl,
          Or.inr (by rw [hletters]; rfl)⟩, hroom⟩
      · exact absurd h (calm_ok _)
    · rintro ⟨h, hroom⟩
      obtain ⟨driver, hdriver⟩ := diskDriver_isOk (formatOf components disk) h.driver
      exact ⟨driver, hdriver,
        bind_panics_iff.2 (Or.inl ((diskTarget_panics_iff htarget).2 hroom))⟩

end Names

/-! ## The list of disks -/

/-- How many disks get a name with the letters. -/
def unnamed (letters : String) (disks : List Json) : Nat :=
  disks.countP fun disk => ownLetters disk = some letters

/-- The names that the disks without one get. -/
def givenNames (next : NextNames) : List Json → List String
  | [] => []
  | disk :: rest =>
    ((ownLetters disk).map fun letters => nameOf letters (next.of letters)).toList ++
      givenNames (next.after disk) rest

/-- The names of the disks after the defaults. -/
def namesAfter (next : NextNames) : List Json → List (Option String)
  | [] => []
  | disk :: rest => nameAfter next disk :: namesAfter (next.after disk) rest

section Lists

variable {components : Option Json} {disks results : List Json} {next : NextNames}

@[simp] theorem unnamed_nil (letters : String) : unnamed letters [] = 0 := rfl

theorem unnamed_cons (letters : String) (disk : Json) (rest : List Json) :
    unnamed letters (disk :: rest) =
      unnamed letters rest + if ownLetters disk = some letters then 1 else 0 := by
  unfold unnamed
  rw [countP_cons]
  simp

theorem of_after_add {letters : String} (h : letters = "vd" ∨ letters = "sd") (disk : Json)
    (rest : List Json) :
    (next.after disk).of letters + unnamed letters rest =
      next.of letters + unnamed letters (disk :: rest) := by
  rw [of_after h, unnamed_cons]
  omega

/-- What accepted disks become. -/
theorem defaultDiskList_ok (h : defaultDiskList components next disks = .ok results) :
    (∀ disk ∈ disks, ProperDisk disk) ∧ results.map targetName = namesAfter next disks := by
  induction disks generalizing next results with
  | nil =>
    obtain rfl := Except.ok.inj h
    exact ⟨nofun, rfl⟩
  | cons disk rest ih =>
    obtain ⟨⟨after, result⟩, hdisk, h⟩ := bind_ok_iff.1 h
    obtain ⟨results, hrest, h⟩ := bind_ok_iff.1 h
    obtain rfl := Except.ok.inj h
    obtain ⟨hproper, rfl, hname⟩ := defaultDisk_ok hdisk
    obtain ⟨hall, hnames⟩ := ih hrest
    refine ⟨forall_mem_cons.2 ⟨hproper, hall⟩, ?_⟩
    rw [map_cons, hname, hnames]
    rfl

/-- A list of disks with a panic in it: after accepted disks comes one whose driver clashes, or
one more than there are bytes for names. -/
def DisksPanic (components : Option Json) (next : NextNames) (disks : List Json) : Prop :=
  ∃ front disk back, disks = front ++ disk :: back ∧ (∀ d ∈ front, ProperDisk d) ∧
    (DriverClash components disk ∨
      ProperDisk disk ∧ ∃ letters, ownLetters disk = some letters ∧
        159 ≤ next.of letters + unnamed letters front)

/-- The loop panics on such a list, and on no other. -/
theorem defaultDiskList_panics_iff :
    defaultDiskList components next disks = panics ↔ DisksPanic components next disks := by
  constructor
  · intro h
    induction disks generalizing next with
    | nil => exact absurd h (calm_ok _)
    | cons disk rest ih =>
      rcases bind_panics_iff.1 h with h | ⟨⟨after, result⟩, hdisk, h⟩
      · refine ⟨[], disk, rest, rfl, nofun, (defaultDisk_panics_iff.1 h).imp_right ?_⟩
        rintro ⟨hproper, hroom⟩
        obtain ⟨letters, hletters, hle⟩ := not_forall₂.1 hroom
        exact ⟨hproper, letters, hletters, by simpa using hle⟩
      · obtain ⟨hproper, rfl, -⟩ := defaultDisk_ok hdisk
        rcases bind_panics_iff.1 h with h | ⟨results, -, h⟩
        · obtain ⟨front, d, back, rfl, hfront, hcause⟩ := ih h
          refine ⟨disk :: front, d, back, rfl, forall_mem_cons.2 ⟨hproper, hfront⟩,
            hcause.imp_right ?_⟩
          rintro ⟨hd, letters, hletters, hle⟩
          exact ⟨hd, letters, hletters, of_after_add (letters_of_own hletters) disk front ▸ hle⟩
        · exact absurd h (calm_ok _)
  · rintro ⟨front, disk, back, rfl, hfront, hcause⟩
    induction front generalizing next with
    | nil =>
      refine bind_panics_iff.2 (Or.inl (defaultDisk_panics_iff.2 (hcause.imp_right ?_)))
      rintro ⟨hproper, letters, hletters, hle⟩
      refine ⟨hproper, fun hroom => ?_⟩
      have := hroom letters hletters
      simp only [unnamed_nil, Nat.add_zero] at hle
      omega
    | cons first front ih =>
      have hproper := hfront first mem_cons_self
      by_cases hroom : Room next first
      · obtain ⟨result, hfirst⟩ := defaultDisk_isOk components hproper hroom
        refine bind_panics_iff.2 (Or.inr ⟨_, hfirst, bind_panics_iff.2 (Or.inl ?_)⟩)
        refine ih (fun d hd => hfront d (mem_cons_of_mem first hd)) (hcause.imp_right ?_)
        rintro ⟨hd, letters, hletters, hle⟩
        exact ⟨hd, letters, hletters, (of_after_add (letters_of_own hletters) first front).symm ▸ hle⟩
      · exact bind_panics_iff.2 (Or.inl (defaultDisk_panics_iff.2 (Or.inr ⟨hproper, hroom⟩)))

/-- Accepted disks get their defaults, or there is a panic. -/
theorem defaultDiskList_of_proper (h : ∀ disk ∈ disks, ProperDisk disk)
    (hcalm : ¬DisksPanic components next disks) :
    ∃ results, defaultDiskList components next disks = .ok results := by
  rw [← defaultDiskList_panics_iff] at hcalm
  induction disks generalizing next with
  | nil => exact ⟨[], rfl⟩
  | cons disk rest ih =>
    have hroom : Room next disk := by
      by_contra hroom
      exact hcalm (bind_panics_iff.2 (Or.inl (defaultDisk_panics_iff.2
        (Or.inr ⟨h disk mem_cons_self, hroom⟩))))
    obtain ⟨result, hdisk⟩ := defaultDisk_isOk components
      (h disk mem_cons_self) hroom
    obtain ⟨results, hrest⟩ := @ih (next.after disk)
      (fun d hd => h d (mem_cons_of_mem disk hd))
      fun hpanics => hcalm (bind_panics_iff.2
        (Or.inr ⟨_, hdisk, bind_panics_iff.2 (Or.inl hpanics)⟩))
    exact ⟨result :: results, bind_ok_iff.2 ⟨_, hdisk, bind_ok_iff.2 ⟨results, hrest, rfl⟩⟩⟩

/-- The names that are given: for each of the letters, the numbers from the next one on. -/
theorem mem_givenNames {name : String} :
    name ∈ givenNames next disks ↔ ∃ letters n, (letters = "vd" ∨ letters = "sd") ∧
      next.of letters ≤ n ∧ n < next.of letters + unnamed letters disks ∧
        name = nameOf letters n := by
  induction disks generalizing next with
  | nil =>
    refine iff_of_false not_mem_nil ?_
    rintro ⟨letters, n, -, hle, hlt, -⟩
    simp only [unnamed_nil] at hlt
    omega
  | cons disk rest ih =>
    rw [givenNames, mem_append, ih]
    constructor
    · rintro (h | ⟨letters, n, hletters, hle, hlt, rfl⟩)
      · obtain ⟨letters, hletters, rfl⟩ :=
          map_eq_some_iff.1 (mem_toList.1 h)
        refine ⟨letters, next.of letters, letters_of_own hletters, le_rfl, ?_, rfl⟩
        rw [unnamed_cons, if_pos hletters]
        omega
      · refine ⟨letters, n, hletters, ?_, of_after_add hletters disk rest ▸ hlt, rfl⟩
        rw [of_after hletters] at hle
        omega
    · rintro ⟨letters, n, hletters, hle, hlt, rfl⟩
      by_cases hown : ownLetters disk = some letters ∧ n = next.of letters
      · obtain ⟨hown, rfl⟩ := hown
        exact Or.inl (mem_toList.2 (map_eq_some_iff.2 ⟨letters, hown, rfl⟩))
      · refine Or.inr ⟨letters, n, hletters, ?_, (of_after_add hletters disk rest).symm ▸ hlt, rfl⟩
        rw [of_after hletters]
        split_ifs with h
        · have : n ≠ next.of letters := fun heq => hown ⟨h, heq⟩
          omega
        · exact hle

/-- The targets of the disks after the defaults: the given names, and those that were there. -/
theorem namesAfter_perm :
    ((namesAfter next disks).filterMap id).Perm
      (disks.filterMap targetName ++ givenNames next disks) := by
  induction disks generalizing next with
  | nil => rfl
  | cons disk rest ih =>
    rw [namesAfter, givenNames]
    by_cases hexplicit : Explicit disk
    · rw [ownLetters_of_explicit hexplicit, nameAfter, if_pos hexplicit]
      cases hname : targetName disk with
      | none => simpa [hname] using ih
      | some name => simpa [hname] using ih
    · have hname : targetName disk = none := by
        by_contra hname
        obtain ⟨name, hname⟩ := ne_none_iff_exists'.1 hname
        exact hexplicit (explicit_of_targetName hname)
      rw [ownLetters_of_not_explicit hexplicit, nameAfter, if_neg hexplicit,
        filterMap_cons_none hname]
      cases lettersOf disk with
      | none => simpa using ih
      | some letters =>
        rw [map_some, filterMap_cons_some (f := id) rfl]
        exact (ih.cons _).trans perm_middle.symm

end Lists

end MachineEmu.Resolution
