import MachineEmu.Api.Render
import MachineEmu.Engine.Sections

/-!
# The size of the memory

An amount of memory is a number of bytes in a document, or a text. It becomes a text for the
planner, which checks it and gives it to QEMU; there a number without a suffix is in mebibytes.

1. A text of digits and a known suffix is passed on with its value: `denotes_of_sizeText`.
2. The planner takes the digits of a text wherever they stand. It accepts exactly digits followed by
   a suffix for the texts in `memoryExact_iff`.
3. A number of bytes keeps its value exactly when it is a multiple of 1024: `denotes_memorySize`.
4. What a rendered plan says: `rendered_memory`.
-/

namespace MachineEmu.Planner

open Lib List Option

/-! ## Reading sizes -/

/-- The bytes of a unit, as QEMU reads the suffix of `-m`. -/
def qemuUnit : String → Option Nat
  | "" | "M" => some (2 ^ 20)
  | "B" => some 1
  | "K" => some (2 ^ 10)
  | "G" => some (2 ^ 30)
  | "T" => some (2 ^ 40)
  | _ => none

/-- The bytes that QEMU reads from the value of `-m`. -/
def qemuBytes (value : String) : Option Nat :=
  (qemuUnit (String.ofList (value.toList.dropWhile Char.isDigit))).map fun unit =>
    Nat.ofDigitChars 10 (value.toList.takeWhile Char.isDigit) 0 * unit

/-- The bytes of a unit in a document: as in QEMU, also with the long names. -/
def sizeUnit : String → Option Nat
  | "" | "M" | "MiB" => some (2 ^ 20)
  | "B" => some 1
  | "K" | "KiB" => some (2 ^ 10)
  | "G" | "GiB" => some (2 ^ 30)
  | "T" => some (2 ^ 40)
  | _ => none

/-- A size in a document: digits, then at most one suffix. -/
def SizeText (raw : String) (bytes : Nat) : Prop :=
  ∃ (digits : List Char) (suffix : String) (unit : Nat),
    raw.toList = digits ++ suffix.toList ∧ digits ≠ [] ∧ (∀ c ∈ digits, c.isDigit = true) ∧
      sizeUnit suffix = some unit ∧ bytes = Nat.ofDigitChars 10 digits 0 * unit

/-! ## What the planner reads -/

/-- A text has digits, and its other characters are a suffix. -/
structure Known (raw : String) : Prop where
  digits : digitsOf raw ≠ []
  suffix : (memorySuffix (String.ofList (restOf raw))).isSome = true

/-- The number of a text is positive and fits in 64 bits. -/
def InRange (raw : String) : Prop :=
  0 < Nat.ofDigitChars 10 (digitsOf raw) 0 ∧ Nat.ofDigitChars 10 (digitsOf raw) 0 < 2 ^ 64

/-- The digits of a text come first, and nothing stands around the text. -/
def InOrder (raw : String) : Prop := raw.toList = digitsOf raw ++ restOf raw

theorem parseUnsigned_digits {digits : List Char} (hne : digits ≠ [])
    (hdigits : ∀ c ∈ digits, c.isDigit = true) :
    (parseUnsigned (2 ^ 64) digits).getD 0 =
      if Nat.ofDigitChars 10 digits 0 < 2 ^ 64 then Nat.ofDigitChars 10 digits 0 else 0 := by
  have hplus : digits.head? ≠ some '+' := by
    intro h
    have hdigit := hdigits '+' (mem_of_head? h)
    revert hdigit
    decide
  have hall : digits.all Char.isDigit = true := all_eq_true.2 hdigits
  unfold parseUnsigned
  rw [if_neg hplus, if_neg (by simp [hne, hall])]
  dsimp only
  split <;> rfl

variable {raw : String}

theorem isDigit_of_mem_digitsOf {c : Char} (h : c ∈ digitsOf raw) :
    c.isDigit = true := (mem_filter.1 h).2

variable {out : String}

/-- What the planner accepts, and the text it passes on. -/
theorem memoryText_eq_ok : memoryText raw = .ok out ↔
    Known raw ∧ InRange raw ∧ ∃ suffix, memorySuffix (String.ofList (restOf raw)) = some suffix ∧
      out = String.ofList (digitsOf raw) ++ suffix := by
  unfold memoryText
  by_cases hne : digitsOf raw = []
  · rw [if_pos (.inl hne)]
    simp only [invalid_ne_ok, false_iff, not_and]
    intro hknown
    exact absurd hne hknown.digits
  · rw [parseUnsigned_digits hne fun c hc => isDigit_of_mem_digitsOf hc]
    by_cases hrange : InRange raw
    · rw [if_pos hrange.2, if_neg (not_or.2 ⟨hne, Nat.pos_iff_ne_zero.1 hrange.1⟩)]
      cases hsuffix : memorySuffix (String.ofList (restOf raw)) with
      | none => simp
      | some suffix =>
        have hknown : Known raw := ⟨hne, by rw [hsuffix]; rfl⟩
        simp [hknown, hrange, eq_comm]
    · have hzero : (if Nat.ofDigitChars 10 (digitsOf raw) 0 < 2 ^ 64 then
          Nat.ofDigitChars 10 (digitsOf raw) 0 else 0) = 0 := by
        unfold InRange at hrange
        split
        · omega
        · rfl
      rw [if_pos (.inr hzero)]
      simp [hrange]

theorem memorySuffix_eq_some {suffix : String} (h : memorySuffix suffix = some out) :
    sizeUnit suffix = qemuUnit out ∧ out ∈ ["M", "K", "G", "T", "B"] := by
  unfold memorySuffix at h
  split at h <;> cases h <;> decide

/-- A suffix that has a unit is known, and its characters are no digits and no white space. -/
theorem suffix_of_sizeUnit {suffix : String} {unit : Nat} (h : sizeUnit suffix = some unit) :
    (memorySuffix suffix).isSome = true ∧
      ∀ c ∈ suffix.toList, c.isDigit = false ∧ isWhite c = false := by
  unfold sizeUnit at h
  split at h <;> cases h <;> exact ⟨by decide, by simp [isWhite]⟩

/-- The value of digits before a suffix. -/
theorem qemuBytes_append {digits : List Char} {suffix : String} {unit : Nat}
    (hdigits : ∀ c ∈ digits, c.isDigit = true) (hsuffix : suffix ∈ ["M", "K", "G", "T", "B"])
    (hunit : qemuUnit suffix = some unit) :
    qemuBytes (String.ofList digits ++ suffix) = some (Nat.ofDigitChars 10 digits 0 * unit) := by
  have hall : ∀ suffix ∈ ["M", "K", "G", "T", "B"],
      suffix.toList.takeWhile Char.isDigit = [] ∧
        suffix.toList.dropWhile Char.isDigit = suffix.toList := by decide
  have hnone := hall suffix hsuffix
  unfold qemuBytes
  rw [String.toList_append, String.toList_ofList, takeWhile_append_of_pos hdigits,
    dropWhile_append_of_pos hdigits, hnone.1, hnone.2, append_nil, String.ofList_toList,
    hunit]
  rfl

/-! ## Texts that keep their value -/

theorem isWhite_eq_false {c : Char} (h : c.isDigit = true) : isWhite c = false := by
  have hbounds : 48 ≤ c.toNat ∧ c.toNat ≤ 57 := by
    rw [Char.isDigit, Bool.and_eq_true, decide_eq_true_eq, decide_eq_true_eq] at h
    exact h
  unfold isWhite
  simp only [mem_cons, not_mem_nil, or_false, Bool.or_eq_false_iff, Bool.and_eq_false_iff,
    decide_eq_false_iff_not]
  omega

theorem trimChars_eq_self {l : List Char} (h : ∀ c ∈ l, isWhite c = false) : trimChars l = l := by
  have hdrop : ∀ m : List Char, (∀ c ∈ m, isWhite c = false) → m.dropWhile isWhite = m := by
    intro m hm
    cases m with
    | nil => rfl
    | cons c m => simp [hm c mem_cons_self]
  unfold trimChars
  rw [hdrop l h, hdrop l.reverse fun c hc => h c (mem_reverse.1 hc), reverse_reverse]

variable {bytes : Nat}

/-- A size is a known text in its order. -/
theorem sizeText_iff : SizeText raw bytes ↔
    Known raw ∧ InOrder raw ∧ ∃ unit, sizeUnit (String.ofList (restOf raw)) = some unit ∧
      bytes = Nat.ofDigitChars 10 (digitsOf raw) 0 * unit := by
  constructor
  · rintro ⟨digits, suffix, unit, hraw, hne, hdigits, hunit, rfl⟩
    obtain ⟨hknown, hsuffix⟩ := suffix_of_sizeUnit hunit
    have htrim : (trim raw).toList = digits ++ suffix.toList := by
      unfold trim
      rw [String.toList_ofList, hraw]
      refine trimChars_eq_self fun c hc => ?_
      rcases mem_append.1 hc with hc | hc
      · exact isWhite_eq_false (hdigits c hc)
      · exact (hsuffix c hc).2
    have hdigitsOf : digitsOf raw = digits := by
      unfold digitsOf
      rw [htrim, filter_append, filter_eq_self.2 hdigits, filter_eq_nil_iff.2, append_nil]
      exact fun c hc => by simp [(hsuffix c hc).1]
    have hrestOf : restOf raw = suffix.toList := by
      unfold restOf
      rw [htrim, filter_append, filter_eq_nil_iff.2, filter_eq_self.2, nil_append]
      · exact fun c hc => by simp [(hsuffix c hc).1]
      · exact fun c hc => by simp [hdigits c hc]
    refine ⟨⟨hdigitsOf ▸ hne, ?_⟩, ?_, unit, ?_, by rw [hdigitsOf]⟩
    · rw [hrestOf, String.ofList_toList]
      exact hknown
    · unfold InOrder
      rw [hdigitsOf, hrestOf, hraw]
    · rw [hrestOf, String.ofList_toList]
      exact hunit
  · rintro ⟨hknown, horder, unit, hunit, rfl⟩
    refine ⟨digitsOf raw, String.ofList (restOf raw), unit, ?_, hknown.digits,
      fun c hc => isDigit_of_mem_digitsOf hc, hunit, rfl⟩
    rw [String.toList_ofList]
    exact horder

/-- A size keeps its value: what the planner passes on denotes it. -/
theorem denotes_of_sizeText (hsize : SizeText raw bytes)
    (h : memoryText raw = .ok out) : qemuBytes out = some bytes := by
  obtain ⟨-, -, unit, hunit, rfl⟩ := sizeText_iff.1 hsize
  obtain ⟨-, -, suffix, hsuffix, rfl⟩ := memoryText_eq_ok.1 h
  obtain ⟨hunits, hmem⟩ := memorySuffix_eq_some hsuffix
  exact qemuBytes_append (fun c hc => isDigit_of_mem_digitsOf hc) hmem (hunits ▸ hunit)

/-- The planner reads a text as it is: it accepts exactly the sizes, and what it passes on denotes
the size. -/
structure MemoryExact (raw : String) : Prop where
  accepts : (∃ out, memoryText raw = .ok out) ↔ ∃ bytes, SizeText raw bytes
  value : ∀ out, memoryText raw = .ok out → ∃ bytes, SizeText raw bytes ∧ qemuBytes out = some bytes

/-- A text is read as it is unless its digits and its other characters are a number and a suffix,
and they are out of order, or something stands around them, though the number is in range, or they
are in order and the number is not. -/
theorem memoryExact_iff : MemoryExact raw ↔ (Known raw → (InRange raw ↔ InOrder raw)) := by
  have haccepts : (∃ out, memoryText raw = .ok out) ↔ Known raw ∧ InRange raw := by
    constructor
    · rintro ⟨out, h⟩
      obtain ⟨hknown, hrange, -⟩ := memoryText_eq_ok.1 h
      exact ⟨hknown, hrange⟩
    · rintro ⟨hknown, hrange⟩
      obtain ⟨suffix, hsuffix⟩ := isSome_iff_exists.1 hknown.suffix
      exact ⟨_, memoryText_eq_ok.2 ⟨hknown, hrange, suffix, hsuffix, rfl⟩⟩
  have hsizes : (∃ bytes, SizeText raw bytes) ↔ Known raw ∧ InOrder raw := by
    constructor
    · rintro ⟨bytes, h⟩
      obtain ⟨hknown, horder, -⟩ := sizeText_iff.1 h
      exact ⟨hknown, horder⟩
    · rintro ⟨hknown, horder⟩
      obtain ⟨suffix, hsuffix⟩ := isSome_iff_exists.1 hknown.suffix
      obtain ⟨hunit, hmem⟩ := memorySuffix_eq_some hsuffix
      have hall : ∀ suffix ∈ ["M", "K", "G", "T", "B"], (qemuUnit suffix).isSome = true := by decide
      obtain ⟨unit, hunit'⟩ := isSome_iff_exists.1 (hall suffix hmem)
      exact ⟨_, sizeText_iff.2 ⟨hknown, horder, unit, hunit.trans hunit', rfl⟩⟩
  constructor
  · intro h hknown
    have hiff := haccepts.symm.trans (h.accepts.trans hsizes)
    constructor
    · exact fun hrange => (hiff.1 ⟨hknown, hrange⟩).2
    · exact fun horder => (hiff.2 ⟨hknown, horder⟩).2
  · intro h
    have hiff : (∃ out, memoryText raw = .ok out) ↔ ∃ bytes, SizeText raw bytes := by
      rw [haccepts, hsizes]
      exact and_congr_right h
    refine ⟨hiff, fun out hout => ?_⟩
    obtain ⟨bytes, hsize⟩ := hiff.1 ⟨out, hout⟩
    exact ⟨bytes, hsize, denotes_of_sizeText hsize hout⟩

/-! ## Numbers of bytes -/

theorem sizeText_toString (n : Nat) {unit : Nat} (suffix : String)
    (h : sizeUnit suffix = some unit) :
    SizeText (toString n ++ suffix) (n * unit) := by
  refine ⟨(toString n).toList, suffix, unit, String.toList_append, toList_toString_ne_nil n,
    fun c hc => isDigit_of_mem_toString hc, h, ?_⟩
  rw [ofDigitChars_toString]

theorem memoryUnits_spec {unit : String × Nat} (h : unit ∈ memoryUnits) :
    sizeUnit unit.1 = some unit.2 ∧ 1024 ∣ unit.2 := by
  revert unit
  decide

/-- The text of a number of bytes denotes it exactly when the number is a multiple of 1024; the
other numbers get no suffix, and are read as mebibytes. -/
theorem denotes_memorySize {amount : String} (h : memorySize bytes = .ok amount)
    (hout : memoryText amount = .ok out) : qemuBytes out = some bytes ↔ bytes % 1024 = 0 := by
  unfold memorySize at h
  cases hfind : memoryUnits.find? fun unit => unit.2 ≤ bytes ∧ bytes % unit.2 = 0 with
  | some found =>
    obtain ⟨unit, size⟩ := found
    rw [hfind] at h
    cases h
    obtain ⟨hunit, hsize⟩ := memoryUnits_spec (mem_of_find?_eq_some hfind)
    have hdivides := List.find?_some hfind
    simp only [decide_eq_true_eq] at hdivides
    have hbytes : bytes / size * size = bytes := Nat.div_mul_cancel (Nat.dvd_of_mod_eq_zero hdivides.2)
    have hdenotes := denotes_of_sizeText (sizeText_toString (bytes / size) unit hunit) hout
    rw [hbytes] at hdenotes
    have hmod : bytes % 1024 = 0 :=
      Nat.mod_eq_zero_of_dvd (Nat.dvd_trans hsize (Nat.dvd_of_mod_eq_zero hdivides.2))
    exact ⟨fun _ => hmod, fun _ => hdenotes⟩
  | none =>
    rw [hfind] at h
    dsimp only at h
    split at h
    · rename_i hpos
      cases h
      have hsize : SizeText (toString bytes) (bytes * 2 ^ 20) := by
        have htext := sizeText_toString bytes "" rfl
        rwa [String.append_empty] at htext
      rw [denotes_of_sizeText hsize hout]
      have hunit := List.find?_eq_none.1 hfind ("K", 2 ^ 10) (by decide)
      simp only [decide_eq_true_eq, not_and] at hunit
      constructor
      · intro heq
        have := Option.some.inj heq
        omega
      · intro hmod
        have : 2 ^ 10 ≤ bytes := by omega
        exact absurd hmod (hunit this)
    · cases h

/-! ## Rendered plans -/

/-- The memory of a document. -/
def memoryOf (document : Json) : Option Json :=
  (document.field "resources").bind fun resources => resources.field "memory"

section Rendering

variable {profile profile' : Json} {name : String}

theorem field_copyField_ne (target source : Json) {as other : String} (h : other ≠ as) :
    (copyField target source name as).field other = target.field other := by
  unfold copyField
  split
  · exact Json.field_setField_ne _ h _
  · rfl

theorem isObj_copyField (target source : Json) (name as : String) :
    (copyField target source name as).isObj = target.isObj := by
  unfold copyField
  split
  · exact Json.isObj_setField _ _ _
  · rfl

theorem field_withDefault_ne (v : Json) {other : String} (h : other ≠ name) (value : Json) :
    (withDefault v name value).field other = v.field other := by
  unfold withDefault
  split
  · rfl
  · exact Json.field_setField_ne _ h _

theorem memoryOf_congr (h : profile'.field "resources" = profile.field "resources") :
    memoryOf profile' = memoryOf profile := by
  unfold memoryOf
  rw [h]

theorem memoryOf_normalizeMachine (hobj : profile.isObj = true)
    (h : normalizeMachine profile = .ok profile') :
    profile'.isObj = true ∧ memoryOf profile' = memoryOf profile := by
  unfold normalizeMachine at h
  split at h
  · rename_i fields _
    simp only [bind_eq_ok] at h
    obtain ⟨kind, -, h⟩ := h
    cases h
    have hobj' : (copyField (profile.setField "machine" (.str kind)) (.obj fields) "smm"
        "smm").isObj = true := by
      rw [isObj_copyField, Json.isObj_setField, hobj]
    have hresources : (copyField (profile.setField "machine" (.str kind)) (.obj fields) "smm"
        "smm").field "resources" = profile.field "resources" := by
      rw [field_copyField_ne _ _ (by decide), Json.field_setField_ne _ (by decide)]
    split
    · exact ⟨hobj', memoryOf_congr hresources⟩
    · refine ⟨by rw [Json.isObj_setField, hobj'], ?_⟩
      unfold memoryOf
      rw [Json.field_setField_self hobj', hresources, bind_some, field_withDefault_ne _ (by decide)]
      cases profile.field "resources" <;> rfl
  · cases h
    exact ⟨hobj, rfl⟩

/-- The bytes of the memory of a document. -/
def bytesOf (document : Json) : Option Nat := (document.field "resources").bind memoryBytes

theorem bytesOf_congr (h : memoryOf profile' = memoryOf profile) :
    bytesOf profile' = bytesOf profile := by
  revert h
  unfold bytesOf memoryOf
  rcases profile'.field "resources" with _ | resources' <;>
    rcases profile.field "resources" with _ | resources <;> intro h
  · rfl
  · have h : resources.field "memory" = none := h.symm
    simp [memoryBytes, h]
  · have h : resources'.field "memory" = none := h
    simp [memoryBytes, h]
  · have h : resources'.field "memory" = resources.field "memory" := h
    simp [memoryBytes, h]

/-- The memory after the resources are normalized: the text of the bytes, or what it was. -/
theorem memoryOf_normalizeResources (hobj : profile.isObj = true)
    (h : normalizeResources profile = .ok profile') :
    profile'.isObj = true ∧
      (match bytesOf profile with
        | some bytes => ∃ amount, memorySize bytes = .ok amount ∧
          memoryOf profile' = some (.str amount)
        | none => memoryOf profile' = memoryOf profile) := by
  unfold normalizeResources at h
  split at h
  · rename_i fields hfields
    simp only [bind_eq_ok] at h
    obtain ⟨resources, hmemory, resources', hvcpus, h⟩ := h
    cases h
    refine ⟨by rw [Json.isObj_setField, hobj], ?_⟩
    have hkeep : resources'.field "memory" = resources.field "memory" := by
      unfold normalizeVcpus at hvcpus
      split at hvcpus
      · simp only [bind_eq_ok] at hvcpus
        obtain ⟨count, -, hvcpus⟩ := hvcpus
        cases hvcpus
        split
        · exact Json.field_setField_ne _ (by decide) _
        · rw [Json.field_setField_ne _ (by decide), Json.field_setField_ne _ (by decide)]
      · cases hvcpus
        rfl
    have hnew : memoryOf (profile.setField "resources" resources') = resources.field "memory" := by
      unfold memoryOf
      rw [Json.field_setField_self hobj, bind_some, hkeep]
    rw [hnew, bytesOf, hfields, bind_some]
    unfold normalizeMemory at hmemory
    split at hmemory
    · rename_i hbytes
      cases hmemory
      rw [hbytes]
      unfold memoryOf
      rw [hfields]
      rfl
    · rename_i bytes hbytes
      simp only [bind_eq_ok] at hmemory
      obtain ⟨amount, hamount, hmemory⟩ := hmemory
      cases hmemory
      rw [hbytes]
      exact ⟨amount, hamount, Json.field_setField_self rfl _ _⟩
  · rename_i hnot
    cases h
    refine ⟨hobj, ?_⟩
    have hnone : bytesOf profile = none := by
      unfold bytesOf
      cases hfield : profile.field "resources" with
      | none => rfl
      | some v =>
        cases v with
        | obj fields => exact absurd hfield (hnot fields)
        | _ => rfl
    rw [hnone]

/-! The renderer writes to the machine, the resources, the firmware, the devices, the storage and the
network only. -/

theorem field_normalizeFirmware (profile : Json) (h : name ≠ "firmware") :
    (normalizeFirmware profile).field name = profile.field name := by
  unfold normalizeFirmware
  split
  · exact Json.field_setField_ne _ h _
  · rfl

theorem field_withInterface (profile interface : Json) (h : name ≠ "devices") :
    (withInterface profile interface).field name = profile.field name := by
  unfold withInterface
  split
  · rfl
  · exact Json.field_setField_ne _ h _

theorem field_withStorage (profile devices : Json) (h : name ≠ "storage") :
    (withStorage profile devices).field name = profile.field name := by
  unfold withStorage
  split
  · exact Json.field_setField_ne _ h _
  · rfl

theorem field_withNetwork (profile devices : Json) (h : name ≠ "devices")
    (hnetwork : name ≠ "network") :
    (withNetwork profile devices).field name = profile.field name := by
  unfold withNetwork
  split
  · rw [field_withInterface _ _ h, Json.field_setField_ne _ hnetwork]
  · rfl

theorem field_normalizeDevices (profile : Json) (h : name ≠ "devices")
    (hstorage : name ≠ "storage") (hnetwork : name ≠ "network") :
    (normalizeDevices profile).field name = profile.field name := by
  unfold normalizeDevices
  split
  · rw [field_withNetwork _ _ h hnetwork, field_withStorage _ _ hstorage,
      Json.field_setField_ne _ h]
  · rfl

/-- The memory of the profile that is planned. -/
theorem memoryOf_renderInput {root instanceId : String} {spec : Json} {input : PlanInput}
    (h : renderInput root instanceId spec = .ok input) :
    match bytesOf spec with
    | some bytes => ∃ amount, memorySize bytes = .ok amount ∧
      memoryOf input.profile = some (.str amount)
    | none => memoryOf input.profile = memoryOf spec := by
  simp only [renderInput, normalize, bind_eq_ok, ensure_eq_ok] at h
  obtain ⟨profile, ⟨_, hobj, machine, hmachine, kind, -, resources, hresources, hprofile⟩,
    ⟨track, executable⟩, -, h⟩ := h
  cases hprofile
  cases h
  obtain ⟨hobj', hmemory⟩ := memoryOf_normalizeMachine hobj hmachine
  have hobj'' : (machine.setField "machine" (.str kind)).isObj = true := by
    rw [Json.isObj_setField, hobj']
  have hmemory' : memoryOf (machine.setField "machine" (.str kind)) = memoryOf spec :=
    (memoryOf_congr (Json.field_setField_ne _ (by decide) _)).trans hmemory
  obtain ⟨-, hsized⟩ := memoryOf_normalizeResources hobj'' hresources
  have hfinal : memoryOf (withHeader (normalizeDevices (normalizeFirmware resources)) instanceId
      track) = memoryOf resources := by
    refine memoryOf_congr ?_
    unfold withHeader
    rw [Json.field_setField_ne _ (by decide), Json.field_setField_ne _ (by decide),
      Json.field_setField_ne _ (by decide),
      field_normalizeDevices _ (by decide) (by decide) (by decide),
      field_normalizeFirmware _ (by decide)]
  rw [bytesOf_congr hmemory'] at hsized
  dsimp only
  rw [hfinal]
  split at hsized
  · exact hsized
  · rw [hsized, hmemory']

end Rendering

/-- The text that the planner reads. -/
theorem memory_of_checked {host : Host} {input : PlanInput} {s : Setup}
    (h : Checked host input s) (hraw : memoryOf input.profile = some (.str raw)) :
    memoryText raw = .ok s.memory := by
  obtain ⟨amount, hamount, hmemory⟩ := h.memory
  rw [h.resources] at hamount
  have hfield : memoryOf input.profile = some amount := by
    unfold memoryOf
    cases hresources : input.profile.field "resources" with
    | none =>
      rw [hresources] at hamount
      cases hamount
    | some resources =>
      rw [hresources] at hamount
      exact hamount
  rw [hfield] at hraw
  cases hraw
  exact hmemory

/-- Only a machine of that name has the text `-display` for its options. -/
theorem machineArg_ne {profile : Json} {s : Setup} (h : s.machine ≠ "-display") :
    machineArg profile s ≠ "-display" := by
  have hcomma : ∀ a b : String, a ++ ("," ++ b) ≠ "-display" := by
    intro a b heq
    have hmem : ',' ∈ (a ++ ("," ++ b)).toList := by simp
    rw [heq] at hmem
    exact absurd hmem (by decide)
  unfold machineArg machineValue
  cases s.analysis with
  | some analysis => exact hcomma _ _
  | none =>
    split
    · exact fun heq => hcomma s.machine "smm=on" (by rw [← heq]; simp)
    · simpa using h

section Rendered

variable {host : Host} {root instanceId : String} {spec : Json} {launch : LaunchSpec}

/-- A number of bytes is kept exactly when it is a multiple of 1024. -/
theorem denotes_of_rendered (h : renderDomainLaunchPlan host root instanceId spec = .ok launch)
    (hbytes : bytesOf spec = some bytes) {value : String}
    (hvalue : ("-m", value) ∈ options launch.argv.tail) :
    qemuBytes value = some bytes ↔ bytes % 1024 = 0 := by
  obtain ⟨input, plan, hinput, hplan, hargv, -⟩ := rendered_eq_ok h
  obtain ⟨s, base, sounding, last, hplanned⟩ := planned_buildPlan hplan
  have hmemory := memoryOf_renderInput hinput
  rw [hbytes] at hmemory
  obtain ⟨amount, hamount, hmemory⟩ := hmemory
  rw [hargv] at hvalue
  rw [hplanned.memory_eq hvalue]
  exact denotes_memorySize hamount (memory_of_checked (checked_setup hplanned.checks) hmemory)

/-- A text is kept exactly when its digits come first and nothing stands around it. -/
theorem denotes_of_rendered_text (h : renderDomainLaunchPlan host root instanceId spec = .ok launch)
    (hraw : memoryOf spec = some (.str raw)) {value : String}
    (hvalue : ("-m", value) ∈ options launch.argv.tail) :
    (∃ bytes, SizeText raw bytes ∧ qemuBytes value = some bytes) ↔ InOrder raw := by
  obtain ⟨input, plan, hinput, hplan, hargv, -⟩ := rendered_eq_ok h
  obtain ⟨s, base, sounding, last, hplanned⟩ := planned_buildPlan hplan
  have hnone : bytesOf spec = none := by
    unfold memoryOf at hraw
    unfold bytesOf memoryBytes
    cases hresources : spec.field "resources" with
    | none => rfl
    | some resources =>
      rw [hresources, bind_some] at hraw
      rw [bind_some, hraw]
  have hmemory := memoryOf_renderInput hinput
  rw [hnone] at hmemory
  rw [hargv] at hvalue
  rw [hplanned.memory_eq hvalue]
  have htext := memory_of_checked (checked_setup hplanned.checks) (hmemory.trans hraw)
  obtain ⟨hknown, hrange, -⟩ := memoryText_eq_ok.1 htext
  constructor
  · rintro ⟨bytes, hsize, -⟩
    exact (sizeText_iff.1 hsize).2.1
  · intro horder
    have hexact := memoryExact_iff.2 fun _ => ⟨fun _ => horder, fun _ => hrange⟩
    exact hexact.value _ htext

/-- The plan says how much memory there is, unless a text `-display` stands where it is mistaken for
the option. -/
theorem exists_memory_of_rendered
    (h : renderDomainLaunchPlan host root instanceId spec = .ok launch) :
    ∃ input, renderInput root instanceId spec = .ok input ∧
      (cpuModel input.profile ≠ "-display" → text input.profile "machine" ≠ some "-display" →
        ∃ value, ("-m", value) ∈ options launch.argv.tail) := by
  obtain ⟨input, plan, hinput, hplan, hargv, -⟩ := rendered_eq_ok h
  obtain ⟨s, base, sounding, last, hplanned⟩ := planned_buildPlan hplan
  refine ⟨input, hinput, fun hcpu hmachine => ⟨s.memory, ?_⟩⟩
  rw [hargv]
  refine hplanned.mem_memory hcpu (machineArg_ne fun heq => ?_)
  have hstring := (string_eq_ok.1 (checked_setup hplanned.checks).machine).1
  rw [heq] at hstring
  exact hmachine hstring

/-- The memory of a rendered plan: a number of bytes is kept exactly when it is a multiple of 1024,
and a text exactly when its digits come first and nothing stands around it. What the planner accepts
is exactly the sizes, for the texts in the last part. -/
theorem rendered_memory (h : renderDomainLaunchPlan host root instanceId spec = .ok launch) :
    (∀ bytes, bytesOf spec = some bytes → ∀ value, ("-m", value) ∈ options launch.argv.tail →
      (qemuBytes value = some bytes ↔ bytes % 1024 = 0)) ∧
    (∀ raw, memoryOf spec = some (.str raw) →
      ∀ value, ("-m", value) ∈ options launch.argv.tail →
        ((∃ bytes, SizeText raw bytes ∧ qemuBytes value = some bytes) ↔ InOrder raw)) ∧
    (∃ input, renderInput root instanceId spec = .ok input ∧
      (cpuModel input.profile ≠ "-display" → text input.profile "machine" ≠ some "-display" →
        ∃ value, ("-m", value) ∈ options launch.argv.tail)) ∧
    ∀ raw, MemoryExact raw ↔ (Known raw → (InRange raw ↔ InOrder raw)) :=
  ⟨fun _ hbytes _ hvalue => denotes_of_rendered h hbytes hvalue,
    fun _ hraw _ hvalue => denotes_of_rendered_text h hraw hvalue, exists_memory_of_rendered h,
    fun _ => memoryExact_iff⟩

end Rendered

/-! ## A number that is read as mebibytes -/

/-- A resolved instance with a number of bytes. -/
def bytesInstance (bytes : Int) : Json :=
  .ofFields [("engine", .ofFields [("track", .str "qemu"), ("executable", .str "/opt/qemu"),
      ("build_digest", .str "0")]),
    ("machine", .ofFields [("type", .str "q35")]),
    ("resources", .ofFields [("memory", .ofFields [("bytes", .num bytes)])])]

theorem exists_launch_bytes :
    ∃ launch, renderDomainLaunchPlan hostWithFiles "/workspace" "vm"
      (bytesInstance 1073741825) = .ok launch :=
  exists_launch_of_isOk (by decide +kernel)

/-- One byte more than a gibibyte. -/
theorem rendered_memory_bytes : ∃ launch : LaunchSpec,
    (∀ bytes, bytesOf (bytesInstance 1073741825) = some bytes →
      ∀ value, ("-m", value) ∈ options launch.argv.tail →
        (qemuBytes value = some bytes ↔ bytes % 1024 = 0)) ∧
    (∀ raw, memoryOf (bytesInstance 1073741825) = some (.str raw) →
      ∀ value, ("-m", value) ∈ options launch.argv.tail →
        ((∃ bytes, SizeText raw bytes ∧ qemuBytes value = some bytes) ↔ InOrder raw)) ∧
    (∃ input, renderInput "/workspace" "vm" (bytesInstance 1073741825) = .ok input ∧
      (cpuModel input.profile ≠ "-display" → text input.profile "machine" ≠ some "-display" →
        ∃ value, ("-m", value) ∈ options launch.argv.tail)) ∧
    ∀ raw, MemoryExact raw ↔ (Known raw → (InRange raw ↔ InOrder raw)) := by
  obtain ⟨launch, hlaunch⟩ := exists_launch_bytes
  exact ⟨launch, rendered_memory hlaunch⟩

/-- The number of bytes is given to QEMU as mebibytes. -/
theorem not_rendered_memory : ¬ ∀ (host : Host) (root instanceId : String) (spec : Json)
    (launch : LaunchSpec), renderDomainLaunchPlan host root instanceId spec = .ok launch →
    ∀ bytes, bytesOf spec = some bytes → ∀ value, ("-m", value) ∈ options launch.argv.tail →
      qemuBytes value = some bytes := by
  intro h
  obtain ⟨launch, hlaunch⟩ := exists_launch_bytes
  obtain ⟨input, hinput, hmemory⟩ := exists_memory_of_rendered hlaunch
  have hbytes : bytesOf (bytesInstance 1073741825) = some 1073741825 := by decide +kernel
  have hchecks : ((renderInput "/workspace" "vm" (bytesInstance 1073741825)).toOption.map
      (fun i => (cpuModel i.profile, text i.profile "machine"))) =
      some ("max", some "q35") := by decide +kernel
  simp only [hinput, Except.toOption, map_some, Option.some.injEq, Prod.mk.injEq] at hchecks
  obtain ⟨value, hvalue⟩ := hmemory (by simp [hchecks.1]) (by simp [hchecks.2])
  have hdenotes := (denotes_of_rendered hlaunch hbytes hvalue).1
    (h _ _ _ _ _ hlaunch _ hbytes value hvalue)
  exact absurd hdenotes (by decide)

end MachineEmu.Planner
