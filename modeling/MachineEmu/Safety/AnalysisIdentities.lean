import MachineEmu.Engine.Analysis

/-!
# Identities of analysis profiles

The identity of an analysis machine is derived from a seed and, if there is one, the name of a
clone. Two machines are told apart where what is hashed for them differs.

1. What is hashed is read back: `hashInput_injective`, `effectiveSeed_injective`.
2. The UUID and the address of two sources are hashed from different bytes; the serial numbers are
   hashed from the seed alone: `separated_iff`.
3. The UUID carries the version and the variant of a random one: `randomUuid_systemUuid`.
-/

namespace MachineEmu.Planner

open Lib List

/-- The seed and the clone that an identity is derived from. -/
structure Source where
  seed : String
  clone : Option String
  deriving DecidableEq

/-- The bytes that the UUID is hashed from. -/
def Source.uuidInput (s : Source) : List Nat := hashInput (effectiveSeed s.seed s.clone) "uuid"

/-- The bytes that the address is hashed from. -/
def Source.macInput (s : Source) : List Nat := hashInput (effectiveSeed s.seed s.clone) "mac"

/-- The bytes that a serial number is hashed from; its kind is no part of them. -/
def Source.serialInput (s : Source) (_kind : String) : List Nat := Sha256.bytes s.seed

/-- The derived identity: each field from the digest of its bytes. -/
def Source.identity (s : Source) : Json :=
  .ofFields [("uuid", .str (uuidText (uuidBytes (Sha256.digest s.uuidInput)))),
    ("mac", .str ("02:" ++ colonHex ((Sha256.digest s.macInput).take 5))),
    ("serials", .ofFields (serialKinds.map fun kind => (kind, .str ("AN-" ++ uppercase kind ++ "-" ++
      String.ofList ((Sha256.hex (Sha256.digest (s.serialInput kind))).toList.take 12))))),
    ("identity_seed_sha256", .str (seedHash s.seed)), ("clone", cloneValue s.clone)]

/-- The source of an analysis profile. -/
def HasSource (profile : Json) (s : Source) : Prop :=
  ∃ raw, profile.field "analysis" = some raw ∧ identitySource raw = .ok (s.seed, s.clone)

/-- Every derived field of the two is hashed from different bytes. -/
structure Separated (s s' : Source) : Prop where
  uuid : s.uuidInput ≠ s'.uuidInput
  mac : s.macInput ≠ s'.macInput
  serial : ∀ kind ∈ serialKinds, s.serialInput kind ≠ s'.serialInput kind

/-- The version digit is 4, and the variant digit is one of 8, 9, a and b. -/
def RandomUuid (uuid : String) : Prop :=
  uuid.toList[14]? = some '4' ∧ ∃ c ∈ ['8', '9', 'a', 'b'], uuid.toList[19]? = some c

/-! ## What is hashed -/

/-- The text that is hashed is read back from the bytes. -/
theorem hashInput_injective {e e' label : String} (h : hashInput e label = hashInput e' label) :
    e = e' := by
  unfold hashInput at h
  have hbytes : Sha256.bytes e = Sha256.bytes e' :=
    append_cancel_left (append_cancel_right (append_cancel_right h))
  exact Sha256.bytes_injective hbytes

/-- The seed and the clone are read back from the text: a seed has no zero character, so the first
one ends it. -/
theorem effectiveSeed_injective {s s' : Source} (hseed : '\x00' ∉ s.seed.toList)
    (hseed' : '\x00' ∉ s'.seed.toList)
    (h : effectiveSeed s.seed s.clone = effectiveSeed s'.seed s'.clone) : s = s' := by
  have hmark : ("\x00clone\x00" : String).toList = '\x00' :: "clone\x00".toList := rfl
  obtain ⟨seed, clone⟩ := s
  obtain ⟨seed', clone'⟩ := s'
  have hlist := congrArg String.toList h
  cases clone with
  | none =>
    cases clone' with
    | none => rw [show seed = seed' from h]
    | some c' =>
      simp only [effectiveSeed, String.toList_append, hmark] at hlist
      simp [hlist] at hseed
  | some c =>
    cases clone' with
    | none =>
      simp only [effectiveSeed, String.toList_append, hmark] at hlist
      simp [← hlist] at hseed'
    | some c' =>
      simp only [effectiveSeed, String.toList_append, hmark, append_assoc, cons_append] at hlist
      change seed.toList ++ _ = _ at hlist
      have hsplit := congrArg (List.splitOn '\x00') hlist
      rw [splitOn_append_cons_self_of_not_mem hseed,
        splitOn_append_cons_self_of_not_mem hseed', List.cons.injEq] at hsplit
      obtain ⟨hfirst, -⟩ := hsplit
      change seed.toList = seed'.toList at hfirst
      rw [hfirst] at hlist
      have hclone : c.toList = c'.toList := by
        have hrest := append_cancel_left hlist
        rw [List.cons.injEq] at hrest
        exact append_cancel_left hrest.2
      rw [String.toList_inj.1 hfirst, String.toList_inj.1 hclone]

theorem HasSource.no_zero {profile : Json} {s : Source} (h : HasSource profile s) :
    '\x00' ∉ s.seed.toList := by
  obtain ⟨raw, -, hsource⟩ := h
  unfold identitySource at hsource
  simp only [bind_eq_ok, orInvalid_eq_ok, Option.filter_eq_some_iff] at hsource
  obtain ⟨seed, ⟨-, hseed⟩, clone, -, -, -, hpair⟩ := hsource
  cases hpair
  simp only [decide_eq_true_eq] at hseed
  exact hseed.2

/-! ## Sources that are told apart -/

section Separation

variable {profile profile' : Json} {s s' : Source}

/-- What is hashed with a label tells the sources apart. -/
theorem hashInput_ne (h : HasSource profile s) (h' : HasSource profile' s') (hne : s ≠ s')
    (label : String) :
    hashInput (effectiveSeed s.seed s.clone) label ≠
      hashInput (effectiveSeed s'.seed s'.clone) label :=
  fun heq => hne (effectiveSeed_injective h.no_zero h'.no_zero (hashInput_injective heq))

/-- Two sources are told apart in every derived field exactly when their seeds differ. -/
theorem separated_iff (h : HasSource profile s) (h' : HasSource profile' s') (hne : s ≠ s') :
    Separated s s' ↔ s.seed ≠ s'.seed := by
  constructor
  · intro hseparated heq
    exact hseparated.serial "system" (by decide) (congrArg Sha256.bytes heq)
  · intro hseed
    exact ⟨hashInput_ne h h' hne "uuid", hashInput_ne h h' hne "mac",
      fun kind _ heq => hseed (Sha256.bytes_injective heq)⟩

end Separation

/-! ## The UUID -/

/-- The high digit of a byte. -/
theorem getElem?_hex (bytes : List Nat) (i : Nat) :
    (Sha256.hex bytes).toList[2 * i]? = bytes[i]?.map fun b => Sha256.hexDigit (b / 16) := by
  unfold Sha256.hex
  rw [String.toList_ofList]
  induction bytes generalizing i with
  | nil => simp
  | cons b bytes ih =>
    cases i with
    | zero => simp
    | succ i =>
      rw [Nat.mul_succ, flatMap_cons]
      simpa using ih i

theorem toList_uuidText (bytes : List Nat) : (uuidText bytes).toList =
    (Sha256.hex bytes).toList.take 8 ++ '-' :: (((Sha256.hex bytes).toList.drop 8).take 4 ++
      '-' :: (((Sha256.hex bytes).toList.drop 12).take 4 ++
        '-' :: (((Sha256.hex bytes).toList.drop 16).take 4 ++
          '-' :: (Sha256.hex bytes).toList.drop 20))) := by
  simp [uuidText, joinWith]

/-- The digits that hold the version and the variant. -/
theorem getElem?_uuidText {bytes : List Nat} (h : bytes.length = 16) :
    (uuidText bytes).toList[14]? = (Sha256.hex bytes).toList[2 * 6]? ∧
      (uuidText bytes).toList[19]? = (Sha256.hex bytes).toList[2 * 8]? := by
  have hlength : (Sha256.hex bytes).toList.length = 32 := by rw [Sha256.length_hex, h]
  rw [toList_uuidText]
  constructor <;> simp [hlength]

theorem length_uuidBytes {digest : List Nat} (h : digest.length = 32) :
    (uuidBytes digest).length = 16 := by
  simp [uuidBytes, h]

theorem getElem?_uuidBytes {digest : List Nat} (h : digest.length = 32) :
    (uuidBytes digest)[6]? = some (digest.getD 6 0 % 16 + 0x40) ∧
      (uuidBytes digest)[8]? = some (digest.getD 8 0 % 64 + 0x80) := by
  constructor <;> simp [uuidBytes, h]

/-- A derived UUID has the version and the variant of a random one. -/
theorem randomUuid_systemUuid (e : String) : RandomUuid (systemUuid e) := by
  unfold systemUuid
  have hlength := Sha256.length_digest (hashInput e "uuid")
  obtain ⟨hversion, hvariant⟩ := getElem?_uuidBytes hlength
  obtain ⟨h14, h19⟩ := getElem?_uuidText (length_uuidBytes hlength)
  rw [getElem?_hex, hversion] at h14
  rw [getElem?_hex, hvariant] at h19
  constructor
  · rw [h14, Option.map_some]
    have : (Sha256.digest (hashInput e "uuid")).getD 6 0 % 16 < 16 := Nat.mod_lt _ (by decide)
    rw [show (_ % 16 + 0x40) / 16 = 4 by omega]
    rfl
  · rw [h19, Option.map_some]
    have : (Sha256.digest (hashInput e "uuid")).getD 8 0 % 64 < 64 := Nat.mod_lt _ (by decide)
    generalize (Sha256.digest (hashInput e "uuid")).getD 8 0 % 64 = n at this ⊢
    have hdigit : (n + 0x80) / 16 = 8 ∨ (n + 0x80) / 16 = 9 ∨ (n + 0x80) / 16 = 10 ∨
        (n + 0x80) / 16 = 11 := by omega
    rcases hdigit with hn | hn | hn | hn <;> rw [hn]
    · exact ⟨'8', by simp, rfl⟩
    · exact ⟨'9', by simp, rfl⟩
    · exact ⟨'a', by simp, rfl⟩
    · exact ⟨'b', by simp, rfl⟩

/-! ## Plans -/

/-- The identity in the payload of a plan. -/
def AnalysisPlan.identity (plan : AnalysisPlan) : Option Json :=
  (plan.payload.field "analysis").bind fun v => v.field "identity"

theorem source_of_plan {profile : Json} {machine target : String} {vcpus : Int}
    {plan : AnalysisPlan} (h : analysisPlan profile machine target vcpus = .ok (some plan)) :
    ∃ s, HasSource profile s ∧ plan.identity = some s.identity := by
  obtain ⟨raw, seed, clone, hraw, hsource, -, -, hidentity⟩ := analysisPlan_eq_some h
  exact ⟨⟨seed, clone⟩, ⟨raw, hraw, hsource⟩, hidentity⟩

/-- The identities of two planned profiles come from their sources. Where the sources differ, what
is hashed for the UUID and for the address differs; for the serial numbers it differs exactly when
the seeds do. The UUIDs are random ones in form. -/
theorem analysis_identities {profile profile' : Json} {machine machine' target target' : String}
    {vcpus vcpus' : Int} {plan plan' : AnalysisPlan}
    (h : analysisPlan profile machine target vcpus = .ok (some plan))
    (h' : analysisPlan profile' machine' target' vcpus' = .ok (some plan')) :
    ∃ s s', HasSource profile s ∧ HasSource profile' s' ∧ plan.identity = some s.identity ∧
      plan'.identity = some s'.identity ∧
      (s ≠ s' → s.uuidInput ≠ s'.uuidInput ∧ s.macInput ≠ s'.macInput ∧
        (Separated s s' ↔ s.seed ≠ s'.seed)) ∧
      RandomUuid (uuidText (uuidBytes (Sha256.digest s.uuidInput))) := by
  obtain ⟨s, hs, hidentity⟩ := source_of_plan h
  obtain ⟨s', hs', hidentity'⟩ := source_of_plan h'
  refine ⟨s, s', hs, hs', hidentity, hidentity', ?_, randomUuid_systemUuid _⟩
  intro hne
  exact ⟨hashInput_ne hs hs' hne "uuid", hashInput_ne hs hs' hne "mac", separated_iff hs hs' hne⟩

/-- A profile with a seed and a clone. -/
def cloneProfile (clone : String) : Json :=
  .obj [("analysis", .obj [("clone", .str clone), ("enabled", .bool true),
    ("identity_seed", .str "analysis-default"), ("profile", .str "malware-analysis")])]

theorem exists_plan_of {profile : Json} {machine target : String} {vcpus : Int}
    (h : (match analysisPlan profile machine target vcpus with
      | .ok (some _) => true
      | _ => false) = true) :
    ∃ plan, analysisPlan profile machine target vcpus = .ok (some plan) := by
  split at h
  · exact ⟨_, by assumption⟩
  · cases h

theorem hasSource_cloneProfile (clone : String)
    (h : identitySource (((cloneProfile clone).field "analysis").getD .null) =
      .ok ("analysis-default", some clone)) :
    HasSource (cloneProfile clone) ⟨"analysis-default", some clone⟩ :=
  ⟨_, rfl, h⟩

theorem exists_plan_first :
    ∃ plan, analysisPlan (cloneProfile "a") "q35" "x86_64-softmmu" 1 = .ok (some plan) :=
  exists_plan_of (by decide +kernel)

theorem exists_plan_second :
    ∃ plan, analysisPlan (cloneProfile "b") "q35" "x86_64-softmmu" 1 = .ok (some plan) :=
  exists_plan_of (by decide +kernel)

/-- Two clones of one seed, which differ in their UUID and their address. -/
theorem analysis_identities_clones : ∃ (plan plan' : AnalysisPlan) (s s' : Source),
    HasSource (cloneProfile "a") s ∧ HasSource (cloneProfile "b") s' ∧
      plan.identity = some s.identity ∧ plan'.identity = some s'.identity ∧
      (s ≠ s' → s.uuidInput ≠ s'.uuidInput ∧ s.macInput ≠ s'.macInput ∧
        (Separated s s' ↔ s.seed ≠ s'.seed)) ∧
      RandomUuid (uuidText (uuidBytes (Sha256.digest s.uuidInput))) := by
  obtain ⟨plan, hplan⟩ := exists_plan_first
  obtain ⟨plan', hplan'⟩ := exists_plan_second
  exact ⟨plan, plan', analysis_identities hplan hplan'⟩

/-- Two clones of one seed have the same serial numbers. -/
theorem not_analysis_separated : ¬ ∀ (profile profile' : Json) (machine target : String)
    (vcpus : Int) (plan plan' : AnalysisPlan) (s s' : Source),
    analysisPlan profile machine target vcpus = .ok (some plan) →
    analysisPlan profile' machine target vcpus = .ok (some plan') →
    HasSource profile s → HasSource profile' s' → s ≠ s' → Separated s s' := by
  intro h
  obtain ⟨plan, hplan⟩ := exists_plan_first
  obtain ⟨plan', hplan'⟩ := exists_plan_second
  have hseparated := h _ _ _ _ _ _ _ _ _ hplan hplan'
    (hasSource_cloneProfile "a" (by decide +kernel))
    (hasSource_cloneProfile "b" (by decide +kernel)) (by decide)
  exact hseparated.serial "bios" (by decide) rfl

end MachineEmu.Planner
