import MachineEmu.Engine.Sections
import MachineEmu.Lib.Settings

/-!
# The processor of analysis machines

A guest that looks for a hypervisor must not find one: the processor model of an analysis profile
has to leave the hypervisor bit alone and to turn the KVM signature off. QEMU reads the features of
the model from left to right.

1. The model of the profile is what the plan passes on: `Planned.mem_cpu`, `Planned.cpu_eq`.
2. It hides the hypervisor exactly when each feature that shows it is taken back by a later one:
   `hides_iff`.
-/

namespace MachineEmu.Planner

open Lib

/-! ## Reading a processor model -/

/-- What a part of a processor model sets: `+feature`, `-feature`, `feature` and `feature=on|off`. -/
def featureSetting (part : String) : Option (String × Bool) :=
  match part.toList with
  | '+' :: name => some (String.ofList name, true)
  | '-' :: name => some (String.ofList name, false)
  | chars =>
    match (chars.splitOn '=').map String.ofList with
    | [name] => some (name, true)
    | [name, "on"] => some (name, true)
    | [name, "off"] => some (name, false)
    | _ => none

/-- Whether a part turns a feature on or off. -/
def sets (feature part : String) : Option Bool :=
  (featureSetting part).bind fun setting => if setting.1 = feature then some setting.2 else none

/-- The features of a model, after its name. -/
def features (cpu : String) : List String := (splitAt ',' cpu).tail

/-- In the end, the hypervisor bit is not turned on, and the KVM signature is turned off. -/
structure Hides (cpu : String) : Prop where
  hypervisor : settle (sets "hypervisor") (features cpu) ≠ some true
  kvm : settle (sets "kvm") (features cpu) = some false

/-- Each feature that shows the hypervisor is taken back by a later one, and the KVM signature is
turned off after the name of the model. -/
structure Concealed (cpu : String) : Prop where
  hypervisor : TurnedOff (sets "hypervisor") (features cpu)
  off : ∃ part ∈ features cpu, sets "kvm" part = some false
  kvm : TurnedOff (sets "kvm") (features cpu)

theorem hides_iff {cpu : String} : Hides cpu ↔ Concealed cpu := by
  constructor
  · intro h
    obtain ⟨hoff, hkvm⟩ := settle_eq_false_iff.1 h.kvm
    exact ⟨settle_ne_true_iff.1 h.hypervisor, hoff, hkvm⟩
  · intro h
    exact ⟨settle_ne_true_iff.2 h.hypervisor, settle_eq_false_iff.2 ⟨h.off, h.kvm⟩⟩

/-! ## Analysis machines -/

section Analysis

variable {host : Host} {input : PlanInput} {plan : LaunchPlan}

/-- The board has no analysis profile. -/
theorem ne_of_supportsAnalysis {machine target : String}
    (h : supportsAnalysis machine target = true) : machine ≠ "udm-pro" := by
  rintro rfl
  unfold supportsAnalysis at h
  rw [Bool.and_eq_true] at h
  exact absurd h.1 (by decide)

/-- The options of an analysis machine are separated by a comma. -/
theorem machineArg_ne_display {profile : Json} {s : Setup} {analysis : AnalysisPlan}
    (h : s.analysis = some analysis) : machineArg profile s ≠ "-display" := by
  intro heq
  have hmem : ',' ∈ (machineArg profile s).toList := by
    unfold machineArg
    rw [h]
    simp
  rw [heq] at hmem
  exact absurd hmem (by decide)

theorem exists_analysis {s : Setup} (h : Checked host input s)
    (hprofile : (input.profile.field "analysis").isSome = true) :
    ∃ analysis, s.analysis = some analysis := by
  cases hs : s.analysis with
  | some analysis => exact ⟨analysis, rfl⟩
  | none =>
    have hplan := h.analysis
    rw [hs] at hplan
    rw [analysisPlan_eq_none hplan] at hprofile
    cases hprofile

/-- The processor model of an analysis machine is the one of its profile. -/
theorem mem_cpu_of_analysis (h : buildPlan host input = .ok plan)
    (hprofile : (input.profile.field "analysis").isSome = true) :
    ("-cpu", cpuModel input.profile) ∈ options plan.argv.tail := by
  obtain ⟨s, base, sounding, last, hplanned⟩ := planned_buildPlan h
  have hchecked := checked_setup hplanned.checks
  obtain ⟨analysis, hanalysis⟩ := exists_analysis hchecked hprofile
  have hplan := hchecked.analysis
  rw [hanalysis] at hplan
  obtain ⟨_, _, _, -, -, hsupports, -⟩ := analysisPlan_eq_some hplan
  exact hplanned.mem_cpu (ne_of_supportsAnalysis hsupports) (machineArg_ne_display hanalysis)

/-- A plan for an analysis profile has one processor model, that of the profile. It hides the
hypervisor exactly when each feature of it that shows the hypervisor is taken back by a later one. -/
theorem analysis_cpu (h : buildPlan host input = .ok plan)
    (hprofile : (input.profile.field "analysis").isSome = true) :
    ("-cpu", cpuModel input.profile) ∈ options plan.argv.tail ∧
      ∀ cpu, ("-cpu", cpu) ∈ options plan.argv.tail →
        cpu = cpuModel input.profile ∧ (Hides cpu ↔ Concealed (cpuModel input.profile)) := by
  refine ⟨mem_cpu_of_analysis h hprofile, fun cpu hcpu => ?_⟩
  obtain ⟨s, base, sounding, last, hplanned⟩ := planned_buildPlan h
  obtain rfl := hplanned.cpu_eq hcpu
  exact ⟨rfl, hides_iff⟩

end Analysis

/-! ## A profile that shows the hypervisor -/

/-- A host where every file is there. -/
def fullHost : Host where
  isFile _ := true
  canonicalize path := some path
  document _ := .error "no documents"
  digest _ := .error "no digests"

/-- The profile of a q35 machine with some settings. -/
def q35Profile (settings : List (String × Json)) : Json :=
  .ofFields ([("schema_version", .num 2), ("id", .str "vm"), ("machine", .str "q35"),
    ("engine", .arr [.str "qemu"]), ("resources", .ofFields [("memory", .str "4G")])] ++ settings)

/-- The input of a plan of a profile with a pinned engine. -/
def pinnedInput (profile : Json) : PlanInput where
  profile := profile
  releaseSet := .ofFields [("schema_version", .num 1), ("engines", .ofFields [("qemu",
    .ofFields [("executable", .str "/opt/qemu-system-x86_64"), ("build_digest", .str "0")])])]
  bundleRoot := "/workspace/generated-engines"
  target := "x86_64-softmmu"
  runtimeDir := "/workspace/instances/vm"
  instanceName := some "vm"

/-- An analysis profile with a processor model. -/
def analysisInput (cpu : String) : PlanInput :=
  pinnedInput (q35Profile [("cpu", .str cpu), ("analysis", .ofFields [("enabled", .bool true),
    ("profile", .str "malware-analysis"), ("identity_seed", .str "seed")])])

theorem exists_plan_of_isOk {host : Host} {input : PlanInput}
    (h : (buildPlan host input).isOk = true) : ∃ plan, buildPlan host input = .ok plan := by
  cases hplan : buildPlan host input with
  | error e =>
    rw [hplan] at h
    cases h
  | ok plan => exact ⟨plan, rfl⟩

theorem exists_plan_shown :
    ∃ plan, buildPlan fullHost (analysisInput "host,kvm=off,hypervisor=on") = .ok plan :=
  exists_plan_of_isOk (by decide +kernel)

/-- The profile is accepted, and the last feature of its model turns the hypervisor bit on. -/
theorem analysis_cpu_shown : ∃ plan : LaunchPlan,
    ("-cpu", cpuModel (analysisInput "host,kvm=off,hypervisor=on").profile) ∈
      options plan.argv.tail ∧
      ∀ cpu, ("-cpu", cpu) ∈ options plan.argv.tail →
        cpu = cpuModel (analysisInput "host,kvm=off,hypervisor=on").profile ∧
          (Hides cpu ↔
            Concealed (cpuModel (analysisInput "host,kvm=off,hypervisor=on").profile)) := by
  obtain ⟨plan, hplan⟩ := exists_plan_shown
  exact ⟨plan, analysis_cpu hplan (by decide +kernel)⟩

theorem not_analysis_cpu : ¬ ∀ (host : Host) (input : PlanInput) (plan : LaunchPlan),
    buildPlan host input = .ok plan → (input.profile.field "analysis").isSome = true →
    ∀ cpu, ("-cpu", cpu) ∈ options plan.argv.tail → Hides cpu := by
  intro h
  obtain ⟨plan, hplan⟩ := exists_plan_shown
  have hanalysis : ((analysisInput "host,kvm=off,hypervisor=on").profile.field
      "analysis").isSome = true := by decide +kernel
  have hhides := h _ _ _ hplan hanalysis _ (mem_cpu_of_analysis hplan hanalysis)
  have hcpu : cpuModel (analysisInput "host,kvm=off,hypervisor=on").profile =
      "host,kvm=off,hypervisor=on" := by decide +kernel
  rw [hcpu] at hhides
  exact hhides.hypervisor (by decide +kernel)

end MachineEmu.Planner
