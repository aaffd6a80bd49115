import MachineEmu.Engine.Plan
import MachineEmu.Lib.Arguments

/-!
# Sections of the argument vector

Every section of a plan is flags with values. This module says which flags a section uses, so that
the option that a flag of the vector comes from is known.

* `Part` — a section that sets neither the memory, nor the processor, the display or a network.
* `machineArgs_eq`, `devices_eq` — the sections that set the first three.
* `networkArgs_args` — the section of the network.
* `baseArgs_eq`, `buildPlan_eq` — the vector before and after the sound.
-/

namespace MachineEmu.Planner

open Lib List

/-- The flags of the other settings. -/
def plainFlags : List String :=
  ["-machine", "-device", "-accel", "-smp", "-qmp", "-pidfile", "-net", "-drive", "-global",
    "-boot", "-kernel", "-initrd", "-dtb", "-append", "-chardev", "-tpmdev", "-serial", "-vga",
    "-vnc", "-spice", "-audiodev", "-uuid", "-smbios"]

/-- A section of the other settings. -/
abbrev Part (argv : List String) : Prop := Args (fun flag _ => flag ∈ plainFlags) argv

section Sections

variable {argv : List String}

theorem part_rootPorts (machine : String) : Part (rootPorts machine) := by
  unfold rootPorts
  exact .ite (fun _ => by simp [plainFlags]) fun _ => .nil

/-- No argument of the accelerator is a display. -/
theorem part_accelerator {kind : String} {thread : Option Json}
    (h : accelerator kind thread = .ok argv) : Part argv ∧ "-display" ∉ argv := by
  unfold accelerator at h
  split at h
  · cases h
    simp [plainFlags]
  · split at h
    · dsimp only at h
      split at h
      · rename_i hthread
        cases h
        rcases hthread with hthread | hthread <;> simp [plainFlags, hthread]
      · cases h
    · cases h

variable {host : Host}

theorem part_seedArgs {seed : Option String} (h : seedArgs host seed = .ok argv) : Part argv := by
  cases seed with
  | none =>
    cases h
    exact .nil
  | some seed =>
    simp only [seedArgs, bind_eq_ok] at h
    obtain ⟨_, -, h⟩ := h
    cases h
    simp [plainFlags]

variable {sources : SourceResolver} {v : Option Json}

theorem part_firmware {state : String}
    {nvram : Option PreparationFile} (h : firmware v sources state = .ok (argv, nvram)) :
    Part argv := by
  unfold firmware at h
  split at h
  · cases h
    exact .nil
  · simp only [bind_eq_ok] at h
    obtain ⟨x, -, loader, -, loader, -, nvram, -, nvram, -, code, -, seed, -, h⟩ := h
    split at h
    · cases h
    · cases h
      exact Args.append (by simp [plainFlags]) (.ite (fun _ => by simp [plainFlags]) fun _ => .nil)

theorem part_bootFile {boot : Json} {key name : String}
    (hname : name ∈ plainFlags) (h : bootFile boot sources key name = .ok argv) : Part argv := by
  unfold bootFile at h
  split at h
  · cases h
    exact .nil
  · cases h
    exact .nil
  · simp only [bind_eq_ok] at h
    obtain ⟨_, -, path, -, h⟩ := h
    cases h
    exact .cons hname .nil

theorem part_directBoot {boot : Option Json}
    (h : directBoot boot sources = .ok argv) : Part argv := by
  unfold directBoot at h
  split at h
  · cases h
    exact .nil
  · simp only [bind_eq_ok] at h
    obtain ⟨options, -, kernel, hkernel, initrd, hinitrd, dtb, hdtb, append, happend, h⟩ := h
    cases h
    have hcommand : Part append := by
      unfold kernelCommand at happend
      split at happend
      · cases happend
        exact .nil
      · simp only [bind_eq_ok] at happend
        obtain ⟨text, -, happend⟩ := happend
        cases happend
        simp [plainFlags]
    have hboot : Part (if options = [] then [] else ["-boot", joinWith "," options]) :=
      .ite (fun _ => .nil) fun _ => by simp [plainFlags]
    exact (((hboot.append (part_bootFile (by decide) hkernel)).append
      (part_bootFile (by decide) hinitrd)).append (part_bootFile (by decide) hdtb)).append hcommand

theorem part_udmDisk {v : Json} {role id : String}
    (h : udmDisk v sources role id = .ok argv) : Part argv := by
  simp only [udmDisk, bind_eq_ok] at h
  obtain ⟨disk, -, _, -, disk, -, path, -, h⟩ := h
  cases h
  simp [plainFlags]

theorem part_storage {machine state : String}
    {descriptor : Option Json} {overlay : Option DiskPreparation}
    (h : storage v sources machine state descriptor = .ok (argv, overlay)) : Part argv := by
  unfold storage at h
  split at h
  · cases h
    exact .nil
  · simp only [bind_eq_ok] at h
    obtain ⟨x, -, _, -, disk, -, disk, -, _, -, backing, -, _, -, _, -, _, -, _, -, _, -, _, -, _, -,
      size, -, drive, -, device, -, h⟩ := h
    cases h
    exact Args.append (.ite (fun _ => by simp [plainFlags]) fun _ => .nil) (by simp [plainFlags])

variable {s : Setup} {profile : Json}

theorem part_storageArgs {overlay : Option DiskPreparation}
    (h : storageArgs profile s = .ok (argv, overlay)) : Part argv := by
  unfold storageArgs at h
  split at h
  · simp only [udmStorage, bind_eq_ok] at h
    obtain ⟨both, ⟨v, -, v, -, boot, hboot, spi, hspi, hboth⟩, h⟩ := h
    cases hboth
    cases h
    exact (part_udmDisk hboot).append (part_udmDisk hspi)
  · exact part_storage h

theorem part_tpmArgs (h : tpmArgs profile s = .ok argv) : Part argv := by
  unfold tpmArgs at h
  split at h
  · cases h
    exact .nil
  · simp only [tpm, bind_eq_ok] at h
    obtain ⟨x, -, _, -, _, -, h⟩ := h
    cases h
    simp [plainFlags]

theorem part_vsockArgs (input : PlanInput) (s : Setup) : Part (vsockArgs input s) := by
  unfold vsockArgs
  exact .ite (fun _ => by simp [plainFlags]) fun _ => .nil

/-! ## Devices -/

theorem part_guestAgent (v : Json) (runtime : String) : Part (guestAgent v runtime) := by
  unfold guestAgent
  exact .ite (fun _ => by simp [plainFlags]) fun _ => .nil

theorem part_serialPort (v : Json) (runtime : String) : Part (serialPort v runtime) := by
  unfold serialPort
  split <;> simp [plainFlags]

theorem part_pointers (tablet mouse : Bool) : Part (pointers tablet mouse) := by
  unfold pointers
  refine .ite (fun _ => ?_) fun _ => .nil
  refine (Args.append (by simp [plainFlags]) ?_).append ?_
  · exact .ite (fun _ => by simp [plainFlags]) fun _ => .nil
  · exact .ite (fun _ => by simp [plainFlags]) fun _ => .nil

variable {value : String}

/-- A text with another character is not the text `-display`. -/
theorem ne_of_mem (c : Char) (hnot : c ∉ "-display".toList)
    (hmem : c ∈ value.toList) : "-display" ≠ value := by
  rintro rfl
  exact hnot hmem

theorem not_mem_guestAgent (v : Json) (runtime : String) :
    "-display" ∉ guestAgent v runtime := by
  unfold guestAgent socketChardev
  split
  · have hne : "-display" ≠ "socket,id=qga0,path=" ++ joinPath runtime "qga.sock" ++
        ",server=on,wait=off" := ne_of_mem ',' (by decide) (by simp)
    simp [hne]
  · exact not_mem_nil

theorem not_mem_serialPort (v : Json) (runtime : String) :
    "-display" ∉ serialPort v runtime := by
  unfold serialPort
  split
  · have hne : ∀ path log : String, "-display" ≠ socketChardev "uart0" path ++ ",logfile=" ++ log ++
        ",logappend=off" := fun _ _ => ne_of_mem ',' (by decide) (by simp)
    simp [hne]
  · have hne : "-display" ≠ "file:" ++ joinPath runtime "serial.log" :=
      ne_of_mem ':' (by decide) (by simp)
    simp [hne]
  · simp
  · exact not_mem_nil

theorem not_mem_pointers (tablet mouse : Bool) : "-display" ∉ pointers tablet mouse := by
  cases tablet <;> cases mouse <;> decide

/-- The console of the devices. -/
def consoleOf (v : Option Json) : String := consoleType ((v.getD (.obj [])).field "console")

/-- The output of the display, by the console. -/
def displayOutput (console : String) : String :=
  if console = "h264" then "dbus,p2p=on,gl=on" else if console = "vnc" then "vnc=:0" else "none"

/-- The display comes last. -/
theorem display_eq {console : Option Json} {model : Option String}
    (h : display console model = .ok argv) :
    ∃ front, Part front ∧ "-display" ∉ front ∧
      argv = front ++ ["-display", displayOutput (consoleType console)] := by
  unfold display at h
  unfold displayOutput
  split at h
  · rename_i hconsole
    split at h
    · cases h
    · rename_i model hmodel
      cases h
      rw [if_pos hconsole]
      refine ⟨["-vga", "none", "-device", model ++ ",id=me-video"], by simp [plainFlags], ?_, rfl⟩
      have hne : "-display" ≠ model ++ ",id=me-video" := ne_of_mem ',' (by decide) (by simp)
      simp [hne]
  · rename_i hconsole
    rw [if_neg hconsole]
    split at h
    · rename_i hvnc
      cases h
      rw [if_pos hvnc]
      exact ⟨[], .nil, not_mem_nil, rfl⟩
    · rename_i hvnc
      cases h
      rw [if_neg hvnc]
      exact ⟨[], .nil, not_mem_nil, rfl⟩

theorem optionalMapping_eq_ok {a : Option Json} {name : String}
    (h : optionalMapping v name = .ok a) : a = v := by
  unfold optionalMapping at h
  split at h
  · cases h
    rfl
  · simp only [map_eq_ok, object_eq_ok] at h
    obtain ⟨_, ⟨-, rfl⟩, rfl⟩ := h
    rfl

variable {runtime : String}

theorem devices_eq (h : devices v runtime = .ok argv) :
    ∃ front, Part front ∧ "-display" ∉ front ∧
      argv = front ++ ["-display", displayOutput (consoleOf v)] := by
  simp only [devices, bind_eq_ok, object_eq_ok] at h
  obtain ⟨x, ⟨-, rfl⟩, console, hconsole, tablet, -, mouse, -, _, -, shown, hshown, h⟩ := h
  cases h
  obtain ⟨front, hfront, hnot, rfl⟩ := display_eq hshown
  rw [optionalMapping_eq_ok hconsole]
  refine ⟨guestAgent (v.getD (.obj [])) runtime ++ serialPort (v.getD (.obj [])) runtime ++
    (if videoModel (v.getD (.obj [])) = some "virtio-vga" then
      ["-vga", "none", "-device", "virtio-vga,id=me-video"] else []) ++
    pointers tablet mouse ++ front, ?_, ?_, by simp [consoleOf]⟩
  · refine ((((part_guestAgent _ _).append (part_serialPort _ _)).append ?_).append
      (part_pointers _ _)).append hfront
    exact .ite (fun _ => by simp [plainFlags]) fun _ => .nil
  · simp only [mem_append, not_or]
    refine ⟨⟨⟨⟨not_mem_guestAgent _ _, not_mem_serialPort _ _⟩, ?_⟩, not_mem_pointers _ _⟩, hnot⟩
    split <;> simp

/-! ## Networks -/

/-- The flags of the networks. -/
def networkFlags : List String := ["-nic", "-netdev"]

/-- A section of the networks. -/
abbrev NetworkPart (argv : List String) : Prop :=
  Args (fun flag _ => flag ∈ networkFlags ∨ flag ∈ plainFlags) argv

theorem networkPart_network {nic helper address : Option String}
    (h : network v nic helper address = .ok argv) : NetworkPart argv := by
  simp only [network, bind_eq_ok] at h
  obtain ⟨option, -, h⟩ := h
  split at h
  · cases h
    simp [networkFlags]
  · split at h
    · cases h
      simp [networkFlags, plainFlags]
    · split at h
      · simp only [bind_eq_ok] at h
        obtain ⟨b, -, h⟩ := h
        cases h
        simp [networkFlags, plainFlags]
      · cases h

theorem networkPart_udmPorts {helper address : Option String} {index : Nat} {ports : List Json}
    (h : udmPorts helper address index ports = .ok argv) : NetworkPart argv := by
  induction ports generalizing index argv with
  | nil =>
    cases h
    exact .nil
  | cons port rest ih =>
    simp only [udmPorts, bind_eq_ok] at h
    obtain ⟨port, -, backend, -, mac, -, more, hmore, h⟩ := h
    cases h
    exact Args.append (by simp [networkFlags, plainFlags]) (ih hmore)

variable {input : PlanInput}

theorem networkPart_networkArgs (h : networkArgs input s = .ok argv) : NetworkPart argv := by
  unfold networkArgs at h
  split at h
  · unfold udmNetwork at h
    split at h
    · simp only [bind_eq_ok] at h
      obtain ⟨ports, -, more, hmore, h⟩ := h
      cases h
      exact Args.append (by simp [plainFlags]) (networkPart_udmPorts hmore)
    · dsimp only at h
      split at h
      · cases h
        simp [plainFlags]
      · simp only [bind_eq_ok] at h
        obtain ⟨backend, -, mac, -, h⟩ := h
        cases h
        simp [networkFlags, plainFlags]
  · exact networkPart_network h

/-! ## The whole vector -/

theorem part_accelArgs {resources : Json} (h : accelArgs resources = .ok argv) :
    Part argv ∧ "-display" ∉ argv := by
  unfold accelArgs at h
  split at h
  · cases h
    exact ⟨.nil, not_mem_nil⟩
  · exact part_accelerator h

theorem not_mem_rootPorts (machine : String) : "-display" ∉ rootPorts machine := by
  unfold rootPorts
  split <;> simp

/-- The processor and the memory stand between other settings. -/
theorem machineArgs_eq (h : machineArgs profile s = .ok argv) :
    ∃ ports back, Part ports ∧ "-display" ∉ ports ∧ Part back ∧
      argv = "-machine" :: machineArg profile s :: (ports ++
        (if s.machine ≠ "udm-pro" ∨ (profile.field "cpu").isSome then ["-cpu", cpuModel profile]
          else []) ++ "-m" :: s.memory :: back) := by
  simp only [machineArgs, bind_eq_ok] at h
  obtain ⟨accel, haccel, smp, -, h⟩ := h
  cases h
  obtain ⟨hpart, hdisplay⟩ := part_accelArgs haccel
  refine ⟨rootPorts s.machine ++ accel, ["-smp", smp, "-qmp",
    "unix:" ++ joinPath s.runtime "sockets/qmp.sock" ++ ",server=on,wait=off", "-pidfile",
    joinPath s.runtime "control/qemu.pid"], (part_rootPorts _).append hpart, ?_, ?_, ?_⟩
  · rw [mem_append, not_or]
    exact ⟨not_mem_rootPorts _, hdisplay⟩
  · simp [plainFlags]
  · simp only [append_assoc, cons_append, nil_append]

/-- The vector before the sound: the display is the last of its settings but for the vsock device. -/
theorem baseArgs_eq {files : Preparation} (h : baseArgs host input s = .ok (argv, files)) :
    ∃ machine network rest, machineArgs input.profile s = .ok machine ∧
      networkArgs input s = .ok network ∧ Part rest ∧
      argv = s.executable :: (machine ++ network ++ rest ++
        ["-display", displayOutput (consoleOf (input.profile.field "devices"))] ++
        vsockArgs input s) := by
  simp only [baseArgs, bind_eq_ok] at h
  obtain ⟨machine, hmachine, network, hnetwork, seed, hseed, ⟨fw, nvram⟩, hfw, _, -, boot, hboot,
    ⟨disk, overlay⟩, hdisk, tpm, htpm, devices, hdevices, h⟩ := h
  cases h
  obtain ⟨front, hfront, -, rfl⟩ := devices_eq hdevices
  refine ⟨machine, network, seed ++ fw ++ boot ++ disk ++ tpm ++ front, hmachine, hnetwork, ?_, ?_⟩
  · exact (((((part_seedArgs hseed).append (part_firmware hfw)).append
      (part_directBoot hboot)).append (part_storageArgs hdisk)).append (part_tpmArgs htpm)).append
      hfront
  · simp only [append_assoc]

/-! ## Sound -/

theorem audioBackend_kind {audio : Option Json} {kind id : String}
    (h : audioBackend audio = .ok (some (kind, id))) : kind = "dbus" ∨ kind = "spice" := by
  unfold audioBackend at h
  split at h
  · cases h
  · simp only [bind_eq_ok] at h
    obtain ⟨x, -, h⟩ := h
    split at h
    · cases h
    · simp only [bind_eq_ok] at h
      obtain ⟨_, -, backend, -, backend, -, h⟩ := h
      split at h
      · cases h
      · simp only [bind_eq_ok, ensure_eq_ok, Bool.or_eq_true, decide_eq_true_eq] at h
        obtain ⟨_, hkind, _, -, h⟩ := h
        cases h
        exact hkind

/-- The settings of the audio device. -/
def audioArgs (kind id : String) : List String :=
  ["-audiodev", kind ++ ",id=" ++ id, "-device", "ich9-intel-hda,id=pc-sound", "-device",
    "hda-duplex,audiodev=" ++ id]

theorem part_audioArgs (kind id : String) : Part (audioArgs kind id) := by
  simp [audioArgs, plainFlags]

theorem startsWith_append {s start : String} (h : startsWith s start = true) (t : String) :
    startsWith (s ++ t) start = true := by
  unfold startsWith at *
  rw [decide_eq_true_eq] at *
  rw [String.toList_append]
  exact h.trans (prefix_append _ _)

variable {base : List String}

theorem dbusDisplay_eq {id : String} {vnc : Bool} (h : dbusDisplay base id vnc runtime = .ok argv) :
    ∃ place output more, displayAt base = some place ∧ startsWith output "dbus," = true ∧
      Part more ∧ argv = base.set (place + 1) output ++ more := by
  unfold dbusDisplay at h
  split at h
  · cases h
  · rename_i place hplace
    dsimp only at h
    split at h
    · rename_i hstarts
      cases h
      exact ⟨place, base.getD (place + 1) "" ++ ",audiodev=" ++ id, [], hplace,
        startsWith_append (startsWith_append hstarts _) _, .nil, (append_nil _).symm⟩
    · cases h
      exact ⟨place, _, _, hplace, startsWith_append (by decide) _,
        .ite (fun _ => by simp [plainFlags]) fun _ => .nil, rfl⟩

/-- The vector with sound: nothing changes without sound; sound over SPICE adds settings; sound over
D-Bus replaces the argument after the first `-display`. -/
inductive Sounding (base : List String) (audio : Option Json) : List String → Prop
  | silent : audioBackend audio = .ok none → Sounding base audio base
  | spice {id : String} {more : List String} : audioBackend audio = .ok (some ("spice", id)) →
      Part more → Sounding base audio (base ++ more)
  | dbus {id : String} {place : Nat} {output : String} {more : List String} :
      audioBackend audio = .ok (some ("dbus", id)) → displayAt base = some place →
      startsWith output "dbus," = true → Part more →
      Sounding base audio (base.set (place + 1) output ++ more)

theorem sounding_withAudio {audio devices : Option Json}
    (h : withAudio base audio devices runtime = .ok argv) : Sounding base audio argv := by
  simp only [withAudio, bind_eq_ok] at h
  obtain ⟨backend, hbackend, h⟩ := h
  cases backend with
  | none =>
    cases h
    exact .silent hbackend
  | some backend =>
    obtain ⟨kind, id⟩ := backend
    simp only [bind_eq_ok] at h
    obtain ⟨sounding, hsounding, h⟩ := h
    cases h
    unfold soundOutput at hsounding
    rcases audioBackend_kind hbackend with rfl | rfl
    · rw [if_pos rfl] at hsounding
      obtain ⟨place, output, more, hplace, houtput, hmore, rfl⟩ := dbusDisplay_eq hsounding
      rw [append_assoc]
      exact .dbus hbackend hplace houtput (hmore.append (part_audioArgs _ _))
    · rw [if_neg (by decide)] at hsounding
      cases hsounding
      rw [append_assoc]
      exact .spice hbackend (Args.append (by simp [plainFlags]) (part_audioArgs _ _))

/-! ## The rest -/

theorem part_analysisVideo (video descriptor : Option Json) :
    Part (analysisVideo video descriptor) := by
  unfold analysisVideo
  split
  · exact .nil
  · dsimp only
    exact .ite (fun _ => .nil) fun _ => by simp [plainFlags]

theorem part_udmDevices (h : udmDevices v runtime = .ok argv) : Part argv := by
  unfold udmDevices at h
  split at h
  · cases h
    exact .nil
  · simp only [bind_eq_ok] at h
    obtain ⟨lcd, -, bluetooth, -, _, -, h⟩ := h
    cases h
    exact Args.append (.ite (fun _ => by simp [plainFlags]) fun _ => .nil)
      (.ite (fun _ => by simp [plainFlags]) fun _ => .nil)

theorem part_boardArgs (h : boardArgs profile s = .ok argv) : Part argv := by
  unfold boardArgs at h
  split at h
  · exact part_udmDevices h
  · cases h
    exact .ite (fun _ => by simp [frontPanel, plainFlags]) fun _ => .nil

theorem part_wifi {machine : String} (h : wifi v machine runtime = .ok argv) : Part argv := by
  unfold wifi at h
  split at h
  · cases h
    exact .nil
  · simp only [bind_eq_ok] at h
    obtain ⟨x, -, h⟩ := h
    split at h
    · cases h
      exact .nil
    · simp only [bind_eq_ok] at h
      obtain ⟨_, -, h⟩ := h
      cases h
      simp [plainFlags]

theorem part_smbiosArgv (smbios : Json) (uuid : String) (serials : Json) :
    Part (smbiosArgv smbios uuid serials) := by
  unfold smbiosArgv
  refine Args.append (by simp [plainFlags]) (.flatMap fun table _ => ?_)
  exact .ite (fun _ => by simp [plainFlags]) fun _ => .nil

theorem part_lastArgs (hanalysis : ∀ analysis ∈ s.analysis, Part analysis.argv)
    (h : lastArgs profile s = .ok argv) : Part argv := by
  simp only [lastArgs, bind_eq_ok] at h
  obtain ⟨board, hboard, wifi, hwifi, h⟩ := h
  cases h
  refine ((((part_analysisVideo _ _).append ?_).append (part_boardArgs hboard)).append
    (part_wifi hwifi)).append ?_
  · exact .ite (fun _ => by simp [plainFlags]) fun _ => .nil
  · cases hs : s.analysis with
    | none => exact .nil
    | some analysis => exact hanalysis analysis hs

/-! ## Plans -/

theorem part_analysisArgv {machine target : String} {vcpus : Int} {analysis : AnalysisPlan}
    (h : analysisPlan profile machine target vcpus = .ok (some analysis)) : Part analysis.argv := by
  unfold analysisPlan at h
  split at h
  · cases h
  · simp only [bind_eq_ok] at h
    obtain ⟨_, -, ⟨seed, clone⟩, -, stated, -, _, -, h⟩ := h
    cases h
    exact part_smbiosArgv _ _ _

/-- What is known of the checked settings. -/
structure Checked (host : Host) (input : PlanInput) (s : Setup) : Prop where
  machine : string input.profile "machine" = .ok s.machine
  engine : ∃ tracks, engineTracks input.profile = .ok tracks ∧
    resolveEngineOrdered host input.releaseSet input.bundleRoot tracks input.target =
      .ok s.executable
  runtime : s.runtime = (host.canonicalize input.runtimeDir).getD input.runtimeDir
  state : s.state = input.stateDir.getD s.runtime
  resources : s.resources = (input.profile.field "resources").getD (.obj [])
  memory : ∃ amount, s.resources.field "memory" = some amount ∧ memory amount = .ok s.memory
  analysis : analysisPlan input.profile s.machine input.target s.vcpus = .ok s.analysis
  sources : s.sources = { host, components := input.imageComponents, baseDir := input.assetRoot }

theorem checked_setup (h : setup host input = .ok s) : Checked host input s := by
  simp only [setup, bind_eq_ok, object_eq_ok, orInvalid_eq_ok] at h
  obtain ⟨profile, ⟨-, rfl⟩, version, -, _, -, _, -, machine, hmachine, _, -, tracks, htracks,
    executable, hexecutable, resources, ⟨-, rfl⟩, amount, hamount, memory, hmemory, vcpus, -,
    analysis, hanalysis, h⟩ := h
  cases h
  exact ⟨hmachine, ⟨tracks, htracks, hexecutable⟩, rfl, rfl, rfl, ⟨amount, hamount, hmemory⟩,
    hanalysis, rfl⟩

/-- A plan: its checked settings and its vector before and with the sound. -/
structure Planned (host : Host) (input : PlanInput) (plan : LaunchPlan) (s : Setup)
    (base sounding last : List String) : Prop where
  checks : setup host input = .ok s
  sections : baseArgs host input s = .ok (base, plan.preparation)
  sounds : Sounding base (audioSettings input.profile) sounding
  part : Part last
  argv : plan.argv = sounding ++ last

variable {plan : LaunchPlan}

theorem planned_buildPlan (h : buildPlan host input = .ok plan) :
    ∃ s base sounding last, Planned host input plan s base sounding last := by
  simp only [buildPlan, bind_eq_ok] at h
  obtain ⟨s, hs, ⟨base, files⟩, hbase, sounding, hsounding, last, hlast, h⟩ := h
  cases h
  refine ⟨s, base, sounding, last, hs, hbase, sounding_withAudio hsounding, ?_, rfl⟩
  refine part_lastArgs (fun analysis hanalysis => ?_) hlast
  have hplan := (checked_setup hs).analysis
  rw [hanalysis] at hplan
  exact part_analysisArgv hplan

/-! ## Options of a plan -/

/-- The place is the first `-display`. -/
theorem displayAt_spec {l : List String} {place : Nat} (h : displayAt l = some place) :
    l[place]? = some "-display" ∧ ∀ j < place, l[j]? ≠ some "-display" := by
  fun_induction displayAt l generalizing place with
  | case1 b rest =>
    cases h
    exact ⟨rfl, fun j hj => absurd hj (Nat.not_lt_zero j)⟩
  | case2 a b rest ha ih =>
    obtain ⟨k, hk, rfl⟩ := Option.map_eq_some_iff.1 h
    obtain ⟨hplace, hfirst⟩ := ih hk
    refine ⟨hplace, fun j hj => ?_⟩
    cases j with
    | zero => simpa using ha
    | succ j => exact hfirst j (by omega)
  | case3 l hl => cases h

variable {sounding last : List String}

/-- The vector before the sound is the executable and flags with values. -/
theorem Planned.base_args (h : Planned host input plan s base sounding last) :
    ∃ front, base = s.executable :: (front ++
        ["-display", displayOutput (consoleOf (input.profile.field "devices"))] ++
        vsockArgs input s) ∧
      Args (fun flag _ => flag ∈ ["-cpu", "-m"] ++ networkFlags ++ plainFlags) front := by
  obtain ⟨machine, network, rest, hmachine, hnetwork, hrest, hbase⟩ := baseArgs_eq h.sections
  obtain ⟨ports, back, hports, -, hback, rfl⟩ := machineArgs_eq hmachine
  refine ⟨_, hbase, ?_⟩
  have hplain : ∀ {l : List String}, Part l →
      Args (fun flag _ => flag ∈ ["-cpu", "-m"] ++ networkFlags ++ plainFlags) l :=
    fun hl => hl.mono fun flag _ hflag => mem_append_right _ hflag
  refine Args.append (Args.append (.cons (by simp [plainFlags]) (Args.append
    ((hplain hports).append ?_) (.cons (by simp) (hplain hback)))) ?_) (hplain hrest)
  · exact .ite (fun _ => by simp) fun _ => .nil
  · refine (networkPart_networkArgs hnetwork).mono fun flag _ hflag => ?_
    rcases hflag with hflag | hflag
    · exact mem_append_left _ (mem_append_right _ hflag)
    · exact mem_append_right _ hflag

/-- The settings that the sound and what follows it may add. -/
def Added (p : String × String) : Prop :=
  p.1 ∈ plainFlags ∨ startsWith p.1 "dbus," = true ∨
    p.1 = "-display" ∧ startsWith p.2 "dbus," = true

/-- An option of a plan was there before the sound, or was added. -/
theorem Planned.mem_options (h : Planned host input plan s base sounding last)
    {p : String × String} (hp : p ∈ options plan.argv.tail) : p ∈ options base.tail ∨ Added p := by
  obtain ⟨front, hbase, hfront⟩ := h.base_args
  have heven : base.tail.length % 2 = 0 := by
    have hlength := hfront.even
    have hvsock := (part_vsockArgs input s).even
    rw [hbase]
    simp only [tail_cons, length_append, length_cons, length_nil]
    omega
  have hadded : ∀ {more : List String}, Part more → p ∈ options more → Added p :=
    fun hmore hmem => .inl (hmore.of_mem hmem)
  have hcons : base = s.executable :: base.tail := by rw [hbase]; rfl
  rw [h.argv] at hp
  have hsounds := h.sounds
  generalize audioSettings input.profile = audio at hsounds
  cases hsounds with
  | silent _ =>
    rw [hcons, cons_append, tail_cons, Lib.options_append heven, mem_append] at hp
    exact hp.imp_right (hadded h.part)
  | @spice _ more _ hmore =>
    rw [hcons, cons_append, cons_append, tail_cons, append_assoc,
      Lib.options_append heven, mem_append] at hp
    exact hp.imp_right (hadded (hmore.append h.part))
  | @dbus _ place output more _ hplace houtput hmore =>
    rw [hcons, set_cons_succ, cons_append, cons_append, tail_cons,
      append_assoc, Lib.options_append (by rw [length_set]; exact heven), mem_append] at hp
    rcases hp with hp | hp
    · rcases mem_options_of_mem_set hp with hp | ⟨houtput', hflag, hodd⟩ | hflag
      · exact .inl hp
      · obtain ⟨hdisplay, -⟩ := displayAt_spec hplace
        obtain ⟨k, rfl⟩ : ∃ k, place = k + 1 := ⟨place - 1, by omega⟩
        rw [hcons, List.getElem?_cons_succ] at hdisplay
        rw [Nat.add_sub_cancel, hdisplay, Option.some.injEq] at hflag
        exact .inr (.inr (.inr ⟨hflag.symm, houtput' ▸ houtput⟩))
      · exact .inr (.inr (.inl (hflag ▸ houtput)))
    · exact .inr (hadded (hmore.append h.part) hp)

/-- An option that does not follow the text `-display` stays. -/
theorem Planned.mem_options_of_base
    (h : Planned host input plan s base sounding last) (front back : List String)
    {flag : String} (hbase : base = s.executable :: (front ++ flag :: value :: back))
    (hfront : front.length % 2 = 0) (hflag : flag ≠ "-display")
    (hdisplay : (s.executable :: front).getLast? ≠ some "-display") :
    (flag, value) ∈ options plan.argv.tail := by
  have hmem : (flag, value) ∈ options (front ++ flag :: value :: back) := by
    rw [Lib.options_append hfront]
    exact mem_append_right _ mem_cons_self
  rw [h.argv]
  have hsounds := h.sounds
  generalize audioSettings input.profile = audio at hsounds
  cases hsounds with
  | silent _ =>
    rw [hbase, cons_append, tail_cons]
    exact mem_options_append hmem last
  | @spice _ more _ hmore =>
    rw [hbase, append_assoc, cons_append, tail_cons]
    exact mem_options_append hmem (more ++ last)
  | @dbus _ place output more _ hplace houtput hmore =>
    obtain ⟨hat, -⟩ := displayAt_spec hplace
    rw [hbase] at hat
    rw [hbase, set_cons_succ, append_assoc, cons_append, tail_cons]
    refine mem_options_append (mem_options_set hfront ?_ ?_) (more ++ last)
    · -- the flag would follow the text `-display`
      rintro rfl
      apply hdisplay
      rw [← cons_append, List.getElem?_append_left (by simp)] at hat
      rw [List.getLast?_eq_getElem?]
      exact hat
    · -- the flag would be `-display`
      rintro rfl
      rw [List.getElem?_cons_succ, List.getElem?_append_right (Nat.le_refl _), Nat.sub_self,
        List.getElem?_cons_zero, Option.some.injEq] at hat
      exact hflag hat

/-! ## The processor and the memory -/

/-- The processor, the memory and the display are set to what the plan chose. -/
structure Settles (input : PlanInput) (s : Setup) (flag value : String) : Prop where
  cpu : flag = "-cpu" → value = cpuModel input.profile
  memory : flag = "-m" → value = s.memory
  display : flag = "-display" →
    value = displayOutput (consoleOf (input.profile.field "devices"))

theorem settles_of_mem {flag : String} (value : String)
    (h : flag ∈ networkFlags ++ plainFlags) : Settles input s flag value := by
  constructor
  · rintro rfl
    exact absurd h (by decide)
  · rintro rfl
    exact absurd h (by decide)
  · rintro rfl
    exact absurd h (by decide)

theorem settles_part (h : Part argv) : Args (Settles input s) argv :=
  h.mono fun _ value hflag => settles_of_mem value (mem_append_right _ hflag)

theorem Planned.settles (h : Planned host input plan s base sounding last) :
    Args (Settles input s) base.tail := by
  obtain ⟨machine, network, rest, hmachine, hnetwork, hrest, hbase⟩ := baseArgs_eq h.sections
  obtain ⟨ports, back, hports, -, hback, rfl⟩ := machineArgs_eq hmachine
  rw [hbase, tail_cons]
  refine Args.append (Args.append (Args.append (Args.append (.cons ?_ (Args.append
    ((settles_part hports).append ?_) (.cons ?_ (settles_part hback)))) ?_) (settles_part hrest))
    (.cons ?_ .nil)) (settles_part (part_vsockArgs input s))
  · exact settles_of_mem _ (by decide)
  · exact .ite (fun _ => .cons ⟨fun _ => rfl, by simp, by simp⟩ .nil) fun _ => .nil
  · exact ⟨by simp, fun _ => rfl, by simp⟩
  · exact (networkPart_networkArgs hnetwork).mono fun _ value hflag =>
      settles_of_mem value (mem_append.2 hflag)
  · exact ⟨by simp, by simp, fun _ => rfl⟩

theorem not_added (flag : String) (hplain : flag ∉ plainFlags)
    (hstart : startsWith flag "dbus," = false) (hdisplay : flag ≠ "-display") (value : String) :
    ¬ Added (flag, value) := by
  rintro (h | h | ⟨h, -⟩)
  · exact hplain h
  · rw [hstart] at h
    cases h
  · exact hdisplay h

section Chosen

variable {host : Host} {input : PlanInput} {plan : LaunchPlan} {s : Setup}
  {base sounding last : List String} (h : Planned host input plan s base sounding last)

include h

theorem Planned.cpu_eq (hmem : ("-cpu", value) ∈ options plan.argv.tail) :
    value = cpuModel input.profile :=
  have hnot := not_added "-cpu" (by decide) (by decide) (by decide) value
  (h.settles.of_mem ((h.mem_options hmem).resolve_right hnot)).cpu rfl

theorem Planned.memory_eq (hmem : ("-m", value) ∈ options plan.argv.tail) : value = s.memory :=
  have hnot := not_added "-m" (by decide) (by decide) (by decide) value
  (h.settles.of_mem ((h.mem_options hmem).resolve_right hnot)).memory rfl

/-- The processor model of a plan, on a machine that has one. -/
theorem Planned.mem_cpu (hmachine : s.machine ≠ "udm-pro")
    (harg : machineArg input.profile s ≠ "-display") :
    ("-cpu", cpuModel input.profile) ∈ options plan.argv.tail := by
  obtain ⟨machine, network, rest, hargs, -, -, hbase⟩ := baseArgs_eq h.sections
  obtain ⟨ports, back, hports, hdisplay, -, rfl⟩ := machineArgs_eq hargs
  rw [if_pos (.inl hmachine)] at hbase
  have heven : ("-machine" :: machineArg input.profile s :: ports).length % 2 = 0 := by
    have := hports.even
    simp only [length_cons]
    omega
  refine h.mem_options_of_base ("-machine" :: machineArg input.profile s :: ports)
    ("-m" :: s.memory :: (back ++ network ++ rest ++
      ["-display", displayOutput (consoleOf (input.profile.field "devices"))] ++
      vsockArgs input s)) ?_ heven (by decide) ?_
  · rw [hbase]
    simp only [cons_append, append_assoc, nil_append]
  rw [List.getLast?_cons_cons, List.getLast?_cons_cons]
  intro hlast
  rcases mem_cons.1 (mem_of_getLast? hlast) with heq | hmem
  · exact harg heq.symm
  · exact hdisplay hmem

/-- The memory of a plan. -/
theorem Planned.mem_memory (hcpu : cpuModel input.profile ≠ "-display")
    (harg : machineArg input.profile s ≠ "-display") :
    ("-m", s.memory) ∈ options plan.argv.tail := by
  obtain ⟨machine, network, rest, hargs, -, -, hbase⟩ := baseArgs_eq h.sections
  obtain ⟨ports, back, hports, hdisplay, -, rfl⟩ := machineArgs_eq hargs
  have hfront : Part ("-machine" :: machineArg input.profile s :: ports) :=
    .cons (by decide) hports
  have hmodel : ∀ cpu : List String,
      cpu = (if s.machine ≠ "udm-pro" ∨ (input.profile.field "cpu").isSome then
        ["-cpu", cpuModel input.profile] else []) →
      cpu.length % 2 = 0 ∧ "-display" ∉ cpu := by
    rintro cpu rfl
    split
    · simp [hcpu.symm]
    · simp
  generalize (if s.machine ≠ "udm-pro" ∨ (input.profile.field "cpu").isSome then
    ["-cpu", cpuModel input.profile] else []) = cpu at hbase hmodel
  obtain ⟨heven, hcpu⟩ := hmodel cpu rfl
  refine h.mem_options_of_base ("-machine" :: machineArg input.profile s :: (ports ++ cpu))
    (back ++ network ++ rest ++
      ["-display", displayOutput (consoleOf (input.profile.field "devices"))] ++
      vsockArgs input s) ?_ ?_ (by decide) ?_
  · rw [hbase]
    simp only [cons_append, append_assoc]
  · have := hfront.even
    simp only [length_cons, length_append] at this ⊢
    omega
  · rw [List.getLast?_cons_cons, List.getLast?_cons_cons]
    intro hlast
    rcases mem_cons.1 (mem_of_getLast? hlast) with heq | hmem
    · exact harg heq.symm
    · rcases mem_append.1 hmem with hmem | hmem
      · exact hdisplay hmem
      · exact hcpu hmem

end Chosen

end Sections

end MachineEmu.Planner
