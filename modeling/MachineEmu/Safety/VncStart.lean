import MachineEmu.Api.Render
import MachineEmu.Engine.Sections

/-!
# Starting a plan with an automatic VNC port

When a machine with a VNC console is started, the display of its rendered vector is found by its text
and gets a free port. Sound over D-Bus replaces the argument after the first `-display` of the vector
by a D-Bus display.

1. The vector before the sound has one VNC display: `vncPair_iff`.
2. Replacing an argument takes a VNC display away only where it stands: `vncPair_set`.
3. Where the first `-display` stands: `mem_before_iff`.
4. When a plan can be started: `rendered_vnc`.
-/

namespace MachineEmu.Planner

open Lib List Option

/-! ## Finding the display -/

/-- A VNC display stands at a place. -/
def VncPair (argv : List String) (place : Nat) : Prop :=
  argv[place]? = some "-display" ∧ ∃ setting, argv[place + 1]? = some setting ∧ isVnc setting = true

section Places

variable {argv : List String} {place : Nat}

@[simp] theorem vncPair_succ {a : String} : VncPair (a :: argv) (place + 1) ↔ VncPair argv place :=
  Iff.rfl

@[simp] theorem vncPair_zero {a b : String} :
    VncPair (a :: b :: argv) 0 ↔ a = "-display" ∧ isVnc b = true := by
  simp [VncPair]

theorem not_vncPair_of_short (h : argv.length ≤ 1) : ¬ VncPair argv place := by
  rintro ⟨-, setting, hsetting, -⟩
  have := (List.getElem?_eq_some_iff.1 hsetting).1
  omega

theorem vncPlace_eq_none : vncPlace argv = none ↔ ∀ place, ¬ VncPair argv place := by
  fun_induction vncPlace argv with
  | case1 a b rest h => simpa using ⟨0, vncPair_zero.2 h⟩
  | case2 a b rest h ih =>
    rw [map_eq_none_iff, ih]
    constructor
    · intro hrest place
      cases place with
      | zero => exact fun hpair => h (vncPair_zero.1 hpair)
      | succ place => exact hrest place
    · exact fun hall place => hall (place + 1)
  | case3 argv hargv =>
    refine ⟨fun _ place => not_vncPair_of_short ?_, fun _ => rfl⟩
    match argv with
    | [] => exact Nat.zero_le _
    | [_] => exact Nat.le_refl _
    | a :: b :: rest => exact absurd rfl (hargv a b rest)

theorem vncPair_of_vncPlace (h : vncPlace argv = some place) : VncPair argv place := by
  fun_induction vncPlace argv generalizing place with
  | case1 a b rest hpair =>
    cases h
    exact vncPair_zero.2 hpair
  | case2 a b rest hpair ih =>
    obtain ⟨place, hplace, rfl⟩ := map_eq_some_iff.1 h
    exact ih hplace
  | case3 argv hargv => cases h

/-- A display that is the only one is found. -/
theorem vncPlace_of_unique (h : ∀ other, VncPair argv other ↔ other = place) :
    vncPlace argv = some place := by
  cases hplace : vncPlace argv with
  | none => exact absurd ((h place).2 rfl) (vncPlace_eq_none.1 hplace place)
  | some other => rw [(h other).1 (vncPair_of_vncPlace hplace)]

/-- A display stays exactly where neither part of it is replaced. -/
theorem vncPair_set {k : Nat} {output : String} (hk : k < argv.length)
    (hvnc : isVnc output = false) (hne : output ≠ "-display") :
    VncPair (argv.set k output) place ↔ VncPair argv place ∧ k ≠ place ∧ k ≠ place + 1 := by
  unfold VncPair
  rw [List.getElem?_set, List.getElem?_set]
  by_cases hplace : k = place
  · subst hplace
    simp [hk, hne]
  · by_cases hnext : k = place + 1
    · subst hnext
      simp [hk, hvnc]
    · simp [hplace, hnext]

end Places

/-- A flag that is no display. -/
def Quiet (flag : String) : Prop := isVnc flag = false ∧ flag ≠ "-display"

/-- A vector with one display of its own has no other. -/
theorem vncPair_iff {x setting : String} {front back : List String} (hvnc : isVnc setting = true)
    (hfront : Args (fun flag _ => Quiet flag) front) (hback : Args (fun flag _ => Quiet flag) back)
    {place : Nat} :
    VncPair (x :: (front ++ "-display" :: setting :: back)) place ↔ place = front.length + 1 := by
  have hrest : ∀ (x : String) (place : Nat), ¬ VncPair (x :: back) place := by
    induction hback with
    | nil => exact fun x place => not_vncPair_of_short (Nat.le_refl _)
    | @cons flag value rest hflag _ ih =>
      intro x place
      match place with
      | 0 => simp [hflag.1]
      | 1 => simp [hflag.2]
      | place + 2 => exact ih value place
  induction hfront generalizing x place with
  | nil =>
    match place with
    | 0 => simp [show isVnc "-display" = false by decide]
    | 1 => simp [hvnc]
    | place + 2 => simp [hrest setting place]
  | @cons flag value rest hflag _ ih =>
    match place with
    | 0 => simp [hflag.1]
    | 1 => simp [hflag.2]
    | place + 2 => simpa using @ih value place

/-! ## Where the text of the display stands -/

section Texts

variable {argv : List String}

theorem exists_digit (n : Int) : ∃ c ∈ (toString n).toList, c.isDigit = true := by
  have hnat : ∀ n : Nat, ∃ c ∈ n.repr.toList, c.isDigit = true := fun n => by
    obtain ⟨c, hc⟩ := exists_mem_of_ne_nil _ (toList_toString_ne_nil n)
    exact ⟨c, hc, isDigit_of_mem_toString hc⟩
  cases n with
  | ofNat n => exact hnat n
  | negSucc n =>
    obtain ⟨c, hc, hdigit⟩ := hnat (n + 1)
    refine ⟨c, ?_, hdigit⟩
    simp only [toString, Int.repr, String.toList_append]
    exact mem_append_right _ hc

variable {value : String}

theorem ne_of_digit (h : ∃ c ∈ value.toList, c.isDigit = true) : "-display" ≠ value := by
  rintro rfl
  simp at h

theorem mem_joinWith {separator first : String} {rest : List String} {c : Char}
    (h : c ∈ first.toList) : c ∈ (joinWith separator (first :: rest)).toList := by
  unfold joinWith
  cases rest with
  | nil => rwa [String.intercalate_singleton]
  | cons second rest =>
    rw [String.intercalate_cons_cons]
    simp [h]

theorem memory_ne {amount : Json} (h : memory amount = .ok value) : "-display" ≠ value := by
  have htext : ∀ raw, memoryText raw = .ok value → "-display" ≠ value := by
    intro raw h
    unfold memoryText at h
    split at h
    · exact absurd h invalid_ne_ok
    · rename_i hdigits
      split at h
      · exact absurd h invalid_ne_ok
      · rw [not_or] at hdigits
        obtain ⟨c, hc⟩ := exists_mem_of_ne_nil (digitsOf raw) hdigits.1
        rw [← Except.ok.inj h]
        refine ne_of_digit ⟨c, ?_, (mem_filter.1 hc).2⟩
        simp [hc]
  unfold memory at h
  split at h
  · exact htext _ h
  · exact htext _ h
  · cases h

theorem smp_ne {resources : Json} {vcpus : Int}
    (h : smp resources vcpus = .ok value) : "-display" ≠ value := by
  obtain ⟨c, hc, hdigit⟩ := exists_digit vcpus
  unfold smp at h
  split at h
  · cases h
    exact ne_of_digit ⟨c, hc, hdigit⟩
  · simp only [bind_eq_ok] at h
    obtain ⟨_, -, parts, -, h⟩ := h
    cases h
    exact ne_of_digit ⟨c, mem_joinWith hc, hdigit⟩

theorem pidfile_ne (runtime : String) : "-display" ≠ joinPath runtime "control/qemu.pid" := by
  refine ne_of_mem '/' (by decide) ?_
  unfold joinPath
  split
  · decide
  · split <;> simp

variable {profile : Json} {s : Setup}

/-- The text stands in the arguments of the machine only as its name or as its processor. -/
theorem mem_machineArgs_iff (hmemory : "-display" ≠ s.memory)
    (h : machineArgs profile s = .ok argv) : "-display" ∈ argv ↔
      machineArg profile s = "-display" ∨ (s.machine ≠ "udm-pro" ∨ (profile.field "cpu").isSome) ∧
        cpuModel profile = "-display" := by
  simp only [machineArgs, bind_eq_ok] at h
  obtain ⟨accel, haccel, smp, hsmp, h⟩ := h
  cases h
  have hqmp : "-display" ≠ "unix:" ++ joinPath s.runtime "sockets/qmp.sock" ++
      ",server=on,wait=off" := ne_of_mem ',' (by decide) (by simp)
  have hpid := pidfile_ne s.runtime
  have hcpu : "-display" ∈ (if s.machine ≠ "udm-pro" ∨ (profile.field "cpu").isSome then
      ["-cpu", cpuModel profile] else []) ↔ (s.machine ≠ "udm-pro" ∨
        (profile.field "cpu").isSome) ∧ cpuModel profile = "-display" := by
    split
    · rename_i hcpu
      simp [hcpu, eq_comm (a := "-display")]
    · rename_i hcpu
      simp [hcpu]
  simp only [mem_append, hcpu, not_mem_rootPorts, (part_accelArgs haccel).2, or_false]
  simp [hmemory, smp_ne hsmp, hqmp, hpid, eq_comm (a := "-display")]

theorem not_mem_network {v : Option Json} {nic helper address : Option String}
    (h : network v nic helper address = .ok argv) : "-display" ∉ argv := by
  simp only [network, bind_eq_ok] at h
  obtain ⟨mac, -, h⟩ := h
  have hdevice : "-display" ≠ nic.getD "virtio-net-pci" ++ ",netdev=net0" ++ mac :=
    ne_of_mem ',' (by decide) (by simp)
  split at h
  · cases h
    decide
  · split at h
    · cases h
      simp [hdevice]
    · split at h
      · simp only [bind_eq_ok] at h
        obtain ⟨bridge, -, h⟩ := h
        cases h
        have hbackend : "-display" ≠ "bridge,id=net0,br=" ++ bridge ++ option "helper" helper :=
          ne_of_mem ',' (by decide) (by simp)
        simp [hdevice, hbackend]
      · cases h

theorem portBackend_ne {port : Json} {index : Nat} {helper : Option String}
    (h : portBackend port index helper = .ok value) : "-display" ≠ value := by
  simp only [portBackend, bind_eq_ok] at h
  obtain ⟨kind, -, h⟩ := h
  split at h
  · cases h
    exact ne_of_mem ',' (by decide) (by simp)
  · split at h
    · cases h
      exact ne_of_mem ',' (by decide) (by simp)
    · split at h
      · simp only [bind_eq_ok] at h
        obtain ⟨bridge, -, h⟩ := h
        split at h
        · cases h
        · cases h
          exact ne_of_mem ',' (by decide) (by simp)
      · cases h

theorem not_mem_udmPorts {helper address : Option String} {index : Nat} {ports : List Json}
    (h : udmPorts helper address index ports = .ok argv) : "-display" ∉ argv := by
  induction ports generalizing index argv with
  | nil =>
    cases h
    exact not_mem_nil
  | cons port rest ih =>
    simp only [udmPorts, bind_eq_ok] at h
    obtain ⟨port, -, backend, hbackend, mac, -, more, hmore, h⟩ := h
    cases h
    have hnic : ∀ id : String, "-display" ≠ "nic,model=alpine-eth-pci,netdev=udm-port" ++ id ++
        ",macaddr=" ++ mac := fun _ => ne_of_mem ',' (by decide) (by simp)
    simp [portBackend_ne hbackend, hnic, ih hmore]

theorem not_mem_networkArgs {input : PlanInput}
    (h : networkArgs input s = .ok argv) : "-display" ∉ argv := by
  unfold networkArgs at h
  split at h
  · unfold udmNetwork at h
    split at h
    · simp only [bind_eq_ok] at h
      obtain ⟨ports, -, more, hmore, h⟩ := h
      cases h
      simp [not_mem_udmPorts hmore]
    · dsimp only at h
      split at h
      · cases h
        decide
      · simp only [bind_eq_ok] at h
        obtain ⟨backend, -, mac, -, h⟩ := h
        cases h
        have hnic : "-display" ≠ backend ++ ",model=alpine-eth-pci" ++ option "mac" mac :=
          ne_of_mem ',' (by decide) (by simp)
        simp [hnic]
  · exact not_mem_network h

theorem not_mem_seedArgs {host : Host} {seed : Option String}
    (h : seedArgs host seed = .ok argv) : "-display" ∉ argv := by
  cases seed with
  | none =>
    cases h
    exact not_mem_nil
  | some seed =>
    simp only [seedArgs, bind_eq_ok] at h
    obtain ⟨_, -, h⟩ := h
    cases h
    have hdrive : "-display" ≠ "file=" ++ seed ++ ",media=cdrom,readonly=on" :=
      ne_of_mem ',' (by decide) (by simp)
    simp [hdrive]

theorem not_mem_firmware {v : Option Json} {sources : SourceResolver} {state : String}
    {nvram : Option PreparationFile} (h : firmware v sources state = .ok (argv, nvram)) :
    "-display" ∉ argv := by
  unfold firmware at h
  split at h
  · cases h
    exact not_mem_nil
  · simp only [bind_eq_ok] at h
    obtain ⟨x, -, loader, -, loader, -, nvram, -, nvram, -, code, -, seed, -, h⟩ := h
    split at h
    · cases h
    · cases h
      have hcode : ∀ readonly : String, "-display" ≠ "if=pflash,format=raw,unit=0,readonly=" ++
          readonly ++ ",file=" ++ code := fun _ => ne_of_mem ',' (by decide) (by simp)
      have hvars : "-display" ≠ "if=pflash,format=raw,unit=1,file=" ++
          joinPath state (nvramName nvram) := ne_of_mem ',' (by decide) (by simp)
      rw [mem_append, not_or]
      refine ⟨by simp [hcode, hvars], ?_⟩
      split <;> decide

theorem diskDevice_ne {bus device : String} {legacy : Bool}
    (h : diskDevice bus legacy = some device) (identity : String) :
    "-display" ≠ device ++ identity := by
  refine ne_of_mem ',' (by decide) ?_
  unfold diskDevice at h
  split at h
  · cases h
    simp
  · split at h
    · cases h
      simp
    · split at h
      · cases h
        simp
      · cases h

theorem not_mem_udmDisk {v : Json} {sources : SourceResolver} {role id : String}
    (h : udmDisk v sources role id = .ok argv) : "-display" ∉ argv := by
  simp only [udmDisk, bind_eq_ok] at h
  obtain ⟨disk, -, _, -, disk, -, path, -, h⟩ := h
  cases h
  have hdrive : "-display" ≠ "file=" ++ escapeProp path ++ ",if=none,format=raw,id=" ++ id ++
      ",snapshot=on" := ne_of_mem ',' (by decide) (by simp)
  simp [hdrive]

theorem not_mem_storageArgs {overlay : Option DiskPreparation}
    (h : storageArgs profile s = .ok (argv, overlay)) : "-display" ∉ argv := by
  unfold storageArgs at h
  split at h
  · simp only [udmStorage, bind_eq_ok] at h
    obtain ⟨both, ⟨v, -, v, -, boot, hboot, spi, hspi, hboth⟩, h⟩ := h
    cases hboth
    cases h
    simp [not_mem_udmDisk hboot, not_mem_udmDisk hspi]
  · unfold storage at h
    split at h
    · cases h
      exact not_mem_nil
    · simp only [bind_eq_ok, orInvalid_eq_ok] at h
      obtain ⟨x, -, _, -, disk, -, disk, -, _, -, backing, -, _, -, _, -, _, -, _, -, _, -, _, -, _,
        -, size, -, drive, -, device, hdevice, h⟩ := h
      cases h
      rw [mem_append, not_or]
      refine ⟨by split <;> decide, ?_⟩
      have hdrive : ∀ more : String, "-display" ≠ "if=none,id=pc-disk,file=" ++ more :=
        fun _ => ne_of_mem ',' (by decide) (by simp)
      simp [diskDevice_ne hdevice, hdrive, String.append_assoc]

theorem not_mem_tpmArgs (h : tpmArgs profile s = .ok argv) : "-display" ∉ argv := by
  unfold tpmArgs at h
  split at h
  · cases h
    exact not_mem_nil
  · simp only [tpm, bind_eq_ok] at h
    obtain ⟨x, -, _, -, _, -, h⟩ := h
    cases h
    have hchardev : "-display" ≠ "socket,id=chrtpm,path=" ++ tpmSocket s :=
      ne_of_mem ',' (by decide) (by simp)
    have hdevice : ∀ model : String, "-display" ≠ model ++ ",tpmdev=tpm0" :=
      fun _ => ne_of_mem ',' (by decide) (by simp)
    simp [hchardev, hdevice]

end Texts

/-- The text `-display` stands before the display of a plan, and not as the last argument before it:
as the executable, the machine or the processor, or as a file or the command line that is booted. -/
inductive Shadowed (input : PlanInput) (s : Setup) : Prop
  | executable : s.executable = "-display" → Shadowed input s
  | machine : machineArg input.profile s = "-display" → Shadowed input s
  | cpu : s.machine ≠ "udm-pro" ∨ (input.profile.field "cpu").isSome →
      cpuModel input.profile = "-display" → Shadowed input s
  | boot {boot : List String} : directBoot (input.profile.field "boot") s.sources = .ok boot →
      "-display" ∈ boot.dropLast → Shadowed input s
  | last {boot storage tpm devices' : List String} {overlay : Option DiskPreparation} :
      directBoot (input.profile.field "boot") s.sources = .ok boot → "-display" ∈ boot →
      storageArgs input.profile s = .ok (storage, overlay) → tpmArgs input.profile s = .ok tpm →
      devices (input.profile.field "devices") s.runtime = .ok devices' →
      2 < (storage ++ tpm ++ devices').length → Shadowed input s

/-- What stands before the last member, where it is not the last of the first part. -/
theorem mem_dropLast_append {α : Type} {a : α} {l m : List α} (h : l.getLast? ≠ some a) :
    a ∈ (l ++ m).dropLast ↔ a ∈ l ∨ a ∈ m.dropLast := by
  cases m with
  | nil =>
    rw [append_nil, dropLast_nil, or_iff_left not_mem_nil]
    refine ⟨mem_of_mem_dropLast, fun hmem => ?_⟩
    rcases eq_nil_or_concat l with rfl | ⟨l, b, rfl⟩
    · cases hmem
    · rw [concat_eq_append] at h hmem ⊢
      rw [List.getLast?_concat] at h
      rw [dropLast_concat]
      rcases mem_append.1 hmem with hmem | hmem
      · exact hmem
      · exact absurd (congrArg some (mem_singleton.1 hmem).symm) h
  | cons b m => rw [dropLast_append_of_ne_nil (cons_ne_nil b m), mem_append]

theorem mem_dropLast_append_of_notMem {α : Type} {a : α} {l m : List α} (h : a ∉ m) :
    a ∈ (l ++ m).dropLast ↔ a ∈ l.dropLast ∨ a ∈ l ∧ m ≠ [] := by
  cases m with
  | nil => simp
  | cons b m =>
    rw [dropLast_append_of_ne_nil (cons_ne_nil b m), mem_append,
      or_iff_left fun hmem => h (mem_of_mem_dropLast hmem)]
    simpa using fun hmem => mem_of_mem_dropLast hmem

variable {argv : List String}

theorem quiet_of_part (h : Part argv) : Args (fun flag _ => Quiet flag) argv := by
  have hquiet : ∀ flag ∈ plainFlags, Quiet flag := by
    unfold Quiet
    decide
  exact h.mono fun flag _ hflag => hquiet flag hflag

theorem quiet_networkArgs {input : PlanInput} {s : Setup}
    (h : networkArgs input s = .ok argv) : Args (fun flag _ => Quiet flag) argv := by
  have hquiet : ∀ flag ∈ networkFlags ++ plainFlags, Quiet flag := by
    unfold Quiet
    decide
  exact (networkPart_networkArgs h).mono fun flag _ hflag =>
    hquiet flag (mem_append.2 hflag)

theorem quiet_machineArgs {profile : Json} {s : Setup}
    (h : machineArgs profile s = .ok argv) : Args (fun flag _ => Quiet flag) argv := by
  have hquiet : ∀ flag ∈ ["-machine", "-cpu", "-m"], Quiet flag := by
    unfold Quiet
    decide
  obtain ⟨ports, back, hports, -, hback, rfl⟩ := machineArgs_eq h
  refine .cons (hquiet _ (by simp)) (.append (.append (quiet_of_part hports) ?_)
    (.cons (hquiet _ (by simp)) (quiet_of_part hback)))
  exact .ite (fun _ => .cons (hquiet _ (by simp)) .nil) fun _ => .nil

theorem getLast?_machineArgs {profile : Json} {s : Setup} (h : machineArgs profile s = .ok argv) :
    argv.getLast? = some (joinPath s.runtime "control/qemu.pid") := by
  simp only [machineArgs, bind_eq_ok] at h
  obtain ⟨accel, -, smp, -, h⟩ := h
  cases h
  rw [List.getLast?_append]
  rfl

/-- Where the text stands before the display. -/
theorem mem_before_iff {host : Host} {input : PlanInput} {s : Setup} {base : List String}
    {files : Preparation} (hmemory : "-display" ≠ s.memory)
    (h : baseArgs host input s = .ok (base, files)) :
    ∃ front, Args (fun flag _ => Quiet flag) front ∧
      base = s.executable :: (front ++
        ["-display", displayOutput (consoleOf (input.profile.field "devices"))] ++
        vsockArgs input s) ∧
      ("-display" ∈ (s.executable :: front).dropLast ↔ Shadowed input s) := by
  simp only [baseArgs, bind_eq_ok] at h
  obtain ⟨machine, hmachine, network, hnetwork, seed, hseed, ⟨fw, nvram⟩, hfw, _, -, boot, hboot,
    ⟨storage, overlay⟩, hstorage, tpm, htpm, devices', hdevices, h⟩ := h
  cases h
  obtain ⟨shown, hshown, hnot, hdevices'⟩ := devices_eq hdevices
  refine ⟨machine ++ network ++ seed ++ fw ++ (boot ++ (storage ++ tpm ++ shown)), ?_, ?_, ?_⟩
  · exact ((((quiet_machineArgs hmachine).append (quiet_networkArgs hnetwork)).append
      (quiet_of_part (part_seedArgs hseed))).append (quiet_of_part (part_firmware hfw))).append
      ((quiet_of_part (part_directBoot hboot)).append (((quiet_of_part
        (part_storageArgs hstorage)).append (quiet_of_part (part_tpmArgs htpm))).append
        (quiet_of_part hshown)))
  · rw [hdevices']
    simp only [append_assoc]
  -- the text is neither in the sections between the machine and the boot nor after the boot
  have hmiddle : "-display" ∉ network ++ seed ++ fw := by
    simp [not_mem_networkArgs hnetwork, not_mem_seedArgs hseed, not_mem_firmware hfw]
  have hback : "-display" ∉ storage ++ tpm ++ shown := by
    simp [not_mem_storageArgs hstorage, not_mem_tpmArgs htpm, hnot]
  have hlast : (s.executable :: (machine ++ (network ++ seed ++ fw))).getLast? ≠
      some "-display" := by
    rw [← cons_append, List.getLast?_append]
    cases hend : (network ++ seed ++ fw).getLast? with
    | none =>
      have hne : machine ≠ [] := by
        rintro rfl
        cases getLast?_machineArgs hmachine
      rw [none_or, List.getLast?_cons_of_ne_nil hne, getLast?_machineArgs hmachine]
      exact fun heq => pidfile_ne s.runtime (Option.some.inj heq).symm
    | some value =>
      rintro ⟨⟩
      exact hmiddle (mem_of_getLast? hend)
  have hassoc : s.executable :: (machine ++ network ++ seed ++ fw ++
      (boot ++ (storage ++ tpm ++ shown))) =
      s.executable :: (machine ++ (network ++ seed ++ fw)) ++
        (boot ++ (storage ++ tpm ++ shown)) := by
    simp only [append_assoc, cons_append]
  rw [hassoc, mem_dropLast_append hlast, mem_dropLast_append_of_notMem hback, mem_cons,
    mem_append, or_iff_left hmiddle, mem_machineArgs_iff hmemory hmachine]
  constructor
  · rintro ((hexecutable | hname | ⟨hcpu, hmodel⟩) | hboot' | ⟨hboot', hne⟩)
    · exact .executable hexecutable.symm
    · exact .machine hname
    · exact .cpu hcpu hmodel
    · exact .boot hboot hboot'
    · refine .last hboot hboot' hstorage htpm hdevices ?_
      have := length_pos_iff.2 hne
      rw [hdevices']
      simp only [length_append, length_cons, length_nil] at this ⊢
      omega
  · rintro (hexecutable | hname | ⟨hcpu, hmodel⟩ | ⟨hboot', hmem⟩ |
      ⟨hboot', hmem, hstorage', htpm', hdevices'', hlength⟩)
    · exact .inl (.inl hexecutable.symm)
    · exact .inl (.inr (.inl hname))
    · exact .inl (.inr (.inr ⟨hcpu, hmodel⟩))
    · rw [hboot] at hboot'
      cases hboot'
      exact .inr (.inl hmem)
    · rw [hboot] at hboot'
      rw [hstorage] at hstorage'
      rw [htpm] at htpm'
      rw [hdevices] at hdevices''
      cases hboot'
      cases hstorage'
      cases htpm'
      cases hdevices''
      refine .inr (.inr ⟨hmem, length_pos_iff.1 ?_⟩)
      rw [hdevices'] at hlength
      simp only [length_append, length_cons, length_nil] at hlength ⊢
      omega


/-! ## Starting -/

/-- The options of a display: from the first comma on. -/
def settingOptions (setting : String) : String :=
  String.ofList (setting.toList.dropWhile (· ≠ ','))

/-- A vector can be started: whichever ports are free, if one is in the range, the display gets a
free one of the range and keeps its options, and no other argument changes. -/
def Launchable (argv : List String) : Prop :=
  ∃ place setting, argv[place]? = some "-display" ∧ argv[place + 1]? = some setting ∧
    isVnc setting = true ∧
    ∀ free : Nat → Bool, (∃ port, 5900 ≤ port ∧ port ≤ 5999 ∧ free port = true) →
      ∃ port, 5900 ≤ port ∧ port ≤ 5999 ∧ free port = true ∧
        refreshVncPort free argv true = .ok (some port,
          argv.set (place + 1)
            ("vnc=127.0.0.1:" ++ toString (port - 5900) ++ settingOptions setting))

theorem mem_vncPorts {port : Nat} : port ∈ vncPorts ↔ 5900 ≤ port ∧ port ≤ 5999 := by
  unfold vncPorts
  rw [mem_range'_1]
  omega

/-- A vector whose only display is the one that the planner writes can be started. -/
theorem launchable_of_unique {place : Nat} (h : ∀ other, VncPair argv other ↔ other = place)
    (hsetting : argv[place + 1]? = some "vnc=:0") : Launchable argv := by
  refine ⟨place, "vnc=:0", ((h place).2 rfl).1, hsetting, by decide, fun free hfree => ?_⟩
  obtain ⟨port, hlow, hhigh, hport⟩ := hfree
  have hsome : (vncPorts.find? free).isSome = true :=
    List.find?_isSome.2 ⟨port, mem_vncPorts.2 ⟨hlow, hhigh⟩, hport⟩
  obtain ⟨candidate, hcandidate⟩ := isSome_iff_exists.1 hsome
  obtain ⟨hlow, hhigh⟩ := mem_vncPorts.1 (mem_of_find?_eq_some hcandidate)
  refine ⟨candidate, hlow, hhigh, List.find?_some hcandidate, ?_⟩
  have hsplit : splitDisplay (vncTail "vnc=:0") = (['0'], []) := by decide
  have hoptions : settingOptions "vnc=:0" = "" := by decide
  have hparse : parseUnsigned 65536 ['0'] = some 0 := by decide
  unfold refreshVncPort
  rw [vncPlace_of_unique h]
  simp [getD_eq_getElem?_getD, hsetting, hsplit, hparse, orInvalid, ensure, hcandidate,
    vncSetting, hoptions, bind, Except.bind]

theorem not_launchable (h : ∀ place, ¬ VncPair argv place) : ¬ Launchable argv := by
  rintro ⟨place, setting, hdisplay, hsetting, hvnc, -⟩
  exact h place ⟨hdisplay, setting, hsetting, hvnc⟩

/-! ## Rendered plans -/

theorem consoleOf_of_vncAuto {profile : Json} (h : vncAuto profile = true) :
    consoleOf (profile.field "devices") = "vnc" := by
  unfold vncAuto at h
  unfold consoleOf consoleType
  cases hdevices : profile.field "devices" with
  | none =>
    rw [hdevices] at h
    simp at h
  | some devices =>
    rw [hdevices, bind_some, decide_eq_true_eq] at h
    rw [getD_some, h]
    rfl

theorem displayAt_lt {l : List String} {place : Nat} (h : displayAt l = some place) :
    place + 1 < l.length := by
  fun_induction displayAt l generalizing place with
  | case1 b rest =>
    cases h
    simp
  | case2 a b rest ha ih =>
    obtain ⟨k, hk, rfl⟩ := map_eq_some_iff.1 h
    have := ih hk
    simp only [length_cons] at this ⊢
    omega
  | case3 l hl => cases h

/-- The first `-display` stands before the last argument of a front part exactly when the part
without its last argument has the text. -/
theorem displayAt_lt_iff {front back : List String} {place : Nat}
    (h : displayAt (front ++ back) = some place) :
    place + 1 < front.length ↔ "-display" ∈ front.dropLast := by
  obtain ⟨hplace, hfirst⟩ := displayAt_spec h
  constructor
  · intro hlt
    rw [List.getElem?_append_left (by omega)] at hplace
    refine mem_of_getElem? (i := place) ?_
    rw [List.getElem?_dropLast, if_pos (by omega)]
    exact hplace
  · intro hmem
    obtain ⟨j, hj⟩ := mem_iff_getElem?.1 hmem
    rw [List.getElem?_dropLast] at hj
    split at hj
    · rename_i hlt
      by_contra hge
      refine hfirst j (by omega) ?_
      rw [List.getElem?_append_left (by omega)]
      exact hj
    · cases hj

/-- A D-Bus display is no VNC display. -/
theorem not_vnc_of_dbus {output : String} (h : startsWith output "dbus," = true) :
    isVnc output = false ∧ output ≠ "-display" := by
  unfold startsWith at h
  obtain ⟨rest, hrest⟩ := of_decide_eq_true h
  constructor
  · unfold isVnc startsWith
    rw [← hrest]
    simp
  · rintro rfl
    simp at hrest

/-- Sound over D-Bus. -/
def SoundOverDbus (profile : Json) : Prop :=
  ∃ id, audioBackend (audioSettings profile) = .ok (some ("dbus", id))

/-- A plan with an automatic VNC port can be started exactly when its sound is not over D-Bus, or the
text `-display` is mistaken for the display. -/
theorem rendered_vnc {host : Host} {root instanceId : String} {spec : Json} {launch : LaunchSpec}
    (h : renderDomainLaunchPlan host root instanceId spec = .ok launch)
    (hauto : launch.vncAuto = true) :
    ∃ input s, renderInput root instanceId spec = .ok input ∧ setup host input = .ok s ∧
      (Launchable launch.argv ↔ ¬ SoundOverDbus input.profile ∨ Shadowed input s) := by
  obtain ⟨input, plan, hinput, hplan, hargv, hvnc⟩ := rendered_eq_ok h
  obtain ⟨s, base, sounding, last, hplanned⟩ := planned_buildPlan hplan
  refine ⟨input, s, hinput, hplanned.checks, ?_⟩
  obtain ⟨amount, -, hmemory⟩ := (checked_setup hplanned.checks).memory
  obtain ⟨front, hfront, hbase, hbefore⟩ := mem_before_iff (memory_ne hmemory) hplanned.sections
  rw [hvnc] at hauto
  rw [consoleOf_of_vncAuto hauto] at hbase
  rw [← hbefore, hargv, hplanned.argv]
  -- the vector without the change of the display has one VNC display
  have hunique : ∀ {more : List String}, Part more → ∀ place, VncPair (base ++ more) place ↔
      place = front.length + 1 := by
    intro more hmore place
    have hwhole : base ++ more = s.executable :: (front ++ "-display" :: "vnc=:0" ::
        (vsockArgs input s ++ more)) := by
      rw [hbase]
      simp [displayOutput]
    rw [hwhole]
    exact vncPair_iff (by decide) hfront
      ((quiet_of_part (part_vsockArgs input s)).append (quiet_of_part hmore))
  have hsetting : ∀ more : List String, (base ++ more)[front.length + 1 + 1]? = some "vnc=:0" := by
    intro more
    rw [hbase]
    simp [displayOutput]
  have hsounds := hplanned.sounds
  unfold SoundOverDbus
  generalize audioSettings input.profile = audio at hsounds
  cases hsounds with
  | silent haudio =>
    have hlaunch := launchable_of_unique (hunique hplanned.part) (hsetting last)
    simp [hlaunch, haudio]
  | @spice id more haudio hmore =>
    have hlaunch := launchable_of_unique (hunique (hmore.append hplanned.part))
      (hsetting (more ++ last))
    rw [append_assoc]
    simp [hlaunch, haudio]
  | @dbus id place output more haudio hplace houtput hmore =>
    have hlength := displayAt_lt hplace
    have hset : base.set (place + 1) output ++ more ++ last =
        (base ++ (more ++ last)).set (place + 1) output := by
      rw [set_append_left _ _ hlength, append_assoc]
    obtain ⟨hvnc', hne⟩ := not_vnc_of_dbus houtput
    have hpair : ∀ j, VncPair ((base ++ (more ++ last)).set (place + 1) output) j ↔
        j = front.length + 1 ∧ place + 1 ≠ j ∧ place + 1 ≠ j + 1 := fun j => by
      rw [vncPair_set (by simp only [length_append]; omega) hvnc' hne,
        hunique (hmore.append hplanned.part)]
    have hfirst : place + 1 < (s.executable :: front).length ↔
        "-display" ∈ (s.executable :: front).dropLast := by
      have hwhole : base = s.executable :: front ++
          (["-display", displayOutput "vnc"] ++ vsockArgs input s) := by
        rw [hbase]
        simp only [cons_append, append_assoc]
      exact displayAt_lt_iff (hwhole ▸ hplace)
    have hle : place ≤ front.length + 1 := by
      by_contra hgt
      refine (displayAt_spec hplace).2 (front.length + 1) (by omega) ?_
      rw [hbase]
      simp
    rw [hset, or_iff_right (by simp [haudio]), ← hfirst, length_cons]
    constructor
    · rintro ⟨j, setting, hdisplay, hj, hvnc, -⟩
      obtain ⟨rfl, hne, hne'⟩ := (hpair j).1 ⟨hdisplay, setting, hj, hvnc⟩
      omega
    · intro hlt
      have hone : ∀ j, VncPair ((base ++ (more ++ last)).set (place + 1) output) j ↔
          j = front.length + 1 := fun j => by
        rw [hpair]
        omega
      refine launchable_of_unique hone ?_
      rw [List.getElem?_set_ne (by omega)]
      exact hsetting (more ++ last)

/-! ## Sound over D-Bus -/

/-- A resolved instance with a VNC console and sound over D-Bus. -/
def soundInstance : Json :=
  .ofFields [("engine", .ofFields [("track", .str "qemu"), ("executable", .str "/opt/qemu"),
      ("build_digest", .str "0")]),
    ("machine", .ofFields [("type", .str "q35")]),
    ("resources", .ofFields [("memory", .str "1G")]),
    ("devices", .ofFields [("graphics", .arr [.ofFields [("type", .str "vnc")]]),
      ("audio", .ofFields [("backend", .ofFields [("type", .str "dbus")])])])]

theorem exists_launch_sound : ∃ launch, renderDomainLaunchPlan hostWithFiles "/workspace" "vm"
    soundInstance = .ok launch ∧ launch.vncAuto = true ∧ vncPlace launch.argv = none := by
  have hrender : ((renderDomainLaunchPlan hostWithFiles "/workspace" "vm"
      soundInstance).toOption.map fun launch => (launch.vncAuto, vncPlace launch.argv)) =
      some (true, none) := by decide +kernel
  obtain ⟨launch, hlaunch⟩ : ∃ launch, renderDomainLaunchPlan hostWithFiles "/workspace" "vm"
      soundInstance = .ok launch := exists_launch_of_isOk (by decide +kernel)
  simp only [hlaunch, Except.toOption, map_some, Option.some.injEq, Prod.mk.injEq] at hrender
  exact ⟨launch, hlaunch, hrender.1, hrender.2⟩

theorem rendered_vnc_sound : ∃ (launch : LaunchSpec) (input : PlanInput) (s : Setup),
    renderInput "/workspace" "vm" soundInstance = .ok input ∧ setup hostWithFiles input = .ok s ∧
      (Launchable launch.argv ↔ ¬ SoundOverDbus input.profile ∨ Shadowed input s) := by
  obtain ⟨launch, hlaunch, hauto, -⟩ := exists_launch_sound
  exact ⟨launch, rendered_vnc hlaunch hauto⟩

/-- The sound takes the place of the display that the start looks for. -/
theorem not_rendered_vnc : ¬ ∀ (host : Host) (root instanceId : String) (spec : Json)
    (launch : LaunchSpec), renderDomainLaunchPlan host root instanceId spec = .ok launch →
    launch.vncAuto = true → Launchable launch.argv := by
  intro h
  obtain ⟨launch, hlaunch, hauto, hplace⟩ := exists_launch_sound
  exact not_launchable (vncPlace_eq_none.1 hplace) (h _ _ _ _ launch hlaunch hauto)

end MachineEmu.Planner
