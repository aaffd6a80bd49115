import MachineEmu.Storage.Snapshots

/-!
# Which directories a restore and a clone touch

A restore into an instance and a clone of a snapshot work in the directory of the instance and in
staging directories whose names are made from it. The extension of the name is replaced, so two
instances whose ids differ only after the last dot share their staging directories.

* `Owned` — the directories of an instance; `Touches` — a call reads or changes one of them.
* `Room`, `Confined` — where a restore and a clone make their calls, in every run.
* `KeepsOff`, `Apart` — no call touches the directories of another instance, and when.
* `restore_and_clone_keepOff_iff` — the result.
-/

namespace MachineEmu

open Lib Prog List

/-! ## Calls and directories -/

/-- The paths that a call names. -/
def Call.paths : Call → List Path
  | .metadata p | .readDir p | .read p | .write p | .createDir p | .createDirAll p
  | .removeFile p | .removeDir p | .removeDirAll p | .sync p => [p]
  | .rename source target | .hardLink source target => [source, target]
  | .database => []

/-- Whether a call moves or removes what is below its paths. -/
def Call.isDeep : Call → Bool
  | .rename _ _ | .removeDirAll _ => true
  | _ => false

namespace Store

/-- The directory of an instance and the directories in which it is created, cloned or
restored. -/
inductive Owned (handle : Handle) (j : Id) : Path → Prop
  | directory : Owned handle j (handle.instanceDir j)
  | restoring : Owned handle j (withExtension (handle.instanceDir j) "restore-staging")
  | replacing : Owned handle j (withExtension (handle.instanceDir j) "clone-staging")
  | cloning (pid : Nat) : Owned handle j ({ handle with pid }.cloneStaging j)
  | creating (pid nanos : Nat) : Owned handle j (handle.root ++
      ["staging", "create-" ++ j.asStr ++ "-" ++ toString pid ++ "-" ++ toString nanos])
  | preparing : Owned handle j (handle.root ++ ["staging", "instances", j.asStr])

/-- A call reads or changes something in a directory of the instance. -/
def Touches (self : Handle) (j : Id) (call : Call) : Prop :=
  ∃ r, Owned self j r ∧ ∃ p ∈ call.paths, r <+: p ∨ (call.isDeep = true ∧ p <+: r)

/-- No run of the task alone makes a call that touches a directory of the instance. -/
def KeepsOff {α : Type} (self : Handle) (j : Id) (task : Task α) (s : Store) : Prop :=
  ¬ Reaches (fun call _ _ => Touches self j call) task s

/-- A restore refuses a destination where something is. -/
def Occupied (s : Store) (destination : Path) : Prop :=
  s.files.look destination ≠ none ∧
    ¬ (s.files.look destination = some .dir ∧ s.files.names destination = [])

/-- When a restore into `i` keeps off the directories of `j`: there is no snapshot, the ids differ
before their last dot, or the destination is refused and is no staging directory of `j`. -/
def Apart (self : Handle) (snapshotId i j : Id) (s : Store) : Prop :=
  s.tables.snapshots.find? snapshotId = none ∨ stem i.asStr ≠ stem j.asStr ∨
    (Occupied s (self.instanceDir i) ∧ i.asStr ≠ stem j.asStr ++ ".restore-staging" ∧
      i.asStr ≠ stem j.asStr ++ ".clone-staging")

/-- The instance that a snapshot was taken of is gone. -/
def Orphaned (snapshotId : Id) (s : Store) : Prop :=
  ∀ row, s.tables.snapshots.find? snapshotId = some row →
    ∀ source, s.tables.instance_ row.instanceId ≠ .ok source

/-! ## Names -/

theorem dropWhile_reverse_append {c : Char} {u : List Char} (hu : c ∉ u) (x : List Char) :
    (x ++ c :: u).reverse.dropWhile (fun d => decide (d ≠ c)) = c :: x.reverse := by
  have hall : ∀ d ∈ u.reverse, decide (d ≠ c) = true := by
    intro d hd
    rw [decide_eq_true_iff]
    rintro rfl
    exact hu (mem_reverse.1 hd)
  rw [reverse_append, reverse_cons, append_assoc, dropWhile_append_of_pos hall]
  simp

theorem stem_append {x extension : String} (hx : x ≠ "") (hdot : '.' ∉ extension.toList) :
    stem (x ++ "." ++ extension) = x := by
  have hdrop : (x ++ "." ++ extension).toList.reverse.dropWhile (fun c => decide (c ≠ '.')) =
      '.' :: x.toList.reverse := by
    have hlist : (x ++ "." ++ extension).toList = x.toList ++ '.' :: extension.toList := by
      simp [String.toList_append]
    rw [hlist]
    exact dropWhile_reverse_append hdot _
  unfold stem
  rw [hdrop]
  cases hrev : x.toList.reverse with
  | nil => exact absurd (String.toList_eq_nil_iff.1 (reverse_eq_nil_iff.1 hrev)) hx
  | cons c rest =>
    have hx' : x = String.ofList (c :: rest).reverse := by
      rw [← hrev, reverse_reverse, String.ofList_toList]
    exact hx'.symm

variable {name : String}

theorem stem_ne_empty (h : name ≠ "") : stem name ≠ "" := by
  unfold stem
  split
  · next c rest _ =>
    intro hempty
    have hlist := congrArg String.toList hempty
    simp at hlist
  · exact h

/-- The staging directories of a name have the name that comes before the extension. -/
theorem stem_restoring (h : name ≠ "") : stem (stem name ++ "." ++ "restore-staging") = stem name :=
  stem_append (stem_ne_empty h) (by decide)

theorem stem_replacing (h : name ≠ "") : stem (stem name ++ "." ++ "clone-staging") = stem name :=
  stem_append (stem_ne_empty h) (by decide)

theorem dash_not_mem (n : Nat) : '-' ∉ (toString n).toList := by
  intro h
  have hmem : '-' ∈ Nat.toDigits 10 n := by simpa [Nat.toString_eq_ofList_toDigits] using h
  have hdigit := Nat.isDigit_of_mem_toDigits (by decide) (by decide) hmem
  exact absurd hdigit (by decide)

theorem append_pid_inj {x y : String} {m n : Nat}
    (h : x ++ "-" ++ toString m = y ++ "-" ++ toString n) : x = y := by
  have hlist : x.toList ++ '-' :: (toString m).toList = y.toList ++ '-' :: (toString n).toList := by
    simpa [String.toList_append] using congrArg String.toList h
  have hdrop := congrArg (fun l => l.reverse.dropWhile fun c => decide (c ≠ '-')) hlist
  simp only [dropWhile_reverse_append (dash_not_mem m), dropWhile_reverse_append (dash_not_mem n),
    List.cons.injEq, true_and, reverse_inj] at hdrop
  exact String.toList_inj.1 hdrop

theorem ne_empty_of_isValid {i : Id} (h : Id.isValid i.asStr = true) : i.asStr ≠ "" := by
  intro hempty
  rw [hempty] at h
  exact absurd h (by decide)

/-! ## Where the calls are -/

/-- The directories that a restore of a snapshot into an instance, or a clone into one, is to work
in. -/
inductive Room (handle : Handle) (snapshotId i : Id) : Path → Prop
  | snapshot : Room handle snapshotId i (handle.snapshotDir snapshotId)
  | images : Room handle snapshotId i (handle.root ++ ["images"])
  | directory : Room handle snapshotId i (handle.instanceDir i)
  | restoring : Room handle snapshotId i (withExtension (handle.instanceDir i) "restore-staging")
  | replacing : Room handle snapshotId i (withExtension (handle.instanceDir i) "clone-staging")
  | cloning : Room handle snapshotId i (handle.cloneStaging i)

/-- A path in one of the rooms. -/
def Inside (self : Handle) (snapshotId i : Id) (p : Path) : Prop :=
  ∃ r, Room self snapshotId i r ∧ r <+: p

/-- A call that stays in the rooms, or looks at the directory of the instances or above it. -/
def Confined (self : Handle) (snapshotId i : Id) (call : Call) : Prop :=
  (∀ p ∈ call.paths, Inside self snapshotId i p) ∨
    (call.isDeep = false ∧ ∀ p ∈ call.paths, p <+: self.instances)

section Confined

variable {self : Handle} {snapshotId i j : Id} {yaml : Yaml} {documents : Documents}

theorem Room.inside {r : Path} (h : Room self snapshotId i r) : Inside self snapshotId i r :=
  ⟨r, h, prefix_rfl⟩

variable {p : Path}

theorem Inside.append (h : Inside self snapshotId i p) (q : Path) :
    Inside self snapshotId i (p ++ q) := by
  obtain ⟨r, hroom, hr⟩ := h
  exact ⟨r, hroom, hr.trans (prefix_append p q)⟩

theorem confined_database : Confined self snapshotId i .database := .inl nofun

/-- A call with one path in the rooms. -/
theorem Inside.call (h : Inside self snapshotId i p) {call : Call}
    (hcall : call.paths = [p]) : Confined self snapshotId i call := by
  refine .inl fun q hq => ?_
  rw [hcall, mem_singleton] at hq
  rw [hq]
  exact h

theorem Inside.rename {q : Path} (hp : Inside self snapshotId i p)
    (hq : Inside self snapshotId i q) : Confined self snapshotId i (.rename p q) := by
  refine .inl fun r hr => ?_
  rcases mem_cons.1 hr with rfl | hr
  · exact hp
  · rw [mem_singleton.1 hr]
    exact hq

/-- A call on the directory of the instances, or one above it, that leaves what is below. -/
theorem confined_above {call : Call} (hcall : call.paths = [p])
    (hdeep : call.isDeep = false) (hp : p <+: self.instances) :
    Confined self snapshotId i call := by
  refine .inr ⟨hdeep, fun q hq => ?_⟩
  rw [hcall, mem_singleton] at hq
  rw [hq]
  exact hp

theorem calls_select {α : Type} {f : Workspace → Except Error α} :
    Calls (Confined self snapshotId i) (select f) :=
  calls_statement confined_database

theorem calls_checkDestination (h : Inside self snapshotId i p) :
    Calls (Confined self snapshotId i) (checkDestination p) := by
  refine (calls_exists (h.call rfl)).bind fun preexists => ?_
  cases preexists with
  | false => exact calls_ret
  | true =>
    refine (calls_readDir (h.call rfl)).bind fun names => ?_
    split
    · exact calls_throw
    · exact calls_ret

theorem calls_restoreFiles {source staging : Path} (hsource : Inside self snapshotId i source)
    (hstaging : Inside self snapshotId i staging) (entries : List (String × String)) :
    Calls (Confined self snapshotId i) (restoreFiles source staging entries) := by
  induction entries with
  | nil => exact calls_ret
  | cons e rest ih =>
    obtain ⟨name, expected⟩ := e
    have htarget := hstaging.append [name]
    refine (calls_change (htarget.call rfl)).bind fun _ => ?_
    refine (calls_copyAndHash ((hsource.append [name]).call rfl) (htarget.call rfl)
      (htarget.call rfl)).bind fun actual => ?_
    split
    · exact calls_throw
    · exact ih

theorem calls_moveEntries {source target : Path} (hsource : Inside self snapshotId i source)
    (htarget : Inside self snapshotId i target) (names : List String) :
    Calls (Confined self snapshotId i) (moveEntries source target names) := by
  induction names with
  | nil => exact calls_ret
  | cons name rest ih =>
    exact (calls_change ((hsource.append [name]).rename (htarget.append [name]))).bind fun _ => ih

/-- The staging directory of a restore is the same whether its destination is there or not. -/
theorem restoreStaging_eq (hi : i.asStr ≠ "") (preexists : Bool) :
    withExtension (if preexists = true then withExtension (self.instanceDir i) "clone-staging"
      else self.instanceDir i) "restore-staging" =
    withExtension (self.instanceDir i) "restore-staging" := by
  cases preexists with
  | false => rfl
  | true =>
    rw [if_pos rfl, withExtension_instanceDir, withExtension_instanceDir]
    simp only [withExtension, dropLast_concat, List.getLast?_append, List.getLast?_singleton,
      Option.some_or, Option.getD_some]
    rw [stem_replacing hi]

/-- A restore works in the rooms of its destination. -/
theorem calls_restoreSnapshot (hi : i.asStr ≠ "") :
    Calls (Confined self snapshotId i)
      (restoreSnapshot self snapshotId (self.instanceDir i)) := by
  have hdirectory : Inside self snapshotId i (self.instanceDir i) := Room.directory.inside
  have hstaging : Inside self snapshotId i
      (withExtension (self.instanceDir i) "restore-staging") := Room.restoring.inside
  refine calls_select.bind fun manifest => ?_
  refine (calls_checkDestination hdirectory).bind fun preexists => ?_
  have htarget : Inside self snapshotId i (if preexists = true then
      withExtension (self.instanceDir i) "clone-staging" else self.instanceDir i) := by
    split
    · exact Room.replacing.inside
    · exact hdirectory
  dsimp only
  rw [restoreStaging_eq hi preexists]
  refine (calls_change (hstaging.call rfl)).bind fun _ => ?_
  refine (calls_onError (calls_restoreFiles Room.snapshot.inside hstaging _)
    (calls_change (hstaging.call rfl))).bind fun _ => ?_
  refine (calls_change (hstaging.rename htarget)).bind fun _ => ?_
  refine Calls.bind ?_ fun _ => calls_ret
  split
  · next hpre =>
    rw [if_pos hpre] at htarget
    refine (calls_readDir (htarget.call rfl)).bind fun names => ?_
    refine (calls_moveEntries htarget hdirectory names).bind fun _ => ?_
    exact calls_change (htarget.call rfl)
  · exact calls_ret

/-! ### The publication of a clone -/

theorem calls_removeIfAny (h : Inside self snapshotId i p) :
    Calls (Confined self snapshotId i) (removeIfAny p) :=
  calls_change (h.call rfl)

theorem calls_finishInstanceDeletion :
    Calls (Confined self snapshotId i) (finishInstanceDeletion self i) := by
  refine calls_select.bind fun pending => ?_
  split
  · exact calls_ret
  · refine (calls_change (Room.directory.inside.call rfl)).bind fun _ => ?_
    refine (calls_change (confined_above rfl rfl prefix_rfl)).bind fun _ => ?_
    exact (calls_statement confined_database).bind fun _ => calls_ret

theorem calls_image (imageId : Id) :
    Calls (Confined self snapshotId i) (image self yaml imageId) := by
  have hmanifest : Inside self snapshotId i (self.manifestPath imageId) :=
    ⟨_, Room.images, by simp [Handle.manifestPath, Handle.imageRoot]⟩
  refine calls_ofExcept.bind fun _ => ?_
  refine (calls_readFile (hmanifest.call rfl)).bind fun bytes => ?_
  split
  · exact calls_throw
  · exact calls_ofExcept.bind fun _ => calls_ret

theorem calls_emptyLegacyEntries {directory : Path} (h : Inside self snapshotId i directory)
    (names : List String) :
    Calls (Confined self snapshotId i) (emptyLegacyEntries directory names) := by
  induction names with
  | nil => exact calls_ret
  | cons name rest ih =>
    have hentry := h.append [name]
    unfold emptyLegacyEntries
    split
    · exact calls_ret
    · refine (calls_metadata (hentry.call rfl)).bind fun entry => ?_
      split
      · exact calls_ret
      · refine (calls_readDir (hentry.call rfl)).bind fun names => ?_
        split
        · exact calls_ret
        · exact ih

theorem calls_isReplaceable {destination : Path} (h : Inside self snapshotId i destination) :
    Calls (Confined self snapshotId i) (isReplaceable i destination) := by
  refine (calls_metadata (h.call rfl)).bind fun found => ?_
  split
  · exact calls_ret
  · refine calls_select.attempt.bind fun row => ?_
    split
    · refine (calls_isFile ((h.append _).call rfl)).bind fun marked => ?_
      split
      · exact calls_ret
      · exact (calls_readDir (h.call rfl)).bind fun names => calls_emptyLegacyEntries h names
    · exact calls_ret

theorem calls_clearDestination : Calls (Confined self snapshotId i) (clearDestination self i) := by
  have hdirectory : Inside self snapshotId i (self.instanceDir i) := Room.directory.inside
  refine (calls_exists (hdirectory.call rfl)).bind fun taken => ?_
  split
  · refine (calls_isReplaceable hdirectory).bind fun replaceable => ?_
    split
    · exact calls_change (hdirectory.call rfl)
    · exact calls_throw
  · exact calls_ret

theorem calls_loadDocument (h : Inside self snapshotId i p) :
    Calls (Confined self snapshotId i) (loadDocument documents p) := by
  refine (calls_readFile (h.call rfl)).bind fun bytes => ?_
  split
  · exact calls_ret
  · exact calls_throw

theorem calls_readStagedProfile {staged : Path} (h : Inside self snapshotId i staged) :
    Calls (Confined self snapshotId i) (readStagedProfile self documents staged) := by
  have hprofile := h.append ["profile.yaml"]
  refine (calls_metadata (hprofile.call rfl)).bind fun found => ?_
  split
  · exact calls_ret
  · refine Calls.bind ?_ fun _ => (calls_loadDocument hprofile).bind fun _ => calls_ret
    refine (calls_change (confined_above rfl rfl ?_)).bind fun _ => ?_
    · simp [Handle.instances]
    refine (calls_change (hprofile.call rfl)).bind fun _ => ?_
    refine (calls_change (h.call (by simp [Call.paths]))).bind fun _ => ?_
    split
    · exact calls_ret
    · exact calls_throw

theorem calls_readStagedDomain {staged : Path} (h : Inside self snapshotId i staged) :
    Calls (Confined self snapshotId i) (readStagedDomain documents staged) := by
  have hdomain := h.append ["domain_document.yaml"]
  refine (calls_metadata (hdomain.call rfl)).bind fun found => ?_
  split
  · exact calls_ret
  · refine (calls_readFile (hdomain.call rfl)).bind fun _ => ?_
    exact (calls_loadDocument hdomain).bind fun _ => calls_ret

theorem calls_atomicConfigurationFile {directory : Path} {bytes : List UInt8}
    (h : Inside self snapshotId i directory) : Calls (Confined self snapshotId i)
      (atomicConfigurationFile self (directory ++ [name]) bytes) := by
  unfold atomicConfigurationFile
  simp only [dropLast_concat]
  refine (calls_change (confined_above rfl rfl ?_)).bind fun _ => ?_
  · simp [Handle.instances]
  refine (calls_change (h.call rfl)).bind fun _ => ?_
  split
  · exact calls_throw
  · refine Calls.bind (fun _ => trivial) fun nanos => ?_
    have htemporary := h.append [self.temporary "instance" nanos]
    refine calls_onError ?_ (calls_change (htemporary.call rfl))
    refine (calls_change (htemporary.call rfl)).bind fun _ => ?_
    refine (calls_writeAll (htemporary.call rfl)).bind fun _ => ?_
    refine (calls_change (htemporary.call rfl)).bind fun _ => ?_
    refine (calls_change (htemporary.rename (h.append [name]))).bind fun _ => ?_
    exact calls_change (h.call rfl)

theorem calls_publishPreparedInstance {imageId profileId : Id} {staged : Path} {planJson : String}
    {autoRemove : Bool} (h : Inside self snapshotId i staged) :
    Calls (Confined self snapshotId i) (publishPreparedInstance self yaml documents i imageId
      profileId staged planJson autoRemove) := by
  have hdirectory : Inside self snapshotId i (self.instanceDir i) := Room.directory.inside
  refine calls_finishInstanceDeletion.bind fun _ => ?_
  refine (calls_image imageId).bind fun _ => ?_
  refine calls_clearDestination.bind fun _ => ?_
  refine (calls_readStagedProfile h).bind fun profile => ?_
  refine (calls_readStagedDomain h).bind fun domainDocument => ?_
  split
  · exact calls_throw
  · refine (calls_atomicConfigurationFile h).bind fun _ => ?_
    refine (calls_writeFile ((h.append _).call rfl)).bind fun _ => ?_
    refine (calls_change (h.rename hdirectory)).bind fun _ => ?_
    refine (calls_statement confined_database).attempt.bind fun result => ?_
    split
    · exact (calls_ignore (calls_change (hdirectory.call rfl))).bind fun _ => calls_throw
    · refine (calls_ignore (calls_change ((hdirectory.append _).call rfl))).bind fun _ => ?_
      exact calls_select

/-- A clone works in the rooms of the new instance. -/
theorem calls_cloneSnapshot (hi : i.asStr ≠ "") {profileId : Id} :
    Calls (Confined self snapshotId i)
      (cloneSnapshot self yaml documents snapshotId i profileId) := by
  have hdirectory : Inside self snapshotId i (self.instanceDir i) := Room.directory.inside
  have hstaged : Inside self snapshotId i (self.cloneStaging i) := Room.cloning.inside
  unfold cloneSnapshot
  dsimp only
  refine calls_select.bind fun manifest => ?_
  refine calls_select.bind fun source => ?_
  refine (calls_restoreSnapshot hi).bind fun _ => ?_
  refine (calls_removeIfAny (hdirectory.append _)).bind fun _ => ?_
  refine (calls_removeIfAny (hdirectory.append _)).bind fun _ => ?_
  refine (calls_removeIfAny (hdirectory.append _)).bind fun _ => ?_
  refine (calls_change (hdirectory.rename hstaged)).bind fun _ => ?_
  exact calls_onError (calls_publishPreparedInstance hstaged)
    (calls_change (hstaged.rename hdirectory))

end Confined

/-! ## Two instances -/

section Apart

variable {self : Handle} {snapshotId i j : Id} {yaml : Yaml} {documents : Documents}

variable {r : Path}

/-- Neither of two paths is above the other. -/
theorem apart_of_ne {p q : Path} {a b : String} (h : a ≠ b) :
    ¬ (r ++ a :: p) <+: (r ++ b :: q) ∧ ¬ (r ++ b :: q) <+: (r ++ a :: p) :=
  ⟨not_below h, not_below h.symm⟩

/-- The rooms next to the directory of an instance have its name before the last dot. -/
theorem Room.eq (h : Room self snapshotId i r) (hi : i.asStr ≠ "") :
    (∃ a q, r = self.root ++ a :: q ∧ (a = "snapshots" ∨ a = "images")) ∨
      (∃ b, r = self.root ++ ["instances", b] ∧ stem b = stem i.asStr) ∨
        r = self.root ++ ["staging", "clone-" ++ i.asStr ++ "-" ++ toString self.pid] := by
  cases h with
  | snapshot => exact .inl ⟨_, _, rfl, .inl rfl⟩
  | images => exact .inl ⟨_, _, rfl, .inr rfl⟩
  | directory => exact .inr (.inl ⟨_, instanceDir_eq self i, rfl⟩)
  | restoring =>
    refine .inr (.inl ⟨_, ?_, stem_restoring hi⟩)
    simp [withExtension_instanceDir, Handle.instances]
  | replacing =>
    refine .inr (.inl ⟨_, ?_, stem_replacing hi⟩)
    simp [withExtension_instanceDir, Handle.instances]
  | cloning => exact .inr (.inr rfl)

theorem Owned.eq (h : Owned self j r) (hj : j.asStr ≠ "") :
    (∃ b, r = self.root ++ ["instances", b] ∧ stem b = stem j.asStr) ∨
      ∃ b q, r = self.root ++ "staging" :: b :: q ∧ ∀ i : Id, i ≠ j →
        "clone-" ++ i.asStr ++ "-" ++ toString self.pid ≠ b := by
  cases h with
  | directory => exact .inl ⟨_, instanceDir_eq self j, rfl⟩
  | restoring =>
    refine .inl ⟨_, ?_, stem_restoring hj⟩
    simp [withExtension_instanceDir, Handle.instances]
  | replacing =>
    refine .inl ⟨_, ?_, stem_replacing hj⟩
    simp [withExtension_instanceDir, Handle.instances]
  | cloning pid =>
    refine .inr ⟨_, [], rfl, fun i hne heq => hne ?_⟩
    have hname := append_pid_inj heq
    rw [String.append_right_inj] at hname
    cases i
    cases j
    rw [Id.mk.injEq]
    exact hname
  | creating pid nanos =>
    refine .inr ⟨_, [], rfl, fun i _ heq => ?_⟩
    have hlist := congrArg String.toList heq
    simp [String.toList_append] at hlist
  | preparing =>
    refine .inr ⟨_, [j.asStr], rfl, fun i _ heq => ?_⟩
    have hlist := congrArg String.toList heq
    simp [String.toList_append] at hlist

/-- Ids that differ before their last dot have no directory in common. -/
theorem Room.apart {r' : Path} (hr : Room self snapshotId i r) (hr' : Owned self j r')
    (hi : i.asStr ≠ "") (hj : j.asStr ≠ "") (hstem : stem i.asStr ≠ stem j.asStr) :
    ¬ r <+: r' ∧ ¬ r' <+: r := by
  have hne : i ≠ j := by
    rintro rfl
    exact hstem rfl
  rcases hr.eq hi with ⟨a, q, rfl, ha⟩ | ⟨b, rfl, hb⟩ | rfl
  · rcases hr'.eq hj with ⟨b', rfl, -⟩ | ⟨b', q', rfl, -⟩
    · apply apart_of_ne
      rcases ha with rfl | rfl <;> decide
    · apply apart_of_ne
      rcases ha with rfl | rfl <;> decide
  · rcases hr'.eq hj with ⟨b', rfl, hb'⟩ | ⟨b', q', rfl, -⟩
    · have hbne : b ≠ b' := by
        rintro rfl
        exact hstem (hb.symm.trans hb')
      simpa using apart_of_ne (r := self.root ++ ["instances"]) (p := []) (q := []) hbne
    · exact apart_of_ne (by decide)
  · rcases hr'.eq hj with ⟨b', rfl, -⟩ | ⟨b', q', rfl, hb'⟩
    · exact apart_of_ne (by decide)
    · simpa using apart_of_ne (r := self.root ++ ["staging"]) (p := []) (q := q') (hb' i hne)

/-- A call in the rooms of one instance touches no directory of the other. -/
theorem Confined.not_touches {call : Call} (h : Confined self snapshotId i call)
    (hi : i.asStr ≠ "") (hj : j.asStr ≠ "") (hstem : stem i.asStr ≠ stem j.asStr) :
    ¬ Touches self j call := by
  rintro ⟨r', hr', p, hp, htouch⟩
  rcases h with hinside | ⟨hdeep, habove⟩
  · obtain ⟨r, hr, hrp⟩ := hinside p hp
    obtain ⟨hbelow, habove⟩ := hr.apart hr' hi hj hstem
    rcases htouch with hin | ⟨-, hout⟩
    · rcases prefix_or_prefix_of_prefix hrp hin with h | h
      · exact hbelow h
      · exact habove h
    · exact hbelow (hrp.trans hout)
  · rcases htouch with hin | ⟨hdeep', -⟩
    · have hlength := (hin.trans (habove p hp)).length_le
      rcases hr'.eq hj with ⟨b', rfl, -⟩ | ⟨b', q', rfl, -⟩
      · simp [Handle.instances] at hlength
      · simp [Handle.instances] at hlength
    · rw [hdeep] at hdeep'
      cases hdeep'

variable {α : Type}

/-- A task that stays in the rooms of one instance keeps off the directories of the other. -/
theorem keepsOff_of_calls {task : Task α} {s : Store}
    (h : Calls (Confined self snapshotId i) task) (hi : i.asStr ≠ "") (hj : j.asStr ≠ "")
    (hstem : stem i.asStr ≠ stem j.asStr) : KeepsOff self j task s :=
  not_reaches_of_frame h fun _ _ _ hcall => hcall.not_touches hi hj hstem

/-- The second part of a task matters only where the first one may end. -/
theorem KeepsOff.bind {β : Type} {task : Task α} {g : α → Task β} {s : Store}
    {M : α → Store → Prop} {X : Error → Store → Prop} (h : KeepsOff self j task s)
    (hends : Ends (fun _ _ => True) M X task s) (hg : ∀ a s', M a s' → KeepsOff self j (g a) s') :
    KeepsOff self j (task.bind g) s := by
  intro hreaches
  rcases hends.of_reaches_bind hreaches with htask | ⟨a, s', hM, hrest⟩
  · exact h htask
  · exact hg a s' hM hrest

theorem keepsOff_select {f : Workspace → Except Error α} {s : Store} :
    KeepsOff self j (select f) s := by
  refine not_reaches_of_frame (calls_statement (C := (· = .database)) rfl) ?_
  rintro _ _ _ rfl ⟨r, -, p, hp, -⟩
  cases hp

/-- A directory that belongs to no other instance may be looked at. -/
theorem not_touches_instanceDir {call : Call} (hcall : call.paths = [self.instanceDir i])
    (hdeep : call.isDeep = false) (hne : i ≠ j)
    (hrestoring : i.asStr ≠ stem j.asStr ++ ".restore-staging")
    (hreplacing : i.asStr ≠ stem j.asStr ++ ".clone-staging") : ¬ Touches self j call := by
  rintro ⟨r, hr, p, hp, htouch⟩
  rw [hcall, mem_singleton] at hp
  rcases htouch with hin | ⟨hdeep', -⟩
  · rw [hp, instanceDir_eq] at hin
    have hapart : ∀ b, i.asStr ≠ b → ¬ self.root ++ ["instances", b] <+:
        self.root ++ ["instances", i.asStr] := by
      intro b hb
      simpa using not_below (r := self.root ++ ["instances"]) (p := []) (q := []) hb.symm
    cases hr with
    | directory =>
      rw [instanceDir_eq] at hin
      refine hapart _ (fun heq => hne ?_) hin
      cases i
      cases j
      rw [Id.mk.injEq]
      exact heq
    | restoring =>
      rw [withExtension_instanceDir] at hin
      exact hapart (stem j.asStr ++ "." ++ "restore-staging")
        (by simpa [String.append_assoc] using hrestoring) (by simpa [Handle.instances] using hin)
    | replacing =>
      rw [withExtension_instanceDir] at hin
      exact hapart (stem j.asStr ++ "." ++ "clone-staging")
        (by simpa [String.append_assoc] using hreplacing) (by simpa [Handle.instances] using hin)
    | cloning pid => exact not_below (a := "staging") (b := "instances") (by decide) hin
    | creating pid nanos => exact not_below (a := "staging") (b := "instances") (by decide) hin
    | preparing => exact not_below (a := "staging") (b := "instances") (by decide) hin
  · rw [hdeep] at hdeep'
    cases hdeep'

variable {s : Store}

theorem ends_snapshot_alone {good : Store → Outcome → Prop} (X : Error → Store → Prop)
    (hfault : Covers good X) (hmissing : s.tables.snapshots.find? snapshotId = none →
      ∀ e, X e s) : Ends good
      (fun row s' => s' = s ∧ s.tables.snapshots.find? snapshotId = some row) X
      (snapshot snapshotId) s := by
  apply ends_select
  · exact fun o ho h e => hfault s o ho h e s
  · intro e he
    split at he
    · cases he
    · next hnone => exact hmissing hnone e
  · intro row hrow
    split at hrow
    · next row' hsome =>
      cases hrow
      exact ⟨rfl, hsome⟩
    · cases hrow

/-- A destination that is not occupied is accepted. -/
theorem ends_checkDestination_of_free {p : Path} (h : ¬ Occupied s p) :
    Ends Faultless (fun _ s' => s' = s) (fun _ _ => False) (checkDestination p) s := by
  refine Ends.bind (M := fun found s' => s' = s ∧ found = decide (s.files.look p ≠ none))
    (ends_exists ⟨rfl, rfl⟩) ?_
  rintro found s₁ ⟨hs₁, hfound⟩
  rw [hs₁]
  cases found with
  | false => exact rfl
  | true =>
    have hthere : s.files.look p ≠ none := of_decide_eq_true hfound.symm
    have hempty : s.files.look p = some .dir ∧ s.files.names p = [] := by
      by_contra hfull
      exact h ⟨hthere, hfull⟩
    refine Ends.bind (M := fun names s' => s' = s ∧ names = []) ?_ ?_
    · apply ends_readDir
      · exact fun o ho hfault _ => absurd ho hfault
      · exact fun hdir _ => hdir hempty.1
      · exact fun _ => ⟨rfl, hempty.2⟩
    · rintro names s₂ ⟨hs₂, rfl⟩
      exact hs₂

/-- An occupied destination is refused. -/
theorem ends_checkDestination_of_occupied {p : Path} (h : Occupied s p) :
    Ends (fun _ _ => True) (fun _ _ => False) (fun _ _ => True) (checkDestination p) s := by
  refine Ends.bind (M := fun found s' => s' = s ∧ found = decide (s.files.look p ≠ none))
    (ends_exists ⟨rfl, rfl⟩) ?_
  rintro found s₁ ⟨hs₁, hfound⟩
  rw [hs₁, hfound, decide_eq_true h.1]
  refine Ends.bind (M := fun names s' => names ≠ []) ?_ ?_
  · apply ends_readDir
    · exact fun _ _ _ _ => trivial
    · exact fun _ _ => trivial
    · exact fun hdir hempty => h.2 ⟨hdir, hempty⟩
  · intro names s₂ hnames
    rw [if_pos hnames]
    trivial

/-- Without a snapshot, or with an occupied destination, a restore fails. -/
theorem ends_restoreSnapshot_of_refused (h : s.tables.snapshots.find? snapshotId = none ∨
      Occupied s (self.instanceDir i)) :
    Ends (fun _ _ => True) (fun _ _ => False) (fun _ _ => True)
      (restoreSnapshot self snapshotId (self.instanceDir i)) s := by
  refine Ends.bind (ends_snapshot_alone _ covers_true fun _ _ => trivial) ?_
  rintro manifest s₁ ⟨hs₁, hrow⟩
  rw [hs₁]
  rcases h with hnone | hoccupied
  · rw [hnone] at hrow
    cases hrow
  · exact Ends.bind (ends_checkDestination_of_occupied hoccupied) fun _ _ hfalse => hfalse.elim

theorem keepsOff_checkDestination (hne : i ≠ j)
    (hrestoring : i.asStr ≠ stem j.asStr ++ ".restore-staging")
    (hreplacing : i.asStr ≠ stem j.asStr ++ ".clone-staging") :
    KeepsOff self j (checkDestination (self.instanceDir i)) s := by
  have hcalls : Calls (fun call => ¬ Touches self j call)
      (checkDestination (self.instanceDir i)) := by
    refine (calls_exists (not_touches_instanceDir rfl rfl hne hrestoring hreplacing)).bind
      fun preexists => ?_
    cases preexists with
    | false => exact calls_ret
    | true =>
      refine (calls_readDir (not_touches_instanceDir rfl rfl hne hrestoring hreplacing)).bind
        fun names => ?_
      split
      · exact calls_throw
      · exact calls_ret
  exact not_reaches_of_frame hcalls fun _ _ _ hcall => hcall

/-! ## The result -/

theorem keepsOff_restoreSnapshot (hi : i.asStr ≠ "") (hj : j.asStr ≠ "") (hne : i ≠ j)
    (h : Apart self snapshotId i j s) :
    KeepsOff self j (restoreSnapshot self snapshotId (self.instanceDir i)) s := by
  rcases h with hnone | hstem | ⟨hoccupied, hrestoring, hreplacing⟩
  · refine keepsOff_select.bind (ends_snapshot_alone _ covers_true fun _ _ => trivial) ?_
    rintro manifest s₁ ⟨-, hrow⟩
    rw [hnone] at hrow
    cases hrow
  · exact keepsOff_of_calls (calls_restoreSnapshot hi) hi hj hstem
  · refine keepsOff_select.bind (ends_snapshot_alone _ covers_true fun _ _ => trivial) ?_
    rintro manifest s₁ ⟨hs₁, -⟩
    rw [hs₁]
    exact (keepsOff_checkDestination hne hrestoring hreplacing).bind
      (ends_checkDestination_of_occupied hoccupied) fun _ _ hfalse => hfalse.elim

/-- Otherwise a restore makes a call on a directory of the other instance. -/
theorem reaches_restoreSnapshot (hi : i.asStr ≠ "") (h : ¬ Apart self snapshotId i j s) :
    Reaches (fun call _ _ => Touches self j call)
      (restoreSnapshot self snapshotId (self.instanceDir i)) s := by
  rw [Apart, not_or, not_or, not_not] at h
  obtain ⟨hrow, hstem, hfree⟩ := h
  have hgood : ∀ s, ∃ o, Faultless s o := fun _ => ⟨{}, rfl⟩
  refine Ends.reaches_bind (ends_snapshot_alone _ covers_faultless
    fun hnone => absurd hnone hrow) hgood ?_
  rintro manifest s₁ ⟨hs₁, -⟩
  rw [hs₁]
  by_cases hname : i.asStr = stem j.asStr ++ ".restore-staging" ∨
      i.asStr = stem j.asStr ++ ".clone-staging"
  · -- the destination is a staging directory of the other instance
    have howned : Owned self j (self.instanceDir i) := by
      rcases hname with heq | heq
      · have hdir : withExtension (self.instanceDir j) "restore-staging" = self.instanceDir i := by
          rw [withExtension_instanceDir, Handle.instanceDir, heq, String.append_assoc]
          rfl
        exact hdir ▸ Owned.restoring
      · have hdir : withExtension (self.instanceDir j) "clone-staging" = self.instanceDir i := by
          rw [withExtension_instanceDir, Handle.instanceDir, heq, String.append_assoc]
          rfl
        exact hdir ▸ Owned.replacing
    refine Reaches.bind_left (Reaches.bind_left (Or.inl ?_))
    exact ⟨_, howned, _, mem_singleton_self _, .inl prefix_rfl⟩
  · -- both instances have the same staging directory
    rw [not_or] at hname
    have hnot : ¬ Occupied s (self.instanceDir i) := fun hocc => hfree ⟨hocc, hname⟩
    refine Ends.reaches_bind (ends_checkDestination_of_free hnot) hgood ?_
    intro preexists s₂ hs₂
    rw [hs₂]
    dsimp only
    rw [restoreStaging_eq hi preexists]
    have howned : Owned self j (withExtension (self.instanceDir i) "restore-staging") := by
      have hdir : withExtension (self.instanceDir j) "restore-staging" =
          withExtension (self.instanceDir i) "restore-staging" := by
        rw [withExtension_instanceDir, withExtension_instanceDir, hstem]
      exact hdir ▸ Owned.restoring
    refine Reaches.bind_left ⟨{}, Or.inl ?_⟩
    exact ⟨_, howned, _, mem_singleton_self _, .inl prefix_rfl⟩

theorem keepsOff_restoreSnapshot_iff (hi : i.asStr ≠ "") (hj : j.asStr ≠ "") (hne : i ≠ j) :
    KeepsOff self j (restoreSnapshot self snapshotId (self.instanceDir i)) s ↔
      Apart self snapshotId i j s := by
  constructor
  · intro hoff
    by_contra happart
    exact hoff (reaches_restoreSnapshot hi happart)
  · exact keepsOff_restoreSnapshot hi hj hne

theorem ends_source {good : Store → Outcome → Prop} {row : SnapshotRow}
    (X : Error → Store → Prop) (hfault : Covers good X)
    (horphaned : (∀ source, s.tables.instance_ row.instanceId ≠ .ok source) → ∀ e, X e s) :
    Ends good (fun source s' => s' = s ∧ s.tables.instance_ row.instanceId = .ok source) X
      (select fun w => w.instance_ row.instanceId) s := by
  apply ends_select
  · exact fun o ho h e => hfault s o ho h e s
  · intro e he
    refine horphaned (fun source hsource => ?_) e
    rw [hsource] at he
    cases he
  · exact fun source hsource => ⟨rfl, hsource⟩

theorem keepsOff_cloneSnapshot {profileId : Id} (hi : i.asStr ≠ "") (hj : j.asStr ≠ "")
    (hne : i ≠ j) (h : Orphaned snapshotId s ∨ Apart self snapshotId i j s) :
    KeepsOff self j (cloneSnapshot self yaml documents snapshotId i profileId) s := by
  by_cases hstem : stem i.asStr = stem j.asStr
  · unfold cloneSnapshot
    refine keepsOff_select.bind (ends_snapshot_alone _ covers_true fun _ _ => trivial) ?_
    rintro manifest s₁ ⟨hs₁, hrow⟩
    rw [hs₁]
    refine keepsOff_select.bind (ends_source _ covers_true fun _ _ => trivial) ?_
    rintro source s₂ ⟨hs₂, hsource⟩
    rw [hs₂]
    have happart : Apart self snapshotId i j s := by
      rcases h with horphaned | happart
      · exact absurd hsource (horphaned manifest hrow source)
      · exact happart
    refine (keepsOff_restoreSnapshot hi hj hne happart).bind
      (ends_restoreSnapshot_of_refused ?_) fun _ _ hfalse => hfalse.elim
    rcases happart with hnone | hdiffer | ⟨hoccupied, -⟩
    · exact .inl hnone
    · exact absurd hstem hdiffer
    · exact .inr hoccupied
  · exact keepsOff_of_calls (calls_cloneSnapshot hi) hi hj hstem

theorem reaches_cloneSnapshot {profileId : Id} (hi : i.asStr ≠ "")
    (h : ¬ (Orphaned snapshotId s ∨ Apart self snapshotId i j s)) :
    Reaches (fun call _ _ => Touches self j call)
      (cloneSnapshot self yaml documents snapshotId i profileId) s := by
  rw [not_or] at h
  obtain ⟨hsources, happart⟩ := h
  have hgood : ∀ s, ∃ o, Faultless s o := fun _ => ⟨{}, rfl⟩
  refine Ends.reaches_bind (ends_snapshot_alone _ covers_faultless
    fun hnone => absurd (.inl hnone) happart) hgood ?_
  rintro manifest s₁ ⟨hs₁, hrow⟩
  rw [hs₁]
  refine Ends.reaches_bind (ends_source _ covers_faultless
    fun hgone => absurd (fun row hrow' => ?_) hsources) hgood ?_
  · rw [hrow] at hrow'
    cases hrow'
    exact hgone
  · rintro source s₂ ⟨hs₂, -⟩
    rw [hs₂]
    exact Reaches.bind_left (reaches_restoreSnapshot hi happart)

/-- A restore into an instance and a clone into it keep off the directories of another instance,
in every run, exactly when the two are apart. -/
theorem restore_and_clone_keepOff_iff (self : Handle) (yaml : Yaml) (documents : Documents)
    (snapshotId profileId i j : Id) (s : Store) (hi : Id.isValid i.asStr = true)
    (hj : Id.isValid j.asStr = true) (hne : i ≠ j) :
    (KeepsOff self j (restoreSnapshot self snapshotId (self.instanceDir i)) s ↔
      Apart self snapshotId i j s) ∧
    (KeepsOff self j (cloneSnapshot self yaml documents snapshotId i profileId) s ↔
      Orphaned snapshotId s ∨ Apart self snapshotId i j s) := by
  have hi' := ne_empty_of_isValid hi
  have hj' := ne_empty_of_isValid hj
  refine ⟨keepsOff_restoreSnapshot_iff hi' hj' hne, ?_, keepsOff_cloneSnapshot hi' hj' hne⟩
  intro hoff
  by_contra happart
  exact hoff (reaches_cloneSnapshot hi' happart)

end Apart

/-! ## Two ids with one staging directory -/

/-- A snapshot of a stopped instance. -/
def withSnapshot : Store where
  tables := ((({} : Workspace).insertInstance ⟨"vm"⟩ ⟨"win11"⟩ ⟨"desktop"⟩).2.insertSnapshot
    { snapshotId := ⟨"snap"⟩, instanceId := ⟨"vm"⟩, generation := 1, files := .empty }).2
  files := .dir [("workspace", .dir [("instances", .dir [("web.restore-staging", .dir [])]),
    ("snapshots", .dir [("snap", .dir [("manifest.json", .file [])])]), ("staging", .dir [])])]

/-- A serialiser that accepts nothing: the workspace has no manifest and no document. -/
def unreadable : Yaml := ⟨fun _ => [], fun _ => .error "", fun _ => [], fun _ => .error ""⟩

def unreadableDocuments : Documents := ⟨fun _ => .error "", fun _ => .error "", fun _ => []⟩

/-- A restore into `web` takes the directory of the instance `web.restore-staging` as its staging
directory. -/
theorem not_keepsOff : ¬ ∀ (self : Handle) (yaml : Yaml) (documents : Documents)
    (snapshotId profileId i j : Id) (s : Store), Id.isValid i.asStr = true →
    Id.isValid j.asStr = true → i ≠ j →
    KeepsOff self j (restoreSnapshot self snapshotId (self.instanceDir i)) s ∧
      KeepsOff self j (cloneSnapshot self yaml documents snapshotId i profileId) s := by
  intro h
  let self : Handle := { root := ["workspace"], pid := 7 }
  have hoff := (h self unreadable unreadableDocuments ⟨"snap"⟩ ⟨"desktop"⟩ ⟨"web"⟩
    ⟨"web.restore-staging"⟩ withSnapshot (by decide) (by decide) (by decide)).1
  refine hoff (reaches_restoreSnapshot (by decide) ?_)
  rintro (hnone | hstem | ⟨hoccupied, -⟩)
  · exact absurd hnone (by decide)
  · exact hstem (by decide)
  · exact hoccupied.1 (by decide)

/-- A restore into `web` and a clone into it keep off the directories of `db`. -/
theorem keepOff_web_db :
    KeepsOff { root := ["workspace"], pid := 7 } ⟨"db"⟩
        (restoreSnapshot { root := ["workspace"], pid := 7 } ⟨"snap"⟩
          (Handle.instanceDir { root := ["workspace"], pid := 7 } ⟨"web"⟩)) withSnapshot ∧
      KeepsOff { root := ["workspace"], pid := 7 } ⟨"db"⟩
        (cloneSnapshot { root := ["workspace"], pid := 7 } unreadable unreadableDocuments ⟨"snap"⟩
          ⟨"web"⟩ ⟨"desktop"⟩) withSnapshot := by
  obtain ⟨hrestore, hclone⟩ := restore_and_clone_keepOff_iff { root := ["workspace"], pid := 7 }
    unreadable unreadableDocuments ⟨"snap"⟩ ⟨"desktop"⟩ ⟨"web"⟩ ⟨"db"⟩ withSnapshot (by decide)
    (by decide) (by decide)
  exact ⟨hrestore.2 (.inr (.inl (by decide))), hclone.2 (.inr (.inr (.inl (by decide))))⟩

end Store

end MachineEmu
