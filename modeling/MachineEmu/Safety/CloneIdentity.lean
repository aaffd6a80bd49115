import MachineEmu.Api.Instances
import MachineEmu.Safety.InstanceDirectories
import MachineEmu.Safety.SnapshotFrame
import MachineEmu.Safety.SnapshotRoundTrip

/-!
# The identity of a clone

Whether the clone of a snapshot is an instance of its own. A creation leaves the domain document
in the directory of the instance, the snapshot takes it, and the clone publishes it as its own.

* `Leaves` — tasks that leave a path as it is.
* `OwnInstance` — nothing in the clone names the source.
* `PublishedDomain` — the domain document of a published directory.
* `clone_not_ownInstance` — the result.
-/

namespace MachineEmu

open Lib Prog List FileTree

namespace Store

/-! ## Statements -/

section Statements

variable (self : Handle) (documents : Documents) (i : Id) (source : Json)

/-- A document names the machine of the source as its own: its id, its MAC addresses, its hardware
identity, or a path in its directory. -/
def NamesMachine (document : Json) : Prop :=
  machineName document = some i.asStr ∨
    (∃ mac ∈ machineAddresses source, mac ∈ machineAddresses document) ∨
    (machineIdentity source ≠ none ∧ machineIdentity document = machineIdentity source) ∨
    ∃ text ∈ document.texts, (display (self.instanceDir i)).toList <+: text.toList

/-- The clone `j` of the instance `i` is an instance of its own. -/
structure OwnInstance (handle : Handle) (documents : Documents) (i j : Id) (source : Json)
    (s : Store) : Prop where
  files : ∀ name bytes document,
    s.files.look (handle.instanceDir j ++ [name]) = some (.file bytes) →
      documents.load bytes = .ok document → ¬ NamesMachine handle i source document
  stored : ∀ document : InstanceDocument,
    s.files.look (handle.instanceDir j ++ ["instance.yaml"]) =
      some (.file (documents.write document)) →
      document.instanceId ≠ i.asStr ∧ ∀ value, document.profile = some value ∨
        document.launchPlan = some value ∨ document.domainDocument = some value →
          ¬ NamesMachine handle i source value
  start : Ends (fun _ _ => True)
    (fun document _ => ∀ text ∈ document.spec.texts,
      ¬ (display (handle.instanceDir i)).toList <+: text.toList)
    (fun _ _ => True) (domainInstanceDocument handle documents j) s

/-- Nothing has touched the domain document of an instance. -/
def KeepsDomain (s s' : Store) : Prop :=
  s'.files.look (self.instanceDir i ++ ["domain_document.yaml"]) =
    s.files.look (self.instanceDir i ++ ["domain_document.yaml"])

/-- Nothing has touched a snapshot and its copy of the domain document. -/
structure KeepsSnapshot (handle : Handle) (snapshotId : Id) (s s' : Store) : Prop where
  row : s'.tables.snapshots.find? snapshotId = s.tables.snapshots.find? snapshotId
  file : s'.files.look (handle.snapshotDir snapshotId ++ ["domain_document.yaml"]) =
    s.files.look (handle.snapshotDir snapshotId ++ ["domain_document.yaml"])

end Statements

/-! ## Tasks that leave a path as it is -/

/-- No call of the task changes what is at `p`. -/
def Leaves {α : Type} (p : Path) (task : Task α) : Prop :=
  Frame (fun _ s s' => s'.files.look p = s.files.look p) (fun _ => True) task

section Leaves

variable {α β : Type} {p q : Path} {task : Task α} {s : Store} {good : Store → Outcome → Prop}

theorem Leaves.ends (h : Leaves p task) :
    Ends good (fun _ s' => s'.files.look p = s.files.look p)
      (fun _ s' => s'.files.look p = s.files.look p) task s := by
  refine (Frame.ends (P := fun s' => s'.files.look p = s.files.look p) h rfl ?_).mono
    (fun _ _ h => h.2) fun _ _ h => h
  intro _ s₁ s₂ h₁ h₂
  exact h₂.trans h₁

theorem Leaves.bind {g : α → Task β} (h : Leaves p task) (hg : ∀ a, Leaves p (g a)) :
    Leaves p (task.bind g) :=
  Frame.andThen h hg

theorem leaves_throw {e : Error} : Leaves p (.throw e : Task α) := trivial

theorem leaves_ret {a : α} : Leaves p (.ret a : Task α) := trivial

theorem Reads.leaves (h : Reads task) : Leaves p task := by
  refine Frame.mono h ?_ fun _ h => h
  rintro _ s s' rfl
  rfl

theorem Leaves.attempt (h : Leaves p task) : Leaves p task.attempt :=
  (Frame.attempt h).mono (fun _ _ _ h => h) fun _ _ => trivial

theorem leaves_ignore {task : Task Unit} (h : Leaves p task) : Leaves p (ignore task) :=
  h.attempt.bind fun _ => leaves_ret

theorem leaves_onError {cleanup : Task Unit} (h : Leaves p task) (h' : Leaves p cleanup) :
    Leaves p (onError task cleanup) := by
  refine h.attempt.bind fun r => ?_
  cases r with
  | ok a => exact leaves_ret
  | error e => exact (leaves_ignore h').bind fun _ => leaves_throw

theorem leaves_perform {call : Call} {f : FileTree → Option FileTree}
    (h : ∀ t t', f t = some t' → t'.look p = t.look p) : Leaves p (perform call q f) := by
  refine ⟨fun s => ?_, fun s => ?_⟩
  · dsimp only
    cases hf : f s.files with
    | none => rfl
    | some t => exact h _ _ hf
  · dsimp only
    split <;> trivial

theorem leaves_change {call : Call} {f : FileTree → Option FileTree}
    (h : ∀ t t', f t = some t' → t'.look p = t.look p) : Leaves p (change call q f) := by
  refine Frame.ask fun o => ?_
  cases o.fault with
  | some detail => trivial
  | none => exact leaves_perform h

theorem leaves_writeAll {bytes : List UInt8} (hne : p ≠ q) : Leaves p (writeAll q bytes) := by
  have hperform : ∀ b, Leaves p (perform (.write q) q (·.write q b) : Task Unit) := by
    intro b
    refine leaves_perform fun t t' ht => ?_
    rw [look_write ht, if_neg hne]
  refine Frame.ask fun o => ?_
  cases o.fault with
  | some detail => exact (hperform _).bind fun _ => leaves_throw
  | none => exact hperform _

theorem leaves_statement {f : Workspace → Except Error α × Workspace} :
    Leaves p (statement f) := by
  refine Frame.ask fun o => ?_
  cases o.fault with
  | some detail => trivial
  | none => exact frame_stepE (fun _ => rfl) fun _ _ _ => trivial

theorem leaves_removeFile (hne : p ≠ q) : Leaves p (removeFile q) := by
  refine leaves_change fun t t' ht => ?_
  rw [look_removeFile ht, if_neg hne]

theorem leaves_removeDirAll (hout : ¬ q <+: p) : Leaves p (removeDirAll q) := by
  refine leaves_change fun t t' ht => ?_
  rw [look_removeDirAll ht, if_neg hout]

theorem leaves_rename {source target at_ : Path} (hsource : ¬ source <+: p)
    (htarget : ¬ target <+: p) : Leaves p (rename source target at_) := by
  refine leaves_change fun t t' ht => ?_
  by_cases hne : source = target
  · rw [hne] at ht
    rw [rename_self ht]
  · rw [look_rename ht hne, if_neg htarget, if_neg hsource]

end Leaves

/-! ## The publication -/

section Publication

variable {self : Handle} {yaml : Yaml} {documents : Documents} {i : Id} {p : Path} {s : Store}
  {good : Store → Outcome → Prop}

theorem leaves_finishInstanceDeletion (hout : ¬ self.instanceDir i <+: p) :
    Leaves p (finishInstanceDeletion self i) := by
  refine (Reads.leaves reads_select).bind fun pending => ?_
  split
  · exact leaves_ret
  refine Leaves.bind (leaves_change fun t t' ht => ?_) fun _ => ?_
  · rw [look_removeDirAllIfAny ht, if_neg hout]
  refine (reads_syncDirectory _).leaves.bind fun _ => ?_
  exact leaves_statement.bind fun _ => leaves_ret

theorem leaves_clearDestination (hout : ¬ self.instanceDir i <+: p) :
    Leaves p (clearDestination self i) := by
  refine (Reads.leaves reads_exists).bind fun taken => ?_
  split
  · refine (reads_isReplaceable _).leaves.bind fun replaceable => ?_
    split
    · exact leaves_removeDirAll hout
    · exact leaves_throw
  · exact leaves_ret

variable {bytes : List UInt8} {directory : Path}

theorem leaves_atomicConfigurationFile {name : String}
    (htemporary : ∀ nanos, p ≠ directory ++ [self.temporary "instance" nanos])
    (hout : ¬ directory ++ [name] <+: p)
    (htemporaryOut : ∀ nanos, ¬ directory ++ [self.temporary "instance" nanos] <+: p) :
    Leaves p (atomicConfigurationFile self (directory ++ [name]) bytes) := by
  unfold atomicConfigurationFile
  simp only [dropLast_concat]
  refine (reads_canonicalize _).leaves.bind fun _ => ?_
  refine (reads_canonicalize _).leaves.bind fun _ => ?_
  split
  · exact leaves_throw
  refine Frame.andThen (fun _ => trivial) fun nanos => ?_
  refine leaves_onError ?_ (leaves_removeFile (htemporary nanos))
  refine Leaves.bind (leaves_change fun t t' ht => ?_) fun _ => ?_
  · split at ht
    · rw [look_write ht, if_neg (htemporary nanos)]
    · cases ht
  refine (leaves_writeAll (htemporary nanos)).bind fun _ => ?_
  refine (Reads.leaves (reads_change fun t t' ht => (Option.some.inj ht).symm)).bind fun _ => ?_
  refine (leaves_rename (htemporaryOut nanos) hout).bind fun _ => ?_
  exact (reads_syncDirectory _).leaves

/-- Another file of a directory is not below one of its files. -/
theorem not_below_sibling {a b : String} (hne : a ≠ b) :
    ¬ directory ++ [a] <+: directory ++ [b] := by
  rw [prefix_append_right_inj]
  simpa using hne

/-- A name that does not begin as the temporary files do. -/
theorem temporary_ne (nanos : Nat) {name : String} (h : name.toList.head? ≠ some '.') :
    self.temporary "instance" nanos ≠ name := by
  rintro rfl
  simp [Handle.temporary, String.toList_append] at h

/-- The domain document in a staging directory is read as it is. -/
theorem ends_readStagedDomain
    (hfile : s.files.look (directory ++ ["domain_document.yaml"]) = some (.file bytes)) :
    Ends good (fun value s' => s' = s ∧ ∃ document, documents.load bytes = .ok document ∧
        value = some document) (fun _ _ => True) (readStagedDomain documents directory) s := by
  refine Ends.bind (M := fun found s' => s' = s ∧ found = some (.file bytes))
    (ends_metadata (fun _ _ _ _ => trivial) ⟨rfl, hfile⟩) ?_
  rintro found s₁ ⟨hs₁, hfound⟩
  rw [hs₁, hfound]
  refine ((Reads.ends reads_readFile).mono (fun _ _ h => h) fun _ _ _ => trivial).bind ?_
  rintro _ s₂ hs₂
  rw [hs₂]
  refine Ends.bind (M := fun value s' => s' = s ∧ documents.load bytes = .ok value) ?_ ?_
  · refine Ends.bind (M := fun read s' => s' = s ∧ read = bytes)
      (ends_readFile (fun _ _ _ _ => trivial) (fun _ _ => trivial) ?_) ?_
    · intro read hread
      rw [hfile] at hread
      cases hread
      exact ⟨rfl, rfl⟩
    rintro read s₃ ⟨hs₃, hread⟩
    rw [hs₃, hread]
    split
    · next value hvalue => exact ⟨rfl, hvalue⟩
    · trivial
  rintro value s₄ ⟨hs₄, hvalue⟩
  rw [hs₄]
  exact ⟨rfl, value, hvalue, rfl⟩

/-- What a published directory with a domain document holds. -/
structure PublishedDomain (handle : Handle) (documents : Documents) (i : Id) (bytes : List UInt8)
    (s : Store) : Prop where
  file : s.files.look (handle.instanceDir i ++ ["domain_document.yaml"]) = some (.file bytes)
  stored : ∃ value document, documents.load bytes = .ok value ∧
    s.files.look (handle.instanceDir i ++ ["instance.yaml"]) =
      some (.file (documents.write document)) ∧
    document.instanceId = i.asStr ∧ document.domainDocument = some value

/-- A task that leaves the two documents as they are. -/
theorem PublishedDomain.keep {α : Type} {task : Task α}
    (h : PublishedDomain self documents i bytes s)
    (hleaves : ∀ name ∈ ["domain_document.yaml", "instance.yaml"],
      Leaves (self.instanceDir i ++ [name]) task) :
    Ends good (fun _ s' => PublishedDomain self documents i bytes s')
      (fun _ s' => PublishedDomain self documents i bytes s') task s := by
  have hkeep : ∀ s' : Store,
      s'.files.look (self.instanceDir i ++ ["domain_document.yaml"]) =
        s.files.look (self.instanceDir i ++ ["domain_document.yaml"]) ∧
      s'.files.look (self.instanceDir i ++ ["instance.yaml"]) =
        s.files.look (self.instanceDir i ++ ["instance.yaml"]) →
      PublishedDomain self documents i bytes s' := by
    rintro s' ⟨hfile, hstored⟩
    obtain ⟨value, document, hvalue, hdocument, hid⟩ := h.stored
    exact ⟨hfile.trans h.file, value, document, hvalue, hstored.trans hdocument, hid⟩
  refine ((hleaves "domain_document.yaml" (by simp)).ends.and
    (hleaves "instance.yaml" (by simp)).ends).mono ?_ ?_
  · exact fun _ s' h => hkeep s' h
  · exact fun _ s' h => hkeep s' h

/-- The envelope is written next to the domain document. -/
theorem ends_writeInstanceDocumentAt_domain {document : InstanceDocument}
    (hfile : s.files.look (directory ++ ["domain_document.yaml"]) = some (.file bytes)) :
    Ends good
      (fun _ s' => s'.files.look (directory ++ ["domain_document.yaml"]) = some (.file bytes) ∧
        s'.files.look (directory ++ ["instance.yaml"]) = some (.file (documents.write document)))
      (fun _ _ => True)
      (writeInstanceDocumentAt self documents (directory ++ ["instance.yaml"]) document) s := by
  have htemporary : ∀ nanos, self.temporary "instance" nanos ≠ "domain_document.yaml" :=
    fun nanos => temporary_ne nanos (by decide)
  have hsibling : Leaves (directory ++ ["domain_document.yaml"])
      (writeInstanceDocumentAt self documents (directory ++ ["instance.yaml"]) document) := by
    apply leaves_atomicConfigurationFile
    · intro nanos h
      exact htemporary nanos (by simpa using h.symm)
    · exact not_below_sibling (by decide)
    · intro nanos
      exact not_below_sibling (htemporary nanos)
  have hwritten : Ends good
      (fun _ s' => s'.files.look (directory ++ ["instance.yaml"]) =
        some (.file (documents.write document))) (fun _ _ => True)
      (writeInstanceDocumentAt self documents (directory ++ ["instance.yaml"]) document) s := by
    apply Ends.mono (Ends.fewer (ends_atomicConfigurationFile (temporary_ne_document self))
      fun _ _ _ => trivial)
    · exact fun _ _ h => h.2.1
    · exact fun _ _ _ => trivial
  refine (hsibling.ends.and hwritten).mono ?_ fun _ _ _ => trivial
  rintro _ s' ⟨hdomain, hdocument⟩
  exact ⟨hdomain.trans hfile, hdocument⟩

/-- A directory with a domain document is published with it. -/
theorem ends_publishPreparedInstance_domain {imageId profileId : Id} {staged : Path}
    {planJson : String} {autoRemove : Bool}
    (hfile : s.files.look (self.root ++ "staging" :: staged ++ ["domain_document.yaml"]) =
      some (.file bytes)) :
    Ends good (fun _ s' => PublishedDomain self documents i bytes s') (fun _ _ => True)
      (publishPreparedInstance self yaml documents i imageId profileId
        (self.root ++ "staging" :: staged) planJson autoRemove) s := by
  have hout : ∀ q : Path, ¬ self.instanceDir i <+: self.root ++ "staging" :: staged ++ q := by
    intro q
    rw [instanceDir_eq, append_assoc]
    exact not_below (by decide)
  have houtside : ∀ q : Path, ¬ self.root ++ "staging" :: staged <+: self.instanceDir i ++ q := by
    intro q
    rw [instanceDir_eq, append_assoc]
    exact not_below (by decide)
  generalize hstaged : self.root ++ "staging" :: staged = directory at *
  have hkeep : ∀ {α : Type} {task : Task α} {s₁ : Store},
      Leaves (directory ++ ["domain_document.yaml"]) task →
      s₁.files.look (directory ++ ["domain_document.yaml"]) = some (.file bytes) →
      Ends good (fun _ s' => s'.files.look (directory ++ ["domain_document.yaml"]) =
        some (.file bytes)) (fun _ _ => True) task s₁ := by
    intro α task s₁ htask h₁
    exact htask.ends.mono (fun _ _ h => h.trans h₁) fun _ _ _ => trivial
  refine (hkeep (leaves_finishInstanceDeletion (hout _)) hfile).bind fun _ s₁ h₁ => ?_
  refine (hkeep (reads_image imageId).leaves h₁).bind fun _ s₂ h₂ => ?_
  refine (hkeep (leaves_clearDestination (hout _)) h₂).bind fun _ s₃ h₃ => ?_
  refine (hkeep (reads_readStagedProfile _).leaves h₃).bind fun profile s₄ h₄ => ?_
  refine (ends_readStagedDomain h₄).bind ?_
  rintro domainDocument s₅ ⟨hs₅, value, hvalue, hdomain⟩
  rw [hs₅, hdomain]
  split
  · trivial
  -- the envelope stands next to the domain document
  refine (ends_writeInstanceDocumentAt_domain h₄).bind ?_
  rintro _ s₆ ⟨h₆, hdocument₆⟩
  refine Ends.bind (M := fun _ s' => s'.files.look (directory ++ ["domain_document.yaml"]) =
      some (.file bytes) ∧ ∃ document, s'.files.look (directory ++ ["instance.yaml"]) =
        some (.file (documents.write document)) ∧ document.instanceId = i.asStr ∧
        document.domainDocument = some value)
    ((ends_writeFile (fun _ _ => trivial) _ _).mono ?_ fun _ _ h => h) ?_
  · rintro _ s₇ ⟨-, hlook⟩
    have hkept : ∀ name, name ≠ ".machineemu-create" →
        s₇.files.look (directory ++ [name]) = s₆.files.look (directory ++ [name]) := by
      intro name hname
      rw [hlook, if_neg (by simpa using hname)]
    exact ⟨(hkept _ (by decide)).trans h₆, _, (hkept _ (by decide)).trans hdocument₆, rfl, rfl⟩
  rintro _ s₇ ⟨h₇, document, hdocument₇, hid, hembedded⟩
  refine Ends.bind (M := fun _ s' => PublishedDomain self documents i bytes s')
    (ends_change (fun _ _ _ _ => trivial) (fun _ _ => trivial) fun t ht => ?_) ?_
  · have hne : directory ≠ self.instanceDir i := by
      intro h
      have hroot := houtside []
      rw [append_nil, h] at hroot
      exact hroot prefix_rfl
    have hmoved : ∀ q, t.look (self.instanceDir i ++ q) = s₇.files.look (directory ++ q) := by
      intro q
      rw [look_rename ht hne, if_pos (prefix_append _ q), drop_left]
    exact ⟨(hmoved _).trans h₇, value, document, hvalue, (hmoved _).trans hdocument₇, hid,
      hembedded⟩
  intro _ s₈ h₈
  refine Ends.bind (M := fun _ s' => PublishedDomain self documents i bytes s')
    ((h₈.keep fun name _ => leaves_statement.attempt).mono (fun _ _ h => h) fun _ _ _ => trivial)
    fun result s₉ h₉ => ?_
  cases result with
  | error e =>
    exact Ends.bind (M := fun _ _ => True) (Ends.always (fun _ _ => trivial) fun _ _ => trivial)
      fun _ _ _ => trivial
  | ok row =>
    refine Ends.bind (M := fun _ s' => PublishedDomain self documents i bytes s')
      ((h₉.keep fun name hname => leaves_ignore (leaves_removeFile ?_)).mono (fun _ _ h => h)
        fun _ _ _ => trivial) fun _ s₁₀ h₁₀ => ?_
    · intro h
      have hsame : name = ".machineemu-create" := by simpa using h
      rw [hsame] at hname
      simp at hname
    · exact (h₁₀.keep fun name _ => Reads.leaves reads_select).mono (fun _ _ h => h)
        fun _ _ _ => trivial

end Publication

/-! ## The restore -/

section Restore

variable {self : Handle} {snapshotId i j : Id} {s : Store} {name : String} {bytes : List UInt8}
  {good : Store → Outcome → Prop}

/-- The restore copies a file of the manifest. -/
theorem ends_restoreFiles_file {source staging : Path} {entries : List (String × String)}
    (hapart : ∀ a b : String, source ++ [a] ≠ staging ++ [b])
    (hsource : s.files.look (source ++ [name]) = some (.file bytes))
    (h : name ∈ entries.map Prod.fst ∨
      s.files.look (staging ++ [name]) = some (.file bytes)) :
    Ends good (fun _ s' => s'.files.look (staging ++ [name]) = some (.file bytes))
      (fun _ _ => True) (restoreFiles source staging entries) s := by
  induction entries generalizing s with
  | nil => exact h.resolve_left (by simp)
  | cons e entries ih =>
    obtain ⟨other, expected⟩ := e
    refine Ends.seq (ends_change (fun _ _ _ _ => trivial) (fun _ _ => trivial)
      fun t₁ ht₁ => ?_)
    refine Ends.bind (M := fun _ s' => ∃ read t,
      s.files.look (source ++ [other]) = some (.file read) ∧
        t₁.write (staging ++ [other]) read = some t ∧ s' = s.withFiles t)
      (ends_copyAndHash (fun _ _ _ => trivial) ?_) ?_
    · intro read t hread ht
      rw [withFiles_files, look_write ht₁, if_neg (hapart other other)] at hread
      exact ⟨read, t, hread, ht, rfl⟩
    rintro actual _ ⟨read, t₂, hread, ht₂, rfl⟩
    have hlook := look_write_write ht₁ ht₂
    split
    · trivial
    apply ih
    · rw [withFiles_files, hlook, if_neg (hapart name other)]
      exact hsource
    · by_cases hsame : name = other
      · refine .inr ?_
        rw [← hsame] at hread hlook
        rw [hsource] at hread
        cases hread
        rw [withFiles_files, hlook, if_pos rfl]
      · refine h.imp (fun hmem => ?_) fun hplaced => ?_
        · exact (mem_cons.1 hmem).resolve_left hsame
        · rw [withFiles_files, hlook, if_neg (by simpa using hsame)]
          exact hplaced

/-- The entries of a directory move to the directory next to it. -/
theorem ends_moveEntries_file {source target : Path} {names : List String}
    (hlength : source.length = target.length) (hne : source ≠ target) (hnodup : names.Nodup)
    (h : name ∈ names ∧ s.files.look (source ++ [name]) = some (.file bytes) ∨
      name ∉ names ∧ s.files.look (target ++ [name]) = some (.file bytes)) :
    Ends good (fun _ s' => s'.files.look (target ++ [name]) = some (.file bytes))
      (fun _ _ => True) (moveEntries source target names) s := by
  induction names generalizing s with
  | nil => exact (h.resolve_left (by simp)).2
  | cons other names ih =>
    obtain ⟨hnew, hnodup⟩ := nodup_cons.1 hnodup
    have hplaces : source ++ [other] ≠ target ++ [other] := fun hsame =>
      hne (append_inj_left' hsame rfl)
    refine Ends.seq (ends_change (fun _ _ _ _ => trivial) (fun _ _ => trivial) fun t ht => ?_)
    have hlook := look_rename ht hplaces
    have hsiblings : ∀ {p q : Path} {a b : String}, p.length = q.length →
        p ++ [a] <+: q ++ [b] → p = q ∧ a = b := by
      intro p q a b hpq hbelow
      have hsame := hbelow.eq_of_length (by simp [hpq])
      obtain ⟨hleft, hright⟩ := append_inj hsame hpq
      exact ⟨hleft, by simpa using hright⟩
    apply ih hnodup
    rcases h with ⟨hmem, hfile⟩ | ⟨hmem, hfile⟩
    · by_cases hsame : name = other
      · refine .inr ⟨by rw [hsame]; exact hnew, ?_⟩
        rw [withFiles_files, hlook, hsame, if_pos prefix_rfl, drop_length, append_nil, ← hsame]
        exact hfile
      · refine .inl ⟨(mem_cons.1 hmem).resolve_left hsame, ?_⟩
        rw [withFiles_files, hlook, if_neg fun hbelow => ?_, if_neg fun hbelow => ?_]
        · exact hfile
        · exact hsame (hsiblings rfl hbelow).2.symm
        · exact hne (hsiblings hlength.symm hbelow).1.symm
    · obtain ⟨hother, hmem⟩ := not_or.1 (fun h => hmem (mem_cons.2 h))
      refine .inr ⟨hmem, ?_⟩
      rw [withFiles_files, hlook, if_neg fun hbelow => ?_, if_neg fun hbelow => ?_]
      · exact hfile
      · exact hne (hsiblings hlength hbelow).1
      · exact hother (hsiblings rfl hbelow).2.symm

/-- Entries that stay where they are. -/
theorem leaves_moveEntries_self {p directory : Path} (names : List String) :
    Leaves p (moveEntries directory directory names) := by
  induction names with
  | nil => exact leaves_ret
  | cons other names ih =>
    refine Leaves.bind (leaves_change fun t t' ht => ?_) fun _ => ih
    rw [rename_self ht]

/-- A restore that returns has put the file of the snapshot in its place. -/
theorem ends_restoreSnapshot_file {manifest : SnapshotRow}
    (hrow : s.tables.snapshots.find? snapshotId = some manifest)
    (hname : name ∈ manifest.files.entries.map Prod.fst)
    (hsource : s.files.look (self.snapshotDir snapshotId ++ [name]) = some (.file bytes)) :
    Ends good (fun _ s' => s'.files.look (self.instanceDir j ++ [name]) = some (.file bytes))
      (fun _ _ => True) (restoreSnapshot self snapshotId (self.instanceDir j)) s := by
  refine (ends_snapshot_alone (fun _ _ => True) covers_true fun _ _ => trivial).bind ?_
  rintro row s₁ ⟨hs₁, hfound⟩
  rw [hrow] at hfound
  cases hfound
  rw [hs₁]
  have hcheck : Reads (checkDestination (self.instanceDir j)) := by
    refine reads_exists.bind fun preexists => ?_
    split
    · refine reads_readDir.bind fun names => ?_
      split
      · exact reads_throw
      · exact reads_ret
    · exact reads_ret
  refine (hcheck.ends.mono (fun _ _ h => h) fun _ _ _ => trivial).bind ?_
  rintro preexists s₂ hs₂
  rw [hs₂]
  -- the staging directory and the target are next to the destination
  obtain ⟨a, htarget⟩ : ∃ a, (if preexists then
      withExtension (self.instanceDir j) "clone-staging" else self.instanceDir j) =
        self.instances ++ [a] := by
    split
    · exact ⟨_, withExtension_instanceDir self j "clone-staging"⟩
    · exact ⟨_, rfl⟩
  obtain ⟨b, hstaging⟩ : ∃ b, withExtension (self.instances ++ [a]) "restore-staging" =
      self.instances ++ [b] :=
    ⟨stem a ++ "." ++ "restore-staging", by simp [withExtension]⟩
  dsimp only
  rw [htarget, hstaging]
  have hapart : ∀ q : Path, ¬ self.snapshotDir snapshotId ++ q <+: self.instances ++ [b] := by
    intro q
    unfold Handle.snapshotDir Handle.instances
    rw [append_assoc, append_assoc]
    exact not_below (by decide)
  refine Ends.bind (M := fun _ s' =>
      s'.files.look (self.snapshotDir snapshotId ++ [name]) = some (.file bytes))
    (ends_change (fun _ _ _ _ => trivial) (fun _ _ => trivial) fun t ht => ?_) ?_
  · rw [withFiles_files, look_createDirAll ht, if_neg (hapart _)]
    exact hsource
  intro _ s₃ h₃
  refine Ends.bind (ends_onError ((ends_restoreFiles_file ?_ h₃ (.inl hname)).mono
    (fun _ _ h => h) fun _ _ _ => Ends.always (fun _ _ _ => trivial) fun _ _ _ => trivial)) ?_
  · intro c d hsame
    refine hapart [c] ?_
    have hroot := append_inj_left' hsame rfl
    rw [Handle.snapshotDir, Handle.instances, append_assoc] at hroot
    simp at hroot
  intro _ s₄ h₄
  refine Ends.bind (M := fun _ s' =>
      s'.files.look (self.instances ++ [a] ++ [name]) = some (.file bytes))
    (ends_change (fun _ _ _ _ => trivial) (fun _ _ => trivial) fun t ht => ?_) ?_
  · by_cases hsame : self.instances ++ [b] = self.instances ++ [a]
    · rw [hsame] at ht h₄
      rw [withFiles_files, rename_self ht]
      exact h₄
    · rw [withFiles_files, look_rename ht hsame, if_pos (prefix_append _ _), drop_left]
      exact h₄
  intro _ s₅ h₅
  refine Ends.bind (M := fun _ s' =>
    s'.files.look (self.instanceDir j ++ [name]) = some (.file bytes)) ?_
    (by intro _ _ h; exact h)
  cases preexists with
  | false =>
    simp only [Bool.false_eq_true, if_false] at htarget
    simp only [Bool.false_eq_true, if_false]
    rw [htarget]
    exact h₅
  | true =>
    simp only [if_true]
    refine Ends.bind (M := fun names s' => s' = s₅ ∧ names = s₅.files.names (self.instances ++ [a]))
      (ends_readDir (fun _ _ _ _ => trivial) (fun _ _ => trivial) fun _ => ⟨rfl, rfl⟩) ?_
    rintro names s₆ ⟨hs₆, hnames⟩
    rw [hs₆, hnames]
    refine Ends.bind (M := fun _ s' =>
      s'.files.look (self.instanceDir j ++ [name]) = some (.file bytes)) ?_ ?_
    · by_cases hsame : self.instances ++ [a] = self.instanceDir j
      · rw [hsame] at h₅ ⊢
        exact ((leaves_moveEntries_self _).ends.mono (fun _ _ h => h.trans h₅) fun _ _ _ => trivial)
      · refine ends_moveEntries_file ?_ hsame (nodup_names _ _) (.inl ⟨?_, h₅⟩)
        · simp [Handle.instanceDir]
        · rw [mem_names, h₅]
          simp
    intro _ s₇ h₇
    refine ends_change (fun _ _ _ _ => trivial) (fun _ _ => trivial) fun t ht => ?_
    rw [withFiles_files, look_removeDir ht, if_neg fun hbelow => ?_]
    · exact h₇
    · -- the target is empty when it goes, so that it is not the destination
      have hsame : a = j.asStr := by
        rw [Handle.instanceDir, append_assoc, prefix_append_right_inj] at hbelow
        simpa using hbelow
      have hempty : s₇.files.names (self.instances ++ [a]) = [] := by
        unfold FileTree.removeDir at ht
        split at ht
        · next hcond => exact hcond.2.2
        · cases ht
      have hmem : name ∈ s₇.files.names (self.instances ++ [a]) := by
        rw [Handle.instanceDir] at h₇
        rw [mem_names, hsame, h₇]
        simp
      rw [hempty] at hmem
      cases hmem

end Restore

/-! ## The three requests -/

section Requests

variable {self : Handle} {yaml : Yaml} {documents : Documents} {toYaml : Json → List UInt8}
  {snapshotId i j imageId profileId : Id} {s : Store} {bytes : List UInt8}
  {good : Store → Outcome → Prop}

theorem leaves_removeIfAny {p q : Path} (hne : p ≠ q) : Leaves p (removeIfAny q) := by
  refine leaves_change fun t t' ht => ?_
  split at ht
  · cases ht
    rfl
  · rw [look_removeFile ht, if_neg hne]

/-- A clone publishes the domain document of the snapshot. -/
theorem ends_cloneSnapshot_domain {manifest : SnapshotRow}
    (hrow : s.tables.snapshots.find? snapshotId = some manifest)
    (hname : "domain_document.yaml" ∈ manifest.files.entries.map Prod.fst)
    (hsource : s.files.look (self.snapshotDir snapshotId ++ ["domain_document.yaml"]) =
      some (.file bytes)) :
    Ends good (fun _ s' => PublishedDomain self documents j bytes s') (fun _ _ => True)
      (cloneSnapshot self yaml documents snapshotId j profileId) s := by
  refine (ends_snapshot_alone (fun _ _ => True) covers_true fun _ _ => trivial).bind ?_
  rintro row s₁ ⟨hs₁, hfound⟩
  rw [hs₁]
  refine (ends_source (fun _ _ => True) covers_true fun _ _ => trivial).bind ?_
  rintro source s₂ ⟨hs₂, -⟩
  rw [hs₂]
  refine (ends_restoreSnapshot_file hrow hname hsource).bind fun _ s₃ h₃ => ?_
  have hremove : ∀ {name : String} {s' : Store}, name ≠ "domain_document.yaml" →
      s'.files.look (self.instanceDir j ++ ["domain_document.yaml"]) = some (.file bytes) →
      Ends good
        (fun _ s'' => s''.files.look (self.instanceDir j ++ ["domain_document.yaml"]) =
          some (.file bytes)) (fun _ _ => True) (removeIfAny (self.instanceDir j ++ [name])) s' := by
    intro name s' hne hfile
    have hleaves : Leaves (self.instanceDir j ++ ["domain_document.yaml"])
        (removeIfAny (self.instanceDir j ++ [name])) := by
      apply leaves_removeIfAny
      intro hsame
      exact hne (by simpa using hsame.symm)
    exact hleaves.ends.mono (fun _ _ h => h.trans hfile) fun _ _ _ => trivial
  refine (hremove (by decide) h₃).bind fun _ s₄ h₄ => ?_
  refine (hremove (by decide) h₄).bind fun _ s₅ h₅ => ?_
  refine (hremove (by decide) h₅).bind fun _ s₆ h₆ => ?_
  have hstaged : self.cloneStaging j =
      self.root ++ "staging" :: ["clone-" ++ j.asStr ++ "-" ++ toString self.pid] := rfl
  rw [hstaged]
  refine Ends.bind (M := fun _ s' => s'.files.look (self.root ++ "staging" ::
      ["clone-" ++ j.asStr ++ "-" ++ toString self.pid] ++ ["domain_document.yaml"]) =
        some (.file bytes))
    (ends_change (fun _ _ _ _ => trivial) (fun _ _ => trivial) fun t ht => ?_) ?_
  · have hne : self.instanceDir j ≠
        self.root ++ "staging" :: ["clone-" ++ j.asStr ++ "-" ++ toString self.pid] := by
      rw [instanceDir_eq]
      simp
    rw [withFiles_files, look_rename ht hne, if_pos (prefix_append _ _), drop_left]
    exact h₆
  intro _ s₇ h₇
  refine ends_onError ((ends_publishPreparedInstance_domain h₇).mono (fun _ _ h => h) ?_)
  exact fun _ _ _ => Ends.always (fun _ _ _ => trivial) fun _ _ _ => trivial

/-- A creation leaves the resolved document in the directory of the instance. -/
theorem ends_createInstance {spec source : Json} {autoRemove : Bool} :
    Ends good
      (fun _ s' => PublishedDomain self documents i (toYaml (resolvedDocument i spec source)) s')
      (fun _ _ => True)
      (createInstance self yaml documents toYaml i imageId profileId spec source autoRemove) s := by
  have hany : ∀ {α β : Type} {task : Task α} {g : α → Task β} {Q : β → Store → Prop} {s' : Store},
      (∀ a s'', Ends good Q (fun _ _ => True) (g a) s'') →
        Ends good Q (fun _ _ => True) (task.bind g) s' :=
    fun h => Ends.bind (M := fun _ _ => True)
      (Ends.always (fun _ _ => trivial) fun _ _ => trivial) fun a s'' _ => h a s''
  refine hany fun _ s₁ => hany fun nanos s₂ => hany fun _ s₃ => ?_
  have hstaged : self.root ++ ["staging", "instances", i.asStr] ++
      [toString self.pid ++ "-" ++ toString nanos] = self.root ++ "staging" ::
        ["instances", i.asStr, toString self.pid ++ "-" ++ toString nanos] := by simp
  rw [hstaged]
  refine Ends.bind (ends_onError ((ends_writeFile (fun _ _ => trivial) _ _).mono (fun _ _ h => h)
    fun _ _ _ => Ends.always (fun _ _ _ => trivial) fun _ _ _ => trivial)) ?_
  rintro _ s₄ ⟨-, hlook⟩
  have hfile := (hlook _).trans (if_pos rfl)
  refine ends_onError ((ends_publishPreparedInstance_domain hfile).mono (fun _ _ h => h) ?_)
  exact fun _ _ _ => Ends.always (fun _ _ _ => trivial) fun _ _ _ => trivial

end Requests

/-- A clone of an instance that the daemon has created is never an instance of its own: its
directory and its envelope have the document that names the source. -/
theorem clone_not_ownInstance (self : Handle) (yaml : Yaml) (documents : Documents)
    (toYaml : Json → List UInt8) (snapshotId i j imageId profileId cloneProfile : Id)
    (spec source : Json) (autoRemove : Bool) (s : Store)
    (hyaml : documents.load (toYaml (resolvedDocument i spec source)) =
      .ok (resolvedDocument i spec source)) :
    Ends (fun _ _ => True)
      (fun _ s₁ => ∀ s₂, KeepsDomain self i s₁ s₂ →
        Ends (fun _ _ => True)
          (fun _ s₃ => ∀ s₄, KeepsSnapshot self snapshotId s₃ s₄ →
            Ends (fun _ _ => True)
              (fun _ s₅ =>
                ¬ OwnInstance self documents i j (resolvedDocument i spec source) s₅)
              (fun _ _ => True)
              (cloneSnapshot self yaml documents snapshotId j cloneProfile) s₄)
          (fun _ _ => True) (createInstanceSnapshot self snapshotId i) s₂)
      (fun _ _ => True)
      (createInstance self yaml documents toYaml i imageId profileId spec source autoRemove) s := by
  refine ends_createInstance.mono (fun _ s₁ h₁ s₂ hkept => ?_) fun _ _ h => h
  have hdocument := hkept.trans h₁.file
  refine (ends_createInstanceSnapshot snapshotId i s₂).mono
    (fun manifest s₃ h₃ s₄ hkept => ?_) fun _ _ h => h
  have hname : "domain_document.yaml" ∈ manifest.files.entries.map Prod.fst :=
    mem_map.2 ⟨_, (mem_entries_iff h₃).2 ⟨_, hdocument, rfl⟩, rfl⟩
  have hsource := hkept.file.trans (h₃.files "domain_document.yaml" _ hdocument (by decide))
  refine (ends_cloneSnapshot_domain (hkept.row.trans h₃.row) hname hsource).mono
    (fun _ s₅ h₅ hown => ?_) fun _ _ h => h
  exact hown.files "domain_document.yaml" _ _ h₅.file hyaml (.inl rfl)

/-! ## A clone of `vm` -/

/-- A workspace with the image `win11`. -/
def daemonStore : Store where
  tables := {}
  files := .dir [("workspace", .dir [
    ("images", .dir [("win11", .dir [("manifest.yaml", .file [])])]),
    ("instances", .dir []), ("staging", .dir []), ("snapshots", .dir [])])]

/-- The hardware of `vm`. -/
def vmSpec : Json := .obj [("devices", .obj [("interfaces", .arr [
  .obj [("mac", .str "52:54:00:5a:1c:07")]])])]

/-- The text of the document of `vm`. -/
def vmYaml : List UInt8 := textBytes ("api_version: machineemu.io/v1\nkind: Instance\n" ++
  "metadata:\n  digest: null\n  name: vm\n  revision: 1\nsource: \x7b\x7d\nspec:\n" ++
  "  devices:\n    interfaces:\n    - mac: 52:54:00:5a:1c:07\nstatus:\n  state: created\n")

/-- A serialiser that reads this document. An envelope has it in its last field. -/
def readsVm : Documents where
  load bytes := if bytes = vmYaml then .ok (resolvedDocument ⟨"vm"⟩ vmSpec (.obj []))
    else .error "not read"
  parse _ := .ok .null
  write document := textBytes ("schema_version: 1\ninstance_id: " ++ document.instanceId ++
    "\nimage_id: " ++ document.imageId ++ "\nprofile_id: " ++ document.profileId ++
    "\nauto_remove: false\nprofile: null\nlaunch_plan: null\ndomain_document:\n" ++
    "  api_version: machineemu.io/v1\n  kind: Instance\n  metadata:\n    digest: null\n" ++
    "    name: vm\n    revision: 1\n  source: \x7b\x7d\n  spec:\n    devices:\n" ++
    "      interfaces:\n      - mac: 52:54:00:5a:1c:07\n  status:\n    state: created\n")

theorem load_vmYaml : readsVm.load vmYaml = .ok (resolvedDocument ⟨"vm"⟩ vmSpec (.obj [])) :=
  if_pos rfl

/-- The instance `vm` is created, a snapshot of it is cloned, and the clone is not an instance of
its own. -/
theorem not_ownInstance : ¬ ∀ (self : Handle) (yaml : Yaml) (documents : Documents)
    (toYaml : Json → List UInt8) (snapshotId i j imageId profileId cloneProfile : Id)
    (spec source : Json) (autoRemove : Bool) (s : Store),
    documents.load (toYaml (resolvedDocument i spec source)) =
      .ok (resolvedDocument i spec source) → j ≠ i →
    Ends (fun _ _ => True)
      (fun _ s' => OwnInstance self documents i j (resolvedDocument i spec source) s')
      (fun _ _ => True)
      ((createInstance self yaml documents toYaml i imageId profileId spec source autoRemove).bind
        fun _ => (createInstanceSnapshot self snapshotId i).bind fun _ =>
          cloneSnapshot self yaml documents snapshotId j cloneProfile) s := by
  intro h
  -- the envelopes are short: nothing depends on them
  have hrun := h preparedHandle readsWin11
    { readsVm with write := fun document => textBytes document.instanceId } (fun _ => vmYaml)
    ⟨"snap"⟩ ⟨"vm"⟩ ⟨"copy"⟩ ⟨"win11"⟩ ⟨"desktop"⟩ ⟨"desktop"⟩ vmSpec (.obj []) false daemonStore
    load_vmYaml (by decide)
  obtain ⟨r, s', hcheck, hown, -⟩ := hrun.of_eval (fun _ _ => true) {} []
    (fun r => r.1.isOk && decide (r.2.files.look
      (preparedHandle.instanceDir ⟨"copy"⟩ ++ ["domain_document.yaml"]) = some (.file vmYaml)))
    (fun _ _ _ => trivial) (by decide +kernel)
  rw [Bool.and_eq_true, decide_eq_true_eq] at hcheck
  cases r with
  | error e => cases hcheck.1
  | ok row => exact (hown row rfl).files _ _ _ hcheck.2 load_vmYaml (.inl rfl)

/-- The clones of `vm`. -/
theorem clone_of_vm_not_ownInstance :
    Ends (fun _ _ => True)
      (fun _ s₁ => ∀ s₂, KeepsDomain preparedHandle ⟨"vm"⟩ s₁ s₂ →
        Ends (fun _ _ => True)
          (fun _ s₃ => ∀ s₄, KeepsSnapshot preparedHandle ⟨"snap"⟩ s₃ s₄ →
            Ends (fun _ _ => True)
              (fun _ s₅ => ¬ OwnInstance preparedHandle readsVm ⟨"vm"⟩ ⟨"copy"⟩
                (resolvedDocument ⟨"vm"⟩ vmSpec (.obj [])) s₅)
              (fun _ _ => True)
              (cloneSnapshot preparedHandle readsWin11 readsVm ⟨"snap"⟩ ⟨"copy"⟩ ⟨"desktop"⟩) s₄)
          (fun _ _ => True) (createInstanceSnapshot preparedHandle ⟨"snap"⟩ ⟨"vm"⟩) s₂)
      (fun _ _ => True)
      (createInstance preparedHandle readsWin11 readsVm (fun _ => vmYaml) ⟨"vm"⟩ ⟨"win11"⟩
        ⟨"desktop"⟩ vmSpec (.obj []) false) daemonStore :=
  clone_not_ownInstance preparedHandle readsWin11 readsVm (fun _ => vmYaml) ⟨"snap"⟩ ⟨"vm"⟩
    ⟨"copy"⟩ ⟨"win11"⟩ ⟨"desktop"⟩ ⟨"desktop"⟩ vmSpec (.obj []) false daemonStore load_vmYaml

end Store

end MachineEmu
