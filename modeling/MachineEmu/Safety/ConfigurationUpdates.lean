import MachineEmu.Api.Documents
import MachineEmu.Safety.CloneIdentity

/-!
# No update of a configuration is lost

Requests to read, replace and upgrade run side by side. Each that is accepted was based on the
document that it replaces, since its revision is compared and the document is written under one
lock.

* `storedDocument` — the document that a request finds.
* `Applied`, `Refused` — what an accepted and a refused request have done.
* `configuration_updates` — the result.
-/

namespace MachineEmu

open Lib Prog

/-- What an accepted request to write makes of a document. -/
def ConfigRequest.Updates : ConfigRequest → InstanceDocument → InstanceDocument → Prop
  | get, _, _ => False
  | put input, d, d' => d' = { d with
      domainDocument := some input.domainDocument, autoRemove := input.autoRemove }
  | upgrade _ _, d, d' => ∃ domain, d' = { d with domainDocument := some domain }

namespace Store

section Stored

variable (self : Handle) (documents : Documents) (i : Id)

/-- The name of the document of an instance; with two files there is none. -/
def documentName (s : Store) : Option String :=
  if s.files.look (self.instanceDir i ++ ["instance.yaml"]) ≠ none ∧
      s.files.look (self.instanceDir i ++ ["instance.yml"]) ≠ none then none
  else some (if s.files.look (self.instanceDir i ++ ["instance.yml"]) ≠ none then "instance.yml"
    else "instance.yaml")

/-- The document of an instance, if its directory has a valid one. -/
def storedDocument (s : Store) : Option InstanceDocument :=
  (s.tables.instance_ i).toOption.bind fun row =>
    (documentName self i s).bind fun name =>
      match s.files.look (self.instanceDir i ++ [name]) with
      | some (.file bytes) => (documents.load bytes).toOption.bind fun value =>
          (checkInstanceDocument value row i).toOption
      | _ => none

/-- An accepted request has found a document with its revision, and has written what it makes of
it. -/
def Applied (request : ConfigRequest) (s s' : Store) : Prop :=
  ∃ d d', storedDocument self documents i s = some d ∧ request.revision = some d.revision ∧
    request.Updates d d' ∧ ∃ name ∈ ["instance.yaml", "instance.yml"],
      s'.files.look (self.instanceDir i ++ [name]) = some (.file (documents.write d'))

/-- A request that is not accepted has changed nothing, unless it had found its revision. -/
def Refused (request : ConfigRequest) (s s' : Store) : Prop :=
  s' = s ∨ ∃ d, storedDocument self documents i s = some d ∧ request.revision = some d.revision

end Stored

section Ends

variable {self : Handle} {documents : Documents} {i : Id} {s : Store}
  {fromSlice : List UInt8 → Except String Json} {good : Store → Outcome → Prop}

theorem mem_of_documentName {name : String} (h : documentName self i s = some name) :
    name ∈ ["instance.yaml", "instance.yml"] := by
  unfold documentName at h
  split at h
  · cases h
  · cases h
    split <;> simp

theorem ends_instanceDocumentPath :
    Ends good (fun path s' => s' = s ∧ ∃ name, documentName self i s = some name ∧
        path = self.instanceDir i ++ [name])
      (fun _ s' => s' = s) (instanceDocumentPath self i) s := by
  refine Ends.bind (M := fun yaml s' => s' = s ∧
    yaml = s.files.look (self.instanceDir i ++ ["instance.yaml"]))
    (ends_metadata (fun _ _ _ _ => rfl) ⟨rfl, rfl⟩) ?_
  rintro yaml s₁ ⟨hs₁, hyaml⟩
  rw [hs₁]
  refine Ends.bind (M := fun yml s' => s' = s ∧
    yml = s.files.look (self.instanceDir i ++ ["instance.yml"]))
    (ends_metadata (fun _ _ _ _ => rfl) ⟨rfl, rfl⟩) ?_
  rintro yml s₂ ⟨hs₂, hyml⟩
  rw [hs₂, hyaml, hyml]
  split
  · rfl
  · next hone =>
    refine ⟨rfl, _, ?_, rfl⟩
    rw [documentName, if_neg hone]

/-- What is read is the stored document. -/
theorem ends_instanceDocument :
    Ends good (fun d s' => s' = s ∧ storedDocument self documents i s = some d)
      (fun _ s' => s' = s) (instanceDocument self documents i) s := by
  refine Ends.bind (M := fun row s' => s' = s ∧ s.tables.instance_ i = .ok row)
    (ends_select (fun _ _ _ _ => rfl) (fun _ _ => rfl) fun row hrow => ⟨rfl, hrow⟩) ?_
  rintro row s₁ ⟨hs₁, hrow⟩
  rw [hs₁]
  refine ends_instanceDocumentPath.bind ?_
  rintro path s₂ ⟨hs₂, name, hname, hpath⟩
  rw [hs₂, hpath]
  have hchecked : Reads (checkConfigurationPath self (self.instanceDir i ++ [name])) := by
    refine (reads_canonicalize _).bind fun _ => (reads_canonicalize _).bind fun _ =>
      (reads_canonicalize _).bind fun _ => ?_
    split
    · exact reads_ret
    · exact reads_throw
  refine hchecked.ends.bind ?_
  rintro _ s₃ hs₃
  rw [hs₃]
  refine Ends.bind (M := fun value s' => s' = s ∧ ∃ bytes,
    s.files.look (self.instanceDir i ++ [name]) = some (.file bytes) ∧
      documents.load bytes = .ok value) ?_ ?_
  · refine Ends.bind (M := fun bytes s' => s' = s ∧
      s.files.look (self.instanceDir i ++ [name]) = some (.file bytes))
      (ends_readFile (fun _ _ _ _ => rfl) (fun _ _ => rfl) fun bytes h => ⟨rfl, h⟩) ?_
    rintro bytes s₄ ⟨hs₄, hbytes⟩
    rw [hs₄]
    split
    · next value hvalue => exact ⟨rfl, bytes, hbytes, hvalue⟩
    · rfl
  rintro value s₅ ⟨hs₅, bytes, hbytes, hvalue⟩
  rw [hs₅]
  refine ends_ofExcept.2 ⟨fun d hd => ⟨rfl, ?_⟩, fun _ _ => rfl⟩
  simp [storedDocument, hrow, hname, hbytes, hvalue, hd, Except.toOption]

/-- The document is written under one of its names. -/
theorem ends_writeDocument {document : InstanceDocument} {name : String}
    (hname : name ∈ ["instance.yaml", "instance.yml"]) :
    Ends good (fun _ s' => s'.files.look (self.instanceDir i ++ [name]) =
        some (.file (documents.write document)))
      (fun _ _ => True)
      (writeInstanceDocumentAt self documents (self.instanceDir i ++ [name]) document) s := by
  have hplain : ∀ nanos, self.temporary "instance" nanos ≠ name := by
    intro nanos
    apply temporary_ne
    simp only [List.mem_cons, List.not_mem_nil, or_false] at hname
    rcases hname with rfl | rfl <;> decide
  refine ((ends_atomicConfigurationFile hplain).fewer fun _ _ _ => trivial).mono ?_ ?_
  · exact fun _ _ h => h.2.1
  · exact fun _ _ _ => trivial

/-- What every run ends in that may fail in any way. -/
theorem ends_throwing {α : Type} {task : Task α} {Q : α → Store → Prop} {X : Error → Store → Prop}
    (h : Ends good Q (fun _ _ => True) task s) (hX : ∀ e s', X e s') : Ends good Q X task s :=
  h.mono (fun _ _ h => h) fun e s' _ => hX e s'

/-- A part whose outcome does not matter. -/
theorem ends_andThen {α β : Type} {task : Task α} {g : α → Task β} {Q : β → Store → Prop}
    (h : ∀ a s', Ends good Q (fun _ _ => True) (g a) s') :
    Ends good Q (fun _ _ => True) (task.bind g) s :=
  Ends.bind (M := fun _ _ => True) (Ends.always (fun _ _ => trivial) fun _ _ => trivial)
    fun a s' _ => h a s'

theorem ends_replaceDomainDocument {input : InstanceConfig} :
    Ends good (fun _ s' => Applied self documents i (.put input) s s')
      (fun _ s' => Refused self documents i (.put input) s s')
      (replaceDomainDocument self documents i input.revision input.domainDocument
        input.autoRemove) s := by
  unfold replaceDomainDocument
  split
  · exact .inl rfl
  refine (ends_instanceDocument.mono (fun _ _ h => h) fun _ _ h => .inl h).bind ?_
  rintro d s₁ ⟨hs₁, hd⟩
  rw [hs₁]
  split
  · exact .inl rfl
  next hrevision =>
  rw [not_ne_iff] at hrevision
  -- from here on the request had found its revision
  refine ends_throwing ?_ fun _ _ => .inr ⟨d, hd, by rw [hrevision]; rfl⟩
  refine ends_andThen fun row s₂ => ?_
  refine ends_andThen fun _ s₃ => ?_
  refine (ends_throwing (ends_instanceDocumentPath.mono (fun _ _ h => h) fun _ _ _ => trivial)
    fun _ _ => trivial).bind ?_
  rintro path s₄ ⟨-, name, hname, rfl⟩
  refine (ends_writeDocument (mem_of_documentName hname)).bind ?_
  intro _ s₅ hwritten
  exact ⟨d, _, hd, by rw [hrevision]; rfl, rfl, name, mem_of_documentName hname, hwritten⟩

theorem reads_atRest (row : Instance) : Reads (atRest row) := by
  unfold atRest
  split
  · exact reads_ret
  · exact reads_select.bind fun _ => reads_ret

theorem ends_putInstanceConfig {input : InstanceConfig} :
    Ends good (fun _ s' => Applied self documents i (.put input) s s')
      (fun _ s' => Refused self documents i (.put input) s s')
      (putInstanceConfig self documents i input) s := by
  unfold putInstanceConfig
  split
  · exact .inl rfl
  refine ((reads_select).ends.mono (fun _ _ h => h) fun _ _ h => .inl h).bind ?_
  rintro row s₁ hs₁
  rw [hs₁]
  refine ((reads_atRest row).ends.mono (fun _ _ h => h) fun _ _ h => .inl h).bind ?_
  rintro rest s₂ hs₂
  rw [hs₂]
  split
  · exact .inl rfl
  refine (ends_instanceDocument.mono (fun _ _ h => h) fun _ _ h => .inl h).bind ?_
  rintro d s₃ ⟨hs₃, -⟩
  rw [hs₃]
  split
  · exact .inl rfl
  split
  · exact .inl rfl
  exact ends_replaceDomainDocument.bind fun _ s' h => h

theorem ends_upgradeInstanceEngine {revision : Int} {engine : Json} :
    Ends good (fun _ s' => Applied self documents i (.upgrade revision engine) s s')
      (fun _ s' => Refused self documents i (.upgrade revision engine) s s')
      (upgradeInstanceEngine self documents fromSlice i revision engine) s := by
  unfold upgradeInstanceEngine
  refine ((reads_select).ends.mono (fun _ _ h => h) fun _ _ h => .inl h).bind ?_
  rintro row s₁ hs₁
  rw [hs₁]
  refine ((reads_atRest row).ends.mono (fun _ _ h => h) fun _ _ h => .inl h).bind ?_
  rintro rest s₂ hs₂
  rw [hs₂]
  split
  · exact .inl rfl
  refine (ends_instanceDocument.mono (fun _ _ h => h) fun _ _ h => .inl h).bind ?_
  rintro d s₃ ⟨hs₃, hd⟩
  rw [hs₃]
  split
  · exact .inl rfl
  next hrevision =>
  rw [not_ne_iff] at hrevision
  refine ends_throwing ?_ fun _ _ => .inr ⟨d, hd, by rw [hrevision]; rfl⟩
  refine ends_andThen fun domain s₄ => ?_
  refine ends_andThen fun candidate s₅ => ?_
  refine ends_andThen fun manifest s₆ => ?_
  refine ends_andThen fun _ s₇ => ?_
  refine ends_andThen fun upgraded s₈ => ?_
  refine (ends_throwing (ends_instanceDocumentPath.mono (fun _ _ h => h) fun _ _ _ => trivial)
    fun _ _ => trivial).bind ?_
  rintro path s₉ ⟨-, name, hname, rfl⟩
  refine (ends_writeDocument (mem_of_documentName hname)).bind ?_
  intro _ s₁₀ hwritten
  refine Ends.bind (M := fun _ s' => s'.files.look (self.instanceDir i ++ [name]) =
    some (.file (documents.write { d with domainDocument := some upgraded.toJson })))
    (ends_statement (fun _ _ _ _ => trivial) (fun _ _ => trivial) fun _ _ => hwritten) ?_
  intro _ s₁₁ hkept
  exact ⟨d, _, hd, by rw [hrevision]; rfl, ⟨_, rfl⟩, name, mem_of_documentName hname, hkept⟩

/-- What every request ends in. -/
theorem ends_body (request : ConfigRequest) :
    Ends good
      (fun _ s' => request = .get ∧ s' = s ∨ Applied self documents i request s s')
      (fun _ s' => Refused self documents i request s s')
      (request.body self documents fromSlice i) s := by
  cases request with
  | get =>
    refine Ends.bind (M := fun _ s' => s' = s) ?_ fun _ s' h => .inl ⟨rfl, h⟩
    refine (ends_instanceDocument.mono (fun _ _ h => h.1) fun _ _ h => .inl h).bind ?_
    rintro d s₁ hs₁
    split
    · exact .inl hs₁
    · exact hs₁
  | put input => exact ends_putInstanceConfig.bind fun _ _ h => .inr h
  | upgrade revision engine => exact ends_upgradeInstanceEngine.bind fun _ _ h => .inr h

end Ends

/-! ## Requests that are accepted -/

section May

variable {self : Handle} {documents : Documents} {i : Id} {s s' : Store} {p : Path} {α : Type}

theorem eq_ok_of_toOption {ε : Type} {r : Except ε α} {a : α} (h : r.toOption = some a) :
    r = .ok a := by
  cases r with
  | error e => cases h
  | ok b =>
    cases h
    rfl

/-- A first part that may return. -/
theorem may_then {β : Type} {task : Task α} {g : α → Task β} {Q : Except Error β → Store → Prop}
    {a : α} (h : May (fun r t => r = .ok a ∧ t = s') task s) (hg : May Q (g a) s') :
    May Q (task.bind g) s := by
  refine May.bind (h.mono ?_)
  rintro _ _ ⟨rfl, rfl⟩
  exact ⟨a, rfl, hg⟩

theorem may_select {f : Workspace → Except Error α} {a : α} (h : f s.tables = .ok a) :
    May (fun r t => r = .ok a ∧ t = s) (select f) s :=
  ⟨{}, may_stepE.2 ⟨h, rfl⟩⟩

theorem may_metadata : May (fun r t => r = .ok (s.files.look p) ∧ t = s) (metadata p) s :=
  ⟨{}, rfl, rfl⟩

theorem may_readFile {bytes : List UInt8} (h : s.files.look p = some (.file bytes)) :
    May (fun r t => r = .ok bytes ∧ t = s) (readFile p) s := by
  refine ⟨{}, may_act.2 ?_⟩
  simp [h]

theorem may_canonicalize (h : s.files.look p ≠ none) :
    May (fun r t => r = .ok () ∧ t = s) (canonicalize p) s := by
  refine ⟨{}, may_act.2 ?_⟩
  simp [h]

theorem may_instanceDocumentPath {name : String} (h : documentName self i s = some name) :
    May (fun r t => r = .ok (self.instanceDir i ++ [name]) ∧ t = s) (instanceDocumentPath self i)
      s := by
  refine may_then may_metadata (may_then may_metadata ?_)
  unfold documentName at h
  split at h
  · cases h
  · next hone =>
    cases h
    rw [if_neg hone]
    exact ⟨rfl, rfl⟩

/-- The stored document can be read. -/
theorem may_instanceDocument {d : InstanceDocument} (hroot : s.files.look self.root ≠ none)
    (hdirectory : s.files.look (self.instanceDir i) ≠ none)
    (h : storedDocument self documents i s = some d) :
    May (fun r t => r = .ok d ∧ t = s) (instanceDocument self documents i) s := by
  unfold storedDocument at h
  obtain ⟨row, hrow, h⟩ := Option.bind_eq_some_iff.1 h
  obtain ⟨name, hname, h⟩ := Option.bind_eq_some_iff.1 h
  split at h
  · next bytes hbytes =>
    obtain ⟨value, hvalue, hd⟩ := Option.bind_eq_some_iff.1 h
    replace hrow := eq_ok_of_toOption hrow
    replace hvalue := eq_ok_of_toOption hvalue
    replace hd := eq_ok_of_toOption hd
    refine may_then (may_select hrow) (may_then (may_instanceDocumentPath hname) ?_)
    have hchecked : May (fun r t => r = .ok () ∧ t = s)
        (checkConfigurationPath self (self.instanceDir i ++ [name])) s := by
      refine may_then (may_canonicalize hroot) ?_
      refine may_then (may_canonicalize (by simp [hbytes])) ?_
      refine may_then (may_canonicalize (by simpa using hdirectory)) ?_
      rw [if_pos]
      · exact ⟨rfl, rfl⟩
      · simp [Handle.instanceDir, Handle.instances]
    refine may_then hchecked ?_
    have hloaded : May (fun r t => r = .ok value ∧ t = s)
        (loadDocument documents (self.instanceDir i ++ [name])) s := by
      refine may_then (may_readFile hbytes) ?_
      rw [hvalue]
      exact ⟨rfl, rfl⟩
    refine may_then hloaded ?_
    rw [hd]
    exact ⟨rfl, rfl⟩
  · cases h

/-- A request that fits the instance and carries the revision of its document is accepted when the
document can be written. -/
theorem may_putInstanceConfig {input : InstanceConfig} {row : Instance} {d : InstanceDocument}
    {domain : DomainDocument} {name : String} (hschema : input.schemaVersion = 1)
    (hrow : s.tables.instance_ i = .ok row)
    (hstate : row.state = .created ∨ row.state = .stopped ∨ row.state = .error)
    (hactive : s.tables.activeRun row.instanceId = none)
    (hroot : s.files.look self.root ≠ none) (hdirectory : s.files.look (self.instanceDir i) ≠ none)
    (hd : storedDocument self documents i s = some d) (hrevision : input.revision = d.revision)
    (hids : input.instanceId = i.asStr ∧ input.imageId = row.imageId.asStr ∧
      input.profileId = row.profileId.asStr)
    (hobject : input.domainDocument.isObj = true)
    (hvalid : validateDomainInstanceDocument input.domainDocument row = .ok domain)
    (hname : documentName self i s = some name)
    (hwrite : May (fun r t => r = .ok () ∧ t = s')
      (writeInstanceDocumentAt self documents (self.instanceDir i ++ [name])
        { d with domainDocument := some input.domainDocument, autoRemove := input.autoRemove }) s) :
    May (fun r t => (∃ a, r = .ok a) ∧ t = s') (putInstanceConfig self documents i input) s := by
  have hrest : May (fun r t => r = .ok true ∧ t = s) (atRest row) s := by
    unfold atRest
    rw [if_neg (by tauto)]
    refine may_then (may_select rfl) ?_
    rw [hactive]
    exact ⟨rfl, rfl⟩
  unfold putInstanceConfig
  rw [if_neg (not_not.2 hschema)]
  refine may_then (may_select hrow) (may_then hrest ?_)
  rw [if_neg (by simp)]
  refine may_then (may_instanceDocument hroot hdirectory hd) ?_
  rw [if_neg (not_not.2 hrevision), if_neg (by tauto)]
  refine May.bind (May.mono (Q := fun r t => (∃ a, r = .ok a) ∧ t = s') ?_ ?_)
  · unfold replaceDomainDocument
    rw [if_neg (by simp [hobject])]
    refine may_then (may_instanceDocument hroot hdirectory hd) ?_
    rw [if_neg (not_not.2 hrevision.symm)]
    refine may_then (may_select hrow) ?_
    rw [hvalid]
    have hchecked : May (fun r t => r = .ok domain ∧ t = s)
        (ofExcept (.ok domain) : Task DomainDocument) s := ⟨rfl, rfl⟩
    refine may_then hchecked ?_
    refine may_then (may_instanceDocumentPath hname) (may_then hwrite ?_)
    exact ⟨⟨_, rfl⟩, rfl⟩
  · rintro r t ⟨⟨a, rfl⟩, rfl⟩
    exact ⟨a, rfl, ⟨_, rfl⟩, rfl⟩

end May

/-- Two requests of a run that have found different documents have found different revisions. -/
def CollisionFree (self : Handle) (documents : Documents) (i : Id)
    (log : List (Guarded.Entry Store Error ConfigAnswer ConfigRequest)) : Prop :=
  ∀ e ∈ log, ∀ e' ∈ log, ∀ d d', storedDocument self documents i e.before = some d →
    storedDocument self documents i e'.before = some d' → d.revision = d'.revision → d = d'

/-- Whether a request to write was accepted. -/
def Accepted (e : Guarded.Entry Store Error ConfigAnswer ConfigRequest) : Prop :=
  e.request.revision ≠ none ∧ e.result.isOk = true

end Store

open Store

/-- In every run the requests have taken effect one after the other; an accepted one has found its
revision and has written what it makes of the document that it has found, one whose revision is
stale is rejected and changes nothing, and two accepted ones with the same revision have found the
same document. -/
theorem configuration_updates (self : Handle) (documents : Documents)
    (fromSlice : List UInt8 → Except String Json) (i : Id) (init : Store)
    (c : Guarded.Config Store Outcome Call Error ConfigAnswer ConfigRequest ConfigLock)
    (h : (configuration self documents fromSlice i).Reachable init c) :
    (∃ s, Guarded.Linked init c.log s) ∧
    (∀ e ∈ c.log, e.request = .get → e.after = e.before) ∧
    (∀ e ∈ c.log, Accepted e → Applied self documents i e.request e.before e.after) ∧
    (∀ e ∈ c.log, ∀ d, e.request.revision ≠ none →
      storedDocument self documents i e.before = some d → e.request.revision ≠ some d.revision →
      ¬ Accepted e ∧ e.after = e.before) ∧
    (CollisionFree self documents i c.log → ∀ e ∈ c.log, ∀ e' ∈ c.log, Accepted e → Accepted e' →
      e.request.revision = e'.request.revision →
      ∃ d, storedDocument self documents i e.before = some d ∧
        storedDocument self documents i e'.before = some d) := by
  have hserial := h.serial (m := .workspace) fun request => by
    cases request <;> simp [configuration, ConfigRequest.locks]
  have hended : ∀ e ∈ c.log,
      (∀ a, e.result = .ok a → e.request = .get ∧ e.after = e.before ∨
        Applied self documents i e.request e.before e.after) ∧
      ∀ x, e.result = .error x → Refused self documents i e.request e.before e.after := by
    intro e he
    obtain ⟨r, s', ⟨rfl, rfl⟩, hok, herror⟩ := (ends_body e.request).of_may (hserial.ran e he)
    exact ⟨hok, herror⟩
  have happlied : ∀ e ∈ c.log, Accepted e →
      Applied self documents i e.request e.before e.after := by
    rintro e he ⟨hwrites, haccepted⟩
    cases hresult : e.result with
    | error x =>
      rw [hresult] at haccepted
      cases haccepted
    | ok a =>
      obtain ⟨hget, -⟩ | happlied := (hended e he).1 a hresult
      · rw [hget] at hwrites
        exact absurd rfl hwrites
      · exact happlied
  obtain ⟨s, hlinked, -⟩ := hserial.linked
  refine ⟨⟨s, hlinked⟩, ?_, happlied, ?_, ?_⟩
  · intro e he hget
    cases hresult : e.result with
    | error x =>
      obtain hsame | ⟨d, -, hrevision⟩ := (hended e he).2 x hresult
      · exact hsame
      · rw [hget] at hrevision
        cases hrevision
    | ok a =>
      obtain ⟨-, hsame⟩ | ⟨d, -, -, hrevision, -⟩ := (hended e he).1 a hresult
      · exact hsame
      · rw [hget] at hrevision
        cases hrevision
  · intro e he d hwrites hd hstale
    have hother : ∀ d', storedDocument self documents i e.before = some d' →
        e.request.revision ≠ some d'.revision := by
      intro d' hd'
      rw [hd] at hd'
      cases hd'
      exact hstale
    have hrejected : ¬ Accepted e := by
      intro haccepted
      obtain ⟨d', -, hd', hrevision, -⟩ := happlied e he haccepted
      exact hother d' hd' hrevision
    refine ⟨hrejected, ?_⟩
    cases hresult : e.result with
    | error x =>
      obtain hsame | ⟨d', hd', hrevision⟩ := (hended e he).2 x hresult
      · exact hsame
      · exact absurd hrevision (hother d' hd')
    | ok a => exact absurd ⟨hwrites, by rw [hresult]; rfl⟩ hrejected
  · intro hfree e he e' he' haccepted haccepted' hsame
    obtain ⟨d, -, hd, hrevision, -⟩ := happlied e he haccepted
    obtain ⟨d', -, hd', hrevision', -⟩ := happlied e' he' haccepted'
    rw [hrevision, hrevision'] at hsame
    have hdocument := hfree e he e' he' d d' hd hd' (Option.some.inj hsame)
    exact ⟨d, hd, by rw [hdocument]; exact hd'⟩

/-! ## An edit that keeps the document

A client that writes back what it has read leaves the revision as it was, so a second client with
the same revision is accepted after it. -/

namespace Store

/-- The document of an instance `vm`. -/
def vmEnvelope (autoRemove : Bool) : InstanceDocument :=
  { instanceId := "vm", imageId := "win11", profileId := "desktop", autoRemove
    domainDocument := some (resolvedDocument ⟨"vm"⟩ vmSpec (.obj [])) }

def envelopeYaml (autoRemove : Bool) : List UInt8 :=
  textBytes ("schema_version: 1\ninstance_id: vm\nimage_id: win11\nprofile_id: desktop\n" ++
    "auto_remove: " ++ (if autoRemove then "true" else "false") ++
    "\nprofile: null\nlaunch_plan: null\ndomain_document:\n  api_version: machineemu.io/v1\n" ++
    "  kind: Instance\n  metadata:\n    digest: null\n    name: vm\n    revision: 1\n" ++
    "  source: \x7b\x7d\n  spec:\n    devices:\n      interfaces:\n" ++
    "      - mac: 52:54:00:5a:1c:07\n  status:\n    state: created\n")

/-- A serialiser that reads these documents. -/
def readsEnvelopes : Documents where
  load bytes :=
    if bytes = envelopeYaml false then .ok (vmEnvelope false).toJson
    else if bytes = envelopeYaml true then .ok (vmEnvelope true).toJson
    else .error "not read"
  parse _ := .error "not read"
  write document := envelopeYaml document.autoRemove

theorem load_envelopeYaml (autoRemove : Bool) :
    readsEnvelopes.load (envelopeYaml autoRemove) = .ok (vmEnvelope autoRemove).toJson := by
  cases autoRemove with
  | false => exact if_pos rfl
  | true => exact (if_neg (by decide +kernel)).trans (if_pos rfl)

/-- A workspace with the stopped instance `vm`. -/
def vmStore (autoRemove : Bool) : Store where
  tables := (({} : Workspace).insertInstance ⟨"vm"⟩ ⟨"win11"⟩ ⟨"desktop"⟩).2.setLifecycle ⟨"vm"⟩
    .stopped
  files := .dir [("workspace", .dir [("instances", .dir [("vm", .dir [
    ("instance.yaml", .file (envelopeYaml autoRemove))])])])]

theorem documentName_vmStore (autoRemove : Bool) :
    documentName preparedHandle ⟨"vm"⟩ (vmStore autoRemove) = some "instance.yaml" := rfl

theorem storedDocument_vmStore (autoRemove : Bool) :
    storedDocument preparedHandle readsEnvelopes ⟨"vm"⟩ (vmStore autoRemove) =
      some (vmEnvelope autoRemove) := by
  have hfile : (vmStore autoRemove).files.look
      (preparedHandle.instanceDir ⟨"vm"⟩ ++ ["instance.yaml"]) =
        some (.file (envelopeYaml autoRemove)) := rfl
  simp only [storedDocument, documentName_vmStore, Option.bind_some, hfile, load_envelopeYaml]
  cases autoRemove <;> rfl

theorem may_write_vmStore (before after : Bool) :
    May (fun r t => r = .ok () ∧ t = vmStore after)
      (writeInstanceDocumentAt preparedHandle readsEnvelopes
        (preparedHandle.instanceDir ⟨"vm"⟩ ++ ["instance.yaml"]) (vmEnvelope after))
      (vmStore before) :=
  have heval : Prog.eval (fun _ _ => true) {} (writeInstanceDocumentAt preparedHandle readsEnvelopes
      (preparedHandle.instanceDir ⟨"vm"⟩ ++ ["instance.yaml"]) (vmEnvelope after)) []
        (vmStore before) = some (.ok (), vmStore after) := rfl
  May.of_eval heval

/-- A request that carries the revision of the first document. -/
def vmConfig (autoRemove : Bool) : InstanceConfig :=
  { schemaVersion := 1, instanceId := "vm", imageId := "win11", profileId := "desktop"
    revision := (vmEnvelope false).revision, autoRemove
    domainDocument := resolvedDocument ⟨"vm"⟩ vmSpec (.obj []) }

/-- The requests for the configuration of `vm`. -/
abbrev vmConfiguration : Guarded Store Outcome Call Error ConfigAnswer ConfigRequest ConfigLock :=
  configuration preparedHandle readsEnvelopes (fun _ => .error "not read") ⟨"vm"⟩

theorem may_put_vmConfig (autoRemove : Bool) :
    ∃ a, May (fun r t => r = .ok a ∧ t = vmStore autoRemove)
      (vmConfiguration.body (.put (vmConfig autoRemove))) (vmStore false) := by
  have hput : May (fun r t => (∃ a, r = .ok a) ∧ t = vmStore autoRemove)
      (putInstanceConfig preparedHandle readsEnvelopes ⟨"vm"⟩ (vmConfig autoRemove))
      (vmStore false) :=
    may_putInstanceConfig (d := vmEnvelope false) rfl rfl (.inr (.inl rfl)) rfl
      (by decide) (by decide) (storedDocument_vmStore false) rfl ⟨rfl, rfl, rfl⟩ rfl rfl
      (documentName_vmStore false) (may_write_vmStore false autoRemove)
  have hbody : May (fun r t => ∃ a, r = .ok a ∧ t = vmStore autoRemove)
      (vmConfiguration.body (.put (vmConfig autoRemove))) (vmStore false) := by
    refine May.bind (hput.mono ?_)
    rintro _ _ ⟨⟨a, rfl⟩, rfl⟩
    exact ⟨a, rfl, _, rfl, rfl⟩
  obtain ⟨r, t, ⟨a, rfl, rfl⟩, hmay⟩ := hbody.exists
  exact ⟨a, hmay⟩

/-- A run in which both requests are accepted. -/
theorem exists_vmRun : ∃ c a a', vmConfiguration.Reachable (vmStore false) c ∧
    c.log = [⟨.put (vmConfig false), vmStore false, .ok a, vmStore false⟩,
      ⟨.put (vmConfig true), vmStore false, .ok a', vmStore true⟩] := by
  obtain ⟨a, hfirst⟩ := may_put_vmConfig false
  obtain ⟨c₁, h₁, hstate₁, hlog₁, howner₁, hthreads₁⟩ :=
    Guarded.Reachable.request (G := vmConfiguration) (k := .put (vmConfig false)) .start rfl rfl
      (by simp [configuration, ConfigRequest.locks]) hfirst
  obtain ⟨a', hsecond⟩ := may_put_vmConfig true
  obtain ⟨c₂, h₂, -, hlog₂, -⟩ :=
    h₁.request (k := .put (vmConfig true)) howner₁ hthreads₁
      (by simp [configuration, ConfigRequest.locks]) (by rw [hstate₁]; exact hsecond)
  refine ⟨c₂, a, a', h₂, ?_⟩
  rw [hlog₂, hlog₁, hstate₁]
  rfl

theorem collisionFree_vmRun {a a' : ConfigAnswer} :
    CollisionFree preparedHandle readsEnvelopes ⟨"vm"⟩
      [⟨.put (vmConfig false), vmStore false, .ok a, vmStore false⟩,
        ⟨.put (vmConfig true), vmStore false, .ok a', vmStore true⟩] := by
  have hfound : ∀ e ∈ [(⟨.put (vmConfig false), vmStore false, .ok a, vmStore false⟩ :
      Guarded.Entry Store Error ConfigAnswer ConfigRequest),
      ⟨.put (vmConfig true), vmStore false, .ok a', vmStore true⟩], e.before = vmStore false := by
    simp
  intro e he e' he' d d' hd hd' _
  rw [hfound e he, storedDocument_vmStore] at hd
  rw [hfound e' he', storedDocument_vmStore] at hd'
  cases hd
  cases hd'
  rfl

end Store

/-- Two requests with the same revision and different contents are both accepted: the first one
wrote the document back as it was. -/
theorem two_accepted : ¬ ∀ (self : Handle) (documents : Documents)
    (fromSlice : List UInt8 → Except String Json) (i : Id) (init : Store)
    (c : Guarded.Config Store Outcome Call Error ConfigAnswer ConfigRequest ConfigLock),
    (configuration self documents fromSlice i).Reachable init c →
    CollisionFree self documents i c.log →
    ∀ e ∈ c.log, ∀ e' ∈ c.log, Accepted e → Accepted e' →
      e.request.revision = e'.request.revision → e.request = e'.request := by
  intro h
  obtain ⟨c, a, a', hreachable, hlog⟩ := exists_vmRun
  have hfree : CollisionFree preparedHandle readsEnvelopes ⟨"vm"⟩ c.log := by
    rw [hlog]
    exact collisionFree_vmRun
  have hsame := h _ _ _ _ _ c hreachable hfree
    ⟨.put (vmConfig false), vmStore false, .ok a, vmStore false⟩ (by simp [hlog])
    ⟨.put (vmConfig true), vmStore false, .ok a', vmStore true⟩ (by simp [hlog])
    ⟨by simp [ConfigRequest.revision], rfl⟩ ⟨by simp [ConfigRequest.revision], rfl⟩ rfl
  have hinput : vmConfig false = vmConfig true := ConfigRequest.put.inj hsame
  exact Bool.false_ne_true (congrArg InstanceConfig.autoRemove hinput)

/-- The two requests of this run have found the same document. -/
theorem configuration_updates_of_vmRun : ∃ c, vmConfiguration.Reachable (vmStore false) c ∧
    ∀ e ∈ c.log, Accepted e →
      Applied preparedHandle readsEnvelopes ⟨"vm"⟩ e.request e.before e.after := by
  obtain ⟨c, a, a', hreachable, hlog⟩ := exists_vmRun
  exact ⟨c, hreachable, (configuration_updates _ _ _ _ _ c hreachable).2.2.1⟩

end MachineEmu
