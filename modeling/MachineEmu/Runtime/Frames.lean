import Mathlib.Algebra.Order.BigOperators.Group.List
import Mathlib.Algebra.Order.Ring.Nat
import MachineEmu.Runtime.Process

/-!
# What the process operations leave alone

Every act of a process operation changes nothing but the process table, where processes only exit
and appear.

* `Evolves.refl`, `Evolves.trans`, `World.alive_of_evolves` — the order on process tables.
* `ProcStep` — an act that changes the process table only.
* `frame_terminate`, `frame_dropProcess`, `frame_spawnSystemdScope` — the operations stay inside it.
-/

namespace MachineEmu

open Lib.Prog Act List

/-! ## The order on process tables -/

variable {ps : List Proc}

theorem Evolves.of_map (f : Proc → Proc)
    (hf : ∀ p, (f p).identity = p.identity ∧ (f p).owner = p.owner ∧ (f p).unit = p.unit ∧
      ∀ exit, p.exit = some exit → (f p).exit = some exit) : Evolves ps (ps.map f) :=
  ⟨f, [], (append_nil _).symm, hf, by simp, nodup_nil⟩

theorem Evolves.refl (ps : List Proc) : Evolves ps ps := by
  have h : Evolves ps (ps.map id) := Evolves.of_map id (by simp)
  rwa [map_id] at h

/-- Mapping a process to a later stage keeps the identities. -/
theorem map_identity {f : Proc → Proc} (hf : ∀ p, (f p).identity = p.identity) :
    (ps.map f).map Proc.identity = ps.map Proc.identity := by
  rw [map_map]
  exact map_congr_left fun p _ => hf p

variable {qs : List Proc}

theorem Evolves.trans {rs : List Proc} (h₁ : Evolves ps qs) (h₂ : Evolves qs rs) :
    Evolves ps rs := by
  obtain ⟨f, new, rfl, hf, hnew, hnodup⟩ := h₁
  obtain ⟨g, new', rfl, hg, hnew', hnodup'⟩ := h₂
  refine ⟨g ∘ f, new.map g ++ new', by simp, fun p => ?_, ?_, ?_⟩
  · obtain ⟨hi, ho, hu, he⟩ := hf p
    obtain ⟨gi, go, gu, ge⟩ := hg (f p)
    exact ⟨gi.trans hi, go.trans ho, gu.trans hu, fun exit h => ge exit (he exit h)⟩
  · have hkeep : (ps.map f).map Proc.identity = ps.map Proc.identity :=
      map_identity fun p => (hf p).1
    intro p hp hold
    rcases mem_append.1 hp with hp | hp
    · obtain ⟨q, hq, rfl⟩ := mem_map.1 hp
      rw [(hg q).1] at hold
      exact hnew q hq hold
    · refine hnew' p hp ?_
      rw [map_append]
      exact mem_append_left _ (hkeep ▸ hold)
  · rw [map_append, map_identity fun p => (hg p).1, nodup_append]
    refine ⟨hnodup, hnodup', ?_⟩
    intro a ha b hb hab
    subst hab
    obtain ⟨p, hp, rfl⟩ := mem_map.1 hb
    refine hnew' p hp ?_
    rw [map_append]
    exact mem_append_right _ ha

variable {identity : ProcessIdentity}

theorem Evolves.identities (h : Evolves ps qs)
    (hmem : identity ∈ ps.map Proc.identity) : identity ∈ qs.map Proc.identity := by
  obtain ⟨f, new, rfl, hf, _⟩ := h
  rw [map_append, map_identity fun p => (hf p).1]
  exact mem_append_left _ hmem

theorem Evolves.nodup (h : Evolves ps qs)
    (hnodup : (ps.map Proc.identity).Nodup) : (qs.map Proc.identity).Nodup := by
  obtain ⟨f, new, rfl, hf, hnew, hnodup'⟩ := h
  rw [map_append, map_identity fun p => (hf p).1, nodup_append]
  refine ⟨hnodup, hnodup', ?_⟩
  intro a ha b hb hab
  subst hab
  obtain ⟨p, hp, rfl⟩ := mem_map.1 hb
  exact hnew p hp ha

/-- A process of the later table is a new one or continues one of the earlier table, which had
not exited unless it still has. -/
theorem Evolves.mem (h : Evolves ps qs) {q : Proc} (hq : q ∈ qs) :
    (∃ p ∈ ps, q.identity = p.identity ∧ q.owner = p.owner ∧ q.unit = p.unit ∧
      (q.exit = none → p.exit = none)) ∨ q.identity ∉ ps.map Proc.identity := by
  obtain ⟨f, new, rfl, hf, hnew, _⟩ := h
  rcases mem_append.1 hq with hq | hq
  · obtain ⟨p, hp, rfl⟩ := mem_map.1 hq
    obtain ⟨hi, ho, hu, he⟩ := hf p
    refine .inl ⟨p, hp, hi, ho, hu, fun hnone => ?_⟩
    cases hexit : p.exit with
    | none => rfl
    | some exit =>
      rw [he exit hexit] at hnone
      cases hnone
  · exact .inr (hnew q hq)

variable {s : World}

theorem World.alive_iff :
    s.alive identity = true ↔ ∃ p ∈ s.procs, p.identity = identity ∧ p.exit = none := by
  simp [World.alive]

theorem World.mem_identities : identity ∈ s.identities ↔ ∃ p ∈ s.procs, p.identity = identity := by
  simp [World.identities]

/-- A known process that is alive was alive before. -/
theorem World.alive_of_evolves {s' : World} (h : Evolves s.procs s'.procs)
    (hknown : identity ∈ s.identities)
    (halive : s'.alive identity = true) : s.alive identity = true := by
  obtain ⟨q, hq, hi, hexit⟩ := World.alive_iff.1 halive
  rcases h.mem hq with ⟨p, hp, hpi, _, _, hpe⟩ | hnew
  · exact World.alive_iff.2 ⟨p, hp, hpi.symm.trans hi, hpe hexit⟩
  · rw [hi] at hnew
    exact absurd hknown hnew

theorem World.freshIdentity_not_known (s : World) (offered : ProcessIdentity) :
    s.freshIdentity offered ∉ s.identities := by
  unfold World.freshIdentity
  split
  · intro hmem
    have hle := le_sum_of_mem (mem_map_of_mem (f := ProcessIdentity.processStart) hmem)
    simp only at hle
    omega
  · assumption

theorem World.spawn_evolves (s : World) (owner : Owner) (unit : Option String)
    (exit : Option ProcessExit) (offered : ProcessIdentity) :
    Evolves s.procs (s.spawn owner unit exit offered).procs := by
  refine ⟨id, _, (congrArg (· ++ _) (map_id s.procs).symm), by simp, ?_,
    nodup_singleton _⟩
  intro p hp
  rw [mem_singleton] at hp
  subst hp
  exact s.freshIdentity_not_known offered

/-! ## Rules for the acts -/

section Rules

variable {α β : Type} {R : World → World → Prop} {A : Label → World → Prop}
  {G : Label → World → World → Prop} {Q : α → World → Prop} {Qb : β → World → Prop}
  {X : Error → World → Prop} {s : World}

variable {g : α → Act β}

/-- Reading the state: the continuation runs from the state that was read. -/
theorem ok_query_bind {f : World → α}
    (h : ∀ s', R s s' → A .quiet s' → G .quiet s' s' ∧ Ok R A G Qb X (g (f s')) s') :
    Ok R A G Qb X ((query f).bind g) s :=
  fun s' hR hA => h s' hR hA

theorem ok_queryE_bind {f : World → Except Error α}
    (h : ∀ s', R s s' → A .quiet s' → G .quiet s' s' ∧
      (∀ a, f s' = .ok a → Ok R A G Qb X (g a) s') ∧ ∀ e, f s' = .error e → X e s') :
    Ok R A G Qb X ((queryE f).bind g) s := by
  refine Ok.bind (M := fun a s' => Ok R A G Qb X (g a) s') (ok_stepE.2 ?_) fun _ _ h => h
  exact fun s' hR hA => h s' hR hA

theorem ok_queryE {f : World → Except Error α}
    (h : ∀ s', R s s' → A .quiet s' → G .quiet s' s' ∧
      (∀ a, f s' = .ok a → Q a s') ∧ ∀ e, f s' = .error e → X e s') :
    Ok R A G Q X (queryE f) s :=
  ok_stepE.2 h

variable {f : World → Except Error α × Workspace} {l : Label}

theorem ok_statement (h : ∀ s', R s s' → A l s' → G l s' (s'.withWorkspace (f s').2) ∧
      (∀ a, (f s').1 = .ok a → Q a (s'.withWorkspace (f s').2)) ∧
      ∀ e, (f s').1 = .error e → X e (s'.withWorkspace (f s').2)) :
    Ok R A G Q X (statement l f) s :=
  ok_stepE.2 h

theorem ok_modify {f : World → World} {Qu : Unit → World → Prop}
    (h : ∀ s', R s s' → A l s' → G l s' (f s') ∧ Qu () (f s')) : Ok R A G Qu X (modify l f) s :=
  ok_step.2 h

theorem ok_outside {Qu : Unit → World → Prop} (hQ : Qu () s) (hX : ∀ e, X e s) :
    Ok R A G Qu X outside s := by
  refine Ok.ask fun r => ?_
  split
  · exact hQ
  · exact hX _

theorem ok_ignore {p : Act α} {P : World → Prop}
    (hp : Ok R A G (fun _ => P) (fun _ => P) p s) :
    Ok R A G (fun _ => P) X (ignore p) s :=
  (Ok.attempt (E := fun _ => P) hp).bind fun _ _ h => h

theorem ok_forEach {P : World → Prop} {xs : List α} {f : α → Act Unit} (hs : P s)
    (hf : ∀ x ∈ xs, ∀ s, P s → Ok R A G (fun _ => P) X (f x) s) :
    Ok R A G (fun _ => P) X (forEach xs f) s := by
  induction xs generalizing s with
  | nil => exact hs
  | cons x rest ih =>
    exact (hf x mem_cons_self s hs).bind fun _ s' h =>
      ih h fun y hy => hf y (mem_cons_of_mem x hy)

/-! The same for a run alone, with replies of our choice. -/

section May

variable {M : Except Error α → World → Prop} {B : Except Error β → World → Prop}

theorem may_query_bind {f : World → α} (h : May B (g (f s)) s) : May B ((query f).bind g) s := h

variable {a : α}

theorem may_queryE_bind {f : World → Except Error α}
    (hf : f s = .ok a) (h : May B (g a) s) : May B ((queryE f).bind g) s := by
  refine May.bind (may_stepE.2 ?_)
  exact ⟨a, hf, h⟩

theorem may_statement {w : Workspace}
    (hf : f s = (.ok a, w)) (h : M (.ok a) (s.withWorkspace w)) : May M (statement l f) s := by
  refine may_stepE.2 ?_
  rw [hf]
  exact h

theorem may_statement_bind
    {w : Workspace} (hf : f s = (.ok a, w)) (h : May B (g a) (s.withWorkspace w)) :
    May B ((statement l f).bind g) s :=
  May.bind (may_statement hf ⟨a, rfl, h⟩)

theorem may_statement_error {e : Error}
    {w : Workspace} (hf : f s = (.error e, w)) (h : M (.error e) (s.withWorkspace w)) :
    May M (statement l f) s := by
  refine may_stepE.2 ?_
  rw [hf]
  exact h

theorem may_outside_bind {g : Unit → Act β} (h : May B (g ()) s) :
    May B (outside.bind g) s :=
  ⟨{}, h⟩

end May

end Rules

/-! ## Acts on the process table -/

/-- An act that changes nothing but the process table; new processes are owned by `owner` or are
launchers that have exited. -/
structure ProcStep (owner : Owner) (l : Label) (s s' : World) : Prop where
  label : l = .quiet ∨ l = .terminate ∨ l = .spawn owner
  rest : s' = { s with procs := s'.procs }
  evolves : Evolves s.procs s'.procs
  new : ∀ p ∈ s'.procs, p.identity ∉ s.identities →
    p.owner = owner ∨ (p.owner = .launcher ∧ p.exit.isSome = true)

namespace ProcStep

variable {owner : Owner}

theorem quiet (s : World) : ProcStep owner .quiet s s :=
  ⟨.inl rfl, rfl, Evolves.refl _, fun p hp hnew =>
    absurd (World.mem_identities.2 ⟨p, hp, rfl⟩) hnew⟩

theorem of_map {f : Proc → Proc}
    (hf : ∀ p, (f p).identity = p.identity ∧ (f p).owner = p.owner ∧ (f p).unit = p.unit ∧
      ∀ exit, p.exit = some exit → (f p).exit = some exit) :
    ProcStep owner .terminate s { s with procs := s.procs.map f } := by
  refine ⟨.inr (.inl rfl), rfl, Evolves.of_map f hf, fun p hp hnew => ?_⟩
  obtain ⟨q, hq, rfl⟩ := mem_map.1 hp
  exact absurd (World.mem_identities.2 ⟨q, hq, (hf q).1.symm⟩) hnew

theorem exitProcess (s : World) (identity : ProcessIdentity) (exit : ProcessExit) :
    ProcStep owner .terminate s (s.exitProcess identity exit) := by
  refine of_map fun p => ?_
  split
  · next h => exact ⟨rfl, rfl, rfl, fun e he => by simp [h.2] at he⟩
  · exact ⟨rfl, rfl, rfl, fun _ he => he⟩

theorem stopUnit (s : World) (unit : String) :
    ProcStep owner .terminate s (s.stopUnit unit) := by
  refine of_map fun p => ?_
  split
  · next h => exact ⟨rfl, rfl, rfl, fun e he => by simp [h.2] at he⟩
  · exact ⟨rfl, rfl, rfl, fun _ he => he⟩

theorem spawn (s : World) {o : Owner} {exit : Option ProcessExit}
    (ho : o = owner ∨ (o = .launcher ∧ exit.isSome = true)) (unit : Option String)
    (offered : ProcessIdentity) :
    ProcStep owner (.spawn owner) s (s.spawn o unit exit offered) := by
  refine ⟨.inr (.inr rfl), rfl, s.spawn_evolves o unit exit offered, fun p hp hnew => ?_⟩
  rcases mem_append.1 hp with hp | hp
  · exact absurd (World.mem_identities.2 ⟨p, hp, rfl⟩) hnew
  · rw [mem_singleton] at hp
    subst hp
    exact ho

end ProcStep

/-! ## The operations -/

section Frames

variable {owner : Owner} {F : Label → World → World → Prop}

/-- Any value. -/
abbrev anyValue {α : Type} : α → Prop := fun _ => True

variable {α : Type}

theorem frame_pure {a : α} : Frame F anyValue (ret a : Act α) := trivial

theorem frame_query {f : World → α} (hF : ∀ s, F .quiet s s) : Frame F anyValue (query f) :=
  frame_step hF fun _ => trivial

theorem frame_queryE {f : World → Except Error α} (hF : ∀ s, F .quiet s s) :
    Frame F anyValue (queryE f) :=
  frame_stepE hF fun _ _ _ => trivial

theorem frame_modify {l : Label} {f : World → World} (hF : ∀ s, F l s (f s)) :
    Frame F anyValue (modify l f) :=
  frame_step hF fun _ => trivial

theorem frame_outside : Frame F anyValue outside := by
  refine Frame.ask fun r => ?_
  split
  · exact trivial
  · exact frame_throw

theorem frame_ignore {V : α → Prop} {p : Act α} (hp : Frame F V p) : Frame F anyValue (ignore p) :=
  hp.attempt.bind fun _ _ => trivial

theorem frame_forEach {xs : List α} {f : α → Act Unit}
    (hf : ∀ x ∈ xs, Frame F anyValue (f x)) : Frame F anyValue (forEach xs f) := by
  induction xs with
  | nil => exact trivial
  | cons x rest ih =>
    exact (hf x mem_cons_self).andThen fun _ =>
      ih fun y hy => hf y (mem_cons_of_mem x hy)

theorem frame_tryWait (p : ManagedProcess) : Frame (ProcStep owner) anyValue (tryWait p) :=
  frame_query ProcStep.quiet

theorem frame_reap (p : ManagedProcess) (exit : ProcessExit) :
    Frame (ProcStep owner) anyValue (reap p exit) :=
  frame_step (fun s => ProcStep.exitProcess s _ _) fun _ => trivial

theorem frame_waitProcess (p : ManagedProcess) :
    Frame (ProcStep owner) anyValue (waitProcess p) := by
  refine Frame.ask fun r => ?_
  split
  · exact frame_reap p _
  · split
    · exact frame_queryE ProcStep.quiet
    · exact frame_reap p _

theorem frame_killProcess (p : ManagedProcess) :
    Frame (ProcStep owner) anyValue (killProcess p) := by
  refine Frame.ask fun r => ?_
  split
  · exact frame_modify fun s => ProcStep.exitProcess s _ _
  · exact frame_throw

theorem frame_terminate (p : ManagedProcess) :
    Frame (ProcStep owner) anyValue (terminate p) := by
  have hsignal : ∀ g : Option ProcessExit → Act Unit, g none = killProcess p →
      (∀ exit, g (some exit) = ret ()) → Frame (ProcStep owner) anyValue
        (if p.child then killProcess p else (tryWait p).bind g) := by
    intro g hnone hsome
    split
    · exact frame_killProcess p
    · refine (frame_tryWait p).andThen fun exit => ?_
      cases exit with
      | some exit =>
        rw [hsome]
        exact trivial
      | none =>
        rw [hnone]
        exact frame_killProcess p
  unfold terminate
  cases p.systemdScope with
  | none => exact hsignal _ rfl fun _ => rfl
  | some unit =>
    refine Frame.ask fun r => ?_
    cases r.systemctl with
    | none => exact frame_throw
    | some done =>
      cases done with
      | true => exact frame_modify fun s => ProcStep.stopUnit s unit
      | false => exact hsignal _ rfl fun _ => rfl

theorem frame_terminateGracefully (p : ManagedProcess) :
    Frame (ProcStep owner) anyValue (terminateGracefully p) := by
  refine (frame_tryWait p).andThen fun exit => ?_
  cases exit with
  | some _ => exact trivial
  | none =>
    refine frame_outside.andThen fun _ => Frame.ask fun r => ?_
    split
    · exact (frame_terminate p).andThen fun _ => (frame_waitProcess p).andThen fun _ => trivial
    · exact (frame_reap p _).andThen fun _ => trivial

theorem frame_dropProcess (p : ManagedProcess) :
    Frame (ProcStep owner) anyValue (dropProcess p) := by
  unfold dropProcess
  split
  · exact trivial
  · split
    · exact (frame_ignore (frame_terminate p)).andThen fun _ => frame_ignore (frame_waitProcess p)
    · split
      · refine (frame_tryWait p).andThen fun exit => ?_
        cases exit with
        | some _ => exact trivial
        | none => exact frame_modify fun s => ProcStep.exitProcess s _ _
      · exact trivial

theorem frame_dropOption (p : Option ManagedProcess) :
    Frame (ProcStep owner) anyValue (dropOption p) := by
  cases p with
  | none => exact trivial
  | some p => exact frame_dropProcess p

theorem frame_dropAll (ps : List ManagedProcess) :
    Frame (ProcStep owner) anyValue (dropAll ps) :=
  frame_forEach fun p _ => frame_dropProcess p

theorem frame_owning {V : α → Prop} {p : ManagedProcess} {body : Act α}
    (hF : ∀ l s s', ProcStep owner l s s' → F l s s') (hbody : Frame F V body) :
    Frame F V (owning p body) := by
  refine hbody.attempt.bind fun result hresult => ?_
  cases result with
  | ok a => exact hresult a rfl
  | error e =>
    exact ((frame_dropProcess p).mono hF fun _ h => h).andThen fun _ => frame_throw

theorem frame_spawnPlain (r : Id) (argv : List String) :
    Frame (ProcStep owner) anyValue (spawnPlain owner r argv) := by
  unfold spawnPlain
  split
  · exact frame_throw
  · refine Frame.ask fun reply => ?_
    split
    · exact frame_step (fun s => ProcStep.spawn s (.inl rfl) none reply.identity) fun _ => trivial
    · exact frame_throw

theorem frame_launchScope (r : Id) (accepted : Bool) (offered : ProcessIdentity) :
    Frame (ProcStep owner) anyValue (launchScope owner r accepted offered) := by
  refine frame_step (fun s => ?_) fun _ => trivial
  simp only
  split
  · exact ProcStep.spawn s (.inl rfl) _ _
  · exact ProcStep.spawn s (.inr ⟨rfl, rfl⟩) _ _

theorem frame_awaitPid (p : ManagedProcess) (runs : Bool) :
    Frame (ProcStep owner) anyValue (awaitPid p runs) := by
  refine Frame.ask fun r => ?_
  generalize (if runs = true then r.pidfile else Pidfile.absent) = pidfile
  cases pidfile with
  | published => exact frame_query ProcStep.quiet
  | invalid contents => exact trivial
  | absent =>
    refine (frame_tryWait p).andThen fun exit => ?_
    cases exit with
    | some _ => exact trivial
    | none => exact (frame_ignore (frame_terminate p)).andThen fun _ => trivial
  | unreadable detail => exact (frame_ignore (frame_terminate p)).andThen fun _ => trivial

theorem frame_spawnSystemdScopeInner (r : Id) (argv : List String) :
    Frame (ProcStep owner) anyValue (spawnSystemdScopeInner owner r argv) := by
  unfold spawnSystemdScopeInner
  split
  · exact trivial
  · refine Frame.ask fun reply => ?_
    cases reply.scope with
    | missing => exact trivial
    | failed detail => exact trivial
    | launched accepted =>
      refine (frame_launchScope r accepted _).andThen fun launched => ?_
      refine (frame_awaitPid launched.1 launched.2).andThen fun result => ?_
      cases result with
      | ok p => exact trivial
      | error failure => exact (frame_dropProcess launched.1).andThen fun _ => trivial

theorem frame_spawnSystemdScope (r : Id) (argv : List String) :
    Frame (ProcStep owner) anyValue (spawnSystemdScope owner r argv) := by
  refine (frame_spawnSystemdScopeInner r argv).andThen fun result => ?_
  cases result with
  | ok p => exact trivial
  | error failure =>
    simp only
    split
    · exact frame_spawnPlain r argv
    · exact frame_throw

theorem frame_processStart (p : ManagedProcess) :
    Frame (ProcStep owner) anyValue (processStart p) :=
  frame_queryE ProcStep.quiet

theorem frame_adopt (r : Id) (identity : ProcessIdentity) :
    Frame (ProcStep owner) anyValue (adopt r identity) :=
  frame_queryE ProcStep.quiet

end Frames

end MachineEmu
