import Mathlib.Logic.Function.Basic
import MachineEmu.Lib.Prog

/-!
# Requests under locks

Requests run side by side over one state. Each takes the locks of its kind one after the other, runs
its program, and gives the locks back when the program ends. Where all kinds have one lock in common
the requests have run one after the other.

* `Guarded`, `Config`, `Step`, `Reachable` — the requests and their runs.
* `Reachable.serial` — what has ended is a chain of programs that have run alone.
* `Reachable.request` — one request, from its arrival to its end.
-/

namespace Lib

open Prog Function List

/-- The locks that each request takes, in their order, and what it does under them. -/
structure Guarded (σ ρ ε ω α κ ℓ : Type) where
  locks : κ → List ℓ
  body : κ → Prog σ ρ ε ω α

namespace Guarded

variable {σ ρ ε ω α κ ℓ : Type}

/-- A request takes its locks, or runs; then it is known in which state it began. -/
inductive Phase (σ ρ ε ω α ℓ : Type) where
  | taking (todo : List ℓ)
  | running (start : σ) (rest : Prog σ ρ ε ω α)

/-- A request that has ended. -/
structure Entry (σ ω α κ : Type) where
  request : κ
  before : σ
  result : Except ω α
  after : σ

structure Config (σ ρ ε ω α κ ℓ : Type) where
  state : σ
  owner : ℓ → Option Nat := fun _ => none
  threads : Nat → Option (κ × Phase σ ρ ε ω α ℓ) := fun _ => none
  log : List (Entry σ ω α κ) := []

/-- The result of a program that has ended. -/
def resultOf : Prog σ ρ ε ω α → Option (Except ω α)
  | .ret a => some (.ok a)
  | .throw e => some (.error e)
  | .act .. | .ask _ => none

/-- What any of the requests does next. -/
inductive Step [DecidableEq ℓ] (G : Guarded σ ρ ε ω α κ ℓ) :
    Config σ ρ ε ω α κ ℓ → Config σ ρ ε ω α κ ℓ → Prop where
  | arrive {c t} (k : κ) (h : c.threads t = none) :
      Step G c { c with threads := Function.update c.threads t (some (k, .taking (G.locks k))) }
  | take {c t k l todo} (h : c.threads t = some (k, .taking (l :: todo)))
      (hfree : c.owner l = none) :
      Step G c { c with
        owner := Function.update c.owner l (some t)
        threads := Function.update c.threads t (some (k, .taking todo)) }
  | run {c t k} (h : c.threads t = some (k, .taking [])) :
      Step G c { c with
        threads := Function.update c.threads t (some (k, .running c.state (G.body k))) }
  | act {c t k start l f rest} (h : c.threads t = some (k, .running start (.act l f rest))) :
      Step G c { c with
        state := f c.state
        threads := Function.update c.threads t (some (k, .running start (rest c.state))) }
  | ask {c t k start rest} (r : ρ) (h : c.threads t = some (k, .running start (.ask rest))) :
      Step G c { c with
        threads := Function.update c.threads t (some (k, .running start (rest r))) }
  | finish {c t k start rest result} (h : c.threads t = some (k, .running start rest))
      (hresult : resultOf rest = some result) :
      Step G c { c with
        owner := fun l => if c.owner l = some t then none else c.owner l
        threads := Function.update c.threads t none
        log := c.log ++ [⟨k, start, result, c.state⟩] }

/-- What is reached from a state without requests. -/
inductive Reachable [DecidableEq ℓ] (G : Guarded σ ρ ε ω α κ ℓ) (init : σ) :
    Config σ ρ ε ω α κ ℓ → Prop where
  | start : Reachable G init { state := init }
  | step {c c'} (h : Reachable G init c) (hstep : Step G c c') : Reachable G init c'

/-- Each request has begun in the state in which the one before it has ended. -/
def Linked : σ → List (Entry σ ω α κ) → σ → Prop
  | s, [], s' => s = s'
  | s, e :: log, s' => e.before = s ∧ Linked e.after log s'

theorem Linked.concat {s s' : σ} {log : List (Entry σ ω α κ)} {e : Entry σ ω α κ}
    (h : Linked s log s') (he : e.before = s') : Linked s (log ++ [e]) e.after := by
  induction log generalizing s with
  | nil => exact ⟨he.trans h.symm, rfl⟩
  | cons d log ih => exact ⟨h.1, ih h.2⟩

/-- The program of an ended request has run alone. -/
def Ran (G : Guarded σ ρ ε ω α κ ℓ) (e : Entry σ ω α κ) : Prop :=
  May (fun r s => r = e.result ∧ s = e.after) (G.body e.request) e.before

theorem may_of_resultOf {Q : Except ω α → σ → Prop} {p : Prog σ ρ ε ω α} {r : Except ω α} {s : σ}
    (h : resultOf p = some r) (hQ : Q r s) : May Q p s := by
  cases p with
  | ret a =>
    cases h
    exact hQ
  | throw e =>
    cases h
    exact hQ
  | act => cases h
  | ask => cases h

/-- A request has the locks that it has taken; one that runs has them all, and has come from its
beginning to where it is. -/
inductive Good (G : Guarded σ ρ ε ω α κ ℓ) (c : Config σ ρ ε ω α κ ℓ) (t : Nat) (k : κ) :
    Phase σ ρ ε ω α ℓ → Prop where
  | taking {todo : List ℓ} (taken : List ℓ) (hlocks : G.locks k = taken ++ todo)
      (hheld : ∀ l ∈ taken, c.owner l = some t) : Good G c t k (.taking todo)
  | running {start : σ} {rest : Prog σ ρ ε ω α} (hheld : ∀ l ∈ G.locks k, c.owner l = some t)
      (hrun : ∀ Q, May Q rest c.state → May Q (G.body k) start) :
      Good G c t k (.running start rest)

/-- What holds in every run. -/
structure Serial (G : Guarded σ ρ ε ω α κ ℓ) (init : σ) (c : Config σ ρ ε ω α κ ℓ) : Prop where
  threads : ∀ t k phase, c.threads t = some (k, phase) → Good G c t k phase
  ran : ∀ e ∈ c.log, Ran G e
  linked : ∃ s, Linked init c.log s ∧
    (∀ t k start rest, c.threads t = some (k, .running start rest) → start = s) ∧
    ((∀ t k start rest, c.threads t ≠ some (k, .running start rest)) → c.state = s)

variable {G : Guarded σ ρ ε ω α κ ℓ} {init : σ} {c c' : Config σ ρ ε ω α κ ℓ}

theorem Serial.start (G : Guarded σ ρ ε ω α κ ℓ) (init : σ) : Serial G init { state := init } where
  threads := nofun
  ran := nofun
  linked := ⟨init, rfl, nofun, fun _ => rfl⟩

variable {t : Nat} {k : κ}

/-- A request that has all of its locks is the only one. -/
theorem Serial.alone (h : Serial G init c) {m : ℓ} (hm : ∀ k, m ∈ G.locks k)
    (ht : c.owner m = some t) {u : Nat} {start : σ} {rest : Prog σ ρ ε ω α}
    (hu : c.threads u = some (k, .running start rest)) : u = t := by
  cases h.threads u k _ hu with
  | running hheld hrun =>
    have howner := hheld m (hm k)
    rw [ht] at howner
    exact (Option.some.inj howner).symm

/-- A request that stays where it is, when no lock that it has is given back. -/
theorem Good.keep {phase : Phase σ ρ ε ω α ℓ} (h : Good G c t k phase)
    (howner : ∀ l, c.owner l = some t → c'.owner l = some t)
    (hstate : ∀ start rest, phase = .running start rest → c'.state = c.state) :
    Good G c' t k phase := by
  cases h with
  | taking taken hlocks hheld => exact .taking taken hlocks fun l hl => howner l (hheld l hl)
  | running hheld hrun =>
    refine .running (fun l hl => howner l (hheld l hl)) ?_
    rwa [hstate _ _ rfl]

variable [DecidableEq ℓ]

theorem Serial.step (h : Serial G init c) {m : ℓ} (hm : ∀ k, m ∈ G.locks k)
    (hstep : Step G c c') : Serial G init c' := by
  obtain ⟨hthreads, hran, s, hlinked, hbegan, hidle⟩ := id h
  cases hstep with
  | @arrive t k hnone =>
    refine ⟨fun u j phase hu => ?_, hran, s, hlinked, fun u j start rest hu => ?_,
      fun hnot => hidle fun u j start rest hu => ?_⟩
    · simp only [update_apply] at hu
      split at hu
      · cases hu
        exact .taking [] rfl nofun
      · exact (hthreads u j phase hu).keep (fun _ => id) fun _ _ _ => rfl
    · simp only [update_apply] at hu
      split at hu
      · cases hu
      · exact hbegan u j start rest hu
    · apply hnot u j start rest
      have hut : u ≠ t := by
        rintro rfl
        rw [hnone] at hu
        cases hu
      simpa [hut] using hu
  | @take t k l todo htaking hfree =>
    refine ⟨fun u j phase hu => ?_, hran, s, hlinked, fun u j start rest hu => ?_,
      fun hnot => hidle fun u j start rest hu => ?_⟩
    · have howner : ∀ l' v, c.owner l' = some v →
          Function.update c.owner l (some t) l' = some v := by
        intro l' v hv
        have hne : l' ≠ l := by
          rintro rfl
          rw [hfree] at hv
          cases hv
        rwa [update_of_ne hne]
      simp only [update_apply] at hu
      split at hu
      · next hut =>
        cases hu
        cases hthreads t k _ htaking with
        | taking taken hlocks hheld =>
          refine .taking (taken ++ [l]) (by simpa using hlocks) fun l' hl' => ?_
          rcases mem_append.1 hl' with hold | hnew
          · rw [hut]
            exact howner l' t (hheld l' hold)
          · rw [mem_singleton.1 hnew, hut]
            exact update_self ..
      · exact (hthreads u j phase hu).keep (fun l' => howner l' u) fun _ _ _ => rfl
    · simp only [update_apply] at hu
      split at hu
      · cases hu
      · exact hbegan u j start rest hu
    · apply hnot u j start rest
      have hut : u ≠ t := by
        rintro rfl
        rw [htaking] at hu
        cases hu
      simpa [hut] using hu
  | @run t k htaking =>
    have hheld : ∀ l ∈ G.locks k, c.owner l = some t := by
      cases hthreads t k _ htaking with
      | taking taken hlocks hheld =>
        rw [hlocks, append_nil]
        exact hheld
    -- whoever runs has the common lock, which this request has
    have hnone : ∀ u j start rest, c.threads u ≠ some (j, .running start rest) := by
      intro u j start rest hu
      have hut := h.alone hm (hheld m (hm k)) hu
      rw [hut, htaking] at hu
      cases hu
    refine ⟨fun u j phase hu => ?_, hran, s, hlinked, fun u j start rest hu => ?_,
      fun _ => hidle hnone⟩
    · simp only [update_apply] at hu
      split at hu
      · next hut =>
        cases hu
        rw [hut]
        exact .running hheld fun _ hmay => hmay
      · exact (hthreads u j phase hu).keep (fun _ => id) fun _ _ _ => rfl
    · simp only [update_apply] at hu
      split at hu
      · cases hu
        exact hidle hnone
      · exact absurd hu (hnone u j start rest)
  | @act t k start l f rest hrunning =>
    cases hthreads t k _ hrunning with
    | running hheld hrun =>
      have halone : ∀ u j start rest, c.threads u = some (j, .running start rest) → u = t :=
        fun u j start rest hu => h.alone hm (hheld m (hm k)) hu
      refine ⟨fun u j phase hu => ?_, hran, s, hlinked, fun u j start' rest' hu => ?_,
        fun hnot => absurd (update_self ..) (hnot t k start (rest c.state))⟩
      · simp only [update_apply] at hu
        split at hu
        · next hut =>
          cases hu
          rw [hut]
          exact .running hheld fun Q hmay => hrun Q (may_act.2 hmay)
        · next hut =>
          refine (hthreads u j phase hu).keep (fun _ => id) fun start' rest' hphase => ?_
          rw [hphase] at hu
          exact absurd (halone u j start' rest' hu) hut
      · simp only [update_apply] at hu
        split at hu
        · cases hu
          exact hbegan t k start _ hrunning
        · exact hbegan u j start' rest' hu
  | @ask t k start rest r hrunning =>
    cases hthreads t k _ hrunning with
    | running hheld hrun =>
      refine ⟨fun u j phase hu => ?_, hran, s, hlinked, fun u j start' rest' hu => ?_,
        fun hnot => absurd (update_self ..) (hnot t k start (rest r))⟩
      · simp only [update_apply] at hu
        split at hu
        · next hut =>
          cases hu
          rw [hut]
          exact .running hheld fun Q hmay => hrun Q (may_ask.2 ⟨r, hmay⟩)
        · exact (hthreads u j phase hu).keep (fun _ => id) fun _ _ _ => rfl
      · simp only [update_apply] at hu
        split at hu
        · cases hu
          exact hbegan t k start _ hrunning
        · exact hbegan u j start' rest' hu
  | @finish t k start rest result hrunning hresult =>
    cases hthreads t k _ hrunning with
    | running hheld hrun =>
      have halone : ∀ u j start rest, c.threads u = some (j, .running start rest) → u = t :=
        fun u j start rest hu => h.alone hm (hheld m (hm k)) hu
      have hothers : ∀ u j start rest,
          Function.update c.threads t none u ≠ some (j, .running start rest) := by
        intro u j start' rest' hu
        simp only [update_apply] at hu
        split at hu
        · cases hu
        · next hut => exact hut (halone u j start' rest' hu)
      refine ⟨fun u j phase hu => ?_, fun e he => ?_, c.state,
        hlinked.concat (hbegan t k start rest hrunning), fun u j start' rest' hu =>
          absurd hu (hothers u j start' rest'), fun _ => rfl⟩
      · simp only [update_apply] at hu
        split at hu
        · cases hu
        · next hut =>
          refine (hthreads u j phase hu).keep (fun l hl => ?_) fun _ _ _ => rfl
          have hne : c.owner l ≠ some t := by
            rw [hl]
            exact fun h => hut (Option.some.inj h)
          dsimp only
          rw [if_neg hne, hl]
      · rcases mem_append.1 he with hold | hnew
        · exact hran e hold
        · rw [mem_singleton.1 hnew]
          exact hrun _ (may_of_resultOf hresult ⟨rfl, rfl⟩)

/-- Under a common lock, what has ended is a chain of programs that have run alone. -/
theorem Reachable.serial (h : Reachable G init c) {m : ℓ} (hm : ∀ k, m ∈ G.locks k) :
    Serial G init c := by
  induction h with
  | start => exact Serial.start G init
  | step _ hstep ih => exact ih.step hm hstep

/-! ## One request -/

/-- A request that waits for free locks takes them. -/
theorem Reachable.takeAll {todo : List ℓ} (h : Reachable G init c)
    (htaking : c.threads t = some (k, .taking todo)) (hnodup : todo.Nodup)
    (hfree : ∀ l ∈ todo, c.owner l = none) :
    ∃ c', Reachable G init c' ∧ c'.state = c.state ∧ c'.log = c.log ∧
      c'.threads = Function.update c.threads t (some (k, .taking [])) ∧
      ∀ l, c'.owner l = if l ∈ todo then some t else c.owner l := by
  induction todo generalizing c with
  | nil => exact ⟨c, h, rfl, rfl, by rw [← htaking, update_eq_self], by simp⟩
  | cons l todo ih =>
    obtain ⟨hl, hnodup⟩ := nodup_cons.1 hnodup
    obtain ⟨c', hc', hstate, hlog, hthreads, howner⟩ :=
      ih (h.step (.take htaking (hfree l mem_cons_self))) (update_self ..) hnodup
        fun l' hl' => by
          have hne : l' ≠ l := by
            rintro rfl
            exact hl hl'
          simp only [update_of_ne hne]
          exact hfree l' (mem_cons_of_mem _ hl')
    refine ⟨c', hc', hstate, hlog, by simpa using hthreads, fun l' => ?_⟩
    rw [howner]
    simp only [update_apply, mem_cons]
    grind

/-- A program that may end in some way ends in it. -/
theorem Reachable.runAll {start s' : σ} {p : Prog σ ρ ε ω α}
    {result : Except ω α} (h : Reachable G init c)
    (hrunning : c.threads t = some (k, .running start p))
    (hmay : May (fun r s => r = result ∧ s = s') p c.state) :
    ∃ c', Reachable G init c' ∧ c'.state = s' ∧ c'.log = c.log ++ [⟨k, start, result, s'⟩] ∧
      c'.threads = Function.update c.threads t none ∧
      c'.owner = fun l => if c.owner l = some t then none else c.owner l := by
  induction p generalizing c with
  | ret a =>
    obtain ⟨rfl, rfl⟩ := hmay
    exact ⟨_, h.step (.finish hrunning rfl), rfl, rfl, rfl, rfl⟩
  | throw e =>
    obtain ⟨rfl, rfl⟩ := hmay
    exact ⟨_, h.step (.finish hrunning rfl), rfl, rfl, rfl, rfl⟩
  | act l f rest ih =>
    obtain ⟨c', hc', hstate, hlog, hthreads, howner⟩ :=
      ih c.state (h.step (.act hrunning)) (update_self ..) hmay
    exact ⟨c', hc', hstate, hlog, by simpa using hthreads, howner⟩
  | ask rest ih =>
    obtain ⟨r, hr⟩ := hmay
    obtain ⟨c', hc', hstate, hlog, hthreads, howner⟩ :=
      ih r (h.step (.ask r hrunning)) (update_self ..) hr
    exact ⟨c', hc', hstate, hlog, by simpa using hthreads, howner⟩

/-- When nobody has a lock a request can run from its arrival to its end. -/
theorem Reachable.request {s' : σ} {result : Except ω α} (h : Reachable G init c)
    (hidle : c.owner = fun _ => none) (hthreads : c.threads = fun _ => none)
    (hnodup : (G.locks k).Nodup) (hmay : May (fun r s => r = result ∧ s = s') (G.body k) c.state) :
    ∃ c', Reachable G init c' ∧ c'.state = s' ∧ c'.log = c.log ++ [⟨k, c.state, result, s'⟩] ∧
      (c'.owner = fun _ => none) ∧ c'.threads = fun _ => none := by
  have harrived := h.step (.arrive (t := 0) k (by rw [hthreads]))
  obtain ⟨c₁, h₁, hstate₁, hlog₁, hthreads₁, howner₁⟩ :=
    harrived.takeAll (update_self ..) hnodup fun l _ => congrFun hidle l
  have htaking : c₁.threads 0 = some (k, .taking []) := by
    rw [hthreads₁]
    exact update_self ..
  obtain ⟨c₂, h₂, hstate₂, hlog₂, hthreads₂, howner₂⟩ :=
    (h₁.step (.run htaking)).runAll (update_self ..) (by rw [hstate₁]; exact hmay)
  refine ⟨c₂, h₂, hstate₂, ?_, ?_, ?_⟩
  · rw [hlog₂, hlog₁, hstate₁]
  · rw [howner₂]
    funext l
    simp only [howner₁, hidle]
    grind
  · rw [hthreads₂]
    simp only [hthreads₁, hthreads, update_idem]
    exact update_eq_self 0 _

end Guarded

end Lib
