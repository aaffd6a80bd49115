import Mathlib.Logic.Relation
import Mathlib.Tactic.Common

/-!
# Sequential programs under interference

A program over a state `σ` reads and writes the state in labelled atomic acts, asks the outside
world for replies, and ends in a value or an error. Between two acts anything in the interference
relation `R` may happen to the state.

* `Prog.Ok` — the rely/guarantee judgement: under interference `R`, every act that its
  precondition `A` admits satisfies the guarantee `G`, and the program ends in `Q` (a value) or
  `X` (an error).
* `Prog.Ok.bind`, `Prog.Ok.attempt`, `Prog.Ok.and`, `Prog.Ok.mono`, `Prog.Ok.rely` — its
  composition rules.
* `Prog.Frame` and `Prog.Ok.of_frame` — a program all of whose acts stay inside a relation keeps
  what interference and that relation keep.
* `Prog.May` — the angelic dual without interference: some replies lead to `Q`.
* `Prog.Ends` and `Prog.eval` — every run alone, for the replies that are good; one such run,
  computed.
* `Prog.Reaches` and `Prog.ok_eq_iff_not_reaches` — an act that breaks a guarantee is reachable
  exactly when the judgement fails.
-/

namespace Lib

/-- A program: `act l f k` atomically applies `f` to the state and continues with what `k` reads
off the state before it; `ask` receives a reply from outside. -/
inductive Prog (σ ρ ε ω α : Type) : Type where
  | ret (a : α)
  | throw (e : ω)
  | act (l : ε) (f : σ → σ) (k : σ → Prog σ ρ ε ω α)
  | ask (k : ρ → Prog σ ρ ε ω α)

namespace Prog

variable {σ ρ ε ω α β : Type}

/-- Sequencing: errors skip the continuation. -/
def bind : Prog σ ρ ε ω α → (α → Prog σ ρ ε ω β) → Prog σ ρ ε ω β
  | ret a, g => g a
  | throw e, _ => throw e
  | act l f k, g => act l f fun s => (k s).bind g
  | ask k, g => ask fun r => (k r).bind g

/-- Turn an error into a value (`match … { Ok(_) => …, Err(_) => … }`). -/
def attempt : Prog σ ρ ε ω α → Prog σ ρ ε ω (Except ω α)
  | ret a => ret (.ok a)
  | throw e => ret (.error e)
  | act l f k => act l f fun s => (k s).attempt
  | ask k => ask fun r => (k r).attempt

/-- One atomic act that computes a value and the next state. -/
def step (l : ε) (f : σ → α × σ) : Prog σ ρ ε ω α :=
  act l (fun s => (f s).2) fun s => ret (f s).1

/-- One atomic act that may fail; a failure keeps its state change. -/
def stepE (l : ε) (f : σ → Except ω α × σ) : Prog σ ρ ε ω α :=
  act l (fun s => (f s).2) fun s =>
    match (f s).1 with
    | .ok a => ret a
    | .error e => throw e

/-- A value or an error that is already known (`?` on a pure result). -/
def ofExcept : Except ω α → Prog σ ρ ε ω α
  | .ok a => ret a
  | .error e => throw e

/-! ## The rely/guarantee judgement -/

/-- Every run of the program from `s` under interference `R`: an act whose label and state
satisfy `A` respects `G`, and the run ends in `Q` or `X`. Runs that violate `A` are not
followed. -/
def Ok (R : σ → σ → Prop) (A : ε → σ → Prop) (G : ε → σ → σ → Prop) (Q : α → σ → Prop)
    (X : ω → σ → Prop) : Prog σ ρ ε ω α → σ → Prop
  | ret a, s => Q a s
  | throw e, s => X e s
  | act l f k, s => ∀ s', R s s' → A l s' → G l s' (f s') ∧ Ok R A G Q X (k s') (f s')
  | ask k, s => ∀ r, Ok R A G Q X (k r) s

section Rules

variable {R : σ → σ → Prop} {A : ε → σ → Prop} {G : ε → σ → σ → Prop}
  {Q Q' : α → σ → Prop} {X X' : ω → σ → Prop}

@[simp] theorem ok_ret {a : α} {s : σ} :
    Ok R A G Q X (ret a : Prog σ ρ ε ω α) s ↔ Q a s := Iff.rfl

@[simp] theorem ok_throw {e : ω} {s : σ} :
    Ok R A G Q X (throw e : Prog σ ρ ε ω α) s ↔ X e s := Iff.rfl

/-- A question: every reply is followed. -/
theorem Ok.ask {k : ρ → Prog σ ρ ε ω α} {s : σ} (hk : ∀ r, Ok R A G Q X (k r) s) :
    Ok R A G Q X (Prog.ask k) s := hk

variable {l : ε}

theorem ok_act {f : σ → σ} {k : σ → Prog σ ρ ε ω α} {s : σ} :
    Ok R A G Q X (act l f k) s ↔
      ∀ s', R s s' → A l s' → G l s' (f s') ∧ Ok R A G Q X (k s') (f s') := Iff.rfl

theorem ok_step {f : σ → α × σ} {s : σ} :
    Ok R A G Q X (step l f : Prog σ ρ ε ω α) s ↔
      ∀ s', R s s' → A l s' → G l s' (f s').2 ∧ Q (f s').1 (f s').2 := Iff.rfl

theorem ok_stepE {f : σ → Except ω α × σ} {s : σ} :
    Ok R A G Q X (stepE l f : Prog σ ρ ε ω α) s ↔
      ∀ s', R s s' → A l s' → G l s' (f s').2 ∧
        (∀ a, (f s').1 = .ok a → Q a (f s').2) ∧ (∀ e, (f s').1 = .error e → X e (f s').2) := by
  unfold stepE
  rw [ok_act]
  refine forall_congr' fun s' => forall_congr' fun _ => forall_congr' fun _ =>
    and_congr_right fun _ => ?_
  cases h : (f s').1 with
  | ok a => simp
  | error e => simp

theorem ok_ofExcept {r : Except ω α} {s : σ} :
    Ok R A G Q X (ofExcept r : Prog σ ρ ε ω α) s ↔
      (∀ a, r = .ok a → Q a s) ∧ (∀ e, r = .error e → X e s) := by
  cases r <;> simp [ofExcept]

variable {p : Prog σ ρ ε ω α}

/-- Weaken the postconditions. -/
theorem Ok.mono {s : σ} (h : Ok R A G Q X p s)
    (hQ : ∀ a s', Q a s' → Q' a s') (hX : ∀ e s', X e s' → X' e s') : Ok R A G Q' X' p s := by
  induction p generalizing s with
  | ret a => exact hQ a s h
  | throw e => exact hX e s h
  | act l f k ih => exact fun s' hR hA => ⟨(h s' hR hA).1, ih s' (h s' hR hA).2⟩
  | ask k ih => exact fun r => ih r (h r)

/-- Strengthen what the acts may assume and weaken what they guarantee. -/
theorem Ok.weaken {A' : ε → σ → Prop} {G' : ε → σ → σ → Prop} {s : σ}
    (h : Ok R A G Q X p s) (hA : ∀ l s', A' l s' → A l s')
    (hG : ∀ l s₁ s₂, A' l s₁ → G l s₁ s₂ → G' l s₁ s₂) : Ok R A' G' Q X p s := by
  induction p generalizing s with
  | ret a => exact h
  | throw e => exact h
  | act l f k ih =>
    intro s' hR hA'
    have hstep := h s' hR (hA l s' hA')
    exact ⟨hG l s' _ hA' hstep.1, ih s' hstep.2⟩
  | ask k ih => exact fun r => ih r (h r)

/-- Less interference. -/
theorem Ok.calmer {R' : σ → σ → Prop} {s : σ} (h : Ok R A G Q X p s)
    (hR : ∀ s₁ s₂, R' s₁ s₂ → R s₁ s₂) : Ok R' A G Q X p s := by
  induction p generalizing s with
  | ret a => exact h
  | throw e => exact h
  | act l f k ih =>
    intro s' hR' hA
    have hstep := h s' (hR s s' hR') hA
    exact ⟨hstep.1, ih s' hstep.2⟩
  | ask k ih => exact fun r => ih r (h r)

/-- Two judgements of one program. -/
theorem Ok.and {G' : ε → σ → σ → Prop} {s : σ} (h : Ok R A G Q X p s) (h' : Ok R A G' Q' X' p s) :
    Ok R A (fun l s₁ s₂ => G l s₁ s₂ ∧ G' l s₁ s₂) (fun a s' => Q a s' ∧ Q' a s')
      (fun e s' => X e s' ∧ X' e s') p s := by
  induction p generalizing s with
  | ret a => exact ⟨h, h'⟩
  | throw e => exact ⟨h, h'⟩
  | act l f k ih =>
    intro s' hR hA
    have hstep := h s' hR hA
    have hstep' := h' s' hR hA
    exact ⟨⟨hstep.1, hstep'.1⟩, ih s' hstep.2 hstep'.2⟩
  | ask k ih => exact fun r => ih r (h r) (h' r)

variable {g : α → Prog σ ρ ε ω β}

/-- Sequencing. -/
theorem Ok.bind {M : α → σ → Prop} {Qb : β → σ → Prop} {s : σ} (hp : Ok R A G M X p s)
    (hg : ∀ a s', M a s' → Ok R A G Qb X (g a) s') : Ok R A G Qb X (p.bind g) s := by
  induction p generalizing s with
  | ret a => exact hg a s hp
  | throw e => exact hp
  | act l f k ih => exact fun s' hR hA => ⟨(hp s' hR hA).1, ih s' (hp s' hR hA).2⟩
  | ask k ih => exact fun r => ih r (hp r)

/-- The value of a result meets `Q`, its error meets `X`. -/
def Either (Q : α → σ → Prop) (X : ω → σ → Prop) : Except ω α → σ → Prop
  | .ok a => Q a
  | .error e => X e

/-- Catching an error. -/
theorem Ok.attempt {E : Except ω α → σ → Prop} {s : σ}
    (hp : Ok R A G (fun a => E (.ok a)) (fun e => E (.error e)) p s) :
    Ok R A G E X p.attempt s := by
  induction p generalizing s with
  | ret a => exact hp
  | throw e => exact hp
  | act l f k ih => exact fun s' hR hA => ⟨(hp s' hR hA).1, ih s' (hp s' hR hA).2⟩
  | ask k ih => exact fun r => ih r (hp r)

/-- Interference before the program starts does no harm when the postconditions are stable. -/
theorem Ok.rely {s s' : σ} (htrans : ∀ a b c, R a b → R b c → R a c)
    (hQ : ∀ a s₁ s₂, R s₁ s₂ → Q a s₁ → Q a s₂) (hX : ∀ e s₁ s₂, R s₁ s₂ → X e s₁ → X e s₂)
    (h : Ok R A G Q X p s) (hR : R s s') : Ok R A G Q X p s' := by
  induction p with
  | ret a => exact hQ a s s' hR h
  | throw e => exact hX e s s' hR h
  | act l f k _ => exact fun s'' hR' hA => h s'' (htrans _ _ _ hR hR') hA
  | ask k ih => exact fun r => ih r (h r)

/-! ## Framing -/

/-- Every act of the program stays inside the relation `F`, and what it returns satisfies `V`. -/
def Frame (F : ε → σ → σ → Prop) (V : α → Prop) : Prog σ ρ ε ω α → Prop
  | ret a => V a
  | throw _ => True
  | act l f k => (∀ s, F l s (f s)) ∧ ∀ s, Frame F V (k s)
  | ask k => ∀ r, Frame F V (k r)

section Frame

variable {F : ε → σ → σ → Prop} {V V' : α → Prop} {W : β → Prop}

@[simp] theorem frame_ret {a : α} : Frame F V (ret a : Prog σ ρ ε ω α) ↔ V a := Iff.rfl

@[simp] theorem frame_throw {e : ω} : Frame F V (throw e : Prog σ ρ ε ω α) := trivial

/-- A question: every reply is followed. -/
theorem Frame.ask {k : ρ → Prog σ ρ ε ω α} (hk : ∀ r, Frame F V (k r)) :
    Frame F V (Prog.ask k) := hk

theorem frame_step {f : σ → α × σ} (hF : ∀ s, F l s (f s).2) (hV : ∀ s, V (f s).1) :
    Frame F V (step l f : Prog σ ρ ε ω α) :=
  ⟨hF, hV⟩

theorem frame_stepE {f : σ → Except ω α × σ} (hF : ∀ s, F l s (f s).2)
    (hV : ∀ s a, (f s).1 = .ok a → V a) : Frame F V (stepE l f : Prog σ ρ ε ω α) := by
  refine ⟨hF, fun s => ?_⟩
  cases h : (f s).1 with
  | ok a =>
    simp only [h]
    exact hV s a h
  | error e =>
    simp only [h]
    exact frame_throw

theorem frame_ofExcept {r : Except ω α} (hV : ∀ a, r = .ok a → V a) :
    Frame F V (ofExcept r : Prog σ ρ ε ω α) := by
  cases r with
  | ok a => exact hV a rfl
  | error e => exact frame_throw

theorem Frame.bind (hp : Frame F V p) (hg : ∀ a, V a → Frame F W (g a)) : Frame F W (p.bind g) := by
  induction p with
  | ret a => exact hg a hp
  | throw e => exact frame_throw
  | act l f k ih => exact ⟨hp.1, fun s => ih s (hp.2 s)⟩
  | ask k ih => exact fun r => ih r (hp r)

/-- Sequencing when the value does not matter. -/
theorem Frame.andThen
    (hp : Frame F (fun _ => True) p) (hg : ∀ a, Frame F W (g a)) : Frame F W (p.bind g) :=
  hp.bind fun a _ => hg a

theorem Frame.attempt (hp : Frame F V p) : Frame F (fun r => ∀ a, r = .ok a → V a) p.attempt := by
  induction p with
  | ret a =>
    rintro _ ⟨⟩
    exact hp
  | throw e =>
    rintro _ ⟨⟩
  | act l f k ih => exact ⟨hp.1, fun s => ih s (hp.2 s)⟩
  | ask k ih => exact fun r => ih r (hp r)

theorem Frame.mono {F' : ε → σ → σ → Prop} (hp : Frame F V p)
    (hF : ∀ l s s', F l s s' → F' l s s') (hV : ∀ a, V a → V' a) : Frame F' V' p := by
  induction p with
  | ret a => exact hV a hp
  | throw e => exact frame_throw
  | act l f k ih => exact ⟨fun s => hF l s _ (hp.1 s), fun s => ih s (hp.2 s)⟩
  | ask k ih => exact fun r => ih r (hp r)

end Frame

/-- A program all of whose acts stay inside the relation `F` keeps every assertion that
interference and `F` keep. -/
theorem Ok.of_frame {F : ε → σ → σ → Prop} {V : α → Prop} {P : σ → Prop}
    {s : σ} (hp : Frame F V p) (hs : P s) (hR : ∀ s₁ s₂, R s₁ s₂ → P s₁ → P s₂)
    (hF : ∀ l s₁ s₂, A l s₁ → P s₁ → F l s₁ s₂ → P s₂ ∧ G l s₁ s₂) :
    Ok R A G (fun a s' => V a ∧ P s') (fun _ => P) p s := by
  induction p generalizing s with
  | ret a => exact ⟨hp, hs⟩
  | throw e => exact hs
  | act l f k ih =>
    intro s' hR' hA
    have hP := hF l s' (f s') hA (hR s s' hR' hs) (hp.1 s')
    exact ⟨hP.2, ih s' (hp.2 s') hP.1⟩
  | ask k ih => exact fun r => ih r (hp r) hs

end Rules

/-! ## The angelic dual -/

/-- Some replies lead the program, run alone from `s`, to a result in `Q`. -/
def May (Q : Except ω α → σ → Prop) : Prog σ ρ ε ω α → σ → Prop
  | ret a, s => Q (.ok a) s
  | throw e, s => Q (.error e) s
  | act _ f k, s => May Q (k s) (f s)
  | ask k, s => ∃ r, May Q (k r) s

section May

variable {Q Q' : Except ω α → σ → Prop}

@[simp] theorem may_ret {a : α} {s : σ} :
    May Q (ret a : Prog σ ρ ε ω α) s ↔ Q (.ok a) s := Iff.rfl

@[simp] theorem may_throw {e : ω} {s : σ} :
    May Q (throw e : Prog σ ρ ε ω α) s ↔ Q (.error e) s := Iff.rfl

@[simp] theorem may_act {l : ε} {f : σ → σ} {k : σ → Prog σ ρ ε ω α} {s : σ} :
    May Q (act l f k) s ↔ May Q (k s) (f s) := Iff.rfl

@[simp] theorem may_ask {k : ρ → Prog σ ρ ε ω α} {s : σ} :
    May Q (ask k) s ↔ ∃ r, May Q (k r) s := Iff.rfl

theorem may_stepE {l : ε} {f : σ → Except ω α × σ} {s : σ} :
    May Q (stepE l f : Prog σ ρ ε ω α) s ↔ Q (f s).1 (f s).2 := by
  unfold stepE
  rw [may_act]
  cases h : (f s).1 <;> simp

theorem May.mono {p : Prog σ ρ ε ω α} {s : σ} (h : May Q p s) (hQ : ∀ r s', Q r s' → Q' r s') :
    May Q' p s := by
  induction p generalizing s with
  | ret a => exact hQ _ s h
  | throw e => exact hQ _ s h
  | act l f k ih => exact ih s h
  | ask k ih => exact h.imp fun r hr => ih r hr

/-- Sequencing: the first part ends in a value and the second part goes on from there. -/
theorem May.bind {Qb : Except ω β → σ → Prop} {p : Prog σ ρ ε ω α} {g : α → Prog σ ρ ε ω β}
    {s : σ} (hp : May (fun r s' => ∃ a, r = .ok a ∧ May Qb (g a) s') p s) :
    May Qb (p.bind g) s := by
  induction p generalizing s with
  | ret a =>
    obtain ⟨a', ha, h⟩ := hp
    cases ha
    exact h
  | throw e =>
    obtain ⟨a', ha, _⟩ := hp
    cases ha
  | act l f k ih => exact ih s hp
  | ask k ih => exact hp.imp fun r hr => ih r hr

/-- Sequencing after an error. -/
theorem May.bind_error {Qb : Except ω β → σ → Prop} {p : Prog σ ρ ε ω α}
    {g : α → Prog σ ρ ε ω β} {s : σ}
    (hp : May (fun r s' => ∃ e, r = .error e ∧ Qb (.error e) s') p s) : May Qb (p.bind g) s := by
  induction p generalizing s with
  | ret a =>
    obtain ⟨e, he, _⟩ := hp
    cases he
  | throw e =>
    obtain ⟨e', he, h⟩ := hp
    cases he
    exact h
  | act l f k ih => exact ih s hp
  | ask k ih => exact hp.imp fun r hr => ih r hr

theorem May.attempt {E : Except ω (Except ω α) → σ → Prop} {p : Prog σ ρ ε ω α} {s : σ}
    (hp : May (fun r => E (.ok r)) p s) : May E p.attempt s := by
  induction p generalizing s with
  | ret a => exact hp
  | throw e => exact hp
  | act l f k ih => exact ih s hp
  | ask k ih => exact hp.imp fun r hr => ih r hr

/-- What every run guarantees holds of the result that some run reaches. -/
theorem Ok.of_may {R : σ → σ → Prop} {A : ε → σ → Prop} {G : ε → σ → σ → Prop}
    {Qo : α → σ → Prop} {X : ω → σ → Prop} {p : Prog σ ρ ε ω α} {s : σ}
    (hok : Ok R A G Qo X p s) (hrefl : ∀ s, R s s) (hA : ∀ l s, A l s) (hmay : May Q p s) :
    ∃ r s', Q r s' ∧ (∀ a, r = .ok a → Qo a s') ∧ (∀ e, r = .error e → X e s') := by
  induction p generalizing s with
  | ret a =>
    refine ⟨.ok a, s, hmay, ?_, nofun⟩
    rintro _ ⟨⟩
    exact hok
  | throw e =>
    refine ⟨.error e, s, hmay, nofun, ?_⟩
    rintro _ ⟨⟩
    exact hok
  | act l f k ih => exact ih s (hok s (hrefl s) (hA l s)).2 hmay
  | ask k ih =>
    obtain ⟨r, hr⟩ := hmay
    exact ih r (hok r) hr

end May

/-! ## Reaching an act -/

/-- Some replies lead the program, run alone from `s`, to an act in `B`. -/
def Reaches (B : ε → σ → σ → Prop) : Prog σ ρ ε ω α → σ → Prop
  | ret _, _ => False
  | throw _, _ => False
  | act l f k, s => B l s (f s) ∨ Reaches B (k s) (f s)
  | ask k, s => ∃ r, Reaches B (k r) s

section Reaches

variable {B : ε → σ → σ → Prop}

@[simp] theorem reaches_ret {a : α} {s : σ} :
    ¬ Reaches B (ret a : Prog σ ρ ε ω α) s := id

@[simp] theorem reaches_throw {e : ω} {s : σ} :
    ¬ Reaches B (throw e : Prog σ ρ ε ω α) s := id

theorem Reaches.bind_left {p : Prog σ ρ ε ω α} {g : α → Prog σ ρ ε ω β} {s : σ}
    (h : Reaches B p s) : Reaches B (p.bind g) s := by
  induction p generalizing s with
  | ret a => exact h.elim
  | throw e => exact h.elim
  | act l f k ih => exact h.imp id (ih s)
  | ask k ih => exact h.imp fun r hr => ih r hr

/-- A program all of whose acts stay outside `B` reaches no act in it. -/
theorem not_reaches_of_frame {F : ε → σ → σ → Prop} {V : α → Prop} {p : Prog σ ρ ε ω α} {s : σ}
    (h : Frame F V p) (hF : ∀ l s s', F l s s' → ¬ B l s s') : ¬ Reaches B p s := by
  induction p generalizing s with
  | ret a => exact reaches_ret
  | throw e => exact reaches_throw
  | act l f k ih =>
    rintro (hact | hrest)
    · exact hF l s _ (h.1 s) hact
    · exact ih s (h.2 s) hrest
  | ask k ih =>
    rintro ⟨r, hr⟩
    exact ih r (h r) hr

end Reaches

/-! ## Running alone -/

/-- Every run of the program alone from `s`, whose replies are good in the states in which they
arrive, ends in `Q` (a value) or `X` (an error). -/
def Ends (good : σ → ρ → Prop) (Q : α → σ → Prop) (X : ω → σ → Prop) :
    Prog σ ρ ε ω α → σ → Prop
  | ret a, s => Q a s
  | throw e, s => X e s
  | act _ f k, s => Ends good Q X (k s) (f s)
  | ask k, s => ∀ r, good s r → Ends good Q X (k r) s

/-- The run with the replies in order and `d` when they are exhausted, as long as they pass the
test. -/
def eval (test : σ → ρ → Bool) (d : ρ) :
    Prog σ ρ ε ω α → List ρ → σ → Option (Except ω α × σ)
  | ret a, _, s => some (.ok a, s)
  | throw e, _, s => some (.error e, s)
  | act _ f k, replies, s => eval test d (k s) replies (f s)
  | ask k, replies, s =>
    if test s (replies.headD d) then eval test d (k (replies.headD d)) replies.tail s else none

section Ends

variable {good : σ → ρ → Prop} {Q Q' : α → σ → Prop} {X X' : ω → σ → Prop} {s : σ}

@[simp] theorem ends_ret {a : α} : Ends good Q X (ret a : Prog σ ρ ε ω α) s ↔ Q a s := Iff.rfl

@[simp] theorem ends_throw {e : ω} : Ends good Q X (throw e : Prog σ ρ ε ω α) s ↔ X e s := Iff.rfl

@[simp] theorem ends_act {l : ε} {f : σ → σ} {k : σ → Prog σ ρ ε ω α} :
    Ends good Q X (act l f k) s ↔ Ends good Q X (k s) (f s) := Iff.rfl

/-- A question: every good reply is followed. -/
theorem Ends.ask {k : ρ → Prog σ ρ ε ω α} (hk : ∀ r, good s r → Ends good Q X (k r) s) :
    Ends good Q X (Prog.ask k) s := hk

theorem ends_stepE {l : ε} {f : σ → Except ω α × σ} :
    Ends good Q X (stepE l f : Prog σ ρ ε ω α) s ↔
      (∀ a, (f s).1 = .ok a → Q a (f s).2) ∧ ∀ e, (f s).1 = .error e → X e (f s).2 := by
  unfold stepE
  rw [ends_act]
  cases h : (f s).1 <;> simp

theorem ends_ofExcept {r : Except ω α} :
    Ends good Q X (ofExcept r : Prog σ ρ ε ω α) s ↔
      (∀ a, r = .ok a → Q a s) ∧ ∀ e, r = .error e → X e s := by
  cases r <;> simp [ofExcept]

theorem Ends.mono {p : Prog σ ρ ε ω α} (h : Ends good Q X p s)
    (hQ : ∀ a s', Q a s' → Q' a s') (hX : ∀ e s', X e s' → X' e s') : Ends good Q' X' p s := by
  induction p generalizing s with
  | ret a => exact hQ a s h
  | throw e => exact hX e s h
  | act l f k ih => exact ih s h
  | ask k ih => exact fun r hr => ih r (h r hr)

/-- What always holds holds of every run. -/
theorem Ends.always {p : Prog σ ρ ε ω α} (hQ : ∀ a s', Q a s') (hX : ∀ e s', X e s') :
    Ends good Q X p s := by
  induction p generalizing s with
  | ret a => exact hQ a s
  | throw e => exact hX e s
  | act l f k ih => exact ih s
  | ask k ih => exact fun r _ => ih r

/-- Two facts about every run. -/
theorem Ends.and {p : Prog σ ρ ε ω α} (h : Ends good Q X p s) (h' : Ends good Q' X' p s) :
    Ends good (fun a s' => Q a s' ∧ Q' a s') (fun e s' => X e s' ∧ X' e s') p s := by
  induction p generalizing s with
  | ret a => exact ⟨h, h'⟩
  | throw e => exact ⟨h, h'⟩
  | act l f k ih => exact ih s h h'
  | ask k ih => exact fun r hr => ih r (h r hr) (h' r hr)

/-- What every act keeps holds in the end. -/
theorem Frame.ends {F : ε → σ → σ → Prop} {V : α → Prop} {P : σ → Prop} {p : Prog σ ρ ε ω α}
    (hp : Frame F V p) (hs : P s) (hF : ∀ l s₁ s₂, P s₁ → F l s₁ s₂ → P s₂) :
    Ends good (fun a s' => V a ∧ P s') (fun _ => P) p s := by
  induction p generalizing s with
  | ret a => exact ⟨hp, hs⟩
  | throw e => exact hs
  | act l f k ih => exact ih s (hp.2 s) (hF l s _ hs (hp.1 s))
  | ask k ih => exact fun r _ => ih r (hp r) hs

/-- What every run alone ends in, with a guarantee that each act keeps with an assertion. -/
theorem Ends.ok {R : σ → σ → Prop} {A : ε → σ → Prop} {F G : ε → σ → σ → Prop} {V : α → Prop}
    {P : σ → Prop} {p : Prog σ ρ ε ω α} (h : Ends (fun _ _ => True) Q X p s)
    (hp : Frame F V p) (hs : P s) (hR : ∀ s₁ s₂, R s₁ s₂ → s₁ = s₂)
    (hF : ∀ l s₁ s₂, P s₁ → F l s₁ s₂ → P s₂ ∧ G l s₁ s₂) :
    Ok R A G (fun a s' => Q a s' ∧ P s') (fun e s' => X e s' ∧ P s') p s := by
  induction p generalizing s with
  | ret a => exact ⟨h, hs⟩
  | throw e => exact ⟨h, hs⟩
  | act l f k ih =>
    intro s' hss' _
    obtain rfl := hR s s' hss'
    have hact := hF l s (f s) hs (hp.1 s)
    exact ⟨hact.2, ih s h (hp.2 s) hact.1⟩
  | ask k ih => exact fun r => ih r (h r trivial) (hp r) hs

/-- Fewer good replies. -/
theorem Ends.fewer {good' : σ → ρ → Prop} {p : Prog σ ρ ε ω α} (h : Ends good Q X p s)
    (hgood : ∀ s r, good' s r → good s r) : Ends good' Q X p s := by
  induction p generalizing s with
  | ret a => exact h
  | throw e => exact h
  | act l f k ih => exact ih s h
  | ask k ih => exact fun r hr => ih r (h r (hgood s r hr))

variable {Qb : β → σ → Prop}

/-- Sequencing. -/
theorem Ends.bind {M : α → σ → Prop} {p : Prog σ ρ ε ω α}
    {g : α → Prog σ ρ ε ω β} (hp : Ends good M X p s)
    (hg : ∀ a s', M a s' → Ends good Qb X (g a) s') : Ends good Qb X (p.bind g) s := by
  induction p generalizing s with
  | ret a => exact hg a s hp
  | throw e => exact hp
  | act l f k ih => exact ih s hp
  | ask k ih => exact fun r hr => ih r (hp r hr)

/-- Sequencing, with the rest as what the first part is followed by. -/
theorem Ends.seq {p : Prog σ ρ ε ω α} {g : α → Prog σ ρ ε ω β}
    (h : Ends good (fun a s' => Ends good Qb X (g a) s') X p s) : Ends good Qb X (p.bind g) s :=
  h.bind fun _ _ h => h

/-- Sequencing after what only reports a value. -/
theorem Ends.value {p : Prog σ ρ ε ω α} {g : α → Prog σ ρ ε ω β} {v : α}
    (hp : ∀ {Q : α → σ → Prop}, Q v s → Ends good Q X p s)
    (h : ∀ a, a = v → Ends good Qb X (g a) s) : Ends good Qb X (p.bind g) s :=
  Ends.seq (hp (h v rfl))

/-- Catching an error. -/
theorem Ends.attempt {E : Except ω α → σ → Prop} {p : Prog σ ρ ε ω α}
    (hp : Ends good (fun a => E (.ok a)) (fun e => E (.error e)) p s) :
    Ends good E X p.attempt s := by
  induction p generalizing s with
  | ret a => exact hp
  | throw e => exact hp
  | act l f k ih => exact ih s hp
  | ask k ih => exact fun r hr => ih r (hp r hr)

/-- An act in `B` is reached in the first part, or in the second one from where the first may
end. -/
theorem Ends.of_reaches_bind {B : ε → σ → σ → Prop} {M : α → σ → Prop} {p : Prog σ ρ ε ω α}
    {g : α → Prog σ ρ ε ω β} {s : σ} (hp : Ends (fun _ _ => True) M X p s)
    (h : Reaches B (p.bind g) s) : Reaches B p s ∨ ∃ a s', M a s' ∧ Reaches B (g a) s' := by
  induction p generalizing s with
  | ret a => exact .inr ⟨a, s, hp, h⟩
  | throw e => exact h.elim
  | act l f k ih =>
    rcases h with hact | hrest
    · exact .inl (.inl hact)
    · exact (ih s hp hrest).imp .inr id
  | ask k ih =>
    obtain ⟨r, hr⟩ := h
    exact (ih r (hp r trivial) hr).imp (fun h => ⟨r, h⟩) id

/-- A first part that cannot fail is followed by the second one. -/
theorem Ends.reaches_bind {B : ε → σ → σ → Prop} {M : α → σ → Prop} {p : Prog σ ρ ε ω α}
    {g : α → Prog σ ρ ε ω β} {s : σ} (hp : Ends good M (fun _ _ => False) p s)
    (hgood : ∀ s, ∃ r, good s r) (hg : ∀ a s', M a s' → Reaches B (g a) s') :
    Reaches B (p.bind g) s := by
  induction p generalizing s with
  | ret a => exact hg a s hp
  | throw e => exact hp.elim
  | act l f k ih => exact .inr (ih s hp)
  | ask k ih =>
    obtain ⟨r, hr⟩ := hgood s
    exact ⟨r, ih r (hp r hr)⟩

/-- A program that cannot fail returns in some run. -/
theorem Ends.exists {p : Prog σ ρ ε ω α} {s : σ} (h : Ends good Q (fun _ _ => False) p s)
    (hgood : ∀ s, ∃ r, good s r) : ∃ a s', Q a s' := by
  induction p generalizing s with
  | ret a => exact ⟨a, s, h⟩
  | throw e => exact h.elim
  | act l f k ih => exact ih s h
  | ask k ih =>
    obtain ⟨r, hr⟩ := hgood s
    exact ih r (h r hr)

/-- A program that cannot fail may return. -/
theorem Ends.may {p : Prog σ ρ ε ω α} {s : σ} (h : Ends good Q (fun _ _ => False) p s)
    (hgood : ∀ s, ∃ r, good s r) : May (fun r s' => ∃ a, r = .ok a ∧ Q a s') p s := by
  induction p generalizing s with
  | ret a => exact ⟨a, rfl, h⟩
  | throw e => exact h.elim
  | act l f k ih => exact ih s h
  | ask k ih =>
    obtain ⟨r, hr⟩ := hgood s
    exact ⟨r, ih r (h r hr)⟩

/-- What holds of every run holds of a computed one. -/
theorem Ends.eval {test : σ → ρ → Bool} {d : ρ} {p : Prog σ ρ ε ω α} {replies : List ρ}
    {s s' : σ} {r : Except ω α} (h : Ends good Q X p s)
    (htest : ∀ s r, test s r = true → good s r)
    (heval : Prog.eval test d p replies s = some (r, s')) :
    (∀ a, r = .ok a → Q a s') ∧ ∀ e, r = .error e → X e s' := by
  induction p generalizing replies s with
  | ret a =>
    cases heval
    refine ⟨?_, nofun⟩
    rintro _ ⟨⟩
    exact h
  | throw e =>
    cases heval
    refine ⟨nofun, ?_⟩
    rintro _ ⟨⟩
    exact h
  | act l f k ih => exact ih s h heval
  | ask k ih =>
    unfold Prog.eval at heval
    split at heval
    · next hr => exact ih _ (h _ (htest s _ hr)) heval
    · cases heval

/-- What holds of every run holds of the result that some run reaches. -/
theorem Ends.of_may {E : Except ω α → σ → Prop} {p : Prog σ ρ ε ω α} {s : σ}
    (h : Ends (fun _ _ => True) Q X p s) (hmay : May E p s) :
    ∃ r s', E r s' ∧ (∀ a, r = .ok a → Q a s') ∧ ∀ e, r = .error e → X e s' := by
  induction p generalizing s with
  | ret a =>
    refine ⟨.ok a, s, hmay, ?_, nofun⟩
    rintro _ ⟨⟩
    exact h
  | throw e =>
    refine ⟨.error e, s, hmay, nofun, ?_⟩
    rintro _ ⟨⟩
    exact h
  | act l f k ih => exact ih s h hmay
  | ask k ih =>
    obtain ⟨r, hr⟩ := hmay
    exact ih r (h r trivial) hr

/-- Some run reaches a computed result. -/
theorem May.of_eval {test : σ → ρ → Bool} {d : ρ} {p : Prog σ ρ ε ω α} {replies : List ρ}
    {s s' : σ} {r : Except ω α} (h : Prog.eval test d p replies s = some (r, s')) :
    May (fun r' t => r' = r ∧ t = s') p s := by
  induction p generalizing replies s with
  | ret a =>
    cases h
    exact ⟨rfl, rfl⟩
  | throw e =>
    cases h
    exact ⟨rfl, rfl⟩
  | act l f k ih => exact ih s h
  | ask k ih =>
    unfold Prog.eval at h
    split at h
    · exact ⟨_, ih _ h⟩
    · cases h

/-- What some run may end in is one result. -/
theorem May.exists {E : Except ω α → σ → Prop} {p : Prog σ ρ ε ω α} {s : σ} (h : May E p s) :
    ∃ r s', E r s' ∧ May (fun r' t => r' = r ∧ t = s') p s := by
  induction p generalizing s with
  | ret a => exact ⟨.ok a, s, h, rfl, rfl⟩
  | throw e => exact ⟨.error e, s, h, rfl, rfl⟩
  | act l f k ih => exact ih s h
  | ask k ih =>
    obtain ⟨reply, hreply⟩ := h
    obtain ⟨r, s', hend, hmay⟩ := ih reply hreply
    exact ⟨r, s', hend, reply, hmay⟩

/-- What holds of every run holds of a computed one that passes a check. -/
theorem Ends.of_eval {p : Prog σ ρ ε ω α} {s : σ} (h : Ends good Q X p s) (test : σ → ρ → Bool)
    (d : ρ) (replies : List ρ) (check : Except ω α × σ → Bool)
    (htest : ∀ s r, test s r = true → good s r)
    (heval : (Prog.eval test d p replies s).any check = true) :
    ∃ r s', check (r, s') = true ∧ (∀ a, r = .ok a → Q a s') ∧ ∀ e, r = .error e → X e s' := by
  cases hresult : Prog.eval test d p replies s with
  | none =>
    rw [hresult] at heval
    cases heval
  | some result =>
    rw [hresult] at heval
    exact ⟨result.1, result.2, heval, h.eval htest hresult⟩

end Ends

end Prog

end Lib
