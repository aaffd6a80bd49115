import MachineEmu.Lib.Prog

/-!
# A service that answers one request at a time

Requests are programs that run under one lock: a request is accepted only when none is in
progress. Meanwhile the environment may change the state, and at any moment the service may crash,
which loses its volatile state and runs the reopening request before anything else.

* `Service.Reachable` — the configurations reached from an initial state by steps that a policy
  `ok` admits.
* `Service.Discipline` — an invariant with its interference relation: what is preserved by the
  environment, by every act of every request and by a crash.
* `Service.Discipline.sound` and `Service.Discipline.act` — every admitted run keeps the
  invariant, and every act of such a run respects the guarantee.
* `Service.play` and `Service.Reachable.play` — a run given by its requests, replies and crashes,
  computed.
-/

namespace Lib

open Prog

/-- The requests of a service, what its environment does, and what a crash leaves. -/
structure Service (σ ρ ε ω κ : Type) where
  /-- The program that answers a request. -/
  request : κ → Prog σ ρ ε ω Unit
  /-- A labelled step of the environment. -/
  env : ε → σ → σ → Prop
  /-- The state that survives a crash. -/
  crash : σ → σ
  /-- The request that runs first after a crash. -/
  reopen : κ

namespace Service

variable {σ ρ ε ω κ : Type}

/-- The shared state and the request in progress, if any. -/
structure Config (σ ρ ε ω κ : Type) where
  state : σ
  busy : Option (κ × Prog σ ρ ε ω Unit)

/-- What happens in one step. -/
inductive Event (ε κ : Type) where
  | accept (request : κ)
  | act (label : ε)
  | reply
  | answer
  | env (label : ε)
  | crash

/-- One step of the service. -/
inductive Step (S : Service σ ρ ε ω κ) :
    Config σ ρ ε ω κ → Event ε κ → Config σ ρ ε ω κ → Prop
  | accept (s : σ) (r : κ) : Step S ⟨s, none⟩ (.accept r) ⟨s, some (r, S.request r)⟩
  | act (s : σ) (r : κ) (l : ε) (f : σ → σ) (k : σ → Prog σ ρ ε ω Unit) :
      Step S ⟨s, some (r, .act l f k)⟩ (.act l) ⟨f s, some (r, k s)⟩
  | reply (s : σ) (r : κ) (k : ρ → Prog σ ρ ε ω Unit) (a : ρ) :
      Step S ⟨s, some (r, .ask k)⟩ .reply ⟨s, some (r, k a)⟩
  | ret (s : σ) (r : κ) (u : Unit) : Step S ⟨s, some (r, .ret u)⟩ .answer ⟨s, none⟩
  | throw (s : σ) (r : κ) (e : ω) : Step S ⟨s, some (r, .throw e)⟩ .answer ⟨s, none⟩
  | env (s s' : σ) (b : Option (κ × Prog σ ρ ε ω Unit)) (l : ε) (h : S.env l s s') :
      Step S ⟨s, b⟩ (.env l) ⟨s', b⟩
  | crash (s : σ) (b : Option (κ × Prog σ ρ ε ω Unit)) :
      Step S ⟨s, b⟩ .crash ⟨S.crash s, some (S.reopen, S.request S.reopen)⟩

/-- The configurations reached from an idle initial state by steps the policy `ok` admits; the
policy sees the event and the state before it. -/
inductive Reachable (S : Service σ ρ ε ω κ) (init : σ → Prop) (ok : σ → Event ε κ → Prop) :
    Config σ ρ ε ω κ → Prop
  | init (s : σ) (h : init s) : Reachable S init ok ⟨s, none⟩
  | step (c c' : Config σ ρ ε ω κ) (e : Event ε κ) (h : Reachable S init ok c)
      (hok : ok c.state e) (hstep : Step S c e c') : Reachable S init ok c'

/-- An invariant of a service with its interference relation. `always` holds at every moment,
`idle` between requests, and `post r` when the request `r` has succeeded. -/
structure Discipline (S : Service σ ρ ε ω κ) (init : σ → Prop) (ok : σ → Event ε κ → Prop)
    (R : σ → σ → Prop) (G : ε → σ → σ → Prop) where
  always : σ → Prop
  idle : σ → Prop
  post : κ → σ → Prop
  refl : ∀ s, R s s
  trans : ∀ s₁ s₂ s₃, R s₁ s₂ → R s₂ s₃ → R s₁ s₃
  env : ∀ l s s', ok s (.env l) → S.env l s s' → R s s'
  init_idle : ∀ s, init s → idle s
  always_of_idle : ∀ s, idle s → always s
  always_stable : ∀ s s', R s s' → always s → always s'
  idle_stable : ∀ s s', R s s' → idle s → idle s'
  idle_of_post : ∀ r s, post r s → idle s
  post_stable : ∀ r s s', R s s' → post r s → post r s'
  always_of_act : ∀ l s s', G l s s' → always s'
  request : ∀ r s, ok s (.accept r) → idle s →
    Ok R (fun l s => ok s (.act l)) G (fun _ => post r) (fun _ => idle) (S.request r) s
  crash : ∀ s, ok s .crash → always s →
    always (S.crash s) ∧
      Ok R (fun l s => ok s (.act l)) G (fun _ => post S.reopen) (fun _ => idle)
        (S.request S.reopen) (S.crash s)

namespace Discipline

variable {S : Service σ ρ ε ω κ} {init : σ → Prop} {ok : σ → Event ε κ → Prop}
  {R : σ → σ → Prop} {G : ε → σ → σ → Prop}

/-- The invariant of a configuration: the request in progress still meets its judgement. -/
def Holds (D : Discipline S init ok R G) (c : Config σ ρ ε ω κ) : Prop :=
  D.always c.state ∧
    match c.busy with
    | none => D.idle c.state
    | some (r, p) =>
      Ok R (fun l s => ok s (.act l)) G (fun _ => D.post r) (fun _ => D.idle) p c.state

/-- One admitted step keeps the invariant. -/
theorem Holds.step {D : Discipline S init ok R G} {c c' : Config σ ρ ε ω κ} {e : Event ε κ}
    (h : D.Holds c) (hok : ok c.state e) (hstep : Step S c e c') : D.Holds c' := by
  cases hstep with
  | accept s r => exact ⟨h.1, D.request r s hok h.2⟩
  | act s r l f k =>
    have hact := h.2 s (D.refl s) hok
    exact ⟨D.always_of_act l s _ hact.1, hact.2⟩
  | reply s r k a => exact ⟨h.1, h.2 a⟩
  | ret s r u => exact ⟨h.1, D.idle_of_post r s h.2⟩
  | throw s r e => exact ⟨h.1, h.2⟩
  | env s s' b l henv =>
    have hR := D.env l s s' hok henv
    refine ⟨D.always_stable s s' hR h.1, ?_⟩
    cases b with
    | none => exact D.idle_stable s s' hR h.2
    | some b =>
      exact Ok.rely D.trans (fun _ => D.post_stable b.1) (fun _ => D.idle_stable) h.2 hR
  | crash s b => exact ⟨(D.crash s hok h.1).1, (D.crash s hok h.1).2⟩

/-- Every admitted run keeps the invariant. -/
theorem sound (D : Discipline S init ok R G) {c : Config σ ρ ε ω κ}
    (h : Reachable S init ok c) : D.Holds c := by
  induction h with
  | init s h => exact ⟨D.always_of_idle s (D.init_idle s h), D.init_idle s h⟩
  | step c c' e _ hok hstep ih => exact ih.step hok hstep

/-- Every act of an admitted run respects the guarantee. -/
theorem act (D : Discipline S init ok R G) {c c' : Config σ ρ ε ω κ} {l : ε}
    (h : Reachable S init ok c) (hok : ok c.state (.act l)) (hstep : Step S c (.act l) c') :
    G l c.state c'.state := by
  have hc := D.sound h
  cases hstep with
  | act s r l f k => exact (hc.2 s (D.refl s) hok).1

end Discipline

/-! ## Computed runs -/

/-- Run a program alone, with the replies in order, up to an act that is not admitted or that
`stop` names, to a question without a reply, or to its end. -/
def advance (admits : σ → Event ε κ → Bool) (stop : ε → σ → Bool) :
    Prog σ ρ ε ω Unit → List ρ → σ → Prog σ ρ ε ω Unit × σ
  | .ret u, _, s => (.ret u, s)
  | .throw e, _, s => (.throw e, s)
  | .act l f k, replies, s =>
    if admits s (.act l) && !stop l s then advance admits stop (k s) replies (f s)
    else (.act l f k, s)
  | .ask k, [], s => (.ask k, s)
  | .ask k, a :: replies, s =>
    if admits s .reply then advance admits stop (k a) replies s else (.ask k, s)

/-- Whether a program has ended. -/
def ended : Prog σ ρ ε ω Unit → Bool
  | .ret _ | .throw _ => true
  | .act .. | .ask _ => false

/-- What drives a service: a request that runs to its end, a request that a crash cuts short
before an act that `stop` names, and a crash between two requests. The second list of replies is
for the reopening. -/
inductive Move (σ ρ ε κ : Type) where
  | request (r : κ) (replies : List ρ)
  | cut (r : κ) (replies : List ρ) (stop : ε → σ → Bool) (reopening : List ρ)
  | crash (reopening : List ρ)

/-- Run a program to its end, if the replies suffice and every act is admitted. -/
def finish (admits : σ → Event ε κ → Bool) (p : Prog σ ρ ε ω Unit) (replies : List ρ) (s : σ) :
    Option σ :=
  let r := advance admits (fun _ _ => false) p replies s
  if ended r.1 && admits r.2 .answer then some r.2 else none

/-- Crash and reopen. -/
def restart (S : Service σ ρ ε ω κ) (admits : σ → Event ε κ → Bool) (reopening : List ρ)
    (s : σ) : Option σ :=
  if admits s .crash then finish admits (S.request S.reopen) reopening (S.crash s) else none

/-- Drive an idle service through one move. -/
def move (S : Service σ ρ ε ω κ) (admits : σ → Event ε κ → Bool) (s : σ) :
    Move σ ρ ε κ → Option σ
  | .request r replies =>
    if admits s (.accept r) then finish admits (S.request r) replies s else none
  | .cut r replies stop reopening =>
    if admits s (.accept r) then
      restart S admits reopening (advance admits stop (S.request r) replies s).2
    else none
  | .crash reopening => restart S admits reopening s

/-- Drive an idle service through the moves. -/
def play (S : Service σ ρ ε ω κ) (admits : σ → Event ε κ → Bool) :
    List (Move σ ρ ε κ) → σ → Option σ
  | [], s => some s
  | m :: rest, s => (move S admits s m).bind (play S admits rest)

/-- The state in which the reopening returns after a request that a crash cut short before an act
that `stop` names. -/
def reopened (S : Service σ ρ ε ω κ) (admits : σ → Event ε κ → Bool) (r : κ) (replies : List ρ)
    (stop : ε → σ → Bool) (reopening : List ρ) (s : σ) : Option σ :=
  let cutShort := advance admits stop (S.request r) replies s
  if admits s (.accept r) && admits cutShort.2 .crash then
    match advance admits (fun _ _ => false) (S.request S.reopen) reopening
      (S.crash cutShort.2) with
    | (.ret _, s') => some s'
    | _ => none
  else none

/-- The state after the next act of a program. -/
def afterAct : Prog σ ρ ε ω Unit → σ → Option σ
  | .act _ f _, s => some (f s)
  | .ret _, _ | .throw _, _ | .ask _, _ => none

section Play

variable {S : Service σ ρ ε ω κ} {init : σ → Prop} {ok : σ → Event ε κ → Prop}
  {admits : σ → Event ε κ → Bool} {s s' : σ}

theorem Reachable.advance {r : κ} {p : Prog σ ρ ε ω Unit} {replies : List ρ}
    {stop : ε → σ → Bool} (hok : ∀ s e, admits s e = true → ok s e)
    (h : Reachable S init ok ⟨s, some (r, p)⟩) :
    Reachable S init ok ⟨(Service.advance admits stop p replies s).2,
      some (r, (Service.advance admits stop p replies s).1)⟩ := by
  induction p generalizing replies s with
  | ret u => exact h
  | throw e => exact h
  | act l f k ih =>
    unfold Service.advance
    split
    · next hl =>
      have hadmit := hok s _ (Bool.and_eq_true_iff.1 hl).1
      exact ih s (.step _ _ _ h hadmit (.act s r l f k))
    · exact h
  | ask k ih =>
    cases replies with
    | nil => exact h
    | cons a rest =>
      unfold Service.advance
      split
      · next hreply => exact ih a (.step _ _ _ h (hok s _ hreply) (.reply s r k a))
      · exact h

theorem Reachable.finish {r : κ} {p : Prog σ ρ ε ω Unit} {replies : List ρ}
    (hok : ∀ s e, admits s e = true → ok s e) (h : Reachable S init ok ⟨s, some (r, p)⟩)
    (hfinish : Service.finish admits p replies s = some s') :
    Reachable S init ok ⟨s', none⟩ := by
  have hend : Reachable S init ok ⟨(Service.advance admits (fun _ _ => false) p replies s).2,
      some (r, (Service.advance admits (fun _ _ => false) p replies s).1)⟩ := h.advance hok
  simp only [Service.finish, Option.ite_none_right_eq_some, Bool.and_eq_true,
    Option.some.injEq] at hfinish
  generalize Service.advance admits (fun _ _ => false) p replies s = final at hend hfinish
  obtain ⟨q, t⟩ := final
  obtain ⟨⟨hended, hanswer⟩, rfl⟩ := hfinish
  cases q with
  | ret u => exact .step _ _ _ hend (hok t _ hanswer) (.ret t r u)
  | throw e => exact .step _ _ _ hend (hok t _ hanswer) (.throw t r e)
  | act l f k => cases hended
  | ask k => cases hended

theorem Reachable.restart {b : Option (κ × Prog σ ρ ε ω Unit)} {reopening : List ρ}
    (hok : ∀ s e, admits s e = true → ok s e) (h : Reachable S init ok ⟨s, b⟩)
    (hrestart : Service.restart S admits reopening s = some s') :
    Reachable S init ok ⟨s', none⟩ := by
  simp only [Service.restart, Option.ite_none_right_eq_some] at hrestart
  have hopen := Reachable.step _ _ _ h (hok s _ hrestart.1) (.crash s b)
  exact hopen.finish hok hrestart.2

theorem Reachable.move {m : Move σ ρ ε κ} (hok : ∀ s e, admits s e = true → ok s e)
    (h : Reachable S init ok ⟨s, none⟩) (hmove : Service.move S admits s m = some s') :
    Reachable S init ok ⟨s', none⟩ := by
  cases m with
  | request r replies =>
    simp only [Service.move, Option.ite_none_right_eq_some] at hmove
    have hbusy := Reachable.step _ _ _ h (hok s _ hmove.1) (.accept s r)
    exact hbusy.finish hok hmove.2
  | cut r replies stop reopening =>
    simp only [Service.move, Option.ite_none_right_eq_some] at hmove
    have hbusy := Reachable.step _ _ _ h (hok s _ hmove.1) (.accept s r)
    exact (hbusy.advance hok).restart hok hmove.2
  | crash reopening => exact h.restart hok hmove

/-- A computed run is a run of the service, under every policy that admits what it admits. -/
theorem Reachable.play {moves : List (Move σ ρ ε κ)} (hok : ∀ s e, admits s e = true → ok s e)
    (h : Reachable S init ok ⟨s, none⟩) (hplay : Service.play S admits moves s = some s') :
    Reachable S init ok ⟨s', none⟩ := by
  induction moves generalizing s with
  | nil =>
    cases hplay
    exact h
  | cons m rest ih =>
    obtain ⟨t, hmove, hrest⟩ := Option.bind_eq_some_iff.1 hplay
    exact ih (h.move hok hmove) hrest

/-- The next act of a request is a step. -/
theorem Step.of_afterAct {r : κ} {p : Prog σ ρ ε ω Unit} (h : afterAct p s = some s') :
    ∃ (l : ε) (c : Config σ ρ ε ω κ), Step S ⟨s, some (r, p)⟩ (.act l) c ∧ c.state = s' := by
  cases p with
  | act l f k =>
    cases h
    exact ⟨l, _, .act s r l f k, rfl⟩
  | ret u => cases h
  | throw e => cases h
  | ask k => cases h

/-- A computed reopening. -/
theorem Reachable.reopened {r : κ} {replies reopening : List ρ} {stop : ε → σ → Bool}
    (hok : ∀ s e, admits s e = true → ok s e) (h : Reachable S init ok ⟨s, none⟩)
    (hopen : Service.reopened S admits r replies stop reopening s = some s') :
    Reachable S init ok ⟨s', some (S.reopen, .ret ())⟩ := by
  simp only [Service.reopened, Option.ite_none_right_eq_some, Bool.and_eq_true] at hopen
  obtain ⟨⟨haccept, hcrash⟩, hreturn⟩ := hopen
  have hbusy := Reachable.step _ _ _ h (hok s _ haccept) (.accept s r)
  have hcut : Reachable S init ok ⟨(Service.advance admits stop (S.request r) replies s).2,
      some (r, (Service.advance admits stop (S.request r) replies s).1)⟩ := hbusy.advance hok
  have hcrashed := Reachable.step _ _ _ hcut (hok _ _ hcrash) (.crash _ _)
  have hend : Reachable S init ok
      ⟨(Service.advance admits (fun _ _ => false) (S.request S.reopen) reopening
          (S.crash (Service.advance admits stop (S.request r) replies s).2)).2,
        some (S.reopen, (Service.advance admits (fun _ _ => false) (S.request S.reopen) reopening
          (S.crash (Service.advance admits stop (S.request r) replies s).2)).1)⟩ :=
    hcrashed.advance hok
  generalize Service.advance admits (fun _ _ => false) (S.request S.reopen) reopening
    (S.crash (Service.advance admits stop (S.request r) replies s).2) = final at hend hreturn
  obtain ⟨q, t⟩ := final
  cases q with
  | ret u =>
    cases hreturn
    exact hend
  | throw e => cases hreturn
  | act l f k => cases hreturn
  | ask k => cases hreturn

end Play

end Service

end Lib
