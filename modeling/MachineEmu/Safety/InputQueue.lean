import MachineEmu.Display.Inputs
import Mathlib.Logic.Relation

/-!
# No input is lost

* `InputSession.Held` — how the queue and the worker stand after a run.
* `InputSession.Accounted` — the messages that the worker took, and those in the queue.
* `input_queue` — what holds after every run, whatever the viewers push.
-/

namespace MachineEmu.Display

open Lib

namespace InputSession

variable {s : InputSession}

/-! ## The history -/

/-- The session does what its pushes and pops do to a queue of numbered messages. -/
structure Held (s : InputSession) : Prop where
  queue : s.queue = (Merging.run isMotion 256 s.ops).queue.map Prod.fst
  accepted : s.accepted = (Merging.run isMotion 256 s.ops).accepted
  taken : s.taken = (Merging.run isMotion 256 s.ops).taken.map Prod.fst

theorem Held.pop (h : s.Held) :
    (s.queue = [] ∧ Merging.run isMotion 256 (s.ops ++ [.pop]) = Merging.run isMotion 256 s.ops) ∨
      ∃ m rest, s.queue = m.1 :: rest.map Prod.fst ∧
        Merging.run isMotion 256 (s.ops ++ [.pop]) =
          { Merging.run isMotion 256 s.ops with
            queue := rest, taken := (Merging.run isMotion 256 s.ops).taken ++ [m] } := by
  rw [h.queue, Merging.run_concat]
  simp only [Merging.step]
  split
  · next heq => exact .inl ⟨by rw [heq]; rfl, rfl⟩
  · next m rest heq => exact .inr ⟨m, rest, by rw [heq]; rfl, rfl⟩

theorem Held.push (h : s.Held) (value : Json) : (s.push value).Held := by
  have hpush := Merging.push_map isMotion 256 Prod.fst
    (Merging.run isMotion 256 s.ops).queue
    (value, (Merging.run isMotion 256 s.ops).accepted.length)
  rw [← h.queue] at hpush
  have hrun := Merging.run_concat isMotion 256 s.ops (.push value)
  simp only [Merging.step] at hrun
  unfold InputSession.push pushInput
  rw [hpush]
  split at hrun
  · next queue heq =>
    rw [heq]
    constructor <;> simp only [hrun, h.accepted, h.taken]
  · next queue heq =>
    rw [heq]
    constructor <;> simp only [hrun, h.accepted, h.taken]

theorem Held.notify (h : s.Held) : s.notify.Held := by
  unfold InputSession.notify
  split
  · exact h
  · split <;> exact ⟨h.queue, h.accepted, h.taken⟩

theorem Held.work (h : s.Held) : s.work.Held := by
  unfold InputSession.work
  split
  · split <;> exact ⟨h.queue, h.accepted, h.taken⟩
  · exact h
  · rcases h.pop with ⟨hempty, hrun⟩ | ⟨m, rest, hqueue, hrun⟩
    · rw [hempty]
      constructor <;> simp only [hrun]
      exacts [hempty ▸ h.queue, h.accepted, h.taken]
    · rw [hqueue]
      constructor <;> simp [hrun, h.accepted, h.taken]
  · exact ⟨h.queue, h.accepted, h.taken⟩

theorem Held.step (h : s.Held) (action : Action) : (s.step action).Held := by
  cases action with
  | push value => exact h.push value
  | notify => exact h.notify
  | work => exact h.work

theorem held_run (actions : List Action) : (run actions).Held := by
  unfold run
  induction actions using List.reverseRecOn with
  | nil => exact ⟨rfl, rfl, rfl⟩
  | append_singleton actions action ih =>
    rw [List.foldl_append]
    exact ih.step action

/-! ## The worker -/

/-- With a message in the queue, the worker takes messages, or a notification is stored or due. A
worker that waits has no notification stored. -/
def Awake (s : InputSession) : Prop :=
  match s.worker with
  | .notified => s.queue = [] ∨ s.ready = true ∨ 0 < s.notifying
  | .waiting => s.ready = false ∧ (s.queue = [] ∨ 0 < s.notifying)
  | .draining => True
  | .forwarding _ => True

theorem Awake.push (h : s.Awake) (hlength : s.queue.length ≤ 256) (value : Json) :
    (s.push value).Awake := by
  unfold InputSession.push
  split
  · unfold Awake at h ⊢
    cases hworker : s.worker <;> simp_all
  · next queue hpush =>
    obtain rfl := Merging.push_refused hlength (by decide) hpush
    exact h

theorem Awake.notify (h : s.Awake) : s.notify.Awake := by
  unfold InputSession.notify
  split
  · exact h
  · split
    · trivial
    · unfold Awake
      split <;> simp_all

theorem Awake.work (h : s.Awake) : s.work.Awake := by
  unfold InputSession.work
  split
  · next hworker =>
    split
    · trivial
    · next hready =>
      unfold Awake at h ⊢
      simp_all
  · exact h
  · split
    · next hempty => exact .inl hempty
    · trivial
  · trivial

theorem Held.length_le (h : s.Held) : s.queue.length ≤ 256 := by
  rw [h.queue, List.length_map]
  exact Merging.length_queue_le s.ops

theorem awake_run (actions : List Action) : (run actions).Awake := by
  induction actions using List.reverseRecOn with
  | nil => exact .inl rfl
  | append_singleton actions action ih =>
    have hrun : run (actions ++ [action]) = (run actions).step action := List.foldl_append
    rw [hrun]
    cases action with
    | push value => exact ih.push (held_run actions).length_le value
    | notify => exact ih.notify
    | work => exact ih.work

/-- What is left to do without another input. -/
def remaining (s : InputSession) : Nat :=
  2 * s.queue.length + 3 * s.notifying + (if s.ready then 2 else 0) +
    match s.worker with
    | .waiting => 0
    | .notified => 1
    | .draining => 2
    | .forwarding _ => 3

theorem remaining_lt {s' : InputSession} (h : Internal s s') : s'.remaining < s.remaining := by
  cases h with
  | notify hdue =>
    obtain ⟨notifying, hnotifying⟩ := Nat.exists_eq_succ_of_ne_zero hdue.ne'
    unfold InputSession.notify remaining
    simp only [hnotifying]
    cases hworker : s.worker <;> cases hready : s.ready <;> simp <;> omega
  | work hworker =>
    unfold InputSession.work remaining
    cases hplace : s.worker with
    | notified => cases hready : s.ready <;> simp
    | waiting => exact absurd hplace hworker
    | draining =>
      cases hqueue : s.queue with
      | nil => simp
      | cons message queue =>
        simp only [List.length_cons]
        omega
    | forwarding message => simp

/-- The steps that need no new input come to an end. -/
theorem acc_internal (s : InputSession) : Acc (fun s' s => Internal s s') s :=
  Subrelation.accessible remaining_lt
    (InvImage.accessible remaining (Nat.lt_wfRel.wf.apply s.remaining))

/-- Where the worker waits and no notification is due, the queue is empty. -/
theorem Awake.empty (h : s.Awake) (hend : ∀ s', ¬Internal s s') : s.queue = [] := by
  unfold Awake at h
  split at h
  · next hworker => exact absurd (.work (by rw [hworker]; nofun)) (hend _)
  · rcases h.2 with hempty | hdue
    · exact hempty
    · exact absurd (.notify hdue) (hend _)
  · next hworker => exact absurd (.work (by rw [hworker]; nofun)) (hend _)
  · next message hworker => exact absurd (.work (by rw [hworker]; nofun)) (hend _)

/-- What holds of a session. -/
structure Accounted (s : InputSession) : Prop where
  /-- What was taken and what is queued are the accepted messages, without the motions that another
  one replaced in the queue. -/
  order : s.accepted = (Merging.run isMotion 256 s.ops).accepted ∧
    s.taken ++ s.queue = (Merging.kept isMotion 256 s.ops).map Prod.fst
  /-- A push that fails leaves the queue as it was. -/
  refused : ∀ value, (pushInput s.queue value).1 = false → (pushInput s.queue value).2 = s.queue
  limit : s.queue.length ≤ 256
  /-- The worker takes messages, or will be woken, while the queue is not empty. -/
  awake : s.Awake
  /-- The worker and the notifications that are due come to an end, and then the queue is empty. -/
  emptied : Acc (fun s' s => Internal s s') s ∧
    ∀ s', Relation.ReflTransGen Internal s s' → (∀ s'', ¬Internal s' s'') → s'.queue = []

end InputSession

open InputSession in
/-- Whatever viewers push, and however the worker goes on. -/
theorem input_queue (actions : List Action) : (run actions).Accounted := by
  have hheld := held_run actions
  refine ⟨⟨hheld.accepted, ?_⟩, fun value hrefused => ?_, hheld.length_le, awake_run actions,
    acc_internal _, fun s' hsteps hend => ?_⟩
  · rw [hheld.taken, hheld.queue, ← List.map_append, Merging.taken_append_queue (by decide)]
  · exact Merging.push_refused hheld.length_le (by decide) (Prod.ext hrefused rfl)
  · suffices h : s'.Awake from h.empty hend
    clear hend
    induction hsteps with
    | refl => exact awake_run actions
    | tail _ hstep ih =>
      cases hstep with
      | notify => exact ih.notify
      | work => exact ih.work

end MachineEmu.Display
