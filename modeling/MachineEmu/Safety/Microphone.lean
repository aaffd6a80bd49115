import MachineEmu.Web.Record

/-!
# The microphone is released

* `SpiceRecord.Released` — what is open while the guest does not listen.
* `SpiceRecord.Wanted` — a microphone is granted to a guest that listens, and there is none.
* `released` — it is released in every run where it is granted so; `not_released` — where the guest
  stops listening before the grant.
-/

namespace MachineEmu.Web

open Lib

namespace SpiceRecord

variable {s : SpiceRecord}

/-- One stream at most is live. After the guest's `stop`, or after a call of `stop`, none is once
nothing is awaited; and a call of `stop` closes all that is open. -/
structure Released (s : SpiceRecord) : Prop where
  atMostOne : s.stream.live.length ≤ 1
  closed : s.awaitingMedia = 0 → s.awaitingWorklets = 0 →
    (s.last = some .stop ∨ s.stopped = true) → s.stream.live = [] ∧ s.context.live = []
  reached : (s.step .stop).stream.live = [] ∧ (s.step .stop).context.live = []

/-- The grant of a microphone finds a guest that listens, no call of `stop`, and no stream. -/
def Wanted (s : SpiceRecord) : Action → Prop
  | .granted grant => grant = .denied ∨ s.awaitingMedia = 0 ∨
      (s.stream.held = none ∧ s.last = some .start ∧ s.stopped = false)
  | _ => True

/-- Every grant of a run is wanted. -/
def AllWanted : SpiceRecord → List Action → Prop
  | _, [] => True
  | s, action :: rest => s.Wanted action ∧ AllWanted (s.step action) rest

/-- The fields hold all that is open, and nothing when nobody listens. -/
structure Holds (s : SpiceRecord) : Prop where
  stream : s.stream.Tight
  context : s.context.Tight
  together : s.stream.held = none → s.context.held = none
  silent : s.last ≠ some .start ∨ s.stopped = true → s.stream.held = none

theorem Holds.begin (h : s.Holds) : s.begin.Holds := by
  unfold SpiceRecord.begin
  split
  · exact h
  · exact ⟨h.stream, h.context, h.together, h.silent⟩

theorem Holds.handle (h : s.Holds) (message : RecordMessage) : (s.handle message).Holds := by
  cases message with
  | start =>
    refine Holds.begin ⟨h.stream, h.context, h.together, fun hsilent => ?_⟩
    exact h.silent (.inr (hsilent.resolve_left fun hne => hne rfl))
  | stop => exact ⟨h.stream.close, h.context.close, fun _ => rfl, fun _ => rfl⟩

theorem Holds.granted (h : s.Holds) {grant : Grant} (hwanted : s.Wanted (.granted grant)) :
    (s.granted grant).Holds := by
  unfold SpiceRecord.granted
  split
  · exact h
  · next awaiting hawaiting =>
    rcases hwanted with rfl | hzero | ⟨hstream, hlast, hstopped⟩
    · exact ⟨h.stream, h.context, h.together, h.silent⟩
    · omega
    · have hspeaks : ¬(s.last ≠ some .start ∨ s.stopped = true) := by simp [hlast, hstopped]
      cases grant with
      | denied => exact ⟨h.stream, h.context, h.together, h.silent⟩
      | streamOnly =>
        exact ⟨.assign (h.stream.live_eq_nil hstream) _, h.context, nofun,
          fun hsilent => absurd hsilent hspeaks⟩
      | both =>
        exact ⟨.assign (h.stream.live_eq_nil hstream) _,
          .assign (h.context.live_eq_nil (h.together hstream)) _, nofun,
          fun hsilent => absurd hsilent hspeaks⟩

theorem Holds.loaded (h : s.Holds) (ok : Bool) : (s.loaded ok).Holds := by
  unfold SpiceRecord.loaded
  split
  · exact h
  · split
    · split <;> exact ⟨h.stream, h.context, h.together, h.silent⟩
    · exact ⟨h.stream, h.context, h.together, h.silent⟩

theorem Holds.step (h : s.Holds) {action : Action} (hwanted : s.Wanted action) :
    (s.step action).Holds := by
  cases action with
  | message message => exact h.handle message
  | setMuted muted => exact ⟨h.stream, h.context, h.together, h.silent⟩
  | stop => exact ⟨h.stream.close, h.context.close, fun _ => rfl, fun _ => rfl⟩
  | granted grant => exact h.granted hwanted
  | loaded ok => exact h.loaded ok

theorem Holds.run (h : s.Holds) {actions : List Action} (hwanted : AllWanted s actions) :
    (actions.foldl SpiceRecord.step s).Holds := by
  induction actions generalizing s with
  | nil => exact h
  | cons action rest ih => exact ih (h.step hwanted.1) hwanted.2

theorem Holds.isReleased (h : s.Holds) : s.Released where
  atMostOne := h.stream.length_le
  closed _ _ hended := by
    have hstream : s.stream.held = none := by
      rcases hended with hlast | hstopped
      · exact h.silent (.inl (by rw [hlast]; nofun))
      · exact h.silent (.inr hstopped)
    exact ⟨h.stream.live_eq_nil hstream, h.context.live_eq_nil (h.together hstream)⟩
  reached := ⟨h.stream.live_close, h.context.live_close⟩

end SpiceRecord

open SpiceRecord

/-- In every run whose grants are wanted, the microphone is released. -/
theorem released (actions : List Action) (h : AllWanted {} actions) : (run actions).Released := by
  have hbegin : Holds {} := ⟨Slot.tight_empty, Slot.tight_empty, fun _ => rfl, fun _ => rfl⟩
  exact (hbegin.run h).isReleased

/-- The guest listens, stops listening and listens again. -/
theorem released_twice : (run [.message .start, .granted .both, .loaded true, .message .stop,
    .message .start, .granted .both, .loaded true, .stop]).Released :=
  released _ (by simp only [AllWanted, Wanted]; decide)

/-- The guest stops listening before the microphone is granted. -/
theorem not_released : ¬∀ actions, (run actions).Released := by
  intro h
  have hclosed := (h [.message .start, .message .stop, .granted .both, .loaded true]).closed
    rfl rfl (.inl rfl)
  exact absurd hclosed.1 (by decide)

end MachineEmu.Web
