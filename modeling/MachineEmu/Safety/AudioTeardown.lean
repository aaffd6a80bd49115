import MachineEmu.Web.Client

/-!
# What a stopped audio client leaves open

* `AudioClient.TornDown` — what is open after a last `stop` or `disableMicrophone`.
* `AudioClient.Expected` — an answer that comes to a call which was not ended meanwhile.
* `tornDown` — nothing is left in every run whose answers are expected; `not_tornDown` — where a
  `start` goes on after `stop`.
-/

namespace MachineEmu.Web

open Lib

namespace AudioClient

variable {s : AudioClient}

/-- No channel, timer or context is open once nothing is awaited after a last `stop`, and no record
channel and no timer of the lease after a last `disableMicrophone`; and one channel of each kind at
most is open. -/
structure TornDown (s : AudioClient) : Prop where
  stopped : s.Quiet → s.stopLast = true →
    s.main.live = [] ∧ s.playbackChannel.live = [] ∧ s.recordChannel.live = [] ∧
      s.renewTimer.live = [] ∧ s.captureTimer.live = [] ∧ s.context.live = []
  disabled : s.Quiet → s.disableLast = true → s.recordChannel.live = [] ∧ s.captureTimer.live = []
  atMostOne : s.main.live.length ≤ 1 ∧ s.playbackChannel.live.length ≤ 1 ∧
    s.recordChannel.live.length ≤ 1

/-- What a successful answer opens is not open already; and the last answer of a call comes to a
client that was not stopped, or whose microphone was not turned off, after it. -/
def Expected (s : AudioClient) : Action → Prop
  | .attached ok => ok = false ∨ s.attaching = 0 ∨ s.renewTimer.live = []
  | .linkedMain ok => ok = false ∨ s.linkingMain = 0 ∨ s.main.live = []
  | .initialised channel _ =>
    channel ∉ s.initialising ∨ channel ∉ s.main.live ∨ s.main.held = none ∨ s.context.live = []
  | .linkedPlayback ok =>
    ok = false ∨ s.linkingPlayback = 0 ∨ (s.playbackChannel.live = [] ∧ s.stopLast = false)
  | .claimed ok => ok = false ∨ s.claiming = 0 ∨ s.captureTimer.live = []
  | .linkedRecord ok => ok = false ∨ s.linkingRecord = 0 ∨
      (s.recordChannel.live = [] ∧ s.stopLast = false ∧ s.disableLast = false)
  | _ => True

/-- Every answer of a run is expected. -/
def AllExpected : AudioClient → List Action → Prop
  | _, [] => True
  | s, action :: rest => s.Expected action ∧ AllExpected (s.step action) rest

/-! ## The invariant -/

/-- Variables that hold all that is open. -/
structure AllTight (main playbackChannel recordChannel context renewTimer captureTimer : Slot) :
    Prop where
  main : main.Tight
  playbackChannel : playbackChannel.Tight
  recordChannel : recordChannel.Tight
  context : context.Tight
  renewTimer : renewTimer.Tight
  captureTimer : captureTimer.Tight

/-- The fields hold all that is open. -/
abbrev Tidy (s : AudioClient) : Prop :=
  AllTight s.main s.playbackChannel s.recordChannel s.context s.renewTimer s.captureTimer

/-- Nothing of a session is open. -/
def SessionClosed (s : AudioClient) : Prop :=
  s.main.live = [] ∧ s.playbackChannel.live = [] ∧ s.context.live = [] ∧ s.renewTimer.live = []

/-- Nothing of the microphone is open. -/
def MicrophoneClosed (s : AudioClient) : Prop :=
  s.recordChannel.live = [] ∧ s.captureTimer.live = []

/-- The waits of the calls of `start`. -/
def starting (s : AudioClient) : Nat :=
  s.attaching + s.linkingMain + s.initialising.length + s.resuming + s.linkingPlayback

/-- After a last `stop` only a call of `start` in progress keeps something open, and a call of
`enableMicrophone` in progress something of the microphone. -/
structure Holds (s : AudioClient) : Prop where
  tidy : s.Tidy
  session : s.stopLast = true → s.starting = 0 → s.SessionClosed
  microphone : s.stopLast = true ∨ s.disableLast = true → s.linkingRecord = 0 → s.MicrophoneClosed

theorem tidy_close (h : s.Tidy) : s.close.Tidy :=
  ⟨h.main.close, h.playbackChannel.close, h.recordChannel.close, h.context.close,
    h.renewTimer.close, h.captureTimer.close⟩

theorem tidy_closeMicrophone (h : s.Tidy) : s.closeMicrophone.Tidy :=
  ⟨h.main, h.playbackChannel, h.recordChannel.close, h.context, h.renewTimer, h.captureTimer.close⟩

theorem holds_close (h : s.Tidy) : s.close.Holds where
  tidy := tidy_close h
  session _ _ := ⟨h.main.live_close, h.playbackChannel.live_close, h.context.live_close,
    h.renewTimer.live_close⟩
  microphone _ _ := ⟨h.recordChannel.live_close, h.captureTimer.live_close⟩

/-! ## Steps -/

theorem Holds.start (h : s.Holds) : s.start.Holds := by
  unfold AudioClient.start
  split
  · exact h
  · exact ⟨h.tidy, nofun, fun hended => h.microphone (.inr (hended.resolve_left nofun))⟩

theorem Holds.enableMicrophone (h : s.Holds) : s.enableMicrophone.Holds := by
  unfold AudioClient.enableMicrophone
  split
  · exact h
  · exact ⟨h.tidy, nofun, nofun⟩

variable {ok : Bool}

theorem Holds.attached (h : s.Holds) (hexpected : s.Expected (.attached ok)) :
    (s.attached ok).Holds := by
  unfold AudioClient.attached
  split
  · exact h
  · next attaching hattaching =>
    cases ok with
    | false => exact holds_close h.tidy
    | true =>
      have hempty : s.renewTimer.live = [] := by
        simpa [Expected, hattaching] using hexpected
      refine ⟨{ h.tidy with renewTimer := .assign hempty _ }, fun _ hstarting => ?_, h.microphone⟩
      simp only [starting, if_true] at hstarting
      omega

theorem Holds.linkedMain (h : s.Holds) (hexpected : s.Expected (.linkedMain ok)) :
    (s.linkedMain ok).Holds := by
  unfold AudioClient.linkedMain
  split
  · exact h
  · next linkingMain hlinking =>
    cases ok with
    | false => exact holds_close h.tidy
    | true =>
      have hempty : s.main.live = [] := by
        simpa [Expected, hlinking] using hexpected
      refine ⟨{ h.tidy with main := .assign hempty _ }, fun _ hstarting => ?_, h.microphone⟩
      simp only [starting, if_true, List.length_append, List.length_singleton] at hstarting
      omega

theorem Holds.initialised (h : s.Holds) {channel : Nat} {suspended : Bool}
    (hexpected : s.Expected (.initialised channel suspended)) :
    (s.initialised channel suspended).Holds := by
  unfold AudioClient.initialised
  split
  · next hwaits =>
    dsimp only
    split
    · exact holds_close h.tidy
    · next hmain =>
      have hempty : s.context.live = [] := by
        simpa [Expected, hwaits, hmain] using hexpected
      have htidy := { h.tidy with context := Slot.Tight.assign hempty s.opened }
      cases suspended with
      | false =>
        refine ⟨htidy, fun _ hstarting => ?_, h.microphone⟩
        simp [starting] at hstarting
      | true =>
        refine ⟨htidy, fun _ hstarting => ?_, h.microphone⟩
        simp [starting] at hstarting
  · exact h

theorem Holds.initTimeout (h : s.Holds) (channel : Nat) : (s.initTimeout channel).Holds := by
  unfold AudioClient.initTimeout
  split
  · exact holds_close h.tidy
  · exact h

theorem Holds.resumed (h : s.Holds) (ok : Bool) : (s.resumed ok).Holds := by
  unfold AudioClient.resumed
  split
  · exact h
  · cases ok with
    | false => exact holds_close h.tidy
    | true =>
      refine ⟨h.tidy, fun _ hstarting => ?_, h.microphone⟩
      simp [starting] at hstarting

theorem Holds.linkedPlayback (h : s.Holds)
    (hexpected : s.Expected (.linkedPlayback ok)) : (s.linkedPlayback ok).Holds := by
  unfold AudioClient.linkedPlayback
  split
  · exact h
  · next linkingPlayback hlinking =>
    cases ok with
    | false => exact holds_close h.tidy
    | true =>
      obtain ⟨hempty, hstop⟩ : s.playbackChannel.live = [] ∧ s.stopLast = false := by
        simpa [Expected, hlinking] using hexpected
      exact ⟨{ h.tidy with playbackChannel := .assign hempty _ },
        fun hlast => absurd (hstop.symm.trans hlast) nofun, h.microphone⟩

theorem Holds.claimed (h : s.Holds) (hexpected : s.Expected (.claimed ok)) :
    (s.claimed ok).Holds := by
  unfold AudioClient.claimed
  split
  · exact h
  · next claiming hclaiming =>
    cases ok with
    | false => exact ⟨h.tidy, h.session, h.microphone⟩
    | true =>
      have hempty : s.captureTimer.live = [] := by
        simpa [Expected, hclaiming] using hexpected
      exact ⟨{ h.tidy with captureTimer := .assign hempty _ }, h.session, fun _ => nofun⟩

theorem Holds.linkedRecord (h : s.Holds) (hexpected : s.Expected (.linkedRecord ok)) :
    (s.linkedRecord ok).Holds := by
  unfold AudioClient.linkedRecord
  split
  · exact h
  · next linkingRecord hlinking =>
    cases ok with
    | false =>
      exact ⟨tidy_closeMicrophone h.tidy, h.session,
        fun _ _ => ⟨h.tidy.recordChannel.live_close, h.tidy.captureTimer.live_close⟩⟩
    | true =>
      obtain ⟨hempty, hstop, hdisable⟩ : s.recordChannel.live = [] ∧ s.stopLast = false ∧
          s.disableLast = false := by
        simpa [Expected, hlinking] using hexpected
      refine ⟨{ h.tidy with recordChannel := .assign hempty _ }, h.session, fun hended => ?_⟩
      simp [hstop, hdisable] at hended

theorem Holds.renewed (h : s.Holds) (ok : Bool) : (s.renewed ok).Holds := by
  unfold AudioClient.renewed
  split
  · exact h
  · cases ok with
    | false => exact holds_close h.tidy
    | true => exact ⟨h.tidy, h.session, h.microphone⟩

theorem Holds.captureRenewed (h : s.Holds) (ok : Bool) : (s.captureRenewed ok).Holds := by
  unfold AudioClient.captureRenewed
  split
  · exact h
  · cases ok with
    | false =>
      exact ⟨tidy_closeMicrophone h.tidy, h.session,
        fun _ _ => ⟨h.tidy.recordChannel.live_close, h.tidy.captureTimer.live_close⟩⟩
    | true => exact ⟨h.tidy, h.session, h.microphone⟩

theorem Holds.mainClosed (h : s.Holds) (channel : Nat) : (s.mainClosed channel).Holds := by
  unfold AudioClient.mainClosed
  split
  · exact holds_close { h.tidy with main := h.tidy.main.lose channel }
  · exact h

theorem Holds.playbackClosed (h : s.Holds) (channel : Nat) : (s.playbackClosed channel).Holds := by
  refine ⟨{ h.tidy with playbackChannel := h.tidy.playbackChannel.lose channel },
    fun hlast hstarting => ?_, h.microphone⟩
  obtain ⟨hmain, hplayback, hcontext, htimer⟩ := h.session hlast hstarting
  exact ⟨hmain, by simp [AudioClient.playbackClosed, Slot.lose, hplayback], hcontext, htimer⟩

theorem Holds.recordClosed (h : s.Holds) (channel : Nat) : (s.recordClosed channel).Holds := by
  unfold AudioClient.recordClosed
  split
  · next hlive =>
    have hclosed := h.tidy.recordChannel.live_lose hlive
    refine ⟨{ h.tidy with recordChannel := ?_, captureTimer := h.tidy.captureTimer.close },
      h.session, fun _ _ => ⟨hclosed, h.tidy.captureTimer.live_close⟩⟩
    simp [Slot.Tight, hclosed]
  · exact h

theorem Holds.step (h : s.Holds) {action : Action} (hexpected : s.Expected action) :
    (s.step action).Holds := by
  cases action with
  | start => exact h.start
  | stop => exact holds_close h.tidy
  | enableMicrophone => exact h.enableMicrophone
  | disableMicrophone =>
    exact ⟨tidy_closeMicrophone h.tidy, h.session,
      fun _ _ => ⟨h.tidy.recordChannel.live_close, h.tidy.captureTimer.live_close⟩⟩
  | attached ok => exact h.attached hexpected
  | linkedMain ok => exact h.linkedMain hexpected
  | initialised channel suspended => exact h.initialised hexpected
  | initTimeout channel => exact h.initTimeout channel
  | resumed ok => exact h.resumed ok
  | linkedPlayback ok => exact h.linkedPlayback hexpected
  | claimed ok => exact h.claimed hexpected
  | linkedRecord ok => exact h.linkedRecord hexpected
  | renewTick =>
    simp only [AudioClient.step, AudioClient.renewTick]
    split
    · exact h
    · exact ⟨h.tidy, h.session, h.microphone⟩
  | renewed ok => exact h.renewed ok
  | captureTick =>
    simp only [AudioClient.step, AudioClient.captureTick]
    split
    · exact h
    · exact ⟨h.tidy, h.session, h.microphone⟩
  | captureRenewed ok => exact h.captureRenewed ok
  | mainClosed channel => exact h.mainClosed channel
  | playbackClosed channel => exact h.playbackClosed channel
  | recordClosed channel => exact h.recordClosed channel

theorem Holds.run (h : s.Holds) {actions : List Action} (hexpected : AllExpected s actions) :
    (actions.foldl AudioClient.step s).Holds := by
  induction actions generalizing s with
  | nil => exact h
  | cons action rest ih => exact ih (h.step hexpected.1) hexpected.2

theorem Quiet.starting (h : s.Quiet) : s.starting = 0 := by
  obtain ⟨hattaching, hmain, hinit, hresuming, hplayback, -⟩ := h
  simp [AudioClient.starting, hattaching, hmain, hinit, hresuming, hplayback]

theorem Holds.isTornDown (h : s.Holds) : s.TornDown where
  stopped hquiet hlast := by
    obtain ⟨hmain, hplayback, hcontext, hrenew⟩ := h.session hlast hquiet.starting
    obtain ⟨hrecord, hcapture⟩ := h.microphone (.inl hlast) hquiet.2.2.2.2.2.2.1
    exact ⟨hmain, hplayback, hrecord, hrenew, hcapture, hcontext⟩
  disabled hquiet hlast := h.microphone (.inr hlast) hquiet.2.2.2.2.2.2.1
  atMostOne :=
    ⟨h.tidy.main.length_le, h.tidy.playbackChannel.length_le, h.tidy.recordChannel.length_le⟩

end AudioClient

open AudioClient

/-- In every run whose answers are expected, nothing is left open. -/
theorem tornDown (actions : List Action) (h : AllExpected {} actions) : (run actions).TornDown := by
  have htight := Slot.tight_empty
  have hbegin : Holds {} := ⟨⟨htight, htight, htight, htight, htight, htight⟩, nofun, nofun⟩
  exact (hbegin.run h).isTornDown

/-- A session with a microphone that is turned off and on, a `start` that goes on after `stop` and
then fails. -/
theorem tornDown_session : (run [.start, .attached true, .linkedMain true, .initialised 1 true,
    .resumed true, .linkedPlayback true, .enableMicrophone, .claimed true, .linkedRecord true,
    .disableMicrophone, .enableMicrophone, .claimed true, .linkedRecord true, .stop, .start, .stop,
    .attached true, .linkedMain false]).TornDown :=
  tornDown _ (by simp only [AllExpected, Expected]; decide)

/-- A `start` that was stopped while it waited for the attach goes on to its end. -/
theorem not_tornDown : ¬∀ actions, (run actions).TornDown := by
  intro h
  have hstopped := (h [.start, .stop, .attached true, .linkedMain true, .initialised 1 false,
    .linkedPlayback true]).stopped (by unfold AudioClient.Quiet; decide) rfl
  exact absurd hstopped.1 (by decide)

end MachineEmu.Web
