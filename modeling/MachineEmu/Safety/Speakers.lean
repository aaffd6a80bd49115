import MachineEmu.Web.Playback

/-!
# The graph of the speakers

* `SpicePlayback.Steady` — one node of the last start at most, no stale decoder, no sound while the
  operator has muted.
* `SpicePlayback.Expected` — a start completes while it is the last and nothing is connected, and
  the guest does not lift the mute of the operator.
* `steady` — every run of such events; `not_steady` — where two starts wait at once.
-/

namespace MachineEmu.Web

open Lib Spice

theorem PlaybackStart.SameStream.trans {a b c : PlaybackStart} (h : a.SameStream b)
    (h' : b.SameStream c) : a.SameStream c :=
  ⟨h.1.trans h'.1, h.2.trans h'.2⟩

namespace SpicePlayback

variable {s : SpicePlayback} {browser : Browser}

/-- One node at most is connected, that of the last start, and none after a last `teardown` once
nothing waits; frames are decoded for their own stream; and the gain is zero while the operator has
muted. -/
structure Steady (s : SpicePlayback) : Prop where
  atMostOne : s.connected.length ≤ 1
  lastStart : ∀ c ∈ s.connected, ∃ f, s.format = some f ∧ c.format.SameStream f
  released : s.tornDown = true → s.pending = [] → s.connected = []
  decoded : ∀ d ∈ s.decodes, d.1.SameStream d.2
  silent : s.operatorMuted = true → ∀ c ∈ s.connected, c.gain = 0

/-- A start that goes on to make a node is of the format of the last one, finds no node, and was not
torn down; and the guest unmutes only what the operator has not muted. -/
def Expected (browser : Browser) (s : SpicePlayback) : Action → Prop
  | .loaded place ok => ∀ format, s.pending[place]? = some format →
      ok = true ∧ browser.makesNode format = true →
        s.node = none ∧ s.tornDown = false ∧ ∃ f, s.format = some f ∧ format.SameStream f
  | .message message => message.kind = 106 → s.operatorMuted = true →
      message.payload.head?.any (· ≠ 0) = true
  | _ => True

/-- Every event of a run is expected. -/
def AllExpected (browser : Browser) : SpicePlayback → List Action → Prop
  | _, [] => True
  | s, action :: rest => s.Expected browser action ∧ AllExpected browser (s.step browser action) rest

/-! ## The invariant -/

/-- What is connected is the node in the field, with the format of the stream and the volume. -/
structure Holds (s : SpicePlayback) : Prop where
  graph : s.connected = [] ∨ ∃ c f, s.connected = [c] ∧ s.node = some c.id ∧
    s.format = some f ∧ c.format.SameStream f ∧ c.gain = s.volume ∧ s.tornDown = false
  paired : s.gain = s.node
  decoder : ∀ g, s.decoder = some (some g) → ∃ f, s.format = some f ∧ g.SameStream f
  decoded : ∀ d ∈ s.decodes, d.1.SameStream d.2
  muted : s.operatorMuted = true → s.muted = true

theorem Holds.teardown (h : s.Holds) (tornDown : Bool) :
    { s with tornDown }.teardown.Holds := by
  refine ⟨.inl ?_, rfl, nofun, h.decoded, h.muted⟩
  obtain hnone | ⟨c, f, hc, hnode, -⟩ := h.graph
  · simp [SpicePlayback.teardown, hnone]
  · simp [SpicePlayback.teardown, hc, hnode]

/-- A change of the volume reaches the node that is connected. -/
theorem Holds.mute (h : s.Holds) {muted operatorMuted : Bool}
    (hmuted : operatorMuted = true → muted = true) :
    { s with muted, operatorMuted }.applyGain.Holds := by
  refine ⟨?_, h.paired, h.decoder, h.decoded, hmuted⟩
  obtain hnone | ⟨c, f, hc, hnode, hformat, hsame, -, htorn⟩ := h.graph
  · exact .inl (by simp [applyGain, hnone])
  · have hgain : s.gain = some c.id := h.paired.trans hnode
    refine .inr ⟨{ c with gain := { s with muted }.volume }, f, ?_, hnode, hformat, hsame, rfl, htorn⟩
    simp [applyGain, hc, hgain, volume]

theorem Holds.start (h : s.Holds) (format : PlaybackStart) : (s.start format).Holds := by
  unfold SpicePlayback.start
  split
  · next hkeep =>
    obtain ⟨old, hold, hsame⟩ : ∃ old, s.format = some old ∧ old.SameStream format := by
      simpa [changed] using hkeep.2
    refine ⟨?_, h.paired, fun g hg => ?_, h.decoded, h.muted⟩
    · obtain hnone | ⟨c, f, hc, hnode, hformat, hcf, hvolume, -⟩ := h.graph
      · exact .inl hnone
      · cases hold.symm.trans hformat
        exact .inr ⟨c, format, hc, hnode, rfl, hcf.trans hsame, hvolume, rfl⟩
    · obtain ⟨f, hf, hgf⟩ := h.decoder g hg
      cases hold.symm.trans hf
      exact ⟨format, rfl, hgf.trans hsame⟩
  · have htorn := h.teardown false
    have hempty := htorn.graph.resolve_right fun ⟨_, _, _, hnode, _⟩ => nomatch hnode
    exact ⟨.inl hempty, rfl, by simp [SpicePlayback.teardown], htorn.decoded, htorn.muted⟩

theorem Holds.openDecoder (h : s.Holds) {format f : PlaybackStart} (hf : s.format = some f)
    (hsame : format.SameStream f) : (s.openDecoder browser format).Holds := by
  unfold SpicePlayback.openDecoder
  split
  · refine ⟨h.graph, h.paired, fun g hg => ?_, h.decoded, h.muted⟩
    obtain ⟨-, rfl⟩ : browser.configures format = true ∧ format = g := by simpa using hg
    exact ⟨f, hf, hsame⟩
  · exact h

theorem Holds.loaded (h : s.Holds) {place : Nat} {ok : Bool}
    (hexpected : s.Expected browser (.loaded place ok)) : (s.loaded browser place ok).Holds := by
  unfold SpicePlayback.loaded
  split
  · exact h
  · next format hformat =>
    dsimp only
    split
    · next hmade =>
      obtain ⟨hnode, htorn, f, hf, hsame⟩ := hexpected format hformat hmade
      have hempty : s.connected = [] := by
        refine h.graph.resolve_right fun ⟨c, _, _, hheld, _⟩ => ?_
        rw [hnode] at hheld
        cases hheld
      have hnext : Holds { s with
          pending := s.pending.eraseIdx place, node := some s.opened, gain := some s.opened
          opened := s.opened + 1, connected := s.connected ++ [⟨s.opened, format, s.volume⟩] } :=
        ⟨.inr ⟨_, f, by rw [hempty]; rfl, rfl, hf, hsame, rfl, htorn⟩, rfl, h.decoder, h.decoded,
          h.muted⟩
      split
      · exact hnext.openDecoder hf hsame
      · exact hnext
    · exact ⟨h.graph, h.paired, h.decoder, h.decoded, h.muted⟩

theorem Holds.data (h : s.Holds) (samples : List UInt8) : (s.data browser samples).Holds := by
  unfold SpicePlayback.data
  split
  · exact h
  · next format hformat =>
    split
    · exact h
    · have hopen : Holds (if s.decoder.isNone then s.openDecoder browser format else s) := by
        split
        · exact h.openDecoder hformat ⟨rfl, rfl⟩
        · exact h
      have hkept : (if s.decoder.isNone then s.openDecoder browser format else s).format =
          some format := by
        unfold SpicePlayback.openDecoder
        split_ifs <;> exact hformat
      dsimp only
      split
      · next configured hdecoder =>
        refine ⟨hopen.graph, hopen.paired, hopen.decoder, fun d hd => ?_, hopen.muted⟩
        rcases List.mem_append.1 hd with hd | hd
        · exact hopen.decoded d hd
        · obtain ⟨f, hf, hsame⟩ := hopen.decoder configured hdecoder
          rw [hkept] at hf
          cases hf
          rw [List.mem_singleton] at hd
          rw [hd]
          exact hsame
      · exact hopen

theorem Holds.handle (h : s.Holds) {message : SpiceMessage}
    (hexpected : s.Expected browser (.message message)) : (s.handle browser message).Holds := by
  unfold SpicePlayback.handle
  split
  · split
    · exact ⟨h.graph, h.paired, h.decoder, h.decoded, h.muted⟩
    · exact h
  · split
    · split
      · exact h.start _
      · exact h
    · split
      · split
        · exact h.data _
        · exact h
      · split
        · next hkind => exact h.mute (hexpected hkind)
        · exact h

theorem Holds.step (h : s.Holds) {action : Action} (hexpected : s.Expected browser action) :
    (s.step browser action).Holds := by
  cases action with
  | message message => exact h.handle hexpected
  | setMuted muted => exact h.mute id
  | teardown => exact h.teardown true
  | loaded place ok => exact h.loaded hexpected
  | decoderError => exact ⟨h.graph, h.paired, nofun, h.decoded, h.muted⟩

theorem Holds.run (h : s.Holds) {actions : List Action}
    (hexpected : AllExpected browser s actions) :
    (actions.foldl (SpicePlayback.step browser) s).Holds := by
  induction actions generalizing s with
  | nil => exact h
  | cons action rest ih => exact ih (h.step hexpected.1) hexpected.2

theorem Holds.isSteady (h : s.Holds) : s.Steady := by
  obtain hnone | ⟨c, f, hc, -, hformat, hsame, hvolume, htorn⟩ := h.graph
  · exact ⟨by simp [hnone], by simp [hnone], fun _ _ => hnone, h.decoded, by simp [hnone]⟩
  · refine ⟨by simp [hc], ?_, by simp [htorn], h.decoded, fun hoperator => ?_⟩
    · simpa [hc] using ⟨f, hformat, hsame⟩
    · simp [hc, hvolume, volume, h.muted hoperator]

end SpicePlayback

open SpicePlayback

/-- In every run of expected events the graph is steady. -/
theorem steady (browser : Browser) (actions : List Action)
    (h : AllExpected browser {} actions) : (run browser actions).Steady :=
  (Holds.run ⟨.inl rfl, rfl, by simp, by simp, by simp⟩ h).isSteady

/-- A browser that accepts every format. -/
def acceptsAll : Browser where
  webCodecs := true
  makesNode _ := true
  configures _ := true

/-- The announcement of a stereo stream at 48 kHz. -/
def startStereo : SpiceMessage :=
  ⟨103, [2, 0, 0, 0, 1, 0, 128, 187, 0, 0, 0, 0, 0, 0]⟩

/-- Opus is announced and played, and the operator mutes. -/
theorem steady_opus : (run acceptsAll [.message ⟨102, [0, 0, 0, 0, 3, 0]⟩, .message startStereo,
    .loaded 0 true, .message ⟨101, [0, 0, 0, 0, 7]⟩, .setMuted true]).Steady :=
  steady acceptsAll _ (by simp [AllExpected, Expected]; decide)

/-- Two starts wait at once, and both connect a node. -/
theorem not_steady : ¬ ∀ (browser : Browser) (actions : List Action),
    (run browser actions).Steady := by
  intro h
  have hone := (h acceptsAll [.message startStereo, .message startStereo, .loaded 0 true,
    .loaded 0 true]).atMostOne
  exact absurd hone (by decide)

end MachineEmu.Web
