import MachineEmu.Display.Capture

/-!
# Snapshots of the captured image

A capture state keeps a framebuffer of its own and a shared buffer. An inline scanout replaces the
first and leaves the second; an update of the shared buffer in native mode leaves the first. Between
runs that avoid both, a snapshot is consistent.

* `Session` — a capture state, the shared buffers, and what QEMU has shown.
* `Synced` — the invariant; `Synced.step` — a careful step keeps it.
* `capture_snapshots` — in careful runs every snapshot is consistent.
-/

namespace MachineEmu.Display

/-! ## Sessions -/

/-- What the listener is called with, and what the encoder asks for. Drawing changes the shared
buffers. -/
inductive Event where
  | scanout (width height stride format : UInt32) (data : List UInt8)
  | update (x y width height : Int32) (stride format : UInt32) (data : List UInt8)
  | scanoutDmabuf (dmabuf : Nat) (width height stride fourcc : UInt32) (modifier : UInt64)
    (y0Top : Bool)
  | scanoutDmabuf2 (dmabufs : List Nat) (offsets strides : List UInt32)
    (width height fourcc backingWidth backingHeight : UInt32) (modifier : UInt64) (y0Top : Bool)
  | updateDmabuf (x y width height : Int32)
  | setNative (native : Bool)
  | snapshot (force : Bool)
  | draw (memory : Memory)

/-- A capture state and what QEMU has shown: the shared buffer of the last accepted scanout, if it
had one, and the image of the last accepted callback. -/
structure Session where
  state : CaptureState
  memory : Memory
  surface : Option DmaBufFrame
  image : Option Frame
  /-- Whether an update was accepted in native mode and no image has been read since. -/
  unread : Bool

/-- The session at the start. -/
def Session.start (memory : Memory) : Session := ⟨{}, memory, none, none, false⟩

/-- The shared buffer that a scanout names. -/
def surfaceOf (dmabuf : Nat) (width height stride fourcc : UInt32) (modifier : UInt64)
    (y0Top : Bool) : DmaBufFrame :=
  ⟨dmabuf, width, height, stride, fourcc, modifier, y0Top, (pixmanFromFourcc fourcc).getD 0⟩

namespace Session

/-- A callback that fails changes nothing. One that panics ends the session: the lock is poisoned. -/
def accept (s : Session) (r : Except Failure CaptureState) (next : CaptureState → Session) :
    Option Session :=
  match r with
  | .ok state => some (next state)
  | .error (.error _) => some s
  | .error .panic => none

/-- The session after an accepted scanout of a shared buffer. -/
def scanned (s : Session) (source : DmaBufFrame) (state : CaptureState) : Session :=
  { s with
    state
    surface := some source
    image := (source.read s.memory).toOption
    unread := false }

def step (s : Session) : Event → Option Session
  | .scanout width height stride format data =>
    s.accept (s.state.scanout width height stride format data) fun state =>
      { s with
        state
        surface := none
        image := (Frame.scanout width height stride format data).toOption
        unread := false }
  | .update x y width height stride format data =>
    s.accept (s.state.update x y width height stride format data) fun state =>
      { s with
        state
        image := s.image.bind fun image =>
          (image.update x y width height stride format data).toOption }
  | .scanoutDmabuf dmabuf width height stride fourcc modifier y0Top =>
    s.accept (s.state.scanoutDmabuf s.memory dmabuf width height stride fourcc modifier y0Top)
      (s.scanned (surfaceOf dmabuf width height stride fourcc modifier y0Top))
  | .scanoutDmabuf2 dmabufs offsets strides width height fourcc backingWidth backingHeight modifier
      y0Top =>
    s.accept (s.state.scanoutDmabuf2 s.memory dmabufs offsets strides width height fourcc
      backingWidth backingHeight modifier y0Top)
      (s.scanned (surfaceOf (dmabufs.headD 0) (max backingWidth width) (max backingHeight height)
        (strides.headD 0) fourcc modifier y0Top))
  | .updateDmabuf x y width height =>
    s.accept (s.state.updateDmabuf s.memory x y width height) fun state =>
      { s with
        state
        image := s.surface.bind fun source => (source.read s.memory).toOption
        unread := s.state.native }
  | .setNative native => some { s with state := s.state.setNative native }
  | .snapshot force => some { s with state := (s.state.snapshot force).2 }
  | .draw memory => some { s with memory }

/-- A snapshot shows the surface of the last accepted scanout, with the dimensions of the
framebuffer, and out of native mode the framebuffer is the image that was shown last. -/
def Consistent (s : Session) (captured : CaptureFrame) : Prop :=
  (∀ source, captured.dma = some source →
    source.width = captured.cpu.width ∧ source.height = captured.cpu.height ∧
      s.surface = some source) ∧
  (s.state.native = false → s.image = some captured.cpu)

/-- The steps that keep the framebuffer and the shared buffer together: no inline scanout is
accepted while a shared buffer is held, and native mode does not end while an update is unread. -/
def Careful (s : Session) : Event → Prop
  | .scanout width height stride format data =>
    s.state.dma = none ∨ ∀ state, s.state.scanout width height stride format data ≠ .ok state
  | .setNative native => native = true ∨ s.unread = false
  | _ => True

/-- The sessions that are reached through steps of some kind. -/
inductive Reached (kind : Session → Event → Prop) : Session → Prop where
  | start (memory : Memory) : Reached kind (start memory)
  | step {s s' : Session} {event : Event} (h : Reached kind s) (hkind : kind s event)
    (hstep : s.step event = some s') : Reached kind s'

/-! ## The invariant -/

/-- The shared buffer is the one that was shown last, the framebuffer has its dimensions, and unless
an update is unread the framebuffer is the image that was shown last. -/
structure Synced (s : Session) : Prop where
  surface : s.state.dma = s.surface
  sized : ∀ source, s.state.dma = some source → ∃ frame, s.state.frame = some frame ∧
    source.width = frame.width ∧ source.height = frame.height
  image : s.unread = false → s.state.frame = s.image
  native : s.state.native = false → s.unread = false

/-! ## What the callbacks do -/

theorem bind_ok {ε α β : Type} {x : Except ε α} {f : α → Except ε β} {b : β}
    (h : x >>= f = .ok b) : ∃ a, x = .ok a ∧ f a = .ok b := by
  cases x with
  | error e => cases h
  | ok a => exact ⟨a, rfl, h⟩

section Callbacks

variable {self state : CaptureState} {memory : Memory} {width height stride format : UInt32}
  {data : List UInt8}

theorem dimensions_read {source : DmaBufFrame} {frame : Frame}
    (h : source.read memory = .ok frame) :
    source.width = frame.width ∧ source.height = frame.height := by
  obtain ⟨_, -, h⟩ := bind_ok h
  obtain ⟨_, -, h⟩ := bind_ok h
  obtain ⟨_, -, h⟩ := bind_ok h
  obtain ⟨hwidth, hheight⟩ := Frame.dimensions_scanout h
  exact ⟨hwidth.symm, hheight.symm⟩

theorem eq_of_scanout (h : self.scanout width height stride format data = .ok state) :
    ∃ frame, Frame.scanout width height stride format data = .ok frame ∧
      state = { self with frame := some frame, refresh := true } := by
  obtain ⟨frame, hframe, hstate⟩ := bind_ok h
  cases hstate
  exact ⟨frame, hframe, rfl⟩

theorem eq_of_update {x y width height : Int32}
    (h : self.update x y width height stride format data = .ok state) :
    ∃ frame frame', self.frame = some frame ∧
      frame.update x y width height stride format data = .ok frame' ∧
      state = { self with frame := some frame', refresh := true } := by
  unfold CaptureState.update at h
  split at h
  · cases h
  · next frame hframe =>
    obtain ⟨frame', hframe', hstate⟩ := bind_ok h
    cases hstate
    exact ⟨frame, frame', hframe, hframe', rfl⟩

theorem eq_of_scanoutDmabuf {dmabuf : Nat} {fourcc : UInt32} {modifier : UInt64} {y0Top : Bool}
    (h : self.scanoutDmabuf memory dmabuf width height stride fourcc modifier y0Top = .ok state) :
    ∃ frame, (surfaceOf dmabuf width height stride fourcc modifier y0Top).read memory = .ok frame ∧
      state = { self with
        frame := some frame
        dma := some (surfaceOf dmabuf width height stride fourcc modifier y0Top)
        refresh := true } := by
  unfold CaptureState.scanoutDmabuf at h
  split at h
  · cases h
  · split at h
    · cases h
    · next raw hraw =>
      obtain ⟨frame, hframe, hstate⟩ := bind_ok h
      cases hstate
      have hsource : surfaceOf dmabuf width height stride fourcc modifier y0Top =
          ⟨dmabuf, width, height, stride, fourcc, modifier, y0Top, raw⟩ := by
        rw [surfaceOf, hraw]
        rfl
      rw [hsource]
      exact ⟨frame, hframe, rfl⟩

theorem eq_of_updateDmabuf {x y width height : Int32}
    (h : self.updateDmabuf memory x y width height = .ok state) :
    ∃ source, self.dma = some source ∧
      (self.native = true ∧ state = { self with refresh := true } ∨
        self.native = false ∧ ∃ frame, source.read memory = .ok frame ∧
          state = { self with frame := some frame, refresh := true }) := by
  unfold CaptureState.updateDmabuf at h
  split at h
  · cases h
  · next source hsource =>
    refine ⟨source, hsource, ?_⟩
    split at h
    · cases h
    · split at h
      · cases h
      · split at h
        · next hnative =>
          cases h
          exact .inl ⟨hnative, rfl⟩
        · next hnative =>
          obtain ⟨frame, hframe, hstate⟩ := bind_ok h
          cases hstate
          exact .inr ⟨Bool.not_eq_true _ ▸ hnative, frame, hframe, rfl⟩

end Callbacks

/-- A callback is accepted, or the session stays as it is. -/
theorem cases_of_accept {s s' : Session} {r : Except Failure CaptureState}
    {next : CaptureState → Session} (h : s.accept r next = some s') :
    (∃ state, r = .ok state ∧ s' = next state) ∨ (∀ state, r ≠ .ok state) ∧ s' = s := by
  unfold accept at h
  split at h
  · next state =>
    cases h
    exact .inl ⟨state, rfl, rfl⟩
  · cases h
    exact .inr ⟨nofun, rfl⟩
  · cases h

/-! ## Steps -/

variable {s s' : Session}

/-- After a scanout of a shared buffer everything is as it was shown. -/
theorem Synced.of_scanned {state : CaptureState} {dmabuf : Nat}
    {width height stride fourcc : UInt32} {modifier : UInt64} {y0Top : Bool}
    (h : s.state.scanoutDmabuf s.memory dmabuf width height stride fourcc modifier y0Top =
      .ok state) :
    Synced (s.scanned (surfaceOf dmabuf width height stride fourcc modifier y0Top) state) := by
  obtain ⟨frame, hframe, rfl⟩ := eq_of_scanoutDmabuf h
  constructor
  · rfl
  · intro source hsource
    cases hsource
    exact ⟨frame, rfl, dimensions_read hframe⟩
  · intro _
    change some frame = ((surfaceOf dmabuf width height stride fourcc modifier y0Top).read
      s.memory).toOption
    rw [hframe]
    rfl
  · intro _
    rfl

/-- A careful step keeps the invariant. -/
theorem Synced.step {event : Event} (h : Synced s) (hcareful : s.Careful event)
    (hstep : s.step event = some s') : Synced s' := by
  cases event with
  | scanout width height stride format data =>
    rcases cases_of_accept hstep with ⟨state, hstate, rfl⟩ | ⟨-, rfl⟩
    · obtain ⟨frame, hframe, rfl⟩ := eq_of_scanout hstate
      have hdma : s.state.dma = none := hcareful.resolve_right fun hnever => hnever _ hstate
      constructor
      · exact hdma
      · intro source hsource
        rw [hdma] at hsource
        cases hsource
      · intro _
        rw [hframe]
        rfl
      · intro _
        rfl
    · exact h
  | update x y width height stride format data =>
    rcases cases_of_accept hstep with ⟨state, hstate, rfl⟩ | ⟨-, rfl⟩
    · obtain ⟨frame, frame', hframe, hframe', rfl⟩ := eq_of_update hstate
      have hdims := Frame.dimensions_update hframe'
      constructor
      · exact h.surface
      · intro source hsource
        obtain ⟨frame₀, hframe₀, hwidth, hheight⟩ := h.sized source hsource
        rw [hframe] at hframe₀
        cases hframe₀
        exact ⟨frame', rfl, hwidth.trans hdims.1.symm, hheight.trans hdims.2.symm⟩
      · intro hread
        have himage := h.image hread
        rw [hframe] at himage
        dsimp only
        rw [← himage, Option.bind_some, hframe']
        rfl
      · exact h.native
    · exact h
  | scanoutDmabuf dmabuf width height stride fourcc modifier y0Top =>
    rcases cases_of_accept hstep with ⟨state, hstate, rfl⟩ | ⟨-, rfl⟩
    · exact of_scanned hstate
    · exact h
  | scanoutDmabuf2 dmabufs offsets strides width height fourcc backingWidth backingHeight modifier
      y0Top =>
    rcases cases_of_accept hstep with ⟨state, hstate, rfl⟩ | ⟨-, rfl⟩
    · unfold CaptureState.scanoutDmabuf2 at hstate
      split at hstate
      · split at hstate
        · cases hstate
        · split at hstate
          · cases hstate
          · next stride hstride =>
            obtain ⟨later, rfl⟩ := List.head?_eq_some_iff.1 hstride
            exact of_scanned hstate
      · cases hstate
    · exact h
  | updateDmabuf x y width height =>
    rcases cases_of_accept hstep with ⟨state, hstate, rfl⟩ | ⟨-, rfl⟩
    · obtain ⟨source, hsource, hmode⟩ := eq_of_updateDmabuf hstate
      rcases hmode with ⟨hnative, rfl⟩ | ⟨hnative, frame, hframe, rfl⟩
      · constructor
        · exact h.surface
        · exact h.sized
        · intro hread
          rw [hnative] at hread
          cases hread
        · exact id
      · constructor
        · exact h.surface
        · intro source' hsource'
          rw [hsource] at hsource'
          cases hsource'
          exact ⟨frame, rfl, dimensions_read hframe⟩
        · intro _
          dsimp only
          rw [← h.surface, hsource, Option.bind_some, hframe]
          rfl
        · exact id
    · exact h
  | setNative native =>
    cases hstep
    constructor
    · exact h.surface
    · exact h.sized
    · exact h.image
    · intro hnative
      exact hcareful.resolve_left fun h' => Bool.noConfusion (h'.symm.trans hnative)
  | snapshot force =>
    cases hstep
    have hstate : ∀ state : CaptureState, (state.snapshot force).2.frame = state.frame ∧
        (state.snapshot force).2.dma = state.dma ∧
        (state.snapshot force).2.native = state.native := by
      intro state
      unfold CaptureState.snapshot
      split <;> exact ⟨rfl, rfl, rfl⟩
    obtain ⟨hframe, hdma, hnative⟩ := hstate s.state
    constructor
    · exact hdma.trans h.surface
    · intro source hsource
      rw [hdma] at hsource
      obtain ⟨frame, hframe₀, hdims⟩ := h.sized source hsource
      exact ⟨frame, hframe.trans hframe₀, hdims⟩
    · exact fun hread => hframe.trans (h.image hread)
    · exact fun hoff => h.native (hnative.symm.trans hoff)
  | draw memory =>
    cases hstep
    exact ⟨h.surface, h.sized, h.image, h.native⟩

/-- The invariant holds in careful runs. -/
theorem Synced.of_reached (h : Reached Careful s) : Synced s := by
  induction h with
  | start memory =>
    constructor
    · rfl
    · exact nofun
    · exact fun _ => rfl
    · exact fun _ => rfl
  | step h hcareful hstep ih => exact ih.step hcareful hstep

end Session

open Session

/-- In a run without an inline scanout over a held shared buffer and without an end of native mode
while an update is unread, every snapshot is consistent. -/
theorem capture_snapshots (s : Session) (force : Bool) (captured : CaptureFrame)
    (hreached : Reached Careful s) (hsnapshot : (s.state.snapshot force).1 = some captured) :
    s.Consistent captured := by
  have hsynced := Synced.of_reached hreached
  unfold CaptureState.snapshot at hsnapshot
  split at hsnapshot
  · cases hsnapshot
  · obtain ⟨frame, hframe, rfl⟩ := Option.map_eq_some_iff.1 hsnapshot
    constructor
    · intro source hsource
      obtain ⟨frame', hframe', hwidth, hheight⟩ := hsynced.sized source hsource
      rw [hframe] at hframe'
      cases hframe'
      exact ⟨hwidth, hheight, hsynced.surface.symm.trans hsource⟩
    · intro hnative
      exact (hsynced.image (hsynced.native hnative)).symm.trans hframe

/-- One step after the other. -/
def Session.steps (s : Session) : List Event → Option Session
  | [] => some s
  | event :: events => (s.step event).bind fun next => next.steps events

theorem Session.Reached.steps {kind : Session → Event → Prop} {s s' : Session}
    {events : List Event} (h : Reached kind s) (hkind : ∀ event ∈ events, ∀ s, kind s event)
    (hsteps : s.steps events = some s') : Reached kind s' := by
  induction events generalizing s with
  | nil =>
    cases hsteps
    exact h
  | cons event events ih =>
    obtain ⟨next, hnext, hrest⟩ := Option.bind_eq_some_iff.1 hsteps
    have hfirst : Reached kind next := h.step (hkind event List.mem_cons_self s) hnext
    exact ih hfirst (fun e he => hkind e (List.mem_cons_of_mem _ he)) hrest

/-- A scanout of a shared buffer that is drawn into and updated. -/
theorem capture_snapshots_of_update : ∃ (s : Session) (captured : CaptureFrame),
    (start fun _ => [1, 2, 3, 4]).steps [.scanoutDmabuf 0 1 1 4 0x34325258 0 true,
      .draw fun _ => [5, 6, 7, 8], .updateDmabuf 0 0 1 1] = some s ∧
    (s.state.snapshot false).1 = some captured ∧ captured.cpu.pixels = [5, 6, 7, 8] ∧
    s.Consistent captured := by
  refine ⟨_, _, rfl, rfl, rfl, capture_snapshots _ false _ ?_ rfl⟩
  refine @Reached.steps Careful _ _ [.scanoutDmabuf 0 1 1 4 0x34325258 0 true,
    .draw fun _ => [5, 6, 7, 8], .updateDmabuf 0 0 1 1] (.start fun _ => [1, 2, 3, 4]) ?_ rfl
  intro event hevent s
  simp only [List.mem_cons, List.not_mem_nil, or_false] at hevent
  rcases hevent with rfl | rfl | rfl <;> trivial

/-- An inline scanout over a shared buffer, and an update that was not read before native mode
ended. -/
theorem capture_snapshots_cut :
    (∃ (s : Session) (captured : CaptureFrame), Reached (fun _ _ => True) s ∧
      (s.state.snapshot false).1 = some captured ∧
      ∃ source, captured.dma = some source ∧ source.width ≠ captured.cpu.width) ∧
    ∃ (s : Session) (captured : CaptureFrame), Reached (fun _ _ => True) s ∧
      (s.state.snapshot false).1 = some captured ∧ s.state.native = false ∧
      s.image ≠ some captured.cpu := by
  have hreached : ∀ {s : Session} (events : List Event),
      (start fun _ => [1, 2, 3, 4]).steps events = some s → Reached (fun _ _ => True) s :=
    fun events hsteps => (Reached.start _).steps (fun _ _ _ => trivial) hsteps
  constructor
  · exact ⟨_, _, hreached [.scanoutDmabuf 0 1 1 4 0x34325258 0 true,
      .scanout 2 1 8 pixmanX8r8g8b8 [1, 2, 3, 4, 5, 6, 7, 8]] rfl, rfl, _, rfl, by decide⟩
  · exact ⟨_, _, hreached [.scanoutDmabuf 0 1 1 4 0x34325258 0 true, .setNative true,
      .draw fun _ => [5, 6, 7, 8], .updateDmabuf 0 0 1 1, .setNative false] rfl, rfl, rfl,
      by decide⟩

end MachineEmu.Display
