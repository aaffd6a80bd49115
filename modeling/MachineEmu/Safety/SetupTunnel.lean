import MachineEmu.Compat.Tunnel
import MachineEmu.Lib.Framing

/-!
# The codec of the setup tunnel

* `frames_delivered` — frames are read as they were written, however the stream is cut.
* `delivers_iff` — no complete frame is lost exactly where the chunk that brings a malformed length
  completes no frame.
* `binme_returns_iff` — a container is read as it was written exactly where its blocks have room.
* `answers_iff` — a container gives what is declared or `TunnelError` exactly where its blocks are
  decompressed and its header is an object.
* `tunnel_codec` — all of this.
-/

namespace MachineEmu.Compat

open Lib List Framing Option

/-! ## Frames -/

/-- A frame at the front of a buffer. Nothing is taken at a length of zero. -/
def frameParse (_ : Unit) (buffer : List UInt8) : Parse Unit (List (List UInt8)) :=
  if buffer.length < 2 then .more
  else if beNat (buffer.take 2) = 0 then .unit 2 () []
  else if beNat (buffer.take 2) < 2 then .bad
  else if buffer.length < beNat (buffer.take 2) then .more
  else .unit (beNat (buffer.take 2)) () [(buffer.take (beNat (buffer.take 2))).drop 2]

/-- The ways a buffer starts. -/
theorem frameParse_cases (buffer : List UInt8) :
    (buffer.length < 2 ∧ frameParse () buffer = .more) ∨
    (2 ≤ buffer.length ∧ beNat (buffer.take 2) = 0 ∧ frameParse () buffer = .unit 2 () []) ∨
    (2 ≤ buffer.length ∧ beNat (buffer.take 2) = 1 ∧ frameParse () buffer = .bad) ∨
    (2 ≤ buffer.length ∧ 2 ≤ beNat (buffer.take 2) ∧ buffer.length < beNat (buffer.take 2) ∧
      frameParse () buffer = .more) ∨
    (2 ≤ beNat (buffer.take 2) ∧ beNat (buffer.take 2) ≤ buffer.length ∧
      frameParse () buffer =
        .unit (beNat (buffer.take 2)) () [(buffer.take (beNat (buffer.take 2))).drop 2]) := by
  unfold frameParse
  by_cases hlength : buffer.length < 2
  · simp [hlength]
  · by_cases hzero : beNat (buffer.take 2) = 0
    · simp only [if_neg hlength, if_pos hzero]
      exact Or.inr (Or.inl ⟨by omega, hzero, trivial⟩)
    · by_cases hshort : beNat (buffer.take 2) < 2
      · simp only [if_neg hlength, if_neg hzero, if_pos hshort]
        exact Or.inr (Or.inr (Or.inl ⟨by omega, by omega, trivial⟩))
      · by_cases hmore : buffer.length < beNat (buffer.take 2)
        · simp only [if_neg hlength, if_neg hzero, if_neg hshort, if_pos hmore]
          exact Or.inr (Or.inr (Or.inr (Or.inl ⟨by omega, by omega, hmore, trivial⟩)))
        · simp only [if_neg hlength, if_neg hzero, if_neg hshort, if_neg hmore]
          exact Or.inr (Or.inr (Or.inr (Or.inr ⟨by omega, by omega, trivial⟩)))

variable {buffer : List UInt8}

theorem take_two_append (h : 2 ≤ buffer.length) (later : List UInt8) :
    (buffer ++ later).take 2 = buffer.take 2 := take_append_of_le_length h

/-- A frame that is there stays, and so does a malformed length. -/
def frames : Framing Unit UInt8 (List (List UInt8)) where
  parse := frameParse
  unit_bound {_ buffer n _ v} h := by
    rcases frameParse_cases buffer with ⟨-, hp⟩ | ⟨hl, -, hp⟩ | ⟨-, -, hp⟩ | ⟨-, -, -, hp⟩ | ⟨h2, hl, hp⟩
    all_goals rw [hp] at h; cases h
    · omega
    · omega
  unit_append {_ buffer n _ v} h later := by
    rcases frameParse_cases buffer with ⟨-, hp⟩ | ⟨hl, hz, hp⟩ | ⟨-, -, hp⟩ | ⟨-, -, -, hp⟩ | ⟨h2, hl, hp⟩
    all_goals rw [hp] at h; cases h
    · have htake := take_two_append hl later
      unfold frameParse
      rw [htake, if_neg (by rw [length_append]; omega), if_pos hz]
    · have hlength : 2 ≤ buffer.length := by omega
      have htake := take_two_append hlength later
      unfold frameParse
      rw [htake, if_neg (by rw [length_append]; omega), if_neg (by omega), if_neg (by omega),
        if_neg (by rw [length_append]; omega), take_append_of_le_length hl]
  bad_append {_ buffer} h later := by
    rcases frameParse_cases buffer with ⟨-, hp⟩ | ⟨hl, hz, hp⟩ | ⟨hl, ho, hp⟩ | ⟨-, -, -, hp⟩ | ⟨h2, hl, hp⟩
    all_goals rw [hp] at h; cases h
    have htake := take_two_append hl later
    unfold frameParse
    rw [htake, if_neg (by rw [length_append]; omega), if_neg (by omega), if_pos (by omega)]
  rest_always {_ buffer} h := by
    rcases frameParse_cases buffer with ⟨-, hp⟩ | ⟨-, -, hp⟩ | ⟨-, -, hp⟩ | ⟨-, -, -, hp⟩ | ⟨-, -, hp⟩
    all_goals rw [hp] at h; cases h

/-- A stream comes to a malformed length. -/
def Malformed (stream : List UInt8) : Prop := frames.drain () stream = none

/-- The frames that are complete in a stream, up to a malformed length. -/
def completeFrames (stream : List UInt8) : List (List UInt8) :=
  if 2 ≤ stream.length then
    if beNat (stream.take 2) = 0 then completeFrames (stream.drop 2)
    else if beNat (stream.take 2) < 2 ∨ stream.length < beNat (stream.take 2) then []
    else (stream.take (beNat (stream.take 2))).drop 2 ::
      completeFrames (stream.drop (beNat (stream.take 2)))
  else []
termination_by stream.length
decreasing_by
  · rw [length_drop]
    omega
  · rw [length_drop]
    omega

/-- The reader goes on behind what is taken from the front. -/
theorem takeFrames_of_unit {n : ℕ} {taken : List (List UInt8)}
    (h : frameParse () buffer = .unit n () taken) (done : List (List UInt8)) :
    takeFrames buffer done = takeFrames (buffer.drop n) (done ++ taken) ∧
      completeFrames buffer = taken ++ completeFrames (buffer.drop n) := by
  rcases frameParse_cases buffer with ⟨-, hp⟩ | ⟨hl, hz, hp⟩ | ⟨-, -, hp⟩ | ⟨-, -, -, hp⟩ | ⟨h2, hl, hp⟩
  all_goals rw [hp] at h; cases h
  · constructor
    · conv_lhs => rw [takeFrames, if_pos hl, if_pos hz]
      rw [append_nil]
    · conv_lhs => rw [completeFrames, if_pos hl, if_pos hz]
      rw [nil_append]
  · constructor
    · conv_lhs => rw [takeFrames, if_pos (by omega), if_neg (by omega), if_neg (by omega),
        if_neg (by omega)]
    · conv_lhs => rw [completeFrames, if_pos (by omega), if_neg (by omega), if_neg (by omega)]
      rw [singleton_append]

theorem takeFrames_of_more (h : frameParse () buffer = .more) (done : List (List UInt8)) :
    takeFrames buffer done = (buffer, .ok done) ∧ completeFrames buffer = [] := by
  rcases frameParse_cases buffer with ⟨hl, hp⟩ | ⟨-, -, hp⟩ | ⟨-, -, hp⟩ | ⟨hl, h2, hm, hp⟩ | ⟨-, -, hp⟩
  all_goals rw [hp] at h; cases h
  · rw [takeFrames, if_neg (by omega), completeFrames, if_neg (by omega)]
    exact ⟨rfl, rfl⟩
  · rw [takeFrames, if_pos hl, if_neg (by omega), if_neg (by omega), if_pos hm, completeFrames,
      if_pos hl, if_neg (by omega), if_pos (by omega)]
    exact ⟨rfl, rfl⟩

theorem takeFrames_of_bad (h : frameParse () buffer = .bad) (done : List (List UInt8)) :
    (∃ message, takeFrames buffer done = (buffer, .error (.tunnel message))) ∧
      completeFrames buffer = [] := by
  rcases frameParse_cases buffer with ⟨-, hp⟩ | ⟨-, -, hp⟩ | ⟨hl, ho, hp⟩ | ⟨-, -, -, hp⟩ | ⟨-, -, hp⟩
  all_goals rw [hp] at h; cases h
  rw [takeFrames, if_pos hl, if_neg (by omega), if_pos (by omega), completeFrames, if_pos hl,
    if_neg (by omega), if_pos (by omega)]
  exact ⟨⟨_, rfl⟩, rfl⟩

theorem frameParse_ne_rest (buffer : List UInt8) : frameParse () buffer ≠ .rest := by
  rcases frameParse_cases buffer with ⟨-, hp⟩ | ⟨-, -, hp⟩ | ⟨-, -, hp⟩ | ⟨-, -, -, hp⟩ | ⟨-, -, hp⟩
  all_goals rw [hp]; nofun

variable {u : Unit}

/-- Without a malformed length the reader drains the buffer. -/
theorem takeFrames_of_drain
    {d : Framing.Drained Unit UInt8 (List (List UInt8))} (h : frames.drain u buffer = some d)
    (done : List (List UInt8)) :
    takeFrames buffer done = (d.rest, .ok (done ++ d.units.flatten)) := by
  induction u, buffer using frames.drain_induction generalizing d done with
  | more _ buffer hmore =>
    rw [drain_of_more hmore] at h
    cases h
    rw [(takeFrames_of_more hmore done).1, flatten_nil, append_nil]
  | bad _ buffer hbad =>
    rw [drain_of_bad hbad] at h
    cases h
  | rest _ buffer hrest => exact absurd hrest (frameParse_ne_rest buffer)
  | unit _ buffer n _ taken hunit ih =>
    rw [drain_of_unit hunit] at h
    obtain ⟨d', hd', rfl⟩ := map_eq_some_iff.1 h
    rw [(takeFrames_of_unit hunit done).1, ih hd']
    simp [Framing.Drained.after]

/-- At a malformed length the reader raises `TunnelError`, and stays there. -/
theorem takeFrames_of_malformed (h : frames.drain u buffer = none) (done : List (List UInt8)) :
    ∃ rest message, takeFrames buffer done = (rest, .error (.tunnel message)) ∧ Malformed rest ∧
      completeFrames rest = [] := by
  induction u, buffer using frames.drain_induction generalizing done with
  | more _ buffer hmore =>
    rw [drain_of_more hmore] at h
    cases h
  | bad _ buffer hbad =>
    obtain ⟨⟨message, hmessage⟩, hnone⟩ := takeFrames_of_bad hbad done
    exact ⟨buffer, message, hmessage, h, hnone⟩
  | rest _ buffer hrest => exact absurd hrest (frameParse_ne_rest buffer)
  | unit _ buffer n _ taken hunit ih =>
    rw [drain_of_unit hunit, map_eq_none_iff] at h
    rw [(takeFrames_of_unit hunit done).1]
    exact ih h _

/-- The complete frames of a stream go on behind what was drained. -/
theorem completeFrames_append
    {d : Framing.Drained Unit UInt8 (List (List UInt8))} (h : frames.drain u buffer = some d)
    (later : List UInt8) :
    completeFrames (buffer ++ later) = d.units.flatten ++ completeFrames (d.rest ++ later) := by
  induction u, buffer using frames.drain_induction generalizing d with
  | more _ buffer hmore =>
    rw [drain_of_more hmore] at h
    cases h
    rfl
  | bad _ buffer hbad =>
    rw [drain_of_bad hbad] at h
    cases h
  | rest _ buffer hrest => exact absurd hrest (frameParse_ne_rest buffer)
  | unit _ buffer n _ taken hunit ih =>
    rw [drain_of_unit hunit] at h
    obtain ⟨d', hd', rfl⟩ := map_eq_some_iff.1 h
    rw [(takeFrames_of_unit (frames.unit_append hunit later) []).2,
      drop_append_of_le_length (frames.unit_bound hunit).2, ih hd']
    simp [Framing.Drained.after]

/-- What is drained has no complete frame. -/
theorem completeFrames_rest
    {d : Framing.Drained Unit UInt8 (List (List UInt8))} (h : frames.drain u buffer = some d) :
    completeFrames d.rest = [] := by
  induction u, buffer using frames.drain_induction generalizing d with
  | more _ buffer hmore =>
    rw [drain_of_more hmore] at h
    cases h
    exact (takeFrames_of_more hmore []).2
  | bad _ buffer hbad =>
    rw [drain_of_bad hbad] at h
    cases h
  | rest _ buffer hrest => exact absurd hrest (frameParse_ne_rest buffer)
  | unit _ buffer n _ taken hunit ih =>
    rw [drain_of_unit hunit] at h
    obtain ⟨d', hd', rfl⟩ := map_eq_some_iff.1 h
    exact ih (d := d') hd'

theorem completeFrames_drained
    {d : Framing.Drained Unit UInt8 (List (List UInt8))} (h : frames.drain u buffer = some d) :
    completeFrames buffer = d.units.flatten := by
  have happend := completeFrames_append h []
  rwa [append_nil, append_nil, completeFrames_rest h, append_nil] at happend

/-- The frames that some calls of `feed` give. -/
def delivered (results : List (Except TunnelFailure (List (List UInt8)))) : List (List UInt8) :=
  results.flatMap fun result => result.toOption.getD []

/-- The chunks of a stream are read without a loss: what is raised is `TunnelError`, and every frame
that is complete before a malformed length is given. -/
structure Delivers (chunks : List (List UInt8)) : Prop where
  raises : ∀ failure, .error failure ∈ FrameReader.init.feedAll chunks →
    ∃ message, failure = .tunnel message
  complete : delivered (FrameReader.init.feedAll chunks) = completeFrames chunks.flatten

/-- The chunk that brings a malformed length completes no frame. -/
def NothingBehind (front : List UInt8) (chunks : List (List UInt8)) : Prop :=
  ∀ earlier chunk later, chunks = earlier ++ chunk :: later →
    ¬Malformed (front ++ earlier.flatten) → Malformed (front ++ (earlier.flatten ++ chunk)) →
      completeFrames (front ++ (earlier.flatten ++ chunk)) = completeFrames (front ++ earlier.flatten)

section Delivery

variable {r : FrameReader} {chunks : List (List UInt8)}

/-- Once a length is malformed every call raises `TunnelError`. -/
theorem feedAll_of_malformed (h : Malformed r.buffer) :
    delivered (r.feedAll chunks) = [] ∧
      ∀ failure, .error failure ∈ r.feedAll chunks → ∃ message, failure = .tunnel message := by
  induction chunks generalizing r with
  | nil => exact ⟨rfl, fun failure hmem => absurd hmem not_mem_nil⟩
  | cons chunk chunks ih =>
    obtain ⟨rest, message, htake, hrest, -⟩ :=
      takeFrames_of_malformed (drain_append_of_none h chunk) []
    have hfeed : r.feed chunk = (⟨rest⟩, .error (.tunnel message)) := by
      rw [FrameReader.feed, htake]
    obtain ⟨hnone, hraises⟩ := @ih ⟨rest⟩ hrest
    rw [FrameReader.feedAll, hfeed]
    refine ⟨hnone, fun failure hmem => ?_⟩
    rcases mem_cons.1 hmem with heq | hmem
    · exact ⟨message, Except.error.inj heq⟩
    · exact hraises failure hmem

/-- A call of `feed` without a malformed length. -/
theorem feed_of_drain {chunk : List UInt8} {d : Framing.Drained Unit UInt8 (List (List UInt8))}
    (h : frames.drain () (r.buffer ++ chunk) = some d) :
    r.feed chunk = (⟨d.rest⟩, .ok d.units.flatten) := by
  rw [FrameReader.feed, takeFrames_of_drain h, nil_append]

/-- Nothing that arrives behind a malformed length is complete. -/
theorem completeFrames_of_malformed (h : frames.drain u buffer = none) (later : List UInt8) :
    completeFrames (buffer ++ later) = completeFrames buffer := by
  induction u, buffer using frames.drain_induction with
  | more _ buffer hmore =>
    rw [drain_of_more hmore] at h
    cases h
  | bad _ buffer hbad =>
    rw [(takeFrames_of_bad hbad []).2, (takeFrames_of_bad (frames.bad_append hbad later) []).2]
  | rest _ buffer hrest => exact absurd hrest (frameParse_ne_rest buffer)
  | unit _ buffer n _ taken hunit ih =>
    rw [drain_of_unit hunit, map_eq_none_iff] at h
    rw [(takeFrames_of_unit (frames.unit_append hunit later) []).2, (takeFrames_of_unit hunit []).2,
      drop_append_of_le_length (frames.unit_bound hunit).2, ih h]

theorem nothingBehind_of_malformed {chunk : List UInt8}
    (hbuffer : frames.drain () r.buffer = some ⟨(), r.buffer, []⟩)
    (h : Malformed (r.buffer ++ chunk)) :
    NothingBehind r.buffer (chunk :: chunks) ↔ completeFrames (r.buffer ++ chunk) = [] := by
  have hnone : completeFrames r.buffer = [] := completeFrames_drained hbuffer
  constructor
  · intro hbehind
    have hfirst := hbehind [] chunk chunks rfl
    rw [flatten_nil, append_nil, nil_append] at hfirst
    rw [hfirst (fun hm => by rw [Malformed, hbuffer] at hm; cases hm) h, hnone]
  · intro hcomplete earlier chunk' later hchunks hbefore
    cases earlier with
    | nil =>
      obtain ⟨rfl, rfl⟩ := List.cons.inj hchunks
      intro _
      rw [flatten_nil, nil_append, append_nil, hcomplete, hnone]
    | cons first earlier =>
      obtain ⟨rfl, rfl⟩ := List.cons.inj hchunks
      refine absurd ?_ hbefore
      rw [flatten_cons, ← append_assoc]
      exact drain_append_of_none h _

theorem nothingBehind_of_drain {chunk : List UInt8}
    {d : Framing.Drained Unit UInt8 (List (List UInt8))}
    (h : frames.drain () (r.buffer ++ chunk) = some d) :
    NothingBehind r.buffer (chunk :: chunks) ↔ NothingBehind d.rest chunks := by
  have hmalformed (later : List UInt8) :
      Malformed (r.buffer ++ (chunk ++ later)) ↔ Malformed (d.rest ++ later) := by
    rw [Malformed, ← append_assoc, drain_append h, map_eq_none_iff]
    rfl
  have hcomplete (later : List UInt8) : completeFrames (r.buffer ++ (chunk ++ later)) =
      d.units.flatten ++ completeFrames (d.rest ++ later) := by
    rw [← append_assoc, completeFrames_append h]
  constructor
  · intro hbehind earlier chunk' later hchunks hbefore hafter
    have hstep := hbehind (chunk :: earlier) chunk' later (by rw [hchunks]; rfl)
    rw [flatten_cons, append_assoc, hmalformed, hmalformed, hcomplete, hcomplete] at hstep
    exact append_cancel_left (hstep hbefore hafter)
  · intro hbehind earlier chunk' later hchunks hbefore hafter
    cases earlier with
    | nil =>
      obtain ⟨rfl, rfl⟩ := List.cons.inj hchunks
      rw [flatten_nil, nil_append, Malformed, h] at hafter
      cases hafter
    | cons first earlier =>
      obtain ⟨rfl, rfl⟩ := List.cons.inj hchunks
      rw [flatten_cons, append_assoc, hmalformed] at hafter
      rw [flatten_cons, hmalformed] at hbefore
      rw [flatten_cons, append_assoc, hcomplete, hcomplete,
        hbehind earlier chunk' later rfl hbefore hafter]

/-- What a reader with a drained buffer gives for some chunks. -/
theorem delivered_feedAll (hbuffer : frames.drain () r.buffer = some ⟨(), r.buffer, []⟩) :
    (∀ failure, .error failure ∈ r.feedAll chunks → ∃ message, failure = .tunnel message) ∧
      (delivered (r.feedAll chunks) = completeFrames (r.buffer ++ chunks.flatten) ↔
        NothingBehind r.buffer chunks) := by
  induction chunks generalizing r with
  | nil =>
    refine ⟨fun failure hmem => absurd hmem not_mem_nil, iff_of_true ?_ ?_⟩
    · rw [flatten_nil, append_nil, completeFrames_drained hbuffer]
      rfl
    · intro earlier chunk later hchunks
      cases earlier <;> cases hchunks
  | cons chunk chunks ih =>
    cases hdrain : frames.drain () (r.buffer ++ chunk) with
    | none =>
      obtain ⟨rest, message, htake, hrest, -⟩ := takeFrames_of_malformed hdrain []
      have hfeed : r.feed chunk = (⟨rest⟩, .error (.tunnel message)) := by
        rw [FrameReader.feed, htake]
      obtain ⟨hnone, hraises⟩ := @feedAll_of_malformed ⟨rest⟩ chunks hrest
      rw [FrameReader.feedAll, hfeed, nothingBehind_of_malformed hbuffer hdrain, flatten_cons,
        ← append_assoc, completeFrames_of_malformed hdrain]
      refine ⟨fun failure hmem => ?_, ?_⟩
      · rcases mem_cons.1 hmem with heq | hmem
        · exact ⟨message, Except.error.inj heq⟩
        · exact hraises failure hmem
      · rw [delivered, flatMap_cons, ← delivered, hnone]
        exact eq_comm
    | some d =>
      obtain ⟨hraises, hiff⟩ := @ih ⟨d.rest⟩ (drain_drained hdrain)
      rw [FrameReader.feedAll, feed_of_drain hdrain, nothingBehind_of_drain hdrain, ← hiff,
        flatten_cons, ← append_assoc, completeFrames_append hdrain]
      refine ⟨fun failure hmem => ?_, ?_⟩
      · rcases mem_cons.1 hmem with heq | hmem
        · cases heq
        · exact hraises failure hmem
      · rw [delivered, flatMap_cons, ← delivered]
        exact append_right_inj _

/-- No complete frame is lost exactly where the chunk that brings a malformed length completes no
frame. -/
theorem delivers_iff (chunks : List (List UInt8)) : Delivers chunks ↔ NothingBehind [] chunks := by
  have hall := @delivered_feedAll FrameReader.init chunks (drain_of_more rfl)
  constructor
  · exact fun h => hall.2.1 h.complete
  · exact fun h => ⟨hall.1, hall.2.2 h⟩

end Delivery

/-! ### What is written -/

/-- A frame is at the front of a stream that starts with it. -/
theorem frameParse_frame {payload framed : List UInt8} (h : frame payload = .ok framed)
    (later : List UInt8) :
    frameParse () (framed ++ later) = .unit framed.length () [payload] ∧
      framed.length = payload.length + 2 := by
  unfold frame at h
  split at h
  · cases h
  · next hroom =>
    obtain rfl := Except.ok.inj h
    have hlength : (beBytes 2 (payload.length + 2) ++ payload).length = payload.length + 2 := by
      rw [length_append, length_beBytes, Nat.add_comm]
    have hnumber : beNat ((beBytes 2 (payload.length + 2) ++ payload ++ later).take 2) =
        payload.length + 2 := by
      rw [append_assoc, take_append_of_le_length (by rw [length_beBytes]),
        take_of_length_le (by rw [length_beBytes]), beNat_beBytes]
      apply Nat.mod_eq_of_lt
      unfold maxFrame at hroom
      omega
    have htotal : (beBytes 2 (payload.length + 2) ++ payload ++ later).length =
        payload.length + 2 + later.length := by
      rw [length_append, hlength]
    refine ⟨?_, hlength⟩
    unfold frameParse
    rw [hnumber, if_neg (by omega), if_neg (by omega), if_neg (by omega), if_neg (by omega), hlength,
      take_append_of_le_length (by omega), take_of_length_le (by omega),
      drop_append_of_le_length (by rw [length_beBytes]),
      drop_eq_nil_of_le (by rw [length_beBytes]), nil_append]

/-- The frames of some payloads are drained to the payloads. -/
theorem drain_frames {payloads framed : List (List UInt8)}
    (h : List.Forall₂ (fun payload framed => frame payload = .ok framed) payloads framed) :
    ∃ units, frames.drain () framed.flatten = some ⟨(), [], units⟩ ∧ units.flatten = payloads := by
  induction h with
  | nil => exact ⟨[], drain_of_more rfl, rfl⟩
  | @cons payload first payloads framed hfirst _ ih =>
    obtain ⟨units, hdrain, hunits⟩ := ih
    refine ⟨[payload] :: units, ?_, by rw [flatten_cons, hunits]; rfl⟩
    rw [flatten_cons, drain_of_unit (frameParse_frame hfirst _).1, drop_left, hdrain]
    rfl

/-- Chunks without a malformed length are all read. -/
theorem feedAll_of_drainChunks {r : FrameReader} {chunks : List (List UInt8)}
    {d : Framing.Drained Unit UInt8 (List (List UInt8))}
    (h : frames.drainChunks () r.buffer chunks = some d) :
    ∃ parts : List (List (List UInt8)), r.feedAll chunks = parts.map Except.ok ∧ parts.flatten = d.units.flatten := by
  induction chunks generalizing r d with
  | nil =>
    cases h
    exact ⟨[], rfl, rfl⟩
  | cons chunk chunks ih =>
    rw [Framing.drainChunks, bind_eq_some_iff] at h
    obtain ⟨d', hd', h⟩ := h
    obtain ⟨d'', hd'', rfl⟩ := map_eq_some_iff.1 h
    obtain ⟨parts, hparts, hflatten⟩ := @ih ⟨d'.rest⟩ d'' hd''
    refine ⟨d'.units.flatten :: parts, ?_, ?_⟩
    · rw [FrameReader.feedAll, feed_of_drain hd', hparts, map_cons]
    · rw [flatten_cons, hflatten, Framing.Drained.after, flatten_append]

/-- Frames are read as they were written, however the stream is cut. -/
theorem frames_delivered {payloads framed chunks : List (List UInt8)}
    (h : List.Forall₂ (fun payload framed => frame payload = .ok framed) payloads framed)
    (hcut : chunks.flatten = framed.flatten) :
    ∃ parts : List (List (List UInt8)),
      FrameReader.init.feedAll chunks = parts.map Except.ok ∧ parts.flatten = payloads := by
  obtain ⟨units, hdrain, hunits⟩ := drain_frames h
  have hchunks := @drainChunks_eq _ _ _ frames () [] chunks (drain_of_more rfl)
  rw [nil_append, hcut, hdrain] at hchunks
  obtain ⟨parts, hparts, hflatten⟩ := @feedAll_of_drainChunks FrameReader.init chunks _ hchunks
  exact ⟨parts, hparts, by rw [hflatten, hunits]⟩

/-! ## Containers -/

section Containers

variable {Header : Type} (C : Codecs Header)

/-- A block of a message as it stands there. -/
structure RawBlock where
  kind : UInt8
  encoding : UInt8
  compression : UInt8
  payload : List UInt8
  room : payload.length < 2 ^ 32

def RawBlock.bytes (b : RawBlock) : List UInt8 :=
  [b.kind, b.encoding, b.compression, 0] ++ beBytes 4 b.payload.length ++ b.payload

/-- What is read of a block. -/
def Reads (b : RawBlock) (read : Block) : Prop :=
  read.kind = b.kind ∧ read.encoding = b.encoding ∧
    blockData C b.compression b.payload = .ok read.data

/-- Some blocks stand at the front of a message. -/
def messageOf (raws : List RawBlock) : List UInt8 := raws.flatMap RawBlock.bytes

variable {C}

/-- A block at the front of what is left is read. -/
theorem parseBlocks_raw (b : RawBlock) (rest : List UInt8) (blocks : List Block) :
    parseBlocks C (b.bytes ++ rest) blocks =
      match blockData C b.compression b.payload with
      | .error failure => .error failure
      | .ok data => parseBlocks C rest (blocks ++ [⟨b.kind, b.encoding, data⟩]) := by
  have hbytes : b.bytes ++ rest = b.kind :: b.encoding :: b.compression :: 0 ::
      UInt8.ofNat (b.payload.length / 256 ^ 3) :: UInt8.ofNat (b.payload.length / 256 ^ 2) ::
      UInt8.ofNat (b.payload.length / 256 ^ 1) :: UInt8.ofNat (b.payload.length / 256 ^ 0) ::
      (b.payload ++ rest) := by
    simp [RawBlock.bytes, beBytes]
  have hlength : beNat [UInt8.ofNat (b.payload.length / 256 ^ 3),
      UInt8.ofNat (b.payload.length / 256 ^ 2), UInt8.ofNat (b.payload.length / 256 ^ 1),
      UInt8.ofNat (b.payload.length / 256 ^ 0)] = b.payload.length := by
    refine (beNat_beBytes 4 b.payload.length).trans (Nat.mod_eq_of_lt ?_)
    have hroom := b.room
    omega
  have hplain : ¬((0 : UInt8) ≠ 0 ∨ (b.payload ++ rest).length < b.payload.length) := by
    rw [length_append]
    simp
  cases hdata : blockData C b.compression b.payload <;>
    rw [hbytes, parseBlocks, hlength, if_neg hplain, take_left, drop_left, hdata]

theorem blockData_eq_error {compression : UInt8} {data : List UInt8} {failure : TunnelFailure}
    (h : blockData C compression data = .error failure) :
    (compression = compressionEnabled ∧ C.decompress data = none ∧ failure = .zlib) ∨
      ∃ text, failure = .tunnel text := by
  unfold blockData at h
  split at h
  · next henabled =>
    cases hdata : C.decompress data with
    | none =>
      simp only [hdata] at h
      exact Or.inl ⟨henabled, rfl, (Except.error.inj h).symm⟩
    | some plain =>
      simp only [hdata] at h
      cases h
  · split at h
    · exact Or.inr ⟨_, (Except.error.inj h).symm⟩
    · cases h

/-- The blocks at the front of a message are read. -/
theorem parseBlocks_message {raws : List RawBlock} {read : List Block}
    (h : List.Forall₂ (Reads C) raws read) (rest : List UInt8) (blocks : List Block) :
    parseBlocks C (messageOf raws ++ rest) blocks = parseBlocks C rest (blocks ++ read) := by
  induction h generalizing blocks with
  | nil => rw [messageOf, flatMap_nil, nil_append, append_nil]
  | @cons b first raws read hfirst _ ih =>
    obtain ⟨hkind, hencoding, hdata⟩ := hfirst
    rw [messageOf, flatMap_cons, append_assoc, parseBlocks_raw, hdata, ← hkind, ← hencoding]
    exact (ih _).trans (by rw [append_assoc, singleton_append])

theorem beNat_four_lt (a b c d : UInt8) : beNat [a, b, c, d] < 2 ^ 32 := by
  have hlt := beNat_lt [a, b, c, d]
  simp only [length_cons, length_nil] at hlt
  omega

/-- A block with room for its data stands at the front. -/
theorem exists_rawBlock {kind encoding compression reserved a b c d : UInt8} {body : List UInt8}
    (h : ¬(reserved ≠ 0 ∨ body.length < beNat [a, b, c, d])) :
    ∃ raw : RawBlock, raw.kind = kind ∧ raw.encoding = encoding ∧ raw.compression = compression ∧
      raw.payload = body.take (beNat [a, b, c, d]) ∧
      kind :: encoding :: compression :: reserved :: a :: b :: c :: d :: body =
        raw.bytes ++ body.drop (beNat [a, b, c, d]) := by
  rw [not_or, not_not, Nat.not_lt] at h
  have hlength : (body.take (beNat [a, b, c, d])).length = beNat [a, b, c, d] :=
    length_take_of_le h.2
  have hroom : (body.take (beNat [a, b, c, d])).length < 2 ^ 32 :=
    Nat.lt_of_le_of_lt (length_take_le _ _) (beNat_four_lt a b c d)
  refine ⟨⟨kind, encoding, compression, body.take (beNat [a, b, c, d]), hroom⟩, rfl, rfl, rfl, rfl,
    ?_⟩
  have hnumber : beBytes 4 (body.take (beNat [a, b, c, d])).length = [a, b, c, d] := by
    rw [hlength]
    exact beBytes_beNat [a, b, c, d]
  show _ = [kind, encoding, compression, 0] ++ beBytes 4 (body.take (beNat [a, b, c, d])).length ++
    body.take (beNat [a, b, c, d]) ++ body.drop (beNat [a, b, c, d])
  rw [hnumber, h.1, append_assoc, take_append_drop]
  rfl

/-- How the blocks of a message are read: to the end, up to a block that is marked as compressed and
is not, or up to something that is no block. -/
theorem parseBlocks_cases (message : List UInt8) (blocks : List Block) :
    (∃ raws read, message = messageOf raws ∧ List.Forall₂ (Reads C) raws read ∧
      parseBlocks C message blocks = .ok (blocks ++ read)) ∨
    (∃ raws read b rest, message = messageOf raws ++ (RawBlock.bytes b ++ rest) ∧
      List.Forall₂ (Reads C) raws read ∧ b.compression = compressionEnabled ∧
      C.decompress b.payload = none) ∨
    ∃ text, parseBlocks C message blocks = .error (.tunnel text) := by
  induction message, blocks using parseBlocks.induct C with
  | case1 blocks =>
    left
    exact ⟨[], [], rfl, .nil, by rw [parseBlocks, append_nil]⟩
  | case2 blocks kind encoding compression reserved a b c d body hbad =>
    right; right
    exact ⟨_, by rw [parseBlocks, if_pos hbad]⟩
  | case3 blocks kind encoding compression reserved a b c d body hgood failure hdata =>
    obtain ⟨raw, -, -, hcompression, hpayload, hbytes⟩ :=
      @exists_rawBlock kind encoding compression reserved a b c d body hgood
    right
    rcases blockData_eq_error hdata with ⟨henabled, hnone, -⟩ | ⟨text, rfl⟩
    · left
      refine ⟨[], [], raw, body.drop (beNat [a, b, c, d]), ?_, .nil, hcompression.trans henabled,
        by rw [hpayload, hnone]⟩
      rw [hbytes, messageOf, flatMap_nil, nil_append]
    · right
      exact ⟨text, by rw [parseBlocks, if_neg hgood, hdata]⟩
  | case4 blocks kind encoding compression reserved a b c d body hgood data hdata ih =>
    obtain ⟨raw, hkind, hencoding, hcompression, hpayload, hbytes⟩ :=
      @exists_rawBlock kind encoding compression reserved a b c d body hgood
    have hraw : Reads C raw ⟨kind, encoding, data⟩ :=
      ⟨hkind.symm, hencoding.symm, by rw [hcompression, hpayload, hdata]⟩
    have hstep : parseBlocks C
        (kind :: encoding :: compression :: reserved :: a :: b :: c :: d :: body) blocks =
        parseBlocks C (body.drop (beNat [a, b, c, d])) (blocks ++ [⟨kind, encoding, data⟩]) := by
      rw [parseBlocks, if_neg hgood, hdata]
    rcases ih with ⟨raws, read, hrest, hreads, hok⟩ |
      ⟨raws, read, last, rest, hrest, hreads, henabled, hnone⟩ | ⟨text, herror⟩
    · left
      refine ⟨raw :: raws, ⟨kind, encoding, data⟩ :: read, ?_, .cons hraw hreads, ?_⟩
      · rw [hbytes, hrest, messageOf, messageOf, flatMap_cons]
      · rw [hstep, hok, append_assoc, singleton_append]
    · right; left
      refine ⟨raw :: raws, ⟨kind, encoding, data⟩ :: read, last, rest, ?_, .cons hraw hreads,
        henabled, hnone⟩
      rw [hbytes, hrest, messageOf, messageOf, flatMap_cons, append_assoc]
    · right; right
      exact ⟨text, by rw [hstep, herror]⟩
  | case5 blocks message hnil hlong =>
    right; right
    refine ⟨"truncated Binme block header", ?_⟩
    rw [parseBlocks]
    · exact hnil
    · exact hlong

/-! ### What is declared -/

/-- What is declared: an object and bytes, or `TunnelError`. -/
def Answers (C : Codecs Header) (message : List UInt8) : Prop :=
  (∃ header body, parseBinme C message = .ok (.object header, body)) ∨
    ∃ text, parseBinme C message = .error (.tunnel text)

/-- No block that is come to is marked as compressed and is not, and the header of a message is an
object unless it is no JSON. -/
structure Decodable (C : Codecs Header) (message : List UInt8) : Prop where
  compressed : ∀ raws read b rest, message = messageOf raws ++ (RawBlock.bytes b ++ rest) →
    List.Forall₂ (Reads C) raws read → b.compression = compressionEnabled →
      (C.decompress b.payload).isSome
  header : ∀ raws first second read, message = messageOf raws →
    List.Forall₂ (Reads C) raws (first :: second :: read) → first.kind = headerBlock →
      second.kind = bodyBlock →
        (∃ header, C.loads (if first.data = [] then [123, 125] else first.data) = .object header) ∨
          ∃ text, C.loads (if first.data = [] then [123, 125] else first.data) = .invalid text

theorem parseBinme_of_blocks {message : List UInt8} {first second : Block} {read : List Block}
    (h : parseBlocks C message [] = .ok (first :: second :: read)) (hfirst : first.kind = headerBlock)
    (hsecond : second.kind = bodyBlock) :
    parseBinme C message =
      match parseHeader C first.data with
      | .error failure => .error failure
      | .ok header => .ok (header, second.data) := by
  simp only [parseBinme, h]
  cases parseHeader C first.data <;> rw [if_neg (not_not.2 hfirst), if_neg (not_not.2 hsecond)]

/-- The blocks of a message are checked with `TunnelError`. -/
theorem answers_of_blocks {message : List UInt8} {read : List Block}
    (h : parseBlocks C message [] = .ok read)
    (hheader : ∀ first second more, read = first :: second :: more → first.kind = headerBlock →
      second.kind = bodyBlock →
        (∃ header, C.loads (if first.data = [] then [123, 125] else first.data) = .object header) ∨
          ∃ text, C.loads (if first.data = [] then [123, 125] else first.data) = .invalid text) :
    Answers C message := by
  cases read with
  | nil => exact Or.inr ⟨"a Binme message must start with a header block", by simp [parseBinme, h]⟩
  | cons first more =>
    by_cases hfirst : first.kind = headerBlock
    · cases more with
      | nil =>
        exact Or.inr ⟨"a Binme message must carry a body block", by simp [parseBinme, h, hfirst]⟩
      | cons second more =>
        by_cases hsecond : second.kind = bodyBlock
        · rw [Answers, parseBinme_of_blocks h hfirst hsecond, parseHeader]
          rcases hheader first second more rfl hfirst hsecond with ⟨header, hloads⟩ | ⟨text, hloads⟩
          · exact Or.inl ⟨header, second.data, by simp only [hloads]⟩
          · exact Or.inr ⟨"invalid Binme header: " ++ text, by simp only [hloads]⟩
        · exact Or.inr ⟨"a Binme message must carry a body block",
            by simp [parseBinme, h, hfirst, hsecond]⟩
    · exact Or.inr ⟨"a Binme message must start with a header block",
        by simp [parseBinme, h, hfirst]⟩

/-- A container gives what is declared exactly where its blocks are decompressed and its header is an
object. -/
theorem answers_iff (message : List UInt8) : Answers C message ↔ Decodable C message := by
  constructor
  · intro h
    constructor
    · intro raws read b rest hmessage hreads henabled
      by_contra hnone
      have hdecompress : C.decompress b.payload = none := by simpa using hnone
      have hparse : parseBlocks C message [] = .error .zlib := by
        rw [hmessage, parseBlocks_message hreads, parseBlocks_raw, blockData, if_pos henabled,
          hdecompress]
      rcases h with ⟨header, body, hok⟩ | ⟨text, herror⟩
      · simp [parseBinme, hparse] at hok
      · simp [parseBinme, hparse] at herror
    · intro raws first second read hmessage hreads hfirst hsecond
      have hparse : parseBlocks C message [] = .ok (first :: second :: read) := by
        have hall := @parseBlocks_message _ C _ _ hreads [] []
        rw [append_nil] at hall
        rw [hmessage, hall, parseBlocks, nil_append]
      have hbinme := parseBinme_of_blocks hparse hfirst hsecond
      unfold parseHeader at hbinme
      cases hloads : C.loads (if first.data = [] then [123, 125] else first.data) with
      | object header => exact Or.inl ⟨header, rfl⟩
      | invalid text => exact Or.inr ⟨text, rfl⟩
      | other =>
        simp only [hloads] at hbinme
        rcases h with ⟨header, body, hok⟩ | ⟨text, herror⟩
        · cases hbinme.symm.trans hok
        · cases hbinme.symm.trans herror
      | deep =>
        simp only [hloads] at hbinme
        rcases h with ⟨header, body, hok⟩ | ⟨text, herror⟩
        · cases hbinme.symm.trans hok
        · cases hbinme.symm.trans herror
  · intro h
    rcases @parseBlocks_cases _ C message [] with
      ⟨raws, read, hmessage, hreads, hok⟩ | ⟨raws, read, b, rest, hmessage, hreads, henabled, hnone⟩ |
        ⟨text, herror⟩
    · rw [nil_append] at hok
      exact answers_of_blocks hok fun first second more hread hfirst hsecond =>
        h.header raws first second more hmessage (hread ▸ hreads) hfirst hsecond
    · have hsome := h.compressed raws read b rest hmessage hreads henabled
      rw [hnone] at hsome
      cases hsome
    · exact Or.inr ⟨text, by simp only [parseBinme, herror]⟩

/-! ### What is written -/

/-- A container is written and read again. -/
def Returns (C : Codecs Header) (header : Header) (body : List UInt8) (encoding : UInt8)
    (compress : Bool) : Prop :=
  ∃ message, binme C header body encoding compress = .ok message ∧
    parseBinme C message = .ok (.object header, body)

/-- A block whose data has room is written as it is read. -/
theorem block_eq {compress : Bool} {data : List UInt8} (kind encoding : UInt8)
    (h : (stored C compress data).length < 2 ^ 32) :
    ∃ raw : RawBlock, block C compress kind encoding data = .ok raw.bytes ∧
      Reads C raw ⟨kind, encoding, data⟩ := by
  refine ⟨⟨kind, encoding, if compress then compressionEnabled else compressionDisabled,
    stored C compress data, h⟩, by rw [block, if_pos h]; rfl, rfl, rfl, ?_⟩
  cases compress with
  | false => rfl
  | true =>
    simp only [blockData, stored, if_true, C.decompress_compress]

/-- A container is read as it was written exactly where its blocks have room. -/
theorem returns_iff (header : Header) (body : List UInt8) (encoding : UInt8) (compress : Bool) :
    Returns C header body encoding compress ↔
      (stored C compress (C.dumps header)).length < 2 ^ 32 ∧
        (stored C compress body).length < 2 ^ 32 := by
  constructor
  · rintro ⟨message, hwrite, -⟩
    unfold binme block at hwrite
    by_cases hfirst : (stored C compress (C.dumps header)).length < 2 ^ 32
    · by_cases hsecond : (stored C compress body).length < 2 ^ 32
      · exact ⟨hfirst, hsecond⟩
      · simp only [if_pos hfirst, if_neg hsecond] at hwrite
        cases hwrite
    · simp only [if_neg hfirst] at hwrite
      cases hwrite
  · rintro ⟨hfirst, hsecond⟩
    obtain ⟨first, hfirst, hreads⟩ := block_eq headerBlock encodingJson hfirst
    obtain ⟨second, hsecond, hreads'⟩ := block_eq bodyBlock encoding hsecond
    refine ⟨first.bytes ++ second.bytes, by rw [binme, hfirst, hsecond], ?_⟩
    have hall := @parseBlocks_message _ C [first, second] _ (.cons hreads (.cons hreads' .nil)) [] []
    have hparse : parseBlocks C (first.bytes ++ second.bytes) [] =
        .ok [⟨headerBlock, encodingJson, C.dumps header⟩, ⟨bodyBlock, encoding, body⟩] := by
      rw [parseBlocks, nil_append, append_nil, messageOf, flatMap_cons,
        flatMap_cons, flatMap_nil, append_nil] at hall
      exact hall
    rw [parseBinme_of_blocks hparse rfl rfl, parseHeader, if_neg (C.dumps_ne_nil header),
      C.loads_dumps]

end Containers

/-! ## The codec -/

/-- A packet gives what is declared, or `TunnelError`. -/
def Opens (packet : List UInt8) : Prop :=
  (∃ parsed, parseEnvelope packet = .ok parsed) ∨ ∃ text, parseEnvelope packet = .error (.tunnel text)

theorem opens (packet : List UInt8) : Opens packet := by
  unfold Opens parseEnvelope
  split
  · exact Or.inr ⟨_, rfl⟩
  · split
    · exact Or.inr ⟨_, rfl⟩
    · split
      · exact Or.inr ⟨_, rfl⟩
      · exact Or.inl ⟨_, rfl⟩

/-- Frames that are written are read, however their stream is cut. -/
def FramesReturn : Prop :=
  ∀ payloads framed chunks : List (List UInt8),
    List.Forall₂ (fun payload framed => frame payload = .ok framed) payloads framed →
      chunks.flatten = framed.flatten →
        ∃ parts : List (List (List UInt8)),
          FrameReader.init.feedAll chunks = parts.map Except.ok ∧ parts.flatten = payloads

/-- Frames are read as they were written, and packets are opened. Containers are read as they were
written where they have room, and give what is declared where they can be decoded. No frame is lost
where the chunk that brings a malformed length completes none. -/
theorem tunnel_codec {Header : Type} (C : Codecs Header) :
    FramesReturn ∧ (∀ packet, Opens packet) ∧
      (∀ header body encoding compress, Returns C header body encoding compress ↔
        (stored C compress (C.dumps header)).length < 2 ^ 32 ∧
          (stored C compress body).length < 2 ^ 32) ∧
      (∀ message, Answers C message ↔ Decodable C message) ∧
      ∀ chunks, Delivers chunks ↔ NothingBehind [] chunks :=
  ⟨fun _ _ _ hframes hcut => frames_delivered hframes hcut, opens, returns_iff, answers_iff,
    delivers_iff⟩

/-- Codecs for the empty object. What is no such text is another value or no JSON, and what is
compressed is marked with a first byte of zlib. -/
def emptyObject : Codecs Unit where
  dumps _ := [123, 125]
  loads text := if text = [123, 125] then .object ()
    else if text = [91, 93] then .other else .invalid "Expecting value"
  compress data := 120 :: data
  decompress data :=
    match data with
    | 120 :: data => some data
    | _ => none
  loads_dumps _ := rfl
  dumps_ne_nil _ := by decide
  decompress_compress _ := rfl

/-- A block that is marked as compressed and is not, a header that is a list, and a frame before a
malformed length in one chunk. -/
theorem not_tunnel_codec :
    ¬(FramesReturn ∧ (∀ packet, Opens packet) ∧
      (∀ header body encoding compress, Returns emptyObject header body encoding compress) ∧
      (∀ message, Answers emptyObject message) ∧ ∀ chunks, Delivers chunks) ∧
    ¬Answers emptyObject [1, 1, 1, 0, 0, 0, 0, 1, 0] ∧
    ¬Answers emptyObject [1, 1, 0, 0, 0, 0, 0, 2, 91, 93, 2, 1, 0, 0, 0, 0, 0, 0] ∧
    ¬Delivers [[0, 2, 0, 1]] := by
  have hcompressed : ¬Answers emptyObject [1, 1, 1, 0, 0, 0, 0, 1, 0] := by
    have hparse : parseBinme emptyObject [1, 1, 1, 0, 0, 0, 0, 1, 0] = .error .zlib := by
      decide +kernel
    rintro (⟨header, body, hok⟩ | ⟨text, herror⟩)
    · cases hparse.symm.trans hok
    · cases hparse.symm.trans herror
  have hlist : ¬Answers emptyObject [1, 1, 0, 0, 0, 0, 0, 2, 91, 93, 2, 1, 0, 0, 0, 0, 0, 0] := by
    have hparse : parseBinme emptyObject
        [1, 1, 0, 0, 0, 0, 0, 2, 91, 93, 2, 1, 0, 0, 0, 0, 0, 0] = .ok (.other, []) := by
      decide +kernel
    rintro (⟨header, body, hok⟩ | ⟨text, herror⟩)
    · cases hparse.symm.trans hok
    · cases hparse.symm.trans herror
  have hlost : ¬Delivers [[0, 2, 0, 1]] := by
    intro h
    have hresults : delivered (FrameReader.init.feedAll [[0, 2, 0, 1]]) = [] := by decide +kernel
    have hcomplete : completeFrames [[0, 2, 0, 1]].flatten = [[]] := by decide +kernel
    cases (hresults.symm.trans h.complete).trans hcomplete
  exact ⟨fun h => hlost (h.2.2.2.2 _), hcompressed, hlist, hlost⟩

end MachineEmu.Compat
