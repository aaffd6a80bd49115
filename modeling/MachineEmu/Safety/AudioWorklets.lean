import MachineEmu.Web.Worklets
import Mathlib.Algebra.BigOperators.Group.List.Basic

/-!
# What the audio worklets play and record

* `Plays` — a queue of samples with a limit: what is pushed to it, what is heard, what waits.
* `Queued` — the counters of the playback processor say what it holds.
* `queues_of_run` — any run of both processors.
-/

namespace MachineEmu.Web

open Lib

variable {α : Type} {channels : ℕ}

/-! ## Statements -/

/-- The samples that were pushed, what was heard, with the silence, and the rests of the chunks that
wait. -/
inductive Plays {β : Type} (limit : ℕ) : List β → List (Option β) → List (List β) → Prop
  | start : Plays limit [] [] []
  | push {pushed heard waiting} (chunk : List β) (h : Plays limit pushed heard waiting) :
      Plays limit (pushed ++ chunk) heard (waiting ++ [chunk])
  /-- The rest of the oldest chunk is dropped when too much waits behind it. -/
  | drop {pushed heard rest chunk waiting} (h : Plays limit pushed heard (rest :: chunk :: waiting))
      (hover : limit < (rest :: chunk :: waiting).flatten.length) :
      Plays limit pushed heard (chunk :: waiting)
  | play {pushed heard waiting} (now later : List β)
      (h : Plays limit pushed heard ((now ++ later) :: waiting)) :
      Plays limit pushed (heard ++ now.map some) (later :: waiting)
  | next {pushed heard waiting} (h : Plays limit pushed heard ([] :: waiting)) :
      Plays limit pushed heard waiting
  | silence {pushed heard} (n : ℕ) (h : Plays limit pushed heard []) :
      Plays limit pushed (heard ++ List.replicate n none) []

/-- What waits in a queue for a channel. -/
def waiting (channel offset : ℕ) : List (Planes α) → List (List α)
  | [] => []
  | planes :: rest => (planes.channel channel).drop offset :: rest.map (·.channel channel)

/-- All frames of a queue. -/
def total (queue : List (Planes α)) : ℕ := (queue.map Planes.frames).sum

/-- The playback processor, the chunks pushed since the last reset and what it put out since. -/
structure Playing (α : Type) (channels : ℕ) where
  processor : SpicePlaybackProcessor α
  pushed : List (Planes α) := []
  output : Fin channels → List α := fun _ => []

inductive PlaybackOp (α : Type) (channels : ℕ) where
  | message (message : PlaybackMessage α)
  | process {frames : ℕ} (output : Fin channels → Vector α frames)

def Playing.step [Zero α] (sampleRate : ℕ) (w : Playing α channels) :
    PlaybackOp α channels → Playing α channels
  | .message .reset => { processor := w.processor.receive .reset }
  | .message (.planes planes) =>
    { w with
      processor := w.processor.receive (.planes planes)
      pushed := w.pushed ++ [planes] }
  | .process output =>
    let (processor, block, _) := w.processor.process sampleRate output
    { w with processor, output := fun channel => w.output channel ++ block channel }

/-- Every channel plays what was pushed, and has nothing but zeros where it is silent. -/
def PlaysPushed [Zero α] (limit : ℕ) (w : Playing α channels) : Prop :=
  ∀ channel : Fin channels, ∃ heard,
    Plays limit (w.pushed.flatMap fun planes => planes.channel channel) heard
      (waiting channel w.processor.offset w.processor.queue) ∧
    w.output channel = heard.map (·.getD 0)

/-- The counters say what is in the queue, which is not over the limit but with a single chunk, and
the pushed samples are played. -/
structure PlaysQueue [Zero α] (limit : ℕ) (w : Playing α channels) : Prop where
  queued : w.processor.queued = total w.processor.queue - w.processor.offset
  offset : w.processor.offset ≤ total w.processor.queue
  bounded : w.processor.queued ≤ limit ∨
    ∃ chunk, w.processor.queue = [chunk] ∧ limit < chunk.frames
  plays : PlaysPushed limit w

/-- The record processor, what it posted and what it captured. -/
structure Recording (α : Type) (channels frameSize : ℕ) where
  processor : SpiceRecordProcessor α channels frameSize
  posted : List (Fin channels → List α) := []
  captured : Fin channels → List α := fun _ => []

inductive RecordOp (α : Type) where
  | stop
  | process (input : Option (Planes α))

def Recording.step [Zero α] {frameSize : ℕ} (w : Recording α channels frameSize) :
    RecordOp α → Recording α channels frameSize
  | .stop => { w with processor := w.processor.stop }
  | .process input =>
    let (processor, posted) := w.processor.process input
    { processor
      posted := w.posted ++ posted
      captured := fun channel => w.captured channel ++
        if w.processor.active then (input.map fun input => input.channel channel).getD [] else [] }

/-- The posted frames and the partial one are what was captured. -/
def PostsCaptured {frameSize : ℕ} (w : Recording α channels frameSize) : Prop :=
  ∀ channel, (w.posted.flatMap fun planes => planes channel) ++
    (w.processor.planes channel).take w.processor.filled = w.captured channel

/-! ## Chunks -/

theorem Planes.length_channel (self : Planes α) (channel : ℕ) :
    (self.channel channel).length = self.frames := by
  have hpos := List.length_pos_iff.2 self.nonempty
  have hlt : min channel (self.planes.length - 1) < self.planes.length := by omega
  unfold Planes.channel
  rw [List.getD_eq_getElem?_getD, List.getElem?_eq_getElem hlt]
  exact self.equal _ (List.getElem_mem hlt)

theorem total_cons (planes : Planes α) (queue : List (Planes α)) :
    total (planes :: queue) = planes.frames + total queue := rfl

theorem waiting_zero (channel : ℕ) (queue : List (Planes α)) :
    waiting channel 0 queue = queue.map (·.channel channel) := by
  cases queue <;> rfl

theorem waiting_concat {offset : ℕ} {queue : List (Planes α)} (h : queue = [] → offset = 0)
    (channel : ℕ) (planes : Planes α) :
    waiting channel offset (queue ++ [planes]) =
      waiting channel offset queue ++ [planes.channel channel] := by
  cases queue with
  | nil =>
    rw [h rfl]
    rfl
  | cons first rest => rw [waiting, List.cons_append, waiting, List.map_append]; rfl

theorem length_flatten_map (channel : ℕ) (queue : List (Planes α)) :
    (queue.map (·.channel channel)).flatten.length = total queue := by
  induction queue with
  | nil => rfl
  | cons planes queue ih =>
    rw [List.map_cons, List.flatten_cons, List.length_append, Planes.length_channel, ih, total_cons]

/-! ## Playback -/

/-- The offset lies in the first chunk of a queue, and the counter is right. -/
structure Counted (s : SpicePlaybackProcessor α) (queue : List (Planes α)) : Prop where
  queued : s.offset + s.queued = total queue
  nil : queue = [] → s.offset = 0
  cons : ∀ planes rest, queue = planes :: rest → s.offset ≤ planes.frames

theorem counted_zero {s : SpicePlaybackProcessor α} {queue : List (Planes α)}
    (hoffset : s.offset = 0) (hqueued : s.queued = total queue) : Counted s queue where
  queued := by rw [hoffset, hqueued, Nat.zero_add]
  nil _ := hoffset
  cons _ _ _ := hoffset.trans_le (Nat.zero_le _)

theorem Counted.length_waiting {s : SpicePlaybackProcessor α} {queue : List (Planes α)}
    (h : Counted s queue) (channel : ℕ) :
    (waiting channel s.offset queue).flatten.length = s.queued := by
  have hqueued := h.queued
  cases queue with
  | nil =>
    have hoffset := h.nil rfl
    have htotal : total ([] : List (Planes α)) = 0 := rfl
    show 0 = s.queued
    omega
  | cons planes rest =>
    have hoffset := h.cons planes rest rfl
    rw [total_cons] at hqueued
    rw [waiting, List.flatten_cons, List.length_append, List.length_drop, Planes.length_channel,
      length_flatten_map]
    omega

/-- What the processor keeps of a queue, and what every channel goes on with. -/
structure Goes (limit : ℕ) (s : SpicePlaybackProcessor α) (queue : List (Planes α))
    (s' : SpicePlaybackProcessor α) : Prop where
  counted : Counted s' s'.queue
  maxFrames : s'.maxFrames = limit
  bounded : s'.queued ≤ limit ∨ s'.queue.length ≤ 1
  plays : ∀ channel pushed heard, Plays limit pushed heard (waiting channel s.offset queue) →
    Plays limit pushed heard (waiting channel s'.offset s'.queue)

theorem goes_shed {limit : ℕ} (s : SpicePlaybackProcessor α) (queue : List (Planes α))
    (h : Counted s queue) (hlimit : s.maxFrames = limit) :
    Goes limit s queue (s.shed queue) := by
  induction queue generalizing s with
  | nil => exact ⟨⟨h.queued, h.nil, h.cons⟩, hlimit, .inr (Nat.zero_le 1), fun _ _ _ h => h⟩
  | cons dropped queue ih =>
    cases queue with
    | nil => exact ⟨⟨h.queued, h.nil, h.cons⟩, hlimit, .inr le_rfl, fun _ _ _ h => h⟩
    | cons next rest =>
      unfold SpicePlaybackProcessor.shed
      split
      · next hover =>
        have hqueued := h.queued
        have hoffset := h.cons dropped _ rfl
        rw [total_cons] at hqueued
        obtain ⟨hcounted, hlimit', hbounded, hplays⟩ := ih
          { s with
            queued := s.queued - (dropped.frames - s.offset)
            dropped := s.dropped + (dropped.frames - s.offset)
            offset := 0 }
          (counted_zero rfl (by dsimp only; omega)) hlimit
        refine ⟨hcounted, hlimit', hbounded, fun channel pushed heard hheard => ?_⟩
        refine hplays channel pushed heard ?_
        rw [waiting_zero]
        refine Plays.drop hheard ?_
        show limit < (waiting channel s.offset (dropped :: next :: rest)).flatten.length
        rw [h.length_waiting, ← hlimit]
        exact hover
      · next hover =>
        exact ⟨⟨h.queued, h.nil, h.cons⟩, hlimit, .inl (hlimit ▸ Nat.le_of_not_lt hover),
          fun _ _ _ h => h⟩

/-- The part of a block that is written continues what a channel has heard. -/
structure Written (limit frames : ℕ) (pushed : List α) (heard : List (Option α)) (row : List α)
    (written : ℕ) (waiting : List (List α)) : Prop where
  length : row.length = frames
  room : written ≤ frames
  plays : Plays limit pushed (heard ++ (row.take written).map some) waiting

/-- A part of a chunk is written to a row. -/
theorem Planes.splice_slice (self : Planes α) (row : List α) (channel : ℕ) {written offset n : ℕ}
    (hchunk : offset + n ≤ self.frames) (hroom : written + n ≤ row.length) :
    (splice row written (slice (self.channel channel) offset n)).length = row.length ∧
      (splice row written (slice (self.channel channel) offset n)).take (written + n) =
        row.take written ++ slice (self.channel channel) offset n := by
  have hslice : (slice (self.channel channel) offset n).length = n :=
    length_slice (by rwa [length_channel])
  have htake := take_splice (slice (self.channel channel) offset n)
    (by omega : written ≤ row.length)
  rw [hslice] at htake
  exact ⟨length_splice (by rwa [hslice]), htake⟩

/-- The step of the loop: a part of the first chunk is written. -/
theorem Written.take {limit frames written offset n : ℕ} {pushed row : List α}
    {heard : List (Option α)} {channel : ℕ} {planes : Planes α} {rest : List (Planes α)}
    (h : Written limit frames pushed heard row written (waiting channel offset (planes :: rest)))
    (hchunk : offset + n ≤ planes.frames) (hroom : written + n ≤ frames) :
    Written limit frames pushed heard
      (splice row written (slice (planes.channel channel) offset n)) (written + n)
      (waiting channel (offset + n) (planes :: rest)) := by
  obtain ⟨hlength, htake⟩ := planes.splice_slice row channel hchunk (h.length ▸ hroom)
  have hplays := h.plays
  rw [waiting, ← slice_drop _ offset n] at hplays
  refine ⟨hlength.trans h.length, hroom, ?_⟩
  rw [htake, List.map_append, ← List.append_assoc]
  exact hplays.play _ _

theorem written_write (limit : ℕ) {frames : ℕ} (s : SpicePlaybackProcessor α) (written : ℕ)
    (output : Fin channels → List α) (queue : List (Planes α)) (h : Counted s queue)
    {s' : SpicePlaybackProcessor α} {written' : ℕ} {output' : Fin channels → List α}
    (hwrite : s.write frames written output queue = (s', written', output')) :
    Counted s' s'.queue ∧ s'.maxFrames = s.maxFrames ∧ s'.queued ≤ s.queued ∧
      s'.queue.length ≤ queue.length ∧ (written' < frames → s'.queue = []) ∧
      ∀ channel pushed heard,
        Written limit frames pushed heard (output channel) written
          (waiting channel s.offset queue) →
        Written limit frames pushed heard (output' channel) written'
          (waiting channel s'.offset s'.queue) := by
  induction queue generalizing s written output with
  | nil =>
    cases hwrite
    exact ⟨⟨h.queued, h.nil, h.cons⟩, rfl, le_rfl, le_rfl, fun _ => rfl, fun _ _ _ h => h⟩
  | cons planes rest ih =>
    have hqueued := h.queued
    have hoffset := h.cons planes rest rfl
    rw [total_cons] at hqueued
    unfold SpicePlaybackProcessor.write at hwrite
    dsimp only at hwrite
    generalize htake : min (planes.frames - s.offset) (frames - written) = take at hwrite
    split_ifs at hwrite with hless hused
    · obtain ⟨hcounted, hlimit, hle, hlength, hfull, hplays⟩ :=
        ih _ _ _ (counted_zero rfl (by dsimp only; omega)) hwrite
      refine ⟨hcounted, hlimit, hle.trans (Nat.sub_le _ _), hlength.trans (Nat.le_succ _), hfull,
        fun channel pushed heard hwritten => hplays channel pushed heard ?_⟩
      obtain ⟨hrow, hroom, hheard⟩ :=
        hwritten.take (n := take) (by omega) (by have := hwritten.room; omega)
      rw [waiting, List.drop_of_length_le (by rw [Planes.length_channel]; exact hused)] at hheard
      rw [waiting_zero]
      exact ⟨hrow, hroom, hheard.next⟩
    · cases hwrite
      refine ⟨⟨by dsimp only; rw [total_cons]; omega, by simp, ?_⟩, rfl, Nat.sub_le _ _, le_rfl,
        fun hlt => ?_, fun channel pushed heard hwritten =>
          hwritten.take (by omega) (by have := hwritten.room; omega)⟩
      · rintro _ _ ⟨⟩
        exact Nat.le_of_not_le hused
      · omega
    · cases hwrite
      exact ⟨⟨h.queued, h.nil, h.cons⟩, rfl, le_rfl, le_rfl, fun hlt => absurd hlt hless,
        fun _ _ _ h => h⟩

section Runs

variable [Zero α]

/-- What holds in every run of the playback processor. -/
structure Queued (limit : ℕ) (w : Playing α channels) : Prop where
  counted : Counted w.processor w.processor.queue
  maxFrames : w.processor.maxFrames = limit
  bounded : w.processor.queued ≤ limit ∨ w.processor.queue.length ≤ 1
  plays : PlaysPushed limit w

variable {limit sampleRate : ℕ} {w : Playing α channels}

theorem queued_initial (limit : ℕ) :
    Queued limit ({ processor := { maxFrames := limit } } : Playing α channels) :=
  ⟨counted_zero rfl rfl, rfl, .inl (Nat.zero_le limit), fun _ => ⟨[], .start, rfl⟩⟩

theorem Queued.resets (h : Queued limit w) :
    Queued limit (w.step sampleRate (.message .reset)) :=
  ⟨counted_zero rfl rfl, h.maxFrames, .inl (Nat.zero_le limit), fun _ => ⟨[], .start, rfl⟩⟩

theorem Queued.pushes (h : Queued limit w) (planes : Planes α) :
    Queued limit (w.step sampleRate (.message (.planes planes))) := by
  obtain ⟨hqueued, hnil, hcons⟩ := h.counted
  have hpushed : Counted { w.processor with queued := w.processor.queued + planes.frames }
      (w.processor.queue ++ [planes]) := by
    refine ⟨?_, fun hempty => absurd hempty (by simp), fun first rest hfirst => ?_⟩
    · rw [total, List.map_append, List.sum_append, ← total, ← hqueued, ← Nat.add_assoc]
      rfl
    · cases hqueue : w.processor.queue with
      | nil => exact (hnil hqueue).trans_le (Nat.zero_le _)
      | cons other others =>
        rw [hqueue, List.cons_append] at hfirst
        obtain ⟨rfl, -⟩ := List.cons.inj hfirst
        exact hcons other others hqueue
  obtain ⟨hcounted, hlimit, hbounded, hplays⟩ := goes_shed _ _ hpushed h.maxFrames
  refine ⟨hcounted, hlimit, hbounded, fun channel => ?_⟩
  obtain ⟨heard, hheard, houtput⟩ := h.plays channel
  refine ⟨heard, hplays channel _ _ ?_, houtput⟩
  rw [waiting_concat hnil]
  show Plays limit ((w.pushed ++ [planes]).flatMap _) heard _
  rw [List.flatMap_append, List.flatMap_singleton]
  exact hheard.push _

theorem Queued.processes (h : Queued limit w) {frames : ℕ}
    (output : Fin channels → Vector α frames) :
    Queued limit (w.step sampleRate (.process output)) := by
  obtain ⟨s, written, rows, hwrite⟩ : ∃ s written rows, w.processor.write frames 0
      (fun channel => (output channel).toList) w.processor.queue = (s, written, rows) :=
    ⟨_, _, _, rfl⟩
  obtain ⟨hcounted, hlimit, hle, hlength, hfull, hplays⟩ :=
    written_write limit w.processor 0 _ _ h.counted hwrite
  have hresult : Queued limit { w with
      processor := s
      output := fun channel => w.output channel ++
        splice (rows channel) written (List.replicate (frames - written) 0) } := by
    refine ⟨hcounted, hlimit.trans h.maxFrames,
      h.bounded.imp hle.trans hlength.trans, fun channel => ?_⟩
    obtain ⟨heard, hheard, houtput⟩ := h.plays channel
    obtain ⟨hrow, hroom, hwritten⟩ := hplays channel (w.pushed.flatMap (·.channel channel)) heard
      ⟨(output channel).size_toArray, Nat.zero_le _, by
        rw [List.take_zero, List.map_nil, List.append_nil]
        exact hheard⟩
    have hblock : splice (rows channel) written (List.replicate (frames - written) 0) =
        (rows channel).take written ++ List.replicate (frames - written) 0 := by
      rw [splice, List.length_replicate, Nat.add_sub_cancel' hroom,
        List.drop_of_length_le hrow.le, List.append_nil]
    refine ⟨heard ++ ((rows channel).take written).map some ++
      List.replicate (frames - written) none, ?_, ?_⟩
    · by_cases hlt : written < frames
      · rw [hfull hlt] at hwritten ⊢
        exact hwritten.silence _
      · rw [Nat.sub_eq_zero_of_le (Nat.le_of_not_lt hlt)]
        simpa using hwritten
    · show w.output channel ++ _ = _
      rw [hblock, houtput]
      simp
  unfold Playing.step SpicePlaybackProcessor.process
  dsimp only
  rw [hwrite]
  dsimp only
  obtain ⟨⟨hqueued, hnil, hcons⟩, hmax, hbounded, hheard⟩ := hresult
  split_ifs <;> exact ⟨⟨hqueued, hnil, hcons⟩, hmax, hbounded, hheard⟩

theorem Queued.run (h : Queued limit w) (ops : List (PlaybackOp α channels)) :
    Queued limit (ops.foldl (Playing.step sampleRate) w) := by
  induction ops generalizing w with
  | nil => exact h
  | cons op ops ih =>
    refine ih ?_
    cases op with
    | message message =>
      cases message with
      | reset => exact h.resets
      | planes planes => exact h.pushes planes
    | process output => exact h.processes output

theorem Queued.plays_queue (h : Queued limit w) : PlaysQueue limit w := by
  obtain ⟨hqueued, hnil, hcons⟩ := h.counted
  refine ⟨by omega, by omega, ?_, h.plays⟩
  by_contra hover
  rw [not_or, Nat.not_le] at hover
  obtain ⟨hover, hsingle⟩ := hover
  have hlength := h.bounded.resolve_left (Nat.not_le.2 hover)
  cases hqueue : w.processor.queue with
  | nil =>
    rw [hqueue] at hqueued
    have htotal : total ([] : List (Planes α)) = 0 := rfl
    omega
  | cons chunk rest =>
    rw [hqueue, List.length_cons] at hlength
    obtain rfl : rest = [] := List.length_eq_zero_iff.1 (by omega)
    rw [hqueue, total_cons, show total ([] : List (Planes α)) = 0 from rfl] at hqueued
    exact hsingle ⟨chunk, hqueue, by omega⟩

/-! ## Recording -/

variable {frameSize : ℕ}

/-- The arrays are full, and what was posted and gathered is what was captured. -/
structure Gathers (s : SpiceRecordProcessor α channels frameSize)
    (posted : List (Fin channels → List α)) (captured : Fin channels → List α) : Prop where
  length : ∀ channel, (s.planes channel).length = frameSize
  captured : ∀ channel, (posted.flatMap fun planes => planes channel) ++
    (s.planes channel).take s.filled = captured channel

/-- What is gathered of an input is posted, or it is in the partial frame. -/
theorem gathers_gather (s : SpiceRecordProcessor α channels frameSize) (input : Planes α)
    (read : ℕ) (hlength : ∀ channel, (s.planes channel).length = frameSize) :
    Gathers (s.gather input read).1 (s.gather input read).2 fun channel =>
      (s.planes channel).take s.filled ++ (input.channel channel).drop read := by
  induction s, read using SpiceRecordProcessor.gather.induct input with
  | case1 s read hread take hroom hfull after posted hgather ih =>
    have hrow := fun channel => input.splice_slice (s.planes channel) channel
      (show read + take ≤ _ by omega) (show s.filled + take ≤ _ by rw [hlength]; omega)
    rw [SpiceRecordProcessor.gather, dif_pos hread]
    dsimp only
    rw [dif_pos hfull]
    obtain ⟨hlength', hcaptured⟩ := ih fun _ => List.length_replicate
    refine ⟨hlength', fun channel => ?_⟩
    obtain ⟨hrowLength, htake⟩ := hrow channel
    rw [List.take_of_length_le (by rw [hrowLength, hlength]; exact hfull)] at htake
    rw [List.flatMap_cons, List.append_assoc, hcaptured channel, List.take_zero, List.nil_append]
    show splice _ _ _ ++ _ = _
    rw [htake, List.append_assoc, slice_drop]
  | case2 s read hread take planes hroom hfull ih =>
    have hrow := fun channel => input.splice_slice (s.planes channel) channel
      (show read + take ≤ _ by omega) (show s.filled + take ≤ _ by rw [hlength]; omega)
    rw [SpiceRecordProcessor.gather, dif_pos hread]
    dsimp only
    rw [dif_neg hfull]
    obtain ⟨hlength', hcaptured⟩ := ih fun channel => (hrow channel).1.trans (hlength channel)
    refine ⟨hlength', fun channel => (hcaptured channel).trans ?_⟩
    show (splice _ _ _).take _ ++ _ = _
    rw [(hrow channel).2, List.append_assoc, slice_drop]
  | case3 s read hread =>
    rw [SpiceRecordProcessor.gather, dif_neg hread]
    refine ⟨hlength, fun channel => ?_⟩
    rw [List.drop_of_length_le (by rw [Planes.length_channel]; omega), List.append_nil,
      List.flatMap_nil, List.nil_append]

/-- What holds in every run of the record processor. -/
theorem gathers_step {w : Recording α channels frameSize}
    (h : Gathers w.processor w.posted w.captured) (op : RecordOp α) :
    Gathers (w.step op).processor (w.step op).posted (w.step op).captured := by
  obtain ⟨hlength, hcaptured⟩ := h
  cases op with
  | stop => exact ⟨hlength, hcaptured⟩
  | process input =>
    by_cases hactive : w.processor.active
    · cases input with
      | none =>
        refine ⟨hlength, fun channel => ?_⟩
        simpa [Recording.step, SpiceRecordProcessor.process] using hcaptured channel
      | some input =>
        obtain ⟨hlength', hgathered⟩ := gathers_gather w.processor input 0 hlength
        have hstep : w.processor.process (some input) = w.processor.gather input 0 := if_pos hactive
        unfold Recording.step
        dsimp only
        rw [hstep]
        refine ⟨hlength', fun channel => ?_⟩
        rw [List.flatMap_append, List.append_assoc, hgathered channel, ← List.append_assoc,
          hcaptured channel, if_pos hactive]
        rfl
    · have hstep : w.processor.process input = (w.processor, []) := by
        cases input with
        | none => rfl
        | some input => exact if_neg hactive
      unfold Recording.step
      dsimp only
      rw [hstep]
      refine ⟨hlength, fun channel => ?_⟩
      rw [if_neg hactive, List.append_nil, List.append_nil]
      exact hcaptured channel

/-- In every run the counters of the playback processor say what it holds, it plays what was pushed,
and the record processor posts what was captured. -/
theorem queues_of_run (limit sampleRate : ℕ) (playback : List (PlaybackOp α channels))
    (frameSize : ℕ+) (record : List (RecordOp α)) :
    PlaysQueue limit (playback.foldl (Playing.step sampleRate)
      { processor := { maxFrames := limit } }) ∧
    PostsCaptured (record.foldl Recording.step
      ({ processor := .new channels frameSize } : Recording α channels frameSize)) := by
  refine ⟨((queued_initial limit).run playback).plays_queue, ?_⟩
  have hgathers : ∀ w : Recording α channels frameSize,
      Gathers w.processor w.posted w.captured →
      Gathers (record.foldl Recording.step w).processor (record.foldl Recording.step w).posted
        (record.foldl Recording.step w).captured := by
    induction record with
    | nil => exact fun _ h => h
    | cons op ops ih => exact fun w h => ih _ (gathers_step h op)
  exact (hgathers _ ⟨fun _ => List.length_replicate, fun _ => rfl⟩).captured

end Runs

end MachineEmu.Web
