import Mathlib.Logic.Function.Iterate
import MachineEmu.Api.GuestExec
import MachineEmu.Lib.Runs

/-!
# Streams of guest executions

A stream of a job shows its phases in their order, ends with the frames of its final state, and
carries the captured output whole.

* `Delivers`, `Faithful` — the statement.
* `Follows` — what a run keeps of a stream and its job.
* `faithful_of_reachable` — the result.
-/

namespace MachineEmu

open Lib List Function

namespace GuestExec

/-! ## Statements -/

namespace Frame

/-- The phase that an event reports. -/
def phase? : Frame → Option Phase
  | .status _ phase _ _ => some phase
  | _ => none

def isComplete : Frame → Bool
  | .complete .. => true
  | _ => false

/-- The index and the data of a chunk of a channel. -/
def chunk? (channel : Channel) : Frame → Option (Nat × String)
  | .output other chunkIndex data => if other = channel then some (chunkIndex, data) else none
  | _ => none

/-- Whether the last event says that a channel has been cut. -/
def flag? (channel : Channel) : Frame → Option Bool
  | .complete _ _ _ stdoutTruncated stderrTruncated _ =>
    some (match channel with
      | .stdout => stdoutTruncated
      | .stderr => stderrTruncated)
  | _ => none

end Frame

/-- The chunks of a channel. -/
def chunksOf (channel : Channel) (events : List Frame) : List (Nat × String) :=
  events.filterMap (Frame.chunk? channel)

/-- The output of a channel: its chunks are decoded and put together. -/
def decodedOutput (channel : Channel) (events : List Frame) : Option (List UInt8) :=
  ((chunksOf channel events).mapM fun chunk => Base64.decode chunk.2).map List.flatten

/-- The output of a channel that the agent reports, which is nothing without a report. -/
def captured (report : Option Json) (channel : Channel) : Option (List UInt8) :=
  let field := match channel with
    | .stdout => "out-data"
    | .stderr => "err-data"
  match report.bind fun status => (status.field field).bind Json.asStr with
  | none => some []
  | some encoded => Base64.decode encoded

/-- Whether the agent reports that it has cut the output of a channel. -/
def cutByAgent (report : Option Json) (channel : Channel) : Bool :=
  let field := match channel with
    | .stdout => "out-truncated"
    | .stderr => "err-truncated"
  (report.bind fun status => (status.field field).bind Json.asBool) == some true

/-- What a stream has sent: the phases in their order; the last event once and as the last one;
when the stream has ended, the frames of the final state after the statuses of earlier ones, with
the output whole. A stream of a job that has ended ends. -/
structure Delivers (job : ExecutionJob) (report : Option Json) (stream : Stream) : Prop where
  phases : ((stream.sent.filterMap Frame.phase?).map Phase.rank).Pairwise (· < ·)
  once : ∀ front event rest, stream.sent = front ++ event :: rest → event.isComplete = true →
    rest = [] ∧ ∀ other ∈ front, other.isComplete = false
  ended : stream.ended = true → job.state.terminal = true ∧ ∃ front,
    stream.sent = front ++ frames job.state ∧ ∀ event ∈ front, event.phase?.isSome = true
  ends : job.state.terminal = true → ∃ k, ((fun stream => stream.poll job)^[k] stream).ended = true
  output : stream.ended = true → ∀ channel, ∃ bytes, captured report channel = some bytes ∧
    (chunksOf channel stream.sent).map Prod.fst =
      List.range (chunksOf channel stream.sent).length ∧
    decodedOutput channel stream.sent = some (bytes.take maxOutputBytes) ∧
    stream.sent.filterMap (Frame.flag? channel) =
      [decide (maxOutputBytes < bytes.length) || cutByAgent report channel]

/-- Every stream delivers its job, and the table is bounded and has every job that has not
ended. -/
structure Faithful (w : World) : Prop where
  streams : ∀ s stream, w.streams s = some stream →
    ∃ job, w.jobs stream.job = some job ∧ Delivers job (w.reports stream.job) stream
  bounded : w.guestExecutions.size ≤ maxJobs
  kept : ∀ n job, w.jobs n = some job → job.state.terminal = false →
    w.guestExecutions.get? job.executionId = some n

/-! ## Frames -/

variable {state : JobState}

theorem frames_of_terminal (h : state.terminal = true) :
    frames state = .status state.sequence state.phase state.guestPid state.errorCode ::
      (outputFrames .stdout state.stdout ++ outputFrames .stderr state.stderr ++
        [.complete state.phase state.exitCode state.signal state.stdoutTruncated
          state.stderrTruncated state.errorCode]) := by
  unfold frames
  rw [if_pos h]

theorem frames_of_open (h : state.terminal = false) :
    frames state =
      [.status state.sequence state.phase state.guestPid state.errorCode] := by
  unfold frames
  rw [if_neg (by rw [h]; decide)]

theorem mem_outputFrames {channel : Channel} {bytes : List UInt8} {event : Frame}
    (h : event ∈ outputFrames channel bytes) : ∃ index data, event = .output channel index data := by
  obtain ⟨⟨chunk, index⟩, -, rfl⟩ := mem_map.1 h
  exact ⟨index, _, rfl⟩

/-- Every state has one status. -/
theorem phases_frames (state : JobState) : (frames state).filterMap Frame.phase? = [state.phase] := by
  have hnone : ∀ channel bytes, (outputFrames channel bytes).filterMap Frame.phase? = [] := by
    intro channel bytes
    rw [filterMap_eq_nil_iff]
    intro event hevent
    obtain ⟨index, data, rfl⟩ := mem_outputFrames hevent
    rfl
  cases h : state.terminal with
  | true =>
    rw [frames_of_terminal h]
    simp [hnone, Frame.phase?]
  | false =>
    rw [frames_of_open h]
    rfl

/-- The frames of the states are their statuses, except for the final one. -/
theorem phases_flatMap (states : List JobState) :
    (states.flatMap frames).filterMap Frame.phase? = states.map JobState.phase := by
  induction states with
  | nil => rfl
  | cons state states ih =>
    rw [flatMap_cons, filterMap_append, phases_frames, ih]
    rfl

theorem isSome_phase?_of_open {states : List JobState} (h : ∀ state ∈ states, state.terminal = false)
    {event : Frame} (hevent : event ∈ states.flatMap frames) : event.phase?.isSome = true := by
  obtain ⟨state, hstate, hframe⟩ := mem_flatMap.1 hevent
  rw [frames_of_open (h state hstate), mem_singleton] at hframe
  rw [hframe]
  rfl

theorem not_complete_of_phase? {event : Frame} (h : event.phase?.isSome = true) :
    event.isComplete = false := by
  cases event with
  | status => rfl
  | output => cases h
  | complete => cases h

/-- The frames of a final state have the last event at their end only. -/
theorem frames_eq_concat (h : state.terminal = true) :
    ∃ front last, frames state = front ++ [last] ∧ ∀ event ∈ front, event.isComplete = false := by
  refine ⟨_ :: (outputFrames .stdout state.stdout ++ outputFrames .stderr state.stderr), _,
    frames_of_terminal h, ?_⟩
  intro event hevent
  rw [mem_cons, mem_append] at hevent
  rcases hevent with rfl | hevent | hevent
  · rfl
  · obtain ⟨index, data, rfl⟩ := mem_outputFrames hevent
    rfl
  · obtain ⟨index, data, rfl⟩ := mem_outputFrames hevent
    rfl

/-- In the beginning of a text whose last event is the only one of its kind, the event has nothing
after it. -/
theorem once_of_front {front rest text : List Frame} {event last : Frame}
    (htext : ∀ other ∈ text, other.isComplete = false)
    (h : front ++ event :: rest <+: text ++ [last]) (hevent : event.isComplete = true) :
    rest = [] ∧ ∀ other ∈ front, other.isComplete = false := by
  obtain ⟨more, hmore⟩ := h
  rw [append_assoc, cons_append] at hmore
  rcases eq_nil_or_concat' (rest ++ more) with hnil | ⟨inner, final, hinner⟩
  · rw [hnil] at hmore
    obtain ⟨rfl, -⟩ := append_inj' hmore rfl
    exact ⟨(append_eq_nil_iff.1 hnil).1, htext⟩
  · rw [hinner, ← cons_append, ← append_assoc] at hmore
    obtain ⟨rfl, -⟩ := append_inj' hmore rfl
    have hnot := htext event (by simp)
    rw [hevent] at hnot
    cases hnot

/-! ### Chunks -/

variable {n : Nat}

theorem flatten_chunks (hn : 0 < n) (bytes : List UInt8) : (chunks n bytes).flatten = bytes := by
  have htake : ∀ k, ((List.range k).map fun i => (bytes.drop (i * n)).take n).flatten =
      bytes.take (k * n) := by
    intro k
    induction k with
    | zero => simp
    | succ k ih =>
      rw [range_succ, map_append, flatten_append, ih, Nat.succ_mul, take_add]
      simp
  unfold chunks
  rw [htake, take_of_length_le]
  have hdiv := Nat.div_add_mod (bytes.length + n - 1) n
  have hmod := Nat.mod_lt (bytes.length + n - 1) hn
  rw [Nat.mul_comm] at hdiv
  omega

theorem chunksOf_outputFrames (channel : Channel) (bytes : List UInt8) :
    chunksOf channel (outputFrames channel bytes) =
      (chunks chunkBytes bytes).zipIdx.map fun (chunk, index) => (index, Base64.encode chunk) := by
  unfold chunksOf outputFrames
  rw [filterMap_map]
  rw [← filterMap_eq_map]
  apply filterMap_congr
  intro pair _
  simp [Frame.chunk?]

theorem chunksOf_other {channel other : Channel} (h : other ≠ channel) (bytes : List UInt8) :
    chunksOf channel (outputFrames other bytes) = [] := by
  unfold chunksOf
  rw [filterMap_eq_nil_iff]
  intro event hevent
  obtain ⟨index, data, rfl⟩ := mem_outputFrames hevent
  exact if_neg h

/-- The output of a channel in a state. -/
def JobState.bytes (state : JobState) : Channel → List UInt8
  | .stdout => state.stdout
  | .stderr => state.stderr

/-- Whether the output of a channel in a state has been cut. -/
def JobState.truncated (state : JobState) : Channel → Bool
  | .stdout => state.stdoutTruncated
  | .stderr => state.stderrTruncated

/-- The chunks in the frames of a final state are those of its output. -/
theorem chunksOf_frames (h : state.terminal = true) (channel : Channel) :
    chunksOf channel (frames state) =
      (chunks chunkBytes (state.bytes channel)).zipIdx.map
        fun (chunk, index) => (index, Base64.encode chunk) := by
  have happend : ∀ a b, chunksOf channel (a ++ b) = chunksOf channel a ++ chunksOf channel b :=
    fun a b => filterMap_append
  have hstatus : ∀ (a b c d) (events : List Frame),
      chunksOf channel (.status a b c d :: events) = chunksOf channel events := fun _ _ _ _ _ => rfl
  rw [frames_of_terminal h, hstatus, happend, happend]
  cases channel with
  | stdout =>
    rw [chunksOf_outputFrames, chunksOf_other (by decide)]
    simp [chunksOf, Frame.chunk?, JobState.bytes]
  | stderr =>
    rw [chunksOf_outputFrames, chunksOf_other (by decide)]
    simp [chunksOf, Frame.chunk?, JobState.bytes]

/-- The frames of a final state carry its output whole, in the order of the indices. -/
theorem decodedOutput_frames (h : state.terminal = true) (channel : Channel) :
    (chunksOf channel (frames state)).map Prod.fst =
        List.range (chunksOf channel (frames state)).length ∧
      decodedOutput channel (frames state) = some (state.bytes channel) := by
  constructor
  · rw [chunksOf_frames h, map_map, length_map, length_zipIdx]
    exact zipIdx_map_snd 0 _ |>.trans (range_eq_range' ▸ rfl)
  · unfold decodedOutput
    have hall : (chunksOf channel (frames state)).mapM (fun chunk => Base64.decode chunk.2) =
        some (chunks chunkBytes (state.bytes channel)) := by
      rw [chunksOf_frames h]
      generalize chunks chunkBytes (state.bytes channel) = pieces
      generalize 0 = start
      induction pieces generalizing start with
      | nil => rfl
      | cons piece pieces ih =>
        rw [zipIdx_cons, map_cons, mapM_cons, ih, Base64.decode_encode]
        rfl
    rw [hall, Option.map_some, flatten_chunks (by decide)]

theorem flag_frames (h : state.terminal = true) (channel : Channel) :
    (frames state).filterMap (Frame.flag? channel) = [state.truncated channel] := by
  have hnone : ∀ other bytes, (outputFrames other bytes).filterMap (Frame.flag? channel) = [] := by
    intro other bytes
    rw [filterMap_eq_nil_iff]
    intro event hevent
    obtain ⟨index, data, rfl⟩ := mem_outputFrames hevent
    rfl
  rw [frames_of_terminal h, filterMap_cons_none rfl, filterMap_append,
    filterMap_append, hnone, hnone]
  cases channel <;> rfl

/-! ## What a run keeps -/

/-- The state of a job: its number goes with its version, and its output is what its report has. A
job that has not ended has no report. -/
structure Kept (job : ExecutionJob) (report : Option Json) : Prop where
  sequence : job.state.sequence = job.version + 1
  rank : job.state.terminal = false → job.state.phase.rank < 2
  unreported : job.state.terminal = false → report = none
  output : ∀ channel, ∃ bytes, captured report channel = some bytes ∧
    job.state.bytes channel = bytes.take maxOutputBytes ∧
    job.state.truncated channel =
      (decide (maxOutputBytes < bytes.length) || cutByAgent report channel)

/-- A stream and its job. Each state that it has read is the present one or an earlier one. -/
structure Follows (job : ExecutionJob) (stream : Stream) : Prop where
  text : stream.sent ++ stream.pending = stream.states.flatMap frames
  seen : stream.seen ≤ job.version
  below : ∀ state ∈ stream.states, state = job.state ∨
    (state.sequence < job.state.sequence ∧ state.phase.rank < job.state.phase.rank ∧
      state.terminal = false)
  ranks : (stream.states.map fun state => state.phase.rank).Pairwise (· < ·)
  behind : ∀ state ∈ stream.states, state.sequence ≤ stream.seen + 1
  unread : stream.started = false → stream.states = [] ∧ stream.woken = false
  woken : stream.woken = true → ∀ state ∈ stream.states, state.sequence ≤ stream.seen
  waiting : stream.started = true → stream.woken = false → stream.seen = job.version →
    job.state ∈ stream.states
  finished : stream.finished = true → job.state.terminal = true ∧ stream.woken = false ∧
    ∃ front, stream.states = front ++ [job.state] ∧ ∀ state ∈ front, state.terminal = false
  unfinished : stream.finished = false → ∀ state ∈ stream.states, state.terminal = false
  ended : stream.ended = true → stream.finished = true ∧ stream.pending = []

variable {job : ExecutionJob} {report : Option Json} {stream : Stream}

/-- A new stream of a job. -/
theorem follows_new (job : ExecutionJob) (n : Nat) :
    Follows job { job := n, seen := job.version } where
  text := rfl
  seen := le_rfl
  below _ h := nomatch h
  ranks := List.Pairwise.nil
  behind _ h := nomatch h
  unread _ := ⟨rfl, rfl⟩
  woken h := nomatch h
  waiting h := nomatch h
  finished h := nomatch h
  unfinished _ _ h := nomatch h
  ended h := nomatch h

/-- The job goes on to its next state. -/
theorem Follows.modify (h : Follows job stream)
    (hopen : job.state.terminal = false) (hsequence : state.sequence = job.state.sequence + 1)
    (hrank : job.state.phase.rank < state.phase.rank) : Follows (job.modify state) stream where
  text := h.text
  seen := h.seen.trans (Nat.le_succ _)
  below other hother := by
    right
    have hstate : (job.modify state).state = state := rfl
    rw [hstate, hsequence]
    rcases h.below other hother with rfl | ⟨hlt, hlower, hclosed⟩
    · exact ⟨Nat.lt_succ_self _, hrank, hopen⟩
    · exact ⟨hlt.trans (Nat.lt_succ_self _), hlower.trans hrank, hclosed⟩
  ranks := h.ranks
  behind := h.behind
  unread := h.unread
  woken := h.woken
  waiting _ _ hseen := by
    have hle := h.seen
    have hversion : (job.modify state).version = job.version + 1 := rfl
    omega
  finished hfinished := by
    rw [(h.finished hfinished).1] at hopen
    cases hopen
  unfinished := h.unfinished
  ended := h.ended

/-- The stream reads a state that it has not read yet. -/
theorem Follows.read (h : Follows job stream) (hsequence : job.state.sequence = job.version + 1)
    (hpending : stream.pending = []) (hfinished : stream.finished = false)
    (hunread : stream.started = false ∨ stream.woken = true) : Follows job (stream.read job) := by
  have hlower : ∀ state ∈ stream.states, state.phase.rank < job.state.phase.rank := by
    intro state hstate
    rcases hunread with hstarted | hwoken
    · rw [(h.unread hstarted).1] at hstate
      cases hstate
    · have hle := h.woken hwoken state hstate
      have hseen := h.seen
      rcases h.below state hstate with rfl | ⟨-, hrank, -⟩
      · omega
      · exact hrank
  have hstates : (stream.read job).states = stream.states ++ [job.state] := rfl
  have hopen := h.unfinished hfinished
  constructor
  · have htext := h.text
    rw [hpending, append_nil] at htext
    rw [hstates, flatMap_append, ← htext, flatMap_singleton]
    rfl
  · exact le_rfl
  · intro state hstate
    rw [hstates, mem_append, mem_singleton] at hstate
    rcases hstate with hstate | rfl
    · exact h.below state hstate
    · exact .inl rfl
  · rw [hstates, map_append, pairwise_append]
    refine ⟨h.ranks, pairwise_singleton _ _, ?_⟩
    intro a ha b hb
    obtain ⟨state, hstate, rfl⟩ := mem_map.1 ha
    rw [map_singleton, mem_singleton] at hb
    rw [hb]
    exact hlower state hstate
  · intro state hstate
    have hseen : (stream.read job).seen = job.version := rfl
    rw [hseen]
    rw [hstates, mem_append, mem_singleton] at hstate
    rcases hstate with hstate | rfl
    · have hle := h.behind state hstate
      have hold := h.seen
      omega
    · exact hsequence.le
  · exact fun hstarted => nomatch hstarted
  · exact fun hwoken => nomatch hwoken
  · intro _ _ _
    rw [hstates]
    exact mem_append_right _ mem_cons_self
  · exact fun hterminal => ⟨hterminal, rfl, stream.states, hstates, hopen⟩
  · intro hterminal state hstate
    rw [hstates, mem_append, mem_singleton] at hstate
    rcases hstate with hstate | rfl
    · exact hopen state hstate
    · exact hterminal
  · intro hended
    rw [(h.ended hended).1] at hfinished
    cases hfinished

/-- One step of the stream. -/
theorem Follows.poll (h : Follows job stream) (hsequence : job.state.sequence = job.version + 1) :
    Follows job (stream.poll job) := by
  unfold Stream.poll
  split
  · next event pending hpending =>
    have htext := h.text
    rw [hpending] at htext
    refine ⟨?_, h.seen, h.below, h.ranks, h.behind, h.unread, h.woken, h.waiting, h.finished,
      h.unfinished, fun hended => ?_⟩
    · rw [← htext]
      simp
    · have hnone := (h.ended hended).2
      rw [hpending] at hnone
      cases hnone
  · next hpending =>
    split
    · next hfinished =>
      exact ⟨h.text, h.seen, h.below, h.ranks, h.behind, h.unread, h.woken, h.waiting, h.finished,
        h.unfinished, fun _ => ⟨hfinished, hpending⟩⟩
    · next hfinished =>
      rw [Bool.not_eq_true] at hfinished
      split
      · next hunread => exact h.read hsequence hpending hfinished hunread
      · next hread =>
        rw [not_or, Bool.not_eq_false, Bool.not_eq_true] at hread
        split
        · next hseen =>
          have hlt : stream.seen < job.version := lt_of_le_of_ne h.seen hseen
          refine ⟨h.text, le_rfl, h.below, h.ranks, ?_, ?_, ?_, ?_, ?_, h.unfinished, h.ended⟩
          · intro state hstate
            have hle := h.behind state hstate
            dsimp only
            omega
          · intro hstarted
            dsimp only at hstarted
            rw [hread.1] at hstarted
            cases hstarted
          · intro _ state hstate
            have hle := h.behind state hstate
            dsimp only
            omega
          · exact fun _ hwoken => nomatch hwoken
          · intro hdone
            dsimp only at hdone
            rw [hfinished] at hdone
            cases hdone
        · exact h

/-! ### The end of a stream -/

/-- The stream ends after some steps. -/
def Ends (job : ExecutionJob) (stream : Stream) : Prop :=
  ∃ k, ((fun stream => stream.poll job)^[k] stream).ended = true

theorem Ends.of_poll (h : Ends job (stream.poll job)) : Ends job stream := by
  obtain ⟨k, hk⟩ := h
  exact ⟨k + 1, hk⟩

/-- A stream that has read the final state sends the rest of its events and ends. -/
theorem ends_of_finished (h : stream.finished = true) : Ends job stream := by
  obtain ⟨n, seen, pending, started, finished, woken, ended, sent, states⟩ := stream
  dsimp only at h
  subst h
  induction pending generalizing sent with
  | nil => exact ⟨1, rfl⟩
  | cons event pending ih => exact Ends.of_poll (ih _)

/-- The steps of a stream without events to send. -/
theorem ends_of_nil (h : Follows job stream) (hterminal : job.state.terminal = true)
    (hpending : stream.pending = []) : Ends job stream := by
  have hread : ∀ other : Stream, Ends job (other.read job) :=
    fun other => ends_of_finished hterminal
  cases hfinished : stream.finished with
  | true => exact ends_of_finished hfinished
  | false =>
    by_cases hunread : stream.started = false ∨ stream.woken = true
    · apply Ends.of_poll
      unfold Stream.poll
      rw [hpending]
      dsimp only
      rw [if_neg (by rw [hfinished]; decide), if_pos hunread]
      exact hread stream
    · by_cases hseen : stream.seen = job.version
      · rw [not_or, Bool.not_eq_false, Bool.not_eq_true] at hunread
        have hmem := h.waiting hunread.1 hunread.2 hseen
        rw [h.unfinished hfinished job.state hmem] at hterminal
        cases hterminal
      · apply Ends.of_poll
        apply Ends.of_poll
        have hpoll : stream.poll job = { stream with seen := job.version, woken := true } := by
          unfold Stream.poll
          rw [hpending]
          dsimp only
          rw [if_neg (by rw [hfinished]; decide), if_neg hunread, if_pos hseen]
        have hwoken : (stream.poll job).poll job = (stream.poll job).read job := by
          rw [hpoll]
          conv_lhs => unfold Stream.poll
          dsimp only
          rw [hpending]
          dsimp only
          rw [if_neg (by rw [hfinished]; decide), if_pos (.inr rfl)]
        rw [hwoken]
        exact hread _

/-- A stream of a job that has ended ends. -/
theorem Follows.ends (h : Follows job stream) (hsequence : job.state.sequence = job.version + 1)
    (hterminal : job.state.terminal = true) : Ends job stream := by
  generalize hlength : stream.pending.length = k
  induction k generalizing stream with
  | zero => exact ends_of_nil h hterminal (length_eq_zero_iff.1 hlength)
  | succ k ih =>
    obtain ⟨event, pending, hpending⟩ := exists_cons_of_length_eq_add_one hlength
    apply Ends.of_poll
    refine ih (h.poll hsequence) ?_
    unfold Stream.poll
    rw [hpending] at hlength ⊢
    simpa using hlength

/-! ### What a stream has sent -/

/-- A stream that has not read the final state has statuses to send. -/
theorem Follows.sent_of_open (h : Follows job stream) (hfinished : stream.finished = false) :
    ∀ event ∈ stream.sent, event.phase?.isSome = true := by
  intro event hevent
  apply isSome_phase?_of_open (h.unfinished hfinished)
  rw [← h.text]
  exact mem_append_left _ hevent

theorem Follows.once (h : Follows job stream) {front rest : List Frame} {event : Frame}
    (hsent : stream.sent = front ++ event :: rest) (hevent : event.isComplete = true) :
    rest = [] ∧ ∀ other ∈ front, other.isComplete = false := by
  cases hfinished : stream.finished with
  | false =>
    have hstatus := h.sent_of_open hfinished event (by rw [hsent]; simp)
    rw [not_complete_of_phase? hstatus] at hevent
    cases hevent
  | true =>
    obtain ⟨hterminal, -, earlier, hstates, hopen⟩ := h.finished hfinished
    obtain ⟨text, last, hframes, htext⟩ := frames_eq_concat hterminal
    refine @once_of_front front rest (earlier.flatMap frames ++ text) event last ?_ ?_ hevent
    · intro other hother
      rcases mem_append.1 hother with hother | hother
      · exact not_complete_of_phase? (isSome_phase?_of_open hopen hother)
      · exact htext other hother
    · refine ⟨stream.pending, ?_⟩
      rw [← hsent, h.text, hstates, flatMap_append, flatMap_singleton, hframes, append_assoc]

theorem Follows.sent_of_ended (h : Follows job stream) (hended : stream.ended = true) :
    job.state.terminal = true ∧ ∃ front, stream.sent = front ++ frames job.state ∧
      ∀ event ∈ front, event.phase?.isSome = true := by
  obtain ⟨hfinished, hpending⟩ := h.ended hended
  obtain ⟨hterminal, -, earlier, hstates, hopen⟩ := h.finished hfinished
  refine ⟨hterminal, earlier.flatMap frames, ?_, fun event => isSome_phase?_of_open hopen⟩
  have htext := h.text
  rw [hpending, append_nil] at htext
  rw [htext, hstates, flatMap_append, flatMap_singleton]

/-- The statuses of earlier states have no output and no last event. -/
theorem filterMap_front {α : Type} {f : Frame → Option α} {front : List Frame}
    (hf : ∀ event : Frame, event.phase?.isSome = true → f event = none)
    (h : ∀ event ∈ front, event.phase?.isSome = true) (events : List Frame) :
    (front ++ events).filterMap f = events.filterMap f := by
  rw [filterMap_append, filterMap_eq_nil_iff.2 fun event hevent => hf event (h event hevent),
    nil_append]

theorem chunk?_of_phase? {event : Frame} (channel : Channel) (h : event.phase?.isSome = true) :
    event.chunk? channel = none := by
  cases event with
  | status => rfl
  | output => cases h
  | complete => cases h

theorem flag?_of_phase? {event : Frame} (channel : Channel) (h : event.phase?.isSome = true) :
    event.flag? channel = none := by
  cases event with
  | status => rfl
  | output => cases h
  | complete => cases h

theorem Follows.delivers (h : Follows job stream) (hkept : Kept job report) :
    Delivers job report stream := by
  constructor
  · have hall : stream.sent.filterMap Frame.phase? <+: stream.states.map JobState.phase := by
      rw [← phases_flatMap, ← h.text, filterMap_append]
      exact prefix_append _ _
    have hranks := h.ranks
    have hmap : (stream.states.map fun state => state.phase.rank) =
        (stream.states.map JobState.phase).map Phase.rank := by
      rw [map_map]
      rfl
    rw [hmap] at hranks
    exact hranks.sublist (hall.sublist.map Phase.rank)
  · intro front event rest hsent hevent
    exact h.once hsent hevent
  · exact h.sent_of_ended
  · exact h.ends hkept.sequence
  · intro hended channel
    obtain ⟨hterminal, front, hsent, hfront⟩ := h.sent_of_ended hended
    obtain ⟨bytes, hcaptured, hbytes, htruncated⟩ := hkept.output channel
    obtain ⟨hindices, hdecoded⟩ := decodedOutput_frames hterminal channel
    have hchunks : chunksOf channel stream.sent = chunksOf channel (frames job.state) := by
      unfold chunksOf
      rw [hsent]
      exact filterMap_front (fun event => chunk?_of_phase? channel) hfront _
    refine ⟨bytes, hcaptured, ?_, ?_, ?_⟩
    · rw [hchunks]
      exact hindices
    · unfold decodedOutput at hdecoded ⊢
      rw [hchunks, hdecoded, hbytes]
    · rw [hsent, filterMap_front (fun event => flag?_of_phase? channel) hfront,
        flag_frames hterminal, htruncated]

/-! ## Jobs -/

theorem kept_queued (id instanceId runId : String) :
    Kept ⟨id, instanceId, runId, .queued, 0⟩ none where
  sequence := rfl
  rank _ := Nat.zero_lt_two
  unreported _ := rfl
  output channel := by cases channel <;> exact ⟨[], rfl, rfl, rfl⟩

theorem Kept.launched (h : Kept job report) (hopen : job.state.terminal = false) (pid : Int) :
    Kept (job.modify (job.state.launched pid)) report where
  sequence := congrArg (· + 1) h.sequence
  rank _ := Nat.one_lt_two
  unreported _ := h.unreported hopen
  output channel := by
    obtain ⟨bytes, hcaptured, hbytes, htruncated⟩ := h.output channel
    refine ⟨bytes, hcaptured, ?_, ?_⟩
    · cases channel <;> exact hbytes
    · cases channel <;> exact htruncated

theorem Kept.failed (h : Kept job report) (code : ErrorCode) (now : Nat) :
    Kept (job.modify (job.state.failed code now)) report where
  sequence := congrArg (· + 1) h.sequence
  rank hopen := nomatch hopen
  unreported hopen := nomatch hopen
  output channel := by
    obtain ⟨bytes, hcaptured, hbytes, htruncated⟩ := h.output channel
    refine ⟨bytes, hcaptured, ?_, ?_⟩
    · cases channel <;> exact hbytes
    · cases channel <;> exact htruncated

/-- The output that a report has for a channel, decoded up to the limit. -/
theorem decodeOutput_eq_ok {status : Json} {field : String} {output : List UInt8 × Bool}
    (h : decodeOutput status field = .ok output) :
    ∃ bytes, (match (status.field field).bind Json.asStr with
        | none => some []
        | some encoded => Base64.decode encoded) = some bytes ∧
      output.1 = bytes.take maxOutputBytes ∧
      output.2 = decide (maxOutputBytes < bytes.length) := by
  unfold decodeOutput at h
  cases hfield : (status.field field).bind Json.asStr with
  | none =>
    rw [hfield] at h
    cases h
    exact ⟨[], rfl, rfl, by decide⟩
  | some encoded =>
    rw [hfield] at h
    dsimp only at h ⊢
    cases hdecode : Base64.decode encoded with
    | none =>
      rw [hdecode] at h
      cases h
    | some decoded =>
      rw [hdecode] at h
      cases h
      exact ⟨decoded, rfl, rfl, rfl⟩

/-- What a report makes of the state of a job. -/
theorem completed_eq_ok {state' : JobState} {status : Json} {now : Nat}
    (h : state.completed status now = .ok state') :
    state'.sequence = state.sequence + 1 ∧ state'.phase = .completed ∧ state'.terminal = true ∧
      ∀ channel, ∃ bytes, captured (some status) channel = some bytes ∧
        state'.bytes channel = bytes.take maxOutputBytes ∧
        state'.truncated channel =
          (decide (maxOutputBytes < bytes.length) || cutByAgent (some status) channel) := by
  unfold JobState.completed at h
  cases hout : decodeOutput status "out-data" with
  | error code =>
    rw [hout] at h
    cases h
  | ok stdout =>
    rw [hout] at h
    dsimp only at h
    cases herr : decodeOutput status "err-data" with
    | error code =>
      rw [herr] at h
      cases h
    | ok stderr =>
      rw [herr] at h
      cases h
      refine ⟨rfl, rfl, rfl, fun channel => ?_⟩
      cases channel with
      | stdout =>
        obtain ⟨bytes, hcaptured, hbytes, hlong⟩ := decodeOutput_eq_ok hout
        refine ⟨bytes, hcaptured, hbytes, ?_⟩
        rw [← hlong]
        rfl
      | stderr =>
        obtain ⟨bytes, hcaptured, hbytes, hlong⟩ := decodeOutput_eq_ok herr
        refine ⟨bytes, hcaptured, hbytes, ?_⟩
        rw [← hlong]
        rfl

theorem Kept.completed (h : Kept job report) {status : Json} {now : Nat}
    (hstate : job.state.completed status now = .ok state) :
    Kept (job.modify state) (some status) := by
  obtain ⟨hsequence, hphase, hterminal, houtput⟩ := completed_eq_ok hstate
  constructor
  · have hnew : (job.modify state).state.sequence = job.state.sequence + 1 := hsequence
    rw [hnew, h.sequence]
    rfl
  · intro hopen
    have hclosed : (job.modify state).state.terminal = true := hterminal
    rw [hclosed] at hopen
    cases hopen
  · intro hopen
    have hclosed : (job.modify state).state.terminal = true := hterminal
    rw [hclosed] at hopen
    cases hopen
  · exact houtput

/-! ## Runs -/

/-- What every reachable state satisfies. The names of the jobs are told apart by their numbers. -/
structure Good (w : World) : Prop where
  jobs : ∀ n job, w.jobs n = some job → Kept job (w.reports n) ∧ n < w.nextExecution ∧
    ∃ micros, job.executionId = executionId micros n
  reports : ∀ n, w.nextExecution ≤ n → w.reports n = none
  streams : ∀ s stream, w.streams s = some stream →
    ∃ job, w.jobs stream.job = some job ∧ Follows job stream
  bounded : w.guestExecutions.size ≤ maxJobs
  kept : ∀ n job, w.jobs n = some job → job.state.terminal = false →
    w.guestExecutions.get? job.executionId = some n

/-- Executions with different numbers have different names. -/
theorem executionId_inj {micros micros' n' : Nat}
    (h : executionId micros n = executionId micros' n') : n = n' := by
  have hlast : ∀ m k, ((executionId m k).toList.splitOn '-').getLast? =
      some (hexadecimal k).toList := by
    intro m k
    have htext : (executionId m k).toList =
        ("ge-" ++ hexadecimal m).toList ++ '-' :: (hexadecimal k).toList := by
      simp [executionId]
    rw [htext, splitOn_append_cons_self,
      splitOn_eq_singleton (hyphen_notMem_hexadecimal k), List.getLast?_concat]
  have hsame := hlast micros n
  rw [h, hlast, Option.some.injEq] at hsame
  exact hexadecimal_injective (String.toList_inj.1 hsame).symm

variable {w w' : World}

theorem keeps_of_open (hjob : w.jobs n = some job)
    (hopen : job.state.terminal = false) : w.keeps n = true := by
  have hnone : job.state.finishedAt = none := by
    unfold JobState.terminal at hopen
    simpa using hopen
  unfold World.keeps
  rw [hjob, Option.bind_some, hnone]
  rfl

/-- Dropping the jobs that finished long ago. -/
theorem Good.retain (h : Good w) (hjob : w.jobs n = some job) (hopen : job.state.terminal = false) :
    (w.guestExecutions.filter w.keeps).get? job.executionId = some n :=
  SortedMap.get?_filter_of (h.kept n job hjob hopen) (keeps_of_open hjob hopen)

theorem Good.start (h : Good w) (instanceId : String) (request : StartExecution) (lookup : Lookup)
    (micros : Nat) : Good (w.start instanceId request lookup micros).2 := by
  unfold World.start
  split
  · exact h
  split
  · exact h
  cases lookup with
  | stopped => exact h
  | missing => exact h
  | failed => exact h
  | running runId =>
    dsimp only
    split
    · refine ⟨?_, ?_, h.streams, ?_, ?_⟩
      · intro n job hjob
        obtain ⟨hkept, hlt, hid⟩ := h.jobs n job hjob
        exact ⟨hkept, hlt.trans (Nat.lt_succ_self _), hid⟩
      · exact fun n hn => h.reports n ((Nat.le_succ _).trans hn)
      · exact (SortedMap.size_filter_le _ _).trans h.bounded
      · exact fun n job hjob hopen => h.retain hjob hopen
    · next hroom =>
      have hfresh : w.jobs w.nextExecution = none := by
        cases hjob : w.jobs w.nextExecution with
        | none => rfl
        | some job => exact absurd (h.jobs _ job hjob).2.1 (Nat.lt_irrefl _)
      constructor
      · intro n job hjob
        dsimp only at hjob ⊢
        rw [update_apply] at hjob
        split at hjob
        · next hn =>
          cases hjob
          rw [hn, h.reports _ le_rfl]
          exact ⟨kept_queued _ _ _, Nat.lt_succ_self _, micros, rfl⟩
        · obtain ⟨hkept, hlt, hid⟩ := h.jobs n job hjob
          exact ⟨hkept, hlt.trans (Nat.lt_succ_self _), hid⟩
      · exact fun n hn => h.reports n ((Nat.le_succ _).trans hn)
      · intro s stream hstream
        obtain ⟨job, hjob, hfollows⟩ := h.streams s stream hstream
        refine ⟨job, ?_, hfollows⟩
        dsimp only
        rw [update_of_ne, hjob]
        rintro heq
        rw [heq, hfresh] at hjob
        cases hjob
      · have hsize := SortedMap.size_insert_le (w.guestExecutions.filter w.keeps)
          (executionId micros w.nextExecution) w.nextExecution
        dsimp only
        omega
      · intro n job hjob hopen
        dsimp only at hjob ⊢
        rw [SortedMap.get?_insert]
        rw [update_apply] at hjob
        split at hjob
        · next hn =>
          cases hjob
          rw [if_pos rfl, hn]
        · next hn =>
          obtain ⟨-, hlt, other, hid⟩ := h.jobs n job hjob
          rw [if_neg, h.retain hjob hopen]
          intro heq
          rw [hid] at heq
          exact hn (executionId_inj heq)

/-- A worker changes the state of its job, which has not ended. -/
theorem Good.modify (h : Good w)
    {report : Option Json} (hjob : w.jobs n = some job) (hopen : job.state.terminal = false)
    (hkept : Kept (job.modify state) report) (hsequence : state.sequence = job.state.sequence + 1)
    (hrank : job.state.phase.rank < state.phase.rank) :
    Good { w.modify n state with reports := Function.update w.reports n report } := by
  obtain ⟨-, hlt, hid⟩ := h.jobs n job hjob
  have hnew : (w.jobs n).map (fun job => job.modify state) = some (job.modify state) := by
    rw [hjob]
    rfl
  constructor
  · intro m other hother
    dsimp only [World.modify] at hother ⊢
    rw [update_apply] at hother ⊢
    split at hother
    · next hm =>
      rw [hnew] at hother
      cases hother
      rw [if_pos hm, hm]
      exact ⟨hkept, hlt, hid⟩
    · next hm =>
      rw [if_neg hm]
      exact h.jobs m other hother
  · intro m hm
    dsimp only [World.modify] at hm ⊢
    rw [update_of_ne (by omega), h.reports m hm]
  · intro s stream hstream
    obtain ⟨other, hother, hfollows⟩ := h.streams s stream hstream
    dsimp only [World.modify]
    rw [update_apply]
    split
    · next hs =>
      rw [hs, hjob] at hother
      cases hother
      exact ⟨job.modify state, hnew, hfollows.modify hopen hsequence hrank⟩
    · exact ⟨other, hother, hfollows⟩
  · exact h.bounded
  · intro m other hother hopen'
    dsimp only [World.modify] at hother ⊢
    rw [update_apply] at hother
    split at hother
    · next hm =>
      rw [hnew] at hother
      cases hother
      rw [hm]
      exact h.kept n job hjob hopen
    · exact h.kept m other hother hopen'

theorem working_eq_some (h : w.working n = some state) :
    ∃ job, w.jobs n = some job ∧ job.state = state ∧ state.terminal = false := by
  obtain ⟨hstate, hopen⟩ := Option.filter_eq_some_iff.1 h
  obtain ⟨job, hjob, hsame⟩ := Option.map_eq_some_iff.1 hstate
  exact ⟨job, hjob, hsame, by simpa using hopen⟩

/-- A change of a job that leaves its report as it is. -/
theorem Good.modify_same (h : Good w)
    (hjob : w.jobs n = some job) (hopen : job.state.terminal = false)
    (hkept : Kept (job.modify state) (w.reports n))
    (hsequence : state.sequence = job.state.sequence + 1)
    (hrank : job.state.phase.rank < state.phase.rank) : Good (w.modify n state) := by
  have hgood := h.modify hjob hopen hkept hsequence hrank
  rwa [update_eq_self] at hgood

theorem Good.fail (h : Good w) (hworking : w.working n = some state)
    (code : ErrorCode) : Good (w.modify n (state.failed code w.clock)) := by
  obtain ⟨job, hjob, rfl, hopen⟩ := working_eq_some hworking
  obtain ⟨hkept, -, -⟩ := h.jobs n job hjob
  exact h.modify_same hjob hopen (hkept.failed code w.clock) rfl (hkept.rank hopen)

theorem good_step (h : Good w) {op : Op} (hstep : w.step op = some w') : Good w' := by
  cases op with
  | tick milliseconds =>
    cases hstep
    exact ⟨h.jobs, h.reports, h.streams, h.bounded, h.kept⟩
  | start instanceId request lookup micros =>
    cases hstep
    exact h.start instanceId request lookup micros
  | launched n pid =>
    unfold World.step at hstep
    dsimp only at hstep
    split at hstep
    · next state hworking =>
      obtain ⟨hphase, hstep⟩ := Option.ite_none_right_eq_some.1 hstep
      cases hstep
      obtain ⟨job, hjob, rfl, hopen⟩ := working_eq_some hworking
      obtain ⟨hkept, -, -⟩ := h.jobs n job hjob
      refine h.modify_same hjob hopen (hkept.launched hopen pid) rfl ?_
      rw [hphase]
      exact Nat.zero_lt_one
    · cases hstep
  | exited n status =>
    unfold World.step at hstep
    dsimp only at hstep
    split at hstep
    · next state hworking =>
      obtain ⟨hphase, hstep⟩ := Option.ite_none_right_eq_some.1 hstep
      split at hstep
      · next state' hcompleted =>
        cases hstep
        obtain ⟨job, hjob, rfl, hopen⟩ := working_eq_some hworking
        obtain ⟨hkept, -, -⟩ := h.jobs n job hjob
        obtain ⟨hsequence, hphase', -, -⟩ := completed_eq_ok hcompleted
        refine h.modify hjob hopen (hkept.completed hcompleted) hsequence ?_
        rw [hphase']
        exact hkept.rank hopen
      · next code _ =>
        cases hstep
        exact h.fail hworking code
    · cases hstep
  | failed n code =>
    obtain ⟨state, hworking, rfl⟩ := Option.map_eq_some_iff.1 hstep
    exact h.fail hworking code
  | openStream s executionId =>
    unfold World.step at hstep
    dsimp only at hstep
    split at hstep
    · next n _ _ =>
      obtain ⟨job, hjob, rfl⟩ := Option.map_eq_some_iff.1 hstep
      refine ⟨h.jobs, h.reports, ?_, h.bounded, h.kept⟩
      intro t stream hstream
      dsimp only at hstream ⊢
      rw [update_apply] at hstream
      split at hstream
      · cases hstream
        exact ⟨job, hjob, follows_new job n⟩
      · exact h.streams t stream hstream
    · cases hstep
  | poll s =>
    unfold World.step at hstep
    dsimp only at hstep
    split at hstep
    · cases hstep
    · next stream hstream =>
      obtain ⟨job, hjob, rfl⟩ := Option.map_eq_some_iff.1 hstep
      obtain ⟨other, hother, hfollows⟩ := h.streams s stream hstream
      cases hjob.symm.trans hother
      refine ⟨h.jobs, h.reports, ?_, h.bounded, h.kept⟩
      intro t polled hpolled
      dsimp only at hpolled ⊢
      rw [update_apply] at hpolled
      split at hpolled
      · cases hpolled
        have hsame : (stream.poll job).job = stream.job := by
          unfold Stream.poll
          repeat' split
          all_goals rfl
        rw [hsame]
        exact ⟨job, hjob, hfollows.poll (h.jobs _ job hjob).1.sequence⟩
      · exact h.streams t polled hpolled

theorem good_initial : Good World.initial where
  jobs _ _ h := nomatch h
  reports _ _ := rfl
  streams _ _ h := nomatch h
  bounded := Nat.zero_le _
  kept _ _ h := nomatch h

theorem good_of_reachable (h : Reachable w) : Good w := by
  induction h with
  | initial => exact good_initial
  | step _ hstep ih => exact good_step ih hstep

/-- In every reachable state every stream delivers its job, and the table is bounded and has every
job that has not ended. -/
theorem faithful_of_reachable (h : Reachable w) : Faithful w := by
  have hgood := good_of_reachable h
  refine ⟨fun s stream hstream => ?_, hgood.bounded, hgood.kept⟩
  obtain ⟨job, hjob, hfollows⟩ := hgood.streams s stream hstream
  exact ⟨job, hjob, hfollows.delivers (hgood.jobs _ job hjob).1⟩

/-- A stream that is opened before the process runs and polled after it has exited shows the first
and the last phase, and its output. -/
theorem faithful_of_reachable_lab01 :
    ∃ w, Faithful w ∧ (w.streams 0).map Stream.sent = some
      [.status 1 .queued none none, .status 3 .completed (some 42) none,
        .output .stdout 0 "ZG9uZQo=", .complete .completed (some 7) none false true none] := by
  have hruns : (runChecked (fun _ _ => true) World.step World.initial
      [.start "lab01" { command := "echo done" } (.running "run01") 255,
      .openStream 0 "ge-ff-1", .poll 0, .poll 0, .launched 1 42,
      .exited 1 (.ofFields [("exited", .bool true), ("exitcode", .num 7),
        ("out-data", .str "ZG9uZQo="), ("err-truncated", .bool true)]),
      .poll 0, .poll 0, .poll 0, .poll 0, .poll 0, .poll 0, .poll 0]).map
        (fun w => (w.streams 0).map Stream.sent) = some (some
      [.status 1 .queued none none, .status 3 .completed (some 42) none,
        .output .stdout 0 "ZG9uZQo=", .complete .completed (some 7) none false true none]) := by
    decide +kernel
  obtain ⟨w, hw, hsent⟩ := Option.map_eq_some_iff.1 hruns
  have hreachable : Reachable w :=
    runChecked_induction (fun w op w' h _ hstep => h.step hstep) .initial hw
  exact ⟨w, faithful_of_reachable hreachable, hsent⟩

end GuestExec

end MachineEmu
