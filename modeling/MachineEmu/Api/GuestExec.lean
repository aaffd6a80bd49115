import MachineEmu.Domain
import MachineEmu.Lib.Base64
import MachineEmu.Lib.Hexadecimal
import MachineEmu.Lib.Json

/-!
# Guest executions

Commands that run in a guest. A job has a state that its worker changes, at most twice, and event
streams are made from the state that they find, so a stream may miss a state but no later one.

* `JobState`, `JobState.completed`, `decodeOutput` — the state of a job and what ends it.
* `frames` — the events of a state.
* `insertJob` — the table of the jobs.
* `Stream.poll`, `Stream.read` — the event stream of a job.
* `World`, `World.step` — the jobs and their streams.
-/

namespace MachineEmu

open Lib

namespace GuestExec

/-! ## Limits -/

def maxJobs : Nat := 32
def maxOutputBytes : Nat := 256 * 1024
def chunkBytes : Nat := 12 * 1024

/-- How long a finished job is kept, in milliseconds. -/
def keptFor : Nat := 600 * 1000

/-! ## Requests -/

/-- Source: `api/guest_exec.rs` `StartExecution`. -/
structure StartExecution where
  command : String
  shell : String := "auto"
  timeoutSeconds : Nat := 120

/-- Whether a request is refused as invalid. Source: `api/guest_exec.rs` `start_execution`. -/
def StartExecution.isInvalid (request : StartExecution) : Bool :=
  request.command.isEmpty || decide (request.command.utf8ByteSize > 4096) ||
    request.command.toList.contains (Char.ofNat 0) ||
    !(["auto", "sh", "powershell"].contains request.shell) ||
    !(decide (1 ≤ request.timeoutSeconds) && decide (request.timeoutSeconds ≤ 600))

/-- The errors of a request, by the name of their HTTP status. -/
inductive Refusal where
  | badRequest (error : String)
  | conflict (error : String)
  | notFound (error : String)
  | internalServerError (error : String)
  | tooManyRequests (error : String)

/-- What the daemon knows of the run of an instance. -/
inductive Lookup where
  | running (runId : String) | stopped | missing | failed

/-! ## Jobs -/

inductive Phase where
  | queued | running | completed | failed
  deriving DecidableEq

/-- The place of a phase in the order of the phases. -/
def Phase.rank : Phase → Nat
  | .queued => 0
  | .running => 1
  | .completed | .failed => 2

/-- Why a job failed. Source: `api/guest_exec.rs` `run_execution_inner`, `decode_output`. -/
inductive ErrorCode where
  | executionUnavailable | runChanged | agentUnavailable | guestExecFailed | invalidAgentResponse
  | executionTimeout | guestExecStatusFailed
  deriving DecidableEq

/-- Source: `api/guest_exec.rs` `JobState`. -/
structure JobState where
  sequence : Nat
  phase : Phase
  guestPid : Option Int
  exitCode : Option Int
  signal : Option Int
  stdout : List UInt8
  stderr : List UInt8
  stdoutTruncated : Bool
  stderrTruncated : Bool
  errorCode : Option ErrorCode
  finishedAt : Option Nat
  deriving DecidableEq

/-- Decode the captured output of a channel, up to the limit; also whether it is longer. Source:
`api/guest_exec.rs` `decode_output`. -/
def decodeOutput (status : Json) (field : String) : Except ErrorCode (List UInt8 × Bool) :=
  match (status.field field).bind Json.asStr with
  | none => .ok ([], false)
  | some encoded =>
    match Base64.decode encoded with
    | none => .error .invalidAgentResponse
    | some decoded => .ok (decoded.take maxOutputBytes, decide (maxOutputBytes < decoded.length))

namespace JobState

/-- Source: `api/guest_exec.rs` `JobState::queued`. -/
def queued : JobState where
  sequence := 1
  phase := .queued
  guestPid := none
  exitCode := none
  signal := none
  stdout := []
  stderr := []
  stdoutTruncated := false
  stderrTruncated := false
  errorCode := none
  finishedAt := none

/-- Source: `api/guest_exec.rs` `JobState::terminal`. -/
def terminal (state : JobState) : Bool := state.finishedAt.isSome

/-- The process has been launched. -/
def launched (state : JobState) (pid : Int) : JobState :=
  { state with sequence := state.sequence + 1, phase := .running, guestPid := some pid }

/-- The agent reports that the process has exited. Source: `api/guest_exec.rs`
`run_execution_inner`, its end. -/
def completed (state : JobState) (status : Json) (now : Nat) : Except ErrorCode JobState :=
  match decodeOutput status "out-data" with
  | .error code => .error code
  | .ok stdout =>
    match decodeOutput status "err-data" with
    | .error code => .error code
    | .ok stderr =>
      .ok { state with
        sequence := state.sequence + 1
        phase := .completed
        exitCode := (status.field "exitcode").bind Json.asI64
        signal := (status.field "signal").bind Json.asI64
        stdoutTruncated :=
          stdout.2 || (status.field "out-truncated").bind Json.asBool == some true
        stderrTruncated :=
          stderr.2 || (status.field "err-truncated").bind Json.asBool == some true
        stdout := stdout.1
        stderr := stderr.1
        finishedAt := some now }

/-- Source: `api/guest_exec.rs` `run_execution`. -/
def failed (state : JobState) (code : ErrorCode) (now : Nat) : JobState :=
  { state with
    sequence := state.sequence + 1
    phase := .failed
    errorCode := some code
    finishedAt := some now }

end JobState

/-- A job and the channel of its state. Every change of the state gets a new version. Source:
`api/guest_exec.rs` `ExecutionJob`. -/
structure ExecutionJob where
  executionId : String
  instanceId : String
  runId : String
  state : JobState
  version : Nat

/-- `send_modify`. -/
def ExecutionJob.modify (job : ExecutionJob) (state : JobState) : ExecutionJob :=
  { job with state, version := job.version + 1 }

/-! ## Events -/

inductive Channel where
  | stdout | stderr
  deriving DecidableEq

/-- An event of a stream. -/
inductive Frame where
  | status (sequence : Nat) (phase : Phase) (guestPid : Option Int) (errorCode : Option ErrorCode)
  | output (channel : Channel) (chunkIndex : Nat) (data : String)
  | complete (phase : Phase) (exitCode signal : Option Int) (stdoutTruncated stderrTruncated : Bool)
    (errorCode : Option ErrorCode)
  deriving DecidableEq

/-- `chunks`: the pieces of `n` bytes, the last of which may be shorter. -/
def chunks (n : Nat) (bytes : List UInt8) : List (List UInt8) :=
  (List.range ((bytes.length + n - 1) / n)).map fun i => (bytes.drop (i * n)).take n

/-- The events of the output of a channel. -/
def outputFrames (channel : Channel) (bytes : List UInt8) : List Frame :=
  (chunks chunkBytes bytes).zipIdx.map fun (chunk, index) =>
    .output channel index (Base64.encode chunk)

/-- Source: `api/guest_exec.rs` `frames`. -/
def frames (state : JobState) : List Frame :=
  let status := Frame.status state.sequence state.phase state.guestPid state.errorCode
  if state.terminal then
    status :: (outputFrames .stdout state.stdout ++ outputFrames .stderr state.stderr ++
      [.complete state.phase state.exitCode state.signal state.stdoutTruncated
        state.stderrTruncated state.errorCode])
  else [status]

/-! ## Streams -/

/-- The event stream of a job: the version of the state that its receiver has seen, whether it has
woken up for a change that it has not read yet, and the states that it has read. It holds the job,
so the channel stays open. Source: `api/guest_exec.rs` `stream_execution`. -/
structure Stream where
  job : Nat
  seen : Nat
  pending : List Frame := []
  started : Bool := false
  finished : Bool := false
  woken : Bool := false
  ended : Bool := false
  sent : List Frame := []
  states : List JobState := []

namespace Stream

/-- `borrow_and_update`, and the events of the state. -/
def read (stream : Stream) (job : ExecutionJob) : Stream :=
  { stream with
    seen := job.version
    started := true
    woken := false
    pending := frames job.state
    finished := job.state.terminal
    states := stream.states ++ [job.state] }

/-- One step of the stream: send an event, end, read the first state, wake up for a change, read
the state then, or wait. -/
def poll (stream : Stream) (job : ExecutionJob) : Stream :=
  match stream.pending with
  | event :: pending => { stream with pending, sent := stream.sent ++ [event] }
  | [] =>
    if stream.finished then { stream with ended := true }
    else if stream.started = false ∨ stream.woken then stream.read job
    else if stream.seen ≠ job.version then { stream with seen := job.version, woken := true }
    else stream

end Stream

/-! ## The daemon -/

/-- The name of an execution. -/
def executionId (micros number : Nat) : String :=
  "ge-" ++ hexadecimal micros ++ "-" ++ hexadecimal number

/-- The table of the jobs, which are named by their numbers; all jobs that were ever started, and the
reports they were completed with; and all streams. The counter of the executions is taken not to
come round. -/
structure World where
  clock : Nat
  nextExecution : Nat
  guestExecutions : SortedMap String Nat
  jobs : Nat → Option ExecutionJob
  reports : Nat → Option Json
  streams : Nat → Option Stream

def World.initial : World where
  clock := 0
  nextExecution := 1
  guestExecutions := SortedMap.empty
  jobs := fun _ => none
  reports := fun _ => none
  streams := fun _ => none

/-- Whether a job stays in the table. -/
def World.keeps (w : World) (n : Nat) : Bool :=
  ((w.jobs n).bind fun job => job.state.finishedAt).all fun finished =>
    decide (w.clock - finished ≤ keptFor)

/-- Start an execution: drop the jobs that finished long ago, and add one if there is room. Source:
`api/guest_exec.rs` `start_execution`. -/
def World.start (w : World) (instanceId : String) (request : StartExecution) (lookup : Lookup)
    (micros : Nat) : Except Refusal String × World :=
  if Id.isValid instanceId = false then (.error (.badRequest "invalid_instance_id"), w)
  else if request.isInvalid then (.error (.badRequest "invalid_execution_request"), w)
  else
    match lookup with
    | .stopped => (.error (.conflict "instance_not_running"), w)
    | .missing => (.error (.notFound "instance_not_found"), w)
    | .failed => (.error (.internalServerError "execution_unavailable"), w)
    | .running runId =>
      let number := w.nextExecution
      let id := executionId micros number
      let kept := w.guestExecutions.filter w.keeps
      if kept.size ≥ maxJobs then
        (.error (.tooManyRequests "too_many_executions"),
          { w with nextExecution := number + 1, guestExecutions := kept })
      else
        (.ok id,
          { w with
            nextExecution := number + 1
            guestExecutions := kept.insert id number
            jobs := Function.update w.jobs number
              (some ⟨id, instanceId, runId, .queued, 0⟩) })

inductive Op where
  /-- Time passes. -/
  | tick (milliseconds : Nat)
  | start (instanceId : String) (request : StartExecution) (lookup : Lookup) (micros : Nat)
  /-- The worker of a job has launched its process. -/
  | launched (n : Nat) (pid : Int)
  /-- The agent reports to the worker that the process has exited. -/
  | exited (n : Nat) (status : Json)
  | failed (n : Nat) (code : ErrorCode)
  /-- A client opens a stream, and asks it for its next event. -/
  | openStream (s : Nat) (executionId : String)
  | poll (s : Nat)

namespace World

/-- A worker changes the state of its job. -/
def modify (w : World) (n : Nat) (state : JobState) : World :=
  { w with jobs := Function.update w.jobs n ((w.jobs n).map fun job => job.modify state) }

/-- The state that a worker's job is in, unless it has ended. -/
def working (w : World) (n : Nat) : Option JobState :=
  ((w.jobs n).map ExecutionJob.state).filter fun state => !state.terminal

/-- One step of a run, if it is possible. -/
def step (w : World) : Op → Option World
  | .tick milliseconds => some { w with clock := w.clock + milliseconds }
  | .start instanceId request lookup micros => some (w.start instanceId request lookup micros).2
  | .launched n pid =>
    match w.working n with
    | some state => if state.phase = .queued then some (w.modify n (state.launched pid)) else none
    | none => none
  | .exited n status =>
    match w.working n with
    | some state =>
      if state.phase = .running then
        match state.completed status w.clock with
        | .ok state =>
          some { w.modify n state with reports := Function.update w.reports n (some status) }
        | .error code => some (w.modify n (state.failed code w.clock))
      else none
    | none => none
  | .failed n code => (w.working n).map fun state => w.modify n (state.failed code w.clock)
  | .openStream s executionId =>
    match w.guestExecutions.get? executionId, w.streams s with
    | some n, none =>
      (w.jobs n).map fun job =>
        { w with
          streams := Function.update w.streams s (some { job := n, seen := job.version }) }
    | _, _ => none
  | .poll s =>
    match w.streams s with
    | none => none
    | some stream =>
      (w.jobs stream.job).map fun job =>
        { w with streams := Function.update w.streams s (some (stream.poll job)) }

end World

/-- The states of the runs. -/
inductive Reachable : World → Prop where
  | initial : Reachable .initial
  | step {w w' : World} {op : Op} (h : Reachable w) (hstep : w.step op = some w') : Reachable w'

end GuestExec

end MachineEmu
