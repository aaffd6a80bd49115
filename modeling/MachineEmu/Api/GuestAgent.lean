import MachineEmu.Api.GuestExec

/-!
# The guest agent

The daemon talks to the agent in a guest over a socket that one client uses at a time. A reply is a
line without a number, so it belongs to the request whose turn it is. What the agent has sent, or
is about to send, and no client has read stays outstanding, also from one client to the next.

* `readLine`, `reply`, `commandArgs`, `connect` — the client.
* `COMMANDS`, `Session` — what the clients ask for.
* `World`, `World.step` — a guest execution among the other clients.
-/

namespace MachineEmu

open Lib

namespace GuestAgent

open GuestExec

/-! ## Limits -/

def maxReplyBytes : Nat := 1024 * 1024
def maxTotalBytes : Nat := 512 * 1024

/-! ## Reading -/

/-- What the agent sends in reply to a request: a line, or nothing ever. -/
abbrev Answer := Option (List UInt8)

def Answer.bytes : Answer → List UInt8
  | some text => text ++ [10]
  | none => []

/-- Read a line that begins with `line`, of what is outstanding. The numbers are the lengths of the
pieces that arrive during the wait, and an empty piece is the end of the stream. When the wait is
over, what has been read of the line is lost. Source: `api/guest_agent.rs` `Client::reply`, its
loop. -/
def readLine (line outstanding : List UInt8) : List Nat → Option (List UInt8) × List UInt8
  | [] => (none, outstanding)
  | n :: arrivals =>
    let chunk := outstanding.take n
    if chunk = [] then (none, outstanding)
    else
      let size := ((chunk.idxOf? 10).map (· + 1)).getD chunk.length
      if maxReplyBytes < line.length + size then (none, outstanding)
      else
        let read := line ++ chunk.take size
        if read.getLast? = some 10 then (some read, outstanding.drop size)
        else readLine read (outstanding.drop size) arrivals

/-- `strip_prefix` of the byte that resets the agent's parser. -/
def unprefixed (line : List UInt8) : List UInt8 :=
  if line.head? = some 255 then line.tail else line

section Client

variable (fromSlice : List UInt8 → Option Json)

/-- Source: `api/guest_agent.rs` `Client::reply`. -/
def reply (outstanding : List UInt8) (arrivals : List Nat) : Option Json × List UInt8 :=
  match readLine [] outstanding arrivals with
  | (some line, rest) => (fromSlice (unprefixed line), rest)
  | (none, rest) => (none, rest)

/-- The result of a request that has been sent: an error, or what the reply returns. A request that
cannot be sent is one without an answer. Source: `api/guest_agent.rs` `Client::command_args`. -/
def commandArgs (outstanding : List UInt8) (answer : Answer) (arrivals : List Nat) :
    Option (Option Json) × List UInt8 :=
  let (response, rest) := reply fromSlice (outstanding ++ answer.bytes) arrivals
  (response.map fun value => value.field "return", rest)

/-- Read replies until one returns the number, `k` at most. -/
def synchronize (id : Int) : Nat → List UInt8 → List (List Nat) → Bool × List UInt8
  | 0, outstanding, _ => (false, outstanding)
  | k + 1, outstanding, waits =>
    match reply fromSlice outstanding (waits.headD []) with
    | (none, rest) => (false, rest)
    | (some response, rest) =>
      if (response.field "return").bind Json.asI64 = some id then (true, rest)
      else synchronize id k rest waits.tail

/-- Connect and synchronize with the agent; returns whether it did. Source: `api/guest_agent.rs`
`Client::connect`. -/
def connect (outstanding : List UInt8) (id : Int) (answer : Answer) (waits : List (List Nat)) :
    Bool × List UInt8 :=
  synchronize fromSlice id 4 (outstanding ++ answer.bytes) waits

end Client

/-! ## Commands -/

inductive Shell where
  | sh | powershell
  deriving DecidableEq

/-- A request of a client. -/
inductive Command where
  | query (name : String)
  | exec (path : String) (args : List String)
  | status (pid : Int)
  deriving DecidableEq

/-- The commands that ask for information, and what it is called. -/
def COMMANDS : List (String × String) :=
  [("guest-get-host-name", "hostname"),
    ("guest-get-osinfo", "os"),
    ("guest-network-get-interfaces", "interfaces"),
    ("guest-get-fsinfo", "filesystems"),
    ("guest-get-users", "users"),
    ("guest-get-timezone", "timezone"),
    ("guest-get-vcpus", "vcpus")]

/-- The commands that the agent has. Source: `api/guest_agent.rs` `read_information`. -/
def supported (info : Json) : List String :=
  let commands := (((info.field "supported_commands").bind Json.asArr).getD []).filter fun command =>
    (command.field "enabled").bind Json.asBool == some true
  commands.filterMap fun command => (command.field "name").bind Json.asStr

/-- The shell that an execution uses. Source: `api/guest_exec.rs` `run_execution_inner`. -/
def shellOf (result : Option (Option Json)) : Shell :=
  match result with
  | some (some os) =>
    if (os.field "id").bind Json.asStr = some "mswindows" then .powershell else .sh
  | _ => .sh

/-- The request that launches the process of an execution. Source: `api/guest_exec.rs`
`run_execution_inner`. -/
def launchWith (request : StartExecution) : Shell → Command
  | .powershell =>
    .exec "C:\\Windows\\System32\\WindowsPowerShell\\v1.0\\powershell.exe"
      ["-NoProfile", "-NonInteractive", "-Command", request.command]
  | .sh => .exec "/bin/sh" ["-c", request.command]

/-! ## Runs -/

/-- What a client that is connected asks for next: an execution detects the shell, launches its
process or asks for its status; another client asks for the information that is there, with the
bytes it has so far, or for one thing. -/
inductive Session where
  | idle
  | detecting
  | launching (shell : Shell)
  | checking (pid : Int)
  | informing
  | listing (commands : List String) (total : Nat)
  | asking (command : String)
  deriving DecidableEq

/-- A request, what the agent replies to it, how the reply arrives, and the result that is used. -/
structure Exchange where
  command : Command
  answer : Answer
  arrivals : List Nat
  result : Option (Option Json)

/-- A guest execution, the agent's socket, and all requests that were made over it. -/
structure World where
  request : StartExecution
  job : ExecutionJob
  session : Session
  outstanding : List UInt8
  exchanges : List Exchange
  clock : Nat

def World.initial (request : StartExecution) (executionId instanceId runId : String) : World where
  request
  job := ⟨executionId, instanceId, runId, .queued, 0⟩
  session := .idle
  outstanding := []
  exchanges := []
  clock := 0

/-- The purpose of a connection. -/
inductive Purpose where
  | launch | check | inform | ask (command : String)

inductive Op where
  | tick (milliseconds : Nat)
  /-- Between two connections, replies are lost or others are left outstanding. -/
  | elsewhere (outstanding : List UInt8)
  /-- The execution fails before it makes a connection. -/
  | abort (code : ErrorCode)
  /-- A client connects with the number `id`. -/
  | connect (purpose : Purpose) (id : Int) (answer : Answer) (waits : List (List Nat))
  /-- The client that is connected makes its next request. -/
  | command (answer : Answer) (arrivals : List Nat)

/-- The errors that do not come from a reply. -/
def abortCodes : List ErrorCode :=
  [.executionUnavailable, .runChanged, .agentUnavailable, .executionTimeout]

/-- A reply is one line. -/
def Answer.isLine : Answer → Bool
  | some text => !text.contains 10
  | none => true

namespace World

variable (fromSlice : List UInt8 → Option Json) (w : World)

/-- The execution ends with an error. -/
def fail (code : ErrorCode) : World :=
  { w with job := w.job.modify (w.job.state.failed code w.clock), session := .idle }

/-- The first session of a client. An execution that has not been launched yet connects to launch
its process, and one that has to ask for its status. -/
def opened : Purpose → Option Session
  | .launch =>
    if w.job.state.phase = .queued then
      some (if w.request.shell = "auto" then .detecting
        else .launching (if w.request.shell = "powershell" then .powershell else .sh))
    else none
  | .check =>
    match w.job.state.phase, w.job.state.guestPid with
    | .running, some pid => some (.checking pid)
    | _, _ => none
  | .inform => some .informing
  | .ask command => some (.asking command)

/-- A connection that cannot be made ends the execution it is for. -/
def refused : Purpose → World
  | .launch | .check => w.fail .agentUnavailable
  | _ => { w with session := .idle }

def connect (purpose : Purpose) (id : Int) (answer : Answer) (waits : List (List Nat)) :
    Option World :=
  match w.session, w.opened purpose with
  | .idle, some session =>
    let (synchronized, outstanding) := GuestAgent.connect fromSlice w.outstanding id answer waits
    let w := { w with outstanding }
    some (if synchronized then { w with session } else w.refused purpose)
  | _, _ => none

/-- The next request of the session. -/
def nextCommand : Option Command :=
  match w.session with
  | .idle => none
  | .detecting => some (.query "guest-get-osinfo")
  | .launching shell => some (launchWith w.request shell)
  | .checking pid => some (.status pid)
  | .informing => some (.query "guest-info")
  | .listing [] _ => none
  | .listing (command :: _) _ => some (.query command)
  | .asking command => some (.query command)

/-- The reply to `guest-exec`. Source: `api/guest_exec.rs` `run_execution_inner`. -/
def afterLaunch (result : Option (Option Json)) : World :=
  match result with
  | none => w.fail .agentUnavailable
  | some none => w.fail .guestExecFailed
  | some (some launched) =>
    match (launched.field "pid").bind Json.asI64 with
    | none => w.fail .invalidAgentResponse
    | some pid => { w with job := w.job.modify (w.job.state.launched pid), session := .idle }

/-- The reply to `guest-exec-status`. Source: `api/guest_exec.rs` `run_execution_inner`. -/
def afterCheck (result : Option (Option Json)) : World :=
  match result with
  | none => w.fail .agentUnavailable
  | some none => w.fail .guestExecStatusFailed
  | some (some status) =>
    if (status.field "exited").bind Json.asBool = some true then
      match w.job.state.completed status w.clock with
      | .error code => w.fail code
      | .ok state => { w with job := w.job.modify state, session := .idle }
    else { w with session := .idle }

/-- The reply to a request for information. Source: `api/guest_agent.rs` `read_information`. -/
def afterListing (commands : List String) (total : Nat) (result : Option (Option Json)) : Session :=
  match result with
  | none => .idle
  | some none => .listing commands total
  | some (some value) =>
    if maxTotalBytes < total + value.render.utf8ByteSize then .idle
    else .listing commands (total + value.render.utf8ByteSize)

/-- What a session makes of the result of its request. -/
def after (result : Option (Option Json)) : World :=
  match w.session with
  | .idle => w
  | .detecting => { w with session := .launching (shellOf result) }
  | .launching _ => w.afterLaunch result
  | .checking _ => w.afterCheck result
  | .informing =>
    match result with
    | some (some info) =>
      let commands := (COMMANDS.map Prod.fst).filter fun command => (supported info).contains command
      { w with session := .listing commands 0 }
    | _ => { w with session := .idle }
  | .listing [] _ => { w with session := .idle }
  | .listing (_ :: commands) total => { w with session := afterListing commands total result }
  | .asking _ => { w with session := .idle }

def command (answer : Answer) (arrivals : List Nat) : Option World :=
  match w.nextCommand with
  | some command =>
    let (result, outstanding) := commandArgs fromSlice w.outstanding answer arrivals
    let exchange : Exchange := ⟨command, answer, arrivals, result⟩
    let w := { w with outstanding, exchanges := w.exchanges ++ [exchange] }
    some (w.after result)
  | none =>
    match w.session with
    | .listing [] _ => some { w with session := .idle }
    | _ => none

/-- One step of a run, if it is possible. -/
def step : Op → Option World
  | .tick milliseconds => some { w with clock := w.clock + milliseconds }
  | .elsewhere outstanding =>
    if w.session = .idle ∧ (outstanding = [] ∨ outstanding.getLast? = some 10) then
      some { w with outstanding }
    else none
  | .abort code =>
    if w.session = .idle ∧ w.job.state.terminal = false ∧ code ∈ abortCodes then some (w.fail code)
    else none
  | .connect purpose id answer waits =>
    if answer.isLine then w.connect fromSlice purpose id answer waits else none
  | .command answer arrivals => if answer.isLine then w.command fromSlice answer arrivals else none

end World

/-- The states of the runs whose steps are all allowed. -/
inductive Reachable (fromSlice : List UInt8 → Option Json) (allowed : World → Op → Prop) :
    World → Prop where
  | initial (request : StartExecution) (executionId instanceId runId : String) :
      Reachable fromSlice allowed (.initial request executionId instanceId runId)
  | step {w w' : World} {op : Op} (h : Reachable fromSlice allowed w) (hallowed : allowed w op)
      (hstep : w.step fromSlice op = some w') : Reachable fromSlice allowed w'

end GuestAgent

end MachineEmu
