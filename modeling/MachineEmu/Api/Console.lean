import MachineEmu.Lib.TextLines
import MachineEmu.Lib.Utf8

/-!
# Logs

The daemon answers with the last lines of a log. The client asks again and again, and prints what is
new.

* `logContent` — what the daemon answers.
* `Follower.poll` — what the client prints of it.
* `followLog` — the client with a log that grows.
-/

namespace MachineEmu.Console

open Lib

/-- Source: `api/console.rs` `logs`. -/
def logContent (bytes : List UInt8) (count : Nat) : List Char :=
  Text.tail (Utf8.lossy bytes) (min count 100000)

/-- The part of an answer that is new. Source: `cli/console.rs` `logs`. -/
def addition (previous content : List Char) : List Char :=
  if previous.isPrefixOf content then content.drop previous.length else content

/-- The client: the last answer, and what it has printed. -/
structure Follower where
  previous : List Char := []
  printed : List Char := []

/-- The client asks once, with the log as it is then. Source: `cli/console.rs` `logs`. -/
def Follower.poll (count : Nat) (f : Follower) (bytes : List UInt8) : Follower :=
  let content := logContent bytes count
  { previous := content, printed := f.printed ++ addition f.previous content }

/-- A log as it is when the client asks, after each growth. -/
def grown (log : List UInt8) : List (List UInt8) → List (List UInt8)
  | [] => [log]
  | more :: rest => log :: grown (log ++ more) rest

/-- The client with `--follow`, for a log and what is appended between two polls. -/
def followLog (count : Nat) (log : List UInt8) (appended : List (List UInt8)) : Follower :=
  (grown log appended).foldl (Follower.poll count) {}

end MachineEmu.Console
