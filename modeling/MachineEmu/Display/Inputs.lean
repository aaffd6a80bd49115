import MachineEmu.Api.ViewerMessages
import MachineEmu.Lib.Merging

/-!
# The queue of inputs of a display

All viewers of a display push their inputs into one queue. A worker waits for a notification, takes
messages until the queue is empty, and waits again.

* `pushInput` — one more input.
* `InputSession.step`, `InputSession.run` — viewers and the worker, in any order.
* `Internal` — the steps that need no new input.
-/

namespace MachineEmu.Display

open Lib

/-- Whether a message is an absolute motion. -/
def isMotion (value : Json) : Bool := messageType value == some "mouse_abs"

/-- Source: `display-stream/src/bin/stream.rs` `Inputs::push`. -/
def pushInput (queue : List Json) (value : Json) : Bool × List Json :=
  Merging.push isMotion 256 queue value

/-- Where the worker is. Source: `display-stream/src/bin/stream.rs` `input_worker`. -/
inductive Worker where
  /-- Before it waits for a notification. -/
  | notified
  | waiting
  /-- Before it takes a message. -/
  | draining
  | forwarding (message : Json)

/-- The queue, the notification, the worker, and what happened. -/
structure InputSession where
  queue : List Json := []
  /-- Whether a notification is stored. -/
  ready : Bool := false
  /-- The pushes that have unlocked the queue and not notified the worker. -/
  notifying : Nat := 0
  worker : Worker := .notified
  /-- The messages whose push succeeded. -/
  accepted : List Json := []
  /-- The messages that the worker took. -/
  taken : List Json := []
  /-- The pushes and pops so far. -/
  ops : List (Merging.Op Json) := []

namespace InputSession

/-- A viewer pushes a message, up to the unlock of the queue. -/
def push (s : InputSession) (value : Json) : InputSession :=
  match pushInput s.queue value with
  | (true, queue) =>
    { s with queue, notifying := s.notifying + 1, accepted := s.accepted ++ [value]
             ops := s.ops ++ [.push value] }
  | (false, queue) => { s with queue, ops := s.ops ++ [.push value] }

/-- `notify_one`: the worker goes on, or finds the notification later. -/
def notify (s : InputSession) : InputSession :=
  match s.notifying with
  | 0 => s
  | notifying + 1 =>
    match s.worker with
    | .waiting => { s with notifying, worker := .draining }
    | _ => { s with notifying, ready := true }

/-- The worker goes on. A message that cannot be forwarded is only reported. -/
def work (s : InputSession) : InputSession :=
  match s.worker with
  | .notified =>
    if s.ready then { s with ready := false, worker := .draining } else { s with worker := .waiting }
  | .waiting => s
  | .draining =>
    match s.queue with
    | [] => { s with worker := .notified, ops := s.ops ++ [.pop] }
    | message :: queue =>
      { s with queue, worker := .forwarding message, taken := s.taken ++ [message]
               ops := s.ops ++ [.pop] }
  | .forwarding _ => { s with worker := .draining }

/-- What happens next. -/
inductive Action where
  | push (value : Json)
  | notify
  | work

def step (s : InputSession) : Action → InputSession
  | .push value => s.push value
  | .notify => s.notify
  | .work => s.work

def run (actions : List Action) : InputSession := actions.foldl step {}

/-- A step of the worker, or a notification that is due. -/
inductive Internal (s : InputSession) : InputSession → Prop
  | notify (h : 0 < s.notifying) : Internal s s.notify
  | work (h : s.worker ≠ .waiting) : Internal s s.work

end InputSession

end MachineEmu.Display
