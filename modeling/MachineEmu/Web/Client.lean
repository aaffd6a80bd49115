import MachineEmu.Lib.Slot

/-!
# The audio client of the web console

The client attaches to a session, links a main and a playback channel, and links a record channel
when the operator turns the microphone on. Each of these waits several times, and other calls come
in between.

* `AudioClient.start`, `stop`, `enableMicrophone`, `disableMicrophone` — the calls.
* `AudioClient.attached` and those after it — how a call goes on after one of its waits.
* `AudioClient.mainClosed`, `playbackClosed`, `recordClosed` — channels that the server closes.
* `AudioClient.step`, `AudioClient.run` — all of it, in any order.
-/

namespace MachineEmu.Web

open Lib

/-- Source: `web/src/spice-audio/client.ts` `SpiceAudioClient`. -/
structure AudioClient where
  /-- Whether there is a client token. -/
  token : Bool := false
  main : Slot := {}
  playbackChannel : Slot := {}
  recordChannel : Slot := {}
  playback : Bool := false
  record : Bool := false
  context : Slot := {}
  renewTimer : Slot := {}
  captureTimer : Slot := {}
  stopped : Bool := false
  /-- The calls of `start` that wait for the attach, for the main link, for `MSG_MAIN_INIT` on a
  channel, for the context, and for the playback link. -/
  attaching : Nat := 0
  linkingMain : Nat := 0
  initialising : List Nat := []
  resuming : Nat := 0
  linkingPlayback : Nat := 0
  /-- The calls of `enableMicrophone` that wait for the claim, and for the record link. -/
  claiming : Nat := 0
  linkingRecord : Nat := 0
  /-- The renewals of the binding and of the capture lease that are on their way. -/
  renewing : Nat := 0
  reclaiming : Nat := 0
  /-- The channels, timers and contexts so far. -/
  opened : Nat := 0
  /-- Whether `stop` was called, and neither `start` nor `enableMicrophone` began after it. -/
  stopLast : Bool := false
  /-- Whether `disableMicrophone` was called, and `enableMicrophone` did not begin after it. -/
  disableLast : Bool := false

namespace AudioClient

/-! ## Calls -/

/-- Up to its wait. Source: `stop`. -/
def close (s : AudioClient) : AudioClient :=
  { s with
    stopped := true, captureTimer := s.captureTimer.close, renewTimer := s.renewTimer.close
    record := false, playback := false, recordChannel := s.recordChannel.close
    playbackChannel := s.playbackChannel.close, main := s.main.close, context := s.context.close
    token := false }

/-- Source: `fail`. -/
def fail (s : AudioClient) : AudioClient := s.close

/-- Up to its wait. Source: `disableMicrophone`. -/
def closeMicrophone (s : AudioClient) : AudioClient :=
  { s with
    captureTimer := s.captureTimer.close, record := false, recordChannel := s.recordChannel.close }

/-- Up to the first wait. Source: `start`. -/
def start (s : AudioClient) : AudioClient :=
  if s.main.held.isSome then s
  else { s with stopped := false, attaching := s.attaching + 1, stopLast := false }

/-- Up to the first wait. Source: `enableMicrophone`. -/
def enableMicrophone (s : AudioClient) : AudioClient :=
  if s.token = false ∨ s.main.held = none ∨ s.recordChannel.held.isSome then s
  else { s with claiming := s.claiming + 1, stopLast := false, disableLast := false }

/-! ## After the waits of `start` -/

def attached (s : AudioClient) (ok : Bool) : AudioClient :=
  match s.attaching with
  | 0 => s
  | attaching + 1 =>
    if ok then
      { s with attaching, linkingMain := s.linkingMain + 1, token := true
               renewTimer := s.renewTimer.assign s.opened, opened := s.opened + 1 }
    else { s with attaching }.fail

def linkedMain (s : AudioClient) (ok : Bool) : AudioClient :=
  match s.linkingMain with
  | 0 => s
  | linkingMain + 1 =>
    if ok then
      { s with linkingMain, initialising := s.initialising ++ [s.opened]
               main := s.main.assign s.opened, opened := s.opened + 1 }
    else { s with linkingMain }.fail

/-- The main channel sends `MSG_MAIN_INIT`. Where there is no main channel then, `send` throws. -/
def initialised (s : AudioClient) (channel : Nat) (suspended : Bool) : AudioClient :=
  if channel ∈ s.initialising ∧ channel ∈ s.main.live then
    let s := { s with initialising := s.initialising.erase channel }
    if s.main.held = none then s.fail
    else
      let s := { s with context := s.context.assign s.opened, opened := s.opened + 1 }
      if suspended then { s with resuming := s.resuming + 1 }
      else { s with playback := true, linkingPlayback := s.linkingPlayback + 1 }
  else s

/-- The main channel sends nothing for five seconds. -/
def initTimeout (s : AudioClient) (channel : Nat) : AudioClient :=
  if channel ∈ s.initialising then
    { s with initialising := s.initialising.erase channel }.fail
  else s

def resumed (s : AudioClient) (ok : Bool) : AudioClient :=
  match s.resuming with
  | 0 => s
  | resuming + 1 =>
    if ok then { s with resuming, playback := true, linkingPlayback := s.linkingPlayback + 1 }
    else { s with resuming }.fail

def linkedPlayback (s : AudioClient) (ok : Bool) : AudioClient :=
  match s.linkingPlayback with
  | 0 => s
  | linkingPlayback + 1 =>
    if ok then
      { s with linkingPlayback, playbackChannel := s.playbackChannel.assign s.opened
               opened := s.opened + 1 }
    else { s with linkingPlayback }.fail

/-! ## After the waits of `enableMicrophone` -/

def claimed (s : AudioClient) (ok : Bool) : AudioClient :=
  match s.claiming with
  | 0 => s
  | claiming + 1 =>
    if ok then
      { s with claiming, linkingRecord := s.linkingRecord + 1
               captureTimer := s.captureTimer.assign s.opened, opened := s.opened + 1 }
    else { s with claiming }

def linkedRecord (s : AudioClient) (ok : Bool) : AudioClient :=
  match s.linkingRecord with
  | 0 => s
  | linkingRecord + 1 =>
    if ok then
      { s with linkingRecord, record := true, recordChannel := s.recordChannel.assign s.opened
               opened := s.opened + 1 }
    else { s with linkingRecord }.closeMicrophone

/-! ## Timers -/

/-- Source: `renew`, up to its wait. -/
def renewTick (s : AudioClient) : AudioClient :=
  if s.renewTimer.live = [] ∨ s.token = false ∨ s.stopped then s
  else { s with renewing := s.renewing + 1 }

/-- Source: `renew`. -/
def renewed (s : AudioClient) (ok : Bool) : AudioClient :=
  match s.renewing with
  | 0 => s
  | renewing + 1 => if ok then { s with renewing } else { s with renewing }.fail

/-- The timer of the capture lease. Source: `enableMicrophone`. -/
def captureTick (s : AudioClient) : AudioClient :=
  if s.captureTimer.live = [] then s else { s with reclaiming := s.reclaiming + 1 }

def captureRenewed (s : AudioClient) (ok : Bool) : AudioClient :=
  match s.reclaiming with
  | 0 => s
  | reclaiming + 1 =>
    if ok then { s with reclaiming } else { s with reclaiming }.closeMicrophone

/-! ## Channels that the server closes -/

/-- A `start` that waits on the channel fails as well. -/
def mainClosed (s : AudioClient) (channel : Nat) : AudioClient :=
  if channel ∈ s.main.live then
    { s with main := s.main.lose channel, initialising := s.initialising.erase channel }.fail
  else s

def playbackClosed (s : AudioClient) (channel : Nat) : AudioClient :=
  { s with playbackChannel := s.playbackChannel.lose channel }

def recordClosed (s : AudioClient) (channel : Nat) : AudioClient :=
  if channel ∈ s.recordChannel.live then
    { s with record := false, recordChannel := { s.recordChannel.lose channel with held := none }
             captureTimer := s.captureTimer.close }
  else s

/-! ## Runs -/

/-- What happens next. -/
inductive Action where
  | start
  | stop
  | enableMicrophone
  | disableMicrophone
  | attached (ok : Bool)
  | linkedMain (ok : Bool)
  | initialised (channel : Nat) (suspended : Bool)
  | initTimeout (channel : Nat)
  | resumed (ok : Bool)
  | linkedPlayback (ok : Bool)
  | claimed (ok : Bool)
  | linkedRecord (ok : Bool)
  | renewTick
  | renewed (ok : Bool)
  | captureTick
  | captureRenewed (ok : Bool)
  | mainClosed (channel : Nat)
  | playbackClosed (channel : Nat)
  | recordClosed (channel : Nat)

def step (s : AudioClient) : Action → AudioClient
  | .start => s.start
  | .stop => { s with stopLast := true }.close
  | .enableMicrophone => s.enableMicrophone
  | .disableMicrophone => { s with disableLast := true }.closeMicrophone
  | .attached ok => s.attached ok
  | .linkedMain ok => s.linkedMain ok
  | .initialised channel suspended => s.initialised channel suspended
  | .initTimeout channel => s.initTimeout channel
  | .resumed ok => s.resumed ok
  | .linkedPlayback ok => s.linkedPlayback ok
  | .claimed ok => s.claimed ok
  | .linkedRecord ok => s.linkedRecord ok
  | .renewTick => s.renewTick
  | .renewed ok => s.renewed ok
  | .captureTick => s.captureTick
  | .captureRenewed ok => s.captureRenewed ok
  | .mainClosed channel => s.mainClosed channel
  | .playbackClosed channel => s.playbackClosed channel
  | .recordClosed channel => s.recordClosed channel

def run (actions : List Action) : AudioClient := actions.foldl step {}

/-- Nothing is awaited. -/
def Quiet (s : AudioClient) : Prop :=
  s.attaching = 0 ∧ s.linkingMain = 0 ∧ s.initialising = [] ∧ s.resuming = 0 ∧
    s.linkingPlayback = 0 ∧ s.claiming = 0 ∧ s.linkingRecord = 0 ∧ s.renewing = 0 ∧
      s.reclaiming = 0

end AudioClient

end MachineEmu.Web
