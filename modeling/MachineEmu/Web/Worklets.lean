import MachineEmu.Lib.Bytes
import Mathlib.Data.PNat.Notation

/-!
# The audio worklets

What runs in the audio thread of the web client: a queue of decoded samples, and the frames that the
microphone is cut into. The loops over the channels are functions of the channel.

* `SpicePlaybackProcessor.receive`, `SpicePlaybackProcessor.process` — the speakers.
* `SpiceRecordProcessor.process` — the microphone.
-/

namespace MachineEmu.Web

open Lib

variable {α : Type} [Zero α] {channels : ℕ}

/-- The samples of some channels, equally many of each. -/
structure Planes (α : Type) where
  planes : List (List α)
  frames : ℕ
  nonempty : planes ≠ []
  equal : ∀ plane ∈ planes, plane.length = frames

/-- The samples for a channel: the last plane is for all that have none. -/
def Planes.channel (self : Planes α) (channel : ℕ) : List α :=
  self.planes.getD (min channel (self.planes.length - 1)) []

/-! ## Playback -/

/-- Source: `web/src/spice-audio/worklets.ts` `SpicePlaybackProcessor`. -/
structure SpicePlaybackProcessor (α : Type) where
  queue : List (Planes α) := []
  offset : ℕ := 0
  queued : ℕ := 0
  maxFrames : ℕ
  underruns : ℕ := 0
  dropped : ℕ := 0
  reported : ℕ := 0

/-- A message to the processor. -/
inductive PlaybackMessage (α : Type) where
  | reset
  | planes (planes : Planes α)

/-- What the processor reports. Source: `web/src/spice-audio/playback.ts` `PlaybackStats`. -/
structure PlaybackStats where
  queued : ℕ
  underruns : ℕ
  dropped : ℕ

namespace SpicePlaybackProcessor

/-- Drop the oldest chunks of this queue while it is too long. -/
def shed (self : SpicePlaybackProcessor α) : List (Planes α) → SpicePlaybackProcessor α
  | dropped :: next :: rest =>
    if self.maxFrames < self.queued then
      shed
        { self with
          queued := self.queued - (dropped.frames - self.offset)
          dropped := self.dropped + (dropped.frames - self.offset)
          offset := 0 }
        (next :: rest)
    else { self with queue := dropped :: next :: rest }
  | queue => { self with queue }

/-- Source: `worklets.ts` `SpicePlaybackProcessor`, `port.onmessage`. -/
def receive (self : SpicePlaybackProcessor α) : PlaybackMessage α → SpicePlaybackProcessor α
  | .reset => { self with queue := [], offset := 0, queued := 0 }
  | .planes planes =>
    { self with queued := self.queued + planes.frames }.shed (self.queue ++ [planes])

/-- Write a block from this queue; returns how much of it is written, and the block. -/
def write (frames : ℕ) (self : SpicePlaybackProcessor α) (written : ℕ)
    (output : Fin channels → List α) :
    List (Planes α) → SpicePlaybackProcessor α × ℕ × (Fin channels → List α)
  | [] => ({ self with queue := [] }, written, output)
  | planes :: rest =>
    if written < frames then
      let take := min (planes.frames - self.offset) (frames - written)
      let output := fun channel : Fin channels =>
        splice (output channel) written (slice (planes.channel channel) self.offset take)
      let self :=
        { self with
          offset := self.offset + take
          queued := self.queued - take }
      if planes.frames ≤ self.offset then
        write frames { self with offset := 0 } (written + take) output rest
      -- a chunk that is not used up has filled the block
      else ({ self with queue := planes :: rest }, written + take, output)
    else ({ self with queue := planes :: rest }, written, output)

/-- Source: `worklets.ts` `SpicePlaybackProcessor.process`. -/
def process (sampleRate : ℕ) (self : SpicePlaybackProcessor α) {frames : ℕ}
    (output : Fin channels → Vector α frames) :
    SpicePlaybackProcessor α × (Fin channels → List α) × Option PlaybackStats :=
  let (self, written, output) :=
    self.write frames 0 (fun channel => (output channel).toList) self.queue
  let underruns := self.underruns + (frames - written)
  let output := fun channel =>
    splice (output channel) written (List.replicate (frames - written) 0)
  let reported := self.reported + frames
  if sampleRate ≤ reported then
    ({ self with reported := 0, underruns := 0, dropped := 0 }, output,
      some ⟨self.queued, underruns, self.dropped⟩)
  else ({ self with reported, underruns }, output, none)

end SpicePlaybackProcessor

/-! ## Recording -/

/-- Arrays that are filled with samples and posted when they are full.
Source: `worklets.ts` `SpiceRecordProcessor`. -/
structure SpiceRecordProcessor (α : Type) (channels frameSize : ℕ) where
  planes : Fin channels → List α
  filled : ℕ
  active : Bool
  room : filled < frameSize

namespace SpiceRecordProcessor

variable {frameSize : ℕ}

/-- Source: `worklets.ts` `SpiceRecordProcessor.allocate`. -/
def allocate (frameSize : ℕ) : Fin channels → List α := fun _ => List.replicate frameSize 0

def new (channels : ℕ) (frameSize : ℕ+) : SpiceRecordProcessor α channels frameSize where
  planes := allocate frameSize
  filled := 0
  active := true
  room := frameSize.pos

/-- Source: `worklets.ts` `SpiceRecordProcessor`, `port.onmessage`. -/
def stop (self : SpiceRecordProcessor α channels frameSize) :
    SpiceRecordProcessor α channels frameSize :=
  { self with active := false }

/-- Gather the samples of an input from `read` on; returns what is posted. -/
def gather (self : SpiceRecordProcessor α channels frameSize) (input : Planes α) (read : ℕ) :
    SpiceRecordProcessor α channels frameSize × List (Fin channels → List α) :=
  if hread : read < input.frames then
    let take := min (input.frames - read) (frameSize - self.filled)
    let planes := fun channel : Fin channels =>
      splice (self.planes channel) self.filled (slice (input.channel channel) read take)
    have hroom := self.room
    if hfull : frameSize ≤ self.filled + take then
      let (after, posted) := gather
        { self with planes := allocate frameSize, filled := 0, room := by omega } input
        (read + take)
      (after, planes :: posted)
    else
      gather { self with planes, filled := self.filled + take, room := by omega } input
        (read + take)
  else (self, [])
termination_by input.frames - read

/-- Without an input nothing is done. Source: `worklets.ts` `SpiceRecordProcessor.process`. -/
def process (self : SpiceRecordProcessor α channels frameSize) (input : Option (Planes α)) :
    SpiceRecordProcessor α channels frameSize × List (Fin channels → List α) :=
  match input with
  | none => (self, [])
  | some input => if self.active then self.gather input 0 else (self, [])

end SpiceRecordProcessor

end MachineEmu.Web
