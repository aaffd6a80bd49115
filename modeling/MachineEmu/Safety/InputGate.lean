import MachineEmu.Api.InputGate
import MachineEmu.Api.SpiceAudio
import MachineEmu.Lib.Framing
import Mathlib.Data.List.Infix

/-!
# A console's stream may be cut anywhere

The gate of a console has no limit that depends on the chunks: what it keeps is less than one
message. So it refuses a stream, however it is cut, or forwards the same bytes.

* `RfbState.parse`, `rfbMessages` — the handshake byte by byte and then the messages, as a framing.
* `RfbInputGate.feed_eq` — a gate drains this framing.
* `rfb_gate` — the result.
-/

namespace MachineEmu

open Lib List Framing

variable {bs : List UInt8}

theorem beNat_slice_append {offset n : Nat} (h : offset + n ≤ bs.length)
    (later : List UInt8) : beNat (slice (bs ++ later) offset n) = beNat (slice bs offset n) := by
  rw [slice_append h]

namespace RfbInputGate

/-- Whatever the length is, it is positive and it is known after nine bytes. -/
theorem kindSize_cases (data : List UInt8) :
    (∃ e, kindSize data = .error e) ∨ (kindSize data = .ok none ∧ data.length < 9) ∨
      ∃ size, kindSize data = .ok (some size) ∧ 0 < size := by
  unfold kindSize
  split <;> (repeat' split) <;> simp <;> omega

variable {data : List UInt8}

/-- More bytes change nothing about a length that is known. -/
theorem kindSize_append (hdata : data ≠ []) (h : kindSize data ≠ .ok none)
    (later : List UInt8) : kindSize (data ++ later) = kindSize data := by
  have hgrow : (data ++ later).length = data.length + later.length := length_append
  have hfront : (data ++ later).getD 0 0 = data.getD 0 0 :=
    getD_append_of_lt (length_pos_of_ne_nil hdata) later
  unfold kindSize at h ⊢
  rw [hfront]
  split <;> simp only [*] at h ⊢ <;> grind [getD_append_of_lt, beNat_slice_append]

theorem messageSize_some {size : Nat} (h : messageSize data = .ok (some size)) :
    0 < size ∧ size ≤ maxMessage := by
  unfold messageSize at h
  split at h
  · cases h
  · cases h
  · next hkind =>
    split at h
    · cases h
    · next hfits =>
      cases h
      obtain ⟨e, hbad⟩ | ⟨hnone, -⟩ | ⟨size', hsome, hpos⟩ := kindSize_cases data
      · simp [hbad] at hkind
      · simp [hnone] at hkind
      · simp only [hsome, Except.ok.injEq, Option.some.injEq] at hkind
        omega

theorem messageSize_none (h : messageSize data = .ok none) : data.length < 9 := by
  unfold messageSize at h
  obtain ⟨e, hbad⟩ | ⟨hnone, hshort⟩ | ⟨size, hsome, hpos⟩ := kindSize_cases data
  · simp [hbad] at h
  · exact hshort
  · rw [hsome] at h
    dsimp only at h
    split at h
    · cases h
    · cases h

theorem messageSize_append (hdata : data ≠ [])
    (h : messageSize data ≠ .ok none) (later : List UInt8) :
    messageSize (data ++ later) = messageSize data := by
  have hkind : kindSize data ≠ .ok none := by
    intro hnone
    apply h
    rw [messageSize, hnone]
  rw [messageSize, messageSize, kindSize_append hdata hkind]

end RfbInputGate

namespace RfbState

/-- What is at the front: a byte of the handshake, or a message. -/
def parse (allowInput : Bool) (self : RfbState) (bs : List UInt8) :
    Parse RfbState (List UInt8) :=
  match bs, self.handshake with
  | [], _ => .more
  | b :: _, needed :: later =>
    if 1 < needed then .unit 1 { self with handshake := (needed - 1) :: later } [b]
    else
      match self.complete b later with
      | .error _ => .bad
      | .ok next => .unit 1 next [b]
  | _ :: _, [] =>
    match RfbInputGate.messageSize bs with
    | .error _ => .bad
    | .ok none => .more
    | .ok (some size) =>
      if bs.length < size then .more
      else .unit size self (RfbInputGate.passed allowInput (bs.take size))

variable {allowInput : Bool}

theorem parse_append {self : RfbState} (h : self.parse allowInput bs ≠ .more)
    (later : List UInt8) : self.parse allowInput (bs ++ later) = self.parse allowInput bs := by
  cases bs with
  | nil => exact absurd rfl h
  | cons b bs =>
    unfold parse at h ⊢
    rw [cons_append]
    cases hshake : self.handshake with
    | cons needed rest => rfl
    | nil =>
      simp only [hshake] at h ⊢
      rw [← cons_append, RfbInputGate.messageSize_append (cons_ne_nil b bs)]
      · cases hsize : RfbInputGate.messageSize (b :: bs) with
        | error e => rfl
        | ok size =>
          cases size with
          | none => rfl
          | some size =>
            simp only [hsize] at h ⊢
            have hwhole : ¬ (b :: bs).length < size := fun hshort => h (if_pos hshort)
            have hgrow : ((b :: bs) ++ later).length = (b :: bs).length + later.length :=
              length_append
            rw [if_neg hwhole, if_neg (by omega), take_append_of_le_length (by omega)]
      · intro hnone
        rw [hnone] at h
        exact h rfl

theorem parse_bound {self next : RfbState} {v : List UInt8} {n : Nat}
    (h : self.parse allowInput bs = .unit n next v) : 0 < n ∧ n ≤ bs.length := by
  unfold parse at h
  split at h
  · cases h
  · split at h
    · cases h
      exact ⟨Nat.one_pos, Nat.succ_pos _⟩
    · split at h
      · cases h
      · cases h
        exact ⟨Nat.one_pos, Nat.succ_pos _⟩
  · split at h
    · cases h
    · cases h
    · next size hsize =>
      split at h
      · cases h
      · next hwhole =>
        cases h
        exact ⟨(RfbInputGate.messageSize_some hsize).1, Nat.not_lt.1 hwhole⟩

theorem parse_ne_rest {self : RfbState} : self.parse allowInput bs ≠ .rest := by
  unfold parse
  split
  · exact nofun
  · split
    · exact nofun
    · split <;> exact nofun
  · split
    · exact nofun
    · exact nofun
    · split <;> exact nofun

end RfbState

/-- The handshake and the messages of a viewer. -/
def rfbMessages (allowInput : Bool) : Framing RfbState UInt8 (List UInt8) where
  parse := RfbState.parse allowInput
  unit_bound h := RfbState.parse_bound h
  unit_append h later := by rw [RfbState.parse_append (by rw [h]; exact nofun), h]
  bad_append h later := by rw [RfbState.parse_append (by rw [h]; exact nofun), h]
  rest_always h := absurd h RfbState.parse_ne_rest

/-! ## A gate drains the framing -/

namespace RfbState

/-- No part of the handshake is over already. -/
def Open (self : RfbState) : Prop := ∀ needed ∈ self.handshake, 0 < needed

variable {allowInput : Bool} {self next : RfbState} {needed : Nat} {later : List Nat}
  {bs : List UInt8}

theorem Open.complete {last : UInt8} (hopen : self.Open) (hshake : self.handshake = needed :: later)
    (h : self.complete last later = .ok next) : next.Open := by
  have hlater : ∀ needed ∈ later, 0 < needed := fun n hn =>
    hopen n (by rw [hshake]; exact mem_cons_of_mem _ hn)
  unfold RfbState.complete at h
  split at h
  · split at h
    · cases h
      exact hlater
    · split at h
      · cases h
        intro n hn
        rcases mem_cons.1 hn with rfl | hn
        · decide
        · exact hlater n hn
      · cases h
  · cases h
    exact hlater

/-- Bytes that do not complete the first part are taken one by one. -/
theorem drain_part {taken : Nat} (hshake : self.handshake = needed :: later) (htaken : taken < needed)
    (hbs : taken ≤ bs.length) :
    (rfbMessages allowInput).drain self bs =
      ((rfbMessages allowInput).drain { self with handshake := (needed - taken) :: later }
        (bs.drop taken)).map (Framing.Drained.after ((bs.take taken).map fun b => [b])) := by
  induction taken generalizing self needed bs with
  | zero =>
    have hself : { self with handshake := (needed - 0) :: later } = self := by
      rw [Nat.sub_zero, ← hshake]
    rw [hself]
    cases hdrain : (rfbMessages allowInput).drain self bs <;> simp [hdrain, Framing.Drained.after]
  | succ taken ih =>
    cases bs with
    | nil => cases hbs
    | cons b bs =>
      have hunit : (rfbMessages allowInput).parse self (b :: bs) =
          .unit 1 { self with handshake := (needed - 1) :: later } [b] := by
        simp only [rfbMessages, parse, hshake]
        rw [if_pos (by omega)]
      have hstate : needed - 1 - taken = needed - (taken + 1) := by omega
      have hrest := @ih { self with handshake := (needed - 1) :: later } (needed - 1) bs rfl
        (by omega) (Nat.le_of_succ_le_succ hbs)
      rw [drain_of_unit hunit, drop_succ_cons, drop_zero, hrest, map_after_after, hstate]
      rfl

/-- The byte that completes the first part. -/
theorem drain_complete {b : UInt8} (hshake : self.handshake = 1 :: later) :
    (rfbMessages allowInput).drain self (b :: bs) =
      (self.complete b later).toOption.bind fun next =>
        ((rfbMessages allowInput).drain next bs).map (Framing.Drained.after [[b]]) := by
  have hparse : (rfbMessages allowInput).parse self (b :: bs) =
      match self.complete b later with
      | .error _ => .bad
      | .ok next => .unit 1 next [b] := by
    simp only [rfbMessages, parse, hshake]
    rfl
  cases hcomplete : self.complete b later with
  | error e =>
    rw [hcomplete] at hparse
    rw [drain_of_bad hparse]
    rfl
  | ok next =>
    rw [hcomplete] at hparse
    rw [drain_of_unit hparse]
    rfl

/-- What the loop over the handshake has done. -/
def Shaken (allowInput : Bool) (self : RfbState) (data output : List UInt8) :
    Except String (List UInt8 × List UInt8 × RfbState) → Prop
  | .error _ => (rfbMessages allowInput).drain self data = none
  | .ok (output', rest, next) =>
    next.Open ∧ (next.handshake ≠ [] → rest = []) ∧
      ∃ units, output' = output ++ units.flatten ∧ (rfbMessages allowInput).drain self data =
        ((rfbMessages allowInput).drain next rest).map (Framing.Drained.after units)

theorem shaken_here {data output : List UInt8} (hopen : self.Open)
    (hdata : self.handshake ≠ [] → data = []) :
    Shaken allowInput self data output (.ok (output, data, self)) :=
  ⟨hopen, hdata, [], by simp, (map_after_nil _).symm⟩

/-- The loop goes on after some units. -/
theorem Shaken.after {data rest output : List UInt8} {units : List (List UInt8)}
    {result : Except String (List UInt8 × List UInt8 × RfbState)}
    (hdrain : (rfbMessages allowInput).drain self data =
      ((rfbMessages allowInput).drain next rest).map (Framing.Drained.after units))
    (h : Shaken allowInput next rest (output ++ units.flatten) result) :
    Shaken allowInput self data output result := by
  cases result with
  | error e =>
    unfold Shaken at h ⊢
    rw [hdrain, h]
    rfl
  | ok result =>
    obtain ⟨hopen, hrest, later, houtput, hlater⟩ := h
    refine ⟨hopen, hrest, units ++ later, ?_, ?_⟩
    · rw [houtput, flatten_append, append_assoc]
    · rw [hdrain, hlater, map_after_after]

/-- The last byte of a front and what comes after the front. -/
theorem drop_pred_eq {n : Nat} {d : UInt8} (hn : 0 < n) (hbs : n ≤ bs.length) :
    bs.drop (n - 1) = (bs.take n).getLastD d :: bs.drop n ∧
      bs.take n = bs.take (n - 1) ++ [(bs.take n).getLastD d] := by
  obtain ⟨k, rfl⟩ : ∃ k, n = k + 1 := ⟨n - 1, by omega⟩
  have hk : k < bs.length := by omega
  have hlast : (bs.take (k + 1)).getLastD d = bs[k] := by
    rw [take_succ_eq_append_getElem hk, getLastD_concat]
  rw [hlast, Nat.add_sub_cancel]
  exact ⟨drop_eq_getElem_cons hk, take_succ_eq_append_getElem hk⟩

theorem shake_drains (allowInput : Bool) {fuel : Nat} {data : List UInt8} (output : List UInt8)
    (hopen : self.Open) (hfuel : data.length < fuel) :
    Shaken allowInput self data output (self.shake fuel data output) := by
  induction fuel generalizing self data output with
  | zero => omega
  | succ fuel ih =>
    unfold shake
    split
    · next hshake => exact shaken_here hopen fun h => absurd hshake h
    · exact shaken_here hopen fun _ => rfl
    · next needed later first bs hshake =>
      have hneeded : 0 < needed := hopen needed (by rw [hshake]; exact mem_cons_self)
      have hlength : (first :: bs).length = bs.length + 1 := rfl
      have hflatten : ∀ front : List UInt8, (front.map fun b => [b]).flatten = front :=
        flatMap_singleton'
      dsimp only
      split
      · next hover =>
        -- the last byte of this part is in the chunk
        have htaken : min needed (first :: bs).length = needed := by omega
        have hwhole : needed ≤ (first :: bs).length := by omega
        rw [htaken]
        obtain ⟨hdrop, htake⟩ := drop_pred_eq (d := first) hneeded hwhole
        have hone : needed - (needed - 1) = 1 := by omega
        refine Shaken.after (drain_part hshake (Nat.sub_lt hneeded Nat.one_pos) (by omega)) ?_
        rw [hflatten, hdrop, hone]
        have hlast := @drain_complete allowInput
          { self with handshake := 1 :: later } later ((first :: bs).drop needed)
          (((first :: bs).take needed).getLastD first) rfl
        have hsame : { self with handshake := 1 :: later }.complete
            (((first :: bs).take needed).getLastD first) later =
              self.complete (((first :: bs).take needed).getLastD first) later := rfl
        rw [hsame] at hlast
        split
        · next hbad =>
          rw [hbad] at hlast
          exact hlast
        · next next hnext =>
          rw [hnext] at hlast
          refine Shaken.after hlast ?_
          rw [flatten_singleton, append_assoc, ← htake]
          refine ih _ (hopen.complete hshake hnext) ?_
          rw [length_drop]
          omega
      · next hshort =>
        have htaken : min needed (first :: bs).length < needed := by omega
        refine Shaken.after (drain_part hshake htaken (by omega)) ?_
        rw [hflatten]
        refine ih _ ?_ ?_
        · intro n hn
          rcases mem_cons.1 hn with rfl | hn
          · omega
          · exact hopen n (by rw [hshake]; exact mem_cons_of_mem _ hn)
        · rw [length_drop]
          omega

end RfbState

namespace RfbInputGate

variable {allowInput : Bool}

/-- The loop over the messages drains them, and what it leaves is less than one message. -/
theorem loop_drains (allowInput : Bool) {state : RfbState} (hdone : state.handshake = [])
    {fuel : Nat} {buffer : List UInt8} (output : List UInt8) (hfuel : buffer.length < fuel) :
    match loop allowInput fuel buffer output with
    | .error _ => (rfbMessages allowInput).drain state buffer = none
    | .ok (output', rest) => rest.length ≤ maxMessage ∧ ∃ units,
        output' = output ++ units.flatten ∧
          (rfbMessages allowInput).drain state buffer = some ⟨state, rest, units⟩ := by
  induction fuel generalizing buffer output with
  | zero => omega
  | succ fuel ih =>
    have hparse : ∀ b bs, buffer = b :: bs → (rfbMessages allowInput).parse state buffer =
        match messageSize buffer with
        | .error _ => .bad
        | .ok none => .more
        | .ok (some size) =>
          if buffer.length < size then .more
          else .unit size state (passed allowInput (buffer.take size)) := by
      rintro b bs rfl
      simp only [rfbMessages, RfbState.parse, hdone]
    unfold loop
    cases buffer with
    | nil =>
      rw [if_pos rfl]
      exact ⟨Nat.zero_le _, [], by simp, drain_of_more rfl⟩
    | cons b bs =>
      rw [if_neg (cons_ne_nil b bs)]
      replace hparse := hparse b bs rfl
      cases hsize : messageSize (b :: bs) with
      | error e =>
        rw [hsize] at hparse
        exact drain_of_bad hparse
      | ok known =>
        rw [hsize] at hparse
        cases known with
        | none =>
          have hshort := messageSize_none hsize
          exact ⟨by unfold maxMessage; omega, [], by simp, drain_of_more hparse⟩
        | some size =>
          obtain ⟨hpos, hlimit⟩ := messageSize_some hsize
          dsimp only at hparse ⊢
          split at hparse
          · next hpart =>
            rw [if_pos hpart]
            exact ⟨by omega, [], by simp, drain_of_more hparse⟩
          · next hwhole =>
            rw [if_neg hwhole]
            have hrest := @ih ((b :: bs).drop size)
              (output ++ passed allowInput ((b :: bs).take size)) (by
                rw [length_drop]
                omega)
            rw [drain_of_unit hparse]
            split at hrest
            · rw [hrest]
              rfl
            · next output' rest hok =>
              obtain ⟨hfits, units, houtput, hdrain⟩ := hrest
              refine ⟨hfits, passed allowInput ((b :: bs).take size) :: units, ?_, ?_⟩
              · rw [houtput, flatten_cons, append_assoc]
              · rw [hdrain]
                rfl

/-- What a gate is between two chunks. -/
structure Ready (gate : RfbInputGate) : Prop where
  opened : gate.toRfbState.Open
  empty : gate.handshake ≠ [] → gate.buffer = []

theorem ready_default : Ready {} := ⟨by unfold RfbState.Open; decide, fun _ => rfl⟩

/-- The messages of a chunk, once the handshake is over. -/
def finish (allowInput : Bool) (state : RfbState) (buffer output : List UInt8) :
    Except String (List UInt8 × RfbInputGate) :=
  match loop allowInput (buffer.length + 1) buffer output with
  | .error e => .error e
  | .ok (output, buffer) =>
    if maxMessage < buffer.length then .error "RFB message too large"
    else .ok (output, ⟨state, buffer⟩)

theorem finish_eq (allowInput : Bool) {state : RfbState} (hdone : state.handshake = []) (buffer output : List UInt8) :
    (finish allowInput state buffer output).toOption =
        ((rfbMessages allowInput).drain state buffer).map (fun d =>
          (output ++ d.units.flatten, (⟨d.state, d.rest⟩ : RfbInputGate))) ∧
      ∀ r, finish allowInput state buffer output = .ok r → r.2.toRfbState = state := by
  have hloop := loop_drains allowInput hdone output (Nat.lt_succ_self buffer.length)
  unfold finish
  split at hloop
  · next hbad =>
    rw [hbad, hloop]
    exact ⟨rfl, nofun⟩
  · next output' rest hok =>
    obtain ⟨hfits, units, rfl, hdrain⟩ := hloop
    rw [hok, hdrain]
    dsimp only
    rw [if_neg (Nat.not_lt.2 hfits)]
    refine ⟨rfl, ?_⟩
    rintro _ ⟨⟩
    rfl

/-- A gate drains its buffer and the chunk. -/
theorem feed_eq (allowInput : Bool) {self : RfbInputGate} (hself : self.Ready) (chunk : List UInt8) :
    (self.feed allowInput chunk).toOption =
        ((rfbMessages allowInput).drain self.toRfbState (self.buffer ++ chunk)).map (fun d =>
          (d.units.flatten, (⟨d.state, d.rest⟩ : RfbInputGate))) ∧
      ∀ r, self.feed allowInput chunk = .ok r → r.2.Ready := by
  have hfinished : ∀ (state : RfbState) (buffer : List UInt8), state.Open → state.handshake = [] →
      ∀ output r, finish allowInput state buffer output = .ok r → r.2.Ready := by
    intro state buffer hopen hdone output r hr
    have hstate := (finish_eq allowInput hdone buffer output).2 r hr
    exact ⟨by rw [hstate]; exact hopen, fun h => absurd (hstate ▸ hdone) h⟩
  by_cases hdone : self.handshake = []
  · have hfeed : self.feed allowInput chunk =
        finish allowInput self.toRfbState (self.buffer ++ chunk) [] := by
      have hshake : self.toRfbState.shake (chunk.length + 1) chunk [] =
          .ok ([], chunk, self.toRfbState) := by simp [RfbState.shake, hdone]
      rw [feed, hshake, finish]
      exact if_neg (not_not.2 hdone)
    rw [hfeed]
    exact ⟨(finish_eq allowInput hdone _ _).1, hfinished _ _ hself.opened hdone _⟩
  · have hshaken := RfbState.shake_drains allowInput [] hself.opened
      (Nat.lt_succ_self chunk.length)
    rw [hself.empty hdone, nil_append]
    unfold feed
    cases hresult : self.toRfbState.shake (chunk.length + 1) chunk [] with
    | error e =>
      rw [hresult] at hshaken
      rw [show (rfbMessages allowInput).drain self.toRfbState chunk = none from hshaken]
      exact ⟨rfl, nofun⟩
    | ok result =>
      obtain ⟨output, rest, next⟩ := result
      rw [hresult] at hshaken
      obtain ⟨hopen, hrest, units, houtput, hdrain⟩ := hshaken
      rw [nil_append] at houtput
      rw [hdrain, houtput, hself.empty hdone]
      simp only [nil_append]
      split
      · next hmore =>
        rw [hrest hmore, drain_of_more rfl]
        refine ⟨by simp [Except.toOption, Framing.Drained.after], ?_⟩
        rintro _ ⟨⟩
        exact ⟨hopen, fun _ => rfl⟩
      · next hover =>
        rw [ne_eq, not_not] at hover
        refine ⟨?_, hfinished _ _ hopen hover _⟩
        have hfinish := (finish_eq allowInput hover rest units.flatten).1
        unfold finish at hfinish
        refine hfinish.trans ?_
        rw [Option.map_map]
        simp [Function.comp_def, Framing.Drained.after]

/-- What a gate makes of the chunks of a stream. -/
theorem feedAll_eq {gate : RfbInputGate} (hready : gate.Ready)
    (hbuffer : (rfbMessages allowInput).drain gate.toRfbState gate.buffer =
      some ⟨gate.toRfbState, gate.buffer, []⟩) (chunks : List (List UInt8)) :
    ∃ earlier d, earlier <+: chunks ∧
      (rfbMessages allowInput).drain gate.toRfbState (gate.buffer ++ earlier.flatten) = some d ∧
      (Spice.feedAll (feed allowInput) gate chunks).1 = d.units.flatten ∧
      ((Spice.feedAll (feed allowInput) gate chunks).2.isSome ↔
        (rfbMessages allowInput).drain gate.toRfbState (gate.buffer ++ chunks.flatten) ≠ none) ∧
      ((Spice.feedAll (feed allowInput) gate chunks).2.isSome → earlier = chunks) := by
  induction chunks generalizing gate with
  | nil =>
    refine ⟨[], _, prefix_refl [], by simpa using hbuffer, rfl, ?_, fun _ => rfl⟩
    simp [Spice.feedAll, hbuffer]
  | cons chunk chunks ih =>
    obtain ⟨hfeed, hkept⟩ := feed_eq allowInput hready chunk
    unfold Spice.feedAll
    rw [flatten_cons, ← append_assoc]
    cases hgate : gate.feed allowInput chunk with
    | error e =>
      rw [hgate] at hfeed
      have hnone : (rfbMessages allowInput).drain gate.toRfbState (gate.buffer ++ chunk) = none :=
        Option.map_eq_none_iff.1 hfeed.symm
      refine ⟨[], _, nil_prefix, by simpa using hbuffer, rfl, ?_, nofun⟩
      rw [drain_append_of_none hnone]
      simp
    | ok r =>
      rw [hgate] at hfeed
      obtain ⟨d, hd, hr⟩ := Option.map_eq_some_iff.1 hfeed.symm
      cases hr
      dsimp only
      have hlater := drain_append hd
      obtain ⟨earlier, d', hfront, hd', houtput, hverdict, hall⟩ :=
        ih (hkept _ hgate) (drain_drained hd)
      refine ⟨chunk :: earlier, d'.after d.units, cons_prefix_cons.2 ⟨rfl, hfront⟩, ?_, ?_, ?_,
        fun htaken => by rw [hall htaken]⟩
      · rw [flatten_cons, ← append_assoc, hlater, hd']
        rfl
      · rw [houtput]
        exact flatten_append.symm
      · rw [hverdict, hlater, ne_eq, ne_eq, Option.map_eq_none_iff]

end RfbInputGate

/-! ## Two ways of cutting a stream -/

section Cuts

open RfbInputGate

variable {allowInput : Bool}

/-- The messages of the front of a stream are the front of its messages. -/
theorem prefix_of_drains {s : RfbState} {front stream : List UInt8}
    {d d' : Framing.Drained RfbState UInt8 (List UInt8)} (hfront : front <+: stream)
    (h : (rfbMessages allowInput).drain s front = some d)
    (h' : (rfbMessages allowInput).drain s stream = some d') :
    d.units.flatten <+: d'.units.flatten := by
  obtain ⟨later, rfl⟩ := hfront
  rw [drain_append h] at h'
  obtain ⟨d₂, -, rfl⟩ := Option.map_eq_some_iff.1 h'
  exact ⟨d₂.units.flatten, flatten_append.symm⟩

/-- A gate refuses a stream however it is cut, or takes it and forwards the same bytes. What it has
forwarded of a refused stream differs by a part at the end only. -/
theorem rfb_gate (allowInput : Bool) (c₁ c₂ : List (List UInt8)) (h : c₁.flatten = c₂.flatten) :
    ((Spice.feedAll (feed allowInput) {} c₁).2.isSome ↔
      (Spice.feedAll (feed allowInput) {} c₂).2.isSome) ∧
    ((Spice.feedAll (feed allowInput) {} c₁).2.isSome →
      (Spice.feedAll (feed allowInput) {} c₁).1 = (Spice.feedAll (feed allowInput) {} c₂).1) ∧
    ((Spice.feedAll (feed allowInput) {} c₁).1 <+: (Spice.feedAll (feed allowInput) {} c₂).1 ∨
      (Spice.feedAll (feed allowInput) {} c₂).1 <+: (Spice.feedAll (feed allowInput) {} c₁).1) := by
  have hempty : (rfbMessages allowInput).drain ({} : RfbInputGate).toRfbState [] =
      some ⟨({} : RfbInputGate).toRfbState, [], []⟩ := drain_of_more rfl
  obtain ⟨e₁, d₁, hfront₁, hd₁, hforwarded₁, hverdict₁, hall₁⟩ :=
    feedAll_eq ready_default hempty c₁
  obtain ⟨e₂, d₂, hfront₂, hd₂, hforwarded₂, hverdict₂, hall₂⟩ :=
    feedAll_eq ready_default hempty c₂
  have hsame : (Spice.feedAll (feed allowInput) {} c₁).2.isSome ↔
      (Spice.feedAll (feed allowInput) {} c₂).2.isSome := by
    rw [hverdict₁, hverdict₂, h]
  refine ⟨hsame, fun htaken => ?_, ?_⟩
  · have hstream : ([] : List UInt8) ++ e₁.flatten = [] ++ e₂.flatten := by
      rw [hall₁ htaken, hall₂ (hsame.1 htaken), h]
    rw [hforwarded₁, hforwarded₂]
    change (rfbMessages allowInput).drain _ ([] ++ e₁.flatten) = some d₁ at hd₁
    rw [hstream] at hd₁
    rw [hd₁] at hd₂
    cases hd₂
    rfl
  · have hflat₁ : e₁.flatten <+: c₂.flatten := by
      rw [← h]
      exact List.IsPrefix.flatten hfront₁
    rw [hforwarded₁, hforwarded₂]
    rcases prefix_or_prefix_of_prefix hflat₁ (List.IsPrefix.flatten hfront₂) with hle | hle
    · exact .inl (prefix_of_drains hle hd₁ hd₂)
    · exact .inr (prefix_of_drains hle hd₂ hd₁)

/-- A handshake, a request for an update, and a byte that begins no message. -/
def refusedStream : List (List UInt8) :=
  [[82, 70, 66, 32, 48, 48, 51, 46, 48, 48, 56, 10, 1, 1], [3, 0, 0, 0, 0, 0, 0, 0, 1, 1], [7]]

/-- What is forwarded of a refused stream depends on how it is cut. -/
theorem rfb_gate_refused : ¬ ∀ (allowInput : Bool) (c₁ c₂ : List (List UInt8)),
    c₁.flatten = c₂.flatten →
      (Spice.feedAll (feed allowInput) {} c₁).1 = (Spice.feedAll (feed allowInput) {} c₂).1 ∧
      ((Spice.feedAll (feed allowInput) {} c₁).2.isSome ↔
        (Spice.feedAll (feed allowInput) {} c₂).2.isSome) := by
  intro h
  have hforwarded := (h false refusedStream [refusedStream.flatten] (by simp)).1
  exact absurd hforwarded (by decide +kernel)

theorem rfb_gate_of_refused :
    ((Spice.feedAll (feed false) {} refusedStream).2.isSome ↔
      (Spice.feedAll (feed false) {} [refusedStream.flatten]).2.isSome) ∧
    ((Spice.feedAll (feed false) {} refusedStream).2.isSome →
      (Spice.feedAll (feed false) {} refusedStream).1 =
        (Spice.feedAll (feed false) {} [refusedStream.flatten]).1) ∧
    ((Spice.feedAll (feed false) {} refusedStream).1 <+:
        (Spice.feedAll (feed false) {} [refusedStream.flatten]).1 ∨
      (Spice.feedAll (feed false) {} [refusedStream.flatten]).1 <+:
        (Spice.feedAll (feed false) {} refusedStream).1) :=
  rfb_gate false refusedStream [refusedStream.flatten] (by simp)

end Cuts

end MachineEmu
