import MachineEmu.Api.SpiceAudio
import MachineEmu.Lib.Framing

/-!
# What the gates of an audio channel make of a stream

Without a limit on its buffer a gate would not notice how a stream is cut. The limit is checked on
what is left of the last message together with the whole new chunk, before anything is parsed: a
chunk is refused that would fit if it came in two parts.

* `ClientState.messages`, `ServerState.messages` — the messages of each direction, as framings.
* `follows_of_feed` — a gate is its framing with a limit.
* `spice_gates` — which cuttings of a stream are treated alike.
-/

namespace MachineEmu

open Lib List Framing Option

namespace Spice

/-- Two runs of a gate end alike and forward the same bytes. -/
def Alike {γ : Type} (r₁ r₂ : List UInt8 × Option γ) : Prop :=
  r₁.2.isSome = r₂.2.isSome ∧ r₁.1 = r₂.1

/-- Two cuttings of a stream are both admitted, or neither is and what comes before the first chunk
that is not is alike. -/
def CutAlike {σ β γ : Type} (F : Framing σ UInt8 β) (limit : Nat) (s : σ)
    (view : List (List UInt8) → γ) (c₁ c₂ : List (List UInt8)) : Prop :=
  F.Admits limit s [] c₁ ∧ F.Admits limit s [] c₂ ∨
    ¬ F.Admits limit s [] c₁ ∧ ¬ F.Admits limit s [] c₂ ∧
      ∀ e₁ e₂, F.LastAdmitted limit s [] c₁ e₁ → F.LastAdmitted limit s [] c₂ e₂ →
        view e₁ = view e₂

/-- Neither a link nor its reply is complete in no bytes. -/
theorem capabilities_error_of_short {body : List UInt8} {offset common channel : Nat}
    (h : body.length < linkMess) : ∃ e, capabilities body offset common channel = .error e := by
  unfold capabilities
  split
  · exact ⟨_, rfl⟩
  · next hvalid =>
    rw [if_pos (by omega)]
    exact ⟨_, rfl⟩

variable {bs : List UInt8}

theorem u16le_append {offset : Nat} (h : offset + 2 ≤ bs.length)
    (later : List UInt8) : u16le (bs ++ later) offset = u16le bs offset := by
  rw [u16le, u16le, slice_append h]

theorem u32le_append {offset : Nat} (h : offset + 4 ≤ bs.length)
    (later : List UInt8) : u32le (bs ++ later) offset = u32le bs offset := by
  rw [u32le, u32le, slice_append h]

/-- A gate forwards what a framing with a limit takes. -/
def Follows {σ β γ : Type} (F : Framing σ UInt8 β) (limit : Nat) (s : σ) (buffer : List UInt8)
    (feed : γ → List UInt8 → Except String (List UInt8 × γ)) (gate : γ)
    (total : List (List UInt8) → List β → List UInt8) : Prop :=
  ∀ chunks, (feedAll feed gate chunks).1 =
      total (F.admitted limit s buffer chunks) (F.feedAll limit s buffer chunks).1 ∧
    (feedAll feed gate chunks).2.isSome = (F.feedAll limit s buffer chunks).2.isSome

/-- A gate follows a framing when each chunk does. -/
theorem follows_of_feed {σ β γ : Type} {F : Framing σ UInt8 β} {limit : Nat}
    {feed : γ → List UInt8 → Except String (List UInt8 × γ)} {state : γ → σ}
    {buffer : γ → List UInt8} {out : List UInt8 → List β → List UInt8}
    {total : List (List UInt8) → List β → List UInt8}
    (hfeed : ∀ gate chunk, (feed gate chunk).toOption.map
        (fun r => (r.1, (⟨state r.2, buffer r.2, []⟩ : Framing.Drained σ UInt8 β))) =
      (F.feed limit (state gate) (buffer gate) chunk).map fun d =>
        (out chunk d.units, { d with units := [] }))
    (hnil : total [] [] = []) (hcons : ∀ chunk chunks units later,
      total (chunk :: chunks) (units ++ later) = out chunk units ++ total chunks later)
    (gate : γ) : Follows F limit (state gate) (buffer gate) feed gate total := by
  intro chunks
  induction chunks generalizing gate with
  | nil => exact ⟨hnil.symm, rfl⟩
  | cons chunk chunks ih =>
    have hstep := hfeed gate chunk
    unfold feedAll Framing.feedAll Framing.admitted
    cases hpart : F.feed limit (state gate) (buffer gate) chunk with
    | none =>
      rw [hpart, map_none, map_eq_none_iff] at hstep
      cases hgate : feed gate chunk with
      | error e => exact ⟨hnil.symm, rfl⟩
      | ok r =>
        rw [hgate] at hstep
        cases hstep
    | some d =>
      rw [hpart, map_some] at hstep
      cases hgate : feed gate chunk with
      | error e =>
        rw [hgate] at hstep
        cases hstep
      | ok r =>
        rw [hgate] at hstep
        obtain ⟨houtput, hleft⟩ := Prod.mk.inj (Option.some.inj hstep)
        obtain ⟨hstate, hbuffer⟩ : state r.2 = d.state ∧ buffer r.2 = d.rest := by
          injection hleft with hstate hbuffer
          exact ⟨hstate, hbuffer⟩
        obtain ⟨hforwarded, hverdict⟩ := ih r.2
        rw [hstate, hbuffer] at hforwarded hverdict
        refine ⟨?_, hverdict⟩
        dsimp only at houtput ⊢
        rw [hforwarded, houtput, hcons]

section Follows

variable {σ β γ : Type} {F : Framing σ UInt8 β} {limit : Nat} {s : σ} {gate : γ}
  {feed : γ → List UInt8 → Except String (List UInt8 × γ)}
  {total : List (List UInt8) → List β → List UInt8}

/-- What a gate makes of a cutting. -/
theorem Follows.result (hgate : Follows F limit s [] feed gate total)
    (hempty : F.drain s [] = some ⟨s, [], []⟩) (chunks : List (List UInt8)) :
    ∃ earlier d, F.LastAdmitted limit s [] chunks earlier ∧
      F.drain s earlier.flatten = some d ∧
      (feedAll feed gate chunks).1 = total earlier d.units ∧
      ((feedAll feed gate chunks).2.isSome ↔ F.Admits limit s [] chunks) := by
  obtain ⟨hforwarded, hverdict⟩ := hgate chunks
  obtain ⟨d, hd, hunits, hall, hnot⟩ :=
    @Framing.feedAll_eq _ _ _ F limit s [] chunks hempty
  refine ⟨F.admitted limit s [] chunks, d, (lastAdmitted_iff hempty).2 rfl, hd, ?_, ?_⟩
  · rw [hforwarded, hunits]
  · rw [hverdict, ← admits_iff hempty]
    by_cases hsame : F.admitted limit s [] chunks = chunks
    · rw [hall hsame]
      exact iff_of_true rfl hsame
    · rw [hnot hsame]
      exact iff_of_false nofun hsame

/-- Two runs end alike exactly when the cuttings are alike. -/
theorem Follows.alike_iff {δ : Type} {view : List (List UInt8) → δ}
    (hgate : Follows F limit s [] feed gate total) (hempty : F.drain s [] = some ⟨s, [], []⟩)
    (hview : ∀ {e₁ e₂ d₁ d₂}, F.drain s e₁.flatten = some d₁ → F.drain s e₂.flatten = some d₂ →
      (total e₁ d₁.units = total e₂ d₂.units ↔ view e₁ = view e₂))
    (hstream : ∀ {e₁ e₂ : List (List UInt8)}, e₁.flatten = e₂.flatten → view e₁ = view e₂)
    {c₁ c₂ : List (List UInt8)} (h : c₁.flatten = c₂.flatten) :
    Alike (feedAll feed gate c₁) (feedAll feed gate c₂) ↔ CutAlike F limit s view c₁ c₂ := by
  obtain ⟨e₁, d₁, hlast₁, hd₁, hforwarded₁, hverdict₁⟩ := hgate.result hempty c₁
  obtain ⟨e₂, d₂, hlast₂, hd₂, hforwarded₂, hverdict₂⟩ := hgate.result hempty c₂
  have hsame : (feedAll feed gate c₁).1 = (feedAll feed gate c₂).1 ↔ view e₁ = view e₂ := by
    rw [hforwarded₁, hforwarded₂, hview hd₁ hd₂]
  have hlast : ∀ {c e : List (List UInt8)}, F.Admits limit s [] c → F.LastAdmitted limit s [] c e →
      e = c := fun hadmits hlast =>
    ((lastAdmitted_iff hempty).1 hlast).trans ((admits_iff hempty).2 hadmits)
  unfold Alike CutAlike
  rw [hsame, Bool.eq_iff_iff, hverdict₁, hverdict₂]
  constructor
  · rintro ⟨hverdict, hforwarded⟩
    by_cases hadmits : F.Admits limit s [] c₁
    · exact .inl ⟨hadmits, hverdict.1 hadmits⟩
    · refine .inr ⟨hadmits, fun h' => hadmits (hverdict.2 h'), fun e₁' e₂' h₁ h₂ => ?_⟩
      rw [(lastAdmitted_iff hempty).1 h₁, (lastAdmitted_iff hempty).1 h₂,
        ← (lastAdmitted_iff hempty).1 hlast₁, ← (lastAdmitted_iff hempty).1 hlast₂]
      exact hforwarded
  · rintro (⟨hadmits₁, hadmits₂⟩ | ⟨hnot₁, hnot₂, hforwarded⟩)
    · rw [hlast hadmits₁ hlast₁, hlast hadmits₂ hlast₂]
      exact ⟨iff_of_true hadmits₁ hadmits₂, hstream h⟩
    · exact ⟨iff_of_false hnot₁ hnot₂, hforwarded e₁ e₂ hlast₁ hlast₂⟩

/-- A stream without a message that is refused is taken when no chunk overflows. -/
theorem Follows.taken (hgate : Follows F limit s [] feed gate total)
    (hempty : F.drain s [] = some ⟨s, [], []⟩) {chunks : List (List UInt8)}
    {d : Framing.Drained σ UInt8 β} (hd : F.drain s chunks.flatten = some d) :
    ((feedAll feed gate chunks).2.isSome ↔ ¬ F.Overflows limit s [] chunks) ∧
    ((feedAll feed gate chunks).2.isSome → (feedAll feed gate chunks).1 = total chunks d.units) := by
  obtain ⟨earlier, d', hlast, hd', hforwarded, hverdict⟩ := hgate.result hempty chunks
  have hadmits : F.Admits limit s [] chunks ↔ ¬ F.Overflows limit s [] chunks :=
    and_iff_right (by rw [nil_append, hd]; exact nofun)
  refine ⟨hverdict.trans hadmits, fun htaken => ?_⟩
  have hwhole := (admits_iff hempty).2 (hverdict.1 htaken)
  rw [(lastAdmitted_iff hempty).1 hlast, hwhole, hd] at hd'
  cases hd'
  rw [hforwarded, (lastAdmitted_iff hempty).1 hlast, hwhole]

end Follows

/-! ## From the browser -/

namespace ClientState

/-- What is complete or refused stays so when more bytes arrive. -/
theorem turn_append {self : ClientState} (h : self.turn bs ≠ .ok none)
    (later : List UInt8) : self.turn (bs ++ later) = self.turn bs := by
  have hgrow : (bs ++ later).length = bs.length + later.length := length_append
  have hsizes : linkHeader = 16 ∧ miniHeader = 6 := ⟨rfl, rfl⟩
  unfold turn at h ⊢
  cases hphase : self.phase <;> simp only [hphase] at h ⊢
  case header =>
    have hlong : ¬ bs.length < linkHeader := fun hshort => h (if_pos hshort)
    rw [if_neg hlong, if_neg (by omega)]
    simp (disch := omega) only [u32le_append, slice_append]
  case link =>
    have hlong : ¬ bs.length < self.linkSize := fun hshort => h (if_pos hshort)
    rw [if_neg hlong, if_neg (by omega), slice_append (by omega)]
  case auth =>
    have hlong : ¬ bs.length < 4 := fun hshort => h (if_pos hshort)
    rw [if_neg hlong, if_neg (by omega), u32le_append (by omega)]
  case ticket =>
    have hlong : ¬ bs.length < 128 := fun hshort => h (if_pos hshort)
    rw [if_neg hlong, if_neg (by omega)]
  case messages =>
    have hlong : ¬ bs.length < miniHeader := fun hshort => h (if_pos hshort)
    rw [if_neg hlong] at h
    rw [if_neg hlong, if_neg (by omega), u32le_append (by omega), u16le_append (by omega)]
    split at h
    · next hbad => rw [if_pos hbad, if_pos hbad]
    · next hgood =>
      have hwhole : ¬ bs.length < miniHeader + u32le bs 2 := fun hshort => h (if_pos hshort)
      rw [if_neg hgood, if_neg hgood, if_neg hwhole, if_neg (by omega)]

theorem turn_bound {self next : ClientState} {n : Nat}
    (h : self.turn bs = .ok (some (n, next))) : 0 < n ∧ n ≤ bs.length := by
  have hsizes : linkHeader = 16 ∧ miniHeader = 6 := ⟨rfl, rfl⟩
  unfold turn at h
  cases hphase : self.phase <;> simp only [hphase] at h
  case header =>
    split at h
    · cases h
    · next hlong =>
      split at h
      · cases h
      · split at h
        · cases h
        · cases h
          omega
  case link =>
    split at h
    · cases h
    · next hlong =>
      have hcheck : self.linkSize = 0 →
          ∃ e, self.checkLink (slice bs 0 self.linkSize) = .error e := by
        intro hzero
        unfold checkLink
        split
        · exact ⟨_, rfl⟩
        · have hshort : (slice bs 0 self.linkSize).length < linkMess := by
            rw [length_slice (by omega), hzero]
            decide
          obtain ⟨e, he⟩ := capabilities_error_of_short hshort
          rw [he]
          exact ⟨_, rfl⟩
      split at h
      · cases h
      · next hok =>
        cases h
        refine ⟨Nat.pos_of_ne_zero fun hzero => ?_, by omega⟩
        obtain ⟨e, he⟩ := hcheck hzero
        rw [hok] at he
        cases he
  case auth =>
    split at h
    · cases h
    · split at h
      · cases h
      · cases h
        omega
  case ticket =>
    split at h
    · cases h
    · cases h
      omega
  case messages =>
    split at h
    · cases h
    · split at h
      · cases h
      · split at h
        · cases h
        · cases h
          omega

/-- What a gate makes of the front of its buffer. -/
def parse (self : ClientState) (bs : List UInt8) : Parse ClientState (List UInt8) :=
  match self.turn bs with
  | .error _ => .bad
  | .ok none => .more
  | .ok (some (n, next)) => .unit n next (bs.take n)

theorem parse_append {self : ClientState} (h : self.parse bs ≠ .more)
    (later : List UInt8) : self.parse (bs ++ later) = self.parse bs := by
  have hturn : self.turn bs ≠ .ok none := by
    intro hmore
    apply h
    rw [parse, hmore]
  unfold parse
  rw [turn_append hturn]
  split
  · rfl
  · rfl
  · next hunit => rw [take_append_of_le_length (turn_bound hunit).2]

theorem turn_of_unit {self next : ClientState} {v : List UInt8} {n : Nat}
    (h : self.parse bs = .unit n next v) : self.turn bs = .ok (some (n, next)) ∧ v = bs.take n := by
  unfold parse at h
  split at h
  · cases h
  · cases h
  · next hturn =>
    cases h
    exact ⟨hturn, rfl⟩

theorem parse_ne_rest {self : ClientState} : self.parse bs ≠ .rest := by
  unfold parse
  split <;> exact nofun

/-- The messages of a browser. -/
def messages : Framing ClientState UInt8 (List UInt8) where
  parse := parse
  unit_bound h := turn_bound (turn_of_unit h).1
  unit_append h later := by rw [parse_append (by rw [h]; exact nofun), h]
  bad_append h later := by rw [parse_append (by rw [h]; exact nofun), h]
  rest_always h := absurd h parse_ne_rest

end ClientState

namespace ClientGate

/-- The bytes that a gate holds at most. -/
def limit : Nat := maxLink + maxClient + miniHeader

/-- The loop drains the buffer. -/
theorem loop_eq (fuel : Nat) (self : ClientGate) (output : List UInt8) :
    (self.loop fuel output).toOption =
      (ClientState.messages.loop fuel self.toClientState self.buffer).map fun d =>
        (output ++ d.units.flatten, ⟨d.state, d.rest⟩) := by
  induction fuel generalizing self output with
  | zero => simp [loop, Framing.loop, Except.toOption]
  | succ fuel ih =>
    have hparse : ClientState.messages.parse self.toClientState self.buffer =
      self.toClientState.parse self.buffer := rfl
    unfold loop Framing.loop
    rw [hparse, ClientState.parse]
    cases self.turn self.buffer with
    | error e => rfl
    | ok answer =>
      cases answer with
      | none => simp [Except.toOption]
      | some taken =>
        simp only [ih, Option.map_map]
        congr 1
        funext d
        simp [Framing.Drained.after]

theorem feed_eq (self : ClientGate) (chunk : List UInt8) :
    (self.feed chunk).toOption =
      (ClientState.messages.feed limit self.toClientState self.buffer chunk).map fun d =>
        (d.units.flatten, ⟨d.state, d.rest⟩) := by
  have hlimit : limit = maxLink + maxClient + miniHeader := rfl
  unfold feed Framing.feed
  rw [hlimit]
  dsimp only
  split
  · rfl
  · rw [loop_eq]
    rfl

theorem follows (gate : ClientGate) :
    Follows ClientState.messages limit gate.toClientState gate.buffer feed gate
      fun _ units => units.flatten := by
  refine @follows_of_feed _ _ _ ClientState.messages limit feed ClientGate.toClientState
    ClientGate.buffer (fun _ units => units.flatten) (fun _ units => units.flatten) ?_ rfl ?_ gate
  · intro gate chunk
    rw [feed_eq, Option.map_map]
    rfl
  · intro _ _ units later
    exact flatten_append

/-- The bytes of the messages that are complete in some chunks. -/
def complete (channel : Channel) (connectionId : UInt32) (chunks : List (List UInt8)) :
    Option (List UInt8) :=
  (ClientState.messages.drain (new channel connectionId).toClientState chunks.flatten).map
    fun d => d.units.flatten

/-- What is not complete is kept. -/
theorem drain_bytes {s : ClientState} {d : Framing.Drained ClientState UInt8 (List UInt8)}
    (h : ClientState.messages.drain s bs = some d) : d.units.flatten ++ d.rest = bs := by
  induction s, bs using ClientState.messages.drain_induction generalizing d with
  | more s bs hmore =>
    rw [drain_of_more hmore] at h
    cases h
    rfl
  | bad s bs hbad =>
    rw [drain_of_bad hbad] at h
    cases h
  | rest s bs hrest => exact absurd hrest ClientState.parse_ne_rest
  | unit s bs n s' v hunit ih =>
    rw [drain_of_unit hunit] at h
    obtain ⟨d', hd', rfl⟩ := map_eq_some_iff.1 h
    obtain ⟨-, rfl⟩ := ClientState.turn_of_unit hunit
    have hrest : d'.units.flatten ++ d'.rest = bs.drop n := ih hd'
    change bs.take n ++ d'.units.flatten ++ d'.rest = bs
    rw [append_assoc, hrest, take_append_drop]

end ClientGate

/-! ## From QEMU -/

namespace ServerState

variable {self : ServerState}

/-- What is complete or refused stays so when more bytes arrive. -/
theorem turn_append (h : self.turn bs ≠ .ok .wait)
    (later : List UInt8) : self.turn (bs ++ later) = self.turn bs := by
  have hgrow : (bs ++ later).length = bs.length + later.length := length_append
  have hsizes : linkHeader = 16 ∧ miniHeader = 6 := ⟨rfl, rfl⟩
  unfold turn at h ⊢
  cases hphase : self.phase <;> simp only [hphase] at h ⊢
  case header =>
    have hlong : ¬ bs.length < linkHeader := fun hshort => h (if_pos hshort)
    rw [if_neg hlong, if_neg (by omega)]
    simp (disch := omega) only [u32le_append, slice_append]
  case reply =>
    have hlong : ¬ bs.length < self.replySize := fun hshort => h (if_pos hshort)
    rw [if_neg hlong, if_neg (by omega), slice_append (by omega)]
  case result =>
    have hlong : ¬ bs.length < 4 := fun hshort => h (if_pos hshort)
    rw [if_neg hlong, if_neg (by omega), u32le_append (by omega)]
  case messages =>
    have hlong : ¬ bs.length < miniHeader := fun hshort => h (if_pos hshort)
    rw [if_neg hlong] at h
    rw [if_neg hlong, if_neg (by omega), u32le_append (by omega), u16le_append (by omega)]
    split at h
    · next hbad => rw [if_pos hbad, if_pos hbad]
    · next hgood =>
      have hwhole : ¬ bs.length < miniHeader + u32le bs 2 := fun hshort => h (if_pos hshort)
      rw [if_neg hgood, if_neg hgood, if_neg hwhole, if_neg (by omega)]
      split
      · split
        · rfl
        · rw [u32le_append (by omega)]
      · rfl

theorem turn_bound {next : ServerState} {n : Nat}
    (h : self.turn bs = .ok (.take n next)) : 0 < n ∧ n ≤ bs.length := by
  have hsizes : linkHeader = 16 ∧ miniHeader = 6 := ⟨rfl, rfl⟩
  unfold turn at h
  cases hphase : self.phase <;> simp only [hphase] at h
  case header =>
    split at h
    · cases h
    · split at h
      · cases h
      · split at h
        · cases h
        · cases h
          omega
  case reply =>
    split at h
    · cases h
    · next hlong =>
      have hcheck : self.replySize = 0 →
          ∃ e, checkReply (slice bs 0 self.replySize) = .error e := by
        intro hzero
        rw [hzero]
        exact ⟨_, rfl⟩
      split at h
      · cases h
      · next hok =>
        cases h
        refine ⟨Nat.pos_of_ne_zero fun hzero => ?_, by omega⟩
        obtain ⟨e, he⟩ := hcheck hzero
        rw [hok] at he
        cases he
  case result =>
    split at h
    · cases h
    · cases h
      omega
  case messages =>
    split at h
    · cases h
    · split at h
      · cases h
      · split at h
        · cases h
        · split at h
          · split at h
            · cases h
            · cases h
              omega
          · cases h
            omega
  case done => cases h

/-- What a gate makes of the front of its buffer. -/
def parse (self : ServerState) (bs : List UInt8) : Parse ServerState (List UInt8) :=
  match self.turn bs with
  | .error _ => .bad
  | .ok .wait => .more
  | .ok .clear => .rest
  | .ok (.take n next) => .unit n next (bs.take n)

theorem parse_append (h : self.parse bs ≠ .more)
    (later : List UInt8) : self.parse (bs ++ later) = self.parse bs := by
  have hturn : self.turn bs ≠ .ok .wait := by
    intro hmore
    apply h
    rw [parse, hmore]
  unfold parse
  rw [turn_append hturn]
  split
  · rfl
  · rfl
  · rfl
  · next hunit => rw [take_append_of_le_length (turn_bound hunit).2]

theorem turn_of_unit {next : ServerState} {v : List UInt8} {n : Nat}
    (h : self.parse bs = .unit n next v) : self.turn bs = .ok (.take n next) ∧ v = bs.take n := by
  unfold parse at h
  split at h
  · cases h
  · cases h
  · cases h
  · next hturn =>
    cases h
    exact ⟨hturn, rfl⟩

theorem phase_of_clear (h : self.turn bs = .ok .clear) : self.phase = .done := by
  unfold turn at h
  cases hphase : self.phase <;> simp only [hphase] at h
  case done => rfl
  all_goals
    exfalso
    repeat' split at h
    all_goals cases h

/-- The messages of QEMU, until the link is refused. -/
def messages : Framing ServerState UInt8 (List UInt8) where
  parse := parse
  unit_bound h := turn_bound (turn_of_unit h).1
  unit_append h later := by rw [parse_append (by rw [h]; exact nofun), h]
  bad_append h later := by rw [parse_append (by rw [h]; exact nofun), h]
  rest_always {s bs} h later := by
    unfold parse at h
    split at h
    · cases h
    · cases h
    · next hclear =>
      unfold parse turn
      rw [phase_of_clear hclear]
    · cases h

end ServerState

namespace ServerGate

/-- The bytes that a gate holds at most. -/
def limit : Nat := maxLink + maxServer + miniHeader

/-- The loop drains the buffer. -/
theorem loop_eq (fuel : Nat) (self : ServerGate) :
    (self.loop fuel).toOption =
      (ServerState.messages.loop fuel self.toServerState self.buffer).map fun d =>
        ⟨d.state, d.rest⟩ := by
  induction fuel generalizing self with
  | zero => simp [loop, Framing.loop, Except.toOption]
  | succ fuel ih =>
    have hparse : ServerState.messages.parse self.toServerState self.buffer =
      self.toServerState.parse self.buffer := rfl
    unfold loop Framing.loop
    rw [hparse, ServerState.parse]
    cases self.turn self.buffer with
    | error e => rfl
    | ok answer =>
      cases answer with
      | wait => rfl
      | clear => rfl
      | take n next =>
        simp only [ih, Option.map_map]
        rfl

theorem forward_eq (self : ServerGate) (chunk : List UInt8) :
    (self.forward chunk).toOption =
      (ServerState.messages.feed limit self.toServerState self.buffer chunk).map fun d =>
        (chunk, ⟨d.state, d.rest⟩) := by
  have hlimit : limit = maxLink + maxServer + miniHeader := rfl
  unfold forward feed Framing.feed
  rw [hlimit]
  dsimp only
  split
  · rfl
  · have hmap : ∀ r : Except String ServerGate,
        ((r.map fun self => (self.connectionId, self)).map fun r => (chunk, r.2)).toOption =
          r.toOption.map fun next => (chunk, next) := by
      rintro (e | next) <;> rfl
    rw [hmap, loop_eq, Option.map_map]
    rfl

theorem follows (gate : ServerGate) :
    Follows ServerState.messages limit gate.toServerState gate.buffer forward gate
      fun chunks _ => chunks.flatten := by
  refine @follows_of_feed _ _ _ ServerState.messages limit forward ServerGate.toServerState
    ServerGate.buffer (fun chunk _ => chunk) (fun chunks _ => chunks.flatten) ?_ rfl ?_ gate
  · intro gate chunk
    rw [forward_eq, Option.map_map]
    rfl
  · intro chunk chunks _ _
    exact flatten_cons

end ServerGate

/-- Two cuttings of a stream are treated alike exactly when no message is refused and no chunk
overflows in either, or else the same is complete before the first chunk that is refused. A stream
without a message that is refused is taken by the cuttings in which no chunk comes on top of so much
of an unfinished message that both exceed the limit, and it is then forwarded byte for byte. -/
theorem spice_gates (channel : Channel) (connectionId : UInt32) (c₁ c₂ : List (List UInt8))
    (h : c₁.flatten = c₂.flatten) :
    (Alike (feedAll ClientGate.feed (ClientGate.new channel connectionId) c₁)
        (feedAll ClientGate.feed (ClientGate.new channel connectionId) c₂) ↔
      CutAlike ClientState.messages ClientGate.limit
        (ClientGate.new channel connectionId).toClientState
        (ClientGate.complete channel connectionId) c₁ c₂) ∧
    (Alike (feedAll ServerGate.forward (ServerGate.new channel) c₁)
        (feedAll ServerGate.forward (ServerGate.new channel) c₂) ↔
      CutAlike ServerState.messages ServerGate.limit (ServerGate.new channel).toServerState
        List.flatten c₁ c₂) ∧
    (∀ d, ClientState.messages.drain (ClientGate.new channel connectionId).toClientState
        c₁.flatten = some d →
      let r := feedAll ClientGate.feed (ClientGate.new channel connectionId) c₁
      (r.2.isSome ↔ ¬ ClientState.messages.Overflows ClientGate.limit
        (ClientGate.new channel connectionId).toClientState [] c₁) ∧
      (r.2.isSome → r.1 ++ d.rest = c₁.flatten)) ∧
    ∀ d, ServerState.messages.drain (ServerGate.new channel).toServerState c₁.flatten = some d →
      let r := feedAll ServerGate.forward (ServerGate.new channel) c₁
      (r.2.isSome ↔ ¬ ServerState.messages.Overflows ServerGate.limit
        (ServerGate.new channel).toServerState [] c₁) ∧
      (r.2.isSome → r.1 = c₁.flatten) := by
  have hclient := ClientGate.follows (ClientGate.new channel connectionId)
  have hserver := ServerGate.follows (ServerGate.new channel)
  have hclientEmpty : ClientState.messages.drain
      (ClientGate.new channel connectionId).toClientState [] = some ⟨_, [], []⟩ :=
    drain_of_more rfl
  have hserverEmpty : ServerState.messages.drain (ServerGate.new channel).toServerState [] =
      some ⟨_, [], []⟩ := drain_of_more rfl
  refine ⟨hclient.alike_iff hclientEmpty ?_ ?_ h, hserver.alike_iff hserverEmpty ?_ id h,
    fun d hd => ?_, fun d hd => ?_⟩
  · intro e₁ e₂ d₁ d₂ h₁ h₂
    unfold ClientGate.complete
    rw [h₁, h₂, map_some, map_some, some_inj]
  · intro e₁ e₂ he
    unfold ClientGate.complete
    rw [he]
  · intros
    exact Iff.rfl
  · obtain ⟨hverdict, hforwarded⟩ := hclient.taken hclientEmpty hd
    refine ⟨hverdict, fun htaken => ?_⟩
    rw [hforwarded htaken, ClientGate.drain_bytes hd]
  · exact hserver.taken hserverEmpty hd

/-- A link message in one piece and in two. -/
theorem spice_gates_of_link :
    Alike (feedAll ServerGate.forward (ServerGate.new .main) [magic ++ [2, 0, 0, 0], [2]])
      (feedAll ServerGate.forward (ServerGate.new .main) [magic, [2, 0, 0, 0, 2]]) := by
  have hgates := spice_gates .main 0 [magic ++ [2, 0, 0, 0], [2]] [magic, [2, 0, 0, 0, 2]] (by decide)
  have hempty : ServerState.messages.drain (ServerGate.new .main).toServerState [] =
      some ⟨_, [], []⟩ := drain_of_more rfl
  exact hgates.2.1.2 (.inl ⟨(admits_iff hempty).1 (by decide),
    (admits_iff hempty).1 (by decide)⟩)

/-! ### A cutting that is refused -/

/-- The link message, the authentication and the ticket of a main channel. -/
def prologue : List UInt8 :=
  magic ++ [2, 0, 0, 0, 2, 0, 0, 0, 22, 0, 0, 0] ++
    [0, 0, 0, 0, 1, 0, 1, 0, 0, 0, 0, 0, 0, 0, 18, 0, 0, 0, 10, 0, 0, 0] ++ [1, 0, 0, 0] ++
    List.replicate 128 0

/-- The state after the prologue. -/
def linked : ClientState := ⟨.main, 0, .messages, 22⟩

set_option maxRecDepth 4000 in
theorem drain_prologue : ∃ units, ClientState.messages.drain
    (ClientGate.new .main 0).toClientState prologue = some ⟨linked, [], units⟩ := by
  exact ⟨_, rfl⟩

/-- The header of a message of kind 1. -/
def header (size : Nat) : List UInt8 :=
  [1, 0, .ofNat size, .ofNat (size / 256), .ofNat (size / 65536), 0]

/-- The first 65536 bytes of a message of the largest size. -/
def front : List UInt8 := header 65536 ++ List.replicate 65530 0

/-- The rest of it. -/
def back : List UInt8 := List.replicate 6 0

/-- A message of 5000 bytes. -/
def small : List UInt8 := header 5000 ++ List.replicate 5000 0

/-- The front of a message waits for the rest, and the whole of it is taken. -/
theorem parse_message {size : Nat} {body : List UInt8} (hsize : u32le (header size) 2 = size)
    (hvalid : size ≤ maxClient) :
    ClientState.messages.parse linked (header size ++ body) =
      if body.length < size then .more
      else .unit (miniHeader + size) linked ((header size ++ body).take (miniHeader + size)) := by
  have hlength : (header size ++ body).length = miniHeader + body.length := length_append
  have hheader : (header size).length = 6 := rfl
  have hkind : u16le (header size) 0 = 1 := rfl
  have hallowed : ¬ (ClientState.allowed linked.channel 1 = false ∨ maxClient < size) := by
    rw [not_or]
    exact ⟨by decide, by omega⟩
  have hturn : linked.turn (header size ++ body) =
      if body.length < size then .ok none else .ok (some (miniHeader + size, linked)) := by
    have hphase : linked.phase = .messages := rfl
    unfold ClientState.turn
    simp only [hphase]
    rw [if_neg (by omega), u16le_append (by omega), u32le_append (by omega), hkind, hsize,
      if_neg hallowed, hlength]
    by_cases hshort : body.length < size
    · rw [if_pos hshort, if_pos (by omega)]
    · rw [if_neg hshort, if_neg (by omega)]
  change ClientState.parse _ _ = _
  unfold ClientState.parse
  rw [hturn]
  by_cases hshort : body.length < size
  · rw [if_pos hshort, if_pos hshort]
  · rw [if_neg hshort, if_neg hshort]

/-- A whole message is taken, and nothing is left. -/
theorem drain_message {size : Nat} (hsize : u32le (header size) 2 = size)
    (hvalid : size ≤ maxClient) :
    ∃ units, ClientState.messages.drain linked (header size ++ List.replicate size 0) =
      some ⟨linked, [], units⟩ := by
  have hunit := @parse_message size (List.replicate size 0) hsize hvalid
  rw [length_replicate, if_neg (Nat.lt_irrefl _)] at hunit
  have hlength : (header size ++ List.replicate size 0).length ≤ miniHeader + size := by
    rw [length_append, length_replicate]
    exact Nat.le_refl _
  rw [drain_of_unit hunit, drop_of_length_le hlength, drain_of_more rfl]
  exact ⟨_, rfl⟩

theorem drain_front : ClientState.messages.drain linked front = some ⟨linked, front, []⟩ := by
  apply drain_of_more
  unfold front
  rw [parse_message rfl (by decide), length_replicate, if_pos (by decide)]

/-- A message that came in two parts is taken, unless the second part brings the next message
along. -/
theorem spice_gates_cut : ∃ (channel : Channel) (connectionId : UInt32)
    (c₁ c₂ : List (List UInt8)), c₁.flatten = c₂.flatten ∧
      (∀ chunk ∈ c₁ ++ c₂, chunk.length ≤ maxClient) ∧
      (feedAll ClientGate.feed (ClientGate.new channel connectionId) c₁).2.isSome = false ∧
      (feedAll ClientGate.feed (ClientGate.new channel connectionId) c₂).2.isSome = true ∧
      ¬ Alike (feedAll ClientGate.feed (ClientGate.new channel connectionId) c₁)
        (feedAll ClientGate.feed (ClientGate.new channel connectionId) c₂) := by
  have hempty : ClientState.messages.drain (ClientGate.new .main 0).toClientState [] =
      some ⟨_, [], []⟩ := drain_of_more rfl
  have hgate := ClientGate.follows (ClientGate.new .main 0)
  have hheader : ∀ size, (header size).length = 6 := fun _ => rfl
  have hfront : front.length = 65536 := by
    rw [front, length_append, length_replicate, hheader]
  have hback : back.length = 6 := length_replicate
  have hsmall : small.length = 5006 := by
    rw [small, length_append, length_replicate, hheader]
  have hprologue : prologue.length = 170 := rfl
  have hjoined : front ++ back = header 65536 ++ List.replicate 65536 0 := by
    rw [front, back, append_assoc, replicate_append_replicate]
  obtain ⟨us₀, hdrain₀⟩ := drain_prologue
  obtain ⟨us₁, hdrain₁⟩ := @drain_message 65536 rfl (by decide)
  obtain ⟨us₂, hdrain₂⟩ := @drain_message 5000 rfl (by decide)
  rw [← hjoined] at hdrain₁
  have hstart : ∀ later, ClientState.messages.drain (ClientGate.new .main 0).toClientState
      (prologue ++ later) = (ClientState.messages.drain linked later).map
        (Framing.Drained.after us₀) := fun later => drain_append hdrain₀ later
  have hrefused : (feedAll ClientGate.feed (ClientGate.new .main 0)
      [prologue, front, back ++ small]).2.isSome = false := by
    obtain ⟨_, _, -, -, -, hverdict⟩ := hgate.result hempty [prologue, front, back ++ small]
    rw [← Bool.not_eq_true, hverdict]
    rintro ⟨-, hfits⟩
    refine hfits ⟨[prologue, front], back ++ small, [], ⟨linked, front, us₀⟩, rfl, ?_, ?_⟩
    · rw [nil_append, flatten_cons, flatten_singleton, hstart, drain_front]
      simp [Framing.Drained.after]
    · rw [length_append, hfront, hback, hsmall]
      decide
  have htaken : (feedAll ClientGate.feed (ClientGate.new .main 0)
      [prologue, front, back, small]).2.isSome = true := by
    obtain ⟨_, _, -, -, -, hverdict⟩ := hgate.result hempty [prologue, front, back, small]
    have hfeed₀ : ClientState.messages.feed ClientGate.limit
        (ClientGate.new .main 0).toClientState [] prologue = some ⟨linked, [], us₀⟩ :=
      feed_of_fits (by rw [hprologue]; decide) hdrain₀
    have hfeed₁ : ClientState.messages.feed ClientGate.limit linked [] front =
        some ⟨linked, front, []⟩ :=
      feed_of_fits (by rw [hfront]; decide) drain_front
    have hfeed₂ : ClientState.messages.feed ClientGate.limit linked front back =
        some ⟨linked, [], us₁⟩ :=
      feed_of_fits (by rw [hfront, hback]; decide) hdrain₁
    have hfeed₃ : ClientState.messages.feed ClientGate.limit linked [] small =
        some ⟨linked, [], us₂⟩ :=
      feed_of_fits (by rw [hsmall]; decide) hdrain₂
    rw [hverdict, ← admits_iff hempty]
    rw [admitted_cons hfeed₀, admitted_cons hfeed₁, admitted_cons hfeed₂,
      admitted_cons hfeed₃, Framing.admitted]
  refine ⟨.main, 0, [prologue, front, back ++ small], [prologue, front, back, small],
    ?_, ?_, hrefused, htaken, ?_⟩
  · simp
  · simp [hprologue, hfront, hback, hsmall, maxClient]
  · rintro ⟨hverdict, -⟩
    rw [hrefused, htaken] at hverdict
    cases hverdict

end Spice

end MachineEmu
