import Mathlib.Data.List.Basic
import Mathlib.Data.Nat.Init

/-!
# Units cut out of a stream

A parser takes one unit after the other from the front of a buffer. What it makes of a stream does
not depend on how the stream is cut into chunks, unless the buffer has a limit.

* `Framing` — a parser whose answers are stable when more elements arrive.
* `Framing.drain` — the loop that takes units as long as there are any.
* `Framing.drain_append` — draining in two steps is draining at once.
* `Framing.drainChunks_eq` — without a limit the chunks do not matter.
* `Framing.feedAll` — the chunks of a stream, one after the other, into a buffer with a limit.
* `Framing.feedAll_eq`, `Framing.admits_iff` — what is taken, and which cuttings are admitted.
* `Framing.lastAdmitted_iff` — the chunks before the first that is refused, without the buffer.
-/

namespace Lib

open List Option

/-- What a parser makes of the buffer: it has too little, it refuses it, the first `n` elements are
a unit, or it takes everything from here on. -/
inductive Parse (σ β : Type) where
  | more
  | bad
  | unit (n : Nat) (next : σ) (value : β)
  | rest

/-- A parser of units. Elements that arrive later change nothing about a unit that is there or
about a refusal. -/
structure Framing (σ α β : Type) where
  parse : σ → List α → Parse σ β
  unit_bound : ∀ {s bs n s' v}, parse s bs = .unit n s' v → 0 < n ∧ n ≤ bs.length
  unit_append : ∀ {s bs n s' v}, parse s bs = .unit n s' v → ∀ later,
    parse s (bs ++ later) = .unit n s' v
  bad_append : ∀ {s bs}, parse s bs = .bad → ∀ later, parse s (bs ++ later) = .bad
  rest_always : ∀ {s bs}, parse s bs = .rest → ∀ later, parse s later = .rest

namespace Framing

variable {σ α β : Type} (F : Framing σ α β)

/-- What is left after draining: the state, the rest of the buffer and the units. -/
structure Drained (σ α β : Type) where
  state : σ
  rest : List α
  units : List β

/-- Draining after some units. -/
def Drained.after (vs : List β) (d : Drained σ α β) : Drained σ α β :=
  { d with units := vs ++ d.units }

@[simp] theorem Drained.after_after (us vs : List β) (d : Drained σ α β) :
    (d.after us).after vs = d.after (vs ++ us) := by
  simp [Drained.after]

@[simp] theorem map_after_nil (o : Option (Drained σ α β)) : o.map (Drained.after []) = o := by
  cases o <;> rfl

@[simp] theorem map_after_after (us vs : List β) (o : Option (Drained σ α β)) :
    (o.map (Drained.after us)).map (Drained.after vs) = o.map (Drained.after (vs ++ us)) := by
  cases o <;> simp

/-- Take units, at most `fuel` of them. -/
def loop : Nat → σ → List α → Option (Drained σ α β)
  | 0, s, bs => some ⟨s, bs, []⟩
  | fuel + 1, s, bs =>
    match F.parse s bs with
    | .more => some ⟨s, bs, []⟩
    | .bad => none
    | .unit n s' v => (loop fuel s' (bs.drop n)).map (Drained.after [v])
    | .rest => some ⟨s, [], []⟩

/-- Take units as long as there are any, unless one is refused. -/
def drain (s : σ) (bs : List α) : Option (Drained σ α β) := F.loop (bs.length + 1) s bs

/-! ## Draining -/

variable {F} {bs : List α} {s : σ}

theorem loop_add {fuel : Nat} (h : bs.length < fuel) (extra : Nat) :
    F.loop (fuel + extra) s bs = F.loop fuel s bs := by
  induction fuel generalizing s bs with
  | zero => omega
  | succ fuel ih =>
    rw [Nat.succ_add]
    unfold loop
    split
    · rfl
    · rfl
    · next n s' v hunit =>
      have hbound := F.unit_bound hunit
      have hlength : (bs.drop n).length < fuel := by
        rw [length_drop]
        omega
      rw [ih hlength]
    · rfl

/-- More fuel than elements is enough. -/
theorem loop_eq_drain {fuel : Nat} (h : bs.length < fuel) : F.loop fuel s bs = F.drain s bs := by
  obtain ⟨extra, rfl⟩ := Nat.exists_eq_add_of_lt h
  rw [Nat.add_right_comm]
  exact loop_add (Nat.lt_succ_self _) extra

theorem drain_of_more (h : F.parse s bs = .more) : F.drain s bs = some ⟨s, bs, []⟩ := by
  unfold drain loop
  rw [h]

theorem drain_of_bad (h : F.parse s bs = .bad) : F.drain s bs = none := by
  unfold drain loop
  rw [h]

theorem drain_of_rest (h : F.parse s bs = .rest) : F.drain s bs = some ⟨s, [], []⟩ := by
  unfold drain loop
  rw [h]

theorem drain_of_unit {s' : σ} {n : Nat} {v : β} (h : F.parse s bs = .unit n s' v) :
    F.drain s bs = (F.drain s' (bs.drop n)).map (Drained.after [v]) := by
  have hbound := F.unit_bound h
  have hlength : (bs.drop n).length < bs.length := by
    rw [length_drop]
    omega
  conv_lhs => unfold drain loop
  rw [h]
  dsimp only
  rw [loop_eq_drain hlength]

/-- Draining goes by the units. -/
theorem drain_induction {motive : σ → List α → Prop}
    (more : ∀ s bs, F.parse s bs = .more → motive s bs)
    (bad : ∀ s bs, F.parse s bs = .bad → motive s bs)
    (unit : ∀ s bs n s' v, F.parse s bs = .unit n s' v → motive s' (bs.drop n) → motive s bs)
    (rest : ∀ s bs, F.parse s bs = .rest → motive s bs) (s : σ) (bs : List α) : motive s bs := by
  induction hlength : bs.length using Nat.strong_induction_on generalizing s bs with
  | h length ih =>
    cases hparse : F.parse s bs with
    | more => exact more s bs hparse
    | bad => exact bad s bs hparse
    | rest => exact rest s bs hparse
    | unit n s' v =>
      have hbound := F.unit_bound hparse
      refine unit s bs n s' v hparse (ih _ ?_ s' _ rfl)
      rw [length_drop]
      omega

/-- A refusal stands. -/
theorem drain_append_of_none (h : F.drain s bs = none) (later : List α) :
    F.drain s (bs ++ later) = none := by
  induction s, bs using F.drain_induction with
  | more s bs hmore =>
    rw [drain_of_more hmore] at h
    cases h
  | bad s bs hbad => exact drain_of_bad (F.bad_append hbad later)
  | rest s bs hrest =>
    rw [drain_of_rest hrest] at h
    cases h
  | unit s bs n s' v hunit ih =>
    rw [drain_of_unit hunit, map_eq_none_iff] at h
    rw [drain_of_unit (F.unit_append hunit later), drop_append_of_le_length
      (F.unit_bound hunit).2, ih h, map_none]

variable {d : Drained σ α β}

/-- Draining in two steps is draining at once. -/
theorem drain_append (h : F.drain s bs = some d) (later : List α) :
    F.drain s (bs ++ later) = (F.drain d.state (d.rest ++ later)).map (Drained.after d.units) := by
  induction s, bs using F.drain_induction generalizing d with
  | more s bs hmore =>
    rw [drain_of_more hmore] at h
    cases h
    cases F.drain s (bs ++ later) <;> rfl
  | bad s bs hbad =>
    rw [drain_of_bad hbad] at h
    cases h
  | rest s bs hrest =>
    rw [drain_of_rest hrest] at h
    cases h
    rw [drain_of_rest (F.rest_always hrest _), drain_of_rest (F.rest_always hrest _)]
    rfl
  | unit s bs n s' v hunit ih =>
    rw [drain_of_unit hunit] at h
    obtain ⟨d', hd', rfl⟩ := map_eq_some_iff.1 h
    rw [drain_of_unit (F.unit_append hunit later), drop_append_of_le_length
      (F.unit_bound hunit).2, ih hd', Option.map_map]
    rfl

/-- What draining leaves is drained. -/
theorem drain_drained (h : F.drain s bs = some d) :
    F.drain d.state d.rest = some ⟨d.state, d.rest, []⟩ := by
  induction s, bs using F.drain_induction generalizing d with
  | more s bs hmore =>
    rw [drain_of_more hmore] at h
    cases h
    exact drain_of_more hmore
  | bad s bs hbad =>
    rw [drain_of_bad hbad] at h
    cases h
  | rest s bs hrest =>
    rw [drain_of_rest hrest] at h
    cases h
    exact drain_of_rest (F.rest_always hrest _)
  | unit s bs n s' v hunit ih =>
    rw [drain_of_unit hunit] at h
    obtain ⟨d', hd', rfl⟩ := map_eq_some_iff.1 h
    exact ih (d := d') hd'

/-! ## Chunks -/

variable (F)

/-- The chunks one after the other, into a buffer without a limit. -/
def drainChunks : σ → List α → List (List α) → Option (Drained σ α β)
  | s, buffer, [] => some ⟨s, buffer, []⟩
  | s, buffer, chunk :: chunks =>
    (F.drain s (buffer ++ chunk)).bind fun d =>
      (drainChunks d.state d.rest chunks).map (Drained.after d.units)

/-- Put a chunk into a buffer that holds at most `limit` elements and take the units. -/
def feed (limit : Nat) (s : σ) (buffer chunk : List α) : Option (Drained σ α β) :=
  if limit < (buffer ++ chunk).length then none else F.drain s (buffer ++ chunk)

/-- The chunks one after the other, up to one that is refused: the units that were taken, and what
is left unless a chunk was refused. -/
def feedAll (limit : Nat) : σ → List α → List (List α) → List β × Option (σ × List α)
  | s, buffer, [] => ([], some (s, buffer))
  | s, buffer, chunk :: chunks =>
    match F.feed limit s buffer chunk with
    | none => ([], none)
    | some d =>
      let r := feedAll limit d.state d.rest chunks
      (d.units ++ r.1, r.2)

/-- The chunks before one that is refused. -/
def admitted (limit : Nat) : σ → List α → List (List α) → List (List α)
  | _, _, [] => []
  | s, buffer, chunk :: chunks =>
    match F.feed limit s buffer chunk with
    | none => []
    | some d => chunk :: admitted limit d.state d.rest chunks

/-- Some chunk does not fit behind what the chunks before it have left in the buffer. -/
def Overflows (limit : Nat) (s : σ) (buffer : List α) (chunks : List (List α)) : Prop :=
  ∃ earlier chunk later d, chunks = earlier ++ chunk :: later ∧
    F.drain s (buffer ++ earlier.flatten) = some d ∧ limit < d.rest.length + chunk.length

/-- No unit of the stream is refused and every chunk fits. -/
def Admits (limit : Nat) (s : σ) (buffer : List α) (chunks : List (List α)) : Prop :=
  F.drain s (buffer ++ chunks.flatten) ≠ none ∧ ¬ F.Overflows limit s buffer chunks

/-- The chunks up to the first that is not admitted. -/
def LastAdmitted (limit : Nat) (s : σ) (buffer : List α) (chunks earlier : List (List α)) : Prop :=
  earlier <+: chunks ∧ F.Admits limit s buffer earlier ∧
    ∀ chunk, earlier ++ [chunk] <+: chunks → ¬ F.Admits limit s buffer (earlier ++ [chunk])

variable {F}

variable {limit : Nat} {s : σ} {buffer chunk : List α} {chunks : List (List α)}

/-- Without a limit the chunks do not matter. -/
theorem drainChunks_eq (hbuffer : F.drain s buffer = some ⟨s, buffer, []⟩) :
    F.drainChunks s buffer chunks = F.drain s (buffer ++ chunks.flatten) := by
  induction chunks generalizing s buffer with
  | nil => rw [drainChunks, flatten_nil, append_nil, hbuffer]
  | cons chunk chunks ih =>
    rw [drainChunks, flatten_cons, ← append_assoc]
    cases hdrain : F.drain s (buffer ++ chunk) with
    | none => rw [drain_append_of_none hdrain, bind_none]
    | some d => rw [drain_append hdrain, bind_some, ih (drain_drained hdrain)]

theorem feed_eq_some (h : F.feed limit s buffer chunk = some d) :
    buffer.length + chunk.length ≤ limit ∧ F.drain s (buffer ++ chunk) = some d := by
  unfold feed at h
  rw [length_append] at h
  split at h
  · cases h
  · next hfits => exact ⟨Nat.not_lt.1 hfits, h⟩

theorem feed_of_fits (hfits : buffer.length + chunk.length ≤ limit)
    (h : F.drain s (buffer ++ chunk) = some d) : F.feed limit s buffer chunk = some d := by
  rw [← length_append] at hfits
  rw [feed, if_neg (Nat.not_lt.2 hfits), h]

theorem admitted_cons (h : F.feed limit s buffer chunk = some d) :
    F.admitted limit s buffer (chunk :: chunks) = chunk :: F.admitted limit d.state d.rest chunks := by
  rw [admitted, h]

/-- What the admitted chunks hold is drained. -/
theorem feedAll_eq (hbuffer : F.drain s buffer = some ⟨s, buffer, []⟩) :
    ∃ d, F.drain s (buffer ++ (F.admitted limit s buffer chunks).flatten) = some d ∧
      (F.feedAll limit s buffer chunks).1 = d.units ∧
      (F.admitted limit s buffer chunks = chunks →
        (F.feedAll limit s buffer chunks).2 = some (d.state, d.rest)) ∧
      (F.admitted limit s buffer chunks ≠ chunks →
        (F.feedAll limit s buffer chunks).2 = none) := by
  induction chunks generalizing s buffer with
  | nil =>
    refine ⟨⟨s, buffer, []⟩, ?_, rfl, fun _ => rfl, fun h => absurd rfl h⟩
    rw [admitted, flatten_nil, append_nil, hbuffer]
  | cons chunk chunks ih =>
    unfold admitted feedAll
    cases hfeed : F.feed limit s buffer chunk with
    | none =>
      refine ⟨⟨s, buffer, []⟩, ?_, rfl, nofun, fun _ => rfl⟩
      rw [flatten_nil, append_nil, hbuffer]
    | some d =>
      have hdrain := (feed_eq_some hfeed).2
      obtain ⟨d', hd', hunits, hall, hnot⟩ := ih (drain_drained hdrain)
      refine ⟨d'.after d.units, ?_, ?_, ?_, ?_⟩
      · rw [flatten_cons, ← append_assoc, drain_append hdrain, hd']
        rfl
      · dsimp only
        rw [hunits]
        rfl
      · intro h
        exact hall (List.cons.inj h).2
      · intro h
        exact hnot fun hsame => h (congrArg _ hsame)

theorem overflows_cons (hbuffer : F.drain s buffer = some ⟨s, buffer, []⟩)
    (h : F.feed limit s buffer chunk = some d) :
    F.Overflows limit s buffer (chunk :: chunks) ↔ F.Overflows limit d.state d.rest chunks := by
  obtain ⟨hfits, hdrain⟩ := feed_eq_some h
  constructor
  · rintro ⟨earlier, chunk', later, d', hchunks, hd', hlimit⟩
    cases earlier with
    | nil =>
      -- the first chunk fits
      obtain ⟨rfl, rfl⟩ := List.cons.inj hchunks
      rw [flatten_nil, append_nil, hbuffer] at hd'
      cases hd'
      exact absurd hfits (Nat.not_le.2 hlimit)
    | cons first earlier =>
      obtain ⟨rfl, rfl⟩ := List.cons.inj hchunks
      rw [flatten_cons, ← append_assoc, drain_append hdrain] at hd'
      obtain ⟨d'', hd'', rfl⟩ := map_eq_some_iff.1 hd'
      exact ⟨earlier, chunk', later, d'', rfl, hd'', hlimit⟩
  · rintro ⟨earlier, chunk', later, d', rfl, hd', hlimit⟩
    refine ⟨chunk :: earlier, chunk', later, d'.after d.units, rfl, ?_, hlimit⟩
    rw [flatten_cons, ← append_assoc, drain_append hdrain, hd']
    rfl

/-- A cutting is admitted when the stream has no refused unit and every chunk fits. -/
theorem admits_iff (hbuffer : F.drain s buffer = some ⟨s, buffer, []⟩) :
    F.admitted limit s buffer chunks = chunks ↔ F.Admits limit s buffer chunks := by
  unfold Admits
  induction chunks generalizing s buffer with
  | nil =>
    rw [flatten_nil, append_nil, hbuffer]
    refine iff_of_true rfl ⟨nofun, ?_⟩
    rintro ⟨earlier, chunk, later, d, hchunks, -⟩
    cases earlier <;> cases hchunks
  | cons chunk chunks ih =>
    unfold admitted
    cases hfeed : F.feed limit s buffer chunk with
    | none =>
      refine iff_of_false nofun ?_
      rintro ⟨hstream, hfits⟩
      unfold feed at hfeed
      split at hfeed
      · next hlimit =>
        refine hfits ⟨[], chunk, chunks, ⟨s, buffer, []⟩, rfl, ?_, ?_⟩
        · rw [flatten_nil, append_nil, hbuffer]
        · rwa [length_append] at hlimit
      · rw [flatten_cons, ← append_assoc] at hstream
        exact hstream (drain_append_of_none hfeed _)
    | some d =>
      have hdrain := (feed_eq_some hfeed).2
      rw [overflows_cons hbuffer hfeed, flatten_cons, ← append_assoc, drain_append hdrain,
        Ne, map_eq_none_iff, ← Ne, ← ih (drain_drained hdrain)]
      constructor
      · exact fun h => (List.cons.inj h).2
      · exact fun h => congrArg _ h

/-! ### The chunks before the first that is refused -/

theorem Admits.front {earlier : List (List α)} (h : F.Admits limit s buffer chunks)
    (hfront : earlier <+: chunks) : F.Admits limit s buffer earlier := by
  obtain ⟨later, rfl⟩ := hfront
  constructor
  · intro hnone
    apply h.1
    rw [flatten_append, ← append_assoc, drain_append_of_none hnone]
  · rintro ⟨before, chunk, after, d, rfl, hdrain, hlimit⟩
    refine h.2 ⟨before, chunk, after ++ later, d, ?_, hdrain, hlimit⟩
    rw [append_assoc, cons_append]

theorem admitted_isPrefixOf : F.admitted limit s buffer chunks <+: chunks := by
  induction chunks generalizing s buffer with
  | nil => exact prefix_refl []
  | cons chunk chunks ih =>
    unfold admitted
    split
    · exact nil_prefix
    · exact cons_prefix_cons.2 ⟨rfl, ih⟩

/-- A front that is admitted on its own is among the chunks that are admitted. -/
theorem prefix_admitted {earlier : List (List α)} (hfront : earlier <+: chunks)
    (h : F.admitted limit s buffer earlier = earlier) :
    earlier <+: F.admitted limit s buffer chunks := by
  induction earlier generalizing s buffer chunks with
  | nil => exact nil_prefix
  | cons chunk earlier ih =>
    obtain ⟨later, rfl⟩ := hfront
    rw [cons_append]
    unfold admitted at h ⊢
    cases hfeed : F.feed limit s buffer chunk with
    | none =>
      rw [hfeed] at h
      cases h
    | some d =>
      rw [hfeed] at h
      exact cons_prefix_cons.2 ⟨rfl, ih (prefix_append _ _) (List.cons.inj h).2⟩

theorem admitted_admitted :
    F.admitted limit s buffer (F.admitted limit s buffer chunks) =
      F.admitted limit s buffer chunks := by
  induction chunks generalizing s buffer with
  | nil => rfl
  | cons chunk chunks ih =>
    cases hfeed : F.feed limit s buffer chunk with
    | none => simp only [admitted, hfeed]
    | some d => simp only [admitted, hfeed, ih]

theorem lastAdmitted_iff {earlier : List (List α)}
    (hbuffer : F.drain s buffer = some ⟨s, buffer, []⟩) :
    F.LastAdmitted limit s buffer chunks earlier ↔ earlier = F.admitted limit s buffer chunks := by
  constructor
  · rintro ⟨hfront, hadmits, hlast⟩
    obtain ⟨more, hmore⟩ := prefix_admitted hfront ((admits_iff hbuffer).2 hadmits)
    cases more with
    | nil => rw [← hmore, append_nil]
    | cons chunk more =>
      -- the next chunk would be admitted too
      have hnext : earlier ++ [chunk] <+: F.admitted limit s buffer chunks :=
        ⟨more, by rw [append_assoc, singleton_append, hmore]⟩
      have hall : F.Admits limit s buffer (F.admitted limit s buffer chunks) :=
        (admits_iff hbuffer).1 admitted_admitted
      exact absurd (hall.front hnext) (hlast chunk (hnext.trans admitted_isPrefixOf))
  · rintro rfl
    refine ⟨admitted_isPrefixOf, (admits_iff hbuffer).1 admitted_admitted, fun chunk hnext h => ?_⟩
    have hlength := (prefix_admitted hnext ((admits_iff hbuffer).2 h)).length_le
    rw [length_append] at hlength
    exact absurd hlength (Nat.not_le.2 (Nat.lt_succ_self _))

end Framing

end Lib
