import Mathlib.Data.List.GetD
import MachineEmu.Display.Parameters

/-!
# The units of a packet

The scanners find the units that a packet was made of, each in its own way.

* `positions` — the start codes of the units; `starts_encode` — the loop finds these.
* `map_positions` — what is read at the start codes is read from the units.
* `codecFrom_eq` — the loop of the codec goes from unit to unit.
* `annex_b` — what the four scanners find.
-/

namespace MachineEmu.Display

open Lib Lib.AnnexB List

/-- The type of a unit. -/
def typeOf (u : StartCode × Nal) : UInt8 := nalType (u.2.bytes.headD 0)

/-- The start codes of units from an index on, with their lengths. -/
def positions (index : Nat) : Units → List (Nat × Nat)
  | [] => []
  | u :: units =>
    (index, u.1.bytes.length) :: positions (index + (u.1.bytes ++ u.2.bytes).length) units

section Starts

variable {payload front suffix : List UInt8} {nal : Nal} {units : Units} {fuel index : Nat}

/-- The rest of a packet behind its front. -/
theorem drop_front (h : payload = front ++ suffix) : payload.drop front.length = suffix := by
  rw [h, drop_left]

/-- The loop, inside of a unit or before one, goes on to the next start codes. -/
theorem startsFrom_eq (hpayload : payload = front ++ (suffix ++ encode units))
    (hsuffix : suffix <:+ nal.bytes) (hfuel : payload.length ≤ front.length + fuel) :
    startsFrom payload fuel front.length = positions (front.length + suffix.length) units := by
  induction fuel generalizing front suffix nal units with
  | zero =>
    have hlength := congrArg List.length hpayload
    rw [length_append, length_append] at hlength
    cases units with
    | nil => rfl
    | cons u units =>
      have := four_le_length_encode (cons_ne_nil u units)
      omega
  | succ fuel ih =>
    have hlength := congrArg List.length hpayload
    rw [length_append, length_append] at hlength
    unfold startsFrom
    rw [drop_front hpayload]
    cases hcase : suffix with
    | cons b rest =>
      rw [hcase] at hpayload hsuffix hlength
      have hnext : startsFrom payload fuel (front.length + 1) =
          positions (front.length + (b :: rest).length) units := by
        have hih := @ih (front ++ [b]) rest nal units (by simp [hpayload])
          ((suffix_cons b rest).trans hsuffix) (by rw [length_append]; simp; omega)
        rw [length_append, length_singleton] at hih
        rw [hih, length_cons]
        congr 1
        omega
      rw [startCode_suffix hsuffix (cons_ne_nil b rest)]
      split
      · exact hnext
      · -- Fewer than three bytes are left: no unit follows.
        cases units with
        | nil => rfl
        | cons u units =>
          have := four_le_length_encode (cons_ne_nil u units)
          rw [length_cons] at hlength
          omega
    | nil =>
      rw [hcase] at hpayload hlength
      cases units with
      | nil =>
        rw [nil_append, encode_nil, startCode_nil]
        simp only [encode_nil, length_nil] at hlength
        rw [if_neg (by omega)]
        rfl
      | cons u units =>
        have hfour := four_le_length_encode (cons_ne_nil u units)
        have hcode := three_le_length_bytes u.1
        rw [nil_append, encode_cons, startCode_bytes, if_pos]
        · have hih := @ih (front ++ u.1.bytes) u.2.bytes u.2 units
            (by rw [hpayload, nil_append, encode_cons, append_assoc])
            suffix_rfl (by rw [length_append]; omega)
          rw [length_append] at hih
          dsimp only
          rw [hih, positions, length_append, length_nil]
          congr 1
          congr 1
          omega
        · rw [length_nil] at hlength
          omega

/-- The start codes of a packet are those of its units. -/
theorem starts_encode (units : Units) : starts (encode units) = positions 0 units := by
  cases units with
  | nil => rfl
  | cons u units =>
    have h := @startsFrom_eq (encode (u :: units)) [] [] u.2 (u :: units) (encode (u :: units)).length
      rfl (nil_suffix) (by simp)
    exact h

end Starts

section Reads

variable {units before after : Units} {u : StartCode × Nal}

theorem encode_append (before after : Units) :
    encode (before ++ after) = encode before ++ encode after := flatMap_append

theorem encode_singleton (u : StartCode × Nal) : encode [u] = u.1.bytes ++ u.2.bytes := by
  simp [encode]

theorem positions_append (index : Nat) (before after : Units) :
    positions index (before ++ after) =
      positions index before ++ positions (index + (encode before).length) after := by
  induction before generalizing index with
  | nil => rfl
  | cons u before ih =>
    simp only [cons_append, positions, ih, encode_cons, length_append]
    simp only [Nat.add_assoc]

/-- A unit starts before the end of the units. -/
theorem lt_of_mem_positions {index : Nat} {p : Nat × Nat} (h : p ∈ positions index units) :
    p.1 < index + (encode units).length := by
  induction units generalizing index with
  | nil => exact absurd h (not_mem_nil)
  | cons u units ih =>
    have hfour := four_le_length_encode (cons_ne_nil u units)
    rcases mem_cons.1 h with rfl | h
    · dsimp only
      omega
    · have := ih h
      rw [encode_cons]
      simp only [length_append] at this ⊢
      omega

/-- The end of a unit is where the next one starts. -/
theorem endOf_eq (hunits : units = before ++ u :: after) :
    endOf (encode units) (starts (encode units)) (encode before).length =
      (encode before).length + (u.1.bytes ++ u.2.bytes).length := by
  have hbefore : ((positions 0 before).map Prod.fst).find?
      (fun next => decide ((encode before).length < next)) = none := by
    rw [List.find?_eq_none]
    intro next hnext
    obtain ⟨p, hp, rfl⟩ := mem_map.1 hnext
    have := lt_of_mem_positions hp
    rw [decide_eq_true_eq]
    omega
  have hcode := three_le_length_bytes u.1
  unfold endOf
  rw [starts_encode, hunits, positions_append, positions, map_append, List.find?_append,
    hbefore, Option.none_or, map_cons, List.find?_cons_of_neg (by simp)]
  cases after with
  | nil =>
    rw [positions, encode_append, encode_singleton]
    simp
  | cons v after =>
    rw [positions, map_cons, List.find?_cons_of_pos (by simp; omega)]
    simp

/-- A value that is read at every start code is read from the units. -/
theorem map_positions {β : Type*} {read : Nat × Nat → β} {value : StartCode × Nal → β}
    (h : ∀ before u after, units = before ++ u :: after →
      read ((encode before).length, u.1.bytes.length) = value u) :
    (starts (encode units)).map read = units.map value := by
  rw [starts_encode]
  -- The units behind some others, which are already read.
  have hafter : ∀ before after : Units, units = before ++ after →
      (positions (encode before).length after).map read = after.map value := by
    intro before after hunits
    induction after generalizing before with
    | nil => rfl
    | cons u after ih =>
      have hrest := ih (before ++ [u]) (by rw [hunits, append_assoc, singleton_append])
      rw [encode_append, length_append, encode_singleton] at hrest
      rw [positions, map_cons, map_cons, h before u after hunits, hrest]
  exact hafter [] units rfl

/-- The packet around a unit. -/
theorem encode_around (hunits : units = before ++ u :: after) :
    encode units = (encode before ++ u.1.bytes) ++ (u.2.bytes ++ encode after) := by
  rw [hunits, encode_append, encode_cons, append_assoc]

/-- The header of a unit. -/
theorem head?_nal (nal : Nal) : nal.bytes.head? = some (nal.bytes.headD 0) := by
  cases hbytes : nal.bytes with
  | nil => exact absurd hbytes nal.ne_nil
  | cons b rest => rfl

/-- The byte behind the start code is the header of the unit. -/
theorem getElem?_header (hunits : units = before ++ u :: after) :
    (encode units)[(encode before).length + u.1.bytes.length]? = some (u.2.bytes.headD 0) := by
  rw [encode_around hunits, List.getElem?_append_right (by rw [length_append]),
    length_append, Nat.sub_self, ← head?_nal, List.head?_eq_getElem?]
  exact List.getElem?_append_left (length_nal_pos u.2)

/-- The range behind the start code is the unit. -/
theorem rangeOf_unit (hunits : units = before ++ u :: after) :
    rangeOf (encode units) ((encode before).length + u.1.bytes.length)
      (endOf (encode units) (starts (encode units)) (encode before).length) = u.2.bytes := by
  have hlength : (encode before).length + (u.1.bytes ++ u.2.bytes).length -
      ((encode before).length + u.1.bytes.length) = u.2.bytes.length := by
    rw [length_append]
    omega
  rw [endOf_eq hunits, encode_around hunits]
  unfold rangeOf slice
  rw [hlength, ← length_append, drop_left, take_left]

/-- The range from the start code on is the unit with its start code. -/
theorem rangeOf_whole (hunits : units = before ++ u :: after) :
    rangeOf (encode units) (encode before).length
      (endOf (encode units) (starts (encode units)) (encode before).length) =
        u.1.bytes ++ u.2.bytes := by
  rw [endOf_eq hunits, hunits, encode_append, encode_cons]
  unfold rangeOf slice
  rw [drop_left, Nat.add_sub_cancel_left, ← append_assoc, take_left]

end Reads

section Scanners

variable {units : Units}

/-- The loop for keyframes looks at the same start codes. -/
theorem containsIdrFrom_eq (payload : List UInt8) (fuel index : Nat) :
    containsIdrFrom payload fuel index = (startsFrom payload fuel index).any fun p =>
      (payload[p.1 + p.2]?).any fun b => nalType b = 5 := by
  induction fuel generalizing index with
  | zero => rfl
  | succ fuel ih =>
    unfold containsIdrFrom startsFrom
    split
    · cases startCode (payload.drop index) with
      | none => exact ih (index + 1)
      | some n =>
        dsimp only
        rw [any_cons, ← ih, Bool.if_true_left, Bool.decide_eq_true]
    · rfl

/-- A packet has a keyframe when one of its units is one. -/
theorem containsIdr_encode (units : Units) :
    containsIdr (encode units) = units.any fun u => typeOf u = 5 := by
  have h := @map_positions units Bool
    (fun p => ((encode units)[p.1 + p.2]?).any fun b => nalType b = 5) (fun u => typeOf u = 5)
    (fun before u after hunits => by
      dsimp only
      rw [getElem?_header hunits]
      rfl)
  unfold containsIdr
  rw [containsIdrFrom_eq]
  have hany := congrArg (fun flags => flags.any id) h
  simpa only [any_map, Function.id_comp, starts] using hany

/-- What is read from some of the units only. -/
theorem flatMap_ite {α β : Type*} (p : α → Bool) (f : α → List β) (xs : List α) :
    (xs.flatMap fun x => if p x then f x else []) = (xs.filter p).flatMap f := by
  induction xs with
  | nil => rfl
  | cons x xs ih => by_cases hx : p x <;> simp [hx, ih]

theorem filterMap_ite {α β : Type*} (p : α → Bool) (f : α → β) (xs : List α) :
    (xs.filterMap fun x => if p x then some (f x) else none) = (xs.filter p).map f := by
  induction xs with
  | nil => rfl
  | cons x xs ih => by_cases hx : p x <;> simp [hx, ih]

/-- The parameters among the units. -/
def parametersOf (units : Units) : Units := units.filter fun u => typeOf u = 7 || typeOf u = 8

/-- The parameters are taken from the packet with their start codes. -/
theorem parameterSets_encode (units : Units) :
    parameterSets (encode units) = encode (parametersOf units) := by
  have h := @map_positions units (List UInt8)
    (fun p => if isParameter ((encode units).getD (p.1 + p.2) 0) then
      rangeOf (encode units) p.1 (endOf (encode units) (starts (encode units)) p.1) else [])
    (fun u => if typeOf u = 7 || typeOf u = 8 then u.1.bytes ++ u.2.bytes else [])
    (fun before u after hunits => by
      dsimp only
      rw [getD_eq_getElem?_getD, getElem?_header hunits, rangeOf_whole hunits]
      rfl)
  have hflat := congrArg List.flatten h
  rw [← flatMap_def, ← flatMap_def] at hflat
  refine Eq.trans hflat ?_
  exact flatMap_ite (fun u => typeOf u = 7 || typeOf u = 8) (fun u => u.1.bytes ++ u.2.bytes) units

/-- The units with parameters are the units of these types. -/
theorem parameterNals_encode (units : Units) :
    parameterNals (encode units) = (parametersOf units).map fun u => u.2.bytes := by
  have h := @map_positions units (Option (List UInt8))
    (fun p =>
      let nal := rangeOf (encode units) (p.1 + p.2)
        (endOf (encode units) (starts (encode units)) p.1)
      if nal.head?.any isParameter then some nal else none)
    (fun u => if typeOf u = 7 || typeOf u = 8 then some u.2.bytes else none)
    (fun before u after hunits => by
      dsimp only
      rw [rangeOf_unit hunits, head?_nal]
      rfl)
  have hmap := congrArg (List.filterMap id) h
  rw [filterMap_map, filterMap_map] at hmap
  exact hmap.trans (filterMap_ite (fun u => typeOf u = 7 || typeOf u = 8) (fun u => u.2.bytes) units)

/-- The first unit of a type among the parameters is the first one of all. -/
theorem firstOf_encode {type : UInt8} (htype : type = 7 ∨ type = 8) (units : Units) :
    firstOf type (parameterNals (encode units)) =
      (units.find? fun u => typeOf u = type).map fun u => u.2.bytes := by
  unfold firstOf
  rw [parameterNals_encode, List.find?_map]
  unfold parametersOf
  rw [List.find?_filter]
  congr 2
  funext u
  rw [Function.comp_apply, head?_nal]
  change decide ((decide (typeOf u = 7) || decide (typeOf u = 8)) = true ∧
    decide (typeOf u = type) = true) = decide (typeOf u = type)
  rcases htype with rfl | rfl <;> simp +contextual

/-- The name of the codec of a unit. -/
def codecName (sps : List UInt8) : String :=
  "avc1." ++ Sha256.hex [(sps.getD 1 0).toNat, (sps.getD 2 0).toNat, (sps.getD 3 0).toNat]

/-- The next start code is at the end of the unit. -/
theorem nextStart_eq {front : List UInt8} {nal : Nal} {after : Units} {payload : List UInt8}
    (hpayload : payload = front ++ (nal.bytes ++ encode after)) :
    nextStart payload front.length = front.length + nal.bytes.length := by
  have hdrop : ∀ i, i ≤ nal.bytes.length →
      payload.drop (front.length + i) = nal.bytes.drop i ++ encode after := by
    intro i hi
    rw [hpayload, ← drop_drop, drop_left, drop_append_of_le_length hi]
  have hinside : ∀ i, i < nal.bytes.length →
      startCode (payload.drop (front.length + i)) = none := by
    intro i hi
    rw [hdrop i (Nat.le_of_lt hi)]
    exact startCode_suffix (drop_suffix i nal.bytes) (by simp; omega) (encode after)
  have hlength := congrArg List.length hpayload
  rw [length_append, length_append] at hlength
  unfold nextStart
  cases after with
  | nil =>
    rw [encode_nil, length_nil] at hlength
    rw [List.find?_range'_eq_none.2, Option.getD_none]
    · omega
    · intro i hstart hstop
      obtain ⟨i, rfl⟩ := Nat.exists_eq_add_of_le hstart
      rw [hinside i (by omega)]
      rfl
  | cons v after =>
    have hfour := four_le_length_encode (cons_ne_nil v after)
    rw [List.find?_range'_eq_some.2, Option.getD_some]
    refine ⟨?_, ?_, ?_⟩
    · rw [hdrop _ le_rfl, drop_length, nil_append, encode_cons, startCode_bytes]
      rfl
    · rw [mem_range'_1]
      omega
    · intro i hstart hstop
      obtain ⟨i, rfl⟩ := Nat.exists_eq_add_of_le hstart
      rw [hinside i (by omega)]
      rfl

/-- The loop for the codec goes from unit to unit. -/
theorem codecFrom_eq {payload front : List UInt8} {fuel : Nat}
    (hpayload : payload = front ++ encode units) (hfuel : payload.length ≤ front.length + fuel) :
    codecFrom payload fuel front.length =
      (units.find? fun u => 4 ≤ u.2.bytes.length ∧ typeOf u = 7).map fun u =>
        codecName u.2.bytes := by
  induction fuel generalizing front units with
  | zero =>
    have hlength := congrArg List.length hpayload
    rw [length_append] at hlength
    cases units with
    | nil => rfl
    | cons u units =>
      have := four_le_length_encode (cons_ne_nil u units)
      omega
  | succ fuel ih =>
    have hlength := congrArg List.length hpayload
    rw [length_append] at hlength
    unfold codecFrom
    rw [drop_front hpayload]
    cases units with
    | nil =>
      rw [encode_nil, length_nil] at hlength
      rw [if_neg (by omega)]
      rfl
    | cons u units =>
      have hfour := four_le_length_encode (cons_ne_nil u units)
      have hcode := three_le_length_bytes u.1
      have hunit : payload = (front ++ u.1.bytes) ++ (u.2.bytes ++ encode units) := by
        rw [hpayload, encode_cons, append_assoc]
      have hstop := nextStart_eq hunit
      have hih := @ih units (front ++ u.1.bytes ++ u.2.bytes)
        (by rw [hunit]; simp only [append_assoc])
        (by rw [length_append, length_append]; omega)
      rw [length_append] at hstop
      rw [length_append, length_append] at hih
      have hread : ∀ i, i < u.2.bytes.length →
          payload.getD (front.length + u.1.bytes.length + i) 0 = u.2.bytes.getD i 0 := by
        intro i hi
        rw [hunit, ← length_append, getD_append_right _ _ _ _ (Nat.le_add_right _ _),
          Nat.add_sub_cancel_left, getD_append _ _ _ _ hi]
      have hheader : nalType (payload.getD (front.length + u.1.bytes.length) 0) = typeOf u := by
        rw [← Nat.add_zero (front.length + u.1.bytes.length), hread 0 (length_nal_pos u.2),
          getD_eq_getElem?_getD, ← List.head?_eq_getElem?, head?_nal]
        rfl
      rw [if_pos (by omega), encode_cons, startCode_bytes]
      dsimp only
      rw [hstop, hheader]
      by_cases hsps : 4 ≤ u.2.bytes.length ∧ typeOf u = 7
      · rw [if_pos ⟨by omega, hsps.2⟩, List.find?_cons_of_pos (by simpa using hsps),
          hread 1 (by omega), hread 2 (by omega), hread 3 (by omega)]
        rfl
      · rw [if_neg (fun hfound => hsps ⟨by omega, hfound.2⟩),
          List.find?_cons_of_neg (by simpa using hsps), hih]

/-- The codec of a packet. -/
theorem codecFromSps_encode (units : Units) :
    codecFromSps (encode units) =
      (units.find? fun u => 4 ≤ u.2.bytes.length ∧ typeOf u = 7).map fun u =>
        codecName u.2.bytes :=
  @codecFrom_eq units (encode units) [] (encode units).length rfl (by simp)

/-- The first unit of a type, among the parameters. -/
theorem find?_parametersOf {type : UInt8} (htype : type = 7 ∨ type = 8) (units : Units) :
    ((parametersOf units).find? fun u => typeOf u = type) = units.find? fun u => typeOf u = type := by
  unfold parametersOf
  rw [List.find?_filter]
  congr 1
  funext u
  rcases htype with rfl | rfl <;> simp +contextual

/-- The first one of some is the first one with another property too. -/
theorem find?_and {α : Type*} {p q : α → Prop} [DecidablePred p] [DecidablePred q] {xs : List α}
    {x : α} (h : (xs.find? fun x => p x) = some x) (hx : q x) :
    (xs.find? fun x => q x ∧ p x) = some x := by
  rw [List.find?_eq_some_iff_append] at h ⊢
  obtain ⟨hp, front, later, rfl, hfront⟩ := h
  refine ⟨by simpa using ⟨hx, of_decide_eq_true hp⟩, front, later, rfl, fun y hy => ?_⟩
  have := hfront y hy
  simp only [Bool.not_eq_true', decide_eq_false_iff_not] at this ⊢
  exact fun h => this h.2

/-- A description is there for a pair of units, the first one of four bytes and more. -/
theorem avccDescription_encode {bytes : List UInt8}
    (h : avccDescription (encode units) = some bytes) :
    ∃ sps pps, (units.find? fun u => typeOf u = 7) = some sps ∧
      (units.find? fun u => typeOf u = 8) = some pps ∧ 4 ≤ sps.2.bytes.length ∧
        sps.2.bytes.length < 2 ^ 16 ∧ pps.2.bytes.length < 2 ^ 16 ∧
          bytes = description sps.2.bytes pps.2.bytes := by
  unfold avccDescription at h
  rw [firstOf_encode (Or.inl rfl), firstOf_encode (Or.inr rfl)] at h
  cases hsps : units.find? fun u => typeOf u = 7 with
  | none => simp [hsps] at h
  | some sps =>
    cases hpps : units.find? fun u => typeOf u = 8 with
    | none => simp [hsps, hpps] at h
    | some pps =>
      simp only [hsps, hpps, Option.map_some] at h
      split at h
      · exact absurd h (by simp)
      · exact ⟨sps, pps, rfl, rfl, by omega, by omega, by omega, (Option.some.inj h).symm⟩

/-- A decoder takes the two units from their description. -/
theorem parseAvcc_description {sps pps : List UInt8} (hsps : sps.length < 2 ^ 16)
    (hpps : pps.length < 2 ^ 16) : parseAvcc (description sps pps) = some (sps, pps) := by
  -- The fields of the description, from the front on.
  have hmark : slice (description sps pps) 4 2 = [0xff, 0xe1] := rfl
  have hn : slice (description sps pps) 6 2 = beBytes 2 sps.length := by
    have h := @slice_middle UInt8 6 2 [1, sps.getD 1 0, sps.getD 2 0, sps.getD 3 0, 0xff, 0xe1]
      (beBytes 2 sps.length) rfl (length_beBytes 2 _) (sps ++ [1] ++ beBytes 2 pps.length ++ pps)
    simpa only [description, append_assoc] using h
  have hfirst : slice (description sps pps) 8 sps.length = sps := by
    have h := @slice_middle UInt8 8 sps.length
      ([1, sps.getD 1 0, sps.getD 2 0, sps.getD 3 0, 0xff, 0xe1] ++ beBytes 2 sps.length) sps
      (by simp) rfl ([1] ++ beBytes 2 pps.length ++ pps)
    simpa only [description, append_assoc] using h
  have hone : slice (description sps pps) (8 + sps.length) 1 = [1] := by
    have h := @slice_middle UInt8 (8 + sps.length) 1
      ([1, sps.getD 1 0, sps.getD 2 0, sps.getD 3 0, 0xff, 0xe1] ++ beBytes 2 sps.length ++ sps) [1]
      (by simp; omega) rfl (beBytes 2 pps.length ++ pps)
    simpa only [description, append_assoc] using h
  have hm : slice (description sps pps) (9 + sps.length) 2 = beBytes 2 pps.length := by
    have h := @slice_middle UInt8 (9 + sps.length) 2
      ([1, sps.getD 1 0, sps.getD 2 0, sps.getD 3 0, 0xff, 0xe1] ++ beBytes 2 sps.length ++ sps ++ [1])
      (beBytes 2 pps.length) (by simp; omega) (length_beBytes 2 _) pps
    simpa only [description, append_assoc] using h
  have hsecond : slice (description sps pps) (11 + sps.length) pps.length = pps := by
    have h := @slice_middle UInt8 (11 + sps.length) pps.length
      ([1, sps.getD 1 0, sps.getD 2 0, sps.getD 3 0, 0xff, 0xe1] ++ beBytes 2 sps.length ++ sps ++
        [1] ++ beBytes 2 pps.length) pps (by simp; omega) rfl []
    simpa only [description, append_assoc, append_nil] using h
  have hlength : (description sps pps).length = 11 + sps.length + pps.length := by
    simp [description]
    omega
  have hnNat : beNat (beBytes 2 sps.length) = sps.length := by
    rw [beNat_beBytes]
    exact Nat.mod_eq_of_lt hsps
  have hmNat : beNat (beBytes 2 pps.length) = pps.length := by
    rw [beNat_beBytes]
    exact Nat.mod_eq_of_lt hpps
  unfold parseAvcc
  simp only [hn, hnNat, hm, hmNat, hfirst, hsecond]
  exact if_pos ⟨rfl, hmark, hone, hlength⟩

/-- The four scanners agree on every packet that is made of units. -/
theorem annex_b (units : Units) :
    (containsIdr (encode units) = true ↔ ∃ u ∈ units, typeOf u = 5) ∧
      parameterSets (encode units) =
        encode (units.filter fun u => typeOf u = 7 || typeOf u = 8) ∧
      ∀ codec bytes, codecFromSps (parameterSets (encode units)) = some codec →
        avccDescription (parameterSets (encode units)) = some bytes →
          ∃ sps pps, (units.find? fun u => typeOf u = 7) = some sps ∧
            (units.find? fun u => typeOf u = 8) = some pps ∧ codec = codecName sps.2.bytes ∧
              bytes = description sps.2.bytes pps.2.bytes ∧
                parseAvcc bytes = some (sps.2.bytes, pps.2.bytes) := by
  refine ⟨?_, parameterSets_encode units, fun codec bytes hcodec hbytes => ?_⟩
  · rw [containsIdr_encode]
    simp only [any_eq_true, decide_eq_true_eq]
  · rw [parameterSets_encode] at hcodec hbytes
    obtain ⟨sps, pps, hsps, hpps, hfour, hspsLength, hppsLength, rfl⟩ :=
      avccDescription_encode hbytes
    have hfirst := hsps
    rw [find?_parametersOf (Or.inl rfl)] at hsps
    rw [find?_parametersOf (Or.inr rfl)] at hpps
    refine ⟨sps, pps, hsps, hpps, ?_, rfl, parseAvcc_description hspsLength hppsLength⟩
    -- The first unit of the type has four bytes: the codec is taken from it as well.
    rw [codecFromSps_encode, find?_and hfirst hfour] at hcodec
    exact (Option.some.inj hcodec).symm

example : codecFromSps [0, 0, 0, 1, 0x67, 66, 0, 31, 0, 0, 1, 0x68, 206] = some "avc1.42001f" := by
  decide +kernel

end Scanners

end MachineEmu.Display
