import MachineEmu.Engine.Plan
import MachineEmu.Lib.Gaps

/-!
# MAC addresses

The addresses that the planner accepts, and those that it makes.

* `Unicast` — six octets of two hexadecimal digits, of which the first is even.
* `mac_eq_ok_iff` — the planner accepts these, and writes them in lowercase.
* `octets_colonHex`, `colonHex_injective` — an address that is written from bytes.
* `adjacentMac_injective` — the addresses after a base address.
* `portAddresses_udmPorts` — the addresses of the ports of a board.
-/

namespace MachineEmu.Planner

open Lib List

/-! ## Digits -/

/-- The two digits of a byte. -/
def digits (b : Nat) : List Char := [Sha256.hexDigit (b / 16), Sha256.hexDigit (b % 16)]

theorem isHexDigit_hexDigit : ∀ n < 16, isHexDigit (Sha256.hexDigit n) = true := by decide

theorem toLower_hexDigit : ∀ n < 16, (Sha256.hexDigit n).toLower = Sha256.hexDigit n := by decide

theorem colon_notMem_digits : ∀ b < 256, ':' ∉ digits b := by decide +kernel

theorem hexValue_digits : ∀ b < 256, hexValue (digits b) = b := by decide +kernel

theorem all_isHexDigit_digits {b : Nat} (h : b < 256) : (digits b).all isHexDigit = true := by
  simp [digits, isHexDigit_hexDigit (b / 16) (by omega), isHexDigit_hexDigit (b % 16) (by omega)]

theorem map_toLower_digits {b : Nat} (h : b < 256) : (digits b).map Char.toLower = digits b := by
  simp [digits, toLower_hexDigit (b / 16) (by omega), toLower_hexDigit (b % 16) (by omega)]

/-! ## Bytes -/

section Bytes

variable {bytes other : List Nat}

theorem toList_colonHex (bytes : List Nat) :
    (colonHex bytes).toList = [':'].intercalate (bytes.map digits) := by
  have hhex : String.toList ∘ (fun b => Sha256.hex [b]) = digits := by
    funext b
    simp [Sha256.hex, digits]
  unfold colonHex joinWith
  rw [String.toList_intercalate, map_map, hhex]
  rfl

/-- The octets of an address are those it was written from. -/
theorem octets_colonHex (hne : bytes ≠ []) (h : ∀ b ∈ bytes, b < 256) :
    octets (colonHex bytes) = bytes.map digits := by
  unfold octets
  rw [toList_colonHex]
  refine splitOn_intercalate ':' ?_ (by simpa using hne)
  intro octet hoctet
  obtain ⟨b, hb, rfl⟩ := mem_map.1 hoctet
  exact colon_notMem_digits b (h b hb)

/-- The bytes of an address are those it was written from. -/
theorem map_hexValue_octets_colonHex (hne : bytes ≠ []) (h : ∀ b ∈ bytes, b < 256) :
    (octets (colonHex bytes)).map hexValue = bytes := by
  rw [octets_colonHex hne h, map_map]
  conv_rhs => rw [← map_id bytes]
  exact map_congr_left fun b hb => hexValue_digits b (h b hb)

theorem colonHex_injective (hne : bytes ≠ []) (hne' : other ≠ []) (h : ∀ b ∈ bytes, b < 256)
    (h' : ∀ b ∈ other, b < 256) (heq : colonHex bytes = colonHex other) : bytes = other := by
  rw [← map_hexValue_octets_colonHex hne h, ← map_hexValue_octets_colonHex hne' h', heq]

theorem lowercase_colonHex (h : ∀ b ∈ bytes, b < 256) : lowercase (colonHex bytes) = colonHex bytes := by
  have hmap : ∀ bytes : List Nat, (∀ b ∈ bytes, b < 256) →
      ([':'].intercalate (bytes.map digits)).map Char.toLower =
        [':'].intercalate (bytes.map digits) := by
    intro bytes
    induction bytes with
    | nil => exact fun _ => rfl
    | cons b rest ih =>
      intro h
      have hb := map_toLower_digits (h b mem_cons_self)
      have hrest := ih fun b' hb' => h b' (mem_cons_of_mem b hb')
      cases rest with
      | nil => simpa using hb
      | cons c rest =>
        rw [map_cons, map_cons, List.intercalate_cons_cons, map_append, map_append, hb]
        rw [map_cons] at hrest
        rw [hrest]
        rfl
  unfold lowercase
  rw [toList_colonHex, hmap bytes h, ← toList_colonHex, String.ofList_toList]

end Bytes

/-! ## Accepted addresses -/

/-- Six octets of two hexadecimal digits, and the low bit of the first is clear. -/
structure Unicast (text : String) : Prop where
  six : (octets text).length = 6
  hex : (octets text).all (fun octet => octet.length = 2 && octet.all isHexDigit) = true
  even : hexValue ((octets text).headD []) % 2 = 0

instance (text : String) : Decidable (Unicast text) :=
  decidable_of_iff ((octets text).length = 6 ∧
    (octets text).all (fun octet => octet.length = 2 && octet.all isHexDigit) = true ∧
      hexValue ((octets text).headD []) % 2 = 0)
    ⟨fun h => ⟨h.1, h.2.1, h.2.2⟩, fun h => ⟨h.six, h.hex, h.even⟩⟩

/-- The planner accepts these addresses, and no others. -/
theorem mac_eq_ok_iff {text address : String} :
    mac text = .ok address ↔ Unicast text ∧ address = lowercase text := by
  unfold mac
  by_cases hsix : (octets text).length = 6 ∧
      (octets text).all (fun octet => octet.length = 2 && octet.all isHexDigit) = true
  · rw [if_neg (not_not_intro hsix)]
    by_cases hodd : hexValue ((octets text).headD []) % 2 = 1
    · rw [if_pos hodd]
      refine iff_of_false (by simp [invalid]) ?_
      rintro ⟨h, -⟩
      have := h.even
      omega
    · rw [if_neg hodd]
      constructor
      · intro h
        exact ⟨⟨hsix.1, hsix.2, by omega⟩, (Except.ok.inj h).symm⟩
      · rintro ⟨-, rfl⟩
        rfl
  · rw [if_pos hsix]
    exact iff_of_false (by simp [invalid]) fun h => hsix ⟨h.1.six, h.1.hex⟩

/-- Six bytes, of which the first is even, are such an address. -/
theorem unicast_colonHex {bytes : List Nat} (hsix : bytes.length = 6) (h : ∀ b ∈ bytes, b < 256)
    (heven : bytes.headD 0 % 2 = 0) : Unicast (colonHex bytes) := by
  have hne : bytes ≠ [] := ne_nil_of_length_eq_add_one hsix
  have hoctets := octets_colonHex hne h
  refine ⟨by rw [hoctets, length_map, hsix], ?_, ?_⟩
  · rw [hoctets, all_eq_true]
    intro octet hoctet
    obtain ⟨b, hb, rfl⟩ := mem_map.1 hoctet
    rw [all_isHexDigit_digits (h b hb)]
    rfl
  · rw [hoctets]
    cases bytes with
    | nil => exact absurd rfl hne
    | cons b rest =>
      rw [map_cons, headD_cons, hexValue_digits b (h b mem_cons_self)]
      exact heven

/-! ## Lowercase -/

/-- The value of a digit. -/
def digitValue (c : Char) : Nat :=
  if c.toNat ≤ 57 then c.toNat - 48 else if c.toNat ≤ 70 then c.toNat - 55 else c.toNat - 87

theorem isHexDigit_iff {c : Char} : isHexDigit c = true ↔
    (48 ≤ c.toNat ∧ c.toNat ≤ 57 ∨ 97 ≤ c.toNat ∧ c.toNat ≤ 102) ∨ 65 ≤ c.toNat ∧ c.toNat ≤ 70 := by
  simp only [isHexDigit, Bool.or_eq_true, Bool.and_eq_true, decide_eq_true_eq]
  rfl

theorem toNat_toLower (c : Char) :
    c.toLower.toNat = if 65 ≤ c.toNat ∧ c.toNat ≤ 90 then c.toNat + 32 else c.toNat := by
  unfold Char.toLower
  by_cases h : c.val ≥ 'A'.val ∧ c.val ≤ 'Z'.val
  · rw [dif_pos h]
    have hbounds : 65 ≤ c.toNat ∧ c.toNat ≤ 90 := h
    rw [if_pos hbounds]
    have hadd : (c.val + ('a'.val - 'A'.val)).toNat = (c.val.toNat + 32) % 2 ^ 32 := rfl
    have hle : c.val.toNat ≤ 90 := hbounds.2
    rw [Nat.mod_eq_of_lt (by omega)] at hadd
    exact hadd
  · rw [dif_neg h]
    exact (if_neg h).symm

theorem isHexDigit_toLower {c : Char} (h : isHexDigit c = true) : isHexDigit c.toLower = true := by
  rw [isHexDigit_iff, toNat_toLower]
  rw [isHexDigit_iff] at h
  split_ifs <;> omega

theorem digitValue_toLower {c : Char} (h : isHexDigit c = true) :
    digitValue c.toLower = digitValue c := by
  rw [isHexDigit_iff] at h
  unfold digitValue
  rw [toNat_toLower]
  split_ifs <;> omega

theorem toLower_eq_colon_iff (c : Char) : c.toLower = ':' ↔ c = ':' := by
  have hcolon : ∀ d : Char, d = ':' ↔ d.toNat = 58 := fun d => Char.toNat_inj.symm
  rw [hcolon, hcolon, toNat_toLower]
  split_ifs <;> omega

theorem splitOn_map_toLower (text : List Char) :
    (text.map Char.toLower).splitOn ':' = (text.splitOn ':').map (List.map Char.toLower) := by
  induction text with
  | nil => rfl
  | cons c text ih =>
    rw [map_cons, splitOn_cons_eq_if_modifyHead, splitOn_cons_eq_if_modifyHead, ih]
    by_cases hc : c = ':'
    · subst hc
      rfl
    · rw [if_neg (by simpa [toLower_eq_colon_iff] using hc), if_neg (by simpa using hc)]
      cases text.splitOn ':' <;> rfl

theorem octets_lowercase (text : String) :
    octets (lowercase text) = (octets text).map (List.map Char.toLower) := by
  unfold octets lowercase
  rw [String.toList_ofList, splitOn_map_toLower]

theorem hexValue_map_toLower {octet : List Char} (h : octet.all isHexDigit = true) :
    hexValue (octet.map Char.toLower) = hexValue octet := by
  have hfold : ∀ (octet : List Char) (n : Nat), octet.all isHexDigit = true →
      (octet.map Char.toLower).foldl (fun n c => 16 * n + digitValue c) n =
        octet.foldl (fun n c => 16 * n + digitValue c) n := by
    intro octet
    induction octet with
    | nil => exact fun _ _ => rfl
    | cons c octet ih =>
      intro n h
      rw [all_cons, Bool.and_eq_true] at h
      rw [map_cons, foldl_cons, foldl_cons, digitValue_toLower h.1]
      exact ih _ h.2
  exact hfold octet 0 h

/-- The planner writes an address in lowercase, and it stays one. -/
theorem Unicast.lowercase {text : String} (h : Unicast text) : Unicast (lowercase text) := by
  have hoctets := octets_lowercase text
  refine ⟨by rw [hoctets, length_map, h.six], ?_, ?_⟩
  · rw [hoctets, all_map, all_eq_true]
    intro octet hoctet
    have hhex := all_eq_true.1 h.hex octet hoctet
    simp only [Bool.and_eq_true, decide_eq_true_eq, all_eq_true] at hhex
    simp only [Function.comp_apply, length_map, hhex.1, decide_true, Bool.true_and,
      all_map, all_eq_true]
    exact fun c hc => isHexDigit_toLower (hhex.2 c hc)
  · rw [hoctets]
    cases hsplit : octets text with
    | nil => simp [hexValue]
    | cons first rest =>
      have hhex := all_eq_true.1 h.hex first (hsplit ▸ mem_cons_self)
      have heven := h.even
      simp only [Bool.and_eq_true] at hhex
      rw [hsplit, headD_cons] at heven
      rw [map_cons, headD_cons, hexValue_map_toLower hhex.2]
      exact heven

/-! ## Adjacent addresses -/

theorem hexValue_lt {octet : List Char} (hlength : octet.length = 2)
    (h : octet.all isHexDigit = true) : hexValue octet < 256 := by
  have hdigit : ∀ c, isHexDigit c = true → digitValue c < 16 := by
    intro c hc
    rw [isHexDigit_iff] at hc
    unfold digitValue
    split_ifs <;> omega
  have hvalue : ∀ a b, hexValue [a, b] = 16 * digitValue a + digitValue b := by
    intro a b
    change 16 * (16 * 0 + digitValue a) + digitValue b = _
    omega
  match octet, hlength with
  | [a, b], _ =>
    simp only [all_cons, all_nil, Bool.and_true, Bool.and_eq_true] at h
    have ha := hdigit a h.1
    have hb := hdigit b h.2
    rw [hvalue]
    omega

section Adjacent

variable {base : String} {i j : Nat}

/-- The bytes of an address. -/
def macBytes (base : String) : List Nat := (octets base).map hexValue

theorem lt_of_mem_macBytes (h : Unicast base) : ∀ b ∈ macBytes base, b < 256 := by
  intro b hb
  obtain ⟨octet, hoctet, rfl⟩ := mem_map.1 hb
  have hhex := all_eq_true.1 h.hex octet hoctet
  simp only [Bool.and_eq_true, decide_eq_true_eq] at hhex
  exact hexValue_lt hhex.1 hhex.2

/-- The last three bytes of an address, as a number. -/
def macSuffix (base : String) : Nat :=
  (macBytes base).getD 3 0 * 2 ^ 16 + (macBytes base).getD 4 0 * 2 ^ 8 + (macBytes base).getD 5 0

/-- The bytes of an adjacent address. -/
def adjacentBytes (base : String) (i : Nat) : List Nat :=
  (macBytes base).take 3 ++
    [(macSuffix base + i) / 2 ^ 16 % 256, (macSuffix base + i) / 2 ^ 8 % 256,
      (macSuffix base + i) % 256]

theorem adjacentMac_eq (base : String) (i : Nat) :
    adjacentMac base i = colonHex (adjacentBytes base i) := rfl

theorem lt_of_mem_adjacentBytes (h : Unicast base) : ∀ b ∈ adjacentBytes base i, b < 256 := by
  intro b hb
  rcases mem_append.1 hb with hb | hb
  · exact lt_of_mem_macBytes h b (mem_of_mem_take hb)
  · simp only [mem_cons, not_mem_nil, or_false] at hb
    rcases hb with rfl | rfl | rfl <;> exact Nat.mod_lt _ (by decide)

theorem adjacentBytes_ne_nil : adjacentBytes base i ≠ [] := by
  simp [adjacentBytes]

/-- Adjacent addresses are distinct, as long as the last three bytes do not come around. -/
theorem adjacentMac_injective (h : Unicast base) (hi : i < 2 ^ 24) (hj : j < 2 ^ 24)
    (heq : adjacentMac base i = adjacentMac base j) : i = j := by
  rw [adjacentMac_eq, adjacentMac_eq] at heq
  have hbytes := colonHex_injective adjacentBytes_ne_nil adjacentBytes_ne_nil
    (lt_of_mem_adjacentBytes h) (lt_of_mem_adjacentBytes h) heq
  have hlast := append_cancel_left hbytes
  simp only [List.cons.injEq, and_true] at hlast
  omega

end Adjacent

/-! ## The ports of a board -/

/-- The text before the address of a port. -/
def portText (index : Nat) : String :=
  "nic,model=alpine-eth-pci,netdev=udm-port" ++ toString index ++ ",macaddr="

/-- The addresses in the arguments of the ports: four arguments for each. -/
def portAddresses : Nat → List String → List String
  | index, _ :: _ :: _ :: nic :: rest =>
    String.ofList (nic.toList.drop (portText index).toList.length) ::
      portAddresses (index + 1) rest
  | _, _ => []

/-- The address that a port was given. -/
def ownMac (port : Json) : Option String := (text port "mac").map lowercase

/-- The address that a port takes. -/
def takenMac (address : Option String) (index : Nat) : String :=
  match address with
  | some base => adjacentMac (lowercase base) index
  | none => ""

section Ports

variable {port : Json} {ports : List Json} {helper address : Option String} {index : Nat}
  {result : String} {argv : List String}

theorem portMac_ok (h : portMac port index address = .ok result) :
    result = (ownMac port).getD (takenMac address index) ∧
      (ownMac port = none → ∃ base, address = some base ∧ Unicast base) := by
  unfold portMac at h
  unfold ownMac text
  cases hfield : port.field "mac" with
  | some value =>
    rw [hfield] at h
    obtain ⟨mac, hmac, h⟩ := bind_eq_ok.1 h
    rw [orInvalid_eq_ok] at hmac
    obtain ⟨-, rfl⟩ := mac_eq_ok_iff.1 h
    rw [Option.bind_some, hmac]
    exact ⟨rfl, nofun⟩
  | none =>
    rw [hfield] at h
    cases address with
    | none => cases h
    | some base =>
      obtain ⟨lower, hlower, hresult⟩ := bind_eq_ok.1 h
      obtain ⟨hbase, rfl⟩ := mac_eq_ok_iff.1 hlower
      refine ⟨?_, fun _ => ⟨base, rfl, hbase⟩⟩
      rw [Option.bind_none, Option.map_none, Option.getD_none]
      exact (Except.ok.inj hresult).symm

/-- The addresses in the arguments are those given to the ports, and in the gaps those after the
base address. -/
theorem portAddresses_udmPorts (h : udmPorts helper address index ports = .ok argv) :
    portAddresses index argv = fill ownMac (fun i => takenMac address (index + i)) ports ∧
      ∀ i, Gap ownMac ports i → ∃ base, address = some base ∧ Unicast base := by
  induction ports generalizing index argv with
  | nil =>
    obtain rfl := Except.ok.inj h
    exact ⟨rfl, fun i hi => absurd hi (not_gap_nil i)⟩
  | cons port rest ih =>
    obtain ⟨fields, hfields, hport⟩ := bind_eq_ok.1 h
    rw [(object_eq_ok.1 hfields).2] at hport
    obtain ⟨backend, -, hport⟩ := bind_eq_ok.1 hport
    obtain ⟨result, hresult, hport⟩ := bind_eq_ok.1 hport
    obtain ⟨more, hmore, hport⟩ := bind_eq_ok.1 hport
    obtain rfl := Except.ok.inj hport
    obtain ⟨hvalue, hbase⟩ := portMac_ok hresult
    obtain ⟨haddresses, hgaps⟩ := ih hmore
    constructor
    · rw [fill_cons, Nat.add_zero, ← hvalue]
      have htext : String.ofList ((("nic,model=alpine-eth-pci,netdev=udm-port" ++ toString index ++
          ",macaddr=" ++ result).toList).drop (portText index).toList.length) = result := by
        change String.ofList ((portText index ++ result).toList.drop _) = result
        rw [String.toList_append, drop_left, String.ofList_toList]
      change _ :: portAddresses (index + 1) more = _
      rw [htext, haddresses]
      simp only [Nat.add_assoc, Nat.add_comm 1]
    · intro i hi
      cases i with
      | zero => exact hbase (gap_cons_zero.1 hi)
      | succ i => exact hgaps i ((gap_cons_succ i).1 hi)

end Ports

end MachineEmu.Planner
