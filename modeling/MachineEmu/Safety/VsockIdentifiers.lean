import MachineEmu.Engine.Plan
import Mathlib.Data.List.Basic

/-!
# Derived vsock identifiers

The context id that the planner gives a guest, for any hash function.

* `Hash.deriveVsockCid` — the planner's function; `deriveVsockCid_sha256`, its hash is SHA-256.
* `vsockInput_inj` — what is hashed says which directory and which instance it is.
* `identifiesGuest_iff` — the id is one of a guest, but for one beginning of the digest.
-/

namespace MachineEmu.Planner

open Lib List

/-- A hash function whose digests have 256 bits. -/
structure Hash where
  digest : List Nat → List Nat
  length : ∀ bytes, (digest bytes).length = 32
  byte : ∀ bytes, ∀ b ∈ digest bytes, b < 256

def Hash.sha256 : Hash :=
  ⟨Sha256.digest, Sha256.length_digest, fun _ _ => Sha256.lt_of_mem_digest⟩

/-- What is hashed, of the bytes of a directory. Source: `engine/plan.rs` `derive_vsock_cid`. -/
def vsockInput (runtime : List Nat) (instanceName : Option String) : List Nat :=
  Sha256.bytes "machineemu-vsock-cid-v1\x00" ++ runtime ++ Sha256.bytes "\x00" ++
    (instanceName.map Sha256.bytes).getD []

/-- The number in the first four bytes of a digest. -/
def Hash.candidate (hash : Hash) (bytes : List Nat) : Nat :=
  ((hash.digest bytes).take 4).foldl (fun n b => 256 * n + b) 0

/-- The id, unless the addition overflows. Source: `engine/plan.rs` `derive_vsock_cid`. -/
def Hash.deriveVsockCid (hash : Hash) (runtime : List Nat) (instanceName : Option String) :
    Option Nat :=
  let cid := 3 + hash.candidate (vsockInput runtime instanceName) % (2 ^ 32 - 1 - 2) % 2 ^ 32
  if cid < 2 ^ 32 then some cid else none

/-- The address of any guest, which is the id of none. -/
def anyCid : Nat := 2 ^ 32 - 1

/-- An id is derived that a guest can have, from an input that no other pair has. -/
structure IdentifiesGuest (hash : Hash) (runtime : List Nat) (instanceName : Option String) :
    Prop where
  usable : ∃ cid, hash.deriveVsockCid runtime instanceName = some cid ∧ 3 ≤ cid ∧ cid ≠ anyCid
  distinct : 0 ∉ runtime → ∀ runtime' instanceName', 0 ∉ runtime' →
    vsockInput runtime' instanceName' = vsockInput runtime instanceName →
    runtime' = runtime ∧ instanceName'.getD "" = instanceName.getD ""

/-! ## The id -/

theorem Hash.candidate_lt (hash : Hash) (bytes : List Nat) : hash.candidate bytes < 2 ^ 32 := by
  have hlength := hash.length bytes
  have hbyte := hash.byte bytes
  unfold Hash.candidate
  generalize hash.digest bytes = digest at hlength hbyte
  match digest, hlength, hbyte with
  | a :: b :: c :: d :: rest, _, hbyte =>
    simp only [forall_mem_cons] at hbyte
    simp only [take_succ_cons, take_zero, foldl_cons, foldl_nil]
    omega

/-- Nothing overflows. -/
theorem Hash.deriveVsockCid_eq (hash : Hash) (runtime : List Nat) (instanceName : Option String) :
    hash.deriveVsockCid runtime instanceName =
      some (3 + hash.candidate (vsockInput runtime instanceName) % (2 ^ 32 - 3)) := by
  have hlt := Nat.mod_lt (hash.candidate (vsockInput runtime instanceName))
    (show 0 < 2 ^ 32 - 3 by omega)
  unfold Hash.deriveVsockCid
  dsimp only
  rw [show 2 ^ 32 - 1 - 2 = 2 ^ 32 - 3 from rfl, Nat.mod_eq_of_lt (hlt.trans (by omega)),
    if_pos (by omega)]

/-- With SHA-256 it is the planner's function. -/
theorem deriveVsockCid_sha256 (runtime : String) (instanceName : Option String) :
    Hash.sha256.deriveVsockCid (Sha256.bytes runtime) instanceName =
      some (deriveVsockCid runtime instanceName) :=
  Hash.sha256.deriveVsockCid_eq _ _

/-! ## What is hashed -/

theorem bytes_getD (instanceName : Option String) :
    (instanceName.map Sha256.bytes).getD [] = Sha256.bytes (instanceName.getD "") := by
  cases instanceName with
  | none => decide +kernel
  | some _ => rfl

theorem vsockInput_inj {runtime runtime' : List Nat} {instanceName instanceName' : Option String}
    (hruntime : 0 ∉ runtime) (hruntime' : 0 ∉ runtime')
    (h : vsockInput runtime' instanceName' = vsockInput runtime instanceName) :
    runtime' = runtime ∧ instanceName'.getD "" = instanceName.getD "" := by
  have hzero : Sha256.bytes "\x00" = [0] := by decide +kernel
  simp only [vsockInput, hzero, bytes_getD, append_assoc, append_cancel_left_eq,
    singleton_append] at h
  -- the directory ends before the first zero
  have hlength := congrArg (List.idxOf 0) h
  rw [idxOf_append_of_notMem hruntime, idxOf_append_of_notMem hruntime',
    idxOf_cons_self, idxOf_cons_self, Nat.add_zero, Nat.add_zero] at hlength
  obtain ⟨hsame, hrest⟩ := append_inj h hlength
  exact ⟨hsame, Sha256.bytes_injective (List.cons.inj hrest).2⟩

/-- The largest residue gives the address of any guest; every other digest gives the id of one. -/
theorem identifiesGuest_iff (hash : Hash) (runtime : List Nat) (instanceName : Option String) :
    IdentifiesGuest hash runtime instanceName ↔
      hash.candidate (vsockInput runtime instanceName) ≠ 2 ^ 32 - 4 := by
  have hlt := hash.candidate_lt (vsockInput runtime instanceName)
  have hcid := hash.deriveVsockCid_eq runtime instanceName
  generalize hash.candidate (vsockInput runtime instanceName) = candidate at hlt hcid
  constructor
  · rintro ⟨⟨cid, hsome, -, hany⟩, -⟩ rfl
    rw [hcid] at hsome
    exact hany (Option.some.inj hsome).symm
  · intro hne
    refine ⟨⟨_, hcid, Nat.le_add_right _ _, ?_⟩,
      fun hruntime runtime' instanceName' hruntime' h => vsockInput_inj hruntime hruntime' h⟩
    unfold anyCid
    omega

/-- A digest that begins with the bytes `ff ff ff fc`. -/
theorem not_identifiesGuest : ¬ ∀ hash runtime instanceName,
    IdentifiesGuest hash runtime instanceName := by
  intro h
  let hash : Hash :=
    { digest := fun _ => [255, 255, 255, 252] ++ List.replicate 28 0
      length := fun _ => rfl
      byte := fun _ => by decide }
  obtain ⟨cid, hcid, -, hany⟩ := (h hash (Sha256.bytes "/run/machineemu") (some "base")).usable
  have hderived : hash.deriveVsockCid (Sha256.bytes "/run/machineemu") (some "base") =
      some anyCid := by
    rw [hash.deriveVsockCid_eq, show hash.candidate _ = 2 ^ 32 - 4 from rfl]
    rfl
  exact hany (Option.some.inj (hcid.symm.trans hderived))

end MachineEmu.Planner
