import Mathlib.Logic.Function.Basic
import MachineEmu.Lib.SortedMap

/-!
# Exclusive leases that can be taken over

A table names the lease of each key. A lease has a flag that its holder and the table share: whoever
takes the key over raises it, and the holder drops its lease when it sees this, which may be late. A
lease is known by its token, the identity of the flag.

* `Leases.claim`, `Leases.drop`, `Leases.revoke` — the operations on the table.
* `Leases.InForce` — a lease that is held and whose flag is down.
* `inForce_claim`, `inForce_drop`, `inForce_revoke` — what each operation does to them.
* `Leases.Consistent` — the leases in force are those that the table names.
-/

namespace Lib

/-- The table, the keys of the leases that have not been dropped, and the flags. -/
structure Leases (κ : Type) [LinearOrder κ] where
  table : SortedMap κ Nat := .empty
  held : Nat → Option κ := fun _ => none
  revoked : Nat → Bool := fun _ => false

namespace Leases

variable {κ : Type} [LinearOrder κ]

/-- No lease that is held or named has this token. -/
def Fresh (l : Leases κ) (token : Nat) : Prop :=
  l.held token = none ∧ ∀ entry ∈ l.table.entries, entry.2 ≠ token

instance (l : Leases κ) (token : Nat) : Decidable (l.Fresh token) :=
  inferInstanceAs (Decidable (_ ∧ _))

/-- Name a new lease. -/
def grant (l : Leases κ) (key : κ) (token : Nat) : Leases κ where
  table := l.table.insert key token
  held := Function.update l.held token (some key)
  revoked := Function.update l.revoked token false

/-- Claim a key. A key that is taken is only given to a claim that takes over. -/
def claim (l : Leases κ) (key : κ) (takeover : Bool) (token : Nat) : Option (Leases κ) :=
  match l.table.get? key with
  | some previous =>
    if takeover then
      some ({ l with revoked := Function.update l.revoked previous true }.grant key token)
    else none
  | none => some (l.grant key token)

/-- Drop a lease: the table forgets the key only if it still names this lease. -/
def drop (l : Leases κ) (key : κ) (token : Nat) : Leases κ where
  table := if l.table.get? key = some token then l.table.erase key else l.table
  held := Function.update l.held token none
  revoked := l.revoked

/-- Take a key from its holder. -/
def revoke (l : Leases κ) (key : κ) : Leases κ :=
  match l.table.get? key with
  | none => l
  | some token => { l with
      table := l.table.erase key
      revoked := Function.update l.revoked token true }

/-- The lease is held and has not been revoked. -/
def InForce (l : Leases κ) (key : κ) (token : Nat) : Prop :=
  l.held token = some key ∧ l.revoked token = false

/-- The table names the leases in force. -/
def Consistent (l : Leases κ) : Prop :=
  ∀ key token, l.InForce key token ↔ l.table.get? key = some token

variable {l l' : Leases κ} {key key' : κ} {token token' : Nat} {takeover : Bool}

theorem consistent_empty : Consistent ({} : Leases κ) := fun key token => by
  simp [InForce]

theorem Consistent.unique (h : l.Consistent) (ht : l.InForce key token)
    (ht' : l.InForce key token') : token = token' := by
  rw [h] at ht ht'
  rw [ht] at ht'
  exact Option.some.inj ht'

/-! ## Revocation -/

theorem inForce_revoke (h : l.Consistent) :
    (l.revoke key).InForce key' token ↔ l.InForce key' token ∧ key' ≠ key := by
  unfold revoke
  split
  · next hnone =>
    have hfree : l.InForce key' token → key' ≠ key := by
      rintro hforce rfl
      rw [h, hnone] at hforce
      cases hforce
    tauto
  · next t hentry =>
    have hforce := (h key t).2 hentry
    by_cases ht : token = t
    · -- the lease that is revoked is that of the key
      subst ht
      have hheld := hforce.1
      simp only [InForce, Function.update_self, hheld]
      grind
    · have hother : l.InForce key token → False := fun hforce' => ht (h.unique hforce' hforce)
      simp only [InForce, Function.update_of_ne ht] at hother ⊢
      grind

theorem get?_revoke : (l.revoke key).table.get? key' =
    if key' = key then none else l.table.get? key' := by
  unfold revoke
  split
  · next hnone => grind
  · rw [SortedMap.get?_erase]

theorem Consistent.revoke (h : l.Consistent) (key : κ) : (l.revoke key).Consistent := by
  intro key' token
  rw [inForce_revoke h, get?_revoke, h]
  grind

/-! ## Claims -/

/-- A claim that takes over revokes the lease of the key. -/
theorem claim_eq (l : Leases κ) (key : κ) (takeover : Bool) (token : Nat) :
    l.claim key takeover token =
      if l.table.get? key = none ∨ takeover = true then some ((l.revoke key).grant key token)
      else none := by
  have hinsert : (l.table.erase key).insert key token = l.table.insert key token := by
    apply SortedMap.ext_get?
    intro k
    simp only [SortedMap.get?_insert, SortedMap.get?_erase]
    split <;> rfl
  unfold claim Leases.revoke
  cases hentry : l.table.get? key with
  | none => simp
  | some previous => cases takeover <;> simp [grant, hinsert]

theorem inForce_grant (hfresh : l.Fresh token) (hfree : ∀ t, ¬ l.InForce key t) :
    (l.grant key token).InForce key' token' ↔
      if key' = key then token' = token else l.InForce key' token' := by
  have hheld := hfresh.1
  by_cases ht : token' = token
  · subst ht
    simp only [InForce, grant, Function.update_self, hheld]
    grind
  · have hother := hfree token'
    simp only [InForce, grant, Function.update_of_ne ht] at hother ⊢
    grind

theorem Consistent.grant (h : l.Consistent) (hfresh : l.Fresh token)
    (hfree : ∀ t, ¬ l.InForce key t) : (l.grant key token).Consistent := by
  intro key' token'
  rw [inForce_grant hfresh hfree, h]
  unfold Leases.grant
  rw [SortedMap.get?_insert]
  grind

theorem Fresh.revoke (h : l.Fresh token) (key : κ) : (l.revoke key).Fresh token := by
  unfold Leases.revoke
  split
  · exact h
  · exact ⟨h.1, fun entry hentry => h.2 entry (List.mem_of_mem_filter hentry)⟩

theorem not_inForce_revoke (h : l.Consistent) (t : Nat) : ¬ (l.revoke key).InForce key t := by
  rw [inForce_revoke h]
  simp

/-- After a claim the new lease is in force, and no other lease of the key. -/
theorem inForce_claim (h : l.Consistent) (hfresh : l.Fresh token)
    (hclaim : l.claim key takeover token = some l') :
    l'.InForce key' token' ↔ if key' = key then token' = token else l.InForce key' token' := by
  rw [claim_eq] at hclaim
  split at hclaim
  · cases hclaim
    rw [inForce_grant (hfresh.revoke key) (not_inForce_revoke h), inForce_revoke h]
    grind
  · cases hclaim

theorem Consistent.claim (h : l.Consistent) (hfresh : l.Fresh token)
    (hclaim : l.claim key takeover token = some l') : l'.Consistent := by
  rw [claim_eq] at hclaim
  split at hclaim
  · cases hclaim
    exact (h.revoke key).grant (hfresh.revoke key) (not_inForce_revoke h)
  · cases hclaim

/-- A claim is refused when a lease of the key is in force and it does not take over. -/
theorem claim_eq_none_iff (h : l.Consistent) :
    l.claim key takeover token = none ↔ takeover = false ∧ ∃ t, l.InForce key t := by
  have hnamed : (∃ t, l.InForce key t) ↔ l.table.get? key ≠ none := by
    rw [Option.ne_none_iff_exists']
    exact exists_congr fun t => h key t
  rw [claim_eq, hnamed]
  grind

/-! ## Drops -/

theorem inForce_drop :
    (l.drop key token).InForce key' token' ↔ l.InForce key' token' ∧ token' ≠ token := by
  by_cases ht : token' = token
  · simp [drop, InForce, ht]
  · simp [drop, InForce, ht]

theorem Consistent.drop (h : l.Consistent) (hheld : l.held token = some key) :
    (l.drop key token).Consistent := by
  intro key' token'
  rw [inForce_drop, h]
  -- the table names a lease under its own key
  have hown : l.table.get? key' = some token → key' = key := by
    rw [← h]
    intro hforce
    exact Option.some.inj (hforce.1.symm.trans hheld)
  unfold Leases.drop
  simp only
  split
  · rw [SortedMap.get?_erase]
    grind
  · grind

/-- The drop of a revoked lease leaves the table as it is. -/
theorem table_drop_of_revoked (h : l.Consistent) (hrevoked : l.revoked token = true) :
    (l.drop key token).table = l.table := by
  have hnamed : l.table.get? key ≠ some token := by
    rw [Ne, ← h]
    intro hforce
    rw [hforce.2] at hrevoked
    cases hrevoked
  simp [drop, hnamed]

end Leases

end Lib
