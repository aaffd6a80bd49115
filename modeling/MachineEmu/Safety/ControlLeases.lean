import MachineEmu.Api.Streams

/-!
# One holder of the input control

Each key of the input control has at most one lease in force, the one that the table names, in
whichever order the holders claim, take over, notice that they were revoked and drop their leases.

* `Controls` — the tables that claims, drops and revocations lead to.
* `control_leases` — what holds of each of them.
-/

namespace MachineEmu

open Lib

/-- The runs of the table of the input control. A claim makes a flag of its own; a lease is dropped
once, by its holder, and at any time. -/
inductive Controls : Leases String → Prop where
  | start : Controls {}
  | claim {owners owners' : Leases String} {ticket : StreamTicket} {token : Nat}
      {lease : Option ControlLease} (h : Controls owners) (hfresh : owners.Fresh token)
      (hclaim : claimControl ticket owners token = .ok (lease, owners')) : Controls owners'
  | drop {owners : Leases String} {lease : ControlLease} (h : Controls owners)
      (hheld : owners.held lease.token = some lease.key) : Controls (lease.drop owners)
  | revokeDisplay {owners : Leases String} {i r : String} (h : Controls owners) :
      Controls (revokeDisplay owners i r)

/-- What a claim answers: nothing without control, a conflict, or a new lease. -/
theorem claimControl_cases (ticket : StreamTicket) (owners : Leases String) (token : Nat) :
    (ticket.control = false ∧ claimControl ticket owners token = .ok (none, owners)) ∨
    (ticket.control = true ∧ owners.claim (controlKey ticket) ticket.takeover token = none ∧
      claimControl ticket owners token = .error 409) ∨
    ∃ owners', ticket.control = true ∧
      owners.claim (controlKey ticket) ticket.takeover token = some owners' ∧
      claimControl ticket owners token = .ok (some ⟨controlKey ticket, token⟩, owners') := by
  unfold claimControl
  cases ticket.control with
  | false => exact .inl ⟨rfl, rfl⟩
  | true =>
    cases hclaim : owners.claim (controlKey ticket) ticket.takeover token with
    | none => exact .inr (.inl ⟨rfl, rfl, rfl⟩)
    | some owners' => exact .inr (.inr ⟨owners', rfl, rfl, rfl⟩)

/-- In every run the table names the leases in force. -/
theorem Controls.consistent {owners : Leases String} (h : Controls owners) :
    owners.Consistent := by
  induction h with
  | start => exact Leases.consistent_empty
  | claim h hfresh hclaim ih =>
    rename_i owners owners' ticket token lease
    obtain ⟨-, hanswer⟩ | ⟨-, -, hanswer⟩ | ⟨granted, -, hgranted, hanswer⟩ :=
      claimControl_cases ticket owners token
    · rw [hanswer] at hclaim
      cases hclaim
      exact ih
    · rw [hanswer] at hclaim
      cases hclaim
    · rw [hanswer] at hclaim
      cases hclaim
      exact ih.claim hfresh hgranted
  | drop h hheld ih => exact ih.drop hheld
  | revokeDisplay h ih => exact ih.revoke _

/-- In every run each key has at most one lease in force, and the table names it; a drop ends that
lease only and raises no flag, and it leaves the table alone when the lease was revoked; a revocation
ends the lease of its own key only; a claim ends the lease that it takes over, and is refused only
while a lease is in force that it does not take over; and when the last holder has dropped its lease
every claim of the key is granted. -/
theorem control_leases (owners : Leases String) (h : Controls owners) :
    (∀ key t u, owners.InForce key t → owners.InForce key u → t = u) ∧
    (∀ key t, owners.InForce key t ↔ owners.table.get? key = some t) ∧
    (∀ lease : ControlLease, owners.held lease.token = some lease.key →
      (∀ key t, (lease.drop owners).InForce key t ↔ owners.InForce key t ∧ t ≠ lease.token) ∧
      (lease.drop owners).revoked = owners.revoked ∧
      (owners.revoked lease.token = true → (lease.drop owners).table = owners.table)) ∧
    (∀ i r key t, (revokeDisplay owners i r).InForce key t ↔
      owners.InForce key t ∧ key ≠ displayKey i r) ∧
    (∀ ticket token, ticket.control = true → owners.Fresh token →
      (ticket.takeover = false ∧ (∃ t, owners.InForce (controlKey ticket) t) ∧
        claimControl ticket owners token = .error 409) ∨
      ∃ owners', (ticket.takeover = true ∨ ∀ t, ¬ owners.InForce (controlKey ticket) t) ∧
        claimControl ticket owners token = .ok (some ⟨controlKey ticket, token⟩, owners') ∧
        ∀ key t, owners'.InForce key t ↔
          if key = controlKey ticket then t = token else owners.InForce key t) ∧
    (∀ lease : ControlLease, owners.held lease.token = some lease.key →
      (∀ t, owners.InForce lease.key t → t = lease.token) →
      ∀ ticket token, ticket.control = true → controlKey ticket = lease.key →
        (lease.drop owners).Fresh token →
        ∃ owners', claimControl ticket (lease.drop owners) token =
            .ok (some ⟨lease.key, token⟩, owners') ∧
          ∀ t, owners'.InForce lease.key t ↔ t = token) := by
  have hconsistent := h.consistent
  refine ⟨fun key t u => hconsistent.unique, hconsistent, fun lease hheld => ?_,
    fun i r key t => Leases.inForce_revoke hconsistent, fun ticket token hcontrol hfresh => ?_,
    fun lease hheld hlast ticket token hcontrol hkey hfresh => ?_⟩
  · exact ⟨fun key t => Leases.inForce_drop, rfl, Leases.table_drop_of_revoked hconsistent⟩
  · obtain ⟨hnone, -⟩ | ⟨-, hrefused, hanswer⟩ | ⟨owners', -, hgranted, hanswer⟩ :=
      claimControl_cases ticket owners token
    · rw [hcontrol] at hnone
      cases hnone
    · obtain ⟨htakeover, htaken⟩ := (Leases.claim_eq_none_iff hconsistent).1 hrefused
      exact .inl ⟨htakeover, htaken, hanswer⟩
    · right
      refine ⟨owners', ?_, hanswer, fun key t => Leases.inForce_claim hconsistent hfresh hgranted⟩
      by_contra hboth
      have hrefused : owners.claim (controlKey ticket) ticket.takeover token = none := by
        rw [Leases.claim_eq_none_iff hconsistent]
        push Not at hboth
        simpa using hboth
      rw [hrefused] at hgranted
      cases hgranted
  · have hdropped := hconsistent.drop hheld
    -- the lease that is dropped was the last one
    have hfree : ∀ t, ¬ (lease.drop owners).InForce (controlKey ticket) t := by
      intro t hforce
      rw [hkey] at hforce
      obtain ⟨hforce, hother⟩ := Leases.inForce_drop.1 hforce
      exact hother (hlast t hforce)
    obtain ⟨hnone, -⟩ | ⟨-, hrefused, -⟩ | ⟨owners', -, hgranted, hanswer⟩ :=
      claimControl_cases ticket (lease.drop owners) token
    · rw [hcontrol] at hnone
      cases hnone
    · obtain ⟨-, t, htaken⟩ := (Leases.claim_eq_none_iff hdropped).1 hrefused
      exact absurd htaken (hfree t)
    · rw [hkey] at hanswer hgranted
      refine ⟨owners', hanswer, fun t => ?_⟩
      rw [Leases.inForce_claim hdropped hfresh hgranted, if_pos rfl]

/-- A display control that is taken over, and dropped late. -/
theorem control_leases_of_takeover : ∃ (owners : Leases String) (old new : ControlLease),
    old.key = new.key ∧ owners.revoked old.token = true ∧
    (old.drop owners).InForce new.key new.token := by
  let ticket (kind : String) (takeover : Bool) : StreamTicket :=
    { instanceId := "lab01", runId := "run01", kind, control := true, takeover,
      endpoint := .unix "unused", expires := 30, audioGroup := none }
  have hclaimed : claimControl (ticket "vnc" false) {} 0 = .ok (_, _) := rfl
  have hstart := Controls.start.claim (by decide) hclaimed
  have htaken := hstart.claim (by decide) (rfl : claimControl (ticket "video" true) _ 1 = .ok _)
  exact ⟨_, ⟨"lab01:run01:display", 0⟩, ⟨"lab01:run01:display", 1⟩, rfl, rfl,
    (((control_leases _ htaken).2.2.1 ⟨"lab01:run01:display", 0⟩ rfl).1 _ 1).2
      ⟨⟨rfl, rfl⟩, by decide⟩⟩

end MachineEmu
