import MachineEmu.Api.Streams

/-!
# The slots of audio sessions

How the sessions and what the tasks hold of them belong together, and what keeps it so.

* `ClientGate.keeps_of_feed`, `ServerGate.keeps_of_feed` — what the gates of a relay keep.
* `Slots` — the sessions against the leases of the tasks.
* `Slots.new`, `attach`, `goOn`, `report`, `drop`, `forget` — one lemma for each change.
-/

namespace MachineEmu

open Lib Function

/-! ## What the gates keep -/

namespace Spice

variable {bs : List UInt8}

theorem ClientState.keeps_of_turn {self next : ClientState} {n : Nat}
    (h : self.turn bs = .ok (some (n, next))) :
    next.channel = self.channel ∧ next.connectionId = self.connectionId := by
  unfold turn at h
  grind

theorem ClientGate.keeps_of_loop {fuel : Nat} {self next : ClientGate} {out out' : List UInt8}
    (h : self.loop fuel out = .ok (out', next)) :
    next.channel = self.channel ∧ next.connectionId = self.connectionId := by
  induction fuel generalizing self out with
  | zero =>
    cases h
    exact ⟨rfl, rfl⟩
  | succ fuel ih =>
    unfold loop at h
    split at h
    · cases h
    · cases h
      exact ⟨rfl, rfl⟩
    · next taken hturn =>
      obtain ⟨hchannel, hid⟩ := ClientState.keeps_of_turn hturn
      obtain ⟨hchannel', hid'⟩ := ih h
      exact ⟨hchannel'.trans hchannel, hid'.trans hid⟩

theorem ClientGate.keeps_of_feed {self next : ClientGate} {out : List UInt8}
    (h : self.feed bs = .ok (out, next)) :
    next.channel = self.channel ∧ next.connectionId = self.connectionId := by
  unfold feed at h
  simp only at h
  split at h
  · cases h
  · have hloop : ({ self with buffer := self.buffer ++ bs } : ClientGate).loop _ [] =
        .ok (out, next) := h
    have hkeeps := keeps_of_loop hloop
    exact hkeeps

/-- A link message is only let through with the connection ID of the gate. -/
theorem ClientState.id_of_link {self next : ClientState} {n : Nat}
    (hphase : self.phase = .link) (h : self.turn bs = .ok (some (n, next))) :
    u32le (slice bs 0 n) 0 = self.connectionId.toNat := by
  simp only [turn, hphase] at h
  split at h
  · cases h
  · split at h
    · cases h
    · next _ hcheck =>
      cases h
      unfold checkLink at hcheck
      split at hcheck
      · cases hcheck
      · next hmatch =>
        push Not at hmatch
        exact hmatch.1

theorem ServerState.keeps_of_turn {self next : ServerState} {n : Nat}
    (h : self.turn bs = .ok (.take n next)) :
    next.channel = self.channel ∧
      ∀ id, self.connectionId = some id → next.connectionId = some id := by
  unfold turn at h
  grind

theorem ServerGate.keeps_of_loop {fuel : Nat} {self next : ServerGate}
    (h : self.loop fuel = .ok next) :
    next.channel = self.channel ∧
      ∀ id, self.connectionId = some id → next.connectionId = some id := by
  induction fuel generalizing self with
  | zero =>
    cases h
    exact ⟨rfl, fun _ => id⟩
  | succ fuel ih =>
    unfold loop at h
    split at h
    · cases h
    · cases h
      exact ⟨rfl, fun _ => id⟩
    · cases h
      exact ⟨rfl, fun _ => id⟩
    · next hturn =>
      obtain ⟨hchannel, hid⟩ := ServerState.keeps_of_turn hturn
      obtain ⟨hchannel', hid'⟩ := ih h
      exact ⟨hchannel'.trans hchannel, fun id hself => hid' id (hid id hself)⟩

/-- The gate for what QEMU sends answers with the first connection ID that it saw. -/
theorem ServerGate.keeps_of_feed {self next : ServerGate}
    {answer : Option UInt32} (h : self.feed bs = .ok (answer, next)) :
    next.channel = self.channel ∧ answer = next.connectionId ∧
      ∀ id, self.connectionId = some id → next.connectionId = some id := by
  unfold feed at h
  simp only at h
  split at h
  · cases h
  · cases hloop : ({ self with buffer := self.buffer ++ bs } : ServerGate).loop
        ((self.buffer ++ bs).length + 1) with
    | error e =>
      rw [hloop] at h
      cases h
    | ok last =>
      rw [hloop] at h
      cases h
      obtain ⟨hchannel, hid⟩ := keeps_of_loop hloop
      exact ⟨hchannel, rfl, hid⟩

end Spice

/-! ## Slots -/

/-- The connection ID that QEMU has given to the channel of a task. -/
def Attachment.assigned (self : Attachment) : Option UInt32 :=
  (self.relay.bind Relay.observer).bind fun observer => observer.connectionId

/-- A session after a drop was there before, with the channel that is dropped in addition. -/
theorem AudioLease.of_get?_drop {lease : AudioLease} {sessions : SortedMap String AudioSession}
    {g : String} {after : AudioSession} (h : (lease.drop sessions).get? g = some after) :
    ∃ session, sessions.get? g = some session ∧ after.connectionId = session.connectionId ∧
      ∀ c, c ∈ after.active ↔ c ∈ session.active ∧ (⟨g, c⟩ : AudioLease) ≠ lease := by
  obtain ⟨group, channel⟩ := lease
  have hother : g ≠ group → ∀ c, (⟨g, c⟩ : AudioLease) ≠ ⟨group, channel⟩ := by
    rintro hg c hsame
    cases hsame
    exact hg rfl
  unfold drop at h
  simp only at h
  split at h
  · rw [SortedMap.get?_erase] at h
    split at h
    · cases h
    · next hg => exact ⟨after, h, rfl, fun c => by simp [hother hg c]⟩
  · split at h
    · next hnone =>
      have hg : g ≠ group := by
        rintro rfl
        rw [hnone] at h
        cases h
      exact ⟨after, h, rfl, fun c => by simp [hother hg c]⟩
    · next session hsession =>
      rw [SortedMap.get?_insert] at h
      split at h
      · next hg =>
        cases h
        subst hg
        exact ⟨session, hsession, rfl, fun c => by simp [and_comm]⟩
      · next hg => exact ⟨after, h, rfl, fun c => by simp [hother hg c]⟩

theorem assigned_iff {a : Attachment} {relay : Relay} {id : UInt32}
    (h : a.relay = some relay) : a.assigned = some id ↔
      ∃ o, relay.observer = some o ∧ o.connectionId = some id := by
  simp [Attachment.assigned, h, Option.bind_eq_some_iff]

/-- The sessions against what the tasks hold: while there is a session its active channels are those
that tasks hold, each by one task; its connection ID is the one of its main channel; and each other
channel was given that ID. -/
structure Slots (sessions : SortedMap String AudioSession) (held : Nat → Option Attachment) :
    Prop where
  taken : ∀ t a session, held t = some a → sessions.get? a.lease.group = some session →
    a.lease.channel ∈ session.active
  owned : ∀ g session c, sessions.get? g = some session → c ∈ session.active →
    ∃ t a, held t = some a ∧ a.lease = ⟨g, c⟩
  unique : ∀ t u a b, held t = some a → held u = some b → a.lease = b.lease → t = u
  assigned : ∀ g session id, sessions.get? g = some session → session.connectionId = some id →
    ∃ t a, held t = some a ∧ a.lease = ⟨g, "main"⟩ ∧ a.assigned = some id
  child : ∀ t a session, held t = some a → a.lease.channel ≠ "main" →
    sessions.get? a.lease.group = some session → session.connectionId = some a.expectedId

namespace Slots

variable {sessions sessions' : SortedMap String AudioSession} {held : Nat → Option Attachment}
  {session : AudioSession} {t : Nat} {a b : Attachment} {g : String} {id : UInt32}

theorem empty : Slots .empty fun _ => none where
  taken := by simp
  owned := by simp
  unique := by simp
  assigned := by simp
  child := by simp

/-- Sessions may be forgotten. -/
theorem forget (h : Slots sessions held)
    (hkept : ∀ g session, sessions'.get? g = some session → sessions.get? g = some session) :
    Slots sessions' held where
  taken := fun t a session ha hs => h.taken t a session ha (hkept _ _ hs)
  owned := fun g session c hs => h.owned g session c (hkept _ _ hs)
  unique := h.unique
  assigned := fun g session id hs => h.assigned g session id (hkept _ _ hs)
  child := fun t a session ha hc hs => h.child t a session ha hc (hkept _ _ hs)

/-- A new session whose group no task holds a channel of. -/
theorem new (h : Slots sessions held) (hgroup : ∀ t a, held t = some a → a.lease.group ≠ g)
    (hactive : session.active = ∅) (hid : session.connectionId = none) :
    Slots (sessions.insert g session) held where
  taken := by
    intro t a s ha hs
    rw [SortedMap.get?_insert, if_neg (hgroup t a ha)] at hs
    exact h.taken t a s ha hs
  owned := by
    intro g' s c hs hc
    rw [SortedMap.get?_insert] at hs
    split at hs
    · cases hs
      simp [hactive] at hc
    · exact h.owned g' s c hs hc
  unique := h.unique
  assigned := by
    intro g' s id hs hsome
    rw [SortedMap.get?_insert] at hs
    split at hs
    · cases hs
      simp [hid] at hsome
    · exact h.assigned g' s id hs hsome
  child := by
    intro t a s ha hc hs
    rw [SortedMap.get?_insert, if_neg (hgroup t a ha)] at hs
    exact h.child t a s ha hc hs

/-- A task takes a free channel of a session. Another channel than the main one comes with the
connection ID of the session. -/
theorem attach (h : Slots sessions held) (ht : held t = none)
    (hsession : sessions.get? a.lease.group = some session)
    (hfree : a.lease.channel ∉ session.active)
    (hchild : a.lease.channel ≠ "main" → session.connectionId = some a.expectedId) :
    Slots (sessions.insert a.lease.group
        { session with active := insert a.lease.channel session.active })
      (Function.update held t (some a)) where
  taken := by
    intro u b s hb hs
    rw [SortedMap.get?_insert] at hs
    rw [update_apply] at hb
    have htaken := h.taken u b
    grind
  owned := by
    intro g s c hs hc
    rw [SortedMap.get?_insert] at hs
    by_cases hnew : g = a.lease.group ∧ c = a.lease.channel
    · obtain ⟨rfl, rfl⟩ := hnew
      exact ⟨t, a, update_self .., rfl⟩
    · obtain ⟨u, b, hb, hlease⟩ : ∃ u b, held u = some b ∧ b.lease = ⟨g, c⟩ := by
        split at hs
        · next hg =>
          cases hs
          subst hg
          apply h.owned _ session c hsession
          simp only [Finset.mem_insert] at hc
          tauto
        · exact h.owned g s c hs hc
      have hut : u ≠ t := by
        rintro rfl
        rw [ht] at hb
        cases hb
      exact ⟨u, b, by rw [update_of_ne hut, hb], hlease⟩
  unique := by
    intro u v b c hb hc hlease
    -- no task holds the channel that is taken
    have hnone : ∀ u b, held u = some b → b.lease ≠ a.lease := by
      intro u b hb hlease
      apply hfree
      rw [← hlease] at hsession ⊢
      exact h.taken u b session hb hsession
    have hunique := h.unique u v b c
    rw [update_apply] at hb hc
    grind
  assigned := by
    intro g s id hs hid
    obtain ⟨s', hs', hid'⟩ : ∃ s', sessions.get? g = some s' ∧ s'.connectionId = some id := by
      rw [SortedMap.get?_insert] at hs
      split at hs
      · next hg =>
        cases hs
        exact ⟨session, by rw [hg, hsession], hid⟩
      · exact ⟨s, hs, hid⟩
    obtain ⟨u, b, hb, hlease, hassigned⟩ := h.assigned g s' id hs' hid'
    have hut : u ≠ t := by
      rintro rfl
      rw [ht] at hb
      cases hb
    exact ⟨u, b, by rw [update_of_ne hut, hb], hlease, hassigned⟩
  child := by
    intro u b s hb hc hs
    rw [SortedMap.get?_insert] at hs
    rw [update_apply] at hb
    have hold := h.child u b
    grind

/-- A task goes on: it keeps its channel and the connection ID that QEMU has given to it. -/
theorem goOn (h : Slots sessions held) (ht : held t = some a) (hlease : b.lease = a.lease)
    (hexpected : b.expectedId = a.expectedId)
    (hassigned : ∀ id, a.assigned = some id → b.assigned = some id) :
    Slots sessions (Function.update held t (some b)) where
  taken := by
    intro u c s hc hs
    have hold := h.taken u c s
    have hself := h.taken t a s ht
    rw [update_apply] at hc
    grind
  owned := by
    intro g s c hs hc
    obtain ⟨u, d, hd, hl⟩ := h.owned g s c hs hc
    by_cases hut : u = t
    · subst hut
      rw [ht] at hd
      cases hd
      exact ⟨u, b, update_self .., hlease.trans hl⟩
    · exact ⟨u, d, by rw [update_of_ne hut, hd], hl⟩
  unique := by
    intro u v c d hc hd hl
    have hold := h.unique u v
    have hleft := h.unique t v a
    have hright := h.unique u t
    rw [update_apply] at hc hd
    grind
  assigned := by
    intro g s id hs hid
    obtain ⟨u, d, hd, hl, hdid⟩ := h.assigned g s id hs hid
    by_cases hut : u = t
    · subst hut
      rw [ht] at hd
      cases hd
      exact ⟨u, b, update_self .., hlease.trans hl, hassigned id hdid⟩
    · exact ⟨u, d, by rw [update_of_ne hut, hd], hl, hdid⟩
  child := by
    intro u c s hc hmain hs
    have hold := h.child u c s
    have hself := h.child t a s ht
    rw [update_apply] at hc
    grind

/-- The main channel of a session reports the connection ID that QEMU has given to it. -/
theorem report (h : Slots sessions held) (ht : held t = some a) (hmain : a.lease = ⟨g, "main"⟩)
    (hassigned : a.assigned = some id) (hsession : sessions.get? g = some session) :
    Slots (sessions.insert g { session with connectionId := some id }) held where
  taken := by
    intro u b s hb hs
    have hold := h.taken u b
    rw [SortedMap.get?_insert] at hs
    grind
  owned := by
    intro g' s c hs hc
    have hold := h.owned g'
    rw [SortedMap.get?_insert] at hs
    grind
  unique := h.unique
  assigned := by
    intro g' s id' hs hid
    rw [SortedMap.get?_insert] at hs
    split at hs
    · next hg =>
      cases hs
      cases hid
      exact ⟨t, a, ht, by rw [hg, hmain], hassigned⟩
    · exact h.assigned g' s id' hs hid
  child := by
    intro u b s hb hc hs
    rw [SortedMap.get?_insert] at hs
    split at hs
    · next hg =>
      cases hs
      -- the session had an ID before, and it was that of the same task
      have hbefore := h.child u b session hb hc (by rw [hg, hsession])
      obtain ⟨m, c, hm, hlease, hc⟩ := h.assigned g session _ hsession hbefore
      have hsame := h.unique m t c a hm ht (hlease.trans hmain.symm)
      subst hsame
      rw [ht] at hm
      cases hm
      rw [← hassigned, hc]
    · exact h.child u b s hb hc hs

/-- A task gives its channel back; the main channel takes the session with it. -/
theorem drop (h : Slots sessions held) (ht : held t = some a) :
    Slots (a.lease.drop sessions) (Function.update held t none) := by
  have hothers : ∀ u b, Function.update held t none u = some b → held u = some b ∧ u ≠ t := by
    intro u b hb
    rw [update_apply] at hb
    grind
  have hkeep : ∀ u b, held u = some b → b.lease ≠ a.lease →
      Function.update held t none u = some b := by
    intro u b hb hlease
    rw [update_of_ne, hb]
    rintro rfl
    rw [ht] at hb
    cases hb
    exact hlease rfl
  constructor
  · intro u b s' hb hs'
    obtain ⟨hb, hut⟩ := hothers u b hb
    obtain ⟨s, hs, -, hactive⟩ := AudioLease.of_get?_drop hs'
    rw [hactive]
    exact ⟨h.taken u b s hb hs, fun hl => hut (h.unique u t b a hb ht hl)⟩
  · intro g s' c hs' hc
    obtain ⟨s, hs, -, hactive⟩ := AudioLease.of_get?_drop hs'
    rw [hactive] at hc
    obtain ⟨u, b, hb, hl⟩ := h.owned g s c hs hc.1
    exact ⟨u, b, hkeep u b hb (by rw [hl]; exact hc.2), hl⟩
  · intro u v b c hb hc
    exact h.unique u v b c (hothers u b hb).1 (hothers v c hc).1
  · intro g s' id hs' hid
    obtain ⟨s, hs, hconnection, -⟩ := AudioLease.of_get?_drop hs'
    rw [hconnection] at hid
    obtain ⟨u, b, hb, hl, hassigned⟩ := h.assigned g s id hs hid
    refine ⟨u, b, hkeep u b hb ?_, hl, hassigned⟩
    -- the main channel of a session that is still there is not the one that closes
    rintro hsame
    rw [hl] at hsame
    rw [← hsame] at hs'
    simp [AudioLease.drop, SortedMap.get?_erase] at hs'
  · intro u b s' hb hc hs'
    obtain ⟨s, hs, hconnection, -⟩ := AudioLease.of_get?_drop hs'
    rw [hconnection]
    exact h.child u b s (hothers u b hb).1 hc hs

end Slots

end MachineEmu
