import MachineEmu.Api.EventClients
import MachineEmu.Safety.EventAccounting

/-!
# The sessions of the event hub

In every run of the hub with its clients, the accounts of the hub are right, and its subscribers
are the sessions that are alive.

* `Attended` — the subscribers are the sessions that are alive.
* `attended_step` — what a step keeps.
* `eventHub_accounts` — the result.
-/

namespace MachineEmu

open Lib

namespace Events

/-! ## Statements -/

variable {w w' : World} {hub hub' : EventHub} {instanceId : String} {broadcast : Bool}

/-- The subscribers of the instances are the sessions that are alive. -/
structure Attended (w : World) : Prop where
  live : ∀ i n, n ∈ (w.hub.history i).subscribers ↔
    ∃ session, w.sessions n = some session ∧ session.instanceId = i ∧ session.live = true
  fresh : ∀ n, w.hub.nextSubscriber < n → w.sessions n = none

/-- The sessions that are alive after some ended. -/
theorem live_ended (w : World) (ends : Nat → Session → Bool) (i : String) (n : Nat) :
    (∃ session, w.ended ends n = some session ∧ session.instanceId = i ∧ session.live = true) ↔
      ∃ session, w.sessions n = some session ∧ session.instanceId = i ∧ session.live = true ∧
        ends n session = false := by
  unfold World.ended
  cases w.sessions n with
  | none => simp
  | some session => simp

theorem fresh_ended (h : Attended w) (ends : Nat → Session → Bool) {n : Nat}
    (hn : w.hub.nextSubscriber < n) : w.ended ends n = none := by
  unfold World.ended
  rw [h.fresh n hn]
  rfl

/-- The history of an instance after an event: it lost its oldest records. -/
theorem Published.history_trims {record : Record}
    (h : Published hub instanceId record broadcast hub') (i : String) :
    Trims (if i = instanceId then appended hub instanceId record broadcast else hub.history i)
      (hub'.history i) := by
  split
  · next hsame =>
    rw [hsame]
    obtain ⟨kept, hkept, htrims⟩ := h.histories.present instanceId
      (appended hub instanceId record broadcast) (by rw [SortedMap.get?_insert, if_pos rfl])
    rwa [history_of_get? hkept]
  · next hother =>
    cases hget : hub.histories.get? i with
    | none =>
      have hnone : hub'.histories.get? i = none :=
        h.histories.absent i (by rw [SortedMap.get?_insert, if_neg hother, hget])
      unfold EventHub.history
      rw [hnone, hget]
      exact Trims.refl rfl
    | some history =>
      obtain ⟨kept, hkept, htrims⟩ := h.histories.present i history
        (by rw [SortedMap.get?_insert, if_neg hother, hget])
      rwa [history_of_get? hkept, history_of_get? hget]

/-- The subscribers of an instance after an event. -/
theorem Published.history_subscribers {record : Record}
    (h : Published hub instanceId record broadcast hub') (i : String) :
    (hub'.history i).subscribers =
      if i = instanceId then hub.keptSubscribers instanceId broadcast
      else (hub.history i).subscribers := by
  rw [(h.history_trims i).subscribers]
  split <;> rfl

theorem history_insert (histories : SortedMap String History) (history : History) (i : String) :
    ((histories.insert instanceId history).get? i).getD {} =
      if i = instanceId then history else (histories.get? i).getD {} := by
  rw [SortedMap.get?_insert]
  split <;> rfl

theorem history_withSubscriber {history : History} (i : String) :
    ((hub.withSubscriber instanceId history).history i).subscribers =
      if i = instanceId then insert (hub.nextSubscriber + 1) history.subscribers
      else (hub.history i).subscribers := by
  unfold EventHub.history EventHub.withSubscriber
  dsimp only
  rw [history_insert]
  split <;> rfl

theorem history_unsubscribe (n : Nat) (i : String) :
    ((hub.unsubscribe instanceId n).history i).subscribers =
      if i = instanceId then (hub.history i).subscribers.erase n
      else (hub.history i).subscribers := by
  unfold EventHub.unsubscribe
  cases hget : hub.histories.get? instanceId with
  | none =>
    dsimp only
    split
    · next hsame =>
      rw [hsame]
      unfold EventHub.history
      rw [hget]
      rfl
    · rfl
  | some history =>
    unfold EventHub.history
    dsimp only
    rw [history_insert]
    split
    · next hsame => rw [hsame, hget, Option.getD_some]
    · rfl

theorem history_erase (histories : SortedMap String History) (i : String) :
    ((histories.erase instanceId).get? i).getD {} =
      if i = instanceId then {} else (histories.get? i).getD {} := by
  rw [SortedMap.get?_erase]
  split <;> rfl

/-! ## Publishing -/

theorem attended_publish (h : Attended w) (haccounted : Accounted w.hub) (instanceId : String)
    (kind : Kind) (data : String) :
    w.publish instanceId kind data = .error .overflow ∨
      ∃ w', w.publish instanceId kind data = .ok w' ∧ Accounted w'.hub ∧ Attended w' := by
  unfold World.publish
  rcases publish_cases haccounted instanceId kind data true with
    ⟨-, hlarge⟩ | hfault | ⟨-, hub', hok, hpublished, haccounted'⟩
  · rw [hlarge]
    exact .inr ⟨w, rfl, haccounted, h⟩
  · rw [hfault]
    exact .inl rfl
  · rw [hok]
    refine .inr ⟨_, rfl, haccounted', ?_, ?_⟩
    · intro i n
      dsimp only
      rw [live_ended, hpublished.history_subscribers]
      by_cases hi : i = instanceId
      · -- the subscribers that take no more are dropped
        rw [if_pos hi]
        unfold EventHub.keptSubscribers
        rw [if_pos rfl, Finset.mem_filter, ← hi, h.live i n]
        constructor
        · rintro ⟨⟨session, hsession, hinstance, hlive⟩, haccepts⟩
          exact ⟨session, hsession, hinstance, hlive, by simp [haccepts]⟩
        · rintro ⟨session, hsession, hinstance, hlive, hends⟩
          refine ⟨⟨session, hsession, hinstance, hlive⟩, ?_⟩
          simpa [hinstance] using hends
      · rw [if_neg hi, h.live i n]
        constructor
        · rintro ⟨session, hsession, hinstance, hlive⟩
          refine ⟨session, hsession, hinstance, hlive, ?_⟩
          rw [hinstance]
          simp [hi]
        · rintro ⟨session, hsession, hinstance, hlive, -⟩
          exact ⟨session, hsession, hinstance, hlive⟩
    · intro n hn
      dsimp only at hn ⊢
      rw [hpublished.nextSubscriber] at hn
      exact fresh_ended h _ hn

/-! ## Subscribing -/

/-- The subscribers before a new one is added are those before the subscription. -/
theorem Prepared.history_subscribers {cursor : Option Cursor} {snapshot : String}
    (h : Prepared hub instanceId cursor snapshot hub') (i : String) :
    (hub'.history i).subscribers = (hub.history i).subscribers := by
  obtain ⟨-, rfl⟩ | ⟨-, -, hpublished⟩ := h
  · rfl
  · rw [hpublished.history_subscribers]
    split
    · next hsame =>
      rw [hsame]
      rfl
    · rfl

theorem Prepared.nextSubscriber {cursor : Option Cursor} {snapshot : String}
    (h : Prepared hub instanceId cursor snapshot hub') :
    hub'.nextSubscriber = hub.nextSubscriber := by
  obtain ⟨-, rfl⟩ | ⟨-, -, hpublished⟩ := h
  · rfl
  · exact hpublished.nextSubscriber

theorem attended_subscribe (h : Attended w) (haccounted : Accounted w.hub) (instanceId : String)
    (cursor : Option Cursor) (since : Option (Nat × Nat)) (snapshot : String) :
    w.subscribe instanceId cursor since snapshot = .error .overflow ∨
      ∃ w', w.subscribe instanceId cursor since snapshot = .ok w' ∧ Accounted w'.hub ∧
        Attended w' := by
  unfold World.subscribe
  rcases subscribe_cases haccounted instanceId cursor snapshot with
    ⟨refusal, hrefused⟩ | hfault | ⟨hub₁, history, hprepared, -, hget, hok, haccounted'⟩
  · rw [hrefused]
    exact .inr ⟨w, rfl, haccounted, h⟩
  · rw [hfault]
    exact .inl rfl
  · rw [hok]
    refine .inr ⟨_, rfl, haccounted', ?_, ?_⟩
    · intro i n
      have hsubscribers := hprepared.history_subscribers i
      have hnumber := hprepared.nextSubscriber
      dsimp only
      rw [history_withSubscriber, Function.update_apply]
      by_cases hn : n = hub₁.nextSubscriber + 1
      · -- the number of the subscriber is new
        have hfresh : ∀ j, n ∉ (w.hub.history j).subscribers := by
          intro j hj
          obtain ⟨session, hsession, -⟩ := (h.live j n).1 hj
          rw [h.fresh n (by omega)] at hsession
          cases hsession
        rw [if_pos hn]
        by_cases hi : i = instanceId
        · rw [if_pos hi]
          simp [World.session, hn, hi]
        · rw [if_neg hi, hsubscribers]
          constructor
          · exact fun hmem => absurd hmem (hfresh i)
          · rintro ⟨session, hsession, hinstance, -⟩
            cases hsession
            exact absurd hinstance.symm hi
      · rw [if_neg hn, ← h.live i n]
        by_cases hi : i = instanceId
        · rw [if_pos hi, Finset.mem_insert]
          rw [← hsubscribers, hi, history_of_get? hget]
          simp [hn]
        · rw [if_neg hi, hsubscribers]
    · intro n hn
      dsimp only at hn ⊢
      have hnumber := hprepared.nextSubscriber
      have hmore : (hub₁.withSubscriber instanceId history).nextSubscriber =
          hub₁.nextSubscriber + 1 := rfl
      rw [Function.update_of_ne (by omega)]
      exact h.fresh n (by omega)

theorem attended_resume (h : Attended w) (haccounted : Accounted w.hub) (n : Nat)
    (snapshot : String) :
    w.resume n snapshot = .error .overflow ∨
      ∃ w', w.resume n snapshot = .ok w' ∧ Accounted w'.hub ∧ Attended w' := by
  unfold World.resume
  split
  · exact .inr ⟨w, rfl, haccounted, h⟩
  · next session _ =>
    split
    · exact attended_subscribe h haccounted session.instanceId none none snapshot
    · split
      · exact .inr ⟨w, rfl, haccounted, h⟩
      · exact attended_subscribe h haccounted session.instanceId _ _ snapshot

/-! ## The other steps -/

theorem attended_unsubscribe (h : Attended w) (instanceId : String) (n : Nat) :
    Attended (w.unsubscribe instanceId n) := by
  constructor
  · intro i m
    unfold World.unsubscribe
    dsimp only
    rw [live_ended, history_unsubscribe]
    by_cases hi : i = instanceId
    · rw [if_pos hi, Finset.mem_erase, h.live i m]
      constructor
      · rintro ⟨hm, session, hsession, hinstance, hlive⟩
        exact ⟨session, hsession, hinstance, hlive, by simp [hm]⟩
      · rintro ⟨session, hsession, hinstance, hlive, hends⟩
        refine ⟨?_, session, hsession, hinstance, hlive⟩
        rintro rfl
        simp [hinstance, hi] at hends
    · rw [if_neg hi, h.live i m]
      constructor
      · rintro ⟨session, hsession, hinstance, hlive⟩
        refine ⟨session, hsession, hinstance, hlive, ?_⟩
        rw [hinstance]
        simp [hi]
      · rintro ⟨session, hsession, hinstance, hlive, -⟩
        exact ⟨session, hsession, hinstance, hlive⟩
  · intro m hm
    have hsame : (w.unsubscribe instanceId n).hub.nextSubscriber = w.hub.nextSubscriber := by
      unfold World.unsubscribe EventHub.unsubscribe
      dsimp only
      split <;> rfl
    rw [hsame] at hm
    unfold World.unsubscribe
    dsimp only
    exact fresh_ended h _ hm

theorem attended_closeInstance (h : Attended w) (haccounted : Accounted w.hub)
    (instanceId : String) :
    ∃ w', w.closeInstance instanceId = .ok w' ∧ Accounted w'.hub ∧ Attended w' := by
  obtain ⟨hub', hok, haccounted', hhub'⟩ := closeInstance_ok haccounted instanceId
  unfold World.closeInstance
  rw [hok]
  refine ⟨_, rfl, haccounted', ?_, ?_⟩
  · intro i n
    dsimp only
    rw [live_ended]
    have hhistory : hub'.history i = if i = instanceId then {} else w.hub.history i := by
      rw [hhub']
      exact history_erase w.hub.histories i
    rw [hhistory]
    by_cases hi : i = instanceId
    · rw [if_pos hi]
      constructor
      · exact fun hmem => absurd hmem (Finset.notMem_empty n)
      · rintro ⟨session, -, hinstance, -, hends⟩
        simp [hinstance, hi] at hends
    · rw [if_neg hi, h.live i n]
      constructor
      · rintro ⟨session, hsession, hinstance, hlive⟩
        refine ⟨session, hsession, hinstance, hlive, ?_⟩
        rw [hinstance]
        simp [hi]
      · rintro ⟨session, hsession, hinstance, hlive, -⟩
        exact ⟨session, hsession, hinstance, hlive⟩
  · intro n hn
    have hsame : hub'.nextSubscriber = w.hub.nextSubscriber := by rw [hhub']
    dsimp only at hn ⊢
    rw [hsame] at hn
    exact fresh_ended h _ hn

/-- What a hub's accounts are about does not include its channels. -/
theorem Accounted.withChannels (h : Accounted hub) (channels : Nat → Channel) :
    Accounted { hub with channels } :=
  ⟨h.histories, h.orders, h.bytes, h.limit, h.subscribers⟩

theorem attended_receive (h : Attended w) (haccounted : Accounted w.hub) (n : Nat) :
    Accounted (w.receive n).hub ∧ Attended (w.receive n) := by
  unfold World.receive
  cases hsession : w.sessions n with
  | none => exact ⟨haccounted, h⟩
  | some session =>
    dsimp only
    split
    · refine ⟨haccounted, ?_, ?_⟩
      · intro i m
        dsimp only
        rw [h.live i m, Function.update_apply]
        split
        · next hm =>
          rw [hm, hsession]
          simp
        · rfl
      · intro m hm
        dsimp only at hm ⊢
        rw [Function.update_of_ne, h.fresh m hm]
        rintro rfl
        rw [h.fresh m hm] at hsession
        cases hsession
    · exact ⟨haccounted.withChannels _, h.live, h.fresh⟩

/-- A step keeps the accounts, and only an overflow ends the run. -/
theorem attended_step (h : Attended w) (haccounted : Accounted w.hub) (op : Op) :
    w.step op = .error .overflow ∨ ∃ w', w.step op = .ok w' ∧ Accounted w'.hub ∧ Attended w' := by
  cases op with
  | publishState instanceId data => exact attended_publish h haccounted instanceId .state data
  | publishOperation instanceId data =>
    exact attended_publish h haccounted instanceId .operation data
  | publishQmp instanceId data => exact attended_publish h haccounted instanceId .qmp data
  | subscribe instanceId cursor snapshot =>
    exact attended_subscribe h haccounted instanceId cursor none snapshot
  | resume n snapshot => exact attended_resume h haccounted n snapshot
  | unsubscribe instanceId n =>
    exact .inr ⟨_, rfl, accounted_unsubscribe haccounted instanceId n,
      attended_unsubscribe h instanceId n⟩
  | closeInstance instanceId => exact .inr (attended_closeInstance h haccounted instanceId)
  | receive n => exact .inr ⟨_, rfl, attended_receive h haccounted n⟩
  | hangUp n => exact .inr ⟨_, rfl, haccounted.withChannels _, h.live, h.fresh⟩

theorem accounted_initial (generation : String) : Accounted (EventHub.new generation) where
  histories := fun _ _ h => nomatch h
  orders := fun _ _ h => nomatch h
  bytes := rfl
  limit := Nat.zero_le _
  subscribers := Nat.zero_le _

theorem attended_initial (generation : String) : Attended (World.initial generation) where
  live := by simp [World.initial, EventHub.new, EventHub.history]
  fresh := fun _ _ => rfl

/-- Every run keeps the accounts. -/
theorem attended_of_reachable {allowed : World → Op → Prop} {generation : String}
    (h : Reachable allowed generation w) : Accounted w.hub ∧ Attended w := by
  induction h with
  | initial => exact ⟨accounted_initial generation, attended_initial generation⟩
  | @step w w' op _ _ hstep ih =>
    rcases attended_step ih.2 ih.1 op with hfault | ⟨w'', hok, haccounted, hattended⟩
    · rw [hstep] at hfault
      cases hfault
    · rw [hstep] at hok
      cases hok
      exact ⟨haccounted, hattended⟩

/-- In every run of a hub, the counters of the hub and of its instances are the sums of the sizes
of the records that they keep, the limits hold, the sequence numbers of an instance's records are
consecutive, the subscribers are the sessions that are alive, and no step ends in an underflow. -/
theorem eventHub_accounts {generation : String} (h : Reachable (fun _ _ => True) generation w) :
    Accounted w.hub ∧ Attended w ∧ ∀ op fault, w.step op = .error fault → fault = .overflow := by
  obtain ⟨haccounted, hattended⟩ := attended_of_reachable h
  refine ⟨haccounted, hattended, ?_⟩
  intro op fault hstep
  rcases attended_step hattended haccounted op with hfault | ⟨w', hok, -⟩
  · rw [hstep] at hfault
    cases hfault
    rfl
  · rw [hstep] at hok
    cases hok

/-- The accounts of a hub that has published one event. -/
theorem eventHub_accounts_lab01 :
    ∃ w, (World.initial "0123456789abcdef0123456789abcdef").step (.publishState "lab01" "null") =
      .ok w ∧ w.hub.bytes = 76 ∧ Accounted w.hub := by
  have hbytes : ((World.initial "0123456789abcdef0123456789abcdef").step
      (.publishState "lab01" "null")).toOption.map (fun w => w.hub.bytes) = some 76 := by
    decide
  cases hstep : (World.initial "0123456789abcdef0123456789abcdef").step
      (.publishState "lab01" "null") with
  | error fault =>
    rw [hstep] at hbytes
    cases hbytes
  | ok w =>
    rw [hstep] at hbytes
    exact ⟨w, rfl, Option.some.inj hbytes, (eventHub_accounts (.step .initial trivial hstep)).1⟩

end Events

end MachineEmu
