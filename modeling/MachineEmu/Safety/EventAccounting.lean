import MachineEmu.Api.Events

/-!
# The accounts of the event hub

The counters of the hub are the sums that they stand for, its limits hold, and no operation ends
in an underflow.

* `Accounted` — the counters, the limits and the sequence numbers of a hub.
* `Trims`, `Trimmed` — histories that lost their oldest records.
* `publish_cases`, `subscribe_cases`, `closeInstance_ok` — what the operations do to an accounted
  hub.
-/

namespace MachineEmu

open Lib List

namespace Events

/-! ## Statements -/

/-- Sequence numbers that end in `last`, one after the other. -/
def Consecutive (last : Nat) (records : List Record) : Prop :=
  records.length ≤ last ∧
    records.map Record.sequence = List.range' (last + 1 - records.length) records.length

/-- A history whose counter is right and whose limits hold. -/
structure History.Accounted (history : History) : Prop where
  bytes : history.bytes = size history.records
  events : history.records.length ≤ historyEvents
  limit : size history.records ≤ instanceHistoryBytes
  subscribers : history.subscribers.card ≤ instanceSubscribers
  consecutive : Consecutive history.nextSequence history.records

/-- A hub whose counters are right and whose limits hold. -/
structure Accounted (hub : EventHub) : Prop where
  histories : ∀ i h, hub.histories.get? i = some h → h.Accounted
  orders : ∀ i h, hub.histories.get? i = some h → ∀ record ∈ h.records,
    record.order ≤ hub.nextOrder
  bytes : hub.bytes = hub.histories.total fun h => size h.records
  limit : hub.bytes ≤ globalHistoryBytes
  subscribers : hub.subscriberCount ≤ globalSubscribers

/-! ## Dropping the oldest records -/

theorem size_append (records more : List Record) : size (records ++ more) = size records + size more := by
  simp [size]

theorem Consecutive.append {last : Nat} {records : List Record} {record : Record}
    (h : Consecutive last records) (hsequence : record.sequence = last + 1) :
    Consecutive (last + 1) (records ++ [record]) := by
  obtain ⟨hle, hmap⟩ := h
  constructor
  · simp
    omega
  · rw [map_append, hmap, length_append, length_singleton, map_singleton, hsequence, range'_concat]
    have hstart : last + 1 + 1 - (records.length + 1) = last + 1 - records.length := by omega
    have hend : last + 1 - records.length + 1 * records.length = last + 1 := by omega
    rw [hstart, hend]

theorem Consecutive.suffix {last : Nat} {records kept : List Record}
    (h : Consecutive last records) (hkept : kept <:+ records) : Consecutive last kept := by
  obtain ⟨dropped, rfl⟩ := hkept
  obtain ⟨hle, hmap⟩ := h
  simp only [length_append] at hle hmap
  constructor
  · omega
  · rw [map_append, ← range'_append_1] at hmap
    have hright := (append_inj hmap (by simp)).2
    rw [hright]
    congr 1
    omega

/-- A history that lost its oldest records. -/
structure Trims (history kept : History) : Prop where
  nextSequence : kept.nextSequence = history.nextSequence
  subscribers : kept.subscribers = history.subscribers
  records : kept.records <:+ history.records
  bytes : kept.bytes = size kept.records

theorem Trims.refl {history : History} (h : history.bytes = size history.records) :
    Trims history history :=
  ⟨rfl, rfl, suffix_rfl, h⟩

theorem Trims.trans {a b c : History} (h : Trims a b) (h' : Trims b c) : Trims a c :=
  ⟨h'.nextSequence.trans h.nextSequence, h'.subscribers.trans h.subscribers,
    h'.records.trans h.records, h'.bytes⟩

/-- The histories of a hub, of which some lost their oldest records. -/
structure Trimmed (histories kept : SortedMap String History) : Prop where
  present : ∀ i h, histories.get? i = some h → ∃ h', kept.get? i = some h' ∧ Trims h h'
  absent : ∀ i, histories.get? i = none → kept.get? i = none

/-- The counters of the histories are right. -/
def Counted (histories : SortedMap String History) : Prop :=
  ∀ i h, histories.get? i = some h → h.bytes = size h.records

variable {histories : SortedMap String History}

theorem Trimmed.refl (h : Counted histories) : Trimmed histories histories :=
  ⟨fun i h' hh => ⟨h', hh, Trims.refl (h i h' hh)⟩, fun _ h => h⟩

theorem Trimmed.trans {a b c : SortedMap String History} (h : Trimmed a b) (h' : Trimmed b c) :
    Trimmed a c := by
  constructor
  · intro i x hx
    obtain ⟨y, hy, hxy⟩ := h.present i x hx
    obtain ⟨z, hz, hyz⟩ := h'.present i y hy
    exact ⟨z, hz, hxy.trans hyz⟩
  · exact fun i hi => h'.absent i (h.absent i hi)

theorem size_le_of_suffix {records kept : List Record} (h : kept <:+ records) :
    size kept ≤ size records := by
  obtain ⟨dropped, rfl⟩ := h
  rw [size_append]
  omega

/-- The records of an instance are dropped until it is within its limits; if the last record is
within the limit, it stays. -/
theorem evictInstance_ok (total : Nat) (records : List Record) (htotal : size records ≤ total) :
    ∃ kept, kept <:+ records ∧
      evictInstance total (size records) records =
        .ok (total - (size records - size kept), size kept, kept) ∧
      kept.length ≤ historyEvents ∧ size kept ≤ instanceHistoryBytes ∧
      ∀ record, record ∈ records.getLast? → record.bytes ≤ instanceHistoryBytes →
        record ∈ kept.getLast? := by
  induction records generalizing total with
  | nil =>
    refine ⟨[], suffix_rfl, ?_, ?_, ?_, ?_⟩
    · simp [evictInstance, size, instanceHistoryBytes]
    · simp
    · simp [size]
    · simp
  | cons old records ih =>
    have hsize : size (old :: records) = old.bytes + size records := rfl
    by_cases hover : records.length + 1 > historyEvents ∨ size (old :: records) > instanceHistoryBytes
    · have hrest : size records ≤ total - old.bytes := by omega
      obtain ⟨kept, hkept, hresult, hevents, hbytes, hlast⟩ := ih _ hrest
      have hle := size_le_of_suffix hkept
      refine ⟨kept, hkept.trans (suffix_cons old records), ?_, hevents, hbytes, ?_⟩
      · unfold evictInstance
        rw [if_pos hover]
        unfold subtract
        rw [if_pos (by omega), if_pos (by omega)]
        dsimp only
        have hbefore : size (old :: records) - old.bytes = size records := by omega
        have hafter : total - old.bytes - (size records - size kept) =
            total - (size (old :: records) - size kept) := by omega
        rw [hbefore, hresult, hafter]
      · intro record hrecord hfits
        cases records with
        | nil =>
          -- the only record is within the limit, so it was not dropped
          have hsame : old = record := by simpa using hrecord
          rw [← hsame] at hfits
          simp [size, historyEvents] at hover
          omega
        | cons next records => exact hlast record hrecord hfits
    · refine ⟨old :: records, suffix_rfl, ?_, ?_, ?_, ?_⟩
      · unfold evictInstance
        rw [if_neg hover]
        simp
      · simp only [length_cons]
        omega
      · omega
      · exact fun record hrecord _ => hrecord

theorem oldest_eq_none {es : List (String × History)} (h : oldest es = none) :
    ∀ e ∈ es, e.2.records = [] := by
  induction es with
  | nil => simp
  | cons e es ih =>
    unfold oldest at h
    cases hhead : e.2.records.head? with
    | none =>
      rw [hhead] at h
      intro x hx
      rcases mem_cons.1 hx with rfl | hx
      · exact List.head?_eq_none_iff.1 hhead
      · exact ih h x hx
    | some item =>
      rw [hhead] at h
      cases hrest : oldest es with
      | none =>
        rw [hrest] at h
        cases h
      | some found =>
        rw [hrest] at h
        dsimp only at h
        split at h <;> cases h

/-- The oldest record is the first of its history, and no other first record is older. -/
theorem oldest_eq_some {es : List (String × History)} {i : String} {order : Nat}
    (h : oldest es = some (i, order)) :
    (∃ e ∈ es, e.1 = i ∧ ∃ item, e.2.records.head? = some item ∧ item.order = order) ∧
      ∀ e ∈ es, ∀ item, e.2.records.head? = some item → order ≤ item.order := by
  induction es generalizing i order with
  | nil => cases h
  | cons e es ih =>
    obtain ⟨id, history⟩ := e
    unfold oldest at h
    cases hhead : history.records.head? with
    | none =>
      rw [hhead] at h
      obtain ⟨⟨x, hx, hfound⟩, hle⟩ := ih h
      refine ⟨⟨x, mem_cons_of_mem _ hx, hfound⟩, ?_⟩
      intro y hy item hitem
      rcases mem_cons.1 hy with rfl | hy
      · rw [hhead] at hitem
        cases hitem
      · exact hle y hy item hitem
    | some first =>
      rw [hhead] at h
      cases hrest : oldest es with
      | none =>
        rw [hrest] at h
        cases h
        refine ⟨⟨_, mem_cons_self, rfl, first, hhead, rfl⟩, ?_⟩
        intro y hy item hitem
        rcases mem_cons.1 hy with rfl | hy
        · rw [hhead] at hitem
          cases hitem
          exact le_rfl
        · rw [oldest_eq_none hrest y hy] at hitem
          cases hitem
      | some found =>
        obtain ⟨other, older⟩ := found
        obtain ⟨⟨x, hx, hfound⟩, hle⟩ := ih hrest
        rw [hrest] at h
        dsimp only at h
        split at h
        · next horder =>
          cases h
          refine ⟨⟨_, mem_cons_self, rfl, first, hhead, rfl⟩, ?_⟩
          intro y hy item hitem
          rcases mem_cons.1 hy with rfl | hy
          · rw [hhead] at hitem
            cases hitem
            exact le_rfl
          · exact horder.trans (hle y hy item hitem)
        · next horder =>
          cases h
          refine ⟨⟨x, mem_cons_of_mem _ hx, hfound⟩, ?_⟩
          intro y hy item hitem
          rcases mem_cons.1 hy with rfl | hy
          · rw [hhead] at hitem
            cases hitem
            omega
          · exact hle y hy item hitem

/-- A history without its oldest record. -/
def History.dropOldest (history : History) : History :=
  { history with bytes := size history.records.tail, records := history.records.tail }

section dropOldest

variable {histories : SortedMap String History} {i : String} {history : History} {old : Record}

theorem records_of_head? (hhead : history.records.head? = some old) :
    history.records = old :: history.records.tail :=
  (cons_head?_tail hhead).symm

theorem Counted.dropOldest (h : Counted histories) :
    Counted (histories.insert i history.dropOldest) := by
  intro j x hx
  rw [SortedMap.get?_insert] at hx
  split at hx
  · cases hx
    rfl
  · exact h j x hx

theorem Trimmed.dropOldest (h : Counted histories) (hget : histories.get? i = some history) :
    Trimmed histories (histories.insert i history.dropOldest) := by
  constructor
  · intro j x hx
    rw [SortedMap.get?_insert]
    split
    · next hsame =>
      rw [hsame, hget] at hx
      cases hx
      exact ⟨_, rfl, rfl, rfl, tail_suffix _, rfl⟩
    · exact ⟨x, hx, Trims.refl (h j x hx)⟩
  · intro j hj
    rw [SortedMap.get?_insert, if_neg, hj]
    intro hsame
    rw [hsame, hget] at hj
    cases hj

theorem total_dropOldest (hget : histories.get? i = some history)
    (hhead : history.records.head? = some old) :
    ((histories.insert i history.dropOldest).total fun h => size h.records) + old.bytes =
        (histories.total fun h => size h.records) ∧
      EventHub.retained (histories.insert i history.dropOldest) + 1 =
        EventHub.retained histories := by
  have htotal : ∀ f : History → Nat, (histories.insert i history.dropOldest).total f + f history =
      histories.total f + f history.dropOldest := by
    intro f
    rw [← SortedMap.amount_of_get? hget f]
    exact SortedMap.total_insert histories i history.dropOldest f
  have hsum : ((histories.insert i history.dropOldest).total fun h => size h.records) +
      size history.records = (histories.total fun h => size h.records) +
        size history.records.tail := htotal fun h => size h.records
  have hcount : EventHub.retained (histories.insert i history.dropOldest) +
      history.records.length = EventHub.retained histories + history.records.tail.length :=
    htotal fun h => h.records.length
  have hsize : size history.records = old.bytes + size history.records.tail := by
    rw [records_of_head? hhead]
    rfl
  have hlength : history.records.length = history.records.tail.length + 1 := by
    rw [records_of_head? hhead]
    rfl
  constructor
  · omega
  · omega

end dropOldest

/-- A step of the eviction: the hub is within its limit, or the oldest record of all is dropped. -/
theorem evictGlobal_succ (fuel bytes : Nat)
    (hcounted : Counted histories) (hbytes : bytes = histories.total fun h => size h.records) :
    (bytes ≤ globalHistoryBytes ∧ evictGlobal (fuel + 1) histories bytes = .ok (histories, bytes)) ∨
    ∃ i history old, globalHistoryBytes < bytes ∧ histories.get? i = some history ∧
      history.records.head? = some old ∧
      (∀ j x item, histories.get? j = some x → x.records.head? = some item →
        old.order ≤ item.order) ∧
      evictGlobal (fuel + 1) histories bytes =
        evictGlobal fuel (histories.insert i history.dropOldest) (bytes - old.bytes) := by
  rw [evictGlobal]
  by_cases hover : bytes > globalHistoryBytes
  · refine .inr ?_
    rw [if_pos hover]
    cases holdest : oldest histories.entries with
    | none =>
      -- without records there are no bytes
      have hempty : (histories.total fun h => size h.records) = 0 := by
        rw [SortedMap.total_eq_zero_iff]
        intro i h hh
        rw [oldest_eq_none holdest _ (SortedMap.get?_eq_some_iff.1 hh)]
        rfl
      simp [globalHistoryBytes] at hover
      omega
    | some found =>
      obtain ⟨i, order⟩ := found
      obtain ⟨⟨e, he, rfl, old, hhead, rfl⟩, hle⟩ := oldest_eq_some holdest
      obtain ⟨i, history⟩ := e
      have hget : histories.get? i = some history := SortedMap.get?_eq_some_iff.2 he
      refine ⟨i, history, old, hover, hget, hhead, ?_, ?_⟩
      · exact fun j x item hx hitem => hle (j, x) (SortedMap.get?_eq_some_iff.1 hx) item hitem
      · have hrecords := records_of_head? hhead
        have hhistory : history.bytes = old.bytes + size history.records.tail := by
          rw [hcounted i history hget, hrecords]
          rfl
        have hsize : size history.records = old.bytes + size history.records.tail := by
          rw [hrecords]
          rfl
        have hlimit := SortedMap.le_total hget fun h => size h.records
        dsimp only
        rw [hget]
        dsimp only
        rw [hrecords]
        dsimp only
        unfold subtract
        rw [if_pos (by omega), if_pos (by omega)]
        dsimp only
        have hafter : history.bytes - old.bytes = size history.records.tail := by omega
        rw [hafter]
        rfl
  · rw [if_neg hover]
    exact .inl ⟨Nat.not_lt.1 hover, rfl⟩

/-- The records of all instances are dropped, oldest first, until the hub is within its limit. -/
theorem evictGlobal_ok (fuel bytes : Nat) (histories : SortedMap String History)
    (hfuel : EventHub.retained histories < fuel) (hcounted : Counted histories)
    (hbytes : bytes = histories.total fun h => size h.records) :
    ∃ kept, evictGlobal fuel histories bytes = .ok (kept, kept.total fun h => size h.records) ∧
      Trimmed histories kept ∧ (kept.total fun h => size h.records) ≤ globalHistoryBytes := by
  induction fuel generalizing bytes histories with
  | zero => omega
  | succ fuel ih =>
    rcases evictGlobal_succ fuel bytes hcounted hbytes with
      ⟨hlimit, hresult⟩ | ⟨i, history, old, -, hget, hhead, -, hstep⟩
    · refine ⟨histories, ?_, Trimmed.refl hcounted, ?_⟩
      · rw [hresult, hbytes]
      · omega
    · obtain ⟨htotal, hcount⟩ := total_dropOldest hget hhead
      obtain ⟨kept, hresult, htrimmed, hlimit⟩ := ih (bytes - old.bytes)
        (histories.insert i history.dropOldest) (by omega) hcounted.dropOldest (by omega)
      exact ⟨kept, hstep.trans hresult, (Trimmed.dropOldest hcounted hget).trans htrimmed, hlimit⟩

variable {kept : SortedMap String History}

/-- The newest record of all is not dropped if it is within the limit. -/
theorem evictGlobal_newest {fuel bytes b : Nat}
    {i : String} {record : Record} (hcounted : Counted histories)
    (hbytes : bytes = histories.total fun h => size h.records)
    (hfits : record.bytes ≤ globalHistoryBytes)
    (holder : ∀ j x item, histories.get? j = some x → j ≠ i → item ∈ x.records →
      item.order < record.order)
    (hlast : ∃ history, histories.get? i = some history ∧
      history.records.getLast? = some record)
    (hresult : evictGlobal fuel histories bytes = .ok (kept, b)) :
    ∃ history, kept.get? i = some history ∧ history.records.getLast? = some record := by
  induction fuel generalizing bytes histories with
  | zero => cases hresult
  | succ fuel ih =>
    rcases evictGlobal_succ fuel bytes hcounted hbytes with
      ⟨-, hdone⟩ | ⟨j, history, old, hover, hget, hhead, hle, hstep⟩
    · rw [hdone] at hresult
      cases hresult
      exact hlast
    · obtain ⟨htotal, -⟩ := total_dropOldest hget hhead
      rw [hstep] at hresult
      refine ih hcounted.dropOldest (by omega) ?_ ?_ hresult
      · intro k x item hx hk hitem
        rw [SortedMap.get?_insert] at hx
        split at hx
        · next hsame =>
          cases hx
          exact holder j history item hget (hsame ▸ hk) (mem_of_mem_tail hitem)
        · exact holder k x item hx hk hitem
      · obtain ⟨x, hx, hxlast⟩ := hlast
        rw [SortedMap.get?_insert]
        split
        · next hsame =>
          rw [hsame, hget] at hx
          cases hx
          refine ⟨_, rfl, ?_⟩
          have hrecords := records_of_head? hhead
          cases hrest : history.records.tail with
          | cons next rest =>
            rw [hrecords, hrest, List.getLast?_cons_cons] at hxlast
            unfold History.dropOldest
            rw [hrest]
            exact hxlast
          | nil =>
            -- the record is the only one of the hub, which is within the limit then
            rw [hrecords, hrest] at hxlast
            have hold : old = record := by simpa using hxlast
            have hothers : ((histories.erase i).total fun h => size h.records) = 0 := by
              rw [SortedMap.total_eq_zero_iff]
              intro k y hy
              rw [SortedMap.get?_erase] at hy
              split at hy
              · cases hy
              · next hk =>
                cases hitem : y.records.head? with
                | none =>
                  rw [List.head?_eq_none_iff.1 hitem]
                  rfl
                | some item =>
                  have hlt := holder k y item hy hk (mem_of_mem_head? hitem)
                  have hge := hle k y item hy hitem
                  rw [hold] at hge
                  omega
            have herase := SortedMap.total_erase histories i fun h => size h.records
            rw [hsame, SortedMap.amount_of_get? hget] at herase
            rw [hsame] at hothers
            have hsize : size history.records = record.bytes := by
              rw [hrecords, hrest, hold]
              rfl
            omega
        · exact ⟨x, hx, hxlast⟩

/-! ## The operations -/

variable {hub hub' : EventHub} {instanceId : String} {kind : Kind} {data : String}
  {broadcast : Bool}

theorem accounted_empty : History.Accounted {} where
  bytes := rfl
  events := by decide
  limit := by decide
  subscribers := by decide
  consecutive := ⟨le_rfl, rfl⟩

theorem Accounted.history (h : Accounted hub) (instanceId : String) :
    (hub.history instanceId).Accounted := by
  unfold EventHub.history
  cases hget : hub.histories.get? instanceId with
  | none => exact accounted_empty
  | some history => exact h.histories instanceId history hget

theorem history_orders (h : Accounted hub) (instanceId : String) :
    ∀ record ∈ (hub.history instanceId).records, record.order ≤ hub.nextOrder := by
  unfold EventHub.history
  cases hget : hub.histories.get? instanceId with
  | none => simp
  | some history => exact h.orders instanceId history hget

/-- The value of a quantity at an instance: nothing is the empty history. -/
theorem amount_eq_history {f : History → Nat} (hf : f {} = 0) (hub : EventHub)
    (instanceId : String) : hub.histories.amount instanceId f = f (hub.history instanceId) := by
  unfold SortedMap.amount EventHub.history
  cases hub.histories.get? instanceId with
  | none => exact hf.symm
  | some history => rfl

/-- The history of an instance with one more record. -/
def appended (hub : EventHub) (instanceId : String) (record : Record) (broadcast : Bool) :
    History where
  nextSequence := record.sequence
  bytes := size ((hub.history instanceId).records ++ [record])
  records := (hub.history instanceId).records ++ [record]
  subscribers := hub.keptSubscribers instanceId broadcast

/-- What an event leaves: the instance has one more record, and some histories lost their oldest
ones, but not the new one if it is within the limits. -/
structure Published (hub : EventHub) (instanceId : String) (record : Record) (broadcast : Bool)
    (hub' : EventHub) : Prop where
  histories : Trimmed (hub.histories.insert instanceId (appended hub instanceId record broadcast))
    hub'.histories
  generation : hub'.generation = hub.generation
  nextOrder : hub'.nextOrder = record.order
  nextSubscriber : hub'.nextSubscriber = hub.nextSubscriber
  channels : hub'.channels = hub.sentTo instanceId record broadcast
  sequence : record.sequence < 2 ^ 64
  newest : record.bytes ≤ instanceHistoryBytes → ∃ history,
    hub'.histories.get? instanceId = some history ∧ history.records.getLast? = some record

theorem keptSubscribers_subset (hub : EventHub) (instanceId : String) (broadcast : Bool) :
    hub.keptSubscribers instanceId broadcast ⊆ (hub.history instanceId).subscribers := by
  unfold EventHub.keptSubscribers
  split
  · exact Finset.filter_subset _ _
  · exact fun _ h => h

/-- Histories that lost records have their subscribers. -/
theorem Trimmed.subscribers (h : Trimmed histories kept) :
    (kept.total fun h => h.subscribers.card) = histories.total fun h => h.subscribers.card := by
  apply SortedMap.total_congr
  intro i
  cases hget : histories.get? i with
  | none => rw [h.absent i hget]
  | some history =>
    obtain ⟨history', hget', htrims⟩ := h.present i history hget
    rw [hget', Option.map_some, Option.map_some, htrims.subscribers]

theorem Trims.accounted {history kept : History} (h : Trims history kept)
    (haccounted : history.Accounted) : kept.Accounted where
  bytes := h.bytes
  events := h.records.length_le.trans haccounted.events
  limit := (size_le_of_suffix h.records).trans haccounted.limit
  subscribers := by
    rw [h.subscribers]
    exact haccounted.subscribers
  consecutive := by
    rw [h.nextSequence]
    exact haccounted.consecutive.suffix h.records

theorem Trimmed.accounted (h : Trimmed histories kept)
    (haccounted : ∀ i x, histories.get? i = some x → x.Accounted) :
    ∀ i x, kept.get? i = some x → x.Accounted := by
  intro i x hx
  cases hget : histories.get? i with
  | none =>
    rw [h.absent i hget] at hx
    cases hx
  | some history =>
    obtain ⟨history', hget', htrims⟩ := h.present i history hget
    rw [hx] at hget'
    cases hget'
    exact htrims.accounted (haccounted i history hget)

theorem Trimmed.orders {n : Nat} (h : Trimmed histories kept)
    (horders : ∀ i x, histories.get? i = some x → ∀ record ∈ x.records, record.order ≤ n) :
    ∀ i x, kept.get? i = some x → ∀ record ∈ x.records, record.order ≤ n := by
  intro i x hx record hrecord
  cases hget : histories.get? i with
  | none =>
    rw [h.absent i hget] at hx
    cases hx
  | some history =>
    obtain ⟨history', hget', htrims⟩ := h.present i history hget
    rw [hx] at hget'
    cases hget'
    exact horders i history hget record (htrims.records.subset hrecord)

/-- A publication of an accounted hub: the event is too large, a counter overflows, or the event
is published. -/
theorem publish_cases (h : Accounted hub) (instanceId : String) (kind : Kind) (data : String)
    (broadcast : Bool) :
    (maxEventBytes < data.utf8ByteSize ∧
      hub.publish instanceId kind data broadcast = .ok (false, hub)) ∨
    hub.publish instanceId kind data broadcast = .error .overflow ∨
    (data.utf8ByteSize ≤ maxEventBytes ∧ ∃ hub',
      hub.publish instanceId kind data broadcast = .ok (true, hub') ∧
      Published hub instanceId (hub.record instanceId kind data) broadcast hub' ∧
      Accounted hub') := by
  unfold EventHub.publish
  by_cases hlarge : data.utf8ByteSize > maxEventBytes
  · rw [if_pos hlarge]
    exact .inl ⟨hlarge, rfl⟩
  rw [if_neg hlarge]
  by_cases hoverflow : 2 ^ 64 ≤ (hub.record instanceId kind data).order ∨
      2 ^ 64 ≤ (hub.record instanceId kind data).sequence
  · simp only [if_pos hoverflow]
    exact .inr (.inl trivial)
  simp only [if_neg hoverflow]
  refine .inr (.inr ⟨Nat.not_lt.1 hlarge, ?_⟩)
  have hhistory := h.history instanceId
  have hsequence : (hub.record instanceId kind data).sequence =
      (hub.history instanceId).nextSequence + 1 := rfl
  have horder : (hub.record instanceId kind data).order = hub.nextOrder + 1 := rfl
  generalize hub.record instanceId kind data = record at *
  have htotal : ∀ f : History → Nat, f {} = 0 → ∀ x, (hub.histories.insert instanceId x).total f +
      f (hub.history instanceId) = hub.histories.total f + f x := by
    intro f hf x
    rw [← amount_eq_history hf]
    exact SortedMap.total_insert hub.histories instanceId x f
  have hle : size (hub.history instanceId).records ≤ hub.bytes := by
    rw [h.bytes, ← amount_eq_history (f := fun h => size h.records) rfl]
    have herase := SortedMap.total_erase hub.histories instanceId fun h => size h.records
    omega
  have hsize : size ((hub.history instanceId).records ++ [record]) =
      size (hub.history instanceId).records + record.bytes := by
    rw [size_append]
    simp [size]
  -- the records of the instance
  obtain ⟨kept, hkept, hresult, hevents, hlimit, hnewest⟩ := evictInstance_ok
    (hub.bytes + record.bytes) ((hub.history instanceId).records ++ [record]) (by omega)
  rw [hsize, ← hhistory.bytes] at hresult
  rw [hresult]
  dsimp only
  have hsubscribers := keptSubscribers_subset hub instanceId broadcast
  have hcard := Finset.card_le_card hsubscribers
  obtain ⟨evicted, hevicted⟩ : ∃ evicted : History, evicted =
      { nextSequence := record.sequence, bytes := size kept, records := kept
        subscribers := hub.keptSubscribers instanceId broadcast } := ⟨_, rfl⟩
  have haccounted : evicted.Accounted := by
    rw [hevicted]
    constructor
    · rfl
    · exact hevents
    · exact hlimit
    · exact hcard.trans hhistory.subscribers
    · rw [hsequence]
      exact (hhistory.consecutive.append hsequence).suffix hkept
  have hinserted : ∀ i x, (hub.histories.insert instanceId evicted).get? i = some x →
      x.Accounted := by
    intro i x hx
    rw [SortedMap.get?_insert] at hx
    split at hx
    · cases hx
      exact haccounted
    · exact h.histories i x hx
  have horders : ∀ i x, (hub.histories.insert instanceId evicted).get? i = some x →
      ∀ r ∈ x.records, r.order ≤ record.order := by
    intro i x hx r hr
    rw [SortedMap.get?_insert] at hx
    split at hx
    · cases hx
      rw [hevicted] at hr
      rcases mem_append.1 (hkept.subset hr) with hr | hr
      · have hle := history_orders h instanceId r hr
        omega
      · rw [mem_singleton.1 hr]
    · have hle := h.orders i x hx r hr
      omega
  have hbytes := htotal (fun h => size h.records) rfl evicted
  have hevictedSize : size evicted.records = size kept := by rw [hevicted]
  have hkeptSize := size_le_of_suffix hkept
  have htotalBytes : hub.bytes + record.bytes -
      ((hub.history instanceId).bytes + record.bytes - size kept) =
        (hub.histories.insert instanceId evicted).total fun h => size h.records := by
    have hhub := h.bytes
    have hcounter := hhistory.bytes
    omega
  -- the records of the other instances
  obtain ⟨histories, hglobal, htrimmed, hlimit⟩ := evictGlobal_ok
    (EventHub.retained (hub.histories.insert instanceId evicted) + 1)
    (hub.bytes + record.bytes - ((hub.history instanceId).bytes + record.bytes - size kept))
    (hub.histories.insert instanceId evicted) (Nat.lt_succ_self _)
    (fun i x hx => (hinserted i x hx).bytes) htotalBytes
  have hcount := htotal (fun h => h.subscribers.card) rfl evicted
  have hglobal' := hglobal
  rw [htotalBytes] at hglobal'
  rw [← hevicted, hglobal]
  refine ⟨_, rfl, ?_, ?_⟩
  · constructor
    · refine Trimmed.trans ⟨?_, ?_⟩ htrimmed
      · intro i x hx
        rw [SortedMap.get?_insert] at hx ⊢
        split at hx
        · next hsame =>
          cases hx
          rw [if_pos hsame]
          refine ⟨evicted, rfl, ?_⟩
          rw [hevicted]
          exact ⟨rfl, rfl, hkept, rfl⟩
        · next hother =>
          rw [if_neg hother]
          exact ⟨x, hx, Trims.refl (h.histories i x hx).bytes⟩
      · intro i hi
        rw [SortedMap.get?_insert] at hi ⊢
        split at hi
        · cases hi
        · next hother => rw [if_neg hother, hi]
    · rfl
    · rfl
    · rfl
    · rfl
    · omega
    · intro hfits
      have hlast : evicted.records.getLast? = some record := by
        rw [hevicted]
        exact hnewest record (by simp) hfits
      refine evictGlobal_newest (fun i x hx => (hinserted i x hx).bytes) rfl ?_ ?_
        ⟨evicted, by rw [SortedMap.get?_insert, if_pos rfl], hlast⟩ hglobal'
      · exact hfits.trans (by decide)
      · intro j x item hx hj hitem
        rw [SortedMap.get?_insert, if_neg hj] at hx
        have hle := h.orders j x hx item hitem
        omega
  · constructor
    · exact htrimmed.accounted hinserted
    · exact htrimmed.orders horders
    · rfl
    · exact hlimit
    · have hkeptCount := htrimmed.subscribers
      have hlimit := h.subscribers
      have hevictedCount : evicted.subscribers.card ≤ (hub.history instanceId).subscribers.card := by
        rw [hevicted]
        exact hcard
      unfold EventHub.subscriberCount at hlimit ⊢
      dsimp only at hkeptCount ⊢
      omega

theorem history_of_get? {history : History} (h : hub.histories.get? instanceId = some history) :
    hub.history instanceId = history := by
  unfold EventHub.history
  rw [h]
  rfl

theorem Accounted.withSubscriber {history : History} (h : Accounted hub)
    (hget : hub.histories.get? instanceId = some history)
    (htotal : hub.subscriberCount < globalSubscribers)
    (hcount : history.subscribers.card < instanceSubscribers) :
    Accounted (hub.withSubscriber instanceId history) := by
  have hhistory := h.histories instanceId history hget
  have hcard : (insert (hub.nextSubscriber + 1) history.subscribers).card ≤
      history.subscribers.card + 1 := Finset.card_insert_le _ _
  have hinsert : ∀ f : History → Nat,
      (hub.withSubscriber instanceId history).histories.total f + f history =
        hub.histories.total f +
          f { history with subscribers := insert (hub.nextSubscriber + 1) history.subscribers } := by
    intro f
    rw [← SortedMap.amount_of_get? hget f]
    exact SortedMap.total_insert hub.histories instanceId _ f
  constructor
  · intro i x hx
    unfold EventHub.withSubscriber at hx
    rw [SortedMap.get?_insert] at hx
    split at hx
    · cases hx
      exact ⟨hhistory.bytes, hhistory.events, hhistory.limit, by dsimp only; omega,
        hhistory.consecutive⟩
    · exact h.histories i x hx
  · intro i x hx
    unfold EventHub.withSubscriber at hx
    rw [SortedMap.get?_insert] at hx
    split at hx
    · cases hx
      exact h.orders instanceId history hget
    · exact h.orders i x hx
  · have hbytes : ((hub.withSubscriber instanceId history).histories.total fun h => size h.records) +
        size history.records = (hub.histories.total fun h => size h.records) +
          size history.records := hinsert fun h => size h.records
    have hhub := h.bytes
    have hsame : (hub.withSubscriber instanceId history).bytes = hub.bytes := rfl
    omega
  · exact h.limit
  · have hsubscribers :
        ((hub.withSubscriber instanceId history).histories.total fun h => h.subscribers.card) +
          history.subscribers.card = (hub.histories.total fun h => h.subscribers.card) +
            (insert (hub.nextSubscriber + 1) history.subscribers).card :=
      hinsert fun h => h.subscribers.card
    unfold EventHub.subscriberCount at htotal ⊢
    omega

/-- The subscribers after a snapshot are those before it. -/
theorem Published.subscribers {record : Record}
    (h : Published hub instanceId record false hub') :
    hub'.subscriberCount = hub.subscriberCount ∧
      ∃ history, hub'.histories.get? instanceId = some history ∧
        history.subscribers = (hub.history instanceId).subscribers := by
  constructor
  · have htrimmed := h.histories.subscribers
    have hinsert := SortedMap.total_insert hub.histories instanceId
      (appended hub instanceId record false) fun h => h.subscribers.card
    rw [amount_eq_history rfl] at hinsert
    have hsame : (appended hub instanceId record false).subscribers =
        (hub.history instanceId).subscribers := rfl
    rw [hsame] at hinsert
    unfold EventHub.subscriberCount
    omega
  · obtain ⟨history, hget, htrims⟩ := h.histories.present instanceId
      (appended hub instanceId record false) (by rw [SortedMap.get?_insert, if_pos rfl])
    exact ⟨history, hget, htrims.subscribers⟩

/-- What a subscription does before it adds the subscriber: nothing when the records after the
cursor are replayed, and otherwise the publication of a snapshot. -/
def Prepared (hub : EventHub) (instanceId : String) (cursor : Option Cursor) (snapshot : String)
    (hub₁ : EventHub) : Prop :=
  (hub.replayed instanceId cursor ≠ none ∧ hub₁ = hub) ∨
    (hub.replayed instanceId cursor = none ∧ snapshot.utf8ByteSize ≤ maxEventBytes ∧
      Published hub instanceId (hub.record instanceId .snapshot snapshot) false hub₁)

theorem get?_of_replayed {cursor : Option Cursor} (h : hub.replayed instanceId cursor ≠ none) :
    ∃ history, hub.histories.get? instanceId = some history := by
  unfold EventHub.replayed at h
  cases cursor with
  | none => exact absurd rfl h
  | some cursor =>
    cases hget : hub.histories.get? instanceId with
    | some history => exact ⟨history, rfl⟩
    | none =>
      have hnot : hub.replayable instanceId cursor = false := by
        unfold EventHub.replayable
        rw [hget]
        split <;> rfl
      simp [hnot] at h

theorem subscribe_cases (h : Accounted hub) (instanceId : String) (cursor : Option Cursor)
    (snapshot : String) :
    (∃ refusal, hub.subscribe instanceId cursor snapshot = .ok (.error refusal, hub)) ∨
    hub.subscribe instanceId cursor snapshot = .error .overflow ∨
    ∃ hub₁ history, Prepared hub instanceId cursor snapshot hub₁ ∧
      Accounted hub₁ ∧ hub₁.histories.get? instanceId = some history ∧
      hub.subscribe instanceId cursor snapshot =
        .ok (.ok (hub₁.nextSubscriber + 1, history.initial (hub.replayed instanceId cursor)),
          hub₁.withSubscriber instanceId history) ∧
      Accounted (hub₁.withSubscriber instanceId history) := by
  unfold EventHub.subscribe
  by_cases hfull : globalSubscribers ≤ hub.subscriberCount ∨
      instanceSubscribers ≤ (hub.history instanceId).subscribers.card
  · rw [if_pos hfull]
    exact .inl ⟨_, rfl⟩
  rw [if_neg hfull]
  rw [not_or, not_le, not_le] at hfull
  dsimp only
  -- the subscriber is added after the snapshot, if there is one
  have hregister : ∀ hub₁ history, Accounted hub₁ → hub₁.histories.get? instanceId = some history →
      hub₁.subscriberCount = hub.subscriberCount →
      history.subscribers = (hub.history instanceId).subscribers →
        hub₁.register instanceId (hub.replayed instanceId cursor) = .error .overflow ∨
        (hub₁.register instanceId (hub.replayed instanceId cursor) =
            .ok ((hub₁.nextSubscriber + 1, history.initial (hub.replayed instanceId cursor)),
              hub₁.withSubscriber instanceId history) ∧
          Accounted (hub₁.withSubscriber instanceId history)) := by
    intro hub₁ history haccounted hget htotal hcount
    unfold EventHub.register
    rw [hget]
    dsimp only
    split
    · exact .inl rfl
    · refine .inr ⟨rfl, haccounted.withSubscriber hget ?_ ?_⟩
      · rw [htotal]
        exact hfull.1
      · rw [hcount]
        exact hfull.2
  cases hreplayed : hub.replayed instanceId cursor with
  | some sequence =>
    rw [hreplayed] at hregister
    obtain ⟨history, hget⟩ := get?_of_replayed (by rw [hreplayed]; simp)
    rw [if_pos (by simp)]
    dsimp only
    rcases hregister hub history h hget rfl (by rw [history_of_get? hget]) with hfault | ⟨hok, hafter⟩
    · rw [hfault]
      exact .inr (.inl rfl)
    · rw [hok]
      refine .inr (.inr ⟨hub, history, .inl ⟨by rw [hreplayed]; simp, rfl⟩, h, hget, rfl, hafter⟩)
  | none =>
    rw [hreplayed] at hregister
    rw [if_neg (by simp)]
    rcases publish_cases h instanceId .snapshot snapshot false with
      ⟨-, hlarge⟩ | hfault | ⟨hsmall, hub₁, hok, hpublished, haccounted⟩
    · rw [hlarge]
      exact .inl ⟨_, rfl⟩
    · rw [hfault]
      exact .inr (.inl rfl)
    · rw [hok]
      dsimp only
      obtain ⟨htotal, history, hget, hcount⟩ := hpublished.subscribers
      rcases hregister hub₁ history haccounted hget htotal hcount with hfault | ⟨hregistered, hafter⟩
      · rw [hfault]
        exact .inr (.inl rfl)
      · rw [hregistered]
        exact .inr (.inr ⟨hub₁, history, .inr ⟨hreplayed, hsmall, hpublished⟩, haccounted, hget,
          rfl, hafter⟩)

theorem accounted_unsubscribe (h : Accounted hub) (instanceId : String) (n : Nat) :
    Accounted (hub.unsubscribe instanceId n) := by
  unfold EventHub.unsubscribe
  cases hget : hub.histories.get? instanceId with
  | none => exact h
  | some history =>
    have hhistory := h.histories instanceId history hget
    have hcard : (history.subscribers.erase n).card ≤ history.subscribers.card :=
      Finset.card_erase_le
    have hinsert : ∀ f : History → Nat,
        (hub.histories.insert instanceId
          { history with subscribers := history.subscribers.erase n }).total f + f history =
        hub.histories.total f + f { history with subscribers := history.subscribers.erase n } := by
      intro f
      rw [← SortedMap.amount_of_get? hget f]
      exact SortedMap.total_insert hub.histories instanceId _ f
    constructor
    · intro i x hx
      rw [SortedMap.get?_insert] at hx
      split at hx
      · cases hx
        exact ⟨hhistory.bytes, hhistory.events, hhistory.limit,
          hcard.trans hhistory.subscribers, hhistory.consecutive⟩
      · exact h.histories i x hx
    · intro i x hx
      rw [SortedMap.get?_insert] at hx
      split at hx
      · cases hx
        exact h.orders instanceId history hget
      · exact h.orders i x hx
    · have hbytes : ((hub.histories.insert instanceId
            { history with subscribers := history.subscribers.erase n }).total
              fun h => size h.records) + size history.records =
          (hub.histories.total fun h => size h.records) + size history.records :=
        hinsert fun h => size h.records
      have hhub := h.bytes
      dsimp only
      omega
    · exact h.limit
    · have hsubscribers : ((hub.histories.insert instanceId
            { history with subscribers := history.subscribers.erase n }).total
              fun h => h.subscribers.card) + history.subscribers.card =
          (hub.histories.total fun h => h.subscribers.card) +
            (history.subscribers.erase n).card :=
        hinsert fun h => h.subscribers.card
      have hlimit := h.subscribers
      unfold EventHub.subscriberCount at hlimit ⊢
      dsimp only
      omega

/-- Closing an instance does not underflow. -/
theorem closeInstance_ok (h : Accounted hub) (instanceId : String) :
    ∃ hub', hub.closeInstance instanceId = .ok hub' ∧ Accounted hub' ∧
      hub' = { hub with histories := hub.histories.erase instanceId, bytes := hub'.bytes } := by
  unfold EventHub.closeInstance
  cases hget : hub.histories.get? instanceId with
  | none =>
    refine ⟨hub, rfl, h, ?_⟩
    have hsame : hub.histories.erase instanceId = hub.histories := by
      apply SortedMap.ext_get?
      intro i
      rw [SortedMap.get?_erase]
      split
      · next hi => rw [hi, hget]
      · rfl
    rw [hsame]
  | some history =>
    have hhistory := h.histories instanceId history hget
    have herase : ∀ f : History → Nat,
        (hub.histories.erase instanceId).total f + f history = hub.histories.total f := by
      intro f
      rw [← SortedMap.amount_of_get? hget f]
      exact SortedMap.total_erase hub.histories instanceId f
    have hbytes := herase fun h => size h.records
    have hhub := h.bytes
    have hcounter := hhistory.bytes
    dsimp only
    unfold subtract
    rw [if_pos (by omega)]
    refine ⟨_, rfl, ?_, rfl⟩
    constructor
    · intro i x hx
      rw [SortedMap.get?_erase] at hx
      split at hx
      · cases hx
      · exact h.histories i x hx
    · intro i x hx
      rw [SortedMap.get?_erase] at hx
      split at hx
      · cases hx
      · exact h.orders i x hx
    · dsimp only
      omega
    · have hlimit := h.limit
      dsimp only
      omega
    · have hsubscribers := herase fun h => h.subscribers.card
      have hlimit := h.subscribers
      unfold EventHub.subscriberCount at hlimit ⊢
      dsimp only
      omega

end Events

end MachineEmu
