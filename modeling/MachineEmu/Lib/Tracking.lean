import Mathlib.Data.List.Chain
import Mathlib.Data.Nat.Notation

/-!
# Tracking a log

A log is a list with increasing keys. A stream tracks it when each of its items is the one that
comes next in the log, or a fresh start that makes up for what was left out.

* `after` — the items of a log after a key.
* `Next`, `Tracks` — one step of a stream, and a whole stream.
* `UpToDate` — a stream that has everything.
* `Tracks.resume`, `Tracks.restart`, `Tracks.send` — what a stream may go on with.
* `Tracks.mem_or_fresh` — a stream that got past an item has it, or a fresh start after it.
-/

namespace Lib

open List

namespace Tracking

variable {α : Type*} (key : α → ℕ) (fresh : α → Prop)

/-- The items of a log after a key. -/
def after (log : List α) (n : ℕ) : List α := log.filter fun item => n < key item

/-- The item `b` may follow the item `a` in a stream. -/
def Next (log : List α) (a b : α) : Prop :=
  (fresh b ∧ key a < key b) ∨ (after key log (key a)).head? = some b

/-- A stream that begins with a fresh start and goes on without a gap. -/
structure Tracks (log stream : List α) : Prop where
  begins : ∀ item, stream.head? = some item → fresh item
  continues : stream.IsChain (Next key fresh log)

/-- Nothing in the log comes after the last item of the stream. -/
def UpToDate (log stream : List α) : Prop :=
  ∃ last, stream.getLast? = some last ∧ after key log (key last) = []

variable {key fresh} {log stream : List α}

/-! ## Items after a key -/

variable {item : α} {n : ℕ}

theorem mem_after : item ∈ after key log n ↔ item ∈ log ∧ n < key item := by
  simp [after]

theorem after_append (a b : List α) (n : ℕ) :
    after key (a ++ b) n = after key a n ++ after key b n := filter_append a b

theorem after_eq_nil (h : ∀ item ∈ log, key item ≤ n) : after key log n = [] := by
  simpa [after] using h

theorem after_concat (h : n < key item) :
    after key (log ++ [item]) n = after key log n ++ [item] := by
  rw [after_append]
  simp [after, h]

/-- The end of a log has what comes after a key, if it has every item after it. -/
theorem after_suffix {records : List α} (hsuffix : records <:+ log)
    (hlog : log.Pairwise fun a b => key a < key b)
    (h : ∀ item ∈ log, n < key item → item ∈ records) : after key records n = after key log n := by
  obtain ⟨dropped, rfl⟩ := hsuffix
  have hdropped : after key dropped n = [] := by
    apply after_eq_nil
    intro item hitem
    by_contra hlt
    have hmem := h item (mem_append_left _ hitem) (by omega)
    have hself := (pairwise_append.1 hlog).2.2 item hitem item hmem
    omega
  rw [after_append, hdropped, nil_append]

/-- What comes after a key is either nothing, or one item and what comes after that. -/
theorem after_eq_cons (hlog : log.Pairwise fun a b => key a < key b)
    {rest : List α} (h : after key log n = item :: rest) : after key log (key item) = rest := by
  have hsorted : (item :: rest).Pairwise fun a b => key a < key b := h ▸ hlog.filter _
  have hitem : n < key item := (mem_after.1 (h ▸ mem_cons_self)).2
  have htwice : after key log (key item) = after key (after key log n) (key item) := by
    unfold after
    rw [filter_filter]
    apply filter_congr
    intro other _
    simp only [← Bool.decide_and]
    exact decide_eq_decide.2 ⟨fun hlt => ⟨hlt, by omega⟩, And.left⟩
  rw [htwice, h]
  unfold after
  rw [filter_cons_of_neg (by simp), filter_eq_self]
  intro other hother
  exact decide_eq_true ((pairwise_cons.1 hsorted).1 other hother)

theorem Next.append {a b : α} (h : Next key fresh log a b) (items : List α) :
    Next key fresh (log ++ items) a b := by
  refine h.imp_right fun hhead => ?_
  rw [after_append, List.head?_append, hhead]
  rfl

/-! ## Streams -/

theorem Tracks.nil : Tracks key fresh log [] :=
  ⟨fun _ h => (nomatch h), isChain_nil⟩

theorem Tracks.append (h : Tracks key fresh log stream) (items : List α) :
    Tracks key fresh (log ++ items) stream :=
  ⟨h.begins, h.continues.imp fun _ _ hnext => hnext.append items⟩

theorem Tracks.of_front {front : List α} (h : Tracks key fresh log stream)
    (hfront : front <+: stream) : Tracks key fresh log front := by
  obtain ⟨rest, rfl⟩ := hfront
  constructor
  · intro item hitem
    apply h.begins
    rw [List.head?_append, hitem]
    rfl
  · exact (isChain_append.1 h.continues).1

variable {last : α}

/-- A stream goes on with one more item. -/
theorem Tracks.concat (h : Tracks key fresh log stream)
    (hlast : stream.getLast? = some last) (hnext : Next key fresh log last item) :
    Tracks key fresh log (stream ++ [item]) := by
  constructor
  · intro first hfirst
    apply h.begins
    cases stream with
    | nil => cases hlast
    | cons _ _ => exact hfirst
  · rw [isChain_append]
    refine ⟨h.continues, isChain_singleton item, fun a ha b hb => ?_⟩
    cases hlast.symm.trans ha
    cases hb
    exact hnext

/-- A stream that has everything goes on with the next item of the log, and has everything then. -/
theorem Tracks.send (h : Tracks key fresh log stream) (hdate : UpToDate key log stream)
    (hstream : ∀ other ∈ stream, key other < key item) :
    Tracks key fresh (log ++ [item]) (stream ++ [item]) ∧
      UpToDate key (log ++ [item]) (stream ++ [item]) := by
  obtain ⟨last, hlast, hnothing⟩ := hdate
  have hlt := hstream last (mem_of_getLast? hlast)
  constructor
  · refine (h.append [item]).concat hlast (.inr ?_)
    rw [after_concat hlt, hnothing]
    rfl
  · refine ⟨item, List.getLast?_concat, ?_⟩
    have hnone : after key log (key item) = [] := by
      apply after_eq_nil
      intro other hother
      by_contra hgt
      have hmem : other ∈ after key log (key last) := mem_after.2 ⟨hother, by omega⟩
      rw [hnothing] at hmem
      cases hmem
    rw [after_append, hnone]
    simp [after]

/-- A stream begins with a fresh start after which there is nothing. -/
theorem Tracks.restart (hfresh : fresh item) (hlog : ∀ other ∈ log, key other ≤ key item) :
    Tracks key fresh log [item] ∧ UpToDate key log [item] := by
  refine ⟨⟨?_, isChain_singleton item⟩, item, rfl, after_eq_nil hlog⟩
  intro first hfirst
  cases hfirst
  exact hfresh

/-- What comes after an item of a log follows it without a gap, up to the end. -/
theorem tracks_after (hlog : log.Pairwise fun a b => key a < key b) (last : α) :
    (last :: after key log (key last)).IsChain (Next key fresh log) ∧
      UpToDate key log (last :: after key log (key last)) := by
  generalize hrest : after key log (key last) = rest
  induction rest generalizing last with
  | nil => exact ⟨isChain_singleton last, last, rfl, hrest⟩
  | cons item rest ih =>
    obtain ⟨hchain, final, hfinal, hnothing⟩ := ih item (after_eq_cons hlog hrest)
    constructor
    · refine isChain_cons_cons.2 ⟨.inr ?_, hchain⟩
      rw [hrest]
      rfl
    · refine ⟨final, ?_, hnothing⟩
      rw [List.getLast?_cons_cons]
      exact hfinal

/-- A stream goes on with all that comes after its last item. -/
theorem Tracks.resume (h : Tracks key fresh log stream)
    (hlog : log.Pairwise fun a b => key a < key b) (hlast : stream.getLast? = some last) :
    Tracks key fresh log (stream ++ after key log (key last)) ∧
      UpToDate key log (stream ++ after key log (key last)) := by
  obtain ⟨front, rfl⟩ := List.getLast?_eq_some_iff.1 hlast
  obtain ⟨hchain, final, hfinal, hnothing⟩ := @tracks_after _ key fresh log hlog last
  rw [append_assoc]
  refine ⟨⟨?_, ?_⟩, final, ?_, hnothing⟩
  · intro first hfirst
    apply h.begins
    rw [List.head?_append] at hfirst ⊢
    exact hfirst
  · rw [singleton_append, isChain_split]
    exact ⟨h.continues, hchain⟩
  · rw [List.getLast?_append, singleton_append, hfinal]
    rfl

/-- From one item on, a stream that got past a later item of the log has it, or a fresh start after
it. -/
theorem mem_or_fresh {first : α} {rest : List α}
    (hchain : (first :: rest).IsChain (Next key fresh log))
    (hlog : log.Pairwise fun a b => key a < key b) (hitem : item ∈ log)
    (hfirst : key first < key item) (hlast : (first :: rest).getLast? = some last)
    (hpast : key item ≤ key last) :
    item ∈ rest ∨ ∃ start ∈ rest, fresh start ∧ key item ≤ key start := by
  induction rest generalizing first with
  | nil =>
    cases (Option.some.inj hlast : first = last)
    omega
  | cons second rest ih =>
    obtain ⟨hnext, hchain⟩ := isChain_cons_cons.1 hchain
    rw [List.getLast?_cons_cons] at hlast
    by_cases hsecond : key second < key item
    · refine (ih hchain hsecond hlast).imp (mem_cons_of_mem _) ?_
      rintro ⟨start, hstart, hkey⟩
      exact ⟨start, mem_cons_of_mem _ hstart, hkey⟩
    · rcases hnext with ⟨hfresh, -⟩ | hhead
      · exact .inr ⟨second, mem_cons_self, hfresh, by omega⟩
      · obtain ⟨others, hafter⟩ := List.head?_eq_some_iff.1 hhead
        have hmem : item ∈ second :: others := hafter ▸ mem_after.2 ⟨hitem, hfirst⟩
        rcases mem_cons.1 hmem with rfl | hothers
        · exact .inl mem_cons_self
        · have hsorted : (second :: others).Pairwise fun a b => key a < key b :=
            hafter ▸ hlog.filter _
          have hlater := (pairwise_cons.1 hsorted).1 item hothers
          exact absurd hlater hsecond

/-- A stream that got past an item of the log has it, or a fresh start after it. -/
theorem Tracks.mem_or_fresh (h : Tracks key fresh log stream)
    (hlog : log.Pairwise fun a b => key a < key b) (hitem : item ∈ log)
    (hlast : stream.getLast? = some last) (hpast : key item ≤ key last) :
    item ∈ stream ∨ ∃ start ∈ stream, fresh start ∧ key item ≤ key start := by
  cases stream with
  | nil => cases hlast
  | cons first rest =>
    by_cases hfirst : key first < key item
    · refine (Tracking.mem_or_fresh h.continues hlog hitem hfirst hlast hpast).imp
        (mem_cons_of_mem _) ?_
      rintro ⟨start, hstart, hkey⟩
      exact ⟨start, mem_cons_of_mem _ hstart, hkey⟩
    · exact .inr ⟨first, mem_cons_self, h.begins first rfl, by omega⟩

end Tracking

end Lib
