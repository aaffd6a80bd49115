import Mathlib.Data.List.Basic
import Mathlib.Data.List.Induction
import Mathlib.Tactic.TypeStar

/-!
# Queues whose last element may be replaced

A queue with a limit, where an element takes the place of the one before it when both are of the
kind that merges. Elements are numbered in the order in which they are accepted.

* `Merging.push` — one more element.
* `Merging.run` — a history of pushes and pops.
* `Merging.Replaced` — the elements that another one has replaced.
* `Merging.taken_append_queue` — what was taken and what is queued are the accepted elements that
  none has replaced, in their order.
-/

namespace Lib.Merging

open List

variable {α : Type*}

section Definitions

variable (merges : α → Bool) (limit : Nat)

/-- The queue without the element that the new one replaces. -/
def room (queue : List α) (value : α) : List α :=
  if merges value && queue.getLast?.any merges then queue.dropLast else queue

/-- The queue with one more element, and whether it was accepted. -/
def push (queue : List α) (value : α) : Bool × List α :=
  if limit ≤ (room merges queue value).length then (false, room merges queue value)
  else (true, room merges queue value ++ [value])

/-- What happens to a queue. -/
inductive Op (α : Type*) where
  | push (value : α)
  | pop

/-- A queue of numbered elements, those that were accepted, and those that were taken. -/
structure History (α : Type*) where
  queue : List (α × Nat) := []
  accepted : List α := []
  taken : List (α × Nat) := []

/-- The next operation. -/
def step (h : History α) : Op α → History α
  | .push value =>
    match push (fun m => merges m.1) limit h.queue (value, h.accepted.length) with
    | (true, queue) => { h with queue, accepted := h.accepted ++ [value] }
    | (false, queue) => { h with queue }
  | .pop =>
    match h.queue with
    | [] => h
    | m :: rest => { h with queue := rest, taken := h.taken ++ [m] }

/-- A history of operations. -/
def run (ops : List (Op α)) : History α := ops.foldl (step merges limit) {}

/-- An element that merges, still in the queue when the next accepted one, which merges as well, is
pushed. -/
def Replaced (ops : List (Op α)) (n : Nat) : Prop :=
  ∃ front value back last, ops = front ++ .push value :: back ∧ merges value = true ∧
    merges last = true ∧ (last, n) ∈ (run merges limit front).queue ∧
      (run merges limit front).accepted.length = n + 1 ∧
        (run merges limit (front ++ [.push value])).accepted.length = n + 2

open Classical in
/-- The accepted elements that none has replaced, with their numbers. -/
noncomputable def kept (ops : List (Op α)) : List (α × Nat) :=
  (run merges limit ops).accepted.zipIdx.filter fun m => ¬Replaced merges limit ops m.2

end Definitions

variable {merges : α → Bool} {limit : Nat}

/-! ## One push -/

variable (merges limit) in
theorem push_map {β : Type*} (f : β → α) (queue : List β) (value : β) :
    push merges limit (queue.map f) (f value) =
      ((push (fun b => merges (f b)) limit queue value).1,
        (push (fun b => merges (f b)) limit queue value).2.map f) := by
  have hroom : room merges (queue.map f) (f value) =
      (room (fun b => merges (f b)) queue value).map f := by
    simp only [room, List.getLast?_map, Option.any_map]
    split <;> simp
  simp only [push, hroom, length_map]
  split <;> simp

theorem length_room_le (queue : List α) (value : α) :
    (room merges queue value).length ≤ queue.length := by
  unfold room
  split
  · simp
  · exact Nat.le_refl _

/-- A refused element leaves the queue as it was. -/
theorem push_refused {queue queue' : List α} {value : α} (hlimit : queue.length ≤ limit)
    (hpos : 0 < limit) (h : push merges limit queue value = (false, queue')) : queue' = queue := by
  unfold push at h
  split at h
  · next hfull =>
    obtain rfl := (Prod.mk.inj h).2
    unfold room at hfull ⊢
    split at hfull
    · rw [length_dropLast] at hfull
      omega
    · next hmerge => rw [if_neg hmerge]
  · cases h

variable (merges limit) in
theorem length_push_le (queue : List α) (value : α) (h : queue.length ≤ limit) :
    (push merges limit queue value).2.length ≤ limit := by
  unfold push
  split
  · exact Nat.le_trans (length_room_le queue value) h
  · next hroom =>
    rw [length_append, length_singleton]
    omega

/-- An accepted element is the last one, behind all others or all but the one that it replaces. -/
theorem push_accepted {queue queue' : List α} {value : α}
    (h : push merges limit queue value = (true, queue')) :
    (queue' = queue ++ [value] ∧ (merges value = true → ∀ last, queue.getLast? = some last →
        merges last = false)) ∨
      ∃ front last, queue = front ++ [last] ∧ merges last = true ∧ merges value = true ∧
        queue' = front ++ [value] := by
  unfold push at h
  split at h
  · cases h
  · obtain rfl := (Prod.mk.inj h).2
    unfold room
    split
    · next hmerge =>
      obtain ⟨hvalue, hlast⟩ := Bool.and_eq_true_iff.1 hmerge
      obtain ⟨last, hlast, hmerges⟩ := (Option.any_eq_true ..).1 hlast
      obtain ⟨front, rfl⟩ := List.getLast?_eq_some_iff.1 hlast
      exact .inr ⟨front, last, rfl, hmerges, hvalue, by simp⟩
    · next hmerge =>
      refine .inl ⟨rfl, fun hvalue last hlast => ?_⟩
      simpa [hvalue, hlast] using hmerge

/-! ## Histories -/

@[simp] theorem run_append (front back : List (Op α)) :
    run merges limit (front ++ back) = back.foldl (step merges limit) (run merges limit front) :=
  foldl_append

variable (merges limit) in
theorem run_concat (front : List (Op α)) (op : Op α) :
    run merges limit (front ++ [op]) = step merges limit (run merges limit front) op := by
  simp

variable (merges limit) in
theorem accepted_step (h : History α) (op : Op α) :
    (step merges limit h op).accepted = h.accepted ∨
      ∃ value, op = .push value ∧ (step merges limit h op).accepted = h.accepted ++ [value] := by
  cases op with
  | push value =>
    simp only [step]
    split
    · exact .inr ⟨value, rfl, rfl⟩
    · exact .inl rfl
  | pop =>
    simp only [step]
    split <;> exact .inl rfl

variable (merges limit) in
theorem length_accepted_le (front back : List (Op α)) :
    (run merges limit front).accepted.length ≤
      (run merges limit (front ++ back)).accepted.length := by
  induction back using List.reverseRecOn with
  | nil => simp
  | append_singleton back op ih =>
    rw [← append_assoc, run_concat]
    rcases accepted_step merges limit
      (run merges limit (front ++ back)) op with h | ⟨value, -, h⟩ <;> rw [h]
    · exact ih
    · rw [length_append]
      omega

/-- The queue of a history is the queue without numbers. -/
theorem length_queue_le (ops : List (Op α)) : (run merges limit ops).queue.length ≤ limit := by
  induction ops using List.reverseRecOn with
  | nil => exact Nat.zero_le _
  | append_singleton ops op ih =>
    rw [run_concat]
    cases op with
    | push value =>
      have := length_push_le (fun m => merges m.1) limit
        (run merges limit ops).queue (value, (run merges limit ops).accepted.length) ih
      simp only [step]
      split <;> next heq => simpa [heq] using this
    | pop =>
      simp only [step]
      split
      · exact ih
      · next heq =>
        rw [heq] at ih
        exact Nat.le_trans (Nat.le_succ _) ih

/-- After one more operation the replaced elements are those before it, and the one that it
replaces. -/
theorem replaced_concat (ops : List (Op α)) (op : Op α) (n : Nat) :
    Replaced merges limit (ops ++ [op]) n ↔ Replaced merges limit ops n ∨
      ∃ value last, op = .push value ∧ merges value = true ∧ merges last = true ∧
        (last, n) ∈ (run merges limit ops).queue ∧
          (run merges limit ops).accepted.length = n + 1 ∧
            (run merges limit (ops ++ [op])).accepted.length = n + 2 := by
  constructor
  · rintro ⟨front, value, back, last, heq, hvalue, hlast, hqueue, hlength, hnext⟩
    rcases eq_nil_or_concat back with rfl | ⟨back, op', rfl⟩
    · obtain ⟨rfl, hop⟩ := append_inj' heq rfl
      obtain rfl := (List.cons.inj hop).1
      exact .inr ⟨value, last, rfl, hvalue, hlast, hqueue, hlength, hnext⟩
    · rw [concat_eq_append, ← cons_append, ← append_assoc] at heq
      obtain ⟨rfl, -⟩ := append_inj' heq rfl
      exact .inl ⟨front, value, back, last, rfl, hvalue, hlast, hqueue, hlength, hnext⟩
  · rintro (⟨front, value, back, last, rfl, h⟩ | ⟨value, last, rfl, h⟩)
    · exact ⟨front, value, back ++ [op], last, by simp, h⟩
    · exact ⟨ops, value, [], last, rfl, h⟩

variable {ops : List (Op α)}

/-- Only elements that were accepted before the last one are replaced. -/
theorem lt_of_replaced {n : Nat} (h : Replaced merges limit ops n) :
    n + 1 < (run merges limit ops).accepted.length := by
  obtain ⟨front, value, back, last, rfl, -, -, -, -, hnext⟩ := h
  have := length_accepted_le merges limit (front ++ [.push value]) back
  rw [hnext, append_assoc] at this
  exact this

/-! ## What was taken -/

variable (merges limit) in
theorem pairwise_kept (ops : List (Op α)) :
    (kept merges limit ops).Pairwise fun a b => a.2 < b.2 := by
  refine List.Pairwise.filter _ ?_
  rw [← pairwise_map (f := Prod.snd) (R := (· < ·)), zipIdx_map_snd]
  exact pairwise_lt_range'

theorem kept_congr {op : Op α}
    (haccepted : (run merges limit (ops ++ [op])).accepted = (run merges limit ops).accepted) :
    kept merges limit (ops ++ [op]) = kept merges limit ops := by
  unfold kept
  rw [haccepted]
  refine filter_congr fun m _ => ?_
  have hsame : Replaced merges limit (ops ++ [op]) m.2 ↔ Replaced merges limit ops m.2 := by
    rw [replaced_concat, haccepted]
    refine ⟨?_, .inl⟩
    rintro (h | ⟨_, _, -, -, -, -, hlength, hnext⟩)
    · exact h
    · omega
  exact decide_eq_decide.2 (not_congr hsame)

/-- One more accepted element is kept behind those that are not replaced now. -/
theorem kept_push {value : α} (haccepted : (run merges limit (ops ++ [.push value])).accepted =
      (run merges limit ops).accepted ++ [value]) {replaced : Nat → Prop} [DecidablePred replaced]
    (hreplaced : ∀ n, Replaced merges limit (ops ++ [.push value]) n ↔
      Replaced merges limit ops n ∨ replaced n) :
    kept merges limit (ops ++ [.push value]) =
      ((kept merges limit ops).filter fun m => ¬replaced m.2) ++
        [(value, (run merges limit ops).accepted.length)] := by
  have hlast : ¬Replaced merges limit (ops ++ [.push value])
      (run merges limit ops).accepted.length := by
    intro h
    have := lt_of_replaced h
    rw [haccepted, length_append, length_singleton] at this
    omega
  unfold kept
  rw [haccepted, zipIdx_append, filter_append, filter_filter]
  congr 1
  · classical
    refine filter_congr fun m _ => ?_
    rw [Bool.eq_iff_iff, Bool.and_eq_true, decide_eq_true_iff, decide_eq_true_iff,
      decide_eq_true_iff, hreplaced, not_or, and_comm]
  · simp [hlast]

/-- What was taken and what is queued; the number of the last queued one. -/
def Lawful (merges : α → Bool) (limit : Nat) (ops : List (Op α)) : Prop :=
  (run merges limit ops).taken ++ (run merges limit ops).queue = kept merges limit ops ∧
    ∀ m, (run merges limit ops).queue.getLast? = some m →
      m.2 + 1 = (run merges limit ops).accepted.length

theorem eq_getLast (h : Lawful merges limit ops) {last : α} {n : Nat}
    (hmem : (last, n) ∈ (run merges limit ops).queue)
    (hn : (run merges limit ops).accepted.length = n + 1) :
    (run merges limit ops).queue.getLast? = some (last, n) := by
  obtain ⟨front, m, hqueue⟩ :=
    (eq_nil_or_concat' _).resolve_left (ne_nil_of_mem hmem)
  have hm := h.2 m (by rw [hqueue, List.getLast?_concat])
  rw [hqueue, List.getLast?_concat]
  rw [hqueue, mem_append, mem_singleton] at hmem
  rcases hmem with hmem | rfl
  · have hpairwise := pairwise_kept merges limit ops
    rw [← h.1, hqueue, ← append_assoc] at hpairwise
    have hlt := (pairwise_append.1 hpairwise).2.2 (last, n)
      (mem_append_right _ hmem) m mem_cons_self
    have : n < m.2 := hlt
    omega
  · rfl

theorem lawful_pop (h : Lawful merges limit ops) : Lawful merges limit (ops ++ [.pop]) := by
  have haccepted : (run merges limit (ops ++ [.pop])).accepted =
      (run merges limit ops).accepted := by
    rw [run_concat]
    simp only [step]
    split <;> rfl
  refine ⟨?_, fun m hm => ?_⟩
  · rw [kept_congr haccepted, ← h.1, run_concat]
    simp only [step]
    split
    · rfl
    · next heq => simp [heq]
  · rw [haccepted]
    refine h.2 m ?_
    rw [run_concat] at hm
    simp only [step] at hm
    split at hm
    · exact hm
    · next first rest heq =>
      rw [heq, List.getLast?_cons, Option.some_inj]
      simp [show rest.getLast? = some m from hm]

theorem lawful_push (hpos : 0 < limit) (h : Lawful merges limit ops)
    (value : α) : Lawful merges limit (ops ++ [.push value]) := by
  have hrun := run_concat merges limit ops (.push value)
  simp only [step] at hrun
  split at hrun
  · next queue hpush =>
    have haccepted : (run merges limit (ops ++ [.push value])).accepted =
        (run merges limit ops).accepted ++ [value] := by rw [hrun]
    have hlength : (run merges limit (ops ++ [.push value])).accepted.length =
        (run merges limit ops).accepted.length + 1 := by rw [haccepted]; simp
    rcases push_accepted hpush with ⟨rfl, hapart⟩ | ⟨front, last, hqueue, hlast, hvalue, rfl⟩
    · -- the element before it, if it is still queued, does not merge with it
      have hreplaced : ∀ n, Replaced merges limit (ops ++ [.push value]) n ↔
          Replaced merges limit ops n ∨ False := by
        intro n
        rw [replaced_concat]
        refine or_congr Iff.rfl ⟨?_, False.elim⟩
        rintro ⟨value', last, heq, hvalue, hlast, hmem, hn, -⟩
        cases heq
        rw [eq_getLast h hmem hn] at hapart
        exact Bool.noConfusion ((hapart hvalue _ rfl).symm.trans hlast)
      refine ⟨?_, fun m hm => ?_⟩
      · rw [kept_push haccepted hreplaced, ← h.1, hrun]
        simp
      · rw [hrun] at hm ⊢
        simp only [List.getLast?_append, List.getLast?_singleton, Option.some_or] at hm
        obtain rfl := Option.some.inj hm
        simp
    · -- the element before it is the one with the number before
      have hnumber : last.2 + 1 = (run merges limit ops).accepted.length :=
        h.2 last (by rw [hqueue, List.getLast?_concat])
      have hreplaced : ∀ n, Replaced merges limit (ops ++ [.push value]) n ↔
          Replaced merges limit ops n ∨ n = last.2 := by
        intro n
        rw [replaced_concat]
        refine or_congr Iff.rfl ⟨?_, ?_⟩
        · rintro ⟨_, _, -, -, -, -, hn, -⟩
          omega
        · rintro rfl
          refine ⟨value, last.1, rfl, hvalue, hlast, ?_, hnumber.symm, by omega⟩
          rw [hqueue]
          exact mem_append_right _ mem_cons_self
      refine ⟨?_, fun m hm => ?_⟩
      · have hkept : kept merges limit ops =
            (run merges limit ops).taken ++ front ++ [last] := by
          rw [← h.1, hqueue, append_assoc]
        have hbefore : ∀ m ∈ (run merges limit ops).taken ++ front, m.2 < last.2 := by
          intro m hm
          have hpairwise := pairwise_kept merges limit ops
          rw [hkept] at hpairwise
          exact (pairwise_append.1 hpairwise).2.2 m hm last mem_cons_self
        rw [kept_push haccepted hreplaced, hkept, filter_append, hrun]
        rw [filter_eq_self.2 fun m hm => by simpa using Nat.ne_of_lt (hbefore m hm)]
        simp
      · rw [hrun] at hm ⊢
        rw [List.getLast?_concat] at hm
        obtain rfl := Option.some.inj hm
        simp
  · next queue hpush =>
    obtain rfl := push_refused (length_queue_le ops) hpos hpush
    have haccepted : (run merges limit (ops ++ [.push value])).accepted =
        (run merges limit ops).accepted := by rw [hrun]
    refine ⟨?_, fun m hm => ?_⟩
    · rw [kept_congr haccepted, ← h.1, hrun]
    · rw [haccepted]
      rw [hrun] at hm
      exact h.2 m hm

/-- The elements that were taken, and then those in the queue, are the accepted ones without those
that were replaced. -/
theorem taken_append_queue (hpos : 0 < limit) (ops : List (Op α)) :
    (run merges limit ops).taken ++ (run merges limit ops).queue = kept merges limit ops := by
  suffices h : Lawful merges limit ops from h.1
  induction ops using List.reverseRecOn with
  | nil => exact ⟨rfl, nofun⟩
  | append_singleton ops op ih =>
    cases op with
    | push value => exact lawful_push hpos ih value
    | pop => exact lawful_pop ih

end Lib.Merging
