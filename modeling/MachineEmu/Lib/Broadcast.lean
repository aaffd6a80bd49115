import Mathlib.Data.List.Basic
import Mathlib.Data.List.Infix

/-!
# Broadcast channels

A channel that keeps the last values that were sent. Each receiver has a position of its own; one
that has fallen behind what is kept is told so.

* `recv` — what a receiver finds at its position.
* `lastOf` — the last value of a kind.
-/

namespace Lib

namespace Broadcast

variable {α : Type}

/-- What a receiver finds: nothing new, that it has fallen behind, or a value. -/
inductive Received (α : Type) where
  | empty
  | lagged
  | value (a : α)

/-- Receive at position `next` of a channel that keeps `capacity` values, out of all that were
sent. -/
def recv (capacity : Nat) (log : List α) (next : Nat) : Received α :=
  match log[next]? with
  | none => .empty
  | some a => if capacity < log.length - next then .lagged else .value a

theorem drop_of_value {capacity next : Nat} {log : List α} {a : α}
    (h : recv capacity log next = .value a) : log.drop next = a :: log.drop (next + 1) := by
  unfold recv at h
  split at h
  · cases h
  · next a' hnext =>
    split at h
    · cases h
    · cases h
      obtain ⟨hlength, rfl⟩ := List.getElem?_eq_some_iff.1 hnext
      exact List.drop_eq_getElem_cons hlength

theorem drop_of_empty {capacity next : Nat} {log : List α}
    (h : recv capacity log next = .empty) : log.drop next = [] := by
  unfold recv at h
  split at h
  · next hnone => exact List.drop_eq_nil_of_le (List.getElem?_eq_none_iff.1 hnone)
  · split at h <;> cases h

/-- The last value of a kind. -/
def lastOf (kind : α → Bool) (l : List α) : Option α := (l.filter kind).getLast?

theorem lastOf_append (kind : α → Bool) (l l' : List α) :
    lastOf kind (l ++ l') = (lastOf kind l').or (lastOf kind l) := by
  rw [lastOf, List.filter_append, List.getLast?_append]
  rfl

theorem lastOf_singleton (kind : α → Bool) (a : α) :
    lastOf kind [a] = if kind a then some a else none := by
  unfold lastOf
  rw [List.filter_singleton]
  cases kind a <;> rfl

end Broadcast

end Lib
