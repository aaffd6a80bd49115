import Mathlib.Data.List.Basic

/-!
# Variables that hold a resource

A variable holds at most one resource. A resource that is assigned over is still open, and nothing
holds it.

* `Slot.assign`, `Slot.close` — a resource is put into the variable, and the one in it is closed.
* `Slot.lose` — a resource closes by itself.
* `Slot.Tight` — nothing is open but what the variable holds.
-/

namespace Lib

/-- A variable for a resource, and the resources that are open. -/
structure Slot where
  held : Option Nat := none
  live : List Nat := []

namespace Slot

/-- A new resource is put into the variable. -/
def assign (s : Slot) (resource : Nat) : Slot :=
  { held := some resource, live := s.live ++ [resource] }

/-- The resource in the variable is closed, and the variable is empty. -/
def close (s : Slot) : Slot := { held := none, live := s.live.filter fun r => s.held ≠ some r }

/-- A resource closes by itself; the variable is as before. -/
def lose (s : Slot) (resource : Nat) : Slot :=
  { s with live := s.live.filter fun r => r ≠ resource }

/-- Nothing is open but what the variable holds. -/
def Tight (s : Slot) : Prop := s.live.Sublist s.held.toList

variable {s : Slot}

theorem tight_empty : Tight {} := List.Sublist.refl _

theorem Tight.assign (hempty : s.live = []) (resource : Nat) : (s.assign resource).Tight := by
  simp [Tight, Slot.assign, hempty]

theorem Tight.live_close (h : s.Tight) : s.close.live = [] := by
  refine List.filter_eq_nil_iff.2 fun r hr => ?_
  have := h.mem hr
  simpa using this

theorem Tight.close (h : s.Tight) : s.close.Tight := by
  unfold Tight
  rw [h.live_close]
  exact List.nil_sublist _

theorem Tight.lose (h : s.Tight) (resource : Nat) : (s.lose resource).Tight :=
  List.filter_sublist.trans h

/-- Where the only open resource closes by itself, none is open. -/
theorem Tight.live_lose (h : s.Tight) {resource : Nat} (hlive : resource ∈ s.live) :
    (s.lose resource).live = [] := by
  refine List.filter_eq_nil_iff.2 fun r hr => ?_
  have hresource := h.mem hlive
  have hr := h.mem hr
  rw [Option.mem_toList] at hresource hr
  simpa using Option.some.inj (hr.symm.trans hresource)

theorem Tight.length_le (h : s.Tight) : s.live.length ≤ 1 :=
  Nat.le_trans (List.Sublist.length_le h) (by cases s.held <;> simp)

theorem Tight.live_eq_nil (h : s.Tight) (hheld : s.held = none) : s.live = [] := by
  unfold Tight at h
  rw [hheld] at h
  exact List.sublist_nil.1 h

end Slot

end Lib
