import Mathlib.Data.List.Basic
import Mathlib.Data.List.Nodup

/-!
# Keys that are pressed and released

A log says which keys were pressed and released, one after the other. Who writes it keeps the keys
that are down.

* `Presses.down` — whether a log leaves a key down.
* `Presses.Matched` — a log that releases no key that is up.
* `Presses.Tracks` — the keys that are kept are those that are down.
* `Tracks.press`, `Tracks.release`, `Tracks.releaseAll` — what keeps it so.
-/

namespace Lib.Presses

open List

variable {κ : Type} [DecidableEq κ] {log : List (κ × Bool)} {held order : List κ} {key : κ}

/-- Whether a log leaves a key down; a key is up at first. -/
def down (log : List (κ × Bool)) (key : κ) : Bool :=
  log.foldl (fun before press => if press.1 = key then press.2 else before) false

@[simp] theorem down_nil (key : κ) : down [] key = false := rfl

@[simp] theorem down_concat (log : List (κ × Bool)) (pressed key : κ) (isDown : Bool) :
    down (log ++ [(pressed, isDown)]) key = if pressed = key then isDown else down log key := by
  simp [down]

/-- No key is released that is up. -/
def Matched (log : List (κ × Bool)) : Prop :=
  ∀ front back key, log = front ++ (key, false) :: back → down front key = true

theorem matched_nil : Matched ([] : List (κ × Bool)) := by
  intro front back key h
  simp at h

theorem Matched.concat (h : Matched log) {isDown : Bool}
    (hkey : isDown = false → down log key = true) : Matched (log ++ [(key, isDown)]) := by
  intro front back released heq
  rcases eq_nil_or_concat back with rfl | ⟨back, last, rfl⟩
  · obtain ⟨hlog, hlast⟩ := append_inj' heq rfl
    cases hlast
    exact hlog ▸ hkey rfl
  · have hshape : log ++ [(key, isDown)] = front ++ (released, false) :: back ++ [last] := by
      rw [heq]
      simp
    exact h front back released (append_inj' hshape rfl).1

/-- The keys that are kept are those that the log leaves down. -/
structure Tracks (log : List (κ × Bool)) (held : List κ) : Prop where
  nodup : held.Nodup
  same : ∀ key, down log key = true ↔ key ∈ held
  matched : Matched log

theorem tracks_nil : Tracks ([] : List (κ × Bool)) [] :=
  ⟨nodup_nil, by simp, matched_nil⟩

/-- A key is pressed, down or not. -/
theorem Tracks.press (h : Tracks log held) (key : κ) :
    Tracks (log ++ [(key, true)]) (held.insert key) where
  nodup := h.nodup.insert
  same other := by
    rw [down_concat, mem_insert_iff]
    by_cases heq : key = other
    · simp [heq]
    · rw [if_neg heq, h.same]
      simp [Ne.symm heq]
  matched := h.matched.concat nofun

theorem Tracks.release (h : Tracks log held) (hkey : key ∈ held) :
    Tracks (log ++ [(key, false)]) (held.erase key) where
  nodup := h.nodup.erase key
  same other := by
    rw [down_concat, h.nodup.mem_erase_iff]
    by_cases heq : key = other
    · simp [heq]
    · rw [if_neg heq, h.same]
      simp [Ne.symm heq]
  matched := h.matched.concat fun _ => (h.same key).2 hkey

/-- All keys that are down are released, in any order. -/
theorem Tracks.releaseAll (h : Tracks log held) (horder : order.Perm held) :
    Tracks (log ++ order.map fun key => (key, false)) [] := by
  induction order generalizing log held with
  | nil =>
    rw [map_nil, append_nil]
    rwa [nil_perm.1 horder] at h
  | cons key order ih =>
    have hkey : key ∈ held := horder.subset mem_cons_self
    have hrest : order.Perm (held.erase key) := by
      have := horder.erase key
      rwa [erase_cons_head] at this
    have hall := ih (h.release hkey) hrest
    rwa [append_assoc] at hall

end Lib.Presses
