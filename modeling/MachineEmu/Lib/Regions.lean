import MachineEmu.Lib.Bytes

/-!
# Regions of a file

A file of blanks in which some regions that do not meet are written.

* `Filled` — the regions are written and the rest is blank.
* `Filled.write` — one more region; `Filled.unique` — the regions say what the file is.
-/

namespace Lib

open List

variable {α : Type} {blank : α} {n : ℕ}

/-- Some bytes and their place. -/
structure Region (α : Type) where
  start : ℕ
  bytes : List α

namespace Region

def stop (r : Region α) : ℕ := r.start + r.bytes.length

def Covers (r : Region α) (p : ℕ) : Prop := r.start ≤ p ∧ p < r.stop

/-- The regions do not meet. -/
def Apart (r s : Region α) : Prop := r.stop ≤ s.start ∨ s.stop ≤ r.start

theorem Apart.not_covers {r s : Region α} (h : r.Apart s) {p : ℕ} (hp : r.Covers p) :
    ¬ s.Covers p := by
  rintro ⟨hlow, hhigh⟩
  obtain ⟨hrlow, hrhigh⟩ := hp
  rcases h with h | h <;> omega

end Region

/-- A file of this length in which the regions are written and the rest is blank. -/
structure Filled (blank : α) (n : ℕ) (regions : List (Region α)) (out : List α) : Prop where
  length : out.length = n
  inside : ∀ r ∈ regions, ∀ p, r.Covers p → out[p]? = r.bytes[p - r.start]?
  outside : ∀ p < n, (∀ r ∈ regions, ¬ r.Covers p) → out[p]? = some blank

variable {regions : List (Region α)} {out out' : List α}

theorem filled_nil : Filled blank n [] (List.replicate n blank) :=
  ⟨length_replicate, by simp, fun p hp _ => List.getElem?_replicate_of_lt hp⟩

theorem Filled.write (h : Filled blank n regions out) {r : Region α} (hroom : r.stop ≤ n)
    (hapart : ∀ s ∈ regions, r.Apart s) :
    Filled blank n (r :: regions) (splice out r.start r.bytes) := by
  have hroom' : r.start + r.bytes.length ≤ out.length := h.length.symm ▸ hroom
  refine ⟨(length_splice hroom').trans h.length, fun s hs p hp => ?_, fun p hp hfree => ?_⟩
  · rw [getElem?_splice hroom']
    rcases mem_cons.1 hs with rfl | hs
    · exact if_pos hp
    · exact (if_neg fun hr => (hapart s hs).not_covers hr hp).trans (h.inside s hs p hp)
  · rw [forall_mem_cons] at hfree
    exact (getElem?_splice hroom' p).trans ((if_neg hfree.1).trans (h.outside p hp hfree.2))

/-- What is not written is blank. -/
theorem Filled.slice_blank (h : Filled blank n regions out) {start m : ℕ} (hroom : start + m ≤ n)
    (hapart : ∀ s ∈ regions, start + m ≤ s.start ∨ s.stop ≤ start) :
    slice out start m = List.replicate m blank := by
  refine ext_getElem? fun i => ?_
  rw [getElem?_slice, List.getElem?_replicate]
  split
  · next hi =>
    refine h.outside (start + i) (by omega) fun s hs hcovers => ?_
    obtain ⟨hlow, hhigh⟩ := hcovers
    have := hapart s hs
    omega
  · rfl

/-- A region is read back. -/
theorem Filled.slice_region (h : Filled blank n regions out) {r : Region α} (hr : r ∈ regions) :
    slice out r.start r.bytes.length = r.bytes := by
  refine ext_getElem? fun i => ?_
  rw [getElem?_slice]
  split
  · next hi =>
    rw [h.inside r hr (r.start + i) ⟨Nat.le_add_right _ _, Nat.add_lt_add_left hi _⟩,
      Nat.add_sub_cancel_left]
  · next hi => exact (List.getElem?_eq_none (Nat.le_of_not_lt hi)).symm

/-- The regions say what the file is. -/
theorem Filled.unique (h : Filled blank n regions out) (h' : Filled blank n regions out') :
    out = out' := by
  refine ext_getElem? fun p => ?_
  by_cases hp : p < n
  · by_cases hfree : ∀ r ∈ regions, ¬ r.Covers p
    · rw [h.outside p hp hfree, h'.outside p hp hfree]
    · obtain ⟨r, hr, hcovers⟩ : ∃ r ∈ regions, r.Covers p := by simpa using hfree
      rw [h.inside r hr p hcovers, h'.inside r hr p hcovers]
  · have hout : out.length ≤ p := h.length.symm ▸ Nat.le_of_not_lt hp
    have hout' : out'.length ≤ p := h'.length.symm ▸ Nat.le_of_not_lt hp
    rw [List.getElem?_eq_none hout, List.getElem?_eq_none hout']

end Lib
