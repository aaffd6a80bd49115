import MachineEmu.Lib.Bytes

/-!
# Painting on a list of places

A painter writes on some places of a list and leaves the rest, or it fails. When it fails depends
on the length of the list only.

* `Painting.Paints` — when a painter does not fail, and where it writes.
* `Paints.bind`, `Paints.foldlM` — painters one after the other.
* `fillSpan`, `copySpan`, `setPlace` — one value on a span, a piece over a span, and one place.
-/

namespace Lib

open List

/-- Write one value on the places from `start` to `stop`. -/
def fillSpan {α : Type} (places : List α) (start stop : Nat) (value : α) : Option (List α) :=
  if start ≤ stop ∧ stop ≤ places.length then
    some (splice places start (List.replicate (stop - start) value))
  else none

/-- Write a piece on as many places. -/
def copySpan {α : Type} (places : List α) (start : Nat) (piece : List α) : Option (List α) :=
  if start + piece.length ≤ places.length then some (splice places start piece) else none

/-- Write one place, from what is there. -/
def setPlace {α : Type} (places : List α) (at' : Nat) (f : α → α) : Option (List α) :=
  places[at']?.map fun value => places.set at' (f value)

namespace Painting

variable {α β : Type} {n : Nat} {ok ok' : Prop} {region region' : Nat → Prop}
  {paint paint' : List α → Option (List α)}

/-- On `n` places a painter works if and only if `ok`, and writes on a region only. -/
structure Paints (n : Nat) (ok : Prop) (region : Nat → Prop) (paint : List α → Option (List α)) :
    Prop where
  works : ok → ∀ places : List α, places.length = n → (paint places).isSome
  fails : ¬ok → ∀ places : List α, places.length = n → paint places = none
  kept : ∀ places out : List α, places.length = n → paint places = some out →
    out.length = n ∧ ∀ i, ¬region i → out[i]? = places[i]?

theorem paints_some : Paints n True region (some : List α → Option (List α)) where
  works _ _ _ := rfl
  fails h := absurd trivial h
  kept places out hlength h := by
    cases h
    exact ⟨hlength, fun _ _ => rfl⟩

theorem Paints.mono (h : Paints n ok region paint) (hok : ok ↔ ok')
    (hregion : ∀ i, region i → region' i) : Paints n ok' region' paint where
  works h' := h.works (hok.2 h')
  fails h' := h.fails fun hk => h' (hok.1 hk)
  kept places out hlength hout :=
    ⟨(h.kept places out hlength hout).1,
      fun i hi => (h.kept places out hlength hout).2 i fun hr => hi (hregion i hr)⟩

theorem Paints.congr (h : Paints n ok region paint)
    (heq : ∀ places : List α, places.length = n → paint' places = paint places) :
    Paints n ok region paint' where
  works hok places hlength := heq places hlength ▸ h.works hok places hlength
  fails hok places hlength := (heq places hlength).trans (h.fails hok places hlength)
  kept places out hlength hout :=
    h.kept places out hlength ((heq places hlength).symm.trans hout)

/-- One painter after the other. -/
theorem Paints.bind (h : Paints n ok region paint) (h' : Paints n ok' region paint') :
    Paints n (ok ∧ ok') region fun places => paint places >>= paint' where
  works hok places hlength := by
    obtain ⟨middle, hmiddle⟩ := Option.isSome_iff_exists.1 (h.works hok.1 places hlength)
    rw [hmiddle]
    exact h'.works hok.2 middle (h.kept places middle hlength hmiddle).1
  fails hok places hlength := by
    cases hmiddle : paint places with
    | none => rfl
    | some middle =>
      have hfirst : ok := by
        by_contra hfirst
        rw [h.fails hfirst places hlength] at hmiddle
        cases hmiddle
      exact h'.fails (fun hsecond => hok ⟨hfirst, hsecond⟩) middle
        (h.kept places middle hlength hmiddle).1
  kept places out hlength hout := by
    obtain ⟨middle, hmiddle, hlast⟩ := Option.bind_eq_some_iff.1 hout
    obtain ⟨hlength', hsame⟩ := h.kept places middle hlength hmiddle
    obtain ⟨hlength'', hsame'⟩ := h'.kept middle out hlength' hlast
    exact ⟨hlength'', fun i hi => (hsame' i hi).trans (hsame i hi)⟩

/-- Some painters, one after the other. -/
theorem Paints.foldlM {steps : List β} {step : List α → β → Option (List α)} {oks : β → Prop}
    (h : ∀ b ∈ steps, Paints n (oks b) region fun places => step places b) :
    Paints n (∀ b ∈ steps, oks b) region fun places => steps.foldlM step places := by
  induction steps with
  | nil => exact paints_some.mono (by simp) fun i hi => hi
  | cons b steps ih =>
    have hrest := ih fun c hc => h c (mem_cons_of_mem b hc)
    have hboth := (h b mem_cons_self).bind hrest
    simp only [foldlM_cons]
    exact hboth.mono (by simp) fun i hi => hi

/-! ## What writes -/

theorem paints_copySpan {piece : List α} {start : Nat} :
    Paints n (start + piece.length ≤ n) (fun i => start ≤ i ∧ i < start + piece.length)
      fun places => copySpan places start piece where
  works hok places hlength := by
    unfold copySpan
    rw [if_pos (hlength ▸ hok)]
    rfl
  fails hok places hlength := if_neg (hlength ▸ hok)
  kept places out hlength hout := by
    unfold copySpan at hout
    split at hout
    · next hroom =>
      cases hout
      exact ⟨(length_splice hroom).trans hlength, fun i hi => (getElem?_splice hroom i).trans (if_neg hi)⟩
    · cases hout

theorem paints_fillSpan {start stop : Nat} {value : α} :
    Paints n (start ≤ stop ∧ stop ≤ n) (fun i => start ≤ i ∧ i < stop)
      fun places => fillSpan places start stop value where
  works hok places hlength := by
    unfold fillSpan
    rw [if_pos (hlength ▸ hok)]
    rfl
  fails hok places hlength := if_neg (hlength ▸ hok)
  kept places out hlength hout := by
    unfold fillSpan at hout
    split at hout
    · next hroom =>
      have hend : start + (stop - start) = stop := by omega
      have hpiece : start + (List.replicate (stop - start) value).length ≤ places.length := by
        rw [length_replicate, hend]
        exact hroom.2
      cases hout
      refine ⟨(length_splice hpiece).trans hlength, fun i hi =>
        (getElem?_splice hpiece i).trans (if_neg ?_)⟩
      rwa [length_replicate, hend]
    · cases hout

theorem paints_setPlace {at' : Nat} {f : α → α} :
    Paints n (at' < n) (fun i => i = at') fun places => setPlace places at' f where
  works hok places hlength := by
    unfold setPlace
    rw [List.getElem?_eq_getElem (hlength ▸ hok)]
    rfl
  fails hok places hlength := by
    unfold setPlace
    rw [List.getElem?_eq_none (by omega)]
    rfl
  kept places out hlength hout := by
    obtain ⟨value, -, rfl⟩ := Option.map_eq_some_iff.1 hout
    exact ⟨by rw [length_set, hlength],
      fun i hi => List.getElem?_set_ne fun h => hi h.symm⟩

end Painting

end Lib
