import Mathlib.Tactic.TypeStar

/-!
# Checked runs

A list of operations is run one after the other, each after a check of the state before it.

* `runChecked` — the state at the end, if every operation passes its check and is possible.
* `runChecked_induction` — what every allowed step keeps holds at the end.
-/

namespace Lib

variable {σ α : Type*}

/-- Run some operations, each of which passes a check. -/
def runChecked (check : σ → α → Bool) (step : σ → α → Option σ) : σ → List α → Option σ
  | s, [] => some s
  | s, op :: ops =>
    if check s op then
      match step s op with
      | some s' => runChecked check step s' ops
      | none => none
    else none

/-- What every step that passes its check keeps holds at the end of a run. -/
theorem runChecked_induction {check : σ → α → Bool} {step : σ → α → Option σ} {P : σ → Prop}
    (hstep : ∀ s op s', P s → check s op = true → step s op = some s' → P s') {ops : List α}
    {s s' : σ} (h : P s) (hrun : runChecked check step s ops = some s') : P s' := by
  induction ops generalizing s with
  | nil =>
    cases hrun
    exact h
  | cons op ops ih =>
    unfold runChecked at hrun
    split at hrun
    · next hcheck =>
      split at hrun
      · next next hnext => exact ih (hstep s op next h hcheck hnext) hrun
      · cases hrun
    · cases hrun

end Lib
