import MachineEmu.Display.Cursor
import Mathlib.Data.List.Induction

/-!
# The callbacks of the cursor

The stored cursor stays valid, so every row of an update is inside of it.

* `Cursor.valid_iff` — what a valid cursor has.
* `copyCursorRows_eq_some` — the rows of an update inside the cursor.
* `CallbackOk` — what a callback does to a valid cursor; `callbackOk_step` — all of them do.
* `cursor_callbacks` — what holds after any callbacks.
-/

namespace MachineEmu.Display

open Lib

/-- What makes a cursor valid, and its size. -/
theorem Cursor.valid_iff {cursor : Cursor} :
    cursor.valid = true ↔
      (cursor.kind = "cursor" ∧ cursor.width ≤ maxCursorDimension ∧
        cursor.height ≤ maxCursorDimension ∧ 0 ≤ cursor.hotX ∧ 0 ≤ cursor.hotY ∧
          (cursor.width = 0 ∨ cursor.hotX < cursor.width.toInt32) ∧
            (cursor.height = 0 ∨ cursor.hotY < cursor.height.toInt32)) ∧
        cursor.data.length = cursor.width.toNat * cursor.height.toNat * 4 := by
  simp only [Cursor.valid, Bool.and_eq_true, Bool.or_eq_true, decide_eq_true_eq]
  tauto

section Rows

variable {lineWidth height x y width : Nat} {data pixels : List UInt8}

/-- The rows of an update inside the cursor are inside its pixels and inside the data. -/
theorem copyCursorRows_eq_some {count row : Nat} (hx : x + width ≤ lineWidth)
    (hy : y + row + count ≤ height) (hpixels : pixels.length = lineWidth * height * 4)
    (hdata : (row + count) * (width * 4) ≤ data.length) :
    ∃ out, CursorState.copyCursorRows lineWidth x y (width * 4) data count row pixels = some out ∧
      out.length = pixels.length := by
  induction count generalizing row pixels with
  | zero => exact ⟨pixels, rfl, rfl⟩
  | succ count ih =>
    have hline : (row + 1) * (width * 4) ≤ data.length :=
      Nat.le_trans (Nat.mul_le_mul_right _ (by omega)) hdata
    have hroom : ((y + row) * lineWidth + x) * 4 + width * 4 ≤ pixels.length := by
      have hrow : (y + row + 1) * lineWidth ≤ height * lineWidth :=
        Nat.mul_le_mul_right _ (by omega)
      rw [Nat.succ_mul, Nat.mul_comm height] at hrow
      omega
    have hslice : (slice data (row * (width * 4)) (width * 4)).length = width * 4 := by
      refine length_slice ?_
      rw [Nat.succ_mul] at hline
      exact hline
    have hspliced : (splice pixels (((y + row) * lineWidth + x) * 4)
        (slice data (row * (width * 4)) (width * 4))).length = pixels.length :=
      length_splice (by rw [hslice]; exact hroom)
    obtain ⟨out, hout, hlength⟩ := @ih (splice pixels (((y + row) * lineWidth + x) * 4)
      (slice data (row * (width * 4)) (width * 4))) (row + 1) (by omega) (hspliced.trans hpixels)
      (by rwa [Nat.add_right_comm, Nat.add_assoc])
    refine ⟨out, ?_, hlength.trans hspliced⟩
    unfold CursorState.copyCursorRows
    dsimp only
    rw [if_neg (by omega)]
    exact hout

end Rows

/-! ## Callbacks -/

/-- A callback does not panic; where it is rejected, nothing has changed; and it leaves a valid
cursor. -/
structure CallbackOk (s : CursorState) (result : CursorResult) : Prop where
  calm : result.1 ≠ .error .panic
  rejected : ∀ e, result.1 = .error e → result.2 = s
  valid : result.2.cursor.valid = true

section Callbacks

variable {s : CursorState}

/-- A callback that is rejected. -/
theorem CallbackOk.invalidArgs (h : s.cursor.valid = true) (message : String) :
    CallbackOk s (.error (.invalidArgs message), s) := ⟨nofun, fun _ _ => rfl, h⟩

/-- A callback that stores a valid cursor. -/
theorem CallbackOk.stored {after : CursorState} (h : after.cursor.valid = true) :
    CallbackOk s (.ok (), after) := ⟨nofun, nofun, h⟩

theorem callbackOk_cursorDefine (h : s.cursor.valid = true) (width height hotX hotY : Int32)
    (data : List UInt8) : CallbackOk s (s.cursorDefine width height hotX hotY data) := by
  unfold CursorState.cursorDefine
  split
  · exact .invalidArgs h _
  · split
    · exact .invalidArgs h _
    · dsimp only
      split
      · exact .invalidArgs h _
      · next hvalid =>
        rw [not_or, not_not] at hvalid
        exact .stored hvalid.1

theorem callbackOk_cursorUpdate (h : s.cursor.valid = true) (x y width height : Int32)
    (data : List UInt8) : CallbackOk s (s.cursorUpdate x y width height data) := by
  unfold CursorState.cursorUpdate
  split
  · exact .invalidArgs h _
  · next hinside =>
    simp only [not_or, Nat.not_lt, not_not] at hinside
    obtain ⟨-, -, -, -, hx, hy, hlength⟩ := hinside
    obtain ⟨hshape, hsize⟩ := Cursor.valid_iff.1 h
    obtain ⟨out, hout, houtLength⟩ := @copyCursorRows_eq_some _ _ _ _ _ data _
      height.toNatClampNeg 0 hx (by omega) hsize
      (Nat.le_of_eq (by rw [hlength]; ring))
    rw [hout]
    exact .stored (Cursor.valid_iff.2 ⟨hshape, houtLength.trans hsize⟩)

/-- Neither the place nor whether it is there makes a cursor invalid. -/
theorem callbackOk_step (h : s.cursor.valid = true) (callback : CursorCallback) :
    CallbackOk s (s.step callback) := by
  cases callback with
  | mouseSet x y on => exact .stored h
  | cursorDefine width height hotX hotY data => exact callbackOk_cursorDefine h _ _ _ _ _
  | cursorMove x y => exact .stored h
  | cursorUpdate x y width height data => exact callbackOk_cursorUpdate h _ _ _ _ _
  | disable => exact .stored h

end Callbacks

theorem valid_run (callbacks : List CursorCallback) :
    (CursorState.run {} callbacks).cursor.valid = true := by
  induction callbacks using List.reverseRecOn with
  | nil => decide
  | append_singleton front callback ih =>
    have hrun : CursorState.run {} (front ++ [callback]) =
        ((CursorState.run {} front).step callback).2 := List.foldl_append
    rw [hrun]
    exact (callbackOk_step ih callback).valid

/-- After any callbacks the stored cursor is valid, and the next callback does not panic, changes
nothing where it is rejected, and leaves a valid cursor. -/
theorem cursor_callbacks (callbacks : List CursorCallback) :
    (CursorState.run {} callbacks).cursor.valid = true ∧
      ∀ callback, CallbackOk (CursorState.run {} callbacks)
        ((CursorState.run {} callbacks).step callback) :=
  ⟨valid_run callbacks, fun callback => callbackOk_step (valid_run callbacks) callback⟩

/-- A cursor is defined, and one of its pixels is updated. -/
example : (CursorState.run {} [.cursorDefine 2 1 1 0 [1, 2, 3, 255, 4, 5, 6, 128],
    .cursorUpdate 1 0 1 1 [7, 8, 9, 255]]).cursor.data = [1, 2, 3, 255, 7, 8, 9, 255] := by
  decide

end MachineEmu.Display
