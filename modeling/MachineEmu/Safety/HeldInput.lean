import MachineEmu.Lib.Presses
import MachineEmu.Viewer.App

/-!
# The keys and buttons that a viewer holds down

* `App.keyPresses`, `App.buttonPresses` — what the messages press and release.
* `App.Good` — what holds until the window closes; `App.good_step` — every event keeps it.
* `App.Muted` — a viewer that sends nothing, without control or after the window has closed.
* `heldInput` — the keys and buttons of every run; `not_heldInput` — a click behind the closing.
-/

namespace MachineEmu.Viewer

open Lib Presses List

namespace App

def keyPress : ViewerCall → Option (UInt32 × Bool)
  | .key keycode isDown => some (keycode, isDown)
  | _ => none

def buttonPress : ViewerCall → Option (UInt32 × Bool)
  | .mouseButton button isDown => some (button, isDown)
  | _ => none

/-- The keys that messages press and release. -/
def keyPresses (calls : List ViewerCall) : List (UInt32 × Bool) := calls.filterMap keyPress

def buttonPresses (calls : List ViewerCall) : List (UInt32 × Bool) := calls.filterMap buttonPress

/-- The keys and buttons that are kept are those that the messages leave down. -/
structure Held (s : App) : Prop where
  keys : Tracks (keyPresses s.sent) s.keys
  buttons : Tracks (buttonPresses s.sent) s.buttons

/-- What holds until the window closes. -/
structure Good (s : App) : Prop where
  held : s.Held
  free : s.grabbed = false → s.keys = [] ∧ s.buttons = []
  able : s.grabbed = true → s.control = true ∧ s.window.isSome = true
  open' : s.outbound = true

/-! ## Messages -/

section Post

variable {s : App} {call : ViewerCall}

theorem post_eq (hcontrol : s.control = true) (hopen : s.outbound = true) (call : ViewerCall) :
    s.post call = { s with sent := s.sent ++ [call] } := by
  unfold post send
  rw [if_pos hcontrol, if_pos hopen]

/-- A message that presses and releases nothing. -/
theorem Good.post (h : s.Good) (hkey : keyPress call = none) (hbutton : buttonPress call = none) :
    (s.post call).Good := by
  unfold App.post send
  split
  · rw [if_pos h.open']
    refine ⟨⟨?_, ?_⟩, h.free, h.able, h.open'⟩
    · simpa [keyPresses, hkey] using h.held.keys
    · simpa [buttonPresses, hbutton] using h.held.buttons
  · exact h

/-- Some messages at once. -/
theorem foldl_post (hcontrol : s.control = true) (hopen : s.outbound = true)
    (f : UInt32 → ViewerCall) (codes : List UInt32) :
    codes.foldl (fun s code => s.post (f code)) s =
      { s with sent := s.sent ++ codes.map f } := by
  induction codes generalizing s with
  | nil => simp
  | cons code codes ih =>
    rw [foldl_cons, post_eq hcontrol hopen, ih (by exact hcontrol) (by exact hopen)]
    simp

end Post

theorem keyPresses_releases (keys buttons : List UInt32) :
    keyPresses (keys.map (.key · false) ++ buttons.map (.mouseButton · false)) =
      keys.map fun key => (key, false) := by
  simp [keyPresses, keyPress, filterMap_map, Function.comp_def]

theorem buttonPresses_releases (keys buttons : List UInt32) :
    buttonPresses (keys.map (.key · false) ++ buttons.map (.mouseButton · false)) =
      buttons.map fun button => (button, false) := by
  simp [buttonPresses, buttonPress, filterMap_map, Function.comp_def]

/-! ## Releasing -/

section Release

variable {s : App} {platform : Platform}

theorem Order.list_nil (order : Order) : order.list [] = [] := perm_nil.1 (order.perm [])

theorem releaseInputs_empty (hkeys : s.keys = []) (hbuttons : s.buttons = []) :
    s.releaseInputs platform = s := by
  unfold releaseInputs
  rw [hkeys, Order.list_nil, foldl_nil]
  dsimp only
  rw [hbuttons, Order.list_nil, foldl_nil]
  cases s
  simp_all

theorem releaseInputs_eq (hcontrol : s.control = true) (hopen : s.outbound = true) :
    s.releaseInputs platform =
      { s with
        keys := [], buttons := []
        sent := s.sent ++ ((platform.keyOrder.list s.keys).map (.key · false) ++
          (platform.buttonOrder.list s.buttons).map (.mouseButton · false)) } := by
  unfold releaseInputs
  rw [foldl_post (by exact hcontrol) (by exact hopen) (.key · false)]
  dsimp only
  rw [foldl_post (by exact hcontrol) (by exact hopen) (.mouseButton · false)]
  simp

/-- Everything that is down is released. -/
theorem Good.releaseInputs (h : s.Good) :
    (s.releaseInputs platform).Held ∧ (s.releaseInputs platform).keys = [] ∧
      (s.releaseInputs platform).buttons = [] := by
  cases hgrabbed : s.grabbed with
  | false =>
    obtain ⟨hkeys, hbuttons⟩ := h.free hgrabbed
    rw [releaseInputs_empty hkeys hbuttons]
    exact ⟨h.held, hkeys, hbuttons⟩
  | true =>
    have hcontrol := (h.able hgrabbed).1
    rw [releaseInputs_eq hcontrol h.open']
    refine ⟨⟨?_, ?_⟩, rfl, rfl⟩
    · dsimp only
      rw [keyPresses, filterMap_append, ← keyPresses, ← keyPresses, keyPresses_releases]
      exact h.held.keys.releaseAll (platform.keyOrder.perm _)
    · dsimp only
      rw [buttonPresses, filterMap_append, ← buttonPresses, ← buttonPresses, buttonPresses_releases]
      exact h.held.buttons.releaseAll (platform.buttonOrder.perm _)

theorem Good.setGrabbed (h : s.Good) (grabbed : Bool) : (s.setGrabbed platform grabbed).Good := by
  unfold App.setGrabbed
  split
  · exact h
  · next hable =>
    simp only [not_or, Bool.not_eq_false, Option.isNone_iff_eq_none] at hable
    have hwindow : s.window.isSome = true := Option.isSome_iff_ne_none.2 hable.2
    split
    · split
      · exact ⟨⟨h.held.keys, h.held.buttons⟩, nofun, fun _ => ⟨hable.1, hwindow⟩, h.open'⟩
      · exact h
    · obtain ⟨hheld, hkeys, hbuttons⟩ := @Good.releaseInputs s platform h
      refine ⟨⟨hheld.keys, hheld.buttons⟩, fun _ => ⟨hkeys, hbuttons⟩, nofun, ?_⟩
      rw [releaseInputs_eq hable.1 h.open']
      exact h.open'

end Release

/-! ## Events -/

section Step

variable {s : App} {platform : Platform}

/-- A viewer that differs in nothing that counts. -/
theorem Good.of_eq {t : App} (h : s.Good) (hsent : t.sent = s.sent) (hkeys : t.keys = s.keys)
    (hbuttons : t.buttons = s.buttons) (hgrabbed : t.grabbed = s.grabbed)
    (hcontrol : t.control = s.control) (hwindow : s.window.isSome → t.window.isSome)
    (hopen : t.outbound = s.outbound) : t.Good where
  held := ⟨by rw [hsent, hkeys]; exact h.held.keys, by rw [hsent, hbuttons]; exact h.held.buttons⟩
  free hfree := by
    rw [hkeys, hbuttons]
    exact h.free (hgrabbed ▸ hfree)
  able htaken := by
    obtain ⟨hable, hsome⟩ := h.able (hgrabbed ▸ htaken)
    exact ⟨hcontrol.trans hable, hwindow hsome⟩
  open' := hopen.trans h.open'

/-- A key or a button of a viewer that has the input. -/
theorem Good.sent (h : s.Good) (hgrabbed : s.grabbed = true) {keys buttons : List UInt32}
    {call : ViewerCall} (hkeys : Tracks (keyPresses (s.sent ++ [call])) keys)
    (hbuttons : Tracks (buttonPresses (s.sent ++ [call])) buttons) :
    ({ s with keys, buttons }.post call).Good := by
  obtain ⟨hcontrol, hwindow⟩ := h.able hgrabbed
  rw [post_eq (by exact hcontrol) (by exact h.open')]
  refine ⟨⟨hkeys, hbuttons⟩, fun hfree => ?_, fun _ => ⟨hcontrol, hwindow⟩, h.open'⟩
  have hnot : s.grabbed = false := hfree
  rw [hgrabbed] at hnot
  cases hnot

theorem keyPresses_concat (calls : List ViewerCall) (call : ViewerCall) :
    keyPresses (calls ++ [call]) = keyPresses calls ++ (keyPress call).toList := by
  rw [keyPresses, filterMap_append, ← keyPresses]
  cases h : keyPress call <;> simp [h]

theorem buttonPresses_concat (calls : List ViewerCall) (call : ViewerCall) :
    buttonPresses (calls ++ [call]) = buttonPresses calls ++ (buttonPress call).toList := by
  rw [buttonPresses, filterMap_append, ← buttonPresses]
  cases h : buttonPress call <;> simp [h]

theorem Good.pressKey (h : s.Good) (hgrabbed : s.grabbed = true) (key : UInt32) :
    ({ s with keys := s.keys.insert key }.post (.key key true)).Good := by
  refine h.sent hgrabbed ?_ ?_
  · rw [keyPresses_concat]
    exact h.held.keys.press key
  · rw [buttonPresses_concat]
    exact (append_nil (buttonPresses s.sent)).symm ▸ h.held.buttons

theorem Good.releaseKey (h : s.Good) (hgrabbed : s.grabbed = true) {key : UInt32}
    (hkey : key ∈ s.keys) : ({ s with keys := s.keys.erase key }.post (.key key false)).Good := by
  refine h.sent hgrabbed ?_ ?_
  · rw [keyPresses_concat]
    exact h.held.keys.release hkey
  · rw [buttonPresses_concat]
    exact (append_nil (buttonPresses s.sent)).symm ▸ h.held.buttons

theorem Good.pressDown (h : s.Good) (hgrabbed : s.grabbed = true) (button : UInt32) :
    ({ s with buttons := s.buttons.insert button }.post (.mouseButton button true)).Good := by
  refine h.sent hgrabbed ?_ ?_
  · rw [keyPresses_concat]
    exact (append_nil (keyPresses s.sent)).symm ▸ h.held.keys
  · rw [buttonPresses_concat]
    exact h.held.buttons.press button

theorem Good.pressUp (h : s.Good) (hgrabbed : s.grabbed = true) {button : UInt32}
    (hbutton : button ∈ s.buttons) :
    ({ s with buttons := s.buttons.erase button }.post (.mouseButton button false)).Good := by
  refine h.sent hgrabbed ?_ ?_
  · rw [keyPresses_concat]
    exact (append_nil (keyPresses s.sent)).symm ▸ h.held.keys
  · rw [buttonPresses_concat]
    exact h.held.buttons.release hbutton

theorem Good.keyboardInput (h : s.Good) (code : Option KeyCode) (pressed : Bool) :
    (s.keyboardInput platform code pressed).Good := by
  unfold App.keyboardInput
  cases code with
  | none => exact h
  | some code =>
    dsimp only
    split
    · exact h.setGrabbed false
    · split
      · exact h
      · next hgrabbed =>
        rw [Bool.not_eq_false] at hgrabbed
        cases qnum code with
        | none => exact h
        | some key =>
          dsimp only
          split
          · exact h.pressKey hgrabbed key
          · split
            · next hkey => exact h.releaseKey hgrabbed hkey
            · exact h

theorem Good.cursorMoved (h : s.Good) (x y : ℚ) : (s.cursorMoved x y).Good := by
  unfold App.cursorMoved
  have hmoved (position : Option (UInt32 × UInt32)) : Good { s with
      pointerWindow := some (x, y), pointerPosition := position } :=
    h.of_eq rfl rfl rfl rfl rfl id rfl
  dsimp only
  split
  · split
    · exact (hmoved _).post rfl rfl
    · exact hmoved _
  · exact hmoved _

theorem Good.toolbarAction (h : s.Good) (x y : ℚ) : (s.toolbarAction platform x y).1.Good := by
  unfold App.toolbarAction
  split
  · exact h
  · dsimp only
    split
    · exact Good.post (h.of_eq rfl rfl rfl rfl rfl id rfl) rfl rfl
    · split
      · exact h.of_eq rfl rfl rfl rfl rfl id rfl
      · split
        · exact h.of_eq rfl rfl rfl rfl rfl id rfl
        · split
          · exact h.setGrabbed _
          · exact h

theorem Good.placePointer (h : s.Good) (hgrabbed : s.grabbed = true) :
    s.placePointer.Good ∧ s.placePointer.grabbed = true := by
  unfold App.placePointer
  split
  · refine ⟨h.post rfl rfl, ?_⟩
    rw [post_eq (h.able hgrabbed).1 h.open']
    exact hgrabbed
  · exact ⟨h, hgrabbed⟩

theorem Good.forwardButton (h : s.Good) (pressed : Bool) (button : MouseButton) :
    (s.forwardButton pressed button).Good := by
  unfold App.forwardButton
  split
  · exact h
  · next hgrabbed =>
    rw [Bool.not_eq_false] at hgrabbed
    cases mouseButton button with
    | none => exact h
    | some button =>
      dsimp only
      split
      · obtain ⟨hplaced, hstill⟩ := h.placePointer hgrabbed
        exact hplaced.pressDown hstill button
      · split
        · next hbutton => exact h.pressUp hgrabbed hbutton
        · exact h

theorem Good.pressButton (h : s.Good) (pressed : Bool) (button : MouseButton) :
    (s.pressButton platform pressed button).Good := by
  unfold App.pressButton
  split
  · exact (h.setGrabbed true).forwardButton pressed button
  · exact h.forwardButton pressed button

theorem Good.mouseInput (h : s.Good) (pressed : Bool) (button : MouseButton) :
    (s.mouseInput platform pressed button).Good := by
  unfold App.mouseInput
  split
  · next x y _ =>
    split
    · have hbar := @Good.toolbarAction s platform h x y
      dsimp only
      split
      · exact hbar
      · exact hbar.pressButton pressed button
    · exact h.pressButton pressed button
  · exact h.pressButton pressed button

theorem Good.mouseWheel (h : s.Good) (delta : ScrollDelta) : (s.mouseWheel delta).Good := by
  unfold App.mouseWheel
  split
  · exact h
  · dsimp only
    split
    · exact Good.post (h.of_eq rfl rfl rfl rfl rfl id rfl) rfl rfl
    · exact h.of_eq rfl rfl rfl rfl rfl id rfl

theorem Good.pushClipboard (h : s.Good) (text : Option String) : (s.pushClipboard text).Good := by
  unfold App.pushClipboard
  split
  · exact h
  · split
    · exact h
    · split
      · exact Good.post (h.of_eq rfl rfl rfl rfl rfl id rfl) rfl rfl
      · exact h

theorem Good.aboutToWait (h : s.Good) (due : Bool) : (s.aboutToWait due).Good := by
  unfold App.aboutToWait
  split
  · exact h
  · have hdone : Good { s with resizeAt := false } := h.of_eq rfl rfl rfl rfl rfl id rfl
    dsimp only
    split
    · split
      · exact hdone
      · split
        · exact hdone.post rfl rfl
        · exact hdone
    · exact hdone

/-- Every event but the closing of the window. -/
theorem good_step (h : s.Good) {event : Event} (hevent : event ≠ .closeRequested) :
    (s.step platform event).Good := by
  cases event with
  | closeRequested => exact absurd rfl hevent
  | resumed width height =>
    have hopened : Good { s with window := some (width, height) } :=
      h.of_eq rfl rfl rfl rfl rfl (fun _ => rfl) rfl
    show Good (if s.window.isSome then s else { s with window := some (width, height) })
    split
    · exact h
    · exact hopened
  | resized width height =>
    exact h.of_eq rfl rfl rfl rfl rfl (fun hsome => by simpa [App.step] using hsome) rfl
  | focused text => exact h.pushClipboard text
  | unfocused => exact h.setGrabbed false
  | modifiersChanged control alt => exact h.of_eq rfl rfl rfl rfl rfl id rfl
  | keyboardInput code pressed => exact h.keyboardInput code pressed
  | cursorMoved x y => exact h.cursorMoved x y
  | mouseInput pressed button => exact h.mouseInput pressed button
  | mouseWheel delta => exact h.mouseWheel delta
  | aboutToWait due => exact h.aboutToWait due
  | frame width height => exact h.of_eq rfl rfl rfl rfl rfl id rfl
  | config width height => exact h.of_eq rfl rfl rfl rfl rfl id rfl
  | clipboard available text taken => exact h.of_eq rfl rfl rfl rfl rfl id rfl
  | other => exact h

/-- The closing of the window releases everything. -/
theorem Good.close (h : s.Good) :
    (s.step platform .closeRequested).Held ∧ (s.step platform .closeRequested).keys = [] ∧
      (s.step platform .closeRequested).buttons = [] ∧
      (s.step platform .closeRequested).outbound = false := by
  obtain ⟨hheld, hkeys, hbuttons⟩ := @Good.releaseInputs _ platform
    (@Good.setGrabbed s platform h false)
  exact ⟨⟨hheld.keys, hheld.buttons⟩, hkeys, hbuttons, rfl⟩

end Step

/-! ## A viewer that sends nothing -/

/-- Without control, or after the window has closed. -/
def Muted (s : App) : Prop := s.control = false ∨ s.outbound = false

/-- What does not change while nothing is sent. -/
structure Still (s t : App) : Prop where
  control : t.control = s.control
  outbound : t.outbound = s.outbound
  sent : t.sent = s.sent

section Muted

variable {s t u : App} {platform : Platform}

theorem Still.refl (s : App) : Still s s := ⟨rfl, rfl, rfl⟩

theorem Still.trans (h : Still s t) (h' : Still t u) : Still s u :=
  ⟨h'.control.trans h.control, h'.outbound.trans h.outbound, h'.sent.trans h.sent⟩

theorem Still.muted (h : Still s t) (hs : s.Muted) : t.Muted := by
  unfold Muted at hs ⊢
  rwa [h.control, h.outbound]

theorem Muted.post (h : s.Muted) (call : ViewerCall) : s.post call = s := by
  unfold App.post send
  rcases h with hcontrol | hopen
  · rw [hcontrol]
    rfl
  · rw [hopen]
    exact ite_self s

theorem Muted.foldl (h : s.Muted) (f : UInt32 → ViewerCall) (codes : List UInt32) :
    codes.foldl (fun s code => s.post (f code)) s = s := by
  induction codes with
  | nil => rfl
  | cons code codes ih => rw [foldl_cons, h.post, ih]

theorem Muted.releaseInputs (h : s.Muted) : Still s (s.releaseInputs platform) := by
  have hkeys : Muted { s with keys := [] } := h
  have hboth : Muted { s with keys := [], buttons := [] } := h
  unfold App.releaseInputs
  rw [hkeys.foldl]
  dsimp only
  rw [hboth.foldl]
  exact ⟨rfl, rfl, rfl⟩

theorem Muted.setGrabbed (h : s.Muted) (grabbed : Bool) :
    Still s (s.setGrabbed platform grabbed) := by
  unfold App.setGrabbed
  split
  · exact .refl s
  · split
    · split <;> exact ⟨rfl, rfl, rfl⟩
    · exact (h.releaseInputs).trans ⟨rfl, rfl, rfl⟩

/-- A viewer that differs in what nothing sends. -/
theorem Muted.posted {call : ViewerCall} (h : s.Muted) (hcontrol : t.control = s.control)
    (hopen : t.outbound = s.outbound) (hsent : t.sent = s.sent) : Still s (t.post call) := by
  have hst : Still s t := ⟨hcontrol, hopen, hsent⟩
  rw [(hst.muted h).post]
  exact hst

theorem Muted.keyboardInput (h : s.Muted) (code : Option KeyCode) (pressed : Bool) :
    Still s (s.keyboardInput platform code pressed) := by
  unfold App.keyboardInput
  cases code with
  | none => exact .refl s
  | some code =>
    dsimp only
    split
    · exact h.setGrabbed false
    · split
      · exact .refl s
      · cases qnum code with
        | none => exact .refl s
        | some key =>
          dsimp only
          split
          · exact h.posted rfl rfl rfl
          · split
            · exact h.posted rfl rfl rfl
            · exact .refl s

theorem Muted.cursorMoved (h : s.Muted) (x y : ℚ) : Still s (s.cursorMoved x y) := by
  unfold App.cursorMoved
  dsimp only
  split
  · split
    · exact h.posted rfl rfl rfl
    · exact ⟨rfl, rfl, rfl⟩
  · exact ⟨rfl, rfl, rfl⟩

theorem Muted.toolbarAction (h : s.Muted) (x y : ℚ) :
    Still s (s.toolbarAction platform x y).1 := by
  unfold App.toolbarAction
  split
  · exact .refl s
  · dsimp only
    split
    · exact h.posted rfl rfl rfl
    · split
      · exact ⟨rfl, rfl, rfl⟩
      · split
        · exact ⟨rfl, rfl, rfl⟩
        · split
          · exact h.setGrabbed _
          · exact .refl s

theorem Muted.placePointer (h : s.Muted) : s.placePointer = s := by
  unfold App.placePointer
  split
  · exact h.post _
  · rfl

theorem Muted.forwardButton (h : s.Muted) (pressed : Bool) (button : MouseButton) :
    Still s (s.forwardButton pressed button) := by
  unfold App.forwardButton
  split
  · exact .refl s
  · cases mouseButton button with
    | none => exact .refl s
    | some button =>
      dsimp only
      rw [h.placePointer]
      split
      · exact h.posted rfl rfl rfl
      · split
        · exact h.posted rfl rfl rfl
        · exact .refl s

theorem Muted.pressButton (h : s.Muted) (pressed : Bool) (button : MouseButton) :
    Still s (s.pressButton platform pressed button) := by
  unfold App.pressButton
  split
  · have hgrab := @Muted.setGrabbed s platform h true
    exact hgrab.trans ((hgrab.muted h).forwardButton pressed button)
  · exact h.forwardButton pressed button

theorem Muted.mouseInput (h : s.Muted) (pressed : Bool) (button : MouseButton) :
    Still s (s.mouseInput platform pressed button) := by
  unfold App.mouseInput
  split
  · next x y _ =>
    split
    · have hbar := @Muted.toolbarAction s platform h x y
      dsimp only
      split
      · exact hbar
      · exact hbar.trans ((hbar.muted h).pressButton pressed button)
    · exact h.pressButton pressed button
  · exact h.pressButton pressed button

theorem Muted.mouseWheel (h : s.Muted) (delta : ScrollDelta) : Still s (s.mouseWheel delta) := by
  unfold App.mouseWheel
  split
  · exact .refl s
  · dsimp only
    split
    · exact h.posted rfl rfl rfl
    · exact ⟨rfl, rfl, rfl⟩

theorem Muted.pushClipboard (h : s.Muted) (text : Option String) :
    Still s (s.pushClipboard text) := by
  unfold App.pushClipboard
  split
  · exact .refl s
  · split
    · exact .refl s
    · split
      · exact h.posted rfl rfl rfl
      · exact .refl s

theorem Muted.aboutToWait (h : s.Muted) (due : Bool) : Still s (s.aboutToWait due) := by
  unfold App.aboutToWait
  split
  · exact .refl s
  · dsimp only
    split
    · split
      · exact ⟨rfl, rfl, rfl⟩
      · split
        · exact h.posted rfl rfl rfl
        · exact ⟨rfl, rfl, rfl⟩
    · exact ⟨rfl, rfl, rfl⟩

theorem Muted.step (h : s.Muted) (event : Event) :
    (s.step platform event).sent = s.sent ∧ (s.step platform event).Muted := by
  have hstill {t : App} (ht : Still s t) : t.sent = s.sent ∧ t.Muted := ⟨ht.sent, ht.muted h⟩
  cases event with
  | closeRequested =>
    have hgrab := @Muted.setGrabbed s platform h false
    have hrelease := hgrab.trans (@Muted.releaseInputs _ platform (hgrab.muted h))
    exact ⟨hrelease.sent, .inr rfl⟩
  | resumed width height =>
    show App.sent (if s.window.isSome then s else { s with window := some (width, height) }) = _ ∧
      Muted (if s.window.isSome then s else { s with window := some (width, height) })
    split
    · exact ⟨rfl, h⟩
    · exact ⟨rfl, h⟩
  | resized width height => exact hstill ⟨rfl, rfl, rfl⟩
  | focused text => exact hstill (h.pushClipboard text)
  | unfocused => exact hstill (h.setGrabbed false)
  | modifiersChanged control alt => exact hstill ⟨rfl, rfl, rfl⟩
  | keyboardInput code pressed => exact hstill (h.keyboardInput code pressed)
  | cursorMoved x y => exact hstill (h.cursorMoved x y)
  | mouseInput pressed button => exact hstill (h.mouseInput pressed button)
  | mouseWheel delta => exact hstill (h.mouseWheel delta)
  | aboutToWait due => exact hstill (h.aboutToWait due)
  | frame width height => exact hstill ⟨rfl, rfl, rfl⟩
  | config width height => exact hstill ⟨rfl, rfl, rfl⟩
  | clipboard available text taken => exact hstill ⟨rfl, rfl, rfl⟩
  | other => exact hstill (.refl s)

theorem Muted.run (h : s.Muted) (events : List (Platform × Event)) :
    (s.run events).sent = s.sent := by
  induction events generalizing s with
  | nil => rfl
  | cons event events ih =>
    obtain ⟨hsent, hmuted⟩ := @Muted.step s event.1 h event.2
    exact (ih hmuted).trans hsent

end Muted

/-! ## Runs -/

theorem good_new (control resizeGuest clipboard : Bool) : (new control resizeGuest clipboard).Good :=
  ⟨⟨tracks_nil, tracks_nil⟩, fun _ => ⟨rfl, rfl⟩, nofun, rfl⟩

theorem good_run {s : App} (h : s.Good) {events : List (Platform × Event)}
    (hopen : ∀ event ∈ events, event.2 ≠ .closeRequested) : (s.run events).Good := by
  induction events generalizing s with
  | nil => exact h
  | cons event events ih =>
    exact ih (good_step h (hopen event mem_cons_self)) fun other hother =>
      hopen other (mem_cons_of_mem _ hother)

end App

open App

/-- The keys and buttons of a viewer: what it keeps is what its messages leave down until the window
closes, nothing is down when input is not grabbed and when the window has closed, nothing is sent
from then on, and without control nothing is sent at all. -/
theorem heldInput (control resizeGuest clipboard : Bool) :
    (∀ events : List (Platform × Event), (∀ event ∈ events, event.2 ≠ .closeRequested) →
      ((new control resizeGuest clipboard).run events).Held ∧
        (((new control resizeGuest clipboard).run events).grabbed = false →
          ((new control resizeGuest clipboard).run events).keys = [] ∧
            ((new control resizeGuest clipboard).run events).buttons = [])) ∧
    (∀ (events : List (Platform × Event)) (platform : Platform),
      (∀ event ∈ events, event.2 ≠ .closeRequested) →
      ((new control resizeGuest clipboard).run (events ++ [(platform, .closeRequested)])).Held ∧
        ((new control resizeGuest clipboard).run
          (events ++ [(platform, .closeRequested)])).keys = [] ∧
        ((new control resizeGuest clipboard).run
          (events ++ [(platform, .closeRequested)])).buttons = [] ∧
        ∀ later : List (Platform × Event),
          ((new control resizeGuest clipboard).run
            (events ++ [(platform, .closeRequested)] ++ later)).sent =
          ((new control resizeGuest clipboard).run
            (events ++ [(platform, .closeRequested)])).sent) ∧
    (control = false → ∀ events : List (Platform × Event),
      ((new control resizeGuest clipboard).run events).sent = []) := by
  have hnew := good_new control resizeGuest clipboard
  have hrun (front back : List (Platform × Event)) (s : App) :
      s.run (front ++ back) = (s.run front).run back := foldl_append
  refine ⟨fun events hopen => ?_, fun events platform hopen => ?_, fun hcontrol events => ?_⟩
  · have hgood := good_run hnew hopen
    exact ⟨hgood.held, hgood.free⟩
  · obtain ⟨hheld, hkeys, hbuttons, hclosed⟩ :=
      @Good.close _ platform (good_run hnew hopen)
    rw [hrun events]
    refine ⟨hheld, hkeys, hbuttons, fun later => ?_⟩
    rw [hrun _ later, hrun events]
    exact Muted.run (.inr hclosed) later
  · exact Muted.run (.inl hcontrol) events

/-- A platform that grabs the cursor. -/
def grabbing : Platform :=
  ⟨true, false, ⟨fun keys => keys, fun _ => .refl _⟩, ⟨fun keys => keys, fun _ => .refl _⟩⟩

/-- A click that is handled behind the closing of the window is kept and not sent. -/
theorem not_heldInput :
    ¬∀ (resizeGuest clipboard : Bool) (events : List (Platform × Event)),
      ((new true resizeGuest clipboard).run events).Held := by
  intro h
  have hheld := h true false
    [(grabbing, .resumed 1280 800), (grabbing, .closeRequested), (grabbing, .mouseInput true .left)]
  have hkept := (hheld.buttons.same 0).2 (by decide)
  exact absurd hkept (by decide)

end MachineEmu.Viewer
