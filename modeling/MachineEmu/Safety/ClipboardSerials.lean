import MachineEmu.Display.Clipboard
import Mathlib.Data.List.Induction

/-!
# The serials of the clipboard

A grab of the host carries the serial after the newest one of the session. The addition wraps: after
the largest serial comes the first.

* `ClipboardSession.Newest` — the serial of the state is the newest one that was seen.
* `Fresh`, `NeverFull` — every grab of the host is newer than all before it; no one comes after the
  largest serial.
* `clipboard_serials` — the two are the same; `not_clipboard_serials` — a guest with the largest one.
-/

namespace MachineEmu.Display

open List

/-- Every grab of the host has a serial that is greater than all that the session has seen. -/
def Fresh (ops : List ClipboardOp) : Prop :=
  ∀ front text back, ops = front ++ .set text :: back → text.length ≤ maxClipboardBytes →
    ∀ n ∈ (ClipboardSession.run {} front).seen, n < ((ClipboardSession.run {} front).data.setHostText text).1

/-- No grab of the host comes after the largest serial. -/
def NeverFull (ops : List ClipboardOp) : Prop :=
  ∀ front text back, ops = front ++ .set text :: back → text.length ≤ maxClipboardBytes →
    (ClipboardSession.run {} front).data.serial ≠ 0xFFFFFFFF

/-- What is always true of a session: its serial was seen, or there was none. -/
def ClipboardSession.Known (s : ClipboardSession) : Prop := s.data.serial ∈ s.seen ∨ s.data.serial = 0 ∧ s.seen = []

/-- The serial of the state is the newest one that was seen. -/
def ClipboardSession.Newest (s : ClipboardSession) : Prop := ∀ n ∈ s.seen, n ≤ s.data.serial

section Steps

variable {s : ClipboardSession}

theorem setClipboard_eq {data : ClipboardData} {text : List UInt8}
    (h : text.length ≤ maxClipboardBytes) :
    data.setClipboard text = (.ok (data.setHostText text).1, (data.setHostText text).2) := by
  unfold ClipboardData.setClipboard
  rw [if_neg (Nat.not_lt.2 h)]

/-- Before the largest serial, the next one is greater. -/
theorem lt_setHostText {data : ClipboardData} (h : data.serial ≠ 0xFFFFFFFF) (text : List UInt8) :
    data.serial < (data.setHostText text).1 := by
  have hnat : data.serial.toNat ≠ 4294967295 := fun heq => h (UInt32.toNat_inj.1 heq)
  have hlt := data.serial.toNat_lt
  have hsucc : (data.serial + 1).toNat = data.serial.toNat + 1 := by
    rw [UInt32.toNat_add, Nat.mod_eq_of_lt]
    · rfl
    · change data.serial.toNat + 1 < _
      omega
  have hmax : (data.setHostText text).1 = data.serial + 1 := by
    have hle : (1 : UInt32) ≤ data.serial + 1 := by
      rw [UInt32.le_iff_toNat_le, hsucc]
      exact Nat.le_add_left _ _
    change max (data.serial + 1) 1 = _
    change (if data.serial + 1 ≤ 1 then 1 else data.serial + 1) = _
    split
    · next h1 => exact UInt32.le_antisymm hle h1
    · rfl
  rw [hmax, UInt32.lt_iff_toNat_lt, hsucc]
  exact Nat.lt_succ_self _

theorem setHostText_full {data : ClipboardData} (h : data.serial = 0xFFFFFFFF) (text : List UInt8) :
    (data.setHostText text).1 = 1 := by
  unfold ClipboardData.setHostText
  rw [h]
  rfl

/-- A grab of the guest: a newer serial is taken, another one is not. -/
theorem grab_cases (data : ClipboardData) (selection serial : UInt32) (mimes : List String) :
    (∃ message, data.grab selection serial mimes = (.error message, data)) ∨
      ∃ event data', data.grab selection serial mimes = (.ok event, data') ∧
        (serial ≤ data.serial ∧ data' = data ∨ data.serial < serial ∧ data'.serial = serial) := by
  unfold ClipboardData.grab
  by_cases hselection : 2 < selection
  · rw [if_pos hselection]
    exact Or.inl ⟨_, rfl⟩
  · rw [if_neg hselection]
    unfold ClipboardData.acceptGuestSerial
    by_cases hold : serial ≤ data.serial
    · rw [if_pos hold]
      exact Or.inr ⟨_, _, rfl, Or.inl ⟨hold, rfl⟩⟩
    · rw [if_neg hold]
      exact Or.inr ⟨_, _, rfl, Or.inr ⟨UInt32.not_le.1 hold, rfl⟩⟩

/-- What a step does: a grab of the host, nothing, an old or a new grab of the guest, or a new
session. -/
theorem step_cases (s : ClipboardSession) (op : ClipboardOp) :
    (∃ text, op = .set text ∧ text.length ≤ maxClipboardBytes ∧
      s.step op = ⟨(s.data.setHostText text).2, (s.data.setHostText text).1 :: s.seen⟩) ∨
    s.step op = s ∨
    (∃ serial, serial ≤ s.data.serial ∧ s.step op = ⟨s.data, serial :: s.seen⟩) ∨
    (∃ serial data, s.data.serial < serial ∧ data.serial = serial ∧
      s.step op = ⟨data, serial :: s.seen⟩) ∨
    s.step op = {} := by
  cases op with
  | set text =>
    simp only [ClipboardSession.step]
    by_cases hlength : text.length ≤ maxClipboardBytes
    · rw [setClipboard_eq hlength]
      exact Or.inl ⟨text, rfl, hlength, rfl⟩
    · unfold ClipboardData.setClipboard
      rw [if_pos (Nat.not_le.1 hlength)]
      exact Or.inr (Or.inl rfl)
  | grab selection serial mimes =>
    simp only [ClipboardSession.step]
    rcases grab_cases s.data selection serial mimes with
      ⟨message, heq⟩ | ⟨event, data, heq, ⟨hle, rfl⟩ | ⟨hlt, hserial⟩⟩
    · rw [heq]
      exact Or.inr (Or.inl rfl)
    · rw [heq]
      exact Or.inr (Or.inr (Or.inl ⟨serial, hle, rfl⟩))
    · rw [heq]
      exact Or.inr (Or.inr (Or.inr (Or.inl ⟨serial, data, hlt, hserial, rfl⟩)))
  | release selection =>
    have hdata : (s.data.release selection).2 = s.data := by
      unfold ClipboardData.release
      split <;> rfl
    simp only [ClipboardSession.step]
    rw [hdata]
    exact Or.inr (Or.inl rfl)
  | register => exact Or.inr (Or.inr (Or.inr (Or.inr rfl)))
  | unregister => exact Or.inr (Or.inr (Or.inr (Or.inr rfl)))

theorem known_step (h : s.Known) (op : ClipboardOp) : (s.step op).Known := by
  rcases step_cases s op with ⟨text, -, -, heq⟩ | heq | ⟨serial, hle, heq⟩ |
    ⟨serial, data, -, hserial, heq⟩ | heq <;> rw [heq]
  · exact Or.inl mem_cons_self
  · exact h
  · rcases h with h | ⟨hzero, -⟩
    · exact Or.inl (mem_cons_of_mem serial h)
    · -- The only serial that is not newer than none is none.
      refine Or.inl (mem_cons.2 (Or.inl ?_))
      rw [hzero] at hle
      exact hzero.trans (UInt32.le_antisymm UInt32.zero_le hle)
  · exact Or.inl (mem_cons.2 (Or.inl hserial))
  · exact Or.inr ⟨rfl, rfl⟩

/-- The newest serial stays the newest, unless a grab of the host comes after the largest one. -/
theorem newest_step (h : s.Newest) (op : ClipboardOp)
    (hop : ∀ text, op = .set text → text.length ≤ maxClipboardBytes →
      s.data.serial ≠ 0xFFFFFFFF) : (s.step op).Newest := by
  rcases step_cases s op with ⟨text, hset, hlength, heq⟩ | heq | ⟨serial, hle, heq⟩ |
    ⟨serial, data, hlt, hserial, heq⟩ | heq <;> rw [heq]
  · have hlt := lt_setHostText (hop text hset hlength) text
    intro n hn
    rcases mem_cons.1 hn with rfl | hn
    · exact UInt32.le_refl _
    · exact UInt32.le_trans (h n hn) (UInt32.le_of_lt hlt)
  · exact h
  · intro n hn
    rcases mem_cons.1 hn with rfl | hn
    · exact hle
    · exact h n hn
  · intro n hn
    change n ≤ data.serial
    rw [hserial]
    rcases mem_cons.1 hn with rfl | hn
    · exact UInt32.le_refl _
    · exact UInt32.le_trans (h n hn) (UInt32.le_of_lt hlt)
  · exact nofun

end Steps

theorem known_run (ops : List ClipboardOp) : (ClipboardSession.run {} ops).Known := by
  induction ops using List.reverseRecOn with
  | nil => exact Or.inr ⟨rfl, rfl⟩
  | append_singleton front op ih =>
    rw [ClipboardSession.run_append]
    exact known_step ih op

theorem newest_run (ops : List ClipboardOp) (h : NeverFull ops) :
    (ClipboardSession.run {} ops).Newest := by
  induction ops using List.reverseRecOn with
  | nil => exact nofun
  | append_singleton front op ih =>
    have hfront : NeverFull front := by
      intro before text back heq hlength
      exact h before text (back ++ [op]) (by rw [heq]; simp) hlength
    rw [ClipboardSession.run_append]
    refine newest_step (ih hfront) op fun text hop hlength => ?_
    exact h front text [] (by rw [hop]) hlength

/-- The grabs of the host are newer than all before them in the session, exactly where none of them
comes after the largest serial. -/
theorem clipboard_serials (ops : List ClipboardOp) : Fresh ops ↔ NeverFull ops := by
  constructor
  · intro h front text back heq hlength hfull
    have hfresh := h front text back heq hlength
    rw [setHostText_full hfull] at hfresh
    rcases known_run front with hseen | ⟨hzero, -⟩
    · have hlt := hfresh _ hseen
      rw [hfull] at hlt
      exact absurd hlt (by decide)
    · rw [hfull] at hzero
      exact absurd hzero (by decide)
  · intro h front text back heq hlength n hn
    have hfront : NeverFull front := by
      intro before text' back' heq' hlength'
      exact h before text' (back' ++ .set text :: back) (by rw [heq, heq']; simp) hlength'
    exact UInt32.lt_of_le_of_lt (newest_run front hfront n hn)
      (lt_setHostText (h front text back heq hlength) text)

/-- After a grab of the guest with the largest serial, the host takes the first one. -/
theorem not_clipboard_serials : ¬∀ ops, Fresh ops := by
  intro h
  have hfresh := h [.grab 0 0xFFFFFFFF [clipboardMime], .set []] [.grab 0 0xFFFFFFFF [clipboardMime]]
    [] [] rfl (by decide)
  exact absurd (hfresh 0xFFFFFFFF (by decide)) (by decide)

end MachineEmu.Display
