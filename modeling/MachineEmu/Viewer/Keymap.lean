import Mathlib.Data.Nat.Notation

/-!
# Physical keys and the codes of QEMU

QEMU takes a qnum: the scan code of set 1, with `0x80` added for the keys with the prefix `0xE0`.

* `KeyCode` — the physical keys that have a qnum, and all others as one.
* `qnum` — the code of a key.
-/

namespace MachineEmu.Viewer

/-- The physical keys of `winit`. -/
inductive KeyCode where
  | escape | digit1 | digit2 | digit3 | digit4 | digit5 | digit6 | digit7 | digit8 | digit9
  | digit0 | minus | equal | backspace | tab | keyQ | keyW | keyE | keyR | keyT | keyY | keyU
  | keyI | keyO | keyP | bracketLeft | bracketRight | enter | controlLeft | keyA | keyS | keyD
  | keyF | keyG | keyH | keyJ | keyK | keyL | semicolon | quote | backquote | shiftLeft
  | backslash | keyZ | keyX | keyC | keyV | keyB | keyN | keyM | comma | period | slash
  | shiftRight | numpadMultiply | altLeft | space | capsLock | f1 | f2 | f3 | f4 | f5 | f6 | f7
  | f8 | f9 | f10 | numLock | scrollLock | numpad7 | numpad8 | numpad9 | numpadSubtract | numpad4
  | numpad5 | numpad6 | numpadAdd | numpad1 | numpad2 | numpad3 | numpad0 | numpadDecimal
  | intlBackslash | f11 | f12 | numpadEqual | kanaMode | intlRo | convert | nonConvert | intlYen
  | numpadComma | mediaTrackPrevious | mediaTrackNext | numpadEnter | controlRight
  | audioVolumeMute | mediaPlayPause | mediaStop | audioVolumeDown | audioVolumeUp | numpadDivide
  | printScreen | altRight | pause | home | arrowUp | pageUp | arrowLeft | arrowRight | endKey
  | arrowDown | pageDown | insert | delete | superLeft | superRight | contextMenu | power | sleep
  | wakeUp
  | other
  deriving DecidableEq

/-- Source: `machineemu-viewer/src/keymap.rs` `qnum`. -/
def qnum : KeyCode → Option UInt32
  | .escape => some 0x01
  | .digit1 => some 0x02
  | .digit2 => some 0x03
  | .digit3 => some 0x04
  | .digit4 => some 0x05
  | .digit5 => some 0x06
  | .digit6 => some 0x07
  | .digit7 => some 0x08
  | .digit8 => some 0x09
  | .digit9 => some 0x0a
  | .digit0 => some 0x0b
  | .minus => some 0x0c
  | .equal => some 0x0d
  | .backspace => some 0x0e
  | .tab => some 0x0f
  | .keyQ => some 0x10
  | .keyW => some 0x11
  | .keyE => some 0x12
  | .keyR => some 0x13
  | .keyT => some 0x14
  | .keyY => some 0x15
  | .keyU => some 0x16
  | .keyI => some 0x17
  | .keyO => some 0x18
  | .keyP => some 0x19
  | .bracketLeft => some 0x1a
  | .bracketRight => some 0x1b
  | .enter => some 0x1c
  | .controlLeft => some 0x1d
  | .keyA => some 0x1e
  | .keyS => some 0x1f
  | .keyD => some 0x20
  | .keyF => some 0x21
  | .keyG => some 0x22
  | .keyH => some 0x23
  | .keyJ => some 0x24
  | .keyK => some 0x25
  | .keyL => some 0x26
  | .semicolon => some 0x27
  | .quote => some 0x28
  | .backquote => some 0x29
  | .shiftLeft => some 0x2a
  | .backslash => some 0x2b
  | .keyZ => some 0x2c
  | .keyX => some 0x2d
  | .keyC => some 0x2e
  | .keyV => some 0x2f
  | .keyB => some 0x30
  | .keyN => some 0x31
  | .keyM => some 0x32
  | .comma => some 0x33
  | .period => some 0x34
  | .slash => some 0x35
  | .shiftRight => some 0x36
  | .numpadMultiply => some 0x37
  | .altLeft => some 0x38
  | .space => some 0x39
  | .capsLock => some 0x3a
  | .f1 => some 0x3b
  | .f2 => some 0x3c
  | .f3 => some 0x3d
  | .f4 => some 0x3e
  | .f5 => some 0x3f
  | .f6 => some 0x40
  | .f7 => some 0x41
  | .f8 => some 0x42
  | .f9 => some 0x43
  | .f10 => some 0x44
  | .numLock => some 0x45
  | .scrollLock => some 0x46
  | .numpad7 => some 0x47
  | .numpad8 => some 0x48
  | .numpad9 => some 0x49
  | .numpadSubtract => some 0x4a
  | .numpad4 => some 0x4b
  | .numpad5 => some 0x4c
  | .numpad6 => some 0x4d
  | .numpadAdd => some 0x4e
  | .numpad1 => some 0x4f
  | .numpad2 => some 0x50
  | .numpad3 => some 0x51
  | .numpad0 => some 0x52
  | .numpadDecimal => some 0x53
  | .intlBackslash => some 0x56
  | .f11 => some 0x57
  | .f12 => some 0x58
  | .numpadEqual => some 0x59
  | .kanaMode => some 0x70
  | .intlRo => some 0x73
  | .convert => some 0x79
  | .nonConvert => some 0x7b
  | .intlYen => some 0x7d
  | .numpadComma => some 0x7e
  | .mediaTrackPrevious => some 0x90
  | .mediaTrackNext => some 0x99
  | .numpadEnter => some 0x9c
  | .controlRight => some 0x9d
  | .audioVolumeMute => some 0xa0
  | .mediaPlayPause => some 0xa2
  | .mediaStop => some 0xa4
  | .audioVolumeDown => some 0xae
  | .audioVolumeUp => some 0xb0
  | .numpadDivide => some 0xb5
  | .printScreen => some 0xb7
  | .altRight => some 0xb8
  | .pause => some 0xc6
  | .home => some 0xc7
  | .arrowUp => some 0xc8
  | .pageUp => some 0xc9
  | .arrowLeft => some 0xcb
  | .arrowRight => some 0xcd
  | .endKey => some 0xcf
  | .arrowDown => some 0xd0
  | .pageDown => some 0xd1
  | .insert => some 0xd2
  | .delete => some 0xd3
  | .superLeft => some 0xdb
  | .superRight => some 0xdc
  | .contextMenu => some 0xdd
  | .power => some 0xde
  | .sleep => some 0xdf
  | .wakeUp => some 0xe3
  | .other => none

end MachineEmu.Viewer
