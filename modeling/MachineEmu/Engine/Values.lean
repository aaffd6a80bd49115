import MachineEmu.Domain
import MachineEmu.Lib.Json
import MachineEmu.Lib.Sha256
import Mathlib.Data.List.Infix

/-!
# Values of the launch planner

The planner reads a profile, which is JSON, and writes texts: the arguments of QEMU.

* `object`, `string`, `number`, `positiveInt` — the readers, with their messages.
* `splitAt`, `escapeProp`, `joinPath` — texts.
* `Plans` — what the planner returns, or its message; `bind_eq_ok`, `ensure_eq_ok`, … — how a step
  of it succeeds.
-/

namespace MachineEmu.Planner

open Lib

/-- A result of the planner, or the text of `Error::Invalid`. -/
abbrev Plans := Except String

/-- Source: `engine/plan.rs` `invalid`. -/
def invalid {α : Type} (message : String) : Plans α := .error message

/-- `ok_or_else`. -/
def orInvalid {α : Type} (value : Option α) (message : String) : Plans α :=
  match value with
  | some a => .ok a
  | none => .error message

/-- A check with its message. -/
def ensure (condition : Bool) (message : String) : Plans Unit :=
  if condition then .ok () else .error message

/-- The fields of an object; other values have none. Source: `engine/plan.rs` `object`. -/
def object (v : Json) (name : String) : Plans Json :=
  ensure v.isObj (name ++ " must be a mapping") *> .ok v

/-- The names of the fields. -/
def keys : Json → List String
  | .obj fields => fields.map Prod.fst
  | _ => []

/-- Source: `engine/plan.rs` `string`. -/
def string (v : Json) (key : String) : Plans String :=
  orInvalid (((v.field key).bind Json.asStr).filter (· ≠ "")) (key ++ " must be a non-empty string")

/-- Source: `engine/plan.rs` `number`. -/
def number (v : Json) (key : String) : Plans Int :=
  orInvalid ((v.field key).bind Json.asI64) (key ++ " must be an integer")

/-- Source: `engine/plan.rs` `positive_int`. -/
def positiveInt (v : Json) (key : String) : Plans Int :=
  orInvalid (v.asI64.filter (1 ≤ ·)) (key ++ " must be a positive integer")

/-! ## Texts -/

/-- The text of a field. -/
def text (v : Json) (key : String) : Option String := (v.field key).bind Json.asStr

/-- The truth value of a field. -/
def flag (v : Json) (key : String) : Option Bool := (v.field key).bind Json.asBool

/-- `split`. -/
def splitAt (c : Char) (s : String) : List String := (s.toList.splitOn c).map String.ofList

/-- `join`. -/
def joinWith (separator : String) (parts : List String) : String :=
  separator.intercalate parts

/-- A comma is the option separator, so it is doubled. Source: `engine/plan.rs` `escape_prop`. -/
def escapeProp (value : String) : String :=
  String.ofList (value.toList.flatMap fun c => if c = ',' then [',', ','] else [c])

/-- `Path::is_absolute`. -/
def isAbsolute (path : String) : Bool := path.toList.head? = some '/'

/-- `Path::join`. -/
def joinPath (base path : String) : String :=
  if isAbsolute path ∨ base = "" then path
  else if base.toList.getLast? = some '/' then base ++ path
  else base ++ "/" ++ path

/-- Whether a text contains another. -/
def contains (s part : String) : Bool := part.toList <:+: s.toList

/-- `starts_with`. -/
def startsWith (s start : String) : Bool := start.toList <+: s.toList

/-- `to_ascii_lowercase`. -/
def lowercase (s : String) : String := String.ofList (s.toList.map Char.toLower)

/-- `is_ascii_alphanumeric`. -/
def isAlphanumeric (c : Char) : Bool :=
  ('0' ≤ c && c ≤ '9') || ('a' ≤ c && c ≤ 'z') || ('A' ≤ c && c ≤ 'Z')

/-- The value of hexadecimal digits, the first the highest. -/
def hexValue (digits : List Char) : Nat :=
  digits.foldl (fun n c =>
    16 * n + (if c.toNat ≤ 57 then c.toNat - 48
      else if c.toNat ≤ 70 then c.toNat - 55 else c.toNat - 87)) 0

/-- A field, if it is there, in an option list: `,name=value`. -/
def option (name : String) (value : Option String) : String :=
  match value with
  | some value => "," ++ name ++ "=" ++ value
  | none => ""

/-! ## Steps that succeed -/

section Steps

variable {α β : Type}

theorem bind_eq_ok {x : Plans α} {f : α → Plans β} {b : β} :
    (x >>= f) = .ok b ↔ ∃ a, x = .ok a ∧ f a = .ok b := by
  cases x with
  | error e => simp [bind, Except.bind]
  | ok a => simp [bind, Except.bind]

theorem map_eq_ok {x : Plans α} {f : α → β} {b : β} :
    (f <$> x) = .ok b ↔ ∃ a, x = .ok a ∧ f a = b := by
  cases x with
  | error e => simp [Functor.map, Except.map]
  | ok a => simp [Functor.map, Except.map]

@[simp] theorem invalid_ne_ok {message : String} {a : α} : invalid message ≠ .ok a := by
  intro h
  cases h

@[simp] theorem orInvalid_eq_ok {value : Option α} {message : String} {a : α} :
    orInvalid value message = .ok a ↔ value = some a := by
  unfold orInvalid
  cases value with
  | none => simp
  | some a' => simp

@[simp] theorem ensure_eq_ok {condition : Bool} {message : String} {u : Unit} :
    ensure condition message = .ok u ↔ condition = true := by
  unfold ensure
  cases condition <;> simp

@[simp] theorem object_eq_ok {v a : Json} {name : String} :
    object v name = .ok a ↔ v.isObj = true ∧ a = v := by
  unfold object
  cases v.isObj <;> simp [ensure, SeqRight.seqRight, Except.bind, eq_comm]

theorem string_eq_ok {v : Json} {key s : String} :
    string v key = .ok s ↔ text v key = some s ∧ s ≠ "" := by
  unfold string text
  rw [orInvalid_eq_ok, Option.filter_eq_some_iff]
  simp

end Steps

end MachineEmu.Planner
