import Mathlib.Algebra.Group.Int.Defs
import Mathlib.Data.List.Induction
import MachineEmu.Lib.SortedMap

/-!
# JSON values

The values of a JSON document with integer numbers. The fields of an object are kept in the order
of their names, so that equal objects are equal values.

* `Json.field`, `Json.setField`, `Json.removeField` — the fields of an object.
* `Json.asStr`, `Json.asArr`, `Json.asBool`, `Json.asI64`, `Json.asU64` — the projections.
* `Json.render` — the compact text of a value.
-/

namespace Lib

open List

inductive Json where
  | null
  | bool (b : Bool)
  | num (n : Int)
  | str (s : String)
  | arr (items : List Json)
  | obj (fields : List (String × Json))

namespace Json

instance : Inhabited Json := ⟨null⟩

/-- The value of a field of an object. -/
def field (j : Json) (name : String) : Option Json :=
  match j with
  | obj fields => (fields.find? fun e => e.1 = name).map Prod.snd
  | _ => none

/-- The text of a string value. -/
def asStr : Json → Option String
  | str s => some s
  | _ => none

/-- The items of an array. -/
def asArr : Json → Option (List Json)
  | arr items => some items
  | _ => none

/-- Whether the value is an object. -/
def isObj : Json → Bool
  | obj _ => true
  | _ => false

/-- Bind a field of an object. -/
def setField (j : Json) (name : String) (value : Json) : Json :=
  match j with
  | obj fields => obj (SortedMap.insertInto name value fields)
  | _ => j

/-- The object with the fields. -/
def ofFields (fields : List (String × Json)) : Json :=
  fields.foldl (fun j field => j.setField field.1 field.2) (obj [])

/-- `as_bool`. -/
def asBool : Json → Option Bool
  | bool b => some b
  | _ => none

/-- `as_i64`: an integer of 64 bits with a sign. -/
def asI64 : Json → Option Int
  | num n => if -2 ^ 63 ≤ n ∧ n < 2 ^ 63 then some n else none
  | _ => none

/-- `as_u64`: an integer of 64 bits without a sign. -/
def asU64 : Json → Option Nat
  | num n => if 0 ≤ n ∧ n < 2 ^ 64 then some n.toNat else none
  | _ => none

/-- `as_object`. -/
def asObj : Json → Option (List (String × Json))
  | obj fields => some fields
  | _ => none

/-- Remove a field of an object. -/
def removeField (j : Json) (name : String) : Json :=
  match j with
  | obj fields => obj (fields.filter fun e => e.1 ≠ name)
  | _ => j

@[simp] theorem field_obj_insertInto (fields : List (String × Json)) (k j : String) (v : Json) :
    (obj (SortedMap.insertInto k v fields)).field j = if j = k then some v else (obj fields).field j :=
  SortedMap.find?_insertInto k j v fields

@[simp] theorem isObj_setField (j : Json) (name : String) (value : Json) :
    (j.setField name value).isObj = j.isObj := by
  cases j <;> rfl

@[simp] theorem isObj_obj (fields : List (String × Json)) : (obj fields).isObj = true := rfl

theorem field_setField {j : Json} (h : j.isObj = true) (name other : String) (value : Json) :
    (j.setField name value).field other = if other = name then some value else j.field other := by
  cases j with
  | obj fields => exact SortedMap.find?_insertInto name other value fields
  | _ => cases h

theorem isObj_of_field {j value : Json} {name : String} (h : j.field name = some value) :
    j.isObj = true := by
  cases j with
  | obj fields => rfl
  | _ => cases h

/-- Another field stays. -/
theorem field_setField_ne (j : Json) {name other : String} (h : other ≠ name) (value : Json) :
    (j.setField name value).field other = j.field other := by
  cases hj : j.isObj with
  | true => rw [field_setField hj, if_neg h]
  | false =>
    cases j with
    | obj fields => cases hj
    | _ => rfl

theorem field_setField_self {j : Json} (h : j.isObj = true) (name : String) (value : Json) :
    (j.setField name value).field name = some value := by
  rw [field_setField h, if_pos rfl]

variable {fields : List (String × Json)}

/-- A field is one of the members of its object. -/
theorem mem_of_field {k : String} {v : Json}
    (h : (obj fields).field k = some v) : (k, v) ∈ fields := by
  obtain ⟨e, he, rfl⟩ := Option.map_eq_some_iff.1 h
  have hkey := List.find?_some he
  simp only [decide_eq_true_eq] at hkey
  rw [← hkey]
  exact mem_of_find?_eq_some he

/-- A member of an object whose names are in their order is what its field holds. -/
theorem field_of_mem (h : fields.Pairwise fun a b => a.1 < b.1)
    {e : String × Json} (he : e ∈ fields) : (obj fields).field e.1 = some e.2 := by
  induction fields with
  | nil => cases he
  | cons f rest ih =>
    obtain ⟨hfirst, hrest⟩ := pairwise_cons.1 h
    unfold field at ih ⊢
    rcases mem_cons.1 he with rfl | he
    · simp
    · have hne : f.1 ≠ e.1 := (hfirst e he).ne
      simp only [List.find?_cons, hne, decide_false]
      exact ih hrest he

theorem ofFields_concat (fields : List (String × Json)) (e : String × Json) :
    ofFields (fields ++ [e]) = (ofFields fields).setField e.1 e.2 := by
  unfold ofFields
  rw [foldl_append]
  rfl

@[simp] theorem isObj_ofFields (fields : List (String × Json)) : (ofFields fields).isObj = true := by
  induction fields using List.reverseRec with
  | nil => rfl
  | append_singleton fields e ih => rw [ofFields_concat, isObj_setField, ih]

/-- The last one of the fields with a name counts. -/
theorem field_ofFields (fields : List (String × Json)) (name : String) :
    (ofFields fields).field name = (fields.reverse.find? fun e => e.1 = name).map Prod.snd := by
  induction fields using List.reverseRec with
  | nil => rfl
  | append_singleton fields e ih =>
    rw [ofFields_concat, field_setField (isObj_ofFields fields), reverse_append, ih]
    by_cases h : name = e.1
    · simp [h]
    · simp [h, Ne.symm h]

/-- The members of the object are among the fields. -/
theorem mem_of_mem_ofFields {members : List (String × Json)} {e : String × Json}
    (h : ofFields fields = obj members) (he : e ∈ members) : e ∈ fields := by
  induction fields using List.reverseRec generalizing members with
  | nil =>
    obtain rfl := obj.inj h
    exact he
  | append_singleton fields f ih =>
    rw [ofFields_concat] at h
    cases hfields : ofFields fields with
    | obj earlier =>
      rw [hfields] at h
      obtain rfl := obj.inj h
      rcases SortedMap.mem_insertInto he with rfl | he
      · exact mem_append_right _ (mem_singleton_self _)
      · exact mem_append_left _ (ih hfields he)
    | _ =>
      have hobj := isObj_ofFields fields
      rw [hfields] at hobj
      cases hobj

/-- Induction over a value with the members of its arrays and objects. -/
theorem induct {P : Json → Prop} (null : P null) (bool : ∀ b, P (bool b)) (num : ∀ n, P (num n))
    (str : ∀ s, P (str s)) (arr : ∀ items, (∀ v ∈ items, P v) → P (arr items))
    (obj : ∀ fields, (∀ e ∈ fields, P e.2) → P (obj fields)) (v : Json) : P v := by
  refine @Json.rec P (fun items => ∀ v ∈ items, P v) (fun fields => ∀ e ∈ fields, P e.2)
    (fun e => P e.2) null bool num str arr obj ?_ ?_ ?_ ?_ ?_ v
  · exact nofun
  · intro head tail hhead htail v hv
    rcases mem_cons.1 hv with rfl | hv
    · exact hhead
    · exact htail v hv
  · exact nofun
  · intro head tail hhead htail e he
    rcases mem_cons.1 he with rfl | he
    · exact hhead
    · exact htail e he
  · exact fun _ _ h => h

mutual

/-- The names of the fields of every object are in their order, so each is there once. -/
def Ordered : Json → Prop
  | arr items => OrderedItems items
  | obj fields => (fields.Pairwise fun a b => a.1 < b.1) ∧ OrderedFields fields
  | _ => True

def OrderedItems : List Json → Prop
  | [] => True
  | v :: rest => Ordered v ∧ OrderedItems rest

def OrderedFields : List (String × Json) → Prop
  | [] => True
  | e :: rest => OrderedField e ∧ OrderedFields rest

def OrderedField : String × Json → Prop
  | (_, v) => Ordered v

end

theorem orderedItems_iff {items : List Json} : OrderedItems items ↔ ∀ v ∈ items, Ordered v := by
  induction items with
  | nil => simp [OrderedItems]
  | cons v rest ih => simp [OrderedItems, ih]

theorem orderedFields_iff : OrderedFields fields ↔ ∀ e ∈ fields, Ordered e.2 := by
  induction fields with
  | nil => simp [OrderedFields]
  | cons e rest ih =>
    obtain ⟨k, v⟩ := e
    simp only [OrderedFields, OrderedField, ih, forall_mem_cons]

/-! ## Text -/

/-- A hexadecimal digit. -/
def hexDigit (n : Nat) : Char := if n < 10 then Char.ofNat (48 + n) else Char.ofNat (87 + n)

/-- The characters of a string value that stand for one character. -/
def escape (c : Char) : List Char :=
  if c = '"' then ['\\', '"']
  else if c = '\\' then ['\\', '\\']
  else if c = '\n' then ['\\', 'n']
  else if c = '\r' then ['\\', 'r']
  else if c = '\t' then ['\\', 't']
  else if c.toNat = 8 then ['\\', 'b']
  else if c.toNat = 12 then ['\\', 'f']
  else if c.toNat < 32 then
    ['\\', 'u', '0', '0', hexDigit (c.toNat / 16), hexDigit (c.toNat % 16)]
  else [c]

/-- A string value. -/
def quote (s : String) : String := String.ofList ('"' :: s.toList.flatMap escape ++ ['"'])

mutual

/-- The compact text of a value. -/
def render : Json → String
  | null => "null"
  | bool b => if b then "true" else "false"
  | num n => toString n
  | str s => quote s
  | arr items => "[" ++ String.intercalate "," (renderItems items) ++ "]"
  | obj fields => "\x7b" ++ String.intercalate "," (renderFields fields) ++ "\x7d"

def renderItems : List Json → List String
  | [] => []
  | j :: rest => render j :: renderItems rest

def renderFields : List (String × Json) → List String
  | [] => []
  | e :: rest => renderField e :: renderFields rest

def renderField : String × Json → String
  | (name, j) => quote name ++ ":" ++ render j

end

end Json

end Lib
