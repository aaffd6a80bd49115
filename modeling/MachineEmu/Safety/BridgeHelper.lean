import MachineEmu.Api.Render
import MachineEmu.Engine.Sections
import MachineEmu.Lib.OptionList

/-!
# The bridge helper

When a plan is started, the helper of the daemon is written into its bridge backends, field by field
of their texts. QEMU reads the options of a backend, where a doubled comma is part of a value.

1. What the text of a backend becomes: `exists_slot`.
2. When the backend names the helper, once, with its other options unchanged: `takes_iff`.
3. What a plan's vector becomes: `options_injectHelpers`.
4. When every bridge backend of a plan names the helper: `injected_plan`.
-/

namespace MachineEmu.Planner

open Lib List

/-! ## The text of a backend -/

/-- The name of the option. -/
def helperName : List Char := "helper".toList

/-- The beginning of the fields that name a helper. -/
def helperKey : List Char := "helper=".toList

/-- No field of the text names a helper. -/
def Fresh (text : List Char) : Prop := ∀ field ∈ text.splitOn ',', ¬ helperKey <+: field

/-- The first field that names a helper: the text before it, the helper and the text after it. -/
structure FirstHelper (text front named back : List Char) : Prop where
  eq : text = front ++ (helperKey ++ named ++ back)
  field : AtField front
  fresh : Fresh front
  plain : ',' ∉ named
  closed : back = [] ∨ back.head? = some ','

/-- Where the helper is written into a text: in place of the first that it names, or after it. -/
structure Slot (text front back : List Char) : Prop where
  field : AtField front
  fresh : Fresh front
  closed : back = [] ∨ back.head? = some ','
  written : ∀ helper value : String, value.toList = text →
    (injectHelper helper value).toList = front ++ (helperKey ++ helper.toList ++ back)
  cases : (∃ named, FirstHelper text front named back) ∨
    (Fresh text ∧ front = text ++ [','] ∧ back = [])

theorem startsWith_helper {field : List Char} :
    startsWith (String.ofList field) "helper=" = true ↔ helperKey <+: field := by
  simp [startsWith, helperKey]

theorem withHelper_ne_nil (helper : String) (fields : List String) :
    withHelper helper fields ≠ [] := by
  cases fields with
  | nil => simp [withHelper]
  | cons field fields =>
    unfold withHelper
    split <;> simp

/-- A slot, in terms of the fields of a text. -/
structure FieldSlot (fields : List (List Char)) (front back : List Char) : Prop where
  field : AtField front
  fresh : Fresh front
  closed : back = [] ∨ back.head? = some ','
  written : ∀ helper : String,
    (joinWith "," (withHelper helper (fields.map String.ofList))).toList =
      front ++ (helperKey ++ helper.toList ++ back)
  cases : (∃ named, ',' ∉ named ∧
      [','].intercalate fields = front ++ (helperKey ++ named ++ back)) ∨
    ((∀ field ∈ fields, ¬ helperKey <+: field) ∧ front = [','].intercalate fields ++ [','] ∧
      back = [])

/-- A field that names a helper is the slot. -/
theorem fieldSlot_named (named : List Char) (fields : List (List Char)) (h : ',' ∉ named) :
    FieldSlot ((helperKey ++ named) :: fields) []
      (if fields = [] then [] else ',' :: [','].intercalate fields) := by
  have hstarts : startsWith (String.ofList (helperKey ++ named)) "helper=" = true :=
    startsWith_helper.2 (prefix_append _ _)
  refine ⟨.inl rfl, by simp [Fresh, helperKey], ?_, fun helper => ?_, .inl ⟨named, h, ?_⟩⟩
  · split <;> simp
  · rw [map_cons, withHelper, if_pos hstarts]
    cases fields with
    | nil => simp [joinWith, helperKey]
    | cons field fields => simp [joinWith, helperKey, Function.comp_def]
  · cases fields with
    | nil => simp
    | cons field fields => simp

variable {back front : List Char}

/-- Another field stays in front of the slot. -/
theorem FieldSlot.cons {fields : List (List Char)}
    (h : FieldSlot fields front back) {field : List Char} (hcomma : ',' ∉ field)
    (hfield : ¬ helperKey <+: field) (hne : fields ≠ []) :
    FieldSlot (field :: fields) (field ++ ',' :: front) back := by
  have hstarts : ¬ startsWith (String.ofList field) "helper=" = true :=
    fun hstarts => hfield (startsWith_helper.1 hstarts)
  refine ⟨.inr ?_, ?_, h.closed, fun helper => ?_, ?_⟩
  · rcases h.field with rfl | hlast
    · simp
    · rw [List.getLast?_append, List.getLast?_cons, hlast]
      simp
  · intro other hother
    rw [splitOn_append_cons_self_of_not_mem hcomma] at hother
    rcases mem_cons.1 hother with rfl | hother
    · exact hfield
    · exact h.fresh other hother
  · rw [map_cons, withHelper, if_neg hstarts, joinWith,
      String.intercalate_cons_of_ne_nil (withHelper_ne_nil _ _), String.toList_append,
      String.toList_append, ← joinWith, h.written]
    simp
  · rw [intercalate_cons_of_ne_nil hne]
    rcases h.cases with ⟨named, hnamed, heq⟩ | ⟨hfresh, hfront, hback⟩
    · exact .inl ⟨named, hnamed, by rw [heq]; simp⟩
    · refine .inr ⟨fun other hother => ?_, by rw [hfront]; simp, hback⟩
      rcases mem_cons.1 hother with rfl | hother
      · exact hfield
      · exact hfresh other hother

theorem exists_fieldSlot (fields : List (List Char)) (hne : fields ≠ [])
    (hcomma : ∀ field ∈ fields, ',' ∉ field) : ∃ front back, FieldSlot fields front back := by
  induction fields with
  | nil => exact absurd rfl hne
  | cons field fields ih =>
    have hfirst := hcomma field mem_cons_self
    by_cases hfield : helperKey <+: field
    · obtain ⟨named, rfl⟩ := hfield
      have hnamed : ',' ∉ named := fun hmem => hfirst (mem_append_right _ hmem)
      exact ⟨_, _, fieldSlot_named named fields hnamed⟩
    · by_cases hrest : fields = []
      · subst hrest
        -- the helper is added after the last field
        refine ⟨field ++ [','], [], .inr (by simp), ?_, .inl rfl, fun helper => ?_, .inr ?_⟩
        · intro other hother
          rw [splitOn_append_cons_self_of_not_mem hfirst] at hother
          rcases mem_cons.1 hother with rfl | hother
          · exact hfield
          · obtain rfl : other = [] := by simpa using hother
            simp [helperKey]
        · have hstarts : ¬ startsWith (String.ofList field) "helper=" = true :=
            fun hstarts => hfield (startsWith_helper.1 hstarts)
          simp [withHelper, hstarts, joinWith, helperKey]
        · simpa using hfield
      · obtain ⟨front, back, hslot⟩ :=
          ih hrest fun other hother => hcomma other (mem_cons_of_mem _ hother)
        exact ⟨_, _, hslot.cons hfirst hfield hrest⟩

/-- Each text has a place for the helper. -/
theorem exists_slot (text : List Char) : ∃ front back, Slot text front back := by
  obtain ⟨front, back, hslot⟩ := exists_fieldSlot (text.splitOn ',') (splitOn_ne_nil _ _)
    fun field hfield => notMem_of_mem_splitOn hfield
  have htext : [','].intercalate (text.splitOn ',') = text := intercalate_splitOn ','
  refine ⟨front, back, hslot.field, hslot.fresh, hslot.closed, fun helper value hvalue => ?_, ?_⟩
  · rw [injectHelper, splitAt, hvalue]
    exact hslot.written helper
  · rcases hslot.cases with ⟨named, hnamed, heq⟩ | ⟨hfresh, hfront, hback⟩
    · exact .inl ⟨named, htext.symm.trans heq, hslot.field, hslot.fresh, hnamed, hslot.closed⟩
    · exact .inr ⟨hfresh, by rw [hfront, htext], hback⟩

/-! ## What QEMU reads -/

/-- The backend names the helper, once. -/
def NamesOnce (value helper : String) : Prop :=
  (items value.toList).filter (fun item => item.1 = helperName) =
    [(helperName, some helper.toList)]

/-- The other options of the backend. -/
def otherOptions (value : String) : List Item :=
  (items value.toList).filter fun item => item.1 ≠ helperName

variable {helper value : String} {named : List Char}

/-- The options of a text with one more. -/
theorem namesOnce_iff {front rest : List Item}
    (h : items value.toList = front ++ (helperName, some named) :: rest) :
    NamesOnce value helper ↔ (∀ item ∈ front, item.1 ≠ helperName) ∧
      (∀ item ∈ rest, item.1 ≠ helperName) ∧ named = helper.toList := by
  unfold NamesOnce
  rw [h, filter_append, filter_cons_of_pos (by simp)]
  constructor
  · intro heq
    have hlength := congrArg List.length heq
    simp only [length_append, length_cons, length_nil] at hlength
    have hfront : front.filter (fun item => decide (item.1 = helperName)) = [] :=
      length_eq_zero_iff.1 (by omega)
    have hrest : rest.filter (fun item => decide (item.1 = helperName)) = [] :=
      length_eq_zero_iff.1 (by omega)
    rw [hfront, hrest] at heq
    refine ⟨by simpa using hfront, by simpa using hrest, ?_⟩
    simpa using heq
  · rintro ⟨hfront, hrest, rfl⟩
    rw [filter_eq_nil_iff.2 (by simpa using hfront), filter_eq_nil_iff.2 (by simpa using hrest)]
    rfl

/-- The other options of a text with one that names a helper. -/
theorem otherOptions_eq {front rest : List Item} {named : Option (List Char)}
    (h : items value.toList = front ++ (helperName, named) :: rest) :
    otherOptions value = (front ++ rest).filter fun item => item.1 ≠ helperName := by
  unfold otherOptions
  rw [h, filter_append, filter_cons_of_neg (by simp), filter_append]

/-- The other options of two texts with another option in the same place. -/
theorem otherOptions_eq_iff {value' : String} {front rest rest' : List Item}
    {name : List Char} {a a' : Option (List Char)} (hname : name ≠ helperName)
    (h : items value.toList = front ++ (name, a) :: rest)
    (h' : items value'.toList = front ++ (name, a') :: rest') :
    otherOptions value' = otherOptions value ↔ a' = a ∧
      (rest'.filter fun item => item.1 ≠ helperName) =
        rest.filter fun item => item.1 ≠ helperName := by
  unfold otherOptions
  rw [h, h', filter_append, filter_append, filter_cons_of_pos (by simpa using hname),
    filter_cons_of_pos (by simpa using hname), append_cancel_left_eq, List.cons.injEq]
  simp

/-- The helper is written where the first field that names one is an option of its own, or it is
named there already; without such a field, it is added where no option starts. -/
inductive Takes (helper value : String) : Prop
  | named {front named back : List Char} : FirstHelper value.toList front named back →
      NamesOnce value (String.ofList named) → named = helper.toList ∨ AtOption front →
      Takes helper value
  | added : Fresh value.toList → ¬ AtOption value.toList →
      (∀ item ∈ items value.toList, item.1 ≠ helperName) → Takes helper value

variable {text : List Char}

/-- A text that has no field for a helper has no option of that name with a value. -/
theorem not_opened (h : Fresh text) : ¬ Opened text helperName := by
  intro hopened
  obtain ⟨field, hfield, hkey⟩ := hopened.field (by decide)
  exact h field hfield hkey

theorem helperKey_eq : helperKey = helperName ++ ['='] := rfl

/-- The text before the next comma. -/
theorem append_inj_of_closed {named' back' : List Char} (hnamed : ',' ∉ named)
    (hnamed' : ',' ∉ named') (hback : back = [] ∨ back.head? = some ',')
    (hback' : back' = [] ∨ back'.head? = some ',') (h : named ++ back = named' ++ back') :
    named = named' ∧ back = back' := by
  have htake : ∀ {named back : List Char}, ',' ∉ named → (back = [] ∨ back.head? = some ',') →
      (named ++ back).takeWhile (· ≠ ',') = named := by
    intro named back hnamed hback
    have hall : ∀ c ∈ named, decide (c ≠ ',') = true := by
      rintro c hc
      exact decide_eq_true fun heq => hnamed (heq ▸ hc)
    rw [takeWhile_append_of_pos hall]
    rcases hback with rfl | hback
    · simp
    · obtain ⟨back, rfl⟩ := List.head?_eq_some_iff.1 hback
      simp
  have heq : named = named' := by rw [← htake hnamed hback, h, htake hnamed' hback']
  subst heq
  exact ⟨rfl, append_cancel_left h⟩

/-- The first field that names a helper is the first. -/
theorem FirstHelper.le {front' named' back' : List Char}
    (h : FirstHelper text front named back) (h' : FirstHelper text front' named' back') :
    front'.length ≤ front.length := by
  by_contra hlt
  rcases append_eq_append_iff.1 (h.eq.symm.trans h'.eq) with
    ⟨more, rfl, hmore⟩ | ⟨more, rfl, -⟩
  · have hne : more ≠ [] := by
      rintro rfl
      simp at hlt
    have hlast : more.getLast? = some ',' := by
      rcases h'.field with hnil | hlast
      · simp [hne] at hnil
      · rwa [List.getLast?_append_of_ne_nil _ hne] at hlast
    rcases append_eq_append_iff.1 hmore with ⟨rest, rfl, -⟩ | ⟨rest, hrest, -⟩
    · exact not_opened h'.fresh ⟨front, named ++ rest, by simp [helperKey_eq], h.field⟩
    · have hmem : ',' ∈ helperKey ++ named := by
        rw [hrest]
        exact mem_append_left _ (mem_of_getLast? hlast)
      rcases mem_append.1 hmem with hmem | hmem
      · exact absurd hmem (by decide)
      · exact h.plain hmem
  · simp at hlt

/-- There is one first field. -/
theorem FirstHelper.unique {front' named' back' : List Char}
    (h : FirstHelper text front named back) (h' : FirstHelper text front' named' back') :
    front = front' ∧ named = named' ∧ back = back' := by
  have heq := h.eq.symm.trans h'.eq
  obtain ⟨rfl, hrest⟩ := append_inj heq (Nat.le_antisymm (h'.le h) (h.le h'))
  rw [append_assoc, append_assoc, append_cancel_left_eq] at hrest
  exact ⟨rfl, append_inj_of_closed h.plain h'.plain h.closed h'.closed hrest⟩

theorem FirstHelper.not_fresh (h : FirstHelper text front named back) : ¬ Fresh text := by
  intro hfresh
  exact not_opened hfresh ⟨front, named ++ back, by rw [h.eq, helperKey_eq]; simp, h.field⟩

theorem FirstHelper.takes_iff (h : FirstHelper value.toList front named back) : Takes helper value ↔
      NamesOnce value (String.ofList named) ∧ (named = helper.toList ∨ AtOption front) := by
  constructor
  · rintro (⟨h', honce, hat⟩ | ⟨hfresh, -, -⟩)
    · obtain ⟨rfl, rfl, rfl⟩ := h.unique h'
      exact ⟨honce, hat⟩
    · exact absurd hfresh h.not_fresh
  · rintro ⟨honce, hat⟩
    exact .named h honce hat

theorem takes_iff_of_fresh (h : Fresh value.toList) :
    Takes helper value ↔
      ¬ AtOption value.toList ∧ ∀ item ∈ items value.toList, item.1 ≠ helperName := by
  constructor
  · rintro (⟨h', -, -⟩ | ⟨-, hat, hitems⟩)
    · exact absurd h h'.not_fresh
    · exact ⟨hat, hitems⟩
  · rintro ⟨hat, hitems⟩
    exact .added h hat hitems

/-- The helper in place of the first that is named. -/
theorem injected_named (hcomma : ',' ∉ helper.toList)
    (h : FirstHelper value.toList front named back)
    (hw : (injectHelper helper value).toList = front ++ (helperKey ++ helper.toList ++ back)) :
    NamesOnce (injectHelper helper value) helper ∧
        otherOptions (injectHelper helper value) = otherOptions value ↔
      NamesOnce value (String.ofList named) ∧ (named = helper.toList ∨ AtOption front) := by
  by_cases hat : AtOption front
  · obtain ⟨more, rest, hitems⟩ := items_option hat 'h' "elper".toList (by decide)
      (by decide) back
    have hvalue : items value.toList = items front ++ (helperName, some (named ++ more)) :: rest :=
      h.eq ▸ hitems named h.plain
    have hinjected : items (injectHelper helper value).toList =
        items front ++ (helperName, some (helper.toList ++ more)) :: rest :=
      hw ▸ hitems helper.toList hcomma
    rw [namesOnce_iff hvalue, namesOnce_iff hinjected, otherOptions_eq hvalue,
      otherOptions_eq hinjected]
    simp [hat]
  · obtain ⟨name, start, more, done, rest, hopened, hitems⟩ := items_value h.field hat back
    have hname : name ≠ helperName := by
      rintro rfl
      exact not_opened h.fresh hopened
    have hkey : ∀ {text : List Char}, ',' ∉ text → ',' ∉ helperKey ++ text := by
      intro text htext
      rw [mem_append, not_or]
      exact ⟨by decide, htext⟩
    rw [otherOptions_eq_iff hname (h.eq ▸ hitems _ (hkey h.plain)) (hw ▸ hitems _ (hkey hcomma))]
    constructor
    · rintro ⟨honce, heq, -⟩
      obtain rfl : helper.toList = named := by simpa using heq
      have hsame : injectHelper helper value = value :=
        String.toList_inj.1 (hw.trans h.eq.symm)
      rw [hsame] at honce
      exact ⟨by simpa using honce, .inl rfl⟩
    · rintro ⟨honce, rfl | hat'⟩
      · have hsame : injectHelper helper value = value :=
          String.toList_inj.1 (hw.trans h.eq.symm)
        rw [hsame]
        exact ⟨by simpa using honce, rfl, rfl⟩
      · exact absurd hat' hat

/-- The helper after a text that names none. -/
theorem injected_added (hcomma : ',' ∉ helper.toList) (h : Fresh value.toList)
    (hw : (injectHelper helper value).toList =
      value.toList ++ [','] ++ (helperKey ++ helper.toList)) :
    NamesOnce (injectHelper helper value) helper ∧
        otherOptions (injectHelper helper value) = otherOptions value ↔
      ¬ AtOption value.toList ∧ ∀ item ∈ items value.toList, item.1 ≠ helperName := by
  have hlast : AtOption (value.toList ++ [',']) → items (injectHelper helper value).toList =
      items (value.toList ++ [',']) ++ [(helperName, some helper.toList)] := fun hat =>
    hw ▸ items_last hat 'h' "elper".toList (by decide) (by decide) hcomma
  by_cases hat : AtOption value.toList
  · refine iff_of_false ?_ fun hnot => hnot.1 hat
    rintro ⟨-, hother⟩
    rcases items_comma_of_atOption hat with ⟨hat', hitems⟩ |
      ⟨done, name, start, hopened, hvalue, hitems⟩
    · have hinjected := hlast hat'
      rw [hitems] at hinjected
      rw [otherOptions_eq hinjected, otherOptions, append_nil, filter_append] at hother
      have hlength := congrArg List.length hother
      simp [helperName] at hlength
    · have hname : name ≠ helperName := by
        rintro rfl
        exact not_opened h hopened
      have hkey : ',' ∉ helperKey ++ helper.toList := by
        rw [mem_append, not_or]
        exact ⟨by decide, hcomma⟩
      have heq := ((otherOptions_eq_iff hname hvalue (hw ▸ hitems _ hkey)).1 hother).1
      simp at heq
  · obtain ⟨hat', hitems⟩ := items_comma hat
    have hinjected := hlast hat'
    rw [hitems] at hinjected
    rw [namesOnce_iff hinjected, otherOptions_eq hinjected, append_nil]
    simp only [hat, not_false_eq_true, true_and, not_mem_nil, false_implies, implies_true, and_true]
    refine and_iff_left_of_imp fun hclean => ?_
    rfl

/-- When a helper without a comma is named once, and the other options are unchanged. -/
theorem takes_iff (hcomma : ',' ∉ helper.toList) :
    NamesOnce (injectHelper helper value) helper ∧
      otherOptions (injectHelper helper value) = otherOptions value ↔ Takes helper value := by
  obtain ⟨front, back, hslot⟩ := exists_slot value.toList
  have hw := hslot.written helper value rfl
  rcases hslot.cases with ⟨named, hnamed⟩ | ⟨hfresh, rfl, rfl⟩
  · rw [hnamed.takes_iff]
    exact injected_named hcomma hnamed hw
  · rw [takes_iff_of_fresh hfresh]
    rw [append_nil] at hw
    exact injected_added hcomma hfresh hw

/-! ## Writing the helper twice -/

theorem FirstHelper.written (h : FirstHelper value.toList front named back) (helper : String) :
    (injectHelper helper value).toList = front ++ (helperKey ++ helper.toList ++ back) := by
  obtain ⟨front', back', hslot⟩ := exists_slot value.toList
  rcases hslot.cases with ⟨named', h'⟩ | ⟨hfresh, -, -⟩
  · obtain ⟨rfl, -, rfl⟩ := h.unique h'
    exact hslot.written helper value rfl
  · exact absurd hfresh h.not_fresh

/-- Writing the helper twice is writing it once exactly when it has no comma. -/
theorem injectHelper_twice :
    injectHelper helper (injectHelper helper value) = injectHelper helper value ↔
      ',' ∉ helper.toList := by
  obtain ⟨front, back, hslot⟩ := exists_slot value.toList
  have hw := hslot.written helper value rfl
  constructor
  · intro htwice hmem
    obtain ⟨start, rest, hhelper, hstart⟩ := eq_append_cons_of_mem hmem
    have hfirst : FirstHelper (injectHelper helper value).toList front start
        (',' :: (rest ++ back)) := by
      refine ⟨?_, hslot.field, hslot.fresh, hstart, .inr rfl⟩
      rw [hw, hhelper]
      simp
    have hlength := congrArg (List.length ∘ String.toList) htwice
    simp only [Function.comp_apply] at hlength
    rw [hfirst.written helper, hw] at hlength
    simp only [length_append, length_cons] at hlength
    omega
  · intro hcomma
    have hfirst : FirstHelper (injectHelper helper value).toList front helper.toList back :=
      ⟨hw, hslot.field, hslot.fresh, hcomma, hslot.closed⟩
    rw [← String.toList_inj, hfirst.written helper, hw]

/-! ## The vector -/

/-- A bridge backend, in either form. -/
def IsBridge (p : String × String) : Prop :=
  (p.1 = "-netdev" ∨ p.1 = "-nic") ∧ startsWith p.2 "bridge," = true

/-- The value of an option with the helper. -/
def withBackend (helper : String) (p : String × String) : String :=
  if p.1 = "-netdev" ∧ startsWith p.2 "bridge," then injectHelper helper p.2 else p.2

/-- Nothing but the helper changes in an option. -/
structure KeepsOption (p p' : String × String) : Prop where
  flag : p'.1 = p.1
  bridge : IsBridge p → otherOptions p'.2 = otherOptions p.2
  other : ¬ IsBridge p → p'.2 = p.2

/-- The vector with the helper: every bridge backend names it once, and nothing else changes. -/
structure Injected (helper : String) (argv argv' : List String) : Prop where
  head : argv'.head? = argv.head?
  length : argv'.length = argv.length
  kept : List.Forall₂ KeepsOption (options argv.tail) (options argv'.tail)
  names : ∀ p ∈ options argv'.tail, IsBridge p → NamesOnce p.2 helper

/-- Flags that are no backends. -/
abbrev BridgeFree (argv : List String) : Prop :=
  Args (fun flag _ => startsWith flag "bridge," = false) argv

section Vector

variable {argv : List String}

/-- What is written into a vector of flags with values. -/
theorem bridgeFree_injectAfter (helper previous : String) (h : BridgeFree argv) :
    BridgeFree (injectAfter helper previous argv) ∧
      options (injectAfter helper previous argv) =
        (options argv).map fun p => (p.1, withBackend helper p) := by
  induction h generalizing previous with
  | nil => exact ⟨.nil, rfl⟩
  | @cons flag value rest hflag _ ih =>
    have hvector : injectAfter helper previous (flag :: value :: rest) =
        flag :: withBackend helper (flag, value) ::
          injectAfter helper (withBackend helper (flag, value)) rest := by
      simp [injectAfter, withBackend, hflag]
    obtain ⟨hrest, hoptions⟩ := ih (withBackend helper (flag, value))
    rw [hvector]
    exact ⟨.cons hflag hrest, by rw [options, hoptions]; rfl⟩

theorem length_injectAfter (helper previous : String) (argv : List String) :
    (injectAfter helper previous argv).length = argv.length := by
  induction argv generalizing previous with
  | nil => rfl
  | cons value rest ih => simp [injectAfter, ih]

/-- A backend with the helper is still one. -/
theorem startsWith_injectHelper (h : startsWith value "bridge," = true) :
    startsWith (injectHelper helper value) "bridge," = true := by
  unfold startsWith at h
  obtain ⟨rest, hrest⟩ := of_decide_eq_true h
  have hsplit : splitAt ',' value = "bridge" :: (rest.splitOn ',').map String.ofList := by
    have hlist : value.toList = "bridge".toList ++ ',' :: rest := by
      rw [← hrest]
      simp
    rw [splitAt, hlist, splitOn_append_cons_self_of_not_mem (by decide)]
    simp
  unfold injectHelper joinWith startsWith
  rw [hsplit, withHelper, if_neg (by decide),
    String.intercalate_cons_of_ne_nil (withHelper_ne_nil _ _)]
  simp

theorem isBridge_withBackend {p : String × String} :
    IsBridge (p.1, withBackend helper p) ↔ IsBridge p := by
  unfold IsBridge withBackend
  by_cases hflag : p.1 = "-netdev" ∧ startsWith p.2 "bridge," = true
  · simp [hflag, startsWith_injectHelper hflag.2]
  · rw [if_neg hflag]

/-- When an option has the helper: the network device names it already; the network backend takes it,
and it has no comma. -/
structure TakesHelper (helper : String) (p : String × String) : Prop where
  nic : p.1 = "-nic" → NamesOnce p.2 helper
  netdev : p.1 = "-netdev" → ',' ∉ helper.toList ∧ Takes helper p.2

/-- When a bridge backend names the helper, its other options are unchanged and writing the helper
twice is writing it once. -/
theorem takesHelper_iff {p : String × String} (h : IsBridge p) :
    NamesOnce (withBackend helper p) helper ∧
        otherOptions (withBackend helper p) = otherOptions p.2 ∧
        withBackend helper (p.1, withBackend helper p) = withBackend helper p ↔
      TakesHelper helper p := by
  obtain ⟨flag, value⟩ := p
  obtain ⟨rfl | rfl, hbridge⟩ := h
  · have hfirst : withBackend helper ("-netdev", value) = injectHelper helper value :=
      if_pos ⟨rfl, hbridge⟩
    have hsecond : withBackend helper ("-netdev", injectHelper helper value) =
        injectHelper helper (injectHelper helper value) :=
      if_pos ⟨rfl, startsWith_injectHelper hbridge⟩
    rw [hfirst, hsecond, injectHelper_twice, ← and_assoc]
    constructor
    · rintro ⟨hnames, hcomma⟩
      exact ⟨fun heq => absurd heq (by simp), fun _ => ⟨hcomma, (takes_iff hcomma).1 hnames⟩⟩
    · intro htakes
      obtain ⟨hcomma, htakes⟩ := htakes.netdev rfl
      exact ⟨(takes_iff hcomma).2 htakes, hcomma⟩
  · have hfirst : ∀ value, withBackend helper ("-nic", value) = value := fun value =>
      if_neg fun hflag => absurd hflag.1 (by simp)
    rw [hfirst, hfirst]
    constructor
    · rintro ⟨hnames, -⟩
      exact ⟨fun _ => hnames, fun heq => absurd heq (by simp)⟩
    · intro htakes
      exact ⟨htakes.nic rfl, rfl, rfl⟩

theorem keepsOption_iff {p : String × String} :
    KeepsOption p (p.1, withBackend helper p) ↔
      (IsBridge p → otherOptions (withBackend helper p) = otherOptions p.2) := by
  constructor
  · exact fun h => h.bridge
  · intro h
    refine ⟨rfl, h, fun hnot => if_neg ?_⟩
    exact fun hflag => hnot ⟨.inl hflag.1, hflag.2⟩

/-- When the whole vector names the helper. -/
theorem injected_iff {first : String} (h : BridgeFree argv) :
    Injected helper (first :: argv) (injectHelpers helper (first :: argv)) ∧
        injectHelpers helper (injectHelpers helper (first :: argv)) =
          injectHelpers helper (first :: argv) ↔
      ∀ p ∈ options argv, IsBridge p → TakesHelper helper p := by
  obtain ⟨hfree, hoptions⟩ := bridgeFree_injectAfter helper first h
  obtain ⟨hfree', hoptions'⟩ := bridgeFree_injectAfter helper first hfree
  have hinjected : Injected helper (first :: argv) (injectHelpers helper (first :: argv)) ↔
      ∀ p ∈ options argv, IsBridge p → NamesOnce (withBackend helper p) helper ∧
        otherOptions (withBackend helper p) = otherOptions p.2 := by
    constructor
    · intro hall p hp hbridge
      have hmem : (p.1, withBackend helper p) ∈ options (injectAfter helper first argv) :=
        hoptions ▸ mem_map_of_mem hp
      have hkept := hall.kept
      rw [injectHelpers, tail_cons, tail_cons, hoptions, List.forall₂_map_right_iff,
        List.forall₂_same] at hkept
      exact ⟨hall.names _ hmem (isBridge_withBackend.2 hbridge), (hkept p hp).bridge hbridge⟩
    · intro hall
      refine ⟨rfl, by simp [injectHelpers, length_injectAfter], ?_, ?_⟩
      · rw [injectHelpers, tail_cons, tail_cons, hoptions, List.forall₂_map_right_iff,
          List.forall₂_same]
        exact fun p hp => keepsOption_iff.2 fun hbridge => (hall p hp hbridge).2
      · rw [injectHelpers, tail_cons, hoptions]
        rintro p' hp' hbridge
        obtain ⟨p, hp, rfl⟩ := mem_map.1 hp'
        exact (hall p hp (isBridge_withBackend.1 hbridge)).1
  have htwice : injectHelpers helper (injectHelpers helper (first :: argv)) =
      injectHelpers helper (first :: argv) ↔
      ∀ p ∈ options argv, withBackend helper (p.1, withBackend helper p) =
        withBackend helper p := by
    have hlists : injectAfter helper first (injectAfter helper first argv) =
        injectAfter helper first argv ↔ options (injectAfter helper first
          (injectAfter helper first argv)) = options (injectAfter helper first argv) :=
      ⟨congrArg _, hfree'.ext_options hfree⟩
    rw [injectHelpers, injectHelpers, List.cons.injEq, hlists, hoptions', hoptions, map_map]
    simp [map_inj_left]
  rw [hinjected, htwice]
  constructor
  · rintro ⟨hall, hsame⟩ p hp hbridge
    obtain ⟨hnames, hother⟩ := hall p hp hbridge
    exact (takesHelper_iff hbridge).1 ⟨hnames, hother, hsame p hp⟩
  · intro hall
    refine ⟨fun p hp hbridge => ?_, fun p hp => ?_⟩
    · obtain ⟨hnames, hother, -⟩ := (takesHelper_iff hbridge).2 (hall p hp hbridge)
      exact ⟨hnames, hother⟩
    · by_cases hbridge : IsBridge p
      · exact ((takesHelper_iff hbridge).2 (hall p hp hbridge)).2.2
      · have hsame : withBackend helper p = p.2 :=
          (keepsOption_iff.2 fun h => absurd h hbridge).other hbridge
        rw [hsame]
        exact hsame

end Vector

/-! ## Plans -/

theorem bridgeFree_of_part {argv : List String} (h : Part argv) : BridgeFree argv := by
  have hfree : ∀ flag ∈ plainFlags, startsWith flag "bridge," = false := by decide
  exact h.mono fun flag _ hflag => hfree flag hflag

/-- No flag of a plan is a backend. -/
theorem Planned.bridgeFree {host : Host} {input : PlanInput} {plan : LaunchPlan} {s : Setup}
    {base sounding last : List String} (h : Planned host input plan s base sounding last) :
    ∃ first rest, plan.argv = first :: rest ∧ BridgeFree rest := by
  obtain ⟨front, hbase, hfront⟩ := h.base_args
  have hflags : ∀ flag ∈ ["-cpu", "-m"] ++ networkFlags ++ plainFlags,
      startsWith flag "bridge," = false := by decide
  have hfree : BridgeFree (front ++
      ["-display", displayOutput (consoleOf (input.profile.field "devices"))] ++
      vsockArgs input s) :=
    ((hfront.mono fun flag _ hflag => hflags flag hflag).append (.cons (by decide) .nil)).append
      (bridgeFree_of_part (part_vsockArgs input s))
  have hlast := bridgeFree_of_part h.part
  rw [h.argv]
  have hsounds := h.sounds
  generalize audioSettings input.profile = audio at hsounds
  rw [hbase] at hsounds
  cases hsounds with
  | silent _ => exact ⟨_, _, rfl, hfree.append hlast⟩
  | spice _ hmore => exact ⟨_, _, rfl, (hfree.append (bridgeFree_of_part hmore)).append hlast⟩
  | @dbus _ place output more _ _ houtput hmore =>
    have hnew : startsWith output "bridge," = false := by
      unfold startsWith at houtput ⊢
      obtain ⟨rest, hrest⟩ := of_decide_eq_true houtput
      rw [← hrest]
      simp
    refine ⟨_, _, by rw [set_cons_succ]; rfl, ?_⟩
    exact ((hfree.set hnew place).append (bridgeFree_of_part hmore)).append hlast

/-- The helper of the daemon in the vector of a plan: when every bridge backend names it once,
nothing else changes, and writing it twice is writing it once. -/
theorem injected_plan {host : Host} {input : PlanInput} {plan : LaunchPlan}
    (h : buildPlan host input = .ok plan) {launch : LaunchSpec} (hargv : launch.argv = plan.argv)
    (swtpm : Option String) (helper : String) :
    Injected helper launch.argv (applyDaemonHelpers launch swtpm (some helper)).argv ∧
        (applyDaemonHelpers (applyDaemonHelpers launch swtpm (some helper)) swtpm
          (some helper)).argv = (applyDaemonHelpers launch swtpm (some helper)).argv ↔
      ∀ p ∈ options launch.argv.tail, IsBridge p → TakesHelper helper p := by
  have hwritten : ∀ launch : LaunchSpec, (applyDaemonHelpers launch swtpm (some helper)).argv =
      injectHelpers helper launch.argv := by
    intro launch
    unfold applyDaemonHelpers
    dsimp only
    split <;> rfl
  obtain ⟨s, base, sounding, last, hplanned⟩ := planned_buildPlan h
  obtain ⟨first, rest, hvector, hfree⟩ := hplanned.bridgeFree
  simp only [hwritten, hargv, hvector]
  exact injected_iff hfree

/-! ## A board with a network device -/

/-- The profile of a board whose network is a bridge. -/
def boardProfile : Json :=
  .ofFields [("schema_version", .num 2), ("id", .str "vm"), ("machine", .str "udm-pro"),
    ("engine", .arr [.str "qemu"]), ("resources", .ofFields [("memory", .str "1G")]),
    ("network", .ofFields [("type", .str "bridge"), ("bridge", .str "br0")]),
    ("boot", .ofFields [("kernel", .ofFields [("source", .ofFields [("path", .str "/kernel")])]),
      ("initrd", .ofFields [("source", .ofFields [("path", .str "/initrd")])])]),
    ("storage", .ofFields [("boot", .ofFields [("format", .str "raw"),
        ("source", .ofFields [("path", .str "/boot.img")])]),
      ("spi", .ofFields [("format", .str "raw"),
        ("source", .ofFields [("path", .str "/spi.img")])])])]

/-- The input for the profile of the board. -/
def boardInput : PlanInput where
  profile := boardProfile
  releaseSet := .ofFields [("schema_version", .num 1), ("engines", .ofFields [("qemu",
    .ofFields [("executable", .str "/opt/qemu"), ("build_digest", .str "0")])])]
  bundleRoot := "/bundles"
  target := "aarch64-softmmu"
  runtimeDir := "/run/vm"

/-- The launch contract with a vector. -/
def launchOf (argv : List String) : LaunchSpec where
  argv := argv
  vncAuto := false
  qmpSocket := "sockets/qmp.sock"
  stdout := none
  stderr := none
  preparation := none
  helperArgv := none

theorem exists_plan_board : ∃ plan, buildPlan hostWithFiles boardInput = .ok plan ∧
    ("-nic", "bridge,br=br0,model=alpine-eth-pci") ∈ options plan.argv.tail := by
  have hplan : ((buildPlan hostWithFiles boardInput).toOption.map fun plan =>
      decide (("-nic", "bridge,br=br0,model=alpine-eth-pci") ∈ options plan.argv.tail)) =
      some true := by decide +kernel
  cases h : buildPlan hostWithFiles boardInput with
  | error e =>
    rw [h] at hplan
    cases hplan
  | ok plan =>
    rw [h] at hplan
    exact ⟨plan, rfl, by simpa [Except.toOption] using hplan⟩

theorem injected_plan_board : ∃ plan : LaunchPlan,
    (Injected "/helper" plan.argv
        (applyDaemonHelpers (launchOf plan.argv) none (some "/helper")).argv ∧
      (applyDaemonHelpers (applyDaemonHelpers (launchOf plan.argv) none (some "/helper")) none
        (some "/helper")).argv =
        (applyDaemonHelpers (launchOf plan.argv) none (some "/helper")).argv) ↔
      ∀ p ∈ options plan.argv.tail, IsBridge p → TakesHelper "/helper" p := by
  obtain ⟨plan, hplan, -⟩ := exists_plan_board
  have hargv : (launchOf plan.argv).argv = plan.argv := rfl
  exact ⟨plan, injected_plan hplan hargv none "/helper"⟩

/-- The network device of the board gets no helper. -/
theorem not_injected_plan : ¬ ∀ (host : Host) (input : PlanInput) (plan : LaunchPlan),
    buildPlan host input = .ok plan → ∀ (launch : LaunchSpec), launch.argv = plan.argv →
    ∀ (swtpm : Option String) (helper : String),
      Injected helper launch.argv (applyDaemonHelpers launch swtpm (some helper)).argv := by
  intro h
  obtain ⟨plan, hplan, hmem⟩ := exists_plan_board
  obtain ⟨s, base, sounding, last, hplanned⟩ := planned_buildPlan hplan
  obtain ⟨first, rest, hvector, hfree⟩ := hplanned.bridgeFree
  have hinjected := h _ _ plan hplan (launchOf plan.argv) rfl none "/helper"
  have hnames := hinjected.names ("-nic", "bridge,br=br0,model=alpine-eth-pci") ?_
    ⟨.inr rfl, by decide⟩
  · have hitems : items "bridge,br=br0,model=alpine-eth-pci".toList =
        [("bridge".toList, none), ("br".toList, some "br0".toList),
          ("model".toList, some "alpine-eth-pci".toList)] := by decide
    unfold NamesOnce at hnames
    rw [hitems] at hnames
    revert hnames
    decide
  · obtain ⟨-, hoptions⟩ := bridgeFree_injectAfter "/helper" first hfree
    have hargv : (applyDaemonHelpers (launchOf plan.argv) none (some "/helper")).argv =
        first :: injectAfter "/helper" first rest := by
      simp only [applyDaemonHelpers, launchOf, hvector]
      rfl
    rw [hargv, tail_cons, hoptions]
    rw [hvector, tail_cons] at hmem
    have hsame : withBackend "/helper" ("-nic", "bridge,br=br0,model=alpine-eth-pci") =
        "bridge,br=br0,model=alpine-eth-pci" := by decide
    refine mem_map.2 ⟨_, hmem, ?_⟩
    rw [hsame]

end MachineEmu.Planner
