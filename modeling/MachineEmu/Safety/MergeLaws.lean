import MachineEmu.Resolution.Merge

/-!
# The laws of merging

A layer keeps what it does not mention and sets what it says. What it brings along is another
matter: a subtree for which there is no counterpart is taken as it is, also with nulls, with
directives to remove devices, and with devices of the same id.

* `Clean` — a value without any of these.
* `Grafts` — all that a layer brings along is clean.
* `mergeObject_field`, `MergedDevices` — what merging makes of a field and of a device.
* `Keeps`, `Carries` — what is not mentioned, and what is.
* `merge_laws` — the result.
-/

namespace MachineEmu

open Lib List

/-! ## Clean values -/

/-- The devices of a collection have ids of their own, and none of them stands for a removal. -/
structure Tidy (items : List Json) : Prop where
  nodup : (items.filterMap idOf).Nodup
  devices : ∀ item ∈ items, isRemoval item = false

mutual

/-- There is no null in a value, and its collections are tidy. -/
def Clean : Json → Prop
  | .null => False
  | .arr items => CleanItems items
  | .obj fields => CleanFields fields
  | _ => True

def CleanItems : List Json → Prop
  | [] => True
  | v :: rest => Clean v ∧ CleanItems rest

def CleanFields : List (String × Json) → Prop
  | [] => True
  | e :: rest => CleanField e ∧ CleanFields rest

def CleanField : String × Json → Prop
  | (key, v) => Clean v ∧ ∀ items, v = .arr items → isDeviceCollection key = true → Tidy items

end

theorem cleanItems_iff {items : List Json} : CleanItems items ↔ ∀ v ∈ items, Clean v := by
  induction items with
  | nil => simp [CleanItems]
  | cons v rest ih => simp [CleanItems, ih]

variable {fields : List (String × Json)}

theorem cleanFields_iff : CleanFields fields ↔ ∀ e ∈ fields, CleanField e := by
  induction fields with
  | nil => simp [CleanFields]
  | cons e rest ih => simp only [CleanFields, ih, forall_mem_cons]

/-! ## What a layer does to a field -/

section Fields

variable {base high result : List (String × Json)}

/-- A field that the layer does not have is as before; one that it has is merged with what was
there. -/
theorem mergeObject_field (hhigh : high.Pairwise fun a b => a.1 < b.1)
    (h : mergeObject base high = .ok result) :
    (∀ k ∉ high.map Prod.fst, (Json.obj result).field k = (Json.obj base).field k) ∧
    ∀ e ∈ high, ∃ m, mergeValue ((Json.obj base).field e.1) e.1 e.2 = .ok m ∧
      (Json.obj result).field e.1 = some m := by
  induction high generalizing base with
  | nil =>
    cases h
    exact ⟨fun _ _ => rfl, nofun⟩
  | cons e rest ih =>
    obtain ⟨key, value⟩ := e
    obtain ⟨hfirst, hrest⟩ := pairwise_cons.1 hhigh
    have hnot : ∀ e ∈ rest, e.1 ≠ key := fun e he => (hfirst e he).ne'
    unfold mergeObject mergeField at h
    cases hvalue : mergeValue ((Json.obj base).field key) key value with
    | error message =>
      rw [hvalue] at h
      cases h
    | ok m =>
      rw [hvalue] at h
      obtain ⟨hkept, hset⟩ := ih hrest h
      refine ⟨fun k hk => ?_, fun e he => ?_⟩
      · rw [map_cons, mem_cons, not_or] at hk
        rw [hkept k hk.2, Json.field_obj_insertInto, if_neg hk.1]
      · rcases mem_cons.1 he with rfl | he
        · refine ⟨m, hvalue, ?_⟩
          rw [hkept key, Json.field_obj_insertInto, if_pos rfl]
          rw [mem_map]
          rintro ⟨e, he, hkey⟩
          exact hnot e he hkey
        · obtain ⟨m', hm', hfield⟩ := hset e he
          rw [Json.field_obj_insertInto, if_neg (hnot e he)] at hm'
          exact ⟨m', hm', hfield⟩

/-- The members of the result: those that the layer has not, and the merged ones. -/
theorem mem_mergeObject (hhigh : high.Pairwise fun a b => a.1 < b.1)
    (h : mergeObject base high = .ok result) {e : String × Json} (he : e ∈ result) :
    e ∈ base ∨ ∃ e' ∈ high, e'.1 = e.1 ∧
      mergeValue ((Json.obj base).field e'.1) e'.1 e'.2 = .ok e.2 := by
  induction high generalizing base with
  | nil =>
    cases h
    exact .inl he
  | cons e' rest ih =>
    obtain ⟨key, value⟩ := e'
    obtain ⟨hfirst, hrest⟩ := pairwise_cons.1 hhigh
    unfold mergeObject mergeField at h
    cases hvalue : mergeValue ((Json.obj base).field key) key value with
    | error message =>
      rw [hvalue] at h
      cases h
    | ok m =>
      rw [hvalue] at h
      rcases ih hrest h with hbase | ⟨e', he', hkey, hm⟩
      · rcases SortedMap.mem_insertInto hbase with rfl | hbase
        · exact .inr ⟨(key, value), mem_cons_self, rfl, hvalue⟩
        · exact .inl hbase
      · rw [Json.field_obj_insertInto, if_neg (hfirst e' he').ne'] at hm
        exact .inr ⟨e', mem_cons_of_mem _ he', hkey, hm⟩

end Fields

/-! ## What a layer does to a device -/

/-- The first device with an id. -/
def device (out : List Json) (id : String) : Option Json := out.find? fun v => idOf v = some id

/-- The entry takes its device out, is new, or is merged with the device of its id. -/
inductive Turned (out : List Json) (item : Json) (id : String) : List Json → Prop
  | removed {front back : List Json} {d : Json} (hremoval : isRemoval item = true)
      (hout : out = front ++ d :: back) (hfront : ∀ v ∈ front, idOf v ≠ some id)
      (hd : idOf d = some id) : Turned out item id (front ++ back)
  | added (hremoval : isRemoval item = false) (hnone : ∀ v ∈ out, idOf v ≠ some id) :
      Turned out item id (out ++ [item])
  | merged {front back : List Json} {d : Json} {fields m : List (String × Json)}
      (hremoval : isRemoval item = false) (hout : out = front ++ d :: back)
      (hfront : ∀ v ∈ front, idOf v ≠ some id) (hd : idOf d = some id)
      (hitem : item = .obj fields) (hm : mergeObject (objectOrEmpty d) fields = .ok m) :
      Turned out item id (front ++ .obj m :: back)

section Devices

variable {out next items result : List Json} {item : Json} {id : String} {key : String}
  {seen : List String}

/-- The place of the first device with an id. -/
theorem position_cases (out : List Json) (id : String) :
    (position out id = none ∧ ∀ v ∈ out, idOf v ≠ some id) ∨
      ∃ front d back, out = front ++ d :: back ∧ (∀ v ∈ front, idOf v ≠ some id) ∧
        idOf d = some id ∧ position out id = some front.length := by
  induction out with
  | nil => exact .inl ⟨rfl, nofun⟩
  | cons v rest ih =>
    have hcons : position (v :: rest) id =
        if idOf v = some id then some 0 else (position rest id).map (· + 1) := by
      simp [position, List.findIdx?_cons]
    rw [hcons]
    by_cases hv : idOf v = some id
    · exact .inr ⟨[], v, rest, rfl, nofun, hv, if_pos hv⟩
    · rw [if_neg hv]
      rcases ih with ⟨hnone, hrest⟩ | ⟨front, d, back, rfl, hfront, hd, hposition⟩
      · refine .inl ⟨by rw [hnone]; rfl, fun w hw => ?_⟩
        rcases mem_cons.1 hw with rfl | hw
        · exact hv
        · exact hrest w hw
      · refine .inr ⟨v :: front, d, back, rfl, fun w hw => ?_, hd, by rw [hposition]; rfl⟩
        rcases mem_cons.1 hw with rfl | hw
        · exact hv
        · exact hfront w hw

theorem mergeDevice_cases (h : mergeDevice key seen out item = .ok (id, next)) :
    (∃ fields, item = .obj fields) ∧ idOf item = some id ∧ id ∉ seen ∧ Turned out item id next := by
  unfold mergeDevice at h
  split at h
  · next fields =>
    split at h
    · cases h
    · next i hid =>
      split at h
      · cases h
      · next hseen =>
        split at h
        · next hremoval =>
          split at h
          · cases h
          · obtain ⟨hnone, -⟩ | ⟨front, d, back, rfl, hfront, hd, hposition⟩ := position_cases out i
            · rw [hnone] at h
              cases h
            · rw [hposition] at h
              cases h
              refine ⟨⟨fields, rfl⟩, hid, hseen, ?_⟩
              have herase : (front ++ d :: back).eraseIdx front.length = front ++ back := by
                rw [eraseIdx_append_of_length_le (Nat.le_refl _), Nat.sub_self]
                rfl
              rw [herase]
              exact .removed hremoval rfl hfront hd
        · next hremoval =>
          rw [Bool.not_eq_true] at hremoval
          obtain ⟨hnone, hout⟩ | ⟨front, d, back, rfl, hfront, hd, hposition⟩ := position_cases out i
          · rw [hnone] at h
            cases h
            exact ⟨⟨fields, rfl⟩, hid, hseen, .added hremoval hout⟩
          · rw [hposition] at h
            have hget : (front ++ d :: back).getD front.length .null = d := by
              simp [getD_eq_getElem?_getD]
            dsimp only at h
            rw [hget] at h
            split at h
            · cases h
            · next m hm =>
              cases h
              refine ⟨⟨fields, rfl⟩, hid, hseen, ?_⟩
              have hset : (front ++ d :: back).set front.length (.obj m) =
                  front ++ .obj m :: back := by
                rw [set_append_right _ _ (Nat.le_refl _), Nat.sub_self]
                rfl
              rw [hset]
              exact .merged hremoval rfl hfront hd rfl hm
  · cases h

theorem obj_of_idOf {v : Json} (h : idOf v = some id) : ∃ fields, v = .obj fields := by
  cases v with
  | obj fields => exact ⟨fields, rfl⟩
  | null | bool | num | str | arr => cases h

/-- A merged device has the id of the entry, and does not stand for a removal. -/
theorem idOf_merged {old m : List (String × Json)}
    (hfields : fields.Pairwise fun a b => a.1 < b.1) (hid : idOf (.obj fields) = some id)
    (hm : mergeObject old fields = .ok m) : idOf (.obj m) = some id := by
  obtain ⟨v, hv, hstr⟩ := Option.bind_eq_some_iff.1 hid
  obtain ⟨m', hm', hfield⟩ := (mergeObject_field hfields hm).2 _ (Json.mem_of_field hv)
  cases v with
  | str s =>
    cases hm'
    rw [idOf, hfield]
    exact hstr
  | null | bool | num | arr | obj => cases hstr

theorem isRemoval_merged {old m : List (String × Json)}
    (hfields : fields.Pairwise fun a b => a.1 < b.1) (hold : isRemoval (.obj old) = false)
    (hremoval : isRemoval (.obj fields) = false) (hm : mergeObject old fields = .ok m) :
    isRemoval (.obj m) = false := by
  obtain ⟨hkept, hset⟩ := mergeObject_field hfields hm
  by_cases hkey : "remove" ∈ fields.map Prod.fst
  · obtain ⟨⟨_, v⟩, he, rfl⟩ := mem_map.1 hkey
    obtain ⟨m', hm', hfield⟩ := hset _ he
    have hnot : isDeviceCollection "remove" = false := by decide
    have hvalue : (Json.obj fields).field "remove" = some v := Json.field_of_mem hfields he
    unfold isRemoval at hremoval ⊢
    rw [hvalue] at hremoval
    rw [hfield]
    cases v with
    | bool b =>
      cases hm'
      exact hremoval
    | null => cases hm'
    | num | str =>
      cases hm'
      rfl
    | arr items =>
      simp only [mergeValue, hnot] at hm'
      cases hm'
      rfl
    | obj new =>
      unfold mergeValue at hm'
      split at hm'
      · split at hm'
        · cases hm'
        · cases hm'
          rfl
      · cases hm'
        rfl
  · unfold isRemoval at hold ⊢
    rw [hkept _ hkey]
    exact hold

namespace Turned

variable {fields : List (String × Json)}

/-- Devices that the entry does not name are as before. -/
theorem others (h : Turned out (.obj fields) id next) (hid : idOf (.obj fields) = some id)
    (hfields : fields.Pairwise fun a b => a.1 < b.1) {p : Json → Bool}
    (hp : ∀ v, idOf v = some id → p v = false) : next.filter p = out.filter p := by
  cases h with
  | removed _ hout _ hd => simp [hout, hp _ hd]
  | added => simp [hp _ hid]
  | merged _ hout _ hd hitem hm =>
    cases hitem
    simp [hout, hp _ hd, hp _ (idOf_merged hfields hid hm)]

theorem nodup_middle {front back : List Json} {d : Json} (hd : idOf d = some id)
    (h : ((front ++ d :: back).filterMap idOf).Nodup) :
    ((front ++ back).filterMap idOf).Nodup ∧ ∀ v ∈ front ++ back, idOf v ≠ some id := by
  rw [filterMap_append, filterMap_cons_some hd, List.nodup_middle, nodup_cons,
    ← filterMap_append] at h
  exact ⟨h.2, fun v hv hsame => h.1 (mem_filterMap.2 ⟨v, hv, hsame⟩)⟩

theorem tidy (h : Turned out (.obj fields) id next) (hid : idOf (.obj fields) = some id)
    (hfields : fields.Pairwise fun a b => a.1 < b.1) (hout : Tidy out) : Tidy next := by
  obtain ⟨hnodup, hdevices⟩ := hout
  cases h with
  | removed _ hout _ hd =>
    rw [hout] at hnodup hdevices
    exact ⟨(nodup_middle hd hnodup).1, fun v hv => hdevices v (by
      rw [mem_append] at hv ⊢
      exact hv.imp (fun h => h) (mem_cons_of_mem _))⟩
  | added hremoval hnone =>
    refine ⟨?_, fun v hv => ?_⟩
    · rw [filterMap_append, filterMap_cons_some hid, filterMap_nil, nodup_append]
      refine ⟨hnodup, nodup_singleton _, ?_⟩
      intro a ha b hb hab
      obtain ⟨v, hv, hva⟩ := mem_filterMap.1 ha
      rw [hab, mem_singleton.1 hb] at hva
      exact hnone v hv hva
    · rcases mem_append.1 hv with hv | hv
      · exact hdevices v hv
      · rw [mem_singleton.1 hv]
        exact hremoval
  | @merged front back d fields' m hremoval hout _ hd hitem hm =>
    cases hitem
    have hmid := idOf_merged hfields hid hm
    rw [hout] at hnodup hdevices
    refine ⟨?_, fun v hv => ?_⟩
    · rw [filterMap_append, filterMap_cons_some hd] at hnodup
      rw [filterMap_append, filterMap_cons_some hmid]
      exact hnodup
    · rw [mem_append, mem_cons] at hv
      have hkept : ∀ v, v ∈ front ∨ v ∈ back → isRemoval v = false := fun v hv => hdevices v (by
        rw [mem_append]
        exact hv.imp (fun h => h) (mem_cons_of_mem _))
      rcases hv with hv | rfl | hv
      · exact hkept v (.inl hv)
      · refine isRemoval_merged hfields ?_ hremoval hm
        obtain ⟨f, rfl⟩ := obj_of_idOf hd
        exact hdevices _ (mem_append_right _ mem_cons_self)
      · exact hkept v (.inr hv)

end Turned

/-- What becomes of the device that an entry names. -/
inductive MergedDevice (item : Json) : Option Json → Option Json → Prop
  | removed {d : Json} (hremoval : isRemoval item = true) : MergedDevice item (some d) none
  | added (hremoval : isRemoval item = false) : MergedDevice item none (some item)
  | merged {d : Json} {fields m : List (String × Json)} (hremoval : isRemoval item = false)
      (hitem : item = .obj fields) (hm : mergeObject (objectOrEmpty d) fields = .ok m) :
      MergedDevice item (some d) (some (.obj m))

theorem MergedDevice.gone {before after : Option Json} (h : MergedDevice item before after)
    (hremoval : isRemoval item = true) : after = none := by
  cases h with
  | removed => rfl
  | added hstays =>
    rw [hremoval] at hstays
    cases hstays
  | merged hstays =>
    rw [hremoval] at hstays
    cases hstays

theorem device_eq_none (h : ∀ v ∈ out, idOf v ≠ some id) : device out id = none :=
  List.find?_eq_none.2 fun v hv => by simpa using h v hv

theorem device_middle {front back : List Json} {d : Json} (hfront : ∀ v ∈ front, idOf v ≠ some id)
    (hd : idOf d = some id) : device (front ++ d :: back) id = some d := by
  have hnone : front.find? (fun v => idOf v = some id) = none := device_eq_none hfront
  rw [device, List.find?_append, hnone, Option.none_or, List.find?_cons_of_pos (by simpa using hd)]

/-- Only devices with the id matter. -/
theorem device_filter {p : Json → Bool} (hp : ∀ v, idOf v = some id → p v = true) :
    device (out.filter p) id = device out id := by
  rw [device, device, List.find?_filter]
  congr 1
  funext v
  by_cases hv : idOf v = some id
  · simp [hv, hp v hv]
  · simp [hv]

theorem Turned.device (h : Turned out (.obj fields) id next)
    (hid : idOf (.obj fields) = some id) (hfields : fields.Pairwise fun a b => a.1 < b.1)
    (hout : Tidy out) : MergedDevice (.obj fields) (device out id) (MachineEmu.device next id) := by
  cases h with
  | removed hremoval hsplit hfront hd =>
    rw [hsplit, device_middle hfront hd]
    rw [hsplit] at hout
    rw [device_eq_none (nodup_middle hd hout.nodup).2]
    exact .removed hremoval
  | added hremoval hnone =>
    rw [device_eq_none hnone, device_middle hnone hid]
    exact .added hremoval
  | merged hremoval hsplit hfront hd hitem hm =>
    cases hitem
    rw [hsplit, device_middle hfront hd, device_middle hfront (idOf_merged hfields hid hm)]
    exact .merged hremoval rfl hm

/-- A device that no entry names, or a value without an id. -/
def unmentioned (items : List Json) (v : Json) : Bool :=
  (idOf v).all fun id => id ∉ items.filterMap idOf

/-- What merging makes of a collection. -/
structure MergedDevices (out items result : List Json) : Prop where
  tidy : Tidy result
  others : result.filter (unmentioned items) = out.filter (unmentioned items)
  each : ∀ item ∈ items, ∃ id, idOf item = some id ∧
    MergedDevice item (device out id) (device result id)

/-- The ids of the entries are new ones. -/
theorem ids_of_mergeDevices (h : mergeDevices key seen out items = .ok result) :
    ∀ item ∈ items, (∃ fields, item = .obj fields) ∧ ∃ id, idOf item = some id ∧ id ∉ seen := by
  induction items generalizing seen out with
  | nil => exact nofun
  | cons item rest ih =>
    unfold mergeDevices at h
    split at h
    · cases h
    · next id next hturn =>
      obtain ⟨hobj, hid, hseen, -⟩ := mergeDevice_cases hturn
      intro item' hitem'
      rcases mem_cons.1 hitem' with rfl | hitem'
      · exact ⟨hobj, id, hid, hseen⟩
      · obtain ⟨hobj', id', hid', hnew⟩ := ih h item' hitem'
        exact ⟨hobj', id', hid', fun hmem => hnew (mem_cons_of_mem _ hmem)⟩

theorem mergedDevices (hitems : ∀ item ∈ items, item.Ordered) (hout : Tidy out)
    (h : mergeDevices key seen out items = .ok result) : MergedDevices out items result := by
  induction items generalizing seen out with
  | nil =>
    cases h
    exact ⟨hout, rfl, nofun⟩
  | cons item rest ih =>
    unfold mergeDevices at h
    split at h
    · cases h
    next id next hturn =>
    obtain ⟨⟨fields, rfl⟩, hid, hseen, hturned⟩ := mergeDevice_cases hturn
    have hfields : fields.Pairwise fun a b => a.1 < b.1 := (hitems _ mem_cons_self).1
    obtain ⟨htidy, hothers, heach⟩ := ih (fun item hitem => hitems item (mem_cons_of_mem _ hitem))
      (hturned.tidy hid hfields hout) h
    have hrest : ∀ item ∈ rest, idOf item ≠ some id := by
      intro item hitem hsame
      obtain ⟨-, id', hid', hnew⟩ := ids_of_mergeDevices h item hitem
      rw [hsame] at hid'
      cases hid'
      exact hnew mem_cons_self
    have hfree : ∀ v, idOf v = some id → unmentioned rest v = true := by
      intro v hv
      simp only [unmentioned, hv, Option.all_some, decide_eq_true_eq, mem_filterMap, not_exists,
        not_and]
      exact hrest
    have hcons : ∀ v, unmentioned (.obj fields :: rest) v = true →
        unmentioned rest v = true ∧ idOf v ≠ some id := by
      intro v hv
      cases hvid : idOf v with
      | none => simp [unmentioned, hvid]
      | some j =>
        simp only [unmentioned, hvid, Option.all_some, decide_eq_true_eq,
          filterMap_cons_some hid, mem_cons, not_or] at hv ⊢
        exact ⟨hv.2, fun hsame => hv.1 (Option.some.inj hsame)⟩
    have hthrough : ∀ l : List Json, l.filter (unmentioned (.obj fields :: rest)) =
        (l.filter (unmentioned rest)).filter (unmentioned (.obj fields :: rest)) := by
      intro l
      rw [filter_filter]
      refine filter_congr fun v _ => ?_
      cases hv : unmentioned (.obj fields :: rest) v with
      | false => simp
      | true => simp [(hcons v hv).1]
    refine ⟨htidy, ?_, fun item' hitem' => ?_⟩
    · rw [hthrough result, hothers, ← hthrough next]
      refine hturned.others hid hfields fun v hv => ?_
      rw [← Bool.not_eq_true]
      exact fun hun => (hcons v hun).2 hv
    · rcases mem_cons.1 hitem' with rfl | hitem'
      · refine ⟨id, hid, ?_⟩
        have hsame : device result id = device next id := by
          rw [← device_filter hfree, hothers, device_filter hfree]
        rw [hsame]
        exact hturned.device hid hfields hout
      · obtain ⟨id', hid', hmerged⟩ := heach item' hitem'
        refine ⟨id', hid', ?_⟩
        -- the first entry names another device
        have hne : id' ≠ id := by
          rintro rfl
          exact hrest item' hitem' hid'
        have hother : device next id' = device out id' := by
          have hp : ∀ v, idOf v = some id' → decide (idOf v ≠ some id) = true := by
            intro v hv
            simpa [hv] using hne
          rw [← device_filter hp, hturned.others hid hfields (by intro v hv; simp [hv]),
            device_filter hp]
        rw [← hother]
        exact hmerged

end Devices

/-! ## The laws -/

/-- The device that an entry names. -/
def deviceOf (out : List Json) (item : Json) : Option Json := (idOf item).bind (device out)

mutual

/-- All that a layer brings along is clean: what has no counterpart is taken as it is. -/
def Grafts (old : Option Json) (key : String) : Json → Prop
  | .null => False
  | .arr items =>
    if isDeviceCollection key then GraftsItems (oldDevices old) items else CleanItems items
  | .obj new =>
    match old with
    | some (.obj fields) => GraftsFields fields new
    | _ => CleanFields new
  | _ => True
termination_by structural value => value

def GraftsItems (out : List Json) : List Json → Prop
  | [] => True
  | item :: rest =>
    (isRemoval item = false → Grafts (deviceOf out item) "" item) ∧ GraftsItems out rest
termination_by structural items => items

def GraftsFields (base : List (String × Json)) : List (String × Json) → Prop
  | [] => True
  | e :: rest => GraftsField base e ∧ GraftsFields base rest
termination_by structural high => high

def GraftsField (base : List (String × Json)) : String × Json → Prop
  | (key, value) => Grafts ((Json.obj base).field key) key value
termination_by structural e => e

end

mutual

/-- What the layer does not mention is as before, at any depth, and in its order. -/
def Keeps (old : Option Json) (merged : Json) (key : String) : Json → Prop
  | .arr items =>
    isDeviceCollection key = true → ∃ out, merged = .arr out ∧
      out.filter (unmentioned items) = (oldDevices old).filter (unmentioned items) ∧
      KeepsItems (oldDevices old) out items
  | .obj new => ∀ fields, old = some (.obj fields) → ∃ result, merged = .obj result ∧
      (∀ k ∉ new.map Prod.fst, (Json.obj result).field k = (Json.obj fields).field k) ∧
      KeepsFields fields result new
  | _ => True
termination_by structural value => value

def KeepsItems (old out : List Json) : List Json → Prop
  | [] => True
  | item :: rest =>
    (isRemoval item = false → ∀ d, deviceOf old item = some d →
      ∃ m ∈ out, idOf m = idOf item ∧ Keeps (some d) m "" item) ∧ KeepsItems old out rest
termination_by structural items => items

def KeepsFields (base result : List (String × Json)) : List (String × Json) → Prop
  | [] => True
  | e :: rest => KeepsField base result e ∧ KeepsFields base result rest
termination_by structural high => high

def KeepsField (base result : List (String × Json)) : String × Json → Prop
  | (key, value) => ∃ m, (Json.obj result).field key = some m ∧
      Keeps ((Json.obj base).field key) m key value
termination_by structural e => e

end

mutual

/-- What the layer sets is there, at any depth, and what it removes is not. -/
def Carries (merged : Json) (key : String) : Json → Prop
  | .arr items =>
    if isDeviceCollection key then ∃ out, merged = .arr out ∧ CarriesItems out items
    else merged = .arr items
  | .obj new => ∃ result, merged = .obj result ∧ CarriesFields result new
  | value => merged = value
termination_by structural value => value

def CarriesItems (out : List Json) : List Json → Prop
  | [] => True
  | item :: rest =>
    (if isRemoval item = true then ∀ v ∈ out, idOf v ≠ idOf item
      else ∃ m ∈ out, idOf m = idOf item ∧ Carries m "" item) ∧ CarriesItems out rest
termination_by structural items => items

def CarriesFields (result : List (String × Json)) : List (String × Json) → Prop
  | [] => True
  | e :: rest => CarriesField result e ∧ CarriesFields result rest
termination_by structural high => high

def CarriesField (result : List (String × Json)) : String × Json → Prop
  | (key, value) => ∃ m, (Json.obj result).field key = some m ∧ Carries m key value
termination_by structural e => e

end

section Members

variable {old out items : List Json} {base result high : List (String × Json)}

theorem graftsItems_iff : GraftsItems out items ↔
    ∀ item ∈ items, isRemoval item = false → Grafts (deviceOf out item) "" item := by
  induction items with
  | nil => simp [GraftsItems]
  | cons item rest ih => simp only [GraftsItems, ih, forall_mem_cons]

theorem graftsFields_iff : GraftsFields base high ↔
    ∀ e ∈ high, Grafts ((Json.obj base).field e.1) e.1 e.2 := by
  induction high with
  | nil => simp [GraftsFields]
  | cons e rest ih =>
    obtain ⟨key, value⟩ := e
    simp only [GraftsFields, GraftsField, ih, forall_mem_cons]

theorem keepsItems_iff : KeepsItems old out items ↔
    ∀ item ∈ items, isRemoval item = false → ∀ d, deviceOf old item = some d →
      ∃ m ∈ out, idOf m = idOf item ∧ Keeps (some d) m "" item := by
  induction items with
  | nil => simp [KeepsItems]
  | cons item rest ih => simp only [KeepsItems, ih, forall_mem_cons]

theorem keepsFields_iff : KeepsFields base result high ↔
    ∀ e ∈ high, ∃ m, (Json.obj result).field e.1 = some m ∧
      Keeps ((Json.obj base).field e.1) m e.1 e.2 := by
  induction high with
  | nil => simp [KeepsFields]
  | cons e rest ih =>
    obtain ⟨key, value⟩ := e
    simp only [KeepsFields, KeepsField, ih, forall_mem_cons]

theorem carriesItems_iff : CarriesItems out items ↔
    ∀ item ∈ items, if isRemoval item = true then ∀ v ∈ out, idOf v ≠ idOf item
      else ∃ m ∈ out, idOf m = idOf item ∧ Carries m "" item := by
  induction items with
  | nil => simp [CarriesItems]
  | cons item rest ih => simp only [CarriesItems, ih, forall_mem_cons]

theorem carriesFields_iff : CarriesFields result high ↔
    ∀ e ∈ high, ∃ m, (Json.obj result).field e.1 = some m ∧ Carries m e.1 e.2 := by
  induction high with
  | nil => simp [CarriesFields]
  | cons e rest ih =>
    obtain ⟨key, value⟩ := e
    simp only [CarriesFields, CarriesField, ih, forall_mem_cons]

end Members

/-- What is taken as it is carries itself. -/
theorem carries_self (v : Json) : ∀ key, v.Ordered → CleanField (key, v) → Carries v key v := by
  induction v using Json.induct with
  | null => exact fun _ _ h => h.1.elim
  | bool | num | str => exact fun _ _ _ => rfl
  | arr items ih =>
    intro key hordered hclean
    unfold Carries
    split
    · next hkey =>
      refine ⟨items, rfl, carriesItems_iff.2 fun item hitem => ?_⟩
      rw [if_neg (by rw [(hclean.2 items rfl hkey).devices item hitem]; decide)]
      refine ⟨item, hitem, rfl, ih item hitem "" (Json.orderedItems_iff.1 hordered item hitem) ?_⟩
      exact ⟨cleanItems_iff.1 hclean.1 item hitem, fun _ _ h => by cases h⟩
    · rfl
  | obj fields ih =>
    intro key hordered hclean
    unfold Carries
    refine ⟨fields, rfl, carriesFields_iff.2 fun e he => ?_⟩
    refine ⟨e.2, Json.field_of_mem hordered.1 he, ih e he e.1 ?_ ?_⟩
    · exact Json.orderedFields_iff.1 hordered.2 e he
    · exact cleanFields_iff.1 hclean.1 e he

/-- The laws for one value. -/
structure Lawful (old : Option Json) (key : String) (value merged : Json) : Prop where
  keeps : Keeps old merged key value
  carries : Grafts old key value → Carries merged key value
  clean : CleanField (key, merged) ↔ Grafts old key value

theorem not_collection : isDeviceCollection "" = false := by decide

/-- A value that is not an array has no devices of its own. -/
theorem cleanField_of_obj {key : String} : CleanField (key, .obj fields) ↔ CleanFields fields :=
  ⟨fun h => h.1, fun h => ⟨h, fun _ h => by cases h⟩⟩

/-- The devices that were there before are clean. -/
theorem clean_oldDevices {old : Option Json} {key : String}
    (hold : ∀ o, old = some o → CleanField (key, o)) (hkey : isDeviceCollection key = true) :
    Tidy (oldDevices old) ∧ ∀ d ∈ oldDevices old, Clean d := by
  have hnone : Tidy [] ∧ ∀ d ∈ ([] : List Json), Clean d := ⟨⟨nodup_nil, nofun⟩, nofun⟩
  cases old with
  | none => exact hnone
  | some o =>
    obtain ⟨hclean, htidy⟩ := hold o rfl
    cases o with
    | arr items => exact ⟨htidy items rfl hkey, cleanItems_iff.1 hclean⟩
    | null | bool | num | str | obj => exact hnone

theorem mem_of_device {out : List Json} {id : String} {d : Json} (h : device out id = some d) :
    d ∈ out ∧ idOf d = some id :=
  ⟨mem_of_find?_eq_some h, by simpa using List.find?_some h⟩

/-- In a collection with ids of their own, a device is the one with its id. -/
theorem device_of_mem {out : List Json} {id : String} {d : Json}
    (hnodup : (out.filterMap idOf).Nodup) (hd : d ∈ out) (hid : idOf d = some id) :
    device out id = some d := by
  obtain ⟨front, back, rfl⟩ := append_of_mem hd
  refine device_middle (fun v hv => ?_) hid
  exact (Turned.nodup_middle hid hnodup).2 v (mem_append_left _ hv)

section Arrays

variable {old : Option Json} {key : String} {items out : List Json}

/-- The laws for a collection, from those for its entries. -/
theorem lawful_devices (hkey : isDeviceCollection key = true)
    (hold : ∀ o, old = some o → CleanField (key, o))
    (hmerged : MergedDevices (oldDevices old) items out)
    (hlaws : ∀ item ∈ items, ∀ o m, (∀ o', o = some o' → CleanField ("", o')) →
      mergeValue o "" item = .ok m → Lawful o "" item m) :
    Lawful old key (.arr items) (.arr out) := by
  obtain ⟨htidy, hclean⟩ := clean_oldDevices hold hkey
  -- what becomes of each entry that is not a removal
  have heach : ∀ item ∈ items, isRemoval item = false → ∃ id m, idOf item = some id ∧
      device out id = some m ∧ Lawful (deviceOf (oldDevices old) item) "" item m := by
    intro item hitem hstays
    obtain ⟨id, hid, hdevice⟩ := hmerged.each item hitem
    obtain ⟨fields, rfl⟩ := obj_of_idOf hid
    have hof : deviceOf (oldDevices old) (.obj fields) = device (oldDevices old) id := by
      rw [deviceOf, hid]
      rfl
    refine ⟨id, ?_⟩
    rw [hof]
    cases hbefore : device (oldDevices old) id with
    | none =>
      rw [hbefore] at hdevice
      cases hafter : device out id with
      | none =>
        rw [hafter] at hdevice
        cases hdevice
      | some m =>
        rw [hafter] at hdevice
        cases hdevice
        exact ⟨_, hid, rfl, hlaws _ hitem _ _ nofun rfl⟩
    | some d =>
      rw [hbefore] at hdevice
      obtain ⟨hd, hdid⟩ := mem_of_device hbefore
      obtain ⟨f, rfl⟩ := obj_of_idOf hdid
      cases hafter : device out id with
      | none =>
        rw [hafter] at hdevice
        cases hdevice with
        | removed hremoval =>
          rw [hstays] at hremoval
          cases hremoval
      | some m =>
        rw [hafter] at hdevice
        cases hdevice with
        | merged _ hitem' hm =>
          cases hitem'
          refine ⟨_, hid, rfl, hlaws _ hitem _ _ ?_ ?_⟩
          · rintro _ ⟨⟩
            exact cleanField_of_obj.2 (hclean _ hd)
          · simp only [mergeValue]
            change mergeObject f fields = _ at hm
            rw [hm]
  refine ⟨?_, fun hgrafts => ?_, ?_⟩
  · unfold Keeps
    refine fun _ => ⟨out, rfl, hmerged.others, keepsItems_iff.2 fun item hitem hstays d hd => ?_⟩
    obtain ⟨id, m, hid, hm, hlaw⟩ := heach item hitem hstays
    obtain ⟨hmem, hmid⟩ := mem_of_device hm
    rw [hd] at hlaw
    exact ⟨m, hmem, by rw [hmid, hid], hlaw.keeps⟩
  · unfold Grafts at hgrafts
    unfold Carries
    rw [if_pos hkey] at hgrafts ⊢
    rw [graftsItems_iff] at hgrafts
    refine ⟨out, rfl, carriesItems_iff.2 fun item hitem => ?_⟩
    cases hremoval : isRemoval item with
    | false =>
      rw [if_neg (by decide)]
      obtain ⟨id, m, hid, hm, hlaw⟩ := heach item hitem hremoval
      obtain ⟨hmem, hmid⟩ := mem_of_device hm
      exact ⟨m, hmem, by rw [hmid, hid], hlaw.carries (hgrafts item hitem hremoval)⟩
    | true =>
      rw [if_pos rfl]
      obtain ⟨id, hid, hdevice⟩ := hmerged.each item hitem
      intro v hv hsame
      rw [hid] at hsame
      rw [device_of_mem hmerged.tidy.nodup hv hsame] at hdevice
      cases hdevice.gone hremoval
  · unfold Grafts
    rw [if_pos hkey, graftsItems_iff]
    constructor
    · rintro ⟨hout, -⟩ item hitem hstays
      obtain ⟨id, m, hid, hm, hlaw⟩ := heach item hitem hstays
      have hm' := cleanItems_iff.1 hout m (mem_of_device hm).1
      exact hlaw.clean.1 ⟨hm', fun _ _ h => by simp [not_collection] at h⟩
    · intro hgrafts
      refine ⟨cleanItems_iff.2 fun v hv => ?_, fun l hl _ => ?_⟩
      · cases hun : unmentioned items v with
        | true =>
          have hkept : v ∈ (oldDevices old).filter (unmentioned items) := by
            rw [← hmerged.others]
            exact mem_filter.2 ⟨hv, hun⟩
          exact hclean v (mem_filter.1 hkept).1
        | false =>
          -- some entry names it
          cases hvid : idOf v with
          | none => simp [unmentioned, hvid] at hun
          | some id =>
            have hnamed : id ∈ items.filterMap idOf := by simpa [unmentioned, hvid] using hun
            obtain ⟨item, hitem, hid⟩ := mem_filterMap.1 hnamed
            have hdevice := device_of_mem hmerged.tidy.nodup hv hvid
            cases hremoval : isRemoval item with
            | true =>
              obtain ⟨id', hid', hturned⟩ := hmerged.each item hitem
              rw [hid] at hid'
              cases hid'
              rw [hdevice] at hturned
              cases hturned.gone hremoval
            | false =>
              obtain ⟨id', m, hid', hm, hlaw⟩ := heach item hitem hremoval
              rw [hid] at hid'
              cases hid'
              rw [hdevice] at hm
              cases hm
              exact (hlaw.clean.2 (hgrafts item hitem hremoval)).1
      · cases hl
        exact hmerged.tidy

end Arrays

/-- The laws, at any depth. -/
theorem lawful_of_mergeValue (value : Json) : ∀ old key merged,
    (∀ o, old = some o → CleanField (key, o)) → value.Ordered →
      mergeValue old key value = .ok merged → Lawful old key value merged := by
  induction value using Json.induct with
  | null =>
    intro old key merged _ _ h
    cases h
  | bool | num | str =>
    intro old key merged _ _ h
    cases h
    refine ⟨trivial, fun _ => rfl, iff_of_true ⟨trivial, fun _ h => by cases h⟩ trivial⟩
  | arr items ih =>
    intro old key merged hold hordered h
    have hitems := Json.orderedItems_iff.1 hordered
    unfold mergeValue at h
    split at h
    · next hkey =>
      split at h
      · cases h
      · next out hout =>
        cases h
        refine lawful_devices hkey hold ?_ fun item hitem o m ho hm =>
          ih item hitem o "" m ho (hitems item hitem) hm
        exact mergedDevices hitems (clean_oldDevices hold hkey).1 hout
    · next hkey =>
      cases h
      refine ⟨?_, fun _ => ?_, ?_⟩
      · unfold Keeps
        exact fun h => absurd h hkey
      · unfold Carries
        rw [if_neg hkey]
      · unfold Grafts
        rw [if_neg hkey]
        exact ⟨fun h => h.1, fun h => ⟨h, fun _ _ h => absurd h hkey⟩⟩
  | obj new ih =>
    intro old key merged hold hordered h
    obtain ⟨hnew, hfields⟩ := hordered
    rw [Json.orderedFields_iff] at hfields
    unfold mergeValue at h
    split at h
    · next base =>
      split at h
      · cases h
      next result hresult =>
      cases h
      have hbase := cleanFields_iff.1 (cleanField_of_obj.1 (hold _ rfl))
      obtain ⟨hkept, hset⟩ := mergeObject_field hnew hresult
      have hclean : ∀ e : String × Json, ∀ o, (Json.obj base).field e.1 = some o →
          CleanField (e.1, o) := fun e o ho => hbase _ (Json.mem_of_field ho)
      have hlaws : ∀ e ∈ new, ∃ m, (Json.obj result).field e.1 = some m ∧
          Lawful ((Json.obj base).field e.1) e.1 e.2 m := by
        intro e he
        obtain ⟨m, hm, hfield⟩ := hset e he
        exact ⟨m, hfield, ih e he _ _ _ (hclean e) (hfields e he) hm⟩
      refine ⟨?_, fun hgrafts => ?_, ?_⟩
      · unfold Keeps
        rintro _ ⟨⟩
        refine ⟨result, rfl, hkept, keepsFields_iff.2 fun e he => ?_⟩
        obtain ⟨m, hm, hlaw⟩ := hlaws e he
        exact ⟨m, hm, hlaw.keeps⟩
      · unfold Grafts at hgrafts
        unfold Carries
        refine ⟨result, rfl, carriesFields_iff.2 fun e he => ?_⟩
        obtain ⟨m, hm, hlaw⟩ := hlaws e he
        exact ⟨m, hm, hlaw.carries (graftsFields_iff.1 hgrafts e he)⟩
      · unfold Grafts
        rw [cleanField_of_obj, cleanFields_iff]
        change _ ↔ GraftsFields base new
        rw [graftsFields_iff]
        constructor
        · intro hresultClean e he
          obtain ⟨m, hm, hlaw⟩ := hlaws e he
          exact hlaw.clean.1 (hresultClean _ (Json.mem_of_field hm))
        · intro hgrafts e he
          rcases mem_mergeObject hnew hresult he with he | ⟨e', he', hkey, hm⟩
          · exact hbase e he
          · have hlaw := ih e' he' _ _ _ (hclean e') (hfields e' he') hm
            have := hlaw.clean.2 (hgrafts e' he')
            rw [hkey] at this
            exact this
    · next hnot =>
      cases h
      have hself : ∀ fields, old ≠ some (.obj fields) := fun fields h => hnot fields h
      have hgrafts : Grafts old key (.obj new) ↔ CleanFields new := by
        unfold Grafts
        split
        · next fields => exact absurd rfl (hself fields)
        · exact Iff.rfl
      refine ⟨?_, fun h => ?_, ?_⟩
      · unfold Keeps
        exact fun fields h => absurd h (hself fields)
      · refine carries_self _ key ⟨hnew, Json.orderedFields_iff.2 hfields⟩ ?_
        exact cleanField_of_obj.2 (hgrafts.1 h)
      · rw [cleanField_of_obj, hgrafts]

/-! ## Layers -/

/-- The laws for a layer: the result is clean, keeps what the layer does not mention, and carries
what it sets. -/
structure Laws (base layer merged : Json) : Prop where
  clean : Clean merged
  keeps : Keeps (some (.obj (objectOrEmpty base))) merged "" (.obj (objectOrEmpty layer))
  carries : Carries merged "" (.obj (objectOrEmpty layer))

/-- All that a layer brings along is clean. -/
def GraftsLayer (base layer : Json) : Prop :=
  Grafts (some (.obj (objectOrEmpty base))) "" (.obj (objectOrEmpty layer))

/-- The laws hold for each of some layers that can be merged. -/
def LawsHold (base : Json) : List Json → Prop
  | [] => True
  | layer :: layers => ∀ merged, mergeValues base layer = .ok merged →
      Laws base layer merged ∧ LawsHold merged layers

/-- All that they bring along, each to what is there then, is clean. -/
def GraftsAll (base : Json) : List Json → Prop
  | [] => True
  | layer :: layers => ∀ merged, mergeValues base layer = .ok merged →
      GraftsLayer base layer ∧ GraftsAll merged layers

theorem cleanFields_objectOrEmpty {base : Json} (h : Clean base) :
    CleanFields (objectOrEmpty base) := by
  cases base with
  | obj fields => exact h
  | null | bool | num | str | arr => trivial

theorem ordered_objectOrEmpty {layer : Json} (h : layer.Ordered) :
    (Json.obj (objectOrEmpty layer)).Ordered := by
  cases layer with
  | obj fields => exact h
  | null | bool | num | str | arr => exact ⟨List.Pairwise.nil, trivial⟩

theorem laws_iff {base layer merged : Json} (hbase : Clean base) (hlayer : layer.Ordered)
    (h : mergeValues base layer = .ok merged) :
    Laws base layer merged ↔ GraftsLayer base layer := by
  have hlaw : Lawful (some (.obj (objectOrEmpty base))) "" (.obj (objectOrEmpty layer)) merged := by
    refine lawful_of_mergeValue _ _ _ _ ?_ (ordered_objectOrEmpty hlayer) ?_
    · rintro _ ⟨⟩
      exact cleanField_of_obj.2 (cleanFields_objectOrEmpty hbase)
    · simp only [mergeValue]
      exact h
  have hclean : CleanField ("", merged) ↔ Clean merged :=
    ⟨fun h => h.1, fun h => ⟨h, fun _ _ h => by simp [not_collection] at h⟩⟩
  constructor
  · intro hlaws
    exact hlaw.clean.1 (hclean.2 hlaws.clean)
  · intro hgrafts
    exact ⟨hclean.1 (hlaw.clean.2 hgrafts), hlaw.keeps, hlaw.carries hgrafts⟩

/-- Onto a clean base, layers are merged by the laws exactly when all that each of them brings along
is clean. -/
theorem merge_laws (base : Json) (layers : List Json) (hbase : Clean base)
    (hlayers : ∀ layer ∈ layers, layer.Ordered) : LawsHold base layers ↔ GraftsAll base layers := by
  induction layers generalizing base with
  | nil => exact Iff.rfl
  | cons layer layers ih =>
    have hrest := fun l hl => hlayers l (mem_cons_of_mem layer hl)
    refine forall_congr' fun merged => forall_congr' fun hmerged => ?_
    have hlaws := laws_iff hbase (hlayers layer mem_cons_self) hmerged
    constructor
    · rintro ⟨hlayer, hlater⟩
      exact ⟨hlaws.1 hlayer, (ih merged hlayer.clean hrest).1 hlater⟩
    · rintro ⟨hgrafts, hlater⟩
      exact ⟨hlaws.2 hgrafts, (ih merged (hlaws.2 hgrafts).clean hrest).2 hlater⟩

/-- A null in a part for which there is no counterpart stays. -/
theorem merge_keeps_null : ¬ ∀ base layer merged : Json, Clean base → layer.Ordered →
    mergeValues base layer = .ok merged → Clean merged := by
  intro h
  have hnull := h (.obj []) (.obj [("firmware", .obj [("variables", .null)])]) _ trivial
    ⟨pairwise_singleton .., ⟨pairwise_singleton .., trivial, trivial⟩, trivial⟩ rfl
  exact hnull.1.1.1.1

/-- A disk of a base that a layer changes. -/
theorem merge_laws_of_disk :
    LawsHold (.obj [("disks", .arr [.obj [("id", .str "root")]])])
        [.obj [("disks", .arr [.obj [("bus", .str "sata"), ("id", .str "root")]])]] ↔
      GraftsAll (.obj [("disks", .arr [.obj [("id", .str "root")]])])
        [.obj [("disks", .arr [.obj [("bus", .str "sata"), ("id", .str "root")]])]] := by
  refine merge_laws _ _ ⟨⟨⟨⟨⟨trivial, nofun⟩, trivial⟩, trivial⟩, ?_⟩, trivial⟩ ?_
  · rintro _ ⟨⟩ _
    exact ⟨by decide, by decide⟩
  · simp only [mem_singleton, forall_eq]
    exact ⟨pairwise_singleton .., ⟨⟨by decide, trivial, trivial, trivial⟩, trivial⟩, trivial⟩

end MachineEmu
