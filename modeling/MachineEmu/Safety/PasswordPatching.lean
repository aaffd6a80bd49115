import MachineEmu.Firmware.Passwords

/-!
# What a password change leaves

A password is replaced in the line of its account. The line keeps its break unless it has two fields
alone: then the break is a part of the field that is replaced.

* `Edit`, `exists_edit` — what the change of one account finds and writes.
* `Edit.splitLines_new`, `Edit.terminated_lt` — the lines after it.
* `Framed` — nothing but password fields differs.
* `set_passwords_framed` — several changes are framed exactly where no line of an account has two
  fields and a break.
-/

namespace MachineEmu.Firmware

open Lib Python List

variable {entries : List Entry} {text user path : List Char}

section Steps

variable {α β : Type} {x : Except Failure α} {f : α → Except Failure β} {b : β}

theorem bind_eq_ok : x >>= f = .ok b ↔ ∃ a, x = .ok a ∧ f a = .ok b := by
  cases x with
  | error failure => exact ⟨nofun, fun ⟨_, h, _⟩ => nomatch h⟩
  | ok a =>
    constructor
    · exact fun h => ⟨a, rfl, h⟩
    · rintro ⟨a', ha, h⟩
      obtain rfl := Except.ok.inj ha
      exact h

end Steps

/-! ## One line -/

/-- A line with its fields up to the password. -/
theorem intercalate_cons_cons (first field : List Char) (more : List (List Char)) :
    List.intercalate [':'] (first :: field :: more) =
      first ++ ':' :: (field ++ more.flatMap (':' :: ·)) := by
  induction more generalizing first field with
  | nil => simp [List.intercalate]
  | cons next more ih =>
    have hcons : List.intercalate [':'] (first :: field :: next :: more) =
        first ++ ':' :: List.intercalate [':'] (field :: next :: more) := by
      simp [List.intercalate]
    rw [hcons, ih, flatMap_cons]
    rfl

theorem passwordHash_plain {O : Openssl} {n : ℕ} {password scheme hash : List Char}
    (h : passwordHash O n password scheme = .ok hash) : ∀ c ∈ hash, c ≠ ':' ∧ c ∉ lineBreaks := by
  unfold passwordHash at h
  split at h
  · cases h
  · obtain ⟨output, houtput, h⟩ := bind_eq_ok.1 h
    split at h
    · cases h
    · obtain rfl := Except.ok.inj h
      exact O.oneLine n scheme password output houtput

theorem editLine_eq_ok {O : Openssl} {n : ℕ} {password line edited : List Char}
    {verified : Option (List Char)} (h : editLine O n password verified line = .ok edited) :
    ∃ first field tail hash, line = first ++ ':' :: (field ++ tail) ∧
      edited = first ++ ':' :: (hash ++ tail) ∧ ':' ∉ first ∧ ':' ∉ field ∧
        (tail = [] ∨ ∃ rest, tail = ':' :: rest) ∧ ∀ c ∈ hash, c ≠ ':' ∧ c ∉ lineBreaks := by
  unfold editLine at h
  split at h
  · next first field more hsplit =>
    dsimp only at h
    split at h
    · cases h
    · obtain ⟨hash, hhash, h⟩ := bind_eq_ok.1 h
      obtain rfl := Except.ok.inj h
      refine ⟨first, field, more.flatMap (':' :: ·), hash, ?_, intercalate_cons_cons _ _ _,
        notMem_of_mem_splitOn (hsplit ▸ mem_cons_self),
        notMem_of_mem_splitOn (hsplit ▸ mem_cons_of_mem _ mem_cons_self), ?_,
        passwordHash_plain hhash⟩
      · rw [← intercalate_cons_cons, ← hsplit, intercalate_splitOn]
      · cases more with
        | nil => exact Or.inl rfl
        | cons next more => exact Or.inr ⟨_, rfl⟩
  · cases h

theorem account_append {first : List Char} (rest : List Char) (h : ':' ∉ first) :
    account (first ++ ':' :: rest) = first := by
  rw [account, takeWhile_append_of_pos]
  · simp
  · intro c hc
    simpa using fun heq : c = ':' => h (heq ▸ hc)

/-! ## One account -/

/-- The change of an account: the file, its lines around the line of the account, the fields of this
line and the new hash. -/
structure Edit (entries : List Entry) (user : List Char) where
  path : List Char
  text : List Char
  front : List (List Char × List Char)
  line : List Char × List Char
  back : List (List Char × List Char)
  field : List Char
  tail : List Char
  hash : List Char
  text_eq : textOf entries path = .ok text
  lines_eq : splitLines text = front ++ line :: back
  line_eq : line.1 ++ line.2 = user ++ ':' :: (field ++ tail)
  user_plain : ':' ∉ user
  field_plain : ':' ∉ field
  tail_eq : tail = [] ∨ ∃ rest, tail = ':' :: rest
  hash_plain : ∀ c ∈ hash, c ≠ ':' ∧ c ∉ lineBreaks
  other : ∀ l ∈ front ++ back, account (l.1 ++ l.2) ≠ user
  unique : ∀ e ∈ entries, e.name = path → Utf8.decode e.data = some text

namespace Edit

variable (E : Edit entries user)

/-- The text that is written. -/
def new : List Char :=
  joinLines E.front ++ (user ++ ':' :: (E.hash ++ E.tail)) ++ joinLines E.back

/-- The file gets the text. -/
def apply (e : Entry) : Entry := if e.name = E.path then { e with data := utf8 E.new } else e

@[simp] theorem name_apply (e : Entry) : (E.apply e).name = e.name := by
  unfold apply
  split <;> rfl

@[simp] theorem fields_apply (e : Entry) : (E.apply e).fields = e.fields := by
  unfold apply
  split <;> rfl

end Edit

theorem seen_map {g : Entry → Entry} (h : ∀ e ∈ entries, (g e).name = e.name) (name : List Char) :
    seen (entries.map g) name = (seen entries name).map g := by
  have hfind : ∀ part : List Entry, (∀ e ∈ part, (g e).name = e.name) →
      (part.map g).find? (·.name = name) = (part.find? (·.name = name)).map g := by
    intro part hpart
    induction part with
    | nil => rfl
    | cons e part ih =>
      rw [map_cons, List.find?_cons, List.find?_cons, hpart e mem_cons_self,
        ih fun e' he' => hpart e' (mem_cons_of_mem e he')]
      split <;> rfl
  rw [seen, seen, ← map_reverse]
  exact hfind _ fun e he => h e (mem_reverse.1 he)

theorem textOf_eq_ok : textOf entries path = .ok text ↔
    ∃ e, seen entries path = some e ∧ Utf8.decode e.data = some text := by
  unfold textOf
  cases seen entries path with
  | none => simp
  | some e => cases h : Utf8.decode e.data <;> simp [h]

theorem textOf_apply (E : Edit entries user) (path : List Char) :
    textOf (entries.map E.apply) path =
      if path = E.path then .ok E.new else textOf entries path := by
  have hseen : seen (entries.map E.apply) path = (seen entries path).map E.apply :=
    seen_map (fun e _ => E.name_apply e) path
  split
  · next heq =>
    obtain ⟨e, he, -⟩ := textOf_eq_ok.1 E.text_eq
    rw [heq, he] at hseen
    have hname : e.name = E.path := by simpa using List.find?_some he
    rw [heq, textOf_eq_ok]
    refine ⟨_, hseen, ?_⟩
    rw [Edit.apply, if_pos hname]
    exact Utf8.decode_eq_some_iff.2 rfl
  · next hne =>
    unfold textOf
    rw [hseen]
    cases he : seen entries path with
    | none => rfl
    | some e =>
      have hname : e.name = path := by simpa using List.find?_some he
      rw [Option.map_some, Edit.apply, if_neg (hname ▸ hne)]

theorem onlyLine_eq_ok {lines : List (List Char)} {line : List Char}
    (h : onlyLine lines user = .ok line) : ∃ front back, lines = front ++ line :: back ∧
      account line = user ∧ ∀ l ∈ front ++ back, account l ≠ user := by
  unfold onlyLine at h
  split at h
  · next found hfilter =>
    obtain rfl := Except.ok.inj h
    obtain ⟨front, back, rfl, hfront, hline, hback⟩ := filter_eq_cons_iff.1 hfilter
    refine ⟨front, back, rfl, by simpa using hline, ?_⟩
    intro l hl
    rcases mem_append.1 hl with hl | hl
    · simpa using hfront l hl
    · simpa using filter_eq_nil_iff.1 hback l hl
  · cases h

variable {entries' : List Entry}

theorem replaceFile_eq_ok {content : List UInt8}
    (h : replaceFile entries path content = .ok entries') : ∃ path', guestPath path = .ok path' ∧
      (∀ e ∈ entries, ∀ e' ∈ entries, e.name = path' → e'.name = path' → e = e') ∧
      entries' = entries.map fun e => if e.name = path' then { e with data := content } else e := by
  unfold replaceFile at h
  split at h
  · cases h
  · next path' hpath =>
    split at h
    · next target hfilter =>
      split at h
      · cases h
      · split at h
        · cases h
        · refine ⟨path', hpath, ?_, (Except.ok.inj h).symm⟩
          have htarget {e : Entry} (he : e ∈ entries) (hname : e.name = path') : e = target := by
            have hmem : e ∈ entries.filter (·.name = path') := by simp [he, hname]
            rw [hfilter] at hmem
            exact mem_singleton.1 hmem
          intro e he e' he' hname hname'
          rw [htarget he hname, htarget he' hname']
    · cases h

/-- The lines that are joined with another line of the account. -/
theorem flatten_map_line {front back : List (List Char × List Char)}
    {line : List Char × List Char} (edited : List Char) (hline : account (line.1 ++ line.2) = user)
    (hother : ∀ l ∈ front ++ back, account (l.1 ++ l.2) ≠ user) :
    (((front ++ line :: back).map fun l => l.1 ++ l.2).map
        fun l => if account l = user then edited else l).flatten =
      joinLines front ++ edited ++ joinLines back := by
  have hkept {part : List (List Char × List Char)}
      (hpart : ∀ l ∈ part, account (l.1 ++ l.2) ≠ user) :
      ((part.map fun l => l.1 ++ l.2).map fun l => if account l = user then edited else l).flatten =
        joinLines part := by
    rw [map_map, joinLines, flatMap_def]
    congr 1
    exact map_congr_left fun l hl => if_neg (hpart l hl)
  rw [map_append, map_append, flatten_append, map_cons, map_cons,
    flatten_cons, if_pos hline, hkept fun l hl => hother l (mem_append_left _ hl),
    hkept fun l hl => hother l (mem_append_right _ hl), append_assoc]

variable {shadowPath : Option (List Char)} {rows : List (List (List Char))}

variable {passwdPath : List Char}

/-- What a change of an account finds and writes, where names are paths. -/
theorem exists_edit {O : Openssl} {password : List Char}
    {verified : Option (List Char)} {n : ℕ} {patch : Patch}
    (hnames : ∀ e ∈ entries, guestPath e.name = .ok e.name)
    (h : setPassword O rows passwdPath shadowPath verified n entries user password =
      .ok (entries', patch)) :
    ∃ E : Edit entries user, passwordPath rows passwdPath shadowPath user = .ok E.path ∧
      entries' = entries.map E.apply := by
  unfold setPassword at h
  split at h
  · cases h
  · obtain ⟨path, hpath, h⟩ := bind_eq_ok.1 h
    obtain ⟨text, htext, h⟩ := bind_eq_ok.1 h
    obtain ⟨line, honly, h⟩ := bind_eq_ok.1 h
    obtain ⟨edited, hedit, h⟩ := bind_eq_ok.1 h
    obtain ⟨entries'', hreplace, h⟩ := bind_eq_ok.1 h
    obtain ⟨rfl, -⟩ := Prod.mk.inj (Except.ok.inj h)
    obtain ⟨front', back', hlines, haccount, hother⟩ := onlyLine_eq_ok honly
    obtain ⟨front, rest, hsplit, rfl, hrest⟩ := map_eq_append_iff.1 hlines
    obtain ⟨l, back, rfl, rfl, rfl⟩ := map_eq_cons_iff.1 hrest
    obtain ⟨first, field, tail, hash, hline, rfl, hfirst, hfield, htail, hhash⟩ :=
      editLine_eq_ok hedit
    obtain rfl : first = user := by rw [← haccount, hline, account_append _ hfirst]
    have hothers : ∀ l ∈ front ++ back, account (l.1 ++ l.2) ≠ first := by
      rw [← map_append] at hother
      exact fun l hl => hother _ (mem_map_of_mem hl)
    obtain ⟨path', hpath', hunique, rfl⟩ := replaceFile_eq_ok hreplace
    obtain ⟨e, he, hdecode⟩ := textOf_eq_ok.1 htext
    have hname : e.name = path := by simpa using List.find?_some he
    have hmem : e ∈ entries := mem_reverse.1 (mem_of_find?_eq_some he)
    obtain rfl : path = path' := by
      rw [← hname] at hpath'
      exact (hname.symm.trans (Except.ok.inj ((hnames e hmem).symm.trans hpath')))
    refine ⟨⟨path, text, front, l, back, field, tail, hash, htext, hsplit, hline, hfirst, hfield,
      htail, hhash, hothers, fun e' he' hname' => ?_⟩, hpath, ?_⟩
    · rwa [hunique e' he' e hmem hname' hname]
    rw [keptLines, hsplit, flatten_map_line _ haccount hothers]
    rfl

/-! ## The lines -/

/-- The lines of two texts: the same breaks, and contents that differ in the password fields of the
lines of some accounts alone. -/
inductive LineKept (users : List (List Char)) : List Char × List Char → List Char × List Char → Prop
  | same (line : List Char × List Char) : LineKept users line line
  | password {user old new more ending : List Char} (named : user ∈ users) (plain : ':' ∉ user)
    (field : ':' ∉ old ∧ ':' ∉ new) (behind : more = [] ∨ ∃ rest, more = ':' :: rest) :
    LineKept users (user ++ ':' :: (old ++ more), ending) (user ++ ':' :: (new ++ more), ending)

/-- A line has two fields alone, and a break. -/
def Short (user : List Char) (line : List Char × List Char) : Prop :=
  account line.1 = user ∧ line.1.count ':' = 1 ∧ line.2 ≠ []

theorem plain_ending {content ending rest : List Char} (h : IsLine content ending rest) :
    ':' ∉ ending := by
  have hends := h.ends
  cases hends with
  | last => exact not_mem_nil
  | pair rest => decide
  | single hc hpair =>
    intro hmem
    obtain rfl := mem_singleton.1 hmem
    exact absurd hc (by decide)

/-- The end of a list behind a separator that is not in its last part. -/
theorem append_eq_append_cons {content ending first tail : List Char}
    (h : content ++ ending = first ++ ':' :: tail) (hending : ':' ∉ ending) :
    ∃ more, content = first ++ ':' :: more ∧ tail = more ++ ending := by
  rcases append_eq_append_iff.1 h with ⟨as, hfirst, hrest⟩ | ⟨as, hcontent, hrest⟩
  · exact absurd (hrest ▸ mem_append_right _ mem_cons_self) hending
  · cases as with
    | nil => exact absurd (by rw [← nil_append ending, ← hrest]; exact mem_cons_self) hending
    | cons c as =>
      obtain ⟨rfl, rfl⟩ := List.cons.inj hrest
      exact ⟨as, hcontent, rfl⟩

namespace Edit

variable (E : Edit entries user)

theorem isLine : IsLine E.line.1 E.line.2 (joinLines E.back) := by
  obtain ⟨last, -, hmore, hline⟩ := splitLines_eq_cons (splitLines_joinLines E.lines_eq)
  rwa [← joinLines_splitLines last, hmore] at hline

theorem content_eq : ∃ more, E.line.1 = user ++ ':' :: more ∧ E.field ++ E.tail = more ++ E.line.2 :=
  append_eq_append_cons E.line_eq (plain_ending E.isLine)

/-- The line has three fields, or no break. -/
theorem content_of_not_short (h : ¬Short user E.line) : ∃ more,
    E.line.1 = user ++ ':' :: (E.field ++ more) ∧ E.tail = more ++ E.line.2 ∧
      (more = [] ∨ ∃ rest, more = ':' :: rest) := by
  rcases E.tail_eq with htail | ⟨rest, htail⟩
  · have hending : E.line.2 = [] := by
      by_contra hne
      obtain ⟨more, hcontent, hmore⟩ := E.content_eq
      have hplain : ':' ∉ more := by
        intro hmem
        refine E.field_plain ?_
        rw [← append_nil E.field, ← htail, hmore]
        exact mem_append_left _ hmem
      refine h ⟨by rw [hcontent, account_append _ E.user_plain], ?_, hne⟩
      rw [hcontent, count_append, count_cons_self, count_eq_zero_of_not_mem hplain,
        count_eq_zero_of_not_mem E.user_plain]
    have hline := E.line_eq
    rw [hending, append_nil, htail] at hline
    exact ⟨[], hline, by rw [htail, hending]; rfl, Or.inl rfl⟩
  · have hline := E.line_eq
    rw [htail, ← cons_append, ← append_assoc] at hline
    obtain ⟨more, hcontent, hrest⟩ := append_eq_append_cons hline (plain_ending E.isLine)
    exact ⟨':' :: more, by rw [hcontent]; simp, by rw [htail, hrest]; rfl, Or.inr ⟨more, rfl⟩⟩

theorem plain_new {more : List Char} (h : ∀ c ∈ user ++ ':' :: (E.field ++ more), c ∉ lineBreaks) :
    ∀ c ∈ user ++ ':' :: (E.hash ++ more), c ∉ lineBreaks := by
  intro c hc
  simp only [mem_append, mem_cons] at hc h
  rcases hc with hc | hc | hc | hc
  · exact h c (Or.inl hc)
  · exact h c (Or.inr (Or.inl hc))
  · exact (E.hash_plain c hc).2
  · exact h c (Or.inr (Or.inr (Or.inr hc)))

theorem hash_plain' : ':' ∉ E.hash := fun hmem => (E.hash_plain ':' hmem).1 rfl

/-- With three fields, or no break, the line alone differs, and in its password alone. -/
theorem splitLines_new (h : ¬Short user E.line) : ∃ line',
    splitLines E.new = E.front ++ line' :: E.back ∧ LineKept [user] E.line line' := by
  obtain ⟨more, hcontent, htail, hmore⟩ := E.content_of_not_short h
  have hnew : E.new =
      joinLines E.front ++ (user ++ ':' :: (E.hash ++ more) ++ E.line.2 ++ joinLines E.back) := by
    rw [Edit.new, htail]
    simp
  refine ⟨(user ++ ':' :: (E.hash ++ more), E.line.2), ?_, ?_⟩
  · rw [hnew]
    exact splitLines_replace E.lines_eq (append_ne_nil_of_right_ne_nil _ (cons_ne_nil _ _))
      (E.plain_new (hcontent ▸ E.isLine.plain))
  · have hline : E.line = (user ++ ':' :: (E.field ++ more), E.line.2) := by rw [← hcontent]
    rw [hline]
    exact .password (mem_singleton_self user) E.user_plain ⟨E.field_plain, E.hash_plain'⟩ hmore

/-- With two fields alone the break is lost. -/
theorem terminated_lt (h : Short user E.line) :
    breakCount (splitLines E.new) < breakCount (splitLines E.text) := by
  obtain ⟨haccount, hcount, hbreak⟩ := h
  obtain ⟨more, hcontent, hmore⟩ := E.content_eq
  have hplain : ':' ∉ more := by
    intro hmem
    have hpos := count_pos_iff.2 hmem
    rw [hcontent, count_append, count_cons_self] at hcount
    omega
  have htail : E.tail = [] := by
    rcases E.tail_eq with htail | ⟨rest, htail⟩
    · exact htail
    · have hmem : ':' ∈ more ++ E.line.2 := by
        rw [← hmore, htail]
        exact mem_append_right _ mem_cons_self
      rcases mem_append.1 hmem with hmem | hmem
      · exact absurd hmem hplain
      · exact absurd hmem (plain_ending E.isLine)
  have hchars := E.isLine.plain
  have hnew : ∀ c ∈ user ++ ':' :: E.hash, c ∉ lineBreaks := by
    intro c hc
    rw [hcontent] at hchars
    simp only [mem_append, mem_cons] at hc hchars
    rcases hc with hc | hc | hc
    · exact hchars c (Or.inl hc)
    · exact hchars c (Or.inr (Or.inl hc))
    · exact (E.hash_plain c hc).2
  have heq : E.new = joinLines E.front ++ ((user ++ ':' :: E.hash) ++ joinLines E.back) := by
    rw [Edit.new, htail]
    simp
  rw [heq]
  exact terminated_merge E.lines_eq hbreak
    (append_ne_nil_of_right_ne_nil _ (cons_ne_nil _ _)) hnew

end Edit

/-! ## A whole archive -/

/-- An entry of which password fields of some accounts alone differ, if it is one of some files. -/
structure Kept (users paths : List (List Char)) (e e' : Entry) : Prop where
  name : e'.name = e.name
  fields : e'.fields = e.fields
  data : e'.data = e.data ∨ e.name ∈ paths ∧ ∃ text text', Utf8.decode e.data = some text ∧
    Utf8.decode e'.data = some text' ∧
      List.Forall₂ (LineKept users) (splitLines text) (splitLines text')

/-- The entries of an archive, in which password fields of some accounts alone differ. -/
def Framed (users paths : List (List Char)) (entries entries' : List Entry) : Prop :=
  ∃ change : Entry → Entry, entries' = entries.map change ∧
    ∀ e ∈ entries, Kept users paths e (change e)

/-- How many lines of a file have a break. -/
def breaks (entries : List Entry) (path : List Char) : ℕ :=
  match textOf entries path with
  | .ok text => breakCount (splitLines text)
  | .error _ => 0

variable {users users' paths : List (List Char)} {line line' line'' : List Char × List Char}

theorem LineKept.ending (h : LineKept users line line') : line'.2 = line.2 := by
  cases h <;> rfl

theorem LineKept.account (h : LineKept users line line') :
    account line'.1 = account line.1 ∧ (line' = line ∨ account line.1 ∈ users) := by
  cases h with
  | same => exact ⟨rfl, Or.inl rfl⟩
  | password named plain field behind =>
    rw [account_append _ plain, account_append _ plain]
    exact ⟨rfl, Or.inr named⟩

theorem LineKept.mono (h : LineKept users line line') (hsub : users ⊆ users') :
    LineKept users' line line' := by
  cases h with
  | same => exact .same _
  | password named plain field behind => exact .password (hsub named) plain field behind

/-- No line is changed for two accounts. -/
theorem LineKept.trans (h : LineKept users line line') (h' : LineKept users' line' line'')
    (hdisjoint : users.Disjoint users') : LineKept (users ++ users') line line'' := by
  rcases h'.account.2 with rfl | hmem'
  · exact h.mono (subset_append_left _ _)
  · rcases h.account.2 with rfl | hmem
    · exact h'.mono (subset_append_right _ _)
    · exact absurd (h.account.1 ▸ hmem') (hdisjoint hmem)

theorem Framed.refl (users paths : List (List Char)) (entries : List Entry) :
    Framed users paths entries entries :=
  ⟨id, (map_id _).symm, fun _ _ => ⟨rfl, rfl, Or.inl rfl⟩⟩

theorem forall₂_kept_trans {lines lines' lines'' : List (List Char × List Char)}
    (hdisjoint : users.Disjoint users') (h : List.Forall₂ (LineKept users) lines lines')
    (h' : List.Forall₂ (LineKept users') lines' lines'') :
    List.Forall₂ (LineKept (users ++ users')) lines lines'' := by
  induction h generalizing lines'' with
  | nil =>
    cases h'
    exact .nil
  | cons hline _ ih =>
    obtain ⟨line'', rest, hline', hrest, rfl⟩ := List.forall₂_cons_left_iff.1 h'
    exact .cons (hline.trans hline' hdisjoint) (ih hrest)

theorem Kept.trans {e e' e'' : Entry} (hdisjoint : users.Disjoint users')
    (h : Kept users paths e e') (h' : Kept users' paths e' e'') :
    Kept (users ++ users') paths e e'' := by
  refine ⟨h'.name.trans h.name, h'.fields.trans h.fields, ?_⟩
  rcases h.data with hdata | ⟨hpath, text, text', htext, htext', hlines⟩
  · rcases h'.data with hdata' | ⟨hpath', text, text', htext, htext', hlines⟩
    · exact Or.inl (hdata'.trans hdata)
    · refine Or.inr ⟨h.name ▸ hpath', text, text', hdata ▸ htext, htext', ?_⟩
      exact hlines.imp fun _ _ hline => hline.mono (subset_append_right _ _)
  · rcases h'.data with hdata' | ⟨-, text₁, text₂, htext₁, htext₂, hlines'⟩
    · refine Or.inr ⟨hpath, text, text', htext, hdata' ▸ htext', ?_⟩
      exact hlines.imp fun _ _ hline => hline.mono (subset_append_left _ _)
    · obtain rfl := Option.some.inj (htext'.symm.trans htext₁)
      exact Or.inr ⟨hpath, text, text₂, htext, htext₂, forall₂_kept_trans hdisjoint hlines hlines'⟩

theorem Framed.trans {entries'' : List Entry} (hdisjoint : users.Disjoint users')
    (h : Framed users paths entries entries') (h' : Framed users' paths entries' entries'') :
    Framed (users ++ users') paths entries entries'' := by
  obtain ⟨change, rfl, hkept⟩ := h
  obtain ⟨change', rfl, hkept'⟩ := h'
  refine ⟨change' ∘ change, map_map .., fun e he => ?_⟩
  exact (hkept e he).trans hdisjoint (hkept' _ (mem_map_of_mem he))

theorem terminated_kept {lines lines' : List (List Char × List Char)}
    (h : List.Forall₂ (LineKept users) lines lines') : breakCount lines' = breakCount lines := by
  induction h with
  | nil => rfl
  | cons hline _ ih =>
    rw [breakCount, countP_cons, ← breakCount, ih, hline.ending, breakCount, breakCount,
      countP_cons]

/-- What is framed keeps its breaks. -/
theorem Framed.breaks (h : Framed users paths entries entries')
    (path : List Char) : breaks entries' path = breaks entries path := by
  obtain ⟨change, rfl, hkept⟩ := h
  unfold Firmware.breaks textOf
  rw [seen_map (fun e he => (hkept e he).name) path]
  cases he : seen entries path with
  | none => rfl
  | some e =>
    have hmem : e ∈ entries := mem_reverse.1 (mem_of_find?_eq_some he)
    rw [Option.map_some]
    dsimp only
    rcases (hkept e hmem).data with hdata | ⟨-, text, text', htext, htext', hlines⟩
    · rw [hdata]
    · rw [htext, htext']
      exact terminated_kept hlines

/-! ## Several accounts -/

/-- No line of an account in its file has two fields alone and a break. -/
def RegularLines (rows : List (List (List Char))) (passwdPath : List Char)
    (shadowPath : Option (List Char)) (entries : List Entry) (user : List Char) : Prop :=
  ∀ path text, passwordPath rows passwdPath shadowPath user = .ok path →
    textOf entries path = .ok text → ∀ line ∈ splitLines text, ¬Short user line

namespace Edit

variable (E : Edit entries user)

theorem short_iff {l : List Char × List Char} (h : l ∈ splitLines E.text) :
    Short user l → l = E.line := by
  rintro ⟨haccount, hcount, -⟩
  rw [E.lines_eq] at h
  by_contra hne
  have hmem : l ∈ E.front ++ E.back := by
    simp only [mem_append, mem_cons] at h ⊢
    tauto
  refine E.other l hmem ?_
  have hcolon : ':' ∈ l.1 := count_pos_iff.1 (by omega)
  obtain ⟨first, rest, hfirst, hsplit⟩ := eq_append_cons_of_mem hcolon
  rw [hfirst, account_append rest hsplit] at haccount
  rw [hfirst, append_assoc, cons_append, account_append _ hsplit, haccount]

/-- The line of the edit is the one that counts. -/
theorem regularLines_iff (hpath : passwordPath rows passwdPath shadowPath user = .ok E.path) :
    RegularLines rows passwdPath shadowPath entries user ↔ ¬Short user E.line := by
  constructor
  · intro h
    refine h E.path E.text hpath E.text_eq E.line ?_
    rw [E.lines_eq]
    exact mem_append_right _ mem_cons_self
  · intro h path text hpath' htext line hline hshort
    obtain rfl := Except.ok.inj (hpath.symm.trans hpath')
    obtain rfl := Except.ok.inj (E.text_eq.symm.trans htext)
    exact h (E.short_iff hline hshort ▸ hshort)

/-- The lines of other accounts stay as they are. -/
theorem regularLines_apply {user' : List Char} (hshort : ¬Short user E.line) (hne : user' ≠ user) :
    RegularLines rows passwdPath shadowPath (entries.map E.apply) user' ↔
      RegularLines rows passwdPath shadowPath entries user' := by
  obtain ⟨line', hnew, hkept⟩ := E.splitLines_new hshort
  obtain ⟨more, hcontent, -⟩ := E.content_eq
  have hold : account E.line.1 = user := by rw [hcontent, account_append _ E.user_plain]
  have hother {line : List Char × List Char} (h : account line.1 = user) : ¬Short user' line :=
    fun hshort' => hne (hshort'.1.symm.trans h)
  have hlines : (∀ line ∈ splitLines E.new, ¬Short user' line) ↔
      ∀ line ∈ splitLines E.text, ¬Short user' line := by
    rw [hnew, E.lines_eq]
    simp only [forall_mem_append, forall_mem_cons]
    rw [iff_of_true (hother (hkept.account.1.trans hold)) (hother hold)]
  have hpath : ∀ path, (∀ text, textOf (entries.map E.apply) path = .ok text →
      ∀ line ∈ splitLines text, ¬Short user' line) ↔
        ∀ text, textOf entries path = .ok text → ∀ line ∈ splitLines text, ¬Short user' line := by
    intro path
    rw [textOf_apply]
    split
    · next heq =>
      rw [heq, E.text_eq]
      constructor
      · rintro h text ⟨⟩
        exact hlines.1 (h _ rfl)
      · rintro h text ⟨⟩
        exact hlines.2 (h _ rfl)
    · exact Iff.rfl
  constructor
  · exact fun h path text hpath' htext =>
      (hpath path).1 (fun text' htext' => h path text' hpath' htext') text htext
  · exact fun h path text hpath' htext =>
      (hpath path).2 (fun text' htext' => h path text' hpath' htext') text htext

/-- A line with three fields, or without a break: the password field alone differs. -/
theorem framed (hshort : ¬Short user E.line) (hpath : E.path ∈ paths) :
    Framed [user] paths entries (entries.map E.apply) := by
  obtain ⟨line', hnew, hkept⟩ := E.splitLines_new hshort
  refine ⟨E.apply, rfl, fun e he => ⟨E.name_apply e, E.fields_apply e, ?_⟩⟩
  by_cases hname : e.name = E.path
  · have hsame (part : List (List Char × List Char)) :
        List.Forall₂ (LineKept [user]) part part :=
      List.forall₂_same.2 fun line _ => .same line
    refine Or.inr ⟨hname ▸ hpath, E.text, E.new, E.unique e he hname, ?_, ?_⟩
    · rw [Edit.apply, if_pos hname]
      exact Utf8.decode_eq_some_iff.2 rfl
    · rw [hnew, E.lines_eq]
      exact rel_append (hsame _) (.cons hkept (hsame _))
  · exact Or.inl (by rw [Edit.apply, if_neg hname])

theorem breaks_apply (path : List Char) : breaks (entries.map E.apply) path =
    if path = E.path then breakCount (splitLines E.new) else breaks entries path := by
  unfold breaks
  rw [textOf_apply]
  by_cases heq : path = E.path
  · rw [if_pos heq, if_pos heq]
  · rw [if_neg heq, if_neg heq]

theorem breaks_path : breaks entries E.path = breakCount (splitLines E.text) := by
  unfold breaks
  rw [E.text_eq]

/-- A file never gains a break. -/
theorem breaks_le (path : List Char) : breaks (entries.map E.apply) path ≤ breaks entries path := by
  by_cases hshort : Short user E.line
  · rw [E.breaks_apply]
    split
    · next heq =>
      rw [heq, E.breaks_path]
      exact (E.terminated_lt hshort).le
    · exact le_rfl
  · have hframed : Framed [user] [E.path] entries (entries.map E.apply) :=
      E.framed hshort (mem_singleton_self E.path)
    exact (hframed.breaks path).le

end Edit

theorem passwordPath_mem (h : passwordPath rows passwdPath shadowPath user = .ok path) :
    path ∈ passwdPath :: shadowPath.toList := by
  unfold passwordPath at h
  split at h
  · split at h
    · cases h
    · split at h
      · cases h
      · next found hfound =>
        obtain rfl := Except.ok.inj h
        split at hfound
        · rw [hfound]
          exact mem_cons_of_mem _ mem_cons_self
        · obtain rfl := Option.some.inj hfound
          exact mem_cons_self
  · cases h

section Run

variable {O : Openssl} {rows : List (List (List Char))} {passwdPath : List Char}
  {shadowPath verified : Option (List Char)} {passwords : List (List Char × List Char)}
  {entries' : List Entry} {patches : List Patch} {n : ℕ}

/-- What the accounts from a call on do: no file gains a break, and with regular lines alone
password fields alone differ; with another line a file loses a break. -/
theorem setPasswordsFrom_spec (hnames : ∀ e ∈ entries, guestPath e.name = .ok e.name)
    (hdistinct : (passwords.map Prod.fst).Nodup)
    (h : setPasswordsFrom O rows passwdPath shadowPath verified n entries passwords =
      .ok (entries', patches)) :
    (∀ path, breaks entries' path ≤ breaks entries path) ∧
      ((∀ user ∈ passwords.map Prod.fst, RegularLines rows passwdPath shadowPath entries user) →
        Framed (passwords.map Prod.fst) (passwdPath :: shadowPath.toList) entries entries') ∧
      (¬(∀ user ∈ passwords.map Prod.fst, RegularLines rows passwdPath shadowPath entries user) →
        ∃ path, breaks entries' path < breaks entries path) := by
  induction passwords generalizing n entries patches with
  | nil =>
    obtain ⟨rfl, -⟩ := Prod.mk.inj (Except.ok.inj h)
    exact ⟨fun path => le_rfl, fun _ => Framed.refl _ _ _,
      fun hnot => absurd (fun user huser => absurd huser not_mem_nil) hnot⟩
  | cons first passwords ih =>
    obtain ⟨user, password⟩ := first
    rw [setPasswordsFrom] at h
    obtain ⟨⟨between, patch⟩, hfirst, h⟩ := bind_eq_ok.1 h
    obtain ⟨⟨last, rest⟩, hrest, h⟩ := bind_eq_ok.1 h
    obtain ⟨rfl, -⟩ := Prod.mk.inj (Except.ok.inj h)
    obtain ⟨E, hpath, rfl⟩ := exists_edit hnames hfirst
    rw [map_cons, nodup_cons] at hdistinct
    have hnames' : ∀ e ∈ entries.map E.apply, guestPath e.name = .ok e.name := by
      intro e he
      obtain ⟨old, hold, rfl⟩ := mem_map.1 he
      rw [E.name_apply]
      exact hnames old hold
    obtain ⟨hle, hframed, hlt⟩ := ih hnames' hdistinct.2 hrest
    have hregular := E.regularLines_iff hpath
    rw [map_cons, forall_mem_cons]
    refine ⟨fun path => (hle path).trans (E.breaks_le path), ?_, ?_⟩
    · rintro ⟨huser, hothers⟩
      have hshort := hregular.1 huser
      refine (E.framed hshort (passwordPath_mem hpath)).trans ?_ (hframed ?_)
      · exact singleton_disjoint.2 hdistinct.1
      · intro user' huser'
        rw [E.regularLines_apply hshort (by rintro rfl; exact hdistinct.1 huser')]
        exact hothers user' huser'
    · intro hnot
      by_cases hshort : Short user E.line
      · refine ⟨E.path, (hle E.path).trans_lt ?_⟩
        rw [E.breaks_apply, if_pos rfl, E.breaks_path]
        exact E.terminated_lt hshort
      · obtain ⟨path, hpath'⟩ := hlt fun hothers => hnot ⟨hregular.2 hshort, fun user' huser' => by
          rw [← E.regularLines_apply hshort (by rintro rfl; exact hdistinct.1 huser')]
          exact hothers user' huser'⟩
        exact ⟨path, hpath'.trans_le (E.breaks_le path)⟩

/-! ## The result -/

/-- Entries of an archive: their names are paths. -/
structure Archive where
  entries : List Entry
  named : ∀ e ∈ entries, guestPath e.name = .ok e.name

/-- No line of a named account has two fields alone and a break. -/
def RegularAccounts (entries : List Entry) (users : List (List Char)) (passwdPath : List Char)
    (shadowPath : Option (List Char)) : Prop :=
  ∀ text, textOf entries passwdPath = .ok text → ∀ user ∈ users,
    RegularLines (accountRows text) passwdPath shadowPath entries user

theorem framed_iff (archive : Archive) (hdistinct : (passwords.map Prod.fst).Nodup)
    (h : setPasswords O archive.entries passwords passwdPath shadowPath verified =
      .ok (entries', patches)) :
    Framed (passwords.map Prod.fst) (passwdPath :: shadowPath.toList) archive.entries entries' ↔
      RegularAccounts archive.entries (passwords.map Prod.fst) passwdPath shadowPath := by
  unfold setPasswords at h
  split at h
  · cases h
  · next e he =>
    split at h
    · cases h
    · next text hdecode =>
      have htext : textOf archive.entries passwdPath = .ok text :=
        textOf_eq_ok.2 ⟨e, he, hdecode⟩
      obtain ⟨-, hframed, hlt⟩ := setPasswordsFrom_spec archive.named hdistinct h
      constructor
      · intro hkept text' htext'
        obtain rfl := Except.ok.inj (htext.symm.trans htext')
        by_contra hnot
        obtain ⟨path, hpath⟩ := hlt hnot
        exact absurd (hkept.breaks path) hpath.ne
      · exact fun hregular => hframed (hregular text htext)

/-- Where the passwords of distinct accounts are set, password fields alone differ exactly where no
line of a named account has two fields alone and a break. -/
theorem set_passwords_framed (O : Openssl) (archive : Archive)
    (passwords : List (List Char × List Char)) (passwdPath : List Char)
    (shadowPath verified : Option (List Char)) (result : List Entry × List Patch)
    (hdistinct : (passwords.map Prod.fst).Nodup)
    (h : setPasswords O archive.entries passwords passwdPath shadowPath verified = .ok result) :
    Framed (passwords.map Prod.fst) (passwdPath :: shadowPath.toList) archive.entries result.1 ↔
      RegularAccounts archive.entries (passwords.map Prod.fst) passwdPath shadowPath :=
  framed_iff archive hdistinct h

end Run

/-! ### An account -/

/-- A hash of the scheme 6. -/
def sampleOpenssl : Openssl where
  passwd _ _ _ := .ok "$6$salt$hash\n".toList
  oneLine := by
    rintro _ _ _ output ⟨⟩
    have hall : (strip "$6$salt$hash\n".toList).all (fun c => c ≠ ':' && c ∉ lineBreaks) = true := by
      decide +kernel
    intro c hc
    simpa using all_eq_true.1 hall c hc

def root : List Char := ['r', 'o', 'o', 't']

def samplePasswd : List Char := "root:x:0:0:root:/root:/bin/sh\n".toList

/-- The files `passwd` and `shadow`. -/
def sampleArchive (shadow : List Char) : Archive where
  entries :=
    [⟨['p'], fun i => if i = 1 then 0o100644 else if i = 4 then 1 else 0, utf8 samplePasswd⟩,
      ⟨['s'], fun i => if i = 1 then 0o100600 else if i = 4 then 1 else 0, utf8 shadow⟩]
  named := by
    intro e he
    rcases mem_cons.1 he with rfl | he
    · decide +kernel
    · obtain rfl := mem_singleton.1 he
      show guestPath ['s'] = .ok ['s']
      decide +kernel

def sampleResult (shadow : List Char) : Except Failure (List Entry × List Patch) :=
  setPasswords sampleOpenssl (sampleArchive shadow).entries [(root, ['p', 'w'])] ['p'] (some ['s'])
    none

theorem set_passwords_framed_root : ∃ result,
    sampleResult "root:$6$old:1\n".toList = .ok result ∧
      (Framed [root] [['p'], ['s']] (sampleArchive "root:$6$old:1\n".toList).entries result.1 ↔
        RegularAccounts (sampleArchive "root:$6$old:1\n".toList).entries [root] ['p']
          (some ['s'])) := by
  have hok : (sampleResult "root:$6$old:1\n".toList).toBool = true := by decide +kernel
  cases h : sampleResult "root:$6$old:1\n".toList with
  | error failure =>
    rw [h] at hok
    cases hok
  | ok result =>
    exact ⟨result, rfl, set_passwords_framed sampleOpenssl _ [(root, ['p', 'w'])] ['p'] (some ['s'])
      none result (by decide) h⟩

/-- The line of the account has two fields, and the next line is run into. -/
theorem not_set_passwords_framed :
    ¬∀ (O : Openssl) (archive : Archive) (passwords : List (List Char × List Char))
      (passwdPath : List Char) (shadowPath verified : Option (List Char))
      (result : List Entry × List Patch), (passwords.map Prod.fst).Nodup →
        setPasswords O archive.entries passwords passwdPath shadowPath verified = .ok result →
          Framed (passwords.map Prod.fst) (passwdPath :: shadowPath.toList) archive.entries
            result.1 := by
  intro hall
  have hok : (sampleResult "root:$6$old\nlog:*:1\n".toList).toBool = true := by decide +kernel
  cases h : sampleResult "root:$6$old\nlog:*:1\n".toList with
  | error failure =>
    rw [h] at hok
    cases hok
  | ok result =>
    have hframed := hall _ _ _ _ _ _ _ (by decide) h
    have hregular := (framed_iff _ (by decide) h).1 hframed
    refine hregular samplePasswd (by decide +kernel) root mem_cons_self ['s']
      "root:$6$old\nlog:*:1\n".toList (by decide +kernel) (by decide +kernel)
      ("root:$6$old".toList, ['\n']) (by decide +kernel) ?_
    exact ⟨by decide +kernel, by decide +kernel, by decide⟩

end MachineEmu.Firmware
