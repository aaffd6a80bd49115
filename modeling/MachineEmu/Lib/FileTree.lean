import Mathlib.Data.List.Dedup
import Mathlib.Data.List.Infix
import Mathlib.Tactic.Common

/-!
# File trees

Files and directories under one root, and what the calls of an operating system do to them. A
call is a function from a tree to the next tree, or to nothing when it is refused; a tree is
observed through `look`, the file or directory at a path.

* `FileTree.put` and `FileTree.look_put` — replace the subtree at a path.
* `write`, `createDir`, `createDirAll`, `rename`, `link`, `removeFile`, `removeDir`,
  `removeDirAll` — the calls, each with a lemma `look_…` for what is at every path after it.
* `names` and `mem_names` — what a directory lists.
-/

namespace Lib

open List Option

/-- The names from the root down to an entry. -/
abbrev Path := List String

/-- A file with its bytes, or a directory with its entries in the order in which it lists them. -/
inductive FileTree where
  | file (bytes : List UInt8)
  | dir (entries : List (String × FileTree))

namespace FileTree

/-- What is at a path: a file with its bytes, or a directory. -/
inductive Entry where
  | file (bytes : List UInt8)
  | dir
  deriving DecidableEq

/-- The root of a tree without what is below it. -/
def head : FileTree → Entry
  | file bytes => .file bytes
  | dir _ => .dir

/-- The entry of a directory with a name. -/
def entry (a : String) : List (String × FileTree) → Option FileTree
  | [] => none
  | (b, n) :: es => if b = a then some n else entry a es

/-- Replace or remove the entry of a directory with a name. -/
def setEntry (a : String) (x : Option FileTree) (es : List (String × FileTree)) :
    List (String × FileTree) :=
  (es.filter fun e => e.1 ≠ a) ++ x.toList.map fun n => (a, n)

/-- The subtree at a path. -/
def get : FileTree → Path → Option FileTree
  | n, [] => some n
  | file _, _ :: _ => none
  | dir es, a :: p => (entry a es).bind fun n => n.get p

/-- What is at a path. -/
def look (t : FileTree) (p : Path) : Option Entry := (t.get p).map head

/-- Replace or remove the subtree at a path; its parent is a directory. -/
def put : FileTree → Path → Option FileTree → FileTree
  | n, [], x => x.getD n
  | file bytes, _ :: _, _ => file bytes
  | dir es, [a], x => dir (setEntry a x es)
  | dir es, a :: b :: p, x =>
    match entry a es with
    | none => dir es
    | some n => dir (setEntry a (some (n.put (b :: p) x)) es)

/-- The names that the directory at a path lists. -/
def names (t : FileTree) (p : Path) : List String :=
  match t.get p with
  | some (dir es) => (es.map Prod.fst).dedup
  | _ => []

mutual

/-- Whether some entry below the root has a name with a property. -/
def anyName (f : String → Bool) : FileTree → Bool
  | file _ => false
  | dir es => anyNameIn f es

def anyNameIn (f : String → Bool) : List (String × FileTree) → Bool
  | [] => false
  | e :: es => anyNameOf f e || anyNameIn f es

def anyNameOf (f : String → Bool) : String × FileTree → Bool
  | (a, n) => f a || anyName f n

end

mutual

/-- The length of the longest path. -/
def height : FileTree → Nat
  | file _ => 0
  | dir es => heightIn es

def heightIn : List (String × FileTree) → Nat
  | [] => 0
  | e :: es => max (heightOf e) (heightIn es)

def heightOf : String × FileTree → Nat
  | (_, n) => n.height + 1

end

variable {t t' : FileTree} {p q : Path}

/-- A path above another one is not longer. -/
theorem not_prefix_of_length (h : q.length < p.length) : ¬ p <+: q :=
  fun hprefix => Nat.not_lt.2 hprefix.length_le h

/-! ## Looking -/

theorem entry_append (a : String) (es fs : List (String × FileTree)) :
    entry a (es ++ fs) = (entry a es).or (entry a fs) := by
  induction es with
  | nil => simp [entry]
  | cons e es ih =>
    obtain ⟨b, n⟩ := e
    by_cases hb : b = a
    · simp [entry, hb]
    · simp [entry, hb, ih]

theorem entry_filter (a b : String) (es : List (String × FileTree)) :
    entry b (es.filter fun e => e.1 ≠ a) = if b = a then none else entry b es := by
  induction es with
  | nil => simp [entry]
  | cons e es ih =>
    obtain ⟨c, n⟩ := e
    by_cases hc : c = a
    · subst hc
      rw [filter_cons_of_neg (by simp), ih]
      by_cases hb : b = c
      · simp [hb]
      · simp [hb, entry, Ne.symm hb]
    · rw [filter_cons_of_pos (by simpa using hc)]
      unfold entry
      by_cases hb : c = b
      · subst hb
        simp [hc]
      · rw [if_neg hb, if_neg hb, ih]

theorem entry_setEntry (a b : String) (x : Option FileTree) (es : List (String × FileTree)) :
    entry b (setEntry a x es) = if b = a then x else entry b es := by
  unfold setEntry
  rw [entry_append, entry_filter]
  by_cases hb : b = a
  · subst hb
    cases x <;> simp [entry]
  · rw [if_neg hb, if_neg hb]
    cases x <;> simp [entry, Ne.symm hb]

variable {a : String}

theorem entry_ne_none {es : List (String × FileTree)} :
    entry a es ≠ none ↔ a ∈ es.map Prod.fst := by
  induction es with
  | nil => simp [entry]
  | cons e es ih =>
    obtain ⟨b, n⟩ := e
    by_cases hb : b = a
    · simp [entry, hb]
    · simp [entry, hb, ih, Ne.symm hb]

theorem get_append (t : FileTree) (p q : Path) :
    t.get (p ++ q) = (t.get p).bind fun n => n.get q := by
  induction p generalizing t with
  | nil => simp [get]
  | cons a p ih =>
    cases t with
    | file bytes => simp [get]
    | dir es =>
      cases h : entry a es with
      | none => simp [get, h]
      | some n => simp [get, h, ih]

theorem look_append (t : FileTree) (p q : Path) :
    t.look (p ++ q) = (t.get p).bind fun n => n.look q := by
  unfold look
  rw [get_append]
  cases t.get p <;> rfl

@[simp] theorem look_nil (t : FileTree) : t.look [] = some t.head := by
  unfold look get
  rfl

@[simp] theorem look_file_cons (bytes : List UInt8) (a : String) (p : Path) :
    (file bytes).look (a :: p) = none := rfl

theorem look_dir_cons (es : List (String × FileTree)) (a : String) (p : Path) :
    (dir es).look (a :: p) = (entry a es).bind fun n => n.look p := by
  have hget : (dir es).get (a :: p) = (entry a es).bind fun n => n.get p := rfl
  unfold look
  rw [hget]
  cases entry a es <;> rfl

/-- Nothing is below a path where nothing is. -/
theorem look_append_of_none (h : t.look p = none) (q : Path) : t.look (p ++ q) = none := by
  rw [look_append, map_eq_none_iff.1 h]
  rfl

variable {bytes : List UInt8}

/-- Nothing is below a file. -/
theorem look_append_of_file (h : t.look p = some (.file bytes))
    (hq : q ≠ []) : t.look (p ++ q) = none := by
  obtain ⟨n, hn, hhead⟩ := map_eq_some_iff.1 h
  rw [look_append, hn]
  cases n with
  | file b =>
    cases q with
    | nil => exact absurd rfl hq
    | cons a q => rfl
  | dir es => cases hhead

/-- The proper ancestors of what exists are directories. -/
theorem look_above (hbelow : q <+: p) (hne : q ≠ p) (h : t.look p ≠ none) :
    t.look q = some .dir := by
  obtain ⟨r, rfl⟩ := hbelow
  have hr : r ≠ [] := by
    rintro rfl
    exact hne (append_nil q).symm
  cases hq : t.look q with
  | none => exact absurd (look_append_of_none hq r) h
  | some e =>
    cases e with
    | file bytes => exact absurd (look_append_of_file hq hr) h
    | dir => rfl

theorem look_dropLast (hp : p ≠ []) (h : t.look p ≠ none) : t.look p.dropLast = some .dir := by
  refine look_above (List.dropLast_prefix p) ?_ h
  intro hsame
  have hlength := congrArg List.length hsame
  rw [length_dropLast] at hlength
  have hpos := length_pos_of_ne_nil hp
  omega

/-- What is in a directory is in a directory. -/
theorem look_parent (h : t.look (p ++ [a]) ≠ none) : t.look p = some .dir := by
  have habove := look_dropLast (p := p ++ [a]) (by simp) h
  rwa [dropLast_concat] at habove

theorem mem_names : a ∈ t.names p ↔ t.look (p ++ [a]) ≠ none := by
  unfold names
  rw [look_append]
  cases t.get p with
  | none => simp
  | some n =>
    cases n with
    | file bytes => simp
    | dir es =>
      rw [bind_some, look_dir_cons]
      dsimp only
      rw [mem_dedup, ← entry_ne_none]
      cases entry a es <;> simp

theorem nodup_names (t : FileTree) (p : Path) : (t.names p).Nodup := by
  unfold names
  split
  · exact nodup_dedup _
  · exact nodup_nil

theorem anyNameIn_of_entry {f : String → Bool} {n : FileTree}
    {es : List (String × FileTree)} (h : entry a es = some n) (hes : anyNameIn f es = false) :
    f a = false ∧ anyName f n = false := by
  induction es with
  | nil => cases h
  | cons e es ih =>
    obtain ⟨b, m⟩ := e
    unfold anyNameIn anyNameOf at hes
    simp only [Bool.or_eq_false_iff] at hes
    unfold entry at h
    split at h
    · next hb =>
      cases h
      rw [← hb]
      exact hes.1
    · exact ih h hes.2

/-- A name that no entry has names nothing. -/
theorem look_of_anyName {f : String → Bool} (h : t.anyName f = false)
    (ha : f a = true) : t.look (p ++ [a]) = none := by
  induction p generalizing t with
  | nil =>
    cases t with
    | file bytes => rfl
    | dir es =>
      rw [nil_append, look_dir_cons]
      cases hentry : entry a es with
      | none => rfl
      | some n =>
        obtain ⟨hfalse, _⟩ := anyNameIn_of_entry hentry h
        rw [ha] at hfalse
        cases hfalse
  | cons b p ih =>
    cases t with
    | file bytes => rfl
    | dir es =>
      rw [cons_append, look_dir_cons]
      cases hentry : entry b es with
      | none => rfl
      | some n => exact ih (anyNameIn_of_entry hentry h).2

theorem height_of_entry {n : FileTree} {es : List (String × FileTree)}
    (h : entry a es = some n) : n.height < heightIn es := by
  induction es with
  | nil => cases h
  | cons e es ih =>
    obtain ⟨b, m⟩ := e
    unfold heightIn heightOf
    unfold entry at h
    split at h
    · cases h
      omega
    · have hlt := ih h
      omega

/-- A path to something is at most as long as the tree is high. -/
theorem length_le_height (h : t.look p ≠ none) : p.length ≤ t.height := by
  induction p generalizing t with
  | nil => exact Nat.zero_le _
  | cons a p ih =>
    cases t with
    | file bytes =>
      rw [look_file_cons] at h
      exact absurd rfl h
    | dir es =>
      rw [look_dir_cons] at h
      cases hentry : entry a es with
      | none =>
        rw [hentry] at h
        exact absurd rfl h
      | some n =>
        rw [hentry] at h
        have hlt := height_of_entry hentry
        have hle := ih h
        unfold height
        rw [length_cons]
        omega

/-- What is at every path after a subtree has been replaced. -/
theorem look_put {x : Option FileTree} (hp : p ≠ []) (hparent : t.look p.dropLast = some .dir)
    (q : Path) :
    (t.put p x).look q =
      if p <+: q then x.bind fun n => n.look (q.drop p.length) else t.look q := by
  induction p generalizing t q with
  | nil => exact absurd rfl hp
  | cons a p ih =>
    obtain ⟨es, rfl⟩ : ∃ es, t = dir es := by
      cases t with
      | dir es => exact ⟨es, rfl⟩
      | file bytes => cases p <;> cases hparent
    cases q with
    | nil =>
      rw [if_neg (by simp)]
      cases p with
      | nil => rfl
      | cons b p =>
        unfold put
        split <;> rfl
    | cons c q =>
      simp only [cons_prefix_cons]
      cases p with
      | nil =>
        unfold put
        rw [look_dir_cons, look_dir_cons, entry_setEntry]
        by_cases hc : c = a
        · simp [hc]
        · simp [hc, Ne.symm hc]
      | cons b p =>
        rw [dropLast_cons_cons, look_dir_cons] at hparent
        obtain ⟨n, hn, hnparent⟩ := bind_eq_some_iff.1 hparent
        unfold put
        rw [hn]
        dsimp only
        rw [look_dir_cons, look_dir_cons, entry_setEntry]
        by_cases hc : c = a
        · subst hc
          rw [if_pos rfl, bind_some, ih (cons_ne_nil b p) hnparent, hn]
          simp
        · simp [hc, Ne.symm hc]

/-! ## The calls -/

/-- Create or overwrite a file. -/
def write (t : FileTree) (p : Path) (bytes : List UInt8) : Option FileTree :=
  if p ≠ [] ∧ t.look p.dropLast = some .dir ∧ t.look p ≠ some .dir then
    some (t.put p (some (file bytes)))
  else none

/-- Create a directory; its parent exists. -/
def createDir (t : FileTree) (p : Path) : Option FileTree :=
  if p ≠ [] ∧ t.look p.dropLast = some .dir ∧ t.look p = none then
    some (t.put p (some (dir [])))
  else none

/-- Create a directory and its parents. -/
def createDirAll : FileTree → Path → Option FileTree
  | file _, _ => none
  | dir es, [] => some (dir es)
  | dir es, a :: p =>
    (createDirAll ((entry a es).getD (dir [])) p).map fun n => dir (setEntry a (some n) es)

/-- Whether a rename may replace what is at its destination: a file takes the place of a file and
a directory the place of an empty directory. -/
def mayReplace : Entry → Option Entry → Bool → Bool
  | _, none, _ => true
  | .file _, some (.file _), _ => true
  | .dir, some .dir, isEmpty => isEmpty
  | _, _, _ => false

/-- Move a subtree. -/
def rename (t : FileTree) (s d : Path) : Option FileTree :=
  match t.look s with
  | none => none
  | some e =>
    if s = d then some t
    else if s ≠ [] ∧ d ≠ [] ∧ ¬ s <+: d ∧ t.look d.dropLast = some .dir ∧
        mayReplace e (t.look d) (t.names d).isEmpty then
      some ((t.put s none).put d (t.get s))
    else none

/-- Give a file a second name. -/
def link (t : FileTree) (s d : Path) : Option FileTree :=
  match t.look s with
  | some (.file bytes) =>
    if d ≠ [] ∧ t.look d.dropLast = some .dir ∧ t.look d = none then
      some (t.put d (some (file bytes)))
    else none
  | _ => none

/-- Remove a file. -/
def removeFile (t : FileTree) (p : Path) : Option FileTree :=
  match t.look p with
  | some (.file _) => if p ≠ [] then some (t.put p none) else none
  | _ => none

/-- Remove an empty directory. -/
def removeDir (t : FileTree) (p : Path) : Option FileTree :=
  if t.look p = some .dir ∧ p ≠ [] ∧ t.names p = [] then some (t.put p none) else none

/-- Remove a directory and everything below it. -/
def removeDirAll (t : FileTree) (p : Path) : Option FileTree :=
  if t.look p = some .dir ∧ p ≠ [] then some (t.put p none) else none

/-! ## What the calls do -/

theorem write_eq_some (h : t.write p bytes = some t') :
    p ≠ [] ∧ t.look p.dropLast = some .dir ∧ t.look p ≠ some .dir ∧
      t' = t.put p (some (file bytes)) := by
  unfold write at h
  split at h
  · next hcond =>
    cases h
    exact ⟨hcond.1, hcond.2.1, hcond.2.2, rfl⟩
  · cases h

/-- Nothing is below a path that is not a directory. -/
theorem look_of_not_dir (h : t.look p ≠ some .dir) (hbelow : p <+: q) (hne : q ≠ p) :
    t.look q = none := by
  by_contra hq
  exact h (look_above hbelow (Ne.symm hne) hq)

theorem look_write (h : t.write p bytes = some t') (q : Path) :
    t'.look q = if q = p then some (.file bytes) else t.look q := by
  obtain ⟨hp, hparent, hdir, rfl⟩ := write_eq_some h
  rw [look_put hp hparent]
  by_cases hq : q = p
  · subst hq
    rw [if_pos (prefix_rfl), if_pos rfl]
    simp [head]
  · rw [if_neg hq]
    split
    · next hbelow =>
      rw [look_of_not_dir hdir hbelow hq]
      obtain ⟨r, rfl⟩ := hbelow
      cases r with
      | nil => exact absurd (append_nil p) hq
      | cons a r => simp
    · rfl

theorem write_of_look (hp : p ≠ [])
    (hparent : t.look p.dropLast = some .dir) (hdir : t.look p ≠ some .dir) :
    ∃ t', t.write p bytes = some t' :=
  ⟨_, if_pos ⟨hp, hparent, hdir⟩⟩

/-- A file can be written in a directory. -/
theorem write_child (bytes : List UInt8) (hparent : t.look p = some .dir)
    (hdir : t.look (p ++ [a]) ≠ some .dir) : ∃ t', t.write (p ++ [a]) bytes = some t' := by
  apply write_of_look
  · simp
  · rwa [dropLast_concat]
  · exact hdir

theorem look_createDir (h : t.createDir p = some t') (q : Path) :
    t'.look q = if q = p then some .dir else t.look q := by
  unfold createDir at h
  split at h
  · next hcond =>
    obtain ⟨hp, hparent, hnone⟩ := hcond
    cases h
    rw [look_put hp hparent]
    by_cases hq : q = p
    · subst hq
      rw [if_pos (prefix_rfl), if_pos rfl]
      simp [head]
    · rw [if_neg hq]
      split
      · next hbelow =>
        rw [look_of_not_dir (by simp [hnone]) hbelow hq]
        obtain ⟨r, rfl⟩ := hbelow
        cases r with
        | nil => exact absurd (append_nil p) hq
        | cons a r => simp [look_dir_cons, entry]
      · rfl
  · cases h

theorem look_createDirAll (h : t.createDirAll p = some t') (q : Path) :
    t'.look q = if q <+: p then some .dir else t.look q := by
  induction p generalizing t t' q with
  | nil =>
    cases t with
    | file bytes => cases h
    | dir es =>
      cases h
      by_cases hq : q = []
      · subst hq
        rfl
      · rw [if_neg (by simpa using hq)]
  | cons a p ih =>
    cases t with
    | file bytes => cases h
    | dir es =>
      obtain ⟨n, hn, rfl⟩ := map_eq_some_iff.1 h
      cases q with
      | nil => rfl
      | cons c q =>
        rw [look_dir_cons, look_dir_cons, entry_setEntry]
        simp only [cons_prefix_cons]
        by_cases hc : c = a
        · subst hc
          rw [if_pos rfl, bind_some, ih hn]
          simp only [true_and]
          split
          · rfl
          · next hbelow =>
            cases hentry : entry c es with
            | some n' => rfl
            | none =>
              -- below a directory that was just created
              cases q with
              | nil => exact absurd (List.nil_prefix) hbelow
              | cons b q => simp [look_dir_cons, entry]
        · simp [hc]

/-- The parents of a new directory are directories or do not exist. -/
theorem createDirAll_of_look (h : ∀ q, q <+: p → t.look q = some .dir ∨ t.look q = none) :
    ∃ t', t.createDirAll p = some t' := by
  induction p generalizing t with
  | nil =>
    cases t with
    | file bytes => simpa [head] using h [] prefix_rfl
    | dir es => exact ⟨dir es, rfl⟩
  | cons a p ih =>
    cases t with
    | file bytes => simpa [head] using h [] nil_prefix
    | dir es =>
      have hbelow : ∀ q, q <+: p → ((entry a es).getD (dir [])).look q = some .dir ∨
          ((entry a es).getD (dir [])).look q = none := by
        intro q hq
        have hlook := h (a :: q) (cons_prefix_cons.2 ⟨rfl, hq⟩)
        rw [look_dir_cons] at hlook
        cases hentry : entry a es with
        | some n =>
          rw [hentry] at hlook
          exact hlook
        | none =>
          cases q with
          | nil => exact .inl rfl
          | cons b q => exact .inr (by simp [look_dir_cons, entry])
      obtain ⟨n, hn⟩ := ih hbelow
      refine ⟨dir (setEntry a (some n) es), ?_⟩
      unfold createDirAll
      rw [hn]
      rfl

/-- Creating a directory that exists changes nothing. -/
theorem createDirAll_of_dir (h : t.look p = some .dir) :
    ∃ t', t.createDirAll p = some t' ∧ t'.look = t.look := by
  have habove : ∀ q, q <+: p → t.look q = some .dir := by
    intro q hq
    by_cases hqp : q = p
    · rw [hqp, h]
    · exact look_above hq hqp (by simp [h])
  obtain ⟨t', ht'⟩ := createDirAll_of_look fun q hq => .inl (habove q hq)
  refine ⟨t', ht', funext fun q => ?_⟩
  rw [look_createDirAll ht']
  split
  · next hq => exact (habove q hq).symm
  · rfl

/-- A directory that has been created has no file above it. -/
theorem look_of_createDirAll (h : t.createDirAll p = some t') (hq : q <+: p) :
    t.look q = some .dir ∨ t.look q = none := by
  induction p generalizing t t' q with
  | nil =>
    rw [prefix_nil.1 hq]
    cases t with
    | file bytes => cases h
    | dir es => exact .inl rfl
  | cons a p ih =>
    cases t with
    | file bytes => cases h
    | dir es =>
      obtain ⟨n, hn, -⟩ := map_eq_some_iff.1 h
      cases q with
      | nil => exact .inl rfl
      | cons c q =>
        obtain ⟨rfl, hrest⟩ := cons_prefix_cons.1 hq
        rw [look_dir_cons]
        cases hentry : entry c es with
        | none => exact .inr rfl
        | some n' =>
          rw [hentry] at hn
          exact ih hn hrest

/-- A directory can be created where no file is at or above it. -/
theorem createDirAll_isSome : (t.createDirAll p).isSome = true ↔
    ∀ q, q <+: p → t.look q = some .dir ∨ t.look q = none := by
  rw [isSome_iff_exists]
  constructor
  · rintro ⟨t', ht'⟩ q hq
    exact look_of_createDirAll ht' hq
  · exact createDirAll_of_look

/-- A directory can be created in one, where nothing is. -/
theorem createDir_isSome : (t.createDir p).isSome = true ↔
    p ≠ [] ∧ t.look p.dropLast = some .dir ∧ t.look p = none := by
  unfold createDir
  split
  · next h => exact ⟨fun _ => h, fun _ => rfl⟩
  · next h => exact ⟨nofun, fun hcond => absurd hcond h⟩

/-- A file can be written in a directory, unless it is one. -/
theorem write_isSome : (t.write p bytes).isSome = true ↔
    p ≠ [] ∧ t.look p.dropLast = some .dir ∧ t.look p ≠ some .dir := by
  unfold write
  split
  · next h => exact ⟨fun _ => h, fun _ => rfl⟩
  · next h => exact ⟨nofun, fun hcond => absurd hcond h⟩

variable {s d : Path}

theorem rename_eq_some (h : t.rename s d = some t') (hne : s ≠ d) :
    s ≠ [] ∧ d ≠ [] ∧ ¬ s <+: d ∧ t.look d.dropLast = some .dir ∧
      (∃ e, t.look s = some e ∧ mayReplace e (t.look d) (t.names d).isEmpty = true) ∧
      t' = (t.put s none).put d (t.get s) := by
  unfold rename at h
  cases hs : t.look s with
  | none =>
    rw [hs] at h
    cases h
  | some e =>
    rw [hs] at h
    dsimp only at h
    rw [if_neg hne] at h
    split at h
    · next hcond =>
      obtain ⟨hs', hd, hbelow, hparent, hreplace⟩ := hcond
      cases h
      exact ⟨hs', hd, hbelow, hparent, ⟨e, rfl, hreplace⟩, rfl⟩
    · cases h

theorem look_rename (h : t.rename s d = some t') (hne : s ≠ d) (q : Path) :
    t'.look q = if d <+: q then t.look (s ++ q.drop d.length)
      else if s <+: q then none else t.look q := by
  obtain ⟨hs, hd, hbelow, hparent, ⟨e, he, _⟩, rfl⟩ := rename_eq_some h hne
  have hexists : t.look s ≠ none := by simp [he]
  have hsparent := look_dropLast hs hexists
  have hdparent : (t.put s none).look d.dropLast = some .dir := by
    rw [look_put hs hsparent, if_neg, hparent]
    exact fun hsd => hbelow (hsd.trans (List.dropLast_prefix d))
  rw [look_put hd hdparent, look_put hs hsparent, look_append]
  rfl

/-- A file moves to a place where no directory is. -/
theorem look_rename_file (h : t.rename s d = some t')
    (hne : s ≠ d) (hfile : t.look s = some (.file bytes)) :
    t.look d ≠ some .dir ∧ ∀ q, t'.look q =
      if q = d then some (.file bytes) else if q = s then none else t.look q := by
  obtain ⟨_, _, hbelow, _, ⟨e, he, hreplace⟩, _⟩ := rename_eq_some h hne
  rw [hfile] at he
  cases he
  have hdir : t.look d ≠ some .dir := by
    intro hdir
    rw [hdir] at hreplace
    cases hreplace
  refine ⟨hdir, fun q => ?_⟩
  rw [look_rename h hne]
  by_cases hq : q = d
  · rw [if_pos hq, if_pos (by rw [hq]), hq]
    simp [hfile]
  · rw [if_neg hq]
    by_cases hdq : d <+: q
    · -- below the destination there is nothing, before and after
      rw [if_pos hdq]
      obtain ⟨r, rfl⟩ := hdq
      have hr : r ≠ [] := by
        rintro rfl
        exact hq (append_nil d)
      rw [drop_left, look_append_of_file hfile hr, look_of_not_dir hdir (prefix_append d r) hq]
      simp
    · rw [if_neg hdq]
      by_cases hqs : q = s
      · rw [if_pos hqs, if_pos]
        rw [hqs]
      · rw [if_neg hqs]
        split
        · next hsq => exact (look_of_not_dir (by simp [hfile]) hsq hqs).symm
        · rfl

/-- A subtree moves to a place where nothing is. -/
theorem rename_of_look (hs : s ≠ []) (hd : d ≠ []) (hbelow : ¬ s <+: d)
    (hparent : t.look d.dropLast = some .dir) (hexists : t.look s ≠ none)
    (hnone : t.look d = none) : ∃ t', t.rename s d = some t' := by
  obtain ⟨e, he⟩ := ne_none_iff_exists'.1 hexists
  have hne : s ≠ d := by
    rintro rfl
    exact hbelow prefix_rfl
  unfold rename
  rw [he]
  dsimp only
  rw [if_neg hne, if_pos ⟨hs, hd, hbelow, hparent, by rw [hnone]; rfl⟩]
  exact ⟨_, rfl⟩

/-- A second name of a file, where nothing was. -/
theorem look_link (h : t.link s d = some t') :
    t.look d = none ∧ ∀ q, t'.look q = if q = d then t.look s else t.look q := by
  unfold link at h
  split at h
  · next bytes hs =>
    split at h
    · next hcond =>
      obtain ⟨hd, hparent, hnone⟩ := hcond
      have hwrite : t.write d bytes = some t' := by
        rw [← h]
        exact if_pos ⟨hd, hparent, by simp [hnone]⟩
      refine ⟨hnone, fun q => ?_⟩
      rw [look_write hwrite, hs]
    · cases h
  · cases h

/-- A file gets a second name where nothing is. -/
theorem link_of_look (hs : t.look s = some (.file bytes))
    (hd : d ≠ []) (hparent : t.look d.dropLast = some .dir) (hnone : t.look d = none) :
    ∃ t', t.link s d = some t' := by
  unfold link
  rw [hs]
  exact ⟨_, if_pos ⟨hd, hparent, hnone⟩⟩

/-- Nothing is at or below a path that has been removed. -/
theorem look_put_none (hp : p ≠ []) (hexists : t.look p ≠ none) (q : Path) :
    (t.put p none).look q = if p <+: q then none else t.look q :=
  look_put hp (look_dropLast hp hexists) q

theorem look_removeFile (h : t.removeFile p = some t') (q : Path) :
    t'.look q = if q = p then none else t.look q := by
  unfold removeFile at h
  split at h
  · next bytes hfile =>
    split at h
    · next hp =>
      cases h
      rw [look_put_none hp (by simp [hfile])]
      by_cases hq : q = p
      · rw [if_pos hq, if_pos]
        rw [hq]
      · rw [if_neg hq]
        split
        · next hbelow => exact (look_of_not_dir (by simp [hfile]) hbelow hq).symm
        · rfl
    · cases h
  · cases h

/-- A file can be removed. -/
theorem removeFile_of_look (hp : p ≠ [])
    (hfile : t.look p = some (.file bytes)) : ∃ t', t.removeFile p = some t' := by
  unfold removeFile
  rw [hfile]
  exact ⟨_, if_pos hp⟩

theorem look_removeDirAll (h : t.removeDirAll p = some t') (q : Path) :
    t'.look q = if p <+: q then none else t.look q := by
  unfold removeDirAll at h
  split at h
  · next hcond =>
    cases h
    exact look_put_none hcond.2 (by simp [hcond.1]) q
  · cases h

theorem look_removeDir (h : t.removeDir p = some t') (q : Path) :
    t'.look q = if p <+: q then none else t.look q := by
  unfold removeDir at h
  split at h
  · next hcond =>
    cases h
    exact look_put_none hcond.2.1 (by simp [hcond.1]) q
  · cases h

theorem ne_dropLast (hp : p ≠ []) : p.dropLast ≠ p := by
  intro hsame
  have hlength := congrArg List.length hsame
  have hpositive := length_pos_iff.2 hp
  rw [length_dropLast] at hlength
  omega

/-- A file that was written can be written again. -/
theorem write_again (bytes' : List UInt8)
    (h : t.write p bytes = some t') : ∃ t'', t'.write p bytes' = some t'' := by
  obtain ⟨hp, hparent, -, -⟩ := write_eq_some h
  apply write_of_look hp
  · rw [look_write h, if_neg (ne_dropLast hp), hparent]
  · rw [look_write h, if_pos rfl]
    simp

/-- A file moves to a place where no directory is. -/
theorem rename_of_file (hfile : t.look p = some (.file bytes))
    (hq : q ≠ []) (hparent : t.look q.dropLast = some .dir) (hdir : t.look q ≠ some .dir) :
    ∃ t', t.rename p q = some t' := by
  unfold rename
  rw [hfile]
  dsimp only
  split
  · exact ⟨t, rfl⟩
  · next hne =>
    -- a file is not above a directory
    have habove : ∀ r, p <+: r → t.look r ≠ some .dir := by
      intro r hr hlook
      by_cases hsame : p = r
      · rw [hsame, hlook] at hfile
        cases hfile
      · have hpdir := look_above (t := t) hr hsame (by simp [hlook])
        rw [hfile] at hpdir
        cases hpdir
    have hbelow : ¬ p <+: q := by
      intro h
      rw [← dropLast_append_getLast hq, prefix_concat_iff, dropLast_append_getLast hq] at h
      rcases h with h | h
      · exact hne h
      · exact habove _ h hparent
    have hp : p ≠ [] := by
      rintro rfl
      exact habove _ nil_prefix hparent
    have hplace : mayReplace (.file bytes) (t.look q) (t.names q).isEmpty = true := by
      cases hlook : t.look q with
      | none => rfl
      | some e =>
        cases e with
        | dir => exact absurd hlook hdir
        | file _ => rfl
    rw [if_pos ⟨hp, hq, hbelow, hparent, hplace⟩]
    exact ⟨_, rfl⟩

end FileTree

end Lib
