import MachineEmu.Lib.Nesting
import MachineEmu.Safety.FirmwareContainers

/-!
# The tree of a device tree

The reader of flattened device trees keeps the open nodes and a map from paths to properties. What
it has read so far is a nest of nodes.

* `afterMarks`, `Shows` — what is kept after some marks, and the nest that it shows.
* `TokenAt`, `Spelt` — a mark in the structure block, and the marks up to a position.
* `readTokens_cases` — how a read ends.
* `TreeAgrees`, `RegularTree` — what is expected of the reader, and when it is so.
* `treeAgrees_iff` — it is so exactly then.
-/

namespace MachineEmu.Firmware

open Lib List

/-- A mark in the structure block. -/
abbrev TreeMark := Mark (List Char) (List Char × List UInt8)

abbrev TreeForest := Forest (List Char) (List Char × List UInt8)

abbrev TreeNest := Nest (List Char) (List Char × List UInt8)

variable {failure : Failure} {marks : List TreeMark} {m : TreeMark} {z : TreeNest}
  {s s' : TreeState} {name : List Char} {value : List UInt8}

/-! ## What is kept -/

def TreeState.apply (s : TreeState) : TreeMark → Except Failure TreeState
  | .opening name => s.beginNode name
  | .closing => s.endNode
  | .item (name, value) =>
    if s.stack = [] then .error (.firmware "invalid FDT property") else s.setProperty name value

def applyTo (result : Except Failure TreeState) (m : TreeMark) : Except Failure TreeState :=
  match result with
  | .error failure => .error failure
  | .ok s => s.apply m

/-- What is kept after some marks. -/
def afterMarks (marks : List TreeMark) : Except Failure TreeState :=
  marks.foldl applyTo (.ok TreeState.init)

theorem afterMarks_append_singleton :
    afterMarks (marks ++ [m]) = .ok s' ↔ ∃ s, afterMarks marks = .ok s ∧ s.apply m = .ok s' := by
  rw [afterMarks, foldl_append, ← afterMarks]
  cases h : afterMarks marks with
  | error failure => simp [applyTo]
  | ok s => simp [applyTo]

/-- The nest of some marks. -/
def nestOf (marks : List TreeMark) : TreeNest := marks.foldl Nest.step (.base .nil)

theorem nestOf_append_singleton (marks : List TreeMark) (m : TreeMark) :
    nestOf (marks ++ [m]) = (nestOf marks).step m := by
  rw [nestOf, nestOf, foldl_append]
  rfl

/-- The map that a table of paths stands for. -/
def nodeMap (table : List (List (List Char) × Properties)) : List (List Char × Properties) :=
  table.map fun entry => (nodePath entry.1, entry.2)

/-- What is kept shows a nest. -/
structure Shows (z : TreeNest) (s : TreeState) : Prop where
  labels : z.labels = s.stack
  nodes : nodeMap z.table = s.nodes
  distinct : (s.nodes.map Prod.fst).Nodup
  loose : z.loose = []

theorem beginNode_eq_ok (h : s.beginNode name = .ok s') :
    '/' ∉ name ∧ nodePath (s.stack ++ [name]) ∉ s.nodes.map Prod.fst ∧
      s' = ⟨s.stack ++ [name], s.nodes ++ [(nodePath (s.stack ++ [name]), [])]⟩ := by
  unfold TreeState.beginNode at h
  split at h
  · cases h
  · next hname =>
    rw [not_or] at hname
    split at h
    · cases h
    · next hfresh => exact ⟨hname.1, hfresh, (Except.ok.inj h).symm⟩

theorem endNode_eq_ok (h : s.endNode = .ok s') :
    s.stack ≠ [] ∧ s' = { s with stack := s.stack.dropLast } := by
  unfold TreeState.endNode at h
  split at h
  · cases h
  · next hstack => exact ⟨hstack, (Except.ok.inj h).symm⟩

theorem item_eq_ok (h : s.apply (.item (name, value)) = .ok s') :
    s.stack ≠ [] ∧ s.setProperty name value = .ok s' := by
  simp only [TreeState.apply] at h
  split at h
  · cases h
  · next hstack => exact ⟨hstack, h⟩

/-- With distinct keys one entry is found and changed. -/
theorem map_update {front later : List (List Char × Properties)} {key : List Char}
    {properties : Properties} (more : Properties)
    (h : ((front ++ (key, properties) :: later).map Prod.fst).Nodup) :
    (front ++ (key, properties) :: later).find? (·.1 = key) = some (key, properties) ∧
      (front ++ (key, properties) :: later).map
          (fun node => if node.1 = key then (node.1, node.2 ++ more) else node) =
        front ++ (key, properties ++ more) :: later := by
  rw [map_append, map_cons, nodup_append, nodup_cons] at h
  obtain ⟨-, ⟨hlater, -⟩, hfront⟩ := h
  have hfront : ∀ node ∈ front, node.1 ≠ key := fun node hnode =>
    hfront _ (mem_map_of_mem hnode) key mem_cons_self
  have hlater : ∀ node ∈ later, node.1 ≠ key := by
    rintro node hnode rfl
    exact hlater (mem_map.2 ⟨node, hnode, rfl⟩)
  have hother {part : List (List Char × Properties)} (hpart : ∀ node ∈ part, node.1 ≠ key) :
      part.map (fun node => if node.1 = key then (node.1, node.2 ++ more) else node) = part := by
    have hid : ∀ node ∈ part,
        (if node.1 = key then (node.1, node.2 ++ more) else node) = id node :=
      fun node hnode => if_neg (hpart node hnode)
    rw [map_congr_left hid, map_id]
  constructor
  · rw [List.find?_append, List.find?_eq_none.2 fun node hnode => by simpa using hfront node hnode]
    simp
  · rw [map_append, map_cons, hother hfront, hother hlater, if_pos rfl]

theorem Shows.opening (h : Shows z s) (hs : s.beginNode name = .ok s') :
    Shows (z.opened name) s' := by
  obtain ⟨-, hfresh, rfl⟩ := beginNode_eq_ok hs
  constructor
  · rw [Nest.labels_opened, h.labels]
  · rw [Nest.table_opened, nodeMap, map_append, ← nodeMap, h.nodes, h.labels]
    rfl
  · rw [map_append]
    exact List.Nodup.append h.distinct (nodup_singleton _)
      (disjoint_singleton.2 hfresh)
  · exact h.loose

theorem Shows.closing (h : Shows z s) (hs : s.endNode = .ok s') : Shows z.closed s' := by
  obtain ⟨hstack, rfl⟩ := endNode_eq_ok hs
  constructor
  · rw [Nest.labels_closed, h.labels]
  · rw [Nest.table_closed]
    exact h.nodes
  · exact h.distinct
  · rw [Nest.loose_closed]
    exact h.loose

/-- The entry of the innermost node, found and changed. -/
theorem Shows.entry (h : Shows z s) (hstack : s.stack ≠ []) (property : List Char × List UInt8) :
    ∃ properties, s.nodes.find? (·.1 = nodePath s.stack) = some (nodePath s.stack, properties) ∧
      nodeMap (z.extended (.item property .nil)).table = s.nodes.map fun node =>
        if node.1 = nodePath s.stack then (node.1, node.2 ++ [property]) else node := by
  obtain ⟨front, properties, later, htable, hextended⟩ := z.table_item property (h.labels ▸ hstack)
  have hnodes : s.nodes =
      nodeMap front ++ (nodePath s.stack, properties) :: nodeMap later := by
    rw [← h.nodes, htable, nodeMap, map_append, map_cons, h.labels]
    rfl
  obtain ⟨hfind, hmap⟩ := map_update [property] (hnodes ▸ h.distinct)
  refine ⟨properties, by rw [hnodes]; exact hfind, ?_⟩
  rw [hextended, hnodes, hmap, nodeMap, map_append, map_cons, h.labels]
  rfl

theorem Shows.item (h : Shows z s) (hs : s.apply (.item (name, value)) = .ok s') :
    Shows (z.extended (.item (name, value) .nil)) s' := by
  obtain ⟨hstack, hset⟩ := item_eq_ok hs
  obtain ⟨properties, hfind, hmap⟩ := h.entry hstack (name, value)
  unfold TreeState.setProperty at hset
  simp only [hfind] at hset
  split at hset
  · cases hset
  · obtain rfl := Except.ok.inj hset
    constructor
    · rw [Nest.labels_extended, h.labels]
    · exact hmap
    · have hkeys : (s.nodes.map fun node => if node.1 = nodePath s.stack then
          (node.1, node.2 ++ [(name, value)]) else node).map Prod.fst = s.nodes.map Prod.fst := by
        rw [map_map]
        apply map_congr_left
        intro node _
        simp only [Function.comp_apply]
        split <;> rfl
      show (List.map Prod.fst (s.nodes.map _)).Nodup
      rw [hkeys]
      exact h.distinct
    · rw [Nest.loose_item _ _ (h.labels ▸ hstack), h.loose]

theorem Shows.step (h : Shows z s) (hs : s.apply m = .ok s') : Shows (z.step m) s' := by
  cases m with
  | opening name => exact h.opening hs
  | closing => exact h.closing hs
  | item property => exact h.item hs

/-- A property of the innermost node is set, or `FirmwareError` is raised. -/
theorem Shows.setProperty (h : Shows z s) (hstack : s.stack ≠ []) (name : List Char)
    (value : List UInt8) : (∃ s', s.setProperty name value = .ok s') ∨
      ∃ message, s.setProperty name value = .error (.firmware message) := by
  obtain ⟨properties, hfind, -⟩ := h.entry hstack (name, value)
  unfold TreeState.setProperty
  simp only [hfind]
  split
  · exact Or.inr ⟨_, rfl⟩
  · exact Or.inl ⟨_, rfl⟩

/-- What is kept after some marks shows their nest, whose marks they are. -/
theorem shows_nestOf (h : afterMarks marks = .ok s) :
    (nestOf marks).marks = marks ∧ Shows (nestOf marks) s := by
  induction marks using List.reverseRecOn generalizing s with
  | nil =>
    obtain rfl := Except.ok.inj h
    exact ⟨rfl, rfl, rfl, nodup_nil, rfl⟩
  | append_singleton marks m ih =>
    obtain ⟨t, hafter, happly⟩ := afterMarks_append_singleton.1 h
    obtain ⟨hmarks, hshows⟩ := ih hafter
    rw [nestOf_append_singleton]
    refine ⟨?_, hshows.step happly⟩
    cases m with
    | opening name => exact (Nest.marks_opened _ _).trans (by rw [hmarks])
    | closing =>
      have hstack := (endNode_eq_ok happly).1
      exact (Nest.marks_closed _ (hshows.labels ▸ hstack)).trans (by rw [hmarks])
    | item property => exact (Nest.marks_item _ _).trans (by rw [hmarks])

/-! ## Nodes that are in no other -/

/-- A node that is in no other is opened where no node is open. -/
theorem exists_of_mem_tops (h : afterMarks marks = .ok s) (hname : name ∈ (nestOf marks).tops) :
    ∃ front rest t, marks = front ++ .opening name :: rest ∧ afterMarks front = .ok t ∧
      t.stack = [] := by
  induction marks using List.reverseRecOn generalizing s with
  | nil => exact absurd hname not_mem_nil
  | append_singleton marks m ih =>
    obtain ⟨t, hafter, happly⟩ := afterMarks_append_singleton.1 h
    have hold (hmem : name ∈ (nestOf marks).tops) : ∃ front rest t,
        marks ++ [m] = front ++ .opening name :: rest ∧ afterMarks front = .ok t ∧
          t.stack = [] := by
      obtain ⟨front, rest, t, rfl, hfront, hstack⟩ := ih hafter hmem
      exact ⟨front, rest ++ [m], t, by rw [append_assoc]; rfl, hfront, hstack⟩
    rw [nestOf_append_singleton] at hname
    cases m with
    | opening a =>
      rcases mem_append.1 ((Nest.tops_opened _ a) ▸ hname) with hname | hname
      · exact hold hname
      · split at hname
        · next hlabels =>
          obtain rfl := mem_singleton.1 hname
          exact ⟨marks, [], t, rfl, hafter, by rw [← (shows_nestOf hafter).2.labels, hlabels]⟩
        · exact absurd hname not_mem_nil
    | closing => exact hold ((Nest.tops_closed _) ▸ hname)
    | item property => exact hold ((Nest.tops_item _ property) ▸ hname)

theorem mem_tops {front rest : List TreeMark} (hfront : afterMarks front = .ok s)
    (hstack : s.stack = []) : name ∈ (nestOf (front ++ .opening name :: rest)).tops := by
  induction rest using List.reverseRecOn with
  | nil =>
    rw [nestOf_append_singleton]
    refine mem_append_right _ ?_
    rw [(shows_nestOf hfront).2.labels, if_pos hstack]
    exact mem_singleton_self name
  | append_singleton rest m ih =>
    rw [← cons_append, ← append_assoc, nestOf_append_singleton]
    exact Nest.tops_subset_step _ m ih

theorem notMem_of_afterMarks {front rest : List TreeMark}
    (h : afterMarks (front ++ .opening name :: rest) = .ok s) : '/' ∉ name := by
  induction rest using List.reverseRecOn generalizing s with
  | nil =>
    obtain ⟨t, -, happly⟩ := afterMarks_append_singleton.1 h
    exact (beginNode_eq_ok happly).1
  | append_singleton rest m ih =>
    rw [← cons_append, ← append_assoc] at h
    obtain ⟨t, hafter, -⟩ := afterMarks_append_singleton.1 h
    exact ih hafter

/-! ## The structure block -/

/-- A mark that is spelt at a position, and where the next token is. -/
inductive TokenAt (B : Blob) (off : ℕ) : TreeMark → ℕ → Prop
  | opening {name : List Char} (token : word B.data off = 1)
    (named : terminated B.data (off + 4) B.stop = .ok name) :
    TokenAt B off (.opening name) (alignToken (off + 4 + name.length + 1))
  | closing (token : word B.data off = 2) : TokenAt B off .closing (off + 4)
  | item {name : List Char} (token : word B.data off = 3)
    (inside : off + 4 + 8 + word B.data (off + 4) ≤ B.stop)
    (within : word B.data (off + 4 + 4) < B.strings.length)
    (named : terminated B.strings (word B.data (off + 4 + 4)) B.strings.length = .ok name) :
    TokenAt B off (.item (name, slice B.data (off + 4 + 8) (word B.data (off + 4))))
      (alignToken (off + 12 + word B.data (off + 4)))

/-- The marks that are spelt up to a position. -/
inductive Spelt (B : Blob) : ℕ → List TreeMark → Prop
  | start : Spelt B B.first []
  | skip {off : ℕ} {marks : List TreeMark} (spelt : Spelt B off marks) (room : off + 4 ≤ B.stop)
    (token : word B.data off = 4) : Spelt B (off + 4) marks
  | next {off next : ℕ} {marks : List TreeMark} {m : TreeMark} (spelt : Spelt B off marks)
    (room : off + 4 ≤ B.stop) (found : TokenAt B off m next) : Spelt B next (marks ++ [m])

section Reading

variable {B : Blob} {data blob : List UInt8} {off next start limit : ℕ}

theorem TokenAt.lt (h : TokenAt B off m next) : off + 4 ≤ next := by
  cases h with
  | opening token named =>
    unfold alignToken
    omega
  | closing token => exact le_rfl
  | item token inside within named =>
    unfold alignToken
    omega

theorem Spelt.first_le (h : Spelt B off marks) : B.first ≤ off := by
  induction h with
  | start => exact le_rfl
  | skip spelt room token ih => omega
  | next spelt room found ih =>
    have hlt := found.lt
    omega

/-- The value of a property is in the structure block. -/
theorem Spelt.inside (h : Spelt B off marks) (hmem : .item (name, value) ∈ marks) :
    ∃ at' : ℕ, B.first ≤ at' ∧ at' + value.length ≤ B.stop ∧
      value = slice B.data at' value.length := by
  induction h with
  | start => exact absurd hmem not_mem_nil
  | skip spelt room token ih => exact ih hmem
  | @next off next marks m spelt room found ih =>
    rcases mem_append.1 hmem with hmem | hmem
    · exact ih hmem
    · obtain rfl := mem_singleton.1 hmem
      have hfirst := spelt.first_le
      cases found with
      | item token inside within named =>
        have hle : (slice B.data (off + 4 + 8) (word B.data (off + 4))).length ≤
            word B.data (off + 4) := by
          rw [slice, length_take]
          exact Nat.min_le_left _ _
        refine ⟨off + 4 + 8, by omega, by omega, ?_⟩
        rw [slice, length_take, length_drop, slice, take_eq_take_iff, length_drop]
        omega

theorem terminated_cases (blob : List UInt8) (start limit : ℕ) :
    (∃ name, terminated blob start limit = .ok name) ∨
      (∃ message, terminated blob start limit = .error (.firmware message)) ∨
      (terminated blob start limit = .error .unicode ∧ IsTerminated blob start limit ∧
        ¬IsAscii (terminatedField blob start limit)) := by
  unfold terminated
  by_cases hzero : IsTerminated blob start limit
  · rw [if_neg (not_not.2 hzero)]
    by_cases hascii : IsAscii (terminatedField blob start limit)
    · exact Or.inl ⟨_, decodeAscii_of_isAscii hascii⟩
    · exact Or.inr (Or.inr ⟨decodeAscii_of_not_isAscii hascii, hzero, hascii⟩)
  · exact Or.inr (Or.inl ⟨_, if_pos hzero⟩)

theorem terminated_of_not_isAscii (hzero : IsTerminated blob start limit)
    (hascii : ¬IsAscii (terminatedField blob start limit)) :
    terminated blob start limit = .error .unicode := by
  rw [terminated, if_neg (not_not.2 hzero), decodeAscii_of_not_isAscii hascii]

/-! ## One token -/

theorem readTokens_skip (s : TreeState) (hroom : off + 4 ≤ B.stop) (htoken : word B.data off = 4) :
    B.readTokens off s = B.readTokens (off + 4) s := by
  rw [Blob.readTokens, if_pos hroom, if_neg (by omega), if_neg (by omega), if_neg (by omega),
    if_neg (by omega), if_pos htoken]

theorem readTokens_opening (s : TreeState) (hroom : off + 4 ≤ B.stop)
    (htoken : word B.data off = 1) : B.readTokens off s =
      match terminated B.data (off + 4) B.stop with
      | .error failure => .error failure
      | .ok name =>
        match s.beginNode name with
        | .error failure => .error failure
        | .ok s => B.readTokens (alignToken (off + 4 + name.length + 1)) s := by
  rw [Blob.readTokens, if_pos hroom, if_pos htoken] <;> rfl

theorem readTokens_closing (s : TreeState) (hroom : off + 4 ≤ B.stop)
    (htoken : word B.data off = 2) : B.readTokens off s =
      match s.endNode with
      | .error failure => .error failure
      | .ok s => B.readTokens (off + 4) s := by
  rw [Blob.readTokens, if_pos hroom, if_neg (by omega), if_pos htoken] <;> rfl

theorem readTokens_item (s : TreeState) (hroom : off + 4 ≤ B.stop)
    (htoken : word B.data off = 3) : B.readTokens off s =
      match B.readProperty (off + 4) s with
      | .error failure => .error failure
      | .ok (length, s) => B.readTokens (alignToken (off + 12 + length)) s := by
  rw [Blob.readTokens, if_pos hroom, if_neg (by omega), if_neg (by omega), if_pos htoken] <;> rfl

theorem readTokens_end (s : TreeState) (hroom : off + 4 ≤ B.stop)
    (htoken : word B.data off = 9) : B.readTokens off s =
      if s.stack ≠ [] ∨ ['/'] ∉ s.nodes.map Prod.fst then .error (.firmware "incomplete FDT")
      else .ok s.nodes := by
  rw [Blob.readTokens, if_pos hroom, if_neg (by omega), if_neg (by omega), if_neg (by omega),
    if_pos htoken]

theorem readProperty_of_bounds (hstack : s.stack ≠ [])
    (hinside : off + 8 + word B.data off ≤ B.stop)
    (hwithin : word B.data (off + 4) < B.strings.length) : B.readProperty off s =
      match terminated B.strings (word B.data (off + 4)) B.strings.length with
      | .error failure => .error failure
      | .ok name =>
        match s.setProperty name (slice B.data (off + 8) (word B.data off)) with
        | .error failure => .error failure
        | .ok s => .ok (word B.data off, s) := by
  have hfront : ¬(s.stack = [] ∨ B.stop < off + 8) := by
    rw [not_or]
    exact ⟨hstack, by omega⟩
  rw [Blob.readProperty, if_neg hfront, if_neg (by omega)] <;> rfl

/-- A mark that is spelt is applied. -/
theorem readTokens_next (hroom : off + 4 ≤ B.stop) (hfound : TokenAt B off m next)
    (happly : s.apply m = .ok s') : B.readTokens off s = B.readTokens next s' := by
  cases hfound with
  | opening token named =>
    have hbegin : s.beginNode _ = .ok s' := happly
    rw [readTokens_opening s hroom token, named]
    simp only [hbegin]
  | closing token =>
    have hend : s.endNode = .ok s' := happly
    rw [readTokens_closing s hroom token, hend]
  | item token inside within named =>
    obtain ⟨hstack, hset⟩ := item_eq_ok happly
    rw [readTokens_item s hroom token, readProperty_of_bounds hstack inside within, named]
    simp only [hset]

/-- The reader goes on behind the marks that are spelt. -/
theorem readTokens_of_spelt (h : Spelt B off marks) (hs : afterMarks marks = .ok s) :
    B.readTokens B.first TreeState.init = B.readTokens off s := by
  induction h generalizing s with
  | start =>
    obtain rfl := Except.ok.inj hs
    rfl
  | skip spelt room token ih => rw [ih hs, readTokens_skip s room token]
  | next spelt room found ih =>
    obtain ⟨t, hafter, happly⟩ := afterMarks_append_singleton.1 hs
    rw [ih hafter, readTokens_next room found happly]

/-! ## A whole read -/

/-- The end token is come to with every node closed, and there is a root. -/
structure Complete (B : Blob) (off : ℕ) (marks : List TreeMark) (s : TreeState) : Prop where
  spelt : Spelt B off marks
  kept : afterMarks marks = .ok s
  room : off + 4 ≤ B.stop
  token : word B.data off = 9
  closed : s.stack = []
  root : ['/'] ∈ s.nodes.map Prod.fst

/-- The name of a node that is come to is not ASCII. -/
structure NodeFault (B : Blob) (off : ℕ) (marks : List TreeMark) (s : TreeState) : Prop where
  spelt : Spelt B off marks
  kept : afterMarks marks = .ok s
  room : off + 4 ≤ B.stop
  token : word B.data off = 1
  terminated : IsTerminated B.data (off + 4) B.stop
  foreign : ¬IsAscii (terminatedField B.data (off + 4) B.stop)

/-- The name of a property that is come to is not ASCII. -/
structure PropertyFault (B : Blob) (off : ℕ) (marks : List TreeMark) (s : TreeState) : Prop where
  spelt : Spelt B off marks
  kept : afterMarks marks = .ok s
  token : word B.data off = 3
  inNode : s.stack ≠ []
  inside : off + 4 + 8 + word B.data (off + 4) ≤ B.stop
  within : word B.data (off + 4 + 4) < B.strings.length
  terminated : IsTerminated B.strings (word B.data (off + 4 + 4)) B.strings.length
  foreign : ¬IsAscii (terminatedField B.strings (word B.data (off + 4 + 4)) B.strings.length)

/-- How a read from a position can end. -/
inductive Ending (B : Blob) : Except Failure (List (List Char × Properties)) → Prop
  | complete {off : ℕ} {marks : List TreeMark} {s : TreeState} (complete : Complete B off marks s) :
    Ending B (.ok s.nodes)
  | firmware (message : String) : Ending B (.error (.firmware message))
  | node {off : ℕ} {marks : List TreeMark} {s : TreeState} (fault : NodeFault B off marks s) :
    Ending B (.error .unicode)
  | property {off : ℕ} {marks : List TreeMark} {s : TreeState}
    (fault : PropertyFault B off marks s) : Ending B (.error .unicode)

theorem beginNode_cases (s : TreeState) (name : List Char) :
    (∃ s', s.beginNode name = .ok s') ∨ ∃ message, s.beginNode name = .error (.firmware message) := by
  unfold TreeState.beginNode
  split
  · exact Or.inr ⟨_, rfl⟩
  · split
    · exact Or.inr ⟨_, rfl⟩
    · exact Or.inl ⟨_, rfl⟩

theorem endNode_cases (s : TreeState) :
    (∃ s', s.endNode = .ok s') ∨ ∃ message, s.endNode = .error (.firmware message) := by
  unfold TreeState.endNode
  split
  · exact Or.inr ⟨_, rfl⟩
  · exact Or.inl ⟨_, rfl⟩

/-- How one token is read: the mark is applied, or the read ends. -/
theorem token_cases (hspelt : Spelt B off marks) (hs : afterMarks marks = .ok s)
    (hroom : off + 4 ≤ B.stop) : (∃ m next s', TokenAt B off m next ∧ s.apply m = .ok s') ∨
      word B.data off = 4 ∨ Ending B (B.readTokens off s) := by
  by_cases hopening : word B.data off = 1
  · rcases terminated_cases B.data (off + 4) B.stop with
      ⟨name, hname⟩ | ⟨message, hname⟩ | ⟨hname, hzero, hascii⟩
    · rcases beginNode_cases s name with ⟨s', hbegin⟩ | ⟨message, hbegin⟩
      · exact Or.inl ⟨.opening name, _, s', .opening hopening hname, hbegin⟩
      · refine Or.inr (Or.inr ?_)
        rw [readTokens_opening s hroom hopening, hname]
        simp only [hbegin]
        exact .firmware message
    · refine Or.inr (Or.inr ?_)
      rw [readTokens_opening s hroom hopening, hname]
      exact .firmware message
    · refine Or.inr (Or.inr ?_)
      rw [readTokens_opening s hroom hopening, hname]
      exact .node ⟨hspelt, hs, hroom, hopening, hzero, hascii⟩
  by_cases hclosing : word B.data off = 2
  · rcases endNode_cases s with ⟨s', hend⟩ | ⟨message, hend⟩
    · exact Or.inl ⟨.closing, _, s', .closing hclosing, hend⟩
    · refine Or.inr (Or.inr ?_)
      rw [readTokens_closing s hroom hclosing, hend]
      exact .firmware message
  by_cases hitem : word B.data off = 3
  · rw [readTokens_item s hroom hitem]
    by_cases hfront : s.stack = [] ∨ B.stop < off + 4 + 8
    · refine Or.inr (Or.inr ?_)
      rw [Blob.readProperty, if_pos hfront]
      exact .firmware _
    by_cases hbounds : B.stop < off + 4 + 8 + word B.data (off + 4) ∨
        B.strings.length ≤ word B.data (off + 4 + 4)
    · refine Or.inr (Or.inr ?_)
      rw [Blob.readProperty, if_neg hfront, if_pos hbounds]
      exact .firmware _
    rw [not_or] at hfront
    rw [not_or, not_lt, not_le] at hbounds
    rw [readProperty_of_bounds hfront.1 hbounds.1 hbounds.2]
    rcases terminated_cases B.strings (word B.data (off + 4 + 4)) B.strings.length with
      ⟨name, hname⟩ | ⟨message, hname⟩ | ⟨hname, hzero, hascii⟩
    · rcases (shows_nestOf hs).2.setProperty hfront.1 name
          (slice B.data (off + 4 + 8) (word B.data (off + 4))) with ⟨s', hset⟩ | ⟨message, hset⟩
      · refine Or.inl ⟨_, _, s', .item hitem hbounds.1 hbounds.2 hname, ?_⟩
        simp only [TreeState.apply]
        rw [if_neg hfront.1, hset]
      · refine Or.inr (Or.inr ?_)
        rw [hname]
        simp only [hset]
        exact .firmware message
    · refine Or.inr (Or.inr ?_)
      rw [hname]
      exact .firmware message
    · refine Or.inr (Or.inr ?_)
      rw [hname]
      exact .property
        ⟨hspelt, hs, hitem, hfront.1, hbounds.1, hbounds.2, hzero, hascii⟩
  by_cases hend : word B.data off = 9
  · refine Or.inr (Or.inr ?_)
    rw [readTokens_end s hroom hend]
    by_cases hincomplete : s.stack ≠ [] ∨ ['/'] ∉ s.nodes.map Prod.fst
    · rw [if_pos hincomplete]
      exact .firmware _
    · rw [if_neg hincomplete]
      rw [not_or, not_not, not_not] at hincomplete
      exact .complete ⟨hspelt, hs, hroom, hend, hincomplete.1, hincomplete.2⟩
  by_cases hskip : word B.data off = 4
  · exact Or.inr (Or.inl hskip)
  · refine Or.inr (Or.inr ?_)
    rw [Blob.readTokens, if_pos hroom, if_neg hopening, if_neg hclosing, if_neg hitem, if_neg hend,
      if_neg hskip]
    exact .firmware _

/-- How a read ends. -/
theorem readTokens_cases (hspelt : Spelt B off marks) (hs : afterMarks marks = .ok s) :
    Ending B (B.readTokens off s) := by
  induction hn : B.stop - off using Nat.strongRecOn generalizing off marks s with
  | ind n ih =>
    by_cases hroom : off + 4 ≤ B.stop
    · rcases token_cases hspelt hs hroom with ⟨m, next, s', hfound, happly⟩ | hskip | hending
      · rw [readTokens_next hroom hfound happly]
        have hlt := hfound.lt
        exact ih _ (by omega) (.next hspelt hroom hfound)
          (afterMarks_append_singleton.2 ⟨s, hs, happly⟩) rfl
      · rw [readTokens_skip s hroom hskip]
        exact ih _ (by omega) (.skip hspelt hroom hskip) hs rfl
      · exact hending
    · rw [Blob.readTokens, if_neg hroom]
      exact .firmware _

end Reading

/-! ## What is expected -/

section Tree

variable {data : List UInt8} {f inner : TreeForest}

/-- The structure block spells one node, and nothing but the end token behind it. -/
def Encodes (data : List UInt8) (name : List Char) (inner : TreeForest) : Prop :=
  ∃ B off, fdtHeader data = .ok B ∧ Spelt B off (Forest.node name inner .nil).marks ∧
    off + 4 ≤ B.stop ∧ word B.data off = 9

/-- The nodes of a tree with their paths and properties. -/
def treeNodes (name : List Char) (inner : TreeForest) : List (List Char × Properties) :=
  nodeMap ((Forest.node name inner .nil).table [])

/-- A value is in the structure block. -/
def InBlock (data value : List UInt8) : Prop :=
  ∃ off, word data 8 ≤ off ∧ off + value.length ≤ word data 8 + word data 36 ∧
    value = slice data off value.length

/-- The nodes are those of the tree that the structure block encodes, with values from inside of it.
What is raised is `FirmwareError`. -/
structure TreeAgrees (data : List UInt8) : Prop where
  tree : ∀ nodes, fdt data = .ok nodes →
    ∃ name inner, Encodes data name inner ∧ nodes = treeNodes name inner
  inside : ∀ nodes, fdt data = .ok nodes → ∀ node ∈ nodes, ∀ property ∈ node.2,
    InBlock data property.2
  raises : ∀ failure, fdt data = .error failure → failure.IsFirmware

/-- The names that are come to are ASCII, and of a complete structure block every node that is in no
other has the empty name. -/
structure RegularTree (data : List UInt8) : Prop where
  nodes : ∀ B, fdtHeader data = .ok B → ∀ off marks s, ¬NodeFault B off marks s
  properties : ∀ B, fdtHeader data = .ok B → ∀ off marks s, ¬PropertyFault B off marks s
  root : ∀ B, fdtHeader data = .ok B → ∀ off marks s, Complete B off marks s →
    ∀ front name rest t, marks = front ++ .opening name :: rest → afterMarks front = .ok t →
      t.stack = [] → name = []

theorem fdt_of_header {B : Blob} (h : fdtHeader data = .ok B) :
    fdt data = B.readTokens B.first TreeState.init := by
  rw [fdt, h]

theorem fdtHeader_eq_ok {B : Blob} (h : fdtHeader data = .ok B) :
    B.data = data ∧ B.first = word data 8 ∧ B.stop = word data 8 + word data 36 := by
  unfold fdtHeader at h
  split at h
  · cases h
  · split at h
    · cases h
    · split at h
      · cases h
      · obtain rfl := Except.ok.inj h
        exact ⟨rfl, rfl, rfl⟩

theorem fdtHeader_eq_error (h : fdtHeader data = .error failure) : failure.IsFirmware := by
  unfold fdtHeader at h
  split at h
  · exact ⟨_, (Except.error.inj h).symm⟩
  · split at h
    · exact ⟨_, (Except.error.inj h).symm⟩
    · split at h
      · exact ⟨_, (Except.error.inj h).symm⟩
      · cases h

/-! ### Paths -/

theorem nodePath_singleton (name : List Char) :
    nodePath [name] = if name = [] then ['/'] else name := by
  simp [nodePath, List.intercalate]

theorem nodePath_cons (name next : List Char) (more : List (List Char)) :
    nodePath (name :: next :: more) =
      name ++ '/' :: List.intercalate ['/'] (next :: more) := by
  simp [nodePath, List.intercalate]

theorem nodePath_ne {name : List Char} (more : List (List Char)) (hname : name ≠ [])
    (hslash : '/' ∉ name) : nodePath (name :: more) ≠ ['/'] := by
  obtain ⟨c, rest, rfl⟩ := exists_cons_of_ne_nil hname
  have hc : '/' ≠ c := fun heq => hslash (heq ▸ mem_cons_self)
  cases more with
  | nil =>
    rw [nodePath_singleton, if_neg hname]
    intro heq
    exact hc (List.cons.inj heq).1.symm
  | cons next more =>
    rw [nodePath_cons]
    intro heq
    exact hc (List.cons.inj heq).1.symm

/-- A node in no other whose path is one of a tree with a root at `/` has the empty name. -/
theorem name_eq_nil {root : List Char} (hslash : '/' ∉ name)
    (hname : nodePath [name] ∈ (treeNodes root inner).map Prod.fst)
    (hroot : ['/'] ∈ (treeNodes root inner).map Prod.fst) : name = [] := by
  by_contra hne
  have hpath {path : List Char} (h : path ∈ (treeNodes root inner).map Prod.fst) :
      ∃ more, path = nodePath (root :: more) := by
    rw [treeNodes, nodeMap, map_map] at h
    obtain ⟨entry, hentry, rfl⟩ := mem_map.1 h
    obtain ⟨a, more, heq, ha⟩ := Forest.prefix_of_mem_table _ hentry
    obtain rfl : a = root := by simpa [Forest.roots] using ha
    exact ⟨more, by rw [Function.comp_apply, heq]; rfl⟩
  obtain ⟨more, hmore⟩ := hpath hname
  obtain ⟨more', hmore'⟩ := hpath hroot
  rw [nodePath_singleton, if_neg hne] at hmore
  cases more with
  | nil =>
    rw [nodePath_singleton] at hmore
    split at hmore
    · exact hslash (hmore ▸ mem_singleton_self '/')
    · subst hmore
      exact nodePath_ne more' hne hslash hmore'.symm
  | cons next more =>
    rw [nodePath_cons] at hmore
    exact hslash (hmore ▸ mem_append_right _ mem_cons_self)

/-! ### One root -/

/-- Nodes with the empty name and distinct paths are one node. -/
theorem forest_eq_node (hitems : f.items = []) (hroots : ∀ name ∈ f.roots, name = [])
    (hdistinct : ((nodeMap (f.table [])).map Prod.fst).Nodup)
    (hroot : ['/'] ∈ (nodeMap (f.table [])).map Prod.fst) : ∃ inner, f = .node [] inner .nil := by
  have hkey {rest : TreeForest} {name : List Char} (h : name ∈ rest.roots) (hname : name = []) :
      ['/'] ∈ (nodeMap (rest.table [])).map Prod.fst := by
    obtain ⟨entry, hentry, heq⟩ := mem_map.1 (Forest.mem_table_of_mem_roots rest [] h)
    rw [nodeMap, map_map]
    refine mem_map.2 ⟨entry, hentry, ?_⟩
    rw [Function.comp_apply, heq, hname]
    rfl
  cases f with
  | nil => exact absurd hroot not_mem_nil
  | item property rest => exact absurd hitems (cons_ne_nil _ _)
  | node name inner rest =>
    obtain rfl : name = [] := hroots name mem_cons_self
    cases rest with
    | nil => exact ⟨inner, rfl⟩
    | item property rest => exact absurd hitems (cons_ne_nil _ _)
    | node next inner' rest =>
      have hnext : ['/'] ∈ (nodeMap ((Forest.node next inner' rest).table [])).map Prod.fst :=
        hkey mem_cons_self (hroots next (mem_cons_of_mem _ mem_cons_self))
      rw [Forest.table, cons_append, nodeMap, map_cons, map_cons, nodup_cons,
        map_append, map_append] at hdistinct
      exact absurd (mem_append_right _ hnext) hdistinct.1

/-- What is complete with a root alone is the nodes of the tree that is spelt. -/
theorem Complete.tree {B : Blob} {off : ℕ} (h : Complete B off marks s)
    (hroot : ∀ front name rest t, marks = front ++ .opening name :: rest →
      afterMarks front = .ok t → t.stack = [] → name = []) :
    ∃ inner, marks = (Forest.node [] inner .nil).marks ∧ s.nodes = treeNodes [] inner := by
  obtain ⟨hmarks, hshows⟩ := shows_nestOf h.kept
  have htops : ∀ name ∈ (nestOf marks).tops, name = [] := by
    intro name hname
    obtain ⟨front, rest, t, heq, hfront, hstack⟩ := exists_of_mem_tops h.kept hname
    exact hroot front name rest t heq hfront hstack
  cases hnest : nestOf marks with
  | inside outer a forest =>
    have hlabels := hshows.labels
    rw [hnest, h.closed] at hlabels
    exact absurd hlabels (append_ne_nil_of_right_ne_nil _ (cons_ne_nil _ _))
  | base forest =>
    rw [hnest] at hmarks htops hshows
    obtain ⟨inner, rfl⟩ := forest_eq_node hshows.loose htops
      (by rw [show nodeMap (forest.table []) = s.nodes from hshows.nodes]; exact hshows.distinct)
      (by rw [show nodeMap (forest.table []) = s.nodes from hshows.nodes]; exact h.root)
    exact ⟨inner, hmarks.symm, hshows.nodes.symm⟩

/-- The values of what is complete are in the structure block. -/
theorem Complete.inside {B : Blob} {off : ℕ} (h : Complete B off marks s)
    (hB : fdtHeader data = .ok B) :
    ∀ node ∈ s.nodes, ∀ property ∈ node.2, InBlock data property.2 := by
  obtain ⟨hmarks, hshows⟩ := shows_nestOf h.kept
  obtain ⟨hdata, hfirst, hstop⟩ := fdtHeader_eq_ok hB
  intro node hnode property hproperty
  rw [← hshows.nodes] at hnode
  obtain ⟨entry, hentry, rfl⟩ := mem_map.1 hnode
  have hmem : .item property ∈ marks := by
    rw [← hmarks]
    cases hnest : nestOf marks with
    | inside outer a forest =>
      have hlabels := hshows.labels
      rw [hnest, h.closed] at hlabels
      exact absurd hlabels (append_ne_nil_of_right_ne_nil _ (cons_ne_nil _ _))
    | base forest =>
      rw [hnest] at hentry
      exact Forest.mem_marks_of_mem_table forest hentry hproperty
  obtain ⟨at', hle, hlast, hvalue⟩ := h.spelt.inside hmem
  rw [hdata] at hvalue
  exact ⟨at', by omega, by omega, hvalue⟩

/-- A tree is read as expected exactly where its names are ASCII and it has one root. -/
theorem treeAgrees_iff (data : List UInt8) : TreeAgrees data ↔ RegularTree data := by
  constructor
  · intro h
    have hunicode : fdt data ≠ .error .unicode := fun hfdt =>
      Failure.not_isFirmware_unicode (h.raises _ hfdt)
    constructor
    · intro B hB off marks s hfault
      refine hunicode ?_
      rw [fdt_of_header hB, readTokens_of_spelt hfault.spelt hfault.kept,
        readTokens_opening s hfault.room hfault.token,
        terminated_of_not_isAscii hfault.terminated hfault.foreign]
    · intro B hB off marks s hfault
      have hinside := hfault.inside
      refine hunicode ?_
      rw [fdt_of_header hB, readTokens_of_spelt hfault.spelt hfault.kept,
        readTokens_item s (by omega) hfault.token,
        readProperty_of_bounds hfault.inNode hfault.inside hfault.within,
        terminated_of_not_isAscii hfault.terminated hfault.foreign]
    · intro B hB off marks s hcomplete front name rest t heq hfront hstack
      have hincomplete : ¬(s.stack ≠ [] ∨ ['/'] ∉ s.nodes.map Prod.fst) := by
        rw [not_or, not_not, not_not]
        exact ⟨hcomplete.closed, hcomplete.root⟩
      have hfdt : fdt data = .ok s.nodes := by
        rw [fdt_of_header hB, readTokens_of_spelt hcomplete.spelt hcomplete.kept,
          readTokens_end s hcomplete.room hcomplete.token, if_neg hincomplete]
      obtain ⟨root, inner, -, hnodes⟩ := h.tree s.nodes hfdt
      have hkept := hcomplete.kept
      have htop : name ∈ (nestOf (front ++ .opening name :: rest)).tops := mem_tops hfront hstack
      rw [heq] at hkept
      obtain ⟨-, hshows⟩ := shows_nestOf hkept
      have hname : nodePath [name] ∈ s.nodes.map Prod.fst := by
        cases hnest : nestOf (front ++ .opening name :: rest) with
        | inside outer a forest =>
          have hlabels := hshows.labels
          rw [hnest, hcomplete.closed] at hlabels
          exact absurd hlabels (append_ne_nil_of_right_ne_nil _ (cons_ne_nil _ _))
        | base forest =>
          rw [hnest] at htop hshows
          obtain ⟨entry, hentry, hpath⟩ :=
            mem_map.1 (Forest.mem_table_of_mem_roots forest [] htop)
          rw [← hshows.nodes, nodeMap, map_map]
          refine mem_map.2 ⟨entry, hentry, ?_⟩
          rw [Function.comp_apply, hpath]
          rfl
      exact name_eq_nil (notMem_of_afterMarks hkept) (hnodes ▸ hname) (hnodes ▸ hcomplete.root)
  · intro h
    cases hB : fdtHeader data with
    | error failure =>
      have hfdt : fdt data = .error failure := by rw [fdt, hB]
      refine ⟨fun nodes hok => ?_, fun nodes hok => ?_, fun failure' herror => ?_⟩
      · cases hfdt.symm.trans hok
      · cases hfdt.symm.trans hok
      · obtain rfl := Except.error.inj (hfdt.symm.trans herror)
        exact fdtHeader_eq_error hB
    | ok B =>
      have hending : Ending B (B.readTokens B.first TreeState.init) := readTokens_cases .start rfl
      rw [← fdt_of_header hB] at hending
      cases hfdt : fdt data with
      | error failure =>
        rw [hfdt] at hending
        refine ⟨fun nodes hok => ?_, fun nodes hok => ?_, fun failure' herror => ?_⟩
        · cases hfdt.symm.trans hok
        · cases hfdt.symm.trans hok
        · obtain rfl := Except.error.inj (hfdt.symm.trans herror)
          cases hending with
          | firmware message => exact ⟨message, rfl⟩
          | node fault => exact absurd fault (h.nodes B hB _ _ _)
          | property fault => exact absurd fault (h.properties B hB _ _ _)
      | ok nodes =>
        rw [hfdt] at hending
        refine ⟨fun nodes' hok => ?_, fun nodes' hok => ?_, fun failure' herror => ?_⟩
        · obtain rfl := Except.ok.inj (hfdt.symm.trans hok)
          cases hending with
          | @complete off marks s complete =>
            obtain ⟨inner, rfl, hnodes⟩ := complete.tree (h.root B hB off marks s complete)
            exact ⟨[], inner, ⟨B, off, hB, complete.spelt, complete.room, complete.token⟩, hnodes⟩
        · obtain rfl := Except.ok.inj (hfdt.symm.trans hok)
          cases hending with
          | complete complete => exact complete.inside hB
        · cases hfdt.symm.trans herror

end Tree

/-- Containers and device trees are read as expected exactly where they are regular. -/
theorem formats_agree (file data : List UInt8) :
    (ContainerAgrees file ↔ RegularContainer file) ∧ (TreeAgrees data ↔ RegularTree data) :=
  ⟨containerAgrees_iff file, treeAgrees_iff data⟩

/-! ### Names that are not ASCII -/

/-- A header whose version is the byte 0x80. -/
def foreignHeader : List UInt8 := [85, 66, 78, 84, 128] ++ List.replicate 255 0

/-- A container with such a header. -/
def foreignContainer : List UInt8 :=
  foreignHeader ++ beBytes 4 (crc32 0 foreignHeader) ++ [0, 0, 0, 0]

/-- A device tree with some structure block. -/
def treeBlob (tokens : List ℕ) : List UInt8 :=
  ([0xd00dfeed, 40 + 4 * tokens.length, 40, 40 + 4 * tokens.length, 0, 17, 0, 0, 0,
    4 * tokens.length] ++ tokens).flatMap (beBytes 4)

theorem headerPasses_foreignContainer : HeaderPasses foreignContainer := by
  have hlength : foreignHeader.length = 260 := by
    rw [foreignHeader, length_append, length_replicate]
    rfl
  have htake : foreignContainer.take 0x104 = foreignHeader := by
    rw [foreignContainer, append_assoc]
    exact take_left' hlength
  refine ⟨?_, by decide, ?_⟩
  · rw [foreignContainer, length_append, length_append, length_beBytes, hlength]
    exact Nat.le_refl 268
  · rw [htake, word, foreignContainer, slice_middle hlength (length_beBytes _ _), beNat_beBytes]
    have hlt : crc32 0 foreignHeader < 256 ^ 4 := crc32_lt (by decide) foreignHeader
    rw [Nat.mod_eq_of_lt hlt]

/-- A container whose version is not ASCII, a node whose name is not ASCII, and two nodes beside
each other. -/
theorem not_formats_agree :
    ¬(∀ file data, ContainerAgrees file ∧ TreeAgrees data) ∧ ¬ContainerAgrees foreignContainer ∧
      ¬TreeAgrees (treeBlob [1, 0x80000000, 2, 9]) ∧
      ¬TreeAgrees (treeBlob [1, 0, 2, 1, 0x61000000, 2, 9]) := by
  have hcontainer : ¬ContainerAgrees foreignContainer := by
    intro h
    have hforeign : ¬IsAscii (versionField foreignContainer) := by
      intro hascii
      have hversion : (versionField foreignContainer).head? = some 128 := by decide +kernel
      have hbyte : (128 : UInt8) < 128 := hascii 128 (mem_of_head? hversion)
      exact absurd hbyte (by decide)
    refine Failure.not_isFirmware_unicode (h.raises _ ?_)
    rw [container_of_header headerPasses_foreignContainer, decodeAscii_of_not_isAscii hforeign]
  have hname : ¬TreeAgrees (treeBlob [1, 0x80000000, 2, 9]) := by
    intro h
    exact Failure.not_isFirmware_unicode (h.raises _ (by decide +kernel))
  have hroots : ¬TreeAgrees (treeBlob [1, 0, 2, 1, 0x61000000, 2, 9]) := by
    intro h
    have hfdt : fdt (treeBlob [1, 0, 2, 1, 0x61000000, 2, 9]) = .ok [(['/'], []), (['a'], [])] := by
      decide +kernel
    obtain ⟨root, inner, -, hnodes⟩ := h.tree _ hfdt
    have hnil : ['a'] = ([] : List Char) := by
      have hroot : ['/'] ∈ (treeNodes root inner).map Prod.fst := by
        rw [← hnodes]
        decide
      refine name_eq_nil (by decide) ?_ hroot
      rw [← hnodes]
      decide
    cases hnil
  exact ⟨fun h => hname (h [] _).2, hcontainer, hname, hroots⟩

end MachineEmu.Firmware
