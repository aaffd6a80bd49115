import Mathlib.Data.List.Basic

/-!
# Nested marks

Trees that are written as a sequence of marks: one opens a node, one closes it, and one is an item
of the node that is open.

* `Forest` — nodes beside each other, with items between them.
* `Forest.marks`, `Forest.table` — its marks, and its nodes in the order in which they are opened.
* `Nest` — a forest in which some nodes are still open, from the outermost to the innermost.
* `Nest.step` — what a mark makes of it; `marks_…`, `labels_…` and `table_…` say what that does to
  its marks, to the path that is open and to the table.
-/

namespace Lib

open List

variable {α β : Type}

inductive Mark (α β : Type)
  | opening (a : α)
  | closing
  | item (b : β)

/-- Nodes with a label and what is inside, and items. -/
inductive Forest (α β : Type)
  | nil
  | item (b : β) (rest : Forest α β)
  | node (a : α) (inner rest : Forest α β)

namespace Forest

/-- The items that are in no node. -/
def items : Forest α β → List β
  | nil => []
  | item b rest => b :: rest.items
  | node _ _ rest => rest.items

/-- The labels of the nodes that are in no other. -/
def roots : Forest α β → List α
  | nil => []
  | item _ rest => rest.roots
  | node a _ rest => a :: rest.roots

def marks : Forest α β → List (Mark α β)
  | nil => []
  | item b rest => .item b :: rest.marks
  | node a inner rest => .opening a :: inner.marks ++ .closing :: rest.marks

/-- The path to each node, with the items of the node. -/
def table (path : List α) : Forest α β → List (List α × List β)
  | nil => []
  | item _ rest => rest.table path
  | node a inner rest =>
    (path ++ [a], inner.items) :: inner.table (path ++ [a]) ++ rest.table path

def append : Forest α β → Forest α β → Forest α β
  | nil, g => g
  | item b rest, g => item b (rest.append g)
  | node a inner rest, g => node a inner (rest.append g)

variable (f g : Forest α β)

@[simp] theorem items_append : (f.append g).items = f.items ++ g.items := by
  induction f with
  | nil => rfl
  | item b rest ih => simp [append, items, ih]
  | node a inner rest _ ih => simp [append, items, ih]

@[simp] theorem roots_append : (f.append g).roots = f.roots ++ g.roots := by
  induction f with
  | nil => rfl
  | item b rest ih => simp [append, roots, ih]
  | node a inner rest _ ih => simp [append, roots, ih]

@[simp] theorem marks_append : (f.append g).marks = f.marks ++ g.marks := by
  induction f with
  | nil => rfl
  | item b rest ih => simp [append, marks, ih]
  | node a inner rest _ ih => simp [append, marks, ih]

@[simp] theorem table_append (path : List α) :
    (f.append g).table path = f.table path ++ g.table path := by
  induction f with
  | nil => rfl
  | item b rest ih => simp [append, table, ih]
  | node a inner rest _ ih => simp [append, table, ih]

/-- Every node of a forest is below its path. -/
theorem prefix_of_mem_table {path : List α} {entry : List α × List β} (h : entry ∈ f.table path) :
    ∃ a more, entry.1 = path ++ a :: more ∧ a ∈ f.roots := by
  induction f generalizing path with
  | nil => exact absurd h not_mem_nil
  | item b rest ih => exact ih h
  | node a inner rest ihinner ih =>
    rcases mem_append.1 h with h | h
    · rcases mem_cons.1 h with rfl | h
      · exact ⟨a, [], rfl, mem_cons_self⟩
      · obtain ⟨b, more, hentry, -⟩ := ihinner h
        exact ⟨a, b :: more, by rw [hentry, append_assoc]; rfl, mem_cons_self⟩
    · obtain ⟨b, more, hentry, hb⟩ := ih h
      exact ⟨b, more, hentry, mem_cons_of_mem a hb⟩

/-- A node that is in no other has an entry. -/
theorem mem_table_of_mem_roots {a : α} (path : List α) (h : a ∈ f.roots) :
    path ++ [a] ∈ (f.table path).map Prod.fst := by
  induction f with
  | nil => exact absurd h not_mem_nil
  | item b rest ih => exact ih h
  | node c inner rest _ ih =>
    rw [table, map_append, mem_append]
    rcases mem_cons.1 h with rfl | h
    · exact Or.inl mem_cons_self
    · exact Or.inr (ih h)

theorem mem_marks_of_mem_items {b : β} (h : b ∈ f.items) : .item b ∈ f.marks := by
  induction f with
  | nil => exact absurd h not_mem_nil
  | item c rest ih =>
    rcases mem_cons.1 h with rfl | h
    · exact mem_cons_self
    · exact mem_cons_of_mem _ (ih h)
  | node a inner rest _ ih =>
    exact mem_append_right _ (mem_cons_of_mem _ (ih h))

/-- The items in the table are among the marks. -/
theorem mem_marks_of_mem_table {path : List α} {entry : List α × List β} {b : β}
    (h : entry ∈ f.table path) (hb : b ∈ entry.2) : .item b ∈ f.marks := by
  induction f generalizing path with
  | nil => exact absurd h not_mem_nil
  | item c rest ih => exact mem_cons_of_mem _ (ih h)
  | node a inner rest ihinner ih =>
    rcases mem_append.1 h with h | h
    · rcases mem_cons.1 h with rfl | h
      · exact mem_append_left _ (mem_cons_of_mem _ (inner.mem_marks_of_mem_items hb))
      · exact mem_append_left _ (mem_cons_of_mem _ (ihinner h))
    · exact mem_append_right _ (mem_cons_of_mem _ (ih h))

end Forest

/-- A forest, or one more open node with what is in it so far. -/
inductive Nest (α β : Type)
  | base (forest : Forest α β)
  | inside (outer : Nest α β) (a : α) (forest : Forest α β)

namespace Nest

/-- The path that is open. -/
def labels : Nest α β → List α
  | base _ => []
  | inside outer a _ => outer.labels ++ [a]

def marks : Nest α β → List (Mark α β)
  | base forest => forest.marks
  | inside outer a forest => outer.marks ++ .opening a :: forest.marks

def table : Nest α β → List (List α × List β)
  | base forest => forest.table []
  | inside outer a forest =>
    outer.table ++ (outer.labels ++ [a], forest.items) :: forest.table (outer.labels ++ [a])

/-- The items that are in no node. -/
def loose : Nest α β → List β
  | base forest => forest.items
  | inside outer _ _ => outer.loose

/-- The labels of the nodes that are in no other. -/
def tops : Nest α β → List α
  | base forest => forest.roots
  | inside outer a _ => outer.tops ++ if outer.labels = [] then [a] else []

/-- More is put into the innermost node. -/
def extended (more : Forest α β) : Nest α β → Nest α β
  | base forest => base (forest.append more)
  | inside outer a forest => inside outer a (forest.append more)

def opened (a : α) (z : Nest α β) : Nest α β := inside z a .nil

def closed : Nest α β → Nest α β
  | base forest => base forest
  | inside outer a forest => outer.extended (.node a forest .nil)

/-- What a mark makes of a nest. -/
def step (z : Nest α β) : Mark α β → Nest α β
  | .opening a => z.opened a
  | .closing => z.closed
  | .item b => z.extended (.item b .nil)

variable (z : Nest α β)

@[simp] theorem labels_extended (more : Forest α β) : (z.extended more).labels = z.labels := by
  cases z <;> rfl

@[simp] theorem labels_opened (a : α) : (z.opened a).labels = z.labels ++ [a] := rfl

@[simp] theorem labels_closed : z.closed.labels = z.labels.dropLast := by
  cases z with
  | base forest => rfl
  | inside outer a forest => simp [closed, labels]

theorem marks_extended (more : Forest α β) : (z.extended more).marks = z.marks ++ more.marks := by
  cases z <;> simp [extended, marks]

@[simp] theorem marks_opened (a : α) : (z.opened a).marks = z.marks ++ [.opening a] := rfl

@[simp] theorem marks_item (b : β) :
    (z.extended (.item b .nil)).marks = z.marks ++ [.item b] := marks_extended z _

theorem marks_closed (h : z.labels ≠ []) : z.closed.marks = z.marks ++ [.closing] := by
  cases z with
  | base forest => exact absurd rfl h
  | inside outer a forest => simp [closed, marks, marks_extended, Forest.marks]

@[simp] theorem table_opened (a : α) : (z.opened a).table = z.table ++ [(z.labels ++ [a], [])] := rfl

/-- A node is in the table from when it is opened. -/
@[simp] theorem table_closed : z.closed.table = z.table := by
  cases z with
  | base forest => rfl
  | inside outer a forest =>
    cases outer with
    | base below => simp [closed, extended, table, labels, Forest.table]
    | inside outer b below =>
      simp [closed, extended, table, labels, Forest.table, Forest.items]

/-- An item goes to the entry of the innermost node. -/
theorem table_item (b : β) (h : z.labels ≠ []) : ∃ before items later,
    z.table = before ++ (z.labels, items) :: later ∧
      (z.extended (.item b .nil)).table = before ++ (z.labels, items ++ [b]) :: later := by
  cases z with
  | base forest => exact absurd rfl h
  | inside outer a forest =>
    exact ⟨outer.table, forest.items, forest.table (outer.labels ++ [a]), rfl, by
      simp [extended, table, labels, Forest.table, Forest.items]⟩

theorem loose_closed : z.closed.loose = z.loose := by
  cases z with
  | base forest => rfl
  | inside outer a forest =>
    cases outer with
    | base below => simp [closed, extended, loose, Forest.items]
    | inside outer b below => rfl

theorem loose_item (b : β) (h : z.labels ≠ []) : (z.extended (.item b .nil)).loose = z.loose := by
  cases z with
  | base forest => exact absurd rfl h
  | inside outer a forest => rfl

theorem tops_opened (a : α) :
    (z.opened a).tops = z.tops ++ if z.labels = [] then [a] else [] := rfl

theorem tops_closed : z.closed.tops = z.tops := by
  cases z with
  | base forest => rfl
  | inside outer a forest =>
    cases outer with
    | base below => simp [closed, extended, tops, labels, Forest.roots]
    | inside outer b below => simp [closed, extended, tops, labels]

theorem tops_item (b : β) : (z.extended (.item b .nil)).tops = z.tops := by
  cases z with
  | base forest => simp [extended, tops, Forest.roots]
  | inside outer a forest => rfl

/-- A node that is in no other stays. -/
theorem tops_subset_step (m : Mark α β) : z.tops ⊆ (z.step m).tops := by
  cases m with
  | opening a => exact subset_append_left _ _
  | closing => exact (tops_closed z).symm ▸ List.Subset.refl _
  | item b => exact (tops_item z b).symm ▸ List.Subset.refl _

end Nest

end Lib
