import Mathlib.Data.Nat.Notation
import MachineEmu.Lib.Splitting

/-!
# Path texts of POSIX

Texts of paths as `posixpath` of Python takes them apart, with no look at a file system.

* `PosixPath.normpath`, `join`, `dirname` — the functions of that module.
* `PosixPath.Local` — a path that neither starts at the root nor goes up.
* `normpath_of_local` — such a path loses its empty parts and its dots.
* `normpath_normpath`, `Local.normpath` — it does so once, and stays such a path.
-/

namespace Lib.PosixPath

open List

/-- A path that goes up. -/
def dotdot : List Char := ['.', '.']

/-- The slashes that a path starts with. Two are kept, more are one. -/
def root : List Char → List Char
  | '/' :: '/' :: '/' :: _ => ['/']
  | '/' :: '/' :: _ => ['/', '/']
  | '/' :: _ => ['/']
  | _ => []

/-- One part of a path, after the parts that are kept. -/
def pushComponent (root : List Char) (components : List (List Char)) (component : List Char) :
    List (List Char) :=
  if component = [] ∨ component = ['.'] then components
  else if component ≠ dotdot ∨ (root = [] ∧ components = []) ∨
      components.getLast? = some dotdot then components ++ [component]
  else components.dropLast

/-- `posixpath.normpath`. -/
def normpath (path : List Char) : List Char :=
  let components := ((path.drop (root path).length).splitOn '/').foldl (pushComponent (root path)) []
  let path := root path ++ ['/'].intercalate components
  if path = [] then ['.'] else path

/-- `posixpath.join` of two paths. -/
def join (path other : List Char) : List Char :=
  if other.head? = some '/' then other
  else if path = [] ∨ path.getLast? = some '/' then path ++ other
  else path ++ '/' :: other

/-- `posixpath.dirname`. -/
def dirname (path : List Char) : List Char :=
  let head := (path.reverse.dropWhile (· ≠ '/')).reverse
  if head.all (· = '/') then head else (head.reverse.dropWhile (· = '/')).reverse

/-- A path that does not start at the root and does not go up. -/
structure Local (path : List Char) : Prop where
  relative : path.head? ≠ some '/'
  inside : dotdot ∉ path.splitOn '/'

/-- Whether a part is kept of a path that does not go up. -/
def kept (component : List Char) : Bool := component ≠ [] && component ≠ ['.']

theorem foldl_pushComponent {components : List (List Char)} (h : dotdot ∉ components)
    (root : List Char) (done : List (List Char)) :
    components.foldl (pushComponent root) done = done ++ components.filter kept := by
  induction components generalizing done with
  | nil => simp
  | cons component components ih =>
    rw [mem_cons, not_or] at h
    rw [foldl_cons, ih h.2]
    by_cases hkept : component = [] ∨ component = ['.']
    · have hnot : kept component = false := by
        rcases hkept with rfl | rfl <;> rfl
      rw [pushComponent, if_pos hkept, filter_cons_of_neg (by simp [hnot])]
    · have hyes : kept component = true := by simpa [kept, not_or] using hkept
      rw [pushComponent, if_neg hkept, if_pos (Or.inl fun heq => h.1 heq.symm),
        filter_cons_of_pos hyes, append_assoc, singleton_append]

theorem root_of_relative {path : List Char} (h : path.head? ≠ some '/') : root path = [] := by
  unfold root
  split
  · exact absurd rfl h
  · exact absurd rfl h
  · exact absurd rfl h
  · rfl

/-- A local path loses its empty parts and its dots. -/
theorem normpath_of_local {path : List Char} (h : Local path) :
    normpath path =
      if ['/'].intercalate ((path.splitOn '/').filter kept) = [] then ['.']
      else ['/'].intercalate ((path.splitOn '/').filter kept) := by
  rw [normpath, root_of_relative h.relative, length_nil, drop_zero,
    foldl_pushComponent h.inside, nil_append, nil_append]

/-- A local path gets no new characters, but for the dot of an empty one. -/
theorem normpath_sublist {path : List Char} (h : Local path) :
    normpath path = ['.'] ∨ (normpath path).Sublist path := by
  rw [normpath_of_local h]
  split
  · exact Or.inl rfl
  · right
    have hkept : ((path.splitOn '/').filter kept).Sublist (path.splitOn '/') := filter_sublist
    have hsub := @intercalate_sublist _ '/' _ _ hkept
    rwa [intercalate_splitOn] at hsub

section Normal

variable {path : List Char} (h : Local path)

include h

/-- The parts of what is left are the parts that are kept, but for the dot of an empty one. -/
theorem splitOn_normpath : normpath path = ['.'] ∨
    normpath path ≠ [] ∧ (normpath path).splitOn '/' = (path.splitOn '/').filter kept := by
  rw [normpath_of_local h]
  split
  · exact Or.inl rfl
  · next hne =>
    refine Or.inr ⟨hne, splitOn_intercalate '/' ?_ ?_⟩
    · intro component hcomponent
      exact notMem_of_mem_splitOn (mem_of_mem_filter hcomponent)
    · intro heq
      exact hne (by rw [heq, intercalate_nil])

/-- A local path stays one. -/
theorem Local.normpath : Local (normpath path) := by
  rcases splitOn_normpath h with hdot | ⟨hne, hsplit⟩
  · rw [hdot]
    exact ⟨by decide, by decide⟩
  · refine ⟨fun hhead => ?_, ?_⟩
    · -- a slash in front is an empty part in front, which is not kept
      obtain ⟨rest, hrest⟩ : ∃ rest, PosixPath.normpath path = '/' :: rest := by
        cases hpath : PosixPath.normpath path with
        | nil => exact absurd hpath hne
        | cons c rest => exact ⟨rest, by rw [hpath] at hhead; rw [Option.some.inj hhead]⟩
      have hempty : [] ∈ (path.splitOn '/').filter kept := by
        rw [← hsplit, hrest, splitOn_cons_eq_if_modifyHead, if_pos (by decide)]
        exact mem_cons_self
      exact absurd (mem_filter.1 hempty).2 (by decide)
    · rw [hsplit]
      exact fun hmem => h.inside (mem_of_mem_filter hmem)

/-- The second time there is nothing to lose. -/
theorem normpath_normpath :
    PosixPath.normpath (PosixPath.normpath path) = PosixPath.normpath path := by
  rcases splitOn_normpath h with hdot | ⟨hne, hsplit⟩
  · rw [hdot]
    decide
  · have hkept : ['/'].intercalate (((PosixPath.normpath path).splitOn '/').filter kept) =
        PosixPath.normpath path := by
      rw [hsplit, filter_filter]
      simp only [Bool.and_self]
      rw [← hsplit, intercalate_splitOn]
    rw [normpath_of_local h.normpath, hkept, if_neg hne]

end Normal

end Lib.PosixPath
