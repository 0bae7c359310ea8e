import Mathlib.Data.List.Basic
import Mathlib.Data.List.Induction
import Mathlib.Data.List.Nodup

/-!
# Finite directory trees

Directories and regular files by the names on the way to them. Every entry lies in a
directory of the tree, and a name is one that a file system admits.
-/

namespace LosslessMusic.Dlna

/-- What a path leads to. -/
inductive Kind
  | file
  | directory
  deriving DecidableEq, Repr

/-- The names of files: not empty, neither of the two special names, and without a
slash or a null character. -/
def plainName (name : String) : Bool :=
  name ≠ "" && name ≠ "." && name ≠ ".." && '/' ∉ name.toList && '\x00' ∉ name.toList

/-- The entries below the file system's root. -/
structure FileTree where
  entries : List (List String × Kind)
  distinct : (entries.map Prod.fst).Nodup
  enclosed : ∀ entry ∈ entries, entry.1 ≠ [] ∧
    (entry.1.dropLast = [] ∨ (entry.1.dropLast, Kind.directory) ∈ entries)
  plain : ∀ entry ∈ entries, ∀ name ∈ entry.1, plainName name = true

namespace FileTree

variable (tree : FileTree)

/-- What a path leads to, if anything; the root of the file system is a directory. -/
def kind (path : List String) : Option Kind :=
  if path = [] then some .directory else tree.entries.lookup path

/-- `listFiles`: the names in a directory. -/
def names (path : List String) : List String :=
  tree.entries.filterMap fun entry =>
    if entry.1.dropLast = path then entry.1.getLast? else none

variable {tree} {path : List String} {name : String} {found : Kind}

theorem kind_eq_some_iff (below : path ≠ []) :
    tree.kind path = some found ↔ (path, found) ∈ tree.entries := by
  unfold kind
  rw [if_neg below]
  have distinct := tree.distinct
  generalize tree.entries = entries at distinct
  induction entries with
  | nil => simp
  | cons entry rest ih =>
    rw [List.map_cons, List.nodup_cons] at distinct
    obtain ⟨key, value⟩ := entry
    rw [List.lookup_cons, List.mem_cons]
    by_cases same : path = key
    · subst same
      have absent : (path, found) ∉ rest := fun member =>
        distinct.1 (List.mem_map.mpr ⟨_, member, rfl⟩)
      simp [absent, eq_comm]
    · have tail := ih distinct.2
      have other : (path == key) = false := by simpa using same
      simp [other, same, tail]

theorem mem_names : name ∈ tree.names path ↔ (tree.kind (path ++ [name])).isSome = true := by
  have below : path ++ [name] ≠ [] := by simp
  rw [Option.isSome_iff_exists]
  simp only [kind_eq_some_iff below, names, List.mem_filterMap, Option.ite_none_right_eq_some]
  constructor
  · rintro ⟨entry, member, parent, last⟩
    refine ⟨entry.2, ?_⟩
    have whole : entry.1 = path ++ [name] := by
      rw [← parent]
      exact (List.dropLast_append_getLast? name last).symm
    rw [← whole]
    exact member
  · rintro ⟨found, member⟩
    exact ⟨_, member, by simp, by simp⟩

theorem nodup_names (tree : FileTree) (path : List String) : (tree.names path).Nodup := by
  have paths : tree.names path = (tree.entries.map Prod.fst).filterMap fun entry =>
      if entry.dropLast = path then entry.getLast? else none := by
    rw [List.filterMap_map]
    rfl
  rw [paths]
  refine List.Nodup.filterMap ?_ tree.distinct
  intro first second name inFirst inSecond
  rw [Option.mem_def, Option.ite_none_right_eq_some] at inFirst inSecond
  have whole (entry : List String) (inside : entry.dropLast = path)
      (last : entry.getLast? = some name) : entry = path ++ [name] := by
    rw [← inside]
    exact (List.dropLast_append_getLast? name last).symm
  rw [whole first inFirst.1 inFirst.2, whole second inSecond.1 inSecond.2]

theorem kind_parent (leads : tree.kind (path ++ [name]) = some found) :
    tree.kind path = some .directory := by
  rw [kind_eq_some_iff (by simp)] at leads
  have parent := (tree.enclosed _ leads).2
  rw [List.dropLast_concat] at parent
  by_cases below : path = []
  · simp [kind, below]
  · rw [kind_eq_some_iff below]
    rcases parent with top | inside
    · exact absurd top below
    · exact inside

theorem plainName_of_kind (below : path ≠ []) (leads : tree.kind path = some found) :
    ∀ name ∈ path, plainName name = true := by
  rw [kind_eq_some_iff below] at leads
  exact tree.plain _ leads

end FileTree

end LosslessMusic.Dlna
