import Mathlib.Algebra.Group.Int.Defs
import Mathlib.Algebra.GroupWithZero.Nat
import Mathlib.Data.List.Nodup
import Mathlib.Tactic.Common

/-!
# Tables

A map as the list of its entries, every key once. Next to the lookups stand the totals of a
cost over all entries.
-/

namespace LosslessMusic.Storage

universe u v

/-- The entries of a map. -/
structure Table (κ : Type u) (α : Type v) where
  entries : List (κ × α) := []
  nodup : (entries.map Prod.fst).Nodup := by exact List.nodup_nil

namespace Table

variable {κ : Type u} {α : Type v} [DecidableEq κ]

/-- The value of a key in a list of entries. -/
def lookup (key : κ) : List (κ × α) → Option α
  | [] => none
  | (one, value) :: rest => if one = key then some value else lookup key rest

/-- The value of a key is replaced, or set behind the others. -/
def replace (key : κ) (value : α) : List (κ × α) → List (κ × α)
  | [] => [(key, value)]
  | (one, old) :: rest =>
    if one = key then (one, value) :: rest else (one, old) :: replace key value rest

/-- A key is taken out. -/
def without (key : κ) : List (κ × α) → List (κ × α)
  | [] => []
  | (one, value) :: rest =>
    if one = key then rest else (one, value) :: without key rest

theorem mem_keys_replace {key other : κ} {value : α} {entries : List (κ × α)} :
    other ∈ (replace key value entries).map Prod.fst ↔
      other = key ∨ other ∈ entries.map Prod.fst := by
  induction entries with
  | nil => simp [replace]
  | cons entry rest ih =>
    obtain ⟨one, old⟩ := entry
    unfold replace
    split
    next same => simp [same]
    · simp only [List.map_cons, List.mem_cons, ih]
      tauto

theorem nodup_replace {key : κ} {value : α} {entries : List (κ × α)}
    (nodup : (entries.map Prod.fst).Nodup) : ((replace key value entries).map Prod.fst).Nodup := by
  induction entries with
  | nil => simp [replace]
  | cons entry rest ih =>
    obtain ⟨one, old⟩ := entry
    rw [List.map_cons, List.nodup_cons] at nodup
    unfold replace
    split
    · rw [List.map_cons, List.nodup_cons]
      exact nodup
    next different =>
      rw [List.map_cons, List.nodup_cons]
      refine ⟨fun member => ?_, ih nodup.2⟩
      rcases mem_keys_replace.mp member with same | there
      · exact different same
      · exact nodup.1 there

theorem without_sublist (key : κ) (entries : List (κ × α)) :
    (without key entries).Sublist entries := by
  induction entries with
  | nil => exact .slnil
  | cons entry rest ih =>
    unfold without
    split
    · exact List.sublist_cons_self _ _
    · exact ih.cons_cons _

variable {key other : κ} {value old : α} {entries : List (κ × α)}

theorem mem_of_lookup (found : lookup key entries = some value) : (key, value) ∈ entries := by
  induction entries with
  | nil => cases found
  | cons entry rest ih =>
    obtain ⟨one, first⟩ := entry
    unfold lookup at found
    split at found
    next same =>
      rw [same, Option.some.inj found]
      exact List.mem_cons_self
    · exact List.mem_cons_of_mem _ (ih found)

theorem lookup_of_mem (nodup : (entries.map Prod.fst).Nodup)
    (member : (key, value) ∈ entries) : lookup key entries = some value := by
  induction entries with
  | nil => cases member
  | cons entry rest ih =>
    obtain ⟨one, first⟩ := entry
    rw [List.map_cons, List.nodup_cons] at nodup
    unfold lookup
    rcases List.mem_cons.mp member with same | later
    · cases same
      exact if_pos rfl
    · rw [if_neg]
      · exact ih nodup.2 later
      · rintro rfl
        exact nodup.1 (List.mem_map.mpr ⟨_, later, rfl⟩)

theorem lookup_replace (key other : κ) (value : α) (entries : List (κ × α)) :
    lookup other (replace key value entries) =
      if key = other then some value else lookup other entries := by
  induction entries with
  | nil => simp [replace, lookup]
  | cons entry rest ih =>
    obtain ⟨one, first⟩ := entry
    by_cases here : one = key
    · subst here
      by_cases same : one = other <;> simp [replace, lookup, same]
    · by_cases same : one = other
      · subst same
        simp [replace, lookup, here, Ne.symm here]
      · simp only [replace, here, lookup, same, if_false]
        exact ih

theorem lookup_without (key other : κ) (nodup : (entries.map Prod.fst).Nodup) :
    lookup other (without key entries) = if key = other then none else lookup other entries := by
  induction entries with
  | nil => simp [without, lookup]
  | cons entry rest ih =>
    obtain ⟨one, first⟩ := entry
    rw [List.map_cons, List.nodup_cons] at nodup
    by_cases here : one = key
    · subst here
      simp only [without, lookup, if_true]
      split
      next same =>
        subst same
        cases found : lookup one rest with
        | none => rfl
        | some value => exact absurd (List.mem_map_of_mem (mem_of_lookup found)) nodup.1
      · rfl
    · have behind := ih nodup.2
      by_cases same : one = other
      · subst same
        simp [without, lookup, here, Ne.symm here]
      · simp only [without, here, lookup, same, if_false]
        exact behind

theorem exists_split (found : lookup key entries = some old) :
    ∃ front back, entries = front ++ (key, old) :: back ∧ without key entries = front ++ back ∧
      ∀ value, replace key value entries = front ++ (key, value) :: back := by
  induction entries with
  | nil => cases found
  | cons entry rest ih =>
    obtain ⟨one, first⟩ := entry
    unfold lookup at found
    split at found
    next same =>
      cases found
      subst same
      exact ⟨[], rest, rfl, if_pos rfl, fun value => if_pos rfl⟩
    next different =>
      obtain ⟨front, back, whole, removed, replaced⟩ := ih found
      refine ⟨(one, first) :: front, back, by rw [whole]; rfl, ?_, fun value => ?_⟩
      · rw [without, if_neg different, removed]
        rfl
      · rw [replace, if_neg different, replaced]
        rfl

theorem without_of_absent (absent : lookup key entries = none) : without key entries = entries := by
  induction entries with
  | nil => rfl
  | cons entry rest ih =>
    obtain ⟨one, first⟩ := entry
    unfold lookup at absent
    split at absent
    · cases absent
    next different => rw [without, if_neg different, ih absent]

theorem replace_of_absent (absent : lookup key entries = none) (value : α) :
    replace key value entries = entries ++ [(key, value)] := by
  induction entries with
  | nil => rfl
  | cons entry rest ih =>
    obtain ⟨one, first⟩ := entry
    unfold lookup at absent
    split at absent
    · cases absent
    next different =>
      rw [replace, if_neg different, ih absent]
      rfl

variable (table : Table κ α)

/-- `get`. -/
def get? (key : κ) : Option α :=
  lookup key table.entries

/-- `insert`. -/
def put (key : κ) (value : α) : Table κ α :=
  ⟨replace key value table.entries, nodup_replace table.nodup⟩

/-- `remove`. -/
def erase (key : κ) : Table κ α :=
  ⟨without key table.entries, ((without_sublist key table.entries).map Prod.fst).nodup table.nodup⟩

def retain (keeps : κ → α → Bool) : Table κ α :=
  ⟨table.entries.filter fun entry => keeps entry.1 entry.2,
    (List.filter_sublist.map Prod.fst).nodup table.nodup⟩

/-- `len`. -/
def size : Nat :=
  table.entries.length

/-- The costs of all entries together. -/
def total (cost : κ → α → Nat) : Nat :=
  (table.entries.map fun entry => cost entry.1 entry.2).sum

variable {table : Table κ α}

theorem get?_eq_some_iff : table.get? key = some value ↔ (key, value) ∈ table.entries :=
  ⟨mem_of_lookup, lookup_of_mem table.nodup⟩

@[simp] theorem get?_new : ({} : Table κ α).get? key = none :=
  rfl

theorem get?_put : (table.put key value).get? other =
    if key = other then some value else table.get? other :=
  lookup_replace key other value table.entries

theorem get?_erase : (table.erase key).get? other =
    if key = other then none else table.get? other :=
  lookup_without key other table.nodup

theorem erase_of_none (absent : table.get? key = none) : table.erase key = table := by
  obtain ⟨entries, nodup⟩ := table
  unfold erase
  congr 1
  exact without_of_absent absent

/-! ## Totals -/

section

variable (cost : κ → α → Nat)

omit [DecidableEq κ] in

@[simp] theorem total_new : ({} : Table κ α).total cost = 0 :=
  rfl

theorem total_congr {cost other : κ → α → Nat}
    (same : ∀ key value, table.get? key = some value → cost key value = other key value) :
    table.total cost = table.total other :=
  congrArg List.sum (List.map_congr_left fun _ member => same _ _ (get?_eq_some_iff.mpr member))

theorem total_put_of_none (value : α) (absent : table.get? key = none) :
    (table.put key value).total cost = table.total cost + cost key value := by
  unfold total put
  dsimp only
  rw [replace_of_absent absent, List.map_append, List.sum_append, List.map_singleton,
    List.sum_singleton]

theorem total_put_of_some (value : α) (found : table.get? key = some old) :
    (table.put key value).total cost + cost key old = table.total cost + cost key value := by
  obtain ⟨front, back, whole, -, replaced⟩ := exists_split found
  unfold total put
  dsimp only
  rw [replaced, whole]
  simp only [List.map_append, List.map_cons, List.sum_append, List.sum_cons]
  omega

theorem total_erase_of_some (found : table.get? key = some old) :
    (table.erase key).total cost + cost key old = table.total cost := by
  obtain ⟨front, back, whole, removed, -⟩ := exists_split found
  unfold total erase
  dsimp only
  rw [removed, whole]
  simp only [List.map_append, List.map_cons, List.sum_append, List.sum_cons]
  omega

theorem le_total_of_some (found : table.get? key = some old) : cost key old ≤ table.total cost := by
  rw [← total_erase_of_some cost found]
  exact Nat.le_add_left _ _

theorem size_put_of_none (value : α) (absent : table.get? key = none) :
    (table.put key value).size = table.size + 1 := by
  unfold size put
  dsimp only
  rw [replace_of_absent absent, List.length_append, List.length_singleton]

theorem size_put_of_some (value : α) (found : table.get? key = some old) :
    (table.put key value).size = table.size := by
  obtain ⟨front, back, whole, -, replaced⟩ := exists_split found
  unfold size put
  dsimp only
  rw [replaced, whole]
  simp only [List.length_append, List.length_cons]

theorem size_erase_of_some (found : table.get? key = some old) :
    (table.erase key).size + 1 = table.size := by
  obtain ⟨front, back, whole, removed, -⟩ := exists_split found
  unfold size erase
  dsimp only
  rw [removed, whole]
  simp only [List.length_append, List.length_cons]
  omega

end

end Table
end LosslessMusic.Storage
