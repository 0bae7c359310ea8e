import LosslessMusic.Isrc.IndexCalls

/-!
# The accounts of the index cache

What the cache counts is what its entries take, it stays within its bounds, and nothing
panics. An index counts what it holds and what stale hits have taken out of it.
-/

namespace LosslessMusic.Isrc

open Storage (Table)
open Transition (Machine)

theorem checkedSub_of_le {a b : Nat} (le : b ≤ a) : checkedSub a b = some (a - b) :=
  if_pos le

/-- A loop whose turns give something and keep a property ends with it. -/
theorem foldlM_some {α β : Type} (turn : β → α → Option β) {holds : β → Prop}
    (turns : ∀ state item, holds state → ∃ next, turn state item = some next ∧ holds next)
    (items : List α) {state : β} (initially : holds state) :
    ∃ final, items.foldlM turn state = some final ∧ holds final := by
  induction items generalizing state with
  | nil => exact ⟨state, rfl, initially⟩
  | cons item rest ih =>
    obtain ⟨next, turned, kept⟩ := turns state item initially
    obtain ⟨final, ended, held⟩ := ih kept
    refine ⟨final, ?_, held⟩
    rw [List.foldlM_cons, turned]
    exact ended

/-! ## One index -/

namespace Index

variable {sizes : Sizes} {index : Index} {removed : List (Nat × Owned)}

/-- What an entry takes: its node, its key and its path. -/
def pairCost (sizes : Sizes) (entry : Nat × Owned) : Nat :=
  sizes.pair + 64 + entry.1 + entry.2.capacity

/-- What a file takes: its node, its key and its entry. -/
def slotCost (sizes : Sizes) (slot : Nat × FileEntry) : Nat :=
  sizes.slot + 64 + slot.1 + cost sizes slot.2

/-- The fixed base and the costs of everything that is in the index. -/
def holding (sizes : Sizes) (index : Index) : Nat :=
  sizes.index + 2048 + index.entries.total (fun _ => pairCost sizes) +
    index.files.total fun _ => slotCost sizes

/-- What is counted is what is there, and what was taken out of it. -/
def Accounts (sizes : Sizes) (removed : List (Nat × Owned)) (index : Index) : Prop :=
  index.bytes = holding sizes index + (removed.map (pairCost sizes)).sum

theorem accounts_insertMatch (accounts : index.Accounts sizes removed) (isrc path : Owned) :
    ∃ next, index.insertMatch sizes isrc path = some next ∧ next.Accounts sizes removed := by
  unfold Accounts holding at accounts
  unfold insertMatch
  cases found : index.entries.get? isrc.text with
  | none =>
    refine ⟨_, rfl, ?_⟩
    unfold Accounts holding
    dsimp only
    have more := Table.total_put_of_none (fun _ => pairCost sizes) (isrc.capacity, path) found
    have cost : pairCost sizes (isrc.capacity, path) =
      sizes.pair + 64 + isrc.capacity + path.capacity := rfl
    omega
  | some entry =>
    obtain ⟨capacity, old⟩ := entry
    have part := Table.le_total_of_some (fun _ => pairCost sizes) found
    have whole := Table.total_put_of_some (fun _ => pairCost sizes) (capacity, path) found
    have oldCost : pairCost sizes (capacity, old) = sizes.pair + 64 + capacity + old.capacity := rfl
    have newCost : pairCost sizes (capacity, path) =
      sizes.pair + 64 + capacity + path.capacity := rfl
    dsimp only
    rw [checkedSub_of_le (by omega)]
    refine ⟨_, rfl, ?_⟩
    unfold Accounts holding
    dsimp only
    omega

theorem accounts_insertFile (accounts : index.Accounts sizes removed) (path : Owned)
    (file : FileEntry) :
    ∃ next, index.insertFile sizes path file = some next ∧ next.Accounts sizes removed := by
  unfold Accounts holding at accounts
  unfold insertFile
  cases found : index.files.get? path.text with
  | none =>
    refine ⟨_, rfl, ?_⟩
    unfold Accounts holding
    dsimp only
    have more := Table.total_put_of_none (fun _ => slotCost sizes) (path.capacity, file) found
    have cost : slotCost sizes (path.capacity, file) =
      sizes.slot + 64 + path.capacity + cost sizes file := rfl
    omega
  | some slot =>
    obtain ⟨capacity, old⟩ := slot
    have part := Table.le_total_of_some (fun _ => slotCost sizes) found
    have whole := Table.total_put_of_some (fun _ => slotCost sizes) (capacity, file) found
    have oldCost : slotCost sizes (capacity, old) =
      sizes.slot + 64 + capacity + cost sizes old := rfl
    have newCost : slotCost sizes (capacity, file) =
      sizes.slot + 64 + capacity + cost sizes file := rfl
    dsimp only
    rw [checkedSub_of_le (by omega)]
    refine ⟨_, rfl, ?_⟩
    unfold Accounts holding
    dsimp only
    omega

theorem accounts_reuse (accounts : index.Accounts sizes removed)
    (previous : Table String (Nat × FileEntry)) (one : Listed) :
    ∃ next, reuse sizes previous index one = some next ∧ next.Accounts sizes removed := by
  unfold reuse
  split
  · exact ⟨index, rfl, accounts⟩
  next entry _ =>
    split
    · exact accounts_insertFile accounts _ entry
    · obtain ⟨matched, inserted, kept⟩ :=
        accounts_insertMatch accounts (.copy entry.isrc.text) (.copy one.stamp.path)
      rw [inserted]
      exact accounts_insertFile kept _ entry

theorem accounts_enter (accounts : index.Accounts sizes removed) (read : String → Owned)
    (one : Listed) :
    ∃ next, enter sizes read index one = some next ∧ next.Accounts sizes removed := by
  unfold enter
  dsimp only
  split
  · exact accounts_insertFile accounts _ _
  · obtain ⟨matched, inserted, kept⟩ :=
      accounts_insertMatch accounts (.copy (read one.stamp.path).text) (.copy one.stamp.path)
    rw [inserted]
    exact accounts_insertFile kept _ _

theorem accounts_build (sizes : Sizes) (previous : Table String (Nat × FileEntry)) (listed : List Listed)
    (read : String → Owned) (builtAt : Nat) :
    ∃ next, build sizes previous listed read builtAt = some next ∧ next.Accounts sizes [] := by
  have new : Accounts sizes [] { bytes := sizes.index + 2048, builtAt } := by
    simp [Accounts, holding]
  obtain ⟨unchanged, reused, kept⟩ := foldlM_some (reuse sizes previous)
    (fun _ one accounts => accounts_reuse accounts previous one) (considered listed) new
  unfold build
  rw [reused]
  exact foldlM_some _ (fun _ one accounts => accounts_enter accounts read one) _ kept

theorem accounts_erase (accounts : index.Accounts sizes removed) (key : String) :
    Accounts sizes (removed ++ (index.entries.get? key).toList)
      { index with entries := index.entries.erase key } := by
  unfold Accounts holding at *
  dsimp only
  cases found : index.entries.get? key with
  | none =>
    have same : index.entries.erase key = index.entries := Table.erase_of_none found
    rw [same, Option.toList_none, List.append_nil]
    exact accounts
  | some entry =>
    have whole := Table.total_erase_of_some (fun _ => pairCost sizes) found
    rw [Option.toList_some, List.map_append, List.sum_append, List.map_singleton,
      List.sum_singleton]
    omega

end Index

/-! ## The state -/

namespace State

variable {sizes : Sizes} {state next : State}

/-- What the entries take is counted, and within the bounds. -/
structure Balanced (state : State) : Prop where
  sum : state.bytes = state.indexes.total fun _ entry => entry.bytes
  bounded : state.bytes ≤ maxIndexBytes
  few : state.indexes.size ≤ maxDirectories

theorem balanced_new : Balanced {} where
  sum := rfl
  bounded := Nat.zero_le _
  few := Nat.zero_le _

theorem Balanced.congr (balanced : state.Balanced) (indexes : next.indexes = state.indexes)
    (bytes : next.bytes = state.bytes) : next.Balanced where
  sum := by rw [indexes, bytes, balanced.sum]
  bounded := by rw [bytes]; exact balanced.bounded
  few := by rw [indexes]; exact balanced.few

theorem remove_spec (balanced : state.Balanced) (directory : String) :
    ∃ next, state.remove directory = some next ∧ next.Balanced ∧
      next.indexes = state.indexes.erase directory := by
  unfold remove
  cases found : state.indexes.get? directory with
  | none => exact ⟨state, rfl, balanced, (Table.erase_of_none found).symm⟩
  | some entry =>
    have part := Table.le_total_of_some (fun _ (entry : Cached) => entry.bytes) found
    have whole := Table.total_erase_of_some (fun _ (entry : Cached) => entry.bytes) found
    have fewer := Table.size_erase_of_some found
    have sum := balanced.sum
    have bounded := balanced.bounded
    have few := balanced.few
    dsimp only
    rw [checkedSub_of_le (by omega)]
    refine ⟨_, rfl, ⟨?_, ?_, ?_⟩, rfl⟩
    · dsimp only
      omega
    · dsimp only
      omega
    · dsimp only
      omega

theorem exists_oldest? (more : 0 < state.indexes.size) :
    ∃ directory entry, state.oldest? = some directory ∧
      state.indexes.get? directory = some entry := by
  cases found : state.indexes.entries.argmin fun entry => entry.2.used with
  | none =>
    unfold Table.size at more
    rw [List.argmin_eq_none.mp found] at more
    exact absurd more (Nat.lt_irrefl 0)
  | some pair =>
    refine ⟨pair.1, pair.2, ?_, Table.get?_eq_some_iff.mpr (List.argmin_mem found)⟩
    unfold oldest?
    rw [found]
    rfl

theorem size_pos_of_isFull (balanced : state.Balanced) {bytes : Nat}
    (fits : bytes ≤ maxIndexBytes) (full : state.isFull bytes = true) : 0 < state.indexes.size := by
  rcases Nat.eq_zero_or_pos state.indexes.size with zero | more
  · have empty : state.indexes.entries = [] := List.length_eq_zero_iff.mp zero
    have sum : state.bytes = 0 := by
      rw [balanced.sum]
      unfold Table.total
      rw [empty]
      rfl
    simp only [isFull, Bool.or_eq_true, decide_eq_true_eq, zero, sum, maxDirectories] at full
    omega
  · exact more

theorem makeRoom_spec {bytes : Nat} (fits : bytes ≤ maxIndexBytes) (turns : Nat)
    (balanced : state.Balanced) (enough : state.indexes.size ≤ turns) :
    ∃ next, makeRoom bytes turns state = some next ∧ next.Balanced ∧
      next.isFull bytes = false ∧
      ∀ directory entry, next.indexes.get? directory = some entry →
        state.indexes.get? directory = some entry := by
  induction turns generalizing state with
  | zero =>
    unfold makeRoom
    cases full : state.isFull bytes with
    | true =>
      have more := size_pos_of_isFull balanced fits full
      omega
    | false => exact ⟨state, if_neg Bool.false_ne_true, balanced, full, fun _ _ found => found⟩
  | succ turns ih =>
    unfold makeRoom
    cases full : state.isFull bytes with
    | true =>
      obtain ⟨directory, entry, oldest, found⟩ :=
        exists_oldest? (size_pos_of_isFull balanced fits full)
      obtain ⟨removed, gone, kept, indexes⟩ := remove_spec balanced directory
      have fewer := Table.size_erase_of_some found
      rw [← indexes] at fewer
      obtain ⟨next, made, after, room, before⟩ := ih kept (by omega)
      refine ⟨next, ?_, after, room, fun other entry found => ?_⟩
      · rw [if_pos rfl, oldest, Option.bind_some, gone, Option.bind_some, made]
      · have there := before other entry found
        rw [indexes, Table.get?_erase] at there
        split at there
        · cases there
        · exact there
    | false => exact ⟨state, if_neg Bool.false_ne_true, balanced, full, fun _ _ found => found⟩

theorem store_spec (sizes : Sizes) (balanced : state.Balanced) (directory : String) (index bytes : Nat) :
    ∃ next, state.store sizes directory index bytes = some next ∧ next.Balanced ∧
      ∀ other entry, next.indexes.get? other = some entry →
        if other = directory then entry.index = index
        else state.indexes.get? other = some entry := by
  obtain ⟨removed, gone, kept, indexes⟩ := remove_spec balanced directory
  have before : ∀ other entry, removed.indexes.get? other = some entry →
      other ≠ directory ∧ state.indexes.get? other = some entry := by
    intro other entry found
    rw [indexes, Table.get?_erase] at found
    split at found
    · cases found
    next different => exact ⟨Ne.symm different, found⟩
  unfold store
  rw [gone, Option.bind_some]
  dsimp only
  split
  · refine ⟨removed, rfl, kept, fun other entry found => ?_⟩
    obtain ⟨different, there⟩ := before other entry found
    rw [if_neg different]
    exact there
  next fits =>
    obtain ⟨roomy, made, held, room, from_⟩ :=
      makeRoom_spec (Nat.le_of_not_lt fits) removed.indexes.size kept (Nat.le_refl _)
    have absent : roomy.indexes.get? directory = none := by
      cases found : roomy.indexes.get? directory with
      | none => rfl
      | some entry => exact absurd rfl (before _ _ (from_ _ _ found)).1
    rw [made]
    simp only [isFull, Bool.or_eq_false_iff, decide_eq_false_iff_not, not_le, not_lt] at room
    have more := Table.total_put_of_none (fun _ (entry : Cached) => entry.bytes)
      ⟨index, allowance sizes directory bytes, roomy.sequence + 1⟩ absent
    have longer := Table.size_put_of_none
      (⟨index, allowance sizes directory bytes, roomy.sequence + 1⟩ : Cached) absent
    have sum := held.sum
    refine ⟨_, rfl, ⟨?_, ?_, ?_⟩, fun other entry found => ?_⟩
    · dsimp only at more ⊢
      omega
    · dsimp only
      omega
    · dsimp only
      omega
    · dsimp only at found
      rw [Table.get?_put] at found
      split at found
      next same =>
        cases found
        rw [if_pos same.symm]
      next different =>
        rw [if_neg (Ne.symm different)]
        exact (before _ _ (from_ _ _ found)).2

theorem cached_spec (balanced : state.Balanced) (directory : String) :
    (state.cached directory).2.Balanced := by
  unfold cached
  dsimp only
  cases found : state.indexes.get? directory with
  | none => exact balanced.congr rfl rfl
  | some entry =>
    have same := Table.total_put_of_some (fun _ (entry : Cached) => entry.bytes)
      { entry with used := state.sequence + 1 } found
    have size := Table.size_put_of_some { entry with used := state.sequence + 1 } found
    have sum := balanced.sum
    dsimp only at same ⊢
    refine ⟨?_, balanced.bounded, ?_⟩
    · dsimp only
      omega
    · dsimp only
      rw [size]
      exact balanced.few

end State
end LosslessMusic.Isrc
