import LosslessMusic.Isrc.Accounting

/-!
# Accounts over a whole run

No call makes the cache lose track of its bytes, whatever the calls are and however they
interleave. An index loses track of its own exactly when a check takes a stale entry out.
-/

namespace LosslessMusic.Isrc

open Storage (Table)
open Transition (Machine)

variable {removed : List (Nat × Owned)}

theorem Index.bytes_eq_holding_iff {sizes : Sizes} {index : Index}
    (accounts : index.Accounts sizes removed) :
    index.bytes = index.holding sizes ↔ removed = [] := by
  unfold Accounts at accounts
  constructor
  · intro exact_
    cases removed with
    | nil => rfl
    | cons entry rest =>
      rw [List.map_cons, List.sum_cons] at accounts
      unfold pairCost at accounts
      omega
  · rintro rfl
    exact accounts

namespace IndexCache

variable {setting : Setting} {s next : IndexCache} {position : Nat} {call : Call}

/-- The bytes are in balance, and nothing has panicked. -/
structure Sound (setting : Setting) (s : IndexCache) : Prop where
  balanced : s.state.Balanced
  accounts : ∀ shared ∈ s.indexes, shared.index.Accounts setting.sizes shared.removed
  quiet : s.panicked = false

/-- Nothing was taken out of an index by a stale hit. -/
def Untouched (s : IndexCache) : Prop :=
  ∀ shared ∈ s.indexes, shared.removed = []

/-- A check goes on that has found a path which is gone, and the entry is still there. -/
def isStaleHit (setting : Setting) (s : IndexCache) : CacheEvent → Bool
  | .advance position _ =>
    match s.calls[position]? with
    | some ⟨.check _ isrc, .missing index⟩ =>
      (s.indexes[index]?).any fun shared =>
        (shared.index.entries.get? (uppercase setting.toUppercase isrc)).isSome
    | _ => false
  | _ => false

/-- A step that keeps the balance and takes nothing out of an index. -/
def Kept (setting : Setting) (s next : IndexCache) : Prop :=
  next.Sound setting ∧ (next.Untouched ↔ s.Untouched)

theorem Kept.step {event : CacheEvent} (kept : Kept setting s next)
    (other : s.isStaleHit setting event = false) :
    next.Sound setting ∧ (next.Untouched ↔
      s.Untouched ∧ s.isStaleHit setting event = false) := by
  rw [and_iff_left other]
  exact kept

/-- A step that leaves the indexes as they are keeps what they count. -/
theorem Sound.kept (sound : s.Sound setting) (balanced : next.state.Balanced)
    (indexes : next.indexes = s.indexes) (quiet : next.panicked = false) : Kept setting s next := by
  refine ⟨⟨balanced, ?_, quiet⟩, ?_⟩
  · rw [indexes]
    exact sound.accounts
  · unfold Untouched
    rw [indexes]

theorem Sound.kept_goTo (sound : s.Sound setting) (position : Nat) (call : Call)
    (phase : Phase) : Kept setting s (s.goTo position call phase) :=
  sound.kept sound.balanced rfl sound.quiet

theorem Sound.kept_look (sound : s.Sound setting) (position : Nat) (call : Call)
    (hit : Nat → Phase) (miss : Phase) : Kept setting s (s.look position call hit miss) :=
  sound.kept (State.cached_spec sound.balanced _) rfl sound.quiet

theorem Sound.kept_seek (sound : s.Sound setting) (position : Nat) (call : Call) :
    Kept setting s (s.seek position call) := by
  unfold seek
  dsimp only
  split
  · exact sound.kept (sound.balanced.congr rfl rfl) rfl sound.quiet
  · exact sound.kept (sound.balanced.congr rfl rfl) rfl sound.quiet

theorem Sound.kept_store (sound : s.Sound setting) (position : Nat) (call : Call)
    (phase : Phase) (directory : String) (index bytes : Nat) (stores : Bool) :
    Kept setting s (s.commit position call phase
      (if stores then s.state.store setting.sizes directory index bytes else some s.state)) := by
  cases stores with
  | false => exact sound.kept_goTo position call phase
  | true =>
    obtain ⟨state, stored, balanced, -⟩ :=
      State.store_spec setting.sizes sound.balanced directory index bytes
    rw [if_pos rfl, stored]
    exact sound.kept balanced rfl sound.quiet

theorem Sound.kept_publish (sound : s.Sound setting) (position : Nat) (call : Call)
    (builder generation : Nat) (previous : Table String (Nat × FileEntry)) (builtAt : Nat)
    (listed : List Index.Listed) (readings : Table String Owned) :
    Kept setting s
      (s.publish setting position call builder generation previous builtAt listed readings) := by
  obtain ⟨index, built, accounts⟩ := Index.accounts_build setting.sizes previous listed
    (fun path => (readings.get? path).getD ⟨"", 0⟩) builtAt
  unfold publish
  dsimp only
  rw [built]
  dsimp only
  have longer : ({ s with indexes := s.indexes ++
      [({ directory := call.request.directory, index } : Shared)] } : IndexCache).Sound
        setting := by
    refine ⟨sound.balanced, fun shared member => ?_, sound.quiet⟩
    rcases List.mem_append.mp member with before | last
    · exact sound.accounts shared before
    · rw [List.mem_singleton.mp last]
      exact accounts
  obtain ⟨after, same⟩ := longer.kept_store position call
    (.leaving builder true (some s.indexes.length)) call.request.directory s.indexes.length
    index.bytes ((s.builders[builder]?).any (·.generation = generation))
  refine ⟨after, same.trans ?_⟩
  unfold Untouched
  dsimp only
  constructor
  · exact fun untouched shared member => untouched shared (List.mem_append_left _ member)
  · intro untouched shared member
    rcases List.mem_append.mp member with before | last
    · exact untouched shared before
    · rw [List.mem_singleton.mp last]

/-- What becomes of the other indexes when one is replaced. -/
theorem Sound.set (sound : s.Sound setting) {place : Nat} {old : Shared}
    (new : Shared) (found : s.indexes[place]? = some old)
    (accounts : new.index.Accounts setting.sizes new.removed) :
    Sound setting { s with indexes := s.indexes.set place new } ∧
      (Untouched { s with indexes := s.indexes.set place new } → new.removed = []) ∧
      (new.removed = old.removed →
        (Untouched { s with indexes := s.indexes.set place new } ↔ s.Untouched)) := by
  have within : place < s.indexes.length := (List.getElem?_eq_some_iff.mp found).1
  refine ⟨⟨sound.balanced, fun shared member => ?_, sound.quiet⟩, fun untouched => ?_,
    fun same => ⟨fun untouched shared member => ?_, fun untouched shared member => ?_⟩⟩
  · rcases List.mem_or_eq_of_mem_set member with before | rfl
    · exact sound.accounts shared before
    · exact accounts
  · exact untouched new (List.mem_set within new)
  · obtain ⟨other, there⟩ := List.mem_iff_getElem?.mp member
    rcases eq_or_ne place other with rfl | different
    · rw [found] at there
      cases there
      rw [← same]
      exact untouched new (List.mem_set within new)
    · refine untouched shared (List.mem_iff_getElem?.mpr ⟨other, ?_⟩)
      dsimp only
      rw [List.getElem?_set_ne different, there]
  · rcases List.mem_or_eq_of_mem_set member with before | rfl
    · exact untouched shared before
    · rw [same]
      exact untouched old (List.mem_of_getElem? found)

theorem accounts_insertion {index : Index}
    (accounts : index.Accounts setting.sizes removed) (isrc : Owned) (path : String)
    (stamp : Option Index.Listed) :
    ∃ after, s.insertion setting index isrc path stamp = some after ∧
      after.Accounts setting.sizes removed := by
  obtain ⟨matched, inserted, kept⟩ := Index.accounts_insertMatch accounts (.copy isrc.text)
    (.copy path)
  unfold insertion
  rw [inserted, Option.bind_some]
  cases stamp with
  | none => exact ⟨_, rfl, kept⟩
  | some stamp =>
    obtain ⟨after, entered, held⟩ := Index.accounts_insertFile kept (.copy path)
      ⟨stamp.stamp, stamp.capacity, isrc⟩
    dsimp only
    rw [entered]
    exact ⟨_, rfl, held⟩

variable {directory isrc : String} {capacity : String → Nat}

theorem Sound.kept_advanceAdd (sound : s.Sound setting) {path : String}
    (stepped : s.advanceAdd setting position call directory isrc path capacity = some next) :
    Kept setting s next := by
  unfold advanceAdd at stepped
  split at stepped
  · rw [← Option.some.inj stepped]
    split
    · exact sound.kept_goTo position call _
    · exact sound.kept_look position call _ _
  · rw [← Option.some.inj stepped]
    exact sound.kept_goTo position call _
  next place stamp _ =>
    rw [Option.map_eq_some_iff] at stepped
    obtain ⟨shared, found, result⟩ := stepped
    obtain ⟨after, entered, accounts⟩ := accounts_insertion (s := s)
      (sound.accounts shared (List.mem_of_getElem? found))
      (allocated (uppercase setting.toUppercase isrc)
        (capacity (uppercase setting.toUppercase isrc))) path stamp
    dsimp only at result
    rw [entered] at result
    rw [← result]
    obtain ⟨held, -, same⟩ := sound.set { shared with index := after } found accounts
    exact ⟨⟨held.balanced, held.accounts, held.quiet⟩, same rfl⟩
  next place bytes _ =>
    rw [← Option.some.inj stepped]
    exact sound.kept_store position call _ directory place bytes _
  · cases stepped

theorem Sound.kept_advanceCheck (sound : s.Sound setting)
    (present : ∀ place, call.phase ≠ .missing place)
    (stepped : s.advanceCheck setting position call directory isrc = some next) :
    Kept setting s next := by
  unfold advanceCheck at stepped
  split at stepped
  case h_1 =>
    rw [← Option.some.inj stepped]
    split
    · exact sound.kept_goTo position call _
    · exact sound.kept_look position call _ _
  case h_2 | h_6 | h_7 | h_9 | h_14 =>
    rw [Option.map_eq_some_iff] at stepped
    obtain ⟨-, -, rfl⟩ := stepped
    exact sound.kept_goTo position call _
  case h_3 =>
    rw [← Option.some.inj stepped]
    exact sound.kept_seek position call
  case h_4 =>
    rw [Option.map_eq_some_iff] at stepped
    obtain ⟨one, -, rfl⟩ := stepped
    split
    · exact sound.kept sound.balanced rfl sound.quiet
    · exact sound.kept sound.balanced rfl sound.quiet
  case h_5 | h_8 =>
    rw [← Option.some.inj stepped]
    exact sound.kept_look position call _ _
  case h_10 | h_13 | h_15 =>
    rw [← Option.some.inj stepped]
    exact sound.kept_goTo position call _
  case h_11 builder generation previous builtAt listed readings _ =>
    split at stepped
    · rw [← Option.some.inj stepped]
      exact sound.kept_publish position call builder generation previous builtAt listed readings
    · cases stepped
  case h_12 =>
    rw [← Option.some.inj stepped]
    exact sound.kept sound.balanced rfl sound.quiet
  case h_16 place phase => exact absurd phase (present place)
  case h_17 => cases stepped

/-- A stale hit takes its entry out, if it is still there. -/
theorem Sound.missing (sound : s.Sound setting) {place : Nat} (phase : call.phase = .missing place)
    (stepped : s.advanceCheck setting position call directory isrc = some next) :
    next.Sound setting ∧ (next.Untouched ↔ s.Untouched ∧
      (s.indexes[place]?).any (fun shared =>
        (shared.index.entries.get? (uppercase setting.toUppercase isrc)).isSome) = false) := by
  unfold advanceCheck at stepped
  rw [phase] at stepped
  dsimp only at stepped
  rw [Option.map_eq_some_iff] at stepped
  obtain ⟨shared, found, rfl⟩ := stepped
  have accounts := sound.accounts shared (List.mem_of_getElem? found)
  obtain ⟨held, touched, same⟩ := sound.set
    { shared with
      index := { shared.index with
        entries := shared.index.entries.erase (uppercase setting.toUppercase isrc) }
      removed := shared.removed ++
        (shared.index.entries.get? (uppercase setting.toUppercase isrc)).toList }
    found (Index.accounts_erase accounts _)
  refine ⟨⟨held.balanced, held.accounts, held.quiet⟩, ?_⟩
  rw [found, Option.any_some]
  cases there : shared.index.entries.get? (uppercase setting.toUppercase isrc) with
  | none =>
    rw [there] at same
    rw [Option.isSome_none, and_iff_left rfl]
    exact same (List.append_nil _)
  | some entry =>
    rw [there] at touched
    constructor
    · exact fun untouched => absurd (touched untouched) (List.append_ne_nil_of_right_ne_nil _
        (List.cons_ne_nil entry []))
    · exact fun both => absurd both.2.symm Bool.false_ne_true

theorem Sound.kept_list (sound : s.Sound setting) {listed : List Index.Listed}
    (stepped : s.list setting position call listed = some next) : Kept setting s next := by
  unfold list at stepped
  split at stepped
  · split at stepped
    · rw [← Option.some.inj stepped]
      exact sound.kept_goTo position call _
    · cases stepped
  · cases stepped

theorem Sound.kept_readFile (sound : s.Sound setting) {path : String} {capacity : Nat}
    (stepped : s.readFile setting position call path capacity = some next) :
    Kept setting s next := by
  unfold readFile at stepped
  split at stepped
  · split at stepped
    · rw [← Option.some.inj stepped]
      exact sound.kept_goTo position call _
    · cases stepped
  · cases stepped

theorem Sound.kept_fail (sound : s.Sound setting) (stepped : s.fail position call = some next) :
    Kept setting s next := by
  have moved : ∃ phase, next = s.goTo position call phase := by
    unfold fail at stepped
    split at stepped <;> first | exact ⟨_, (Option.some.inj stepped).symm⟩ | cases stepped
  obtain ⟨phase, rfl⟩ := moved
  exact sound.kept_goTo position call phase

theorem Sound.kept_invalidate (sound : s.Sound setting) (directory : String) :
    Kept setting s (s.invalidate directory) := by
  obtain ⟨state, gone, balanced, -⟩ := State.remove_spec sound.balanced directory
  unfold invalidate
  rw [gone]
  exact sound.kept (balanced.congr rfl rfl) rfl sound.quiet

theorem Sound.kept_clear (sound : s.Sound setting) : Kept setting s s.clear :=
  sound.kept ⟨rfl, Nat.zero_le _, Nat.zero_le _⟩ rfl sound.quiet

theorem Sound.advance (sound : s.Sound setting) (found : s.calls[position]? = some call)
    (stepped : s.advance setting position call capacity = some next) :
    next.Sound setting ∧ (next.Untouched ↔
      s.Untouched ∧ s.isStaleHit setting (.advance position capacity) = false) := by
  obtain ⟨request, phase⟩ := call
  unfold IndexCache.advance at stepped
  unfold isStaleHit
  dsimp only
  rw [found]
  cases request with
  | add directory isrc path =>
    rw [and_iff_left rfl]
    exact sound.kept_advanceAdd stepped
  | check directory isrc =>
    dsimp only at stepped
    split
    next hit =>
      cases hit
      exact sound.missing rfl stepped
    next other =>
      rw [and_iff_left rfl]
      refine sound.kept_advanceCheck (fun place same => ?_) stepped
      dsimp only at same
      subst same
      exact other directory isrc place rfl

/-- A step keeps the balance, and takes nothing out of an index unless it is a stale hit. -/
theorem Sound.step (sound : s.Sound setting) {event : CacheEvent}
    (stepped : s.step setting event = some next) :
    next.Sound setting ∧ (next.Untouched ↔
      s.Untouched ∧ s.isStaleHit setting event = false) := by
  cases event with
  | advance position capacity =>
    obtain ⟨call, found, advanced⟩ := Option.bind_eq_some_iff.mp stepped
    exact sound.advance found advanced
  | check _ _ | add _ _ _ | delete _ | tick _ =>
    cases stepped
    exact Kept.step (sound.kept sound.balanced rfl sound.quiet) rfl
  | invalidate directory =>
    cases stepped
    exact (sound.kept_invalidate directory).step rfl
  | clear =>
    cases stepped
    exact (sound.kept_clear).step rfl
  | list position listed =>
    obtain ⟨call, -, listed⟩ := Option.bind_eq_some_iff.mp stepped
    exact (sound.kept_list listed).step rfl
  | read position path capacity =>
    obtain ⟨call, -, read⟩ := Option.bind_eq_some_iff.mp stepped
    exact (sound.kept_readFile read).step rfl
  | fail position =>
    obtain ⟨call, -, failed⟩ := Option.bind_eq_some_iff.mp stepped
    exact (sound.kept_fail failed).step rfl
  | create file =>
    unfold IndexCache.step at stepped
    dsimp only at stepped
    split at stepped
    · cases stepped
    · cases stepped
      exact Kept.step (sound.kept sound.balanced rfl sound.quiet) rfl

theorem sound_new (files : List File) (now : Nat) : Sound setting { files, now } where
  balanced := State.balanced_new
  accounts := nofun
  quiet := rfl

/-- The counts of the cache: what its entries take, within its bounds, and never so that a
removal would panic. -/
structure KeepsBounds (s : IndexCache) : Prop where
  sum : s.state.bytes = s.state.indexes.total fun _ entry => entry.bytes
  bounded : s.state.bytes ≤ maxIndexBytes
  few : s.state.indexes.size ≤ maxDirectories
  removes : ∀ directory, (s.state.remove directory).isSome = true
  quiet : s.panicked = false

/-- The count of every index is the fixed base and the costs of what is in it. -/
def KeepsCount (setting : Setting) (s : IndexCache) : Prop :=
  ∀ shared ∈ s.indexes, shared.index.bytes = shared.index.holding setting.sizes

theorem Sound.keepsBounds (sound : s.Sound setting) : s.KeepsBounds where
  sum := sound.balanced.sum
  bounded := sound.balanced.bounded
  few := sound.balanced.few
  removes directory := by
    obtain ⟨state, removed, -⟩ := State.remove_spec sound.balanced directory
    rw [removed]
    rfl
  quiet := sound.quiet

theorem Sound.keepsCount_iff_untouched (sound : s.Sound setting) :
    s.KeepsCount setting ↔ s.Untouched := by
  refine forall₂_congr fun shared member => ?_
  exact Index.bytes_eq_holding_iff (sound.accounts shared member)

/-- A setting of a machine with 64 bits; the case mapping is that of ASCII. -/
def ascii : Setting where
  toUppercase char := [char.toUpper]
  within directory path := directory.toList.isPrefixOf path.toList
  ttl := 300
  sizes := { index := 56, pair := 48, slot := 32, fileEntry := 96, cached := 24 }

/-- A file with a code. -/
def song : File where
  stamp := { path := "/music/a.flac", size := 9, modifiedNs := 1, directory := false }
  tag := "USRC1"
  named := by decide
  empty := by decide

/-- A call goes on so many times. -/
def advances (position : Nat) : Nat → List CacheEvent
  | 0 => []
  | turns + 1 => .advance position (fun _ => 0) :: advances position turns

/-- A check builds the index of a directory with a song. -/
def firstCheck : List CacheEvent :=
  .check "/music" "usrc1" :: advances 0 7 ++
    [.list 0 [⟨song.stamp, 13⟩], .read 0 song.stamp.path 5] ++ advances 0 5

/-- The song goes, and a check takes its entry out. -/
def staleCheck : List CacheEvent :=
  firstCheck ++ [.delete song.stamp.path, .check "/music" "usrc1"] ++ advances 1 5

end IndexCache
end LosslessMusic.Isrc
