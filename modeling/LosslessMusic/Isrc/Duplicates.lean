import LosslessMusic.Isrc.AccountingRuns

/-!
# Duplicate checks in an indexed directory

An index keeps one path for a code, that of the file which was entered last: unchanged files
come first, and both kinds in the order of the walk. A check finds a duplicate as long as that
file is there; when it has gone, the entry goes too, whatever other files have the code.
-/

namespace LosslessMusic.Isrc

open Storage (Table)
open Transition (Machine)

/-! ## What an index records -/

variable {one : Listed}

namespace Index

variable {sizes : Sizes} {index next : Index}

/-- The path that is recorded for a code. -/
def path? (index : Index) (key : String) : Option String :=
  (index.entries.get? key).map fun entry => entry.2.text

theorem path?_insertMatch {isrc path : Owned}
    (inserted : index.insertMatch sizes isrc path = some next) (key : String) :
    next.path? key = if isrc.text = key then some path.text else index.path? key := by
  have put : ∃ capacity, next.entries = index.entries.put isrc.text (capacity, path) := by
    unfold insertMatch at inserted
    split at inserted
    next capacity old _ =>
      obtain ⟨bytes, -, rfl⟩ := Option.map_eq_some_iff.mp inserted
      exact ⟨capacity, rfl⟩
    · rw [← Option.some.inj inserted]
      exact ⟨isrc.capacity, rfl⟩
  obtain ⟨capacity, entries⟩ := put
  unfold path?
  rw [entries, Table.get?_put]
  split
  · rfl
  · rfl

theorem entries_insertFile {path : Owned} {file : FileEntry}
    (inserted : index.insertFile sizes path file = some next) : next.entries = index.entries := by
  unfold insertFile at inserted
  split at inserted
  · obtain ⟨bytes, -, rfl⟩ := Option.map_eq_some_iff.mp inserted
    rfl
  · rw [← Option.some.inj inserted]

variable (previous : Table String (Nat × FileEntry)) (read : String → Owned)

/-- The code that a file is listed with: the one it was known with, or the one that is
read. -/
def code (one : Listed) : String :=
  match reused? previous one.stamp with
  | some entry => entry.isrc.text
  | none => (read one.stamp.path).text

/-- The files that count, in the order in which they are entered. -/
def entered (listed : List Listed) : List Listed :=
  (considered listed).filter (fun one => (reused? previous one.stamp).isSome) ++
    changed previous listed

/-- A file is listed with the code. -/
def hasCode (key : String) (one : Listed) : Bool :=
  key ≠ "" && code previous read one = key

/-- The file that is entered last with a code. -/
def recorded? (listed : List Listed) (key : String) : Option String :=
  ((entered previous listed).filter (hasCode previous read key)).getLast?.map (·.stamp.path)

variable {previous read}

theorem mem_entered {listed : List Listed} :
    one ∈ entered previous listed ↔ one ∈ considered listed := by
  unfold entered changed
  rw [List.mem_append, List.mem_filter, List.mem_filter, ← and_or_left]
  refine and_iff_left ?_
  cases reused? previous one.stamp with
  | none => exact .inr rfl
  | some entry => exact .inl rfl

theorem path?_reuse (reused : reuse sizes previous index one = some next) (key : String) :
    next.path? key =
      if (hasCode previous read key one && (reused? previous one.stamp).isSome) = true then
        some one.stamp.path
      else index.path? key := by
  unfold reuse at reused
  unfold hasCode code
  cases known : reused? previous one.stamp with
  | none =>
    rw [known] at reused
    cases reused
    rw [Option.isSome_none, Bool.and_false]
    rfl
  | some entry =>
    rw [known] at reused
    obtain ⟨matched, found, inserted⟩ := Option.bind_eq_some_iff.mp reused
    have same : next.path? key = matched.path? key := by
      unfold path?
      rw [entries_insertFile inserted]
    rw [same]
    dsimp only
    split at found
    next empty =>
      cases found
      by_cases named : key = ""
      · simp [named]
      · simp [empty, Ne.symm named]
    next full =>
      rw [path?_insertMatch found]
      by_cases here : entry.isrc.text = key
      · subst here
        simp [Owned.copy, full]
      · simp [Owned.copy, here]

theorem path?_enter (new : reused? previous one.stamp = none)
    (entered : enter sizes read index one = some next) (key : String) :
    next.path? key =
      if hasCode previous read key one = true then some one.stamp.path
      else index.path? key := by
  unfold enter at entered
  unfold hasCode code
  rw [new]
  obtain ⟨matched, found, inserted⟩ := Option.bind_eq_some_iff.mp entered
  have same : next.path? key = matched.path? key := by
    unfold path?
    rw [entries_insertFile inserted]
  rw [same]
  split at found
  next empty =>
    cases found
    by_cases named : key = ""
    · simp [named]
    · simp [empty, Ne.symm named]
  next full =>
    rw [path?_insertMatch found]
    by_cases here : (read one.stamp.path).text = key
    · subst here
      simp [Owned.copy, full]
    · simp [Owned.copy, here]

/-- A loop that looks something up ends with the last of its items that set it. -/
theorem foldlM_last {α β γ : Type} {turn : β → α → Option β} (look : β → Option γ)
    (hits : α → Bool) (value : α → γ) (items : List α)
    (turns : ∀ state, ∀ item ∈ items, ∀ next, turn state item = some next →
      look next = if hits item = true then some (value item) else look state)
    {state final : β} (ended : items.foldlM turn state = some final) :
    look final = ((items.filter hits).getLast?.map value).or (look state) := by
  induction items generalizing state with
  | nil =>
    cases ended
    rfl
  | cons item rest ih =>
    rw [List.foldlM_cons] at ended
    obtain ⟨next, turned, ended⟩ := Option.bind_eq_some_iff.mp ended
    rw [ih (fun state one later => turns state one (List.mem_cons_of_mem _ later))
      ended, turns state item List.mem_cons_self next turned, List.filter_cons]
    cases hit : hits item with
    | false => rfl
    | true =>
      rw [if_pos rfl, if_pos rfl, List.getLast?_cons]
      cases (rest.filter hits).getLast? with
      | none => rfl
      | some last => rfl

/-- A rebuild records for a code the file that it enters last with it. -/
theorem path?_build {listed : List Listed} {builtAt : Nat}
    (built : build sizes previous listed read builtAt = some index) (key : String) :
    index.path? key = recorded? previous read listed key := by
  unfold build at built
  obtain ⟨unchanged, reused, ended⟩ := Option.bind_eq_some_iff.mp built
  have first := foldlM_last (path? · key)
    (fun one => hasCode previous read key one && (reused? previous one.stamp).isSome)
    (·.stamp.path) _ (fun _ _ _ _ turned => path?_reuse turned key) reused
  have second := foldlM_last (path? · key) (hasCode previous read key) (·.stamp.path) _
    (fun _ one member _ turned => path?_enter
      (Option.isNone_iff_eq_none.mp (List.mem_filter.mp member).2) turned key) ended
  have new : path? { bytes := sizes.index + 2048, builtAt } key = none := rfl
  rw [second, first, new, Option.or_none]
  unfold recorded? entered changed
  rw [List.filter_append, List.filter_filter, List.filter_filter, List.getLast?_append,
    Option.map_or]

end Index

/-! ## Checks and deletions -/

/-- A file that is there and not empty. -/
def isThere (files : List File) (path : String) : Bool :=
  (({ files } : IndexCache).stat? path).any IndexCache.isPresent

/-- What `check` does with the index of a directory: the answer, and the index after it. -/
def Index.check (toUppercase : Char → List Char) (files : List File) (isrc : String)
    (index : Index) : String × Index :=
  let key := uppercase toUppercase isrc
  match index.entries.get? key with
  | none => ("", index)
  | some (_, path) =>
    if isThere files path.text then (path.text, index)
    else ("", { index with entries := index.entries.erase key })

namespace IndexCache

variable {setting : Setting} {s : IndexCache} {position place : Nat} {shared : Shared}
  {directory isrc : String}

end IndexCache

/-! ## A directory after its index was built -/

/-- What happens to a directory: a file is deleted, or a code is checked. -/
inductive DirectoryEvent
  | delete (path : String)
  | check (isrc : String)

/-- An index, and the files that are there. -/
structure IndexedDirectory where
  index : Index
  files : List File

namespace IndexedDirectory

variable (toUppercase : Char → List Char) (directory : IndexedDirectory)

/-- The answer of `check`. -/
def answer (isrc : String) : String :=
  if isrc = "" then "" else (directory.index.check toUppercase directory.files isrc).1

/-- One event. -/
def step (directory : IndexedDirectory) : DirectoryEvent → IndexedDirectory
  | .delete path => { directory with files := directory.files.filter (·.stamp.path ≠ path) }
  | .check isrc =>
    if isrc = "" then directory
    else
      { directory with
        index := (directory.index.check toUppercase directory.files isrc).2 }

/-- One event after the other. -/
def run (events : List DirectoryEvent) : IndexedDirectory :=
  events.foldl (step toUppercase) directory

variable {toUppercase} {directory}

/-- The index still has what was recorded, the paths apart that have gone. -/
structure Records (recorded : String → Option String) (directory : IndexedDirectory) : Prop where
  only : ∀ key path, directory.index.path? key = some path → recorded key = some path
  kept : ∀ key path, recorded key = some path → isThere directory.files path = true →
    directory.index.path? key = some path

theorem find?_delete (files : List File) (path other : String) :
    (files.filter (·.stamp.path ≠ path)).find? (·.stamp.path = other) =
      if other = path then none else files.find? (·.stamp.path = other) := by
  rw [List.find?_filter]
  split
  next same =>
    subst same
    refine List.find?_eq_none.mpr fun file _ => ?_
    simp
  next different =>
    congr 1
    funext file
    by_cases same : file.stamp.path = other
    · simp [same, different]
    · simp [same]

theorem isThere_of_delete {files : List File} {path other : String}
    (there : isThere (files.filter (·.stamp.path ≠ path)) other = true) :
    isThere files other = true := by
  unfold isThere IndexCache.stat? at *
  dsimp only at there
  rw [find?_delete] at there
  split at there
  · cases there
  · exact there

variable {recorded : String → Option String}

theorem Records.check (records : directory.Records recorded) (isrc : String) :
    Records recorded { directory with
      index := (directory.index.check toUppercase directory.files isrc).2 } := by
  unfold Index.check
  dsimp only
  split
  · exact records
  next capacity path found =>
    split
    · exact records
    next gone =>
      have looked (key : String) :
          ({ directory.index with
            entries := directory.index.entries.erase (uppercase toUppercase isrc) } : Index).path?
              key = if uppercase toUppercase isrc = key then none else directory.index.path? key := by
        unfold Index.path?
        rw [Table.get?_erase]
        split
        · rfl
        · rfl
      constructor
      · intro key other recordedHere
        dsimp only at recordedHere
        rw [looked] at recordedHere
        split at recordedHere
        · cases recordedHere
        · exact records.only key other recordedHere
      · intro key other known there
        have before := records.kept key other known there
        dsimp only
        rw [looked, if_neg]
        · exact before
        · rintro rfl
          unfold Index.path? at before
          rw [found] at before
          cases before
          exact gone there

theorem Records.step (records : directory.Records recorded) (event : DirectoryEvent) :
    (IndexedDirectory.step toUppercase directory event).Records recorded := by
  cases event with
  | delete path =>
    exact ⟨records.only, fun key other known there =>
      records.kept key other known (isThere_of_delete there)⟩
  | check isrc =>
    unfold IndexedDirectory.step
    dsimp only
    split
    · exact records
    · exact records.check isrc

theorem Records.run (records : directory.Records recorded)
    (events : List DirectoryEvent) : (directory.run toUppercase events).Records recorded := by
  induction events generalizing directory with
  | nil => exact records
  | cons event events ih => exact ih (records.step event)

/-- The answer is the path that was recorded, as long as it is there. -/
theorem Records.answer (toUppercase : Char → List Char)
    (records : directory.Records recorded) (empty : recorded "" = none) (isrc : String) :
    directory.answer toUppercase isrc =
      ((recorded (uppercase toUppercase isrc)).filter (isThere directory.files)).getD "" := by
  unfold IndexedDirectory.answer
  split
  next none_ =>
    subst none_
    rw [show uppercase toUppercase "" = "" from rfl, empty]
    rfl
  · unfold Index.check
    dsimp only
    split
    next absent =>
      cases known : recorded (uppercase toUppercase isrc) with
      | none => rfl
      | some path =>
        rw [Option.filter_some]
        split
        next there =>
          have found := records.kept _ _ known there
          unfold Index.path? at found
          rw [absent] at found
          cases found
        · rfl
    next capacity path found =>
      have known := records.only (uppercase toUppercase isrc) path.text (by
        unfold Index.path?
        rw [found]
        rfl)
      rw [known, Option.filter_some]
      split
      · rfl
      · rfl

end IndexedDirectory

/-! ## What a check finds -/

namespace Index

variable {previous : Table String (Nat × FileEntry)} {read : String → Owned}
  {listed : List Listed} {key path : String}

/-- A file that counts was listed with the code. -/
def IsListedWith (previous : Table String (Nat × FileEntry)) (read : String → Owned)
    (listed : List Listed) (key : String) (one : Listed) : Prop :=
  one ∈ considered listed ∧ hasCode previous read key one = true

theorem exists_of_recorded? (recorded : recorded? previous read listed key = some path) :
    ∃ one, IsListedWith previous read listed key one ∧ one.stamp.path = path := by
  obtain ⟨one, last, rfl⟩ := Option.map_eq_some_iff.mp recorded
  obtain ⟨member, same⟩ := List.mem_filter.mp (List.mem_of_getLast? last)
  exact ⟨one, ⟨mem_entered.mp member, same⟩, rfl⟩

theorem exists_recorded? (with_ : IsListedWith previous read listed key one) :
    ∃ path, recorded? previous read listed key = some path := by
  have among : one ∈ (entered previous listed).filter (hasCode previous read key) :=
    List.mem_filter.mpr ⟨mem_entered.mpr with_.1, with_.2⟩
  unfold recorded?
  cases last : ((entered previous listed).filter (hasCode previous read key)).getLast? with
  | none =>
    rw [List.getLast?_eq_none_iff.mp last] at among
    cases among
  | some final => exact ⟨_, rfl⟩

end Index

namespace IndexedDirectory

variable (toUppercase : Char → List Char) (previous : Table String (Nat × FileEntry))
  (read : String → Owned) (listed : List Index.Listed) (directory : IndexedDirectory)

/-- A check finds a file while one that was listed with the code is there unchanged. -/
def Complete (isrc : String) : Prop :=
  ∀ one, Index.IsListedWith previous read listed (uppercase toUppercase isrc) one →
    ({ files := directory.files } : IndexCache).stat? one.stamp.path = some one.stamp →
    IndexCache.isPresent one.stamp = true →
    isThere directory.files (directory.answer toUppercase isrc) = true

/-- A check finds the file that was recorded, while it is there. -/
structure FindsRecorded (isrc : String) : Prop where
  answer : directory.answer toUppercase isrc =
    ((Index.recorded? previous read listed (uppercase toUppercase isrc)).filter
      (isThere directory.files)).getD ""
  isThere : directory.answer toUppercase isrc ≠ "" →
    isThere directory.files (directory.answer toUppercase isrc) = true ∧
      ∃ one, Index.IsListedWith previous read listed (uppercase toUppercase isrc) one ∧
        one.stamp.path = directory.answer toUppercase isrc
  recorded : ∀ one, Index.IsListedWith previous read listed (uppercase toUppercase isrc) one →
    ∃ other, Index.IsListedWith previous read listed (uppercase toUppercase isrc) other ∧
      Index.recorded? previous read listed (uppercase toUppercase isrc) = some other.stamp.path
  unshared : (∀ one other,
      Index.IsListedWith previous read listed (uppercase toUppercase isrc) one →
      Index.IsListedWith previous read listed (uppercase toUppercase isrc) other →
        one.stamp.path = other.stamp.path) →
    directory.Complete toUppercase previous read listed isrc

variable {toUppercase previous read listed directory}

theorem Records.finds
    (records : directory.Records (Index.recorded? previous read listed)) (isrc : String) :
    directory.FindsRecorded toUppercase previous read listed isrc := by
  have nothing : Index.recorded? previous read listed "" = none := by
    cases recorded : Index.recorded? previous read listed "" with
    | none => rfl
    | some path =>
      obtain ⟨one, with_, -⟩ := Index.exists_of_recorded? recorded
      cases with_.2
  have answer := records.answer toUppercase nothing isrc
  have exists_other : ∀ one,
      Index.IsListedWith previous read listed (uppercase toUppercase isrc) one →
      ∃ other, Index.IsListedWith previous read listed (uppercase toUppercase isrc) other ∧
        Index.recorded? previous read listed (uppercase toUppercase isrc) =
          some other.stamp.path := by
    intro one with_
    obtain ⟨path, recorded⟩ := Index.exists_recorded? with_
    obtain ⟨other, also, rfl⟩ := Index.exists_of_recorded? recorded
    exact ⟨other, also, recorded⟩
  refine ⟨answer, fun found => ?_, exists_other, fun unshared one with_ stat present => ?_⟩
  · rw [answer] at found ⊢
    cases recorded : Index.recorded? previous read listed (uppercase toUppercase isrc) with
    | none =>
      rw [recorded] at found
      exact absurd rfl found
    | some path =>
      rw [recorded, Option.filter_some] at found
      rw [Option.filter_some]
      split
      next there => exact ⟨there, Index.exists_of_recorded? recorded⟩
      next gone =>
        rw [if_neg gone] at found
        exact absurd rfl found
  · obtain ⟨other, also, recorded⟩ := exists_other one with_
    have there : Isrc.isThere directory.files other.stamp.path = true := by
      rw [← unshared one other with_ also]
      unfold Isrc.isThere
      rw [stat]
      exact present
    rw [answer, recorded, Option.filter_some, if_pos there]
    exact there

/-- Once an index is built, its directory is checked by what the index has recorded, whatever
is deleted and whatever was checked before. -/
theorem findsRecorded (toUppercase : Char → List Char) (sizes : Sizes)
    (previous : Table String (Nat × FileEntry)) (read : String → Owned)
    (listed : List Index.Listed) (builtAt : Nat) (files : List File) :
    ∃ index, Index.build sizes previous listed read builtAt = some index ∧
      ∀ events isrc, (run toUppercase ⟨index, files⟩ events).FindsRecorded toUppercase previous
        read listed isrc := by
  obtain ⟨index, built, -⟩ := Index.accounts_build sizes previous listed read builtAt
  refine ⟨index, built, fun events isrc => ?_⟩
  have records : (⟨index, files⟩ : IndexedDirectory).Records
      (Index.recorded? previous read listed) := by
    constructor
    · intro key path recorded
      rw [← Index.path?_build built]
      exact recorded
    · intro key path recorded _
      rw [← Index.path?_build built] at recorded
      exact recorded
  exact (records.run events).finds isrc

/-- A second file with the same code. -/
def copied : File where
  stamp := { path := "/music/b.flac", size := 9, modifiedNs := 2, directory := false }
  tag := "USRC1"
  named := by decide
  empty := by decide

/-- Both files are listed. -/
def bothListed : List Index.Listed :=
  [⟨IndexCache.song.stamp, 13⟩, ⟨copied.stamp, 13⟩]

/-- The index of both files. -/
def bothIndexed : Option Index :=
  Index.build IndexCache.ascii.sizes {} bothListed (fun _ => .copy "USRC1") 0

theorem copy_unnoticed : ¬∀ (toUppercase : Char → List Char) (sizes : Sizes)
      (previous : Table String (Nat × FileEntry)) (read : String → Owned)
      (listed : List Index.Listed) (builtAt : Nat) (files : List File) (index : Index),
      Index.build sizes previous listed read builtAt = some index → ∀ events isrc,
        (run toUppercase ⟨index, files⟩ events).Complete toUppercase previous read listed
          isrc := by
  intro complete
  obtain ⟨index, built, misses⟩ := (Option.any_eq_true (fun index =>
      !isThere [IndexCache.song] ((run IndexCache.ascii.toUppercase
        ⟨index, [IndexCache.song, copied]⟩ [.delete copied.stamp.path]).answer
          IndexCache.ascii.toUppercase "USRC1")) bothIndexed).mp (by decide +kernel)
  have listed : Index.IsListedWith {} (fun _ => .copy "USRC1") bothListed
      (uppercase IndexCache.ascii.toUppercase "USRC1") ⟨IndexCache.song.stamp, 13⟩ :=
    ⟨List.mem_filter.mpr ⟨List.mem_cons_self, by decide +kernel⟩, by decide +kernel⟩
  have left : [IndexCache.song, copied].filter (fun file : File => file.stamp.path ≠
      copied.stamp.path) = [IndexCache.song] := by simp [IndexCache.song, copied]
  have still : ({ files := [IndexCache.song] } : IndexCache).stat? IndexCache.song.stamp.path =
      some IndexCache.song.stamp := by decide +kernel
  rw [← left] at still misses
  have found := complete IndexCache.ascii.toUppercase IndexCache.ascii.sizes {}
    (fun _ => .copy "USRC1") bothListed 0 [IndexCache.song, copied] index built
    [.delete copied.stamp.path] "USRC1" _ listed still (by decide)
  rw [Bool.not_eq_true'] at misses
  exact Bool.false_ne_true (misses.symm.trans found)

end IndexedDirectory
end LosslessMusic.Isrc
