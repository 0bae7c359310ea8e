import LosslessMusic.Scanning.Sheets
import Mathlib.Data.List.Perm.Basic

/-!
# Full and incremental scans

`collect_library_files`, `scan_library` and `incremental`. A full scan gives the rows of its sheets
in order, and those of its audio as its workers finish. A delta is applied to the rows that a
library holds by their paths.
-/

namespace LosslessMusic.Scanning

namespace Folder

variable (folder : Folder)

/-- `collect_library_files`. -/
def current : List AudioFile :=
  folder.entries.filter fun file => supported file.path && !staging file.path

def paths : List Path := folder.current.map (·.path)

/-- A sheet with the audio that it names, if both are there. -/
def parsed (file : AudioFile) : Option (CueSheet × Path) :=
  if isCue file.path then
    match folder.sheet file.path with
    | .error _ => none
    | .ok sheet =>
      if sheet.fileName = [] then none
      else (folder.resolveCueAudio file.path sheet.fileName).toOption.map (sheet, ·)
  else none

/-- The audio that some sheet owns. -/
def referenced : List Path := folder.current.filterMap fun file => (folder.parsed file).map (·.2)

/-- The rows of a sheet. -/
def cueRows (file : AudioFile) : List Row :=
  match folder.parsed file with
  | some (sheet, audio) => folder.scanCueSheet file sheet audio
  | none => (folder.scanCueFileForLibrary file).toOption.getD []

/-- Whether a file is scanned by itself. -/
def single (file : AudioFile) : Bool := !isCue file.path && !folder.referenced.contains file.path

/-- The rows of a file. -/
def rowsOf (file : AudioFile) : List Row :=
  if isCue file.path then folder.cueRows file
  else if folder.referenced.contains file.path then []
  else [folder.scanAudioFile file]

/-- What a full scan returns. -/
def FullScan (rows : List Row) : Prop :=
  ∃ finished : List AudioFile, finished.Perm (folder.current.filter folder.single) ∧
    rows = (folder.current.filter (isCue ·.path) ++ finished).flatMap folder.rowsOf

end Folder

/-! ## Incremental scans -/

/-- A `BTreeMap` of modification times. -/
abbrev Times := List (Path × Int)

def Times.insert (path : Path) (time : Int) : Times → Times
  | [] => [(path, time)]
  | (known, old) :: rest =>
    if path = known then (path, time) :: rest
    else if path < known then (path, time) :: (known, old) :: rest
    else (known, old) :: Times.insert path time rest

/-- The modification times of rows, by path. -/
def snapshot (rows : List Row) : Times :=
  rows.foldl (fun times row => Times.insert row.filePath row.fileModTime times) []

/-- The first modification time that a snapshot has for each sheet. -/
def cueTimes (existing : Times) : Times :=
  existing.filterMap fun (path, time) => (cueBase path).map (·, time)

/-- The modification time that a snapshot has for a file. -/
def old (existing : Times) (file : AudioFile) : Option Int :=
  (existing.lookup file.path).or
    (if isCue file.path then (cueTimes existing).lookup file.path else none)

/-- What an incremental scan returns. -/
structure Delta where
  scanned : List Row
  deletedPaths : List Path
  skippedCount : Nat
  totalFiles : Nat

namespace Folder

variable (folder : Folder) (existing : Times)

def skips (file : AudioFile) : Bool := old existing file = some file.modified

def incremental : Delta where
  scanned := (folder.current.filter fun file => !skips existing file).flatMap folder.rowsOf
  deletedPaths := (existing.filter fun (path, _) =>
    !folder.paths.contains ((cueBase path).getD path)).map (·.1)
  skippedCount := (folder.current.filter (skips existing)).length
  totalFiles := folder.current.length

end Folder

/-! ## Rows that are kept by path -/

/-- The row that a list leaves for a path. -/
def stored (rows : List Row) (path : Path) : Option Row :=
  (rows.filter (·.filePath = path)).getLast?

/-- A delta is applied. -/
def Delta.applied (delta : Delta) (rows : List Row) (path : Path) : Option Row :=
  (stored delta.scanned path).or
    (if delta.deletedPaths.contains path then none else stored rows path)

variable {rows : List Row} {path : Path}

theorem stored_eq_none : stored rows path = none ↔ ∀ row ∈ rows, row.filePath ≠ path := by
  rw [stored, List.getLast?_eq_none_iff, List.filter_eq_nil_iff]
  simp

theorem mem_of_stored {row : Row} (here : stored rows path = some row) :
    row ∈ rows ∧ row.filePath = path := by
  have member := List.mem_of_getLast? here
  simpa using List.mem_filter.mp member

theorem stored_append (first second : List Row) (path : Path) :
    stored (first ++ second) path = (stored second path).or (stored first path) := by
  rw [stored, List.filter_append, List.getLast?_append]
  rfl

theorem stored_singleton (row : Row) (path : Path) :
    stored [row] path = if row.filePath = path then some row else none := by
  unfold stored
  by_cases same : row.filePath = path <;> simp [same]

/-! ## Snapshots -/

theorem lookup_entry (path other : Path) (time : Int) (times : Times) :
    List.lookup other ((path, time) :: times) =
      if other = path then some time else times.lookup other := by
  rw [List.lookup_cons]
  by_cases same : other = path
  · simp [same]
  · rw [beq_eq_false_iff_ne.mpr same, if_neg same]

theorem lookup_insert (path other : Path) (time : Int) (times : Times) :
    (Times.insert path time times).lookup other =
      if other = path then some time else times.lookup other := by
  induction times with
  | nil => rw [Times.insert, lookup_entry]
  | cons entry rest ih =>
    obtain ⟨known, before⟩ := entry
    unfold Times.insert
    split
    next equal =>
      subst equal
      rw [lookup_entry, lookup_entry]
      split <;> rfl
    next different =>
      split
      · rw [lookup_entry]
      · rw [lookup_entry, ih, lookup_entry]
        by_cases same : other = path
        · subst same
          rw [if_pos rfl, if_pos rfl, if_neg different]
        · rw [if_neg same, if_neg same]

theorem mem_insert {time : Int} {times : Times} {entry : Path × Int} :
    entry ∈ Times.insert path time times → entry = (path, time) ∨ entry ∈ times := by
  induction times with
  | nil =>
    intro member
    exact .inl (List.mem_singleton.mp member)
  | cons first rest ih =>
    obtain ⟨known, before⟩ := first
    unfold Times.insert
    split
    · intro member
      exact (List.mem_cons.mp member).imp_right (List.mem_cons_of_mem _)
    · split
      · intro member
        exact List.mem_cons.mp member
      · intro member
        rcases List.mem_cons.mp member with rfl | member
        · exact .inr List.mem_cons_self
        · exact (ih member).imp_right (List.mem_cons_of_mem _)

/-- A snapshot has the time of the row that is left for a path. -/
theorem lookup_snapshot (rows : List Row) (path : Path) :
    (snapshot rows).lookup path = (stored rows path).map (·.fileModTime) := by
  induction rows using List.reverseRecOn with
  | nil => rfl
  | append_singleton rows row ih =>
    rw [snapshot, List.foldl_append, List.foldl_cons, List.foldl_nil, lookup_insert,
      stored_append, stored_singleton]
    by_cases same : path = row.filePath
    · simp [same]
    · rw [if_neg same, if_neg (Ne.symm same)]
      exact ih

theorem mem_snapshot {entry : Path × Int} (member : entry ∈ snapshot rows) :
    ∃ row ∈ rows, entry = (row.filePath, row.fileModTime) := by
  induction rows using List.reverseRecOn with
  | nil => cases member
  | append_singleton rows row ih =>
    rw [snapshot, List.foldl_append, List.foldl_cons, List.foldl_nil] at member
    rcases mem_insert member with rfl | before
    · exact ⟨row, List.mem_append_right _ (List.mem_singleton_self row), rfl⟩
    · obtain ⟨found, there, same⟩ := ih before
      exact ⟨found, List.mem_append_left _ there, same⟩

theorem mem_deletedPaths {folder : Folder} :
    path ∈ (folder.incremental (snapshot rows)).deletedPaths ↔
      (∃ row ∈ rows, row.filePath = path) ∧ (cueBase path).getD path ∉ folder.paths := by
  have known : (∃ time, (path, time) ∈ snapshot rows) ↔ ∃ row ∈ rows, row.filePath = path := by
    constructor
    · rintro ⟨time, member⟩
      obtain ⟨row, there, same⟩ := mem_snapshot member
      exact ⟨row, there, (congrArg Prod.fst same).symm⟩
    · rintro ⟨row, there, same⟩
      have held : (snapshot rows).lookup path ≠ none := by
        rw [lookup_snapshot, ne_eq, Option.map_eq_none_iff, stored_eq_none]
        exact fun absent => absent row there same
      obtain ⟨time, found⟩ := Option.ne_none_iff_exists'.mp held
      obtain ⟨before, after, same, _⟩ := List.lookup_eq_some_iff.mp found
      exact ⟨time, same ▸ List.mem_append_right before List.mem_cons_self⟩
  rw [← known]
  simp only [Folder.incremental, List.mem_map, List.mem_filter, Prod.exists, exists_and_right,
    exists_eq_right, List.contains_eq_mem]
  simp

end LosslessMusic.Scanning
