import LosslessMusic.Scanning.Delta

/-!
# When a delta is exact

A delta is exact if the rows of the first state, with the delta applied, are those of the second
one, and if it neither skips audio that a sheet owns nor reports an unchanged file as gone. This is
so for exactly the pairs of states that the delta covers.
-/

namespace LosslessMusic.Scanning

variable {first second : Folder} {rows rows' : List Row}

/-- The first modification time, by path, that a snapshot has for a track of a sheet. -/
def earliest (existing : Times) (sheet : Path) : Option Int :=
  (existing.find? fun (path, _) => cueBase path = some sheet).map (·.2)

/-- Where the file of a row is looked for. -/
def rowFile (path : Path) : Path := (cueBase path).getD path

namespace Folder

variable (folder : Folder) (existing : Times)

/-- Whether a sheet owns an audio file. -/
def owned (file : AudioFile) : Bool := !isCue file.path && folder.referenced.contains file.path

/-- Whether an incremental scan scans a file. -/
def scans (file : AudioFile) : Bool := !skips existing file && !folder.owned file

end Folder

/-- The rows are those of a full scan, every file is in one group, and no row of an unchanged file
is deleted. -/
structure Agrees (first second : Folder) (rows rows' : List Row) : Prop where
  applied : ∀ path, (second.incremental (snapshot rows)).applied rows path = stored rows' path
  groups : ∀ file ∈ second.current, [Folder.skips (snapshot rows) file,
    second.scans (snapshot rows) file, second.owned file].count true = 1
  kept : ∀ file ∈ first.current, ∀ later ∈ second.current, later.path = file.path →
    later.modified = file.modified → ∀ row ∈ first.rowsOf file,
      row.filePath ∉ (second.incremental (snapshot rows)).deletedPaths

/-- What a delta covers. An audio file that had a row is reported if it is gone or now owned by a
sheet, it is then not unchanged, and it is not reported if it is unchanged. A sheet whose tracks
seem unchanged has the same rows, and no track of another one is lost. -/
structure Covers (first second : Folder) (existing : Times) : Prop where
  gone : ∀ file ∈ first.current, first.single file = true → file.path ∉ second.paths →
    rowFile file.path ∉ second.paths
  hidden : ∀ file ∈ first.current, first.single file = true → ∀ later ∈ second.current,
    later.path = file.path → second.owned later = true →
      later.modified ≠ file.modified ∧ rowFile file.path ∉ second.paths
  unchanged : ∀ file ∈ first.current, first.single file = true → ∀ later ∈ second.current,
    later.path = file.path → second.single later = true → later.modified = file.modified →
      rowFile file.path ∈ second.paths ∧ first.scanAudioFile file = second.scanAudioFile later
  skipped : ∀ sheet ∈ second.current, isCue sheet.path = true →
    earliest existing sheet.path = some sheet.modified →
      ∀ path, stored (first.rowsAt sheet.path) path = stored (second.rowsOf sheet) path
  rescanned : ∀ sheet ∈ second.current, isCue sheet.path = true →
    earliest existing sheet.path ≠ some sheet.modified →
      ∀ row ∈ first.rowsAt sheet.path, ∃ later ∈ second.rowsOf sheet, later.filePath = row.filePath

/-! ## Skipped files -/

theorem lookup_cueTimes (existing : Times) (sheet : Path) :
    (cueTimes existing).lookup sheet = earliest existing sheet := by
  induction existing with
  | nil => rfl
  | cons entry rest ih =>
    obtain ⟨path, time⟩ := entry
    simp only [cueTimes, earliest] at ih
    simp only [cueTimes, List.filterMap_cons, earliest, List.find?_cons]
    cases cueBase path with
    | none => simpa using ih
    | some base =>
      simp only [Option.map_some, lookup_entry, Option.some.injEq]
      by_cases same : sheet = base
      · simp [same]
      · simpa [same, Ne.symm same] using ih

variable {file : AudioFile}

theorem skips_cue (full : first.FullScan rows) (cue : isCue file.path = true) :
    Folder.skips (snapshot rows) file = true ↔
      earliest (snapshot rows) file.path = some file.modified := by
  have own : (snapshot rows).lookup file.path = none := by
    rw [lookup_snapshot, Folder.stored_fullScan full, owner_supported (supported_of_isCue cue),
      Folder.stored_rowsAt_cue cue]
    rfl
  rw [Folder.skips, old, own, cue, lookup_cueTimes]
  simp

theorem skips_audio (full : first.FullScan rows)
    (audio : isCue file.path = false) (known : supported file.path = true) :
    Folder.skips (snapshot rows) file = true ↔
      ∃ before, first.shown file.path = some before ∧ file.modified = before.modified := by
  have own : (snapshot rows).lookup file.path = (first.shown file.path).map (·.modified) := by
    rw [lookup_snapshot, Folder.stored_fullScan full, owner_supported known,
      Folder.stored_rowsAt_audio audio, Option.map_map]
    rfl
  rw [Folder.skips, old, own, audio]
  cases first.shown file.path with
  | none => simp
  | some before => simp [eq_comm]

/-! ## Rows with a delta applied -/

variable {path : Path}

theorem deleted_iff : path ∈ (second.incremental (snapshot rows)).deletedPaths ↔
      stored rows path ≠ none ∧ rowFile path ∉ second.paths := by
  rw [mem_deletedPaths, rowFile, ne_eq, stored_eq_none]
  simp

/-- What is left of a row, whether or not it is deleted. -/
theorem applied_eq (full : first.FullScan rows) (path : Path) :
    (second.incremental (snapshot rows)).applied rows path =
      (stored (second.incremental (snapshot rows)).scanned path).or
        (if rowFile path ∈ second.paths then stored (first.rowsAt (owner path)) path else none) := by
  rw [Delta.applied, ← Folder.stored_fullScan full]
  congr 1
  by_cases held : stored rows path = none
  · rw [held]
    split <;> split <;> rfl
  · by_cases here : rowFile path ∈ second.paths
    · have stays : path ∉ (second.incremental (snapshot rows)).deletedPaths := fun deleted =>
        (deleted_iff.mp deleted).2 here
      simp [here, stays]
    · have deleted := deleted_iff.mpr ⟨held, here⟩
      simp [here, deleted]

theorem Folder.rowsAt_eq {folder : Folder}
    (found : folder.fileAt path = some file) : folder.rowsAt path = folder.rowsOf file := by
  rw [rowsAt, found]
  rfl

theorem Folder.rowsAt_none {folder : Folder} (missing : folder.fileAt path = none) :
    folder.rowsAt path = [] := by
  rw [rowsAt, missing]
  rfl

theorem Folder.shown_eq {folder : Folder} (found : folder.fileAt path = some file) :
    folder.shown path = if folder.single file then some file else none := by
  rw [shown, found, Option.filter_some]

theorem Folder.shown_none {folder : Folder} (missing : folder.fileAt path = none) :
    folder.shown path = none := by
  rw [shown, missing]
  rfl

theorem Folder.isCue_of_single {folder : Folder}
    (alone : folder.single file = true) : isCue file.path = false := by
  rw [single, Bool.and_eq_true_iff, Bool.not_eq_true'] at alone
  exact alone.1

theorem Folder.single_of_audio {folder : Folder}
    (audio : isCue file.path = false) : folder.single file = !folder.owned file := by
  rw [single, owned, audio]
  rfl

theorem owner_eq_rowFile (track : supported path = false) : owner path = rowFile path := by
  rw [owner, track]
  rfl

/-! ## Audio files -/

theorem applied_audio (full : first.FullScan rows) (audio : isCue path = false)
    (known : supported path = true) :
    (second.incremental (snapshot rows)).applied rows path = ((second.fileAt path).bind fun later =>
        if Folder.skips (snapshot rows) later then none
        else stored (second.rowsOf later) path).or
      (if rowFile path ∈ second.paths then (first.shown path).map first.scanAudioFile else none) := by
  rw [applied_eq full, Folder.stored_scanned, owner_supported known,
    Folder.stored_rowsAt_audio audio]

theorem stored_audio (full : second.FullScan rows') (audio : isCue path = false)
    (known : supported path = true) :
    stored rows' path = (second.shown path).map second.scanAudioFile := by
  rw [Folder.stored_fullScan full, owner_supported known, Folder.stored_rowsAt_audio audio]

theorem shown_of_fileAt {folder : Folder} (here : file ∈ folder.current)
    (alone : folder.single file = true) : folder.shown file.path = some file :=
  Folder.shown_eq_some.mpr ⟨here, rfl, alone⟩

/-- Nothing is left of audio that is gone or owned by a sheet, if its row is reported. -/
theorem Covers.applied_audio (covers : Covers first second (snapshot rows))
    (full : first.FullScan rows) (full' : second.FullScan rows')
    (audio : isCue path = false) (known : supported path = true) :
    (second.incremental (snapshot rows)).applied rows path = stored rows' path := by
  rw [Scanning.applied_audio full audio known, stored_audio full' audio known]
  cases found : second.fileAt path with
  | none =>
    have absent : path ∉ second.paths := fun member => by
      rw [Folder.mem_paths, found] at member
      cases member
    rw [Folder.shown_none found]
    cases held : first.shown path with
    | none => simp
    | some file =>
      obtain ⟨here, rfl, alone⟩ := Folder.shown_eq_some.mp held
      simp [covers.gone file here alone absent]
  | some later =>
    obtain ⟨there, rfl⟩ := Folder.fileAt_eq_some found
    rw [Option.bind_some, Folder.stored_rowsOf_audio audio, Folder.shown_eq found]
    cases shown : second.single later with
    | false =>
      have owned : second.owned later = true := by
        simpa [Folder.single_of_audio audio] using shown
      cases held : first.shown later.path with
      | none => simp
      | some file =>
        obtain ⟨here, same, alone⟩ := Folder.shown_eq_some.mp held
        have away := (covers.hidden file here alone later there same.symm owned).2
        rw [same] at away
        simp [away]
    | true =>
      by_cases skipped : Folder.skips (snapshot rows) later = true
      · obtain ⟨file, held, unchanged⟩ := (skips_audio full audio known).mp skipped
        obtain ⟨here, same, alone⟩ := Folder.shown_eq_some.mp held
        have ⟨kept, row⟩ := covers.unchanged file here alone later there same.symm shown unchanged
        rw [same] at kept
        simp [skipped, held, kept, row]
      · simp [skipped]

/-! ## Sheets -/

theorem track_of_mem {folder : Folder} {row : Row}
    (cue : isCue file.path = true) (member : row ∈ folder.rowsOf file) :
    supported row.filePath = false ∧ owner row.filePath = file.path := by
  rw [Folder.rowsOf_cue cue] at member
  obtain ⟨_, number, same⟩ := Folder.mem_cueRows member
  rw [same]
  exact ⟨supported_trackPath cue number, owner_trackPath cue number⟩

theorem applied_sheet (full : first.FullScan rows) {sheet : AudioFile}
    (track : supported path = false) (found : second.fileAt (owner path) = some sheet) :
    (second.incremental (snapshot rows)).applied rows path =
      (if Folder.skips (snapshot rows) sheet then none
        else stored (second.rowsOf sheet) path).or (stored (first.rowsAt (owner path)) path) := by
  have here : rowFile path ∈ second.paths := by
    rw [Folder.mem_paths, ← owner_eq_rowFile track, found]
    rfl
  rw [applied_eq full, Folder.stored_scanned, found, if_pos here]
  rfl

theorem stored_sheet (full : second.FullScan rows') {sheet : AudioFile}
    (found : second.fileAt (owner path) = some sheet) :
    stored rows' path = stored (second.rowsOf sheet) path := by
  rw [Folder.stored_fullScan full, Folder.rowsAt_eq found]

theorem Covers.applied_track (covers : Covers first second (snapshot rows))
    (full : first.FullScan rows) (full' : second.FullScan rows') (track : supported path = false) :
    (second.incremental (snapshot rows)).applied rows path = stored rows' path := by
  cases found : second.fileAt (owner path) with
  | none =>
    have absent : rowFile path ∉ second.paths := fun member => by
      rw [Folder.mem_paths, ← owner_eq_rowFile track, found] at member
      cases member
    rw [applied_eq full, Folder.stored_scanned, Folder.stored_fullScan full',
      Folder.rowsAt_none found, found, if_neg absent]
    rfl
  | some sheet =>
    obtain ⟨there, same⟩ := Folder.fileAt_eq_some found
    rw [applied_sheet full track found, stored_sheet full' found]
    cases cue : isCue sheet.path with
    | false =>
      have audio : isCue (owner path) = false := same ▸ cue
      have never : stored (second.rowsAt (owner path)) path = none :=
        Folder.stored_rowsAt_track track audio
      rw [Folder.rowsAt_eq found] at never
      rw [never, Folder.stored_rowsAt_track track audio]
      simp
    | true =>
      by_cases skipped : Folder.skips (snapshot rows) sheet = true
      · have rowsSame := covers.skipped sheet there cue ((skips_cue full cue).mp skipped) path
        rw [if_pos skipped, ← rowsSame, same]
        rfl
      · rw [if_neg skipped]
        cases held : stored (second.rowsOf sheet) path with
        | some row => rfl
        | none =>
          refine stored_eq_none.mpr fun row member named => ?_
          rw [← same] at member
          obtain ⟨later, mine, again⟩ := covers.rescanned sheet there cue
            (fun time => skipped ((skips_cue full cue).mpr time)) row member
          exact stored_eq_none.mp held later mine (again.trans named)

/-! ## The delta -/

theorem Covers.agrees (covers : Covers first second (snapshot rows)) (full : first.FullScan rows)
    (full' : second.FullScan rows') : Agrees first second rows rows' where
  applied path := by
    cases known : supported path with
    | false => exact covers.applied_track full full' known
    | true =>
      cases cue : isCue path with
      | false => exact covers.applied_audio full full' cue known
      | true =>
        rw [applied_eq full, Folder.stored_scanned, Folder.stored_fullScan full',
          owner_supported known, Folder.stored_rowsAt_cue cue, Folder.stored_rowsAt_cue cue]
        cases found : second.fileAt path with
        | none => simp
        | some file =>
          have never : stored (second.rowsAt path) path = none := Folder.stored_rowsAt_cue cue
          rw [Folder.rowsAt_eq found] at never
          simp [never]
  groups file here := by
    have apart : second.owned file = true → Folder.skips (snapshot rows) file = false := by
      intro owned
      have audio : isCue file.path = false := by
        rw [Folder.owned, Bool.and_eq_true_iff, Bool.not_eq_true'] at owned
        exact owned.1
      refine Bool.eq_false_iff.mpr fun skipped => ?_
      obtain ⟨before, held, unchanged⟩ :=
        (skips_audio full audio (Folder.supported_of_mem here)).mp skipped
      obtain ⟨there, same, alone⟩ := Folder.shown_eq_some.mp held
      exact (covers.hidden before there alone file here same.symm owned).1 unchanged
    rw [Folder.scans]
    cases owned : second.owned file with
    | true => rw [apart owned]; rfl
    | false => cases Folder.skips (snapshot rows) file <;> rfl
  kept file here later there same unchanged row member deleted := by
    have away := (deleted_iff.mp deleted).2
    cases cue : isCue file.path with
    | true =>
      have ⟨track, mine⟩ := track_of_mem cue member
      rw [← owner_eq_rowFile track, mine, ← same] at away
      exact away (List.mem_map_of_mem there)
    | false =>
      rw [Folder.rowsOf_audio cue] at member
      split at member
      next alone =>
        obtain rfl := List.mem_singleton.mp member
        cases shown : second.single later with
        | true => exact away (covers.unchanged file here alone later there same shown unchanged).1
        | false =>
          have owned : second.owned later = true := by
            simpa [Folder.single_of_audio (same.symm ▸ cue : isCue later.path = false)] using shown
          exact (covers.hidden file here alone later there same owned).1 unchanged
      next => cases member

theorem Agrees.covers (agrees : Agrees first second rows rows') (full : first.FullScan rows)
    (full' : second.FullScan rows') : Covers first second (snapshot rows) where
  gone file here alone absent := by
    have audio := Folder.isCue_of_single alone
    have known := Folder.supported_of_mem here
    have left := agrees.applied file.path
    have missing : second.fileAt file.path = none := by
      rw [Folder.mem_paths] at absent
      exact Option.not_isSome_iff_eq_none.mp absent
    rw [applied_audio full audio known, stored_audio full' audio known,
      shown_of_fileAt here alone, Folder.shown_none missing, missing] at left
    intro member
    simp [member] at left
  hidden file here alone later there same owned := by
    have audio := Folder.isCue_of_single alone
    have known := Folder.supported_of_mem here
    have shown : second.single later = false := by
      simpa [Folder.single_of_audio (same.symm ▸ audio : isCue later.path = false)] using owned
    have left := agrees.applied file.path
    have found := Folder.fileAt_of_mem there
    rw [same] at found
    have none_ : stored (second.rowsOf later) file.path = none := by
      rw [← same, Folder.stored_rowsOf_audio (same.symm ▸ audio), shown]
      rfl
    rw [applied_audio full audio known, stored_audio full' audio known,
      shown_of_fileAt here alone, Folder.shown_eq found, found] at left
    constructor
    · intro unchanged
      have skipped : Folder.skips (snapshot rows) later = true :=
        (skips_audio full (same.symm ▸ audio) (same.symm ▸ known)).mpr
          ⟨file, same.symm ▸ shown_of_fileAt here alone, unchanged⟩
      have one := agrees.groups later there
      rw [skipped, owned, Folder.scans, skipped, owned] at one
      cases one
    · intro member
      simp [none_, member, shown] at left
  unchanged file here alone later there same shown unchanged := by
    have audio := Folder.isCue_of_single alone
    have known := Folder.supported_of_mem here
    have left := agrees.applied file.path
    have found := Folder.fileAt_of_mem there
    rw [same] at found
    have skipped : Folder.skips (snapshot rows) later = true :=
      (skips_audio full (same.symm ▸ audio) (same.symm ▸ known)).mpr
        ⟨file, same.symm ▸ shown_of_fileAt here alone, unchanged⟩
    have kept : rowFile file.path ∈ second.paths := by
      have row : first.scanAudioFile file ∈ first.rowsOf file := by
        rw [Folder.rowsOf_audio audio, if_pos alone]
        exact List.mem_singleton_self _
      by_contra away
      refine agrees.kept file here later there same unchanged _ row (deleted_iff.mpr ⟨?_, away⟩)
      rw [show (first.scanAudioFile file).filePath = file.path from rfl,
        stored_audio full audio known, shown_of_fileAt here alone]
      exact Option.some_ne_none _
    rw [applied_audio full audio known, stored_audio full' audio known,
      shown_of_fileAt here alone, Folder.shown_eq found, found] at left
    rw [Option.bind_some, if_pos skipped, if_pos kept, if_pos shown] at left
    exact ⟨kept, Option.some.inj left⟩
  skipped sheet there cue time path := by
    by_cases mine : supported path = false ∧ owner path = sheet.path
    · have found := Folder.fileAt_of_mem there
      rw [← mine.2] at found
      have left := agrees.applied path
      rw [applied_sheet full mine.1 found, stored_sheet full' found,
        if_pos ((skips_cue full cue).mpr time)] at left
      rw [← mine.2]
      exact left
    · have never {folder : Folder} {file : AudioFile} (named : file.path = sheet.path) :
          stored (folder.rowsOf file) path = none := by
        refine stored_eq_none.mpr fun row member same => mine ?_
        have known := track_of_mem (named.symm ▸ cue) member
        rw [same, named] at known
        exact known
      rw [never rfl]
      cases found : first.fileAt sheet.path with
      | none => rw [Folder.rowsAt_none found]; rfl
      | some file =>
        rw [Folder.rowsAt_eq found]
        exact never (Folder.fileAt_eq_some found).2
  rescanned sheet there cue time row member := by
    have mine : supported row.filePath = false ∧ owner row.filePath = sheet.path := by
      cases found : first.fileAt sheet.path with
      | none =>
        rw [Folder.rowsAt_none found] at member
        cases member
      | some file =>
        rw [Folder.rowsAt_eq found] at member
        have named := (Folder.fileAt_eq_some found).2
        have known := track_of_mem (named.symm ▸ cue) member
        rw [named] at known
        exact known
    have found := Folder.fileAt_of_mem there
    rw [← mine.2] at found member
    have left := agrees.applied row.filePath
    rw [applied_sheet full mine.1 found, stored_sheet full' found,
      if_neg fun skipped => time ((skips_cue full cue).mp skipped)] at left
    cases held : stored (second.rowsOf sheet) row.filePath with
    | some later => exact ⟨later, mem_of_stored held⟩
    | none =>
      rw [held] at left
      exact absurd rfl (stored_eq_none.mp left row member)

/-- A delta is exact if and only if it covers what has become of the folder. -/
theorem agrees_iff (full : first.FullScan rows) (full' : second.FullScan rows') :
    Agrees first second rows rows' ↔ Covers first second (snapshot rows) :=
  ⟨fun agrees => agrees.covers full full', fun covers => covers.agrees full full'⟩

/-! ## Names that look like tracks -/

namespace Example

/-- A folder with one song and nothing else. -/
def folder (name : String) (modified : Int) : Folder where
  entries := [⟨("/music/" ++ name).toList, modified, 4096⟩]
  distinct := List.nodup_singleton _
  sheet _ := .error "failed to open cue file: No such file or directory"
  there path := .ok (path = ("/music/" ++ name).toList)
  names path := .ok (if path = "/music".toList then some [(name.toList, false)] else none)
  probeQuality _ := none
  fileMetadata _ := none
  tags _ := ⟨[("trackName", .text "Song".toList), ("format", .text "flac".toList)], false⟩
  cover _ _ := none
  lyrics _ := false

def row (name : String) (modified : Int) : Row :=
  ⟨("/music/" ++ name).toList, modified, [("trackName", .text "Song".toList),
    ("format", .text "flac".toList), ("hasLyrics", .flag false)]⟩

/-- `Song.flac`, and the same song under another name. -/
def named : Folder := folder "Song.flac" 1700000000000

def renamed : Folder := folder "Other.flac" 1700000000000

/-- A song whose name looks like a track of a sheet. -/
def marked : Folder := folder "Song#track1.flac" 1700000000000

theorem named_fullScan : named.FullScan [row "Song.flac" 1700000000000] :=
  ⟨named.current, by decide, by decide⟩

theorem renamed_fullScan : renamed.FullScan [row "Other.flac" 1700000000000] :=
  ⟨renamed.current, by decide, by decide⟩

theorem marked_fullScan : marked.FullScan [row "Song#track1.flac" 1700000000000] :=
  ⟨marked.current, by decide, by decide⟩

theorem no_sheets : ∀ sheet ∈ renamed.current, isCue sheet.path ≠ true := by decide

end Example

/-- The delta of a song that has got another name is exact. -/
theorem agrees_iff_renamed : Agrees Example.named Example.renamed
    [Example.row "Song.flac" 1700000000000] [Example.row "Other.flac" 1700000000000] := by
  refine (agrees_iff Example.named_fullScan Example.renamed_fullScan).mpr
    ⟨by decide, by decide, by decide, ?_, ?_⟩
  · exact fun sheet here cue => absurd cue (Example.no_sheets sheet here)
  · exact fun sheet here cue => absurd cue (Example.no_sheets sheet here)

/-- Of a folder that has not changed at all, a song is reported as gone whose name looks like a
track of a sheet. -/
theorem delta_loses_marked :
    Example.marked.FullScan [Example.row "Song#track1.flac" 1700000000000] ∧
      ¬Agrees Example.marked Example.marked [Example.row "Song#track1.flac" 1700000000000]
        [Example.row "Song#track1.flac" 1700000000000] := by
  refine ⟨Example.marked_fullScan, fun agrees => ?_⟩
  have kept := agrees.kept ⟨"/music/Song#track1.flac".toList, 1700000000000, 4096⟩
    (by decide) ⟨"/music/Song#track1.flac".toList, 1700000000000, 4096⟩
    (by decide) rfl rfl (Example.row "Song#track1.flac" 1700000000000) (by decide)
  exact kept (by decide)

end LosslessMusic.Scanning
