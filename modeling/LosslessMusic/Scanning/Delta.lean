import LosslessMusic.Scanning.LibraryScan
import Mathlib.Data.List.Nodup

/-!
# What an incremental scan finds

The rows of a folder by the files they belong to, and when a delta of two states of a folder leaves
the rows of the second one.
-/

namespace LosslessMusic.Scanning

namespace Folder

variable {folder : Folder}

/-- The file of a folder at a path. -/
def fileAt (folder : Folder) (path : Path) : Option AudioFile :=
  folder.current.find? (·.path = path)

/-- The rows of a folder's file at a path. -/
def rowsAt (folder : Folder) (path : Path) : List Row := (folder.fileAt path).elim [] folder.rowsOf

/-! ## Files and their rows -/

variable {file : AudioFile}

theorem supported_of_mem (here : file ∈ folder.current) : supported file.path = true := by
  have known := (List.mem_filter.mp here).2
  exact (Bool.and_eq_true_iff.mp known).1

theorem nodup_paths (folder : Folder) : (folder.current.map (·.path)).Nodup :=
  (List.filter_sublist.map _).nodup folder.distinct

theorem fileAt_of_mem (here : file ∈ folder.current) : folder.fileAt file.path = some file := by
  rw [fileAt, List.find?_eq_some_iff_append]
  obtain ⟨before, after, same⟩ := List.append_of_mem here
  refine ⟨by simp, before, after, same, fun other there => ?_⟩
  have nodup := folder.nodup_paths
  rw [same, List.map_append, List.map_cons] at nodup
  have apart := (List.nodup_append.mp nodup).2.2 other.path (List.mem_map_of_mem there)
    file.path List.mem_cons_self
  simpa using apart

variable {path : Path}

theorem fileAt_eq_some (found : folder.fileAt path = some file) :
    file ∈ folder.current ∧ file.path = path := by
  have known := List.find?_some found
  exact ⟨List.mem_of_find?_eq_some found, by simpa using known⟩

theorem mem_paths : path ∈ folder.paths ↔ (folder.fileAt path).isSome = true := by
  constructor
  · intro member
    obtain ⟨file, here, rfl⟩ := List.mem_map.mp member
    rw [fileAt_of_mem here]
    rfl
  · intro found
    obtain ⟨file, here⟩ := Option.isSome_iff_exists.mp found
    obtain ⟨member, rfl⟩ := fileAt_eq_some here
    exact List.mem_map_of_mem member

/-- The rows of a sheet are its tracks, with its modification time. -/
theorem mem_cueRows {row : Row} (member : row ∈ folder.cueRows file) :
    row.fileModTime = file.modified ∧ ∃ number, row.filePath = trackPath file.path number := by
  have sheets {sheet : CueSheet} {audio : Path}
      (member : row ∈ folder.scanCueSheet file sheet audio) :
      row.fileModTime = file.modified ∧ ∃ number, row.filePath = trackPath file.path number := by
    obtain ⟨time, track, _, same⟩ := mem_cueLibraryRows member
    exact ⟨time, track.number, same⟩
  unfold cueRows at member
  split at member
  · exact sheets member
  · unfold scanCueFileForLibrary at member
    cases parsed : folder.sheet file.path with
    | error message =>
      rw [parsed] at member
      cases member
    | ok sheet =>
      rw [parsed] at member
      change row ∈ ((folder.resolveCueAudio file.path sheet.fileName >>= fun audio =>
        .ok (folder.scanCueSheet file sheet audio)).toOption.getD []) at member
      cases resolved : folder.resolveCueAudio file.path sheet.fileName with
      | error message =>
        rw [resolved] at member
        cases member
      | ok audio =>
        rw [resolved] at member
        exact sheets member

theorem rowsOf_cue (cue : isCue file.path = true) :
    folder.rowsOf file = folder.cueRows file := if_pos cue

theorem rowsOf_audio (audio : isCue file.path = false) :
    folder.rowsOf file = if folder.single file then [folder.scanAudioFile file] else [] := by
  rw [rowsOf, single, audio]
  cases folder.referenced.contains file.path <;> rfl

theorem owner_of_mem {row : Row} (here : file ∈ folder.current)
    (member : row ∈ folder.rowsOf file) : owner row.filePath = file.path := by
  cases cue : isCue file.path with
  | true =>
    rw [rowsOf_cue cue] at member
    obtain ⟨_, number, same⟩ := mem_cueRows member
    rw [same, owner_trackPath cue]
  | false =>
    rw [rowsOf_audio cue] at member
    split at member
    · obtain rfl := List.mem_singleton.mp member
      exact owner_supported (supported_of_mem here)
    · cases member

/-- The row that some files leave for a path is that of its owner. -/
theorem stored_flatMap {files : List AudioFile} (nodup : files.Nodup)
    (within : ∀ file ∈ files, file ∈ folder.current) (path : Path) :
    stored (files.flatMap folder.rowsOf) path = (folder.fileAt (owner path)).bind fun file =>
      if file ∈ files then stored (folder.rowsOf file) path else none := by
  have others {some : List AudioFile} (part : ∀ file ∈ some, file ∈ files)
      (apart : ∀ file ∈ some, file.path ≠ owner path) :
      stored (some.flatMap folder.rowsOf) path = none := by
    refine stored_eq_none.mpr fun row member same => ?_
    obtain ⟨file, there, mine⟩ := List.mem_flatMap.mp member
    exact apart file there ((owner_of_mem (within file (part file there)) mine).symm.trans
      (congrArg owner same))
  cases found : folder.fileAt (owner path) with
  | none =>
    refine others (fun _ => id) fun file there same => ?_
    rw [← same, fileAt_of_mem (within file there)] at found
    cases found
  | some file =>
    obtain ⟨here, named⟩ := fileAt_eq_some found
    have unique (other : AudioFile) (there : other ∈ files) (same : other.path = owner path) :
        other = file := by
      rw [← same, fileAt_of_mem (within other there)] at found
      exact Option.some.inj found
    rw [Option.bind_some]
    split
    next member =>
      obtain ⟨before, after, rfl⟩ := List.append_of_mem member
      have apart := List.nodup_middle.mp nodup
      rw [List.nodup_cons, List.mem_append, not_or] at apart
      rw [List.flatMap_append, List.flatMap_cons, stored_append, stored_append,
        others (fun other there => List.mem_append_left _ there),
        others (fun other there => List.mem_append_right _ (List.mem_cons_of_mem _ there))]
      · simp
      · intro other there same
        obtain rfl := unique other (List.mem_append_right _ (List.mem_cons_of_mem _ there)) same
        exact apart.1.2 there
      · intro other there same
        obtain rfl := unique other (List.mem_append_left _ there) same
        exact apart.1.1 there
    next absent =>
      refine others (fun _ => id) fun other there same => ?_
      obtain rfl := unique other there same
      exact absent there

/-! ## The rows of scans -/

theorem nodup_current (folder : Folder) : folder.current.Nodup := folder.nodup_paths.of_map _

theorem rowsOf_of_hidden (cue : isCue file.path = false)
    (hidden : folder.single file = false) : folder.rowsOf file = [] := by
  rw [rowsOf_audio cue, hidden]
  rfl

theorem stored_fullScan {rows : List Row} (full : folder.FullScan rows) (path : Path) :
    stored rows path = stored (folder.rowsAt (owner path)) path := by
  obtain ⟨finished, order, rfl⟩ := full
  have apart : (folder.current.filter (isCue ·.path) ++ finished).Nodup := by
    refine List.nodup_append.mpr ⟨folder.nodup_current.filter _,
      order.nodup_iff.mpr (folder.nodup_current.filter _), fun file sheet other there => ?_⟩
    have cue := (List.mem_filter.mp sheet).2
    have audio := (List.mem_filter.mp (order.mem_iff.mp there)).2
    rintro rfl
    rw [single, cue] at audio
    cases audio
  have within (file : AudioFile)
      (member : file ∈ folder.current.filter (isCue ·.path) ++ finished) :
      file ∈ folder.current := by
    rcases List.mem_append.mp member with sheet | audio
    · exact (List.mem_filter.mp sheet).1
    · exact (List.mem_filter.mp (order.mem_iff.mp audio)).1
  rw [stored_flatMap apart within, rowsAt]
  cases found : folder.fileAt (owner path) with
  | none => rfl
  | some file =>
    have here := (fileAt_eq_some found).1
    rw [Option.bind_some, Option.elim_some]
    split
    · rfl
    next absent =>
      rw [List.mem_append, not_or, List.mem_filter, order.mem_iff, List.mem_filter] at absent
      have audio : isCue file.path = false := Bool.eq_false_iff.mpr fun cue =>
        absent.1 ⟨here, cue⟩
      have hidden : folder.single file = false := Bool.eq_false_iff.mpr fun shown =>
        absent.2 ⟨here, shown⟩
      rw [rowsOf_of_hidden audio hidden]
      rfl

theorem stored_scanned (existing : Times) (path : Path) :
    stored (folder.incremental existing).scanned path =
      (folder.fileAt (owner path)).bind fun file =>
        if skips existing file then none else stored (folder.rowsOf file) path := by
  have within (file : AudioFile)
      (member : file ∈ folder.current.filter fun file => !skips existing file) :
      file ∈ folder.current := (List.mem_filter.mp member).1
  rw [incremental, stored_flatMap (folder.nodup_current.filter _) within]
  cases found : folder.fileAt (owner path) with
  | none => rfl
  | some file =>
    have here := (fileAt_eq_some found).1
    simp only [Option.bind_some, List.mem_filter, here, true_and, Bool.not_eq_true']
    cases skips existing file <;> rfl

/-- The row of an audio file. -/
def shown (folder : Folder) (path : Path) : Option AudioFile :=
  (folder.fileAt path).filter folder.single

theorem shown_eq_some : folder.shown path = some file ↔
      file ∈ folder.current ∧ file.path = path ∧ folder.single file = true := by
  rw [shown, Option.filter_eq_some_iff]
  constructor
  · rintro ⟨found, alone⟩
    obtain ⟨here, named⟩ := fileAt_eq_some found
    exact ⟨here, named, alone⟩
  · rintro ⟨here, rfl, alone⟩
    exact ⟨fileAt_of_mem here, alone⟩

theorem stored_rowsOf_audio (audio : isCue file.path = false) :
    stored (folder.rowsOf file) file.path =
      if folder.single file then some (folder.scanAudioFile file) else none := by
  rw [rowsOf_audio audio]
  split
  · rw [stored_singleton]
    exact if_pos rfl
  · rfl

theorem stored_rowsAt_audio (audio : isCue path = false) :
    stored (folder.rowsAt path) path = (folder.shown path).map folder.scanAudioFile := by
  rw [rowsAt, shown]
  cases found : folder.fileAt path with
  | none => rfl
  | some file =>
    obtain ⟨_, rfl⟩ := fileAt_eq_some found
    rw [Option.elim_some, stored_rowsOf_audio audio, Option.filter_some]
    split <;> rfl

theorem stored_rowsAt_cue (cue : isCue path = true) : stored (folder.rowsAt path) path = none := by
  refine stored_eq_none.mpr fun row member same => ?_
  rw [rowsAt] at member
  cases found : folder.fileAt path with
  | none =>
    rw [found] at member
    cases member
  | some file =>
    obtain ⟨_, rfl⟩ := fileAt_eq_some found
    rw [found, Option.elim_some, rowsOf_cue cue] at member
    obtain ⟨_, number, named⟩ := mem_cueRows member
    have unknown := supported_trackPath cue number
    rw [← named, same, supported_of_isCue cue] at unknown
    cases unknown

/-- Only sheets have rows under a path that is no file's. -/
theorem stored_rowsAt_track (track : supported path = false)
    (audio : isCue (owner path) = false) : stored (folder.rowsAt (owner path)) path = none := by
  refine stored_eq_none.mpr fun row member same => ?_
  rw [rowsAt] at member
  cases found : folder.fileAt (owner path) with
  | none =>
    rw [found] at member
    cases member
  | some file =>
    obtain ⟨here, named⟩ := fileAt_eq_some found
    rw [found, Option.elim_some, rowsOf_audio (named.symm ▸ audio)] at member
    split at member
    · obtain rfl := List.mem_singleton.mp member
      have known := supported_of_mem here
      rw [show file.path = path from same, track] at known
      cases known
    · cases member

end Folder

end LosslessMusic.Scanning
