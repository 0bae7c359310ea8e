import LosslessMusic.Extensions.OutputLocks

/-!
# Output files by path

`files.rs` on Unix: a path is resolved below a granted root, and its lock is found by the
lower case of the path that is shown. `resolve` shows a cleaned path; `resolve_legacy`
shows an absolute path as it was spelled.
-/

namespace LosslessMusic.Extensions.Outputs

open Transition (Machine)

inductive Component
  | rootDir
  | curDir
  | parentDir
  | normal (name : List Char)
  deriving DecidableEq, Repr

/-- The text of a path. -/
abbrev PathText := List Char

def isAbsolute (path : PathText) : Bool :=
  path.head? = some '/'

/-- `Path::components`; `.` counts only where a relative path begins with it. -/
def components (path : PathText) : List Component :=
  (if isAbsolute path then [.rootDir] else []) ++
    (path.splitOn '/').zipIdx.filterMap fun (part, index) =>
      if part = [] then none
      else if part = ['.'] then
        if index = 0 && !isAbsolute path then some .curDir else none
      else if part = ['.', '.'] then some .parentDir
      else some (.normal part)

/-- The name of a component. -/
def Component.text : Component → PathText
  | rootDir => ['/']
  | curDir => ['.']
  | parentDir => ['.', '.']
  | normal name => name

/-- The text of a path that was made of components. -/
def render : List Component → PathText
  | .rootDir :: rest => '/' :: ['/'].intercalate (rest.map Component.text)
  | path => ['/'].intercalate (path.map Component.text)

/-- What `clean` adds to its result for one component. -/
def push (result : List Component) : Component → List Component
  | .curDir => result
  | .parentDir =>
    match result.getLast? with
    | some (.normal _) => result.dropLast
    | _ => if result.head? = some .rootDir then result else result ++ [.parentDir]
  | component => result ++ [component]

def clean (path : List Component) : List Component :=
  let result := path.foldl push []
  if result = [] then [.curDir] else result

structure Root where
  path : List Component
  deriving DecidableEq, Repr

/-- `FileRegistry`, without the locks. -/
structure FileRegistry where
  allowed : List Root := []
  temporary : List Root := []

structure ExtensionFiles where
  root : Root
  legacy_alias : Option (List Component) := none

structure FilePath where
  root : Root
  absolute : PathText
  relative : List Component
  deriving DecidableEq, Repr

namespace ExtensionFiles

variable (files : ExtensionFiles) (registry : FileRegistry)

/-- `resolve`; the path was split into components. -/
def resolve (path : List Component) : Option FilePath :=
  let input := clean path
  let found : Option (Root × List Component) :=
    if input.head? = some .rootDir then
      ((registry.allowed ++ registry.temporary).find? (·.path.isPrefixOf input)).map (·, input)
    else
      let absolute := clean (files.root.path ++ input)
      if files.root.path.isPrefixOf absolute then some (files.root, absolute) else none
  found.map fun (root, absolute) =>
    let relative := absolute.drop root.path.length
    { root
      absolute := render absolute
      relative := if relative = [] then [.curDir] else relative }

/-- `resolve_legacy`; `canonicalize` answers for the directories there are. -/
def resolveLegacy (canonicalize : List Component → Option (List Component)) (path : PathText) :
    Option FilePath :=
  let original := path
  let path := clean (components original)
  let shown (resolved : FilePath) : FilePath :=
    if isAbsolute original then { resolved with absolute := original } else resolved
  if path.head? = some .rootDir then
    match ([files.root.path] ++ files.legacy_alias.toList).find? (·.isPrefixOf path) with
    | some root =>
      if root ≠ files.root.path &&
          !((canonicalize root).isSome && canonicalize root = canonicalize files.root.path) then
        none
      else ((files.resolve registry (path.drop root.length)).map shown)
    | none => (files.resolve registry path).map shown
  else (files.resolve registry path).map shown

end ExtensionFiles

/-- A path as it comes to the files. -/
inductive Request
  | resolve (path : PathText)
  | resolve_legacy (path : PathText)
  deriving DecidableEq, Repr

section

variable (files : ExtensionFiles) (registry : FileRegistry)
variable (canonicalize : List Component → Option (List Component))
variable (toLowercase : PathText → PathText)

/-- The path that a request resolves to. -/
def Request.file : Request → Option FilePath
  | resolve path => files.resolve registry (components path)
  | resolve_legacy path => files.resolveLegacy registry canonicalize path

/-- The key of a lock, a path by its components. -/
def FilePath.key (path : FilePath) : List Component :=
  components (toLowercase path.absolute)

/-- The paths are the same below the same root, in whatever case. -/
def SameFile (path other : FilePath) : Prop :=
  path.root = other.root ∧ components (toLowercase (render path.relative)) =
      components (toLowercase (render other.relative))

/-- The absolute path of a cleaned one. -/
def cleaned (path : List Component) : PathText :=
  let input := clean path
  render (if input.head? = some .rootDir then input else clean (files.root.path ++ input))

/-- How a request spells its path: cleaned, if it is not an absolute one for
`resolve_legacy`. -/
def Request.spelled : Request → PathText
  | resolve path => cleaned files (components path)
  | resolve_legacy path =>
    if isAbsolute path then path else cleaned files (clean (components path))

end

variable {files : ExtensionFiles} {registry : FileRegistry}
variable {canonicalize : List Component → Option (List Component)}

theorem resolve_absolute {path : List Component} {file : FilePath}
    (resolved : files.resolve registry path = some file) : file.absolute = cleaned files path := by
  obtain ⟨⟨root, absolute⟩, found, rfl⟩ := Option.map_eq_some_iff.mp resolved
  unfold cleaned
  dsimp only
  split at found
  next rooted =>
    obtain ⟨granted, -, same⟩ := Option.map_eq_some_iff.mp found
    cases same
    rw [if_pos rooted]
  next relative =>
    dsimp only at found
    split at found
    · cases found
      rw [if_neg relative]
    · cases found

theorem rootDir_notMem_push {result : List Component} {component : Component}
    (relative : .rootDir ∉ result) (other : component ≠ .rootDir) :
    .rootDir ∉ push result component := by
  unfold push
  split
  · exact relative
  · split
    · exact fun member => relative (List.dropLast_subset _ member)
    · split
      · exact relative
      · rw [List.mem_append, List.mem_singleton]
        exact not_or.mpr ⟨relative, nofun⟩
  · rw [List.mem_append, List.mem_singleton]
    exact not_or.mpr ⟨relative, Ne.symm other⟩

theorem clean_relative {path : PathText} (relative : isAbsolute path = false) :
    (clean (components path)).head? ≠ some .rootDir := by
  have plain : ∀ component ∈ components path, component ≠ .rootDir := by
    intro component member
    unfold components at member
    rw [relative, if_neg Bool.false_ne_true, List.nil_append, List.mem_filterMap] at member
    obtain ⟨⟨part, index⟩, -, isComponent⟩ := member
    rintro rfl
    dsimp only at isComponent
    repeat' split at isComponent
    all_goals cases isComponent
  have kept : .rootDir ∉ (components path).foldl push [] :=
    List.foldlRecOn (components path) push (motive := fun result => .rootDir ∉ result)
      List.not_mem_nil fun result holds component member =>
        rootDir_notMem_push holds (plain component member)
  unfold clean
  dsimp only
  split
  · exact nofun
  · exact fun rooted => kept (List.mem_of_mem_head? rooted)

theorem file_absolute {request : Request} {file : FilePath}
    (accepted : request.file files registry canonicalize = some file) :
    file.absolute = request.spelled files := by
  cases request with
  | resolve path => exact resolve_absolute accepted
  | resolve_legacy path =>
    simp only [Request.spelled]
    simp only [Request.file, ExtensionFiles.resolveLegacy] at accepted
    have shown {resolved : Option FilePath} (isFile : (resolved.map fun resolved =>
          ({ resolved with absolute := path } : FilePath)) = some file) : file.absolute = path := by
      obtain ⟨before, -, rfl⟩ := Option.map_eq_some_iff.mp isFile
      rfl
    cases absolute : isAbsolute path with
    | true =>
      rw [if_pos rfl]
      split at accepted
      · split at accepted
        · split at accepted
          · cases accepted
          · exact shown accepted
        · exact shown accepted
      · exact shown accepted
    | false =>
      rw [if_neg (clean_relative absolute), Option.map_eq_some_iff] at accepted
      obtain ⟨resolved, isResolved, rfl⟩ := accepted
      simp only [absolute, Bool.false_eq_true, if_false]
      exact resolve_absolute isResolved

/-- No two threads have the outputs of these paths at once. -/
def Excludes (toLowercase : PathText → PathText) (path other : FilePath) : Prop :=
  ∀ s, Locks.machine.Reachable Machine.anyStep s →
    ¬s.BothHeld (path.key toLowercase) (other.key toLowercase)

/-- A file is locked once if, and only if, its spellings agree as paths in lower case; a
guard is granted only where the check has passed. -/
theorem excludes_iff (toLowercase : PathText → PathText) {files other : ExtensionFiles}
    {request second : Request} {file otherFile : FilePath}
    (accepted : request.file files registry canonicalize = some file)
    (otherAccepted : second.file other registry canonicalize = some otherFile) :
    ((SameFile toLowercase file otherFile → Excludes toLowercase file otherFile) ↔
      (SameFile toLowercase file otherFile → components (toLowercase (request.spelled files)) =
          components (toLowercase (second.spelled other)))) ∧
    ∀ (s next : Locks (List Component)) event, s.step event = some next →
      ∀ (i : Nat) call lock, next.calls[i]? = some call → call.phase = .held lock →
        s.calls[i]? = some call ∨ event = .attempt i true := by
  rw [← file_absolute accepted, ← file_absolute otherAccepted]
  refine ⟨imp_congr_right fun _ => ⟨fun excludes => ?_, fun same s reachable => ?_⟩,
    fun s next event stepped i call lock found holds => Locks.granted stepped found holds⟩
  · by_contra different
    obtain ⟨s, reachable, both⟩ := Locks.bothHeld_reachable different
    exact excludes s reachable both
  · rw [show otherFile.key toLowercase = file.key toLowercase from same.symm]
    exact (Locks.sound_of_reachable reachable).exclusive _

/-- Files below `/music`. -/
def musicFiles : ExtensionFiles where
  root := ⟨[.rootDir, .normal "music".toList]⟩

/-- A spelling with other slashes and in upper case. -/
theorem excludes_iff_slashes : Excludes (·.map Char.toLower)
    ⟨musicFiles.root, "/music/a.flac".toList, [.normal "a.flac".toList]⟩
    ⟨musicFiles.root, "/music//./A.flac".toList, [.normal "A.flac".toList]⟩ :=
  (excludes_iff (·.map Char.toLower)
    (by decide : Request.file musicFiles {} some (.resolve_legacy "/music/a.flac".toList) =
      some ⟨musicFiles.root, "/music/a.flac".toList, [.normal "a.flac".toList]⟩)
    (by decide : Request.file musicFiles {} some (.resolve_legacy "/music//./A.flac".toList) =
      some ⟨musicFiles.root, "/music//./A.flac".toList, [.normal "A.flac".toList]⟩)).1.mpr
    (fun _ => by decide) ⟨rfl, by decide⟩

/-- Two spellings of one file that are locked apart. -/
theorem excludes_not : ¬∀ (files : ExtensionFiles) (registry : FileRegistry)
    (canonicalize : List Component → Option (List Component)) (request second : Request)
    (file other : FilePath), request.file files registry canonicalize = some file →
    second.file files registry canonicalize = some other →
    SameFile (·.map Char.toLower) file other → Excludes (·.map Char.toLower) file other := by
  intro excludes
  have never := excludes musicFiles {} some (.resolve_legacy "/music/x/../a.flac".toList)
    (.resolve_legacy "/music/a.flac".toList)
    ⟨musicFiles.root, "/music/x/../a.flac".toList, [.normal "a.flac".toList]⟩
    ⟨musicFiles.root, "/music/a.flac".toList, [.normal "a.flac".toList]⟩
    (by decide) (by decide) ⟨rfl, rfl⟩
  have apart : FilePath.key (·.map Char.toLower)
      ⟨musicFiles.root, "/music/x/../a.flac".toList, [.normal "a.flac".toList]⟩ ≠
      FilePath.key (·.map Char.toLower)
        ⟨musicFiles.root, "/music/a.flac".toList, [.normal "a.flac".toList]⟩ := by
    decide
  obtain ⟨s, reachable, both⟩ := Locks.bothHeld_reachable apart
  exact never s reachable both

end LosslessMusic.Extensions.Outputs
