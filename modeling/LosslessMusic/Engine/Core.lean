import LosslessMusic.Text
import Mathlib.Logic.Basic

/-!
# What the engine tells its core

`RustCore` as far as its settings go: each call that changes a setting either succeeds or
throws and changes nothing. The calls of one section under the lock consume the answers
of the core in order. The lease of the cover directory is left out.
-/

namespace LosslessMusic.Engine

/-- Code outside the sources: the JSON parser and the absolute paths. -/
structure Surroundings where
  /-- `RustJson.ids`, with `none` for what it throws. -/
  ids : String → Option (List String)
  /-- `JSONObject(text)` does not throw. -/
  isObject : String → Bool
  /-- `File(path).absolutePath`. -/
  absolutePath : String → String

/-- `File(path).canonicalPath` at one moment, with `none` for an exception. -/
abbrev Canonical := String → Option String

def Surroundings.idsOrNull (around : Surroundings) (json : String) :
    Option (Option (List String)) :=
  let trimmed := Text.strip json
  if trimmed = "" || trimmed = "null" then some none else (around.ids trimmed).map some

/-- The values that were last applied to a core. -/
structure Core where
  allowed : List String
  lyricsProviders : String
  lyricsOptions : String
  download : Option (List String)
  metadata : Option (List String)
  fallback : Option (Option (List String))
  cover : Option String
  deriving DecidableEq, Repr

namespace Core

/-- A new core with the lyrics settings the factory was given. -/
def create (lyricsProviders lyricsOptions : String) : Core where
  allowed := []
  lyricsProviders := lyricsProviders
  lyricsOptions := lyricsOptions
  download := none
  metadata := none
  fallback := none
  cover := none

/-- `setAllowedDownloadDirectories`. -/
def setAllowed (directories : List String) (core : Core) : Core :=
  { core with allowed := directories }

/-- `setLyricsProvidersJson`. -/
def setLyricsProviders (json : String) (core : Core) : Core :=
  { core with lyricsProviders := json }

/-- `setLyricsFetchOptionsJson`. -/
def setLyricsOptions (json : String) (core : Core) : Core :=
  { core with lyricsOptions := json }

/-- `setProviderPriority("download", ids)`. -/
def setDownload (ids : List String) (core : Core) : Core :=
  { core with download := some ids }

/-- `setProviderPriority("metadata", ids)`. -/
def setMetadata (ids : List String) (core : Core) : Core :=
  { core with metadata := some ids }

/-- `setFallbackProviders`. -/
def setFallback (ids : Option (List String)) (core : Core) : Core :=
  { core with fallback := some ids }

/-- `setLibraryCoverCacheDirectory`. -/
def setCover (directory : String) (core : Core) : Core :=
  { core with cover := some directory }

end Core

/-- A core and its answers to the calls to come: `false` throws. After them it does not
throw. -/
structure Talk where
  core : Core
  answers : List Bool
  deriving DecidableEq, Repr

namespace Talk

/-- One call of the core. An argument that cannot be computed throws before it. -/
def attempt (talk : Talk) : Option (Core → Core) → Bool × Talk
  | none => (false, talk)
  | some change =>
    match talk.answers with
    | [] => (true, { talk with core := change talk.core })
    | true :: rest => (true, ⟨change talk.core, rest⟩)
    | false :: rest => (false, ⟨talk.core, rest⟩)

/-- Calls one after the other until one throws. -/
def run (talk : Talk) : List (Option (Core → Core)) → Bool × Talk
  | [] => (true, talk)
  | change :: rest =>
    match talk.attempt change with
    | (true, next) => next.run rest
    | (false, next) => (false, next)

variable {talk next : Talk}

theorem attempt_spec {change : Option (Core → Core)} {ok : Bool}
    (attempted : talk.attempt change = (ok, next)) :
    if ok then ∃ apply, change = some apply ∧ next.core = apply talk.core
    else next.core = talk.core := by
  unfold attempt at attempted
  split at attempted
  · cases attempted
    rfl
  next apply =>
    split at attempted
    · cases attempted
      exact ⟨apply, rfl, rfl⟩
    · cases attempted
      exact ⟨apply, rfl, rfl⟩
    · cases attempted
      rfl

/-- If none of the calls throws, the first has changed the core and the others follow. -/
theorem run_cons {change : Option (Core → Core)} {rest : List (Option (Core → Core))}
    (ran : talk.run (change :: rest) = (true, next)) :
    ∃ (apply : Core → Core) (middle : Talk), change = some apply ∧ middle.core = apply talk.core ∧
      middle.run rest = (true, next) := by
  unfold run at ran
  split at ran
  next middle attempted =>
    obtain ⟨apply, isApply, changed⟩ := attempt_spec attempted
    exact ⟨apply, middle, isApply, changed, ran⟩
  · cases ran

theorem run_append {front rest : List (Option (Core → Core))}
    (ran : talk.run (front ++ rest) = (true, next)) :
    ∃ middle : Talk, talk.run front = (true, middle) ∧ middle.run rest = (true, next) := by
  induction front generalizing talk with
  | nil => exact ⟨talk, rfl, ran⟩
  | cons change others ih =>
    rw [List.cons_append] at ran
    unfold run at ran
    split at ran
    next middle attempted =>
      simp only [run, attempted]
      exact ih ran
    · cases ran

theorem run_optional {α : Type} {value : Option String} {parse : String → Option α}
    {set : α → Core → Core}
    (ran : talk.run (value.map fun json => (parse json).map set).toList = (true, next)) :
    next.core = (value.bind parse).elim talk.core fun parsed => set parsed talk.core := by
  cases value with
  | none =>
    obtain ⟨_, rfl⟩ := Prod.mk.inj ran
    rfl
  | some json =>
    obtain ⟨apply, middle, isApply, changed, rest⟩ := run_cons ran
    obtain ⟨_, rfl⟩ := Prod.mk.inj rest
    obtain ⟨parsed, isParsed, rfl⟩ := Option.map_eq_some_iff.mp isApply
    rw [changed, Option.bind_some, isParsed, Option.elim_some]

end Talk

/-- The settings that can be made before there is a core. -/
structure Settings where
  downloadDirs : List String
  lyricsProvidersJson : String
  lyricsOptionsJson : String
  downloadPriorityJson : Option String
  metadataPriorityJson : Option String
  fallbackIdsJson : Option String
  coverCacheDir : Option String
  deriving DecidableEq, Repr

/-- The settings of a new engine. -/
def Settings.initial : Settings where
  downloadDirs := []
  lyricsProvidersJson := "[]"
  lyricsOptionsJson := "\x7b\x7d"
  downloadPriorityJson := none
  metadataPriorityJson := none
  fallbackIdsJson := none
  coverCacheDir := none

section Directories

variable (around : Surroundings) (canonical : Canonical)

def aliases (directory : String) : Option (List String) :=
  (canonical directory).map fun path => [path, around.absolutePath directory].eraseDups

def allowList (directories : List String) : Option (List String) :=
  (directories.mapM (aliases around canonical)).map fun lists => lists.flatten.eraseDups

/-- `setAllowedDownloadDirectories(allowList())`. -/
def allowAll (directories : List String) : Option (Core → Core) :=
  (allowList around canonical directories).map Core.setAllowed

/-- The directories that the core accepts alone, and those it does not. -/
def tryEach (talk : Talk) : List String → Talk × List String × List String
  | [] => (talk, [], [])
  | directory :: rest =>
    match talk.attempt ((aliases around canonical directory).map Core.setAllowed) with
    | (true, next) =>
      let (last, surviving, dropped) := tryEach next rest
      (last, directory :: surviving, dropped)
    | (false, next) =>
      let (last, surviving, dropped) := tryEach next rest
      (last, surviving, directory :: dropped)

/-- The outcome of the first part of `applyConfig`: whether it returns, the directories
that are left, and those that were dropped. -/
structure Pruned where
  returns : Bool
  talk : Talk
  directories : List String
  dropped : List String

/-- The directories in `applyConfig`. -/
def applyDirectories (talk : Talk) (directories : List String) : Pruned :=
  match talk.attempt (allowAll around canonical directories) with
  | (true, next) => ⟨true, next, directories, []⟩
  | (false, next) =>
    match next.attempt (some (Core.setAllowed [])) with
    | (false, next) => ⟨false, next, directories, []⟩
    | (true, next) =>
      let (next, surviving, dropped) := tryEach around canonical next directories
      match next.attempt (allowAll around canonical surviving) with
      | (true, next) => ⟨true, next, surviving, dropped⟩
      | (false, next) =>
        let (returns, next) := next.attempt (some (Core.setAllowed []))
        ⟨returns, next, [], dropped ++ surviving⟩

/-- The calls of `openCoverLease`. -/
def coverChanges (directory : String) : List (Option (Core → Core)) :=
  [(aliases around canonical directory).map fun _ core => core, some (Core.setCover directory)]

/-- The calls of `applyConfig` behind the directories. -/
def replay (settings : Settings) : List (Option (Core → Core)) :=
  [some (Core.setLyricsProviders settings.lyricsProvidersJson),
    some (Core.setLyricsOptions settings.lyricsOptionsJson)] ++
  (settings.fallbackIdsJson.map fun json =>
    (around.idsOrNull json).map Core.setFallback).toList ++
  (settings.downloadPriorityJson.map fun json => (around.ids json).map Core.setDownload).toList ++
  (settings.metadataPriorityJson.map fun json => (around.ids json).map Core.setMetadata).toList ++
  (settings.coverCacheDir.map (coverChanges around canonical)).getD []

end Directories

end LosslessMusic.Engine
