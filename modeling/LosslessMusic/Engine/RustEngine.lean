import LosslessMusic.Engine.Core
import LosslessMusic.Transition.Machine
import LosslessMusic.Transition.Parties

/-!
# The engine and its initialization

`RustEngine` as far as `initExtensionSystem`, the setters and `loadExtensionsFromDir` go.
A section under the lock is one step with the answers the core gives in it; the factory
and `loadAll` run outside the lock.
-/

namespace LosslessMusic.Engine

inductive State
  | uninitialized
  | initializing
  | ready
  | failed
  deriving DecidableEq, Repr

/-- Which setters were last refused by the core after they had changed the buffer. -/
structure Refused where
  download : Bool
  metadata : Bool
  fallback : Bool
  deriving DecidableEq, Repr

/-- The recorded arguments an initialization runs with. -/
structure Arguments where
  extDir : String
  dataDir : String
  masterKey : String
  deriving DecidableEq, Repr

/-- Where a call of `initExtensionSystem` or `loadExtensionsFromDir` is. -/
inductive Point
  /-- Before the first section of `initExtensionSystem`. -/
  | entering (extDir dataDir : String)
  /-- Before `ensureRustCopy`. -/
  | isolating (arguments : Arguments)
  /-- Before the lyrics settings are read. -/
  | reading (arguments : Arguments)
  /-- The factory runs. -/
  | creating (arguments : Arguments) (lyrics : String × String)
  /-- Before `fail`. -/
  | failing (error : String)
  /-- Before the section that publishes the core. -/
  | applying (created : Core)
  /-- `initExtensionSystem` in `requireCore`. -/
  | requiring
  /-- `loadExtensionsFromDir` in `requireCore`. -/
  | loading (dirPath : String)
  /-- Before the directory is compared. -/
  | comparing (dirPath : String)
  /-- Before `loadAll`. -/
  | loadingAll
  /-- Before the section behind `loadAll`. -/
  | reapplying
  /-- The call has returned or thrown. -/
  | done
  deriving DecidableEq, Repr

/-- The fields of the engine, its calls in progress, and a record of the values that were
accepted, the setters that were refused and the directories that a creation has dropped
since they were accepted. -/
structure RustEngine where
  state : State
  failure : Option String
  core : Option Core
  masterKey : Option String
  goExtDir : Option String
  goDataDir : Option String
  settings : Settings
  calls : List Point
  accepted : Settings
  refused : Refused
  dropped : List String
  deriving DecidableEq, Repr

/-- The surroundings of one step: what is thrown, the canonical paths, the answers of the
core, and whether a wait has timed out. -/
structure Answer where
  thrown : Option String
  canonical : Canonical
  answers : List Bool
  timedOut : Bool

/-- What happens: a setter, a call that begins, or a step of a call. -/
inductive Event
  | setExtensionStorageMasterKey (masterKey : String)
  | setLyricsProviders (json : String) (answers : List Bool)
  | setLyricsFetchOptions (json : String) (answers : List Bool)
  | setDownloadPriority (json : String) (answers : List Bool)
  | setMetadataPriority (json : String) (answers : List Bool)
  | setDownloadFallbackProviderIds (json : String) (answers : List Bool)
  | addDownloadDir (path : String) (canonical : Canonical) (answers : List Bool)
  | setLibraryCoverCacheDir (cacheDir : String) (canonical : Canonical) (answers : List Bool)
  | initExtensionSystem (extDir dataDir : String)
  | loadExtensionsFromDir (dirPath : String)
  | call (position : Nat) (answer : Answer)

namespace RustEngine

/-- A new engine. -/
def new : RustEngine where
  state := .uninitialized
  failure := none
  core := none
  masterKey := none
  goExtDir := none
  goDataDir := none
  settings := .initial
  calls := []
  accepted := .initial
  refused := ⟨false, false, false⟩
  dropped := []

variable (around : Surroundings) (e : RustEngine)

/-- `recorded`: the first value is kept, and another one is refused. -/
def recorded (current : Option String) (value : String) : Option String :=
  if current = none || current = some value then some value else none

/-- The core, if the engine is ready. -/
def readyCore : Option Core :=
  if e.state = .ready then e.core else none

/-- One call of a core that is ready. -/
def tell (change : Option (Core → Core)) (answers : List Bool) : Bool × Option Core :=
  match e.readyCore with
  | none => (true, e.core)
  | some core =>
    let (ok, talk) := Talk.attempt ⟨core, answers⟩ change
    (ok, some talk.core)

/-! ## Setters -/

def setExtensionStorageMasterKey (masterKey : String) : RustEngine :=
  match recorded e.masterKey masterKey with
  | none => e
  | some key => { e with masterKey := some key }

/-- A setter that tells the core before it changes the buffer. -/
def tellFirst (buffer : Settings → Settings) (change : Core → Core) (answers : List Bool) :
    RustEngine :=
  let (ok, core) := e.tell (some change) answers
  if ok then { e with core, settings := buffer e.settings, accepted := buffer e.accepted }
  else { e with core }

/-- A setter that changes the buffer before it tells the core. -/
def bufferFirst (buffer : Settings → Settings) (mark : Bool → Refused → Refused)
    (change : Core → Core) (answers : List Bool) : RustEngine :=
  let (ok, core) := e.tell (some change) answers
  { e with
    core
    settings := buffer e.settings
    accepted := if ok then buffer e.accepted else e.accepted
    refused := mark (!ok) e.refused }

def setLyricsProviders (json : String) (answers : List Bool) : RustEngine :=
  match around.ids json with
  | none => e
  | some _ =>
    e.tellFirst ({ · with lyricsProvidersJson := json }) (Core.setLyricsProviders json) answers

def setLyricsFetchOptions (json : String) (answers : List Bool) : RustEngine :=
  if around.isObject json then
    e.tellFirst ({ · with lyricsOptionsJson := json }) (Core.setLyricsOptions json) answers
  else e

def setDownloadPriority (json : String) (answers : List Bool) : RustEngine :=
  match around.ids json with
  | none => e
  | some ids =>
    e.bufferFirst ({ · with downloadPriorityJson := some json })
      (fun refused => ({ · with download := refused })) (Core.setDownload ids) answers

def setMetadataPriority (json : String) (answers : List Bool) : RustEngine :=
  match around.ids json with
  | none => e
  | some ids =>
    e.bufferFirst ({ · with metadataPriorityJson := some json })
      (fun refused => ({ · with metadata := refused })) (Core.setMetadata ids) answers

def setDownloadFallbackProviderIds (json : String) (answers : List Bool) : RustEngine :=
  match around.idsOrNull json with
  | none => e
  | some ids =>
    e.bufferFirst ({ · with fallbackIdsJson := some json })
      (fun refused => ({ · with fallback := refused })) (Core.setFallback ids) answers

/-- `add` of a `LinkedHashSet`. -/
def addDirectory (directory : String) (settings : Settings) : Settings :=
  if directory ∈ settings.downloadDirs then settings
  else { settings with downloadDirs := settings.downloadDirs ++ [directory] }

/-- `addDownloadDir`, which takes the directory out again if the core throws. -/
def addDownloadDir (path : String) (canonical : Canonical) (answers : List Bool) : RustEngine :=
  if Text.isBlank path then e
  else
    let directory := around.absolutePath path
    let settings := addDirectory directory e.settings
    let accepted := addDirectory directory e.accepted
    let dropped := e.dropped.filter (· ≠ directory)
    match e.readyCore with
    | none => { e with settings, accepted, dropped }
    | some core =>
      match Talk.attempt ⟨core, answers⟩ (allowAll around canonical settings.downloadDirs) with
      | (true, talk) =>
        { e with core := some talk.core, settings, accepted, dropped }
      | (false, talk) =>
        let restored := talk.attempt (allowAll around canonical e.settings.downloadDirs)
        { e with core := some restored.2.core }

/-- `setLibraryCoverCacheDir`, which logs what the core throws. -/
def setLibraryCoverCacheDir (cacheDir : String) (canonical : Canonical) (answers : List Bool) :
    RustEngine :=
  if Text.isBlank cacheDir then e
  else
    let settings := { e.settings with coverCacheDir := some cacheDir }
    let accepted := { e.accepted with coverCacheDir := some cacheDir }
    match e.readyCore with
    | none => { e with settings, accepted }
    | some core =>
      match Talk.run ⟨core, answers⟩ (coverChanges around canonical cacheDir) with
      | (true, talk) => { e with core := some talk.core, settings, accepted }
      | (false, talk) => { e with core := some talk.core, settings }

/-! ## Initialization and loading -/

/-- The first section of `initExtensionSystem`. -/
def enter (extDir dataDir : String) (canonical : Canonical) : RustEngine × Point :=
  match (canonical extDir).bind (recorded e.goExtDir) with
  | none => (e, .done)
  | some goExtDir =>
    let withExt := { e with goExtDir := some goExtDir }
    match (canonical dataDir).bind (recorded e.goDataDir) with
    | none => (withExt, .done)
    | some goDataDir =>
      let next := { withExt with goDataDir := some goDataDir }
      match e.state with
      | .ready => (next, .done)
      | .initializing => (next, .requiring)
      | .uninitialized | .failed =>
        match e.masterKey with
        | none => (next, .done)
        | some masterKey =>
          ({ next with state := .initializing }, .isolating ⟨goExtDir, goDataDir, masterKey⟩)

/-- `failLocked`. -/
def fail (error : String) : RustEngine :=
  { e with state := .failed, failure := some error }

/-- The section that applies the configuration and publishes the core. -/
def publish (created : Core) (answer : Answer) : RustEngine :=
  let pruned := applyDirectories around answer.canonical ⟨created, answer.answers⟩
    e.settings.downloadDirs
  let next := { e with
    settings := { e.settings with downloadDirs := pruned.directories }
    dropped := e.dropped ++ pruned.dropped }
  if pruned.returns then
    match pruned.talk.run (replay around answer.canonical next.settings) with
    | (true, talk) => { next with state := .ready, core := some talk.core, failure := none }
    | (false, _) => next.fail (answer.thrown.getD "")
  else next.fail (answer.thrown.getD "")

/-- The section of `loadExtensionsFromDir` behind `loadAll`, which logs what the core
throws. -/
def reapply (core : Core) (answers : List Bool) : Core :=
  let again (talk : Talk) (change : Option (Option (Core → Core))) : Talk :=
    match change with
    | none => talk
    | some change => (talk.attempt change).2
  let talk := again ⟨core, answers⟩ (e.settings.downloadPriorityJson.map fun json =>
    (around.ids json).map Core.setDownload)
  let talk := again talk (e.settings.metadataPriorityJson.map fun json =>
    (around.ids json).map Core.setMetadata)
  (again talk (e.settings.fallbackIdsJson.map fun json =>
    (around.idsOrNull json).map Core.setFallback)).core

/-- `requireCore`: the call goes on, ends with an exception, or waits. -/
def require (waiting onward : Point) (answer : Answer) : Point :=
  if e.state = .ready then onward
  else if e.state = .failed || answer.timedOut then .done
  else waiting

/-- One step of a call. -/
def act (answer : Answer) : Point → Option (RustEngine × Point)
  | .entering extDir dataDir => some (e.enter extDir dataDir answer.canonical)
  | .isolating arguments =>
    match answer.thrown with
    | none => some (e, .reading arguments)
    | some error => some (e, .failing error)
  | .reading arguments =>
    some (e, .creating arguments (e.settings.lyricsProvidersJson, e.settings.lyricsOptionsJson))
  | .creating _ lyrics =>
    match answer.thrown with
    | none => some (e, .applying (.create lyrics.1 lyrics.2))
    | some error => some (e, .failing error)
  | .failing error => some (e.fail error, .done)
  | .applying created => some (e.publish around created answer, .done)
  | .requiring => some (e, e.require .requiring .done answer)
  | .loading dirPath => some (e, e.require (.loading dirPath) (.comparing dirPath) answer)
  | .comparing dirPath =>
    if answer.canonical dirPath = e.goExtDir then some (e, .loadingAll) else some (e, .done)
  | .loadingAll =>
    match answer.thrown with
    | none => some (e, .reapplying)
    | some _ => some (e, .done)
  | .reapplying =>
    e.core.map fun core => ({ e with core := some (e.reapply around core answer.answers) }, .done)
  | .done => none

/-- One step. -/
def step (e : RustEngine) : Event → Option RustEngine
  | .setExtensionStorageMasterKey masterKey => some (e.setExtensionStorageMasterKey masterKey)
  | .setLyricsProviders json answers => some (e.setLyricsProviders around json answers)
  | .setLyricsFetchOptions json answers => some (e.setLyricsFetchOptions around json answers)
  | .setDownloadPriority json answers => some (e.setDownloadPriority around json answers)
  | .setMetadataPriority json answers => some (e.setMetadataPriority around json answers)
  | .setDownloadFallbackProviderIds json answers =>
    some (e.setDownloadFallbackProviderIds around json answers)
  | .addDownloadDir path canonical answers =>
    some (e.addDownloadDir around path canonical answers)
  | .setLibraryCoverCacheDir cacheDir canonical answers =>
    some (e.setLibraryCoverCacheDir around cacheDir canonical answers)
  | .initExtensionSystem extDir dataDir =>
    some { e with calls := e.calls ++ [.entering extDir dataDir] }
  | .loadExtensionsFromDir dirPath => some { e with calls := e.calls ++ [.loading dirPath] }
  | .call position answer =>
    (e.calls[position]?).bind fun point =>
      (e.act around answer point).map fun moved =>
        { moved.1 with calls := e.calls.set position moved.2 }

/-- The machine of the engine. -/
def machine : Transition.Machine RustEngine Event where
  Start := (· = new)
  step := step around

end RustEngine

end LosslessMusic.Engine
