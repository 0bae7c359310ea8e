import LosslessMusic.Extensions.SourceFiles

/-!
# Installing, upgrading, removing and loading extensions

One operation at a time, as a program over the source directory and the registry. A
temporary directory is removed when the program that made it is done with it.
-/

namespace LosslessMusic.Extensions.Sources

open Interruption
open Store (Bytes bytesOf)

/-- `ManagerError`, by its texts. -/
inductive ManagerError
  | closed
  | package
  | alreadyInstalled
  | downgrade
  | upToDate
  | notInstalled
  | notFound
  | directoryExists
  | staging
  | extraction
  | validation
  | backup
  | preserve
  | activate
  /-- The previous source is preserved under this name. -/
  | rollback (backup : Name)
  | unmanaged
  | removal
  | reading
  | manifest
  | missingIndex
  | mismatched
  deriving DecidableEq

/-- What an operation ends with. -/
abbrev Action (parse : Parser) := Program Request (Request.Answer parse) ManagerError

section Operations

variable {parse : Parser}

/-- A request whose failure ends the operation. -/
def ask (asked : Request) (error : ManagerError) : Action parse (asked.Answer parse) :=
  Program.ask asked error

/-- A request whose failure is looked at. -/
def attempt (asked : Request) : Action parse (Option (asked.Answer parse)) :=
  Program.attempt asked

def check : Action parse Unit := ask .check .closed

/-- An entry of the registry. -/
def entry (id : Name) : Action parse (Option Installed) := ask (.entry id) .notFound

/-- `TempDir::drop`. -/
def discard (name : Name) : Action parse Unit := do
  let _ ← attempt (.remove name)
  pure ()

/-- A program that is done with a temporary directory at its end. -/
def discarding {α : Type} (name : Name) (body : Action parse α) : Action parse α := do
  let result ← body.outcome
  discard name
  .ofExcept result

/-- The temporary names for an extension, before their random end. -/
def temporaryStart (id : Name) (kind : String) : Name :=
  46 :: (id ++ bytesOf "-" ++ bytesOf kind ++ bytesOf "-")

/-- `tempdir_in`. -/
def tempdir (id : Name) (kind : String) (error : ManagerError) : Action parse Name :=
  ask (.tempdir (temporaryStart id kind)) error

def extract (name : Name) : List (Name × Bytes) → Action parse Unit
  | [] => pure ()
  | (path, data) :: files => do
      check
      ask (.extract name path data) .extraction
      extract name files

def stage (package : Package parse) (kind : String) : Action parse Name := do
  let name ← tempdir package.manifest.name kind .staging
  match ← (extract name package.files).outcome with
  | .ok () => pure name
  | .error error =>
    discard name
    .fails error

/-- The part of `install_package` behind the staging. -/
def installStaged (package : Package parse) (stage : Name) : Action parse Name := do
  let target := package.manifest.name
  let started ← attempt (.start stage)
  check
  ask (.rename stage target false) .activate
  let saved ← attempt (.setEnabled target started.isSome)
  let error : Option Failure :=
    if saved.isNone then some .persist else if started.isNone then some .start else none
  ask (.insert target ⟨package.manifest, target, error.isNone, error⟩) .notFound
  pure target

def installPackage (package : Package parse) : Action parse Name := do
  match ← attempt (.found package.manifest.name) with
  | some true => .fails .directoryExists
  | _ =>
    let stage ← stage package "install"
    discarding stage (installStaged package stage)

/-- A free name for the previous source. -/
def prepareBackup (id : Name) : Action parse Name := do
  check
  let backup ← tempdir id "backup" .backup
  match ← attempt (.removeEmpty backup) with
  | some _ => pure backup
  | none =>
    discard backup
    .fails .backup

/-- The two renamings of `upgrade_package`, and the one that takes the first back. -/
def exchange (package : Package parse) (existing : Installed) (stage backup : Name) :
    Action parse Name := do
  let target := existing.manifest.name
  match ← attempt (.rename target backup false) with
  | none =>
    discard backup
    .fails .preserve
  | some _ =>
    match ← attempt (.rename stage target false) with
    | none =>
      match ← attempt (.rename backup target true) with
      | none => .fails (.rollback backup)
      | some _ =>
        discard backup
        .fails .activate
    | some _ =>
      ask (.insert package.manifest.name ⟨package.manifest, target, existing.enabled, none⟩)
        .notFound
      discard backup
      pure package.manifest.name

/-- The part of `upgrade_package` behind the staging. -/
def upgradeStaged (package : Package parse) (existing : Installed) (stage : Name) :
    Action parse Name := do
  ask (.start stage) .validation
  let backup ← prepareBackup existing.manifest.name
  exchange package existing stage backup

def upgradePackage (package : Package parse) (existing : Installed) : Action parse Name := do
  match compareVersions package.manifest.version existing.manifest.version with
  | .lt => .fails .downgrade
  | .eq => .fails .upToDate
  | .gt =>
    let stage ← stage package "upgrade"
    discarding stage (upgradeStaged package existing stage)

def installOrUpgrade (package : Package parse) : Action parse Name := do
  match ← entry package.manifest.name with
  | none => installPackage package
  | some existing =>
    match compareVersions package.manifest.version existing.manifest.version with
    | .gt => upgradePackage package existing
    | .eq => .fails .alreadyInstalled
    | .lt => .fails .downgrade

/-- `install`, of a path that may lead to no package. -/
def install (package : Option (Package parse)) : Action parse Name := do
  check
  match package with
  | none => .fails .package
  | some package => installOrUpgrade package

def upgrade (package : Option (Package parse)) : Action parse Name := do
  check
  match package with
  | none => .fails .package
  | some package =>
    match ← entry package.manifest.name with
    | none => .fails .notInstalled
    | some existing => upgradePackage package existing

/-- `remove_directory`; whether it succeeds. -/
def removeDirectory (name : Name) : Action parse Bool := do
  match ← attempt (.found name) with
  | none => pure false
  | some false => pure true
  | some true =>
    let removed ← attempt (.remove name)
    pure removed.isSome

def remove (id : Name) : Action parse Unit := do
  check
  match ← entry id with
  | none => .fails .notFound
  | some installed =>
    if installed.source ≠ id then .fails .unmanaged
    else
      check
      ask (.unload id) .notFound
      let source ← removeDirectory installed.source
      let data ← attempt (.removeData id)
      if source && data.isSome then pure ()
      else
        -- A disabled entry stays, so that the removal can be tried again.
        ask (.insert id { installed with enabled := false, error := some .removal }) .notFound
        .fails .removal

/-- The part of `load_directory` behind its checks. -/
def loadChecked (manifest : Manifest) : Action parse Name := do
  let settings ← attempt (.settings manifest.name)
  -- Without its settings an extension is not started.
  let error : Option Failure ←
    if settings.isSome then do
      let started ← attempt (.start manifest.name)
      pure (if started.isSome then none else some .start)
    else pure (some .settings)
  check
  ask (.insert manifest.name
    ⟨manifest, manifest.name, settings = some (some true) && error.isNone, error⟩) .notFound
  pure manifest.name

def loadDirectory (name : Name) : Action parse Name := do
  let text ← ask (.read name manifestPath) .reading
  match parse text with
  | none => .fails .manifest
  | some manifest =>
    if (← attempt (.exists_ name indexPath)) = some true then
      match ← entry manifest.name with
      | some _ => pure manifest.name
      | none => if name = manifest.name then loadChecked manifest else .fails .mismatched
    else .fails .missingIndex

/-- One entry of the source directory, unless it is nothing to load. -/
def loadEntry (name : Name) (directory : Bool) : Action parse (Option Name) := do
  if directory then
    if (← attempt (.exists_ name manifestPath)) = some true then some <$> loadDirectory name
    else pure none
  else
    match ← ask (.openArchive name) .package with
    | none => pure none
    | some none => .fails .package
    | some (some package) => some <$> installOrUpgrade package

/-- What was loaded, and what could not be. -/
abbrev Loads := List Name × List (Name × ManagerError)

/-- The result for one entry of the directory. -/
def collect (name : Name) (result : Except ManagerError (Option Name)) (loads : Loads) : Loads :=
  match result with
  | .ok (some id) => (id :: loads.1, loads.2)
  | .ok none => loads
  | .error error => (loads.1, (name, error) :: loads.2)

/-- The loop of `load_all`. -/
def loadEach : List Name → Action parse Loads
  | [] => pure ([], [])
  | name :: names => do
      check
      let directory ← ask (.fileType name) .reading
      let result ← (loadEntry name directory).outcome
      let loads ← loadEach names
      pure (collect name result loads)

def loadAll : Action parse Loads := do
  check
  let names ← ask .list .reading
  loadEach names

end Operations

/-- The calls of a manager that change its source directory. -/
inductive Operation (parse : Parser)
  | install (package : Option (Package parse))
  | upgrade (package : Option (Package parse))
  | remove (id : Name)
  | loadAll

/-- The calls as programs; what they return is left out. -/
def Operation.program {parse : Parser} : Operation parse → Action parse Unit
  | install package => do
      let _ ← Sources.install package
      pure ()
  | upgrade package => do
      let _ ← Sources.upgrade package
      pure ()
  | remove id => Sources.remove id
  | loadAll => do
      let _ ← Sources.loadAll
      pure ()

end LosslessMusic.Extensions.Sources
