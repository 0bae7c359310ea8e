import LosslessMusic.Extensions.StoreOperations
import LosslessMusic.Extensions.Versions

/-!
# The source directory of the extensions

Every installed extension has a directory under its name, and temporary directories have
names that no extension can have. A directory is renamed at once; it may be written and
removed in part.
-/

namespace LosslessMusic.Extensions.Sources

open Store (Bytes bytesOf)

/-- A name in the source directory, and a path below such a name. -/
abbrev Name := Bytes

/-- `ExtensionManifest`, as far as the installation of a package reads it. -/
structure Manifest where
  name : Name
  version : List Char
  valid : Store.validExtensionId name = true
  deriving DecidableEq

/-- `manifest.json`. -/
def manifestPath : Name := bytesOf "manifest.json"

/-- `index.js`. -/
def indexPath : Name := bytesOf "index.js"

/-- The files of a directory. -/
abbrev Files := Finmap fun _ : Name => Bytes

/-- `ExtensionManifest::parse`, of the text that a file decodes to. -/
abbrev Parser := Bytes → Option Manifest

/-- `ExtensionPackage`: the files of an archive that could be opened. -/
structure Package (parse : Parser) where
  manifest : Manifest
  files : List (Name × Bytes)
  described : ∃ text, (manifestPath, text) ∈ files ∧ parse text = some manifest
  indexed : ∃ text, (indexPath, text) ∈ files

/-- An entry of the source directory. -/
inductive Node (parse : Parser)
  | directory (files : Files)
  /-- A file with the name of a package, and what `ExtensionPackage::open` makes of it. -/
  | archive (package : Option (Package parse))
  | other

/-- The errors that a status keeps. -/
inductive Failure
  /-- The extension could not be started. -/
  | start
  /-- Its settings could not be read. -/
  | settings
  /-- `failed to persist enabled state`. -/
  | persist
  /-- Its source or its data could not be removed. -/
  | removal
  deriving DecidableEq

/-- `Installed`, with its status. The runtimes are left out. -/
structure Installed where
  manifest : Manifest
  source : Name
  enabled : Bool
  error : Option Failure
  deriving DecidableEq

/-- The directory, the registry, the enabled states that are kept with the settings, and
whether a request has failed since the call began. -/
structure World (parse : Parser) where
  sources : Finmap fun _ : Name => Node parse
  entries : Name → Option Installed
  persisted : Name → Option Bool
  disturbed : Bool

/-- What an operation asks for. -/
inductive Request
  /-- `check`: the manager is not closed. -/
  | check
  /-- The names of `read_dir`, sorted. -/
  | list
  /-- `file_type` of an entry that `read_dir` has found. -/
  | fileType (name : Name)
  /-- `ExtensionPackage::open` of an entry. -/
  | openArchive (name : Name)
  /-- `symlink_metadata`, `exists`. -/
  | found (name : Name)
  | exists_ (name path : Name)
  /-- `read_source`. -/
  | read (name path : Name)
  /-- `tempdir_in`, with a prefix. -/
  | tempdir (start : Name)
  /-- A file of an archive is written. -/
  | extract (name path : Name) (data : Bytes)
  /-- `remove_dir` of an empty directory. -/
  | removeEmpty (name : Name)
  /-- `rename`; `restoring` where it takes the previous source back. -/
  | rename (source target : Name) (restoring : Bool)
  /-- `remove_dir_all`, or `remove_file` of what is no directory. -/
  | remove (name : Name)
  /-- The code of an extension is loaded and started. -/
  | start (source : Name)
  /-- The settings of an extension are read, for its enabled state. -/
  | settings (id : Name)
  | setEnabled (id : Name) (enabled : Bool)
  | removeData (id : Name)
  /-- The registry is read and changed. -/
  | entry (id : Name)
  | insert (id : Name) (installed : Installed)
  | unload (id : Name)

/-- The answer to a request. -/
abbrev Request.Answer (parse : Parser) : Request → Type
  | .list => List Name
  | .fileType _ => Bool
  | .openArchive _ => Option (Option (Package parse))
  | .found _ | .exists_ _ _ => Bool
  | .read _ _ => Bytes
  | .tempdir _ => Name
  | .settings _ => Option Bool
  | .entry _ => Option Installed
  | .check | .extract _ _ _ | .removeEmpty _ | .rename _ _ _ | .remove _ | .start _
  | .setEnabled _ _ | .removeData _ | .insert _ _ | .unload _ => Unit

/-- What the surroundings choose for a request. -/
inductive Choice
  | failed
  | succeeded
  /-- The random end of a temporary name. -/
  | suffix (text : Name)
  /-- The sorted names of a directory. -/
  | names (names : List Name)
  /-- The part of a file that was written. -/
  | partly (data : Bytes)
  /-- The files that were removed. -/
  | removed (paths : List Name)
  deriving DecidableEq

namespace World

variable {parse : Parser} (world : World parse)

/-- A name leads to something else from now on. -/
def put (name : Name) (node : Node parse) : World parse :=
  { world with sources := world.sources.insert name node }

/-- A name is gone. -/
def erase (name : Name) : World parse :=
  { world with sources := world.sources.erase name }

/-- A request has failed. -/
def disturb : World parse := { world with disturbed := true }

/-- The files under a name. -/
def files? (name : Name) : Option Files :=
  match world.sources.lookup name with
  | some (.directory files) => some files
  | some (.archive _) | some .other | none => none

/-- The file under a name and a path. -/
def file? (name path : Name) : Option Bytes :=
  (world.files? name).bind (Finmap.lookup path)

/-- The registry has another entry. -/
def register (id : Name) (entry : Option Installed) : World parse :=
  { world with entries := Function.update world.entries id entry }

@[simp] theorem entries_register_self (id : Name) (entry : Option Installed) :
    (world.register id entry).entries id = entry :=
  Function.update_self ..

theorem entries_register_of_ne {id other : Name} (different : other ≠ id)
    (entry : Option Installed) : (world.register id entry).entries other = world.entries other :=
  Function.update_of_ne different ..

end World

/-- Whether a directory may take a name: nothing is there, or an empty directory. -/
def vacant {parse : Parser} : Option (Node parse) → Bool
  | none => true
  | some (.directory files) => files = ∅
  | some (.archive _) | some .other => false

section Effects

variable {parse : Parser} (world : World parse)

/-- The directory `source` has the name `target` from now on. -/
def renamed (source target : Name) : World parse × Option Unit :=
  match world.files? source with
  | some files =>
    if vacant (world.sources.lookup target) then
      ((world.erase source).put target (.directory files), some ())
    else (world.disturb, none)
  | none => (world.disturb, none)

/-- The effect of a request. What fails leaves the world, but for what is written or
removed in part. -/
def effect : (asked : Request) → Choice → World parse × Option (asked.Answer parse)
  | .check, .succeeded => (world, some ())
  | .list, .names names =>
    if names.toFinset = world.sources.keys ∧ names.Pairwise (· < ·) then (world, some names)
    else (world.disturb, none)
  | .fileType name, .succeeded => (world, some (world.files? name).isSome)
  | .openArchive name, .succeeded =>
    match world.sources.lookup name with
    | some (.archive package) => (world, some (some package))
    | some (.directory _) | some .other | none => (world, some none)
  | .found name, .succeeded => (world, some (world.sources.lookup name).isSome)
  | .exists_ name path, .succeeded => (world, some (world.file? name path).isSome)
  | .read name path, .succeeded =>
    match world.file? name path with
    | some data => (world, some data)
    | none => (world.disturb, none)
  | .tempdir start, .suffix text =>
    if (world.sources.lookup (start ++ text)).isNone then
      (world.put (start ++ text) (.directory ∅), some (start ++ text))
    else (world.disturb, none)
  | .extract name path data, .succeeded =>
    match world.files? name with
    | some files =>
      if (files.lookup path).isNone then
        (world.put name (.directory (files.insert path data)), some ())
      else (world.disturb, none)
    | none => (world.disturb, none)
  | .extract name path _, .partly data =>
    match world.files? name with
    | some files =>
      if (files.lookup path).isNone then
        ((world.put name (.directory (files.insert path data))).disturb, none)
      else (world.disturb, none)
    | none => (world.disturb, none)
  | .removeEmpty name, .succeeded =>
    match world.files? name with
    | some files => if files = ∅ then (world.erase name, some ()) else (world.disturb, none)
    | none => (world.disturb, none)
  | .rename source target _, .succeeded => renamed world source target
  | .remove name, .succeeded => (world.erase name, some ())
  | .remove name, .removed paths =>
    match world.files? name with
    | some files =>
      ((world.put name (.directory (paths.foldl (fun left path => left.erase path) files))).disturb,
        none)
    | none => (world.disturb, none)
  | .start _, .succeeded => (world, some ())
  | .settings id, .succeeded => (world, some (world.persisted id))
  | .setEnabled id enabled, .succeeded =>
    ({ world with persisted := Function.update world.persisted id (some enabled) }, some ())
  | .removeData id, .succeeded =>
    ({ world with persisted := Function.update world.persisted id none }, some ())
  | .entry id, _ => (world, some (world.entries id))
  | .insert id installed, _ => (world.register id (some installed), some ())
  | .unload id, _ => (world.register id none, some ())
  | _, _ => (world.disturb, none)

end Effects

end LosslessMusic.Extensions.Sources
