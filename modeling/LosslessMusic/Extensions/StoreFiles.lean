import LosslessMusic.Interruption.Programs
import Mathlib.Data.Finmap

/-!
# The files of an extension's store

A store keeps three maps, each in a file of its own. A program over these files asks for
one file operation at a time; the surroundings choose whether it fails. A new file is
written under a fresh temporary name that nobody else uses, and becomes visible when it
is renamed.
-/

namespace LosslessMusic.Extensions.Store

/-- `Vec<u8>`. -/
abbrev Bytes := List UInt8

/-- `Map<String, Value>`. -/
abbrev Map (ν : Type) := Finmap fun _ : String => ν

inductive StoreKind
  | storage
  | credentials
  | settings
  deriving DecidableEq, Repr

/-- The files of a directory that a store names. -/
inductive FileName
  /-- `storage.json` -/
  | storage
  /-- `.credentials.enc` -/
  | credentials
  /-- `settings.enc` -/
  | settings
  /-- `settings.json`, of an older version. -/
  | legacySettings
  /-- `.cred_salt`, of an older version. -/
  | salt
  deriving DecidableEq, Repr

namespace StoreKind

def filename : StoreKind → FileName
  | storage => .storage
  | credentials => .credentials
  | settings => .settings

def purpose : StoreKind → String
  | storage => ""
  | credentials => "credentials"
  | settings => "settings"

end StoreKind

/-- The kind of store that uses a file. -/
def FileName.kind : FileName → StoreKind
  | .storage => .storage
  | .credentials | .salt => .credentials
  | .settings | .legacySettings => .settings

@[simp] theorem kind_filename (kind : StoreKind) : kind.filename.kind = kind := by
  cases kind <;> rfl

/-- What is found under a name. -/
inductive Stored
  /-- A directory, a link or anything else that is no regular file. -/
  | irregular
  | regular (data : Bytes) (modified : Option Nat) (inode : Nat)
  deriving DecidableEq, Repr

structure Identity where
  length : Nat
  modified : Option Nat
  inode : Nat
  deriving DecidableEq, Repr

/-- What `symlink_metadata` says of a path. -/
inductive Status
  | absent
  | irregular
  | regular (identity : Identity)
  deriving DecidableEq, Repr

structure FileCache (ν : Type) where
  snapshot : Option (Map ν)
  identity : Option Identity
  keyTag : Option Bytes

/-- `FileCache::default`. -/
def FileCache.empty {ν : Type} : FileCache ν := ⟨none, none, none⟩

/-- A `NamedTempFile`. -/
structure Temporary where
  data : Bytes
  modified : Option Nat
  inode : Nat
  deriving DecidableEq, Repr

/-- The directory, with the cache and the temporary file of each kind of store. -/
structure World (ν : Type) where
  disk : FileName → Option Stored
  cache : StoreKind → FileCache ν
  temporary : StoreKind → Option Temporary

/-- What a program asks for. -/
inductive Request (ν : Type)
  /-- `symlink_metadata`; `settled` where the caller's change is on the disk already. -/
  | identity (name : FileName) (settled : Bool)
  /-- `fs::read`. -/
  | read (name : FileName)
  /-- `getrandom::fill`. -/
  | random (count : Nat)
  /-- `tempfile_in`. -/
  | create
  /-- `write_all` to the temporary file. -/
  | write (data : Bytes)
  /-- `sync_all` of the temporary file. -/
  | sync
  /-- `persist`: the temporary file is renamed. -/
  | persist (name : FileName)
  /-- The directory is opened and synced. -/
  | syncDirectory
  /-- `fs::remove_file`. -/
  | remove (name : FileName)
  /-- The `FileCache` is read. -/
  | cached
  /-- The `FileCache` is set. -/
  | remember (cache : FileCache ν)

/-- The answer to a request. -/
abbrev Request.Answer {ν : Type} : Request ν → Type
  | .identity _ _ => Status
  | .read _ | .random _ => Bytes
  | .create | .write _ | .sync | .persist _ | .syncDirectory | .remove _ | .remember _ => Unit
  | .cached => FileCache ν

/-- What the surroundings choose for a request. -/
inductive Choice
  | failed
  | succeeded
  /-- Random bytes, or what an interrupted writing leaves. -/
  | bytes (bytes : Bytes)
  /-- The modification time and the inode of a file. -/
  | stamped (modified : Option Nat) (inode : Nat)
  deriving DecidableEq, Repr

namespace World

variable {ν : Type} (world : World ν)

/-- The metadata of a path. -/
def status (name : FileName) : Status :=
  match world.disk name with
  | none => .absent
  | some .irregular => .irregular
  | some (.regular data modified inode) => .regular ⟨data.length, modified, inode⟩

/-- The data of a regular file. -/
def data? (name : FileName) : Option Bytes :=
  match world.disk name with
  | some (.regular data _ _) => some data
  | some .irregular | none => none

/-- A name leads to something else from now on. -/
def put (name : FileName) (stored : Option Stored) : World ν :=
  { world with disk := Function.update world.disk name stored }

/-- The temporary file of a kind is another one. -/
def hold (kind : StoreKind) (temporary : Option Temporary) : World ν :=
  { world with temporary := Function.update world.temporary kind temporary }

/-- The cache of a kind is set. -/
def remember (kind : StoreKind) (cache : FileCache ν) : World ν :=
  { world with cache := Function.update world.cache kind cache }

end World

variable {ν : Type}

/-- The effect of a request that a store of some kind makes. -/
def effect (kind : StoreKind) (world : World ν) :
    (asked : Request ν) → Choice → World ν × Option asked.Answer
  | .identity name _, .succeeded => (world, some (world.status name))
  | .read name, .succeeded => (world, world.data? name)
  | .random count, .bytes bytes =>
    (world, if bytes.length = count then some bytes else none)
  | .create, .stamped modified inode => (world.hold kind (some ⟨[], modified, inode⟩), some ())
  | .write data, .stamped modified _ =>
    (world.hold kind ((world.temporary kind).map fun file => ⟨data, modified, file.inode⟩), some ())
  | .write _, .bytes partly =>
    (world.hold kind ((world.temporary kind).map fun file => { file with data := partly }), none)
  | .sync, .succeeded | .syncDirectory, .succeeded => (world, some ())
  | .persist name, .succeeded =>
    match world.temporary kind with
    | some file =>
      ((world.put name (some (.regular file.data file.modified file.inode))).hold kind none,
        some ())
    | none => (world, none)
  | .remove name, .succeeded =>
    match world.disk name with
    | some _ => (world.put name none, some ())
    | none => (world, none)
  | .cached, _ => (world, some (world.cache kind))
  | .remember cache, _ => (world.remember kind cache, some ())
  | _, _ => (world, none)

end LosslessMusic.Extensions.Store
