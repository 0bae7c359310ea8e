import LosslessMusic.Storage.Table
import LosslessMusic.Text
import Mathlib.Data.List.MinMax

/-!
# The index of recording codes

`isrc/cache.rs`: the index of a directory, which knows one path for each code and the files
it was built from, and the state of the cache, which bounds how many indexes are kept. A
subtraction below zero would panic, and so gives nothing here.
-/

namespace LosslessMusic.Isrc

open Storage (Table)

/-! ## Files -/

/-- The normal components of a path. -/
def components (path : List Char) : List (List Char) :=
  (path.splitOn '/').filter fun part => part ≠ [] ∧ part ≠ ['.']

def extension (path : String) : Option (List Char) :=
  match (components path.toList).getLast? with
  | none => none
  | some name =>
    let before := (name.reverse.dropWhile (· ≠ '.')).tail.reverse
    if name = ['.', '.'] ∨ before = [] then none
    else some (name.reverse.takeWhile (· ≠ '.')).reverse

def supported (path : String) : Bool :=
  (extension path).any fun extension =>
    String.ofList (extension.map Char.toLower) ∈ ["flac", "mp3", "m4a", "ogg", "opus"]

/-- Characters that `uppercase` leaves as they are. -/
def keepsCase (char : Char) : Bool :=
  let code := char.toNat
  code ∈ [0x19b, 0x264, 0x1c8a, 0xa7cd, 0xa7cf, 0xa7d3, 0xa7d5, 0xa7db] ||
    (0x10d70 ≤ code && code ≤ 0x10d85) || (0x16ebb ≤ code && code ≤ 0x16ed3)

/-- `uppercase` of a character, over the full mapping of the standard library. -/
def upperChar (toUppercase : Char → List Char) (char : Char) : Char :=
  let code := char.toNat
  if keepsCase char then char
  else if (0x1f80 ≤ code && code ≤ 0x1f87) || (0x1f90 ≤ code && code ≤ 0x1f97) ||
      (0x1fa0 ≤ code && code ≤ 0x1fa7) then Char.ofNat (code + 8)
  else if code = 0x1fb3 then Char.ofNat 0x1fbc
  else if code = 0x1fc3 then Char.ofNat 0x1fcc
  else if code = 0x1ff3 then Char.ofNat 0x1ffc
  else
    match toUppercase char with
    | [first] => first
    | _ => char

def uppercase (toUppercase : Char → List Char) (value : String) : String :=
  String.ofList (value.toList.map (upperChar toUppercase))

structure FileStamp where
  path : String
  size : Nat
  modifiedNs : Int
  directory : Bool
  deriving DecidableEq, Repr

/-- A file of the file system; an empty file and a directory have no tag. -/
structure File where
  stamp : FileStamp
  tag : String
  named : stamp.path ≠ ""
  empty : stamp.size = 0 ∨ stamp.directory = true → tag = ""

/-- A `String` with its capacity. -/
structure Owned where
  text : String
  capacity : Nat
  deriving DecidableEq, Repr

/-- A copy, which is allocated to fit. -/
def Owned.copy (text : String) : Owned :=
  ⟨text, text.utf8ByteSize⟩

/-- `FileEntry`, with the capacity of the path in its stamp. -/
structure FileEntry where
  stamp : FileStamp
  capacity : Nat
  isrc : Owned
  deriving DecidableEq, Repr

/-- `size_of` of the types whose nodes are counted. -/
structure Sizes where
  index : Nat
  pair : Nat
  slot : Nat
  fileEntry : Nat
  cached : Nat

/-- What the sources outside decide: the case mapping, which paths a directory is listed
with, how long an index is fresh, and the sizes. -/
structure Setting where
  toUppercase : Char → List Char
  within : String → String → Bool
  ttl : Nat
  sizes : Sizes

/-- A difference that is not below zero. -/
def checkedSub (a b : Nat) : Option Nat :=
  if b ≤ a then some (a - b) else none

/-! ## An index -/

/-- `Index`. A key stands with the capacity of its own text. -/
structure Index where
  entries : Table String (Nat × Owned) := {}
  files : Table String (Nat × FileEntry) := {}
  bytes : Nat
  builtAt : Nat

namespace Index

variable (sizes : Sizes) (index : Index)

def insertMatch (isrc path : Owned) : Option Index :=
  match index.entries.get? isrc.text with
  | some (capacity, old) =>
    (checkedSub index.bytes old.capacity).map fun bytes =>
      { index with
        bytes := bytes + path.capacity
        entries := index.entries.put isrc.text (capacity, path) }
  | none =>
    some
      { index with
        bytes := index.bytes + (sizes.pair + 64 + isrc.capacity + path.capacity)
        entries := index.entries.put isrc.text (isrc.capacity, path) }

def cost (file : FileEntry) : Nat :=
  sizes.fileEntry + 32 + file.capacity + file.isrc.capacity

def insertFile (path : Owned) (file : FileEntry) : Option Index :=
  match index.files.get? path.text with
  | some (capacity, old) =>
    (checkedSub index.bytes (cost sizes old)).map fun bytes =>
      { index with
        bytes := bytes + cost sizes file
        files := index.files.put path.text (capacity, file) }
  | none =>
    some
      { index with
        bytes := index.bytes + (sizes.slot + 64 + path.capacity + cost sizes file)
        files := index.files.put path.text (path.capacity, file) }

/-- A file that was listed, with the capacity of its path. -/
structure Listed where
  stamp : FileStamp
  capacity : Nat

/-- The entry of an unchanged file. -/
def reused? (previous : Table String (Nat × FileEntry)) (stamp : FileStamp) :
    Option FileEntry :=
  match previous.get? stamp.path with
  | some (_, entry) => if entry.stamp = stamp then some entry else none
  | none => none

/-- The files that count. -/
def considered (listed : List Listed) : List Listed :=
  listed.filter fun one => !one.stamp.directory && supported one.stamp.path

/-- The files that count and have changed. -/
def changed (previous : Table String (Nat × FileEntry)) (listed : List Listed) : List Listed :=
  (considered listed).filter fun one => (reused? previous one.stamp).isNone

/-- An unchanged file is taken over. -/
def reuse (previous : Table String (Nat × FileEntry)) (index : Index) (one : Listed) :
    Option Index :=
  match reused? previous one.stamp with
  | none => some index
  | some entry =>
    (if entry.isrc.text = "" then some index
      else
        index.insertMatch sizes (.copy entry.isrc.text) (.copy one.stamp.path)).bind fun index =>
          index.insertFile sizes ⟨one.stamp.path, one.capacity⟩ entry

/-- A changed file is entered with the code that was read. -/
def enter (read : String → Owned) (index : Index) (one : Listed) : Option Index :=
  let isrc := read one.stamp.path
  (if isrc.text = "" then some index
    else index.insertMatch sizes (.copy isrc.text) (.copy one.stamp.path)).bind fun index =>
      index.insertFile sizes (.copy one.stamp.path) ⟨one.stamp, one.capacity, isrc⟩

/-- The two passes over what was listed: unchanged files first, then the changed ones. -/
def build (previous : Table String (Nat × FileEntry)) (listed : List Listed)
    (read : String → Owned) (builtAt : Nat) : Option Index :=
  ((considered listed).foldlM (reuse sizes previous)
    { bytes := sizes.index + 2048, builtAt }).bind fun index =>
      (changed previous listed).foldlM (enter sizes read) index

end Index

/-! ## The state of the cache -/

/-- `Cached`; an index is named by its place among all there have been. -/
structure Cached where
  index : Nat
  bytes : Nat
  used : Nat
  deriving DecidableEq, Repr

/-- `State`; builders are named by their places. -/
structure State where
  indexes : Table String Cached := {}
  builders : Table String Nat := {}
  bytes : Nat := 0
  sequence : Nat := 0

/-- `MAX_DIRECTORIES`. -/
def maxDirectories : Nat := 32

/-- `MAX_INDEX_BYTES`. -/
def maxIndexBytes : Nat := 16 <<< 20

namespace State

variable (sizes : Sizes) (state : State)

def remove (directory : String) : Option State :=
  match state.indexes.get? directory with
  | some entry =>
    (checkedSub state.bytes entry.bytes).map fun bytes =>
      { state with bytes, indexes := state.indexes.erase directory }
  | none => some state

/-- The directory whose index was used first. -/
def oldest? : Option String :=
  (state.indexes.entries.argmin fun entry => entry.2.used).map Prod.fst

/-- There is no room for an index of this size. -/
def isFull (bytes : Nat) : Bool :=
  state.indexes.size ≥ maxDirectories || state.bytes + bytes > maxIndexBytes

/-- The loop that makes room, at most so many times. -/
def makeRoom (bytes : Nat) : Nat → State → Option State
  | 0, state => if state.isFull bytes then none else some state
  | turns + 1, state =>
    if state.isFull bytes then
      state.oldest?.bind fun oldest => (state.remove oldest).bind (makeRoom bytes turns)
    else some state

/-- What an index of this size takes in the cache. -/
def allowance (directory : String) (bytes : Nat) : Nat :=
  bytes + (directory.utf8ByteSize + sizes.cached + 64)

def store (directory : String) (index bytes : Nat) : Option State :=
  (state.remove directory).bind fun state =>
    let bytes := allowance sizes directory bytes
    if bytes > maxIndexBytes then some state
    else
      (makeRoom bytes state.indexes.size state).map fun state =>
        { state with
          sequence := state.sequence + 1
          bytes := state.bytes + bytes
          indexes := state.indexes.put directory ⟨index, bytes, state.sequence + 1⟩ }

def cached (directory : String) : Option Nat × State :=
  let sequence := state.sequence + 1
  match state.indexes.get? directory with
  | none => (none, { state with sequence })
  | some entry =>
    (some entry.index,
      { state with
        sequence, indexes := state.indexes.put directory { entry with used := sequence } })

end State
end LosslessMusic.Isrc
