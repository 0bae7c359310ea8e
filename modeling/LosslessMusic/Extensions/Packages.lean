import LosslessMusic.Text

/-!
# Extension packages

`ExtensionPackage`: the names of the central directory are read by hand, before the archive
library reads the same file. Files are created below an empty staging directory.

Slices, subtractions and sums that may fail in the source are steps of their own. The library,
the file system and the caller's check answer what they want.
-/

namespace LosslessMusic.Extensions.Package

abbrev Bytes := List UInt8

/-- What a file holds. Its length is a number of 64 bits. -/
abbrev File := { bytes : Bytes // bytes.length < 2 ^ 64 }

/-- How a computation ends without a value. -/
inductive Fault
  | error (message : String)
  /-- An index out of range, a difference or a sum that does not fit. -/
  | panic
  /-- No end of a loop. -/
  | endless
  deriving DecidableEq, Repr

abbrev Outcome (α : Type) := Except Fault α

instance {α : Type} [DecidableEq α] : DecidableEq (Outcome α)
  | .ok first, .ok second => decidable_of_iff (first = second) ⟨congrArg _, Except.ok.inj⟩
  | .error first, .error second => decidable_of_iff (first = second) ⟨congrArg _, Except.error.inj⟩
  | .ok _, .error _ => isFalse nofun
  | .error _, .ok _ => isFalse nofun

def error {α : Type} (message : String) : Outcome α := .error (.error message)

def invalidArchive : String :=
  "cannot open extension file: the file may be corrupted or not a valid extension package"

/-- `MAX_ENTRIES`. -/
def maxEntries : Nat := 2048

/-- `MAX_EXTRACTED`. -/
def maxExtracted : Nat := 256 * 1024 * 1024

/-- `MAX_MANIFEST`. -/
def maxManifest : Nat := 1024 * 1024

/-! ## Numbers -/

/-- `bytes[start..start + length]`. -/
def slice (bytes : Bytes) (start length : Nat) : Outcome Bytes :=
  if start + length ≤ bytes.length then .ok ((bytes.drop start).take length) else .error .panic

/-- The number of bytes with the lowest first. -/
def littleEndian : Bytes → Nat
  | [] => 0
  | byte :: rest => byte.toNat + 256 * littleEndian rest

/-- `number16`, `number32` and `number64`, by their widths. -/
def number (width : Nat) (bytes : Bytes) (offset : Nat) : Outcome Nat :=
  littleEndian <$> slice bytes offset width

/-- A difference of unsigned numbers. -/
def sub (first second : Nat) : Outcome Nat :=
  if second ≤ first then .ok (first - second) else .error .panic

/-- A sum of 64 bits. -/
def add (first second : Nat) : Outcome Nat :=
  if first + second < 2 ^ 64 then .ok (first + second) else .error .panic

def readAt (input : Bytes) (offset length : Nat) : Outcome Bytes :=
  if offset + length ≤ input.length then .ok ((input.drop offset).take length)
  else error invalidArchive

/-! ## Paths -/

/-- The names of a path below the staging directory. -/
abbrev Path := List Bytes

/-- What the package reader calls. -/
structure Libraries where
  /-- `decode_go_utf8`. -/
  decode : Bytes → String
  /-- `lowercase`. -/
  lowercase : String → String
  /-- What the platform says of a clean path. -/
  accepts : Bytes → Bool

variable (libraries : Libraries)

def slash : UInt8 := 47

/-- The parts between slashes. -/
def split : Bytes → List Bytes
  | [] => [[]]
  | byte :: rest =>
    if byte = slash then [] :: split rest
    else
      match split rest with
      | part :: parts => (byte :: part) :: parts
      | [] => [[byte]]

/-- The parts with slashes between. -/
def join : Path → Bytes
  | [] => []
  | [part] => part
  | part :: rest => part ++ slash :: join rest

/-- The loop of `clean_path`, with the parts so far from the last one. -/
def cleanParts : List Bytes → Path → Option Path
  | [], parts => some parts.reverse
  | part :: rest, parts =>
    if part = [] ∨ part = [46] then cleanParts rest parts
    else if part = [46, 46] then
      match parts with
      | [] => none
      | _ :: above => cleanParts rest above
    else cleanParts rest (part :: parts)

def cleanPath (name : Bytes) : Outcome Path :=
  let unsafePath := error ("unsafe path in extension archive: " ++ libraries.decode name)
  if name.head? = some slash ∨ 92 ∈ name ∨ 0 ∈ name then unsafePath
  else
    match cleanParts (split name) [] with
    | none | some [] => unsafePath
    | some path => if libraries.accepts (join path) then .ok path else unsafePath

/-- What two names of one package must not share. -/
def key (path : Path) : String := libraries.lowercase (libraries.decode (join path))

/-! ## The central directory -/

/-- The marks of the records. -/
def endMark : Bytes := [80, 75, 5, 6]

def locatorMark : Bytes := [80, 75, 6, 7]

def recordMark : Bytes := [80, 75, 6, 6]

def headerMark : Bytes := [80, 75, 1, 2]

/-- The last place below an index where the end record fits. -/
def findEnd (tail : Bytes) : Nat → Outcome (Option Nat)
  | 0 => .ok none
  | index + 1 => do
      let rest ← slice tail index (tail.length - index)
      if endMark.isPrefixOf rest then
        let comment ← number 2 tail (index + 20)
        if index + 22 + comment ≤ tail.length then return some index
        findEnd tail index
      else findEnd tail index

/-- What the end record says of the central directory. -/
structure Directory where
  count : Nat
  size : Nat
  offset : Nat
  directoryEnd : Nat
  deriving DecidableEq, Repr

/-- The first part of `central_names`. -/
def findDirectory (input : Bytes) : Outcome Directory := do
  let tailSize := min input.length 65557
  let start ← sub input.length tailSize
  let tail ← readAt input start tailSize
  match ← findEnd tail (tail.length - 21) with
  | none => error invalidArchive
  | some last =>
    let absoluteEnd ← add (← sub input.length tailSize) last
    let count ← number 2 tail (last + 10)
    let size ← number 4 tail (last + 12)
    let offset ← number 4 tail (last + 16)
    if 20 ≤ absoluteEnd then
      let locator ← readAt input (absoluteEnd - 20) 20
      if locatorMark.isPrefixOf locator then
        let recordOffset ← number 8 locator 8
        let record ← readAt input recordOffset 56
        if recordMark.isPrefixOf record then
          return ⟨← number 8 record 32, ← number 8 record 40, ← number 8 record 48, recordOffset⟩
        else error invalidArchive
      else return ⟨count, size, offset, absoluteEnd⟩
    else return ⟨count, size, offset, absoluteEnd⟩

/-- The loop of `central_names`: the names of so many headers from a position, and the
position behind them. -/
def walk (input : Bytes) (directoryEnd : Nat) : Nat → Nat → List String → Outcome (List Bytes × Nat)
  | 0, position, _ => .ok ([], position)
  | count + 1, position, seen => do
      let header ← readAt input position 46
      if headerMark.isPrefixOf header then
        let nameLength ← number 2 header 28
        let name ← readAt input (position + 46) nameLength
        let normalized ← cleanPath libraries name
        if key libraries normalized ∈ seen then
          error ("duplicate path in extension archive: " ++ libraries.decode name)
        else
          let size ← add (← add (← add 46 nameLength) (← number 2 header 30)) (← number 2 header 32)
          let next := position + size
          if next < 2 ^ 64 ∧ next ≤ directoryEnd then
            let (names, last) ← walk input directoryEnd count next (key libraries normalized :: seen)
            return (name :: names, last)
          else error invalidArchive
      else error invalidArchive

/-- The position of the central directory. -/
def findStart (input : Bytes) (directory : Directory) : Outcome Nat :=
  if directory.size ≤ directory.directoryEnd then do
    if directory.offset < input.length then
      if (← readAt input directory.offset 4) = headerMark then return directory.offset
      else return directory.directoryEnd - directory.size
    else return directory.directoryEnd - directory.size
  else error invalidArchive

def centralNames (input : Bytes) : Outcome (List Bytes) := do
  let directory ← findDirectory input
  if directory.size / 46 < directory.count then error invalidArchive
  else if maxEntries < directory.count then
    error "extension archive contains too many entries (maximum 2048)"
  else
    let position ← findStart input directory
    let (names, last) ← walk libraries input directory.directoryEnd directory.count position []
    if last + 4 < 2 ^ 64 ∧ last + 4 ≤ directory.directoryEnd then
      if (← readAt input last 4) = headerMark then error invalidArchive else return names
    else return names

/-! ## Opening -/

/-- What the archive library says of an entry. -/
structure RawEntry where
  mode : Option Nat
  size : Nat
  deriving DecidableEq, Repr

/-- The archive library over a file. -/
structure Archive where
  length : Nat
  /-- `by_index_raw`. -/
  raw : Nat → Option RawEntry
  /-- The bytes of the manifest, when they can be found and read. -/
  manifest : Nat → Except String (Except String Bytes)

structure Entry where
  path : Path
  directory : Bool
  size : Nat
  deriving DecidableEq, Repr

/-- What the loop of `open` has found. -/
structure Found where
  entries : List Entry
  total : Nat
  manifest : Option Nat
  index : Bool
  deriving DecidableEq, Repr

def manifestName : Bytes := [109, 97, 110, 105, 102, 101, 115, 116, 46, 106, 115, 111, 110]

def indexName : Bytes := [105, 110, 100, 101, 120, 46, 106, 115]

/-- The kind of a file in the bits of its mode. -/
def RawEntry.kind (entry : RawEntry) : Nat := entry.mode.getD 0 &&& 0o170000

/-- One turn of the loop of `open`. -/
def inspect (archive : Archive) (index : Nat) (name : Bytes) (found : Found) : Outcome Found := do
  match archive.raw index with
  | none => error invalidArchive
  | some file =>
    if file.kind = 0o120000 then
      error ("unsafe path in extension archive: " ++ libraries.decode name)
    else
      let path ← cleanPath libraries name
      let directory := name.getLast? = some slash || file.kind = 0o040000
      if directory then
        return { found with entries := found.entries ++ [⟨path, true, file.size⟩] }
      else
        let room ← sub maxExtracted found.total
        if room < file.size then
          error "extension archive exceeds the 256 MiB extracted size limit"
        else
          return {
            entries := found.entries ++ [⟨path, false, file.size⟩]
            total := ← add found.total file.size
            manifest := if path = [manifestName] then some index else found.manifest
            index := found.index || path = [indexName] }

/-- The loop of `open`. -/
def inspectAll (archive : Archive) : List Bytes → Nat → Found → Outcome Found
  | [], _, found => .ok found
  | name :: names, index, found => do
      inspectAll archive names (index + 1) (← inspect libraries archive index name found)

/-- An `ExtensionPackage`, with what its manifest is parsed to. -/
structure Opened (μ : Type) where
  entries : List Entry
  manifest : μ
  deriving DecidableEq

/-- `open`, behind its file: what the archive library makes of the file, and what
`ExtensionManifest::parse` makes of bytes. -/
def openPackage {μ : Type} (input : File) (archive : Option Archive)
    (parse : Bytes → Except String μ) : Outcome (Opened μ) := do
  let names ← centralNames libraries input.val
  match archive with
  | none => error invalidArchive
  | some archive =>
    if archive.length ≠ names.length then error invalidArchive
    else
      let found ← inspectAll libraries archive names 0 ⟨[], 0, none, false⟩
      match found.manifest with
      | none => error "invalid extension package: root manifest.json not found"
      | some index =>
        if found.index = false then error "invalid extension package: root index.js not found"
        else
          match found.entries[index]? with
          | none => .error .panic
          | some entry =>
            if maxManifest < entry.size then
              error "invalid extension package: manifest.json is too large"
            else
              match archive.manifest index with
              | .error cause => error ("failed to open manifest.json: " ++ cause)
              | .ok (.error cause) => error ("failed to read manifest.json: " ++ cause)
              | .ok (.ok content) =>
                let bytes := content.take (maxManifest + 1)
                if maxManifest < bytes.length then
                  error "invalid extension package: manifest.json is too large"
                else
                  match parse bytes with
                  | .error cause => error ("invalid extension manifest: " ++ cause)
                  | .ok manifest => return ⟨found.entries, manifest⟩

/-! ## Extraction -/

/-- What fits into the buffer of `extract`. -/
abbrev Chunk := { bytes : Bytes // bytes.length ≤ 64 * 1024 }

/-- One turn of the copying loop: the check, what is read, and where writing fails. -/
structure Turn where
  check : Except String Unit
  read : Except String Chunk
  write : Option (Nat × String)

/-- What happens around an extraction. -/
structure Surroundings where
  /-- Whether the staging directory is an empty directory. -/
  staging : Except String Bool
  check : Nat → Except String Unit
  directory : Path → Option String
  create : Nat → Option String
  input : Nat → Except String (Nat → Turn)
  sync : Nat → Option String

/-- What is below the staging directory. -/
inductive Node
  | directory
  | file (bytes : Bytes)
  deriving DecidableEq, Repr

/-- What has been created below the staging directory, from the last. -/
abbrev Disk := List (Path × Node)

/-- What is at a path. -/
def Disk.node? (disk : Disk) (path : Path) : Option Node :=
  (disk.find? fun made => made.1 == path).map (·.2)

/-- `create_dir_all`, below a directory. -/
def makeDirectories (fails : Path → Option String) : Path → Path → Disk → Disk × Outcome Unit
  | _, [], disk => (disk, .ok ())
  | above, name :: rest, disk =>
    let path := above ++ [name]
    match disk.node? path with
    | some .directory => makeDirectories fails path rest disk
    | some (.file _) => (disk, error "failed to create extension directory: File exists")
    | none =>
      match fails path with
      | some cause => (disk, error ("failed to create extension directory: " ++ cause))
      | none => makeDirectories fails path rest ((path, .directory) :: disk)

/-- The copying loop of `extract`: what is in the file in the end, and the new total. -/
def copy (size : Nat) (turns : Nat → Turn) : Nat → Nat → Nat → Bytes → Bytes × Outcome Nat
  | 0, _, _, content => (content, .error .endless)
  | fuel + 1, turn, total, content =>
    match (turns turn).check with
    | .error cause => (content, error cause)
    | .ok () =>
      match (turns turn).read with
      | .error cause => (content, error ("failed to extract extension file: " ++ cause))
      | .ok chunk =>
        let count := chunk.val.length
        if count = 0 then (content, .ok total)
        else
          match sub maxExtracted total with
          | .error fault => (content, .error fault)
          | .ok room =>
            if room < count ∨ size - content.length < count then
              (content, error "extension archive exceeds its declared extracted size")
            else
              match (turns turn).write with
              | some (written, cause) =>
                (content ++ chunk.val.take written,
                  error ("failed to extract extension file: " ++ cause))
              | none =>
                match add total count with
                | .error fault => (content, .error fault)
                | .ok total => copy size turns fuel (turn + 1) total (content ++ chunk.val)

/-- The loop of `extract`. -/
def extractAll (around : Surroundings) : List Entry → Nat → Nat → Disk → Disk × Outcome Unit
  | [], _, _, disk => (disk, .ok ())
  | entry :: rest, index, total, disk =>
    match around.check index with
    | .error cause => (disk, error cause)
    | .ok () =>
      if entry.directory then extractAll around rest (index + 1) total disk
      else
        match makeDirectories around.directory [] entry.path.dropLast disk with
        | (disk, .error fault) => (disk, .error fault)
        | (disk, .ok ()) =>
          match disk.node? entry.path with
          | some _ => (disk, error "failed to create extension file: File exists")
          | none =>
            match around.create index with
            | some cause => (disk, error ("failed to create extension file: " ++ cause))
            | none =>
              match around.input index with
              | .error cause =>
                ((entry.path, .file []) :: disk,
                  error ("failed to open file in archive: " ++ cause))
              | .ok turns =>
                let (content, copied) := copy entry.size turns (entry.size + 1) 0 total []
                let disk := (entry.path, .file content) :: disk
                match copied with
                | .error fault => (disk, .error fault)
                | .ok total =>
                  if content.length ≠ entry.size then
                    (disk, error "failed to extract extension file: unexpected EOF")
                  else
                    match around.sync index with
                    | some cause =>
                      (disk, error ("failed to close extracted extension file: " ++ cause))
                    | none => extractAll around rest (index + 1) total disk

/-- `extract`: what is below the staging directory in the end. -/
def extract {μ : Type} (package : Opened μ) (around : Surroundings) : Disk × Outcome Unit :=
  match around.staging with
  | .error cause => ([], error cause)
  | .ok false => ([], error "extension extraction requires an empty staging directory")
  | .ok true => extractAll around package.entries 0 0 []

end LosslessMusic.Extensions.Package
