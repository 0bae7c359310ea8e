import LosslessMusic.Finishing.Paths
import LosslessMusic.Storage.Files
import LosslessMusic.Transition.Machine

/-!
# Files named after their container

`ContainerExtensionFix.kt`: a download that was named `.flac` and holds another container
is renamed, while other writers may take the names it would get. A test for a name and a
move that does not replace are one step each; a move may fail, and so may a reading.
-/

namespace LosslessMusic.Finishing.ContainerExtensionFix

open Storage

abbrev Bytes := List UInt8

/-- What a path may name. -/
inductive Node
  | file (content : Bytes)
  | directory
  deriving DecidableEq, Repr

/-- The entries of the result that are read or written. -/
structure Result where
  success : Bool := false
  already_exists : Bool := false
  file_path : String := ""
  audio_codec : String := ""
  actual_extension : Option String := none
  output_extension : Option String := none
  resolved_file_name : Option String := none
  deriving DecidableEq, Repr

/-- The code of an ASCII character. -/
def code (char : Char) : UInt8 :=
  UInt8.ofNat char.toNat

def hasAsciiAt (bytes : Bytes) (offset : Nat) (value : String) : Bool :=
  (value.toList.map code).isPrefixOf (bytes.drop offset)

def startsWithAscii (bytes : Bytes) (value : String) : Bool :=
  hasAsciiAt bytes 0 value

/-- The size that an ID3v2 header tells. -/
def tagSize (header : Bytes) : Nat :=
  [6, 7, 8, 9].foldl (fun size index => (size <<< 7) ||| ((header.getD index 0).toNat &&& 0x7f)) 0

/-- `hasFlacAfterId3`. -/
def hasFlacAfterId3 (content header : Bytes) : Bool :=
  let offset := 10 + tagSize header + if header.getD 5 0 &&& 0x10 ≠ 0 then 10 else 0
  if content.length < offset + 4 then false
  else startsWithAscii ((content.drop offset).take 4) "fLaC"

/-- The extension of the container, where it is not the one the file has. -/
def ext (content : Bytes) (audio_codec : String) : Option String :=
  let header := content.take 12
  let count := header.length
  if count ≥ 4 && startsWithAscii header "fLaC" then none
  else if count ≥ 8 && hasAsciiAt header 4 "ftyp" then
    if Text.toLowerCase audio_codec = "ac4" || Text.toLowerCase audio_codec = "ac-4" then
      some ".mp4"
    else some ".m4a"
  else if count ≥ 4 && startsWithAscii header "OggS" then some ".opus"
  else if count ≥ 3 && startsWithAscii header "ID3" then
    if count ≥ 10 && hasFlacAfterId3 content header then none else some ".mp3"
  else if count ≥ 2 && header.getD 0 0 = 0xff && header.getD 1 0 &&& 0xf6 = 0xf0 then some ".aac"
  else if count ≥ 2 && header.getD 0 0 = 0xff && header.getD 1 0 &&& 0xe0 = 0xe0 &&
      header.getD 1 0 &&& 0x06 ≠ 0 then
    some ".mp3"
  else none

/-- `File(path).path`. -/
def normalized (path : String) : List Char :=
  squeeze path.toList

/-- The directory of a path with its slash. -/
def parent (path : String) : List Char :=
  ((normalized path).reverse.dropWhile (· ≠ '/')).reverse

/-- `File(path).name`. -/
def name (path : String) : List Char :=
  ((normalized path).reverse.takeWhile (· ≠ '/')).reverse

/-- `source.path`. -/
def source (path : String) : String :=
  String.ofList (normalized path)

/-- `suffix`, an `Int` of 32 bits, after so many times `suffix++`. -/
def suffix (tries : Nat) : Int :=
  (1 + tries : Int).bmod (2 ^ 32)

/-- The name that is tried next. -/
def targetName (path ext : String) (tries : Nat) : String :=
  let base := String.ofList (name path).dropLast.dropLast.dropLast.dropLast.dropLast
  if suffix tries = 1 then base ++ ext else base ++ " (" ++ toString (suffix tries) ++ ")" ++ ext

/-- `target.path`. -/
def target (path ext : String) (tries : Nat) : String :=
  String.ofList (parent path) ++ targetName path ext tries

/-- What is put into the result after the move. -/
def renamed (result : Result) (ext : String) (tries : Nat) : Result :=
  { result with
    file_path := target result.file_path ext tries
    actual_extension := result.actual_extension.map fun _ => ext
    output_extension := result.output_extension.map fun _ => ext
    resolved_file_name :=
      result.resolved_file_name.map fun _ => targetName result.file_path ext tries }

/-- Where the call is. -/
inductive Phase
  | checking
  | reading
  | looking (ext : String) (tries : Nat)
  | moving (ext : String) (tries : Nat)
  | returned
  deriving DecidableEq, Repr

/-- The files, and the call with its result; the last field counts its steps. -/
structure System where
  files : Files String Node
  phase : Phase := .checking
  result : Result
  turns : Nat := 0

/-- The call takes its next step, which may meet a fault, or another writer creates a
name, other than that of the download itself. -/
inductive Event
  | turn (fault : Bool)
  | other (path : String) (node : Node)
  deriving DecidableEq, Repr

namespace System

variable (s : System)

def isFile : Bool :=
  match s.files (source s.result.file_path) with
  | some (.file _) => true
  | _ => false

/-- `target.exists()`. -/
def taken (ext : String) (tries : Nat) : Bool :=
  (s.files (target s.result.file_path ext tries)).isSome

/-- The tests before the file is read. -/
def check : Phase :=
  if !s.result.success || s.result.already_exists then .returned
  else if !Text.endsWith (Text.toLowerCase s.result.file_path) ".flac" then .returned
  else if !s.isFile then .returned
  else .reading

/-- The reading of the header. -/
def read : Phase :=
  match s.files (source s.result.file_path) with
  | some (.file content) =>
    match ext content s.result.audio_codec with
    | none => .returned
    | some ext => .looking ext 0
  | _ => .returned

/-- `Files.move(source, target)` and what follows it. -/
def move (ext : String) (tries : Nat) : System :=
  match s.files (source s.result.file_path) with
  | none => { s with phase := .returned }
  | some _ =>
    { s with
      files := s.files.rename (source s.result.file_path) (target s.result.file_path ext tries) true
      phase := .returned
      result := renamed s.result ext tries }

/-- One step of `apply`. -/
def turn (fault : Bool) : Option System :=
  match s.phase with
  | .checking => some { s with phase := s.check }
  | .reading => some { s with phase := if fault then .returned else s.read }
  | .looking ext tries =>
    some
      { s with
        phase := if s.taken ext tries then .looking ext (tries + 1) else .moving ext tries }
  | .moving ext tries =>
    if s.taken ext tries then some { s with phase := .looking ext (tries + 1) }
    else if fault then some { s with phase := .returned }
    else some (s.move ext tries)
  | .returned => none

/-- One event. -/
def step : Event → Option System
  | .turn fault => (s.turn fault).map fun next => { next with turns := s.turns + 1 }
  | .other path node =>
    if (s.files path).isSome || path = source s.result.file_path then none
    else some { s with files := s.files.write path node }

/-- The system as a machine; any files and any result may be there at first. -/
def machine : Transition.Machine System Event where
  Start s := s.phase = .checking ∧ s.turns = 0
  step := step

end System

/-- What `PostDownload.apply` hands on: the result as it was, where its path is. -/
def reported (original : Result) (result : Result) : Result :=
  if result.file_path = original.file_path then original else result

end LosslessMusic.Finishing.ContainerExtensionFix
