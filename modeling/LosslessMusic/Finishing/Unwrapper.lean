import LosslessMusic.Finishing.InPlace
import LosslessMusic.Finishing.Paths
import LosslessMusic.Queue.Executors

/-!
# Unwrapping a delivered MP4 file

`Mp4FlacUnwrapper.finalize` over an explicit file system. What FFmpeg, the engine's
tag editor and the file system answer at each place of the code is an argument.
-/

namespace LosslessMusic.Finishing.Mp4FlacUnwrapper

open Storage Queue

/-- The files of the device, by absolute path. -/
abbrev Disk := Files String Bytes

/-- A run of FFmpeg. One that fails may have opened its output. -/
inductive Run
  | succeeded (output : Bytes)
  | failed (written : Option Bytes)
  deriving DecidableEq, Repr

/-- The answers at the places of `decrypt` and of `unwrapPlainFlac`. -/
structure Conversion where
  /-- `out.delete()` before the run. -/
  clear : Bool
  run : Run
  /-- `out.delete()` behind a run that failed. -/
  discard : Bool
  /-- `File(path).delete()` behind one that succeeded. -/
  remove : Bool
  deriving DecidableEq, Repr

/-- An answer of `editFileMetadata`, which publishes a rewritten file at once. -/
structure Edit where
  accepted : Bool
  rewritten : Option { content : Bytes // content ≠ [] }
  deriving DecidableEq, Repr

/-- The answers at the places of `repair`. -/
structure Repair where
  clear : Bool
  run : Run
  discard : Bool
  /-- `file.delete()`. -/
  remove : Bool
  /-- `tmp.renameTo(file)`. -/
  swap : Bool
  /-- `tmp.delete()` when the swap failed. -/
  cleanUp : Bool
  deriving DecidableEq, Repr

/-- All answers in a call of `finalize`. -/
structure Answers where
  decrypt : Conversion
  /-- The codec of the first audio stream of a file that is there. -/
  codec : String
  unwrap : Conversion
  tag : Edit
  repair : Repair
  tagAgain : Edit
  deriving DecidableEq, Repr

/-- What `tagFlac` reads of the request. -/
structure TagRequest where
  embedMetadata : Bool := true
  trackName : String := ""
  artistName : String := ""
  albumName : String := ""
  albumArtist : String := ""
  isrc : String := ""
  genre : String := ""
  releaseDate : String := ""
  trackNumber : Int := 0
  deriving DecidableEq, Repr

/-- The tags of a request. -/
def TagRequest.tags (request : TagRequest) : List (String × String) :=
  let texts := [("title", request.trackName), ("artist", request.artistName),
    ("album", request.albumName), ("albumArtist", request.albumArtist),
    ("isrc", request.isrc), ("genre", request.genre)]
  let date := Text.trim request.releaseDate
  (texts.map fun entry => (entry.1, Text.trim entry.2)).filter (·.2 ≠ "") ++
    (if date.length ≥ 4 then [("year", String.ofList (date.toList.take 4))] else []) ++
    (if request.trackNumber > 0 then
      [("trackNumber", toString request.trackNumber)] else [])

/-- `runFfmpeg`: without its input the run fails before it opens the output. -/
def runFfmpeg (run : Run) (disk : Disk) (input output : String) : Bool × Disk :=
  if (disk input).isNone then (false, disk)
  else
    match run with
    | .succeeded content => (true, disk.write output content)
    | .failed (some content) => (false, disk.write output content)
    | .failed none => (false, disk)

/-- The output is there and not empty. -/
def filled (disk : Disk) (name : String) : Bool :=
  match disk name with
  | some (_ :: _) => true
  | _ => false

/-- What `decrypt` and `unwrapPlainFlac` do alike: the output is cleared, FFmpeg run,
and either the output or the input removed. -/
def convert (conversion : Conversion) (disk : Disk) (input output : String) : Bool × Disk :=
  let disk := disk.delete output conversion.clear
  match runFfmpeg conversion.run disk input output with
  | (ok, disk) =>
    if !ok || !filled disk output then (false, disk.delete output conversion.discard)
    else (true, disk.delete input conversion.remove)

/-- `tagFlac`; a request that cannot be parsed fails. -/
def tagFlac (edit : Edit) (disk : Disk) (file : String) (request : Option TagRequest) :
    Bool × Disk :=
  match request with
  | none => (false, disk)
  | some request =>
    if !request.embedMetadata then (true, disk)
    else if request.tags.isEmpty then (true, disk)
    else if (disk file).isNone then (false, disk)
    else
      (edit.accepted,
        match edit.rewritten with
        | some content => disk.write file content
        | none => disk)

/-- The name of the repaired file. -/
def repairName (file : String) : String :=
  absolutePath (file ++ ".repair.flac")

/-- `repair`. -/
def repairFile (repair : Repair) (disk : Disk) (file : String) : Bool × Disk :=
  let tmp := repairName file
  let disk := disk.delete tmp repair.clear
  match runFfmpeg repair.run disk file tmp with
  | (ok, disk) =>
    if !ok || !filled disk tmp then (false, disk.delete tmp repair.discard)
    else if !disk.deletes file repair.remove then (false, disk.delete tmp repair.cleanUp)
    else
      let disk := disk.delete file repair.remove
      if !disk.renames tmp repair.swap then (false, disk.delete tmp repair.cleanUp)
      else (true, disk.rename tmp file repair.swap)

def tagFlacWithRepair (answers : Answers) (disk : Disk) (file : String)
    (request : Option TagRequest) : Disk :=
  match tagFlac answers.tag disk file request with
  | (true, disk) => disk
  | (false, disk) =>
    match repairFile answers.repair disk file with
    | (true, disk) => (tagFlac answers.tagAgain disk file request).2
    | (false, disk) => disk

/-- The file a conversion of `path` writes. -/
def outputOf (path extension : String) : String :=
  absolutePath (Text.beforeLastDot path ++ extension)

/-- There is a key that FFmpeg can use, and another name for the output. -/
def decrypts (path : String) (decryption : Decryption) : Bool :=
  decryption.key ≠ "" && decryption.strategy ∈ movKeyStrategies &&
    outputOf path decryption.extension ≠ path

def decrypt (answers : Answers) (disk : Disk) (path : String) (decryption : Decryption)
    (request : Option TagRequest) : Option String × Disk :=
  if !decrypts path decryption then (none, disk)
  else
    let out := outputOf path decryption.extension
    match convert answers.decrypt disk (absolutePath path) out with
    | (false, disk) => (none, disk)
    | (true, disk) =>
      (some out,
        if decryption.extension = ".flac" then tagFlacWithRepair answers disk out request
        else disk)

def audioCodecOf (answers : Answers) (disk : Disk) (path : String) : String :=
  if (disk (absolutePath path)).isSome then answers.codec else ""

def unwrapPlainFlac (answers : Answers) (disk : Disk) (path : String)
    (request : Option TagRequest) : String × Disk :=
  if audioCodecOf answers disk path ≠ "flac" then (path, disk)
  else
    let out := outputOf path ".flac"
    match convert answers.unwrap disk (absolutePath path) out with
    | (false, disk) => (path, disk)
    | (true, disk) => (out, tagFlacWithRepair answers disk out request)

/-- `finalize`, with `none` for a text that is no JSON object. -/
def finalize (answers : Answers) (disk : Disk) (result : Option DownloadResult)
    (request : Option TagRequest) : String × Disk :=
  match result with
  | none => ("", disk)
  | some result =>
    let path := result.filePath.getD ""
    if path = "" || !looksLikeMp4Container path then (path, disk)
    else if (disk (absolutePath path)).isNone then (path, disk)
    else
      match decrypt answers disk path (Queue.Mp4FlacUnwrapper.decryption result) request with
      | (some decrypted, disk) => (decrypted, disk)
      | (none, disk) => unwrapPlainFlac answers disk path request

end LosslessMusic.Finishing.Mp4FlacUnwrapper
