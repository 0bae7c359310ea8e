import LosslessMusic.Scanning.Names
import Mathlib.Data.Rat.Floor

/-!
# Sheets and library rows

A folder as a scan finds it, `resolve_cue_audio`, and the rows that `scan_cue_sheet` and
`scan_audio_file` make of a file. Rows are without the time of the scan. What is read from the
files themselves is whatever the folder holds.
-/

namespace LosslessMusic.Scanning

/-- `CueTrack`. Times are in seconds. -/
structure CueTrack where
  number : Int
  title : List Char
  performer : List Char
  isrc : List Char
  composer : List Char
  startTime : Rat
  preGap : Rat

/-- `CueSheet`, as far as the scan reads it. -/
structure CueSheet where
  performer : List Char
  title : List Char
  fileName : Path
  genre : List Char
  date : List Char
  composer : List Char
  tracks : List CueTrack

/-- `AudioFile`: a file as the walk finds it. -/
structure AudioFile where
  path : Path
  modified : Int
  size : Nat
  deriving DecidableEq

inductive Value
  | text (text : List Char)
  | number (number : Int)
  | flag (flag : Bool)
  deriving DecidableEq

/-- A library row, with modification time zero where it has none. -/
structure Row where
  filePath : Path
  fileModTime : Int
  fields : List (String × Value)
  deriving DecidableEq

/-- What `read_library_metadata` finds in a file. -/
structure Tags where
  fields : List (String × Value)
  hasLyrics : Bool

/-- What `scan_cue_sheet` finds in the audio of a sheet. -/
structure Quality where
  bitDepth : Int
  sampleRate : Int
  duration : Rat

/-- A folder as a scan finds it: its files in the order of the walk, and what is read of them. -/
structure Folder where
  entries : List AudioFile
  distinct : (entries.map (·.path)).Nodup
  /-- `parse_cue_file`. -/
  sheet : Path → Except String CueSheet
  /-- Whether there is a file or directory of that name. -/
  there : Path → Except String Bool
  /-- The names in a directory, and which of them are directories. -/
  names : Path → Except String (Option (List (Path × Bool)))
  /-- `probe_quality`: bit depth, sample rate and samples. -/
  probeQuality : Path → Option (Int × Int × Int)
  /-- `read_file_metadata`: sample rate and duration. -/
  fileMetadata : Path → Option (Int × Rat)
  tags : Path → Tags
  /-- The cached cover of a file, under a key. -/
  cover : Path → List Char → Option (List Char)
  /-- Whether a sidecar has usable lyrics. -/
  lyrics : Path → Bool

/-! ## Rows -/

def prefer (value fallback : List Char) : List Char := if value = [] then fallback else value

def libraryId (path : Path) : List Char :=
  let hash := path.foldl (fun hash char => (hash * 33 + char.toNat) % 2 ^ 32) 5381
  "lib_".toList ++ Nat.toDigits 16 hash

/-- A field, unless it is empty. -/
def optional (key : String) (value : List Char) : List (String × Value) :=
  if value = [] then [] else [(key, .text value)]

/-- A field, unless it is zero. -/
def nonzero (key : String) (value : Int) : List (String × Value) :=
  if value = 0 then [] else [(key, .number value)]

def nextStart (sheet : CueSheet) (index : Nat) : Option Rat :=
  (sheet.tracks[index + 1]?).map fun track => if 0 ≤ track.preGap then track.preGap else track.startTime

/-- `as i64`, towards zero. -/
def whole (span : Rat) : Int := if 0 ≤ span then ⌊span⌋ else ⌈span⌉

def cueLibraryRows (path : Path) (sheet : CueSheet) (virtualPrefix : Path) (modTime : Int)
    (format : List Char) (quality : Quality) (coverPath : List Char) : List Row :=
  let base := prefer virtualPrefix path
  sheet.tracks.mapIdx fun index track =>
    let finish := (nextStart sheet index).or
      (if 0 < quality.duration then some quality.duration else none)
    { filePath := trackPath base track.number
      fileModTime := modTime
      fields :=
        [("id", .text (libraryId (base ++ Scanning.track ++ (toString track.number).toList))),
          ("trackName", .text (if track.title = [] then "Track ".toList ++ twoDigits track.number
            else track.title)),
          ("artistName", .text (prefer (prefer track.performer sheet.performer)
            "Unknown Artist".toList)),
          ("albumName", .text (prefer sheet.title "Unknown Album".toList)),
          ("hasLyrics", .flag false), ("totalTracks", .number sheet.tracks.length),
          ("discNumber", .number 1), ("totalDiscs", .number 1),
          ("format", .text ("cue+".toList ++ format))] ++
        nonzero "trackNumber" track.number ++
        nonzero "duration" (finish.elim 0 fun finish => whole (finish - track.startTime)) ++
        nonzero "bitDepth" quality.bitDepth ++ nonzero "sampleRate" quality.sampleRate ++
        optional "albumArtist" sheet.performer ++ optional "coverPath" coverPath ++
        optional "isrc" track.isrc ++ optional "releaseDate" sheet.date ++
        optional "genre" sheet.genre ++
        optional "composer" (prefer track.composer sheet.composer) }

namespace Folder

variable (folder : Folder)

/-- What `scan_cue_sheet` asks the audio for. -/
def quality (audio : Path) : Quality :=
  if libraryExtension audio = "flac".toList then
    match folder.probeQuality audio with
    | some (bitDepth, sampleRate, samples) =>
      ⟨bitDepth, sampleRate, if 0 < sampleRate ∧ 0 < samples then samples / sampleRate else 0⟩
    | none => ⟨0, 0, 0⟩
  else if libraryExtension audio = "mp3".toList then
    match folder.fileMetadata audio with
    | some (sampleRate, duration) => ⟨0, sampleRate, duration⟩
    | none => ⟨0, 0, 0⟩
  else ⟨0, 0, 0⟩

def scanCueSheet (file : AudioFile) (sheet : CueSheet) (audio : Path) : List Row :=
  cueLibraryRows file.path sheet [] file.modified (libraryExtension audio) (folder.quality audio)
    ((folder.cover audio []).getD [])

/-- Where the sidecar of a file is. -/
def sidecar (path : Path) : Path :=
  (if '.' ∈ backwards path then (path.reverse.dropWhile (· ≠ '.')).tail.reverse else path) ++
    ".lrc".toList

def scanAudioFile (file : AudioFile) : Row where
  filePath := file.path
  fileModTime := file.modified
  fields :=
    let tags := folder.tags file.path
    let key := file.path ++ '|' :: (toString file.size).toList ++ '|' :: (toString file.modified).toList
    tags.fields ++ optional "coverPath" ((folder.cover file.path key).getD []) ++
      [("hasLyrics", .flag (tags.hasLyrics || folder.lyrics (sidecar file.path)))]

/-! ## The audio of a sheet -/

/-- The names of a path. -/
def components (path : Path) : List Path :=
  (path.splitOn '/').filter fun name => name ≠ [] ∧ name ≠ ['.']

def clean (path : Path) : Path :=
  let rooted := path.head? = some '/'
  let names := (components path).foldl (fun (names : List Path) name =>
    if name ≠ "..".toList then names ++ [name]
    else if names.getLast?.any (· ≠ "..".toList) then names.dropLast
    else if rooted then names
    else names ++ [name]) []
  let text := (names.intersperse ['/']).flatten
  if rooted then '/' :: text else if text = [] then ['.'] else text

/-- `parent`, of the path of a file. -/
def parent (path : Path) : Path :=
  let before := path.reverse.dropWhile (· ≠ '/')
  if before = ['/'] then ['/'] else before.tail.reverse

def fileStem (path : Path) : List Char :=
  let name := (backwards path).reverse
  let stem := (name.reverse.dropWhile (· ≠ '.')).tail.reverse
  if stem = [] then name else stem

/-- The candidate of that name in a directory, if it is there. -/
def candidate (directory name : Path) : Except String (Option Path) :=
  let candidate := clean (directory ++ '/' :: name.dropWhile (· = '/'))
  (folder.there candidate).map fun there => if there then some candidate else none

/-- The first candidate that is there. -/
def firstCandidate (directory : Path) : List Path → Except String (Option Path)
  | [] => .ok none
  | name :: names => do
      match ← folder.candidate directory name with
      | some path => .ok (some path)
      | none => firstCandidate directory names

/-- The extensions that `resolve_cue_audio` tries. -/
def audioExtensions : List (List Char) :=
  ["flac", "wav", "aiff", "aif", "ape", "mp3", "ogg", "wv", "m4a"].map String.toList

/-- The extensions for which it looks in a directory. -/
def listedExtensions : List (List Char) :=
  ["flac", "wav", "ape", "mp3", "ogg", "wv", "m4a", "aiff"].map String.toList

/-- `resolve_cue_audio`, beside the sheet. -/
def resolveCueAudio (path name : Path) : Except String Path := do
  let directory := if parent path = [] then ['.'] else parent path
  let suffix := libraryExtension name
  let stem := if suffix = [] then name else name.take (name.length - suffix.length - 1)
  let named := audioExtensions.flatMap fun extension =>
    [stem ++ '.' :: extension, stem ++ '.' :: extension.map Char.toUpper]
  let beside := audioExtensions.map fun extension => fileStem path ++ '.' :: extension
  match ← folder.firstCandidate directory (name :: named ++ beside) with
  | some audio => .ok audio
  | none =>
    let missing : Except String Path := .error ("audio file not found for cue: " ++
      String.ofList path ++ " (referenced: " ++ String.ofList name ++ ")")
    match ← folder.names directory with
    | none => missing
    | some names =>
      match names.filter fun (name, isDirectory) =>
          !isDirectory && listedExtensions.contains (libraryExtension name) with
      | [(only, _)] =>
        match ← folder.candidate directory only with
        | some audio => .ok audio
        | none => missing
      | _ => missing

def scanCueFileForLibrary (file : AudioFile) : Except String (List Row) := do
  let sheet ← folder.sheet file.path
  let audio ← folder.resolveCueAudio file.path sheet.fileName
  .ok (folder.scanCueSheet file sheet audio)

end Folder

/-! ## Paths of rows -/

theorem mem_cueLibraryRows {path : Path} {sheet : CueSheet} {modTime : Int} {format : List Char}
    {quality : Quality} {coverPath : List Char} {row : Row}
    (member : row ∈ cueLibraryRows path sheet [] modTime format quality coverPath) :
    row.fileModTime = modTime ∧ ∃ track ∈ sheet.tracks, row.filePath = trackPath path track.number := by
  obtain ⟨index, bound, same⟩ := List.mem_mapIdx.mp member
  subst same
  exact ⟨rfl, sheet.tracks[index], List.getElem_mem bound, rfl⟩

end LosslessMusic.Scanning
