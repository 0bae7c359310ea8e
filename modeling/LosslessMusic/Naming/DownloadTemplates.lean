import LosslessMusic.Naming.DownloadPaths

/-!
# Filename and folder templates

`download_templates.dart`: user templates are validated, expanded with the metadata of
a track in one pass over their placeholders, and turned into a download target.
-/

namespace LosslessMusic.Naming

open Codec Pattern

/-- The metadata of a track that templates read. -/
structure Track where
  id : Utf16
  name : Utf16
  artists : Utf16
  albumName : Option Utf16 := none
  albumArtist : Option Utf16 := none
  isrc : Option Utf16 := none
  source : Option Utf16 := none
  trackNumber : Option Int := none
  discNumber : Option Int := none
  totalDiscs : Option Int := none
  releaseDate : Option Utf16 := none
  playlistPosition : Option Int := none
  deriving DecidableEq, Repr

namespace DownloadTemplates

/-- The placeholders without a width. -/
def placeholders : List Utf16 :=
  ["title", "artist", "album", "track", "track_raw", "disc", "disc_raw", "playlist_position",
    "playlist position", "playlistPosition", "position", "playlist_position_raw", "year",
    "date", "quality", "quality_variant", "isrc", "provider", "platform", "provider_id",
    "id"].map Utf16.ofString

def token : Pattern UInt16 :=
  inOrder [literal "\x7b", oneOrMore (noneOf "\x7b\x7d"), literal "\x7d"]

/-- `m[1]` of a match of `_token`. -/
def keyOf (found : Utf16) : Utf16 :=
  (found.drop 1).dropLast

def number : Pattern UInt16 :=
  inOrder [.start, firstOf (["track", "disc", "playlist_position", "playlistPosition",
      "position"].map literal),
    literal ":",
    optional (literal "0"),
    oneOf "123456789",
    .finish]

/-- The values that a track gives its numbers: a number that is positive, padded. -/
def padded (value : Option Int) (width : Nat) : Utf16 :=
  if value.getD 0 > 0 then
    let digits := Utf16.ofString (toString (value.getD 0))
    List.replicate (width - digits.length) 48 ++ digits
  else []

/-- The number that a key with a width stands for. -/
def numberOf (track : Track) (name : Utf16) : Option Int :=
  if name = Utf16.ofString "track" then track.trackNumber
  else if name = Utf16.ofString "disc" then track.discNumber
  else track.playlistPosition

/-- `int.parse` of digits. -/
def parseDigits (digits : Utf16) : Nat :=
  digits.foldl (fun value digit => 10 * value + (digit.toNat - 48)) 0

/-- The date of a track. -/
def dateOf (track : Track) : Utf16 :=
  trim (track.releaseDate.getD [])

/-- The provider's identifier behind the colon of a track's. -/
def providerIdOf (track : Track) : Utf16 :=
  if track.id.contains 58 then (track.id.dropWhile (· != 58)).drop 1 else []

/-- The values of the placeholders without a width. -/
def values (track : Track) (quality : Option Utf16) : List (Utf16 × Utf16) :=
  let date := dateOf track
  let providerId := providerIdOf track
  [("title", trim track.name), ("artist", trim track.artists),
    ("album", trim (track.albumName.getD [])),
    ("track", padded track.trackNumber 2),
    ("track_raw", padded track.trackNumber 1),
    ("disc", padded track.discNumber 1),
    ("disc_raw", padded track.discNumber 1),
    ("playlist_position", padded track.playlistPosition 2),
    ("playlist position", padded track.playlistPosition 2),
    ("playlistPosition", padded track.playlistPosition 2),
    ("position", padded track.playlistPosition 2),
    ("playlist_position_raw", padded track.playlistPosition 1),
    ("date", date),
    ("year", if date.length ≥ 4 then date.take 4 else []),
    ("isrc", trim (track.isrc.getD [])),
    ("provider", trim (track.source.getD [])),
    ("platform", trim (track.source.getD [])),
    ("provider_id", providerId),
    ("id", providerId),
    ("quality", quality.getD []),
    ("quality_variant", [])].map fun entry => (Utf16.ofString entry.1, entry.2)

/-- `values[key] ?? ''`. -/
def valueOf (track : Track) (quality : Option Utf16) (key : Utf16) : Utf16 :=
  ((values track quality).lookup key).getD []

/-- What a placeholder is replaced by. -/
def replacement (track : Track) (quality : Option Utf16) (found : Utf16) : Utf16 :=
  let key := keyOf found
  if number.hasMatch key then
    let parts := key.splitOn 58
    padded (numberOf track (parts.head?.getD [])) (parseDigits (parts.getLast?.getD []))
  else valueOf track quality key

/-- The keys whose missing values are cleaned up behind. -/
def optionalKeys : List String :=
  ["isrc", "provider", "platform", "provider_id", "id"]

/-- The template asks for an optional value that is missing. -/
def needsCleanup (template : Utf16) (track : Track) (quality : Option Utf16) : Bool :=
  optionalKeys.any fun key =>
    decide (Utf16.ofString ("\x7b" ++ key ++ "\x7d") <:+: template) &&
      (valueOf track quality (Utf16.ofString key)).isEmpty

/-- `\[\s*\]|\(\s*\)`. -/
def emptyGroup : Pattern UInt16 :=
  .either (inOrder [literal "[", .many space, literal "]"])
    (inOrder [literal "(", .many space, literal ")"])

/-- `\s*[-_|]\s*([\]\)])`. -/
def dangling : Pattern UInt16 :=
  inOrder [.many space, oneOf "-_|", .many space, oneOf "])"]

/-- `\s*[-–—_|]\s*(?:[-–—_|]\s*)+`. -/
def repeatedDashes : Pattern UInt16 :=
  inOrder [.many space, oneOf "-–—_|", .many space,
    oneOrMore (.sequence (oneOf "-–—_|") (.many space))]

/-- `^[ \-–—_|]+|[ \-–—_|]+$`. -/
def outerDashes : Pattern UInt16 :=
  .either (.sequence .start (oneOrMore (oneOf " -–—_|")))
    (.sequence (oneOrMore (oneOf " -–—_|")) .finish)

/-- The cleanup behind missing optional values. -/
def cleanup (result : Utf16) : Utf16 :=
  let groups := emptyGroup.replaceAll (fun _ => []) result
  let dangled := dangling.replaceAll (fun found => found.drop (found.length - 1)) groups
  let dashed := repeatedDashes.replaceAll (fun _ => Utf16.ofString " - ") dangled
  let spaced := (oneOrMore space).replaceAll (fun _ => Utf16.ofString " ") dashed
  outerDashes.replaceAll (fun _ => []) spaced

def expand (template : Utf16) (track : Track) (quality : Option Utf16) : Utf16 :=
  let result := token.replaceAll (replacement track quality) template
  if needsCleanup template track quality then cleanup result else result

def preview (template : Utf16) (track : Track) (quality : Option Utf16) : Utf16 :=
  sanitizeFolderSegment (expand template track quality)

/-- A separator of folders. -/
def isSeparator (unit : UInt16) : Bool :=
  isOneOf "/\\" unit

/-- The parts of a folder template. -/
def parts (template : Utf16) : List Utf16 :=
  template.splitOnP isSeparator

def folder (template : Utf16) (track : Track) (quality : Option Utf16) : Utf16 :=
  join "/" ((parts template).map fun part => preview part track quality)

def usable (value : Utf16) : Utf16 :=
  let spaced := (Pattern.one fun unit => unit.toNat < 0x20 || unit == 0x7F ||
      isOneOf "<>:\"/\\|?*" unit).replaceAll (fun _ => Utf16.ofString " ") value
  (Pattern.either (.sequence .start (oneOrMore (.one isEdge)))
    (.sequence (oneOrMore (.one isEdge)) .finish)).replaceAll (fun _ => []) spaced

def sample (multiDisc : Bool) : Track where
  id := Utf16.ofString "qobuz:123"
  name := Utf16.ofString "Sample Song"
  artists := Utf16.ofString "Sample Artist"
  albumName := some (Utf16.ofString "Sample Album")
  albumArtist := some (Utf16.ofString "Sample Artist")
  trackNumber := some 3
  discNumber := some (if multiDisc then 2 else 1)
  totalDiscs := some (if multiDisc then 2 else 1)
  releaseDate := some (Utf16.ofString "2026-11-07")
  isrc := some (Utf16.ofString "USABC2600001")
  source := some (Utf16.ofString "qobuz")
  playlistPosition := some 5

/-- A template without its placeholders. -/
def literals (template : Utf16) : Utf16 :=
  token.replaceAll (fun found =>
      if placeholders.contains (keyOf found) || number.hasMatch (keyOf found) then []
      else found)
    template

/-- `validate`: the code of what is wrong with a template. -/
def validate (template : Utf16) (asFolder : Bool) : Option String :=
  if (trim template).isEmpty || template.length > 1024 ||
      template.any (fun unit => unit.toNat < 0x20 || unit == 0x7F) then
    some "empty"
  else if !asFolder && template.any isSeparator then some "path"
  else if (literals template).any (isOneOf "\x7b\x7d") then some "placeholder"
  else
    let parts := if asFolder then parts template else [template]
    let drive : Pattern UInt16 :=
      inOrder [.start, .one fun unit =>
          (97 ≤ unit.toNat && unit.toNat ≤ 122) || (65 ≤ unit.toNat && unit.toNat ≤ 90),
        literal ":"]
    if parts.length > 16 ||
        parts.any (fun part =>
          (trim part).isEmpty || trim part = Utf16.ofString "." ||
            trim part = Utf16.ofString "..") ||
        (asFolder && drive.hasMatch template) then
      some "path"
    else if parts.any (fun part =>
        (usable (expand part (sample false) (some (Utf16.ofString "LOSSLESS")))).isEmpty) then
      some "empty"
    else none

end DownloadTemplates

open DownloadTemplates

/-- A target of `resolveDownloadTarget`. -/
structure DownloadTarget where
  dir : Utf16
  template : Utf16
  deriving DecidableEq, Repr

/-- `\{disc(?::0?[1-9]|_raw)?\}`. -/
def discToken : Pattern UInt16 :=
  inOrder [literal "\x7bdisc",
    optional (.either (inOrder [literal ":", optional (literal "0"), oneOf "123456789"])
      (literal "_raw")),
    literal "\x7d"]

/-- The relative folder of a target. -/
def relativeFolder (track : Track) (mode : FolderOrganization) (albumFolderTemplate : Utf16)
    (quality : Option Utf16) : Utf16 :=
  if !albumFolderTemplate.isEmpty && validate albumFolderTemplate true = none then
    folder albumFolderTemplate track quality
  else
    buildRelativeFolder mode
      { artist := track.artists, albumArtist := track.albumArtist, album := track.albumName }

/-- A base directory without its trailing slashes. -/
def withoutTrailingSlashes (baseDir : Utf16) : Utf16 :=
  (sequence (oneOrMore (oneOf "/")) .finish).replaceAll (fun _ => []) baseDir

def resolveDownloadTarget (baseDir : Utf16) (track : Track) (mode : FolderOrganization)
    (filenameTemplate albumFolderTemplate : Utf16) (quality : Option Utf16) : DownloadTarget :=
  let custom := !filenameTemplate.isEmpty && validate filenameTemplate false = none
  let chosen :=
    if custom then filenameTemplate
    else basenameTemplateFor mode track.discNumber track.totalDiscs
  -- A custom template for several discs is given the disc unless it names it.
  let basename :=
    if custom && isMultiDisc track.discNumber track.totalDiscs && !discToken.hasMatch chosen then
      Utf16.ofString "{disc}-" ++ chosen
    else chosen
  let date := dateOf track
  let template := pruneEmptyPlaceholders basename
    ([("artist", track.artists), ("title", track.name), ("album", track.albumName.getD []),
      ("track", ((track.trackNumber.map fun number => Utf16.ofString (toString number)).getD [])),
      ("disc", if track.discNumber.getD 0 > 0 then
        Utf16.ofString (toString (track.discNumber.getD 0)) else []),
      ("year", if date.length ≥ 4 then date.take 4 else [])].map
        fun entry => (Utf16.ofString entry.1, entry.2))
  let relative := relativeFolder track mode albumFolderTemplate quality
  { dir :=
      if relative.isEmpty then baseDir
      else withoutTrailingSlashes baseDir ++ Utf16.ofString "/" ++ relative
    template := template }

end LosslessMusic.Naming
