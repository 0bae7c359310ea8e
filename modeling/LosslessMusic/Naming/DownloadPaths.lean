import LosslessMusic.Codec.Utf16
import LosslessMusic.Pattern.Matching

/-!
# Folder segments and basename templates

`download_paths.dart`: path segments are sanitized one at a time, relative folders are
built from them, and placeholders without a value are pruned from a basename template.
Texts are lists of 16-bit units, and the patterns of the source match units.
-/

namespace LosslessMusic.Naming

open Codec Pattern

/-! ## Texts and patterns of Dart -/

/-- `text.trim()` takes this unit away. -/
def isTrimmed (unit : UInt16) : Bool :=
  Text.isDartSpace (Char.ofNat unit.toNat)

/-- `\s` of a pattern, which differs from what is trimmed at U+0085. -/
def isSpace (unit : UInt16) : Bool :=
  isTrimmed unit && unit != 0x85

/-- `text.trim()`. -/
def trim (text : Utf16) : Utf16 :=
  (text.dropWhile isTrimmed).rdropWhile isTrimmed

/-- The unit is one of these. -/
def isOneOf (chars : String) (unit : UInt16) : Bool :=
  (Utf16.ofString chars).contains unit

/-- `\s`. -/
def space : Pattern UInt16 :=
  .one isSpace

/-- A class of units. -/
def oneOf (chars : String) : Pattern UInt16 :=
  .one (isOneOf chars)

/-- A negated class of units. -/
def noneOf (chars : String) : Pattern UInt16 :=
  .one fun unit => !isOneOf chars unit

/-- A text that stands for itself. -/
def literal (text : String) : Pattern UInt16 :=
  exactly (Utf16.ofString text)

/-- A text of small letters that stands for itself in either case. -/
def anyCase (text : String) : Pattern UInt16 :=
  inOrder ((Utf16.ofString text).map fun unit =>
    .one fun found => found == unit || found == unit - 32)

/-- `values.join(separator)`. -/
def join (separator : String) (texts : List Utf16) : Utf16 :=
  (Utf16.ofString separator).intercalate texts

/-! ## Folder segments -/

/-- How downloads are grouped into folders. -/
inductive FolderOrganization
  | none
  | artist
  | album
  | artistAlbum
  deriving DecidableEq, Repr

/-- The metadata that folder names are built from. -/
structure FolderMetadata where
  artist : Utf16
  albumArtist : Option Utf16
  album : Option Utf16
  deriving DecidableEq, Repr

/-- `_invalidSegmentChars`. -/
def isInvalid (unit : UInt16) : Bool :=
  isOneOf "\\/:*?\"<>|" unit

/-- A unit that a segment keeps: no control below the space, and no U+007F. A rune of
two units is none of these, so the runes are filtered unit by unit. -/
def isKept (unit : UInt16) : Bool :=
  0x20 ≤ unit.toNat && unit != 0x7F

/-- A dot or white space, which no segment begins or ends with. -/
def isEdge (unit : UInt16) : Bool :=
  isOneOf "." unit || isSpace unit

def sanitizeFolderSegment (name : Utf16) : Utf16 :=
  let withoutControl := name.filter isKept
  let spaced :=
    (oneOrMore space).replaceAll (fun _ => Utf16.ofString " ")
      ((Pattern.one isInvalid).replaceAll (fun _ => Utf16.ofString " ") withoutControl)
  let out :=
    (sequence (oneOrMore (.one isEdge)) .finish).replaceAll (fun _ => [])
      ((sequence .start (oneOrMore (.one isEdge))).replaceAll (fun _ => []) (trim spaced))
  if out.isEmpty then Utf16.ofString "Unknown" else out

def featuredArtist : Pattern UInt16 :=
  inOrder [.either (oneOrMore space) (inOrder [.many space, oneOf "[(", .many space]), firstOf [
      .sequence (anyCase "feat") (optional (oneOf ".")),
      .sequence (anyCase "ft") (optional (oneOf ".")),
      anyCase "featuring",
      anyCase "with"],
    oneOrMore space,
    .many (noneOf "\n\r\u2028\u2029"),
    .finish]

/-- The segments of `buildRelativeFolder`. -/
def relativeSegments (mode : FolderOrganization) (track : FolderMetadata) : List Utf16 :=
  let rawArtist :=
    [track.albumArtist, some track.artist].findSome? fun value =>
      value.bind fun text => if (trim text).isEmpty then none else some text
  let artist := rawArtist.map fun text =>
    sanitizeFolderSegment (featuredArtist.replaceAll (fun _ => []) text)
  let album := track.album.bind fun text =>
    if (trim text).isEmpty then none else some (sanitizeFolderSegment text)
  let segments :=
    match mode with
    | .artist => [artist]
    | .album => [album]
    | .artistAlbum => [artist, album]
    | .none => []
  segments.filterMap id

def buildRelativeFolder (mode : FolderOrganization) (track : FolderMetadata) : Utf16 :=
  if mode = .none then []
  else join "/" (relativeSegments mode track)

/-! ## Basename templates -/

/-- More than one disc is known, or the disc is a later one and no total is known. -/
def isMultiDisc (discNumber totalDiscs : Option Int) : Bool :=
  totalDiscs.getD 0 > 1 || (totalDiscs.getD 0 ≤ 0 && discNumber.getD 0 > 1)

def basenameTemplateFor (mode : FolderOrganization) (discNumber totalDiscs : Option Int) :
    Utf16 :=
  if mode = .none then Utf16.ofString "{artist} - {title}"
  else if isMultiDisc discNumber totalDiscs then Utf16.ofString "{disc}-{track}. {title}"
  else Utf16.ofString "{track}. {title}"

/-- A unit of a key: `[a-z_]`. -/
def isKeyUnit (unit : UInt16) : Bool :=
  (97 ≤ unit.toNat && unit.toNat ≤ 122) || isOneOf "_" unit

def placeholder : Pattern UInt16 :=
  inOrder [literal "\x7b", oneOrMore (.one isKeyUnit),
    optional (.sequence (literal ":") (.many (noneOf "\x7d"))),
    literal "\x7d"]

/-- The unit that stands where a placeholder was. -/
def gap : UInt16 := 0

def pruneEmptyPlaceholders (template : Utf16) (values : List (Utf16 × Utf16)) : Utf16 :=
  let out := placeholder.replaceAll
    (fun found =>
      match values.lookup ((found.drop 1).takeWhile isKeyUnit) with
      | none => found
      | some value => if (trim value).isEmpty then [gap] else found)
    template
  if !out.contains gap then template
  else
    let grouped :=
      (inOrder [oneOf "([", .many space, .one (· == gap), .many space, oneOf ")]"]).replaceAll
        (fun _ => [gap]) out
    let glue := optional (oneOf "-–—.,/")
    let closed :=
      (inOrder [.many space, glue, .many space, .one (· == gap), .many space, glue,
        .many space]).replaceAll (fun _ => Utf16.ofString " ") grouped
    let spaced := trim ((oneOrMore space).replaceAll (fun _ => Utf16.ofString " ") closed)
    let edge : UInt16 → Bool := fun unit => isOneOf "-–—.,/" unit || isSpace unit
    let pruned :=
      (sequence (oneOrMore (.one edge)) .finish).replaceAll (fun _ => [])
        ((sequence .start (oneOrMore (.one edge))).replaceAll (fun _ => []) spaced)
    if pruned.isEmpty then template else pruned

end LosslessMusic.Naming
