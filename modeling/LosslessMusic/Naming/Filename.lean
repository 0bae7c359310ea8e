import LosslessMusic.Pattern.Matching
import LosslessMusic.Text

/-!
# Filenames of the engine

`filename.rs` and `filename/template.rs`: a template is expanded with the metadata of a
download key by key, and the result is sanitized. Texts are lists of characters.
-/

namespace LosslessMusic.Naming.Filename

open Pattern

/-- What the code reads of a metadata value; a number is read by its integer. -/
inductive Value
  | text (chars : List Char)
  | number (integer : Int)
  | other
  deriving DecidableEq, Repr

/-- The metadata of a download. -/
abbrev Metadata := List (String × Value)

/-! ## Texts -/

/-- `text.trim_matches(chars)`. -/
def trimMatches (chars : String) (text : List Char) : List Char :=
  (text.dropWhile chars.toList.contains).rdropWhile chars.toList.contains

/-- `text.trim()`. -/
def trim (text : List Char) : List Char :=
  (text.dropWhile Text.isWhiteSpace).rdropWhile Text.isWhiteSpace

/-- `text.split_whitespace()`. -/
def splitWhitespace (text : List Char) : List (List Char) :=
  (text.splitOnP Text.isWhiteSpace).filter (· ≠ [])

/-- `words.join(" ")`. -/
def joinWords (words : List (List Char)) : List Char :=
  [' '].intercalate words

/-- The bytes of a text. -/
def byteLength (text : List Char) : Nat :=
  (text.map Char.utf8Size).sum

/-- The longest beginning of so many bytes at most. -/
def truncate : Nat → List Char → List Char
  | _, [] => []
  | limit, char :: rest =>
    if char.utf8Size ≤ limit then char :: truncate (limit - char.utf8Size) rest else []

/-- `utf8(&bytes[..limit])`: each byte of a character that is cut becomes a replacement
character. -/
def firstBytes : Nat → List Char → List Char
  | _, [] => []
  | limit, char :: rest =>
    if char.utf8Size ≤ limit then char :: firstBytes (limit - char.utf8Size) rest
    else List.replicate limit '\uFFFD'

/-- `text.parse::<isize>()`. -/
def parseInteger (text : List Char) : Option Int :=
  let (negative, digits) :=
    match text with
    | '-' :: digits => (true, digits)
    | '+' :: digits => (false, digits)
    | digits => (false, digits)
  if digits ≠ [] ∧ digits.all Char.isDigit then
    let value : Nat := digits.foldl (fun value digit => 10 * value + (digit.toNat - 48)) 0
    let signed : Int := if negative then -value else value
    if -(2 ^ 63) ≤ signed ∧ signed < 2 ^ 63 then some signed else none
  else none

/-! ## `sanitize_filename` -/

/-- `MAX_SANITIZED_FILENAME_BYTES`. -/
def maxSanitizedFilenameBytes : Nat := 200

/-- A character that becomes a space. -/
def isReplaced (char : Char) : Bool :=
  "<>:\"/\\|?*".toList.contains char || char.toNat ≤ 0x1F

/-- `character.is_control()`. -/
def isControl (char : Char) : Bool :=
  char.toNat ≤ 0x1F || (0x7F ≤ char.toNat && char.toNat ≤ 0x9F)

/-- A character of a word, unless it repeats an underscore. -/
def pushChar (normalized : List Char) (char : Char) : List Char :=
  if char ≠ '_' ∨ normalized.getLast? ≠ some '_' then normalized ++ [char] else normalized

/-- A word behind a space. -/
def pushWord (normalized word : List Char) : List Char :=
  word.foldl pushChar (if normalized.isEmpty then normalized else normalized ++ [' '])

/-- The names beyond the limit are cut. -/
def limited (sanitized : List Char) : List Char :=
  if byteLength sanitized > maxSanitizedFilenameBytes then
    trimMatches "_ " (trim (trimMatches ". " (truncate maxSanitizedFilenameBytes sanitized)))
  else sanitized

def sanitizeFilename (filename : List Char) : List Char :=
  let filtered := filename.flatMap fun char =>
    if isReplaced char then [' '] else if isControl char then [] else [char]
  let trimmed := trimMatches ". " (trim filtered)
  let normalized := (splitWhitespace trimmed).foldl pushWord []
  let sanitized := limited (trimMatches "_ " normalized)
  if sanitized.isEmpty then "Unknown".toList else sanitized

/-! ## `build_filename` -/

/-- A class of characters. -/
def oneOf (chars : String) : Pattern Char :=
  .one chars.toList.contains

/-- A negated class of characters. -/
def noneOf (chars : String) : Pattern Char :=
  .one fun char => !chars.toList.contains char

/-- `[\t\n\f\r ]`. -/
def blank : Pattern Char :=
  oneOf "\t\n\u000C\r "

def numbers : Pattern Char :=
  inOrder [
    exactly ['{'],
    firstOf (["track", "disc", "playlist_position", "playlistPosition", "position"].map
      fun name => exactly name.toList),
    exactly [':'],
    oneOrMore (.one fun char => '0' ≤ char && char ≤ '9'),
    exactly ['}']]

def dates : Pattern Char :=
  inOrder [exactly ('{' :: "date:".toList), oneOrMore (noneOf "\x7b\x7d"), exactly ['}']]

/-- `EMPTY_GROUP`. -/
def emptyGroup : Pattern Char :=
  .either (inOrder [exactly ['['], .many blank, exactly [']']])
    (inOrder [exactly ['('], .many blank, exactly [')']])

def dangling : Pattern Char :=
  inOrder [.many blank, oneOf "-_|", .many blank, oneOf "])"]

/-- `REPEATED`. -/
def repeatedDashes : Pattern Char :=
  inOrder [.many blank, oneOf "-–—_|", .many blank,
    oneOrMore (.sequence (oneOf "-–—_|") (.many blank))]

def string (metadata : Metadata) (key : String) : List Char :=
  match metadata.lookup key with
  | some (.text value) => trim value
  | some (.number value) => (toString value).toList
  | _ => []

/-- The names a number can have. -/
def aliases (key : String) : List String :=
  if key = "track" then ["track_number"]
  else if key = "disc" then ["disc_number"]
  else if key = "playlist_position" then ["playlistPosition", "playlist position", "position"]
  else []

def integer (metadata : Metadata) (key : String) : Int :=
  ((key :: aliases key).findSome? fun name =>
    match metadata.lookup name with
    | some (.text value) => parseInteger (trim value)
    | some (.number value) => some value
    | _ => none).getD 0

def padded (number width : Int) : List Char :=
  if number ≤ 0 ∨ width ≤ 0 then []
  else if width > 1000000 then "%!(BADWIDTH)".toList ++ (toString number).toList
  else
    let digits := (toString number).toList
    List.replicate (width.toNat - digits.length) '0' ++ digits

/-- What a match of `NUMBERS` is replaced by. -/
def numberReplacement (metadata : Metadata) (found : List Char) : List Char :=
  let name := String.ofList ((found.drop 1).takeWhile (· ≠ ':'))
  let digits := (((found.drop 1).dropWhile (· ≠ ':')).drop 1).dropLast
  let key :=
    if name = "playlistPosition" ∨ name = "position" then "playlist_position" else name
  match parseInteger digits with
  | some width => padded (integer metadata key) width
  | none => []

/-- The first date that is there. -/
def dateOf (metadata : Metadata) : List Char :=
  ((["date", "release_date", "year"].map (string metadata)).find? (· ≠ [])).getD []

/-- The year, or the beginning of the date. -/
def yearOf (metadata : Metadata) : List Char :=
  let year := string metadata "year"
  if year.isEmpty then firstBytes 4 (dateOf metadata) else year

/-- The placeholders in the order of their keys. -/
def placeholders (metadata : Metadata) : List (String × List Char) :=
  let track := integer metadata "track"
  let disc := integer metadata "disc"
  let position := integer metadata "playlist_position"
  [("album", string metadata "album"), ("artist", string metadata "artist"),
    ("date", dateOf metadata),
    ("disc", padded disc 1),
    ("disc_raw", padded disc 1),
    ("id", string metadata "provider_id"),
    ("isrc", string metadata "isrc"),
    ("platform", string metadata "provider"),
    ("playlist position", padded position 2),
    ("playlistPosition", padded position 2),
    ("playlist_position", padded position 2),
    ("playlist_position_raw", padded position 1),
    ("position", padded position 2),
    ("provider", string metadata "provider"),
    ("provider_id", string metadata "provider_id"),
    ("quality", string metadata "quality"),
    ("quality_variant", string metadata "quality_variant"),
    ("title", string metadata "title"),
    ("track", padded track 2),
    ("track_raw", padded track 1),
    ("year", yearOf metadata)]

/-- A placeholder whose missing value asks for a cleanup. -/
def asksCleanup (key : String) : Bool :=
  ["isrc", "provider", "platform", "provider_id", "id"].contains key

/-- A placeholder is replaced everywhere. -/
def replacePlaceholder (state : List Char × Bool) (entry : String × List Char) : List Char × Bool :=
  let placeholder := '{' :: (entry.1.toList ++ ['}'])
  (((exactly placeholder).replaceAll fun _ => entry.2) state.1,
    state.2 || (entry.2.isEmpty && asksCleanup entry.1 && decide (placeholder <:+: state.1)))

/-- The cleanup behind missing values. -/
def cleanup (result : List Char) : List Char :=
  let groups := emptyGroup.replaceAll (fun _ => []) result
  let dangled := dangling.replaceAll (fun found => found.drop (found.length - 1)) groups
  let repeated := repeatedDashes.replaceAll (fun _ => " - ".toList) dangled
  trimMatches " -–—_|" (joinWords (splitWhitespace repeated))

/-- `build_filename`, over what `date::format` makes of a date and a layout. -/
def buildFilename (formatDate : List Char → List Char → List Char) (template : List Char)
    (metadata : Metadata) : List Char :=
  let template := if template.isEmpty then "{artist} - {title}".toList else template
  let numbered := numbers.replaceAll (numberReplacement metadata) template
  let dated := dates.replaceAll
    (fun found => formatDate (dateOf metadata) ((found.drop 6).dropLast)) numbered
  match (placeholders metadata).foldl replacePlaceholder (dated, false) with
  | (result, true) => cleanup result
  | (result, false) => result

end LosslessMusic.Naming.Filename
