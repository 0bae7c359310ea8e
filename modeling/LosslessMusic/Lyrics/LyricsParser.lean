import LosslessMusic.Pattern.Edges
import LosslessMusic.Text

/-!
# Lyrics with time tags

`lyrics_parser.dart`: lyrics in lines with time tags in brackets, words with time tags in angle
brackets, and the search for the line of a position. Times are in microseconds, in 64 bits. The
sort of the platform, which need not be stable, is a parameter.
-/

namespace LosslessMusic.Lyrics

open Pattern (trimBy)

structure LyricWord where
  time : Int
  text : List Char
  deriving DecidableEq, Repr

/-- `LyricLine`; lines with time tags have no end. -/
structure LyricLine where
  time : Int
  text : List Char
  words : List LyricWord
  deriving DecidableEq, Repr

structure ParsedLyrics where
  synced : Bool
  wordSynced : Bool
  lines : List LyricLine
  plainText : List Char
  deriving DecidableEq, Repr

namespace LyricsParser

/-- `text.trim()`. -/
def trim (text : List Char) : List Char :=
  trimBy Text.isDartSpace text

/-- `text.trimRight()`. -/
def trimRight (text : List Char) : List Char :=
  text.rdropWhile Text.isDartSpace

/-- `lines.join('\n')`. -/
def joinLines (lines : List (List Char)) : List Char :=
  ['\n'].intercalate lines

/-! ## Time tags -/

/-- The number that digits stand for. -/
def digitsValue (digits : List Char) : Nat :=
  digits.foldl (fun value digit => 10 * value + (digit.toNat - 48)) 0

/-- `\d{1,most}` before what is no digit. -/
def someDigits (most : Nat) (text : List Char) : Option (List Char × List Char) :=
  let digits := text.takeWhile Char.isDigit
  if digits ≠ [] ∧ digits.length ≤ most then some (digits, text.dropWhile Char.isDigit) else none

/-- `_toDuration`; of at most three digits each it never overflows. -/
def toDuration (minutes seconds places : List Char) : Int :=
  let milliseconds :=
    if places = [] then 0 else digitsValue ((places.rightpad 3 '0').take 3)
  digitsValue minutes * 60000000 + digitsValue seconds * 1000000 + milliseconds * 1000

/-- `_lineTimeTag` or `_wordTimeTag` at the beginning: the time, and how long the tag is. -/
def timeTag (opening closing : Char) : List Char → Option (Int × Nat)
  | [] => none
  | first :: text =>
    if first ≠ opening then none
    else
      (someDigits 3 text).bind fun (minutes, text) =>
        match text with
        | ':' :: text =>
          (someDigits 2 text).bind fun (seconds, text) =>
            match text with
            | [] => none
            | mark :: text =>
              if mark = closing then
                some (toDuration minutes seconds [], minutes.length + seconds.length + 3)
              else if mark = '.' ∨ mark = ':' then
                (someDigits 3 text).bind fun (places, text) =>
                  if text.head? = some closing then
                    some (toDuration minutes seconds places,
                      minutes.length + seconds.length + places.length + 4)
                  else none
              else none
        | _ => none

/-- The text before the first tag, and the times of the tags with the texts behind them; of a
tag so many characters are still left out. -/
def tagged (opening closing : Char) : Nat → List Char → List Char × List (Int × List Char)
  | _, [] => ([], [])
  | skip + 1, _ :: rest => tagged opening closing skip rest
  | 0, char :: rest =>
    match timeTag opening closing (char :: rest) with
    | some (time, length) =>
      let (text, tags) := tagged opening closing (length - 1) rest
      ([], (time, text) :: tags)
    | none =>
      let (text, tags) := tagged opening closing 0 rest
      (char :: text, tags)

def parseWords (content : List Char) : List LyricWord :=
  ((tagged '<' '>' 0 content).2.filter fun tag => trim tag.2 ≠ []).map fun tag =>
    ⟨tag.1, tag.2⟩

/-- `content.replaceAll(_wordTimeTag, '')`. -/
def withoutTags (content : List Char) : List Char :=
  (tagged '<' '>' 0 content).1 ++ (tagged '<' '>' 0 content).2.flatMap Prod.snd

/-! ## Tag lines -/

/-- The key of a line that matches `_idTag`. -/
def idTag (line : List Char) : Option (List Char) :=
  let key := ((line.drop 1).takeWhile (· ≠ ':')).map Char.toLower
  let value := (line.drop 1).dropWhile (· ≠ ':')
  let keys := ["ti", "ar", "al", "by", "offset", "length", "re", "ve", "tool", "au", "la",
    "encoder"].map String.toList
  if line.head? = some '[' ∧ keys.contains key = true ∧ 2 ≤ value.length ∧
      value.getLast? = some ']' ∧
      value.all (fun char => char ≠ '\u2028' && char ≠ '\u2029') = true then
    some key
  else none

/-- The value of a hexadecimal digit. -/
def hexDigit (char : Char) : Option Nat :=
  if char.isDigit then some (char.toNat - 48)
  else if 'a' ≤ char.toLower ∧ char.toLower ≤ 'f' then some (char.toLower.toNat - 87)
  else none

def tryParse (text : List Char) : Option Int :=
  let text := trim text
  let negative := text.head? = some '-'
  let digits := if negative ∨ text.head? = some '+' then text.drop 1 else text
  let signed (value : Nat) : Int := if negative then -(value : Int) else value
  if digits.take 2 = "0x".toList ∨ digits.take 2 = "0X".toList then
    ((digits.drop 2).mapM hexDigit).bind fun values =>
      let value := values.foldl (fun value digit => value * 16 + digit) 0
      if values = [] ∨ 2 ^ 64 ≤ value then none else some ((signed value).bmod (2 ^ 64))
  else if digits ≠ [] ∧ digits.all Char.isDigit = true ∧ -2 ^ 63 ≤ signed (digitsValue digits) ∧
      signed (digitsValue digits) < 2 ^ 63 then
    some (signed (digitsValue digits))
  else none

/-! ## `_parseLrcOrPlain` -/

/-- `text.split(RegExp(r'\r\n|\r|\n'))`. -/
def splitLines : List Char → List (List Char)
  | [] => [[]]
  | '\r' :: '\n' :: rest => [] :: splitLines rest
  | char :: rest =>
    if char = '\r' ∨ char = '\n' then [] :: splitLines rest
    else
      match splitLines rest with
      | [] => [[char]]
      | line :: lines => (char :: line) :: lines

/-- What the loop over the lines has so far. -/
structure Read where
  parsed : List LyricLine := []
  plainBuffer : List (List Char) := []
  sawTimestamp : Bool := false
  sawWordTiming : Bool := false
  offsetMs : Int := 0

/-- One turn of the loop. -/
def readLine (read : Read) (rawLine : List Char) : Read :=
  let line := trimRight rawLine
  if trim line = [] then read
  else
    match idTag (trim line) with
    | some key =>
      if key = "offset".toList then
        let value := ((line.dropWhile (· ≠ ':')).drop 1).filter (· ≠ ']')
        { read with offsetMs := (tryParse (trim value)).getD 0 }
      else read
    | none =>
      match (tagged '[' ']' 0 line).2.getLast? with
      | none => { read with plainBuffer := read.plainBuffer ++ [trim line] }
      | some (_, behind) =>
        let content := trim behind
        let words := parseWords content
        let cleanContent := trim (withoutTags content)
        { read with
          parsed := read.parsed ++ (tagged '[' ']' 0 line).2.map fun tag =>
            ⟨tag.1, cleanContent, words⟩
          plainBuffer := read.plainBuffer ++ [cleanContent]
          sawTimestamp := true
          sawWordTiming := read.sawWordTiming || words ≠ [] }

/-- `_shift`, in 64 bits. -/
def shift (time offsetMs : Int) : Int :=
  let ms := (time.tdiv 1000 - offsetMs).bmod (2 ^ 64)
  ((if ms < 0 then 0 else ms) * 1000).bmod (2 ^ 64)

def parseLrcOrPlain (sort : List LyricLine → List LyricLine) (text : List Char) : ParsedLyrics :=
  let read := (splitLines text).foldl readLine {}
  if read.sawTimestamp = false then
    { synced := false
      wordSynced := false
      lines := []
      plainText := joinLines (((splitLines text).map trim).filter fun line =>
        line ≠ [] ∧ idTag line = none) }
  else
    let sorted := sort read.parsed
    let adjusted :=
      if read.offsetMs = 0 then sorted
      else
        sorted.map fun line =>
          { time := shift line.time read.offsetMs
            text := line.text
            words := line.words.map fun word =>
              { word with time := shift word.time read.offsetMs } }
    { synced := true
      wordSynced := read.sawWordTiming
      lines := adjusted
      plainText := joinLines (read.plainBuffer.filter (· ≠ [])) }

/-! ## `activeIndex` -/

/-- The loop of `activeIndex`. -/
def search (lines : List LyricLine) (position lo hi result : Int) : Int :=
  if lo ≤ hi then
    let mid := (lo + hi) / 2
    match lines[mid.toNat]? with
    | some line =>
      if line.time ≤ position then search lines position (mid + 1) hi mid
      else search lines position lo (mid - 1) result
    | none => result
  else result
termination_by (hi + 1 - lo).toNat

def activeIndex (lines : List LyricLine) (position : Int) : Int :=
  if lines = [] then -1 else search lines position 0 (lines.length - 1) (-1)

end LyricsParser
end LosslessMusic.Lyrics
