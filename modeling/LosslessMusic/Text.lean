import Mathlib.Algebra.Group.Int.Defs
import Mathlib.Algebra.GroupWithZero.Nat
import Mathlib.Data.List.DropRight
import Mathlib.Data.List.Infix

/-!
# String tests shared by the modelled sources

Dart, Kotlin and Rust test texts by substring, prefix and suffix after folding
to lower case. The tests work on character lists, so they evaluate in the
kernel.
-/

namespace LosslessMusic

/-- A property of the units of a text is decided unit by unit, not over every unit that
there is. -/
instance (priority := 2000) decidableForallUnit {Unit : Type} (text : List Unit)
    (property : Unit → Prop) [DecidablePred property] :
    Decidable (∀ unit ∈ text, property unit) :=
  List.decidableBAll property text

namespace Text

/-- Whether `needle` occurs in the list as a contiguous block. -/
def hasInfix (needle : List Char) : List Char → Bool
  | [] => needle.isEmpty
  | char :: rest => needle.isPrefixOf (char :: rest) || hasInfix needle rest

/-- `text.contains(needle)`. -/
def contains (text needle : String) : Bool :=
  hasInfix needle.toList text.toList

/-- `text.startsWith(head)`. -/
def startsWith (text head : String) : Bool :=
  head.toList.isPrefixOf text.toList

/-- `text.endsWith(tail)`. -/
def endsWith (text tail : String) : Bool :=
  tail.toList.isSuffixOf text.toList

/-- Lower case of one character. Besides the ASCII letters only the Kelvin sign
and the dotted capital I have a lower case containing an ASCII letter; every
pattern tested in the sources is ASCII, so other letters stay as they are. -/
def lowerChar (char : Char) : List Char :=
  if char = '\u212A' then ['k']
  else if char = '\u0130' then ['i', '\u0307']
  else [char.toLower]

/-- `text.toLowerCase()`. -/
def toLowerCase (text : String) : String :=
  String.ofList (text.toList.flatMap lowerChar)

/-- `lowercase(text)` of the Rust core, one character for one character. -/
def lowercase (text : String) : String :=
  String.ofList (text.toList.map fun char => (lowerChar char).headD char)

/-- `text.trim()`, for the ASCII white space that keys and file names of a result
can carry. -/
def trim (text : String) : String :=
  let rest := text.toList.dropWhile Char.isWhitespace
  String.ofList (rest.reverse.dropWhile Char.isWhitespace).reverse

/-- `char.isWhitespace()` of Kotlin. -/
def isWhitespace (char : Char) : Bool :=
  let code := char.toNat
  (0x09 ≤ code && code ≤ 0x0D) || (0x1C ≤ code && code ≤ 0x20) || code = 0xA0 ||
    code = 0x1680 || (0x2000 ≤ code && code ≤ 0x200A) || code = 0x2028 || code = 0x2029 ||
    code = 0x202F || code = 0x205F || code = 0x3000

/-- `text.isBlank()`. -/
def isBlank (text : String) : Bool :=
  text.toList.all isWhitespace

/-- `text.trim()` of Kotlin. -/
def strip (text : String) : String :=
  let rest := text.toList.dropWhile isWhitespace
  String.ofList (rest.reverse.dropWhile isWhitespace).reverse

/-- `char.is_whitespace()` of Rust. -/
def isWhiteSpace (char : Char) : Bool :=
  let code := char.toNat
  (0x09 ≤ code && code ≤ 0x0D) || code = 0x20 || code = 0x85 || code = 0xA0 ||
    code = 0x1680 || (0x2000 ≤ code && code ≤ 0x200A) || code = 0x2028 || code = 0x2029 ||
    code = 0x202F || code = 0x205F || code = 0x3000

/-- `text.trim()` of Rust. -/
def trimWhite (text : String) : String :=
  let rest := text.toList.dropWhile isWhiteSpace
  String.ofList (rest.reverse.dropWhile isWhiteSpace).reverse

/-- `text.trim()` of Rust, for a text that is a list of characters. -/
def trimmed (text : List Char) : List Char :=
  (text.dropWhile isWhiteSpace).rdropWhile isWhiteSpace

theorem dropWhile_reverse_dropWhile {α : Type} (blank : α → Bool) (list : List α) :
    let trimmed := ((list.dropWhile blank).reverse.dropWhile blank).reverse
    ((trimmed.dropWhile blank).reverse.dropWhile blank).reverse = trimmed := by
  intro trimmed
  have isPrefix : trimmed <+: list.dropWhile blank :=
    List.rdropWhile_prefix blank (list.dropWhile blank)
  have kept : trimmed.dropWhile blank = trimmed := by
    rw [List.dropWhile_eq_self_iff]
    intro nonempty
    have longer : 0 < (list.dropWhile blank).length :=
      Nat.lt_of_lt_of_le nonempty isPrefix.length_le
    have first := List.dropWhile_get_zero_not blank list longer
    rwa [List.get_eq_getElem, ← isPrefix.getElem nonempty] at first
  rw [kept]
  exact List.rdropWhile_idempotent blank (list.dropWhile blank)

theorem trimWhite_trimWhite (text : String) : trimWhite (trimWhite text) = trimWhite text := by
  unfold trimWhite
  rw [String.toList_ofList]
  exact congrArg String.ofList (dropWhile_reverse_dropWhile isWhiteSpace text.toList)

/-- The characters that `text.trim()` of Dart takes away. -/
def isDartSpace (char : Char) : Bool :=
  isWhiteSpace char || char = '\uFEFF'

/-- `text.trim()` of Dart. -/
def trimDart (text : String) : String :=
  let rest := text.toList.dropWhile isDartSpace
  String.ofList (rest.reverse.dropWhile isDartSpace).reverse

/-- `text.eq_ignore_ascii_case(other)`. -/
def eqIgnoreAsciiCase (text other : String) : Bool :=
  text.toList.map Char.toLower = other.toList.map Char.toLower

/-- `text.to_ascii_lowercase()`. -/
def toAsciiLowercase (text : String) : String :=
  String.ofList (text.toList.map Char.toLower)

/-- The text before its last dot. -/
def beforeLastDot (text : String) : String :=
  String.ofList (text.toList.reverse.dropWhile (· ≠ '.')).tail.reverse

example : contains (toLowerCase "Last error: HTTP 429 for x") "http 429" = true := by
  decide

end Text
end LosslessMusic
