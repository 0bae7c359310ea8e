import LosslessMusic.Text

/-!
# Reading XML documents

A reader for the documents of XML 1.0 that need no normalization: elements with
attributes in double quotes, character data, character references and the five
predefined entities. Markup declarations, comments, sections and processing
instructions are refused, and so are the characters in data that a processor
might change: literal quotes, angle brackets, and white space other than blanks
and the line feeds between elements. What is accepted is well formed and read as
XML 1.0 prescribes.
-/

namespace LosslessMusic.Xml

/-! ## Characters -/

/-- The code points of XML 1.0. -/
def isXmlPoint (point : Nat) : Bool :=
  point = 0x9 || point = 0xA || point = 0xD || (0x20 ≤ point && point ≤ 0xD7FF) ||
    (0xE000 ≤ point && point ≤ 0xFFFD) || (0x10000 ≤ point && point ≤ 0x10FFFF)

/-- The characters of XML 1.0. -/
def isXmlChar (char : Char) : Bool :=
  isXmlPoint char.toNat

/-- The characters that stand for themselves wherever they are written. -/
def isPlain (char : Char) : Bool :=
  isXmlChar char &&
    !(char = '&' || char = '<' || char = '>' || char = '"' || char = '\'' || char = '\t' ||
      char = '\n' || char = '\r')

/-- White space between markup. -/
def isSpace (char : Char) : Bool :=
  char = ' ' || char = '\t' || char = '\n' || char = '\r'

/-- The characters of names, as far as they are ASCII. -/
def isNameChar (char : Char) : Bool :=
  char.isAlphanum || char = ':' || char = '_' || char = '-' || char = '.'

/-- A name, as far as names are ASCII. -/
def isName : List Char → Bool
  | [] => false
  | first :: rest => (first.isAlpha || first = ':' || first = '_') && rest.all isNameChar

/-- The value of a digit. -/
def digitValue (base : Nat) (char : Char) : Option Nat :=
  let value :=
    if '0' ≤ char ∧ char ≤ '9' then char.toNat - '0'.toNat
    else if 'a' ≤ char ∧ char ≤ 'f' then char.toNat - 'a'.toNat + 10
    else if 'A' ≤ char ∧ char ≤ 'F' then char.toNat - 'A'.toNat + 10
    else base
  if value < base then some value else none

/-- The number of a sequence of digits. -/
def readNumber (base : Nat) (digits : List Char) : Option Nat :=
  if digits = [] then none
  else digits.foldlM (fun number char => (digitValue base char).map (number * base + ·)) 0

/-- The character of a code point. -/
def charOf (point : Nat) : Option Char :=
  if isXmlPoint point then some (Char.ofNat point) else none

/-- What a reference stands for. -/
def reference : List Char → Option Char
  | '#' :: 'x' :: digits => (readNumber 16 digits).bind charOf
  | '#' :: digits => (readNumber 10 digits).bind charOf
  | name =>
    if name = ['a', 'm', 'p'] then some '&'
    else if name = ['l', 't'] then some '<'
    else if name = ['g', 't'] then some '>'
    else if name = ['q', 'u', 'o', 't'] then some '"'
    else if name = ['a', 'p', 'o', 's'] then some '\''
    else none

/-- One character of data, by itself or by a reference. -/
def readChar : List Char → Option (Char × List Char)
  | [] => none
  | char :: rest =>
    if char = '&' then
      match rest.dropWhile (· ≠ ';') with
      | [] => none
      | _ :: others =>
        (reference (rest.takeWhile (· ≠ ';'))).map fun named => (named, others)
    else if isPlain char then some (char, rest)
    else none

/-! ## Markup -/

/-- An attribute of an element. -/
abbrev Attribute : Type :=
  List Char × List Char

/-- The value of an attribute up to its closing quote. -/
def readValue : Nat → List Char → Option (List Char × List Char)
  | 0, _ => none
  | fuel + 1, input =>
    if input.head? = some '"' then some ([], input.tail)
    else
      (readChar input).bind fun next =>
        (readValue fuel next.2).map fun value => (next.1 :: value.1, value.2)

/-- The attributes of an element up to the end of its tag. -/
def readAttributes : Nat → List Char → Option (List Attribute × List Char)
  | 0, _ => none
  | fuel + 1, input =>
    let inner := input.dropWhile isSpace
    if inner.head? = some '>' then some ([], inner.tail)
    else if (input.head?.map isSpace).getD false then
      let name := inner.takeWhile isNameChar
      match inner.dropWhile isNameChar with
      | '=' :: '"' :: rest =>
        if isName name then
          (readValue (rest.length + 1) rest).bind fun value =>
            (readAttributes fuel value.2).map fun others =>
              ((name, value.1) :: others.1, others.2)
        else none
      | _ => none
    else none

/-- The pieces of a document. -/
inductive Token
  | opening (name : List Char) (attributes : List Attribute)
  | closing (name : List Char)
  | char (char : Char)
  deriving DecidableEq

/-- The first piece of a document and what follows it. -/
def readToken : List Char → Option (Token × List Char)
  | [] => none
  | first :: rest =>
    if first = '<' then
      match rest with
      | '/' :: inner =>
        match (inner.dropWhile isNameChar).dropWhile isSpace with
        | '>' :: others =>
          if isName (inner.takeWhile isNameChar) then
            some (.closing (inner.takeWhile isNameChar), others)
          else none
        | _ => none
      | inner =>
        if isName (inner.takeWhile isNameChar) then
          (readAttributes (inner.length + 1) (inner.dropWhile isNameChar)).bind fun found =>
              if (found.1.map Prod.fst).Nodup then
                some (.opening (inner.takeWhile isNameChar) found.1, found.2)
              else none
        else none
    else if first = '\n' then some (.char '\n', rest)
    else (readChar (first :: rest)).map fun next => (.char next.1, next.2)

/-- The pieces of a document. -/
def lex (input : List Char) : Option (List Token) :=
  match input with
  | [] => some []
  | first :: rest =>
    match readToken (first :: rest) with
    | none => none
    | some (token, others) =>
      if others.length < (first :: rest).length then
        (lex others).map (token :: ·)
      else none
termination_by input.length
decreasing_by
  assumption

/-! ## Trees -/

/-- A node of a document. -/
inductive Node
  | element (name : List Char) (attributes : List Attribute) (children : List Node)
  | text (chars : List Char)

/-- An element that is not closed yet; its children stand newest first. -/
structure Frame where
  name : List Char
  attributes : List Attribute
  children : List Node

/-- One more character of data behind the children so far. -/
def addChar (children : List Node) (char : Char) : List Node :=
  match children with
  | .text chars :: others => .text (chars ++ [char]) :: others
  | _ => .text [char] :: children

/-- The open elements behind one more piece, innermost first. The last frame stands
for the document, which holds no data but white space. -/
def step : List Frame → Token → Option (List Frame)
  | stack, .opening name attributes => some (⟨name, attributes, []⟩ :: stack)
  | inner :: outer :: stack, .closing name =>
    if inner.name = name then
      some
        ({ outer with
            children := .element inner.name inner.attributes inner.children.reverse ::
                outer.children } :: stack)
    else none
  | inner :: outer :: stack, .char char =>
    some ({ inner with children := addChar inner.children char } :: outer :: stack)
  | [document], .char char => if isSpace char then some [document] else none
  | _, _ => none

/-- The root element of a sequence of pieces. -/
def build (tokens : List Token) : Option Node :=
  match tokens.foldlM step [⟨[], [], []⟩] with
  | some [⟨_, _, [.element name attributes children]⟩] =>
    some (.element name attributes children)
  | _ => none

/-- What follows the XML declaration. -/
def afterDeclaration (input : List Char) : List Char :=
  if ['<', '?', 'x', 'm', 'l', ' '].isPrefixOf input then
    (input.dropWhile (· ≠ '>')).tail
  else input

/-- The root element of a document. -/
def parse (input : List Char) : Option Node :=
  (lex (afterDeclaration input)).bind build

/-! ## Looking into a document -/

namespace Node

/-- The node is an element with a name. -/
def isNamed (name : List Char) : Node → Bool
  | .element own _ _ => own = name
  | .text _ => false

/-- The children of an element with a name. -/
def elements (node : Node) (name : List Char) : List Node :=
  match node with
  | .element _ _ children => children.filter (isNamed name)
  | .text _ => []

/-- The first child of an element with a name. -/
def child (node : Node) (name : List Char) : Option Node :=
  match node with
  | .element _ _ children => children.find? (isNamed name)
  | .text _ => none

/-- The value of an attribute. -/
def attribute? (node : Node) (name : List Char) : Option (List Char) :=
  match node with
  | .element _ attributes _ =>
    (attributes.find? fun entry => entry.1 = name).map Prod.snd
  | .text _ => none

/-- The text of a text node. -/
def chars : Node → List Char
  | .element _ _ _ => []
  | .text own => own

/-- The text inside an element. -/
def content : Node → List Char
  | .element _ _ children => children.flatMap chars
  | .text _ => []

end Node

/-- Elements and attributes without what they contain. -/
inductive Markup
  | element (name : List Char) (attributes : List (List Char)) (children : List Markup)

mutual

/-- The markup of a node; text has none. -/
def Node.markup : Node → List Markup
  | .element name attributes children =>
    [.element name (attributes.map Prod.fst) (Node.markupAll children)]
  | .text _ => []

/-- The markup of nodes. -/
def Node.markupAll : List Node → List Markup
  | [] => []
  | node :: others => Node.markup node ++ Node.markupAll others

end

end LosslessMusic.Xml
