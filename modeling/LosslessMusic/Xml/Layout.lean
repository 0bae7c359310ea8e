import LosslessMusic.Xml.Reader

/-!
# Writing indented XML documents

Documents with one element a line, indented by two blanks a level, and the tree that
is read from them. Data are written character by character; any way to write one
will do that the reader takes for this character.
-/

namespace LosslessMusic.Xml

/-- An indented document: an element with text alone, or one with elements. -/
inductive Layout
  | leaf (name : List Char) (attributes : List Attribute) (text : List Char)
  | block (name : List Char) (attributes : List Attribute) (lines : List Layout)

/-- The white space before a line. -/
def indent (depth : Nat) : List Char :=
  List.replicate (2 * depth) ' '

namespace Layout

section Writing

variable (escape : Char → List Char)

/-- Data as they are written. -/
def writeText (text : List Char) : List Char :=
  text.flatMap escape

/-- An attribute as it is written. -/
def writeAttribute (entry : Attribute) : List Char :=
  ' ' :: (entry.1 ++ '=' :: '"' :: (writeText escape entry.2 ++ ['"']))

/-- A start tag. -/
def writeOpening (name : List Char) (attributes : List Attribute) : List Char :=
  '<' :: (name ++ (attributes.flatMap (writeAttribute escape) ++ ['>']))

/-- An end tag. -/
def writeClosing (name : List Char) : List Char :=
  '<' :: '/' :: (name ++ ['>'])

mutual

/-- An element that begins at a depth. -/
def write (depth : Nat) : Layout → List Char
  | .leaf name attributes text =>
    writeOpening escape name attributes ++ (writeText escape text ++ writeClosing name)
  | .block name attributes lines =>
    writeOpening escape name attributes ++
      ('\n' :: (writeLines (depth + 1) lines ++ (indent depth ++ writeClosing name)))

/-- The lines inside an element. -/
def writeLines (depth : Nat) : List Layout → List Char
  | [] => []
  | line :: rest => indent depth ++ (write depth line ++ '\n' :: writeLines depth rest)

end

theorem writeLines_append (depth : Nat) (lines others : List Layout) :
    writeLines escape depth (lines ++ others) =
      writeLines escape depth lines ++ writeLines escape depth others := by
  induction lines with
  | nil => rfl
  | cons line rest ih =>
    rw [List.cons_append, writeLines, writeLines, ih]
    simp

end Writing

mutual

/-- The pieces of an element. -/
def tokens (depth : Nat) : Layout → List Token
  | .leaf name attributes text =>
    .opening name attributes :: (text.map Token.char ++ [.closing name])
  | .block name attributes lines =>
    .opening name attributes :: (.char '\n' :: (tokensOfLines (depth + 1) lines ++
          ((indent depth).map Token.char ++ [.closing name])))

/-- The pieces of the lines inside an element. -/
def tokensOfLines (depth : Nat) : List Layout → List Token
  | [] => []
  | line :: rest =>
    (indent depth).map Token.char ++ (tokens depth line ++ .char '\n' :: tokensOfLines depth rest)

end

/-- The text inside an element. -/
def textNodes (text : List Char) : List Node :=
  if text = [] then [] else [.text text]

mutual

/-- The element that is read. -/
def tree (depth : Nat) : Layout → Node
  | .leaf name attributes text => .element name attributes (textNodes text)
  | .block name attributes lines =>
    .element name attributes (treesOfLines (depth + 1) lines ++ [.text ('\n' :: indent depth)])

/-- The nodes that are read inside an element. -/
def treesOfLines (depth : Nat) : List Layout → List Node
  | [] => []
  | line :: rest => .text ('\n' :: indent depth) :: tree depth line :: treesOfLines depth rest

end

/-- The attributes of an element are well formed. -/
structure ProperAttributes (attributes : List Attribute) : Prop where
  named : ∀ entry ∈ attributes, isName entry.1 = true
  distinct : (attributes.map Prod.fst).Nodup
  valid : ∀ entry ∈ attributes, ∀ char ∈ entry.2, isXmlChar char = true

mutual

/-- The names are names, and the data are made of XML characters. -/
def Proper : Layout → Prop
  | .leaf name attributes text =>
    isName name = true ∧ ProperAttributes attributes ∧ ∀ char ∈ text, isXmlChar char = true
  | .block name attributes lines =>
    isName name = true ∧ ProperAttributes attributes ∧ ProperLines lines

/-- Every line is proper. -/
def ProperLines : List Layout → Prop
  | [] => True
  | line :: rest => Proper line ∧ ProperLines rest

end

theorem ProperLines.append {lines others : List Layout} (first : ProperLines lines)
    (second : ProperLines others) : ProperLines (lines ++ others) := by
  induction lines with
  | nil => exact second
  | cons line rest ih => exact ⟨first.1, ih first.2⟩

theorem properLines_map {Object : Type} (objects : List Object) (layout : Object → Layout)
    (each : ∀ object, Proper (layout object)) : ProperLines (objects.map layout) := by
  induction objects with
  | nil => trivial
  | cons object others ih => exact ⟨each object, ih⟩

end Layout

/-! ## Reading what was written -/

/-- What is written is read as one character, whatever follows. -/
structure Reads (written : List Char) (char : Char) : Prop where
  some_char : written ≠ []
  back : ∀ rest, readChar (written ++ rest) = some (char, rest)

theorem Reads.head (written : List Char) (char : Char) (reads : Reads written char) :
    ∃ first rest, written = first :: rest ∧ first ≠ '<' ∧ first ≠ '"' ∧ first ≠ '\n' := by
  cases written with
  | nil => exact absurd rfl reads.some_char
  | cons first rest =>
    refine ⟨first, rest, rfl, ?_⟩
    have back := reads.back []
    rw [List.append_nil] at back
    simp only [readChar] at back
    by_cases isReference : first = '&'
    · subst isReference
      decide
    · rw [if_neg isReference] at back
      cases plain : isPlain first with
      | false =>
        rw [plain] at back
        cases back
      | true =>
        unfold isPlain at plain
        simp only [Bool.and_eq_true, Bool.not_eq_true', Bool.or_eq_false_iff,
          decide_eq_false_iff_not] at plain
        obtain ⟨-, ⟨⟨⟨⟨⟨⟨-, less⟩, -⟩, quote⟩, -⟩, -⟩, line⟩, -⟩ := plain
        exact ⟨less, quote, line⟩

/-- A name is made of name characters and does not begin with white space. -/
theorem nameChars_of_isName (name : List Char) (named : isName name = true) :
    (∀ char ∈ name, isNameChar char = true) ∧
      ∃ first rest, name = first :: rest ∧ isSpace first = false ∧ first ≠ '/' := by
  cases name with
  | nil => cases named
  | cons first rest =>
    unfold isName at named
    rw [Bool.and_eq_true, List.all_eq_true] at named
    obtain ⟨starts, others⟩ := named
    have nameFirst : isNameChar first = true := by
      unfold isNameChar Char.isAlphanum
      cases letter : first.isAlpha with
      | true => rfl
      | false =>
        rw [letter, Bool.false_or] at starts
        rw [Bool.false_or, Bool.or_assoc, Bool.or_assoc, Bool.or_assoc]
        rw [Bool.or_eq_true] at starts
        rcases starts with colon | line
        · rw [colon]
          simp
        · rw [line]
          simp
    constructor
    · intro char member
      rcases List.mem_cons.mp member with here | later
      · rw [here]
        exact nameFirst
      · exact others char later
    · refine ⟨first, rest, rfl, ?_, ?_⟩
      · rw [Bool.eq_false_iff]
        intro space
        unfold isSpace at space
        simp only [Bool.or_eq_true, decide_eq_true_eq] at space
        rcases space with ((rfl | rfl) | rfl) | rfl
        · exact absurd nameFirst (by decide)
        · exact absurd nameFirst (by decide)
        · exact absurd nameFirst (by decide)
        · exact absurd nameFirst (by decide)
      · rintro rfl
        exact absurd nameFirst (by decide)

/-- A name is read up to the first character that is none of a name. -/
theorem takeWhile_name (name rest : List Char) (ending : Char) (named : isName name = true)
    (ends : isNameChar ending = false) :
    (name ++ ending :: rest).takeWhile isNameChar = name ∧
      (name ++ ending :: rest).dropWhile isNameChar = ending :: rest := by
  have inside := (nameChars_of_isName name named).1
  constructor
  · rw [List.takeWhile_append_of_pos inside, List.takeWhile_cons_of_neg (by simp [ends]),
      List.append_nil]
  · rw [List.dropWhile_append_of_pos inside, List.dropWhile_cons_of_neg (by simp [ends])]

/-- What is written piece by piece is as long as the pieces are many. -/
theorem length_le_flatMap {Piece : Type} (pieces : List Piece) (written : Piece → List Char)
    (some_char : ∀ piece ∈ pieces, written piece ≠ []) :
    pieces.length ≤ (pieces.flatMap written).length := by
  induction pieces with
  | nil => exact Nat.le_refl 0
  | cons piece others ih =>
    have tail := ih fun other member => some_char other (List.mem_cons_of_mem piece member)
    have first := List.length_pos_of_ne_nil (some_char piece List.mem_cons_self)
    rw [List.flatMap_cons, List.length_append, List.length_cons]
    omega

namespace Layout

section Reading

variable (escape : Char → List Char)
variable (faithful : ∀ char, isXmlChar char = true → Reads (escape char) char)

include faithful

theorem readValue_writeText (text rest : List Char) (valid : ∀ char ∈ text, isXmlChar char = true)
    (fuel : Nat) (enough : text.length < fuel) :
    readValue fuel (writeText escape text ++ '"' :: rest) = some (text, rest) := by
  induction text generalizing fuel with
  | nil =>
    obtain ⟨more, rfl⟩ := Nat.exists_eq_succ_of_ne_zero (Nat.ne_of_gt enough)
    rfl
  | cons char others ih =>
    obtain ⟨more, rfl⟩ := Nat.exists_eq_succ_of_ne_zero (Nat.ne_of_gt (Nat.zero_lt_of_lt enough))
    have reads := faithful char (valid char List.mem_cons_self)
    have tail := ih (fun other member => valid other (List.mem_cons_of_mem char member)) more
      (Nat.lt_of_succ_lt_succ enough)
    obtain ⟨first, written, isWritten, -, noQuote, -⟩ := reads.head
    have back := reads.back (writeText escape others ++ '"' :: rest)
    unfold writeText at tail back ⊢
    rw [List.flatMap_cons, List.append_assoc, readValue]
    rw [if_neg (by rw [isWritten]; simpa using noQuote), back]
    simp only [Option.bind_some, tail, Option.map_some]

theorem readAttributes_cons (gap : List Char) (entry : Attribute) (following rest : List Char)
    (others : List Attribute) (apart : gap ≠ []) (blank : ∀ char ∈ gap, isSpace char = true)
    (named : isName entry.1 = true) (valid : ∀ char ∈ entry.2, isXmlChar char = true) (fuel : Nat)
    (tail : readAttributes fuel following = some (others, rest)) :
    readAttributes (fuel + 1)
        (gap ++ (entry.1 ++ '=' :: '"' :: (writeText escape entry.2 ++ '"' :: following))) =
      some (entry :: others, rest) := by
  obtain ⟨letters, first, more, isFirst, noSpace, -⟩ := nameChars_of_isName entry.1 named
  have long : entry.2.length ≤ (writeText escape entry.2).length :=
    length_le_flatMap entry.2 escape fun char member =>
      (faithful char (valid char member)).some_char
  have value := readValue_writeText escape faithful entry.2 following valid
    ((writeText escape entry.2 ++ '"' :: following).length + 1)
    (by
      rw [List.length_append]
      omega)
  generalize isInner : '=' :: '"' :: (writeText escape entry.2 ++ '"' :: following) = inner
  obtain ⟨taken, dropped⟩ := takeWhile_name entry.1
    ('"' :: (writeText escape entry.2 ++ '"' :: following)) '=' named rfl
  rw [isInner] at taken dropped
  have afterGap : (gap ++ (entry.1 ++ inner)).dropWhile isSpace = entry.1 ++ inner := by
    rw [List.dropWhile_append_of_pos blank, isFirst, List.cons_append,
      List.dropWhile_cons_of_neg (by simp [noSpace])]
  have noEnd : (entry.1 ++ inner).head? ≠ some '>' := by
    rw [isFirst, List.cons_append, List.head?_cons]
    intro ending
    have isLetter := letters first (by rw [isFirst]; exact List.mem_cons_self)
    rw [Option.some.inj ending] at isLetter
    exact absurd isLetter (by decide)
  have begins : ((gap ++ (entry.1 ++ inner)).head?.map isSpace).getD false = true := by
    cases gap with
    | nil => exact absurd rfl apart
    | cons space spaces => exact blank space List.mem_cons_self
  rw [readAttributes, afterGap, if_neg noEnd, if_pos begins, taken, dropped, ← isInner]
  simp only [named, value, tail, if_true, Option.bind_some, Option.map_some]

theorem readAttributes_write (attributes : List Attribute) (rest : List Char)
    (named : ∀ entry ∈ attributes, isName entry.1 = true)
    (valid : ∀ entry ∈ attributes, ∀ char ∈ entry.2, isXmlChar char = true) (fuel : Nat)
    (enough : attributes.length < fuel) :
    readAttributes fuel (attributes.flatMap (writeAttribute escape) ++ '>' :: rest) =
      some (attributes, rest) := by
  induction attributes generalizing fuel with
  | nil =>
    obtain ⟨more, rfl⟩ := Nat.exists_eq_succ_of_ne_zero (Nat.ne_of_gt enough)
    rfl
  | cons entry others ih =>
    obtain ⟨more, rfl⟩ := Nat.exists_eq_succ_of_ne_zero (Nat.ne_of_gt (Nat.zero_lt_of_lt enough))
    have tail := ih (fun other member => named other (List.mem_cons_of_mem entry member))
      (fun other member => valid other (List.mem_cons_of_mem entry member)) more
      (Nat.lt_of_succ_lt_succ enough)
    have whole := readAttributes_cons escape faithful [' '] entry _ rest others (by simp)
      (by simp [isSpace]) (named entry List.mem_cons_self) (valid entry List.mem_cons_self)
      more tail
    rw [← whole]
    simp [writeAttribute]

/-- The pieces that characters stand for, whatever follows. -/
def Lexes (chars : List Char) (pieces : List Token) : Prop :=
  ∀ rest, lex (chars ++ rest) = (lex rest).map (pieces ++ ·)

omit faithful in

theorem lexes_nil : Lexes [] [] := by
  intro rest
  rw [List.nil_append]
  cases lex rest with
  | none => rfl
  | some pieces => rfl

omit faithful in

theorem Lexes.append (chars others : List Char) (pieces more : List Token)
    (first : Lexes chars pieces) (second : Lexes others more) :
    Lexes (chars ++ others) (pieces ++ more) := by
  intro rest
  rw [List.append_assoc, first, second, Option.map_map]
  cases lex rest with
  | none => rfl
  | some final => exact congrArg some (List.append_assoc pieces more final).symm

omit faithful in

theorem lexes_of_readToken (chars : List Char) (piece : Token) (some_char : chars ≠ [])
    (reads : ∀ rest, readToken (chars ++ rest) = some (piece, rest)) : Lexes chars [piece] := by
  intro rest
  have read := reads rest
  cases chars with
  | nil => exact absurd rfl some_char
  | cons first others =>
    rw [List.cons_append] at read ⊢
    have shorter : rest.length < (first :: (others ++ rest)).length := by
      rw [List.length_cons, List.length_append]
      omega
    rw [lex, read]
    simp only [if_pos shorter]
    rfl

theorem lexes_char (char : Char) (valid : isXmlChar char = true) :
    Lexes (escape char) [.char char] := by
  have reads := faithful char valid
  obtain ⟨first, others, isWritten, noMarkup, -, noLine⟩ := reads.head
  refine lexes_of_readToken (escape char) (.char char) reads.some_char ?_
  intro rest
  have back := reads.back rest
  rw [isWritten, List.cons_append] at back ⊢
  simp only [readToken]
  rw [if_neg noMarkup, if_neg noLine, back]
  rfl

theorem lexes_writeText (text : List Char) (valid : ∀ char ∈ text, isXmlChar char = true) :
    Lexes (writeText escape text) (text.map .char) := by
  induction text with
  | nil => exact lexes_nil
  | cons char others ih =>
    exact (lexes_char escape faithful char (valid char List.mem_cons_self)).append _ _ _ _
      (ih fun other member => valid other (List.mem_cons_of_mem char member))

omit faithful in

theorem lexes_line : Lexes ['\n'] [.char '\n'] :=
  lexes_of_readToken ['\n'] (.char '\n') (by simp) fun _ => rfl

omit faithful in

theorem lexes_indent (depth : Nat) : Lexes (indent depth) ((indent depth).map .char) := by
  unfold indent
  induction 2 * depth with
  | zero => exact lexes_nil
  | succ width ih =>
    have blank : Lexes [' '] [.char ' '] :=
      lexes_of_readToken [' '] (.char ' ') (by simp) fun _ => by
        simp [readToken, readChar, isPlain, isXmlChar, isXmlPoint]
    exact blank.append _ _ _ _ ih

omit faithful in

theorem lexes_writeClosing (name : List Char) (named : isName name = true) :
    Lexes (writeClosing name) [.closing name] := by
  refine lexes_of_readToken (writeClosing name) (.closing name) (by simp [writeClosing]) ?_
  intro rest
  obtain ⟨taken, dropped⟩ := takeWhile_name name rest '>' named rfl
  have whole : writeClosing name ++ rest = '<' :: '/' :: (name ++ '>' :: rest) := by
    simp [writeClosing]
  rw [whole]
  simp only [readToken, if_true, taken, dropped, named]
  rfl

omit faithful in

/-- What does not begin with a slash is read as a start tag. -/
theorem readToken_opening (inner others : List Char) (found : List Attribute)
    (noClosing : inner.head? ≠ some '/') (named : isName (inner.takeWhile isNameChar) = true)
    (distinct : (found.map Prod.fst).Nodup)
    (read : readAttributes (inner.length + 1) (inner.dropWhile isNameChar) = some (found, others)) :
    readToken ('<' :: inner) = some (.opening (inner.takeWhile isNameChar) found, others) := by
  simp only [readToken, if_true]
  split
  next => exact absurd rfl noClosing
  next =>
    rw [if_pos named, read, Option.bind_some]
    exact if_pos distinct

theorem lexes_writeOpening (name : List Char) (attributes : List Attribute)
    (named : isName name = true) (proper : ProperAttributes attributes) :
    Lexes (writeOpening escape name attributes) [.opening name attributes] := by
  refine lexes_of_readToken (writeOpening escape name attributes) (.opening name attributes)
    (by simp [writeOpening]) ?_
  intro rest
  obtain ⟨-, first, letters, isFirst, -, noSlash⟩ := nameChars_of_isName name named
  generalize isTail : attributes.flatMap (writeAttribute escape) ++ '>' :: rest = tail
  have whole : writeOpening escape name attributes ++ rest = '<' :: (name ++ tail) := by
    rw [← isTail]
    simp [writeOpening]
  have split : (name ++ tail).takeWhile isNameChar = name ∧
        (name ++ tail).dropWhile isNameChar = tail := by
    rw [← isTail]
    cases attributes with
    | nil => exact takeWhile_name name rest '>' named rfl
    | cons entry others => exact takeWhile_name name _ ' ' named rfl
  have long : attributes.length ≤ tail.length := by
    rw [← isTail, List.length_append]
    exact Nat.le_trans
      (length_le_flatMap attributes (writeAttribute escape) fun entry _ => by simp [writeAttribute])
      (Nat.le_add_right _ _)
  rw [whole]
  have read := readToken_opening (name ++ tail) rest attributes (by
      rw [isFirst, List.cons_append, List.head?_cons]
      intro slash
      exact noSlash (Option.some.inj slash))
    (by
      rw [split.1]
      exact named)
    proper.distinct
    (by
      rw [split.2, ← isTail]
      exact readAttributes_write escape faithful attributes rest proper.named proper.valid _ (by
          rw [List.length_append, isTail]
          omega))
  rw [split.1] at read
  exact read

end Reading

mutual

theorem lexes_write (escape : Char → List Char)
    (faithful : ∀ char, isXmlChar char = true → Reads (escape char) char) (depth : Nat)
    (layout : Layout) (proper : Proper layout) :
    Lexes (write escape depth layout) (tokens depth layout) := by
  match layout, proper with
  | .leaf name attributes text, ⟨named, fine, valid⟩ =>
    exact (lexes_writeOpening escape faithful name attributes named fine).append _ _ _ _
      ((lexes_writeText escape faithful text valid).append _ _ _ _ (lexes_writeClosing name named))
  | .block name attributes lines, ⟨named, fine, inside⟩ =>
    exact (lexes_writeOpening escape faithful name attributes named fine).append _ _ _ _
      (lexes_line.append _ _ _ _
        ((lexes_writeLines escape faithful (depth + 1) lines inside).append _ _ _ _
          ((lexes_indent depth).append _ _ _ _ (lexes_writeClosing name named))))

theorem lexes_writeLines (escape : Char → List Char)
    (faithful : ∀ char, isXmlChar char = true → Reads (escape char) char) (depth : Nat)
    (lines : List Layout) (proper : ProperLines lines) :
    Lexes (writeLines escape depth lines) (tokensOfLines depth lines) := by
  match lines, proper with
  | [], _ => exact lexes_nil
  | line :: rest, ⟨first, others⟩ =>
    exact (lexes_indent depth).append _ _ _ _
      ((lexes_write escape faithful depth line first).append _ _ _ _
        (lexes_line.append _ _ _ _ (lexes_writeLines escape faithful depth rest others)))

end

/-! ## What is written is made of XML characters -/

/-- Characters of XML. -/
def Valid (chars : List Char) : Prop :=
  ∀ char ∈ chars, isXmlChar char = true

theorem Valid.append {chars others : List Char} (first : Valid chars) (second : Valid others) :
    Valid (chars ++ others) := by
  intro char member
  rcases List.mem_append.mp member with here | later
  · exact first char here
  · exact second char later

theorem Valid.cons {first : Char} {others : List Char} (valid : isXmlChar first = true)
    (second : Valid others) : Valid (first :: others) :=
  List.forall_mem_cons.mpr ⟨valid, second⟩

theorem Valid.flatMap {Piece : Type} {pieces : List Piece} {written : Piece → List Char}
    (each : ∀ piece ∈ pieces, Valid (written piece)) : Valid (pieces.flatMap written) := by
  intro char member
  obtain ⟨piece, inside, isChar⟩ := List.mem_flatMap.mp member
  exact each piece inside char isChar

theorem valid_of_isName (name : List Char) (named : isName name = true) : Valid name := by
  intro char member
  have letter := (nameChars_of_isName name named).1 char member
  have bound : 0x20 ≤ char.toNat ∧ char.toNat ≤ 0x7E := by
    unfold isNameChar Char.isAlphanum Char.isAlpha Char.isUpper Char.isLower Char.isDigit at letter
    simp only [Bool.or_eq_true, Bool.and_eq_true, decide_eq_true_eq, UInt32.le_iff_toNat_le,
      ge_iff_le] at letter
    have codes :
        'A'.val.toNat = 65 ∧ 'Z'.val.toNat = 90 ∧ 'a'.val.toNat = 97 ∧ 'z'.val.toNat = 122 ∧
          '0'.val.toNat = 48 ∧ '9'.val.toNat = 57 := by
      decide
    have same : char.toNat = char.val.toNat := rfl
    rcases letter with (((((upper | lower) | digit) | rfl) | rfl) | rfl) | rfl
    · omega
    · omega
    · omega
    · decide
    · decide
    · decide
    · decide
  unfold isXmlChar isXmlPoint
  simp only [Bool.or_eq_true, Bool.and_eq_true, decide_eq_true_eq]
  omega

theorem valid_indent (depth : Nat) : Valid (indent depth) := by
  intro char member
  rw [List.eq_of_mem_replicate member]
  rfl

section Written

variable (escape : Char → List Char)
variable (clean : ∀ char, isXmlChar char = true → Valid (escape char))

include clean

theorem valid_writeText (text : List Char) (valid : Valid text) : Valid (writeText escape text) :=
  Valid.flatMap fun char member => clean char (valid char member)

theorem valid_writeOpening (name : List Char) (attributes : List Attribute)
    (named : isName name = true) (proper : ProperAttributes attributes) :
    Valid (writeOpening escape name attributes) := by
  have entries : Valid (attributes.flatMap (writeAttribute escape)) := by
    refine Valid.flatMap fun entry member => ?_
    have value := valid_writeText escape clean entry.2 (proper.valid entry member)
    have quote : Valid ['"'] := Valid.cons rfl (by simp [Valid])
    exact Valid.cons rfl ((valid_of_isName entry.1 (proper.named entry member)).append
        (Valid.cons rfl (Valid.cons rfl (value.append quote))))
  have last : Valid ['>'] := Valid.cons rfl (by simp [Valid])
  exact Valid.cons rfl ((valid_of_isName name named).append (entries.append last))

omit clean in

theorem valid_writeClosing (name : List Char) (named : isName name = true) :
    Valid (writeClosing name) := by
  have last : Valid ['>'] := Valid.cons rfl (by simp [Valid])
  exact Valid.cons rfl (Valid.cons rfl ((valid_of_isName name named).append last))

end Written

mutual

theorem valid_write (escape : Char → List Char)
    (clean : ∀ char, isXmlChar char = true → Valid (escape char)) (depth : Nat) (layout : Layout)
    (proper : Proper layout) : Valid (write escape depth layout) := by
  match layout, proper with
  | .leaf name attributes text, ⟨named, fine, valid⟩ =>
    exact (valid_writeOpening escape clean name attributes named fine).append
      ((valid_writeText escape clean text valid).append (valid_writeClosing name named))
  | .block name attributes lines, ⟨named, fine, inside⟩ =>
    exact (valid_writeOpening escape clean name attributes named fine).append (Valid.cons rfl
        ((valid_writeLines escape clean (depth + 1) lines inside).append
          ((valid_indent depth).append (valid_writeClosing name named))))

theorem valid_writeLines (escape : Char → List Char)
    (clean : ∀ char, isXmlChar char = true → Valid (escape char)) (depth : Nat)
    (lines : List Layout) (proper : ProperLines lines) : Valid (writeLines escape depth lines) := by
  match lines, proper with
  | [], _ => exact fun _ member => absurd member List.not_mem_nil
  | line :: rest, ⟨first, others⟩ =>
    exact (valid_indent depth).append ((valid_write escape clean depth line first).append
        (Valid.cons rfl (valid_writeLines escape clean depth rest others)))

end

/-! ## Building the tree -/

theorem foldl_addChar_text (text chars : List Char) (others : List Node) :
    text.foldl addChar (.text chars :: others) = .text (chars ++ text) :: others := by
  induction text generalizing chars with
  | nil => rw [List.append_nil, List.foldl_nil]
  | cons char rest ih =>
    rw [List.foldl_cons, addChar, ih, List.append_assoc]
    rfl

theorem foldl_addChar_nil (text : List Char) : text.foldl addChar [] = textNodes text := by
  cases text with
  | nil => rfl
  | cons char rest =>
    rw [List.foldl_cons, addChar, foldl_addChar_text]
    · rfl
    · intro chars others impossible
      cases impossible

theorem foldlM_chars (text name : List Char) (attributes : List Attribute) (children : List Node)
    (outer : Frame) (stack : List Frame) :
    (text.map Token.char).foldlM step (⟨name, attributes, children⟩ :: outer :: stack) =
      some (⟨name, attributes, text.foldl addChar children⟩ :: outer :: stack) := by
  induction text generalizing children with
  | nil => rfl
  | cons char rest ih =>
    rw [List.map_cons, List.foldlM_cons]
    exact ih (addChar children char)

theorem tree_eq_element (depth : Nat) (layout : Layout) :
    ∃ name attributes children, tree depth layout = .element name attributes children := by
  cases layout with
  | leaf name attributes text => exact ⟨name, attributes, textNodes text, rfl⟩
  | block name attributes lines => exact ⟨name, attributes, _, rfl⟩

mutual

/-- The pieces of an element add its tree to the element around it. -/
theorem foldlM_tokens (depth : Nat) (layout : Layout) (outer : Frame) (stack : List Frame) :
    (tokens depth layout).foldlM step (outer :: stack) =
      some (⟨outer.name, outer.attributes, tree depth layout :: outer.children⟩ :: stack) := by
  match layout with
  | .leaf name attributes text =>
    have inside := foldlM_chars text name attributes [] outer stack
    rw [foldl_addChar_nil] at inside
    simp only [tokens, List.foldlM_cons, List.foldlM_append, step, Option.bind_eq_bind,
      Option.bind_some, inside, if_true, List.foldlM_nil, tree]
    cases text with
    | nil => rfl
    | cons char rest => rfl
  | .block name attributes lines =>
    have inside := foldlM_tokensOfLines (depth + 1) lines name attributes [] outer stack
    have last := foldlM_chars (indent depth) name attributes
      (.text ['\n'] :: ((treesOfLines (depth + 1) lines).reverse ++ [])) outer stack
    rw [foldl_addChar_text] at last
    simp only [tokens, List.foldlM_cons, List.foldlM_append, step, addChar,
      Option.bind_eq_bind, Option.bind_some, inside, last, if_true, List.foldlM_nil, tree]
    simp

/-- The pieces of lines add their trees to the element around them. -/
theorem foldlM_tokensOfLines (depth : Nat) (lines : List Layout) (name : List Char)
    (attributes : List Attribute) (children : List Node) (outer : Frame) (stack : List Frame) :
    (tokensOfLines depth lines).foldlM step
        (⟨name, attributes, .text ['\n'] :: children⟩ :: outer :: stack) =
      some (⟨name, attributes, .text ['\n'] :: ((treesOfLines depth lines).reverse ++ children)⟩ ::
          outer :: stack) := by
  match lines with
  | [] => rfl
  | line :: rest =>
    have blanks := foldlM_chars (indent depth) name attributes
      (.text ['\n'] :: children) outer stack
    rw [foldl_addChar_text] at blanks
    have first := foldlM_tokens depth line
      ⟨name, attributes, .text (['\n'] ++ indent depth) :: children⟩ (outer :: stack)
    obtain ⟨inner, entries, nodes, isElement⟩ := tree_eq_element depth line
    have others := foldlM_tokensOfLines depth rest name attributes
      (tree depth line :: .text (['\n'] ++ indent depth) :: children) outer stack
    simp only [tokensOfLines, List.foldlM_append, List.foldlM_cons, blanks, first,
      Option.bind_eq_bind, Option.bind_some, step]
    rw [isElement] at others ⊢
    simp only [addChar, others, treesOfLines, isElement]
    simp

end

theorem afterDeclaration_append (declaration rest : List Char)
    (noEnd : ∀ char ∈ declaration, char ≠ '>') :
    afterDeclaration ("<?xml ".toList ++ (declaration ++ '>' :: rest)) = rest := by
  have dropped :
      ("<?xml ".toList ++ (declaration ++ '>' :: rest)).dropWhile (· ≠ '>') = '>' :: rest := by
    rw [← List.append_assoc, List.dropWhile_append_of_pos]
    · rw [List.dropWhile_cons_of_neg (by simp)]
    · intro char member
      rw [decide_eq_true_eq]
      rcases List.mem_append.mp member with opening | inside
      · rintro rfl
        exact absurd opening (by decide)
      · exact noEnd char inside
  unfold afterDeclaration
  rw [dropped, if_pos]
  · rfl
  · rw [List.isPrefixOf_iff_prefix]
    exact ⟨declaration ++ '>' :: rest, rfl⟩

/-- A document with a declaration is read as the tree of its pieces. -/
theorem parse_of_lexes (declaration document : List Char) (layout : Layout)
    (noEnd : ∀ char ∈ declaration, char ≠ '>') (pieces : Lexes document (tokens 0 layout)) :
    parse ("<?xml ".toList ++ (declaration ++ '>' :: '\n' :: document)) = some (tree 0 layout) := by
  have whole := lexes_line.append _ _ _ _ pieces []
  have built := foldlM_tokens 0 layout ⟨[], [], []⟩ []
  obtain ⟨name, attributes, children, isElement⟩ := tree_eq_element 0 layout
  unfold parse
  rw [afterDeclaration_append declaration _ noEnd]
  rw [List.append_nil, lex, Option.map_some, List.append_nil, List.singleton_append,
    List.singleton_append] at whole
  rw [whole, Option.bind_some, build, List.foldlM_cons]
  simp only [step, isSpace, decide_true, Bool.or_true, Bool.true_or, if_true,
    Option.bind_eq_bind, Option.bind_some, built, isElement]

/-! ## What is found in the tree -/

/-- The name of an element. -/
def name : Layout → List Char
  | .leaf own _ _ => own
  | .block own _ _ => own

/-- The attributes of an element. -/
def attributes : Layout → List Attribute
  | .leaf _ own _ => own
  | .block _ own _ => own

/-- The text of an element that has text alone. -/
def text : Layout → List Char
  | .leaf _ _ own => own
  | .block _ _ _ => []

/-- The elements inside an element. -/
def lines : Layout → List Layout
  | .leaf _ _ _ => []
  | .block _ _ own => own

theorem isNamed_tree (depth : Nat) (layout : Layout) (name : List Char) :
    (tree depth layout).isNamed name = decide (layout.name = name) := by
  cases layout with
  | leaf => rfl
  | block => rfl

theorem filter_treesOfLines (depth : Nat) (lines : List Layout) (name : List Char) :
    (treesOfLines depth lines).filter (Node.isNamed name) =
      (lines.filter fun line => line.name = name).map (tree depth) := by
  induction lines with
  | nil => rfl
  | cons line others ih =>
    rw [treesOfLines, List.filter_cons_of_neg (by simp [Node.isNamed]), List.filter_cons,
      List.filter_cons, isNamed_tree, ih]
    by_cases found : line.name = name
    · rw [if_pos (decide_eq_true found), if_pos (decide_eq_true found), List.map_cons]
    · rw [if_neg (by simpa using found), if_neg (by simpa using found)]

theorem elements_tree (depth : Nat) (layout : Layout) (name : List Char) :
    (tree depth layout).elements name =
      (layout.lines.filter fun line => line.name = name).map (tree (depth + 1)) := by
  cases layout with
  | leaf own attributes text =>
    cases text with
    | nil => rfl
    | cons char others => rfl
  | block own attributes lines =>
    simp only [tree, Node.elements, Layout.lines]
    rw [List.filter_append, filter_treesOfLines]
    exact List.append_nil _

theorem child_tree (depth : Nat) (layout : Layout) (name : List Char) :
    (tree depth layout).child name =
      (layout.lines.find? fun line => line.name = name).map (tree (depth + 1)) := by
  have heads : (tree depth layout).child name = ((tree depth layout).elements name).head? := by
    obtain ⟨own, attributes, children, isElement⟩ := tree_eq_element depth layout
    rw [isElement]
    exact List.head?_filter.symm
  rw [heads, elements_tree, List.head?_map, List.head?_filter]

theorem child_block (depth : Nat) (name : List Char) (attributes : List Attribute) (first : Layout)
    (others : List Layout) :
    (tree depth (.block name attributes (first :: others))).child first.name =
      some (tree (depth + 1) first) := by
  rw [child_tree, lines, List.find?_cons_of_pos (by rw [decide_eq_true_eq])]
  rfl

theorem attribute_tree (depth : Nat) (layout : Layout) (name : List Char) :
    (tree depth layout).attribute? name =
      (layout.attributes.find? fun entry => entry.1 = name).map Prod.snd := by
  cases layout with
  | leaf => rfl
  | block => rfl

theorem content_leaf (depth : Nat) (name : List Char) (attributes : List Attribute)
    (text : List Char) : (tree depth (.leaf name attributes text)).content = text := by
  unfold tree textNodes
  split
  next empty => rw [empty]; rfl
  next => exact List.append_nil text

mutual

/-- The markup of an element. -/
def markup : Layout → Markup
  | .leaf name attributes _ => .element name (attributes.map Prod.fst) []
  | .block name attributes lines =>
    .element name (attributes.map Prod.fst) (markupOfLines lines)

/-- The markup of the lines inside an element. -/
def markupOfLines : List Layout → List Markup
  | [] => []
  | line :: others => markup line :: markupOfLines others

end

theorem markupAll_append (nodes others : List Node) :
    Node.markupAll (nodes ++ others) = Node.markupAll nodes ++ Node.markupAll others := by
  induction nodes with
  | nil => rfl
  | cons node rest ih =>
    rw [List.cons_append, Node.markupAll, Node.markupAll, ih, List.append_assoc]

theorem markupOfLines_append (lines others : List Layout) :
    markupOfLines (lines ++ others) = markupOfLines lines ++ markupOfLines others := by
  induction lines with
  | nil => rfl
  | cons line rest ih =>
    rw [List.cons_append, markupOfLines, markupOfLines, ih]
    rfl

theorem markupOfLines_map {Object : Type} (objects : List Object) (layout : Object → Layout) :
    markupOfLines (objects.map layout) = objects.map fun object => markup (layout object) := by
  induction objects with
  | nil => rfl
  | cons object others ih =>
    rw [List.map_cons, markupOfLines, ih, List.map_cons]

mutual

/-- The tree of an element has the markup of the element. -/
theorem markup_tree (depth : Nat) (layout : Layout) :
    (tree depth layout).markup = [markup layout] := by
  match layout with
  | .leaf name attributes text =>
    cases text with
    | nil => rfl
    | cons char others => rfl
  | .block name attributes lines =>
    rw [tree, Node.markup, markup, markupAll_append, markupAll_treesOfLines]
    rw [Node.markupAll, Node.markup, Node.markupAll, List.append_nil, List.append_nil]

theorem markupAll_treesOfLines (depth : Nat) (lines : List Layout) :
    Node.markupAll (treesOfLines depth lines) = markupOfLines lines := by
  match lines with
  | [] => rfl
  | line :: others =>
    rw [treesOfLines, Node.markupAll, Node.markup, Node.markupAll, markup_tree depth line,
      markupAll_treesOfLines depth others]
    rfl

end

end Layout

end LosslessMusic.Xml
