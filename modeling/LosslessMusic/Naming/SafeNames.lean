import LosslessMusic.Naming.Sanitizers
import Mathlib.Data.List.Chain

/-!
# Safe file names

What `sanitize_filename` promises of its results. The last trim takes underscores and spaces
and can lay a dot bare, so a result ends with a dot, and is not stable, exactly when a dot stands
next to what that trim takes.
-/

namespace LosslessMusic.Naming.Filename

open Pattern

/-! ## `sanitize_filename_preserving_token` -/

/-- `truncate_utf8_bytes`. -/
def truncateUtf8Bytes (value : List Char) (maxBytes : Nat) : List Char :=
  if byteLength value ≤ maxBytes then value else truncate maxBytes value

def sanitizeFilenamePreservingToken (filename token : List Char) : List Char :=
  let sanitized := sanitizeFilename filename
  let token := trim token
  if token.isEmpty ∨ ¬token <:+: filename ∨ token <:+: sanitized then sanitized
  else
    let safeToken := sanitizeFilename token
    let suffix := " - ".toList ++ safeToken
    let prefixLimit := maxSanitizedFilenameBytes - byteLength suffix
    if prefixLimit = 0 then truncateUtf8Bytes safeToken maxSanitizedFilenameBytes
    else
      let rawPrefix := (exactly token).replaceAll (fun _ => []) filename
      let rawPrefix := trimMatches " _-" rawPrefix
      let front := sanitizeFilename rawPrefix
      let front := trim (trimMatches ". _-" (truncateUtf8Bytes front prefixLimit))
      if front.isEmpty ∨ front = "Unknown".toList then safeToken else front ++ suffix

/-! ## The steps of `sanitize_filename` -/

/-- The text with spaces for what no file name holds, without controls. -/
def filtered (filename : List Char) : List Char :=
  filename.flatMap fun char =>
    if isReplaced char then [' '] else if isControl char then [] else [char]

/-- The filtered text without white space, and then without dots and spaces, at its ends. -/
def trimmed (filename : List Char) : List Char :=
  trimMatches ". " (trim (filtered filename))

/-- The words with single spaces and single underscores. -/
def normalized (filename : List Char) : List Char :=
  (splitWhitespace (trimmed filename)).foldl pushWord []

theorem sanitizeFilename_def (filename : List Char) : sanitizeFilename filename =
      if (limited (trimMatches "_ " (normalized filename))).isEmpty then "Unknown".toList
      else limited (trimMatches "_ " (normalized filename)) :=
  rfl

/-! ## Tidy texts -/

/-- A character that a result may hold; of the white space only the space. -/
def isKeptChar (char : Char) : Bool :=
  !isReplaced char && !isControl char && (!Text.isWhiteSpace char || char == ' ')

/-- Two characters that may follow each other. -/
def Apart (one other : Char) : Prop :=
  one = other → one ≠ ' ' ∧ one ≠ '_'

instance : DecidableRel Apart :=
  fun one other => inferInstanceAs (Decidable (one = other → one ≠ ' ' ∧ one ≠ '_'))

/-- Characters that may be there, and no two spaces or underscores in a row. -/
structure Tidy (text : List Char) : Prop where
  kept : ∀ char ∈ text, isKeptChar char = true
  apart : text.IsChain Apart

theorem isChain_part {text part : List Char} (apart : text.IsChain Apart) (inside : part <:+: text) :
    part.IsChain Apart := by
  obtain ⟨front, back, rfl⟩ := inside
  exact apart.left_of_append.right_of_append

theorem Tidy.part {text part : List Char} (tidy : Tidy text) (inside : part <:+: text) :
    Tidy part where
  kept char member := tidy.kept char (inside.subset member)
  apart := isChain_part tidy.apart inside

theorem tidy_nil : Tidy [] where
  kept := nofun
  apart := .nil

theorem Tidy.append {front back : List Char} (tidy : Tidy front) (after : Tidy back)
    (apart : ∀ last ∈ front.getLast?, ∀ first ∈ back.head?, Apart last first) :
    Tidy (front ++ back) where
  kept char member := (List.mem_append.mp member).elim (tidy.kept char) (after.kept char)
  apart := tidy.apart.append after.apart apart

variable {char : Char}

theorem Tidy.concat {text : List Char} (tidy : Tidy text)
    (kept : isKeptChar char = true) (apart : ∀ last ∈ text.getLast?, Apart last char) :
    Tidy (text ++ [char]) := by
  refine tidy.append ⟨?_, .singleton char⟩ ?_
  · intro other member
    rw [List.mem_singleton.mp member]
    exact kept
  · intro last isLast first isFirst
    rw [List.head?_singleton, Option.mem_some_iff] at isFirst
    subst isFirst
    exact apart last isLast

/-- The words that are pushed: no white space, and characters that may be there. -/
def IsPlain (word : List Char) : Prop :=
  ∀ char ∈ word, isKeptChar char = true ∧ char ≠ ' '

/-- A text that ends a word. -/
structure EndsWord (text : List Char) : Prop where
  tidy : Tidy text
  ends : ∃ front last, text = front ++ [last] ∧ last ≠ ' '

theorem EndsWord.pushChar {text : List Char} (word : EndsWord text)
    (kept : isKeptChar char = true) (plain : char ≠ ' ') : EndsWord (pushChar text char) := by
  unfold Filename.pushChar
  split
  next pushed =>
    refine ⟨word.tidy.concat kept fun last isLast same => ?_, text, char, rfl, plain⟩
    subst same
    refine ⟨plain, fun underscore => ?_⟩
    exact pushed.elim (· underscore) fun other => other (underscore ▸ isLast)
  · exact word

theorem EndsWord.foldl_pushChar {word : List Char} (plain : IsPlain word) {text : List Char}
    (ends : EndsWord text) : EndsWord (word.foldl Filename.pushChar text) := by
  induction word generalizing text with
  | nil => exact ends
  | cons char rest ih =>
    obtain ⟨kept, notBlank⟩ := plain char List.mem_cons_self
    exact ih (fun other member => plain other (List.mem_cons_of_mem _ member))
      (ends.pushChar kept notBlank)

theorem endsWord_pushWord {text word : List Char} (before : text = [] ∨ EndsWord text)
    (filled : word ≠ []) (plain : IsPlain word) : EndsWord (pushWord text word) := by
  cases word with
  | nil => exact absurd rfl filled
  | cons first rest =>
    obtain ⟨kept, notBlank⟩ := plain first List.mem_cons_self
    have more : IsPlain rest := fun other member => plain other (List.mem_cons_of_mem _ member)
    unfold pushWord
    rw [List.foldl_cons]
    refine EndsWord.foldl_pushChar more ?_
    rcases before with rfl | ends
    · have pushed : pushChar [] first = [first] := if_pos (.inr nofun)
      rw [List.isEmpty_nil, if_pos rfl, pushed]
      exact ⟨tidy_nil.concat kept nofun, [], first, rfl, notBlank⟩
    · obtain ⟨front, last, whole, lastNotBlank⟩ := ends.ends
      have nonempty : text.isEmpty = false := by simp [whole]
      have spaced : Tidy (text ++ [' ']) := by
        refine ends.tidy.concat (by decide) fun other isLast same => ?_
        rw [whole, List.getLast?_concat, Option.mem_some_iff] at isLast
        exact absurd (isLast.trans same) lastNotBlank
      have pushed : pushChar (text ++ [' ']) first = text ++ [' '] ++ [first] :=
        if_pos (.inr (by simp))
      rw [nonempty, if_neg Bool.false_ne_true, pushed]
      refine ⟨spaced.concat kept fun other isLast same => ?_, _, first, rfl, notBlank⟩
      rw [List.getLast?_concat, Option.mem_some_iff] at isLast
      exact absurd (same.symm.trans isLast.symm) notBlank

theorem foldl_pushWord_cases {words : List (List Char)} (filled : ∀ word ∈ words, word ≠ [])
    (plain : ∀ word ∈ words, IsPlain word) {text : List Char} (before : text = [] ∨ EndsWord text) :
    words.foldl pushWord text = [] ∨ EndsWord (words.foldl pushWord text) := by
  induction words generalizing text with
  | nil => exact before
  | cons word rest ih =>
    rw [List.forall_mem_cons] at filled plain
    exact ih filled.2 plain.2 (.inr (endsWord_pushWord before filled.1 plain.1))

theorem flatten_splitWhitespace (text : List Char) :
    (splitWhitespace text).flatten = text.filter fun char => !Text.isWhiteSpace char := by
  unfold splitWhitespace
  rw [List.flatten_filter_ne_nil]
  induction text with
  | nil => rfl
  | cons char rest ih =>
    rw [List.splitOnP_cons_eq_if_modifyHead]
    cases blank : Text.isWhiteSpace char with
    | true => simpa [blank] using ih
    | false =>
      cases pieces : rest.splitOnP Text.isWhiteSpace with
      | nil => exact absurd pieces (List.splitOnP_ne_nil _ rest)
      | cons first others =>
        rw [pieces] at ih
        simpa [blank] using ih

theorem mem_filtered {filename : List Char} (member : char ∈ filtered filename) :
    isReplaced char = false ∧ isControl char = false := by
  obtain ⟨before, -, inside⟩ := List.mem_flatMap.mp member
  split at inside
  · rw [List.mem_singleton.mp inside]
    decide
  next notReplaced =>
    split at inside
    · cases inside
    next notControl =>
      rw [List.mem_singleton.mp inside]
      exact ⟨Bool.eq_false_iff.mpr notReplaced, Bool.eq_false_iff.mpr notControl⟩

theorem tidy_normalized (filename : List Char) : Tidy (normalized filename) := by
  have words : ∀ word ∈ splitWhitespace (trimmed filename), word ≠ [] ∧ IsPlain word := by
    intro word member
    refine ⟨by simpa using (List.mem_filter.mp member).2, fun char inside => ?_⟩
    have among : char ∈ (splitWhitespace (trimmed filename)).flatten :=
      List.mem_flatten.mpr ⟨word, member, inside⟩
    rw [flatten_splitWhitespace, List.mem_filter, Bool.not_eq_true'] at among
    obtain ⟨notReplaced, notControl⟩ := mem_filtered (mem_of_mem_trimBy (mem_of_mem_trimBy among.1))
    unfold isKeptChar
    rw [notReplaced, notControl, among.2]
    refine ⟨rfl, ?_⟩
    rintro rfl
    exact absurd among.2 (by decide)
  rcases foldl_pushWord_cases (fun word member => (words word member).1)
    (fun word member => (words word member).2) (.inl rfl) with nothing | ends
  · unfold normalized
    rw [nothing]
    exact tidy_nil
  · exact ends.tidy

/-! ## Trimmed texts -/

section Trimming

variable {edge : Char → Bool} {text : List Char}

theorem trimBy_isInfix (edge : Char → Bool) (text : List Char) : trimBy edge text <:+: text :=
  (List.rdropWhile_prefix edge _).isInfix.trans (List.dropWhile_suffix edge).isInfix

theorem filter_trimBy (edge keeps : Char → Bool)
    (part : ∀ char, edge char = true → keeps char = false) (text : List Char) :
    (trimBy edge text).filter keeps = text.filter keeps := by
  have nothing : ∀ text : List Char, (∀ char ∈ text, edge char = true) →
      text.filter keeps = [] := by
    intro text all
    rw [List.filter_eq_nil_iff]
    intro char member
    simp [part char (all char member)]
  rcases edges_cases edge text with
    all | ⟨before, core, behind, whole, allBefore, allBehind, isCore⟩
  · rw [trimBy_all all, nothing text all]
    rfl
  · rw [whole, trimBy_core allBefore allBehind isCore]
    simp [nothing before allBefore, nothing behind allBehind]

theorem head?_trimBy (edge : Char → Bool) (text : List Char) :
    (trimBy edge text).head? = (text.filter fun char => !edge char).head? := by
  rw [← filter_trimBy edge _ (by simp) text]
  rcases edges_cases edge text with
    all | ⟨before, core, behind, whole, allBefore, allBehind, isCore⟩
  · rw [trimBy_all all]
    rfl
  · obtain ⟨first, rest, rfl, refused⟩ := isCore.begins
    rw [whole, trimBy_core allBefore allBehind isCore]
    simp [refused]

theorem getLast?_trimBy (edge : Char → Bool) (text : List Char) :
    (trimBy edge text).getLast? = (text.filter fun char => !edge char).getLast? := by
  rw [← filter_trimBy edge _ (by simp) text]
  rcases edges_cases edge text with
    all | ⟨before, core, behind, whole, allBefore, allBehind, isCore⟩
  · rw [trimBy_all all]
    rfl
  · obtain ⟨front, last, rfl, refused⟩ := isCore.ends
    rw [whole, trimBy_core allBefore allBehind isCore]
    simp [refused]

end Trimming

/-! ## Where a dot is laid bare -/

/-- A character that no trim of underscores and white space takes. -/
def isVisible (char : Char) : Bool :=
  !Text.isWhiteSpace char && char != '_'

/-- Of the visible characters the first or the last is a dot. -/
def hasOuterDot (text : List Char) : Bool :=
  (text.filter isVisible).head? == some '.' || (text.filter isVisible).getLast? == some '.'

/-- The last trim of a name lays a dot bare: of the trimmed text, or of its first bytes where
its words are too long. -/
def baresDot (filename : List Char) : Bool :=
  let name := trimMatches "_ " (normalized filename)
  if byteLength name > maxSanitizedFilenameBytes then
    hasOuterDot (trimMatches ". " (truncate maxSanitizedFilenameBytes name))
  else hasOuterDot (trimmed filename)

theorem filter_pushChar (text : List Char) (char : Char) :
    (pushChar text char).filter isVisible = (text ++ [char]).filter isVisible := by
  unfold pushChar
  split
  · rfl
  next repeats =>
    rw [not_or, not_not] at repeats
    rw [repeats.1, List.filter_append]
    exact (List.append_nil _).symm

theorem filter_foldl_pushChar (word text : List Char) :
    (word.foldl pushChar text).filter isVisible = (text ++ word).filter isVisible := by
  induction word generalizing text with
  | nil => rw [List.append_nil]; rfl
  | cons char rest ih =>
    rw [List.foldl_cons, ih, List.filter_append, filter_pushChar,
      ← List.filter_append, List.append_assoc, List.singleton_append]

theorem filter_pushWord (text word : List Char) :
    (pushWord text word).filter isVisible = (text ++ word).filter isVisible := by
  unfold pushWord
  rw [filter_foldl_pushChar]
  split
  · rfl
  · have blank : [' '].filter isVisible = [] := by decide
    rw [List.append_assoc, List.filter_append, List.filter_append, blank, List.nil_append,
      List.filter_append]

theorem filter_normalized (filename : List Char) :
    (normalized filename).filter isVisible = (trimmed filename).filter isVisible := by
  have folded : ∀ (words : List (List Char)) (text : List Char),
      (words.foldl pushWord text).filter isVisible = (text ++ words.flatten).filter isVisible := by
    intro words
    induction words with
    | nil => simp
    | cons word rest ih =>
      intro text
      rw [List.foldl_cons, ih, List.filter_append, filter_pushWord]
      simp
  unfold normalized
  rw [folded, List.nil_append, flatten_splitWhitespace, List.filter_filter]
  refine List.filter_congr fun char _ => ?_
  unfold isVisible
  cases Text.isWhiteSpace char with
  | true => rfl
  | false => simp

/-! ## Lengths -/

theorem byteLength_append (front back : List Char) :
    byteLength (front ++ back) = byteLength front + byteLength back := by
  unfold byteLength
  rw [List.map_append, List.sum_append]

theorem byteLength_le_of_isInfix {part text : List Char} (inside : part <:+: text) :
    byteLength part ≤ byteLength text := by
  obtain ⟨front, back, rfl⟩ := inside
  rw [byteLength_append, byteLength_append]
  omega

theorem truncate_isPrefix (limit : Nat) (text : List Char) : truncate limit text <+: text := by
  induction text generalizing limit with
  | nil => exact List.nil_prefix
  | cons char rest ih =>
    unfold truncate
    split
    · exact (List.prefix_cons_inj char).mpr (ih _)
    · exact List.nil_prefix

theorem byteLength_truncate (limit : Nat) (text : List Char) :
    byteLength (truncate limit text) ≤ limit := by
  induction text generalizing limit with
  | nil => exact Nat.zero_le _
  | cons char rest ih =>
    unfold truncate
    split
    next fits =>
      have shorter := ih (limit - char.utf8Size)
      have whole : byteLength (char :: truncate (limit - char.utf8Size) rest) =
          char.utf8Size + byteLength (truncate (limit - char.utf8Size) rest) := by
        unfold byteLength
        rw [List.map_cons, List.sum_cons]
      omega
    · exact Nat.zero_le _

/-! ## Safe names -/

/-- What every result is: not empty, short, of characters that a file name may hold, and
without two spaces or two underscores in a row. -/
structure IsSafe (name : List Char) : Prop where
  nonempty : name ≠ []
  short : byteLength name ≤ maxSanitizedFilenameBytes
  characters : ∀ char ∈ name, char ∉ "<>:\"/\\|?*".toList ∧ isControl char = false
  spaces : ¬[' ', ' '] <:+: name
  underscores : ¬['_', '_'] <:+: name

/-- What the last trim gets. -/
def lastTrimmed (filename : List Char) : List Char :=
  let name := trimMatches "_ " (normalized filename)
  if byteLength name > maxSanitizedFilenameBytes then
    trim (trimMatches ". " (truncate maxSanitizedFilenameBytes name))
  else normalized filename

/-- A result before the name for nothing. -/
def sanitized (filename : List Char) : List Char :=
  trimMatches "_ " (lastTrimmed filename)

theorem sanitizeFilename_eq_ite (filename : List Char) : sanitizeFilename filename =
      if (sanitized filename).isEmpty then "Unknown".toList else sanitized filename := by
  have same : limited (trimMatches "_ " (normalized filename)) = sanitized filename := by
    unfold limited sanitized lastTrimmed
    dsimp only
    split
    · rfl
    · rfl
  rw [sanitizeFilename_def, same]

theorem lastTrimmed_isInfix (filename : List Char) : lastTrimmed filename <:+: normalized filename := by
  unfold lastTrimmed
  dsimp only
  split
  · exact (trimBy_isInfix _ _).trans ((trimBy_isInfix _ _).trans
      ((truncate_isPrefix _ _).isInfix.trans (trimBy_isInfix _ _)))
  · exact List.infix_rfl

theorem sanitized_isInfix (filename : List Char) : sanitized filename <:+: normalized filename :=
  (trimBy_isInfix _ _).trans (lastTrimmed_isInfix filename)

theorem byteLength_sanitized (filename : List Char) :
    byteLength (sanitized filename) ≤ maxSanitizedFilenameBytes := by
  unfold sanitized lastTrimmed
  dsimp only
  split
  · exact (byteLength_le_of_isInfix ((trimBy_isInfix _ _).trans ((trimBy_isInfix _ _).trans
      (trimBy_isInfix _ _)))).trans (byteLength_truncate _ _)
  next short => exact Nat.le_of_not_lt short

variable {name : List Char}

theorem Tidy.isSafe (tidy : Tidy name) (nonempty : name ≠ [])
    (short : byteLength name ≤ maxSanitizedFilenameBytes) : IsSafe name where
  nonempty := nonempty
  short := short
  characters char member := by
    have kept := tidy.kept char member
    unfold isKeptChar isReplaced at kept
    simp only [Bool.and_eq_true, Bool.not_eq_true', Bool.or_eq_false_iff] at kept
    refine ⟨fun forbidden => ?_, kept.1.2⟩
    rw [List.contains_iff_mem.mpr forbidden] at kept
    exact Bool.false_ne_true kept.1.1.1.symm
  spaces inside := by
    have apart := isChain_part tidy.apart inside
    rw [List.isChain_pair] at apart
    exact (apart rfl).1 rfl
  underscores inside := by
    have apart := isChain_part tidy.apart inside
    rw [List.isChain_pair] at apart
    exact (apart rfl).2 rfl

theorem tidy_unknown : Tidy "Unknown".toList where
  kept := by decide
  apart := by decide

theorem tidy_sanitizeFilename (filename : List Char) : Tidy (sanitizeFilename filename) := by
  rw [sanitizeFilename_eq_ite]
  split
  · exact tidy_unknown
  · exact (tidy_normalized filename).part (sanitized_isInfix filename)

theorem isSafe_sanitizeFilename (filename : List Char) : IsSafe (sanitizeFilename filename) := by
  refine (tidy_sanitizeFilename filename).isSafe ?_ ?_
  · rw [sanitizeFilename_eq_ite]
    split
    · decide
    next filled => exact fun empty => filled (List.isEmpty_iff.mpr empty)
  · rw [sanitizeFilename_eq_ite]
    split
    · decide
    · exact byteLength_sanitized filename

/-! ## Stable names -/

/-- A name that begins and ends with no space, dot or underscore, is neither of the dots that
name directories, and is sanitized to itself. -/
structure IsStable (name : List Char) : Prop where
  begins : ∀ char ∈ name.head?, char ∉ " ._".toList
  ends : ∀ char ∈ name.getLast?, char ∉ " ._".toList
  noDots : name ≠ ".".toList ∧ name ≠ "..".toList
  again : sanitizeFilename name = name

theorem eq_space_of_kept (kept : isKeptChar char = true)
    (blank : Text.isWhiteSpace char = true) : char = ' ' := by
  unfold isKeptChar at kept
  rw [blank, Bool.and_eq_true] at kept
  simpa using kept.2

theorem collapseFrom_tidy {text : List Char} (tidy : Tidy text) (inside : Bool)
    (begins : inside = true → text.head? ≠ some ' ') :
    collapseFrom Text.isWhiteSpace ' ' inside text = text := by
  induction text generalizing inside with
  | nil => rfl
  | cons char rest ih =>
    have after : Tidy rest := tidy.part (List.suffix_cons char rest).isInfix
    rw [collapseFrom_cons]
    split
    next blank =>
      have isSpace : char = ' ' := eq_space_of_kept (tidy.kept char List.mem_cons_self) blank
      subst isSpace
      have outside : inside = false := by
        cases inside with
        | false => rfl
        | true => exact absurd rfl (begins rfl)
      rw [outside, ih after true fun _ isSpace => ?_]
      · rfl
      · cases rest with
        | nil => cases isSpace
        | cons next others =>
          rw [List.head?_cons, Option.some.injEq] at isSpace
          subst isSpace
          exact ((List.isChain_cons_cons.mp tidy.apart).1 rfl).1 rfl
    · rw [ih after false nofun]

theorem sanitizeFilename_tidy (tidy : Tidy name) (nonempty : name ≠ [])
    (short : byteLength name ≤ maxSanitizedFilenameBytes)
    (begins : ∀ char ∈ name.head?, char ∉ " ._".toList)
    (ends : ∀ char ∈ name.getLast?, char ∉ " ._".toList) : sanitizeFilename name = name := by
  have outer : ∀ char ∈ name, char ∉ " ._".toList → Text.isWhiteSpace char = false := by
    intro char member refused
    cases blank : Text.isWhiteSpace char with
    | false => rfl
    | true =>
      rw [eq_space_of_kept (tidy.kept char member) blank] at refused
      exact absurd (by decide) refused
  have isFiltered : filtered name = name := by
    refine (List.flatMap_congr fun char member => ?_).trans (List.flatMap_singleton' name)
    have kept := tidy.kept char member
    unfold isKeptChar at kept
    simp only [Bool.and_eq_true, Bool.not_eq_true'] at kept
    rw [kept.1.1, kept.1.2, if_neg Bool.false_ne_true, if_neg Bool.false_ne_true]
  have isTrimmed : trim name = name := by
    refine trimBy_eq_self (fun char isFirst => ?_) fun char isLast => ?_
    · exact outer char (List.mem_of_head? isFirst) (begins char isFirst)
    · exact outer char (List.mem_of_getLast? isLast) (ends char isLast)
  have isMatched : ∀ marks : String, (∀ char ∈ marks.toList, char ∈ " ._".toList) →
      trimMatches marks name = name := by
    intro marks part
    refine trimBy_eq_self (fun char isFirst => ?_) fun char isLast => ?_
    · exact Bool.eq_false_iff.mpr fun mark =>
        begins char isFirst (part char (List.contains_iff_mem.mp mark))
    · exact Bool.eq_false_iff.mpr fun mark =>
        ends char isLast (part char (List.contains_iff_mem.mp mark))
  have isCore : IsCore Text.isWhiteSpace name := by
    constructor
    · obtain ⟨first, rest, rfl⟩ := List.exists_cons_of_ne_nil nonempty
      exact ⟨first, rest, rfl, outer first List.mem_cons_self (begins first rfl)⟩
    · have isLast := List.getLast?_eq_some_getLast nonempty
      exact ⟨_, _, (List.dropLast_append_getLast nonempty).symm,
        outer _ (List.getLast_mem nonempty) (ends _ isLast)⟩
  have joined : [' '].intercalate (splitWhitespace name) = name := by
    have words : [' '].intercalate (splitWhitespace name) =
        collapse Text.isWhiteSpace ' ' name := intercalate_words name isCore
    exact words.trans (collapseFrom_tidy tidy false nofun)
  have isNormalized : (splitWhitespace name).foldl pushWord [] = name := by
    rw [foldl_pushWord_nil, joined]
    · intro word member
      simpa using (List.mem_filter.mp member).2
    · rw [joined]
      exact (tidy.isSafe nonempty short).underscores
  have isWhole : normalized name = name := by
    unfold normalized trimmed
    rw [isFiltered, isTrimmed, isMatched ". " (by decide), isNormalized]
  rw [sanitizeFilename_def, isWhole, isMatched "_ " (by decide)]
  unfold limited
  rw [if_neg (Nat.not_lt.mpr short), if_neg]
  exact fun empty => nonempty (List.isEmpty_iff.mp empty)

/-! ## Which results are stable -/

theorem isVisible_of_kept (kept : isKeptChar char = true) :
    isVisible char = !"_ ".toList.contains char := by
  unfold isVisible
  cases blank : Text.isWhiteSpace char with
  | true =>
    rw [eq_space_of_kept kept blank]
    decide
  | false =>
    have notSpace : char ≠ ' ' := by
      rintro rfl
      exact absurd blank (by decide)
    by_cases underscore : char = '_'
    · subst underscore
      decide
    · simp [underscore, notSpace]

theorem filter_lastTrimmed (filename : List Char) :
    ((lastTrimmed filename).filter fun char => !"_ ".toList.contains char) =
      (lastTrimmed filename).filter isVisible := by
  refine List.filter_congr fun char member => ?_
  have tidy := (tidy_normalized filename).part (lastTrimmed_isInfix filename)
  rw [isVisible_of_kept (tidy.kept char member)]

theorem hasOuterDot_lastTrimmed (filename : List Char) :
    hasOuterDot (lastTrimmed filename) = baresDot filename := by
  unfold lastTrimmed baresDot
  dsimp only
  split
  · unfold hasOuterDot trim
    have same := filter_trimBy Text.isWhiteSpace isVisible (fun char blank => ?_)
      (trimMatches ". " (truncate maxSanitizedFilenameBytes
        (trimMatches "_ " (normalized filename))))
    · unfold trimBy at same
      rw [same]
    · unfold isVisible
      rw [blank]
      rfl
  · unfold hasOuterDot
    rw [filter_normalized]

theorem outer_sanitized (filename : List Char) :
    ((sanitized filename).head? = some '.' ∨ (sanitized filename).getLast? = some '.') ↔
      baresDot filename = true := by
  unfold sanitized
  have head := head?_trimBy "_ ".toList.contains (lastTrimmed filename)
  have last := getLast?_trimBy "_ ".toList.contains (lastTrimmed filename)
  rw [filter_lastTrimmed] at head last
  rw [← hasOuterDot_lastTrimmed]
  unfold hasOuterDot
  rw [← head, ← last, Bool.or_eq_true, beq_iff_eq, beq_iff_eq]
  rfl

theorem Tidy.isStable (tidy : Tidy name) (nonempty : name ≠ [])
    (short : byteLength name ≤ maxSanitizedFilenameBytes)
    (begins : ∀ char ∈ name.head?, char ∉ " ._".toList)
    (ends : ∀ char ∈ name.getLast?, char ∉ " ._".toList) : IsStable name where
  begins := begins
  ends := ends
  noDots := by
    constructor
    · rintro rfl
      exact begins '.' rfl (by decide)
    · rintro rfl
      exact begins '.' rfl (by decide)
  again := sanitizeFilename_tidy tidy nonempty short begins ends

theorem not_mem_marks {filename : List Char} (notBare : baresDot filename = false)
    (outer : (sanitized filename).head? = some char ∨ (sanitized filename).getLast? = some char) :
    char ∉ " ._".toList := by
  have noMark : "_ ".toList.contains char = false := by
    have refused : char ∈ (lastTrimmed filename).filter fun char => !"_ ".toList.contains char := by
      unfold sanitized at outer
      rcases outer with isFirst | isLast
      · exact List.mem_of_head? ((head?_trimBy _ _).symm.trans isFirst)
      · exact List.mem_of_getLast? ((getLast?_trimBy _ _).symm.trans isLast)
    simpa using (List.mem_filter.mp refused).2
  have noDot : char ≠ '.' := by
    rintro rfl
    exact Bool.false_ne_true (notBare.symm.trans ((outer_sanitized filename).mp outer))
  intro member
  have either : char = ' ' ∨ char = '.' ∨ char = '_' := by simpa using member
  rcases either with rfl | rfl | rfl
  · exact absurd noMark (by decide)
  · exact noDot rfl
  · exact absurd noMark (by decide)

theorem isStable_sanitizeFilename_iff (filename : List Char) :
    IsStable (sanitizeFilename filename) ↔ baresDot filename = false := by
  have safe := isSafe_sanitizeFilename filename
  have tidy := tidy_sanitizeFilename filename
  constructor
  · intro stable
    rw [← Bool.not_eq_true, ← outer_sanitized]
    intro outer
    have filled : ¬(sanitized filename).isEmpty = true := by
      intro empty
      rw [List.isEmpty_iff.mp empty] at outer
      rcases outer with isFirst | isLast
      · cases isFirst
      · cases isLast
    have whole : sanitizeFilename filename = sanitized filename := by
      rw [sanitizeFilename_eq_ite, if_neg filled]
    rw [whole] at stable
    rcases outer with isFirst | isLast
    · exact stable.begins '.' isFirst (by decide)
    · exact stable.ends '.' isLast (by decide)
  · intro notBare
    refine tidy.isStable safe.nonempty safe.short ?_ ?_
    · intro char isFirst
      rw [sanitizeFilename_eq_ite] at isFirst
      split at isFirst
      · obtain rfl : 'U' = char := Option.some.inj isFirst
        decide
      · exact not_mem_marks notBare (.inl isFirst)
    · intro char isLast
      rw [sanitizeFilename_eq_ite] at isLast
      split at isLast
      · obtain rfl : 'n' = char := Option.some.inj isLast
        decide
      · exact not_mem_marks notBare (.inr isLast)

/-! ## Names with a token -/

theorem truncateUtf8Bytes_isPrefix (value : List Char) (maxBytes : Nat) :
    truncateUtf8Bytes value maxBytes <+: value := by
  unfold truncateUtf8Bytes
  split
  · exact List.prefix_rfl
  · exact truncate_isPrefix _ _

theorem byteLength_truncateUtf8Bytes (value : List Char) (maxBytes : Nat) :
    byteLength (truncateUtf8Bytes value maxBytes) ≤ maxBytes := by
  unfold truncateUtf8Bytes
  split
  next short => exact short
  · exact byteLength_truncate _ _

theorem begins_sanitizeFilename (filename : List Char) :
    ∀ char ∈ (sanitizeFilename filename).head?, char ≠ ' ' := by
  intro char isFirst
  rw [sanitizeFilename_eq_ite] at isFirst
  split at isFirst
  · obtain rfl : 'U' = char := Option.some.inj isFirst
    decide
  · rw [sanitized, trimMatches, ← trimBy, head?_trimBy] at isFirst
    rintro rfl
    have refused := (List.mem_filter.mp (List.mem_of_head? isFirst)).2
    exact absurd refused (by decide)

theorem tidy_suffix {front token : List Char} (tidy : Tidy front) (after : Tidy token)
    (ends : ∀ char ∈ front.getLast?, char ≠ ' ') (begins : ∀ char ∈ token.head?, char ≠ ' ') :
    Tidy (front ++ (" - ".toList ++ token)) := by
  have dash : Tidy " - ".toList := ⟨by decide, by decide⟩
  refine tidy.append (dash.append after fun last isLast first isFirst same => ?_)
    fun last isLast first isFirst same => ?_
  · have isSpace : last = ' ' := by simpa using isLast.symm
    exact absurd (same.symm.trans isSpace) (begins first isFirst)
  · have isSpace : first = ' ' := by simpa using isFirst.symm
    exact absurd (same.trans isSpace) (ends last isLast)

theorem isSafe_suffix (filename : List Char) {suffix : List Char} {token : List Char}
    (isSuffix : suffix = " - ".toList ++ sanitizeFilename token)
    (room : maxSanitizedFilenameBytes - byteLength suffix ≠ 0) :
    IsSafe (trim (trimMatches ". _-" (truncateUtf8Bytes (sanitizeFilename filename)
      (maxSanitizedFilenameBytes - byteLength suffix))) ++ suffix) := by
  generalize isCut : truncateUtf8Bytes (sanitizeFilename filename)
    (maxSanitizedFilenameBytes - byteLength suffix) = cut
  have begins : cut <+: sanitizeFilename filename := isCut ▸ truncateUtf8Bytes_isPrefix _ _
  have fits : byteLength cut ≤ maxSanitizedFilenameBytes - byteLength suffix :=
    isCut ▸ byteLength_truncateUtf8Bytes _ _
  generalize isFront : trim (trimMatches ". _-" cut) = front
  have inside : front <:+: cut := isFront ▸ (trimBy_isInfix _ _).trans (trimBy_isInfix _ _)
  have tidy : Tidy front := (tidy_sanitizeFilename filename).part (inside.trans begins.isInfix)
  have ends : ∀ char ∈ front.getLast?, char ≠ ' ' := by
    intro char isLast
    rw [← isFront, trim, ← trimBy, getLast?_trimBy] at isLast
    rintro rfl
    have refused := (List.mem_filter.mp (List.mem_of_getLast? isLast)).2
    exact absurd refused (by decide)
  have short := byteLength_le_of_isInfix inside
  rw [isSuffix]
  refine (tidy_suffix tidy (tidy_sanitizeFilename token) ends
    (begins_sanitizeFilename token)).isSafe ?_ ?_
  · simp
  · rw [← isSuffix, byteLength_append]
    omega

theorem isSafe_sanitizeFilenamePreservingToken (filename token : List Char) :
    IsSafe (sanitizeFilenamePreservingToken filename token) := by
  unfold sanitizeFilenamePreservingToken
  dsimp only
  split
  · exact isSafe_sanitizeFilename filename
  · have safe := isSafe_sanitizeFilename (trim token)
    split
    · have whole : truncateUtf8Bytes (sanitizeFilename (trim token)) maxSanitizedFilenameBytes =
          sanitizeFilename (trim token) := if_pos safe.short
      rw [whole]
      exact safe
    next room =>
      split
      · exact safe
      · exact isSafe_suffix _ rfl room

/-- Every result is safe, with a token or without; it is stable too exactly when the last trim
lays no dot bare. -/
theorem sanitizeFilename_stable_iff (filename token : List Char) :
    IsSafe (sanitizeFilename filename) ∧ IsSafe (sanitizeFilenamePreservingToken filename token) ∧
      (IsSafe (sanitizeFilename filename) ∧ IsStable (sanitizeFilename filename) ∧
        IsSafe (sanitizeFilenamePreservingToken filename token) ↔ baresDot filename = false) := by
  have safe := isSafe_sanitizeFilename filename
  have also := isSafe_sanitizeFilenamePreservingToken filename token
  refine ⟨safe, also, ?_⟩
  rw [and_iff_right safe, and_iff_left also]
  exact isStable_sanitizeFilename_iff filename

theorem dot_laid_bare : ¬∀ filename token : List Char,
      IsSafe (sanitizeFilename filename) ∧ IsStable (sanitizeFilename filename) ∧
        IsSafe (sanitizeFilenamePreservingToken filename token) := by
  intro stable
  have again := (stable "_.a".toList []).2.1.again
  exact absurd again (by decide)

end LosslessMusic.Naming.Filename
