import LosslessMusic.Codec.UnitsOfChars
import LosslessMusic.Naming.DownloadPaths
import LosslessMusic.Naming.Filename
import LosslessMusic.Pattern.Edges

/-!
# The two sanitizers

`sanitizeFolderSegment` of the app and `sanitize_filename` of the engine give the same
name for a text of ordinary characters, as long as the name repeats no underscore, has
none at an end and is short.
-/

namespace LosslessMusic.Naming

open Codec Pattern

/-- No control and no white space but the space. -/
def isOrdinary (char : Char) : Bool :=
  !Filename.isControl char && (char == ' ' || !Text.isDartSpace char)

/-- The space. -/
def isBlank (char : Char) : Bool :=
  char == ' '

/-- A dot or the space. -/
def isDotOrBlank (char : Char) : Bool :=
  ". ".toList.contains char

/-- A text with spaces for what no file name holds. -/
def spaced (text : List Char) : List Char :=
  text.map fun char => if Filename.isReplaced char then ' ' else char

/-- The core of a text with single spaces, or a name for nothing. -/
def plainName (text : List Char) : List Char :=
  let core := collapse isBlank ' ' (trimBy isDotOrBlank (spaced text))
  if core.isEmpty then "Unknown".toList else core

/-! ## Units of ordinary characters -/

section Units

variable {char : Char} {unit : UInt16}

/-- A class of characters of the first plane is a class of their units. -/
theorem isOneOf_unit {chars : String} (plane : ∀ other ∈ chars.toList, other.toNat < 0xD800)
    (member : unit ∈ Utf16.encodeChar char) : isOneOf chars unit = chars.toList.contains char := by
  unfold isOneOf
  rw [Bool.eq_iff_iff, List.contains_iff_mem, List.contains_iff_mem]
  constructor
  · intro inClass
    obtain ⟨other, inChars, isUnit⟩ := List.mem_flatMap.mp inClass
    have low := plane other inChars
    rcases Utf16.unit_cases isUnit with ⟨_, same⟩ | ⟨high, _⟩
    · rcases Utf16.unit_cases member with ⟨_, sameToo⟩ | ⟨_, high, _⟩
      · have equal : other = char := Char.toNat_inj.mp (same.symm.trans sameToo)
        rw [← equal]
        exact inChars
      · omega
    · omega
  · intro inChars
    exact List.mem_flatMap.mpr ⟨char, inChars, member⟩

theorem isDartSpace_of_le (high : 0x10000 ≤ char.toNat) : Text.isDartSpace char = false := by
  have noMark : ¬ char = '\uFEFF' := by
    rintro rfl
    exact absurd high (by decide)
  unfold Text.isDartSpace Text.isWhiteSpace
  simp only [Bool.or_eq_false_iff, Bool.and_eq_false_iff, decide_eq_false_iff_not]
  refine ⟨?_, noMark⟩
  omega

theorem isTrimmed_unit (member : unit ∈ Utf16.encodeChar char) :
    isTrimmed unit = Text.isDartSpace char := by
  unfold isTrimmed
  rcases Utf16.unit_cases member with ⟨_, same⟩ | ⟨high, low, top⟩
  · rw [same, Char.ofNat_toNat]
  · have invalid : ¬ unit.toNat.isValidChar := by
      rintro (small | large)
      · omega
      · omega
    have isNull : Char.ofNat unit.toNat = Char.ofNat 0 := by
      unfold Char.ofNat
      rw [dif_neg invalid]
      rfl
    rw [isNull, isDartSpace_of_le high]
    decide

section Ordinary

variable (ordinary : isOrdinary char = true) (member : unit ∈ Utf16.encodeChar char)

include ordinary member

theorem isTrimmed_ordinary : isTrimmed unit = isBlank char := by
  rw [isTrimmed_unit member]
  unfold isOrdinary at ordinary
  unfold isBlank
  rw [Bool.and_eq_true, Bool.or_eq_true] at ordinary
  by_cases blank : char = ' '
  · subst blank
    decide
  · rw [beq_eq_false_iff_ne.mpr blank] at ordinary ⊢
    simpa using ordinary.2

theorem isSpace_ordinary : isSpace unit = isBlank char := by
  unfold isSpace
  rw [isTrimmed_ordinary ordinary member]
  cases blank : isBlank char with
  | false => rfl
  | true =>
    rw [isBlank, beq_iff_eq] at blank
    subst blank
    rw [List.mem_singleton.mp (show unit ∈ [32] from member)]
    decide

theorem isEdge_ordinary : isEdge unit = isDotOrBlank char := by
  unfold isEdge isDotOrBlank
  rw [isSpace_ordinary ordinary member, isOneOf_unit (by decide) member]
  unfold isBlank
  rw [Bool.eq_iff_iff]
  simp

theorem isKept_ordinary : isKept unit = true := by
  unfold isOrdinary Filename.isControl at ordinary
  simp only [Bool.and_eq_true, Bool.not_eq_true', Bool.or_eq_false_iff, Bool.and_eq_false_iff,
    decide_eq_false_iff_not] at ordinary
  have notDelete : unit ≠ 0x7F ∧ 0x20 ≤ unit.toNat := by
    rcases Utf16.unit_cases member with ⟨_, same⟩ | ⟨_, low, _⟩
    · constructor
      · rintro rfl
        have isDelete : char.toNat = 0x7F := same.symm
        omega
      · omega
    · constructor
      · rintro rfl
        exact absurd low (by decide)
      · omega
  unfold isKept
  rw [Bool.and_eq_true, decide_eq_true_eq, bne_iff_ne]
  exact ⟨notDelete.2, notDelete.1⟩

theorem isInvalid_ordinary : isInvalid unit = Filename.isReplaced char := by
  unfold isInvalid Filename.isReplaced
  rw [isOneOf_unit (by decide) member]
  unfold isOrdinary Filename.isControl at ordinary
  simp only [Bool.and_eq_true, Bool.not_eq_true', Bool.or_eq_false_iff, Bool.and_eq_false_iff,
    decide_eq_false_iff_not] at ordinary
  have notControl : ¬ char.toNat ≤ 0x1F := ordinary.1.1
  have order : "\\/:*?\"<>|".toList.Perm "<>:\"/\\|?*".toList := by decide
  rw [Bool.eq_iff_iff, Bool.or_eq_true, decide_eq_true_eq, List.contains_iff_mem,
    List.contains_iff_mem, order.mem_iff]
  exact ⟨.inl, fun either => either.resolve_right notControl⟩

end Ordinary

end Units

/-! ## The segment of the app -/

variable {text : List Char} {units : UInt16 → Bool}

theorem agree_of_ordinary {chars : Char → Bool}
    (same : ∀ char, isOrdinary char = true → ∀ unit ∈ Utf16.encodeChar char,
      units unit = chars char)
    (ordinary : ∀ char ∈ text, isOrdinary char = true) : Utf16.Agree units chars text :=
  fun char member => same char (ordinary char member)

theorem trimBy_ofChars {chars : Char → Bool}
    (same : ∀ char, isOrdinary char = true → ∀ unit ∈ Utf16.encodeChar char,
      units unit = chars char)
    (ordinary : ∀ char ∈ text, isOrdinary char = true) :
    trimBy units (Utf16.ofChars text) = Utf16.ofChars (trimBy chars text) := by
  have rest : ∀ char ∈ text.dropWhile chars, isOrdinary char = true := fun char member =>
    ordinary char ((List.dropWhile_suffix chars).subset member)
  unfold trimBy
  rw [Utf16.dropWhile_ofChars (agree_of_ordinary same ordinary),
    Utf16.rdropWhile_ofChars (agree_of_ordinary same rest)]

/-- Ordinary texts stay ordinary with spaces for what no file name holds. -/
theorem spaced_ordinary (ordinary : ∀ char ∈ text, isOrdinary char = true) :
    ∀ char ∈ spaced text, isOrdinary char = true := by
  intro char member
  obtain ⟨before, inText, isChar⟩ := List.mem_map.mp member
  rw [← isChar]
  split
  · decide
  · exact ordinary before inText

theorem isReplaced_lt {char : Char} (replaced : Filename.isReplaced char = true) :
    char.toNat < 0x10000 := by
  unfold Filename.isReplaced at replaced
  rw [Bool.or_eq_true, decide_eq_true_eq, List.contains_iff_mem] at replaced
  rcases replaced with inClass | control
  · have low : ∀ other ∈ "<>:\"/\\|?*".toList, other.toNat < 0x10000 := by decide
    exact low char inClass
  · omega

theorem replaceAll_isInvalid (ordinary : ∀ char ∈ text, isOrdinary char = true) :
    (Pattern.one isInvalid).replaceAll (fun _ => Utf16.ofString " ") (Utf16.ofChars text) =
      Utf16.ofChars (spaced text) := by
  rw [replaceAll_one]
  induction text with
  | nil => rfl
  | cons char rest ih =>
    rw [List.forall_mem_cons] at ordinary
    have here : ∀ unit ∈ Utf16.encodeChar char, isInvalid unit = Filename.isReplaced char :=
      fun _ member => isInvalid_ordinary ordinary.1 member
    rw [Utf16.ofChars_cons, List.flatMap_append, ih ordinary.2]
    unfold spaced
    rw [List.map_cons, Utf16.ofChars_cons]
    congr 1
    cases replaced : Filename.isReplaced char with
    | true =>
      rw [Utf16.encodeChar_of_lt (isReplaced_lt replaced), List.flatMap_singleton, if_pos,
        if_pos rfl]
      · rfl
      · rw [here _ (by rw [Utf16.encodeChar_of_lt (isReplaced_lt replaced)]; simp), replaced]
    | false =>
      rw [if_neg Bool.false_ne_true]
      refine (List.flatMap_congr fun unit member => ?_).trans (List.flatMap_singleton' _)
      rw [here unit member, replaced, if_neg Bool.false_ne_true]

theorem sanitizeFolderSegment_ofChars (ordinary : ∀ char ∈ text, isOrdinary char = true) :
    sanitizeFolderSegment (Utf16.ofChars text) = Utf16.ofChars (plainName text) := by
  have spacedOrdinary := spaced_ordinary ordinary
  have kept : (Utf16.ofChars text).filter isKept = Utf16.ofChars text := by
    rw [List.filter_eq_self]
    intro unit member
    obtain ⟨char, inText, isUnit⟩ := List.mem_flatMap.mp member
    exact isKept_ordinary (ordinary char inText) isUnit
  have collapsed : collapse isSpace 32 (Utf16.ofChars (spaced text)) =
      Utf16.ofChars (collapse isBlank ' ' (spaced text)) :=
    Utf16.collapseFrom_ofChars 
      (agree_of_ordinary (fun _ isOrdinary _ => isSpace_ordinary isOrdinary) spacedOrdinary)
      rfl false
  have collapsedOrdinary : ∀ char ∈ collapse isBlank ' ' (spaced text), isOrdinary char = true :=
    forall_mem_collapse (fun char => isOrdinary char = true) (by decide) spacedOrdinary
  have trimmedOrdinary : ∀ char ∈ trimBy isBlank (collapse isBlank ' ' (spaced text)),
      isOrdinary char = true :=
    fun char member => collapsedOrdinary char (mem_of_mem_trimBy member)
  have blanksAreEdges : ∀ char, isBlank char = true → isDotOrBlank char = true := by
    intro char blank
    rw [beq_iff_eq.mp blank]
    decide
  have isCore : trimBy isEdge (trim (Utf16.ofChars (collapse isBlank ' ' (spaced text)))) =
      Utf16.ofChars (collapse isBlank ' ' (trimBy isDotOrBlank (spaced text))) := by
    unfold trim
    rw [show ∀ other : Utf16, (other.dropWhile isTrimmed).rdropWhile isTrimmed =
        trimBy isTrimmed other from fun _ => rfl,
      trimBy_ofChars (fun _ isOrdinary _ => isTrimmed_ordinary isOrdinary) collapsedOrdinary,
      trimBy_ofChars (fun _ isOrdinary _ => isEdge_ordinary isOrdinary) trimmedOrdinary, trimBy_trimBy blanksAreEdges,
      trimBy_collapse blanksAreEdges (by decide)]
  have blank : Utf16.ofString " " = [32] := rfl
  unfold sanitizeFolderSegment plainName
  simp only [kept, replaceAll_isInvalid ordinary, replaceAll_start, replaceAll_finish]
  rw [blank, space, replaceAll_oneOrMore, collapsed]
  unfold trimBy at isCore ⊢
  rw [isCore]
  generalize collapse isBlank ' ' ((spaced text).dropWhile isDotOrBlank |>.rdropWhile isDotOrBlank)
    = core
  cases core with
  | nil => rfl
  | cons char rest =>
    have filled : (Utf16.ofChars (char :: rest)).isEmpty = false := by
      rw [Utf16.ofChars_cons]
      cases encoded : Utf16.encodeChar char with
      | nil => exact absurd encoded (Utf16.encodeChar_ne_nil char)
      | cons unit others => rfl
    rw [filled]
    rfl

/-! ## The file name of the engine -/

/-- The engine changes nothing about the underscores of a name and does not cut it. -/
structure KeptByEngine (name : List Char) : Prop where
  apart : ¬ ['_', '_'] <:+: name
  begins : name.head? ≠ some '_'
  ends : name.getLast? ≠ some '_'
  short : Filename.byteLength name ≤ Filename.maxSanitizedFilenameBytes

variable {normalized : List Char}

theorem foldl_pushChar (word : List Char) (apart : ¬ ['_', '_'] <:+: normalized ++ word) :
    word.foldl Filename.pushChar normalized = normalized ++ word := by
  induction word generalizing normalized with
  | nil => rw [List.append_nil]; rfl
  | cons char rest ih =>
    have pushed : Filename.pushChar normalized char = normalized ++ [char] := by
      unfold Filename.pushChar
      rw [if_pos]
      by_contra repeats
      rw [not_or, not_not, not_not] at repeats
      apply apart
      obtain ⟨front, isNormalized⟩ := List.getLast?_eq_some_iff.mp repeats.2
      exact ⟨front, rest, by rw [isNormalized, repeats.1]; simp⟩
    rw [List.foldl_cons, pushed, ih]
    · simp
    · rw [List.append_assoc]
      exact apart

theorem foldl_pushWord (words : List (List Char)) (nonempty : normalized ≠ [])
    (apart : ¬ ['_', '_'] <:+: normalized ++ words.flatMap (' ' :: ·)) :
    words.foldl Filename.pushWord normalized = normalized ++ words.flatMap (' ' :: ·) := by
  induction words generalizing normalized with
  | nil => simp
  | cons word rest ih =>
    have pushed : Filename.pushWord normalized word = normalized ++ ' ' :: word := by
      unfold Filename.pushWord
      rw [if_neg (by simpa using nonempty), foldl_pushChar]
      · simp
      · intro inside
        apply apart
        rw [List.flatMap_cons, ← List.append_assoc]
        exact (by simpa using inside : ['_', '_'] <:+: normalized ++ ' ' :: word).trans
          (List.infix_append' [] _ _)
    rw [List.foldl_cons, pushed, ih]
    · simp
    · simp
    · simpa using apart

theorem intercalate_cons (word : List Char) (rest : List (List Char)) :
    [' '].intercalate (word :: rest) = word ++ rest.flatMap (' ' :: ·) := by
  induction rest generalizing word with
  | nil => simp
  | cons second others ih =>
    rw [List.intercalate_cons_cons, ih second, List.flatMap_cons]
    simp

/-- Words without repeated underscores are joined by spaces. -/
theorem foldl_pushWord_nil (words : List (List Char)) (nonempty : ∀ word ∈ words, word ≠ [])
    (apart : ¬ ['_', '_'] <:+: [' '].intercalate words) :
    words.foldl Filename.pushWord [] = [' '].intercalate words := by
  cases words with
  | nil => rfl
  | cons word rest =>
    rw [intercalate_cons] at apart ⊢
    have first : Filename.pushWord [] word = word := by
      unfold Filename.pushWord
      simp only [List.isEmpty_nil, if_true]
      rw [foldl_pushChar]
      · rfl
      · intro inside
        exact apart (inside.trans (List.infix_append' [] _ _))
    rw [List.foldl_cons, first, foldl_pushWord rest (nonempty word List.mem_cons_self) apart]

/-- A text that begins and ends with no edge is trimmed already. -/
theorem trimBy_eq_self {edge : Char → Bool}
    (begins : ∀ first, text.head? = some first → edge first = false)
    (ends : ∀ last, text.getLast? = some last → edge last = false) : trimBy edge text = text := by
  cases text with
  | nil => rfl
  | cons first rest =>
    have nonempty := List.cons_ne_nil first rest
    have isCore : IsCore edge (first :: rest) := {
      begins := ⟨first, rest, rfl, begins first rfl⟩
      ends := ⟨_, _, (List.dropLast_append_getLast nonempty).symm,
        ends _ (List.getLast?_eq_some_getLast nonempty)⟩ }
    have whole : trimBy edge ([] ++ ((first :: rest) ++ [])) = first :: rest :=
      trimBy_core (fun _ member => nomatch member) (fun _ member => nomatch member) isCore
    simpa using whole

theorem filtered_eq (ordinary : ∀ char ∈ text, isOrdinary char = true) :
    (text.flatMap fun char =>
      if Filename.isReplaced char then [' ']
      else if Filename.isControl char then [] else [char]) = spaced text := by
  induction text with
  | nil => rfl
  | cons char rest ih =>
    rw [List.forall_mem_cons] at ordinary
    have notControl : Filename.isControl char = false := by
      have both := ordinary.1
      rw [isOrdinary, Bool.and_eq_true] at both
      simpa using both.1
    rw [List.flatMap_cons, ih ordinary.2, notControl]
    unfold spaced
    rw [List.map_cons]
    split
    · rfl
    · rfl

theorem isWhiteSpace_ordinary (ordinary : ∀ char ∈ text, isOrdinary char = true) :
    ∀ char ∈ text, Text.isWhiteSpace char = isBlank char := by
  intro char member
  have both := ordinary char member
  rw [isOrdinary, Bool.and_eq_true] at both
  by_cases blank : char = ' '
  · subst blank
    decide
  · have noSpace : Text.isDartSpace char = false := by
      have either := both.2
      rw [beq_eq_false_iff_ne.mpr blank] at either
      simpa using either
    unfold Text.isDartSpace at noSpace
    rw [Bool.or_eq_false_iff] at noSpace
    rw [noSpace.1]
    exact (beq_eq_false_iff_ne.mpr blank).symm

theorem isDotOrBlank_of_isBlank (char : Char) (blank : isBlank char = true) :
    isDotOrBlank char = true := by
  rw [beq_iff_eq.mp blank]
  decide

theorem isMark_of_ne {char : Char} (differs : char ≠ '_') (notBlank : isBlank char = false) :
    "_ ".toList.contains char = false := by
  rw [isBlank, beq_eq_false_iff_ne] at notBlank
  rw [Bool.eq_false_iff, Ne, List.contains_iff_mem]
  intro member
  have either : char = '_' ∨ char = ' ' := by simpa using member
  exact either.elim differs notBlank

theorem sanitizeFilename_eq (ordinary : ∀ char ∈ text, isOrdinary char = true)
    (kept : KeptByEngine (plainName text)) : Filename.sanitizeFilename text = plainName text := by
  have spacedOrdinary := spaced_ordinary ordinary
  have trimmed : Filename.trimMatches ". " (Filename.trim (spaced text)) =
      trimBy isDotOrBlank (spaced text) := by
    have inner : Filename.trim (spaced text) = trimBy isBlank (spaced text) :=
      trimBy_congr (isWhiteSpace_ordinary spacedOrdinary)
    rw [inner]
    exact trimBy_trimBy isDotOrBlank_of_isBlank _
  unfold Filename.sanitizeFilename
  simp only [filtered_eq ordinary, trimmed]
  unfold plainName at kept ⊢
  rcases edges_cases isDotOrBlank (spaced text) with
    all | ⟨before, core, behind, whole, allBefore, allBehind, isCore⟩
  · rw [trimBy_all all]
    decide
  · have isTrimmed : trimBy isDotOrBlank (spaced text) = core := by
      rw [whole, trimBy_core allBefore allBehind isCore]
    have coreOrdinary : ∀ char ∈ core, isOrdinary char = true := by
      intro char member
      rw [← isTrimmed] at member
      exact spacedOrdinary char (mem_of_mem_trimBy member)
    have notBlank (char : Char) (refused : isDotOrBlank char = false) : isBlank char = false := by
      cases blank : isBlank char with
      | false => rfl
      | true => exact (isDotOrBlank_of_isBlank char blank).symm.trans refused
    obtain ⟨first, rest, isFirst, refusedFirst⟩ := isCore.begins
    obtain ⟨front, last, isLast, refusedLast⟩ := isCore.ends
    have isWordCore : IsCore isBlank core := ⟨⟨first, rest, isFirst, notBlank first refusedFirst⟩,
        ⟨front, last, isLast, notBlank last refusedLast⟩⟩
    have split : Filename.splitWhitespace core = words isBlank core :=
      words_congr (isWhiteSpace_ordinary coreOrdinary)
    have joined : [' '].intercalate (words isBlank core) = collapse isBlank ' ' core :=
      intercalate_words core isWordCore
    have collapsed : collapse isBlank ' ' core = first :: collapse isBlank ' ' rest := by
      rw [isFirst, collapse_cons (notBlank first refusedFirst)]
    have filled : (collapse isBlank ' ' core).isEmpty = false := by
      rw [collapsed]
      rfl
    have wordsFilled : ∀ word ∈ words isBlank core, word ≠ [] := by
      intro word member
      simpa using (List.mem_filter.mp member).2
    rw [isTrimmed] at kept ⊢
    simp only [filled, Bool.false_eq_true, if_false] at kept ⊢
    have normalized : (Filename.splitWhitespace core).foldl Filename.pushWord [] =
        collapse isBlank ' ' core := by
      rw [split, ← joined]
      exact foldl_pushWord_nil _ wordsFilled (by rw [joined]; exact kept.apart)
    have isKept : Filename.trimMatches "_ " (collapse isBlank ' ' core) =
        collapse isBlank ' ' core := by
      refine trimBy_eq_self ?_ ?_
      · intro char isChar
        have differs : char ≠ '_' := by
          rintro rfl
          exact kept.begins isChar
        rw [collapsed, List.head?_cons, Option.some.injEq] at isChar
        exact isMark_of_ne differs (isChar ▸ notBlank first refusedFirst)
      · intro char isChar
        have differs : char ≠ '_' := by
          rintro rfl
          exact kept.ends isChar
        have ending : collapse isBlank ' ' core = collapse isBlank ' ' front ++ [last] := by
          rw [isLast, collapse_append _ (notBlank last refusedLast)]
          rfl
        rw [ending, List.getLast?_concat, Option.some.injEq] at isChar
        exact isMark_of_ne differs (isChar ▸ notBlank last refusedLast)
    rw [normalized, isKept]
    unfold Filename.limited
    rw [if_neg (Nat.not_lt.mpr kept.short), if_neg (by rw [filled]; exact Bool.false_ne_true)]

end LosslessMusic.Naming
