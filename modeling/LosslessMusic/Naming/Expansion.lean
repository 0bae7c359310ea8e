import LosslessMusic.Codec.PatternsOfChars
import LosslessMusic.Naming.DownloadTemplates
import LosslessMusic.Naming.Filename

/-!
# The two expansions of a template

The app replaces all placeholders of a template in one pass, the engine one key after
another in what the keys before have left. Both fill the pieces of a template with the
same values, when the values bring no placeholders of their own.
-/

namespace LosslessMusic.Naming

open Codec Pattern Placeholders

/-- The keys without a width. -/
def plainKeys : List String :=
  ["title", "artist", "album", "track", "track_raw", "disc", "disc_raw", "playlist_position",
    "playlist position", "playlistPosition", "position", "playlist_position_raw", "year",
    "date", "quality", "quality_variant", "isrc", "provider", "platform", "provider_id", "id"]

/-- The numbers that can be given a width. -/
def numberNames : List String :=
  ["track", "disc", "playlist_position", "playlistPosition", "position"]

/-- A key with a width. -/
def numberKey (name : String) (digits : List Char) : List Char :=
  name.toList ++ ':' :: digits

/-- A digit that is a width of its own. -/
def widths : List Char :=
  "123456789".toList

/-- The text of a width. -/
def widthDigits : List (List Char) :=
  [[], ['0']].flatMap fun zero => widths.map fun digit => zero ++ [digit]

/-- A key that a template of the app can hold. -/
inductive IsAllowed : List Char → Prop
  | plain (key : String) (isPlain : key ∈ plainKeys) : IsAllowed key.toList
  | number (name : String) (digits : List Char) (isName : name ∈ numberNames)
      (isWidth : digits ∈ widthDigits) : IsAllowed (numberKey name digits)

/-- The pieces of a template with a text for every key. -/
def filledWith (value : List Char → List Char) (parts : List (Piece Char)) : List Char :=
  parts.flatMap fun part =>
    match part with
    | .item char => [char]
    | .placeholder key => value key

/-- A template whose braces are all those of placeholders with keys of the app. -/
structure IsAccepted (parts : List (Piece Char)) : Prop where
  items : ∀ char, Piece.item char ∈ parts → char ≠ '\x7b' ∧ char ≠ '\x7d'
  keys : ∀ key, Piece.placeholder key ∈ parts → IsAllowed key

/-! ## Templates that are accepted -/

variable {key template : List Char}

section Accepted

theorem token_eq : DownloadTemplates.token = Placeholders.pattern 123 125 := by
  have classes : (fun unit => !isOneOf "\x7b\x7d" unit) = isPlain (123 : UInt16) 125 := by
    funext unit
    rw [Bool.eq_iff_iff, isPlain_iff]
    unfold isOneOf
    rw [show Utf16.ofString "\x7b\x7d" = [123, 125] from rfl]
    simp
  unfold DownloadTemplates.token noneOf Placeholders.pattern
  rw [classes]
  rfl

theorem keyOf_placeholder (key : Utf16) :
    DownloadTemplates.keyOf (123 :: (key ++ [125])) = key := by
  unfold DownloadTemplates.keyOf
  rw [List.drop_succ_cons, List.drop_zero, List.dropLast_concat]

theorem keys_separated (text : List Char) :
    ∀ key, Piece.placeholder key ∈ pieces '\x7b' '\x7d' text → IsKey '\x7b' '\x7d' key :=
  fun _ member => isKey_of_mem_scan _ text member

theorem number_hasMatch (matched : DownloadTemplates.number.hasMatch (Utf16.ofChars key) = true) :
    ∃ name ∈ numberNames, ∃ digits ∈ widthDigits, key = numberKey name digits := by
  unfold hasMatch at matched
  obtain ⟨rest, inTails, found⟩ := List.any_eq_true.mp matched
  cases left : DownloadTemplates.number.remainders (Utf16.ofChars key).length rest with
  | nil =>
    rw [left] at found
    cases found
  | cons behind others =>
    have member : behind ∈ DownloadTemplates.number.remainders (Utf16.ofChars key).length rest := by
      rw [left]
      exact List.mem_cons_self
    unfold DownloadTemplates.number inOrder literal Pattern.optional oneOf at member
    simp only [List.foldr_cons, List.foldr_nil, mem_sequence, mem_firstOf, mem_either, mem_one,
      mem_start, mem_finish, mem_nothing, mem_exactly, List.mem_map] at member
    obtain ⟨_, ⟨begins, rfl⟩, afterName, ⟨_, ⟨name, isName, rfl⟩, isText⟩, afterColon, isColon,
      _, zero, afterDigit, ⟨digit, isDigit, rfl⟩, _, ⟨rfl, rfl⟩, _⟩ := member
    have whole := ((List.mem_tails _ _).mp inTails).eq_of_length begins
    rw [mem_exactly] at isText
    unfold isOneOf at isDigit
    rw [List.contains_iff_mem] at isDigit
    obtain ⟨char, isWidth, isUnit⟩ := List.mem_flatMap.mp isDigit
    have single : ∀ width ∈ widths, width.toNat < 0x10000 := by decide
    have encoded := Utf16.encodeChar_of_lt (single char isWidth)
    rw [encoded, List.mem_singleton] at isUnit
    have isDigits : ∃ digits ∈ widthDigits, afterColon = Utf16.ofChars digits := by
      rcases zero with padded | bare
      · refine ⟨['0', char], ?_, ?_⟩
        · exact List.mem_flatMap.mpr ⟨['0'], by simp, List.mem_map.mpr ⟨char, isWidth, rfl⟩⟩
        · rw [padded, isUnit, Utf16.ofChars_cons, Utf16.ofChars_cons, encoded]
          rfl
      · refine ⟨[char], ?_, ?_⟩
        · exact List.mem_flatMap.mpr ⟨[], by simp, List.mem_map.mpr ⟨char, isWidth, rfl⟩⟩
        · rw [← bare, isUnit, Utf16.ofChars_cons, encoded]
          rfl
    obtain ⟨digits, inDigits, isAfter⟩ := isDigits
    refine ⟨name, isName, digits, inDigits, ?_⟩
    apply Utf16.ofChars_injective
    rw [← whole, isText, isColon, isAfter, numberKey, Utf16.ofChars_append, Utf16.ofChars_cons]
    rfl

theorem isAccepted_of_validate
    (valid : DownloadTemplates.validate (Utf16.ofChars template) false = none) :
    IsAccepted (pieces '\x7b' '\x7d' template) := by
  have noBraces :
      (DownloadTemplates.literals (Utf16.ofChars template)).any (isOneOf "\x7b\x7d") = false := by
    unfold DownloadTemplates.validate at valid
    split at valid
    · cases valid
    · split at valid
      · cases valid
      · split at valid
        · cases valid
        next noBraces => exact Bool.eq_false_iff.mpr noBraces
  unfold DownloadTemplates.literals at noBraces
  rw [token_eq, replaceAll_pattern,
    Utf16.pieces_ofChars (show Utf16.encodeChar '\x7b' = [123] from rfl)
      (show Utf16.encodeChar '\x7d' = [125] from rfl), List.any_eq_false] at noBraces
  have brace (unit : UInt16) (isBrace : unit = 123 ∨ unit = 125) :
      isOneOf "\x7b\x7d" unit = true := by
    rcases isBrace with rfl | rfl
    · decide
    · decide
  constructor
  · intro char member
    have apart : ∀ unit ∈ Utf16.encodeChar char, ¬ (unit = 123 ∨ unit = 125) := by
      intro unit isUnit isBrace
      refine noBraces unit (List.mem_flatMap.mpr ⟨.item unit, ?_, ?_⟩) (brace unit isBrace)
      · exact List.mem_flatMap.mpr ⟨_, member, List.mem_map.mpr ⟨unit, isUnit, rfl⟩⟩
      · exact List.mem_singleton.mpr rfl
    constructor
    · rintro rfl
      exact apart 123 (List.mem_singleton.mpr rfl) (.inl rfl)
    · rintro rfl
      exact apart 125 (List.mem_singleton.mpr rfl) (.inr rfl)
  · intro key member
    have inUnits := (Utf16.mem_encodePiece _ key).mpr member
    by_cases known : DownloadTemplates.placeholders.contains (Utf16.ofChars key) = true
    · rw [List.contains_iff_mem] at known
      obtain ⟨name, isName, same⟩ := List.mem_map.mp known
      have isKey : name.toList = key := Utf16.ofChars_injective same
      rw [← isKey]
      exact .plain name isName
    · by_cases matched : DownloadTemplates.number.hasMatch (Utf16.ofChars key) = true
      · obtain ⟨name, isName, digits, isWidth, same⟩ := number_hasMatch matched
        rw [same]
        exact .number name digits isName isWidth
      · have inLiterals := noBraces 123 (List.mem_flatMap.mpr ⟨_, inUnits, ?_⟩)
        · exact absurd (brace 123 (.inl rfl)) inLiterals
        · dsimp only
          rw [keyOf_placeholder, if_neg]
          · exact List.mem_cons_self
          · rw [Bool.or_eq_true]
            exact fun either => either.elim known matched

end Accepted

/-! ## The engine: one key after another -/

namespace Filename

section Keys

/-- A key that `NUMBERS` reads. -/
def isNumberKey (key : List Char) : Bool :=
  numberNames.any fun name =>
    decide (name.toList ++ [':'] <+: key) && (!(key.drop (name.toList.length + 1)).isEmpty &&
        (key.drop (name.toList.length + 1)).all fun char => '0' ≤ char && char ≤ '9')

theorem isNumberKey_iff (key : List Char) : isNumberKey key = true ↔
      ∃ name ∈ numberNames, ∃ digits, digits ≠ [] ∧
        (∀ char ∈ digits, ('0' ≤ char && char ≤ '9') = true) ∧ key = numberKey name digits := by
  unfold isNumberKey numberKey
  rw [List.any_eq_true]
  apply exists_congr
  intro name
  apply and_congr_right
  intro _
  rw [Bool.and_eq_true, Bool.and_eq_true, decide_eq_true_eq, Bool.not_eq_true',
    List.isEmpty_eq_false_iff, List.all_eq_true]
  constructor
  · rintro ⟨⟨digits, rfl⟩, nonempty, all⟩
    rw [show name.toList.length + 1 = (name.toList ++ [':']).length by simp,
      List.drop_left] at nonempty all
    exact ⟨digits, nonempty, all, by simp⟩
  · rintro ⟨digits, nonempty, all, rfl⟩
    have behind : (name.toList ++ ':' :: digits).drop (name.toList.length + 1) = digits := by
      rw [show name.toList ++ ':' :: digits = (name.toList ++ [':']) ++ digits by simp]
      exact List.drop_left' (by simp)
    rw [behind]
    exact ⟨⟨digits, by simp⟩, nonempty, all⟩

/-- A key that `DATES` reads. -/
def isDateKey (key : List Char) : Bool :=
  decide ("date:".toList <+: key) && !(key.drop 5).isEmpty

theorem isKey_numberKey {name : String} {digits : List Char} (isName : name ∈ numberNames)
    (all : ∀ char ∈ digits, ('0' ≤ char && char ≤ '9') = true) :
    IsKey '\x7b' '\x7d' (numberKey name digits) := by
  have names : ∀ name ∈ numberNames, ∀ char ∈ name.toList, char ≠ '\x7b' ∧ char ≠ '\x7d' := by
    decide
  refine ⟨List.append_ne_nil_of_right_ne_nil _ (List.cons_ne_nil _ _), ?_⟩
  intro char member
  rcases List.mem_append.mp member with inName | inRest
  · exact names name isName char inName
  · rcases List.mem_cons.mp inRest with rfl | inDigits
    · decide
    · have decimal := all char inDigits
      constructor
      · rintro rfl
        exact absurd decimal (by decide)
      · rintro rfl
        exact absurd decimal (by decide)

theorem reads_numbers {parts : List (Piece Char)} (separated : Separated '\x7b' '\x7d' parts)
    (items : ∀ char, Piece.item char ∈ parts → char ≠ '\x7b') :
    Reads '\x7b' '\x7d' isNumberKey numbers parts := by
  apply reads_of_mem _ separated items
  intro length text rest
  unfold numbers inOrder
  simp only [List.foldr_cons, List.foldr_nil, mem_sequence, mem_firstOf, mem_oneOrMore,
    mem_nothing, mem_exactly, List.mem_map]
  constructor
  · rintro ⟨_, rfl, _, ⟨_, ⟨name, isName, rfl⟩, isText⟩, _, rfl, _, ⟨digits, nonempty, all, rfl⟩, _,
      rfl, rfl⟩
    rw [mem_exactly] at isText
    have isNumber := (isNumberKey_iff (numberKey name digits)).mpr
      ⟨name, isName, digits, nonempty, all, rfl⟩
    refine ⟨numberKey name digits, isKey_numberKey isName all, isNumber, ?_⟩
    rw [isText]
    simp [numberKey]
  · rintro ⟨key, _, isNumber, rfl⟩
    obtain ⟨name, isName, digits, nonempty, all, rfl⟩ := (isNumberKey_iff key).mp isNumber
    refine ⟨_, rfl, ':' :: (digits ++ '\x7d' :: rest), ⟨_, ⟨name, isName, rfl⟩, ?_⟩, _, rfl, _,
      ⟨digits, nonempty, all, rfl⟩, _, rfl, rfl⟩
    rw [mem_exactly]
    simp [numberKey]

theorem reads_dates {parts : List (Piece Char)} (separated : Separated '\x7b' '\x7d' parts)
    (items : ∀ char, Piece.item char ∈ parts → char ≠ '\x7b') :
    Reads '\x7b' '\x7d' isDateKey dates parts := by
  apply reads_of_mem _ separated items
  intro length text rest
  unfold dates inOrder noneOf isDateKey
  simp only [List.foldr_cons, List.foldr_nil, mem_sequence, mem_oneOrMore, mem_nothing,
    mem_exactly, Bool.and_eq_true, decide_eq_true_eq, Bool.not_eq_true', List.isEmpty_eq_false_iff]
  have plain (char : Char) : "\x7b\x7d".toList.contains char = false ↔
      char ≠ '\x7b' ∧ char ≠ '\x7d' := by
    rw [Bool.eq_false_iff, Ne, List.contains_iff_mem]
    simp
  simp only [plain]
  constructor
  · rintro ⟨_, rfl, _, ⟨layout, nonempty, all, rfl⟩, _, rfl, rfl⟩
    refine ⟨"date:".toList ++ layout, ⟨?_, ?_⟩, ⟨List.prefix_append _ _, ?_⟩, ?_⟩
    · exact List.append_ne_nil_of_right_ne_nil _ nonempty
    · intro char member
      rcases List.mem_append.mp member with inName | inLayout
      · have name : ∀ char ∈ "date:".toList, char ≠ '\x7b' ∧ char ≠ '\x7d' := by decide
        exact name char inName
      · exact all char inLayout
    · exact nonempty
    · simp
  · rintro ⟨key, isKey, ⟨⟨layout, rfl⟩, nonempty⟩, rfl⟩
    refine ⟨_, ?_, _, ⟨layout, nonempty, ?_, rfl⟩, rest, rfl, rfl⟩
    · simp
    · exact fun char member => isKey.2 char (List.mem_append_right _ member)

/-- One key after another, each replaced where it stands. -/
def fillAll (entries : List (String × List Char)) : Piece Char → List (Piece Char)
  | .item char => [.item char]
  | .placeholder key =>
    match entries.lookup (String.ofList key) with
    | some value => value.map .item
    | none => [.placeholder key]

theorem fillAll_cons (entry : String × List Char) (rest : List (String × List Char))
    (part : Piece Char) :
    (fill (fun other => decide (other = entry.1.toList)) (fun _ => entry.2) part).flatMap
        (fillAll rest) =
      fillAll (entry :: rest) part := by
  have kept (text : List Char) : (text.map Piece.item).flatMap (fillAll rest) =
      text.map Piece.item := by
    rw [List.flatMap_map]
    exact List.map_eq_flatMap.symm
  cases part with
  | item char => rfl
  | placeholder key =>
    by_cases same : key = entry.1.toList
    · have found : (String.ofList key == entry.1) = true := by
        rw [same, String.ofList_toList, beq_self_eq_true]
      rw [fill_wanted (decide_eq_true same), kept, fillAll, List.lookup_cons, found]
    · have differs : (String.ofList key == entry.1) = false := by
        rw [beq_eq_false_iff_ne]
        rintro isEntry
        rw [← isEntry, String.toList_ofList] at same
        exact same rfl
      rw [fill_unwanted (decide_eq_false same), List.flatMap_singleton, fillAll, fillAll,
        List.lookup_cons, differs]

variable {parts : List (Piece Char)}

/-- Pieces that no value can turn into others, as one of the braces occurs only around
keys. -/
structure HasKeys (brace : Char) (parts : List (Piece Char)) : Prop where
  isBrace : brace = '\x7b' ∨ brace = '\x7d'
  items : ∀ char, Piece.item char ∈ parts → char ≠ brace
  keys : ∀ key, Piece.placeholder key ∈ parts → IsKey '\x7b' '\x7d' key

variable {brace : Char}

theorem HasKeys.separated (hasKeys : HasKeys brace parts) :
    Separated '\x7b' '\x7d' parts where
  distinct := by decide
  items := by
    rcases hasKeys.isBrace with rfl | rfl
    · exact .inl hasKeys.items
    · exact .inr hasKeys.items
  keys := hasKeys.keys

variable {wanted : List Char → Bool}

/-- Filling with texts without the brace leaves such pieces. -/
theorem HasKeys.fill (hasKeys : HasKeys brace parts) {value : List Char → List Char}
    (values : ∀ key, Piece.placeholder key ∈ parts → wanted key = true → brace ∉ value key) :
    HasKeys brace (parts.flatMap (Placeholders.fill wanted value)) where
  isBrace := hasKeys.isBrace
  items char member := by
    obtain ⟨part, inParts, inFilled⟩ := List.mem_flatMap.mp member
    cases part with
    | item other =>
      rw [Piece.item.inj (List.mem_singleton.mp inFilled)]
      exact hasKeys.items other inParts
    | placeholder key =>
      rw [Placeholders.fill] at inFilled
      split at inFilled
      next isWanted =>
        obtain ⟨other, inValue, same⟩ := List.mem_map.mp inFilled
        rw [← Piece.item.inj same]
        rintro rfl
        exact values key inParts isWanted inValue
      next => cases List.mem_singleton.mp inFilled
  keys key member := by
    obtain ⟨part, inParts, inFilled⟩ := List.mem_flatMap.mp member
    cases part with
    | item other => cases List.mem_singleton.mp inFilled
    | placeholder other =>
      rw [Placeholders.fill] at inFilled
      split at inFilled
      next =>
        obtain ⟨char, _, same⟩ := List.mem_map.mp inFilled
        cases same
      next =>
        rw [Piece.placeholder.inj (List.mem_singleton.mp inFilled)]
        exact hasKeys.keys other inParts

theorem mem_fill (value : List Char → List Char) (other : wanted key = false) :
    Piece.placeholder key ∈ parts.flatMap (Placeholders.fill wanted value) ↔
      Piece.placeholder key ∈ parts := by
  rw [List.mem_flatMap]
  constructor
  · rintro ⟨part, inParts, inFilled⟩
    cases part with
    | item char => cases List.mem_singleton.mp inFilled
    | placeholder found =>
      rw [Placeholders.fill] at inFilled
      split at inFilled
      next =>
        obtain ⟨char, _, same⟩ := List.mem_map.mp inFilled
        cases same
      next =>
        rw [Piece.placeholder.inj (List.mem_singleton.mp inFilled)]
        exact inParts
  · intro member
    refine ⟨_, member, ?_⟩
    rw [fill_unwanted other]
    exact List.mem_singleton.mpr rfl

/-- An optional value that is missing where a template asks for it. -/
def isMissing (parts : List (Piece Char)) (entry : String × List Char) : Bool :=
  entry.2.isEmpty && asksCleanup entry.1 && decide (Piece.placeholder entry.1.toList ∈ parts)

variable {entry : String × List Char}

theorem replacePlaceholder_source (hasKeys : HasKeys brace parts) (flag : Bool)
    (isKey : IsKey '\x7b' '\x7d' entry.1.toList) :
    replacePlaceholder (source '\x7b' '\x7d' parts, flag) entry =
      (source '\x7b' '\x7d' (parts.flatMap
          (Placeholders.fill (fun other => decide (other = entry.1.toList)) fun _ => entry.2)),
        flag || isMissing parts entry) := by
  have separated := hasKeys.separated
  unfold replacePlaceholder isMissing
  dsimp only
  rw [replaceAll_source _ separated (reads_exactly separated isKey)]
  simp only [infix_source separated isKey]

theorem foldl_replacePlaceholder (entries : List (String × List Char))
    (isKey : ∀ entry ∈ entries, IsKey '\x7b' '\x7d' entry.1.toList)
    (distinct : (entries.map Prod.fst).Nodup) (values : ∀ entry ∈ entries, brace ∉ entry.2)
    (hasKeys : HasKeys brace parts) (flag : Bool) :
    entries.foldl replacePlaceholder (source '\x7b' '\x7d' parts, flag) =
      (source '\x7b' '\x7d' (parts.flatMap (fillAll entries)),
        flag || entries.any (isMissing parts)) := by
  induction entries generalizing parts flag with
  | nil =>
    have nothing : ∀ part ∈ parts, fillAll [] part = [part] := by
      intro part _
      cases part with
      | item char => rfl
      | placeholder key => rfl
    rw [List.flatMap_congr nothing, List.flatMap_singleton', List.any_nil, Bool.or_false]
    rfl
  | cons entry rest ih =>
    rw [List.forall_mem_cons] at isKey values
    rw [List.map_cons, List.nodup_cons] at distinct
    have filled : HasKeys brace (parts.flatMap (Placeholders.fill
        (fun other => decide (other = entry.1.toList)) fun _ => entry.2)) :=
      hasKeys.fill fun _ _ _ => values.1
    have same : rest.any (isMissing (parts.flatMap (Placeholders.fill
        (fun other => decide (other = entry.1.toList)) fun _ => entry.2))) =
          rest.any (isMissing parts) := by
      rw [Bool.eq_iff_iff, List.any_eq_true, List.any_eq_true]
      apply exists_congr
      intro other
      apply and_congr_right
      intro member
      have differs : decide (other.1.toList = entry.1.toList) = false := by
        rw [decide_eq_false_iff_not, String.toList_inj]
        rintro same
        exact distinct.1 (same ▸ List.mem_map.mpr ⟨other, member, rfl⟩)
      unfold isMissing
      rw [decide_eq_decide.mpr (mem_fill (fun _ => entry.2) differs)]
    rw [List.foldl_cons, replacePlaceholder_source hasKeys flag isKey.1,
      ih isKey.2 distinct.2 values.2 filled, same, List.any_cons,
      Bool.or_assoc, List.flatMap_assoc]
    simp only [fillAll_cons]

/-! ### A whole template -/

theorem keys_placeholders (metadata : Metadata) : (placeholders metadata).map Prod.fst =
      ["album", "artist", "date", "disc", "disc_raw", "id", "isrc", "platform",
        "playlist position", "playlistPosition", "playlist_position", "playlist_position_raw",
        "position", "provider", "provider_id", "quality", "quality_variant", "title", "track",
        "track_raw", "year"] :=
  rfl

theorem distinct_placeholders (metadata : Metadata) :
    ((placeholders metadata).map Prod.fst).Nodup := by
  rw [keys_placeholders]
  decide

theorem mem_keys (metadata : Metadata) (key : String) :
    key ∈ (placeholders metadata).map Prod.fst ↔ key ∈ plainKeys := by
  rw [keys_placeholders]
  exact List.Perm.mem_iff (by decide +kernel)

theorem plainKey_facts : ∀ key ∈ plainKeys, key.toList ≠ [] ∧
      (∀ char ∈ key.toList, char ≠ '\x7b' ∧ char ≠ '\x7d') ∧
      isNumberKey key.toList = false ∧ isDateKey key.toList = false := by
  decide +kernel

theorem numberKey_facts : ∀ name ∈ numberNames, ∀ digits ∈ widthDigits,
      isNumberKey (numberKey name digits) = true ∧ isDateKey (numberKey name digits) = false := by
  decide +kernel

theorem lookup_of_mem {entries : List (String × List Char)}
    (distinct : (entries.map Prod.fst).Nodup) (member : entry ∈ entries) :
    entries.lookup entry.1 = some entry.2 := by
  induction entries with
  | nil => cases member
  | cons first rest ih =>
    rw [List.map_cons, List.nodup_cons] at distinct
    rw [List.lookup_cons]
    rcases List.mem_cons.mp member with rfl | inRest
    · rw [beq_self_eq_true]
    · have differs : (entry.1 == first.1) = false := by
        rw [beq_eq_false_iff_ne]
        intro same
        exact distinct.1 (same ▸ List.mem_map.mpr ⟨entry, inRest, rfl⟩)
      rw [differs]
      exact ih distinct.2 inRest

/-- What the engine puts where a key stands. -/
def valueAt (metadata : Metadata) (key : List Char) : List Char :=
  if isNumberKey key then numberReplacement metadata ('\x7b' :: (key ++ ['\x7d']))
  else ((placeholders metadata).lookup (String.ofList key)).getD []

/-- The pieces behind the replacing of the keys with a width. -/
def numbered (metadata : Metadata) (parts : List (Piece Char)) : List (Piece Char) :=
  parts.flatMap (fill isNumberKey fun key =>
    numberReplacement metadata ('\x7b' :: (key ++ ['\x7d'])))

theorem flatMap_numbered (metadata : Metadata) (accepted : IsAccepted parts) :
    (numbered metadata parts).flatMap (fillAll (placeholders metadata)) =
      (filledWith (valueAt metadata) parts).map .item := by
  have kept (text : List Char) : (text.map Piece.item).flatMap (fillAll (placeholders metadata)) =
      text.map Piece.item := by
    rw [List.flatMap_map]
    exact List.map_eq_flatMap.symm
  unfold numbered filledWith
  rw [List.flatMap_assoc, List.map_flatMap]
  apply List.flatMap_congr
  intro part member
  cases part with
  | item char => rfl
  | placeholder key =>
    dsimp only
    unfold valueAt
    cases isNumber : isNumberKey key with
    | true => rw [fill_wanted isNumber, kept, if_pos rfl]
    | false =>
      rw [fill_unwanted isNumber, List.flatMap_singleton, if_neg Bool.false_ne_true, fillAll]
      have known : ((placeholders metadata).lookup (String.ofList key)).isSome = true := by
        cases accepted.keys key member with
        | plain name isPlain =>
          obtain ⟨entry, inEntries, isName⟩ :=
            List.mem_map.mp ((mem_keys metadata name).mpr isPlain)
          rw [String.ofList_toList, ← isName,
            lookup_of_mem (distinct_placeholders metadata) inEntries]
          rfl
        | number name digits isName isWidth =>
          rw [(numberKey_facts name isName digits isWidth).1] at isNumber
          cases isNumber
      obtain ⟨value, isValue⟩ := Option.isSome_iff_exists.mp known
      rw [isValue]
      rfl

theorem buildFilename_eq (formatDate : List Char → List Char → List Char)
    (nonempty : template ≠ []) (metadata : Metadata)
    (accepted : IsAccepted (pieces '\x7b' '\x7d' template))
    (isBrace : brace = '\x7b' ∨ brace = '\x7d')
    (values : ∀ entry ∈ placeholders metadata, brace ∉ entry.2)
    (numberValues : ∀ name ∈ numberNames, ∀ digits ∈ widthDigits, ∀ mark,
      mark = '\x7b' ∨ mark = '\x7d' →
      mark ∉ numberReplacement metadata ('\x7b' :: (numberKey name digits ++ ['\x7d']))) :
    buildFilename formatDate template metadata =
      if (placeholders metadata).any (isMissing (pieces '\x7b' '\x7d' template)) then
        cleanup (filledWith (valueAt metadata) (pieces '\x7b' '\x7d' template))
      else filledWith (valueAt metadata) (pieces '\x7b' '\x7d' template) := by
  have whole : source '\x7b' '\x7d' (pieces '\x7b' '\x7d' template) = template :=
    source_pieces template
  have keys := keys_separated template
  generalize pieces '\x7b' '\x7d' template = parts at accepted whole keys ⊢
  have opened : HasKeys '\x7b' parts :=
    { isBrace := .inl rfl
      items := fun char member => (accepted.items char member).1
      keys := keys }
  have numberedKeys (mark : Char) (isMark : mark = '\x7b' ∨ mark = '\x7d') :
      HasKeys mark (numbered metadata parts) := by
    have before : HasKeys mark parts := by
      refine { isBrace := isMark, items := fun char member => ?_, keys := keys }
      have apart := accepted.items char member
      rcases isMark with rfl | rfl
      · exact apart.1
      · exact apart.2
    apply before.fill
    intro key member isNumber
    cases accepted.keys key member with
    | plain name isPlain =>
      rw [(plainKey_facts name isPlain).2.2.1] at isNumber
      cases isNumber
    | number name digits isName isWidth =>
      exact numberValues name isName digits isWidth mark isMark
  have first : numbers.replaceAll (numberReplacement metadata) template =
      source '\x7b' '\x7d' (numbered metadata parts) := by
    conv_lhs => rw [← whole]
    exact replaceAll_source (numberReplacement metadata) opened.separated
      (reads_numbers opened.separated opened.items)
  have second (replace : List Char → List Char) :
      dates.replaceAll replace (source '\x7b' '\x7d' (numbered metadata parts)) =
        source '\x7b' '\x7d' (numbered metadata parts) := by
    have openedToo := numberedKeys '\x7b' (.inl rfl)
    rw [replaceAll_source replace openedToo.separated
      (reads_dates openedToo.separated openedToo.items)]
    congr 1
    refine (List.flatMap_congr fun part member => ?_).trans (List.flatMap_singleton' _)
    cases part with
    | item char => rfl
    | placeholder key =>
      apply fill_unwanted
      -- A key that is left is a key of the template.
      have isKey : isNumberKey key = false ∧ Piece.placeholder key ∈ parts := by
        obtain ⟨part, inParts, inFilled⟩ := List.mem_flatMap.mp member
        cases part with
        | item char => cases List.mem_singleton.mp inFilled
        | placeholder found =>
          rw [fill] at inFilled
          split at inFilled
          next =>
            obtain ⟨char, _, same⟩ := List.mem_map.mp inFilled
            cases same
          next other =>
            rw [Piece.placeholder.inj (List.mem_singleton.mp inFilled)]
            exact ⟨Bool.eq_false_iff.mpr other, inParts⟩
      cases accepted.keys key isKey.2 with
      | plain name isPlain => exact (plainKey_facts name isPlain).2.2.2
      | number name digits isName isWidth =>
        exact (numberKey_facts name isName digits isWidth).2
  have areKeys : ∀ entry ∈ placeholders metadata, IsKey '\x7b' '\x7d' entry.1.toList := by
    intro entry member
    have isPlain := (mem_keys metadata entry.1).mp (List.mem_map.mpr ⟨entry, member, rfl⟩)
    exact ⟨(plainKey_facts entry.1 isPlain).1, (plainKey_facts entry.1 isPlain).2.1⟩
  have missing : (placeholders metadata).any (isMissing (numbered metadata parts)) =
      (placeholders metadata).any (isMissing parts) := by
    rw [Bool.eq_iff_iff, List.any_eq_true, List.any_eq_true]
    apply exists_congr
    intro entry
    apply and_congr_right
    intro member
    have isPlain := (mem_keys metadata entry.1).mp (List.mem_map.mpr ⟨entry, member, rfl⟩)
    have other := (plainKey_facts entry.1 isPlain).2.2.1
    unfold isMissing numbered
    rw [decide_eq_decide.mpr (mem_fill _ other)]
  have folded := foldl_replacePlaceholder (placeholders metadata) areKeys
    (distinct_placeholders metadata) values (numberedKeys brace isBrace) false
  have filled : template.isEmpty = false := List.isEmpty_eq_false_iff.mpr nonempty
  unfold buildFilename
  simp only [filled, Bool.false_eq_true, if_false]
  rw [first, second, folded, flatMap_numbered metadata accepted, source_items, missing,
    Bool.false_or]
  cases (placeholders metadata).any (isMissing parts) with
  | true => rfl
  | false => rfl

end Keys

end Filename

end LosslessMusic.Naming
