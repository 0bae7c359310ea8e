import LosslessMusic.Codec.UnitsOfChars
import LosslessMusic.Pattern.Placeholders

/-!
# Patterns on characters and on their units

A pattern of units and a pattern of characters that are built alike, from classes that
treat the units of a character as the character, read and replace the same in a text. So
do the placeholders of a text.
-/

namespace LosslessMusic.Codec.Utf16

open Pattern Placeholders

/-! ## Lengths -/

theorem ofChars_eq_nil (text : List Char) : ofChars text = [] ↔ text = [] := by
  cases text with
  | nil => exact iff_of_true rfl rfl
  | cons char rest =>
    rw [ofChars_cons, List.append_eq_nil_iff]
    exact iff_of_false (fun both => encodeChar_ne_nil char both.1) (List.cons_ne_nil _ _)

theorem ofChars_injective : Function.Injective ofChars := by
  intro text other same
  have decoded := congrArg decode same
  rw [decode_ofChars, decode_ofChars] at decoded
  exact Option.some.inj decoded

variable {text : List Char}

theorem length_ofChars_lt {rest : List Char} (suffix : rest <:+ text) :
    (ofChars rest).length < (ofChars text).length ↔ rest.length < text.length := by
  obtain ⟨front, rfl⟩ := suffix
  have positive : 0 < (ofChars front).length ↔ 0 < front.length := by
    rw [List.length_pos_iff, List.length_pos_iff, Ne, Ne, ofChars_eq_nil]
  rw [ofChars_append, List.length_append, List.length_append]
  omega

theorem length_ofChars (plane : ∀ char ∈ text, char.toNat < 0x10000) :
    (ofChars text).length = text.length := by
  induction text with
  | nil => rfl
  | cons char rest ih =>
    rw [List.forall_mem_cons] at plane
    rw [ofChars_cons, encodeChar_of_lt plane.1, List.length_append, ih plane.2,
      List.length_singleton, List.length_cons, Nat.add_comm]

variable {char : Char} {unit : UInt16}

/-- A unit is the only unit of a character when it is one of its units. -/
theorem eq_unit_iff {wanted : Char} {found : UInt16} (isWanted : encodeChar wanted = [found])
    (member : unit ∈ encodeChar char) : unit = found ↔ char = wanted := by
  constructor
  · rintro rfl
    have inWanted : unit ∈ encodeChar wanted := by
      rw [isWanted]
      exact List.mem_singleton.mpr rfl
    rcases unit_cases inWanted with ⟨_, same⟩ | ⟨high, _⟩
    · have valid := wanted.valid
      rcases unit_cases member with ⟨_, sameToo⟩ | ⟨_, low, top⟩
      · exact Char.toNat_inj.mp (sameToo.symm.trans same)
      · have scalar : wanted.toNat < 0xD800 ∨ 0xDFFF < wanted.toNat ∧ wanted.toNat < 0x110000 :=
          valid
        omega
    · have two := congrArg List.length isWanted
      unfold encodeChar at two
      rw [if_neg (Nat.not_lt.mpr high)] at two
      cases two
  · rintro rfl
    rw [isWanted] at member
    exact List.mem_singleton.mp member

/-! ## Patterns that are built alike -/

/-- The two patterns are built alike from classes that agree on good characters and only
accept characters of the first plane. -/
inductive Alike (good : Char → Prop) : Pattern UInt16 → Pattern Char → Prop
  | nothing : Alike good .nothing .nothing
  | one {units : UInt16 → Bool} {chars : Char → Bool}
      (same : ∀ char, good char → ∀ unit ∈ encodeChar char, units unit = chars char)
      (plane : ∀ char, chars char = true → char.toNat < 0x10000) :
      Alike good (.one units) (.one chars)
  | sequence {first second : Pattern UInt16} {firstChars secondChars : Pattern Char}
      (before : Alike good first firstChars) (behind : Alike good second secondChars) :
      Alike good (.sequence first second) (.sequence firstChars secondChars)
  | either {first second : Pattern UInt16} {firstChars secondChars : Pattern Char}
      (preferred : Alike good first firstChars) (other : Alike good second secondChars) :
      Alike good (.either first second) (.either firstChars secondChars)
  | many {body : Pattern UInt16} {bodyChars : Pattern Char}
      (turn : Alike good body bodyChars) :
      Alike good (.many body) (.many bodyChars)

section Alike

variable {good : Char → Prop} {units : Pattern UInt16} {chars : Pattern Char}

theorem Alike.oneOrMore (alike : Alike good units chars) :
    Alike good (oneOrMore units) (oneOrMore chars) :=
  .sequence alike (.many alike)

theorem repeated_ofChars {step : Utf16 → List Utf16} {stepChars : List Char → List (List Char)}
    (suffixes : ∀ text rest, rest ∈ stepChars text → rest <:+ text) (turns turnsChars : Nat)
    (steps : ∀ rest, rest <:+ text → step (ofChars rest) = (stepChars rest).map ofChars)
    (enough : (ofChars text).length ≤ turns) (enoughChars : text.length ≤ turnsChars) :
    repeated step turns (ofChars text) = (repeated stepChars turnsChars text).map ofChars := by
  induction turnsChars generalizing turns text with
  | zero =>
    rw [List.length_eq_zero_iff.mp (Nat.le_zero.mp enoughChars)]
    exact repeated_nil step turns
  | succ turnsChars ih =>
    cases turns with
    | zero =>
      have empty := (ofChars_eq_nil text).mp (List.length_eq_zero_iff.mp (Nat.le_zero.mp enough))
      rw [empty, repeated_nil]
      rfl
    | succ turns =>
      have shorter : ((stepChars text).map ofChars).filter
          (fun rest => rest.length < (ofChars text).length) =
            ((stepChars text).filter fun rest => rest.length < text.length).map ofChars := by
        rw [List.filter_map]
        congr 1
        apply List.filter_congr
        intro rest member
        exact decide_eq_decide.mpr (length_ofChars_lt (suffixes text rest member))
      rw [repeated, repeated, steps text List.suffix_rfl, shorter, List.map_append,
        List.flatMap_map, List.map_flatMap]
      congr 1
      apply List.flatMap_congr
      intro rest member
      have inSteps := List.mem_filter.mp member
      have suffix := suffixes text rest inSteps.1
      have less : rest.length < text.length := by simpa using inSteps.2
      have lessUnits := (length_ofChars_lt suffix).mpr less
      apply ih
      · exact fun other otherSuffix => steps other (otherSuffix.trans suffix)
      · omega
      · omega

theorem remainders_ofChars (alike : Alike good units chars) (length count : Nat)
    (goodText : ∀ char ∈ text, good char) :
    units.remainders length (ofChars text) = (chars.remainders count text).map ofChars := by
  induction alike generalizing text with
  | nothing => rfl
  | @one accepts acceptsChar same plane =>
    cases text with
    | nil => rfl
    | cons char rest =>
      have here := same char (goodText char List.mem_cons_self)
      rw [ofChars_cons, remainders]
      cases encoded : encodeChar char with
      | nil => exact absurd encoded (encodeChar_ne_nil char)
      | cons unit others =>
        rw [List.cons_append, remainders, here unit (by rw [encoded]; exact List.mem_cons_self)]
        cases accepted : acceptsChar char with
        | false => rfl
        | true =>
          rw [encodeChar_of_lt (plane char accepted)] at encoded
          rw [(List.cons.inj encoded).2.symm]
          rfl
  | sequence _ _ beforeHypothesis behindHypothesis =>
    rw [remainders, remainders, beforeHypothesis goodText, List.flatMap_map, List.map_flatMap]
    apply List.flatMap_congr
    intro rest member
    apply behindHypothesis
    intro char inRest
    exact goodText char ((suffix_of_mem_remainders count _ member).subset inRest)
  | either _ _ preferredHypothesis otherHypothesis =>
    rw [remainders, remainders, preferredHypothesis goodText, otherHypothesis goodText,
      List.map_append]
  | many _ turnHypothesis =>
    rw [remainders, remainders]
    apply repeated_ofChars
    · exact fun _ _ member => suffix_of_mem_remainders count _ member
    · intro rest suffix
      exact turnHypothesis fun char member => goodText char (suffix.subset member)
    · exact Nat.le_refl _
    · exact Nat.le_refl _

theorem remainders_surrogate (alike : Alike good units chars) (length : Nat) (isGood : good char)
    (high : 0x10000 ≤ char.toNat) (member : unit ∈ encodeChar char) (rest : Utf16) :
    ∀ remainder ∈ units.remainders length (unit :: rest), remainder = unit :: rest := by
  induction alike with
  | nothing =>
    intro remainder inRemainders
    exact List.mem_singleton.mp inRemainders
  | @one accepts acceptsChar same plane =>
    have refused : accepts unit = false := by
      rw [same char isGood unit member, Bool.eq_false_iff]
      intro accepted
      exact absurd (plane char accepted) (Nat.not_lt.mpr high)
    intro remainder inRemainders
    rw [remainders, refused] at inRemainders
    cases inRemainders
  | sequence _ _ beforeHypothesis behindHypothesis =>
    intro remainder inRemainders
    obtain ⟨middle, before, behind⟩ := mem_sequence.mp inRemainders
    rw [beforeHypothesis middle before] at behind
    exact behindHypothesis remainder behind
  | either _ _ preferredHypothesis otherHypothesis =>
    intro remainder inRemainders
    rcases mem_either.mp inRemainders with preferred | other
    · exact preferredHypothesis remainder preferred
    · exact otherHypothesis remainder other
  | @many body _ _ turnHypothesis =>
    intro remainder inRemainders
    have stays (turns : Nat) : ∀ other ∈ repeated (body.remainders length) turns (unit :: rest),
        other = unit :: rest := by
      cases turns with
      | zero => exact fun other inRepeated => List.mem_singleton.mp inRepeated
      | succ turns =>
        intro other inRepeated
        rw [repeated, List.mem_append, List.mem_flatMap] at inRepeated
        rcases inRepeated with ⟨middle, turn, _⟩ | same
        · have inTurn := List.mem_filter.mp turn
          rw [turnHypothesis middle inTurn.1] at inTurn
          simp at inTurn
        · exact List.mem_singleton.mp same
    exact stays _ remainder inRemainders

theorem replaceFrom_units (alike : Alike good units chars) (length : Nat) (replace : Utf16 → Utf16)
    (isGood : good char) (rest : Utf16)
    (kept : ∀ remainder, (units.remainders length (encodeChar char ++ rest)).head? =
      some remainder → (encodeChar char ++ rest).length ≤ remainder.length)
    (turns : Nat) :
    replaceFrom length units replace ((encodeChar char).length + turns) (encodeChar char ++ rest) =
      encodeChar char ++ replaceFrom length units replace turns rest := by
  have tail (others : Utf16) (among : ∀ unit ∈ others, unit ∈ encodeChar char)
      (high : others ≠ [] → 0x10000 ≤ char.toNat) :
      replaceFrom length units replace (others.length + turns) (others ++ rest) =
        others ++ replaceFrom length units replace turns rest := by
    induction others with
    | nil => simp
    | cons unit others ih =>
      rw [List.forall_mem_cons] at among
      have large := high (List.cons_ne_nil _ _)
      rw [List.length_cons, Nat.add_right_comm, List.cons_append, replaceFrom_kept,
        ih among.2 fun _ => large]
      · rfl
      · intro remainder found
        rw [remainders_surrogate alike length isGood large among.1 _ remainder
          (List.mem_of_head? found)]
  cases encoded : encodeChar char with
  | nil => exact absurd encoded (encodeChar_ne_nil char)
  | cons unit others =>
    rw [encoded] at kept tail
    rw [List.length_cons, Nat.add_right_comm, List.cons_append, replaceFrom_kept, tail others]
    · rfl
    · exact fun other member => List.mem_cons_of_mem _ member
    · intro nonempty
      by_contra plane
      rw [encodeChar_of_lt (Nat.not_le.mp plane)] at encoded
      exact nonempty (List.cons.inj encoded).2.symm
    · intro remainder found
      exact kept remainder found

variable {replace : Utf16 → Utf16} {replaceChars : List Char → List Char}

theorem replaceFrom_ofChars (alike : Alike good units chars) (length count turns turnsChars : Nat)
    (same : ∀ found rest, rest ∈ chars.remainders count (found ++ rest) →
      replace (ofChars found) = ofChars (replaceChars found))
    (goodText : ∀ char ∈ text, good char) (enough : (ofChars text).length ≤ turns)
    (enoughChars : text.length ≤ turnsChars) :
    replaceFrom length units replace turns (ofChars text) =
      ofChars (replaceFrom count chars replaceChars turnsChars text) := by
  induction turnsChars generalizing turns text with
  | zero =>
    rw [List.length_eq_zero_iff.mp (Nat.le_zero.mp enoughChars)]
    exact replaceFrom_nil turns
  | succ turnsChars ih =>
    cases text with
    | nil => exact replaceFrom_nil turns
    | cons char rest =>
      have both := remainders_ofChars alike length count goodText
      have goodRest := (List.forall_mem_cons.mp goodText).2
      have isGood := (List.forall_mem_cons.mp goodText).1
      have restEnough : rest.length ≤ turnsChars := Nat.le_of_succ_le_succ enoughChars
      rw [ofChars_cons] at both enough ⊢
      have counted : turns = (encodeChar char).length + (turns - (encodeChar char).length) := by
        rw [List.length_append] at enough
        omega
      -- Where the characters keep the first one, its units are kept as well.
      have keeps (kept : ∀ remainder, (chars.remainders count (char :: rest)).head? =
          some remainder → (char :: rest).length ≤ remainder.length) :
          replaceFrom length units replace turns (encodeChar char ++ ofChars rest) =
            ofChars (char :: replaceFrom count chars replaceChars turnsChars rest) := by
        rw [counted, replaceFrom_units alike length replace isGood, ofChars_cons,
          ih _ goodRest _ restEnough]
        · rw [List.length_append] at enough
          omega
        · intro remainder found
          rw [both, List.head?_map, Option.map_eq_some_iff] at found
          obtain ⟨chosen, isChosen, isRemainder⟩ := found
          have suffix := suffix_of_mem_remainders count _ (List.mem_of_head? isChosen)
          have long := kept chosen isChosen
          rw [← isRemainder, ← ofChars_cons]
          exact Nat.not_lt.mp fun less =>
            Nat.not_lt.mpr long ((length_ofChars_lt suffix).mp less)
      cases found : (chars.remainders count (char :: rest)).head? with
      | none =>
        rw [replaceFrom_kept (by rw [found]; exact fun _ absent => nomatch absent)]
        exact keeps (by rw [found]; exact fun _ absent => nomatch absent)
      | some remainder =>
        have suffix := suffix_of_mem_remainders count _ (List.mem_of_head? found)
        by_cases shorter : remainder.length ≤ rest.length
        · have less : remainder.length < (char :: rest).length := Nat.lt_succ_of_le shorter
          have lessUnits := (length_ofChars_lt suffix).mpr less
          have chosen : (units.remainders length (encodeChar char ++ ofChars rest)).head? =
              some (ofChars remainder) := by
            rw [both, List.head?_map, found]
            rfl
          obtain ⟨front, whole⟩ := suffix
          have taken : (char :: rest).take (rest.length + 1 - remainder.length) = front := by
            rw [← whole]
            apply List.take_left'
            have lengths := congrArg List.length whole
            rw [List.length_append, List.length_cons] at lengths
            omega
          rw [ofChars_cons] at lessUnits
          have wholeUnits : encodeChar char ++ ofChars rest =
              ofChars front ++ ofChars remainder := by
            rw [← ofChars_append, whole, ofChars_cons]
          have isMatch := List.mem_of_head? found
          rw [← whole] at isMatch
          rw [replaceFrom_matched found shorter, taken, ofChars_append,
            ← same front remainder isMatch,
            ← ih (turns - 1)
              (fun other member => goodText other (whole ▸ List.mem_append_right _ member))
              (by omega) (by omega)]
          cases encoded : encodeChar char with
          | nil => exact absurd encoded (encodeChar_ne_nil char)
          | cons unit others =>
            rw [encoded] at chosen lessUnits wholeUnits enough
            rw [List.cons_append] at chosen lessUnits wholeUnits enough ⊢
            rw [List.length_cons] at lessUnits enough
            have positive : turns = turns - 1 + 1 := by omega
            rw [positive, replaceFrom_matched chosen (Nat.le_of_lt_succ lessUnits),
              Nat.add_sub_cancel]
            congr 2
            rw [wholeUnits]
            apply List.take_left'
            have lengths := congrArg List.length wholeUnits
            rw [List.length_append, List.length_cons] at lengths
            omega
        · have long : ∀ other, (chars.remainders count (char :: rest)).head? = some other →
              (char :: rest).length ≤ other.length := by
            intro other isOther
            rw [found, Option.some.injEq] at isOther
            rw [← isOther, List.length_cons]
            omega
          rw [replaceFrom_kept long]
          exact keeps long

theorem replaceAll_ofChars (alike : Alike good units chars)
    (same : ∀ length found rest, rest ∈ chars.remainders length (found ++ rest) →
      replace (ofChars found) = ofChars (replaceChars found))
    (goodText : ∀ char ∈ text, good char) :
    units.replaceAll replace (ofChars text) = ofChars (chars.replaceAll replaceChars text) :=
  replaceFrom_ofChars alike _ _ _ _ (same _) goodText (Nat.le_refl _) (Nat.le_refl _)

end Alike

/-! ## Placeholders -/

section Pieces

variable {opening closing : Char} {first last : UInt16}

theorem takeWhile_ofChars {units : UInt16 → Bool} {chars : Char → Bool}
    (agree : Agree units chars text) :
    (ofChars text).takeWhile units = ofChars (text.takeWhile chars) := by
  have whole : (ofChars text).takeWhile units ++ (ofChars text).dropWhile units = ofChars text :=
    List.takeWhile_append_dropWhile
  have wholeChars : text.takeWhile chars ++ text.dropWhile chars = text :=
    List.takeWhile_append_dropWhile
  rw [dropWhile_ofChars agree] at whole
  have parts := ofChars_append (text.takeWhile chars) (text.dropWhile chars)
  rw [wholeChars] at parts
  exact List.append_cancel_right (whole.trans parts)

/-- The piece of a text in units. -/
def encodePiece : Piece Char → List (Piece UInt16)
  | .item char => (encodeChar char).map .item
  | .placeholder key => [.placeholder (ofChars key)]

theorem isPlain_unit (isOpening : encodeChar opening = [first])
    (isClosing : encodeChar closing = [last]) (member : unit ∈ encodeChar char) :
    isPlain first last unit = isPlain opening closing char := by
  rw [Bool.eq_iff_iff, isPlain_iff, isPlain_iff, Ne, Ne, eq_unit_iff isOpening member,
    eq_unit_iff isClosing member]

theorem first?_ofChars (isOpening : encodeChar opening = [first])
    (isClosing : encodeChar closing = [last]) (text : List Char) :
    first? first last (ofChars text) =
      (first? opening closing text).map fun found => (ofChars found.1, ofChars found.2) := by
  cases text with
  | nil => rfl
  | cons char rest =>
    have agree : Agree (isPlain first last) (isPlain opening closing) rest :=
      fun _ _ _ member => isPlain_unit isOpening isClosing member
    rw [ofChars_cons]
    by_cases opens : char = opening
    · rw [opens, isOpening, List.singleton_append, first?, first?, if_pos rfl, if_pos rfl,
        dropWhile_ofChars agree, takeWhile_ofChars agree]
      cases rest.dropWhile (isPlain opening closing) with
      | nil => rfl
      | cons stop behind =>
        rw [ofChars_cons]
        by_cases closes : stop = closing
        · rw [closes, isClosing, List.singleton_append]
          simp only [true_and, ne_eq, ofChars_eq_nil]
          split
          · rfl
          · rfl
        · cases encoded : encodeChar stop with
          | nil => exact absurd encoded (encodeChar_ne_nil stop)
          | cons unit others =>
            have member : unit ∈ encodeChar stop := by
              rw [encoded]
              exact List.mem_cons_self
            have differs : unit ≠ last := by
              rw [Ne, eq_unit_iff isClosing member]
              exact closes
            simp [closes, differs]
    · rw [first?, if_neg opens]
      cases encoded : encodeChar char with
      | nil => exact absurd encoded (encodeChar_ne_nil char)
      | cons unit others =>
        have member : unit ∈ encodeChar char := by
          rw [encoded]
          exact List.mem_cons_self
        rw [List.cons_append, first?, if_neg]
        · rfl
        · rw [eq_unit_iff isOpening member]
          exact opens

theorem scan_ofChars (isOpening : encodeChar opening = [first])
    (isClosing : encodeChar closing = [last]) (turns turnsChars : Nat)
    (enough : (ofChars text).length ≤ turns) (enoughChars : text.length ≤ turnsChars) :
    scan first last turns (ofChars text) =
      (scan opening closing turnsChars text).flatMap encodePiece := by
  have nothing (turns : Nat) : scan first last turns [] = [] := by
    cases turns with
    | zero => rfl
    | succ turns => rfl
  induction turnsChars generalizing turns text with
  | zero =>
    rw [List.length_eq_zero_iff.mp (Nat.le_zero.mp enoughChars)]
    exact nothing turns
  | succ turnsChars ih =>
    cases text with
    | nil => exact nothing turns
    | cons char rest =>
      have begins := first?_ofChars isOpening isClosing (char :: rest)
      have restEnough : rest.length ≤ turnsChars := Nat.le_of_succ_le_succ enoughChars
      rw [scan]
      cases found : first? opening closing (char :: rest) with
      | none =>
        rw [found, ofChars_cons] at begins
        rw [ofChars_cons, List.length_append] at enough
        rw [List.flatMap_cons, ofChars_cons,
          ← ih (turns - (encodeChar char).length) (by omega) restEnough]
        -- No unit of the character begins a placeholder.
        have items (others : Utf16) (count : Nat)
            (plain : ∀ behind, first? first last (others ++ ofChars rest) ≠ some behind)
            (later : ∀ unit ∈ others.tail, unit ≠ first) :
            scan first last (others.length + count) (others ++ ofChars rest) =
              others.map .item ++ scan first last count (ofChars rest) := by
          induction others with
          | nil => simp
          | cons unit others inner =>
            have refused := Option.eq_none_iff_forall_ne_some.mpr plain
            rw [List.length_cons, Nat.add_right_comm, List.cons_append, scan]
            rw [List.cons_append] at refused
            rw [refused, List.map_cons, List.cons_append]
            simp only [List.cons.injEq, true_and]
            cases others with
            | nil => simp
            | cons second more =>
              apply inner
              · intro behind
                have differs := later second List.mem_cons_self
                rw [List.cons_append, first?, if_neg differs]
                exact (Option.some_ne_none _).symm
              · intro other member
                exact later other (List.mem_cons_of_mem _ member)
        have counted : turns = (encodeChar char).length + (turns - (encodeChar char).length) := by
          omega
        rw [counted, items, Nat.add_sub_cancel_left]
        · rfl
        · intro behind
          rw [begins]
          exact (Option.some_ne_none _).symm
        · intro unit member same
          have isChar := (eq_unit_iff isOpening (List.mem_of_mem_tail member)).mp same
          rw [isChar, isOpening] at member
          cases member
      | some pair =>
        obtain ⟨key, behind⟩ := pair
        rw [found] at begins
        have shorter := length_of_first? found
        have shorterUnits : (ofChars behind).length < (ofChars (char :: rest)).length :=
          length_of_first? begins
        cases turns with
        | zero =>
          exact absurd (Nat.lt_of_lt_of_le shorterUnits enough) (Nat.not_lt_zero _)
        | succ turns =>
          rw [List.length_cons] at shorter
          have later : scan first last turns (ofChars behind) =
              (scan opening closing turnsChars behind).flatMap encodePiece :=
            ih turns (by omega) (by omega)
          rw [List.flatMap_cons, ← later]
          cases units : ofChars (char :: rest) with
          | nil => exact absurd ((ofChars_eq_nil _).mp units) (List.cons_ne_nil _ _)
          | cons unit others =>
            rw [units] at begins
            rw [scan, begins]
            rfl

theorem pieces_ofChars (isOpening : encodeChar opening = [first])
    (isClosing : encodeChar closing = [last]) (text : List Char) :
    pieces first last (ofChars text) = (pieces opening closing text).flatMap encodePiece :=
  scan_ofChars isOpening isClosing _ _ (Nat.le_refl _) (Nat.le_refl _)

/-- A placeholder among the units is one among the characters. -/
theorem mem_encodePiece (parts : List (Piece Char)) (key : List Char) :
    Piece.placeholder (ofChars key) ∈ parts.flatMap encodePiece ↔
      Piece.placeholder key ∈ parts := by
  rw [List.mem_flatMap]
  constructor
  · rintro ⟨part, inParts, member⟩
    cases part with
    | item char =>
      obtain ⟨unit, _, absent⟩ := List.mem_map.mp member
      cases absent
    | placeholder other =>
      have same := Piece.placeholder.inj (List.mem_singleton.mp member)
      rw [ofChars_injective same]
      exact inParts
  · intro member
    exact ⟨_, member, List.mem_singleton.mpr rfl⟩

end Pieces

end LosslessMusic.Codec.Utf16
