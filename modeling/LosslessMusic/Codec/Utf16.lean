import LosslessMusic.Text

/-!
# Texts of 16-bit units

A text of the Java and Dart platforms is a list of 16-bit units. Two surrogates, a
high one before a low one, stand for a character beyond the first plane; a
surrogate that has no partner stands for itself, and such a text encodes no
sequence of characters.
-/

namespace LosslessMusic.Codec

/-- A text of the Java and Dart platforms. -/
abbrev Utf16 : Type :=
  List UInt16

namespace Utf16

/-- `Character.isHighSurrogate`. -/
def isHigh (unit : UInt16) : Bool :=
  0xD800 ≤ unit.toNat && unit.toNat ≤ 0xDBFF

/-- `Character.isLowSurrogate`. -/
def isLow (unit : UInt16) : Bool :=
  0xDC00 ≤ unit.toNat && unit.toNat ≤ 0xDFFF

/-- The code point of a pair of surrogates. -/
def pairPoint (high low : UInt16) : Nat :=
  0x10000 + (high.toNat - 0xD800) * 0x400 + (low.toNat - 0xDC00)

/-- The code points of a text; an unpaired surrogate is its own code point. -/
def codePoints : Utf16 → List Nat
  | [] => []
  | unit :: rest =>
    if isHigh unit then
      match rest with
      | [] => [unit.toNat]
      | low :: others =>
        if isLow low then pairPoint unit low :: codePoints others
        else unit.toNat :: codePoints (low :: others)
    else
      unit.toNat :: codePoints rest

/-- The characters of a text without unpaired surrogates. -/
def decode (text : Utf16) : Option (List Char) :=
  (codePoints text).mapM fun point =>
    if point.isValidChar then some (Char.ofNat point) else none

/-- The units of a character. -/
def encodeChar (char : Char) : Utf16 :=
  if char.toNat < 0x10000 then [UInt16.ofNat char.toNat]
  else
    let offset := char.toNat - 0x10000
    [UInt16.ofNat (0xD800 + offset / 0x400), UInt16.ofNat (0xDC00 + offset % 0x400)]

/-- The units of a sequence of characters. -/
def ofChars (chars : List Char) : Utf16 :=
  chars.flatMap encodeChar

/-- The units of a string. -/
def ofString (text : String) : Utf16 :=
  ofChars text.toList

theorem codePoints_pair (high low : UInt16) (rest : Utf16) (isHighUnit : isHigh high = true)
    (isLowUnit : isLow low = true) :
    codePoints (high :: low :: rest) = pairPoint high low :: codePoints rest := by
  rw [codePoints, if_pos isHighUnit]
  exact if_pos isLowUnit

theorem codePoints_single (unit : UInt16) (rest : Utf16)
    (single : isHigh unit = true → ∀ low others, rest = low :: others → isLow low = false) :
    codePoints (unit :: rest) = unit.toNat :: codePoints rest := by
  cases rest with
  | nil => simp [codePoints]
  | cons low others =>
    rw [codePoints]
    cases high : isHigh unit with
    | false => rw [if_neg Bool.false_ne_true]
    | true =>
      rw [if_pos rfl, single high low others rfl, if_neg Bool.false_ne_true]

theorem codePoints_encodeChar (char : Char) (rest : Utf16) :
    codePoints (encodeChar char ++ rest) = char.toNat :: codePoints rest := by
  have valid : char.toNat < 0xD800 ∨ 0xDFFF < char.toNat ∧ char.toNat < 0x110000 := char.valid
  unfold encodeChar
  split
  next small =>
    have same : (UInt16.ofNat char.toNat).toNat = char.toNat := by
      rw [UInt16.toNat_ofNat']
      omega
    rw [List.singleton_append, codePoints_single, same]
    intro high
    unfold isHigh at high
    rw [same, Bool.and_eq_true, decide_eq_true_eq, decide_eq_true_eq] at high
    omega
  next large =>
    have high : (UInt16.ofNat (0xD800 + (char.toNat - 0x10000) / 0x400)).toNat =
        0xD800 + (char.toNat - 0x10000) / 0x400 := by
      rw [UInt16.toNat_ofNat']
      omega
    have low : (UInt16.ofNat (0xDC00 + (char.toNat - 0x10000) % 0x400)).toNat =
        0xDC00 + (char.toNat - 0x10000) % 0x400 := by
      rw [UInt16.toNat_ofNat']
      omega
    refine (codePoints_pair _ _ rest ?_ ?_).trans ?_
    · unfold isHigh
      rw [high, Bool.and_eq_true, decide_eq_true_eq, decide_eq_true_eq]
      omega
    · unfold isLow
      rw [low, Bool.and_eq_true, decide_eq_true_eq, decide_eq_true_eq]
      omega
    · unfold pairPoint
      rw [high, low]
      have whole : 0x10000 + (0xD800 + (char.toNat - 0x10000) / 0x400 - 0xD800) * 0x400 +
          (0xDC00 + (char.toNat - 0x10000) % 0x400 - 0xDC00) = char.toNat := by
        omega
      rw [whole]

theorem codePoints_ofChars (chars : List Char) (rest : Utf16) :
    codePoints (ofChars chars ++ rest) = chars.map Char.toNat ++ codePoints rest := by
  induction chars with
  | nil => rfl
  | cons char others ih =>
    unfold ofChars at ih ⊢
    rw [List.flatMap_cons, List.append_assoc, codePoints_encodeChar, ih]
    rfl

theorem decode_ofChars_append (chars : List Char) (rest : Utf16) :
    decode (ofChars chars ++ rest) = (decode rest).map (chars ++ ·) := by
  unfold decode
  rw [codePoints_ofChars, List.mapM_append]
  have own : (chars.map Char.toNat).mapM (fun point =>
        if point.isValidChar then some (Char.ofNat point) else none) = some chars := by
    induction chars with
    | nil => rfl
    | cons char others ih =>
      have valid : char.toNat.isValidChar := char.valid
      rw [List.map_cons, List.mapM_cons, ih, if_pos valid]
      simp
  rw [own]
  cases (codePoints rest).mapM (fun point =>
    if point.isValidChar then some (Char.ofNat point) else none) with
  | none => rfl
  | some others => rfl

theorem decode_ofChars (chars : List Char) : decode (ofChars chars) = some chars := by
  have whole := decode_ofChars_append chars []
  rw [List.append_nil] at whole
  rw [whole]
  exact congrArg some (List.append_nil chars)

theorem ofChars_append (chars others : List Char) :
    ofChars (chars ++ others) = ofChars chars ++ ofChars others :=
  List.flatMap_append

theorem ofString_append (text other : String) :
    ofString (text ++ other) = ofString text ++ ofString other := by
  unfold ofString
  rw [String.toList_append, ofChars_append]

theorem toNat_charOfNat (point : Nat) (valid : point.isValidChar) :
    (Char.ofNat point).toNat = point := by
  rw [Char.ofNat, dif_pos valid]
  rfl

theorem encodeChar_single (unit : UInt16) (valid : unit.toNat.isValidChar) :
    encodeChar (Char.ofNat unit.toNat) = [unit] := by
  have same := toNat_charOfNat unit.toNat valid
  unfold encodeChar
  rw [same, if_pos unit.toNat_lt, UInt16.ofNat_toNat]

theorem encodeChar_pair (high low : UInt16) (isHighUnit : isHigh high = true)
    (isLowUnit : isLow low = true) :
    encodeChar (Char.ofNat (pairPoint high low)) = [high, low] := by
  unfold isHigh at isHighUnit
  unfold isLow at isLowUnit
  rw [Bool.and_eq_true, decide_eq_true_eq, decide_eq_true_eq] at isHighUnit isLowUnit
  have same : (Char.ofNat (pairPoint high low)).toNat = pairPoint high low := by
    refine toNat_charOfNat (pairPoint high low) (Or.inr ⟨?_, ?_⟩)
    · unfold pairPoint
      omega
    · unfold pairPoint
      omega
  have offset : pairPoint high low - 0x10000 =
      (high.toNat - 0xD800) * 0x400 + (low.toNat - 0xDC00) := by
    unfold pairPoint
    omega
  have first : 0xD800 + (pairPoint high low - 0x10000) / 0x400 = high.toNat := by omega
  have second : 0xDC00 + (pairPoint high low - 0x10000) % 0x400 = low.toNat := by omega
  unfold encodeChar
  rw [same, if_neg (by unfold pairPoint; omega)]
  simp only [first, second, UInt16.ofNat_toNat]

theorem codePoints_append (text rest : Utf16)
    (apart : ∀ low others, rest = low :: others → isLow low = false) :
    codePoints (text ++ rest) = codePoints text ++ codePoints rest := by
  fun_induction codePoints text with
  | case1 => rfl
  | case2 unit high =>
    rw [List.singleton_append, codePoints_single unit rest fun _ => apart]
    rfl
  | case3 unit high low others isLowUnit ih =>
    rw [List.cons_append, List.cons_append, codePoints_pair _ _ _ high isLowUnit, ih]
    rfl
  | case4 unit high low others isLowUnit ih =>
    rw [List.cons_append, codePoints_single, ih]
    · rfl
    · intro _ second following isRest
      cases isRest
      exact Bool.eq_false_iff.mpr isLowUnit
  | case5 unit others high ih =>
    rw [List.cons_append, codePoints_single, ih]
    · rfl
    · intro isHighUnit
      exact absurd isHighUnit high

end Utf16
end LosslessMusic.Codec
