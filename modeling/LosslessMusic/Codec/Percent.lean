import LosslessMusic.Text
import Mathlib.Data.List.Basic

/-!
# Percent escapes

A text keeps some bytes and writes the others as `%` and two digits. A reader accepts some
plain bytes and some escaped ones.
-/

namespace LosslessMusic.Codec.Percent

/-- The sign of an escape. -/
def percent : UInt8 := 37

/-- The value of a hexadecimal digit. -/
def digit? (byte : UInt8) : Option UInt8 :=
  if 48 ≤ byte ∧ byte ≤ 57 then some (byte - 48)
  else if 65 ≤ byte ∧ byte ≤ 70 then some (byte - 55)
  else if 97 ≤ byte ∧ byte ≤ 102 then some (byte - 87)
  else none

/-- The digit of a value below 16. -/
def hexDigit (value : UInt8) : UInt8 :=
  if value < 10 then 48 + value else 55 + value

/-- The escape of a byte. -/
def escapeByte (byte : UInt8) : List UInt8 :=
  [percent, hexDigit (byte / 16), hexDigit (byte % 16)]

/-- A text with escapes for the bytes that are not kept. -/
def encode (kept : UInt8 → Bool) (text : List UInt8) : List UInt8 :=
  text.flatMap fun byte => if kept byte then [byte] else escapeByte byte

/-- The bytes of a text in which only some plain and some escaped bytes are accepted. -/
def decode (plain escaped : UInt8 → Bool) : List UInt8 → Option (List UInt8)
  | [] => some []
  | byte :: rest =>
    if byte = percent then
      match rest with
      | high :: low :: rest =>
        match digit? high, digit? low with
        | some high, some low =>
          if escaped (high * 16 + low) then
            (decode plain escaped rest).map ((high * 16 + low) :: ·)
          else none
        | _, _ => none
      | _ => none
    else if plain byte then (decode plain escaped rest).map (byte :: ·)
    else none

/-! ## Digits -/

theorem forall_byte {property : UInt8 → Prop}
    (all : ∀ number < 256, property (UInt8.ofNat number)) (byte : UInt8) : property byte := by
  rw [← UInt8.ofNat_toNat (x := byte)]
  exact all byte.toNat byte.toNat_lt

theorem digit?_hexDigit : ∀ value < 16,
    digit? (hexDigit (UInt8.ofNat value)) = some (UInt8.ofNat value) := by
  decide

theorem digit?_hexDigit_div (byte : UInt8) : digit? (hexDigit (byte / 16)) = some (byte / 16) := by
  have small : (byte / 16).toNat < 16 := Nat.div_lt_of_lt_mul byte.toNat_lt
  rw [← UInt8.ofNat_toNat (x := byte / 16)]
  exact digit?_hexDigit _ small

theorem digit?_hexDigit_mod (byte : UInt8) : digit? (hexDigit (byte % 16)) = some (byte % 16) := by
  have small : (byte % 16).toNat < 16 := Nat.mod_lt _ (by decide)
  rw [← UInt8.ofNat_toNat (x := byte % 16)]
  exact digit?_hexDigit _ small

theorem div_mod (byte : UInt8) : byte / 16 * 16 + byte % 16 = byte := by
  apply UInt8.toNat_inj.mp
  have bound := byte.toNat_lt
  simp only [UInt8.toNat_add, UInt8.toNat_mul, UInt8.toNat_div, UInt8.toNat_mod, UInt8.reduceToNat]
  omega

variable {plain escaped kept : UInt8 → Bool}

/-! ## Reading -/

@[simp]
theorem decode_nil : decode plain escaped [] = some [] :=
  rfl

variable {byte : UInt8}

theorem decode_plain (other : byte ≠ percent) (rest : List UInt8) :
    decode plain escaped (byte :: rest) =
      if plain byte then (decode plain escaped rest).map (byte :: ·) else none := by
  rw [decode.eq_def]
  exact if_neg other

theorem decode_escapeByte (byte : UInt8) (rest : List UInt8) :
    decode plain escaped (escapeByte byte ++ rest) =
      if escaped byte then (decode plain escaped rest).map (byte :: ·) else none := by
  rw [escapeByte, List.cons_append, List.cons_append, List.cons_append, List.nil_append, decode,
    if_pos rfl]
  simp only [digit?_hexDigit_div, digit?_hexDigit_mod, div_mod]

variable {text : List UInt8}

theorem decode_mono {plain' escaped' : UInt8 → Bool} {bytes : List UInt8}
    (morePlain : ∀ byte, plain byte → plain' byte)
    (moreEscaped : ∀ byte, escaped byte → escaped' byte)
    (decoded : decode plain escaped text = some bytes) :
    decode plain' escaped' text = some bytes := by
  fun_induction decode plain escaped text generalizing bytes with
  | case1 => exact decoded
  | case2 high low rest highValue lowValue lowRead highRead accepted ih =>
    obtain ⟨later, read, same⟩ := Option.map_eq_some_iff.mp decoded
    rw [decode, if_pos rfl]
    simp only [highRead, lowRead, if_pos (moreEscaped _ accepted), ih read]
    exact congrArg some same
  | case6 byte rest other accepted ih =>
    obtain ⟨later, read, same⟩ := Option.map_eq_some_iff.mp decoded
    rw [decode_plain other, if_pos (morePlain _ accepted), ih read]
    exact congrArg some same
  | _ => cases decoded

theorem decode_append {front back first second : List UInt8}
    (front_read : decode plain escaped front = some first)
    (back_read : decode plain escaped back = some second) :
    decode plain escaped (front ++ back) = some (first ++ second) := by
  fun_induction decode plain escaped front generalizing first with
  | case1 =>
    cases front_read
    exact back_read
  | case2 high low rest highValue lowValue lowRead highRead accepted ih =>
    obtain ⟨later, read, same⟩ := Option.map_eq_some_iff.mp front_read
    rw [List.cons_append, List.cons_append, List.cons_append, decode, if_pos rfl]
    simp only [highRead, lowRead, if_pos accepted, ih read]
    rw [← same]
    rfl
  | case6 byte rest other accepted ih =>
    obtain ⟨later, read, same⟩ := Option.map_eq_some_iff.mp front_read
    rw [List.cons_append, decode_plain other, if_pos accepted, ih read, ← same]
    rfl
  | _ => cases front_read

theorem isSome_of_append {separator : UInt8} (noDigit : digit? separator = none)
    (noSign : separator ≠ percent) {front back : List UInt8}
    (read : (decode plain escaped (front ++ separator :: back)).isSome) :
    (decode plain escaped front).isSome ∧ (decode plain escaped back).isSome := by
  fun_induction decode plain escaped front with
  | case1 =>
    rw [List.nil_append, decode_plain noSign] at read
    split at read
    next => exact ⟨rfl, by rwa [Option.isSome_map] at read⟩
    next => cases read
  | case2 high low rest highValue lowValue lowRead highRead accepted ih =>
    rw [List.cons_append, List.cons_append, List.cons_append, decode, if_pos rfl] at read
    simp only [highRead, lowRead, if_pos accepted, Option.isSome_map] at read ⊢
    exact ih read
  | case6 byte rest other accepted ih =>
    rw [List.cons_append, decode_plain other, if_pos accepted, Option.isSome_map] at read
    rw [Option.isSome_map]
    exact ih read
  | case3 high low rest highValue lowValue lowRead highRead refused =>
    rw [List.cons_append, List.cons_append, List.cons_append, decode, if_pos rfl] at read
    simp only [highRead, lowRead, if_neg refused] at read
    cases read
  | case4 high low rest unread =>
    rw [List.cons_append, List.cons_append, List.cons_append, decode, if_pos rfl] at read
    split at read
    next highRead lowRead => exact (unread _ _ highRead lowRead).elim
    next => cases read
  | case5 rest short =>
    have cut : decode plain escaped (percent :: (rest ++ separator :: back)) = none := by
      cases rest with
      | nil => cases back <;> simp [decode, noDigit]
      | cons high behind =>
        cases behind with
        | nil => simp [decode, noDigit]
        | cons low later => exact (short high low later rfl).elim
    rw [List.cons_append, cut] at read
    cases read
  | case7 byte rest other refused =>
    rw [List.cons_append, decode_plain other, if_neg refused] at read
    cases read

/-- A byte that is read stands in the text, or is an accepted escape. -/
theorem mem_decode {bytes : List UInt8} (decoded : decode plain escaped text = some bytes) :
    ∀ byte ∈ bytes, byte ∈ text ∧ byte ≠ percent ∧ plain byte ∨ escaped byte := by
  fun_induction decode plain escaped text generalizing bytes with
  | case1 =>
    cases decoded
    exact fun byte member => absurd member List.not_mem_nil
  | case2 high low rest highValue lowValue lowRead highRead accepted ih =>
    obtain ⟨later, read, same⟩ := Option.map_eq_some_iff.mp decoded
    rw [← same]
    intro byte member
    cases List.mem_cons.mp member with
    | inl first =>
      rw [first]
      exact .inr accepted
    | inr behind =>
      refine (ih read byte behind).imp_left fun stands => ⟨?_, stands.2⟩
      exact List.mem_cons_of_mem _ (List.mem_cons_of_mem _ (List.mem_cons_of_mem _ stands.1))
  | case6 first rest other accepted ih =>
    obtain ⟨later, read, same⟩ := Option.map_eq_some_iff.mp decoded
    rw [← same]
    intro byte member
    cases List.mem_cons.mp member with
    | inl here =>
      rw [here]
      exact .inl ⟨List.mem_cons_self, other, accepted⟩
    | inr behind =>
      exact (ih read byte behind).imp_left fun stands =>
        ⟨List.mem_cons_of_mem _ stands.1, stands.2⟩
  | _ => cases decoded

/-! ## Reading what is written -/

theorem encode_cons (byte : UInt8) (rest : List UInt8) : encode kept (byte :: rest) =
      (if kept byte then [byte] else escapeByte byte) ++ encode kept rest :=
  List.flatMap_cons

theorem encode_append (front back : List UInt8) :
    encode kept (front ++ back) = encode kept front ++ encode kept back :=
  List.flatMap_append

theorem encode_of_kept (all : ∀ byte ∈ text, kept byte) : encode kept text = text := by
  induction text with
  | nil => rfl
  | cons byte rest ih =>
    rw [encode_cons, if_pos (all byte List.mem_cons_self),
      ih fun other member => all other (List.mem_cons_of_mem _ member)]
    rfl

/-- Whether a reader accepts a byte the way it is written. -/
def passes (kept plain escaped : UInt8 → Bool) (byte : UInt8) : Bool :=
  if kept byte then plain byte else escaped byte

theorem decode_encode (sign : kept percent = false) (text : List UInt8) :
    decode plain escaped (encode kept text) =
      if ∀ byte ∈ text, passes kept plain escaped byte then some text else none := by
  induction text with
  | nil => simp [encode]
  | cons byte rest ih =>
    have head : decode plain escaped (encode kept (byte :: rest)) =
        if passes kept plain escaped byte then
          (decode plain escaped (encode kept rest)).map (byte :: ·) else none := by
      rw [encode_cons]
      unfold passes
      by_cases keeps : kept byte
      · have other : byte ≠ percent := by
          intro same
          rw [same, sign] at keeps
          cases keeps
        simp only [if_pos keeps, List.singleton_append, decode_plain other]
      · simp only [if_neg keeps, decode_escapeByte]
    rw [head, ih]
    simp only [List.forall_mem_cons]
    by_cases accepts : passes kept plain escaped byte
    · by_cases later : ∀ byte ∈ rest, passes kept plain escaped byte
      · rw [if_pos accepts, if_pos later, if_pos ⟨accepts, later⟩]
        rfl
      · rw [if_pos accepts, if_neg later, if_neg fun both => later both.2]
        rfl
    · rw [if_neg accepts, if_neg fun both => accepts both.1]

theorem mem_encode (member : byte ∈ encode kept text) :
    byte ∈ text ∧ kept byte ∨ byte = percent ∨
      ∃ other, byte = hexDigit (other / 16) ∨ byte = hexDigit (other % 16) := by
  obtain ⟨other, inside, written⟩ := List.mem_flatMap.mp member
  split at written
  next keeps =>
    rw [List.mem_singleton.mp written]
    exact .inl ⟨inside, keeps⟩
  next =>
    simp only [escapeByte, List.mem_cons, List.not_mem_nil, or_false] at written
    obtain sign | high | low := written
    · exact .inr (.inl sign)
    · exact .inr (.inr ⟨other, .inl high⟩)
    · exact .inr (.inr ⟨other, .inr low⟩)

theorem mem_of_mem_encode (noDigit : digit? byte = none)
    (noSign : byte ≠ percent) (member : byte ∈ encode kept text) : byte ∈ text ∧ kept byte := by
  obtain stands | sign | ⟨other, high | low⟩ := mem_encode member
  · exact stands
  · exact absurd sign noSign
  · rw [high, digit?_hexDigit_div] at noDigit
    cases noDigit
  · rw [low, digit?_hexDigit_mod] at noDigit
    cases noDigit

theorem mem_encode_of_kept (member : byte ∈ text)
    (keeps : kept byte) : byte ∈ encode kept text :=
  List.mem_flatMap.mpr ⟨byte, member, by rw [if_pos keeps]; exact List.mem_singleton_self byte⟩

theorem decode_encode_of_decode (sign : kept percent)
    (digits : ∀ byte, (digit? byte).isSome → kept byte) (all : ∀ byte, escaped byte)
    (decodes : (decode plain escaped text).isSome) :
    (decode plain escaped (encode kept text)).isSome := by
  fun_induction decode plain escaped text with
  | case1 => rfl
  | case2 high low rest highValue lowValue lowRead highRead accepted ih =>
    have highKept := digits high (by rw [highRead]; rfl)
    have lowKept := digits low (by rw [lowRead]; rfl)
    rw [Option.isSome_map] at decodes
    rw [encode_cons, encode_cons, encode_cons, if_pos sign, if_pos highKept, if_pos lowKept,
      List.singleton_append, List.singleton_append, List.singleton_append, decode, if_pos rfl]
    simp only [highRead, lowRead, if_pos accepted, Option.isSome_map]
    exact ih decodes
  | case6 byte rest other accepted ih =>
    rw [Option.isSome_map] at decodes
    rw [encode_cons]
    split
    next =>
      rw [List.singleton_append, decode_plain other, if_pos accepted, Option.isSome_map]
      exact ih decodes
    next =>
      rw [decode_escapeByte, if_pos (all byte), Option.isSome_map]
      exact ih decodes
  | _ => cases decodes

end LosslessMusic.Codec.Percent
