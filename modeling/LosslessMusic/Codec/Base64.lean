import Mathlib.Data.List.Basic

/-!
# Base64 with the URL alphabet

Encoding without padding, and a decoder that takes any text without padding: bits
behind the last whole byte are ignored.
-/

namespace LosslessMusic.Codec.Base64

/-- The URL and file name safe alphabet. -/
def alphabet : List Char :=
  "ABCDEFGHIJKLMNOPQRSTUVWXYZabcdefghijklmnopqrstuvwxyz0123456789-_".toList

/-- The character of six bits. -/
def digit (sextet : Nat) : Char :=
  alphabet.getD sextet 'A'

/-- The six bits of a character. -/
def value? (char : Char) : Option Nat :=
  alphabet.idxOf? char

/-- Bytes in groups of six bits. -/
def sextets : List UInt8 → List Nat
  | a :: b :: c :: rest =>
    a.toNat / 4 :: (a.toNat % 4 * 16 + b.toNat / 16) ::
      (b.toNat % 16 * 4 + c.toNat / 64) :: c.toNat % 64 :: sextets rest
  | [a, b] => [a.toNat / 4, a.toNat % 4 * 16 + b.toNat / 16, b.toNat % 16 * 4]
  | [a] => [a.toNat / 4, a.toNat % 4 * 16]
  | [] => []

/-- The bytes of groups of six bits; a single last group holds none. -/
def octets : List Nat → Option (List UInt8)
  | a :: b :: c :: d :: rest =>
    (octets rest).map fun bytes =>
      UInt8.ofNat (a * 4 + b / 16) :: UInt8.ofNat (b % 16 * 16 + c / 4) ::
        UInt8.ofNat (c % 4 * 64 + d) :: bytes
  | [a, b, c] => some [UInt8.ofNat (a * 4 + b / 16), UInt8.ofNat (b % 16 * 16 + c / 4)]
  | [a, b] => some [UInt8.ofNat (a * 4 + b / 16)]
  | [_] => none
  | [] => some []

/-- The text of some bytes. -/
def encode (bytes : List UInt8) : String :=
  String.ofList ((sextets bytes).map digit)

/-- The bytes of a text over the alphabet. -/
def decode (text : String) : Option (List UInt8) :=
  (text.toList.mapM value?).bind octets

theorem value?_digit : ∀ sextet < 64, value? (digit sextet) = some sextet := by
  unfold value? digit alphabet
  rw [String.toList_ofList]
  decide +kernel

theorem sextets_lt (bytes : List UInt8) : ∀ sextet ∈ sextets bytes, sextet < 64 := by
  fun_induction sextets bytes with
  | case1 a b c rest ih =>
    have first := a.toNat_lt
    have second := b.toNat_lt
    have third := c.toNat_lt
    simp only [List.mem_cons, forall_eq_or_imp]
    refine ⟨by omega, by omega, by omega, by omega, ih⟩
  | case2 a b =>
    have first := a.toNat_lt
    have second := b.toNat_lt
    simp only [List.mem_cons, forall_eq_or_imp, List.not_mem_nil, false_imp_iff,
      implies_true, and_true]
    refine ⟨by omega, by omega, by omega⟩
  | case3 a =>
    have first := a.toNat_lt
    simp only [List.mem_cons, forall_eq_or_imp, List.not_mem_nil, false_imp_iff,
      implies_true, and_true]
    refine ⟨by omega, by omega⟩
  | case4 => simp

theorem ofNat_eq {number : Nat} {b : UInt8} (same : number = b.toNat) : UInt8.ofNat number = b := by
  rw [same, UInt8.ofNat_toNat]

theorem octets_sextets (bytes : List UInt8) : octets (sextets bytes) = some bytes := by
  fun_induction sextets bytes with
  | case1 a b c rest ih =>
    have first := a.toNat_lt
    have second := b.toNat_lt
    have third := c.toNat_lt
    rw [octets, ih, Option.map_some, ofNat_eq (b := a) (by omega),
      ofNat_eq (b := b) (by omega), ofNat_eq (b := c) (by omega)]
  | case2 a b =>
    have first := a.toNat_lt
    have second := b.toNat_lt
    rw [octets, ofNat_eq (b := a) (by omega), ofNat_eq (b := b) (by omega)]
  | case3 a =>
    have first := a.toNat_lt
    rw [octets, ofNat_eq (b := a) (by omega)]
  | case4 => rfl

theorem mapM_value?_map_digit (groups : List Nat) (small : ∀ sextet ∈ groups, sextet < 64) :
    (groups.map digit).mapM value? = some groups := by
  induction groups with
  | nil => rfl
  | cons sextet rest ih =>
    have tail := ih fun later member =>
      small later (List.mem_cons_of_mem _ member)
    rw [List.map_cons, List.mapM_cons, value?_digit sextet (small sextet List.mem_cons_self), tail]
    rfl

theorem decode_encode (bytes : List UInt8) : decode (encode bytes) = some bytes := by
  rw [decode, encode, String.toList_ofList, mapM_value?_map_digit _ (sextets_lt bytes),
    Option.bind_some, octets_sextets]

end LosslessMusic.Codec.Base64
