import LosslessMusic.Codec.Utf16
import LosslessMusic.Pattern.Matching

/-!
# Item by item on characters and on their units

A function that treats every unit of a character as the character commutes with the
encoding of a text.
-/

namespace LosslessMusic.Codec.Utf16

open Pattern

variable {char : Char}

theorem encodeChar_of_lt (plane : char.toNat < 0x10000) :
    encodeChar char = [UInt16.ofNat char.toNat] := by
  unfold encodeChar
  rw [if_pos plane]

/-- A unit is its character, or a surrogate of a character beyond the first plane. -/
theorem unit_cases {unit : UInt16} (member : unit ∈ encodeChar char) :
    (char.toNat < 0x10000 ∧ unit.toNat = char.toNat) ∨
      (0x10000 ≤ char.toNat ∧ 0xD800 ≤ unit.toNat ∧ unit.toNat ≤ 0xDFFF) := by
  unfold encodeChar at member
  by_cases plane : char.toNat < 0x10000
  · rw [if_pos plane, List.mem_singleton] at member
    refine .inl ⟨plane, ?_⟩
    rw [member, UInt16.toNat_ofNat']
    exact Nat.mod_eq_of_lt plane
  · rw [if_neg plane] at member
    have top : char.toNat < 0x110000 := by
      rcases char.valid with low | high
      · exact Nat.lt_trans low (by decide)
      · exact high.2
    refine .inr ⟨Nat.le_of_not_lt plane, ?_⟩
    simp only [List.mem_cons, List.not_mem_nil, or_false] at member
    rcases member with isUnit | isUnit
    · rw [isUnit, UInt16.toNat_ofNat', Nat.mod_eq_of_lt (by omega)]
      omega
    · rw [isUnit, UInt16.toNat_ofNat', Nat.mod_eq_of_lt (by omega)]
      omega

theorem encodeChar_ne_nil (char : Char) : encodeChar char ≠ [] := by
  unfold encodeChar
  split
  · exact List.cons_ne_nil _ _
  · exact List.cons_ne_nil _ _

theorem ofChars_cons (char : Char) (rest : List Char) :
    ofChars (char :: rest) = encodeChar char ++ ofChars rest :=
  List.flatMap_cons

/-- Every unit of the characters is treated as its character. -/
def Agree (units : UInt16 → Bool) (chars : Char → Bool) (text : List Char) : Prop :=
  ∀ char ∈ text, ∀ unit ∈ encodeChar char, units unit = chars char

section Agreement

variable {units : UInt16 → Bool} {chars : Char → Bool}

theorem Agree.of_cons {rest : List Char} (agree : Agree units chars (char :: rest)) :
    (∀ unit ∈ encodeChar char, units unit = chars char) ∧ Agree units chars rest :=
  List.forall_mem_cons.mp agree

variable {text : List Char}

theorem dropWhile_ofChars (agree : Agree units chars text) :
    (ofChars text).dropWhile units = ofChars (text.dropWhile chars) := by
  induction text with
  | nil => rfl
  | cons char rest ih =>
    obtain ⟨here, later⟩ := agree.of_cons
    rw [ofChars_cons]
    cases accepted : chars char with
    | true =>
      rw [List.dropWhile_append_of_pos fun unit member => (here unit member).trans accepted,
        ih later, List.dropWhile_cons_of_pos accepted]
    | false =>
      rw [List.dropWhile_cons_of_neg (by simp [accepted]), ofChars_cons]
      cases encoded : encodeChar char with
      | nil => exact absurd encoded (encodeChar_ne_nil char)
      | cons unit others =>
        have refused := here unit (by rw [encoded]; exact List.mem_cons_self)
        rw [List.cons_append, List.dropWhile_cons_of_neg (by simp [refused, accepted])]

omit chars in

theorem rdropWhile_append_of_all {front back : Utf16} (all : ∀ unit ∈ back, units unit = true) :
    (front ++ back).rdropWhile units = front.rdropWhile units := by
  unfold List.rdropWhile
  rw [List.reverse_append, List.dropWhile_append_of_pos]
  intro unit member
  exact all unit (List.mem_reverse.mp member)

theorem rdropWhile_ofChars (agree : Agree units chars text) :
    (ofChars text).rdropWhile units = ofChars (text.rdropWhile chars) := by
  induction text using List.reverseRecOn with
  | nil => rfl
  | append_singleton front char ih =>
    have here := agree char (List.mem_append_right _ (List.mem_singleton.mpr rfl))
    have before : Agree units chars front := fun other member =>
      agree other (List.mem_append_left _ member)
    have single : ofChars [char] = encodeChar char := List.append_nil _
    rw [ofChars_append, single, List.rdropWhile_concat]
    cases accepted : chars char with
    | true =>
      have all : ∀ unit ∈ encodeChar char, units unit = true := fun unit member =>
        (here unit member).trans accepted
      rw [if_pos rfl, ← ih before]
      exact rdropWhile_append_of_all all
    | false =>
      rw [if_neg Bool.false_ne_true, ofChars_append, single, List.rdropWhile_eq_self_iff]
      intro nonempty
      have last := List.getLast_append_of_ne_nil nonempty (encodeChar_ne_nil char)
      rw [last, here _ (List.getLast_mem _), accepted]
      exact Bool.false_ne_true

theorem collapseFrom_ofChars (agree : Agree units chars text) {blank : Char} {unit : UInt16}
    (isBlank : encodeChar blank = [unit]) (inside : Bool) :
    collapseFrom units unit inside (ofChars text) =
      ofChars (collapseFrom chars blank inside text) := by
  induction text generalizing inside with
  | nil => rfl
  | cons char rest ih =>
    obtain ⟨here, later⟩ := agree.of_cons
    have whole (flag : Bool) (encoded : Utf16)
        (uniform : ∀ other ∈ encoded, units other = chars char) (nonempty : encoded ≠ []) :
        collapseFrom units unit flag (encoded ++ ofChars rest) =
          (if chars char then (if flag then [] else [unit]) else encoded) ++
            collapseFrom units unit (chars char) (ofChars rest) := by
      induction encoded generalizing flag with
      | nil => exact absurd rfl nonempty
      | cons first others inner =>
        have isFirst := uniform first List.mem_cons_self
        rw [List.cons_append, collapseFrom, isFirst]
        cases others with
        | nil => cases chars char <;> rfl
        | cons second more =>
          have next (state : Bool) := inner state
            (fun other member => uniform other (List.mem_cons_of_mem _ member))
            (List.cons_ne_nil _ _)
          cases accepted : chars char with
          | true =>
            rw [if_pos rfl, if_pos rfl, next true, accepted]
            rfl
          | false =>
            rw [if_neg Bool.false_ne_true, if_neg Bool.false_ne_true, next false, accepted]
            rfl
    rw [ofChars_cons, whole inside _ here (encodeChar_ne_nil char), ih later, collapseFrom]
    cases chars char with
    | true =>
      rw [if_pos rfl, if_pos rfl, ofChars_append]
      cases inside with
      | true => rfl
      | false =>
        rw [if_neg Bool.false_ne_true, if_neg Bool.false_ne_true, ofChars_cons, isBlank]
        rfl
    | false =>
      rw [if_neg Bool.false_ne_true, if_neg Bool.false_ne_true, ofChars_cons]

end Agreement

end LosslessMusic.Codec.Utf16
