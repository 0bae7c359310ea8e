import LosslessMusic.Pattern.Matching

/-!
# Placeholders in a text

A placeholder is a key between an opening and a closing item. A text falls into single
items and placeholders, read from left to right. Replacing every placeholder in one pass
and replacing one key after another are both read off these pieces.
-/

namespace LosslessMusic.Placeholders

open Pattern

/-- A single item of a text, or a key that stood between the two marks. -/
inductive Piece (α : Type)
  | item (value : α)
  | placeholder (key : List α)
  deriving DecidableEq, Repr

/-- The text of a piece. -/
def Piece.source {α : Type} (opening closing : α) : Piece α → List α
  | .item value => [value]
  | .placeholder key => opening :: (key ++ [closing])

section Marks

variable {α : Type} [DecidableEq α] (opening closing : α)

/-- The text of some pieces. -/
def source (pieces : List (Piece α)) : List α :=
  pieces.flatMap (Piece.source opening closing)

/-- An item that is neither mark. -/
def isPlain (item : α) : Bool :=
  decide (item ≠ opening) && decide (item ≠ closing)

/-- An opening mark, some plain items and a closing mark. -/
def pattern : Pattern α :=
  inOrder [exactly [opening], oneOrMore (.one (isPlain opening closing)), exactly [closing]]

/-- The key and the rest of a text that begins with a placeholder. -/
def first? : List α → Option (List α × List α)
  | [] => none
  | item :: rest =>
    if item = opening then
      match rest.dropWhile (isPlain opening closing) with
      | [] => none
      | last :: behind =>
        if last = closing ∧ rest.takeWhile (isPlain opening closing) ≠ [] then
          some (rest.takeWhile (isPlain opening closing), behind)
        else none
    else none

/-- The pieces of a text, for at most so many of them. -/
def scan : Nat → List α → List (Piece α)
  | 0, _ => []
  | _ + 1, [] => []
  | turns + 1, item :: rest =>
    match first? opening closing (item :: rest) with
    | some (key, behind) => .placeholder key :: scan turns behind
    | none => .item item :: scan turns rest

/-- The pieces of a text. -/
def pieces (text : List α) : List (Piece α) :=
  scan opening closing text.length text

/-- A key that can stand between the marks. -/
def IsKey (key : List α) : Prop :=
  key ≠ [] ∧ ∀ item ∈ key, item ≠ opening ∧ item ≠ closing

variable {opening closing}

/-! ## Reading a placeholder -/

theorem isPlain_iff (item : α) :
    isPlain opening closing item = true ↔ item ≠ opening ∧ item ≠ closing := by
  unfold isPlain
  rw [Bool.and_eq_true, decide_eq_true_eq, decide_eq_true_eq]

variable {key text behind : List α}

/-- A text that begins with a placeholder is the key between the marks and a rest. -/
theorem eq_of_first? (found : first? opening closing text = some (key, behind)) :
    text = opening :: (key ++ closing :: behind) ∧ IsKey opening closing key := by
  cases text with
  | nil => cases found
  | cons item rest =>
    rw [first?] at found
    by_cases opens : item = opening
    · rw [if_pos opens] at found
      have whole : rest.takeWhile (isPlain opening closing) ++
          rest.dropWhile (isPlain opening closing) = rest :=
        List.takeWhile_append_dropWhile
      have plain : ∀ other ∈ rest.takeWhile (isPlain opening closing),
          other ≠ opening ∧ other ≠ closing := by
        intro other member
        exact (isPlain_iff other).mp (List.mem_takeWhile_imp member)
      cases dropped : rest.dropWhile (isPlain opening closing) with
      | nil =>
        rw [dropped] at found
        cases found
      | cons last others =>
        rw [dropped] at found whole
        simp only at found
        by_cases closes : last = closing ∧ rest.takeWhile (isPlain opening closing) ≠ []
        · rw [if_pos closes, Option.some.injEq, Prod.mk.injEq] at found
          rw [found.1, found.2, closes.1] at whole
          rw [found.1] at closes plain
          exact ⟨by rw [opens, whole], closes.2, plain⟩
        · rw [if_neg closes] at found
          cases found
    · rw [if_neg opens] at found
      cases found

theorem first?_placeholder (isKey : IsKey opening closing key) (behind : List α) :
    first? opening closing (opening :: (key ++ closing :: behind)) = some (key, behind) := by
  have plain : ∀ item ∈ key, isPlain opening closing item = true := by
    intro item member
    exact (isPlain_iff item).mpr (isKey.2 item member)
  have stops : isPlain opening closing closing = false := by
    unfold isPlain
    simp
  rw [first?, if_pos rfl, List.dropWhile_append_of_pos plain, List.takeWhile_append_of_pos plain,
    List.dropWhile_cons_of_neg (by simp [stops]), List.takeWhile_cons_of_neg (by simp [stops])]
  simp [isKey.1]

theorem remainders_pattern (length : Nat) (text : List α) :
    (pattern opening closing).remainders length text =
      match first? opening closing text with
      | some (_, behind) => [behind]
      | none => [] := by
  have closes (rest : List α) : (inOrder [exactly [closing]]).remainders length rest =
      if [closing] <+: rest then [rest.drop 1] else [] := by
    unfold inOrder
    rw [List.foldr_cons, remainders, remainders_exactly]
    split
    · rfl
    · rfl
  have refuses : ∀ item rest, isPlain opening closing item = true →
      (inOrder [exactly [closing]]).remainders length (item :: rest) = [] := by
    intro item rest plain
    rw [closes, if_neg]
    intro isPrefix
    exact ((isPlain_iff item).mp plain).2 (List.cons_prefix_cons.mp isPrefix).1.symm
  have unfolded : (pattern opening closing).remainders length text =
      ((exactly [opening]).remainders length text).flatMap
        (((oneOrMore (.one (isPlain opening closing))).sequence
          (inOrder [exactly [closing]])).remainders length) := rfl
  rw [unfolded, remainders_exactly]
  cases text with
  | nil => rfl
  | cons item rest =>
    rw [first?]
    by_cases opens : item = opening
    · subst opens
      rw [if_pos (by simp), if_pos rfl, List.flatMap_cons, List.flatMap_nil, List.append_nil,
        List.length_singleton, List.drop_succ_cons, List.drop_zero]
      have again : ((oneOrMore (.one (isPlain item closing))).sequence
          (inOrder [exactly [closing]])).remainders length rest =
            ((Pattern.one (isPlain item closing)).remainders length rest).flatMap
              (((many (.one (isPlain item closing))).sequence
                (inOrder [exactly [closing]])).remainders length) := by
        unfold oneOrMore
        rw [remainders, remainders, List.flatMap_assoc]
        rfl
      rw [again]
      cases rest with
      | nil => rfl
      | cons second others =>
        rw [remainders]
        cases plain : isPlain item closing second with
        | false =>
          rw [List.dropWhile_cons_of_neg (by simp [plain]),
            List.takeWhile_cons_of_neg (by simp [plain])]
          simp
        | true =>
          rw [List.dropWhile_cons_of_pos plain, List.takeWhile_cons_of_pos plain,
            if_pos rfl, List.flatMap_cons, List.flatMap_nil, List.append_nil,
            remainders_many_one length refuses, closes]
          cases others.dropWhile (isPlain item closing) with
          | nil => rfl
          | cons last behind =>
            by_cases ends : last = closing
            · simp [ends]
            · simp [ends, Ne.symm ends]
    · rw [if_neg opens, if_neg]
      · rfl
      · intro isPrefix
        exact opens (List.cons_prefix_cons.mp isPrefix).1.symm

/-! ## Pieces of a text -/

theorem length_of_first? (found : first? opening closing text = some (key, behind)) :
    behind.length < text.length := by
  rw [(eq_of_first? found).1]
  simp only [List.length_cons, List.length_append]
  omega

theorem source_scan (turns : Nat) (text : List α) (enough : text.length ≤ turns) :
    source opening closing (scan opening closing turns text) = text := by
  induction turns generalizing text with
  | zero =>
    rw [List.length_eq_zero_iff.mp (Nat.le_zero.mp enough)]
    rfl
  | succ turns ih =>
    cases text with
    | nil => rfl
    | cons item rest =>
      rw [scan]
      cases found : first? opening closing (item :: rest) with
      | none =>
        have later := ih rest (Nat.le_of_succ_le_succ enough)
        unfold source at later ⊢
        rw [List.flatMap_cons, later]
        rfl
      | some pair =>
        obtain ⟨key, behind⟩ := pair
        have shorter := length_of_first? found
        have later := ih behind (by omega)
        unfold source at later ⊢
        rw [List.flatMap_cons, later, (eq_of_first? found).1]
        simp [Piece.source]

theorem source_pieces (text : List α) :
    source opening closing (pieces opening closing text) = text :=
  source_scan _ text (Nat.le_refl _)

/-- The placeholders among the pieces of a text have keys. -/
theorem isKey_of_mem_scan (turns : Nat) (text : List α)
    (member : Piece.placeholder key ∈ scan opening closing turns text) :
    IsKey opening closing key := by
  induction turns generalizing text with
  | zero => cases member
  | succ turns ih =>
    cases text with
    | nil => cases member
    | cons item rest =>
      rw [scan] at member
      cases found : first? opening closing (item :: rest) with
      | none =>
        rw [found] at member
        rcases List.mem_cons.mp member with same | later
        · cases same
        · exact ih rest later
      | some pair =>
        obtain ⟨read, behind⟩ := pair
        rw [found] at member
        rcases List.mem_cons.mp member with same | later
        · rw [Piece.placeholder.injEq] at same
          rw [same]
          exact (eq_of_first? found).2
        · exact ih behind later

theorem replaceFrom_pattern (length turns : Nat) (replace : List α → List α) (text : List α)
    (enough : text.length ≤ turns) :
    replaceFrom length (pattern opening closing) replace turns text =
      (scan opening closing turns text).flatMap fun piece =>
        match piece with
        | .item value => [value]
        | .placeholder key => replace (opening :: (key ++ [closing])) := by
  induction turns generalizing text with
  | zero =>
    rw [List.length_eq_zero_iff.mp (Nat.le_zero.mp enough)]
    rfl
  | succ turns ih =>
    cases text with
    | nil => rfl
    | cons item rest =>
      have matched : (pattern opening closing).remainders length (item :: rest) = _ :=
        remainders_pattern length (item :: rest)
      rw [scan]
      cases found : first? opening closing (item :: rest) with
      | none =>
        rw [found] at matched
        rw [replaceFrom_refused matched, ih rest (Nat.le_of_succ_le_succ enough)]
        rfl
      | some pair =>
        obtain ⟨key, behind⟩ := pair
        rw [found] at matched
        have shorter := length_of_first? found
        have whole := (eq_of_first? found).1
        have isFirst : ((pattern opening closing).remainders length (item :: rest)).head? =
            some behind := by
          rw [matched]
          rfl
        have taken : (item :: rest).take (rest.length + 1 - behind.length) =
            opening :: (key ++ [closing]) := by
          have counted := congrArg List.length whole
          simp only [List.length_cons, List.length_append] at counted
          rw [whole, show opening :: (key ++ closing :: behind) =
            (opening :: (key ++ [closing])) ++ behind by simp]
          apply List.take_left'
          simp only [List.length_cons, List.length_append, List.length_nil]
          omega
        rw [replaceFrom_matched isFirst (Nat.le_of_lt_succ shorter), taken, ih behind (by omega)]
        rfl

theorem replaceAll_pattern (replace : List α → List α) (text : List α) :
    (pattern opening closing).replaceAll replace text =
      (pieces opening closing text).flatMap fun piece =>
        match piece with
        | .item value => [value]
        | .placeholder key => replace (opening :: (key ++ [closing])) :=
  replaceFrom_pattern _ _ replace text (Nat.le_refl _)

/-! ## One key after another -/

/-- What stands between the placeholders cannot be mistaken for one, as it has no opening
marks or no closing marks, and the placeholders have keys. -/
structure Separated (opening closing : α) (parts : List (Piece α)) : Prop where
  distinct : opening ≠ closing
  items : (∀ item, Piece.item item ∈ parts → item ≠ opening) ∨
    ∀ item, Piece.item item ∈ parts → item ≠ closing
  keys : ∀ key, Piece.placeholder key ∈ parts → IsKey opening closing key

variable {parts : List (Piece α)}

omit [DecidableEq α] in

theorem Separated.of_suffix {others : List (Piece α)} (separated : Separated opening closing parts)
    (suffix : others <:+ parts) :
    Separated opening closing others where
  distinct := separated.distinct
  items := by
    rcases separated.items with items | items
    · exact .inl fun item member => items item (suffix.subset member)
    · exact .inr fun item member => items item (suffix.subset member)
  keys key member := separated.keys key (suffix.subset member)

variable {part : Piece α}

omit [DecidableEq α] in

theorem Separated.tail (separated : Separated opening closing (part :: parts)) :
    Separated opening closing parts :=
  separated.of_suffix (List.suffix_cons part parts)

omit [DecidableEq α] in

theorem not_begins_source (distinct : opening ≠ closing) (plain : ∀ item ∈ key, item ≠ opening)
    (parts : List (Piece α)) (items : ∀ item, Piece.item item ∈ parts → item ≠ closing) :
    ¬ key ++ [closing] <+: source opening closing parts := by
  induction parts generalizing key with
  | nil => simp [source]
  | cons part others ih =>
    unfold source
    rw [List.flatMap_cons]
    intro isPrefix
    cases part with
    | item value =>
      have isOther := items value List.mem_cons_self
      cases key with
      | nil => exact isOther (List.cons_prefix_cons.mp isPrefix).1.symm
      | cons head rest =>
        refine ih ?_ ?_ (List.cons_prefix_cons.mp isPrefix).2
        · exact fun item member => plain item (List.mem_cons_of_mem _ member)
        · exact fun item member => items item (List.mem_cons_of_mem _ member)
    | placeholder other =>
      cases key with
      | nil => exact distinct (List.cons_prefix_cons.mp isPrefix).1.symm
      | cons head rest =>
        exact plain head List.mem_cons_self (List.cons_prefix_cons.mp isPrefix).1

omit [DecidableEq α] in

theorem key_unique {other : List α} (plain : ∀ item ∈ key, item ≠ closing)
    (plainToo : ∀ item ∈ other, item ≠ closing)
    (isPrefix : key ++ [closing] <+: other ++ closing :: behind) : key = other := by
  induction key generalizing other with
  | nil =>
    cases other with
    | nil => rfl
    | cons head rest =>
      exact absurd (List.cons_prefix_cons.mp isPrefix).1.symm (plainToo head List.mem_cons_self)
  | cons head rest ih =>
    cases other with
    | nil =>
      exact absurd (List.cons_prefix_cons.mp isPrefix).1 (plain head List.mem_cons_self)
    | cons first others =>
      have both := List.cons_prefix_cons.mp isPrefix
      rw [both.1, ih _ _ both.2]
      · exact fun item member => plain item (List.mem_cons_of_mem _ member)
      · exact fun item member => plainToo item (List.mem_cons_of_mem _ member)

omit [DecidableEq α] in

/-- Pieces begin with a placeholder when their text does. -/
theorem begins_source (separated : Separated opening closing (part :: parts))
    (isKey : IsKey opening closing key) :
    opening :: (key ++ [closing]) <+: source opening closing (part :: parts) ↔
      part = .placeholder key := by
  unfold source
  rw [List.flatMap_cons]
  cases part with
  | item value =>
    constructor
    · intro isPrefix
      exfalso
      have both := List.cons_prefix_cons.mp isPrefix
      rcases separated.items with items | items
      · exact items value List.mem_cons_self both.1.symm
      · apply not_begins_source separated.distinct _ parts _ both.2
        · exact fun item member => (isKey.2 item member).1
        · exact fun item member => items item (List.mem_cons_of_mem _ member)
    · intro same
      cases same
  | placeholder other =>
    have isOther := separated.keys other List.mem_cons_self
    unfold Piece.source
    rw [List.cons_append, List.cons_prefix_cons, List.append_assoc, List.singleton_append]
    constructor
    · intro isPrefix
      rw [key_unique (fun item member => (isKey.2 item member).2)
        (fun item member => (isOther.2 item member).2) isPrefix.2]
    · intro same
      rw [Piece.placeholder.injEq] at same
      rw [same]
      exact ⟨rfl, _, by rw [List.append_assoc, List.singleton_append]⟩

omit [DecidableEq α] in

theorem source_items (text : List α) : source opening closing (text.map Piece.item) = text := by
  unfold source
  induction text with
  | nil => rfl
  | cons item rest ih =>
    rw [List.map_cons, List.flatMap_cons, ih]
    rfl

omit [DecidableEq α] in

theorem source_append (parts others : List (Piece α)) : source opening closing (parts ++ others) =
      source opening closing parts ++ source opening closing others := by
  unfold source
  rw [List.flatMap_append]

/-- The placeholders with wanted keys become texts. -/
def fill (wanted : List α → Bool) (value : List α → List α) : Piece α → List (Piece α)
  | .item item => [.item item]
  | .placeholder key => if wanted key then (value key).map Piece.item else [.placeholder key]

omit [DecidableEq α] in

theorem fill_wanted {wanted : List α → Bool} (isWanted : wanted key = true)
    (value : List α → List α) : fill wanted value (.placeholder key) = (value key).map Piece.item :=
  if_pos isWanted

omit [DecidableEq α] in

theorem fill_unwanted {wanted : List α → Bool} (isOther : wanted key = false)
    (value : List α → List α) : fill wanted value (.placeholder key) = [.placeholder key] :=
  if_neg (by rw [isOther]; exact Bool.false_ne_true)

/-- A pattern that reads the placeholders with wanted keys of these pieces, and nothing
else. -/
structure Reads (opening closing : α) (wanted : List α → Bool) (reader : Pattern α)
    (parts : List (Piece α)) : Prop where
  item : ∀ length value others, Piece.item value :: others <:+ parts →
    reader.remainders length (source opening closing (.item value :: others)) = []
  placeholder : ∀ length key others, Piece.placeholder key :: others <:+ parts →
    ∀ rest, rest ∈ reader.remainders length (source opening closing (.placeholder key :: others)) ↔
      wanted key = true ∧ rest = source opening closing others
  other : ∀ length item rest, item ≠ opening → reader.remainders length (item :: rest) = []

section Reading

variable {wanted : List α → Bool} {reader : Pattern α}

omit [DecidableEq α] in

theorem Reads.tail (reads : Reads opening closing wanted reader (part :: parts)) :
    Reads opening closing wanted reader parts where
  item length value others suffix :=
    reads.item length value others (suffix.trans (List.suffix_cons _ _))
  placeholder length key others suffix :=
    reads.placeholder length key others (suffix.trans (List.suffix_cons _ _))
  other := reads.other

omit [DecidableEq α] in

theorem replaceFrom_append {length turns : Nat} {replace : List α → List α}
    (refuses : ∀ length item rest, item ≠ opening → reader.remainders length (item :: rest) = [])
    (front : List α) (plain : ∀ item ∈ front, item ≠ opening) :
    replaceFrom length reader replace (front.length + turns) (front ++ text) =
      front ++ replaceFrom length reader replace turns text := by
  induction front with
  | nil => rw [List.length_nil, Nat.zero_add, List.nil_append, List.nil_append]
  | cons item rest ih =>
    have refused := refuses length item (rest ++ text) (plain item List.mem_cons_self)
    rw [List.length_cons, Nat.add_right_comm, List.cons_append, replaceFrom_refused refused,
      ih fun other member => plain other (List.mem_cons_of_mem _ member)]
    rfl

omit [DecidableEq α] in

theorem replaceFrom_source (replace : List α → List α) (separated : Separated opening closing parts)
    (reads : Reads opening closing wanted reader parts) (length turns : Nat)
    (enough : (source opening closing parts).length ≤ turns) :
    replaceFrom length reader replace turns (source opening closing parts) = source opening closing
        (parts.flatMap (fill wanted fun key => replace (opening :: (key ++ [closing])))) := by
  induction parts generalizing turns with
  | nil => exact replaceFrom_nil turns
  | cons part others ih =>
    have whole : source opening closing (part :: others) =
        Piece.source opening closing part ++ source opening closing others := rfl
    rw [List.flatMap_cons, source_append, whole]
    rw [whole, List.length_append] at enough
    cases part with
    | item value =>
      have refused := reads.item length value others (List.suffix_refl _)
      cases turns with
      | zero => exact absurd enough (by simp [Piece.source])
      | succ turns =>
        have later := ih separated.tail reads.tail turns
          (by simp only [Piece.source, List.length_singleton] at enough; omega)
        exact (replaceFrom_refused refused).trans (congrArg (value :: ·) later)
    | placeholder key =>
      have isKey := separated.keys key List.mem_cons_self
      have read := reads.placeholder length key others (List.suffix_refl _)
      have shape : source opening closing (.placeholder key :: others) =
          opening :: (key ++ [closing] ++ source opening closing others) := rfl
      rw [shape] at read
      rw [← whole, shape]
      simp only [Piece.source, List.length_cons, List.length_append, List.length_nil] at enough
      cases turns with
      | zero => omega
      | succ turns =>
        cases isWanted : wanted key with
        | true =>
          have isFirst : (reader.remainders length
              (opening :: (key ++ [closing] ++ source opening closing others))).head? =
                some (source opening closing others) := by
            cases found : reader.remainders length
                (opening :: (key ++ [closing] ++ source opening closing others)) with
            | nil =>
              have member := (read _).mpr ⟨isWanted, rfl⟩
              rw [found] at member
              cases member
            | cons rest more =>
              rw [List.head?_cons]
              exact congrArg some ((read rest).mp (by rw [found]; simp)).2
          have shorter : (source opening closing others).length ≤
              (key ++ [closing] ++ source opening closing others).length := by
            rw [List.length_append]
            omega
          have later := ih separated.tail reads.tail turns (by omega)
          have taken : (opening :: (key ++ [closing] ++ source opening closing others)).take
              ((key ++ [closing] ++ source opening closing others).length + 1 -
                (source opening closing others).length) = opening :: (key ++ [closing]) := by
            show List.take _ (opening :: (key ++ [closing]) ++ source opening closing others) = _
            apply List.take_left'
            simp only [List.length_cons, List.length_append, List.length_nil]
            omega
          rw [replaceFrom_matched isFirst shorter, later, taken, fill_wanted isWanted, source_items]
        | false =>
          have refused : reader.remainders length
              (opening :: (key ++ [closing] ++ source opening closing others)) = [] := by
            rw [List.eq_nil_iff_forall_not_mem]
            intro rest member
            exact Bool.false_ne_true (isWanted.symm.trans ((read rest).mp member).1)
          have later := ih separated.tail reads.tail (turns - (key ++ [closing]).length)
            (by simp only [List.length_append, List.length_singleton]; omega)
          have plain : ∀ item ∈ key ++ [closing], item ≠ opening := by
            intro item member
            rcases List.mem_append.mp member with inKey | isClosing
            · exact (isKey.2 item inKey).1
            · rw [List.mem_singleton.mp isClosing]
              exact separated.distinct.symm
          have counted : turns = (key ++ [closing]).length +
              (turns - (key ++ [closing]).length) := by
            simp only [List.length_append, List.length_singleton]
            omega
          rw [replaceFrom_refused refused, counted, replaceFrom_append reads.other _ plain,
            later, fill_unwanted isWanted]
          simp [source, Piece.source]

omit [DecidableEq α] in

theorem replaceAll_source (replace : List α → List α) (separated : Separated opening closing parts)
    (reads : Reads opening closing wanted reader parts) :
    reader.replaceAll replace (source opening closing parts) = source opening closing
        (parts.flatMap (fill wanted fun key => replace (opening :: (key ++ [closing])))) :=
  replaceFrom_source replace separated reads _ _ (Nat.le_refl _)

end Reading

theorem reads_exactly (separated : Separated opening closing parts)
    (isKey : IsKey opening closing key) :
    Reads opening closing (fun other => decide (other = key))
      (exactly (opening :: (key ++ [closing]))) parts where
  item length value others suffix := by
    rw [remainders_exactly, if_neg]
    intro isPrefix
    cases (begins_source (separated.of_suffix suffix) isKey).mp isPrefix
  placeholder length other others suffix := by
    intro rest
    have starts := begins_source (separated.of_suffix suffix) isKey
    have shape : source opening closing (.placeholder other :: others) =
        opening :: (other ++ [closing]) ++ source opening closing others := rfl
    rw [mem_exactly, decide_eq_true_eq]
    constructor
    · intro whole
      have same := Piece.placeholder.inj (starts.mp ⟨rest, whole.symm⟩)
      rw [shape, same] at whole
      exact ⟨same, (List.append_cancel_left whole).symm⟩
    · rintro ⟨rfl, rfl⟩
      exact shape
  other length item rest differs := by
    rw [remainders_exactly, if_neg]
    intro isPrefix
    exact differs (List.cons_prefix_cons.mp isPrefix).1.symm

theorem reads_of_first? {wanted : List α → Bool} {reader : Pattern α}
    (reads : ∀ length text rest, rest ∈ reader.remainders length text ↔
      ∃ key, first? opening closing text = some (key, rest) ∧ wanted key = true)
    (separated : Separated opening closing parts)
    (items : ∀ item, Piece.item item ∈ parts → item ≠ opening) :
    Reads opening closing wanted reader parts := by
  have refuses (length : Nat) (item : α) (rest : List α) (differs : item ≠ opening) :
      reader.remainders length (item :: rest) = [] := by
    rw [List.eq_nil_iff_forall_not_mem]
    intro behind member
    obtain ⟨key, found, _⟩ := (reads length _ behind).mp member
    rw [first?, if_neg differs] at found
    cases found
  refine ⟨?_, ?_, refuses⟩
  · intro length value others suffix
    exact refuses length value _ (items value (suffix.subset List.mem_cons_self))
  · intro length key others suffix rest
    have isKey := separated.keys key (suffix.subset List.mem_cons_self)
    have shape : source opening closing (.placeholder key :: others) =
        opening :: (key ++ closing :: source opening closing others) := by
      simp [source, Piece.source]
    rw [reads, shape, first?_placeholder isKey]
    constructor
    · rintro ⟨other, same, isWanted⟩
      rw [Option.some.injEq, Prod.mk.injEq] at same
      rw [same.1]
      exact ⟨isWanted, same.2.symm⟩
    · rintro ⟨isWanted, rfl⟩
      exact ⟨key, rfl, isWanted⟩

/-- A pattern of an opening mark, a wanted key and a closing mark reads the placeholders
with wanted keys. -/
theorem reads_of_mem {wanted : List α → Bool} {reader : Pattern α}
    (reads : ∀ length text rest, rest ∈ reader.remainders length text ↔
      ∃ key, IsKey opening closing key ∧ wanted key = true ∧
        text = opening :: (key ++ closing :: rest))
    (separated : Separated opening closing parts)
    (items : ∀ item, Piece.item item ∈ parts → item ≠ opening) :
    Reads opening closing wanted reader parts := by
  apply reads_of_first? _ separated items
  intro length text rest
  rw [reads]
  apply exists_congr
  intro key
  constructor
  · rintro ⟨isKey, isWanted, rfl⟩
    exact ⟨first?_placeholder isKey rest, isWanted⟩
  · rintro ⟨found, isWanted⟩
    obtain ⟨whole, isKey⟩ := eq_of_first? found
    exact ⟨isKey, isWanted, whole⟩

omit [DecidableEq α] in

/-- A key between the marks occurs in a text when it is one of the placeholders. -/
theorem infix_source (separated : Separated opening closing parts)
    (isKey : IsKey opening closing key) :
    opening :: (key ++ [closing]) <:+: source opening closing parts ↔
      Piece.placeholder key ∈ parts := by
  have skip (front text : List α) (plain : ∀ item ∈ front, item ≠ opening) :
      opening :: (key ++ [closing]) <:+: front ++ text ↔
        opening :: (key ++ [closing]) <:+: text := by
    induction front with
    | nil => rfl
    | cons item rest ih =>
      rw [List.cons_append, List.infix_cons_iff,
        ih fun other member => plain other (List.mem_cons_of_mem _ member)]
      refine ⟨fun either => either.resolve_left fun isPrefix => ?_, .inr⟩
      exact plain item List.mem_cons_self (List.cons_prefix_cons.mp isPrefix).1.symm
  induction parts with
  | nil => simp [source]
  | cons part others ih =>
    have starts := begins_source separated isKey
    have later := ih separated.tail
    have whole : source opening closing (part :: others) =
        Piece.source opening closing part ++ source opening closing others := rfl
    cases part with
    | item value =>
      have shape : source opening closing (.item value :: others) =
          value :: source opening closing others := rfl
      rw [shape] at starts ⊢
      rw [List.infix_cons_iff, List.mem_cons, eq_comm]
      exact or_congr starts later
    | placeholder other =>
      have isOther := separated.keys other List.mem_cons_self
      have plain : ∀ item ∈ other ++ [closing], item ≠ opening := by
        intro item member
        rcases List.mem_append.mp member with inKey | isClosing
        · exact (isOther.2 item inKey).1
        · rw [List.mem_singleton.mp isClosing]
          exact separated.distinct.symm
      have shape : source opening closing (.placeholder other :: others) =
          opening :: (other ++ [closing] ++ source opening closing others) := rfl
      rw [shape] at starts ⊢
      rw [List.infix_cons_iff, skip _ _ plain, List.mem_cons, eq_comm]
      exact or_congr starts later

end Marks

end LosslessMusic.Placeholders
