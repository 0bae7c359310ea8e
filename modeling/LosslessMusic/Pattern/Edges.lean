import LosslessMusic.Pattern.Matching

/-!
# Texts without their edges

Trimming a text on both sides leaves nothing or its core, which begins and ends with no
edge. Collapsing the blanks of a text keeps its core where it is, and gives the words of
the core in their order.
-/

namespace LosslessMusic.Pattern

variable {α : Type}

/-- A text without the edges on both sides. -/
def trimBy (edge : α → Bool) (text : List α) : List α :=
  (text.dropWhile edge).rdropWhile edge

/-- A text that begins and ends with no edge. -/
structure IsCore (edge : α → Bool) (core : List α) : Prop where
  begins : ∃ first rest, core = first :: rest ∧ edge first = false
  ends : ∃ front last, core = front ++ [last] ∧ edge last = false

variable {item : α} {text core : List α} {other : α → Bool}

section Edges

variable {edge : α → Bool}

theorem edges_cases (edge : α → Bool) (text : List α) : (∀ item ∈ text, edge item = true) ∨
      ∃ before core behind, text = before ++ (core ++ behind) ∧
        (∀ item ∈ before, edge item = true) ∧ (∀ item ∈ behind, edge item = true) ∧
        IsCore edge core := by
  have whole : text.takeWhile edge ++ text.dropWhile edge = text := List.takeWhile_append_dropWhile
  have parts : (text.dropWhile edge).rdropWhile edge ++ (text.dropWhile edge).rtakeWhile edge =
      text.dropWhile edge :=
    List.rdropWhile_append_rtakeWhile
  cases dropped : text.dropWhile edge with
  | nil =>
    rw [List.dropWhile_eq_nil_iff] at dropped
    exact .inl dropped
  | cons first rest =>
    have refused : edge first = false := by
      have head := List.head?_dropWhile_not edge text
      rw [dropped] at head
      simpa using head
    have kept : (first :: rest).rdropWhile edge ≠ [] := by
      intro nothing
      rw [List.rdropWhile_eq_nil_iff] at nothing
      exact Bool.false_ne_true (refused.symm.trans (nothing first List.mem_cons_self))
    refine .inr ⟨text.takeWhile edge, (text.dropWhile edge).rdropWhile edge,
      (text.dropWhile edge).rtakeWhile edge, ?_, ?_, ?_, ?_, ?_⟩
    · rw [parts, whole]
    · exact fun item member => List.mem_takeWhile_imp member
    · exact fun item member => List.mem_rtakeWhile_imp member
    · rw [dropped] at parts ⊢
      cases core : (first :: rest).rdropWhile edge with
      | nil => exact absurd core kept
      | cons head others =>
        rw [core, List.cons_append] at parts
        rw [(List.cons.inj parts).1]
        exact ⟨first, others, rfl, refused⟩
    · rw [dropped]
      have last := List.rdropWhile_last_not edge (first :: rest) kept
      exact ⟨_, _, (List.dropLast_append_getLast kept).symm, by simpa using last⟩

theorem dropWhile_append_cons (front : List α) (refused : edge item = false) (rest : List α) :
    (front ++ item :: rest).dropWhile edge = front.dropWhile edge ++ item :: rest := by
  rw [List.dropWhile_append]
  split
  next empty =>
    rw [List.isEmpty_iff] at empty
    rw [empty, List.dropWhile_cons_of_neg (by simp [refused])]
    rfl
  next => rfl

theorem rdropWhile_append_singleton (front : List α) (refused : edge item = false) (rest : List α) :
    (front ++ item :: rest).rdropWhile edge = front ++ item :: rest.rdropWhile edge := by
  unfold List.rdropWhile
  rw [List.reverse_append, List.reverse_cons, List.append_assoc, List.singleton_append,
    dropWhile_append_cons _ refused]
  simp

/-- Trimming an inner edge that is part of the edge leaves less around the core. -/
theorem trimBy_inner {inner : α → Bool} (part : ∀ item, inner item = true → edge item = true)
    (before behind : List α) (isCore : IsCore edge core) :
    trimBy inner (before ++ (core ++ behind)) =
      before.dropWhile inner ++ (core ++ behind.rdropWhile inner) := by
  have outer (item : α) (refused : edge item = false) : inner item = false := by
    cases accepted : inner item with
    | false => rfl
    | true => exact absurd (part item accepted) (by simp [refused])
  obtain ⟨first, rest, isFirst, refusedFirst⟩ := isCore.begins
  obtain ⟨front, last, isLast, refusedLast⟩ := isCore.ends
  have left : (before ++ (core ++ behind)).dropWhile inner =
      before.dropWhile inner ++ (core ++ behind) := by
    rw [isFirst, List.cons_append, dropWhile_append_cons _ (outer first refusedFirst)]
  unfold trimBy
  rw [left, isLast, List.append_assoc, List.singleton_append, ← List.append_assoc,
    rdropWhile_append_singleton _ (outer last refusedLast)]
  simp

theorem trimBy_core {before behind : List α} (allBefore : ∀ item ∈ before, edge item = true)
    (allBehind : ∀ item ∈ behind, edge item = true) (isCore : IsCore edge core) :
    trimBy edge (before ++ (core ++ behind)) = core := by
  rw [trimBy_inner (fun _ accepted => accepted) before behind isCore,
    List.dropWhile_eq_nil_iff.mpr allBefore, List.rdropWhile_eq_nil_iff.mpr allBehind,
    List.nil_append, List.append_nil]

theorem trimBy_all (all : ∀ item ∈ text, edge item = true) : trimBy edge text = [] := by
  unfold trimBy
  rw [List.dropWhile_eq_nil_iff.mpr all]
  rfl

theorem mem_of_mem_trimBy (member : item ∈ trimBy edge text) : item ∈ text :=
  (List.dropWhile_suffix edge).subset ((List.rdropWhile_prefix edge _).subset member)

theorem trimBy_trimBy {inner : α → Bool} (part : ∀ item, inner item = true → edge item = true)
    (text : List α) : trimBy edge (trimBy inner text) = trimBy edge text := by
  rcases edges_cases edge text with all | ⟨before, core, behind, whole, allBefore, allBehind, isCore⟩
  · rw [trimBy_all all, trimBy_all]
    exact fun item member => all item (mem_of_mem_trimBy member)
  · rw [whole, trimBy_inner part before behind isCore, trimBy_core allBefore allBehind isCore,
      trimBy_core _ _ isCore]
    · exact fun item member => allBefore item ((List.dropWhile_suffix inner).subset member)
    · exact fun item member => allBehind item ((List.rdropWhile_prefix inner _).subset member)

theorem dropWhile_congr (same : ∀ item ∈ text, edge item = other item) :
    text.dropWhile edge = text.dropWhile other := by
  induction text with
  | nil => rfl
  | cons item rest ih =>
    rw [List.forall_mem_cons] at same
    rw [List.dropWhile_cons, List.dropWhile_cons, same.1, ih same.2]

theorem trimBy_congr (same : ∀ item ∈ text, edge item = other item) :
    trimBy edge text = trimBy other text := by
  have left := dropWhile_congr same
  unfold trimBy List.rdropWhile
  rw [left, dropWhile_congr]
  intro item member
  exact same item ((List.dropWhile_suffix other).subset (List.mem_reverse.mp member))

end Edges

/-! ## Words -/

section Words

variable {edge blanks : α → Bool} {blank : α}

theorem collapse_append (front : List α) (refused : blanks item = false) (rest : List α) :
    collapse blanks blank (front ++ item :: rest) =
      collapse blanks blank front ++ item :: collapse blanks blank rest :=
  collapseFrom_append false front refused rest

theorem collapse_cons (refused : blanks item = false) (rest : List α) :
    collapse blanks blank (item :: rest) = item :: collapse blanks blank rest :=
  collapse_append [] refused rest

theorem trimBy_collapse (part : ∀ item, blanks item = true → edge item = true)
    (isEdge : edge blank = true) (text : List α) :
    trimBy edge (collapse blanks blank text) = collapse blanks blank (trimBy edge text) := by
  have outer (item : α) (refused : edge item = false) : blanks item = false := by
    cases accepted : blanks item with
    | false => rfl
    | true => exact absurd (part item accepted) (by simp [refused])
  rcases edges_cases edge text with all | ⟨before, core, behind, whole, allBefore, allBehind, isCore⟩
  · rw [trimBy_all all, trimBy_all (forall_mem_collapse (fun item => edge item = true) isEdge all)]
    rfl
  · rw [whole, trimBy_core allBefore allBehind isCore]
    obtain ⟨first, rest, isFirst, refusedFirst⟩ := isCore.begins
    obtain ⟨front, last, isLast, refusedLast⟩ := isCore.ends
    have right : collapse blanks blank (core ++ behind) =
        collapse blanks blank core ++ collapse blanks blank behind := by
      rw [isLast, List.append_assoc, List.singleton_append,
        collapse_append _ (outer last refusedLast), collapse_append _ (outer last refusedLast)]
      simp [collapse, collapseFrom]
    have left : collapse blanks blank (before ++ (core ++ behind)) =
        collapse blanks blank before ++ collapse blanks blank (core ++ behind) := by
      rw [isFirst, List.cons_append, collapse_append _ (outer first refusedFirst),
        collapse_cons (outer first refusedFirst)]
    rw [left, right, trimBy_core]
    · exact forall_mem_collapse (fun item => edge item = true) isEdge allBefore
    · exact forall_mem_collapse (fun item => edge item = true) isEdge allBehind
    · constructor
      · rw [isFirst, collapse_cons (outer first refusedFirst)]
        exact ⟨first, _, rfl, refusedFirst⟩
      · rw [isLast, collapse_append _ (outer last refusedLast)]
        exact ⟨_, last, rfl, refusedLast⟩

/-- The words of a text, which blanks stand between. -/
def words [DecidableEq α] (blanks : α → Bool) (text : List α) : List (List α) :=
  (text.splitOnP blanks).filter (· ≠ [])

variable [DecidableEq α]

theorem words_blank (accepted : blanks item = true) (rest : List α) :
    words blanks (item :: rest) = words blanks rest := by
  unfold words
  rw [List.splitOnP_cons_eq_if_modifyHead, if_pos accepted]
  simp

variable {word : List α}

theorem words_word (nonempty : word ≠ []) (plain : ∀ item ∈ word, blanks item = false)
    (accepted : blanks item = true) (rest : List α) :
    words blanks (word ++ item :: rest) = word :: words blanks rest := by
  unfold words
  rw [List.splitOnP_append_cons_of_forall_mem plain item accepted, List.filter_cons_of_pos]
  simpa using nonempty

theorem words_single (nonempty : word ≠ []) (plain : ∀ item ∈ word, blanks item = false) :
    words blanks word = [word] := by
  unfold words
  rw [List.splitOnP_eq_singleton plain, List.filter_cons_of_pos]
  · rfl
  · simpa using nonempty

theorem words_congr (same : ∀ item ∈ text, blanks item = other item) :
    words blanks text = words other text := by
  have split : text.splitOnP blanks = text.splitOnP other := by
    induction text with
    | nil => rfl
    | cons item rest ih =>
      rw [List.forall_mem_cons] at same
      rw [List.splitOnP_cons_eq_if_modifyHead, List.splitOnP_cons_eq_if_modifyHead, same.1,
        ih same.2]
  unfold words
  rw [split]

theorem words_dropWhile (text : List α) :
    words blanks (text.dropWhile blanks) = words blanks text := by
  induction text with
  | nil => rfl
  | cons item rest ih =>
    cases accepted : blanks item with
    | true =>
      rw [List.dropWhile_cons_of_pos accepted, ih, words_blank accepted]
    | false => rw [List.dropWhile_cons_of_neg (by simp [accepted])]

omit [DecidableEq α] in

theorem collapse_word (plain : ∀ item ∈ word, blanks item = false) (rest : List α) :
    collapse blanks blank (word ++ rest) = word ++ collapse blanks blank rest := by
  induction word with
  | nil => rfl
  | cons item others ih =>
    rw [List.forall_mem_cons] at plain
    rw [List.cons_append, collapse_cons plain.1, ih plain.2, List.cons_append]

theorem intercalate_words (text : List α) (isCore : IsCore blanks text) :
    [blank].intercalate (words blanks text) = collapse blanks blank text := by
  generalize bound : text.length = length
  induction length using Nat.strongRecOn generalizing text with
  | ind length ih =>
    obtain ⟨first, others, isFirst, refused⟩ := isCore.begins
    obtain ⟨front, last, isLast, refusedLast⟩ := isCore.ends
    generalize isWord : text.takeWhile (fun item => !blanks item) = word
    generalize isBehind : text.dropWhile (fun item => !blanks item) = behind
    have whole : word ++ behind = text := by
      rw [← isWord, ← isBehind]
      exact List.takeWhile_append_dropWhile
    have plain : ∀ item ∈ word, blanks item = false := by
      intro item member
      rw [← isWord] at member
      simpa using List.mem_takeWhile_imp member
    have nonempty : word ≠ [] := by
      rw [← isWord, isFirst, List.takeWhile_cons_of_pos (by simp [refused])]
      exact List.cons_ne_nil _ _
    cases behind with
    | nil =>
      rw [List.append_nil] at whole
      rw [← whole, words_single nonempty plain, List.intercalate_singleton]
      have alone : collapse blanks blank (word ++ []) = word ++ collapse blanks blank [] :=
        collapse_word plain []
      rw [List.append_nil] at alone
      rw [alone]
      exact (List.append_nil word).symm
    | cons separator rest =>
      have isBlank : blanks separator = true := by
        have head := List.head?_dropWhile_not (fun item => !blanks item) text
        rw [isBehind] at head
        simpa using head
      generalize isNext : rest.dropWhile blanks = next
      -- What stands behind the blanks ends like the text, so it is a core again.
      have suffix : next <:+ text := by
        rw [← whole, ← isNext]
        exact (List.dropWhile_suffix blanks).trans
          ((List.suffix_cons separator rest).trans (List.suffix_append word _))
      have begins : ∃ head tail, next = head :: tail ∧ blanks head = false := by
        cases next with
        | nil =>
          rw [List.dropWhile_eq_nil_iff] at isNext
          have ends : last ∈ separator :: rest := by
            have both := congrArg List.getLast? (whole.trans isLast)
            rw [List.getLast?_append_of_ne_nil _ (List.cons_ne_nil _ _),
              List.getLast?_concat] at both
            exact List.mem_of_getLast? both
          rcases List.mem_cons.mp ends with same | inRest
          · rw [same, isBlank] at refusedLast
            cases refusedLast
          · rw [isNext last inRest] at refusedLast
            cases refusedLast
        | cons head tail =>
          have refusedHead := List.head?_dropWhile_not blanks rest
          rw [isNext] at refusedHead
          exact ⟨head, tail, rfl, by simpa using refusedHead⟩
      have isNextCore : IsCore blanks next := by
        refine ⟨begins, ?_⟩
        obtain ⟨head, tail, isHead, _⟩ := begins
        have filled : next ≠ [] := by
          rw [isHead]
          exact List.cons_ne_nil _ _
        refine ⟨next.dropLast, next.getLast filled, (List.dropLast_append_getLast filled).symm, ?_⟩
        have same := suffix.getLast filled
        rw [same]
        simp only [isLast, List.getLast_concat]
        exact refusedLast
      have shorter : next.length < length := by
        have counted := congrArg List.length whole
        have fewer : next.length ≤ rest.length := by
          rw [← isNext]
          exact (List.dropWhile_suffix blanks).length_le
        rw [List.length_append, List.length_cons] at counted
        omega
      have later := ih next.length shorter next isNextCore rfl
      have collapsed : collapse blanks blank (separator :: rest) =
          blank :: collapse blanks blank next := by
        rw [← isNext, ← collapseFrom_inside]
        unfold collapse
        rw [collapseFrom, if_pos isBlank, if_neg Bool.false_ne_true]
        rfl
      rw [← whole, words_word nonempty plain isBlank, collapse_word plain, collapsed, ← later,
        ← words_dropWhile, isNext]
      cases others : words blanks next with
      | nil =>
        obtain ⟨head, tail, isHead, refusedHead⟩ := begins
        rw [others, isHead, collapse_cons refusedHead] at later
        cases later
      | cons second more =>
        rw [List.intercalate_cons_cons, List.append_assoc]
        rfl

theorem words_of_all (all : ∀ item ∈ text, blanks item = true) : words blanks text = [] := by
  induction text with
  | nil => rfl
  | cons item rest ih =>
    rw [List.forall_mem_cons] at all
    rw [words_blank all.1, ih all.2]

theorem words_core {before behind : List α} (allBefore : ∀ item ∈ before, blanks item = true)
    (allBehind : ∀ item ∈ behind, blanks item = true) :
    words blanks (before ++ (core ++ behind)) = words blanks core := by
  have left : words blanks (before ++ (core ++ behind)) = words blanks (core ++ behind) := by
    rw [← words_dropWhile, List.dropWhile_append_of_pos allBefore, words_dropWhile]
  rw [left]
  cases behind with
  | nil => rw [List.append_nil]
  | cons item rest =>
    rw [List.forall_mem_cons] at allBehind
    have nothing := words_of_all allBehind.2
    unfold words at nothing ⊢
    rw [List.splitOnP_append_cons core rest allBehind.1, List.filter_append, nothing,
      List.append_nil]

theorem trimBy_words (part : ∀ item, blanks item = true → edge item = true)
    (isEdge : edge blank = true) (text : List α) :
    trimBy edge ([blank].intercalate (words blanks text)) =
      trimBy edge (collapse blanks blank text) := by
  rw [trimBy_collapse part isEdge]
  rcases edges_cases blanks text with
    all | ⟨before, core, behind, whole, allBefore, allBehind, isCore⟩
  · rw [words_of_all all, trimBy_all fun item member => part item (all item member)]
    rfl
  · have inner : trimBy edge text = trimBy edge core := by
      rw [← trimBy_trimBy part text, whole, trimBy_core allBefore allBehind isCore]
    rw [inner, whole, words_core allBefore allBehind, intercalate_words core isCore,
      trimBy_collapse part isEdge]

end Words

theorem replaceAll_outer (accepts : α → Bool) (text : List α) :
    ((either (sequence .start (oneOrMore (.one accepts)))
      (sequence (oneOrMore (.one accepts)) .finish)).replaceAll fun _ => []) text =
        trimBy accepts text := by
  have start (item : α) (rest : List α) (length : Nat) :
      ((sequence .start (oneOrMore (.one accepts))).remainders length (item :: rest)).head? =
        if (item :: rest).length = length ∧ accepts item = true then
          some (rest.dropWhile accepts) else none := by
    rw [remainders, remainders]
    by_cases first : (item :: rest).length = length
    · rw [if_pos first, List.flatMap_cons, List.flatMap_nil, List.append_nil, head?_oneOrMore]
      simp [first]
    · rw [if_neg first, if_neg fun both => first both.1]
      rfl
  have inside (turns : Nat) (rest : List α) (enough : rest.length ≤ turns)
      (later : rest.length < text.length) :
      replaceFrom text.length (either (sequence .start (oneOrMore (.one accepts)))
        (sequence (oneOrMore (.one accepts)) .finish)) (fun _ => []) turns rest =
          rest.rdropWhile accepts := by
    induction turns generalizing rest with
    | zero =>
      rw [List.length_eq_zero_iff.mp (Nat.le_zero.mp enough)]
      rfl
    | succ turns ih =>
      cases rest with
      | nil => rfl
      | cons item others =>
        have before := start item others text.length
        rw [if_neg fun both => Nat.ne_of_lt later both.1, List.head?_eq_none_iff] at before
        have here := remainders_oneOrMore_finish text.length accepts item others
        have both : (either (sequence .start (oneOrMore (.one accepts)))
            (sequence (oneOrMore (.one accepts)) .finish)).remainders text.length
              (item :: others) = (sequence (oneOrMore (.one accepts)) .finish).remainders
                text.length (item :: others) := by
          change _ ++ _ = _
          rw [before]
          rfl
        rw [← both] at here
        by_cases all : (item :: others).all accepts = true
        · rw [if_pos all] at here
          rw [replaceFrom_matched here (Nat.zero_le _), replaceFrom_nil, List.nil_append]
          rw [List.all_eq_true] at all
          exact (List.rdropWhile_eq_nil_iff.mpr all).symm
        · rw [if_neg all, List.head?_eq_none_iff] at here
          rw [replaceFrom_refused here, ih others
            (Nat.le_of_succ_le_succ enough) (Nat.lt_of_succ_lt later)]
          exact (rdropWhile_cons all).symm
  unfold replaceAll trimBy
  cases text with
  | nil => rfl
  | cons item rest =>
    have before := start item rest (item :: rest).length
    have shorter : (rest.dropWhile accepts).length ≤ rest.length :=
      (List.dropWhile_suffix accepts).length_le
    cases accepted : accepts item with
    | true =>
      rw [if_pos ⟨rfl, accepted⟩] at before
      rw [List.dropWhile_cons_of_pos accepted]
      refine (replaceFrom_matched ?_ shorter).trans (inside _ _ shorter (Nat.lt_succ_of_le shorter))
      rw [remainders, List.head?_append, before]
      rfl
    | false =>
      have refused : ¬ (item :: rest).all accepts = true := by simp [accepted]
      rw [if_neg (by simp [accepted]), List.head?_eq_none_iff] at before
      have here := remainders_oneOrMore_finish (item :: rest).length accepts item rest
      rw [if_neg refused, List.head?_eq_none_iff] at here
      rw [List.dropWhile_cons_of_neg (by simp [accepted]), rdropWhile_cons refused,
        ← inside rest.length rest (Nat.le_refl _) (Nat.lt_succ_self _)]
      apply replaceFrom_refused
      rw [remainders, before, here]
      rfl

end LosslessMusic.Pattern
