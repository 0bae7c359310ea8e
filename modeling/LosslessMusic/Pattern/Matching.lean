import Mathlib.Data.List.DropRight
import Mathlib.Data.List.Infix

/-!
# Patterns that backtrack

Patterns over the items of a text, as a backtracking matcher reads them. What a
pattern leaves of a text is the list of all its remainders, the preferred one first;
repetition is greedy and never takes an empty turn.
-/

namespace LosslessMusic

/-- A pattern over items. -/
inductive Pattern (α : Type)
  | nothing
  | one (accepts : α → Bool)
  | start
  | finish
  | sequence (first second : Pattern α)
  | either (first second : Pattern α)
  | many (body : Pattern α)

namespace Pattern

variable {α : Type}

/-- `body+`. -/
def oneOrMore (body : Pattern α) : Pattern α :=
  .sequence body (.many body)

/-- `body?`. -/
def optional (body : Pattern α) : Pattern α :=
  .either body .nothing

/-- The patterns one behind the other. -/
def inOrder (patterns : List (Pattern α)) : Pattern α :=
  patterns.foldr .sequence .nothing

/-- The first of these patterns that leads to a match. -/
def firstOf (patterns : List (Pattern α)) : Pattern α :=
  patterns.foldr .either (.one fun _ => false)

/-- A text that stands for itself. -/
def exactly [DecidableEq α] (text : List α) : Pattern α :=
  inOrder (text.map fun item => .one fun found => decide (found = item))

/-- Greedy repetition of a step that leaves remainders, for at most so many turns. -/
def repeated (step : List α → List (List α)) : Nat → List α → List (List α)
  | 0, text => [text]
  | turns + 1, text =>
    ((step text).filter fun rest => rest.length < text.length).flatMap (repeated step turns) ++
      [text]

/-- What the pattern leaves behind it in a text of so many items, the preferred
remainder first. -/
def remainders (length : Nat) : Pattern α → List α → List (List α)
  | .nothing, text => [text]
  | .one _, [] => []
  | .one accepts, item :: rest => if accepts item then [rest] else []
  | .start, text => if text.length = length then [text] else []
  | .finish, text => if text.isEmpty then [text] else []
  | .sequence first second, text =>
    (remainders length first text).flatMap (remainders length second)
  | .either first second, text => remainders length first text ++ remainders length second text
  | .many body, text => repeated (remainders length body) text.length text

/-- The pattern matches somewhere. -/
def hasMatch (pattern : Pattern α) (text : List α) : Bool :=
  text.tails.any fun rest => !(pattern.remainders text.length rest).isEmpty

/-- The matches of a pattern that matches no empty text, from left to right, each
replaced by what its text is replaced by. -/
def replaceFrom (length : Nat) (pattern : Pattern α) (replace : List α → List α) :
    Nat → List α → List α
  | 0, text => text
  | _ + 1, [] => []
  | turns + 1, item :: rest =>
    match pattern.remainders length (item :: rest) with
    | [] => item :: replaceFrom length pattern replace turns rest
    | remainder :: _ =>
      if remainder.length ≤ rest.length then
        replace ((item :: rest).take (rest.length + 1 - remainder.length)) ++
          replaceFrom length pattern replace turns remainder
      else item :: replaceFrom length pattern replace turns rest

/-- `text.replaceAll(pattern, replace)`. -/
def replaceAll (pattern : Pattern α) (replace : List α → List α) (text : List α) : List α :=
  replaceFrom text.length pattern replace text.length text

/-! ## Remainders -/

section Equations

variable (length : Nat) (step : List α → List (List α)) (turns : Nat) (accepts : α → Bool)
variable (first second : Pattern α) (text : List α)

theorem repeated_zero : repeated step 0 text = [text] :=
  rfl

theorem repeated_succ : repeated step (turns + 1) text =
      ((step text).filter fun rest => rest.length < text.length).flatMap (repeated step turns) ++
        [text] :=
  rfl

theorem remainders_nothing : remainders length .nothing text = [text] :=
  rfl

theorem remainders_one_nil : remainders length (.one accepts) [] = [] :=
  rfl

theorem remainders_one (item : α) :
    remainders length (.one accepts) (item :: text) = if accepts item then [text] else [] :=
  rfl

theorem remainders_start :
    remainders length .start text = if text.length = length then [text] else [] :=
  rfl

theorem remainders_finish : remainders length .finish text = if text.isEmpty then [text] else [] :=
  rfl

theorem remainders_sequence : remainders length (.sequence first second) text =
      (remainders length first text).flatMap (remainders length second) :=
  rfl

theorem remainders_either : remainders length (.either first second) text =
      remainders length first text ++ remainders length second text :=
  rfl

theorem remainders_many :
    remainders length (.many first) text = repeated (remainders length first) text.length text :=
  rfl

end Equations

variable {rest : List α}

theorem suffix_of_mem_repeated {step : List α → List (List α)}
    (steps : ∀ text rest, rest ∈ step text → rest <:+ text) (turns : Nat) {text : List α}
    (member : rest ∈ repeated step turns text) : rest <:+ text := by
  induction turns generalizing text with
  | zero =>
    rw [repeated_zero, List.mem_singleton] at member
    rw [member]
  | succ turns ih =>
    rw [repeated_succ, List.mem_append, List.mem_flatMap, List.mem_singleton] at member
    rcases member with ⟨middle, turn, later⟩ | same
    · have first := steps text middle (List.mem_filter.mp turn).1
      exact (ih later).trans first
    · rw [same]

theorem suffix_of_mem_remainders (length : Nat) (pattern : Pattern α) {text : List α}
    (member : rest ∈ pattern.remainders length text) : rest <:+ text := by
  induction pattern generalizing text rest with
  | nothing =>
    rw [remainders_nothing, List.mem_singleton] at member
    rw [member]
  | one accepts =>
    cases text with
    | nil => cases member
    | cons item others =>
      rw [remainders_one] at member
      split at member
      · rw [List.mem_singleton] at member
        rw [member]
        exact List.suffix_cons item others
      · cases member
  | start =>
    rw [remainders_start] at member
    split at member
    · rw [List.mem_singleton] at member
      rw [member]
    · cases member
  | finish =>
    rw [remainders_finish] at member
    split at member
    · rw [List.mem_singleton] at member
      rw [member]
    · cases member
  | sequence first second firstHypothesis secondHypothesis =>
    rw [remainders_sequence, List.mem_flatMap] at member
    obtain ⟨middle, before, behind⟩ := member
    exact (secondHypothesis behind).trans (firstHypothesis before)
  | either first second firstHypothesis secondHypothesis =>
    rw [remainders_either, List.mem_append] at member
    rcases member with before | behind
    · exact firstHypothesis before
    · exact secondHypothesis behind
  | many body bodyHypothesis =>
    rw [remainders_many] at member
    exact suffix_of_mem_repeated (fun _ _ => bodyHypothesis) text.length member

variable {item : α}

theorem repeated_one_accepted {length turns : Nat} {accepts : α → Bool}
    (accepted : accepts item = true) :
    repeated (remainders length (.one accepts)) (turns + 1) (item :: rest) =
      repeated (remainders length (.one accepts)) turns rest ++ [item :: rest] := by
  rw [repeated_succ, remainders_one, if_pos accepted]
  simp

theorem repeated_one_refused {length turns : Nat} {accepts : α → Bool}
    (refused : accepts item = false) :
    repeated (remainders length (.one accepts)) turns (item :: rest) = [item :: rest] := by
  cases turns with
  | zero => rfl
  | succ turns =>
    rw [repeated_succ, remainders_one, refused]
    rfl

theorem repeated_nil (step : List α → List (List α)) (turns : Nat) :
    repeated step turns [] = [[]] := by
  cases turns with
  | zero => rfl
  | succ turns =>
    rw [repeated_succ]
    simp

theorem head?_many_one (length : Nat) (accepts : α → Bool) (text : List α) :
    ((many (.one accepts)).remainders length text).head? = some (text.dropWhile accepts) := by
  rw [remainders_many]
  induction text with
  | nil => rw [List.length_nil, repeated_zero]; rfl
  | cons item rest ih =>
    cases accepted : accepts item with
    | false =>
      rw [repeated_one_refused accepted, List.dropWhile_cons_of_neg (by simp [accepted])]
      rfl
    | true =>
      rw [List.length_cons, repeated_one_accepted accepted, List.head?_append,
        ih, List.dropWhile_cons_of_pos accepted]
      rfl

theorem any_isEmpty_many_one (length : Nat) (accepts : α → Bool) (text : List α) :
    ((many (.one accepts)).remainders length text).any List.isEmpty = text.all accepts := by
  rw [remainders_many]
  induction text with
  | nil => rw [repeated_nil]; rfl
  | cons item rest ih =>
    cases accepted : accepts item with
    | false =>
      rw [repeated_one_refused accepted]
      simp [accepted]
    | true =>
      rw [List.length_cons, repeated_one_accepted accepted, List.any_append, ih]
      simp [accepted]

theorem mem_nothing {length : Nat} {text : List α} :
    rest ∈ nothing.remainders length text ↔ rest = text := by
  rw [remainders_nothing, List.mem_singleton]

theorem mem_start {length : Nat} {text : List α} :
    rest ∈ start.remainders length text ↔ text.length = length ∧ rest = text := by
  rw [remainders_start]
  split
  next begins => rw [List.mem_singleton, and_iff_right begins]
  next later => exact iff_of_false List.not_mem_nil fun both => later both.1

theorem mem_finish {length : Nat} {text : List α} :
    rest ∈ finish.remainders length text ↔ text = [] ∧ rest = [] := by
  cases text with
  | nil => simp [remainders_finish]
  | cons item others => simp [remainders_finish]

theorem mem_sequence {length : Nat} {first second : Pattern α} {text : List α} :
    rest ∈ (sequence first second).remainders length text ↔
      ∃ middle ∈ first.remainders length text, rest ∈ second.remainders length middle := by
  rw [remainders_sequence, List.mem_flatMap]

theorem mem_either {length : Nat} {first second : Pattern α} {text : List α} :
    rest ∈ (either first second).remainders length text ↔
      rest ∈ first.remainders length text ∨ rest ∈ second.remainders length text := by
  rw [remainders_either, List.mem_append]

theorem mem_one {length : Nat} {accepts : α → Bool} {text : List α} :
    rest ∈ (one accepts).remainders length text ↔
      ∃ item, accepts item = true ∧ text = item :: rest := by
  cases text with
  | nil => simp [remainders_one_nil]
  | cons item others =>
    rw [remainders_one]
    cases accepted : accepts item with
    | true =>
      rw [if_pos rfl, List.mem_singleton]
      constructor
      · rintro rfl
        exact ⟨item, accepted, rfl⟩
      · rintro ⟨_, _, same⟩
        exact (List.cons.inj same).2.symm
    | false =>
      rw [if_neg Bool.false_ne_true]
      constructor
      · intro member
        cases member
      · rintro ⟨other, accepts, same⟩
        rw [← (List.cons.inj same).1, accepted] at accepts
        cases accepts

theorem mem_firstOf {length : Nat} {patterns : List (Pattern α)} {text : List α} :
    rest ∈ (firstOf patterns).remainders length text ↔
      ∃ pattern ∈ patterns, rest ∈ pattern.remainders length text := by
  unfold firstOf
  induction patterns with
  | nil =>
    rw [List.foldr_nil, mem_one]
    simp
  | cons first others ih =>
    rw [List.foldr_cons, mem_either, ih]
    simp

theorem mem_many_one {length : Nat} {accepts : α → Bool} {text : List α} :
    rest ∈ (many (.one accepts)).remainders length text ↔
      ∃ front, (∀ item ∈ front, accepts item = true) ∧ text = front ++ rest := by
  rw [remainders_many]
  induction text generalizing rest with
  | nil =>
    rw [repeated_nil, List.mem_singleton]
    constructor
    · rintro rfl
      exact ⟨[], by simp, rfl⟩
    · rintro ⟨front, _, same⟩
      exact (List.append_eq_nil_iff.mp same.symm).2
  | cons item others ih =>
    cases accepted : accepts item with
    | false =>
      rw [repeated_one_refused accepted, List.mem_singleton]
      constructor
      · rintro rfl
        exact ⟨[], by simp, rfl⟩
      · rintro ⟨front, all, same⟩
        cases front with
        | nil => exact same.symm
        | cons first more =>
          have isFirst := (List.cons.inj same).1
          rw [← isFirst] at all
          exact absurd (all item List.mem_cons_self) (by simp [accepted])
    | true =>
      rw [List.length_cons, repeated_one_accepted accepted, List.mem_append, ih, List.mem_singleton]
      constructor
      · rintro (⟨front, all, same⟩ | rfl)
        · exact ⟨item :: front, List.forall_mem_cons.mpr ⟨accepted, all⟩, by rw [same]; rfl⟩
        · exact ⟨[], by simp, rfl⟩
      · rintro ⟨front, all, same⟩
        cases front with
        | nil => exact .inr same.symm
        | cons first more =>
          exact .inl ⟨more, (List.forall_mem_cons.mp all).2, (List.cons.inj same).2⟩

theorem mem_oneOrMore {length : Nat} {accepts : α → Bool} {text : List α} :
    rest ∈ (oneOrMore (.one accepts)).remainders length text ↔
      ∃ front, front ≠ [] ∧ (∀ item ∈ front, accepts item = true) ∧ text = front ++ rest := by
  unfold oneOrMore
  rw [mem_sequence]
  simp only [mem_one, mem_many_one]
  constructor
  · rintro ⟨_, ⟨item, accepted, rfl⟩, front, all, rfl⟩
    exact ⟨item :: front, List.cons_ne_nil _ _, List.forall_mem_cons.mpr ⟨accepted, all⟩, rfl⟩
  · rintro ⟨front, nonempty, all, rfl⟩
    cases front with
    | nil => exact absurd rfl nonempty
    | cons item others =>
      rw [List.forall_mem_cons] at all
      exact ⟨others ++ rest, ⟨item, all.1, rfl⟩, others, all.2, rfl⟩

/-- A text that stands for itself is matched where the text begins with it. -/
theorem remainders_exactly [DecidableEq α] (length : Nat) (wanted text : List α) :
    (exactly wanted).remainders length text =
      if wanted <+: text then [text.drop wanted.length] else [] := by
  induction wanted generalizing text with
  | nil => rw [if_pos List.nil_prefix]; rfl
  | cons item others ih =>
    have unfolded : (exactly (item :: others)).remainders length text =
        ((Pattern.one fun found => decide (found = item)).remainders length text).flatMap
          ((exactly others).remainders length) := rfl
    rw [unfolded]
    cases text with
    | nil => rw [if_neg (by simp)]; rfl
    | cons first rest =>
      rw [remainders_one]
      by_cases same : first = item
      · subst same
        rw [if_pos (decide_eq_true rfl), List.flatMap_cons, List.flatMap_nil, List.append_nil, ih]
        simp only [List.cons_prefix_cons, true_and, List.length_cons, List.drop_succ_cons]
      · have differs : ¬ item :: others <+: first :: rest := by
          intro isPrefix
          exact same (List.cons_prefix_cons.mp isPrefix).1.symm
        rw [if_neg (by simpa using same), if_neg differs]
        rfl

theorem mem_exactly [DecidableEq α] {length : Nat} {wanted text rest : List α} :
    rest ∈ (exactly wanted).remainders length text ↔ text = wanted ++ rest := by
  rw [remainders_exactly]
  constructor
  · intro member
    split at member
    next isPrefix =>
      obtain ⟨behind, whole⟩ := isPrefix
      rw [List.mem_singleton, ← whole, List.drop_left] at member
      rw [member, whole]
    next => cases member
  · rintro rfl
    rw [if_pos (List.prefix_append _ _), List.drop_left]
    exact List.mem_singleton.mpr rfl

theorem remainders_many_one (length : Nat) {accepts : α → Bool} {next : Pattern α}
    (refuses : ∀ item rest, accepts item = true → next.remainders length (item :: rest) = [])
    (text : List α) :
    (sequence (many (.one accepts)) next).remainders length text =
      next.remainders length (text.dropWhile accepts) := by
  rw [remainders_sequence, remainders_many]
  induction text with
  | nil => rw [repeated_nil]; simp
  | cons item rest ih =>
    cases accepted : accepts item with
    | false =>
      rw [repeated_one_refused accepted, List.dropWhile_cons_of_neg (by simp [accepted])]
      simp
    | true =>
      rw [List.length_cons, repeated_one_accepted accepted, List.flatMap_append,
        ih, List.dropWhile_cons_of_pos accepted]
      simp [refuses item rest accepted]

/-! ## Replacing -/

section Replacing

variable {length : Nat} {pattern : Pattern α} {replace : List α → List α}

theorem replaceFrom_cons (turns : Nat) (item : α) (rest : List α) :
    replaceFrom length pattern replace (turns + 1) (item :: rest) =
      match pattern.remainders length (item :: rest) with
      | [] => item :: replaceFrom length pattern replace turns rest
      | remainder :: _ =>
        if remainder.length ≤ rest.length then
          replace ((item :: rest).take (rest.length + 1 - remainder.length)) ++
            replaceFrom length pattern replace turns remainder
        else item :: replaceFrom length pattern replace turns rest :=
  rfl

variable {good : α → Prop} {text : List α}

/-- What holds of every item of a text and of every replacement holds of the items
behind the replacing. -/
theorem forall_mem_replaceFrom
    (replaced : ∀ found, (∀ item ∈ found, good item) → ∀ item ∈ replace found, good item)
    (turns : Nat) (before : ∀ item ∈ text, good item) :
    ∀ item ∈ replaceFrom length pattern replace turns text, good item := by
  induction turns generalizing text with
  | zero => exact before
  | succ turns ih =>
    cases text with
    | nil =>
      intro item member
      cases member
    | cons first rest =>
      rw [List.forall_mem_cons] at before
      have skipped : ∀ item ∈ first :: replaceFrom length pattern replace turns rest,
          good item := by
        rw [List.forall_mem_cons]
        exact ⟨before.1, ih before.2⟩
      rw [replaceFrom_cons]
      split
      · exact skipped
      next remainder others found =>
        split
        · have suffix : remainder <:+ first :: rest :=
            suffix_of_mem_remainders length pattern (by rw [found]; exact List.mem_cons_self)
          intro item member
          rw [List.mem_append] at member
          rcases member with inside | behind
          · apply replaced _ _ item inside
            intro other inFound
            exact List.forall_mem_cons.mpr before other (List.mem_of_mem_take inFound)
          · apply ih _ item behind
            intro other inRemainder
            exact List.forall_mem_cons.mpr before other (suffix.subset inRemainder)
        · exact skipped

/-- What holds of every item of a text and of every replacement holds of the items
behind the replacing. -/
theorem forall_mem_replaceAll (replaced : ∀ found, ∀ item ∈ replace found, good item)
    (before : ∀ item ∈ text, good item) : ∀ item ∈ pattern.replaceAll replace text, good item :=
  forall_mem_replaceFrom (fun found _ => replaced found) _ before

theorem forall_mem_replaceAll_of_kept
    (replaced : ∀ found, (∀ item ∈ found, good item) → ∀ item ∈ replace found, good item)
    (before : ∀ item ∈ text, good item) : ∀ item ∈ pattern.replaceAll replace text, good item :=
  forall_mem_replaceFrom replaced _ before

variable {turns : Nat}

theorem replaceFrom_refused (none : pattern.remainders length (item :: rest) = []) :
    replaceFrom length pattern replace (turns + 1) (item :: rest) =
      item :: replaceFrom length pattern replace turns rest := by
  rw [replaceFrom_cons, none]

theorem replaceFrom_matched {remainder : List α}
    (first : (pattern.remainders length (item :: rest)).head? = some remainder)
    (shorter : remainder.length ≤ rest.length) :
    replaceFrom length pattern replace (turns + 1) (item :: rest) =
      replace ((item :: rest).take (rest.length + 1 - remainder.length)) ++
        replaceFrom length pattern replace turns remainder := by
  rw [replaceFrom_cons]
  cases found : pattern.remainders length (item :: rest) with
  | nil =>
    rw [found] at first
    cases first
  | cons head others =>
    rw [found, List.head?_cons, Option.some.injEq] at first
    rw [first]
    exact if_pos shorter

/-- Where the preferred match takes no item, the first item stays. -/
theorem replaceFrom_kept
    (kept : ∀ remainder, (pattern.remainders length (item :: rest)).head? = some remainder →
      (item :: rest).length ≤ remainder.length) :
    replaceFrom length pattern replace (turns + 1) (item :: rest) =
      item :: replaceFrom length pattern replace turns rest := by
  rw [replaceFrom_cons]
  cases found : pattern.remainders length (item :: rest) with
  | nil => rfl
  | cons remainder others =>
    rw [found] at kept
    exact if_neg (Nat.not_le.mpr (kept remainder rfl))

theorem replaceFrom_nil (turns : Nat) : replaceFrom length pattern replace turns [] = [] := by
  cases turns with
  | zero => rfl
  | succ turns => rfl

end Replacing

theorem replaceFrom_one {length turns : Nat} (accepts : α → Bool) (replace : List α → List α)
    (text : List α) (enough : text.length ≤ turns) :
    replaceFrom length (.one accepts) replace turns text =
      text.flatMap fun item => if accepts item then replace [item] else [item] := by
  induction text generalizing turns with
  | nil => exact replaceFrom_nil turns
  | cons item rest ih =>
    cases turns with
    | zero => exact absurd enough (Nat.not_succ_le_zero _)
    | succ turns =>
      have later := ih (Nat.le_of_succ_le_succ enough)
      rw [List.flatMap_cons, ← later]
      cases accepted : accepts item with
      | false =>
        rw [replaceFrom_refused (by rw [remainders_one, accepted]; rfl)]
        rfl
      | true =>
        rw [replaceFrom_matched (by rw [remainders_one, if_pos accepted]; rfl) (Nat.le_refl _),
          if_pos rfl]
        simp

theorem replaceAll_one (accepts : α → Bool) (replace : List α → List α) (text : List α) :
    (Pattern.one accepts).replaceAll replace text =
      text.flatMap fun item => if accepts item then replace [item] else [item] :=
  replaceFrom_one accepts replace text (Nat.le_refl _)

/-- Some accepted items match where an accepted item stands, and then as far as they
are accepted. -/
theorem head?_oneOrMore (length : Nat) (accepts : α → Bool) (item : α) (rest : List α) :
    ((oneOrMore (.one accepts)).remainders length (item :: rest)).head? =
      if accepts item then some (rest.dropWhile accepts) else none := by
  unfold oneOrMore
  rw [remainders_sequence, remainders_one]
  cases accepts item with
  | false => rfl
  | true =>
    rw [if_pos rfl, if_pos rfl, List.flatMap_cons, List.flatMap_nil, List.append_nil]
    exact head?_many_one length accepts rest

/-- Accepted items are taken away at the start of a text. -/
theorem replaceAll_start (accepts : α → Bool) (text : List α) :
    ((sequence .start (oneOrMore (.one accepts))).replaceAll fun _ => []) text =
      text.dropWhile accepts := by
  have inside (turns : Nat) (rest : List α) (later : rest.length < text.length) :
      replaceFrom text.length (sequence .start (oneOrMore (.one accepts))) (fun _ => []) turns rest =
        rest := by
    induction turns generalizing rest with
    | zero => rfl
    | succ turns ih =>
      cases rest with
      | nil => rfl
      | cons item others =>
        rw [replaceFrom_refused, ih]
        · exact Nat.lt_of_succ_lt later
        · rw [remainders_sequence, remainders_start, if_neg (Nat.ne_of_lt later)]
          rfl
  unfold replaceAll
  cases text with
  | nil => rfl
  | cons item rest =>
    have here : ((sequence .start (oneOrMore (.one accepts))).remainders (item :: rest).length
        (item :: rest)).head? =
          if accepts item then some (rest.dropWhile accepts) else none := by
      rw [remainders_sequence, remainders_start, if_pos rfl, List.flatMap_cons, List.flatMap_nil,
        List.append_nil]
      exact head?_oneOrMore _ accepts item rest
    have shorter : (rest.dropWhile accepts).length ≤ rest.length :=
      (List.dropWhile_suffix accepts).length_le
    cases accepted : accepts item with
    | false =>
      rw [accepted, if_neg Bool.false_ne_true, List.head?_eq_none_iff] at here
      rw [List.dropWhile_cons_of_neg (by simp [accepted])]
      exact (replaceFrom_refused here).trans
        (congrArg (item :: ·) (inside _ _ (Nat.lt_succ_self _)))
    | true =>
      rw [accepted, if_pos rfl] at here
      rw [List.dropWhile_cons_of_pos accepted]
      exact (replaceFrom_matched here shorter).trans (inside _ _ (Nat.lt_succ_of_le shorter))

/-- Accepted items match to the end of a text when there are only such. -/
theorem remainders_oneOrMore_finish (length : Nat) (accepts : α → Bool) (item : α) (rest : List α) :
    ((sequence (oneOrMore (.one accepts)) .finish).remainders length (item :: rest)).head? =
      if (item :: rest).all accepts then some [] else none := by
  have ends (found : List (List α)) : (found.flatMap (remainders length .finish)).head? =
        if found.any List.isEmpty then some ([] : List α) else none := by
    induction found with
    | nil => rfl
    | cons first others ih =>
      rw [List.flatMap_cons, remainders_finish]
      cases first with
      | nil => rfl
      | cons head tail => exact ih
  unfold oneOrMore
  rw [remainders_sequence, ends, remainders_sequence, remainders_one]
  cases accepted : accepts item with
  | false => simp [accepted]
  | true =>
    rw [if_pos rfl, List.flatMap_cons, List.flatMap_nil, List.append_nil,
      any_isEmpty_many_one, List.all_cons, accepted, Bool.true_and]

theorem rdropWhile_cons {accepts : α → Bool} (refused : ¬ (item :: rest).all accepts = true) :
    (item :: rest).rdropWhile accepts = item :: rest.rdropWhile accepts := by
  unfold List.rdropWhile
  rw [List.reverse_cons, List.dropWhile_append]
  cases kept : rest.reverse.dropWhile accepts with
  | nil =>
    have others : rest.all accepts = true := by
      rw [List.dropWhile_eq_nil_iff] at kept
      rw [List.all_eq_true]
      intro other member
      exact kept other (List.mem_reverse.mpr member)
    have first : accepts item = false := by
      rw [List.all_cons, others, Bool.and_true, Bool.not_eq_true] at refused
      exact refused
    simp [first]
  | cons last front => simp

theorem replaceAll_finish (accepts : α → Bool) (text : List α) :
    ((sequence (oneOrMore (.one accepts)) .finish).replaceAll fun _ => []) text =
      text.rdropWhile accepts := by
  have general (length turns : Nat) (rest : List α) (enough : rest.length ≤ turns) :
      replaceFrom length (sequence (oneOrMore (.one accepts)) .finish) (fun _ => []) turns rest =
        rest.rdropWhile accepts := by
    induction turns generalizing rest with
    | zero =>
      rw [List.length_eq_zero_iff.mp (Nat.le_zero.mp enough)]
      rfl
    | succ turns ih =>
      cases rest with
      | nil => rfl
      | cons item others =>
        have here := remainders_oneOrMore_finish length accepts item others
        by_cases all : (item :: others).all accepts = true
        · rw [if_pos all] at here
          rw [replaceFrom_matched here (Nat.zero_le _), replaceFrom_nil, List.nil_append]
          rw [List.all_eq_true] at all
          exact (List.rdropWhile_eq_nil_iff.mpr all).symm
        · rw [if_neg all, List.head?_eq_none_iff] at here
          rw [replaceFrom_refused here, ih others (Nat.le_of_succ_le_succ enough)]
          exact (rdropWhile_cons all).symm
  exact general _ _ text (Nat.le_refl _)

/-! ## Collapsing runs -/

/-- Each run of accepted items becomes one item; `inside` such a run nothing is added. -/
def collapseFrom (accepts : α → Bool) (blank : α) (inside : Bool) : List α → List α
  | [] => []
  | item :: rest =>
    if accepts item then
      (if inside then [] else [blank]) ++ collapseFrom accepts blank true rest
    else item :: collapseFrom accepts blank false rest

/-- Each run of accepted items becomes one item. -/
def collapse (accepts : α → Bool) (blank : α) (text : List α) : List α :=
  collapseFrom accepts blank false text

section Collapsing

variable {accepts : α → Bool} {blank : α}

theorem collapseFrom_cons (inside : Bool) (item : α) (rest : List α) :
    collapseFrom accepts blank inside (item :: rest) =
      if accepts item then
        (if inside then [] else [blank]) ++ collapseFrom accepts blank true rest
      else item :: collapseFrom accepts blank false rest :=
  rfl

theorem collapseFrom_inside (text : List α) :
    collapseFrom accepts blank true text = collapse accepts blank (text.dropWhile accepts) := by
  induction text with
  | nil => rfl
  | cons item rest ih =>
    cases accepted : accepts item with
    | true =>
      rw [collapseFrom_cons, if_pos accepted, if_pos rfl, List.nil_append, ih,
        List.dropWhile_cons_of_pos accepted]
    | false =>
      rw [List.dropWhile_cons_of_neg (by simp [accepted])]
      unfold collapse
      rw [collapseFrom_cons, collapseFrom_cons, accepted]
      rfl

theorem collapseFrom_append (inside : Bool) (front : List α) (refused : accepts item = false)
    (rest : List α) :
    collapseFrom accepts blank inside (front ++ item :: rest) =
      collapseFrom accepts blank inside front ++ item :: collapse accepts blank rest := by
  induction front generalizing inside with
  | nil =>
    rw [List.nil_append]
    simp only [collapseFrom_cons, refused]
    rfl
  | cons first others ih =>
    rw [List.cons_append, collapseFrom_cons, collapseFrom_cons]
    split
    · rw [ih, List.append_assoc]
    · rw [ih, List.cons_append]

theorem forall_mem_collapseFrom (good : α → Prop) (isBlank : good blank) (inside : Bool)
    {text : List α} (before : ∀ item ∈ text, good item) :
    ∀ item ∈ collapseFrom accepts blank inside text, good item := by
  induction text generalizing inside with
  | nil =>
    intro item member
    cases member
  | cons first rest ih =>
    rw [List.forall_mem_cons] at before
    intro item member
    rw [collapseFrom_cons] at member
    split at member
    · rcases List.mem_append.mp member with added | later
      · split at added
        · cases added
        · rw [List.mem_singleton.mp added]
          exact isBlank
      · exact ih _ before.2 item later
    · rcases List.mem_cons.mp member with same | later
      · rw [same]
        exact before.1
      · exact ih _ before.2 item later

theorem forall_mem_collapse (good : α → Prop) (isBlank : good blank) {text : List α}
    (before : ∀ item ∈ text, good item) : ∀ item ∈ collapse accepts blank text, good item :=
  forall_mem_collapseFrom good isBlank false before

end Collapsing

/-- Replacing runs of accepted items by one item collapses them. -/
theorem replaceAll_oneOrMore (accepts : α → Bool) (blank : α) (text : List α) :
    ((oneOrMore (.one accepts)).replaceAll fun _ => [blank]) text =
      collapse accepts blank text := by
  have general (length turns : Nat) (rest : List α) (enough : rest.length ≤ turns) :
      replaceFrom length (oneOrMore (.one accepts)) (fun _ => [blank]) turns rest =
        collapse accepts blank rest := by
    induction turns generalizing rest with
    | zero =>
      rw [List.length_eq_zero_iff.mp (Nat.le_zero.mp enough)]
      rfl
    | succ turns ih =>
      cases rest with
      | nil => rfl
      | cons item others =>
        have here := head?_oneOrMore length accepts item others
        have shorter : (others.dropWhile accepts).length ≤ others.length :=
          (List.dropWhile_suffix accepts).length_le
        have bound : others.length ≤ turns := Nat.le_of_succ_le_succ enough
        unfold collapse
        rw [collapseFrom_cons]
        cases accepted : accepts item with
        | false =>
          rw [accepted, if_neg Bool.false_ne_true, List.head?_eq_none_iff] at here
          rw [replaceFrom_refused here, ih others bound]
          rfl
        | true =>
          rw [accepted, if_pos rfl] at here
          rw [replaceFrom_matched here shorter, ih _ (Nat.le_trans shorter bound), if_pos rfl,
            collapseFrom_inside]
          rfl
  exact general _ _ text (Nat.le_refl _)

end Pattern
end LosslessMusic
