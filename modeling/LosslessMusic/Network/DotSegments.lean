import LosslessMusic.Network.Url

/-!
# Dot segments of a path

The path that `resolve_path` makes of a base and a reference, beside the merge and the removal of
dot segments of RFC 3986, which works on an input and an output buffer.
-/

namespace LosslessMusic.Network

open Codec Address

/-! ## What is meant -/

/-- The path that a reference stands for: the base, the reference, or the two merged. -/
def mergedPath (base reference : Bytes) : Bytes :=
  if reference = [] then base
  else if reference.head? = some (code '/') then reference
  else match rsplitOnce (code '/') base with
    | some (front, _) => front ++ ascii "/" ++ reference
    | none => reference

/-- The output buffer without its last segment and the slash before it. -/
def withoutSegment (output : Bytes) : Bytes :=
  match rsplitOnce (code '/') output with
  | some (front, _) => front
  | none => []

/-- The first segment of the input buffer, with the slash before it. -/
def firstSegment (input : Bytes) : Bytes :=
  input.take 1 ++ (input.drop 1).takeWhile (· ≠ code '/')

/-- The removal of dot segments, from an input to an output buffer. -/
def removeDotSegments (input output : Bytes) : Bytes :=
  if input = [] then output
  else if ascii "../" <+: input then removeDotSegments (input.drop 3) output
  else if ascii "./" <+: input then removeDotSegments (input.drop 2) output
  else if ascii "/./" <+: input then removeDotSegments (input.drop 2) output
  else if input = ascii "/." then removeDotSegments (ascii "/") output
  else if ascii "/../" <+: input then removeDotSegments (input.drop 3) (withoutSegment output)
  else if input = ascii "/.." then removeDotSegments (ascii "/") (withoutSegment output)
  else if input = ascii "." ∨ input = ascii ".." then output
  else removeDotSegments (input.drop (firstSegment input).length) (output ++ firstSegment input)
termination_by input.length
decreasing_by
  all_goals have present : 0 < input.length := List.length_pos_iff.mpr ‹_›
  · rw [List.length_drop]; omega
  · rw [List.length_drop]; omega
  · rw [List.length_drop]; omega
  · rw [‹input = ascii "/."›]; decide
  · rw [List.length_drop]; omega
  · rw [‹input = ascii "/.."›]; decide
  · have nonempty : 0 < (firstSegment input).length := by
      unfold firstSegment
      rw [List.length_append, List.length_take]
      omega
    rw [List.length_drop]
    omega

/-- Whether a segment is a dot segment. -/
def IsDot (part : Bytes) : Prop :=
  part = ascii "." ∨ part = ascii ".."

instance (part : Bytes) : Decidable (IsDot part) := by
  unfold IsDot
  infer_instance

/-- The kept segments with one more, each with the segment before it. -/
def keep (kept : List (Bytes × Bytes)) (previous part : Bytes) : List (Bytes × Bytes) :=
  if part = ascii "." then kept
  else if part = ascii ".." then kept.tail
  else (previous, part) :: kept

/-- The segments that are kept of a path, the last one first. -/
def keptFrom (kept : List (Bytes × Bytes)) (previous : Bytes) : List Bytes → List (Bytes × Bytes)
  | [] => kept
  | part :: rest => keptFrom (keep kept previous part) part rest

/-- The segments of a path from the root. -/
def segments (path : Bytes) : List Bytes :=
  (path.splitOn (code '/')).tail

/-- The first segment that is kept is an empty one directly behind `..`, and the path goes on
behind it. -/
def Swallowed (path : Bytes) : Prop :=
  (keptFrom [] [] (segments path)).getLast? = some (ascii "..", []) ∧
    ¬((keptFrom [] [] (segments path)).length = 1 ∧ (segments path).getLast? = some [])

instance (path : Bytes) : Decidable (Swallowed path) := by
  unfold Swallowed
  infer_instance

/-- Every `%` of a path begins an escape. -/
def IsEscaped (path : Bytes) : Prop :=
  (decode path .path).isSome

/-- What is promised of a resolved path. -/
structure ResolvesPath (base reference : Bytes) : Prop where
  removes : resolvePath base reference = removeDotSegments (mergedPath base reference) []
  escaped : IsEscaped base → IsEscaped reference → IsEscaped (resolvePath base reference)
  stable : resolvePath base reference ≠ [] →
    resolvePath (resolvePath base reference) [] = resolvePath base reference

/-! ## Segments behind slashes -/

/-- Segments, each behind a slash. -/
def joined (parts : List Bytes) : Bytes :=
  parts.flatMap (code '/' :: ·)

@[simp]
theorem joined_nil : joined [] = [] :=
  rfl

@[simp]
theorem joined_cons (part : Bytes) (rest : List Bytes) :
    joined (part :: rest) = code '/' :: (part ++ joined rest) :=
  rfl

theorem joined_append (front back : List Bytes) :
    joined (front ++ back) = joined front ++ joined back :=
  List.flatMap_append

theorem splitOn_joined (parts : List Bytes) (slashless : ∀ part ∈ parts, code '/' ∉ part)
    (first : Bytes) (free : code '/' ∉ first) :
    (first ++ joined parts).splitOn (code '/') = first :: parts := by
  induction parts generalizing first with
  | nil =>
    rw [joined_nil, List.append_nil]
    exact List.splitOn_eq_singleton free
  | cons part rest ih =>
    obtain ⟨here, later⟩ := List.forall_mem_cons.mp slashless
    rw [joined_cons, List.splitOn_append_cons_self_of_not_mem free, ih later part here]

variable {parts : List Bytes}

theorem segments_joined (slashless : ∀ part ∈ parts, code '/' ∉ part) :
    segments (joined parts) = parts := by
  unfold segments
  rw [← List.nil_append (joined parts), splitOn_joined parts slashless [] List.not_mem_nil,
    List.tail_cons]

theorem exists_joined (text : Bytes) : ∃ first parts, text = first ++ joined parts ∧
    code '/' ∉ first ∧ ∀ part ∈ parts, code '/' ∉ part := by
  induction text with
  | nil => exact ⟨[], [], rfl, List.not_mem_nil, fun _ => nofun⟩
  | cons byte rest ih =>
    obtain ⟨first, parts, same, free, slashless⟩ := ih
    by_cases slash : byte = code '/'
    · exact ⟨[], first :: parts, by rw [same, slash]; rfl, List.not_mem_nil,
        List.forall_mem_cons.mpr ⟨free, slashless⟩⟩
    · exact ⟨byte :: first, parts, by rw [same]; rfl,
        List.not_mem_cons_of_ne_of_not_mem (Ne.symm slash) free, slashless⟩

theorem exists_segments {path : Bytes} (rooted : path.head? = some (code '/')) :
    ∃ parts, parts ≠ [] ∧ path = joined parts ∧ ∀ part ∈ parts, code '/' ∉ part := by
  obtain ⟨rest, same⟩ := List.head?_eq_some_iff.mp rooted
  obtain ⟨first, parts, text, free, slashless⟩ := exists_joined rest
  exact ⟨first :: parts, List.cons_ne_nil _ _, by rw [same, text]; rfl,
    List.forall_mem_cons.mpr ⟨free, slashless⟩⟩

theorem head?_mergedPath {base : Bytes} (rooted : base.head? = some (code '/'))
    (reference : Bytes) : (mergedPath base reference).head? = some (code '/') := by
  unfold mergedPath
  split
  next => exact rooted
  next =>
    split
    next rootedToo => exact rootedToo
    next =>
      split
      next front back split =>
        obtain ⟨same, _⟩ := rsplitOnce_eq_some split
        rw [same] at rooted
        cases front with
        | nil => rfl
        | cons byte rest => exact rooted
      next absent =>
        exact absurd (List.mem_of_mem_head? rooted) (rsplitOnce_eq_none absent)

/-! ## The removal on segments -/

/-- The slash behind a dot segment at the end of a path. -/
def closing (last : Bytes) : Bytes :=
  if IsDot last then ascii "/" else []

/-- The text of the kept segments. -/
def written (kept : List (Bytes × Bytes)) : Bytes :=
  joined (kept.reverse.map Prod.snd)

theorem written_cons (previous part : Bytes) (kept : List (Bytes × Bytes)) :
    written ((previous, part) :: kept) = written kept ++ code '/' :: part := by
  unfold written
  rw [List.reverse_cons, List.map_append, joined_append]
  simp

variable {part : Bytes}

theorem takeWhile_joined (free : code '/' ∉ part) (rest : List Bytes) :
    (part ++ joined rest).takeWhile (· ≠ code '/') = part := by
  have all : ∀ byte ∈ part, decide (byte ≠ code '/') = true := fun byte member =>
    decide_eq_true fun same => free (same ▸ member)
  rw [List.takeWhile_append_of_pos all]
  cases rest with
  | nil => exact List.append_nil _
  | cons next later => simp

variable {other : Bytes}

theorem part_eq (free : code '/' ∉ part) (otherFree : code '/' ∉ other)
    {rest later : List Bytes} (same : part ++ joined rest = other ++ joined later) :
    part = other := by
  rw [← takeWhile_joined free rest, same, takeWhile_joined otherFree]

variable {kept : List (Bytes × Bytes)}

theorem withoutSegment_written (slashless : ∀ pair ∈ kept, code '/' ∉ pair.2) :
    withoutSegment (written kept) = written kept.tail := by
  cases kept with
  | nil => rfl
  | cons pair rest =>
    unfold withoutSegment
    rw [written_cons, rsplitOnce_append (slashless pair List.mem_cons_self)]
    rfl

theorem prefix_joined_iff (free : code '/' ∉ part)
    (otherFree : code '/' ∉ other) (rest : List Bytes) :
    code '/' :: (other ++ ascii "/") <+: joined (part :: rest) ↔ part = other ∧ rest ≠ [] := by
  constructor
  · rintro ⟨behind, same⟩
    obtain ⟨first, parts, text, _, _⟩ := exists_joined behind
    have both : part ++ joined rest = other ++ joined (first :: parts) := by
      rw [joined_cons, List.cons_append, List.append_assoc] at same
      rw [joined_cons, ← text]
      exact (List.cons.inj same).2.symm
    have here := part_eq free otherFree both
    rw [here] at both
    refine ⟨here, fun empty => ?_⟩
    rw [empty] at both
    cases List.append_cancel_left both
  · rintro ⟨rfl, present⟩
    obtain ⟨next, later, rfl⟩ := List.exists_cons_of_ne_nil present
    exact ⟨next ++ joined later, by simp [ascii]⟩

theorem joined_eq_iff (free : code '/' ∉ part) (otherFree : code '/' ∉ other)
    (rest : List Bytes) : joined (part :: rest) = code '/' :: other ↔ part = other ∧ rest = [] := by
  constructor
  · intro same
    have both : part ++ joined rest = other ++ joined [] := by
      rw [joined_nil, List.append_nil]
      exact (List.cons.inj same).2
    have here := part_eq free otherFree both
    rw [here] at both
    refine ⟨here, ?_⟩
    cases rest with
    | nil => rfl
    | cons next later => cases List.append_cancel_left both
  · rintro ⟨rfl, rfl⟩
    exact congrArg _ (List.append_nil _)

theorem not_prefix_joined {byte : UInt8} (other : byte ≠ code '/') (text : Bytes) (part : Bytes)
    (rest : List Bytes) : ¬byte :: text <+: joined (part :: rest) := fun start =>
  other (List.cons_prefix_cons.mp start).1

theorem firstSegment_joined (free : code '/' ∉ part) (rest : List Bytes) :
    firstSegment (joined (part :: rest)) = code '/' :: part :=
  congrArg (code '/' :: ·) (takeWhile_joined free rest)

/-- What the removal does with the first segment of its input. -/
theorem removeDotSegments_joined (free : code '/' ∉ part) (rest : List Bytes) (output : Bytes) :
    removeDotSegments (joined (part :: rest)) output =
      if part = ascii "." then removeDotSegments (joined (if rest = [] then [[]] else rest)) output
      else if part = ascii ".." then
        removeDotSegments (joined (if rest = [] then [[]] else rest)) (withoutSegment output)
      else removeDotSegments (joined rest) (output ++ code '/' :: part) := by
  have dot : ascii "/./" <+: joined (part :: rest) ↔ part = ascii "." ∧ rest ≠ [] :=
    prefix_joined_iff free (by decide : code '/' ∉ ascii ".") rest
  have dots : ascii "/../" <+: joined (part :: rest) ↔ part = ascii ".." ∧ rest ≠ [] :=
    prefix_joined_iff free (by decide : code '/' ∉ ascii "..") rest
  have dotEnd : joined (part :: rest) = ascii "/." ↔ part = ascii "." ∧ rest = [] :=
    joined_eq_iff free (by decide : code '/' ∉ ascii ".") rest
  have dotsEnd : joined (part :: rest) = ascii "/.." ↔ part = ascii ".." ∧ rest = [] :=
    joined_eq_iff free (by decide : code '/' ∉ ascii "..") rest
  have plain : ¬(joined (part :: rest) = ascii "." ∨ joined (part :: rest) = ascii "..") := by
    rintro (same | same) <;> exact absurd (List.cons.inj same).1 (by decide)
  have up : ¬ascii "../" <+: joined (part :: rest) := not_prefix_joined (by decide) _ _ _
  have here : ¬ascii "./" <+: joined (part :: rest) := not_prefix_joined (by decide) _ _ _
  rw [removeDotSegments.eq_def, if_neg (by simp : joined (part :: rest) ≠ []), if_neg up,
    if_neg here, if_neg plain]
  simp only [dot, dots, dotEnd, dotsEnd]
  by_cases one : part = ascii "."
  · subst one
    cases rest with
    | nil => simp [ascii]
    | cons next later => simp [ascii]
  · by_cases two : part = ascii ".."
    · subst two
      cases rest with
      | nil => simp [ascii]
      | cons next later => simp [ascii]
    · simp only [one, two, false_and, if_false, firstSegment_joined free]
      exact congrArg (removeDotSegments · _) List.drop_left

theorem removeDotSegments_nil (output : Bytes) : removeDotSegments [] output = output := by
  rw [removeDotSegments.eq_def, if_pos rfl]

theorem removeDotSegments_slash (output : Bytes) :
    removeDotSegments (joined [[]]) output = output ++ ascii "/" := by
  rw [removeDotSegments_joined List.not_mem_nil, if_neg (by decide), if_neg (by decide)]
  exact removeDotSegments_nil _

variable {pair : Bytes × Bytes}

theorem mem_keep {previous : Bytes} (member : pair ∈ keep kept previous part) :
    pair ∈ kept ∨ pair = (previous, part) ∧ ¬IsDot part := by
  unfold keep at member
  split at member
  next => exact .inl member
  next one =>
    split at member
    next => exact .inl (List.mem_of_mem_tail member)
    next two => exact (List.mem_cons.mp member).symm.imp_right fun same =>
      ⟨same, fun dot => dot.elim one two⟩

/-- The buffers hold the segments that are left and those that are kept. -/
theorem removeDotSegments_written (present : parts ≠ [])
    (slashless : ∀ part ∈ parts, code '/' ∉ part) (kept : List (Bytes × Bytes)) (previous : Bytes)
    (free : ∀ pair ∈ kept, code '/' ∉ pair.2) :
    removeDotSegments (joined parts) (written kept) =
      written (keptFrom kept previous parts) ++ closing (parts.getLastD previous) := by
  induction parts generalizing kept previous with
  | nil => exact absurd rfl present
  | cons part rest ih =>
    obtain ⟨here, later⟩ := List.forall_mem_cons.mp slashless
    have freeToo : ∀ pair ∈ keep kept previous part, code '/' ∉ pair.2 := fun pair member =>
      (mem_keep member).elim (free pair) fun same => by rw [same.1]; exact here
    have step : removeDotSegments (joined (part :: rest)) (written kept) =
        if IsDot part ∧ rest = [] then written (keep kept previous part) ++ ascii "/"
        else removeDotSegments (joined rest) (written (keep kept previous part)) := by
      rw [removeDotSegments_joined here, withoutSegment_written free]
      unfold keep
      by_cases one : part = ascii "."
      · rw [if_pos one, if_pos one]
        by_cases empty : rest = []
        · rw [if_pos empty, if_pos ⟨.inl one, empty⟩, removeDotSegments_slash]
        · rw [if_neg empty, if_neg fun both => empty both.2]
      · rw [if_neg one, if_neg one]
        by_cases two : part = ascii ".."
        · rw [if_pos two, if_pos two]
          by_cases empty : rest = []
          · rw [if_pos empty, if_pos ⟨.inr two, empty⟩, removeDotSegments_slash]
          · rw [if_neg empty, if_neg fun both => empty both.2]
        · rw [if_neg two, if_neg two, if_neg fun both => both.1.elim one two, written_cons]
    rw [step]
    cases rest with
    | nil =>
      by_cases dot : IsDot part
      · rw [if_pos ⟨dot, rfl⟩]
        exact congrArg _ (if_pos dot).symm
      · rw [if_neg fun both => dot both.1, joined_nil, removeDotSegments_nil]
        exact (List.append_nil _).symm.trans (congrArg _ (if_neg dot).symm)
    | cons next others =>
      rw [if_neg fun both => List.cons_ne_nil _ _ both.2]
      exact ih (List.cons_ne_nil _ _) later (keep kept previous part) part freeToo

/-! ## The loop of `resolve_path` -/

/-- How the result shows the segments that are still in it: behind one slash more than they
have, or, once the first of them was not empty behind a climb to the root, just as they are. -/
inductive Shows : List (Bytes × Bytes) → Resolving → Prop
  | fresh (last : Bytes) : Shows [] ⟨ascii "/", true, last⟩
  | slashed (own : List (Bytes × Bytes)) (last : Bytes) :
      Shows own ⟨ascii "/" ++ written own, false, last⟩
  | plain (own : List (Bytes × Bytes)) (previous part last : Bytes) (present : part ≠ []) :
      Shows (own ++ [(previous, part)]) ⟨written (own ++ [(previous, part)]), false, last⟩

/-- The kept segments are those that the result shows, and below them those that were lost: empty
ones directly behind a climb to the root. -/
structure Follows (own lost : List (Bytes × Bytes)) (state : Resolving) : Prop where
  shown : Shows own state
  lost : ∀ pair ∈ lost, pair = (ascii "..", [])
  fresh : state.first = true → state.last = ascii ".."
  climbed : state.last = ascii ".." → own = [] → state.first = true
  bottom : own.getLast? ≠ some (ascii "..", [])

theorem follows_start : Follows [] [] (Resolving.step ⟨ascii "/", true, []⟩ []) :=
  ⟨.slashed [] [], fun _ => nofun, nofun, nofun, nofun⟩

variable {own : List (Bytes × Bytes)}

theorem written_ne_nil (present : own ≠ []) : written own ≠ [] := by
  obtain ⟨⟨previous, part⟩, rest, rfl⟩ := List.exists_cons_of_ne_nil present
  rw [written_cons]
  exact List.append_ne_nil_of_right_ne_nil _ (List.cons_ne_nil _ _)

variable {text : Bytes}

theorem withoutLast_written (free : code '/' ∉ part) (byte : UInt8) :
    withoutLast (byte :: (text ++ code '/' :: part)) = byte :: text := by
  unfold withoutLast
  rw [List.drop_one, List.tail_cons, rsplitOnce_append free]
  simp

theorem withoutLast_single (free : code '/' ∉ part) :
    withoutLast (code '/' :: part) = ascii "/" := by
  unfold withoutLast
  rw [List.drop_one, List.tail_cons, rsplitOnce_of_notMem free]
  rfl

theorem written_append (front back : List (Bytes × Bytes)) :
    written (front ++ back) = written back ++ written front := by
  unfold written
  rw [List.reverse_append, List.map_append, joined_append]

variable {state : Resolving}

theorem step_climb (left : withoutLast state.result = text) :
    state.step (ascii "..") = ⟨text, text.length = 1, ascii ".."⟩ := by
  rw [← left]
  exact (if_neg (by decide)).trans (if_pos rfl)

theorem Shows.climb (shown : Shows own state) (free : ∀ pair ∈ own, code '/' ∉ pair.2) :
    Shows own.tail (state.step (ascii "..")) ∧
      (own.tail = [] → (state.step (ascii "..")).first = true) := by
  cases shown with
  | fresh last => exact ⟨.fresh _, fun _ => rfl⟩
  | slashed _ last =>
    cases own with
    | nil => exact ⟨.fresh _, fun _ => rfl⟩
    | cons pair rest =>
      have left : withoutLast (ascii "/" ++ written (pair :: rest)) = code '/' :: written rest := by
        rw [written_cons]
        exact withoutLast_written (free pair List.mem_cons_self) _
      rw [step_climb left]
      by_cases empty : rest = []
      · subst empty
        exact ⟨.fresh _, fun _ => rfl⟩
      · have other : (code '/' :: written rest).length ≠ 1 := fun single =>
          written_ne_nil empty (List.length_eq_zero_iff.mp (Nat.succ.inj single))
        rw [decide_eq_false other]
        exact ⟨.slashed rest _, fun same => absurd same empty⟩
  | plain own previous part last present =>
    cases own with
    | nil =>
      have left : withoutLast (written [(previous, part)]) = ascii "/" := by
        rw [written_cons]
        exact withoutLast_single (free _ List.mem_cons_self)
      rw [step_climb left]
      exact ⟨.fresh _, fun _ => rfl⟩
    | cons pair rest =>
      have text : written (rest ++ [(previous, part)]) = code '/' :: (part ++ written rest) := by
        rw [written_append, written_cons]
        rfl
      have left : withoutLast (written (pair :: (rest ++ [(previous, part)]))) =
          written (rest ++ [(previous, part)]) := by
        rw [written_cons, text]
        exact withoutLast_written (free pair List.mem_cons_self) _
      have other : (written (rest ++ [(previous, part)])).length ≠ 1 := by
        rw [text]
        exact fun single => present (List.append_eq_nil_iff.mp
          (List.length_eq_zero_iff.mp (Nat.succ.inj single))).1
      rw [step_climb left, decide_eq_false other]
      exact ⟨.plain rest previous part _ present, fun same => absurd same (by simp)⟩

theorem step_here (state : Resolving) : state.step (ascii ".") = ⟨state.result, false, ascii "."⟩ :=
  if_pos rfl

theorem Shows.here (shown : Shows own state) : Shows own (state.step (ascii ".")) := by
  rw [step_here]
  cases shown with
  | fresh last => exact .slashed [] _
  | slashed _ last => exact .slashed own _
  | plain own previous part last present => exact .plain own previous part _ present

theorem step_push (dotless : ¬IsDot part) (state : Resolving)
    (same : (if !state.first then state.result ++ ascii "/" else state.result) ++ part = text) :
    state.step part = ⟨text, false, part⟩ := by
  rw [← same]
  exact (if_neg fun one => dotless (.inl one)).trans (if_neg fun two => dotless (.inr two))

theorem Shows.push (shown : Shows own state)
    (dotless : ¬IsDot part) (seen : ¬(state.first = true ∧ part = [])) :
    Shows ((state.last, part) :: own) (state.step part) := by
  cases shown with
  | fresh last =>
    have text : ascii "/" ++ part = written ([] ++ [(last, part)]) :=
      (written_cons last part []).symm
    rw [step_push dotless ⟨ascii "/", true, last⟩ text]
    exact .plain [] last part part fun empty => seen ⟨rfl, empty⟩
  | slashed _ last =>
    have text : ascii "/" ++ written own ++ ascii "/" ++ part =
        ascii "/" ++ written ((last, part) :: own) := by
      rw [written_cons, List.append_assoc, List.append_assoc]
      rfl
    rw [step_push dotless ⟨ascii "/" ++ written own, false, last⟩ text]
    exact .slashed _ _
  | plain own previous first last present =>
    have text : written (own ++ [(previous, first)]) ++ ascii "/" ++ part =
        written ((last, part) :: (own ++ [(previous, first)])) := by
      rw [written_cons, List.append_assoc]
      rfl
    rw [step_push dotless ⟨written (own ++ [(previous, first)]), false, last⟩ text]
    exact .plain (_ :: own) previous first _ present

theorem Shows.swallow (shown : Shows own state)
    (first : state.first = true) : own = [] ∧ Shows [] (state.step []) := by
  cases shown with
  | fresh last =>
    rw [step_push (by decide) ⟨_, true, _⟩ (List.append_nil _)]
    exact ⟨rfl, .slashed [] []⟩
  | slashed | plain => cases first

theorem getLast?_of_cons {rest : List (Bytes × Bytes)}
    {value : Bytes × Bytes} (last : rest.getLast? = some value) :
    (pair :: rest).getLast? = some value := by
  rw [List.getLast?_cons, last]
  rfl

variable {lost : List (Bytes × Bytes)}

theorem Follows.step (follows : Follows own lost state) (free : ∀ pair ∈ own, code '/' ∉ pair.2)
    (part : Bytes) : ∃ own' lost', Follows own' lost' (state.step part) ∧
      own' ++ lost' = keep (own ++ lost) state.last part := by
  by_cases one : part = ascii "."
  · subst one
    refine ⟨own, lost, ⟨follows.shown.here, follows.lost, fun first => ?_, fun same => ?_,
      follows.bottom⟩, (if_pos rfl).symm⟩
    · rw [step_here] at first
      cases first
    · rw [step_here] at same
      exact absurd same (by decide : ascii "." ≠ ascii "..")
  · by_cases two : part = ascii ".."
    · subst two
      obtain ⟨shown, first⟩ := follows.shown.climb free
      have last : (state.step (ascii "..")).last = ascii ".." := by rw [step_climb rfl]
      have climbed : keep (own ++ lost) state.last (ascii "..") = (own ++ lost).tail :=
        (if_neg one).trans (if_pos rfl)
      rw [climbed]
      cases own with
      | nil =>
        exact ⟨[], lost.tail, ⟨shown, fun pair member => follows.lost pair
          (List.mem_of_mem_tail member), fun _ => last, fun _ _ => first rfl, nofun⟩, rfl⟩
      | cons pair rest =>
        exact ⟨rest, lost, ⟨shown, follows.lost, fun _ => last, fun _ empty => first empty,
          fun bottom => follows.bottom (getLast?_of_cons bottom)⟩, rfl⟩
    · have pushed : keep (own ++ lost) state.last part = (state.last, part) :: (own ++ lost) :=
        (if_neg one).trans (if_neg two)
      rw [pushed]
      have dotless : ¬IsDot part := fun dot => dot.elim one two
      have first : (state.step part).first = false := by rw [step_push dotless state rfl]
      have last : (state.step part).last = part := by rw [step_push dotless state rfl]
      by_cases lostToo : state.first = true ∧ part = []
      · obtain ⟨opened, rfl⟩ := lostToo
        obtain ⟨empty, shown⟩ := follows.shown.swallow opened
        rw [follows.fresh opened, empty]
        refine ⟨[], (ascii "..", []) :: lost, ⟨shown, List.forall_mem_cons.mpr ⟨rfl, follows.lost⟩,
          fun openedToo => ?_, fun same => ?_, nofun⟩, rfl⟩
        · rw [first] at openedToo
          cases openedToo
        · exact absurd (last.symm.trans same) two
      · refine ⟨(state.last, part) :: own, lost, ⟨follows.shown.push dotless lostToo,
          follows.lost, fun opened => ?_, fun same => ?_, fun bottom => ?_⟩, rfl⟩
        · rw [first] at opened
          cases opened
        · exact absurd (last.symm.trans same) two
        · cases own with
          | nil =>
            obtain ⟨climbed, empty⟩ := Prod.mk.inj (Option.some.inj bottom)
            exact lostToo ⟨follows.climbed climbed rfl, empty⟩
          | cons pair rest => exact follows.bottom bottom

/-! ## What the loop leaves -/

theorem last_step (state : Resolving) (part : Bytes) : (state.step part).last = part := by
  unfold Resolving.step
  split
  next => rfl
  next => split <;> rfl

theorem last_foldl (parts : List Bytes) (state : Resolving) :
    (parts.foldl Resolving.step state).last = parts.getLastD state.last := by
  induction parts generalizing state with
  | nil => rfl
  | cons part rest ih =>
    rw [List.foldl_cons, ih, last_step, List.getLastD_cons]

theorem Follows.run (slashless : ∀ part ∈ parts, code '/' ∉ part) (follows : Follows own lost state)
    (free : ∀ pair ∈ own ++ lost, code '/' ∉ pair.2) :
    ∃ own' lost', Follows own' lost' (parts.foldl Resolving.step state) ∧
      own' ++ lost' = keptFrom (own ++ lost) state.last parts := by
  induction parts generalizing own lost state with
  | nil => exact ⟨own, lost, follows, rfl⟩
  | cons part rest ih =>
    obtain ⟨here, later⟩ := List.forall_mem_cons.mp slashless
    obtain ⟨own', lost', stepped, kept⟩ := follows.step
      (fun pair member => free pair (List.mem_append_left _ member)) part
    have freeToo : ∀ pair ∈ own' ++ lost', code '/' ∉ pair.2 := by
      rw [kept]
      exact fun pair member => (mem_keep member).elim (free pair) fun same => by
        rw [same.1]; exact here
    obtain ⟨own₂, lost₂, followed, all⟩ := ih later stepped freeToo
    refine ⟨own₂, lost₂, followed, ?_⟩
    rw [all, kept]
    exact congrArg (keptFrom _ · rest) (last_step state part)

theorem mem_keptFrom {previous : Bytes} (member : pair ∈ keptFrom kept previous parts) :
    pair ∈ kept ∨ pair.2 ∈ parts ∧ ¬IsDot pair.2 := by
  induction parts generalizing kept previous with
  | nil => exact .inl member
  | cons part rest ih =>
    obtain earlier | ⟨inside, dotless⟩ := ih member
    · obtain earlier | ⟨rfl, dotless⟩ := mem_keep earlier
      · exact .inl earlier
      · exact .inr ⟨List.mem_cons_self, dotless⟩
    · exact .inr ⟨List.mem_cons_of_mem _ inside, dotless⟩

theorem exists_keptFrom (present : parts ≠ []) (previous : Bytes)
    (kept : List (Bytes × Bytes)) (dotless : ¬IsDot (parts.getLastD previous)) :
    ∃ before rest, keptFrom kept previous parts = (before, parts.getLastD previous) :: rest := by
  induction parts generalizing kept previous with
  | nil => exact absurd rfl present
  | cons part rest ih =>
    rw [List.getLastD_cons] at dotless ⊢
    cases rest with
    | nil =>
      exact ⟨previous, kept, (if_neg fun one => dotless (.inl one)).trans
        (if_neg fun two => dotless (.inr two))⟩
    | cons next later => exact ih (List.cons_ne_nil _ _) part _ dotless

/-- The segments of a result, with the empty one behind a dot segment at the end. -/
def shownParts (own : List (Bytes × Bytes)) (last : Bytes) : List Bytes :=
  own.reverse.map Prod.snd ++ if IsDot last then [[]] else []

theorem joined_shownParts (own : List (Bytes × Bytes)) (last : Bytes) :
    joined (shownParts own last) = written own ++ closing last := by
  unfold shownParts closing written
  rw [joined_append]
  split <;> rfl

/-- A result without the second of two slashes at its start. -/
def stripped (result : Bytes) : Bytes :=
  if (ascii "//").isPrefixOf result then result.tail else result

theorem stripped_slash (present : parts ≠ []) :
    stripped (ascii "/" ++ joined parts) = joined parts := by
  obtain ⟨part, rest, rfl⟩ := List.exists_cons_of_ne_nil present
  exact if_pos (by simp [ascii])

theorem Shows.stripped (shown : Shows own state) (free : ∀ pair ∈ own, code '/' ∉ pair.2) :
    stripped (state.result ++ closing state.last) =
      joined (if shownParts own state.last = [] then [[]] else shownParts own state.last) := by
  have slashed (own : List (Bytes × Bytes)) (last : Bytes) :
      Network.stripped (ascii "/" ++ written own ++ closing last) =
        joined (if shownParts own last = [] then [[]] else shownParts own last) := by
    rw [List.append_assoc, ← joined_shownParts]
    split
    next empty => rw [empty]; rfl
    next present => exact stripped_slash present
  cases shown with
  | fresh last => exact slashed [] last
  | slashed _ last => exact slashed own last
  | plain own previous part last present =>
    have nonempty : shownParts (own ++ [(previous, part)]) last ≠ [] := by
      simp [shownParts]
    dsimp only
    rw [if_neg nonempty, joined_shownParts, written_append]
    obtain ⟨byte, rest, rfl⟩ := List.exists_cons_of_ne_nil present
    have other : byte ≠ code '/' := fun same =>
      free _ (List.mem_append_right _ List.mem_cons_self) (same ▸ List.mem_cons_self)
    exact if_neg (by simpa [written, ascii] using Ne.symm other)

theorem resolvePath_mergedPath (base reference : Bytes) :
    resolvePath base reference = resolvePath (mergedPath base reference) [] := by
  unfold resolvePath mergedPath
  simp only [List.isEmpty_iff]
  cases rsplitOnce (code '/') base <;> rfl

theorem resolvePath_joined (present : parts ≠ []) (slashless : ∀ part ∈ parts, code '/' ∉ part) :
    resolvePath (joined parts) [] =
      let state := parts.foldl Resolving.step (Resolving.step ⟨ascii "/", true, []⟩ [])
      stripped (state.result ++ closing state.last) := by
  have split : (joined parts).splitOn (code '/') = [] :: parts :=
    splitOn_joined parts slashless [] List.not_mem_nil
  obtain ⟨part, rest, same⟩ := List.exists_cons_of_ne_nil present
  have nonempty : (joined parts).isEmpty = false := by rw [same]; rfl
  have empty : ([] : Bytes).isEmpty = true := rfl
  unfold resolvePath
  rw [if_pos empty]
  dsimp only
  rw [nonempty, if_neg Bool.false_ne_true, split, List.foldl_cons]
  refine congrArg stripped ?_
  split
  next dot => exact congrArg _ (if_pos dot).symm
  next dotless => exact (List.append_nil _).symm.trans (congrArg _ (if_neg dotless).symm)

theorem foldl_dotless (dotless : ∀ part ∈ parts, ¬IsDot part)
    (text last : Bytes) : parts.foldl Resolving.step ⟨text, false, last⟩ =
      ⟨text ++ joined parts, false, parts.getLastD last⟩ := by
  induction parts generalizing text last with
  | nil => rw [joined_nil, List.append_nil]; rfl
  | cons part rest ih =>
    obtain ⟨here, later⟩ := List.forall_mem_cons.mp dotless
    rw [List.foldl_cons, step_push here ⟨text, false, last⟩ rfl, ih later, List.getLastD_cons]
    simp [ascii]

theorem resolvePath_dotless (present : parts ≠ [])
    (slashless : ∀ part ∈ parts, code '/' ∉ part) (dotless : ∀ part ∈ parts, ¬IsDot part) :
    resolvePath (joined parts) [] = joined parts := by
  have last : ¬IsDot (parts.getLastD []) :=
    (List.mem_cons.mp List.getLastD_mem_cons).elim (fun same => by rw [same]; decide) (dotless _)
  rw [resolvePath_joined present slashless, step_push (by decide) _ rfl]
  dsimp only
  rw [if_neg (by decide), List.append_nil, foldl_dotless dotless]
  unfold closing
  rw [if_neg last, List.append_nil]
  exact stripped_slash present

/-! ## Escapes -/

theorem isEscaped_append {front back : Bytes} (frontEscaped : IsEscaped front)
    (backEscaped : IsEscaped back) : IsEscaped (front ++ back) := by
  obtain ⟨first, frontRead⟩ := Option.isSome_iff_exists.mp frontEscaped
  obtain ⟨second, backRead⟩ := Option.isSome_iff_exists.mp backEscaped
  exact Option.isSome_iff_exists.mpr ⟨_, Percent.decode_append frontRead backRead⟩

theorem of_isEscaped_slash {front back : Bytes} (escaped : IsEscaped (front ++ code '/' :: back)) :
    IsEscaped front ∧ IsEscaped back :=
  Percent.isSome_of_append (by decide) (by decide) escaped

theorem isEscaped_joined (escaped : ∀ part ∈ parts, IsEscaped part) : IsEscaped (joined parts) := by
  induction parts with
  | nil => exact rfl
  | cons part rest ih =>
    obtain ⟨here, later⟩ := List.forall_mem_cons.mp escaped
    exact isEscaped_append (isEscaped_append (rfl : IsEscaped (ascii "/")) here) (ih later)

theorem isEscaped_of_joined {first : Bytes} (escaped : IsEscaped (first ++ joined parts)) :
    IsEscaped first ∧ ∀ part ∈ parts, IsEscaped part := by
  induction parts generalizing first with
  | nil =>
    rw [joined_nil, List.append_nil] at escaped
    exact ⟨escaped, fun _ => nofun⟩
  | cons part rest ih =>
    obtain ⟨here, later⟩ := of_isEscaped_slash escaped
    exact ⟨here, List.forall_mem_cons.mpr (ih later)⟩

theorem isEscaped_mergedPath {base reference : Bytes} (escaped : IsEscaped base)
    (escapedToo : IsEscaped reference) : IsEscaped (mergedPath base reference) := by
  unfold mergedPath
  split
  next => exact escaped
  next =>
    split
    next => exact escapedToo
    next =>
      split
      next front back split =>
        rw [(rsplitOnce_eq_some split).1] at escaped
        exact isEscaped_append (isEscaped_append (of_isEscaped_slash escaped).1
          (rfl : IsEscaped (ascii "/"))) escapedToo
      next => exact escapedToo

/-! ## The two removals -/

/-- What the loop leaves of the segments of a path. -/
structure Leaves (parts : List Bytes) (own lost : List (Bytes × Bytes)) : Prop where
  kept : own ++ lost = keptFrom [] [] parts
  lost : ∀ pair ∈ lost, pair = (ascii "..", [])
  bottom : own.getLast? ≠ some (ascii "..", [])
  path : resolvePath (joined parts) [] =
    joined (if shownParts own (parts.getLastD []) = [] then [[]]
      else shownParts own (parts.getLastD []))

theorem exists_leaves (present : parts ≠ [])
    (slashless : ∀ part ∈ parts, code '/' ∉ part) : ∃ own lost, Leaves parts own lost := by
  obtain ⟨own, lost, follows, kept⟩ := follows_start.run slashless fun _ => nofun
  have last : (parts.foldl Resolving.step (Resolving.step ⟨ascii "/", true, []⟩ [])).last =
      parts.getLastD [] := last_foldl parts _
  have free : ∀ pair ∈ own, code '/' ∉ pair.2 := fun pair member =>
    (mem_keptFrom (kept ▸ List.mem_append_left lost member)).elim
      (fun nowhere => absurd nowhere List.not_mem_nil) fun inside => slashless _ inside.1
  refine ⟨own, lost, kept, follows.lost, follows.bottom, ?_⟩
  rw [resolvePath_joined present slashless, ← last]
  exact follows.shown.stripped free

theorem length_written
    (empty : ∀ pair ∈ lost, pair = (ascii "..", [])) : (written lost).length = lost.length := by
  induction lost with
  | nil => rfl
  | cons pair rest ih =>
    obtain ⟨here, later⟩ := List.forall_mem_cons.mp empty
    rw [here, written_cons, List.length_append, ih later]
    rfl

theorem Leaves.getLast?_kept (leaves : Leaves parts own lost) :
    (keptFrom [] [] parts).getLast? = some (ascii "..", []) ↔ lost ≠ [] := by
  rw [← leaves.kept, List.getLast?_append]
  constructor
  · rintro last rfl
    exact leaves.bottom last
  · intro present
    rw [List.getLast?_eq_some_getLast present, Option.some_or,
      leaves.lost _ (List.getLast_mem present)]

theorem Leaves.removes_iff (leaves : Leaves parts own lost) (present : parts ≠ [])
    (slashless : ∀ part ∈ parts, code '/' ∉ part) :
    resolvePath (joined parts) [] = removeDotSegments (joined parts) [] ↔
      ¬Swallowed (joined parts) := by
  have removed : removeDotSegments (joined parts) [] =
      written lost ++ joined (shownParts own (parts.getLastD [])) := by
    have run := removeDotSegments_written present slashless [] [] fun _ => nofun
    rw [← leaves.kept, written_append, List.append_assoc, ← joined_shownParts] at run
    exact run
  have last : parts.getLast? = some (parts.getLastD []) := by
    rw [List.getLastD_eq_getLast?, List.getLast?_eq_some_getLast present]
    rfl
  have pushed (dotless : ¬IsDot (parts.getLastD [])) := exists_keptFrom present [] [] dotless
  unfold Swallowed
  rw [segments_joined slashless, leaves.getLast?_kept, leaves.path, removed, last]
  rw [← leaves.kept] at pushed ⊢
  generalize parts.getLastD [] = final at pushed ⊢
  by_cases nothing : lost = []
  · subst nothing
    have shown : shownParts own final ≠ [] := by
      intro none
      obtain ⟨noOwn, noDot⟩ := List.append_eq_nil_iff.mp none
      have dotless : ¬IsDot final := fun dot => by
        rw [if_pos dot] at noDot
        cases noDot
      obtain ⟨before, rest, same⟩ := pushed dotless
      rw [List.map_eq_nil_iff, List.reverse_eq_nil_iff] at noOwn
      rw [noOwn] at same
      cases same
    rw [if_neg shown]
    exact iff_of_true rfl fun swallowed => swallowed.1 rfl
  · rw [not_and, not_not, imp_iff_right nothing, Option.some_inj]
    by_cases none : shownParts own final = []
    · obtain ⟨noOwn, noDot⟩ := List.append_eq_nil_iff.mp none
      have dotless : ¬IsDot final := fun dot => by
        rw [if_pos dot] at noDot
        cases noDot
      rw [List.map_eq_nil_iff, List.reverse_eq_nil_iff] at noOwn
      subst noOwn
      obtain ⟨before, rest, top⟩ := pushed dotless
      rw [if_pos none, none, List.nil_append]
      constructor
      · intro same
        have length := congrArg List.length same
        rw [List.length_append, length_written leaves.lost] at length
        exact ⟨length.symm, (Prod.mk.inj (leaves.lost _ (by
          rw [← List.nil_append lost, top]; exact List.mem_cons_self))).2⟩
      · rintro ⟨single, _⟩
        obtain ⟨pair, rfl⟩ := List.length_eq_one_iff.mp single
        rw [leaves.lost pair List.mem_cons_self]
        rfl
    · rw [if_neg none]
      have some : 0 < lost.length := List.length_pos_iff.mpr nothing
      constructor
      · intro same
        have length := congrArg List.length same
        rw [List.length_append, length_written leaves.lost] at length
        omega
      · rintro ⟨single, rfl⟩
        rw [List.length_append] at single
        have noOwn : own = [] := List.length_eq_zero_iff.mp (by omega)
        subst noOwn
        exact absurd rfl none

/-- A result is resolved to itself, and is made of whole segments. -/
theorem Leaves.segments
    (leaves : Leaves parts own lost) : ∃ left, left ≠ [] ∧ resolvePath (joined parts) [] =
      joined left ∧ ∀ part ∈ left, (part ∈ parts ∨ part = []) ∧ ¬IsDot part := by
  refine ⟨_, ?_, leaves.path, ?_⟩
  · split
    next => exact List.cons_ne_nil _ _
    next present => exact present
  · have empty : ∀ part ∈ [([] : Bytes)], (part ∈ parts ∨ part = []) ∧ ¬IsDot part := by
      intro part member
      rw [List.mem_singleton.mp member]
      exact ⟨.inr rfl, by decide⟩
    split
    next => exact empty
    next =>
      intro part member
      obtain kept | closed := List.mem_append.mp member
      · obtain ⟨pair, inside, rfl⟩ := List.mem_map.mp kept
        have stays : pair ∈ keptFrom [] [] parts := by
          rw [← leaves.kept]
          exact List.mem_append_left _ (List.mem_reverse.mp inside)
        exact (mem_keptFrom stays).elim (fun nowhere => absurd nowhere List.not_mem_nil)
          fun found => ⟨.inl found.1, found.2⟩
      · split at closed
        next => exact empty part closed
        next => cases closed

/-- The dot segments are removed as they are meant to be exactly if no empty segment that is kept
first was swallowed. -/
theorem resolvesPath_iff {base : Bytes} (rooted : base.head? = some (code '/'))
    (reference : Bytes) :
    ResolvesPath base reference ↔ ¬Swallowed (mergedPath base reference) := by
  obtain ⟨parts, present, path, slashless⟩ := exists_segments (head?_mergedPath rooted reference)
  obtain ⟨own, lost, leaves⟩ := exists_leaves present slashless
  obtain ⟨left, some, resolved, inside⟩ := leaves.segments
  have same := resolvePath_mergedPath base reference
  have removes := leaves.removes_iff present slashless
  rw [← path] at removes resolved
  constructor
  · exact fun promise => removes.mp (same.symm.trans promise.removes)
  · intro kept
    refine ⟨same.trans (removes.mpr kept), fun escaped escapedToo => ?_, fun _ => ?_⟩
    · have merged : IsEscaped ([] ++ joined parts) := path ▸ isEscaped_mergedPath escaped escapedToo
      have all := (isEscaped_of_joined merged).2
      rw [same, resolved]
      exact isEscaped_joined fun part member => (inside part member).1.elim (all part)
        fun empty => by rw [empty]; rfl
    · rw [same, resolved]
      refine resolvePath_dotless some (fun part member => ?_) fun part member =>
        (inside part member).2
      exact (inside part member).1.elim (slashless part) fun empty => by
        rw [empty]; exact List.not_mem_nil

theorem resolvesPath_parent : ResolvesPath (ascii "/a/b") (ascii "../c//%2e%2e/.") :=
  (resolvesPath_iff (by decide) _).mpr (by decide)

/-- An empty segment behind a climb to the root is swallowed. -/
theorem resolvePath_swallows : resolvePath (ascii "/a") (ascii "..//b") = ascii "/b" ∧
    ¬ResolvesPath (ascii "/a") (ascii "..//b") := by
  have resolved : resolvePath (ascii "/a") (ascii "..//b") = ascii "/b" := by decide
  have removed : removeDotSegments (joined [ascii "..", [], ascii "b"]) (written []) =
      ascii "//b" :=
    removeDotSegments_written (List.cons_ne_nil _ _) (by decide) [] [] fun _ => nofun
  refine ⟨resolved, fun promise => ?_⟩
  have same := resolved.symm.trans (promise.removes.trans removed)
  exact absurd same (by decide)

end LosslessMusic.Network
