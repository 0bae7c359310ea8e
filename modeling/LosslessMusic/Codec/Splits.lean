import Mathlib.Data.List.Basic

/-!
# Splitting a text at a separator

The first and the last occurrence of one symbol, and the first occurrence of a pattern, as the
parts before and behind it.
-/

namespace LosslessMusic.Codec

variable {α : Type} [DecidableEq α]

/-- The parts before and behind the first separator. -/
def splitOnce (separator : α) : List α → Option (List α × List α)
  | [] => none
  | symbol :: rest =>
    if symbol = separator then some ([], rest)
    else (splitOnce separator rest).map fun (before, behind) => (symbol :: before, behind)

/-- The parts before and behind the last separator. -/
def rsplitOnce (separator : α) : List α → Option (List α × List α)
  | [] => none
  | symbol :: rest =>
    match rsplitOnce separator rest with
    | some (before, behind) => some (symbol :: before, behind)
    | none => if symbol = separator then some ([], rest) else none

/-- The parts before and behind the first occurrence of a pattern that is not empty. -/
def splitOnceAt (pattern : List α) : List α → Option (List α × List α)
  | [] => none
  | symbol :: rest =>
    if pattern.isPrefixOf (symbol :: rest) then some ([], (symbol :: rest).drop pattern.length)
    else (splitOnceAt pattern rest).map fun (before, behind) => (symbol :: before, behind)

/-! ## The first separator -/

variable {separator : α} {text : List α}

@[simp]
theorem splitOnce_of_notMem (absent : separator ∉ text) : splitOnce separator text = none := by
  induction text with
  | nil => rfl
  | cons symbol rest ih =>
    have other := List.ne_of_not_mem_cons absent
    have later := List.not_mem_of_not_mem_cons absent
    rw [splitOnce, if_neg (Ne.symm other), ih later]
    rfl

variable {before : List α}

theorem splitOnce_append (absent : separator ∉ before) (behind : List α) :
    splitOnce separator (before ++ separator :: behind) = some (before, behind) := by
  induction before with
  | nil => simp [splitOnce]
  | cons symbol rest ih =>
    have other := List.ne_of_not_mem_cons absent
    have later := List.not_mem_of_not_mem_cons absent
    rw [List.cons_append, splitOnce, if_neg (Ne.symm other), ih later]
    rfl

variable {behind : List α}

theorem splitOnce_eq_some (split : splitOnce separator text = some (before, behind)) :
    text = before ++ separator :: behind ∧ separator ∉ before := by
  induction text generalizing before with
  | nil => cases split
  | cons symbol rest ih =>
    rw [splitOnce] at split
    split at split
    next same =>
      cases split
      exact ⟨by rw [same]; rfl, List.not_mem_nil⟩
    next other =>
      obtain ⟨⟨front, back⟩, found, same⟩ := Option.map_eq_some_iff.mp split
      cases same
      obtain ⟨parts, absent⟩ := ih found
      exact ⟨by rw [parts]; rfl, List.not_mem_cons_of_ne_of_not_mem (Ne.symm other) absent⟩

theorem splitOnce_eq_none (split : splitOnce separator text = none) : separator ∉ text:= by
  intro member
  obtain ⟨before, behind, parts, absent⟩ := List.eq_append_cons_of_mem member
  rw [parts, splitOnce_append absent] at split
  cases split

/-! ## The last separator -/

@[simp]
theorem rsplitOnce_of_notMem (absent : separator ∉ text) : rsplitOnce separator text = none := by
  induction text with
  | nil => rfl
  | cons symbol rest ih =>
    have other := List.ne_of_not_mem_cons absent
    have later := List.not_mem_of_not_mem_cons absent
    rw [rsplitOnce, ih later]
    exact if_neg (Ne.symm other)

theorem rsplitOnce_append (absent : separator ∉ behind) (before : List α) :
    rsplitOnce separator (before ++ separator :: behind) = some (before, behind) := by
  induction before with
  | nil => simp [rsplitOnce, absent]
  | cons symbol rest ih =>
    rw [List.cons_append, rsplitOnce, ih]

theorem rsplitOnce_eq_none (split : rsplitOnce separator text = none) : separator ∉ text:= by
  induction text with
  | nil => exact List.not_mem_nil
  | cons symbol rest ih =>
    rw [rsplitOnce] at split
    cases found : rsplitOnce separator rest with
    | some parts =>
      rw [found] at split
      cases split
    | none =>
      rw [found] at split
      have other : symbol ≠ separator := by
        intro same
        rw [if_pos same] at split
        cases split
      exact List.not_mem_cons_of_ne_of_not_mem (Ne.symm other) (ih found)

theorem rsplitOnce_eq_some (split : rsplitOnce separator text = some (before, behind)) :
    text = before ++ separator :: behind ∧ separator ∉ behind := by
  induction text generalizing before with
  | nil => cases split
  | cons symbol rest ih =>
    rw [rsplitOnce] at split
    cases found : rsplitOnce separator rest with
    | some parts =>
      rw [found] at split
      cases split
      obtain ⟨same, absent⟩ := ih found
      exact ⟨by rw [List.cons_append, ← same], absent⟩
    | none =>
      rw [found] at split
      have here : symbol = separator := by
        by_contra other
        rw [if_neg other] at split
        cases split
      rw [if_pos here] at split
      cases split
      exact ⟨by rw [here]; rfl, rsplitOnce_eq_none found⟩

/-! ## The first occurrence of a pattern -/

variable {pattern : List α}

theorem splitOnceAt_of_notMem {symbol : α} (absent : symbol ∉ text) :
    splitOnceAt (symbol :: pattern) text = none := by
  induction text with
  | nil => rfl
  | cons first rest ih =>
    have other := List.ne_of_not_mem_cons absent
    have later := List.not_mem_of_not_mem_cons absent
    have differs : (symbol == first) = false := beq_eq_false_iff_ne.mpr other
    rw [splitOnceAt, ih later, List.isPrefixOf, differs]
    rfl

theorem splitOnceAt_append {symbol : α} (absent : symbol ∉ before) (behind : List α) :
    splitOnceAt (symbol :: pattern) (before ++ (symbol :: pattern) ++ behind) =
      some (before, behind) := by
  induction before with
  | nil => simp [splitOnceAt]
  | cons first rest ih =>
    have other := List.ne_of_not_mem_cons absent
    have later := List.not_mem_of_not_mem_cons absent
    have differs : (symbol == first) = false := beq_eq_false_iff_ne.mpr other
    rw [List.cons_append, List.cons_append, splitOnceAt, ih later, List.isPrefixOf, differs]
    rfl

theorem splitOnceAt_eq_some (split : splitOnceAt pattern text = some (before, behind)) :
    text = before ++ pattern ++ behind := by
  induction text generalizing before with
  | nil => cases split
  | cons symbol rest ih =>
    rw [splitOnceAt] at split
    split at split
    next starts =>
      cases split
      exact (List.prefix_iff_eq_append.mp (List.isPrefixOf_iff_prefix.mp starts)).symm
    next =>
      obtain ⟨⟨front, back⟩, found, same⟩ := Option.map_eq_some_iff.mp split
      cases same
      rw [List.cons_append, List.cons_append, ← ih found]

end LosslessMusic.Codec
