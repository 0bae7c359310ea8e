import Mathlib.Algebra.Group.Int.Defs
import Mathlib.Algebra.GroupWithZero.Nat
import Mathlib.Data.List.Basic
import Mathlib.Data.List.Count

/-!
# Parties of a system

The parties of a system are a list of their program points, and one of them moves at
a time. What a move does to a count or to a sum over all parties is what it does to
the share of the party that moves.
-/

namespace LosslessMusic.Transition

universe u

variable {α : Type u} {parties : List α} {position : Nat} {old : α}

variable {p : α → Bool}

/-- Replacing an element changes a count by what it and its successor contribute. -/
theorem countP_set_add (new : α) (here : parties[position]? = some old) :
    (parties.set position new).countP p + (p old).toNat = parties.countP p + (p new).toNat := by
  obtain ⟨inside, same⟩ := List.getElem?_eq_some_iff.mp here
  rw [List.countP_set inside, same]
  have counted : (p old).toNat ≤ parties.countP p := by
    cases holds : p old with
    | false => simp
    | true =>
      have positive := List.countP_pos_iff.mpr ⟨old, List.mem_of_getElem? here, holds⟩
      rw [Bool.toNat_true]
      omega
  have asNat : ∀ b : Bool, (if b = true then 1 else 0) = b.toNat := by decide
  rw [asNat, asNat]
  omega

theorem countP_set_eq {new : α} (here : parties[position]? = some old)
    (same : p new = p old) : (parties.set position new).countP p = parties.countP p := by
  have moved := countP_set_add (p := p) new here
  rw [same] at moved
  omega

variable {other : Nat} {found : α}

theorem getElem?_set_some {new : α} (there : (parties.set position new)[other]? = some found) :
    (other = position ∧ found = new) ∨ (other ≠ position ∧ parties[other]? = some found) := by
  rw [List.getElem?_set] at there
  split at there
  next same =>
    split at there
    · exact .inl ⟨same.symm, (Option.some.inj there).symm⟩
    · cases there
  next different => exact .inr ⟨fun same => different same.symm, there⟩

theorem getElem?_append_some {new : α} (there : (parties ++ [new])[other]? = some found) :
    (other = parties.length ∧ found = new) ∨
      (other < parties.length ∧ parties[other]? = some found) := by
  rw [List.getElem?_append] at there
  split at there
  next inside => exact .inr ⟨inside, there⟩
  next outside =>
    rw [List.getElem?_singleton] at there
    split at there
    next zero => exact .inl ⟨by omega, (Option.some.inj there).symm⟩
    next => cases there

variable {change : α → α}

theorem getElem?_modify_some (there : (parties.modify position change)[other]? = some found) :
    ∃ old, parties[other]? = some old ∧
      ((other = position ∧ found = change old) ∨ (other ≠ position ∧ found = old)) := by
  rw [List.getElem?_modify] at there
  obtain ⟨old, here, rfl⟩ := Option.map_eq_some_iff.mp there
  refine ⟨old, here, ?_⟩
  split
  next same => exact .inl ⟨same.symm, rfl⟩
  next different => exact .inr ⟨fun same => different same.symm, rfl⟩

theorem getElem?_modify_self (here : parties[position]? = some old) :
    (parties.modify position change)[position]? = some (change old) := by
  rw [List.getElem?_modify, here]
  exact congrArg some (if_pos rfl)

theorem getElem?_modify_ne (different : other ≠ position) :
    (parties.modify position change)[other]? = parties[other]? := by
  rw [List.getElem?_modify]
  cases parties[other]? with
  | none => rfl
  | some found => exact congrArg some (if_neg fun same => different same.symm)

theorem countP_add_countP_le {q r t : α → Bool} (parties : List α)
    (within : ∀ party, (p party).toNat + (q party).toNat ≤ (r party).toNat + (t party).toNat) :
    parties.countP p + parties.countP q ≤ parties.countP r + parties.countP t := by
  have asNat : ∀ b : Bool, (if b = true then 1 else 0) = b.toNat := by decide
  induction parties with
  | nil => exact Nat.le_refl _
  | cons party rest ih =>
    have here := within party
    simp only [List.countP_cons, asNat]
    omega

/-- Replacing an element changes a sum by what it and its successor contribute. -/
theorem sum_map_set_add (weight : α → Nat) (new : α) (here : parties[position]? = some old) :
    ((parties.set position new).map weight).sum + weight old =
      (parties.map weight).sum + weight new := by
  induction parties generalizing position with
  | nil => cases here
  | cons first rest ih =>
    cases position with
    | zero =>
      obtain rfl : first = old := by simpa using here
      simp only [List.set_cons_zero, List.map_cons, List.sum_cons]
      omega
    | succ later =>
      have tail := @ih later (by simpa using here)
      simp only [List.set_cons_succ, List.map_cons, List.sum_cons]
      omega

end LosslessMusic.Transition
