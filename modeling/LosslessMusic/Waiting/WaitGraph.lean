import Mathlib.Logic.Relation

/-!
# Graphs of waits

Vertices that wait for one another. A wait is let in unless it closes a cycle, and a pair may
have several waits at a time.
-/

namespace LosslessMusic.Waiting

open Relation

universe u

variable {V : Type u} {edge : V → V → Prop} {caller target : V}

/-- No vertex leads back to itself. -/
def Acyclic (edge : V → V → Prop) : Prop :=
  ∀ vertex, ¬TransGen edge vertex vertex

/-- The edges with one more. -/
def withEdge (edge : V → V → Prop) (caller target : V) : V → V → Prop :=
  fun source other => edge source other ∨ source = caller ∧ other = target

theorem Acyclic.mono {fewer : V → V → Prop} (acyclic : Acyclic edge) (among : fewer ≤ edge) :
    Acyclic fewer :=
  fun vertex back => acyclic vertex (TransGen.mono among _ _ back)

theorem transGen_withEdge {source other : V}
    (way : TransGen (withEdge edge caller target) source other) :
    TransGen edge source other ∨
      ReflTransGen edge source caller ∧ ReflTransGen edge target other := by
  induction way with
  | single first =>
    rcases first with old | ⟨rfl, rfl⟩
    · exact .inl (.single old)
    · exact .inr ⟨.refl, .refl⟩
  | tail _ last ih =>
    rcases last with old | ⟨rfl, rfl⟩
    · rcases ih with without | ⟨before, after⟩
      · exact .inl (without.tail old)
      · exact .inr ⟨before, after.tail old⟩
    · rcases ih with without | ⟨before, _⟩
      · exact .inr ⟨without.to_reflTransGen, .refl⟩
      · exact .inr ⟨before, .refl⟩

theorem acyclic_withEdge_iff (acyclic : Acyclic edge) :
    Acyclic (withEdge edge caller target) ↔ ¬ReflTransGen edge target caller := by
  constructor
  · intro still back
    have within : edge ≤ withEdge edge caller target := fun _ _ old => .inl old
    exact still caller (.head' (.inr ⟨rfl, rfl⟩) (ReflTransGen.mono within _ _ back))
  · intro apart vertex cycle
    rcases transGen_withEdge cycle with old | ⟨before, after⟩
    · exact acyclic vertex old
    · exact apart (after.trans before)

theorem not_reaches_of_closed (known : V → Prop) {source : V} (begins : known source)
    (closed : ∀ vertex, known vertex → vertex ≠ target ∧ ∀ next, edge vertex next → known next) :
    ¬ReflTransGen edge source target := by
  intro way
  have ends : ∀ vertex, ReflTransGen edge source vertex → known vertex := by
    intro vertex way
    induction way with
    | refl => exact begins
    | tail _ last ih => exact (closed _ ih).2 _ last
  exact (closed target (ends target way)).1 rfl

/-! ## Counted waits -/

/-- How often each vertex waits for each other, without a cycle. -/
structure WaitGraph (V : Type u) where
  count : V → V → Nat
  acyclic : Acyclic fun caller target => 0 < count caller target

namespace WaitGraph

variable (graph : WaitGraph V)

/-- One waits for the other. -/
def Waits (caller target : V) : Prop :=
  0 < graph.count caller target

/-- Nobody waits. -/
def empty : WaitGraph V where
  count _ _ := 0
  acyclic vertex cycle := by
    obtain ⟨_, first, _⟩ := TransGen.head'_iff.mp cycle
    exact Nat.lt_irrefl 0 first

/-- The wait would close a cycle. -/
def Closes (caller target : V) : Prop :=
  ¬Acyclic (withEdge graph.Waits caller target)

theorem closes_iff : graph.Closes caller target ↔ ReflTransGen graph.Waits target caller :=
  (not_congr (acyclic_withEdge_iff graph.acyclic)).trans Classical.not_not

variable [DecidableEq V]

/-- A wait that closes no cycle begins. -/
def begin (caller target : V) (fits : ¬graph.Closes caller target) : WaitGraph V where
  count source other := graph.count source other + if source = caller ∧ other = target then 1 else 0
  acyclic := by
    refine (Classical.not_not.mp fits).mono fun source other waits => ?_
    by_cases new : source = caller ∧ other = target
    · exact .inr new
    · rw [if_neg new] at waits
      exact .inl waits

/-- A wait ends. -/
def finish (caller target : V) : WaitGraph V where
  count source other := graph.count source other - if source = caller ∧ other = target then 1 else 0
  acyclic := graph.acyclic.mono fun _ _ waits => Nat.lt_of_lt_of_le waits (Nat.sub_le _ _)

variable {graph} {source other : V}

theorem begin_count_self (fits : ¬graph.Closes caller target) :
    (graph.begin caller target fits).count caller target = graph.count caller target + 1 :=
  congrArg _ (if_pos ⟨rfl, rfl⟩)

theorem begin_count_other (fits : ¬graph.Closes caller target)
    (different : ¬(source = caller ∧ other = target)) :
    (graph.begin caller target fits).count source other = graph.count source other :=
  congrArg _ (if_neg different)

theorem finish_count_self :
    (graph.finish caller target).count caller target = graph.count caller target - 1 :=
  congrArg _ (if_pos ⟨rfl, rfl⟩)

theorem finish_count_other (different : ¬(source = caller ∧ other = target)) :
    (graph.finish caller target).count source other = graph.count source other :=
  congrArg _ (if_neg different)

end WaitGraph

end LosslessMusic.Waiting
