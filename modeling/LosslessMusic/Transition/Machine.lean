import Mathlib.Algebra.Group.Int.Defs
import Mathlib.Algebra.GroupWithZero.Nat
import Mathlib.Data.List.Basic
import Mathlib.Data.List.Count

/-!
# Partial step machines

A machine answers an event in a state with the next state, or refuses it. All
nondeterminism of a modelled system (schedules, failures, messages from outside)
is carried by the events, so the step itself stays executable. Guarded paths
restrict attention to the runs whose every step meets a condition.
-/

namespace LosslessMusic.Transition

universe u v

/-- A start condition and a partial, executable step. -/
structure Machine (σ : Type u) (ε : Type v) where
  /-- The states a run may begin in. -/
  Start : σ → Prop
  /-- The next state, or `none` when the event cannot happen here. -/
  step : σ → ε → Option σ

namespace Machine

variable {σ : Type u} {ε : Type v} (machine : Machine σ ε)

/-- Replay a list of events. -/
def run : σ → List ε → Option σ
  | state, [] => some state
  | state, event :: events => (machine.step state event).bind (run · events)

/-- Whether every step of a replay meets a decidable condition. -/
def runMeets (guard : σ → ε → Bool) : σ → List ε → Bool
  | _, [] => true
  | state, event :: events =>
    guard state event &&
      match machine.step state event with
      | none => true
      | some next => runMeets guard next events

/-- Finite runs all of whose steps meet `guard`, extended at the end. -/
inductive Path (guard : σ → ε → Prop) (start : σ) : σ → Prop
  | refl : Path guard start start
  | step {state next : σ} (event : ε) :
      Path guard start state → guard state event →
      machine.step state event = some next → Path guard start next

/-- The trivial condition, met by every step. -/
def anyStep (_ : σ) (_ : ε) : Prop := True

/-- States a guarded run from a start state leads to. -/
def Reachable (guard : σ → ε → Prop) (state : σ) : Prop :=
  ∃ start, machine.Start start ∧ machine.Path guard start state

variable {machine} {guard : σ → ε → Prop} {start middle final : σ}

variable {weaker : σ → ε → Prop}

namespace Path

theorem trans (first : machine.Path guard start middle) (second : machine.Path guard middle final) :
    machine.Path guard start final := by
  induction second with
  | refl => exact first
  | step event _ allowed stepped ih =>
    exact .step event ih allowed stepped

theorem mono (path : machine.Path guard start final)
    (weaken : ∀ state event, guard state event → weaker state event) :
    machine.Path weaker start final := by
  induction path with
  | refl => exact .refl
  | step event _ allowed stepped ih =>
    exact .step event ih (weaken _ _ allowed) stepped

/-- What one guarded step preserves, a whole guarded path preserves. -/
theorem preserves {motive : σ → Prop} (path : machine.Path guard start final)
    (initially : motive start) (preserved : ∀ state event next, motive state → guard state event →
      machine.step state event = some next → motive next) : motive final := by
  induction path with
  | refl => exact initially
  | step event _ allowed stepped ih =>
    exact preserved _ _ _ ih allowed stepped

end Path

namespace Reachable

/-- A path from a reachable state leads to a reachable state. -/
theorem extend (reachable : machine.Reachable guard middle)
    (path : machine.Path guard middle final) : machine.Reachable guard final := by
  obtain ⟨start, starts, before⟩ := reachable
  exact ⟨start, starts, before.trans path⟩

/-- Reachability under a condition implies it under a weaker one. -/
theorem mono (reachable : machine.Reachable guard final)
    (weaken : ∀ state event, guard state event → weaker state event) :
    machine.Reachable weaker final := by
  obtain ⟨start, starts, path⟩ := reachable
  exact ⟨start, starts, path.mono weaken⟩

/-- The induction rule for invariants of guarded runs: a step has to preserve the
invariant where it starts from a reachable state. -/
theorem invariant {motive : σ → Prop} (reachable : machine.Reachable guard final)
    (initially : ∀ state, machine.Start state → motive state)
    (preserved : ∀ state event next, machine.Reachable guard state → motive state →
      guard state event → machine.step state event = some next → motive next) : motive final := by
  obtain ⟨start, starts, path⟩ := reachable
  induction path with
  | refl => exact initially start starts
  | step event before allowed stepped ih =>
    exact preserved _ event _ ⟨start, starts, before⟩ ih allowed stepped

end Reachable

/-- From a state a guarded path leads to a wanted one. -/
def Leads (machine : Machine σ ε) (guard : σ → ε → Prop) (state : σ) (wanted : σ → Prop) :
    Prop :=
  ∃ final, machine.Path guard state final ∧ wanted final

variable {state : σ}

theorem Leads.here {wanted : σ → Prop} (reached : wanted state) :
    machine.Leads guard state wanted :=
  ⟨state, .refl, reached⟩

theorem Leads.step {wanted : σ → Prop} {next : σ} (event : ε) (allowed : guard state event)
    (stepped : machine.step state event = some next) (rest : machine.Leads guard next wanted) :
    machine.Leads guard state wanted := by
  obtain ⟨final, path, reached⟩ := rest
  exact ⟨final, (Path.step event .refl allowed stepped).trans path, reached⟩

variable {events : List ε}

/-- A replay that never breaks a decidable condition is a guarded path. -/
theorem path_of_run {guard : σ → ε → Bool} {final : σ} (ran : machine.run state events = some final)
    (meets : machine.runMeets guard state events = true) :
    machine.Path (fun state event => guard state event = true) state final := by
  induction events generalizing state with
  | nil =>
    simp only [run, Option.some.injEq] at ran
    subst ran
    exact .refl
  | cons event events ih =>
    simp only [run, Option.bind_eq_some_iff] at ran
    obtain ⟨next, stepped, rest⟩ := ran
    simp only [runMeets, stepped, Bool.and_eq_true] at meets
    exact (Path.step event .refl meets.1 stepped).trans (ih rest meets.2)

theorem anyPath_of_run {final : σ} (ran : machine.run state events = some final) :
    machine.Path anyStep state final := by
  induction events generalizing state with
  | nil =>
    simp only [run, Option.some.injEq] at ran
    subst ran
    exact .refl
  | cons event events ih =>
    simp only [run, Option.bind_eq_some_iff] at ran
    obtain ⟨next, stepped, rest⟩ := ran
    exact (Path.step event .refl trivial stepped).trans (ih rest)

/-- A replay from a start state that ends well reaches such a state. -/
theorem exists_reachable_of_run (machine : Machine σ ε) (check : σ → Bool)
    (starts : machine.Start state) (ran : (machine.run state events).any check = true) :
    ∃ final, machine.Reachable anyStep final ∧ check final = true := by
  obtain ⟨final, ended, checked⟩ := (Option.any_eq_true check _).mp ran
  exact ⟨final, ⟨state, starts, anyPath_of_run ended⟩, checked⟩

/-- The same under a condition that no step of the replay breaks. -/
theorem exists_reachable_of_runMeets (machine : Machine σ ε)
    {guard : σ → ε → Bool} (check : σ → Bool) (starts : machine.Start state)
    (meets : machine.runMeets guard state events = true)
    (ran : (machine.run state events).any check = true) :
    ∃ final, machine.Reachable (guard · ·) final ∧ check final = true := by
  obtain ⟨final, ended, checked⟩ := (Option.any_eq_true check _).mp ran
  exact ⟨final, ⟨state, starts, path_of_run ended meets⟩, checked⟩

/-- Where a step keeps things fine exactly when it meets a condition, a replay leaves them
fine exactly when all its steps meet it. -/
theorem fine_iff_runMeets (machine : Machine σ ε) {guard : σ → ε → Bool} (holds fine : σ → Prop)
    (preserved : ∀ state event next, holds state → machine.step state event = some next →
      holds next)
    (fine_step_iff : ∀ state event next, holds state → machine.step state event = some next →
      (fine next ↔ fine state ∧ guard state event = true))
    {final : σ} (initially : holds state) (ran : machine.run state events = some final) :
    fine final ↔ fine state ∧ machine.runMeets guard state events = true := by
  induction events generalizing state with
  | nil =>
    simp only [run, Option.some.injEq] at ran
    subst ran
    simp [runMeets]
  | cons event events ih =>
    simp only [run, Option.bind_eq_some_iff] at ran
    obtain ⟨next, stepped, rest⟩ := ran
    rw [ih (preserved state event next initially stepped) rest,
      fine_step_iff state event next initially stepped]
    simp only [runMeets, stepped, Bool.and_eq_true, and_assoc]

/-- The variant rule: of the events of a replay, those that lower a variant are at
most as many as it allows, when the others do not raise it. -/
theorem countP_add_variant_le (machine : Machine σ ε)
    (holds : σ → Prop) (allowed counted : ε → Bool) (variant : σ → Nat)
    (preserved : ∀ state event next, holds state → allowed event = true →
      machine.step state event = some next → holds next)
    (lowered : ∀ state event next, holds state → allowed event = true →
      machine.step state event = some next → variant next + (counted event).toNat ≤ variant state)
    {final : σ} (initially : holds state) (within : ∀ event ∈ events, allowed event = true)
    (ran : machine.run state events = some final) :
    holds final ∧ events.countP counted + variant final ≤ variant state := by
  induction events generalizing state with
  | nil =>
    simp only [run, Option.some.injEq] at ran
    subst ran
    exact ⟨initially, by simp⟩
  | cons event events ih =>
    simp only [run, Option.bind_eq_some_iff] at ran
    obtain ⟨next, stepped, rest⟩ := ran
    have allows : allowed event = true := within event List.mem_cons_self
    have after := preserved state event next initially allows stepped
    have lower := lowered state event next initially allows stepped
    have tail := ih after (fun later member => within later (List.mem_cons_of_mem _ member)) rest
    refine ⟨tail.1, ?_⟩
    rw [List.countP_cons]
    have counts : (if counted event = true then 1 else 0) = (counted event).toNat := by
      cases counted event <;> rfl
    have bound := tail.2
    omega

end Machine

end LosslessMusic.Transition
