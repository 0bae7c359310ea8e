import Mathlib.Algebra.Group.Int.Defs
import Mathlib.Algebra.GroupWithZero.Nat

/-!
# Programs that can stop between two requests

A program asks its surroundings for one thing after the other. A request may fail, and
after any of them the program may never be continued. What a program meets is therefore
said of the states in between as well as of the state it ends in.

Several programs may take turns. One that only makes requests of its own meets the same,
whatever the others do to the rest of the state.
-/

namespace LosslessMusic.Interruption

universe u v w x y z

/-- A program over requests, each of which is answered or fails (`none`). -/
inductive Program (ρ : Type u) (answer : ρ → Type v) (ε : Type w) (α : Type x)
  | done (value : α)
  | fails (error : ε)
  | request (asked : ρ) (next : Option (answer asked) → Program ρ answer ε α)

namespace Program

variable {ρ : Type u} {answer : ρ → Type v} {ε : Type w}

section Sequencing

variable {α : Type x} {β : Type y}

/-- One program after another, unless the first fails. -/
def bind : Program ρ answer ε α → (α → Program ρ answer ε β) → Program ρ answer ε β
  | done value, continuation => continuation value
  | fails error, _ => fails error
  | request asked next, continuation =>
    request asked fun answered => (next answered).bind continuation

/-- A request whose failure is ignored. -/
def attempt (asked : ρ) : Program ρ answer ε (Option (answer asked)) :=
  request asked done

/-- A request whose failure ends the program. -/
def ask (asked : ρ) (error : ε) : Program ρ answer ε (answer asked) :=
  request asked fun
    | some answered => done answered
    | none => fails error

/-- A program whose failure is looked at. -/
def outcome : Program ρ answer ε α → Program ρ answer ε (Except ε α)
  | done value => done (.ok value)
  | fails error => done (.error error)
  | request asked next => request asked fun answered => (next answered).outcome

/-- A result that is there already. -/
def ofExcept : Except ε α → Program ρ answer ε α
  | .ok value => done value
  | .error error => fails error

end Sequencing

instance : Monad (Program ρ answer ε) where
  pure := done
  bind := bind

variable {α β : Type x}

end Program

/-- How requests act on a state. The surroundings choose among the possible outcomes. -/
structure Surroundings (ρ : Type u) (answer : ρ → Type v) (χ : Type y) (σ : Type z) where
  /-- The next state, and the answer if the request does not fail. -/
  effect : σ → (asked : ρ) → χ → σ × Option (answer asked)

namespace Program

variable {ρ : Type u} {answer : ρ → Type v} {ε : Type w} {χ : Type y} {σ : Type z}

section Meets

variable {α : Type x} (surroundings : Surroundings ρ answer χ σ)
    (owns : ρ → Prop) (allowed : ρ → χ → Prop)

/-- Under every allowed choice, the program makes requests of its own, `during` holds at
each of them, and it ends as `post` or `failed` says. -/
def Meets (during : σ → Prop) (post : α → σ → Prop) (failed : ε → σ → Prop) :
    Program ρ answer ε α → σ → Prop
  | done value, state => post value state
  | fails error, state => failed error state
  | request asked next, state =>
    owns asked ∧ during state ∧ ∀ choice, allowed asked choice →
      Meets during post failed (next (surroundings.effect state asked choice).2)
        (surroundings.effect state asked choice).1

end Meets

variable {surroundings : Surroundings ρ answer χ σ} {owns : ρ → Prop} {allowed : ρ → χ → Prop}
    {during : σ → Prop}

section Rules

variable {α : Type x} {post : α → σ → Prop} {failed : ε → σ → Prop} {state : σ}

variable {program : Program ρ answer ε α}

theorem Meets.mono {during' : σ → Prop} {post' : α → σ → Prop} {failed' : ε → σ → Prop}
    (meets : Meets surroundings owns allowed during post failed program state)
    (between : ∀ state, during state → during' state)
    (ends : ∀ value state, post value state → post' value state)
    (breaks : ∀ error state, failed error state → failed' error state) :
    Meets surroundings owns allowed during' post' failed' program state := by
  induction program generalizing state with
  | done value => exact ends value state meets
  | fails error => exact breaks error state meets
  | request asked next ih =>
    refine ⟨meets.1, between state meets.2.1, ?_⟩
    intro choice permitted
    exact ih _ (meets.2.2 choice permitted)

theorem Meets.anytime (meets : Meets surroundings owns allowed during post failed program state)
    (ends : ∀ value state, post value state → during state)
    (breaks : ∀ error state, failed error state → during state) : during state := by
  cases program with
  | done value => exact ends value state meets
  | fails error => exact breaks error state meets
  | request asked next => exact meets.2.1

/-- What every outcome of a request preserves holds throughout. -/
theorem Meets.keeping (kept : σ → Prop)
    (meets : Meets surroundings owns allowed during post failed program state)
    (initially : kept state) (preserved : ∀ state asked choice, allowed asked choice → kept state →
      kept (surroundings.effect state asked choice).1) :
    Meets surroundings owns allowed (fun state => during state ∧ kept state)
      (fun value state => post value state ∧ kept state)
      (fun error state => failed error state ∧ kept state) program state := by
  induction program generalizing state with
  | done value => exact ⟨meets, initially⟩
  | fails error => exact ⟨meets, initially⟩
  | request asked next ih =>
    refine ⟨meets.1, ⟨meets.2.1, initially⟩, ?_⟩
    intro choice permitted
    exact ih _ (meets.2.2 choice permitted) (preserved state asked choice permitted initially)

/-- A program meets the same in two states that agree on what its requests depend on. -/
theorem Meets.congr {same : σ → σ → Prop} {other : σ}
    (meets : Meets surroundings owns allowed during post failed program state)
    (agree : same state other)
    (answers : ∀ state other asked choice, owns asked → same state other →
      same (surroundings.effect state asked choice).1 (surroundings.effect other asked choice).1 ∧
        (surroundings.effect state asked choice).2 = (surroundings.effect other asked choice).2)
    (between : ∀ state other, same state other → during state → during other)
    (ends : ∀ value state other, same state other → post value state → post value other)
    (breaks : ∀ error state other, same state other → failed error state → failed error other) :
    Meets surroundings owns allowed during post failed program other := by
  induction program generalizing state other with
  | done value => exact ends value state other agree meets
  | fails error => exact breaks error state other agree meets
  | request asked next ih =>
    refine ⟨meets.1, between state other agree meets.2.1, ?_⟩
    intro choice permitted
    have both := answers state other asked choice meets.1 agree
    have rest := meets.2.2 choice permitted
    rw [both.2] at rest
    exact ih _ rest both.1

end Rules

section Composition

variable {α : Type x} {β : Type y} {post : β → σ → Prop} {failed : ε → σ → Prop} {state : σ}

variable {program : Program ρ answer ε α} {continuation : α → Program ρ answer ε β}

theorem Meets.bind (meets : Meets surroundings owns allowed during (fun value state =>
        Meets surroundings owns allowed during post failed (continuation value) state)
      failed program state) :
    Meets surroundings owns allowed during post failed (program.bind continuation) state := by
  induction program generalizing state with
  | done value => exact meets
  | fails error => exact meets
  | request asked next ih =>
    refine ⟨meets.1, meets.2.1, ?_⟩
    intro choice permitted
    exact ih _ (meets.2.2 choice permitted)

/-- Composition where the first program has a specification of its own. -/
theorem Meets.andThen {middle : α → σ → Prop}
    (first : Meets surroundings owns allowed during middle failed program state)
    (second : ∀ value state, middle value state →
      Meets surroundings owns allowed during post failed (continuation value) state) :
    Meets surroundings owns allowed during post failed (program.bind continuation) state := by
  apply Meets.bind
  exact first.mono (fun _ held => held) second (fun _ _ broken => broken)

end Composition

section Outcomes

variable {α : Type x} {state : σ}

variable {failed : ε → σ → Prop} {program : Program ρ answer ε α}

theorem Meets.outcome {post : Except ε α → σ → Prop} (meets : Meets surroundings owns allowed during
      (fun value => post (.ok value)) (fun error => post (.error error)) program state) :
    Meets surroundings owns allowed during post failed program.outcome state := by
  induction program generalizing state with
  | done value => exact meets
  | fails error => exact meets
  | request asked next ih =>
    refine ⟨meets.1, meets.2.1, ?_⟩
    intro choice permitted
    exact ih _ (meets.2.2 choice permitted)

theorem Meets.handle {β : Type y} {post : β → σ → Prop}
    {handler : Except ε α → Program ρ answer ε β}
    (meets : Meets surroundings owns allowed during (fun value state =>
        Meets surroundings owns allowed during post failed (handler (.ok value)) state)
      (fun error state =>
        Meets surroundings owns allowed during post failed (handler (.error error)) state)
      program state) :
    Meets surroundings owns allowed during post failed (program.outcome.bind handler) state := by
  have looked : Meets surroundings owns allowed during
      (fun result state => Meets surroundings owns allowed during post failed (handler result) state)
      failed program.outcome state := Meets.outcome meets
  exact looked.bind

end Outcomes

section Requests

variable {asked : ρ} {state : σ} {failed : ε → σ → Prop}

/-- A request whose failure ends the program, by its two kinds of outcome. -/
theorem meets_ask {post : answer asked → σ → Prop} {error : ε}
    (own : owns asked) (before : during state) (answers : ∀ choice answered, allowed asked choice →
      (surroundings.effect state asked choice).2 = some answered →
      post answered (surroundings.effect state asked choice).1)
    (refuses : ∀ choice, allowed asked choice → (surroundings.effect state asked choice).2 = none →
      failed error (surroundings.effect state asked choice).1) :
    Meets surroundings owns allowed during post failed (ask asked error) state := by
  refine ⟨own, before, ?_⟩
  intro choice permitted
  cases outcome : (surroundings.effect state asked choice).2 with
  | some answered => exact answers choice answered permitted outcome
  | none => exact refuses choice permitted outcome

theorem meets_attempt {post : Option (answer asked) → σ → Prop}
    (own : owns asked) (before : during state)
    (answers : ∀ choice, allowed asked choice → post (surroundings.effect state asked choice).2
        (surroundings.effect state asked choice).1) :
    Meets surroundings owns allowed during post failed (attempt asked) state :=
  ⟨own, before, answers⟩

theorem meets_ofExcept {α : Type x} {post : α → σ → Prop} {result : Except ε α}
    (succeeds : ∀ value, result = .ok value → post value state)
    (breaks : ∀ error, result = .error error → failed error state) :
    Meets surroundings owns allowed during post failed (ofExcept result) state := by
  cases result with
  | ok value => exact succeeds value rfl
  | error error => exact breaks error rfl

end Requests

end Program

end LosslessMusic.Interruption
