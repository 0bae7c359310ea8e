import LosslessMusic.Transition.Machine

/-!
# Threads that share a state

A thread makes one indivisible action after the other, and the others act in between. An
action sees the shared state and an answer of the surroundings, and may have to wait.

What a thread relies on is a relation that the actions of the others are within. A thread is
safe if each of its actions keeps the invariant and is within what the others rely on, in
every state that the thread may find. Threads that are safe on their own are safe together.
-/

namespace LosslessMusic.Transition

/-- What a thread still does. -/
inductive Thread (σ β ε α : Type) : Type 1
  | done (value : α)
  | fails (error : ε)
  | act {γ : Type} (action : σ → β → Option (σ × γ)) (next : γ → Thread σ β ε α)

namespace Thread

variable {σ β ε α γ : Type}

/-- One thread after another, unless the first fails. -/
def bind : Thread σ β ε α → (α → Thread σ β ε γ) → Thread σ β ε γ
  | done value, continuation => continuation value
  | fails error, _ => fails error
  | act action next, continuation => act action fun result => (next result).bind continuation

instance : Monad (Thread σ β ε) where
  pure := done
  bind := bind

/-- A thread whose failure is looked at. -/
def outcome : Thread σ β ε α → Thread σ β ε (Except ε α)
  | done value => done (.ok value)
  | fails error => done (.error error)
  | act action next => act action fun result => (next result).outcome

/-- A result that is there already. -/
def ofExcept : Except ε α → Thread σ β ε α
  | .ok value => done value
  | .error error => fails error

/-- An action that never waits. -/
def locked (action : σ → β → σ × Except ε α) : Thread σ β ε α :=
  act (fun state answer => some (action state answer)) ofExcept

/-- A thread that waits for ever. -/
def stuck : Thread σ β ε α := act (fun _ _ => (none : Option (σ × α))) done

section Safe

variable (invariant : σ → Prop) (rely : Nat → σ → σ → Prop) (allowed : Nat → σ → β → Prop)
    (party : Nat)

/-- Under the allowed answers, the actions of a thread keep the invariant and are within what
the others rely on, and it ends as `post` or `failed` says. -/
def Safe {α : Type} (post : α → σ → Prop) (failed : ε → σ → Prop) : Thread σ β ε α → σ → Prop
  | done value, state => post value state
  | fails error, state => failed error state
  | act action next, state => ∀ now, rely party state now → invariant now →
      ∀ answer, allowed party now answer → ∀ after result, action now answer = some (after, result) →
        invariant after ∧ (∀ other, other ≠ party → rely other now after) ∧
          Safe post failed (next result) after

end Safe

variable {invariant : σ → Prop} {rely : Nat → σ → σ → Prop} {allowed : Nat → σ → β → Prop}
    {party : Nat} {state : σ} {post : α → σ → Prop} {failed : ε → σ → Prop}

variable {thread : Thread σ β ε α}

theorem Safe.mono {post' : α → σ → Prop} {failed' : ε → σ → Prop}
    (safe : Safe invariant rely allowed party post failed thread state)
    (ends : ∀ value state, post value state → post' value state)
    (breaks : ∀ error state, failed error state → failed' error state) :
    Safe invariant rely allowed party post' failed' thread state := by
  induction thread generalizing state with
  | done value => exact ends value state safe
  | fails error => exact breaks error state safe
  | act action next ih =>
    intro now relied holds answer answered after result acted
    have ⟨kept, within, rest⟩ := safe now relied holds answer answered after result acted
    exact ⟨kept, within, ih result rest⟩

theorem Safe.bind {first : Thread σ β ε γ} {next : γ → Thread σ β ε α} {middle : γ → σ → Prop}
    (safe : Safe invariant rely allowed party middle failed first state)
    (continues : ∀ value state, middle value state →
      Safe invariant rely allowed party post failed (next value) state) :
    Safe invariant rely allowed party post failed (first >>= next) state := by
  induction first generalizing state with
  | done value => exact continues value state safe
  | fails error => exact safe
  | act action rest ih =>
    intro now relied holds answer answered after result acted
    have ⟨kept, within, goes⟩ := safe now relied holds answer answered after result acted
    exact ⟨kept, within, ih result goes⟩

theorem Safe.outcome {never : ε → σ → Prop}
    (safe : Safe invariant rely allowed party post failed thread state) :
    Safe invariant rely allowed party (fun result state =>
        match result with
        | .ok value => post value state
        | .error error => failed error state) never thread.outcome state := by
  induction thread generalizing state with
  | done value => exact safe
  | fails error => exact safe
  | act action next ih =>
    intro now relied holds answer answered after result acted
    have ⟨kept, within, goes⟩ := safe now relied holds answer answered after result acted
    exact ⟨kept, within, ih result goes⟩

theorem safe_locked {action : σ → β → σ × Except ε α}
    (acts : ∀ now, rely party state now → invariant now → ∀ answer, allowed party now answer →
      invariant (action now answer).1 ∧
        (∀ other, other ≠ party → rely other now (action now answer).1) ∧
        match (action now answer).2 with
        | .ok value => post value (action now answer).1
        | .error error => failed error (action now answer).1) :
    Safe invariant rely allowed party post failed (locked action) state := by
  intro now relied holds answer answered after result acted
  have same := Option.some.inj acted
  have ⟨kept, within, ends⟩ := acts now relied holds answer answered
  rw [same] at kept within ends
  refine ⟨kept, within, ?_⟩
  cases result with
  | ok value => exact ends
  | error error => exact ends

theorem safe_stuck : Safe invariant rely allowed party post failed stuck state := by
  intro now relied holds answer answered after result acted
  cases acted

theorem Safe.later {now : σ} (safe : Safe invariant rely allowed party post failed thread state)
    (trans : ∀ first second third, rely party first second → rely party second third →
      rely party first third)
    (stays : ∀ value state later, post value state → rely party state later → post value later)
    (stands : ∀ error state later, failed error state → rely party state later → failed error later)
    (relied : rely party state now) : Safe invariant rely allowed party post failed thread now := by
  cases thread with
  | done value => exact stays value state now safe relied
  | fails error => exact stands error state now safe relied
  | act action next =>
    intro found further holds answer answered after result acted
    exact safe found (trans _ _ _ relied further) holds answer answered after result acted

end Thread

/-- A shared state with the threads that share it. -/
structure Threads (σ β ε α : Type) : Type 1 where
  shared : σ
  threads : List (Thread σ β ε α)

/-- A thread acts. -/
structure Turn (β : Type) where
  party : Nat
  answer : β

namespace Threads

variable {σ β ε α : Type}

def step (system : Threads σ β ε α) (turn : Turn β) : Option (Threads σ β ε α) :=
  match system.threads[turn.party]? with
  | some (.act action next) =>
    (action system.shared turn.answer).map fun (shared, result) =>
      { shared, threads := system.threads.set turn.party (next result) }
  | _ => none

/-- The machine of the systems that start so. -/
def machine (start : Threads σ β ε α → Prop) : Machine (Threads σ β ε α) (Turn β) where
  Start := start
  step := step

section Safe

variable (invariant : σ → Prop) (rely : Nat → σ → σ → Prop) (allowed : Nat → σ → β → Prop)
    (post : Nat → α → σ → Prop) (failed : Nat → ε → σ → Prop)

/-- The invariant holds and every thread is safe. -/
structure Safe (system : Threads σ β ε α) : Prop where
  holds : invariant system.shared
  safe : ∀ (party : Nat) (thread : Thread σ β ε α), system.threads[party]? = some thread →
    Thread.Safe invariant rely allowed party (post party) (failed party) thread system.shared

/-- What a thread may rely on, and what stays true of its end meanwhile. -/
structure Reliable : Prop where
  refl : ∀ party state, rely party state state
  trans : ∀ party first second third, rely party first second → rely party second third →
    rely party first third
  stays : ∀ party value state later, post party value state → rely party state later →
    post party value later
  stands : ∀ party error state later, failed party error state → rely party state later →
    failed party error later

end Safe

variable {invariant : σ → Prop} {rely : Nat → σ → σ → Prop} {allowed : Nat → σ → β → Prop}
    {post : Nat → α → σ → Prop} {failed : Nat → ε → σ → Prop} {system next : Threads σ β ε α}
    {turn : Turn β}

theorem Safe.step (safe : system.Safe invariant rely allowed post failed)
    (reliable : Reliable rely post failed) (answered : allowed turn.party system.shared turn.answer)
    (stepped : system.step turn = some next) : next.Safe invariant rely allowed post failed := by
  unfold Threads.step at stepped
  split at stepped
  next action continuation here =>
    obtain ⟨⟨after, result⟩, acted, rfl⟩ := Option.map_eq_some_iff.mp stepped
    have ⟨kept, within, goes⟩ := safe.safe _ _ here _ (reliable.refl _ _) safe.holds _ answered
      after result acted
    refine ⟨kept, fun party thread there => ?_⟩
    rw [List.getElem?_set] at there
    split at there
    next same =>
      subst same
      split at there <;> cases there
      exact goes
    next different =>
      exact (safe.safe party thread there).later (reliable.trans party) (reliable.stays party)
        (reliable.stands party) (within party fun same => different same.symm)
  next => cases stepped

theorem safe_of_reachable {start : Threads σ β ε α → Prop} (reliable : Reliable rely post failed)
    (starts : ∀ system, start system → system.Safe invariant rely allowed post failed)
    (reachable : (machine start).Reachable
      (fun system turn => allowed turn.party system.shared turn.answer) system) :
    system.Safe invariant rely allowed post failed :=
  reachable.invariant starts fun _ _ _ _ safe answered stepped =>
    safe.step reliable answered stepped

end Threads

end LosslessMusic.Transition
