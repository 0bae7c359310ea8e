import LosslessMusic.Extensions.SignedSessions

/-!
# The books of signed sessions

What is in flight, since when, and what has been stored and granted. Most actions only change
what is behind the lock. A flight that is in the books is the only one of its kind, and no other
party takes it out.
-/

namespace LosslessMusic.Extensions.SignedSession

open Transition

variable {libraries : Libraries}

/-- A session is stored at the clear at which its operation began, and not in place of another
one that is usable and not blocked. -/
structure Stored.Sound (stored : Stored) : Prop where
  dated : stored.began = stored.epoch
  different : stored.usable = true → stored.blocked = false →
    stored.before.sameSession stored.base = true

/-- A completed grant leaves a usable session: the one it has bought, or one that was not
blocked. -/
structure Completion.Sound (completion : Completion) : Prop where
  usable : completion.usable = true
  bought : (∃ fetched, completion.bought = some fetched ∧
      completion.record.sessionId = fetched.sessionId ∧
      completion.record.sessionSecret = fetched.sessionSecret ∧
      completion.record.expiresAt = fetched.expiresAt) ∨
    completion.blocked = false

/-- What holds whoever acts. -/
structure Sound (shared : Shared) : Prop where
  generation : shared.clearGeneration = shared.epoch % 2 ^ 64
  slots : ∀ kind, (shared.performing.filter fun operation => operation.kind = kind).length =
    (shared.slot kind).toList.length
  flown : ∀ operation ∈ shared.performing, shared.slot operation.kind = some operation.flight
  dated : ∀ operation ∈ shared.performing, operation.began ≤ shared.epoch
  stores : ∀ stored ∈ shared.stores, stored.Sound
  completions : ∀ completion ∈ shared.completions, completion.Sound

/-- What the others leave to a party. -/
structure Relies (party : Nat) (before after : Shared) : Prop where
  epoch : before.epoch ≤ after.epoch
  performing : ∀ operation ∈ before.performing, operation.party = party →
    operation ∈ after.performing
  completions : ∀ completion ∈ before.completions, completion ∈ after.completions

theorem Relies.refl (party : Nat) (shared : Shared) : Relies party shared shared where
  epoch := Nat.le_refl _
  performing _ member _ := member
  completions _ member := member

theorem Relies.trans {party : Nat} {first second third : Shared}
    (before : Relies party first second) (after : Relies party second third) :
    Relies party first third where
  epoch := Nat.le_trans before.epoch after.epoch
  performing operation member mine :=
    after.performing operation (before.performing operation member mine) mine
  completions completion member :=
    after.completions completion (before.completions completion member)

/-- Nothing comes into flight or lands, and what is stored or granted is sound. -/
structure Keeps (before after : Shared) : Prop where
  epoch : after.epoch = before.epoch
  generation : after.clearGeneration = before.clearGeneration
  slot : after.slot = before.slot
  performing : after.performing = before.performing
  stores : ∀ stored ∈ after.stores, stored ∈ before.stores ∨ stored.Sound
  completions : ∀ completion ∈ after.completions, completion ∈ before.completions ∨ completion.Sound
  completed : ∀ completion ∈ before.completions, completion ∈ after.completions

namespace Keeps

variable {shared before after later : Shared}

theorem refl (shared : Shared) : Keeps shared shared where
  epoch := rfl
  generation := rfl
  slot := rfl
  performing := rfl
  stores _ member := .inl member
  completions _ member := .inl member
  completed _ member := member

theorem trans (first : Keeps before after) (second : Keeps after later) : Keeps before later where
  epoch := second.epoch.trans first.epoch
  generation := second.generation.trans first.generation
  slot := second.slot.trans first.slot
  performing := second.performing.trans first.performing
  stores stored member := (second.stores stored member).elim (first.stores stored) .inr
  completions completion member :=
    (second.completions completion member).elim (first.completions completion) .inr
  completed completion member := second.completed completion (first.completed completion member)

theorem contents (shared : Shared) (contents : Contents) : Keeps shared (shared.withContents contents) :=
  { refl shared with }

theorem check (shared : Shared) (party : Nat) (answer : Answer) :
    Keeps shared (shared.check party answer).1 := by
  unfold Shared.check
  split
  · exact refl _
  · split
    · exact { refl shared with }
    · exact { refl shared with }

theorem waits (shared : Shared) (flight party : Nat) : Keeps shared (shared.waits flight party) :=
  { refl shared with }

theorem finish (shared : Shared) (flight : Nat) (result : Except Fault Unit) :
    Keeps shared (shared.finish flight result) :=
  { refl shared with }

theorem store (shared : Shared) {stored : Stored} (contents : Contents) (sound : stored.Sound) :
    Keeps shared (shared.store contents stored) :=
  { refl shared with
    stores := fun other member => by
      rcases List.mem_cons.mp member with rfl | old
      · exact .inr sound
      · exact .inl old }

theorem complete (shared : Shared) {completion : Completion} (contents : Contents) (sound : completion.Sound) :
    Keeps shared (shared.complete contents completion) :=
  { refl shared with
    completions := fun other member => by
      rcases List.mem_cons.mp member with rfl | old
      · exact .inr sound
      · exact .inl old
    completed := fun _ member => List.mem_cons_of_mem _ member }

theorem sound (keeps : Keeps before after) (sound : Sound before) : Sound after where
  generation := by
    rw [keeps.generation, keeps.epoch]
    exact sound.generation
  slots kind := by
    rw [keeps.performing, keeps.slot]
    exact sound.slots kind
  flown := by
    rw [keeps.performing, keeps.slot]
    exact sound.flown
  dated := by
    rw [keeps.performing, keeps.epoch]
    exact sound.dated
  stores stored member := (keeps.stores stored member).elim (sound.stores stored) id
  completions completion member :=
    (keeps.completions completion member).elim (sound.completions completion) id

theorem relies (keeps : Keeps before after) (party : Nat) : Relies party before after where
  epoch := Nat.le_of_eq keeps.epoch.symm
  performing _ member _ := keeps.performing.symm ▸ member
  completions := keeps.completed

end Keeps

/-! ## Flights -/

section Flights

variable {shared : Shared} {operation : Operation}

theorem Sound.take (sound : Sound shared) {kind : Kind} (free : shared.slot kind = none)
    (party began : Nat) (stage : Stage) (dated : began ≤ shared.epoch) :
    Sound (shared.take kind party began stage) where
  generation := sound.generation
  slots other := by
    have before := sound.slots other
    by_cases same : other = kind
    · subst same
      rw [free] at before
      simp only [Shared.take, Function.update_self, List.filter_cons]
      simpa using before
    · have different : ¬ kind = other := fun equal => same equal.symm
      simp only [Shared.take, Function.update_of_ne same, List.filter_cons, different,
        decide_false, Bool.false_eq_true, if_false]
      exact before
  flown other member := by
    rcases List.mem_cons.mp member with rfl | old
    · exact Function.update_self _ _ _
    · have known := sound.flown other old
      have different : other.kind ≠ kind := fun same => by
        rw [same, free] at known
        cases known
      exact (Function.update_of_ne different _ _).trans known
  dated other member := by
    rcases List.mem_cons.mp member with rfl | old
    · exact dated
    · exact sound.dated other old
  stores := sound.stores
  completions := sound.completions

theorem relies_take (kind : Kind) (party began : Nat) (stage : Stage) (other : Nat) :
    Relies other shared (shared.take kind party began stage) where
  epoch := Nat.le_refl _
  performing _ member _ := List.mem_cons_of_mem _ member
  completions _ member := member

theorem Sound.alone (sound : Sound shared) (here : operation ∈ shared.performing)
    {other : Operation} (there : other ∈ shared.performing) (same : other.kind = operation.kind) :
    other = operation := by
  have one := sound.slots operation.kind
  rw [sound.flown operation here] at one
  obtain ⟨only, found⟩ := List.length_eq_one_iff.mp one
  have first : operation ∈ shared.performing.filter fun known => known.kind = operation.kind :=
    List.mem_filter.mpr ⟨here, decide_eq_true rfl⟩
  have second : other ∈ shared.performing.filter fun known => known.kind = operation.kind :=
    List.mem_filter.mpr ⟨there, decide_eq_true same⟩
  rw [found, List.mem_singleton] at first second
  exact second.trans first.symm

theorem Sound.release (sound : Sound shared) (kind : Kind) : Sound (shared.release kind) where
  generation := sound.generation
  slots other := by
    have before := sound.slots other
    by_cases same : other = kind
    · subst same
      simp only [Shared.release, Function.update_self, List.filter_filter]
      simp
    · simp only [Shared.release, Function.update_of_ne same, List.filter_filter]
      rw [← before]
      refine congrArg List.length (List.filter_congr fun known _ => ?_)
      by_cases equal : known.kind = other
      · simp [equal, same]
      · simp [equal]
  flown other member := by
    obtain ⟨old, different⟩ := List.mem_filter.mp member
    exact (Function.update_of_ne (of_decide_eq_true different) _ _).trans (sound.flown other old)
  dated other member := sound.dated other (List.mem_filter.mp member).1
  stores := sound.stores
  completions := sound.completions

theorem Sound.relies_release (sound : Sound shared) (here : operation ∈ shared.performing)
    {party : Nat} (different : party ≠ operation.party) :
    Relies party shared (shared.release operation.kind) where
  epoch := Nat.le_refl _
  performing other member mine := by
    refine List.mem_filter.mpr ⟨member, decide_eq_true fun same => different ?_⟩
    rw [← mine, sound.alone here member same]
  completions _ member := member

/-- A party has come to a flight of its own, and had none of the kind before. -/
structure Leads (operation : Operation) (start now : Shared) : Prop where
  relies : Relies operation.party start now
  first : ∀ other ∈ start.performing, other.party = operation.party →
    other.kind ≠ operation.kind
  here : operation ∈ now.performing

theorem Leads.later {start now later : Shared} (leads : Leads operation start now)
    (relies : Relies operation.party now later) : Leads operation start later where
  relies := leads.relies.trans relies
  first := leads.first
  here := relies.performing operation leads.here rfl

theorem Leads.release {start now : Shared} (leads : Leads operation start now) :
    Relies operation.party start (now.release operation.kind) where
  epoch := leads.relies.epoch
  performing other member mine := List.mem_filter.mpr ⟨leads.relies.performing other member mine,
      decide_eq_true (leads.first other member mine)⟩
  completions := leads.relies.completions

theorem leads_take (sound : Sound shared) {start : Shared} {kind : Kind} {party began : Nat}
    {stage : Stage} (free : shared.slot kind = none) (relies : Relies party start shared) :
    Leads ⟨kind, shared.flights.length, party, began, stage⟩ start
      (shared.take kind party began stage) where
  relies := relies.trans (relies_take _ _ _ _ _)
  first other member mine same := by
    have known := sound.flown other (relies.performing other member mine)
    rw [same, free] at known
    cases known
  here := List.mem_cons_self

end Flights

/-! ## First sections -/

/-- What the first section of `bootstrap` or `refresh` comes to. -/
inductive Entering (kind : Kind) (party : Nat) (shared : Shared) :
    Shared × Except Fault Entered → Prop
  | goes (contents : Contents) (url : String) :
      Entering kind party shared (shared.withContents contents, .ok (.url url))
  | fails (contents : Contents) (fault : Fault) (nobody : fault.origin = none) :
      Entering kind party shared (shared.withContents contents, .error fault)
  | waits (contents : Contents) (flight : Nat) (busy : shared.slot kind = some flight) :
      Entering kind party shared
        ((shared.withContents contents).waits flight party, .ok (.waits flight))
  | takes (contents : Contents) (record : Record) (free : shared.slot kind = none) :
      Entering kind party shared ((shared.withContents contents).take kind party shared.epoch .under,
        .ok (.performs record shared.clearGeneration shared.epoch shared.flights.length))

theorem load_nobody {client : Client} {answer : Answer} {contents after : Contents}
    {fault : Fault} (failed : load client answer contents = (after, .error fault)) :
    fault.origin = none := by
  unfold load at failed
  split at failed
  · cases failed
    rfl
  · dsimp only at failed
    generalize Record.normalizeScope _ client.scope = normalized at failed
    split at failed
    · split at failed <;> cases failed
      rfl
    · cases failed

theorem entering_bootstrap {party : Nat} (client : Client) (shared : Shared) (answer : Answer) :
    Entering .bootstrap party shared (enterBootstrap libraries party client shared answer) := by
  unfold enterBootstrap
  split
  · split
    · exact .fails shared.contents _ rfl
    · exact .goes shared.contents _
  · dsimp only
    split
    · exact .goes _ _
    · split
      next failed =>
        have nobody := load_nobody failed
        exact .fails _ _ nobody
      · split
        · exact .goes _ _
        · split
          next busy => exact .waits _ _ busy
          next free => exact .takes _ _ free

theorem entering_refresh {party : Nat} (client : Client) (shared : Shared) (answer : Answer) :
    Entering .refresh party shared (enterRefresh libraries party client shared answer) := by
  unfold enterRefresh
  split
  next failed => exact .fails _ _ (load_nobody failed)
  · dsimp only
    split
    · exact .goes _ _
    · split
      next busy => exact .waits _ _ busy
      next free => exact .takes _ _ free

end LosslessMusic.Extensions.SignedSession
