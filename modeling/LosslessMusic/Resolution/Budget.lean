import LosslessMusic.Transition.Machine
import LosslessMusic.Transition.Parties
import Mathlib.Order.Interval.Finset.Nat

/-!
# The allowance of a resolver

`ResolutionBudget` of the extensions: an allowance that is used up while no pause guard or some
charge guard is alive. Threads enter and drop their guards one after the other, as the lock and
the clock order them. Times are nanoseconds.
-/

namespace LosslessMusic.Resolution

open Transition

structure State where
  remaining : Nat
  started : Nat
  pauses : Nat
  charges : Nat

namespace State

/-- `State::remaining`. -/
def remainingAt (state : State) (now : Nat) : Nat :=
  if state.pauses = 0 ∨ 0 < state.charges then state.remaining - (now - state.started)
  else state.remaining

def settle (state : State) (now : Nat) : State :=
  { state with remaining := state.remainingAt now, started := now }

def new (allowance now : Nat) : State :=
  ⟨allowance, now, 0, 0⟩

def enter (state : State) (charge : Bool) (now : Nat) : State :=
  let settled := state.settle now
  if charge then { settled with charges := settled.charges + 1 }
  else { settled with pauses := settled.pauses + 1 }

/-- `BudgetGuard::drop`, or nothing where a counter would underflow. -/
def leave (state : State) (charge : Bool) (now : Nat) : Option State :=
  let settled := state.settle now
  if charge then
    if settled.charges = 0 then none else some { settled with charges := settled.charges - 1 }
  else if settled.pauses = 0 then none else some { settled with pauses := settled.pauses - 1 }

/-- The counter of one kind of guards. -/
def counter (state : State) (charge : Bool) : Nat :=
  if charge then state.charges else state.pauses

end State

/-- A guard, and when it was alive. -/
structure Guard where
  charge : Bool
  entered : Nat
  dropped : Option Nat := none

/-- The guard is alive at a time. -/
def Guard.alive (guard : Guard) (time : Nat) : Bool :=
  decide (guard.entered ≤ time) && guard.dropped.all (time < ·)

/-- How many guards of one kind are alive at a time. -/
def aliveCount (guards : List Guard) (charge : Bool) (time : Nat) : Nat :=
  guards.countP fun guard => guard.charge == charge && guard.alive time

/-- No pause guard or at least one charge guard is alive. -/
def Charged (guards : List Guard) (time : Nat) : Prop :=
  aliveCount guards false time = 0 ∨ 0 < aliveCount guards true time

instance (guards : List Guard) (time : Nat) : Decidable (Charged guards time) :=
  inferInstanceAs (Decidable (_ ∨ _))

/-- A budget, its guards, and the time of the last call. -/
structure System where
  created : Nat
  allowance : Nat
  state : State
  guards : List Guard := []
  clock : Nat

/-- What a thread does with the budget. -/
inductive Call
  | enter (charge : Bool)
  | drop (position : Nat)
  | remaining

namespace System

/-- The length of the periods, up to a time, in which the allowance is used up. -/
def chargedTime (s : System) (now : Nat) : Nat :=
  ((Finset.Ico s.created now).filter (Charged s.guards)).card

/-- A call at a time. Each guard is dropped once. -/
def step (s : System) (event : Nat × Call) : Option System :=
  let now := event.1
  if now < s.clock then none
  else match event.2 with
  | .enter charge =>
    some { s with
      state := s.state.enter charge now
      guards := s.guards ++ [{ charge, entered := now }]
      clock := now }
  | .drop position =>
    match s.guards[position]? with
    | some { charge, entered, dropped := none } =>
      (s.state.leave charge now).map fun state =>
        { s with
          state
          guards := s.guards.set position { charge, entered, dropped := some now }
          clock := now }
    | _ => none
  | .remaining => some { s with clock := now }

/-- The budgets that threads share. -/
def machine : Machine System (Nat × Call) where
  Start s := s = { s with state := .new s.allowance s.created, guards := [], clock := s.created }
  step := step

end System

namespace State

variable {state : State} {charge : Bool} {now : Nat}

theorem remainingAt_le {later : Nat} (after : now ≤ later) :
    state.remainingAt later ≤ state.remainingAt now := by
  unfold remainingAt
  split
  next => omega
  next => exact Nat.le_refl _

theorem remainingAt_started (started : state.started = now) :
    state.remainingAt now = state.remaining := by
  unfold remainingAt
  rw [started, Nat.sub_self, Nat.sub_zero, ite_self]

theorem leave_of_counter (positive : 0 < state.counter charge) :
    ∃ next, state.leave charge now = some next := by
  unfold counter at positive
  unfold leave
  dsimp only [settle]
  cases charge with
  | true => exact ⟨_, (if_pos rfl).trans (if_neg (Nat.ne_of_gt positive))⟩
  | false => exact ⟨_, (if_neg Bool.false_ne_true).trans (if_neg (Nat.ne_of_gt positive))⟩

theorem enter_spec (state : State) (charge : Bool) (now : Nat) :
    (state.enter charge now).remaining = state.remainingAt now ∧
      (state.enter charge now).started = now ∧
      ∀ kind, (state.enter charge now).counter kind =
        state.counter kind + if charge = kind then 1 else 0 := by
  cases charge with
  | true => exact ⟨rfl, rfl, fun kind => by cases kind <;> rfl⟩
  | false => exact ⟨rfl, rfl, fun kind => by cases kind <;> rfl⟩

theorem leave_spec {next : State} (left : state.leave charge now = some next) :
    next.remaining = state.remainingAt now ∧ next.started = now ∧
      ∀ kind, state.counter kind = next.counter kind + if charge = kind then 1 else 0 := by
  unfold leave at left
  dsimp only [settle] at left
  cases charge with
  | true =>
    rw [if_pos rfl] at left
    split at left
    · cases left
    next positive =>
      rw [← Option.some.inj left]
      refine ⟨rfl, rfl, fun kind => ?_⟩
      cases kind with
      | true => exact (Nat.sub_add_cancel (Nat.pos_of_ne_zero positive)).symm
      | false => rfl
  | false =>
    rw [if_neg Bool.false_ne_true] at left
    split at left
    · cases left
    next positive =>
      rw [← Option.some.inj left]
      refine ⟨rfl, rfl, fun kind => ?_⟩
      cases kind with
      | true => rfl
      | false => exact (Nat.sub_add_cancel (Nat.pos_of_ne_zero positive)).symm

end State

namespace System

variable {s next : System} {charge : Bool} {now : Nat}

/-- The counters are those of the live guards, and what remains was settled at the last change of
a guard. -/
structure Sound (s : System) : Prop where
  counted : ∀ charge, s.state.counter charge =
    s.guards.countP fun guard => guard.charge == charge && guard.dropped.isNone
  begun : s.created ≤ s.state.started
  past : s.state.started ≤ s.clock
  times : ∀ guard ∈ s.guards, guard.entered ≤ s.state.started ∧
    ∀ time ∈ guard.dropped, time ≤ s.state.started
  settled : s.state.remaining = s.allowance - s.chargedTime s.state.started

/-- From the last change on, the guards that are alive are those that are counted. -/
theorem Sound.aliveCount_eq (sound : s.Sound) (later : s.state.started ≤ now) :
    aliveCount s.guards charge now = s.state.counter charge := by
  rw [sound.counted]
  refine List.countP_congr fun guard member => ?_
  obtain ⟨entered, dropped⟩ := sound.times guard member
  unfold Guard.alive
  rw [decide_eq_true (entered.trans later), Bool.true_and]
  cases isDropped : guard.dropped with
  | none => rfl
  | some time =>
    have before : ¬now < time := Nat.not_lt.mpr ((dropped time isDropped).trans later)
    simp [before]

/-- A call that changes no guard finds what remains by the time of the charged periods. -/
theorem Sound.remainingAt_eq (sound : s.Sound) (later : s.state.started ≤ now) :
    s.state.remainingAt now = s.allowance - s.chargedTime now := by
  have split : s.chargedTime now = s.chargedTime s.state.started +
      ((Finset.Ico s.state.started now).filter (Charged s.guards)).card := by
    unfold chargedTime
    rw [← Finset.Ico_union_Ico_eq_Ico sound.begun later, Finset.filter_union,
      Finset.card_union_of_disjoint]
    exact Finset.disjoint_filter_filter (Finset.Ico_disjoint_Ico_consecutive _ _ _)
  have same : ∀ time ∈ Finset.Ico s.state.started now,
      (Charged s.guards time ↔ s.state.pauses = 0 ∨ 0 < s.state.charges) := by
    intro time member
    have after := (Finset.mem_Ico.mp member).1
    unfold Charged
    rw [sound.aliveCount_eq after, sound.aliveCount_eq after]
    rfl
  unfold State.remainingAt
  rw [split, Finset.filter_congr same, sound.settled]
  split
  next charged =>
    rw [Finset.filter_true_of_mem fun _ _ => charged, Nat.card_Ico, Nat.sub_sub]
  next idle => rw [Finset.filter_false_of_mem fun _ _ => idle, Finset.card_empty, Nat.add_zero]

/-- A change of a guard that was or is not alive before keeps the accounts. -/
theorem Sound.changed (sound : s.Sound) {state : State} {guards : List Guard}
    (later : s.clock ≤ now) (remaining : state.remaining = s.state.remainingAt now)
    (started : state.started = now) (counted : ∀ charge, state.counter charge =
      guards.countP fun guard => guard.charge == charge && guard.dropped.isNone)
    (times : ∀ guard ∈ guards, guard.entered ≤ now ∧ ∀ time ∈ guard.dropped, time ≤ now)
    (alike : ∀ charge, ∀ time < now,
      aliveCount guards charge time = aliveCount s.guards charge time) :
    Sound { s with state, guards, clock := now } where
  counted := counted
  begun := by
    rw [started]
    exact sound.begun.trans (sound.past.trans later)
  past := Nat.le_of_eq started
  times := by
    rw [started]
    exact times
  settled := by
    have same : chargedTime { s with state, guards, clock := now } now = s.chargedTime now := by
      unfold chargedTime
      congr 1
      refine Finset.filter_congr fun time member => ?_
      have before := (Finset.mem_Ico.mp member).2
      unfold Charged
      rw [alike false time before, alike true time before]
    rw [started, remaining, same]
    exact sound.remainingAt_eq (sound.past.trans later)

theorem sound_step (sound : s.Sound) {event : Nat × Call} (stepped : s.step event = some next) :
    next.Sound ∧ next.state.remainingAt next.clock ≤ s.state.remainingAt s.clock := by
  obtain ⟨now, call⟩ := event
  unfold step at stepped
  dsimp only at stepped
  split at stepped
  next => cases stepped
  next early =>
    have later : s.clock ≤ now := Nat.not_lt.mp early
    have inTime : s.state.started ≤ now := sound.past.trans later
    have old : ∀ guard ∈ s.guards, guard.entered ≤ now ∧ ∀ time ∈ guard.dropped, time ≤ now :=
      fun guard member => ⟨(sound.times guard member).1.trans inTime,
        fun time dropped => ((sound.times guard member).2 time dropped).trans inTime⟩
    have lessens {state : State} (remaining : state.remaining = s.state.remainingAt now)
        (started : state.started = now) : state.remainingAt now ≤ s.state.remainingAt s.clock := by
      rw [State.remainingAt_started started, remaining]
      exact State.remainingAt_le later
    cases call with
    | enter charge =>
      obtain ⟨remaining, started, counter⟩ := s.state.enter_spec charge now
      rw [← Option.some.inj stepped]
      refine ⟨sound.changed later remaining started ?_ ?_ ?_, lessens remaining started⟩
      · intro kind
        rw [counter, sound.counted, List.countP_append]
        cases charge <;> cases kind <;> rfl
      · intro guard member
        cases List.mem_append.mp member with
        | inl before => exact old guard before
        | inr new =>
          rw [List.mem_singleton.mp new]
          exact ⟨Nat.le_refl _, nofun⟩
      · intro kind time before
        unfold aliveCount
        rw [List.countP_append, Nat.add_eq_left, List.countP_eq_zero]
        simp [Guard.alive, before]
    | drop position =>
      dsimp only at stepped
      split at stepped
      next charge entered found =>
        obtain ⟨state, left, same⟩ := Option.map_eq_some_iff.mp stepped
        obtain ⟨remaining, started, counter⟩ := State.leave_spec left
        obtain ⟨inRange, isGuard⟩ := List.getElem?_eq_some_iff.mp found
        rw [← same]
        refine ⟨sound.changed later remaining started ?_ ?_ ?_, lessens remaining started⟩
        · intro kind
          have counted := (counter kind).symm.trans (sound.counted kind)
          rw [List.countP_set inRange, isGuard]
          cases charge <;> cases kind <;> simp at counted ⊢ <;> omega
        · intro guard member
          cases List.mem_or_eq_of_mem_set member with
          | inl before => exact old guard before
          | inr new =>
            rw [new]
            refine ⟨(old _ (List.mem_of_getElem? found)).1, fun time dropped => ?_⟩
            rw [← Option.some.inj dropped]
        · intro kind time before
          refine countP_set_eq found ?_
          simp [Guard.alive, before]
      next => cases stepped
    | remaining =>
      rw [← Option.some.inj stepped]
      exact ⟨⟨sound.counted, sound.begun, inTime, sound.times, sound.settled⟩,
        State.remainingAt_le later⟩

theorem sound_of_reachable (reachable : machine.Reachable Machine.anyStep s) : s.Sound := by
  refine reachable.invariant (fun state starts => ?_)
    fun _ _ _ _ sound _ stepped => (sound_step sound stepped).1
  have isStart : state = _ := starts
  rw [isStart]
  refine ⟨fun charge => by cases charge <;> rfl, Nat.le_refl _, Nat.le_refl _, nofun, ?_⟩
  simp [chargedTime, State.new]

theorem lessens_of_path (path : machine.Path Machine.anyStep s next) (sound : s.Sound) :
    next.state.remainingAt next.clock ≤ s.state.remainingAt s.clock := by
  have both := path.preserves (motive := fun state =>
      state.Sound ∧ state.state.remainingAt state.clock ≤ s.state.remainingAt s.clock)
    ⟨sound, Nat.le_refl _⟩ fun state event after before _ stepped => by
      obtain ⟨still, less⟩ := sound_step before.1 stepped
      exact ⟨still, less.trans before.2⟩
  exact both.2

/-- The counters are those of the live guards, no drop of a guard underflows, what remains is the
allowance without the charged periods, and it never grows again. -/
theorem remaining_of_reachable (s : System) (reachable : machine.Reachable Machine.anyStep s) :
    (∀ charge, s.state.counter charge =
        s.guards.countP fun guard => guard.charge == charge && guard.dropped.isNone) ∧
      (∀ guard ∈ s.guards, guard.dropped = none → ∀ now,
        ∃ next, s.state.leave guard.charge now = some next) ∧
      (∀ now, s.clock ≤ now → s.state.remainingAt now = s.allowance - s.chargedTime now) ∧
      ∀ final, machine.Path Machine.anyStep s final → ∀ now, final.clock ≤ now →
        final.state.remainingAt now ≤ s.state.remainingAt s.clock ∧
          (s.state.remainingAt s.clock = 0 → final.state.remainingAt now = 0) := by
  have sound := sound_of_reachable reachable
  refine ⟨sound.counted, fun guard member live now => ?_, fun now later => ?_,
    fun final path now later => ?_⟩
  · apply State.leave_of_counter
    rw [sound.counted, List.countP_pos_iff]
    exact ⟨guard, member, by simp [live]⟩
  · exact sound.remainingAt_eq (sound.past.trans later)
  · have less := (State.remainingAt_le later).trans (lessens_of_path path sound)
    exact ⟨less, fun spent => Nat.le_zero.mp (spent ▸ less)⟩

/-- A pause from 10 to 40 with a charge from 20 to 30 uses up what is outside the pause and what
is inside the charge. -/
theorem remaining_overlapping : ∃ s : System, s.clock = 50 ∧ s.state.remainingAt 50 = 30 ∧
    s.state.remainingAt 50 = s.allowance - s.chargedTime 50 := by
  have ran : (machine.run ⟨0, 60, .new 60 0, [], 0⟩
      [(10, .enter false), (20, .enter true), (30, .drop 1), (40, .drop 0),
        (50, .remaining)]).any (fun s => s.clock = 50 && s.state.remainingAt 50 = 30) = true := by
    decide
  have starts : machine.Start ⟨0, 60, .new 60 0, [], 0⟩ := rfl
  obtain ⟨s, reachable, ended⟩ := machine.exists_reachable_of_run _ starts ran
  rw [Bool.and_eq_true, decide_eq_true_iff, decide_eq_true_iff] at ended
  exact ⟨s, ended.1, ended.2, (remaining_of_reachable s reachable).2.2.1 50 (Nat.le_of_eq ended.1)⟩

end System
end LosslessMusic.Resolution
