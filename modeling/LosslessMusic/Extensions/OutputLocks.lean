import LosslessMusic.Transition.Machine
import Mathlib.Data.List.Basic
import Mathlib.Logic.Function.Basic
import Mathlib.Tactic.Common

/-!
# Locks of output files

`FileRegistry::lock`: a table holds a weak reference to the lock of each path. The table is
pruned and read under its own lock, while references are dropped at any time; a lock is
awaited outside of it. Locks are named by their place among all that were made.
-/

namespace LosslessMusic.Extensions.Outputs

open Transition (Machine)

abbrev ThreadId := Nat

/-- Where a call of `lock` is, from its start to the drop of its guard. -/
inductive Phase
  | entering
  | looking
  | waiting (lock : Nat)
  | held (lock : Nat)
  | leaving (lock : Nat)
  | gone
  deriving DecidableEq, Repr

/-- The lock that is referred to. -/
def Phase.lock? : Phase → Option Nat
  | waiting lock | held lock | leaving lock => some lock
  | entering | looking | gone => none

/-- A call of `lock` with the key of its path. -/
structure Call (κ : Type) where
  thread : ThreadId
  path : κ
  phase : Phase := .entering

/-- `outputs`, the call that has the lock of the table, the owner of every lock, and all
calls there have been. -/
structure Locks (κ : Type) where
  outputs : κ → Option Nat := fun _ => none
  mutex : Option Nat := none
  owners : List (Option ThreadId) := []
  calls : List (Call κ) := []

/-- What happens; a check has passed or not. -/
inductive LockEvent (κ : Type)
  | lock (thread : ThreadId) (path : κ)
  | prune (call : Nat)
  | take (call : Nat)
  | attempt (call : Nat) (passes : Bool)
  | drop (call : Nat)
  | leave (call : Nat)

namespace Locks

variable {κ : Type} (s : Locks κ)

/-- `strong_count() > 0`. -/
def alive (lock : Nat) : Bool :=
  s.calls.any (·.phase.lock? = some lock)

/-- A call goes on to another phase. -/
def goTo (position : Nat) (call : Call κ) (phase : Phase) : Locks κ :=
  { s with calls := s.calls.set position { call with phase } }

/-- The table is locked, and what nobody refers to is removed. -/
def prune (position : Nat) (call : Call κ) : Option (Locks κ) :=
  if call.phase = .entering ∧ s.mutex = none then
    some
      { s.goTo position call .looking with
        mutex := some position
        outputs := fun path => (s.outputs path).filter s.alive }
  else none

/-- The lock of the path is referred to or made, and the table is unlocked. -/
def take [DecidableEq κ] (position : Nat) (call : Call κ) : Option (Locks κ) :=
  if call.phase = .looking then
    match (s.outputs call.path).filter s.alive with
    | some lock => some { s.goTo position call (.waiting lock) with mutex := none }
    | none =>
      let lock := s.owners.length
      some
        { s.goTo position call (.waiting lock) with
          mutex := none
          outputs := Function.update s.outputs call.path (some lock)
          owners := s.owners ++ [none] }
  else none

/-- One turn of the loop with the lock of the owner: a check that fails and a thread that
has the lock already are errors. -/
def attempt (position : Nat) (call : Call κ) (passes : Bool) : Option (Locks κ) :=
  match call.phase with
  | .waiting lock =>
    (s.owners[lock]?).map fun owner =>
      if !passes then s.goTo position call (.leaving lock)
      else
        match owner with
        | some thread =>
          if thread = call.thread then s.goTo position call (.leaving lock) else s
        | none =>
          { s.goTo position call (.held lock) with
            owners := s.owners.set lock (some call.thread) }
  | _ => none

/-- `OutputGuard::drop`; the reference goes later. -/
def drop (position : Nat) (call : Call κ) : Option (Locks κ) :=
  match call.phase with
  | .held lock =>
    some { s.goTo position call (.leaving lock) with owners := s.owners.set lock none }
  | _ => none

/-- A reference goes. -/
def leave (position : Nat) (call : Call κ) : Option (Locks κ) :=
  match call.phase with
  | .leaving _ => some (s.goTo position call .gone)
  | _ => none

/-- One event. -/
def step [DecidableEq κ] : LockEvent κ → Option (Locks κ)
  | .lock thread path => some { s with calls := s.calls ++ [{ thread, path }] }
  | .prune position => (s.calls[position]?).bind (s.prune position)
  | .take position => (s.calls[position]?).bind (s.take position)
  | .attempt position passes => (s.calls[position]?).bind (s.attempt position · passes)
  | .drop position => (s.calls[position]?).bind (s.drop position)
  | .leave position => (s.calls[position]?).bind (s.leave position)

/-- The table as a machine, which is empty at first. -/
def machine [DecidableEq κ] : Machine (Locks κ) (LockEvent κ) where
  Start s := s = {}
  step s := s.step

/-! ## One holder of a path -/

variable {s}

/-- What holds between the table, the locks and the calls. -/
structure Sound (s : Locks κ) : Prop where
  known : ∀ call ∈ s.calls, ∀ lock, call.phase.lock? = some lock → s.outputs call.path = some lock
  owned : ∀ call ∈ s.calls, ∀ lock, call.phase = .held lock →
    s.owners[lock]? = some (some call.thread)
  single : ∀ (i j : Nat) (call other : Call κ) (lock : Nat), s.calls[i]? = some call →
    s.calls[j]? = some other → call.phase = .held lock → other.phase = .held lock → i = j
  inside : ∀ path lock, s.outputs path = some lock → lock < s.owners.length

theorem sound_new : Sound ({} : Locks κ) where
  known := nofun
  owned := nofun
  single := nofun
  inside := nofun

variable {lock : Nat}

theorem alive_of_mem {call : Call κ} (member : call ∈ s.calls)
    (refers : call.phase.lock? = some lock) : s.alive lock = true :=
  List.any_eq_true.mpr ⟨call, member, decide_eq_true refers⟩

section

variable {position : Nat} {call : Call κ} {phase : Phase}

theorem mem_goTo {one : Call κ} (member : one ∈ (s.goTo position call phase).calls) :
    one ∈ s.calls ∨ one = { call with phase } :=
  List.mem_or_eq_of_mem_set member

theorem held_before {i : Nat} {one : Call κ}
    (isOne : (s.goTo position call phase).calls[i]? = some one) (holds : one.phase = .held lock)
    (idle : phase ≠ .held lock) : s.calls[i]? = some one ∧ i ≠ position := by
  have isSet : (s.calls.set position { call with phase })[i]? = some one := isOne
  rw [List.getElem?_set] at isSet
  split at isSet
  · split at isSet
    · cases isSet
      exact absurd holds idle
    · cases isSet
  next different => exact ⟨isSet, Ne.symm different⟩

theorem single_goTo (sound : s.Sound) (idle : ∀ lock, phase ≠ .held lock) (i j : Nat)
    (one other : Call κ) (lock : Nat) (isOne : (s.goTo position call phase).calls[i]? = some one)
    (isOther : (s.goTo position call phase).calls[j]? = some other)
    (first : one.phase = .held lock) (second : other.phase = .held lock) : i = j :=
  sound.single i j one other lock (held_before isOne first (idle lock)).1
    (held_before isOther second (idle lock)).1 first second

theorem owned_goTo (sound : s.Sound) (idle : ∀ lock, phase ≠ .held lock) (one : Call κ)
    (member : one ∈ (s.goTo position call phase).calls) (lock : Nat)
    (holds : one.phase = .held lock) : s.owners[lock]? = some (some one.thread) := by
  rcases mem_goTo member with old | rfl
  · exact sound.owned one old lock holds
  · exact absurd holds (idle lock)

theorem known_goTo (sound : s.Sound) (found : s.calls[position]? = some call)
    (same : ∀ lock, phase.lock? = some lock → call.phase.lock? = some lock) (one : Call κ)
    (member : one ∈ (s.goTo position call phase).calls) (lock : Nat)
    (refers : one.phase.lock? = some lock) : s.outputs one.path = some lock := by
  rcases mem_goTo member with old | rfl
  · exact sound.known one old lock refers
  · exact sound.known call (List.mem_of_getElem? found) lock (same lock refers)

theorem sound_goTo (sound : s.Sound) (found : s.calls[position]? = some call)
    (same : ∀ lock, phase.lock? = some lock → call.phase.lock? = some lock)
    (idle : ∀ lock, phase ≠ .held lock) : (s.goTo position call phase).Sound where
  known := known_goTo sound found same
  owned := owned_goTo sound idle
  single := single_goTo sound idle
  inside := sound.inside

variable {next : Locks κ}

theorem sound_prune (sound : s.Sound)
    (pruned : s.prune position call = some next) : next.Sound := by
  unfold prune at pruned
  split at pruned
  · cases pruned
    refine ⟨fun one member lock refers => ?_, owned_goTo sound nofun, single_goTo sound nofun,
      fun path lock found => sound.inside path lock (Option.filter_eq_some_iff.mp found).1⟩
    rcases mem_goTo member with old | rfl
    · exact Option.filter_eq_some_iff.mpr ⟨sound.known one old lock refers, alive_of_mem old refers⟩
    · cases refers
  · cases pruned

theorem sound_take [DecidableEq κ] (sound : s.Sound) {next : Locks κ}
    (taken : s.take position call = some next) : next.Sound := by
  unfold take at taken
  split at taken
  · split at taken
    next lock found =>
      cases taken
      refine ⟨fun one member other refers => ?_, owned_goTo sound nofun, single_goTo sound nofun,
        sound.inside⟩
      rcases mem_goTo member with old | rfl
      · exact sound.known one old other refers
      · cases refers
        exact (Option.filter_eq_some_iff.mp found).1
    next absent =>
      cases taken
      have idle (lock : Nat) : Phase.waiting s.owners.length ≠ .held lock := nofun
      refine ⟨fun one member lock refers => ?_, fun one member lock holds => ?_,
        single_goTo sound idle, fun path lock found => ?_⟩
      · show Function.update s.outputs call.path (some s.owners.length) one.path = some lock
        rcases mem_goTo member with old | rfl
        · have known := sound.known one old lock refers
          rw [Function.update_of_ne]
          · exact known
          · intro same
            rw [same] at known
            rw [known, Option.filter_some, alive_of_mem old refers] at absent
            cases absent
        · cases refers
          exact Function.update_self _ _ _
      · show (s.owners ++ [none])[lock]? = some (some one.thread)
        have owned := owned_goTo sound idle one member lock holds
        rw [List.getElem?_append_left (List.getElem?_eq_some_iff.mp owned).1]
        exact owned
      · show lock < (s.owners ++ [none]).length
        rw [List.length_append, List.length_singleton]
        change Function.update s.outputs call.path (some s.owners.length) path = some lock at found
        by_cases same : path = call.path
        · subst same
          rw [Function.update_self] at found
          cases found
          exact Nat.lt_succ_self _
        · rw [Function.update_of_ne same] at found
          exact Nat.lt_succ_of_lt (sound.inside path lock found)
  · cases taken

theorem sound_attempt (sound : s.Sound) (found : s.calls[position]? = some call) {passes : Bool}
    (attempted : s.attempt position call passes = some next) : next.Sound := by
  unfold attempt at attempted
  split at attempted
  next lock isPhase =>
    obtain ⟨owner, isOwner, rfl⟩ := Option.map_eq_some_iff.mp attempted
    have leaves : (s.goTo position call (.leaving lock)).Sound :=
      sound_goTo sound found (fun other refers => by rw [isPhase]; exact refers) nofun
    cases passes with
    | false => exact leaves
    | true =>
      cases owner with
      | some thread =>
        dsimp only
        split
        · contradiction
        · split
          · exact leaves
          · exact sound
      | none =>
        have free (one : Call κ) (old : one ∈ s.calls) (other : Nat)
            (holds : one.phase = .held other) : other ≠ lock := by
          rintro rfl
          rw [sound.owned one old other holds] at isOwner
          cases isOwner
        refine ⟨known_goTo sound found fun other refers => ?_, fun one member other holds => ?_,
          fun i j one other held isOne isOther first second => ?_, fun path other isOther => ?_⟩
        · rw [isPhase]
          exact refers
        · show (s.owners.set lock (some call.thread))[other]? = some (some one.thread)
          rcases mem_goTo member with old | rfl
          · rw [List.getElem?_set_ne (Ne.symm (free one old other holds))]
            exact sound.owned one old other holds
          · cases holds
            exact List.getElem?_set_self (List.getElem?_eq_some_iff.mp isOwner).1
        · by_cases same : held = lock
          · have new {i : Nat} {one : Call κ}
                (isOne : (s.goTo position call (.held lock)).calls[i]? = some one)
                (holds : one.phase = .held held) : i = position := by
              have isSet : (s.calls.set position { call with phase := .held lock })[i]? =
                  some one := isOne
              rw [List.getElem?_set] at isSet
              split at isSet
              next here => exact here.symm
              next => exact absurd same (free one (List.mem_of_getElem? isSet) held holds)
            exact (new isOne first).trans (new isOther second).symm
          · have idle : Phase.held lock ≠ .held held := fun equal =>
              same (Phase.held.inj equal).symm
            exact sound.single i j one other held (held_before isOne first idle).1
              (held_before isOther second idle).1 first second
        · show other < (s.owners.set lock (some call.thread)).length
          rw [List.length_set]
          exact sound.inside path other isOther
  · cases attempted

theorem sound_drop (sound : s.Sound) (found : s.calls[position]? = some call)
    (dropped : s.drop position call = some next) : next.Sound := by
  unfold drop at dropped
  split at dropped
  next lock isPhase =>
    cases dropped
    refine ⟨known_goTo sound found fun other refers => ?_, fun one member other holds => ?_,
      single_goTo sound nofun, fun path other isOther => ?_⟩
    · rw [isPhase]
      exact refers
    · show (s.owners.set lock none)[other]? = some (some one.thread)
      obtain ⟨i, isOne⟩ := List.mem_iff_getElem?.mp member
      obtain ⟨before, elsewhere⟩ := held_before isOne holds nofun
      have different : lock ≠ other := by
        rintro rfl
        exact elsewhere (sound.single i position one call lock before found holds isPhase)
      rw [List.getElem?_set_ne different]
      exact sound.owned one (List.mem_of_getElem? before) other holds
    · show other < (s.owners.set lock none).length
      rw [List.length_set]
      exact sound.inside path other isOther
  · cases dropped

end

theorem sound_step [DecidableEq κ] (sound : s.Sound) {event : LockEvent κ} {next : Locks κ}
    (stepped : s.step event = some next) : next.Sound := by
  cases event with
  | lock thread path =>
    cases stepped
    have before {i : Nat} {one : Call κ} {lock : Nat}
        (isOne : (s.calls ++ [({ thread, path } : Call κ)])[i]? = some one)
        (holds : one.phase = .held lock) : s.calls[i]? = some one := by
      rcases Nat.lt_or_ge i s.calls.length with old | new
      · rw [List.getElem?_append_left old] at isOne
        exact isOne
      · rw [List.getElem?_append_right new] at isOne
        obtain rfl := List.mem_singleton.mp (List.mem_of_getElem? isOne)
        cases holds
    refine ⟨fun one member lock refers => ?_, fun one member lock holds => ?_,
      fun i j one other lock isOne isOther first second =>
        sound.single i j one other lock (before isOne first) (before isOther second) first second,
      sound.inside⟩
    · rcases List.mem_append.mp member with old | new
      · exact sound.known one old lock refers
      · obtain rfl := List.mem_singleton.mp new
        cases refers
    · obtain ⟨i, isOne⟩ := List.mem_iff_getElem?.mp member
      exact sound.owned one (List.mem_of_getElem? (before isOne holds)) lock holds
  | prune position =>
    obtain ⟨call, -, pruned⟩ := Option.bind_eq_some_iff.mp stepped
    exact sound_prune sound pruned
  | take position =>
    obtain ⟨call, -, taken⟩ := Option.bind_eq_some_iff.mp stepped
    exact sound_take sound taken
  | attempt position passes =>
    obtain ⟨call, found, attempted⟩ := Option.bind_eq_some_iff.mp stepped
    exact sound_attempt sound found attempted
  | drop position =>
    obtain ⟨call, found, dropped⟩ := Option.bind_eq_some_iff.mp stepped
    exact sound_drop sound found dropped
  | leave position =>
    obtain ⟨call, found, left⟩ := Option.bind_eq_some_iff.mp stepped
    unfold leave at left
    split at left
    · cases left
      exact sound_goTo sound found nofun nofun
    · cases left

theorem sound_of_reachable [DecidableEq κ] (reachable : machine.Reachable Machine.anyStep s) :
    s.Sound := by
  refine reachable.invariant ?_ fun state event next _ sound _ stepped => sound_step sound stepped
  rintro state rfl
  exact sound_new

/-- Two guards for these paths are held by different threads. -/
def BothHeld (s : Locks κ) (path other : κ) : Prop :=
  ∃ one ∈ s.calls, ∃ two ∈ s.calls, one.path = path ∧ two.path = other ∧
    one.thread ≠ two.thread ∧ (∃ lock, one.phase = .held lock) ∧ ∃ lock, two.phase = .held lock

theorem Sound.exclusive (sound : s.Sound) (path : κ) : ¬s.BothHeld path path := by
  rintro ⟨one, member, two, memberTwo, rfl, same, different, ⟨lock, holds⟩, ⟨other, holdsTwo⟩⟩
  have known := sound.known one member lock (by rw [holds]; rfl)
  have knownTwo := sound.known two memberTwo other (by rw [holdsTwo]; rfl)
  rw [same, known] at knownTwo
  cases knownTwo
  obtain ⟨i, isOne⟩ := List.mem_iff_getElem?.mp member
  obtain ⟨j, isTwo⟩ := List.mem_iff_getElem?.mp memberTwo
  obtain rfl := sound.single i j one two lock isOne isTwo holds holdsTwo
  rw [isOne] at isTwo
  cases isTwo
  exact different rfl

theorem bothHeld_reachable [DecidableEq κ] {path other : κ} (different : path ≠ other) :
    ∃ s : Locks κ, machine.Reachable Machine.anyStep s ∧ s.BothHeld path other := by
  have ran : ∃ s : Locks κ, machine.run {} [.lock 1 path, .lock 2 other, .prune 0, .take 0,
      .attempt 0 true, .prune 1, .take 1, .attempt 1 true] = some s ∧
      s.calls = [{ thread := 1, path, phase := .held 0 },
        { thread := 2, path := other, phase := .held 1 }] := by
    simp [Machine.run, machine, step, prune, take, attempt, goTo, Ne.symm different]
  obtain ⟨s, ended, calls⟩ := ran
  refine ⟨s, ⟨{}, rfl, Machine.anyPath_of_run ended⟩, ?_⟩
  unfold BothHeld
  rw [calls]
  exact ⟨_, List.mem_cons_self, _, List.mem_cons_of_mem _ List.mem_cons_self, rfl, rfl,
    (by decide : (1 : Nat) ≠ 2), ⟨0, rfl⟩, 1, rfl⟩

theorem granted [DecidableEq κ] {event : LockEvent κ} {next : Locks κ}
    (stepped : s.step event = some next) {i : Nat} {one : Call κ}
    (found : next.calls[i]? = some one) (holds : one.phase = .held lock) :
    s.calls[i]? = some one ∨ event = .attempt i true := by
  cases event with
  | lock thread path =>
    cases stepped
    refine .inl ?_
    rcases Nat.lt_or_ge i s.calls.length with old | new
    · exact (List.getElem?_append_left old).symm.trans found
    · have last := (List.getElem?_append_right new).symm.trans found
      obtain rfl := List.mem_singleton.mp (List.mem_of_getElem? last)
      cases holds
  | prune position =>
    obtain ⟨call, -, pruned⟩ := Option.bind_eq_some_iff.mp stepped
    unfold prune at pruned
    split at pruned
    · cases pruned
      exact .inl (held_before found holds nofun).1
    · cases pruned
  | take position =>
    obtain ⟨call, -, taken⟩ := Option.bind_eq_some_iff.mp stepped
    unfold take at taken
    split at taken
    · split at taken
      · cases taken
        exact .inl (held_before found holds nofun).1
      · cases taken
        exact .inl (held_before found holds nofun).1
    · cases taken
  | attempt position passes =>
    obtain ⟨call, -, attempted⟩ := Option.bind_eq_some_iff.mp stepped
    unfold attempt at attempted
    split at attempted
    next wanted _ =>
      obtain ⟨owner, -, rfl⟩ := Option.map_eq_some_iff.mp attempted
      cases passes with
      | false => exact .inl (held_before found holds nofun).1
      | true =>
        by_cases here : i = position
        · exact .inr (by rw [here])
        · refine .inl ?_
          have elsewhere {phase : Phase}
              (isOne : (s.goTo position call phase).calls[i]? = some one) :
              s.calls[i]? = some one :=
            (List.getElem?_set_ne (Ne.symm here)).symm.trans isOne
          cases owner with
          | none => exact elsewhere found
          | some thread =>
            simp only [Bool.not_true, Bool.false_eq_true, if_false] at found
            split at found
            · exact elsewhere found
            · exact found
    · cases attempted
  | drop position =>
    obtain ⟨call, -, dropped⟩ := Option.bind_eq_some_iff.mp stepped
    unfold drop at dropped
    split at dropped
    · cases dropped
      exact .inl (held_before found holds nofun).1
    · cases dropped
  | leave position =>
    obtain ⟨call, -, left⟩ := Option.bind_eq_some_iff.mp stepped
    unfold leave at left
    split at left
    · cases left
      exact .inl (held_before found holds nofun).1
    · cases left

end Locks
end LosslessMusic.Extensions.Outputs
