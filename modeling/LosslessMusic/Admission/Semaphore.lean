import Mathlib.Algebra.Group.Int.Defs
import Mathlib.Algebra.GroupWithZero.Nat

/-!
# Counting semaphores

A semaphore hands out a fixed number of permits and takes back no more than it has
handed out.
-/

namespace LosslessMusic.Admission

/-- A semaphore with its permits that are not handed out. -/
structure Semaphore where
  permits : Nat
  available : Nat
  within : available ≤ permits
  deriving DecidableEq

namespace Semaphore

/-- A semaphore none of whose permits is handed out. -/
def ofPermits (permits : Nat) : Semaphore where
  permits := permits
  available := permits
  within := Nat.le_refl _

/-- One permit is handed out; without one the caller waits. -/
def acquire (s : Semaphore) : Option Semaphore :=
  if _held : 0 < s.available then
    some { s with available := s.available - 1, within := by have := s.within; omega }
  else none

/-- One permit is given back, which fails if none is handed out. -/
def release (s : Semaphore) : Option Semaphore :=
  if free : s.available < s.permits then some { s with available := s.available + 1, within := free }
  else none

/-- The permits that are handed out. -/
def handedOut (s : Semaphore) : Nat :=
  s.permits - s.available

variable {s next : Semaphore}

@[simp] theorem permits_ofPermits (permits : Nat) : (ofPermits permits).permits = permits := rfl

@[simp] theorem handedOut_ofPermits (permits : Nat) : (ofPermits permits).handedOut = 0 :=
  Nat.sub_self permits

theorem handedOut_le : s.handedOut ≤ s.permits := Nat.sub_le _ _

theorem available_eq_permits_iff : s.available = s.permits ↔ s.handedOut = 0 := by
  have within := s.within
  unfold handedOut
  omega

theorem acquire_spec (acquired : s.acquire = some next) :
    next.permits = s.permits ∧ next.handedOut = s.handedOut + 1 := by
  have within := s.within
  unfold acquire at acquired
  split at acquired
  · cases acquired
    refine ⟨rfl, ?_⟩
    simp only [handedOut]
    omega
  · cases acquired

theorem release_spec (released : s.release = some next) :
    next.permits = s.permits ∧ next.handedOut + 1 = s.handedOut := by
  unfold release at released
  split at released
  · cases released
    refine ⟨rfl, ?_⟩
    simp only [handedOut]
    omega
  · cases released

theorem acquire_isSome (free : s.handedOut < s.permits) : s.acquire.isSome = true := by
  unfold handedOut at free
  unfold acquire
  rw [dif_pos (by omega)]
  rfl

theorem release_isSome (held : 0 < s.handedOut) : s.release.isSome = true := by
  unfold handedOut at held
  unfold release
  rw [dif_pos (by omega)]
  rfl

end Semaphore

end LosslessMusic.Admission
