import Mathlib.Tactic.Common

/-!
# Asynchronous values

What a provider of the screens publishes: data, or that it is loading, or an error.
-/

namespace LosslessMusic.Notifiers

/-- `AsyncValue`; without data an earlier value may be kept. -/
inductive AsyncValue (ε α : Type)
  | data (value : α)
  | loading (previous : Option α)
  | error (error : ε) (previous : Option α)
  deriving DecidableEq, Repr

namespace AsyncValue

variable {ε α : Type}

/-- `value`. -/
def value? : AsyncValue ε α → Option α
  | data value => some value
  | loading previous | error _ previous => previous

def hasValue (shown : AsyncValue ε α) : Bool :=
  shown.value?.isSome

/-- What is shown, without the value that is kept. -/
def bare : AsyncValue ε α → AsyncValue ε α
  | data value => data value
  | loading _ => loading none
  | .error cause _ => .error cause none

/-- The value that a state without data keeps, if such states keep one. -/
def kept (keeps : Bool) (shown : AsyncValue ε α) : Option α :=
  if keeps then shown.value? else none

end AsyncValue

end LosslessMusic.Notifiers
