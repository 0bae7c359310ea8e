import Mathlib.Algebra.Group.Int.Defs
import Mathlib.Algebra.GroupWithZero.Nat
import Mathlib.Logic.Function.Basic

/-!
# Files by name

A directory as a partial map from names to contents. The operating system may
refuse an operation; its answer is an argument, so a program over these
operations is a function of the answers and can be evaluated.
-/

namespace LosslessMusic.Storage

universe u v

/-- The content of each file that exists. -/
abbrev Files (ν : Type u) (κ : Type v) := ν → Option κ

namespace Files

variable {ν : Type u} {κ : Type v} [DecidableEq ν]

/-- A file is removed, if the system permits it. -/
def delete (files : Files ν κ) (name : ν) (permitted : Bool) : Files ν κ :=
  if permitted then Function.update files name none else files

/-- The answer of a removal: an absent file is not removed. -/
def deletes (files : Files ν κ) (name : ν) (permitted : Bool) : Bool :=
  permitted && (files name).isSome

/-- A file is created or overwritten. -/
def write (files : Files ν κ) (name : ν) (content : κ) : Files ν κ :=
  Function.update files name (some content)

/-- A file takes another name at once, if the system permits it. -/
def rename (files : Files ν κ) (source target : ν) (permitted : Bool) : Files ν κ :=
  if permitted && (files source).isSome then
    Function.update (Function.update files source none) target (files source)
  else files

/-- The answer of a renaming. -/
def renames (files : Files ν κ) (source : ν) (permitted : Bool) : Bool :=
  permitted && (files source).isSome

variable (files : Files ν κ) {name other source target : ν}

@[simp] theorem delete_refused : files.delete name false = files := rfl

@[simp] theorem delete_same : files.delete name true name = none := by
  simp [delete]

theorem delete_cleared (permitted : Bool)
    (cleared : (files name).isSome = true → permitted = true) :
    files.delete name permitted name = none := by
  cases there : files name with
  | none =>
    unfold delete
    split
    · exact Function.update_self name none files
    · exact there
  | some content =>
    rw [cleared (by rw [there]; rfl), delete_same]

theorem delete_other (different : other ≠ name) (permitted : Bool) :
    files.delete name permitted other = files other := by
  unfold delete
  split
  · exact Function.update_of_ne different _ _
  · rfl

@[simp] theorem write_same (content : κ) : files.write name content name = some content := by
  simp [write]

theorem write_other (different : other ≠ name) (content : κ) :
    files.write name content other = files other :=
  Function.update_of_ne different _ _

theorem rename_target {content : κ} (present : files source = some content) :
    files.rename source target true target = some content := by
  simp [rename, present]

theorem rename_other (notSource : other ≠ source) (notTarget : other ≠ target)
    (permitted : Bool) : files.rename source target permitted other = files other := by
  unfold rename
  split
  · rw [Function.update_of_ne notTarget, Function.update_of_ne notSource]
  · rfl

end Files

end LosslessMusic.Storage
