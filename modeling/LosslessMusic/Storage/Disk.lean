import Mathlib.Algebra.Group.Int.Defs
import Mathlib.Algebra.GroupWithZero.Nat
import Mathlib.Data.List.Infix
import Mathlib.Logic.Function.Basic

/-!
# A disk with directories

Files and directories by the names on the way to them, below one directory that is there.
A recursive operation may stop in the middle: what it reaches is an argument.
-/

namespace LosslessMusic.Storage

universe u v

/-- What a path leads to. -/
inductive Entry (κ : Type v)
  | directory
  | file (content : κ)
  deriving DecidableEq, Repr

/-- The entries of a disk. All of them are among finitely many paths. -/
structure Disk (ν : Type u) (κ : Type v) where
  entry : List ν → Option (Entry κ)
  paths : List (List ν)
  complete : ∀ path, (entry path).isSome = true → path ∈ paths

namespace Disk

variable {ν : Type u} {κ : Type v} [DecidableEq ν] (disk : Disk ν κ)

/-- A disk by the list of its entries. -/
def ofList (entries : List (List ν × Entry κ)) : Disk ν κ where
  entry path := entries.lookup path
  paths := entries.map Prod.fst
  complete := by
    intro path present
    induction entries with
    | nil => cases present
    | cons first rest ih =>
      rw [List.lookup_cons] at present
      by_cases same : path = first.1
      · rw [same]
        exact List.mem_cons_self
      · have different : (path == first.1) = false := beq_eq_false_iff_ne.mpr same
        rw [different] at present
        exact List.mem_cons_of_mem _ (ih present)

def isDirectory (path : List ν) : Bool :=
  match disk.entry path with
  | some .directory => true
  | some (.file _) | none => false

/-- An entry is put somewhere, or taken away. -/
def put (path : List ν) (value : Option (Entry κ)) : Disk ν κ where
  entry := Function.update disk.entry path value
  paths := path :: disk.paths
  complete := by
    intro other present
    by_cases same : other = path
    · rw [same]
      exact List.mem_cons_self
    · rw [Function.update_of_ne same] at present
      exact List.mem_cons_of_mem _ (disk.complete other present)

/-- No file is in the way of a directory. -/
def clear (path : List ν) : Bool :=
  path.inits.all fun above => above.isEmpty || (disk.entry above).isNone || disk.isDirectory above

/-- The directories on the way to a path that are not there, up to a depth. -/
def makes (path : List ν) (upTo : Nat) (made : List ν) : Bool :=
  made.isPrefixOf path && !made.isEmpty && made.length ≤ upTo && (disk.entry made).isNone &&
    disk.clear made

/-- `mkdirs`, which gets as far as a depth. -/
def mkdirs (path : List ν) (upTo : Nat) : Disk ν κ where
  entry made := if disk.makes path upTo made then some .directory else disk.entry made
  paths := path.inits ++ disk.paths
  complete := by
    intro made present
    split at present
    next new =>
      unfold makes at new
      simp only [Bool.and_eq_true, List.isPrefixOf_iff_prefix] at new
      exact List.mem_append_left _ ((List.mem_inits made path).mpr new.1.1.1.1)
    · exact List.mem_append_right _ (disk.complete made present)

/-- Whether `mkdirs` reaches the path, and no file is in its way. -/
def reaches (path : List ν) (upTo : Nat) : Bool :=
  path.length ≤ upTo && disk.clear path

/-- Some entries are deleted. -/
def remove (gone : List ν → Bool) : Disk ν κ where
  entry path := if gone path then none else disk.entry path
  paths := disk.paths
  complete := by
    intro path present
    split at present
    · cases present
    · exact disk.complete path present

/-- The entry that a path leads to once a directory has another name. -/
def renamed (source target : ν) : List ν → Option (Entry κ)
  | [] => disk.entry []
  | name :: rest =>
    if name = target then disk.entry (source :: rest)
    else if name = source then none
    else disk.entry (name :: rest)

/-- `renameTo` for two names in the directory, at once. -/
def rename (source target : ν) : Disk ν κ where
  entry := disk.renamed source target
  paths := disk.paths ++ disk.paths.map fun path => target :: path.tail
  complete := by
    intro path present
    cases path with
    | nil => exact List.mem_append_left _ (disk.complete _ present)
    | cons name rest =>
      simp only [renamed] at present
      by_cases same : name = target
      · rw [if_pos same] at present
        rw [same]
        exact List.mem_append_right _ (List.mem_map.mpr ⟨_, disk.complete _ present, rfl⟩)
      · rw [if_neg same] at present
        by_cases moved : name = source
        · rw [if_pos moved] at present
          cases present
        · rw [if_neg moved] at present
          exact List.mem_append_left _ (disk.complete _ present)

/-- `walkTopDown` below a directory: every entry once, and a directory before what it
holds. -/
def isWalk (source : List ν) (order : List (List ν)) : Bool :=
  decide order.Nodup && decide (order.Pairwise fun before after => ¬ after <+: before) &&
    (order.all fun rest => (disk.entry (source ++ rest)).isSome &&
      rest.inits.all fun above => above = rest || disk.isDirectory (source ++ above)) &&
    disk.paths.all fun path => !source.isPrefixOf path || (disk.entry path).isNone ||
      order.contains (path.drop source.length)

variable {disk} {path other : List ν} {upTo : Nat}

omit [DecidableEq ν] in

theorem isDirectory_iff : disk.isDirectory path = true ↔ disk.entry path = some .directory := by
  unfold isDirectory
  split
  next found => simp [found]
  next found => simp [found]
  next found => simp [found]

theorem put_same (value : Option (Entry κ)) : (disk.put path value).entry path = value := by
  show Function.update disk.entry path value path = value
  rw [Function.update_self]

theorem put_other (value : Option (Entry κ)) (different : other ≠ path) :
    (disk.put path value).entry other = disk.entry other := by
  show Function.update disk.entry path value other = disk.entry other
  rw [Function.update_of_ne different]

variable {found : Entry κ}

theorem mkdirs_present (present : disk.entry other = some found) :
    (disk.mkdirs path upTo).entry other = some found := by
  show (if disk.makes path upTo other then some .directory else disk.entry other) = _
  rw [if_neg, present]
  unfold makes
  simp [present]

/-- What is there behind `mkdirs` was there or is a directory on the way. -/
theorem mkdirs_cases (present : (disk.mkdirs path upTo).entry other = some found) :
    disk.entry other = some found ∨ found = .directory ∧ other <+: path ∧ other ≠ [] := by
  have unfolded : (if disk.makes path upTo other then some .directory else disk.entry other) =
      some found := present
  split at unfolded
  next new =>
    unfold makes at new
    simp only [Bool.and_eq_true, List.isPrefixOf_iff_prefix] at new
    refine .inr ⟨(Option.some.inj unfolded).symm, new.1.1.1.1, ?_⟩
    rintro rfl
    simp at new
  · exact .inl unfolded

/-- Behind `mkdirs` that reaches its path there is a directory. -/
theorem mkdirs_reached (below : path ≠ []) (reached : disk.reaches path upTo = true) :
    (disk.mkdirs path upTo).entry path = some .directory := by
  unfold reaches at reached
  simp only [Bool.and_eq_true, decide_eq_true_eq] at reached
  obtain ⟨deep, isClear⟩ := reached
  show (if disk.makes path upTo path then some .directory else disk.entry path) = _
  cases found : disk.entry path with
  | none =>
    rw [if_pos]
    unfold makes
    simp [found, deep, below, isClear]
  | some entry =>
    have absent : disk.makes path upTo path = false := by
      unfold makes
      simp [found]
    rw [absent, if_neg Bool.false_ne_true]
    unfold clear at isClear
    have self := List.all_eq_true.mp isClear path
      ((List.mem_inits path path).mpr (List.prefix_refl path))
    rw [← found]
    exact isDirectory_iff.mp (by simpa [found, below] using self)

theorem mkdirs_other (off : ¬ other <+: path) :
    (disk.mkdirs path upTo).entry other = disk.entry other := by
  show (if disk.makes path upTo other then some .directory else disk.entry other) = _
  rw [if_neg]
  unfold makes
  simp [off]

variable {gone : List ν → Bool}

omit [DecidableEq ν] in

theorem remove_kept (kept : gone other = false) :
    (disk.remove gone).entry other = disk.entry other := by
  show (if gone other then none else disk.entry other) = _
  rw [kept, if_neg Bool.false_ne_true]

omit [DecidableEq ν] in

theorem remove_gone (lost : gone other = true) : (disk.remove gone).entry other = none := by
  show (if gone other then none else disk.entry other) = _
  rw [if_pos lost]

variable {source target name : ν} {rest : List ν}

theorem rename_target : (disk.rename source target).entry (target :: rest) =
    disk.entry (source :: rest) := by
  show (if target = target then disk.entry (source :: rest) else _) = _
  rw [if_pos rfl]

theorem rename_source (different : source ≠ target) :
    (disk.rename source target).entry (source :: rest) = none := by
  show (if source = target then _ else if source = source then none else _) = none
  rw [if_neg different, if_pos rfl]

theorem rename_other (notTarget : name ≠ target) (notSource : name ≠ source) :
    (disk.rename source target).entry (name :: rest) = disk.entry (name :: rest) := by
  show (if name = target then _ else if name = source then none else disk.entry (name :: rest)) = _
  rw [if_neg notTarget, if_neg notSource]

variable {order : List (List ν)}

theorem mem_of_isWalk {source : List ν} (walk : disk.isWalk source order = true) {rest : List ν}
    (present : disk.entry (source ++ rest) = some found) : rest ∈ order := by
  unfold isWalk at walk
  simp only [Bool.and_eq_true, List.all_eq_true] at walk
  have known := disk.complete (source ++ rest) (by rw [present]; rfl)
  have covered := walk.2 _ known
  simp only [present, Option.isNone_some, Bool.or_false, List.drop_left, Bool.or_eq_true,
    Bool.not_eq_true', List.contains_iff_mem] at covered
  rcases covered with off | member
  · rw [← Bool.not_eq_true, List.isPrefixOf_iff_prefix] at off
    exact absurd (List.prefix_append source rest) off
  · exact member

theorem enclosed_of_isWalk {source : List ν}
    (walk : disk.isWalk source order = true) {rest : List ν} (member : rest ∈ order) :
    (disk.entry (source ++ rest)).isSome = true ∧
      ∀ above, above <+: rest → above ≠ rest → disk.entry (source ++ above) = some .directory := by
  unfold isWalk at walk
  simp only [Bool.and_eq_true, List.all_eq_true] at walk
  obtain ⟨present, inside⟩ := walk.1.2 rest member
  refine ⟨present, fun above up different => ?_⟩
  have held := inside above ((List.mem_inits above rest).mpr up)
  simp only [Bool.or_eq_true, decide_eq_true_eq, different, false_or] at held
  exact isDirectory_iff.mp held

end Disk

end LosslessMusic.Storage
