import LosslessMusic.Storage.Files
import Mathlib.Tactic.Common

/-!
# Publication of a staged file

`StagedFile::publish_new` with the fallbacks of `unix.rs`. The system may refuse each call
with an error of its own; other writers may act between two calls, except between the test
for the target and the plain rename, and they leave the staged name alone.
-/

namespace LosslessMusic.Extensions.Publication

open Storage (Files)

/-- `Errno`, as far as it is told apart. -/
inductive Errno
  | inval
  | nosys
  | opnotsupp
  | notsup
  | exist
  | noent
  | isdir
  | other (code : Nat)
  deriving DecidableEq, Repr

/-- `io::Error`. -/
inductive IoError
  | os (error : Errno)
  | alreadyExists
  | text (message : String)
  deriving DecidableEq, Repr

/-- `kind() == AlreadyExists`. -/
def IoError.isAlreadyExists : IoError → Bool
  | os error => error = .exist
  | alreadyExists => true
  | text _ => false

/-- What a name of a directory may stand for; files are told apart by their inode. A link
may dangle. -/
inductive Node
  | file (inode : Nat)
  | directory
  | symlink (target : String)
  deriving DecidableEq, Repr

/-- The open parent of a staged file. -/
abbrev Dir := Files String Node

namespace Dir

variable (parent : Dir) (name target : String)

/-- A name takes the node of another one, which goes. -/
def move (node : Node) : Dir :=
  Function.update (Function.update parent name none) target (some node)

/-- `renameat_with` with `NOREPLACE`. -/
def renameNoReplace (refused : Option Errno) : Except Errno Dir :=
  match refused, parent name, parent target with
  | some error, _, _ => .error error
  | none, none, _ => .error .noent
  | none, some _, some _ => .error .exist
  | none, some node, none => .ok (parent.move name target node)

def hardLink (refused : Option Errno) : Except Errno Dir :=
  match refused, parent name, parent target with
  | some error, _, _ => .error error
  | none, none, _ => .error .noent
  | none, some _, some _ => .error .exist
  | none, some node, none => .ok (Function.update parent target (some node))

/-- `statat` with `SYMLINK_NOFOLLOW`; the system refuses with any error but `NOENT`. -/
def statat (refused : Option { error : Errno // error ≠ .noent }) : Except Errno Node :=
  match refused, parent target with
  | some error, _ => .error error
  | none, none => .error .noent
  | none, some node => .ok node

/-- `rename`: a target that is no directory is replaced, two names of one file stay. -/
def rename (refused : Option Errno) : Except Errno Dir :=
  match refused, parent name, parent target with
  | some error, _, _ => .error error
  | none, none, _ => .error .noent
  | none, some _, some .directory => .error .isdir
  | none, some node, some other =>
    .ok (if node = other then parent else parent.move name target node)
  | none, some node, none => .ok (parent.move name target node)

def removeFile (refused : Option Errno) : Except Errno Dir :=
  match refused, parent name with
  | some error, _ => .error error
  | none, none => .error .noent
  | none, some _ => .ok (Function.update parent name none)

end Dir

/-- What other writers do to the names of a directory except one. -/
structure Foreign (name : String) where
  act : Dir → Dir
  spares : ∀ parent, act parent name = parent name

/-- `StagedFile` with its parent, where the staged file is under its name. -/
structure StagedFile where
  parent : Dir
  name : String
  target : String
  file : Node
  staged : parent name = some file

/-- The answers of the system, of the check, and what other writers do meanwhile. -/
structure Answers (name : String) where
  sync : Option Errno := none
  check : Option String := none
  rename : Option Errno := none
  meanwhile : Foreign name := ⟨id, fun _ => rfl⟩
  link : Option Errno := none
  later : Foreign name := ⟨id, fun _ => rfl⟩
  cleanup : Option Errno := none
  stat : Option { error : Errno // error ≠ .noent } := none
  plain : Option Errno := none

/-- `lm_publish_without_link`; a failure leaves the directory as it is. -/
def lmPublishWithoutLink (parent : Dir) (name target : String) (linkError : Errno)
    (stat : Option { error : Errno // error ≠ .noent }) (plain : Option Errno) :
    Except IoError Unit × Dir :=
  if (IoError.os linkError).isAlreadyExists then (.error (.os linkError), parent)
  else
    match parent.statat target stat with
    | .ok _ => (.error .alreadyExists, parent)
    | .error .noent =>
      match parent.rename name target plain with
      | .ok renamed => (.ok (), renamed)
      | .error error => (.error (.os error), parent)
    | .error error => (.error (.os error), parent)

def publishNewWith (parent : Dir) (name target : String) (answers : Answers name) :
    Except IoError Unit × Dir :=
  match parent.renameNoReplace name target answers.rename with
  | .ok renamed => (.ok (), renamed)
  | .error error =>
    if error ∈ [Errno.inval, .nosys, .opnotsupp, .notsup] then
      let parent := answers.meanwhile.act parent
      match parent.hardLink name target answers.link with
      | .error linkError =>
        lmPublishWithoutLink (answers.later.act parent) name target linkError answers.stat
          answers.plain
      | .ok linked =>
        match linked.removeFile name answers.cleanup with
        | .ok removed => (.ok (), removed)
        | .error _ => (.ok (), linked)
    else (.error (.os error), parent)

namespace StagedFile

variable (stage : StagedFile)

/-- `publish_new` up to the drop. -/
def publishNew (answers : Answers stage.name) : Except IoError Unit × Dir :=
  match answers.sync, answers.check with
  | some error, _ => (.error (.os error), stage.parent)
  | none, some message => (.error (.text message), stage.parent)
  | none, none => publishNewWith stage.parent stage.name stage.target answers

/-- `drop`, after the publication has ended in some way. -/
def drop (ended : Except IoError Unit × Dir) (refused : Option Errno) : Dir :=
  match ended.1 with
  | .ok () => ended.2
  | .error _ => ((ended.2.removeFile stage.name refused).toOption).getD ended.2

/-- The directories as other writers alone leave them. -/
def others (answers : Answers stage.name) : List Dir :=
  let meanwhile := answers.meanwhile.act stage.parent
  [stage.parent, meanwhile, answers.later.act meanwhile]

/-- What is promised of an end: a success has found the target absent and made it the staged
file, and touched no other name but the staged one; a failure has changed nothing. -/
structure Safe (stage : StagedFile) (before : Dir) (ended : Except IoError Unit × Dir) :
    Prop where
  absent : ended.1 = .ok () → before stage.target = none
  published : ended.1 = .ok () → ended.2 stage.target = some stage.file
  others : ended.1 = .ok () → ∀ other, other ≠ stage.name → other ≠ stage.target →
    ended.2 other = before other
  unchanged : ∀ error, ended.1 = .error error → ended.2 = before
  kept : ∀ error, ended.1 = .error error → ended.2 stage.name = some stage.file
  dropped : ∀ error, ended.1 = .error error → stage.drop ended none stage.name = none ∧
    ∀ other, other ≠ stage.name → stage.drop ended none other = before other

variable {stage : StagedFile} {before : Dir}

theorem safe_failed (staged : before stage.name = some stage.file) (error : IoError) :
    Safe stage before (.error error, before) := by
  have removed : stage.drop (.error error, before) none =
      Function.update before stage.name none := by
    simp [drop, Dir.removeFile, staged, Except.toOption]
  refine
    { absent := nofun
      published := nofun
      others := nofun
      unchanged := fun _ _ => rfl
      kept := fun _ _ => staged
      dropped := fun _ _ => ⟨?_, fun other different => ?_⟩ }
  · rw [removed, Function.update_self]
  · rw [removed, Function.update_of_ne different]

theorem safe_published {after : Dir} (absent : before stage.target = none)
    (published : after stage.target = some stage.file)
    (others : ∀ other, other ≠ stage.name → other ≠ stage.target → after other = before other) :
    Safe stage before (.ok (), after) where
  absent _ := absent
  published _ := published
  others _ := others
  unchanged := nofun
  kept := nofun
  dropped := nofun

theorem safe_moved (absent : before stage.target = none) :
    Safe stage before (.ok (), Dir.move before stage.name stage.target stage.file) := by
  refine safe_published absent (Function.update_self _ _ _) fun other notName notTarget => ?_
  rw [Dir.move, Function.update_of_ne notTarget, Function.update_of_ne notName]

theorem safe_renameNoReplace (staged : before stage.name = some stage.file)
    {refused : Option Errno} {after : Dir}
    (renamed : Dir.renameNoReplace before stage.name stage.target refused = .ok after) :
    Safe stage before (.ok (), after) := by
  unfold Dir.renameNoReplace at renamed
  rw [staged] at renamed
  split at renamed
  · cases renamed
  · contradiction
  · cases renamed
  next isNode absent =>
    cases isNode
    cases renamed
    exact safe_moved absent

theorem safe_hardLink (staged : before stage.name = some stage.file)
    {refused cleanup : Option Errno} {linked : Dir}
    (links : Dir.hardLink before stage.name stage.target refused = .ok linked) :
    Safe stage before (match linked.removeFile stage.name cleanup with
        | .ok removed => (.ok (), removed)
        | .error _ => (.ok (), linked)) := by
  unfold Dir.hardLink at links
  rw [staged] at links
  split at links
  · cases links
  · contradiction
  · cases links
  next isNode absent =>
    cases isNode
    cases links
    have different : stage.target ≠ stage.name := by
      intro same
      rw [same, staged] at absent
      cases absent
    split
    next removed isRemoved =>
      unfold Dir.removeFile at isRemoved
      split at isRemoved
      · cases isRemoved
      · cases isRemoved
      · cases isRemoved
        refine safe_published absent ?_ fun other notName notTarget => ?_
        · rw [Function.update_of_ne different, Function.update_self]
        · rw [Function.update_of_ne notName, Function.update_of_ne notTarget]
    · exact safe_published absent (Function.update_self _ _ _)
        fun other _ notTarget => Function.update_of_ne notTarget _ _

theorem safe_lmPublishWithoutLink (staged : before stage.name = some stage.file)
    (linkError : Errno) (stat : Option { error : Errno // error ≠ .noent }) (plain : Option Errno) :
    Safe stage before
      (lmPublishWithoutLink before stage.name stage.target linkError stat plain) := by
  unfold lmPublishWithoutLink
  split
  · exact safe_failed staged _
  · split
    · exact safe_failed staged _
    next isAbsent =>
      -- the system has not refused to tell that the target is absent
      have absent : before stage.target = none := by
        unfold Dir.statat at isAbsent
        split at isAbsent
        next error => exact absurd (Except.error.inj isAbsent) error.property
        · assumption
        · cases isAbsent
      split
      next renamed isRenamed =>
        unfold Dir.rename at isRenamed
        rw [staged, absent] at isRenamed
        cases plain with
        | some error => cases isRenamed
        | none =>
          cases isRenamed
          exact safe_moved absent
      · exact safe_failed staged _
    · exact safe_failed staged _

theorem staged_of_mem_others {answers : Answers stage.name} {parent : Dir}
    (member : parent ∈ stage.others answers) : parent stage.name = some stage.file := by
  simp only [StagedFile.others, List.mem_cons, List.not_mem_nil, or_false] at member
  rcases member with rfl | rfl | rfl
  · exact stage.staged
  · rw [answers.meanwhile.spares, stage.staged]
  · rw [answers.later.spares, answers.meanwhile.spares, stage.staged]

/-- However the system answers, a publication replaces nothing, and a failed one leaves the
target as it was and the staged file under its name. -/
theorem publishNew_safe (stage : StagedFile) (answers : Answers stage.name) :
    ∃ before ∈ stage.others answers, Safe stage before (stage.publishNew answers) := by
  have first : stage.parent ∈ stage.others answers := List.mem_cons_self
  unfold publishNew
  split
  · exact ⟨stage.parent, first, safe_failed stage.staged _⟩
  · exact ⟨stage.parent, first, safe_failed stage.staged _⟩
  · unfold publishNewWith
    split
    next renamed isRenamed =>
      exact ⟨stage.parent, first, safe_renameNoReplace stage.staged isRenamed⟩
    · split
      · have second : answers.meanwhile.act stage.parent ∈ stage.others answers :=
          List.mem_cons_of_mem _ List.mem_cons_self
        have third : answers.later.act (answers.meanwhile.act stage.parent) ∈
            stage.others answers :=
          List.mem_cons_of_mem _ (List.mem_cons_of_mem _ List.mem_cons_self)
        dsimp only
        split
        next linkError _ =>
          exact ⟨_, third, safe_lmPublishWithoutLink (staged_of_mem_others third) _ _ _⟩
        next linked isLinked =>
          exact ⟨_, second, safe_hardLink (staged_of_mem_others second) isLinked⟩
      · exact ⟨stage.parent, first, safe_failed stage.staged _⟩

/-- Without other writers the directory is the one that was there. -/
example (stage : StagedFile) : stage.others { } = [stage.parent, stage.parent, stage.parent] :=
  rfl

end StagedFile
end LosslessMusic.Extensions.Publication
