import LosslessMusic.Engine.DataIsolation

/-!
# What a crash leaves of the copy

While a call copies, its staging directory holds entries of the complete copy only, and
every entry that the walk has passed. So the rename publishes a complete copy, and no step
before it touches anything but staging directories.
-/

namespace LosslessMusic.Engine.Isolation

open Storage (Disk Entry)
open Transition

universe u

variable {κ : Type u} {layout : Layout} {disk next : Disk String κ} {staging : String}
  {missed : List (List String)}

/-! ## Names -/

theorem isTmp_tmpPrefix (uuid : String) : isTmp (tmpPrefix ++ uuid) = true := by
  unfold isTmp Text.startsWith
  rw [List.isPrefixOf_iff_prefix, String.toList_append]
  exact List.prefix_append _ _

theorem isTmp_rootName : isTmp rootName = false := by decide

variable {name : String}

theorem ne_rootName_of_isTmp (tmp : isTmp name = true) : name ≠ rootName := by
  rintro rfl
  rw [isTmp_rootName] at tmp
  cases tmp

theorem Layout.name_apart (layout : Layout) (side : Side) :
    layout.name side ≠ rootName ∧ isTmp (layout.name side) = false := by
  cases side with
  | extensions => exact layout.extensionsApart
  | data => exact layout.dataApart

theorem Layout.name_ne_staging (layout : Layout) (side : Side) (tmp : isTmp staging = true) :
    layout.name side ≠ staging := by
  rintro rfl
  rw [(layout.name_apart side).2] at tmp
  cases tmp

/-! ## The complete copy -/

variable {side : Side} {rest : List String}

theorem Layout.expected_of_isDirectory (isDirectory : disk.isDirectory [layout.name side] = true) :
    layout.expected disk (layout.name side :: rest) = disk.entry (layout.name side :: rest) := by
  have named : (layout.name side = layout.extensions || layout.name side = layout.data) =
      true := by
    cases side <;> simp [Layout.name]
  simp only [Layout.expected]
  rw [if_pos named, if_pos isDirectory]

/-- What a complete copy holds of a directory that is not there. -/
theorem Layout.expected_of_absent (absent : disk.isDirectory [layout.name side] = false) :
    layout.expected disk (layout.name side :: rest) =
      if rest.isEmpty then some .directory else none := by
  have named : (layout.name side = layout.extensions || layout.name side = layout.data) =
      true := by
    cases side <;> simp [Layout.name]
  simp only [Layout.expected]
  rw [if_pos named, absent, if_neg Bool.false_ne_true]

theorem Layout.expected_cases {found : Entry κ}
    (present : layout.expected disk (name :: rest) = some found) :
    ∃ side, name = layout.name side := by
  simp only [Layout.expected] at present
  split at present
  next named =>
    rcases (Bool.or_eq_true _ _).mp named with isExtensions | isData
    · exact ⟨.extensions, of_decide_eq_true isExtensions⟩
    · exact ⟨.data, of_decide_eq_true isData⟩
  · cases present

theorem Layout.expected_congr (layout : Layout)
    (same : ∀ side rest, next.entry (layout.name side :: rest) =
      disk.entry (layout.name side :: rest)) : layout.expected next = layout.expected disk := by
  funext path
  cases path with
  | nil => rfl
  | cons name rest =>
    by_cases named : ∃ side, name = layout.name side
    · obtain ⟨side, rfl⟩ := named
      have kind : next.isDirectory [layout.name side] = disk.isDirectory [layout.name side] := by
        unfold Disk.isDirectory
        rw [same side []]
      cases isDirectory : disk.isDirectory [layout.name side] with
      | true =>
        rw [expected_of_isDirectory isDirectory,
          expected_of_isDirectory (kind.trans isDirectory), same]
      | false =>
        rw [expected_of_absent isDirectory, expected_of_absent (kind.trans isDirectory)]
    · cases before : layout.expected disk (name :: rest) with
      | some found => exact absurd (expected_cases before) named
      | none =>
        cases after : layout.expected next (name :: rest) with
        | some found => exact absurd (expected_cases after) named
        | none => rfl

/-! ## Staging -/

/-- The directories behind the one that is copied. -/
def Layout.after (layout : Layout) : Side → String → Prop
  | .extensions, name => name = layout.data
  | .data, _ => False

/-- What a call has not copied yet. -/
def Layout.pending (layout : Layout) : Step → String → List String → Prop
  | .entering side _, name, _ => name = layout.name side ∨ layout.after side name
  | .copying side _ todo, name, rest =>
    name = layout.name side ∧ rest ∈ todo ∨ layout.after side name
  | _, _, _ => False

/-- A staging directory holds entries of the complete copy, and all of them that are not
pending. -/
structure Staged (layout : Layout) (disk : Disk String κ) (staging : String)
    (missed : List (List String)) (pending : String → List String → Prop) : Prop where
  tmp : isTmp staging = true
  noRoot : disk.isDirectory [rootName] = false
  sound : ∀ rest found, disk.entry (staging :: rest) = some found →
    layout.expected disk rest = some found
  complete : ∀ name rest found, layout.expected disk (name :: rest) = some found →
    ¬pending name rest → disk.entry (staging :: name :: rest) = some found ∨
      found = .directory ∧ name :: rest ∈ missed

/-- Entries of the complete copy are added to a staging directory. -/
structure Grows (layout : Layout) (disk next : Disk String κ) (staging : String) : Prop where
  outside : ∀ name rest, name ≠ staging → next.entry (name :: rest) = disk.entry (name :: rest)
  keeps : ∀ rest found, disk.entry (staging :: rest) = some found →
    next.entry (staging :: rest) = some found
  adds : ∀ rest found, next.entry (staging :: rest) = some found →
    disk.entry (staging :: rest) = some found ∨ layout.expected disk rest = some found

namespace Grows

theorem expected (grows : Grows layout disk next staging) (tmp : isTmp staging = true) :
    layout.expected next = layout.expected disk :=
  layout.expected_congr fun side rest =>
    grows.outside _ rest (layout.name_ne_staging side tmp)

theorem trans {last : Disk String κ} (tmp : isTmp staging = true)
    (first : Grows layout disk next staging) (second : Grows layout next last staging) :
    Grows layout disk last staging where
  outside name rest different :=
    (second.outside name rest different).trans (first.outside name rest different)
  keeps rest found present := second.keeps rest found (first.keeps rest found present)
  adds rest found present := by
    rcases second.adds rest found present with before | new
    · exact first.adds rest found before
    · rw [first.expected tmp] at new
      exact .inr new

end Grows

variable {pending : String → List String → Prop}

theorem Staged.grow (staged : Staged layout disk staging missed pending)
    (grows : Grows layout disk next staging) : Staged layout next staging missed pending where
  tmp := staged.tmp
  noRoot := by
    have same := grows.outside rootName [] (ne_rootName_of_isTmp staged.tmp).symm
    unfold Disk.isDirectory
    rw [same]
    exact staged.noRoot
  sound := by
    intro rest found present
    rw [grows.expected staged.tmp]
    rcases grows.adds rest found present with before | new
    · exact staged.sound rest found before
    · exact new
  complete := by
    intro name rest found isExpected notPending
    rw [grows.expected staged.tmp] at isExpected
    exact (staged.complete name rest found isExpected notPending).imp_left
      (grows.keeps (name :: rest) found)

variable {missedLater : List (List String)}

theorem Staged.advance {later : String → List String → Prop}
    (staged : Staged layout disk staging missed pending)
    (missing : ∀ path ∈ missed, path ∈ missedLater)
    (copied : ∀ name rest found, layout.expected disk (name :: rest) = some found →
      pending name rest → ¬later name rest →
      disk.entry (staging :: name :: rest) = some found ∨
        found = .directory ∧ name :: rest ∈ missedLater) :
    Staged layout disk staging missedLater later where
  tmp := staged.tmp
  noRoot := staged.noRoot
  sound := staged.sound
  complete := by
    intro name rest found isExpected notLater
    by_cases before : pending name rest
    · exact copied name rest found isExpected before notLater
    · exact (staged.complete name rest found isExpected before).imp_right
        fun lost => ⟨lost.1, missing _ lost.2⟩

/-- Directories of the complete copy are made in the staging directory. -/
theorem Grows.mkdirs {path : List String} {upTo : Nat}
    (inside : ∀ above, above <+: path → layout.expected disk above = some .directory) :
    Grows layout disk (disk.mkdirs (staging :: path) upTo) staging where
  outside name rest different := by
    refine Disk.mkdirs_other fun up => different ?_
    obtain ⟨tail, same⟩ := up
    exact (List.cons.inj same).1
  keeps rest found present := Disk.mkdirs_present present
  adds rest found present := by
    rcases Disk.mkdirs_cases present with before | ⟨rfl, up, -⟩
    · exact .inl before
    · exact .inr (inside rest ((List.cons_prefix_cons.mp up).2))

/-- An entry of the complete copy is put into the staging directory. -/
theorem Grows.put {found : Entry κ} (absent : disk.entry (staging :: rest) = none)
    (isExpected : layout.expected disk rest = some found) :
    Grows layout disk (disk.put (staging :: rest) (some found)) staging where
  outside name other different := Disk.put_other _ fun same => different (List.cons.inj same).1
  keeps other kept present := by
    rw [Disk.put_other, present]
    intro same
    rw [same, absent] at present
    cases present
  adds other kept present := by
    by_cases same : other = rest
    · rw [same, Disk.put_same] at present
      cases present
      rw [same]
      exact .inr isExpected
    · rw [Disk.put_other _ fun equal => same (List.cons.inj equal).2] at present
      exact .inl present

/-- What is left of a walk lies in the complete copy, below directories of it. -/
structure Walks (layout : Layout) (disk : Disk String κ) (side : Side)
    (todo : List (List String)) : Prop where
  isDirectory : disk.isDirectory [layout.name side] = true
  enclosed : ∀ rest ∈ todo, ∀ above, above <+: rest → above ≠ rest →
    disk.entry (layout.name side :: above) = some .directory

variable {todo : List (List String)}

/-- The directories above what a walk reaches are in the complete copy. -/
theorem Walks.expected_above {above : List String}
    (walks : Walks layout disk side todo) (member : rest ∈ todo)
    (up : above <+: layout.name side :: rest) (different : above ≠ layout.name side :: rest) :
    layout.expected disk above = some .directory := by
  cases above with
  | nil => rfl
  | cons name above =>
    obtain ⟨rfl, below⟩ := List.cons_prefix_cons.mp up
    rw [Layout.expected_of_isDirectory walks.isDirectory]
    exact walks.enclosed rest member above below fun same => different (by rw [same])

theorem Walks.of_isWalk {order : List (List String)}
    (isDirectory : disk.isDirectory [layout.name side] = true)
    (walk : disk.isWalk [layout.name side] order = true) : Walks layout disk side order :=
  ⟨isDirectory, fun _ member above up different =>
    (Disk.enclosed_of_isWalk walk member).2 above up different⟩

/-! ## Calls -/

/-- The leftovers are gone if their deletion has succeeded, but for a staging directory. -/
def Swept (disk : Disk String κ) (clean : Bool) (staging : Option String) : Prop :=
  clean = true → ∀ name rest, isTmp name = true → some name ≠ staging →
    disk.entry (name :: rest) = none

/-- What holds at a step of a call. -/
def CallKept (layout : Layout) (disk : Disk String κ) (call : Call) : Prop :=
  match call.step with
  | .sweeping => True
  | .checking => Swept disk call.clean none
  | .entering side staging =>
    Staged layout disk staging call.missed (layout.pending (.entering side staging)) ∧
      Swept disk call.clean (some staging)
  | .copying side staging todo =>
    Staged layout disk staging call.missed (layout.pending (.copying side staging todo)) ∧
      Walks layout disk side todo ∧ Swept disk call.clean (some staging)
  | .publishing staging =>
    Staged layout disk staging call.missed (layout.pending (.publishing staging)) ∧
      Swept disk call.clean (some staging)
  | .cleaning staging thrown =>
    isTmp staging = true ∧ (thrown = false → disk.isDirectory [rootName] = true) ∧
      Swept disk call.clean (some staging)
  | .creating side =>
    disk.isDirectory [rootName] = true ∧ Swept disk call.clean none ∧
      (call.clean = true → side = .data → disk.isDirectory [rootName, layout.extensions] = true)

/-- What is below the root, in every state. -/
structure Kept (layout : Layout) (w : World κ) : Prop where
  empty : w.disk.isDirectory [rootName] = false → ∀ rest, rest ≠ [] →
    w.disk.entry (rootName :: rest) = none
  complete : w.disk.isDirectory [rootName] = true → ∀ rest found, w.copy rest = some found →
    w.disk.entry (rootName :: rest) = some found ∨ found = .directory ∧ rest ∈ w.missed
  sound : w.disk.isDirectory [rootName] = true → ∀ rest found,
    w.disk.entry (rootName :: rest) = some found →
      w.copy rest = some found ∨ found = .directory ∧ ∃ side, rest = [layout.name side]
  call : ∀ call, w.call = some call → CallKept layout w.disk call

section Steps

variable {w : World κ} {call : Call}

/-- The root and what is below it. -/
def RootSame (disk next : Disk String κ) : Prop :=
  ∀ rest, next.entry (rootName :: rest) = disk.entry (rootName :: rest)

theorem RootSame.isDirectory (same : RootSame disk next) (rest : List String) :
    next.isDirectory (rootName :: rest) = disk.isDirectory (rootName :: rest) := by
  unfold Disk.isDirectory
  rw [same]

theorem Kept.of_rootSame (kept : Kept layout w) {next : World κ}
    (same : RootSame w.disk next.disk) (copy : next.copy = w.copy) (missed : next.missed = w.missed)
    (callKept : ∀ call, next.call = some call → CallKept layout next.disk call) :
    Kept layout next where
  empty := by
    intro noRoot rest below
    rw [same.isDirectory] at noRoot
    rw [same]
    exact kept.empty noRoot rest below
  complete := by
    rw [same.isDirectory, copy, missed]
    intro isRoot rest found copied
    rw [same]
    exact kept.complete isRoot rest found copied
  sound := by
    rw [same.isDirectory, copy]
    intro isRoot rest found present
    rw [same] at present
    exact kept.sound isRoot rest found present
  call := callKept

theorem Kept.goOn (kept : Kept layout w) (same : RootSame w.disk next)
    (callKept : CallKept layout next call) : Kept layout (w.goOn next call) := by
  refine kept.of_rootSame same rfl rfl ?_
  intro other isCall
  cases isCall
  exact callKept

theorem Kept.endCall (kept : Kept layout w) (same : RootSame w.disk next) (ending : Ending) :
    Kept layout (w.endCall next ending) :=
  kept.of_rootSame same rfl rfl fun _ isCall => by cases isCall

theorem Grows.rootSame (grows : Grows layout disk next staging) (tmp : isTmp staging = true) :
    RootSame disk next :=
  fun rest => grows.outside rootName rest (ne_rootName_of_isTmp tmp).symm

variable {clean : Bool}

theorem Grows.swept (grows : Grows layout disk next staging)
    (swept : Swept disk clean (some staging)) : Swept next clean (some staging) := by
  intro isClean name rest tmp different
  rw [grows.outside name rest fun same => different (congrArg some same)]
  exact swept isClean name rest tmp different

/-- A copy that fails goes on to delete its staging directory. -/
theorem Kept.throws (kept : Kept layout w) (tmp : isTmp staging = true)
    (outside : ∀ name rest, name ≠ staging →
      next.entry (name :: rest) = w.disk.entry (name :: rest))
    (swept : Swept w.disk call.clean (some staging)) :
    Kept layout (w.goOn next { call with step := .cleaning staging true }) := by
  refine kept.goOn (fun rest => outside _ rest (ne_rootName_of_isTmp tmp).symm) ⟨tmp, ?_, ?_⟩
  · intro notThrown
    cases notThrown
  · intro isClean name rest isLeft different
    rw [outside name rest fun same => different (congrArg some same)]
    exact swept isClean name rest isLeft different

variable {names : String → Bool} {spared : List (List String)}

theorem deletes_eq :
    World.deletes names spared (name :: rest) =
      (names name && !spared.contains (name :: rest)) := rfl

theorem deletes_of_not (other : names name = false) :
    World.deletes names spared (name :: rest) = false := by
  rw [deletes_eq, other, Bool.false_and]

theorem deletes_of_all (named : names name = true) (all : spared.isEmpty = true) :
    World.deletes names spared (name :: rest) = true := by
  obtain rfl := List.isEmpty_iff.mp all
  rw [deletes_eq, named]
  rfl

theorem kept_sweep (kept : Kept layout w) (spared : List (List String)) :
    Kept layout (w.goOn (w.disk.remove (World.deletes isTmp spared))
      { call with step := .checking, clean := call.clean && spared.isEmpty }) := by
  refine kept.goOn (fun rest => Disk.remove_kept (deletes_of_not isTmp_rootName)) ?_
  intro isClean name rest tmp _
  exact Disk.remove_gone (deletes_of_all tmp ((Bool.and_eq_true _ _).mp isClean).2)

theorem staged_of_new (tmp : isTmp staging = true) (noRoot : disk.isDirectory [rootName] = false)
    (isNew : (disk.paths.all fun path =>
      path.head? ≠ some staging || (disk.entry path).isNone) = true) :
    Staged layout disk staging missed (layout.pending (.entering .extensions staging)) where
  tmp := tmp
  noRoot := noRoot
  sound := by
    intro rest found present
    have known := disk.complete (staging :: rest) (by rw [present]; rfl)
    have absent := List.all_eq_true.mp isNew _ known
    simp [present] at absent
  complete := by
    intro name rest found isExpected notPending
    obtain ⟨side, rfl⟩ := Layout.expected_cases isExpected
    exact absurd (by cases side; exacts [.inl rfl, .inr rfl]) notPending

variable {answer : Answer κ}

theorem kept_enter (kept : Kept layout w) {next : World κ}
    (staged : Staged layout w.disk staging call.missed (layout.pending (.entering side staging)))
    (swept : Swept w.disk call.clean (some staging))
    (entered : w.enter layout call side staging answer = some next) : Kept layout next := by
  have tmp := staged.tmp
  unfold World.enter at entered
  split at entered
  next isDirectory =>
    split at entered
    · cases entered
      exact kept.throws tmp (fun _ _ _ => rfl) swept
    · split at entered
      next walk =>
        cases entered
        refine kept.goOn (fun _ => rfl) ⟨?_, .of_isWalk isDirectory walk, swept⟩
        refine staged.advance (fun _ member => member) ?_
        intro name rest found isExpected before notLater
        rcases before with rfl | later
        · rw [Layout.expected_of_isDirectory isDirectory] at isExpected
          exact absurd (.inl ⟨rfl, Disk.mem_of_isWalk walk isExpected⟩) notLater
        · exact absurd (.inr later) notLater
      · cases entered
  next notDirectory =>
    have absent : w.disk.isDirectory [layout.name side] = false := by
      simpa using notDirectory
    have grows : Grows layout w.disk
        (w.disk.mkdirs [staging, layout.name side] answer.upTo) staging := by
      refine Grows.mkdirs fun above up => ?_
      rcases List.prefix_cons_iff.mp up with rfl | ⟨rest, rfl, below⟩
      · rfl
      · obtain rfl := List.prefix_nil.mp below
        rw [Layout.expected_of_absent absent]
        rfl
    simp only at entered
    split at entered
    next made =>
      cases entered
      have reached := ((Bool.and_eq_true _ _).mp made).1
      have isThere := Disk.mkdirs_reached (by simp) reached
      have grown := staged.grow grows
      have copied : ∀ rest found, layout.expected w.disk (layout.name side :: rest) = some found →
          (w.disk.mkdirs [staging, layout.name side] answer.upTo).entry
            (staging :: layout.name side :: rest) = some found := by
        intro rest found isExpected
        rw [Layout.expected_of_absent absent] at isExpected
        split at isExpected
        next isEmpty =>
          obtain rfl := List.isEmpty_iff.mp isEmpty
          rw [isThere, ← Option.some.inj isExpected]
        · cases isExpected
      refine kept.goOn (grows.rootSame tmp) ?_
      cases side with
      | extensions =>
        refine ⟨grown.advance (fun _ member => member) ?_, grows.swept swept⟩
        intro name rest found isExpected before notLater
        rw [grows.expected tmp] at isExpected
        rcases before with rfl | later
        · exact .inl (copied rest found isExpected)
        · exact absurd (.inl later) notLater
      | data =>
        refine ⟨grown.advance (fun _ member => member) ?_, grows.swept swept⟩
        intro name rest found isExpected before notLater
        rw [grows.expected tmp] at isExpected
        rcases before with rfl | later
        · exact .inl (copied rest found isExpected)
        · exact later.elim
    · cases entered
      exact kept.throws tmp grows.outside swept

theorem Walks.grow (tmp : isTmp staging = true)
    (walks : Walks layout disk side todo) (grows : Grows layout disk next staging) :
    Walks layout next side todo where
  isDirectory := by
    unfold Disk.isDirectory
    rw [grows.outside _ _ (layout.name_ne_staging side tmp)]
    exact walks.isDirectory
  enclosed := by
    intro rest member above up different
    rw [grows.outside _ _ (layout.name_ne_staging side tmp)]
    exact walks.enclosed rest member above up different

theorem Walks.tail (walks : Walks layout disk side (rest :: todo)) : Walks layout disk side todo:=
  ⟨walks.isDirectory, fun other member => walks.enclosed other (List.mem_cons_of_mem _ member)⟩

theorem Staged.copyHead (staged : Staged layout disk staging missed
      (layout.pending (.copying side staging (rest :: todo))))
    (missing : ∀ path ∈ missed, path ∈ missedLater)
    (copied : ∀ found, layout.expected disk (layout.name side :: rest) = some found →
      disk.entry (staging :: layout.name side :: rest) = some found ∨
        found = .directory ∧ layout.name side :: rest ∈ missedLater) :
    Staged layout disk staging missedLater (layout.pending (.copying side staging todo)) := by
  refine staged.advance missing ?_
  intro name other found isExpected before notLater
  rcases before with ⟨rfl, member⟩ | later
  · rcases List.mem_cons.mp member with rfl | left
    · exact copied found isExpected
    · exact absurd (.inl ⟨rfl, left⟩) notLater
  · exact absurd (.inr later) notLater

theorem kept_copyEntry (kept : Kept layout w) (staged : Staged layout w.disk staging call.missed
      (layout.pending (.copying side staging (rest :: todo))))
    (walks : Walks layout w.disk side (rest :: todo))
    (swept : Swept w.disk call.clean (some staging)) :
    Kept layout (w.copyEntry layout call side staging rest todo answer) := by
  have tmp := staged.tmp
  have source : layout.expected w.disk (layout.name side :: rest) =
      w.disk.entry (layout.name side :: rest) :=
    Layout.expected_of_isDirectory walks.isDirectory
  unfold World.copyEntry
  simp only
  split
  · exact kept.throws tmp (fun _ _ _ => rfl) swept
  · exact kept.throws tmp (fun _ _ _ => rfl) swept
  next isDirectory notFile =>
    split
    · exact kept.throws tmp (fun _ _ _ => rfl) swept
    · have grows : Grows layout w.disk
          (w.disk.mkdirs (staging :: layout.name side :: rest) answer.upTo) staging := by
        refine Grows.mkdirs fun above up => ?_
        by_cases same : above = layout.name side :: rest
        · rw [same, source, isDirectory]
        · exact walks.expected_above List.mem_cons_self up same
      refine kept.goOn (grows.rootSame tmp)
        ⟨(staged.grow grows).copyHead ?_ ?_, walks.tail.grow tmp grows, grows.swept swept⟩
      · intro path member
        show path ∈ if _ then call.missed else _
        split
        · exact member
        · exact List.mem_cons_of_mem _ member
      · intro found isExpected
        rw [grows.expected tmp, source, isDirectory] at isExpected
        cases isExpected
        by_cases reached : w.disk.reaches (staging :: layout.name side :: rest) answer.upTo = true
        · exact .inl (Disk.mkdirs_reached (by simp) reached)
        · refine .inr ⟨rfl, ?_⟩
          show _ ∈ if _ then call.missed else _
          rw [if_neg reached]
          exact List.mem_cons_self
  · exact kept.throws tmp (fun _ _ _ => rfl) swept
  next content isFile absent =>
    have parent : (staging :: layout.name side :: rest).dropLast =
        staging :: (layout.name side :: rest).dropLast := rfl
    have shorter : ¬ layout.name side :: rest <+: (layout.name side :: rest).dropLast := by
      intro up
      have length := up.length_le
      rw [List.length_dropLast, List.length_cons] at length
      omega
    have grows : Grows layout w.disk
        (w.disk.mkdirs (staging :: (layout.name side :: rest).dropLast) answer.upTo) staging := by
      refine Grows.mkdirs fun above up => ?_
      refine walks.expected_above List.mem_cons_self (up.trans (List.dropLast_prefix _)) ?_
      rintro rfl
      exact shorter up
    rw [parent]
    split
    · exact kept.throws tmp grows.outside swept
    · split
      · refine kept.throws tmp (fun name other different => ?_) swept
        rw [Disk.put_other _ fun same => different (List.cons.inj same).1]
        exact grows.outside name other different
      · have stillAbsent : (w.disk.mkdirs (staging :: (layout.name side :: rest).dropLast)
            answer.upTo).entry (staging :: layout.name side :: rest) = none := by
          rw [Disk.mkdirs_other fun up => shorter (List.cons_prefix_cons.mp up).2]
          exact absent
        have isExpected : layout.expected (w.disk.mkdirs
            (staging :: (layout.name side :: rest).dropLast) answer.upTo)
            (layout.name side :: rest) = some (.file content) := by
          rw [grows.expected tmp, source, isFile]
        have whole := grows.trans tmp (Grows.put stillAbsent isExpected)
        refine kept.goOn (whole.rootSame tmp)
          ⟨(staged.grow whole).copyHead (fun _ member => member) ?_,
            walks.tail.grow tmp whole, whole.swept swept⟩
        intro found copied
        rw [whole.expected tmp, source, isFile] at copied
        cases copied
        exact .inl (Disk.put_same _)

theorem kept_walked (kept : Kept layout w)
    (staged : Staged layout w.disk staging call.missed (layout.pending (.copying side staging [])))
    (swept : Swept w.disk call.clean (some staging)) :
    Kept layout (w.goOn w.disk { call with step := World.onward staging side }) := by
  refine kept.goOn (fun _ => rfl) ?_
  cases side with
  | extensions =>
    refine ⟨staged.advance (fun _ member => member) ?_, swept⟩
    intro name rest found isExpected before notLater
    rcases before with ⟨-, member⟩ | later
    · cases member
    · exact absurd (.inl later) notLater
  | data =>
    refine ⟨staged.advance (fun _ member => member) ?_, swept⟩
    intro name rest found isExpected before notLater
    rcases before with ⟨-, member⟩ | later
    · cases member
    · exact later.elim

theorem Staged.isDirectory (staged : Staged layout disk staging missed pending)
    (isThere : (disk.entry [staging]).isSome = true) : disk.entry [staging] = some .directory := by
  obtain ⟨found, isFound⟩ := Option.isSome_iff_exists.mp isThere
  rw [isFound, ← staged.sound [] found isFound]
  rfl

theorem kept_publish (kept : Kept layout w)
    (staged : Staged layout w.disk staging call.missed (layout.pending (.publishing staging)))
    (swept : Swept w.disk call.clean (some staging)) :
    Kept layout (w.publish layout call staging answer) := by
  have tmp := staged.tmp
  have different := ne_rootName_of_isTmp tmp
  unfold World.publish
  split
  next renames =>
    simp only [Bool.and_eq_true] at renames
    have isDirectory := staged.isDirectory renames.1.2
    have moved : ∀ rest, (w.disk.rename staging rootName).entry (rootName :: rest) =
        w.disk.entry (staging :: rest) := fun rest => Disk.rename_target
    have isRoot : (w.disk.rename staging rootName).isDirectory [rootName] = true := by
      rw [Disk.isDirectory_iff, moved, isDirectory]
    refine
      { empty := fun noRoot => by
          rw [show (w.disk.rename staging rootName).isDirectory [rootName] = false from noRoot]
            at isRoot
          cases isRoot
        complete := fun _ rest found copied => ?_
        sound := fun _ rest found present => ?_
        call := ?_ }
    · show (w.disk.rename staging rootName).entry (rootName :: rest) = some found ∨ _
      rw [moved]
      cases rest with
      | nil =>
        rw [isDirectory]
        exact .inl copied
      | cons name rest => exact staged.complete name rest found copied fun none => none
    · have unmoved : w.disk.entry (staging :: rest) = some found := by
        rw [← moved]
        exact present
      exact .inl (staged.sound rest found unmoved)
    · intro other isCall
      cases isCall
      refine ⟨isRoot, ?_, fun _ isData => by cases isData⟩
      intro isClean name rest isLeft _
      show (w.disk.rename staging rootName).entry (name :: rest) = none
      by_cases same : name = staging
      · rw [same]
        exact Disk.rename_source different
      · rw [Disk.rename_other (ne_rootName_of_isTmp isLeft) same]
        exact swept isClean name rest isLeft fun equal => same (Option.some.inj equal)
  · refine kept.goOn (fun _ => rfl) ⟨tmp, ?_, swept⟩
    intro notThrown
    simpa using notThrown

theorem kept_clean (kept : Kept layout w) {thrown : Bool}
    {next : World κ} (tmp : isTmp staging = true)
    (isRoot : thrown = false → w.disk.isDirectory [rootName] = true)
    (swept : Swept w.disk call.clean (some staging)) (cleaned : (if thrown then
        some (w.endCall (w.disk.remove (World.deletes (· = staging) spared)) .thrown)
      else some (w.goOn (w.disk.remove (World.deletes (· = staging) spared))
        { call with step := .creating .extensions, clean := call.clean && spared.isEmpty })) =
      some next) : Kept layout next := by
  have same : RootSame w.disk (w.disk.remove (World.deletes (· = staging) spared)) :=
    fun rest => Disk.remove_kept (deletes_of_not (decide_eq_false (ne_rootName_of_isTmp tmp).symm))
  split at cleaned
  · cases cleaned
    exact kept.endCall same .thrown
  next notThrown =>
    cases cleaned
    refine kept.goOn same ⟨?_, ?_, fun _ isData => by cases isData⟩
    · rw [same.isDirectory]
      exact isRoot (by simpa using notThrown)
    · intro isClean name rest isLeft _
      obtain ⟨before, all⟩ := (Bool.and_eq_true _ _).mp isClean
      by_cases named : name = staging
      · exact Disk.remove_gone (deletes_of_all (decide_eq_true named) all)
      · rw [Disk.remove_kept (deletes_of_not (decide_eq_false named))]
        exact swept before name rest isLeft fun equal => named (Option.some.inj equal)

theorem creates (layout : Layout) (isRoot : disk.isDirectory [rootName] = true) (side : Side) (upTo : Nat) :
    (∀ name rest, name ≠ rootName →
      (disk.mkdirs [rootName, layout.name side] upTo).entry (name :: rest) =
        disk.entry (name :: rest)) ∧
    (∀ rest found, disk.entry (rootName :: rest) = some found →
      (disk.mkdirs [rootName, layout.name side] upTo).entry (rootName :: rest) = some found) ∧
    (∀ rest found,
      (disk.mkdirs [rootName, layout.name side] upTo).entry (rootName :: rest) = some found →
        disk.entry (rootName :: rest) = some found ∨
          found = .directory ∧ rest = [layout.name side]) := by
  refine ⟨fun name rest different => ?_, fun rest found => Disk.mkdirs_present, ?_⟩
  · refine Disk.mkdirs_other fun up => different ?_
    exact (List.cons_prefix_cons.mp up).1
  · intro rest found present
    rcases Disk.mkdirs_cases present with before | ⟨rfl, up, -⟩
    · exact .inl before
    · have below := (List.cons_prefix_cons.mp up).2
      rcases List.prefix_cons_iff.mp below with rfl | ⟨tail, rfl, rest⟩
      · exact .inl (Disk.isDirectory_iff.mp isRoot)
      · obtain rfl := List.prefix_nil.mp rest
        exact .inr ⟨rfl, rfl⟩

/-- A directory of the copy that is not there any more is created again. -/
theorem kept_create (kept : Kept layout w) (side : Side) (upTo : Nat) {next : World κ}
    (isRoot : w.disk.isDirectory [rootName] = true)
    (isNext : next.disk = w.disk.mkdirs [rootName, layout.name side] upTo)
    (copy : next.copy = w.copy) (missed : next.missed = w.missed)
    (callKept : ∀ call, next.call = some call → CallKept layout next.disk call) :
    Kept layout next := by
  obtain ⟨-, keeps, adds⟩ := creates layout isRoot side upTo
  have still : next.disk.isDirectory [rootName] = true := by
    rw [Disk.isDirectory_iff, isNext]
    exact keeps [] _ (Disk.isDirectory_iff.mp isRoot)
  refine
    { empty := fun noRoot => by rw [noRoot] at still; cases still
      complete := fun _ rest found copied => ?_
      sound := fun _ rest found present => ?_
      call := callKept }
  · rw [copy] at copied
    rw [missed, isNext]
    exact (kept.complete isRoot rest found copied).imp_left (keeps rest found)
  · rw [isNext] at present
    rw [copy]
    rcases adds rest found present with before | ⟨rfl, rfl⟩
    · exact kept.sound isRoot rest found before
    · exact .inr ⟨rfl, side, rfl⟩

theorem Swept.create (isRoot : disk.isDirectory [rootName] = true) {upTo : Nat}
    {later : Bool} (swept : Swept disk clean none) (only : later = true → clean = true) :
    Swept (disk.mkdirs [rootName, layout.name side] upTo) later none := by
  intro isClean name rest tmp different
  rw [(creates layout isRoot side upTo).1 name rest (ne_rootName_of_isTmp tmp)]
  exact swept (only isClean) name rest tmp different

theorem kept_act (kept : Kept layout w) (isCall : w.call = some call)
    {next : World κ} (acted : w.act layout call answer = some next) : Kept layout next := by
  have callKept := kept.call call isCall
  unfold World.act at acted
  unfold CallKept at callKept
  cases step : call.step with
  | sweeping =>
    simp only [step] at acted
    cases acted
    exact kept_sweep kept answer.spared
  | checking =>
    simp only [step] at acted callKept
    split at acted
    next isRoot =>
      cases acted
      exact kept.goOn (fun _ => rfl) ⟨isRoot, callKept, fun _ isData => by cases isData⟩
    next noRoot =>
      split at acted
      next isNew =>
        cases acted
        refine kept.goOn (fun _ => rfl) ⟨staged_of_new (isTmp_tmpPrefix answer.uuid) ?_ isNew, ?_⟩
        · simpa using noRoot
        · exact fun isClean name rest tmp _ => callKept isClean name rest tmp nofun
      · cases acted
  | entering side staging =>
    simp only [step] at acted callKept
    exact kept_enter kept callKept.1 callKept.2 acted
  | copying side staging todo =>
    cases todo with
    | nil =>
      simp only [step] at acted callKept
      cases acted
      exact kept_walked kept callKept.1 callKept.2.2
    | cons rest todo =>
      simp only [step] at acted callKept
      cases acted
      exact kept_copyEntry kept callKept.1 callKept.2.1 callKept.2.2
  | publishing staging =>
    simp only [step] at acted callKept
    cases acted
    exact kept_publish kept callKept.1 callKept.2
  | cleaning staging thrown =>
    simp only [step] at acted callKept
    exact kept_clean kept callKept.1 callKept.2.1 callKept.2.2 acted
  | creating side =>
    simp only [step] at acted callKept
    obtain ⟨isRoot, swept, -⟩ := callKept
    cases side with
    | extensions =>
      cases acted
      refine kept_create kept .extensions answer.upTo isRoot rfl rfl rfl ?_
      intro other isOther
      cases isOther
      refine ⟨?_, swept.create isRoot fun isClean => ((Bool.and_eq_true _ _).mp isClean).1, ?_⟩
      · rw [Disk.isDirectory_iff]
        exact (creates layout isRoot .extensions answer.upTo).2.1 [] _
          (Disk.isDirectory_iff.mp isRoot)
      · intro isClean _
        rw [Disk.isDirectory_iff]
        exact Disk.mkdirs_reached (by simp) ((Bool.and_eq_true _ _).mp isClean).2
    | data =>
      cases acted
      exact kept_create kept .data answer.upTo isRoot rfl rfl rfl fun _ isOther => by cases isOther

theorem kept_write_below (kept : Kept layout w) (noCall : w.call = none)
    (below : rest ≠ []) (isRoot : w.disk.isDirectory [rootName] = true) (value : Option (Entry κ)) :
    Kept layout { w with
      disk := w.disk.put (rootName :: rest) value
      copy := Function.update w.copy rest value } := by
  have others : ∀ other, other ≠ rest →
      (w.disk.put (rootName :: rest) value).entry (rootName :: other) =
        w.disk.entry (rootName :: other) :=
    fun other different => Disk.put_other _ fun same => different (List.cons.inj same).2
  have still : (w.disk.put (rootName :: rest) value).isDirectory [rootName] =
      w.disk.isDirectory [rootName] := by
    unfold Disk.isDirectory
    rw [others [] below.symm]
  refine
    { empty := ?_
      complete := ?_
      sound := ?_
      call := fun call isCall => by rw [show w.call = some call from isCall] at noCall; cases noCall }
  · intro noRoot
    rw [show (w.disk.put (rootName :: rest) value).isDirectory [rootName] = _ from still] at noRoot
    rw [isRoot] at noRoot
    cases noRoot
  · intro _ other found
    show Function.update w.copy rest value other = some found →
      (w.disk.put (rootName :: rest) value).entry (rootName :: other) = some found ∨ _
    intro copied
    by_cases same : other = rest
    · rw [same, Function.update_self] at copied
      rw [same, Disk.put_same]
      exact .inl copied
    · rw [Function.update_of_ne same] at copied
      rw [others other same]
      exact kept.complete isRoot other found copied
  · intro _ other found
    show (w.disk.put (rootName :: rest) value).entry (rootName :: other) = some found →
      Function.update w.copy rest value other = some found ∨ _
    intro present
    by_cases same : other = rest
    · rw [same, Disk.put_same] at present
      rw [same, Function.update_self]
      exact .inl present
    · rw [others other same] at present
      rcases kept.sound isRoot other found present with copied | again
      · exact .inl ((Function.update_of_ne same _ _).trans copied)
      · exact .inr again

theorem kept_write (kept : Kept layout w) (noCall : w.call = none) {path : List String}
    (writable : w.writable path = true) (value : Option (Entry κ)) :
    Kept layout (w.write path value) := by
  unfold World.writable at writable
  split at writable
  · cases writable
  next name rest =>
    simp only [Bool.and_eq_true, Bool.or_eq_true, Bool.not_eq_true', decide_eq_true_eq] at writable
    unfold World.write
    by_cases isRoot : name = rootName
    · subst isRoot
      obtain ⟨below, there⟩ := writable.2.resolve_left fun different => different rfl
      rw [if_pos (by rfl)]
      refine kept_write_below kept noCall ?_ there value
      rintro rfl
      cases below
    · have elsewhere : (name :: rest).head? ≠ some rootName :=
        fun same => isRoot (Option.some.inj same)
      rw [if_neg elsewhere]
      refine kept.of_rootSame ?_ rfl rfl ?_
      · exact fun other => Disk.put_other value fun same => isRoot (List.cons.inj same).1.symm
      · intro call isCall
        rw [show w.call = some call from isCall] at noCall
        cases noCall

theorem kept_step (kept : Kept layout w) {event : Event κ} {next : World κ}
    (stepped : w.step layout event = some next) : Kept layout next := by
  cases event with
  | begin =>
    simp only [World.step] at stepped
    split at stepped
    · cases stepped
      refine kept.of_rootSame (fun _ => rfl) rfl rfl ?_
      intro call isCall
      cases isCall
      trivial
    · cases stepped
  | call answer =>
    obtain ⟨call, isCall, acted⟩ := Option.bind_eq_some_iff.mp stepped
    exact kept_act kept isCall acted
  | kill =>
    obtain ⟨call, isCall, rfl⟩ := Option.map_eq_some_iff.mp stepped
    exact kept.endCall (fun _ => rfl) .killed
  | write path value =>
    simp only [World.step] at stepped
    split at stepped
    next permitted =>
      cases stepped
      obtain ⟨noCall, writable⟩ := (Bool.and_eq_true _ _).mp permitted
      exact kept_write kept (Option.isNone_iff_eq_none.mp noCall) writable value
    · cases stepped

theorem kept_of_reachable {admits : World κ → Event κ → Prop}
    (reachable : (World.machine layout).Reachable admits w) : Kept layout w := by
  refine reachable.invariant (fun start begins => ?_)
    (fun state event next _ kept _ stepped => kept_step kept stepped)
  have noRoot := begins.noRoot
  exact
    { empty := fun _ => begins.noCopy
      complete := fun isRoot => by rw [noRoot] at isRoot; cases isRoot
      sound := fun isRoot => by rw [noRoot] at isRoot; cases isRoot
      call := fun call isCall => by rw [begins.noCall] at isCall; cases isCall }

/-! ## What a step changes -/

/-- Only entries in staging directories change. -/
def TmpOnly (disk next : Disk String κ) : Prop :=
  ∀ name rest, isTmp name = false → next.entry (name :: rest) = disk.entry (name :: rest)

theorem TmpOnly.refl (disk : Disk String κ) : TmpOnly disk disk := fun _ _ _ => rfl

theorem ne_of_isTmp (notTmp : isTmp name = false) (tmp : isTmp staging = true) :
    name ≠ staging := by
  rintro rfl
  rw [notTmp] at tmp
  cases tmp

theorem tmpOnly_mkdirs (tmp : isTmp staging = true) (path : List String) (upTo : Nat) :
    TmpOnly disk (disk.mkdirs (staging :: path) upTo) :=
  fun _ _ notTmp => Disk.mkdirs_other fun up =>
    ne_of_isTmp notTmp tmp (List.cons_prefix_cons.mp up).1

theorem TmpOnly.put (only : TmpOnly disk next) (tmp : isTmp staging = true)
    (path : List String) (value : Option (Entry κ)) :
    TmpOnly disk (next.put (staging :: path) value) := by
  intro name rest notTmp
  rw [Disk.put_other _ fun same => ne_of_isTmp notTmp tmp (List.cons.inj same).1]
  exact only name rest notTmp

theorem tmpOnly_remove (tmp : ∀ name, names name = true → isTmp name = true)
    (spared : List (List String)) : TmpOnly disk (disk.remove (World.deletes names spared)) := by
  intro name rest notTmp
  refine Disk.remove_kept (deletes_of_not ?_)
  cases named : names name with
  | false => rfl
  | true =>
    rw [tmp name named] at notTmp
    cases notTmp

/-- What a step of a call does to the disk. -/
inductive Changes (layout : Layout) (w next : World κ) : Prop
  | staging (only : TmpOnly w.disk next.disk) (copy : next.copy = w.copy)
  | published (name : String) (tmp : isTmp name = true)
      (noRoot : w.disk.isDirectory [rootName] = false)
      (isRoot : next.disk.isDirectory [rootName] = true)
      (disk : next.disk = w.disk.rename name rootName)
      (copy : next.copy = layout.expected w.disk)
  | created (side : Side) (upTo : Nat) (isRoot : w.disk.isDirectory [rootName] = true)
      (disk : next.disk = w.disk.mkdirs [rootName, layout.name side] upTo)
      (copy : next.copy = w.copy)

theorem changes_enter {next : World κ}
    (tmp : isTmp staging = true) (entered : w.enter layout call side staging answer = some next) :
    Changes layout w next := by
  unfold World.enter at entered
  split at entered
  · split at entered
    · cases entered
      exact .staging (.refl _) rfl
    · split at entered
      · cases entered
        exact .staging (.refl _) rfl
      · cases entered
  · simp only at entered
    split at entered
    · cases entered
      exact .staging (tmpOnly_mkdirs tmp _ _) rfl
    · cases entered
      exact .staging (tmpOnly_mkdirs tmp _ _) rfl

theorem changes_copyEntry (tmp : isTmp staging = true) :
    Changes layout w (w.copyEntry layout call side staging rest todo answer) := by
  unfold World.copyEntry
  simp only
  split
  · exact .staging (.refl _) rfl
  · exact .staging (.refl _) rfl
  · split
    · exact .staging (.refl _) rfl
    · exact .staging (tmpOnly_mkdirs tmp _ _) rfl
  · exact .staging (.refl _) rfl
  · have made : TmpOnly w.disk
        (w.disk.mkdirs (staging :: layout.name side :: rest).dropLast answer.upTo) :=
      tmpOnly_mkdirs tmp _ _
    split
    · exact .staging made rfl
    · split
      · exact .staging (made.put tmp _ _) rfl
      · exact .staging (made.put tmp _ _) rfl

theorem changes_publish (staged : Staged layout w.disk staging missed pending) :
    Changes layout w (w.publish layout call staging answer) := by
  unfold World.publish
  split
  next renames =>
    simp only [Bool.and_eq_true] at renames
    refine .published staging staged.tmp staged.noRoot ?_ rfl rfl
    exact Disk.isDirectory_iff.mpr (Disk.rename_target.trans (staged.isDirectory renames.1.2))
  · exact .staging (.refl _) rfl

theorem changes_act (kept : Kept layout w) (isCall : w.call = some call)
    {next : World κ} (acted : w.act layout call answer = some next) : Changes layout w next := by
  have callKept := kept.call call isCall
  unfold World.act at acted
  unfold CallKept at callKept
  cases step : call.step with
  | sweeping =>
    simp only [step] at acted
    cases acted
    exact .staging (tmpOnly_remove (fun _ tmp => tmp) _) rfl
  | checking =>
    simp only [step] at acted
    split at acted
    · cases acted
      exact .staging (.refl _) rfl
    · split at acted
      · cases acted
        exact .staging (.refl _) rfl
      · cases acted
  | entering side staging =>
    simp only [step] at acted callKept
    exact changes_enter callKept.1.tmp acted
  | copying side staging todo =>
    cases todo with
    | nil =>
      simp only [step] at acted
      cases acted
      exact .staging (.refl _) rfl
    | cons rest todo =>
      simp only [step] at acted callKept
      cases acted
      exact changes_copyEntry callKept.1.tmp
  | publishing staging =>
    simp only [step] at acted callKept
    cases acted
    exact changes_publish callKept.1
  | cleaning staging thrown =>
    simp only [step] at acted callKept
    have only : TmpOnly w.disk (w.disk.remove (World.deletes (· = staging) answer.spared)) := by
      refine tmpOnly_remove (fun name named => ?_) _
      rw [of_decide_eq_true named]
      exact callKept.1
    split at acted
    · cases acted
      exact .staging only rfl
    · cases acted
      exact .staging only rfl
  | creating side =>
    simp only [step] at acted callKept
    cases side with
    | extensions =>
      cases acted
      exact .created .extensions answer.upTo callKept.1 rfl rfl
    | data =>
      cases acted
      exact .created .data answer.upTo callKept.1 rfl rfl

theorem changes_step (kept : Kept layout w) {event : Event κ} (notWrite : event.isWrite = false)
    {next : World κ} (stepped : w.step layout event = some next) : Changes layout w next := by
  cases event with
  | begin =>
    simp only [World.step] at stepped
    split at stepped
    · cases stepped
      exact .staging (.refl _) rfl
    · cases stepped
  | call answer =>
    obtain ⟨call, isCall, acted⟩ := Option.bind_eq_some_iff.mp stepped
    exact changes_act kept isCall acted
  | kill =>
    obtain ⟨call, isCall, rfl⟩ := Option.map_eq_some_iff.mp stepped
    exact .staging (.refl _) rfl
  | write path value => cases notWrite

theorem copyEntry_call (w : World κ) (layout : Layout) (call : Call) (staging : String)
    (side : Side) (rest : List String) (todo : List (List String)) (answer : Answer κ) :
    ∃ target, (w.copyEntry layout call side staging rest todo answer).call = some target := by
  unfold World.copyEntry
  simp only
  split
  · exact ⟨_, rfl⟩
  · exact ⟨_, rfl⟩
  · split
    · exact ⟨_, rfl⟩
    · exact ⟨_, rfl⟩
  · exact ⟨_, rfl⟩
  · split
    · exact ⟨_, rfl⟩
    · split
      · exact ⟨_, rfl⟩
      · exact ⟨_, rfl⟩

theorem returned_of_act {next : World κ}
    (acted : w.act layout call answer = some next) (ended : next.call = none)
    (returned : next.ending = some (.returned clean)) :
    call.step = .creating .data ∧
      next.disk = w.disk.mkdirs [rootName, layout.data] answer.upTo ∧
      clean = (call.clean && w.disk.reaches [rootName, layout.data] answer.upTo) := by
  unfold World.act at acted
  cases step : call.step with
  | sweeping =>
    simp only [step] at acted
    cases acted
    cases ended
  | checking =>
    simp only [step] at acted
    split at acted
    · cases acted
      cases ended
    · split at acted
      · cases acted
        cases ended
      · cases acted
  | entering side staging =>
    simp only [step] at acted
    unfold World.enter at acted
    split at acted
    · split at acted
      · cases acted
        cases ended
      · split at acted
        · cases acted
          cases ended
        · cases acted
    · simp only at acted
      split at acted <;>
        · cases acted
          cases ended
  | copying side staging todo =>
    cases todo with
    | nil =>
      simp only [step] at acted
      cases acted
      cases ended
    | cons rest todo =>
      simp only [step] at acted
      cases acted
      obtain ⟨target, going⟩ := copyEntry_call w layout call staging side rest todo answer
      rw [ended] at going
      cases going
  | publishing staging =>
    simp only [step] at acted
    cases acted
    unfold World.publish at ended
    split at ended <;> cases ended
  | cleaning staging thrown =>
    simp only [step] at acted
    split at acted
    · cases acted
      cases returned
    · cases acted
      cases ended
  | creating side =>
    simp only [step] at acted
    cases side with
    | extensions =>
      cases acted
      cases ended
    | data =>
      cases acted
      obtain rfl := Ending.returned.inj (Option.some.inj returned)
      exact ⟨rfl, rfl, rfl⟩

theorem returned_clean (kept : Kept layout w) {next : World κ}
    (stepped : w.step layout (.call answer) = some next) (ended : next.call = none)
    (returned : next.ending = some (.returned true)) :
    next.disk.isDirectory [rootName] = true ∧
      (∀ side, next.disk.isDirectory [rootName, layout.name side] = true) ∧
        ∀ name rest, isTmp name = true → next.disk.entry (name :: rest) = none := by
  obtain ⟨call, isCall, acted⟩ := Option.bind_eq_some_iff.mp stepped
  obtain ⟨step, isNext, isClean⟩ := returned_of_act acted ended returned
  obtain ⟨wasClean, reached⟩ := (Bool.and_eq_true _ _).mp isClean.symm
  have callKept := kept.call call isCall
  unfold CallKept at callKept
  rw [step] at callKept
  obtain ⟨isRoot, swept, extensions⟩ := callKept
  obtain ⟨outside, keeps, -⟩ := creates layout isRoot .data answer.upTo
  rw [isNext]
  refine ⟨?_, ?_, ?_⟩
  · exact Disk.isDirectory_iff.mpr (keeps [] _ (Disk.isDirectory_iff.mp isRoot))
  · intro side
    rw [Disk.isDirectory_iff]
    cases side with
    | extensions => exact keeps _ _ (Disk.isDirectory_iff.mp (extensions wasClean rfl))
    | data => exact Disk.mkdirs_reached (by simp) reached
  · intro name rest tmp
    exact (outside name rest (ne_rootName_of_isTmp tmp)).trans (swept wasClean name rest tmp nofun)

/-! ## Crash safety -/

/-- What is on the disk in every state, and what the steps of a call do to it. -/
structure CrashSafe (layout : Layout) (w : World κ) : Prop where
  complete : w.disk.isDirectory [rootName] = true → ∀ rest found, w.copy rest = some found →
    w.disk.entry (rootName :: rest) = some found ∨ found = .directory ∧ rest ∈ w.missed
  sound : w.disk.isDirectory [rootName] = true → ∀ rest found,
    w.disk.entry (rootName :: rest) = some found →
      w.copy rest = some found ∨ found = .directory ∧ ∃ side, rest = [layout.name side]
  copied : ∀ event next, event.isWrite = false → w.step layout event = some next →
    next.copy = if w.disk.isDirectory [rootName] = next.disk.isDirectory [rootName] then w.copy
      else layout.expected w.disk
  sources : ∀ event next, event.isWrite = false → w.step layout event = some next →
    ∀ name rest, name ≠ rootName → isTmp name = false →
      next.disk.entry (name :: rest) = w.disk.entry (name :: rest)
  stays : ∀ event next, event.isWrite = false → w.step layout event = some next →
    w.disk.isDirectory [rootName] = true → ∀ rest,
      next.disk.entry (rootName :: rest) = w.disk.entry (rootName :: rest) ∨
        w.disk.entry (rootName :: rest) = none ∧
          next.disk.entry (rootName :: rest) = some .directory ∧
            ∃ side, rest = [layout.name side]
  returns : ∀ answer next, w.step layout (.call answer) = some next → next.call = none →
    next.ending = some (.returned true) →
      next.disk.isDirectory [rootName] = true ∧
      (∀ side, next.disk.isDirectory [rootName, layout.name side] = true) ∧
        ∀ name rest, isTmp name = true → next.disk.entry (name :: rest) = none

end Steps

/-! ## Runs -/

/-- The names that the app uses. -/
def appLayout : Layout where
  extensions := "extensions"
  data := "ext_data"
  distinct := by decide
  extensionsApart := by decide
  dataApart := by decide

/-- A disk before the first call. -/
def before (entries : List (List String × Entry Nat)) : World Nat where
  disk := .ofList entries
  call := none
  ending := none
  copy := fun _ => none
  missed := []

/-- Nothing fails. -/
def Answer.fine : Answer Nat where
  fails := false
  spared := []
  uuid := "1"
  order := []
  upTo := 9
  written := none

/-- A call that copies one extension with its manifest, and no data directory. -/
def copyEvents : List (Event Nat) :=
  [.begin, .call .fine, .call .fine,
    .call { Answer.fine with order := [[], ["tidal"], ["tidal", "manifest.json"]] },
    .call .fine, .call .fine, .call .fine, .call .fine, .call .fine, .call .fine, .call .fine,
    .call .fine]

/-- An extension and what an earlier call has left. -/
def withExtension : List (List String × Entry Nat) :=
  [(["extensions"], .directory), (["extensions", "tidal"], .directory),
    (["extensions", "tidal", "manifest.json"], .file 7),
    (["engine-rust.tmp-0"], .directory)]

/-- A call that cannot delete what an earlier one has left. -/
def leaveEvents : List (Event Nat) :=
  [.begin, .call { Answer.fine with spared := [["engine-rust.tmp-0"]] }, .call .fine] ++
    copyEvents.drop 3

/-- Two empty directories, of which the second cannot be created in the copy. -/
def missEvents : List (Event Nat) :=
  [.begin, .call .fine, .call .fine, .call { Answer.fine with order := [[]] }, .call .fine,
    .call .fine, .call { Answer.fine with order := [[]] }, .call { Answer.fine with upTo := 1 },
    .call .fine, .call .fine, .call .fine, .call { Answer.fine with upTo := 1 }]

end LosslessMusic.Engine.Isolation
