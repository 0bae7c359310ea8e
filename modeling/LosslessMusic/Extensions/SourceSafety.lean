import LosslessMusic.Extensions.SourceOperations

/-!
# What an operation does to the source directory

The names of extensions, and the names that were there when an operation began, lead to
what they led to, but for the extension of a package: its name leads to the old directory
or to all of the new one, or it is free while the two are exchanged.
-/

namespace LosslessMusic.Extensions.Sources

open Interruption
open Store (Bytes bytesOf)

variable {parse : Parser}

/-- The previous source is taken back where it has to be. -/
def Request.careful : Request → Choice → Prop
  | .rename _ _ true, choice => choice = .succeeded
  | _, _ => True

/-- An operation has the directory for itself. -/
def Request.any (_ : Request) : Prop := True

/-- What a program meets. -/
abbrev Meets {α : Type} (during : World parse → Prop) (post : α → World parse → Prop)
    (failed : ManagerError → World parse → Prop) : Action parse α → World parse → Prop :=
  Program.Meets ⟨effect⟩ Request.any Request.careful during post failed

/-! ## Names -/

theorem not_valid_temporary (id text : Name) (kind : String) :
    Store.validExtensionId (temporaryStart id kind ++ text) = false := by
  simp [Store.validExtensionId, temporaryStart]

/-- The names that an operation leaves alone: those of extensions, and those that led
somewhere when it began. -/
def Fixed (base : World parse) (name : Name) : Prop :=
  Store.validExtensionId name = true ∨ (base.sources.lookup name).isSome = true

theorem Package.fixed (package : Package parse) (base : World parse) :
    Fixed base package.manifest.name := .inl package.manifest.valid

/-- Nothing has happened but to temporary names. -/
structure Same (base world : World parse) : Prop where
  entries : world.entries = base.entries
  persisted : world.persisted = base.persisted
  sources : ∀ name, Fixed base name → world.sources.lookup name = base.sources.lookup name

theorem Same.refl (base : World parse) : Same base base := ⟨rfl, rfl, fun _ _ => rfl⟩

theorem Same.disturb {base world : World parse} (same : Same base world) :
    Same base world.disturb := ⟨same.entries, same.persisted, same.sources⟩

section Names

variable {base world : World parse} {name : Name}

theorem Same.not_fixed (same : Same base world) (id text : Name) (kind : String)
    (free : world.sources.lookup (temporaryStart id kind ++ text) = none) :
    ¬ Fixed base (temporaryStart id kind ++ text) := by
  intro fixed
  rw [same.sources _ fixed] at free
  rcases fixed with valid | there
  · rw [not_valid_temporary] at valid
    cases valid
  · rw [free] at there
    cases there

theorem Same.put (same : Same base world) (temporary : ¬ Fixed base name) (node : Node parse) :
    Same base (world.put name node) := by
  refine ⟨same.entries, same.persisted, ?_⟩
  intro other fixed
  have different : other ≠ name := by
    rintro rfl
    exact temporary fixed
  exact (Finmap.lookup_insert_of_ne _ different).trans (same.sources other fixed)

theorem Same.erase (same : Same base world) (temporary : ¬ Fixed base name) :
    Same base (world.erase name) := by
  refine ⟨same.entries, same.persisted, ?_⟩
  intro other fixed
  have different : other ≠ name := by
    rintro rfl
    exact temporary fixed
  exact (Finmap.lookup_erase_ne different).trans (same.sources other fixed)

end Names

/-! ## Temporary directories -/

variable {failed : ManagerError → World parse → Prop} {id : Name} {error : ManagerError}

section Temporary

variable {during : World parse → Prop} {name : Name}

/-- An assertion that says nothing about a name. -/
structure Ignores (name : Name) (assertion : World parse → Prop) : Prop where
  put : ∀ world node, assertion world → assertion (world.put name node)
  erase : ∀ world, assertion world → assertion (world.erase name)
  disturb : ∀ world, assertion world → assertion world.disturb

theorem Same.ignores {base : World parse} (temporary : ¬ Fixed base name) :
    Ignores name (Same base) where
  put _ node same := same.put temporary node
  erase _ same := same.erase temporary
  disturb _ same := same.disturb

variable {world : World parse} {assertion : World parse → Prop}

theorem meets_attemptRemove
    (ignores : Ignores name assertion) (first : during world) (holds : assertion world) :
    Meets during (fun _ => assertion) failed (attempt (.remove name)) world := by
  refine Program.meets_attempt trivial first ?_
  intro choice _
  show assertion (effect world (.remove name) choice).1
  cases choice with
  | succeeded => exact ignores.erase world holds
  | removed paths =>
    simp only [effect]
    split
    · exact ignores.disturb _ (ignores.put world _ holds)
    · exact ignores.disturb world holds
  | failed | suffix _ | names _ | partly _ => exact ignores.disturb world holds

theorem meets_discard (ignores : Ignores name assertion)
    (first : during world) (holds : assertion world) :
    Meets during (fun _ => assertion) failed (discard name) world :=
  (meets_attemptRemove ignores first holds).andThen fun _ _ held => held

/-- A temporary directory is removed at the end of a program that says nothing about it. -/
theorem meets_discarding {α : Type} {body : Action parse α} {post : α → World parse → Prop}
    (meets : Meets during post failed body world)
    (ends : ∀ value, Ignores name (post value)) (breaks : ∀ error, Ignores name (failed error))
    (after : ∀ value world, post value world → during world)
    (broken : ∀ error world, failed error world → during world) :
    Meets during post failed (discarding name body) world := by
  apply Program.Meets.handle
  apply meets.mono (fun _ held => held)
  · intro value next held
    exact (meets_discard (ends value) (after value next held) held).andThen fun _ _ held => held
  · intro error next held
    exact (meets_discard (breaks error) (broken error next held) held).andThen fun _ _ held => held

/-- A new temporary directory, under a name that leads nowhere yet. -/
theorem meets_tempdir {base : World parse} {kind : String}
    (first : during world) (same : Same base world) :
    Meets during (fun name next => ¬ Fixed base name ∧ world.sources.lookup name = none ∧
        next = world.put name (.directory ∅))
      (fun _ next => next = world.disturb) (tempdir id kind error) world := by
  refine Program.meets_ask trivial first ?_ ?_
  · intro choice name _ answers
    cases choice with
    | suffix text =>
      simp only [effect] at answers ⊢
      split at answers
      next free =>
        cases answers
        rw [if_pos free]
        have nowhere := Option.isNone_iff_eq_none.mp free
        exact ⟨same.not_fixed id text kind nowhere, nowhere, rfl⟩
      next => cases answers
    | failed | succeeded | names _ | partly _ | removed _ => cases answers
  · intro choice _ refused
    cases choice with
    | suffix text =>
      simp only [effect] at refused ⊢
      split at refused
      next => cases refused
      next taken => rw [if_neg taken]
    | failed | succeeded | names _ | partly _ | removed _ => rfl

end Temporary

/-! ## Staging -/

/-- The files of an archive, in a directory. -/
def extracted (files : Files) (entries : List (Name × Bytes)) : Files :=
  entries.foldl (fun files entry => files.insert entry.1 entry.2) files

/-- All of a package. -/
def Package.contents (package : Package parse) : Files := extracted ∅ package.files

/-- What a directory has to hold to be loaded. -/
structure Complete (parse : Parser) (manifest : Manifest) (files : Files) : Prop where
  described : ∃ text, files.lookup manifestPath = some text ∧ parse text = some manifest
  indexed : (files.lookup indexPath).isSome = true

variable {post : Unit → World parse → Prop}

section Staging

variable {during : World parse → Prop} {base world : World parse} {name : Name}

theorem meets_check (first : during world)
    (passed : post () world) (closed : failed .closed world.disturb) :
    Meets during post failed check world := by
  refine Program.meets_ask trivial first ?_ ?_
  · intro choice _ _ answers
    cases choice <;> cases answers
    exact passed
  · intro choice _ refused
    cases choice with
    | succeeded => cases refused
    | failed | suffix _ | names _ | partly _ | removed _ => exact closed

theorem meets_extractFile {path : Name} {data : Bytes} {files : Files}
    (temporary : ¬ Fixed base name) (first : ∀ world, Same base world → during world)
    (same : Same base world) (there : world.sources.lookup name = some (.directory files)) :
    Meets during (fun _ next => files.lookup path = none ∧ Same base next ∧
        next.sources.lookup name = some (.directory (files.insert path data)))
      (fun _ => Same base) (ask (.extract name path data) error) world := by
  have found : world.files? name = some files := by
    unfold World.files?
    rw [there]
  refine Program.meets_ask trivial (first world same) ?_ ?_
  · intro choice _ _ answers
    cases choice with
    | succeeded =>
      simp only [effect, found] at answers ⊢
      split at answers
      next free =>
        rw [if_pos free]
        exact ⟨Option.isNone_iff_eq_none.mp free, same.put temporary _, Finmap.lookup_insert _⟩
      next => cases answers
    | partly part =>
      simp only [effect, found] at answers
      split at answers <;> cases answers
    | failed | suffix _ | names _ | removed _ => cases answers
  · intro choice _ _
    cases choice with
    | succeeded | partly part =>
      simp only [effect, found]
      split
      · first | exact same.put temporary _ | exact (same.put temporary _).disturb
      · exact same.disturb
    | failed | suffix _ | names _ | removed _ => exact same.disturb

theorem meets_extract (temporary : ¬ Fixed base name)
    (first : ∀ world, Same base world → during world)
    (entries : List (Name × Bytes)) (files : Files) (same : Same base world)
    (there : world.sources.lookup name = some (.directory files)) :
    Meets during (fun _ next => Same base next ∧
        next.sources.lookup name = some (.directory (extracted files entries)) ∧
        (∀ entry ∈ entries, (extracted files entries).lookup entry.1 = some entry.2) ∧
        ∀ path data, files.lookup path = some data →
          (extracted files entries).lookup path = some data)
      (fun _ => Same base) (extract name entries) world := by
  induction entries generalizing files world with
  | nil => exact ⟨same, there, (fun _ => nofun), fun _ _ found => found⟩
  | cons entry entries ih =>
    obtain ⟨path, data⟩ := entry
    apply Program.Meets.bind
    apply meets_check (first world same) _ same.disturb
    apply Program.Meets.andThen (meets_extractFile temporary first same there)
    rintro _ next ⟨free, same, there⟩
    apply (ih (files.insert path data) same there).mono
      (fun _ held => held) _ (fun _ _ held => held)
    rintro _ last ⟨same, there, written, kept⟩
    refine ⟨same, there, ?_, ?_⟩
    · intro entry member
      cases member with
      | head => exact kept path data (Finmap.lookup_insert _)
      | tail _ later => exact written entry later
    · intro other old found
      apply kept
      have different : other ≠ path := by
        rintro rfl
        rw [free] at found
        cases found
      rw [Finmap.lookup_insert_of_ne _ different]
      exact found

/-- A package is in a temporary directory, all of it. -/
structure Staged (package : Package parse) (base : World parse) (name : Name)
    (world : World parse) : Prop where
  same : Same base world
  temporary : ¬ Fixed base name
  there : world.sources.lookup name = some (.directory package.contents)
  complete : Complete parse package.manifest package.contents

theorem meets_stage {package : Package parse} {kind : String}
    (first : ∀ world, Same base world → during world) (same : Same base world) :
    Meets during (fun name => Staged package base name) (fun _ => Same base)
      (stage package kind) world := by
  apply Program.Meets.andThen ((meets_tempdir (first world same) same).mono
    (fun _ held => held) (fun _ _ held => held) _)
  rotate_left
  · rintro error next rfl
    exact same.disturb
  rintro name next ⟨temporary, _, rfl⟩
  have empty : (world.put name (.directory ∅)).sources.lookup name = some (.directory ∅) :=
    Finmap.lookup_insert _
  apply Program.Meets.handle
  apply (meets_extract temporary first package.files ∅ (same.put temporary _) empty).mono
    (fun _ held => held)
  · rintro _ last ⟨same, there, written, _⟩
    refine ⟨same, temporary, there, ?_, ?_⟩
    · obtain ⟨text, member, parsed⟩ := package.described
      exact ⟨text, written _ member, parsed⟩
    · obtain ⟨text, member⟩ := package.indexed
      have found := written _ member
      unfold Package.contents
      rw [found]
      rfl
  · intro error last held
    exact (meets_discard (Same.ignores temporary) (first last held) held).andThen
      fun _ _ held => held

end Staging

/-! ## Exchanging two directories -/

section Exchange

variable {during : World parse → Prop} {base world : World parse} {name stage backup : Name}
    {package : Package parse}

theorem Staged.ignores (temporary : ¬ Fixed base name) (other : name ≠ stage) :
    Ignores name (Staged package base stage) where
  put _ node staged := ⟨staged.same.put temporary node, staged.temporary,
    (Finmap.lookup_insert_of_ne _ other.symm).trans staged.there, staged.complete⟩
  erase _ staged := ⟨staged.same.erase temporary, staged.temporary,
    (Finmap.lookup_erase_ne other.symm).trans staged.there, staged.complete⟩
  disturb _ staged := ⟨staged.same.disturb, staged.temporary, staged.there, staged.complete⟩

/-- What may become of the source directory while a package is installed. -/
structure Touches (package : Package parse) (base world : World parse) : Prop where
  others : ∀ name, Fixed base name → name ≠ package.manifest.name →
    world.sources.lookup name = base.sources.lookup name
  target : world.sources.lookup package.manifest.name = base.sources.lookup package.manifest.name ∨
    (world.sources.lookup package.manifest.name = some (.directory package.contents) ∧
      Complete parse package.manifest package.contents) ∨
    (world.sources.lookup package.manifest.name = none ∧
      (world.entries package.manifest.name).isSome = true)

/-- The package is in its place. -/
structure Placed (package : Package parse) (base world : World parse) : Prop where
  others : ∀ name, Fixed base name → name ≠ package.manifest.name →
    world.sources.lookup name = base.sources.lookup name
  active : world.sources.lookup package.manifest.name = some (.directory package.contents)
  complete : Complete parse package.manifest package.contents

/-- The package is in its place, and registered. -/
structure Activated (package : Package parse) (base world : World parse) : Prop
    extends Placed package base world where
  entry : ∃ enabled error, error ≠ some .removal ∧
    world.entries = Function.update base.entries package.manifest.name
      (some ⟨package.manifest, package.manifest.name, enabled, error⟩)

theorem Same.touches (same : Same base world) : Touches package base world :=
  ⟨fun name fixed _ => same.sources name fixed, .inl (same.sources _ (package.fixed base))⟩

theorem Placed.touches (placed : Placed package base world) : Touches package base world :=
  ⟨placed.others, .inr (.inl ⟨placed.active, placed.complete⟩)⟩

theorem Placed.ignores (temporary : ¬ Fixed base name) : Ignores name (Placed package base) := by
  have other : package.manifest.name ≠ name := by
    intro same
    exact temporary (same ▸ package.fixed base)
  have elsewhere : ∀ {fixed : Name}, Fixed base fixed → fixed ≠ name := by
    rintro fixed holds rfl
    exact temporary holds
  constructor
  · intro world node placed
    exact ⟨fun name fixed different =>
        (Finmap.lookup_insert_of_ne _ (elsewhere fixed)).trans (placed.others name fixed different),
      (Finmap.lookup_insert_of_ne _ other).trans placed.active, placed.complete⟩
  · intro world placed
    exact ⟨fun name fixed different =>
        (Finmap.lookup_erase_ne (elsewhere fixed)).trans (placed.others name fixed different),
      (Finmap.lookup_erase_ne other).trans placed.active, placed.complete⟩
  · intro world placed
    exact ⟨placed.others, placed.active, placed.complete⟩

theorem Activated.ignores (temporary : ¬ Fixed base name) :
    Ignores name (Activated package base) where
  put world node activated :=
    ⟨(Placed.ignores temporary).put world node activated.toPlaced, activated.entry⟩
  erase world activated :=
    ⟨(Placed.ignores temporary).erase world activated.toPlaced, activated.entry⟩
  disturb world activated :=
    ⟨(Placed.ignores temporary).disturb world activated.toPlaced, activated.entry⟩

variable {source target : Name}

/-- A directory has another name, or nothing has happened. -/
theorem effect_rename {restoring : Bool} {choice : Choice}
    (careful : (Request.rename source target restoring).careful choice) :
    (∃ files, world.files? source = some files ∧ vacant (world.sources.lookup target) = true ∧
      effect world (.rename source target restoring) choice =
        ((world.erase source).put target (.directory files), some ())) ∨
    (effect world (.rename source target restoring) choice = (world.disturb, none) ∧
      (restoring = true → ∀ files, world.files? source = some files →
        vacant (world.sources.lookup target) = false)) := by
  have refused : ∀ other : Choice, other ≠ .succeeded → choice = other → restoring ≠ true := by
    rintro other different rfl rfl
    exact different careful
  cases choice with
  | succeeded =>
    simp only [effect, renamed]
    cases there : world.files? source with
    | none => exact .inr ⟨rfl, fun _ files found => by cases found⟩
    | some files =>
      cases free : vacant (world.sources.lookup target) with
      | true => exact .inl ⟨files, rfl, rfl, rfl⟩
      | false => exact .inr ⟨rfl, fun _ _ _ => rfl⟩
  | failed | suffix _ | names _ | partly _ | removed _ =>
    exact .inr ⟨rfl, fun restoring' =>
      absurd restoring' (refused _ (fun same => by cases same) rfl)⟩

theorem meets_rename (first : during world) (moved : ∀ files, world.files? source = some files →
      post () ((world.erase source).put target (.directory files)))
    (kept : failed error world.disturb) :
    Meets during post failed (ask (.rename source target false) error) world := by
  refine Program.meets_ask trivial first ?_ ?_
  · intro choice _ careful answers
    show post _ (effect world _ choice).1
    rcases effect_rename careful with ⟨files, found, _, renamed⟩ | ⟨refused, _⟩
    · rw [renamed]
      exact moved files found
    · have none : (effect world (.rename source target false) choice).2 = some _ := answers
      rw [refused] at none
      cases none
  · intro choice careful refused
    show failed _ (effect world _ choice).1
    rcases effect_rename careful with ⟨files, found, _, renamed⟩ | ⟨refused, _⟩
    · have none : (effect world (.rename source target false) choice).2 = none := refused
      rw [renamed] at none
      cases none
    · rw [refused]
      exact kept

/-- A renaming whose failure is looked at. One that has to take something back does so. -/
theorem meets_attemptRename {restoring : Bool} {post : Option Unit → World parse → Prop}
    (first : during world) (moved : ∀ files, world.files? source = some files →
      post (some ()) ((world.erase source).put target (.directory files)))
    (kept : (restoring = true → ∀ files, world.files? source = some files →
      vacant (world.sources.lookup target) = false) → post none world.disturb) :
    Meets during post failed (attempt (.rename source target restoring)) world := by
  refine Program.meets_attempt trivial first ?_
  intro choice careful
  show post (effect world (.rename source target restoring) choice).2
    (effect world (.rename source target restoring) choice).1
  rcases effect_rename careful with ⟨files, found, _, renamed⟩ | ⟨refused, otherwise⟩
  · rw [renamed]
    exact moved files found
  · rw [refused]
    exact kept otherwise

/-- What a staged package becomes when its directory takes its place. -/
theorem Staged.placed {free : World parse} (staged : Staged package base stage world)
    (others : ∀ name, Fixed base name → name ≠ package.manifest.name →
      free.sources.lookup name = world.sources.lookup name) :
    Placed package base
      ((free.erase stage).put package.manifest.name (.directory package.contents)) := by
  refine ⟨?_, Finmap.lookup_insert _, staged.complete⟩
  intro name fixed different
  have other : name ≠ stage := by
    rintro rfl
    exact staged.temporary fixed
  calc
    _ = (free.erase stage).sources.lookup name := Finmap.lookup_insert_of_ne _ different
    _ = free.sources.lookup name := Finmap.lookup_erase_ne other
    _ = world.sources.lookup name := others name fixed different
    _ = base.sources.lookup name := staged.same.sources name fixed

theorem meets_register {installed : Installed}
    (first : during world) (registered : post () (world.register id (some installed))) :
    Meets during post failed (ask (.insert id installed) error) world := by
  refine Program.meets_ask trivial first ?_ ?_
  · intro choice _ _ _
    cases choice <;> exact registered
  · intro choice _ refused
    cases choice <;> cases refused

theorem meets_unload (first : during world) (unloaded : post () (world.register id none)) :
    Meets during post failed (ask (.unload id) error) world := by
  refine Program.meets_ask trivial first ?_ ?_
  · intro choice _ _ _
    cases choice <;> exact unloaded
  · intro choice _ refused
    cases choice <;> cases refused

theorem meets_insert {enabled : Bool} {kept : Option Failure} (first : during world)
    (placed : Placed package base world) (entries : world.entries = base.entries)
    (whole : kept ≠ some .removal) :
    Meets during (fun _ => Activated package base) failed (ask (.insert package.manifest.name
        ⟨package.manifest, package.manifest.name, enabled, kept⟩) error) world := by
  apply meets_register first
  refine ⟨⟨placed.others, placed.active, placed.complete⟩, enabled, kept, whole, ?_⟩
  simp only [World.register, entries]

theorem Staged.files (staged : Staged package base stage world) :
    world.files? stage = some package.contents := by
  unfold World.files?
  rw [staged.there]

theorem meets_attempt_start {post : Option Unit → World parse → Prop} (first : during world)
    (starts : post (some ()) world) (fails : post none world.disturb) :
    Meets during post failed (attempt (.start source)) world := by
  refine Program.meets_attempt trivial first ?_
  intro choice _
  cases choice with
  | succeeded => exact starts
  | failed | suffix _ | names _ | partly _ | removed _ => exact fails

theorem meets_setEnabled {enabled : Bool} {post : Option Unit → World parse → Prop}
    (first : during world) (either : ∀ saved (next : World parse), next.sources = world.sources →
      next.entries = world.entries → post saved next) :
    Meets during post failed (attempt (.setEnabled id enabled)) world := by
  refine Program.meets_attempt trivial first ?_
  intro choice _
  cases choice <;> exact either _ _ rfl rfl

theorem Placed.of_sources {next : World parse} (placed : Placed package base world)
    (same : next.sources = world.sources) : Placed package base next := by
  refine ⟨?_, ?_, placed.complete⟩
  · intro name fixed different
    rw [same]
    exact placed.others name fixed different
  · rw [same]
    exact placed.active

theorem meets_installStaged (staged : Staged package base stage world) :
    Meets (Touches package base) (fun _ => Activated package base) (fun _ => Same base)
      (installStaged package stage) world := by
  have rest : ∀ (started : Option Unit) next, Staged package base stage next →
      Meets (Touches package base) (fun _ => Activated package base) (fun _ => Same base) (do
          check
          ask (.rename stage package.manifest.name false) .activate
          let saved ← attempt (.setEnabled package.manifest.name started.isSome)
          let error : Option Failure :=
            if saved.isNone then some .persist else if started.isNone then some .start else none
          ask (.insert package.manifest.name
            ⟨package.manifest, package.manifest.name, error.isNone, error⟩) .notFound
          pure package.manifest.name) next := by
    intro started next staged
    apply Program.Meets.bind
    apply meets_check staged.same.touches _ staged.same.disturb
    apply Program.Meets.bind
    apply meets_rename staged.same.touches _ staged.same.disturb
    intro files found
    have same : files = package.contents := Option.some.inj (found.symm.trans staged.files)
    subst same
    have placed := staged.placed fun _ _ _ => rfl
    apply Program.Meets.bind
    apply meets_setEnabled placed.touches
    intro saved later sources entries
    have still := placed.of_sources sources
    have whole : (if saved.isNone then some Failure.persist
        else if started.isNone then some .start else none) ≠ some .removal := by
      split <;> (try split) <;> decide
    exact (meets_insert still.touches still (entries.trans staged.same.entries) whole).andThen
      fun _ _ activated => activated
  apply Program.Meets.bind
  exact meets_attempt_start staged.same.touches (rest _ _ staged)
    (rest _ _ ⟨staged.same.disturb, staged.temporary, staged.there, staged.complete⟩)

theorem meets_installPackage (same : Same base world) :
    Meets (Touches package base) (fun _ => Activated package base) (fun _ => Same base)
      (installPackage package) world := by
  have rest : ∀ next, Same base next → Meets (Touches package base)
      (fun _ => Activated package base) (fun _ => Same base)
      (do
        let stage ← stage package "install"
        discarding stage (installStaged package stage)) next := by
    intro next same
    apply (meets_stage (fun _ same => same.touches) same).andThen
    intro stage last staged
    exact meets_discarding (meets_installStaged staged)
      (fun _ => Activated.ignores staged.temporary) (fun _ => Same.ignores staged.temporary)
      (fun _ _ activated => activated.toPlaced.touches) (fun _ _ same => same.touches)
  apply Program.Meets.bind
  refine Program.meets_attempt trivial same.touches ?_
  intro choice _
  cases choice with
  | succeeded =>
    simp only [effect]
    split
    next => exact same
    next => exact rest world same
  | failed | suffix _ | names _ | partly _ | removed _ => exact rest _ same.disturb

/-- The directories of an upgrade, before the first renaming. -/
structure Prepared (package : Package parse) (base : World parse) (stage backup : Name)
    (world : World parse) : Prop where
  staged : Staged package base stage world
  temporary : ¬ Fixed base backup
  other : backup ≠ stage
  free : world.sources.lookup backup = none

theorem meets_prepareBackup (staged : Staged package base stage world) :
    Meets (Touches package base) (fun backup => Prepared package base stage backup)
      (fun _ => Same base) (prepareBackup id) world := by
  apply Program.Meets.bind
  apply meets_check staged.same.touches _ staged.same.disturb
  apply Program.Meets.andThen ((meets_tempdir staged.same.touches staged.same).mono
    (fun _ held => held) (fun _ _ held => held) _)
  rotate_left
  · rintro _ next rfl
    exact staged.same.disturb
  rintro backup next ⟨temporary, nowhere, rfl⟩
  have other : backup ≠ stage := by
    rintro rfl
    rw [staged.there] at nowhere
    cases nowhere
  have still : Staged package base stage (world.put backup (.directory ∅)) :=
    (Staged.ignores temporary other).put world _ staged
  have made : (world.put backup (.directory ∅)).files? backup = some ∅ := by
    simp only [World.files?, World.put, Finmap.lookup_insert]
  have refused : ∀ later, Staged package base stage later →
      Meets (Touches package base) (fun backup => Prepared package base stage backup)
        (fun _ => Same base) (do
          discard backup
          .fails .backup) later := by
    intro later staged
    exact (meets_discard (Same.ignores temporary) staged.same.touches staged.same).andThen
      fun _ _ held => held
  apply Program.Meets.bind
  refine Program.meets_attempt trivial still.same.touches ?_
  intro choice _
  cases choice with
  | succeeded =>
    simp only [effect, made, if_true]
    exact ⟨(Staged.ignores temporary other).erase _ still, temporary, other,
      Finmap.lookup_erase _ _⟩
  | failed | suffix _ | names _ | partly _ | removed _ =>
    exact refused _ ((Staged.ignores temporary other).disturb _ still)

variable {existing : Installed}

/-- The previous directory is under another name, and nothing under its own. -/
theorem Prepared.away {files : Files} (prepared : Prepared package base stage backup world)
    (registered : base.entries package.manifest.name = some existing) :
    Touches package base ((world.erase package.manifest.name).put backup (.directory files)) := by
  have other : package.manifest.name ≠ backup := by
    intro same
    exact prepared.temporary (same ▸ package.fixed base)
  refine ⟨?_, .inr (.inr ⟨?_, ?_⟩)⟩
  · intro name fixed different
    have elsewhere : name ≠ backup := by
      rintro rfl
      exact prepared.temporary fixed
    calc
      _ = (world.erase package.manifest.name).sources.lookup name :=
          Finmap.lookup_insert_of_ne _ elsewhere
      _ = world.sources.lookup name := Finmap.lookup_erase_ne different
      _ = base.sources.lookup name := prepared.staged.same.sources name fixed
  · exact (Finmap.lookup_insert_of_ne _ other).trans (Finmap.lookup_erase _ _)
  · show (world.entries package.manifest.name).isSome = true
    rw [prepared.staged.same.entries, registered]
    rfl

theorem Prepared.restored {files : Files} (prepared : Prepared package base stage backup world)
    (old : world.sources.lookup package.manifest.name = some (.directory files)) :
    Same base ((((world.erase package.manifest.name).put backup
      (.directory files)).disturb.erase backup).put package.manifest.name (.directory files)) := by
  refine ⟨prepared.staged.same.entries, prepared.staged.same.persisted, ?_⟩
  intro name fixed
  have elsewhere : name ≠ backup := by
    rintro rfl
    exact prepared.temporary fixed
  rw [← prepared.staged.same.sources name fixed]
  by_cases target : name = package.manifest.name
  · subst target
    exact (Finmap.lookup_insert _).trans old.symm
  · simp only [World.put, World.erase, World.disturb]
    rw [Finmap.lookup_insert_of_ne _ target, Finmap.lookup_erase_ne elsewhere,
      Finmap.lookup_insert_of_ne _ elsewhere, Finmap.lookup_erase_ne target]

theorem lookup_of_files {files : Files} (found : world.files? name = some files) :
    world.sources.lookup name = some (.directory files) := by
  unfold World.files? at found
  split at found
  next there =>
    cases found
    exact there
  next => cases found
  next => cases found
  next => cases found

theorem Touches.disturb (touches : Touches package base world) :
    Touches package base world.disturb := ⟨touches.others, touches.target⟩

theorem meets_exchange (registered : base.entries package.manifest.name = some existing)
    (named : existing.manifest.name = package.manifest.name)
    (prepared : Prepared package base stage backup world) :
    Meets (Touches package base) (fun _ => Activated package base) (fun _ => Same base)
      (exchange package existing stage backup) world := by
  have first : Touches package base world := prepared.staged.same.touches
  have ended : ∀ (error : ManagerError) next, Same base next →
      Meets (Touches package base) (fun _ => Activated package base) (fun _ => Same base) (do
          discard backup
          .fails error : Action parse Name) next := by
    intro error next same
    exact (meets_discard (Same.ignores prepared.temporary) same.touches same).andThen
      fun _ _ held => held
  unfold exchange
  rw [named]
  apply Program.Meets.bind
  apply meets_attemptRename first
  · intro files found
    have old := lookup_of_files found
    have away : Touches package base
        ((world.erase package.manifest.name).put backup (.directory files)) :=
      prepared.away registered
    have free : ((world.erase package.manifest.name).put backup
        (.directory files)).disturb.sources.lookup package.manifest.name = none := by
      have other : package.manifest.name ≠ backup := by
        intro same
        exact prepared.temporary (same ▸ package.fixed base)
      exact (Finmap.lookup_insert_of_ne _ other).trans (Finmap.lookup_erase _ _)
    apply Program.Meets.bind
    apply meets_attemptRename away
    · intro contents there
      have others : ∀ name, Fixed base name → name ≠ package.manifest.name →
          ((world.erase package.manifest.name).put backup (.directory files)).sources.lookup
            name = world.sources.lookup name := by
        intro name fixed different
        have elsewhere : name ≠ backup := by
          rintro rfl
          exact prepared.temporary fixed
        exact (Finmap.lookup_insert_of_ne _ elsewhere).trans (Finmap.lookup_erase_ne different)
      have placed := prepared.staged.placed others
      have staged : ((world.erase package.manifest.name).put backup
          (.directory files)).sources.lookup stage = some (.directory package.contents) := by
        have target : stage ≠ package.manifest.name := by
          intro same
          exact prepared.staged.temporary (same ▸ package.fixed base)
        exact (Finmap.lookup_insert_of_ne _ prepared.other.symm).trans
          ((Finmap.lookup_erase_ne target).trans prepared.staged.there)
      have all : contents = package.contents := by
        have both := (lookup_of_files there).symm.trans staged
        cases both
        rfl
      subst all
      refine Program.Meets.andThen
        (meets_insert placed.touches placed prepared.staged.same.entries (by decide)) ?_
      intro _ later activated
      exact (meets_discard (Activated.ignores prepared.temporary) activated.toPlaced.touches
        activated).andThen fun _ _ held => held
    · intro _
      apply Program.Meets.bind
      apply meets_attemptRename away.disturb
      · intro again there
        have same : again = files := by
          have kept : ((world.erase package.manifest.name).put backup
              (.directory files)).disturb.sources.lookup backup = some (.directory files) :=
            Finmap.lookup_insert _
          have both := (lookup_of_files there).symm.trans kept
          cases both
          rfl
        subst same
        exact ended .activate _ (prepared.restored old)
      · intro otherwise
        have kept : ((world.erase package.manifest.name).put backup
            (.directory files)).disturb.files? backup = some files := by
          simp only [World.files?, World.disturb, World.put, Finmap.lookup_insert]
        have taken := otherwise rfl files kept
        rw [free] at taken
        cases taken
  · intro _
    exact ended .preserve _ prepared.staged.same.disturb

/-- An upgrade puts all of a package in its place, or nothing has happened. -/
theorem meets_upgradePackage (registered : base.entries package.manifest.name = some existing)
    (named : existing.manifest.name = package.manifest.name) (same : Same base world) :
    Meets (Touches package base) (fun _ => Activated package base) (fun _ => Same base)
      (upgradePackage package existing) world := by
  unfold upgradePackage
  split
  next => exact same
  next => exact same
  next =>
    apply (meets_stage (fun _ same => same.touches) same).andThen
    intro stage last staged
    refine meets_discarding ?_ (fun _ => Activated.ignores staged.temporary)
      (fun _ => Same.ignores staged.temporary) (fun _ _ activated => activated.toPlaced.touches)
      (fun _ _ same => same.touches)
    apply Program.Meets.bind
    refine Program.meets_ask trivial staged.same.touches ?_ ?_
    · intro choice _ _ answers
      cases choice with
      | succeeded =>
        exact (meets_prepareBackup staged).andThen
          fun backup later prepared => meets_exchange registered named prepared
      | failed | suffix _ | names _ | partly _ | removed _ => cases answers
    · intro choice _ refused
      cases choice with
      | succeeded => cases refused
      | failed | suffix _ | names _ | partly _ | removed _ => exact staged.same.disturb

theorem meets_entry {post : Option Installed → World parse → Prop} (first : during world)
    (found : post (world.entries id) world) : Meets during post failed (entry id) world := by
  refine Program.meets_ask trivial first ?_ ?_
  · intro choice answer _ answers
    have same : answer = world.entries id := by
      cases choice <;> exact (Option.some.inj answers).symm
    subst same
    cases choice <;> exact found
  · intro choice _ refused
    cases choice <;> cases refused

/-- The registry is by the names of its extensions. -/
def Named (world : World parse) : Prop :=
  ∀ id installed, world.entries id = some installed → installed.manifest.name = id

/-- A package is in its place and registered, or nothing has happened. -/
theorem meets_installOrUpgrade (named : Named base) (same : Same base world) :
    Meets (Touches package base) (fun _ => Activated package base) (fun _ => Same base)
      (installOrUpgrade package) world := by
  apply Program.Meets.bind
  apply meets_entry same.touches
  cases found : world.entries package.manifest.name with
  | none => exact meets_installPackage same
  | some existing =>
    have registered : base.entries package.manifest.name = some existing := by
      rw [← same.entries]
      exact found
    dsimp only
    split
    next => exact meets_upgradePackage registered (named _ _ registered) same
    next => exact same
    next => exact same

end Exchange

end LosslessMusic.Extensions.Sources
