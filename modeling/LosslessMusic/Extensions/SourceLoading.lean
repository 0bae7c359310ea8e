import LosslessMusic.Extensions.SourceSafety

/-!
# Loading and removing extensions

Loading goes through the source directory and registers what is complete. It leaves the
directory as it is, but for what the packages in it bring. A removal that fails leaves a
disabled entry, whatever is left of the directory.
-/

namespace LosslessMusic.Extensions.Sources

open Interruption
open Store (Bytes bytesOf)

variable {parse : Parser} {during : World parse → Prop} {world : World parse}

/-! ## Requests that change no files -/

/-- Requests that leave the directory and the registry. -/
def Request.quiet : Request → Bool
  | .check | .list | .fileType _ | .openArchive _ | .found _ | .exists_ _ _ | .read _ _
  | .start _ | .settings _ | .setEnabled _ _ | .removeData _ | .entry _ => true
  | .tempdir _ | .extract _ _ _ | .removeEmpty _ | .rename _ _ _ | .remove _ | .insert _ _
  | .unload _ => false

/-- The directory and the registry are the same. -/
structure Quiet (world next : World parse) : Prop where
  sources : next.sources = world.sources
  entries : next.entries = world.entries

theorem Quiet.trans {next last : World parse} (first : Quiet world next)
    (second : Quiet next last) : Quiet world last :=
  ⟨second.sources.trans first.sources, second.entries.trans first.entries⟩

theorem Quiet.files {next : World parse} (quiet : Quiet world next) (name : Name) :
    next.files? name = world.files? name := by
  unfold World.files?
  rw [quiet.sources]

theorem Quiet.file {next : World parse} (quiet : Quiet world next) (name path : Name) :
    next.file? name path = world.file? name path := by
  unfold World.file?
  rw [quiet.files]

variable {asked : Request}

/-- What a quiet request does: its failure is remembered. -/
theorem effect_quiet (quiet : asked.quiet = true) (choice : Choice) :
    Quiet world (effect world asked choice).1 ∧
      ((effect world asked choice).2 = none → (effect world asked choice).1.disturbed = true) := by
  cases asked with
  | check | found _ | exists_ _ _ | fileType _ | start _ | settings _ | setEnabled _ _
  | removeData _ | entry _ =>
    cases choice <;> exact ⟨⟨rfl, rfl⟩, fun none => by first | rfl | cases none⟩
  | list =>
    cases choice with
    | names names =>
      simp only [effect]
      split
      · exact ⟨⟨rfl, rfl⟩, fun none => by cases none⟩
      · exact ⟨⟨rfl, rfl⟩, fun _ => rfl⟩
    | failed | succeeded | suffix _ | partly _ | removed _ => exact ⟨⟨rfl, rfl⟩, fun _ => rfl⟩
  | openArchive name =>
    cases choice with
    | succeeded =>
      simp only [effect]
      split <;> exact ⟨⟨rfl, rfl⟩, fun none => by cases none⟩
    | failed | names _ | suffix _ | partly _ | removed _ => exact ⟨⟨rfl, rfl⟩, fun _ => rfl⟩
  | read name path =>
    cases choice with
    | succeeded =>
      simp only [effect]
      split
      · exact ⟨⟨rfl, rfl⟩, fun none => by cases none⟩
      · exact ⟨⟨rfl, rfl⟩, fun _ => rfl⟩
    | failed | names _ | suffix _ | partly _ | removed _ => exact ⟨⟨rfl, rfl⟩, fun _ => rfl⟩
  | tempdir _ | extract _ _ _ | removeEmpty _ | rename _ _ _ | remove _ | insert _ _
  | unload _ => cases quiet

variable {failed : ManagerError → World parse → Prop}

theorem meets_quiet {error : ManagerError} {post : asked.Answer parse → World parse → Prop}
    (quiet : asked.quiet = true) (first : during world)
    (answers : ∀ choice answer next, Quiet world next →
      effect world asked choice = (next, some answer) → post answer next)
    (refuses : ∀ next, Quiet world next → next.disturbed = true → failed error next) :
    Meets during post failed (ask asked error) world := by
  refine Program.meets_ask trivial first ?_ ?_
  · intro choice answer _ answered
    exact answers choice answer _ (effect_quiet quiet choice).1 (Prod.ext rfl answered)
  · intro choice _ refused
    exact refuses _ (effect_quiet quiet choice).1 ((effect_quiet quiet choice).2 refused)

theorem meets_attempt_quiet {post : Option (asked.Answer parse) → World parse → Prop}
    (quiet : asked.quiet = true) (first : during world)
    (answers : ∀ choice answer next, Quiet world next →
      effect world asked choice = (next, some answer) → post (some answer) next)
    (refuses : ∀ next, Quiet world next → next.disturbed = true → post none next) :
    Meets during post failed (attempt asked) world := by
  refine Program.meets_attempt trivial first ?_
  intro choice _
  show post (effect world asked choice).2 (effect world asked choice).1
  cases outcome : (effect world asked choice).2 with
  | some answer =>
    exact answers choice answer _ (effect_quiet quiet choice).1 (Prod.ext rfl outcome)
  | none => exact refuses _ (effect_quiet quiet choice).1 ((effect_quiet quiet choice).2 outcome)

/-! ## Loading -/

/-- What the registry says of the directory: its entries are under their names, and have
their directories with their versions. What a failed removal has left is disabled. -/
structure Registered (world : World parse) (id : Name) (installed : Installed) : Prop where
  named : installed.manifest.name = id
  source : installed.source = id
  left : installed.error = some .removal → installed.enabled = false
  intact : installed.error ≠ some .removal → ∃ files,
    world.sources.lookup id = some (.directory files) ∧ Complete parse installed.manifest files

/-- Every entry of the registry is right about the directory. -/
def Sound (world : World parse) : Prop :=
  ∀ id installed, world.entries id = some installed → Registered world id installed

/-- An extension that can be loaded. -/
def Loadable (world : World parse) (id : Name) : Prop :=
  ∃ files manifest, world.sources.lookup id = some (.directory files) ∧
    Complete parse manifest files ∧ manifest.name = id

/-- A name leads to what it led to, or to all of a package that is offered. -/
def Current (offered : Package parse → Prop) (before world : World parse) (name : Name) :
    Prop :=
  world.sources.lookup name = before.sources.lookup name ∨
    ∃ package, offered package ∧ package.manifest.name = name ∧
      world.sources.lookup name = some (.directory package.contents) ∧
      Complete parse package.manifest package.contents

/-- The packages in the source directory. -/
def Offered (before : World parse) (package : Package parse) : Prop :=
  ∃ name, before.sources.lookup name = some (.archive (some package))

/-- The state between two entries of a directory that is loaded. -/
structure Loading (before world : World parse) : Prop where
  current : ∀ name, Fixed before name → Current (Offered before) before world name
  sound : Sound world
  pending : ∀ id, Store.validExtensionId id = true → world.entries id = none →
    world.sources.lookup id = before.sources.lookup id

section Loading

variable {before base next : World parse} {package : Package parse}

theorem Sound.named (sound : Sound world) : Named world :=
  fun id installed found => (sound id installed found).named

theorem Sound.valid (sound : Sound world) {id : Name} {installed : Installed}
    (found : world.entries id = some installed) : Store.validExtensionId id = true := by
  rw [← (sound id installed found).named]
  exact installed.manifest.valid

theorem Same.sound (same : Same base world) (sound : Sound base) : Sound world := by
  intro id installed found
  rw [same.entries] at found
  have registered := sound id installed found
  refine ⟨registered.named, registered.source, registered.left, ?_⟩
  intro whole
  rw [same.sources id (.inl (sound.valid found))]
  exact registered.intact whole

theorem Activated.sound (activated : Activated package base world) (sound : Sound base) :
    Sound world := by
  obtain ⟨enabled, error, whole, entries⟩ := activated.entry
  intro id installed found
  rw [entries] at found
  by_cases same : id = package.manifest.name
  · subst same
    rw [Function.update_self] at found
    cases found
    exact ⟨rfl, rfl, fun removal => absurd removal whole,
      fun _ => ⟨_, activated.active, activated.complete⟩⟩
  · rw [Function.update_of_ne same] at found
    have registered := sound id installed found
    refine ⟨registered.named, registered.source, registered.left, ?_⟩
    intro whole
    rw [activated.others id (.inl (sound.valid found)) same]
    exact registered.intact whole

variable {name : Name}

theorem Loading.fixed (loading : Loading before world)
    (fixed : Fixed before name) : Fixed world name := by
  rcases fixed with valid | there
  · exact .inl valid
  · rcases loading.current name (.inr there) with same | ⟨package, _, _, active, _⟩
    · exact .inr (same ▸ there)
    · exact .inr (by rw [active]; rfl)

theorem Same.loading (same : Same base world) (loading : Loading before base) :
    Loading before world := by
  refine ⟨?_, same.sound loading.sound, ?_⟩
  · intro name fixed
    unfold Current
    rw [same.sources name (loading.fixed fixed)]
    exact loading.current name fixed
  · intro id valid absent
    rw [same.entries] at absent
    rw [same.sources id (.inl valid)]
    exact loading.pending id valid absent

theorem Activated.loading (activated : Activated package base world)
    (loading : Loading before base) (offered : Offered before package) : Loading before world := by
  refine ⟨?_, activated.sound loading.sound, ?_⟩
  · intro name fixed
    by_cases same : name = package.manifest.name
    · subst same
      exact .inr ⟨package, offered, rfl, activated.active, activated.complete⟩
    · unfold Current
      rw [activated.others name (loading.fixed fixed) same]
      exact loading.current name fixed
  · obtain ⟨enabled, error, _, entries⟩ := activated.entry
    intro id valid absent
    rw [entries] at absent
    by_cases same : id = package.manifest.name
    · subst same
      rw [Function.update_self] at absent
      cases absent
    · rw [Function.update_of_ne same] at absent
      rw [activated.others id (.inl valid) same]
      exact loading.pending id valid absent

theorem Quiet.sound (quiet : Quiet base world) (sound : Sound base) : Sound world := by
  intro id installed found
  rw [quiet.entries] at found
  have registered := sound id installed found
  refine ⟨registered.named, registered.source, registered.left, ?_⟩
  rw [quiet.sources]
  exact registered.intact

theorem Quiet.loading (quiet : Quiet base world) (loading : Loading before base) :
    Loading before world := by
  refine ⟨?_, quiet.sound loading.sound, ?_⟩
  · unfold Current
    rw [quiet.sources]
    exact loading.current
  · rw [quiet.entries, quiet.sources]
    exact loading.pending

/-- The source directory during an operation: what a name led to, or all of a package, or
nothing while an extension is exchanged. -/
def Between (offered : Package parse → Prop) (before world : World parse) : Prop :=
  ∀ name, Fixed before name → Current offered before world name ∨
    (world.sources.lookup name = none ∧ (world.entries name).isSome = true)

theorem Loading.between (loading : Loading before world) : Between (Offered before) before world :=
  fun name fixed => .inl (loading.current name fixed)

theorem Touches.between {offered : Package parse → Prop} (touches : Touches package base world)
    (current : ∀ name, Fixed before name → Current offered before base name)
    (still : ∀ name, Fixed before name → Fixed base name) (own : offered package) :
    Between offered before world := by
  intro name fixed
  by_cases same : name = package.manifest.name
  · subst same
    rcases touches.target with target | ⟨active, complete⟩ | away
    · unfold Current
      rw [target]
      exact .inl (current _ fixed)
    · exact .inl (.inr ⟨package, own, rfl, active, complete⟩)
    · exact .inr away
  · unfold Current
    rw [touches.others name (still name fixed) same]
    exact .inl (current name fixed)

/-- What an entry of the directory has done. -/
structure After (before start : World parse) (name : Name) (next : World parse) : Prop where
  loading : Loading before next
  kept : ∀ id, (start.entries id).isSome = true → (next.entries id).isSome = true
  loaded : Loadable before name → next.disturbed = true ∨ (next.entries name).isSome = true

/-- Nothing has changed; what can be loaded was loaded before, or a request has failed. -/
theorem Quiet.after (quiet : Quiet world next) (loading : Loading before world)
    (already : Loadable before name →
      next.disturbed = true ∨ (world.entries name).isSome = true) :
    After before world name next := by
  refine ⟨quiet.loading loading, ?_, ?_⟩
  · intro id registered
    rw [quiet.entries]
    exact registered
  · intro loadable
    rw [quiet.entries]
    exact already loadable

theorem Quiet.earlier {last : World parse} (quiet : Quiet world next)
    (after : After before next name last) : After before world name last := by
  refine ⟨after.loading, ?_, after.loaded⟩
  intro id registered
  apply after.kept
  rw [quiet.entries]
  exact registered

theorem meets_loadChecked {manifest : Manifest} {files : Files} (loading : Loading before world)
    (there : world.sources.lookup manifest.name = some (.directory files))
    (complete : Complete parse manifest files) :
    Meets (Between (Offered before) before)
      (fun _ => After before world manifest.name) (fun _ => After before world manifest.name)
      (loadChecked manifest) world := by
  have rest : ∀ (enabled : Bool) (error : Option Failure) next, error ≠ some .removal →
      Quiet world next → Meets (Between (Offered before) before)
        (fun _ => After before world manifest.name) (fun _ => After before world manifest.name)
        (do
          check
          ask (.insert manifest.name ⟨manifest, manifest.name, enabled, error⟩) .notFound
          pure manifest.name) next := by
    intro enabled error next whole quiet
    apply Program.Meets.bind
    refine meets_check (quiet.loading loading).between ?_ ?_
    · apply Program.Meets.bind
      refine Program.meets_ask trivial (quiet.loading loading).between ?_
        (fun choice _ refused => by cases choice <;> cases refused)
      intro choice _ _ _
      have inserted : After before world manifest.name
          (next.register manifest.name (some ⟨manifest, manifest.name, enabled, error⟩)) := by
        have still := quiet.loading loading
        have here : next.sources.lookup manifest.name = some (.directory files) := by
          rw [quiet.sources]
          exact there
        refine ⟨⟨still.current, ?_, ?_⟩, ?_, fun _ => .inr ?_⟩
        · intro id installed found
          by_cases same : id = manifest.name
          · subst same
            rw [World.entries_register_self] at found
            cases found
            exact ⟨rfl, rfl, fun removal => absurd removal whole, fun _ => ⟨files, here, complete⟩⟩
          · rw [World.entries_register_of_ne _ same] at found
            have registered := still.sound id installed found
            exact ⟨registered.named, registered.source, registered.left, registered.intact⟩
        · intro id valid absent
          by_cases same : id = manifest.name
          · subst same
            rw [World.entries_register_self] at absent
            cases absent
          · rw [World.entries_register_of_ne _ same] at absent
            exact still.pending id valid absent
        · intro id registered
          by_cases same : id = manifest.name
          · subst same
            rw [World.entries_register_self]
            rfl
          · rw [World.entries_register_of_ne _ same, quiet.entries]
            exact registered
        · rw [World.entries_register_self]
          rfl
      cases choice <;> exact inserted
    · exact Quiet.after ⟨quiet.sources, quiet.entries⟩ loading fun _ => .inl rfl
  have started : ∀ (settings : Option (Option Bool)) next, Quiet world next →
      Meets (Between (Offered before) before)
        (fun _ => After before world manifest.name) (fun _ => After before world manifest.name)
        (do
          let started ← attempt (.start manifest.name)
          let error : Option Failure := if started.isSome then none else some .start
          check
          ask (.insert manifest.name ⟨manifest, manifest.name,
            settings = some (some true) && error.isNone, error⟩) .notFound
          pure manifest.name) next := by
    intro settings next quiet
    apply Program.Meets.bind
    exact meets_attempt_quiet rfl (quiet.loading loading).between
      (fun _ _ last later _ => rest _ _ last (by split <;> decide) (quiet.trans later))
      (fun last later _ => rest _ _ last (by split <;> decide) (quiet.trans later))
  apply Program.Meets.bind
  refine meets_attempt_quiet rfl loading.between ?_ ?_
  · intro _ answer next quiet _
    exact started (some answer) next quiet
  · intro next quiet _
    exact rest _ _ next (by decide) quiet

theorem files_of_lookup {files : Files}
    (there : world.sources.lookup name = some (.directory files)) :
    world.files? name = some files := by
  unfold World.files?
  rw [there]

theorem Loading.expected (loading : Loading before world) (loadable : Loadable before name) :
    (world.entries name).isSome = true ∨ ∃ files manifest,
      world.files? name = some files ∧ Complete parse manifest files ∧ manifest.name = name := by
  obtain ⟨files, manifest, there, complete, named⟩ := loadable
  cases registered : world.entries name with
  | some installed => exact .inl rfl
  | none =>
    have same := loading.pending name (named ▸ manifest.valid) registered
    exact .inr ⟨files, manifest, files_of_lookup (same.trans there), complete, named⟩

theorem meets_loadDirectory (name : Name) (loading : Loading before world) :
    Meets (Between (Offered before) before)
      (fun _ => After before world name) (fun _ => After before world name)
      (loadDirectory name) world := by
  have failing : ∀ next, Quiet world next → next.disturbed = true →
      After before world name next :=
    fun next quiet disturbed => quiet.after loading fun _ => .inl disturbed
  -- What is no complete directory is no loss.
  have ending : ∀ next, Quiet world next →
      (∀ files manifest, world.files? name = some files → Complete parse manifest files →
        manifest.name = name → (world.entries name).isSome = true) →
      After before world name next := by
    intro next quiet otherwise
    refine quiet.after loading fun loadable => .inr ?_
    rcases loading.expected loadable with registered | ⟨files, manifest, there, complete, named⟩
    · exact registered
    · exact otherwise files manifest there complete named
  apply Program.Meets.bind
  refine meets_quiet rfl loading.between ?_ failing
  intro choice text next quiet answered
  have found : world.file? name manifestPath = some text := by
    cases choice with
    | succeeded =>
      simp only [effect] at answered
      split at answered
      next data there =>
        cases answered
        exact there
      next => cases answered
    | failed | suffix _ | names _ | partly _ | removed _ => cases answered
  have described : ∀ {files : Files} {manifest : Manifest}, world.files? name = some files →
      Complete parse manifest files → parse text = some manifest := by
    intro files manifest there complete
    obtain ⟨other, found', parsed⟩ := complete.described
    unfold World.file? at found
    rw [there, Option.bind_some, found'] at found
    cases found
    exact parsed
  cases parsed : parse text with
  | none =>
    apply ending next quiet
    intro files manifest there complete _
    rw [described there complete] at parsed
    cases parsed
  | some manifest =>
    apply Program.Meets.bind
    refine meets_attempt_quiet rfl (quiet.loading loading).between ?_ ?_
    · intro choice index later quieter answered
      have together := quiet.trans quieter
      have same : index = (world.file? name indexPath).isSome := by
        cases choice with
        | succeeded =>
          simp only [effect, Prod.mk.injEq, Option.some.injEq] at answered
          rw [← answered.2, quiet.file]
        | failed | suffix _ | names _ | partly _ | removed _ => cases answered
      split
      next indexed =>
        apply Program.Meets.bind
        apply meets_entry (together.loading loading).between
        cases registered : later.entries manifest.name with
        | some installed =>
          apply ending later together
          intro files other there complete named
          have both := (described there complete).symm.trans parsed
          cases both
          rw [← named, ← together.entries, registered]
          rfl
        | none =>
          dsimp only
          split
          next named =>
            subst named
            have present : (world.file? manifest.name indexPath).isSome = true := by
              rw [← same]
              exact Option.some.inj indexed
            cases there : world.files? manifest.name with
            | none =>
              unfold World.file? at found
              rw [there] at found
              cases found
            | some files =>
              have complete : Complete parse manifest files := by
                unfold World.file? at found present
                rw [there, Option.bind_some] at found present
                exact ⟨⟨text, found, parsed⟩, present⟩
              have here := lookup_of_files ((together.files manifest.name).trans there)
              have registers := meets_loadChecked (together.loading loading) here complete
              exact registers.mono (fun _ held => held) (fun _ _ => together.earlier)
                (fun _ _ => together.earlier)
          next unnamed =>
            apply ending later together
            intro files other there complete named
            have both := (described there complete).symm.trans parsed
            cases both
            exact absurd named.symm unnamed
      next missing =>
        apply ending later together
        intro files other there complete _
        have present : (world.file? name indexPath).isSome = true := by
          unfold World.file?
          rw [there, Option.bind_some]
          exact complete.indexed
        rw [← same] at present
        exact absurd (congrArg some present) missing
    · intro later quieter disturbed
      exact failing later (quiet.trans quieter) disturbed

theorem meets_loadPackage (loading : Loading before world) (offered : Offered before package)
    (already : Loadable before name → (world.entries name).isSome = true) :
    Meets (Between (Offered before) before)
      (fun _ => After before world name) (fun _ => After before world name)
      (installOrUpgrade package) world := by
  apply (meets_installOrUpgrade loading.sound.named (Same.refl world)).mono
  · intro next touches
    exact touches.between loading.current (fun _ => loading.fixed) offered
  · intro _ next activated
    have kept : ∀ id, (world.entries id).isSome = true → (next.entries id).isSome = true := by
      obtain ⟨enabled, error, _, entries⟩ := activated.entry
      intro id registered
      rw [entries]
      by_cases same : id = package.manifest.name
      · rw [same, Function.update_self]
        rfl
      · rw [Function.update_of_ne same]
        exact registered
    exact ⟨activated.loading loading offered, kept,
      fun loadable => .inr (kept name (already loadable))⟩
  · intro _ next same
    refine ⟨same.loading loading, ?_, fun loadable => .inr ?_⟩
    · intro id registered
      rw [same.entries]
      exact registered
    · rw [same.entries]
      exact already loadable

theorem meets_loadEntry {directory : Bool} (loading : Loading before world)
    (fixed : Fixed before name) (kind : directory = (world.files? name).isSome) :
    Meets (Between (Offered before) before)
      (fun _ => After before world name) (fun _ => After before world name)
      (loadEntry name directory) world := by
  have failing : ∀ next, Quiet world next → next.disturbed = true →
      After before world name next :=
    fun next quiet disturbed => quiet.after loading fun _ => .inl disturbed
  cases directory with
  | true =>
    apply Program.Meets.bind
    refine meets_attempt_quiet rfl loading.between ?_ failing
    intro choice described next quiet answered
    split
    next =>
      have loads := meets_loadDirectory name (quiet.loading loading)
      exact (loads.mono (fun _ held => held) (fun _ _ => quiet.earlier)
        (fun _ _ => quiet.earlier)).andThen fun _ _ after => after
    next missing =>
      refine quiet.after loading fun loadable => .inr ?_
      rcases loading.expected loadable with registered | ⟨files, manifest, there, complete, _⟩
      · exact registered
      · obtain ⟨text, found, _⟩ := complete.described
        have present : (world.file? name manifestPath).isSome = true := by
          unfold World.file?
          rw [there, Option.bind_some, found]
          rfl
        cases choice with
        | succeeded =>
          simp only [effect, Prod.mk.injEq, Option.some.injEq] at answered
          rw [← answered.2, present] at missing
          exact absurd rfl missing
        | failed | suffix _ | names _ | partly _ | removed _ => cases answered
  | false =>
    have already : ∀ next, Quiet world next → Loadable before name →
        (next.entries name).isSome = true := by
      intro next quiet loadable
      rw [quiet.entries]
      rcases loading.expected loadable with registered | ⟨files, _, there, _, _⟩
      · exact registered
      · rw [there] at kind
        cases kind
    have nothing : ∀ next, Quiet world next → After before world name next := by
      intro next quiet
      refine quiet.after loading fun loadable => .inr ?_
      rw [← quiet.entries]
      exact already next quiet loadable
    apply Program.Meets.bind
    refine meets_quiet rfl loading.between ?_ failing
    intro choice answer next quiet answered
    rcases answer with _ | _ | package
    · exact nothing next quiet
    · exact nothing next quiet
    · have there : world.sources.lookup name = some (.archive (some package)) := by
        cases choice with
        | succeeded =>
          simp only [effect] at answered
          split at answered
          next package' found =>
            cases answered
            exact found
          next => cases answered
          next => cases answered
          next => cases answered
        | failed | suffix _ | names _ | partly _ | removed _ => cases answered
      have offered : Offered before package := by
        rcases loading.current name fixed with same | ⟨_, _, _, active, _⟩
        · exact ⟨name, same.symm.trans there⟩
        · rw [there] at active
          cases active
      have installs := meets_loadPackage (quiet.loading loading) offered (already next quiet)
      exact (installs.mono (fun _ held => held) (fun _ _ => quiet.earlier)
        (fun _ _ => quiet.earlier)).andThen fun _ _ after => after

theorem effect_disturbed (asked : Request) (choice : Choice) (disturbed : world.disturbed = true) :
    (effect world asked choice).1.disturbed = true := by
  cases asked <;> cases choice <;> simp only [effect, renamed] <;> (repeat' split) <;>
    first | exact disturbed | rfl

/-- The rest of the directory is loaded. -/
structure Rest (before start : World parse) (next : World parse) : Prop where
  loading : Loading before next
  kept : ∀ id, (start.entries id).isSome = true → (next.entries id).isSome = true

theorem Loading.rest (loading : Loading before world) (quiet : Quiet world next) :
    Rest before world next :=
  ⟨quiet.loading loading, fun _ registered => quiet.entries ▸ registered⟩

theorem meets_loadEach (names : List Name) (fixed : ∀ name ∈ names, Fixed before name)
    (loading : Loading before world) :
    Meets (Between (Offered before) before)
      (fun _ next => Rest before world next ∧ (next.disturbed = true ∨
        ∀ name ∈ names, Loadable before name → (next.entries name).isSome = true))
      (fun _ next => Rest before world next ∧ next.disturbed = true)
      (loadEach names) world := by
  induction names generalizing world with
  | nil =>
    exact ⟨⟨loading, fun _ registered => registered⟩, .inr fun _ member => by cases member⟩
  | cons name names ih =>
    have failing : ∀ next, Quiet world next → next.disturbed = true →
        Rest before world next ∧ next.disturbed = true :=
      fun _ quiet disturbed => ⟨loading.rest quiet, disturbed⟩
    apply Program.Meets.bind
    refine meets_quiet rfl loading.between ?_ failing
    intro _ _ first quiet _
    apply Program.Meets.bind
    refine meets_quiet rfl (quiet.loading loading).between ?_
      (fun next later => failing next (quiet.trans later))
    intro choice directory second later answered
    have together := quiet.trans later
    have kind : directory = (second.files? name).isSome := by
      cases choice with
      | succeeded =>
        simp only [effect, Prod.mk.injEq, Option.some.injEq] at answered
        rw [← answered.2, later.files]
      | failed | suffix _ | names _ | partly _ | removed _ => cases answered
    have rest : ∀ result third, After before second name third →
        Meets (Between (Offered before) before)
          (fun _ next => Rest before world next ∧ (next.disturbed = true ∨
            ∀ id ∈ name :: names, Loadable before id → (next.entries id).isSome = true))
          (fun _ next => Rest before world next ∧ next.disturbed = true)
          (do
            let loads ← loadEach names
            pure (collect name result loads)) third := by
      intro result third after
      have kept : ∀ {last : World parse}, Rest before third last → Rest before world last :=
        fun rest => ⟨rest.loading, fun id registered =>
          rest.kept id (after.kept id ((loading.rest together).kept id registered))⟩
      have loads := (ih
        (fun id member => fixed id (List.mem_cons_of_mem _ member)) after.loading).keeping
          (fun last => third.disturbed = true → last.disturbed = true) id
          (fun last asked choice _ held disturbed =>
            effect_disturbed asked choice (held disturbed))
      apply (loads.mono (fun _ held => held.1) (fun _ _ held => held)
        (fun _ _ held => ⟨kept held.1.1, held.1.2⟩)).andThen
      rintro found last ⟨⟨rest, loaded⟩, disturbed⟩
      refine ⟨kept rest, ?_⟩
      rcases loaded with failed | loaded
      · exact .inl failed
      · by_cases failed : last.disturbed = true
        · exact .inl failed
        · refine .inr ?_
          intro id member loadable
          cases member with
          | head =>
            rcases after.loaded loadable with before | registered
            · exact absurd (disturbed before) failed
            · exact rest.kept name registered
          | tail _ later => exact loaded id later loadable
    have loads := meets_loadEntry (together.loading loading) (fixed name List.mem_cons_self) kind
    apply Program.Meets.handle
    exact loads.mono (fun _ held => held) (fun result => rest (.ok result))
      (fun error => rest (.error error))

theorem meets_loadAll (sound : Sound before) : Meets (Between (Offered before) before)
      (fun _ next => Rest before before next ∧ (next.disturbed = true ∨
        ∀ name, Loadable before name → (next.entries name).isSome = true))
      (fun _ next => Rest before before next ∧ next.disturbed = true)
      loadAll before := by
  have loading : Loading before before := ⟨fun _ _ => .inl rfl, sound, fun _ _ _ => rfl⟩
  have failing : ∀ next, Quiet before next → next.disturbed = true →
      Rest before before next ∧ next.disturbed = true :=
    fun _ quiet disturbed => ⟨loading.rest quiet, disturbed⟩
  apply Program.Meets.bind
  refine meets_quiet rfl loading.between ?_ failing
  intro _ _ first quiet _
  apply Program.Meets.bind
  refine meets_quiet rfl (quiet.loading loading).between ?_
    (fun next later => failing next (quiet.trans later))
  intro choice names second later answered
  have together := quiet.trans later
  have listed : ∀ name, name ∈ names ↔ (before.sources.lookup name).isSome = true := by
    cases choice with
    | names listed =>
      simp only [effect] at answered
      split at answered
      next all =>
        cases answered
        intro name
        rw [← List.mem_toFinset, all.1, Finmap.mem_keys, ← Finmap.lookup_isSome, quiet.sources]
      next => cases answered
    | failed | succeeded | suffix _ | partly _ | removed _ => cases answered
  have loads := meets_loadEach names (fun name member => .inr ((listed name).mp member))
    (together.loading loading)
  have kept : ∀ {last : World parse}, Rest before second last → Rest before before last :=
    fun rest => ⟨rest.loading, fun id registered =>
      rest.kept id ((loading.rest together).kept id registered)⟩
  refine loads.mono (fun _ held => held) ?_ (fun _ _ held => ⟨kept held.1, held.2⟩)
  rintro _ last ⟨rest, loaded⟩
  refine ⟨kept rest, loaded.imp id ?_⟩
  intro loaded name loadable
  have there : (before.sources.lookup name).isSome = true := by
    obtain ⟨files, _, there, _⟩ := loadable
    rw [there]
    rfl
  exact loaded name ((listed name).mpr there) loadable

end Loading

/-! ## Removing -/

section Removing

variable {base next : World parse} {id : Name}

/-- The source directory and the registry, but for one extension. -/
structure Beside (id : Name) (base world : World parse) : Prop where
  others : ∀ name, Fixed base name → name ≠ id →
    world.sources.lookup name = base.sources.lookup name
  entries : ∀ name, name ≠ id → world.entries name = base.entries name

/-- The extension is not in the registry, whatever is left of its directory. -/
structure Unloaded (id : Name) (base world : World parse) : Prop extends Beside id base world where
  unloaded : world.entries id = none

/-- An extension is as it was, or unloaded, or left disabled. -/
structure Removed (id : Name) (base world : World parse) : Prop extends Beside id base world where
  own : (world.entries id = base.entries id ∧
      world.sources.lookup id = base.sources.lookup id) ∨ world.entries id = none ∨
    ∃ installed, base.entries id = some installed ∧
      world.entries id = some { installed with enabled := false, error := some .removal }

theorem Unloaded.removed (unloaded : Unloaded id base world) : Removed id base world :=
  ⟨unloaded.toBeside, .inr (.inl unloaded.unloaded)⟩

theorem Unloaded.ignores : Ignores id (Unloaded id base) where
  put _ _ unloaded := ⟨⟨fun name fixed different =>
      (Finmap.lookup_insert_of_ne _ different).trans (unloaded.others name fixed different),
    unloaded.entries⟩, unloaded.unloaded⟩
  erase _ unloaded := ⟨⟨fun name fixed different =>
      (Finmap.lookup_erase_ne different).trans (unloaded.others name fixed different),
    unloaded.entries⟩, unloaded.unloaded⟩
  disturb _ unloaded := ⟨⟨unloaded.others, unloaded.entries⟩, unloaded.unloaded⟩

theorem Quiet.unloaded (quiet : Quiet world next) (unloaded : Unloaded id base world) :
    Unloaded id base next := by
  refine ⟨⟨?_, ?_⟩, ?_⟩
  · rw [quiet.sources]
    exact unloaded.others
  · rw [quiet.entries]
    exact unloaded.entries
  · rw [quiet.entries]
    exact unloaded.unloaded

theorem Removed.sound (removed : Removed id base world) (sound : Sound base) : Sound world := by
  intro name installed found
  by_cases same : name = id
  · subst same
    rcases removed.own with ⟨entry, source⟩ | none | ⟨old, entry, left⟩
    · rw [entry] at found
      have registered := sound name installed found
      refine ⟨registered.named, registered.source, registered.left, ?_⟩
      rw [source]
      exact registered.intact
    · rw [none] at found
      cases found
    · rw [left] at found
      cases found
      have registered := sound name old entry
      exact ⟨registered.named, registered.source, fun _ => rfl, fun whole => absurd rfl whole⟩
  · rw [removed.entries name same] at found
    have registered := sound name installed found
    refine ⟨registered.named, registered.source, registered.left, ?_⟩
    rw [removed.others name (.inl (sound.valid found)) same]
    exact registered.intact

theorem meets_removeSource (gone : Unloaded id base world) :
    Meets (fun next => Same base next ∨ Removed id base next)
      (fun _ => Unloaded id base) (fun _ next => Same base next ∨ Removed id base next)
      (removeDirectory id) world := by
  apply Program.Meets.bind
  refine meets_attempt_quiet rfl (.inr gone.removed) ?_ ?_
  · intro _ there next quiet _
    have still := quiet.unloaded gone
    cases there with
    | false => exact still
    | true =>
      exact (meets_attemptRemove Unloaded.ignores (.inr still.removed) still).andThen
        fun _ _ gone => gone
  · intro next quiet _
    exact quiet.unloaded gone

theorem meets_remove (sound : Sound base) :
    Meets (fun next => Same base next ∨ Removed id base next)
      (fun _ next => Same base next ∨ Removed id base next)
      (fun _ next => Same base next ∨ Removed id base next) (remove id) base := by
  have same : Same base base := .refl base
  apply Program.Meets.bind
  apply meets_check (.inl same) _ (.inl same.disturb)
  apply Program.Meets.bind
  apply meets_entry (.inl same)
  cases found : base.entries id with
  | none => exact .inl same
  | some installed =>
    have registered := sound id installed found
    dsimp only
    split
    next elsewhere => exact .inl same
    next =>
      rw [registered.source]
      apply Program.Meets.bind
      apply meets_check (.inl same) _ (.inl same.disturb)
      apply Program.Meets.bind
      have gone : Unloaded id base (base.register id none) := by
        refine ⟨⟨fun _ _ _ => rfl, ?_⟩, World.entries_register_self ..⟩
        intro name different
        exact World.entries_register_of_ne _ different _
      apply meets_unload (.inl same)
      apply (meets_removeSource gone).andThen
      intro source next gone
      apply Program.Meets.bind
      have ending : ∀ (data : Option Unit) last, Unloaded id base last →
          Meets (fun next => Same base next ∨ Removed id base next)
            (fun _ next => Same base next ∨ Removed id base next)
            (fun _ next => Same base next ∨ Removed id base next)
            (if source && data.isSome then pure ()
            else do
              ask (.insert id ⟨installed.manifest, id, false, some .removal⟩) .notFound
              .fails .removal : Action parse Unit) last := by
        intro data last gone
        split
        next => exact .inr gone.removed
        next =>
          apply Program.Meets.bind
          apply meets_register (.inr gone.removed)
          refine .inr ⟨⟨gone.others, ?_⟩, .inr (.inr ⟨installed, found, ?_⟩)⟩
          · intro name different
            rw [World.entries_register_of_ne _ different]
            exact gone.entries name different
          · rw [registered.source]
            exact World.entries_register_self ..
      exact meets_attempt_quiet rfl (.inr gone.removed)
        (fun _ _ last quiet _ => ending _ last (quiet.unloaded gone))
        (fun last quiet _ => ending _ last (quiet.unloaded gone))

end Removing

end LosslessMusic.Extensions.Sources
