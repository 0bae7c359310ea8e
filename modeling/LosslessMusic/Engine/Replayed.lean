import LosslessMusic.Engine.RustEngine

/-!
# Which settings reach the core

The configuration is replayed in the section that publishes the core, so a core that is
there has been told what was accepted before. Directories that the core refuses at its
creation are dropped, and a priority that it refuses later stays in the buffer.
-/

namespace LosslessMusic.Engine

open Transition

/-! ## Directories -/

section Directories

variable {around : Surroundings} {canonical : Canonical} {talk next : Talk}

/-- Only the allow list of a core changes. -/
def Core.SameBut (core other : Core) : Prop :=
  ∃ directories, other = core.setAllowed directories

theorem Core.SameBut.refl (core : Core) : core.SameBut core := ⟨core.allowed, rfl⟩

theorem Core.SameBut.trans {first second third : Core} (before : first.SameBut second)
    (after : second.SameBut third) : first.SameBut third := by
  obtain ⟨_, rfl⟩ := before
  obtain ⟨directories, rfl⟩ := after
  exact ⟨directories, rfl⟩

/-- A call of `setAllowedDownloadDirectories` changes nothing else. -/
theorem sameBut_of_attempt {directories : Option (List String)} {ok : Bool}
    (attempted : talk.attempt (directories.map Core.setAllowed) = (ok, next)) :
    talk.core.SameBut next.core ∧
      (ok = true → ∃ list, directories = some list ∧ next.core.allowed = list) := by
  have spec := Talk.attempt_spec attempted
  cases ok with
  | true =>
    obtain ⟨apply, isApply, changed⟩ := spec
    obtain ⟨list, isList, rfl⟩ := Option.map_eq_some_iff.mp isApply
    refine ⟨⟨list, changed⟩, fun _ => ⟨list, isList, ?_⟩⟩
    rw [changed]
    rfl
  | false =>
    have same : next.core = talk.core := spec
    rw [same]
    exact ⟨.refl _, fun ok => by cases ok⟩

theorem tryEach_spec (directories : List String) {surviving dropped : List String}
    (tried : tryEach around canonical talk directories = (next, surviving, dropped)) :
    talk.core.SameBut next.core ∧ (∀ directory ∈ surviving, directory ∈ directories) ∧
      ∀ directory ∈ directories, directory ∈ surviving ∨ directory ∈ dropped := by
  induction directories generalizing talk next surviving dropped with
  | nil =>
    obtain ⟨rfl, rest⟩ := Prod.mk.inj tried
    cases rest
    exact ⟨.refl _, fun _ member => member, fun _ member => by cases member⟩
  | cons directory rest ih =>
    unfold tryEach at tried
    split at tried
    next middle attempted =>
      have first := (sameBut_of_attempt attempted).1
      cases others : tryEach around canonical middle rest with
      | mk last found =>
        obtain ⟨kept, lost⟩ := found
        obtain ⟨after, within, all⟩ := ih others
        simp only [others] at tried
        obtain ⟨rfl, result⟩ := Prod.mk.inj tried
        cases result
        refine ⟨first.trans after, ?_, ?_⟩
        · intro other member
          rcases List.mem_cons.mp member with rfl | later
          · exact List.mem_cons_self
          · exact List.mem_cons_of_mem _ (within other later)
        · intro other member
          rcases List.mem_cons.mp member with rfl | later
          · exact .inl List.mem_cons_self
          · exact (all other later).imp_left (List.mem_cons_of_mem _)
    next middle attempted =>
      have first := (sameBut_of_attempt attempted).1
      cases others : tryEach around canonical middle rest with
      | mk last found =>
        obtain ⟨kept, lost⟩ := found
        obtain ⟨after, within, all⟩ := ih others
        simp only [others] at tried
        obtain ⟨rfl, result⟩ := Prod.mk.inj tried
        cases result
        refine ⟨first.trans after, ?_, ?_⟩
        · intro other member
          exact List.mem_cons_of_mem _ (within other member)
        · intro other member
          rcases List.mem_cons.mp member with rfl | later
          · exact .inr List.mem_cons_self
          · exact (all other later).imp_right (List.mem_cons_of_mem _)

theorem sameBut_of_clear {ok : Bool}
    (attempted : talk.attempt (some (Core.setAllowed [])) = (ok, next)) :
    talk.core.SameBut next.core ∧ (ok = true → next.core.allowed = []) := by
  obtain ⟨same, allowed⟩ := sameBut_of_attempt
    (show talk.attempt ((some []).map Core.setAllowed) = (ok, next) from attempted)
  refine ⟨same, fun isTrue => ?_⟩
  obtain ⟨list, isList, isAllowed⟩ := allowed isTrue
  rw [isAllowed, ← Option.some.inj isList]

/-- What `applyConfig` makes of the directories. -/
structure Pruned.Sound (around : Surroundings) (canonical : Canonical) (core : Core)
    (directories : List String) (pruned : Pruned) : Prop where
  same : core.SameBut pruned.talk.core
  allowed : pruned.returns = true →
    allowList around canonical pruned.directories = some pruned.talk.core.allowed
  within : ∀ directory ∈ pruned.directories, directory ∈ directories
  all : ∀ directory ∈ directories, directory ∈ pruned.directories ∨ directory ∈ pruned.dropped

theorem applyDirectories_sound (talk : Talk) (directories : List String) :
    (applyDirectories around canonical talk directories).Sound around canonical talk.core
      directories := by
  unfold applyDirectories
  split
  next next applied =>
    obtain ⟨same, allowed⟩ := sameBut_of_attempt applied
    obtain ⟨list, isList, isAllowed⟩ := allowed rfl
    refine ⟨same, fun _ => ?_, fun _ member => member, fun _ member => .inl member⟩
    rw [isList, isAllowed]
  next next refused =>
    have first := (sameBut_of_attempt refused).1
    split
    next cleared attempted =>
      have second := (sameBut_of_clear attempted).1
      exact ⟨first.trans second, nofun, fun _ member => member,
        fun _ member => .inl member⟩
    next cleared attempted =>
      have second := (sameBut_of_clear attempted).1
      cases tried : tryEach around canonical cleared directories with
      | mk last found =>
        obtain ⟨surviving, dropped⟩ := found
        obtain ⟨third, within, all⟩ := tryEach_spec directories tried
        have before := (first.trans second).trans third
        simp only
        split
        next final applied =>
          obtain ⟨same, allowed⟩ := sameBut_of_attempt applied
          obtain ⟨list, isList, isAllowed⟩ := allowed rfl
          refine ⟨before.trans same, fun _ => ?_, within, all⟩
          rw [isList, isAllowed]
        next final combined =>
          have fourth := (sameBut_of_attempt combined).1
          cases ended : final.attempt (some (Core.setAllowed [])) with
          | mk returns empty =>
            obtain ⟨same, allowed⟩ := sameBut_of_clear ended
            refine ⟨(before.trans fourth).trans same, ?_, fun _ => nofun, ?_⟩
            · intro isTrue
              rw [allowed isTrue]
              rfl
            · intro directory member
              right
              rcases all directory member with kept | lost
              · exact List.mem_append_right _ kept
              · exact List.mem_append_left _ lost

end Directories

/-! ## The other settings -/

section Replay

variable {around : Surroundings} {canonical : Canonical} {talk next : Talk} {settings : Settings}

theorem run_coverChanges {directory : String}
    (ran : talk.run (coverChanges around canonical directory) = (true, next)) :
    next.core = talk.core.setCover directory := by
  obtain ⟨granted, middle, isGrant, same, rest⟩ := Talk.run_cons ran
  obtain ⟨apply, last, isApply, changed, done⟩ := Talk.run_cons rest
  obtain ⟨_, rfl⟩ := Prod.mk.inj done
  obtain ⟨_, _, rfl⟩ := Option.map_eq_some_iff.mp isGrant
  rw [changed, same, ← Option.some.inj isApply]

theorem run_coverChanges_refused {directory : String}
    (ran : talk.run (coverChanges around canonical directory) = (false, next)) :
    next.core = talk.core := by
  unfold coverChanges Talk.run at ran
  split at ran
  next granted attempted =>
    obtain ⟨apply, isApply, changed⟩ := Talk.attempt_spec attempted
    obtain ⟨_, _, rfl⟩ := Option.map_eq_some_iff.mp isApply
    unfold Talk.run at ran
    split at ran
    · cases ran
    next last refused =>
      obtain ⟨_, rfl⟩ := Prod.mk.inj ran
      exact (Talk.attempt_spec refused).trans changed
  next refused attempted =>
    obtain ⟨_, rfl⟩ := Prod.mk.inj ran
    exact Talk.attempt_spec attempted

theorem run_replay (ran : talk.run (replay around canonical settings) = (true, next)) :
    next.core =
      { allowed := talk.core.allowed
        lyricsProviders := settings.lyricsProvidersJson
        lyricsOptions := settings.lyricsOptionsJson
        download := (settings.downloadPriorityJson.bind around.ids).or talk.core.download
        metadata := (settings.metadataPriorityJson.bind around.ids).or talk.core.metadata
        fallback := (settings.fallbackIdsJson.bind around.idsOrNull).or talk.core.fallback
        cover := settings.coverCacheDir.or talk.core.cover } := by
  unfold replay at ran
  obtain ⟨afterMetadata, ran, cover⟩ := Talk.run_append ran
  obtain ⟨afterDownload, ran, metadata⟩ := Talk.run_append ran
  obtain ⟨afterFallback, ran, download⟩ := Talk.run_append ran
  obtain ⟨afterLyrics, ran, fallback⟩ := Talk.run_append ran
  obtain ⟨setProviders, middle, isProviders, providers, rest⟩ := Talk.run_cons ran
  obtain ⟨setOptions, last, isOptions, options, done⟩ := Talk.run_cons rest
  obtain ⟨_, rfl⟩ := Prod.mk.inj done
  cases isProviders
  cases isOptions
  have covered : next.core = settings.coverCacheDir.elim afterMetadata.core
      fun directory => afterMetadata.core.setCover directory := by
    cases made : settings.coverCacheDir with
    | none =>
      rw [made] at cover
      obtain ⟨_, rfl⟩ := Prod.mk.inj cover
      rfl
    | some directory =>
      rw [made] at cover
      exact run_coverChanges cover
  rw [covered, Talk.run_optional metadata, Talk.run_optional download,
    Talk.run_optional fallback, options, providers]
  cases settings.coverCacheDir <;> cases settings.metadataPriorityJson.bind around.ids <;>
    cases settings.downloadPriorityJson.bind around.ids <;>
    cases settings.fallbackIdsJson.bind around.idsOrNull <;> rfl

end Replay

end LosslessMusic.Engine
