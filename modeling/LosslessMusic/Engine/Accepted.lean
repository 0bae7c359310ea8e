import LosslessMusic.Engine.Replayed

/-!
# The accepted settings are those of the core

One initialization runs at a time and publishes its core together with `READY`. What a
setter buffers is what it was asked for, and a core that is there has been told of it.
-/

namespace LosslessMusic.Engine

/-- The calls in an initialization of their own. -/
def Point.isInitializing : Point → Bool
  | .isolating _ | .reading _ | .creating _ _ | .failing _ | .applying _ => true
  | .entering _ _ | .requiring | .loading _ | .comparing _ | .loadingAll | .reapplying
  | .done => false

/-- The calls that run the factory. -/
def Point.isCreating : Point → Bool
  | .creating _ _ => true
  | _ => false

theorem Point.isInitializing_of_isCreating {point : Point} (creating : point.isCreating) :
    point.isInitializing := by
  cases point <;> first | rfl | cases creating

/-- The buffered settings are the accepted ones, up to refusals. -/
structure Buffered (settings accepted : Settings) (refused : Refused)
    (dropped : List String) : Prop where
  lyricsProviders : settings.lyricsProvidersJson = accepted.lyricsProvidersJson
  lyricsOptions : settings.lyricsOptionsJson = accepted.lyricsOptionsJson
  download : refused.download = false →
    settings.downloadPriorityJson = accepted.downloadPriorityJson
  metadata : refused.metadata = false →
    settings.metadataPriorityJson = accepted.metadataPriorityJson
  fallback : refused.fallback = false → settings.fallbackIdsJson = accepted.fallbackIdsJson
  directories : ∀ directory ∈ accepted.downloadDirs,
    directory ∈ settings.downloadDirs ∨ directory ∈ dropped

/-- Without a core there is nothing that refuses. -/
structure Unrefused (settings accepted : Settings) (refused : Refused) : Prop where
  cover : settings.coverCacheDir = accepted.coverCacheDir
  download : refused.download = false
  metadata : refused.metadata = false
  fallback : refused.fallback = false

/-- The values last applied to a core are those last accepted, where the core has not
refused a later one, and the allow list is that of the recorded directories. -/
structure Applied (around : Surroundings) (settings accepted : Settings) (refused : Refused)
    (core : Core) : Prop where
  allowed : ∃ canonical, allowList around canonical settings.downloadDirs = some core.allowed
  lyricsProviders : core.lyricsProviders = accepted.lyricsProvidersJson
  lyricsOptions : core.lyricsOptions = accepted.lyricsOptionsJson
  download : refused.download = false →
    core.download = accepted.downloadPriorityJson.bind around.ids
  metadata : refused.metadata = false →
    core.metadata = accepted.metadataPriorityJson.bind around.ids
  fallback : refused.fallback = false →
    core.fallback = accepted.fallbackIdsJson.bind around.idsOrNull
  cover : core.cover = accepted.coverCacheDir

/-- What holds in every state. -/
structure Kept (around : Surroundings) (e : RustEngine) : Prop where
  exclusive : e.calls.countP Point.isInitializing = (decide (e.state = .initializing)).toNat
  published : e.core.isSome = decide (e.state = .ready)
  fresh : ∀ created, .applying created ∈ e.calls →
    created = .create created.lyricsProviders created.lyricsOptions
  buffered : Buffered e.settings e.accepted e.refused e.dropped
  unrefused : e.state ≠ .ready → Unrefused e.settings e.accepted e.refused
  applied : ∀ core, e.core = some core → Applied around e.settings e.accepted e.refused core

theorem kept_new (around : Surroundings) : Kept around .new where
  exclusive := rfl
  published := rfl
  fresh := fun _ member => by cases member
  buffered := ⟨rfl, rfl, fun _ => rfl, fun _ => rfl, fun _ => rfl, fun _ member => by cases member⟩
  unrefused := fun _ => ⟨rfl, rfl, rfl, rfl⟩
  applied := fun _ isCore => by cases isCore

/-! ## Setters -/

section Setters

variable {around : Surroundings} {e : RustEngine}

theorem Kept.readyCore (kept : Kept around e) : e.readyCore = e.core := by
  unfold RustEngine.readyCore
  split
  · rfl
  next notReady =>
    have absent : e.core.isSome = false := by rw [kept.published, decide_eq_false notReady]
    exact (Option.not_isSome_iff_eq_none.mp (by rw [absent]; exact Bool.false_ne_true)).symm

variable {core : Core}

theorem Kept.ready_of_core (kept : Kept around e) (isCore : e.core = some core) :
    e.state = .ready := by
  have published := kept.published
  rw [isCore] at published
  exact of_decide_eq_true published.symm

variable {settings accepted : Settings} {refused : Refused}

theorem Kept.set (kept : Kept around e) {core : Option Core}
    {dropped : List String} (same : core.isSome = e.core.isSome)
    (buffered : Buffered settings accepted refused dropped)
    (unrefused : e.state ≠ .ready → Unrefused settings accepted refused)
    (applied : ∀ told, core = some told → Applied around settings accepted refused told) :
    Kept around { e with core, settings, accepted, refused, dropped } where
  exclusive := kept.exclusive
  published := same.trans kept.published
  fresh := kept.fresh
  buffered := buffered
  unrefused := unrefused
  applied := applied

variable {change : Core → Core}

theorem Kept.tell (kept : Kept around e) {answers : List Bool}
    {ok : Bool} {core : Option Core} (told : e.tell (some change) answers = (ok, core)) :
    core = (if ok then e.core.map change else e.core) ∧ (e.state ≠ .ready → ok = true) := by
  unfold RustEngine.tell at told
  rw [kept.readyCore] at told
  split at told
  next absent =>
    cases told
    refine ⟨?_, fun _ => rfl⟩
    rw [absent]
    rfl
  next old isCore =>
    cases attempted : Talk.attempt ⟨old, answers⟩ (some change) with
    | mk succeeded talk =>
      rw [attempted] at told
      obtain ⟨rfl, rfl⟩ := Prod.mk.inj told
      have spec := Talk.attempt_spec attempted
      refine ⟨?_, fun notReady => absurd (kept.ready_of_core isCore) notReady⟩
      rw [isCore]
      cases succeeded with
      | true =>
        obtain ⟨apply, isApply, changed⟩ := spec
        cases isApply
        exact congrArg some changed
      | false => exact congrArg some spec

variable {buffer : Settings → Settings}

/-- A setter that tells the core first changes the buffer with the core. -/
theorem Kept.tellFirst (kept : Kept around e) (answers : List Bool)
    (buffered : ∀ settings accepted refused dropped, Buffered settings accepted refused dropped →
      Buffered (buffer settings) (buffer accepted) refused dropped)
    (unrefused : ∀ settings accepted refused, Unrefused settings accepted refused →
      Unrefused (buffer settings) (buffer accepted) refused)
    (applied : ∀ settings accepted refused core, Applied around settings accepted refused core →
      Applied around (buffer settings) (buffer accepted) refused (change core)) :
    Kept around (e.tellFirst buffer change answers) := by
  unfold RustEngine.tellFirst
  cases told : e.tell (some change) answers with
  | mk ok core =>
    obtain ⟨rfl, -⟩ := kept.tell told
    cases ok with
    | true =>
      refine kept.set (by simp) (buffered _ _ _ _ kept.buffered)
        (fun notReady => unrefused _ _ _ (kept.unrefused notReady)) ?_
      intro told isTold
      obtain ⟨old, isOld, rfl⟩ := Option.map_eq_some_iff.mp isTold
      exact applied _ _ _ _ (kept.applied old isOld)
    | false => exact kept.set rfl kept.buffered kept.unrefused kept.applied

/-- A setter that changes the buffer first leaves a refused value there, and a mark. -/
theorem Kept.bufferFirst (kept : Kept around e)
    {mark : Bool → Refused → Refused} (answers : List Bool)
    (buffered : ∀ settings accepted refused dropped, Buffered settings accepted refused dropped →
      Buffered (buffer settings) (buffer accepted) (mark false refused) dropped ∧
      Buffered (buffer settings) accepted (mark true refused) dropped)
    (unrefused : ∀ settings accepted refused, Unrefused settings accepted refused →
      Unrefused (buffer settings) (buffer accepted) (mark false refused))
    (applied : ∀ settings accepted refused core, Applied around settings accepted refused core →
      Applied around (buffer settings) (buffer accepted) (mark false refused) (change core) ∧
      Applied around (buffer settings) accepted (mark true refused) core) :
    Kept around (e.bufferFirst buffer mark change answers) := by
  unfold RustEngine.bufferFirst
  cases told : e.tell (some change) answers with
  | mk ok core =>
    obtain ⟨rfl, always⟩ := kept.tell told
    cases ok with
    | true =>
      refine kept.set (by simp) (buffered _ _ _ _ kept.buffered).1
        (fun notReady => unrefused _ _ _ (kept.unrefused notReady)) ?_
      intro told isTold
      obtain ⟨old, isOld, rfl⟩ := Option.map_eq_some_iff.mp isTold
      exact (applied _ _ _ _ (kept.applied old isOld)).1
    | false =>
      refine kept.set rfl (buffered _ _ _ _ kept.buffered).2
        (fun notReady => by cases always notReady) ?_
      intro told isTold
      exact (applied _ _ _ _ (kept.applied told isTold)).2

theorem kept_setLyricsProviders (kept : Kept around e) (json : String) (answers : List Bool) :
    Kept around (e.setLyricsProviders around json answers) := by
  unfold RustEngine.setLyricsProviders
  split
  · exact kept
  · exact kept.tellFirst answers (fun _ _ _ _ before => { before with lyricsProviders := rfl })
      (fun _ _ _ before => { before with })
      (fun _ _ _ _ before => { before with lyricsProviders := rfl })

theorem kept_setLyricsFetchOptions (kept : Kept around e) (json : String)
    (answers : List Bool) : Kept around (e.setLyricsFetchOptions around json answers) := by
  unfold RustEngine.setLyricsFetchOptions
  split
  · exact kept.tellFirst answers (fun _ _ _ _ before => { before with lyricsOptions := rfl })
      (fun _ _ _ before => { before with })
      (fun _ _ _ _ before => { before with lyricsOptions := rfl })
  · exact kept

theorem kept_setDownloadPriority (kept : Kept around e) (json : String)
    (answers : List Bool) : Kept around (e.setDownloadPriority around json answers) := by
  unfold RustEngine.setDownloadPriority
  split
  · exact kept
  next ids isIds =>
    refine kept.bufferFirst answers ?_ (fun _ _ _ before => { before with download := rfl }) ?_
    · intro settings accepted refused dropped before
      exact ⟨{ before with download := fun _ => rfl },
        { before with download := fun marked => by cases marked }⟩
    · intro settings accepted refused core before
      exact ⟨{ before with download := fun _ => isIds.symm },
        { before with download := fun marked => by cases marked }⟩

theorem kept_setMetadataPriority (kept : Kept around e) (json : String)
    (answers : List Bool) : Kept around (e.setMetadataPriority around json answers) := by
  unfold RustEngine.setMetadataPriority
  split
  · exact kept
  next ids isIds =>
    refine kept.bufferFirst answers ?_ (fun _ _ _ before => { before with metadata := rfl }) ?_
    · intro settings accepted refused dropped before
      exact ⟨{ before with metadata := fun _ => rfl },
        { before with metadata := fun marked => by cases marked }⟩
    · intro settings accepted refused core before
      exact ⟨{ before with metadata := fun _ => isIds.symm },
        { before with metadata := fun marked => by cases marked }⟩

theorem kept_setDownloadFallbackProviderIds (kept : Kept around e) (json : String)
    (answers : List Bool) : Kept around (e.setDownloadFallbackProviderIds around json answers) := by
  unfold RustEngine.setDownloadFallbackProviderIds
  split
  · exact kept
  next ids isIds =>
    refine kept.bufferFirst answers ?_ (fun _ _ _ before => { before with fallback := rfl }) ?_
    · intro settings accepted refused dropped before
      exact ⟨{ before with fallback := fun _ => rfl },
        { before with fallback := fun marked => by cases marked }⟩
    · intro settings accepted refused core before
      have same := (Option.bind_some json around.idsOrNull).trans isIds
      exact ⟨{ before with fallback := fun _ => same.symm },
        { before with fallback := fun marked => by cases marked }⟩

theorem addDirectory_downloadDirs (directory : String) (settings : Settings) :
    ∀ other, other ∈ (RustEngine.addDirectory directory settings).downloadDirs ↔
      other ∈ settings.downloadDirs ∨ other = directory := by
  intro other
  unfold RustEngine.addDirectory
  split
  next present =>
    refine ⟨.inl, ?_⟩
    rintro (member | rfl)
    · exact member
    · exact present
  · simp

theorem addDirectory_same (directory : String) (settings : Settings) :
    RustEngine.addDirectory directory settings =
      { settings with
        downloadDirs := (RustEngine.addDirectory directory settings).downloadDirs } := by
  unfold RustEngine.addDirectory
  split <;> rfl

theorem Buffered.addDirectory
    {dropped : List String} (before : Buffered settings accepted refused dropped)
    (directory : String) :
    Buffered (RustEngine.addDirectory directory settings)
      (RustEngine.addDirectory directory accepted) refused
      (dropped.filter (· ≠ directory)) := by
  have all : ∀ other ∈ (RustEngine.addDirectory directory accepted).downloadDirs,
      other ∈ (RustEngine.addDirectory directory settings).downloadDirs ∨
        other ∈ dropped.filter (· ≠ directory) := by
    intro other member
    rw [addDirectory_downloadDirs]
    by_cases same : other = directory
    · exact .inl (.inr same)
    · rcases (addDirectory_downloadDirs directory accepted other).mp member with old | new
      · rcases before.directories other old with recorded | lost
        · exact .inl (.inl recorded)
        · exact .inr (List.mem_filter.mpr ⟨lost, decide_eq_true same⟩)
      · exact absurd new same
  rw [addDirectory_same directory settings, addDirectory_same directory accepted] at *
  exact { before with directories := all }

theorem Unrefused.addDirectory (before : Unrefused settings accepted refused) (directory : String) :
    Unrefused (RustEngine.addDirectory directory settings)
      (RustEngine.addDirectory directory accepted) refused := by
  rw [addDirectory_same directory settings, addDirectory_same directory accepted]
  exact { before with }

variable {directories : List String}

theorem Applied.of_setAllowed
    (before : Applied around settings accepted refused core) {list : List String}
    {canonical : Canonical} (listed : allowList around canonical directories = some list) :
    Applied around { settings with downloadDirs := directories } accepted refused
      (core.setAllowed list) :=
  { before with allowed := ⟨canonical, listed⟩ }

theorem Applied.accepted_addDirectory (before : Applied around settings accepted refused core)
    (directory : String) :
    Applied around settings (RustEngine.addDirectory directory accepted) refused core := by
  rw [addDirectory_same]
  exact { before with }

/-- One call of `setAllowedDownloadDirectories` with the aliases of some directories. -/
theorem Applied.attempt (before : Applied around settings accepted refused core)
    {canonical : Canonical} {answers : List Bool} {ok : Bool} {next : Talk}
    (attempted : Talk.attempt ⟨core, answers⟩ (allowAll around canonical directories) =
      (ok, next)) :
    Applied around (if ok then { settings with downloadDirs := directories } else settings)
      accepted refused next.core := by
  have spec := Talk.attempt_spec attempted
  cases ok with
  | true =>
    obtain ⟨apply, isApply, changed⟩ := spec
    obtain ⟨list, listed, rfl⟩ := Option.map_eq_some_iff.mp isApply
    rw [changed]
    exact before.of_setAllowed listed
  | false =>
    have same : next.core = core := spec
    rw [same]
    exact before

theorem kept_addDownloadDir (kept : Kept around e) (path : String) (canonical : Canonical)
    (answers : List Bool) : Kept around (e.addDownloadDir around path canonical answers) := by
  unfold RustEngine.addDownloadDir
  split
  · exact kept
  · rw [kept.readyCore]
    simp only
    split
    next absent =>
      refine kept.set rfl (kept.buffered.addDirectory _)
        (fun notReady => (kept.unrefused notReady).addDirectory _) ?_
      intro told isTold
      rw [absent] at isTold
      cases isTold
    next core isCore =>
      have ready := kept.ready_of_core isCore
      have before := kept.applied core isCore
      split
      next talk attempted =>
        refine kept.set (by rw [isCore]; rfl) (kept.buffered.addDirectory _)
          (fun notReady => absurd ready notReady) ?_
        intro told isTold
        cases isTold
        have after := (before.attempt attempted).accepted_addDirectory (around.absolutePath path)
        rw [if_pos rfl, ← addDirectory_same] at after
        exact after
      next talk attempted =>
        refine kept.set (by rw [isCore]; rfl) kept.buffered kept.unrefused ?_
        intro told isTold
        cases isTold
        have refused := before.attempt attempted
        cases restored : talk.attempt (allowAll around canonical e.settings.downloadDirs) with
        | mk ok last =>
          have after := refused.attempt restored
          rw [if_neg Bool.false_ne_true] at after
          cases ok with
          | true => exact after
          | false => exact after

theorem kept_setLibraryCoverCacheDir (kept : Kept around e) (cacheDir : String)
    (canonical : Canonical) (answers : List Bool) :
    Kept around (e.setLibraryCoverCacheDir around cacheDir canonical answers) := by
  unfold RustEngine.setLibraryCoverCacheDir
  split
  · exact kept
  · rw [kept.readyCore]
    simp only
    split
    next absent =>
      refine kept.set rfl { kept.buffered with }
        (fun notReady => { kept.unrefused notReady with cover := rfl }) ?_
      intro told isTold
      rw [absent] at isTold
      cases isTold
    next core isCore =>
      have ready := kept.ready_of_core isCore
      have before := kept.applied core isCore
      split
      next talk ran =>
        refine kept.set (by rw [isCore]; rfl) { kept.buffered with }
          (fun notReady => absurd ready notReady) ?_
        intro told isTold
        cases isTold
        rw [run_coverChanges ran]
        exact { before with cover := rfl }
      next talk ran =>
        refine kept.set (by rw [isCore]; rfl) { kept.buffered with }
          (fun notReady => absurd ready notReady) ?_
        intro told isTold
        cases isTold
        rw [run_coverChanges_refused ran]
        exact { before with }

end Setters

end LosslessMusic.Engine
