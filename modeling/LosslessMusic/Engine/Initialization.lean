import LosslessMusic.Engine.Accepted

/-!
# Initializations of the engine

One call at a time is in an initialization of its own, and only that call brings a core
or fails. Every step keeps the core told of what was accepted.
-/

namespace LosslessMusic.Engine

open Transition

/-! ## Calls -/

section Calls

variable {around : Surroundings} {e : RustEngine} {point target : Point} {position : Nat}

theorem Kept.initializing (kept : Kept around e) (here : e.calls[position]? = some point)
    (initializes : point.isInitializing) : e.state = .initializing := by
  have counted : 0 < e.calls.countP Point.isInitializing :=
    List.countP_pos_iff.mpr ⟨point, List.mem_of_getElem? here, initializes⟩
  rw [kept.exclusive] at counted
  by_contra otherwise
  rw [decide_eq_false otherwise] at counted
  cases counted

/-- The count of the initializing calls when one call moves. -/
theorem Kept.exclusive_set (kept : Kept around e) (here : e.calls[position]? = some point)
    {state : State} (changed : (decide (state = .initializing)).toNat + point.isInitializing.toNat =
      (decide (e.state = .initializing)).toNat + target.isInitializing.toNat) :
    (e.calls.set position target).countP Point.isInitializing =
      (decide (state = .initializing)).toNat := by
  have counted := countP_set_add (p := Point.isInitializing) target here
  have exclusive := kept.exclusive
  omega

/-- Only the call that moves can bring a core of its own. -/
theorem Kept.fresh_set (kept : Kept around e) (fresh : ∀ created, target = .applying created →
      created = .create created.lyricsProviders created.lyricsOptions) :
    ∀ created, .applying created ∈ e.calls.set position target →
      created = .create created.lyricsProviders created.lyricsOptions := by
  intro created member
  rcases List.mem_or_eq_of_mem_set member with before | same
  · exact kept.fresh created before
  · exact fresh created same.symm

theorem Kept.go (kept : Kept around e) (here : e.calls[position]? = some point)
    (same : target.isInitializing = point.isInitializing)
    (fresh : ∀ created, target = .applying created →
      created = .create created.lyricsProviders created.lyricsOptions) :
    Kept around { e with calls := e.calls.set position target } :=
  { kept with
    exclusive := kept.exclusive_set here (by rw [same])
    fresh := kept.fresh_set fresh }

theorem Kept.goOn (kept : Kept around e) (here : e.calls[position]? = some point)
    (same : target.isInitializing = point.isInitializing)
    (without : ∀ created, target ≠ .applying created) :
    Kept around { e with calls := e.calls.set position target } :=
  kept.go here same fun created isApplying => absurd isApplying (without created)

theorem kept_begin (kept : Kept around e) (outside : point.isInitializing = false)
    (without : ∀ created, point ≠ .applying created) :
    Kept around { e with calls := e.calls ++ [point] } := by
  refine { kept with exclusive := ?_, fresh := ?_ }
  · rw [List.countP_append, List.countP_singleton, outside]
    exact kept.exclusive
  · intro created member
    rcases List.mem_append.mp member with before | new
    · exact kept.fresh created before
    · exact absurd (List.mem_singleton.mp new).symm (without created)

theorem kept_enter (kept : Kept around e) {extDir dataDir : String} {canonical : Canonical}
    (here : e.calls[position]? = some (.entering extDir dataDir)) :
    Kept around { (e.enter extDir dataDir canonical).1 with
      calls := e.calls.set position (e.enter extDir dataDir canonical).2 } := by
  have stays {goExtDir goDataDir : Option String} {target : Point}
      (same : target.isInitializing = false) (without : ∀ created, target ≠ .applying created) :
      Kept around { e with goExtDir, goDataDir, calls := e.calls.set position target } :=
    { kept.goOn here same without with }
  have starts {goExtDir goDataDir : Option String} {arguments : Arguments}
      (notReady : e.state ≠ .ready) (idle : e.state ≠ .initializing) :
      Kept around { e with
        goExtDir, goDataDir, state := .initializing,
        calls := e.calls.set position (.isolating arguments) } :=
    { kept with
      exclusive := kept.exclusive_set here (by rw [decide_eq_false idle]; rfl)
      published := by rw [kept.published, decide_eq_false notReady]; rfl
      fresh := kept.fresh_set (fun _ => nofun)
      unrefused := fun _ => kept.unrefused notReady }
  unfold RustEngine.enter
  split
  · exact stays rfl (fun _ => nofun)
  · simp only
    split
    · exact stays rfl (fun _ => nofun)
    · split
      · exact stays rfl (fun _ => nofun)
      · exact stays rfl (fun _ => nofun)
      next state =>
        split
        · exact stays rfl (fun _ => nofun)
        · exact starts (by rw [state]; decide) (by rw [state]; decide)
      next state =>
        split
        · exact stays rfl (fun _ => nofun)
        · exact starts (by rw [state]; decide) (by rw [state]; decide)

theorem kept_fail (kept : Kept around e) (here : e.calls[position]? = some point)
    (initializes : point.isInitializing) {settings : Settings} {dropped : List String}
    (buffered : Buffered settings e.accepted e.refused dropped)
    (unrefused : Unrefused settings e.accepted e.refused) (error : String) :
    Kept around { ({ e with settings, dropped } : RustEngine).fail error with
      calls := e.calls.set position .done } := by
  have state := kept.initializing here initializes
  have absent : e.core.isSome = false := by rw [kept.published, state]; rfl
  exact
    { exclusive := kept.exclusive_set here (by rw [state, initializes]; rfl)
      published := absent
      fresh := kept.fresh_set (fun _ => nofun)
      buffered := buffered
      unrefused := fun _ => unrefused
      applied := fun core isCore => by rw [show e.core = some core from isCore] at absent; cases absent }

variable {answer : Answer}

theorem kept_publish (kept : Kept around e) {created : Core}
    (here : e.calls[position]? = some (.applying created)) :
    Kept around { e.publish around created answer with
      calls := e.calls.set position .done } := by
  have state := kept.initializing here rfl
  have unrefused := kept.unrefused (by rw [state]; decide)
  have isNew := kept.fresh created (List.mem_of_getElem? here)
  unfold RustEngine.publish
  have sound : (applyDirectories around answer.canonical ⟨created, answer.answers⟩
        e.settings.downloadDirs).Sound around answer.canonical created
          e.settings.downloadDirs :=
    applyDirectories_sound ⟨created, answer.answers⟩ e.settings.downloadDirs
  cases applied : applyDirectories around answer.canonical ⟨created, answer.answers⟩
    e.settings.downloadDirs with
  | mk returns talk directories dropped =>
    rw [applied] at sound
    have buffered : Buffered { e.settings with downloadDirs := directories } e.accepted
        e.refused (e.dropped ++ dropped) := by
      refine { kept.buffered with directories := ?_ }
      intro directory member
      rcases kept.buffered.directories directory member with recorded | lost
      · exact (sound.all directory recorded).imp_right (List.mem_append_right _)
      · exact .inr (List.mem_append_left _ lost)
    simp only
    split
    next returned =>
      split
      next final ran =>
        refine
          { exclusive := kept.exclusive_set here (by rw [state]; rfl)
            published := rfl
            fresh := kept.fresh_set (fun _ => nofun)
            buffered := buffered
            unrefused := fun notReady => absurd rfl notReady
            applied := ?_ }
        intro core isCore
        cases isCore
        obtain ⟨others, same⟩ := sound.same
        have told := run_replay ran
        rw [same, isNew] at told
        simp only [Core.setAllowed, Core.create, Option.or_none] at told
        rw [told]
        exact
          { allowed := ⟨answer.canonical, by
              have allowed := sound.allowed returned
              rw [same] at allowed
              exact allowed⟩
            lyricsProviders := kept.buffered.lyricsProviders
            lyricsOptions := kept.buffered.lyricsOptions
            download := fun kept' => by rw [kept.buffered.download kept']
            metadata := fun kept' => by rw [kept.buffered.metadata kept']
            fallback := fun kept' => by rw [kept.buffered.fallback kept']
            cover := unrefused.cover }
      · exact kept_fail kept here rfl buffered { unrefused with } _
    · exact kept_fail kept here rfl buffered { unrefused with } _

/-- One call of the section behind `loadAll` tells the core the value it has, unless an
earlier one was refused. -/
theorem Applied.again {settings accepted : Settings} {refused : Refused} {talk : Talk}
    (before : Applied around settings accepted refused talk.core) {change : Option (Core → Core)}
    (after : ∀ apply, change = some apply →
      Applied around settings accepted refused (apply talk.core)) :
    Applied around settings accepted refused (talk.attempt change).2.core := by
  cases attempted : talk.attempt change with
  | mk ok next =>
    have spec := Talk.attempt_spec attempted
    cases ok with
    | true =>
      obtain ⟨apply, isApply, changed⟩ := spec
      rw [changed]
      exact after apply isApply
    | false =>
      have same : next.core = talk.core := spec
      rw [same]
      exact before

/-- The section behind `loadAll` keeps what was applied. -/
theorem Kept.reapply (kept : Kept around e) {core : Core} (isCore : e.core = some core)
    (answers : List Bool) :
    Applied around e.settings e.accepted e.refused (e.reapply around core answers) := by
  have before := kept.applied core isCore
  have download {talk : Talk}
      (before : Applied around e.settings e.accepted e.refused talk.core) {json : String}
      (buffered : e.settings.downloadPriorityJson = some json) :
      Applied around e.settings e.accepted e.refused
        (talk.attempt ((around.ids json).map Core.setDownload)).2.core := by
    refine before.again fun apply isApply => ?_
    obtain ⟨ids, isIds, rfl⟩ := Option.map_eq_some_iff.mp isApply
    refine { before with download := fun notRefused => ?_ }
    rw [← kept.buffered.download notRefused, buffered]
    exact isIds.symm
  have metadata {talk : Talk}
      (before : Applied around e.settings e.accepted e.refused talk.core) {json : String}
      (buffered : e.settings.metadataPriorityJson = some json) :
      Applied around e.settings e.accepted e.refused
        (talk.attempt ((around.ids json).map Core.setMetadata)).2.core := by
    refine before.again fun apply isApply => ?_
    obtain ⟨ids, isIds, rfl⟩ := Option.map_eq_some_iff.mp isApply
    refine { before with metadata := fun notRefused => ?_ }
    rw [← kept.buffered.metadata notRefused, buffered]
    exact isIds.symm
  have fallback {talk : Talk}
      (before : Applied around e.settings e.accepted e.refused talk.core) {json : String}
      (buffered : e.settings.fallbackIdsJson = some json) :
      Applied around e.settings e.accepted e.refused
        (talk.attempt ((around.idsOrNull json).map Core.setFallback)).2.core := by
    refine before.again fun apply isApply => ?_
    obtain ⟨ids, isIds, rfl⟩ := Option.map_eq_some_iff.mp isApply
    refine { before with fallback := fun notRefused => ?_ }
    rw [← kept.buffered.fallback notRefused, buffered, Option.bind_some, isIds]
    rfl
  unfold RustEngine.reapply
  dsimp only
  cases isDownload : e.settings.downloadPriorityJson <;>
    cases isMetadata : e.settings.metadataPriorityJson <;>
    cases isFallback : e.settings.fallbackIdsJson
  all_goals simp only [Option.map_none, Option.map_some]
  · exact before
  · exact fallback before isFallback
  · exact metadata before isMetadata
  · exact fallback (metadata before isMetadata) isFallback
  · exact download before isDownload
  · exact fallback (download before isDownload) isFallback
  · exact metadata (download before isDownload) isMetadata
  · exact fallback (metadata (download before isDownload) isMetadata) isFallback

theorem require_isInitializing {waiting onward : Point}
    (waits : waiting.isInitializing = false) (goes : onward.isInitializing = false) :
    (e.require waiting onward answer).isInitializing = false := by
  unfold RustEngine.require
  split
  · exact goes
  · split
    · rfl
    · exact waits

theorem require_ne_applying {waiting onward : Point} {created : Core}
    (waits : waiting ≠ .applying created) (goes : onward ≠ .applying created) :
    e.require waiting onward answer ≠ .applying created := by
  unfold RustEngine.require
  split
  · exact goes
  · split
    · exact fun isApplying => by cases isApplying
    · exact waits

variable {next : RustEngine}

theorem kept_act (kept : Kept around e) (here : e.calls[position]? = some point)
    (acted : e.act around answer point = some (next, target)) :
    Kept around { next with calls := e.calls.set position target } := by
  cases point with
  | entering extDir dataDir =>
    obtain rfl := (Prod.mk.inj (Option.some.inj acted)).1
    obtain rfl := (Prod.mk.inj (Option.some.inj acted)).2
    exact kept_enter kept here
  | isolating _ | comparing _ | loadingAll =>
    simp only [RustEngine.act] at acted
    split at acted
    · cases acted
      exact kept.goOn here rfl (fun _ => nofun)
    · cases acted
      exact kept.goOn here rfl (fun _ => nofun)
  | reading arguments =>
    cases acted
    exact kept.goOn here rfl (fun _ => nofun)
  | creating arguments lyrics =>
    simp only [RustEngine.act] at acted
    split at acted
    · cases acted
      refine kept.go here rfl (fun created isApplying => ?_)
      cases isApplying
      rfl
    · cases acted
      exact kept.goOn here rfl (fun _ => nofun)
  | failing error =>
    cases acted
    have state := kept.initializing here rfl
    exact kept_fail kept here rfl kept.buffered (kept.unrefused (by rw [state]; decide)) error
  | applying created =>
    cases acted
    exact kept_publish kept here
  | requiring | loading _ =>
    cases acted
    exact kept.goOn here (require_isInitializing rfl rfl) fun _ =>
      require_ne_applying nofun
        nofun
  | reapplying =>
    obtain ⟨core, isCore, moved⟩ := Option.map_eq_some_iff.mp acted
    cases moved
    have gone : Kept around { e with calls := e.calls.set position .done } :=
      kept.goOn here rfl (fun _ => nofun)
    refine { gone with published := ?_, applied := ?_ }
    · have published := kept.published
      rw [isCore] at published
      exact published
    · intro told isTold
      cases isTold
      exact kept.reapply isCore answer.answers
  | done => cases acted

theorem kept_step (kept : Kept around e) {event : Event}
    (stepped : e.step around event = some next) : Kept around next := by
  cases event with
  | setExtensionStorageMasterKey masterKey =>
    cases stepped
    unfold RustEngine.setExtensionStorageMasterKey
    split
    · exact kept
    · exact { kept with }
  | setLyricsProviders json answers =>
    cases stepped
    exact kept_setLyricsProviders kept json answers
  | setLyricsFetchOptions json answers =>
    cases stepped
    exact kept_setLyricsFetchOptions kept json answers
  | setDownloadPriority json answers =>
    cases stepped
    exact kept_setDownloadPriority kept json answers
  | setMetadataPriority json answers =>
    cases stepped
    exact kept_setMetadataPriority kept json answers
  | setDownloadFallbackProviderIds json answers =>
    cases stepped
    exact kept_setDownloadFallbackProviderIds kept json answers
  | addDownloadDir path canonical answers =>
    cases stepped
    exact kept_addDownloadDir kept path canonical answers
  | setLibraryCoverCacheDir cacheDir canonical answers =>
    cases stepped
    exact kept_setLibraryCoverCacheDir kept cacheDir canonical answers
  | initExtensionSystem _ _ | loadExtensionsFromDir _ =>
    cases stepped
    exact kept_begin kept rfl (fun _ => nofun)
  | call position answer =>
    obtain ⟨point, here, moved⟩ := Option.bind_eq_some_iff.mp stepped
    obtain ⟨⟨after, target⟩, acted, rfl⟩ := Option.map_eq_some_iff.mp moved
    exact kept_act kept here acted

theorem kept_of_reachable {admits : RustEngine → Event → Prop}
    (reachable : (RustEngine.machine around).Reachable admits e) : Kept around e := by
  refine reachable.invariant (fun start starts => ?_)
    (fun state event next _ kept _ stepped => kept_step kept stepped)
  rw [show start = RustEngine.new from starts]
  exact kept_new around

theorem tellFirst_state (buffer : Settings → Settings) (change : Core → Core)
    (answers : List Bool) : (e.tellFirst buffer change answers).state = e.state := by
  unfold RustEngine.tellFirst
  simp only
  split <;> rfl

theorem setLyricsProviders_state (json : String) (answers : List Bool) :
    (e.setLyricsProviders around json answers).state = e.state := by
  unfold RustEngine.setLyricsProviders
  split
  · rfl
  · exact tellFirst_state _ _ _

theorem setLyricsFetchOptions_state (json : String) (answers : List Bool) :
    (e.setLyricsFetchOptions around json answers).state = e.state := by
  unfold RustEngine.setLyricsFetchOptions
  split
  · exact tellFirst_state _ _ _
  · rfl

theorem addDownloadDir_state (path : String) (canonical : Canonical) (answers : List Bool) :
    (e.addDownloadDir around path canonical answers).state = e.state := by
  unfold RustEngine.addDownloadDir
  split
  · rfl
  · simp only
    split
    · rfl
    · split <;> rfl

theorem setLibraryCoverCacheDir_state (cacheDir : String) (canonical : Canonical)
    (answers : List Bool) :
    (e.setLibraryCoverCacheDir around cacheDir canonical answers).state = e.state := by
  unfold RustEngine.setLibraryCoverCacheDir
  split
  · rfl
  · simp only
    split
    · rfl
    · split <;> rfl

theorem enter_state_of_ready {extDir dataDir : String} {canonical : Canonical}
    (ready : e.state = .ready) : (e.enter extDir dataDir canonical).1.state = .ready := by
  unfold RustEngine.enter
  split
  · exact ready
  · simp only
    split
    · exact ready
    · rw [ready]

theorem ready_act (kept : Kept around e) (here : e.calls[position]? = some point)
    (acted : e.act around answer point = some (next, target)) (ready : e.state = .ready) :
    next.state = .ready := by
  have outside (initializes : point.isInitializing = true) : next.state = .ready := by
    have initializing := kept.initializing here initializes
    rw [ready] at initializing
    cases initializing
  cases point with
  | entering extDir dataDir =>
    obtain rfl := (Prod.mk.inj (Option.some.inj acted)).1
    exact enter_state_of_ready ready
  | isolating _ | reading _ | creating _ _ | failing _ | applying _ => exact outside rfl
  | requiring =>
    cases acted
    exact ready
  | loading dirPath =>
    cases acted
    exact ready
  | comparing _ | loadingAll =>
    simp only [RustEngine.act] at acted
    split at acted <;>
      · cases acted
        exact ready
  | reapplying =>
    obtain ⟨core, isCore, moved⟩ := Option.map_eq_some_iff.mp acted
    cases moved
    exact ready
  | done => cases acted

theorem ready_step (kept : Kept around e) {event : Event}
    (stepped : e.step around event = some next) (ready : e.state = .ready) :
    next.state = .ready := by
  cases event with
  | setExtensionStorageMasterKey masterKey =>
    cases stepped
    unfold RustEngine.setExtensionStorageMasterKey
    split <;> exact ready
  | setLyricsProviders json answers =>
    cases stepped
    rw [setLyricsProviders_state]
    exact ready
  | setLyricsFetchOptions json answers =>
    cases stepped
    rw [setLyricsFetchOptions_state]
    exact ready
  | setDownloadPriority json answers =>
    cases stepped
    unfold RustEngine.setDownloadPriority
    split <;> exact ready
  | setMetadataPriority json answers =>
    cases stepped
    unfold RustEngine.setMetadataPriority
    split <;> exact ready
  | setDownloadFallbackProviderIds json answers =>
    cases stepped
    unfold RustEngine.setDownloadFallbackProviderIds
    split <;> exact ready
  | addDownloadDir path canonical answers =>
    cases stepped
    rw [addDownloadDir_state]
    exact ready
  | setLibraryCoverCacheDir cacheDir canonical answers =>
    cases stepped
    rw [setLibraryCoverCacheDir_state]
    exact ready
  | initExtensionSystem extDir dataDir =>
    cases stepped
    exact ready
  | loadExtensionsFromDir dirPath =>
    cases stepped
    exact ready
  | call position answer =>
    obtain ⟨point, here, moved⟩ := Option.bind_eq_some_iff.mp stepped
    obtain ⟨⟨after, target⟩, acted, rfl⟩ := Option.map_eq_some_iff.mp moved
    have still : after.state = .ready := ready_act kept here acted ready
    exact still

/-- What the engine and its core have in common. -/
structure Replayed (around : Surroundings) (e : RustEngine) : Prop where
  oneFactory : e.calls.countP Point.isCreating ≤ 1
  published : e.core.isSome ↔ e.state = .ready
  stays : ∀ event next, e.step around event = some next → e.state = .ready →
    next.state = .ready
  applied : ∀ core, e.core = some core → Applied around e.settings e.accepted e.refused core
  recorded : ∀ directory ∈ e.accepted.downloadDirs,
    directory ∈ e.settings.downloadDirs ∨ directory ∈ e.dropped

/-- Whatever is set before, during or after an initialization, and whatever the factory
and the core refuse: the factory is run by one caller at a time, a core is there exactly
when the state is `READY`, and it has been told what was accepted last. -/
theorem engine_replayed {e : RustEngine}
    (reachable : (RustEngine.machine around).Reachable Machine.anyStep e) :
    Replayed around e := by
  have kept := kept_of_reachable reachable
  have counted : e.calls.countP Point.isCreating ≤ e.calls.countP Point.isInitializing :=
    List.countP_mono_left fun _ _ creating => Point.isInitializing_of_isCreating creating
  refine ⟨?_, ?_, fun _ _ stepped => ready_step kept stepped, kept.applied,
    kept.buffered.directories⟩
  · rw [kept.exclusive] at counted
    exact counted.trans (Bool.toNat_le _)
  · rw [kept.published, decide_eq_true_eq]

end Calls

/-! ## Two runs -/

/-- A few texts and paths that need no resolving. -/
def plain : Surroundings where
  ids := fun json => if json = "[]" then some [] else none
  isObject := fun json => json = "\x7b\x7d"
  absolutePath := fun path => path

/-- Nothing is thrown, and the core answers as told. -/
def Answer.of (answers : List Bool) : Answer := ⟨none, some, answers, false⟩

/-- A download directory, a priority and an initialization in which the core gives these
answers to the configuration. -/
def initializeEvents (answers : List Bool) : List Event :=
  [.setExtensionStorageMasterKey "key", .addDownloadDir "/music" some [],
    .setMetadataPriority "[]" [], .initExtensionSystem "/extensions" "/data",
    .call 0 (.of []), .call 0 (.of []), .call 0 (.of []), .call 0 (.of []),
    .call 0 (.of answers)]

theorem engine_replayed_ready : ∃ e : RustEngine, Replayed plain e ∧
      (decide (e.state = .ready) && e.core.map Core.allowed == some ["/music"]) = true := by
  obtain ⟨e, reachable, ready⟩ := (RustEngine.machine plain).exists_reachable_of_run
      (fun e => decide (e.state = .ready) && e.core.map Core.allowed == some ["/music"]) rfl
      (show ((RustEngine.machine plain).run RustEngine.new (initializeEvents [])).any _ = true by decide)
  exact ⟨e, engine_replayed reachable, ready⟩

/-- After a priority that the core refuses, the extensions are loaded. -/
def loadEvents : List Event :=
  initializeEvents [] ++ [.setDownloadPriority "[]" [false], .loadExtensionsFromDir "/extensions",
      .call 1 (.of []), .call 1 (.of []), .call 1 (.of []), .call 1 (.of [])]

/-- A recorded directory that the core refuses at its creation is not in the allow list of
the ready engine, and a priority that was refused is applied behind `loadAll`. -/
theorem engine_forgets_directory :
    ((RustEngine.machine plain).run .new (initializeEvents [false, true, false])).any
        (fun e => decide (e.state = .ready) && e.accepted.downloadDirs == ["/music"] &&
          e.core.map Core.allowed == some []) = true ∧
      ((RustEngine.machine plain).run .new loadEvents).any
        (fun e => decide (e.state = .ready) && e.accepted.downloadPriorityJson == none &&
          e.core.bind Core.download == some []) = true := by
  decide

end LosslessMusic.Engine
