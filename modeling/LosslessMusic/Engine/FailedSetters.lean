import LosslessMusic.Engine.Initialization

/-!
# Setters that fail

A setter fails on bad JSON or because the core refuses the value. A failure that leaves the
buffer alone is not seen again: what the engine does afterwards depends on its core only
through the answers that the core gives.
-/

namespace LosslessMusic.Engine

open Transition

/-! ## Engines that differ in what their cores were told -/

/-- The same answers are still to come. -/
def Talk.Alike (talk other : Talk) : Prop := other.answers = talk.answers

section Talks

variable {talk other : Talk}

theorem Talk.Alike.attempt (alike : talk.Alike other) (change : Option (Core → Core)) :
    (other.attempt change).1 = (talk.attempt change).1 ∧
      (talk.attempt change).2.Alike (other.attempt change).2 := by
  cases talk with
  | mk core answers =>
  cases other with
  | mk otherCore otherAnswers =>
  obtain rfl : otherAnswers = answers := alike
  cases change with
  | none => exact ⟨rfl, rfl⟩
  | some apply =>
    rcases otherAnswers with _ | ⟨_ | _, rest⟩ <;> exact ⟨rfl, rfl⟩

theorem Talk.Alike.run (alike : talk.Alike other) (changes : List (Option (Core → Core))) :
    (other.run changes).1 = (talk.run changes).1 ∧
      (talk.run changes).2.Alike (other.run changes).2 := by
  induction changes generalizing talk other with
  | nil => exact ⟨rfl, alike⟩
  | cons change rest ih =>
    obtain ⟨ok, next⟩ := alike.attempt change
    unfold Talk.run
    cases attempted : talk.attempt change with
    | mk succeeded after =>
    cases otherAttempted : other.attempt change with
    | mk otherSucceeded otherAfter =>
    rw [attempted, otherAttempted] at ok next
    obtain rfl : otherSucceeded = succeeded := ok
    cases otherSucceeded with
    | true => exact ih next
    | false => exact ⟨rfl, next⟩

end Talks

/-- Two engines that are the same but for what their cores were told and for the records of
what was accepted. -/
def Alike (e other : RustEngine) : Prop :=
  ∃ core accepted refused dropped, core.isSome = e.core.isSome ∧
    other = { e with core, accepted, refused, dropped }

section Steps

variable {around : Surroundings} {e other : RustEngine}

theorem Alike.settings (alike : Alike e other) : other.settings = e.settings := by
  obtain ⟨core, accepted, refused, dropped, -, rfl⟩ := alike
  rfl

theorem Alike.calls (alike : Alike e other) : other.calls = e.calls := by
  obtain ⟨core, accepted, refused, dropped, -, rfl⟩ := alike
  rfl

theorem Alike.readyCore (alike : Alike e other) : (e.readyCore = none ∧ other.readyCore = none) ∨
      ∃ core otherCore, e.readyCore = some core ∧ other.readyCore = some otherCore := by
  obtain ⟨core, accepted, refused, dropped, both, rfl⟩ := alike
  unfold RustEngine.readyCore
  dsimp only
  split
  · cases isCore : e.core with
    | none =>
      rw [isCore] at both
      exact .inl ⟨rfl, Option.isNone_iff_eq_none.mp (Option.isSome_eq_false_iff.mp both)⟩
    | some found =>
      rw [isCore] at both
      obtain ⟨otherFound, isOther⟩ := Option.isSome_iff_exists.mp both
      exact .inr ⟨found, otherFound, rfl, isOther⟩
  · exact .inl ⟨rfl, rfl⟩

theorem Alike.tell (alike : Alike e other) (change : Option (Core → Core)) (answers : List Bool) :
    (other.tell change answers).1 = (e.tell change answers).1 ∧
      (other.tell change answers).2.isSome = (e.tell change answers).2.isSome := by
  unfold RustEngine.tell
  rcases alike.readyCore with ⟨isNone, otherNone⟩ | ⟨core, otherCore, isCore, isOther⟩
  · obtain ⟨core, accepted, refused, dropped, both, rfl⟩ := alike
    rw [isNone, otherNone]
    exact ⟨rfl, both⟩
  · rw [isCore, isOther]
    have same : Talk.Alike ⟨core, answers⟩ ⟨otherCore, answers⟩ := rfl
    exact ⟨(same.attempt change).1, rfl⟩

theorem tellFirst_eq (buffer : Settings → Settings) (change : Core → Core) (answers : List Bool) :
    e.tellFirst buffer change answers =
      if (e.tell (some change) answers).1 then
        { e with
          core := (e.tell (some change) answers).2
          settings := buffer e.settings
          accepted := buffer e.accepted }
      else { e with core := (e.tell (some change) answers).2 } :=
  rfl

theorem Alike.tellFirst (alike : Alike e other) (buffer : Settings → Settings)
    (change : Core → Core) (answers : List Bool) :
    Alike (e.tellFirst buffer change answers) (other.tellFirst buffer change answers) := by
  obtain ⟨ok, told⟩ := alike.tell (some change) answers
  obtain ⟨core, accepted, refused, dropped, both, rfl⟩ := alike
  rw [tellFirst_eq, tellFirst_eq, ok]
  split <;> exact ⟨_, _, _, _, told, rfl⟩

theorem Alike.bufferFirst (alike : Alike e other) (buffer : Settings → Settings)
    (mark : Bool → Refused → Refused) (change : Core → Core) (answers : List Bool) :
    Alike (e.bufferFirst buffer mark change answers)
      (other.bufferFirst buffer mark change answers) := by
  obtain ⟨ok, told⟩ := alike.tell (some change) answers
  obtain ⟨core, accepted, refused, dropped, both, rfl⟩ := alike
  exact ⟨_, _, _, _, told, rfl⟩

theorem Alike.addDownloadDir (alike : Alike e other) (path : String) (canonical : Canonical)
    (answers : List Bool) :
    Alike (e.addDownloadDir around path canonical answers)
      (other.addDownloadDir around path canonical answers) := by
  have ready := alike.readyCore
  obtain ⟨core, accepted, refused, dropped, both, rfl⟩ := alike
  unfold RustEngine.addDownloadDir
  split
  · exact ⟨_, _, _, _, both, rfl⟩
  · rcases ready with ⟨isNone, otherNone⟩ | ⟨found, otherFound, isCore, isOther⟩
    · rw [isNone, otherNone]
      exact ⟨_, _, _, _, both, rfl⟩
    · rw [isCore, isOther]
      have same : Talk.Alike ⟨found, answers⟩ ⟨otherFound, answers⟩ := rfl
      obtain ⟨ok, -⟩ := same.attempt (allowAll around canonical
        (RustEngine.addDirectory (around.absolutePath path) e.settings).downloadDirs)
      dsimp only
      split
      next talk attempted =>
        split
        next otherTalk _ => exact ⟨some otherTalk.core, _, _, _, rfl, rfl⟩
        next otherTalk otherAttempted =>
          rw [attempted, otherAttempted] at ok
          cases ok
      next talk attempted =>
        split
        next otherTalk otherAttempted =>
          rw [attempted, otherAttempted] at ok
          cases ok
        next otherTalk _ => exact ⟨some (otherTalk.attempt _).2.core, _, _, _, rfl, rfl⟩

theorem Alike.setLibraryCoverCacheDir (alike : Alike e other) (cacheDir : String)
    (canonical : Canonical) (answers : List Bool) :
    Alike (e.setLibraryCoverCacheDir around cacheDir canonical answers)
      (other.setLibraryCoverCacheDir around cacheDir canonical answers) := by
  have ready := alike.readyCore
  obtain ⟨core, accepted, refused, dropped, both, rfl⟩ := alike
  unfold RustEngine.setLibraryCoverCacheDir
  split
  · exact ⟨_, _, _, _, both, rfl⟩
  · rcases ready with ⟨isNone, otherNone⟩ | ⟨found, otherFound, isCore, isOther⟩
    · rw [isNone, otherNone]
      exact ⟨_, _, _, _, both, rfl⟩
    · rw [isCore, isOther]
      have same : Talk.Alike ⟨found, answers⟩ ⟨otherFound, answers⟩ := rfl
      obtain ⟨ok, -⟩ := same.run (coverChanges around canonical cacheDir)
      dsimp only
      split
      next talk ran =>
        split
        next otherTalk _ => exact ⟨some otherTalk.core, _, _, _, rfl, rfl⟩
        next otherTalk otherRan =>
          rw [ran, otherRan] at ok
          cases ok
      next talk ran =>
        split
        next otherTalk otherRan =>
          rw [ran, otherRan] at ok
          cases ok
        next otherTalk _ => exact ⟨some otherTalk.core, _, _, _, rfl, rfl⟩

theorem Alike.setExtensionStorageMasterKey (alike : Alike e other) (masterKey : String) :
    Alike (e.setExtensionStorageMasterKey masterKey)
      (other.setExtensionStorageMasterKey masterKey) := by
  obtain ⟨core, accepted, refused, dropped, both, rfl⟩ := alike
  unfold RustEngine.setExtensionStorageMasterKey
  dsimp only
  split <;> exact ⟨_, _, _, _, both, rfl⟩

theorem Alike.enter (alike : Alike e other) (extDir dataDir : String) (canonical : Canonical) :
    (other.enter extDir dataDir canonical).2 = (e.enter extDir dataDir canonical).2 ∧
      Alike (e.enter extDir dataDir canonical).1 (other.enter extDir dataDir canonical).1 := by
  obtain ⟨core, accepted, refused, dropped, both, rfl⟩ := alike
  unfold RustEngine.enter
  dsimp only
  split
  · exact ⟨rfl, _, _, _, _, both, rfl⟩
  · split
    · exact ⟨rfl, _, _, _, _, both, rfl⟩
    · split
      · exact ⟨rfl, _, _, _, _, both, rfl⟩
      · exact ⟨rfl, _, _, _, _, both, rfl⟩
      · split <;> exact ⟨rfl, _, _, _, _, both, rfl⟩
      · split <;> exact ⟨rfl, _, _, _, _, both, rfl⟩

theorem Alike.publish (alike : Alike e other) (created : Core) (answer : Answer) :
    Alike (e.publish around created answer) (other.publish around created answer) := by
  obtain ⟨core, accepted, refused, dropped, both, rfl⟩ := alike
  unfold RustEngine.publish
  dsimp only
  split
  · split
    · exact ⟨_, _, _, _, rfl, rfl⟩
    · exact ⟨_, _, _, _, both, rfl⟩
  · exact ⟨_, _, _, _, both, rfl⟩

theorem Alike.require (alike : Alike e other) (waiting onward : Point) (answer : Answer) :
    other.require waiting onward answer = e.require waiting onward answer := by
  obtain ⟨core, accepted, refused, dropped, -, rfl⟩ := alike
  rfl

/-- Both sides take the step, or neither does. -/
def Both {α : Type} (related : α → α → Prop) (left right : Option α) : Prop :=
  (left = none ∧ right = none) ∨ ∃ first second, left = some first ∧ right = some second ∧
    related first second

theorem Both.some {α : Type} {related : α → α → Prop} {first second : α}
    (holds : related first second) : Both related (some first) (some second) :=
  .inr ⟨first, second, rfl, rfl, holds⟩

theorem Alike.act (alike : Alike e other) (answer : Answer) (point : Point) :
    Both (fun moved otherMoved => otherMoved.2 = moved.2 ∧ Alike moved.1 otherMoved.1)
      (e.act around answer point) (other.act around answer point) := by
  cases point with
  | entering extDir dataDir => exact .some (alike.enter extDir dataDir answer.canonical)
  | isolating _ | creating _ _ | loadingAll =>
    simp only [RustEngine.act]
    split <;> exact .some ⟨rfl, alike⟩
  | reading arguments =>
    refine .some ⟨?_, alike⟩
    rw [alike.settings]
  | failing error =>
    obtain ⟨core, accepted, refused, dropped, both, rfl⟩ := alike
    exact .some ⟨rfl, _, _, _, _, both, rfl⟩
  | applying created => exact .some ⟨rfl, alike.publish created answer⟩
  | requiring => exact .some ⟨alike.require _ _ _, alike⟩
  | loading dirPath => exact .some ⟨alike.require _ _ _, alike⟩
  | comparing dirPath =>
    obtain ⟨core, accepted, refused, dropped, both, rfl⟩ := alike
    simp only [RustEngine.act]
    split <;> exact .some ⟨rfl, _, _, _, _, both, rfl⟩
  | reapplying =>
    obtain ⟨core, accepted, refused, dropped, both, rfl⟩ := alike
    simp only [RustEngine.act]
    cases isCore : e.core with
    | none =>
      rw [isCore] at both
      rw [Option.isNone_iff_eq_none.mp (Option.isSome_eq_false_iff.mp both)]
      exact .inl ⟨rfl, rfl⟩
    | some found =>
      rw [isCore] at both
      obtain ⟨otherFound, isOther⟩ := Option.isSome_iff_exists.mp both
      rw [isOther]
      exact .some ⟨rfl, some (e.reapply around otherFound answer.answers), _, _, _, rfl, rfl⟩
  | done => exact .inl ⟨rfl, rfl⟩

/-- What happens to one engine can happen to the other, and leaves the two alike. -/
theorem Alike.step (around : Surroundings) (alike : Alike e other) (event : Event) :
    Both Alike (e.step around event) (other.step around event) := by
  cases event with
  | setExtensionStorageMasterKey masterKey =>
    exact .some (alike.setExtensionStorageMasterKey masterKey)
  | setLyricsProviders json answers =>
    simp only [RustEngine.step, RustEngine.setLyricsProviders]
    split
    · exact .some alike
    · exact .some (alike.tellFirst _ _ _)
  | setLyricsFetchOptions json answers =>
    simp only [RustEngine.step, RustEngine.setLyricsFetchOptions]
    split
    · exact .some (alike.tellFirst _ _ _)
    · exact .some alike
  | setDownloadPriority json answers =>
    simp only [RustEngine.step, RustEngine.setDownloadPriority]
    split
    · exact .some alike
    · exact .some (alike.bufferFirst _ _ _ _)
  | setMetadataPriority json answers =>
    simp only [RustEngine.step, RustEngine.setMetadataPriority]
    split
    · exact .some alike
    · exact .some (alike.bufferFirst _ _ _ _)
  | setDownloadFallbackProviderIds json answers =>
    simp only [RustEngine.step, RustEngine.setDownloadFallbackProviderIds]
    split
    · exact .some alike
    · exact .some (alike.bufferFirst _ _ _ _)
  | addDownloadDir path canonical answers =>
    exact .some (alike.addDownloadDir path canonical answers)
  | setLibraryCoverCacheDir cacheDir canonical answers =>
    exact .some (alike.setLibraryCoverCacheDir cacheDir canonical answers)
  | initExtensionSystem _ _ | loadExtensionsFromDir _ =>
    obtain ⟨core, accepted, refused, dropped, both, rfl⟩ := alike
    exact .some ⟨_, _, _, _, both, rfl⟩
  | call position answer =>
    simp only [RustEngine.step]
    rw [alike.calls]
    cases e.calls[position]? with
    | none => exact .inl ⟨rfl, rfl⟩
    | some point =>
      rw [Option.bind_some, Option.bind_some]
      rcases alike.act answer point with ⟨stuck, otherStuck⟩ |
        ⟨⟨next, target⟩, ⟨otherNext, otherTarget⟩, acted, otherActed, same, after⟩
      · rw [stuck, otherStuck]
        exact .inl ⟨rfl, rfl⟩
      · rw [acted, otherActed]
        obtain rfl : otherTarget = target := same
        obtain ⟨core, accepted, refused, dropped, both, rfl⟩ := after
        exact .some ⟨core, accepted, refused, dropped, both, rfl⟩

theorem Alike.run (around : Surroundings) (alike : Alike e other) (events : List Event) :
    Both Alike ((RustEngine.machine around).run e events)
      ((RustEngine.machine around).run other events) := by
  induction events generalizing e other with
  | nil => exact .some alike
  | cons event rest ih =>
    unfold Machine.run
    rcases alike.step around event with ⟨stuck, otherStuck⟩ | ⟨next, otherNext,
      stepped, otherStepped, after⟩
    · rw [show (RustEngine.machine around).step e event = none from stuck,
        show (RustEngine.machine around).step other event = none from otherStuck]
      exact .inl ⟨rfl, rfl⟩
    · rw [show (RustEngine.machine around).step e event = some next from stepped,
        show (RustEngine.machine around).step other event = some otherNext from otherStepped]
      exact ih after

end Steps

/-! ## Setters -/

/-- What a getter of a priority reports: the text in the buffer, or what a ready core has
been told. -/
inductive Report
  | buffered (json : String)
  | told (ids : Option (List String))
  deriving DecidableEq, Repr

namespace RustEngine

variable (around : Surroundings) (e : RustEngine)

def priority (told : Core → Option (List String)) (buffered : Settings → Option String) :
    Report :=
  match e.readyCore with
  | none => .buffered ((buffered e.settings).getD "[]")
  | some core => .told (told core)

def getDownloadPriority : Report := e.priority Core.download Settings.downloadPriorityJson

def getMetadataPriority : Report := e.priority Core.metadata Settings.metadataPriorityJson

end RustEngine

/-- A setter fails that asks this of a ready core. -/
def RustEngine.refuses (e : RustEngine) (answers : List Bool) :
    Option (List (Option (Core → Core))) → Bool
  | none => true
  | some changes =>
    match e.readyCore with
    | none => false
    | some core => !(Talk.run ⟨core, answers⟩ changes).1

/-- The setters of a value that the buffer and the core have. -/
inductive Setter
  | setLyricsProviders (json : String)
  | setLyricsFetchOptions (json : String)
  | setDownloadPriority (json : String)
  | setMetadataPriority (json : String)
  | setDownloadFallbackProviderIds (json : String)
  | setDownloadDirectory (path : String) (canonical : Canonical)
  | setLibraryCoverCacheDir (cacheDir : String) (canonical : Canonical)

namespace Setter

variable (around : Surroundings) (e : RustEngine) (answers : List Bool)

/-- The engine behind the setter. -/
def apply : Setter → RustEngine
  | setLyricsProviders json => e.setLyricsProviders around json answers
  | setLyricsFetchOptions json => e.setLyricsFetchOptions around json answers
  | setDownloadPriority json => e.setDownloadPriority around json answers
  | setMetadataPriority json => e.setMetadataPriority around json answers
  | setDownloadFallbackProviderIds json => e.setDownloadFallbackProviderIds around json answers
  | setDownloadDirectory path canonical => e.addDownloadDir around path canonical answers
  | setLibraryCoverCacheDir cacheDir canonical =>
    e.setLibraryCoverCacheDir around cacheDir canonical answers

/-- What the setter asks of a ready core, with `none` for JSON that it throws at. -/
def changes : Setter → Option (List (Option (Core → Core)))
  | setLyricsProviders json =>
    (around.ids json).map fun _ => [some (Core.setLyricsProviders json)]
  | setLyricsFetchOptions json =>
    if around.isObject json then some [some (Core.setLyricsOptions json)] else none
  | setDownloadPriority json => (around.ids json).map fun ids => [some (Core.setDownload ids)]
  | setMetadataPriority json => (around.ids json).map fun ids => [some (Core.setMetadata ids)]
  | setDownloadFallbackProviderIds json =>
    (around.idsOrNull json).map fun ids => [some (Core.setFallback ids)]
  | setDownloadDirectory path canonical =>
    some (if Text.isBlank path then []
      else [allowAll around canonical
        (RustEngine.addDirectory (around.absolutePath path) e.settings).downloadDirs])
  | setLibraryCoverCacheDir cacheDir canonical =>
    some (if Text.isBlank cacheDir then [] else coverChanges around canonical cacheDir)

/-- The setter fails: the JSON is bad, or a ready core refuses the value. -/
def fails (setter : Setter) : Bool :=
  e.refuses answers (setter.changes around e)

/-- A value that the buffer does not have yet is written there before a ready core refuses
it. -/
def spoils : Setter → Prop
  | setLyricsProviders _ | setLyricsFetchOptions _ | setDownloadDirectory _ _ => False
  | setDownloadPriority json =>
    (around.ids json).isSome ∧ e.settings.downloadPriorityJson ≠ some json ∧
      e.readyCore.isSome ∧ answers.head? = some false
  | setMetadataPriority json =>
    (around.ids json).isSome ∧ e.settings.metadataPriorityJson ≠ some json ∧
      e.readyCore.isSome ∧ answers.head? = some false
  | setDownloadFallbackProviderIds json =>
    (around.idsOrNull json).isSome ∧ e.settings.fallbackIdsJson ≠ some json ∧
      e.readyCore.isSome ∧ answers.head? = some false
  | setLibraryCoverCacheDir cacheDir canonical =>
    Text.isBlank cacheDir = false ∧ e.settings.coverCacheDir ≠ some cacheDir ∧
      e.readyCore.isSome ∧ (aliases around canonical cacheDir = none ∨ false ∈ answers.take 2)

end Setter

/-- Nothing is left of a value: the buffer is what it was, the getters report what they
reported, and the buffer stays what it would have been without the call, whatever happens
later. -/
structure Atomic (around : Surroundings) (e after : RustEngine) : Prop where
  settings : after.settings = e.settings
  download : after.getDownloadPriority = e.getDownloadPriority
  metadata : after.getMetadataPriority = e.getMetadataPriority
  later : ∀ events, Both (fun left right => right.settings = left.settings)
    ((RustEngine.machine around).run e events) ((RustEngine.machine around).run after events)

section Failures

variable {around : Surroundings} {e : RustEngine} {answers : List Bool}

theorem core_of_readyCore {core : Core} (ready : e.readyCore = some core) : e.core = some core := by
  unfold RustEngine.readyCore at ready
  split at ready
  · exact ready
  · cases ready

/-- A core that has kept its priorities hides a failure. -/
theorem atomic_of_core {core : Option Core} (refused : Refused)
    (download : core.map Core.download = e.core.map Core.download)
    (metadata : core.map Core.metadata = e.core.map Core.metadata) :
    Atomic around e { e with core, refused } := by
  have both : core.isSome = e.core.isSome := by
    rw [← Option.isSome_map (f := Core.download), download, Option.isSome_map]
  have alike : Alike e { e with core, refused } := ⟨_, _, _, _, both, rfl⟩
  have report {told : Core → Option (List String)} (buffered : Settings → Option String)
      (kept : core.map told = e.core.map told) :
      ({ e with core, refused } : RustEngine).priority told buffered = e.priority told buffered := by
    unfold RustEngine.priority RustEngine.readyCore
    by_cases ready : e.state = .ready
    · simp only [if_pos ready]
      generalize e.core = before at kept
      cases core with
      | none =>
        cases before with
        | none => rfl
        | some core => cases kept
      | some core =>
        cases before with
        | none => cases kept
        | some before => exact congrArg Report.told (Option.some.inj kept)
    · simp only [if_neg ready]
  exact
    { settings := rfl
      download := report _ download
      metadata := report _ metadata
      later := fun events => by
        rcases alike.run around events with stuck | ⟨left, right, ran, otherRan, after⟩
        · exact .inl stuck
        · exact .inr ⟨left, right, ran, otherRan, after.settings⟩ }

theorem atomic_refl : Atomic around e e :=
  atomic_of_core e.refused rfl rfl

theorem run_single (talk : Talk) (change : Option (Core → Core)) :
    (talk.run [change]).1 = (talk.attempt change).1 := by
  unfold Talk.run
  cases talk.attempt change with
  | mk ok next => cases ok <;> rfl

theorem refuses_single (change : Core → Core) : e.refuses answers (some [some change]) = true ↔
      e.readyCore.isSome ∧ answers.head? = some false := by
  unfold RustEngine.refuses
  cases e.readyCore with
  | none => simp
  | some core =>
    dsimp only
    rw [run_single]
    rcases answers with _ | ⟨_ | _, rest⟩ <;> simp [Talk.attempt]

variable {change : Core → Core}

theorem tell_of_refuses (refused : e.refuses answers (some [some change]) = true) :
    e.tell (some change) answers = (false, e.core) := by
  obtain ⟨ready, answer⟩ := (refuses_single change).mp refused
  obtain ⟨core, isCore⟩ := Option.isSome_iff_exists.mp ready
  obtain ⟨rest, rfl⟩ := List.head?_eq_some_iff.mp answer
  unfold RustEngine.tell
  rw [isCore, core_of_readyCore isCore]
  rfl

variable {buffer : Settings → Settings}

theorem tellFirst_atomic (refused : e.refuses answers (some [some change]) = true) :
    Atomic around e (e.tellFirst buffer change answers) := by
  rw [tellFirst_eq, tell_of_refuses refused]
  exact atomic_refl

/-- A setter that writes the buffer first is atomic when it fails if it has nothing new to
write there. -/
theorem bufferFirst_atomic_iff {mark : Bool → Refused → Refused}
    (refused : e.refuses answers (some [some change]) = true) :
    Atomic around e (e.bufferFirst buffer mark change answers) ↔ buffer e.settings = e.settings := by
  unfold RustEngine.bufferFirst
  rw [tell_of_refuses refused]
  refine ⟨fun atomic => atomic.settings, fun same => ?_⟩
  rw [same]
  exact atomic_of_core _ rfl rfl

theorem bufferFirst_iff {α : Type} {parsed : Option α} {after : RustEngine} {fresh : Prop}
    (buffer : Settings → Settings) (mark : Bool → Refused → Refused) (change : α → Core → Core)
    (isFresh : buffer e.settings = e.settings ↔ ¬fresh) (bad : parsed = none → after = e)
    (told : ∀ value, parsed = some value → after = e.bufferFirst buffer mark (change value) answers) :
    (e.refuses answers (parsed.map fun value => [some (change value)]) = true →
        Atomic around e after) ↔
      ¬(parsed.isSome ∧ fresh ∧ e.readyCore.isSome ∧ answers.head? = some false) := by
  cases parsed with
  | none =>
    rw [bad rfl]
    exact ⟨fun _ spoilt => Bool.noConfusion spoilt.1, fun _ _ => atomic_refl⟩
  | some value =>
    rw [told value rfl, Option.map_some]
    constructor
    · rintro atomic ⟨-, new, refused⟩
      have refuses := (refuses_single (change value)).mpr refused
      exact isFresh.mp ((bufferFirst_atomic_iff refuses).mp (atomic refuses)) new
    · intro unspoilt refuses
      have refused := (refuses_single (change value)).mp refuses
      exact (bufferFirst_atomic_iff refuses).mpr
        (isFresh.mpr fun new => unspoilt ⟨rfl, new, refused⟩)

variable {canonical : Canonical}

theorem addDownloadDir_atomic {path : String}
    (fails : (Setter.setDownloadDirectory path canonical).fails around e answers = true) :
    Atomic around e (e.addDownloadDir around path canonical answers) := by
  unfold RustEngine.addDownloadDir
  split
  · exact atomic_refl
  next filled =>
    simp only [Setter.fails, Setter.changes, if_neg filled, RustEngine.refuses] at fails
    cases isCore : e.readyCore with
    | none =>
      rw [isCore] at fails
      cases fails
    | some core =>
      rw [isCore] at fails
      simp only [run_single] at fails
      dsimp only
      split
      next talk attempted =>
        rw [attempted] at fails
        cases fails
      next talk attempted =>
        -- Whatever the core says to the old directories, its priorities stay.
        have same : talk.core = core := Talk.attempt_spec attempted
        have restored : ∀ after, talk.attempt
            (allowAll around canonical e.settings.downloadDirs) = after →
            after.2.core.download = core.download ∧ after.2.core.metadata = core.metadata := by
          rintro ⟨ok, next⟩ again
          have spec := Talk.attempt_spec again
          cases ok with
          | true =>
            obtain ⟨apply, isApply, changed⟩ := spec
            obtain ⟨directories, -, rfl⟩ := Option.map_eq_some_iff.mp isApply
            rw [changed, same]
            exact ⟨rfl, rfl⟩
          | false =>
            rw [show next.core = talk.core from spec, same]
            exact ⟨rfl, rfl⟩
        obtain ⟨download, metadata⟩ := restored _ rfl
        refine atomic_of_core e.refused ?_ ?_
        · rw [core_of_readyCore isCore, Option.map_some, Option.map_some, download]
        · rw [core_of_readyCore isCore, Option.map_some, Option.map_some, metadata]

variable {cacheDir : String}

theorem coverChanges_refused (core : Core) :
    (Talk.run ⟨core, answers⟩ (coverChanges around canonical cacheDir)).1 = false ↔
      aliases around canonical cacheDir = none ∨ false ∈ answers.take 2 := by
  unfold coverChanges
  cases aliases around canonical cacheDir with
  | none => simp [Talk.run, Talk.attempt]
  | some paths =>
    rcases answers with _ | ⟨_ | _, _ | ⟨_ | _, rest⟩⟩ <;> simp [Talk.run, Talk.attempt]

theorem coverChanges_core {core : Core} {next : Talk}
    (ran : Talk.run ⟨core, answers⟩ (coverChanges around canonical cacheDir) = (false, next)) :
    next.core = core := by
  unfold coverChanges at ran
  cases isAliases : aliases around canonical cacheDir with
  | none =>
    rw [isAliases] at ran
    cases ran
    rfl
  | some paths =>
    rw [isAliases] at ran
    rcases answers with _ | ⟨_ | _, _ | ⟨_ | _, rest⟩⟩ <;>
      simp only [Talk.run, Talk.attempt, Option.map_some, Prod.mk.injEq, Bool.true_eq_false,
        false_and] at ran <;>
      rw [← ran.2]

theorem setLibraryCoverCacheDir_iff :
    ((Setter.setLibraryCoverCacheDir cacheDir canonical).fails around e answers = true →
        Atomic around e (e.setLibraryCoverCacheDir around cacheDir canonical answers)) ↔
      ¬(Setter.setLibraryCoverCacheDir cacheDir canonical).spoils around e answers := by
  simp only [Setter.fails, Setter.changes, Setter.spoils, RustEngine.refuses]
  unfold RustEngine.setLibraryCoverCacheDir
  cases blank : Text.isBlank cacheDir with
  | true => simp [atomic_refl]
  | false =>
    cases isCore : e.readyCore with
    | none => simp
    | some core =>
      simp only [Bool.false_eq_true, if_false, Option.isSome_some, true_and, Bool.not_eq_true',
        ← coverChanges_refused core]
      cases ran : Talk.run ⟨core, answers⟩ (coverChanges around canonical cacheDir) with
      | mk ok talk =>
        cases ok with
        | true => simp
        | false =>
          dsimp only
          rw [coverChanges_core ran, ← core_of_readyCore isCore]
          constructor
          · rintro atomic ⟨fresh, -⟩
            have settings := (atomic rfl).settings
            exact fresh (congrArg Settings.coverCacheDir settings).symm
          · intro unspoilt _
            have same : e.settings.coverCacheDir = some cacheDir := by
              by_contra fresh
              exact unspoilt ⟨fresh, rfl⟩
            rw [← same]
            exact atomic_of_core e.refused rfl rfl

/-- A setter that fails leaves nothing of its value behind, in exactly the cases in which it
does not write a new value before a ready core refuses it. -/
theorem failed_setter_iff (around : Surroundings) (e : RustEngine) (answers : List Bool)
    (setter : Setter) :
    (setter.fails around e answers = true → Atomic around e (setter.apply around e answers)) ↔
      ¬setter.spoils around e answers := by
  cases setter with
  | setLyricsProviders json =>
    refine ⟨fun _ spoilt => spoilt, fun _ fails => ?_⟩
    simp only [Setter.fails, Setter.changes] at fails
    simp only [Setter.apply, RustEngine.setLyricsProviders]
    split
    · exact atomic_refl
    next ids parsed =>
      rw [parsed, Option.map_some] at fails
      exact tellFirst_atomic fails
  | setLyricsFetchOptions json =>
    refine ⟨fun _ spoilt => spoilt, fun _ fails => ?_⟩
    simp only [Setter.fails, Setter.changes] at fails
    simp only [Setter.apply, RustEngine.setLyricsFetchOptions]
    split
    next isObject =>
      rw [if_pos isObject] at fails
      exact tellFirst_atomic fails
    · exact atomic_refl
  | setDownloadPriority json =>
    refine bufferFirst_iff ({ · with downloadPriorityJson := some json })
      (fun refused => ({ · with download := refused })) Core.setDownload
      ⟨fun same => not_not.mpr (congrArg Settings.downloadPriorityJson same).symm, fun same => ?_⟩
      (fun bad => ?_) (fun ids parsed => ?_)
    · rw [← not_not.mp same]
    · simp only [Setter.apply, RustEngine.setDownloadPriority, bad]
    · simp only [Setter.apply, RustEngine.setDownloadPriority, parsed]
  | setMetadataPriority json =>
    refine bufferFirst_iff ({ · with metadataPriorityJson := some json })
      (fun refused => ({ · with metadata := refused })) Core.setMetadata
      ⟨fun same => not_not.mpr (congrArg Settings.metadataPriorityJson same).symm, fun same => ?_⟩
      (fun bad => ?_) (fun ids parsed => ?_)
    · rw [← not_not.mp same]
    · simp only [Setter.apply, RustEngine.setMetadataPriority, bad]
    · simp only [Setter.apply, RustEngine.setMetadataPriority, parsed]
  | setDownloadFallbackProviderIds json =>
    refine bufferFirst_iff ({ · with fallbackIdsJson := some json })
      (fun refused => ({ · with fallback := refused })) Core.setFallback
      ⟨fun same => not_not.mpr (congrArg Settings.fallbackIdsJson same).symm, fun same => ?_⟩
      (fun bad => ?_) (fun ids parsed => ?_)
    · rw [← not_not.mp same]
    · simp only [Setter.apply, RustEngine.setDownloadFallbackProviderIds, bad]
    · simp only [Setter.apply, RustEngine.setDownloadFallbackProviderIds, parsed]
  | setDownloadDirectory path canonical =>
    exact ⟨fun _ spoilt => spoilt, fun _ fails => addDownloadDir_atomic fails⟩
  | setLibraryCoverCacheDir cacheDir canonical => exact setLibraryCoverCacheDir_iff

end Failures

/-- A ready core refuses a priority, which stays in the buffer and is what the core has been
told once the extensions are loaded. -/
theorem failed_setter_replayed : (¬∀ (around : Surroundings) (e : RustEngine),
      (RustEngine.machine around).Reachable Machine.anyStep e →
      ∀ (answers : List Bool) (setter : Setter), setter.fails around e answers = true →
        Atomic around e (setter.apply around e answers)) ∧
      (((RustEngine.machine plain).run .new loadEvents).any fun e =>
        decide (e.accepted.downloadPriorityJson = none) &&
          decide (e.getDownloadPriority = .told (some []))) = true := by
  constructor
  · intro atomic
    obtain ⟨e, reachable, spoilt⟩ := (RustEngine.machine plain).exists_reachable_of_run
        (fun e => (Setter.setDownloadPriority "[]").fails plain e [false] &&
          decide (e.settings.downloadPriorityJson = none)) rfl
        (show ((RustEngine.machine plain).run RustEngine.new (initializeEvents [])).any _ = true by
          decide)
    rw [Bool.and_eq_true, decide_eq_true_eq] at spoilt
    have kept := (atomic plain e reachable [false] (.setDownloadPriority "[]") spoilt.1).settings
    have buffered := congrArg Settings.downloadPriorityJson kept
    rw [spoilt.2] at buffered
    cases buffered
  · decide

end LosslessMusic.Engine
