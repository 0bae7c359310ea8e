import LosslessMusic.Notifiers.AsyncValue
import LosslessMusic.Transition.Machine
import Mathlib.Logic.Function.Basic

/-!
# The home feed

`home_feed_provider.dart`: the controller is built again when the extensions or the chosen
source change, and its fetches publish what they get by themselves. Between two waits of a
build or of a fetch there is one step. A feed knows the extension it was fetched from.
-/

namespace LosslessMusic.Notifiers

open Transition (Machine)

def homeFeedSourceOff : String := "__off__"

/-- What is read of `InstalledExtension`. -/
structure InstalledExtension where
  id : String
  enabled : Bool
  hasHomeFeed : Bool
  deriving DecidableEq, Repr

/-- Sections with the extension that they were fetched from. -/
structure Feed (σ : Type) where
  origin : String
  sections : List σ
  deriving DecidableEq, Repr

/-- No sections. -/
def Feed.empty {σ : Type} : Feed σ :=
  ⟨"", []⟩

/-- No sections, or sections of this extension. -/
def Feed.Of {σ : Type} (feed : Feed σ) (extId : Option String) : Prop :=
  feed.sections = [] ∨ extId = some feed.origin

instance {σ : Type} (feed : Feed σ) (extId : Option String) : Decidable (feed.Of extId) :=
  decidable_of_iff (feed.sections.isEmpty = true ∨ extId = some feed.origin)
    (by rw [List.isEmpty_iff]; exact Iff.rfl)

/-- Who awaits a fetch: nobody, a build, or a refresh by hand. -/
inductive Awaiter
  | nobody
  | build
  | refresh
  deriving DecidableEq, Repr

/-- Where `_fetchAndStore` is. -/
inductive FetchPhase (σ : Type)
  | asking
  | cachingSections (sections : List σ)
  | cachingTime (sections : List σ)
  | publishing (sections : List σ)
  | returned (feed : Feed σ)
  | done
  deriving DecidableEq, Repr

/-- A call of `_fetchAndStore`. -/
structure Fetch (σ : Type) where
  extId : String
  awaiter : Awaiter
  phase : FetchPhase σ := .asking
  deriving DecidableEq, Repr

/-- Where the current `build` is, and for which extension. -/
inductive Build (σ : Type)
  | awaitingExtensions
  | awaitingPreferences (extId : String)
  | awaitingFetch (extId : String) (fetch : Nat)
  | ready (extId : Option String) (feed : Feed σ)
  deriving DecidableEq, Repr

/-- The controller with what it watches, the caches, and all fetches there have been. The
last field records whether a build for the source that is resolved now has completed since
this became the source. -/
structure HomeFeedController (ε σ : Type) where
  exts : List InstalledExtension := []
  source : Option String := none
  cached : String → Option (Feed σ)
  cachedAt : String → Nat
  state : AsyncValue ε (Feed σ) := .loading none
  dirty : Bool := false
  build : Option (Build σ) := some .awaitingExtensions
  fetches : List (Fetch σ) := []
  built : Bool := false

/-- What happens; a fetch is answered with sections or fails. -/
inductive FeedEvent (σ : Type)
  | setSource (value : Option String)
  | setExtensions (exts : List InstalledExtension)
  | rebuild
  | resolve
  | readCache (now : Nat)
  | finish
  | refresh
  | answer (fetch : Nat) (answer : Option (List σ))
  | cacheSections (fetch : Nat)
  | cacheTime (fetch : Nat) (now : Nat)
  | publish (fetch : Nat)
  | refreshed (fetch : Nat)

namespace HomeFeedController

variable {ε σ : Type} (keeps : Bool) (s : HomeFeedController ε σ)

/-- `_ttl` in milliseconds. -/
def ttl : Nat := 6 * 60 * 60 * 1000

/-- `_resolve`. -/
def resolveIn (exts : List InstalledExtension) (source : Option String) :
    Option InstalledExtension :=
  if source = some homeFeedSourceOff then none
  else
    let capable := exts.filter fun ext => ext.enabled && ext.hasHomeFeed
    match source with
    | none => capable.head?
    | some source =>
      if source = "" then capable.head?
      else (capable.find? (·.id = source)).or capable.head?

/-- The id of the extension that is resolved now. -/
def resolved : Option String :=
  (resolveIn s.exts s.source).map InstalledExtension.id

/-- The current build has read the source, or there is none. -/
def watchesSource : Bool :=
  match s.build with
  | some .awaitingExtensions => false
  | _ => true

/-- What is watched changes. -/
def watch (exts : List InstalledExtension) (source : Option String) (dirty : Bool) :
    HomeFeedController ε σ :=
  let next := { s with exts, source, dirty }
  { next with built := s.built && next.resolved = s.resolved }

/-- `set` of the chosen source. A build that still awaits the extensions reads it later. -/
def setSource (value : Option String) : HomeFeedController ε σ :=
  if value = s.source then s
  else s.watch s.exts value (s.dirty || s.watchesSource)

/-- A fetch begins. -/
def fetch (extId : String) (awaiter : Awaiter) : HomeFeedController ε σ :=
  { s with fetches := s.fetches ++ [{ extId, awaiter }] }

/-- A build begins again, and the last value is kept meanwhile. -/
def rebuild : Option (HomeFeedController ε σ) :=
  if s.dirty then
    some
      { s with
        dirty := false
        build := some .awaitingExtensions
        state := .loading s.state.value? }
  else none

/-- The build has the extensions and reads the source. -/
def resolve : Option (HomeFeedController ε σ) :=
  match s.build with
  | some .awaitingExtensions =>
    some
      { s with
        build := some (match s.resolved with
          | none => .ready none .empty
          | some extId => .awaitingPreferences extId) }
  | _ => none

/-- The cache of the extension is fresh, stale, or holds no sections. -/
def readCache (now : Nat) : Option (HomeFeedController ε σ) :=
  match s.build with
  | some (.awaitingPreferences extId) =>
    let cached := (s.cached extId).getD .empty
    let fresh := s.cachedAt extId ≠ 0 && now < s.cachedAt extId + ttl
    some (if !cached.sections.isEmpty then
        if fresh then { s with build := some (.ready (some extId) cached) }
        else { s.fetch extId .nobody with build := some (.ready (some extId) cached) }
      else
        { s.fetch extId .build with
          build := some (.awaitingFetch extId s.fetches.length) })
  | _ => none

/-- What a build has come to is published. -/
def complete (extId : Option String) (feed : Feed σ) : HomeFeedController ε σ :=
  { s with build := none, state := .data feed, built := s.built || extId = s.resolved }

/-- The build returns. -/
def finish : Option (HomeFeedController ε σ) :=
  match s.build with
  | some (.ready extId feed) => some (s.complete extId feed)
  | some (.awaitingFetch extId fetch) =>
    match s.fetches[fetch]? with
    | some { phase := .returned feed, .. } => some (s.complete (some extId) feed)
    | _ => none
  | _ => none

/-- `refresh` up to its wait. -/
def refresh : HomeFeedController ε σ :=
  match s.resolved with
  | none => { s with state := .data .empty }
  | some extId => { s.fetch extId .refresh with state := .loading (s.state.kept keeps) }

/-- A fetch goes on. -/
def goTo (position : Nat) (fetch : Fetch σ) (phase : FetchPhase σ) : HomeFeedController ε σ :=
  { s with fetches := s.fetches.set position { fetch with phase } }

/-- `catch (_)`: the value that is there is returned. -/
def fail (position : Nat) (fetch : Fetch σ) : HomeFeedController ε σ :=
  s.goTo position fetch (.returned (s.state.value?.getD .empty))

/-- What the fetch awaits is there, or it fails. -/
def answer (position : Nat) (fetch : Fetch σ) (answer : Option (List σ)) :
    Option (HomeFeedController ε σ) :=
  match fetch.phase, answer with
  | .asking, some sections =>
    some (if sections.isEmpty then s.goTo position fetch (.returned ⟨fetch.extId, sections⟩)
      else s.goTo position fetch (.cachingSections sections))
  | .asking, none | .cachingSections _, none | .cachingTime _, none => some (s.fail position fetch)
  | _, _ => none

/-- `setString` of the sections. -/
def cacheSections (position : Nat) (fetch : Fetch σ) : Option (HomeFeedController ε σ) :=
  match fetch.phase with
  | .cachingSections sections =>
    some
      { s.goTo position fetch (.cachingTime sections) with
        cached := Function.update s.cached fetch.extId (some ⟨fetch.extId, sections⟩) }
  | _ => none

/-- `setInt` of the time. -/
def cacheTime (position : Nat) (fetch : Fetch σ) (now : Nat) : Option (HomeFeedController ε σ) :=
  match fetch.phase with
  | .cachingTime sections =>
    some
      { s.goTo position fetch (.publishing sections) with
        cachedAt := Function.update s.cachedAt fetch.extId now }
  | _ => none

/-- `state = AsyncData(sections)`. -/
def publish (position : Nat) (fetch : Fetch σ) : Option (HomeFeedController ε σ) :=
  match fetch.phase with
  | .publishing sections =>
    some
      { s.goTo position fetch (.returned ⟨fetch.extId, sections⟩) with
        state := .data ⟨fetch.extId, sections⟩ }
  | _ => none

/-- A refresh by hand publishes what its fetch has returned. -/
def refreshed (position : Nat) (fetch : Fetch σ) : Option (HomeFeedController ε σ) :=
  match fetch.awaiter, fetch.phase with
  | .refresh, .returned feed => some { s.goTo position fetch .done with state := .data feed }
  | _, _ => none

/-- One event. -/
def step : FeedEvent σ → Option (HomeFeedController ε σ)
  | .setSource value => some (s.setSource value)
  | .setExtensions exts => some (s.watch exts s.source true)
  | .rebuild => s.rebuild
  | .resolve => s.resolve
  | .readCache now => s.readCache now
  | .finish => s.finish
  | .refresh => some (s.refresh keeps)
  | .answer position answer => (s.fetches[position]?).bind (s.answer position · answer)
  | .cacheSections position => (s.fetches[position]?).bind (s.cacheSections position)
  | .cacheTime position now => (s.fetches[position]?).bind (s.cacheTime position · now)
  | .publish position => (s.fetches[position]?).bind (s.publish position)
  | .refreshed position => (s.fetches[position]?).bind (s.refreshed position)

/-- The caches hold what was fetched from their extension. -/
def CachesOwn (cached : String → Option (Feed σ)) : Prop :=
  ∀ extId feed, cached extId = some feed → feed.origin = extId

/-- The controller as a machine. It is built for the first time, with any extensions, any
source, and caches of earlier runs. -/
def machine : Machine (HomeFeedController ε σ) (FeedEvent σ) where
  Start s := CachesOwn s.cached ∧
    s = { exts := s.exts, source := s.source, cached := s.cached, cachedAt := s.cachedAt }
  step s := s.step keeps

/-! ## Feeds of their source -/

/-- What is promised: once a build for the source has completed, what is published was
fetched from it. -/
def OfSource (s : HomeFeedController ε σ) : Prop :=
  s.built = true → ∀ feed, s.state.value? = some feed → feed.Of s.resolved

/-- What a fetch returns will be published. -/
def isAwaited (position : Nat) (fetch : Fetch σ) : Bool :=
  match fetch.awaiter, s.build with
  | .nobody, _ => false
  | .build, some (.awaitingFetch _ awaited) => awaited = position
  | .build, _ => false
  | .refresh, _ => true

/-- The extension of the fetch is the source, or no build for the source has completed. -/
def isCurrent (fetch : Fetch σ) : Bool :=
  !s.built || s.resolved = some fetch.extId

/-- The condition: a fetch publishes only while its extension is the source, and one that is
awaited fails only while nothing of another extension is shown. -/
def keepsApart : FeedEvent σ → Bool
  | .publish position => (s.fetches[position]?).all s.isCurrent
  | .refreshed position =>
    (s.fetches[position]?).all fun fetch =>
      s.isCurrent fetch ||
        match fetch.phase with
        | .returned feed => feed.sections.isEmpty
        | _ => true
  | .answer position none =>
    (s.fetches[position]?).all fun fetch =>
      !s.isAwaited position fetch ||
        s.state.value?.all fun feed => decide (feed.Of (some fetch.extId))
  | _ => true

section

variable {keeps : Bool} {s : HomeFeedController ε σ}

/-- The extension that a build is for, when it is known. -/
def target? (s : HomeFeedController ε σ) : Option (Option String) :=
  match s.build with
  | none | some .awaitingExtensions => none
  | some (.awaitingPreferences extId) | some (.awaitingFetch extId _) => some (some extId)
  | some (.ready extId _) => some extId

/-- What holds of the feeds that are cached, on their way, and shown. -/
structure Apart (s : HomeFeedController ε σ) : Prop where
  caches : CachesOwn s.cached
  target : s.built = true → ∀ extId, s.target? = some extId → extId = s.resolved
  ready : ∀ extId feed, s.build = some (.ready extId feed) → feed.Of extId
  awaited : ∀ extId position, s.build = some (.awaitingFetch extId position) →
    ∃ fetch, s.fetches[position]? = some fetch ∧ fetch.extId = extId ∧ fetch.awaiter = .build
  returned : ∀ (position : Nat) fetch feed, s.fetches[position]? = some fetch →
    s.isAwaited position fetch = true → fetch.phase = .returned feed →
    feed.Of (some fetch.extId)
  shown : s.OfSource

theorem Feed.empty_of (extId : Option String) : (Feed.empty : Feed σ).Of extId :=
  .inl rfl

theorem apart_start (starts : (machine (ε := ε) (σ := σ) keeps).Start s) : s.Apart := by
  obtain ⟨own, same⟩ := starts
  rw [same]
  exact
    { caches := own
      target := nofun
      ready := nofun
      awaited := nofun
      returned := nofun
      shown := nofun }

theorem apart_show (apart : s.Apart) {shown : AsyncValue ε (Feed σ)}
    (of : s.built = true → ∀ feed, shown.value? = some feed → feed.Of s.resolved) :
    ({ s with state := shown } : HomeFeedController ε σ).Apart :=
  ⟨apart.caches, apart.target, apart.ready, apart.awaited, apart.returned, of⟩

variable {fetch : Fetch σ} {position : Nat}

/-- A fetch goes on, and what it returns is of its extension if it is awaited. -/
theorem apart_goTo (apart : s.Apart)
    (found : s.fetches[position]? = some fetch) {phase : FetchPhase σ}
    (returns : ∀ feed, phase = .returned feed → s.isAwaited position fetch = true →
      feed.Of (some fetch.extId)) : (s.goTo position fetch phase).Apart := by
  have bound : position < s.fetches.length := (List.getElem?_eq_some_iff.mp found).1
  refine ⟨apart.caches, apart.target, apart.ready, fun extId other isBuild => ?_,
    fun other one feed isOne awaited isPhase => ?_, apart.shown⟩
  · obtain ⟨one, isOne, same, awaiter⟩ := apart.awaited extId other isBuild
    show ∃ fetch', (s.fetches.set position { fetch with phase })[other]? = some fetch' ∧ _
    by_cases here : position = other
    · subst here
      rw [found] at isOne
      cases isOne
      exact ⟨_, List.getElem?_set_self bound, same, awaiter⟩
    · exact ⟨one, by rw [List.getElem?_set_ne here]; exact isOne, same, awaiter⟩
  · change (s.fetches.set position { fetch with phase })[other]? = some one at isOne
    by_cases here : position = other
    · subst here
      rw [List.getElem?_set_self bound] at isOne
      cases isOne
      exact returns feed isPhase awaited
    · rw [List.getElem?_set_ne here] at isOne
      exact apart.returned other one feed isOne awaited isPhase

theorem apart_cache (apart : s.Apart) {cached : String → Option (Feed σ)}
    (cachedAt : String → Nat) (own : CachesOwn cached) :
    ({ s with cached, cachedAt } : HomeFeedController ε σ).Apart :=
  ⟨own, apart.target, apart.ready, apart.awaited, apart.returned, apart.shown⟩

theorem apart_fetch (apart : s.Apart) (extId : String) (awaiter : Awaiter) :
    (s.fetch extId awaiter).Apart := by
  refine ⟨apart.caches, apart.target, apart.ready, fun other position isBuild => ?_,
    fun position one feed isOne awaited isPhase => ?_, apart.shown⟩
  · obtain ⟨one, isOne, rest⟩ := apart.awaited other position isBuild
    have bound : position < s.fetches.length := (List.getElem?_eq_some_iff.mp isOne).1
    exact ⟨one, (List.getElem?_append_left bound).trans isOne, rest⟩
  · change (s.fetches ++ [({ extId, awaiter } : Fetch σ)])[position]? = some one at isOne
    rcases Nat.lt_or_ge position s.fetches.length with old | new
    · rw [List.getElem?_append_left old] at isOne
      exact apart.returned position one feed isOne awaited isPhase
    · rw [List.getElem?_append_right new] at isOne
      rw [List.mem_singleton.mp (List.mem_of_getElem? isOne)] at isPhase
      cases isPhase

/-- What a build awaits changes, and it is awaited by nothing that has returned. -/
theorem apart_build (apart : s.Apart) {build : Option (Build σ)} (target : s.built = true → ∀ extId,
      ({ s with build } : HomeFeedController ε σ).target? = some extId → extId = s.resolved)
    (ready : ∀ extId feed, build = some (.ready extId feed) → feed.Of extId)
    (idle : ∀ extId position, build ≠ some (.awaitingFetch extId position)) :
    ({ s with build } : HomeFeedController ε σ).Apart := by
  refine ⟨apart.caches, target, ready, fun extId position isBuild => ?_,
    fun position fetch feed found awaited isPhase => ?_, apart.shown⟩
  · exact absurd isBuild (idle extId position)
  · refine apart.returned position fetch feed found ?_ isPhase
    unfold isAwaited at awaited ⊢
    dsimp only at awaited
    cases isAwaiter : fetch.awaiter with
    | refresh => rfl
    | nobody =>
      rw [isAwaiter] at awaited
      cases awaited
    | build =>
      rw [isAwaiter] at awaited
      match build, idle, awaited with
      | some (.awaitingFetch extId other), idle, _ => exact absurd rfl (idle extId other)

theorem apart_watch (apart : s.Apart) (exts : List InstalledExtension) (source : Option String)
    (dirty : Bool) : (s.watch exts source dirty).Apart := by
  have stays (built : (s.watch exts source dirty).built = true) :
      s.built = true ∧ (s.watch exts source dirty).resolved = s.resolved := by
    obtain ⟨before, same⟩ := Bool.and_eq_true_iff.mp built
    exact ⟨before, of_decide_eq_true same⟩
  refine ⟨apart.caches, fun built extId isTarget => ?_, apart.ready, apart.awaited,
    apart.returned, fun built feed isFeed => ?_⟩
  · obtain ⟨before, same⟩ := stays built
    rw [same]
    exact apart.target before extId isTarget
  · obtain ⟨before, same⟩ := stays built
    rw [same]
    exact apart.shown before feed isFeed

variable {next : HomeFeedController ε σ}

theorem apart_rebuild (apart : s.Apart) (rebuilt : s.rebuild = some next) : next.Apart := by
  unfold rebuild at rebuilt
  split at rebuilt
  · cases rebuilt
    have begins : ({ s with build := some .awaitingExtensions } : HomeFeedController ε σ).Apart :=
      apart_build apart nofun nofun nofun
    exact apart_show (s := { s with dirty := false, build := some .awaitingExtensions })
      ⟨begins.caches, begins.target, begins.ready, begins.awaited, begins.returned, begins.shown⟩
      apart.shown
  · cases rebuilt

theorem apart_resolve (apart : s.Apart) (resolves : s.resolve = some next) : next.Apart := by
  unfold resolve at resolves
  split at resolves
  · cases resolves
    cases isResolved : s.resolved with
    | none =>
      refine apart_build apart (fun _ extId isTarget => ?_) ?_ nofun
      · rw [isResolved]
        exact (Option.some.inj isTarget).symm
      · rintro _ _ ⟨⟩
        exact Feed.empty_of none
    | some extId =>
      refine apart_build apart (fun _ other isTarget => ?_) nofun nofun
      rw [isResolved]
      exact (Option.some.inj isTarget).symm
  · cases resolves

theorem apart_readCache (apart : s.Apart) {now : Nat}
    (reads : s.readCache now = some next) : next.Apart := by
  unfold readCache at reads
  split at reads
  next extId isBuild =>
    have target (built : s.built = true) : some extId = s.resolved :=
      apart.target built _ (by rw [target?, isBuild])
    have own : ((s.cached extId).getD .empty).Of (some extId) := by
      cases isCached : s.cached extId with
      | none => exact Feed.empty_of _
      | some feed => exact .inr (congrArg some (apart.caches extId feed isCached).symm)
    have ready {one : HomeFeedController ε σ} (apart : one.Apart)
        (same : one.built = s.built ∧ one.resolved = s.resolved) :
        ({ one with
          build := some (.ready (some extId) ((s.cached extId).getD .empty)) } :
            HomeFeedController ε σ).Apart := by
      refine apart_build apart (fun built other isTarget => ?_) ?_ nofun
      · rw [same.1] at built
        rw [same.2, ← target built]
        exact (Option.some.inj isTarget).symm
      · rintro _ _ ⟨⟩
        exact own
    dsimp only at reads
    split at reads
    · split at reads
      · cases reads
        exact ready apart ⟨rfl, rfl⟩
      · cases reads
        exact ready (apart_fetch apart extId .nobody) ⟨rfl, rfl⟩
    · cases reads
      -- the build awaits the fetch that begins here
      have begins := apart_fetch apart extId .build
      have last : (s.fetch extId .build).fetches[s.fetches.length]? =
          some { extId, awaiter := .build } := List.getElem?_concat_length
      refine ⟨begins.caches, fun built other isTarget => ?_, nofun, ?_,
        fun position fetch feed found awaited isPhase => ?_, begins.shown⟩
      · rw [← Option.some.inj isTarget]
        exact target built
      · rintro _ _ ⟨⟩
        exact ⟨_, last, rfl, rfl⟩
      · by_cases here : position = s.fetches.length
        · subst here
          rw [show _ = _ from found.symm.trans last |> Option.some.inj] at isPhase
          cases isPhase
        · refine begins.returned position fetch feed found ?_ isPhase
          unfold isAwaited at awaited ⊢
          cases isAwaiter : fetch.awaiter with
          | refresh => rfl
          | nobody =>
            rw [isAwaiter] at awaited
            cases awaited
          | build =>
            rw [isAwaiter] at awaited
            exact absurd (of_decide_eq_true awaited).symm here
  · cases reads

theorem apart_complete (apart : s.Apart) {extId : Option String} {feed : Feed σ}
    (target : s.target? = some extId) (of : feed.Of extId) : (s.complete extId feed).Apart := by
  have current (built : (s.complete extId feed).built = true) : extId = s.resolved := by
    rcases Bool.or_eq_true_iff.mp built with before | same
    · exact apart.target before extId target
    · exact of_decide_eq_true same
  have ends : ({ s with build := none } : HomeFeedController ε σ).Apart :=
    apart_build apart nofun nofun nofun
  refine ⟨ends.caches, nofun, nofun, nofun, ends.returned, fun built one isFeed => ?_⟩
  cases isFeed
  show feed.Of s.resolved
  rw [← current built]
  exact of

theorem apart_finish (apart : s.Apart) (finished : s.finish = some next) : next.Apart := by
  unfold finish at finished
  split at finished
  next extId feed isBuild =>
    cases finished
    exact apart_complete apart (by rw [target?, isBuild]) (apart.ready extId feed isBuild)
  next extId position isBuild =>
    split at finished
    next one awaiter feed found =>
      cases finished
      obtain ⟨fetch, isFetch, same, awaits⟩ := apart.awaited extId position isBuild
      rw [found] at isFetch
      cases isFetch
      refine apart_complete apart (by rw [target?, isBuild]) ?_
      rw [← same]
      refine apart.returned position _ feed found ?_ rfl
      simp only at awaits
      simp [isAwaited, awaits, isBuild]
    · cases finished
  · cases finished

theorem apart_refresh (apart : s.Apart) : (s.refresh keeps).Apart := by
  unfold refresh
  split
  · refine apart_show apart fun _ feed isFeed => ?_
    cases isFeed
    exact Feed.empty_of _
  next extId _ =>
    refine apart_show (apart_fetch apart extId .refresh) fun built feed isFeed => ?_
    change s.state.kept keeps = some feed at isFeed
    unfold AsyncValue.kept at isFeed
    split at isFeed
    · exact apart.shown built feed isFeed
    · cases isFeed

theorem apart_answer (apart : s.Apart)
    (found : s.fetches[position]? = some fetch) {answer : Option (List σ)}
    (answered : s.answer position fetch answer = some next)
    (meets : s.keepsApart (.answer position answer) = true) : next.Apart := by
  have failed (isNone : answer = none) : (s.fail position fetch).Apart := by
    refine apart_goTo apart found fun feed isPhase awaited => ?_
    cases isPhase
    cases isValue : s.state.value? with
    | none => exact Feed.empty_of _
    | some feed =>
      subst isNone
      simpa [keepsApart, found, awaited, isValue] using meets
  unfold HomeFeedController.answer at answered
  split at answered
  next sections _ =>
    cases answered
    split
    · refine apart_goTo apart found fun feed isPhase _ => ?_
      cases isPhase
      exact .inr rfl
    · exact apart_goTo apart found (by rintro _ ⟨⟩)
  · cases answered
    exact failed rfl
  · cases answered
    exact failed rfl
  · cases answered
    exact failed rfl
  · cases answered

theorem apart_cacheSections (apart : s.Apart) (found : s.fetches[position]? = some fetch)
    (cached : s.cacheSections position fetch = some next) : next.Apart := by
  unfold cacheSections at cached
  split at cached
  next sections _ =>
    cases cached
    refine apart_cache (apart_goTo apart found (by rintro _ ⟨⟩)) s.cachedAt
      fun extId feed isCached => ?_
    by_cases same : extId = fetch.extId
    · subst same
      rw [Function.update_self] at isCached
      rw [← Option.some.inj isCached]
    · rw [Function.update_of_ne same] at isCached
      exact apart.caches extId feed isCached
  · cases cached

theorem apart_cacheTime (apart : s.Apart) {now : Nat} (found : s.fetches[position]? = some fetch)
    (cached : s.cacheTime position fetch now = some next) : next.Apart := by
  unfold cacheTime at cached
  split at cached
  · cases cached
    exact apart_cache (apart_goTo apart found (by rintro _ ⟨⟩)) _ apart.caches
  · cases cached

/-- A fetch of the source is current once a build for it has completed. -/
theorem resolved_of_isCurrent (current : s.isCurrent fetch = true)
    (built : s.built = true) : s.resolved = some fetch.extId := by
  simpa [isCurrent, built] using current

theorem apart_publish (apart : s.Apart) (found : s.fetches[position]? = some fetch)
    (published : s.publish position fetch = some next)
    (meets : s.keepsApart (.publish position) = true) : next.Apart := by
  have current : s.isCurrent fetch = true := by simpa [keepsApart, found] using meets
  unfold publish at published
  split at published
  next sections _ =>
    cases published
    refine apart_show (apart_goTo apart found fun feed isPhase _ => ?_) fun built feed isFeed => ?_
    · cases isPhase
      exact .inr rfl
    · cases isFeed
      exact .inr (resolved_of_isCurrent current built)
  · cases published

theorem apart_refreshed (apart : s.Apart) (found : s.fetches[position]? = some fetch)
    (published : s.refreshed position fetch = some next)
    (meets : s.keepsApart (.refreshed position) = true) : next.Apart := by
  unfold refreshed at published
  split at published
  next feed awaits isPhase =>
    cases published
    refine apart_show (apart_goTo apart found (by rintro _ ⟨⟩)) fun built one isFeed => ?_
    cases isFeed
    have of : feed.Of (some fetch.extId) :=
      apart.returned position fetch feed found (by rw [isAwaited, awaits]) isPhase
    simp only [keepsApart, found, Option.all_some, isPhase, Bool.or_eq_true,
      List.isEmpty_iff] at meets
    rcases meets with current | nothing
    · show feed.Of s.resolved
      rw [resolved_of_isCurrent current built]
      exact of
    · exact .inl nothing
  · cases published

theorem apart_step (apart : s.Apart) {event : FeedEvent σ}
    (stepped : s.step keeps event = some next) (meets : s.keepsApart event = true) :
    next.Apart := by
  cases event with
  | setSource value =>
    cases stepped
    unfold setSource
    split
    · exact apart
    · exact apart_watch apart _ _ _
  | setExtensions exts =>
    cases stepped
    exact apart_watch apart _ _ _
  | rebuild => exact apart_rebuild apart stepped
  | resolve => exact apart_resolve apart stepped
  | readCache now => exact apart_readCache apart stepped
  | finish => exact apart_finish apart stepped
  | refresh =>
    cases stepped
    exact apart_refresh apart
  | answer position answer =>
    obtain ⟨fetch, found, answered⟩ := Option.bind_eq_some_iff.mp stepped
    exact apart_answer apart found answered meets
  | cacheSections position =>
    obtain ⟨fetch, found, cached⟩ := Option.bind_eq_some_iff.mp stepped
    exact apart_cacheSections apart found cached
  | cacheTime position now =>
    obtain ⟨fetch, found, cached⟩ := Option.bind_eq_some_iff.mp stepped
    exact apart_cacheTime apart found cached
  | publish position =>
    obtain ⟨fetch, found, published⟩ := Option.bind_eq_some_iff.mp stepped
    exact apart_publish apart found published meets
  | refreshed position =>
    obtain ⟨fetch, found, published⟩ := Option.bind_eq_some_iff.mp stepped
    exact apart_refreshed apart found published meets

end

/-- Two sources with caches, of which the first is chosen. -/
def cachedBoth : HomeFeedController String String where
  exts := [⟨"a", true, true⟩, ⟨"b", true, true⟩]
  source := some "a"
  cached extId := some ⟨extId, ["cached"]⟩
  cachedAt extId := if extId = "a" then 1 else 2

theorem start_cachedBoth (keeps : Bool) : (machine keeps).Start cachedBoth := by
  refine ⟨fun extId feed isCached => ?_, rfl⟩
  rw [← Option.some.inj isCached]

/-- The cache of the first source is stale, and its refresh ends after the switch. -/
def switchedEarly : List (FeedEvent String) :=
  [.resolve, .readCache (ttl + 1), .finish, .setSource (some "b"), .rebuild, .resolve,
    .readCache (ttl + 1), .finish, .answer 0 (some ["fetched"]), .cacheSections 0,
    .cacheTime 0 (ttl + 2), .publish 0]

/-- The refresh ends before the switch. -/
def switchedLater : List (FeedEvent String) :=
  [.resolve, .readCache (ttl + 1), .finish, .answer 0 (some ["fetched"]), .cacheSections 0,
    .cacheTime 0 (ttl + 2), .publish 0, .setSource (some "b"), .rebuild, .resolve,
    .readCache (ttl + 1), .finish]

/-- A build has completed, and this feed is published. -/
def builtWith (feed : Feed String) (s : HomeFeedController String String) : Bool :=
  s.built && s.resolved = some "b" && s.state.value? = some feed

end HomeFeedController
end LosslessMusic.Notifiers
