import LosslessMusic.Extensions.RepositorySafety

/-!
# What the callers of the repository know

Epochs, their URLs and flights are never forgotten. So what a caller has read of them behind
a lock stays true, and every registry it returns is of an epoch that is not before its own.
-/

namespace LosslessMusic.Extensions.Repository

open Transition

variable {libraries : Libraries} {system next : System}

/-! ## What is never forgotten -/

/-- A registry of an epoch, not before another. -/
structure From (urls : List String) (began : Nat) (registry : Obtained) : Prop where
  later : began ≤ registry.epoch
  url : urls[registry.epoch]? = some registry.url

/-- A cache of a URL, in an epoch. -/
structure Cache.Of (url : String) (epoch : Nat) (cache : Cache) : Prop where
  registryUrl : cache.registryUrl = url
  url : cache.registry.url = url
  epoch : cache.registry.epoch = epoch

/-- Epochs, URLs, flights and their results stay. -/
structure Grown (epoch later : Nat) (urls more : List String) (flights again : List Flight) :
    Prop where
  epoch : epoch ≤ later
  urls : ∀ (time : Nat) (url : String), urls[time]? = some url → more[time]? = some url
  flights : ∀ (id : Nat) (flight : Flight), flights[id]? = some flight →
    ∃ found, again[id]? = some found ∧ found.epoch = flight.epoch ∧
      ∀ result, flight.result = some result → found.result = some result

/-- What a fetch remembers. -/
structure Fetch.Known (epoch : Nat) (urls : List String) (flights : List Flight)
    (fetch : Fetch) : Prop where
  began : fetch.task.began ≤ fetch.epoch
  epoch : fetch.epoch ≤ epoch
  generation : fetch.generation = fetch.epoch % generations
  url : urls[fetch.epoch]? = some fetch.url
  cached : ∀ cache, fetch.cached = some cache → cache.Of fetch.url fetch.epoch
  flight : ∃ flight, flights[fetch.flight]? = some flight ∧ flight.epoch = fetch.epoch

/-- The result of a flight. -/
def Result (flights : List Flight) (id : Nat) (result : Except String Obtained) : Prop :=
  ∃ flight, flights[id]? = some flight ∧ flight.result = some result

/-- How a fetch has come to its result. -/
def Via.Known (flights : List Flight) (result : Except String Obtained) : Via → Prop
  | .directly => True
  | .led flight => Result flights flight result
  | .followed flight =>
    result = .error changedError ∨ result = .error closedError ∨ Result flights flight result

/-- A result of a fetch. -/
structure Fetched (urls : List String) (flights : List Flight) (began : Nat) (via : Via)
    (result : Except String Obtained) : Prop where
  registry : ∀ registry, result = .ok registry → From urls began registry
  via : via.Known flights result

/-- What a leader has in its hands. -/
def Leading.Known (fetch : Fetch) : Leading → Prop
  | .requesting | .answered _ => True
  | .saving notModified cache => Prepared fetch notModified cache
  | .publishing result | .removing result =>
    ∀ registry, result = .ok registry → registry.url = fetch.url ∧ registry.epoch = fetch.epoch

/-- What a caller knows. -/
def Caller.Known (libraries : Libraries) (epoch : Nat) (urls : List String)
    (flights : List Flight) : Caller → Prop
  | .idle | .setting | .changing _ | .leaving _ | .returned _ => True
  | .starting began _ _ => began ≤ epoch
  | .calling download => download.began ≤ epoch
  | .entered task _ => task.began ≤ epoch
  | .following fetch => fetch.Known epoch urls flights
  | .leading fetch stage => fetch.Known epoch urls flights ∧ stage.Known fetch
  | .fetched task via result => Fetched urls flights task.began via result
  | .downloading download registry stage =>
    From urls download.began registry ∧ stage.Sound libraries download registry
  | .done began via result => Fetched urls flights began via result

section Grown

variable {epoch later : Nat} {urls more : List String} {flights again : List Flight}

theorem Grown.refl (epoch : Nat) (urls : List String) (flights : List Flight) :
    Grown epoch epoch urls urls flights flights where
  epoch := Nat.le_refl epoch
  urls _ _ found := found
  flights _ flight found := ⟨flight, found, rfl, fun _ known => known⟩

theorem From.grown (grown : Grown epoch later urls more flights again) {began : Nat}
    {registry : Obtained} (known : From urls began registry) : From more began registry where
  later := known.later
  url := grown.urls _ _ known.url

theorem Fetch.Known.grown (grown : Grown epoch later urls more flights again) {fetch : Fetch}
    (known : fetch.Known epoch urls flights) : fetch.Known later more again where
  began := known.began
  epoch := Nat.le_trans known.epoch grown.epoch
  generation := known.generation
  url := grown.urls _ _ known.url
  cached := known.cached
  flight := by
    obtain ⟨flight, found, same⟩ := known.flight
    obtain ⟨other, there, kept, _⟩ := grown.flights _ flight found
    exact ⟨other, there, kept.trans same⟩

theorem Result.grown (grown : Grown epoch later urls more flights again) {id : Nat}
    {result : Except String Obtained} (known : Result flights id result) :
    Result again id result := by
  obtain ⟨flight, found, published⟩ := known
  obtain ⟨other, there, _, kept⟩ := grown.flights _ flight found
  exact ⟨other, there, kept result published⟩

theorem Fetched.grown (grown : Grown epoch later urls more flights again) {began : Nat}
    {via : Via} {result : Except String Obtained} (known : Fetched urls flights began via result) :
    Fetched more again began via result where
  registry registry same := (known.registry registry same).grown grown
  via := by
    have before := known.via
    cases via with
    | directly => trivial
    | led flight => exact Result.grown grown before
    | followed flight =>
      rcases before with changed | closed | published
      · exact .inl changed
      · exact .inr (.inl closed)
      · exact .inr (.inr (published.grown grown))

theorem Caller.Known.grown (grown : Grown epoch later urls more flights again) {point : Caller}
    (known : point.Known libraries epoch urls flights) :
    point.Known libraries later more again := by
  cases point with
  | idle | setting | changing _ | leaving _ | returned _ => trivial
  | starting _ _ _ | calling _ | entered _ _ => exact Nat.le_trans known grown.epoch
  | following fetch => exact Fetch.Known.grown grown known
  | leading fetch stage => exact ⟨known.1.grown grown, known.2⟩
  | fetched task via result => exact Fetched.grown grown known
  | downloading download registry stage => exact ⟨known.1.grown grown, known.2⟩
  | done began via result => exact Fetched.grown grown known

end Grown

/-! ## The state itself -/

/-- The generation counts the changes of the URL, and what is cached is of the URL of now. -/
structure Dated (system : System) : Prop where
  generation : system.generation = system.epoch % generations
  length : system.urls.length = system.epoch + 1
  url : system.urls[system.epoch]? = some system.url
  cache : ∀ cache, system.cache = some cache → cache.Of system.url system.epoch
  file : ∀ cache, system.file = some cache → cache.Of system.url system.epoch

/-- What flights have come to, and what the table leads to. -/
structure Flown (urls : List String) (generation epoch : Nat) (table : Nat → Option Nat)
    (flights : List Flight) : Prop where
  results : ∀ flight ∈ flights, ∀ registry, flight.result = some (.ok registry) →
    registry.epoch = flight.epoch ∧ urls[flight.epoch]? = some registry.url
  tabled : ∀ other id, table other = some id → other = generation ∧
    ∃ flight, flights[id]? = some flight ∧ flight.epoch = epoch

/-- Everything that is known. -/
structure Knowing (libraries : Libraries) (system : System) : Prop where
  dated : Dated system
  flown : Flown system.urls system.generation system.epoch system.table system.flights
  known : ∀ point ∈ system.callers, point.Known libraries system.epoch system.urls system.flights

theorem Prepared.of {fetch : Fetch} {notModified : Bool} {cache : Cache}
    (prepared : Prepared fetch notModified cache)
    (cached : ∀ old, fetch.cached = some old → old.Of fetch.url fetch.epoch) :
    cache.Of fetch.url fetch.epoch := by
  cases prepared with
  | prolongs old now same =>
    have known := cached old same
    exact ⟨known.registryUrl, known.url, known.epoch⟩
  | reads registry now etag lastModified => exact ⟨rfl, rfl, rfl⟩

theorem Goes.known {old point : Caller} (goes : Goes libraries system old point)
    (knowing : Knowing libraries system)
    (known : old.Known libraries system.epoch system.urls system.flights) :
    point.Known libraries system.epoch system.urls system.flights := by
  have dated := knowing.dated
  cases goes with
  | refused result => trivial
  | shut => exact ⟨nofun, trivial⟩
  | resolves url => trivial
  | keeps url => trivial
  | fails old error failing => trivial
  | begins began directory id => exact known
  | errs task force error => exact ⟨nofun, trivial⟩
  | finds task force cache cached =>
    have here := dated.cache cache cached
    refine ⟨fun registry same => ?_, trivial⟩
    cases same
    refine ⟨?_, ?_⟩
    · rw [here.epoch]
      exact known
    · rw [here.epoch, here.url]
      exact dated.url
  | follows task force flight listed =>
    exact ⟨known, Nat.le_refl _, dated.generation, dated.url, dated.cache,
      (knowing.flown.tabled _ flight listed).2⟩
  | learns fetch result learned =>
    obtain ⟨flight, found, same⟩ := known.flight
    have published : (system.flights[fetch.flight]?).bind (·.result) = some result →
        flight.result = some result := fun there => by rwa [found] at there
    refine ⟨fun registry good => ?_, ?_⟩
    · subst good
      rcases learned with changed | closed | there
      · cases changed
      · cases closed
      · have reached := knowing.flown.results flight (List.mem_of_getElem? found) registry
          (published there)
        refine ⟨?_, ?_⟩
        · rw [reached.1, same]
          exact known.began
        · rw [reached.1]
          exact reached.2
    · rcases learned with changed | closed | there
      · exact .inl changed
      · exact .inr (.inl closed)
      · exact .inr (.inr ⟨flight, found, published there⟩)
  | answered fetch answer => exact ⟨known.1, trivial⟩
  | judges fetch answer result unsaved =>
    refine ⟨known.1, fun registry same => ?_⟩
    cases unsaved with
    | fails error => cases same
    | keeps old cached =>
      cases same
      have here := known.1.cached old cached
      exact ⟨here.url, here.epoch⟩
  | prepares fetch answer notModified cache prepared => exact ⟨known.1, prepared⟩
  | abandons fetch notModified cache error => exact ⟨known.1, nofun⟩
  | downloads download registry old point sound => exact ⟨known.1, sound known.2⟩

end LosslessMusic.Extensions.Repository
