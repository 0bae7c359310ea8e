import LosslessMusic.Extensions.RepositoryLeaders

/-!
# Runs of the repository

While the generation does not come round during an operation, equal generations are equal
epochs, and each step keeps what callers know, who leads, and what the cache is.
-/

namespace LosslessMusic.Extensions.Repository

open Transition

variable {libraries : Libraries} {system next : System}

/-! ## What a step keeps of what is known -/

variable {epoch id : Nat} {urls : List String}

/-- Something changes at a flight that has no other result. -/
theorem Grown.modify {flights : List Flight}
    {change : Flight → Flight} (dated : ∀ flight, (change flight).epoch = flight.epoch)
    (kept : ∀ flight, flights[id]? = some flight → ∀ result, flight.result = some result →
      (change flight).result = some result) :
    Grown epoch epoch urls urls flights (flights.modify id change) where
  epoch := Nat.le_refl epoch
  urls _ _ found := found
  flights other flight found := by
    by_cases same : other = id
    · subst same
      exact ⟨change flight, getElem?_modify_self found, dated flight, kept flight found⟩
    · exact ⟨flight, (getElem?_modify_ne same).trans found, rfl, fun _ known => known⟩

theorem Grown.append (epoch : Nat) (urls : List String) (flights : List Flight)
    (flight : Flight) : Grown epoch epoch urls urls flights (flights ++ [flight]) where
  epoch := Nat.le_refl epoch
  urls _ _ found := found
  flights _ found there :=
    ⟨found, (List.getElem?_append_left (List.getElem?_eq_some_iff.mp there).1).trans there, rfl,
      fun _ known => known⟩

theorem Grown.change (epoch : Nat) (urls : List String) (flights : List Flight)
    (url : String) : Grown epoch (epoch + 1) urls (urls ++ [url]) flights flights where
  epoch := Nat.le_succ epoch
  urls _ _ found := (List.getElem?_append_left (List.getElem?_eq_some_iff.mp found).1).trans found
  flights _ flight found := ⟨flight, found, rfl, fun _ known => known⟩

/-- Who moves knows something true, and so do the others. -/
theorem known_set {later caller : Nat} {more : List String}
    {flights again : List Flight} {callers : List Caller} (point : Caller)
    (known : ∀ point ∈ callers, point.Known libraries epoch urls flights)
    (grown : Grown epoch later urls more flights again)
    (new : point.Known libraries later more again) :
    ∀ other ∈ callers.set caller point, other.Known libraries later more again := by
  intro other member
  rcases List.mem_or_eq_of_mem_set member with before | same
  · exact (known other before).grown grown
  · rw [same]
    exact new

theorem epoch_eq_of_generation {now began : Nat}
    (same : now % generations = epoch % generations) (before : epoch ≤ now)
    (first : began ≤ epoch) (recent : now < began + generations) : epoch = now := by
  simp only [generations] at same recent
  omega

/-- What changes at a flight, but not its epoch, leaves what the table leads to. -/
theorem Flown.leads {generation : Nat}
    {table : Nat → Option Nat} {flights : List Flight} {change : Flight → Flight}
    (flown : Flown urls generation epoch table flights)
    (dated : ∀ flight, (change flight).epoch = flight.epoch) (other found : Nat)
    (listed : table other = some found) : other = generation ∧
      ∃ flight, (flights.modify id change)[found]? = some flight ∧ flight.epoch = epoch := by
  obtain ⟨equal, flight, there, same⟩ := flown.tabled other found listed
  refine ⟨equal, ?_⟩
  by_cases own : found = id
  · subst own
    exact ⟨change flight, getElem?_modify_self there, (dated flight).trans same⟩
  · exact ⟨flight, (getElem?_modify_ne own).trans there, same⟩

variable {result : Except String Obtained} {task : Task}

namespace Knowing

variable {fetch : Fetch}

theorem now (knowing : Knowing libraries system) (recent : system.Recent) {caller : Nat}
    {stage : Leading} (here : system.callers[caller]? = some (.leading fetch stage))
    (same : system.generation = fetch.generation) : fetch.epoch = system.epoch := by
  have member := List.mem_of_getElem? here
  have known := (knowing.known _ member).1
  refine epoch_eq_of_generation ?_ known.epoch known.began (recent _ member _ rfl)
  rw [← knowing.dated.generation, ← known.generation]
  exact same

theorem caller (knowing : Knowing libraries system) (position : Nat) (point : Caller)
    (known : point.Known libraries system.epoch system.urls system.flights) :
    Knowing libraries (system.setCaller position point) where
  dated := ⟨knowing.dated.generation, knowing.dated.length, knowing.dated.url,
    knowing.dated.cache, knowing.dated.file⟩
  flown := knowing.flown
  known := known_set point knowing.known (.refl _ _ _) known

theorem changes (knowing : Knowing libraries system) (url : String) :
    Knowing libraries (system.clearLocked url) where
  dated := by
    have dated := knowing.dated
    refine ⟨?_, ?_, ?_, nofun, nofun⟩
    · simp only [System.clearLocked]
      rw [dated.generation, Nat.mod_add_mod]
    · simp only [System.clearLocked, List.length_append, List.length_singleton, dated.length]
    · simp only [System.clearLocked]
      rw [← dated.length]
      exact List.getElem?_concat_length
  flown := by
    refine ⟨fun flight member registry published => ?_, nofun⟩
    have result := knowing.flown.results flight member registry published
    exact ⟨result.1, (Grown.change system.epoch system.urls system.flights url).urls _ _ result.2⟩
  known point member := (knowing.known point member).grown (.change _ _ _ url)

variable {position : Nat}

theorem leads (knowing : Knowing libraries system)
    (known : task.began ≤ system.epoch) (free : system.table system.generation = none) :
    Knowing libraries (system.take position task) where
  dated := by
    have dated := knowing.dated
    simp only [System.take, free]
    exact ⟨dated.generation, dated.length, dated.url, dated.cache, dated.file⟩
  flown := by
    simp only [System.take, free]
    refine ⟨fun flight member registry published => ?_, fun other id listed => ?_⟩
    · rcases List.mem_append.mp member with before | new
      · exact knowing.flown.results flight before registry published
      · obtain rfl := List.mem_singleton.mp new
        cases published
    · by_cases same : other = system.generation
      · subst same
        rw [Function.update_self] at listed
        cases listed
        exact ⟨rfl, _, List.getElem?_concat_length, rfl⟩
      · rw [Function.update_of_ne same] at listed
        exact absurd (knowing.flown.tabled other id listed).1 same
  known := by
    simp only [System.take, free]
    refine known_set (.leading _ .requesting) knowing.known (.append _ _ _ _) ⟨?_, trivial⟩
    exact ⟨known, Nat.le_refl _, knowing.dated.generation, knowing.dated.url,
      knowing.dated.cache, _, List.getElem?_concat_length, rfl⟩

theorem saves (knowing : Knowing libraries system) (recent : system.Recent)
    {notModified large : Bool} {cache : Cache}
    (here : system.callers[position]? = some (.leading fetch (.saving notModified cache)))
    (same : system.generation = fetch.generation) :
    Knowing libraries (system.save position fetch notModified large cache) where
  dated := by
    have dated := knowing.dated
    have now := knowing.now recent here same
    obtain ⟨known, prepared⟩ := knowing.known _ (List.mem_of_getElem? here)
    have url : fetch.url = system.url := by
      have first := known.url
      rw [now, dated.url] at first
      exact (Option.some.inj first).symm
    have of : cache.Of system.url system.epoch := by
      have own := Prepared.of prepared known.cached
      rwa [url, now] at own
    refine ⟨dated.generation, dated.length, dated.url, fun other cached => ?_,
      fun other filed => ?_⟩
    · cases cached
      exact of
    · simp only [System.save] at filed
      split at filed
      · exact dated.file other filed
      · cases filed
        exact of
  flown := by
    refine ⟨fun flight member registry published => ?_, knowing.flown.leads fun _ => rfl⟩
    obtain ⟨id, found⟩ := List.mem_iff_getElem?.mp member
    obtain ⟨old, there, form⟩ := getElem?_modify_some found
    have result := knowing.flown.results old (List.mem_of_getElem? there) registry
    rcases form with ⟨_, rfl⟩ | ⟨_, rfl⟩
    · exact result published
    · exact result published
  known := by
    obtain ⟨known, prepared⟩ := knowing.known _ (List.mem_of_getElem? here)
    have grown : Grown system.epoch system.epoch system.urls system.urls system.flights
        (system.flights.modify fetch.flight fun flight => { flight with saved := some cache }) :=
      .modify (fun _ => rfl) fun _ _ _ known => known
    refine known_set (.leading fetch (.publishing _)) knowing.known grown
      ⟨known.grown grown, fun registry good => ?_⟩
    cases good
    have of := Prepared.of prepared known.cached
    exact ⟨of.url, of.epoch⟩

theorem publishes (knowing : Knowing libraries system)
    (here : system.callers[position]? = some (.leading fetch (.publishing result)))
    (unpublished : ∀ flight, system.flights[fetch.flight]? = some flight → flight.result = none) :
    Knowing libraries
      { system.setCaller position (.leading fetch (.removing result)) with
        flights := system.flights.modify fetch.flight fun flight =>
          { flight with result := some result } } where
  dated := ⟨knowing.dated.generation, knowing.dated.length, knowing.dated.url,
    knowing.dated.cache, knowing.dated.file⟩
  flown := by
    refine ⟨fun flight member registry published => ?_, knowing.flown.leads fun _ => rfl⟩
    obtain ⟨known, stage⟩ := knowing.known _ (List.mem_of_getElem? here)
    obtain ⟨id, found⟩ := List.mem_iff_getElem?.mp member
    obtain ⟨old, there, form⟩ := getElem?_modify_some found
    rcases form with ⟨rfl, rfl⟩ | ⟨_, rfl⟩
    · obtain ⟨own, mine, same⟩ := known.flight
      rw [there] at mine
      cases mine
      have good := stage registry (Option.some.inj published)
      refine ⟨good.2.trans same.symm, ?_⟩
      rw [good.1]
      exact same ▸ known.url
    · exact knowing.flown.results flight (List.mem_of_getElem? there) registry published
  known := by
    obtain ⟨known, stage⟩ := knowing.known _ (List.mem_of_getElem? here)
    have grown : Grown system.epoch system.epoch system.urls system.urls system.flights
        (system.flights.modify fetch.flight fun flight =>
          { flight with result := some result }) := by
      refine .modify (fun _ => rfl) fun flight found other published => ?_
      rw [unpublished flight found] at published
      cases published
    exact known_set (.leading fetch (.removing result)) knowing.known grown
      ⟨known.grown grown, stage⟩

theorem removes (knowing : Knowing libraries system)
    (here : system.callers[position]? = some (.leading fetch (.removing result)))
    (published : Result system.flights fetch.flight result) :
    Knowing libraries
      { system.setCaller position (.fetched fetch.task (.led fetch.flight) result) with
        table := Function.update system.table fetch.generation none } where
  dated := ⟨knowing.dated.generation, knowing.dated.length, knowing.dated.url,
    knowing.dated.cache, knowing.dated.file⟩
  flown := by
    refine ⟨knowing.flown.results, fun other id listed => ?_⟩
    by_cases same : other = fetch.generation
    · rw [same] at listed
      simp only [Function.update_self, reduceCtorEq] at listed
    · simp only [Function.update_of_ne same] at listed
      exact knowing.flown.tabled other id listed
  known := by
    obtain ⟨known, stage⟩ := knowing.known _ (List.mem_of_getElem? here)
    refine known_set (.fetched fetch.task (.led fetch.flight) result) knowing.known
      (.refl _ _ _) ⟨fun registry good => ?_, published⟩
    obtain ⟨url, epoch⟩ := stage registry good
    refine ⟨?_, ?_⟩
    · rw [epoch]
      exact known.began
    · rw [url, epoch]
      exact known.url

theorem stepped (knowing : Knowing libraries system)
    (led : Led system.generation system.epoch system.table system.cache system.flights
      system.callers)
    (recent : system.Recent) (stepped : Stepped libraries system next) :
    Knowing libraries next := by
  cases stepped with
  | stays => exact knowing
  | goes caller old point here goes =>
    exact knowing.caller _ _ (goes.known knowing (knowing.known old (List.mem_of_getElem? here)))
  | enters caller old point here opened form =>
    have known : point.Known libraries system.epoch system.urls system.flights := by
      rcases form with ⟨_, rfl | ⟨force, rfl⟩ | ⟨directory, id, rfl⟩⟩ | ⟨download, rfl, rfl⟩
      · trivial
      · exact Nat.le_refl system.epoch
      · exact Nat.le_refl system.epoch
      · have before : download.began ≤ system.epoch :=
          knowing.known (.calling download) (List.mem_of_getElem? here)
        exact before
    have after := knowing.caller caller point known
    exact ⟨⟨after.dated.generation, after.dated.length, after.dated.url, after.dated.cache,
      after.dated.file⟩, after.flown, after.known⟩
  | leaves caller old point here form =>
    have before := knowing.known _ (List.mem_of_getElem? here)
    have known : point.Known libraries system.epoch system.urls system.flights := by
      rcases form with ⟨task, via, result, rfl, rfl⟩ | ⟨result, rfl, rfl⟩
      · cases task with
        | fetch began => exact before
        | download download =>
          cases result with
          | error error => trivial
          | ok registry => exact ⟨before.registry registry rfl, trivial⟩
      · trivial
    have after := knowing.caller caller point known
    exact ⟨⟨after.dated.generation, after.dated.length, after.dated.url, after.dated.cache,
      after.dated.file⟩, after.flown, after.known⟩
  | changes caller url here =>
    exact (knowing.changes url).caller _ (.leaving (.ok "")) trivial
  | clears => exact knowing.changes ""
  | leads caller task force here free =>
    exact knowing.leads (knowing.known _ (List.mem_of_getElem? here)) free
  | saves caller fetch notModified large cache here same =>
    exact knowing.saves recent here same
  | publishes caller fetch result here =>
    refine knowing.publishes here fun flight found => ?_
    obtain ⟨own, mine, _, unpublished, _⟩ := led.staged caller fetch _ here
    rw [found] at mine
    cases mine
    exact unpublished
  | removes caller fetch result here =>
    obtain ⟨own, mine, _, published, _⟩ := led.staged caller fetch _ here
    exact knowing.removes here ⟨own, mine, published⟩
  | persists caller download registry entry destination bytes here =>
    have after := knowing.caller caller (.leaving (.ok destination)) trivial
    exact ⟨⟨after.dated.generation, after.dated.length, after.dated.url, after.dated.cache,
      after.dated.file⟩, after.flown, after.known⟩
  | shuts _ _ | awakes _ _ _ | closes =>
    exact ⟨⟨knowing.dated.generation, knowing.dated.length, knowing.dated.url,
      knowing.dated.cache, knowing.dated.file⟩, knowing.flown, knowing.known⟩

end Knowing

/-! ## What a step keeps of the leaders -/

theorem Goes.leads {old point : Caller} (goes : Goes libraries system old point) :
    (∀ fetch stage, point = .leading fetch stage → ∃ first, old = .leading fetch first ∧
      (stage.before = true → first.before = true) ∧ ∀ flight, first.Of flight → stage.Of flight) ∧
    ∀ fetch stage, old = .leading fetch stage → ∃ last, point = .leading fetch last := by
  cases goes with
  | answered fetch answer =>
    refine ⟨fun _ _ same => ?_, fun _ _ same => ?_⟩ <;> cases same
    · exact ⟨.requesting, rfl, fun _ => rfl, fun _ of => of⟩
    · exact ⟨_, rfl⟩
  | judges fetch answer result unsaved =>
    refine ⟨fun _ _ same => ?_, fun _ _ same => ?_⟩ <;> cases same
    · refine ⟨.answered answer, rfl, fun _ => rfl, fun flight of => ⟨of.2, fun cache saved => ?_⟩⟩
      rw [of.1] at saved
      cases saved
    · exact ⟨_, rfl⟩
  | prepares fetch answer notModified cache prepared =>
    refine ⟨fun _ _ same => ?_, fun _ _ same => ?_⟩ <;> cases same
    · exact ⟨.answered answer, rfl, fun _ => rfl, fun _ of => of⟩
    · exact ⟨_, rfl⟩
  | abandons fetch notModified cache error =>
    refine ⟨fun _ _ same => ?_, fun _ _ same => ?_⟩ <;> cases same
    · refine ⟨.saving notModified cache, rfl, fun _ => rfl,
        fun flight of => ⟨of.2, fun cache saved => ?_⟩⟩
      rw [of.1] at saved
      cases saved
    · exact ⟨_, rfl⟩
  | fails old error failing =>
    refine ⟨fun _ _ => nofun, fun fetch stage same => ?_⟩
    subst same
    cases failing
  | refused | shut | resolves | keeps | begins | errs | finds | follows | learns | downloads =>
    exact ⟨fun _ _ same => Caller.noConfusion same, fun _ _ same => Caller.noConfusion same⟩

theorem Task.next_ne {via : Via}
    (fetch : Fetch) (stage : Leading) : task.next via result ≠ .leading fetch stage := by
  cases task with
  | fetch began => nofun
  | download download => cases result <;> nofun

theorem Led.stepped
    (led : Led system.generation system.epoch system.table system.cache system.flights
      system.callers)
    (knowing : Knowing libraries system) (recent : system.Recent)
    (stepped : Stepped libraries system next) :
    Led next.generation next.epoch next.table next.cache next.flights next.callers := by
  have dated (leader : Nat) (fetch : Fetch) (stage : Leading)
      (here : system.callers[leader]? = some (.leading fetch stage)) :
      fetch.epoch ≤ system.epoch := (knowing.known _ (List.mem_of_getElem? here)).1.epoch
  cases stepped with
  | stays => exact led
  | goes caller old point here goes => exact led.caller here goes.leads.1 goes.leads.2
  | enters caller old point here opened form =>
    rcases form with ⟨rfl, rfl | ⟨force, rfl⟩ | ⟨directory, id, rfl⟩⟩ | ⟨download, rfl, rfl⟩
    all_goals exact led.other here (fun _ _ same => Caller.noConfusion same) (fun _ _ same => Caller.noConfusion same)
  | leaves caller old point here form =>
    rcases form with ⟨task, via, result, rfl, rfl⟩ | ⟨result, rfl, rfl⟩
    · exact led.other here (fun _ _ same => Caller.noConfusion same) Task.next_ne
    · exact led.other here (fun _ _ same => Caller.noConfusion same) (fun _ _ same => Caller.noConfusion same)
  | changes caller url here =>
    exact (led.changes dated).other here (fun _ _ same => Caller.noConfusion same) (fun _ _ same => Caller.noConfusion same)
  | clears => exact led.changes dated
  | leads caller task force here free =>
    simp only [System.take, free]
    exact led.starts here (fun _ _ same => Caller.noConfusion same) free rfl rfl rfl ⟨rfl, rfl, rfl⟩
  | saves caller fetch notModified large cache here same =>
    refine led.modify here rfl (fun _ => rfl) (fun flight of => ⟨of.2, fun other saved => ?_⟩)
      (fun flight of other result _ published => ?_) (.inr (knowing.now recent here same))
    · cases saved
      rfl
    · simp only [of.2, reduceCtorEq] at published
  | publishes caller fetch result here =>
    refine led.modify here rfl (fun _ => rfl) (fun flight of => ⟨rfl, of.2⟩)
      (fun flight of cache other saved published => ?_) (.inl rfl)
    cases published
    exact of.2 cache saved
  | removes caller fetch result here =>
    refine led.removes here (fun _ _ same => Caller.noConfusion same) fun apart same => apart ?_
    exact knowing.now recent here same.symm
  | persists caller download registry entry destination bytes here =>
    exact led.other here (fun _ _ same => Caller.noConfusion same) (fun _ _ same => Caller.noConfusion same)
  | shuts thread idle => exact led
  | awakes thread waiting none => exact led
  | closes => exact led

/-! ## What is remembered -/

/-- What has been saved at a flight stays. -/
def Saved (flights : List Flight) (id : Nat) (cache : Cache) : Prop :=
  ∃ flight, flights[id]? = some flight ∧ flight.saved = some cache

/-- The cache and its file are what is remembered of them. -/
structure Logged (start cache file : Option Cache) (flights : List Flight)
    (log : List Happening) : Prop where
  cache : cache = cacheAfter start log
  file : file = fileAfter start log
  saved : ∀ (id : Nat) (sent : List (String × String)) (notModified : Bool) (cache : Cache)
    (written : Bool) (earlier : List Happening),
    .saved id sent notModified cache written :: earlier <:+ log →
    Saved flights id cache ∧
    (notModified = true → ∃ old, cacheAfter start earlier = some old ∧
      sent = validators (some old) ∧ cache = { old with cacheTime := cache.cacheTime })

namespace Logged

variable {start cache file : Option Cache} {flights again : List Flight} {log : List Happening}

theorem keeps (logged : Logged start cache file flights log)
    (kept : ∀ id cache, Saved flights id cache → Saved again id cache) :
    Logged start cache file again log where
  cache := logged.cache
  file := logged.file
  saved id sent notModified cache written earlier suffix :=
    have ⟨saved, sends⟩ := logged.saved id sent notModified cache written earlier suffix
    ⟨kept id cache saved, sends⟩

theorem changes (logged : Logged start cache file flights log) (url : String) :
    Logged start none none flights (.changed url :: log) where
  cache := rfl
  file := rfl
  saved id sent notModified cache written earlier suffix := by
    rcases List.suffix_cons_iff.mp suffix with same | before
    · cases same
    · exact logged.saved id sent notModified cache written earlier before

theorem saves {sent : List (String × String)} {notModified large : Bool}
    {new : Cache} (logged : Logged start cache file flights log)
    (kept : ∀ id cache, Saved flights id cache → Saved again id cache) (saved : Saved again id new)
    (sends : notModified = true → ∃ old, cache = some old ∧ sent = validators (some old) ∧
      new = { old with cacheTime := new.cacheTime }) :
    Logged start (some new) (if large then file else some new) again
      (.saved id sent notModified new (!large) :: log) where
  cache := rfl
  file := by
    cases large with
    | true => exact logged.file
    | false => rfl
  saved other headers unmodified found written earlier suffix := by
    rcases List.suffix_cons_iff.mp suffix with same | before
    · cases same
      exact ⟨saved, fun prolonged => logged.cache ▸ sends prolonged⟩
    · have ⟨known, sends⟩ := logged.saved other headers unmodified found written earlier before
      exact ⟨kept other found known, sends⟩

end Logged

theorem saved_modify {flights : List Flight} {change : Flight → Flight}
    (keeps : ∀ flight, flights[id]? = some flight → ∀ cache, flight.saved = some cache →
      (change flight).saved = some cache) (other : Nat) (cache : Cache)
    (saved : Saved flights other cache) : Saved (flights.modify id change) other cache := by
  obtain ⟨flight, found, known⟩ := saved
  by_cases same : other = id
  · subst same
    exact ⟨change flight, getElem?_modify_self found, keeps flight found cache known⟩
  · exact ⟨flight, (getElem?_modify_ne same).trans found, known⟩

theorem Logged.stepped {start : Option Cache}
    (logged : Logged start system.cache system.file system.flights system.log)
    (led : Led system.generation system.epoch system.table system.cache system.flights
      system.callers)
    (knowing : Knowing libraries system) (recent : system.Recent)
    (stepped : Stepped libraries system next) :
    Logged start next.cache next.file next.flights next.log := by
  cases stepped with
  | changes caller url here => exact logged.changes url
  | clears => exact logged.changes ""
  | leads caller task force here free =>
    simp only [System.take, free]
    refine logged.keeps fun id cache saved => ?_
    obtain ⟨flight, found, known⟩ := saved
    exact ⟨flight, (List.getElem?_append_left (List.getElem?_eq_some_iff.mp found).1).trans found,
      known⟩
  | saves caller fetch notModified large cache here same =>
    obtain ⟨own, mine, _, unsaved, _⟩ := led.staged caller fetch _ here
    have now := knowing.now recent here same
    refine logged.saves (saved_modify fun flight found other known => ?_)
      ⟨_, getElem?_modify_self mine, rfl⟩ fun unmodified => ?_
    · rw [mine] at found
      cases found
      rw [unsaved] at known
      cases known
    · have prepared := (knowing.known _ (List.mem_of_getElem? here)).2
      have current := led.current caller fetch _ here rfl now
      cases prepared with
      | prolongs old time cached =>
        exact ⟨old, current.trans cached, by rw [cached], rfl⟩
      | reads => cases unmodified
  | publishes caller fetch result here =>
    exact logged.keeps (saved_modify fun _ _ _ known => known)
  | stays | goes | enters | leaves | removes | persists | shuts | awakes | closes => exact logged

/-! ## Packages -/

/-- Packages that were verified. -/
def Verified (libraries : Libraries) (packages : List Package) : Prop :=
  ∀ package ∈ packages, package.entry ∈ package.registry.registry.extensions ∧
    verify libraries package.entry.rawSha256 package.bytes = .ok ()

theorem Verified.stepped (verified : Verified libraries system.packages)
    (knowing : Knowing libraries system) (stepped : Stepped libraries system next) :
    Verified libraries next.packages := by
  cases stepped with
  | persists caller download registry entry destination bytes here =>
    intro package member
    rcases List.mem_cons.mp member with rfl | before
    · obtain ⟨_, ⟨listed, _⟩, good⟩ := knowing.known _ (List.mem_of_getElem? here)
      exact ⟨listed, good⟩
    · exact verified package before
  | leads caller task force here free =>
    simp only [System.take, free]
    exact verified
  | stays | goes | enters | leaves | changes | clears | saves | publishes | removes | shuts
  | awakes | closes => exact verified

/-! ## Operations -/

/-- The operations are counted, and none begins behind a shutdown. -/
structure Counted (pending : Nat) (callers : List Caller) (closed : Bool)
    (shutdowns : Nat → Shutdown) : Prop where
  counts : pending = (callers.map Caller.operations).sum
  closed : ∀ thread, shutdowns thread ≠ .idle → closed = true
  ended : ∀ thread, shutdowns thread = .ended → pending = 0

namespace Counted

variable {pending caller : Nat} {callers : List Caller} {closed : Bool}
  {shutdowns : Nat → Shutdown} {old point : Caller}

theorem goes (counted : Counted pending callers closed shutdowns)
    (here : callers[caller]? = some old) (same : point.operations = old.operations) :
    Counted pending (callers.set caller point) closed shutdowns where
  counts := by
    have moved := sum_map_set_add Caller.operations point here
    have before := counted.counts
    omega
  closed := counted.closed
  ended := counted.ended

theorem enters (counted : Counted pending callers closed shutdowns)
    (here : callers[caller]? = some old) (more : point.operations = old.operations + 1)
    (opened : closed = false) :
    Counted (pending + 1) (callers.set caller point) closed shutdowns where
  counts := by
    have moved := sum_map_set_add Caller.operations point here
    have before := counted.counts
    omega
  closed := counted.closed
  ended thread ended := by
    have shut := counted.closed thread fun idle => Shutdown.noConfusion (idle.symm.trans ended)
    exact Bool.noConfusion (opened.symm.trans shut)

theorem leaves (counted : Counted pending callers closed shutdowns)
    (here : callers[caller]? = some old) (less : old.operations = point.operations + 1) :
    Counted (pending - 1) (callers.set caller point) closed shutdowns where
  counts := by
    have moved := sum_map_set_add Caller.operations point here
    have before := counted.counts
    omega
  closed := counted.closed
  ended thread ended := by
    have none := counted.ended thread ended
    omega

theorem shuts (counted : Counted pending callers closed shutdowns) (thread : Nat) :
    Counted pending callers true (Function.update shutdowns thread .waiting) where
  counts := counted.counts
  closed _ _ := rfl
  ended other ended := by
    by_cases same : other = thread
    · rw [same, Function.update_self] at ended
      cases ended
    · rw [Function.update_of_ne same] at ended
      exact counted.ended other ended

theorem awakes (counted : Counted pending callers closed shutdowns) {thread : Nat}
    (waiting : shutdowns thread = .waiting) (none : pending = 0) :
    Counted pending callers closed (Function.update shutdowns thread .ended) where
  counts := counted.counts
  closed _ _ := counted.closed thread fun idle =>
    Shutdown.noConfusion (idle.symm.trans waiting)
  ended _ _ := none

end Counted

theorem Goes.operations {old point : Caller} (goes : Goes libraries system old point) :
    point.operations = old.operations := by
  cases goes with
  | fails old error failing =>
    cases old with
    | setting | changing _ | calling _ | downloading _ _ _ => rfl
    | idle | starting _ _ _ | entered _ _ | following _ | leading _ _ | fetched _ _ _
    | leaving _ | returned _ | done _ _ _ => cases failing
  | refused | shut | resolves | keeps | begins | errs | finds | follows | learns | answered
  | judges | prepares | abandons | downloads => rfl

theorem Task.next_operations {via : Via} :
    task.operations = (task.next via result).operations + 1 := by
  cases task with
  | fetch began => rfl
  | download download => cases result <;> rfl

theorem Counted.stepped
    (counted : Counted system.pending system.callers system.closed system.shutdowns)
    (stepped : Stepped libraries system next) :
    Counted next.pending next.callers next.closed next.shutdowns := by
  cases stepped with
  | stays => exact counted
  | goes caller old point here goes => exact counted.goes here goes.operations
  | enters caller old point here opened form =>
    have closed : system.closed = false := (Bool.or_eq_false_iff.mp opened).1
    rcases form with ⟨rfl, rfl | ⟨force, rfl⟩ | ⟨directory, id, rfl⟩⟩ | ⟨download, rfl, rfl⟩
    all_goals exact counted.enters here rfl closed
  | leaves caller old point here form =>
    rcases form with ⟨task, via, result, rfl, rfl⟩ | ⟨result, rfl, rfl⟩
    · exact counted.leaves here Task.next_operations
    · exact counted.leaves here rfl
  | changes _ _ here | saves _ _ _ _ _ here _ | publishes _ _ _ here | removes _ _ _ here
  | persists _ _ _ _ _ _ here => exact counted.goes here rfl
  | clears => exact counted
  | leads caller task force here free =>
    simp only [System.take, free]
    exact counted.goes here rfl
  | shuts thread idle => exact counted.shuts thread
  | awakes thread waiting none => exact counted.awakes waiting none
  | closes => exact counted

end LosslessMusic.Extensions.Repository
