import LosslessMusic.Providers.LookupSafety

/-!
# Runs of shared lookups

Flights keep what they have come to, so that a caller returns what its flight has published.
A caller that is not cancelled gets there by the steps of its own and of the worker.
-/

namespace LosslessMusic.Providers

open Transition

variable {κ ν : Type}

/-! ## What flights keep -/

/-- What a flight keeps from one step to the next. -/
structure Continues (flight again : Flight κ ν) : Prop where
  key : again.key = flight.key
  epoch : again.generation = flight.generation ∧ again.epoch = flight.epoch
  left : flight.waiters = 0 → again.waiters = 0
  finished : flight.worker.running = false →
    again.result = flight.result ∧ again.worker.running = false

/-- Flights come, and none goes. -/
def Grown (flights later : List (Flight κ ν)) : Prop :=
  ∀ (id : Nat) (flight : Flight κ ν), flights[id]? = some flight →
    ∃ again, later[id]? = some again ∧ Continues flight again

theorem Continues.refl (flight : Flight κ ν) : Continues flight flight where
  key := rfl
  epoch := ⟨rfl, rfl⟩
  left empty := empty
  finished done := ⟨rfl, done⟩

theorem Grown.refl (flights : List (Flight κ ν)) : Grown flights flights :=
  fun _ flight here => ⟨flight, here, .refl flight⟩

theorem Grown.set {flights : List (Flight κ ν)} {id : Nat} {flight again : Flight κ ν}
    (here : flights[id]? = some flight) (continues : Continues flight again) :
    Grown flights (flights.set id again) := by
  intro other found there
  by_cases same : other = id
  · subst same
    obtain rfl : flight = found := Option.some.inj (here.symm.trans there)
    exact ⟨again, List.getElem?_set_self (List.getElem?_eq_some_iff.mp here).1, continues⟩
  · exact ⟨found, (List.getElem?_set_ne (Ne.symm same)).trans there, .refl found⟩

theorem Grown.append (flights : List (Flight κ ν)) (flight : Flight κ ν) :
    Grown flights (flights ++ [flight]) := fun _ found there =>
  ⟨found, (List.getElem?_append_left (List.getElem?_eq_some_iff.mp there).1).trans there,
    .refl found⟩

/-- A flight that runs keeps its key and its waiters, whatever its worker does. -/
theorem Continues.of_running {flight : Flight κ ν} (runs : flight.worker.running = true)
    (result : Option (Outcome ν)) (worker : Worker ν) :
    Continues flight { flight with result := result, worker := worker } where
  key := rfl
  epoch := ⟨rfl, rfl⟩
  left empty := empty
  finished done := by
    rw [runs] at done
    cases done

theorem Continues.of_waiters (flight : Flight κ ν) (waiters : Nat)
    (left : flight.waiters = 0 → waiters = 0) :
    Continues flight { flight with waiters := waiters } where
  key := rfl
  epoch := ⟨rfl, rfl⟩
  left := left
  finished done := ⟨rfl, done⟩

variable [DecidableEq κ] {service : Service} {system next : System κ ν}

theorem grown_of_stepped (counted : Counted system.flights system.callers system.active)
    (stepped : Stepped service system next) : Grown system.flights next.flights := by
  cases stepped with
  | goes caller old point cache here goes => exact .refl _
  | joins caller id flight point cache here there waited form =>
    exact .set there (.of_waiters _ _ fun empty => absurd empty (Nat.ne_of_gt waited))
  | starts caller key cache here opened room alone => exact .append _ _
  | spawns caller id flight here there =>
    have spawning := counted.spawning there here
    exact .set there (.of_running (by rw [spawning]; rfl) flight.result .working)
  | fails caller id flight here there =>
    have spawning := counted.spawning there here
    rw [System.finish_flights]
    exact .set there (.of_running (by rw [spawning]; rfl) _ _)
  | leaves caller id flight answer here there =>
    exact .set there (.of_waiters _ _ fun empty => by rw [empty])
  | works id flight worker here works =>
    exact .set here (.of_running works.running.1 flight.result worker)
  | finishes id flight outcome alive here finishing =>
    rw [System.finish_flights]
    exact .set here (.of_running (by rw [finishing]; rfl) _ _)
  | stores id flight key value here working opened waited =>
    simp only [System.store]
    split <;> exact .refl _
  | clears cache opened => exact .refl _
  | forgets cache => exact .refl _
  | shuts thread idle => exact .refl _
  | awakes thread cache waiting none => exact .refl _

/-! ## What callers are told -/

/-- What a flight has published. -/
def Published (flights : List (Flight κ ν)) (id : Nat) (outcome : Outcome ν) : Prop :=
  ∃ flight, flights[id]? = some flight ∧ flight.worker.running = false ∧
    flight.result = some outcome

/-- What a caller of a flight may return. -/
def Fair (flights : List (Flight κ ν)) (closed : Bool) (id : Nat) (answer : Answer ν) : Prop :=
  answer = .own ∨ (answer = .closed ∧ closed = true) ∨ answer = .recursive ∨
    ∃ outcome, answer = .result outcome ∧ Published flights id outcome

/-- What a caller knows of its flight is true. -/
def Right (flights : List (Flight κ ν)) (closed : Bool) : Caller ν → Prop
  | .cloned id outcome => Published flights id outcome
  | .leaving id answer | .returned (some id) answer => Fair flights closed id answer
  | .returned none _ | .idle | .spawning _ | .waiting _ | .peeking _ => True

omit [DecidableEq κ] in

theorem Published.grown {flights later : List (Flight κ ν)} {id : Nat} {outcome : Outcome ν}
    (grown : Grown flights later) (published : Published flights id outcome) :
    Published later id outcome := by
  obtain ⟨flight, here, done, result⟩ := published
  obtain ⟨again, there, continues⟩ := grown id flight here
  have ⟨kept, still⟩ := continues.finished done
  exact ⟨again, there, still, kept.trans result⟩

omit [DecidableEq κ] in

theorem Fair.grown {flights later : List (Flight κ ν)} {closed shut : Bool} {id : Nat}
    {answer : Answer ν} (grown : Grown flights later) (closes : closed = true → shut = true)
    (fair : Fair flights closed id answer) : Fair later shut id answer := by
  rcases fair with own | ⟨told, closed⟩ | recursive | ⟨outcome, told, published⟩
  · exact .inl own
  · exact .inr (.inl ⟨told, closes closed⟩)
  · exact .inr (.inr (.inl recursive))
  · exact .inr (.inr (.inr ⟨outcome, told, published.grown grown⟩))

omit [DecidableEq κ] in

theorem Right.grown {flights later : List (Flight κ ν)} {closed shut : Bool}
    {point : Caller ν} (grown : Grown flights later) (closes : closed = true → shut = true)
    (right : Right flights closed point) : Right later shut point := by
  cases point with
  | cloned id outcome => exact Published.grown grown right
  | leaving id answer => exact Fair.grown grown closes right
  | returned flight answer =>
    cases flight with
    | none => trivial
    | some id => exact Fair.grown grown closes right
  | idle | spawning _ | waiting _ | peeking _ => trivial

/-- A flight that is finished. -/
def Done (flights : List (Flight κ ν)) (id : Nat) : Prop :=
  ∃ flight, flights[id]? = some flight ∧ flight.worker.running = false

omit [DecidableEq κ] in

theorem done_set_iff {flights : List (Flight κ ν)} {id other : Nat} {flight again : Flight κ ν}
    (here : flights[id]? = some flight) :
    Done (flights.set id again) other ↔
      (other = id ∧ again.worker.running = false) ∨ (other ≠ id ∧ Done flights other) := by
  constructor
  · rintro ⟨found, there, done⟩
    rcases getElem?_set_some there with ⟨rfl, rfl⟩ | ⟨different, there⟩
    · exact .inl ⟨rfl, done⟩
    · exact .inr ⟨different, found, there, done⟩
  · rintro (⟨rfl, done⟩ | ⟨different, found, there, done⟩)
    · exact ⟨again, List.getElem?_set_self (List.getElem?_eq_some_iff.mp here).1, done⟩
    · exact ⟨found, (List.getElem?_set_ne (Ne.symm different)).trans there, done⟩

omit [DecidableEq κ] in

theorem done_set_of_same {flights : List (Flight κ ν)} {id : Nat} {flight again : Flight κ ν}
    (here : flights[id]? = some flight)
    (same : again.worker.running = flight.worker.running) (other : Nat) :
    Done (flights.set id again) other ↔ Done flights other := by
  rw [done_set_iff here]
  by_cases equal : other = id
  · subst equal
    constructor
    · rintro (⟨_, done⟩ | ⟨different, _⟩)
      · exact ⟨flight, here, same.symm.trans done⟩
      · exact absurd rfl different
    · rintro ⟨found, there, done⟩
      obtain rfl : flight = found := Option.some.inj (here.symm.trans there)
      exact .inl ⟨rfl, same.trans done⟩
  · constructor
    · rintro (⟨found, _⟩ | ⟨_, done⟩)
      · exact absurd found equal
      · exact done
    · exact fun done => .inr ⟨equal, done⟩

omit [DecidableEq κ] in

theorem done_append_iff {flights : List (Flight κ ν)} {flight : Flight κ ν}
    (runs : flight.worker.running = true) (id : Nat) :
    Done (flights ++ [flight]) id ↔ Done flights id := by
  constructor
  · rintro ⟨found, there, done⟩
    rcases getElem?_append_some there with ⟨_, rfl⟩ | ⟨_, there⟩
    · rw [runs] at done
      cases done
    · exact ⟨found, there, done⟩
  · rintro ⟨found, there, done⟩
    exact ⟨found, (List.getElem?_append_left (List.getElem?_eq_some_iff.mp there).1).trans there,
      done⟩

/-- The results are those of the flights that are finished, and callers know nothing
else. -/
structure Told (flights : List (Flight κ ν)) (callers : List (Caller ν)) (closed : Bool)
    (published : List Nat) : Prop where
  results : ∀ flight ∈ flights, flight.result.isSome = !flight.worker.running
  once : published.Nodup
  published : ∀ id, id ∈ published ↔ Done flights id
  right : ∀ point ∈ callers, Right flights closed point

namespace Told

variable {flights later : List (Flight κ ν)} {callers : List (Caller ν)} {closed shut : Bool}
  {published : List Nat} {id position : Nat} {flight again : Flight κ ν} {point : Caller ν}

omit [DecidableEq κ] in

theorem caller (told : Told flights callers closed published) (point : Caller ν)
    (right : Right flights closed point) :
    Told flights (callers.set position point) closed published where
  results := told.results
  once := told.once
  published := told.published
  right other member := by
    rcases List.mem_or_eq_of_mem_set member with before | rfl
    · exact told.right other before
    · exact right

omit [DecidableEq κ] in

theorem closes (told : Told flights callers closed published)
    (closes : closed = true → shut = true) : Told flights callers shut published where
  results := told.results
  once := told.once
  published := told.published
  right other member := Right.grown (.refl flights) closes (told.right other member)

omit [DecidableEq κ] in

theorem keeps (told : Told flights callers closed published) (here : flights[id]? = some flight)
    (continues : Continues flight again) (result : again.result = flight.result)
    (runs : again.worker.running = flight.worker.running) :
    Told (flights.set id again) callers closed published where
  results other member := by
    rcases List.mem_or_eq_of_mem_set member with before | rfl
    · exact told.results other before
    · rw [result, runs]
      exact told.results flight (List.mem_of_getElem? here)
  once := told.once
  published other := (told.published other).trans (done_set_of_same here runs other).symm
  right other member := Right.grown (.set here continues) (fun shut => shut)
    (told.right other member)

omit [DecidableEq κ] in

theorem starts (told : Told flights callers closed published)
    (result : flight.result = none) (runs : flight.worker.running = true) :
    Told (flights ++ [flight]) callers closed published where
  results other member := by
    rcases List.mem_append.mp member with before | new
    · exact told.results other before
    · obtain rfl := List.mem_singleton.mp new
      rw [result, runs]
      rfl
  once := told.once
  published other := (told.published other).trans (done_append_iff runs other).symm
  right other member := Right.grown (.append flights flight) (fun shut => shut)
    (told.right other member)

omit [DecidableEq κ] in

theorem finishes (told : Told flights callers closed published)
    (here : flights[id]? = some flight) (runs : flight.worker.running = true)
    (outcome : Outcome ν) :
    Told (flights.set id { flight with result := some outcome, worker := .finished })
      callers closed (id :: published) where
  results other member := by
    rcases List.mem_or_eq_of_mem_set member with before | rfl
    · exact told.results other before
    · rfl
  once := by
    refine List.nodup_cons.mpr ⟨fun member => ?_, told.once⟩
    obtain ⟨found, there, done⟩ := (told.published id).mp member
    obtain rfl : flight = found := Option.some.inj (here.symm.trans there)
    rw [runs] at done
    cases done
  published other := by
    rw [List.mem_cons, done_set_iff here, told.published other]
    by_cases same : other = id
    · exact ⟨fun _ => .inl ⟨same, rfl⟩, fun _ => .inl same⟩
    · constructor
      · rintro (equal | done)
        · exact absurd equal same
        · exact .inr ⟨same, done⟩
      · rintro (⟨equal, _⟩ | ⟨_, done⟩)
        · exact absurd equal same
        · exact .inr done
  right other member := Right.grown (.set here (.of_running runs _ _)) (fun shut => shut)
    (told.right other member)

end Told

omit [DecidableEq κ] in

theorem Goes.right {old point : Caller ν} (goes : Goes system old point)
    (results : ∀ flight ∈ system.flights, flight.result.isSome = !flight.worker.running)
    (right : Right system.flights system.closed old) :
    Right system.flights system.closed point := by
  cases goes with
  | answers answer => trivial
  | loops old point id waits held form => rcases form with rfl | rfl <;> trivial
  | clones id flight outcome there published =>
    refine ⟨flight, there, ?_, published⟩
    have finished := results flight (List.mem_of_getElem? there)
    rw [published] at finished
    exact Bool.not_eq_true _ ▸ fun runs => by
      rw [runs] at finished
      cases finished
  | confirms id outcome => exact .inr (.inr (.inr ⟨outcome, rfl, right⟩))
  | stops old id answer waits held form =>
    rcases form with own | closed
    · exact .inl own
    · exact .inr (.inl closed)

theorem Told.stepped (told : Told system.flights system.callers system.closed system.published)
    (counted : Counted system.flights system.callers system.active)
    (stepped : Stepped service system next) :
    Told next.flights next.callers next.closed next.published := by
  cases stepped with
  | goes caller old point cache here goes =>
    exact told.caller _ (goes.right told.results (told.right old (List.mem_of_getElem? here)))
  | joins caller id flight point cache here there waited form =>
    have left := Continues.of_waiters flight (flight.waiters + 1)
      fun empty => absurd empty (Nat.ne_of_gt waited)
    refine (told.keeps there left rfl rfl).caller _ ?_
    rcases form with rfl | rfl
    · trivial
    · exact .inr (.inr (.inl rfl))
  | starts caller key cache here opened room alone =>
    exact (told.starts rfl rfl).caller (.spawning system.flights.length) trivial
  | spawns caller id flight here there =>
    have runs : flight.worker.running = true := by
      rw [counted.spawning there here]
      rfl
    exact (told.keeps there (.of_running runs flight.result .working) rfl runs.symm).caller
      (.waiting id) trivial
  | fails caller id flight here there =>
    have runs : flight.worker.running = true := by
      rw [counted.spawning there here]
      rfl
    rw [System.finish_flights, System.finish_callers, System.finish_published, System.finish_closed]
    exact (told.finishes there runs .failed).caller (.waiting id) trivial
  | leaves caller id flight answer here there =>
    have left := Continues.of_waiters flight (flight.waiters - 1) fun empty => by rw [empty]
    have fair : Fair system.flights system.closed id answer :=
      told.right (.leaving id answer) (List.mem_of_getElem? here)
    exact (told.keeps there left rfl rfl).caller (.returned (some id) answer)
      (fair.grown (.set there left) fun shut => shut)
  | works id flight worker here works =>
    have ⟨ran, runs, _⟩ := works.running
    exact told.keeps here (.of_running ran flight.result worker) rfl (runs.trans ran.symm)
  | finishes id flight outcome alive here finishing =>
    rw [System.finish_flights, System.finish_callers, System.finish_published, System.finish_closed]
    exact told.finishes here (by rw [finishing]; rfl) outcome
  | stores id flight key value here working opened waited =>
    simp only [System.store]
    split <;> exact told
  | clears cache opened => exact told
  | forgets cache => exact told
  | shuts thread idle => exact told.closes fun _ => rfl
  | awakes thread cache waiting none => exact told

/-! ## What enters a cache -/

/-- A result that has entered a cache in time. -/
structure Timely (flights : List (Flight κ ν)) (cached : Cached κ ν) : Prop where
  opened : cached.closed = false
  alive : cached.alive = true
  dated : ∃ flight, flights[cached.flight]? = some flight ∧
    (cached.epoch = flight.epoch ∨ flight.epoch + generations ≤ cached.epoch)

/-- A flight that was started in time, whose worker keeps nothing without its last check. -/
structure Careful (service : Service) (epoch : Nat) (flight : Flight κ ν) : Prop where
  dated : flight.generation = flight.epoch % generations ∧ flight.epoch ≤ epoch
  checks : ∀ outcome alive kept, flight.worker = .finishing outcome alive →
    service.keeps outcome = some (some kept) → alive = true

/-- The generation counts the epochs, and what has entered a cache was in time. -/
structure Kept (service : Service) (flights : List (Flight κ ν)) (generation epoch : Nat)
    (entered : List (Cached κ ν)) : Prop where
  now : generation = epoch % generations
  careful : ∀ flight ∈ flights, Careful service epoch flight
  timely : ∀ cached ∈ entered, Timely flights cached

omit [DecidableEq κ] in

theorem Timely.grown {flights later : List (Flight κ ν)} {cached : Cached κ ν}
    (grown : Grown flights later) (timely : Timely flights cached) : Timely later cached where
  opened := timely.opened
  alive := timely.alive
  dated := by
    obtain ⟨flight, here, dated⟩ := timely.dated
    obtain ⟨again, there, continues⟩ := grown _ flight here
    exact ⟨again, there, continues.epoch.2 ▸ dated⟩

variable {kept : Outcome ν}

theorem Service.keeps_of_unchecked {service : Service} {outcome : Outcome ν}
    (unchecked : service.rechecks outcome = false) : service.keeps outcome ≠ some (some kept) := by
  cases service with
  | availability => cases unchecked
  | lyrics =>
    cases outcome with
    | notFound => cases unchecked
    | value _ | cancelled | closed | busy | failed => nofun

theorem Service.keeps_cancelled {service : Service} :
    service.keeps (.cancelled : Outcome ν) ≠ some (some kept) := by
  cases service <;> nofun

variable {worker : Worker ν}

/-- A worker comes to a result to keep by its last check only. -/
theorem Works.checks {old : Worker ν} (works : Works service old worker)
    (outcome : Outcome ν) (alive : Bool) (kept : Outcome ν)
    (finishing : worker = .finishing outcome alive)
    (keeps : service.keeps outcome = some (some kept)) : alive = true := by
  cases works with
  | fetches => cases finishing
  | passes found unchecked =>
    cases finishing
    exact absurd keeps (Service.keeps_of_unchecked unchecked)
  | confirms =>
    cases finishing
    rfl
  | cancelled =>
    cases finishing
    exact absurd keeps Service.keeps_cancelled

theorem epoch_eq_or_far {now flight : Nat} (same : flight % generations = now % generations)
    (before : flight ≤ now) : now = flight ∨ flight + generations ≤ now := by
  simp only [generations] at same ⊢
  omega

namespace Kept

variable {flights : List (Flight κ ν)} {generation epoch id : Nat}
  {entered : List (Cached κ ν)} {flight again : Flight κ ν}

omit [DecidableEq κ] in

theorem continues (kept : Kept service flights generation epoch entered)
    (here : flights[id]? = some flight) (continues : Continues flight again)
    (checks : ∀ outcome alive kept, again.worker = .finishing outcome alive →
      service.keeps outcome = some (some kept) → alive = true) :
    Kept service (flights.set id again) generation epoch entered where
  now := kept.now
  careful other member := by
    rcases List.mem_or_eq_of_mem_set member with before | rfl
    · exact kept.careful other before
    · have careful := kept.careful flight (List.mem_of_getElem? here)
      refine ⟨?_, checks⟩
      rw [continues.epoch.1, continues.epoch.2]
      exact careful.dated
  timely cached member := (kept.timely cached member).grown (.set here continues)

omit [DecidableEq κ] in

theorem starts (kept : Kept service flights generation epoch entered)
    (dated : flight.generation = generation ∧ flight.epoch = epoch)
    (spawning : flight.worker = .spawning) :
    Kept service (flights ++ [flight]) generation epoch entered where
  now := kept.now
  careful other member := by
    rcases List.mem_append.mp member with before | new
    · exact kept.careful other before
    · obtain rfl := List.mem_singleton.mp new
      refine ⟨?_, fun outcome alive _ finishing => ?_⟩
      · rw [dated.1, dated.2]
        exact ⟨kept.now, Nat.le_refl _⟩
      · rw [spawning] at finishing
        cases finishing
  timely cached member := (kept.timely cached member).grown (.append flights flight)

omit [DecidableEq κ] in

/-- A result enters the cache in the generation of its flight. -/
theorem enters (kept : Kept service flights generation epoch entered)
    (here : flights[id]? = some flight) (same : flight.generation = generation)
    (cached : Cached κ ν) (opened : cached.closed = false) (alive : cached.alive = true)
    (known : cached.flight = id) (now : cached.epoch = epoch) :
    Kept service flights generation epoch (cached :: entered) where
  now := kept.now
  careful := kept.careful
  timely other member := by
    rcases List.mem_cons.mp member with rfl | before
    · refine ⟨opened, alive, flight, known ▸ here, ?_⟩
      have dated := (kept.careful flight (List.mem_of_getElem? here)).dated
      rw [now]
      exact epoch_eq_or_far (dated.1.symm.trans (same.trans kept.now)) dated.2
    · exact kept.timely other before

end Kept

theorem System.finish_entered (id : Nat) (flight : Flight κ ν) (outcome : Outcome ν)
    (alive : Bool) :
    (system.finish service id flight outcome alive).entered = system.entered ∨
      ∃ kept, service.keeps outcome = some (some kept) ∧
        flight.generation = system.generation ∧ system.closed = false ∧
        (system.finish service id flight outcome alive).entered =
          ⟨flight.key, outcome, id, system.epoch, system.closed, alive, flight.waiters⟩ ::
            system.entered := by
  simp only [System.finish]
  split
  next timely =>
    split
    next kept keeps =>
      cases kept with
      | none => exact .inl rfl
      | some kept => exact .inr ⟨kept, keeps, timely.1, timely.2, rfl⟩
    next => exact .inl rfl
  next => exact .inl rfl

variable {alive : Bool}

theorem System.finish_generation {id : Nat} {flight : Flight κ ν} {outcome : Outcome ν}
    :
    (system.finish service id flight outcome alive).generation = system.generation ∧
      (system.finish service id flight outcome alive).epoch = system.epoch := by
  simp only [System.finish]
  split
  · split <;> exact ⟨rfl, rfl⟩
  · exact ⟨rfl, rfl⟩

theorem Kept.finishes {id : Nat} {flight : Flight κ ν} {outcome : Outcome ν}
    (kept : Kept service system.flights system.generation system.epoch system.entered)
    (here : system.flights[id]? = some flight) (runs : flight.worker.running = true)
    (checks : ∀ kept, service.keeps outcome = some (some kept) → alive = true) :
    Kept service (system.finish service id flight outcome alive).flights
      (system.finish service id flight outcome alive).generation
      (system.finish service id flight outcome alive).epoch
      (system.finish service id flight outcome alive).entered := by
  rw [System.finish_flights, System.finish_generation.1, System.finish_generation.2]
  have continues := Continues.of_running runs (some outcome) .finished
  rcases System.finish_entered id flight outcome alive with same | ⟨value, keeps, same, opened,
    entered⟩
  · rw [same]
    exact kept.continues here continues nofun
  · rw [entered]
    exact (kept.enters here same ⟨flight.key, outcome, id, system.epoch, system.closed, alive,
      flight.waiters⟩ opened (checks value keeps) rfl rfl).continues here continues nofun

theorem Kept.stepped
    (kept : Kept service system.flights system.generation system.epoch system.entered)
    (counted : Counted system.flights system.callers system.active)
    (stepped : Stepped service system next) :
    Kept service next.flights next.generation next.epoch next.entered := by
  cases stepped with
  | goes caller old point cache here goes => exact kept
  | joins caller id flight point cache here there waited form =>
    exact kept.continues there (.of_waiters _ _ fun empty => absurd empty (Nat.ne_of_gt waited))
      (kept.careful flight (List.mem_of_getElem? there)).checks
  | starts caller key cache here opened room alone => exact kept.starts ⟨rfl, rfl⟩ rfl
  | spawns caller id flight here there =>
    have runs : flight.worker.running = true := by
      rw [counted.spawning there here]
      rfl
    exact kept.continues there (.of_running runs flight.result .working) nofun
  | fails caller id flight here there =>
    have runs : flight.worker.running = true := by
      rw [counted.spawning there here]
      rfl
    have waited := counted.waiters_pos there (List.mem_of_getElem? here) rfl
    refine Kept.finishes ?_ there runs fun _ _ => decide_eq_true waited
    exact kept
  | leaves caller id flight answer here there =>
    exact kept.continues there (.of_waiters _ _ fun empty => by rw [empty])
      (kept.careful flight (List.mem_of_getElem? there)).checks
  | works id flight worker here works =>
    have ⟨ran, _⟩ := works.running
    exact kept.continues here (.of_running ran flight.result worker) works.checks
  | finishes id flight outcome alive here finishing =>
    exact kept.finishes here (by rw [finishing]; rfl) fun value keeps =>
      (kept.careful flight (List.mem_of_getElem? here)).checks outcome alive value finishing keeps
  | stores id flight key value here working opened waited =>
    simp only [System.store]
    split
    next same => exact kept.enters here same _ opened (decide_eq_true waited) rfl rfl
    next => exact kept
  | clears cache opened =>
    refine ⟨?_, fun flight member => ?_, kept.timely⟩
    · rw [kept.now, Nat.mod_add_mod]
    · have careful := kept.careful flight member
      exact ⟨⟨careful.dated.1, Nat.le_succ_of_le careful.dated.2⟩, careful.checks⟩
  | forgets cache => exact kept
  | shuts thread idle => exact kept
  | awakes thread cache waiting none => exact kept

/-! ## All of it -/

/-- Where the shutdowns are. -/
structure Shut (shutdowns : Nat → Shutdown) (closed : Bool) (active : Nat) : Prop where
  closed : ∀ thread, shutdowns thread ≠ .idle → closed = true
  ended : ∀ thread, shutdowns thread = .ended → active = 0

/-- What holds of a service at any time. -/
structure Sound (service : Service) (system : System κ ν) : Prop where
  counted : Counted system.flights system.callers system.active
  tabled : Tabled system.flights system.table
  told : Told system.flights system.callers system.closed system.published
  kept : Kept service system.flights system.generation system.epoch system.entered
  shut : Shut system.shutdowns system.closed system.active
  abandoned : ∀ id ∈ system.abandoned, ∃ flight, system.flights[id]? = some flight ∧
    flight.waiters = 0

theorem System.finish_shutdowns {id : Nat} {flight : Flight κ ν} {outcome : Outcome ν}
    :
    (system.finish service id flight outcome alive).shutdowns = system.shutdowns ∧
      (system.finish service id flight outcome alive).abandoned = system.abandoned := by
  simp only [System.finish]
  split
  · split <;> exact ⟨rfl, rfl⟩
  · exact ⟨rfl, rfl⟩

theorem Shut.shuts {shutdowns : Nat → Shutdown} {closed : Bool} {active : Nat}
    (shut : Shut shutdowns closed active) (thread : Nat) :
    Shut (Function.update shutdowns thread .waiting) true active where
  closed _ _ := rfl
  ended other ended := by
    by_cases same : other = thread
    · rw [same, Function.update_self] at ended
      cases ended
    · rw [Function.update_of_ne same] at ended
      exact shut.ended other ended

theorem Shut.stepped (shut : Shut system.shutdowns system.closed system.active)
    (stepped : Stepped service system next) : Shut next.shutdowns next.closed next.active := by
  cases stepped with
  | starts caller key cache here opened room alone =>
    refine ⟨shut.closed, fun thread ended => ?_⟩
    have closed := shut.closed thread fun idle => Shutdown.noConfusion (idle.symm.trans ended)
    exact Bool.noConfusion (opened.symm.trans closed)
  | fails _ _ _ _ _ | finishes _ _ _ _ _ _ =>
    rw [System.finish_shutdowns.1, System.finish_closed, System.finish_active]
    exact ⟨shut.closed, fun thread ended => Nat.sub_eq_zero_of_le
      (Nat.le_trans (Nat.le_of_eq (shut.ended thread ended)) (Nat.zero_le _))⟩
  | shuts thread idle => exact shut.shuts thread
  | awakes thread cache waiting none =>
    refine ⟨fun _ _ => ?_, fun _ _ => none⟩
    exact shut.closed thread fun idle => Shutdown.noConfusion (idle.symm.trans waiting)
  | stores id flight key value here working opened waited =>
    simp only [System.store]
    split <;> exact shut
  | goes | joins | spawns | leaves | works | clears | forgets => exact shut

theorem abandoned_stepped
    (abandoned : ∀ id ∈ system.abandoned, ∃ flight, system.flights[id]? = some flight ∧
      flight.waiters = 0)
    (grown : Grown system.flights next.flights) (stepped : Stepped service system next) :
    ∀ id ∈ next.abandoned, ∃ flight, next.flights[id]? = some flight ∧ flight.waiters = 0 := by
  have before : ∀ id ∈ system.abandoned, ∃ flight, next.flights[id]? = some flight ∧
      flight.waiters = 0 := by
    intro id member
    obtain ⟨flight, here, empty⟩ := abandoned id member
    obtain ⟨again, there, continues⟩ := grown id flight here
    exact ⟨again, there, continues.left empty⟩
  cases stepped with
  | leaves caller id flight answer here there =>
    intro other member
    simp only [System.dropWaiter, System.setCaller] at member
    split at member
    next last =>
      rcases List.mem_cons.mp member with rfl | earlier
      · refine ⟨_, List.getElem?_set_self (List.getElem?_eq_some_iff.mp there).1, ?_⟩
        exact Nat.sub_eq_zero_of_le (Nat.le_of_eq last)
      · exact before other earlier
    next => exact before other member
  | fails =>
    rw [System.finish_shutdowns.2]
    exact before
  | finishes =>
    rw [System.finish_shutdowns.2]
    exact before
  | stores id flight key value here working opened waited =>
    simp only [System.store] at before ⊢
    split
    next same =>
      rw [if_pos same] at before
      exact before
    next different =>
      rw [if_neg different] at before
      exact before
  | goes | joins | starts | spawns | works | clears | forgets | shuts | awakes => exact before

theorem Sound.stepped (sound : Sound service system) (stepped : Stepped service system next) :
    Sound service next where
  counted := sound.counted.stepped stepped
  tabled := sound.tabled.stepped sound.counted stepped
  told := sound.told.stepped sound.counted stepped
  kept := sound.kept.stepped sound.counted stepped
  shut := sound.shut.stepped stepped
  abandoned := abandoned_stepped sound.abandoned (grown_of_stepped sound.counted stepped) stepped

omit [DecidableEq κ] in

theorem sound_beginning (callers : Nat) :
    Sound service (System.beginning callers : System κ ν) where
  counted := by
    refine ⟨nofun, nofun, fun point member id held => ?_, rfl, Nat.zero_le _⟩
    obtain rfl := List.eq_of_mem_replicate member
    cases held
  tabled := ⟨nofun, nofun⟩
  told := by
    refine ⟨nofun, List.nodup_nil, fun id => ⟨nofun, nofun⟩, fun point member => ?_⟩
    obtain rfl := List.eq_of_mem_replicate member
    trivial
  kept := ⟨rfl, nofun, nofun⟩
  shut := ⟨fun _ busy => absurd rfl busy, fun _ _ => rfl⟩
  abandoned := nofun

theorem Sound.run {guard : System κ ν → Event κ ν → Prop}
    (path : (System.machine service).Path guard system next) (sound : Sound service system) :
    Sound service next :=
  path.preserves sound fun _ _ _ before _ step => before.stepped (stepped_of_step step)

/-! ## On the way to an answer -/

/-- A caller waits for a flight of a service that is not closed. -/
structure Waits (service : Service) (caller id : Nat) (system : System κ ν) : Prop where
  sound : Sound service system
  opened : system.closed = false
  waits : ∃ point, system.callers[caller]? = some point ∧ point.waits = true ∧
    point.flight = some id

/-- From here the steps of a worker and of a caller lead to a state. -/
def Serves (service : Service) (caller id starter : Nat) (system : System κ ν)
    (wanted : System κ ν → Prop) : Prop :=
  (System.machine service).Leads (fun _ event => event.serves id caller starter = true) system
    wanted

/-- What the caller of a flight waits for. -/
def Answered (caller id : Nat) (system : System κ ν) : Prop :=
  ∃ flight outcome, system.flights[id]? = some flight ∧ flight.result = some outcome ∧
    system.callers[caller]? = some (.returned (some id) (.result outcome))

section Answers

variable {caller id starter : Nat} {flight : Flight κ ν} {outcome : Outcome ν}

theorem answered_of_cloned (sound : Sound service system) (opened : system.closed = false)
    (here : system.callers[caller]? = some (.cloned id outcome)) :
    Serves service caller id starter system (Answered caller id) := by
  have inside := (List.getElem?_eq_some_iff.mp here).1
  obtain ⟨flight, there, _, result⟩ :
      Published system.flights id outcome := sound.told.right _ (List.mem_of_getElem? here)
  have known := (List.getElem?_eq_some_iff.mp there).1
  let confirmed := system.setCaller caller (.leaving id (.result outcome))
  have leaving : confirmed.callers[caller]? = some (.leaving id (.result outcome)) :=
    List.getElem?_set_self inside
  have checks : system.step service (.check caller true) = some confirmed := by
    simp only [System.step, here, System.checked, opened, Bool.false_eq_true, if_false, if_true,
      confirmed]
  have leaves : confirmed.step service (.leave caller) =
      some ((confirmed.dropWaiter id flight).setCaller caller
        (.returned (some id) (.result outcome))) := by
    have found : confirmed.flights[id]? = some flight := there
    simp only [System.step, leaving, found]
  have allowed : (Event.check caller true : Event κ ν).serves id caller starter = true := by
    simp only [Event.serves, beq_self_eq_true, Bool.and_self]
  refine .step (.check caller true) allowed checks
    (.step (.leave caller) (beq_self_eq_true caller) leaves (.here ?_))
  refine ⟨_, outcome, List.getElem?_set_self known, result, List.getElem?_set_self ?_⟩
  rw [show (confirmed.dropWaiter id flight).callers = confirmed.callers from rfl]
  exact (List.getElem?_eq_some_iff.mp leaving).1

/-- A caller that looks finds the result of a flight that is finished. -/
theorem answered_of_peeking (sound : Sound service system) (opened : system.closed = false)
    (here : system.callers[caller]? = some (.peeking id))
    (there : system.flights[id]? = some flight) (result : flight.result = some outcome) :
    Serves service caller id starter system (Answered caller id) := by
  have step : system.step service (.peek caller) =
      some (system.setCaller caller (.cloned id outcome)) := by
    simp only [System.step, here, there, result]
  refine .step (.peek caller) (beq_self_eq_true caller) step ?_
  exact answered_of_cloned (sound.stepped (stepped_of_step step)) opened
    (List.getElem?_set_self (List.getElem?_eq_some_iff.mp here).1)

theorem answered_of_waiting (sound : Sound service system) (opened : system.closed = false)
    (here : system.callers[caller]? = some (.waiting id))
    (there : system.flights[id]? = some flight) (result : flight.result = some outcome) :
    Serves service caller id starter system (Answered caller id) := by
  have step : system.step service (.check caller true) =
      some (system.setCaller caller (.peeking id)) := by
    simp only [System.step, here, System.checked, opened, Bool.false_eq_true, if_false, if_true]
  refine .step (.check caller true) ?_ step ?_
  · simp only [Event.serves, beq_self_eq_true, Bool.and_self]
  · exact answered_of_peeking (sound.stepped (stepped_of_step step)) opened
      (List.getElem?_set_self (List.getElem?_eq_some_iff.mp here).1) there result

theorem answered_of_finished (waits : Waits service caller id system)
    (there : system.flights[id]? = some flight) (result : flight.result = some outcome) :
    Serves service caller id starter system (Answered caller id) := by
  obtain ⟨point, here, loops, held⟩ := waits.waits
  cases point with
  | waiting other =>
    obtain rfl : other = id := Option.some.inj held
    exact answered_of_waiting waits.sound waits.opened here there result
  | peeking other =>
    obtain rfl : other = id := Option.some.inj held
    exact answered_of_peeking waits.sound waits.opened here there result
  | cloned other cloned =>
    obtain rfl : other = id := Option.some.inj held
    exact answered_of_cloned waits.sound waits.opened here
  | idle | spawning _ | leaving _ _ | returned _ _ => cases loops

theorem Waits.still {event : Event κ ν} (waits : Waits service caller id system)
    (step : system.step service event = some next) (opened : next.closed = system.closed)
    (callers : next.callers = system.callers) : Waits service caller id next where
  sound := waits.sound.stepped (stepped_of_step step)
  opened := opened.trans waits.opened
  waits := callers ▸ waits.waits

theorem answered_of_finishing (waits : Waits service caller id system)
    (there : system.flights[id]? = some flight)
    (finishing : flight.worker = .finishing outcome alive) :
    Serves service caller id starter system (Answered caller id) := by
  have step : system.step service (.finish id) =
      some (system.finish service id flight outcome alive) := by
    simp only [System.step, there, finishing]
  have finished : (system.finish service id flight outcome alive).flights[id]? =
      some { flight with result := some outcome, worker := .finished } := by
    rw [System.finish_flights]
    exact List.getElem?_set_self (List.getElem?_eq_some_iff.mp there).1
  exact .step (.finish id) (beq_self_eq_true id) step
    (answered_of_finished (waits.still step System.finish_closed System.finish_callers) finished
      rfl)

theorem answered_of_fetched (waits : Waits service caller id system)
    (there : system.flights[id]? = some flight) (fetched : flight.worker = .fetched outcome) :
    Serves service caller id starter system (Answered caller id) := by
  have inside := (List.getElem?_eq_some_iff.mp there).1
  cases alive : system.flightCheck flight with
  | true =>
    have step : system.step service (.recheck id) =
        some (system.setFlight id { flight with worker := .finishing outcome true }) := by
      simp only [System.step, there, fetched, alive, if_true]
    exact .step (.recheck id) (beq_self_eq_true id) step
      (answered_of_finishing (waits.still step rfl rfl) (List.getElem?_set_self inside) rfl)
  | false =>
    have step : system.step service (.recheck id) =
        some (system.setFlight id { flight with worker := .finishing .cancelled false }) := by
      simp only [System.step, there, fetched, alive, Bool.false_eq_true, if_false]
    exact .step (.recheck id) (beq_self_eq_true id) step
      (answered_of_finishing (waits.still step rfl rfl) (List.getElem?_set_self inside) rfl)

theorem answered_of_working (waits : Waits service caller id system)
    (there : system.flights[id]? = some flight) (working : flight.worker = .working) :
    Serves service caller id starter system (Answered caller id) := by
  have rechecks : service.rechecks (.notFound : Outcome ν) = true := by cases service <;> rfl
  have step : system.step service (.fetch id .notFound) =
      some (system.setFlight id { flight with worker := .fetched .notFound }) := by
    simp only [System.step, there, working, rechecks, if_true]
  exact .step (.fetch id .notFound) (beq_self_eq_true id) step
    (answered_of_fetched (waits.still step rfl rfl)
      (List.getElem?_set_self (List.getElem?_eq_some_iff.mp there).1) rfl)

theorem answered_of_spawned (waits : Waits service caller id system)
    (there : system.flights[id]? = some flight) (spawned : flight.worker ≠ .spawning) :
    Serves service caller id starter system (Answered caller id) := by
  cases worker : flight.worker with
  | spawning => exact absurd worker spawned
  | working => exact answered_of_working waits there worker
  | fetched outcome => exact answered_of_fetched waits there worker
  | finishing outcome alive => exact answered_of_finishing waits there worker
  | finished =>
    have results := waits.sound.told.results flight (List.mem_of_getElem? there)
    rw [worker] at results
    obtain ⟨outcome, result⟩ := Option.isSome_iff_exists.mp results
    exact answered_of_finished waits there result

/-- A caller returns what its flight publishes, once the flight has a worker. -/
theorem answered_of_spawning (sound : Sound service system) (opened : system.closed = false)
    (there : system.flights[id]? = some flight)
    (starts : system.callers[starter]? = some (.spawning id))
    (waits : starter = caller ∨ ∃ point, system.callers[caller]? = some point ∧
      point.waits = true ∧ point.flight = some id) :
    Serves service caller id starter system (Answered caller id) := by
  have step : system.step service (.spawn starter true) =
      some ((system.setCaller starter (.waiting id)).setFlight id
        { flight with worker := .working }) := by
    simp only [System.step, starts, there, if_true]
  refine .step (.spawn starter true) (beq_self_eq_true starter) step ?_
  refine answered_of_working ⟨sound.stepped (stepped_of_step step), opened, ?_⟩
    (List.getElem?_set_self (List.getElem?_eq_some_iff.mp there).1) rfl
  have inside := (List.getElem?_eq_some_iff.mp starts).1
  by_cases same : starter = caller
  · subst same
    exact ⟨.waiting id, List.getElem?_set_self inside, rfl, rfl⟩
  · obtain ⟨point, here, waits⟩ := waits.resolve_left same
    exact ⟨point, (List.getElem?_set_ne same).trans here, waits⟩

end Answers

/-- The steps of the worker and of a caller lead the caller to the result of its flight. -/
theorem Sound.delivered (sound : Sound service system) {caller id : Nat} {point : Caller ν}
    (here : system.callers[caller]? = some point) (held : point.flight = some id)
    (stays : ∀ answer, point ≠ .leaving id answer) (opened : system.closed = false) :
    ∃ starter, Serves service caller id starter system (Answered caller id) := by
  have known := sound.counted.known point (List.mem_of_getElem? here) id held
  have there := List.getElem?_eq_getElem known
  have form : point = .spawning id ∨ point.waits = true := by
    cases point with
    | spawning other => exact .inl (congrArg Caller.spawning (Option.some.inj held))
    | waiting _ | peeking _ | cloned _ _ => exact .inr rfl
    | leaving other answer =>
      obtain rfl : other = id := Option.some.inj held
      exact absurd rfl (stays answer)
    | idle | returned _ _ => cases held
  rcases form with rfl | waits
  · exact ⟨caller, answered_of_spawning sound opened there here (.inl rfl)⟩
  · by_cases spawning : system.flights[id].worker = .spawning
    · have counts := sound.counted.starting id _ there
      rw [spawning] at counts
      obtain ⟨other, member, starts⟩ := List.countP_pos_iff.mp (Nat.lt_of_lt_of_eq
        Nat.zero_lt_one counts)
      obtain ⟨starter, inside, rfl⟩ := List.getElem_of_mem member
      have begins : system.callers[starter] = .spawning id := by
        cases found : system.callers[starter] with
        | spawning flight =>
          rw [found] at starts
          exact congrArg Caller.spawning (beq_iff_eq.mp starts)
        | idle | waiting _ | peeking _ | cloned _ _ | leaving _ _ | returned _ _ =>
          rw [found] at starts
          cases starts
      exact ⟨starter, answered_of_spawning sound opened there
        ((List.getElem?_eq_getElem inside).trans (congrArg some begins))
        (.inr ⟨point, here, waits, held⟩)⟩
    · exact ⟨caller, answered_of_spawned ⟨sound, opened, point, here, waits, held⟩ there spawning⟩

/-! ## What a service promises -/

omit [DecidableEq κ] in

/-- For one key and generation one flight that is not finished has waiters. -/
theorem Tabled.unique {flights : List (Flight κ ν)} {table : Nat × κ → Option Nat}
    (tabled : Tabled flights table) {id other : Nat} {flight again : Flight κ ν}
    (here : flights[id]? = some flight) (there : flights[other]? = some again)
    (runs : flight.worker.running = true) (goes : again.worker.running = true)
    (waited : 0 < flight.waiters) (awaited : 0 < again.waiters)
    (key : flight.key = again.key) (generation : flight.generation = again.generation) :
    id = other := by
  have first := tabled.listed id flight here runs waited
  have second := tabled.listed other again there goes awaited
  rw [key, generation] at first
  exact Option.some.inj (first.symm.trans second)

omit [DecidableEq κ] in

theorem Worker.finished_of_stopped (stopped : worker.running = false) : worker = .finished := by
  cases worker with
  | finished => rfl
  | spawning | working | fetched _ | finishing _ _ => cases stopped

/-- Every run of a service keeps its promises. -/
theorem lookups_promised (reached : (System.machine service).Reachable Machine.anyStep system) :
    system.Promised service := by
  obtain ⟨start, ⟨callers, rfl⟩, path⟩ := reached
  have sound : Sound service system := Sound.run path (sound_beginning callers)
  have finished (id : Nat) : Done system.flights id ↔ ∃ flight,
      system.flights[id]? = some flight ∧ flight.worker = .finished ∧
        flight.result.isSome = true := by
    constructor
    · rintro ⟨flight, here, stopped⟩
      have results := sound.told.results flight (List.mem_of_getElem? here)
      rw [stopped] at results
      exact ⟨flight, here, Worker.finished_of_stopped stopped, results⟩
    · rintro ⟨flight, here, done, _⟩
      exact ⟨flight, here, by rw [done]; rfl⟩
  exact {
    unique := fun id other flight again here there => sound.tabled.unique here there
    led := sound.tabled.leads
    listed := sound.tabled.listed
    abandoned := sound.abandoned
    answered := by
      intro id answer member
      have fair : Fair system.flights system.closed id answer := sound.told.right _ member
      rcases fair with own | closed | recursive | ⟨outcome, told, flight, here, _, result⟩
      · exact .inl own
      · exact .inr (.inl closed)
      · exact .inr (.inr (.inl recursive))
      · exact .inr (.inr (.inr ⟨flight, outcome, told, here, result⟩))
    delivered := by
      intro caller id point here held stays opened
      obtain ⟨starter, later, path, answered⟩ := sound.delivered here held stays opened
      exact ⟨starter, later, path, answered⟩
    published := ⟨sound.told.once, fun id => (sound.told.published id).trans (finished id)⟩
    counted := ⟨sound.counted.running, sound.counted.bounded⟩
    entered := by
      intro cached member
      have timely := sound.kept.timely cached member
      exact ⟨timely.opened, timely.alive, timely.dated⟩
    ended := by
      intro thread ended flight member
      have none := sound.counted.running.symm.trans (sound.shut.ended thread ended)
      exact Bool.not_eq_true _ ▸ List.countP_eq_zero.mp none flight member }

/-- A caller gets the result of its flight. -/
theorem lookups_promised_answered : ∃ system : System Unit Unit, system.Promised .availability ∧
      .returned (some 0) (.result (.value ())) ∈ system.callers := by
  have serves : ((System.machine .availability).run (System.beginning 2 : System Unit Unit)
      [.lookup 0 () true true false,
      .lookup 1 () true true false, .spawn 0 true, .fetch 0 (.value ()), .recheck 0, .finish 0,
      .check 1 true, .peek 1, .check 1 true, .leave 1]).any
      (fun system => decide (.returned (some 0) (.result (.value ())) ∈ system.callers)) = true := by
    decide +kernel
  obtain ⟨system, reached, answered⟩ :=
    (System.machine .availability).exists_reachable_of_run _ ⟨2, rfl⟩ serves
  exact ⟨system, lookups_promised reached, of_decide_eq_true answered⟩

/-- The last waiter may leave behind the worker's last check, and the result enters the
cache. And a caller may still have its result to fetch when the next flight begins. -/
theorem lookups_overtaken : (∃ system : System Unit Unit,
      (System.machine .availability).Reachable Machine.anyStep system ∧
        ∃ cached ∈ system.entered, cached.waiters = 0) ∧
    ∃ system : System Unit Unit, (System.machine .lyrics).Reachable Machine.anyStep system ∧
        ∃ flight again, system.flights = [flight, again] ∧ flight.key = again.key ∧
          flight.generation = again.generation ∧ 0 < flight.waiters ∧ 0 < again.waiters := by
  constructor
  · have enters : ((System.machine .availability).run (System.beginning 1 : System Unit Unit)
        [.lookup 0 () true true false, .spawn 0 true, .fetch 0 (.value ()), .recheck 0,
          .check 0 false, .leave 0, .finish 0]).any
        (fun system => system.entered.any (·.waiters == 0)) = true := by decide +kernel
    obtain ⟨system, reached, entered⟩ :=
      (System.machine .availability).exists_reachable_of_run _ ⟨1, rfl⟩ enters
    obtain ⟨cached, member, empty⟩ := List.any_eq_true.mp entered
    exact ⟨system, reached, cached, member, beq_iff_eq.mp empty⟩
  · have overlaps : ((System.machine .lyrics).run (System.beginning 2 : System Unit Unit)
        [.lookup 0 () true true false, .spawn 0 true, .fetch 0 (.value ()), .finish 0,
          .lookup 1 () true true false]).any
        (fun system => decide (system.flights =
          [⟨(), 0, 0, 1, some (.value ()), .finished⟩, ⟨(), 0, 0, 1, none, .spawning⟩])) = true := by
      decide +kernel
    obtain ⟨system, reached, flights⟩ :=
      (System.machine .lyrics).exists_reachable_of_run _ ⟨2, rfl⟩ overlaps
    exact ⟨system, reached, _, _, of_decide_eq_true flights, rfl, rfl, Nat.one_pos, Nat.one_pos⟩

end LosslessMusic.Providers
