import LosslessMusic.Providers.Lookups

/-!
# What holds of shared lookups at any time

What a step can do is said once. The table leads to the flights that are not finished, the
counters count them and their waiters, and a result stays what it is.
-/

namespace LosslessMusic.Providers

open Transition

variable {κ ν : Type}

/-! ## What a step can do -/

/-- Whether a caller has to spawn the worker of a flight. -/
def Caller.starts (id : Nat) : Caller ν → Bool
  | .spawning flight => flight == id
  | .idle | .waiting _ | .peeking _ | .cloned _ _ | .leaving _ _ | .returned _ _ => false

/-- Whether a caller is in the loop of `wait`. -/
def Caller.waits : Caller ν → Bool
  | .waiting _ | .peeking _ | .cloned _ _ => true
  | .idle | .spawning _ | .leaving _ _ | .returned _ _ => false

/-- What a caller does without a change of its flight. -/
inductive Goes (system : System κ ν) : Caller ν → Caller ν → Prop
  | answers (answer : Answer ν) : Goes system .idle (.returned none answer)
  | loops (old point : Caller ν) (id : Nat) : old.waits = true → old.flight = some id →
      point = .waiting id ∨ point = .peeking id → Goes system old point
  | clones (id : Nat) (flight : Flight κ ν) (outcome : Outcome ν) :
      system.flights[id]? = some flight → flight.result = some outcome →
      Goes system (.peeking id) (.cloned id outcome)
  | confirms (id : Nat) (outcome : Outcome ν) :
      Goes system (.cloned id outcome) (.leaving id (.result outcome))
  | stops (old : Caller ν) (id : Nat) (answer : Answer ν) : old.waits = true →
      old.flight = some id → answer = .own ∨ (answer = .closed ∧ system.closed = true) →
      Goes system old (.leaving id answer)

/-- How a worker goes on before it is finished. -/
inductive Works (service : Service) : Worker ν → Worker ν → Prop
  | fetches (outcome : Outcome ν) : Works service .working (.fetched outcome)
  | passes (outcome : Outcome ν) : service.rechecks outcome = false →
      Works service .working (.finishing outcome false)
  | confirms (outcome : Outcome ν) :
      Works service (.fetched outcome) (.finishing outcome true)
  | cancelled (outcome : Outcome ν) :
      Works service (.fetched outcome) (.finishing .cancelled false)

variable [DecidableEq κ]

/-- What a step can do. -/
inductive Stepped (service : Service) (system : System κ ν) : System κ ν → Prop
  | goes (caller : Nat) (old point : Caller ν) (cache : κ → Option (Outcome ν)) :
      system.callers[caller]? = some old → Goes system old point →
      Stepped service system ({ system with cache := cache }.setCaller caller point)
  | joins (caller id : Nat) (flight : Flight κ ν) (point : Caller ν)
      (cache : κ → Option (Outcome ν)) :
      system.callers[caller]? = some .idle → system.flights[id]? = some flight →
      0 < flight.waiters → point = .waiting id ∨ point = .leaving id .recursive →
      Stepped service system (({ system with cache := cache }.setFlight id
          { flight with waiters := flight.waiters + 1 }).setCaller caller point)
  | starts (caller : Nat) (key : κ) (cache : κ → Option (Outcome ν)) :
      system.callers[caller]? = some .idle → system.closed = false →
      system.active < maxFlights →
      (∀ id flight, system.table (system.generation, key) = some id →
        system.flights[id]? = some flight → flight.waiters = 0) →
      Stepped service system (({ system with cache := cache }.insert
          ⟨key, system.generation, system.epoch, 1, none, .spawning⟩).setCaller caller
          (.spawning system.flights.length))
  | spawns (caller id : Nat) (flight : Flight κ ν) :
      system.callers[caller]? = some (.spawning id) → system.flights[id]? = some flight →
      Stepped service system
        ((system.setCaller caller (.waiting id)).setFlight id { flight with worker := .working })
  | fails (caller id : Nat) (flight : Flight κ ν) :
      system.callers[caller]? = some (.spawning id) → system.flights[id]? = some flight →
      Stepped service system
        ((system.setCaller caller (.waiting id)).finish service id flight .failed
          (decide (0 < flight.waiters)))
  | leaves (caller id : Nat) (flight : Flight κ ν) (answer : Answer ν) :
      system.callers[caller]? = some (.leaving id answer) → system.flights[id]? = some flight →
      Stepped service system
        ((system.dropWaiter id flight).setCaller caller (.returned (some id) answer))
  | works (id : Nat) (flight : Flight κ ν) (worker : Worker ν) :
      system.flights[id]? = some flight → Works service flight.worker worker →
      Stepped service system (system.setFlight id { flight with worker := worker })
  | stores (id : Nat) (flight : Flight κ ν) (key : κ) (value : ν) :
      system.flights[id]? = some flight → flight.worker = .working →
      system.closed = false → 0 < flight.waiters →
      Stepped service system (system.store key id flight value)
  | finishes (id : Nat) (flight : Flight κ ν) (outcome : Outcome ν) (alive : Bool) :
      system.flights[id]? = some flight → flight.worker = .finishing outcome alive →
      Stepped service system (system.finish service id flight outcome alive)
  | clears (cache : κ → Option (Outcome ν)) : system.closed = false →
      Stepped service system
        { system with
          generation := (system.generation + 1) % generations
          epoch := system.epoch + 1
          cache := cache }
  | forgets (cache : κ → Option (Outcome ν)) :
      Stepped service system { system with cache := cache }
  | shuts (thread : Nat) : system.shutdowns thread = .idle →
      Stepped service system
        { system with
          closed := true
          shutdowns := Function.update system.shutdowns thread .waiting }
  | awakes (thread : Nat) (cache : κ → Option (Outcome ν)) :
      system.shutdowns thread = .waiting → system.active = 0 →
      Stepped service system
        { system with
          cache := cache
          shutdowns := Function.update system.shutdowns thread .ended }

variable {service : Service} {system next : System κ ν}

omit [DecidableEq κ] in

theorem System.tryJoin_some {key : Nat × κ} {id : Nat} {flight : Flight κ ν}
    (found : system.tryJoin key = some (id, flight)) :
    system.table key = some id ∧ system.flights[id]? = some flight ∧ 0 < flight.waiters := by
  simp only [System.tryJoin] at found
  split at found
  next other again there =>
    split at found
    next waited =>
      cases found
      simp only [Option.bind_eq_some_iff, System.flight?, Option.map_eq_some_iff,
        Prod.mk.injEq] at there
      obtain ⟨_, listed, _, here, rfl, rfl⟩ := there
      exact ⟨listed, here, waited⟩
    next => cases found
  next => cases found

omit [DecidableEq κ] in

theorem System.tryJoin_none {key : Nat × κ} {id : Nat} {flight : Flight κ ν}
    (found : system.tryJoin key = none) (listed : system.table key = some id)
    (here : system.flights[id]? = some flight) : flight.waiters = 0 := by
  simp only [System.tryJoin, listed, Option.bind_some, System.flight?, here, Option.map_some]
    at found
  split at found
  next => cases found
  next alone => omega

theorem stepped_of_lookup {caller : Nat} {key : κ} {fresh recursive : Bool}
    (idle : system.callers[caller]? = some .idle) (opened : system.closed = false) :
    Stepped service system (system.lookup caller key fresh recursive) := by
  simp only [System.lookup]
  split
  · exact .goes caller .idle _ system.cache idle (.answers _)
  split
  next id flight found =>
    have ⟨_, here, waited⟩ := System.tryJoin_some found
    refine .joins caller id flight _ _ idle here waited ?_
    cases recursive with
    | true => exact .inr rfl
    | false => exact .inl rfl
  next nothing =>
    split
    · exact .goes caller .idle _ _ idle (.answers _)
    next room =>
      split
      · exact .goes caller .idle _ _ idle (.answers _)
      · refine .starts caller key _ idle opened ?_ fun id flight listed here =>
          System.tryJoin_none nothing listed here
        simpa [System.isFull] using room

variable {point old : Caller ν}

theorem stepped_of_checked {caller id : Nat} {passes : Bool}
    (here : system.callers[caller]? = some old) (waits : old.waits = true)
    (joined : old.flight = some id) (goes : Goes system old point) :
    Stepped service system (system.checked caller id passes point) := by
  simp only [System.checked]
  split
  next closed =>
    exact .goes caller old _ system.cache here (.stops old id _ waits joined (.inr ⟨rfl, closed⟩))
  next =>
    split
    · exact .goes caller old _ system.cache here goes
    · exact .goes caller old _ system.cache here (.stops old id _ waits joined (.inl rfl))

theorem stepped_of_step {event : Event κ ν} (step : system.step service event = some next) :
    Stepped service system next := by
  cases event with
  | lookup caller key passes fresh recursive =>
    simp only [System.step] at step
    split at step
    next idle =>
      split at step
      next =>
        cases step
        exact .goes caller .idle _ system.cache idle (.answers _)
      next opened =>
        split at step <;> cases step
        · exact stepped_of_lookup idle (Bool.not_eq_true _ ▸ opened)
        · exact .goes caller .idle _ system.cache idle (.answers _)
    next => cases step
  | spawn caller succeeds =>
    simp only [System.step] at step
    split at step
    next id here =>
      split at step
      next flight there =>
        split at step <;> cases step
        · exact .spawns caller id flight here there
        · exact .fails caller id flight here there
      next => cases step
    next => cases step
  | check caller passes =>
    simp only [System.step] at step
    split at step
    next id here =>
      cases step
      exact stepped_of_checked here rfl rfl (.loops _ _ id rfl rfl (.inr rfl))
    next id outcome here =>
      cases step
      exact stepped_of_checked here rfl rfl (.confirms id outcome)
    next => cases step
  | peek caller =>
    simp only [System.step] at step
    split at step
    next id here =>
      split at step
      next flight there =>
        split at step <;> cases step
        next outcome published =>
          exact .goes caller _ _ system.cache here (.clones id flight outcome there published)
        next => exact .goes caller _ _ system.cache here (.loops _ _ id rfl rfl (.inl rfl))
      next => cases step
    next => cases step
  | leave caller =>
    simp only [System.step] at step
    split at step
    next id answer here =>
      split at step <;> cases step
      next flight there => exact .leaves caller id flight answer here there
    next => cases step
  | fetch id outcome =>
    simp only [System.step] at step
    split at step
    next flight here =>
      split at step <;> cases step
      next working =>
        refine .works id flight _ here ?_
        rw [working]
        split
        next => exact .fetches outcome
        next unchecked => exact .passes outcome (Bool.not_eq_true _ ▸ unchecked)
    next => cases step
  | store id key value =>
    simp only [System.step] at step
    split at step
    next flight here =>
      split at step
      next working =>
        split at step <;> cases step
        next alive =>
          simp only [System.flightCheck, Bool.and_eq_true, Bool.not_eq_true',
            decide_eq_true_eq] at alive
          exact .stores id flight key value here working alive.1 alive.2
      next => cases step
    next => cases step
  | recheck id =>
    simp only [System.step] at step
    split at step
    next flight here =>
      split at step <;> cases step
      next outcome fetched =>
        refine .works id flight _ here ?_
        rw [fetched]
        split
        · exact .confirms outcome
        · exact .cancelled outcome
    next => cases step
  | finish id =>
    simp only [System.step] at step
    split at step
    next flight here =>
      split at step <;> cases step
      next outcome alive finishing => exact .finishes id flight outcome alive here finishing
    next => cases step
  | clear everything =>
    simp only [System.step] at step
    split at step <;> cases step
    next opened => exact .clears _ (Bool.not_eq_true _ ▸ opened)
  | forget key =>
    cases step
    exact .forgets _
  | shutdown thread =>
    simp only [System.step] at step
    split at step <;> cases step
    next idle => exact .shuts thread idle
  | awake thread =>
    simp only [System.step] at step
    split at step
    next waiting =>
      split at step <;> cases step
      next none => exact .awakes thread _ waiting none
    next => cases step

/-! ## The counters -/

/-- Whether a caller has a `Waiter` of a flight. -/
def Caller.holds (id : Nat) (point : Caller ν) : Bool := point.flight == some id

omit [DecidableEq κ] in

theorem Caller.holds_iff {id : Nat} :
    point.holds id = true ↔ point.flight = some id := beq_iff_eq

/-- Whether a worker is not spawned yet. -/
def Worker.spawns : Worker ν → Bool
  | .spawning => true
  | .working | .fetched _ | .finishing _ _ | .finished => false

/-- The counters count the waiters and the flights that are not finished. -/
structure Counted (flights : List (Flight κ ν)) (callers : List (Caller ν)) (active : Nat) :
    Prop where
  waiters : ∀ (id : Nat) (flight : Flight κ ν), flights[id]? = some flight →
    flight.waiters = callers.countP (·.holds id)
  starting : ∀ (id : Nat) (flight : Flight κ ν), flights[id]? = some flight →
    flight.worker.spawns.toNat = callers.countP (·.starts id)
  known : ∀ point ∈ callers, ∀ id, point.flight = some id → id < flights.length
  running : active = flights.countP (·.worker.running)
  bounded : active ≤ maxFlights

namespace Counted

variable {flights : List (Flight κ ν)} {callers : List (Caller ν)} {active : Nat}

variable {position : Nat}

omit [DecidableEq κ] in

theorem caller {new : Caller ν} (counted : Counted flights callers active)
    (here : callers[position]? = some old) (same : new.flight = old.flight)
    (unstarted : ∀ id, new.starts id = old.starts id) :
    Counted flights (callers.set position new) active where
  waiters id flight there := by
    have holds : new.holds id = old.holds id := by rw [Caller.holds, Caller.holds, same]
    rw [counted.waiters id flight there, countP_set_eq here holds]
  starting id flight there := by
    rw [counted.starting id flight there, countP_set_eq here (unstarted id)]
  known point member id held := by
    rcases List.mem_or_eq_of_mem_set member with before | rfl
    · exact counted.known point before id held
    · exact counted.known old (List.mem_of_getElem? here) id (same ▸ held)
  running := counted.running
  bounded := counted.bounded

variable {id : Nat}

omit [DecidableEq κ] in

/-- A worker that goes on changes the number of those that run by its own share. -/
theorem flight {active' : Nat} {flight again : Flight κ ν}
    (counted : Counted flights callers active) (here : flights[id]? = some flight)
    (waiters : again.waiters = flight.waiters) (spawns : again.worker.spawns = flight.worker.spawns)
    (running : active' + flight.worker.running.toNat = active + again.worker.running.toNat)
    (bounded : active' ≤ maxFlights) :
    Counted (flights.set id again) callers active' where
  waiters other found there := by
    rcases getElem?_set_some there with ⟨rfl, rfl⟩ | ⟨_, there⟩
    · exact waiters.trans (counted.waiters _ flight here)
    · exact counted.waiters other found there
  starting other found there := by
    rcases getElem?_set_some there with ⟨rfl, rfl⟩ | ⟨_, there⟩
    · rw [spawns]
      exact counted.starting _ flight here
    · exact counted.starting other found there
  known point member other held := by
    rw [List.length_set]
    exact counted.known point member other held
  running := by
    have moved := countP_set_add (p := fun flight : Flight κ ν => flight.worker.running) again here
    have before := counted.running
    omega
  bounded := bounded

omit [DecidableEq κ] in

/-- A caller and its flight change their shares together. -/
theorem both {active' : Nat} {new : Caller ν} {flight again : Flight κ ν}
    (counted : Counted flights callers active)
    (here : callers[position]? = some old) (there : flights[id]? = some flight)
    (only : ∀ other, other ≠ id →
      new.holds other = old.holds other ∧ new.starts other = old.starts other)
    (held : ∀ other, new.flight = some other → other = id)
    (waiters : again.waiters + (old.holds id).toNat = flight.waiters + (new.holds id).toNat)
    (spawns : again.worker.spawns.toNat + (old.starts id).toNat =
      flight.worker.spawns.toNat + (new.starts id).toNat)
    (running : active' + flight.worker.running.toNat = active + again.worker.running.toNat)
    (bounded : active' ≤ maxFlights) :
    Counted (flights.set id again) (callers.set position new) active' where
  waiters other found at_ := by
    rcases getElem?_set_some at_ with ⟨rfl, rfl⟩ | ⟨different, at_⟩
    · have moved := countP_set_add (p := (·.holds other)) new here
      have before := counted.waiters _ flight there
      omega
    · rw [countP_set_eq here (only other different).1]
      exact counted.waiters other found at_
  starting other found at_ := by
    rcases getElem?_set_some at_ with ⟨rfl, rfl⟩ | ⟨different, at_⟩
    · have moved := countP_set_add (p := (·.starts other)) new here
      have before := counted.starting _ flight there
      omega
    · rw [countP_set_eq here (only other different).2]
      exact counted.starting other found at_
  known point member other holds := by
    rw [List.length_set]
    rcases List.mem_or_eq_of_mem_set member with before | rfl
    · exact counted.known point before other holds
    · obtain rfl := held other holds
      exact (List.getElem?_eq_some_iff.mp there).1
  running := by
    have moved := countP_set_add (p := fun flight : Flight κ ν => flight.worker.running) again there
    have before := counted.running
    omega
  bounded := bounded

omit [DecidableEq κ] in

theorem none_holds (counted : Counted flights callers active) :
    callers.countP (·.holds flights.length) = 0 ∧ callers.countP (·.starts flights.length) = 0 := by
  have nobody : ∀ point ∈ callers, point.flight ≠ some flights.length := fun point member held =>
    Nat.lt_irrefl _ (counted.known point member _ held)
  refine ⟨List.countP_eq_zero.mpr fun point member holds => ?_,
    List.countP_eq_zero.mpr fun point member starts => ?_⟩
  · exact nobody point member (Caller.holds_iff.mp holds)
  · refine nobody point member ?_
    cases point with
    | spawning flight => exact congrArg some (beq_iff_eq.mp starts)
    | idle | waiting _ | peeking _ | cloned _ _ | leaving _ _ | returned _ _ => cases starts

omit [DecidableEq κ] in

theorem starts {flight : Flight κ ν} (counted : Counted flights callers active)
    (here : callers[position]? = some .idle) (waiters : flight.waiters = 1)
    (spawning : flight.worker = .spawning) (room : active < maxFlights) :
    Counted (flights ++ [flight]) (callers.set position (.spawning flights.length))
      (active + 1) where
  waiters other found there := by
    rcases getElem?_append_some there with ⟨rfl, rfl⟩ | ⟨inside, there⟩
    · have moved := countP_set_add (p := (·.holds flights.length)) (.spawning flights.length) here
      have holds : (Caller.spawning flights.length : Caller ν).holds flights.length = true :=
        Caller.holds_iff.mpr rfl
      have free : (Caller.idle : Caller ν).holds flights.length = false := rfl
      rw [counted.none_holds.1, holds, free] at moved
      exact waiters.trans moved.symm
    · have holds : (Caller.spawning flights.length : Caller ν).holds other = false :=
        Bool.eq_false_iff.mpr fun held =>
          absurd (Option.some.inj (Caller.holds_iff.mp held)) (Nat.ne_of_gt inside)
      rw [countP_set_eq here holds]
      exact counted.waiters other found there
  starting other found there := by
    rcases getElem?_append_some there with ⟨rfl, rfl⟩ | ⟨inside, there⟩
    · have moved := countP_set_add (p := (·.starts flights.length)) (.spawning flights.length) here
      have starts : (Caller.spawning flights.length : Caller ν).starts flights.length = true :=
        beq_self_eq_true _
      have free : (Caller.idle : Caller ν).starts flights.length = false := rfl
      rw [counted.none_holds.2, starts, free] at moved
      rw [spawning]
      exact moved.symm
    · have starts : (Caller.spawning flights.length : Caller ν).starts other = false :=
        beq_eq_false_iff_ne.mpr (Nat.ne_of_gt inside)
      rw [countP_set_eq here starts]
      exact counted.starting other found there
  known point member id held := by
    rw [List.length_append, List.length_singleton]
    rcases List.mem_or_eq_of_mem_set member with before | rfl
    · have inside := counted.known point before id held
      omega
    · obtain rfl : flights.length = id := Option.some.inj held
      omega
  running := by
    have runs : flight.worker.running = true := by rw [spawning]; rfl
    rw [List.countP_append, List.countP_singleton, if_pos runs, ← counted.running]
  bounded := room

omit [DecidableEq κ] in

/-- A flight that somebody has a `Waiter` of has waiters. -/
theorem waiters_pos {flight : Flight κ ν}
    (counted : Counted flights callers active) (there : flights[id]? = some flight)
    (member : point ∈ callers) (held : point.flight = some id) : 0 < flight.waiters := by
  rw [counted.waiters id flight there]
  exact List.countP_pos_iff.mpr ⟨point, member, Caller.holds_iff.mpr held⟩

omit [DecidableEq κ] in

/-- A caller that has to spawn a worker finds it not spawned. -/
theorem spawning {flight : Flight κ ν}
    (counted : Counted flights callers active) (there : flights[id]? = some flight)
    (here : callers[position]? = some (.spawning id)) : flight.worker = .spawning := by
  have some : 0 < callers.countP (·.starts id) :=
    List.countP_pos_iff.mpr ⟨_, List.mem_of_getElem? here, beq_self_eq_true id⟩
  have counts := counted.starting id flight there
  cases worker : flight.worker with
  | spawning => rfl
  | working | fetched _ | finishing _ _ | finished =>
    rw [worker] at counts
    simp only [Worker.spawns, Bool.toNat_false] at counts
    omega

end Counted

omit [DecidableEq κ] in

theorem Caller.starts_of_waits {id : Nat} (waits : point.waits = true) :
    point.starts id = false := by
  cases point <;> first | rfl | cases waits

omit [DecidableEq κ] in

theorem Goes.flight_eq (goes : Goes system old point) :
    point.flight = old.flight ∧ ∀ id, point.starts id = old.starts id := by
  cases goes with
  | answers answer => exact ⟨rfl, fun _ => rfl⟩
  | loops old point id waits held form =>
    rcases form with rfl | rfl
    all_goals exact ⟨held.symm, fun _ => (Caller.starts_of_waits waits).symm⟩
  | clones id flight outcome there published => exact ⟨rfl, fun _ => rfl⟩
  | confirms id outcome => exact ⟨rfl, fun _ => rfl⟩
  | stops old id answer waits held form =>
    exact ⟨held.symm, fun _ => (Caller.starts_of_waits waits).symm⟩

omit [DecidableEq κ] in

theorem Works.running {old worker : Worker ν} (works : Works service old worker) :
    old.running = true ∧ worker.running = true ∧ old.spawns = false ∧ worker.spawns = false := by
  cases works <;> exact ⟨rfl, rfl, rfl, rfl⟩

/-! ### What `finish` leaves -/

section Finish

variable {id : Nat} {flight : Flight κ ν} {outcome : Outcome ν} {alive : Bool}

theorem System.finish_flights : (system.finish service id flight outcome alive).flights =
    system.flights.set id { flight with result := some outcome, worker := .finished } := by
  simp only [System.finish]
  split
  · split <;> rfl
  · rfl

theorem System.finish_callers :
    (system.finish service id flight outcome alive).callers = system.callers := by
  simp only [System.finish]
  split
  · split <;> rfl
  · rfl

theorem System.finish_active :
    (system.finish service id flight outcome alive).active = system.active - 1 := by
  simp only [System.finish]
  split
  · split <;> rfl
  · rfl

theorem System.finish_table : (system.finish service id flight outcome alive).table =
    if system.table (flight.generation, flight.key) = some id then
      Function.update system.table (flight.generation, flight.key) none
    else system.table := by
  simp only [System.finish]
  split
  · split <;> rfl
  · rfl

theorem System.finish_closed :
    (system.finish service id flight outcome alive).closed = system.closed := by
  simp only [System.finish]
  split
  · split <;> rfl
  · rfl

theorem System.finish_published :
    (system.finish service id flight outcome alive).published = id :: system.published := by
  simp only [System.finish]
  split
  · split <;> rfl
  · rfl

end Finish

omit [DecidableEq κ] in

theorem Counted.active_pos {flights : List (Flight κ ν)} {callers : List (Caller ν)}
    {active id : Nat} {flight : Flight κ ν} (counted : Counted flights callers active)
    (here : flights[id]? = some flight) (runs : flight.worker.running = true) : 0 < active := by
  rw [counted.running]
  exact List.countP_pos_iff.mpr ⟨flight, List.mem_of_getElem? here, runs⟩

theorem Counted.stepped (counted : Counted system.flights system.callers system.active)
    (stepped : Stepped service system next) : Counted next.flights next.callers next.active := by
  cases stepped with
  | goes caller old point cache here goes =>
    exact counted.caller here goes.flight_eq.1 goes.flight_eq.2
  | joins caller id flight point cache here there waited form =>
    refine counted.both here there (fun other different => ?_) (fun other held => ?_) ?_ ?_
      rfl counted.bounded
    · rcases form with rfl | rfl
      all_goals exact ⟨beq_eq_false_iff_ne.mpr fun same => different (Option.some.inj same).symm,
        rfl⟩
    · rcases form with rfl | rfl
      all_goals exact (Option.some.inj held).symm
    · have holds : point.holds id = true := by
        rcases form with rfl | rfl
        all_goals exact Caller.holds_iff.mpr rfl
      rw [holds]
      rfl
    · rcases form with rfl | rfl
      all_goals rfl
  | starts caller key cache here opened room alone => exact counted.starts here rfl rfl room
  | spawns caller id flight here there =>
    have spawning := counted.spawning there here
    refine counted.both here there (fun other different => ?_) (fun other held => ?_) rfl ?_
      ?_ counted.bounded
    · exact ⟨rfl, (beq_eq_false_iff_ne.mpr (Ne.symm different)).symm⟩
    · exact (Option.some.inj held).symm
    · rw [spawning]
      exact congrArg (0 + ·.toNat) (beq_self_eq_true id)
    · rw [spawning]
      rfl
  | fails caller id flight here there =>
    have spawning := counted.spawning there here
    have positive := counted.active_pos there (by rw [spawning]; rfl)
    rw [System.finish_flights, System.finish_callers, System.finish_active]
    refine counted.both here there (fun other different => ?_) (fun other held => ?_) rfl ?_
      ?_ (Nat.le_trans (Nat.sub_le _ _) counted.bounded)
    · exact ⟨rfl, (beq_eq_false_iff_ne.mpr (Ne.symm different)).symm⟩
    · exact (Option.some.inj held).symm
    · rw [spawning]
      exact congrArg (0 + ·.toNat) (beq_self_eq_true id)
    · rw [spawning]
      simp only [Worker.running, Bool.toNat_true, Bool.toNat_false, System.setCaller]
      omega
  | leaves caller id flight answer here there =>
    have positive := counted.waiters_pos there (List.mem_of_getElem? here) rfl
    refine counted.both here there (fun other different => ?_) nofun ?_ rfl rfl counted.bounded
    · exact ⟨(beq_eq_false_iff_ne.mpr fun same => different (Option.some.inj same).symm).symm, rfl⟩
    · have holds : (Caller.leaving id answer).holds id = true := Caller.holds_iff.mpr rfl
      rw [holds]
      exact Nat.sub_add_cancel positive
  | works id flight worker here works =>
    have ⟨ran, runs, spawned, spawns⟩ := works.running
    exact counted.flight here rfl (spawns.trans spawned.symm)
      (congrArg (system.active + ·.toNat) (ran.trans runs.symm)) counted.bounded
  | finishes id flight outcome alive here finishing =>
    have positive := counted.active_pos here (by rw [finishing]; rfl)
    rw [System.finish_flights, System.finish_callers, System.finish_active]
    refine counted.flight here rfl (by rw [finishing]; rfl) ?_
      (Nat.le_trans (Nat.sub_le _ _) counted.bounded)
    rw [finishing]
    simp only [Worker.running, Bool.toNat_true, Bool.toNat_false]
    omega
  | stores id flight key value here working opened waited =>
    simp only [System.store]
    split <;> exact counted
  | clears cache opened => exact counted
  | forgets cache => exact counted
  | shuts thread idle => exact counted
  | awakes thread cache waiting none => exact counted

/-! ## The table -/

/-- The table leads to flights that are not finished, and to all of them that have waiters. -/
structure Tabled (flights : List (Flight κ ν)) (table : Nat × κ → Option Nat) : Prop where
  leads : ∀ key id, table key = some id → ∃ flight, flights[id]? = some flight ∧
    (flight.generation, flight.key) = key ∧ flight.worker.running = true
  listed : ∀ (id : Nat) (flight : Flight κ ν), flights[id]? = some flight →
    flight.worker.running = true → 0 < flight.waiters →
    table (flight.generation, flight.key) = some id

namespace Tabled

variable {flights : List (Flight κ ν)} {table : Nat × κ → Option Nat} {id : Nat}
  {flight again : Flight κ ν}

omit [DecidableEq κ] in

/-- What keeps the key of a flight changes nothing, when no waiter comes to a flight that
has none. -/
theorem keeps (tabled : Tabled flights table) (here : flights[id]? = some flight)
    (key : (again.generation, again.key) = (flight.generation, flight.key))
    (runs : again.worker.running = flight.worker.running)
    (waiters : 0 < again.waiters → 0 < flight.waiters) :
    Tabled (flights.set id again) table where
  leads sought other listed := by
    obtain ⟨found, there, keyed, running⟩ := tabled.leads sought other listed
    by_cases same : other = id
    · subst same
      obtain rfl : flight = found := Option.some.inj (here.symm.trans there)
      exact ⟨again, List.getElem?_set_self (List.getElem?_eq_some_iff.mp here).1,
        key.trans keyed, runs.trans running⟩
    · exact ⟨found, (List.getElem?_set_ne (Ne.symm same)).trans there, keyed, running⟩
  listed other found there running waited := by
    rcases getElem?_set_some there with ⟨rfl, rfl⟩ | ⟨_, there⟩
    · rw [key]
      exact tabled.listed _ flight here (runs.symm.trans running) (waiters waited)
    · exact tabled.listed other found there running waited

/-- A new flight takes the place of one that has no waiters. -/
theorem starts (tabled : Tabled flights table) (runs : flight.worker.running = true)
    (alone : ∀ id found, table (flight.generation, flight.key) = some id →
      flights[id]? = some found → found.waiters = 0) :
    Tabled (flights ++ [flight])
      (Function.update table (flight.generation, flight.key) (some flights.length)) where
  leads sought other listed := by
    by_cases same : sought = (flight.generation, flight.key)
    · rw [same, Function.update_self] at listed
      cases listed
      exact ⟨flight, List.getElem?_concat_length, same.symm, runs⟩
    · rw [Function.update_of_ne same] at listed
      obtain ⟨found, there, rest⟩ := tabled.leads sought other listed
      have inside := (List.getElem?_eq_some_iff.mp there).1
      exact ⟨found, (List.getElem?_append_left inside).trans there, rest⟩
  listed other found there running waited := by
    rcases getElem?_append_some there with ⟨rfl, rfl⟩ | ⟨_, there⟩
    · exact Function.update_self _ _ _
    · have listed := tabled.listed other found there running waited
      rw [Function.update_of_ne]
      · exact listed
      · intro same
        rw [same] at listed
        exact Nat.ne_of_gt waited (alone other found listed there)

/-- A flight that finishes leaves the table, and the flight that has replaced it stays. -/
theorem finishes (tabled : Tabled flights table) (here : flights[id]? = some flight)
    (finished : again.worker.running = false) :
    Tabled (flights.set id again) (if table (flight.generation, flight.key) = some id then
        Function.update table (flight.generation, flight.key) none
      else table) where
  leads sought other listed := by
    have ⟨before, different⟩ : table sought = some other ∧ other ≠ id := by
      split at listed
      next current =>
        by_cases same : sought = (flight.generation, flight.key)
        · rw [same, Function.update_self] at listed
          cases listed
        · rw [Function.update_of_ne same] at listed
          refine ⟨listed, fun equal => same ?_⟩
          obtain ⟨found, there, keyed, _⟩ := tabled.leads sought other listed
          rw [equal, here] at there
          cases there
          exact keyed.symm
      next replaced =>
        refine ⟨listed, fun equal => replaced ?_⟩
        obtain ⟨found, there, keyed, _⟩ := tabled.leads sought other listed
        rw [equal, here] at there
        cases there
        rw [keyed, listed, equal]
    obtain ⟨found, there, rest⟩ := tabled.leads sought other before
    exact ⟨found, (List.getElem?_set_ne (Ne.symm different)).trans there, rest⟩
  listed other found there running waited := by
    rcases getElem?_set_some there with ⟨rfl, rfl⟩ | ⟨different, there⟩
    · rw [finished] at running
      cases running
    · have listed := tabled.listed other found there running waited
      split
      next current =>
        rw [Function.update_of_ne]
        · exact listed
        · intro same
          rw [same, current] at listed
          exact different (Option.some.inj listed).symm
      next => exact listed

end Tabled

theorem Tabled.stepped (tabled : Tabled system.flights system.table)
    (counted : Counted system.flights system.callers system.active)
    (stepped : Stepped service system next) : Tabled next.flights next.table := by
  cases stepped with
  | goes caller old point cache here goes => exact tabled
  | joins caller id flight point cache here there waited form =>
    exact tabled.keeps there rfl rfl fun _ => waited
  | starts caller key cache here opened room alone => exact tabled.starts rfl alone
  | spawns caller id flight here there =>
    have spawning := counted.spawning there here
    exact tabled.keeps there rfl (by rw [spawning]; rfl) fun waited => waited
  | fails caller id flight here there =>
    rw [System.finish_flights, System.finish_table]
    exact tabled.finishes there rfl
  | leaves caller id flight answer here there =>
    exact tabled.keeps there rfl rfl fun waited =>
      Nat.lt_of_lt_of_le waited (Nat.sub_le _ _)
  | works id flight worker here works =>
    have ⟨ran, runs, _⟩ := works.running
    exact tabled.keeps here rfl (runs.trans ran.symm) fun waited => waited
  | finishes id flight outcome alive here finishing =>
    rw [System.finish_flights, System.finish_table]
    exact tabled.finishes here rfl
  | stores id flight key value here working opened waited =>
    simp only [System.store]
    split <;> exact tabled
  | clears cache opened => exact tabled
  | forgets cache => exact tabled
  | shuts thread idle => exact tabled
  | awakes thread cache waiting none => exact tabled

end LosslessMusic.Providers
