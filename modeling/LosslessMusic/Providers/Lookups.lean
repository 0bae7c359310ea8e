import LosslessMusic.Transition.Machine
import LosslessMusic.Transition.Parties
import Mathlib.Logic.Function.Basic

/-!
# Shared lookups

`Coalescer` with two of its owners, the availability and the lyrics service: callers that
ask for the same thing share a flight, whose worker goes on by itself. What a service does
under its lock is one event. Waiters come and go by atomic counters outside the lock.

The region and the options are parts of the keys. A cached entry may go at any time.
-/

namespace LosslessMusic.Providers

open Transition

/-- `MAX_FLIGHTS`. -/
def maxFlights : Nat := 64

/-- The values of `generation`. -/
def generations : Nat := 2 ^ 64

/-- The owners of a flight table. -/
inductive Service
  | availability
  | lyrics
  deriving DecidableEq, Repr

/-- What a lookup comes to. -/
inductive Outcome (ν : Type)
  | value (value : ν)
  | cancelled
  | closed
  | busy
  | notFound
  | failed
  deriving DecidableEq, Repr

/-- Where the worker of a flight is. -/
inductive Worker (ν : Type)
  /-- Not spawned yet. -/
  | spawning
  | working
  /-- With a result, before the last check. -/
  | fetched (outcome : Outcome ν)
  /-- Before `finish`; whether the flight had waiters at the last check. -/
  | finishing (outcome : Outcome ν) (alive : Bool)
  | finished
  deriving DecidableEq, Repr

/-- Whether a worker is not done. -/
def Worker.running {ν : Type} : Worker ν → Bool
  | .finished => false
  | .spawning | .working | .fetched _ | .finishing _ _ => true

/-- `Flight`, with its key and its generation. The generation is also counted without an
end. -/
structure Flight (κ ν : Type) where
  key : κ
  generation : Nat
  epoch : Nat
  waiters : Nat
  result : Option (Outcome ν)
  worker : Worker ν
  deriving DecidableEq, Repr

/-- What a caller returns. -/
inductive Answer (ν : Type)
  /-- Its own check has failed. -/
  | own
  | closed
  | busy
  /-- A cached result. -/
  | cached
  /-- It would wait for itself. -/
  | recursive
  | result (outcome : Outcome ν)
  deriving DecidableEq, Repr

/-- Where a caller is, and which flight it has a `Waiter` of. -/
inductive Caller (ν : Type)
  | idle
  /-- It has started the flight, and has to spawn the worker. -/
  | spawning (flight : Nat)
  /-- In `wait`, before a check. -/
  | waiting (flight : Nat)
  /-- Behind the check. -/
  | peeking (flight : Nat)
  /-- With the result, before the last check. -/
  | cloned (flight : Nat) (outcome : Outcome ν)
  /-- Before its `Waiter` is dropped. -/
  | leaving (flight : Nat) (answer : Answer ν)
  | returned (flight : Option Nat) (answer : Answer ν)
  deriving DecidableEq, Repr

/-- The flight that a caller has a `Waiter` of. -/
def Caller.flight {ν : Type} : Caller ν → Option Nat
  | .spawning flight | .waiting flight | .peeking flight | .cloned flight _
  | .leaving flight _ => some flight
  | .idle | .returned _ _ => none

/-- A result that has entered a cache, and how it was then. -/
structure Cached (κ ν : Type) where
  key : κ
  outcome : Outcome ν
  flight : Nat
  epoch : Nat
  closed : Bool
  /-- Whether the flight had waiters at the worker's last check, and whether it still had
  some. -/
  alive : Bool
  waiters : Nat
  deriving DecidableEq, Repr

/-- Where a thread is that shuts the service down. -/
inductive Shutdown
  | idle
  | waiting
  | ended
  deriving DecidableEq, Repr

/-- What a service has under its lock, its flights and its callers, and what is remembered
of a run with the latest first. -/
structure System (κ ν : Type) where
  generation : Nat
  epoch : Nat
  closed : Bool
  cache : κ → Option (Outcome ν)
  table : Nat × κ → Option Nat
  active : Nat
  flights : List (Flight κ ν)
  callers : List (Caller ν)
  shutdowns : Nat → Shutdown
  entered : List (Cached κ ν)
  published : List Nat
  abandoned : List Nat

/-- What happens. -/
inductive Event (κ ν : Type)
  /-- A caller looks under the lock: whether its check passes, whether a cached entry is
  still fresh, and whether it would wait for itself. -/
  | lookup (caller : Nat) (key : κ) (passes fresh recursive : Bool)
  | spawn (caller : Nat) (succeeds : Bool)
  | check (caller : Nat) (passes : Bool)
  | peek (caller : Nat)
  | leave (caller : Nat)
  | fetch (flight : Nat) (outcome : Outcome ν)
  /-- `store` of the lyrics service, from its worker. -/
  | store (flight : Nat) (key : κ) (value : ν)
  | recheck (flight : Nat)
  | finish (flight : Nat)
  /-- `clear_cache`, other options, or `drop_memory`, which drops everything. -/
  | clear (everything : Bool)
  /-- An entry is evicted, or is over its time. -/
  | forget (key : κ)
  | shutdown (thread : Nat)
  | awake (thread : Nat)
  deriving DecidableEq, Repr

/-- What `finish` of a service puts into the cache for a key. -/
def Service.keeps {ν : Type} : Service → Outcome ν → Option (Option (Outcome ν))
  | .availability, .cancelled | .availability, .closed | .availability, .busy => none
  | .availability, outcome => some (some outcome)
  | .lyrics, .notFound => some (some .notFound)
  | .lyrics, .value _ => some none
  | .lyrics, _ => none

/-- Whether a worker has this result only behind a last check. What the lyrics worker
returns from its middle needs none, and its errors do not enter the cache. -/
def Service.rechecks {ν : Type} : Service → Outcome ν → Bool
  | .availability, _ | .lyrics, .notFound => true
  | .lyrics, _ => false

/-- Whether callers of a service may wait for each other's flights in a circle. -/
def Service.nests : Service → Bool
  | .availability => false
  | .lyrics => true

/-- The cache of a service behind `clear_cache`. Lyrics that were not found stay so. -/
def Service.cleared {κ ν : Type} (cache : κ → Option (Outcome ν)) : Service → κ → Option (Outcome ν)
  | .availability => fun _ => none
  | .lyrics => cache

namespace System

variable {κ ν : Type}

/-- A service with some callers. -/
def beginning (callers : Nat) : System κ ν where
  generation := 0
  epoch := 0
  closed := false
  cache _ := none
  table _ := none
  active := 0
  flights := []
  callers := List.replicate callers .idle
  shutdowns _ := .idle
  entered := []
  published := []
  abandoned := []

variable (service : Service) (system : System κ ν)

/-- A caller goes on. -/
def setCaller (caller : Nat) (point : Caller ν) : System κ ν :=
  { system with callers := system.callers.set caller point }

/-- Something changes at a flight. -/
def setFlight (id : Nat) (flight : Flight κ ν) : System κ ν :=
  { system with flights := system.flights.set id flight }

/-! ## `Coalescer` -/

def isFull : Bool := decide (maxFlights ≤ system.active)

/-- A flight that is known by its number. -/
def flight? (id : Nat) : Option (Nat × Flight κ ν) :=
  system.flights[id]?.map fun flight => (id, flight)

/-- `try_join`: the flight of a key, if it still has waiters. -/
def tryJoin (key : Nat × κ) : Option (Nat × Flight κ ν) :=
  match (system.table key).bind system.flight? with
  | some (id, flight) => if 0 < flight.waiters then some (id, flight) else none
  | none => none

def insert [DecidableEq κ] (flight : Flight κ ν) : System κ ν :=
  { system with
    table := Function.update system.table (flight.generation, flight.key)
      (some system.flights.length)
    flights := system.flights ++ [flight]
    active := system.active + 1 }

/-- `finish`. -/
def publish [DecidableEq κ] (id : Nat) (flight : Flight κ ν) (outcome : Outcome ν) :
    System κ ν :=
  let key := (flight.generation, flight.key)
  { system.setFlight id { flight with result := some outcome, worker := .finished } with
    table := if system.table key = some id then Function.update system.table key none
      else system.table
    active := system.active - 1
    published := id :: system.published }

/-! ## The services -/

/-- A result enters the cache of its service. -/
def enter [DecidableEq κ] (key : κ) (id : Nat) (flight : Flight κ ν) (outcome : Outcome ν)
    (alive : Bool) (kept : Option (Outcome ν)) : System κ ν :=
  { system with
    cache := Function.update system.cache key kept
    entered :=
      if kept.isSome then
        ⟨key, outcome, id, system.epoch, system.closed, alive, flight.waiters⟩ :: system.entered
      else system.entered }

def finish [DecidableEq κ] (id : Nat) (flight : Flight κ ν) (outcome : Outcome ν)
    (alive : Bool) : System κ ν :=
  let next :=
    if flight.generation = system.generation ∧ system.closed = false then
      match service.keeps outcome with
      | some kept => system.enter flight.key id flight outcome alive kept
      | none => system
    else system
  next.publish id flight outcome

/-- `store`, behind its check. -/
def store (key : κ) (id : Nat) (flight : Flight κ ν) (value : ν) : System κ ν :=
  if flight.generation = system.generation then
    { system with
      entered := ⟨key, .value value, id, system.epoch, system.closed, decide (0 < flight.waiters),
          flight.waiters⟩ :: system.entered }
  else system

/-- A `Waiter` is dropped. -/
def dropWaiter (id : Nat) (flight : Flight κ ν) : System κ ν :=
  { system.setFlight id { flight with waiters := flight.waiters - 1 } with
    abandoned := if flight.waiters = 1 then id :: system.abandoned else system.abandoned }

/-- `Flight::check`. -/
def flightCheck (flight : Flight κ ν) : Bool :=
  !system.closed && decide (0 < flight.waiters)

/-- What a caller does under the lock, when it is not cancelled. -/
def lookup [DecidableEq κ] (caller : Nat) (key : κ) (fresh recursive : Bool) : System κ ν :=
  if (system.cache key).isSome ∧ fresh = true then
    system.setCaller caller (.returned none .cached)
  else
    let system := { system with cache := Function.update system.cache key none }
    match system.tryJoin (system.generation, key) with
    | some (id, flight) =>
      (system.setFlight id { flight with waiters := flight.waiters + 1 }).setCaller caller
        (if recursive then .leaving id .recursive else .waiting id)
    | none =>
      if system.isFull then system.setCaller caller (.returned none .busy)
      else if recursive then system.setCaller caller (.returned none .recursive)
      else
        (system.insert ⟨key, system.generation, system.epoch, 1, none, .spawning⟩).setCaller
          caller (.spawning system.flights.length)

/-- The check of a caller in the middle of `wait`. -/
def checked (caller : Nat) (flight : Nat) (passes : Bool) (point : Caller ν) : System κ ν :=
  if system.closed then system.setCaller caller (.leaving flight .closed)
  else if passes then system.setCaller caller point
  else system.setCaller caller (.leaving flight .own)

/-- One event, if it can happen. -/
def step [DecidableEq κ] : Event κ ν → Option (System κ ν)
  | .lookup caller key passes fresh recursive =>
    match system.callers[caller]? with
    | some .idle =>
      if system.closed then some (system.setCaller caller (.returned none .closed))
      else if passes then
        some (system.lookup caller key fresh (recursive && service.nests))
      else some (system.setCaller caller (.returned none .own))
    | _ => none
  | .spawn caller succeeds =>
    match system.callers[caller]? with
    | some (.spawning id) =>
      match system.flights[id]? with
      | some flight =>
        let next := system.setCaller caller (.waiting id)
        if succeeds then some (next.setFlight id { flight with worker := .working })
        else some (next.finish service id flight .failed (decide (0 < flight.waiters)))
      | none => none
    | _ => none
  | .check caller passes =>
    match system.callers[caller]? with
    | some (.waiting id) => some (system.checked caller id passes (.peeking id))
    | some (.cloned id outcome) =>
      some (system.checked caller id passes (.leaving id (.result outcome)))
    | _ => none
  | .peek caller =>
    match system.callers[caller]? with
    | some (.peeking id) =>
      match system.flights[id]? with
      | some flight =>
        match flight.result with
        | some outcome => some (system.setCaller caller (.cloned id outcome))
        | none => some (system.setCaller caller (.waiting id))
      | none => none
    | _ => none
  | .leave caller =>
    match system.callers[caller]? with
    | some (.leaving id answer) =>
      match system.flights[id]? with
      | some flight =>
        some ((system.dropWaiter id flight).setCaller caller (.returned (some id) answer))
      | none => none
    | _ => none
  | .fetch id outcome =>
    match system.flights[id]? with
    | some flight =>
      match flight.worker with
      | .working =>
        some (system.setFlight id { flight with
          worker := if service.rechecks outcome then .fetched outcome
            else .finishing outcome false })
      | _ => none
    | none => none
  | .store id key value =>
    match service, system.flights[id]? with
    | .lyrics, some flight =>
      match flight.worker with
      | .working =>
        if system.flightCheck flight then some (system.store key id flight value) else none
      | _ => none
    | _, _ => none
  | .recheck id =>
    match system.flights[id]? with
    | some flight =>
      match flight.worker with
      | .fetched outcome =>
        some (system.setFlight id { flight with
          worker := if system.flightCheck flight then .finishing outcome true
            else .finishing .cancelled false })
      | _ => none
    | none => none
  | .finish id =>
    match system.flights[id]? with
    | some flight =>
      match flight.worker with
      | .finishing outcome alive => some (system.finish service id flight outcome alive)
      | _ => none
    | none => none
  | .clear everything =>
    if system.closed then none
    else some { system with
      generation := (system.generation + 1) % generations
      epoch := system.epoch + 1
      cache := if everything then fun _ => none else service.cleared system.cache }
  | .forget key => some { system with cache := Function.update system.cache key none }
  | .shutdown thread =>
    match system.shutdowns thread with
    | .idle =>
      some { system with
        closed := true
        shutdowns := Function.update system.shutdowns thread .waiting }
    | _ => none
  | .awake thread =>
    match system.shutdowns thread with
    | .waiting =>
      if system.active = 0 then
        some { system with
          cache := service.cleared system.cache
          shutdowns := Function.update system.shutdowns thread .ended }
      else none
    | _ => none

/-- A service, from its making. -/
def machine [DecidableEq κ] (service : Service) : Machine (System κ ν) (Event κ ν) where
  Start system := ∃ callers, system = beginning callers
  step system event := system.step service event

end System

/-! ## The promises -/

/-- Whether an event is one of the worker of a flight, of the caller that has started it, or
of another caller that is not cancelled. -/
def Event.serves {κ ν : Type} (flight caller starter : Nat) : Event κ ν → Bool
  | .spawn other _ => other == starter
  | .check other passes => other == caller && passes
  | .peek other | .leave other => other == caller
  | .fetch other _ | .recheck other | .finish other => other == flight
  | _ => false

/-- What a run of a service promises. -/
structure System.Promised {κ ν : Type} [DecidableEq κ] (service : Service)
    (system : System κ ν) : Prop where
  /-- For one key and generation there is one flight at most that is not finished and has
  waiters. -/
  unique : ∀ (id other : Nat) (flight again : Flight κ ν),
    system.flights[id]? = some flight → system.flights[other]? = some again →
    flight.worker.running = true → again.worker.running = true →
    0 < flight.waiters → 0 < again.waiters →
    flight.key = again.key → flight.generation = again.generation → id = other
  /-- The table leads to flights of their keys that are not finished. -/
  led : ∀ (key : Nat × κ) (id : Nat), system.table key = some id →
    ∃ flight, system.flights[id]? = some flight ∧ (flight.generation, flight.key) = key ∧
      flight.worker.running = true
  /-- A flight that is not finished and has waiters is the one in the table. -/
  listed : ∀ (id : Nat) (flight : Flight κ ν), system.flights[id]? = some flight →
    flight.worker.running = true → 0 < flight.waiters →
    system.table (flight.generation, flight.key) = some id
  /-- What everybody has left nobody joins. -/
  abandoned : ∀ id ∈ system.abandoned, ∃ flight, system.flights[id]? = some flight ∧
    flight.waiters = 0
  /-- A caller that has joined a flight returns what the flight has published, unless its
  own check fails, the service is closed, or it would wait for itself. -/
  answered : ∀ (id : Nat) (answer : Answer ν), .returned (some id) answer ∈ system.callers →
    answer = .own ∨ (answer = .closed ∧ system.closed = true) ∨ answer = .recursive ∨
      ∃ flight outcome, answer = .result outcome ∧ system.flights[id]? = some flight ∧
        flight.result = some outcome
  /-- Before that, and while the service is not closed, the steps of the worker and of the
  caller lead there. -/
  delivered : ∀ (caller id : Nat) (point : Caller ν), system.callers[caller]? = some point →
    point.flight = some id → (∀ answer, point ≠ .leaving id answer) → system.closed = false →
    ∃ starter later, (System.machine service).Path
      (fun _ event => event.serves id caller starter = true) system later ∧
      ∃ flight outcome, later.flights[id]? = some flight ∧ flight.result = some outcome ∧
        later.callers[caller]? = some (.returned (some id) (.result outcome))
  /-- Every finished flight has published one result, and no other has. -/
  published : system.published.Nodup ∧ ∀ id, id ∈ system.published ↔
    ∃ flight, system.flights[id]? = some flight ∧ flight.worker = .finished ∧
      flight.result.isSome = true
  /-- The flights that are not finished are counted, and they are not too many. -/
  counted : system.active = system.flights.countP (·.worker.running) ∧ system.active ≤ maxFlights
  /-- A result enters a cache in the generation of its flight, before the service is
  closed, and if the flight had waiters at the last check. -/
  entered : ∀ cached ∈ system.entered, cached.closed = false ∧ cached.alive = true ∧
    ∃ flight, system.flights[cached.flight]? = some flight ∧
      (cached.epoch = flight.epoch ∨ flight.epoch + generations ≤ cached.epoch)
  /-- No worker runs behind `shutdown`. -/
  ended : ∀ thread, system.shutdowns thread = .ended →
    ∀ flight ∈ system.flights, flight.worker.running = false

end LosslessMusic.Providers
