import LosslessMusic.Transition.Machine
import Mathlib.Logic.Function.Basic

/-!
# Workers of download extensions

`manager/downloads.rs` with the calls of the manager that change an extension: downloads
borrow isolated runtimes from the pool of an installation and give them back, while the
extension is enabled and disabled, its settings change, it is removed or upgraded, and idle
runtimes are released. An event is what a thread does in one section that a lock protects.

One extension is followed through its installations, which are numbered. The primary runtime
is left out: which way `ready` goes is part of the event. So are failures. The settings are
those that do not begin with an underscore, the only ones that count here.
-/

namespace LosslessMusic.Extensions.Workers

/-! ## The manager -/

/-- An isolated runtime: whether it is closed, and what it was initialized with. -/
structure Runtime (σ : Type) where
  closed : Bool
  settings : σ
  deriving DecidableEq, Repr

/-- `Pool`. Runtimes are numbered. -/
structure Pool (σ : Type) where
  active : List Nat := []
  idle : Option Nat := none
  generation : Nat := 0
  settings : Option σ := none
  deriving DecidableEq, Repr

/-- `Installed`. The engine lock is known by the thread that holds it. -/
structure Installed (σ : Type) where
  enabled : Bool
  engine : Option Nat := none
  downloads : Pool σ := {}
  deriving DecidableEq, Repr

/-- What a thread makes an engine ready for. -/
inductive Purpose
  | borrow
  | enable
  /-- `initialize`, with new settings. -/
  | configure
  deriving DecidableEq, Repr

/-- Why a thread tears an installation down. An upgrade carries whether its candidate is
enabled. -/
inductive Ending
  | disable
  | unload
  | upgrade (enabled : Bool)
  deriving DecidableEq, Repr

/-- Where a thread is. What a borrower has read and taken goes with it. -/
inductive Thread (σ : Type)
  | free
  /-- Waits for the engine lock. -/
  | waiting (purpose : Purpose) (entry : Nat)
  /-- Holds the engine lock, in `ready`. -/
  | preparing (purpose : Purpose) (entry : Nat)
  /-- `initialize`, behind `ready`. -/
  | initializing (entry : Nat)
  /-- `borrow_download`, before the settings are read. -/
  | reading (entry : Nat)
  /-- Before the pool is looked at. -/
  | pooling (entry : Nat) (settings : σ)
  /-- With what was idle, outside the pool lock. -/
  | starting (entry : Nat) (settings : σ) (generation : Nat) (idle : Option Nat)
  /-- With a runtime that is not active yet. -/
  | entering (entry : Nat) (settings : σ) (generation runtime : Nat)
  /-- `Borrowed`: the download runs. -/
  | borrowed (entry : Nat) (settings : σ) (generation runtime : Nat)
  /-- `unload_locked`, before the status is written. -/
  | removing (entry : Nat)
  /-- Waits for the engine lock to tear down. -/
  | tearing (ending : Ending) (entry : Nat)
  /-- `remove`, before the directories are. -/
  | clearing (entry : Nat)
  /-- `upgrade_package`, before the candidate is published. -/
  | publishing (entry : Nat) (enabled : Bool)
  deriving DecidableEq, Repr

/-- `ExtensionManager`, for one extension: its installations and which of them is in
`entries`, the settings that are stored, all isolated runtimes that were made, the threads,
and which of them holds the mutation lock. -/
structure Manager (σ : Type) where
  entries : Nat → Installed σ
  installed : Nat
  current : Option Nat
  settings : σ
  runtimes : Nat → Runtime σ
  made : Nat
  threads : Nat → Thread σ
  mutation : Option Nat

/-- The values of `pool.generation`. -/
def generations : Nat := 2 ^ 64

/-- How a new runtime starts. -/
inductive Start
  /-- `load_isolated` fails. -/
  | fails
  /-- `initialize` fails, and the runtime is torn down. -/
  | broken
  | started
  deriving DecidableEq, Repr

/-- What happens, and in which thread. -/
inductive Event (σ : Type)
  | borrow (thread : Nat)
  /-- A borrower is cancelled while it waits. -/
  | giveUp (thread : Nat)
  | lockEngine (thread : Nat)
  /-- In `ready`: a gate refuses the extension. -/
  | gatesFail (thread : Nat)
  /-- In `ready`: the primary runtime is closed. -/
  | reopen (thread : Nat)
  /-- In `ready`: the primary runtime cannot be loaded, or is cancelled. -/
  | prepareFails (thread : Nat)
  /-- In `ready`: the primary runtime cannot be initialized. -/
  | initializeFails (thread : Nat)
  | ready (thread : Nat)
  | initialized (thread : Nat) (succeeds : Bool)
  | readSettings (thread : Nat) (succeeds : Bool)
  | takeIdle (thread : Nat)
  | start (thread : Nat) (outcome : Start)
  | enter (thread : Nat)
  | giveBack (thread : Nat) (healthy readable : Bool)
  | setEnabled (thread : Nat) (enabled : Bool)
  | updateSettings (thread : Nat) (settings : σ)
  | remove (thread : Nat)
  | writeStatus (thread : Nat)
  | teardown (thread : Nat)
  | removeDirectories (thread : Nat) (succeeds : Bool) (left : σ)
  | upgrade (thread : Nat) (enabled : Bool)
  | publish (thread : Nat)
  | install (thread : Nat) (enabled : Bool)
  /-- `release_idle_download_runtimes`, at one installation. -/
  | release (entry : Nat)
  /-- A runtime closes by itself. -/
  | close (runtime : Nat)
  deriving DecidableEq, Repr

namespace Manager

variable {σ : Type} (manager : Manager σ)

/-! ## Parts of the calls -/

/-- A thread goes on. -/
def setThread (thread : Nat) (next : Thread σ) : Manager σ :=
  { manager with threads := Function.update manager.threads thread next }

/-- Something changes at an installation. -/
def edit (entry : Nat) (change : Installed σ → Installed σ) : Manager σ :=
  { manager with
    entries := Function.update manager.entries entry (change (manager.entries entry)) }

/-- `runtime.shutdown()`. -/
def shutdown (runtime : Nat) : Manager σ :=
  { manager with
    runtimes := Function.update manager.runtimes runtime
      { manager.runtimes runtime with closed := true } }

/-- The pool of an installation. -/
def pool (entry : Nat) : Pool σ :=
  (manager.entries entry).downloads

/-- The pool of an installation changes. -/
def setPool (entry : Nat) (pool : Pool σ) : Manager σ :=
  manager.edit entry fun installed => { installed with downloads := pool }

/-- The status of an installation is written. -/
def setStatus (entry : Nat) (enabled : Bool) : Manager σ :=
  manager.edit entry fun installed => { installed with enabled := enabled }

/-- The engine lock is taken, or released. -/
def setEngine (entry : Nat) (holder : Option Nat) : Manager σ :=
  manager.edit entry fun installed => { installed with engine := holder }

def failed (entry : Nat) : Manager σ :=
  manager.setStatus entry false

/-- `invalidate_download_pool`. -/
def invalidate (entry : Nat) : Manager σ :=
  let pool := manager.pool entry
  let next := manager.setPool entry { pool with
    idle := none
    generation := (pool.generation + 1) % generations
    settings := none }
  match pool.idle with
  | some runtime => next.shutdown runtime
  | none => next

/-- `teardown`, of what the pool holds. -/
def tearDown (entry : Nat) : Manager σ :=
  let next := manager.invalidate entry
  (next.pool entry).active.foldl shutdown (next.setPool entry { next.pool entry with active := [] })

/-- A call ends: the locks that its thread holds are released. -/
def finish (thread entry : Nat) : Manager σ :=
  let next := (manager.edit entry fun installed => { installed with
    engine := if installed.engine = some thread then none else installed.engine }).setThread
      thread .free
  { next with mutation := if manager.mutation = some thread then none else manager.mutation }

/-- A call that could not make the engine ready ends; unless it was to borrow, the failure
is written into the status. -/
def finishFailed (purpose : Purpose) (thread entry : Nat) : Manager σ :=
  match purpose with
  | .borrow => manager.finish thread entry
  | .enable | .configure => (manager.failed entry).finish thread entry

/-- The mutation lock is taken. -/
def lockMutation (thread : Nat) : Manager σ :=
  { manager with mutation := some thread }

/-- A new installation is put into `entries`. -/
def insert (enabled : Bool) : Manager σ :=
  { manager with
    entries := Function.update manager.entries manager.installed { enabled := enabled }
    installed := manager.installed + 1
    current := some manager.installed }

/-- Whether the thread can begin a call that changes the extension. -/
def canMutate (thread : Nat) : Bool :=
  match manager.threads thread, manager.mutation with
  | .free, none => true
  | _, _ => false

/-! ## Sections of the calls -/

/-- `get`, in `download_with_lease`. -/
def borrow (thread : Nat) : Option (Manager σ) :=
  match manager.threads thread, manager.current with
  | .free, some entry => some (manager.setThread thread (.waiting .borrow entry))
  | _, _ => none

/-- `download_engine` fails while it waits. -/
def giveUp (thread : Nat) : Option (Manager σ) :=
  match manager.threads thread with
  | .waiting .borrow _ => some (manager.setThread thread .free)
  | _ => none

/-- The engine lock is taken, and what is checked behind it. -/
def lockEngine (thread : Nat) : Option (Manager σ) :=
  match manager.threads thread with
  | .waiting purpose entry =>
    if (manager.entries entry).engine.isNone then
      let locked := (manager.setEngine entry (some thread)).setThread thread
        (.preparing purpose entry)
      match purpose with
      | .borrow =>
        if manager.current = some entry ∧ (manager.entries entry).enabled = true then
          some locked
        else some (manager.setThread thread .free)
      | .enable => some locked
      | .configure =>
        if manager.current = some entry then some (locked.invalidate entry)
        else some (manager.finish thread entry)
    else none
  | _ => none

/-- In `ready`: a gate refuses the extension. -/
def gatesFail (thread : Nat) : Option (Manager σ) :=
  match manager.threads thread with
  | .preparing purpose entry =>
    some ((manager.failed entry).finishFailed purpose thread entry)
  | _ => none

/-- In `ready`: the primary runtime is closed. -/
def reopen (thread : Nat) : Option (Manager σ) :=
  match manager.threads thread with
  | .preparing _ entry => some (manager.invalidate entry)
  | _ => none

/-- In `ready`: the primary runtime cannot be loaded, or is cancelled. -/
def prepareFails (thread : Nat) : Option (Manager σ) :=
  match manager.threads thread with
  | .preparing purpose entry => some (manager.finishFailed purpose thread entry)
  | _ => none

/-- In `ready`: the primary runtime cannot be initialized. -/
def initializeFails (thread : Nat) : Option (Manager σ) :=
  match manager.threads thread with
  | .preparing purpose entry =>
    some ((manager.tearDown entry).finishFailed purpose thread entry)
  | _ => none

/-- `ready` is done. -/
def ready (thread : Nat) : Option (Manager σ) :=
  match manager.threads thread with
  | .preparing .borrow entry => some (manager.setThread thread (.reading entry))
  | .preparing .enable entry => some (manager.finish thread entry)
  | .preparing .configure entry => some (manager.setThread thread (.initializing entry))
  | _ => none

/-- The primary runtime is initialized with new settings. -/
def initialized (thread : Nat) (succeeds : Bool) : Option (Manager σ) :=
  match manager.threads thread with
  | .initializing entry =>
    if succeeds then some (manager.finish thread entry)
    else some (manager.finishFailed .configure thread entry)
  | _ => none

/-- `borrow_download` reads the settings. -/
def readSettings (thread : Nat) (succeeds : Bool) : Option (Manager σ) :=
  match manager.threads thread with
  | .reading entry =>
    if succeeds then some (manager.setThread thread (.pooling entry manager.settings))
    else some (manager.finish thread entry)
  | _ => none

/-- `borrow_download` looks at the pool, which is invalidated if it has other settings. -/
def takeIdle [DecidableEq σ] (thread : Nat) : Option (Manager σ) :=
  match manager.threads thread with
  | .pooling entry settings =>
    let next :=
      if (manager.pool entry).settings ≠ some settings then
        let next := manager.invalidate entry
        next.setPool entry { next.pool entry with settings := some settings }
      else manager
    let pool := next.pool entry
    some ((next.setPool entry { pool with idle := none }).setThread thread
      (.starting entry settings pool.generation pool.idle))
  | _ => none

/-- `borrow_download` uses what was idle, or a new runtime. -/
def start (thread : Nat) (outcome : Start) : Option (Manager σ) :=
  match manager.threads thread with
  | .starting entry settings generation idle =>
    match idle.filter fun runtime => !(manager.runtimes runtime).closed with
    | some runtime =>
      some (manager.setThread thread (.entering entry settings generation runtime))
    | none =>
      let make (closed : Bool) : Manager σ :=
        { manager with
          runtimes := Function.update manager.runtimes manager.made ⟨closed, settings⟩
          made := manager.made + 1 }
      match outcome with
      | .fails => some (manager.finish thread entry)
      | .broken => some ((make true).finish thread entry)
      | .started =>
        some ((make false).setThread thread (.entering entry settings generation manager.made))
  | _ => none

/-- `borrow_download` makes the runtime active. -/
def enter (thread : Nat) : Option (Manager σ) :=
  match manager.threads thread with
  | .entering entry settings generation runtime =>
    let pool := manager.pool entry
    some (((manager.setPool entry { pool with active := pool.active ++ [runtime] }).setEngine
      entry none).setThread thread (.borrowed entry settings generation runtime))
  | _ => none

/-- `Borrowed::drop`. -/
def giveBack [DecidableEq σ] (thread : Nat) (healthy readable : Bool) : Option (Manager σ) :=
  match manager.threads thread with
  | .borrowed entry _ generation runtime =>
    let pool := manager.pool entry
    let reusable := healthy && !(manager.runtimes runtime).closed &&
      decide (manager.current = some entry) && (manager.entries entry).enabled
    let settingsMatch := reusable && readable && decide (pool.settings = some manager.settings)
    let left := { pool with active := pool.active.filter (· ≠ runtime) }
    if reusable && decide (pool.generation = generation) && pool.idle.isNone &&
        settingsMatch then
      some ((manager.setPool entry { left with idle := some runtime }).setThread thread .free)
    else some (((manager.setPool entry left).shutdown runtime).setThread thread .free)
  | _ => none

/-- `set_enabled`, up to the engine lock. -/
def setEnabled (thread : Nat) (enabled : Bool) : Option (Manager σ) :=
  match manager.canMutate thread, manager.current with
  | true, some entry =>
    let next := (manager.lockMutation thread).setStatus entry enabled
    if enabled then some (next.setThread thread (.waiting .enable entry))
    else some (next.setThread thread (.tearing .disable entry))
  | _, _ => none

/-- `update_settings`, up to the engine lock. -/
def updateSettings (thread : Nat) (settings : σ) : Option (Manager σ) :=
  match manager.canMutate thread, manager.current with
  | true, some entry =>
    some ({ manager.lockMutation thread with settings := settings }.setThread thread
      (.waiting .configure entry))
  | _, _ => none

/-- `unload_locked` takes the extension out of `entries`. -/
def remove (thread : Nat) : Option (Manager σ) :=
  match manager.canMutate thread, manager.current with
  | true, some entry =>
    some ({ manager.lockMutation thread with current := none }.setThread thread (.removing entry))
  | _, _ => none

/-- `unload_locked` writes the status. -/
def writeStatus (thread : Nat) : Option (Manager σ) :=
  match manager.threads thread with
  | .removing entry =>
    some ((manager.setStatus entry false).setThread thread (.tearing .unload entry))
  | _ => none

/-- The engine lock is taken, and the installation torn down. -/
def teardown (thread : Nat) : Option (Manager σ) :=
  match manager.threads thread with
  | .tearing ending entry =>
    if (manager.entries entry).engine.isNone then
      let next := manager.tearDown entry
      match ending with
      | .disable => some (next.finish thread entry)
      | .unload => some (next.setThread thread (.clearing entry))
      | .upgrade enabled => some (next.setThread thread (.publishing entry enabled))
    else none
  | _ => none

/-- `remove` removes the directories. If it cannot, the extension stays, disabled. -/
def removeDirectories (thread : Nat) (succeeds : Bool) (left : σ) : Option (Manager σ) :=
  match manager.threads thread with
  | .clearing entry =>
    let next := { manager with settings := left }
    if succeeds then some (next.finish thread entry)
    else some ({ next.failed entry with current := some entry }.finish thread entry)
  | _ => none

/-- `upgrade_package`, once the candidate is in its place. -/
def upgrade (thread : Nat) (enabled : Bool) : Option (Manager σ) :=
  match manager.canMutate thread, manager.current with
  | true, some entry =>
    some (((manager.lockMutation thread).setStatus entry false).setThread thread
      (.tearing (.upgrade enabled) entry))
  | _, _ => none

/-- `upgrade_package` publishes the candidate. -/
def publish (thread : Nat) : Option (Manager σ) :=
  match manager.threads thread with
  | .publishing entry enabled => some ((manager.finish thread entry).insert enabled)
  | _ => none

/-- `install_package`, of an extension that is not there. -/
def install (thread : Nat) (enabled : Bool) : Option (Manager σ) :=
  match manager.canMutate thread, manager.current with
  | true, none => some (manager.insert enabled)
  | _, _ => none

/-- `release_idle_download_runtimes`, at one installation. -/
def release (entry : Nat) : Option (Manager σ) :=
  if entry < manager.installed then some (manager.invalidate entry) else none

/-- One event. -/
def step [DecidableEq σ] : Event σ → Option (Manager σ)
  | .borrow thread => manager.borrow thread
  | .giveUp thread => manager.giveUp thread
  | .lockEngine thread => manager.lockEngine thread
  | .gatesFail thread => manager.gatesFail thread
  | .reopen thread => manager.reopen thread
  | .prepareFails thread => manager.prepareFails thread
  | .initializeFails thread => manager.initializeFails thread
  | .ready thread => manager.ready thread
  | .initialized thread succeeds => manager.initialized thread succeeds
  | .readSettings thread succeeds => manager.readSettings thread succeeds
  | .takeIdle thread => manager.takeIdle thread
  | .start thread outcome => manager.start thread outcome
  | .enter thread => manager.enter thread
  | .giveBack thread healthy readable => manager.giveBack thread healthy readable
  | .setEnabled thread enabled => manager.setEnabled thread enabled
  | .updateSettings thread settings => manager.updateSettings thread settings
  | .remove thread => manager.remove thread
  | .writeStatus thread => manager.writeStatus thread
  | .teardown thread => manager.teardown thread
  | .removeDirectories thread succeeds left => manager.removeDirectories thread succeeds left
  | .upgrade thread enabled => manager.upgrade thread enabled
  | .publish thread => manager.publish thread
  | .install thread enabled => manager.install thread enabled
  | .release entry => manager.release entry
  | .close runtime => some (manager.shutdown runtime)

/-! ## Promises -/

/-- The installation whose pool an event invalidates. -/
def invalidates [DecidableEq σ] : Event σ → Option Nat
  | .lockEngine thread =>
    match manager.threads thread with
    | .waiting .configure entry => some entry
    | _ => none
  | .reopen thread | .initializeFails thread =>
    match manager.threads thread with
    | .preparing _ entry => some entry
    | _ => none
  | .takeIdle thread =>
    match manager.threads thread with
    | .pooling entry settings =>
      if (manager.pool entry).settings ≠ some settings then some entry else none
    | _ => none
  | .teardown thread =>
    match manager.threads thread with
    | .tearing _ entry => some entry
    | _ => none
  | .release entry => some entry
  | _ => none

/-- The installation that an event disables without tearing it down. -/
def fails : Event σ → Option Nat
  | .gatesFail thread =>
    match manager.threads thread with
    | .preparing _ entry => some entry
    | _ => none
  | .prepareFails thread =>
    match manager.threads thread with
    | .preparing .enable entry | .preparing .configure entry => some entry
    | _ => none
  | .initialized thread false =>
    match manager.threads thread with
    | .initializing entry => some entry
    | _ => none
  | _ => none

/-- The events that keep the promises: the generations are not used up, and no failure
disables an installation that has an idle runtime. -/
def careful [DecidableEq σ] (event : Event σ) : Bool :=
  (manager.invalidates event).all (fun entry =>
    (manager.pool entry).generation + 1 < generations) &&
  (manager.fails event).all fun entry => (manager.pool entry).idle.isNone

/-- Whether a thread is about to tear an installation down. -/
def tearsDown (entry : Nat) : Thread σ → Bool
  | .removing other | .tearing _ other => other = entry
  | _ => false

/-- Whether a thread has borrowed from an installation. -/
def hasBorrowed (entry : Nat) : Thread σ → Bool
  | .borrowed other _ _ _ => other = entry
  | _ => false

/-- Whether a thread has a runtime, which it has taken, made or borrowed. -/
def has (runtime : Nat) : Thread σ → Bool
  | .starting _ _ _ idle => idle = some runtime
  | .entering _ _ _ other | .borrowed _ _ _ other => other = runtime
  | _ => false

/-- What is promised of every state. -/
structure Promised : Prop where
  /-- A runtime is with one borrower at most. -/
  exclusive : ∀ runtime thread other, has runtime (manager.threads thread) = true →
    has runtime (manager.threads other) = true → thread = other
  /-- What is borrowed is not idle. -/
  apart : ∀ runtime thread entry, has runtime (manager.threads thread) = true →
    (manager.pool entry).idle ≠ some runtime
  /-- What is borrowed was initialized with the settings that its borrower has read. -/
  configured : ∀ thread entry settings generation runtime,
    manager.threads thread = .borrowed entry settings generation runtime →
      (manager.runtimes runtime).settings = settings
  /-- What is open is idle or with a borrower, everything else was shut down. -/
  stopped : ∀ runtime < manager.made, (manager.runtimes runtime).closed = true ∨
    (∃ entry, (manager.pool entry).idle = some runtime) ∨
      ∃ thread, has runtime (manager.threads thread) = true
  /-- Nothing is idle of what is disabled or not installed any longer, once that is done. -/
  quiet : ∀ entry, (manager.entries entry).enabled = false ∨ manager.current ≠ some entry →
    (∀ thread, tearsDown entry (manager.threads thread) = false) → (manager.pool entry).idle = none
  /-- Nothing is active once all borrowers have returned. -/
  returned : ∀ entry, (∀ thread, hasBorrowed entry (manager.threads thread) = false) →
    (manager.pool entry).active = []

/-- What is promised of a runtime that is given back: it is kept for the next borrower only
if it is healthy and open, of the current installation, which is enabled, of the current
generation, and initialized with the settings that are stored. -/
def Reused (next : Manager σ) : Event σ → Prop
  | .giveBack thread healthy _ => ∀ entry settings generation runtime,
      manager.threads thread = .borrowed entry settings generation runtime →
        (next.pool entry).idle = some runtime →
          healthy = true ∧ (manager.runtimes runtime).closed = false ∧
            manager.current = some entry ∧ (manager.entries entry).enabled = true ∧
            (manager.pool entry).generation = generation ∧
            (manager.runtimes runtime).settings = manager.settings
  | _ => True

end Manager

/-- The manager with one extension installed, and nothing going on. -/
structure Fresh {σ : Type} (manager : Manager σ) : Prop where
  entries : ∀ entry, (manager.entries entry).downloads = {}
  installed : ∀ entry, manager.current = some entry → entry < manager.installed
  made : manager.made = 0
  threads : ∀ thread, manager.threads thread = .free

/-- The machine of the download workers. -/
def machine (σ : Type) [DecidableEq σ] : Transition.Machine (Manager σ) (Event σ) where
  Start := Fresh
  step manager event := manager.step event

end LosslessMusic.Extensions.Workers
