import LosslessMusic.Transition.Machine
import Mathlib.Logic.Function.Basic

/-!
# Calls of an extension runtime

`call_with_operation`, `run_worker` and `shutdown`: callers put commands into a bounded
queue, and one worker takes them out. A command begins when its caller meets the worker at
a channel without room. Every operation of a channel and every look at a flag is an event
of its own. What a script comes to is part of the event.
-/

namespace LosslessMusic.Extensions.Calls

open Transition

/-! ## The parties -/

/-- What a call returns. -/
inductive Result (ρ : Type)
  | closed
  | busy
  | invalid
  /-- `Operation::check` has failed. -/
  | stopped
  | finished (value : ρ)
  deriving DecidableEq, Repr

/-- `Command`. Calls are numbered. -/
inductive Command
  | call (id : Nat)
  | stop
  deriving DecidableEq, Repr

/-- Where a caller is. -/
inductive Caller (ρ : Type)
  | idle
  /-- The runtime was not closed. -/
  | validating
  | checking
  /-- Before `try_send`. -/
  | sending
  /-- At the head of the loop. -/
  | polling
  /-- The runtime was not closed, in the loop. -/
  | looking
  /-- In `recv_timeout`. -/
  | receiving
  /-- Behind the loop, in `result.recv`. -/
  | awaiting
  | returned (result : Result ρ)
  deriving DecidableEq, Repr

/-- Where the worker is. -/
inductive Worker (ρ : Type)
  /-- At the head of the loop, with a deadline for the next collection or without. -/
  | waiting (deadline : Bool)
  /-- The deadline is over. -/
  | expired
  /-- The queue was empty. -/
  | idling
  /-- In `run_gc`. -/
  | collecting
  /-- In `started.send`. -/
  | offering (call : Nat) (deadline : Bool)
  /-- In `execute`, before the first check. -/
  | starting (call : Nat)
  | running (call : Nat) (interrupted : Bool)
  /-- Interrupted, before `control.close`. -/
  | retiring (call : Nat) (result : Result ρ)
  | replying (call : Nat) (result : Result ρ)
  /-- Before `control.closed` is read. -/
  | replied
  /-- Behind the loop, before the receiver is dropped. -/
  | leaving
  /-- Before `worker_control.close`. -/
  | left
  | gone
  deriving DecidableEq, Repr

/-- Where a thread is that shuts the runtime down. -/
inductive Shutdown
  | idle
  /-- Before `Stop` is sent. -/
  | stopping
  | joining
  | ended
  deriving DecidableEq, Repr

/-- What is remembered of a run. -/
inductive Happening (ρ : Type)
  | entered (call : Nat)
  /-- A command is in the queue. -/
  | accepted (call : Nat)
  /-- The script is called. -/
  | began (call : Nat)
  /-- A check has failed while the script was running. -/
  | interrupted (call : Nat)
  | returned (call : Nat) (result : Result ρ)
  deriving DecidableEq, Repr

/-- `QUEUE_CAPACITY`. -/
def queueCapacity : Nat := 8

/-- The flags, the channels, and where everybody is. The history has the latest first. -/
structure Runtime (ρ : Type) where
  closed : Bool
  parentClosed : Bool
  /-- The operations whose check fails. -/
  stopped : Nat → Bool
  queue : List Command
  replies : Nat → Option (Result ρ)
  callers : Nat → Caller ρ
  worker : Worker ρ
  shutdowns : Nat → Shutdown
  history : List (Happening ρ)

/-- What a caller does. -/
inductive CallerMove
  | enter
  | validate (valid : Bool)
  | check
  | poll
  | look
  | timeout
  | disconnected
  | result
  deriving DecidableEq, Repr

/-- What the worker does on its own. -/
inductive WorkerMove (ρ : Type)
  | take
  | timeout
  | tryTake
  | idle
  | collected
  | abandon
  | start
  /-- The interrupt handler stops the script. -/
  | interrupt
  | finish (value : ρ)
  | retire
  | reply
  | look
  | dropReceiver
  | close
  deriving DecidableEq, Repr

/-- What happens. -/
inductive Event (ρ : Type)
  | caller (id : Nat) (move : CallerMove)
  | send (id : Nat)
  /-- A caller meets the worker. -/
  | rendezvous
  | worker (move : WorkerMove ρ)
  /-- An operation is cancelled, or its time is over. -/
  | stop (id : Nat)
  | closeParent
  | shutdown (thread : Nat)
  | sendStop (thread : Nat)
  | join (thread : Nat)
  deriving DecidableEq, Repr

/-! ## The steps -/

namespace Worker

variable {ρ : Type}

/-- The call that the worker executes. -/
def call : Worker ρ → Option Nat
  | starting call | running call _ | retiring call _ | replying call _ => some call
  | waiting _ | expired | idling | collecting | offering _ _ | replied | leaving | left
  | gone => none

/-- The call that the worker offers to its caller. -/
def offer : Worker ρ → Option Nat
  | offering call _ => some call
  | waiting _ | expired | idling | collecting | starting _ | running _ _ | retiring _ _
  | replying _ _ | replied | leaving | left | gone => none

/-- Whether the worker has the receiver. -/
def connected : Worker ρ → Bool
  | left | gone => false
  | waiting _ | expired | idling | collecting | offering _ _ | starting _ | running _ _
  | retiring _ _ | replying _ _ | replied | leaving => true

end Worker

namespace Runtime

variable {ρ : Type}

/-- A runtime that has just been loaded. -/
def beginning : Runtime ρ where
  closed := false
  parentClosed := false
  stopped _ := false
  queue := []
  replies _ := none
  callers _ := .idle
  worker := .waiting true
  shutdowns _ := .idle
  history := []

variable (runtime : Runtime ρ)

def isClosed : Bool := runtime.closed || runtime.parentClosed

/-- `Control::check`, for the operation of a call. -/
def refusal (id : Nat) : Option (Result ρ) :=
  if runtime.isClosed then some .closed
  else if runtime.stopped id then some .stopped
  else none

/-- Where a caller goes, and what is remembered of it. -/
def callerMove (id : Nat) : CallerMove → Option (Caller ρ × List (Happening ρ))
  | .enter =>
    match runtime.callers id with
    | .idle =>
      if runtime.isClosed then some (.returned .closed, [.returned id .closed, .entered id])
      else some (.validating, [.entered id])
    | _ => none
  | .validate valid =>
    match runtime.callers id with
    | .validating =>
      if valid then some (.checking, []) else some (.returned .invalid, [.returned id .invalid])
    | _ => none
  | .check =>
    match runtime.callers id with
    | .checking =>
      if runtime.stopped id then some (.returned .stopped, [.returned id .stopped])
      else some (.sending, [])
    | _ => none
  | .poll =>
    match runtime.callers id with
    | .polling =>
      if runtime.isClosed then some (.returned .closed, [.returned id .closed])
      else some (.looking, [])
    | _ => none
  | .look =>
    match runtime.callers id with
    | .looking =>
      if runtime.stopped id then some (.returned .stopped, [.returned id .stopped])
      else some (.receiving, [])
    | _ => none
  | .timeout =>
    match runtime.callers id with
    | .receiving => some (.polling, [])
    | _ => none
  | .disconnected =>
    match runtime.callers id with
    | .receiving =>
      if .call id ∉ runtime.queue ∧ runtime.worker.offer ≠ some id then
        some (.returned .closed, [.returned id .closed])
      else none
    | _ => none
  | .result =>
    match runtime.callers id, runtime.replies id with
    | .awaiting, some result => some (.returned result, [.returned id result])
    | .awaiting, none =>
      if runtime.worker.call = some id then none
      else some (.returned .closed, [.returned id .closed])
    | _, _ => none

/-- A caller goes on. -/
def setCaller (id : Nat) (point : Caller ρ) (happened : List (Happening ρ)) : Runtime ρ :=
  { runtime with
    callers := Function.update runtime.callers id point
    history := happened ++ runtime.history }

/-- `try_send`, of a call. -/
def send (id : Nat) : Option (Runtime ρ) :=
  match runtime.callers id with
  | .sending =>
    if runtime.worker.connected then
      if runtime.queue.length < queueCapacity then
        some { runtime.setCaller id .polling [.accepted id] with
          queue := runtime.queue ++ [.call id] }
      else some (runtime.setCaller id (.returned .busy) [.returned id .busy])
    else some (runtime.setCaller id (.returned .closed) [.returned id .closed])
  | _ => none

/-- The worker goes on. -/
def setWorker (point : Worker ρ) (happened : List (Happening ρ)) : Runtime ρ :=
  { runtime with worker := point, history := happened ++ runtime.history }

/-- A command is taken out of the queue. -/
def took (deadline : Bool) (command : Command) (rest : List Command) : Runtime ρ :=
  match command with
  | .call id => { runtime with queue := rest, worker := .offering id deadline }
  | .stop => { runtime with queue := rest, worker := .leaving }

/-- The worker does something on its own. -/
def workerMove : WorkerMove ρ → Option (Runtime ρ)
  | .take =>
    match runtime.worker, runtime.queue with
    | .waiting deadline, command :: rest => some (runtime.took deadline command rest)
    | _, _ => none
  | .timeout =>
    match runtime.worker with
    | .waiting true => some (runtime.setWorker .expired [])
    | _ => none
  | .tryTake =>
    match runtime.worker, runtime.queue with
    | .expired, command :: rest => some (runtime.took true command rest)
    | .expired, [] => some (runtime.setWorker .idling [])
    | _, _ => none
  | .idle =>
    match runtime.worker with
    | .idling =>
      some (runtime.setWorker (if runtime.isClosed then .leaving else .collecting) [])
    | _ => none
  | .collected =>
    match runtime.worker with
    | .collecting => some (runtime.setWorker (.waiting false) [])
    | _ => none
  | .abandon =>
    match runtime.worker with
    | .offering id deadline =>
      match runtime.callers id with
      | .returned _ => some (runtime.setWorker (.waiting deadline) [])
      | _ => none
    | _ => none
  | .start =>
    match runtime.worker with
    | .starting id =>
      match runtime.refusal id with
      | some result => some (runtime.setWorker (.replying id result) [])
      | none => some (runtime.setWorker (.running id false) [.began id])
    | _ => none
  | .interrupt =>
    match runtime.worker with
    | .running id false =>
      if (runtime.refusal id).isSome then
        some (runtime.setWorker (.running id true) [.interrupted id])
      else none
    | _ => none
  | .finish value =>
    match runtime.worker with
    | .running id _ =>
      match runtime.refusal id with
      | some result => some (runtime.setWorker (.retiring id result) [.interrupted id])
      | none => some (runtime.setWorker (.replying id (.finished value)) [])
    | _ => none
  | .retire =>
    match runtime.worker with
    | .retiring id result =>
      some { runtime.setWorker (.replying id result) [] with closed := true }
    | _ => none
  | .reply =>
    match runtime.worker with
    | .replying id result =>
      some { runtime.setWorker .replied [] with
        replies := Function.update runtime.replies id (some result) }
    | _ => none
  | .look =>
    match runtime.worker with
    | .replied =>
      some (runtime.setWorker (if runtime.closed then .leaving else .waiting true) [])
    | _ => none
  | .dropReceiver =>
    match runtime.worker with
    | .leaving => some { runtime.setWorker .left [] with queue := [] }
    | _ => none
  | .close =>
    match runtime.worker with
    | .left => some { runtime.setWorker .gone [] with closed := true }
    | _ => none

/-- One event, if it can happen. -/
def step : Event ρ → Option (Runtime ρ)
  | .caller id move =>
    (runtime.callerMove id move).map fun moved => runtime.setCaller id moved.1 moved.2
  | .send id => runtime.send id
  | .rendezvous =>
    match runtime.worker with
    | .offering id _ =>
      match runtime.callers id with
      | .receiving => some ((runtime.setCaller id .awaiting []).setWorker (.starting id) [])
      | _ => none
    | _ => none
  | .worker move => runtime.workerMove move
  | .stop id => some { runtime with stopped := Function.update runtime.stopped id true }
  | .closeParent => some { runtime with parentClosed := true }
  | .shutdown thread =>
    match runtime.shutdowns thread with
    | .idle =>
      some { runtime with
        closed := true
        shutdowns := Function.update runtime.shutdowns thread .stopping }
    | _ => none
  | .sendStop thread =>
    match runtime.shutdowns thread with
    | .stopping =>
      let next := { runtime with
        shutdowns := Function.update runtime.shutdowns thread .joining }
      -- A full queue takes no `Stop`, and the failure is ignored.
      if runtime.worker.connected ∧ runtime.queue.length < queueCapacity then
        some { next with queue := runtime.queue ++ [.stop] }
      else some next
    | _ => none
  | .join thread =>
    match runtime.shutdowns thread, runtime.worker with
    | .joining, .gone =>
      some { runtime with shutdowns := Function.update runtime.shutdowns thread .ended }
    | _, _ => none

/-- A runtime, from the end of its loading. -/
def machine (ρ : Type) : Machine (Runtime ρ) (Event ρ) where
  Start runtime := runtime = beginning
  step := step

end Runtime

/-! ## The promises -/

section Promises

variable {ρ : Type}

/-- The calls that were accepted, the latest first. -/
def accepted (history : List (Happening ρ)) : List Nat :=
  history.filterMap fun
    | .accepted id => some id
    | .entered _ | .began _ | .interrupted _ | .returned _ _ => none

/-- The calls whose script was called, the latest first. -/
def begun (history : List (Happening ρ)) : List Nat :=
  history.filterMap fun
    | .began id => some id
    | .entered _ | .accepted _ | .interrupted _ | .returned _ _ => none

/-- The calls that have returned, the latest first. -/
def returns (history : List (Happening ρ)) : List Nat :=
  history.filterMap fun
    | .returned id _ => some id
    | .entered _ | .accepted _ | .began _ | .interrupted _ => none

/-- A call is interrupted and has returned. -/
def Retired (history : List (Happening ρ)) : Prop :=
  ∃ id, .interrupted id ∈ history ∧ ∃ result, .returned id result ∈ history

/-- Whether a caller may still send a command. -/
def Caller.sends : Caller ρ → Bool
  | .validating | .checking | .sending => true
  | .idle | .polling | .looking | .receiving | .awaiting | .returned _ => false

/-- Whether a caller is in the middle of its call. -/
def Caller.calls : Caller ρ → Bool
  | .idle | .returned _ => false
  | .validating | .checking | .sending | .polling | .looking | .receiving | .awaiting => true

/-- The caller that an event is about. -/
def Event.callerId : Event ρ → Option Nat
  | .caller id _ | .send id => some id
  | .rendezvous | .worker _ | .stop _ | .closeParent | .shutdown _ | .sendStop _
  | .join _ => none

/-- The worker waits for a command, a thread that shuts the runtime down waits for the
worker, and nobody is about to send a command. -/
structure Stuck (runtime : Runtime ρ) : Prop where
  closed : runtime.closed = true
  joining : ∃ thread, runtime.shutdowns thread = .joining
  waiting : runtime.worker = .waiting false
  empty : runtime.queue = []
  callers : ∀ id, (runtime.callers id).sends = false
  shutdowns : ∀ thread, runtime.shutdowns thread ≠ .stopping

/-- What a run of a runtime promises. -/
structure Runtime.Promised (runtime : Runtime ρ) : Prop where
  /-- Calls begin in the order of the queue, each of them once at most. -/
  order : (begun runtime.history).Sublist (accepted runtime.history) ∧
    (accepted runtime.history).Nodup
  /-- No call begins behind its caller's back. -/
  inTime : runtime.history.Pairwise fun later earlier =>
    ∀ id result, later = .began id → earlier ≠ .returned id result
  /-- Behind an interrupted call no call begins. -/
  retired : runtime.history.Pairwise fun later earlier =>
    ∀ id other, earlier = .interrupted id → later ≠ .began other
  /-- Who calls when an interrupted call has returned finds the runtime closed. -/
  refused : ∀ later id earlier, runtime.history = later ++ .entered id :: earlier →
    Retired earlier → ∀ result, .returned id result ∈ runtime.history → result = .closed
  /-- Nobody gets two results. -/
  single : (returns runtime.history).Nodup
  /-- Only the execution of a call keeps its caller waiting. -/
  moves : ∀ id, (runtime.callers id).calls = true → runtime.worker.call = some id ∨
    ∃ event : Event ρ, event.callerId = some id ∧ (runtime.step event).isSome = true
  /-- A runtime that is shut down is left. -/
  wakes : ¬ Stuck runtime

end Promises

end LosslessMusic.Extensions.Calls
