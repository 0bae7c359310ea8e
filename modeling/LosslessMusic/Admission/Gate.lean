import LosslessMusic.Admission.Semaphore
import LosslessMusic.Transition.Machine
import LosslessMusic.Transition.Parties
import Mathlib.Logic.Function.Basic

/-!
# The native queue gate

`NativeQueueGate`: its pause flags and `runAll` with its workers. Every statement of a
worker that the others can observe is a step of its own. The items are not null. A
block or a function of the caller may throw, and what a suspended worker does when the
scope is cancelled is a step too.
-/

namespace LosslessMusic.Admission

/-- `coerceIn(1, 3)`. -/
def coerceIn (value : Int) : Nat :=
  (max 1 (min value 3)).toNat

/-- The fields of `NativeQueueGate`. -/
structure Gate where
  concurrency : Nat
  slots : Semaphore
  manualPaused : Bool
  networkPaused : Bool
  deriving DecidableEq

namespace Gate

/-- A new gate. -/
def create (limit : Int) : Gate where
  concurrency := coerceIn limit
  slots := .ofPermits (coerceIn limit)
  manualPaused := false
  networkPaused := false

def pauseReason (gate : Gate) : Option String :=
  if gate.manualPaused then some "paused"
  else if gate.networkPaused then some "waiting_wifi" else none

def isPaused (gate : Gate) : Bool :=
  gate.pauseReason ≠ none

def setPaused (gate : Gate) (paused : Bool) : Gate :=
  { gate with manualPaused := paused }

/-- The network that `setNetwork` is told about keeps items waiting. -/
def blocksNetwork (wifiOnly wifi unmetered internet ethernet : Bool) : Bool :=
  wifiOnly && !((wifi || ethernet) && internet && unmetered)

def setNetwork (gate : Gate) (wifiOnly wifi unmetered internet ethernet : Bool) : Gate :=
  { gate with networkPaused := blocksNetwork wifiOnly wifi unmetered internet ethernet }

end Gate

/-- The arguments of one `runAll` and of the gate it is called on. -/
structure Call (Item Key : Type) where
  limit : Int
  items : List Item
  providerKey : Item → Key
  providerLimit : Item → Int

/-- How a block or a worker ends: with its last statement, with a cancellation, or
with another exception. -/
inductive Outcome
  | returned
  | cancelled
  | failed
  deriving DecidableEq, Repr

/-- The place of a worker. Its item is named by the position in the list. -/
inductive Point (Key : Type)
  /-- Launched, not begun. -/
  | launched
  /-- At the top of the loop. -/
  | fetching
  /-- Before `computeIfAbsent`. -/
  | keying (item : Nat)
  /-- At `provider.acquire()`. -/
  | waiting (item : Nat) (key : Key)
  /-- At `slots.acquire()`. -/
  | entering (item : Nat) (key : Key)
  /-- With a slot, before the check. -/
  | checking (item : Nat) (key : Key)
  /-- Not admitted, before `slots.release()`. -/
  | refused (item : Nat) (key : Key)
  /-- In `delay`. -/
  | delaying (item : Nat) (key : Key)
  /-- Admitted, before the block. -/
  | admitted (item : Nat) (key : Key)
  /-- In the block. -/
  | running (item : Nat) (key : Key)
  /-- Behind the block, before `slots.release()`. -/
  | leaving (item : Nat) (key : Key) (outcome : Outcome)
  /-- Before `provider.release()`. -/
  | returning (item : Nat) (key : Key) (outcome : Outcome)
  /-- The job is complete. -/
  | ended (outcome : Outcome)
  deriving DecidableEq, Repr

/-- `runAll` at work. The last three fields are a record of what has happened: the
positions and keys in the order of `computeIfAbsent`, the positions admitted, and the
positions whose block was started. -/
structure RunAll (Key : Type) where
  gate : Gate
  providers : Key → Option Semaphore
  next : Nat
  workers : List (Point Key)
  cancelled : Bool
  used : List (Nat × Key)
  admissions : List Nat
  started : List Nat

/-- What a worker does. -/
inductive WorkerEvent
  /-- The next statement is done. -/
  | advance
  /-- The code of the caller throws. -/
  | raise (outcome : Outcome)
  /-- A suspension ends with the cancellation of the scope. -/
  | interrupt
  deriving DecidableEq, Repr

/-- What happens: a call of a setter, a cancellation from outside, or a step of a worker. -/
inductive Event
  | setPaused (paused : Bool)
  | setNetwork (wifiOnly wifi unmetered internet ethernet : Bool)
  | cancel
  | worker (position : Nat) (event : WorkerEvent)
  deriving DecidableEq, Repr

namespace RunAll

variable {Item Key : Type}

/-- The state behind `List(concurrency) { launch { … } }`. -/
def start (call : Call Item Key) : RunAll Key where
  gate := .create call.limit
  providers := fun _ => none
  next := 0
  workers := List.replicate (coerceIn call.limit) .launched
  cancelled := false
  used := []
  admissions := []
  started := []

/-- One worker is somewhere else. -/
def setWorker (s : RunAll Key) (position : Nat) (point : Point Key) : RunAll Key :=
  { s with workers := s.workers.set position point }

/-- The semaphore of the slots is another one. -/
def setSlots (s : RunAll Key) (slots : Semaphore) : RunAll Key :=
  { s with gate := { s.gate with slots } }

/-- `if (pending.hasNext()) pending.next() else null`. -/
def fetch (s : RunAll Key) (call : Call Item Key) (position : Nat) : RunAll Key :=
  if s.next < call.items.length then
    { s with next := s.next + 1 }.setWorker position (.keying s.next)
  else s.setWorker position (.ended .returned)

variable [DecidableEq Key]

/-- The semaphore of a provider is another one. -/
def setProvider (s : RunAll Key) (key : Key) (semaphore : Semaphore) : RunAll Key :=
  { s with providers := Function.update s.providers key (some semaphore) }

def computeIfAbsent (s : RunAll Key) (call : Call Item Key) (position item : Nat)
    (value : Item) : RunAll Key :=
  let key := call.providerKey value
  let created := match s.providers key with
    | some _ => s
    | none => s.setProvider key
        (.ofPermits (min (coerceIn call.limit) (coerceIn (call.providerLimit value))))
  { created with used := s.used ++ [(item, key)] }.setWorker position (.waiting item key)

/-- The job of a worker ends. A failure, unlike a cancellation, cancels the scope. -/
def endWorker (s : RunAll Key) (position : Nat) (outcome : Outcome) : RunAll Key :=
  { s with cancelled := s.cancelled || decide (outcome = Outcome.failed) }.setWorker position (.ended outcome)

/-- `provider.release()`, and the loop or the end of the job. -/
def returnPermit (s : RunAll Key) (position : Nat) (key : Key) (outcome : Outcome) :
    Option (RunAll Key) :=
  (s.providers key).bind fun semaphore =>
    semaphore.release.map fun released =>
      let next := s.setProvider key released
      match outcome with
      | .returned => next.setWorker position .fetching
      | _ => next.endWorker position outcome

/-- The next statement of a worker, or nothing while it is suspended. -/
def advance (s : RunAll Key) (call : Call Item Key) (position : Nat) :
    Point Key → Option (RunAll Key)
  | .launched => some (s.setWorker position .fetching)
  | .fetching => some (s.fetch call position)
  | .keying item => (call.items[item]?).map fun value => s.computeIfAbsent call position item value
  | .waiting item key =>
    (s.providers key).bind fun semaphore => semaphore.acquire.map fun acquired =>
      (s.setProvider key acquired).setWorker position (.entering item key)
  | .entering item key =>
    s.gate.slots.acquire.map fun acquired =>
      (s.setSlots acquired).setWorker position (.checking item key)
  | .checking item key =>
    if s.gate.isPaused then some (s.setWorker position (.refused item key))
    else some ({ s with admissions := item :: s.admissions }.setWorker position
      (.admitted item key))
  | .refused item key =>
    s.gate.slots.release.map fun released =>
      (s.setSlots released).setWorker position (.delaying item key)
  | .delaying item key =>
    if s.cancelled then none else some (s.setWorker position (.entering item key))
  | .admitted item key =>
    some ({ s with started := item :: s.started }.setWorker position (.running item key))
  | .running item key => some (s.setWorker position (.leaving item key .returned))
  | .leaving item key outcome =>
    s.gate.slots.release.map fun released =>
      (s.setSlots released).setWorker position (.returning item key outcome)
  | .returning _ key outcome => s.returnPermit position key outcome
  | .ended _ => none

/-- The functions of the caller and its block may throw. -/
def raise (s : RunAll Key) (position : Nat) (outcome : Outcome) : Point Key → Option (RunAll Key)
  | .keying _ => if outcome = .returned then none else some (s.endWorker position outcome)
  | .running item key =>
    if outcome = .returned then none
    else some (s.setWorker position (.leaving item key outcome))
  | _ => none

/-- A cancelled scope does not begin a worker and ends the suspensions of the others. -/
def interrupt (s : RunAll Key) (position : Nat) : Point Key → Option (RunAll Key)
  | .launched => some (s.endWorker position .cancelled)
  | .waiting _ _ => some (s.endWorker position .cancelled)
  | .entering item key => some (s.setWorker position (.returning item key .cancelled))
  | .delaying item key => some (s.setWorker position (.returning item key .cancelled))
  | _ => none

/-- One step of a worker. -/
def stepWorker (s : RunAll Key) (call : Call Item Key) (position : Nat) (point : Point Key) :
    WorkerEvent → Option (RunAll Key)
  | .advance => s.advance call position point
  | .raise outcome => s.raise position outcome point
  | .interrupt => if s.cancelled then s.interrupt position point else none

/-- One step. -/
def step (call : Call Item Key) (s : RunAll Key) : Event → Option (RunAll Key)
  | .setPaused paused => some { s with gate := s.gate.setPaused paused }
  | .setNetwork wifiOnly wifi unmetered internet ethernet =>
    some { s with gate := s.gate.setNetwork wifiOnly wifi unmetered internet ethernet }
  | .cancel => some { s with cancelled := true }
  | .worker position event =>
    (s.workers[position]?).bind fun point => s.stepWorker call position point event

/-- The machine of one `runAll`. -/
def machine (call : Call Item Key) : Transition.Machine (RunAll Key) Event where
  Start := (· = start call)
  step := step call

/-- Whether all jobs are complete, so that `runAll` has ended. -/
def isOver (s : RunAll Key) : Bool :=
  s.workers.all fun point => match point with
    | .ended _ => true
    | _ => false

end RunAll

end LosslessMusic.Admission
