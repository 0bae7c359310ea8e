import LosslessMusic.Transition.Machine
import Mathlib.Data.List.Basic

/-!
# The segment pool

`segments::download` as a machine: the calling thread, its workers, the two
bounded channels between them and the assembled output file. A step is what one
thread does between two points where another one can come in, or where an
operation can fail; an event names the thread and how the operation ended.
Progress reports and the resolution budget are left out.
-/

namespace LosslessMusic.Transfer

/-- The contents of a file or of a response. -/
abbrev Bytes := List UInt8

namespace Pool

/-- A call of `segments::download` whose output `SegmentOutput::open` has opened:
`first` segments with the bytes `restored` come from the checkpoint. -/
structure Call where
  segments : Nat
  maxParallelSegments : Nat
  maxAttempts : Nat
  refreshStreamOnStatus : List Nat
  persistent : Bool
  first : Nat
  restored : Bytes
  some_segment : 0 < segments
  some_worker : 0 < maxParallelSegments
  within : first ≤ segments
  restored_iff : first = 0 ↔ restored = []
  kept : persistent = false → first = 0

namespace Call

def workerCount (call : Call) : Nat :=
  min call.maxParallelSegments (call.segments - call.first)

end Call

/-- Why an attempt of `fetch` fails. -/
inductive AttemptFailure
  /-- `check` fails, at any of its places. -/
  | cancelled
  /-- The segment file cannot be created. -/
  | storage
  /-- The request, the body or writing it fails, or the body is empty or short. -/
  | network
  /-- A status other than success. -/
  | status (code : Nat)
  deriving DecidableEq, Repr

def retryable (status : Nat) : Bool :=
  status = 408 || status = 425 || status = 429 || status ≥ 500

namespace AttemptFailure

/-- The `error_type` of a failure. -/
def errorType (call : Call) : AttemptFailure → String
  | .cancelled => "cancelled"
  | .storage => "storage_error"
  | .network => "transient_network"
  | .status code =>
    if code = 429 then "rate_limited"
    else if code ∈ call.refreshStreamOnStatus then "expired_stream"
    else if retryable code then "transient_network"
    else "http_error"

/-- No attempt follows such a failure. -/
def isFinal : AttemptFailure → Bool
  | .cancelled | .storage => true
  | .network => false
  | .status code => !retryable code

end AttemptFailure

/-- A message on the result channel. -/
inductive Message
  | completed (index : Nat) (data : Bytes)
  | failed (errorType : String)
  deriving DecidableEq, Repr

/-- Where a worker is. -/
inductive WorkerPoint
  /-- At `check_worker` at the head of its loop. -/
  | checking
  /-- In `recv` on the job channel. -/
  | waiting
  /-- In `fetch`, with what this attempt has received. -/
  | fetching (index attempt : Nat) (received : Bytes)
  /-- In `send` on the result channel. -/
  | sending (message : Message)
  /-- In the `send` behind a caught panic. -/
  | reporting
  | ended (panicked : Bool)
  deriving DecidableEq, Repr

/-- How the call returns. -/
inductive Outcome
  | success (published : Bytes)
  | failure (errorType : String)
  /-- The scope resumes the panic of a worker. -/
  | panicked
  deriving DecidableEq, Repr

/-- Where the calling thread is. -/
inductive MainPoint
  /-- Starting workers, of which `left` are still to start. -/
  | spawning (left : Nat)
  /-- At `check` at the head of the loop. -/
  | checking
  /-- In `recv_timeout`. -/
  | receiving
  /-- At `pending.remove(next_index)`. -/
  | assembling
  /-- In `append`, behind `copied` bytes of the segment. -/
  | appending (data : Bytes) (copied : Nat)
  /-- At `checkpoint(false)`. -/
  | saving
  /-- At the send that releases a slot. -/
  | releasing
  /-- Behind the loop, where the scope joins the workers. -/
  | joining
  | publishing
  | returned (outcome : Outcome)
  deriving DecidableEq, Repr

end Pool

/-- The state of a running call. `saved` is the checkpoint on disk. The last two
fields only record history: the completed fetches and the appended segments. -/
structure Pool where
  queue : List Nat
  senderOpen : Bool
  nextJob : Nat
  workers : List Pool.WorkerPoint := []
  results : List Pool.Message := []
  pending : List (Nat × Bytes) := []
  nextIndex : Nat
  bytes : Nat
  file : Bytes
  saved : Option (Nat × Nat)
  stop : Bool := false
  firstFailure : Option String := none
  main : Pool.MainPoint
  fetched : List (Nat × Bytes) := []
  appended : List Bytes := []
  deriving DecidableEq, Repr

namespace Pool

/-- What happens in a worker. -/
inductive WorkerEvent
  | checked (ok : Bool)
  | received
  | chunk (data : Bytes)
  | attemptFailed (failure : AttemptFailure)
  | bodyEnded (contentLength : Int)
  | sent
  | panicked
  deriving DecidableEq, Repr

/-- What happens in the calling thread or in the worker at a position. -/
inductive Event
  | spawned (ok : Bool)
  | checked (ok : Bool)
  | received
  | timedOut
  | disconnected
  | assembled
  | copied (count : Nat)
  | copyFailed (written : Nat) (rolledBack : Bool)
  | copyEnded
  | checkpointed (ok : Bool)
  | released
  | joined (saved : Bool)
  | published (ok : Bool)
  | worker (position : Nat) (event : WorkerEvent)
  deriving DecidableEq, Repr

variable (call : Call)

/-- The state behind the first job sends, for which the channel has room; a
completely restored output goes straight to publication. -/
def start : Pool where
  queue := if call.first = call.segments then [] else
    List.range' call.first call.workerCount
  senderOpen := call.first + call.workerCount < call.segments
  nextJob := call.first + call.workerCount
  nextIndex := call.first
  bytes := call.restored.length
  file := call.restored
  saved := if call.first = 0 then none else some (call.first, call.restored.length)
  main := if call.first = call.segments then .publishing else .spawning call.workerCount

/-- The receiver of the result channel lives as long as the loop. -/
def receiverOpen (s : Pool) : Bool :=
  match s.main with
  | .joining | .publishing | .returned _ => false
  | _ => true

/-- Every clone of the result sender is dropped. -/
def allEnded (s : Pool) : Bool :=
  s.workers.all fun
    | .ended _ => true
    | _ => false

/-- `first_failure.get_or_insert`, `stop.store(true)` and `jobs.take()`. -/
def fail (s : Pool) (errorType : String) : Pool :=
  { s with
    firstFailure := some (s.firstFailure.getD errorType)
    stop := true
    senderOpen := false }

/-- The output is saved as `SegmentOutput::checkpoint` does when its interval has
passed or it is forced, and the save succeeds. -/
def checkpoint (s : Pool) (ok : Bool) : Pool :=
  if !call.persistent || s.nextIndex = 0 || s.bytes = 0 || !ok then s
  else { s with saved := some (s.nextIndex, s.bytes) }

/-- A message is taken from the result channel. -/
def onReceived (s : Pool) (message : Message) : Pool :=
  match message with
  | .failed errorType => s.fail errorType
  | .completed index data =>
    { s with pending := (index, data) :: s.pending.filter (·.1 ≠ index) }

/-- Behind the scope. -/
def onJoined (s : Pool) (saved : Bool) : Pool :=
  if s.workers.contains (.ended true) then { s with main := .returned .panicked }
  else
    match s.firstFailure with
    | some errorType =>
      { s.checkpoint call saved with main := .returned (.failure errorType) }
    | none =>
      if s.nextIndex ≠ call.segments || s.bytes = 0 then
        { s with main := .returned (.failure "integrity_failed") }
      else { s with main := .publishing }

/-- The worker at a position goes on to another point. -/
def setWorker (s : Pool) (position : Nat) (point : WorkerPoint) : Pool :=
  { s with workers := s.workers.set position point }

/-- A worker hands a message to the result channel, when there is room, and goes
on to `next`; without a receiver the send fails and the worker ends as `closed`. -/
def send (s : Pool) (position : Nat) (message : Message) (next closed : WorkerPoint) :
    Option Pool :=
  if !s.receiverOpen then some (s.setWorker position closed)
  else if s.results.length < call.workerCount then
    some ({ s with results := s.results ++ [message] }.setWorker position next)
  else none

/-- An attempt of `fetch` fails: another one follows, or the fetch returns. -/
def onAttemptFailed (s : Pool) (position index attempt : Nat) (failure : AttemptFailure) : Pool :=
  if failure.isFinal || attempt ≥ call.maxAttempts then
    s.setWorker position (.sending (.failed (failure.errorType call)))
  else s.setWorker position (.fetching index (attempt + 1) [])

/-- One step of the worker at a position. -/
def stepWorker (s : Pool) (position : Nat) (point : WorkerPoint) (event : WorkerEvent) :
    Option Pool :=
  match point, event with
  | .checking, .checked ok =>
    some (s.setWorker position (if ok && !s.stop then .waiting else .ended false))
  | .waiting, .received =>
    match s.queue with
    | index :: rest =>
      some ({ s with queue := rest }.setWorker position (.fetching index 1 []))
    | [] => if s.senderOpen then none else some (s.setWorker position (.ended false))
  | .fetching index attempt received, .chunk data =>
    if data = [] then none
    else some (s.setWorker position (.fetching index attempt (received ++ data)))
  | .fetching index attempt _, .attemptFailed failure =>
    some (s.onAttemptFailed call position index attempt failure)
  | .fetching index attempt received, .bodyEnded contentLength =>
    if (contentLength > 0 ∧ (received.length : Int) ≠ contentLength) ∨ received = [] then
      some (s.onAttemptFailed call position index attempt .network)
    else
      some ({ s with fetched := (index, received) :: s.fetched }.setWorker position
        (.sending (.completed index received)))
  | .sending message, .sent =>
    s.send call position message (match message with
        | .failed _ => .ended false
        | .completed _ _ => .checking)
      (.ended false)
  | .reporting, .sent =>
    s.send call position (.failed "storage_error") (.ended true) (.ended true)
  | .checking, .panicked | .waiting, .panicked | .fetching _ _ _, .panicked =>
    some (s.setWorker position .reporting)
  | _, _ => none

/-- One step of the calling thread. -/
def stepMain (s : Pool) (event : Event) : Option Pool :=
  match s.main, event with
  | .spawning left, .spawned ok =>
    if ok then
      some { s with
        workers := s.workers ++ [.checking]
        main := if left ≤ 1 then .checking else .spawning (left - 1) }
    else some { s.fail "storage_error" with main := .checking }
  | .checking, .checked ok =>
    some { (if ok then s else s.fail "cancelled") with main := .receiving }
  | .receiving, .received =>
    match s.results with
    | [] => none
    | message :: rest =>
      some { { s with results := rest }.onReceived message with main := .assembling }
  | .receiving, .timedOut =>
    if s.results = [] ∧ s.allEnded = false then some { s with main := .checking }
    else none
  | .receiving, .disconnected =>
    if s.results = [] ∧ s.allEnded = true then some { s with main := .joining }
    else none
  | .assembling, .assembled =>
    match s.pending.find? (·.1 = s.nextIndex) with
    | some ready =>
      some { s with
        pending := s.pending.filter (·.1 ≠ s.nextIndex)
        main := .appending ready.2 0 }
    | none => some { s with main := .checking }
  | .appending data copied, .copied count =>
    if 0 < count ∧ copied + count ≤ data.length then
      some { s with
        file := s.file ++ (data.drop copied).take count
        main := .appending data (copied + count) }
    else none
  | .appending data copied, .copyFailed written rolledBack =>
    -- Of a failed write some bytes may be in the file; the rollback may fail, too.
    let file := s.file ++ (data.drop copied).take written
    some { s.fail "storage_error" with
      file := if rolledBack then file.take s.bytes else file
      main := .checking }
  | .appending data copied, .copyEnded =>
    -- The file holds what its fetch wrote, so `copied` is its size.
    if copied = data.length then
      some { s with
        bytes := s.bytes + copied
        nextIndex := s.nextIndex + 1
        appended := s.appended ++ [data]
        main := .saving }
    else none
  | .saving, .checkpointed ok => some { s.checkpoint call ok with main := .releasing }
  | .releasing, .released =>
    if !s.senderOpen then some { s with main := .assembling }
    else if s.queue.length < call.workerCount then
      some { s with
        queue := s.queue ++ [s.nextJob]
        nextJob := s.nextJob + 1
        senderOpen := s.nextJob + 1 ≠ call.segments
        main := .assembling }
    else none
  | .joining, .joined saved => some (s.onJoined call saved)
  | .publishing, .published ok =>
    some (if ok then { s with saved := none, main := .returned (.success s.file) }
      else { s with main := .returned (.failure "storage_error") })
  | _, _ => none

/-- One step. -/
def step (s : Pool) : Event → Option Pool
  | .worker position event =>
    (s.workers[position]?).bind fun point => s.stepWorker call position point event
  | event => s.stepMain call event

/-- The pool of a call as a machine. -/
def machine : Transition.Machine Pool Event where
  Start := fun s => s = start call
  step := fun s event => s.step call event

end Pool

end LosslessMusic.Transfer
