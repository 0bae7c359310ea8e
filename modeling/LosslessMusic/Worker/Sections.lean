import LosslessMusic.Admission.Gate
import LosslessMusic.Queue.Service

/-!
# The sections of the download service

`DownloadForegroundService` with every synchronized section as a step of its own: the
main thread, the coroutines of the runs with their pollers, and the network callbacks.
Between two sections of one thread the others go on. A stop cancels a run, which its
coroutines see at their next suspension point only.
-/

namespace LosslessMusic.Worker

open Queue (NativeWorkerItemState NativeCallOutcome PostProcessOutcome RunSettings)

/-- The snapshot file as `writeSnapshot` fills it. -/
structure Snapshot where
  runId : String
  isRunning : Bool
  isPaused : Bool
  pauseReason : String
  items : List NativeWorkerItemState
  deriving DecidableEq, Repr

/-- Where the main thread is. -/
inductive MainPoint
  | idle
  /-- In `startQueueInternal` with the run id set, before `gate.setPaused`. -/
  | configuring (requests : List String) (settings : RunSettings)
  /-- Before the items are replaced. -/
  | replacing (requests : List String)
  /-- In `registerNetworkCallback`, before `gate.setNetwork`. -/
  | registering (requests : List String)
  /-- Before the first snapshot of the run. -/
  | publishing (requests : List String)
  /-- Before the worker job is launched. -/
  | launching (requests : List String)
  /-- Before `gate.setPaused` for a pause or a resume. -/
  | pausing (paused : Bool)
  /-- In `refreshQueueState`, before the snapshot. -/
  | refreshing (isRunning : Bool)
  deriving DecidableEq, Repr

/-- Where `processItem` is for one request. -/
inductive BlockPoint
  /-- Before the item is marked as downloading. -/
  | starting
  /-- Before the snapshot behind that. -/
  | started
  /-- In the duplicate check. -/
  | preflight
  /-- A duplicate, before the item is marked. -/
  | duplicate
  /-- In `downloadByStrategy`. -/
  | calling
  /-- Before the item is marked as failed. -/
  | failing (outcome : NativeCallOutcome)
  /-- Before the item is marked as finalizing. -/
  | finalizing (service : Option String)
  /-- Before the winning provider is set. -/
  | resolving (service : Option String)
  /-- Before the snapshot behind that. -/
  | resolved
  /-- In the output post-processing. -/
  | postProcessing
  /-- Before the item is marked as done or, behind an exception, as failed. -/
  | completing (outcome : PostProcessOutcome)
  /-- Before the last snapshot of the block. -/
  | settled
  | ended
  deriving DecidableEq, Repr

/-- Where `pollProgress` is for one request. -/
inductive PollPoint
  /-- In `getAllDownloadProgress`. -/
  | polling
  /-- Before the progress of the item is set. -/
  | reporting (bytesReceived bytesTotal : Int)
  /-- Before the snapshot behind that. -/
  | reported
  /-- In `delay`. -/
  | delaying
  /-- Not launched, or complete. -/
  | absent
  deriving DecidableEq, Repr

/-- The coroutine of one request in the run at a position, with its progress poller. -/
structure Block where
  run : Nat
  itemId : String
  point : BlockPoint
  poll : PollPoint
  deriving DecidableEq, Repr

/-- Where `runWorker` is. -/
inductive RunPoint
  /-- In `gate.runAll`. -/
  | working
  /-- Before the snapshot behind it. -/
  | publishing
  /-- Before `stopForegroundService`. -/
  | stopping
  | ended
  deriving DecidableEq, Repr

/-- A worker job: the requests that were not admitted, whether it is cancelled, and
where it is. -/
structure Run where
  pending : List String
  cancelled : Bool
  point : RunPoint
  deriving DecidableEq, Repr

def Run.isActive (run : Run) : Bool :=
  !run.cancelled && run.point ≠ .ended

/-- Where a network callback, or the fallback job behind its delay, is. -/
inductive CallbackPoint
  /-- Before `gate.setNetwork`. -/
  | notified (wifi unmetered internet ethernet : Bool)
  /-- In `refreshQueueState`, before the snapshot. -/
  | refreshing (isRunning : Bool)
  | ended
  deriving DecidableEq, Repr

/-- A snapshot that was published, with the item ids of the batch whose run id it has. -/
structure Published where
  snapshot : Snapshot
  batch : List String
  deriving DecidableEq, Repr

/-- `DownloadForegroundService`. The last two fields are a record: the item ids of the
last batch, and the snapshots in the order of their publication. -/
structure Service where
  currentRunId : String
  gate : Admission.Gate
  wifiOnly : Bool
  /-- The network callback and the fallback job are there. -/
  watching : Bool
  workerItems : List NativeWorkerItemState
  workerStopped : Bool
  /-- `workerJob`, as a position in `runs`. -/
  workerJob : Option Nat
  main : MainPoint
  runs : List Run
  blocks : List Block
  callbacks : List CallbackPoint
  batch : List String
  published : List Published
  deriving DecidableEq

/-- What a step does to the items and the snapshot file. -/
inductive Section
  | none
  | updateItem (itemId : String) (update : NativeWorkerItemState → NativeWorkerItemState)
  | writeSnapshot (isRunning : Bool)
  | stopForegroundService

/-- A step: an intent that is delivered, or a thread that goes on. Threads are named by
their positions. -/
inductive Action
  | startQueue (runId : String) (requests : List String) (settings : RunSettings)
  | setPaused (paused : Bool)
  | stop
  | main (networkAllowed : Bool)
  | admitItem (run : Nat) (itemId : String)
  | block (index : Nat)
  | preflightReturned (index : Nat) (duplicate : Bool)
  | callReturned (index : Nat) (outcome : NativeCallOutcome)
  | postProcessed (index : Nat) (outcome : PostProcessOutcome)
  | progressReturned (index : Nat) (progress : Option (Int × Int))
  | poll (index : Nat)
  | run (index : Nat)
  | networkChanged (wifi unmetered internet ethernet : Bool)
  | callback (index : Nat)
  deriving DecidableEq, Repr

/-- A step, and whether the snapshot file can be written in it. -/
structure Event where
  action : Action
  saved : Bool
  deriving DecidableEq, Repr

namespace Service

/-- A new service. -/
def create : Service where
  currentRunId := ""
  gate := .create 1
  wifiOnly := false
  watching := false
  workerItems := []
  workerStopped := true
  workerJob := none
  main := .idle
  runs := []
  blocks := []
  callbacks := []
  batch := []
  published := []

variable (s : Service)

/-! ## Sections -/

/-- `workerJob?.isActive == true`. -/
def jobActive : Bool :=
  (s.workerJob.bind (s.runs[·]?)).any Run.isActive

/-- What `writeSnapshot` writes. -/
def snapshot (isRunning : Bool) : Snapshot where
  runId := s.currentRunId
  isRunning
  isPaused := s.gate.isPaused
  pauseReason := s.gate.pauseReason.getD ""
  items := s.workerItems.map NativeWorkerItemState.published

def writeSnapshot (saved isRunning : Bool) : Service :=
  if isRunning && s.workerStopped || !saved then s
  else { s with published := s.published ++ [⟨s.snapshot isRunning, s.batch⟩] }

def updateItem (itemId : String) (update : NativeWorkerItemState → NativeWorkerItemState) :
    Service :=
  if s.workerStopped then s
  else { s with workerItems := Queue.Service.updateFirst itemId update s.workerItems }

/-- `workerJob?.cancel()`. -/
def cancelJob : Service :=
  match s.workerJob with
  | none => s
  | some job => { s with runs := s.runs.modify job fun run => { run with cancelled := true } }

def stopForegroundService (saved : Bool) : Service :=
  let s :=
    if s.workerStopped then s
    else
      { s with
        workerStopped := true
        workerItems := s.workerItems.map NativeWorkerItemState.requeueOnStop }.writeSnapshot
          saved false
  { s.cancelJob with workerJob := none, watching := false }

/-- The step does a section. -/
def perform (saved : Bool) : Section → Service
  | .none => s
  | .updateItem itemId update => s.updateItem itemId update
  | .writeSnapshot isRunning => s.writeSnapshot saved isRunning
  | .stopForegroundService => s.stopForegroundService saved

/-! ## Threads -/

/-- `startQueueInternal` up to the pause flag of the new gate. -/
def startQueue (runId : String) (requests : List String) (settings : RunSettings) : Service :=
  if requests.isEmpty || s.jobActive then s
  else
    { s with
      currentRunId := runId
      gate := .create settings.concurrentDownloads
      batch := requests
      main := .configuring requests settings }

/-- `onStartCommand` for a pause or a resume. -/
def setPaused (paused : Bool) : Service :=
  if s.jobActive then { s with main := .pausing paused } else s

/-- The next section of the main thread. -/
def mainStep (networkAllowed : Bool) : Option (Section × Service) :=
  match s.main with
  | .idle => none
  | .configuring requests settings =>
    some (.none,
      { s with
        gate := s.gate.setPaused settings.isPaused
        wifiOnly := settings.wifiOnly
        workerStopped := false
        main := .replacing requests })
  | .replacing requests =>
    some (.none,
      { s with
        workerItems := requests.map fun itemId => { itemId }
        watching := false
        main := .registering requests })
  | .registering requests =>
    some (.none,
      { s with
        gate := s.gate.setNetwork s.wifiOnly networkAllowed networkAllowed true false
        watching := s.wifiOnly
        main := .publishing requests })
  | .publishing requests => some (.writeSnapshot true, { s with main := .launching requests })
  | .launching requests =>
    some (.none,
      { s.cancelJob with
        workerJob := some s.cancelJob.runs.length
        runs := s.cancelJob.runs ++ [⟨requests, false, .working⟩]
        main := .idle })
  | .pausing paused =>
    some (.none,
      { s with
        gate := s.gate.setPaused paused
        main := if s.workerStopped then .idle else .refreshing s.jobActive })
  | .refreshing isRunning => some (.writeSnapshot isRunning, { s with main := .idle })

/-- The run of a block is not cancelled. -/
def isActive (block : Block) : Bool :=
  s.runs[block.run]?.any (!·.cancelled)

/-- A block goes on. -/
def setBlock (index : Nat) (block : Block) : Service :=
  { s with blocks := s.blocks.set index block }

/-- `runAll` admits a request, and its block finds the run active. -/
def admitItem (position : Nat) (itemId : String) : Option Service :=
  (s.runs[position]?).bind fun run =>
    if !run.cancelled && run.pending.contains itemId && !s.gate.isPaused &&
        s.blocks.countP (fun block => block.run = position && block.point ≠ .ended) <
          s.gate.concurrency then
      some { s with
        runs := s.runs.set position { run with pending := run.pending.erase itemId }
        blocks := s.blocks ++ [⟨position, itemId, .starting, .absent⟩] }
    else none

/-- The sections of `processItem` that do not wait for an answer. -/
def blockStep (block : Block) : Option (Section × Block) :=
  match block.point with
  | .starting =>
    some (.updateItem block.itemId fun item => { item with status := .downloading },
      { block with point := .started })
  | .started => some (.writeSnapshot true, { block with point := .preflight })
  | .duplicate =>
    some (.updateItem block.itemId Queue.settleDuplicate, { block with point := .settled })
  | .failing outcome =>
    some (.updateItem block.itemId (Queue.settleCall · outcome), { block with point := .settled })
  | .finalizing service =>
    some (.updateItem block.itemId fun item => { item with status := .finalizing },
      { block with point := .resolving service })
  | .resolving service =>
    some (.updateItem block.itemId fun item =>
        { item with resolvedService := service.filter (· ≠ "") },
      { block with point := .resolved })
  | .resolved => some (.writeSnapshot true, { block with point := .postProcessing })
  | .completing outcome =>
    some (.updateItem block.itemId (Queue.settlePostProcess · outcome),
      { block with point := .settled })
  | .settled => some (.writeSnapshot true, { block with point := .ended })
  | .preflight | .calling | .postProcessing | .ended => none

/-- The duplicate check returns. -/
def preflightReturned (block : Block) (duplicate : Bool) : Block :=
  if !s.isActive block then { block with point := .ended }
  else if duplicate then { block with point := .duplicate }
  else { block with point := .calling, poll := .polling }

/-- `downloadByStrategy` returns or throws. -/
def callReturned (block : Block) (outcome : NativeCallOutcome) : Block :=
  if !s.isActive block then { block with point := .ended }
  else
    match outcome with
    | .returned result =>
      if result.success = some true then { block with point := .finalizing result.service }
      else { block with point := .failing outcome }
    | .threw _ => { block with point := .failing outcome }

/-- The post-processing returns, or throws without a look at the run. -/
def postProcessed (block : Block) (outcome : PostProcessOutcome) : Block :=
  match outcome with
  | .processed _ =>
    if s.isActive block then { block with point := .completing outcome }
    else { block with point := .ended }
  | .threw _ => { block with point := .completing outcome }

/-- The poller of a block is not cancelled. -/
def isPolling (block : Block) : Bool :=
  s.isActive block && block.point = .calling

/-- `getAllDownloadProgress` returns, with no progress of the item or an exception for
`none`. -/
def progressReturned (block : Block) (progress : Option (Int × Int)) : Block :=
  match progress with
  | some (bytesReceived, bytesTotal) =>
    if s.isPolling block then { block with poll := .reporting bytesReceived bytesTotal }
    else { block with poll := .delaying }
  | none => { block with poll := .delaying }

/-- The sections of `pollProgress`, and the end of its delay. -/
def pollStep (block : Block) : Option (Section × Block) :=
  match block.poll with
  | .reporting bytesReceived bytesTotal =>
    some (.updateItem block.itemId fun item =>
        { item with
          progress := if bytesTotal > 0 then bytesReceived / bytesTotal else 0
          bytesReceived
          bytesTotal },
      { block with poll := .reported })
  | .reported => some (.writeSnapshot true, { block with poll := .delaying })
  | .delaying => some (.none, { block with poll := if s.isPolling block then .polling else .absent })
  | .polling | .absent => none

/-- `runAll` returns when it is not cancelled, every request was admitted, and every
coroutine of the run is complete. -/
def runAllReturns (position : Nat) (run : Run) : Bool :=
  !run.cancelled && run.pending.isEmpty &&
    s.blocks.all fun block => block.run ≠ position || block.point = .ended && block.poll = .absent

/-- The sections of `runWorker`. -/
def runStep (position : Nat) (run : Run) : Option (Section × Run) :=
  match run.point with
  | .working =>
    if s.runAllReturns position run then some (.none, { run with point := .publishing }) else none
  | .publishing => some (.writeSnapshot false, { run with point := .stopping })
  | .stopping => some (.stopForegroundService, { run with point := .ended })
  | .ended => none

/-- The sections of a network callback. -/
def callbackStep : CallbackPoint → Option (Section × Service × CallbackPoint)
  | .notified wifi unmetered internet ethernet =>
    some (.none, { s with gate := s.gate.setNetwork s.wifiOnly wifi unmetered internet ethernet },
      if s.workerStopped then .ended else .refreshing s.jobActive)
  | .refreshing isRunning => some (.writeSnapshot isRunning, s, .ended)
  | .ended => none

/-- The block at a position, at a point. -/
def blockAt (index : Nat) (point : BlockPoint) : Option Block :=
  s.blocks[index]?.filter (·.point = point)

/-- What the thread of an action does next, and the service in which it has gone on. -/
def move : Action → Option (Section × Service)
  | .startQueue runId requests settings =>
    if s.main = .idle then some (.none, s.startQueue runId requests settings) else none
  | .setPaused paused => if s.main = .idle then some (.none, s.setPaused paused) else none
  | .stop => if s.main = .idle then some (.stopForegroundService, s) else none
  | .main networkAllowed => s.mainStep networkAllowed
  | .admitItem position itemId => (s.admitItem position itemId).map (.none, ·)
  | .block index =>
    (s.blocks[index]?).bind fun block => (blockStep block).map fun (done, block) =>
      (done, s.setBlock index block)
  | .preflightReturned index duplicate =>
    (s.blockAt index .preflight).map fun block =>
      (.none, s.setBlock index (s.preflightReturned block duplicate))
  | .callReturned index outcome =>
    (s.blockAt index .calling).map fun block =>
      (.none, s.setBlock index (s.callReturned block outcome))
  | .postProcessed index outcome =>
    (s.blockAt index .postProcessing).map fun block =>
      (.none, s.setBlock index (s.postProcessed block outcome))
  | .progressReturned index progress =>
    (s.blocks[index]?.filter (·.poll = .polling)).map fun block =>
      (.none, s.setBlock index (s.progressReturned block progress))
  | .poll index =>
    (s.blocks[index]?).bind fun block => (s.pollStep block).map fun (done, block) =>
      (done, s.setBlock index block)
  | .run position =>
    (s.runs[position]?).bind fun run => (s.runStep position run).map fun (done, run) =>
      (done, { s with runs := s.runs.set position run })
  | .networkChanged wifi unmetered internet ethernet =>
    if s.watching then
      some (.none,
        { s with callbacks := s.callbacks ++ [.notified wifi unmetered internet ethernet] })
    else none
  | .callback index =>
    (s.callbacks[index]?).bind fun point => (s.callbackStep point).map fun (done, s, point) =>
      (done, { s with callbacks := s.callbacks.set index point })

/-- One step. -/
def step (event : Event) : Option Service :=
  (s.move event.action).map fun (done, moved) => moved.perform event.saved done

/-- The machine of the service. -/
def machine : Transition.Machine Service Event where
  Start := (· = create)
  step := step

end Service

end LosslessMusic.Worker
