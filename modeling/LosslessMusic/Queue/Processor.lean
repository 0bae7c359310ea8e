import LosslessMusic.Queue.Controller

/-!
# Steps of the download queue

One step is one synchronous stretch of the controller: a user action, an engine
progress event, a timer, or the resumption of the suspended `_processQueue` call
with what its await delivered. A step carries its time; timers and the stall
watchdog compare against it.
-/

namespace LosslessMusic.Queue

/-- What `bridge.checkDuplicate` delivers: the `exists` flag with the `path` key
of its answer, or an exception. -/
inductive DuplicateAnswer
  | answer (exists_ : Bool) (path : Option String)
  | threw
  deriving DecidableEq, Repr

/-- What `bridge.downloadByStrategy` delivers. -/
inductive TransferOutcome
  | returned (res : DownloadResult)
  | threw (message : String)
  deriving DecidableEq, Repr

/-- What the steps behind a successful transfer deliver: the path of a finalized
MP4 download, if it was one, or an exception. -/
inductive FinishOutcome
  | finished (flacPath : Option String)
  | threw (message : String)
  deriving DecidableEq, Repr

/-- What the controller reacts to. `ok` is false when the awaited call throws. -/
inductive QueueEvent
  | enqueue (itemId : String) (track : Track) (service quality : Option String)
  | retry (itemId newItemId : String)
  | remove (itemId : String)
  | pause
  | resume
  | resumeReturned (ok : Bool)
  | lifecycleResumed
  | setWifiOnly (wifiOnly : Bool)
  | setSimultaneousDownloads (simultaneousDownloads : Int)
  | progress (items : List DownloadProgress)
  | rateLimitElapsed (itemId : String)
  | hydrated (ok : Bool)
  | requestBuilt (ok : Bool)
  | startReturned (ok : Bool)
  | pauseReturned (ok : Bool)
  | polled (snapshot : Option NativeWorkerSnapshot)
  | admission (networkAllowed : Bool)
  | directoryResolved (error : Option String)
  | duplicateChecked (answer : DuplicateAnswer)
  | transferReturned (outcome : TransferOutcome)
  | finished (outcome : FinishOutcome)
  | backoffElapsed
  deriving Repr

/-- The stall watchdog's limit in milliseconds. -/
def stallLimit : Nat := 30000

namespace Controller

/-- `pause` and `resume` forward to the worker of the running batch. -/
def forwardPause (c : Controller) (paused : Bool) : Controller :=
  if c.activeWorker then { c with outbox := c.outbox ++ [ServiceIntent.setPaused paused] } else c

/-- `_runNativeBatch` behind `worker.start` and its pause: the poll loop. -/
def startPolling (c : Controller) (batch : Batch) : Controller :=
  { c with processor := .polling batch c.now false c.now }

/-- `_processQueue` behind the startup options. -/
def onHydrated (c : Controller) (queued : List DownloadEntry) : Controller :=
  if c.manualPaused then c.finishProcessing true
  else if c.workerAvailable then { c with processor := .building queued queued }
  else c.startFallbacks (queued.take 1)

/-- `_runNativeBatch` behind one more built request. -/
def onRequestBuilt (c : Controller) (queued remaining : List DownloadEntry) :
    Controller :=
  match remaining with
  | [] | [_] =>
    { c with
      processor := .starting ⟨queued, c.nextRunId⟩
        ⟨c.simultaneousDownloads, c.wifiOnly, c.manualPaused⟩
      nextRunId := c.nextRunId + 1 }
  | _ :: rest => { c with processor := .building queued rest }

/-- `_runNativeBatch` behind a successful `worker.start`: the intent is on its
way to the service. -/
def onStarted (c : Controller) (batch : Batch) (settings : RunSettings) : Controller :=
  let c :=
    { c with
      outbox := c.outbox ++ [ServiceIntent.startQueue batch.runId batch.ids settings]
      handedOver := c.handedOver ++ batch.ids
      activeWorker := true }
  if c.manualPaused then
    { c with
      outbox := c.outbox ++ [ServiceIntent.setPaused true]
      processor := .pausing batch }
  else c.startPolling batch

/-- The batch ended with a snapshot that is no longer running. -/
def endBatch (c : Controller) (batch : Batch) (snapshot : NativeWorkerSnapshot) :
    Controller :=
  let stoppedWithPending :=
    snapshot.items.any fun i => i.itemId ∈ batch.ids ∧ i.status = .queued
  { c with
    nativeRunStopped := stoppedWithPending
    activeWorker := false }.finishProcessing (!stoppedWithPending)

/-- The stall watchdog gave up on the service: every entry of the batch goes to
the Dart path. -/
def giveUp (c : Controller) (batch : Batch) : Controller :=
  { c with activeWorker := false }.startFallbacks batch.queued

/-- A poll that saw no snapshot of this run. -/
def pollMissed (c : Controller) (batch : Batch) (startedAt : Nat) (started : Bool)
    (lastSeenAt : Nat) : Controller :=
  let stalledSince := if started then lastSeenAt else startedAt
  if c.now - stalledSince > stallLimit then c.giveUp batch else c

/-- A poll that read a snapshot of this run. -/
def pollMerged (c : Controller) (batch : Batch) (startedAt : Nat)
    (snapshot : NativeWorkerSnapshot) : Controller :=
  let c := c.mergeNativeSnapshot snapshot batch.ids
  if snapshot.isRunning then
    { c with processor := .polling batch startedAt true c.now }
  else c.endBatch batch snapshot

/-- One round of the poll loop. -/
def onPolled (c : Controller) (batch : Batch) (startedAt : Nat) (started : Bool)
    (lastSeenAt : Nat) : Option NativeWorkerSnapshot → Controller
  | none => c.pollMissed batch startedAt started lastSeenAt
  | some snapshot =>
    if snapshot.runId = batch.runId then c.pollMerged batch startedAt snapshot
    else c.pollMissed batch startedAt started lastSeenAt

/-- One round of `_waitForAdmission`. -/
def onAdmission (c : Controller) (next : DownloadEntry)
    (remaining : List DownloadEntry) (networkAllowed : Bool) : Controller :=
  if !c.has next.itemId then c.startFallbacks remaining
  else if !c.manualPaused && (!c.wifiOnly || networkAllowed) then
    (c.setStatus next.itemId .downloading).suspend next .directory remaining
  else c

/-- `_runDartFallback` behind the download directory. -/
def onDirectory (c : Controller) (next : DownloadEntry)
    (remaining : List DownloadEntry) : Option String → Controller
  | some error =>
    (c.setStatus next.itemId .failed { error := some error }).startFallbacks remaining
  | none =>
    if next.track.isrc.any (· ≠ "") then c.suspend next .duplicate remaining
    else c.suspend next .transfer remaining

/-- `_runDartFallback` behind the duplicate check; an exception there is not
fatal. -/
def onDuplicate (c : Controller) (next : DownloadEntry)
    (remaining : List DownloadEntry) : DuplicateAnswer → Controller
  | .answer true path =>
    (c.setStatus next.itemId .done
      { progressIfDone := some 1
        filePath := path
        alreadyInLibrary := some true }).startFallbacks remaining
  | .answer false _ | .threw => c.suspend next .transfer remaining

/-- `_runDartFallback` behind the engine call. -/
def onTransfer (c : Controller) (next : DownloadEntry)
    (remaining : List DownloadEntry) : TransferOutcome → Controller
  | .threw message =>
    (c.setStatus next.itemId .failed { error := some message }).startFallbacks remaining
  | .returned res =>
    match if res.failed then existingLibraryPath res.error else none with
    | some path =>
      (c.setStatus next.itemId .done
        { progressIfDone := some 1
          filePath := some path
          alreadyInLibrary := some true }).startFallbacks remaining
    | none =>
      if !res.failed then c.suspend next (.finishing res) remaining
      else if isRateLimitError res.err = true ∧
          next.itemId ∉ c.rateLimitRetriedItemIds then
        let errorMsg := res.err.getD ""
        (c.beginRateLimitRetry next.itemId errorMsg).suspend next
          (.rateLimited (c.rateLimitDeadline errorMsg)) remaining
      else
        (c.setStatus next.itemId .failed
          { filePath := res.filePath
            error := some ((res.err.filter (· ≠ "")).getD "unknown")
            verificationService := res.resultService }).startFallbacks remaining

/-- `_runDartFallback` behind the finalization of a delivered file. -/
def onFinished (c : Controller) (next : DownloadEntry)
    (remaining : List DownloadEntry) (res : DownloadResult) :
    FinishOutcome → Controller
  | .threw message =>
    (c.setStatus next.itemId .failed { error := some message }).startFallbacks remaining
  | .finished flacPath =>
    (c.setStatus next.itemId .done
      { progressIfDone := some 1
        filePath := flacPath.or res.filePath
        resolvedService := res.resultService }).startFallbacks remaining

/-- The delay of an unawaited `_handleRateLimited` ends. -/
def onRateLimitElapsed (c : Controller) (itemId : String) : Option Controller :=
  match c.timers.find? fun timer => timer.itemId = itemId ∧ timer.deadline ≤ c.now with
  | none => none
  | some timer =>
    some ({ c with timers := c.timers.erase timer }.endRateLimitRetry itemId)

/-- Resume the suspended `_processQueue` call. -/
def resumeProcessor (c : Controller) (event : QueueEvent) : Option Controller :=
  match c.processor, event with
  | .hydrating queued, .hydrated ok =>
    some (if ok then c.onHydrated queued else c.finishProcessing true)
  | .building queued remaining, .requestBuilt ok =>
    some (if ok then c.onRequestBuilt queued remaining else c.finishProcessing true)
  | .starting batch settings, .startReturned ok =>
    some (if ok then c.onStarted batch settings else c.finishProcessing true)
  | .pausing batch, .pauseReturned ok =>
    some (if ok then c.startPolling batch else c.finishProcessing true)
  | .polling batch startedAt started lastSeenAt, .polled snapshot =>
    some (c.onPolled batch startedAt started lastSeenAt snapshot)
  | .fallback next .admission remaining, .admission networkAllowed =>
    some (c.onAdmission next remaining networkAllowed)
  | .fallback next .directory remaining, .directoryResolved error =>
    some (c.onDirectory next remaining error)
  | .fallback next .duplicate remaining, .duplicateChecked answer =>
    some (c.onDuplicate next remaining answer)
  | .fallback next .transfer remaining, .transferReturned outcome =>
    some (c.onTransfer next remaining outcome)
  | .fallback next (.finishing res) remaining, .finished outcome =>
    some (c.onFinished next remaining res outcome)
  | .fallback next (.rateLimited deadline) remaining, .backoffElapsed =>
    if deadline ≤ c.now then
      some ((c.endRateLimitRetry next.itemId).startFallbacks remaining)
    else none
  | _, _ => none

/-- One event at the current time. Item ids come from a running clock, so a new
entry's id was never given before. -/
def handle (c : Controller) (event : QueueEvent) : Option Controller :=
  match event with
  | .enqueue itemId track service quality =>
    if itemId ∈ c.issuedIds then none
    else some (c.enqueue itemId track service quality)
  | .retry itemId newItemId =>
    if newItemId ∈ c.issuedIds then none
    else match c.entries.find? (·.itemId = itemId) with
      | none => some c
      | some entry =>
        some ((c.removeLocal itemId).enqueue newItemId entry.track entry.service entry.quality)
  | .remove itemId => some (c.removeLocal itemId)
  | .pause =>
    some ({ c with manualPaused := true, pendingPause := some true }.forwardPause true)
  | .resume =>
    some ({ c with
      manualPaused := false
      pendingPause := some false
      pendingResumes := c.pendingResumes + 1 }.forwardPause false)
  | .resumeReturned ok =>
    if c.pendingResumes = 0 then none
    else
      let c := { c with pendingResumes := c.pendingResumes - 1 }
      some (if ok then c.processQueue else c)
  | .lifecycleResumed => some c.processQueue
  | .setWifiOnly wifiOnly => some { c with wifiOnly }
  | .setSimultaneousDownloads simultaneousDownloads =>
    some { c with simultaneousDownloads }
  | .progress items => some (c.merge items)
  | .rateLimitElapsed itemId => c.onRateLimitElapsed itemId
  | event => c.resumeProcessor event

/-- One event at time `time`, which is not before the last one. -/
def step (c : Controller) (time : Nat) (event : QueueEvent) : Option Controller :=
  if time < c.now then none else { c with now := time }.handle event

end Controller

end LosslessMusic.Queue
