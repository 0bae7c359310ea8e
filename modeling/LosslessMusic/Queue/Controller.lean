import LosslessMusic.Queue.Entry

/-!
# The download queue controller

The state of `DownloadQueueController` and the synchronous updates its
asynchronous methods are made of. A method is suspended at its awaits only, so
each update below is atomic in the source as well. The suspended
`_processQueue` call, of which there is at most one, is the `Processor`.
-/

namespace LosslessMusic.Queue

/-- A pending `Future.delayed` of `_handleRateLimited`. -/
structure RateLimitTimer where
  itemId : String
  deadline : Nat
  deriving DecidableEq, Repr

/-- The settings of a native run. -/
structure RunSettings where
  concurrentDownloads : Int
  wifiOnly : Bool
  isPaused : Bool
  deriving DecidableEq, Repr

/-- An intent sent to the foreground service and not delivered yet. -/
inductive ServiceIntent
  | startQueue (runId : Nat) (requests : List String) (settings : RunSettings)
  | setPaused (paused : Bool)
  deriving DecidableEq, Repr

/-- The `decryption` object of a result. -/
structure DecryptionInfo where
  key : Option String := none
  strategy : Option String := none
  outputExtension : Option String := none
  inputFormat : Option String := none
  deriving DecidableEq, Repr

/-- The result map of `bridge.downloadByStrategy`, field by field; the engine
writes no null, so a field is missing or has a value. -/
structure DownloadResult where
  success : Option Bool := none
  error : Option String := none
  errorType : Option String := none
  status : Option String := none
  service : Option String := none
  filePath : Option String := none
  retryAfterSeconds : Option Int := none
  alreadyExists : Option Bool := none
  decryption : Option DecryptionInfo := none
  decryptionKey : Option String := none
  outputExtension : Option String := none
  deriving DecidableEq, Repr

namespace DownloadResult

/-- The Dart fallback's test for a failed result. -/
def failed (res : DownloadResult) : Bool :=
  let status := res.status.map Text.toLowerCase
  res.success = some false ||
  res.error.any (· ≠ "") ||
  status.any (Text.contains · "error") ||
  status.any (Text.contains · "fail") ||
  status.any (Text.contains · "cancel")

/-- The error text the Dart fallback derives from a result. -/
def err (res : DownloadResult) : Option String :=
  foldRetryAfterSeconds (res.error.or res.errorType) (res.retryAfterSeconds.getD 0)

/-- The result's `service` when it is neither null nor empty. -/
def resultService (res : DownloadResult) : Option String :=
  res.service.filter (· ≠ "")

end DownloadResult

/-- Where the running `_runDartFallback` call is suspended. -/
inductive FallbackPoint
  /-- In `_waitForAdmission`. -/
  | admission
  /-- On the download directory and the provider priorities. -/
  | directory
  /-- On `bridge.checkDuplicate`. -/
  | duplicate
  /-- On `bridge.downloadByStrategy`. -/
  | transfer
  /-- On the backoff delay of `_handleRateLimited`. -/
  | rateLimited (deadline : Nat)
  /-- On unwrapping, tagging and the lyrics sidecar of a delivered file. -/
  | finishing (res : DownloadResult)
  deriving DecidableEq, Repr

/-- The native batch a `_runNativeBatch` call works on. -/
structure Batch where
  queued : List DownloadEntry
  runId : Nat
  deriving DecidableEq, Repr

namespace Batch

/-- `byItemId.containsKey`, and equally membership in `requests`: the request
builder returns a track name and a directory for every entry, so the gate
rejects none. -/
def ids (batch : Batch) : List String :=
  batch.queued.map DownloadEntry.itemId

end Batch

/-- Where the running `_processQueue` call is suspended. -/
inductive Processor
  /-- No call is running: `_isProcessing` is false. -/
  | idle
  /-- On the options that load at startup. -/
  | hydrating (queued : List DownloadEntry)
  /-- On `_buildRequestJson` of the first of `remaining`. -/
  | building (queued remaining : List DownloadEntry)
  /-- On `worker.start`. -/
  | starting (batch : Batch) (settings : RunSettings)
  /-- On `worker.pause`, after a start while paused. -/
  | pausing (batch : Batch)
  /-- In the poll loop. -/
  | polling (batch : Batch) (startedAt : Nat) (started : Bool) (lastSeenAt : Nat)
  /-- In `_runDartFallback current`; `remaining` still follows. -/
  | fallback (current : DownloadEntry) (point : FallbackPoint)
      (remaining : List DownloadEntry)
  deriving Repr

/-- `DownloadQueueController` with the providers its control flow reads. The
last three fields only record history: the ids ever given to an entry, the ids
in the order they were handed to an executor, and how often `_processQueue` was
re-entered from its own `finally` block. -/
structure Controller where
  entries : List DownloadEntry := []
  rateLimitRetriedItemIds : List String := []
  timers : List RateLimitTimer := []
  nativeRunStopped : Bool := false
  manualPaused : Bool := false
  pendingPause : Option Bool := none
  activeWorker : Bool := false
  pendingResumes : Nat := 0
  wifiOnly : Bool := false
  simultaneousDownloads : Int := 1
  workerAvailable : Bool := true
  processor : Processor := .idle
  outbox : List ServiceIntent := []
  nextRunId : Nat := 0
  now : Nat := 0
  issuedIds : List String := []
  handedOver : List String := []
  reentries : Nat := 0
  deriving Repr

/-- The optional named arguments of `_setStatus`. -/
structure StatusDetails where
  progressIfDone : Option ℚ := none
  error : Option String := none
  verificationService : Option String := none
  resolvedService : Option String := none
  filePath : Option String := none
  alreadyInLibrary : Option Bool := none

/-- The `copyWith` of `_setStatus`. -/
def StatusDetails.apply (details : StatusDetails) (status : EntryStatus)
    (entry : DownloadEntry) : DownloadEntry :=
  entry.copyWith
    { status := some status
      progress := some (details.progressIfDone.getD entry.progress)
      error := details.error
      verificationService := details.verificationService
      resolvedService := details.resolvedService
      filePath := details.filePath
      alreadyInLibrary := details.alreadyInLibrary }

@[simp] theorem StatusDetails.apply_itemId (details : StatusDetails)
    (status : EntryStatus) (entry : DownloadEntry) :
    (details.apply status entry).itemId = entry.itemId := rfl

@[simp] theorem StatusDetails.apply_status (details : StatusDetails)
    (status : EntryStatus) (entry : DownloadEntry) :
    (details.apply status entry).status = status := rfl

def applyNativeItemState (entry : DownloadEntry) (item : NativeWorkerItemState) :
    DownloadEntry :=
  if entry.status.terminal = true ∧ entry.status ≠ item.status then entry
  else
    let existingPath :=
      if item.status = .failed then existingLibraryPath item.error else none
    entry.copyWith
      { status := some (if existingPath.isSome then .done else item.status)
        progress := some (if existingPath.isSome then 1 else item.progress)
        bytesReceived := some item.bytesReceived
        totalBytes :=
          if item.bytesTotal > 0 then some item.bytesTotal else entry.totalBytes
        error := foldRetryAfterSeconds item.error item.retryAfterSeconds
        verificationService := item.service
        resolvedService := item.resolvedService
        filePath := existingPath.or item.filePath
        alreadyInLibrary := some existingPath.isSome }

@[simp] theorem applyNativeItemState_itemId (entry : DownloadEntry) (item : NativeWorkerItemState) :
    (applyNativeItemState entry item).itemId = entry.itemId := by
  unfold applyNativeItemState
  split <;> rfl

/-- The item `_mergeNativeSnapshot` applies to an entry of the batch: the
snapshot's, or else the entry read back as one. -/
def snapshotItem (snapshot : NativeWorkerSnapshot) (entry : DownloadEntry) :
    NativeWorkerItemState :=
  (snapshot.items.find? (·.itemId = entry.itemId)).getD
    { itemId := entry.itemId
      status := entry.status
      progress := entry.progress
      bytesReceived := entry.bytesReceived
      bytesTotal := entry.totalBytes.getD 0 }

/-- A `DownloadProgress` event of the engine for one item. -/
structure DownloadProgress where
  itemId : String
  status : String
  progress : ℚ := 0
  bytesReceived : Int := 0
  deriving DecidableEq, Repr

def mapStatus (raw : String) (fallback : EntryStatus) : EntryStatus :=
  let s := Text.toLowerCase raw
  if Text.contains s "download" then .downloading
  else if Text.contains s "metadata" || Text.contains s "finaliz" ||
      Text.contains s "process" || Text.contains s "writ" then .finalizing
  else if Text.contains s "complet" || Text.contains s "done" ||
      Text.contains s "success" then .done
  else if Text.contains s "fail" || Text.contains s "error" then .failed
  else if Text.contains s "queue" || Text.contains s "pending" ||
      Text.contains s "wait" then .queued
  else fallback

def mergeEntry (nativeRunStopped : Bool) (entry : DownloadEntry)
    (p : Option DownloadProgress) : DownloadEntry :=
  -- Late engine progress cannot revive an item requeued by native stop.
  if nativeRunStopped = true ∧ entry.status = .queued then entry
  else if entry.status.terminal = true then entry
  else match p with
    | none => entry
    | some p =>
      entry.copyWith
        { status := some (mapStatus p.status entry.status)
          progress := some p.progress
          bytesReceived := some p.bytesReceived
          totalBytes :=
            if p.progress > 0 ∧ p.bytesReceived > 0 then
              some (round (p.bytesReceived / p.progress))
            else entry.totalBytes }

@[simp] theorem mergeEntry_itemId (stopped : Bool) (entry : DownloadEntry)
    (p : Option DownloadProgress) : (mergeEntry stopped entry p).itemId = entry.itemId := by
  unfold mergeEntry
  split
  · rfl
  split
  · rfl
  cases p with
  | none => rfl
  | some p => exact entry.copyWith_itemId _

namespace Controller

def isProcessing (c : Controller) : Bool :=
  match c.processor with
  | .idle => false
  | _ => true

/-- `state.any((e) => e.itemId == itemId)`. -/
def has (c : Controller) (itemId : String) : Bool :=
  c.entries.any (·.itemId = itemId)

def setStatus (c : Controller) (itemId : String) (status : EntryStatus)
    (details : StatusDetails := {}) : Controller :=
  { c with
    entries := c.entries.map fun entry =>
      if entry.itemId = itemId then details.apply status entry else entry }

/-- `_processQueue` up to its first await. -/
def processQueue (c : Controller) : Controller :=
  if c.isProcessing || c.manualPaused then c
  else
    match c.entries.filter (·.status = .queued) with
    | [] => c
    | queued => { c with processor := .hydrating queued, nativeRunStopped := false }

/-- The `finally` block of `_processQueue`. -/
def finishProcessing (c : Controller) (continueProcessing : Bool) : Controller :=
  let c := { c with processor := .idle }
  if continueProcessing then
    let next := c.processQueue
    if next.isProcessing then { next with reentries := next.reentries + 1 } else next
  else c

/-- `_handleRateLimited` up to its delay, for an item that still has its retry:
the item id is marked and the entry shown as retrying. -/
def beginRateLimitRetry (c : Controller) (itemId errorMsg : String) : Controller :=
  { c with rateLimitRetriedItemIds := itemId :: c.rateLimitRetriedItemIds }.setStatus
    itemId .downloading
    { error := some ("Rate limited · retrying after " ++
        toString (rateLimitBackoffDelay errorMsg) ++ "s") }

/-- When the delay of `_handleRateLimited` ends. -/
def rateLimitDeadline (c : Controller) (errorMsg : String) : Nat :=
  c.now + 1000 * rateLimitBackoffDelay errorMsg

/-- `_handleRateLimited` behind its delay. -/
def endRateLimitRetry (c : Controller) (itemId : String) : Controller :=
  if c.has itemId then (c.setStatus itemId .queued).processQueue else c

/-- The unawaited `_handleRateLimited` of `_mergeNativeSnapshot`. -/
def scheduleRateLimitRetry (c : Controller) (e : DownloadEntry) : Controller :=
  if e.status = .failed ∧ isRateLimitError e.error = true ∧
      e.itemId ∉ c.rateLimitRetriedItemIds then
    let errorMsg := e.error.getD ""
    let next := c.beginRateLimitRetry e.itemId errorMsg
    { next with timers := ⟨e.itemId, c.rateLimitDeadline errorMsg⟩ :: next.timers }
  else c

/-- The pause flags of `_mergeNativeSnapshot`: a local pause or resume stands
until the service reports it. -/
def acknowledgePause (c : Controller) (snapshot : NativeWorkerSnapshot) : Controller :=
  let nativeManualPause := decide (snapshot.pauseReason = some .paused)
  let c :=
    if c.pendingPause = some nativeManualPause then { c with pendingPause := none } else c
  if c.pendingPause = none then { c with manualPaused := nativeManualPause } else c

/-- The entries of `_mergeNativeSnapshot`. -/
def mergeItems (c : Controller) (snapshot : NativeWorkerSnapshot)
    (ids : List String) : Controller :=
  { c with
    entries := c.entries.map fun entry =>
      if entry.itemId ∈ ids then
        applyNativeItemState entry (snapshotItem snapshot entry)
      else entry }

def mergeNativeSnapshot (c : Controller) (snapshot : NativeWorkerSnapshot)
    (ids : List String) : Controller :=
  let c := c.acknowledgePause snapshot
  if snapshot.items.any (·.itemId ∈ ids) then
    let c := c.mergeItems snapshot ids
    c.entries.foldl scheduleRateLimitRetry c
  else c

/-- `_merge`: the last item of an id wins, as in the source's map literal. -/
def merge (c : Controller) (items : List DownloadProgress) : Controller :=
  { c with
    entries := c.entries.map fun entry =>
      mergeEntry c.nativeRunStopped entry
        (items.reverse.find? (·.itemId = entry.itemId)) }

def removeLocal (c : Controller) (itemId : String) : Controller :=
  { c with entries := c.entries.filter (·.itemId ≠ itemId) }

/-- `enqueue` under the item id its timestamp gives. -/
def enqueue (c : Controller) (itemId : String) (track : Track)
    (service quality : Option String) : Controller :=
  { c with
    entries := { track, itemId, status := .queued, service, quality } :: c.entries
    issuedIds := itemId :: c.issuedIds }.processQueue

/-- `_runDartFallback` is suspended at `point`. -/
def suspend (c : Controller) (current : DownloadEntry) (point : FallbackPoint)
    (remaining : List DownloadEntry) : Controller :=
  { c with processor := .fallback current point remaining }

/-- `_runDartFallback` of an entry that still needs it, up to its first await. -/
def beginFallback (c : Controller) (next : DownloadEntry)
    (remaining : List DownloadEntry) : Controller :=
  let c :=
    { c with handedOver := c.handedOver ++ [next.itemId] }.setStatus
      next.itemId .downloading
  if c.manualPaused || c.wifiOnly then
    (c.setStatus next.itemId .queued).suspend next .admission remaining
  else c.suspend next .directory remaining

/-- The fallback loop of `_runNativeBatch`: `_runDartFallback` of the first entry
that is neither removed nor terminal, or the end of `_processQueue`. -/
def startFallbacks (c : Controller) : List DownloadEntry → Controller
  | [] => c.finishProcessing true
  | next :: remaining =>
    if c.entries.any fun e => e.itemId = next.itemId ∧ e.status.terminal = false then
      c.beginFallback next remaining
    else c.startFallbacks remaining

end Controller

end LosslessMusic.Queue
