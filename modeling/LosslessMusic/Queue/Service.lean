import LosslessMusic.Queue.Controller

/-!
# The native download service

`DownloadForegroundService` with its run, its snapshot file and the blocks of
`processItem`, in the order of their suspension points. A stop cancels the
blocks of the run but leaves their blocking engine calls alone, so a stopped
block stays in the state until its call returns.

The gate is modelled by its slots and pause flags; its provider permits only
delay an admission.
-/

namespace LosslessMusic.Queue

namespace NativeWorkerItemState

def requeueOnStop (item : NativeWorkerItemState) : NativeWorkerItemState :=
  if item.status ≠ .downloading ∧ item.status ≠ .finalizing then item
  else
    { item with
      status := .queued
      progress := 0
      bytesReceived := 0
      bytesTotal := 0
      error := none }

@[simp] theorem requeueOnStop_itemId (item : NativeWorkerItemState) :
    item.requeueOnStop.itemId = item.itemId := by
  unfold requeueOnStop
  split <;> rfl

theorem requeueOnStop_not_active (item : NativeWorkerItemState) :
    item.requeueOnStop.status.active = false := by
  unfold requeueOnStop
  cases status : item.status <;> simp [status]

/-- An item as it is read back from the snapshot file, which omits a
`retry_after_seconds` that is not positive. -/
def published (item : NativeWorkerItemState) : NativeWorkerItemState :=
  { item with
    retryAfterSeconds :=
      if item.retryAfterSeconds > 0 then item.retryAfterSeconds else 0 }

@[simp] theorem published_itemId (item : NativeWorkerItemState) :
    item.published.itemId = item.itemId := rfl

@[simp] theorem published_status (item : NativeWorkerItemState) :
    item.published.status = item.status := rfl

end NativeWorkerItemState

/-- What `Engines.current.downloadByStrategy` does in a block: a result, of
which an unreadable one is read as the empty object, or an exception. -/
inductive NativeCallOutcome
  | returned (result : DownloadResult)
  | threw (message : Option String)
  deriving DecidableEq, Repr

/-- What the post-processing of a delivered file does in a block. -/
inductive PostProcessOutcome
  | processed (filePath : String)
  | threw (message : Option String)
  deriving DecidableEq, Repr

/-- `processItem` as far as the engine's answer: the item state it leaves, and
whether post-processing follows. -/
def settleCall (item : NativeWorkerItemState) : NativeCallOutcome → NativeWorkerItemState
  | .threw message =>
    { item with status := .failed, error := some (message.getD "download failed") }
  | .returned result =>
    if result.success ≠ some true then
      { item with
        status := .failed
        error := some (result.error.getD "unknown")
        retryAfterSeconds := result.retryAfterSeconds.getD 0
        service := result.service.filter (· ≠ "") }
    else
      { item with
        status := .finalizing
        resolvedService := result.service.filter (· ≠ "") }

/-- `processItem` behind the post-processing. -/
def settlePostProcess (item : NativeWorkerItemState) : PostProcessOutcome → NativeWorkerItemState
  | .processed filePath =>
    { item with status := .done, progress := 1, filePath := some filePath }
  | .threw message => { item with status := .failed, error := message }

/-- `processItem` for a duplicate. -/
def settleDuplicate (item : NativeWorkerItemState) : NativeWorkerItemState :=
  { item with status := .done, progress := 1 }

/-- Where the block of an item is. -/
inductive BlockPoint
  /-- In the duplicate check. -/
  | preflight
  /-- Behind the check for a stop, before the engine call. -/
  | checked
  /-- In `downloadByStrategy`. -/
  | calling
  /-- In the output post-processing. -/
  | postProcessing
  deriving DecidableEq, Repr

/-- A running `processItem`; `active` is false once its run was stopped. -/
structure Block where
  itemId : String
  point : BlockPoint
  active : Bool
  deriving DecidableEq, Repr

/-- `DownloadForegroundService`. -/
structure Service where
  currentRunId : Nat := 0
  workerItems : List NativeWorkerItemState := []
  workerStopped : Bool := true
  /-- `workerJob?.isActive`. -/
  jobActive : Bool := false
  /-- The run has published its end; `stopForegroundService` follows. -/
  ending : Bool := false
  concurrency : Nat := 1
  manualPaused : Bool := false
  networkPaused : Bool := false
  wifiOnly : Bool := false
  /-- Requests of the running worker that were not admitted yet. -/
  pending : List String := []
  blocks : List Block := []
  /-- The snapshot file. -/
  snapshot : Option NativeWorkerSnapshot := none
  deriving Repr

/-- What happens to the service. Blocks are named by their position. -/
inductive ServiceEvent
  | deliver (networkAllowed : Bool)
  | stop
  | network (allowed : Bool)
  | withSlot (itemId : String)
  | preflightReturned (index : Nat) (duplicate : Bool)
  | callStarted (index : Nat)
  | progressed (index : Nat) (bytesReceived bytesTotal : Int)
  | callReturned (index : Nat) (outcome : NativeCallOutcome)
  | postProcessed (index : Nat) (outcome : PostProcessOutcome)
  | runEnded
  | runStopped
  deriving Repr

namespace Service

def pauseReason (s : Service) : Option PauseReason :=
  if s.manualPaused then some .paused
  else if s.networkPaused then some .waitingWifi
  else none

/-- `writeSnapshot`, as the file is read back. -/
def writeSnapshot (s : Service) (isRunning : Bool) : Service :=
  if isRunning && s.workerStopped then s
  else
    { s with
      snapshot := some
        { runId := s.currentRunId
          isRunning
          pauseReason := s.pauseReason
          items := s.workerItems.map NativeWorkerItemState.published } }

/-- Apply an update to the first item of an id. -/
def updateFirst (itemId : String) (update : NativeWorkerItemState → NativeWorkerItemState) :
    List NativeWorkerItemState → List NativeWorkerItemState
  | [] => []
  | item :: rest =>
    if item.itemId = itemId then update item :: rest
    else item :: updateFirst itemId update rest

def updateItem (s : Service) (itemId : String)
    (update : NativeWorkerItemState → NativeWorkerItemState) : Service :=
  if s.workerStopped then s
  else { s with workerItems := updateFirst itemId update s.workerItems }

def stopForegroundService (s : Service) : Service :=
  let s :=
    if s.workerStopped then s
    else
      { s with
        workerStopped := true
        workerItems := s.workerItems.map NativeWorkerItemState.requeueOnStop }.writeSnapshot
          false
  { s with
    jobActive := false
    ending := false
    pending := []
    blocks := s.blocks.map fun block => { block with active := false } }

/-- `gate.setNetwork` under the Wi-Fi setting. -/
def setNetwork (s : Service) (allowed : Bool) : Service :=
  { s with networkPaused := s.wifiOnly && !allowed }

/-- `startQueueInternal`: refused while the worker job is active. -/
def startQueueInternal (s : Service) (runId : Nat) (requests : List String)
    (settings : RunSettings) (networkAllowed : Bool) : Service :=
  if requests.isEmpty || s.jobActive then s
  else
    ({ s with
        currentRunId := runId
        concurrency := (min (max settings.concurrentDownloads 1) 3).toNat
        manualPaused := settings.isPaused
        wifiOnly := settings.wifiOnly
        workerStopped := false
        workerItems := requests.map fun itemId => { itemId }
        jobActive := true
        ending := false
        pending := requests }.setNetwork networkAllowed).writeSnapshot true

/-- `onStartCommand` for pause and resume, with `refreshQueueState`. -/
def setPaused (s : Service) (paused : Bool) : Service :=
  if !s.jobActive then s
  else { s with manualPaused := paused }.writeSnapshot true

def onStartCommand (s : Service) (networkAllowed : Bool) : ServiceIntent → Service
  | .startQueue runId requests settings =>
    s.startQueueInternal runId requests settings networkAllowed
  | .setPaused paused => s.setPaused paused

/-- Blocks of the current run. -/
def activeBlocks (s : Service) : List Block :=
  s.blocks.filter Block.active

/-- The slot of an ended block is free again. -/
def dropBlock (s : Service) (index : Nat) : Service :=
  { s with blocks := s.blocks.eraseIdx index }

/-- A block goes on to its next suspension point. -/
def moveBlock (s : Service) (index : Nat) (block : Block) (point : BlockPoint) :
    Service :=
  { s with blocks := s.blocks.set index { block with point } }

/-- An item is admitted and `processItem` runs up to the duplicate check. -/
def withSlot (s : Service) (itemId : String) : Option Service :=
  if s.jobActive && !s.ending && s.pauseReason.isNone &&
      s.pending.contains itemId && s.activeBlocks.length < s.concurrency then
    some (({ s with
        pending := s.pending.erase itemId
        blocks := ⟨itemId, .preflight, true⟩ :: s.blocks }.updateItem itemId
          fun item => { item with status := .downloading }).writeSnapshot true)
  else none

/-- The block at `index`, when it is suspended at `point`. -/
def blockAt (s : Service) (index : Nat) (point : BlockPoint) : Option Block :=
  s.blocks[index]?.filter (·.point = point)

/-- A block publishes a settled item. -/
def settle (s : Service) (itemId : String)
    (update : NativeWorkerItemState → NativeWorkerItemState) : Service :=
  (s.updateItem itemId update).writeSnapshot true

/-- `processItem` behind the duplicate check. -/
def onPreflight (s : Service) (index : Nat) (block : Block) (duplicate : Bool) :
    Service :=
  if !block.active then s.dropBlock index
  else if duplicate then (s.settle block.itemId settleDuplicate).dropBlock index
  else s.moveBlock index block .checked

/-- `pollProgress`. -/
def onProgressed (s : Service) (block : Block) (bytesReceived bytesTotal : Int) :
    Service :=
  s.settle block.itemId fun item =>
    { item with
      progress := if bytesTotal > 0 then bytesReceived / bytesTotal else 0
      bytesReceived
      bytesTotal }

/-- `processItem` behind the engine call. -/
def onCallReturned (s : Service) (index : Nat) (block : Block)
    (outcome : NativeCallOutcome) : Service :=
  if !block.active then s.dropBlock index
  else
    let s := s.settle block.itemId (settleCall · outcome)
    match outcome with
    | .returned { success := some true, .. } => s.moveBlock index block .postProcessing
    | _ => s.dropBlock index

/-- `processItem` behind the post-processing. -/
def onPostProcessed (s : Service) (index : Nat) (block : Block)
    (outcome : PostProcessOutcome) : Service :=
  if !block.active then s.dropBlock index
  else (s.settle block.itemId (settlePostProcess · outcome)).dropBlock index

/-- One event of the service; the delivery of an intent is a step of the whole
system. -/
def step (s : Service) : ServiceEvent → Option Service
  | .deliver _ => none
  | .stop => some s.stopForegroundService
  | .network allowed => some ((s.setNetwork allowed).writeSnapshot true)
  | .withSlot itemId => s.withSlot itemId
  | .preflightReturned index duplicate =>
    (s.blockAt index .preflight).map (s.onPreflight index · duplicate)
  | .callStarted index =>
    (s.blockAt index .checked).map (s.moveBlock index · .calling)
  | .progressed index bytesReceived bytesTotal =>
    (s.blockAt index .calling).bind fun block =>
      if block.active then some (s.onProgressed block bytesReceived bytesTotal)
      else none
  | .callReturned index outcome =>
    (s.blockAt index .calling).map (s.onCallReturned index · outcome)
  | .postProcessed index outcome =>
    (s.blockAt index .postProcessing).map (s.onPostProcessed index · outcome)
  | .runEnded =>
    -- `gate.runAll` returns once every request was admitted and every block ended.
    if s.jobActive && !s.ending && s.pending.isEmpty && s.activeBlocks.isEmpty then
      some ({ s with ending := true }.writeSnapshot false)
    else none
  | .runStopped => if s.ending then some s.stopForegroundService else none

end Service

end LosslessMusic.Queue
