import LosslessMusic.Queue.Updates

/-!
# What one step can do

Inversion of the controller's and the system's step. Each constructor names the
update an event leads to and what is known of the state before it, so that an
invariant is checked once for each way the queue can move.
-/

namespace LosslessMusic.Queue

namespace QueueEvent

/-- A call that `_processQueue` awaits before any item is handed over throws. -/
def failsEarly : QueueEvent → Bool
  | .hydrated ok | .requestBuilt ok | .startReturned ok | .pauseReturned ok => !ok
  | _ => false

/-- A Dart fallback is told of a failure. -/
def fallbackFails : QueueEvent → Bool
  | .directoryResolved (some _) => true
  | .transferReturned (.threw _) => true
  | .transferReturned (.returned res) =>
    res.failed && (existingLibraryPath res.error).isNone
  | .finished (.threw _) => true
  | _ => false

end QueueEvent

variable {event : QueueEvent}

namespace Controller

/-- The ways an event changes the controller. -/
inductive Handled (c : Controller) : QueueEvent → Controller → Prop
  | unchanged (event : QueueEvent) : Handled c event c
  | flags (event : QueueEvent) (manualPaused : Bool) (pendingPause : Option Bool)
      (pendingResumes : Nat) (wifiOnly : Bool) (simultaneousDownloads : Int)
      (intents : List ServiceIntent)
      (pauses : ∀ intent ∈ intents, ∃ paused, intent = .setPaused paused) :
      Handled c event
        { c with
          manualPaused
          pendingPause
          pendingResumes
          wifiOnly
          simultaneousDownloads
          outbox := c.outbox ++ intents }
  | enqueued (itemId : String) (track : Track) (service quality : Option String)
      (fresh : itemId ∉ c.issuedIds) :
      Handled c (.enqueue itemId track service quality) (c.enqueue itemId track service quality)
  | replaced (itemId newItemId : String) (track : Track)
      (service quality : Option String) (fresh : newItemId ∉ c.issuedIds) :
      Handled c (.retry itemId newItemId)
        ((c.removeLocal itemId).enqueue newItemId track service quality)
  | removed (itemId : String) : Handled c (.remove itemId) (c.removeLocal itemId)
  | kicked (event : QueueEvent) (pendingResumes : Nat) :
      Handled c event { c with pendingResumes }.processQueue
  | progressed (items : List DownloadProgress) :
      Handled c (.progress items) (c.merge items)
  | timerFired (itemId : String) (timer : RateLimitTimer)
      (pending : timer ∈ c.timers) (named : timer.itemId = itemId) :
      Handled c (.rateLimitElapsed itemId)
        ({ c with timers := c.timers.erase timer }.endRateLimitRetry itemId)
  | threw (event : QueueEvent) (early : event.failsEarly = true)
      (handing : c.processor.handsOver = true) :
      Handled c event (c.finishProcessing true)
  | pausedAtStart (queued : List DownloadEntry)
      (suspended : c.processor = .hydrating queued) (paused : c.manualPaused = true) :
      Handled c (.hydrated true) (c.finishProcessing true)
  | buildRequests (queued : List DownloadEntry)
      (suspended : c.processor = .hydrating queued)
      (available : c.workerAvailable = true) :
      Handled c (.hydrated true) { c with processor := .building queued queued }
  | withoutWorker (queued : List DownloadEntry)
      (suspended : c.processor = .hydrating queued)
      (unpaused : c.manualPaused = false) (unavailable : c.workerAvailable = false) :
      Handled c (.hydrated true) (c.startFallbacks (queued.take 1))
  | requestBuilt (queued remaining rest : List DownloadEntry)
      (suspended : c.processor = .building queued remaining) :
      Handled c (.requestBuilt true) { c with processor := .building queued rest }
  | requestsBuilt (queued remaining : List DownloadEntry)
      (suspended : c.processor = .building queued remaining) :
      Handled c (.requestBuilt true)
        { c with
          processor := .starting ⟨queued, c.nextRunId⟩
            ⟨c.simultaneousDownloads, c.wifiOnly, c.manualPaused⟩
          nextRunId := c.nextRunId + 1 }
  | started (batch : Batch) (settings : RunSettings)
      (suspended : c.processor = .starting batch settings) :
      Handled c (.startReturned true) (c.onStarted batch settings)
  | pauseForwarded (batch : Batch) (suspended : c.processor = .pausing batch) :
      Handled c (.pauseReturned true) (c.startPolling batch)
  | gaveUp (batch : Batch) (startedAt : Nat) (started : Bool) (lastSeenAt : Nat)
      (snapshot : Option NativeWorkerSnapshot)
      (suspended : c.processor = .polling batch startedAt started lastSeenAt)
      (unseen : ∀ seen, snapshot = some seen → seen.runId ≠ batch.runId)
      (stalled : c.now - (if started then lastSeenAt else startedAt) > stallLimit) :
      Handled c (.polled snapshot) (c.giveUp batch)
  | merged (batch : Batch) (startedAt : Nat) (started : Bool) (lastSeenAt : Nat)
      (snapshot : NativeWorkerSnapshot)
      (suspended : c.processor = .polling batch startedAt started lastSeenAt)
      (sameRun : snapshot.runId = batch.runId) :
      Handled c (.polled (some snapshot)) (c.pollMerged batch startedAt snapshot)
  | admissionDropped (networkAllowed : Bool) (next : DownloadEntry)
      (remaining : List DownloadEntry)
      (suspended : c.processor = .fallback next .admission remaining)
      (gone : c.has next.itemId = false) :
      Handled c (.admission networkAllowed) (c.startFallbacks remaining)
  | admitted (networkAllowed : Bool) (next : DownloadEntry)
      (remaining : List DownloadEntry)
      (suspended : c.processor = .fallback next .admission remaining)
      (allowed : (!c.manualPaused && (!c.wifiOnly || networkAllowed)) = true) :
      Handled c (.admission networkAllowed)
        ((c.setStatus next.itemId .downloading).suspend next .directory remaining)
  | fallbackMoved (event : QueueEvent) (next : DownloadEntry)
      (point movedTo : FallbackPoint) (remaining : List DownloadEntry)
      (suspended : c.processor = .fallback next point remaining)
      (running : ∀ deadline, point ≠ .rateLimited deadline)
      (moves : ∀ deadline, movedTo ≠ .rateLimited deadline) :
      Handled c event (c.suspend next movedTo remaining)
  | fallbackSettled (event : QueueEvent) (next : DownloadEntry)
      (point : FallbackPoint) (remaining : List DownloadEntry)
      (status : EntryStatus) (details : StatusDetails)
      (suspended : c.processor = .fallback next point remaining)
      (running : ∀ deadline, point ≠ .rateLimited deadline)
      (outcome : status = .done ∨ (status = .failed ∧ event.fallbackFails = true)) :
      Handled c event ((c.setStatus next.itemId status details).startFallbacks remaining)
  | fallbackLimited (event : QueueEvent) (next : DownloadEntry)
      (remaining : List DownloadEntry) (errorMsg : String)
      (suspended : c.processor = .fallback next .transfer remaining)
      (failing : event.fallbackFails = true)
      (unspent : next.itemId ∉ c.rateLimitRetriedItemIds) :
      Handled c event ((c.beginRateLimitRetry next.itemId errorMsg).suspend next
          (.rateLimited (c.rateLimitDeadline errorMsg)) remaining)
  | backedOff (next : DownloadEntry) (deadline : Nat)
      (remaining : List DownloadEntry)
      (suspended : c.processor = .fallback next (.rateLimited deadline) remaining) :
      Handled c .backoffElapsed ((c.endRateLimitRetry next.itemId).startFallbacks remaining)

variable {c next : Controller}

theorem handled_of_polled {batch : Batch} {startedAt : Nat} {started : Bool}
    {lastSeenAt : Nat} (snapshot : Option NativeWorkerSnapshot)
    (suspended : c.processor = .polling batch startedAt started lastSeenAt) :
    Handled c (.polled snapshot) (c.onPolled batch startedAt started lastSeenAt snapshot) := by
  have missed (unseen : ∀ seen, snapshot = some seen → seen.runId ≠ batch.runId) :
      Handled c (.polled snapshot) (c.pollMissed batch startedAt started lastSeenAt) := by
    simp only [pollMissed]
    by_cases stalled : c.now - (if started then lastSeenAt else startedAt) > stallLimit
    · rw [if_pos stalled]
      exact .gaveUp batch startedAt started lastSeenAt snapshot suspended unseen stalled
    · rw [if_neg stalled]
      exact .unchanged _
  cases snapshot with
  | none => exact missed (by simp)
  | some seen =>
    simp only [onPolled]
    split
    next sameRun => exact .merged batch startedAt started lastSeenAt seen suspended sameRun
    next otherRun =>
      refine missed fun other equal => ?_
      cases equal
      exact otherRun

theorem handled_of_transfer {entry : DownloadEntry} {remaining : List DownloadEntry}
    (outcome : TransferOutcome) (suspended : c.processor = .fallback entry .transfer remaining) :
    Handled c (.transferReturned outcome) (c.onTransfer entry remaining outcome) := by
  cases outcome with
  | threw message =>
    exact .fallbackSettled _ entry .transfer remaining .failed _ suspended
      (by simp) (.inr ⟨rfl, rfl⟩)
  | returned res =>
    simp only [onTransfer]
    split
    · exact .fallbackSettled _ entry .transfer remaining .done _ suspended (by simp) (.inl rfl)
    next absent =>
      split
      · exact .fallbackMoved _ entry .transfer (.finishing res) remaining suspended
          (by simp) (by simp)
      next unsuccessful =>
        have failed : res.failed = true := by simpa using unsuccessful
        have failing : (QueueEvent.transferReturned (.returned res)).fallbackFails = true := by
          simp only [failed, if_true] at absent
          simp [QueueEvent.fallbackFails, failed, absent]
        split
        next limited =>
          exact .fallbackLimited _ entry remaining _ suspended failing limited.2
        next =>
          exact .fallbackSettled _ entry .transfer remaining .failed _ suspended
            (by simp) (.inr ⟨rfl, failing⟩)

/-- Pausing and resuming change flags and may send an intent. -/
theorem handled_of_forward (event : QueueEvent) (manualPaused : Bool)
    (pendingPause : Option Bool) (pendingResumes : Nat) (paused : Bool) :
    Handled c event
      ({ c with manualPaused, pendingPause, pendingResumes }.forwardPause paused) := by
  unfold forwardPause
  split
  · exact Handled.flags (c := c) event manualPaused pendingPause pendingResumes c.wifiOnly
      c.simultaneousDownloads [.setPaused paused] (by simp)
  · simpa using Handled.flags (c := c) event manualPaused pendingPause pendingResumes
      c.wifiOnly c.simultaneousDownloads [] (by simp)

theorem handled_of_resumeProcessor
    (resumed : c.resumeProcessor event = some next) : Handled c event next := by
  unfold resumeProcessor at resumed
  split at resumed
  next queued ok suspended =>
    cases resumed
    cases ok with
    | false => exact .threw _ rfl (by simp [suspended, Processor.handsOver])
    | true =>
      simp only [if_true, onHydrated]
      split
      next paused => exact .pausedAtStart queued suspended paused
      next unpaused =>
        split
        next available => exact .buildRequests queued suspended available
        next unavailable =>
          exact .withoutWorker queued suspended (by simpa using unpaused)
            (by simpa using unavailable)
  next queued remaining ok suspended =>
    cases resumed
    cases ok with
    | false => exact .threw _ rfl (by simp [suspended, Processor.handsOver])
    | true =>
      simp only [if_true, onRequestBuilt]
      split
      · exact .requestsBuilt queued _ suspended
      · exact .requestsBuilt queued _ suspended
      · exact .requestBuilt queued _ _ suspended
  next batch settings ok suspended =>
    cases resumed
    cases ok with
    | false => exact .threw _ rfl (by simp [suspended, Processor.handsOver])
    | true => exact .started batch settings suspended
  next batch ok suspended =>
    cases resumed
    cases ok with
    | false => exact .threw _ rfl (by simp [suspended, Processor.handsOver])
    | true => exact .pauseForwarded batch suspended
  next batch startedAt started lastSeenAt snapshot suspended =>
    cases resumed
    exact handled_of_polled snapshot suspended
  next entry remaining networkAllowed suspended =>
    cases resumed
    simp only [onAdmission]
    split
    next gone =>
      exact .admissionDropped networkAllowed entry remaining suspended (by simpa using gone)
    split
    next allowed => exact .admitted networkAllowed entry remaining suspended allowed
    next => exact .unchanged _
  next entry remaining error suspended =>
    cases resumed
    cases error with
    | some error =>
      exact .fallbackSettled _ entry .directory remaining .failed _ suspended
        (by simp) (.inr ⟨rfl, rfl⟩)
    | none =>
      simp only [onDirectory]
      split
      · exact .fallbackMoved _ entry .directory .duplicate remaining suspended (by simp) (by simp)
      · exact .fallbackMoved _ entry .directory .transfer remaining suspended (by simp) (by simp)
  next entry remaining answer suspended =>
    cases resumed
    unfold onDuplicate
    split
    · exact .fallbackSettled _ entry .duplicate remaining .done _ suspended (by simp) (.inl rfl)
    · exact .fallbackMoved _ entry .duplicate .transfer remaining suspended (by simp) (by simp)
    · exact .fallbackMoved _ entry .duplicate .transfer remaining suspended (by simp) (by simp)
  next entry remaining outcome suspended =>
    cases resumed
    exact handled_of_transfer outcome suspended
  next entry res remaining outcome suspended =>
    cases resumed
    cases outcome with
    | threw message =>
      exact .fallbackSettled _ entry _ remaining .failed _ suspended (by simp) (.inr ⟨rfl, rfl⟩)
    | finished flacPath =>
      exact .fallbackSettled _ entry _ remaining .done _ suspended (by simp) (.inl rfl)
  next entry deadline remaining suspended =>
    split at resumed
    · cases resumed
      exact .backedOff entry deadline remaining suspended
    · cases resumed
  next => cases resumed

theorem handle_failsEarly (early : event.failsEarly = true)
    (answered : c.handle event = some next) : next = c.finishProcessing true := by
  have ended {event : QueueEvent} (early : event.failsEarly = true)
      (resumed : c.resumeProcessor event = some next) : next = c.finishProcessing true := by
    unfold resumeProcessor at resumed
    split at resumed
    case h_1 | h_2 | h_3 | h_4 =>
      simp only [QueueEvent.failsEarly, Bool.not_eq_true'] at early
      simpa [early] using resumed.symm
    case h_12 => cases resumed
    all_goals cases early
  cases event with
  | hydrated | requestBuilt | startReturned | pauseReturned => exact ended early answered
  | _ => cases early

theorem handled_of_handle (answered : c.handle event = some next) : Handled c event next:= by
  unfold handle at answered
  split at answered
  next itemId track service quality =>
    split at answered
    · cases answered
    next fresh =>
      cases answered
      exact .enqueued itemId track service quality fresh
  next itemId newItemId =>
    split at answered
    · cases answered
    next fresh =>
      split at answered
      · cases answered
        exact .unchanged _
      next entry _ =>
        cases answered
        exact .replaced itemId newItemId entry.track entry.service entry.quality fresh
  next itemId =>
    cases answered
    exact .removed itemId
  next =>
    cases answered
    exact handled_of_forward _ _ _ _ true
  next =>
    cases answered
    exact handled_of_forward _ _ _ _ false
  next ok =>
    split at answered
    · cases answered
    · cases answered
      cases ok with
      | true => exact .kicked _ _
      | false =>
        simpa using Handled.flags (c := c) (.resumeReturned false) c.manualPaused
          c.pendingPause (c.pendingResumes - 1) c.wifiOnly c.simultaneousDownloads
          [] (by simp)
  next =>
    cases answered
    exact .kicked _ c.pendingResumes
  next wifiOnly =>
    cases answered
    simpa using Handled.flags (c := c) (.setWifiOnly wifiOnly) c.manualPaused
      c.pendingPause c.pendingResumes wifiOnly c.simultaneousDownloads [] (by simp)
  next simultaneousDownloads =>
    cases answered
    simpa using Handled.flags (c := c) (.setSimultaneousDownloads simultaneousDownloads)
      c.manualPaused c.pendingPause c.pendingResumes c.wifiOnly simultaneousDownloads
      [] (by simp)
  next items =>
    cases answered
    exact .progressed items
  next itemId =>
    simp only [onRateLimitElapsed] at answered
    split at answered
    · cases answered
    next timer found =>
      cases answered
      have member := List.mem_of_find?_eq_some found
      have named := List.find?_some found
      simp only [decide_eq_true_eq] at named
      exact .timerFired itemId timer member named.1
  next => exact handled_of_resumeProcessor answered

end Controller

namespace System

/-- The ways one step changes the system: at most one party moves, except that a
delivery takes an intent from the one to the other. -/
inductive Stepped (s : System) : SystemEvent → System → Prop
  | queue (time : Nat) (event : QueueEvent) (controller : Controller)
      (admitted : admits event = true)
      (handled : Controller.Handled { s.controller with now := time } event controller) :
      Stepped s (.queue time event) { s with controller }
  | poll (time : Nat) (readable : Bool) (controller : Controller)
      (handled : Controller.Handled { s.controller with now := time }
        (.polled (if readable then s.service.snapshot else none)) controller) :
      Stepped s (.poll time readable) { s with controller }
  | deliver (networkAllowed : Bool) (intent : ServiceIntent)
      (outbox : List ServiceIntent) (sent : s.controller.outbox = intent :: outbox) :
      Stepped s (.service (.deliver networkAllowed))
        { controller := { s.controller with outbox }
          service := s.service.onStartCommand networkAllowed intent }
  | service (event : ServiceEvent) (service : Service)
      (stepped : s.service.step event = some service) :
      Stepped s (.service event) { s with service }

variable {s next : System}

/-- Time does not run backwards, and the event is handled at its time. -/
theorem handled_of_controller_step {c controller : Controller} {time : Nat}
    (stepped : c.step time event = some controller) :
    Controller.Handled { c with now := time } event controller := by
  unfold Controller.step at stepped
  split at stepped
  · cases stepped
  · exact Controller.handled_of_handle stepped

theorem mapStatus_engine {raw : String} (engine : engineStatuses.contains raw = true)
    (fallback : EntryStatus) :
    mapStatus raw fallback = fallback ∨ (mapStatus raw fallback).active = true ∨
      mapStatus raw fallback = .done := by
  simp only [engineStatuses, List.contains_eq_mem, List.mem_cons, List.not_mem_nil,
    or_false, decide_eq_true_eq] at engine
  rcases engine with rfl | rfl | rfl | rfl
  · left
    cases fallback <;> decide
  · right; left
    cases fallback <;> decide
  · right; left
    cases fallback <;> decide
  · right; right
    cases fallback <;> decide

/-- An entry after the engine's progress: untouched, of the same status, active or
done. -/
theorem mergeEntry_engine {items : List DownloadProgress}
    (admitted : admits (.progress items) = true) (stopped : Bool) (e : DownloadEntry) :
    let p := items.reverse.find? (·.itemId = e.itemId)
    (mergeEntry stopped e p).status = e.status ∨
      (e.status.terminal = false ∧ ¬(stopped = true ∧ e.status = .queued) ∧
        ((mergeEntry stopped e p).status.active = true ∨
          (mergeEntry stopped e p).status = .done)) := by
  simp only [mergeEntry]
  split
  · exact .inl rfl
  next unguarded =>
    split
    · exact .inl rfl
    next nonterminal =>
      cases found : items.reverse.find? (·.itemId = e.itemId) with
      | none => exact .inl rfl
      | some p =>
        have member : p ∈ items := List.mem_reverse.mp (List.mem_of_find?_eq_some found)
        have engine := List.all_eq_true.mp admitted p member
        rcases mapStatus_engine engine e.status with kept | moved
        · left
          simpa using kept
        · right
          refine ⟨by simpa using nonterminal, unguarded, ?_⟩
          simp only [DownloadEntry.copyWith_status, Option.getD_some]
          exact moved

theorem stepped_of_step {event : SystemEvent}
    (stepped : machine.step s event = some next) : Stepped s event next := by
  change s.step event = some next at stepped
  unfold step at stepped
  split at stepped
  next time event =>
    split at stepped
    next admitted =>
      obtain ⟨controller, moved, rfl⟩ := Option.map_eq_some_iff.mp stepped
      exact .queue time event controller admitted (handled_of_controller_step moved)
    next => cases stepped
  next time readable =>
    obtain ⟨controller, moved, rfl⟩ := Option.map_eq_some_iff.mp stepped
    exact .poll time readable controller (handled_of_controller_step moved)
  next networkAllowed =>
    split at stepped
    · cases stepped
    next intent outbox sent =>
      cases stepped
      exact .deliver networkAllowed intent outbox sent
  next event _ =>
    obtain ⟨service, moved, rfl⟩ := Option.map_eq_some_iff.mp stepped
    exact .service event service moved

end System
end LosslessMusic.Queue
