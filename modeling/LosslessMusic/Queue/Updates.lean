import LosslessMusic.Queue.System

/-!
# What the controller's updates change

Each update is described once: which fields it leaves alone, which entries it
yields and where it leaves the processor. The invariants of the queue are read
off these descriptions.
-/

namespace LosslessMusic.Queue

namespace Processor

/-- The entries a suspended `_processQueue` call still works on. -/
def taken : Processor → List DownloadEntry
  | .idle => []
  | .hydrating queued | .building queued _ => queued
  | .starting batch _ | .pausing batch | .polling batch _ _ _ => batch.queued
  | .fallback current _ remaining => current :: remaining

/-- The call has not handed over anything and starts no fallback. -/
def handsOver : Processor → Bool
  | .hydrating _ | .building _ _ | .starting _ _ | .pausing _ => true
  | _ => false

/-- The call works with the native worker. -/
def native : Processor → Bool
  | .building _ _ | .starting _ _ | .pausing _ | .polling _ _ _ _ => true
  | _ => false

/-- The native batch of a suspended `_processQueue` call. -/
def batch : Processor → Option Batch
  | .starting batch _ | .pausing batch | .polling batch _ _ _ => some batch
  | _ => none

theorem native_of_batch {processor : Processor} {current : Batch}
    (batch : processor.batch = some current) : processor.native = true := by
  cases processor <;> simp [Processor.batch, native] at batch ⊢

end Processor

variable {entry : DownloadEntry}

namespace Controller

variable (c : Controller)

/-! ## Single entries -/

section SetStatus

variable (itemId : String) (status : EntryStatus) (details : StatusDetails)

@[simp] theorem setStatus_retried : (c.setStatus itemId status details).rateLimitRetriedItemIds =
      c.rateLimitRetriedItemIds := rfl

@[simp] theorem setStatus_timers : (c.setStatus itemId status details).timers = c.timers := rfl

@[simp] theorem setStatus_processor :
    (c.setStatus itemId status details).processor = c.processor := rfl

@[simp] theorem setStatus_handedOver :
    (c.setStatus itemId status details).handedOver = c.handedOver := rfl

@[simp] theorem setStatus_map_itemId :
    (c.setStatus itemId status details).entries.map DownloadEntry.itemId =
      c.entries.map DownloadEntry.itemId := by
  simp only [setStatus, List.map_map]
  apply List.map_congr_left
  intro entry _
  simp only [Function.comp_apply]
  split <;> rfl

theorem mem_setStatus (member : entry ∈ (c.setStatus itemId status details).entries) :
    (entry ∈ c.entries ∧ entry.itemId ≠ itemId) ∨
      (entry.itemId = itemId ∧ entry.status = status) := by
  simp only [setStatus, List.mem_map] at member
  obtain ⟨old, oldMember, rfl⟩ := member
  by_cases same : old.itemId = itemId
  · right
    simp [same]
  · left
    simp [same, oldMember]

theorem mem_setStatus_of_ne (member : entry ∈ (c.setStatus itemId status details).entries)
    (other : entry.itemId ≠ itemId) : entry ∈ c.entries := by
  rcases c.mem_setStatus itemId status details member with ⟨old, _⟩ | ⟨same, _⟩
  · exact old
  · exact absurd same other

end SetStatus

/-! ## Starting and ending `_processQueue` -/

section ProcessQueue

@[simp] theorem processQueue_entries : c.processQueue.entries = c.entries := by
  unfold processQueue
  split
  · rfl
  split <;> rfl

@[simp] theorem processQueue_retried :
    c.processQueue.rateLimitRetriedItemIds = c.rateLimitRetriedItemIds := by
  unfold processQueue
  split
  · rfl
  split <;> rfl

@[simp] theorem processQueue_timers : c.processQueue.timers = c.timers := by
  unfold processQueue
  split
  · rfl
  split <;> rfl

@[simp] theorem processQueue_handedOver : c.processQueue.handedOver = c.handedOver := by
  unfold processQueue
  split
  · rfl
  split <;> rfl

@[simp] theorem processQueue_issuedIds : c.processQueue.issuedIds = c.issuedIds := by
  unfold processQueue
  split
  · rfl
  split <;> rfl

@[simp] theorem processQueue_outbox : c.processQueue.outbox = c.outbox := by
  unfold processQueue
  split
  · rfl
  split <;> rfl

@[simp] theorem processQueue_nextRunId : c.processQueue.nextRunId = c.nextRunId := by
  unfold processQueue
  split
  · rfl
  split <;> rfl

@[simp] theorem processQueue_workerAvailable :
    c.processQueue.workerAvailable = c.workerAvailable := by
  unfold processQueue
  split
  · rfl
  split <;> rfl

@[simp] theorem processQueue_reentries : c.processQueue.reentries = c.reentries := by
  unfold processQueue
  split
  · rfl
  split <;> rfl

/-- `_processQueue` does nothing, or an idle processor that is not paused takes up
the queued entries, of which there is one. -/
theorem processQueue_cases : c.processQueue = c ∨ (c.processor = .idle ∧
        (c.entries.filter (·.status = .queued) ≠ [] ∧ c.manualPaused = false) ∧
        c.processQueue =
          { c with
            processor := .hydrating (c.entries.filter (·.status = .queued))
            nativeRunStopped := false }) := by
  unfold processQueue
  split
  · exact .inl rfl
  next free =>
    split
    · exact .inl rfl
    next queued nonempty =>
      right
      simp only [isProcessing, Bool.or_eq_true, not_or, Bool.not_eq_true] at free
      refine ⟨?_, ⟨?_, free.2⟩, rfl⟩
      · cases processor : c.processor with
        | idle => rfl
        | _ => simp [processor] at free
      · intro empty
        exact nonempty empty

theorem processQueue_of_isProcessing (processing : c.isProcessing = true) : c.processQueue = c := by
  simp [processQueue, processing]

end ProcessQueue

section FinishProcessing

variable (continueProcessing : Bool)

/-- The `finally` block changes the processor, the stop flag and the re-entry
count only. -/
theorem finishProcessing_eq : ∃ processor stopped reentries, c.finishProcessing continueProcessing =
        { c with
          processor
          nativeRunStopped := stopped
          reentries } ∧
      ((processor = .idle ∧ reentries = c.reentries) ∨
        (processor = .hydrating (c.entries.filter (·.status = .queued)) ∧
          (c.entries.filter (·.status = .queued) ≠ [] ∧ c.manualPaused = false) ∧
          continueProcessing = true ∧ reentries = c.reentries + 1)) := by
  unfold finishProcessing
  cases continueProcessing with
  | false =>
    exact ⟨.idle, c.nativeRunStopped, c.reentries, rfl, .inl ⟨rfl, rfl⟩⟩
  | true =>
    rcases processQueue_cases { c with processor := .idle } with same | taken
    · refine ⟨.idle, c.nativeRunStopped, c.reentries, ?_, .inl ⟨rfl, rfl⟩⟩
      simp [same, isProcessing]
    · obtain ⟨_, nonempty, equal⟩ := taken
      refine ⟨.hydrating (c.entries.filter (·.status = .queued)), false,
        c.reentries + 1, ?_, .inr ⟨rfl, nonempty, rfl, rfl⟩⟩
      simp [equal, isProcessing]

@[simp] theorem finishProcessing_entries :
    (c.finishProcessing continueProcessing).entries = c.entries := by
  obtain ⟨_, _, _, equal, _⟩ := c.finishProcessing_eq continueProcessing
  rw [equal]

@[simp] theorem finishProcessing_retried :
    (c.finishProcessing continueProcessing).rateLimitRetriedItemIds =
      c.rateLimitRetriedItemIds := by
  obtain ⟨_, _, _, equal, _⟩ := c.finishProcessing_eq continueProcessing
  rw [equal]

@[simp] theorem finishProcessing_timers :
    (c.finishProcessing continueProcessing).timers = c.timers := by
  obtain ⟨_, _, _, equal, _⟩ := c.finishProcessing_eq continueProcessing
  rw [equal]

@[simp] theorem finishProcessing_handedOver :
    (c.finishProcessing continueProcessing).handedOver = c.handedOver := by
  obtain ⟨_, _, _, equal, _⟩ := c.finishProcessing_eq continueProcessing
  rw [equal]

@[simp] theorem finishProcessing_issuedIds :
    (c.finishProcessing continueProcessing).issuedIds = c.issuedIds := by
  obtain ⟨_, _, _, equal, _⟩ := c.finishProcessing_eq continueProcessing
  rw [equal]

@[simp] theorem finishProcessing_outbox :
    (c.finishProcessing continueProcessing).outbox = c.outbox := by
  obtain ⟨_, _, _, equal, _⟩ := c.finishProcessing_eq continueProcessing
  rw [equal]

@[simp] theorem finishProcessing_nextRunId :
    (c.finishProcessing continueProcessing).nextRunId = c.nextRunId := by
  obtain ⟨_, _, _, equal, _⟩ := c.finishProcessing_eq continueProcessing
  rw [equal]

@[simp] theorem finishProcessing_workerAvailable :
    (c.finishProcessing continueProcessing).workerAvailable = c.workerAvailable := by
  obtain ⟨_, _, _, equal, _⟩ := c.finishProcessing_eq continueProcessing
  rw [equal]

end FinishProcessing

/-! ## The Dart fallback loop -/

/-- The fallback loop ends `_processQueue` when nothing is left to do, or begins
the fallback of the first entry that is still there and not terminal. -/
theorem startFallbacks_cases (entries : List DownloadEntry) :
    (c.startFallbacks entries = c.finishProcessing true ∧ ∀ next ∈ entries, ∀ e ∈ c.entries,
          e.itemId = next.itemId → e.status.terminal = true) ∨
      ∃ skipped next remaining, entries = skipped ++ next :: remaining ∧
        (∀ earlier ∈ skipped, ∀ e ∈ c.entries,
          e.itemId = earlier.itemId → e.status.terminal = true) ∧
        (∃ e ∈ c.entries, e.itemId = next.itemId ∧ e.status.terminal = false) ∧
        c.startFallbacks entries = c.beginFallback next remaining := by
  induction entries with
  | nil =>
    left
    exact ⟨rfl, by simp⟩
  | cons next remaining ih =>
    rw [startFallbacks]
    by_cases needed :
        (c.entries.any fun e => e.itemId = next.itemId ∧ e.status.terminal = false) = true
    · right
      rw [if_pos needed]
      refine ⟨[], next, remaining, rfl, by simp, ?_, rfl⟩
      simpa using needed
    · rw [if_neg needed]
      have skip : ∀ e ∈ c.entries, e.itemId = next.itemId → e.status.terminal = true := by
        simpa using needed
      rcases ih with ⟨equal, rest⟩ | found
      · left
        refine ⟨equal, ?_⟩
        simp only [List.mem_cons, forall_eq_or_imp]
        exact ⟨skip, rest⟩
      · obtain ⟨skipped, chosen, behind, split, before, present, equal⟩ := found
        right
        refine ⟨next :: skipped, chosen, behind, by simp [split], ?_, present, equal⟩
        simp only [List.mem_cons, forall_eq_or_imp]
        exact ⟨skip, before⟩

section BeginFallback

variable (next : DownloadEntry) (remaining : List DownloadEntry)

/-- Starting a fallback hands the item over and marks its entry; where the
fallback waits decides between the two marks. -/
theorem beginFallback_cases : (c.beginFallback next remaining =
        ((({ c with handedOver := c.handedOver ++ [next.itemId] }.setStatus
          next.itemId .downloading).setStatus next.itemId .queued).suspend next
            .admission remaining)) ∨
      c.beginFallback next remaining =
        ({ c with handedOver := c.handedOver ++ [next.itemId] }.setStatus
          next.itemId .downloading).suspend next .directory remaining := by
  simp only [beginFallback]
  split
  · exact .inl rfl
  · exact .inr rfl

end BeginFallback

/-- The fallback loop touches the entry of a nonterminal item only and leaves it
nonterminal. -/
theorem mem_startFallbacks {entries : List DownloadEntry} {e : DownloadEntry}
    (member : e ∈ (c.startFallbacks entries).entries) :
    e ∈ c.entries ∨ (e.status.terminal = false ∧
        ∃ before ∈ c.entries, before.itemId = e.itemId ∧ before.status.terminal = false) := by
  rcases c.startFallbacks_cases entries with ⟨ended, _⟩ | found
  · left
    simpa [ended] using member
  · obtain ⟨_, next, remaining, _, _, ⟨before, present, same, active⟩, begun⟩ := found
    rw [begun] at member
    by_cases touched : e.itemId = next.itemId
    · right
      refine ⟨?_, before, present, same.trans touched.symm, active⟩
      rcases c.beginFallback_cases next remaining with waiting | running
      · rw [waiting] at member
        rcases mem_setStatus _ _ _ _ member with ⟨_, other⟩ | ⟨_, queued⟩
        · exact absurd touched other
        · rw [queued]
          rfl
      · rw [running] at member
        rcases mem_setStatus _ _ _ _ member with ⟨_, other⟩ | ⟨_, downloading⟩
        · exact absurd touched other
        · rw [downloading]
          rfl
    · left
      rcases c.beginFallback_cases next remaining with waiting | running
      · rw [waiting] at member
        exact mem_setStatus_of_ne _ _ _ _ (mem_setStatus_of_ne _ _ _ _ member touched) touched
      · rw [running] at member
        exact mem_setStatus_of_ne _ _ _ _ member touched

/-! ## The rate-limit retry -/

theorem endRateLimitRetry_cases (itemId : String) : c.endRateLimitRetry itemId = c ∨
      c.endRateLimitRetry itemId = (c.setStatus itemId .queued).processQueue := by
  unfold endRateLimitRetry
  split
  · exact .inr rfl
  · exact .inl rfl

/-- A snapshot's retry is scheduled for a rate-limited failure that still has
its retry, and for nothing else. -/
theorem scheduleRateLimitRetry_cases (e : DownloadEntry) : c.scheduleRateLimitRetry e = c ∨
      (e.status = .failed ∧ e.itemId ∉ c.rateLimitRetriedItemIds ∧ isRateLimitError e.error = true ∧
        ∃ details deadline, c.scheduleRateLimitRetry e =
            { (c.setStatus e.itemId .downloading details) with
              rateLimitRetriedItemIds := e.itemId :: c.rateLimitRetriedItemIds
              timers := ⟨e.itemId, deadline⟩ :: c.timers }) := by
  unfold scheduleRateLimitRetry
  split
  next due => exact .inr ⟨due.1, due.2.2, due.2.1, _, _, rfl⟩
  next => exact .inl rfl

/-- Scheduling retries changes entries of failed items to `downloading` only. -/
theorem mem_scheduleAll (entries : List DownloadEntry) {e : DownloadEntry}
    (member : e ∈ (entries.foldl scheduleRateLimitRetry c).entries) :
    e ∈ c.entries ∨ (e.status = .downloading ∧
        ∃ before ∈ entries, before.itemId = e.itemId ∧ before.status = .failed) := by
  refine List.foldlRecOn entries scheduleRateLimitRetry
    (motive := fun (next : Controller) => ∀ e ∈ next.entries, e ∈ c.entries ∨
      (e.status = .downloading ∧
        ∃ before ∈ entries, before.itemId = e.itemId ∧ before.status = .failed))
    (fun _ old => .inl old) ?_ e member
  intro next kept due dueMember e member
  rcases next.scheduleRateLimitRetry_cases due with same | ⟨failed, _, _, _, _, equal⟩
  · rw [same] at member
    exact kept e member
  · rw [equal] at member
    rcases mem_setStatus _ _ _ _ member with ⟨old, _⟩ | ⟨same, downloading⟩
    · exact kept e old
    · exact .inr ⟨downloading, due, dueMember, same.symm, failed⟩

theorem acknowledgePause_eq (snapshot : NativeWorkerSnapshot) : ∃ pendingPause manualPaused,
      c.acknowledgePause snapshot = { c with pendingPause, manualPaused } := by
  unfold acknowledgePause
  simp only
  split <;> split <;> exact ⟨_, _, rfl⟩

/-- The snapshot is merged into the entries and starts the retries it asks for,
or, when it lists no item of the batch, only its pause flag is read. -/
theorem mergeNativeSnapshot_cases (snapshot : NativeWorkerSnapshot) (ids : List String) :
    ∃ pendingPause manualPaused, ((∀ item ∈ snapshot.items, item.itemId ∉ ids) ∧
        c.mergeNativeSnapshot snapshot ids = { c with pendingPause, manualPaused }) ∨
      c.mergeNativeSnapshot snapshot ids =
        ({ c with pendingPause, manualPaused }.mergeItems snapshot ids).entries.foldl
          scheduleRateLimitRetry ({ c with pendingPause, manualPaused }.mergeItems snapshot ids) := by
  obtain ⟨pendingPause, manualPaused, equal⟩ := c.acknowledgePause_eq snapshot
  refine ⟨pendingPause, manualPaused, ?_⟩
  simp only [mergeNativeSnapshot, equal]
  split
  · exact .inr rfl
  next none =>
    left
    exact ⟨by simpa using none, rfl⟩

theorem pollMerged_entries (batch : Batch) (startedAt : Nat) (snapshot : NativeWorkerSnapshot) :
    (c.pollMerged batch startedAt snapshot).entries =
      (c.mergeNativeSnapshot snapshot batch.ids).entries := by
  simp only [pollMerged]
  split
  · rfl
  · simp only [endBatch, finishProcessing_entries]

/-! ## Intents, run ids and the batch -/

/-- The fields through which a native run is started. -/
def wire (c : Controller) : List ServiceIntent × Nat × Bool :=
  (c.outbox, c.nextRunId, c.workerAvailable)

@[simp] theorem setStatus_wire (itemId : String) (status : EntryStatus)
    (details : StatusDetails) : (c.setStatus itemId status details).wire = c.wire := rfl

@[simp] theorem suspend_wire (current : DownloadEntry) (point : FallbackPoint)
    (remaining : List DownloadEntry) : (c.suspend current point remaining).wire = c.wire := rfl

@[simp] theorem beginRateLimitRetry_wire (itemId errorMsg : String) :
    (c.beginRateLimitRetry itemId errorMsg).wire = c.wire := rfl

@[simp] theorem processQueue_wire : c.processQueue.wire = c.wire := by
  simp [wire]

@[simp] theorem finishProcessing_wire (continueProcessing : Bool) :
    (c.finishProcessing continueProcessing).wire = c.wire := by
  simp [wire]

@[simp] theorem beginFallback_wire (next : DownloadEntry) (remaining : List DownloadEntry) :
    (c.beginFallback next remaining).wire = c.wire := by
  rcases c.beginFallback_cases next remaining with waiting | running
  · rw [waiting]
    rfl
  · rw [running]
    rfl

@[simp] theorem startFallbacks_wire (entries : List DownloadEntry) :
    (c.startFallbacks entries).wire = c.wire := by
  rcases c.startFallbacks_cases entries with ⟨ended, _⟩ | ⟨_, _, _, _, _, _, begun⟩
  · simp [ended]
  · simp [begun]

@[simp] theorem endRateLimitRetry_wire (itemId : String) :
    (c.endRateLimitRetry itemId).wire = c.wire := by
  rcases c.endRateLimitRetry_cases itemId with same | requeued
  · rw [same]
  · simp [requeued]

@[simp] theorem scheduleAll_wire (entries : List DownloadEntry) :
    (entries.foldl scheduleRateLimitRetry c).wire = c.wire := by
  refine List.foldlRecOn entries scheduleRateLimitRetry
    (motive := fun (next : Controller) => next.wire = c.wire) rfl ?_
  intro next same e _
  rcases next.scheduleRateLimitRetry_cases e with kept | ⟨_, _, _, _, _, equal⟩
  · rw [kept, same]
  · rw [equal]
    exact same

@[simp] theorem mergeNativeSnapshot_wire (snapshot : NativeWorkerSnapshot)
    (ids : List String) : (c.mergeNativeSnapshot snapshot ids).wire = c.wire := by
  obtain ⟨pendingPause, manualPaused, ⟨_, flagged⟩ | merged⟩ :=
    c.mergeNativeSnapshot_cases snapshot ids
  · rw [flagged]
    rfl
  · rw [merged, scheduleAll_wire]
    rfl

@[simp] theorem pollMerged_wire (batch : Batch) (startedAt : Nat)
    (snapshot : NativeWorkerSnapshot) : (c.pollMerged batch startedAt snapshot).wire = c.wire := by
  have merged := c.mergeNativeSnapshot_wire snapshot batch.ids
  simp only [pollMerged]
  split
  · exact merged
  · simp only [endBatch, finishProcessing_wire]
    exact merged

@[simp] theorem processQueue_native : c.processQueue.processor.native = c.processor.native := by
  rcases c.processQueue_cases with same | ⟨idle, _, equal⟩
  · rw [same]
  · rw [equal, idle]
    rfl

@[simp] theorem finishProcessing_native (continueProcessing : Bool) :
    (c.finishProcessing continueProcessing).processor.native = false := by
  obtain ⟨_, _, _, equal, idle | taken⟩ := c.finishProcessing_eq continueProcessing
  · rw [equal, idle.1]
    rfl
  · rw [equal, taken.1]
    rfl

@[simp] theorem startFallbacks_native (entries : List DownloadEntry) :
    (c.startFallbacks entries).processor.native = false := by
  rcases c.startFallbacks_cases entries with ⟨ended, _⟩ | ⟨_, next, remaining, _, _, _, begun⟩
  · simp [ended]
  · rw [begun]
    rcases c.beginFallback_cases next remaining with waiting | running
    · rw [waiting]
      rfl
    · rw [running]
      rfl

@[simp] theorem endRateLimitRetry_native (itemId : String) :
    (c.endRateLimitRetry itemId).processor.native = c.processor.native := by
  rcases c.endRateLimitRetry_cases itemId with same | requeued
  · rw [same]
  · simp [requeued]

@[simp] theorem processQueue_batch : c.processQueue.processor.batch = c.processor.batch := by
  rcases c.processQueue_cases with same | ⟨idle, _, equal⟩
  · rw [same]
  · rw [equal, idle]
    rfl

@[simp] theorem finishProcessing_batch (continueProcessing : Bool) :
    (c.finishProcessing continueProcessing).processor.batch = none := by
  obtain ⟨_, _, _, equal, idle | taken⟩ := c.finishProcessing_eq continueProcessing
  · rw [equal, idle.1]
    rfl
  · rw [equal, taken.1]
    rfl

@[simp] theorem startFallbacks_batch (entries : List DownloadEntry) :
    (c.startFallbacks entries).processor.batch = none := by
  rcases c.startFallbacks_cases entries with ⟨ended, _⟩ | ⟨_, next, remaining, _, _, _, begun⟩
  · simp [ended]
  · rw [begun]
    rcases c.beginFallback_cases next remaining with waiting | running
    · rw [waiting]
      rfl
    · rw [running]
      rfl

@[simp] theorem endRateLimitRetry_batch (itemId : String) :
    (c.endRateLimitRetry itemId).processor.batch = c.processor.batch := by
  rcases c.endRateLimitRetry_cases itemId with same | requeued
  · rw [same]
  · simp [requeued]

end Controller

variable {item : NativeWorkerItemState}

theorem applyNativeItemState_failed (failed : (applyNativeItemState entry item).status = .failed) :
    entry.status = .failed ∨ (entry.status.terminal = false ∧ item.status = .failed ∧
        existingLibraryPath item.error = none) := by
  unfold applyNativeItemState at failed
  split at failed
  · exact .inl failed
  next unguarded =>
    by_cases terminal : entry.status.terminal = true
    · left
      have same : entry.status = item.status := by
        by_contra different
        exact unguarded ⟨terminal, different⟩
      rw [same] at terminal ⊢
      cases status : item.status with
      | failed => rfl
      | done => simp [status] at failed
      | _ => simp [status] at terminal
    · right
      refine ⟨by simpa using terminal, ?_⟩
      by_cases reported : item.status = .failed
      · refine ⟨reported, ?_⟩
        cases path : existingLibraryPath item.error with
        | none => rfl
        | some existing => simp [reported, path] at failed
      · simp [reported] at failed

theorem applyNativeItemState_done
    (done : entry.status = .done) : (applyNativeItemState entry item).status = .done := by
  unfold applyNativeItemState
  split
  · exact done
  next unguarded =>
    have same : entry.status = item.status := by
      by_contra different
      exact unguarded ⟨by simp [done], different⟩
    have reported : item.status = .done := same.symm.trans done
    simp [reported]

theorem mergeEntry_of_terminal {stopped : Bool}
    {p : Option DownloadProgress} (terminal : entry.status.terminal = true) :
    mergeEntry stopped entry p = entry := by
  simp [mergeEntry, terminal]

theorem applyNativeItemState_not_active (settled : item.status.active = false) :
    (applyNativeItemState entry item).status.active = false := by
  unfold applyNativeItemState
  split
  next guarded =>
    cases status : entry.status <;> simp [status] at guarded ⊢
  next =>
    simp only [DownloadEntry.copyWith_status, Option.getD_some]
    by_cases existing :
        (if item.status = .failed then existingLibraryPath item.error else none).isSome = true
    · rw [if_pos existing]
      rfl
    · rw [if_neg existing]
      exact settled

theorem applyNativeItemState_terminal (entry : DownloadEntry)
    (settled : item.status.terminal = true) :
    (applyNativeItemState entry item).status.terminal = true := by
  unfold applyNativeItemState
  split
  next guarded => exact guarded.1
  next =>
    simp only [DownloadEntry.copyWith_status, Option.getD_some]
    by_cases existing :
        (if item.status = .failed then existingLibraryPath item.error else none).isSome = true
    · rw [if_pos existing]
      rfl
    · rw [if_neg existing]
      exact settled

variable {snapshot : NativeWorkerSnapshot}

/-- What holds of all listed items holds of the one that is merged into an entry of
a listed item. -/
theorem snapshotItem_of_listed {motive : NativeWorkerItemState → Prop}
    (listed : entry.itemId ∈ snapshot.items.map NativeWorkerItemState.itemId)
    (all : ∀ item ∈ snapshot.items, item.itemId = entry.itemId → motive item) :
    motive (snapshotItem snapshot entry) := by
  obtain ⟨item, member, same⟩ := List.mem_map.mp listed
  cases found : snapshot.items.find? (·.itemId = entry.itemId) with
  | none =>
    have absent := List.find?_eq_none.mp found item member
    exact absurd same (by simpa using absent)
  | some listedItem =>
    simp only [snapshotItem, found, Option.getD_some]
    have named := List.find?_some found
    exact all listedItem (List.mem_of_find?_eq_some found) (by simpa using named)

theorem snapshotItem_settled
    (listed : entry.itemId ∈ snapshot.items.map NativeWorkerItemState.itemId)
    (settled : ∀ item ∈ snapshot.items, item.status.active = false) :
    (snapshotItem snapshot entry).status.active = false :=
  snapshotItem_of_listed (motive := fun item => item.status.active = false) listed
    fun item member _ => settled item member

theorem snapshotItem_terminal
    (listed : entry.itemId ∈ snapshot.items.map NativeWorkerItemState.itemId)
    (settled : ∀ item ∈ snapshot.items, item.status.active = false)
    (past : ∀ item ∈ snapshot.items, item.itemId = entry.itemId → item.status ≠ .queued) :
    (snapshotItem snapshot entry).status.terminal = true := by
  refine snapshotItem_of_listed (motive := fun item => item.status.terminal = true) listed ?_
  intro item member same
  rcases item.status.cases_kind with queued | active | terminal
  · exact absurd queued (past item member same)
  · rw [settled item member] at active
    cases active
  · exact terminal

end LosslessMusic.Queue
