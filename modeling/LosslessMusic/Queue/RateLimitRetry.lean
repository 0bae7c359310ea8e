import LosslessMusic.Queue.Steps

/-!
# The delayed retry of a rate-limited item

`_handleRateLimited` gives an item one delayed retry. The retry keeps the item
id, and the run in which the item failed may still be polled: its snapshot says
`failed` until the run ends, and a merge of it takes the entry back out of the
queue. Without such a merge every retried item is handed over again.
-/

namespace LosslessMusic.Queue

/-- The merge of this item makes an entry `failed`. -/
def NativeWorkerItemState.reportsFailure (item : NativeWorkerItemState) : Bool :=
  item.status = .failed && (existingLibraryPath item.error).isNone

namespace Controller

variable {c : Controller}

/-- How often an item was handed to an executor. -/
def attempts (c : Controller) (itemId : String) : Nat :=
  c.handedOver.count itemId

/-- The item has its one delayed retry still before it. -/
def awaitsRetry (c : Controller) (itemId : String) : Bool :=
  c.rateLimitRetriedItemIds.contains itemId && c.attempts itemId ≤ 1

/-- A merge of the snapshot would fail an entry that awaits its retry. -/
def undoesRetry (c : Controller) (ids : List String) (snapshot : NativeWorkerSnapshot) :
    Bool :=
  c.entries.any fun e =>
    ids.contains e.itemId && !e.status.terminal && c.awaitsRetry e.itemId &&
      (snapshotItem snapshot e).reportsFailure

/-- No retried item has failed after a single attempt, unless its retry is still
to come. -/
structure FailuresRecorded (c : Controller) : Prop where
  handed : ∀ e ∈ c.entries, e.status = .failed → e.itemId ∈ c.handedOver
  retriedHanded : ∀ itemId ∈ c.rateLimitRetriedItemIds, itemId ∈ c.handedOver
  retried : ∀ e ∈ c.entries, e.status = .failed → e.itemId ∈ c.rateLimitRetriedItemIds →
      (∃ timer ∈ c.timers, timer.itemId = e.itemId) ∨ 2 ≤ c.attempts e.itemId

/-- The suspended call works on items that were handed over, and a fallback that
is not waiting itself is not an item's first attempt once its retry is spent. -/
structure AttemptsRecorded (c : Controller) : Prop where
  batch : ∀ batch, (c.processor = .pausing batch ∨ ∃ startedAt started lastSeenAt,
        c.processor = .polling batch startedAt started lastSeenAt) →
    ∀ itemId ∈ batch.ids, itemId ∈ c.handedOver
  current : ∀ next point remaining, c.processor = .fallback next point remaining →
    next.itemId ∈ c.handedOver ∧
      ((∀ deadline, point ≠ .rateLimited deadline) →
        next.itemId ∈ c.rateLimitRetriedItemIds → 2 ≤ c.attempts next.itemId)

/-- Both records together are the invariant of the queue. -/
structure RetryInvariant (c : Controller) : Prop where
  failures : c.FailuresRecorded
  attempts : c.AttemptsRecorded

/-! ## What the updates keep -/

variable {other : Controller}

namespace FailuresRecorded

/-- A status may be set unless it is a failure that would strand the retry. -/
theorem setStatus (recorded : c.FailuresRecorded)
    (itemId : String) (status : EntryStatus) (details : StatusDetails)
    (sound : status = .failed → itemId ∈ c.handedOver ∧
      (itemId ∈ c.rateLimitRetriedItemIds → 2 ≤ c.attempts itemId)) :
    (c.setStatus itemId status details).FailuresRecorded := by
  refine ⟨?_, recorded.retriedHanded, ?_⟩
  · intro e member failed
    rcases c.mem_setStatus itemId status details member with ⟨old, _⟩ | ⟨same, new⟩
    · exact recorded.handed e old failed
    · rw [same]
      exact (sound (new ▸ failed)).1
  · intro e member failed retried
    rcases c.mem_setStatus itemId status details member with ⟨old, _⟩ | ⟨same, new⟩
    · exact recorded.retried e old failed retried
    · right
      rw [same] at retried ⊢
      exact (sound (new ▸ failed)).2 retried

theorem handOver (recorded : c.FailuresRecorded) (itemIds : List String) :
    { c with handedOver := c.handedOver ++ itemIds }.FailuresRecorded := by
  refine ⟨?_, ?_, ?_⟩
  · intro e member failed
    exact List.mem_append_left _ (recorded.handed e member failed)
  · intro itemId retried
    exact List.mem_append_left _ (recorded.retriedHanded itemId retried)
  · intro e member failed retried
    rcases recorded.retried e member failed retried with timed | attempted
    · exact .inl timed
    · right
      simp only [attempts, List.count_append] at attempted ⊢
      omega

theorem congr (recorded : c.FailuresRecorded)
    (entries : other.entries = c.entries) (timers : other.timers = c.timers)
    (retried : other.rateLimitRetriedItemIds = c.rateLimitRetriedItemIds)
    (handedOver : other.handedOver = c.handedOver) : other.FailuresRecorded := by
  obtain ⟨handed, retriedHanded, retriedAgain⟩ := recorded
  constructor
  · rwa [entries, handedOver]
  · rwa [retried, handedOver]
  · simp only [attempts] at retriedAgain ⊢
    rwa [entries, retried, timers, handedOver]

/-- Entries may be dropped or replaced by ones that failed no more than before. -/
theorem replaceEntries (recorded : c.FailuresRecorded) (entries : List DownloadEntry)
    (old : ∀ e ∈ entries, e.status = .failed →
      ∃ before ∈ c.entries, before.itemId = e.itemId ∧ before.status = .failed) :
    { c with entries }.FailuresRecorded := by
  refine ⟨?_, recorded.retriedHanded, ?_⟩
  · intro e member failed
    obtain ⟨before, beforeMember, same, beforeFailed⟩ := old e member failed
    exact same ▸ recorded.handed before beforeMember beforeFailed
  · intro e member failed retried
    obtain ⟨before, beforeMember, same, beforeFailed⟩ := old e member failed
    rw [← same] at retried ⊢
    exact recorded.retried before beforeMember beforeFailed retried

/-- The timer of an item may go when the item did not stay failed. -/
theorem eraseTimer (recorded : c.FailuresRecorded) (timer : RateLimitTimer)
    (notFailed : ∀ e ∈ c.entries, e.itemId = timer.itemId → e.status ≠ .failed) :
    { c with timers := c.timers.erase timer }.FailuresRecorded := by
  refine ⟨recorded.handed, recorded.retriedHanded, ?_⟩
  intro e member failed retried
  rcases recorded.retried e member failed retried with ⟨kept, pending, same⟩ | attempted
  · left
    refine ⟨kept, ?_, same⟩
    have different : kept ≠ timer := by
      intro equal
      exact notFailed e member (by rw [← same, equal]) failed
    exact (List.mem_erase_of_ne different).mpr pending
  · exact .inr attempted

theorem spendRetry (recorded : c.FailuresRecorded) (itemId : String)
    (handed : itemId ∈ c.handedOver)
    (notFailed : ∀ e ∈ c.entries, e.itemId = itemId → e.status ≠ .failed) :
    { c with
      rateLimitRetriedItemIds :=
        itemId :: c.rateLimitRetriedItemIds }.FailuresRecorded := by
  refine ⟨recorded.handed, ?_, ?_⟩
  · intro other retried
    rcases List.mem_cons.mp retried with rfl | before
    · exact handed
    · exact recorded.retriedHanded other before
  · intro e member failed retried
    rcases List.mem_cons.mp retried with same | before
    · exact absurd failed (notFailed e member same)
    · exact recorded.retried e member failed before

theorem addTimer (recorded : c.FailuresRecorded) (timer : RateLimitTimer) :
    { c with timers := timer :: c.timers }.FailuresRecorded := by
  refine ⟨recorded.handed, recorded.retriedHanded, ?_⟩
  intro e member failed retried
  rcases recorded.retried e member failed retried with ⟨kept, pending, same⟩ | attempted
  · exact .inl ⟨kept, List.mem_cons_of_mem _ pending, same⟩
  · exact .inr attempted

/-- The `_handleRateLimited` of a handed item marks it without a failure. -/
theorem beginRateLimitRetry (recorded : c.FailuresRecorded) (itemId errorMsg : String)
    (handed : itemId ∈ c.handedOver) :
    (c.beginRateLimitRetry itemId errorMsg).FailuresRecorded := by
  have marked := recorded.setStatus itemId .downloading
    { error := some ("Rate limited · retrying after " ++
        toString (rateLimitBackoffDelay errorMsg) ++ "s") } (by simp)
  refine marked.spendRetry itemId handed ?_
  intro e member same failed
  rcases c.mem_setStatus _ _ _ member with ⟨_, other⟩ | ⟨_, new⟩
  · exact other same
  · rw [new] at failed
    cases failed

theorem scheduleRateLimitRetry (recorded : c.FailuresRecorded) (e : DownloadEntry)
    (handed : e.status = .failed → e.itemId ∈ c.handedOver) :
    (c.scheduleRateLimitRetry e).FailuresRecorded := by
  simp only [Controller.scheduleRateLimitRetry]
  split
  next due =>
    exact (recorded.beginRateLimitRetry e.itemId _ (handed due.1)).addTimer _
  next => exact recorded

theorem endRateLimitRetry (recorded : c.FailuresRecorded) (itemId : String) :
    (c.endRateLimitRetry itemId).FailuresRecorded := by
  rcases c.endRateLimitRetry_cases itemId with same | requeued
  · rwa [same]
  · rw [requeued]
    exact (recorded.setStatus itemId .queued {} (by simp)).congr
      (by simp) (by simp) (by simp) (by simp)

end FailuresRecorded

theorem FailuresRecorded.scheduleAll (recorded : c.FailuresRecorded) :
    (c.entries.foldl Controller.scheduleRateLimitRetry c).FailuresRecorded ∧
      (c.entries.foldl Controller.scheduleRateLimitRetry c).handedOver = c.handedOver ∧
      (c.entries.foldl Controller.scheduleRateLimitRetry c).processor = c.processor := by
  refine List.foldlRecOn c.entries Controller.scheduleRateLimitRetry
    (motive := fun (next : Controller) => next.FailuresRecorded ∧ next.handedOver = c.handedOver ∧
      next.processor = c.processor) ⟨recorded, rfl, rfl⟩ ?_
  intro next kept e member
  obtain ⟨nextRecorded, handedOver, processor⟩ := kept
  refine ⟨nextRecorded.scheduleRateLimitRetry e fun failed => ?_, ?_, ?_⟩
  · rw [handedOver]
    exact recorded.handed e member failed
  · rcases next.scheduleRateLimitRetry_cases e with same | ⟨_, _, _, _, _, equal⟩
    · rw [same, handedOver]
    · rw [equal]
      exact handedOver
  · rcases next.scheduleRateLimitRetry_cases e with same | ⟨_, _, _, _, _, equal⟩
    · rw [same, processor]
    · rw [equal]
      exact processor

variable {snapshot : NativeWorkerSnapshot}

/-- A merge that undoes no retry fails an entry that failed before, or one of the
batch that does not await its retry. -/
theorem mem_mergeItems_failed {ids : List String}
    (kept : c.undoesRetry ids snapshot = false) {e : DownloadEntry}
    (member : e ∈ (c.mergeItems snapshot ids).entries) (failed : e.status = .failed) :
    ∃ before ∈ c.entries, before.itemId = e.itemId ∧ (before.status = .failed ∨
        (before.itemId ∈ ids ∧ c.awaitsRetry before.itemId = false)) := by
  simp only [Controller.mergeItems, List.mem_map] at member
  obtain ⟨before, beforeMember, rfl⟩ := member
  refine ⟨before, beforeMember, ?_⟩
  by_cases inBatch : before.itemId ∈ ids
  · simp only [inBatch, if_true] at failed ⊢
    refine ⟨by simp, ?_⟩
    rcases applyNativeItemState_failed failed with stands | ⟨active, reported, absent⟩
    · exact .inl stands
    · right
      simp only [undoesRetry, List.any_eq_false] at kept
      have untouched := kept before beforeMember
      simpa [inBatch, active, NativeWorkerItemState.reportsFailure, reported, absent]
        using untouched
  · simp only [inBatch, if_false] at failed ⊢
    exact ⟨by simp, .inl failed⟩

/-- The entries of a merged snapshot keep the record: a new failure is reported of
an item that was handed over and does not await its retry. -/
theorem FailuresRecorded.mergeItems (recorded : c.FailuresRecorded)
    (snapshot : NativeWorkerSnapshot) (ids : List String)
    (handed : ∀ itemId ∈ ids, itemId ∈ c.handedOver) (kept : c.undoesRetry ids snapshot = false) :
    (c.mergeItems snapshot ids).FailuresRecorded := by
  refine ⟨?_, recorded.retriedHanded, ?_⟩
  · intro e member failed
    obtain ⟨before, beforeMember, same, stands | ⟨inBatch, _⟩⟩ :=
      mem_mergeItems_failed kept member failed
    · exact same ▸ recorded.handed before beforeMember stands
    · exact same ▸ handed before.itemId inBatch
  · intro e member failed retried
    obtain ⟨before, beforeMember, same, stands | ⟨_, spent⟩⟩ :=
      mem_mergeItems_failed kept member failed
    · rw [← same] at retried ⊢
      exact recorded.retried before beforeMember stands retried
    · right
      rw [← same] at retried ⊢
      have contained : c.rateLimitRetriedItemIds.contains before.itemId = true :=
        List.contains_iff_mem.mpr retried
      simp only [awaitsRetry, contained, Bool.true_and, decide_eq_false_iff_not] at spent
      change 2 ≤ c.attempts before.itemId
      omega

theorem mem_mergeNativeSnapshot_failed
    {ids : List String} (kept : c.undoesRetry ids snapshot = false) {e : DownloadEntry}
    (member : e ∈ (c.mergeNativeSnapshot snapshot ids).entries)
    (failed : e.status = .failed) (awaits : c.awaitsRetry e.itemId = true) :
    ∃ before ∈ c.entries, before.itemId = e.itemId ∧ before.status = .failed := by
  obtain ⟨pendingPause, manualPaused, ⟨_, flagged⟩ | merged⟩ :=
    c.mergeNativeSnapshot_cases snapshot ids
  · rw [flagged] at member
    exact ⟨e, member, rfl, failed⟩
  · rw [merged] at member
    rcases mem_scheduleAll _ _ member with applied | ⟨downloading, _⟩
    · obtain ⟨before, present, same, stands | ⟨_, spent⟩⟩ :=
        mem_mergeItems_failed (c := { c with pendingPause, manualPaused }) kept applied failed
      · exact ⟨before, present, same, stands⟩
      · have attempted : c.awaitsRetry before.itemId = false := spent
        rw [same, awaits] at attempted
        cases attempted
    · simp [failed] at downloading

/-- A poll of the batch's run keeps the record unless it undoes a retry. -/
theorem FailuresRecorded.mergeNativeSnapshot (recorded : c.FailuresRecorded)
    (snapshot : NativeWorkerSnapshot) (ids : List String)
    (handed : ∀ itemId ∈ ids, itemId ∈ c.handedOver) (kept : c.undoesRetry ids snapshot = false) :
    (c.mergeNativeSnapshot snapshot ids).FailuresRecorded ∧
      (c.mergeNativeSnapshot snapshot ids).handedOver = c.handedOver := by
  obtain ⟨pendingPause, manualPaused, ⟨_, flagged⟩ | merged⟩ :=
    c.mergeNativeSnapshot_cases snapshot ids
  · rw [flagged]
    exact ⟨recorded.congr rfl rfl rfl rfl, rfl⟩
  · have flagged : { c with pendingPause, manualPaused }.FailuresRecorded :=
      recorded.congr rfl rfl rfl rfl
    have items := flagged.mergeItems snapshot ids handed kept
    rw [merged]
    exact ⟨items.scheduleAll.1, items.scheduleAll.2.1⟩

theorem FailuresRecorded.merge (recorded : c.FailuresRecorded)
    (items : List DownloadProgress) (admitted : System.admits (.progress items) = true) :
    (c.merge items).FailuresRecorded := by
  refine recorded.replaceEntries _ ?_
  intro e member failed
  simp only [List.mem_map] at member
  obtain ⟨before, beforeMember, rfl⟩ := member
  refine ⟨before, beforeMember, by simp, ?_⟩
  rcases System.mergeEntry_engine admitted c.nativeRunStopped before with
    same | ⟨_, _, active | completed⟩
  · rw [← same]
    exact failed
  · simp [failed] at active
  · simp [failed] at completed

/-! ## The suspended call -/

theorem AttemptsRecorded.of_processor (quiet : ∀ batch, c.processor ≠ .pausing batch ∧
      (∀ startedAt started lastSeenAt, c.processor ≠ .polling batch startedAt started lastSeenAt))
    (noFallback : ∀ next point remaining, c.processor ≠ .fallback next point remaining) :
    c.AttemptsRecorded := by
  constructor
  · rintro batch (pausing | ⟨startedAt, started, lastSeenAt, polling⟩)
    · exact absurd pausing (quiet batch).1
    · exact absurd polling ((quiet batch).2 startedAt started lastSeenAt)
  · intro next point remaining fallback
    exact absurd fallback (noFallback next point remaining)

theorem AttemptsRecorded.congr (recorded : c.AttemptsRecorded)
    (processor : other.processor = c.processor)
    (retried : other.rateLimitRetriedItemIds = c.rateLimitRetriedItemIds)
    (handedOver : other.handedOver = c.handedOver) : other.AttemptsRecorded := by
  obtain ⟨batch, current⟩ := recorded
  constructor
  · rwa [processor, handedOver]
  · simp only [attempts] at current ⊢
    rwa [processor, retried, handedOver]

namespace RetryInvariant

theorem finishProcessing {continueProcessing : Bool} (recorded : c.FailuresRecorded) :
    (c.finishProcessing continueProcessing).RetryInvariant := by
  constructor
  · exact recorded.congr (by simp) (by simp) (by simp) (by simp)
  · obtain ⟨processor, stopped, reentries, equal, idle | taken⟩ :=
      c.finishProcessing_eq continueProcessing
    · rw [equal]
      exact .of_processor (by simp [idle.1]) (by simp [idle.1])
    · rw [equal]
      exact .of_processor (by simp [taken.1]) (by simp [taken.1])

/-- A fallback hands its item over; if the retry of that item is spent, this is
not its first attempt. -/
theorem beginFallback (recorded : c.FailuresRecorded) (next : DownloadEntry)
    (remaining : List DownloadEntry) : (c.beginFallback next remaining).RetryInvariant := by
  have handed := recorded.handOver [next.itemId]
  have downloading := handed.setStatus next.itemId .downloading {} (by simp)
  have attempted : ∀ point : FallbackPoint, (∀ deadline, point ≠ .rateLimited deadline) →
        next.itemId ∈ c.rateLimitRetriedItemIds →
          2 ≤ (c.handedOver ++ [next.itemId]).count next.itemId := by
    intro point _ retried
    have before := List.count_pos_iff.mpr (recorded.retriedHanded next.itemId retried)
    simp only [List.count_append, List.count_singleton_self]
    omega
  rcases c.beginFallback_cases next remaining with waiting | running
  · rw [waiting]
    constructor
    · exact (downloading.setStatus next.itemId .queued {} (by simp)).congr rfl rfl rfl rfl
    · constructor
      · rintro batch (pausing | ⟨_, _, _, polling⟩)
        · simp [suspend] at pausing
        · simp [suspend] at polling
      · intro entry point rest suspended
        simp only [suspend, Processor.fallback.injEq] at suspended
        obtain ⟨rfl, rfl, rfl⟩ := suspended
        exact ⟨by simp [suspend], attempted _⟩
  · rw [running]
    constructor
    · exact downloading.congr rfl rfl rfl rfl
    · constructor
      · rintro batch (pausing | ⟨_, _, _, polling⟩)
        · simp [suspend] at pausing
        · simp [suspend] at polling
      · intro entry point rest suspended
        simp only [suspend, Processor.fallback.injEq] at suspended
        obtain ⟨rfl, rfl, rfl⟩ := suspended
        exact ⟨by simp [suspend], attempted _⟩

theorem startFallbacks {entries : List DownloadEntry} (recorded : c.FailuresRecorded) :
    (c.startFallbacks entries).RetryInvariant := by
  rcases c.startFallbacks_cases entries with ⟨ended, _⟩ | found
  · rw [ended]
    exact finishProcessing recorded
  · obtain ⟨_, next, remaining, _, _, _, begun⟩ := found
    rw [begun]
    exact beginFallback recorded next remaining

theorem processQueue (invariant : c.RetryInvariant) : c.processQueue.RetryInvariant := by
  constructor
  · exact invariant.failures.congr (by simp) (by simp) (by simp) (by simp)
  · rcases c.processQueue_cases with same | ⟨_, _, equal⟩
    · rw [same]
      exact invariant.attempts
    · rw [equal]
      exact .of_processor (by simp) (by simp)

/-- When a delay ends, its timer goes and the item is queued or gone. -/
theorem timerFired (invariant : c.RetryInvariant) (timer : RateLimitTimer) :
    ({ c with timers := c.timers.erase timer }.endRateLimitRetry timer.itemId).RetryInvariant := by
  unfold Controller.endRateLimitRetry
  split
  next present =>
    -- Set the status first: then the erased timer belongs to no failed entry.
    have requeued := invariant.failures.setStatus timer.itemId .queued {} (by simp)
    have erased := requeued.eraseTimer timer (by
      intro e member same failed
      rcases c.mem_setStatus _ _ _ member with ⟨_, other⟩ | ⟨_, queued⟩
      · exact other same
      · rw [queued] at failed
        cases failed)
    exact RetryInvariant.processQueue ⟨erased, invariant.attempts.congr rfl rfl rfl⟩
  next absent =>
    refine ⟨invariant.failures.eraseTimer timer ?_, invariant.attempts.congr rfl rfl rfl⟩
    intro e member same
    simp only [has, List.any_eq_true, decide_eq_true_eq, not_exists, not_and] at absent
    exact absurd same (absent e member)

theorem enqueue (invariant : c.RetryInvariant) (itemId : String) (track : Track)
    (service quality : Option String) :
    (c.enqueue itemId track service quality).RetryInvariant := by
  refine RetryInvariant.processQueue ⟨?_, invariant.attempts.congr rfl rfl rfl⟩
  refine (invariant.failures.replaceEntries
    ({ track, itemId, status := .queued, service, quality } :: c.entries) ?_).congr rfl rfl rfl rfl
  intro e member failed
  rcases List.mem_cons.mp member with rfl | old
  · cases failed
  · exact ⟨e, old, rfl, failed⟩

theorem removeLocal (invariant : c.RetryInvariant) (itemId : String) :
    (c.removeLocal itemId).RetryInvariant := by
  refine ⟨invariant.failures.replaceEntries _ ?_, invariant.attempts.congr rfl rfl rfl⟩
  intro e member failed
  exact ⟨e, (List.mem_filter.mp member).1, rfl, failed⟩

theorem congr (invariant : c.RetryInvariant)
    (entries : other.entries = c.entries) (timers : other.timers = c.timers)
    (retried : other.rateLimitRetriedItemIds = c.rateLimitRetriedItemIds)
    (handedOver : other.handedOver = c.handedOver)
    (processor : other.processor = c.processor) : other.RetryInvariant :=
  ⟨invariant.failures.congr entries timers retried handedOver,
    invariant.attempts.congr processor retried handedOver⟩

theorem beforeHandover (recorded : c.FailuresRecorded)
    (quiet : ∀ batch, c.processor ≠ .pausing batch ∧ (∀ startedAt started lastSeenAt,
        c.processor ≠ .polling batch startedAt started lastSeenAt))
    (noFallback : ∀ next point remaining, c.processor ≠ .fallback next point remaining) :
    c.RetryInvariant :=
  ⟨recorded, .of_processor quiet noFallback⟩

/-- A call that watches a batch whose items were handed over. -/
theorem watching (recorded : c.FailuresRecorded) (batch : Batch)
    (watched : c.processor = .pausing batch ∨ ∃ startedAt started lastSeenAt,
        c.processor = .polling batch startedAt started lastSeenAt)
    (handed : ∀ itemId ∈ batch.ids, itemId ∈ c.handedOver) : c.RetryInvariant := by
  refine ⟨recorded, ?_, ?_⟩
  · intro other otherWatched
    have same : other = batch := by
      rcases watched with pausing | ⟨_, _, _, polling⟩ <;>
        rcases otherWatched with otherPausing | ⟨_, _, _, otherPolling⟩ <;> simp_all
    exact same ▸ handed
  · intro next point remaining fallback
    rcases watched with pausing | ⟨_, _, _, polling⟩
    · simp [pausing] at fallback
    · simp [polling] at fallback

theorem fallingBack (recorded : c.FailuresRecorded) (next : DownloadEntry)
    (point : FallbackPoint) (remaining : List DownloadEntry) (handed : next.itemId ∈ c.handedOver)
    (attempted : (∀ deadline, point ≠ .rateLimited deadline) →
      next.itemId ∈ c.rateLimitRetriedItemIds → 2 ≤ c.attempts next.itemId) :
    (c.suspend next point remaining).RetryInvariant := by
  refine ⟨recorded.congr rfl rfl rfl rfl, ?_, ?_⟩
  · rintro batch (pausing | ⟨_, _, _, polling⟩)
    · simp [suspend] at pausing
    · simp [suspend] at polling
  · intro entry movedTo rest suspended
    simp only [suspend, Processor.fallback.injEq] at suspended
    obtain ⟨rfl, rfl, rfl⟩ := suspended
    exact ⟨handed, attempted⟩

/-- A poll of the batch's run that undoes no retry keeps both records. -/
theorem pollMerged (invariant : c.RetryInvariant) (batch : Batch) (startedAt : Nat)
    (snapshot : NativeWorkerSnapshot) (handed : ∀ itemId ∈ batch.ids, itemId ∈ c.handedOver)
    (kept : c.undoesRetry batch.ids snapshot = false) :
    (c.pollMerged batch startedAt snapshot).RetryInvariant := by
  obtain ⟨recorded, handedOver⟩ :=
    invariant.failures.mergeNativeSnapshot snapshot batch.ids handed kept
  simp only [Controller.pollMerged]
  split
  · refine watching (recorded.congr rfl rfl rfl rfl) batch (.inr ⟨_, _, _, rfl⟩) ?_
    intro itemId member
    change itemId ∈ (c.mergeNativeSnapshot snapshot batch.ids).handedOver
    rw [handedOver]
    exact handed itemId member
  · simp only [endBatch]
    exact finishProcessing (recorded.congr rfl rfl rfl rfl)

/-- Every way of handling an event keeps both records, as long as a polled
snapshot undoes no retry. -/
theorem handled {event : QueueEvent} {next : Controller}
    (handled : Handled c event next) (invariant : c.RetryInvariant)
    (engine : ∀ items, event = .progress items → System.admits (.progress items) = true)
    (kept : ∀ snapshot batch startedAt started lastSeenAt, event = .polled (some snapshot) →
        c.processor = .polling batch startedAt started lastSeenAt →
          snapshot.runId = batch.runId → c.undoesRetry batch.ids snapshot = false) :
    next.RetryInvariant := by
  have recorded := invariant.failures
  cases handled with
  | unchanged => exact invariant
  | flags => exact invariant.congr rfl rfl rfl rfl rfl
  | enqueued itemId track service quality => exact invariant.enqueue itemId track service quality
  | replaced itemId newItemId track service quality =>
    exact (invariant.removeLocal itemId).enqueue newItemId track service quality
  | removed itemId => exact invariant.removeLocal itemId
  | kicked => exact processQueue (invariant.congr rfl rfl rfl rfl rfl)
  | progressed items =>
    exact ⟨recorded.merge items (engine items rfl), invariant.attempts.congr rfl rfl rfl⟩
  | timerFired itemId timer pending named => exact named ▸ invariant.timerFired timer
  | threw => exact finishProcessing recorded
  | pausedAtStart => exact finishProcessing recorded
  | buildRequests | requestBuilt | requestsBuilt =>
    exact beforeHandover (recorded.congr rfl rfl rfl rfl) (by simp) (by simp)
  | withoutWorker queued => exact startFallbacks recorded
  | started batch settings =>
    have handed := recorded.handOver batch.ids
    simp only [onStarted]
    split
    · exact watching (handed.congr rfl rfl rfl rfl) batch (.inl rfl)
        fun itemId member => List.mem_append_right _ member
    · exact watching (handed.congr rfl rfl rfl rfl) batch (.inr ⟨_, _, _, rfl⟩)
        fun itemId member => List.mem_append_right _ member
  | pauseForwarded batch suspended =>
    exact watching (recorded.congr rfl rfl rfl rfl) batch (.inr ⟨_, _, _, rfl⟩)
      (invariant.attempts.batch batch (.inl suspended))
  | gaveUp batch =>
    simp only [giveUp]
    exact startFallbacks (recorded.congr rfl rfl rfl rfl)
  | merged batch startedAt started lastSeenAt snapshot suspended sameRun =>
    exact invariant.pollMerged batch startedAt snapshot
      (invariant.attempts.batch batch (.inr ⟨_, _, _, suspended⟩))
      (kept snapshot batch _ _ _ rfl suspended sameRun)
  | admissionDropped _ entry remaining => exact startFallbacks recorded
  | admitted _ entry remaining suspended =>
    obtain ⟨handed, attempted⟩ := invariant.attempts.current _ _ _ suspended
    exact fallingBack (recorded.setStatus entry.itemId .downloading {} (by simp))
      entry _ _ handed fun _ => attempted (by simp)
  | fallbackMoved _ entry point movedTo remaining suspended running =>
    obtain ⟨handed, attempted⟩ := invariant.attempts.current _ _ _ suspended
    exact fallingBack recorded entry _ _ handed fun _ => attempted running
  | fallbackSettled _ entry point remaining status details suspended running =>
    obtain ⟨handed, attempted⟩ := invariant.attempts.current _ _ _ suspended
    exact startFallbacks
      (recorded.setStatus entry.itemId status details fun _ => ⟨handed, attempted running⟩)
  | fallbackLimited _ entry remaining errorMsg suspended =>
    obtain ⟨handed, _⟩ := invariant.attempts.current _ _ _ suspended
    exact fallingBack (recorded.beginRateLimitRetry entry.itemId errorMsg handed)
      entry _ _ handed fun waiting => absurd rfl (waiting _)
  | backedOff entry deadline remaining suspended =>
    exact startFallbacks (recorded.endRateLimitRetry entry.itemId)

end RetryInvariant

end Controller

namespace System

/-- The step does not let a snapshot of the run that is still polled put a failed
status back on an entry that awaits its retry. -/
def retryKept (s : System) : SystemEvent → Bool
  | .poll _ true =>
    match s.controller.processor, s.service.snapshot with
    | .polling batch _ _ _, some snapshot =>
      snapshot.runId ≠ batch.runId || !s.controller.undoesRetry batch.ids snapshot
    | _, _ => true
  | _ => true

theorem retryInvariant_of_reachable {s : System} (reachable : machine.Reachable (retryKept · ·) s) :
    s.controller.RetryInvariant := by
  refine reachable.invariant (motive := fun s => s.controller.RetryInvariant) ?_ ?_
  · rintro state ⟨_, _, _, _, _, controller, _⟩
    rw [controller]
    exact .beforeHandover ⟨by simp, by simp, by simp⟩ (by simp) (by simp)
  · intro state event next _ invariant kept stepped
    cases stepped_of_step stepped with
    | queue time event controller admitted handled =>
      refine Controller.RetryInvariant.handled handled (invariant.congr rfl rfl rfl rfl rfl) ?_ ?_
      · rintro items rfl
        exact admitted
      · rintro snapshot _ _ _ _ rfl
        cases admitted
    | poll time readable controller handled =>
      refine Controller.RetryInvariant.handled handled (invariant.congr rfl rfl rfl rfl rfl) ?_ ?_
      · rintro items equal
        cases equal
      · intro snapshot batch _ _ _ equal suspended sameRun
        cases readable with
        | false => cases equal
        | true =>
          have read := (QueueEvent.polled.inj equal : state.service.snapshot = some snapshot)
          have polled : state.controller.processor = _ := suspended
          have untouched : state.controller.undoesRetry batch.ids snapshot = false := by
            simpa [retryKept, read, polled, sameRun] using kept
          exact untouched
    | deliver => exact invariant.congr rfl rfl rfl rfl rfl
    | service => exact invariant

/-- At rest, with no delay pending, no retried item has failed after one attempt. -/
def RetriesHonoured (s : System) : Prop :=
  s.controller.isProcessing = false → s.controller.timers = [] →
    ∀ e ∈ s.controller.entries, e.status = .failed →
      e.itemId ∈ s.controller.rateLimitRetriedItemIds → 2 ≤ s.controller.attempts e.itemId

/-- A poll puts no entry that awaits its retry back to `failed`. -/
def PollsKeepRetries (s : System) (time : Nat) (readable : Bool) : Prop :=
  ∀ next, machine.step s (.poll time readable) = some next →
    ∀ e ∈ next.controller.entries, e.status = .failed → s.controller.awaitsRetry e.itemId = true →
        ∃ before ∈ s.controller.entries, before.itemId = e.itemId ∧ before.status = .failed

theorem pollsKeepRetries {s : System} {time : Nat} {readable : Bool}
    (kept : retryKept s (.poll time readable) = true) : s.PollsKeepRetries time readable := by
  intro next stepped e member failed awaits
  cases stepped_of_step stepped with
  | poll _ _ controller handled =>
    generalize polled : QueueEvent.polled
      (if readable then s.service.snapshot else none) = event at handled
    cases handled with
    | unchanged | flags => exact ⟨e, member, rfl, failed⟩
    | kicked => exact ⟨e, by simpa using member, rfl, failed⟩
    | threw _ early => simp [← polled, QueueEvent.failsEarly] at early
    | gaveUp batch =>
      rcases Controller.mem_startFallbacks _ member with old | ⟨active, _⟩
      · exact ⟨e, old, rfl, failed⟩
      · simp [failed] at active
    | merged batch startedAt started lastSeenAt snapshot suspended sameRun =>
      cases readable with
      | false => cases polled
      | true =>
        have read := QueueEvent.polled.inj polled
        have watched : s.controller.processor = _ := suspended
        have untouched : s.controller.undoesRetry batch.ids snapshot = false := by
          simpa [retryKept, show s.service.snapshot = some snapshot from read, watched,
            sameRun] using kept
        refine Controller.mem_mergeNativeSnapshot_failed
          (c := { s.controller with now := time }) untouched ?_ failed awaits
        have ended := Controller.pollMerged_entries { s.controller with now := time }
          batch startedAt snapshot
        rwa [ended] at member
    | fallbackMoved => exact ⟨e, member, rfl, failed⟩
    | fallbackSettled _ _ _ _ status _ _ _ outcome =>
      obtain rfl | ⟨_, failing⟩ := outcome
      · rcases Controller.mem_startFallbacks _ member with set | ⟨active, _⟩
        · rcases Controller.mem_setStatus _ _ _ _ set with ⟨old, _⟩ | ⟨_, done⟩
          · exact ⟨e, old, rfl, failed⟩
          · simp [failed] at done
        · simp [failed] at active
      · simp [← polled, QueueEvent.fallbackFails] at failing
    | fallbackLimited _ _ _ _ _ failing =>
      simp [← polled, QueueEvent.fallbackFails] at failing
    | _ => cases polled

/-- Where no poll of a running batch undoes a retry, every retried item is
attempted again. -/
theorem retry_is_attempted {s : System} (reachable : machine.Reachable (retryKept · ·) s) :
    s.RetriesHonoured ∧ ∀ time readable, retryKept s (.poll time readable) = true →
        s.PollsKeepRetries time readable := by
  constructor
  · intro _ noTimer e member failed retried
    rcases (retryInvariant_of_reachable reachable).failures.retried e member failed retried with
      ⟨timer, pending, _⟩ | attempted
    · simp [noTimer] at pending
    · exact attempted
  · intro time readable kept
    exact pollsKeepRetries kept

/-- Two items are handed over together and the first is rate-limited while the
second still downloads. -/
def rateLimitedBesideAnother : List SystemEvent :=
  [.queue 0 .pause, .queue 0 (.enqueue "a" { id := "a" } none none),
    .queue 0 (.enqueue "b" { id := "b" } none none), .queue 0 .resume,
    .queue 0 (.resumeReturned true), .queue 0 (.hydrated true),
    .queue 0 (.requestBuilt true), .queue 0 (.requestBuilt true),
    .queue 0 (.startReturned true), .service (.deliver true),
    .service (.withSlot "a"), .service (.withSlot "b"),
    .service (.preflightReturned 1 false), .service (.callStarted 1),
    .service (.callReturned 1 (.returned { success := some false, error := some "HTTP 429" })),
    .poll 500 true, .queue 31000 (.rateLimitElapsed "a"), .poll 31000 true,
    .service (.preflightReturned 0 false), .service (.callStarted 0),
    .service (.callReturned 0 (.returned { success := some true })),
    .service (.postProcessed 0 (.processed "/b.flac")), .service .runEnded,
    .poll 31500 true]

/-- A retried item failed after one attempt, and nothing is left to do. -/
def strandsRetry (s : System) : Bool :=
  s.controller.isProcessing = false ∧ s.controller.timers = [] ∧
    ∃ e ∈ s.controller.entries, e.status = .failed ∧
      e.itemId ∈ s.controller.rateLimitRetriedItemIds ∧ s.controller.attempts e.itemId = 1

/-- The poll after the delay fails the queued retry, which never runs. -/
theorem retry_lost_beside_another :
    ¬∀ s, machine.Reachable Transition.Machine.anyStep s → s.RetriesHonoured := by
  intro honoured
  obtain ⟨final, reachable, checked⟩ :=
    machine.exists_reachable_of_run strandsRetry (start_simultaneous 2)
      (by decide +kernel : (machine.run _ rateLimitedBesideAnother).any strandsRetry = true)
  simp only [strandsRetry, decide_eq_true_eq] at checked
  obtain ⟨idle, noTimer, e, member, failed, retried, once⟩ := checked
  have twice := honoured final reachable idle noTimer e member failed retried
  omega

/-- One item is rate-limited in a run that ends at once, and again in the run of
its retry. -/
def rateLimitedAlone : List SystemEvent :=
  attempt 0 0 ++ [.queue 31000 (.rateLimitElapsed "a")] ++ attempt 31000 1
where
  /-- A run of the item that ends with HTTP 429 and is then polled. -/
  attempt (time run : Nat) : List SystemEvent :=
    (if run = 0 then [.queue time (.enqueue "a" { id := "a" } none none)] else []) ++
      [.queue time (.hydrated true), .queue time (.requestBuilt true),
        .queue time (.startReturned true), .service (.deliver true),
        .service (.withSlot "a"), .service (.preflightReturned 0 false),
        .service (.callStarted 0),
        .service (.callReturned 0 (.returned { success := some false, error := some "HTTP 429" })),
        .service .runEnded, .service .runStopped, .poll (time + 500) true]

/-- A retried item has failed, and nothing is left to do. -/
def failsAfterRetry (s : System) : Bool :=
  s.controller.isProcessing = false ∧ s.controller.timers = [] ∧
    ∃ e ∈ s.controller.entries, e.status = .failed ∧ e.itemId ∈ s.controller.rateLimitRetriedItemIds

/-- The item failed twice, after two attempts. -/
theorem retry_is_attempted_alone :
    ∃ s : System, s.RetriesHonoured ∧ s.controller.isProcessing = false ∧ s.controller.timers = [] ∧
        ∃ e ∈ s.controller.entries, e.status = .failed ∧
          e.itemId ∈ s.controller.rateLimitRetriedItemIds := by
  obtain ⟨final, reachable, checked⟩ :=
    machine.exists_reachable_of_runMeets failsAfterRetry start_default
      (by decide +kernel : machine.runMeets retryKept {} rateLimitedAlone = true)
      (by decide +kernel)
  simp only [failsAfterRetry, decide_eq_true_eq] at checked
  exact ⟨final, (retry_is_attempted reachable).1, checked⟩

end System
end LosslessMusic.Queue
