import LosslessMusic.Queue.Runs

/-!
# Entries in progress

`_processQueue` takes up queued entries only, so an entry shown in progress needs
an executor that will settle it: the suspended call, or the end of a delay. Late
engine progress can put an entry in progress that has neither, and a call that
ends before handing its entries over can leave one behind.
-/

namespace LosslessMusic.Queue

namespace Controller

variable {c : Controller}

/-- The delay of a retry of the item is pending. -/
def hasTimer (c : Controller) (itemId : String) : Bool :=
  c.timers.any (·.itemId = itemId)

/-- The suspended call works on the item, or a delay for it is pending. -/
def attended (c : Controller) (itemId : String) : Bool :=
  c.hasTimer itemId || c.takenIds.contains itemId

/-- Progress that shows a queued, unattended entry in progress. -/
def revives (c : Controller) (items : List DownloadProgress) : Bool :=
  !c.nativeRunStopped && c.entries.any fun e =>
    e.status = .queued && !c.attended e.itemId &&
      (items.reverse.find? (·.itemId = e.itemId)).any fun p =>
        (mapStatus p.status .queued).active

/-- The entries that the suspended call lets go of before handing them over. -/
def letGo (c : Controller) (event : QueueEvent) : List DownloadEntry :=
  if event.failsEarly then c.processor.taken
  else match c.processor, event with
    | .hydrating queued, .hydrated true =>
      if c.manualPaused then queued
      else if c.workerAvailable then []
      else queued.drop 1
    | _, _ => []

/-- The event leaves an entry in progress behind that nothing attends to. -/
def strands (c : Controller) (event : QueueEvent) : Bool :=
  (match event with
    | .progress items => c.revives items
    | _ => false) ||
  (c.letGo event).any fun taken =>
    !c.hasTimer taken.itemId && c.entries.any fun e => e.itemId = taken.itemId && e.status.active

/-- Every entry in progress is one of `ids` or has a delay pending. -/
def CoveredBy (c : Controller) (ids : List String) : Prop :=
  ∀ e ∈ c.entries, e.status.active = true → c.hasTimer e.itemId = true ∨ e.itemId ∈ ids

/-- Every entry in progress is attended to. -/
def Covered (c : Controller) : Prop :=
  c.CoveredBy c.takenIds

/-! ## What the updates keep -/

variable {next : Controller} {snapshot : NativeWorkerSnapshot}

namespace CoveredBy

variable {ids : List String}

theorem mono (covered : c.CoveredBy ids) {more : List String} (subset : ids ⊆ more) :
    c.CoveredBy more := by
  intro e member active
  exact (covered e member active).imp id fun inIds => subset inIds

theorem congr (covered : c.CoveredBy ids)
    (entries : next.entries = c.entries) (timers : next.timers = c.timers) :
    next.CoveredBy ids := by
  unfold CoveredBy hasTimer at *
  rwa [entries, timers]

theorem setStatus (covered : c.CoveredBy ids) {itemId : String} {status : EntryStatus}
    {details : StatusDetails}
    (attended : status.active = true → c.hasTimer itemId = true ∨ itemId ∈ ids) :
    (c.setStatus itemId status details).CoveredBy ids := by
  intro e member active
  rcases c.mem_setStatus itemId status details member with ⟨old, _⟩ | ⟨same, written⟩
  · exact covered e old active
  · rw [same]
    exact attended (written ▸ active)

theorem drop (others : List String) (covered : c.CoveredBy (others ++ ids))
    (settled : ∀ e ∈ c.entries, e.itemId ∈ others → e.status.active = false) : c.CoveredBy ids := by
  intro e member active
  rcases covered e member active with timed | inIds
  · exact .inl timed
  · rcases List.mem_append.mp inIds with inOthers | rest
    · rw [settled e member inOthers] at active
      cases active
    · exact .inr rest

/-- Items that are let go of need no cover when a delay covers what is in progress. -/
theorem letGo {event : QueueEvent} (kept : c.strands event = false)
    (covered : c.CoveredBy ((c.letGo event).map DownloadEntry.itemId ++ ids)) :
    c.CoveredBy ids := by
  intro e member active
  rcases covered e member active with timed | inIds
  · exact .inl timed
  · rcases List.mem_append.mp inIds with dropped | rest
    · left
      simp only [strands, Bool.or_eq_false_iff, List.any_eq_false] at kept
      obtain ⟨taken, takenMember, same⟩ := List.mem_map.mp dropped
      have timed := kept.2 taken takenMember
      rw [same] at timed
      by_contra untimed
      apply timed
      simp only [Bool.and_eq_true, Bool.not_eq_true', List.any_eq_true, decide_eq_true_eq]
      exact ⟨by simpa using untimed, e, member, rfl, active⟩
    · exact .inr rest

/-- The retries of a merged snapshot come with their delays. -/
theorem scheduleAll (covered : c.CoveredBy ids) (entries : List DownloadEntry) :
    (entries.foldl scheduleRateLimitRetry c).CoveredBy ids := by
  refine List.foldlRecOn entries scheduleRateLimitRetry
    (motive := fun (next : Controller) => next.CoveredBy ids) covered ?_
  intro next nextCovered due _
  rcases next.scheduleRateLimitRetry_cases due with same | ⟨_, _, _, details, _, equal⟩
  · rwa [same]
  · rw [equal]
    intro e member active
    rcases next.mem_setStatus due.itemId .downloading details member with
      ⟨old, _⟩ | ⟨same, _⟩
    · rcases nextCovered e old active with timed | inIds
      · left
        simp only [hasTimer, List.any_cons, Bool.or_eq_true]
        exact .inr timed
      · exact .inr inIds
    · left
      simp [hasTimer, same]

theorem mergeRunning (covered : c.CoveredBy ids) (snapshot : NativeWorkerSnapshot) :
    (c.mergeNativeSnapshot snapshot ids).CoveredBy ids := by
  obtain ⟨pendingPause, manualPaused, ⟨_, flagged⟩ | merged⟩ :=
    c.mergeNativeSnapshot_cases snapshot ids
  · rw [flagged]
    exact covered.congr rfl rfl
  · rw [merged]
    apply scheduleAll
    intro e member active
    simp only [mergeItems, List.mem_map] at member
    obtain ⟨before, present, rfl⟩ := member
    by_cases inBatch : before.itemId ∈ ids
    · rw [if_pos inBatch, applyNativeItemState_itemId]
      exact .inr inBatch
    · rw [if_neg inBatch] at active ⊢
      exact covered before present active

theorem mergeEnded (covered : c.CoveredBy ids)
    {runId : Nat} (shows : Service.Shows snapshot runId ids) (ended : snapshot.isRunning = false) :
    (c.mergeNativeSnapshot snapshot ids).CoveredBy [] := by
  obtain ⟨pendingPause, manualPaused, ⟨absent, flagged⟩ | merged⟩ :=
    c.mergeNativeSnapshot_cases snapshot ids
  · have empty : ids = [] := by
      rw [← shows.items] at absent ⊢
      rw [List.map_eq_nil_iff, List.eq_nil_iff_forall_not_mem]
      intro item member
      exact absent item member (List.mem_map_of_mem member)
    rw [flagged, ← empty]
    exact covered.congr rfl rfl
  · rw [merged]
    apply scheduleAll
    intro e member active
    simp only [mergeItems, List.mem_map] at member
    obtain ⟨before, present, rfl⟩ := member
    left
    by_cases inBatch : before.itemId ∈ ids
    · -- The item is listed, and not in progress.
      rw [if_pos inBatch] at active
      have listed : before.itemId ∈ snapshot.items.map NativeWorkerItemState.itemId := by
        rwa [shows.items]
      rw [applyNativeItemState_not_active (snapshotItem_settled listed (shows.ended ended))]
        at active
      cases active
    · rw [if_neg inBatch] at active ⊢
      exact (covered before present active).resolve_right inBatch

/-- Progress shows only attended items in progress, unless it revives one. -/
theorem merge (covered : c.CoveredBy c.takenIds) {items : List DownloadProgress}
    (admitted : System.admits (.progress items) = true) (kept : c.revives items = false) :
    (c.merge items).CoveredBy c.takenIds := by
  intro e member active
  simp only [Controller.merge, List.mem_map] at member
  obtain ⟨before, present, rfl⟩ := member
  rw [mergeEntry_itemId]
  by_cases wasActive : before.status.active = true
  · exact covered before present wasActive
  · -- The entry was queued, so the progress is what shows it in progress.
    rcases System.mergeEntry_engine admitted c.nativeRunStopped before with
      same | ⟨unfinished, unguarded, _⟩
    · rw [same] at active
      exact absurd active wasActive
    · have queued : before.status = .queued := by
        rcases before.status.cases_kind with queued | inProgress | terminal
        · exact queued
        · exact absurd inProgress wasActive
        · rw [unfinished] at terminal
          cases terminal
      have running : c.nativeRunStopped = false := by
        by_contra stopped
        exact unguarded ⟨by simpa using stopped, queued⟩
      simp only [revives, running, Bool.not_false, Bool.true_and, List.any_eq_false] at kept
      have untouched := kept before present
      cases found : items.reverse.find? (·.itemId = before.itemId) with
      | none =>
        simp [mergeEntry, found, queued, running] at active
      | some p =>
        have mapped : (mapStatus p.status .queued).active = true := by
          simpa [mergeEntry, found, queued, running] using active
        have attends : c.hasTimer before.itemId = false → before.itemId ∈ c.takenIds := by
          simpa [queued, found, mapped, attended] using untouched
        by_cases timed : c.hasTimer before.itemId = true
        · exact .inl timed
        · exact .inr (attends (by simpa using timed))

end CoveredBy

namespace Covered

theorem processQueue (covered : c.Covered) : c.processQueue.Covered := by
  rcases c.processQueue_cases with same | ⟨idle, _, equal⟩
  · rwa [same]
  · have noneTaken : c.takenIds = [] := by
      simp [takenIds, idle, Processor.taken]
    rw [equal]
    unfold Covered at covered
    rw [noneTaken] at covered
    exact (covered.mono (List.nil_subset _)).congr rfl rfl

theorem finishProcessing {continueProcessing : Bool} (covered : c.CoveredBy []) :
    (c.finishProcessing continueProcessing).Covered :=
  (covered.mono (List.nil_subset _)).congr (by simp) (by simp)

/-- The fallback loop attends to the items it was given. -/
theorem startFallbacks {entries : List DownloadEntry}
    (covered : c.CoveredBy (entries.map DownloadEntry.itemId)) :
    (c.startFallbacks entries).Covered := by
  have settled {skipped : List DownloadEntry} (terminal : ∀ earlier ∈ skipped, ∀ e ∈ c.entries,
        e.itemId = earlier.itemId → e.status.terminal = true) :
      ∀ e ∈ c.entries, e.itemId ∈ skipped.map DownloadEntry.itemId → e.status.active = false := by
    intro e member inSkipped
    obtain ⟨earlier, earlierMember, same⟩ := List.mem_map.mp inSkipped
    have past := terminal earlier earlierMember e member same.symm
    cases status : e.status <;> simp [status] at past ⊢
  rcases c.startFallbacks_cases entries with ⟨ended, terminal⟩ | found
  · rw [ended]
    apply finishProcessing
    refine CoveredBy.drop _ ?_ (settled terminal)
    rwa [List.append_nil]
  · obtain ⟨skipped, next, remaining, split, terminal, _, begun⟩ := found
    rw [split, List.map_append] at covered
    have rest := covered.drop _ (settled terminal)
    have current : next.itemId ∈ (next :: remaining).map DownloadEntry.itemId := by simp
    rw [begun]
    have handed : { c with handedOver := c.handedOver ++ [next.itemId] }.CoveredBy
        ((next :: remaining).map DownloadEntry.itemId) := rest.congr rfl rfl
    have downloading : ({ c with handedOver := c.handedOver ++ [next.itemId] }.setStatus next.itemId
          .downloading).CoveredBy ((next :: remaining).map DownloadEntry.itemId) :=
      handed.setStatus fun _ => .inr current
    rcases c.beginFallback_cases next remaining with waiting | running
    · rw [waiting]
      exact CoveredBy.setStatus downloading (by simp)
    · rw [running]
      exact downloading

theorem resuspend (covered : c.Covered)
    (entries : next.entries = c.entries) (timers : next.timers = c.timers)
    (taken : c.takenIds ⊆ next.takenIds) : next.Covered :=
  (covered.mono taken).congr entries timers

/-- A poll of the batch's run keeps every entry in progress attended to. -/
theorem pollMerged {batch : Batch} {startedAt : Nat} (covered : c.CoveredBy batch.ids)
    (shows : Service.Shows snapshot batch.runId batch.ids) :
    (c.pollMerged batch startedAt snapshot).Covered := by
  simp only [Controller.pollMerged]
  split
  · exact covered.mergeRunning snapshot
  next past =>
    unfold endBatch
    refine finishProcessing ?_
    exact (covered.mergeEnded shows (by simpa using past)).congr rfl rfl

/-- An event that strands no entry keeps every entry in progress attended to. -/
theorem handled {event : QueueEvent} (handled : Handled c event next) (covered : c.Covered)
    (engine : ∀ items, event = .progress items → System.admits (.progress items) = true)
    (kept : c.strands event = false) (shows : ∀ batch snapshot, c.processor.batch = some batch →
      event = .polled (some snapshot) → snapshot.runId = batch.runId →
        Service.Shows snapshot batch.runId batch.ids) : next.Covered := by
  have covers (taken : List DownloadEntry) (suspended : c.processor.taken = taken) :
      c.CoveredBy (taken.map DownloadEntry.itemId) := by
    simpa only [Covered, takenIds, suspended] using covered
  cases handled with
  | unchanged => exact covered
  | flags => exact covered.resuspend rfl rfl (List.Subset.refl _)
  | enqueued =>
    refine processQueue ?_
    intro e member active
    rcases List.mem_cons.mp member with rfl | old
    · cases active
    · exact covered e old active
  | replaced itemId =>
    refine processQueue ?_
    intro e member active
    rcases List.mem_cons.mp member with rfl | old
    · cases active
    · exact covered e (List.mem_filter.mp old).1 active
  | removed =>
    intro e member active
    exact covered e (List.mem_filter.mp member).1 active
  | kicked => exact processQueue (covered.resuspend rfl rfl (List.Subset.refl _))
  | progressed items =>
    simp only [strands, Bool.or_eq_false_iff] at kept
    exact CoveredBy.merge covered (engine items rfl) kept.1
  | timerFired itemId timer pending named =>
    unfold Controller.endRateLimitRetry
    split
    next present =>
      refine processQueue ?_
      intro e member active
      rcases mem_setStatus _ _ _ _ member with ⟨old, other⟩ | ⟨_, queued⟩
      · rcases covered e old active with timed | inIds
        · left
          simp only [hasTimer, List.any_eq_true, decide_eq_true_eq] at timed ⊢
          obtain ⟨kept, keptMember, same⟩ := timed
          have different : kept ≠ timer := by
            rintro rfl
            exact other (same ▸ named)
          exact ⟨kept, (List.mem_erase_of_ne different).mpr keptMember, same⟩
        · exact .inr inIds
      · simp [queued] at active
    next absent =>
      intro e member active
      rcases covered e member active with timed | inIds
      · left
        simp only [hasTimer, List.any_eq_true, decide_eq_true_eq] at timed ⊢
        obtain ⟨kept, keptMember, same⟩ := timed
        have different : kept ≠ timer := by
          rintro rfl
          simp only [has, List.any_eq_true, decide_eq_true_eq, not_exists, not_and] at absent
          exact absent e member (same ▸ named)
        exact ⟨kept, (List.mem_erase_of_ne different).mpr keptMember, same⟩
      · exact .inr inIds
  | threw _ early =>
    refine finishProcessing (CoveredBy.letGo kept ?_)
    rw [List.append_nil]
    exact covers _ (by simp [Controller.letGo, early])
  | pausedAtStart queued suspended paused =>
    refine finishProcessing (CoveredBy.letGo kept ?_)
    rw [List.append_nil]
    exact covers _
      (by simp [Controller.letGo, QueueEvent.failsEarly, suspended, paused, Processor.taken])
  | buildRequests _ suspended | requestBuilt _ _ _ suspended | requestsBuilt _ _ suspended =>
    exact covered.resuspend rfl rfl (by simp [takenIds, suspended, Processor.taken])
  | withoutWorker queued suspended unpaused unavailable =>
    refine startFallbacks (CoveredBy.letGo kept ?_)
    have all := covers queued (by simp [suspended, Processor.taken])
    refine all.mono ?_
    have dropped : c.letGo (.hydrated true) = queued.drop 1 := by
      simp [Controller.letGo, QueueEvent.failsEarly, suspended, unpaused, unavailable]
    rw [dropped, ← List.map_append]
    apply List.map_subset
    intro e member
    rw [← List.take_append_drop 1 queued] at member
    exact (List.perm_append_comm.mem_iff).mp member
  | started batch settings suspended =>
    have all : c.CoveredBy batch.ids := covers _ (by simp [suspended, Processor.taken])
    unfold onStarted
    dsimp only
    split
    · exact all
    · exact all
  | pauseForwarded batch suspended =>
    have all : c.CoveredBy batch.ids := covers _ (by simp [suspended, Processor.taken])
    exact all
  | gaveUp batch _ _ _ _ suspended =>
    unfold giveUp
    refine startFallbacks ?_
    exact covers _ (by simp [suspended, Processor.taken])
  | merged batch _ _ _ snapshot suspended sameRun =>
    have all : c.CoveredBy batch.ids := covers _ (by simp [suspended, Processor.taken])
    refine pollMerged all (shows batch snapshot ?_ rfl sameRun)
    simp [suspended, Processor.batch]
  | admissionDropped _ entry remaining suspended gone =>
    refine startFallbacks (CoveredBy.drop [entry.itemId] ?_ ?_)
    · exact covers (entry :: remaining) (by simp [suspended, Processor.taken])
    · intro e member same
      simp only [has, List.any_eq_false, decide_eq_true_eq] at gone
      exact absurd (List.mem_singleton.mp same) (gone e member)
  | admitted _ entry remaining suspended | fallbackLimited _ entry remaining _ suspended =>
    have all := covers (entry :: remaining) (by simp [suspended, Processor.taken])
    exact CoveredBy.setStatus all fun _ => .inr (by simp)
  | fallbackMoved _ entry _ _ remaining suspended =>
    exact covered.resuspend rfl rfl (by simp [takenIds, suspended, suspend, Processor.taken])
  | fallbackSettled _ entry _ remaining status details suspended _ outcome =>
    have settles : status.active = false := by
      rcases outcome with rfl | ⟨rfl, _⟩ <;> rfl
    have all := covers (entry :: remaining) (by simp [suspended, Processor.taken])
    refine startFallbacks (CoveredBy.drop [entry.itemId] ?_ ?_)
    · exact CoveredBy.setStatus all (by simp [settles])
    · intro e member same
      rcases mem_setStatus _ _ _ _ member with ⟨_, other⟩ | ⟨_, written⟩
      · exact absurd (List.mem_singleton.mp same) other
      · rw [written, settles]
  | backedOff entry deadline remaining suspended =>
    have all := covers (entry :: remaining) (by simp [suspended, Processor.taken])
    refine startFallbacks (CoveredBy.drop [entry.itemId] ?_ ?_)
    · rcases c.endRateLimitRetry_cases entry.itemId with same | requeued
      · rw [same]
        exact all
      · rw [requeued]
        have queued : (c.setStatus entry.itemId .queued).CoveredBy
            ((entry :: remaining).map DownloadEntry.itemId) := all.setStatus (by simp)
        exact queued.congr (by simp) (by simp)
    · intro e member same
      unfold Controller.endRateLimitRetry at member
      split at member
      · rw [processQueue_entries] at member
        rcases mem_setStatus _ _ _ _ member with ⟨_, other⟩ | ⟨_, written⟩
        · exact absurd (List.mem_singleton.mp same) other
        · rw [written]
          rfl
      next absent =>
        simp only [has, List.any_eq_true, decide_eq_true_eq, not_exists, not_and] at absent
        exact absurd (List.mem_singleton.mp same) (absent e member)

end Covered

end Controller

namespace System

/-- The step leaves no entry in progress behind that nothing attends to. -/
def strandsNothing (s : System) : SystemEvent → Bool
  | .queue time event => !Controller.strands { s.controller with now := time } event
  | _ => true

theorem covered_of_reachable {s : System}
    (reachable : machine.Reachable (strandsNothing · ·) s) : s.controller.Covered := by
  refine reachable.invariant (motive := fun s => s.controller.Covered) ?_ ?_
  · rintro state ⟨_, _, _, _, _, controller, _⟩
    rw [controller]
    intro e member
    cases member
  · intro state event next before covered kept stepped
    cases stepped_of_step stepped with
    | queue time event controller admitted handled =>
      refine Controller.Covered.handled handled covered ?_ (by simpa [strandsNothing] using kept) ?_
      · rintro items rfl
        exact admitted
      · rintro batch snapshot _ rfl
        cases admitted
    | poll time readable controller handled =>
      refine Controller.Covered.handled handled covered ?_ ?_ ?_
      · rintro items equal
        cases equal
      · simp [Controller.strands, Controller.letGo, QueueEvent.failsEarly]
      · intro batch snapshot current equal sameRun
        cases readable with
        | false => cases equal
        | true => exact shows_batch before current (QueueEvent.polled.inj equal) sameRun
    | deliver => exact covered
    | service => exact covered

/-- No call is suspended and no delay is pending. -/
def Quiescent (s : System) : Prop :=
  s.controller.isProcessing = false ∧ s.controller.timers = []

/-- Every entry waits, is completed or has failed. -/
def Settled (s : System) : Prop :=
  ∀ e ∈ s.controller.entries, e.status = .queued ∨ e.status = .done ∨ e.status = .failed

/-- Where no step strands an entry, every entry in progress is attended to, and at
rest none is in progress. -/
theorem settled_at_rest {s : System} (reachable : machine.Reachable (strandsNothing · ·) s) :
    (∀ e ∈ s.controller.entries, e.status.active = true → s.controller.attended e.itemId = true) ∧
      (s.Quiescent → s.Settled) := by
  have covered := covered_of_reachable reachable
  constructor
  · intro e member active
    rcases covered e member active with timed | taken
    · simp [Controller.attended, timed]
    · simp [Controller.attended, taken]
  · rintro ⟨idle, noTimer⟩ e member
    rcases e.status.cases_kind with queued | active | terminal
    · exact .inl queued
    · have processor : s.controller.processor = .idle := by
        unfold Controller.isProcessing at idle
        split at idle
        · assumption
        · cases idle
      rcases covered e member active with timed | taken
      · simp [Controller.hasTimer, noTimer] at timed
      · simp [Controller.takenIds, processor, Processor.taken] at taken
    · right
      cases status : e.status <;> simp [status] at terminal ⊢

/-- A rate-limited item is requeued while the queue is paused, and progress of its
first attempt arrives late. -/
def lateProgressWhilePaused : List SystemEvent :=
  [.queue 0 (.enqueue "a" { id := "a" } none none), .queue 0 (.hydrated true),
    .queue 0 (.requestBuilt true), .queue 0 (.startReturned true),
    .service (.deliver true), .service (.withSlot "a"),
    .service (.preflightReturned 0 false), .service (.callStarted 0),
    .service (.callReturned 0 (.returned { success := some false, error := some "HTTP 429" })),
    .service .runEnded, .service .runStopped, .poll 500 true, .queue 1000 .pause,
    .queue 31000 (.rateLimitElapsed "a"),
    .queue 31100 (.progress [{ itemId := "a", status := "downloading" }])]

/-- At rest an entry is in progress. -/
def restsInProgress (s : System) : Bool :=
  s.controller.isProcessing = false ∧ s.controller.timers = [] ∧
    ∃ e ∈ s.controller.entries, e.status = .downloading

/-- The late progress shows the waiting entry in progress for ever. -/
theorem late_progress_strands :
    ¬∀ s, machine.Reachable Transition.Machine.anyStep s → s.Quiescent → s.Settled := by
  intro settles
  obtain ⟨final, reachable, checked⟩ :=
    machine.exists_reachable_of_run restsInProgress start_default
      (by decide +kernel : (machine.run {} lateProgressWhilePaused).any restsInProgress = true)
  simp only [restsInProgress, decide_eq_true_eq] at checked
  obtain ⟨idle, noTimer, e, member, downloading⟩ := checked
  have settled := settles final reachable ⟨idle, noTimer⟩ e member
  simp [downloading] at settled

/-- The same item, with progress of its first attempt only while that lasts. -/
def progressInTime : List SystemEvent :=
  [.queue 0 (.enqueue "a" { id := "a" } none none), .queue 0 (.hydrated true),
    .queue 0 (.requestBuilt true), .queue 0 (.startReturned true),
    .service (.deliver true), .service (.withSlot "a"),
    .service (.preflightReturned 0 false), .service (.callStarted 0),
    .queue 400 (.progress [{ itemId := "a", status := "downloading" }]),
    .service (.callReturned 0 (.returned { success := some false, error := some "HTTP 429" })),
    .service .runEnded, .service .runStopped, .poll 500 true, .queue 1000 .pause,
    .queue 31000 (.rateLimitElapsed "a")]

/-- At rest there is an entry. -/
def restsWithEntry (s : System) : Bool :=
  s.controller.isProcessing = false ∧ s.controller.timers = [] ∧ s.controller.entries ≠ []

/-- In this run the entry waits. -/
theorem settled_at_rest_in_time :
    ∃ s : System, s.Quiescent ∧ s.controller.entries ≠ [] ∧ s.Settled := by
  obtain ⟨final, reachable, checked⟩ :=
    machine.exists_reachable_of_runMeets restsWithEntry start_default
      (by decide +kernel : machine.runMeets strandsNothing {} progressInTime = true)
      (by decide +kernel)
  simp only [restsWithEntry, decide_eq_true_eq] at checked
  obtain ⟨idle, noTimer, nonempty⟩ := checked
  exact ⟨final, ⟨idle, noTimer⟩, nonempty, (settled_at_rest reachable).2 ⟨idle, noTimer⟩⟩

end System
end LosslessMusic.Queue
