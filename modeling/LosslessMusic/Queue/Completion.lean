import LosslessMusic.Queue.Identity

/-!
# Completed entries

`_applyNativeItemState`, `_mergeEntry` and the start of a fallback leave a
terminal entry alone. `_setStatus` does not ask: a delayed retry and the later
steps of a Dart fallback also write to an entry that was completed meanwhile.
-/

namespace LosslessMusic.Queue

namespace Controller

variable {c : Controller}

/-- The item has a completed entry. -/
def isDone (c : Controller) (itemId : String) : Bool :=
  c.entries.any fun e => e.itemId = itemId && e.status = .done

/-- The item of the suspended Dart fallback is already completed. -/
def currentDone (c : Controller) : Bool :=
  match c.processor with
  | .fallback next _ _ => c.isDone next.itemId
  | _ => false

/-- The suspended Dart fallback goes on to another attempt at its item. -/
def resumesAttempt (c : Controller) : QueueEvent → Bool
  | .admission networkAllowed => !c.manualPaused && (!c.wifiOnly || networkAllowed)
  | .backoffElapsed => true
  | _ => false

/-- The event writes another status to a completed entry: the delay of its retry
ends, or its Dart fallback fails or begins another attempt. -/
def reopens (c : Controller) (event : QueueEvent) : Bool :=
  (c.currentDone && (event.fallbackFails || c.resumesAttempt event)) ||
    match event with
    | .rateLimitElapsed itemId => c.isDone itemId
    | _ => false

/-- Every entry of the item is completed. -/
def Completed (c : Controller) (itemId : String) : Prop :=
  ∀ e ∈ c.entries, e.itemId = itemId → e.status = .done

namespace Completed

variable {itemId : String}

theorem not_active (completed : c.Completed itemId) {e : DownloadEntry}
    (member : e ∈ c.entries) (same : e.itemId = itemId) : e.status.terminal = true := by
  rw [completed e member same]
  rfl

theorem congr {next : Controller} (completed : c.Completed itemId)
    (entries : next.entries = c.entries) : next.Completed itemId := by
  unfold Completed
  rwa [entries]

/-- A status may be set when it is `done`, or when the item has no completed entry. -/
theorem setStatus (completed : c.Completed itemId) {target : String}
    {status : EntryStatus} {details : StatusDetails}
    (allowed : status = .done ∨ c.isDone target = false) :
    (c.setStatus target status details).Completed itemId := by
  intro e member same
  rcases c.mem_setStatus target status details member with ⟨old, _⟩ | ⟨named, written⟩
  · exact completed e old same
  · rcases allowed with done | absent
    · rw [written, done]
    · -- The written entry stood for a completed one.
      simp only [Controller.setStatus, List.mem_map] at member
      obtain ⟨before, beforeMember, equal⟩ := member
      have sameId : before.itemId = target := by
        by_contra other
        rw [if_neg other] at equal
        exact other (equal ▸ named)
      have done := completed before beforeMember (by rw [sameId, ← named, same])
      simp only [isDone, List.any_eq_false, Bool.and_eq_true, decide_eq_true_eq] at absent
      exact absurd ⟨sameId, done⟩ (absent before beforeMember)

theorem startFallbacks (completed : c.Completed itemId) {entries : List DownloadEntry} :
    (c.startFallbacks entries).Completed itemId := by
  intro e member same
  rcases c.mem_startFallbacks member with old | ⟨_, before, present, equal, unfinished⟩
  · exact completed e old same
  · have finished := completed.not_active present (equal.trans same)
    rw [unfinished] at finished
    cases finished

theorem endRateLimitRetry (completed : c.Completed itemId) {target : String}
    (allowed : c.isDone target = false) : (c.endRateLimitRetry target).Completed itemId := by
  rcases c.endRateLimitRetry_cases target with same | requeued
  · rwa [same]
  · rw [requeued]
    have queued : (c.setStatus target .queued).Completed itemId :=
      completed.setStatus (.inr allowed)
    exact queued.congr (by simp)

theorem mergeNativeSnapshot (completed : c.Completed itemId)
    (snapshot : NativeWorkerSnapshot) (ids : List String) :
    (c.mergeNativeSnapshot snapshot ids).Completed itemId := by
  obtain ⟨pendingPause, manualPaused, ⟨_, flagged⟩ | merged⟩ :=
    c.mergeNativeSnapshot_cases snapshot ids
  · rw [flagged]
    exact completed.congr rfl
  · have applied :
        ({ c with pendingPause, manualPaused }.mergeItems snapshot ids).Completed itemId := by
      intro e member same
      simp only [mergeItems, List.mem_map] at member
      obtain ⟨before, present, rfl⟩ := member
      have done := completed before present (by
        split at same
        · simpa using same
        · exact same)
      split
      · exact applyNativeItemState_done done
      · exact done
    rw [merged]
    intro e member same
    rcases mem_scheduleAll _ _ member with old | ⟨_, before, present, equal, failed⟩
    · exact applied e old same
    · rw [applied before present (equal.trans same)] at failed
      cases failed

theorem enqueue (completed : c.Completed itemId) (known : itemId ∈ c.issuedIds)
    {newItemId : String} {track : Track} {service quality : Option String}
    (fresh : newItemId ∉ c.issuedIds) :
    (c.enqueue newItemId track service quality).Completed itemId := by
  intro e member same
  simp only [Controller.enqueue, processQueue_entries, List.mem_cons] at member
  rcases member with rfl | old
  · rw [← same] at known
    exact absurd known fresh
  · exact completed e old same

theorem removeLocal (completed : c.Completed itemId) (removed : String) :
    (c.removeLocal removed).Completed itemId :=
  fun e member => completed e (List.mem_filter.mp member).1

theorem merge (completed : c.Completed itemId) (items : List DownloadProgress) :
    (c.merge items).Completed itemId := by
  intro e member same
  simp only [Controller.merge, List.mem_map] at member
  obtain ⟨before, present, rfl⟩ := member
  rw [mergeEntry_itemId] at same
  have done := completed before present same
  rwa [mergeEntry_of_terminal (by simp [done])]

/-- An event that does not reopen a completed entry keeps completed items so. -/
theorem handled {event : QueueEvent} {next : Controller}
    (handled : Handled c event next) (completed : c.Completed itemId)
    (known : itemId ∈ c.issuedIds) (kept : c.reopens event = false) : next.Completed itemId := by
  simp only [reopens, Bool.or_eq_false_iff, Bool.and_eq_false_iff] at kept
  obtain ⟨fallback, timer⟩ := kept
  have current {entry : DownloadEntry} {point : FallbackPoint} {remaining : List DownloadEntry}
      (suspended : c.processor = .fallback entry point remaining)
      (writes : event.fallbackFails = true ∨ c.resumesAttempt event = true) :
      c.isDone entry.itemId = false := by
    rcases fallback with unfinished | ⟨succeeds, ends⟩
    · simpa [currentDone, suspended] using unfinished
    · simp [succeeds, ends] at writes
  cases handled with
  | unchanged => exact completed
  | flags => exact completed.congr rfl
  | enqueued _ _ _ _ fresh => exact completed.enqueue known fresh
  | replaced target _ _ _ _ fresh => exact (completed.removeLocal target).enqueue known fresh
  | removed target => exact completed.removeLocal target
  | kicked => exact completed.congr (by simp)
  | progressed items => exact completed.merge items
  | timerFired target =>
    refine endRateLimitRetry ?_ timer
    exact completed.congr rfl
  | threw | pausedAtStart => exact completed.congr (by simp)
  | buildRequests | requestBuilt | requestsBuilt | pauseForwarded =>
    exact completed.congr rfl
  | withoutWorker => exact completed.startFallbacks
  | started =>
    refine completed.congr ?_
    unfold onStarted
    dsimp only
    split <;> rfl
  | gaveUp =>
    unfold giveUp
    refine startFallbacks ?_
    exact completed.congr rfl
  | merged batch startedAt _ _ snapshot =>
    exact (completed.mergeNativeSnapshot snapshot batch.ids).congr
      (c.pollMerged_entries batch startedAt snapshot)
  | admissionDropped => exact completed.startFallbacks
  | admitted _ entry remaining suspended allowed =>
    exact (completed.setStatus (.inr (current suspended (.inr allowed)))).congr rfl
  | fallbackMoved => exact completed.congr rfl
  | fallbackSettled _ entry _ _ status details suspended _ outcome =>
    refine startFallbacks (completed.setStatus ?_)
    rcases outcome with done | ⟨_, failing⟩
    · exact .inl done
    · exact .inr (current suspended (.inl failing))
  | fallbackLimited _ entry _ _ suspended failing =>
    exact (completed.setStatus (.inr (current suspended (.inl failing)))).congr rfl
  | backedOff entry _ _ suspended =>
    exact startFallbacks (completed.endRateLimitRetry (current suspended (.inr rfl)))

end Completed

end Controller

namespace System

/-- The step does not reopen a completed entry. -/
def keepsCompleted (s : System) : SystemEvent → Bool
  | .queue time event => !Controller.reopens { s.controller with now := time } event
  | _ => true

/-- What a completed item keeps along a run: all its entries are completed, and its
id is not given again. -/
structure StaysCompleted (s : System) (itemId : String) : Prop where
  completed : s.controller.Completed itemId
  known : itemId ∈ s.controller.issuedIds

/-- A step that reopens no completed entry keeps a completed item so. -/
theorem StaysCompleted.step {s next : System} {event : SystemEvent} {itemId : String}
    (stays : s.StaysCompleted itemId) (kept : keepsCompleted s event = true)
    (stepped : machine.step s event = some next) : next.StaysCompleted itemId := by
  obtain ⟨completed, known⟩ := stays
  cases stepped_of_step stepped with
  | queue time event controller admitted handled =>
    refine ⟨.handled handled (completed.congr rfl) known ?_,
      Controller.issued_of_handled handled known⟩
    simpa [keepsCompleted] using kept
  | poll time readable controller handled =>
    refine ⟨.handled handled (completed.congr rfl) known ?_,
      Controller.issued_of_handled handled known⟩
    simp [Controller.reopens, QueueEvent.fallbackFails, Controller.resumesAttempt]
  | deliver => exact ⟨completed.congr rfl, known⟩
  | service => exact ⟨completed, known⟩

/-- A completed entry stays completed along every run that reopens none: from any
reachable state on, its item has no entry of another status. -/
theorem completed_entry_stays {s final : System}
    (reachable : machine.Reachable Transition.Machine.anyStep s)
    (path : machine.Path (keepsCompleted · ·) s final)
    {e : DownloadEntry} (present : e ∈ s.controller.entries) (done : e.status = .done) :
    ∀ later ∈ final.controller.entries, later.itemId = e.itemId → later.status = .done := by
  have identified := wellIdentified_of_reachable reachable
  have starts : s.StaysCompleted e.itemId := by
    refine ⟨?_, identified.issued e.itemId (List.mem_map_of_mem present)⟩
    intro other member same
    have equal : other = e := List.inj_on_of_nodup_map identified.distinct member present same
    rw [equal, done]
  have stays := path.preserves (motive := fun s => s.StaysCompleted e.itemId) starts
    fun _ _ _ stays kept stepped => stays.step kept stepped
  exact stays.completed

/-- The service's file cannot be read for half a minute while a rate-limited item
waits for its retry; the Dart fallback completes it, and then the delay ends. -/
def completedBeforeRetry : List SystemEvent :=
  [.queue 0 (.enqueue "a" { id := "a" } none none), .queue 0 (.hydrated true),
    .queue 0 (.requestBuilt true), .queue 0 (.startReturned true),
    .service (.deliver true), .service (.withSlot "a"),
    .service (.preflightReturned 0 false), .service (.callStarted 0),
    .service (.callReturned 0 (.returned
      { success := some false, error := some "HTTP 429"
        retryAfterSeconds := some 300 })),
    .poll 500 true, .poll 31000 false, .queue 31000 (.directoryResolved none),
    .queue 60000 (.transferReturned (.returned
      { success := some true, filePath := some "/a.flac" })),
    .queue 60000 (.finished (.finished none))]

/-- Late progress of the item, another track, and a pause. -/
def lateNews : List SystemEvent :=
  [.queue 60500 (.progress [{ itemId := "a", status := "downloading" }]),
    .queue 61000 (.enqueue "b" { id := "b" } none none), .queue 61000 .pause]

/-- An item is completed, and late news can follow that reopen nothing. -/
def staysCompleted (s : System) : Bool :=
  s.controller.entries.any (·.status = .done) && machine.runMeets keepsCompleted s lateNews &&
    (machine.run s lateNews).isSome

/-- The late news leave the completed entry alone. -/
theorem completed_entry_stays_on_late_news : ∃ s final, machine.run s lateNews = some final ∧
      ∃ e ∈ s.controller.entries, e.status = .done ∧
        ∀ later ∈ final.controller.entries, later.itemId = e.itemId → later.status = .done := by
  obtain ⟨s, reachable, checked⟩ := machine.exists_reachable_of_run staysCompleted start_default
      (by decide +kernel : (machine.run {} completedBeforeRetry).any staysCompleted = true)
  simp only [staysCompleted, Bool.and_eq_true, List.any_eq_true, decide_eq_true_eq] at checked
  obtain ⟨⟨⟨e, present, done⟩, kept⟩, ran⟩ := checked
  obtain ⟨final, ended⟩ := Option.isSome_iff_exists.mp ran
  exact ⟨s, final, ended, e, present, done,
    completed_entry_stays reachable (Transition.Machine.path_of_run ended kept) present done⟩

/-- The end of the delay, about four minutes later. -/
def retryOfCompleted : SystemEvent :=
  .queue 301000 (.rateLimitElapsed "a")

/-- The end of the delay queues the entry of a completed item. -/
def reopensCompleted (s : System) : Bool :=
  (machine.step s retryOfCompleted).any fun next =>
    ∃ e ∈ s.controller.entries, e.status = .done ∧
      ∃ later ∈ next.controller.entries, later.itemId = e.itemId ∧ later.status = .queued

/-- The retry requeues the completed entry. -/
theorem completed_entry_reopened : ¬∀ s event next, machine.Reachable Transition.Machine.anyStep s →
      machine.step s event = some next → ∀ e ∈ s.controller.entries, e.status = .done →
        ∀ later ∈ next.controller.entries, later.itemId = e.itemId → later.status = .done := by
  intro keeps
  obtain ⟨s, reachable, checked⟩ := machine.exists_reachable_of_run reopensCompleted start_default
      (by decide +kernel : (machine.run {} completedBeforeRetry).any reopensCompleted = true)
  obtain ⟨next, stepped, found⟩ := (Option.any_eq_true _ _).mp checked
  simp only [decide_eq_true_eq] at found
  obtain ⟨e, present, done, later, member, same, queued⟩ := found
  have kept := keeps s retryOfCompleted next reachable stepped e present done later member same
  rw [queued] at kept
  cases kept

end System
end LosslessMusic.Queue
