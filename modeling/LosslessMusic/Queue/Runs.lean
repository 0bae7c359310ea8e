import LosslessMusic.Queue.Identity
import LosslessMusic.Queue.ServiceRuns

/-!
# Run ids

A native run is named by its id in the controller's batch, in the intent that
starts it, in the service and in the snapshot file. All four mean the same
items, and a snapshot left over from an earlier process is none of them.
-/

namespace LosslessMusic.Queue

namespace Controller

variable {c : Controller}

/-- No run begins: an intent is old or starts the batch of the suspended call. -/
structure KeepsRuns (c next : Controller) : Prop where
  runs : next.nextRunId = c.nextRunId
  available : next.workerAvailable = c.workerAvailable
  native : next.processor.native = true → c.processor.native = true ∨ c.workerAvailable = true
  batch : ∀ batch, next.processor.batch = some batch → c.processor.batch = some batch
  sent : ∀ runId ids settings, .startQueue runId ids settings ∈ next.outbox →
    .startQueue runId ids settings ∈ c.outbox ∨
      ∃ batch, c.processor.batch = some batch ∧ batch.runId = runId ∧ batch.ids = ids

variable {next : Controller}

namespace KeepsRuns

/-- The wire is untouched and the batch is kept or dropped. -/
theorem of_wire (wire : next.wire = c.wire)
    (native : next.processor.native = true → c.processor.native = true)
    (batch : ∀ batch, next.processor.batch = some batch → c.processor.batch = some batch) :
    c.KeepsRuns next := by
  simp only [Controller.wire, Prod.mk.injEq] at wire
  obtain ⟨outbox, nextRunId, available⟩ := wire
  refine ⟨nextRunId, available, fun same => .inl (native same), batch, ?_⟩
  intro runId ids settings sent
  rw [outbox] at sent
  exact .inl sent

end KeepsRuns

/-- Every event keeps the runs, but for the call that has built all its requests. -/
theorem keepsRuns_of_handled {event : QueueEvent}
    (handled : Handled c event next) :
    c.KeepsRuns next ∨ ∃ queued remaining settings, c.processor = .building queued remaining ∧
        next =
          { c with
            processor := .starting ⟨queued, c.nextRunId⟩ settings
            nextRunId := c.nextRunId + 1 } := by
  cases handled with
  | unchanged | removed | progressed => exact .inl (.of_wire rfl id fun _ same => same)
  | flags _ _ _ _ _ _ intents pauses =>
    refine .inl ⟨rfl, rfl, .inl, fun _ same => same, ?_⟩
    intro runId ids settings sent
    rcases List.mem_append.mp sent with old | pause
    · exact .inl old
    · obtain ⟨_, equal⟩ := pauses _ pause
      cases equal
  | enqueued | replaced | kicked =>
    refine .inl (.of_wire ?_ ?_ ?_)
    · exact processQueue_wire _
    · intro same
      simpa [Controller.enqueue, Controller.removeLocal] using same
    · intro batch same
      simpa [Controller.enqueue, Controller.removeLocal] using same
  | timerFired =>
    refine .inl (.of_wire ?_ ?_ ?_)
    · exact endRateLimitRetry_wire _ _
    · intro same
      simpa using same
    · intro batch same
      simpa using same
  | threw | pausedAtStart | withoutWorker | admissionDropped | fallbackSettled | backedOff =>
    exact .inl (.of_wire (by simp) (by simp) (by simp))
  | buildRequests queued suspended available =>
    exact .inl ⟨rfl, rfl, fun _ => .inr available, by simp [Processor.batch],
      fun _ _ _ sent => .inl sent⟩
  | requestBuilt queued remaining rest suspended =>
    exact .inl (.of_wire rfl (by simp [suspended, Processor.native]) (by simp [Processor.batch]))
  | requestsBuilt queued remaining suspended =>
    exact .inr ⟨queued, remaining, _, suspended, rfl⟩
  | started batch settings suspended =>
    left
    have current : c.processor.batch = some batch := by
      rw [suspended]
      rfl
    unfold onStarted
    dsimp only
    split
    · refine ⟨rfl, rfl, ?_, ?_, ?_⟩
      · simp [suspended, Processor.native]
      · intro other same
        exact current.trans same
      · intro runId ids sentSettings sent
        simp only [List.mem_append, List.mem_singleton, ServiceIntent.startQueue.injEq,
          reduceCtorEq, or_false] at sent
        rcases sent with old | ⟨rfl, rfl, _⟩
        · exact .inl old
        · exact .inr ⟨batch, current, rfl, rfl⟩
    · refine ⟨rfl, rfl, ?_, ?_, ?_⟩
      · simp [suspended, Processor.native]
      · intro other same
        exact current.trans same
      · intro runId ids sentSettings sent
        simp only [startPolling, List.mem_append, List.mem_singleton,
          ServiceIntent.startQueue.injEq] at sent
        rcases sent with old | ⟨rfl, rfl, _⟩
        · exact .inl old
        · exact .inr ⟨batch, current, rfl, rfl⟩
  | pauseForwarded batch suspended =>
    refine .inl (.of_wire rfl (by simp [suspended, Processor.native]) ?_)
    intro other same
    rw [suspended]
    exact same
  | gaveUp =>
    unfold giveUp
    refine .inl (.of_wire ?_ (by simp) (by simp))
    exact startFallbacks_wire _ _
  | merged batch startedAt started lastSeenAt snapshot suspended =>
    refine .inl (.of_wire (by simp) (by simp [suspended, Processor.native]) ?_)
    intro other same
    simp only [pollMerged] at same
    split at same
    · rw [suspended]
      exact same
    · simp [endBatch] at same
  | admitted | fallbackMoved | fallbackLimited =>
    exact .inl (.of_wire rfl (by simp [suspend, Processor.native]) (by simp [suspend, Processor.batch]))

end Controller

namespace System

/-- All parties mean the items `book` gives a run of this process, whose ids begin
at `first`. -/
structure Booked (first : Nat) (book : Nat → List String) (s : System) : Prop where
  distinct : ∀ runId, (book runId).Nodup
  begun : first ≤ s.controller.nextRunId
  batch : ∀ batch, s.controller.processor.batch = some batch →
    first ≤ batch.runId ∧ batch.runId < s.controller.nextRunId ∧
      batch.ids = book batch.runId
  intent : ∀ runId ids settings, .startQueue runId ids settings ∈ s.controller.outbox →
    first ≤ runId ∧ runId < s.controller.nextRunId ∧ ids = book runId
  run : s.service.jobActive = true →
    first ≤ s.service.currentRunId ∧ s.service.currentRunId < s.controller.nextRunId ∧
      s.service.runIds = book s.service.currentRunId
  file : ∀ snapshot, s.service.snapshot = some snapshot → snapshot.runId < first ∨
      (snapshot.runId < s.controller.nextRunId ∧
        Service.Shows snapshot snapshot.runId (book snapshot.runId))

namespace Booked

variable {first : Nat} {book : Nat → List String} {s : System}

theorem keepRuns {controller : Controller} (booked : Booked first book s)
    (kept : s.controller.KeepsRuns controller) : Booked first book { s with controller } := by
  refine ⟨booked.distinct, ?_, ?_, ?_, ?_, ?_⟩
  · rw [kept.runs]
    exact booked.begun
  · intro batch current
    rw [kept.runs]
    exact booked.batch batch (kept.batch batch current)
  · intro runId ids settings sent
    rw [kept.runs]
    rcases kept.sent runId ids settings sent with old | ⟨batch, current, rfl, rfl⟩
    · exact booked.intent runId ids settings old
    · exact booked.batch batch current
  · rw [kept.runs]
    exact booked.run
  · rw [kept.runs]
    exact booked.file

theorem beginRun (booked : Booked first book s) (processor : Processor)
    (batch : Batch) (current : processor.batch = some batch)
    (fresh : batch.runId = s.controller.nextRunId) (distinct : batch.ids.Nodup) :
    Booked first (Function.update book batch.runId batch.ids)
      { s with
        controller :=
          { s.controller with processor, nextRunId := s.controller.nextRunId + 1 } } := by
  have same : ∀ runId < s.controller.nextRunId,
      Function.update book batch.runId batch.ids runId = book runId := by
    intro runId known
    rw [Function.update_of_ne]
    omega
  refine ⟨?_, ?_, ?_, ?_, ?_, ?_⟩
  · intro runId
    by_cases begun : runId = batch.runId
    · rw [begun, Function.update_self]
      exact distinct
    · rw [Function.update_of_ne begun]
      exact booked.distinct runId
  · exact Nat.le_succ_of_le booked.begun
  · intro other otherCurrent
    obtain rfl := Option.some.inj (current.symm.trans otherCurrent)
    have begun := booked.begun
    refine ⟨by omega, ?_, by rw [Function.update_self]⟩
    change batch.runId < s.controller.nextRunId + 1
    omega
  · intro runId ids settings sent
    obtain ⟨from_, known, meant⟩ := booked.intent runId ids settings sent
    exact ⟨from_, Nat.lt_succ_of_lt known, meant.trans (same runId known).symm⟩
  · intro running
    obtain ⟨from_, known, meant⟩ := booked.run running
    exact ⟨from_, Nat.lt_succ_of_lt known, meant.trans (same _ known).symm⟩
  · intro snapshot published
    rcases booked.file snapshot published with stale | ⟨known, shows⟩
    · exact .inl stale
    · right
      refine ⟨Nat.lt_succ_of_lt known, ?_⟩
      rwa [same _ known]

theorem continueRun {service : Service} (booked : Booked first book s)
    (continues : Service.Continues s.service service) : Booked first book { s with service } := by
  refine ⟨booked.distinct, booked.begun, booked.batch, booked.intent, ?_, ?_⟩
  · intro running
    obtain ⟨from_, known, meant⟩ := booked.run (continues.job running)
    simp only [continues.run, continues.items]
    exact ⟨from_, known, meant⟩
  · intro snapshot published
    rcases continues.snapshot with same | ⟨running, written, writes, shows⟩
    · rw [same] at published
      exact booked.file snapshot published
    · obtain rfl := Option.some.inj (published.symm.trans writes)
      obtain ⟨_, known, meant⟩ := booked.run running
      rw [meant] at shows
      right
      rw [shows.run]
      exact ⟨known, shows⟩

/-- A delivered intent leaves the outbox and may begin its run in the service. -/
theorem deliver (booked : Booked first book s) (sound : s.service.Sound)
    {intent : ServiceIntent} {outbox : List ServiceIntent}
    (sent : s.controller.outbox = intent :: outbox) (networkAllowed : Bool) :
    Booked first book
        { controller := { s.controller with outbox }
          service := s.service.onStartCommand networkAllowed intent } ∧
      (s.service.onStartCommand networkAllowed intent).Sound := by
  have taken : Booked first book { s with controller := { s.controller with outbox } } := by
    refine booked.keepRuns ⟨rfl, rfl, .inl, fun _ same => same, ?_⟩
    intro runId ids settings member
    left
    rw [sent]
    exact List.mem_cons_of_mem _ member
  cases intent with
  | setPaused paused =>
    have advances := Service.Advances.setPaused sound paused
    exact ⟨taken.continueRun advances.continues, advances.sound⟩
  | startQueue runId requests settings =>
    obtain ⟨from_, known, meant⟩ := booked.intent runId requests settings (by simp [sent])
    rcases Service.startQueueInternal_cases sound runId
        (meant ▸ booked.distinct runId) settings networkAllowed with
      refused | ⟨_, started, begun, startedSound, run, items, snapshot, published, shows⟩
    · simp only [Service.onStartCommand, refused]
      exact ⟨taken, sound⟩
    · simp only [Service.onStartCommand, begun]
      refine ⟨⟨taken.distinct, taken.begun, taken.batch, taken.intent, ?_, ?_⟩, startedSound⟩
      · intro _
        simp only [run, items]
        exact ⟨from_, known, meant⟩
      · intro other otherPublished
        obtain rfl := Option.some.inj (published.symm.trans otherPublished)
        rw [meant] at shows
        right
        rw [shows.run]
        exact ⟨known, shows⟩

end Booked

variable {guard : System → SystemEvent → Prop}

/-- In every reachable state the service is sound and the books can be kept. -/
theorem booked_of_reachable {s : System}
    (reachable : machine.Reachable guard s) :
    s.service.Sound ∧ ∃ first book, Booked first book s := by
  refine reachable.invariant
    (motive := fun s => s.service.Sound ∧ ∃ first book, Booked first book s) ?_ ?_
  · rintro state ⟨_, _, _, nextRunId, snapshot, controller, service, stale⟩
    refine ⟨?_, nextRunId, fun _ => [], ?_⟩
    · rw [service]
      exact ⟨rfl, by simp [Service.runIds], by simp, by simp, by simp⟩
    · refine ⟨by simp, by simp [controller], by simp [controller, Processor.batch],
        by simp [controller], by simp [service], ?_⟩
      intro left published
      rw [service] at published
      exact .inl (stale left published)
  · rintro state event next before ⟨sound, first, book, booked⟩ _ stepped
    have handled_booked {time : Nat} {event : QueueEvent} {controller : Controller}
        (handled : Controller.Handled { state.controller with now := time } event controller) :
        ∃ first book, Booked first book { state with controller } := by
      rcases Controller.keepsRuns_of_handled handled with
        kept | ⟨queued, remaining, settings, suspended, rfl⟩
      · exact ⟨first, book, booked.keepRuns
          ⟨kept.runs, kept.available, kept.native, kept.batch, kept.sent⟩⟩
      · have identified := wellIdentified_of_reachable before
        have current : state.controller.processor = .building queued remaining := suspended
        have distinct : (queued.map DownloadEntry.itemId).Nodup := by
          simpa [Controller.takenIds, current, Processor.taken] using identified.takenDistinct
        have begun := booked.beginRun (.starting ⟨queued, state.controller.nextRunId⟩ settings)
          ⟨queued, state.controller.nextRunId⟩ rfl rfl distinct
        exact ⟨first, _, begun.keepRuns
          ⟨rfl, rfl, .inl, fun _ same => same, fun _ _ _ sent => .inl sent⟩⟩
    cases stepped_of_step stepped with
    | queue time event controller _ handled => exact ⟨sound, handled_booked handled⟩
    | poll time readable controller handled => exact ⟨sound, handled_booked handled⟩
    | deliver networkAllowed intent outbox sent =>
      obtain ⟨delivered, deliveredSound⟩ := booked.deliver sound sent networkAllowed
      exact ⟨deliveredSound, first, book, delivered⟩
    | service event service moved =>
      have advances := Service.Advances.step sound moved
      exact ⟨advances.sound, first, book, booked.continueRun advances.continues⟩

/-- A snapshot of the batch's run lists exactly the batch, and if it ends the run,
nothing in progress. -/
theorem shows_batch {s : System}
    (reachable : machine.Reachable guard s) {batch : Batch} {snapshot : NativeWorkerSnapshot}
    (current : s.controller.processor.batch = some batch)
    (published : s.service.snapshot = some snapshot) (sameRun : snapshot.runId = batch.runId) :
    Service.Shows snapshot batch.runId batch.ids := by
  obtain ⟨_, first, book, booked⟩ := booked_of_reachable reachable
  obtain ⟨from_, _, meant⟩ := booked.batch batch current
  rcases booked.file snapshot published with stale | ⟨_, shows⟩
  · omega
  · rwa [sameRun, ← meant] at shows

end System
end LosslessMusic.Queue
