import LosslessMusic.Queue.Runs

/-!
# Engine calls of one item

Both executors call `downloadByStrategy`. Within a run each item has one block,
and the fallback works on one item at a time; so two calls of one item can only
meet when a run is accepted over a call that a stop left alive, or when one
executor takes up an item that the other still has.
-/

namespace LosslessMusic.Queue

/-- The block is in the engine call or can still enter it. -/
def Block.mayCall (block : Block) : Bool :=
  match block.point with
  | .preflight => block.active
  | .checked | .calling => true
  | .postProcessing => false

namespace Service

variable {s next : Service}

/-- Blocks of an item that are in the engine call or can still enter it. -/
def callers (s : Service) (itemId : String) : Nat :=
  s.blocks.countP fun block => block.itemId = itemId && block.mayCall

/-- Requests of an item that the running worker has still to admit. -/
def waiting (s : Service) (itemId : String) : Nat :=
  if s.jobActive then s.pending.count itemId else 0

/-- Engine calls of an item in progress. -/
def liveCalls (s : Service) (itemId : String) : Nat :=
  s.blocks.countP fun block => block.itemId = itemId && block.point = .calling

/-- What the service can still call for an item. -/
def load (s : Service) (itemId : String) : Nat :=
  s.callers itemId + s.waiting itemId

theorem liveCalls_le_load (s : Service) (itemId : String) : s.liveCalls itemId ≤ s.load itemId := by
  refine Nat.le_trans ?_ (Nat.le_add_right _ _)
  apply List.countP_mono_left
  intro block _ calling
  simp only [Bool.and_eq_true, decide_eq_true_eq] at calling ⊢
  refine ⟨calling.1, ?_⟩
  rw [Block.mayCall, calling.2]

/-! ## The load of an item never grows inside a run -/

/-- The load of every item stays or shrinks. -/
def Unloads (s next : Service) : Prop :=
  ∀ itemId, next.load itemId ≤ s.load itemId

namespace Unloads

theorem trans {middle : Service} (first : s.Unloads middle) (second : middle.Unloads next) :
    s.Unloads next :=
  fun itemId => (second itemId).trans (first itemId)

theorem silent (blocks : next.blocks = s.blocks) (pending : next.pending = s.pending)
    (job : next.jobActive = s.jobActive) : s.Unloads next := by
  intro itemId
  simp only [load, callers, waiting, blocks, pending, job]
  exact Nat.le_refl _

theorem writeSnapshot (s : Service) (isRunning : Bool) : s.Unloads (s.writeSnapshot isRunning) := by
  unfold Service.writeSnapshot
  split
  · exact silent rfl rfl rfl
  · exact silent rfl rfl rfl

theorem settle (s : Service) (itemId : String)
    (update : NativeWorkerItemState → NativeWorkerItemState) :
    s.Unloads (s.settle itemId update) := by
  refine Unloads.trans ?_ (writeSnapshot _ true)
  unfold updateItem
  split
  · exact silent rfl rfl rfl
  · exact silent rfl rfl rfl

theorem dropBlock (s : Service) (index : Nat) : s.Unloads (s.dropBlock index) := by
  intro itemId
  have fewer : (s.dropBlock index).callers itemId ≤ s.callers itemId :=
    (List.eraseIdx_sublist s.blocks index).countP_le
  exact Nat.add_le_add_right fewer _

theorem moveBlock {index : Nat} {block : Block} (here : s.blocks[index]? = some block)
    {point : BlockPoint}
    (noNewChance : ({ block with point } : Block).mayCall = true → block.mayCall = true) :
    s.Unloads (s.moveBlock index block point) := by
  intro itemId
  obtain ⟨bound, atIndex⟩ := List.getElem?_eq_some_iff.mp here
  have counted : (s.moveBlock index block point).callers itemId ≤ s.callers itemId := by
    simp only [callers, Service.moveBlock]
    rw [List.countP_set bound, atIndex]
    have included := List.boole_getElem_le_countP
      (p := fun block : Block => block.itemId = itemId && block.mayCall) bound
    rw [atIndex] at included
    by_cases calls : ({ block with point } : Block).mayCall = true
    · have before := noNewChance calls
      simp only [calls, before, Bool.and_true] at included ⊢
      omega
    · simp only [calls, Bool.and_false, Bool.false_eq_true, if_false]
      omega
  exact Nat.add_le_add_right counted _

theorem stopForegroundService (s : Service) : s.Unloads s.stopForegroundService := by
  intro itemId
  have cancelled : ∀ blocks : List Block,
      (blocks.map fun block => { block with active := false }).countP
          (fun block => block.itemId = itemId && block.mayCall) ≤
        blocks.countP fun block => block.itemId = itemId && block.mayCall := by
    intro blocks
    rw [List.countP_map]
    apply List.countP_mono_left
    intro block _ calls
    simp only [Function.comp_apply, Bool.and_eq_true, decide_eq_true_eq] at calls ⊢
    refine ⟨calls.1, ?_⟩
    have may := calls.2
    cases point : block.point <;> simp [Block.mayCall, point] at may ⊢
  have stopped : s.stopForegroundService.callers itemId ≤ s.callers itemId := by
    unfold Service.stopForegroundService callers
    split
    · exact cancelled s.blocks
    · simp only [writeSnapshot_blocks]
      exact cancelled s.blocks
  have idle : s.stopForegroundService.waiting itemId = 0 := by
    simp [waiting, Service.stopForegroundService]
  simp only [load, idle]
  omega

theorem withSlot {itemId : String} (admitted : s.withSlot itemId = some next) : s.Unloads next := by
  unfold Service.withSlot at admitted
  split at admitted
  next free =>
    cases admitted
    simp only [Bool.and_eq_true, List.contains_iff_mem] at free
    have running := free.1.1.1.1
    have member := free.1.2
    have moved : s.Unloads
        { s with
          pending := s.pending.erase itemId
          blocks := ⟨itemId, .preflight, true⟩ :: s.blocks } := by
      intro other
      simp only [load, callers, waiting, running, if_true, List.countP_cons]
      by_cases same : other = itemId
      · subst same
        have some := List.count_pos_iff.mpr member
        rw [List.count_erase_self]
        simp only [Block.mayCall, decide_true, Bool.and_true, if_true]
        omega
      · have others : (s.pending.erase itemId).count other = s.pending.count other :=
          List.count_erase_of_ne same
        have different : ¬itemId = other := fun equal => same equal.symm
        simp only [others, different, decide_false, Bool.false_and, Bool.false_eq_true, if_false]
        omega
    exact moved.trans (settle _ itemId fun item => { item with status := .downloading })
  next => cases admitted

theorem step {event : ServiceEvent} (stepped : s.step event = some next) : s.Unloads next := by
  unfold Service.step at stepped
  split at stepped
  · cases stepped
  · cases stepped
    exact stopForegroundService s
  next allowed =>
    cases stepped
    exact Unloads.trans (silent rfl rfl rfl) (writeSnapshot (s.setNetwork allowed) true)
  · exact withSlot stepped
  next index duplicate =>
    obtain ⟨block, found, rfl⟩ := Option.map_eq_some_iff.mp stepped
    have at_preflight : block.point = .preflight := by
      simpa using (Option.filter_eq_some_iff.mp found).2
    unfold onPreflight
    split
    · exact dropBlock s index
    next active =>
      split
      · exact (settle s block.itemId _).trans (dropBlock _ index)
      · refine moveBlock (blockAt_eq found) fun _ => ?_
        simpa [Block.mayCall, at_preflight] using active
  next index =>
    obtain ⟨block, found, rfl⟩ := Option.map_eq_some_iff.mp stepped
    have at_check : block.point = .checked := by
      simpa using (Option.filter_eq_some_iff.mp found).2
    exact moveBlock (blockAt_eq found) fun _ => by rw [Block.mayCall, at_check]
  next index bytesReceived bytesTotal =>
    obtain ⟨block, _, progressed⟩ := Option.bind_eq_some_iff.mp stepped
    split at progressed
    · cases progressed
      exact settle s block.itemId _
    · cases progressed
  next index outcome =>
    obtain ⟨block, found, rfl⟩ := Option.map_eq_some_iff.mp stepped
    unfold onCallReturned
    split
    · exact dropBlock s index
    · have settled := settle s block.itemId (settleCall · outcome)
      split
      · refine settled.trans (moveBlock ?_ (by simp [Block.mayCall]))
        rw [settle_blocks]
        exact blockAt_eq found
      · exact settled.trans (dropBlock _ index)
  next index outcome =>
    obtain ⟨block, _, rfl⟩ := Option.map_eq_some_iff.mp stepped
    unfold onPostProcessed
    split
    · exact dropBlock s index
    · exact (settle s block.itemId _).trans (dropBlock _ index)
  · split at stepped
    · cases stepped
      exact Unloads.trans (silent rfl rfl rfl) (writeSnapshot { s with ending := true } false)
    · cases stepped
  · split at stepped
    · cases stepped
      exact stopForegroundService s
    · cases stepped

theorem setPaused (s : Service) (paused : Bool) : s.Unloads (s.setPaused paused) := by
  unfold Service.setPaused
  split
  · exact silent rfl rfl rfl
  · exact Unloads.trans (silent rfl rfl rfl) (writeSnapshot { s with manualPaused := paused } true)

end Unloads

theorem startQueueInternal_load (s : Service) (runId : Nat) {requests : List String}
    (distinct : requests.Nodup) (settings : RunSettings) (networkAllowed : Bool) (itemId : String) :
    (s.startQueueInternal runId requests settings networkAllowed).load itemId ≤ s.load itemId ∨
      (s.jobActive = false ∧ itemId ∈ requests ∧
        (s.startQueueInternal runId requests settings networkAllowed).load itemId ≤
          s.callers itemId + 1) := by
  unfold startQueueInternal
  split
  · exact .inl (Nat.le_refl _)
  next free =>
    simp only [Bool.or_eq_true, not_or, Bool.not_eq_true] at free
    by_cases named : itemId ∈ requests
    · right
      refine ⟨free.2, named, ?_⟩
      have once := List.count_eq_one_of_mem distinct named
      simp [load, callers, waiting, setNetwork, Service.writeSnapshot, once]
    · left
      have none := List.count_eq_zero_of_not_mem named
      simp [load, callers, waiting, setNetwork, Service.writeSnapshot, none]

end Service

/-! ## The items of the Dart fallback -/

namespace Controller

variable {c next : Controller}

/-- The items the suspended fallback loop still works on. -/
def fallbackIds (c : Controller) : List String :=
  match c.processor with
  | .fallback current _ remaining => (current :: remaining).map DownloadEntry.itemId
  | _ => []

/-- Engine calls of an item that the fallback has in progress. -/
def liveCalls (c : Controller) (itemId : String) : Nat :=
  match c.processor with
  | .fallback current .transfer _ => if current.itemId = itemId then 1 else 0
  | _ => 0

theorem liveCalls_le (c : Controller) (itemId : String) :
    c.liveCalls itemId ≤ if itemId ∈ c.fallbackIds then 1 else 0 := by
  unfold liveCalls
  split
  next current remaining suspended =>
    split
    next same =>
      have works : itemId ∈ c.fallbackIds := by
        simp [fallbackIds, suspended, same]
      rw [if_pos works]
    next => exact Nat.zero_le _
  next => exact Nat.zero_le _

theorem processQueue_fallbackIds (c : Controller) : c.processQueue.fallbackIds = c.fallbackIds := by
  rcases c.processQueue_cases with same | ⟨idle, _, equal⟩
  · rw [same]
  · rw [equal]
    simp [fallbackIds, idle]

theorem finishProcessing_fallbackIds (c : Controller) (continueProcessing : Bool) :
    (c.finishProcessing continueProcessing).fallbackIds = [] := by
  obtain ⟨_, _, _, equal, ⟨rfl, _⟩ | ⟨rfl, _⟩⟩ := c.finishProcessing_eq continueProcessing
  · rw [equal]
    rfl
  · rw [equal]
    rfl

theorem startFallbacks_fallbackIds (c : Controller) (entries : List DownloadEntry) :
    (c.startFallbacks entries).fallbackIds ⊆ entries.map DownloadEntry.itemId := by
  rcases c.startFallbacks_cases entries with ⟨ended, _⟩ | found
  · rw [ended, finishProcessing_fallbackIds]
    exact List.nil_subset _
  · obtain ⟨skipped, current, remaining, split, _, _, begun⟩ := found
    have works : (c.startFallbacks entries).fallbackIds =
        (current :: remaining).map DownloadEntry.itemId := by
      rw [begun]
      rcases c.beginFallback_cases current remaining with waiting | running
      · rw [waiting]
        rfl
      · rw [running]
        rfl
    rw [works, split, List.map_append]
    exact List.subset_append_right _ _

/-- The watchdog gives up on the run of the suspended batch. -/
def givesUp (c : Controller) (time : Nat) (snapshot : Option NativeWorkerSnapshot) :
    Option Batch :=
  match c.processor with
  | .polling batch startedAt started lastSeenAt =>
    if (snapshot.all fun seen => seen.runId ≠ batch.runId) &&
        time - (if started then lastSeenAt else startedAt) > stallLimit then some batch
    else none
  | _ => none

/-- The fallback takes up new items only when the watchdog gives up, or where there
is no native worker. -/
theorem fallbackIds_of_handled {event : QueueEvent} (handled : Handled c event next) :
    next.fallbackIds ⊆ c.fallbackIds ∨ c.workerAvailable = false ∨
      ∃ snapshot batch, event = .polled snapshot ∧ c.givesUp c.now snapshot = some batch ∧
        next.fallbackIds ⊆ batch.ids := by
  cases handled with
  | unchanged | flags | removed | progressed => exact .inl (List.Subset.refl _)
  | enqueued | replaced =>
    left
    intro itemId works
    simp only [Controller.enqueue] at works
    rwa [processQueue_fallbackIds] at works
  | kicked =>
    left
    rw [processQueue_fallbackIds]
    exact List.Subset.refl _
  | timerFired itemId timer =>
    left
    rcases endRateLimitRetry_cases { c with timers := c.timers.erase timer } itemId with
      same | requeued
    · rw [same]
      exact List.Subset.refl _
    · rw [requeued, processQueue_fallbackIds]
      exact List.Subset.refl _
  | threw | pausedAtStart =>
    left
    rw [finishProcessing_fallbackIds]
    exact List.nil_subset _
  | buildRequests | requestBuilt | requestsBuilt | pauseForwarded =>
    exact .inl (List.nil_subset _)
  | withoutWorker queued suspended unpaused unavailable => exact .inr (.inl unavailable)
  | started =>
    left
    unfold onStarted
    dsimp only
    split
    · exact List.nil_subset _
    · exact List.nil_subset _
  | gaveUp batch startedAt started lastSeenAt snapshot suspended unseen stalled =>
    right; right
    refine ⟨snapshot, batch, rfl, ?_, startFallbacks_fallbackIds _ batch.queued⟩
    simp only [givesUp, suspended]
    rw [if_pos]
    simp only [Bool.and_eq_true, decide_eq_true_eq, Option.all_eq_true]
    exact ⟨unseen, stalled⟩
  | merged batch startedAt started lastSeenAt snapshot suspended =>
    left
    unfold pollMerged
    dsimp only
    split
    · exact List.nil_subset _
    · unfold endBatch
      rw [finishProcessing_fallbackIds]
      exact List.nil_subset _
  | admissionDropped _ _ _ suspended | fallbackSettled _ _ _ _ _ _ suspended
  | backedOff _ _ _ suspended =>
    left
    refine List.Subset.trans (startFallbacks_fallbackIds _ _) ?_
    simp [fallbackIds, suspended]
  | admitted _ _ _ suspended | fallbackMoved _ _ _ _ _ suspended
  | fallbackLimited _ _ _ _ suspended =>
    left
    simp [fallbackIds, suspended, suspend]

end Controller

namespace System

/-- Engine calls of an item in progress, of both executors. -/
def liveCalls (s : System) (itemId : String) : Nat :=
  s.service.liveCalls itemId + s.controller.liveCalls itemId

/-- The step hands an item to an executor while the other one, or a call of a stopped
run, still has it. -/
def handsOutTwice (s : System) : SystemEvent → Bool
  | .service (.deliver _) =>
    match s.controller.outbox with
    | .startQueue _ ids _ :: _ =>
      !s.service.jobActive && ids.any fun itemId =>
        0 < s.service.callers itemId || s.controller.fallbackIds.contains itemId
    | _ => false
  | .poll time readable =>
    (s.controller.givesUp time (if readable then s.service.snapshot else none)).any fun batch =>
      batch.ids.any fun itemId => 0 < s.service.load itemId
  | _ => false

/-- The step hands out no item twice. -/
def handsOutOnce (s : System) (event : SystemEvent) : Bool :=
  !s.handsOutTwice event

/-- Without a native worker the service is never asked to run anything. -/
structure NativeOnly (s : System) : Prop where
  call : s.controller.processor.native = true → s.controller.workerAvailable = true
  intent : ∀ runId ids settings, .startQueue runId ids settings ∈ s.controller.outbox →
    s.controller.workerAvailable = true
  load : ∀ itemId, 0 < s.service.load itemId → s.controller.workerAvailable = true

/-- At most one executor can call the engine for an item. -/
structure Exclusive (s : System) : Prop where
  native : ∀ itemId, s.service.load itemId ≤ 1
  dart : ∀ itemId ∈ s.controller.fallbackIds, s.service.load itemId = 0

theorem Exclusive.liveCalls_le_one {s : System} (exclusive : s.Exclusive) (itemId : String) :
    s.liveCalls itemId ≤ 1 := by
  have native := exclusive.native itemId
  have calls := s.service.liveCalls_le_load itemId
  have dart := s.controller.liveCalls_le itemId
  unfold liveCalls
  by_cases works : itemId ∈ s.controller.fallbackIds
  · have free := exclusive.dart itemId works
    rw [if_pos works] at dart
    omega
  · rw [if_neg works] at dart
    omega

theorem nativeOnly_of_reachable {guard : System → SystemEvent → Prop} {s : System}
    (reachable : machine.Reachable guard s) : s.NativeOnly := by
  refine reachable.invariant (motive := fun s => s.NativeOnly) ?_ ?_
  · rintro state ⟨_, _, _, _, _, controller, service, _⟩
    refine ⟨?_, ?_, ?_⟩
    · rw [controller]
      simp [Processor.native]
    · rw [controller]
      simp
    · rw [service]
      simp [Service.load, Service.callers, Service.waiting]
  · intro state event next before nativeOnly _ stepped
    have handled_native {time : Nat} {event : QueueEvent} {controller : Controller}
        (handled : Controller.Handled { state.controller with now := time } event controller) :
        NativeOnly { state with controller } := by
      rcases Controller.keepsRuns_of_handled handled with
        kept | ⟨queued, remaining, settings, suspended, rfl⟩
      · have available : controller.workerAvailable = state.controller.workerAvailable :=
          kept.available
        refine ⟨?_, ?_, ?_⟩
        · intro native
          rw [available]
          rcases kept.native native with was | worker
          · exact nativeOnly.call was
          · exact worker
        · intro runId ids settings sent
          rw [available]
          rcases kept.sent runId ids settings sent with old | ⟨batch, current, _⟩
          · exact nativeOnly.intent runId ids settings old
          · exact nativeOnly.call (Processor.native_of_batch current)
        · intro itemId loaded
          rw [available]
          exact nativeOnly.load itemId loaded
      · have worker := nativeOnly.call (by
          have current : state.controller.processor = .building queued remaining := suspended
          rw [current]
          rfl)
        exact ⟨fun _ => worker, fun _ _ _ _ => worker, fun _ _ => worker⟩
    cases stepped_of_step stepped with
    | queue time event controller _ handled => exact handled_native handled
    | poll time readable controller handled => exact handled_native handled
    | deliver networkAllowed intent outbox sent =>
      refine ⟨nativeOnly.call, ?_, ?_⟩
      · intro runId ids settings member
        refine nativeOnly.intent runId ids settings ?_
        rw [sent]
        exact List.mem_cons_of_mem _ member
      · intro itemId loaded
        cases intent with
        | setPaused paused =>
          exact nativeOnly.load itemId
            (Nat.lt_of_lt_of_le loaded (Service.Unloads.setPaused state.service paused itemId))
        | startQueue runId ids settings =>
          exact nativeOnly.intent runId ids settings (by simp [sent])
    | service event service moved =>
      refine ⟨nativeOnly.call, nativeOnly.intent, ?_⟩
      intro itemId loaded
      exact nativeOnly.load itemId (Nat.lt_of_lt_of_le loaded (Service.Unloads.step moved itemId))

theorem exclusive_of_reachable {s : System}
    (reachable : machine.Reachable (handsOutOnce · ·) s) : s.Exclusive := by
  refine reachable.invariant (motive := fun s => s.Exclusive) ?_ ?_
  · rintro state ⟨_, _, _, _, _, controller, service, _⟩
    refine ⟨?_, ?_⟩
    · rw [service]
      simp [Service.load, Service.callers, Service.waiting]
    · rw [controller]
      simp [Controller.fallbackIds]
  · intro state event next before exclusive kept stepped
    have nativeOnly := nativeOnly_of_reachable before
    have unavailable_free (worker : state.controller.workerAvailable = false) (itemId : String) :
        state.service.load itemId = 0 := by
      by_contra loaded
      have available := nativeOnly.load itemId (Nat.pos_of_ne_zero loaded)
      rw [worker] at available
      cases available
    cases stepped_of_step stepped with
    | queue time event controller admitted handled =>
      refine ⟨exclusive.native, ?_⟩
      intro itemId works
      rcases Controller.fallbackIds_of_handled handled with
        fewer | unavailable | ⟨snapshot, batch, rfl, _⟩
      · exact exclusive.dart itemId (fewer works)
      · exact unavailable_free unavailable itemId
      · cases admitted
    | poll time readable controller handled =>
      refine ⟨exclusive.native, ?_⟩
      intro itemId works
      rcases Controller.fallbackIds_of_handled handled with
        fewer | unavailable | ⟨snapshot, batch, polled, gaveUp, taken⟩
      · exact exclusive.dart itemId (fewer works)
      · exact unavailable_free unavailable itemId
      · cases polled
        by_contra loaded
        have given : state.controller.givesUp time
            (if readable then state.service.snapshot else none) = some batch := gaveUp
        have twice : handsOutTwice state (.poll time readable) = true := by
          simp only [handsOutTwice, given, Option.any_some, List.any_eq_true, decide_eq_true_eq]
          exact ⟨itemId, taken works, Nat.pos_of_ne_zero loaded⟩
        simp [handsOutOnce, twice] at kept
    | deliver networkAllowed intent outbox sent =>
      cases intent with
      | setPaused paused =>
        have unloads := Service.Unloads.setPaused state.service paused
        refine ⟨fun itemId => (unloads itemId).trans (exclusive.native itemId), ?_⟩
        intro itemId works
        have free := exclusive.dart itemId works
        have fewer := unloads itemId
        simp only [Service.onStartCommand]
        omega
      | startQueue runId ids settings =>
        obtain ⟨_, first, book, booked⟩ := booked_of_reachable before
        obtain ⟨_, _, meant⟩ := booked.intent runId ids settings (by simp [sent])
        have distinct : ids.Nodup := meant ▸ booked.distinct runId
        have loads := Service.startQueueInternal_load state.service runId distinct settings
          networkAllowed
        have free : state.service.jobActive = false → ∀ itemId ∈ ids,
            state.service.callers itemId = 0 ∧ itemId ∉ state.controller.fallbackIds := by
          intro noJob itemId named
          simp only [handsOutOnce, handsOutTwice, sent, noJob, Bool.not_false,
            Bool.true_and, Bool.not_eq_true', List.any_eq_false, Bool.or_eq_true,
            decide_eq_true_eq, List.contains_iff_mem, not_or] at kept
          obtain ⟨noCaller, noFallback⟩ := kept itemId named
          exact ⟨by omega, noFallback⟩
        refine ⟨?_, ?_⟩
        · intro itemId
          rcases loads itemId with fewer | ⟨noJob, named, once⟩
          · exact fewer.trans (exclusive.native itemId)
          · have noCaller := (free noJob itemId named).1
            simp only [Service.onStartCommand]
            omega
        · intro itemId works
          rcases loads itemId with fewer | ⟨noJob, named, _⟩
          · have none := exclusive.dart itemId works
            simp only [Service.onStartCommand]
            omega
          · exact absurd works (free noJob itemId named).2
    | service event service moved =>
      have unloads := Service.Unloads.step moved
      refine ⟨fun itemId => (unloads itemId).trans (exclusive.native itemId), ?_⟩
      intro itemId works
      have free := exclusive.dart itemId works
      have fewer := unloads itemId
      change service.load itemId = 0
      omega

/-- Where no step hands out an item twice, at most one engine call of an item is in
progress at any time. -/
theorem one_call_at_a_time {s : System} (reachable : machine.Reachable (handsOutOnce · ·) s)
    (itemId : String) : s.liveCalls itemId ≤ 1 :=
  (exclusive_of_reachable reachable).liveCalls_le_one itemId

/-- An item is in its engine call. -/
def itemInCall : List SystemEvent :=
  [.queue 0 (.enqueue "a" { id := "a" } none none), .queue 0 (.hydrated true),
    .queue 0 (.requestBuilt true), .queue 0 (.startReturned true),
    .service (.deliver true), .service (.withSlot "a"),
    .service (.preflightReturned 0 false), .service (.callStarted 0)]

/-- The call is the only one of the item. -/
theorem one_call_of_item_in_call : ∃ s : System, s.liveCalls "a" = 1 := by
  obtain ⟨s, reachable, checked⟩ :=
    machine.exists_reachable_of_runMeets (fun s => 1 ≤ s.liveCalls "a") start_default
      (by decide +kernel : machine.runMeets handsOutOnce {} itemInCall = true)
      (by decide +kernel)
  simp only [decide_eq_true_eq] at checked
  exact ⟨s, Nat.le_antisymm (one_call_at_a_time reachable "a") checked⟩

/-- The service is stopped during the call, and the app takes the requeued item up
again. -/
def restartDuringCall : List SystemEvent :=
  itemInCall ++
    [.service .stop, .poll 500 true, .queue 1000 .lifecycleResumed, .queue 1000 (.hydrated true),
      .queue 1000 (.requestBuilt true), .queue 1000 (.startReturned true),
      .service (.deliver true), .service (.withSlot "a"),
      .service (.preflightReturned 0 false), .service (.callStarted 0)]

/-- The next run calls the engine for the item while the stopped run's call lives. -/
theorem second_call_after_stop :
    ¬∀ s, machine.Reachable Transition.Machine.anyStep s → ∀ itemId, s.liveCalls itemId ≤ 1 := by
  intro single
  obtain ⟨s, reachable, checked⟩ :=
    machine.exists_reachable_of_run (fun s => 2 ≤ s.liveCalls "a") start_default
      (by decide +kernel :
        (machine.run {} restartDuringCall).any (fun s => 2 ≤ s.liveCalls "a") = true)
  simp only [decide_eq_true_eq] at checked
  have atMostOne := single s reachable "a"
  omega

end System
end LosslessMusic.Queue
