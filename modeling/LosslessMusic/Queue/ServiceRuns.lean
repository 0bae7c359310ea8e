import LosslessMusic.Queue.Service
import Mathlib.Data.List.Nodup

/-!
# The service's run and its snapshot

While a run is active each item in progress has a block that works on it, so the
snapshot that ends a run lists all its items and none in progress.
-/

namespace LosslessMusic.Queue.Service

variable {s : Service}

/-- The item ids of the run. -/
def runIds (s : Service) : List String :=
  s.workerItems.map NativeWorkerItemState.itemId

/-- The state of the run is consistent. -/
structure Sound (s : Service) : Prop where
  stopped : s.workerStopped = !s.jobActive
  distinct : s.runIds.Nodup
  attended : s.jobActive = true → ∀ item ∈ s.workerItems, item.status.active = true →
    ∃ block ∈ s.blocks, block.active = true ∧ block.itemId = item.itemId
  unattended : s.jobActive = false ∨ s.ending = true → ∀ block ∈ s.blocks, block.active = false
  endsRunning : s.ending = true → s.jobActive = true

/-- A snapshot of the run `runId` over the items `ids`; one that ends the run
shows none in progress. -/
structure Shows (snapshot : NativeWorkerSnapshot) (runId : Nat) (ids : List String) : Prop where
  run : snapshot.runId = runId
  items : snapshot.items.map NativeWorkerItemState.itemId = ids
  ended : snapshot.isRunning = false → ∀ item ∈ snapshot.items, item.status.active = false

/-- A step inside a run keeps its id and items, and publishes nothing else. -/
structure Continues (s next : Service) : Prop where
  run : next.currentRunId = s.currentRunId
  items : next.runIds = s.runIds
  job : next.jobActive = true → s.jobActive = true
  snapshot : next.snapshot = s.snapshot ∨
    (s.jobActive = true ∧ ∃ snapshot, next.snapshot = some snapshot ∧
      Shows snapshot s.currentRunId s.runIds)

/-! ## Updates of items -/

@[simp] theorem writeSnapshot_blocks (isRunning : Bool) :
    (s.writeSnapshot isRunning).blocks = s.blocks := by
  unfold writeSnapshot
  split <;> rfl

@[simp] theorem writeSnapshot_workerItems (isRunning : Bool) :
    (s.writeSnapshot isRunning).workerItems = s.workerItems := by
  unfold writeSnapshot
  split <;> rfl

@[simp] theorem settle_blocks (itemId : String)
    (update : NativeWorkerItemState → NativeWorkerItemState) :
    (s.settle itemId update).blocks = s.blocks := by
  simp only [settle, writeSnapshot_blocks, updateItem]
  split <;> rfl

variable {update : NativeWorkerItemState → NativeWorkerItemState}

@[simp] theorem updateFirst_map_itemId (itemId : String)
    (keeps : ∀ item, (update item).itemId = item.itemId) (items : List NativeWorkerItemState) :
    (updateFirst itemId update items).map NativeWorkerItemState.itemId =
      items.map NativeWorkerItemState.itemId := by
  induction items with
  | nil => rfl
  | cons item rest ih =>
    rw [updateFirst]
    split
    · simp [keeps]
    · simp [ih]

/-- Where ids are distinct, exactly the item of the id is updated. -/
theorem mem_updateFirst {itemId : String} {items : List NativeWorkerItemState}
    (distinct : (items.map NativeWorkerItemState.itemId).Nodup)
    {item : NativeWorkerItemState} (member : item ∈ updateFirst itemId update items) :
    (item ∈ items ∧ item.itemId ≠ itemId) ∨
      ∃ before ∈ items, before.itemId = itemId ∧ item = update before := by
  induction items with
  | nil => simp [updateFirst] at member
  | cons head rest ih =>
    rw [List.map_cons, List.nodup_cons] at distinct
    obtain ⟨notInRest, restDistinct⟩ := distinct
    rw [updateFirst] at member
    split at member
    next named =>
      rcases List.mem_cons.mp member with rfl | old
      · exact .inr ⟨head, List.mem_cons_self, named, rfl⟩
      · left
        refine ⟨List.mem_cons_of_mem _ old, ?_⟩
        intro same
        apply notInRest
        rw [named, ← same]
        exact List.mem_map_of_mem old
    next other =>
      rcases List.mem_cons.mp member with rfl | updated
      · exact .inl ⟨List.mem_cons_self, other⟩
      · rcases ih restDistinct updated with
          ⟨old, different⟩ | ⟨before, present, named, equal⟩
        · exact .inl ⟨List.mem_cons_of_mem _ old, different⟩
        · exact .inr ⟨before, List.mem_cons_of_mem _ present, named, equal⟩

variable {block : Block} {index : Nat}

theorem mem_eraseIdx_of_ne {blocks : List Block} {other : Block}
    (here : blocks[index]? = some block) (present : other ∈ blocks) (different : other ≠ block) :
    other ∈ blocks.eraseIdx index := by
  obtain ⟨position, found⟩ := List.mem_iff_getElem?.mp present
  refine List.mem_eraseIdx_iff_getElem?.mpr ⟨position, ?_, found⟩
  rintro rfl
  rw [here] at found
  exact different (Option.some.inj found).symm

theorem mem_set_of_ne {blocks : List Block} {other moved : Block}
    (here : blocks[index]? = some block) (present : other ∈ blocks) (different : other ≠ block) :
    other ∈ blocks.set index moved := by
  obtain ⟨position, found⟩ := List.mem_iff_getElem?.mp present
  refine List.mem_iff_getElem?.mpr ⟨position, ?_⟩
  rw [List.getElem?_set_ne, found]
  rintro rfl
  rw [here] at found
  exact different (Option.some.inj found).symm

/-! ## What each operation keeps -/

variable {next : Service}

namespace Continues

theorem silent (run : next.currentRunId = s.currentRunId) (items : next.workerItems = s.workerItems)
    (job : next.jobActive = true → s.jobActive = true)
    (snapshot : next.snapshot = s.snapshot) : Continues s next :=
  ⟨run, by rw [runIds, runIds, items], job, .inl snapshot⟩

theorem trans {middle : Service} (first : Continues s middle)
    (second : Continues middle next) : Continues s next := by
  refine ⟨second.run.trans first.run, second.items.trans first.items,
    fun active => first.job (second.job active), ?_⟩
  rcases second.snapshot with same | ⟨active, snapshot, published, shows⟩
  · rw [same]
    exact first.snapshot
  · rw [first.run, first.items] at shows
    exact .inr ⟨first.job active, snapshot, published, shows⟩

theorem writeSnapshot (sound : s.Sound) (isRunning : Bool) (ends : isRunning = false →
      s.jobActive = true ∧ ∀ item ∈ s.workerItems, item.status.active = false) :
    Continues s (s.writeSnapshot isRunning) := by
  unfold Service.writeSnapshot
  split
  · exact silent rfl rfl id rfl
  next published =>
    refine ⟨rfl, rfl, id, .inr ⟨?_, _, rfl, rfl, ?_, ?_⟩⟩
    · cases isRunning with
      | false => exact (ends rfl).1
      | true => simpa [sound.stopped] using published
    · simp [runIds, Function.comp_def]
    · intro ended item member
      obtain ⟨before, present, rfl⟩ := List.mem_map.mp member
      exact (ends ended).2 before present

end Continues

theorem Sound.congr (sound : s.Sound) (stopped : next.workerStopped = s.workerStopped)
    (job : next.jobActive = s.jobActive) (ending : next.ending = s.ending)
    (items : next.workerItems = s.workerItems) (blocks : next.blocks = s.blocks) : next.Sound := by
  obtain ⟨stop, distinct, attended, unattended, endsRunning⟩ := sound
  constructor
  · rwa [stopped, job]
  · rwa [runIds, items]
  · rwa [job, items, blocks]
  · rwa [job, ending, blocks]
  · rwa [ending, job]

/-- The service stays sound and inside its run. -/
structure Advances (s next : Service) : Prop where
  sound : next.Sound
  continues : Continues s next

namespace Advances

theorem silent (sound : s.Sound) (run : next.currentRunId = s.currentRunId)
    (stopped : next.workerStopped = s.workerStopped)
    (job : next.jobActive = s.jobActive) (ending : next.ending = s.ending)
    (items : next.workerItems = s.workerItems) (blocks : next.blocks = s.blocks)
    (snapshot : next.snapshot = s.snapshot) : Advances s next :=
  ⟨sound.congr stopped job ending items blocks,
    .silent run items (fun active => job ▸ active) snapshot⟩

theorem after {middle : Service} (second : Advances middle next)
    (first : Advances s middle) : Advances s next :=
  ⟨second.sound, first.continues.trans second.continues⟩

theorem publish (sound : s.Sound) : Advances s (s.writeSnapshot true) := by
  refine ⟨?_, .writeSnapshot sound true (by simp)⟩
  unfold Service.writeSnapshot
  split
  · exact sound
  · exact sound.congr rfl rfl rfl rfl rfl

theorem updateItem (sound : s.Sound) (itemId : String)
    (keeps : ∀ item, (update item).itemId = item.itemId)
    (worked : ∃ block ∈ s.blocks, block.active = true ∧ block.itemId = itemId) :
    Advances s (s.updateItem itemId update) := by
  unfold Service.updateItem
  split
  · exact .silent sound rfl rfl rfl rfl rfl rfl rfl
  · refine ⟨⟨sound.stopped, ?_, ?_, sound.unattended, sound.endsRunning⟩, ?_⟩
    · simpa only [runIds, updateFirst_map_itemId itemId keeps] using sound.distinct
    · intro running item member active
      rcases mem_updateFirst sound.distinct member with ⟨old, _⟩ | ⟨before, _, named, rfl⟩
      · exact sound.attended running item old active
      · rw [keeps, named]
        exact worked
    · refine ⟨rfl, ?_, id, .inl rfl⟩
      simp only [runIds, updateFirst_map_itemId itemId keeps]

theorem settle (sound : s.Sound) (itemId : String)
    (keeps : ∀ item, (update item).itemId = item.itemId)
    (worked : ∃ block ∈ s.blocks, block.active = true ∧ block.itemId = itemId) :
    Advances s (s.settle itemId update) := by
  have updated := updateItem sound itemId keeps worked
  exact (publish updated.sound).after updated

/-- A block ends once its item is no longer in progress. -/
theorem dropBlock (sound : s.Sound) (here : s.blocks[index]? = some block)
    (settled : block.active = true → ∀ item ∈ s.workerItems,
      item.itemId = block.itemId → item.status.active = false) :
    Advances s (s.dropBlock index) := by
  refine ⟨⟨sound.stopped, sound.distinct, ?_, ?_, sound.endsRunning⟩, .silent rfl rfl id rfl⟩
  · intro running item member active
    obtain ⟨worker, present, working, same⟩ := sound.attended running item member active
    have other : worker ≠ block := by
      rintro rfl
      rw [settled working item member same.symm] at active
      cases active
    exact ⟨worker, mem_eraseIdx_of_ne here present other, working, same⟩
  · intro past worker present
    exact sound.unattended past worker (List.mem_of_mem_eraseIdx present)

theorem moveBlock (sound : s.Sound) (here : s.blocks[index]? = some block) (point : BlockPoint) :
    Advances s (s.moveBlock index block point) := by
  have bound : index < s.blocks.length := by
    by_contra beyond
    rw [List.getElem?_eq_none (Nat.le_of_not_lt beyond)] at here
    cases here
  have blockMember : block ∈ s.blocks := List.mem_of_getElem? here
  refine ⟨⟨sound.stopped, sound.distinct, ?_, ?_, sound.endsRunning⟩, .silent rfl rfl id rfl⟩
  · intro running item member active
    obtain ⟨worker, present, working, same⟩ := sound.attended running item member active
    by_cases moved : worker = block
    · subst moved
      exact ⟨{ worker with point }, List.mem_set bound _, working, same⟩
    · exact ⟨worker, mem_set_of_ne here present moved, working, same⟩
  · intro past worker present
    rcases List.mem_or_eq_of_mem_set present with old | rfl
    · exact sound.unattended past worker old
    · exact sound.unattended past block blockMember

/-- The run is stopped: its items are no longer in progress and its blocks are
cancelled. -/
theorem stopForegroundService (sound : s.Sound) : Advances s s.stopForegroundService := by
  have stopped : ∀ items : List NativeWorkerItemState,
      (items.map NativeWorkerItemState.requeueOnStop).map NativeWorkerItemState.itemId =
        items.map NativeWorkerItemState.itemId := by
    intro items
    simp [Function.comp_def]
  unfold Service.stopForegroundService
  split
  next already =>
    refine ⟨⟨by simpa using already, sound.distinct, by simp, ?_, by simp⟩,
      .silent rfl rfl (by simp) rfl⟩
    intro _ block member
    obtain ⟨before, _, rfl⟩ := List.mem_map.mp member
    rfl
  next running =>
    have active : s.jobActive = true := by
      simpa [sound.stopped] using running
    refine ⟨⟨rfl, ?_, by simp, ?_, by simp⟩, rfl, ?_, fun _ => active,
      .inr ⟨active, _, rfl, rfl, ?_, ?_⟩⟩
    · simpa only [runIds, writeSnapshot_workerItems, stopped] using sound.distinct
    · intro _ block member
      obtain ⟨before, _, rfl⟩ := List.mem_map.mp member
      rfl
    · exact stopped s.workerItems
    · simp [runIds, Function.comp_def]
    · intro _ item member
      simp only [List.map_map, List.mem_map] at member
      obtain ⟨before, _, rfl⟩ := member
      exact before.requeueOnStop_not_active

/-- The end of the run is published when no block is left. -/
theorem runEnded (sound : s.Sound) (running : s.jobActive = true)
    (idle : s.activeBlocks = []) : Advances s ({ s with ending := true }.writeSnapshot false) := by
  have inactive : ∀ block ∈ s.blocks, block.active = false := by
    intro block present
    by_contra working
    have member : block ∈ s.activeBlocks := List.mem_filter.mpr ⟨present, by simpa using working⟩
    simp [idle] at member
  have noProgress : ∀ item ∈ s.workerItems, item.status.active = false := by
    intro item member
    by_contra active
    obtain ⟨block, present, working, _⟩ :=
      sound.attended running item member (by simpa using active)
    rw [inactive block present] at working
    cases working
  have ended : Sound { s with ending := true } :=
    ⟨sound.stopped, sound.distinct, sound.attended, fun _ => inactive, fun _ => running⟩
  refine ⟨?_, ?_⟩
  · unfold Service.writeSnapshot
    split
    · exact ended
    · exact ended.congr rfl rfl rfl rfl rfl
  · have published := Continues.writeSnapshot ended false fun _ => ⟨running, noProgress⟩
    exact ⟨published.run, published.items, published.job, published.snapshot⟩

end Advances

/-! ## What each event keeps -/

theorem blockAt_eq {point : BlockPoint}
    (found : s.blockAt index point = some block) : s.blocks[index]? = some block :=
  (Option.filter_eq_some_iff.mp found).1

theorem Sound.running (sound : s.Sound) (present : block ∈ s.blocks)
    (working : block.active = true) : s.jobActive = true := by
  by_contra past
  rw [sound.unattended (.inl (by simpa using past)) block present] at working
  cases working

namespace Advances

theorem settleAndDrop (sound : s.Sound)
    (here : s.blocks[index]? = some block) (working : block.active = true)
    (keeps : ∀ item, (update item).itemId = item.itemId)
    (settles : ∀ item, (update item).status.active = false) :
    Advances s ((s.settle block.itemId update).dropBlock index) := by
  have present := List.mem_of_getElem? here
  have running := sound.running present working
  have settled := settle sound block.itemId keeps ⟨block, present, working, rfl⟩
  have stillHere : (s.settle block.itemId update).blocks[index]? = some block := by
    rwa [settle_blocks]
  refine (dropBlock settled.sound stillHere ?_).after settled
  intro _ item member same
  simp only [Service.settle, writeSnapshot_workerItems, Service.updateItem, sound.stopped,
    running, Bool.not_true, Bool.false_eq_true, if_false] at member
  rcases mem_updateFirst sound.distinct member with ⟨_, other⟩ | ⟨before, _, _, rfl⟩
  · exact absurd same other
  · exact settles before

theorem dropCancelled (sound : s.Sound)
    (here : s.blocks[index]? = some block) (cancelled : block.active = false) :
    Advances s (s.dropBlock index) :=
  dropBlock sound here (by simp [cancelled])

theorem callReturned (sound : s.Sound)
    (here : s.blocks[index]? = some block) (outcome : NativeCallOutcome) :
    Advances s (s.onCallReturned index block outcome) := by
  have present := List.mem_of_getElem? here
  unfold onCallReturned
  split
  next cancelled => exact dropCancelled sound here (by simpa using cancelled)
  next active =>
    have working : block.active = true := by simpa using active
    have keeps : ∀ item, (settleCall item outcome).itemId = item.itemId := by
      intro item
      cases outcome with
      | threw => rfl
      | returned result =>
        simp only [settleCall]
        split <;> rfl
    have settled := settle sound block.itemId keeps ⟨block, present, working, rfl⟩
    split
    · refine (moveBlock settled.sound ?_ .postProcessing).after settled
      rwa [settle_blocks]
    next failing =>
      refine settleAndDrop sound here working keeps fun item => ?_
      cases outcome with
      | threw => rfl
      | returned result =>
        have unsuccessful : result.success ≠ some true := by
          intro success
          cases result
          simp only at success
          subst success
          apply failing
          rfl
        simp [settleCall, unsuccessful]

/-- Every event of the service keeps it sound and inside its run. -/
theorem step {event : ServiceEvent} (sound : s.Sound)
    (stepped : s.step event = some next) : Advances s next := by
  unfold Service.step at stepped
  split at stepped
  · cases stepped
  · cases stepped
    exact stopForegroundService sound
  next allowed =>
    cases stepped
    have set : Advances s (s.setNetwork allowed) := .silent sound rfl rfl rfl rfl rfl rfl rfl
    exact (publish set.sound).after set
  next itemId =>
    unfold Service.withSlot at stepped
    split at stepped
    next free =>
      cases stepped
      simp only [Bool.and_eq_true, Bool.not_eq_true', decide_eq_true_eq] at free
      have running := free.1.1.1.1
      have open_ := free.1.1.1.2
      have added : Advances s
          { s with
            pending := s.pending.erase itemId
            blocks := ⟨itemId, .preflight, true⟩ :: s.blocks } := by
        refine ⟨⟨sound.stopped, sound.distinct, ?_, ?_, sound.endsRunning⟩, .silent rfl rfl id rfl⟩
        · intro _ item member active
          obtain ⟨worker, present, working, same⟩ := sound.attended running item member active
          exact ⟨worker, List.mem_cons_of_mem _ present, working, same⟩
        · rintro (stopped | ending)
          · simp [running] at stopped
          · simp [open_] at ending
      change Advances s (Service.settle _ itemId fun item => { item with status := .downloading })
      exact Advances.after (settle added.sound itemId (fun _ => rfl)
        ⟨_, List.mem_cons_self, rfl, rfl⟩) added
    next => cases stepped
  next index duplicate =>
    obtain ⟨block, found, rfl⟩ := Option.map_eq_some_iff.mp stepped
    have here := blockAt_eq found
    unfold onPreflight
    split
    next cancelled => exact dropCancelled sound here (by simpa using cancelled)
    next active =>
      split
      · exact settleAndDrop sound here (by simpa using active) (fun _ => rfl) (fun _ => rfl)
      · exact moveBlock sound here .checked
  next index =>
    obtain ⟨block, found, rfl⟩ := Option.map_eq_some_iff.mp stepped
    exact moveBlock sound (blockAt_eq found) .calling
  next index bytesReceived bytesTotal =>
    obtain ⟨block, found, progressed⟩ := Option.bind_eq_some_iff.mp stepped
    split at progressed
    next working =>
      cases progressed
      have present := List.mem_of_getElem? (blockAt_eq found)
      exact settle sound block.itemId (fun _ => rfl) ⟨block, present, working, rfl⟩
    next => cases progressed
  next index outcome =>
    obtain ⟨block, found, rfl⟩ := Option.map_eq_some_iff.mp stepped
    exact callReturned sound (blockAt_eq found) outcome
  next index outcome =>
    obtain ⟨block, found, rfl⟩ := Option.map_eq_some_iff.mp stepped
    have here := blockAt_eq found
    unfold onPostProcessed
    split
    next cancelled => exact dropCancelled sound here (by simpa using cancelled)
    next active =>
      refine settleAndDrop sound here (by simpa using active) ?_ ?_
      · intro item
        cases outcome <;> rfl
      · intro item
        cases outcome <;> rfl
  · split at stepped
    next past =>
      cases stepped
      simp only [Bool.and_eq_true, Bool.not_eq_true', List.isEmpty_iff] at past
      exact runEnded sound past.1.1.1 past.2
    next => cases stepped
  · split at stepped
    next =>
      cases stepped
      exact stopForegroundService sound
    next => cases stepped

theorem setPaused (sound : s.Sound) (paused : Bool) : Advances s (s.setPaused paused) := by
  unfold Service.setPaused
  split
  · exact .silent sound rfl rfl rfl rfl rfl rfl rfl
  · have set : Advances s { s with manualPaused := paused } :=
      .silent sound rfl rfl rfl rfl rfl rfl rfl
    exact (publish set.sound).after set

end Advances

theorem startQueueInternal_cases (sound : s.Sound) (runId : Nat) {requests : List String}
    (distinct : requests.Nodup) (settings : RunSettings) (networkAllowed : Bool) :
    s.startQueueInternal runId requests settings networkAllowed = s ∨ (s.jobActive = false ∧
        ∃ started : Service, s.startQueueInternal runId requests settings networkAllowed = started ∧
          started.Sound ∧ started.currentRunId = runId ∧ started.runIds = requests ∧
          ∃ snapshot, started.snapshot = some snapshot ∧ Shows snapshot runId requests) := by
  unfold startQueueInternal
  split
  · exact .inl rfl
  next free =>
    right
    simp only [Bool.or_eq_true, not_or, Bool.not_eq_true] at free
    refine ⟨free.2, _, rfl, ⟨rfl, ?_, ?_, ?_, by simp [Service.writeSnapshot, setNetwork]⟩,
      rfl, ?_, _, rfl, rfl, ?_, by simp⟩
    · simpa [runIds, Function.comp_def, setNetwork, Service.writeSnapshot] using distinct
    · intro _ item member active
      simp only [Service.writeSnapshot, setNetwork, Bool.true_and, Bool.false_eq_true,
        if_false, List.mem_map] at member
      obtain ⟨_, _, rfl⟩ := member
      cases active
    · intro past block present
      exact sound.unattended (.inl free.2) block present
    · simp [runIds, Function.comp_def, setNetwork, Service.writeSnapshot]
    · simp [setNetwork, Function.comp_def]

end LosslessMusic.Queue.Service
