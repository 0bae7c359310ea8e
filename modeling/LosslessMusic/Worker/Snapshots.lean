import LosslessMusic.Queue.ServiceRuns
import LosslessMusic.Worker.Sections

/-!
# What the snapshots of the service list

A stop publishes a snapshot without an item in progress, and behind it nothing changes an
item until START_QUEUE does. A snapshot lists the items of its batch, unless a thread that
is left from an earlier run publishes while START_QUEUE has set the run id and has not
replaced the items.
-/

namespace LosslessMusic.Worker

open Transition
open Queue (NativeWorkerItemState)

/-- The batch whose run id is set and whose items are not. -/
def MainPoint.settingUp : MainPoint → Option (List String)
  | .configuring requests _ | .replacing requests => some requests
  | .idle | .registering _ | .publishing _ | .launching _ | .pausing _ | .refreshing _ => none

/-- The updates of the sections keep the id of the item. -/
def Section.KeepsIds : Section → Prop
  | .updateItem _ update => ∀ item, (update item).itemId = item.itemId
  | .none | .writeSnapshot _ | .stopForegroundService => True

namespace Service

/-- The ids of the items, in their order. -/
def ids (s : Service) : List String :=
  s.workerItems.map NativeWorkerItemState.itemId

/-- START_QUEUE has set the run id and is about to replace the items of another batch. -/
def replaces (s : Service) : Bool :=
  s.main.settingUp.any (· ≠ s.ids)

/-- The section publishes a snapshot. -/
def writes (s : Service) (saved : Bool) : Section → Bool
  | .none | .updateItem _ _ => false
  | .writeSnapshot isRunning => saved && !(isRunning && s.workerStopped)
  | .stopForegroundService => saved && !s.workerStopped

/-- The step publishes a snapshot. -/
def publishes (s : Service) (event : Event) : Bool :=
  (s.move event.action).any fun moved => s.writes event.saved moved.1

/-- No thread publishes while START_QUEUE is about to replace the items of another batch. -/
def undisturbed (s : Service) (event : Event) : Bool :=
  !(s.replaces && s.publishes event)

/-- A step of START_QUEUE between the run id and the items. -/
def setsUp (s : Service) : Action → Bool
  | .main _ => s.main.settingUp.isSome
  | _ => false

variable {s next moved : Service}

/-! ## Threads -/

/-- A thread goes on without a change of the items. -/
structure Alike (s moved : Service) : Prop where
  items : moved.workerItems = s.workerItems
  stopped : moved.workerStopped = s.workerStopped
  runId : moved.currentRunId = s.currentRunId
  batch : moved.batch = s.batch
  published : moved.published = s.published
  settingUp : moved.main.settingUp = s.main.settingUp

theorem Alike.refl (s : Service) : Alike s s := ⟨rfl, rfl, rfl, rfl, rfl, rfl⟩

theorem cancelJob_alike (s : Service) : Alike s s.cancelJob := by
  unfold cancelJob
  split
  · exact .refl s
  · exact ⟨rfl, rfl, rfl, rfl, rfl, rfl⟩

/-- What START_QUEUE does to the items and to what is recorded of its batch. -/
inductive SetsUp (s : Service) (moved : Service) : Prop
  /-- It has set the run id. -/
  | named (runId : String) (requests : List String)
      (outside : s.main.settingUp = none)
      (settingUp : moved.main.settingUp = some requests)
      (isRunId : moved.currentRunId = runId) (batch : moved.batch = requests)
      (items : moved.workerItems = s.workerItems) (stopped : moved.workerStopped = s.workerStopped)
      (published : moved.published = s.published)
  /-- It has lowered the flag. -/
  | lowered (requests : List String)
      (before : s.main.settingUp = some requests)
      (settingUp : moved.main.settingUp = some requests)
      (isRunId : moved.currentRunId = s.currentRunId) (batch : moved.batch = s.batch)
      (items : moved.workerItems = s.workerItems) (published : moved.published = s.published)
  /-- It has replaced the items. -/
  | replaced (requests : List String)
      (before : s.main.settingUp = some requests)
      (settingUp : moved.main.settingUp = none)
      (isRunId : moved.currentRunId = s.currentRunId) (batch : moved.batch = s.batch)
      (items : moved.ids = requests) (published : moved.published = s.published)

variable {done : Section}

theorem mainStep_cases {networkAllowed : Bool}
    (stepped : s.mainStep networkAllowed = some (done, moved)) :
    Alike s moved ∨ (done = .none ∧ SetsUp s moved ∧ s.main.settingUp.isSome = true) := by
  unfold mainStep at stepped
  split at stepped
  · cases stepped
  next requests settings point =>
    cases stepped
    have before : s.main.settingUp = some requests := by rw [point]; rfl
    exact .inr ⟨rfl, .lowered requests before rfl rfl rfl rfl rfl, by rw [before]; rfl⟩
  next requests point =>
    cases stepped
    have before : s.main.settingUp = some requests := by rw [point]; rfl
    refine .inr ⟨rfl, .replaced requests before rfl rfl rfl ?_ rfl, by rw [before]; rfl⟩
    unfold ids
    rw [List.map_map]
    exact List.map_id requests
  next requests point =>
    cases stepped
    exact .inl ⟨rfl, rfl, rfl, rfl, rfl, by rw [point]; rfl⟩
  next requests point =>
    cases stepped
    exact .inl ⟨rfl, rfl, rfl, rfl, rfl, by rw [point]; rfl⟩
  next requests point =>
    cases stepped
    have same := cancelJob_alike s
    exact .inl ⟨same.items, same.stopped, same.runId, same.batch, same.published,
      by rw [point]; rfl⟩
  next paused point =>
    cases stepped
    refine .inl ⟨rfl, rfl, rfl, rfl, rfl, ?_⟩
    rw [point]
    show (if s.workerStopped then MainPoint.idle else .refreshing s.jobActive).settingUp = none
    split <;> rfl
  next isRunning point =>
    cases stepped
    exact .inl ⟨rfl, rfl, rfl, rfl, rfl, by rw [point]; rfl⟩

variable {action : Action}

/-- A thread goes on: only START_QUEUE changes what the snapshots list. -/
theorem move_cases (gone : s.move action = some (done, moved)) :
    Alike s moved ∨
      done = .none ∧ SetsUp s moved ∧ (s.main.settingUp = none ∨ s.setsUp action = true) := by
  cases action with
  | startQueue runId requests settings =>
    simp only [move] at gone
    split at gone
    next idle =>
      cases gone
      have outside : s.main.settingUp = none := by rw [idle]; rfl
      unfold startQueue
      split
      · exact .inl (.refl s)
      · exact .inr ⟨rfl, .named runId requests outside rfl rfl rfl rfl rfl rfl, .inl outside⟩
    · cases gone
  | setPaused paused =>
    simp only [move] at gone
    split at gone
    next idle =>
      cases gone
      unfold setPaused
      split
      · exact .inl ⟨rfl, rfl, rfl, rfl, rfl, by rw [idle]; rfl⟩
      · exact .inl (.refl s)
    · cases gone
  | stop =>
    simp only [move] at gone
    split at gone
    · cases gone
      exact .inl (.refl _)
    · cases gone
  | main networkAllowed =>
    rcases mainStep_cases gone with alike | ⟨quiet, setsUp, inside⟩
    · exact .inl alike
    · exact .inr ⟨quiet, setsUp, .inr inside⟩
  | admitItem position itemId =>
    left
    obtain ⟨admitted, isAdmitted, same⟩ := Option.map_eq_some_iff.mp gone
    cases same
    obtain ⟨run, -, passed⟩ := Option.bind_eq_some_iff.mp isAdmitted
    split at passed
    · cases passed
      exact ⟨rfl, rfl, rfl, rfl, rfl, rfl⟩
    · cases passed
  | block _ | poll _ =>
    left
    obtain ⟨block, -, rest⟩ := Option.bind_eq_some_iff.mp gone
    obtain ⟨_, -, same⟩ := Option.map_eq_some_iff.mp rest
    cases same
    exact ⟨rfl, rfl, rfl, rfl, rfl, rfl⟩
  | preflightReturned _ _ | callReturned _ _ | postProcessed _ _ | progressReturned _ _ =>
    left
    obtain ⟨block, -, same⟩ := Option.map_eq_some_iff.mp gone
    cases same
    exact ⟨rfl, rfl, rfl, rfl, rfl, rfl⟩
  | run position =>
    left
    obtain ⟨run, -, rest⟩ := Option.bind_eq_some_iff.mp gone
    obtain ⟨_, -, same⟩ := Option.map_eq_some_iff.mp rest
    cases same
    exact ⟨rfl, rfl, rfl, rfl, rfl, rfl⟩
  | networkChanged wifi unmetered internet ethernet =>
    left
    simp only [move] at gone
    split at gone
    · cases gone
      exact ⟨rfl, rfl, rfl, rfl, rfl, rfl⟩
    · cases gone
  | callback index =>
    left
    obtain ⟨point, -, rest⟩ := Option.bind_eq_some_iff.mp gone
    obtain ⟨_, went, same⟩ := Option.map_eq_some_iff.mp rest
    cases same
    cases point with
    | notified _ _ _ _ | refreshing _ =>
      cases went
      exact ⟨rfl, rfl, rfl, rfl, rfl, rfl⟩
    | ended => cases went

/-! ## Sections -/

theorem snapshot_items (s : Service) (isRunning : Bool) :
    (s.snapshot isRunning).items.map NativeWorkerItemState.itemId = s.ids := by
  unfold snapshot ids
  rw [List.map_map]
  rfl

/-- A section leaves the ids of the items and the setup of a batch alone, and publishes at
most one snapshot of them. -/
structure Lists (s next : Service) (publishes : Bool) : Prop where
  ids : next.ids = s.ids
  batch : next.batch = s.batch
  settingUp : next.main.settingUp = s.main.settingUp
  published : next.published = s.published ∨ publishes = true ∧ ∃ snapshot : Snapshot,
      next.published = s.published ++ [⟨snapshot, s.batch⟩] ∧
        snapshot.items.map NativeWorkerItemState.itemId = s.ids

variable {update : NativeWorkerItemState → NativeWorkerItemState}

theorem ids_map
    (keeps : ∀ item, (update item).itemId = item.itemId) (items : List NativeWorkerItemState) :
    (items.map update).map NativeWorkerItemState.itemId =
      items.map NativeWorkerItemState.itemId := by
  rw [List.map_map]
  exact List.map_congr_left fun item _ => keeps item

theorem writeSnapshot_lists (s : Service) (saved isRunning : Bool) :
    Lists s (s.writeSnapshot saved isRunning) (s.writes saved (.writeSnapshot isRunning)) := by
  unfold writeSnapshot
  split
  · exact ⟨rfl, rfl, rfl, .inl rfl⟩
  next written =>
    refine ⟨rfl, rfl, rfl, .inr ⟨?_, _, rfl, snapshot_items s isRunning⟩⟩
    unfold writes
    cases isRunning <;> cases stopped : s.workerStopped <;> cases saved <;> simp_all

theorem updateItem_lists (s : Service) (itemId : String)
    (keeps : ∀ item, (update item).itemId = item.itemId) :
    Lists s (s.updateItem itemId update) false := by
  unfold updateItem
  split
  · exact ⟨rfl, rfl, rfl, .inl rfl⟩
  · exact ⟨Queue.Service.updateFirst_map_itemId itemId keeps _, rfl, rfl, .inl rfl⟩

theorem stopForegroundService_lists (s : Service) (saved : Bool) :
    Lists s (s.stopForegroundService saved) (s.writes saved .stopForegroundService) := by
  unfold stopForegroundService
  simp only
  split
  next stopped =>
    have same := cancelJob_alike s
    exact ⟨by unfold ids; rw [same.items], same.batch, same.settingUp, .inl same.published⟩
  next running =>
    have requeued : (s.workerItems.map NativeWorkerItemState.requeueOnStop).map
        NativeWorkerItemState.itemId = s.ids :=
      ids_map NativeWorkerItemState.requeueOnStop_itemId s.workerItems
    have written := writeSnapshot_lists
      { s with
        workerStopped := true
        workerItems := s.workerItems.map NativeWorkerItemState.requeueOnStop } saved false
    have same := cancelJob_alike
      ({ s with
        workerStopped := true
        workerItems := s.workerItems.map NativeWorkerItemState.requeueOnStop }.writeSnapshot
          saved false)
    refine ⟨?_, same.batch.trans written.batch, same.settingUp.trans written.settingUp, ?_⟩
    · show (cancelJob _).workerItems.map _ = _
      rw [same.items]
      exact written.ids.trans requeued
    · show (cancelJob _).published = _ ∨ _ ∧ ∃ _, (cancelJob _).published = _ ∧ _
      rw [same.published]
      rcases written.published with quiet | ⟨publishes, snapshot, published, listed⟩
      · exact .inl quiet
      · refine .inr ⟨?_, snapshot, published, listed.trans requeued⟩
        unfold writes at publishes ⊢
        simp only [Bool.not_eq_true] at running
        simp [running] at publishes ⊢
        exact publishes

theorem perform_lists (s : Service) (saved : Bool) (keeps : done.KeepsIds) :
    Lists s (s.perform saved done) (s.writes saved done) := by
  cases done with
  | none => exact ⟨rfl, rfl, rfl, .inl rfl⟩
  | updateItem itemId update => exact updateItem_lists s itemId keeps
  | writeSnapshot isRunning => exact writeSnapshot_lists s saved isRunning
  | stopForegroundService => exact stopForegroundService_lists s saved

/-! ## Steps -/

theorem settleCall_itemId (item : NativeWorkerItemState) (outcome : Queue.NativeCallOutcome) :
    (Queue.settleCall item outcome).itemId = item.itemId := by
  cases outcome with
  | threw message => rfl
  | returned result =>
    simp only [Queue.settleCall]
    split <;> rfl

theorem settlePostProcess_itemId (item : NativeWorkerItemState)
    (outcome : Queue.PostProcessOutcome) :
    (Queue.settlePostProcess item outcome).itemId = item.itemId := by
  cases outcome <;> rfl

theorem blockStep_keepsIds {block target : Block}
    (stepped : blockStep block = some (done, target)) : done.KeepsIds := by
  unfold blockStep at stepped
  cases point : block.point with
  | starting | duplicate | finalizing _ | resolving _ =>
    rw [point] at stepped
    cases stepped
    intro item
    rfl
  | failing outcome =>
    rw [point] at stepped
    cases stepped
    exact fun item => settleCall_itemId item outcome
  | completing outcome =>
    rw [point] at stepped
    cases stepped
    exact fun item => settlePostProcess_itemId item outcome
  | started | resolved | settled =>
    rw [point] at stepped
    cases stepped
    trivial
  | preflight | calling | postProcessing | ended =>
    rw [point] at stepped
    cases stepped

theorem pollStep_keepsIds {block target : Block}
    (stepped : s.pollStep block = some (done, target)) : done.KeepsIds := by
  unfold pollStep at stepped
  split at stepped
  · cases stepped
    intro item
    rfl
  · cases stepped
    trivial
  · cases stepped
    trivial
  · cases stepped
  · cases stepped

theorem runStep_keepsIds {position : Nat} {run target : Run}
    (stepped : s.runStep position run = some (done, target)) : done.KeepsIds := by
  unfold runStep at stepped
  split at stepped
  · split at stepped
    · cases stepped
      trivial
    · cases stepped
  · cases stepped
    trivial
  · cases stepped
    trivial
  · cases stepped

theorem mainStep_keepsIds {networkAllowed : Bool}
    (stepped : s.mainStep networkAllowed = some (done, moved)) : done.KeepsIds := by
  unfold mainStep at stepped
  split at stepped
  · cases stepped
  all_goals
    cases stepped
    trivial

theorem callbackStep_keepsIds {point : CallbackPoint}
    {went : Service × CallbackPoint} (stepped : s.callbackStep point = some (done, went)) :
    done.KeepsIds := by
  unfold callbackStep at stepped
  split at stepped
  · cases stepped
    trivial
  · cases stepped
    trivial
  · cases stepped

theorem move_keepsIds (gone : s.move action = some (done, moved)) : done.KeepsIds:= by
  cases action with
  | startQueue _ _ _ | setPaused _ | stop | networkChanged _ _ _ _ =>
    simp only [move] at gone
    split at gone
    · cases gone
      trivial
    · cases gone
  | main networkAllowed => exact mainStep_keepsIds gone
  | admitItem _ _ | preflightReturned _ _ | callReturned _ _ | postProcessed _ _
  | progressReturned _ _ =>
    obtain ⟨_, -, same⟩ := Option.map_eq_some_iff.mp gone
    cases same
    trivial
  | block index =>
    obtain ⟨_, -, rest⟩ := Option.bind_eq_some_iff.mp gone
    obtain ⟨_, stepped, same⟩ := Option.map_eq_some_iff.mp rest
    cases same
    exact blockStep_keepsIds stepped
  | poll index =>
    obtain ⟨_, -, rest⟩ := Option.bind_eq_some_iff.mp gone
    obtain ⟨_, stepped, same⟩ := Option.map_eq_some_iff.mp rest
    cases same
    exact pollStep_keepsIds stepped
  | run position =>
    obtain ⟨_, -, rest⟩ := Option.bind_eq_some_iff.mp gone
    obtain ⟨_, stepped, same⟩ := Option.map_eq_some_iff.mp rest
    cases same
    exact runStep_keepsIds stepped
  | callback index =>
    obtain ⟨_, -, rest⟩ := Option.bind_eq_some_iff.mp gone
    obtain ⟨_, stepped, same⟩ := Option.map_eq_some_iff.mp rest
    cases same
    exact callbackStep_keepsIds stepped

/-- The recorded batch is that of the items, or START_QUEUE is about to make it so. -/
structure Listed (s : Service) : Prop where
  current : s.main.settingUp = none → s.ids = s.batch
  upcoming : ∀ requests, s.main.settingUp = some requests → s.batch = requests
  published : ∀ entry ∈ s.published,
    entry.snapshot.items.map NativeWorkerItemState.itemId = entry.batch

theorem listed_move (listed : s.Listed)
    (gone : s.move action = some (done, moved)) : moved.Listed := by
  rcases move_cases gone with alike | ⟨-, setsUp, -⟩
  · have same : moved.ids = s.ids := by
      unfold ids
      rw [alike.items]
    constructor
    · rw [alike.settingUp, same, alike.batch]
      exact listed.current
    · rw [alike.settingUp, alike.batch]
      exact listed.upcoming
    · rw [alike.published]
      exact listed.published
  · cases setsUp with
    | named runId requests outside settingUp isRunId batch items stopped published =>
      constructor
      · rw [settingUp]
        intro none
        cases none
      · rw [settingUp, batch]
        exact fun _ same => Option.some.inj same
      · rw [published]
        exact listed.published
    | lowered requests before settingUp isRunId batch items published =>
      constructor
      · rw [settingUp]
        intro none
        cases none
      · rw [settingUp, batch, ← before]
        exact listed.upcoming
      · rw [published]
        exact listed.published
    | replaced requests before settingUp isRunId batch items published =>
      constructor
      · intro _
        rw [items, batch, listed.upcoming requests before]
      · rw [settingUp]
        intro _ none
        cases none
      · rw [published]
        exact listed.published

variable {event : Event}

theorem Listed.ids_of_publishes (listed : s.Listed)
    (undisturbed : s.undisturbed event = true) (gone : s.move event.action = some (done, moved))
    (publishes : moved.writes event.saved done = true) : moved.ids = moved.batch := by
  rcases move_cases gone with alike | ⟨rfl, -, -⟩
  · have written : s.publishes event = true := by
      unfold Service.publishes
      rw [gone]
      unfold writes at publishes ⊢
      rw [alike.stopped] at publishes
      exact publishes
    unfold Service.undisturbed replaces at undisturbed
    rw [written, Bool.and_true, Bool.not_eq_true'] at undisturbed
    have same : s.ids = s.batch := by
      cases settingUp : s.main.settingUp with
      | none => exact listed.current settingUp
      | some requests =>
        rw [settingUp, Option.any_some, decide_eq_false_iff_not, not_not] at undisturbed
        rw [← undisturbed, listed.upcoming requests settingUp]
    unfold ids at same ⊢
    rw [alike.items, alike.batch]
    exact same
  · cases publishes

theorem listed_step (listed : s.Listed) (undisturbed : s.undisturbed event = true)
    (stepped : s.step event = some next) : next.Listed := by
  obtain ⟨⟨done, moved⟩, gone, rfl⟩ := Option.map_eq_some_iff.mp stepped
  have after := listed_move listed gone
  have lists := perform_lists moved event.saved (move_keepsIds gone)
  constructor
  · rw [lists.settingUp, lists.ids, lists.batch]
    exact after.current
  · rw [lists.settingUp, lists.batch]
    exact after.upcoming
  · rcases lists.published with quiet | ⟨publishes, snapshot, published, items⟩
    · rw [quiet]
      exact after.published
    · rw [published]
      intro entry member
      rcases List.mem_append.mp member with before | new
      · exact after.published entry before
      · obtain rfl := List.mem_singleton.mp new
        rw [items]
        exact listed.ids_of_publishes undisturbed gone publishes

/-! ## Stops -/

/-- The snapshot of a stop over the items that were there. -/
structure StopSnapshot (s : Service) (snapshot : Snapshot) : Prop where
  notRunning : snapshot.isRunning = false
  settled : ∀ item ∈ snapshot.items,
    item.status = .queued ∨ item.status = .done ∨ item.status = .failed
  results : ∀ (position : Nat) (item : NativeWorkerItemState),
    s.workerItems[position]? = some item → item.status.terminal = true →
      snapshot.items[position]? = some item.published

/-- A stop publishes its snapshot, unless the service is stopped or the file cannot be
written. -/
structure Stops (s next : Service) (saved : Bool) : Prop where
  stopped : next.workerStopped = true
  published : next.published = s.published ∧ (saved = false ∨ s.workerStopped = true) ∨
    ∃ snapshot : Snapshot,
      next.published = s.published ++ [⟨snapshot, s.batch⟩] ∧ StopSnapshot s snapshot

theorem requeueOnStop_of_terminal {item : NativeWorkerItemState}
    (terminal : item.status.terminal = true) : item.requeueOnStop = item := by
  unfold NativeWorkerItemState.requeueOnStop
  cases status : item.status <;> simp_all

theorem requeueOnStop_settled (item : NativeWorkerItemState) :
    item.requeueOnStop.status = .queued ∨ item.requeueOnStop.status = .done ∨
      item.requeueOnStop.status = .failed := by
  have settled := item.requeueOnStop_not_active
  cases status : item.requeueOnStop.status with
  | queued => exact .inl rfl
  | done => exact .inr (.inl rfl)
  | failed => exact .inr (.inr rfl)
  | downloading | finalizing =>
    rw [status] at settled
    cases settled

theorem stopSnapshot_requeued (s : Service) : StopSnapshot s
      ({ s with
        workerStopped := true
        workerItems := s.workerItems.map NativeWorkerItemState.requeueOnStop }.snapshot false) where
  notRunning := rfl
  settled := by
    intro item member
    obtain ⟨requeued, isRequeued, rfl⟩ := List.mem_map.mp member
    obtain ⟨before, -, rfl⟩ := List.mem_map.mp isRequeued
    exact requeueOnStop_settled before
  results := by
    intro position item here terminal
    unfold snapshot
    simp only [List.map_map]
    rw [List.getElem?_map, here, Option.map_some, Function.comp_apply,
      requeueOnStop_of_terminal terminal]

theorem stopForegroundService_stops (s : Service) (saved : Bool) :
    Stops s (s.stopForegroundService saved) saved := by
  unfold stopForegroundService
  simp only
  split
  next stopped =>
    have same := cancelJob_alike s
    exact ⟨same.stopped.trans stopped, .inl ⟨same.published, .inr stopped⟩⟩
  next running =>
    have same := cancelJob_alike
      ({ s with
        workerStopped := true
        workerItems := s.workerItems.map NativeWorkerItemState.requeueOnStop }.writeSnapshot
          saved false)
    unfold writeSnapshot at same ⊢
    cases saved with
    | false =>
      simp only [Bool.false_and, Bool.not_false, Bool.or_true, if_true] at same ⊢
      exact ⟨same.stopped, .inl ⟨same.published, .inl rfl⟩⟩
    | true =>
      simp only [Bool.false_and, Bool.not_true, Bool.or_false, Bool.false_eq_true,
        if_false] at same ⊢
      exact ⟨same.stopped, .inr ⟨_, same.published, stopSnapshot_requeued s⟩⟩

/-- Items stay, and no snapshot is published that says the run goes on. -/
structure Silent (s final : Service) : Prop where
  stopped : final.workerStopped = true
  items : final.workerItems = s.workerItems
  published : ∃ later : List Published, final.published = s.published ++ later ∧
    ∀ entry ∈ later, entry.snapshot.isRunning = false

theorem Silent.refl (stopped : s.workerStopped = true) : Silent s s :=
  ⟨stopped, rfl, [], (List.append_nil _).symm, fun _ member => by cases member⟩

theorem Silent.trans {final : Service} (first : Silent s next) (second : Silent next final) :
    Silent s final := by
  obtain ⟨before, published, quiet⟩ := first.published
  obtain ⟨later, appended, alsoQuiet⟩ := second.published
  refine ⟨second.stopped, second.items.trans first.items, before ++ later, ?_, ?_⟩
  · rw [appended, published, List.append_assoc]
  · intro entry member
    rcases List.mem_append.mp member with early | late
    · exact quiet entry early
    · exact alsoQuiet entry late

theorem Silent.of_alike (alike : Alike s next) (stopped : s.workerStopped = true) : Silent s next :=
  ⟨alike.stopped.trans stopped, alike.items, [],
    by rw [alike.published, List.append_nil], fun _ member => by cases member⟩

theorem perform_silent (stopped : s.workerStopped = true) (saved : Bool) (done : Section) :
    Silent s (s.perform saved done) := by
  cases done with
  | none => exact .refl stopped
  | updateItem itemId update =>
    simp only [perform, updateItem]
    rw [if_pos stopped]
    exact .refl stopped
  | writeSnapshot isRunning =>
    simp only [perform, writeSnapshot]
    split
    · exact .refl stopped
    next written =>
      refine ⟨stopped, rfl, [⟨s.snapshot isRunning, s.batch⟩], rfl, ?_⟩
      intro entry member
      obtain rfl := List.mem_singleton.mp member
      show isRunning = false
      rw [stopped] at written
      cases isRunning with
      | false => rfl
      | true => exact absurd rfl written
  | stopForegroundService =>
    simp only [perform, stopForegroundService]
    rw [if_pos stopped]
    have same := cancelJob_alike s
    exact .of_alike ⟨same.items, same.stopped, same.runId, same.batch, same.published,
      same.settingUp⟩ stopped

theorem silent_step (stopped : s.workerStopped = true)
    (outside : s.setsUp event.action = false) (stepped : s.step event = some next) :
    Silent s next := by
  obtain ⟨⟨done, moved⟩, gone, rfl⟩ := Option.map_eq_some_iff.mp stepped
  rcases move_cases gone with alike | ⟨rfl, setsUp, within⟩
  · have before := Silent.of_alike alike stopped
    exact before.trans (perform_silent before.stopped event.saved done)
  · have outer : s.main.settingUp = none := by
      rcases within with none | inside
      · exact none
      · rw [outside] at inside
        cases inside
    cases setsUp with
    | named runId requests before settingUp isRunId batch items kept published =>
      exact ⟨kept.trans stopped, items, [], by rw [List.append_nil]; exact published,
        fun _ member => by cases member⟩
    | lowered requests before settingUp isRunId batch items published =>
      rw [outer] at before
      cases before
    | replaced requests before settingUp isRunId batch items published =>
      rw [outer] at before
      cases before

theorem silent_of_path {final : Service} (stopped : s.workerStopped = true)
    (path : machine.Path (fun s event => s.setsUp event.action = false) s final) :
    Silent s final := by
  refine path.preserves (Silent.refl stopped) ?_
  intro state event next before outside stepped
  exact before.trans (silent_step before.stopped outside stepped)

/-! ## The protocol -/

/-- The snapshots of a service and its stops. -/
structure Protocol (s : Service) : Prop where
  listed : ∀ entry ∈ s.published,
    entry.snapshot.items.map NativeWorkerItemState.itemId = entry.batch
  stops : ∀ event moved next, s.move event.action = some (.stopForegroundService, moved) →
    s.step event = some next → Stops s next event.saved
  silent : ∀ event moved next, s.move event.action = some (.stopForegroundService, moved) →
    s.step event = some next → ∀ final,
      machine.Path (fun s event => s.setsUp event.action = false) next final → Silent next final

theorem stops_of_step (gone : s.move event.action = some (.stopForegroundService, moved))
    (stepped : s.step event = some next) : Stops s next event.saved := by
  have isNext : next = moved.stopForegroundService event.saved := by
    unfold step at stepped
    rw [gone] at stepped
    exact (Option.some.inj stepped).symm
  rcases move_cases gone with alike | ⟨quiet, -, -⟩
  · have stops := stopForegroundService_stops moved event.saved
    rw [isNext]
    refine ⟨stops.stopped, ?_⟩
    rw [← alike.published, ← alike.stopped, ← alike.batch]
    rcases stops.published with kept | ⟨snapshot, published, isStop⟩
    · exact .inl kept
    · refine .inr ⟨snapshot, published, isStop.notRunning, isStop.settled, ?_⟩
      rw [← alike.items]
      exact isStop.results
  · cases quiet

/-- In a run in which no thread publishes while START_QUEUE is about to replace the items,
the snapshots and the stops keep to the protocol. -/
theorem snapshot_protocol {s : Service} (reachable : machine.Reachable (undisturbed · ·) s) :
    Protocol s := by
  have listed : s.Listed := by
    refine reachable.invariant (fun start starts => ?_)
      (fun state event next _ listed admitted stepped => listed_step listed admitted stepped)
    rw [show start = create from starts]
    exact ⟨fun _ => rfl, fun _ => nofun, fun _ => nofun⟩
  exact
    { listed := listed.published
      stops := fun event moved next gone stepped => stops_of_step gone stepped
      silent := fun event moved next gone stepped final path =>
        silent_of_path (stops_of_step gone stepped).stopped path }

/-- A batch is started up to its worker job. -/
def startEvents (runId itemId : String) : List Event :=
  [⟨.startQueue runId [itemId] ⟨1, false, false⟩, true⟩, ⟨.main true, true⟩, ⟨.main true, true⟩,
    ⟨.main true, true⟩, ⟨.main true, true⟩, ⟨.main true, true⟩]

theorem snapshot_protocol_started :
    ∃ s : Service, Protocol s ∧ (s.jobActive && s.published.length == 1) = true := by
  obtain ⟨s, reachable, started⟩ := machine.exists_reachable_of_runMeets
      (fun s => s.jobActive && s.published.length == 1) rfl
      (show machine.runMeets undisturbed create (startEvents "1" "a") = true by decide)
      (by decide)
  exact ⟨s, snapshot_protocol reachable, started⟩

/-- A block of a stopped run publishes while the next batch is set up. -/
def staleEvents : List Event :=
  startEvents "1" "a" ++ [⟨.admitItem 0 "a", true⟩, ⟨.block 0, true⟩, ⟨.stop, true⟩,
      ⟨.startQueue "2" ["b"] ⟨1, false, false⟩, true⟩, ⟨.main true, true⟩, ⟨.block 0, true⟩]

/-- The snapshot of the new run lists the item of the old one. -/
theorem stale_snapshot_of_next_run : (machine.run create staleEvents).any (fun s =>
      s.published.any fun entry =>
        entry.snapshot.runId == "2" && entry.snapshot.isRunning && entry.batch == ["b"] &&
          entry.snapshot.items.map NativeWorkerItemState.itemId == ["a"]) = true := by
  decide

end Service

end LosslessMusic.Worker
