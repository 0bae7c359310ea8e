import LosslessMusic.Queue.Steps
import Mathlib.Data.List.Nodup

/-!
# Item ids

An item id names one entry. Ids come from a running clock and are never given
twice, so no update confuses two entries, and no batch names an item twice.
-/

namespace LosslessMusic.Queue
namespace Controller

variable {c : Controller}

/-- The item ids of the entries. -/
def itemIds (c : Controller) : List String :=
  c.entries.map DownloadEntry.itemId

/-- The item ids the suspended call works on. -/
def takenIds (c : Controller) : List String :=
  c.processor.taken.map DownloadEntry.itemId

theorem queuedIds_sublist (c : Controller) :
    ((c.entries.filter (·.status = .queued)).map DownloadEntry.itemId).Sublist c.itemIds :=
  (List.filter_sublist).map _

/-- Ids are distinct, and so are those of the suspended call; all were given out. -/
structure WellIdentified (c : Controller) : Prop where
  distinct : c.itemIds.Nodup
  issued : ∀ itemId ∈ c.itemIds, itemId ∈ c.issuedIds
  takenDistinct : c.takenIds.Nodup
  takenIssued : ∀ itemId ∈ c.takenIds, itemId ∈ c.issuedIds

theorem mergeItems_itemIds (c : Controller) (snapshot : NativeWorkerSnapshot)
    (ids : List String) : (c.mergeItems snapshot ids).itemIds = c.itemIds := by
  simp only [itemIds, mergeItems, List.map_map]
  apply List.map_congr_left
  intro entry _
  simp only [Function.comp_apply]
  split
  · simp
  · rfl

/-! ## What the updates keep -/

/-- The update keeps or drops ids, and the suspended call takes up ids of entries
or goes on with its own. -/
structure KeepsIds (c next : Controller) : Prop where
  items : next.itemIds.Sublist c.itemIds
  issued : next.issuedIds = c.issuedIds
  taken : next.takenIds.Sublist c.takenIds ∨ next.takenIds.Sublist c.itemIds

variable {next : Controller}

namespace KeepsIds

theorem of_eq (entries : next.entries = c.entries) (issued : next.issuedIds = c.issuedIds)
    (taken : next.processor.taken.Sublist c.processor.taken) : c.KeepsIds next := by
  refine ⟨?_, issued, .inl (taken.map _)⟩
  unfold itemIds
  rw [entries]

/-- Updates compose when the first does not take up entries that the second
forgets about. -/
theorem after {middle : Controller} (second : middle.KeepsIds next)
    (first : c.KeepsIds middle) : c.KeepsIds next := by
  refine ⟨second.items.trans first.items, second.issued.trans first.issued, ?_⟩
  rcases second.taken with kept | fresh
  · rcases first.taken with before | entries
    · exact .inl (kept.trans before)
    · exact .inr (kept.trans entries)
  · exact .inr (fresh.trans first.items)

theorem setStatus (c : Controller) (itemId : String) (status : EntryStatus)
    (details : StatusDetails) : c.KeepsIds (c.setStatus itemId status details) := by
  refine ⟨?_, rfl, .inl (List.Sublist.refl _)⟩
  simp [itemIds]

theorem beginRateLimitRetry (c : Controller) (itemId errorMsg : String) :
    c.KeepsIds (c.beginRateLimitRetry itemId errorMsg) := by
  refine ⟨?_, rfl, .inl (List.Sublist.refl _)⟩
  simp [itemIds, Controller.beginRateLimitRetry]

theorem processQueue (c : Controller) : c.KeepsIds c.processQueue := by
  refine ⟨by simp [itemIds], by simp, ?_⟩
  rcases c.processQueue_cases with same | ⟨_, _, equal⟩
  · left
    simp [same]
  · right
    rw [equal]
    exact c.queuedIds_sublist

theorem finishProcessing (c : Controller) (continueProcessing : Bool) :
    c.KeepsIds (c.finishProcessing continueProcessing) := by
  refine ⟨by simp [itemIds], by simp, .inr ?_⟩
  obtain ⟨processor, stopped, reentries, equal, idle | taken⟩ :=
    c.finishProcessing_eq continueProcessing
  · simp [equal, takenIds, idle.1, Processor.taken]
  · rw [equal]
    simp only [takenIds, taken.1, Processor.taken]
    exact c.queuedIds_sublist

theorem beginFallback (c : Controller) (next : DownloadEntry) (remaining : List DownloadEntry)
    (taken : ((next :: remaining).map DownloadEntry.itemId).Sublist c.takenIds) :
    c.KeepsIds (c.beginFallback next remaining) := by
  rcases c.beginFallback_cases next remaining with waiting | running
  · rw [waiting]
    exact ⟨by simp [itemIds, suspend], rfl, .inl taken⟩
  · rw [running]
    exact ⟨by simp [itemIds, suspend], rfl, .inl taken⟩

theorem startFallbacks (c : Controller) {entries : List DownloadEntry}
    (taken : entries.Sublist c.processor.taken) : c.KeepsIds (c.startFallbacks entries) := by
  rcases c.startFallbacks_cases entries with ⟨ended, _⟩ | found
  · rw [ended]
    exact finishProcessing c true
  · obtain ⟨skipped, next, remaining, split, _, _, begun⟩ := found
    rw [begun]
    apply beginFallback
    apply List.Sublist.map
    refine List.Sublist.trans ?_ taken
    rw [split]
    exact List.sublist_append_right skipped (next :: remaining)

theorem endRateLimitRetry (c : Controller) (itemId : String) :
    c.KeepsIds (c.endRateLimitRetry itemId) := by
  rcases c.endRateLimitRetry_cases itemId with same | requeued
  · rw [same]
    exact of_eq rfl rfl (List.Sublist.refl _)
  · rw [requeued]
    exact (processQueue _).after (setStatus c itemId .queued {})

theorem scheduleAll (c : Controller) (entries : List DownloadEntry) :
    c.KeepsIds (entries.foldl scheduleRateLimitRetry c) := by
  refine List.foldlRecOn entries scheduleRateLimitRetry
    (motive := fun (next : Controller) => c.KeepsIds next)
    (of_eq rfl rfl (List.Sublist.refl _)) ?_
  intro next kept e _
  refine KeepsIds.after ?_ kept
  rcases next.scheduleRateLimitRetry_cases e with same | ⟨_, _, _, details, _, equal⟩
  · rw [same]
    exact of_eq rfl rfl (List.Sublist.refl _)
  · rw [equal]
    refine KeepsIds.after ?_ (setStatus next e.itemId .downloading details)
    exact of_eq rfl rfl (List.Sublist.refl _)

theorem mergeNativeSnapshot (c : Controller) (snapshot : NativeWorkerSnapshot)
    (ids : List String) : c.KeepsIds (c.mergeNativeSnapshot snapshot ids) := by
  obtain ⟨pendingPause, manualPaused, ⟨_, flagged⟩ | merged⟩ :=
    c.mergeNativeSnapshot_cases snapshot ids
  · rw [flagged]
    exact of_eq rfl rfl (List.Sublist.refl _)
  · rw [merged]
    refine (scheduleAll _ _).after ?_
    refine ⟨?_, rfl, .inl (List.Sublist.refl _)⟩
    rw [mergeItems_itemIds]
    exact List.Sublist.refl _

theorem pollMerged (c : Controller) {batch : Batch} {startedAt : Nat} {started : Bool}
    {lastSeenAt : Nat} (snapshot : NativeWorkerSnapshot)
    (suspended : c.processor = .polling batch startedAt started lastSeenAt) :
    c.KeepsIds (c.pollMerged batch startedAt snapshot) := by
  have merged := mergeNativeSnapshot c snapshot batch.ids
  simp only [Controller.pollMerged]
  split
  · refine ⟨merged.items, merged.issued, .inl ?_⟩
    simp [takenIds, suspended, Processor.taken]
  · refine KeepsIds.after ?_ merged
    unfold endBatch
    exact (finishProcessing _ _).after (of_eq rfl rfl (List.Sublist.refl _))

theorem merge (c : Controller) (items : List DownloadProgress) : c.KeepsIds (c.merge items) := by
  refine ⟨?_, rfl, .inl (List.Sublist.refl _)⟩
  have same : (c.merge items).itemIds = c.itemIds := by
    simp only [itemIds, Controller.merge, List.map_map]
    apply List.map_congr_left
    intro entry _
    simp
  rw [same]

theorem removeLocal (c : Controller) (itemId : String) : c.KeepsIds (c.removeLocal itemId) :=
  ⟨(List.filter_sublist).map _, rfl, .inl (List.Sublist.refl _)⟩

end KeepsIds

variable {event : QueueEvent}

/-- Every event keeps ids, or adds an entry under a fresh one. -/
theorem keepsIds_of_handled (handled : Handled c event next) :
    c.KeepsIds next ∨
      ∃ base newItemId track service quality, c.KeepsIds base ∧ newItemId ∉ c.issuedIds ∧
        next = base.enqueue newItemId track service quality := by
  cases handled with
  | unchanged => exact .inl (.of_eq rfl rfl (List.Sublist.refl _))
  | flags => exact .inl (.of_eq rfl rfl (List.Sublist.refl _))
  | enqueued _ _ _ _ fresh =>
    exact .inr ⟨c, _, _, _, _, .of_eq rfl rfl (List.Sublist.refl _), fresh, rfl⟩
  | replaced itemId _ _ _ _ fresh =>
    exact .inr ⟨_, _, _, _, _, .removeLocal c itemId, fresh, rfl⟩
  | removed itemId => exact .inl (.removeLocal c itemId)
  | kicked _ pendingResumes =>
    exact .inl ((KeepsIds.processQueue _).after (.of_eq rfl rfl (List.Sublist.refl _)))
  | progressed items => exact .inl (.merge c items)
  | timerFired itemId timer =>
    exact .inl ((KeepsIds.endRateLimitRetry _ itemId).after (.of_eq rfl rfl (List.Sublist.refl _)))
  | threw => exact .inl (.finishProcessing c true)
  | pausedAtStart => exact .inl (.finishProcessing c true)
  | buildRequests _ suspended | requestBuilt _ _ _ suspended | requestsBuilt _ _ suspended =>
    exact .inl (.of_eq rfl rfl (by simp [suspended, Processor.taken]))
  | withoutWorker queued suspended =>
    refine .inl (.startFallbacks c ?_)
    simpa [suspended, Processor.taken] using List.take_sublist 1 queued
  | started batch settings suspended =>
    refine .inl ?_
    unfold onStarted
    dsimp only
    split
    · exact .of_eq rfl rfl (by simp [suspended, Processor.taken])
    · exact .of_eq rfl rfl (by simp [suspended, Processor.taken, startPolling])
  | pauseForwarded batch suspended =>
    exact .inl (.of_eq rfl rfl (by simp [suspended, Processor.taken, startPolling]))
  | gaveUp batch _ _ _ _ suspended =>
    have taken : batch.queued.Sublist c.processor.taken := by
      simp [suspended, Processor.taken]
    exact .inl ((KeepsIds.startFallbacks { c with activeWorker := false } taken).after
        (.of_eq rfl rfl (List.Sublist.refl _)))
  | merged batch startedAt _ _ snapshot suspended =>
    exact .inl (.pollMerged c snapshot suspended)
  | admissionDropped _ entry remaining suspended =>
    refine .inl (.startFallbacks c ?_)
    simp [suspended, Processor.taken]
  | admitted _ entry remaining suspended =>
    refine .inl (KeepsIds.after ?_ (KeepsIds.setStatus c entry.itemId .downloading {}))
    exact .of_eq rfl rfl (by simp [suspended, Processor.taken, suspend])
  | fallbackMoved _ entry _ _ remaining suspended =>
    exact .inl (.of_eq rfl rfl (by simp [suspended, Processor.taken, suspend]))
  | fallbackSettled _ entry _ remaining status details suspended =>
    refine .inl (KeepsIds.after (.startFallbacks _ ?_)
        (KeepsIds.setStatus c entry.itemId status details))
    simp [suspended, Processor.taken]
  | fallbackLimited _ entry remaining errorMsg suspended =>
    refine .inl (KeepsIds.after ?_ (KeepsIds.beginRateLimitRetry c entry.itemId errorMsg))
    exact .of_eq rfl rfl (by simp [suspended, Processor.taken, suspend, beginRateLimitRetry])
  | backedOff entry _ remaining suspended =>
    refine .inl ?_
    rcases c.endRateLimitRetry_cases entry.itemId with same | requeued
    · rw [same]
      exact .startFallbacks c (by simp [suspended, Processor.taken])
    · rw [requeued, processQueue_of_isProcessing _ (by simp [isProcessing, suspended])]
      refine KeepsIds.after (.startFallbacks _ ?_) (KeepsIds.setStatus c entry.itemId .queued {})
      simp [suspended, Processor.taken]

theorem issued_of_handled {itemId : String}
    (handled : Handled c event next) (known : itemId ∈ c.issuedIds) : itemId ∈ next.issuedIds := by
  rcases keepsIds_of_handled handled with kept | ⟨base, newItemId, _, _, _, kept, _, rfl⟩
  · rwa [kept.issued]
  · simp only [Controller.enqueue, processQueue_issuedIds, kept.issued]
    exact List.mem_cons_of_mem _ known

namespace WellIdentified

/-- Updates that keep ids keep them distinct and issued. -/
theorem keep (identified : c.WellIdentified) (kept : c.KeepsIds next) : next.WellIdentified := by
  refine ⟨identified.distinct.sublist kept.items, ?_, ?_, ?_⟩
  · intro itemId member
    rw [kept.issued]
    exact identified.issued itemId (kept.items.subset member)
  · rcases kept.taken with before | entries
    · exact identified.takenDistinct.sublist before
    · exact identified.distinct.sublist entries
  · intro itemId member
    rw [kept.issued]
    rcases kept.taken with before | entries
    · exact identified.takenIssued itemId (before.subset member)
    · exact identified.issued itemId (entries.subset member)

/-- A new entry comes with an id that was never given before. -/
theorem enqueue (identified : c.WellIdentified) {itemId : String} {track : Track}
    {service quality : Option String} (fresh : itemId ∉ c.issuedIds) :
    (c.enqueue itemId track service quality).WellIdentified := by
  refine WellIdentified.keep ?_ (KeepsIds.processQueue _)
  refine ⟨?_, ?_, identified.takenDistinct, ?_⟩
  · simp only [itemIds, List.map_cons, List.nodup_cons]
    exact ⟨fun member => fresh (identified.issued itemId member), identified.distinct⟩
  · intro other member
    simp only [itemIds, List.map_cons, List.mem_cons] at member ⊢
    exact member.imp id (identified.issued other)
  · intro other member
    exact List.mem_cons_of_mem _ (identified.takenIssued other member)

theorem handled (handled : Handled c event next) (identified : c.WellIdentified) :
    next.WellIdentified := by
  rcases keepsIds_of_handled handled with kept | ⟨base, newItemId, _, _, _, kept, fresh, rfl⟩
  · exact identified.keep kept
  · rw [← kept.issued] at fresh
    exact (identified.keep kept).enqueue fresh

end WellIdentified

end Controller

namespace System

theorem wellIdentified_of_reachable {guard : System → SystemEvent → Prop} {s : System}
    (reachable : machine.Reachable guard s) : s.controller.WellIdentified := by
  refine reachable.invariant (motive := fun s => s.controller.WellIdentified) ?_ ?_
  · rintro state ⟨_, _, _, _, _, controller, _⟩
    rw [controller]
    exact ⟨by simp [Controller.itemIds], by simp [Controller.itemIds],
      by simp [Controller.takenIds, Processor.taken],
      by simp [Controller.takenIds, Processor.taken]⟩
  · intro state event next _ identified _ stepped
    have at_time (time : Nat) : Controller.WellIdentified { state.controller with now := time } :=
      identified.keep (.of_eq rfl rfl (List.Sublist.refl _))
    cases stepped_of_step stepped with
    | queue time event controller _ handled => exact .handled handled (at_time time)
    | poll time readable controller handled => exact .handled handled (at_time time)
    | deliver => exact identified.keep (.of_eq rfl rfl (List.Sublist.refl _))
    | service => exact identified

end System
end LosslessMusic.Queue
