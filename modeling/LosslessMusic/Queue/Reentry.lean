import LosslessMusic.Queue.Runs
import Mathlib.Data.Finset.Card

/-!
# Re-entry of `_processQueue`

The `finally` block of `_processQueue` calls it again. A batch that was handed
over, or a fallback, settles an item first, and each item can be put back once,
by its delayed retry; so the chain of such calls is bounded by a budget of the
state. A call that throws before the hand-over puts nothing back and takes
nothing out.
-/

namespace LosslessMusic.Queue

/-- The suspended fallback waits for the delay of its item. -/
def Processor.backsOff : Processor → Bool
  | .fallback _ (.rateLimited _) _ => true
  | _ => false

variable {event : QueueEvent}

namespace Controller

variable {c next : Controller}

/-- The item ids of the queued entries. -/
def queuedItems (c : Controller) : Finset String :=
  ((c.entries.filter (·.status = .queued)).map DownloadEntry.itemId).toFinset

/-- The item ids the suspended call works on. -/
def takenItems (c : Controller) : Finset String :=
  c.takenIds.toFinset

/-- The items whose delayed retry is not spent. -/
def unspentItems (c : Controller) : Finset String :=
  (c.itemIds.toFinset ∪ c.takenItems) \ c.rateLimitRetriedItemIds.toFinset

/-- What is queued although the call that is about to hand over did not find it. -/
def missedItems (c : Controller) : Finset String :=
  if c.processor.handsOver then c.queuedItems \ c.takenItems else ∅

/-- How often `_processQueue` can still re-enter itself: once for each item that is
queued or taken, once more for each that a delay or an unspent retry can put back. -/
def budget (c : Controller) : Nat :=
  (c.queuedItems ∪ c.takenItems).card + c.missedItems.card + 2 * c.timers.length +
    2 * c.unspentItems.card + (if c.processor.backsOff then 1 else 0)

/-- The update pays for the re-entries it makes. -/
def Pays (c next : Controller) : Prop :=
  next.reentries + next.budget ≤ c.reentries + c.budget

variable {itemId : String}

theorem mem_queuedItems :
    itemId ∈ c.queuedItems ↔ ∃ e ∈ c.entries, e.status = .queued ∧ e.itemId = itemId := by
  simp [queuedItems, and_assoc]

namespace Pays

theorem refl : c.Pays c :=
  Nat.le_refl _

theorem trans {middle : Controller} (first : c.Pays middle) (second : middle.Pays next) :
    c.Pays next :=
  Nat.le_trans second first

theorem of_subset (reentries : next.reentries = c.reentries)
    (work : next.queuedItems ∪ next.takenItems ⊆ c.queuedItems ∪ c.takenItems)
    (missed : next.missedItems ⊆ c.missedItems)
    (delays : next.timers.length + next.unspentItems.card ≤ c.timers.length + c.unspentItems.card)
    (backsOff : next.processor.backsOff = true → c.processor.backsOff = true) : c.Pays next := by
  have workCard := Finset.card_le_card work
  have missedCard := Finset.card_le_card missed
  have credit : (if next.processor.backsOff then 1 else 0) ≤
      (if c.processor.backsOff then 1 else 0) := by
    by_cases waits : next.processor.backsOff = true
    · simp [waits, backsOff waits]
    · simp [waits]
  simp only [Pays, budget, reentries]
  omega

theorem congr (reentries : next.reentries = c.reentries) (entries : next.entries = c.entries)
    (timers : next.timers = c.timers)
    (retried : next.rateLimitRetriedItemIds = c.rateLimitRetriedItemIds)
    (processor : next.processor = c.processor) : c.Pays next := by
  simp [Pays, budget, queuedItems, takenItems, missedItems, unspentItems, itemIds, takenIds,
    reentries, entries, timers, retried, processor]

end Pays

/-! ## What the updates pay for -/

theorem queuedItems_subset (c : Controller) : c.queuedItems ⊆ c.itemIds.toFinset := by
  intro itemId queued
  rw [List.mem_toFinset]
  exact c.queuedIds_sublist.subset (List.mem_toFinset.mp queued)

theorem queuedItems_setStatus (c : Controller) (itemId : String) (status : EntryStatus)
    (details : StatusDetails) :
    (c.setStatus itemId status details).queuedItems ⊆ c.queuedItems ∪ {itemId} := by
  intro other member
  obtain ⟨e, present, queued, same⟩ := mem_queuedItems.mp member
  rcases c.mem_setStatus itemId status details present with ⟨old, _⟩ | ⟨named, _⟩
  · exact Finset.mem_union_left _ (mem_queuedItems.mpr ⟨e, old, queued, same⟩)
  · exact Finset.mem_union_right _ (Finset.mem_singleton.mpr (same.symm.trans named))

/-- Setting the status of a taken item queues nothing new. -/
theorem setStatus_pays {status : EntryStatus} (details : StatusDetails)
    (taken : itemId ∈ c.takenItems) : c.Pays (c.setStatus itemId status details) := by
  have queued := c.queuedItems_setStatus itemId status details
  have items : (c.setStatus itemId status details).itemIds = c.itemIds := by
    simp [itemIds]
  refine .of_subset rfl ?_ ?_ ?_ id
  · intro other member
    rcases Finset.mem_union.mp member with wasQueued | wasTaken
    · rcases Finset.mem_union.mp (queued wasQueued) with old | named
      · exact Finset.mem_union_left _ old
      · rw [Finset.mem_singleton.mp named]
        exact Finset.mem_union_right _ taken
    · exact Finset.mem_union_right _ wasTaken
  · by_cases hands : c.processor.handsOver = true
    · simp only [missedItems, setStatus_processor, hands, if_true]
      intro other member
      obtain ⟨isQueued, untaken⟩ := Finset.mem_sdiff.mp member
      rcases Finset.mem_union.mp (queued isQueued) with old | named
      · exact Finset.mem_sdiff.mpr ⟨old, untaken⟩
      · rw [Finset.mem_singleton.mp named] at untaken
        exact absurd taken untaken
    · simp [missedItems, hands]
  · simp only [unspentItems, items, setStatus_timers, setStatus_retried]
    exact Nat.le_refl _

theorem processQueue_pays (c : Controller) : c.Pays c.processQueue := by
  rcases c.processQueue_cases with same | ⟨idle, _, equal⟩
  · rw [same]
    exact .refl
  · have taken : c.processQueue.takenItems = c.queuedItems := by
      rw [equal]
      rfl
    have queued : c.processQueue.queuedItems = c.queuedItems := by
      rw [equal]
      rfl
    refine .of_subset (by simp) ?_ ?_ ?_ ?_
    · rw [taken, queued, Finset.union_self]
      exact Finset.subset_union_left
    · simp [missedItems, taken, queued]
    · have unspent : c.processQueue.unspentItems ⊆ c.unspentItems := by
        simp only [unspentItems, taken, itemIds, processQueue_entries, processQueue_retried]
        apply Finset.sdiff_subset_sdiff _ (Finset.Subset.refl _)
        exact Finset.union_subset Finset.subset_union_left
          (c.queuedItems_subset.trans Finset.subset_union_left)
      have card := Finset.card_le_card unspent
      rw [processQueue_timers]
      omega
    · rw [equal]
      simp [Processor.backsOff]

/-- A re-entry has been paid for: an item of the call is no longer queued, one is
queued that it missed before handing over, or its fallback has backed off. -/
def Paid (c : Controller) : Prop :=
  (∃ itemId ∈ c.takenItems, itemId ∉ c.queuedItems) ∨ c.missedItems.Nonempty ∨
    c.processor.backsOff = true

theorem unspentItems_subset (processor : Processor)
    (taken : (processor.taken.map DownloadEntry.itemId).toFinset ⊆
      c.itemIds.toFinset ∪ c.takenItems) : unspentItems { c with processor } ⊆ c.unspentItems :=
  Finset.sdiff_subset_sdiff (Finset.union_subset Finset.subset_union_left taken)
    (Finset.Subset.refl _)

theorem finishProcessing_pays {continueProcessing : Bool}
    (paid : continueProcessing = true → c.manualPaused = false → c.queuedItems.Nonempty → c.Paid) :
    c.Pays (c.finishProcessing continueProcessing) := by
  obtain ⟨processor, stopped, reentries, equal, ⟨rfl, rfl⟩ | ⟨rfl, ⟨nonempty, running⟩, continues, rfl⟩⟩ :=
    c.finishProcessing_eq continueProcessing
  · have unspent := Finset.card_le_card
      (unspentItems_subset (c := c) .idle (by simp [Processor.taken]))
    rw [equal]
    refine .of_subset rfl ?_ ?_ ?_ ?_
    · intro itemId member
      rcases Finset.mem_union.mp member with queued | taken
      · exact Finset.mem_union_left _ queued
      · cases taken
    · simp [missedItems, Processor.handsOver]
    · exact Nat.add_le_add_left unspent _
    · simp [Processor.backsOff]
  · have someQueued : c.queuedItems.Nonempty := by
      rw [queuedItems, List.toFinset_nonempty_iff]
      simpa using nonempty
    have unspent := Finset.card_le_card (unspentItems_subset (c := c)
        (.hydrating (c.entries.filter (·.status = .queued)))
        (c.queuedItems_subset.trans Finset.subset_union_left))
    have work : c.queuedItems.card ≤ (c.queuedItems ∪ c.takenItems).card :=
      Finset.card_le_card Finset.subset_union_left
    rw [equal]
    change c.reentries + 1 +
      ((c.queuedItems ∪ c.queuedItems).card + (c.queuedItems \ c.queuedItems).card +
        2 * c.timers.length +
        2 * (unspentItems { c with
          processor := .hydrating (c.entries.filter (·.status = .queued)) }).card + 0) ≤
      c.reentries + c.budget
    simp only [Finset.union_self, Finset.sdiff_self, Finset.card_empty, budget]
    rcases paid continues running someQueued with ⟨itemId, taken, settled⟩ | missed | waits
    · have fewer : c.queuedItems.card < (c.queuedItems ∪ c.takenItems).card := by
        apply Finset.card_lt_card
        refine ⟨Finset.subset_union_left, ?_⟩
        intro all
        exact settled (all (Finset.mem_union_right _ taken))
      omega
    · have some := Finset.card_pos.mpr missed
      omega
    · simp only [waits, if_true]
      omega

variable {current : DownloadEntry} {remaining : List DownloadEntry}

theorem suspend_pays {point : FallbackPoint}
    (taken : ((current :: remaining).map DownloadEntry.itemId).toFinset ⊆ c.takenItems)
    (running : ∀ deadline, point ≠ .rateLimited deadline) :
    c.Pays (c.suspend current point remaining) := by
  refine .of_subset rfl ?_ ?_ ?_ ?_
  · exact Finset.union_subset_union_right taken
  · simp [missedItems, suspend, Processor.handsOver]
  · have unspent := Finset.card_le_card
      (unspentItems_subset (c := c) (.fallback current point remaining)
        (taken.trans Finset.subset_union_right))
    exact Nat.add_le_add_left unspent _
  · intro waits
    cases point with
    | rateLimited deadline => exact absurd rfl (running deadline)
    | _ => cases waits

theorem beginFallback_pays
    (taken : ((current :: remaining).map DownloadEntry.itemId).toFinset ⊆ c.takenItems) :
    c.Pays (c.beginFallback current remaining) := by
  have currentTaken : current.itemId ∈ c.takenItems := taken (by simp)
  have handed : c.Pays { c with handedOver := c.handedOver ++ [current.itemId] } :=
    .congr rfl rfl rfl rfl rfl
  have downloading : c.Pays ({ c with handedOver := c.handedOver ++ [current.itemId] }.setStatus
        current.itemId .downloading) := handed.trans (setStatus_pays _ currentTaken)
  rcases c.beginFallback_cases current remaining with waiting | running
  · rw [waiting]
    exact (downloading.trans (setStatus_pays _ currentTaken)).trans (suspend_pays taken (by simp))
  · rw [running]
    exact downloading.trans (suspend_pays taken (by simp))

/-- The fallback loop pays for its end with the items it skips, or with what the
call has settled before. -/
theorem startFallbacks_pays {entries : List DownloadEntry}
    (taken : (entries.map DownloadEntry.itemId).toFinset ⊆ c.takenItems)
    (paid : entries = [] → c.Paid) : c.Pays (c.startFallbacks entries) := by
  rcases c.startFallbacks_cases entries with ⟨ended, terminal⟩ | found
  · rw [ended]
    apply finishProcessing_pays
    intro _ _ _
    cases entries with
    | nil => exact paid rfl
    | cons first rest =>
      left
      refine ⟨first.itemId, taken (by simp), ?_⟩
      intro queued
      obtain ⟨e, member, status, same⟩ := mem_queuedItems.mp queued
      have past := terminal first List.mem_cons_self e member same
      simp [status] at past
  · obtain ⟨skipped, next, remaining, split, _, _, begun⟩ := found
    rw [begun]
    apply beginFallback_pays
    refine Finset.Subset.trans ?_ taken
    rw [split, List.map_append, List.toFinset_append]
    exact Finset.subset_union_right

theorem settled_pays {point : FallbackPoint} {status : EntryStatus} {details : StatusDetails}
    (suspended : c.processor = .fallback current point remaining) (settles : status ≠ .queued) :
    c.Pays ((c.setStatus current.itemId status details).startFallbacks remaining) := by
  have taken : c.takenItems = ((current :: remaining).map DownloadEntry.itemId).toFinset := by
    simp [takenItems, takenIds, suspended, Processor.taken]
  have currentTaken : current.itemId ∈ c.takenItems := by
    rw [taken]
    simp
  refine (setStatus_pays details currentTaken).trans (startFallbacks_pays ?_ ?_)
  · change _ ⊆ c.takenItems
    rw [taken]
    simp
  · intro _
    left
    refine ⟨current.itemId, currentTaken, ?_⟩
    intro queued
    obtain ⟨e, member, isQueued, same⟩ := mem_queuedItems.mp queued
    rcases c.mem_setStatus _ _ _ member with ⟨_, other⟩ | ⟨_, written⟩
    · exact other same
    · exact settles (written.symm.trans isQueued)

theorem limited_pays
    {errorMsg : String} (suspended : c.processor = .fallback current .transfer remaining)
    (unspent : current.itemId ∉ c.rateLimitRetriedItemIds) (deadline : Nat) :
    c.Pays ((c.beginRateLimitRetry current.itemId errorMsg).suspend current
      (.rateLimited deadline) remaining) := by
  have taken : c.takenItems = ((current :: remaining).map DownloadEntry.itemId).toFinset := by
    simp [takenItems, takenIds, suspended, Processor.taken]
  have currentTaken : current.itemId ∈ c.takenItems := by
    rw [taken]
    simp
  have items : (c.beginRateLimitRetry current.itemId errorMsg).itemIds = c.itemIds := by
    simp [itemIds, beginRateLimitRetry]
  have fewer : (((c.beginRateLimitRetry current.itemId errorMsg).suspend current
      (.rateLimited deadline) remaining).unspentItems).card < c.unspentItems.card := by
    apply Finset.card_lt_card
    have spentAll : ((c.beginRateLimitRetry current.itemId errorMsg).suspend current
        (.rateLimited deadline) remaining).unspentItems = c.unspentItems.erase current.itemId := by
      ext other
      simp only [unspentItems, suspend, takenItems, takenIds, Processor.taken, suspended]
      simp only [itemIds] at items
      simp only [itemIds, items]
      by_cases same : other = current.itemId <;> simp [beginRateLimitRetry, same]
    rw [spentAll]
    apply Finset.erase_ssubset
    simp [unspentItems, currentTaken, unspent]
  have work : ((c.beginRateLimitRetry current.itemId errorMsg).queuedItems ∪
      ((current :: remaining).map DownloadEntry.itemId).toFinset).card ≤
        (c.queuedItems ∪ c.takenItems).card := by
    apply Finset.card_le_card
    rw [← taken]
    refine Finset.union_subset ?_ Finset.subset_union_right
    refine (queuedItems_setStatus _ _ _ _).trans (Finset.union_subset ?_ ?_)
    · exact Finset.subset_union_left
    · rw [Finset.singleton_subset_iff]
      exact Finset.mem_union_right _ currentTaken
  change c.reentries + (((c.beginRateLimitRetry current.itemId errorMsg).queuedItems ∪
        ((current :: remaining).map DownloadEntry.itemId).toFinset).card + 0 +
      2 * c.timers.length +
      2 * (((c.beginRateLimitRetry current.itemId errorMsg).suspend current
        (.rateLimited deadline) remaining).unspentItems).card + 1) ≤ c.reentries + c.budget
  simp only [budget]
  omega

theorem backedOff_pays {deadline : Nat}
    (suspended : c.processor = .fallback current (.rateLimited deadline) remaining) :
    c.Pays ((c.endRateLimitRetry current.itemId).startFallbacks remaining) := by
  have taken : c.takenItems = ((current :: remaining).map DownloadEntry.itemId).toFinset := by
    simp [takenItems, takenIds, suspended, Processor.taken]
  have waits : c.processor.backsOff = true := by
    rw [suspended]
    rfl
  rcases c.endRateLimitRetry_cases current.itemId with same | requeued
  · rw [same]
    refine startFallbacks_pays ?_ fun _ => .inr (.inr waits)
    rw [taken]
    simp
  · rw [requeued, processQueue_of_isProcessing _ (by simp [isProcessing, suspended])]
    refine (setStatus_pays {} (by rw [taken]; simp)).trans
      (startFallbacks_pays ?_ fun _ => .inr (.inr waits))
    change _ ⊆ c.takenItems
    rw [taken]
    simp

theorem timerFired_pays {timer : RateLimitTimer} (pending : timer ∈ c.timers) :
    c.Pays ({ c with timers := c.timers.erase timer }.endRateLimitRetry itemId) := by
  have shorter : (c.timers.erase timer).length + 1 = c.timers.length := by
    rw [List.length_erase_of_mem pending]
    have := List.length_pos_of_mem pending
    omega
  rcases endRateLimitRetry_cases { c with timers := c.timers.erase timer } itemId with
    same | requeued
  · rw [same]
    refine .of_subset rfl (Finset.Subset.refl _) (Finset.Subset.refl _) ?_ id
    change (c.timers.erase timer).length + c.unspentItems.card ≤ _
    omega
  · rw [requeued]
    refine Pays.trans ?_ (processQueue_pays _)
    have queued := c.queuedItems_setStatus itemId .queued {}
    have work : ((c.setStatus itemId .queued).queuedItems ∪ c.takenItems).card ≤
        (c.queuedItems ∪ c.takenItems).card + 1 := by
      refine (Finset.card_le_card ?_).trans (Finset.card_insert_le itemId _)
      intro other member
      rw [Finset.mem_insert]
      rcases Finset.mem_union.mp member with isQueued | isTaken
      · rcases Finset.mem_union.mp (queued isQueued) with old | named
        · exact .inr (Finset.mem_union_left _ old)
        · exact .inl (Finset.mem_singleton.mp named)
      · exact .inr (Finset.mem_union_right _ isTaken)
    have missed : (c.setStatus itemId .queued).missedItems.card ≤ c.missedItems.card + 1 := by
      by_cases hands : c.processor.handsOver = true
      · refine (Finset.card_le_card ?_).trans (Finset.card_insert_le itemId _)
        simp only [missedItems, setStatus_processor, hands, if_true]
        intro other member
        obtain ⟨isQueued, untaken⟩ := Finset.mem_sdiff.mp member
        rw [Finset.mem_insert]
        rcases Finset.mem_union.mp (queued isQueued) with old | named
        · exact .inr (Finset.mem_sdiff.mpr ⟨old, untaken⟩)
        · exact .inl (Finset.mem_singleton.mp named)
      · simp [missedItems, hands]
    have unspent : (c.setStatus itemId .queued).unspentItems = c.unspentItems := by
      have items : (c.setStatus itemId .queued).itemIds = c.itemIds := by
        simp [itemIds]
      simp only [unspentItems, items, setStatus_retried]
      rfl
    change c.reentries + (((c.setStatus itemId .queued).queuedItems ∪ c.takenItems).card +
      (c.setStatus itemId .queued).missedItems.card + 2 * (c.timers.erase timer).length +
        2 * (c.setStatus itemId .queued).unspentItems.card +
          (if c.processor.backsOff then 1 else 0)) ≤ c.reentries + c.budget
    rw [unspent]
    simp only [budget]
    omega

theorem merge_pays {items : List DownloadProgress}
    (admitted : System.admits (.progress items) = true) : c.Pays (c.merge items) := by
  have queued : (c.merge items).queuedItems ⊆ c.queuedItems := by
    intro itemId member
    obtain ⟨e, present, isQueued, same⟩ := mem_queuedItems.mp member
    simp only [Controller.merge, List.mem_map] at present
    obtain ⟨before, beforeMember, rfl⟩ := present
    rw [mergeEntry_itemId] at same
    refine mem_queuedItems.mpr ⟨before, beforeMember, ?_, same⟩
    rcases System.mergeEntry_engine admitted c.nativeRunStopped before with
      kept | ⟨_, _, active | done⟩
    · rw [← kept]
      exact isQueued
    · simp [isQueued] at active
    · simp [isQueued] at done
  have itemsSame : (c.merge items).itemIds = c.itemIds := by
    simp only [itemIds, Controller.merge, List.map_map]
    apply List.map_congr_left
    intro entry _
    simp
  refine .of_subset rfl (Finset.union_subset_union_left queued) ?_ ?_ id
  · by_cases hands : c.processor.handsOver = true
    · simp only [missedItems, hands, if_true, Controller.merge] at queued ⊢
      exact Finset.sdiff_subset_sdiff queued (Finset.Subset.refl _)
    · simp [missedItems, hands, Controller.merge]
  · simp only [unspentItems, itemsSame]
    exact Nat.le_refl _

theorem scheduleAll_pays (c : Controller) :
    (c.entries.foldl scheduleRateLimitRetry c).reentries = c.reentries ∧
      (c.entries.foldl scheduleRateLimitRetry c).processor = c.processor ∧
      (c.entries.foldl scheduleRateLimitRetry c).queuedItems ⊆ c.queuedItems ∧
      (c.entries.foldl scheduleRateLimitRetry c).timers.length +
          (c.entries.foldl scheduleRateLimitRetry c).unspentItems.card ≤
        c.timers.length + c.unspentItems.card := by
  have kept := List.foldlRecOn c.entries scheduleRateLimitRetry
    (motive := fun (next : Controller) => next.reentries = c.reentries ∧
      next.processor = c.processor ∧ next.itemIds = c.itemIds ∧
        next.queuedItems ⊆ c.queuedItems ∧
          next.timers.length + next.unspentItems.card ≤
            c.timers.length + c.unspentItems.card)
    ⟨rfl, rfl, rfl, Finset.Subset.refl _, Nat.le_refl _⟩ (by
      intro next kept due member
      obtain ⟨reentries, processor, items, queued, delays⟩ := kept
      rcases next.scheduleRateLimitRetry_cases due with
        same | ⟨_, unspent, _, details, deadline, equal⟩
      · rw [same]
        exact ⟨reentries, processor, items, queued, delays⟩
      · have known : due.itemId ∈ next.itemIds := by
          rw [items]
          exact List.mem_map_of_mem member
        have spentOne : (next.unspentItems.erase due.itemId).card + 1 =
            next.unspentItems.card := by
          apply Finset.card_erase_add_one
          simp [unspentItems, known, unspent]
        have remaining : (next.scheduleRateLimitRetry due).unspentItems =
            next.unspentItems.erase due.itemId := by
          have sameItems : (next.setStatus due.itemId .downloading details).entries.map
              DownloadEntry.itemId = next.entries.map DownloadEntry.itemId := by
            simp
          rw [equal]
          ext other
          simp only [unspentItems, itemIds, takenItems, takenIds, setStatus_processor, sameItems]
          by_cases same : other = due.itemId <;> simp [same]
        refine ⟨?_, ?_, ?_, ?_, ?_⟩
        · rw [equal]
          exact reentries
        · rw [equal]
          exact processor
        · rw [equal]
          simpa [itemIds] using items
        · refine Finset.Subset.trans ?_ queued
          rw [equal]
          intro other isQueued
          obtain ⟨e, present, status, same⟩ := mem_queuedItems.mp isQueued
          rcases next.mem_setStatus due.itemId .downloading details present with
            ⟨old, _⟩ | ⟨_, written⟩
          · exact mem_queuedItems.mpr ⟨e, old, status, same⟩
          · simp [status] at written
        · rw [remaining, equal]
          simp only [List.length_cons]
          omega)
  exact ⟨kept.1, kept.2.1, kept.2.2.2.1, kept.2.2.2.2⟩

theorem mergeNativeSnapshot_pays {batch : Batch} (snapshot : NativeWorkerSnapshot)
    (current : c.takenIds = batch.ids) (polled : c.processor.handsOver = false) :
    c.Pays (c.mergeNativeSnapshot snapshot batch.ids) ∧
      (c.mergeNativeSnapshot snapshot batch.ids).processor = c.processor := by
  obtain ⟨pendingPause, manualPaused, ⟨_, flagged⟩ | merged⟩ :=
    c.mergeNativeSnapshot_cases snapshot batch.ids
  · rw [flagged]
    exact ⟨.congr rfl rfl rfl rfl rfl, rfl⟩
  · obtain ⟨reentries, processor, queued, delays⟩ :=
      ({ c with pendingPause, manualPaused }.mergeItems snapshot batch.ids).scheduleAll_pays
    have items : ({ c with pendingPause, manualPaused }.mergeItems snapshot batch.ids).itemIds =
        c.itemIds := by
      simp only [itemIds, mergeItems, List.map_map]
      apply List.map_congr_left
      intro entry _
      simp only [Function.comp_apply]
      split
      · simp
      · rfl
    have queuedBefore :
        ({ c with pendingPause, manualPaused }.mergeItems snapshot batch.ids).queuedItems ⊆
          c.queuedItems ∪ c.takenItems := by
      intro itemId member
      obtain ⟨e, present, isQueued, same⟩ := mem_queuedItems.mp member
      simp only [mergeItems, List.mem_map] at present
      obtain ⟨before, beforeMember, rfl⟩ := present
      by_cases inBatch : before.itemId ∈ batch.ids
      · apply Finset.mem_union_right
        rw [if_pos inBatch, applyNativeItemState_itemId] at same
        rw [takenItems, current, List.mem_toFinset, ← same]
        exact inBatch
      · rw [if_neg inBatch] at isQueued same
        exact Finset.mem_union_left _ (mem_queuedItems.mpr ⟨before, beforeMember, isQueued, same⟩)
    rw [merged]
    refine ⟨.of_subset reentries ?_ ?_ ?_ ?_, processor⟩
    · have taken : ((({ c with pendingPause, manualPaused }.mergeItems snapshot
          batch.ids).entries.foldl scheduleRateLimitRetry
            ({ c with pendingPause, manualPaused }.mergeItems snapshot
              batch.ids)).takenItems) = c.takenItems := by
        simp only [takenItems, takenIds, processor]
        rfl
      rw [taken]
      exact Finset.union_subset (queued.trans queuedBefore) Finset.subset_union_right
    · have notHanding : (({ c with pendingPause, manualPaused }.mergeItems snapshot
          batch.ids).entries.foldl scheduleRateLimitRetry
            ({ c with pendingPause, manualPaused }.mergeItems snapshot
              batch.ids)).processor.handsOver = false := by
        rw [processor]
        exact polled
      simp [missedItems, notHanding]
    · refine delays.trans (Nat.le_of_eq ?_)
      simp only [unspentItems, items]
      rfl
    · rw [processor]
      exact id

variable {snapshot : NativeWorkerSnapshot}

theorem mergeEnded_unqueued {runId : Nat}
    {ids : List String} (shows : Service.Shows snapshot runId ids)
    (ended : snapshot.isRunning = false)
    (past : ∀ item ∈ snapshot.items, item.itemId ∈ ids → item.status ≠ .queued)
    (inBatch : itemId ∈ ids) : itemId ∉ (c.mergeNativeSnapshot snapshot ids).queuedItems := by
  intro queued
  obtain ⟨e, present, isQueued, same⟩ := mem_queuedItems.mp queued
  obtain ⟨pendingPause, manualPaused, ⟨absent, _⟩ | merged⟩ :=
    c.mergeNativeSnapshot_cases snapshot ids
  · rw [← shows.items] at inBatch
    obtain ⟨item, member, listed⟩ := List.mem_map.mp inBatch
    apply absent item member
    rw [← shows.items]
    exact List.mem_map_of_mem member
  · rw [merged] at present
    rcases mem_scheduleAll _ _ present with applied | ⟨downloading, _⟩
    · simp only [mergeItems, List.mem_map] at applied
      obtain ⟨before, _, rfl⟩ := applied
      have beforeInBatch : before.itemId ∈ ids := by
        split at same
        · simpa [← same] using inBatch
        · rwa [same]
      rw [if_pos beforeInBatch] at isQueued
      have listed : before.itemId ∈ snapshot.items.map NativeWorkerItemState.itemId := by
        rwa [shows.items]
      have terminal := applyNativeItemState_terminal before
        (snapshotItem_terminal listed (shows.ended ended) fun item member same =>
          past item member (same ▸ beforeInBatch))
      simp [isQueued] at terminal
    · simp [isQueued] at downloading

theorem pollMerged_pays {batch : Batch} {startedAt lastSeenAt : Nat} {started : Bool}
    (suspended : c.processor = .polling batch startedAt started lastSeenAt)
    (nonempty : batch.queued ≠ []) (shows : Service.Shows snapshot batch.runId batch.ids) :
    c.Pays (c.pollMerged batch startedAt snapshot) := by
  have current : c.takenIds = batch.ids := by
    simp [takenIds, suspended, Processor.taken, Batch.ids]
  obtain ⟨merged, processor⟩ := mergeNativeSnapshot_pays snapshot current
    (by simp [suspended, Processor.handsOver])
  have taken : (c.mergeNativeSnapshot snapshot batch.ids).takenIds = batch.ids := by
    rw [takenIds, processor]
    exact current
  refine merged.trans ?_
  simp only [pollMerged]
  split
  · refine .of_subset rfl ?_ ?_ ?_ ?_
    · apply Finset.union_subset_union_right
      rw [takenItems, takenItems, taken]
      exact Finset.Subset.refl _
    · simp [missedItems, Processor.handsOver]
    · have unspent := Finset.card_le_card (unspentItems_subset
        (c := c.mergeNativeSnapshot snapshot batch.ids)
        (.polling batch startedAt true (c.mergeNativeSnapshot snapshot batch.ids).now) (by
          rw [takenItems, taken]
          exact Finset.subset_union_right))
      exact Nat.add_le_add_left unspent _
    · simp [Processor.backsOff]
  next past =>
    unfold endBatch
    refine Pays.trans (.congr rfl rfl rfl rfl rfl) (finishProcessing_pays ?_)
    intro continues _ _
    obtain ⟨first, member⟩ := List.exists_mem_of_ne_nil _ nonempty
    left
    refine ⟨first.itemId, ?_, ?_⟩
    · change first.itemId ∈ (c.mergeNativeSnapshot snapshot batch.ids).takenIds.toFinset
      rw [taken, List.mem_toFinset]
      exact List.mem_map_of_mem member
    · refine mergeEnded_unqueued shows (by simpa using past) ?_ (List.mem_map_of_mem member)
      intro item itemMember inBatch isQueued
      simp only [Bool.not_eq_true', List.any_eq_false, decide_eq_true_eq, not_and] at continues
      exact continues item itemMember inBatch isQueued

/-! ## Every step pays, but a call that throws early -/

/-- A suspended call works on something. -/
def Engaged (c : Controller) : Prop :=
  c.isProcessing = true → c.processor.taken ≠ []

theorem Engaged.processQueue (engaged : c.Engaged) : c.processQueue.Engaged := by
  rcases c.processQueue_cases with same | ⟨_, ⟨nonempty, _⟩, equal⟩
  · rwa [same]
  · rw [equal]
    intro _
    exact nonempty

theorem engaged_finishProcessing (c : Controller) (continueProcessing : Bool) :
    (c.finishProcessing continueProcessing).Engaged := by
  obtain ⟨_, _, _, equal, ⟨rfl, _⟩ | ⟨rfl, ⟨nonempty, _⟩, _⟩⟩ :=
    c.finishProcessing_eq continueProcessing
  · rw [equal]
    intro processing
    cases processing
  · rw [equal]
    intro _
    exact nonempty

theorem engaged_startFallbacks (c : Controller) (entries : List DownloadEntry) :
    (c.startFallbacks entries).Engaged := by
  rcases c.startFallbacks_cases entries with ⟨ended, _⟩ | ⟨_, current, remaining, _, _, _, begun⟩
  · rw [ended]
    exact c.engaged_finishProcessing true
  · rw [begun]
    intro _
    rcases c.beginFallback_cases current remaining with waiting | running
    · rw [waiting]
      exact List.cons_ne_nil _ _
    · rw [running]
      exact List.cons_ne_nil _ _

theorem Engaged.taken (engaged : c.Engaged) {processor : Processor}
    (suspended : c.processor = processor) (busy : processor ≠ .idle) : processor.taken ≠ [] := by
  rw [← suspended] at busy ⊢
  apply engaged
  unfold isProcessing
  split
  · exact absurd ‹_› busy
  · rfl

theorem Engaged.handled (handled : Handled c event next)
    (engaged : c.Engaged) : next.Engaged := by
  cases handled with
  | unchanged | flags | progressed | removed => exact engaged
  | enqueued | replaced | kicked => exact Engaged.processQueue engaged
  | timerFired itemId timer =>
    rcases endRateLimitRetry_cases { c with timers := c.timers.erase timer } itemId with
      same | requeued
    · rw [same]
      exact engaged
    · rw [requeued]
      exact Engaged.processQueue engaged
  | threw | pausedAtStart => exact c.engaged_finishProcessing true
  | buildRequests _ suspended | requestBuilt _ _ _ suspended | requestsBuilt _ _ suspended
  | pauseForwarded _ suspended =>
    have nonempty := engaged.taken suspended (by simp)
    exact fun _ => nonempty
  | withoutWorker => exact c.engaged_startFallbacks _
  | started batch settings suspended =>
    have nonempty := engaged.taken suspended (by simp)
    unfold onStarted
    dsimp only
    split
    · exact fun _ => nonempty
    · exact fun _ => nonempty
  | gaveUp => exact engaged_startFallbacks _ _
  | merged batch startedAt started lastSeenAt snapshot suspended =>
    have nonempty := engaged.taken suspended (by simp)
    unfold pollMerged
    dsimp only
    split
    · exact fun _ => nonempty
    · exact engaged_finishProcessing _ _
  | admissionDropped | fallbackSettled | backedOff => exact engaged_startFallbacks _ _
  | admitted | fallbackMoved | fallbackLimited => exact fun _ => List.cons_ne_nil _ _

/-- A call that is awaited before the hand-over throws, and `_processQueue` finds
just the entries it found before. -/
def spins (c : Controller) (event : QueueEvent) : Bool :=
  event.failsEarly && !c.manualPaused && c.queuedItems.Nonempty && c.queuedItems = c.takenItems

/-- A call that throws without spinning has lost an item it found, or a new one is
queued. -/
theorem progress_of_not_spins (early : event.failsEarly = true)
    (kept : c.spins event = false) (running : c.manualPaused = false)
    (nonempty : c.queuedItems.Nonempty) :
    (∃ itemId ∈ c.takenItems, itemId ∉ c.queuedItems) ∨
      ∃ itemId ∈ c.queuedItems, itemId ∉ c.takenItems := by
  have different : c.queuedItems ≠ c.takenItems := by
    intro same
    simp [spins, early, running, same] at kept
    simp [same, kept] at nonempty
  by_contra nothing
  simp only [not_or, not_exists, not_and, not_not] at nothing
  exact different (Finset.Subset.antisymm nothing.2 nothing.1)

end Controller

/-- A new entry is added. -/
def QueueEvent.addsEntry : QueueEvent → Bool
  | .enqueue .. | .retry .. => true
  | _ => false

namespace Controller

variable {c next : Controller}

/-- Every event but a new entry pays for the re-entry it makes, unless it spins. -/
theorem pays_of_handled (handled : Handled c event next)
    (engaged : c.Engaged) (noNew : event.addsEntry = false) (kept : c.spins event = false)
    (engine : ∀ items, event = .progress items → System.admits (.progress items) = true)
    (shows : ∀ batch snapshot, c.processor.batch = some batch →
      event = .polled (some snapshot) → snapshot.runId = batch.runId →
        Service.Shows snapshot batch.runId batch.ids) : c.Pays next := by
  have sameItems (processor : Processor) (taken : processor.taken = c.processor.taken)
      (missed : processor.handsOver = true → c.processor.handsOver = true)
      (quiet : processor.backsOff = false) : c.Pays { c with processor } := by
    have equal : takenItems { c with processor } = c.takenItems := by
      simp [takenItems, takenIds, taken]
    refine .of_subset rfl ?_ ?_ ?_ ?_
    · rw [equal]
      exact Finset.Subset.refl _
    · by_cases hands : processor.handsOver = true
      · simp only [missedItems, hands, missed hands, if_true, equal]
        exact Finset.Subset.refl _
      · simp [missedItems, hands]
    · simp only [unspentItems, equal]
      exact Nat.le_refl _
    · simp [quiet]
  cases handled with
  | unchanged => exact .refl
  | flags => exact .congr rfl rfl rfl rfl rfl
  | enqueued | replaced => cases noNew
  | removed itemId =>
    have items : (c.removeLocal itemId).itemIds.Sublist c.itemIds := (List.filter_sublist).map _
    have queued : (c.removeLocal itemId).queuedItems ⊆ c.queuedItems := by
      intro other member
      obtain ⟨e, present, isQueued, same⟩ := mem_queuedItems.mp member
      exact mem_queuedItems.mpr ⟨e, (List.mem_filter.mp present).1, isQueued, same⟩
    refine .of_subset rfl (Finset.union_subset_union_left queued) ?_ ?_ id
    · by_cases hands : c.processor.handsOver = true
      · simp only [missedItems, removeLocal, hands, if_true] at queued ⊢
        exact Finset.sdiff_subset_sdiff queued (Finset.Subset.refl _)
      · simp [missedItems, removeLocal, hands]
    · apply Nat.add_le_add_left
      apply Finset.card_le_card
      apply Finset.sdiff_subset_sdiff _ (Finset.Subset.refl _)
      apply Finset.union_subset_union_left
      intro other member
      rw [List.mem_toFinset] at member ⊢
      exact items.subset member
  | kicked =>
    refine Pays.trans ?_ (processQueue_pays _)
    exact .congr rfl rfl rfl rfl rfl
  | progressed items => exact merge_pays (engine items rfl)
  | timerFired itemId timer pending => exact timerFired_pays pending
  | threw _ early handing =>
    refine finishProcessing_pays fun _ running nonempty => ?_
    rcases progress_of_not_spins early kept running nonempty with
      lost | ⟨itemId, queued, untaken⟩
    · exact .inl lost
    · right; left
      refine ⟨itemId, ?_⟩
      simp only [missedItems, handing, if_true]
      exact Finset.mem_sdiff.mpr ⟨queued, untaken⟩
  | pausedAtStart queued suspended paused =>
    refine finishProcessing_pays fun _ running _ => ?_
    rw [paused] at running
    cases running
  | buildRequests _ suspended | requestBuilt _ _ _ suspended =>
    exact sameItems _ (by simp [suspended, Processor.taken])
      (by simp [suspended, Processor.handsOver]) rfl
  | withoutWorker queued suspended =>
    refine startFallbacks_pays ?_ ?_
    · intro itemId member
      simp only [takenItems, takenIds, suspended, Processor.taken, List.mem_toFinset] at member ⊢
      exact ((List.take_sublist 1 queued).map _).subset member
    · intro empty
      have nonempty := engaged.taken suspended (by simp)
      cases queued with
      | nil => exact absurd rfl nonempty
      | cons => simp at empty
  | requestsBuilt queued remaining suspended =>
    have begun := sameItems (.starting ⟨queued, c.nextRunId⟩
        ⟨c.simultaneousDownloads, c.wifiOnly, c.manualPaused⟩)
      (by simp [suspended, Processor.taken]) (by simp [suspended, Processor.handsOver]) rfl
    exact begun.trans (.congr rfl rfl rfl rfl rfl)
  | started batch settings suspended =>
    unfold onStarted
    dsimp only
    split
    · have forwarded := sameItems (.pausing batch)
        (by simp [suspended, Processor.taken]) (by simp [suspended, Processor.handsOver]) rfl
      exact forwarded.trans (.congr rfl rfl rfl rfl rfl)
    · have polling := sameItems (.polling batch c.now false c.now)
        (by simp [suspended, Processor.taken]) (by simp [Processor.handsOver]) rfl
      exact polling.trans (.congr rfl rfl rfl rfl rfl)
  | pauseForwarded batch suspended =>
    exact sameItems _ (by simp [suspended, Processor.taken]) (by simp [Processor.handsOver]) rfl
  | gaveUp batch _ _ _ _ suspended =>
    unfold giveUp
    refine Pays.trans (.congr rfl rfl rfl rfl rfl) (startFallbacks_pays ?_ ?_)
    · simp [takenItems, takenIds, suspended, Processor.taken]
    · exact fun empty => absurd empty (engaged.taken suspended (by simp))
  | merged batch startedAt started lastSeenAt snapshot suspended sameRun =>
    exact pollMerged_pays suspended (engaged.taken suspended (by simp))
      (shows batch snapshot (by simp [suspended, Processor.batch]) rfl sameRun)
  | admissionDropped _ entry remaining suspended gone =>
    refine startFallbacks_pays ?_ fun _ => .inl ⟨entry.itemId, ?_, ?_⟩
    · simp [takenItems, takenIds, suspended, Processor.taken]
    · simp [takenItems, takenIds, suspended, Processor.taken]
    · intro queued
      obtain ⟨e, member, _, same⟩ := mem_queuedItems.mp queued
      simp only [has, List.any_eq_false, decide_eq_true_eq] at gone
      exact gone e member same
  | admitted _ entry remaining suspended =>
    have taken : ((entry :: remaining).map DownloadEntry.itemId).toFinset ⊆ c.takenItems := by
      simp [takenItems, takenIds, suspended, Processor.taken]
    exact (setStatus_pays _ (taken (by simp))).trans (suspend_pays taken (by simp))
  | fallbackMoved _ entry point movedTo remaining suspended running moves =>
    exact suspend_pays (by simp [takenItems, takenIds, suspended, Processor.taken]) moves
  | fallbackSettled _ entry point remaining status details suspended _ outcome =>
    refine settled_pays suspended ?_
    rcases outcome with rfl | ⟨rfl, _⟩ <;> simp
  | fallbackLimited _ entry remaining errorMsg suspended _ unspent =>
    exact limited_pays suspended unspent _
  | backedOff entry deadline remaining suspended => exact backedOff_pays suspended

end Controller

namespace SystemEvent

/-- A new entry is added. -/
def addsEntry : SystemEvent → Bool
  | .queue _ event => event.addsEntry
  | _ => false

/-- The user does something to the queue. -/
def byUser : SystemEvent → Bool
  | .queue _ event =>
    match event with
    | .enqueue .. | .retry .. | .remove _ | .pause | .resume | .setWifiOnly _
    | .setSimultaneousDownloads _ => true
    | _ => false
  | .service .stop => true
  | _ => false

end SystemEvent

namespace System

/-- No call throws early only to find the same entries again. -/
def doesNotSpin (s : System) : SystemEvent → Bool
  | .queue time event => !Controller.spins { s.controller with now := time } event
  | _ => true

variable {s : System}

theorem pays_step {next : System} {event : SystemEvent}
    (reachable : machine.Reachable Transition.Machine.anyStep s)
    (engaged : s.controller.Engaged) (kept : doesNotSpin s event = true)
    (noNew : event.addsEntry = false) (stepped : machine.step s event = some next) :
    s.controller.Pays next.controller ∧ next.controller.Engaged := by
  have at_time (time : Nat) : s.controller.Pays { s.controller with now := time } :=
    .congr rfl rfl rfl rfl rfl
  cases stepped_of_step stepped with
  | queue time event controller admitted handled =>
    refine ⟨(at_time time).trans
      (Controller.pays_of_handled handled engaged noNew (by simpa [doesNotSpin] using kept)
        ?_ ?_), Controller.Engaged.handled handled engaged⟩
    · rintro items rfl
      exact admitted
    · rintro batch snapshot _ rfl
      cases admitted
  | poll time readable controller handled =>
    refine ⟨(at_time time).trans (Controller.pays_of_handled handled engaged rfl
        (by simp [Controller.spins, QueueEvent.failsEarly]) ?_ ?_),
      Controller.Engaged.handled handled engaged⟩
    · rintro items equal
      cases equal
    · intro batch snapshot current equal sameRun
      cases readable with
      | false => cases equal
      | true => exact shows_batch reachable current (QueueEvent.polled.inj equal) sameRun
  | deliver => exact ⟨.congr rfl rfl rfl rfl rfl, engaged⟩
  | service => exact ⟨.refl, engaged⟩

theorem engaged_of_reachable {guard : System → SystemEvent → Prop}
    (reachable : machine.Reachable guard s) : s.controller.Engaged := by
  refine reachable.invariant (motive := fun s => s.controller.Engaged) ?_ ?_
  · rintro state ⟨_, _, _, _, _, controller, _⟩
    rw [controller]
    intro processing
    cases processing
  · intro state event next _ engaged _ stepped
    cases stepped_of_step stepped with
    | queue time event controller _ handled => exact .handled handled engaged
    | poll time readable controller handled => exact .handled handled engaged
    | deliver => exact engaged
    | service => exact engaged

/-- A call that throws before the hand-over re-enters `_processQueue` only after an
entry it found is no longer queued, or another one is. -/
def ReentersOnProgress (s : System) (time : Nat) (event : QueueEvent) : Prop :=
  ∀ next, machine.step s (.queue time event) = some next →
    s.controller.reentries < next.controller.reentries →
      (∃ itemId ∈ s.controller.takenItems, itemId ∉ s.controller.queuedItems) ∨
        ∃ itemId ∈ s.controller.queuedItems, itemId ∉ s.controller.takenItems

theorem reentersOnProgress {time : Nat}
    (early : event.failsEarly = true) (kept : doesNotSpin s (.queue time event) = true) :
    s.ReentersOnProgress time event := by
  intro next stepped reentered
  simp only [machine, step] at stepped
  split at stepped
  · obtain ⟨controller, moved, rfl⟩ := Option.map_eq_some_iff.mp stepped
    unfold Controller.step at moved
    split at moved
    · cases moved
    · obtain rfl := Controller.handle_failsEarly early moved
      obtain ⟨_, _, _, equal, ⟨_, same⟩ | ⟨_, ⟨nonempty, running⟩, _⟩⟩ :=
        Controller.finishProcessing_eq { s.controller with now := time } true
      · simp [equal, same] at reentered
      · refine Controller.progress_of_not_spins (c := { s.controller with now := time }) early
          (by simpa [doesNotSpin] using kept) running ?_
        rw [Controller.queuedItems, List.toFinset_nonempty_iff]
        simpa using nonempty
  · cases stepped

/-- Where no call throws only to find the same entries again, a call that throws
re-enters on progress, and without new entries the chain of re-entries ends: from
any reachable state on, the budget of that state bounds it. -/
theorem reentry_chain_ends {s final : System}
    (reachable : machine.Reachable Transition.Machine.anyStep s)
    (path : machine.Path
      (fun s event => doesNotSpin s event = true ∧ event.addsEntry = false) s final) :
    final.controller.reentries ≤ s.controller.reentries + s.controller.budget ∧
      ∀ time event, event.failsEarly = true →
        doesNotSpin final (.queue time event) = true → final.ReentersOnProgress time event := by
  constructor
  · have paid : machine.Reachable Transition.Machine.anyStep final ∧
        s.controller.Pays final.controller ∧ final.controller.Engaged := by
      refine path.preserves (motive := fun state =>
        machine.Reachable Transition.Machine.anyStep state ∧
          s.controller.Pays state.controller ∧ state.controller.Engaged)
        ⟨reachable, .refl, engaged_of_reachable reachable⟩ ?_
      rintro state event next ⟨before, pays, engaged⟩ ⟨kept, noNew⟩ stepped
      have paid := pays_step before engaged kept noNew stepped
      exact ⟨before.extend (.step event .refl trivial stepped), pays.trans paid.1, paid.2⟩
    have pays := paid.2.1
    simp only [Controller.Pays] at pays
    omega
  · intro time event early kept
    exact reentersOnProgress early kept

/-- Two items, and no native worker. -/
def twoWithoutWorker : List SystemEvent :=
  [.queue 0 .pause, .queue 0 (.enqueue "a" { id := "a" } none none),
    .queue 0 (.enqueue "b" { id := "b" } none none), .queue 0 .resume]

/-- The fallback of the second item fails, then `_processQueue` turns to the first. -/
def oneAfterTheOther : List SystemEvent :=
  [.queue 0 (.resumeReturned true), .queue 0 (.hydrated true),
    .queue 0 (.directoryResolved (some "no directory")), .queue 0 (.hydrated true),
    .queue 0 (.directoryResolved none), .queue 0 (.transferReturned (.threw "offline"))]

/-- The items can be worked off one after the other. -/
def worksOff (s : System) : Bool :=
  machine.runMeets (fun s event => doesNotSpin s event && !event.addsEntry) s oneAfterTheOther &&
    (machine.run s oneAfterTheOther).any fun final =>
      s.controller.reentries < final.controller.reentries

/-- Working off two items re-enters once, within the budget. -/
theorem reentry_chain_ends_for_two :
    ∃ s final : System, s.controller.reentries < final.controller.reentries ∧
      final.controller.reentries ≤ s.controller.reentries + s.controller.budget := by
  have starts : Start { controller := { workerAvailable := false } } :=
    ⟨false, 1, false, 0, none, rfl, rfl, by simp⟩
  obtain ⟨s, reachable, checked⟩ := machine.exists_reachable_of_run worksOff starts
      (by decide +kernel : (machine.run _ twoWithoutWorker).any worksOff = true)
  simp only [worksOff, Bool.and_eq_true] at checked
  obtain ⟨kept, ran⟩ := checked
  obtain ⟨final, ended, reentered⟩ := (Option.any_eq_true _ _).mp ran
  have path : machine.Path
      (fun s event => doesNotSpin s event = true ∧ event.addsEntry = false) s final :=
    (Transition.Machine.path_of_run ended kept).mono
      fun state event allowed => by simpa using allowed
  exact ⟨s, final, by simpa using reentered, (reentry_chain_ends reachable path).1⟩

/-- One queued item whose request cannot be built, after `reentries` attempts. -/
def unbuildable (reentries : Nat) : System where
  controller :=
    { entries := [{ track := { id := "a" }, itemId := "a", status := .queued }]
      processor := .hydrating [{ track := { id := "a" }, itemId := "a", status := .queued }]
      issuedIds := ["a"]
      reentries }

theorem unbuildable_again (reentries : Nat) : machine.run (unbuildable reentries)
        [.queue 0 (.hydrated true), .queue 0 (.requestBuilt false)] =
      some (unbuildable (reentries + 1)) := rfl

/-- While the download directory cannot be resolved, `_processQueue` calls itself
without end. -/
theorem reentry_chain_endless : ¬∀ s, machine.Reachable Transition.Machine.anyStep s →
      ∃ bound, ∀ final, machine.Path (fun _ event => event.byUser = false) s final →
          final.controller.reentries ≤ bound := by
  intro ends
  have reachable : machine.Reachable Transition.Machine.anyStep (unbuildable 0) :=
    ⟨{}, start_default, .step (.queue 0 (.enqueue "a" { id := "a" } none none)) .refl trivial rfl⟩
  have chain : ∀ reentries, machine.Path (fun _ event => event.byUser = false) (unbuildable 0)
        (unbuildable reentries) := by
    intro reentries
    induction reentries with
    | zero => exact .refl
    | succ reentries ih =>
      have quiet : machine.runMeets (fun _ event => !event.byUser) (unbuildable reentries)
          [.queue 0 (.hydrated true), .queue 0 (.requestBuilt false)] = true := rfl
      have again := Transition.Machine.path_of_run (unbuildable_again reentries) quiet
      exact ih.trans (again.mono fun _ _ allowed => by simpa using allowed)
  obtain ⟨bound, bounded⟩ := ends (unbuildable 0) reachable
  have beyond := bounded _ (chain (bound + 1))
  exact absurd beyond (Nat.not_succ_le_self bound)

end System
end LosslessMusic.Queue
