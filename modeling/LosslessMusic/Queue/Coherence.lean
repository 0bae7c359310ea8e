import LosslessMusic.Queue.Identity
import Mathlib.Data.List.Find

/-!
# Entries and their error texts

An entry that is done or queued should show no error, and one that was already in the
library should be done. `copyWith` keeps the text that it is given no other for, so the
entry of a retried item carries its old text into the next queueing and into its success.
-/

namespace LosslessMusic.Queue

/-- Neither a done nor a queued entry has an error text, and an entry that was already in
the library is done. -/
structure DownloadEntry.Coherent (e : DownloadEntry) : Prop where
  textless : e.status = .done ∨ e.status = .queued → e.error = none
  flagged : e.alreadyInLibrary = true → e.status = .done

namespace Controller

variable {c : Controller}

/-! ## The steps that leave an old text -/

/-- The item has an entry with an error text. -/
def hasText (c : Controller) (itemId : String) : Bool :=
  c.entries.any fun e => e.itemId = itemId && e.error.isSome

/-- The item has an entry that was already in the library. -/
def isFlagged (c : Controller) (itemId : String) : Bool :=
  c.entries.any fun e => e.itemId = itemId && e.alreadyInLibrary

/-- The item of the suspended Dart fallback has an entry with an error text. -/
def currentHasText (c : Controller) : Bool :=
  match c.processor with
  | .fallback next _ _ => c.hasText next.itemId
  | _ => false

/-- What the fallback loop takes up, if the event leads to it. -/
def fallbacksAfter (c : Controller) (event : QueueEvent) : List DownloadEntry :=
  match c.processor, event with
  | .hydrating queued, .hydrated true =>
    if c.manualPaused || c.workerAvailable then [] else queued.take 1
  | .polling batch startedAt started lastSeenAt, .polled snapshot =>
    if snapshot.any (·.runId = batch.runId) then []
    else if c.now - (if started then lastSeenAt else startedAt) > stallLimit then batch.queued
    else []
  | .fallback next .admission remaining, .admission _ =>
    if c.has next.itemId then [] else remaining
  | .fallback _ .directory remaining, .directoryResolved (some _) => remaining
  | .fallback _ .duplicate remaining, .duplicateChecked (.answer true _) => remaining
  | .fallback _ .transfer remaining, .transferReturned (.threw _) => remaining
  | .fallback next .transfer remaining, .transferReturned (.returned res) =>
    if !res.failed then []
    else if (existingLibraryPath res.error).isNone && isRateLimitError res.err &&
        !c.rateLimitRetriedItemIds.contains next.itemId then []
    else remaining
  | .fallback _ (.finishing _) remaining, .finished _ => remaining
  | .fallback _ (.rateLimited _) remaining, .backoffElapsed => remaining
  | _, _ => []

/-- The fallback loop takes up an entry with an error text and, while downloads are paused
or wait for Wi-Fi, queues it again. -/
def holdsBack (c : Controller) (entries : List DownloadEntry) : Bool :=
  (c.manualPaused || c.wifiOnly) && (entries.find? fun next =>
      c.entries.any fun e => e.itemId = next.itemId ∧ e.status.terminal = false).any
        fun next => c.hasText next.itemId

/-- The status of an entry that should have no error text. -/
def settles (status : EntryStatus) : Bool :=
  status = .done || status = .queued

/-- The engine's progress completes or queues an entry with an error text. -/
def progressSpoils (c : Controller) (items : List DownloadProgress) (e : DownloadEntry) : Bool :=
  !(c.nativeRunStopped && e.status = .queued) && !e.status.terminal && e.error.isSome &&
    (items.reverse.find? (·.itemId = e.itemId)).any fun p => settles (mapStatus p.status e.status)

/-- A snapshot completes or queues an entry with an error text. -/
def mergeSpoils (snapshot : NativeWorkerSnapshot) (batch : Batch) (e : DownloadEntry) : Bool :=
  let item := snapshotItem snapshot e
  batch.ids.contains e.itemId && !(e.status.terminal && e.status ≠ item.status) &&
    settles item.status && (item.error.isSome || e.error.isSome)

/-- The event completes or queues an entry that keeps its error text, or queues one that was
already in the library. -/
def spoils (c : Controller) (event : QueueEvent) : Bool :=
  c.holdsBack (c.fallbacksAfter event) ||
    match event with
    | .rateLimitElapsed itemId => c.hasText itemId || c.isFlagged itemId
    | .progress items => c.entries.any (c.progressSpoils items)
    | .polled (some snapshot) =>
      match c.processor with
      | .polling batch _ _ _ =>
        snapshot.runId = batch.runId && c.entries.any (mergeSpoils snapshot batch)
      | _ => false
    | .finished (.finished _) | .backoffElapsed => c.currentHasText
    | _ => false

/-! ## Entries that are written -/

variable {itemId : String}

theorem hasText_eq_false :
    c.hasText itemId = false ↔ ∀ e ∈ c.entries, e.itemId = itemId → e.error = none := by
  simp [hasText]

theorem isFlagged_eq_false : c.isFlagged itemId = false ↔
      ∀ e ∈ c.entries, e.itemId = itemId → e.alreadyInLibrary = false := by
  simp [isFlagged]

section Writing

variable {details : StatusDetails} {status : EntryStatus} {e : DownloadEntry}

theorem coherent_apply_unsettled (unsettled : settles status = false)
    (kept : details.alreadyInLibrary = none) (unflagged : e.alreadyInLibrary = false) :
    (details.apply status e).Coherent := by
  simp only [settles, Bool.or_eq_false_iff, decide_eq_false_iff_not] at unsettled
  constructor
  · intro settled
    exact absurd settled (not_or.mpr unsettled)
  · intro flagged
    simp [StatusDetails.apply, DownloadEntry.copyWith, kept, unflagged] at flagged

theorem coherent_apply_textless (given : details.error = none)
    (kept : details.alreadyInLibrary = none) (textless : e.error = none)
    (unflagged : e.alreadyInLibrary = false) : (details.apply status e).Coherent := by
  constructor
  · intro _
    simp [StatusDetails.apply, DownloadEntry.copyWith, given, kept, textless]
  · intro flagged
    simp [StatusDetails.apply, DownloadEntry.copyWith, kept, unflagged] at flagged

theorem coherent_apply_library (inLibrary : details.alreadyInLibrary = some true) :
    (details.apply .done e).Coherent := by
  constructor
  · intro _
    simp [StatusDetails.apply, DownloadEntry.copyWith, inLibrary]
  · intro _
    rfl

end Writing

theorem coherent_setStatus (coherent : ∀ e ∈ c.entries, e.Coherent)
    {status : EntryStatus} {details : StatusDetails}
    (written : ∀ e ∈ c.entries, e.itemId = itemId → (details.apply status e).Coherent) :
    ∀ e ∈ (c.setStatus itemId status details).entries, e.Coherent := by
  intro e member
  simp only [setStatus, List.mem_map] at member
  obtain ⟨before, present, rfl⟩ := member
  split
  next same => exact written before present same
  next => exact coherent before present

theorem written_of_mem {status : EntryStatus} {details : StatusDetails}
    {e : DownloadEntry} (member : e ∈ (c.setStatus itemId status details).entries)
    (same : e.itemId = itemId) :
    ∃ before ∈ c.entries, before.itemId = itemId ∧ e = details.apply status before := by
  simp only [setStatus, List.mem_map] at member
  obtain ⟨before, present, rfl⟩ := member
  split at same
  next named =>
    rw [if_pos named]
    exact ⟨before, present, named, rfl⟩
  next other => exact absurd same other

theorem isFlagged_setStatus (itemId other : String) (status : EntryStatus)
    {details : StatusDetails} (kept : details.alreadyInLibrary = none) :
    (c.setStatus itemId status details).isFlagged other = c.isFlagged other := by
  unfold isFlagged setStatus
  rw [List.any_map]
  congr 1
  funext e
  rw [Function.comp_apply]
  split
  · simp [StatusDetails.apply, DownloadEntry.copyWith, kept]
  · rfl

theorem hasText_setStatus_self (status : EntryStatus) {details : StatusDetails}
    (given : details.error = none) (textless : c.hasText itemId = false) :
    (c.setStatus itemId status details).hasText itemId = false := by
  rw [hasText_eq_false] at textless ⊢
  intro e member same
  obtain ⟨before, present, named, rfl⟩ := written_of_mem member same
  simp [StatusDetails.apply, DownloadEntry.copyWith, given, textless before present named]

theorem coherent_setStatus_unsettled (coherent : ∀ e ∈ c.entries, e.Coherent)
    {status : EntryStatus} {details : StatusDetails} (unsettled : settles status = false)
    (kept : details.alreadyInLibrary = none) (unflagged : c.isFlagged itemId = false) :
    ∀ e ∈ (c.setStatus itemId status details).entries, e.Coherent :=
  coherent_setStatus coherent fun e member same =>
    coherent_apply_unsettled unsettled kept (isFlagged_eq_false.mp unflagged e member same)

theorem coherent_setStatus_textless (coherent : ∀ e ∈ c.entries, e.Coherent)
    {status : EntryStatus} {details : StatusDetails} (given : details.error = none)
    (kept : details.alreadyInLibrary = none) (textless : c.hasText itemId = false)
    (unflagged : c.isFlagged itemId = false) :
    ∀ e ∈ (c.setStatus itemId status details).entries, e.Coherent :=
  coherent_setStatus coherent fun e member same =>
    coherent_apply_textless given kept (hasText_eq_false.mp textless e member same)
      (isFlagged_eq_false.mp unflagged e member same)

theorem any_setStatus {other : String} (status : EntryStatus) (details : StatusDetails)
    (different : other ≠ itemId) {holds : DownloadEntry → Bool}
    (named : ∀ e, holds e = true → e.itemId = other) :
    (c.setStatus itemId status details).entries.any holds = c.entries.any holds := by
  rw [Bool.eq_iff_iff, List.any_eq_true, List.any_eq_true]
  constructor
  · rintro ⟨e, member, held⟩
    have others : e.itemId ≠ itemId := by
      rw [named e held]
      exact different
    exact ⟨e, c.mem_setStatus_of_ne itemId status details member others, held⟩
  · rintro ⟨e, member, held⟩
    have others : ¬e.itemId = itemId := by
      rw [named e held]
      exact different
    refine ⟨e, ?_, held⟩
    simp only [setStatus, List.mem_map]
    exact ⟨e, member, if_neg others⟩

theorem hasText_setStatus {other : String} (status : EntryStatus)
    (details : StatusDetails) (different : other ≠ itemId) :
    (c.setStatus itemId status details).hasText other = c.hasText other := by
  refine any_setStatus status details different fun e held => ?_
  simp only [Bool.and_eq_true, decide_eq_true_eq] at held
  exact held.1

variable {entries : List DownloadEntry}

theorem holdsBack_setStatus (status : EntryStatus) (details : StatusDetails)
    (absent : ∀ next ∈ entries, next.itemId ≠ itemId) :
    (c.setStatus itemId status details).holdsBack entries = c.holdsBack entries := by
  have unfinished : ∀ next ∈ entries, ((c.setStatus itemId status details).entries.any fun e =>
          e.itemId = next.itemId ∧ e.status.terminal = false) =
        c.entries.any fun e => e.itemId = next.itemId ∧ e.status.terminal = false := by
    intro next member
    refine any_setStatus status details (absent next member) fun e held => ?_
    exact (of_decide_eq_true held).1
  unfold holdsBack
  rw [List.find?_congr unfinished]
  cases found : entries.find? fun next =>
      c.entries.any fun e => e.itemId = next.itemId ∧ e.status.terminal = false with
  | none => rfl
  | some next =>
    have text := hasText_setStatus (c := c) status details
      (absent next (List.mem_of_find?_eq_some found))
    rw [Option.any_some, Option.any_some, text]
    rfl

/-! ## The invariant -/

/-- The entries are coherent, and the Dart fallback works on no entry that was already in
the library. -/
structure Tidy (c : Controller) : Prop where
  coherent : ∀ e ∈ c.entries, e.Coherent
  current : ∀ next point remaining, c.processor = .fallback next point remaining →
    c.isFlagged next.itemId = false

namespace Tidy

theorem congr {next : Controller} (tidy : c.Tidy) (entries : next.entries = c.entries)
    (processor : ∀ entry point remaining, next.processor = .fallback entry point remaining →
      ∃ before rest, c.processor = .fallback entry before rest) : next.Tidy := by
  refine ⟨by rw [entries]; exact tidy.coherent, fun entry point remaining suspended => ?_⟩
  obtain ⟨before, rest, here⟩ := processor entry point remaining suspended
  unfold isFlagged
  rw [entries]
  exact tidy.current entry before rest here

theorem silent {next : Controller} (tidy : c.Tidy) (entries : next.entries = c.entries)
    (processor : next.processor = c.processor) : next.Tidy :=
  tidy.congr entries fun _ point remaining suspended =>
    ⟨point, remaining, processor ▸ suspended⟩

end Tidy

theorem processQueue_tidy (tidy : c.Tidy) : c.processQueue.Tidy := by
  rcases c.processQueue_cases with same | ⟨_, _, equal⟩
  · rw [same]
    exact tidy
  · refine tidy.congr (by simp) fun current point remaining suspended => ?_
    rw [equal] at suspended
    cases suspended

theorem finishProcessing_tidy (coherent : ∀ e ∈ c.entries, e.Coherent)
    (continueProcessing : Bool) : (c.finishProcessing continueProcessing).Tidy := by
  refine ⟨by rw [finishProcessing_entries]; exact coherent, ?_⟩
  intro current point remaining suspended
  obtain ⟨processor, stopped, reentries, equal, idle | taken⟩ :=
    c.finishProcessing_eq continueProcessing
  · rw [equal, idle.1] at suspended
    cases suspended
  · rw [equal, taken.1] at suspended
    cases suspended

theorem unflagged_of_unfinished {e : DownloadEntry} (coherent : e.Coherent)
    (unfinished : e.status.terminal = false) : e.alreadyInLibrary = false := by
  by_contra flagged
  rw [Bool.not_eq_false] at flagged
  rw [coherent.flagged flagged] at unfinished
  cases unfinished

variable {next : DownloadEntry} {remaining : List DownloadEntry}

theorem beginFallback_tidy (coherent : ∀ e ∈ c.entries, e.Coherent)
    (unflagged : c.isFlagged next.itemId = false)
    (textless : (c.manualPaused || c.wifiOnly) = true → c.hasText next.itemId = false) :
    (c.beginFallback next remaining).Tidy := by
  have marked : ∀ e ∈ ({ c with handedOver := c.handedOver ++ [next.itemId] }.setStatus
      next.itemId .downloading).entries, e.Coherent :=
    coherent_setStatus_unsettled coherent rfl rfl unflagged
  have still : ({ c with handedOver := c.handedOver ++ [next.itemId] }.setStatus
      next.itemId .downloading).isFlagged next.itemId = false := by
    rw [isFlagged_setStatus _ _ _ rfl]
    exact unflagged
  unfold beginFallback
  dsimp only
  split
  next held =>
    have clear : ({ c with handedOver := c.handedOver ++ [next.itemId] }.setStatus
        next.itemId .downloading).hasText next.itemId = false :=
      hasText_setStatus_self _ rfl (textless held)
    refine ⟨coherent_setStatus_textless marked rfl rfl clear still, ?_⟩
    rintro _ _ _ ⟨⟩
    exact (isFlagged_setStatus _ _ _ rfl).trans still
  next =>
    refine ⟨marked, ?_⟩
    rintro _ _ _ ⟨⟩
    exact still

/-- The fallback loop keeps the entries coherent if it holds back none with a text. -/
theorem startFallbacks_tidy (distinct : c.itemIds.Nodup) (coherent : ∀ e ∈ c.entries, e.Coherent)
    (free : c.holdsBack entries = false) : (c.startFallbacks entries).Tidy := by
  induction entries with
  | nil => exact finishProcessing_tidy coherent true
  | cons next remaining ih =>
    simp only [holdsBack, List.find?_cons] at free
    rw [startFallbacks]
    by_cases needed :
        (c.entries.any fun e => e.itemId = next.itemId ∧ e.status.terminal = false) = true
    · rw [if_pos needed]
      simp only [needed, Option.any_some] at free
      refine beginFallback_tidy coherent ?_ fun held => ?_
      · obtain ⟨e, member, unfinished⟩ := List.any_eq_true.mp needed
        have found := of_decide_eq_true unfinished
        rw [isFlagged_eq_false]
        intro other present same
        have equal : other = e :=
          List.inj_on_of_nodup_map distinct present member (same.trans found.1.symm)
        rw [equal]
        exact unflagged_of_unfinished (coherent e member) found.2
      · rwa [held, Bool.true_and] at free
    · rw [if_neg needed]
      simp only [needed] at free
      exact ih free

/-! ## One step -/

variable {point : FallbackPoint}

theorem ne_of_mem_remaining (identified : c.WellIdentified)
    (suspended : c.processor = .fallback next point remaining) :
    ∀ later ∈ remaining, later.itemId ≠ next.itemId := by
  have distinct := identified.takenDistinct
  simp only [takenIds, suspended, Processor.taken, List.map_cons, List.nodup_cons] at distinct
  intro later member same
  exact distinct.1 (same ▸ List.mem_map_of_mem member)

theorem settled_tidy (identified : c.WellIdentified) {status : EntryStatus}
    {details : StatusDetails} (suspended : c.processor = .fallback next point remaining)
    (coherent : ∀ e ∈ (c.setStatus next.itemId status details).entries, e.Coherent)
    (free : c.holdsBack remaining = false) :
    ((c.setStatus next.itemId status details).startFallbacks remaining).Tidy := by
  refine startFallbacks_tidy ?_ coherent ?_
  · rw [itemIds, setStatus_map_itemId]
    exact identified.distinct
  · rw [holdsBack_setStatus status details (ne_of_mem_remaining identified suspended)]
    exact free

theorem failed_tidy (identified : c.WellIdentified) (tidy : c.Tidy) {details : StatusDetails}
    (suspended : c.processor = .fallback next point remaining)
    (kept : details.alreadyInLibrary = none) (free : c.holdsBack remaining = false) :
    ((c.setStatus next.itemId .failed details).startFallbacks remaining).Tidy :=
  settled_tidy identified suspended
    (coherent_setStatus_unsettled tidy.coherent rfl kept (tidy.current _ _ _ suspended)) free

theorem library_tidy (identified : c.WellIdentified) (tidy : c.Tidy) {details : StatusDetails}
    (suspended : c.processor = .fallback next point remaining)
    (inLibrary : details.alreadyInLibrary = some true) (free : c.holdsBack remaining = false) :
    ((c.setStatus next.itemId .done details).startFallbacks remaining).Tidy :=
  settled_tidy identified suspended
    (coherent_setStatus tidy.coherent fun _ _ _ => coherent_apply_library inLibrary) free

theorem endRateLimitRetry_tidy (tidy : c.Tidy)
    (textless : c.hasText itemId = false) (unflagged : c.isFlagged itemId = false) :
    (c.endRateLimitRetry itemId).Tidy := by
  rcases c.endRateLimitRetry_cases itemId with same | requeued
  · rw [same]
    exact tidy
  · rw [requeued]
    refine processQueue_tidy ⟨coherent_setStatus_textless tidy.coherent rfl rfl textless unflagged, ?_⟩
    intro next point remaining suspended
    rw [isFlagged_setStatus _ _ _ rfl]
    exact tidy.current next point remaining suspended

/-! ## Snapshots and progress -/

variable {snapshot : NativeWorkerSnapshot}

theorem coherent_applyNativeItemState {batch : Batch}
    {e : DownloadEntry} (coherent : e.Coherent) (named : e.itemId ∈ batch.ids)
    (kept : mergeSpoils snapshot batch e = false) :
    (applyNativeItemState e (snapshotItem snapshot e)).Coherent := by
  simp only [mergeSpoils, List.contains_iff_mem.mpr named, Bool.true_and] at kept
  unfold applyNativeItemState
  split
  · exact coherent
  next applied =>
    generalize snapshotItem snapshot e = item at kept applied
    have open_ : (e.status.terminal && decide (e.status ≠ item.status)) = false := by
      simpa using applied
    rw [open_, Bool.not_false, Bool.true_and] at kept
    dsimp only
    split
    next failed =>
      cases existing : existingLibraryPath item.error with
      | some path => exact ⟨fun _ => by simp [DownloadEntry.copyWith], fun _ => rfl⟩
      | none =>
        constructor
        · intro settled
          simp [failed] at settled
        · intro flagged
          simp [DownloadEntry.copyWith] at flagged
    next =>
      constructor
      · intro settled
        simp only [DownloadEntry.copyWith_status, Option.isSome_none, Bool.false_eq_true, if_false,
          Option.getD_some] at settled
        have settling : settles item.status = true := by simpa [settles] using settled
        rw [settling, Bool.true_and, Bool.or_eq_false_iff] at kept
        have none := Option.isNone_iff_eq_none.mp (Option.isSome_eq_false_iff.mp kept.1)
        have old := Option.isNone_iff_eq_none.mp (Option.isSome_eq_false_iff.mp kept.2)
        simp [DownloadEntry.copyWith, none, old, foldRetryAfterSeconds]
      · intro flagged
        simp [DownloadEntry.copyWith] at flagged

theorem coherent_scheduleAll (distinct : c.itemIds.Nodup) (coherent : ∀ e ∈ c.entries, e.Coherent) :
    ∀ e ∈ (c.entries.foldl scheduleRateLimitRetry c).entries, e.Coherent := by
  refine (List.foldlRecOn c.entries scheduleRateLimitRetry
    (motive := fun (next : Controller) => (∀ e ∈ next.entries, e.Coherent) ∧
      ∀ itemId, next.isFlagged itemId = c.isFlagged itemId)
    ⟨coherent, fun _ => rfl⟩ ?_).1
  intro next kept due member
  unfold scheduleRateLimitRetry
  split
  next failing =>
    have unflagged : next.isFlagged due.itemId = false := by
      rw [kept.2, isFlagged_eq_false]
      intro other present same
      rw [List.inj_on_of_nodup_map distinct present member same]
      by_contra flagged
      rw [Bool.not_eq_false] at flagged
      have done := (coherent due member).flagged flagged
      rw [failing.1] at done
      cases done
    refine ⟨coherent_setStatus_unsettled (c := { next with rateLimitRetriedItemIds := _ })
      kept.1 rfl rfl unflagged, fun itemId => ?_⟩
    exact (isFlagged_setStatus (c := { next with rateLimitRetriedItemIds := _ })
      _ _ _ rfl).trans (kept.2 itemId)
  next => exact kept

theorem pollMerged_tidy (identified : c.WellIdentified) (tidy : c.Tidy) {batch : Batch}
    {startedAt : Nat} (kept : c.entries.any (mergeSpoils snapshot batch) = false) :
    (c.pollMerged batch startedAt snapshot).Tidy := by
  have merged : ∀ e ∈ (c.mergeNativeSnapshot snapshot batch.ids).entries, e.Coherent := by
    obtain ⟨pendingPause, manualPaused, ⟨_, flagged⟩ | equal⟩ :=
      c.mergeNativeSnapshot_cases snapshot batch.ids
    · rw [flagged]
      exact tidy.coherent
    · rw [equal]
      refine coherent_scheduleAll ?_ fun e member => ?_
      · rw [mergeItems_itemIds]
        exact identified.distinct
      · simp only [mergeItems, List.mem_map] at member
        obtain ⟨before, present, rfl⟩ := member
        split
        next named =>
          exact coherent_applyNativeItemState (tidy.coherent before present) named
            (Bool.not_eq_true _ ▸ List.any_eq_false.mp kept before present)
        next => exact tidy.coherent before present
  unfold pollMerged
  dsimp only
  split
  · refine ⟨merged, ?_⟩
    rintro _ _ _ ⟨⟩
  · unfold endBatch
    refine finishProcessing_tidy ?_ _
    exact merged

variable {items : List DownloadProgress}

theorem coherent_mergeEntry {e : DownloadEntry}
    (coherent : e.Coherent) (kept : c.progressSpoils items e = false) :
    (mergeEntry c.nativeRunStopped e (items.reverse.find? (·.itemId = e.itemId))).Coherent := by
  unfold mergeEntry
  split
  · exact coherent
  next unguarded =>
    split
    · exact coherent
    next unfinished =>
      rw [Bool.not_eq_true] at unfinished
      cases found : items.reverse.find? (·.itemId = e.itemId) with
      | none => exact coherent
      | some p =>
        have guard : (c.nativeRunStopped && decide (e.status = .queued)) = false := by
          simpa using unguarded
        simp only [progressSpoils, found, guard, unfinished, Option.any_some, Bool.not_false,
          Bool.true_and] at kept
        have unflagged := unflagged_of_unfinished coherent unfinished
        constructor
        · intro settled
          have settling : settles (mapStatus p.status e.status) = true := by
            simpa [settles] using settled
          rw [settling, Bool.and_true] at kept
          simpa [DownloadEntry.copyWith] using kept
        · intro flagged
          simp [DownloadEntry.copyWith, unflagged] at flagged

theorem merge_tidy (tidy : c.Tidy)
    (kept : c.entries.any (c.progressSpoils items) = false) : (c.merge items).Tidy := by
  constructor
  · intro e member
    simp only [merge, List.mem_map] at member
    obtain ⟨before, present, rfl⟩ := member
    exact coherent_mergeEntry (tidy.coherent before present)
      (Bool.not_eq_true _ ▸ List.any_eq_false.mp kept before present)
  · intro next point remaining suspended
    have before := tidy.current next point remaining suspended
    rw [isFlagged_eq_false] at before ⊢
    intro e member same
    simp only [merge, List.mem_map] at member
    obtain ⟨old, present, rfl⟩ := member
    have unflagged := before old present (by rwa [mergeEntry_itemId] at same)
    unfold mergeEntry
    split
    · exact unflagged
    split
    · exact unflagged
    · split
      · exact unflagged
      · simpa [DownloadEntry.copyWith] using unflagged

/-! ## What every event keeps -/

theorem enqueue_tidy (tidy : c.Tidy) (itemId : String) (track : Track)
    (service quality : Option String) : (c.enqueue itemId track service quality).Tidy := by
  refine processQueue_tidy ⟨?_, ?_⟩
  · intro e member
    rcases List.mem_cons.mp member with rfl | old
    · exact ⟨fun _ => rfl, nofun⟩
    · exact tidy.coherent e old
  · intro next point remaining suspended
    have before := tidy.current next point remaining suspended
    unfold isFlagged at before ⊢
    rw [List.any_cons, before, Bool.and_false, Bool.or_false]

theorem removeLocal_tidy (tidy : c.Tidy) (itemId : String) : (c.removeLocal itemId).Tidy := by
  refine ⟨fun e member => tidy.coherent e (List.mem_filter.mp member).1, ?_⟩
  intro next point remaining suspended
  have before := tidy.current next point remaining suspended
  rw [isFlagged_eq_false] at before ⊢
  exact fun e member => before e (List.mem_filter.mp member).1

theorem transfer_tidy (identified : c.WellIdentified) (tidy : c.Tidy) {outcome : TransferOutcome}
    (suspended : c.processor = .fallback next .transfer remaining)
    (free : c.holdsBack (c.fallbacksAfter (.transferReturned outcome)) = false) :
    (c.onTransfer next remaining outcome).Tidy := by
  cases outcome with
  | threw message =>
    simp only [fallbacksAfter, suspended] at free
    exact failed_tidy identified tidy suspended rfl free
  | returned res =>
    simp only [fallbacksAfter, suspended] at free
    unfold onTransfer
    dsimp only
    split
    next path found =>
      have failed : res.failed = true := by
        by_contra succeeded
        rw [if_neg succeeded] at found
        cases found
      rw [if_pos failed] at found
      simp only [failed, found, Bool.not_true, Bool.false_eq_true, if_false, Option.isNone_some,
        Bool.false_and] at free
      exact library_tidy identified tidy suspended rfl free
    next absent =>
      split
      · refine tidy.congr rfl ?_
        rintro _ _ _ ⟨⟩
        exact ⟨_, _, suspended⟩
      next unsuccessful =>
        have failed : res.failed = true := by simpa using unsuccessful
        rw [if_pos failed] at absent
        split
        next limited =>
          have unflagged := tidy.current _ _ _ suspended
          refine ⟨coherent_setStatus_unsettled (c := { c with rateLimitRetriedItemIds := _ })
            tidy.coherent rfl rfl unflagged, ?_⟩
          rintro _ _ _ ⟨⟩
          exact (isFlagged_setStatus (c := { c with rateLimitRetriedItemIds := _ })
            _ _ _ rfl).trans unflagged
        next unlimited =>
          have denied : (isRateLimitError res.err &&
              !c.rateLimitRetriedItemIds.contains next.itemId) = false := by
            simpa using unlimited
          rw [if_neg (by simp [failed]), absent, Option.isNone_none, Bool.true_and, denied,
            if_neg Bool.false_ne_true] at free
          exact failed_tidy identified tidy suspended rfl free

theorem resumeProcessor_tidy {event : QueueEvent} {after : Controller}
    (identified : c.WellIdentified) (tidy : c.Tidy) (kept : c.spoils event = false)
    (resumed : c.resumeProcessor event = some after) : after.Tidy := by
  unfold spoils at kept
  rw [Bool.or_eq_false_iff] at kept
  obtain ⟨free, kept⟩ := kept
  have start {entries : List DownloadEntry} (free : c.holdsBack entries = false) :
      (c.startFallbacks entries).Tidy :=
    startFallbacks_tidy identified.distinct tidy.coherent free
  unfold resumeProcessor at resumed
  split at resumed
  next queued ok suspended =>
    cases resumed
    cases ok with
    | false => exact finishProcessing_tidy tidy.coherent true
    | true =>
      simp only [if_true, onHydrated]
      split
      · exact finishProcessing_tidy tidy.coherent true
      next unpaused =>
        split
        · exact tidy.congr rfl (by rintro _ _ _ ⟨⟩)
        next unavailable =>
          simp only [fallbacksAfter, suspended, unpaused, unavailable] at free
          exact start free
  next queued remaining ok suspended =>
    cases resumed
    cases ok with
    | false => exact finishProcessing_tidy tidy.coherent true
    | true =>
      simp only [if_true, onRequestBuilt]
      split <;> exact tidy.congr rfl (by rintro _ _ _ ⟨⟩)
  next batch settings ok suspended =>
    cases resumed
    cases ok with
    | false => exact finishProcessing_tidy tidy.coherent true
    | true =>
      simp only [if_true, onStarted]
      split <;> exact tidy.congr rfl (by rintro _ _ _ ⟨⟩)
  next batch ok suspended =>
    cases resumed
    cases ok with
    | false => exact finishProcessing_tidy tidy.coherent true
    | true => exact tidy.congr rfl (by rintro _ _ _ ⟨⟩)
  next batch startedAt started lastSeenAt snapshot suspended =>
    cases resumed
    have missed (unseen : snapshot.any (·.runId = batch.runId) = false) :
        (c.pollMissed batch startedAt started lastSeenAt).Tidy := by
      simp only [fallbacksAfter, suspended, unseen, Bool.false_eq_true, if_false] at free
      simp only [pollMissed]
      by_cases stalled : c.now - (if started then lastSeenAt else startedAt) > stallLimit
      · rw [if_pos stalled] at free ⊢
        exact startFallbacks_tidy (c := { c with activeWorker := false }) identified.distinct
          tidy.coherent free
      · rw [if_neg stalled]
        exact tidy
    cases snapshot with
    | none => exact missed rfl
    | some seen =>
      unfold onPolled
      dsimp only
      split
      next sameRun =>
        simp only [suspended, sameRun, decide_true, Bool.true_and] at kept
        exact pollMerged_tidy identified tidy kept
      next otherRun => exact missed (by simpa using otherRun)
  next next remaining networkAllowed suspended =>
    cases resumed
    have unflagged := tidy.current _ _ _ suspended
    unfold onAdmission
    split
    next gone =>
      have absent : c.has next.itemId = false := by simpa using gone
      simp only [fallbacksAfter, suspended, absent, Bool.false_eq_true, if_false] at free
      exact start free
    split
    · refine ⟨coherent_setStatus_unsettled tidy.coherent rfl rfl unflagged, ?_⟩
      rintro _ _ _ ⟨⟩
      exact (isFlagged_setStatus _ _ _ rfl).trans unflagged
    · exact tidy
  next next remaining error suspended =>
    cases resumed
    cases error with
    | some error =>
      simp only [fallbacksAfter, suspended] at free
      exact failed_tidy identified tidy suspended rfl free
    | none =>
      have moved (point : FallbackPoint) : (c.suspend next point remaining).Tidy := by
        refine tidy.congr rfl ?_
        rintro _ _ _ ⟨⟩
        exact ⟨_, _, suspended⟩
      simp only [onDirectory]
      split
      · exact moved .duplicate
      · exact moved .transfer
  next next remaining answer suspended =>
    cases resumed
    have moved : (c.suspend next .transfer remaining).Tidy := by
      refine tidy.congr rfl ?_
      rintro _ _ _ ⟨⟩
      exact ⟨_, _, suspended⟩
    unfold onDuplicate
    split
    · simp only [fallbacksAfter, suspended] at free
      exact library_tidy identified tidy suspended rfl free
    · exact moved
    · exact moved
  next next remaining outcome suspended =>
    cases resumed
    exact transfer_tidy identified tidy suspended free
  next next res remaining outcome suspended =>
    cases resumed
    simp only [fallbacksAfter, suspended] at free
    cases outcome with
    | threw message => exact failed_tidy identified tidy suspended rfl free
    | finished flacPath =>
      simp only [currentHasText, suspended] at kept
      exact settled_tidy identified suspended
        (coherent_setStatus_textless tidy.coherent rfl rfl kept (tidy.current _ _ _ suspended))
        free
  next next deadline remaining suspended =>
    split at resumed
    · cases resumed
      simp only [fallbacksAfter, suspended] at free
      simp only [currentHasText, suspended] at kept
      rcases c.endRateLimitRetry_cases next.itemId with same | requeued
      · rw [same]
        exact start free
      · rw [requeued, processQueue_of_isProcessing _ (by simp [isProcessing, suspended])]
        exact settled_tidy identified suspended
          (coherent_setStatus_textless tidy.coherent rfl rfl kept (tidy.current _ _ _ suspended))
          free
    · cases resumed
  next => cases resumed

theorem handle_tidy {event : QueueEvent} {after : Controller} (identified : c.WellIdentified)
    (tidy : c.Tidy) (kept : c.spoils event = false) (answered : c.handle event = some after) :
    after.Tidy := by
  have sends {base : Controller} (tidy : base.Tidy) (paused : Bool) :
      (base.forwardPause paused).Tidy := by
    unfold forwardPause
    split
    · exact tidy.silent rfl rfl
    · exact tidy
  unfold handle at answered
  split at answered
  next itemId track service quality =>
    split at answered
    · cases answered
    · cases answered
      exact enqueue_tidy tidy _ _ _ _
  next itemId newItemId =>
    split at answered
    · cases answered
    · split at answered
      · cases answered
        exact tidy
      · cases answered
        exact enqueue_tidy (removeLocal_tidy tidy itemId) _ _ _ _
  next itemId =>
    cases answered
    exact removeLocal_tidy tidy itemId
  next =>
    cases answered
    refine sends ?_ true
    exact tidy.silent rfl rfl
  next =>
    cases answered
    refine sends ?_ false
    exact tidy.silent rfl rfl
  next ok =>
    split at answered
    · cases answered
    · cases answered
      have counted : ({ c with pendingResumes := c.pendingResumes - 1 } : Controller).Tidy :=
        tidy.silent rfl rfl
      cases ok with
      | true => exact processQueue_tidy counted
      | false => exact counted
  next =>
    cases answered
    exact processQueue_tidy tidy
  next wifiOnly =>
    cases answered
    exact tidy.silent rfl rfl
  next simultaneousDownloads =>
    cases answered
    exact tidy.silent rfl rfl
  next items =>
    cases answered
    exact merge_tidy tidy (Bool.or_eq_false_iff.mp kept).2
  next itemId =>
    unfold onRateLimitElapsed at answered
    split at answered
    · cases answered
    · cases answered
      have spared := Bool.or_eq_false_iff.mp (Bool.or_eq_false_iff.mp kept).2
      exact endRateLimitRetry_tidy (c := { c with timers := c.timers.erase _ })
        (tidy.silent rfl rfl) spared.1 spared.2
  next => exact resumeProcessor_tidy identified tidy kept answered

end Controller

namespace System

/-- No entry is completed or queued with an error text, and none queued that was already in
the library. -/
def sparesTexts (s : System) : SystemEvent → Bool
  | .queue time event => !Controller.spoils { s.controller with now := time } event
  | .poll time readable =>
    !Controller.spoils { s.controller with now := time }
      (.polled (if readable then s.service.snapshot else none))
  | .service _ => true

/-- In every run whose steps spare the entries, a done or queued entry has no error text, and
an entry that was already in the library is done. -/
theorem entries_coherent {s : System} (reachable : machine.Reachable (sparesTexts · ·) s) :
    ∀ e ∈ s.controller.entries, e.Coherent := by
  have tidy : s.controller.Tidy := by
    refine reachable.invariant (motive := fun s => s.controller.Tidy) ?_ ?_
    · rintro state ⟨_, _, _, _, _, controller, _⟩
      rw [controller]
      refine ⟨fun _ member => absurd member List.not_mem_nil, ?_⟩
      rintro _ _ _ ⟨⟩
    · intro state event next before tidy spared stepped
      have identified := wellIdentified_of_reachable before
      have moved {time : Nat} {event : QueueEvent} {controller : Controller}
          (kept : (!Controller.spoils { state.controller with now := time } event) = true)
          (stepped : state.controller.step time event = some controller) : controller.Tidy := by
        unfold Controller.step at stepped
        split at stepped
        · cases stepped
        · refine Controller.handle_tidy (c := { state.controller with now := time }) ?_
            (tidy.silent rfl rfl) (by simpa using kept) stepped
          exact identified.keep (.of_eq rfl rfl (List.Sublist.refl _))
      change state.step event = some next at stepped
      unfold step at stepped
      split at stepped
      next time event =>
        split at stepped
        · obtain ⟨controller, here, rfl⟩ := Option.map_eq_some_iff.mp stepped
          exact moved spared here
        · cases stepped
      next time readable =>
        obtain ⟨controller, here, rfl⟩ := Option.map_eq_some_iff.mp stepped
        exact moved spared here
      next networkAllowed =>
        split at stepped
        · cases stepped
        · cases stepped
          exact tidy.silent rfl rfl
      next event _ =>
        obtain ⟨service, -, rfl⟩ := Option.map_eq_some_iff.mp stepped
        exact tidy
  exact tidy.coherent

/-- A download through the Dart fallback. -/
def plainDownload : List SystemEvent :=
  [.queue 0 (.enqueue "a" { id := "a" } none none), .queue 0 (.hydrated true),
    .queue 0 (.directoryResolved none),
    .queue 1000 (.transferReturned (.returned
      { success := some true, filePath := some "/a.flac" })),
    .queue 2000 (.finished (.finished none))]

/-- A fresh process without the native worker is a start. -/
theorem start_fallback : Start { controller := { workerAvailable := false } } :=
  ⟨false, 1, false, 0, none, rfl, rfl, by simp⟩

theorem entries_coherent_downloaded : ∃ s : System,
    (∀ e ∈ s.controller.entries, e.Coherent) ∧ ∃ e ∈ s.controller.entries, e.status = .done := by
  have ran : ((machine.run { controller := { workerAvailable := false } } plainDownload).any
      fun s => s.controller.entries.any (·.status = .done)) = true ∧
      machine.runMeets sparesTexts { controller := { workerAvailable := false } } plainDownload =
        true := by
    decide +kernel
  obtain ⟨s, ended, found⟩ := (Option.any_eq_true _ _).mp ran.1
  obtain ⟨e, member, done⟩ := List.any_eq_true.mp found
  exact ⟨s, entries_coherent ⟨_, start_fallback, Transition.Machine.path_of_run ended ran.2⟩,
    e, member, of_decide_eq_true done⟩

/-- The engine's first answer is a rate limit; the retry succeeds. -/
def retriedDownload : List SystemEvent :=
  [.queue 0 (.enqueue "a" { id := "a" } none none), .queue 0 (.hydrated true),
    .queue 0 (.directoryResolved none),
    .queue 1000 (.transferReturned (.returned { success := some false, error := some "HTTP 429" })),
    .queue 31000 .backoffElapsed]

/-- The item that is queued for its retry still shows that it was rate limited. -/
theorem entries_incoherent : ¬∀ s : System, machine.Reachable Transition.Machine.anyStep s →
    ∀ e ∈ s.controller.entries, e.Coherent := by
  intro coherent
  obtain ⟨s, reachable, found⟩ := machine.exists_reachable_of_run
      (fun s => s.controller.entries.any fun e => e.status = .queued && e.error.isSome)
      start_fallback
      (by decide +kernel :
        (machine.run { controller := { workerAvailable := false } } retriedDownload).any _ = true)
  obtain ⟨e, member, spoilt⟩ := List.any_eq_true.mp found
  rw [Bool.and_eq_true, decide_eq_true_eq] at spoilt
  rw [(coherent s reachable e member).textless (.inr spoilt.1)] at spoilt
  cases spoilt.2

end System
end LosslessMusic.Queue
