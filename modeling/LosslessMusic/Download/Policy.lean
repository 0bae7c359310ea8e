import LosslessMusic.Download.Rounds
import Mathlib.Data.List.Nodup

/-!
# The provider policy of a planned download

The calls of one run are finite, ask no provider but the selected one twice,
and ask only providers that are entitled to replace it. A call that settles the
download is the last one. The retry behind a verification settles it by its
response alone: any other failure hands the run over to the candidates, the
same provider first, and they decide by their own answers.
-/

namespace LosslessMusic.Download

open Text

/-! ## The policy -/

/-- The service of a request, or its source when no other provider may be asked. -/
def selectedService (request : DownloadRequest) : String :=
  let service := trimWhite request.service
  if !request.useFallback && service = "" then trimWhite request.source else service

/-- The source was asked and forbids to replace its recording. -/
def SourceForbids (request : DownloadRequest) (answers : PlanAnswers) : Prop :=
  request.source ≠ "" ∧ ∃ availability, answers.sourceAvailability = .ok availability ∧
      availability.skipFallback = true

/-- All candidates of a run in their order. -/
def attempts (backend : Backend) (request : DownloadRequest) (selected : String) :
    List Attempt :=
  directAttempts request selected ++
    sortedAttempts backend request selected (candidates backend.manager request).2

/-- The provider policy for one run of the planner. -/
structure FollowsPolicy
    (backend : Backend)
    (request : DownloadRequest)
    (answers : PlanAnswers)
    (plan : Plan) : Prop where
  bounded : plan.calls.length ≤ backend.manager.priority.ids.length + 3
  once : ∀ provider, provider ≠ selectedService request →
      (plan.calls.map Call.provider).count provider ≤ 1
  entitled : ∀ call ∈ plan.calls, call.provider = selectedService request ∨
        (call.provider = request.source ∧ SourceForbids request answers) ∨
        backend.manager.fallbackAllowed call.provider = true
  strict : request.useFallback = false → trimWhite request.service ≠ "" → ∀ call ∈ plan.calls,
        call.provider = trimWhite request.service ∨
          (call.provider = request.source ∧ SourceForbids request answers)
  settled : plan.calls.Pairwise fun earlier _ => earlier.MayBeFollowed request.source
  retriedFirst : ∀ call ∈ plan.calls.tail, call.verified = false
  resumed : ∀ call ∈ plan.calls, call.verified = true →
      (attempts backend request plan.selected).head?.map Attempt.id = some call.provider
  healthy : ∀ call ∈ plan.calls, backend.IsOffline call.provider →
      eqIgnoreAsciiCase call.provider (keptProvider request plan.selected) = true

/-! ## The candidates of a request -/

theorem candidates_fst (manager : ExtensionManager) (request : DownloadRequest) :
    (candidates manager request).1 = selectedService request := by
  unfold candidates selectedService
  cases request.useFallback with
  | false => simp
  | true =>
    simp only [Bool.not_true, Bool.false_eq_true, if_false, Bool.false_and]
    split
    · rfl
    · rfl

theorem map_trimWhite_ids (priority : DownloadPriority) (keep : String → Bool) :
    (priority.ids.filter keep).map trimWhite = priority.ids.filter keep := by
  conv_rhs => rw [← List.map_id (priority.ids.filter keep)]
  exact List.map_congr_left fun id member =>
    priority.trimmed id (List.mem_filter.mp member).1

theorem count_candidates (manager : ExtensionManager) (request : DownloadRequest)
    (provider : String) (other : provider ≠ selectedService request) :
    ((candidates manager request).2.map trimWhite).count provider ≤ 1 := by
  have single : ∀ keep, ((manager.priority.ids.filter keep).map trimWhite).count provider ≤ 1 := by
    intro keep
    rw [map_trimWhite_ids]
    exact List.nodup_iff_count_le_one.mp (manager.priority.distinct.filter keep) provider
  have whole : (manager.priority.ids.map trimWhite).count provider ≤ 1 := by
    have kept := single fun _ => true
    rwa [List.filter_true] at kept
  unfold candidates
  unfold selectedService at other
  cases fallback : request.useFallback with
  | false =>
    simp only [Bool.not_false, if_true]
    split
    · split
      · exact whole
      · exact List.count_le_length
    · exact List.count_le_length
  | true =>
    simp only [fallback, Bool.not_true, Bool.false_and, Bool.false_eq_true, if_false] at other ⊢
    split
    · rw [List.map_cons, List.count_cons_of_ne (Ne.symm other)]
      exact single _
    · exact whole

theorem length_candidates (manager : ExtensionManager) (request : DownloadRequest) :
    (candidates manager request).2.length ≤ manager.priority.ids.length + 1 := by
  have filtered := List.length_filter_le
    (fun id => !eqIgnoreAsciiCase id request.service) manager.priority.ids
  unfold candidates
  simp only
  repeat' split
  all_goals
    simp only [List.length_cons, List.length_nil]
  all_goals omega

section Sorted

variable (backend : Backend) (request : DownloadRequest) (selected : String)
variable (priority : List String)

theorem map_id_sortedAttempts : (sortedAttempts backend request selected priority).map Attempt.id =
      backend.prioritizeHealthyDownloads priority (keptProvider request selected)
        selected := by
  unfold sortedAttempts
  rw [List.map_map]
  exact List.map_id _

theorem sortedAttempts_subperm :
    ((sortedAttempts backend request selected priority).map Attempt.id).Subperm
      (priority.map trimWhite) := by
  rw [map_id_sortedAttempts]
  exact (backend.prioritizeHealthyDownloads_perm priority _ selected).subperm.trans
    ((List.filter_sublist.trans List.filter_sublist).subperm)

theorem grouped_of_mem_sortedAttempts (attempt : Attempt)
    (member : attempt ∈ sortedAttempts backend request selected priority) :
    attempt.direct = false ∧ (Backend.groupOf (backend.sortingStatus (keptProvider request selected)
        attempt.id)).isSome = true := by
  unfold sortedAttempts at member
  obtain ⟨id, sorted, rfl⟩ := List.mem_map.mp member
  have kept := (backend.prioritizeHealthyDownloads_perm priority _ selected).mem_iff.mp sorted
  exact ⟨rfl, (List.mem_filter.mp kept).2⟩

end Sorted

/-! ## The calls of the candidates -/

/-- How the provider that is not replaced comes to be: the service of the request, or
a source that forbids to replace it. -/
inductive Chooses (backend : Backend) (request : DownloadRequest) (answers : PlanAnswers) :
    Option Availability → String → Prop
  | service : Chooses backend request answers none (selectedService request)
  | source
      (availability : Availability)
      (manifest : ExtensionManifest)
      (skips : availability.skipFallback = true)
      (forbids : SourceForbids request answers)
      (installed : backend.manager.downloadProvider request.source = some manifest) :
      Chooses backend request answers (some availability) request.source

theorem chooses_of_forbiddingSource (backend : Backend) (request : DownloadRequest)
    (answers : PlanAnswers) (sourceAvailability : Option Availability)
    (answered : forbiddingSource backend request (selectedService request) answers =
        .ok sourceAvailability) :
    Chooses backend request answers sourceAvailability
      (if sourceAvailability.isSome then request.source else selectedService request) := by
  unfold forbiddingSource at answered
  split at answered
  next asked =>
    split at answered
    next => cases answered
    next =>
      split at answered
      next =>
        cases answered
        exact Chooses.service
      next availability isAvailable =>
        cases skips : availability.skipFallback with
        | false =>
          rw [skips] at answered
          cases answered
          exact Chooses.service
        | true =>
          rw [skips] at answered
          cases answered
          obtain ⟨manifest, installed⟩ := Option.isSome_iff_exists.mp asked.2.2
          exact Chooses.source availability manifest skips
            ⟨asked.1, availability, isAvailable, skips⟩ installed
  next =>
    cases answered
    exact Chooses.service

section Candidates

variable (backend : Backend) (request : DownloadRequest) (answers : PlanAnswers)
variable (sourceAvailability : Option Availability) (selected : String)

/-- The calls of the candidates of a request. -/
def candidateCalls (backend : Backend) (request : DownloadRequest) (answers : PlanAnswers)
    (sourceAvailability : Option Availability)
    (selected : String) : List Call :=
  (tryCandidates backend request selected sourceAvailability
    (candidates backend.manager request).2 answers).events

theorem length_candidateCalls :
    (candidateCalls backend request answers sourceAvailability selected).length ≤
      backend.manager.priority.ids.length + 2 := by
  have ordered := (tryCandidates_sublist backend request selected sourceAvailability
    (candidates backend.manager request).2 answers).length_le
  have sorted := (sortedAttempts_subperm backend request selected
    (candidates backend.manager request).2).length_le
  have listed := length_candidates backend.manager request
  have direct : (directAttempts request selected).length ≤ 1 := by
    unfold directAttempts
    split
    · exact Nat.le_refl 1
    · exact Nat.zero_le 1
  rw [List.length_map, List.length_map, List.length_append] at ordered
  rw [List.length_map, List.length_map] at sorted
  unfold candidateCalls
  omega

/-- A call of a candidate: the source as such, or one of the sorted providers. -/
theorem asked_of_mem_candidateCalls (call : Call) (member :
      call ∈ candidateCalls backend request answers sourceAvailability selected) :
    call.verified = false ∧
      (call.provider = request.source ∧ selected = request.source ∧ request.source ≠ "" ∨
        ∃ id, call.provider = id ∧ id ≠ "" ∧
          (id = selected ∨ backend.manager.fallbackAllowed id = true) ∧
          backend.manager.downloadProvider id = some call.manifest ∧
          id ∈ (candidates backend.manager request).2.map trimWhite ∧
          (Backend.groupOf (backend.sortingStatus (keptProvider request selected)
            id)).isSome = true) := by
  obtain ⟨turn, attempt, belongs, asked⟩ :=
    asked_of_mem_tryCandidates backend request selected sourceAvailability
      (candidates backend.manager request).2 answers call member
  refine ⟨asked.unverified, ?_⟩
  rcases List.mem_append.mp belongs with direct | sorted
  · left
    unfold directAttempts at direct
    split at direct
    next isSource =>
      obtain rfl := List.mem_singleton.mp direct
      exact ⟨asked.provider, isSource.2, isSource.1⟩
    next => cases direct
  · right
    obtain ⟨indirect, grouped⟩ :=
      grouped_of_mem_sortedAttempts backend request selected _ attempt sorted
    have considered := asked.considered
    unfold passesOver at considered
    simp only [indirect, Bool.not_false, Bool.true_and, Bool.or_eq_false_iff,
      decide_eq_false_iff_not] at considered
    refine ⟨attempt.id, asked.provider, considered.1.1, ?_, asked.installed, ?_, grouped⟩
    · by_cases isSelected : attempt.id = selected
      · exact .inl isSelected
      · right
        have allowed := considered.2
        simpa [isSelected] using allowed
    · exact (sortedAttempts_subperm backend request selected _).subset (List.mem_map_of_mem sorted)

theorem healthy_of_mem_candidateCalls (call : Call) (member :
      call ∈ candidateCalls backend request answers sourceAvailability selected)
    (offline : backend.IsOffline call.provider) :
    eqIgnoreAsciiCase call.provider (keptProvider request selected) = true := by
  have same : ∀ id : String, eqIgnoreAsciiCase id id = true := fun id => decide_eq_true rfl
  have kept : selected ≠ "" → keptProvider request selected = selected := by
    intro named
    unfold keptProvider
    rw [if_neg named]
  obtain ⟨_, ⟨isSource, isSelected, named⟩ | ⟨id, isId, named, allowed, installed, _, grouped⟩⟩ :=
    asked_of_mem_candidateCalls backend request answers sourceAvailability selected call member
  · rw [isSource, kept (by rw [isSelected]; exact named), isSelected]
    exact same request.source
  · rw [isId] at offline ⊢
    rcases allowed with isSelected | allowed
    · rw [kept (by rw [← isSelected]; exact named), isSelected]
      exact same selected
    · cases isKept : eqIgnoreAsciiCase id (keptProvider request selected) with
      | true => rfl
      | false =>
        unfold Backend.sortingStatus at grouped
        rw [isKept, allowed, installed, backend.fallbackStatus_of_isOffline id offline] at grouped
        cases grouped

variable (chooses : Chooses backend request answers sourceAvailability selected)

include chooses

theorem forbids_of_chooses : ∀ availability, sourceAvailability = some availability →
      availability.skipFallback = true := by
  intro availability isSource
  cases chooses with
  | service => cases isSource
  | source answered _ skips _ _ =>
    cases isSource
    exact skips

theorem candidateCalls_sublist_of_source (forbids : sourceAvailability.isSome = true) :
    ((candidateCalls backend request answers sourceAvailability selected).map
      Call.provider).Sublist [request.source] := by
  cases chooses with
  | service => cases forbids
  | source availability manifest skips forbidden installed =>
    have only : (directAttempts request request.source).map Attempt.id = [request.source] := by
      unfold directAttempts
      rw [if_pos ⟨forbidden.1, rfl⟩]
      rfl
    have first := sourceRound_sublist backend request request.source (some availability) answers
    rw [only] at first
    unfold candidateCalls
    rcases events_tryCandidates backend request request.source (some availability)
      (candidates backend.manager request).2 answers with alone | ⟨unsettled, _⟩
    · rw [alone]
      exact first
    · have replaceable :=
        replaceable_of_sourceRound backend request request.source (some availability) answers (by
            intro other isOther
            cases isOther
            exact skips)
          manifest forbidden.1 rfl installed unsettled
      cases replaceable.1

theorem count_candidateCalls (provider : String) (other : provider ≠ selectedService request) :
    ((candidateCalls backend request answers sourceAvailability selected).map
      Call.provider).count provider ≤ 1 := by
  cases forbids : sourceAvailability.isSome with
  | true =>
    have only := candidateCalls_sublist_of_source backend request answers
      sourceAvailability selected chooses forbids
    exact (only.count_le provider).trans List.count_le_length
  | false =>
    cases chooses with
    | source => cases forbids
    | service =>
      have ordered := tryCandidates_sublist backend request (selectedService request)
        none (candidates backend.manager request).2 answers
      refine (ordered.count_le provider).trans ?_
      rw [List.map_append, List.count_append]
      have direct : ((directAttempts request (selectedService request)).map
            Attempt.id).count provider = 0 := by
        unfold directAttempts
        split
        next isSource =>
          rw [List.map_singleton, List.count_singleton, ← isSource.2]
          simpa using Ne.symm other
        next => rfl
      have sorted := (sortedAttempts_subperm backend request (selectedService request)
          (candidates backend.manager request).2).count_le provider
      rw [direct, Nat.zero_add]
      exact sorted.trans (count_candidates backend.manager request provider other)

theorem eq_or_forbids_of_chooses : selected = selectedService request ∨
      selected = request.source ∧ SourceForbids request answers := by
  cases chooses with
  | service => exact .inl rfl
  | source _ _ _ forbids _ => exact .inr ⟨rfl, forbids⟩

theorem entitled_of_mem_candidateCalls (call : Call) (member :
      call ∈ candidateCalls backend request answers sourceAvailability selected) :
    call.provider = selectedService request ∨
      (call.provider = request.source ∧ SourceForbids request answers) ∨
      backend.manager.fallbackAllowed call.provider = true := by
  have chosen :=
    eq_or_forbids_of_chooses backend request answers sourceAvailability selected chooses
  have ofSelected : call.provider = selected → call.provider = selectedService request ∨
          (call.provider = request.source ∧ SourceForbids request answers) ∨
          backend.manager.fallbackAllowed call.provider = true := by
    intro isSelected
    rw [isSelected]
    rcases chosen with service | ⟨source, forbids⟩
    · exact .inl service
    · exact .inr (.inl ⟨source, forbids⟩)
  obtain ⟨_, ⟨isSource, isSelected, _⟩ | ⟨id, isId, _, allowed, _⟩⟩ :=
    asked_of_mem_candidateCalls backend request answers sourceAvailability selected call member
  · exact ofSelected (isSource.trans isSelected.symm)
  · rcases allowed with isSelected | allowed
    · exact ofSelected (isId.trans isSelected)
    · exact .inr (.inr (by rw [isId]; exact allowed))

theorem strict_of_mem_candidateCalls (noFallback : request.useFallback = false)
    (given : trimWhite request.service ≠ "") (call : Call)
    (member : call ∈ candidateCalls backend request answers sourceAvailability selected) :
    call.provider = trimWhite request.service ∨
      (call.provider = request.source ∧ SourceForbids request answers) := by
  have isService : selectedService request = trimWhite request.service := by
    unfold selectedService
    simp [given]
  have single : (candidates backend.manager request).2 = [trimWhite request.service] := by
    unfold candidates
    simp [noFallback, given]
  obtain ⟨_, ⟨isSource, isSelected, _⟩ | ⟨id, isId, _, _, _, listed, _⟩⟩ :=
    asked_of_mem_candidateCalls backend request answers sourceAvailability selected call member
  · rcases eq_or_forbids_of_chooses backend request answers sourceAvailability selected
      chooses with service | ⟨_, forbids⟩
    · left
      rw [isSource, ← isSelected, service, isService]
    · exact .inr ⟨isSource, forbids⟩
  · left
    rw [single, List.map_singleton, List.mem_singleton, trimWhite_trimWhite] at listed
    rw [isId, listed]

end Candidates

/-! ## The retry behind a verification -/

/-- The call of the retry asks the selected provider, which the source does not
replace; the run goes on behind an ordinary failure only. -/
structure Retries
    (backend : Backend)
    (request : DownloadRequest)
    (selected : String)
    (call : Call)
    (result : Except String (Option Response)) : Prop where
  provider : call.provider = selected
  verified : call.verified = true
  named : selected ≠ ""
  installed : backend.manager.downloadProvider selected = some call.manifest
  unreplaced : request.source = "" ∨ eqIgnoreAsciiCase request.source selected = true ∨
      backend.manager.downloadProvider request.source = none
  handsOver : result = .ok none → call.FailsOrdinarily

theorem call_judgeRetry (call : Call) (checkOutcome : Except String Unit) :
    (judgeRetry call checkOutcome).call = some call := by
  unfold judgeRetry
  simp only
  repeat' split
  all_goals rfl

theorem failsOrdinarily_of_judgeRetry (call : Call) (checkOutcome : Except String Unit)
    (handsOver : (judgeRetry call checkOutcome).result = .ok none) : call.FailsOrdinarily := by
  unfold judgeRetry at handsOver
  simp only at handsOver
  split at handsOver
  next => cases handsOver
  next outcome ended =>
    split at handsOver
    next => cases handsOver
    next =>
      split at handsOver
      next => cases handsOver
      next response =>
        split at handsOver
        next => cases handsOver
        next ordinary =>
          simp only [Bool.or_eq_true, decide_eq_true_eq, not_or, Bool.not_eq_true] at ordinary
          exact ⟨response, ended, ordinary.1, ordinary.2⟩

theorem retries_of_downloadVerifiedRetry (backend : Backend) (request : DownloadRequest)
    (selected : String) (answers : RetryAnswers) (call : Call)
    (asked : (downloadVerifiedRetry backend request selected answers).call = some call) :
    Retries backend request selected call
      (downloadVerifiedRetry backend request selected answers).result := by
  unfold downloadVerifiedRetry at asked ⊢
  split at asked
  next => cases asked
  next proceeds =>
    rw [if_neg proceeds]
    rw [not_or] at proceeds
    have unreplaced : request.source = "" ∨ eqIgnoreAsciiCase request.source selected = true ∨
          backend.manager.downloadProvider request.source = none := by
      by_cases noSource : request.source = ""
      · exact .inl noSource
      · cases same : eqIgnoreAsciiCase request.source selected with
        | true => exact .inr (.inl rfl)
        | false =>
          right
          right
          rw [← Option.not_isSome_iff_eq_none]
          intro isProvider
          exact proceeds.2 ⟨noSource, same, isProvider⟩
    cases installed : backend.manager.downloadProvider selected with
    | none =>
      rw [installed] at asked
      cases asked
    | some manifest =>
      simp only [installed] at asked ⊢
      cases isAvailable : retryAvailability selected (eqIgnoreAsciiCase request.source selected)
            answers with
      | error result =>
        rw [isAvailable] at asked
        cases asked
      | ok availability =>
        simp only [isAvailable] at asked ⊢
        split at asked
        next => cases asked
        next hasTrack =>
          rw [if_neg hasTrack]
          rw [call_judgeRetry] at asked
          cases asked
          exact
            { provider := rfl
              verified := rfl
              named := proceeds.1
              installed := installed
              unreplaced := unreplaced
              handsOver := failsOrdinarily_of_judgeRetry _ _ }

/-! ## The whole run -/

theorem head?_attempts (backend : Backend) (request : DownloadRequest)
    (named : selectedService request ≠ "") :
    (attempts backend request (selectedService request)).head?.map Attempt.id =
      some (selectedService request) := by
  have listed : ∃ raw rest, (candidates backend.manager request).2 = raw :: rest ∧
        trimWhite raw = selectedService request := by
    unfold candidates
    unfold selectedService at named ⊢
    cases fallback : request.useFallback with
    | false =>
      simp only [fallback, Bool.not_false, Bool.true_and, decide_eq_true_eq, if_true] at named ⊢
      rw [if_neg named]
      refine ⟨_, [], rfl, ?_⟩
      split
      · exact trimWhite_trimWhite request.source
      · exact trimWhite_trimWhite request.service
    | true =>
      simp only [fallback, Bool.not_true, Bool.false_and, Bool.false_eq_true, if_false] at named ⊢
      have given : request.service ≠ "" := by
        intro empty
        rw [empty] at named
        exact named rfl
      rw [if_pos given]
      exact ⟨request.service, _, rfl, rfl⟩
  obtain ⟨raw, rest, isListed, isSelected⟩ := listed
  unfold attempts directAttempts
  split
  next isSource =>
    rw [List.singleton_append, List.head?_cons, Option.map_some, isSource.2]
  next =>
    rw [List.nil_append, ← List.head?_map, map_id_sortedAttempts]
    have kept : keptProvider request (selectedService request) = selectedService request := by
      unfold keptProvider
      rw [if_neg named]
    rw [kept]
    apply Backend.head?_prioritizeHealthyDownloads
    rw [isListed, List.map_cons, isSelected, List.filter_cons_of_pos (by simpa using named),
      List.find?_cons_of_pos (by exact decide_eq_true rfl)]

theorem unforbidden_of_retries (backend : Backend) (request : DownloadRequest) (selected : String)
    (answers : PlanAnswers) (call : Call) (result : Except String (Option Response))
    (retries : Retries backend request selected call result)
    (sourceAvailability : Option Availability)
    (answered : forbiddingSource backend request selected answers = .ok sourceAvailability) :
    sourceAvailability = none := by
  unfold forbiddingSource at answered
  split at answered
  next asked =>
    exfalso
    obtain ⟨manifest, isProvider⟩ := Option.isSome_iff_exists.mp asked.2.2
    rcases retries.unreplaced with noSource | same | noProvider
    · exact asked.1 noSource
    · apply asked.2.1
      have sourceName := backend.manager.name_of_downloadProvider request.source manifest isProvider
      have selectedName :=
        backend.manager.name_of_downloadProvider selected call.manifest retries.installed
      exact (eq_of_eqIgnoreAsciiCase request.source selected
        (by rw [← sourceName]; exact manifest.valid)
        (by rw [← selectedName]; exact call.manifest.valid) same).symm
    · rw [isProvider] at noProvider
      cases noProvider
  next => exact (Except.ok.inj answered).symm

theorem calls_planCandidates (backend : Backend) (cache : PreparedDownloads) (key : String)
    (request : DownloadRequest) (selected : String) (sourceAvailability : Option Availability)
    (priority : List String) (isPriority : priority = (candidates backend.manager request).2)
    (answers : PlanAnswers) :
    (planCandidates backend cache key request selected sourceAvailability priority answers).calls =
          candidateCalls backend request answers sourceAvailability selected ∧
      (planCandidates backend cache key request selected sourceAvailability priority
        answers).selected = selected := by
  subst isPriority
  unfold planCandidates candidateCalls
  simp only
  split
  · exact ⟨rfl, rfl⟩
  · exact ⟨rfl, rfl⟩

theorem enrichDownloadSource_spec (request enriched : DownloadRequest) (answers : PlanAnswers)
    (isEnriched : enrichDownloadSource request answers = .ok enriched) :
    ∃ metadata, enriched = { request with metadata := metadata } := by
  unfold enrichDownloadSource at isEnriched
  split at isEnriched
  · exact ⟨request.metadata, (Except.ok.inj isEnriched).symm⟩
  · split at isEnriched
    next => cases isEnriched
    next metadata _ => exact ⟨metadata, (Except.ok.inj isEnriched).symm⟩

theorem calls_planSource (backend : Backend) (cache : PreparedDownloads) (key : String)
    (prepared : Option Bool) (request : DownloadRequest) (answers : PlanAnswers) (plan : Plan)
    (isPlan : plan = planSource backend cache key prepared request (selectedService request)
        (candidates backend.manager request).2 answers) :
    ((∀ sourceAvailability, forbiddingSource backend request (selectedService request) answers =
          .ok sourceAvailability → sourceAvailability = none) →
      plan.selected = selectedService request) ∧
    (plan.calls = [] ∨ ∃ metadata sourceAvailability,
        Chooses backend { request with metadata := metadata } answers sourceAvailability
          plan.selected ∧
        plan.calls = candidateCalls backend { request with metadata := metadata } answers
          sourceAvailability plan.selected) := by
  subst isPlan
  unfold planSource
  simp only
  split
  next => exact ⟨fun _ => rfl, .inl rfl⟩
  next sourceAvailability answered =>
    split
    next => exact ⟨fun _ => rfl, .inl rfl⟩
    next enriched isEnriched =>
      have exchanged : ∃ metadata, enriched = { request with metadata := metadata } := by
        split at isEnriched
        · exact ⟨request.metadata, (Except.ok.inj isEnriched).symm⟩
        · exact enrichDownloadSource_spec request enriched answers isEnriched
      obtain ⟨metadata, rfl⟩ := exchanged
      obtain ⟨calls, selected⟩ :=
        calls_planCandidates backend cache key { request with metadata := metadata }
          (if sourceAvailability.isSome then request.source else selectedService request)
          sourceAvailability (candidates backend.manager request).2 rfl answers
      constructor
      · intro unforbidden
        refine selected.trans ?_
        rw [unforbidden sourceAvailability answered]
        rfl
      · right
        refine ⟨metadata, sourceAvailability, ?_, ?_⟩
        · have chosen := chooses_of_forbiddingSource backend { request with metadata := metadata }
              answers sourceAvailability answered
          rw [selected]
          exact chosen
        · rw [selected]
          exact calls

theorem followsPolicy_of_metadata (backend : Backend) (request : DownloadRequest)
    (metadata : Metadata) (answers : PlanAnswers) (plan : Plan)
    (follows : FollowsPolicy backend { request with metadata := metadata } answers plan) :
    FollowsPolicy backend request answers plan :=
  { bounded := follows.bounded
    once := follows.once
    entitled := follows.entitled
    strict := follows.strict
    settled := follows.settled
    retriedFirst := follows.retriedFirst
    resumed := follows.resumed
    healthy := follows.healthy }

theorem followsPolicy_of_noCalls (backend : Backend) (request : DownloadRequest)
    (answers : PlanAnswers) (plan : Plan) (noCalls : plan.calls = []) :
    FollowsPolicy backend request answers plan := by
  refine
    { bounded := ?_, once := ?_, entitled := ?_, strict := ?_, settled := ?_,
      retriedFirst := ?_, resumed := ?_, healthy := ?_ }
  all_goals simp [noCalls]

/-- A run of the candidates, with or without a retry before them. -/
theorem followsPolicy_of_calls (backend : Backend) (request : DownloadRequest)
    (answers : PlanAnswers) (plan : Plan) (retry : Option Call) (rest : List Call)
    (isCalls : plan.calls = retry.toList ++ rest) (retried : ∀ call, retry = some call →
        call.provider = selectedService request ∧ call.verified = true ∧
          selectedService request ≠ "" ∧ plan.selected = selectedService request ∧
          (rest ≠ [] → call.FailsOrdinarily))
    (isRest : rest = [] ∨ ∃ sourceAvailability,
          Chooses backend request answers sourceAvailability plan.selected ∧
          rest = candidateCalls backend request answers sourceAvailability plan.selected) :
    FollowsPolicy backend request answers plan := by
  have ofRest : ∀ call ∈ plan.calls, retry = some call ∨ ∃ sourceAvailability,
          Chooses backend request answers sourceAvailability plan.selected ∧
          call ∈ candidateCalls backend request answers sourceAvailability plan.selected := by
    intro call member
    rw [isCalls] at member
    rcases List.mem_append.mp member with first | later
    · exact .inl (Option.mem_toList.mp first)
    · right
      rcases isRest with empty | ⟨sourceAvailability, chooses, isCandidates⟩
      · rw [empty] at later
        cases later
      · exact ⟨sourceAvailability, chooses, by rw [← isCandidates]; exact later⟩
  have retryLength : retry.toList.length ≤ 1 := by
    cases retry with
    | none => exact Nat.zero_le 1
    | some call => exact Nat.le_refl 1
  have unverified : ∀ call ∈ rest, call.verified = false := by
    intro call member
    rcases isRest with empty | ⟨sourceAvailability, chooses, isCandidates⟩
    · rw [empty] at member
      cases member
    · rw [isCandidates] at member
      exact (asked_of_mem_candidateCalls backend request answers sourceAvailability
        plan.selected call member).1
  refine
    { bounded := ?_, once := ?_, entitled := ?_, strict := ?_, settled := ?_,
      retriedFirst := ?_, resumed := ?_, healthy := ?_ }
  · rw [isCalls, List.length_append]
    rcases isRest with empty | ⟨sourceAvailability, chooses, isCandidates⟩
    · rw [empty, List.length_nil]
      omega
    · have bound := length_candidateCalls backend request answers sourceAvailability plan.selected
      rw [← isCandidates] at bound
      omega
  · intro provider other
    have first : (retry.toList.map Call.provider).count provider = 0 := by
      cases isRetry : retry with
      | none => rfl
      | some call =>
        have isSelected := (retried call isRetry).1
        rw [Option.toList_some, List.map_singleton, List.count_singleton, isSelected]
        simpa using Ne.symm other
    rw [isCalls, List.map_append, List.count_append, first, Nat.zero_add]
    rcases isRest with empty | ⟨sourceAvailability, chooses, isCandidates⟩
    · rw [empty]
      exact Nat.zero_le 1
    · rw [isCandidates]
      exact count_candidateCalls backend request answers sourceAvailability plan.selected
        chooses provider other
  · intro call member
    rcases ofRest call member with isRetry | ⟨sourceAvailability, chooses, candidate⟩
    · exact .inl (retried call isRetry).1
    · exact entitled_of_mem_candidateCalls backend request answers sourceAvailability
        plan.selected chooses call candidate
  · intro noFallback given call member
    rcases ofRest call member with isRetry | ⟨sourceAvailability, chooses, candidate⟩
    · left
      rw [(retried call isRetry).1]
      unfold selectedService
      simp [given]
    · exact strict_of_mem_candidateCalls backend request answers sourceAvailability
        plan.selected chooses noFallback given call candidate
  · rw [isCalls]
    refine List.pairwise_append.mpr ⟨?_, ?_, ?_⟩
    · cases retry with
      | none => exact List.Pairwise.nil
      | some call => exact List.pairwise_singleton _ call
    · rcases isRest with empty | ⟨sourceAvailability, chooses, isCandidates⟩
      · rw [empty]
        exact List.Pairwise.nil
      · have settled := tryCandidates_settled backend request plan.selected
          sourceAvailability (candidates backend.manager request).2 answers
          (forbids_of_chooses backend request answers sourceAvailability plan.selected chooses)
        rw [← candidateCalls, ← isCandidates] at settled
        refine settled.imp_of_mem ?_
        intro earlier _ member _ goesOn
        unfold Call.MayBeFollowed
        rw [unverified earlier member, if_neg Bool.false_ne_true]
        exact goesOn
    · intro call isRetry later member
      have isRetried := retried call (Option.mem_toList.mp isRetry)
      unfold Call.MayBeFollowed
      rw [isRetried.2.1, if_pos rfl]
      exact isRetried.2.2.2.2 (List.ne_nil_of_mem member)
  · intro call member
    apply unverified
    rw [isCalls] at member
    cases retry with
    | none => exact List.mem_of_mem_tail member
    | some first => exact member
  · intro call member verified
    rcases ofRest call member with isRetry | ⟨sourceAvailability, chooses, candidate⟩
    · obtain ⟨isSelected, _, named, stays, _⟩ := retried call isRetry
      rw [isSelected, stays]
      exact head?_attempts backend request named
    · have notVerified := (asked_of_mem_candidateCalls backend request answers
        sourceAvailability plan.selected call candidate).1
      rw [notVerified] at verified
      cases verified
  · intro call member offline
    rcases ofRest call member with isRetry | ⟨sourceAvailability, chooses, candidate⟩
    · obtain ⟨isSelected, _, named, stays, _⟩ := retried call isRetry
      unfold keptProvider
      rw [stays, if_neg named, isSelected]
      exact decide_eq_true rfl
    · exact healthy_of_mem_candidateCalls backend request answers sourceAvailability
        plan.selected call candidate offline

theorem takePrepared_spec (cache : PreparedDownloads) (key : String) (request : DownloadRequest) :
    ∃ metadata, (takePrepared cache key request).2.1 = { request with metadata := metadata } := by
  unfold takePrepared
  simp only
  split
  next => exact ⟨request.metadata, rfl⟩
  next prepared _ => exact ⟨prepared.metadata, rfl⟩

theorem planPrepared_followsPolicy (backend : Backend) (cache : PreparedDownloads) (key : String)
    (request : DownloadRequest) (answers : PlanAnswers) :
    FollowsPolicy backend request answers (planPrepared backend cache key request answers) := by
  obtain ⟨metadata, exchanged⟩ := takePrepared_spec cache key request
  apply followsPolicy_of_metadata backend request metadata answers
  unfold planPrepared
  generalize takePrepared cache key request = taken at exchanged ⊢
  obtain ⟨prepared, request', rest⟩ := taken
  simp only at exchanged ⊢
  subst exchanged
  generalize { request with metadata := metadata } = request
  have isSelected := candidates_fst backend.manager request
  generalize isRetried :
    downloadVerifiedRetry backend request (candidates backend.manager request).1
      answers.retry = retried
  rw [isSelected] at isRetried ⊢
  have retries : ∀ call, retried.call = some call →
        Retries backend request (selectedService request) call retried.result := by
    intro call asked
    rw [← isRetried] at asked ⊢
    exact retries_of_downloadVerifiedRetry backend request (selectedService request)
      answers.retry call asked
  have retryAlone : ∀ result, FollowsPolicy backend request answers
        { result := result, calls := retried.call.toList
          selected := selectedService request, cache := rest } := by
    intro result
    refine followsPolicy_of_calls backend request answers _ retried.call []
      (List.append_nil _).symm ?_ (.inl rfl)
    intro call asked
    have isRetry := retries call asked
    exact ⟨isRetry.provider, isRetry.verified, isRetry.named, rfl,
      fun notEmpty => absurd rfl notEmpty⟩
  have sourced : ∀ plan : Plan, ∀ retry : Option Call, (∀ call, retry = some call →
          Retries backend request (selectedService request) call (.ok none)) →
        plan = planSource backend rest key prepared request (selectedService request)
          (candidates backend.manager request).2 answers →
        FollowsPolicy backend request answers
          { plan with calls := retry.toList ++ plan.calls } := by
    intro plan retry isRetry isPlan
    obtain ⟨stays, calls⟩ := calls_planSource backend rest key prepared request answers plan isPlan
    have isRetriedFirst : ∀ call, retry = some call →
          call.provider = selectedService request ∧ call.verified = true ∧
            selectedService request ≠ "" ∧ plan.selected = selectedService request ∧
            (plan.calls ≠ [] → call.FailsOrdinarily) := by
      intro call asked
      have own := isRetry call asked
      exact ⟨own.provider, own.verified, own.named, stays fun sourceAvailability answered =>
          unforbidden_of_retries backend request (selectedService request) answers call
            (.ok none) own sourceAvailability answered,
        fun _ => own.handsOver rfl⟩
    rcases calls with noCalls | ⟨exchanged, sourceAvailability, chooses, isCandidates⟩
    · exact followsPolicy_of_calls backend request answers _ retry plan.calls rfl
        isRetriedFirst (.inl noCalls)
    · exact followsPolicy_of_metadata backend request exchanged answers _
        (followsPolicy_of_calls backend { request with metadata := exchanged } answers _
          retry plan.calls rfl isRetriedFirst
          (.inr ⟨sourceAvailability, chooses, isCandidates⟩))
  cases answers.priorities with
  | error error => exact followsPolicy_of_noCalls _ _ _ _ rfl
  | ok _ =>
    simp only
    split
    next =>
      split
      next error failed => exact retryAlone (.error error)
      next response ended => exact retryAlone (.ok response)
      next handsOver =>
        refine sourced _ retried.call ?_ rfl
        intro call asked
        rw [← handsOver]
        exact retries call asked
    next => exact sourced _ none (fun _ => nofun) rfl

/-- `plan_download` follows the provider policy. -/
theorem planDownload_followsPolicy (backend : Backend) (cache : PreparedDownloads)
    (request : DownloadRequest)
    (answers : PlanAnswers) :
    FollowsPolicy backend request answers (planDownload backend cache request answers) := by
  unfold planDownload
  simp only
  split
  next => exact followsPolicy_of_noCalls _ _ _ _ rfl
  next =>
    split
    next => exact followsPolicy_of_noCalls _ _ _ _ rfl
    next => exact followsPolicy_of_noCalls _ _ _ _ rfl
    next => exact planPrepared_followsPolicy backend cache _ request answers

/-! ## A retried provider that forbids to be replaced -/

/-- An installed download provider without status checks. -/
def provider (name : String) (valid : validExtensionId name = true) : Installed :=
  { manifest :=
      { name := name, valid := valid, types := ["download_provider"]
        stopProviderFallback := false, skipBuiltInFallback := false
        serviceHealth := [], replacesBuiltInProviders := [] }
    enabled := true
    error := "" }

/-- Two providers, both of which may replace another one. -/
def twoProviders : Backend where
  manager := ExtensionManager.setProviderPriority
      { entries := [provider "alpha" (by decide), provider "beta" (by decide)]
        priority := { ids := [], trimmed := by simp, distinct := List.nodup_nil }
        fallback := none
        metadataRevision := 0 }
      ["alpha", "beta"]
  health := { closed := false, now := 0, entries := fun _ => none }
  checked _ _ found := by cases found

/-- A request for the first of them. -/
def alphaRequest : DownloadRequest :=
  { itemId := "item", service := "alpha", source := "", useFallback := true
    metadata :=
      { spotifyId := "", tidalId := "", qobuzId := "", deezerId := "", trackName := ""
        artistName := "" }
    outputExt := "", downloadProvider := "", providerTrackId := "" }

/-- The request was verified a moment ago. -/
def verifiedBefore : PreparedDownloads := fun id =>
  if id = "item" then
    some
      { key := preparationKey alphaRequest, metadata := alphaRequest.metadata
        metadataReady := false }
  else none

/-- During the retry the provider forbids to be replaced and fails; then it cannot tell
whether it has the track, and the other provider has it. -/
def forgetfulAnswers : PlanAnswers where
  preflight := .ok false
  check := .ok ()
  priorities := .ok ()
  retry :=
    { availability := .ok { Availability.always with skipFallback := true }
      checkAvailability := .ok ()
      outcome := .ok (.retry (failure "alpha" "connection reset" "" 0))
      checkOutcome := .ok () }
  sourceAvailability := .error "not asked"
  checkSource := .ok ()
  enriched := .error "not asked"
  sorted := .ok ()
  attempt index :=
    { check := .ok ()
      accountMode := .ok false
      preflight := .ok false
      availability := if index = 0 then .error "connection reset" else .ok .always
      checkAvailability := .ok ()
      outcome := .ok (.final (failure "beta" "disk full" "" 0))
      checkOutcome := .ok ()
      accountModeAfter := .ok false }
  checkEnd := .ok ()

/-- The other provider is asked although the retried one forbade to be replaced. -/
theorem retry_forgets_skip_fallback : ¬∀ backend cache request answers,
      (planDownload backend cache request answers).calls.Pairwise fun earlier later =>
        earlier.GoesOn request.source ∨
          earlier.verified = true ∧ later.provider = earlier.provider := by
  intro claimed
  have ordered := claimed twoProviders verifiedBefore alphaRequest forgetfulAnswers
  have asked : (planDownload twoProviders verifiedBefore alphaRequest forgetfulAnswers).calls.map
          (fun call => (call.provider, call.availability.skipFallback)) =
        [("alpha", true), ("beta", false)] := by
    decide +kernel
  obtain ⟨earlier, rest, isCalls, isEarlier, others⟩ := List.map_eq_cons_iff.mp asked
  obtain ⟨later, _, isRest, isLater, _⟩ := List.map_eq_cons_iff.mp others
  rw [isCalls, isRest] at ordered
  obtain ⟨named, skips⟩ := Prod.mk.inj isEarlier
  rcases (List.pairwise_cons.mp ordered).1 later List.mem_cons_self with
    goesOn | ⟨_, same⟩
  · rw [goesOn.skip] at skips
    cases skips
  · rw [named, (Prod.mk.inj isLater).1] at same
    exact absurd same (by decide)

end LosslessMusic.Download
