import LosslessMusic.Download.Plan

/-!
# The candidates of a download

What one candidate may leave behind, and what both rounds of candidates inherit
from it: the calls follow the order of the candidates, each asks the candidate
it belongs to, and only one that leaves the download open is followed.
-/

namespace LosslessMusic.Download

open Text
open Transition (Trial Tried tryEach)

namespace Call

/-- A failure of the download itself that another provider may make good. -/
def FailsOrdinarily (call : Call) : Prop :=
  ∃ response, call.outcome = .ok (.retry response) ∧ response.errorType ≠ "verification_required" ∧
    storageFailure response.errorType response.error = false

/-- Whether a provider may be asked behind a call of a candidate. -/
structure GoesOn (source : String) (call : Call) : Prop where
  ordinary : call.FailsOrdinarily
  account : call.accountMode = false
  accountAfter : call.accountModeAfter = .ok false
  skip : call.availability.skipFallback = false
  source : call.provider = source → call.manifest.stopsProviderFallback = false

/-- Whether a provider may be asked behind a call: the retry behind a verification
hands over on every ordinary failure. -/
def MayBeFollowed (source : String) (call : Call) : Prop :=
  if call.verified then call.FailsOrdinarily else call.GoesOn source

end Call

/-! ## One candidate -/

section Candidate

variable (backend : Backend) (request : DownloadRequest) (selected : String)
variable (sourceAvailability : Option Availability)
variable (answers : AttemptAnswers) (attempt : Attempt)

/-- A call that a candidate has led to. -/
structure Asked (call : Call) : Prop where
  provider : call.provider = attempt.id
  unverified : call.verified = false
  considered : passesOver backend request selected attempt = false
  installed : backend.manager.downloadProvider attempt.id = some call.manifest
  judged : tryProvider backend request selected sourceAvailability answers attempt =
      judge call (call.availability.skipFallback || call.accountMode) attempt.direct
        answers.checkOutcome

theorem event_judge (call : Call) (stop direct : Bool) (checkOutcome : Except String Unit) :
    (judge call stop direct checkOutcome).event = some call := by
  unfold judge
  simp only
  repeat' split
  all_goals rfl

theorem event_of_availabilityOf (accountMode : Bool) (verdict : Verdict) (ended :
      availabilityOf sourceAvailability answers attempt accountMode = .error verdict) :
    verdict.event = none := by
  unfold availabilityOf at ended
  simp only at ended
  repeat' split at ended
  all_goals
    cases ended
  all_goals rfl

theorem asked_of_tryProvider (call : Call) (asked :
      (tryProvider backend request selected sourceAvailability answers attempt).event = some call) :
    Asked backend request selected sourceAvailability answers attempt call := by
  unfold tryProvider at asked
  split at asked
  next => cases asked
  next checked =>
    split at asked
    next => cases asked
    next considered =>
      split at asked
      next => cases asked
      next manifest installed =>
        split at asked
        next => cases asked
        next accountMode isAccount =>
          split at asked
          next verdict ended =>
            rw [event_of_availabilityOf sourceAvailability answers attempt accountMode
              verdict ended] at asked
            cases asked
          next availability isAvailable =>
            have tried : tryProvider backend request selected sourceAvailability answers attempt =
                  askProvider request answers attempt manifest accountMode availability := by
              simp only [tryProvider, checked, considered, installed, isAccount, isAvailable,
                Bool.false_eq_true, if_false]
            unfold askProvider at asked tried
            simp only at asked tried
            split at asked
            next =>
              split at asked
              next => cases asked
              next => cases asked
            next hasTrack =>
              rw [if_neg hasTrack] at tried
              rw [event_judge] at asked
              cases asked
              exact
                { provider := rfl
                  unverified := rfl
                  considered := by simpa using considered
                  installed := installed
                  judged := tried }

/-- What a failed call says when it does not settle the download. -/
structure LeavesOpen (call : Call) (stop direct : Bool) : Prop where
  ordinary : call.FailsOrdinarily
  account : call.accountMode = false
  accountAfter : call.accountModeAfter = .ok false
  unstopped : stop = false
  source : direct = true → call.manifest.stopsProviderFallback = false

theorem leavesOpen_of_judge (call : Call) (stop direct : Bool) (checkOutcome : Except String Unit)
    (unsettled : (judge call stop direct checkOutcome).isSettled = false) :
    LeavesOpen call stop direct := by
  unfold judge at unsettled
  simp only at unsettled
  split at unsettled
  next => cases unsettled
  next outcome ended =>
    split at unsettled
    next => cases unsettled
    next =>
      split at unsettled
      next => cases unsettled
      next response =>
        split at unsettled
        next => cases unsettled
        next => cases unsettled
        next account =>
          split at unsettled
          next => cases unsettled
          next notVerification =>
            split at unsettled
            next => cases unsettled
            next noStorage =>
              split at unsettled
              next => cases unsettled
              next goesOn =>
                split at unsettled
                next => cases unsettled
                next noStop =>
                  cases mode : call.accountMode with
                  | true =>
                    rw [mode, if_pos rfl] at account
                    cases account
                  | false =>
                    rw [mode, if_neg Bool.false_ne_true] at account
                    exact
                      { ordinary :=
                          ⟨response, ended, notVerification, by simpa using noStorage⟩
                        account := mode
                        accountAfter := account
                        unstopped := by simpa using goesOn
                        source := by simpa using noStop }

theorem replaceable_of_direct (manifest : ExtensionManifest) (isDirect : attempt.direct = true)
    (named : attempt.id ≠ "")
    (installed : backend.manager.downloadProvider attempt.id = some manifest)
    (forbids : ∀ availability, sourceAvailability = some availability →
        availability.skipFallback = true)
    (unsettled : (tryProvider backend request selected sourceAvailability answers
        attempt).isSettled = false) :
    sourceAvailability = none ∧ manifest.stopsProviderFallback = false := by
  unfold tryProvider at unsettled
  split at unsettled
  next => cases unsettled
  next =>
    have considered : passesOver backend request selected attempt = false := by
      simp [passesOver, isDirect, named]
    simp only [considered, installed, Bool.false_eq_true, if_false] at unsettled
    split at unsettled
    next => cases unsettled
    next accountMode _ =>
      have answered : availabilityOf sourceAvailability answers attempt accountMode =
            .ok (sourceAvailability.getD .always) := by
        unfold availabilityOf
        rw [if_pos isDirect]
      rw [answered] at unsettled
      simp only [askProvider] at unsettled
      cases source : sourceAvailability with
      | none =>
        rw [source] at unsettled
        have left := leavesOpen_of_judge _ _ _ _ unsettled
        exact ⟨rfl, left.source isDirect⟩
      | some availability =>
        exfalso
        rw [source, Option.getD_some, forbids availability source, Bool.true_or] at unsettled
        split at unsettled
        next => cases unsettled
        next =>
          have left := leavesOpen_of_judge _ _ _ _ unsettled
          cases left.unstopped

end Candidate

/-! ## The rounds of candidates -/

section Rounds

variable (backend : Backend) (request : DownloadRequest) (selected : String)
variable (sourceAvailability : Option Availability) (priority : List String)
variable (answers : PlanAnswers)

/-- The calls are those of the first round, or of both rounds when the first settled
nothing. -/
theorem events_tryCandidates :
    (tryCandidates backend request selected sourceAvailability priority answers).events =
        (sourceRound backend request selected sourceAvailability answers).events ∨
      (sourceRound backend request selected sourceAvailability answers).result = none ∧
        (tryCandidates backend request selected sourceAvailability priority answers).events =
          (sourceRound backend request selected sourceAvailability answers).events ++
            (candidateRound backend request selected sourceAvailability priority answers
              (sourceRound backend request selected sourceAvailability answers).last).events := by
  unfold tryCandidates
  cases ended : (sourceRound backend request selected sourceAvailability answers).result with
  | some settled =>
    left
    simp only [ended]
  | none =>
    simp only [ended]
    cases answers.sorted with
    | error error => exact .inl rfl
    | ok _ => exact .inr ⟨trivial, rfl⟩

theorem provider_of_tryProvider (index : Nat) (attempt : Attempt) (call : Call) (asked :
      (tryProvider backend request selected sourceAvailability (answers.attempt index)
        attempt).event = some call) : call.provider = attempt.id :=
  (asked_of_tryProvider backend request selected sourceAvailability
    (answers.attempt index) attempt call asked).provider

theorem sourceRound_sublist :
    ((sourceRound backend request selected sourceAvailability answers).events.map
      Call.provider).Sublist ((directAttempts request selected).map Attempt.id) :=
  Transition.tryEach_sublist _ Call.provider Attempt.id
    (provider_of_tryProvider backend request selected sourceAvailability answers) 0 none _

theorem tryCandidates_sublist : ((tryCandidates backend request selected sourceAvailability priority
        answers).events.map Call.provider).Sublist
      ((directAttempts request selected ++
        sortedAttempts backend request selected priority).map Attempt.id) := by
  have first := sourceRound_sublist backend request selected sourceAvailability answers
  rw [List.map_append]
  rcases events_tryCandidates backend request selected sourceAvailability priority
    answers with only | ⟨_, both⟩
  · rw [only]
    exact first.trans (List.sublist_append_left _ _)
  · rw [both, List.map_append]
    exact first.append (Transition.tryEach_sublist _ Call.provider Attempt.id
        (provider_of_tryProvider backend request selected sourceAvailability answers) _ _ _)

theorem asked_of_mem_tryCandidates (call : Call) (member :
      call ∈ (tryCandidates backend request selected sourceAvailability priority answers).events) :
    ∃ turn, ∃ attempt ∈ directAttempts request selected ++
        sortedAttempts backend request selected priority,
      Asked backend request selected sourceAvailability turn attempt call := by
  have first : call ∈ (sourceRound backend request selected sourceAvailability answers).events →
        ∃ turn, ∃ attempt ∈ directAttempts request selected ++
            sortedAttempts backend request selected priority,
          Asked backend request selected sourceAvailability turn attempt call := by
    intro found
    obtain ⟨index, attempt, belongs, asked⟩ := Transition.event_of_mem_tryEach _ 0 none _ call found
    exact ⟨answers.attempt index, attempt, List.mem_append_left _ belongs,
      asked_of_tryProvider backend request selected sourceAvailability _ attempt call asked⟩
  rcases events_tryCandidates backend request selected sourceAvailability priority
    answers with only | ⟨_, both⟩
  · rw [only] at member
    exact first member
  · rw [both] at member
    rcases List.mem_append.mp member with early | late
    · exact first early
    · obtain ⟨index, attempt, belongs, asked⟩ := Transition.event_of_mem_tryEach _ _ _ _ call late
      exact ⟨answers.attempt index, attempt, List.mem_append_right _ belongs,
        asked_of_tryProvider backend request selected sourceAvailability _ attempt call asked⟩

variable (forbids : ∀ availability, sourceAvailability = some availability →
    availability.skipFallback = true)

include forbids

/-- Behind an unsettled first round the source may be replaced. -/
theorem replaceable_of_sourceRound (manifest : ExtensionManifest) (named : request.source ≠ "")
    (isSelected : selected = request.source)
    (installed : backend.manager.downloadProvider request.source = some manifest)
    (unsettled : (sourceRound backend request selected sourceAvailability answers).result = none) :
    sourceAvailability = none ∧ manifest.stopsProviderFallback = false := by
  have member : (⟨request.source, true⟩ : Attempt) ∈ directAttempts request selected := by
    unfold directAttempts
    rw [if_pos ⟨named, isSelected⟩]
    exact List.mem_cons_self
  obtain ⟨index, unsettled⟩ := Transition.unsettled_of_tryEach _ 0 none _ unsettled _ member
  exact replaceable_of_direct backend request selected sourceAvailability
    (answers.attempt index) ⟨request.source, true⟩ manifest rfl named installed forbids
    unsettled

theorem tryCandidates_settled : (tryCandidates backend request selected sourceAvailability priority
        answers).events.Pairwise fun earlier _ => earlier.GoesOn request.source := by
  have goesOn : ∀ index attempt call response,
        (call.provider = request.source → attempt.direct = false →
          call.manifest.stopsProviderFallback = false) →
        tryProvider backend request selected sourceAvailability (answers.attempt index)
          attempt = .failed (some call) response →
        call.GoesOn request.source := by
    intro index attempt call response source failed
    have asked := asked_of_tryProvider backend request selected sourceAvailability
        (answers.attempt index) attempt call (by rw [failed]; rfl)
    have judged := asked.judged
    rw [failed] at judged
    have left := leavesOpen_of_judge _ _ _ _ (by rw [← judged]; rfl)
    refine
      { ordinary := left.ordinary
        account := left.account
        accountAfter := left.accountAfter
        skip := ((Bool.or_eq_false_iff).mp left.unstopped).1
        source := ?_ }
    intro isSource
    cases direct : attempt.direct with
    | true => exact left.source direct
    | false => exact source isSource direct
  obtain ⟨firstSettled, firstOpen⟩ := Transition.tryEach_goesOn
      (fun index => tryProvider backend request selected sourceAvailability (answers.attempt index))
      (Call.GoesOn request.source) (directAttempts request selected)
      (by
        intro index attempt member call response failed
        refine goesOn index attempt call response ?_ failed
        intro _ indirect
        unfold directAttempts at member
        split at member
        · obtain rfl := List.mem_singleton.mp member
          cases indirect
        · cases member)
      0 none
  rcases events_tryCandidates backend request selected sourceAvailability priority
    answers with only | ⟨unsettled, both⟩
  · rw [only]
    exact firstSettled
  · rw [both]
    refine List.pairwise_append.mpr
      ⟨firstSettled, ?_, fun call member _ _ => firstOpen unsettled call member⟩
    refine (Transition.tryEach_goesOn _ (Call.GoesOn request.source) _ ?_ _ _).1
    intro index attempt member call response failed
    refine goesOn index attempt call response ?_ failed
    intro isSource indirect
    have asked := asked_of_tryProvider backend request selected sourceAvailability
        (answers.attempt index) attempt call (by rw [failed]; rfl)
    have isId : attempt.id = request.source := by rw [← asked.provider, isSource]
    have considered := asked.considered
    unfold passesOver at considered
    simp only [indirect, isId, Bool.not_false, Bool.true_and, decide_true,
      Bool.or_eq_false_iff, decide_eq_false_iff_not, ne_eq, not_not] at considered
    have installed := asked.installed
    rw [isId] at installed
    exact (replaceable_of_sourceRound backend request selected sourceAvailability answers
      forbids call.manifest considered.1.1 considered.1.2.symm installed unsettled).2

end Rounds

end LosslessMusic.Download
