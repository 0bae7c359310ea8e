import LosslessMusic.Download.Outcomes
import LosslessMusic.Transition.Candidates

/-!
# Planning a download

`plan_download` asks one provider after another. It opens with the session
check of the preferred provider and, after a verification, one retry of the
selected provider alone. Then the item's source may forbid to replace its
recording, the track data are enriched, and the candidates are tried in order
until one of them settles the download.

What the extensions, the network and the user answer during one run is given
as a record; every run has its own.
-/

namespace LosslessMusic.Download

open Text
open Transition (Trial Tried tryEach)

/-! ## Answers -/

/-- What is answered while one candidate is tried. `check` is the test whether the
backend is open and the download not cancelled. -/
structure AttemptAnswers where
  check : Except String Unit
  accountMode : Except String Bool
  preflight : Except String Bool
  availability : Except String Availability
  checkAvailability : Except String Unit
  outcome : Except String DownloadOutcome
  checkOutcome : Except String Unit
  accountModeAfter : Except String Bool

/-- What is answered during the retry behind a verification. -/
structure RetryAnswers where
  availability : Except String Availability
  checkAvailability : Except String Unit
  outcome : Except String DownloadOutcome
  checkOutcome : Except String Unit

/-- What is answered during one run of the planner. -/
structure PlanAnswers where
  preflight : Except String Bool
  check : Except String Unit
  /-- Whether the manager answers for the priorities. -/
  priorities : Except String Unit
  retry : RetryAnswers
  sourceAvailability : Except String Availability
  checkSource : Except String Unit
  /-- The track data after the enrichment. -/
  enriched : Except String Metadata
  /-- Whether the manager answers while the candidates are sorted. -/
  sorted : Except String Unit
  attempt : Nat → AttemptAnswers
  checkEnd : Except String Unit

/-! ## Calls -/

/-- A candidate; `direct` when it is tried as the source of the item. -/
structure Attempt where
  id : String
  direct : Bool
  deriving DecidableEq

/-- One call of `download_resolved`. The account mode is read before and, if the call
fails, behind it; the retry behind a verification does not read it. -/
structure Call where
  request : DownloadRequest
  manifest : ExtensionManifest
  availability : Availability
  outcome : Except String DownloadOutcome
  verified : Bool
  accountMode : Bool
  accountModeAfter : Except String Bool

namespace Call

/-- The provider that is asked to download. -/
def provider (call : Call) : String :=
  call.request.downloadProvider

end Call

/-- How a candidate ends the run: with a result, and with the request remembered for
the time behind a verification or not. -/
structure Settled where
  result : Except String Response
  remember : Bool

/-- The verdict over one candidate. -/
abbrev Verdict : Type :=
  Trial Call Response Settled

/-! ## One candidate -/

section Attempts

variable (backend : Backend) (request : DownloadRequest) (selected : String)
variable (sourceAvailability : Option Availability)

/-- The candidates that are passed over before their manifest is read. -/
def passesOver (attempt : Attempt) : Bool :=
  attempt.id = "" ||
    (!attempt.direct && attempt.id = request.source && request.source ≠ selected) ||
    (!attempt.direct && attempt.id ≠ selected && !backend.manager.fallbackAllowed attempt.id)

/-- The availability of a candidate, or how the attempt ends without one. -/
def availabilityOf (answers : AttemptAnswers) (attempt : Attempt) (accountMode : Bool) :
    Except Verdict Availability :=
  if attempt.direct then
    .ok (sourceAvailability.getD .always)
  else
    let available : Except String Availability :=
      match answers.preflight with
      | .error error => .error error
      | .ok true =>
        .error (s!"verification_required: extension '{attempt.id}' needs " ++
          "signed-session verification")
      | .ok false => answers.availability
    match answers.checkAvailability with
    | .error error => .error (.settled none ⟨.error error, false⟩)
    | .ok () =>
      match available with
      | .ok availability => .ok availability
      | .error error =>
        let response := failure attempt.id error "" 0
        if accountMode then
          .error (.settled none ⟨.ok response, false⟩)
        else if response.errorType = "verification_required" then
          .error (.settled none ⟨.ok (failure attempt.id s!"Download failed: {error}"
              "verification_required" 0), true⟩)
        else
          .error (.failed none response)

/-- What follows from the outcome of a call. -/
def judge (call : Call) (stop : Bool) (direct : Bool) (checkOutcome : Except String Unit) :
    Verdict :=
  let id := call.provider
  match call.outcome with
  | .error error => .settled (some call) ⟨.error error, false⟩
  | .ok outcome =>
    match checkOutcome with
    | .error error => .settled (some call) ⟨.error error, false⟩
    | .ok () =>
      match outcome with
      | .final response => .settled (some call) ⟨.ok response, false⟩
      | .retry response =>
        let message := response.error
        let kind := response.errorType
        let failed := fun kind =>
          failure id s!"Download failed: {message}" kind response.retryAfterSeconds
        let account :=
          if call.accountMode then .ok true else call.accountModeAfter
        match account with
        | .error error => .settled (some call) ⟨.error error, false⟩
        | .ok true => .settled (some call) ⟨.ok (failed kind), false⟩
        | .ok false =>
          if kind = "verification_required" then
            .settled (some call) ⟨.ok (failed kind), true⟩
          else if storageFailure kind message then
            .settled (some call) ⟨.ok (failed "permission"), false⟩
          else if stop then
            .settled (some call) ⟨.ok (stopped id call.availability message), false⟩
          else if direct && call.manifest.stopsProviderFallback then
            .settled (some call) ⟨.ok (failed kind), false⟩
          else
            .failed (some call) response

/-- A candidate whose availability is known. -/
def askProvider (answers : AttemptAnswers) (attempt : Attempt) (manifest : ExtensionManifest)
    (accountMode : Bool)
    (availability : Availability) : Verdict :=
  let stop := availability.skipFallback || accountMode
  if !availability.available then
    if stop then
      .settled none ⟨.ok (stopped attempt.id availability ""), false⟩
    else
      let reason := trimWhite availability.reason
      .failed none (failure attempt.id
          (if reason = "" then "No matching track available from this provider"
            else reason)
          "" availability.retryAfterSeconds)
  else
    let trackId :=
      if attempt.direct then preferredTrackId request manifest availability.trackId
      else availability.trackId
    judge
      { request :=
          { request with
            downloadProvider := attempt.id
            providerTrackId := trackId
            outputExt := if attempt.direct then request.outputExt else "" }
        manifest := manifest
        availability := availability
        outcome := answers.outcome
        verified := false
        accountMode := accountMode
        accountModeAfter := answers.accountModeAfter }
      stop attempt.direct answers.checkOutcome

/-- One turn of the loop over the candidates. -/
def tryProvider (answers : AttemptAnswers) (attempt : Attempt) : Verdict :=
  match answers.check with
  | .error error => .settled none ⟨.error error, false⟩
  | .ok () =>
    if passesOver backend request selected attempt then .passed
    else
      match backend.manager.downloadProvider attempt.id with
      | none => .passed
      | some manifest =>
        match answers.accountMode with
        | .error error => .settled none ⟨.error error, false⟩
        | .ok accountMode =>
          match availabilityOf sourceAvailability answers attempt accountMode with
          | .error verdict => verdict
          | .ok availability =>
            askProvider request answers attempt manifest accountMode availability

end Attempts

/-! ## The retry behind a verification -/

/-- What the retry came to: a response ends the run, none hands it over to the
candidates. -/
structure Retried where
  call : Option Call
  result : Except String (Option Response)

/-- The availability of the selected provider, or how the retry ends without one. -/
def retryAvailability (selected : String) (direct : Bool) (answers : RetryAnswers) :
    Except (Except String (Option Response)) Availability :=
  if direct then
    .ok .always
  else
    match answers.checkAvailability with
    | .error error => .error (.error error)
    | .ok () =>
      match answers.availability with
      | .ok availability => .ok availability
      | .error error =>
        let response := failure selected s!"Download failed: {error}" "" 0
        .error (.ok (if response.errorType = "verification_required" then some response
            else none))

/-- What follows from the outcome of the retry. -/
def judgeRetry (call : Call) (checkOutcome : Except String Unit) : Retried :=
  match call.outcome with
  | .error error => { call := some call, result := .error error }
  | .ok outcome =>
    match checkOutcome with
    | .error error => { call := some call, result := .error error }
    | .ok () =>
      match outcome with
      | .final response => { call := some call, result := .ok (some response) }
      | .retry response =>
        let message := response.error
        let kind := response.errorType
        if kind = "verification_required" || storageFailure kind message then
          { call := some call
            result := .ok (some (failure call.provider s!"Download failed: {message}"
                (if kind = "verification_required" then kind else "permission")
                response.retryAfterSeconds)) }
        else
          -- Ordinary failures may recover after the enrichment.
          { call := some call, result := .ok none }

def downloadVerifiedRetry (backend : Backend) (request : DownloadRequest) (selected : String)
    (answers : RetryAnswers) : Retried :=
  if selected = "" ∨
      (request.source ≠ "" ∧ eqIgnoreAsciiCase request.source selected = false ∧
        (backend.manager.downloadProvider request.source).isSome) then
    { call := none, result := .ok none }
  else
    match backend.manager.downloadProvider selected with
    | none => { call := none, result := .ok none }
    | some manifest =>
      let direct := eqIgnoreAsciiCase request.source selected
      match retryAvailability selected direct answers with
      | .error result => { call := none, result := result }
      | .ok availability =>
        if !availability.available then
          { call := none
            result := .ok (if availability.skipFallback then
                some (stopped selected availability "")
              else none) }
        else
          judgeRetry
            { request :=
                { request with
                  downloadProvider := selected
                  providerTrackId := preferredTrackId request manifest availability.trackId
                  outputExt := if direct then request.outputExt else "" }
              manifest := manifest
              availability := availability
              outcome := answers.outcome
              verified := true
              accountMode := false
              accountModeAfter := .ok false }
            answers.checkOutcome

/-! ## The whole run -/

/-- What one run of the planner came to. -/
structure Plan where
  result : Except String Response
  calls : List Call
  /-- The provider that is not replaced by another one, as the run left it. -/
  selected : String
  cache : PreparedDownloads

/-- The selected provider and the order of providers before the health is looked at. -/
def candidates (manager : ExtensionManager) (request : DownloadRequest) : String × List String :=
  let service := trimWhite request.service
  if !request.useFallback then
    let selected := if service = "" then trimWhite request.source else service
    (selected, if selected = "" then manager.priority.ids else [selected])
  else if request.service ≠ "" then
    (service, request.service ::
      manager.priority.ids.filter fun id => !eqIgnoreAsciiCase id request.service)
  else
    (service, manager.priority.ids)

/-- The response behind the last candidate. -/
def exhausted : Option Response → Response
  | some last =>
    failure last.service s!"All providers failed. Last error: {last.error}"
      (if last.errorType = "unknown" then "not_found" else last.errorType)
      last.retryAfterSeconds
  | none => failure "" "No extension download providers available" "not_found" 0

/-- The source of the item, tried first when it is selected. -/
def directAttempts (request : DownloadRequest) (selected : String) : List Attempt :=
  if request.source ≠ "" ∧ selected = request.source then [⟨request.source, true⟩] else []

/-- The provider that the sorting keeps whatever its health. -/
def keptProvider (request : DownloadRequest) (selected : String) : String :=
  if selected = "" then request.source else selected

/-- The candidates in the order of their health. -/
def sortedAttempts (backend : Backend) (request : DownloadRequest) (selected : String)
    (priority : List String) : List Attempt :=
  (backend.prioritizeHealthyDownloads priority (keptProvider request selected)
    selected).map fun id => ⟨id, false⟩

section Rounds

variable (backend : Backend) (request : DownloadRequest) (selected : String)
variable (sourceAvailability : Option Availability)

/-- The round of the source alone. -/
def sourceRound (answers : PlanAnswers) : Tried Call Response Settled :=
  tryEach (fun index =>
      tryProvider backend request selected sourceAvailability (answers.attempt index))
    0 none (directAttempts request selected)

/-- The round of the sorted candidates. -/
def candidateRound (priority : List String) (answers : PlanAnswers)
    (last : Option Response) : Tried Call Response Settled :=
  tryEach (fun index =>
      tryProvider backend request selected sourceAvailability (answers.attempt index))
    (directAttempts request selected).length last
    (sortedAttempts backend request selected priority)

/-- Both rounds of candidates. -/
def tryCandidates (priority : List String) (answers : PlanAnswers) :
    Tried Call Response Settled :=
  let first := sourceRound backend request selected sourceAvailability answers
  match first.result with
  | some _ => first
  | none =>
    match answers.sorted with
    | .error error => { first with result := some ⟨.error error, false⟩ }
    | .ok () =>
      let second :=
        candidateRound backend request selected sourceAvailability priority answers first.last
      { second with events := first.events ++ second.events }

end Rounds

/-- The candidates of a request with its final track data, and the end of the run. -/
def planCandidates (backend : Backend) (cache : PreparedDownloads) (key : String)
    (request : DownloadRequest)
    (selected : String)
    (sourceAvailability : Option Availability)
    (priority : List String)
    (answers : PlanAnswers) : Plan :=
  let tried :=
    tryCandidates backend request selected sourceAvailability priority answers
  match tried.result with
  | some settled =>
    { result := settled.result
      calls := tried.events
      selected := selected
      cache := if settled.remember then cachePrepared cache key request true else cache }
  | none =>
    { result :=
        match answers.checkEnd with
        | .error error => .error error
        | .ok () => .ok (exhausted tried.last)
      calls := tried.events
      selected := selected
      cache := cache }

/-- The availability of a source that forbids to replace its recording. -/
def forbiddingSource (backend : Backend) (request : DownloadRequest) (selected : String)
    (answers : PlanAnswers) : Except String (Option Availability) :=
  if request.source ≠ "" ∧ selected ≠ request.source ∧
      (backend.manager.downloadProvider request.source).isSome then
    match answers.checkSource with
    | .error error => .error error
    | .ok () =>
      match answers.sourceAvailability with
      | .error _ => .ok none
      | .ok availability =>
        .ok (if availability.skipFallback then some availability else none)
  else
    .ok none

/-- `enrich_download_source`: without a source nothing is enriched. -/
def enrichDownloadSource (request : DownloadRequest) (answers : PlanAnswers) :
    Except String DownloadRequest :=
  if request.source = "" then .ok request
  else
    match answers.enriched with
    | .error error => .error error
    | .ok metadata => .ok { request with metadata := metadata }

/-- The source of the item, and the track data, before the candidates. -/
def planSource (backend : Backend) (cache : PreparedDownloads) (key : String)
    (prepared : Option Bool)
    (request : DownloadRequest)
    (selected : String)
    (priority : List String)
    (answers : PlanAnswers) : Plan :=
  let gaveUp := fun error =>
    { result := .error error, calls := [], selected := selected, cache := cache : Plan }
  match forbiddingSource backend request selected answers with
  | .error error => gaveUp error
  | .ok sourceAvailability =>
    let chosen := if sourceAvailability.isSome then request.source else selected
    let enriched :=
      if prepared = some true then .ok request
      else enrichDownloadSource request answers
    match enriched with
    | .error error => gaveUp error
    | .ok request =>
      planCandidates backend cache key request chosen sourceAvailability priority answers

/-- The run behind the session check. -/
def planPrepared (backend : Backend) (cache : PreparedDownloads) (key : String)
    (request : DownloadRequest)
    (answers : PlanAnswers) : Plan :=
  let (prepared, request, cache) := takePrepared cache key request
  let (selected, priority) := candidates backend.manager request
  match answers.priorities with
  | .error error =>
    { result := .error error, calls := [], selected := selected, cache := cache }
  | .ok () =>
    if prepared = some false then
      let retried := downloadVerifiedRetry backend request selected answers.retry
      match retried.result with
      | .error error =>
        { result := .error error, calls := retried.call.toList
          selected := selected, cache := cache }
      | .ok (some response) =>
        { result := .ok response, calls := retried.call.toList
          selected := selected, cache := cache }
      | .ok none =>
        let plan :=
          planSource backend cache key prepared request selected priority answers
        { plan with calls := retried.call.toList ++ plan.calls }
    else
      planSource backend cache key prepared request selected priority answers

def planDownload (backend : Backend) (cache : PreparedDownloads) (request : DownloadRequest)
    (answers : PlanAnswers) : Plan :=
  let key := preparationKey request
  let session :=
    if trimWhite request.service = "" then trimWhite request.source
    else trimWhite request.service
  match answers.check with
  | .error error =>
    { result := .error error, calls := [], selected := session, cache := cache }
  | .ok () =>
    match answers.preflight with
    | .ok true =>
      { result := .ok
          (failure session "Verification required before download" "verification_required" 0)
        calls := []
        selected := session
        cache := cachePrepared cache key request false }
    | .error error =>
      { result := .ok
          (failure session s!"Could not start verification for {session}: {error}" "" 0)
        calls := []
        selected := session
        cache := cache }
    | .ok false => planPrepared backend cache key request answers

end LosslessMusic.Download
