import LosslessMusic.Text
import Mathlib.Data.Rat.Floor

/-!
# Queue entries

The client-side queue item of `download_queue_provider.dart`, the snapshot item
of `native_download_worker.dart`, and the text functions the queue applies to
engine errors. The display-only speed and time estimates are left out: nothing
reads them back.
-/

namespace LosslessMusic.Queue

/-- The five status keywords of a queue entry and of a native worker item. -/
inductive EntryStatus
  | queued
  | downloading
  | finalizing
  | done
  | failed
  deriving DecidableEq, Repr

namespace EntryStatus

/-- `status == 'done' || status == 'failed'`. -/
def terminal : EntryStatus → Bool
  | done | failed => true
  | _ => false

/-- `status == 'downloading' || status == 'finalizing'`. -/
def active : EntryStatus → Bool
  | downloading | finalizing => true
  | _ => false

@[simp] theorem terminal_queued : queued.terminal = false := rfl
@[simp] theorem terminal_downloading : downloading.terminal = false := rfl
@[simp] theorem terminal_finalizing : finalizing.terminal = false := rfl
@[simp] theorem terminal_done : done.terminal = true := rfl
@[simp] theorem terminal_failed : failed.terminal = true := rfl
@[simp] theorem active_queued : queued.active = false := rfl
@[simp] theorem active_downloading : downloading.active = true := rfl
@[simp] theorem active_finalizing : finalizing.active = true := rfl
@[simp] theorem active_done : done.active = false := rfl
@[simp] theorem active_failed : failed.active = false := rfl

theorem cases_kind (status : EntryStatus) :
    status = queued ∨ status.active = true ∨ status.terminal = true := by
  cases status <;> simp

end EntryStatus

/-- The fields of a track that the queue logic reads. -/
structure Track where
  id : String
  isrc : Option String := none
  deriving DecidableEq, Repr

/-- `DownloadEntry`: a client-side queue item. -/
structure DownloadEntry where
  track : Track
  itemId : String
  status : EntryStatus
  progress : ℚ := 0
  bytesReceived : Int := 0
  totalBytes : Option Int := none
  error : Option String := none
  service : Option String := none
  quality : Option String := none
  verificationService : Option String := none
  resolvedService : Option String := none
  filePath : Option String := none
  alreadyInLibrary : Bool := false
  deriving DecidableEq, Repr

/-- The optional named arguments of `DownloadEntry.copyWith`; `none` is a
missing or null argument. -/
structure EntryPatch where
  status : Option EntryStatus := none
  progress : Option ℚ := none
  bytesReceived : Option Int := none
  totalBytes : Option Int := none
  error : Option String := none
  verificationService : Option String := none
  resolvedService : Option String := none
  filePath : Option String := none
  alreadyInLibrary : Option Bool := none

namespace DownloadEntry

/-- `DownloadEntry.copyWith`: a null argument keeps the old value, except that
`alreadyInLibrary: true` clears the error. -/
def copyWith (entry : DownloadEntry) (patch : EntryPatch) : DownloadEntry where
  track := entry.track
  itemId := entry.itemId
  status := patch.status.getD entry.status
  progress := patch.progress.getD entry.progress
  bytesReceived := patch.bytesReceived.getD entry.bytesReceived
  totalBytes := patch.totalBytes.or entry.totalBytes
  error := if patch.alreadyInLibrary = some true then none
    else patch.error.or entry.error
  service := entry.service
  quality := entry.quality
  verificationService := patch.verificationService.or entry.verificationService
  resolvedService := patch.resolvedService.or entry.resolvedService
  filePath := patch.filePath.or entry.filePath
  alreadyInLibrary := patch.alreadyInLibrary.getD entry.alreadyInLibrary

@[simp] theorem copyWith_itemId (entry : DownloadEntry) (patch : EntryPatch) :
    (entry.copyWith patch).itemId = entry.itemId := rfl

@[simp] theorem copyWith_track (entry : DownloadEntry) (patch : EntryPatch) :
    (entry.copyWith patch).track = entry.track := rfl

@[simp] theorem copyWith_status (entry : DownloadEntry) (patch : EntryPatch) :
    (entry.copyWith patch).status = patch.status.getD entry.status := rfl

end DownloadEntry

/-- `NativeWorkerItemState`, the class of that name on both sides of the
snapshot file. -/
structure NativeWorkerItemState where
  itemId : String
  status : EntryStatus := .queued
  progress : ℚ := 0
  bytesReceived : Int := 0
  bytesTotal : Int := 0
  error : Option String := none
  retryAfterSeconds : Int := 0
  service : Option String := none
  resolvedService : Option String := none
  filePath : Option String := none
  deriving DecidableEq, Repr

/-- Why native admission is paused. -/
inductive PauseReason
  | paused
  | waitingWifi
  deriving DecidableEq, Repr

/-- `NativeWorkerSnapshot`: the state of a run as the service publishes it. -/
structure NativeWorkerSnapshot where
  runId : Nat
  isRunning : Bool
  pauseReason : Option PauseReason := none
  items : List NativeWorkerItemState
  deriving DecidableEq, Repr

def isRateLimitError : Option String → Bool
  | none => false
  | some err =>
    let lower := Text.toLowerCase err
    Text.contains lower "rate limit" ||
    Text.contains lower "rate_limit" ||
    Text.contains lower "too many requests" ||
    Text.contains lower "http 429" ||
    Text.contains lower "status 429" ||
    Text.contains lower "429 for " ||
    Text.contains lower "429:" ||
    Text.contains lower "429;"

/-- The pattern `retry[- ]?after(?: seconds)?[:= ]+(\d+)` anchored at the head
of a text: the captured digits. The optional group is tried first, and the
separators and digits cannot overlap, so no further backtracking is needed. -/
def retryAfterHere (text : List Char) : Option (List Char) := do
  let afterRetry ← dropHead "retry".toList text
  let afterSeparator := match afterRetry with
    | '-' :: rest | ' ' :: rest => rest
    | rest => rest
  let afterAfter ← dropHead "after".toList afterSeparator
  match dropHead " seconds".toList afterAfter >>= digitsAfterSeparators with
  | some digits => some digits
  | none => digitsAfterSeparators afterAfter
where
  /-- The rest of a text behind a fixed head. -/
  dropHead (head text : List Char) : Option (List Char) :=
    if head.isPrefixOf text then some (text.drop head.length) else none
  /-- `[:= ]+(\d+)`. -/
  digitsAfterSeparators (text : List Char) : Option (List Char) :=
    let isSeparator := fun char => char = ':' || char = '=' || char = ' '
    let digits := (text.dropWhile isSeparator).takeWhile Char.isDigit
    if (text.takeWhile isSeparator).isEmpty || digits.isEmpty then none
    else some digits

/-- The first match of the pattern in a text. -/
def firstRetryAfter : List Char → Option (List Char)
  | [] => none
  | char :: rest => (retryAfterHere (char :: rest)).or (firstRetryAfter rest)

/-- `int.tryParse` on a run of decimal digits: null beyond 64 bits. -/
def parseDigits (digits : List Char) : Option Nat :=
  let value := digits.foldl (fun sum digit => 10 * sum + (digit.toNat - 48)) 0
  if value < 2 ^ 63 then some value else none

/-- `rateLimitBackoffDelay` in seconds: a `Retry-After` of the message or 30,
clamped to 5–300. -/
def rateLimitBackoffDelay (errorMsg : String) : Nat :=
  let parsed := (firstRetryAfter (Text.toLowerCase errorMsg).toList).bind parseDigits
  min (max (parsed.getD 30) 5) 300

example : rateLimitBackoffDelay "429, Retry-After: 12" = 12 := by decide
example : rateLimitBackoffDelay "retry-after: 9999" = 300 := by decide

def foldRetryAfterSeconds (err : Option String) (seconds : Int) : Option String :=
  match err with
  | none => none
  | some text =>
    if text = "" ∨ seconds ≤ 0 then some text
    else if Text.contains (Text.toLowerCase text) "retry-after" then some text
    else some (text ++ " retry-after: " ++ toString seconds)

/-- `_existingLibraryPath`: only this destination-collision error of the engine
means that the final file exists. -/
def existingLibraryPath : Option String → Option String
  | none => none
  | some error =>
    let head := "resolve album folder: open "
    let tail := ": file exists"
    if Text.startsWith error head && Text.endsWith error tail then
      let path := String.ofList ((error.toList.drop head.length).take
        (error.length - tail.length - head.length))
      if path = "" then none else some path
    else none

example : existingLibraryPath (some "resolve album folder: open /m/a.flac: file exists") =
      some "/m/a.flac" := by
  decide

end LosslessMusic.Queue
