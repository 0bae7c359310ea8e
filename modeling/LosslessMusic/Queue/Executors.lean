import LosslessMusic.Queue.Updates

/-!
# The two executors of a queue item

`processItem` with `_applyNativeItemState`, and `_runDartFallback`, as functions
from what the engine and the file system do for the item to the entry they
leave. Tagging, cover and lyrics are best effort on both sides: they change
neither the result nor the path, whatever the settings.
-/

namespace LosslessMusic.Queue

/-! ## Finalizing a delivered file -/

/-- What FFmpeg and the file system do with a delivered file. A path of the engine
is absolute and in normal form, and an output left by an earlier run can be
removed. -/
structure Media where
  present : String → Bool
  /-- FFmpeg with a key, a demuxer, an input and an output leaves a non-empty output. -/
  decrypts : String → String → String → String → Bool
  /-- The codec of the first audio stream. -/
  codec : String → String
  /-- FFmpeg rewrites an input into a non-empty FLAC output. -/
  unwraps : String → String → Bool

/-- How an MP4 delivery is to be decrypted. -/
structure Decryption where
  key : String
  strategy : String
  extension : String
  demuxer : String
  deriving DecidableEq, Repr

/-- The strategy aliases for FFmpeg's MOV demuxer. -/
def movKeyStrategies : List String :=
  ["", "ffmpeg.mov_key", "ffmpeg_mov_key", "mov_decryption_key",
    "mp4_decryption_key", "ffmpeg.mp4_decryption_key"]

namespace Decryption

/-- The texts of a result after trimming and defaults. -/
def ofTexts (key strategy extension demuxer : String) : Decryption where
  key := Text.trim key
  strategy := Text.toLowerCase (Text.trim strategy)
  extension :=
    let named := if Text.trim extension = "" then ".flac" else Text.trim extension
    if Text.startsWith named "." then named else "." ++ named
  demuxer := if Text.trim demuxer = "" then "mov" else Text.trim demuxer

end Decryption

/-- What `Mp4FlacUnwrapper.decrypt` reads: with a `decryption` object, nothing but
that object. -/
def Mp4FlacUnwrapper.decryption (res : DownloadResult) : Decryption :=
  match res.decryption with
  | some info =>
    .ofTexts (info.key.getD "") (info.strategy.getD "")
      (info.outputExtension.getD "") (info.inputFormat.getD "")
  | none =>
    .ofTexts (res.decryptionKey.getD "") "" (res.outputExtension.getD "") ""

/-- What `ContainerRemuxService.finalizeDownload` reads: a field the `decryption`
object lacks is looked up beside it. -/
def ContainerRemuxService.decryption (res : DownloadResult) : Decryption :=
  let info := res.decryption.getD {}
  .ofTexts ((info.key.or res.decryptionKey).getD "") (info.strategy.getD "")
    ((info.outputExtension.or res.outputExtension).getD "") (info.inputFormat.getD "")

/-- `looksLikeMp4Container`. -/
def looksLikeMp4Container (path : String) : Bool :=
  let lower := Text.toLowerCase path
  !(Text.startsWith path "content://" || Text.startsWith path "/proc/self/fd/") &&
    (Text.endsWith lower ".m4a" || Text.endsWith lower ".mp4")

namespace Media

variable (media : Media)

/-- `decrypt`: the decrypted file, if there is a usable key and FFmpeg succeeds. -/
def decrypt (path : String) (decryption : Decryption) : Option String :=
  let out := Text.beforeLastDot path ++ decryption.extension
  if decryption.key = "" then none
  else if decryption.strategy ∉ movKeyStrategies then none
  else if out = path then none
  else if media.decrypts decryption.key decryption.demuxer path out then some out
  else none

/-- `unwrapPlainFlac`: the unwrapped file, if the stream is FLAC and FFmpeg
succeeds. -/
def unwrapPlainFlac (path : String) : Option String :=
  let out := Text.beforeLastDot path ++ ".flac"
  if media.codec path = "flac" ∧ media.unwraps path out = true then some out else none

/-- `Mp4FlacUnwrapper.finalize`. -/
def finalize (res : DownloadResult) : String :=
  let path := res.filePath.getD ""
  if path = "" || !looksLikeMp4Container path then path
  else if !media.present path then path
  else ((media.decrypt path (Mp4FlacUnwrapper.decryption res)).or
    (media.unwrapPlainFlac path)).getD path

/-- `OutputPostProcessor.run` around `finalize`. -/
def postProcess (res : DownloadResult) : String :=
  let path := res.filePath.getD ""
  if path = "" then path
  else if res.alreadyExists.getD false then path
  else media.finalize res

def finalizeDownload (res : DownloadResult) : Option String :=
  let path := res.filePath.getD ""
  if !looksLikeMp4Container path then none
  else if !media.present path then none
  else media.decrypt path (ContainerRemuxService.decryption res)

end Media

/-- The two finalizers treat a delivered file alike: neither touches it unless it
is an existing MP4 file; then the Dart side writes what the native side writes,
which is nothing for a file that was there before. -/
def FinalizedAlike (media : Media) (res : DownloadResult) (path : String) : Prop :=
  looksLikeMp4Container path = true → media.present path = true →
    media.decrypt path (ContainerRemuxService.decryption res) =
      if res.alreadyExists.getD false then none
      else (media.decrypt path (Mp4FlacUnwrapper.decryption res)).or
        (media.unwrapPlainFlac path)

variable {res : DownloadResult}

namespace Media

variable {media : Media} {path : String}

theorem ne_of_decrypt {decryption : Decryption} {out : String}
    (written : media.decrypt path decryption = some out) : out ≠ path := by
  unfold decrypt at written
  simp only [Option.ite_none_left_eq_some] at written
  split at written
  · obtain ⟨_, _, other, rfl⟩ := by simpa using written
    exact other
  · simp at written

theorem ne_of_unwrapPlainFlac {out : String} (container : looksLikeMp4Container path = true)
    (written : media.unwrapPlainFlac path = some out) : out ≠ path := by
  unfold unwrapPlainFlac at written
  simp only [Option.ite_none_right_eq_some, Option.some.injEq] at written
  obtain ⟨_, rfl⟩ := written
  intro same
  have lower : (Text.toLowerCase path).toList.getLast? = some 'c' := by
    rw [← same, Text.toLowerCase, String.toList_ofList, String.toList_append, List.flatMap_append]
    have tail : ".flac".toList.flatMap Text.lowerChar = ['.', 'f', 'l', 'a', 'c'] := by
      decide
    rw [tail]
    simp
  simp only [looksLikeMp4Container, Text.endsWith, Bool.and_eq_true, Bool.or_eq_true,
    List.isSuffixOf_iff_suffix] at container
  rcases container.2 with ⟨front, equal⟩ | ⟨front, equal⟩
  · rw [← equal] at lower
    simp at lower
  · rw [← equal] at lower
    simp at lower

/-- Falling back to `path` hides nothing when neither side writes `path` itself. -/
theorem getD_eq_or_iff (native dart : Option String)
    (nativeMoves : ∀ out, native = some out → out ≠ path)
    (dartMoves : ∀ out, dart = some out → out ≠ path) :
    some (native.getD path) = dart.or (some path) ↔ dart = native := by
  cases native with
  | none =>
    cases dart with
    | none => simp
    | some out => simpa using (dartMoves out rfl).symm
  | some written =>
    cases dart with
    | none => simpa using nativeMoves written rfl
    | some out => simp [eq_comm]

theorem postProcess_eq_iff (named : res.filePath = some path) :
    some (media.postProcess res) = (media.finalizeDownload res).or (some path) ↔
      FinalizedAlike media res path := by
  unfold postProcess finalize finalizeDownload FinalizedAlike
  simp only [named, Option.getD_some]
  by_cases container : looksLikeMp4Container path = true
  · have filled : path ≠ "" := by
      rintro rfl
      exact absurd container (by decide)
    by_cases present : media.present path = true
    · simp only [filled, container, present, if_false, Bool.not_true, Bool.or_false,
        decide_false, Bool.false_eq_true, true_imp_iff]
      split
      · exact getD_eq_or_iff none _ (by simp) fun _ => ne_of_decrypt
      · refine getD_eq_or_iff _ _ (fun out written => ?_) fun _ => ne_of_decrypt
        rcases Option.or_eq_some_iff.mp written with decrypted | ⟨_, unwrapped⟩
        · exact ne_of_decrypt decrypted
        · exact ne_of_unwrapPlainFlac container unwrapped
    · simp [present]
  · simp [container]

end Media

/-! ## The executors -/

/-- What `downloadByStrategy` delivers. -/
inductive DownloadAnswer
  | result (res : DownloadResult)
  /-- The empty text. -/
  | empty
  /-- A text that is no JSON object, with the parser's message. -/
  | unreadable (message : String)
  | threw (message : Option String)
  deriving DecidableEq, Repr

namespace DownloadAnswer

/-- As `processItem` reads it: an unreadable text is the empty object. -/
def native : DownloadAnswer → NativeCallOutcome
  | .result res => .returned res
  | .empty | .unreadable _ => .returned {}
  | .threw message => .threw message

/-- As `bridge.downloadByStrategy` reads it: the empty text is the empty map. -/
def bridge : DownloadAnswer → TransferOutcome
  | .result res => .returned res
  | .empty => .returned {}
  | .unreadable message => .threw message
  | .threw message => .threw (message.getD "null")

end DownloadAnswer

/-- `RustJson.duplicate`: it writes the path as `filepath`, so `path` is missing. -/
def RustJson.duplicate (path : String) : DuplicateAnswer :=
  .answer (path ≠ "") none

/-- What the engine and the file system do for one item. -/
structure EngineBehaviour where
  duplicate : DuplicateAnswer
  answer : DownloadAnswer
  media : Media

/-- The output directory of a request: `resolveDownloadDir` passes over an empty
saved path. -/
structure OutputDir where
  path : String
  filled : path ≠ ""

namespace EngineBehaviour

variable (engine : EngineBehaviour)

def isDuplicate (isrc : Option String) (outputDir : OutputDir) : Bool :=
  if isrc.getD "" = "" || outputDir.path = "" then false
  else
    match engine.duplicate with
    | .answer exists_ _ => exists_
    | .threw => false

/-- `processItem`: the item as it publishes it, first to last. -/
def processItem (isrc : Option String) (outputDir : OutputDir)
    (item : NativeWorkerItemState) : List NativeWorkerItemState :=
  let started := { item with status := .downloading }
  if engine.isDuplicate isrc outputDir then [started, settleDuplicate started]
  else
    let called := settleCall started engine.answer.native
    match engine.answer.native with
    | .returned res =>
      if res.success.getD false then
        [started, called, settlePostProcess called (.processed (engine.media.postProcess res))]
      else [started, called]
    | .threw _ => [started, called]

/-- The native executor: the polls read the last published item, and of the ones
before it those in `seen`. -/
def runNative (outputDir : OutputDir) (seen : NativeWorkerItemState → Bool)
    (entry : DownloadEntry) : DownloadEntry :=
  let published := (engine.processItem entry.track.isrc outputDir
    { itemId := entry.itemId }).map NativeWorkerItemState.published
  (published.dropLast.filter seen ++ published.getLast?.toList).foldl applyNativeItemState entry

/-- `_runDartFallback` from the engine call on. -/
def runTransfer (retried : Bool) (entry : DownloadEntry) : DownloadEntry :=
  match engine.answer.bridge with
  | .threw message => StatusDetails.apply { error := some message } .failed entry
  | .returned res =>
    match if res.failed then existingLibraryPath res.error else none with
    | some path =>
      StatusDetails.apply
        { progressIfDone := some 1
          filePath := some path
          alreadyInLibrary := some true } .done entry
    | none =>
      if !res.failed then
        StatusDetails.apply
          { progressIfDone := some 1
            filePath := (engine.media.finalizeDownload res).or res.filePath
            resolvedService := res.resultService } .done entry
      else if isRateLimitError res.err && !retried then
        StatusDetails.apply {} .queued (StatusDetails.apply
            { error := some ("Rate limited · retrying after " ++
                toString (rateLimitBackoffDelay (res.err.getD "")) ++ "s") }
            .downloading entry)
      else
        StatusDetails.apply
          { filePath := res.filePath
            error := some ((res.err.filter (· ≠ "")).getD "unknown")
            verificationService := res.resultService } .failed entry

/-- `_runDartFallback` behind its admission and the download directory. -/
def runAdmitted (retried : Bool) (entry : DownloadEntry) : DownloadEntry :=
  if entry.track.isrc.any (· ≠ "") then
    match engine.duplicate with
    | .answer true path =>
      StatusDetails.apply
        { progressIfDone := some 1
          filePath := path
          alreadyInLibrary := some true } .done entry
    | _ => engine.runTransfer retried entry
  else engine.runTransfer retried entry

/-- `_runDartFallback`; `retried` tells whether the item had its delayed retry. -/
def runDartFallback (retried : Bool) (entry : DownloadEntry) : DownloadEntry :=
  engine.runAdmitted retried (StatusDetails.apply {} .downloading entry)

end EngineBehaviour

/-! ## What an executor leaves -/

/-- The part of an entry that the user sees of a settled item. -/
structure Outcome where
  status : EntryStatus
  alreadyInLibrary : Bool
  filePath : Option String
  resolvedService : Option String
  verificationService : Option String
  deriving DecidableEq, Repr

/-- The outcome an entry shows. -/
def DownloadEntry.outcome (entry : DownloadEntry) : Outcome where
  status := entry.status
  alreadyInLibrary := entry.alreadyInLibrary
  filePath := entry.filePath
  resolvedService := entry.resolvedService
  verificationService := entry.verificationService

@[simp] theorem StatusDetails.outcome_apply (details : StatusDetails)
    (status : EntryStatus) (entry : DownloadEntry) :
    (details.apply status entry).outcome =
      { status
        alreadyInLibrary := details.alreadyInLibrary.getD entry.alreadyInLibrary
        filePath := details.filePath.or entry.filePath
        resolvedService := details.resolvedService.or entry.resolvedService
        verificationService :=
          details.verificationService.or entry.verificationService } := rfl

@[simp] theorem StatusDetails.apply_track (details : StatusDetails)
    (status : EntryStatus) (entry : DownloadEntry) :
    (details.apply status entry).track = entry.track := rfl

/-- `_applyNativeItemState` in terms of outcomes, for an unfinished entry. -/
theorem outcome_applyNativeItemState {entry : DownloadEntry}
    (unfinished : entry.status.terminal = false) (item : NativeWorkerItemState) :
    (applyNativeItemState entry item).outcome =
      let existingPath :=
        if item.status = .failed then existingLibraryPath item.error else none
      { status := if existingPath.isSome then .done else item.status
        alreadyInLibrary := existingPath.isSome
        filePath := (existingPath.or item.filePath).or entry.filePath
        resolvedService := item.resolvedService.or entry.resolvedService
        verificationService := item.service.or entry.verificationService } := by
  unfold applyNativeItemState
  rw [if_neg (by simp [unfinished])]
  rfl

/-- An item that `processItem` publishes before its last one. -/
structure Underway (resolvedService : Option String) (item : NativeWorkerItemState) :
    Prop where
  unfinished : item.status.terminal = false
  noService : item.service = none
  noFile : item.filePath = none
  resolved : item.resolvedService = none ∨ item.resolvedService = resolvedService

variable {front : List NativeWorkerItemState} {last : NativeWorkerItemState}

theorem outcome_foldl {entry : DownloadEntry} (unfinished : entry.status.terminal = false)
    (underway : ∀ item ∈ front, Underway last.resolvedService item) :
    ((front ++ [last]).foldl applyNativeItemState entry).outcome =
      (applyNativeItemState entry last).outcome := by
  induction front generalizing entry with
  | nil => rfl
  | cons item rest ih =>
    have first := underway item (by simp)
    have active : ¬ item.status = .failed := by
      intro failed
      have running := first.unfinished
      simp [failed] at running
    have applied := outcome_applyNativeItemState unfinished item
    simp only [active, if_false, Option.isSome_none, Bool.false_eq_true,
      Option.none_or, first.noService, first.noFile] at applied
    have status : (applyNativeItemState entry item).status = item.status :=
      congrArg Outcome.status applied
    have filePath : (applyNativeItemState entry item).filePath = entry.filePath :=
      congrArg Outcome.filePath applied
    have verification : (applyNativeItemState entry item).verificationService =
        entry.verificationService := congrArg Outcome.verificationService applied
    have resolved : (applyNativeItemState entry item).resolvedService =
        item.resolvedService.or entry.resolvedService :=
      congrArg Outcome.resolvedService applied
    have running : (applyNativeItemState entry item).status.terminal = false := by
      rw [status, first.unfinished]
    rw [List.cons_append, List.foldl_cons,
      ih running fun later member => underway later (by simp [member]),
      outcome_applyNativeItemState running, outcome_applyNativeItemState unfinished,
      filePath, verification, resolved]
    -- A resolved service published early is the one the last item repeats.
    rcases first.resolved with none | same
    · rw [none, Option.none_or]
    · rw [same, ← Option.or_assoc, Option.or_self]

namespace EngineBehaviour

variable (engine : EngineBehaviour) (outputDir : OutputDir)
  (seen : NativeWorkerItemState → Bool) {entry : DownloadEntry}

/-- The duplicate check reports the track as present. -/
def reportsDuplicate (isrc : Option String) : Bool :=
  isrc.any (· ≠ "") &&
    match engine.duplicate with
    | .answer exists_ _ => exists_
    | .threw => false

/-- Both executors ask for a duplicate under the same condition. -/
theorem isDuplicate_eq (isrc : Option String) :
    engine.isDuplicate isrc outputDir = engine.reportsDuplicate isrc := by
  unfold isDuplicate reportsDuplicate
  cases isrc with
  | none => simp
  | some text => by_cases empty : text = "" <;> simp [empty, outputDir.filled]

/-- What the native executor leaves is decided by the last published item. -/
theorem outcome_runNative (queued : entry.status = .queued)
    (published : engine.processItem entry.track.isrc outputDir
      { itemId := entry.itemId } = front ++ [last])
    (underway : ∀ item ∈ front, Underway last.resolvedService item) :
    (engine.runNative outputDir seen entry).outcome =
      (applyNativeItemState entry last.published).outcome := by
  have unfinished : entry.status.terminal = false := by simp [queued]
  unfold runNative
  simp only [published, List.map_append, List.map_cons, List.map_nil,
    List.dropLast_concat, List.getLast?_concat, Option.toList_some]
  apply outcome_foldl unfinished
  intro item member
  obtain ⟨before, present, rfl⟩ := List.mem_map.mp (List.mem_filter.mp member).1
  exact
    { unfinished := (underway before present).unfinished
      noService := (underway before present).noService
      noFile := (underway before present).noFile
      resolved := (underway before present).resolved }

theorem underway_started (itemId : String) (resolvedService : Option String) :
    Underway resolvedService { itemId, status := .downloading } :=
  ⟨rfl, rfl, rfl, .inl rfl⟩

theorem outcome_runNative_duplicate (queued : entry.status = .queued)
    (duplicate : engine.reportsDuplicate entry.track.isrc = true) :
    (engine.runNative outputDir seen entry).outcome =
      { entry.outcome with status := .done, alreadyInLibrary := false } := by
  have published : engine.processItem entry.track.isrc outputDir { itemId := entry.itemId } =
        [{ itemId := entry.itemId, status := .downloading }] ++
          [settleDuplicate { itemId := entry.itemId, status := .downloading }] := by
    unfold processItem
    rw [isDuplicate_eq, if_pos duplicate]
    rfl
  rw [engine.outcome_runNative outputDir seen queued published
    (by simpa using underway_started _ _), outcome_applyNativeItemState (by simp [queued])]
  rfl

/-- A failed call leaves the native executor with the call's error and service. -/
theorem outcome_runNative_failed (queued : entry.status = .queued)
    (fresh : engine.reportsDuplicate entry.track.isrc = false)
    (fails : ∀ res, engine.answer.native = .returned res → res.success.getD false = false) :
    (engine.runNative outputDir seen entry).outcome = (applyNativeItemState entry (settleCall
        { itemId := entry.itemId, status := .downloading }
        engine.answer.native).published).outcome := by
  have published : engine.processItem entry.track.isrc outputDir { itemId := entry.itemId } =
        [{ itemId := entry.itemId, status := .downloading }] ++
          [settleCall { itemId := entry.itemId, status := .downloading } engine.answer.native] := by
    unfold processItem
    rw [isDuplicate_eq, if_neg (by simp [fresh])]
    simp only
    split
    next res returned => simp [fails res returned, returned]
    next returned => simp [returned]
  exact engine.outcome_runNative outputDir seen queued published
    (by simpa using underway_started _ _)

theorem outcome_runNative_delivered (queued : entry.status = .queued)
    (fresh : engine.reportsDuplicate entry.track.isrc = false)
    (answered : engine.answer = .result res) (success : res.success = some true) :
    (engine.runNative outputDir seen entry).outcome =
      { status := .done
        alreadyInLibrary := false
        filePath := some (engine.media.postProcess res)
        resolvedService := res.resultService.or entry.resolvedService
        verificationService := entry.verificationService } := by
  have returned : engine.answer.native = .returned res := by rw [answered]; rfl
  let called := settleCall { itemId := entry.itemId, status := .downloading }
    (.returned res)
  have shape : called =
      { itemId := entry.itemId
        status := .finalizing
        resolvedService := res.resultService } := by
    simp [called, settleCall, success, DownloadResult.resultService]
  have published : engine.processItem entry.track.isrc outputDir { itemId := entry.itemId } =
        [{ itemId := entry.itemId, status := .downloading }, called] ++
          [settlePostProcess called (.processed (engine.media.postProcess res))] := by
    unfold processItem
    rw [isDuplicate_eq, if_neg (by simp [fresh])]
    simp only [returned, success, Option.getD_some, if_true]
    rfl
  rw [engine.outcome_runNative outputDir seen queued published,
    outcome_applyNativeItemState (by simp [queued]), shape]
  · rfl
  · intro item member
    rw [List.mem_pair] at member
    rcases member with rfl | rfl
    · exact underway_started _ _
    · rw [shape]
      exact ⟨rfl, rfl, rfl, .inr rfl⟩

theorem reportsDuplicate_iff (isrc : Option String) : engine.reportsDuplicate isrc = true ↔
      isrc.any (· ≠ "") = true ∧ ∃ path, engine.duplicate = .answer true path := by
  unfold reportsDuplicate
  rw [Bool.and_eq_true]
  apply and_congr_right
  intro _
  cases engine.duplicate with
  | threw => simp
  | answer exists_ path => cases exists_ <;> simp

theorem runAdmitted_duplicate (retried : Bool)
    (known : entry.track.isrc.any (· ≠ "") = true) {path : Option String}
    (answered : engine.duplicate = .answer true path) :
    engine.runAdmitted retried entry = StatusDetails.apply
        { progressIfDone := some 1
          filePath := path
          alreadyInLibrary := some true } .done entry := by
  unfold runAdmitted
  rw [if_pos known, answered]

/-- Without a duplicate the Dart executor comes to the engine call. -/
theorem runAdmitted_fresh (retried : Bool)
    (fresh : engine.reportsDuplicate entry.track.isrc = false) :
    engine.runAdmitted retried entry = engine.runTransfer retried entry := by
  unfold runAdmitted
  split
  next known =>
    split
    next path answered =>
      have reported := (engine.reportsDuplicate_iff _).mpr ⟨known, path, answered⟩
      rw [fresh] at reported
      cases reported
    · rfl
  · rfl

theorem runDartFallback_fresh (retried : Bool)
    (fresh : engine.reportsDuplicate entry.track.isrc = false) :
    engine.runDartFallback retried entry =
      engine.runTransfer retried (StatusDetails.apply {} .downloading entry) :=
  engine.runAdmitted_fresh retried fresh

end EngineBehaviour

/-! ## When the executors agree -/

/-- Both executors treat a result without `success: true` as the same failure. -/
structure FailsAlike (res : DownloadResult) (retried : Bool) (entry : DownloadEntry) :
    Prop where
  failed : res.failed = true
  settled :
    match existingLibraryPath res.error with
    | some _ =>
      res.resultService.or entry.verificationService = entry.verificationService
    | none =>
      entry.alreadyInLibrary = false ∧
      res.filePath.or entry.filePath = entry.filePath ∧
      (isRateLimitError res.err && !retried) = false

/-- Both executors treat a result with `success: true` as the same delivery. -/
structure DeliversAlike (media : Media) (res : DownloadResult) (entry : DownloadEntry) :
    Prop where
  notFailed : res.failed = false
  unmarked : entry.alreadyInLibrary = false
  path :
    match res.filePath with
    | some path => FinalizedAlike media res path
    | none => entry.filePath = some ""

/-- What the engine does for the item is treated alike by both executors. -/
def TreatedAlike (engine : EngineBehaviour) (retried : Bool) (entry : DownloadEntry) :
    Prop :=
  engine.reportsDuplicate entry.track.isrc = false ∧
    match engine.answer with
    | .result res =>
      if res.success = some true then DeliversAlike engine.media res entry
      else FailsAlike res retried entry
    | .empty => False
    | .unreadable _ => entry.alreadyInLibrary = false
    | .threw message =>
      entry.alreadyInLibrary = false ∧
      existingLibraryPath (some (message.getD "download failed")) = none

theorem existingLibraryPath_unknown (error : Option String) :
    existingLibraryPath (some (error.getD "unknown")) = existingLibraryPath error := by
  cases error with
  | some text => rfl
  | none => decide

/-- Only a failed result has an error that names an existing file. -/
theorem DownloadResult.failed_of_existingLibraryPath
    {path : String} (existing : existingLibraryPath res.error = some path) : res.failed = true := by
  cases error : res.error with
  | none =>
    rw [error] at existing
    cases existing
  | some text =>
    have filled : text ≠ "" := by
      rintro rfl
      rw [error] at existing
      exact absurd existing (by simp [show existingLibraryPath (some "") = none by decide])
    simp [failed, error, filled]

namespace EngineBehaviour

variable (engine : EngineBehaviour) (outputDir : OutputDir) (seen : NativeWorkerItemState → Bool)

variable {entry : DownloadEntry}

/-- The native executor on a result without `success: true`. -/
theorem outcome_runNative_result (queued : entry.status = .queued)
    (fresh : engine.reportsDuplicate entry.track.isrc = false)
    (returned : engine.answer.native = .returned res) (unsuccessful : res.success ≠ some true) :
    (engine.runNative outputDir seen entry).outcome =
      { status := if (existingLibraryPath res.error).isSome then .done else .failed
        alreadyInLibrary := (existingLibraryPath res.error).isSome
        filePath := (existingLibraryPath res.error).or entry.filePath
        resolvedService := entry.resolvedService
        verificationService := res.resultService.or entry.verificationService } := by
  have fails : res.success.getD false = false := by
    cases success : res.success with
    | none => rfl
    | some value =>
      cases value with
      | false => rfl
      | true => exact absurd success unsuccessful
  have settled := engine.outcome_runNative_failed outputDir seen queued fresh (by
      intro other same
      rw [returned] at same
      cases same
      exact fails)
  rw [settled, outcome_applyNativeItemState (by simp [queued]), returned]
  simp [settleCall, unsuccessful, NativeWorkerItemState.published,
    existingLibraryPath_unknown, DownloadResult.resultService]

theorem outcome_runTransfer_threw (retried : Bool) {message : String}
    (threw : engine.answer.bridge = .threw message) :
    (engine.runTransfer retried (StatusDetails.apply {} .downloading entry)).outcome =
      { entry.outcome with status := .failed } := by
  unfold runTransfer
  rw [threw]
  rfl

theorem outcome_runTransfer_existing (retried : Bool)
    (returned : engine.answer.bridge = .returned res) {path : String}
    (existing : existingLibraryPath res.error = some path) :
    (engine.runTransfer retried (StatusDetails.apply {} .downloading entry)).outcome =
      { entry.outcome with
        status := .done, alreadyInLibrary := true, filePath := some path } := by
  unfold runTransfer
  simp only [returned, DownloadResult.failed_of_existingLibraryPath existing, if_true, existing]
  rfl

theorem outcome_runTransfer_failed (retried : Bool)
    (returned : engine.answer.bridge = .returned res)
    (absent : existingLibraryPath res.error = none) (failed : res.failed = true) :
    (engine.runTransfer retried (StatusDetails.apply {} .downloading entry)).outcome =
      if isRateLimitError res.err && !retried then
        { entry.outcome with status := .queued }
      else
        { entry.outcome with
          status := .failed
          filePath := res.filePath.or entry.filePath
          verificationService := res.resultService.or entry.verificationService } := by
  unfold runTransfer
  simp only [returned, failed, absent, if_true, Bool.not_true, Bool.false_eq_true, if_false]
  split <;> rfl

theorem outcome_runTransfer_delivered (retried : Bool)
    (returned : engine.answer.bridge = .returned res) (succeeded : res.failed = false) :
    (engine.runTransfer retried (StatusDetails.apply {} .downloading entry)).outcome =
      { entry.outcome with
        status := .done
        filePath := ((engine.media.finalizeDownload res).or res.filePath).or entry.filePath
        resolvedService := res.resultService.or entry.resolvedService } := by
  unfold runTransfer
  simp only [returned, succeeded, Bool.false_eq_true, if_false, Bool.not_false, if_true]
  rfl

theorem agree_failed_iff (retried : Bool) (queued : entry.status = .queued)
    (fresh : engine.reportsDuplicate entry.track.isrc = false)
    (answered : engine.answer = .result res) (unsuccessful : res.success ≠ some true) :
    (engine.runNative outputDir seen entry).outcome =
        (engine.runDartFallback retried entry).outcome ↔
      FailsAlike res retried entry := by
  have returned : engine.answer.bridge = .returned res := by rw [answered]; rfl
  rw [engine.outcome_runNative_result outputDir seen queued fresh (by rw [answered]; rfl)
    unsuccessful, engine.runDartFallback_fresh retried fresh]
  cases existing : existingLibraryPath res.error with
  | some path =>
    have failed := DownloadResult.failed_of_existingLibraryPath existing
    rw [engine.outcome_runTransfer_existing retried returned existing]
    constructor
    · intro same
      refine ⟨failed, ?_⟩
      rw [existing]
      exact congrArg Outcome.verificationService same
    · intro alike
      have settled := alike.settled
      rw [existing] at settled
      simpa [DownloadEntry.outcome] using settled
  | none =>
    by_cases failed : res.failed = true
    · rw [engine.outcome_runTransfer_failed retried returned existing failed]
      by_cases limited : (isRateLimitError res.err && !retried) = true
      · rw [if_pos limited]
        constructor
        · intro same
          simp at same
        · intro alike
          have settled := alike.settled
          rw [existing] at settled
          rw [settled.2.2] at limited
          cases limited
      · rw [if_neg limited]
        constructor
        · intro same
          simp only [DownloadEntry.outcome, Outcome.mk.injEq, Option.isSome_none,
            Option.none_or] at same
          refine ⟨failed, ?_⟩
          rw [existing]
          exact ⟨same.2.1.symm, same.2.2.1.symm, by simpa using limited⟩
        · intro alike
          have settled := alike.settled
          rw [existing] at settled
          obtain ⟨unmarked, path, _⟩ := settled
          simp [DownloadEntry.outcome, unmarked, path]
    · rw [engine.outcome_runTransfer_delivered retried returned (by simpa using failed)]
      constructor
      · intro same
        simp at same
      · intro alike
        exact absurd alike.failed failed

theorem agree_delivered_iff (retried : Bool) (queued : entry.status = .queued)
    (fresh : engine.reportsDuplicate entry.track.isrc = false)
    (answered : engine.answer = .result res) (success : res.success = some true) :
    (engine.runNative outputDir seen entry).outcome =
        (engine.runDartFallback retried entry).outcome ↔
      DeliversAlike engine.media res entry := by
  have returned : engine.answer.bridge = .returned res := by rw [answered]; rfl
  rw [engine.outcome_runNative_delivered outputDir seen queued fresh answered success,
    engine.runDartFallback_fresh retried fresh]
  by_cases failed : res.failed = true
  · -- The Dart executor marks an existing file, requeues or fails.
    constructor
    · intro same
      exfalso
      cases existing : existingLibraryPath res.error with
      | some path =>
        rw [engine.outcome_runTransfer_existing retried returned existing] at same
        simp at same
      | none =>
        rw [engine.outcome_runTransfer_failed retried returned existing failed] at same
        split at same
        · simp at same
        · simp at same
    · intro alike
      rw [alike.notFailed] at failed
      cases failed
  · have succeeded : res.failed = false := by simpa using failed
    rw [engine.outcome_runTransfer_delivered retried returned succeeded]
    simp only [DownloadEntry.outcome, Outcome.mk.injEq, true_and, and_true]
    cases named : res.filePath with
    | none =>
      have untouched : engine.media.finalizeDownload res = none := by
        unfold Media.finalizeDownload
        rw [named, if_pos (by decide)]
      have empty : engine.media.postProcess res = "" := by
        unfold Media.postProcess
        rw [named, if_pos (by decide)]
        rfl
      rw [untouched, empty, Option.none_or, Option.none_or]
      constructor
      · intro same
        refine ⟨succeeded, same.1.symm, ?_⟩
        rw [named]
        exact same.2.symm
      · intro alike
        have path := alike.path
        rw [named] at path
        exact ⟨alike.unmarked.symm, path.symm⟩
    | some path =>
      have settled : ((engine.media.finalizeDownload res).or (some path)).or
          entry.filePath = (engine.media.finalizeDownload res).or (some path) := by
        rw [Option.or_assoc, Option.some_or]
      rw [settled, Media.postProcess_eq_iff named]
      constructor
      · intro same
        refine ⟨succeeded, same.1.symm, ?_⟩
        rw [named]
        exact same.2
      · intro alike
        have path := alike.path
        rw [named] at path
        exact ⟨alike.unmarked.symm, path⟩

theorem agree_threw_iff (retried : Bool) (queued : entry.status = .queued)
    (fresh : engine.reportsDuplicate entry.track.isrc = false)
    {message : Option String} (answered : engine.answer = .threw message) :
    (engine.runNative outputDir seen entry).outcome =
        (engine.runDartFallback retried entry).outcome ↔
      entry.alreadyInLibrary = false ∧
        existingLibraryPath (some (message.getD "download failed")) = none := by
  have native : engine.answer.native = .threw message := by rw [answered]; rfl
  have bridge : engine.answer.bridge = .threw (message.getD "null") := by
    rw [answered]
    rfl
  have fails : ∀ res, engine.answer.native = .returned res → res.success.getD false = false := by
    intro res returned
    rw [native] at returned
    cases returned
  rw [engine.outcome_runNative_failed outputDir seen queued fresh fails,
    outcome_applyNativeItemState (by simp [queued]), native,
    engine.runDartFallback_fresh retried fresh,
    engine.outcome_runTransfer_threw retried bridge]
  cases existing : existingLibraryPath (some (message.getD "download failed")) with
  | some path => simp [settleCall, NativeWorkerItemState.published, existing]
  | none =>
    simp only [settleCall, NativeWorkerItemState.published, existing,
      DownloadEntry.outcome, if_true, Option.isSome_none, Option.none_or,
      Bool.false_eq_true, if_false, Outcome.mk.injEq, true_and, and_true]
    exact eq_comm

theorem agree_unreadable_iff (retried : Bool) (queued : entry.status = .queued)
    (fresh : engine.reportsDuplicate entry.track.isrc = false)
    {message : String} (answered : engine.answer = .unreadable message) :
    (engine.runNative outputDir seen entry).outcome =
        (engine.runDartFallback retried entry).outcome ↔
      entry.alreadyInLibrary = false := by
  have bridge : engine.answer.bridge = .threw message := by rw [answered]; rfl
  rw [engine.outcome_runNative_result outputDir seen queued fresh
    (by rw [answered]; rfl) (by simp), engine.runDartFallback_fresh retried fresh,
    engine.outcome_runTransfer_threw retried bridge]
  simp only [existingLibraryPath, DownloadResult.resultService, DownloadEntry.outcome,
    Option.filter_none, Option.isSome_none, Option.none_or, Bool.false_eq_true, if_false,
    Outcome.mk.injEq, true_and, and_true]
  exact eq_comm

theorem disagree_empty (retried : Bool) (queued : entry.status = .queued)
    (fresh : engine.reportsDuplicate entry.track.isrc = false) (answered : engine.answer = .empty) :
    (engine.runNative outputDir seen entry).outcome ≠
      (engine.runDartFallback retried entry).outcome := by
  rw [engine.outcome_runNative_result outputDir seen queued fresh
    (by rw [answered]; rfl) (by simp), engine.runDartFallback_fresh retried fresh,
    engine.outcome_runTransfer_delivered retried (by rw [answered]; rfl) (by decide)]
  simp [existingLibraryPath]

end EngineBehaviour

/-! ## The controller's fallback is the Dart executor -/

/-- Update the entries of one item. -/
def onItem (itemId : String) (update : DownloadEntry → DownloadEntry)
    (entries : List DownloadEntry) : List DownloadEntry :=
  entries.map fun entry => if entry.itemId = itemId then update entry else entry

theorem onItem_onItem (itemId : String) (first second : DownloadEntry → DownloadEntry)
    (keeps : ∀ entry, (first entry).itemId = entry.itemId) (entries : List DownloadEntry) :
    onItem itemId second (onItem itemId first entries) =
      onItem itemId (fun entry => second (first entry)) entries := by
  unfold onItem
  rw [List.map_map]
  apply List.map_congr_left
  intro entry _
  by_cases same : entry.itemId = itemId <;> simp [same, keeps]

namespace Controller

variable (engine : EngineBehaviour) (c : Controller) (next : DownloadEntry)

/-- Resume the suspended fallback with what the engine does for its item; a backoff
delay is waited for. -/
def settleFallback : Controller :=
  match c.processor with
  | .fallback next .directory remaining => c.onDirectory next remaining none
  | .fallback next .duplicate remaining =>
    c.onDuplicate next remaining engine.duplicate
  | .fallback next .transfer remaining =>
    c.onTransfer next remaining engine.answer.bridge
  | .fallback next (.finishing res) remaining =>
    c.onFinished next remaining res (.finished (engine.media.finalizeDownload res))
  | .fallback next (.rateLimited _) remaining =>
    (c.endRateLimitRetry next.itemId).startFallbacks remaining
  | _ => c

theorem settleFallback_finishProcessing (continueProcessing : Bool) :
    (c.finishProcessing continueProcessing).settleFallback engine =
      c.finishProcessing continueProcessing := by
  obtain ⟨_, _, _, equal, idle | hydrating⟩ := c.finishProcessing_eq continueProcessing
  · rw [equal, idle.1]
    rfl
  · rw [equal, hydrating.1]
    rfl

theorem onItem_absent {itemId : String} {update : DownloadEntry → DownloadEntry}
    {entries : List DownloadEntry} (absent : ∀ e ∈ entries, e.itemId ≠ itemId) :
    onItem itemId update entries = entries := by
  unfold onItem
  conv_rhs => rw [← List.map_id entries]
  apply List.map_congr_left
  intro e member
  rw [if_neg (absent e member)]
  rfl

theorem entries_endRateLimitRetry (errorMsg : String) (processor : Processor) :
    ({ c.beginRateLimitRetry next.itemId errorMsg with processor }.endRateLimitRetry
      next.itemId).entries =
      onItem next.itemId (fun entry => StatusDetails.apply {} .queued (StatusDetails.apply
          { error := some ("Rate limited · retrying after " ++
              toString (rateLimitBackoffDelay errorMsg) ++ "s") }
          .downloading entry)) c.entries := by
  unfold endRateLimitRetry
  split
  · rw [processQueue_entries]
    exact onItem_onItem next.itemId (StatusDetails.apply
        { error := some ("Rate limited · retrying after " ++
            toString (rateLimitBackoffDelay errorMsg) ++ "s") } .downloading)
      (StatusDetails.apply {} .queued) (fun _ => rfl) c.entries
  next absent =>
    have missing : ∀ e ∈ c.entries, e.itemId ≠ next.itemId := by
      intro e member same
      apply absent
      unfold has
      rw [List.any_eq_true]
      refine ⟨StatusDetails.apply _ .downloading e, List.mem_map.mpr ⟨e, member, if_pos same⟩, ?_⟩
      simp [same]
    rw [onItem_absent missing]
    exact onItem_absent missing

/-- Settling a fallback that is suspended behind its admission is a step. -/
theorem resumeProcessor_settleFallback {point : FallbackPoint} {remaining : List DownloadEntry}
    (suspended : c.processor = .fallback next point remaining) (admitted : point ≠ .admission)
    (waited : ∀ deadline, point = .rateLimited deadline → deadline ≤ c.now) :
    ∃ event, c.resumeProcessor event = some (c.settleFallback engine) := by
  unfold settleFallback resumeProcessor
  rw [suspended]
  cases point with
  | admission => exact absurd rfl admitted
  | directory => exact ⟨.directoryResolved none, rfl⟩
  | duplicate => exact ⟨.duplicateChecked engine.duplicate, rfl⟩
  | transfer => exact ⟨.transferReturned engine.answer.bridge, rfl⟩
  | rateLimited deadline =>
    refine ⟨.backoffElapsed, ?_⟩
    simp only [if_pos (waited deadline rfl)]
  | finishing res =>
    exact ⟨.finished (.finished (engine.media.finalizeDownload res)), rfl⟩

/-- From the engine call on, a fallback ends with what the executor computes. -/
theorem settleFallback_transfer (suspended : c.processor = .fallback next .transfer []) :
    ∃ ended : Controller,
      (c.settleFallback engine).settleFallback engine = ended.finishProcessing true ∧
      ended.entries = onItem next.itemId
        (engine.runTransfer (decide (next.itemId ∈ c.rateLimitRetriedItemIds)))
        c.entries := by
  have settle : c.settleFallback engine = c.onTransfer next [] engine.answer.bridge := by
    unfold settleFallback
    rw [suspended]
  rw [settle]
  unfold onTransfer EngineBehaviour.runTransfer
  cases engine.answer.bridge with
  | threw message =>
    simp only [startFallbacks, settleFallback_finishProcessing]
    exact ⟨_, rfl, rfl⟩
  | returned res =>
    cases failed : res.failed with
    | false =>
      simp only [failed, Bool.false_eq_true, if_false, Bool.not_false, if_true,
        suspend, settleFallback, onFinished, startFallbacks]
      exact ⟨_, rfl, rfl⟩
    | true =>
      cases existing : existingLibraryPath res.error with
      | some path =>
        simp only [failed, existing, if_true, startFallbacks, settleFallback_finishProcessing]
        exact ⟨_, rfl, rfl⟩
      | none =>
        simp only [failed, existing, if_true, Bool.not_true, Bool.false_eq_true, if_false]
        by_cases limited : isRateLimitError res.err = true ∧
            next.itemId ∉ c.rateLimitRetriedItemIds
        · simp only [limited, not_false_eq_true, and_self, if_true, decide_false,
            Bool.not_false, Bool.and_true, suspend, settleFallback, startFallbacks]
          exact ⟨_, rfl, c.entries_endRateLimitRetry next (res.err.getD "") _⟩
        · have spent : (isRateLimitError res.err &&
              !decide (next.itemId ∈ c.rateLimitRetriedItemIds)) = false := by
            simpa using limited
          simp only [if_neg limited, spent, Bool.false_eq_true, if_false,
            startFallbacks, settleFallback_finishProcessing]
          exact ⟨_, rfl, rfl⟩

/-- An admitted fallback ends with what the Dart executor computes. -/
theorem settleFallback_admitted (suspended : c.processor = .fallback next .directory [])
    (tracks : ∀ e ∈ c.entries, e.itemId = next.itemId → e.track = next.track) :
    ∃ ended : Controller, (((c.settleFallback engine).settleFallback engine).settleFallback
        engine).settleFallback engine = ended.finishProcessing true ∧
      ended.entries = onItem next.itemId
        (engine.runAdmitted (decide (next.itemId ∈ c.rateLimitRetriedItemIds)))
        c.entries := by
  have directory : c.settleFallback engine = c.onDirectory next [] none := by
    unfold settleFallback
    rw [suspended]
  have admitted : ∀ update : DownloadEntry → DownloadEntry,
      (∀ e : DownloadEntry, e.track = next.track →
        engine.runAdmitted (decide (next.itemId ∈ c.rateLimitRetriedItemIds)) e = update e) →
      onItem next.itemId (engine.runAdmitted (decide (next.itemId ∈ c.rateLimitRetriedItemIds)))
          c.entries =
        onItem next.itemId update c.entries := by
    intro update alike
    apply List.map_congr_left
    intro e member
    by_cases same : e.itemId = next.itemId
    · simp only [same, if_true, alike e (tracks e member same)]
    · simp only [same, if_false]
  rw [directory]
  unfold onDirectory
  by_cases known : next.track.isrc.any (· ≠ "") = true
  · rw [if_pos known]
    -- The duplicate check comes before the engine call.
    have checked : (c.suspend next .duplicate []).settleFallback engine =
        (c.suspend next .duplicate []).onDuplicate next [] engine.duplicate := rfl
    rw [checked]
    by_cases reported : ∃ path, engine.duplicate = .answer true path
    · obtain ⟨path, answered⟩ := reported
      rw [admitted _ fun e same =>
        engine.runAdmitted_duplicate _ (by rw [same, known]) answered, answered]
      simp only [onDuplicate, startFallbacks, settleFallback_finishProcessing]
      exact ⟨_, rfl, rfl⟩
    · have called : (c.suspend next .duplicate []).onDuplicate next [] engine.duplicate =
          c.suspend next .transfer [] := by
        unfold onDuplicate
        split
        next path answered => exact absurd ⟨path, answered⟩ reported
        · rfl
        · rfl
      have fresh : engine.reportsDuplicate next.track.isrc = false := by
        rw [Bool.eq_false_iff]
        intro duplicate
        exact reported ((engine.reportsDuplicate_iff _).mp duplicate).2
      rw [called, admitted _ fun e same => engine.runAdmitted_fresh _ (by rw [same, fresh])]
      exact (c.suspend next .transfer []).settleFallback_transfer engine next rfl
  · have fresh : engine.reportsDuplicate next.track.isrc = false := by
      rw [Bool.eq_false_iff]
      intro duplicate
      exact known ((engine.reportsDuplicate_iff _).mp duplicate).1
    rw [if_neg known, admitted _ fun e same => engine.runAdmitted_fresh _ (by rw [same, fresh])]
    obtain ⟨ended, settled, entries⟩ :=
      (c.suspend next .transfer []).settleFallback_transfer engine next rfl
    exact ⟨ended, by rw [settled, settleFallback_finishProcessing], entries⟩

end Controller

namespace EngineBehaviour

/-- An engine that finds the ISRC of the track in the library. -/
def alreadyDownloaded : EngineBehaviour where
  duplicate := RustJson.duplicate "/music/a.flac"
  answer := .empty
  media :=
    { present := fun _ => true
      decrypts := fun _ _ _ _ => false
      codec := fun _ => "flac"
      unwraps := fun _ _ => true }

/-- A queued track with an ISRC. -/
def queuedTrack : DownloadEntry where
  track := { id := "a", isrc := some "USABC2400001" }
  itemId := "a"
  status := .queued

/-- The output directory of the examples. -/
def musicDir : OutputDir := ⟨"/music", by decide⟩

/-- An engine that delivers a FLAC file. -/
def delivering : EngineBehaviour :=
  { alreadyDownloaded with
    duplicate := RustJson.duplicate ""
    answer := .result
      { success := some true, service := some "qobuz", filePath := some "/music/a.flac" } }

/-- Their results agree, and so the condition holds. -/
example : TreatedAlike delivering false queuedTrack := by
  refine ⟨by decide, ?_⟩
  exact ⟨by decide, rfl, fun container => absurd container (by decide)⟩

/-- A controller whose processor has just handed the track to the Dart fallback. -/
def fallingBack : Controller where
  entries := [queuedTrack]
  processor := .fallback queuedTrack .directory []

theorem settleFallback_admitted_duplicate : ∃ ended : Controller,
    (((fallingBack.settleFallback alreadyDownloaded).settleFallback alreadyDownloaded).settleFallback
        alreadyDownloaded).settleFallback alreadyDownloaded = ended.finishProcessing true ∧
      ended.entries = onItem "a" (alreadyDownloaded.runAdmitted false) [queuedTrack] :=
  Controller.settleFallback_admitted alreadyDownloaded fallingBack queuedTrack rfl
    (by rintro entry (_ | ⟨_, ⟨⟩⟩) _; rfl)

end EngineBehaviour

end LosslessMusic.Queue
