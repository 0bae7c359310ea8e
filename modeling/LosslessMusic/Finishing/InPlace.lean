import LosslessMusic.Storage.Files
import LosslessMusic.Text

/-!
# Tagging a lossy file in place

`FfmpegMetadataService.embed` and `NonFlacMetadataEmbedder.runAndReplace` over the
audio file and the temporary output of FFmpeg. What FFmpeg and the file system
answer is an argument of each run.
-/

namespace LosslessMusic.Finishing

open Storage

/-- The contents of a file. -/
abbrev Bytes := List UInt8

/-- The two files of a tagging run. -/
inductive Place
  | audio
  | temp
  deriving DecidableEq, Repr

/-- How a run ends. -/
inductive Ending
  | tagged
  | untagged
  | threw
  deriving DecidableEq, Repr

/-- How a copy of the temporary file ends. A copy that fails may leave the first
bytes of the file at a target that it has created. -/
inductive Copy
  | complete
  | failed (written : Option Nat)
  deriving DecidableEq, Repr

namespace Copy

/-- What a copy leaves at a target that did not exist. -/
def leaves (copy : Copy) (content : Bytes) : Option Bytes :=
  match copy with
  | .complete => some content
  | .failed written => written.map content.take

/-- The temporary file is copied to the audio path, where nothing is. -/
def run (copy : Copy) (files : Files Place Bytes) : Bool × Files Place Bytes :=
  match files .temp with
  | none => (false, files)
  | some content =>
    (copy = .complete, Function.update files .audio (copy.leaves content))

end Copy

/-- All or nothing: a run that tags leaves the tagged output at the audio path, any
other run what was there. -/
def AllOrNothing (before : Files Place Bytes) (output : Option Bytes)
    (result : Ending × Files Place Bytes) : Prop :=
  result.2 .audio = if result.1 = .tagged then output else before .audio

/-- A run of FFmpeg writes its output to the temporary path, if it writes one. -/
def withOutput (files : Files Place Bytes) (output : Option Bytes) : Files Place Bytes :=
  match output with
  | some content => files.write .temp content
  | none => files

def extOf (path : String) : String :=
  if '.' ∈ path.toList then
    Text.toLowerCase (String.ofList (path.toList.reverse.takeWhile (· ≠ '.')).reverse)
  else ""

namespace FfmpegMetadataService

/-- What FFmpeg and the file system answer in a call of `embed`. -/
structure Answers where
  /-- The temporary path is found and the cover read, or the call throws. -/
  prepared : Bool
  ok : Bool
  output : Option Bytes
  deleteOriginal : Bool
  copy : Copy
  deleteTemp : Bool
  deriving DecidableEq, Repr

/-- `_runAndReplace`: what throws behind the run ends it as failed. -/
def runAndReplace (answers : Answers) (files : Files Place Bytes) : Ending × Files Place Bytes :=
  let files := withOutput files answers.output
  if answers.ok then
    if (files .temp).isSome then
      if (files .audio).isSome && !answers.deleteOriginal then (.untagged, files)
      else
        match answers.copy.run (files.delete .audio true) with
        | (true, files) =>
          if answers.deleteTemp then (.tagged, files.delete .temp true)
          else (.untagged, files)
        | (false, files) => (.untagged, files)
    else (.untagged, files)
  else (.untagged, files.delete .temp answers.deleteTemp)

def isNonFlacEmbeddable (path : String) : Bool :=
  extOf path ∈ ["opus", "m4a", "mp3", "ogg"]

/-- `embed`: the formats differ in the arguments of FFmpeg only. -/
def embed (path : String) (answers : Answers) (files : Files Place Bytes) :
    Ending × Files Place Bytes :=
  if !isNonFlacEmbeddable path then (.untagged, files)
  else if !answers.prepared then (.threw, files)
  else runAndReplace answers files

end FfmpegMetadataService

namespace NonFlacMetadataEmbedder

/-- How a move that need not be atomic ends. It removes its target before it
renames or copies, so one that breaks off leaves at most the first bytes there. -/
inductive Move
  | moved
  | refused
  | broken (written : Option Nat)
  deriving DecidableEq, Repr

/-- What FFmpeg and the file system answer in a call of `runAndReplace`. -/
structure Answers where
  /-- `executeWithArguments` returns. -/
  executed : Bool
  success : Bool
  output : Option Bytes
  atomicMove : Bool
  move : Move
  deleteTarget : Bool
  copy : Copy
  deleteTemp : Bool
  deriving DecidableEq, Repr

/-- `temp.copyTo(original, overwrite = true)` and `temp.delete()`: an existing target
is deleted before the copy. -/
def copyOver (answers : Answers) (files : Files Place Bytes) : Ending × Files Place Bytes :=
  if (files .audio).isSome && !answers.deleteTarget then (.threw, files)
  else
    match answers.copy.run (files.delete .audio true) with
    | (true, files) => (.tagged, files.delete .temp answers.deleteTemp)
    | (false, files) => (.threw, files)

def replaceOutput (answers : Answers) (files : Files Place Bytes) : Ending × Files Place Bytes :=
  if answers.atomicMove then (.tagged, files.rename .temp .audio true)
  else
    match answers.move with
    | .moved => (.tagged, files.rename .temp .audio true)
    | .refused => copyOver answers files
    | .broken written =>
      copyOver answers
        (Function.update files .audio ((files .temp).bind (Copy.failed written).leaves))

def runAndReplace (answers : Answers) (files : Files Place Bytes) : Ending × Files Place Bytes :=
  if !answers.executed then (.threw, files)
  else
    let files := withOutput files answers.output
    if answers.success && (files .temp).isSome then replaceOutput answers files
    else (.untagged, files.delete .temp answers.deleteTemp)

end NonFlacMetadataEmbedder

/-! ## When tagging is all or nothing -/

variable {files : Files Place Bytes} {content tagged : Bytes}

@[simp] theorem withOutput_audio (output : Option Bytes) :
    withOutput files output .audio = files .audio := by
  cases output with
  | none => rfl
  | some written => exact Files.write_other files (by decide) written

theorem Copy.run_present (copy : Copy) (present : files .temp = some tagged) : copy.run files =
      (decide (copy = .complete), Function.update files .audio (copy.leaves tagged)) := by
  unfold Copy.run
  rw [present]

/-- What the copy leaves is right for the caller: the whole output, or by chance what
was there before. -/
def Copy.Keeps (copy : Copy) (tagged content : Bytes) : Prop :=
  copy = .complete ∨ copy.leaves tagged = some content

namespace FfmpegMetadataService

/-- The original is deleted only for a copy that is complete and followed by the
deletion of the temporary file. -/
def Answers.Keeps (answers : Answers) (output : Option Bytes) (content : Bytes) : Prop :=
  ∀ tagged, output = some tagged → answers.ok = true → answers.deleteOriginal = true →
    (answers.copy = .complete ∧ answers.deleteTemp = true) ∨
      answers.copy.leaves tagged = some content

theorem runAndReplace_iff (answers : Answers) (audio : files .audio = some content) :
    AllOrNothing files (withOutput files answers.output .temp) (runAndReplace answers files) ↔
      answers.Keeps (withOutput files answers.output .temp) content := by
  have there : withOutput files answers.output .audio = some content := by
    rw [withOutput_audio, audio]
  unfold runAndReplace AllOrNothing Answers.Keeps
  cases ran : answers.ok with
  | false =>
    have kept := Files.delete_other (withOutput files answers.output)
      (by decide : Place.audio ≠ .temp) answers.deleteTemp
    simp [kept]
  | true =>
    cases temp : withOutput files answers.output .temp with
    | none => simp [temp]
    | some tagged =>
      cases permitted : answers.deleteOriginal with
      | false => simp [temp, there, audio]
      | true =>
        have present : (withOutput files answers.output).delete .audio true .temp =
            some tagged := by
          rw [Files.delete_other _ (by decide), temp]
        simp only [temp, there, Option.isSome_some, Bool.not_true, Bool.and_false,
          Bool.false_eq_true, if_false, if_true, Copy.run_present _ present]
        cases copied : answers.copy with
        | complete =>
          cases deleted : answers.deleteTemp with
          | true => simp [Copy.leaves, Files.delete_other]
          | false => simp [Copy.leaves, audio]
        | failed written => simp [audio]

theorem embed_iff (path : String) (answers : Answers) (audio : files .audio = some content) :
    AllOrNothing files (withOutput files answers.output .temp) (embed path answers files) ↔
      (isNonFlacEmbeddable path = true → answers.prepared = true →
        answers.Keeps (withOutput files answers.output .temp) content) := by
  unfold embed
  cases embeddable : isNonFlacEmbeddable path with
  | false => simp [AllOrNothing]
  | true =>
    cases prepared : answers.prepared with
    | false => simp [AllOrNothing]
    | true => simpa using runAndReplace_iff answers audio

end FfmpegMetadataService

namespace NonFlacMetadataEmbedder

/-- A target that is there is not deleted, or the copy that follows keeps. -/
def Answers.CopyKeeps (answers : Answers) (there : Option Bytes) (tagged content : Bytes) :
    Prop :=
  if there.isSome = true ∧ answers.deleteTarget = false then there = some content
  else answers.copy.Keeps tagged content

/-- A move succeeds, or leaves to the copy what the copy keeps. -/
def Answers.Keeps (answers : Answers) (output : Option Bytes) (content : Bytes) : Prop :=
  ∀ tagged, output = some tagged → answers.executed = true → answers.success = true →
    answers.atomicMove = false →
    match answers.move with
    | .moved => True
    | .refused => answers.CopyKeeps (some content) tagged content
    | .broken written =>
      answers.CopyKeeps ((Copy.failed written).leaves tagged) tagged content

theorem copyOver_iff (answers : Answers) (temp : files .temp = some tagged)
    (before : Files Place Bytes) (audio : before .audio = some content) :
    AllOrNothing before (some tagged) (copyOver answers files) ↔
      answers.CopyKeeps (files .audio) tagged content := by
  have present : files.delete .audio true .temp = some tagged := by
    rw [Files.delete_other _ (by decide), temp]
  unfold copyOver AllOrNothing Answers.CopyKeeps
  by_cases blocked : (files .audio).isSome = true ∧ answers.deleteTarget = false
  · simp [blocked, audio]
  · have goes : ((files .audio).isSome && !answers.deleteTarget) = false := by
      simpa using blocked
    rw [if_neg blocked, goes]
    simp only [Bool.false_eq_true, if_false, Copy.run_present _ present, Copy.Keeps]
    cases copied : answers.copy with
    | complete => simp [Copy.leaves, Files.delete_other]
    | failed written => simp [audio]

theorem runAndReplace_iff (answers : Answers) (audio : files .audio = some content) :
    AllOrNothing files (withOutput files answers.output .temp) (runAndReplace answers files) ↔
      answers.Keeps (withOutput files answers.output .temp) content := by
  have there : withOutput files answers.output .audio = some content := by
    rw [withOutput_audio, audio]
  unfold runAndReplace Answers.Keeps
  cases executed : answers.executed with
  | false => simp [AllOrNothing]
  | true =>
    cases temp : withOutput files answers.output .temp with
    | none => simp [AllOrNothing, temp, Files.delete_other, there, audio]
    | some tagged =>
      have moves : AllOrNothing files (some tagged)
          (.tagged, (withOutput files answers.output).rename .temp .audio true) := by
        simp [AllOrNothing, Files.rename_target _ temp]
      cases success : answers.success with
      | false => simp [AllOrNothing, Files.delete_other, there, audio]
      | true =>
        unfold replaceOutput
        cases atomic : answers.atomicMove with
        | true => simpa [temp] using moves
        | false =>
          cases moved : answers.move with
          | moved => simpa [temp] using moves
          | refused =>
            have copies := copyOver_iff answers temp files audio
            simpa [temp, there] using copies
          | broken written =>
            have broken : Function.update (withOutput files answers.output) .audio
                ((Copy.failed written).leaves tagged) .temp = some tagged := by
              rw [Function.update_of_ne (by decide), temp]
            have copies := copyOver_iff answers broken files audio
            simpa [temp] using copies

end NonFlacMetadataEmbedder

/-- Both ways to tag a lossy file in place are all or nothing exactly when no original
is deleted, or moved away, for a copy that then fails, and no finished replacement is
reported as a failure because its temporary file stays. -/
theorem tagging_all_or_nothing_iff (path : String)
    (dart : FfmpegMetadataService.Answers) (native : NonFlacMetadataEmbedder.Answers)
    (files : Files Place Bytes) (content : Bytes) (audio : files .audio = some content) :
    (AllOrNothing files (withOutput files dart.output .temp)
        (FfmpegMetadataService.embed path dart files) ↔
      (FfmpegMetadataService.isNonFlacEmbeddable path = true → dart.prepared = true →
        dart.Keeps (withOutput files dart.output .temp) content)) ∧
    (AllOrNothing files (withOutput files native.output .temp)
        (NonFlacMetadataEmbedder.runAndReplace native files) ↔
      native.Keeps (withOutput files native.output .temp) content) :=
  ⟨FfmpegMetadataService.embed_iff path dart audio,
    NonFlacMetadataEmbedder.runAndReplace_iff native audio⟩

/-- An audio file of two bytes, and no temporary file. -/
def untagged : Files Place Bytes
  | .audio => some [1, 2]
  | .temp => none

/-- FFmpeg and every file operation succeed. -/
def dartAnswers : FfmpegMetadataService.Answers where
  prepared := true
  ok := true
  output := some [3, 1, 2]
  deleteOriginal := true
  copy := .complete
  deleteTemp := true

/-- FFmpeg succeeds, and of the replacements only the copy does. -/
def nativeAnswers : NonFlacMetadataEmbedder.Answers where
  executed := true
  success := true
  output := some [3, 1, 2]
  atomicMove := false
  move := .refused
  deleteTarget := true
  copy := .complete
  deleteTemp := true

/-- Where nothing fails behind the deletion both runs are all or nothing. -/
theorem tagging_all_or_nothing_complete : AllOrNothing untagged (some [3, 1, 2])
        (FfmpegMetadataService.embed "/music/a.mp3" dartAnswers untagged) ∧
      AllOrNothing untagged (some [3, 1, 2])
        (NonFlacMetadataEmbedder.runAndReplace nativeAnswers untagged) := by
  have both := tagging_all_or_nothing_iff "/music/a.mp3" dartAnswers nativeAnswers
    untagged [1, 2] rfl
  constructor
  · apply both.1.mpr
    intro _ _ tagged _ _ _
    exact .inl ⟨rfl, rfl⟩
  · apply both.2.mpr
    intro tagged _ _ _ _
    exact .inl rfl

/-- A copy that fails behind the deletion loses the audio file on both sides, and a
temporary file that stays makes `embed` report a failure for a tagged file. -/
theorem tagging_loses_original : ¬ AllOrNothing untagged (some [3, 1, 2])
        (FfmpegMetadataService.embed "/music/a.mp3"
          { dartAnswers with copy := .failed none } untagged) ∧
      ¬ AllOrNothing untagged (some [3, 1, 2]) (FfmpegMetadataService.embed "/music/a.mp3"
          { dartAnswers with deleteTemp := false } untagged) ∧
      ¬ AllOrNothing untagged (some [3, 1, 2]) (NonFlacMetadataEmbedder.runAndReplace
          { nativeAnswers with copy := .failed (some 1) } untagged) := by
  unfold AllOrNothing
  decide

end LosslessMusic.Finishing
