import LosslessMusic.Finishing.Unwrapper

/-!
# When unwrapping keeps the audio

A conversion deletes what has its output's name before it runs, and the repair
deletes the file before the repaired one takes its name. Which answers of FFmpeg
and of the file system lose audio this way is stated exactly.
-/

namespace LosslessMusic.Finishing.Mp4FlacUnwrapper

open Storage Queue

/-! ## One conversion -/

namespace Run

variable (run : Run)

/-- FFmpeg reports success. -/
def ok : Bool :=
  match run with
  | .succeeded _ => true
  | .failed _ => false

/-- What a run writes to its output. -/
def written : Option Bytes :=
  match run with
  | .succeeded content => some content
  | .failed content => content

/-- The files behind a run. -/
def onto (disk : Disk) (output : String) : Disk :=
  match run.written with
  | some content => disk.write output content
  | none => disk

/-- The run succeeds with a filled output. -/
def fills : Bool :=
  match run with
  | .succeeded (_ :: _) => true
  | _ => false

end Run

namespace Conversion

variable (conversion : Conversion)

/-- The conversion succeeds. If its output is the input under another spelling, the
input has to outlive the deletion of the output. -/
def works (aliased : Bool) : Bool :=
  conversion.run.fills && !(aliased && conversion.clear)

/-- The failed conversion leaves a content under the output's name, which was there
before if `earlier` holds. -/
def Leaves (aliased : Bool) (content : Bytes) (earlier : Prop) : Prop :=
  conversion.discard = false ∧
    ((conversion.run.written = some content ∧ (aliased && conversion.clear) = false) ∨
      (conversion.run.written = none ∧ conversion.clear = false ∧ earlier))

end Conversion

variable {disk : Disk} {input output : String} {conversion : Conversion}

variable {name : String}

theorem filled_iff :
    filled disk name = true ↔ ∃ content, disk name = some content ∧ content ≠ [] := by
  unfold filled
  split
  next head tail present => simp [present]
  next other =>
    simp only [Bool.false_eq_true, false_iff, not_exists, not_and, not_not]
    intro content present
    cases content with
    | nil => rfl
    | cons head tail => exact absurd present (other head tail)

theorem Run.onto_other (run : Run) (other : name ≠ output) :
    run.onto disk output name = disk name := by
  unfold onto
  cases run.written with
  | some content => exact Files.write_other disk other _
  | none => rfl

theorem Run.onto_output (run : Run) :
    run.onto disk output output = run.written.or (disk output) := by
  unfold onto
  cases run.written with
  | some content => simp
  | none => simp

theorem runFfmpeg_missing (run : Run) (missing : disk input = none) :
    runFfmpeg run disk input output = (false, disk) := by
  simp [runFfmpeg, missing]

theorem runFfmpeg_present (run : Run) (output : String) (present : (disk input).isSome = true) :
    runFfmpeg run disk input output = (run.ok, run.onto disk output) := by
  obtain ⟨there, present⟩ := Option.isSome_iff_exists.mp present
  unfold runFfmpeg
  simp only [present, Option.isNone_some, Bool.false_eq_true, if_false]
  cases run with
  | succeeded content => rfl
  | failed written => cases written <;> rfl

/-- The test behind a run is whether it fills its output. -/
theorem Run.ok_and_filled (run : Run) (disk : Disk) (output : String) :
    (run.ok && filled (run.onto disk output) output) = run.fills := by
  cases run with
  | succeeded content =>
    cases content with
    | nil => simp [ok, fills, filled, onto, written]
    | cons head tail => simp [ok, fills, filled, onto, written]
  | failed written => rfl

theorem convert_present (present : (disk.delete output conversion.clear input).isSome = true) :
    convert conversion disk input output = (conversion.run.fills,
        if conversion.run.fills then
          (conversion.run.onto (disk.delete output conversion.clear) output).delete input
            conversion.remove
        else
          (conversion.run.onto (disk.delete output conversion.clear) output).delete output
            conversion.discard) := by
  simp only [convert, runFfmpeg_present conversion.run output present, ← Bool.not_and,
    Run.ok_and_filled]
  cases conversion.run.fills <;> rfl

/-- The input outlives the deletion of the output unless they are one file. -/
theorem cleared_input (present : (disk input).isSome = true) :
    (disk.delete output conversion.clear input).isSome =
      !(decide (output = input) && conversion.clear) := by
  by_cases aliased : output = input
  · subst aliased
    cases conversion.clear with
    | true => simp
    | false => simpa using present
  · rw [Files.delete_other disk (Ne.symm aliased)]
    simp [present, aliased]

/-- Behind a conversion that works the output holds what FFmpeg wrote, and the input
may be gone. -/
theorem convert_of_works (output : String) (present : (disk input).isSome = true)
    (works : conversion.works (output = input) = true) :
    ∃ left, convert conversion disk input output =
        (true, left.delete input conversion.remove) ∧ filled left output = true := by
  unfold Conversion.works at works
  rw [Bool.and_eq_true] at works
  obtain ⟨fills, outlives⟩ := works
  refine ⟨conversion.run.onto (disk.delete output conversion.clear) output, ?_, ?_⟩
  · rw [convert_present (by rw [cleared_input present, outlives]), fills]
    rfl
  · have counted := conversion.run.ok_and_filled (disk.delete output conversion.clear) output
    rw [fills, Bool.and_eq_true] at counted
    exact counted.2

/-- Behind a conversion that fails only the name of the output has changed. -/
theorem convert_of_fails (output : String) (present : (disk input).isSome = true)
    (fails : conversion.works (output = input) = false) :
    ∃ left, convert conversion disk input output = (false, left) ∧
      (∀ name, name ≠ output → left name = disk name) ∧
      ∀ content, left output = some content ↔
        conversion.Leaves (output = input) content (disk output = some content) := by
  unfold Conversion.works at fails
  cases outlives : decide (output = input) && conversion.clear with
  | true =>
    have missing : disk.delete output conversion.clear input = none := by
      have cleared : (disk.delete output conversion.clear input).isSome =
          !(decide (output = input) && conversion.clear) := cleared_input present
      rw [outlives] at cleared
      simpa using cleared
    refine ⟨(disk.delete output conversion.clear).delete output conversion.discard, ?_, ?_, ?_⟩
    · simp [convert, runFfmpeg_missing _ missing]
    · intro name other
      rw [Files.delete_other _ other, Files.delete_other _ other]
    · intro content
      rw [Bool.and_eq_true] at outlives
      have nothing : (disk.delete output conversion.clear).delete output
          conversion.discard output = none := by
        rw [outlives.2]
        cases conversion.discard <;> simp
      rw [nothing]
      simp [Conversion.Leaves, outlives.1, outlives.2]
  | false =>
    rw [outlives, Bool.not_false, Bool.and_true] at fails
    refine ⟨(conversion.run.onto (disk.delete output conversion.clear) output).delete output
      conversion.discard, ?_, ?_, ?_⟩
    · rw [convert_present (by rw [cleared_input present, outlives]; rfl), fails]
      rfl
    · intro name other
      rw [Files.delete_other _ other, Run.onto_other _ other, Files.delete_other _ other]
    · intro content
      unfold Conversion.Leaves
      rw [outlives]
      cases discarded : conversion.discard with
      | true => simp
      | false =>
        rw [Files.delete_refused, Run.onto_output]
        cases writes : conversion.run.written with
        | some written => simp
        | none => cases cleared : conversion.clear <;> simp

/-! ## Tagging and repair -/

/-- `tagFlac` succeeds on a file that is there. -/
def accepts (edit : Edit) (request : Option TagRequest) : Bool :=
  match request with
  | none => false
  | some request => !request.embedMetadata || request.tags.isEmpty || edit.accepted

variable {file : String}

/-- Tagging keeps a filled file filled and the other files as they are. -/
theorem tagFlac_filled (edit : Edit) (request : Option TagRequest)
    (present : filled disk file = true) :
    ∃ left, tagFlac edit disk file request = (accepts edit request, left) ∧
      filled left file = true ∧ ∀ name, name ≠ file → left name = disk name := by
  obtain ⟨content, there, _⟩ := filled_iff.mp present
  unfold tagFlac accepts
  cases request with
  | none => exact ⟨disk, rfl, present, fun _ _ => rfl⟩
  | some request =>
    cases embeds : request.embedMetadata with
    | false => exact ⟨disk, by simp [embeds], present, fun _ _ => rfl⟩
    | true =>
      cases tagless : request.tags.isEmpty with
      | true => exact ⟨disk, by simp [embeds, tagless], present, fun _ _ => rfl⟩
      | false =>
        cases rewrites : edit.rewritten with
        | none =>
          refine ⟨disk, ?_, present, fun _ _ => rfl⟩
          simp [embeds, tagless, there]
        | some rewritten =>
          refine ⟨disk.write file rewritten, ?_, ?_, ?_⟩
          · simp [embeds, tagless, there]
          · exact filled_iff.mpr ⟨_, Files.write_same _ _, rewritten.2⟩
          · intro name other
            exact Files.write_other disk other _

namespace Repair

variable (repair : Repair)

/-- The repaired file is there and the original is gone when the swap fails. -/
def loses : Bool :=
  repair.run.fills && repair.remove && !repair.swap

end Repair

theorem repairFile_filled (repair : Repair) (other : repairName file ≠ file)
    (present : filled disk file = true) :
    filled (repairFile repair disk file).2 file = !repair.loses ∧
      (repair.loses = true → (repairFile repair disk file).1 = false ∧
        (repairFile repair disk file).2 file = none ∧
        ((repairFile repair disk file).2 (repairName file)).isSome = !repair.cleanUp) := by
  have there : (disk.delete (repairName file) repair.clear file).isSome = true := by
    rw [Files.delete_other _ (Ne.symm other)]
    obtain ⟨content, there, _⟩ := filled_iff.mp present
    rw [there]
    rfl
  have kept : (repair.run.onto (disk.delete (repairName file) repair.clear)
      (repairName file)) file = disk file := by
    rw [Run.onto_other _ (Ne.symm other), Files.delete_other _ (Ne.symm other)]
  have counted := repair.run.ok_and_filled
    (disk.delete (repairName file) repair.clear) (repairName file)
  have ran := runFfmpeg_present repair.run (repairName file) there
  unfold Repair.loses
  simp only [repairFile, ran, ← Bool.not_and, counted]
  generalize repair.run.onto (disk.delete (repairName file) repair.clear)
    (repairName file) = left at kept counted
  have stays : ∀ after : Disk, after file = left file → filled after file = true := by
    intro after same
    unfold filled at present ⊢
    rw [same, kept]
    exact present
  cases fills : repair.run.fills with
  | false =>
    have after := stays (left.delete (repairName file) repair.discard)
      (Files.delete_other _ (Ne.symm other) _)
    simp [after]
  | true =>
    rw [fills, Bool.and_eq_true] at counted
    obtain ⟨repaired, written, some_content⟩ := filled_iff.mp counted.2
    have original : (left file).isSome = true := by
      obtain ⟨content, there, _⟩ := filled_iff.mp (stays left rfl)
      rw [there]
      rfl
    cases removed : repair.remove with
    | false =>
      have after := stays (left.delete (repairName file) repair.cleanUp)
        (Files.delete_other _ (Ne.symm other) _)
      simp [Files.deletes, after]
    | true =>
      have moved : left.delete file true (repairName file) = some repaired := by
        rw [Files.delete_other _ other, written]
      cases swapped : repair.swap with
      | true =>
        have after : filled ((left.delete file true).rename (repairName file) file true)
            file = true :=
          filled_iff.mpr ⟨repaired, Files.rename_target _ moved, some_content⟩
        simp [Files.deletes, Files.renames, original, moved, after]
      | false =>
        have gone : (left.delete file true).delete (repairName file) repair.cleanUp
            file = none := by
          rw [Files.delete_other _ (Ne.symm other), Files.delete_same]
        have lost : filled ((left.delete file true).delete (repairName file)
            repair.cleanUp) file = false := by
          unfold filled
          rw [gone]
        simp only [Files.deletes, Files.renames, original, moved, Bool.and_self,
          Bool.not_true, Bool.not_false, Bool.false_and, Bool.false_eq_true, if_false,
          if_true, lost, gone, true_and, true_imp_iff]
        cases repair.cleanUp with
        | true => simp
        | false => simp [moved]

/-- The first tagging fails, and so does the swap of the repair behind the deletion. -/
def Answers.loses (answers : Answers) (request : Option TagRequest) : Bool :=
  !accepts answers.tag request && answers.repair.loses

theorem tagFlacWithRepair_filled (answers : Answers)
    (request : Option TagRequest) (other : repairName file ≠ file)
    (present : filled disk file = true) :
    filled (tagFlacWithRepair answers disk file request) file = !answers.loses request ∧
      (answers.loses request = true → tagFlacWithRepair answers disk file request file = none ∧
        (tagFlacWithRepair answers disk file request (repairName file)).isSome =
          !answers.repair.cleanUp) := by
  obtain ⟨left, tagged, still, _⟩ := tagFlac_filled answers.tag request present
  have repaired := repairFile_filled answers.repair other still
  unfold tagFlacWithRepair Answers.loses
  rw [tagged]
  cases accepts answers.tag request with
  | true => simpa using still
  | false =>
    simp only [Bool.not_false, Bool.true_and]
    cases loses : answers.repair.loses with
    | true =>
      rw [loses] at repaired
      obtain ⟨failed, gone, tmp⟩ := repaired.2 rfl
      cases result : repairFile answers.repair left file with
      | mk ok after =>
        rw [result] at repaired failed gone tmp
        simp only at failed
        subst failed
        exact ⟨repaired.1, fun _ => ⟨gone, tmp⟩⟩
    | false =>
      rw [loses] at repaired
      cases result : repairFile answers.repair left file with
      | mk ok after =>
        rw [result] at repaired
        cases ok with
        | false => exact ⟨repaired.1, fun lost => nomatch lost⟩
        | true =>
          obtain ⟨again, taggedAgain, filledAgain, _⟩ :=
            tagFlac_filled answers.tagAgain request repaired.1
          simp only [taggedAgain]
          exact ⟨filledAgain, fun lost => nomatch lost⟩

/-! ## The whole call -/

/-- What `finalize` promises: the path it returns is playable if the input was, a call
that falls back to its input has touched no file, and a repair leaves the original or
the repaired file. -/
structure KeepsAudio (disk : Disk) (path : String) (result : String × Disk) : Prop where
  playable : filled disk (absolutePath path) = true → filled result.2 (absolutePath result.1) = true
  untouched : result.1 = path → ∀ name content, disk name = some content →
    result.2 name = some content
  repaired : result.1 ≠ path → result.1 = outputOf path ".flac" →
    (result.2 result.1).isSome = true ∨ (result.2 (repairName result.1)).isSome = true

/-- The answers that lose nothing when an MP4 file of the content is finalized. -/
structure Spares (answers : Answers) (disk : Disk) (path : String) (decryption : Decryption)
    (request : Option TagRequest) (content : Bytes) : Prop where
  /-- Behind a decryption an input that is also the output is not deleted, and the
  repair does not lose the file. -/
  decrypted : decrypts path decryption = true →
    answers.decrypt.works (outputOf path decryption.extension = absolutePath path) = true →
    (outputOf path decryption.extension = absolutePath path →
        answers.decrypt.remove = false ∨ content = []) ∧
      (decryption.extension = ".flac" → answers.loses request = true →
        content = [] ∧ answers.repair.cleanUp = false)
  /-- A failed decryption has not deleted an input that is also its output. -/
  aliased : decrypts path decryption = true →
    answers.decrypt.works (outputOf path decryption.extension = absolutePath path) = false →
    outputOf path decryption.extension = absolutePath path →
    answers.decrypt.clear = false ∧ answers.decrypt.discard = false
  /-- Behind an unwrapping the repair does not lose the file. -/
  unwrapped : (decrypts path decryption = true →
      answers.decrypt.works (outputOf path decryption.extension = absolutePath path) = false) →
    answers.codec = "flac" → answers.unwrap.works false = true →
    answers.loses request = true → content = [] ∧ answers.repair.cleanUp = false
  /-- When nothing could be improved, no file had the name of a failed output, or it
  was left as it was. -/
  kept : (decrypts path decryption = true →
      answers.decrypt.works (outputOf path decryption.extension = absolutePath path) = false) →
    (answers.codec = "flac" → answers.unwrap.works false = false) →
    ∀ name old, disk name = some old →
      let earlier := decrypts path decryption = true →
        name = outputOf path decryption.extension →
        answers.decrypt.Leaves (outputOf path decryption.extension = absolutePath path) old True
      if answers.codec = "flac" ∧ name = outputOf path ".flac" then
        answers.unwrap.Leaves false old earlier
      else earlier

/-- The output of `unwrapPlainFlac` is another file than its input. -/
theorem outputOf_flac_ne {path : String} (container : looksLikeMp4Container path = true) :
    outputOf path ".flac" ≠ absolutePath path := by
  obtain ⟨front, last, ends, differs⟩ :
      ∃ front last, path.toList = front ++ [last] ∧ last ≠ '/' ∧ last ≠ 'c' := by
    have lower : ∃ before last, (last = 'a' ∨ last = '4') ∧
        (Text.toLowerCase path).toList = before ++ [last] := by
      unfold looksLikeMp4Container Text.endsWith at container
      simp only [Bool.and_eq_true, Bool.or_eq_true, List.isSuffixOf_iff_suffix] at container
      rcases container.2 with ⟨before, equal⟩ | ⟨before, equal⟩
      · refine ⟨before ++ ['.', 'm', '4'], 'a', .inl rfl, ?_⟩
        rw [← equal, List.append_assoc]
        rfl
      · refine ⟨before ++ ['.', 'm', 'p'], '4', .inr rfl, ?_⟩
        rw [← equal, List.append_assoc]
        rfl
    obtain ⟨before, last, isLast, lower⟩ := lower
    rw [Text.toLowerCase, String.toList_ofList] at lower
    rcases path.toList.eq_nil_or_concat' with nothing | ⟨front, char, ends⟩
    · rw [nothing] at lower
      simp at lower
    · refine ⟨front, char, ends, ?_⟩
      have lasts := congrArg List.getLast? lower
      rw [ends, List.flatMap_append, List.getLast?_concat] at lasts
      constructor
      · rintro rfl
        have slash : [('/' : Char)].flatMap Text.lowerChar = ['/'] := by decide
        rw [slash, List.getLast?_concat] at lasts
        cases lasts
        simp at isLast
      · rintro rfl
        have letter : [('c' : Char)].flatMap Text.lowerChar = ['c'] := by decide
        rw [letter, List.getLast?_concat] at lasts
        cases lasts
        simp at isLast
  intro same
  have lastOfPath := getLast?_absolutePath differs.1 ends
  have lastOfOutput : (outputOf path ".flac").toList.getLast? = some 'c' := by
    unfold outputOf
    have ends : (Text.beforeLastDot path ++ ".flac").toList =
        ((Text.beforeLastDot path).toList ++ ['.', 'f', 'l', 'a']) ++ ['c'] := by
      rw [String.toList_append, List.append_assoc]
      rfl
    exact getLast?_absolutePath (by decide) ends
  rw [same, lastOfPath] at lastOfOutput
  exact differs.2 (Option.some.inj lastOfOutput)

@[simp] theorem absolutePath_outputOf (path extension : String) :
    absolutePath (outputOf path extension) = outputOf path extension :=
  absolutePath_absolutePath _

theorem repairName_outputOf_ne (path extension : String) :
    repairName (outputOf path extension) ≠ outputOf path extension :=
  absolutePath_append_ne _ (by decide) (by decide)

theorem filled_of_content {content : Bytes} (present : disk name = some content) :
    filled disk name = true ↔ content ≠ [] := by
  rw [filled_iff]
  simp [present]

section Call

variable {path : String} {content : Bytes} {answers : Answers} {request : Option TagRequest}

theorem keeps_of_tagged {left : Disk} (present : disk (absolutePath path) = some content)
    (moved : outputOf path ".flac" ≠ path) (written : filled left (outputOf path ".flac") = true) :
    KeepsAudio disk path (outputOf path ".flac",
        tagFlacWithRepair answers left (outputOf path ".flac") request) ↔
      (answers.loses request = true → content = [] ∧ answers.repair.cleanUp = false) := by
  have tagged := tagFlacWithRepair_filled answers request
    (repairName_outputOf_ne path ".flac") written
  have isInput := filled_of_content present
  constructor
  · intro keeps lost
    obtain ⟨gone, tmp⟩ := tagged.2 lost
    constructor
    · by_contra some_content
      have playable := keeps.playable (isInput.mpr some_content)
      simp only [absolutePath_outputOf, tagged.1, lost] at playable
      cases playable
    · rcases keeps.repaired moved rfl with original | repaired
      · simp only [gone] at original
        cases original
      · simp only [tmp, Bool.not_eq_true'] at repaired
        exact repaired
  · intro spares
    refine ⟨?_, fun same => absurd same moved, ?_⟩
    · intro playable
      simp only [absolutePath_outputOf, tagged.1]
      by_contra lost
      have empty := spares (by simpa using lost)
      exact isInput.mp playable empty.1
    · intro _ _
      cases lost : answers.loses request with
      | true =>
        right
        have stays := (tagged.2 lost).2
        simp only [stays, (spares lost).2, Bool.not_false]
      | false =>
        left
        have still := tagged.1
        rw [lost, Bool.not_false, filled_iff] at still
        obtain ⟨there, present, _⟩ := still
        simp only [present]
        rfl

theorem keeps_of_unwrapped {after : Disk} {earlier : String → Bytes → Prop}
    (container : looksLikeMp4Container path = true)
    (present : disk (absolutePath path) = some content)
    (left : ∀ name old, disk name = some old → (after name = some old ↔ earlier name old)) :
    KeepsAudio disk path (unwrapPlainFlac answers after path request) ↔
      (after (absolutePath path)).isSome = true ∧
        (answers.codec = "flac" → answers.unwrap.works false = true →
          answers.loses request = true → content = [] ∧ answers.repair.cleanUp = false) ∧
        ((answers.codec = "flac" → answers.unwrap.works false = false) →
          ∀ name old, disk name = some old →
            if answers.codec = "flac" ∧ name = outputOf path ".flac" then
              answers.unwrap.Leaves false old (earlier name old)
            else earlier name old) := by
  have other := outputOf_flac_ne container
  have moved : outputOf path ".flac" ≠ path := by
    intro same
    apply other
    conv_rhs => rw [← same]
    rw [absolutePath_outputOf]
  have untouchedOnly : ∀ final : Disk, KeepsAudio disk path (path, final) ↔
      ∀ name old, disk name = some old → final name = some old := by
    intro final
    constructor
    · intro keeps
      exact keeps.untouched rfl
    · intro untouched
      refine ⟨?_, fun _ => untouched, fun differs => absurd rfl differs⟩
      intro playable
      obtain ⟨there, isThere, some_content⟩ := filled_iff.mp playable
      exact filled_iff.mpr ⟨there, untouched _ _ isThere, some_content⟩
  unfold unwrapPlainFlac audioCodecOf
  cases still : (after (absolutePath path)).isSome with
  | false =>
    simp only [Bool.false_eq_true, if_false, ne_eq, String.reduceEq, not_false_eq_true,
      if_true, untouchedOnly, false_and, iff_false]
    intro untouched
    rw [untouched _ _ present] at still
    cases still
  | true =>
    simp only [if_true, true_and]
    by_cases isFlac : answers.codec = "flac"
    · simp only [isFlac, ne_eq, not_true_eq_false, if_false, true_imp_iff, true_and]
      have aliased : decide (outputOf path ".flac" = absolutePath path) = false := by
        simpa using other
      cases works : answers.unwrap.works false with
      | true =>
        obtain ⟨written, converted, isFilled⟩ := convert_of_works
          (outputOf path ".flac") still (by rw [aliased, works])
        have final : filled (written.delete (absolutePath path) answers.unwrap.remove)
            (outputOf path ".flac") = true := by
          unfold filled at isFilled ⊢
          rw [Files.delete_other _ other]
          exact isFilled
        rw [converted]
        simpa using keeps_of_tagged present moved final
      | false =>
        obtain ⟨final, converted, others, output⟩ := convert_of_fails
          (outputOf path ".flac") still (by rw [aliased, works])
        rw [converted]
        rw [aliased] at output
        simp only [untouchedOnly, Bool.false_eq_true, false_imp_iff, true_and, true_imp_iff]
        apply forall_congr'
        intro name
        apply forall_congr'
        intro old
        apply imp_congr_right
        intro isThere
        by_cases named : name = outputOf path ".flac"
        · subst named
          rw [if_pos rfl, output, Conversion.Leaves, Conversion.Leaves, left _ _ isThere]
        · rw [if_neg named, others name named, left _ _ isThere]
    · simp only [ne_eq, isFlac, not_false_eq_true, if_true, untouchedOnly, false_imp_iff,
        true_and, true_imp_iff, false_and, if_false]
      apply forall_congr'
      intro name
      apply forall_congr'
      intro old
      apply imp_congr_right
      intro isThere
      exact left _ _ isThere

theorem isSome_of_leaves (conversion : Conversion) {aliased : Bool} (before : Option Bytes)
    {after : Option Bytes} (isAliased : aliased = true) (present : before.isSome = true)
    (left : ∀ old, after = some old ↔ conversion.Leaves aliased old (before = some old)) :
    after.isSome = true ↔ conversion.clear = false ∧ conversion.discard = false := by
  subst isAliased
  rw [Option.isSome_iff_exists]
  constructor
  · rintro ⟨old, there⟩
    obtain ⟨kept, written | spared⟩ := (left old).mp there
    · exact ⟨by simpa using written.2, kept⟩
    · exact ⟨spared.2.1, kept⟩
  · rintro ⟨spared, kept⟩
    obtain ⟨old, there⟩ := Option.isSome_iff_exists.mp present
    cases writes : conversion.run.written with
    | some content => exact ⟨content, (left content).mpr ⟨kept, .inl ⟨writes, by simp [spared]⟩⟩⟩
    | none => exact ⟨old, (left old).mpr ⟨kept, .inr ⟨writes, spared, there⟩⟩⟩

variable {decryption : Decryption}

theorem decrypt_of_fails (request : Option TagRequest)
    (present : disk (absolutePath path) = some content) (fails : decrypts path decryption = true →
      answers.decrypt.works (outputOf path decryption.extension = absolutePath path) = false) :
    ∃ after, decrypt answers disk path decryption request = (none, after) ∧
      (∀ name old, disk name = some old → (after name = some old ↔
        (decrypts path decryption = true → name = outputOf path decryption.extension →
          answers.decrypt.Leaves (outputOf path decryption.extension = absolutePath path)
            old True))) ∧
      ((after (absolutePath path)).isSome = true ↔ (decrypts path decryption = true →
          outputOf path decryption.extension = absolutePath path →
          answers.decrypt.clear = false ∧ answers.decrypt.discard = false)) := by
  unfold decrypt
  cases tries : decrypts path decryption with
  | false =>
    refine ⟨disk, by simp, ?_, ?_⟩
    · intro name old isThere
      simp [isThere]
    · simp [present]
  | true =>
    have there : (disk (absolutePath path)).isSome = true := by
      rw [present]
      rfl
    obtain ⟨after, converted, others, output⟩ := convert_of_fails
      (outputOf path decryption.extension) there (fails tries)
    refine ⟨after, by simp [converted], ?_, ?_⟩
    · intro name old isThere
      by_cases named : name = outputOf path decryption.extension
      · subst named
        rw [output, isThere]
        simp
      · rw [others name named, isThere]
        simp [named]
    · by_cases aliased : outputOf path decryption.extension = absolutePath path
      · have left := isSome_of_leaves answers.decrypt
          (disk (outputOf path decryption.extension)) (by simpa using aliased)
          (by rw [aliased]; exact there) output
        rw [aliased] at left
        simpa [aliased] using left
      · rw [others _ (Ne.symm aliased), there]
        simp [aliased]

theorem keeps_of_decrypted (answers : Answers) (request : Option TagRequest)
    (container : looksLikeMp4Container path = true)
    (present : disk (absolutePath path) = some content) (tries : decrypts path decryption = true)
    (works : answers.decrypt.works
      (outputOf path decryption.extension = absolutePath path) = true) :
    ∃ after, decrypt answers disk path decryption request =
        (some (outputOf path decryption.extension), after) ∧
      (KeepsAudio disk path (outputOf path decryption.extension, after) ↔
        (outputOf path decryption.extension = absolutePath path →
          answers.decrypt.remove = false ∨ content = []) ∧
        (decryption.extension = ".flac" → answers.loses request = true →
          content = [] ∧ answers.repair.cleanUp = false)) := by
  have there : (disk (absolutePath path)).isSome = true := by
    rw [present]
    rfl
  have moved : outputOf path decryption.extension ≠ path := by
    unfold decrypts at tries
    simp only [Bool.and_eq_true, decide_eq_true_eq] at tries
    exact tries.2
  obtain ⟨written, converted, isFilled⟩ := convert_of_works
    (outputOf path decryption.extension) there works
  unfold decrypt
  simp only [tries, Bool.not_true, Bool.false_eq_true, if_false, converted]
  by_cases isFlac : decryption.extension = ".flac"
  · rw [if_pos isFlac]
    refine ⟨_, rfl, ?_⟩
    rw [isFlac] at isFilled moved ⊢
    have other := outputOf_flac_ne container
    have final : filled (written.delete (absolutePath path) answers.decrypt.remove)
        (outputOf path ".flac") = true := by
      unfold filled at isFilled ⊢
      rw [Files.delete_other _ other]
      exact isFilled
    rw [keeps_of_tagged present moved final]
    simp [other]
  · rw [if_neg isFlac]
    refine ⟨_, rfl, ?_⟩
    have isInput := filled_of_content present
    simp only [isFlac, false_imp_iff, and_true]
    by_cases aliased : outputOf path decryption.extension = absolutePath path
    · have notUnwrapped : outputOf path decryption.extension ≠ outputOf path ".flac" := by
        rw [aliased]
        exact Ne.symm (outputOf_flac_ne container)
      rw [aliased] at isFilled
      simp only [aliased, true_imp_iff]
      constructor
      · intro keeps
        by_contra lost
        rw [not_or, Bool.not_eq_false] at lost
        have playable := keeps.playable (isInput.mpr lost.2)
        simp [lost.1, filled] at playable
      · intro spares
        refine ⟨?_, fun same => absurd (aliased.trans same) moved, fun _ same =>
          absurd (aliased.trans same) notUnwrapped⟩
        intro playable
        rcases spares with kept | empty
        · simpa [kept] using isFilled
        · exact absurd empty (isInput.mp playable)
    · have final : filled (written.delete (absolutePath path) answers.decrypt.remove)
          (outputOf path decryption.extension) = true := by
        unfold filled at isFilled ⊢
        rw [Files.delete_other _ aliased]
        exact isFilled
      simp only [aliased, false_imp_iff, iff_true]
      refine ⟨?_, fun same => absurd same moved, ?_⟩
      · intro _
        rw [absolutePath_outputOf]
        exact final
      · intro _ _
        left
        obtain ⟨_, there, _⟩ := filled_iff.mp final
        simp only [there]
        rfl

theorem finalize_of_handled (result : DownloadResult)
    (container : looksLikeMp4Container (result.filePath.getD "") = true)
    (present : disk (absolutePath (result.filePath.getD "")) = some content) :
    KeepsAudio disk (result.filePath.getD "") (finalize answers disk (some result) request) ↔
      Spares answers disk (result.filePath.getD "")
        (Queue.Mp4FlacUnwrapper.decryption result) request content := by
  have named : result.filePath.getD "" ≠ "" := by
    intro nothing
    rw [nothing] at container
    exact absurd container (by decide)
  unfold finalize
  simp only [named, container, present, decide_false, Bool.not_true, Bool.or_self,
    Bool.false_eq_true, if_false, Option.isNone_some]
  generalize result.filePath.getD "" = path at *
  generalize Queue.Mp4FlacUnwrapper.decryption result = decryption
  by_cases works : decrypts path decryption = true ∧ answers.decrypt.works
      (outputOf path decryption.extension = absolutePath path) = true
  · obtain ⟨after, decrypted, keeps⟩ := keeps_of_decrypted answers request
      container present works.1 works.2
    rw [decrypted, keeps]
    have failsNot : ¬ (decrypts path decryption = true → answers.decrypt.works
        (outputOf path decryption.extension = absolutePath path) = false) := by
      intro fails
      rw [fails works.1] at works
      cases works.2
    constructor
    · intro spares
      refine ⟨fun _ _ => spares, ?_, fun fails => absurd fails failsNot,
        fun fails => absurd fails failsNot⟩
      intro _ fails
      rw [works.2] at fails
      cases fails
    · intro spares
      exact spares.decrypted works.1 works.2
  · have fails : decrypts path decryption = true → answers.decrypt.works
        (outputOf path decryption.extension = absolutePath path) = false := by
      intro tries
      rw [not_and] at works
      simpa using works tries
    obtain ⟨after, undecrypted, left, still⟩ := decrypt_of_fails request present fails
    rw [undecrypted]
    simp only
    rw [keeps_of_unwrapped container present left, still]
    constructor
    · rintro ⟨aliased, unwrapped, kept⟩
      exact ⟨fun tries isWorking => absurd ⟨tries, isWorking⟩ works,
        fun tries _ => aliased tries, fun _ => unwrapped, fun _ => kept⟩
    · intro spares
      exact ⟨fun tries => spares.aliased tries (fails tries), spares.unwrapped fails,
        spares.kept fails⟩

end Call

/-- The whole condition on a call: it concerns MP4 files that are there. -/
def SparesAll (answers : Answers) (disk : Disk) (result : Option DownloadResult)
    (request : Option TagRequest) : Prop :=
  ∀ res content, result = some res → looksLikeMp4Container (res.filePath.getD "") = true →
    disk (absolutePath (res.filePath.getD "")) = some content →
    Spares answers disk (res.filePath.getD "") (Queue.Mp4FlacUnwrapper.decryption res) request
      content

/-- A delivered file, and a file of the user under the name of its output. -/
def library : Disk := fun name =>
  if name = "/music/a.m4a" then some [1, 2]
  else if name = "/music/a.flac" then some [9]
  else none

/-- Every file operation succeeds and FFmpeg unwraps the file; the engine rejects it
when it is tagged first. -/
def permissive : Answers where
  decrypt := { clear := true, run := .failed none, discard := true, remove := true }
  codec := "flac"
  unwrap := { clear := true, run := .succeeded [3, 4], discard := true, remove := true }
  tag := { accepted := false, rewritten := none }
  repair :=
    { clear := true, run := .succeeded [3, 4, 5], discard := true, remove := true,
      swap := true, cleanUp := true }
  tagAgain := { accepted := true, rewritten := none }

end LosslessMusic.Finishing.Mp4FlacUnwrapper
