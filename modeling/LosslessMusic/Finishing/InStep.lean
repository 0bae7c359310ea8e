import LosslessMusic.Finishing.ContainerRemux

/-!
# When the two finalizers stay in step

The finalizers of Dart and of Kotlin end with the same path, the same runs of FFmpeg and
the same files exactly under a condition on the result map, the files and the answers
of FFmpeg.
-/

namespace LosslessMusic.Finishing

open Storage Queue

/-- Both finalizers choose the same path, run FFmpeg with the same arguments and leave
the same files; no path from the Dart side stands for the input. -/
def InStep (answers : Mp4FlacUnwrapper.Answers) (disk : Mp4FlacUnwrapper.Disk)
    (result : ResultMap) (request : Option Mp4FlacUnwrapper.TagRequest) : Prop :=
  match ContainerRemuxService.finalizeDownload answers disk result with
  | (.threw, _, _) => False
  | (.returned out, runs, left) =>
    out.getD (ContainerRemuxService.pathOf result) =
        (Mp4FlacUnwrapper.finalizeMap answers disk result request).1 ∧
      runs = Mp4FlacUnwrapper.finalizeRuns answers disk result request ∧
      ∀ file, (left file).isSome =
          ((Mp4FlacUnwrapper.finalizeMap answers disk result request).2 file).isSome

/-- Both sides read the same way to decrypt the file from a result map, and Dart can read
it at all. -/
structure ReadAlike (result : ResultMap) : Prop where
  usable : Mp4FlacUnwrapper.decrypts (Mp4FlacUnwrapper.pathOf result)
      (Mp4FlacUnwrapper.decryptionOf result) = true
  key : (ContainerRemuxService.decryptionOf result).key = (Mp4FlacUnwrapper.decryptionOf result).key
  demuxer : (ContainerRemuxService.decryptionOf result).demuxer =
      (Mp4FlacUnwrapper.decryptionOf result).demuxer
  output : ContainerRemuxService.outputOf result =
      Mp4FlacUnwrapper.outputOf (Mp4FlacUnwrapper.pathOf result)
        (Mp4FlacUnwrapper.decryptionOf result).extension
  castable : ContainerRemuxService.castThrows result = false

/-- A decryption is treated alike: nothing that Dart has to delete is refused, a failure
leaves nothing that Kotlin unwraps, and a decrypted FLAC file is tagged at once. -/
structure DecryptedAlike (answers : Mp4FlacUnwrapper.Answers) (disk : Mp4FlacUnwrapper.Disk)
    (result : ResultMap) (request : Option Mp4FlacUnwrapper.TagRequest) : Prop where
  cleared : (disk (absolutePath (ContainerRemuxService.outputOf result))).isSome = true →
      answers.decrypt.clear = true
  succeeded : answers.decrypt.run.fills = true →
      (Mp4FlacUnwrapper.decryptionOf result).extension = ".flac" →
        Mp4FlacUnwrapper.accepts answers.tag request = true
  failed : answers.decrypt.run.fills = false → answers.codec ≠ "flac" ∧
        (answers.decrypt.run.written.isSome = true → answers.decrypt.discard = true)

/-- The finalizers read the same path, and a delivered MP4 file is either decrypted
alike or left alone by both. -/
def Aligned (answers : Mp4FlacUnwrapper.Answers) (disk : Mp4FlacUnwrapper.Disk)
    (result : ResultMap) (request : Option Mp4FlacUnwrapper.TagRequest) : Prop :=
  ContainerRemuxService.pathOf result = Mp4FlacUnwrapper.pathOf result ∧
    (looksLikeMp4Container (ContainerRemuxService.pathOf result) = true →
      (disk (absolutePath (ContainerRemuxService.pathOf result))).isSome = true →
        if ContainerRemuxService.decrypts result then
          ReadAlike result ∧ DecryptedAlike answers disk result request
        else
          Mp4FlacUnwrapper.decrypts (Mp4FlacUnwrapper.pathOf result)
              (Mp4FlacUnwrapper.decryptionOf result) = false ∧
            answers.codec ≠ "flac")

section Call

variable {answers : Mp4FlacUnwrapper.Answers} {disk : Mp4FlacUnwrapper.Disk}
  {result : ResultMap} {request : Option Mp4FlacUnwrapper.TagRequest}

/-! ## Runs of FFmpeg -/

theorem decryptArguments_injective (decryption other : Decryption)
    (path out pathToo outToo : String)
    (same : decryptArguments decryption path out = decryptArguments other pathToo outToo) :
    decryption.key = other.key ∧ decryption.demuxer = other.demuxer ∧ path = pathToo ∧
      out = outToo := by
  simpa [decryptArguments] using same

theorem decryptArguments_ne_unwrapArguments (decryption : Decryption)
    (path out pathToo outToo : String) :
    decryptArguments decryption path out ≠ unwrapArguments pathToo outToo := by
  simp [decryptArguments, unwrapArguments]

namespace Mp4FlacUnwrapper

variable (answers request)

/-- A file that is no MP4 file that is there is left alone. -/
theorem finalizeMap_unhandled (unhandled : ¬ (looksLikeMp4Container (pathOf result) = true ∧
        (disk (absolutePath (pathOf result))).isSome = true)) :
    finalizeMap answers disk result request = (pathOf result, disk) ∧
      finalizeRuns answers disk result request = [] := by
  unfold finalizeMap finalizeRuns
  by_cases container : looksLikeMp4Container (pathOf result) = true
  · have missing : (disk (absolutePath (pathOf result))).isNone = true := by
      rw [Option.isNone_iff_eq_none]
      cases there : disk (absolutePath (pathOf result)) with
      | none => rfl
      | some content => exact absurd ⟨container, by rw [there]; rfl⟩ unhandled
    simp [missing]
  · simp [container]

/-- An MP4 file that is there is decrypted, and unwrapped if that does not succeed. -/
theorem finalizeMap_handled (container : looksLikeMp4Container (pathOf result) = true)
    (present : (disk (absolutePath (pathOf result))).isSome = true) :
    finalizeMap answers disk result request =
        (match decrypt answers disk (pathOf result) (decryptionOf result) request with
        | (some decrypted, disk) => (decrypted, disk)
        | (none, disk) => unwrapPlainFlac answers disk (pathOf result) request) ∧
      finalizeRuns answers disk result request =
        decryptRuns answers disk (pathOf result) (decryptionOf result) request ++
          match decrypt answers disk (pathOf result) (decryptionOf result) request with
          | (some _, _) => []
          | (none, disk) => unwrapRuns answers disk (pathOf result) request := by
  have filled : pathOf result ≠ "" := by
    intro nothing
    rw [nothing] at container
    exact absurd container (by decide)
  have there : (disk (absolutePath (pathOf result))).isNone = false := by
    rw [← Option.not_isSome, present]
    rfl
  unfold finalizeMap finalizeRuns
  simp only [filled, container, there, Bool.not_true, Bool.or_false, decide_false,
    Bool.false_eq_true, if_false]
  generalize decrypt answers disk (pathOf result) (decryptionOf result) request = found
  exact ⟨by trivial, by trivial⟩

theorem finalizeMap_keyless (container : looksLikeMp4Container (pathOf result) = true)
    (present : (disk (absolutePath (pathOf result))).isSome = true)
    (keyless : decrypts (pathOf result) (decryptionOf result) = false) :
    finalizeMap answers disk result request = unwrapPlainFlac answers disk (pathOf result) request ∧
      finalizeRuns answers disk result request =
        unwrapRuns answers disk (pathOf result) request := by
  obtain ⟨ends, runs⟩ := finalizeMap_handled answers request container present
  rw [ends, runs]
  unfold decrypt decryptRuns
  simp [keyless]

theorem head_finalizeRuns (container : looksLikeMp4Container (pathOf result) = true)
    (present : (disk (absolutePath (pathOf result))).isSome = true)
    (keyed : decrypts (pathOf result) (decryptionOf result) = true) :
    ∃ others, finalizeRuns answers disk result request =
        decryptArguments (decryptionOf result) (pathOf result)
          (outputOf (pathOf result) (decryptionOf result).extension) :: others := by
  have runs := (finalizeMap_handled answers request container present).2
  rw [runs]
  unfold decryptRuns
  simp only [keyed, Bool.not_true, Bool.false_eq_true, if_false, List.cons_append]
  exact ⟨_, rfl⟩

/-- The files behind a run whose output was cleared. -/
def behindRun (answers : Conversion) (disk : Disk) (out : String) : Disk :=
  answers.run.onto (disk.delete out answers.clear) out

theorem finalizeMap_filled (container : looksLikeMp4Container (pathOf result) = true)
    (present : (disk (absolutePath (pathOf result))).isSome = true)
    (keyed : decrypts (pathOf result) (decryptionOf result) = true) (distinct :
      outputOf (pathOf result) (decryptionOf result).extension ≠ absolutePath (pathOf result))
    (fills : answers.decrypt.run.fills = true) :
    let out := outputOf (pathOf result) (decryptionOf result).extension
    let left :=
      (behindRun answers.decrypt disk out).delete (absolutePath (pathOf result))
        answers.decrypt.remove
    finalizeMap answers disk result request = (out,
          if (decryptionOf result).extension = ".flac" then
            tagFlacWithRepair answers left out request
          else left) ∧
      finalizeRuns answers disk result request =
        decryptArguments (decryptionOf result) (pathOf result) out ::
          if (decryptionOf result).extension = ".flac" then tagRuns answers left out request
          else [] := by
  intro out left
  have converted : convert answers.decrypt disk (absolutePath (pathOf result)) out =
      (true, left) := by
    rw [convert_present (by rw [cleared_input present]; simp [out, distinct]), fills]
    rfl
  obtain ⟨ends, runs⟩ := finalizeMap_handled answers request container present
  rw [ends, runs]
  unfold decrypt decryptRuns
  simp only [keyed, Bool.not_true, Bool.false_eq_true, if_false]
  rw [show outputOf (pathOf result) (decryptionOf result).extension = out from rfl, converted]
  simp

theorem finalizeMap_unfilled (container : looksLikeMp4Container (pathOf result) = true)
    (present : (disk (absolutePath (pathOf result))).isSome = true)
    (keyed : decrypts (pathOf result) (decryptionOf result) = true) (distinct :
      outputOf (pathOf result) (decryptionOf result).extension ≠ absolutePath (pathOf result))
    (fails : answers.decrypt.run.fills = false) :
    let out := outputOf (pathOf result) (decryptionOf result).extension
    let left := (behindRun answers.decrypt disk out).delete out answers.decrypt.discard
    finalizeMap answers disk result request = unwrapPlainFlac answers left (pathOf result) request ∧
      finalizeRuns answers disk result request =
        decryptArguments (decryptionOf result) (pathOf result) out ::
          unwrapRuns answers left (pathOf result) request := by
  intro out left
  have converted : convert answers.decrypt disk (absolutePath (pathOf result)) out =
      (false, left) := by
    rw [convert_present (by rw [cleared_input present]; simp [out, distinct]), fails]
    rfl
  obtain ⟨ends, runs⟩ := finalizeMap_handled answers request container present
  rw [ends, runs]
  unfold decrypt decryptRuns
  simp only [keyed, Bool.not_true, Bool.false_eq_true, if_false]
  rw [show outputOf (pathOf result) (decryptionOf result).extension = out from rfl, converted]
  simp

theorem unwrapPlainFlac_other (path : String) (other : audioCodecOf answers disk path ≠ "flac") :
    unwrapPlainFlac answers disk path request = (path, disk) ∧
      unwrapRuns answers disk path request = [] := by
  unfold unwrapPlainFlac unwrapRuns
  rw [if_pos other, if_pos other]
  exact ⟨rfl, rfl⟩

theorem unwrapRuns_flac (path : String) (flac : audioCodecOf answers disk path = "flac") : ∃ others,
      unwrapRuns answers disk path request =
        unwrapArguments path (outputOf path ".flac") :: others := by
  unfold unwrapRuns
  rw [if_neg (fun other => other flac)]
  exact ⟨_, rfl⟩

end Mp4FlacUnwrapper

variable {out : Option String} {runs : List (List String)}

namespace ContainerRemuxService

open Mp4FlacUnwrapper

variable (answers)

/-- A deletion throws when the file is there and the deletion is refused. -/
theorem deleteOrThrow_eq (out : String) (permitted : Bool) : deleteOrThrow disk out permitted =
      if (disk out).isSome = true ∧ permitted = false then none
      else some (disk.delete out permitted) := by
  unfold deleteOrThrow
  cases there : disk out with
  | none =>
    have same : disk.delete out permitted = disk := by
      unfold Files.delete
      split
      · rw [← there, Function.update_eq_self]
      · rfl
    simp [same]
  | some content =>
    cases permitted with
    | true => simp
    | false => simp

/-- What is no MP4 file that is there, or has no usable key, is left alone. -/
theorem finalizeDownload_unhandled (unhandled : ¬ (looksLikeMp4Container (pathOf result) = true ∧
        (disk (absolutePath (pathOf result))).isSome = true ∧ decrypts result = true)) :
    finalizeDownload answers disk result = (.returned none, [], disk) := by
  unfold finalizeDownload
  by_cases container : looksLikeMp4Container (pathOf result) = true
  · cases there : disk (absolutePath (pathOf result)) with
    | none => simp [there]
    | some content =>
      cases keyed : decrypts result with
      | false => simp
      | true => exact absurd ⟨container, by rw [there]; rfl, keyed⟩ unhandled
  · simp [container]

theorem outputOf_ne_of_decrypts (keyed : decrypts result = true) :
    outputOf result ≠ pathOf result := by
  unfold decrypts at keyed
  exact of_decide_eq_true (Bool.and_elim_right keyed)

theorem finalizeDownload_keyed (container : looksLikeMp4Container (pathOf result) = true)
    (present : (disk (absolutePath (pathOf result))).isSome = true)
    (keyed : decrypts result = true) :
    finalizeDownload answers disk result = remux answers.decrypt disk result := by
  have there : (disk (absolutePath (pathOf result))).isNone = false := by
    rw [← Option.not_isSome, present]
    rfl
  unfold finalizeDownload
  simp [container, there, keyed]

theorem runs_of_remux {answers : Conversion}
    {left : Disk} (ended : remux answers disk result = (.returned out, runs, left)) :
    castThrows result = false ∧
      ((disk (absolutePath (outputOf result))).isSome = true → answers.clear = true) ∧
      runs = [decryptArguments (decryptionOf result) (pathOf result) (outputOf result)] := by
  unfold remux at ended
  simp only [deleteOrThrow_eq] at ended
  by_cases refused : (disk (absolutePath (outputOf result))).isSome = true ∧ answers.clear = false
  · rw [if_pos refused] at ended
    cases ended
  · rw [if_neg refused] at ended
    have cleared : (disk (absolutePath (outputOf result))).isSome = true → answers.clear = true := by
      intro there
      cases isClear : answers.clear with
      | true => rfl
      | false => exact absurd ⟨there, isClear⟩ refused
    cases castable : castThrows result with
    | true =>
      simp only [castable, if_true] at ended
      cases ended
    | false =>
      simp only [castable, Bool.false_eq_true, if_false] at ended
      refine ⟨rfl, cleared, ?_⟩
      split at ended
      · split at ended
        · cases ended
        · cases ended
          rfl
      · cases ended
        rfl

/-- A remuxing that may clear its output and cast its demuxer. -/
theorem remux_eq {answers : Conversion}
    (present : (disk (absolutePath (pathOf result))).isSome = true)
    (distinct : absolutePath (outputOf result) ≠ absolutePath (pathOf result))
    (castable : castThrows result = false)
    (cleared : (disk (absolutePath (outputOf result))).isSome = true → answers.clear = true) :
    let file := absolutePath (outputOf result)
    let arguments := decryptArguments (decryptionOf result) (pathOf result) (outputOf result)
    remux answers disk result =
      if answers.run.fills then
        (.returned (some (outputOf result)), [arguments],
          (behindRun answers disk file).delete (absolutePath (pathOf result)) answers.remove)
      else if answers.run.written.isSome = true ∧ answers.discard = false then
        (.threw, [arguments], behindRun answers disk file)
      else (.returned none, [arguments], (behindRun answers disk file).delete file answers.discard)
    := by
  intro file arguments
  have notRefused : ¬ ((disk file).isSome = true ∧ answers.clear = false) := by
    rintro ⟨there, refused⟩
    rw [cleared there] at refused
    cases refused
  have input : ((disk.delete file answers.clear) (absolutePath (pathOf result))).isSome = true := by
    rw [Files.delete_other disk (Ne.symm distinct)]
    exact present
  have ran := runFfmpeg_present answers.run file input
  have tested : (answers.run.ok && filled (behindRun answers disk file) file) = answers.run.fills :=
    answers.run.ok_and_filled (disk.delete file answers.clear) file
  have nothing : (disk.delete file answers.clear) file = none :=
    Files.delete_cleared disk answers.clear cleared
  have leaves : (behindRun answers disk file file).isSome = answers.run.written.isSome := by
    unfold behindRun
    rw [Run.onto_output, nothing, Option.or_none]
  have left : answers.run.onto (disk.delete file answers.clear) file =
      behindRun answers disk file := rfl
  unfold remux
  simp only [deleteOrThrow_eq]
  rw [if_neg notRefused]
  simp only [castable, Bool.false_eq_true, if_false]
  rw [show absolutePath (outputOf result) = file from rfl, ran]
  simp only [← Bool.not_and, left, tested, leaves]
  cases answers.run.fills with
  | true => rfl
  | false =>
    simp only [Bool.not_false, if_true, Bool.false_eq_true, if_false]
    by_cases kept : answers.run.written.isSome = true ∧ answers.discard = false
    · rw [if_pos kept, if_pos kept]
    · rw [if_neg kept, if_neg kept]

end ContainerRemuxService

/-! ## Both sides -/

theorem extensionOf_dotted (trimmed : String) :
    ∃ rest, (extensionOf trimmed).toList = '.' :: rest := by
  unfold extensionOf
  generalize (if trimmed = "" then ".flac" else trimmed) = named
  by_cases dotted : Text.startsWith named "." = true
  · simp only [dotted, if_true]
    unfold Text.startsWith at dotted
    rw [List.isPrefixOf_iff_prefix] at dotted
    obtain ⟨rest, whole⟩ := dotted
    exact ⟨rest, whole.symm⟩
  · simp only [dotted, Bool.false_eq_true, if_false]
    rw [String.toList_append]
    exact ⟨named.toList, rfl⟩

/-- What the first run of FFmpeg in Kotlin is, if there is one. -/
theorem finalizeRuns_cases (answers : Mp4FlacUnwrapper.Answers) (disk : Mp4FlacUnwrapper.Disk)
    (result : ResultMap) (request : Option Mp4FlacUnwrapper.TagRequest) :
    (Mp4FlacUnwrapper.finalizeRuns answers disk result request = [] ∧
        (Mp4FlacUnwrapper.finalizeMap answers disk result request).1 =
          Mp4FlacUnwrapper.pathOf result) ∨
      (∃ decryption out others, Mp4FlacUnwrapper.finalizeRuns answers disk result request =
          decryptArguments decryption (Mp4FlacUnwrapper.pathOf result) out :: others) ∨
      ∃ out others, Mp4FlacUnwrapper.finalizeRuns answers disk result request =
          unwrapArguments (Mp4FlacUnwrapper.pathOf result) out :: others := by
  by_cases handled : looksLikeMp4Container (Mp4FlacUnwrapper.pathOf result) = true ∧
      (disk (absolutePath (Mp4FlacUnwrapper.pathOf result))).isSome = true
  · cases keyed : Mp4FlacUnwrapper.decrypts (Mp4FlacUnwrapper.pathOf result)
        (Mp4FlacUnwrapper.decryptionOf result) with
    | true =>
      obtain ⟨others, runs⟩ := Mp4FlacUnwrapper.head_finalizeRuns answers
        request handled.1 handled.2 keyed
      exact .inr (.inl ⟨_, _, others, runs⟩)
    | false =>
      obtain ⟨ends, runs⟩ := Mp4FlacUnwrapper.finalizeMap_keyless answers
        request handled.1 handled.2 keyed
      by_cases flac : Mp4FlacUnwrapper.audioCodecOf answers disk
          (Mp4FlacUnwrapper.pathOf result) = "flac"
      · obtain ⟨others, first⟩ := Mp4FlacUnwrapper.unwrapRuns_flac answers request _ flac
        exact .inr (.inr ⟨_, others, runs.trans first⟩)
      · obtain ⟨left, none⟩ := Mp4FlacUnwrapper.unwrapPlainFlac_other answers request _ flac
        exact .inl ⟨runs.trans none, by rw [ends, left]⟩
  · obtain ⟨ends, runs⟩ := Mp4FlacUnwrapper.finalizeMap_unhandled answers request handled
    exact .inl ⟨runs, by rw [ends]⟩

theorem inStep_of_returned {left : Mp4FlacUnwrapper.Disk}
    (ended : ContainerRemuxService.finalizeDownload answers disk result =
      (.returned out, runs, left)) :
    InStep answers disk result request ↔ out.getD (ContainerRemuxService.pathOf result) =
          (Mp4FlacUnwrapper.finalizeMap answers disk result request).1 ∧
        runs = Mp4FlacUnwrapper.finalizeRuns answers disk result request ∧
        ∀ file, (left file).isSome =
            ((Mp4FlacUnwrapper.finalizeMap answers disk result request).2 file).isSome := by
  unfold InStep
  rw [ended]

variable (same : ContainerRemuxService.pathOf result = Mp4FlacUnwrapper.pathOf result)
    (container : looksLikeMp4Container (ContainerRemuxService.pathOf result) = true)
    (present : (disk (absolutePath (ContainerRemuxService.pathOf result))).isSome = true)
    (keyed : ContainerRemuxService.decrypts result = true)

include container present keyed in

/-- When Dart decrypts, finalizers in step run FFmpeg alike first. -/
theorem runs_of_inStep (inStep : InStep answers disk result request) :
    ContainerRemuxService.castThrows result = false ∧
      ((disk (absolutePath (ContainerRemuxService.outputOf result))).isSome = true →
        answers.decrypt.clear = true) ∧
      Mp4FlacUnwrapper.finalizeRuns answers disk result request =
        [decryptArguments (ContainerRemuxService.decryptionOf result)
          (ContainerRemuxService.pathOf result) (ContainerRemuxService.outputOf result)] := by
  have remuxed := ContainerRemuxService.finalizeDownload_keyed answers container present keyed
  cases ended : ContainerRemuxService.remux answers.decrypt disk result with
  | mk ending others =>
    cases others with
    | mk runs left =>
      rw [ended] at remuxed
      cases ending with
      | threw =>
        unfold InStep at inStep
        rw [remuxed] at inStep
        exact absurd inStep id
      | returned out =>
        have both := (inStep_of_returned remuxed).mp inStep
        have reads := ContainerRemuxService.runs_of_remux ended
        exact ⟨reads.1, reads.2.1, both.2.1.symm.trans reads.2.2⟩

theorem samePath_of_inStep (inStep : InStep answers disk result request) :
    ContainerRemuxService.pathOf result = Mp4FlacUnwrapper.pathOf result := by
  by_cases handled : looksLikeMp4Container (ContainerRemuxService.pathOf result) = true ∧
        (disk (absolutePath (ContainerRemuxService.pathOf result))).isSome = true ∧
        ContainerRemuxService.decrypts result = true
  · have runs := (runs_of_inStep handled.1 handled.2.1 handled.2.2 inStep).2.2
    rcases finalizeRuns_cases answers disk result request with ⟨nothing, _⟩ | ⟨_, _, _, decrypted⟩ | ⟨_, _, unwrapped⟩
    · rw [nothing] at runs
      cases runs
    · rw [decrypted] at runs
      exact (decryptArguments_injective _ _ _ _ _ _ (List.cons.inj runs).1).2.2.1.symm
    · rw [unwrapped] at runs
      exact absurd (List.cons.inj runs).1.symm (decryptArguments_ne_unwrapArguments _ _ _ _ _)
  · have both := (inStep_of_returned
      (ContainerRemuxService.finalizeDownload_unhandled answers handled)).mp inStep
    rcases finalizeRuns_cases answers disk result request with ⟨_, same⟩ | ⟨_, _, _, decrypted⟩ | ⟨_, _, unwrapped⟩
    · exact both.1.trans same
    · rw [decrypted] at both
      cases both.2.1
    · rw [unwrapped] at both
      cases both.2.1

include same container present in

theorem inStep_iff_of_keyless (keyless : ContainerRemuxService.decrypts result = false) :
    InStep answers disk result request ↔ Mp4FlacUnwrapper.decrypts (Mp4FlacUnwrapper.pathOf result)
          (Mp4FlacUnwrapper.decryptionOf result) = false ∧
        answers.codec ≠ "flac" := by
  rw [inStep_of_returned (ContainerRemuxService.finalizeDownload_unhandled answers
    (fun handled => by rw [keyless] at handled; cases handled.2.2))]
  rw [same] at container present
  have codec : Mp4FlacUnwrapper.audioCodecOf answers disk (Mp4FlacUnwrapper.pathOf result) =
      answers.codec := by
    unfold Mp4FlacUnwrapper.audioCodecOf
    rw [if_pos present]
  cases usable : Mp4FlacUnwrapper.decrypts (Mp4FlacUnwrapper.pathOf result)
      (Mp4FlacUnwrapper.decryptionOf result) with
  | true =>
    have runs := Mp4FlacUnwrapper.head_finalizeRuns answers request container present usable
    constructor
    · intro both
      obtain ⟨others, first⟩ := runs
      rw [first] at both
      cases both.2.1
    · intro claimed
      cases claimed.1
  | false =>
    obtain ⟨ends, runs⟩ := Mp4FlacUnwrapper.finalizeMap_keyless answers
      request container present usable
    rw [ends, runs, ← codec]
    constructor
    · intro both
      refine ⟨rfl, fun flac => ?_⟩
      obtain ⟨others, first⟩ := Mp4FlacUnwrapper.unwrapRuns_flac answers request _ flac
      rw [first] at both
      cases both.2.1
    · intro claimed
      obtain ⟨left, none⟩ := Mp4FlacUnwrapper.unwrapPlainFlac_other answers request _ claimed.2
      rw [left, none]
      exact ⟨same, rfl, fun file => rfl⟩

include same container present keyed in

theorem readAlike_of_inStep (inStep : InStep answers disk result request) : ReadAlike result := by
  obtain ⟨castable, _, runs⟩ := runs_of_inStep container present keyed inStep
  rw [same] at container present
  cases usable : Mp4FlacUnwrapper.decrypts (Mp4FlacUnwrapper.pathOf result)
      (Mp4FlacUnwrapper.decryptionOf result) with
  | true =>
    obtain ⟨others, first⟩ := Mp4FlacUnwrapper.head_finalizeRuns answers
      request container present usable
    rw [first] at runs
    obtain ⟨key, demuxer, _, output⟩ :=
      decryptArguments_injective _ _ _ _ _ _ (List.cons.inj runs).1
    exact ⟨usable, key.symm, demuxer.symm, output.symm, castable⟩
  | false =>
    obtain ⟨_, keyless⟩ := Mp4FlacUnwrapper.finalizeMap_keyless answers
      request container present usable
    rw [keyless] at runs
    by_cases flac : Mp4FlacUnwrapper.audioCodecOf answers disk
        (Mp4FlacUnwrapper.pathOf result) = "flac"
    · obtain ⟨others, first⟩ := Mp4FlacUnwrapper.unwrapRuns_flac answers request _ flac
      rw [first] at runs
      exact absurd (List.cons.inj runs).1.symm (decryptArguments_ne_unwrapArguments _ _ _ _ _)
    · rw [(Mp4FlacUnwrapper.unwrapPlainFlac_other answers request _ flac).2] at runs
      cases runs

include container keyed in

/-- A file that is read alike is decrypted into another file. -/
theorem distinct_of_readAlike (reads : ReadAlike result) :
    absolutePath (ContainerRemuxService.outputOf result) = ContainerRemuxService.outputOf result ∧
      ContainerRemuxService.outputOf result ≠
        absolutePath (ContainerRemuxService.pathOf result) := by
  have absolute : absolutePath (ContainerRemuxService.outputOf result) =
      ContainerRemuxService.outputOf result := by
    rw [reads.output]
    unfold Mp4FlacUnwrapper.outputOf
    rw [absolutePath_absolutePath]
  have differs := ContainerRemuxService.outputOf_ne_of_decrypts keyed
  have dotted : ∃ rest,
      (ContainerRemuxService.decryptionOf result).extension.toList = '.' :: rest := by
    unfold ContainerRemuxService.decryptionOf
    dsimp only
    exact extensionOf_dotted _
  unfold ContainerRemuxService.outputOf at absolute differs ⊢
  exact ⟨absolute, absolutePath_ne_output _ _ container dotted absolute differs⟩

namespace Mp4FlacUnwrapper

theorem filled_behindRun (disk : Disk) {conversion : Conversion} {input out : String}
    (distinct : out ≠ input) (fills : conversion.run.fills = true) :
    filled ((behindRun conversion disk out).delete input conversion.remove) out = true := by
  have counted := conversion.run.ok_and_filled (disk.delete out conversion.clear) out
  rw [fills, Bool.and_eq_true] at counted
  have same : ((behindRun conversion disk out).delete input conversion.remove) out =
      (behindRun conversion disk out) out := Files.delete_other _ distinct _
  unfold filled
  rw [same]
  exact counted.2

theorem present_behindRun (conversion : Conversion) {input out : String} (distinct : out ≠ input)
    (present : (disk input).isSome = true) :
    (((behindRun conversion disk out).delete out conversion.discard) input).isSome = true := by
  unfold behindRun
  rw [Files.delete_other _ (Ne.symm distinct), Run.onto_other _ (Ne.symm distinct),
    Files.delete_other _ (Ne.symm distinct)]
  exact present

theorem tagFlacWithRepair_accepted {file : String} (there : filled disk file = true)
    (accepted : accepts answers.tag request = true) :
    tagRuns answers disk file request = [] ∧
      ∀ name, ((tagFlacWithRepair answers disk file request) name).isSome = (disk name).isSome := by
  obtain ⟨left, tagged, still, others⟩ := tagFlac_filled answers.tag request there
  rw [accepted] at tagged
  unfold tagRuns tagFlacWithRepair
  rw [tagged]
  refine ⟨rfl, fun name => ?_⟩
  by_cases same : name = file
  · obtain ⟨before, isBefore, _⟩ := filled_iff.mp there
    obtain ⟨behind, isBehind, _⟩ := filled_iff.mp still
    simp [same, isBefore, isBehind]
  · simp [others name same]

theorem tagRuns_refused {file : String} (there : filled disk file = true)
    (refused : accepts answers.tag request = false) :
    tagRuns answers disk file request = [repairArguments file] := by
  obtain ⟨left, tagged, _, _⟩ := tagFlac_filled answers.tag request there
  rw [refused] at tagged
  unfold tagRuns
  rw [tagged]

end Mp4FlacUnwrapper

theorem decryptArguments_of_readAlike
    (same : ContainerRemuxService.pathOf result = Mp4FlacUnwrapper.pathOf result)
    (reads : ReadAlike result) :
    decryptArguments (ContainerRemuxService.decryptionOf result)
        (ContainerRemuxService.pathOf result) (ContainerRemuxService.outputOf result) =
      decryptArguments (Mp4FlacUnwrapper.decryptionOf result) (Mp4FlacUnwrapper.pathOf result)
        (ContainerRemuxService.outputOf result) := by
  unfold decryptArguments
  rw [reads.key, reads.demuxer, same]

include same container present keyed in

/-- When both sides read the same way to decrypt and the run fills its output, they are
in step unless a FLAC file is repaired. -/
theorem inStep_iff_of_filled (reads : ReadAlike result)
    (cleared : (disk (absolutePath (ContainerRemuxService.outputOf result))).isSome = true →
        answers.decrypt.clear = true)
    (fills : answers.decrypt.run.fills = true) :
    InStep answers disk result request ↔
      ((Mp4FlacUnwrapper.decryptionOf result).extension = ".flac" →
        Mp4FlacUnwrapper.accepts answers.tag request = true) := by
  obtain ⟨absolute, distinct⟩ := distinct_of_readAlike container keyed reads
  have remuxed := (ContainerRemuxService.finalizeDownload_keyed answers
    container present keyed).trans
      (ContainerRemuxService.remux_eq present (by rw [absolute]; exact distinct)
        reads.castable cleared)
  rw [if_pos fills, absolute] at remuxed
  rw [inStep_of_returned remuxed]
  have there := Mp4FlacUnwrapper.filled_behindRun disk distinct fills
  rw [decryptArguments_of_readAlike same reads]
  rw [same] at container present distinct there
  rw [reads.output] at distinct there
  obtain ⟨ends, runs⟩ := Mp4FlacUnwrapper.finalizeMap_filled answers
    request container present reads.usable distinct fills
  rw [ends, runs, same, reads.output]
  generalize (Mp4FlacUnwrapper.behindRun answers.decrypt disk
    (Mp4FlacUnwrapper.outputOf (Mp4FlacUnwrapper.pathOf result)
      (Mp4FlacUnwrapper.decryptionOf result).extension)).delete
        (absolutePath (Mp4FlacUnwrapper.pathOf result)) answers.decrypt.remove = left at there ⊢
  by_cases flac : (Mp4FlacUnwrapper.decryptionOf result).extension = ".flac"
  · simp only [if_pos flac]
    cases accepted : Mp4FlacUnwrapper.accepts answers.tag request with
    | true =>
      obtain ⟨quiet, kept⟩ := Mp4FlacUnwrapper.tagFlacWithRepair_accepted there accepted
      rw [quiet]
      exact ⟨fun _ _ => rfl, fun _ => ⟨rfl, rfl, fun file => (kept file).symm⟩⟩
    | false =>
      rw [Mp4FlacUnwrapper.tagRuns_refused there accepted]
      constructor
      · intro both
        cases (List.cons.inj both.2.1).2
      · intro claimed
        cases claimed flac
  · simp only [if_neg flac]
    exact ⟨fun _ isFlac => absurd isFlac flac, fun _ => ⟨rfl, trivial, fun _ => trivial⟩⟩

include same container present keyed in

/-- When both sides read the same way to decrypt and the run fails, they are in step
unless Dart throws or Kotlin unwraps. -/
theorem inStep_iff_of_unfilled (reads : ReadAlike result)
    (cleared : (disk (absolutePath (ContainerRemuxService.outputOf result))).isSome = true →
        answers.decrypt.clear = true)
    (fails : answers.decrypt.run.fills = false) :
    InStep answers disk result request ↔ answers.codec ≠ "flac" ∧
        (answers.decrypt.run.written.isSome = true → answers.decrypt.discard = true) := by
  obtain ⟨absolute, distinct⟩ := distinct_of_readAlike container keyed reads
  have remuxed := (ContainerRemuxService.finalizeDownload_keyed answers
    container present keyed).trans
      (ContainerRemuxService.remux_eq present (by rw [absolute]; exact distinct)
        reads.castable cleared)
  rw [fails, if_neg Bool.false_ne_true, absolute] at remuxed
  by_cases kept : answers.decrypt.run.written.isSome = true ∧ answers.decrypt.discard = false
  · rw [if_pos kept] at remuxed
    unfold InStep
    rw [remuxed]
    constructor
    · intro impossible
      exact absurd impossible id
    · intro claimed
      rw [claimed.2 kept.1] at kept
      cases kept.2
  · rw [if_neg kept] at remuxed
    rw [inStep_of_returned remuxed]
    have discarded : answers.decrypt.run.written.isSome = true →
        answers.decrypt.discard = true := by
      intro written
      cases isDiscarded : answers.decrypt.discard with
      | true => rfl
      | false => exact absurd ⟨written, isDiscarded⟩ kept
    rw [decryptArguments_of_readAlike same reads]
    have there := Mp4FlacUnwrapper.present_behindRun answers.decrypt distinct present
    rw [same] at container present distinct there
    rw [reads.output] at distinct there
    obtain ⟨ends, runs⟩ := Mp4FlacUnwrapper.finalizeMap_unfilled answers
      request container present reads.usable distinct fails
    rw [ends, runs, same, reads.output]
    generalize (Mp4FlacUnwrapper.behindRun answers.decrypt disk
      (Mp4FlacUnwrapper.outputOf (Mp4FlacUnwrapper.pathOf result)
        (Mp4FlacUnwrapper.decryptionOf result).extension)).delete
          (Mp4FlacUnwrapper.outputOf (Mp4FlacUnwrapper.pathOf result)
            (Mp4FlacUnwrapper.decryptionOf result).extension) answers.decrypt.discard = left
      at there ⊢
    have codec : Mp4FlacUnwrapper.audioCodecOf answers left (Mp4FlacUnwrapper.pathOf result) =
        answers.codec := by
      unfold Mp4FlacUnwrapper.audioCodecOf
      rw [if_pos there]
    rw [← codec]
    constructor
    · intro both
      refine ⟨fun flac => ?_, discarded⟩
      obtain ⟨others, first⟩ := Mp4FlacUnwrapper.unwrapRuns_flac answers request _ flac
      rw [first] at both
      cases (List.cons.inj both.2.1).2
    · intro claimed
      obtain ⟨ending, none⟩ := Mp4FlacUnwrapper.unwrapPlainFlac_other answers request _ claimed.1
      rw [ending, none]
      exact ⟨rfl, rfl, fun file => rfl⟩

include same container present keyed in

/-- When both sides read the same way to decrypt, they are in step exactly when the
decryption is treated alike. -/
theorem inStep_iff_of_readAlike (reads : ReadAlike result) :
    InStep answers disk result request ↔ DecryptedAlike answers disk result request := by
  cases fills : answers.decrypt.run.fills with
  | true =>
    constructor
    · intro inStep
      have cleared := (runs_of_inStep container present keyed inStep).2.1
      have tagged :=
        (inStep_iff_of_filled same container present keyed reads cleared fills).mp inStep
      refine ⟨cleared, fun _ => tagged, fun fails => ?_⟩
      rw [fills] at fails
      cases fails
    · intro alike
      exact (inStep_iff_of_filled same container present keyed reads alike.cleared fills).mpr
        (alike.succeeded fills)
  | false =>
    constructor
    · intro inStep
      have cleared := (runs_of_inStep container present keyed inStep).2.1
      have left :=
        (inStep_iff_of_unfilled same container present keyed reads cleared fills).mp inStep
      refine ⟨cleared, fun filled => ?_, fun _ => left⟩
      rw [fills] at filled
      cases filled
    · intro alike
      exact (inStep_iff_of_unfilled same container present keyed reads alike.cleared
        fills).mpr (alike.failed fills)

end Call

end LosslessMusic.Finishing
