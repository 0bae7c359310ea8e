import LosslessMusic.Finishing.UnwrapperSafety

/-!
# The two finalizers of MP4 deliveries

`ContainerRemuxService.finalizeDownload` beside `Mp4FlacUnwrapper.finalize`, over the
same result map, the same file system and the same answers of FFmpeg.
-/

namespace LosslessMusic.Finishing

open Storage Queue

/-! ## Result maps -/

/-- A value of a result map: one that is no text counts by its text in each language. -/
inductive Value
  | null
  | text (chars : String)
  | other (dart kotlin : String)
  deriving DecidableEq, Repr

/-- `value?.toString()` in Dart. -/
def Value.dart? : Value → Option String
  | .null => none
  | .text chars => some chars
  | .other dart _ => some dart

/-- What `optString` gives for a value that is there. -/
def Value.kotlin : Value → String
  | .null => "null"
  | .text chars => chars
  | .other _ kotlin => kotlin

/-- The `decryption` object of a result map. -/
structure DecryptionMap where
  key : Option Value := none
  strategy : Option Value := none
  outputExtension : Option Value := none
  inputFormat : Option Value := none
  deriving DecidableEq, Repr

/-- What the finalizers read of a result map. A `decryption` that is no object is
missing for both. -/
structure ResultMap where
  filePath : Option Value := none
  decryption : Option DecryptionMap := none
  decryptionKey : Option Value := none
  outputExtension : Option Value := none
  deriving DecidableEq, Repr

/-- `.ifEmpty { ".flac" }.let { if (it.startsWith(".")) it else ".$it" }`. -/
def extensionOf (trimmed : String) : String :=
  let named := if trimmed = "" then ".flac" else trimmed
  if Text.startsWith named "." then named else "." ++ named

namespace ContainerRemuxService

/-- `field?.toString()`. -/
def read (field : Option Value) : Option String :=
  field.bind Value.dart?

/-- A field of the `decryption` object. -/
def readInfo (result : ResultMap) (field : DecryptionMap → Option Value) : Option String :=
  read (result.decryption.bind field)

/-- The path that `finalizeDownload` reads. -/
def pathOf (result : ResultMap) : String :=
  (read result.filePath).getD ""

/-- How `finalizeDownload` decrypts: a field that the `decryption` object lacks is looked
up beside it. -/
def decryptionOf (result : ResultMap) : Decryption where
  key :=
    Text.trimDart (((readInfo result DecryptionMap.key).or (read result.decryptionKey)).getD "")
  strategy := Text.toLowerCase (Text.trimDart ((readInfo result DecryptionMap.strategy).getD ""))
  extension := extensionOf (Text.trimDart
        (((readInfo result DecryptionMap.outputExtension).or (read result.outputExtension)).getD
          ""))
  demuxer :=
    let trimmed := Text.trimDart ((readInfo result DecryptionMap.inputFormat).getD "")
    if trimmed = "" then "mov" else trimmed

/-- `info!['input_format'] as String` throws. -/
def castThrows (result : ResultMap) : Bool :=
  match result.decryption.bind DecryptionMap.inputFormat with
  | some (.other dart _) => Text.trimDart dart ≠ ""
  | _ => false

end ContainerRemuxService

namespace Mp4FlacUnwrapper

/-- `optString(field)`. -/
def optString (field : Option Value) : String :=
  (field.map Value.kotlin).getD ""

/-- The path that `finalize` reads. -/
def pathOf (result : ResultMap) : String :=
  optString result.filePath

/-- How `decrypt` decrypts: with a `decryption` object, nothing beside it is read. -/
def decryptionOf (result : ResultMap) : Decryption where
  key := Text.strip (match result.decryption with
      | some info => optString info.key
      | none => optString result.decryptionKey)
  strategy :=
    Text.toLowerCase (Text.strip (optString (result.decryption.bind DecryptionMap.strategy)))
  extension := extensionOf (Text.strip (match result.decryption with
        | some info => optString info.outputExtension
        | none => optString result.outputExtension))
  demuxer :=
    let trimmed := Text.strip (optString (result.decryption.bind DecryptionMap.inputFormat))
    if trimmed = "" then "mov" else trimmed

end Mp4FlacUnwrapper

/-! ## Arguments of FFmpeg -/

/-- The arguments of a decryption. -/
def decryptArguments (decryption : Decryption) (path out : String) : List String :=
  ["-y", "-decryption_key", decryption.key, "-f", decryption.demuxer, "-i", path, "-map",
    "0:a:0", "-c", "copy", out]

/-- The arguments of `unwrapPlainFlac`. -/
def unwrapArguments (path out : String) : List String :=
  ["-y", "-i", path, "-map", "0:a:0", "-c:a", "flac", out]

/-- The arguments of `repair`. -/
def repairArguments (file : String) : List String :=
  ["-y", "-i", file, "-c:a", "flac", "-compression_level", "8", Mp4FlacUnwrapper.repairName file]

/-! ## The finalizers -/

namespace ContainerRemuxService

open Mp4FlacUnwrapper

/-- How `finalizeDownload` ends. -/
inductive Ending
  | returned (path : Option String)
  | threw
  deriving DecidableEq, Repr

/-- The file that is written. -/
def outputOf (result : ResultMap) : String :=
  Text.beforeLastDot (pathOf result) ++ (decryptionOf result).extension

/-- There is a key that FFmpeg can use, and another name for the output. -/
def decrypts (result : ResultMap) : Bool :=
  (decryptionOf result).key ≠ "" && (decryptionOf result).strategy ∈ movKeyStrategies &&
    outputOf result ≠ pathOf result

/-- `File(out).delete()` for a file that is there throws when it is refused. -/
def deleteOrThrow (disk : Disk) (out : String) (permitted : Bool) : Option Disk :=
  if (disk out).isNone then some disk
  else if permitted then some (disk.delete out true)
  else none

/-- `finalizeDownload` behind the tests of the path: how it ends, the runs of FFmpeg and
the files it leaves. -/
def remux (answers : Conversion) (disk : Disk) (result : ResultMap) :
    Ending × List (List String) × Disk :=
  let path := pathOf result
  let out := outputOf result
  let file := absolutePath out
  match deleteOrThrow disk file answers.clear with
  | none => (.threw, [], disk)
  | some disk =>
    if castThrows result then (.threw, [], disk)
    else
      let arguments := decryptArguments (decryptionOf result) path out
      match runFfmpeg answers.run disk (absolutePath path) file with
      | (ok, disk) =>
        if !ok || !filled disk file then
          match deleteOrThrow disk file answers.discard with
          | none => (.threw, [arguments], disk)
          | some disk => (.returned none, [arguments], disk)
        else
          (.returned (some out), [arguments], disk.delete (absolutePath path) answers.remove)

def finalizeDownload (answers : Answers) (disk : Disk) (result : ResultMap) :
    Ending × List (List String) × Disk :=
  let path := pathOf result
  if !looksLikeMp4Container path then (.returned none, [], disk)
  else if (disk (absolutePath path)).isNone then (.returned none, [], disk)
  else if !decrypts result then (.returned none, [], disk)
  else remux answers.decrypt disk result

end ContainerRemuxService

namespace Mp4FlacUnwrapper

/-- `finalize` of a result map. -/
def finalizeMap (answers : Answers) (disk : Disk) (result : ResultMap)
    (request : Option TagRequest) : String × Disk :=
  let path := pathOf result
  if path = "" || !looksLikeMp4Container path then (path, disk)
  else if (disk (absolutePath path)).isNone then (path, disk)
  else
    match decrypt answers disk path (decryptionOf result) request with
    | (some decrypted, disk) => (decrypted, disk)
    | (none, disk) => unwrapPlainFlac answers disk path request

/-- The runs of FFmpeg in `tagFlacWithRepair`. -/
def tagRuns (answers : Answers) (disk : Disk) (file : String) (request : Option TagRequest) :
    List (List String) :=
  match tagFlac answers.tag disk file request with
  | (true, _) => []
  | (false, _) => [repairArguments file]

/-- The runs of FFmpeg in `decrypt`. -/
def decryptRuns (answers : Answers) (disk : Disk) (path : String) (decryption : Decryption)
    (request : Option TagRequest) : List (List String) :=
  if !decrypts path decryption then []
  else
    let out := outputOf path decryption.extension
    decryptArguments decryption path out ::
      match convert answers.decrypt disk (absolutePath path) out with
      | (false, _) => []
      | (true, disk) =>
        if decryption.extension = ".flac" then tagRuns answers disk out request else []

/-- The runs of FFmpeg in `unwrapPlainFlac`. -/
def unwrapRuns (answers : Answers) (disk : Disk) (path : String)
    (request : Option TagRequest) : List (List String) :=
  if audioCodecOf answers disk path ≠ "flac" then []
  else
    let out := outputOf path ".flac"
    unwrapArguments path out ::
      match convert answers.unwrap disk (absolutePath path) out with
      | (false, _) => []
      | (true, disk) => tagRuns answers disk out request

/-- The runs of FFmpeg in `finalize`. -/
def finalizeRuns (answers : Answers) (disk : Disk) (result : ResultMap)
    (request : Option TagRequest) : List (List String) :=
  let path := pathOf result
  if path = "" || !looksLikeMp4Container path then []
  else if (disk (absolutePath path)).isNone then []
  else
    decryptRuns answers disk path (decryptionOf result) request ++
      match decrypt answers disk path (decryptionOf result) request with
      | (some _, _) => []
      | (none, disk) => unwrapRuns answers disk path request

end Mp4FlacUnwrapper

/-! ## Names of outputs -/

theorem squeeze_append_dot (front rest : List Char) :
    squeeze (front ++ '.' :: rest) = squeeze (front ++ ['.']) ++ squeeze rest := by
  induction front with
  | nil =>
    rw [List.nil_append, List.nil_append, squeeze_cons (by decide), squeeze_cons (by decide)]
    rfl
  | cons char others ih =>
    rw [List.cons_append, List.cons_append]
    by_cases slash : char = '/'
    · subst slash
      have kept := getLast?_squeeze (show '.' ≠ '/' by decide) others
      cases squeezed : squeeze (others ++ ['.']) with
      | nil =>
        rw [squeezed] at kept
        cases kept
      | cons next tail =>
        rw [squeezed, List.cons_append] at ih
        rw [squeeze_slash_cons ih, squeeze_slash_cons squeezed]
        split
        · rfl
        · rfl
    · rw [squeeze_cons slash, squeeze_cons slash, ih]
      rfl

theorem length_squeeze_le (name : List Char) : (squeeze name).length ≤ name.length := by
  induction name with
  | nil => exact Nat.le_refl 0
  | cons char rest ih =>
    by_cases slash : char = '/'
    · subst slash
      cases squeezed : squeeze rest with
      | nil =>
        rw [squeeze_slash_nil squeezed]
        exact Nat.zero_le _
      | cons next tail =>
        rw [squeezed] at ih
        rw [squeeze_slash_cons squeezed]
        simp only [List.length_cons] at ih ⊢
        split
        · simp only [List.length_cons]
          omega
        · simp only [List.length_cons]
          omega
    · rw [squeeze_cons slash]
      exact Nat.succ_le_succ ih

theorem squeeze_of_notMem (name : List Char) (plain : '/' ∉ name) : squeeze name = name := by
  induction name with
  | nil => rfl
  | cons char rest ih =>
    rw [List.mem_cons, not_or] at plain
    rw [squeeze_cons (Ne.symm plain.1), ih plain.2]

theorem eq_dot_of_mem_lowerChar (char : Char) (member : '.' ∈ Text.lowerChar char) :
    char = '.' := by
  unfold Text.lowerChar at member
  split at member
  next => exact absurd member (by decide)
  next =>
    split at member
    next => exact absurd member (by decide)
    next =>
      have same := List.mem_singleton.mp member
      unfold Char.toLower at same
      split at same
      next upper =>
        have value := congrArg (fun letter => letter.val.toNat) same
        have low := UInt32.le_iff_toNat_le.mp upper.1
        have high := UInt32.le_iff_toNat_le.mp upper.2
        simp only [UInt32.toNat_add] at value
        have codes : '.'.val.toNat = 46 ∧ 'A'.val.toNat = 65 ∧ 'Z'.val.toNat = 90 ∧
            ('a'.val - 'A'.val).toNat = 32 := by
          decide
        omega
      next => exact same.symm

theorem eq_behind_dot {front before tail last : List Char} (without : '.' ∉ tail)
    (withoutToo : '.' ∉ last) (same : front ++ '.' :: tail = before ++ '.' :: last) :
    tail = last := by
  have behind (text rest : List Char) (absent : '.' ∉ text) :
      ((rest ++ '.' :: text).reverse.takeWhile (· ≠ '.')) = text.reverse := by
    rw [List.reverse_append, List.reverse_cons, List.append_assoc, List.singleton_append,
      List.takeWhile_append_of_pos, List.takeWhile_cons_of_neg (by simp), List.append_nil]
    intro char member
    rw [List.mem_reverse] at member
    rw [decide_eq_true_eq]
    rintro rfl
    exact absent member
  have both := (behind tail front without).symm.trans
    ((congrArg (fun text => text.reverse.takeWhile (· ≠ '.')) same).trans
      (behind last before withoutToo))
  exact List.reverse_injective both

theorem split_container (path : String) (container : looksLikeMp4Container path = true) :
    ∃ tail, path.toList = (Text.beforeLastDot path).toList ++ '.' :: tail ∧ '/' ∉ tail := by
  obtain ⟨before, last, isLast, lower⟩ :
      ∃ before last, (last = ['m', '4', 'a'] ∨ last = ['m', 'p', '4']) ∧
        path.toList.flatMap Text.lowerChar = before ++ '.' :: last := by
    unfold looksLikeMp4Container Text.endsWith Text.toLowerCase at container
    simp only [Bool.and_eq_true, Bool.or_eq_true, List.isSuffixOf_iff_suffix,
      String.toList_ofList] at container
    rcases container.2 with ⟨before, equal⟩ | ⟨before, equal⟩
    · exact ⟨before, ['m', '4', 'a'], .inl rfl, equal.symm⟩
    · exact ⟨before, ['m', 'p', '4'], .inr rfl, equal.symm⟩
  have noDot (chars : List Char) (without : '.' ∉ chars) : '.' ∉ chars.flatMap Text.lowerChar := by
    intro member
    obtain ⟨char, inside, dot⟩ := List.mem_flatMap.mp member
    exact without (eq_dot_of_mem_lowerChar char dot ▸ inside)
  generalize isTail : path.toList.reverse.takeWhile (· ≠ '.') = tail
  have without : '.' ∉ tail.reverse := by
    rw [List.mem_reverse, ← isTail]
    intro member
    have contradiction := List.mem_takeWhile_imp member
    simp at contradiction
  have whole := (List.takeWhile_append_dropWhile (p := (· ≠ '.')) (l := path.toList.reverse))
  rw [isTail] at whole
  cases dropped : path.toList.reverse.dropWhile (· ≠ '.') with
  | nil =>
    rw [dropped, List.append_nil] at whole
    rw [← List.reverse_reverse path.toList, ← whole] at lower
    exact absurd (lower ▸ noDot _ without) (by simp)
  | cons dot front =>
    have isDot : dot = '.' := by
      have first := List.head?_dropWhile_not (· ≠ '.') path.toList.reverse
      rw [dropped] at first
      simpa using first
    subst isDot
    rw [dropped] at whole
    have isPath : path.toList = front.reverse ++ '.' :: tail.reverse := by
      rw [← List.reverse_reverse path.toList, ← whole]
      simp
    have isFront : (Text.beforeLastDot path).toList = front.reverse := by
      unfold Text.beforeLastDot
      rw [dropped, String.toList_ofList]
      rfl
    refine ⟨tail.reverse, by rw [isFront, isPath], ?_⟩
    have plainDot : Text.lowerChar '.' = ['.'] := by decide
    rw [isPath, List.flatMap_append, List.flatMap_cons, plainDot, List.singleton_append] at lower
    have lastDot : '.' ∉ last := by
      rcases isLast with rfl | rfl
      · decide
      · decide
    have same := eq_behind_dot (noDot _ without) lastDot lower
    intro slash
    have lowered : '/' ∈ tail.reverse.flatMap Text.lowerChar :=
      List.mem_flatMap.mpr ⟨'/', slash, by decide⟩
    rw [same] at lowered
    rcases isLast with rfl | rfl
    · exact absurd lowered (by decide)
    · exact absurd lowered (by decide)

theorem absolutePath_ne_output (path extension : String)
    (container : looksLikeMp4Container path = true)
    (dotted : ∃ rest, extension.toList = '.' :: rest) (absolute :
      absolutePath (Text.beforeLastDot path ++ extension) = Text.beforeLastDot path ++ extension)
    (differs : Text.beforeLastDot path ++ extension ≠ path) :
    Text.beforeLastDot path ++ extension ≠ absolutePath path := by
  intro same
  obtain ⟨tail, isPath, plain⟩ := split_container path container
  obtain ⟨rest, isExtension⟩ := dotted
  have output : (Text.beforeLastDot path ++ extension).toList =
      (Text.beforeLastDot path).toList ++ '.' :: rest := by
    rw [String.toList_append, isExtension]
  have rootedOutput := congrArg String.toList absolute
  have rootedPath := congrArg String.toList same
  rw [toList_absolutePath, output] at rootedOutput
  rw [toList_absolutePath, isPath, output] at rootedPath
  have distinct : (Text.beforeLastDot path).toList ++ '.' :: rest ≠
      (Text.beforeLastDot path).toList ++ '.' :: tail := by
    intro equal
    apply differs
    apply String.toList_injective
    rw [output, isPath, equal]
  generalize (Text.beforeLastDot path).toList = front at *
  -- The front is absolute and squeezed, and so is the path.
  cases front with
  | nil =>
    rw [List.nil_append, squeeze_cons (by decide)] at rootedOutput
    unfold rooted at rootedOutput
    simp at rootedOutput
  | cons first others =>
    rw [squeeze_append_dot] at rootedOutput rootedPath
    have bound := length_squeeze_le (first :: others ++ ['.'])
    have boundToo := length_squeeze_le rest
    cases squeezed : squeeze (first :: others ++ ['.']) with
    | nil =>
      have kept := getLast?_squeeze (show '.' ≠ '/' by decide) (first :: others)
      rw [squeezed] at kept
      cases kept
    | cons next body =>
      obtain rfl : next = first := squeeze_head squeezed
      rw [squeezed] at rootedOutput rootedPath
      simp only [List.cons_append] at rootedOutput rootedPath
      unfold rooted at rootedOutput rootedPath
      have slash : next = '/' := by
        by_contra other
        simp only [if_neg other] at rootedOutput
        exact other (List.cons.inj rootedOutput).1.symm
      simp only [if_pos slash] at rootedOutput rootedPath
      rw [squeezed] at bound
      have lengths := congrArg List.length rootedOutput
      simp only [List.length_cons, List.length_append, List.cons_append] at lengths bound
      have fronts : body = others ++ ['.'] := by
        have parts : body ++ squeeze rest = (others ++ ['.']) ++ rest := by
          rw [List.append_assoc]
          exact (List.cons.inj rootedOutput).2
        refine List.append_inj_left parts ?_
        rw [List.length_append]
        simp only [List.length_singleton, List.length_nil] at bound ⊢
        omega
      rw [squeeze_of_notMem tail plain, fronts, List.append_assoc] at rootedPath
      exact distinct rootedPath

end LosslessMusic.Finishing
