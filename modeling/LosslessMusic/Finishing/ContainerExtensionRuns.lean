import LosslessMusic.Finishing.ContainerExtensionFix

/-!
# A renaming loses nothing

Whatever names other writers take, the call changes nothing until it moves the file to a
name that is free, and then the result names that file. Every name it gives up is taken for
good, so that it goes on only while names are taken. FLAC keeps its name, also behind an
ID3v2 tag.
-/

namespace LosslessMusic.Finishing.ContainerExtensionFix

open Storage
open Transition (Machine)

/-! ## FLAC -/

/-- An ID3v2 tag: the size is told in four times seven bits, and a footer by a flag. -/
def IsId3Tag (tag : Bytes) : Prop :=
  ∃ (major revision flags a b c d : UInt8) (body : Bytes) (footer : Bytes),
    tag = code 'I' :: code 'D' :: code '3' :: major :: revision :: flags :: a :: b :: c :: d ::
      (body ++ footer) ∧
    flags &&& 0x0f = 0 ∧ a < 128 ∧ b < 128 ∧ c < 128 ∧ d < 128 ∧
    body.length = ((a.toNat * 128 + b.toNat) * 128 + c.toNat) * 128 + d.toNat ∧
    footer.length = if flags &&& 0x10 = 0 then 0 else 10

/-- A FLAC stream, perhaps behind an ID3v2 tag. -/
def IsFlac (content : Bytes) : Prop :=
  ∃ tag audio, content = tag ++ ("fLaC".toList.map code ++ audio) ∧ (tag = [] ∨ IsId3Tag tag)

theorem shift_or {size : Nat} {byte : UInt8} (small : byte < 128) :
    (size <<< 7) ||| (byte.toNat &&& 0x7f) = size * 128 + byte.toNat := by
  have below : byte.toNat < 2 ^ 7 := UInt8.lt_iff_toNat_lt.mp small
  rw [show (0x7f : Nat) = 2 ^ 7 - 1 from rfl, Nat.and_two_pow_sub_one_of_lt_two_pow below,
    ← Nat.shiftLeft_add_eq_or_of_lt below, Nat.shiftLeft_eq]

theorem tagSize_eq {header : Bytes} {a b c d : UInt8} (isA : header.getD 6 0 = a)
    (isB : header.getD 7 0 = b) (isC : header.getD 8 0 = c) (isD : header.getD 9 0 = d)
    (smallA : a < 128) (smallB : b < 128) (smallC : c < 128) (smallD : d < 128) :
    tagSize header = ((a.toNat * 128 + b.toNat) * 128 + c.toNat) * 128 + d.toNat := by
  simp only [tagSize, List.foldl_cons, List.foldl_nil, isA, isB, isC, isD]
  rw [shift_or smallA, shift_or smallB, shift_or smallC, shift_or smallD, Nat.zero_mul,
    Nat.zero_add]

theorem hasFlacAfterId3_tag {tag header : Bytes} (isTag : IsId3Tag tag) (audio : Bytes)
    (isHeader : header = (tag ++ ("fLaC".toList.map code ++ audio)).take 12) :
    hasFlacAfterId3 (tag ++ ("fLaC".toList.map code ++ audio)) header = true := by
  obtain ⟨major, revision, flags, a, b, c, d, body, footer, rfl, -, smallA, smallB, smallC,
    smallD, isSize, isFooter⟩ := isTag
  have size : tagSize header = body.length := by
    rw [isSize]
    apply tagSize_eq _ _ _ _ smallA smallB smallC smallD <;> rw [isHeader] <;> rfl
  have isFlags : header.getD 5 0 = flags := by
    rw [isHeader]
    rfl
  have offset : 10 + tagSize header + (if header.getD 5 0 &&& 0x10 ≠ 0 then 10 else 0) =
      (code 'I' :: code 'D' :: code '3' :: major :: revision :: flags :: a :: b :: c :: d ::
        (body ++ footer)).length := by
    rw [size, isFlags]
    simp only [List.length_cons, List.length_append, isFooter]
    by_cases bare : flags &&& 0x10 = 0 <;> simp [bare] <;> omega
  unfold hasFlacAfterId3
  dsimp only
  rw [offset, List.drop_left, if_neg]
  · simp [startsWithAscii, hasAsciiAt]
  · simp
    omega

theorem ext_of_tag {tag audio : Bytes} (isTag : IsId3Tag tag) (audio_codec : String) :
    ext (tag ++ ("fLaC".toList.map code ++ audio)) audio_codec = none := by
  have found := hasFlacAfterId3_tag isTag audio rfl
  obtain ⟨major, revision, flags, a, b, c, d, body, footer, rfl, clear, -⟩ := isTag
  have noBrand : code 't' ≠ flags := by
    rintro rfl
    exact absurd clear (by decide)
  unfold ext
  dsimp only
  generalize isHeader : List.take 12 _ = header at found ⊢
  have shape : ∃ rest, header = code 'I' :: code 'D' :: code '3' :: major :: revision :: flags ::
      a :: b :: c :: d :: rest := ⟨_, isHeader.symm⟩
  obtain ⟨rest, rfl⟩ := shape
  have marks : code 'I' ≠ code 'f' ∧ code 'I' ≠ code 'O' := by decide
  rw [if_neg, if_neg, if_neg, if_pos, if_pos]
  · rw [found]
    simp
  · simp [startsWithAscii, hasAsciiAt]
  · simp [startsWithAscii, hasAsciiAt, marks.2.symm]
  · simp [hasAsciiAt, noBrand]
  · simp [startsWithAscii, hasAsciiAt, marks.1.symm]

theorem ext_of_flac (audio : Bytes) (audio_codec : String) :
    ext ("fLaC".toList.map code ++ audio) audio_codec = none := by
  simp [ext, startsWithAscii, hasAsciiAt]

variable {content : Bytes}

theorem ext_of_isFlac (isFlac : IsFlac content) (audio_codec : String) :
    ext content audio_codec = none := by
  obtain ⟨tag, audio, rfl, rfl | isTag⟩ := isFlac
  · exact ext_of_flac audio audio_codec
  · exact ext_of_tag isTag audio_codec

/-! ## Names -/

theorem lowerChar_slash : Text.lowerChar '/' = ['/'] := by decide

theorem lowerChar_ne_nil (char : Char) : Text.lowerChar char ≠ [] := by
  unfold Text.lowerChar
  split
  · exact List.cons_ne_nil _ _
  split <;> exact List.cons_ne_nil _ _

theorem slash_notMem_lowerChar {char : Char} (other : char ≠ '/') : '/' ∉ Text.lowerChar char := by
  unfold Text.lowerChar
  split
  · decide
  split
  · decide
  · rw [List.mem_singleton]
    intro same
    unfold Char.toLower at same
    split at same
    next upper =>
      have isCode := congrArg (fun char => char.val.toNat) same
      have low := UInt32.le_iff_toNat_le.mp upper.1
      have high := UInt32.le_iff_toNat_le.mp upper.2
      simp at isCode low high
      omega
    next => exact other same.symm

theorem squeeze_append_of_plain {front : List Char} (plain : '/' ∉ front) (rest : List Char) :
    squeeze (front ++ rest) = front ++ squeeze rest := by
  induction front with
  | nil => rfl
  | cons char front ih =>
    rw [List.mem_cons, not_or] at plain
    rw [List.cons_append, squeeze_cons (Ne.symm plain.1), ih plain.2]
    rfl

theorem suffix_squeeze {tail : List Char} (some : tail ≠ []) (plain : '/' ∉ tail)
    (front : List Char) : tail <:+ squeeze (front ++ tail) := by
  induction front with
  | nil =>
    rw [List.nil_append, ← List.append_nil tail, squeeze_append_of_plain plain]
    exact List.suffix_refl _
  | cons char rest ih =>
    rw [List.cons_append]
    by_cases slash : char = '/'
    · subst slash
      cases squeezed : squeeze (rest ++ tail) with
      | nil =>
        rw [squeezed, List.suffix_nil] at ih
        exact absurd ih some
      | cons next others =>
        rw [squeezed] at ih
        rw [squeeze_slash_cons squeezed]
        split
        · exact ih
        · exact ih.trans (List.suffix_cons _ _)
    · rw [squeeze_cons slash]
      exact ih.trans (List.suffix_cons _ _)

theorem flatMap_squeeze (path : List Char) :
    (squeeze path).flatMap Text.lowerChar = squeeze (path.flatMap Text.lowerChar) := by
  induction path with
  | nil => rfl
  | cons char rest ih =>
    by_cases slash : char = '/'
    · subst slash
      rw [List.flatMap_cons, lowerChar_slash, List.singleton_append]
      cases squeezed : squeeze rest with
      | nil =>
        rw [squeezed] at ih
        rw [squeeze_slash_nil squeezed, squeeze_slash_nil ih.symm]
        rfl
      | cons next others =>
        rw [squeezed] at ih
        rw [squeeze_slash_cons squeezed]
        split
        next again =>
          rw [again, List.flatMap_cons, lowerChar_slash, List.singleton_append] at ih
          rw [squeeze_slash_cons ih.symm, if_pos rfl, again, List.flatMap_cons,
            lowerChar_slash, List.singleton_append]
        next other =>
          rw [List.flatMap_cons, lowerChar_slash, List.singleton_append]
          rw [List.flatMap_cons] at ih ⊢
          cases isLower : Text.lowerChar next with
          | nil => exact absurd isLower (lowerChar_ne_nil next)
          | cons first more =>
            have plain := slash_notMem_lowerChar other
            rw [isLower, List.mem_cons, not_or] at plain
            rw [isLower, List.cons_append] at ih
            rw [squeeze_slash_cons ih.symm, if_neg (Ne.symm plain.1)]
            rfl
    · rw [squeeze_cons slash, List.flatMap_cons, List.flatMap_cons, ih,
        squeeze_append_of_plain (slash_notMem_lowerChar slash)]

/-- The name of the file ends in `.flac`, in whatever case. -/
def EndsFlac (path : List Char) : Prop :=
  ".flac".toList <:+ path.flatMap Text.lowerChar

theorem EndsFlac.squeeze {path : List Char} (ends : EndsFlac path) : EndsFlac (squeeze path) := by
  obtain ⟨front, isLower⟩ := ends
  unfold EndsFlac
  rw [flatMap_squeeze, ← isLower]
  exact suffix_squeeze (by decide) (by decide) front

variable {isExt : String}

theorem ext_cases {audio_codec : String} (found : ext content audio_codec = some isExt) :
    isExt ∈ [".mp4", ".m4a", ".opus", ".mp3", ".aac"] := by
  unfold ext at found
  dsimp only at found
  repeat' split at found
  all_goals cases found <;> decide

/-- No name with one of these extensions ends in `.flac`. -/
theorem EndsFlac.ne {path front : List Char} (ends : EndsFlac path)
    {audio_codec : String} (found : ext content audio_codec = some isExt) :
    path ≠ front ++ isExt.toList := by
  rintro rfl
  have known := ext_cases found
  simp only [List.mem_cons, List.not_mem_nil, or_false] at known
  have isLower : isExt.toList.flatMap Text.lowerChar = isExt.toList := by
    rcases known with rfl | rfl | rfl | rfl | rfl <;> decide
  have tail : isExt.toList <:+ (front ++ isExt.toList).flatMap Text.lowerChar := by
    rw [List.flatMap_append, isLower]
    exact List.suffix_append _ _
  have either := List.suffix_or_suffix_of_suffix ends tail
  rcases known with rfl | rfl | rfl | rfl | rfl <;> exact absurd either (by decide)

/-! ## Runs -/

namespace System

variable {start s next : System}

/-- The file to be renamed. -/
def own (s : System) : String :=
  source s.result.file_path

/-- The container of the file that was there at first. -/
def Holds (start : System) (content : Bytes) (isExt : String) : Prop :=
  start.files start.own = some (.file content) ∧ ext content start.result.audio_codec = some isExt

/-- So many names were tried, and all of them are taken. -/
def Tried (start s : System) (isExt : String) (tries : Nat) : Prop :=
  (∃ content, Holds start content isExt) ∧
    ∀ n < tries, (s.files (target start.result.file_path isExt n)).isSome = true

/-- What is known where the call is. -/
def At (start s : System) : Prop :=
  match s.phase with
  | .checking => s.turns = 0
  | .reading => s.turns = 1 ∧ EndsFlac start.result.file_path.toList
  | .looking isExt tries =>
    s.turns ≤ 2 * tries + 2 ∧ EndsFlac start.result.file_path.toList ∧ Tried start s isExt tries
  | .moving isExt tries =>
    s.turns ≤ 2 * tries + 3 ∧ EndsFlac start.result.file_path.toList ∧ Tried start s isExt tries
  | .returned =>
    s.turns ≤ 2 ∨ ∃ isExt tries, s.turns ≤ 2 * tries + 4 ∧ Tried start s isExt tries

/-- Nothing that there was is gone, and the result is as it was. -/
structure Unmoved (start s : System) : Prop where
  result : s.result = start.result
  source : s.files start.own = start.files start.own
  kept : ∀ path node, start.files path = some node → s.files path = some node

/-- The file has the first free name that was tried, and nothing else is gone. -/
structure Moved (start s : System) (content : Bytes) (isExt : String) (tries : Nat) : Prop where
  holds : Holds start content isExt
  result : s.result = renamed start.result isExt tries
  file : s.files s.result.file_path = some (.file content)
  fresh : start.files s.result.file_path = none
  kept : ∀ path node, path ≠ start.own → start.files path = some node → s.files path = some node
  ended : s.phase = .returned
  named : EndsFlac start.result.file_path.toList

/-- The step leaves files and result as they are. -/
def Quiet (s next : System) : Prop :=
  next.files = s.files ∧ next.result = s.result

/-- The step moves the file to a free name, and the result names it. -/
structure Moves (s next : System) (content : Bytes) (isExt : String) (tries : Nat) : Prop where
  present : s.files s.own = some (.file content)
  container : ext content s.result.audio_codec = some isExt
  fresh : s.files (target s.result.file_path isExt tries) = none
  files : next.files = s.files.rename s.own (target s.result.file_path isExt tries) true
  result : next.result = renamed s.result isExt tries
  ended : next.phase = .returned

/-- What the call has done so far. -/
def Sound (start s : System) : Prop :=
  At start s ∧ (Unmoved start s ∨ ∃ content isExt tries, Moved start s content isExt tries)

variable {path : String} {node : Node}

theorem At.other (at' : At start s) (absent : (s.files path).isSome = false) :
    At start { s with files := s.files.write path node } := by
  have later {isExt : String} {tries : Nat} (tried : Tried start s isExt tries) :
      Tried start { s with files := s.files.write path node } isExt tries := by
    refine ⟨tried.1, fun n below => ?_⟩
    have taken := tried.2 n below
    dsimp only
    rw [Files.write_other]
    · exact taken
    · rintro rfl
      rw [absent] at taken
      cases taken
  unfold At at at' ⊢
  dsimp only
  split at at'
  · exact at'
  · exact at'
  · exact ⟨at'.1, at'.2.1, later at'.2.2⟩
  · exact ⟨at'.1, at'.2.1, later at'.2.2⟩
  · rcases at' with soon | ⟨isExt, tries, bound, tried⟩
    · exact .inl soon
    · exact .inr ⟨isExt, tries, bound, later tried⟩

theorem Sound.unmoved (sound : Sound start s) (going : s.phase ≠ .returned) : Unmoved start s := by
  rcases sound.2 with unmoved | ⟨content, isExt, tries, moved⟩
  · exact unmoved
  · exact absurd moved.ended going

theorem Unmoved.own (unmoved : Unmoved start s) : s.own = start.own := by
  rw [System.own, unmoved.result]
  rfl

theorem toList_target (path isExt : String) (tries : Nat) :
    ∃ front, (target path isExt tries).toList = front ++ isExt.toList := by
  unfold target targetName
  dsimp only
  split
  · exact ⟨_, by rw [String.toList_append, String.toList_append, ← List.append_assoc]⟩
  · exact ⟨_, by rw [String.toList_append, String.toList_append, ← List.append_assoc]⟩

theorem target_ne_own
    (ends : EndsFlac start.result.file_path.toList) (holds : Holds start content isExt)
    (tries : Nat) : target start.result.file_path isExt tries ≠ start.own := by
  intro same
  obtain ⟨front, isTarget⟩ := toList_target start.result.file_path isExt tries
  rw [same, System.own, source, String.toList_ofList] at isTarget
  exact ends.squeeze.ne holds.2 isTarget

theorem target_ne_path
    (ends : EndsFlac start.result.file_path.toList) (holds : Holds start content isExt)
    (tries : Nat) : target start.result.file_path isExt tries ≠ start.result.file_path := by
  intro same
  obtain ⟨front, isTarget⟩ := toList_target start.result.file_path isExt tries
  rw [same] at isTarget
  exact ends.ne holds.2 isTarget

variable {tries : Nat}

theorem tried_succ (tried : Tried start s isExt tries)
    (unmoved : Unmoved start s) (taken : s.taken isExt tries = true) :
    Tried start s isExt (tries + 1) := by
  refine ⟨tried.1, fun n below => ?_⟩
  rcases Nat.lt_succ_iff_lt_or_eq.mp below with earlier | rfl
  · exact tried.2 n earlier
  · unfold System.taken at taken
    rw [unmoved.result] at taken
    exact taken

theorem check_cases (s : System) : s.check = .returned ∨
    (s.check = .reading ∧ EndsFlac s.result.file_path.toList) := by
  unfold check
  split
  · exact .inl rfl
  split
  · exact .inl rfl
  next ends =>
    split
    · exact .inl rfl
    · refine .inr ⟨rfl, ?_⟩
      have lower : (Text.toLowerCase s.result.file_path).toList =
          s.result.file_path.toList.flatMap Text.lowerChar := String.toList_ofList
      rw [Bool.not_eq_true, Bool.not_eq_false', Text.endsWith, List.isSuffixOf_iff_suffix,
        lower] at ends
      exact ends

theorem read_cases (s : System) : s.read = .returned ∨ ∃ content isExt,
    s.files s.own = some (.file content) ∧ ext content s.result.audio_codec = some isExt ∧
      s.read = .looking isExt 0 := by
  unfold read
  split
  next content found =>
    split
    · exact .inl rfl
    next isExt named => exact .inr ⟨content, isExt, found, named, rfl⟩
  · exact .inl rfl

theorem move_spec (unmoved : Unmoved start s)
    (holds : Holds start content isExt) (free : ¬s.taken isExt tries = true) :
    Moves s (s.move isExt tries) content isExt tries := by
  have present : s.files (source s.result.file_path) = some (.file content) := by
    have same := unmoved.source
    rw [holds.1, ← unmoved.own] at same
    exact same
  have isMove : s.move isExt tries =
      { s with
        files := s.files.rename (source s.result.file_path)
          (target s.result.file_path isExt tries) true
        phase := .returned
        result := renamed s.result isExt tries } := by
    unfold move
    rw [present]
  rw [isMove]
  refine ⟨present, ?_, ?_, rfl, rfl, rfl⟩
  · rw [unmoved.result]
    exact holds.2
  · unfold System.taken at free
    exact Option.not_isSome_iff_eq_none.mp free

theorem tried_moved (unmoved : Unmoved start s)
    (ends : EndsFlac start.result.file_path.toList) (holds : Holds start content isExt)
    (moves : Moves s next content isExt tries) (tried : Tried start s isExt tries) :
    Tried start next isExt tries := by
  refine ⟨tried.1, fun n below => ?_⟩
  have taken := tried.2 n below
  rw [moves.files, Files.rename_other]
  · exact taken
  · rw [unmoved.own]
    exact target_ne_own ends holds n
  · intro same
    rw [same, moves.fresh] at taken
    cases taken

/-- Where a step of the call leads to, and what it does. -/
theorem turn_spec (sound : Sound start s) {fault : Bool} (turned : s.turn fault = some next) :
    At start { next with turns := s.turns + 1 } ∧
      (Quiet s next ∨ ∃ content isExt tries, Holds start content isExt ∧
        EndsFlac start.result.file_path.toList ∧ Unmoved start s ∧
        Moves s next content isExt tries) := by
  have at' := sound.1
  unfold At at at'
  unfold turn at turned
  split at turned
  next isPhase =>
    rw [isPhase] at at'
    cases turned
    have unmoved := sound.unmoved (by rw [isPhase]; exact nofun)
    refine ⟨?_, .inl ⟨rfl, rfl⟩⟩
    unfold At
    rcases check_cases s with ended | ⟨reads, ends⟩
    · rw [ended]
      exact .inl (by show s.turns + 1 ≤ 2; omega)
    · rw [reads]
      rw [unmoved.result] at ends
      exact ⟨by show s.turns + 1 = 1; omega, ends⟩
  next isPhase =>
    rw [isPhase] at at'
    cases turned
    have unmoved := sound.unmoved (by rw [isPhase]; exact nofun)
    refine ⟨?_, .inl ⟨rfl, rfl⟩⟩
    have soon : At start { s with phase := .returned, turns := s.turns + 1 } :=
      .inl (by show s.turns + 1 ≤ 2; omega)
    cases fault with
    | true => exact soon
    | false =>
      rcases read_cases s with ended | ⟨content, isExt, present, named, looks⟩
      · simp only [Bool.false_eq_true, if_false, ended]
        exact soon
      · simp only [Bool.false_eq_true, if_false, looks]
        rw [unmoved.own, unmoved.source] at present
        rw [unmoved.result] at named
        exact ⟨by show s.turns + 1 ≤ 2; omega, at'.2, ⟨content, present, named⟩, nofun⟩
  next isExt tries isPhase =>
    rw [isPhase] at at'
    cases turned
    have unmoved := sound.unmoved (by rw [isPhase]; exact nofun)
    refine ⟨?_, .inl ⟨rfl, rfl⟩⟩
    obtain ⟨bound, ends, tried⟩ := at'
    cases taken : s.taken isExt tries with
    | true =>
      have tried := tried_succ tried unmoved taken
      exact ⟨by show s.turns + 1 ≤ _; omega, ends, tried⟩
    | false => exact ⟨by show s.turns + 1 ≤ _; omega, ends, tried⟩
  next isExt tries isPhase =>
    rw [isPhase] at at'
    have unmoved := sound.unmoved (by rw [isPhase]; exact nofun)
    obtain ⟨bound, ends, tried⟩ := at'
    split at turned
    next taken =>
      cases turned
      have tried := tried_succ tried unmoved taken
      exact ⟨⟨by show s.turns + 1 ≤ _; omega, ends, tried⟩, .inl ⟨rfl, rfl⟩⟩
    next free =>
      have last {next : System} (ended : next.phase = .returned)
          (tried : Tried start next isExt tries) :
          At start { next with turns := s.turns + 1 } := by
        unfold At
        rw [ended]
        exact .inr ⟨isExt, tries, by show s.turns + 1 ≤ _; omega, tried⟩
      split at turned
      · cases turned
        exact ⟨last rfl tried, .inl ⟨rfl, rfl⟩⟩
      · cases turned
        obtain ⟨content, holds⟩ := tried.1
        have moves := move_spec unmoved holds free
        exact ⟨last moves.ended (tried_moved unmoved ends holds moves tried),
          .inr ⟨content, isExt, tries, holds, ends, unmoved, moves⟩⟩
  next => cases turned

theorem Moves.moved (unmoved : Unmoved start s)
    (ends : EndsFlac start.result.file_path.toList) (holds : Holds start content isExt)
    (moves : Moves s next content isExt tries) : Moved start next content isExt tries := by
  have isResult : next.result = renamed start.result isExt tries := by
    rw [moves.result, unmoved.result]
  have isPath : next.result.file_path = target start.result.file_path isExt tries := by
    rw [isResult]
    rfl
  have fresh := moves.fresh
  rw [unmoved.result] at fresh
  have gone (path : String) (node : Node) (found : start.files path = some node) :
      path ≠ target start.result.file_path isExt tries := by
    rintro rfl
    rw [unmoved.kept _ node found] at fresh
    cases fresh
  refine ⟨holds, isResult, ?_, ?_, fun path node other found => ?_, moves.ended, ends⟩
  · rw [isPath, moves.files, unmoved.result]
    exact Files.rename_target _ moves.present
  · rw [isPath]
    cases found : start.files (target start.result.file_path isExt tries) with
    | none => rfl
    | some node => exact absurd rfl (gone _ node found)
  · rw [moves.files, unmoved.result, unmoved.own, Files.rename_other _ other (gone path node found)]
    exact unmoved.kept path node found

theorem Unmoved.quiet (unmoved : Unmoved start s) (quiet : Quiet s next) : Unmoved start next where
  result := quiet.2.trans unmoved.result
  source := quiet.1 ▸ unmoved.source
  kept path node found := quiet.1 ▸ unmoved.kept path node found

theorem sound_start (begins : machine.Start start) : Sound start start := by
  refine ⟨?_, .inl ⟨rfl, rfl, fun _ _ found => found⟩⟩
  unfold At
  rw [begins.1]
  exact begins.2

theorem sound_turn (sound : Sound start s) {fault : Bool} (turned : s.turn fault = some next) :
    Sound start { next with turns := s.turns + 1 } := by
  obtain ⟨at', quiet | ⟨content, isExt, tries, holds, ends, unmoved, moves⟩⟩ :=
    turn_spec sound turned
  · have going : s.phase ≠ .returned := by
      intro ended
      rw [turn, ended] at turned
      cases turned
    have unmoved := (sound.unmoved going).quiet quiet
    exact ⟨at', .inl ⟨unmoved.result, unmoved.source, unmoved.kept⟩⟩
  · obtain ⟨holds, result, file, fresh, kept, ended, named⟩ := moves.moved unmoved ends holds
    exact ⟨at', .inr ⟨content, isExt, tries, holds, result, file, fresh, kept, ended, named⟩⟩

theorem sound_other (sound : Sound start s)
    (absent : (s.files path).isSome = false) (foreign : path ≠ s.own) :
    Sound start { s with files := s.files.write path node } := by
  have kept {other : String} {found : Node} (present : s.files other = some found) :
      s.files.write path node other = some found := by
    rw [Files.write_other]
    · exact present
    · rintro rfl
      rw [present] at absent
      cases absent
  refine ⟨sound.1.other absent, ?_⟩
  rcases sound.2 with unmoved | ⟨content, isExt, tries, moved⟩
  · refine .inl ⟨unmoved.result, ?_, fun path node found => kept (unmoved.kept path node found)⟩
    dsimp only
    rw [Files.write_other _ (fun same => foreign (same.symm.trans unmoved.own.symm))]
    exact unmoved.source
  · exact .inr ⟨content, isExt, tries, moved.holds, moved.result, kept moved.file, moved.fresh,
      fun path node other found => kept (moved.kept path node other found), moved.ended,
      moved.named⟩

theorem sound_step (sound : Sound start s) {event : Event} (stepped : s.step event = some next) :
    Sound start next := by
  cases event with
  | turn fault =>
    obtain ⟨turned, isTurned, rfl⟩ := Option.map_eq_some_iff.mp stepped
    exact sound_turn sound isTurned
  | other path node =>
    simp only [step] at stepped
    split at stepped
    · cases stepped
    next free =>
      cases stepped
      rw [Bool.or_eq_true, decide_eq_true_eq, not_or, Bool.not_eq_true] at free
      exact sound_other sound free.1 free.2

/-- What is promised of a call that began with some files and a result. -/
structure Promised (start s : System) : Prop where
  /-- Files and result are as they were, or the file has one new name. -/
  outcome : Unmoved start s ∨ ∃ content isExt tries, Moved start s content isExt tries
  /-- A step changes nothing, or it is the move, to a name that is free. -/
  turn : ∀ fault next, s.step (.turn fault) = some next →
    Quiet s next ∨ ∃ content isExt tries, Moves s next content isExt tries
  /-- Nobody's file is lost in any step. -/
  kept : ∀ event next, s.step event = some next → ∀ path node, path ≠ s.own →
    s.files path = some node → next.files path = some node
  /-- The call goes on until it returns. -/
  goesOn : s.phase ≠ .returned → ∀ fault, (s.step (.turn fault)).isSome = true
  /-- It returns in time, as long as one of its names is free. -/
  ends : ∀ content, start.files start.own = some (.file content) → ∀ n,
    (∀ isExt, ext content start.result.audio_codec = some isExt →
      s.files (target start.result.file_path isExt n) = none) → s.turns ≤ 2 * n + 4
  /-- FLAC keeps its name. -/
  flac : ∀ content, start.files start.own = some (.file content) → IsFlac content → Unmoved start s
  /-- The caller hands on what is in the result. -/
  handedOn : reported start.result s.result = s.result

theorem Sound.ends (sound : Sound start s)
    (present : start.files start.own = some (.file content)) {n : Nat}
    (free : ∀ isExt, ext content start.result.audio_codec = some isExt →
      s.files (target start.result.file_path isExt n) = none) : s.turns ≤ 2 * n + 4 := by
  have within {isExt : String} {tries : Nat} (tried : Tried start s isExt tries) : tries ≤ n := by
    obtain ⟨⟨other, isOther, named⟩, taken⟩ := tried
    rw [present] at isOther
    cases isOther
    refine Nat.not_lt.mp fun below => ?_
    have isTaken := taken n below
    rw [free isExt named] at isTaken
    cases isTaken
  have at' := sound.1
  unfold At at at'
  split at at'
  · omega
  · omega
  next isExt tries _ =>
    have bound := within at'.2.2
    omega
  next isExt tries _ =>
    have bound := within at'.2.2
    omega
  · rcases at' with soon | ⟨isExt, tries, early, tried⟩
    · omega
    · have bound := within tried
      omega

theorem Sound.kept (sound : Sound start s) {event : Event} (stepped : s.step event = some next)
    (foreign : path ≠ s.own) (present : s.files path = some node) :
    next.files path = some node := by
  cases event with
  | turn fault =>
    obtain ⟨turned, isTurned, rfl⟩ := Option.map_eq_some_iff.mp stepped
    rcases (turn_spec sound isTurned).2 with quiet | ⟨content, isExt, tries, -, -, -, moves⟩
    · exact (congrFun quiet.1 path).trans present
    · refine (congrFun moves.files path).trans ?_
      rw [Files.rename_other _ foreign]
      · exact present
      · rintro rfl
        rw [moves.fresh] at present
        cases present
  | other name new =>
    simp only [step] at stepped
    split at stepped
    · cases stepped
    next free =>
      cases stepped
      rw [Bool.or_eq_true, not_or, Bool.not_eq_true] at free
      refine (Files.write_other _ ?_ _).trans present
      rintro rfl
      rw [present] at free
      cases free.1

/-- Every call keeps what is promised, whatever others do meanwhile. -/
theorem renaming_promised (begins : machine.Start start)
    (path : machine.Path Machine.anyStep start s) : Promised start s := by
  have sound : Sound start s := path.preserves (sound_start begins)
    fun state event next holds _ stepped => sound_step holds stepped
  refine
    { outcome := sound.2
      turn := fun fault next stepped => ?_
      kept := fun event next stepped path node foreign present =>
        sound.kept stepped foreign present
      goesOn := fun going fault => ?_
      ends := fun content present n free => sound.ends present free
      flac := fun content present isFlac => ?_
      handedOn := ?_ }
  · obtain ⟨turned, isTurned, rfl⟩ := Option.map_eq_some_iff.mp stepped
    rcases (turn_spec sound isTurned).2 with quiet | ⟨content, isExt, tries, -, -, -, moves⟩
    · exact .inl quiet
    · obtain ⟨present, container, fresh, files, result, ended⟩ := moves
      exact .inr ⟨content, isExt, tries, present, container, fresh, files, result, ended⟩
  · simp only [step, Option.isSome_map]
    unfold System.turn
    split
    · rfl
    · rfl
    · rfl
    · split
      · rfl
      · split <;> rfl
    next ended => exact absurd ended going
  · rcases sound.2 with unmoved | ⟨other, isExt, tries, moved⟩
    · exact unmoved
    · have holds := moved.holds
      rw [Holds, present] at holds
      obtain ⟨same, named⟩ := holds
      cases same
      rw [ext_of_isFlac isFlac] at named
      cases named
  · rcases sound.2 with unmoved | ⟨content, isExt, tries, moved⟩
    · rw [unmoved.result]
      exact if_pos rfl
    · refine if_neg ?_
      rw [moved.result]
      exact target_ne_path moved.named moved.holds tries

/-- An Ogg file under the name of FLAC. -/
def ogg : Node :=
  .file ("OggS".toList.map code)

/-- Its first new name is taken before the move. -/
theorem renaming_promised_raced : ∃ s : System, Promised
      { files := fun path => if path = "/a.flac" then some ogg else none
        result := { success := true, file_path := "/a.flac" } } s ∧
      s.result.file_path = "/a (2).opus" := by
  have ran : ((machine.run
      { files := fun path => if path = "/a.flac" then some ogg else none
        result := { success := true, file_path := "/a.flac" } }
      [.turn false, .turn false, .turn false, .other "/a.opus" .directory, .turn false,
        .turn false, .turn false]).any fun s => s.result.file_path = "/a (2).opus") = true := by
    decide
  obtain ⟨s, ended, named⟩ := (Option.any_eq_true _ _).mp ran
  exact ⟨s, renaming_promised ⟨rfl, rfl⟩ (Machine.anyPath_of_run ended), of_decide_eq_true named⟩

/-! ## No free name -/

open Classical in

/-- All the names that an Ogg file may get are taken. -/
noncomputable def crowded : Files String Node := fun path =>
  if path = source "/a.flac" then some ogg
  else if ∃ tries, path = target "/a.flac" ".opus" tries then some .directory
  else none

theorem crowded_taken (tries : Nat) : (crowded (target "/a.flac" ".opus" tries)).isSome = true := by
  unfold crowded
  split
  · rfl
  · rw [if_pos ⟨tries, rfl⟩]
    rfl

/-- A call that meets these names. -/
noncomputable def lost : System where
  files := crowded
  result := { success := true, file_path := "/a.flac" }

theorem lost_present : lost.files (source lost.result.file_path) = some ogg := by
  show crowded (source "/a.flac") = some ogg
  rw [crowded, if_pos rfl]

theorem check_lost : lost.check = .reading := by
  have isFile : lost.isFile = true := by
    rw [System.isFile, lost_present]
    rfl
  have ends : Text.endsWith (Text.toLowerCase lost.result.file_path) ".flac" = true := by
    rw [show lost.result.file_path = "/a.flac" from rfl]
    decide
  have offered : (!lost.result.success || lost.result.already_exists) = false := rfl
  rw [check, if_neg (by rw [offered]; exact nofun), if_neg (by rw [ends]; decide),
    if_neg (by rw [isFile]; decide)]

theorem turn_of_check {phase : Phase} (isPhase : s.phase = .checking) (leads : s.check = phase) :
    machine.step s (.turn false) = some { s with phase, turns := s.turns + 1 } := by
  simp only [machine, step, System.turn, isPhase, leads, Option.map_some]

theorem turn_of_read {phase : Phase} (isPhase : s.phase = .reading) (leads : s.read = phase) :
    machine.step s (.turn false) = some { s with phase, turns := s.turns + 1 } := by
  simp only [machine, step, System.turn, isPhase, leads, Option.map_some, Bool.false_eq_true,
    if_false]

theorem turn_of_taken (isPhase : s.phase = .looking isExt tries)
    (taken : s.taken isExt tries = true) : machine.step s (.turn false) =
      some { s with phase := .looking isExt (tries + 1), turns := s.turns + 1 } := by
  simp only [machine, step, System.turn, isPhase, taken, Option.map_some, if_true]

theorem lost_looks (tries : Nat) : ∃ s : System,
    machine.Path Machine.anyStep lost s ∧ s.files = crowded ∧
      s.result.file_path = "/a.flac" ∧ s.phase = .looking ".opus" tries ∧ tries ≤ s.turns := by
  induction tries with
  | zero =>
    have first := turn_of_check (s := lost) rfl check_lost
    have reads : ({ lost with phase := .reading, turns := lost.turns + 1 } : System).read =
        .looking ".opus" 0 := by
      unfold read
      rw [show ({ lost with phase := .reading, turns := lost.turns + 1 } : System).files
        (source lost.result.file_path) = some ogg from lost_present]
      have isOgg : ext ("OggS".toList.map code) "" = some ".opus" := by decide
      simp only [ogg, lost, isOgg]
    have second := turn_of_read (s := { lost with phase := .reading, turns := lost.turns + 1 })
      rfl reads
    exact ⟨_, .step _ (.step _ .refl trivial first) trivial second, rfl, rfl, rfl, Nat.zero_le _⟩
  | succ tries ih =>
    obtain ⟨s, path, isFiles, isPath, isPhase, turns⟩ := ih
    have taken : s.taken ".opus" tries = true := by
      rw [System.taken, isFiles, isPath]
      exact crowded_taken tries
    exact ⟨_, .step _ path trivial (turn_of_taken isPhase taken), isFiles, isPath, rfl,
      Nat.succ_le_succ turns⟩

/-- With no name left the call does not end. -/
theorem search_endless : ¬∀ start : System, machine.Start start →
    ∃ bound, ∀ s, machine.Path Machine.anyStep start s → s.turns ≤ bound := by
  intro ends
  obtain ⟨bound, within⟩ := ends lost ⟨rfl, rfl⟩
  obtain ⟨s, path, -, -, -, turns⟩ := lost_looks (bound + 1)
  have few := within s path
  omega

end System

end LosslessMusic.Finishing.ContainerExtensionFix
