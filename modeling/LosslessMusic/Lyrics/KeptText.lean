import LosslessMusic.Lyrics.LyricsParser
import Mathlib.Data.List.Sort

/-!
# The text that lyrics keep

A line with time tags keeps the text behind its last tag, once for each tag, and a line without
keeps all of it in the plain text. The lines are in the order of their times, on which the search
for the active line relies.
-/

namespace LosslessMusic.Lyrics.LyricsParser

open Pattern

/-! ## The active line -/

theorem countP_eq_of_split {α : Type} {test : α → Bool} {items : List α} {count : Nat}
    (within : count ≤ items.length)
    (before : ∀ place item, items[place]? = some item → place < count → test item = true)
    (after : ∀ place item, items[place]? = some item → count ≤ place → test item = false) :
    items.countP test = count := by
  have front : (items.take count).countP test = (items.take count).length := by
    rw [List.countP_eq_length]
    intro item member
    obtain ⟨place, found⟩ := List.mem_iff_getElem?.mp member
    rw [List.getElem?_take] at found
    split at found
    next less => exact before place item found less
    · cases found
  have back : (items.drop count).countP test = 0 := by
    rw [List.countP_eq_zero]
    intro item member
    obtain ⟨place, found⟩ := List.mem_iff_getElem?.mp member
    rw [List.getElem?_drop] at found
    rw [after _ item found (Nat.le_add_right _ _)]
    exact Bool.false_ne_true
  rw [← List.take_append_drop count items, List.countP_append, front, back, List.length_take]
  omega

variable {lines : List LyricLine} {position : Int}

/-- Lines in the order of their times. -/
def Ordered (lines : List LyricLine) : Prop :=
  lines.Pairwise fun one other => one.time ≤ other.time

theorem Ordered.le (ordered : Ordered lines) {first second : Nat} {one other : LyricLine}
    (isFirst : lines[first]? = some one) (isSecond : lines[second]? = some other)
    (before : first ≤ second) : one.time ≤ other.time := by
  rcases Nat.eq_or_lt_of_le before with rfl | less
  · rw [isFirst] at isSecond
    cases isSecond
    exact Int.le_refl _
  · obtain ⟨_, rfl⟩ := List.getElem?_eq_some_iff.mp isFirst
    obtain ⟨_, rfl⟩ := List.getElem?_eq_some_iff.mp isSecond
    exact List.pairwise_iff_getElem.mp ordered first second _ _ less

theorem search_eq (ordered : Ordered lines) {lo hi result : Int} (low : 0 ≤ lo)
    (high : hi < lines.length) (close : lo ≤ hi + 1) (isResult : result = lo - 1)
    (before : ∀ (place : Nat) (line : LyricLine), lines[place]? = some line → (place : Int) < lo →
      line.time ≤ position)
    (after : ∀ (place : Nat) (line : LyricLine), lines[place]? = some line → hi < place →
      position < line.time) :
    search lines position lo hi result = lines.countP (fun line => line.time ≤ position) - 1 := by
  fun_induction search lines position lo hi result with
  | case1 lo hi result more mid line found begun ih =>
    refine ih (by omega) high (by omega) (by omega) ?_ after
    intro place other isOther less
    exact Int.le_trans (ordered.le isOther found (by omega)) begun
  | case2 lo hi result more mid line found later ih =>
    refine ih low (by omega) (by omega) isResult before ?_
    intro place other isOther less
    exact Int.lt_of_lt_of_le (Int.not_le.mp later) (ordered.le found isOther (by omega))
  | case3 lo hi result more mid none_ =>
    rw [List.getElem?_eq_none_iff] at none_
    omega
  | case4 lo hi result done =>
    have count : lines.countP (fun line => line.time ≤ position) = lo.toNat :=
      countP_eq_of_split (by omega)
        (fun place line found less => decide_eq_true (before place line found (by omega)))
        fun place line found more =>
          decide_eq_false (Int.not_le.mpr (after place line found (by omega)))
    omega

theorem activeIndex_eq (ordered : Ordered lines) (position : Int) :
    activeIndex lines position = lines.countP (fun line => line.time ≤ position) - 1 := by
  unfold activeIndex
  split
  next empty =>
    subst empty
    rfl
  · refine search_eq ordered (Int.le_refl 0) (by omega) (by omega) rfl ?_ ?_
    · intro place line _ less
      omega
    · intro place line found more
      have within := (List.getElem?_eq_some_iff.mp found).1
      omega

/-! ## What a line says -/

/-- A line that is neither blank nor a tag line. -/
def isLyric (rawLine : List Char) : Bool :=
  trim rawLine ≠ [] && idTag (trim rawLine) = none

/-- The times of a line with the texts behind them. -/
def tags (rawLine : List Char) : List (Int × List Char) :=
  (tagged '[' ']' 0 (trimRight rawLine)).2

/-- What is behind the last tag of a line. -/
def content (rawLine : List Char) : List Char :=
  trim (((tags rawLine).getLast?.map Prod.snd).getD [])

/-- The text of a line with tags. -/
def lyricText (rawLine : List Char) : List Char :=
  trim (withoutTags (content rawLine))

/-- What the plain text has of a line. -/
def plainLine (rawLine : List Char) : List Char :=
  if tags rawLine = [] then trim rawLine else lyricText rawLine

/-- The offset that a tag line sets. -/
def offsetOf (rawLine : List Char) : Option Int :=
  if trim rawLine ≠ [] ∧ idTag (trim rawLine) = some "offset".toList then
    let value := ((trimRight rawLine).dropWhile (· ≠ ':')).drop 1 |>.filter (· ≠ ']')
    some ((tryParse (trim value)).getD 0)
  else none

/-- The times of the lines with their texts. -/
def pairs (lines : List (List Char)) : List (Int × List Char) :=
  (lines.filter isLyric).flatMap fun rawLine =>
    (tags rawLine).map fun tag => (tag.1, lyricText rawLine)

/-- The offset of all lines, which the last offset line sets. -/
def offset (lines : List (List Char)) : Int :=
  (lines.filterMap offsetOf).getLast?.getD 0

theorem trim_trimRight (text : List Char) : trim (trimRight text) = trim text := by
  unfold trim trimRight
  rcases edges_cases Text.isDartSpace text with
    all | ⟨before, core, behind, whole, allBefore, allBehind, isCore⟩
  · rw [trimBy_all all, List.rdropWhile_eq_nil_iff.mpr all]
    rfl
  · obtain ⟨front, last, isLast, refused⟩ := isCore.ends
    have cut : text.rdropWhile Text.isDartSpace = before ++ (core ++ []) := by
      rw [whole, isLast, List.append_assoc, List.singleton_append, ← List.append_assoc,
        rdropWhile_append_singleton _ refused, List.rdropWhile_eq_nil_iff.mpr allBehind]
      simp
    rw [cut, whole, trimBy_core allBefore (fun _ member => absurd member List.not_mem_nil) isCore,
      trimBy_core allBefore allBehind isCore]

/-! ## The loop over the lines -/

/-- A time with its text. -/
def pairOf (line : LyricLine) : Int × List Char :=
  (line.time, line.text)

/-- What the loop has read of some lines. -/
structure Reads (lines : List (List Char)) (start final : Read) : Prop where
  parsed : final.parsed.map pairOf = start.parsed.map pairOf ++ pairs lines
  plainBuffer : final.plainBuffer = start.plainBuffer ++ (lines.filter isLyric).map plainLine
  sawTimestamp : final.sawTimestamp =
    (start.sawTimestamp || (lines.filter isLyric).any fun rawLine => tags rawLine ≠ [])
  offsetMs : final.offsetMs = (lines.filterMap offsetOf).getLast?.getD start.offsetMs

variable {rawLine : List Char}

theorem reads_nothing (read : Read) (notLyric : isLyric rawLine = false)
    (noOffset : offsetOf rawLine = none) : Reads [rawLine] read read := by
  constructor <;> simp [pairs, notLyric, noOffset]

theorem reads_line (read : Read) (rawLine : List Char) :
    Reads [rawLine] read (readLine read rawLine) := by
  unfold readLine
  dsimp only
  rw [trim_trimRight]
  split
  next blank =>
    refine reads_nothing read ?_ ?_
    · simp [isLyric, blank]
    · simp [offsetOf, blank]
  next filled =>
    split
    next key isKey =>
      have notLyric : isLyric rawLine = false := by simp [isLyric, isKey]
      split
      next isOffset =>
        subst isOffset
        have sets : offsetOf rawLine = some ((tryParse (trim
            ((((trimRight rawLine).dropWhile (· ≠ ':')).drop 1).filter (· ≠ ']')))).getD 0) :=
          if_pos ⟨filled, isKey⟩
        constructor <;> simp [pairs, notLyric, sets]
      next other =>
        refine reads_nothing read notLyric (if_neg fun both => ?_)
        rw [isKey, Option.some.injEq] at both
        exact other both.2
    next noKey =>
      have isLyric_ : isLyric rawLine = true := by simp [isLyric, filled, noKey]
      have noOffset : offsetOf rawLine = none := if_neg (by simp [noKey])
      split
      next last =>
        have untimed : tags rawLine = [] := List.getLast?_eq_none_iff.mp last
        constructor <;> simp [pairs, isLyric_, noOffset, untimed, plainLine]
      next time behind last =>
        have isContent : content rawLine = trim behind := by
          unfold content tags
          rw [last]
          rfl
        have timed : tags rawLine ≠ [] := by
          intro untimed
          unfold tags at untimed
          rw [untimed] at last
          cases last
        have isText : lyricText rawLine = trim (withoutTags (trim behind)) := by
          unfold lyricText
          rw [isContent]
        constructor
        · simp [pairs, isLyric_, isText, pairOf, tags]
        · simp [isLyric_, plainLine, timed, isText]
        · simp [isLyric_, timed]
        · simp [noOffset]

theorem Reads.trans {first second : List (List Char)} {start middle final : Read}
    (reads : Reads first start middle) (more : Reads second middle final) :
    Reads (first ++ second) start final where
  parsed := by
    rw [more.parsed, reads.parsed]
    simp [pairs]
  plainBuffer := by
    rw [more.plainBuffer, reads.plainBuffer]
    simp
  sawTimestamp := by
    rw [more.sawTimestamp, reads.sawTimestamp]
    simp [Bool.or_assoc]
  offsetMs := by
    rw [more.offsetMs, reads.offsetMs, List.filterMap_append, List.getLast?_append]
    cases (second.filterMap offsetOf).getLast? with
    | none => rfl
    | some last => rfl

theorem reads_foldl (lines : List (List Char)) (start : Read) :
    Reads lines start (lines.foldl readLine start) := by
  induction lines generalizing start with
  | nil => constructor <;> simp [pairs]
  | cons rawLine rest ih =>
    exact (reads_line start rawLine).trans (ih (readLine start rawLine))

/-! ## Times -/

variable {text : List Char}

theorem timeTag_eq {opening closing : Char} {time : Int} {length : Nat}
    (isTag : timeTag opening closing text = some (time, length)) :
    ∃ milliseconds : Nat, time = 1000 * milliseconds := by
  have whole : ∀ minutes seconds places, ∃ milliseconds : Nat,
      toDuration minutes seconds places = 1000 * milliseconds := by
    intro minutes seconds places
    unfold toDuration
    dsimp only
    generalize (if places = [] then 0 else digitsValue ((places.rightpad 3 '0').take 3)) = last
    exact ⟨digitsValue minutes * 60000 + digitsValue seconds * 1000 + last, by omega⟩
  unfold timeTag at isTag
  split at isTag
  · cases isTag
  · split at isTag
    · cases isTag
    · obtain ⟨⟨minutes, behind⟩, -, isTag⟩ := Option.bind_eq_some_iff.mp isTag
      dsimp only at isTag
      split at isTag
      · obtain ⟨⟨seconds, behind⟩, -, isTag⟩ := Option.bind_eq_some_iff.mp isTag
        dsimp only at isTag
        split at isTag
        · cases isTag
        · split at isTag
          · cases isTag
            exact whole _ _ _
          · split at isTag
            · obtain ⟨⟨places, behind⟩, -, isTag⟩ := Option.bind_eq_some_iff.mp isTag
              dsimp only at isTag
              split at isTag
              · cases isTag
                exact whole _ _ _
              · cases isTag
            · cases isTag
      · cases isTag

theorem tagged_eq {opening closing : Char} {skip : Nat} {tag : Int × List Char}
    (member : tag ∈ (tagged opening closing skip text).2) :
    ∃ milliseconds : Nat, tag.1 = 1000 * milliseconds := by
  induction text generalizing skip with
  | nil =>
    unfold tagged at member
    cases member
  | cons char rest ih =>
    cases skip with
    | succ skip =>
      unfold tagged at member
      exact ih member
    | zero =>
      unfold tagged at member
      split at member
      next time length isTag =>
        rcases List.mem_cons.mp member with rfl | later
        · exact timeTag_eq isTag
        · exact ih later
      · exact ih member

theorem time_of_mem_pairs {lines : List (List Char)} {pair : Int × List Char}
    (member : pair ∈ pairs lines) : ∃ milliseconds : Nat, pair.1 = 1000 * milliseconds := by
  obtain ⟨rawLine, -, inside⟩ := List.mem_flatMap.mp member
  obtain ⟨tag, isTag, rfl⟩ := List.mem_map.mp inside
  obtain ⟨milliseconds, isTime⟩ := tagged_eq isTag
  exact ⟨milliseconds, isTime⟩

theorem tryParse_lt {value : Int} (read : tryParse text = some value) : value < 2 ^ 63 := by
  unfold tryParse at read
  dsimp only at read
  generalize (if (trim text).head? = some '-' ∨ (trim text).head? = some '+' then
    (trim text).drop 1 else trim text) = digits at read
  split at read
  · obtain ⟨values, -, read⟩ := Option.bind_eq_some_iff.mp read
    split at read
    · cases read
    · rw [← Option.some.inj read]
      exact Int.bmod_lt (by decide)
  · rw [Option.ite_none_right_eq_some] at read
    rw [← Option.some.inj read.2]
    exact read.1.2.2.2

theorem offset_lt (lines : List (List Char)) : offset lines < 2 ^ 63 := by
  unfold offset
  cases last : (lines.filterMap offsetOf).getLast? with
  | none => decide
  | some value =>
    obtain ⟨rawLine, -, isOffset⟩ := List.mem_filterMap.mp (List.mem_of_getLast? last)
    unfold offsetOf at isOffset
    split at isOffset
    · rw [← Option.some.inj isOffset]
      cases read : tryParse (trim
          ((((trimRight rawLine).dropWhile (· ≠ ':')).drop 1).filter (· ≠ ']'))) with
      | none => decide
      | some value => exact tryParse_lt read
    · cases isOffset

/-- A time that is shifted and clamped. -/
def shifted (offset time : Int) : Int :=
  max 0 (time - 1000 * offset)

theorem bmod_eq {value : Int} (low : -2 ^ 63 ≤ value) (high : value < 2 ^ 63) :
    value.bmod (2 ^ 64) = value := by
  refine Int.bmod_eq_of_le ?_ ?_
  · exact low
  · exact high

theorem shift_eq {offset : Int} (milliseconds : Nat) (low : offset < 2 ^ 63)
    (fits : 1000 * (milliseconds : Int) - 1000 * offset < 2 ^ 63) :
    shift (1000 * milliseconds) offset = shifted offset (1000 * milliseconds) := by
  unfold shift shifted
  dsimp only
  have inner : ((milliseconds : Int) - offset).bmod (2 ^ 64) = milliseconds - offset :=
    bmod_eq (by omega) (by omega)
  rw [Int.mul_tdiv_cancel_left _ (by decide), inner]
  split
  · rw [Int.zero_mul, Int.zero_bmod]
    omega
  · rw [bmod_eq (by omega) (by omega)]
    omega

theorem shifted_mono (offset : Int) {one other : Int} (le : one ≤ other) :
    shifted offset one ≤ shifted offset other := by
  unfold shifted
  omega

/-! ## Texts -/

theorem trim_infix_trim {part : List Char} (inside : part <:+: text) :
    trim part <:+: trim text := by
  obtain ⟨front, back, rfl⟩ := inside
  unfold trim
  rcases edges_cases Text.isDartSpace part with
    all | ⟨before, core, behind, rfl, allBefore, allBehind, isCore⟩
  · rw [trimBy_all all]
    exact List.nil_infix
  · have whole : front ++ (before ++ (core ++ behind)) ++ back =
        (front ++ before) ++ (core ++ (behind ++ back)) := by simp
    rw [trimBy_core allBefore allBehind isCore, whole,
      trimBy_inner (fun _ accepted => accepted) _ _ isCore]
    exact ⟨_, _, List.append_assoc _ _ _⟩

theorem infix_joinLines {line : List Char} {lines : List (List Char)} (member : line ∈ lines) :
    line <:+: joinLines lines := by
  unfold joinLines
  induction lines with
  | nil => cases member
  | cons first rest ih =>
    cases rest with
    | nil =>
      rw [List.mem_singleton.mp member, List.intercalate_singleton]
    | cons second others =>
      rw [List.intercalate_cons_cons]
      rcases List.mem_cons.mp member with rfl | later
      · rw [List.append_assoc]
        exact (List.prefix_append _ _).isInfix
      · exact (ih later).trans (List.suffix_append _ _).isInfix

/-- The pieces of a text outside its word tags. -/
def wordPieces (text : List Char) : List (List Char) :=
  (tagged '<' '>' 0 text).1 :: (tagged '<' '>' 0 text).2.map Prod.snd

theorem infix_lyricText {piece : List Char} (member : piece ∈ wordPieces (content rawLine)) :
    trim piece <:+: lyricText rawLine := by
  refine trim_infix_trim ?_
  unfold withoutTags
  rcases List.mem_cons.mp member with rfl | behind
  · exact (List.prefix_append _ _).isInfix
  · refine List.IsInfix.trans ?_ (List.suffix_append _ _).isInfix
    rw [List.flatMap_def]
    exact List.infix_of_mem_flatten behind

/-! ## What the lyrics keep -/

/-- A sort by time, which may leave equal times in any order. -/
structure Sorts (sort : List LyricLine → List LyricLine) : Prop where
  perm : ∀ lines, (sort lines).Perm lines
  ordered : ∀ lines, Ordered (sort lines)

/-- What lyrics keep of a text. -/
structure KeepsText (text : List Char) (lyrics : ParsedLyrics) : Prop where
  lines : (lyrics.lines.map pairOf).Perm ((pairs (splitLines text)).map fun pair =>
    (shifted (offset (splitLines text)) pair.1, pair.2))
  ordered : Ordered lyrics.lines
  timed : ∀ rawLine ∈ splitLines text, isLyric rawLine = true → tags rawLine ≠ [] →
    lyricText rawLine <:+: lyrics.plainText ∧
      ∀ piece ∈ wordPieces (content rawLine), trim piece <:+: lyricText rawLine
  untimed : ∀ rawLine ∈ splitLines text, isLyric rawLine = true → tags rawLine = [] →
    trim rawLine <:+: lyrics.plainText
  active : ∀ position, activeIndex lyrics.lines position =
    lyrics.lines.countP (fun line => line.time ≤ position) - 1

theorem reads_all (text : List Char) :
    Reads (splitLines text) {} ((splitLines text).foldl readLine {}) :=
  reads_foldl (splitLines text) {}

/-- The plain text has every line that is neither blank nor a tag line. -/
theorem infix_plainText (sort : List LyricLine → List LyricLine)
    (member : rawLine ∈ splitLines text) (isLyric_ : isLyric rawLine = true) :
    plainLine rawLine <:+: (parseLrcOrPlain sort text).plainText := by
  have reads := reads_all text
  have among : rawLine ∈ (splitLines text).filter isLyric := List.mem_filter.mpr ⟨member, isLyric_⟩
  unfold parseLrcOrPlain
  dsimp only
  split
  next untimed =>
    have noTags : tags rawLine = [] := by
      rw [reads.sawTimestamp, Bool.or_eq_false_iff, List.any_eq_false] at untimed
      simpa using untimed.2 rawLine among
    have isPlain : plainLine rawLine = trim rawLine := if_pos noTags
    rw [isPlain]
    refine infix_joinLines (List.mem_filter.mpr ⟨List.mem_map_of_mem member, ?_⟩)
    simpa [isLyric] using isLyric_
  · dsimp only
    rw [reads.plainBuffer]
    by_cases filled : plainLine rawLine = []
    · rw [filled]
      exact List.nil_infix
    · refine infix_joinLines (List.mem_filter.mpr ⟨?_, decide_eq_true filled⟩)
      exact List.mem_append_right _ (List.mem_map_of_mem among)

variable {sort : List LyricLine → List LyricLine}

/-- The lines are those that were read, in order and shifted. -/
theorem exists_sorted (sorts : Sorts sort)
    (fits : ∀ pair ∈ pairs (splitLines text), pair.1 - 1000 * offset (splitLines text) < 2 ^ 63) :
    ∃ sorted, (sorted.map pairOf).Perm (pairs (splitLines text)) ∧ Ordered sorted ∧
      (parseLrcOrPlain sort text).lines.map pairOf = sorted.map fun line =>
        (shifted (offset (splitLines text)) line.time, line.text) := by
  have reads := reads_all text
  unfold parseLrcOrPlain
  dsimp only
  generalize (splitLines text).foldl readLine {} = read at reads ⊢
  have parsed : read.parsed.map pairOf = pairs (splitLines text) := by
    rw [reads.parsed]
    rfl
  have isOffset : read.offsetMs = offset (splitLines text) := reads.offsetMs
  split
  next untimed =>
    rw [reads.sawTimestamp, Bool.or_eq_false_iff, List.any_eq_false] at untimed
    have nothing : pairs (splitLines text) = [] := by
      refine List.flatMap_eq_nil_iff.mpr fun rawLine member => ?_
      have noTags : tags rawLine = [] := by simpa using untimed.2 rawLine member
      rw [noTags]
      rfl
    rw [nothing]
    exact ⟨[], .nil, .nil, rfl⟩
  · have perm := (sorts.perm read.parsed).map pairOf
    rw [parsed] at perm
    refine ⟨sort read.parsed, perm, sorts.ordered _, ?_⟩
    have shifts : ∀ line ∈ sort read.parsed, ∃ milliseconds : Nat, line.time = 1000 * milliseconds ∧
          1000 * (milliseconds : Int) - 1000 * offset (splitLines text) < 2 ^ 63 := by
      intro line member
      have among : pairOf line ∈ pairs (splitLines text) :=
        perm.mem_iff.mp (List.mem_map_of_mem member)
      obtain ⟨milliseconds, isTime⟩ := time_of_mem_pairs among
      have fit := fits _ among
      rw [isTime] at fit
      exact ⟨milliseconds, isTime, fit⟩
    dsimp only
    rw [isOffset]
    split
    next zero =>
      refine List.map_congr_left fun line member => ?_
      obtain ⟨milliseconds, isTime, -⟩ := shifts line member
      have same : shifted 0 line.time = line.time := by
        unfold shifted
        omega
      rw [zero, same]
      rfl
    · rw [List.map_map]
      refine List.map_congr_left fun line member => ?_
      obtain ⟨milliseconds, isTime, fit⟩ := shifts line member
      have shiftedTime := shift_eq milliseconds (offset_lt _) fit
      rw [← isTime] at shiftedTime
      change (shift line.time (offset (splitLines text)), line.text) = _
      rw [shiftedTime]

theorem perm_lines (sorts : Sorts sort)
    (fits : ∀ pair ∈ pairs (splitLines text), pair.1 - 1000 * offset (splitLines text) < 2 ^ 63) :
    ((parseLrcOrPlain sort text).lines.map pairOf).Perm ((pairs (splitLines text)).map fun pair =>
      (shifted (offset (splitLines text)) pair.1, pair.2)) := by
  obtain ⟨sorted, perm, -, same⟩ := exists_sorted sorts fits
  have shiftedPairs := perm.map fun pair => (shifted (offset (splitLines text)) pair.1, pair.2)
  rw [List.map_map] at shiftedPairs
  rw [same]
  exact shiftedPairs

theorem ordered_lines (sorts : Sorts sort)
    (fits : ∀ pair ∈ pairs (splitLines text), pair.1 - 1000 * offset (splitLines text) < 2 ^ 63) :
    Ordered (parseLrcOrPlain sort text).lines := by
  obtain ⟨sorted, -, ordered, same⟩ := exists_sorted sorts fits
  have inOrder : ((parseLrcOrPlain sort text).lines.map pairOf).Pairwise
      fun one other => one.1 ≤ other.1 := by
    rw [same, List.pairwise_map]
    exact ordered.imp fun le => shifted_mono _ le
  rw [List.pairwise_map] at inOrder
  exact inOrder

theorem keepsText {sort : List LyricLine → List LyricLine} (sorts : Sorts sort) (text : List Char)
    (fits : ∀ pair ∈ pairs (splitLines text), pair.1 - 1000 * offset (splitLines text) < 2 ^ 63) :
    KeepsText text (parseLrcOrPlain sort text) := by
  have ordered := ordered_lines sorts fits
  refine ⟨perm_lines sorts fits, ordered, ?_, ?_, activeIndex_eq ordered⟩
  · intro rawLine member isLyric_ timed
    have plain := infix_plainText sort member isLyric_
    have isText : plainLine rawLine = lyricText rawLine := if_neg timed
    rw [isText] at plain
    exact ⟨plain, fun piece inside => infix_lyricText inside⟩
  · intro rawLine member isLyric_ untimed
    have plain := infix_plainText sort member isLyric_
    have isText : plainLine rawLine = trim rawLine := if_pos untimed
    rw [isText] at plain
    exact plain

/-- A stable sort by time. -/
def sortByTime (lines : List LyricLine) : List LyricLine :=
  lines.insertionSort fun one other => one.time ≤ other.time

theorem sorts_sortByTime : Sorts sortByTime where
  perm := List.perm_insertionSort _
  ordered lines := by
    have total : Std.Total fun one other : LyricLine => one.time ≤ other.time :=
      ⟨fun one other => Int.le_total one.time other.time⟩
    have trans : IsTrans LyricLine fun one other => one.time ≤ other.time :=
      ⟨fun _ _ _ => Int.le_trans⟩
    exact List.pairwise_insertionSort _ lines

theorem keepsText_chorus : KeepsText "[00:02.00][00:10.00]chorus\n[offset:500]".toList
      (parseLrcOrPlain sortByTime "[00:02.00][00:10.00]chorus\n[offset:500]".toList) :=
  keepsText sorts_sortByTime _ (by decide +kernel)

/-- The pieces of a line outside its tags of both kinds. -/
def pieces (rawLine : List Char) : List (List Char) :=
  ((tagged '[' ']' 0 (trimRight rawLine)).1 :: (tags rawLine).map Prod.snd).flatMap wordPieces

theorem text_between_tags :
    ¬∀ (sort : List LyricLine → List LyricLine), Sorts sort → ∀ text : List Char,
      ∀ rawLine ∈ splitLines text, isLyric rawLine = true → ∀ piece ∈ pieces rawLine,
        (∃ line ∈ (parseLrcOrPlain sort text).lines, trim piece <:+: line.text) ∧
          trim piece <:+: (parseLrcOrPlain sort text).plainText := by
  intro keeps
  have both := keeps sortByTime sorts_sortByTime "[00:01.00]Hello [00:05.00]World".toList
    "[00:01.00]Hello [00:05.00]World".toList (by decide +kernel) (by decide +kernel)
    "Hello ".toList (by decide +kernel)
  exact absurd both.2 (by decide +kernel)

end LosslessMusic.Lyrics.LyricsParser
