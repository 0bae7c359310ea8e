import LosslessMusic.Text
import Mathlib.Data.List.GetD

/-!
# Versions of extensions

The engine compares two versions with `compare_versions` before it installs a package,
and the app with `isNewerVersion` before it offers an update. A version is a list of
characters; the numbers of both sides have 64 bits.
-/

namespace LosslessMusic.Extensions

/-! ## The engine -/

/-- `isize::MAX`. -/
def maxNumber : Int := 2 ^ 63 - 1

/-- `isize::MIN`. -/
def minNumber : Int := -(2 ^ 63)

/-- The value of a digit. -/
def digitValue (digit : Char) : Int :=
  digit.toNat - 48

/-- The digits of a part, read up to an overflow: a number beyond the range is the end of
the range, and an invalid digit makes it zero. -/
def readDigits (negative : Bool) (value : Int) : List Char → Int
  | [] => value
  | digit :: rest =>
    if digit.isDigit then
      let next :=
        if negative then 10 * value - digitValue digit else 10 * value + digitValue digit
      if next > maxNumber then maxNumber
      else if next < minNumber then minNumber
      else readDigits negative next rest
    else 0

/-- `part.parse()`, with zero for what is no number. -/
def readPart : List Char → Int
  | '+' :: digits => readDigits false 0 digits
  | '-' :: digits => readDigits true 0 digits
  | digits => readDigits false 0 digits

/-- `version.strip_prefix('v').unwrap_or(version)`. -/
def withoutV : List Char → List Char
  | 'v' :: rest => rest
  | version => version

def parts (version : List Char) : List Int :=
  ((withoutV version).splitOn '.').map readPart

/-- The loop of `compare_versions`: a part that is missing is zero. -/
def compareParts : Nat → List Int → List Int → Ordering
  | 0, _, _ => .eq
  | turns + 1, first, second =>
    if first.isEmpty ∧ second.isEmpty then .eq
    else
      match compare (first.headD 0) (second.headD 0) with
      | .eq => compareParts turns first.tail second.tail
      | result => result

def compareVersions (first second : List Char) : Ordering :=
  compareParts (max (parts first).length (parts second).length) (parts first) (parts second)

/-- The first check of `validate_gates`: the running app is not older than a minimum. -/
def minimumGate (minAppVersion appVersion : List Char) : Bool :=
  let minimum := Text.trimmed minAppVersion
  let installed := Text.trimmed appVersion
  minimum.isEmpty || installed.isEmpty || compareVersions installed minimum != .lt

/-- What `install_or_upgrade` makes of a package whose extension is installed. -/
inductive Decision
  | upgrade
  | alreadyInstalled
  | downgrade
  deriving DecidableEq, Repr

/-- The comparison of `install_or_upgrade`. -/
def installOrUpgrade (package existing : List Char) : Decision :=
  match compareVersions package existing with
  | .gt => .upgrade
  | .eq => .alreadyInstalled
  | .lt => .downgrade

/-! ## The app -/

/-- A digit of base 10. -/
def decimalDigit? (digit : Char) : Option Int :=
  if digit.isDigit then some (digitValue digit) else none

/-- A digit of base 16. -/
def hexDigit? (digit : Char) : Option Int :=
  if digit.isDigit then some (digitValue digit)
  else if 'a' ≤ digit ∧ digit ≤ 'f' then some (digit.toNat - 87)
  else if 'A' ≤ digit ∧ digit ≤ 'F' then some (digit.toNat - 55)
  else none

/-- The number of some digits in a base, if there are any and all are digits of it. -/
def numeral? (base : Int) (digit? : Char → Option Int) (digits : List Char) : Option Int :=
  if digits.isEmpty then none
  else (digits.mapM digit?).map fun values => values.foldl (base * · + ·) 0

/-- A number within the range. -/
def inRange? (value : Int) : Option Int :=
  if minNumber ≤ value ∧ value ≤ maxNumber then some value else none

/-- `int.tryParse`, for a text without a sign: a hexadecimal number of 64 bits wraps. -/
def tryParse (text : List Char) : Option Int :=
  match text with
  | '0' :: mark :: digits =>
    if mark = 'x' ∨ mark = 'X' then
      (numeral? 16 hexDigit? digits).bind fun value =>
        if value ≤ maxNumber then some value else inRange? (value - 2 ^ 64)
    else (numeral? 10 decimalDigit? text).bind inRange?
  | _ => (numeral? 10 decimalDigit? text).bind inRange?

/-- `text.trim()` of the app. -/
def dartTrimmed (text : List Char) : List Char :=
  (text.dropWhile Text.isDartSpace).rdropWhile Text.isDartSpace

/-- `parse` of `isNewerVersion`: suffixes behind `+` and `-` are dropped. -/
def versionNumbers (version : List Char) : List Int :=
  (((version.takeWhile (· ≠ '+')).takeWhile (· ≠ '-')).splitOn '.').map fun part =>
    (tryParse (dartTrimmed part)).getD 0

/-- `while (parts.length < 3) parts.add(0)`. -/
def atLeastThree (numbers : List Int) : List Int :=
  numbers ++ List.replicate (3 - numbers.length) 0

/-- `isNewerVersion`: the first of three numbers that differ decide. -/
def isNewerVersion (latest current : List Char) : Bool :=
  let l := atLeastThree (versionNumbers latest)
  let c := atLeastThree (versionNumbers current)
  match (List.range 3).find? fun i => l.getD i 0 ≠ c.getD i 0 with
  | some i => decide (l.getD i 0 > c.getD i 0)
  | none => false

/-- What the app knows of an installed extension. -/
structure InstalledExtension where
  id : List Char
  name : List Char
  displayName : List Char
  version : List Char
  deriving DecidableEq, Repr

/-- An extension of the catalog. -/
structure StoreExtension where
  id : List Char
  version : List Char
  minAppVersion : Option (List Char) := none
  deriving DecidableEq, Repr

/-- An update that is offered. -/
structure ExtensionUpdate where
  id : List Char
  displayName : List Char
  fromVersion : List Char
  toVersion : List Char
  storeExt : StoreExtension
  deriving DecidableEq, Repr

/-- `byId[id]`: the last entry of the catalog with the identifier. -/
def byId (catalog : List StoreExtension) (id : List Char) : Option StoreExtension :=
  catalog.reverse.find? fun entry => entry.id = id

/-- The update of an installed extension to an entry of the catalog. -/
def updateOf (ext : InstalledExtension) (store : StoreExtension) : ExtensionUpdate where
  id := ext.id
  displayName := if ext.displayName.isEmpty then ext.name else ext.displayName
  fromVersion := ext.version
  toVersion := store.version
  storeExt := store

def computeExtensionUpdates (installed : List InstalledExtension)
    (catalog : List StoreExtension) (engineVersion : List Char) : List ExtensionUpdate :=
  installed.filterMap fun ext =>
    (byId catalog ext.id).bind fun store =>
      if (store.minAppVersion.any fun minimum => isNewerVersion minimum engineVersion) then none
      else if isNewerVersion store.version ext.version then some (updateOf ext store)
      else none

/-! ## Comparing numbers -/

section Comparing

theorem compareParts_gt_iff (turns : Nat) {first second : List Int} (enough : first.length ≤ turns)
    (enoughToo : second.length ≤ turns) :
    compareParts turns first second = .gt ↔
      ∃ i, (∀ j < i, first.getD j 0 = second.getD j 0) ∧ first.getD i 0 > second.getD i 0 := by
  induction turns generalizing first second with
  | zero =>
    rw [List.length_eq_zero_iff.mp (Nat.le_zero.mp enough),
      List.length_eq_zero_iff.mp (Nat.le_zero.mp enoughToo)]
    simp [compareParts]
  | succ turns ih =>
    have heads (list : List Int) : list.headD 0 = list.getD 0 0 := by
      cases list with
      | nil => rfl
      | cons head rest => rfl
    have tails (list : List Int) (i : Nat) : list.tail.getD i 0 = list.getD (i + 1) 0 := by
      cases list with
      | nil => simp
      | cons head rest => simp
    have later : compareParts turns first.tail second.tail = .gt ↔
        ∃ i, (∀ j < i, first.tail.getD j 0 = second.tail.getD j 0) ∧
          first.tail.getD i 0 > second.tail.getD i 0 :=
      ih (by rw [List.length_tail]; omega) (by rw [List.length_tail]; omega)
    rw [compareParts]
    split
    next empty =>
      rw [List.isEmpty_iff, List.isEmpty_iff] at empty
      rw [empty.1, empty.2]
      simp
    next =>
      rw [heads first, heads second]
      cases decided : compare (first.getD 0 0) (second.getD 0 0) with
      | eq =>
        have same := Int.compare_eq_eq.mp decided
        refine later.trans ?_
        simp only [tails]
        constructor
        · rintro ⟨i, before, greater⟩
          refine ⟨i + 1, ?_, greater⟩
          intro j less
          cases j with
          | zero => exact same
          | succ j => exact before j (Nat.lt_of_succ_lt_succ less)
        · rintro ⟨i, before, greater⟩
          cases i with
          | zero => omega
          | succ i => exact ⟨i, fun j less => before (j + 1) (Nat.succ_lt_succ less), greater⟩
      | gt =>
        have greater := Int.compare_eq_gt.mp decided
        refine iff_of_true rfl ⟨0, fun j less => absurd less (Nat.not_lt_zero j), greater⟩
      | lt =>
        have less := Int.compare_eq_lt.mp decided
        refine iff_of_false (by simp) ?_
        rintro ⟨i, same, greater⟩
        cases i with
        | zero => omega
        | succ i =>
          have equal := same 0 (Nat.succ_pos i)
          omega

theorem getD_atLeastThree (numbers : List Int) (i : Nat) :
    (atLeastThree numbers).getD i 0 = numbers.getD i 0 := by
  unfold atLeastThree
  by_cases present : i < numbers.length
  · exact List.getD_append _ _ 0 i present
  · have beyond := Nat.le_of_not_lt present
    rw [List.getD_append_right _ _ 0 i beyond, List.getD_eq_default _ _ beyond]
    rw [List.getD_eq_getElem?_getD, List.getElem?_replicate]
    split
    · rfl
    · rfl

theorem isNewerVersion_iff (latest current : List Char) : isNewerVersion latest current = true ↔
      ∃ i < 3, (∀ j < i, (versionNumbers latest).getD j 0 = (versionNumbers current).getD j 0) ∧
        (versionNumbers latest).getD i 0 > (versionNumbers current).getD i 0 := by
  unfold isNewerVersion
  simp only [getD_atLeastThree]
  generalize versionNumbers latest = l
  generalize versionNumbers current = c
  cases found : (List.range 3).find? fun i => decide (l.getD i 0 ≠ c.getD i 0) with
  | none =>
    rw [List.find?_range_eq_none] at found
    refine iff_of_false Bool.false_ne_true ?_
    rintro ⟨i, small, _, greater⟩
    have same := found i small
    simp only [ne_eq, decide_not, Bool.not_not, decide_eq_true_eq] at same
    omega
  | some first =>
    rw [List.find?_range_eq_some] at found
    obtain ⟨differs, inRange, before⟩ := found
    simp only [ne_eq, decide_not, Bool.not_not, Bool.not_eq_true', decide_eq_true_eq,
      decide_eq_false_iff_not] at differs before
    rw [List.mem_range] at inRange
    rw [decide_eq_true_eq]
    constructor
    · intro greater
      exact ⟨first, inRange, before, greater⟩
    · rintro ⟨i, small, same, greater⟩
      rcases Nat.lt_trichotomy i first with less | equal | more
      · have equalNumbers := before i less
        omega
      · rw [← equal]
        exact greater
      · exact absurd (same first more) differs

end Comparing

/-! ## Releases -/

/-- The value of digits. -/
def decimalValue (digits : List Char) : Int :=
  digits.foldl (fun value digit => 10 * value + digitValue digit) 0

/-- A version of plain numbers within the range, of which only the first three count. -/
structure IsRelease (version : List Char) : Prop where
  digits : ∀ part ∈ version.splitOn '.', part ≠ [] ∧ ∀ char ∈ part, char.isDigit = true
  small : ∀ part ∈ version.splitOn '.', decimalValue part ≤ maxNumber
  three : ∀ part ∈ (version.splitOn '.').drop 3, decimalValue part = 0

section Releases

theorem digitValue_nonneg {digit : Char} (decimal : digit.isDigit = true) :
    0 ≤ digitValue digit := by
  unfold Char.isDigit at decimal
  rw [Bool.and_eq_true, decide_eq_true_eq, decide_eq_true_eq] at decimal
  have low : 48 ≤ digit.toNat := decimal.1
  unfold digitValue
  omega

variable {digits : List Char}

theorem le_foldl_digits (decimal : ∀ digit ∈ digits, digit.isDigit = true) {value : Int}
    (nonneg : 0 ≤ value) :
    value ≤ digits.foldl (fun value digit => 10 * value + digitValue digit) value := by
  induction digits generalizing value with
  | nil => exact Int.le_refl value
  | cons digit rest ih =>
    rw [List.forall_mem_cons] at decimal
    have digitNonneg := digitValue_nonneg decimal.1
    have nextNonneg : 0 ≤ 10 * value + digitValue digit := by omega
    have later := ih decimal.2 nextNonneg
    rw [List.foldl_cons]
    omega

theorem readDigits_decimal (decimal : ∀ digit ∈ digits, digit.isDigit = true) {value : Int}
    (nonneg : 0 ≤ value)
    (small : digits.foldl (fun value digit => 10 * value + digitValue digit) value ≤ maxNumber) :
    readDigits false value digits =
      digits.foldl (fun value digit => 10 * value + digitValue digit) value := by
  induction digits generalizing value with
  | nil => rfl
  | cons digit rest ih =>
    rw [List.forall_mem_cons] at decimal
    have digitNonneg := digitValue_nonneg decimal.1
    have nextNonneg : 0 ≤ 10 * value + digitValue digit := by omega
    rw [List.foldl_cons] at small ⊢
    have bound := le_foldl_digits decimal.2 nextNonneg
    have inRange : ¬ 10 * value + digitValue digit > maxNumber := by omega
    have above : ¬ 10 * value + digitValue digit < minNumber := by
      unfold minNumber
      omega
    rw [readDigits, if_pos decimal.1]
    simp only [Bool.false_eq_true, if_false]
    rw [if_neg inRange, if_neg above, ih decimal.2 nextNonneg small]

theorem isDigit_ne {char mark : Char} (decimal : char.isDigit = true)
    (isMark : mark.isDigit = false) : char ≠ mark := by
  rintro rfl
  exact Bool.false_ne_true (isMark.symm.trans decimal)

theorem readPart_decimal (decimal : ∀ digit ∈ digits, digit.isDigit = true)
    (small : decimalValue digits ≤ maxNumber) : readPart digits = decimalValue digits := by
  have plain : readPart digits = readDigits false 0 digits := by
    cases digits with
    | nil => rfl
    | cons first rest =>
      have isDigit := decimal first List.mem_cons_self
      unfold readPart
      split
      next same =>
        exact absurd (List.cons.inj same).1 (isDigit_ne isDigit (by decide))
      next same =>
        exact absurd (List.cons.inj same).1 (isDigit_ne isDigit (by decide))
      next => rfl
  rw [plain]
  exact readDigits_decimal decimal (Int.le_refl 0) small

theorem tryParse_decimal (nonempty : digits ≠ []) (decimal : ∀ digit ∈ digits, digit.isDigit = true)
    (small : decimalValue digits ≤ maxNumber) : tryParse digits = some (decimalValue digits) := by
  have values : digits.mapM decimalDigit? = some (digits.map digitValue) := by
    clear nonempty small
    induction digits with
    | nil => rfl
    | cons digit rest ih =>
      rw [List.forall_mem_cons] at decimal
      have first : decimalDigit? digit = some (digitValue digit) := if_pos decimal.1
      rw [List.mapM_cons, first, ih decimal.2]
      rfl
  have nonneg : 0 ≤ decimalValue digits := le_foldl_digits decimal (Int.le_refl 0)
  have number : (numeral? 10 decimalDigit? digits).bind inRange? = some (decimalValue digits) := by
    unfold numeral?
    rw [if_neg (by simpa using nonempty), values, Option.map_some, List.foldl_map, Option.bind_some]
    refine if_pos ⟨?_, small⟩
    unfold minNumber
    exact Int.le_trans (by decide) nonneg
  unfold tryParse
  split
  next mark rest =>
    rw [if_neg, number]
    have isDigit := decimal mark (by simp)
    exact not_or.mpr ⟨isDigit_ne isDigit (by decide), isDigit_ne isDigit (by decide)⟩
  next => exact number

variable {version : List Char}

theorem IsRelease.chars (release : IsRelease version) :
    ∀ char ∈ version, char.isDigit = true ∨ char = '.' := by
  have whole : ['.'].intercalate (version.splitOn '.') = version := List.intercalate_splitOn '.'
  have digits := release.digits
  rw [← whole]
  generalize version.splitOn '.' = pieces at digits
  induction pieces with
  | nil => exact fun _ member => nomatch member
  | cons part rest ih =>
    rw [List.forall_mem_cons] at digits
    intro char member
    cases rest with
    | nil =>
      rw [List.intercalate_singleton] at member
      exact .inl (digits.1.2 char member)
    | cons second others =>
      rw [List.intercalate_cons_cons, List.append_assoc, List.mem_append, List.mem_append] at member
      rcases member with inPart | isDot | later
      · exact .inl (digits.1.2 char inPart)
      · exact .inr (List.mem_singleton.mp isDot)
      · exact ih digits.2 char later

theorem IsRelease.not_mem (release : IsRelease version) {mark : Char}
    (isMark : mark.isDigit = false) (noDot : mark ≠ '.') : mark ∉ version := by
  intro member
  rcases release.chars mark member with isDigit | isDot
  · exact isDigit_ne isDigit isMark rfl
  · exact noDot isDot

/-- The numbers of a release. -/
def releaseNumbers (version : List Char) : List Int :=
  (version.splitOn '.').map decimalValue

theorem parts_release (release : IsRelease version) : parts version = releaseNumbers version := by
  have plain : withoutV version = version := by
    unfold withoutV
    split
    next rest => exact absurd List.mem_cons_self (release.not_mem (by decide) (by decide))
    next => rfl
  unfold parts releaseNumbers
  rw [plain]
  exact List.map_congr_left fun part member =>
    readPart_decimal (release.digits part member).2 (release.small part member)

theorem isDartSpace_decimal {char : Char} (decimal : char.isDigit = true) :
    Text.isDartSpace char = false := by
  have noMark : ¬ char = '\uFEFF' := isDigit_ne decimal (by decide)
  unfold Char.isDigit at decimal
  rw [Bool.and_eq_true, decide_eq_true_eq, decide_eq_true_eq] at decimal
  have low : 48 ≤ char.toNat := decimal.1
  have high : char.toNat ≤ 57 := decimal.2
  unfold Text.isDartSpace Text.isWhiteSpace
  simp only [Bool.or_eq_false_iff, Bool.and_eq_false_iff, decide_eq_false_iff_not]
  exact ⟨by omega, noMark⟩

theorem dartTrimmed_decimal (decimal : ∀ digit ∈ digits, digit.isDigit = true) :
    dartTrimmed digits = digits := by
  have refused (digit : Char) (member : digit ∈ digits) : ¬ Text.isDartSpace digit = true := by
    rw [isDartSpace_decimal (decimal digit member)]
    exact Bool.false_ne_true
  have front : digits.dropWhile Text.isDartSpace = digits := by
    rw [List.dropWhile_eq_self_iff]
    exact fun nonempty => refused _ (List.get_mem digits ⟨0, nonempty⟩)
  unfold dartTrimmed
  rw [front, List.rdropWhile_eq_self_iff]
  exact fun nonempty => refused _ (List.getLast_mem nonempty)

theorem versionNumbers_release (release : IsRelease version) :
    versionNumbers version = releaseNumbers version := by
  have kept (mark : Char) (isMark : mark.isDigit = false) (noDot : mark ≠ '.') :
      version.takeWhile (· ≠ mark) = version := by
    rw [List.takeWhile_eq_self_iff]
    rintro char member
    rw [decide_eq_true_eq]
    rintro rfl
    exact release.not_mem isMark noDot member
  unfold versionNumbers releaseNumbers
  rw [kept '+' (by decide) (by decide), kept '-' (by decide) (by decide)]
  apply List.map_congr_left
  intro part member
  obtain ⟨nonempty, decimal⟩ := release.digits part member
  rw [dartTrimmed_decimal decimal, tryParse_decimal nonempty decimal (release.small part member)]
  rfl

theorem releaseNumbers_zero (release : IsRelease version) {i : Nat} (beyond : 3 ≤ i) :
    (releaseNumbers version).getD i 0 = 0 := by
  unfold releaseNumbers
  rw [List.getD_eq_getElem?_getD, List.getElem?_map]
  cases found : (version.splitOn '.')[i]? with
  | none => rfl
  | some part =>
    have late : part ∈ (version.splitOn '.').drop 3 := by
      apply List.mem_of_getElem? (i := i - 3)
      rw [List.getElem?_drop, Nat.add_sub_cancel' beyond]
      exact found
    exact release.three part late

/-- On releases the app finds a version newer when the engine does. -/
theorem isNewerVersion_release {latest current : List Char} (latestRelease : IsRelease latest)
    (currentRelease : IsRelease current) :
    isNewerVersion latest current = true ↔ compareVersions latest current = .gt := by
  unfold compareVersions
  rw [isNewerVersion_iff, compareParts_gt_iff _ (Nat.le_max_left _ _) (Nat.le_max_right _ _),
    parts_release latestRelease, parts_release currentRelease,
    versionNumbers_release latestRelease, versionNumbers_release currentRelease]
  constructor
  · rintro ⟨i, _, same, greater⟩
    exact ⟨i, same, greater⟩
  · rintro ⟨i, same, greater⟩
    refine ⟨i, ?_, same, greater⟩
    by_contra beyond
    rw [releaseNumbers_zero latestRelease (Nat.le_of_not_lt beyond),
      releaseNumbers_zero currentRelease (Nat.le_of_not_lt beyond)] at greater
    exact absurd greater (Int.lt_irrefl 0)

theorem trimmed_release (release : IsRelease version) : Text.trimmed version = version := by
  have refused (char : Char) (member : char ∈ version) : ¬ Text.isWhiteSpace char = true := by
    rcases release.chars char member with decimal | rfl
    · have noSpace := isDartSpace_decimal decimal
      unfold Text.isDartSpace at noSpace
      rw [Bool.or_eq_false_iff] at noSpace
      rw [noSpace.1]
      exact Bool.false_ne_true
    · decide
  have front : version.dropWhile Text.isWhiteSpace = version := by
    rw [List.dropWhile_eq_self_iff]
    exact fun nonempty => refused _ (List.get_mem version ⟨0, nonempty⟩)
  unfold Text.trimmed
  rw [front, List.rdropWhile_eq_self_iff]
  exact fun nonempty => refused _ (List.getLast_mem nonempty)

theorem IsRelease.ne_nil (release : IsRelease version) : version ≠ [] := by
  rintro rfl
  exact (release.digits [] (by decide)).1 rfl

theorem compareVersions_lt_iff (first second : List Char) :
    compareVersions first second = .lt ↔ compareVersions second first = .gt := by
  have swapped (turns : Nat) (l c : List Int) :
      compareParts turns l c = .lt ↔ compareParts turns c l = .gt := by
    induction turns generalizing l c with
    | zero => simp [compareParts]
    | succ turns ih =>
      rw [compareParts, compareParts]
      by_cases empty : l.isEmpty ∧ c.isEmpty
      · rw [if_pos empty, if_pos empty.symm]
        simp
      · rw [if_neg empty, if_neg (mt And.symm empty), ← Int.compare_swap (l.headD 0) (c.headD 0)]
        cases compare (l.headD 0) (c.headD 0) with
        | eq => exact ih l.tail c.tail
        | lt => simp [Ordering.swap]
        | gt => simp [Ordering.swap]
  unfold compareVersions
  rw [Nat.max_comm]
  exact swapped _ _ _

theorem minimumGate_release {minimum appVersion : List Char} (minimumRelease : IsRelease minimum)
    (appRelease : IsRelease appVersion) :
    minimumGate minimum appVersion = !isNewerVersion minimum appVersion := by
  have newer := isNewerVersion_release minimumRelease appRelease
  unfold minimumGate
  dsimp only
  rw [trimmed_release minimumRelease, trimmed_release appRelease,
    List.isEmpty_eq_false_iff.mpr minimumRelease.ne_nil,
    List.isEmpty_eq_false_iff.mpr appRelease.ne_nil, Bool.false_or, Bool.false_or,
    Bool.eq_iff_iff, bne_iff_ne, Bool.not_eq_true', ← Bool.not_eq_true, newer, Ne,
    compareVersions_lt_iff]

/-- Any version is older than the newer of two versions, or newer than the older one. -/
theorem compareVersions_between {first third : List Char} (second : List Char)
    (newer : compareVersions first third = .gt) :
    compareVersions first second = .gt ∨ compareVersions second third = .gt := by
  unfold compareVersions at newer ⊢
  simp only [compareParts_gt_iff _ (Nat.le_max_left _ _) (Nat.le_max_right _ _)] at newer ⊢
  generalize parts first = f, parts second = s, parts third = t at newer ⊢
  obtain ⟨i, same, greater⟩ := newer
  by_contra neither
  obtain ⟨low, high⟩ := not_or.mp neither
  have alike (k : Nat) : k ≤ i → f.getD k 0 = s.getD k 0 ∧ s.getD k 0 = t.getD k 0 := by
    induction k using Nat.strongRecOn with
    | ind k ih =>
      intro early
      have below : ¬f.getD k 0 > s.getD k 0 := fun more =>
        low ⟨k, fun j less => (ih j less (by omega)).1, more⟩
      have above : ¬s.getD k 0 > t.getD k 0 := fun more =>
        high ⟨k, fun j less => (ih j less (by omega)).2, more⟩
      rcases Nat.lt_or_eq_of_le early with less | rfl
      · have equal := same k less
        omega
      · omega
  have last := alike i le_rfl
  omega

/-- The version that is installed when packages have been tried one after another, apart from
those that could not be put in place. -/
def installedAfter (version : List Char) (packages : List (List Char)) : List Char :=
  packages.foldl (fun existing package =>
    if installOrUpgrade package existing = .upgrade then package else existing) version

/-- Whatever packages are tried in whatever order, one of the newest versions stays. -/
theorem installedAfter_newest (version : List Char) (packages : List (List Char)) :
    installedAfter version packages ∈ version :: packages ∧
      ∀ other ∈ version :: packages,
        compareVersions other (installedAfter version packages) ≠ .gt := by
  have once {first second : List Char} (newer : compareVersions first second = .gt) :
      compareVersions second first ≠ .gt := by
    rw [Ne, ← compareVersions_lt_iff, newer]
    exact Ordering.noConfusion
  have upgraded (package existing : List Char) :
      installOrUpgrade package existing = .upgrade ↔ compareVersions package existing = .gt := by
    unfold installOrUpgrade
    cases compareVersions package existing <;> simp
  induction packages using List.reverseRecOn with
  | nil =>
    refine ⟨List.mem_cons_self, fun other member newer => ?_⟩
    rw [List.mem_singleton.mp member] at newer
    exact once newer newer
  | append_singleton packages package ih =>
    obtain ⟨member, newest⟩ := ih
    have last : installedAfter version (packages ++ [package]) =
        if compareVersions package (installedAfter version packages) = .gt then package
        else installedAfter version packages := by
      simp only [installedAfter, List.foldl_append, List.foldl_cons, List.foldl_nil, upgraded]
    rw [last, ← List.cons_append]
    split
    next newer =>
      refine ⟨List.mem_append_right _ List.mem_cons_self, fun other tried later => ?_⟩
      rcases List.mem_append.mp tried with earlier | same
      · rcases compareVersions_between (installedAfter version packages) later with more | more
        · exact newest other earlier more
        · exact once newer more
      · rw [List.mem_singleton.mp same] at later
        exact once later later
    next older =>
      refine ⟨List.mem_append_left _ member, fun other tried later => ?_⟩
      rcases List.mem_append.mp tried with earlier | same
      · exact newest other earlier later
      · rw [List.mem_singleton.mp same] at later
        exact older later

/-- The updates of one extension, for the version installed and the one available. -/
def offers (available installed : List Char) : Bool :=
  !(computeExtensionUpdates [⟨[], [], [], installed⟩] [⟨[], available, none⟩] []).isEmpty

end Releases

end LosslessMusic.Extensions
