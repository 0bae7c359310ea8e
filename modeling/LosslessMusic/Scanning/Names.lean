import LosslessMusic.Text

/-!
# Names of library files

`library_extension`, `supported`, `staging` and `cue_base`: what the scan reads from a path. The
tracks of a sheet have no file of their own; their paths are the sheet's with a number behind it.
-/

namespace LosslessMusic.Scanning

abbrev Path := List Char

/-- The last name of a path, backwards. -/
def backwards (path : Path) : List Char := path.reverse.takeWhile (· ≠ '/')

/-- `to_lowercase`, for the letters of extensions. -/
def lower (text : List Char) : List Char := text.flatMap Text.lowerChar

/-- `library_extension`, without a hint. -/
def libraryExtension (path : Path) : List Char :=
  if '.' ∈ backwards path then lower ((backwards path).takeWhile (· ≠ '.')).reverse else []

/-- The extensions that `supported` knows. -/
def extensions : List (List Char) :=
  ["flac", "m4a", "mp4", "aac", "mp3", "opus", "ogg", "ape", "wv", "mpc", "wav", "aiff", "aif",
    "dsf", "dff", "cue"].map String.toList

def supported (path : Path) : Bool := extensions.contains (libraryExtension path)

def isCue (path : Path) : Bool := libraryExtension path = "cue".toList

def staging (path : Path) : Bool :=
  let name := lower (backwards path).reverse
  ".partial".toList.isSuffixOf name ||
    ('.' ∈ name && ".partial".toList.isSuffixOf (name.reverse.dropWhile (· ≠ '.')).tail.reverse)

/-- `rfind`: where the needle is last. -/
def rfind (needle : List Char) : List Char → Option Nat
  | [] => if needle = [] then some 0 else none
  | char :: rest =>
    match rfind needle rest with
    | some index => some (index + 1)
    | none => if needle.isPrefixOf (char :: rest) then some 0 else none

def track : List Char := "#track".toList

def cueBase (path : Path) : Option Path :=
  ((rfind track path).filter (0 < ·)).map path.take

/-- A number with two digits at least. -/
def twoDigits (number : Int) : List Char :=
  let digits := (toString number).toList
  if digits.length < 2 then '0' :: digits else digits

/-- The path of a track. -/
def trackPath (sheet : Path) (number : Int) : Path := sheet ++ track ++ twoDigits number

/-! ## The path of a track -/

theorem rfind_append {needle rest : List Char} {index : Nat} (found : rfind needle rest = some index)
    (before : List Char) : rfind needle (before ++ rest) = some (before.length + index) := by
  induction before with
  | nil => simpa using found
  | cons char before ih =>
    rw [List.cons_append, rfind, ih]
    simp only [List.length_cons, Option.some.injEq]
    omega

variable {char : Char}

theorem rfind_none {needle text : List Char} (absent : char ∉ text) :
    rfind (char :: needle) text = none := by
  induction text with
  | nil => rfl
  | cons first rest ih =>
    rw [List.mem_cons, not_or] at absent
    rw [rfind, ih absent.2]
    simp [List.isPrefixOf, absent.1]

theorem mem_toString {number : Int} (member : char ∈ (toString number).toList) :
    char.isDigit = true ∨ char = '-' := by
  cases number with
  | ofNat number =>
    refine .inl (Nat.isDigit_of_mem_toDigits (b := 10) (n := number) (by decide) (by decide) ?_)
    simpa [toString, Int.repr] using member
  | negSucc number =>
    rw [show toString (Int.negSucc number) = "-" ++ Nat.repr (number + 1) from rfl,
      String.toList_append, List.mem_append] at member
    rcases member with sign | digits
    · exact .inr (List.mem_singleton.mp sign)
    · exact .inl (Nat.isDigit_of_mem_toDigits (b := 10) (n := number + 1) (by decide) (by decide)
        (by simpa using digits))

theorem mem_twoDigits {number : Int} (member : char ∈ twoDigits number) :
    char.isDigit = true ∨ char = '-' := by
  unfold twoDigits at member
  dsimp only at member
  split at member
  · rcases List.mem_cons.mp member with rfl | member
    · exact .inl (by decide)
    · exact mem_toString member
  · exact mem_toString member

theorem not_mem_twoDigits (number : Int) (other : char.isDigit = false)
    (sign : char ≠ '-') : char ∉ twoDigits number := by
  intro member
  rcases mem_twoDigits member with digit | same
  · rw [other] at digit
    cases digit
  · exact sign same

variable {sheet : Path}

theorem cueBase_trackPath (named : sheet ≠ []) (number : Int) :
    cueBase (trackPath sheet number) = some sheet := by
  have later : rfind track ("track".toList ++ twoDigits number) = none := by
    refine rfind_none ?_
    rw [List.mem_append, not_or]
    exact ⟨by decide, not_mem_twoDigits number (by decide) (by decide)⟩
  have here : rfind track (track ++ twoDigits number) = some 0 := by
    have first : track ++ twoDigits number = '#' :: ("track".toList ++ twoDigits number) := rfl
    have isPrefix : track.isPrefixOf ('#' :: ("track".toList ++ twoDigits number)) = true :=
      List.isPrefixOf_iff_prefix.mpr ⟨_, rfl⟩
    rw [first, rfind, later]
    exact if_pos isPrefix
  have found := rfind_append here sheet
  have positive : 0 < sheet.length := List.length_pos_iff.mpr named
  rw [trackPath, List.append_assoc, cueBase, found]
  simp [Option.filter, positive]

theorem lower_append (first second : List Char) :
    lower (first ++ second) = lower first ++ lower second := List.flatMap_append

theorem mem_extensions {extension : List Char} (member : extension ∈ extensions) :
    '#' ∉ extension := by
  have all : ∀ extension ∈ extensions, '#' ∉ extension := by decide
  exact all extension member

theorem libraryExtension_append {tail : Path} (named : '.' ∈ backwards sheet)
    (slash : '/' ∉ tail) (dot : '.' ∉ tail) :
    libraryExtension (sheet ++ tail) = libraryExtension sheet ++ lower tail := by
  have within : backwards (sheet ++ tail) = tail.reverse ++ backwards sheet := by
    rw [backwards, List.reverse_append, List.takeWhile_append_of_pos]
    · rfl
    · intro char member
      have other : char ≠ '/' := fun same => slash (same ▸ List.mem_reverse.mp member)
      simpa using other
  have named' : '.' ∈ tail.reverse ++ backwards sheet := List.mem_append_right _ named
  rw [libraryExtension, within, if_pos named', List.takeWhile_append_of_pos,
    List.reverse_append, List.reverse_reverse, lower_append, libraryExtension, if_pos named]
  intro char member
  have other : char ≠ '.' := fun same => dot (same ▸ List.mem_reverse.mp member)
  simpa using other

variable {path : Path}

theorem named_of_isCue (cue : isCue path = true) : '.' ∈ backwards path := by
  by_contra absent
  rw [isCue, libraryExtension, if_neg absent] at cue
  revert cue
  decide

theorem ne_nil_of_isCue (cue : isCue path = true) : path ≠ [] := by
  rintro rfl
  revert cue
  decide

/-- A track of a sheet has no path of a file that is scanned. -/
theorem supported_trackPath (cue : isCue sheet = true) (number : Int) :
    supported (trackPath sheet number) = false := by
  have slash : '/' ∉ track ++ twoDigits number := by
    rw [List.mem_append, not_or]
    exact ⟨by decide, not_mem_twoDigits number (by decide) (by decide)⟩
  have dot : '.' ∉ track ++ twoDigits number := by
    rw [List.mem_append, not_or]
    exact ⟨by decide, not_mem_twoDigits number (by decide) (by decide)⟩
  have mark : '#' ∈ lower (track ++ twoDigits number) :=
    List.mem_flatMap.mpr ⟨'#', List.mem_append_left _ (by decide), by decide⟩
  rw [supported, trackPath, List.append_assoc,
    libraryExtension_append (named_of_isCue cue) slash dot]
  refine Bool.eq_false_iff.mpr fun known => ?_
  exact mem_extensions (List.contains_iff_mem.mp known) (List.mem_append_right _ mark)

theorem supported_of_isCue (cue : isCue path = true) : supported path = true := by
  have same : libraryExtension path = "cue".toList := of_decide_eq_true cue
  rw [supported, same]
  decide

/-! ## Whose row it is -/

/-- The file whose row has a path. -/
def owner (path : Path) : Path := if supported path then path else (cueBase path).getD path

theorem owner_supported (known : supported path = true) : owner path = path :=
  if_pos known

theorem owner_trackPath (cue : isCue sheet = true) (number : Int) :
    owner (trackPath sheet number) = sheet := by
  rw [owner, supported_trackPath cue, cueBase_trackPath (ne_nil_of_isCue cue)]
  rfl

end LosslessMusic.Scanning
