import LosslessMusic.Extensions.Packages

/-!
# The central directory of a package

No byte of a package leads the reader of its central directory out of range. The names it
gives are as many as announced, clean, and pairwise different under their keys.
-/

namespace LosslessMusic.Extensions.Package

/-! ## Computations that end -/

/-- A computation that ends with a value or an error. -/
def Calm {α : Type} (outcome : Outcome α) : Prop :=
  outcome ≠ .error .panic ∧ outcome ≠ .error .endless

variable {input bytes : Bytes} {offset value : Nat}

section Calm

variable {α β : Type}

theorem calm_ok (value : α) : Calm (.ok value : Outcome α) := ⟨nofun, nofun⟩

theorem calm_error (message : String) : Calm (error message : Outcome α) := ⟨nofun, nofun⟩

variable {next : α → Outcome β}

theorem calm_bind {first : Outcome α} (calm : Calm first)
    (follows : ∀ value, first = .ok value → Calm (next value)) : Calm (first >>= next) := by
  cases first with
  | ok value => exact follows value rfl
  | error fault =>
    cases fault with
    | error message => exact calm_error message
    | panic => exact absurd rfl calm.1
    | endless => exact absurd rfl calm.2

theorem ok_of_bind {first : Outcome α} {value : β} (ended : (first >>= next) = .ok value) :
    ∃ middle, first = .ok middle ∧ next middle = .ok value := by
  cases first with
  | ok middle => exact ⟨middle, rfl, ended⟩
  | error fault => cases ended

variable {length : Nat}

theorem slice_of_le {start : Nat} (fits : start + length ≤ bytes.length) :
    slice bytes start length = .ok ((bytes.drop start).take length) := if_pos fits

theorem calm_slice {start : Nat} (fits : start + length ≤ bytes.length) :
    Calm (slice bytes start length) := by
  rw [slice_of_le fits]
  exact calm_ok _

theorem calm_number {width : Nat} (fits : offset + width ≤ bytes.length) :
    Calm (number width bytes offset) := by
  rw [number, slice_of_le fits]
  exact calm_ok _

variable {first second : Nat}

theorem calm_sub (fits : second ≤ first) : Calm (sub first second) := by
  rw [sub, if_pos fits]
  exact calm_ok _

theorem calm_add (fits : first + second < 2 ^ 64) : Calm (add first second) := by
  rw [add, if_pos fits]
  exact calm_ok _

theorem calm_readAt (input : Bytes) (offset length : Nat) : Calm (readAt input offset length) := by
  unfold readAt
  split
  · exact calm_ok _
  · exact calm_error _

theorem readAt_length (read : readAt input offset length = .ok bytes) : bytes.length = length:= by
  unfold readAt at read
  split at read
  next fits =>
    cases read
    rw [List.length_take, List.length_drop]
    omega
  next => cases read

theorem sub_ok (ended : sub first second = .ok value) :
    value = first - second ∧ second ≤ first := by
  unfold sub at ended
  split at ended
  next fits =>
    cases ended
    exact ⟨rfl, fits⟩
  next => cases ended

theorem add_ok (ended : add first second = .ok value) : value = first + second := by
  unfold add at ended
  split at ended <;> cases ended
  rfl

end Calm

/-! ## Numbers -/

theorem littleEndian_lt (bytes : Bytes) : littleEndian bytes < 256 ^ bytes.length := by
  induction bytes with
  | nil => exact Nat.one_pos
  | cons byte rest ih =>
    have small : byte.toNat < 256 := byte.toNat_lt
    rw [littleEndian, List.length_cons, Nat.pow_succ]
    omega

theorem number_lt (ended : number 2 bytes offset = .ok value) : value < 65536:= by
  unfold number slice at ended
  split at ended
  next fits =>
    cases ended
    refine Nat.lt_of_lt_of_le (littleEndian_lt _) ?_
    have short : ((bytes.drop offset).take 2).length ≤ 2 := List.length_take_le _ _
    calc 256 ^ ((bytes.drop offset).take 2).length ≤ 256 ^ 2 := Nat.pow_le_pow_right (by decide) short
      _ = 65536 := by decide
  next => cases ended

/-! ## The end record -/

theorem calm_findEnd {tail : Bytes} {index : Nat} (fits : index ≤ tail.length - 21) :
    Calm (findEnd tail index) := by
  induction index with
  | zero => exact calm_ok none
  | succ index ih =>
    have rest := ih (by omega)
    rw [findEnd]
    refine calm_bind (calm_slice (by omega)) fun bytes _ => ?_
    split
    · refine calm_bind (calm_number (by omega)) fun comment _ => ?_
      split
      · exact calm_ok _
      · exact rest
    · exact rest

theorem findEnd_lt {tail : Bytes} {index found : Nat}
    (ended : findEnd tail index = .ok (some found)) : found < index := by
  induction index with
  | zero => cases ended
  | succ index ih =>
    rw [findEnd] at ended
    obtain ⟨bytes, _, ended⟩ := ok_of_bind ended
    split at ended
    · obtain ⟨comment, _, ended⟩ := ok_of_bind ended
      split at ended
      · cases ended
        exact Nat.lt_succ_self _
      · exact Nat.lt_succ_of_lt (ih ended)
    · exact Nat.lt_succ_of_lt (ih ended)

theorem calm_findDirectory (bounded : input.length < 2 ^ 64) : Calm (findDirectory input) := by
  unfold findDirectory
  refine calm_bind (calm_sub (Nat.min_le_left _ _)) fun start started => ?_
  refine calm_bind (calm_readAt _ _ _) fun tail read => ?_
  have short := readAt_length read
  refine calm_bind (calm_findEnd (Nat.le_refl _)) fun found ended => ?_
  cases found with
  | none => exact calm_error _
  | some last =>
    have fits := findEnd_lt ended
    have within : min input.length 65557 ≤ input.length := Nat.min_le_left _ _
    refine calm_bind (calm_sub within) fun again same => ?_
    obtain ⟨rfl, _⟩ := sub_ok same
    refine calm_bind (calm_add (by omega)) fun absoluteEnd _ => ?_
    refine calm_bind (calm_number (by omega)) fun count _ => ?_
    refine calm_bind (calm_number (by omega)) fun size _ => ?_
    refine calm_bind (calm_number (by omega)) fun offset _ => ?_
    split
    · refine calm_bind (calm_readAt _ _ _) fun locator located => ?_
      have long := readAt_length located
      split
      · refine calm_bind (calm_number (by omega)) fun recordOffset _ => ?_
        refine calm_bind (calm_readAt _ _ _) fun record recorded => ?_
        have full := readAt_length recorded
        split
        · refine calm_bind (calm_number (by omega)) fun _ _ => ?_
          refine calm_bind (calm_number (by omega)) fun _ _ => ?_
          refine calm_bind (calm_number (by omega)) fun _ _ => ?_
          exact calm_ok _
        · exact calm_error _
      · exact calm_ok _
    · exact calm_ok _

/-! ## Clean paths -/

/-- A name of a file or a directory. -/
structure Plain (part : Bytes) : Prop where
  filled : part ≠ []
  here : part ≠ [46]
  above : part ≠ [46, 46]
  slash : slash ∉ part
  backslash : (92 : UInt8) ∉ part
  zero : (0 : UInt8) ∉ part

theorem mem_split {part : Bytes} (member : part ∈ split bytes) :
    slash ∉ part ∧ ∀ byte ∈ part, byte ∈ bytes := by
  induction bytes generalizing part with
  | nil =>
    obtain rfl := List.mem_singleton.mp member
    exact ⟨nofun, nofun⟩
  | cons byte rest ih =>
    rw [split] at member
    split at member
    · rcases List.mem_cons.mp member with rfl | later
      · exact ⟨nofun, nofun⟩
      · have known := ih later
        exact ⟨known.1, fun other inside => List.mem_cons_of_mem _ (known.2 other inside)⟩
    next other =>
      split at member
      next first parts same =>
        rcases List.mem_cons.mp member with rfl | later
        · have known := ih (same ▸ List.mem_cons_self)
          refine ⟨?_, fun found inside => ?_⟩
          · rw [List.mem_cons, not_or]
            exact ⟨fun equal => other equal.symm, known.1⟩
          · rcases List.mem_cons.mp inside with rfl | inside
            · exact List.mem_cons_self
            · exact List.mem_cons_of_mem _ (known.2 found inside)
        · have known := ih (same ▸ List.mem_cons_of_mem _ later)
          exact ⟨known.1, fun found inside => List.mem_cons_of_mem _ (known.2 found inside)⟩
      · obtain rfl := List.mem_singleton.mp member
        refine ⟨?_, fun found inside => ?_⟩
        · rw [List.mem_singleton]
          exact fun equal => other equal.symm
        · obtain rfl := List.mem_singleton.mp inside
          exact List.mem_cons_self

theorem cleanParts_plain {parts : List Bytes} {above path : Path}
    (cleaned : cleanParts parts above = some path)
    (sound : ∀ part ∈ parts, slash ∉ part ∧ (92 : UInt8) ∉ part ∧ (0 : UInt8) ∉ part)
    (plain : ∀ part ∈ above, Plain part) : ∀ part ∈ path, Plain part := by
  induction parts generalizing above with
  | nil =>
    cases cleaned
    exact fun part member => plain part (List.mem_reverse.mp member)
  | cons part rest ih =>
    have later : ∀ part ∈ rest, slash ∉ part ∧ (92 : UInt8) ∉ part ∧ (0 : UInt8) ∉ part :=
      fun part member => sound part (List.mem_cons_of_mem _ member)
    unfold cleanParts at cleaned
    split at cleaned
    · exact ih cleaned later plain
    next named =>
      split at cleaned
      · split at cleaned
        · cases cleaned
        · exact ih cleaned later fun part member =>
            plain part (List.mem_cons_of_mem _ member)
      next lower =>
        refine ih cleaned later fun other member => ?_
        rcases List.mem_cons.mp member with rfl | before
        · have good := sound other List.mem_cons_self
          exact ⟨fun empty => named (.inl empty), fun dot => named (.inr dot), lower, good.1,
            good.2.1, good.2.2⟩
        · exact plain other before

variable {libraries : Libraries}

theorem cleanPath_plain {name : Bytes} {path : Path}
    (cleaned : cleanPath libraries name = .ok path) : path ≠ [] ∧ ∀ part ∈ path, Plain part := by
  simp only [cleanPath] at cleaned
  split at cleaned
  · cases cleaned
  next allowed =>
    rw [not_or, not_or] at allowed
    split at cleaned
    · cases cleaned
    · cases cleaned
    next found filled parts =>
      split at cleaned <;> cases cleaned
      refine ⟨fun empty => filled (empty ▸ rfl), ?_⟩
      refine cleanParts_plain parts (fun part member => ?_) nofun
      have known := mem_split member
      exact ⟨known.1, fun inside => allowed.2.1 (known.2 _ inside),
        fun inside => allowed.2.2 (known.2 _ inside)⟩

theorem calm_cleanPath (name : Bytes) : Calm (cleanPath libraries name) := by
  simp only [cleanPath]
  split
  · exact calm_error _
  · split
    · exact calm_error _
    · exact calm_error _
    · split
      · exact calm_ok _
      · exact calm_error _

/-! ## The headers -/

/-- Names whose clean paths have different keys, none of them seen before. -/
structure Keyed (libraries : Libraries) (seen : List String) (names : List Bytes)
    (paths : List Path) : Prop where
  clean : List.Forall₂ (fun name path => cleanPath libraries name = .ok path) names paths
  different : (paths.map (key libraries)).Nodup
  fresh : ∀ path ∈ paths, key libraries path ∉ seen

theorem calm_walk {directoryEnd count position : Nat} {seen : List String} :
    Calm (walk libraries input directoryEnd count position seen) := by
  induction count generalizing position seen with
  | zero => exact calm_ok _
  | succ count ih =>
    rw [walk]
    refine calm_bind (calm_readAt _ _ _) fun header read => ?_
    have long := readAt_length read
    split
    · refine calm_bind (calm_number (by omega)) fun nameLength named => ?_
      have short := number_lt named
      refine calm_bind (calm_readAt _ _ _) fun name _ => ?_
      refine calm_bind (calm_cleanPath name) fun path _ => ?_
      split
      · exact calm_error _
      · refine calm_bind (calm_add (by omega)) fun first summed => ?_
        obtain rfl := add_ok summed
        refine calm_bind (calm_number (by omega)) fun extra extended => ?_
        have few := number_lt extended
        refine calm_bind (calm_add (by omega)) fun second summed => ?_
        obtain rfl := add_ok summed
        refine calm_bind (calm_number (by omega)) fun comment commented => ?_
        have less := number_lt commented
        refine calm_bind (calm_add (by omega)) fun size _ => ?_
        dsimp only
        split
        · exact calm_bind ih fun _ _ => calm_ok _
        · exact calm_error _
    · exact calm_error _

theorem walk_spec {directoryEnd count position last : Nat} {seen : List String} {names : List Bytes}
    (ended : walk libraries input directoryEnd count position seen = .ok (names, last)) :
    names.length = count ∧ ∃ paths, Keyed libraries seen names paths := by
  induction count generalizing position seen names with
  | zero =>
    cases ended
    exact ⟨rfl, [], .nil, List.nodup_nil, nofun⟩
  | succ count ih =>
    rw [walk] at ended
    obtain ⟨header, _, ended⟩ := ok_of_bind ended
    split at ended
    · obtain ⟨nameLength, _, ended⟩ := ok_of_bind ended
      obtain ⟨name, _, ended⟩ := ok_of_bind ended
      obtain ⟨path, cleaned, ended⟩ := ok_of_bind ended
      split at ended
      · cases ended
      next fresh =>
        obtain ⟨first, _, ended⟩ := ok_of_bind ended
        obtain ⟨extra, _, ended⟩ := ok_of_bind ended
        obtain ⟨second, _, ended⟩ := ok_of_bind ended
        obtain ⟨comment, _, ended⟩ := ok_of_bind ended
        obtain ⟨size, _, ended⟩ := ok_of_bind ended
        dsimp only at ended
        split at ended
        · obtain ⟨⟨rest, behind⟩, walked, ended⟩ := ok_of_bind ended
          cases ended
          obtain ⟨length, paths, keyed⟩ := ih walked
          refine ⟨congrArg Nat.succ length, path :: paths, .cons cleaned keyed.clean, ?_,
            fun other member => ?_⟩
          · refine List.nodup_cons.mpr ⟨fun member => ?_, keyed.different⟩
            obtain ⟨other, inside, same⟩ := List.mem_map.mp member
            exact keyed.fresh other inside (same ▸ List.mem_cons_self)
          · rcases List.mem_cons.mp member with rfl | later
            · exact fresh
            · exact fun inside => keyed.fresh other later (List.mem_cons_of_mem _ inside)
        · cases ended
    · cases ended

theorem calm_findStart {directory : Directory} : Calm (findStart input directory) := by
  unfold findStart
  split
  · split
    · refine calm_bind (calm_readAt _ _ _) fun _ _ => ?_
      split <;> exact calm_ok _
    · exact calm_ok _
  · exact calm_error _

theorem calm_centralNames (bounded : input.length < 2 ^ 64) :
    Calm (centralNames libraries input) := by
  unfold centralNames
  refine calm_bind (calm_findDirectory bounded) fun directory _ => ?_
  split
  · exact calm_error _
  · split
    · exact calm_error _
    · refine calm_bind calm_findStart fun position _ => ?_
      refine calm_bind calm_walk fun ⟨names, last⟩ _ => ?_
      dsimp only
      split
      · refine calm_bind (calm_readAt _ _ _) fun _ _ => ?_
        split
        · exact calm_error _
        · exact calm_ok _
      · exact calm_ok _

/-- The names of a central directory, as many as it announces. -/
theorem centralNames_spec {names : List Bytes} (ended : centralNames libraries input = .ok names) :
    (∃ directory, findDirectory input = .ok directory ∧ names.length = directory.count) ∧
      names.length ≤ maxEntries ∧ ∃ paths, Keyed libraries [] names paths := by
  unfold centralNames at ended
  obtain ⟨directory, found, ended⟩ := ok_of_bind ended
  split at ended
  · cases ended
  · split at ended
    · cases ended
    next few =>
      obtain ⟨position, _, ended⟩ := ok_of_bind ended
      obtain ⟨⟨walkedNames, last⟩, walked, ended⟩ := ok_of_bind ended
      obtain ⟨length, keyed⟩ := walk_spec walked
      have same : walkedNames = names := by
        simp only at ended
        split at ended
        · obtain ⟨bytes, _, ended⟩ := ok_of_bind ended
          split at ended <;> cases ended
          rfl
        · cases ended
          rfl
      subst same
      exact ⟨⟨directory, found, length⟩, length ▸ Nat.le_of_not_lt few, keyed⟩

end LosslessMusic.Extensions.Package
