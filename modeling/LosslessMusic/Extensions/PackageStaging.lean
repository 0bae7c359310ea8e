import LosslessMusic.Extensions.PackageExtraction
import Mathlib.Data.List.Nodup

/-!
# What an extraction leaves

The files of a package, in order, each filled up to its declared size, the last one perhaps not
yet, and the directories above them. This holds however the extraction ends.
-/

namespace LosslessMusic.Extensions.Package

/-! ## The disk -/

/-- The files that have been created, from the last. -/
def Disk.files : Disk → List (Path × Bytes)
  | [] => []
  | (_, .directory) :: rest => Disk.files rest
  | (path, .file content) :: rest => (path, content) :: Disk.files rest

/-- The length of all files. -/
def Disk.length (disk : Disk) : Nat := (disk.files.map (·.2.length)).sum

variable {disk : Disk}

theorem Disk.node?_eq_none {path : Path} (nothing : disk.node? path = none) :
    path ∉ disk.map (·.1) := by
  intro member
  obtain ⟨made, inside, same⟩ := List.mem_map.mp member
  have absent := List.find?_eq_none.mp (Option.map_eq_none_iff.mp nothing) made inside
  exact absent (beq_iff_eq.mpr same)

variable {content : Bytes}

theorem Disk.mem_files {path : Path} :
    (path, content) ∈ disk.files ↔ (path, Node.file content) ∈ disk := by
  induction disk with
  | nil => exact ⟨nofun, nofun⟩
  | cons made rest ih =>
    obtain ⟨other, node⟩ := made
    cases node with
    | directory => simp [Disk.files, ih]
    | file bytes => simp [Disk.files, ih]

/-- A disk with more directories on the way down to a path. -/
structure Grown (path : Path) (before after : Disk) : Prop where
  files : after.files = before.files
  different : (before.map (·.1)).Nodup → (after.map (·.1)).Nodup
  directories : ∀ other, (other, Node.directory) ∈ after →
    (other, Node.directory) ∈ before ∨ other ≠ [] ∧ other <+: path

theorem Grown.refl (path : Path) (disk : Disk) : Grown path disk disk where
  files := rfl
  different := id
  directories := fun _ member => .inl member

variable {fails : Path → Option String}

theorem makeDirectories_grown (above names : Path) (disk : Disk) :
    Grown (above ++ names) disk (makeDirectories fails above names disk).1 := by
  induction names generalizing above disk with
  | nil => exact Grown.refl _ _
  | cons name rest ih =>
    have whole : above ++ [name] ++ rest = above ++ name :: rest := by
      rw [List.append_assoc, List.singleton_append]
    rw [makeDirectories]
    split
    · rw [← whole]
      exact ih _ _
    · exact Grown.refl _ _
    next nothing =>
      split
      · exact Grown.refl _ _
      · have later := ih (above ++ [name]) ((above ++ [name], .directory) :: disk)
        rw [whole] at later
        refine ⟨later.files, fun different => later.different ?_, fun other member => ?_⟩
        · exact List.nodup_cons.mpr ⟨Disk.node?_eq_none nothing, different⟩
        · rcases later.directories other member with before | below
          · rcases List.mem_cons.mp before with made | before
            · obtain ⟨rfl, _⟩ := Prod.mk.inj made
              exact .inr ⟨List.append_ne_nil_of_right_ne_nil _ (List.cons_ne_nil _ _),
                whole ▸ List.prefix_append _ _⟩
            · exact .inl before
          · exact .inr below

theorem calm_makeDirectories (above names : Path) (disk : Disk) :
    Calm (makeDirectories fails above names disk).2 := by
  induction names generalizing above disk with
  | nil => exact calm_ok _
  | cons name rest ih =>
    rw [makeDirectories]
    split
    · exact ih _ _
    · exact calm_error _
    · split
      · exact calm_error _
      · exact ih _ _

/-! ## The copying loop -/

theorem calm_fault {α β : Type} {fault : Fault} (calm : Calm (.error fault : Outcome α)) :
    Calm (.error fault : Outcome β) where
  left same := calm.1 (congrArg Except.error (Except.error.inj same))
  right same := calm.2 (congrArg Except.error (Except.error.inj same))

/-- What a copying loop does to the content of a file, and to the total. -/
structure Copied (size total : Nat) (content : Bytes) (ended : Bytes × Outcome Nat) : Prop where
  calm : Calm ended.2
  within : ended.1.length ≤ size
  more : content.length ≤ ended.1.length
  bounded : total + ended.1.length ≤ maxExtracted + content.length
  counted : ∀ last, ended.2 = .ok last → last + content.length = total + ended.1.length

theorem copied_fault {size total : Nat} (message : String)
    (within : content.length ≤ size) (bounded : total ≤ maxExtracted) :
    Copied size total content (content, error message) where
  calm := calm_error _
  within := within
  more := Nat.le_refl _
  bounded := Nat.add_le_add_right bounded _
  counted := nofun

theorem copy_copied {size fuel turn total : Nat} {turns : Nat → Turn}
    (within : content.length ≤ size) (bounded : total ≤ maxExtracted)
    (enough : size - content.length < fuel) :
    Copied size total content (copy size turns fuel turn total content) := by
  induction fuel generalizing turn total content with
  | zero => exact absurd enough (Nat.not_lt_zero _)
  | succ fuel ih =>
    rw [copy]
    split
    · exact copied_fault _ within bounded
    · split
      · exact copied_fault _ within bounded
      next chunk _ =>
        dsimp only
        split
        · exact ⟨calm_ok _, within, Nat.le_refl _, Nat.add_le_add_right bounded _,
            fun last same => by rw [← Except.ok.inj same]⟩
        next =>
          rw [sub, if_pos bounded]
          dsimp only
          split
          · exact copied_fault _ within bounded
          next fits =>
            rw [not_or, Nat.not_lt, Nat.not_lt] at fits
            obtain ⟨room, left⟩ := fits
            split
            next written cause _ =>
              have taken : (chunk.val.take written).length ≤ chunk.val.length :=
                List.length_take_le' _ _
              refine ⟨calm_error _, ?_, ?_, ?_, fun _ same => by cases same⟩
              · rw [List.length_append]
                omega
              · rw [List.length_append]
                exact Nat.le_add_right _ _
              · rw [List.length_append]
                omega
            · have small : total + chunk.val.length < 2 ^ 64 := by
                simp only [maxExtracted] at room bounded
                omega
              rw [add, if_pos small]
              dsimp only
              have length : (content ++ chunk.val).length = content.length + chunk.val.length :=
                List.length_append
              have later := @ih (content ++ chunk.val) (turn + 1) (total + chunk.val.length)
                (by omega) (by omega) (by omega)
              have most := later.bounded
              have grown := later.more
              refine ⟨later.calm, later.within, by omega, by omega, fun last same => ?_⟩
              have counted := later.counted last same
              omega

/-! ## The loop of an extraction -/

/-- The files of a package. -/
def regular (entries : List Entry) : List Entry := entries.filter fun entry => !entry.directory

/-- What is on a disk while entries are extracted. -/
structure Within (entries : List Entry) (disk : Disk) : Prop where
  different : (disk.map (·.1)).Nodup
  directories : ∀ path, (path, Node.directory) ∈ disk →
    path ≠ [] ∧ ∃ entry ∈ regular entries, path <+: entry.path.dropLast
  files : (disk.files.map (·.1)).reverse <+: (regular entries).map (·.path)
  bounded : disk.length ≤ maxExtracted

/-- What is on a disk when entries have been extracted. -/
structure Staged (entries : List Entry) (total : Nat) (disk : Disk) : Prop where
  within : Within entries disk
  exactly : (disk.files.map fun file => (file.1, file.2.length)).reverse =
    (regular entries).map fun entry => (entry.path, entry.size)
  total : total = disk.length

theorem regular_append (first second : List Entry) :
    regular (first ++ second) = regular first ++ regular second := List.filter_append _ _

theorem regular_file {entry : Entry} (file : entry.directory = false) :
    regular [entry] = [entry] := by
  simp [regular, file]

theorem Within.append {entries : List Entry} (within : Within entries disk)
    (rest : List Entry) : Within (entries ++ rest) disk where
  different := within.different
  directories path member := by
    obtain ⟨below, entry, inside, above⟩ := within.directories path member
    rw [regular_append]
    exact ⟨below, entry, List.mem_append_left _ inside, above⟩
  files := by
    rw [regular_append, List.map_append]
    exact within.files.trans (List.prefix_append _ _)
  bounded := within.bounded

theorem Staged.paths {entries : List Entry} {total : Nat}
    (staged : Staged entries total disk) :
    (disk.files.map (·.1)).reverse = (regular entries).map (·.path) := by
  have same := congrArg (List.map Prod.fst) staged.exactly
  rw [List.map_reverse, List.map_map, List.map_map] at same
  exact same

theorem Staged.skip {entries : List Entry} {total : Nat} {entry : Entry}
    (staged : Staged entries total disk) (directory : entry.directory = true) :
    Staged (entries ++ [entry]) total disk := by
  have same : regular (entries ++ [entry]) = regular entries := by
    rw [regular_append]
    simp [regular, directory]
  exact ⟨staged.within.append _, same ▸ staged.exactly, staged.total⟩

section File

variable {entries : List Entry} {total : Nat} {before after : Disk} {entry : Entry}

theorem Staged.grow (staged : Staged entries total before) (file : entry.directory = false)
    (grown : Grown entry.path.dropLast before after) :
    Within (entries ++ [entry]) after where
  different := grown.different staged.within.different
  directories path member := by
    rcases grown.directories path member with old | ⟨below, above⟩
    · exact (staged.within.append _).directories path old
    · rw [regular_append, regular_file file]
      exact ⟨below, entry, List.mem_append_right _ (List.mem_singleton_self _), above⟩
  files := by
    rw [grown.files]
    exact (staged.within.append _).files
  bounded := by
    rw [Disk.length, grown.files]
    exact staged.within.bounded

/-- A file that is created, with any content that there is room for. -/
theorem Staged.create (staged : Staged entries total before) (file : entry.directory = false)
    (grown : Grown entry.path.dropLast before after) (fresh : after.node? entry.path = none)
    (room : total + content.length ≤ maxExtracted) :
    Within (entries ++ [entry]) ((entry.path, .file content) :: after) where
  different := List.nodup_cons.mpr
    ⟨Disk.node?_eq_none fresh, grown.different staged.within.different⟩
  directories path member := by
    rcases List.mem_cons.mp member with made | old
    · cases made
    · exact (staged.grow file grown).directories path old
  files := by
    rw [Disk.files, grown.files, List.map_cons, List.reverse_cons, staged.paths, regular_append,
      regular_file file, List.map_append]
    exact List.prefix_refl _
  bounded := by
    have sum := staged.total
    rw [Disk.length] at sum
    rw [Disk.length, Disk.files, grown.files, List.map_cons, List.sum_cons, Nat.add_comm, ← sum]
    exact room

theorem Staged.complete (staged : Staged entries total before) (file : entry.directory = false)
    (grown : Grown entry.path.dropLast before after) (fresh : after.node? entry.path = none)
    (room : total + content.length ≤ maxExtracted)
    (full : content.length = entry.size) :
    Staged (entries ++ [entry]) (total + content.length) ((entry.path, .file content) :: after) where
  within := staged.create file grown fresh room
  exactly := by
    rw [Disk.files, grown.files, List.map_cons, List.reverse_cons, staged.exactly, regular_append,
      regular_file file, List.map_append, full]
    rfl
  total := by
    rw [Disk.length, Disk.files, grown.files, List.map_cons, List.sum_cons, Nat.add_comm,
      staged.total]
    rfl

end File

/-- How an extraction ends. -/
structure Extracted (entries : List Entry) (ended : Disk × Outcome Unit) : Prop where
  calm : Calm ended.2
  within : Within entries ended.1
  exactly : ended.2 = .ok () → ∃ total, Staged entries total ended.1

theorem extracted_error {entries : List Entry} (message : String)
    (within : Within entries disk) : Extracted entries (disk, error message) where
  calm := calm_error _
  within := within
  exactly := nofun

theorem extractAll_extracted {around : Surroundings} {done rest : List Entry} {index total : Nat}
    (staged : Staged done total disk) :
    Extracted (done ++ rest) (extractAll around rest index total disk) := by
  induction rest generalizing done index total disk with
  | nil =>
    rw [List.append_nil]
    exact ⟨calm_ok _, staged.within, fun _ => ⟨total, staged⟩⟩
  | cons entry rest ih =>
    have whole : done ++ [entry] ++ rest = done ++ entry :: rest := by
      rw [List.append_assoc, List.singleton_append]
    rw [extractAll, ← whole]
    split
    · exact extracted_error _ ((staged.within.append _).append _)
    · split
      next directory => exact ih (staged.skip directory)
      next file =>
        have file : entry.directory = false := Bool.not_eq_true _ ▸ file
        have grown : Grown entry.path.dropLast disk
            (makeDirectories around.directory [] entry.path.dropLast disk).1 :=
          makeDirectories_grown [] _ disk
        have calm : Calm (makeDirectories around.directory [] entry.path.dropLast disk).2 :=
          calm_makeDirectories [] _ disk
        have held := (staged.grow file grown).append rest
        split
        next disk fault made =>
          rw [made] at calm held
          exact ⟨calm, held, nofun⟩
        next disk made =>
          rw [made] at grown held
          split
          · exact extracted_error _ held
          next fresh =>
            split
            · exact extracted_error _ held
            · split
              · have none : total + ([] : Bytes).length ≤ maxExtracted :=
                  staged.total ▸ staged.within.bounded
                exact extracted_error _ ((staged.create file grown fresh none).append rest)
              next turns _ =>
                have bounded : total ≤ maxExtracted := staged.total ▸ staged.within.bounded
                have copied : Copied entry.size total []
                    (copy entry.size turns (entry.size + 1) 0 total []) :=
                  copy_copied (Nat.zero_le _) bounded (Nat.lt_succ_self _)
                split
                next content result same =>
                  rw [same] at copied
                  have room : total + content.length ≤ maxExtracted := copied.bounded
                  have created := (staged.create file grown fresh room).append rest
                  split
                  next fault => exact ⟨calm_fault copied.calm, created, nofun⟩
                  next last =>
                    split
                    · exact extracted_error _ created
                    next full =>
                      split
                      · exact extracted_error _ created
                      · have sum : last = total + content.length := copied.counted last rfl
                        rw [sum]
                        exact ih (staged.complete file grown fresh room (not_not.mp full))

/-! ## Extraction -/

/-- What an extraction may leave of a package. -/
structure Contained (libraries : Libraries) (entries : List Entry) (disk : Disk) : Prop where
  /-- Everything is strictly below the staging directory. -/
  below : ∀ path ∈ disk.map (·.1), path ≠ [] ∧ ∀ part ∈ path, Plain part
  different : (disk.map (·.1)).Nodup
  /-- A directory is above a file of the package. -/
  directories : ∀ path, (path, Node.directory) ∈ disk →
    ∃ entry ∈ regular entries, path <+: entry.path ∧ path ≠ entry.path
  /-- Files are different whatever the case of their letters. -/
  keyed : (disk.files.map fun file => key libraries file.1).Nodup
  few : disk.files.length ≤ maxEntries
  small : disk.length ≤ maxExtracted

theorem staged_nothing : Staged [] 0 [] where
  within := ⟨List.nodup_nil, nofun, List.prefix_refl _, Nat.zero_le _⟩
  exactly := rfl
  total := rfl

theorem mem_regular {entries : List Entry} {entry : Entry} (member : entry ∈ regular entries) :
    entry ∈ entries := (List.mem_filter.mp member).1

theorem Sound.contained {libraries : Libraries} {entries : List Entry}
    (sound : Sound libraries entries) (within : Within entries disk) :
    Contained libraries entries disk where
  below path member := by
    obtain ⟨⟨other, node⟩, inside, rfl⟩ := List.mem_map.mp member
    cases node with
    | directory =>
      obtain ⟨below, entry, known, above⟩ := within.directories _ inside
      refine ⟨below, fun part here => (sound.plain entry (mem_regular known)).2 part ?_⟩
      exact List.dropLast_subset _ (above.subset here)
    | file content =>
      have made : other ∈ (disk.files.map (·.1)).reverse :=
        List.mem_reverse.mpr (List.mem_map.mpr ⟨_, Disk.mem_files.mpr inside, rfl⟩)
      obtain ⟨entry, known, same⟩ := List.mem_map.mp (within.files.subset made)
      exact same ▸ sound.plain entry (mem_regular known)
  different := within.different
  directories path member := by
    obtain ⟨_, entry, known, above⟩ := within.directories path member
    refine ⟨entry, known, above.trans (List.dropLast_prefix _), fun same => ?_⟩
    have filled := List.length_pos_iff.mpr (sound.plain entry (mem_regular known)).1
    have short := above.length_le
    rw [same, List.length_dropLast] at short
    omega
  keyed := by
    have keys : (((regular entries).map (·.path)).map (key libraries)).Nodup := by
      rw [List.map_map]
      exact sound.different.sublist (List.filter_sublist.map _)
    have reversed := keys.sublist (within.files.map (key libraries)).sublist
    rw [List.map_reverse, List.nodup_reverse, List.map_map] at reversed
    exact reversed
  few := by
    have files := within.files.length_le
    rw [List.length_reverse, List.length_map, List.length_map] at files
    exact files.trans ((List.length_filter_le _ _).trans sound.few)
  small := within.bounded

/-- No package, no library and no disk leads `open` or `extract` astray, or out of the staging
directory: as many names as announced, every path below, and every file of its declared size
if the extraction succeeds. -/
theorem package_contained {μ : Type} (libraries : Libraries) (input : File)
    (archive : Option Archive) (parse : Bytes → Except String μ) (around : Surroundings) :
    Calm (openPackage libraries input archive parse) ∧
    (∀ names, centralNames libraries input.val = .ok names →
      ∃ directory, findDirectory input.val = .ok directory ∧ names.length = directory.count) ∧
    ∀ package, openPackage libraries input archive parse = .ok package →
      Calm (extract package around).2 ∧
      Contained libraries package.entries (extract package around).1 ∧
      ((extract package around).2 = .ok () →
        ((extract package around).1.files.map fun file => (file.1, file.2.length)).reverse =
          (regular package.entries).map fun entry => (entry.path, entry.size)) := by
  refine ⟨calm_openPackage, fun names named => (centralNames_spec named).1, fun package opened => ?_⟩
  have sound := openPackage_sound opened
  unfold extract
  split
  · exact ⟨calm_error _, sound.contained (staged_nothing.within.append _), nofun⟩
  · exact ⟨calm_error _, sound.contained (staged_nothing.within.append _), nofun⟩
  · have extracted : Extracted package.entries (extractAll around package.entries 0 0 []) :=
      extractAll_extracted staged_nothing
    refine ⟨extracted.calm, sound.contained extracted.within, fun succeeded => ?_⟩
    obtain ⟨total, staged⟩ := extracted.exactly succeeded
    exact staged.exactly

/-! ## Two spellings of one directory -/

namespace Letters

def ascii (text : String) : Bytes := text.toList.map fun char => UInt8.ofNat char.toNat

def little (width value : Nat) : Bytes :=
  (List.range width).map fun index => UInt8.ofNat (value / 256 ^ index)

/-- A file that is stored as it is: its name, what it holds, its check sum and its place. -/
structure Stored where
  name : String
  content : String
  sum : Bytes
  place : Nat

def Stored.common (file : Stored) : Bytes :=
  [20, 0, 0, 0, 0, 0, 0, 0, 33, 0] ++ file.sum ++ little 4 file.content.length ++
    little 4 file.content.length ++ little 2 file.name.length ++ [0, 0]

def Stored.before (file : Stored) : Bytes :=
  [80, 75, 3, 4] ++ file.common ++ ascii file.name ++ ascii file.content

def Stored.header (file : Stored) : Bytes :=
  headerMark ++ [20, 3] ++ file.common ++ [0, 0, 0, 0, 0, 0, 0, 0, 164, 129] ++
    little 4 file.place ++ ascii file.name

def files : List Stored :=
  [⟨"manifest.json",
    "\x7b\"name\":\"a\",\"version\":\"1\",\"description\":\"a\",\"type\":[\"lyrics_provider\"]\x7d",
    [242, 62, 26, 247], 0⟩,
    ⟨"index.js", ";", [169, 6, 9, 99], 114⟩, ⟨"Lib/a", "a", [67, 190, 183, 232], 153⟩,
    ⟨"lib/b", "b", [249, 239, 190, 113], 189⟩]

def directory : Bytes := files.flatMap Stored.header

def before : Bytes := files.flatMap Stored.before

/-- A package with `Lib/a` and `lib/b`. -/
def file : Bytes :=
  before ++ directory ++ endMark ++ [0, 0, 0, 0, 4, 0, 4, 0] ++ little 4 directory.length ++
    little 4 before.length ++ [0, 0]

def libraries : Libraries where
  decode bytes := String.ofList (bytes.map fun byte => Char.ofNat byte.toNat)
  lowercase := Text.lowercase
  accepts _ := true

def archive : Archive where
  length := 4
  raw index := files[index]?.map fun file => ⟨some 0o100644, file.content.length⟩
  manifest index :=
    match files[index]? with
    | some file => .ok (.ok (ascii file.content))
    | none => .error "specified file not found in archive"

/-- The name in this manifest. -/
def parse (bytes : Bytes) : Except String String :=
  if files.head?.map (fun file => ascii file.content) = some bytes then .ok "a" else .error "EOF"

/-- Each file is read in one turn. -/
def around : Surroundings where
  staging := .ok true
  check _ := .ok ()
  directory _ := none
  create _ := none
  input index := .ok fun turn => {
    check := .ok ()
    read := .ok (if turn = 0 then
      ⟨((files[index]?.map fun file => ascii file.content).getD []).take (64 * 1024),
        List.length_take_le _ _⟩ else ⟨[], Nat.zero_le _⟩)
    write := none }
  sync _ := none

def package : Opened String where
  entries := [⟨[ascii "manifest.json"], false, 71⟩, ⟨[ascii "index.js"], false, 1⟩,
    ⟨[ascii "Lib", ascii "a"], false, 1⟩, ⟨[ascii "lib", ascii "b"], false, 1⟩]
  manifest := "a"

theorem file_length : file.length < 2 ^ 64 := by decide +kernel

theorem opened : openPackage libraries ⟨file, file_length⟩ (some archive) parse = .ok package := by
  decide +kernel

end Letters

open Letters in

/-- The directories `Lib` and `lib` are created side by side. -/
theorem package_letters :
    openPackage Letters.libraries ⟨file, file_length⟩ (some archive) parse = .ok package ∧
      (extract package around).2 = .ok () ∧
      ([ascii "Lib"], Node.directory) ∈ (extract package around).1 ∧
      ([ascii "lib"], Node.directory) ∈ (extract package around).1 ∧
      ¬ ((extract package around).1.map fun made => key Letters.libraries made.1).Nodup := by
  decide +kernel

open Letters in

theorem package_contained_letters : Calm (extract package around).2 ∧
      Contained Letters.libraries package.entries (extract package around).1 ∧
      ((extract package around).2 = .ok () →
        ((extract package around).1.files.map fun file => (file.1, file.2.length)).reverse =
          (regular package.entries).map fun entry => (entry.path, entry.size)) :=
  (package_contained Letters.libraries ⟨file, file_length⟩ (some archive) parse around).2.2
    package opened

end LosslessMusic.Extensions.Package
