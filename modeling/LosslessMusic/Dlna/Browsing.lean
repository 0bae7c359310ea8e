import LosslessMusic.Dlna.DidlReading
import LosslessMusic.Dlna.Served

/-!
# Walking the content directory

`browse` and `browseMetadata` with their whole results. A client that follows the
containers from the root page by page finds every visible directory and every visible
audio file exactly once, and the numbers it is told agree with what it finds.
-/

namespace LosslessMusic.Dlna

open Codec Didl

/-! ## Results -/

structure TrackTags where
  title : Utf16
  artist : Utf16
  album : Utf16
  albumArtist : Utf16
  genre : Utf16
  trackNumber : Int
  durationSec : Int
  sampleRate : Int
  bitDepth : Int
  bitrateKbps : Int

/-- What a share knows about its files: the lengths, the tags from the cache when there
is a metadata provider, and how the server names itself. -/
structure Library where
  tags : Option (List String → Option TrackTags)
  length : List String → Int
  baseUrl : Utf16
  friendlyName : Utf16

structure BrowseResult where
  didl : Utf16
  numberReturned : Int
  totalMatches : Int

/-- The extension of a name with its dot. -/
def extension (name : String) : String :=
  let last := afterLastDot name
  if last = "" then "" else "." ++ last

/-- `text.removeSuffix(tail)`. -/
def removeSuffix (text tail : String) : String :=
  if Text.endsWith text tail then
    String.ofList (text.toList.take (text.toList.length - tail.toList.length))
  else text

/-- The first text that is not empty. -/
def orElse (text other : Utf16) : Utf16 :=
  if text = [] then other else text

/-- The item of a file, unless its extension is unknown. -/
def itemOf (library : Library) (objectId id : String) (path : List String) (name : String) :
    Option CdItem :=
  (audioMime.lookup (Text.toLowerCase (extension name))).map fun mime =>
    let tags := library.tags.bind fun read => read path
    let known (field : TrackTags → Utf16) : Utf16 := (tags.map field).getD []
    let count (field : TrackTags → Int) : Int := (tags.map field).getD 0
    { id := Utf16.ofString id
      parentId := Utf16.ofString objectId
      title := orElse (known TrackTags.title) (Utf16.ofString (removeSuffix name (extension name)))
      artist := orElse (known TrackTags.artist) (known TrackTags.albumArtist)
      album := known TrackTags.album
      genre := known TrackTags.genre
      trackNumber := count TrackTags.trackNumber
      albumArtUri :=
        if library.tags.isSome then library.baseUrl ++ Utf16.ofString ("/art/" ++ id) else []
      durationSec := count TrackTags.durationSec
      sampleRate := count TrackTags.sampleRate
      bitDepth := count TrackTags.bitDepth
      bitrateKbps := count TrackTags.bitrateKbps
      size := library.length path
      mime := Utf16.ofString mime
      url := library.baseUrl ++ Utf16.ofString ("/media/" ++ id) }

namespace Share

variable (share : Share) (library : Library)

def countChildren (directory : List String) : Nat :=
  ((share.tree.names directory).filter (share.shown directory)).length

/-- The names of one page. -/
def selected (target : List String) (startingIndex requestedCount : Nat) : List String :=
  let ordered := share.ordered target
  if ordered.length ≤ startingIndex then []
  else
    let rest := ordered.drop startingIndex
    if requestedCount = 0 then rest else rest.take requestedCount

/-- The container of a name, unless it is a file. -/
def containerAt (objectId id : String) (path : List String) (name : String) : Option CdObject :=
  if share.tree.kind path = some .directory then
    some
      { id := Utf16.ofString id
        parentId := Utf16.ofString objectId
        title := Utf16.ofString name
        childCount := share.countChildren path }
  else none

/-- The item of a name, unless it is a directory. -/
def itemAt (objectId id : String) (path : List String) (name : String) : Option CdItem :=
  if share.tree.kind path = some .directory then none
  else if share.tree.kind path = some .file then itemOf library objectId id path name
  else none

/-- `browse` with its whole result, and `none` for what it throws. -/
def browseResult (objectId : String) (startingIndex requestedCount : Nat) :
    Option BrowseResult :=
  let decoded := if objectId = "0" then some "" else share.decodeObjectId objectId
  let target := if objectId = "0" then .ok share.root else share.resolve objectId
  match decoded, target with
  | some rel, .ok target =>
    if share.tree.kind target ≠ some .directory then none
    else
      let names := share.selected target startingIndex requestedCount
      let id (name : String) := encodeObjectId (if rel = "" then name else rel ++ "/" ++ name)
      let containers := names.filterMap fun name =>
        share.containerAt objectId (id name) (target ++ [name]) name
      let items := names.filterMap fun name =>
        share.itemAt library objectId (id name) (target ++ [name]) name
      some
        { didl := lite containers items
          numberReturned := names.length
          totalMatches := (share.ordered target).length }
  | _, _ => none

/-- `browseMetadata`, and `none` for what it throws. -/
def browseMetadata (objectId : String) : Option BrowseResult :=
  if objectId = "0" then
    let root : CdObject :=
      { id := Utf16.ofString "0"
        parentId := Utf16.ofString "-1"
        title := library.friendlyName
        childCount := share.countChildren share.root }
    some { didl := lite [root] [], numberReturned := 1, totalMatches := 1 }
  else none

end Share

/-- The objects that a client reads from a result. -/
def BrowseResult.objects (result : BrowseResult) : Option (List CdObject × List CdItem) :=
  ((Utf16.decode result.didl).bind Xml.parse).map readObjects

/-- The ids of the objects that a client reads from a result. -/
def idsOf (objects : List CdObject × List CdItem) : List Utf16 :=
  objects.1.map CdObject.id ++ objects.2.map CdItem.id

/-! ## Pages -/

theorem flatMap_pages {Entry : Type} (entries : List Entry) (size pages : Nat) :
    ((List.range pages).flatMap fun page => (entries.drop (page * size)).take size) =
      entries.take (pages * size) := by
  induction pages with
  | zero => simp
  | succ pages ih =>
    rw [List.range_succ, List.flatMap_append, ih, Nat.succ_mul, List.take_add]
    simp

theorem filter_append_filter {Entry : Type} (entries : List Entry) (wanted : Entry → Bool)
    (first : entries.Pairwise fun before after => wanted after = true → wanted before = true) :
    entries.filter wanted ++ entries.filter (fun entry => !wanted entry) = entries := by
  induction entries with
  | nil => rfl
  | cons entry others ih =>
    rw [List.pairwise_cons] at first
    have tail := ih first.2
    cases isWanted : wanted entry with
    | true =>
      rw [List.filter_cons_of_pos isWanted, List.filter_cons_of_neg (by simp [isWanted]),
        List.cons_append, tail]
    | false =>
      -- Nothing behind an entry that is not wanted is wanted.
      have none : others.filter wanted = [] := by
        rw [List.filter_eq_nil_iff]
        intro other member isOther
        have contradiction := first.1 other member isOther
        rw [isWanted] at contradiction
        cases contradiction
      rw [none] at tail
      rw [List.filter_cons_of_neg (by simp [isWanted]), none,
        List.filter_cons_of_pos (by simp [isWanted]), List.nil_append]
      exact congrArg (entry :: ·) tail

/-! ## The names of a directory -/

namespace Share

variable (share : Share) (target : List String)

/-- The shown names in the order of their bytes. -/
def sortedNames : List String :=
  ((share.tree.names target).filter (share.shown target)).mergeSort
    fun left right => decide (utf8 left ≤ utf8 right)

/-- The name is that of a directory. -/
def isDirectory (name : String) : Bool :=
  share.tree.kind (target ++ [name]) = some .directory

/-- The shown directories in the order of their bytes. -/
def directories : List String :=
  (share.sortedNames target).filter (share.isDirectory target)

/-- The shown files in the order of their bytes. -/
def files : List String :=
  (share.sortedNames target).filter fun name =>
    share.tree.kind (target ++ [name]) = some .file

theorem ordered_eq : share.ordered target = share.directories target ++ share.files target :=
  rfl

theorem utf8_injective {left right : String} (same : utf8 left = utf8 right) : left = right := by
  unfold utf8 at same
  exact String.toByteArray_inj.mp (ByteArray.ext (Array.toList_inj.mp same))

/-- No name stands twice, and each stands before the greater ones. -/
theorem sortedNames_sorted :
    (share.sortedNames target).Pairwise fun left right => utf8 left < utf8 right := by
  have sorted : (share.sortedNames target).Pairwise fun left right =>
      decide (utf8 left ≤ utf8 right) = true := by
    refine List.pairwise_mergeSort ?_ ?_ _
    · intro first second third before after
      rw [decide_eq_true_eq] at before after ⊢
      exact List.le_trans before after
    · intro first second
      rw [Bool.or_eq_true, decide_eq_true_eq, decide_eq_true_eq]
      exact List.le_total _ _
  have distinct : (share.sortedNames target).Nodup :=
    (List.mergeSort_perm _ _).nodup_iff.mpr ((FileTree.nodup_names share.tree target).filter _)
  refine List.Pairwise.imp ?_ (List.Pairwise.and sorted distinct)
  intro left right both
  rcases List.le_iff_lt_or_eq.mp (of_decide_eq_true both.1) with less | same
  · exact less
  · exact absurd (utf8_injective same) both.2

theorem mem_sortedNames {name : String} : name ∈ share.sortedNames target ↔ isVisible name = true ∧
      (share.tree.kind (target ++ [name]) = some .directory ∨
        share.tree.kind (target ++ [name]) = some .file ∧ isAudio name = true) := by
  unfold sortedNames
  simp only [List.mem_mergeSort, List.mem_filter, FileTree.mem_names, shown, Bool.and_eq_true,
    Bool.or_eq_true, decide_eq_true_eq]
  constructor
  · exact fun member => member.2
  · rintro ⟨visible, directory | ⟨file, audio⟩⟩
    · simp [visible, directory]
    · simp [visible, file, audio]

theorem mem_directories {name : String} : name ∈ share.directories target ↔
      isVisible name = true ∧ share.tree.kind (target ++ [name]) = some .directory := by
  unfold directories isDirectory
  rw [List.mem_filter, mem_sortedNames, decide_eq_true_eq]
  constructor
  · exact fun both => ⟨both.1.1, both.2⟩
  · exact fun both => ⟨⟨both.1, .inl both.2⟩, both.2⟩

theorem mem_files {name : String} : name ∈ share.files target ↔
      isVisible name = true ∧ isAudio name = true ∧
        share.tree.kind (target ++ [name]) = some .file := by
  unfold files
  rw [List.mem_filter, mem_sortedNames, decide_eq_true_eq]
  constructor
  · rintro ⟨⟨visible, directory | ⟨file, audio⟩⟩, isFile⟩
    · rw [directory] at isFile
      cases isFile
    · exact ⟨visible, audio, isFile⟩
  · exact fun ⟨visible, audio, isFile⟩ => ⟨⟨visible, .inr ⟨isFile, audio⟩⟩, isFile⟩

theorem countChildren_eq : share.countChildren target = (share.ordered target).length := by
  have files : share.files target =
      (share.sortedNames target).filter fun name => !share.isDirectory target name := by
    refine List.filter_congr fun name member => ?_
    rcases (share.mem_sortedNames target).mp member with ⟨-, directory | ⟨file, -⟩⟩
    · simp [isDirectory, directory]
    · simp [isDirectory, file]
  rw [ordered_eq, files, directories, List.length_append, ← List.length_eq_length_filter_add,
    sortedNames, List.length_mergeSort]
  rfl

theorem ordered_directoriesFirst : (share.ordered target).Pairwise fun before after =>
      share.isDirectory target after = true → share.isDirectory target before = true := by
  rw [ordered_eq, List.pairwise_append]
  have inDirectories : ∀ name ∈ share.directories target, share.isDirectory target name = true :=
    fun name member => (List.mem_filter.mp member).2
  have inFiles : ∀ name ∈ share.files target, ¬ share.isDirectory target name = true := by
    intro name member directory
    have file := (mem_files share target).mp member
    rw [isDirectory, file.2.2] at directory
    cases of_decide_eq_true directory
  refine ⟨?_, ?_, ?_⟩
  · exact List.pairwise_of_forall_mem_list fun before member _ _ _ => inDirectories before member
  · exact List.pairwise_of_forall_mem_list fun _ _ after member directory =>
      absurd directory (inFiles after member)
  · exact fun before member _ _ _ => inDirectories before member

/-! ## One page -/

variable (library : Library)

theorem isXmlChar_idOf (rel : List String) :
    ∀ char ∈ (idOf rel).toList, Xml.isXmlChar char = true := by
  have digits : ∀ sextet < 64, Xml.isXmlChar (Base64.digit sextet) = true := by
    unfold Base64.digit Base64.alphabet
    rw [String.toList_ofList]
    decide +kernel
  unfold idOf
  split
  next => decide
  next =>
    intro char member
    unfold encodeObjectId Base64.encode at member
    rw [String.toList_ofList] at member
    obtain ⟨sextet, inside, isChar⟩ := List.mem_map.mp member
    rw [← isChar]
    exact digits sextet (Base64.sextets_lt _ sextet inside)

theorem lookup_extension (name : String) (audio : isAudio name = true) :
    (audioMime.lookup (Text.toLowerCase (extension name))).isSome = true := by
  have key : Text.toLowerCase (extension name) = audioKey name := by
    unfold extension audioKey
    by_cases none : afterLastDot name = ""
    · -- A dot alone is no key.
      unfold isAudio audioKey at audio
      rw [none] at audio
      exact absurd audio (by decide +kernel)
    · simp only [none, if_false]
      unfold Text.toLowerCase
      apply String.toList_injective
      simp [Text.lowerChar]
  rw [key]
  exact audio

theorem selected_eq (startingIndex requestedCount : Nat) (some_name : 0 < requestedCount) :
    share.selected target startingIndex requestedCount =
      ((share.ordered target).drop startingIndex).take requestedCount := by
  unfold selected
  by_cases past : (share.ordered target).length ≤ startingIndex
  · rw [if_pos past, List.drop_eq_nil_of_le past, List.take_nil]
  · rw [if_neg past, if_neg (Nat.ne_of_gt some_name)]

theorem browseResult_idOf (rel : List String) (startingIndex requestedCount : Nat)
    (leads : share.tree.kind (share.root ++ rel) = some .directory) :
    share.browseResult library (idOf rel) startingIndex requestedCount = some
        { didl :=
            lite ((share.selected (share.root ++ rel) startingIndex requestedCount).filterMap
                fun name =>
                  share.containerAt (idOf rel) (idOf (rel ++ [name])) (share.root ++ rel ++ [name])
                    name)
              ((share.selected (share.root ++ rel) startingIndex requestedCount).filterMap
                fun name =>
                  share.itemAt library (idOf rel) (idOf (rel ++ [name]))
                    (share.root ++ rel ++ [name]) name)
          numberReturned := (share.selected (share.root ++ rel) startingIndex requestedCount).length
          totalMatches := (share.ordered (share.root ++ rel)).length } := by
  have own (name : String) : idOf (rel ++ [name]) = encodeObjectId (joined (rel ++ [name])) :=
    if_neg (by simp)
  unfold browseResult
  by_cases top : rel = []
  · subst top
    rw [List.append_nil] at leads ⊢
    have alone (name : String) : idOf [name] = encodeObjectId name := by
      rw [idOf, if_neg (by simp)]
      simp [joined]
    have zero : idOf [] = "0" := if_pos rfl
    simp only [zero, if_true, leads, ne_eq, not_true_eq_false, if_false, List.nil_append, alone]
  · have plain := plain_of_kind leads
    have filled := joined_ne top plain
    have resolved := resolve_encodeObjectId top leads
    have id : idOf rel = encodeObjectId (joined rel) := if_neg top
    simp only [id, encodeObjectId_ne, if_false, decodeObjectId_encodeObjectId, resolved, leads,
      ne_eq, not_true_eq_false, filled, own, joined_append rel _ top]

end Share

theorem map_filterMap_eq {Entry Found Value : Type} (entries : List Entry) (wanted : Entry → Bool)
    (find : Entry → Option Found) (value : Found → Value) (expected : Entry → Value)
    (each : ∀ entry ∈ entries,
        (find entry).map value = if wanted entry then some (expected entry) else none) :
    (entries.filterMap find).map value = (entries.filter wanted).map expected := by
  induction entries with
  | nil => rfl
  | cons entry others ih =>
    have tail := ih fun other member => each other (List.mem_cons_of_mem entry member)
    have here := each entry List.mem_cons_self
    cases isWanted : wanted entry with
    | true =>
      rw [isWanted, if_pos rfl] at here
      obtain ⟨found, isFound, same⟩ := Option.map_eq_some_iff.mp here
      rw [List.filterMap_cons_some isFound, List.filter_cons_of_pos isWanted, List.map_cons,
        List.map_cons, tail, same]
    | false =>
      rw [isWanted, if_neg Bool.false_ne_true, Option.map_eq_none_iff] at here
      rw [List.filterMap_cons_none here, List.filter_cons_of_neg (by simp [isWanted]), tail]

namespace Share

variable (share : Share) (library : Library)

/-- The objects of one page and the numbers that come with it. -/
structure Page
    (rel : List String)
    (names : List String)
    (result : BrowseResult)
    (objects : List CdObject × List CdItem) : Prop where
  read : result.objects = some objects
  containerIds : objects.1.map CdObject.id =
      (names.filter (share.isDirectory (share.root ++ rel))).map fun name =>
        Utf16.ofString (idOf (rel ++ [name]))
  ids : idsOf objects = names.map fun name => Utf16.ofString (idOf (rel ++ [name]))
  numberReturned : result.numberReturned = objects.1.length + objects.2.length
  totalMatches : result.totalMatches = (share.ordered (share.root ++ rel)).length
  childCounts : ∀ container ∈ objects.1, ∃ name ∈ names,
      share.tree.kind (share.root ++ (rel ++ [name])) = some .directory ∧
        container.id = Utf16.ofString (idOf (rel ++ [name])) ∧
        container.childCount = (share.ordered (share.root ++ (rel ++ [name]))).length

theorem page_of_directory (rel : List String) (startingIndex requestedCount : Nat)
    (leads : share.tree.kind (share.root ++ rel) = some .directory)
    (some_name : 0 < requestedCount) :
    ∃ result objects,
      share.browseResult library (idOf rel) startingIndex requestedCount = some result ∧
        share.Page rel
          (((share.ordered (share.root ++ rel)).drop startingIndex).take requestedCount)
          result objects := by
  have answer := share.browseResult_idOf library rel startingIndex requestedCount leads
  rw [selected_eq share (share.root ++ rel) startingIndex requestedCount some_name] at answer
  generalize isNames :
    ((share.ordered (share.root ++ rel)).drop startingIndex).take requestedCount = names at answer ⊢
  generalize isContainers : (names.filterMap fun name =>
      share.containerAt (idOf rel) (idOf (rel ++ [name])) (share.root ++ rel ++ [name]) name) =
      containers at answer
  generalize isItems : (names.filterMap fun name =>
      share.itemAt library (idOf rel) (idOf (rel ++ [name])) (share.root ++ rel ++ [name]) name) =
      items at answer
  have among : names.Sublist (share.ordered (share.root ++ rel)) := by
    rw [← isNames]
    exact (List.take_sublist _ _).trans (List.drop_sublist _ _)
  have received (name : String) :
      clean (Utf16.ofString (idOf (rel ++ [name]))) = Utf16.ofString (idOf (rel ++ [name])) :=
    clean_ofChars _ (isXmlChar_idOf _)
  have containerIds : (containers.map CdObject.received).map CdObject.id =
        (names.filter (share.isDirectory (share.root ++ rel))).map fun name =>
          Utf16.ofString (idOf (rel ++ [name])) := by
    rw [← isContainers, List.map_map]
    refine map_filterMap_eq names _ _ _ _ fun name _ => ?_
    unfold containerAt isDirectory
    by_cases directory : share.tree.kind (share.root ++ rel ++ [name]) = some .directory
    · rw [if_pos directory, if_pos (decide_eq_true directory)]
      exact congrArg some (received name)
    · rw [if_neg directory, if_neg (by simpa using directory)]
      rfl
  have itemIds : (items.map CdItem.received).map CdItem.id =
        (names.filter fun name => !share.isDirectory (share.root ++ rel) name).map fun name =>
          Utf16.ofString (idOf (rel ++ [name])) := by
    rw [← isItems, List.map_map]
    refine map_filterMap_eq names _ _ _ _ fun name member => ?_
    unfold itemAt isDirectory
    rcases (mem_ordered.mp (among.subset member)).2 with directory | ⟨file, audio⟩
    · rw [if_pos directory, directory]
      rfl
    · obtain ⟨mime, isMime⟩ := Option.isSome_iff_exists.mp (lookup_extension name audio)
      rw [file, if_neg (by simp), if_pos rfl, itemOf, isMime]
      exact congrArg some (received name)
  have whole : names.filter (share.isDirectory (share.root ++ rel)) ++
          names.filter (fun name => !share.isDirectory (share.root ++ rel) name) =
        names :=
    filter_append_filter names _
      (List.Pairwise.sublist among (share.ordered_directoriesFirst (share.root ++ rel)))
  refine ⟨_, (containers.map CdObject.received, items.map CdItem.received), answer, ?_⟩
  constructor
  · unfold BrowseResult.objects
    rw [parse_lite, Option.map_some, readObjects_didlLayout]
  · exact containerIds
  · unfold idsOf
    rw [containerIds, itemIds, ← List.map_append, whole]
  · have counted := congrArg List.length whole
    have containerCount := congrArg List.length containerIds
    have itemCount := congrArg List.length itemIds
    simp only [List.length_map, List.length_append] at counted containerCount itemCount ⊢
    omega
  · rfl
  · intro container member
    obtain ⟨own, inside, isContainer⟩ := List.mem_map.mp member
    rw [← isContainers] at inside
    obtain ⟨name, onPage, found⟩ := List.mem_filterMap.mp inside
    unfold containerAt at found
    rw [Option.ite_none_right_eq_some] at found
    obtain ⟨directory, same⟩ := found
    cases same
    refine ⟨name, onPage, ?_, ?_, ?_⟩
    · rw [← List.append_assoc]
      exact directory
    · rw [← isContainer]
      exact received name
    · rw [← isContainer, ← List.append_assoc, ← countChildren_eq]
      rfl

/-! ## The walk -/

/-- The containers a client reaches that follows the containers of the pages `0`, `1`,
`2`, … of a size from the root. -/
inductive Walked (size : Nat) : String → Prop
  | root : Walked size "0"
  | child
      {objectId child : String}
      {library : Library}
      {page : Nat}
      {result : BrowseResult}
      {objects : List CdObject × List CdItem}
      {container : CdObject} :
      Walked size objectId →
      share.browseResult library objectId (page * size) size = some result →
      result.objects = some objects →
      container ∈ objects.1 →
      container.id = Utf16.ofString child →
      Walked size child

/-- The ids on one page. -/
def pageIds (objectId : String) (size page : Nat) : List Utf16 :=
  (((share.browseResult library objectId (page * size) size).bind BrowseResult.objects).map
    idsOf).getD []

/-- The visible directories and the visible audio files in a directory, both in the
order of their bytes, and none of them twice. -/
structure Listing (rel : List String) (directories files : List String) : Prop where
  directories_sorted : directories.Pairwise fun left right => utf8 left < utf8 right
  files_sorted : files.Pairwise fun left right => utf8 left < utf8 right
  mem_directories : ∀ name, name ∈ directories ↔ share.Visible (rel ++ [name]) .directory
  mem_files : ∀ name, name ∈ files ↔ isAudio name = true ∧ share.Visible (rel ++ [name]) .file
  distinct : (directories ++ files).Nodup

theorem visible_append (rel : List String) (name : String) (found kind : Kind)
    (visible : share.Visible rel kind) :
    share.Visible (rel ++ [name]) found ↔
      isVisible name = true ∧ share.tree.kind (share.root ++ rel ++ [name]) = some found := by
  unfold Visible
  rw [List.append_assoc]
  constructor
  · exact fun both => ⟨both.2 name (by simp), both.1⟩
  · rintro ⟨shown, leads⟩
    refine ⟨leads, ?_⟩
    intro part member
    rcases List.mem_append.mp member with before | last
    · exact visible.2 part before
    · rw [List.mem_singleton.mp last]
      exact shown

theorem listing_of_visible (rel : List String) (visible : share.Visible rel .directory) :
    share.Listing rel (share.directories (share.root ++ rel))
      (share.files (share.root ++ rel)) where
  directories_sorted := (share.sortedNames_sorted (share.root ++ rel)).filter _
  files_sorted := (share.sortedNames_sorted (share.root ++ rel)).filter _
  mem_directories name := by
    rw [mem_directories, visible_append share rel name .directory .directory visible]
  mem_files name := by
    rw [mem_files, visible_append share rel name .file .directory visible]
    exact and_left_comm
  distinct := by
    have sorted := share.sortedNames_sorted (share.root ++ rel)
    have nodup : (share.sortedNames (share.root ++ rel)).Nodup := by
      refine List.Pairwise.imp ?_ sorted
      rintro left right less rfl
      exact List.lt_irrefl _ less
    refine List.nodup_append.mpr ⟨nodup.filter _, nodup.filter _, ?_⟩
    rintro name inDirectories other inFiles rfl
    have directory := (mem_directories share _).mp inDirectories
    have file := (mem_files share _).mp inFiles
    rw [directory.2] at file
    cases file.2.2

theorem ofString_injective {left right : String}
    (same : Utf16.ofString left = Utf16.ofString right) : left = right := by
  have decoded := Utf16.decode_ofChars left.toList
  unfold Utf16.ofString at same
  rw [same, Utf16.decode_ofChars] at decoded
  exact String.toList_injective (Option.some.inj decoded).symm

theorem visible_of_walked (size : Nat) (objectId : String) (positive : 0 < size)
    (served : share.tree.kind share.root = some .directory) (walked : share.Walked size objectId) :
    ∃ rel, objectId = idOf rel ∧ share.Visible rel .directory := by
  induction walked with
  | root =>
    refine ⟨[], rfl, ?_, by simp⟩
    rw [List.append_nil]
    exact served
  | @child objectId child library page result objects container _ answered read member isId
      ih =>
      obtain ⟨rel, rfl, visible⟩ := ih
      obtain ⟨answer, found, isAnswer, onPage⟩ :=
        share.page_of_directory library rel (page * size) size visible.1 positive
      rw [answered] at isAnswer
      cases isAnswer
      have same := onPage.read
      rw [read] at same
      cases same
      obtain ⟨name, isOrdered, directory, isContainer, -⟩ := onPage.childCounts container member
      have shown := (mem_ordered.mp (List.mem_of_mem_drop (List.mem_of_mem_take isOrdered))).1
      rw [isId] at isContainer
      refine ⟨rel ++ [name], ofString_injective isContainer, directory, ?_⟩
      intro part inside
      rcases List.mem_append.mp inside with before | last
      · exact visible.2 part before
      · rw [List.mem_singleton.mp last]
        exact shown

theorem walked_of_visible (library : Library) (size : Nat) (rel : List String) (positive : 0 < size)
    (visible : share.Visible rel .directory) : share.Walked size (idOf rel) := by
  induction rel using List.reverseRecOn with
  | nil => exact .root
  | append_singleton front name ih =>
    have leads := visible.1
    rw [← List.append_assoc] at leads
    have parent : share.Visible front .directory := ⟨FileTree.kind_parent leads, fun part member =>
        visible.2 part (List.mem_append_left _ member)⟩
    have isOrdered : name ∈ share.ordered (share.root ++ front) :=
      mem_ordered.mpr ⟨visible.2 name (by simp), .inl leads⟩
    -- The page that the name stands on.
    obtain ⟨position, isPosition⟩ := List.getElem?_of_mem isOrdered
    obtain ⟨result, objects, answered, onPage⟩ :=
      share.page_of_directory library front (position / size * size) size parent.1 positive
    have here : name ∈ ((share.ordered (share.root ++ front)).drop (position / size * size)).take
          size := by
      refine List.mem_of_getElem? (i := position % size) ?_
      rw [List.getElem?_take_of_lt (Nat.mod_lt position positive), List.getElem?_drop,
        Nat.div_add_mod', isPosition]
    have directory : share.isDirectory (share.root ++ front) name = true := decide_eq_true leads
    have inIds : Utf16.ofString (idOf (front ++ [name])) ∈ objects.1.map CdObject.id := by
      rw [onPage.containerIds]
      exact List.mem_map_of_mem (f := fun name => Utf16.ofString (idOf (front ++ [name])))
        (List.mem_filter.mpr ⟨here, directory⟩)
    obtain ⟨container, member, isId⟩ := List.mem_map.mp inIds
    exact .child (ih parent) answered onPage.read member isId

theorem idOf_injective (rel other : List String) (found kind : Kind)
    (leads : share.tree.kind (share.root ++ rel) = some found)
    (leadsToo : share.tree.kind (share.root ++ other) = some kind) (same : idOf rel = idOf other) :
    rel = other := by
  unfold idOf at same
  by_cases top : rel = []
  · by_cases topToo : other = []
    · rw [top, topToo]
    · rw [if_pos top, if_neg topToo] at same
      exact absurd same.symm (encodeObjectId_ne _)
  · by_cases topToo : other = []
    · rw [if_neg top, if_pos topToo] at same
      exact absurd same (encodeObjectId_ne _)
    · rw [if_neg top, if_neg topToo] at same
      have resolved := resolve_encodeObjectId top leads
      rw [same, resolve_encodeObjectId topToo leadsToo] at resolved
      exact (List.append_cancel_left (Except.ok.inj resolved)).symm

theorem browseMetadata_root (library : Library) : ∃ result root,
      share.browseMetadata library "0" = some result ∧ result.objects = some ([root], []) ∧
        root.id = Utf16.ofString "0" ∧
        root.childCount = (share.ordered share.root).length ∧
        result.numberReturned = 1 ∧ result.totalMatches = 1 := by
  let root : CdObject :=
    { id := Utf16.ofString "0"
      parentId := Utf16.ofString "-1"
      title := library.friendlyName
      childCount := share.countChildren share.root }
  refine ⟨{ didl := lite [root] [], numberReturned := 1, totalMatches := 1 }, root.received,
    if_pos rfl, ?_, ?_, ?_, rfl, rfl⟩
  · unfold BrowseResult.objects
    rw [parse_lite, Option.map_some, readObjects_didlLayout]
    rfl
  · exact clean_ofChars "0".toList (by decide)
  · rw [← countChildren_eq]
    rfl

/-- Browsing is a faithful walk: with pages of any size a client reaches exactly the
visible directories; for each of them the pages hold the visible directories and then
the visible audio files in the order of their bytes, each once, with numbers that agree
with the objects and with what the parent has said, and an id leads to the entry it was
given for alone. -/
theorem browse_walksTree (library : Library) (size : Nat) (positive : 0 < size)
    (served : share.tree.kind share.root = some .directory) :
    (∀ objectId, share.Walked size objectId ↔
          ∃ rel, objectId = idOf rel ∧ share.Visible rel .directory) ∧
      (∀ rel, share.Visible rel .directory → ∃ directories files,
          share.Listing rel directories files ∧ (∀ page, ∃ result objects,
              share.browseResult library (idOf rel) (page * size) size = some result ∧
                share.Page rel (((directories ++ files).drop (page * size)).take size) result
                  objects) ∧
            ∀ pages, (directories ++ files).length ≤ pages * size →
              ((List.range pages).flatMap fun page =>
                  share.pageIds library (idOf rel) size page) =
                (directories ++ files).map fun name =>
                  Utf16.ofString (idOf (rel ++ [name]))) ∧
      (∃ result root, share.browseMetadata library "0" = some result ∧
          result.objects = some ([root], []) ∧
          root.id = Utf16.ofString "0" ∧
          root.childCount = (share.ordered share.root).length ∧
          result.numberReturned = 1 ∧ result.totalMatches = 1) ∧
      (∀ rel found, rel ≠ [] → share.Visible rel found →
        share.resolve (idOf rel) = .ok (share.root ++ rel) ∧ share.resolveFile (idOf rel) =
            .ok (if found = .file then some (share.root ++ rel) else none)) ∧
      (∀ rel other found kind, share.Visible rel found → share.Visible other kind →
        idOf rel = idOf other → rel = other) := by
  refine ⟨?_, ?_, ?_, ?_, ?_⟩
  · intro objectId
    constructor
    · exact share.visible_of_walked size objectId positive served
    · rintro ⟨rel, rfl, visible⟩
      exact share.walked_of_visible library size rel positive visible
  · intro rel visible
    refine ⟨share.directories (share.root ++ rel), share.files (share.root ++ rel),
      share.listing_of_visible rel visible, ?_, ?_⟩
    · intro page
      exact share.page_of_directory library rel (page * size) size visible.1 positive
    · intro pages enough
      have each (page : Nat) : share.pageIds library (idOf rel) size page =
            (((share.ordered (share.root ++ rel)).drop (page * size)).take size).map
              fun name => Utf16.ofString (idOf (rel ++ [name])) := by
        obtain ⟨result, objects, answered, onPage⟩ :=
          share.page_of_directory library rel (page * size) size visible.1 positive
        unfold pageIds
        rw [answered, Option.bind_some, onPage.read, Option.map_some, onPage.ids]
        rfl
      have all := flatMap_pages (share.ordered (share.root ++ rel)) size pages
      rw [← ordered_eq] at enough ⊢
      rw [List.take_of_length_le enough] at all
      simp only [each]
      rw [← List.map_flatMap, all]
  · exact share.browseMetadata_root library
  · intro rel found some_name visible
    have resolved := resolve_encodeObjectId some_name visible.1
    have id : idOf rel = encodeObjectId (joined rel) := if_neg some_name
    refine ⟨id ▸ resolved, ?_⟩
    unfold resolveFile
    rw [id, resolved]
    have leads := visible.1
    cases found with
    | file => simp [Except.map, leads]
    | directory => simp [Except.map, leads]
  · intro rel other found kind visible visibleToo same
    exact share.idOf_injective rel other found kind visible.1 visibleToo.1 same

/-- The walk through a share with one song, one file at a time. -/
theorem small_walksTree : 0 < 1 ∧ small.tree.kind small.root = some .directory ∧
      small.Walked 1 "0" :=
  ⟨by decide, by decide,
    ((small.browse_walksTree ⟨none, fun _ => 0, [], []⟩ 1 (by decide) (by decide)).1 "0").mpr
      ⟨[], rfl, by decide, by simp⟩⟩

end Share

end LosslessMusic.Dlna
