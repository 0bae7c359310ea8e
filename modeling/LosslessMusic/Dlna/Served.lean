import LosslessMusic.Dlna.ContentDirectory

/-!
# What the media route serves

A client that browses finds exactly the visible audio files below the served
directory. The media route resolves an id on its own and leaves that filter out.
-/

namespace LosslessMusic.Dlna

open Codec

/-! ## Paths -/

/-- Names are joined by slashes. -/
def joined (names : List String) : String :=
  String.ofList (['/'].intercalate (names.map String.toList))

/-- A part that is a name of its own. -/
def isName (part : String) : Bool :=
  part ≠ "" && part ≠ "."

section Plain

variable {name : String} {names : List String}

theorem plainName_iff : plainName name = true ↔
    name ≠ "" ∧ name ≠ "." ∧ name ≠ ".." ∧ '/' ∉ name.toList ∧ '\x00' ∉ name.toList := by
  simp [plainName, and_assoc]

theorem parts_joined (some_name : names ≠ [])
    (plain : ∀ name ∈ names, plainName name = true) : parts (joined names) = names := by
  unfold parts joined
  rw [String.toList_ofList, List.splitOn_intercalate]
  · simp
  · intro chars member
    obtain ⟨name, isName, rfl⟩ := List.mem_map.mp member
    exact (plainName_iff.mp (plain name isName)).2.2.2.1
  · simpa using some_name

theorem isRelative_joined (some_name : names ≠ []) (plain : ∀ name ∈ names, plainName name = true) :
    Text.startsWith (joined names) "/" = false := by
  by_contra starts
  rw [Bool.not_eq_false, Text.startsWith, List.isPrefixOf_iff_prefix] at starts
  obtain ⟨rest, whole⟩ := starts
  have split := parts_joined some_name plain
  unfold parts at split
  rw [← whole] at split
  have empty : "" ∈ names := by
    rw [← split]
    simp [List.splitOn_cons_eq_if_modifyHead]
  exact (plainName_iff.mp (plain "" empty)).1 rfl

theorem joined_ne (some_name : names ≠ [])
    (plain : ∀ name ∈ names, plainName name = true) : joined names ≠ "" := by
  intro nothing
  have split := parts_joined some_name plain
  rw [nothing] at split
  have empty : "" ∈ names := by
    rw [← split]
    decide
  exact (plainName_iff.mp (plain "" empty)).1 rfl

theorem mem_joined {char : Char} (member : char ∈ (joined names).toList) :
    char = '/' ∨ ∃ name ∈ names, char ∈ name.toList := by
  unfold joined at member
  rw [String.toList_ofList] at member
  induction names with
  | nil => cases member
  | cons name rest ih =>
    cases rest with
    | nil =>
      simp only [List.map_cons, List.map_nil, List.intercalate_singleton] at member
      exact .inr ⟨name, List.mem_cons_self, member⟩
    | cons next others =>
      simp only [List.map_cons, List.intercalate_cons_cons, List.mem_append,
        List.mem_singleton] at member ih
      rcases member with (inName | slash) | later
      · exact .inr ⟨name, List.mem_cons_self, inName⟩
      · exact .inl slash
      · rcases ih later with slash | ⟨other, isLater, inOther⟩
        · exact .inl slash
        · exact .inr ⟨other, List.mem_cons_of_mem _ isLater, inOther⟩

theorem joined_append (names : List String) (name : String) (some_name : names ≠ []) :
    joined (names ++ [name]) = joined names ++ "/" ++ name := by
  induction names with
  | nil => exact absurd rfl some_name
  | cons first rest ih =>
    apply String.toList_injective
    unfold joined at ih ⊢
    cases rest with
    | nil => simp [List.intercalate_cons_cons]
    | cons next others =>
      have tail := congrArg String.toList (ih (by simp))
      simp only [String.toList_ofList, String.toList_append, List.map_cons,
        List.map_append, List.cons_append, List.intercalate_cons_cons] at tail ⊢
      rw [tail]
      simp

variable {steps : List String}

/-- Following parts without `..` appends those that are names. -/
theorem foldl_follow (path : List String) (inside : ".." ∉ steps) :
    steps.foldl follow path = path ++ steps.filter isName := by
  induction steps generalizing path with
  | nil => simp
  | cons part rest ih =>
    rw [List.mem_cons, not_or] at inside
    rw [List.foldl_cons, ih _ inside.2, List.filter_cons]
    unfold follow
    by_cases skipped : part = "" ∨ part = "."
    · have noName : isName part = false := by
        rcases skipped with rfl | rfl <;> rfl
      rw [if_pos skipped, noName]
      rfl
    · have named : isName part = true := by
        simpa [isName, not_or] using skipped
      rw [if_neg skipped, if_neg (Ne.symm inside.1), named]
      simp

theorem filter_isName (plain : ∀ name ∈ names, plainName name = true) :
    names.filter isName = names := by
  rw [List.filter_eq_self]
  intro name member
  have isPlain := plainName_iff.mp (plain name member)
  simp [isName, isPlain.1, isPlain.2.1]

theorem notMem_of_plain (plain : ∀ name ∈ names, plainName name = true) : ".." ∉ names :=
  fun member => (plainName_iff.mp (plain _ member)).2.2.1 rfl

theorem normalize_append (root : List String)
    (normal : ∀ name ∈ root, plainName name = true) (inside : ".." ∉ steps) :
    normalize (root ++ steps) = root ++ steps.filter isName := by
  unfold normalize
  rw [List.foldl_append, foldl_follow [] (notMem_of_plain normal), filter_isName normal,
    foldl_follow _ inside, List.nil_append]

end Plain

namespace Share

variable {share : Share} {id : String} {path rel : List String}

/-! ## Resolving -/

/-- The names below the root that an id stands for, unless it is refused. -/
def below (share : Share) (id : String) : Option (List String) :=
  ((share.decodeObjectId id).filter fun rel => !escapes rel && '\x00' ∉ rel.toList).map
    fun rel => (parts rel).filter isName

theorem resolve_eq_ok_iff : share.resolve id = .ok path ↔
    ∃ rel, share.below id = some rel ∧ path = share.root ++ rel := by
  unfold resolve below
  cases share.decodeObjectId id with
  | none => simp
  | some text =>
    by_cases refused : escapes text = true
    · simp [refused]
    · have inside : ".." ∉ parts text := by
        intro member
        apply refused
        simp [escapes, member]
      by_cases null : '\x00' ∈ text.toList
      · simp [refused, null]
      · have normal := normalize_append share.root share.normal inside
        have ahead : share.root.isPrefixOf (share.root ++ (parts text).filter isName) = true := by
          rw [List.isPrefixOf_iff_prefix]
          exact List.prefix_append _ _
        simp only [refused, Bool.false_eq_true, if_false, null, ahead, if_true,
          Except.ok.injEq, Option.filter_some, Bool.not_false, not_false_eq_true,
          decide_true, Bool.and_self, Option.map_some, Option.some.injEq, exists_eq_left',
          normal]
        exact eq_comm

theorem decodeObjectId_encodeObjectId (text : String) :
    share.decodeObjectId (encodeObjectId text) = some text := by
  unfold decodeObjectId encodeObjectId
  rw [Base64.decode_encode, Option.map_some]
  simp [utf8, String.fromUTF8?, String.fromUTF8, text.isValidUTF8]

theorem encodeObjectId_ne (text : String) : encodeObjectId text ≠ "0" := by
  intro same
  have decoded := Base64.decode_encode (utf8 text)
  unfold encodeObjectId at same
  rw [same] at decoded
  have nothing : Base64.decode "0" = none := by decide +kernel
  rw [nothing] at decoded
  cases decoded

theorem below_encodeObjectId (some_name : rel ≠ []) (plain : ∀ name ∈ rel, plainName name = true) :
    share.below (encodeObjectId (joined rel)) = some rel := by
  have split := parts_joined some_name plain
  have null : '\x00' ∉ (joined rel).toList := by
    intro member
    rcases mem_joined member with slash | ⟨name, isName, inName⟩
    · exact absurd slash (by decide)
    · exact (plainName_iff.mp (plain name isName)).2.2.2.2 inName
  have inside : escapes (joined rel) = false := by
    unfold escapes
    rw [isRelative_joined some_name plain, split, Bool.false_or]
    simpa using notMem_of_plain plain
  unfold below
  rw [decodeObjectId_encodeObjectId]
  simp only [Option.filter_some, inside, null, not_false_eq_true, decide_true, Bool.not_false,
    Bool.and_self, if_true, Option.map_some, split, filter_isName plain]

/-! ## Browsing -/

/-- The path leads to something below the root past no hidden name. -/
def Visible (share : Share) (rel : List String) (found : Kind) : Prop :=
  share.tree.kind (share.root ++ rel) = some found ∧ ∀ name ∈ rel, isVisible name = true

variable {found : Kind}

theorem plain_of_kind (leads : share.tree.kind (share.root ++ rel) = some found) :
    ∀ name ∈ rel, plainName name = true := by
  intro name member
  refine FileTree.plainName_of_kind ?_ leads name (List.mem_append_right _ member)
  rintro nothing
  rw [(List.append_eq_nil_iff.mp nothing).2] at member
  cases member

theorem resolve_encodeObjectId (some_name : rel ≠ [])
    (leads : share.tree.kind (share.root ++ rel) = some found) :
    share.resolve (encodeObjectId (joined rel)) = .ok (share.root ++ rel) := by
  rw [resolve_eq_ok_iff]
  exact ⟨rel, below_encodeObjectId some_name (plain_of_kind leads), rfl⟩

theorem mem_ordered {target : List String} {name : String} :
    name ∈ share.ordered target ↔ isVisible name = true ∧
      (share.tree.kind (target ++ [name]) = some .directory ∨
        share.tree.kind (target ++ [name]) = some .file ∧ isAudio name = true) := by
  unfold ordered
  simp only [List.mem_append, List.mem_filter, List.mem_mergeSort, FileTree.mem_names, shown,
    Bool.and_eq_true, Bool.or_eq_true, decide_eq_true_eq]
  constructor
  · rintro (⟨⟨_, shows⟩, _⟩ | ⟨⟨_, shows⟩, _⟩)
    · exact shows
    · exact shows
  · rintro ⟨visible, directory | ⟨file, audio⟩⟩
    · left
      simp [visible, directory]
    · right
      simp [visible, file, audio]

/-- The id `browse` is called with for names below the root. -/
def idOf (rel : List String) : String :=
  if rel = [] then "0" else encodeObjectId (joined rel)

theorem browse_idOf (startingIndex requestedCount : Nat)
    (leads : share.tree.kind (share.root ++ rel) = some .directory) :
    share.browse (idOf rel) startingIndex requestedCount =
      some (((fun rest => if requestedCount = 0 then rest else rest.take requestedCount)
        ((share.ordered (share.root ++ rel)).drop startingIndex)).map fun name =>
          { id := idOf (rel ++ [name])
            kind := (share.tree.kind (share.root ++ rel ++ [name])).getD .file }) := by
  unfold browse idOf
  by_cases top : rel = []
  · subst top
    rw [List.append_nil] at leads ⊢
    have alone : ∀ name, joined [name] = name := by
      intro name
      simp [joined]
    simp [leads, alone]
  · have plain := plain_of_kind leads
    have filled := joined_ne top plain
    have resolved := resolve_encodeObjectId top leads
    rw [if_neg top]
    simp only [encodeObjectId_ne, if_false, decodeObjectId_encodeObjectId, resolved, leads,
      ne_eq, not_true_eq_false, filled, List.append_eq_nil_iff, top, List.cons_ne_nil, and_self,
      joined_append rel _ top]

/-- What a client has found is where it has found it. -/
structure Found (share : Share) (objectId : String) (rel : List String) : Prop where
  id : objectId = idOf rel
  visible : rel ≠ [] → share.Visible rel .directory

variable {objectId : String}

/-- Every entry of an answer is a shown name of the directory that was asked for. -/
theorem entry_of_browse {startingIndex requestedCount : Nat}
    {entries : List Entry} {entry : Entry} (found : share.Found objectId rel)
    (answered : share.browse objectId startingIndex requestedCount = some entries)
    (member : entry ∈ entries) :
    ∃ name ∈ share.ordered (share.root ++ rel), entry.id = idOf (rel ++ [name]) ∧
      share.tree.kind (share.root ++ (rel ++ [name])) = some entry.kind ∧
      ∀ part ∈ rel ++ [name], isVisible part = true := by
  have leads : share.tree.kind (share.root ++ rel) = some .directory := by
    by_cases top : rel = []
    · rw [found.id, idOf, if_pos top] at answered
      unfold browse at answered
      simp only [if_true, Option.ite_none_left_eq_some, ne_eq, not_not] at answered
      rw [top, List.append_nil]
      exact answered.1
    · exact (found.visible top).1
  rw [found.id, browse_idOf _ _ leads, Option.some.injEq] at answered
  subst answered
  obtain ⟨name, selected, rfl⟩ := List.mem_map.mp member
  have isOrdered : name ∈ share.ordered (share.root ++ rel) := by
    split at selected
    · exact List.mem_of_mem_drop selected
    · exact List.mem_of_mem_drop (List.mem_of_mem_take selected)
  obtain ⟨visible, shows⟩ := mem_ordered.mp isOrdered
  refine ⟨name, isOrdered, rfl, ?_, ?_⟩
  · rcases shows with directory | ⟨file, _⟩
    · rw [← List.append_assoc, directory]
      rfl
    · rw [← List.append_assoc, file]
      rfl
  · intro part isPart
    rcases List.mem_append.mp isPart with before | last
    · exact (found.visible (List.ne_nil_of_mem before)).2 part before
    · rwa [List.mem_singleton.mp last]

theorem found_of_browsed (browsed : share.Browsed objectId) : ∃ rel, share.Found objectId rel := by
  induction browsed with
  | root => exact ⟨[], rfl, fun more => absurd rfl more⟩
  | child _ answered member isDirectory ih =>
    obtain ⟨rel, found⟩ := ih
    obtain ⟨name, _, id, leads, visible⟩ := entry_of_browse found answered member
    rw [isDirectory] at leads
    exact ⟨rel ++ [name], id, fun _ => ⟨leads, visible⟩⟩

/-- The complete answer for a directory holds every shown name. -/
theorem browse_shows {name : String}
    (leads : share.tree.kind (share.root ++ rel) = some .directory)
    (isOrdered : name ∈ share.ordered (share.root ++ rel))
    (here : share.tree.kind (share.root ++ (rel ++ [name])) = some found) :
    ∃ entries, share.browse (idOf rel) 0 0 = some entries ∧
      { id := idOf (rel ++ [name]), kind := found } ∈ entries := by
  refine ⟨_, browse_idOf 0 0 leads, ?_⟩
  simp only [if_true, List.drop_zero]
  refine List.mem_map.mpr ⟨name, isOrdered, ?_⟩
  rw [List.append_assoc, here]
  rfl

theorem browsed_of_visible (visible : share.Visible rel .directory) : share.Browsed (idOf rel) := by
  induction rel using List.reverseRecOn with
  | nil => exact .root
  | append_singleton front name ih =>
    obtain ⟨leads, shown⟩ := visible
    have parent : share.tree.kind (share.root ++ front) = some .directory := by
      rw [← List.append_assoc] at leads
      exact FileTree.kind_parent leads
    have before := ih ⟨parent, fun part member => shown part (List.mem_append_left _ member)⟩
    have isOrdered : name ∈ share.ordered (share.root ++ front) := by
      rw [mem_ordered, List.append_assoc]
      exact ⟨shown name (by simp), .inl leads⟩
    obtain ⟨entries, answered, member⟩ := browse_shows parent isOrdered leads
    exact .child before answered member rfl

/-- A client finds exactly the audio files past no hidden name. -/
theorem advertised_iff : share.Advertised path ↔
    ∃ rel name, path = share.root ++ (rel ++ [name]) ∧ isAudio name = true ∧
      share.Visible (rel ++ [name]) .file := by
  constructor
  · rintro ⟨objectId, start, count, entries, entry, browsed, answered, member, isFile, served⟩
    obtain ⟨rel, found⟩ := found_of_browsed browsed
    obtain ⟨name, isOrdered, id, leads, visible⟩ := entry_of_browse found answered member
    rw [isFile] at leads
    have resolved := resolve_encodeObjectId (by simp) leads
    have served' : share.resolveFile entry.id = .ok (some (share.root ++ (rel ++ [name]))) := by
      unfold resolveFile
      rw [id, idOf, if_neg (by simp), resolved]
      simp [Except.map, leads]
    rw [served] at served'
    cases served'
    refine ⟨rel, name, rfl, ?_, leads, visible⟩
    rcases (mem_ordered.mp isOrdered).2 with directory | ⟨_, audio⟩
    · rw [List.append_assoc, leads] at directory
      cases directory
    · exact audio
  · rintro ⟨rel, name, rfl, audio, leads, visible⟩
    have parent : share.tree.kind (share.root ++ rel) = some .directory := by
      have leads := leads
      rw [← List.append_assoc] at leads
      exact FileTree.kind_parent leads
    have isOrdered : name ∈ share.ordered (share.root ++ rel) := by
      rw [mem_ordered, List.append_assoc]
      exact ⟨visible name (by simp), .inr ⟨leads, audio⟩⟩
    obtain ⟨entries, answered, member⟩ := browse_shows parent isOrdered leads
    refine ⟨idOf rel, 0, 0, entries, _, browsed_of_visible ⟨parent, ?_⟩, answered, member, rfl, ?_⟩
    · exact fun part isPart => visible part (List.mem_append_left _ isPart)
    · unfold resolveFile
      rw [idOf, if_neg (by simp), resolve_encodeObjectId (by simp) leads]
      simp [Except.map, leads]

/-! ## The media route -/

/-- What a share promises about an answer: a file that is served lies below the root
and is one that a client finds by browsing, and every other answer is a refusal. -/
def ServesOnly (share : Share) (response : Response) : Prop :=
  match response with
  | .served path _ => share.root <+: path ∧ share.Advertised path
  | .status code => code ∈ [403, 404, 400]

/-- The id names no regular file below the root that is hidden, lies in a hidden
directory or has no audio extension. -/
def NamesAdvertised (share : Share) (id : String) : Prop :=
  ∀ rel, share.below id = some rel → share.tree.kind (share.root ++ rel) = some .file →
    (∀ name ∈ rel, isVisible name = true) ∧ rel.getLast?.any isAudio = true

theorem media_of_below (filled : id ≠ "") (names : share.below id = some rel) : share.media id =
      if share.tree.kind (share.root ++ rel) = some .file then
        .served (share.root ++ rel) (mimeOf ((share.root ++ rel).getLast?.getD ""))
      else .status 404 := by
  have resolved : share.resolve id = .ok (share.root ++ rel) :=
    resolve_eq_ok_iff.mpr ⟨rel, names, rfl⟩
  unfold media resolveFile
  rw [if_neg filled, resolved]
  by_cases isFile : share.tree.kind (share.root ++ rel) = some .file
  · simp [Except.map, isFile]
  · simp [Except.map, isFile]

theorem media_of_refused (filled : id ≠ "") (refused : share.below id = none) :
    share.media id = .status 403 ∨ share.media id = .status 400 := by
  unfold media resolveFile
  rw [if_neg filled]
  cases resolved : share.resolve id with
  | ok path =>
    obtain ⟨rel, names, _⟩ := resolve_eq_ok_iff.mp resolved
    rw [refused] at names
    cases names
  | error refusal =>
    cases refusal with
    | illegalArgument => exact .inr rfl
    | security => exact .inl rfl

/-- The media route serves only what the share advertises exactly for the ids that
name no other file; whatever the id, a served file lies below the root, and another
answer is 403, 404 or 400. -/
theorem media_serves_only_iff (share : Share) (id : String) :
    (share.ServesOnly (share.media id) ↔ (id ≠ "" → share.NamesAdvertised id)) ∧
      match share.media id with
      | .served path _ => share.root <+: path ∧ share.tree.kind path = some .file
      | .status code => code ∈ [403, 404, 400] := by
  by_cases filled : id = ""
  · have nothing : share.media id = .status 404 := by simp [media, filled]
    rw [nothing]
    simp [ServesOnly, filled]
  cases names : share.below id with
  | none =>
    have vacuous : share.NamesAdvertised id := by
      intro rel named
      rw [names] at named
      cases named
    rcases media_of_refused filled names with answer | answer
    · rw [answer]
      simp [ServesOnly, vacuous]
    · rw [answer]
      simp [ServesOnly, vacuous]
  | some rel =>
    have named : share.NamesAdvertised id ↔ (share.tree.kind (share.root ++ rel) = some .file →
          (∀ name ∈ rel, isVisible name = true) ∧ rel.getLast?.any isAudio = true) := by
      unfold NamesAdvertised
      simp [names]
    rw [media_of_below filled names, named]
    by_cases isFile : share.tree.kind (share.root ++ rel) = some .file
    · rw [if_pos isFile]
      simp only [ServesOnly, List.prefix_append, true_and, isFile, and_true, ne_eq, filled,
        not_false_eq_true, true_imp_iff, advertised_iff]
      constructor
      · rintro ⟨front, name, same, audio, _, visible⟩
        rw [List.append_cancel_left_eq] at same
        subst same
        exact ⟨visible, by simpa using audio⟩
      · rintro ⟨visible, audio⟩
        obtain ⟨name, last, isLast⟩ := (Option.any_eq_true isAudio _).mp audio
        obtain ⟨front, rfl⟩ := List.getLast?_eq_some_iff.mp last
        exact ⟨front, name, rfl, isLast, isFile, visible⟩
    · rw [if_neg isFile]
      simp [ServesOnly, isFile]

/-- A served directory with a song, a hidden list and a cover. -/
def small : Share where
  tree :=
    { entries := [(["music"], .directory), (["music", "song.flac"], .file),
        (["music", ".keys"], .directory), (["music", ".keys", "song.flac"], .file),
        (["music", "notes.txt"], .file)]
      distinct := by decide
      enclosed := by decide
      plain := by decide }
  root := ["music"]
  malformed := fun _ => "\uFFFD"
  normal := by decide +kernel

/-- A file without an audio extension is served, and so is one in a hidden directory. -/
theorem media_serves_unadvertised : (small.media (encodeObjectId "notes.txt") =
        .served ["music", "notes.txt"] "application/octet-stream" ∧
      ¬ small.ServesOnly (small.media (encodeObjectId "notes.txt"))) ∧
    (small.media (encodeObjectId ".keys/song.flac") =
        .served ["music", ".keys", "song.flac"] "audio/flac" ∧
      ¬ small.ServesOnly (small.media (encodeObjectId ".keys/song.flac"))) := by
  have plainText : small.media (encodeObjectId "notes.txt") =
      .served ["music", "notes.txt"] "application/octet-stream" := by decide +kernel
  have hidden : small.media (encodeObjectId ".keys/song.flac") =
      .served ["music", ".keys", "song.flac"] "audio/flac" := by decide +kernel
  rw [plainText, hidden]
  refine ⟨⟨rfl, ?_⟩, rfl, ?_⟩
  · rintro ⟨_, advertised⟩
    obtain ⟨rel, name, same, audio, _⟩ := advertised_iff.mp advertised
    have shape : ["notes.txt"] = rel ++ [name] := List.cons.inj same |>.2
    have last : "notes.txt" = name := by simpa using congrArg List.getLast? shape
    rw [← last] at audio
    exact absurd audio (by decide)
  · rintro ⟨_, advertised⟩
    obtain ⟨rel, name, same, _, _, visible⟩ := advertised_iff.mp advertised
    have shape : [".keys", "song.flac"] = rel ++ [name] := List.cons.inj same |>.2
    have shown := visible ".keys" (shape ▸ List.mem_cons_self)
    exact absurd shown (by decide)

end Share
end LosslessMusic.Dlna
