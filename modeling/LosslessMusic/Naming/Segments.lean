import LosslessMusic.Naming.DownloadTemplates

/-!
# Download targets stay inside the download directory

Whatever the metadata and the templates are, a target is the base directory or lies
below it, and each segment of the way there is one that sanitizing leaves.
-/

namespace LosslessMusic.Naming

open Codec Pattern DownloadTemplates

/-- A path segment that is no way out: it is a name of its own, all its units are kept
and valid, and no dot or white space is at an end. -/
structure IsSegment (text : Utf16) : Prop where
  nonempty : text ≠ []
  notHere : text ≠ Utf16.ofString "."
  notParent : text ≠ Utf16.ofString ".."
  kept : ∀ unit ∈ text, isKept unit = true
  valid : ∀ unit ∈ text, isInvalid unit = false
  begins : ∀ first, text.head? = some first → isEdge first = false
  ends : ∀ last, text.getLast? = some last → isEdge last = false

/-- A list of segments below a base directory. -/
def below (baseDir : Utf16) (segments : List Utf16) : Utf16 :=
  if segments = [] then baseDir
  else baseDir.rdropWhile (isOneOf "/") ++ Utf16.ofString "/" ++ join "/" segments

/-! ## Sanitized segments -/

variable {text : Utf16} {edge : UInt16 → Bool}

theorem head_of_trimmed {first : UInt16}
    (isFirst : ((text.dropWhile edge).rdropWhile edge).head? = some first) :
    edge first = false := by
  have kept := List.rdropWhile_prefix edge (text.dropWhile edge)
  have same : (text.dropWhile edge).head? = some first := by
    obtain ⟨rest, whole⟩ := kept
    rw [← whole, List.head?_append, isFirst]
    rfl
  have refused := List.head?_dropWhile_not edge text
  rw [same] at refused
  simpa using refused

theorem last_of_trimmed {last : UInt16} (isLast : (text.rdropWhile edge).getLast? = some last) :
    edge last = false := by
  have nonempty : text.rdropWhile edge ≠ [] := by
    intro nothing
    rw [nothing] at isLast
    cases isLast
  have refused := List.rdropWhile_last_not edge text nonempty
  rw [List.getLast?_eq_some_getLast nonempty, Option.some.injEq] at isLast
  rw [isLast] at refused
  simpa using refused

/-- What does not begin with an edge is neither the directory itself nor its parent. -/
theorem isSegment_of_trimmed (nonempty : text ≠ [])
    (units : ∀ unit ∈ text, isKept unit = true ∧ isInvalid unit = false)
    (begins : ∀ first, text.head? = some first → isEdge first = false)
    (ends : ∀ last, text.getLast? = some last → isEdge last = false) :
    IsSegment text where
  nonempty := nonempty
  notHere := by
    rintro rfl
    exact absurd (begins 46 rfl) (by decide)
  notParent := by
    rintro rfl
    exact absurd (begins 46 rfl) (by decide)
  kept unit member := (units unit member).1
  valid unit member := (units unit member).2
  begins := begins
  ends := ends

theorem sanitizeFolderSegment_isSegment (name : Utf16) :
    IsSegment (sanitizeFolderSegment name) := by
  have blank : ∀ unit ∈ Utf16.ofString " ", isKept unit = true ∧ isInvalid unit = false := by
    decide
  have valid : ∀ unit ∈ (Pattern.one isInvalid).replaceAll (fun _ => Utf16.ofString " ")
      (name.filter isKept), isKept unit = true ∧ isInvalid unit = false := by
    intro unit member
    rw [replaceAll_one, List.mem_flatMap] at member
    obtain ⟨found, inName, written⟩ := member
    cases invalid : isInvalid found with
    | true =>
      rw [if_pos invalid] at written
      exact blank unit written
    | false =>
      rw [invalid, if_neg Bool.false_ne_true, List.mem_singleton] at written
      rw [written]
      exact ⟨(List.mem_filter.mp inName).2, invalid⟩
  have spaced : ∀ unit ∈ (oneOrMore space).replaceAll (fun _ => Utf16.ofString " ")
      ((Pattern.one isInvalid).replaceAll (fun _ => Utf16.ofString " ") (name.filter isKept)),
      isKept unit = true ∧ isInvalid unit = false :=
    forall_mem_replaceAll (fun _ => blank) valid
  unfold sanitizeFolderSegment
  simp only [replaceAll_start, replaceAll_finish]
  generalize (oneOrMore space).replaceAll (fun _ => Utf16.ofString " ")
    ((Pattern.one isInvalid).replaceAll (fun _ => Utf16.ofString " ") (name.filter isKept)) = text
    at spaced ⊢
  have within : ∀ unit ∈ ((trim text).dropWhile isEdge).rdropWhile isEdge, unit ∈ text := by
    intro unit member
    have inDropped := (List.rdropWhile_prefix isEdge _).subset member
    have inTrimmed := (List.dropWhile_suffix isEdge).subset inDropped
    unfold trim at inTrimmed
    exact (List.dropWhile_suffix isTrimmed).subset
      ((List.rdropWhile_prefix isTrimmed _).subset inTrimmed)
  split
  · refine isSegment_of_trimmed ?_ ?_ ?_ ?_
    · decide
    · decide
    · rintro first ⟨⟩
      decide
    · rintro last ⟨⟩
      decide
  next filled =>
    refine isSegment_of_trimmed ?_ ?_ ?_ ?_
    · intro nothing
      exact filled (by rw [nothing]; rfl)
    · intro unit member
      exact spaced unit (within unit member)
    · intro first isFirst
      exact head_of_trimmed isFirst
    · intro last isLast
      exact last_of_trimmed isLast

/-! ## Relative folders -/

theorem relativeSegments_areSegments (mode : FolderOrganization) (track : FolderMetadata) :
    ∀ segment ∈ relativeSegments mode track, IsSegment segment := by
  intro segment member
  unfold relativeSegments at member
  simp only [List.mem_filterMap, id_eq, exists_eq_right] at member
  have fromArtist (artist : Option Utf16) (isArtist : some segment = artist.map fun text =>
        sanitizeFolderSegment (featuredArtist.replaceAll (fun _ => []) text)) :
      IsSegment segment := by
    cases artist with
    | none => cases isArtist
    | some text =>
      rw [Option.map_some, Option.some.injEq] at isArtist
      rw [isArtist]
      exact sanitizeFolderSegment_isSegment _
  have fromAlbum (isAlbum : some segment = track.album.bind fun text =>
      if (trim text).isEmpty then none else some (sanitizeFolderSegment text)) :
      IsSegment segment := by
    cases isSome : track.album with
    | none =>
      rw [isSome] at isAlbum
      cases isAlbum
    | some text =>
      rw [isSome, Option.bind_some] at isAlbum
      split at isAlbum
      · cases isAlbum
      · rw [Option.some.injEq] at isAlbum
        rw [isAlbum]
        exact sanitizeFolderSegment_isSegment _
  cases mode with
  | none => cases member
  | artist => exact fromArtist _ (List.mem_singleton.mp member)
  | album => exact fromAlbum (List.mem_singleton.mp member)
  | artistAlbum =>
    rcases List.mem_cons.mp member with isArtist | others
    · exact fromArtist _ isArtist
    · exact fromAlbum (List.mem_singleton.mp others)

theorem join_isEmpty {segments : List Utf16}
    (areSegments : ∀ segment ∈ segments, IsSegment segment) :
    (join "/" segments).isEmpty = true ↔ segments = [] := by
  cases segments with
  | nil => exact ⟨fun _ => rfl, fun _ => rfl⟩
  | cons first others =>
    have nonempty := (areSegments first List.mem_cons_self).nonempty
    constructor
    · intro empty
      exfalso
      apply nonempty
      unfold join at empty
      rw [List.isEmpty_iff] at empty
      cases others with
      | nil => simpa using empty
      | cons second rest =>
        rw [List.intercalate_cons_cons] at empty
        simp only [List.append_eq_nil_iff] at empty
        exact empty.1.1
    · intro nothing
      cases nothing

theorem relativeFolder_segments (track : Track) (mode : FolderOrganization)
    (albumFolderTemplate : Utf16) (quality : Option Utf16) :
    ∃ segments, (∀ segment ∈ segments, IsSegment segment) ∧
      relativeFolder track mode albumFolderTemplate quality = join "/" segments ∧
      (validate albumFolderTemplate true = none →
        segments.length = (parts albumFolderTemplate).length) := by
  unfold relativeFolder
  split
  · refine ⟨(parts albumFolderTemplate).map fun part => preview part track quality, ?_, rfl, ?_⟩
    · intro segment member
      obtain ⟨part, _, isPreview⟩ := List.mem_map.mp member
      rw [← isPreview]
      exact sanitizeFolderSegment_isSegment _
    · intro _
      exact List.length_map _
  next legacy =>
    have refused : validate albumFolderTemplate true ≠ none := by
      intro accepted
      apply legacy
      rw [accepted]
      cases albumFolderTemplate with
      | nil => exact absurd accepted (by decide)
      | cons unit rest => rfl
    unfold buildRelativeFolder
    split
    · refine ⟨[], ?_, rfl, fun accepted => absurd accepted refused⟩
      intro segment member
      cases member
    · exact ⟨_, relativeSegments_areSegments _ _, rfl, fun accepted => absurd accepted refused⟩

/-- Every target is the base directory or lies below it, and a folder template that is
accepted gives one segment for each of its parts. -/
theorem resolveDownloadTarget_inside (baseDir : Utf16) (track : Track) (mode : FolderOrganization)
    (filenameTemplate albumFolderTemplate : Utf16)
    (quality : Option Utf16) :
    ∃ segments : List Utf16, (∀ segment ∈ segments, IsSegment segment) ∧
      (resolveDownloadTarget baseDir track mode filenameTemplate albumFolderTemplate
        quality).dir = below baseDir segments ∧
      (validate albumFolderTemplate true = none →
        segments.length = (parts albumFolderTemplate).length) := by
  obtain ⟨segments, areSegments, joined, counted⟩ :=
    relativeFolder_segments track mode albumFolderTemplate quality
  refine ⟨segments, areSegments, ?_, counted⟩
  unfold resolveDownloadTarget below
  simp only [joined, join_isEmpty areSegments]
  split
  · rfl
  · unfold withoutTrailingSlashes oneOf
    rw [replaceAll_finish]

/-- A control of either plane of controls. -/
def isControl (unit : UInt16) : Bool :=
  unit.toNat < 0x20 || (0x7F ≤ unit.toNat && unit.toNat ≤ 0x9F)

/-- The directory is the base directory, or a slash and segments behind it without any
control or outer white space. -/
def StrictlyInside (baseDir dir : Utf16) : Prop :=
  dir = baseDir ∨ ∃ segments : List Utf16,
      (∀ segment ∈ segments, IsSegment segment ∧ (∀ unit ∈ segment, isControl unit = false) ∧
        trim segment = segment) ∧
      dir = baseDir ++ Utf16.ofString "/" ++ join "/" segments

theorem mem_of_join {segments : List Utf16} (nonempty : text ≠ []) (plain : (47 : UInt16) ∉ text)
    (joined : text = join "/" segments) : text ∈ segments := by
  cases segments with
  | nil => exact absurd joined nonempty
  | cons first others =>
    cases others with
    | nil =>
      have same : text = first := joined.trans List.intercalate_singleton
      rw [same]
      exact List.mem_singleton.mpr rfl
    | cons second rest =>
      exfalso
      apply plain
      unfold join at joined
      rw [joined, List.intercalate_cons_cons]
      have slash : (47 : UInt16) ∈ Utf16.ofString "/" := by decide
      simp [slash]

/-- A text without slashes below the base directory is one of the segments. -/
theorem segment_of_strictlyInside (text : Utf16) {baseDir dir : Utf16} (nonempty : text ≠ [])
    (plain : (47 : UInt16) ∉ text) (isDir : dir = baseDir ++ Utf16.ofString "/" ++ text)
    (inside : StrictlyInside baseDir dir) :
    (∀ unit ∈ text, isControl unit = false) ∧ trim text = text := by
  rcases inside with same | ⟨segments, promised, joined⟩
  · have lengths := congrArg List.length (isDir.symm.trans same)
    have slash : (Utf16.ofString "/").length = 1 := rfl
    simp only [List.length_append, slash] at lengths
    omega
  · have isJoined : text = join "/" segments := List.append_cancel_left (isDir.symm.trans joined)
    exact (promised text (mem_of_join nonempty plain isJoined)).2

/-- Slashes at the end of the base directory are taken away, controls beyond U+007F stay,
and the next line U+0085 is white space that only one of two passes takes away. -/
theorem resolveDownloadTarget_notStrictlyInside : ¬ StrictlyInside (Utf16.ofString "/dl/")
        (resolveDownloadTarget (Utf16.ofString "/dl/") { sample false with albumArtist := none }
          .artist [] [] none).dir ∧
      ¬ StrictlyInside (Utf16.ofString "/dl") (resolveDownloadTarget (Utf16.ofString "/dl")
          { sample false with albumArtist := some (Utf16.ofString "A\u0080B") }
          .artist [] [] none).dir ∧
      ¬ StrictlyInside (Utf16.ofString "/dl") (resolveDownloadTarget (Utf16.ofString "/dl")
          { sample false with albumArtist := some (Utf16.ofString "A\u0085.") }
          .artist [] [] none).dir := by
  refine ⟨?_, ?_, ?_⟩
  · have isDir : (resolveDownloadTarget (Utf16.ofString "/dl/")
        { sample false with albumArtist := none } .artist [] [] none).dir =
          Utf16.ofString "/dl/Sample Artist" := by
      decide +kernel
    rw [isDir]
    rintro (same | ⟨segments, _, joined⟩)
    · exact absurd same (by decide)
    · have isSlash : Utf16.ofString "/dl/" ++ Utf16.ofString "/" <+:
          Utf16.ofString "/dl/Sample Artist" := ⟨join "/" segments, joined.symm⟩
      exact absurd isSlash (by decide)
  · intro inside
    have noControl := (segment_of_strictlyInside (Utf16.ofString "A\u0080B")
      (by decide) (by decide) (by decide +kernel) inside).1
    exact absurd (noControl 0x80 (by decide)) (by decide)
  · intro inside
    have trimmed := (segment_of_strictlyInside (Utf16.ofString "A\u0085")
      (by decide) (by decide) (by decide +kernel) inside).2
    exact absurd trimmed (by decide)

end LosslessMusic.Naming
