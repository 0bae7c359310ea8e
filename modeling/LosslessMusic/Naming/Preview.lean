import LosslessMusic.Naming.Expansion
import LosslessMusic.Naming.Sanitizers

/-!
# The preview of a file name

What the app shows as the file name of a download, and the name that the engine gives
the file when it is told the same field values.
-/

namespace LosslessMusic.Naming

open Codec Pattern Placeholders

/-- The field values of a track, as texts of characters. -/
structure Fields where
  id : List Char
  name : List Char
  artists : List Char
  albumName : Option (List Char) := none
  albumArtist : Option (List Char) := none
  isrc : Option (List Char) := none
  source : Option (List Char) := none
  trackNumber : Option Int := none
  discNumber : Option Int := none
  totalDiscs : Option Int := none
  releaseDate : Option (List Char) := none
  playlistPosition : Option Int := none
  deriving DecidableEq, Repr

namespace Fields

/-- The track of the app with these values. -/
def track (fields : Fields) : Track where
  id := Utf16.ofChars fields.id
  name := Utf16.ofChars fields.name
  artists := Utf16.ofChars fields.artists
  albumName := fields.albumName.map Utf16.ofChars
  albumArtist := fields.albumArtist.map Utf16.ofChars
  isrc := fields.isrc.map Utf16.ofChars
  source := fields.source.map Utf16.ofChars
  trackNumber := fields.trackNumber
  discNumber := fields.discNumber
  totalDiscs := fields.totalDiscs
  releaseDate := fields.releaseDate.map Utf16.ofChars
  playlistPosition := fields.playlistPosition

/-- The identifier behind the colon. -/
def providerId (fields : Fields) : List Char :=
  (fields.id.dropWhile (· ≠ ':')).drop 1

/-- The metadata of the engine with the same values. -/
def metadata (fields : Fields) (quality : Option (List Char)) : Filename.Metadata :=
  [("title", .text fields.name), ("artist", .text fields.artists),
    ("album", .text (fields.albumName.getD [])),
    ("track", .number (fields.trackNumber.getD 0)),
    ("disc", .number (fields.discNumber.getD 0)),
    ("date", .text (fields.releaseDate.getD [])),
    ("playlist_position", .number (fields.playlistPosition.getD 0)),
    ("isrc", .text (fields.isrc.getD [])),
    ("provider", .text (fields.source.getD [])),
    ("provider_id", .text fields.providerId),
    ("quality", .text (quality.getD []))]

/-- The texts that placeholders stand for. -/
def texts (fields : Fields) (quality : Option (List Char)) : List (List Char) :=
  [fields.name, fields.artists, fields.albumName.getD [], fields.releaseDate.getD [],
    fields.isrc.getD [], fields.source.getD [], fields.providerId, quality.getD []]

/-- The release date without white space around it. -/
def date (fields : Fields) : List Char :=
  Filename.trim (fields.releaseDate.getD [])

/-- The app and the engine take these field values alike: ordinary characters, no
placeholders in them, a date that begins with a year, and no white space that only one
of the two trims. -/
structure Plain (fields : Fields) (quality : Option (List Char)) : Prop where
  ordinary : ∀ text ∈ fields.texts quality, ∀ char ∈ text, isOrdinary char = true
  braces : ∃ brace, (brace = '\x7b' ∨ brace = '\x7d') ∧ ∀ text ∈ fields.texts quality, brace ∉ text
  year : fields.date = [] ∨ 4 ≤ fields.date.length ∧ ∀ char ∈ fields.date.take 4, char.toNat < 0x80
  providerId : Filename.trim fields.providerId = fields.providerId
  quality : Filename.trim (quality.getD []) = quality.getD []

end Fields

/-! ## The values -/

variable {text : List Char} {char : Char}

section Values

variable {fields : Fields} {quality : Option (List Char)}

theorem trim_ofChars (ordinary : ∀ char ∈ text, isOrdinary char = true) :
    trim (Utf16.ofChars text) = Utf16.ofChars (Filename.trim text) := by
  have alike : Filename.trim text = trimBy isBlank text :=
    trimBy_congr (isWhiteSpace_ordinary ordinary)
  rw [alike]
  exact trimBy_ofChars (fun _ isOrdinary _ => isTrimmed_ordinary isOrdinary) ordinary

theorem isDigit_toString {number : Int} (positive : 0 < number) :
    ∀ char ∈ (toString number).toList, char.isDigit = true := by
  obtain ⟨value, rfl⟩ := Int.eq_ofNat_of_zero_le (Int.le_of_lt positive)
  rw [show toString (value : Int) = value.repr from rfl, Nat.toList_repr]
  exact fun char member => Nat.isDigit_of_mem_toDigits (by decide) (by decide) member

variable {digits : List Char}

theorem length_digits (decimal : ∀ char ∈ digits, char.isDigit = true) :
    (Utf16.ofChars digits).length = digits.length := by
  apply Utf16.length_ofChars
  intro digit member
  have range := decimal digit member
  unfold Char.isDigit at range
  rw [Bool.and_eq_true, decide_eq_true_eq, decide_eq_true_eq] at range
  exact Nat.lt_of_le_of_lt range.2 (by decide)

theorem padded_ofChars (value : Option Int) {width : Nat} (positive : 0 < width)
    (small : width ≤ 1000000) :
    DownloadTemplates.padded value width =
      Utf16.ofChars (Filename.padded (value.getD 0) width) := by
  unfold DownloadTemplates.padded Filename.padded
  by_cases isPositive : value.getD 0 > 0
  · have zeros (count : Nat) : Utf16.ofChars (List.replicate count '0') =
        List.replicate count 48 := by
      induction count with
      | zero => rfl
      | succ count ih =>
        rw [List.replicate_succ, Utf16.ofChars_cons, ih]
        rfl
    rw [if_pos isPositive, if_neg (by omega), if_neg (by omega)]
    dsimp only
    rw [Utf16.ofChars_append, zeros]
    unfold Utf16.ofString
    rw [length_digits (isDigit_toString isPositive), Int.toNat_natCast]
  · rw [if_neg isPositive, if_pos (by omega)]
    rfl

theorem integer_track : Filename.integer (fields.metadata quality) "track" =
    fields.trackNumber.getD 0 := by
  simp [Filename.integer, Filename.aliases, Fields.metadata, List.lookup_cons]

theorem integer_disc : Filename.integer (fields.metadata quality) "disc" =
    fields.discNumber.getD 0 := by
  simp [Filename.integer, Filename.aliases, Fields.metadata, List.lookup_cons]

theorem integer_position : Filename.integer (fields.metadata quality) "playlist_position" =
    fields.playlistPosition.getD 0 := by
  simp [Filename.integer, Filename.aliases, Fields.metadata, List.lookup_cons]

/-- The number that a width stands for. -/
def widthOf (digits : List Char) : Nat :=
  (digits.getLast?.getD '0').toNat - 48

/-- The number of the engine that a name stands for. -/
def engineName (name : String) : String :=
  if name = "playlistPosition" ∨ name = "position" then "playlist_position" else name

theorem readings_numberKey : ∀ name ∈ numberNames, ∀ digits ∈ widthDigits,
      DownloadTemplates.number.hasMatch (Utf16.ofChars (numberKey name digits)) = true ∧
      ((Utf16.ofChars (numberKey name digits)).splitOn 58).head? = some (Utf16.ofString name) ∧
      DownloadTemplates.parseDigits
        (((Utf16.ofChars (numberKey name digits)).splitOn 58).getLast?.getD []) = widthOf digits ∧
      String.ofList ((numberKey name digits ++ ['\x7d']).takeWhile (· ≠ ':')) = name ∧
      Filename.parseInteger
        (((numberKey name digits ++ ['\x7d']).dropWhile (· ≠ ':')).drop 1).dropLast =
          some (widthOf digits : Int) ∧
      0 < widthOf digits ∧ widthOf digits ≤ 9 := by
  decide +kernel

theorem numberOf_name : ∀ name ∈ numberNames,
      (DownloadTemplates.numberOf fields.track (Utf16.ofString name)).getD 0 =
        Filename.integer (fields.metadata quality) (engineName name) := by
  have track : engineName "track" = "track" := by decide
  have disc : engineName "disc" = "disc" := by decide
  have position : engineName "playlist_position" = "playlist_position" := by decide
  have shorter : engineName "playlistPosition" = "playlist_position" := by decide
  have shortest : engineName "position" = "playlist_position" := by decide
  unfold numberNames DownloadTemplates.numberOf
  simp only [List.forall_mem_cons]
  rw [track, disc, position, shorter, shortest, integer_track, integer_disc, integer_position]
  refine ⟨?_, ?_, ?_, ?_, ?_, fun _ member => nomatch member⟩
  · rw [if_pos trivial]
    rfl
  · rw [if_neg (by decide), if_pos trivial]
    rfl
  · rw [if_neg (by decide), if_neg (by decide)]
    rfl
  · rw [if_neg (by decide), if_neg (by decide)]
    rfl
  · rw [if_neg (by decide), if_neg (by decide)]
    rfl

theorem numberReplacement_numberKey {name : String} (isName : name ∈ numberNames)
    (isWidth : digits ∈ widthDigits) (metadata : Filename.Metadata) :
    Filename.numberReplacement metadata ('\x7b' :: (numberKey name digits ++ ['\x7d'])) =
      Filename.padded (Filename.integer metadata (engineName name)) (widthOf digits) := by
  obtain ⟨_, _, _, isSame, isParsed, _⟩ := readings_numberKey name isName digits isWidth
  unfold Filename.numberReplacement engineName
  simp only [List.drop_succ_cons, List.drop_zero]
  rw [isSame, isParsed]

theorem replacement_numberKey {name : String} (isName : name ∈ numberNames)
    (isWidth : digits ∈ widthDigits) :
    DownloadTemplates.replacement fields.track (quality.map Utf16.ofChars)
        (123 :: (Utf16.ofChars (numberKey name digits) ++ [125])) =
      Utf16.ofChars (Filename.valueAt (fields.metadata quality) (numberKey name digits)) := by
  obtain ⟨isMatch, isHead, isLast, _, _, positive, small⟩ :=
    readings_numberKey name isName digits isWidth
  unfold DownloadTemplates.replacement Filename.valueAt
  simp only [keyOf_placeholder]
  rw [if_pos isMatch, isHead, isLast, if_pos (Filename.numberKey_facts name isName digits isWidth).1,
    numberReplacement_numberKey isName isWidth, padded_ofChars _ positive (by omega),
    Option.getD_some, numberOf_name name isName]

theorem string_metadata (fields : Fields) (quality : Option (List Char)) :
    Filename.string (fields.metadata quality) "title" = Filename.trim fields.name ∧
    Filename.string (fields.metadata quality) "artist" = Filename.trim fields.artists ∧
    Filename.string (fields.metadata quality) "album" = Filename.trim (fields.albumName.getD []) ∧
    Filename.string (fields.metadata quality) "date" = fields.date ∧
    Filename.string (fields.metadata quality) "isrc" = Filename.trim (fields.isrc.getD []) ∧
    Filename.string (fields.metadata quality) "provider" = Filename.trim (fields.source.getD []) ∧
    Filename.string (fields.metadata quality) "provider_id" = Filename.trim fields.providerId ∧
    Filename.string (fields.metadata quality) "quality" = Filename.trim (quality.getD []) ∧
    ∀ key ∈ ["release_date", "year", "quality_variant"],
      Filename.string (fields.metadata quality) key = [] := by
  simp [Filename.string, Fields.metadata, Fields.date, List.lookup_cons]

theorem dateOf_metadata : Filename.dateOf (fields.metadata quality) = fields.date := by
  obtain ⟨_, _, _, date, _, _, _, _, absent⟩ := string_metadata fields quality
  unfold Filename.dateOf
  rw [List.map_cons, List.map_cons, List.map_cons, date, absent "release_date" (by simp),
    absent "year" (by simp)]
  cases fields.date with
  | nil => rfl
  | cons char rest => rfl

/-- The year of the engine is the beginning of the date. -/
theorem yearOf_metadata (plain : fields.Plain quality) :
    Filename.yearOf (fields.metadata quality) = fields.date.take 4 := by
  obtain ⟨_, _, _, _, _, _, _, _, absent⟩ := string_metadata fields quality
  unfold Filename.yearOf
  rw [absent "year" (by simp), dateOf_metadata]
  rcases plain.year with empty | ⟨long, ascii⟩
  · rw [empty]
    rfl
  · generalize fields.date = date at long ascii ⊢
    match date with
    | first :: second :: third :: fourth :: rest =>
      simp only [List.take_succ_cons, List.take_zero, List.forall_mem_cons] at ascii
      obtain ⟨isFirst, isSecond, isThird, isFourth, _⟩ := ascii
      have single (char : Char) (low : char.toNat < 0x80) : char.utf8Size = 1 := by
        unfold Char.utf8Size
        rw [if_pos]
        exact Nat.le_of_lt_succ low
      have nothing : Filename.firstBytes 0 rest = [] := by
        cases rest with
        | nil => rfl
        | cons fifth others =>
          rw [Filename.firstBytes, if_neg (Nat.not_le.mpr (Char.utf8Size_pos fifth))]
          rfl
      simp [Filename.firstBytes, single first isFirst, single second isSecond,
        single third isThird, single fourth isFourth, nothing]
    | [] => simp at long
    | [_] => simp at long
    | [_, _] => simp at long
    | [_, _, _] => simp at long

theorem yearOf_ofChars (plain : fields.Plain quality) :
    Utf16.ofChars (Filename.yearOf (fields.metadata quality)) =
      if (Utf16.ofChars fields.date).length ≥ 4 then (Utf16.ofChars fields.date).take 4 else [] := by
  rw [yearOf_metadata plain]
  rcases plain.year with empty | ⟨long, ascii⟩
  · rw [empty]
    rfl
  · have units : Utf16.ofChars fields.date =
        Utf16.ofChars (fields.date.take 4) ++ Utf16.ofChars (fields.date.drop 4) := by
      rw [← Utf16.ofChars_append, List.take_append_drop]
    have four : (Utf16.ofChars (fields.date.take 4)).length = 4 := by
      have plane : ∀ char ∈ fields.date.take 4, char.toNat < 0x10000 := by
        intro char member
        have low := ascii char member
        omega
      rw [Utf16.length_ofChars plane, List.length_take, Nat.min_eq_left long]
    have enough : (Utf16.ofChars fields.date).length ≥ 4 := by
      rw [units, List.length_append, four]
      exact Nat.le_add_right 4 _
    rw [if_pos enough, units, List.take_left' four]

theorem providerIdOf_track : DownloadTemplates.providerIdOf fields.track =
    Utf16.ofChars fields.providerId := by
  unfold DownloadTemplates.providerIdOf Fields.providerId Fields.track
  dsimp only
  generalize fields.id = text
  have agree : Utf16.Agree (· != 58) (· ≠ ':') text := by
    intro char _ unit member
    have same : unit = 58 ↔ char = ':' :=
      Utf16.eq_unit_iff (show Utf16.encodeChar ':' = [58] from rfl) member
    rw [Bool.eq_iff_iff, bne_iff_ne, decide_eq_true_eq]
    exact not_congr same
  rw [Utf16.dropWhile_ofChars agree]
  cases found : text.dropWhile (· ≠ ':') with
  | nil =>
    split
    · rfl
    · rfl
  | cons char rest =>
    have isColon : char = ':' := by
      have head := List.head?_dropWhile_not (· ≠ ':') text
      rw [found] at head
      simpa using head
    have inText : ':' ∈ text := by
      apply (List.dropWhile_suffix (· ≠ ':')).subset
      rw [found, isColon]
      exact List.mem_cons_self
    rw [if_pos, isColon]
    · rfl
    · rw [List.contains_iff_mem]
      exact List.mem_flatMap.mpr ⟨':', inText, List.mem_singleton.mpr rfl⟩

/-- The keys in the order in which the app holds their values. -/
def valueKeys : List String :=
  ["title", "artist", "album", "track", "track_raw", "disc", "disc_raw", "playlist_position",
    "playlist position", "playlistPosition", "position", "playlist_position_raw", "date",
    "year", "isrc", "provider", "platform", "provider_id", "id", "quality", "quality_variant"]

/-- The text of the engine for a key. -/
def engineValue (fields : Fields) (quality : Option (List Char)) (key : String) : List Char :=
  ((Filename.placeholders (fields.metadata quality)).lookup key).getD []

theorem values_track (plain : fields.Plain quality) :
    DownloadTemplates.values fields.track (quality.map Utf16.ofChars) = valueKeys.map fun key =>
        (Utf16.ofString key, Utf16.ofChars (engineValue fields quality key)) := by
  obtain ⟨title, artist, album, _, isrc, provider, providerId, isQuality, absent⟩ :=
    string_metadata fields quality
  have trimmed {value : List Char} (member : value ∈ fields.texts quality) :
      trim (Utf16.ofChars value) = Utf16.ofChars (Filename.trim value) :=
    trim_ofChars (plain.ordinary value member)
  have present (value : Option (List Char)) :
      (value.map Utf16.ofChars).getD [] = Utf16.ofChars (value.getD []) := by
    cases value with
    | none => rfl
    | some chars => rfl
  have one (value : Option Int) : DownloadTemplates.padded value 1 =
      Utf16.ofChars (Filename.padded (value.getD 0) 1) :=
    padded_ofChars value (by decide) (by decide)
  have two (value : Option Int) : DownloadTemplates.padded value 2 =
      Utf16.ofChars (Filename.padded (value.getD 0) 2) :=
    padded_ofChars value (by decide) (by decide)
  have isDate : DownloadTemplates.dateOf fields.track = Utf16.ofChars fields.date := by
    unfold DownloadTemplates.dateOf Fields.track Fields.date
    rw [present, trimmed (by simp [Fields.texts])]
  have isTitle : trim fields.track.name = Utf16.ofChars (Filename.trim fields.name) :=
    trimmed (by simp [Fields.texts])
  have isArtist : trim fields.track.artists = Utf16.ofChars (Filename.trim fields.artists) :=
    trimmed (by simp [Fields.texts])
  have isAlbum : trim (fields.track.albumName.getD []) =
      Utf16.ofChars (Filename.trim (fields.albumName.getD [])) :=
    (congrArg trim (present fields.albumName)).trans (trimmed (by simp [Fields.texts]))
  have isIsrc : trim (fields.track.isrc.getD []) =
      Utf16.ofChars (Filename.trim (fields.isrc.getD [])) :=
    (congrArg trim (present fields.isrc)).trans (trimmed (by simp [Fields.texts]))
  have isSource : trim (fields.track.source.getD []) =
      Utf16.ofChars (Filename.trim (fields.source.getD [])) :=
    (congrArg trim (present fields.source)).trans (trimmed (by simp [Fields.texts]))
  have variant := absent "quality_variant" (by simp)
  rw [plain.providerId] at providerId
  rw [plain.quality] at isQuality
  unfold DownloadTemplates.values valueKeys engineValue
  simp only [List.map_cons, List.map_nil, isDate, providerIdOf_track, isTitle, isArtist, isAlbum,
    isIsrc, isSource, one, two, present, ← yearOf_ofChars plain]
  simp [Filename.placeholders, List.lookup_cons, title, artist, album, isrc, provider, providerId,
    isQuality, variant, dateOf_metadata, integer_track, integer_disc, integer_position,
    Fields.track]
  rfl

theorem plainKeys_subset : ∀ key ∈ plainKeys, key ∈ valueKeys := by
  decide

variable {key : String}

theorem ofString_injective {other : String} (same : Utf16.ofString key = Utf16.ofString other) :
    key = other :=
  String.toList_inj.mp (Utf16.ofChars_injective same)

theorem valueOf_track (plain : fields.Plain quality) (isPlain : key ∈ plainKeys) :
    DownloadTemplates.valueOf fields.track (quality.map Utf16.ofChars) (Utf16.ofString key) =
      Utf16.ofChars (engineValue fields quality key) := by
  have among := plainKeys_subset key isPlain
  unfold DownloadTemplates.valueOf
  rw [values_track plain]
  generalize valueKeys = keys at among
  induction keys with
  | nil => cases among
  | cons first rest ih =>
    rw [List.map_cons, List.lookup_cons]
    by_cases same : key = first
    · rw [same, beq_self_eq_true]
      rfl
    · have differs : (Utf16.ofString key == Utf16.ofString first) = false :=
        beq_eq_false_iff_ne.mpr fun equal => same (ofString_injective equal)
      rw [differs]
      exact ih ((List.mem_cons.mp among).resolve_left same)

theorem plainKey_noMatch :
    ∀ key ∈ plainKeys, DownloadTemplates.number.hasMatch (Utf16.ofString key) = false := by
  decide +kernel

theorem replacement_track (plain : fields.Plain quality) {key : List Char}
    (allowed : IsAllowed key) :
    DownloadTemplates.replacement fields.track (quality.map Utf16.ofChars)
        (123 :: (Utf16.ofChars key ++ [125])) =
      Utf16.ofChars (Filename.valueAt (fields.metadata quality) key) := by
  cases allowed with
  | plain name isPlain =>
    have noMatch : DownloadTemplates.number.hasMatch (Utf16.ofChars name.toList) = false :=
      plainKey_noMatch name isPlain
    unfold DownloadTemplates.replacement Filename.valueAt
    simp only [keyOf_placeholder]
    rw [noMatch, if_neg Bool.false_ne_true, (Filename.plainKey_facts name isPlain).2.2.1,
      if_neg Bool.false_ne_true, String.ofList_toList]
    exact valueOf_track plain isPlain
  | number name digits isName isWidth => exact replacement_numberKey isName isWidth

variable {template : List Char}

theorem replaceAll_token (plain : fields.Plain quality)
    (accepted : IsAccepted (pieces '\x7b' '\x7d' template)) :
    DownloadTemplates.token.replaceAll
        (DownloadTemplates.replacement fields.track (quality.map Utf16.ofChars))
        (Utf16.ofChars template) =
      Utf16.ofChars (filledWith (Filename.valueAt (fields.metadata quality))
        (pieces '\x7b' '\x7d' template)) := by
  rw [token_eq, replaceAll_pattern,
    Utf16.pieces_ofChars (show Utf16.encodeChar '\x7b' = [123] from rfl)
      (show Utf16.encodeChar '\x7d' = [125] from rfl), List.flatMap_assoc]
  unfold filledWith Utf16.ofChars
  rw [List.flatMap_assoc]
  apply List.flatMap_congr
  intro part member
  cases part with
  | item char =>
    dsimp only [Utf16.encodePiece]
    rw [List.flatMap_map, List.flatMap_singleton', List.flatMap_singleton]
  | placeholder key =>
    dsimp only [Utf16.encodePiece]
    rw [List.flatMap_singleton]
    exact replacement_track plain (accepted.keys key member)

theorem optionalKey_facts : ∀ key ∈ DownloadTemplates.optionalKeys, key ∈ plainKeys ∧
      Utf16.ofString ("\x7b" ++ key ++ "\x7d") = 123 :: (Utf16.ofString key ++ [125]) ∧
      Utf16.ofString key ≠ [] ∧ ∀ unit ∈ Utf16.ofString key, unit ≠ 123 ∧ unit ≠ 125 := by
  decide

theorem infix_optionalKey (accepted : IsAccepted (pieces '\x7b' '\x7d' template))
    (isOptional : key ∈ DownloadTemplates.optionalKeys) :
    Utf16.ofString ("\x7b" ++ key ++ "\x7d") <:+: Utf16.ofChars template ↔
      Piece.placeholder key.toList ∈ pieces '\x7b' '\x7d' template := by
  obtain ⟨_, written, isKey⟩ := optionalKey_facts key isOptional
  have whole : source 123 125 (pieces 123 125 (Utf16.ofChars template)) =
      Utf16.ofChars template :=
    source_pieces _
  have inUnits : pieces 123 125 (Utf16.ofChars template) =
      (pieces '\x7b' '\x7d' template).flatMap Utf16.encodePiece :=
    Utf16.pieces_ofChars (show Utf16.encodeChar '\x7b' = [123] from rfl)
      (show Utf16.encodeChar '\x7d' = [125] from rfl) template
  have separated : Separated 123 125 (pieces 123 125 (Utf16.ofChars template)) := by
    refine { distinct := by decide, items := .inl fun unit member => ?_, keys := ?_ }
    · rw [inUnits] at member
      obtain ⟨part, inParts, inPiece⟩ := List.mem_flatMap.mp member
      cases part with
      | item char =>
        obtain ⟨other, isUnit, same⟩ := List.mem_map.mp inPiece
        rw [← Piece.item.inj same, Ne,
          Utf16.eq_unit_iff (show Utf16.encodeChar '\x7b' = [123] from rfl) isUnit]
        exact (accepted.items char inParts).1
      | placeholder other => cases List.mem_singleton.mp inPiece
    · exact fun _ member => isKey_of_mem_scan _ _ member
  rw [written, ← whole, infix_source separated isKey, inUnits]
  exact Utf16.mem_encodePiece _ key.toList

theorem needsCleanup_track (plain : fields.Plain quality)
    (accepted : IsAccepted (pieces '\x7b' '\x7d' template)) :
    DownloadTemplates.needsCleanup (Utf16.ofChars template) fields.track
        (quality.map Utf16.ofChars) =
      (Filename.placeholders (fields.metadata quality)).any
        (Filename.isMissing (pieces '\x7b' '\x7d' template)) := by
  have engine {entry : String × List Char}
      (member : entry ∈ Filename.placeholders (fields.metadata quality)) :
      engineValue fields quality entry.1 = entry.2 := by
    unfold engineValue
    rw [Filename.lookup_of_mem (Filename.distinct_placeholders _) member]
    rfl
  have asked (key : String) (isOptional : key ∈ DownloadTemplates.optionalKeys) :
      (decide (Utf16.ofString ("\x7b" ++ key ++ "\x7d") <:+: Utf16.ofChars template) &&
        (DownloadTemplates.valueOf fields.track (quality.map Utf16.ofChars)
          (Utf16.ofString key)).isEmpty) = true ↔
      engineValue fields quality key = [] ∧
        Piece.placeholder key.toList ∈ pieces '\x7b' '\x7d' template := by
    rw [Bool.and_eq_true, decide_eq_true_eq, infix_optionalKey accepted isOptional,
      valueOf_track plain (optionalKey_facts key isOptional).1, List.isEmpty_iff,
      Utf16.ofChars_eq_nil, and_comm]
  unfold DownloadTemplates.needsCleanup Filename.isMissing
  rw [Bool.eq_iff_iff, List.any_eq_true, List.any_eq_true]
  constructor
  · rintro ⟨key, isOptional, found⟩
    obtain ⟨empty, inParts⟩ := (asked key isOptional).mp found
    obtain ⟨entry, member, rfl⟩ := List.mem_map.mp
      ((Filename.mem_keys (fields.metadata quality) key).mpr (optionalKey_facts key isOptional).1)
    rw [engine member] at empty
    refine ⟨entry, member, ?_⟩
    rw [Bool.and_eq_true, Bool.and_eq_true, List.isEmpty_iff, decide_eq_true_eq]
    exact ⟨⟨empty, List.contains_iff_mem.mpr isOptional⟩, inParts⟩
  · rintro ⟨entry, member, found⟩
    rw [Bool.and_eq_true, Bool.and_eq_true, List.isEmpty_iff, decide_eq_true_eq] at found
    have isOptional : entry.1 ∈ DownloadTemplates.optionalKeys := List.contains_iff_mem.mp found.1.2
    exact ⟨entry.1, isOptional,
      (asked entry.1 isOptional).mpr ⟨(engine member).trans found.1.1, found.2⟩⟩

theorem isDigit_padded (number : Int) {width : Int} (small : width ≤ 1000000) :
    ∀ char ∈ Filename.padded number width, char.isDigit = true := by
  intro char member
  unfold Filename.padded at member
  split at member
  · cases member
  next positive =>
    rw [if_neg (by omega)] at member
    rcases List.mem_append.mp member with isZero | isDigit
    · rw [(List.mem_replicate.mp isZero).2]
      decide
    · exact isDigit_toString (by omega) char isDigit

theorem mem_trim (member : char ∈ Filename.trim text) : char ∈ text :=
  mem_of_mem_trimBy member

/-- The values of the engine are made of the characters of the texts and of digits. -/
theorem forall_mem_placeholders {good : Char → Prop} (plain : fields.Plain quality)
    (texts : ∀ text ∈ fields.texts quality, ∀ char ∈ text, good char)
    (digits : ∀ char, char.isDigit = true → good char) :
    ∀ entry ∈ Filename.placeholders (fields.metadata quality), ∀ char ∈ entry.2, good char := by
  obtain ⟨title, artist, album, _, isrc, provider, providerId, isQuality, absent⟩ :=
    string_metadata fields quality
  have ofText {text : List Char} (isText : text ∈ fields.texts quality) :
      ∀ char ∈ Filename.trim text, good char :=
    fun char member => texts text isText char (mem_trim member)
  have ofNumber (number : Int) (width : Int) (small : width ≤ 1000000) :
      ∀ char ∈ Filename.padded number width, good char :=
    fun char member => digits char (isDigit_padded number small char member)
  have isDate : ∀ char ∈ fields.date, good char := ofText (by simp [Fields.texts])
  unfold Filename.placeholders
  simp only [List.forall_mem_cons, title, artist, album, isrc, provider, providerId, isQuality,
    absent "quality_variant" (by simp), dateOf_metadata, yearOf_metadata plain]
  refine ⟨?_, ?_, ?_, ?_, ?_, ?_, ?_, ?_, ?_, ?_, ?_, ?_, ?_, ?_, ?_, ?_, ?_, ?_, ?_, ?_, ?_, ?_⟩
  case refine_3 => exact isDate
  case refine_21 => exact fun char member => isDate char (List.mem_of_mem_take member)
  case refine_17 => exact fun _ member => nomatch member
  case refine_22 => exact fun _ member => nomatch member
  all_goals
    first
    | exact ofNumber _ _ (by decide)
    | exact ofText (by simp [Fields.texts])

end Values

/-! ## The cleanup -/

section Cleanup

/-- What both sides read alike. -/
def Good (char : Char) : Prop :=
  isOrdinary char = true

theorem alike_single {unit : UInt16} (isChar : Utf16.encodeChar char = [unit]) :
    Utf16.Alike Good (exactly [unit]) (exactly [char]) := by
  refine .sequence (.one ?_ ?_) .nothing
  · intro other _ found member
    exact decide_eq_decide.mpr (Utf16.eq_unit_iff isChar member)
  · intro other isOther
    rw [decide_eq_true_eq] at isOther
    rw [isOther]
    by_contra large
    have two := congrArg List.length isChar
    unfold Utf16.encodeChar at two
    rw [if_neg large] at two
    cases two

theorem alike_oneOf (chars : String) (plane : ∀ other ∈ chars.toList, other.toNat < 0xD800) :
    Utf16.Alike Good (oneOf chars) (Filename.oneOf chars) := by
  refine .one ?_ ?_
  · exact fun char _ unit member => isOneOf_unit plane member
  · intro char member
    have low := plane char (List.contains_iff_mem.mp member)
    omega

theorem alike_space : Utf16.Alike Good space Filename.blank := by
  refine .one ?_ ?_
  · intro char isGood unit member
    have others : ∀ other ∈ "\t\n\u000C\r ".toList, isOrdinary other = true → other = ' ' := by
      decide
    rw [isSpace_ordinary isGood member, Bool.eq_iff_iff, List.contains_iff_mem]
    constructor
    · intro blank
      rw [beq_iff_eq.mp blank]
      decide
    · intro inClass
      exact beq_iff_eq.mpr (others char inClass isGood)
  · intro char member
    have plane : ∀ other ∈ "\t\n\u000C\r ".toList, other.toNat < 0x10000 := by decide
    exact plane char (List.contains_iff_mem.mp member)

theorem alike_emptyGroup : Utf16.Alike Good DownloadTemplates.emptyGroup Filename.emptyGroup :=
  .either (.sequence (alike_single (show Utf16.encodeChar '[' = [91] from rfl))
      (.sequence (.many alike_space)
        (.sequence (alike_single (show Utf16.encodeChar ']' = [93] from rfl)) .nothing)))
    (.sequence (alike_single (show Utf16.encodeChar '(' = [40] from rfl))
      (.sequence (.many alike_space)
        (.sequence (alike_single (show Utf16.encodeChar ')' = [41] from rfl)) .nothing)))

theorem alike_dangling : Utf16.Alike Good DownloadTemplates.dangling Filename.dangling :=
  .sequence (.many alike_space) (.sequence (alike_oneOf "-_|" (by decide))
      (.sequence (.many alike_space) (.sequence (alike_oneOf "])" (by decide)) .nothing)))

theorem alike_repeatedDashes :
    Utf16.Alike Good DownloadTemplates.repeatedDashes Filename.repeatedDashes :=
  have dash := alike_oneOf "-–—_|" (by decide)
  .sequence (.many alike_space) (.sequence dash (.sequence (.many alike_space)
        (.sequence (Utf16.Alike.oneOrMore (.sequence dash (.many alike_space))) .nothing)))

theorem dangling_found {length : Nat} {found rest : List Char}
    (isMatch : rest ∈ Filename.dangling.remainders length (found ++ rest)) :
    ∃ front bracket, found = front ++ [bracket] ∧ bracket.toNat < 0x10000 := by
  unfold Filename.dangling inOrder at isMatch
  simp only [List.foldr_cons, List.foldr_nil, mem_sequence, mem_nothing] at isMatch
  obtain ⟨first, before, second, dash, third, blanks, fourth, closes, rfl⟩ := isMatch
  unfold Filename.oneOf at closes
  obtain ⟨bracket, inClass, rfl⟩ := mem_one.mp closes
  have suffix : bracket :: rest <:+ found ++ rest :=
    (suffix_of_mem_remainders length _ blanks).trans
      ((suffix_of_mem_remainders length _ dash).trans (suffix_of_mem_remainders length _ before))
  obtain ⟨front, whole⟩ := suffix
  have plane : ∀ other ∈ "])".toList, other.toNat < 0x10000 := by decide
  refine ⟨front, bracket, ?_, plane bracket (List.contains_iff_mem.mp inClass)⟩
  have same : found ++ rest = (front ++ [bracket]) ++ rest := by
    rw [← whole, List.append_assoc, List.singleton_append]
  exact List.append_cancel_right same

theorem ordinary_dash : ∀ char ∈ " - ".toList, Good char := by
  unfold Good
  decide

theorem dangling_ofChars (ordinary : ∀ char ∈ text, Good char) :
    DownloadTemplates.dangling.replaceAll (fun found => found.drop (found.length - 1))
        (Utf16.ofChars text) =
      Utf16.ofChars
        (Filename.dangling.replaceAll (fun found => found.drop (found.length - 1)) text) := by
  refine Utf16.replaceAll_ofChars alike_dangling ?_ ordinary
  intro length found rest isMatch
  obtain ⟨front, bracket, rfl, plane⟩ := dangling_found isMatch
  have last : Utf16.ofChars [bracket] = [UInt16.ofNat bracket.toNat] := by
    rw [Utf16.ofChars_cons, Utf16.encodeChar_of_lt plane]
    rfl
  rw [Utf16.ofChars_append, last]
  simp [last]

/-- The engine joins the words where the app collapses the blanks. -/
theorem trimMatches_words (ordinary : ∀ char ∈ text, Good char) :
    Filename.trimMatches " -–—_|" (Filename.joinWords (Filename.splitWhitespace text)) =
      trimBy " -–—_|".toList.contains (collapse isBlank ' ' text) := by
  have split : Filename.splitWhitespace text = words isBlank text :=
    words_congr (isWhiteSpace_ordinary ordinary)
  have part : ∀ char, isBlank char = true → " -–—_|".toList.contains char = true := by
    intro char isBlankChar
    rw [beq_iff_eq.mp isBlankChar]
    decide
  rw [split]
  exact trimBy_words part (by decide) text

theorem outerDashes_ofChars (ordinary : ∀ char ∈ text, Good char) :
    DownloadTemplates.outerDashes.replaceAll (fun _ => [])
        ((oneOrMore space).replaceAll (fun _ => Utf16.ofString " ") (Utf16.ofChars text)) =
      Utf16.ofChars (Filename.trimMatches " -–—_|"
        (Filename.joinWords (Filename.splitWhitespace text))) := by
  have blank : Utf16.ofString " " = [32] := rfl
  have collapsed : collapse isSpace 32 (Utf16.ofChars text) =
      Utf16.ofChars (collapse isBlank ' ' text) :=
    Utf16.collapseFrom_ofChars
      (agree_of_ordinary (fun _ isOrdinary _ => isSpace_ordinary isOrdinary) ordinary) rfl false
  have collapsedGood : ∀ char ∈ collapse isBlank ' ' text, isOrdinary char = true :=
    forall_mem_collapse (fun char => isOrdinary char = true) (by decide) ordinary
  unfold DownloadTemplates.outerDashes space oneOf
  rw [blank, replaceAll_oneOrMore, collapsed, replaceAll_outer,
    trimBy_ofChars (fun _ _ _ member => isOneOf_unit (by decide) member) collapsedGood,
    trimMatches_words ordinary]

theorem cleanup_ofChars {result : List Char} (ordinary : ∀ char ∈ result, Good char) :
    DownloadTemplates.cleanup (Utf16.ofChars result) = Utf16.ofChars (Filename.cleanup result) := by
  unfold DownloadTemplates.cleanup Filename.cleanup
  dsimp only
  have groups : DownloadTemplates.emptyGroup.replaceAll (fun _ => []) (Utf16.ofChars result) =
      Utf16.ofChars (Filename.emptyGroup.replaceAll (fun _ => []) result) :=
    Utf16.replaceAll_ofChars alike_emptyGroup (fun _ _ _ _ => rfl) ordinary
  have groupsGood : ∀ char ∈ Filename.emptyGroup.replaceAll (fun _ => []) result, Good char :=
    forall_mem_replaceAll (fun _ _ member => nomatch member) ordinary
  have dangled := dangling_ofChars groupsGood
  have dangledGood : ∀ char ∈ Filename.dangling.replaceAll
      (fun found => found.drop (found.length - 1))
        (Filename.emptyGroup.replaceAll (fun _ => []) result), Good char :=
    forall_mem_replaceAll_of_kept
      (fun _ kept char member => kept char (List.mem_of_mem_drop member)) groupsGood
  rw [groups, dangled]
  generalize Filename.dangling.replaceAll (fun found => found.drop (found.length - 1))
    (Filename.emptyGroup.replaceAll (fun _ => []) result) = text at dangledGood ⊢
  have dashed : DownloadTemplates.repeatedDashes.replaceAll (fun _ => Utf16.ofString " - ")
      (Utf16.ofChars text) =
        Utf16.ofChars (Filename.repeatedDashes.replaceAll (fun _ => " - ".toList) text) :=
    Utf16.replaceAll_ofChars alike_repeatedDashes (fun _ _ _ _ => rfl) dangledGood
  rw [dashed]
  exact outerDashes_ofChars (forall_mem_replaceAll (fun _ => ordinary_dash) dangledGood)

theorem good_cleanup {result : List Char} (ordinary : ∀ char ∈ result, Good char) :
    ∀ char ∈ Filename.cleanup result, Good char := by
  unfold Filename.cleanup
  dsimp only
  intro char member
  have groupsGood : ∀ char ∈ Filename.emptyGroup.replaceAll (fun _ => []) result, Good char :=
    forall_mem_replaceAll (fun _ _ member => nomatch member) ordinary
  have dangledGood : ∀ char ∈ Filename.dangling.replaceAll
      (fun found => found.drop (found.length - 1))
        (Filename.emptyGroup.replaceAll (fun _ => []) result), Good char :=
    forall_mem_replaceAll_of_kept
      (fun _ kept char member => kept char (List.mem_of_mem_drop member)) groupsGood
  have dashedGood : ∀ char ∈ Filename.repeatedDashes.replaceAll (fun _ => " - ".toList)
      (Filename.dangling.replaceAll (fun found => found.drop (found.length - 1))
        (Filename.emptyGroup.replaceAll (fun _ => []) result)), Good char :=
    forall_mem_replaceAll (fun _ => ordinary_dash) dangledGood
  rw [trimMatches_words dashedGood] at member
  exact forall_mem_collapse Good (show isOrdinary ' ' = true by decide) dashedGood char
    (mem_of_mem_trimBy member)

end Cleanup

/-! ## The preview -/

section Preview

variable {fields : Fields} {quality : Option (List Char)} {template : List Char}

theorem isOrdinary_of_isDigit (char : Char) (decimal : char.isDigit = true) : Good char := by
  unfold Char.isDigit at decimal
  rw [Bool.and_eq_true, decide_eq_true_eq, decide_eq_true_eq] at decimal
  have low : 48 ≤ char.toNat := decimal.1
  have high : char.toNat ≤ 57 := decimal.2
  have noMark : ¬ char = '\uFEFF' := by
    rintro rfl
    exact absurd high (by decide)
  unfold Good isOrdinary Filename.isControl Text.isDartSpace Text.isWhiteSpace
  simp only [Bool.and_eq_true, Bool.not_eq_true', Bool.or_eq_false_iff, Bool.and_eq_false_iff,
    Bool.or_eq_true, decide_eq_false_iff_not]
  refine ⟨by omega, .inr ⟨by omega, noMark⟩⟩

theorem item_of_mem_pieces (member : Piece.item char ∈ pieces '\x7b' '\x7d' template) :
    char ∈ template := by
  have whole : source '\x7b' '\x7d' (pieces '\x7b' '\x7d' template) = template :=
    source_pieces template
  rw [← whole]
  exact List.mem_flatMap.mpr ⟨_, member, List.mem_singleton.mpr rfl⟩

theorem good_filledWith (plain : fields.Plain quality)
    (accepted : IsAccepted (pieces '\x7b' '\x7d' template))
    (ordinary : ∀ char ∈ template, isOrdinary char = true) :
    ∀ char ∈ filledWith (Filename.valueAt (fields.metadata quality))
      (pieces '\x7b' '\x7d' template), Good char := by
  intro char member
  obtain ⟨part, inParts, inText⟩ := List.mem_flatMap.mp member
  cases part with
  | item other =>
    rw [List.mem_singleton.mp inText]
    exact ordinary other (item_of_mem_pieces inParts)
  | placeholder key =>
    dsimp only at inText
    unfold Filename.valueAt at inText
    cases accepted.keys key inParts with
    | plain name isPlain =>
      rw [(Filename.plainKey_facts name isPlain).2.2.1, if_neg Bool.false_ne_true,
        String.ofList_toList] at inText
      obtain ⟨entry, inEntries, isName⟩ :=
        List.mem_map.mp ((Filename.mem_keys (fields.metadata quality) name).mpr isPlain)
      rw [← isName, Filename.lookup_of_mem (Filename.distinct_placeholders _) inEntries] at inText
      exact forall_mem_placeholders plain plain.ordinary isOrdinary_of_isDigit entry inEntries
        char inText
    | number name digits isName isWidth =>
      rw [if_pos (Filename.numberKey_facts name isName digits isWidth).1,
        numberReplacement_numberKey isName isWidth] at inText
      obtain ⟨_, _, _, _, _, _, small⟩ := readings_numberKey name isName digits isWidth
      exact isOrdinary_of_isDigit char (isDigit_padded _ (by omega) char inText)

theorem expand_ofChars (formatDate : List Char → List Char → List Char)
    (plain : fields.Plain quality) (accepted : IsAccepted (pieces '\x7b' '\x7d' template))
    (nonempty : template ≠ []) (ordinary : ∀ char ∈ template, isOrdinary char = true) :
    DownloadTemplates.expand (Utf16.ofChars template) fields.track (quality.map Utf16.ofChars) =
        Utf16.ofChars (Filename.buildFilename formatDate template (fields.metadata quality)) ∧
      ∀ char ∈ Filename.buildFilename formatDate template (fields.metadata quality),
        Good char := by
  obtain ⟨brace, isBrace, noBrace⟩ := plain.braces
  have values : ∀ entry ∈ Filename.placeholders (fields.metadata quality), brace ∉ entry.2 := by
    intro entry inEntries inValue
    have noBraces : ∀ entry ∈ Filename.placeholders (fields.metadata quality),
        ∀ char ∈ entry.2, char ≠ brace := by
      refine forall_mem_placeholders plain ?_ ?_
      · rintro text isText char inText rfl
        exact noBrace text isText inText
      · rintro char decimal rfl
        rcases isBrace with rfl | rfl
        · exact absurd decimal (by decide)
        · exact absurd decimal (by decide)
    exact noBraces entry inEntries brace inValue rfl
  have numberValues : ∀ name ∈ numberNames, ∀ digits ∈ widthDigits, ∀ mark,
      mark = '\x7b' ∨ mark = '\x7d' → mark ∉ Filename.numberReplacement
        (fields.metadata quality) ('\x7b' :: (numberKey name digits ++ ['\x7d'])) := by
    intro name isName digits isWidth mark isMark inValue
    obtain ⟨_, _, _, _, _, _, small⟩ := readings_numberKey name isName digits isWidth
    rw [numberReplacement_numberKey isName isWidth] at inValue
    have decimal := isDigit_padded _ (by omega) mark inValue
    rcases isMark with rfl | rfl
    · exact absurd decimal (by decide)
    · exact absurd decimal (by decide)
  have filledGood := good_filledWith plain accepted ordinary
  rw [Filename.buildFilename_eq formatDate nonempty _ accepted isBrace values numberValues]
  unfold DownloadTemplates.expand
  dsimp only
  rw [needsCleanup_track plain accepted, replaceAll_token plain accepted]
  cases (Filename.placeholders (fields.metadata quality)).any
      (Filename.isMissing (pieces '\x7b' '\x7d' template)) with
  | true =>
    rw [if_pos rfl, if_pos rfl]
    exact ⟨cleanup_ofChars filledGood, good_cleanup filledGood⟩
  | false => exact ⟨rfl, filledGood⟩

/-- A track with an album, two numbers and a release date. -/
def previewed : Fields where
  id := "qobuz:123".toList
  name := "Sample Song".toList
  artists := "Sample Artist".toList
  albumName := some "Sample Album".toList
  source := some "qobuz".toList
  trackNumber := some 3
  releaseDate := some "2026-11-07".toList

/-- Field values of each kind that the two sides do not take alike, with a template. -/
def previewDifferences : List (String × Fields × Option (List Char)) :=
  let named (name : String) : Fields := { previewed with name := name.toList }
  [("{artist} - {title}", { previewed with artists := "{title}".toList }, none),
    ("{title}", named "A\tB", none),
    ("{title}", named "A\u0085B", none),
    ("{title}", named "A\uFEFFB", none),
    ("{title}", named "A.\u00A0.", none),
    ("{title} {year}", { previewed with releaseDate := some "99".toList }, none),
    ("{title} {year}", { previewed with releaseDate := some "é999".toList }, none),
    ("{title}({quality})", previewed, some " HI".toList),
    ("{title}({id})", { previewed with id := "qobuz: 1".toList }, none),
    ("{title}", named "A__B", none),
    ("{title}", named "_A", none),
    ("{title}", named "A_", none),
    ("{title}", { previewed with name := List.replicate 67 '漢' }, none)]

/-- The preview is not the file name of the engine, though the template is accepted. -/
def previewDiffers (input : String × Fields × Option (List Char)) : Bool :=
  DownloadTemplates.validate (Utf16.ofString input.1) false = none &&
    DownloadTemplates.preview (Utf16.ofString input.1) input.2.1.track
        (input.2.2.map Utf16.ofChars) ≠
      Utf16.ofChars (Filename.sanitizeFilename (Filename.buildFilename (fun date _ => date)
        input.1.toList (input.2.1.metadata input.2.2)))

end Preview

end LosslessMusic.Naming
