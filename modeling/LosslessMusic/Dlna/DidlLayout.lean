import LosslessMusic.Dlna.Didl
import Mathlib.Data.String.Basic

/-!
# The answers to Browse as documents

What `Didl.lite` and `buildBrowseResponse` write are indented documents of the XML
library, and they are read as the trees of these.
-/

namespace LosslessMusic.Dlna.Didl

open Codec Xml

/-! ## Characters -/

/-- The reader takes an escaped character for the character. -/
theorem reads_escapeChar (char : Char) (valid : isXmlChar char = true) :
    Reads (escapeChar char) char := by
  unfold escapeChar
  split
  next here => rw [here]; exact ⟨by decide, fun _ => rfl⟩
  next ampersand =>
  split
  next here => rw [here]; exact ⟨by decide, fun _ => rfl⟩
  next less =>
  split
  next here => rw [here]; exact ⟨by decide, fun _ => rfl⟩
  next greater =>
  split
  next here => rw [here]; exact ⟨by decide, fun _ => rfl⟩
  next quote =>
  split
  next here => rw [here]; exact ⟨by decide, fun _ => rfl⟩
  next apostrophe =>
  split
  next here => rw [here]; exact ⟨by decide, fun _ => rfl⟩
  next tab =>
  split
  next here => rw [here]; exact ⟨by decide, fun _ => rfl⟩
  next line =>
  split
  next here => rw [here]; exact ⟨by decide, fun _ => rfl⟩
  next carriage =>
  refine ⟨by simp, ?_⟩
  intro rest
  have plain : isPlain char = true := by
    unfold isPlain
    rw [valid]
    simp [ampersand, less, greater, quote, apostrophe, tab, line, carriage]
  rw [List.singleton_append, readChar, if_neg ampersand, if_pos plain]

/-- A number in characters. -/
def digits (value : Int) : List Char :=
  (toString value).toList

theorem digits_chars (value : Int) :
    ∀ char ∈ digits value, escapeChar char = [char] ∧ isXmlChar char = true := by
  have decimal : ∀ (natural : Nat), ∀ char ∈ natural.repr.toList,
        escapeChar char = [char] ∧ isXmlChar char = true := by
    intro natural char member
    rw [Nat.toList_repr] at member
    have isDigit := Nat.isDigit_of_mem_toDigits (by decide) (by decide) member
    unfold Char.isDigit at isDigit
    rw [Bool.and_eq_true, decide_eq_true_eq, decide_eq_true_eq] at isDigit
    constructor
    · refine escapeChar_of_ne char fun special isSpecial same => ?_
      subst same
      simp only [List.mem_cons, List.not_mem_nil, or_false] at isSpecial
      rcases isSpecial with rfl | rfl | rfl | rfl | rfl | rfl | rfl | rfl <;>
        exact absurd isDigit (by decide)
    · have low : 48 ≤ char.toNat := isDigit.1
      have high : char.toNat ≤ 57 := isDigit.2
      unfold isXmlChar isXmlPoint
      simp only [Bool.or_eq_true, Bool.and_eq_true, decide_eq_true_eq]
      omega
  intro char member
  unfold digits at member
  rw [show toString value = value.repr from rfl, Int.repr_eq_if] at member
  split at member
  next => exact decimal _ char member
  next =>
    rw [String.toList_append] at member
    rcases List.mem_append.mp member with sign | magnitude
    · obtain rfl : char = '-' := by simpa using sign
      decide
    · exact decimal _ char magnitude

theorem writeText_plain (text : List Char) (plain : ∀ char ∈ text, escapeChar char = [char]) :
    Layout.writeText escapeChar text = text := by
  induction text with
  | nil => rfl
  | cons char others ih =>
    have tail := ih fun other member => plain other (List.mem_cons_of_mem char member)
    unfold Layout.writeText at tail ⊢
    rw [List.flatMap_cons, plain char List.mem_cons_self, tail]
    rfl

/-! ## Layouts -/

/-- An element that is written only when there is something in it. -/
def optionalLeaf (tag : String) (text : List Char) : List Layout :=
  if text = [] then [] else [.leaf tag.toList [] text]

/-- An attribute with a number that is written only when the number is positive. -/
def optionalNumber (name : String) (value : Int) : List Attribute :=
  if 0 < value then [(name.toList, digits value)] else []

/-- A container as an element. -/
def containerLayout (container : CdObject) : Layout :=
  .block "container".toList
    [("id".toList, scrub container.id), ("parentID".toList, scrub container.parentId),
      ("restricted".toList, ['1']), ("childCount".toList, digits container.childCount)]
    [.leaf "dc:title".toList [] (scrub container.title),
      .leaf "upnp:class".toList [] "object.container.storageFolder".toList]

/-- The track number of an item as a line. -/
def trackNumberLine (trackNumber : Int) : List Layout :=
  if 0 < trackNumber then [.leaf "upnp:originalTrackNumber".toList [] (digits trackNumber)]
  else []

/-- The address of the cover as a line. -/
def albumArtLine (albumArtUri : List Char) : List Layout :=
  if albumArtUri = [] then []
  else
    [.leaf "upnp:albumArtURI".toList [("dlna:profileID".toList, "JPEG_TN".toList)] albumArtUri]

/-- The duration of an item as an attribute. -/
def optionalDuration (duration : List Char) : List Attribute :=
  if duration = [] then [] else [("duration".toList, duration)]

/-- The attributes of `res`. -/
def resourceAttributes (item : CdItem) : List Attribute :=
  ("protocolInfo".toList, scrub (protocolInfoFor item.mime)) :: (optionalNumber "size" item.size ++
      (optionalDuration (scrub (formatDuration item.durationSec)) ++
        (optionalNumber "bitrate" (bitrateBytesPerSec item.bitrateKbps) ++
          (optionalNumber "sampleFrequency" item.sampleRate ++
            optionalNumber "bitsPerSample" item.bitDepth))))

/-- The elements of an item. -/
def itemLines (item : CdItem) : List Layout :=
  optionalLeaf "dc:title" (scrub item.title) ++
    ([.leaf "upnp:class".toList [] "object.item.audioItem.musicTrack".toList] ++
      (optionalLeaf "dc:creator" (scrub item.artist) ++
        (optionalLeaf "upnp:artist" (scrub item.artist) ++
          (optionalLeaf "upnp:album" (scrub item.album) ++
            (optionalLeaf "upnp:genre" (scrub item.genre) ++ (trackNumberLine item.trackNumber ++
                (albumArtLine (scrub item.albumArtUri) ++
                  [.leaf "res".toList (resourceAttributes item) (scrub item.url)])))))))

/-- An item as an element. -/
def itemLayout (item : CdItem) : Layout :=
  .block "item".toList [("id".toList, scrub item.id), ("parentID".toList, scrub item.parentId),
      ("restricted".toList, ['1'])]
    (itemLines item)

/-- The name spaces of the document. -/
def namespaces : List Attribute :=
  [("xmlns".toList, "urn:schemas-upnp-org:metadata-1-0/DIDL-Lite/".toList),
    ("xmlns:dc".toList, "http://purl.org/dc/elements/1.1/".toList),
    ("xmlns:upnp".toList, "urn:schemas-upnp-org:metadata-1-0/upnp/".toList),
    ("xmlns:dlna".toList, "urn:schemas-dlna-org:metadata-1-0/".toList)]

/-- The document of `Didl.lite`. -/
def didlLayout (containers : List CdObject) (items : List CdItem) : Layout :=
  .block "DIDL-Lite".toList namespaces (containers.map containerLayout ++ items.map itemLayout)

/-! ## What is written -/

theorem attr_eq (text : Utf16) : attr text =
      Utf16.ofChars ("\"".toList ++ (Layout.writeText escapeChar (scrub text) ++ "\"".toList)) := by
  unfold attr
  rw [escape_eq, Utf16.ofChars_append, Utf16.ofChars_append]
  rfl

theorem number_eq (value : Int) :
    number value = Utf16.ofChars (Layout.writeText escapeChar (digits value)) := by
  rw [writeText_plain _ fun char member => (digits_chars value char member).1]
  rfl

theorem scrub_eq_nil (text : Utf16) : scrub text = [] ↔ text = [] := by
  unfold scrub
  rw [List.map_eq_nil_iff]
  cases text with
  | nil => exact ⟨fun _ => rfl, fun _ => rfl⟩
  | cons unit rest =>
    refine ⟨fun none => ?_, fun none => absurd none (List.cons_ne_nil unit rest)⟩
    unfold Utf16.codePoints at none
    repeat' split at none
    all_goals cases none

theorem containerText_eq (container : CdObject) : containerText container = Utf16.ofChars
        (indent 1 ++ (Layout.write escapeChar 1 (containerLayout container) ++ ['\n'])) := by
  unfold containerText
  simp only [attr_eq, number_eq, escape_eq, Utf16.ofString, ← Utf16.ofChars_append]
  refine congrArg Utf16.ofChars ?_
  simp only [containerLayout, Layout.write, Layout.writeLines, Layout.writeOpening,
    Layout.writeClosing, Layout.writeAttribute, List.flatMap_cons, List.flatMap_nil]
  repeat rw [String.toList_ofList]
  simp [indent, Layout.writeText, List.replicate, escapeChar]

theorem element_eq (tag : String) (value : Utf16) : element tag value =
      Utf16.ofChars (Layout.writeLines escapeChar 2 (optionalLeaf tag (scrub value))) := by
  unfold element optionalLeaf
  by_cases empty : value = []
  · rw [if_neg (fun some => some empty), if_pos ((scrub_eq_nil value).mpr empty)]
    rfl
  · rw [if_pos empty, if_neg fun none => empty ((scrub_eq_nil value).mp none)]
    simp only [escape_eq, Utf16.ofString, ← Utf16.ofChars_append]
    refine congrArg Utf16.ofChars ?_
    simp [Layout.write, Layout.writeLines, Layout.writeOpening, Layout.writeClosing, indent,
      Layout.writeText, List.replicate]

theorem positiveAttribute_eq (name : String) (value : Int) : positiveAttribute name value =
      Utf16.ofChars ((optionalNumber name value).flatMap (Layout.writeAttribute escapeChar)) := by
  unfold positiveAttribute optionalNumber
  split
  next =>
    simp only [number_eq, Utf16.ofString, ← Utf16.ofChars_append]
    refine congrArg Utf16.ofChars ?_
    simp [Layout.writeAttribute]
  next => rfl

theorem trackNumberText_eq (trackNumber : Int) : trackNumberText trackNumber =
      Utf16.ofChars (Layout.writeLines escapeChar 2 (trackNumberLine trackNumber)) := by
  unfold trackNumberText trackNumberLine
  split
  next =>
    simp only [number_eq, Utf16.ofString, ← Utf16.ofChars_append]
    refine congrArg Utf16.ofChars ?_
    repeat rw [String.toList_ofList]
    simp [Layout.write, Layout.writeLines, Layout.writeOpening, Layout.writeClosing, indent,
      Layout.writeText, List.replicate]
  next => rfl

theorem albumArtText_eq (albumArtUri : Utf16) : albumArtText albumArtUri =
      Utf16.ofChars (Layout.writeLines escapeChar 2 (albumArtLine (scrub albumArtUri))) := by
  unfold albumArtText albumArtLine
  by_cases empty : albumArtUri = []
  · rw [if_neg (fun some => some empty), if_pos ((scrub_eq_nil albumArtUri).mpr empty)]
    rfl
  · rw [if_pos empty, if_neg fun none => empty ((scrub_eq_nil albumArtUri).mp none)]
    simp only [escape_eq, Utf16.ofString, ← Utf16.ofChars_append]
    refine congrArg Utf16.ofChars ?_
    repeat rw [String.toList_ofList]
    simp [Layout.write, Layout.writeLines, Layout.writeOpening, Layout.writeClosing, indent,
      Layout.writeAttribute, Layout.writeText, List.replicate, escapeChar]

theorem durationAttribute_eq (durationSec : Int) : durationAttribute durationSec = Utf16.ofChars
        ((optionalDuration (scrub (formatDuration durationSec))).flatMap
          (Layout.writeAttribute escapeChar)) := by
  unfold durationAttribute optionalDuration
  by_cases empty : formatDuration durationSec = []
  · rw [if_neg (fun some => some empty), if_pos ((scrub_eq_nil _).mpr empty)]
    rfl
  · rw [if_pos empty, if_neg fun none => empty ((scrub_eq_nil _).mp none)]
    simp only [attr_eq, Utf16.ofString, ← Utf16.ofChars_append]
    refine congrArg Utf16.ofChars ?_
    simp [Layout.writeAttribute]

theorem resourceText_eq (item : CdItem) : resourceText item = Utf16.ofChars
        (Layout.writeLines escapeChar 2
          [.leaf "res".toList (resourceAttributes item) (scrub item.url)]) := by
  unfold resourceText
  simp only [attr_eq, escape_eq, positiveAttribute_eq, durationAttribute_eq, Utf16.ofString,
    ← Utf16.ofChars_append]
  refine congrArg Utf16.ofChars ?_
  simp only [resourceAttributes, Layout.write, Layout.writeLines, Layout.writeOpening,
    Layout.writeClosing, List.flatMap_cons, List.flatMap_append]
  simp [indent, Layout.writeText, Layout.writeAttribute, List.replicate]

theorem itemText_eq (item : CdItem) : itemText item =
      Utf16.ofChars (indent 1 ++ (Layout.write escapeChar 1 (itemLayout item) ++ ['\n'])) := by
  have classLine :
      Utf16.ofString "    <upnp:class>object.item.audioItem.musicTrack</upnp:class>\n" =
        Utf16.ofChars (Layout.writeLines escapeChar 2
            [.leaf "upnp:class".toList [] "object.item.audioItem.musicTrack".toList]) := by
    unfold Utf16.ofString
    repeat rw [String.toList_ofList]
    rfl
  unfold itemText
  rw [classLine]
  simp only [attr_eq, element_eq, trackNumberText_eq, albumArtText_eq, resourceText_eq,
    Utf16.ofString, ← Utf16.ofChars_append]
  refine congrArg Utf16.ofChars ?_
  simp only [itemLayout, itemLines, Layout.write, Layout.writeLines_append,
    Layout.writeOpening, Layout.writeClosing, List.flatMap_cons, List.flatMap_nil,
    Layout.writeAttribute]
  generalize Layout.writeLines escapeChar (1 + 1) = inner
  repeat rw [String.toList_ofList]
  simp [indent, Layout.writeText, List.replicate, escapeChar]

/-- Lines of objects are written as the source writes them. -/
theorem flatMap_lines_eq {Object : Type} (objects : List Object) (written : Object → Utf16)
    (layout : Object → Layout) (each : ∀ object, written object =
        Utf16.ofChars (indent 1 ++ (Layout.write escapeChar 1 (layout object) ++ ['\n']))) :
    objects.flatMap written =
      Utf16.ofChars (Layout.writeLines escapeChar 1 (objects.map layout)) := by
  induction objects with
  | nil => rfl
  | cons object others ih =>
    rw [List.flatMap_cons, ih, each, ← Utf16.ofChars_append, List.map_cons, Layout.writeLines]
    simp only [List.append_assoc, List.singleton_append]

theorem lite_eq (containers : List CdObject) (items : List CdItem) : lite containers items =
      Utf16.ofChars ("<?xml version=\"1.0\" encoding=\"UTF-8\"?>\n".toList ++
          Layout.write escapeChar 0 (didlLayout containers items)) := by
  have opening : "<DIDL-Lite xmlns=\"urn:schemas-upnp-org:metadata-1-0/DIDL-Lite/\"".toList ++
          " xmlns:dc=\"http://purl.org/dc/elements/1.1/\"".toList ++
          " xmlns:upnp=\"urn:schemas-upnp-org:metadata-1-0/upnp/\"".toList ++
          " xmlns:dlna=\"urn:schemas-dlna-org:metadata-1-0/\">\n".toList =
        Layout.writeOpening escapeChar "DIDL-Lite".toList namespaces ++ ['\n'] := by
    unfold namespaces
    repeat rw [String.toList_ofList]
    decide +kernel
  have closing : "</DIDL-Lite>".toList = indent 0 ++ Layout.writeClosing "DIDL-Lite".toList := by
    decide
  unfold lite
  rw [flatMap_lines_eq containers containerText containerLayout containerText_eq,
    flatMap_lines_eq items itemText itemLayout itemText_eq]
  simp only [Utf16.ofString, ← Utf16.ofChars_append]
  refine congrArg Utf16.ofChars ?_
  rw [didlLayout, Layout.write, Layout.writeLines_append, ← closing, ← List.singleton_append,
    ← List.append_assoc (Layout.writeOpening _ _ _), ← opening]
  simp only [List.append_assoc]

/-! ## The layouts are well formed -/

/-- The values are made of characters of XML. -/
def ValidValues (attributes : List Attribute) : Prop :=
  ∀ entry ∈ attributes, ∀ char ∈ entry.2, isXmlChar char = true

theorem ValidValues.append {attributes others : List Attribute} (first : ValidValues attributes)
    (second : ValidValues others) : ValidValues (attributes ++ others) := by
  intro entry member
  rcases List.mem_append.mp member with here | later
  · exact first entry here
  · exact second entry later

theorem ValidValues.cons {name value : List Char} {others : List Attribute}
    (first : ∀ char ∈ value, isXmlChar char = true) (second : ValidValues others) :
    ValidValues ((name, value) :: others) := by
  intro entry member
  rcases List.mem_cons.mp member with here | later
  · rw [here]
    exact first
  · exact second entry later

theorem validValues_nil : ValidValues [] := by
  intro entry member
  cases member

theorem validDigits (value : Int) : ∀ char ∈ digits value, isXmlChar char = true :=
  fun char member => (digits_chars value char member).2

theorem validValues_optionalNumber (name : String) (value : Int) :
    ValidValues (optionalNumber name value) := by
  unfold optionalNumber
  split
  next => exact validValues_nil.cons (validDigits value)
  next => exact validValues_nil

theorem validValues_optionalDuration (duration : Utf16) :
    ValidValues (optionalDuration (scrub duration)) := by
  unfold optionalDuration
  split
  next => exact validValues_nil
  next => exact validValues_nil.cons (isXmlChar_of_mem_scrub duration)

theorem names_optionalNumber (name : String) (value : Int) :
    ((optionalNumber name value).map Prod.fst).Sublist [name.toList] := by
  unfold optionalNumber
  split
  next => exact List.Sublist.refl _
  next => exact List.nil_sublist _

theorem names_optionalDuration (duration : List Char) :
    ((optionalDuration duration).map Prod.fst).Sublist ["duration".toList] := by
  unfold optionalDuration
  split
  next => exact List.nil_sublist _
  next => exact List.Sublist.refl _

/-- The names of the attributes of `res`. -/
def resourceNames : List (List Char) :=
  ["protocolInfo".toList, "size".toList, "duration".toList, "bitrate".toList,
    "sampleFrequency".toList, "bitsPerSample".toList]

theorem proper_resourceAttributes (item : CdItem) :
    Layout.ProperAttributes (resourceAttributes item) := by
  have among : ((resourceAttributes item).map Prod.fst).Sublist resourceNames := by
    unfold resourceAttributes resourceNames
    simp only [List.map_cons, List.map_append]
    exact ((names_optionalNumber "size" _).append ((names_optionalDuration _).append
        ((names_optionalNumber "bitrate" _).append
          ((names_optionalNumber "sampleFrequency" _).append
            (names_optionalNumber "bitsPerSample" _))))).cons_cons _
  have named : ∀ name ∈ resourceNames, Xml.isName name = true := by decide
  have distinct : resourceNames.Nodup := by decide
  exact
    { named := fun entry member => named entry.1 (among.subset (List.mem_map_of_mem member))
      distinct := distinct.sublist among
      valid := ((validValues_optionalNumber _ _).append ((validValues_optionalDuration _).append
            ((validValues_optionalNumber _ _).append ((validValues_optionalNumber _ _).append
                (validValues_optionalNumber _ _))))).cons
          (isXmlChar_of_mem_scrub _) }

theorem proper_leaf (name : List Char) (text : List Char) (named : Xml.isName name = true)
    (valid : ∀ char ∈ text, isXmlChar char = true) : Layout.Proper (.leaf name [] text) :=
  ⟨named, ⟨by simp, by simp, by simp⟩, valid⟩

theorem proper_optionalLeaf (tag : String) (text : Utf16) (named : Xml.isName tag.toList = true) :
    Layout.ProperLines (optionalLeaf tag (scrub text)) := by
  unfold optionalLeaf
  split
  next => trivial
  next => exact ⟨proper_leaf _ _ named (isXmlChar_of_mem_scrub text), trivial⟩

theorem proper_trackNumberLine (trackNumber : Int) :
    Layout.ProperLines (trackNumberLine trackNumber) := by
  unfold trackNumberLine
  split
  next => exact ⟨proper_leaf _ _ (by decide) (validDigits trackNumber), trivial⟩
  next => trivial

theorem proper_albumArtLine (albumArtUri : Utf16) :
    Layout.ProperLines (albumArtLine (scrub albumArtUri)) := by
  unfold albumArtLine
  split
  next => trivial
  next =>
    refine ⟨⟨by decide, ⟨by decide, by decide, ?_⟩, isXmlChar_of_mem_scrub albumArtUri⟩, trivial⟩
    exact validValues_nil.cons (by decide)

theorem proper_containerLayout (container : CdObject) :
    Layout.Proper (containerLayout container) := by
  refine ⟨by decide, ⟨?_, by simp, ?_⟩, ?_⟩
  · simp only [List.forall_mem_cons]
    exact ⟨by decide, by decide, by decide, by decide, by simp⟩
  · exact (((validValues_nil.cons (validDigits _)).cons (by decide)).cons
      (isXmlChar_of_mem_scrub _)).cons (isXmlChar_of_mem_scrub _)
  · exact ⟨proper_leaf _ _ (by decide) (isXmlChar_of_mem_scrub _),
      proper_leaf _ _ (by decide) (by decide), trivial⟩

theorem proper_itemLayout (item : CdItem) : Layout.Proper (itemLayout item) := by
  refine ⟨by decide, ⟨?_, by simp, ?_⟩, ?_⟩
  · simp only [List.forall_mem_cons]
    exact ⟨by decide, by decide, by decide, by simp⟩
  · exact ((validValues_nil.cons (by decide)).cons (isXmlChar_of_mem_scrub _)).cons
      (isXmlChar_of_mem_scrub _)
  · have classLine : Layout.ProperLines
        [.leaf "upnp:class".toList [] "object.item.audioItem.musicTrack".toList] :=
      ⟨proper_leaf _ _ (by decide) (by decide), trivial⟩
    have resource : Layout.ProperLines
        [.leaf "res".toList (resourceAttributes item) (scrub item.url)] :=
      ⟨⟨by decide, proper_resourceAttributes item, isXmlChar_of_mem_scrub item.url⟩, trivial⟩
    unfold itemLines
    exact (proper_optionalLeaf _ _ (by decide)).append (classLine.append
        ((proper_optionalLeaf _ _ (by decide)).append ((proper_optionalLeaf _ _ (by decide)).append
            ((proper_optionalLeaf _ _ (by decide)).append
              ((proper_optionalLeaf _ _ (by decide)).append ((proper_trackNumberLine _).append
                  ((proper_albumArtLine _).append resource)))))))

theorem proper_didlLayout (containers : List CdObject) (items : List CdItem) :
    Layout.Proper (didlLayout containers items) := by
  have properNamespaces : Layout.ProperAttributes namespaces := by
    unfold namespaces
    repeat rw [String.toList_ofList]
    exact ⟨by decide, by decide, by decide⟩
  refine ⟨by decide, properNamespaces, ?_⟩
  exact (Layout.properLines_map containers containerLayout proper_containerLayout).append
    (Layout.properLines_map items itemLayout proper_itemLayout)

theorem parse_lite (containers : List CdObject) (items : List CdItem) :
    (Utf16.decode (lite containers items)).bind parse =
      some (Layout.tree 0 (didlLayout containers items)) := by
  have declaration : "<?xml version=\"1.0\" encoding=\"UTF-8\"?>\n".toList =
      "<?xml ".toList ++ ("version=\"1.0\" encoding=\"UTF-8\"?".toList ++ ['>', '\n']) := by
    repeat rw [String.toList_ofList]
    rfl
  rw [lite_eq, Utf16.decode_ofChars, Option.bind_some, declaration, List.append_assoc,
    List.append_assoc]
  exact Layout.parse_of_lexes "version=\"1.0\" encoding=\"UTF-8\"?".toList _
    (didlLayout containers items) (by
      rw [String.toList_ofList]
      decide)
    (Layout.lexes_write escapeChar reads_escapeChar 0 (didlLayout containers items)
      (proper_didlLayout containers items))

/-! ## The envelope -/

/-- The attributes of the envelope. -/
def envelopeAttributes : List Attribute :=
  [("xmlns:s".toList, "http://schemas.xmlsoap.org/soap/envelope/".toList),
    ("s:encodingStyle".toList, "http://schemas.xmlsoap.org/soap/encoding/".toList)]

/-- The attributes of the response. -/
def responseAttributes : List Attribute :=
  [("xmlns:u".toList, "urn:schemas-upnp-org:service:ContentDirectory:1".toList)]

/-- The response inside the envelope. -/
def responseLayout (didl : Utf16) (numberReturned totalMatches : Int) : Layout :=
  .block "u:BrowseResponse".toList responseAttributes [.leaf "Result".toList [] (scrub didl),
      .leaf "NumberReturned".toList [] (digits numberReturned),
      .leaf "TotalMatches".toList [] (digits totalMatches),
      .leaf "UpdateID".toList [] ['1']]

/-- What the envelope contains. -/
def envelopeLines (didl : Utf16) (numberReturned totalMatches : Int) : List Layout :=
  [.block "s:Body".toList [] [responseLayout didl numberReturned totalMatches]]

/-- The envelope as an indented document. -/
def envelopeLayout (didl : Utf16) (numberReturned totalMatches : Int) : Layout :=
  .block "s:Envelope".toList envelopeAttributes (envelopeLines didl numberReturned totalMatches)

/-- The start tag of the envelope, which stands on two lines. -/
def envelopeOpening : List Char :=
  ("<s:Envelope xmlns:s=\"http://schemas.xmlsoap.org/soap/envelope/\"\n" ++
    "            s:encodingStyle=\"http://schemas.xmlsoap.org/soap/encoding/\">").toList

theorem envelopeText_eq (didl : Utf16) (numberReturned totalMatches : Int) :
    buildBrowseResponse didl numberReturned totalMatches = Utf16.ofChars
        ("<?xml version=\"1.0\" encoding=\"utf-8\"?>\n".toList ++ (envelopeOpening ++ ('\n' ::
              (Layout.writeLines escapeChar 1 (envelopeLines didl numberReturned totalMatches) ++
                (indent 0 ++ Layout.writeClosing "s:Envelope".toList))))) := by
  have opening : "<?xml version=\"1.0\" encoding=\"utf-8\"?>\n".toList ++
          "<s:Envelope xmlns:s=\"http://schemas.xmlsoap.org/soap/envelope/\"\n".toList ++
          "            s:encodingStyle=\"http://schemas.xmlsoap.org/soap/encoding/\">\n".toList ++
          "  <s:Body>\n".toList ++
          ("    <u:BrowseResponse " ++
            "xmlns:u=\"urn:schemas-upnp-org:service:ContentDirectory:1\">\n").toList =
        "<?xml version=\"1.0\" encoding=\"utf-8\"?>\n".toList ++ (envelopeOpening ++ ('\n' ::
              (indent 1 ++ (Layout.writeOpening escapeChar "s:Body".toList [] ++ ('\n' ::
                    (indent 2 ++
                      (Layout.writeOpening escapeChar "u:BrowseResponse".toList responseAttributes ++
                        ['\n']))))))) := by
    unfold envelopeOpening responseAttributes
    rw [String.toList_append, String.toList_append]
    repeat rw [String.toList_ofList]
    decide +kernel
  unfold buildBrowseResponse
  simp only [escape_eq, number_eq, Utf16.ofString, ← Utf16.ofChars_append]
  refine congrArg Utf16.ofChars ?_
  rw [opening]
  simp only [envelopeLines, responseLayout, Layout.write, Layout.writeLines]
  simp only [List.append_assoc, List.cons_append, List.nil_append]
  -- The first tags are the same on both sides; what follows them is short.
  iterate 9 refine congrArg _ ?_
  repeat rw [String.toList_ofList]
  simp [indent, Layout.writeOpening, Layout.writeClosing, Layout.writeText, List.replicate,
    escapeChar]

theorem lexes_envelopeOpening :
    Layout.Lexes envelopeOpening [.opening "s:Envelope".toList envelopeAttributes] := by
  have isExplicit : envelopeOpening =
      "<s:Envelope xmlns:s=\"http://schemas.xmlsoap.org/soap/envelope/\"\n".toList ++
        "            s:encodingStyle=\"http://schemas.xmlsoap.org/soap/encoding/\">".toList :=
    String.toList_append
  refine Layout.lexes_of_readToken _ _ (by
    rw [isExplicit, String.toList_ofList]
    decide +kernel) ?_
  intro rest
  have written : envelopeOpening = '<' :: ("s:Envelope".toList ++
          ([' '] ++ ("xmlns:s".toList ++ '=' :: '"' ::
            (Layout.writeText escapeChar "http://schemas.xmlsoap.org/soap/envelope/".toList ++ '"' ::
              ("\n            ".toList ++ ("s:encodingStyle".toList ++ '=' :: '"' ::
                (Layout.writeText escapeChar "http://schemas.xmlsoap.org/soap/encoding/".toList ++
                  '"' :: ['>']))))))) := by
    rw [isExplicit]
    repeat rw [String.toList_ofList]
    decide +kernel
  rw [written]
  simp only [List.cons_append, List.append_assoc, List.nil_append]
  generalize isInner : "s:Envelope".toList ++ _ = inner
  have long : ∃ more, inner.length + 1 = more + 1 + 1 + 1 := by
    refine ⟨inner.length - 2, ?_⟩
    rw [← isInner, List.length_append]
    have name : "s:Envelope".toList.length = 10 := by decide
    omega
  obtain ⟨more, isLong⟩ := long
  have last : readAttributes (more + 1) ('>' :: rest) = some ([], rest) := rfl
  have second := Layout.readAttributes_cons escapeChar reads_escapeChar "\n            ".toList
    ("s:encodingStyle".toList, "http://schemas.xmlsoap.org/soap/encoding/".toList) _ rest []
    (by decide) (by decide) (by decide) (by decide) (more + 1) last
  have first := Layout.readAttributes_cons escapeChar reads_escapeChar [' ']
    ("xmlns:s".toList, "http://schemas.xmlsoap.org/soap/envelope/".toList) _ rest _
    (by decide) (by decide) (by decide) (by decide) (more + 1 + 1) second
  rw [← isLong] at first
  obtain ⟨taken, dropped⟩ := takeWhile_name "s:Envelope".toList ("xmlns:s".toList ++ '=' :: '"' ::
      (Layout.writeText escapeChar "http://schemas.xmlsoap.org/soap/envelope/".toList ++ '"' ::
        ("\n            ".toList ++ ("s:encodingStyle".toList ++ '=' :: '"' ::
          (Layout.writeText escapeChar "http://schemas.xmlsoap.org/soap/encoding/".toList ++
            '"' :: '>' :: rest))))) ' ' (by decide) (by decide)
  rw [isInner] at taken dropped
  have read := Layout.readToken_opening inner rest envelopeAttributes (by
      rw [← isInner]
      simp)
    (by
      rw [taken]
      decide)
    (by decide)
    (by
      rw [dropped]
      exact first)
  rw [taken] at read
  exact read

theorem proper_envelopeLines (didl : Utf16) (numberReturned totalMatches : Int) :
    Layout.ProperLines (envelopeLines didl numberReturned totalMatches) := by
  have inside : Layout.ProperLines [.leaf "Result".toList [] (scrub didl),
        .leaf "NumberReturned".toList [] (digits numberReturned),
        .leaf "TotalMatches".toList [] (digits totalMatches),
        .leaf "UpdateID".toList [] ['1']] :=
    ⟨proper_leaf _ _ (by decide) (isXmlChar_of_mem_scrub didl),
      proper_leaf _ _ (by decide) (validDigits numberReturned),
      proper_leaf _ _ (by decide) (validDigits totalMatches),
      proper_leaf _ _ (by decide) (by decide), trivial⟩
  refine ⟨⟨by decide, ⟨by simp, by simp, by simp⟩, ⟨by decide, ⟨by decide, by decide, ?_⟩,
    inside⟩, trivial⟩, trivial⟩
  exact validValues_nil.cons (by decide)

theorem parse_buildBrowseResponse (didl : Utf16) (numberReturned totalMatches : Int) :
    (Utf16.decode (buildBrowseResponse didl numberReturned totalMatches)).bind parse =
      some (Layout.tree 0 (envelopeLayout didl numberReturned totalMatches)) := by
  generalize isDocument : envelopeOpening ++ ('\n' ::
        (Layout.writeLines escapeChar 1 (envelopeLines didl numberReturned totalMatches) ++
          (indent 0 ++ Layout.writeClosing "s:Envelope".toList))) = document
  have pieces : Layout.Lexes document
      (Layout.tokens 0 (envelopeLayout didl numberReturned totalMatches)) := by
    rw [← isDocument]
    have inside := (Layout.lexes_writeLines escapeChar reads_escapeChar 1 _
      (proper_envelopeLines didl numberReturned totalMatches)).append _ _ _ _
        ((Layout.lexes_indent 0).append _ _ _ _
          (Layout.lexes_writeClosing "s:Envelope".toList (by decide)))
    exact lexes_envelopeOpening.append _ _ _ _ (Layout.lexes_line.append _ _ _ _ inside)
  have declaration : "<?xml version=\"1.0\" encoding=\"utf-8\"?>\n".toList =
      "<?xml ".toList ++ ("version=\"1.0\" encoding=\"utf-8\"?".toList ++ ['>', '\n']) := by
    repeat rw [String.toList_ofList]
    rfl
  rw [envelopeText_eq, isDocument, Utf16.decode_ofChars, Option.bind_some, declaration,
    List.append_assoc, List.append_assoc]
  exact Layout.parse_of_lexes "version=\"1.0\" encoding=\"utf-8\"?".toList document
    (envelopeLayout didl numberReturned totalMatches) (by
      rw [String.toList_ofList]
      decide) pieces

/-! ## The document inside the envelope -/

theorem valid_escapeChar (char : Char) (valid : isXmlChar char = true) :
    Layout.Valid (escapeChar char) := by
  unfold escapeChar Layout.Valid
  split
  next => decide
  split
  next => decide
  split
  next => decide
  split
  next => decide
  split
  next => decide
  split
  next => decide
  split
  next => decide
  split
  next => decide
  next =>
    intro other member
    rw [List.mem_singleton.mp member]
    exact valid

theorem scrub_lite (containers : List CdObject) (items : List CdItem) :
    Utf16.decode (lite containers items) = some (scrub (lite containers items)) := by
  have declaration : Layout.Valid "<?xml version=\"1.0\" encoding=\"UTF-8\"?>\n".toList := by
    unfold Layout.Valid
    rw [String.toList_ofList]
    decide +kernel
  have valid := declaration.append
    (Layout.valid_write escapeChar valid_escapeChar 0 (didlLayout containers items)
      (proper_didlLayout containers items))
  rw [lite_eq, Utf16.decode_ofChars, scrub_ofChars _ valid]

end LosslessMusic.Dlna.Didl
