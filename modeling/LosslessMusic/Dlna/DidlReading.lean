import LosslessMusic.Dlna.DidlLayout

/-!
# Reading the answers to Browse

The objects that a control point reads from the answer to Browse: those that were
given to `Didl.lite`, in order.
-/

namespace LosslessMusic.Dlna.Didl

open Codec Xml

/-! ## Objects in a document -/

/-- The value of an attribute, empty when it is missing. -/
def valueOf (node : Node) (name : String) : List Char :=
  (node.attribute? name.toList).getD []

/-- The text of an element inside a node, empty when it is missing. -/
def fieldOf (node : Node) (name : String) : List Char :=
  ((node.child name.toList).map Node.content).getD []

/-- A number, with zero for one that is missing. -/
def numberOf : List Char → Int
  | '-' :: magnitude => -(Nat.ofDigitChars 10 magnitude 0 : Nat)
  | magnitude => (Nat.ofDigitChars 10 magnitude 0 : Nat)

/-- A duration in seconds, with zero for one that is missing. -/
def secondsOf (text : List Char) : Int :=
  (text.splitOn ':').foldl (fun seconds part => seconds * 60 + numberOf part) 0

/-- The media type of a `protocolInfo`. -/
def mimeOfInfo (info : List Char) : List Char :=
  if info = ("http-get:*:audio/mpeg:DLNA.ORG_PN=MP3;" ++ flags).toList then
    "audio/mpeg".toList
  else
    (info.drop "http-get:*:".toList.length).take
      (info.length - "http-get:*:".toList.length - (":" ++ flags).toList.length)

/-- A container that is read. -/
def readContainer (node : Node) : CdObject where
  id := Utf16.ofChars (valueOf node "id")
  parentId := Utf16.ofChars (valueOf node "parentID")
  title := Utf16.ofChars (fieldOf node "dc:title")
  childCount := numberOf (valueOf node "childCount")

/-- An item that is read; the bit rate of a resource is given in bytes a second. -/
def readItem (node : Node) : CdItem :=
  let resource := (node.child "res".toList).getD (.text [])
  { id := Utf16.ofChars (valueOf node "id")
    parentId := Utf16.ofChars (valueOf node "parentID")
    title := Utf16.ofChars (fieldOf node "dc:title")
    artist := Utf16.ofChars (fieldOf node "upnp:artist")
    album := Utf16.ofChars (fieldOf node "upnp:album")
    genre := Utf16.ofChars (fieldOf node "upnp:genre")
    trackNumber := numberOf (fieldOf node "upnp:originalTrackNumber")
    albumArtUri := Utf16.ofChars (fieldOf node "upnp:albumArtURI")
    durationSec := secondsOf (valueOf resource "duration")
    sampleRate := numberOf (valueOf resource "sampleFrequency")
    bitDepth := numberOf (valueOf resource "bitsPerSample")
    bitrateKbps := numberOf (valueOf resource "bitrate") * 8 / 1000
    size := numberOf (valueOf resource "size")
    mime := Utf16.ofChars (mimeOfInfo (valueOf resource "protocolInfo"))
    url := Utf16.ofChars resource.content }

/-- The objects of a document. -/
def readObjects (root : Node) : List CdObject × List CdItem :=
  ((root.elements "container".toList).map readContainer, (root.elements "item".toList).map readItem)

/-- The text inside the `Result` element of an envelope. -/
def resultText (envelope : Node) : Option (List Char) :=
  (envelope.child "s:Body".toList).bind fun body =>
    (body.child "u:BrowseResponse".toList).bind fun response =>
      (response.child "Result".toList).map Node.content

/-! ## Objects as they are received -/

/-- A text with the characters that XML does not allow replaced by U+FFFD. -/
def clean (text : Utf16) : Utf16 :=
  Utf16.ofChars (scrub text)

/-- A number that is given only when it is positive. -/
def positive (value : Int) : Int :=
  max 0 value

/-- A container as it is received. -/
def CdObject.received (container : CdObject) : CdObject where
  id := clean container.id
  parentId := clean container.parentId
  title := clean container.title
  childCount := container.childCount

/-- An item as it is received. -/
def CdItem.received (item : CdItem) : CdItem where
  id := clean item.id
  parentId := clean item.parentId
  title := clean item.title
  artist := clean item.artist
  album := clean item.album
  genre := clean item.genre
  trackNumber := positive item.trackNumber
  albumArtUri := clean item.albumArtUri
  durationSec := positive item.durationSec
  sampleRate := positive item.sampleRate
  bitDepth := positive item.bitDepth
  bitrateKbps := positive (bitrateBytesPerSec item.bitrateKbps) * 8 / 1000
  size := positive item.size
  mime := clean item.mime
  url := clean item.url

/-- Which fields of an item are given. -/
structure Presence where
  title : Bool
  artist : Bool
  album : Bool
  genre : Bool
  trackNumber : Bool
  albumArtUri : Bool
  size : Bool
  duration : Bool
  bitrate : Bool
  sampleRate : Bool
  bitDepth : Bool

/-- Which fields of this item are given. -/
def CdItem.presence (item : CdItem) : Presence where
  title := item.title ≠ []
  artist := item.artist ≠ []
  album := item.album ≠ []
  genre := item.genre ≠ []
  trackNumber := 0 < item.trackNumber
  albumArtUri := item.albumArtUri ≠ []
  size := 0 < item.size
  duration := 0 < item.durationSec
  bitrate := 0 < bitrateBytesPerSec item.bitrateKbps
  sampleRate := 0 < item.sampleRate
  bitDepth := 0 < item.bitDepth

/-- Something that is there or not. -/
def optionalPiece {Piece : Type} (given : Bool) (piece : Piece) : List Piece :=
  if given then [piece] else []

/-- An element without attributes. -/
def plainMarkup (tag : String) : Markup :=
  .element tag.toList [] []

/-- The elements and attributes of a container. -/
def containerMarkup : Markup :=
  .element "container".toList
    ["id".toList, "parentID".toList, "restricted".toList, "childCount".toList]
    [plainMarkup "dc:title", plainMarkup "upnp:class"]

/-- The elements and attributes of an item, by the fields that are given. -/
def itemMarkup (given : Presence) : Markup :=
  .element "item".toList ["id".toList, "parentID".toList, "restricted".toList]
    (optionalPiece given.title (plainMarkup "dc:title") ++ ([plainMarkup "upnp:class"] ++
        (optionalPiece given.artist (plainMarkup "dc:creator") ++
          (optionalPiece given.artist (plainMarkup "upnp:artist") ++
            (optionalPiece given.album (plainMarkup "upnp:album") ++
              (optionalPiece given.genre (plainMarkup "upnp:genre") ++
                (optionalPiece given.trackNumber (plainMarkup "upnp:originalTrackNumber") ++
                  (optionalPiece given.albumArtUri
                      (.element "upnp:albumArtURI".toList ["dlna:profileID".toList] []) ++
                    [.element "res".toList ("protocolInfo".toList ::
                        (optionalPiece given.size "size".toList ++
                          (optionalPiece given.duration "duration".toList ++
                            (optionalPiece given.bitrate "bitrate".toList ++
                              (optionalPiece given.sampleRate "sampleFrequency".toList ++
                                optionalPiece given.bitDepth "bitsPerSample".toList)))))
                      []]))))))))

/-- The elements and attributes of a document with so many containers and such items. -/
def didlMarkup (containers : Nat) (items : List Presence) : Markup :=
  .element "DIDL-Lite".toList
    ["xmlns".toList, "xmlns:dc".toList, "xmlns:upnp".toList, "xmlns:dlna".toList]
    (List.replicate containers containerMarkup ++ items.map itemMarkup)

/-! ## Numbers -/

theorem digits_natural (value : Nat) : (∀ char ∈ (toString value).toList, char.isDigit = true) ∧
      Nat.ofDigitChars 10 (toString value).toList 0 = value := by
  rw [show toString value = value.repr from rfl, Nat.toList_repr]
  exact ⟨fun char member => Nat.isDigit_of_mem_toDigits (by decide) (by decide) member,
    Nat.ofDigitChars_ten_toDigits⟩

theorem numberOf_of_isDigit (text : List Char) (decimal : ∀ char ∈ text, char.isDigit = true) :
    numberOf text = Nat.ofDigitChars 10 text 0 := by
  unfold numberOf
  split
  next magnitude => exact absurd (decimal '-' List.mem_cons_self) (by decide)
  next => rfl

theorem numberOf_digits (value : Int) : numberOf (digits value) = value := by
  unfold digits
  rw [show toString value = value.repr from rfl, Int.repr_eq_if]
  split
  next natural =>
    obtain ⟨decimal, same⟩ := digits_natural value.toNat
    rw [show value.toNat.repr = toString value.toNat from rfl, numberOf_of_isDigit _ decimal, same]
    exact Int.toNat_of_nonneg natural
  next negative =>
    obtain ⟨-, same⟩ := digits_natural (-value).toNat
    rw [String.toList_append, show (-value).toNat.repr = toString (-value).toNat from rfl]
    have read : numberOf ("-".toList ++ (toString (-value).toNat).toList) =
        -(Nat.ofDigitChars 10 (toString (-value).toNat).toList 0 : Nat) := rfl
    rw [read, same]
    omega

theorem twoDigits_natural (value : Nat) : (∀ char ∈ (twoDigits value).toList, char.isDigit = true) ∧
      Nat.ofDigitChars 10 (twoDigits value).toList 0 = value := by
  obtain ⟨decimal, same⟩ := digits_natural value
  unfold twoDigits
  split
  next =>
    rw [String.toList_append, Nat.ofDigitChars_append]
    refine ⟨?_, same⟩
    intro char member
    rcases List.mem_append.mp member with zero | other
    · obtain rfl : char = '0' := by simpa using zero
      rfl
    · exact decimal char other
  next => exact ⟨decimal, same⟩

theorem isXmlChar_of_isDigit (char : Char) (decimal : char.isDigit = true) :
    isXmlChar char = true := by
  unfold Char.isDigit at decimal
  rw [Bool.and_eq_true, decide_eq_true_eq, decide_eq_true_eq] at decimal
  have low : 48 ≤ char.toNat := decimal.1
  have high : char.toNat ≤ 57 := decimal.2
  unfold isXmlChar isXmlPoint
  simp only [Bool.or_eq_true, Bool.and_eq_true, decide_eq_true_eq]
  omega

theorem secondsOf_formatDuration (sec : Int) :
    secondsOf (scrub (formatDuration sec)) = positive sec := by
  unfold formatDuration
  split
  next negative =>
    have none : secondsOf (scrub []) = 0 := rfl
    rw [none]
    unfold positive
    omega
  next some =>
    obtain ⟨hourDigits, hours⟩ := digits_natural (sec.toNat / 3600)
    obtain ⟨minuteDigits, minutes⟩ := twoDigits_natural (sec.toNat % 3600 / 60)
    obtain ⟨secondDigits, seconds⟩ := twoDigits_natural (sec.toNat % 60)
    generalize toString (sec.toNat / 3600) = first at hourDigits hours ⊢
    generalize twoDigits (sec.toNat % 3600 / 60) = second at minuteDigits minutes ⊢
    generalize twoDigits (sec.toNat % 60) = third at secondDigits seconds ⊢
    have written : (first ++ ":" ++ second ++ ":" ++ third).toList =
        first.toList ++ ':' :: (second.toList ++ ':' :: third.toList) := by
      simp
    have noColon (text : List Char) (decimal : ∀ char ∈ text, char.isDigit = true) :
        ':' ∉ text := fun member => absurd (decimal ':' member) (by decide)
    unfold Utf16.ofString
    rw [written, scrub_ofChars]
    · unfold secondsOf
      rw [List.splitOn_append_cons_self, List.splitOn_append_cons_self,
        List.splitOn_eq_singleton (noColon _ hourDigits),
        List.splitOn_eq_singleton (noColon _ minuteDigits),
        List.splitOn_eq_singleton (noColon _ secondDigits)]
      simp only [List.singleton_append, List.foldl_cons, List.foldl_nil]
      rw [numberOf_of_isDigit _ hourDigits, numberOf_of_isDigit _ minuteDigits,
        numberOf_of_isDigit _ secondDigits, hours, minutes, seconds]
      unfold positive
      omega
    · intro char member
      simp only [List.mem_append, List.mem_cons] at member
      rcases member with inFirst | rfl | inSecond | rfl | inThird
      · exact isXmlChar_of_isDigit char (hourDigits char inFirst)
      · decide
      · exact isXmlChar_of_isDigit char (minuteDigits char inSecond)
      · decide
      · exact isXmlChar_of_isDigit char (secondDigits char inThird)

theorem mimeOfInfo_protocolInfoFor (mime : Utf16) :
    mimeOfInfo (scrub (protocolInfoFor mime)) = scrub mime := by
  have validHead : ∀ char ∈ "http-get:*:".toList, isXmlChar char = true := by decide
  have validTail : ∀ char ∈ (":" ++ flags).toList, isXmlChar char = true := by decide +kernel
  by_cases mpeg : mime = Utf16.ofString "audio/mpeg"
  · subst mpeg
    decide +kernel
  · have info : scrub (protocolInfoFor mime) =
        "http-get:*:".toList ++ (scrub mime ++ (":" ++ flags).toList) := by
      unfold protocolInfoFor contentFeatures
      rw [if_neg mpeg, ← Utf16.ofString_append]
      unfold Utf16.ofString
      rw [scrub_ofChars_append _ _ validHead]
      have tail := scrub_ofChars _ validTail
      unfold scrub at tail ⊢
      rw [Utf16.codePoints_append, List.map_append, tail]
      intro low others isRest
      have first : (Utf16.ofChars (":" ++ flags).toList).head? = some 58 := by decide +kernel
      rw [isRest, List.head?_cons] at first
      rw [Option.some.inj first]
      decide
    unfold mimeOfInfo
    rw [info, if_neg]
    · have short : ("http-get:*:".toList ++ (scrub mime ++ (":" ++ flags).toList)).length -
          "http-get:*:".toList.length - (":" ++ flags).toList.length = (scrub mime).length := by
        rw [List.length_append, List.length_append]
        omega
      rw [short, List.drop_left, List.take_left]
    · -- The features of MP3 end in other characters than the colon before the flags.
      intro same
      rw [String.toList_append, String.toList_append, ← List.append_assoc, ← List.append_assoc]
        at same
      have before := congrArg List.getLast? (List.append_inj_left' same rfl)
      have colon : ("http-get:*:".toList ++ scrub mime ++ ":".toList).getLast? = some ':' := by
        rw [List.getLast?_append]
        rfl
      rw [colon] at before
      exact absurd before (by decide +kernel)

/-! ## Finding the fields -/

section Segments

variable {Piece : Type} (key : Piece → List Char)

/-- Among pieces that stand under distinct names, the first one under a name is found
by it. -/
theorem find_flatMap (segments : List (List Char × List Piece))
    (named : ∀ segment ∈ segments, ∀ piece ∈ segment.2, key piece = segment.1)
    (distinct : (segments.map Prod.fst).Nodup) (segment : List Char × List Piece)
    (member : segment ∈ segments) :
    ((segments.flatMap Prod.snd).find? fun piece => key piece = segment.1) =
      segment.2.head? := by
  induction segments with
  | nil => cases member
  | cons first others ih =>
    rw [List.map_cons, List.nodup_cons] at distinct
    have inFirst := named first List.mem_cons_self
    have inOthers : ∀ other ∈ others, ∀ piece ∈ other.2, key piece = other.1 :=
      fun other later => named other (List.mem_cons_of_mem first later)
    rw [List.flatMap_cons, List.find?_append]
    rcases List.mem_cons.mp member with rfl | later
    · have absent : ((others.flatMap Prod.snd).find? fun piece => key piece = segment.1) =
          none := by
        rw [List.find?_eq_none]
        intro piece inside same
        obtain ⟨other, isOther, isPiece⟩ := List.mem_flatMap.mp inside
        rw [decide_eq_true_eq, inOthers other isOther piece isPiece] at same
        exact distinct.1 (same ▸ List.mem_map_of_mem isOther)
      rw [absent, Option.or_none]
      cases pieces : segment.2 with
      | nil => rfl
      | cons piece rest =>
        have here := inFirst piece (by rw [pieces]; exact List.mem_cons_self)
        rw [List.find?_cons_of_pos (by rw [decide_eq_true_eq]; exact here)]
        rfl
    · have absent : (first.2.find? fun piece => key piece = segment.1) = none := by
        rw [List.find?_eq_none]
        intro piece inside same
        rw [decide_eq_true_eq, inFirst piece inside] at same
        exact distinct.1 (same ▸ List.mem_map_of_mem later)
      rw [absent, Option.none_or]
      exact ih inOthers distinct.2 later

end Segments

/-- The elements of an item under their names. -/
def itemSegments (item : CdItem) : List (List Char × List Layout) :=
  [("dc:title".toList, optionalLeaf "dc:title" (scrub item.title)), ("upnp:class".toList,
      [.leaf "upnp:class".toList [] "object.item.audioItem.musicTrack".toList]),
    ("dc:creator".toList, optionalLeaf "dc:creator" (scrub item.artist)),
    ("upnp:artist".toList, optionalLeaf "upnp:artist" (scrub item.artist)),
    ("upnp:album".toList, optionalLeaf "upnp:album" (scrub item.album)),
    ("upnp:genre".toList, optionalLeaf "upnp:genre" (scrub item.genre)),
    ("upnp:originalTrackNumber".toList, trackNumberLine item.trackNumber),
    ("upnp:albumArtURI".toList, albumArtLine (scrub item.albumArtUri)),
    ("res".toList, [.leaf "res".toList (resourceAttributes item) (scrub item.url)])]

theorem name_of_mem_optionalLeaf (tag : String) (text : List Char) (line : Layout)
    (member : line ∈ optionalLeaf tag text) : line.name = tag.toList := by
  unfold optionalLeaf at member
  split at member
  next => cases member
  next =>
    rw [List.mem_singleton.mp member]
    rfl

theorem named_itemSegments (item : CdItem) :
    ∀ segment ∈ itemSegments item, ∀ line ∈ segment.2, line.name = segment.1 := by
  have track : ∀ line ∈ trackNumberLine item.trackNumber,
      line.name = "upnp:originalTrackNumber".toList := by
    intro line member
    unfold trackNumberLine at member
    split at member
    next =>
      rw [List.mem_singleton.mp member]
      rfl
    next => cases member
  have art : ∀ line ∈ albumArtLine (scrub item.albumArtUri),
      line.name = "upnp:albumArtURI".toList := by
    intro line member
    unfold albumArtLine at member
    split at member
    next => cases member
    next =>
      rw [List.mem_singleton.mp member]
      rfl
  have single (line : Layout) : ∀ other ∈ [line], other.name = line.name := by
    intro other member
    rw [List.mem_singleton.mp member]
  unfold itemSegments
  refine List.forall_mem_cons.mpr ⟨name_of_mem_optionalLeaf _ _, ?_⟩
  refine List.forall_mem_cons.mpr ⟨single _, ?_⟩
  refine List.forall_mem_cons.mpr ⟨name_of_mem_optionalLeaf _ _, ?_⟩
  refine List.forall_mem_cons.mpr ⟨name_of_mem_optionalLeaf _ _, ?_⟩
  refine List.forall_mem_cons.mpr ⟨name_of_mem_optionalLeaf _ _, ?_⟩
  refine List.forall_mem_cons.mpr ⟨name_of_mem_optionalLeaf _ _, ?_⟩
  refine List.forall_mem_cons.mpr ⟨track, ?_⟩
  refine List.forall_mem_cons.mpr ⟨art, ?_⟩
  exact List.forall_mem_cons.mpr ⟨single _, by simp⟩

theorem child_itemLayout (item : CdItem) (segment : List Char × List Layout)
    (member : segment ∈ itemSegments item) :
    (Layout.tree 1 (itemLayout item)).child segment.1 = segment.2.head?.map (Layout.tree 2) := by
  have distinct : ((itemSegments item).map Prod.fst).Nodup := by
    show ["dc:title".toList, "upnp:class".toList, "dc:creator".toList, "upnp:artist".toList,
      "upnp:album".toList, "upnp:genre".toList, "upnp:originalTrackNumber".toList,
      "upnp:albumArtURI".toList, "res".toList].Nodup
    decide
  rw [Layout.child_tree]
  exact congrArg (Option.map _)
    (find_flatMap Layout.name (itemSegments item) (named_itemSegments item) distinct segment member)

theorem content_optionalLeaf (depth : Nat) (tag : String) (text : List Char) :
    (((optionalLeaf tag text).head?.map (Layout.tree depth)).map Node.content).getD [] =
      text := by
  unfold optionalLeaf
  split
  next empty => exact empty.symm
  next => exact Layout.content_leaf depth tag.toList [] text

theorem fieldOf_itemLayout (item : CdItem) (tag : String) (text : List Char) (position : Nat)
    (found : (itemSegments item)[position]? = some (tag.toList, optionalLeaf tag text)) :
    fieldOf (Layout.tree 1 (itemLayout item)) tag = text := by
  unfold fieldOf
  rw [child_itemLayout item (tag.toList, optionalLeaf tag text) (List.mem_of_getElem? found)]
  exact content_optionalLeaf 2 tag text

theorem trackNumber_itemLayout (item : CdItem) :
    numberOf (fieldOf (Layout.tree 1 (itemLayout item)) "upnp:originalTrackNumber") =
      positive item.trackNumber := by
  unfold fieldOf
  have found := child_itemLayout item
    ("upnp:originalTrackNumber".toList, trackNumberLine item.trackNumber)
    (List.mem_of_getElem? (i := 6) rfl)
  rw [found]
  unfold trackNumberLine positive
  split
  next some =>
    have read : numberOf (digits item.trackNumber) = max 0 item.trackNumber := by
      rw [numberOf_digits]
      omega
    exact (congrArg numberOf
      (Layout.content_leaf 2 "upnp:originalTrackNumber".toList [] _)).trans read
  next none =>
    have read : numberOf [] = 0 := rfl
    exact read.trans (by omega)

theorem albumArtUri_itemLayout (item : CdItem) :
    fieldOf (Layout.tree 1 (itemLayout item)) "upnp:albumArtURI" = scrub item.albumArtUri := by
  unfold fieldOf
  have found := child_itemLayout item
    ("upnp:albumArtURI".toList, albumArtLine (scrub item.albumArtUri))
    (List.mem_of_getElem? (i := 7) rfl)
  rw [found]
  unfold albumArtLine
  split
  next empty => exact empty.symm
  next =>
    exact Layout.content_leaf 2 "upnp:albumArtURI".toList
      [("dlna:profileID".toList, "JPEG_TN".toList)] _

/-- The attributes of `res` under their names. -/
def resourceSegments (item : CdItem) : List (List Char × List Attribute) :=
  [("protocolInfo".toList, [("protocolInfo".toList, scrub (protocolInfoFor item.mime))]),
    ("size".toList, optionalNumber "size" item.size),
    ("duration".toList, optionalDuration (scrub (formatDuration item.durationSec))),
    ("bitrate".toList, optionalNumber "bitrate" (bitrateBytesPerSec item.bitrateKbps)),
    ("sampleFrequency".toList, optionalNumber "sampleFrequency" item.sampleRate),
    ("bitsPerSample".toList, optionalNumber "bitsPerSample" item.bitDepth)]

theorem name_of_mem_optionalNumber (name : String) (value : Int) (entry : Attribute)
    (member : entry ∈ optionalNumber name value) : entry.1 = name.toList := by
  unfold optionalNumber at member
  split at member
  next => rw [List.mem_singleton.mp member]
  next => cases member

theorem named_resourceSegments (item : CdItem) :
    ∀ segment ∈ resourceSegments item, ∀ entry ∈ segment.2, entry.1 = segment.1 := by
  have info (entry : Attribute) : ∀ other ∈ [entry], other.1 = entry.1 := by
    intro other member
    rw [List.mem_singleton.mp member]
  have duration : ∀ entry ∈ optionalDuration (scrub (formatDuration item.durationSec)),
      entry.1 = "duration".toList := by
    intro entry member
    unfold optionalDuration at member
    split at member
    next => cases member
    next => rw [List.mem_singleton.mp member]
  unfold resourceSegments
  refine List.forall_mem_cons.mpr ⟨info _, ?_⟩
  refine List.forall_mem_cons.mpr ⟨name_of_mem_optionalNumber _ _, ?_⟩
  refine List.forall_mem_cons.mpr ⟨duration, ?_⟩
  refine List.forall_mem_cons.mpr ⟨name_of_mem_optionalNumber _ _, ?_⟩
  refine List.forall_mem_cons.mpr ⟨name_of_mem_optionalNumber _ _, ?_⟩
  exact List.forall_mem_cons.mpr ⟨name_of_mem_optionalNumber _ _, by simp⟩

theorem resource_itemLayout (item : CdItem) : (Layout.tree 1 (itemLayout item)).child "res".toList =
      some (Layout.tree 2 (.leaf "res".toList (resourceAttributes item) (scrub item.url))) :=
  child_itemLayout item _ (List.mem_of_getElem? (i := 8) rfl)

theorem attribute_resource (item : CdItem) (segment : List Char × List Attribute)
    (member : segment ∈ resourceSegments item) :
    (Layout.tree 2 (.leaf "res".toList (resourceAttributes item) (scrub item.url))).attribute?
        segment.1 =
      segment.2.head?.map Prod.snd := by
  have distinct : ((resourceSegments item).map Prod.fst).Nodup := by
    show resourceNames.Nodup
    decide
  have attributes : (resourceSegments item).flatMap Prod.snd = resourceAttributes item := by
    unfold resourceSegments resourceAttributes
    simp only [List.flatMap_cons, List.flatMap_nil, List.append_nil, List.singleton_append]
  rw [Layout.attribute_tree]
  unfold Layout.attributes
  rw [← attributes]
  exact congrArg (Option.map Prod.snd)
    (find_flatMap Prod.fst (resourceSegments item) (named_resourceSegments item) distinct
      segment member)

/-- An optional number is read back when it is positive. -/
theorem numberOf_resource (item : CdItem) (name : String) (value : Int) (position : Nat)
    (found : (resourceSegments item)[position]? = some (name.toList, optionalNumber name value)) :
    numberOf (valueOf
          (Layout.tree 2 (.leaf "res".toList (resourceAttributes item) (scrub item.url))) name) =
      positive value := by
  unfold valueOf
  rw [attribute_resource item (name.toList, optionalNumber name value) (List.mem_of_getElem? found)]
  unfold optionalNumber positive
  split
  next some =>
    have read : numberOf (digits value) = max 0 value := by
      rw [numberOf_digits]
      omega
    exact read
  next none =>
    have read : numberOf [] = 0 := rfl
    exact read.trans (by omega)

theorem readItem_itemLayout (item : CdItem) :
    readItem (Layout.tree 1 (itemLayout item)) = item.received := by
  have duration : secondsOf (valueOf
            (Layout.tree 2 (.leaf "res".toList (resourceAttributes item) (scrub item.url)))
            "duration") =
        positive item.durationSec := by
    unfold valueOf
    rw [attribute_resource item
      ("duration".toList, optionalDuration (scrub (formatDuration item.durationSec)))
      (List.mem_of_getElem? (i := 2) rfl)]
    rw [← secondsOf_formatDuration item.durationSec]
    unfold optionalDuration
    split
    next empty =>
      rw [empty]
      rfl
    next => rfl
  have info :
      valueOf (Layout.tree 2 (.leaf "res".toList (resourceAttributes item) (scrub item.url)))
          "protocolInfo" =
        scrub (protocolInfoFor item.mime) := by
    unfold valueOf
    rw [attribute_resource item
      ("protocolInfo".toList, [("protocolInfo".toList, scrub (protocolInfoFor item.mime))])
      (List.mem_of_getElem? (i := 0) rfl)]
    simp only [List.head?_cons, Option.map_some, Option.getD_some]
  have id : valueOf (Layout.tree 1 (itemLayout item)) "id" = scrub item.id := by
    unfold valueOf
    rw [Layout.attribute_tree]
    rfl
  have parentId : valueOf (Layout.tree 1 (itemLayout item)) "parentID" = scrub item.parentId := by
    unfold valueOf
    rw [Layout.attribute_tree]
    rfl
  unfold readItem
  rw [resource_itemLayout]
  simp only [Option.getD_some]
  rw [duration, info, mimeOfInfo_protocolInfoFor, id, parentId, trackNumber_itemLayout, albumArtUri_itemLayout,
    fieldOf_itemLayout item "dc:title" _ 0 rfl, fieldOf_itemLayout item "upnp:artist" _ 3 rfl,
    fieldOf_itemLayout item "upnp:album" _ 4 rfl, fieldOf_itemLayout item "upnp:genre" _ 5 rfl,
    numberOf_resource item "size" _ 1 rfl, numberOf_resource item "bitrate" _ 3 rfl,
    numberOf_resource item "sampleFrequency" _ 4 rfl,
    numberOf_resource item "bitsPerSample" _ 5 rfl, Layout.content_leaf]
  rfl

theorem readContainer_containerLayout (container : CdObject) :
    readContainer (Layout.tree 1 (containerLayout container)) = container.received := by
  have id : valueOf (Layout.tree 1 (containerLayout container)) "id" = scrub container.id := by
    unfold valueOf
    rw [Layout.attribute_tree]
    rfl
  have parentId : valueOf (Layout.tree 1 (containerLayout container)) "parentID" =
      scrub container.parentId := by
    unfold valueOf
    rw [Layout.attribute_tree]
    rfl
  have childCount : valueOf (Layout.tree 1 (containerLayout container)) "childCount" =
      digits container.childCount := by
    unfold valueOf
    rw [Layout.attribute_tree]
    rfl
  have title : fieldOf (Layout.tree 1 (containerLayout container)) "dc:title" =
      scrub container.title := by
    unfold fieldOf
    rw [Layout.child_tree]
    exact Layout.content_leaf 2 "dc:title".toList [] (scrub container.title)
  unfold readContainer
  rw [id, parentId, title, childCount, numberOf_digits]
  rfl

/-! ## Whole documents -/

theorem readObjects_didlLayout (containers : List CdObject) (items : List CdItem) :
    readObjects (Layout.tree 0 (didlLayout containers items)) =
      (containers.map CdObject.received, items.map CdItem.received) := by
  have among {Object : Type} (objects : List Object) (layout : Object → Layout)
      (own name : List Char)
      (named : ∀ object, (layout object).name = own) :
      ((objects.map layout).filter fun line => line.name = name) =
        if own = name then objects.map layout else [] := by
    rw [List.filter_map]
    split
    next same =>
      refine congrArg (List.map layout) (List.filter_eq_self.mpr fun object _ => ?_)
      rw [Function.comp_apply, named object, decide_eq_true_eq]
      exact same
    next other =>
      refine List.map_eq_nil_iff.mpr (List.filter_eq_nil_iff.mpr fun object _ => ?_)
      rw [Function.comp_apply, named object, decide_eq_true_eq]
      exact other
  have isContainer : (containers.map containerLayout).filter
      (fun line => line.name = "container".toList) = containers.map containerLayout :=
    (among containers containerLayout "container".toList _ fun _ => rfl).trans (if_pos rfl)
  have noContainer : (items.map itemLayout).filter
      (fun line => line.name = "container".toList) = [] :=
    (among items itemLayout "item".toList _ fun _ => rfl).trans (if_neg (by decide))
  have noItem : (containers.map containerLayout).filter
      (fun line => line.name = "item".toList) = [] :=
    (among containers containerLayout "container".toList _ fun _ => rfl).trans (if_neg (by decide))
  have isItem : (items.map itemLayout).filter
      (fun line => line.name = "item".toList) = items.map itemLayout :=
    (among items itemLayout "item".toList _ fun _ => rfl).trans (if_pos rfl)
  unfold readObjects
  rw [Layout.elements_tree, Layout.elements_tree]
  simp only [didlLayout, Layout.lines, List.filter_append, isContainer, noContainer, noItem,
    isItem, List.append_nil, List.nil_append, List.map_map]
  refine Prod.ext (List.map_congr_left fun container _ => ?_) (List.map_congr_left fun item _ => ?_)
  · exact readContainer_containerLayout container
  · exact readItem_itemLayout item

theorem resultText_envelopeLayout (didl : Utf16) (numberReturned totalMatches : Int) :
    resultText (Layout.tree 0 (envelopeLayout didl numberReturned totalMatches)) =
      some (scrub didl) := by
  have body :
      (Layout.tree 0 (envelopeLayout didl numberReturned totalMatches)).child "s:Body".toList =
        some (Layout.tree 1
          (.block "s:Body".toList [] [responseLayout didl numberReturned totalMatches])) :=
    Layout.child_block 0 "s:Envelope".toList envelopeAttributes _ []
  have response : (Layout.tree 1
          (.block "s:Body".toList [] [responseLayout didl numberReturned totalMatches])).child
          "u:BrowseResponse".toList =
        some (Layout.tree 2 (responseLayout didl numberReturned totalMatches)) :=
    Layout.child_block 1 "s:Body".toList [] (responseLayout didl numberReturned totalMatches) []
  have result :
      (Layout.tree 2 (responseLayout didl numberReturned totalMatches)).child "Result".toList =
        some (Layout.tree 3 (.leaf "Result".toList [] (scrub didl))) :=
    Layout.child_block 2 "u:BrowseResponse".toList responseAttributes
      (.leaf "Result".toList [] (scrub didl)) _
  unfold resultText
  rw [body, Option.bind_some, response, Option.bind_some, result, Option.map_some,
    Layout.content_leaf]

theorem markup_optionalLeaf (tag : String) (text : Utf16) :
    Layout.markupOfLines (optionalLeaf tag (scrub text)) =
      optionalPiece (text ≠ []) (plainMarkup tag) := by
  unfold optionalLeaf optionalPiece
  by_cases empty : text = []
  · rw [if_pos ((scrub_eq_nil text).mpr empty)]
    simp [empty, Layout.markupOfLines]
  · rw [if_neg fun none => empty ((scrub_eq_nil text).mp none)]
    simp [empty, Layout.markupOfLines, Layout.markup, plainMarkup]

theorem markup_trackNumberLine (trackNumber : Int) :
    Layout.markupOfLines (trackNumberLine trackNumber) =
      optionalPiece (0 < trackNumber) (plainMarkup "upnp:originalTrackNumber") := by
  unfold trackNumberLine optionalPiece
  by_cases given : 0 < trackNumber
  · rw [if_pos given, if_pos (decide_eq_true given)]
    rfl
  · rw [if_neg given, if_neg (by simpa using given)]
    rfl

theorem markup_albumArtLine (albumArtUri : Utf16) :
    Layout.markupOfLines (albumArtLine (scrub albumArtUri)) = optionalPiece (albumArtUri ≠ [])
        (.element "upnp:albumArtURI".toList ["dlna:profileID".toList] []) := by
  unfold albumArtLine optionalPiece
  by_cases empty : albumArtUri = []
  · rw [if_pos ((scrub_eq_nil albumArtUri).mpr empty), if_neg (by simpa using empty)]
    rfl
  · rw [if_neg fun none => empty ((scrub_eq_nil albumArtUri).mp none),
      if_pos (decide_eq_true empty)]
    rfl

theorem names_given_optionalNumber (name : String) (value : Int) :
    (optionalNumber name value).map Prod.fst = optionalPiece (0 < value) name.toList := by
  unfold optionalNumber optionalPiece
  by_cases given : 0 < value
  · rw [if_pos given, if_pos (decide_eq_true given)]
    rfl
  · rw [if_neg given, if_neg (by simpa using given)]
    rfl

theorem names_given_optionalDuration (durationSec : Int) :
    (optionalDuration (scrub (formatDuration durationSec))).map Prod.fst =
      optionalPiece (0 < durationSec) "duration".toList := by
  have empty : scrub (formatDuration durationSec) = [] ↔ ¬ 0 < durationSec := by
    constructor
    · -- A duration that is not written is read as zero.
      intro none given
      have read := secondsOf_formatDuration durationSec
      have zero : secondsOf [] = 0 := rfl
      rw [none, zero] at read
      unfold positive at read
      omega
    · intro negative
      rw [formatDuration, if_pos (by omega)]
      rfl
  unfold optionalDuration optionalPiece
  by_cases given : 0 < durationSec
  · rw [if_neg fun none => empty.mp none given, if_pos (decide_eq_true given)]
    rfl
  · rw [if_pos (empty.mpr given), if_neg (by simpa using given)]
    rfl

theorem markup_itemLayout (item : CdItem) :
    Layout.markup (itemLayout item) = itemMarkup item.presence := by
  unfold itemLayout itemLines itemMarkup
  simp only [Layout.markup, Layout.markupOfLines_append, markup_optionalLeaf,
    markup_trackNumberLine, markup_albumArtLine, Layout.markupOfLines, resourceAttributes,
    List.map_cons, List.map_append, names_given_optionalNumber, names_given_optionalDuration]
  rfl

theorem markup_didlLayout (containers : List CdObject) (items : List CdItem) :
    Layout.markup (didlLayout containers items) =
      didlMarkup containers.length (items.map CdItem.presence) := by
  unfold didlLayout didlMarkup
  rw [Layout.markup, Layout.markupOfLines_append, Layout.markupOfLines_map,
    Layout.markupOfLines_map, List.map_map, ← List.map_const']
  have item : (fun object => Layout.markup (itemLayout object)) =
      itemMarkup ∘ CdItem.presence := funext markup_itemLayout
  rw [item]
  rfl

theorem clean_ofChars (chars : List Char) (valid : ∀ char ∈ chars, isXmlChar char = true) :
    clean (Utf16.ofChars chars) = Utf16.ofChars chars := by
  unfold clean
  rw [scrub_ofChars chars valid]

/-- Browse output survives both layers of XML: the text inside the `Result` element of
the response is the document, the document contains the given objects in order, with
the characters that XML does not allow replaced and the numbers that are not positive
left out, and its elements and attributes depend on which fields are given alone. -/
theorem browseOutput_survives (containers : List CdObject) (items : List CdItem)
    (numberReturned totalMatches : Int) :
    ∃ document envelope : Node, ∃ didl : List Char,
      Utf16.decode (lite containers items) = some didl ∧
        (Utf16.decode (buildBrowseResponse (lite containers items) numberReturned
          totalMatches)).bind parse = some envelope ∧
        resultText envelope = some didl ∧
        parse didl = some document ∧
        readObjects document = (containers.map CdObject.received, items.map CdItem.received) ∧
        document.markup = [didlMarkup containers.length (items.map CdItem.presence)] := by
  have decoded := scrub_lite containers items
  have parsed := parse_lite containers items
  rw [decoded, Option.bind_some] at parsed
  refine ⟨Layout.tree 0 (didlLayout containers items),
    Layout.tree 0 (envelopeLayout (lite containers items) numberReturned totalMatches),
    scrub (lite containers items), decoded, ?_, ?_, parsed, ?_, ?_⟩
  · exact parse_buildBrowseResponse (lite containers items) numberReturned totalMatches
  · exact resultText_envelopeLayout (lite containers items) numberReturned totalMatches
  · exact readObjects_didlLayout containers items
  · rw [Layout.markup_tree, markup_didlLayout]

/-- Two items whose track numbers differ may be written alike, and so no reader can give
back both. -/
theorem negativeNumbers_lost : ¬ ∃ read : Utf16 → List CdItem, ∀ items : List CdItem,
        read (lite [] items) = items.map fun item =>
            { item with
              id := clean item.id, parentId := clean item.parentId, title := clean item.title,
              artist := clean item.artist, album := clean item.album, genre := clean item.genre,
              albumArtUri := clean item.albumArtUri, mime := clean item.mime,
              url := clean item.url } := by
  rintro ⟨read, reads⟩
  let item (trackNumber : Int) : CdItem :=
    { id := [], parentId := [], title := [], artist := [], album := [], genre := [],
      trackNumber, albumArtUri := [], durationSec := 0, sampleRate := 0, bitDepth := 0,
      bitrateKbps := 0, size := 0, mime := [], url := [] }
  have none (trackNumber : Int) (negative : ¬ 0 < trackNumber) :
      trackNumberText trackNumber = [] := if_neg negative
  have same : itemText (item (-1)) = itemText (item 0) := by
    simp only [itemText, item, resourceText]
    rw [none (-1) (by decide), none 0 (by decide)]
  have alike : lite [] [item (-1)] = lite [] [item 0] := by
    unfold lite
    rw [List.flatMap_singleton, List.flatMap_singleton, same]
  have both := (reads [item (-1)]).symm.trans ((congrArg read alike).trans (reads [item 0]))
  have numbers := congrArg (List.map CdItem.trackNumber) both
  exact absurd numbers (by decide)

end LosslessMusic.Dlna.Didl
