import LosslessMusic.Codec.Utf16
import LosslessMusic.Xml.Layout

/-!
# The answers to Browse

`Xml.escape` and `Didl.lite`, and the envelope of `buildBrowseResponse`. Texts are
lists of 16-bit units, as they are in Kotlin.
-/

namespace LosslessMusic.Dlna.Didl

open Codec

/-! ## Escaping -/

/-- One unit that begins no surrogate pair, escaped. -/
def escapeUnit (unit : UInt16) : Utf16 :=
  if unit.toNat = '&'.toNat then Utf16.ofString "&amp;"
  else if unit.toNat = '<'.toNat then Utf16.ofString "&lt;"
  else if unit.toNat = '>'.toNat then Utf16.ofString "&gt;"
  else if unit.toNat = '"'.toNat then Utf16.ofString "&#34;"
  else if unit.toNat = '\''.toNat then Utf16.ofString "&#39;"
  else if unit.toNat = '\t'.toNat then Utf16.ofString "&#x9;"
  else if unit.toNat = '\n'.toNat then Utf16.ofString "&#xA;"
  else if unit.toNat = '\r'.toNat then Utf16.ofString "&#xD;"
  else if unit.toNat < ' '.toNat ∨ Utf16.isHigh unit = true ∨ Utf16.isLow unit = true ∨
      unit.toNat = 0xFFFE ∨ unit.toNat = 0xFFFF then
    [0xFFFD]
  else [unit]

def escape : Utf16 → Utf16
  | [] => []
  | unit :: rest =>
    if Utf16.isHigh unit then
      match rest with
      | [] => escapeUnit unit
      | low :: others =>
        if Utf16.isLow low then unit :: low :: escape others
        else escapeUnit unit ++ escape (low :: others)
    else
      escapeUnit unit ++ escape rest

def attr (text : Utf16) : Utf16 :=
  Utf16.ofString "\"" ++ (escape text ++ Utf16.ofString "\"")

/-! ## Objects -/

structure CdObject where
  id : Utf16
  parentId : Utf16
  title : Utf16
  childCount : Int

structure CdItem where
  id : Utf16
  parentId : Utf16
  title : Utf16
  artist : Utf16
  album : Utf16
  genre : Utf16
  trackNumber : Int
  albumArtUri : Utf16
  durationSec : Int
  sampleRate : Int
  bitDepth : Int
  bitrateKbps : Int
  size : Int
  mime : Utf16
  url : Utf16

def flags : String :=
  "DLNA.ORG_OP=01;DLNA.ORG_CI=0;DLNA.ORG_FLAGS=01700000000000000000000000000000"

/-- A number in text. -/
def number (value : Int) : Utf16 :=
  Utf16.ofString (toString value)

/-- `%02d` of a number that is not negative. -/
def twoDigits (value : Nat) : String :=
  if value < 10 then "0" ++ toString value else toString value

def formatDuration (sec : Int) : Utf16 :=
  if sec ≤ 0 then []
  else
    Utf16.ofString
      (toString (sec.toNat / 3600) ++ ":" ++ twoDigits (sec.toNat % 3600 / 60) ++ ":" ++
        twoDigits (sec.toNat % 60))

def contentFeatures (mime : Utf16) : Utf16 :=
  if mime = Utf16.ofString "audio/mpeg" then Utf16.ofString ("DLNA.ORG_PN=MP3;" ++ flags)
  else Utf16.ofString flags

def protocolInfoFor (mime : Utf16) : Utf16 :=
  Utf16.ofString "http-get:*:" ++ (mime ++ (Utf16.ofString ":" ++ contentFeatures mime))

/-- The value of a 32-bit integer after overflow. -/
def wrapInt (value : Int) : Int :=
  Int.bmod value (2 ^ 32)

def bitrateBytesPerSec (kbps : Int) : Int :=
  if kbps ≤ 0 then 0 else (wrapInt (kbps * 1000)).tdiv 8

/-! ## Documents -/

/-- An attribute that is written only when its number is positive. -/
def positiveAttribute (name : String) (value : Int) : Utf16 :=
  if 0 < value then
    Utf16.ofString (" " ++ name ++ "=\"") ++ (number value ++ Utf16.ofString "\"")
  else []

def element (tag : String) (value : Utf16) : Utf16 :=
  if value ≠ [] then
    Utf16.ofString ("    <" ++ tag ++ ">") ++
      (escape value ++ Utf16.ofString ("</" ++ tag ++ ">\n"))
  else []

/-- A container in the document. -/
def containerText (container : CdObject) : Utf16 :=
  Utf16.ofString "  <container id=" ++ attr container.id ++
    Utf16.ofString " parentID=" ++ attr container.parentId ++
    Utf16.ofString " restricted=\"1\" childCount=\"" ++ number container.childCount ++
    Utf16.ofString "\">\n" ++
    Utf16.ofString "    <dc:title>" ++ escape container.title ++
    Utf16.ofString "</dc:title>\n" ++
    Utf16.ofString "    <upnp:class>object.container.storageFolder</upnp:class>\n" ++
    Utf16.ofString "  </container>\n"

/-- The track number of an item, when there is one. -/
def trackNumberText (trackNumber : Int) : Utf16 :=
  if 0 < trackNumber then
    Utf16.ofString "    <upnp:originalTrackNumber>" ++ number trackNumber ++
      Utf16.ofString "</upnp:originalTrackNumber>\n"
  else []

/-- The address of the cover, when there is one. -/
def albumArtText (albumArtUri : Utf16) : Utf16 :=
  if albumArtUri ≠ [] then
    Utf16.ofString "    <upnp:albumArtURI dlna:profileID=\"JPEG_TN\">" ++ escape albumArtUri ++
      Utf16.ofString "</upnp:albumArtURI>\n"
  else []

/-- The duration of an item, when it is known. -/
def durationAttribute (durationSec : Int) : Utf16 :=
  let duration := formatDuration durationSec
  if duration ≠ [] then Utf16.ofString " duration=" ++ attr duration else []

/-- The `res` element of an item. -/
def resourceText (item : CdItem) : Utf16 :=
  Utf16.ofString "    <res protocolInfo=" ++ attr (protocolInfoFor item.mime) ++
    positiveAttribute "size" item.size ++
    durationAttribute item.durationSec ++
    positiveAttribute "bitrate" (bitrateBytesPerSec item.bitrateKbps) ++
    positiveAttribute "sampleFrequency" item.sampleRate ++
    positiveAttribute "bitsPerSample" item.bitDepth ++
    Utf16.ofString ">" ++ escape item.url ++ Utf16.ofString "</res>\n"

/-- An item in the document. -/
def itemText (item : CdItem) : Utf16 :=
  Utf16.ofString "  <item id=" ++ attr item.id ++
    Utf16.ofString " parentID=" ++ attr item.parentId ++
    Utf16.ofString " restricted=\"1\">\n" ++
    element "dc:title" item.title ++
    Utf16.ofString "    <upnp:class>object.item.audioItem.musicTrack</upnp:class>\n" ++
    element "dc:creator" item.artist ++
    element "upnp:artist" item.artist ++
    element "upnp:album" item.album ++
    element "upnp:genre" item.genre ++
    trackNumberText item.trackNumber ++
    albumArtText item.albumArtUri ++
    resourceText item ++
    Utf16.ofString "  </item>\n"

def lite (containers : List CdObject) (items : List CdItem) : Utf16 :=
  Utf16.ofString "<?xml version=\"1.0\" encoding=\"UTF-8\"?>\n" ++
    Utf16.ofString "<DIDL-Lite xmlns=\"urn:schemas-upnp-org:metadata-1-0/DIDL-Lite/\"" ++
    Utf16.ofString " xmlns:dc=\"http://purl.org/dc/elements/1.1/\"" ++
    Utf16.ofString " xmlns:upnp=\"urn:schemas-upnp-org:metadata-1-0/upnp/\"" ++
    Utf16.ofString " xmlns:dlna=\"urn:schemas-dlna-org:metadata-1-0/\">\n" ++
    containers.flatMap containerText ++
    items.flatMap itemText ++
    Utf16.ofString "</DIDL-Lite>"

def buildBrowseResponse (didl : Utf16) (numberReturned totalMatches : Int) : Utf16 :=
  Utf16.ofString "<?xml version=\"1.0\" encoding=\"utf-8\"?>\n" ++
    Utf16.ofString "<s:Envelope xmlns:s=\"http://schemas.xmlsoap.org/soap/envelope/\"\n" ++
    Utf16.ofString "            s:encodingStyle=\"http://schemas.xmlsoap.org/soap/encoding/\">\n" ++
    Utf16.ofString "  <s:Body>\n" ++
    Utf16.ofString ("    <u:BrowseResponse " ++
        "xmlns:u=\"urn:schemas-upnp-org:service:ContentDirectory:1\">\n") ++
    Utf16.ofString "      <Result>" ++ escape didl ++ Utf16.ofString "</Result>\n" ++
    Utf16.ofString "      <NumberReturned>" ++ number numberReturned ++
    Utf16.ofString "</NumberReturned>\n" ++
    Utf16.ofString "      <TotalMatches>" ++ number totalMatches ++
    Utf16.ofString "</TotalMatches>\n" ++
    Utf16.ofString "      <UpdateID>1</UpdateID>\n" ++
    Utf16.ofString "    </u:BrowseResponse>\n" ++
    Utf16.ofString "  </s:Body>\n" ++
    Utf16.ofString "</s:Envelope>"

/-! ## What escaping writes -/

/-- The character of a code point, or the replacement character where XML has none. -/
def scrubPoint (point : Nat) : Char :=
  if Xml.isXmlPoint point then Char.ofNat point else '\uFFFD'

/-- The characters of a text, those that XML does not allow replaced. -/
def scrub (text : Utf16) : List Char :=
  (Utf16.codePoints text).map scrubPoint

/-- A character of XML, escaped. -/
def escapeChar (char : Char) : List Char :=
  if char = '&' then "&amp;".toList
  else if char = '<' then "&lt;".toList
  else if char = '>' then "&gt;".toList
  else if char = '"' then "&#34;".toList
  else if char = '\'' then "&#39;".toList
  else if char = '\t' then "&#x9;".toList
  else if char = '\n' then "&#xA;".toList
  else if char = '\r' then "&#xD;".toList
  else [char]

theorem isValidChar_of_isXmlPoint (point : Nat) (valid : Xml.isXmlPoint point = true) :
    point.isValidChar := by
  unfold Xml.isXmlPoint at valid
  simp only [Bool.or_eq_true, Bool.and_eq_true, decide_eq_true_eq] at valid
  unfold Nat.isValidChar
  omega

theorem isXmlChar_of_mem_scrub (text : Utf16) (char : Char) (member : char ∈ scrub text) :
    Xml.isXmlChar char = true := by
  unfold scrub at member
  obtain ⟨point, -, isChar⟩ := List.mem_map.mp member
  rw [← isChar]
  unfold scrubPoint Xml.isXmlChar
  split
  next valid =>
    rw [Utf16.toNat_charOfNat point (isValidChar_of_isXmlPoint point valid)]
    exact valid
  next => decide

theorem scrub_ofChars_append (chars : List Char) (rest : Utf16)
    (valid : ∀ char ∈ chars, Xml.isXmlChar char = true) :
    scrub (Utf16.ofChars chars ++ rest) = chars ++ scrub rest := by
  unfold scrub
  rw [Utf16.codePoints_ofChars, List.map_append, List.map_map]
  refine congrArg (· ++ _) ((List.map_congr_left fun char member => ?_).trans (List.map_id chars))
  have isPoint : Xml.isXmlPoint char.toNat = true := valid char member
  simp only [Function.comp_apply, scrubPoint, isPoint, if_true, Char.ofNat_toNat, id]

theorem scrub_ofChars (chars : List Char) (valid : ∀ char ∈ chars, Xml.isXmlChar char = true) :
    scrub (Utf16.ofChars chars) = chars := by
  have whole := scrub_ofChars_append chars [] valid
  rw [List.append_nil] at whole
  rw [whole]
  exact List.append_nil chars

theorem escapeChar_of_ne (char : Char) (noSpecial :
      ∀ special ∈ ['&', '<', '>', '"', '\'', '\t', '\n', '\r'], char ≠ special) :
    escapeChar char = [char] := by
  simp only [List.forall_mem_cons, List.not_mem_nil, false_imp_iff, implies_true,
    and_true] at noSpecial
  obtain ⟨ampersand, less, greater, quote, apostrophe, tab, line, carriage⟩ := noSpecial
  unfold escapeChar
  rw [if_neg ampersand, if_neg less, if_neg greater, if_neg quote, if_neg apostrophe,
    if_neg tab, if_neg line, if_neg carriage]

/-- A unit that begins no pair is written as its character is. -/
theorem escapeUnit_eq (unit : UInt16) :
    escapeUnit unit = Utf16.ofChars (escapeChar (scrubPoint unit.toNat)) := by
  unfold escapeUnit
  split
  next here => rw [here]; rfl
  next ampersand =>
  split
  next here => rw [here]; rfl
  next less =>
  split
  next here => rw [here]; rfl
  next greater =>
  split
  next here => rw [here]; rfl
  next quote =>
  split
  next here => rw [here]; rfl
  next apostrophe =>
  split
  next here => rw [here]; rfl
  next tab =>
  split
  next here => rw [here]; rfl
  next line =>
  split
  next here => rw [here]; rfl
  next carriage =>
  have bound := unit.toNat_lt
  have codes : '&'.toNat = 38 ∧ '<'.toNat = 60 ∧ '>'.toNat = 62 ∧ '"'.toNat = 34 ∧ '\''.toNat = 39 ∧
        '\t'.toNat = 9 ∧ '\n'.toNat = 10 ∧ '\r'.toNat = 13 ∧ ' '.toNat = 32 := by
    decide
  split
  next none =>
    have scrubbed : scrubPoint unit.toNat = '\uFFFD' := by
      unfold scrubPoint
      rw [if_neg]
      unfold Xml.isXmlPoint
      unfold Utf16.isHigh Utf16.isLow at none
      simp only [Bool.or_eq_true, Bool.and_eq_true, decide_eq_true_eq] at none ⊢
      omega
    rw [scrubbed]
    rfl
  next allowed =>
    have isPoint : Xml.isXmlPoint unit.toNat = true := by
      unfold Xml.isXmlPoint
      unfold Utf16.isHigh Utf16.isLow at allowed
      simp only [Bool.or_eq_true, Bool.and_eq_true, decide_eq_true_eq] at allowed ⊢
      omega
    have valid := isValidChar_of_isXmlPoint unit.toNat isPoint
    have scrubbed : scrubPoint unit.toNat = Char.ofNat unit.toNat := if_pos isPoint
    have others :
        ∀ special : Char, unit.toNat ≠ special.toNat → Char.ofNat unit.toNat ≠ special := by
      rintro special apart rfl
      exact apart (Utf16.toNat_charOfNat unit.toNat valid).symm
    rw [scrubbed, escapeChar_of_ne]
    · unfold Utf16.ofChars
      rw [List.flatMap_singleton, Utf16.encodeChar_single unit valid]
    · simp only [List.forall_mem_cons, List.not_mem_nil, false_imp_iff, implies_true, and_true]
      exact ⟨others _ ampersand, others _ less, others _ greater, others _ quote,
        others _ apostrophe, others _ tab, others _ line, others _ carriage⟩

theorem ofChars_pair (high low : UInt16) (isHighUnit : Utf16.isHigh high = true)
    (isLowUnit : Utf16.isLow low = true) :
    Utf16.ofChars (escapeChar (scrubPoint (Utf16.pairPoint high low))) = [high, low] := by
  have above : 0x10000 ≤ Utf16.pairPoint high low ∧ Utf16.pairPoint high low ≤ 0x10FFFF := by
    unfold Utf16.isHigh at isHighUnit
    unfold Utf16.isLow at isLowUnit
    rw [Bool.and_eq_true, decide_eq_true_eq, decide_eq_true_eq] at isHighUnit isLowUnit
    unfold Utf16.pairPoint
    omega
  have isPoint : Xml.isXmlPoint (Utf16.pairPoint high low) = true := by
    unfold Xml.isXmlPoint
    simp only [Bool.or_eq_true, Bool.and_eq_true, decide_eq_true_eq]
    exact Or.inr above
  have valid := isValidChar_of_isXmlPoint _ isPoint
  have scrubbed : scrubPoint (Utf16.pairPoint high low) =
      Char.ofNat (Utf16.pairPoint high low) := if_pos isPoint
  rw [scrubbed, escapeChar_of_ne]
  · unfold Utf16.ofChars
    rw [List.flatMap_singleton, Utf16.encodeChar_pair high low isHighUnit isLowUnit]
  · intro special member isSpecial
    have small : special.toNat < 0x10000 := by
      simp only [List.mem_cons, List.not_mem_nil, or_false] at member
      rcases member with rfl | rfl | rfl | rfl | rfl | rfl | rfl | rfl <;> decide
    rw [← isSpecial, Utf16.toNat_charOfNat _ valid] at small
    omega

/-- Escaping writes the characters that are left of a text one by one. -/
theorem escape_eq (text : Utf16) :
    escape text = Utf16.ofChars ((scrub text).flatMap escapeChar) := by
  unfold scrub
  fun_induction escape text with
  | case1 => rfl
  | case2 unit high =>
    rw [Utf16.codePoints, if_pos high]
    simp only [List.map_cons, List.map_nil, List.flatMap_cons, List.flatMap_nil, List.append_nil]
    exact escapeUnit_eq unit
  | case3 unit high low others isLowUnit ih =>
    rw [Utf16.codePoints_pair unit low others high isLowUnit, List.map_cons,
      List.flatMap_cons, Utf16.ofChars_append, ofChars_pair unit low high isLowUnit,
      ih]
    rfl
  | case4 unit high low others isLowUnit ih =>
    rw [Utf16.codePoints_single, List.map_cons, List.flatMap_cons, Utf16.ofChars_append,
      escapeUnit_eq, ih]
    intro _ second rest isRest
    cases isRest
    exact Bool.eq_false_iff.mpr isLowUnit
  | case5 unit rest high ih =>
    rw [Utf16.codePoints_single, List.map_cons, List.flatMap_cons, Utf16.ofChars_append,
      escapeUnit_eq, ih]
    intro isHighUnit
    exact absurd isHighUnit high

end LosslessMusic.Dlna.Didl
