import LosslessMusic.Codec.Base64
import LosslessMusic.Dlna.FileTree
import LosslessMusic.Text

/-!
# The content directory

Browsing and serving of `ContentDirectory` and of the `/media/{id}` route. What the
device makes of bytes that are not UTF-8 is an argument; symbolic links are left out.
-/

namespace LosslessMusic.Dlna

open Codec

/-- The UTF-8 bytes of a text. -/
def utf8 (text : String) : List UInt8 :=
  text.toByteArray.data.toList

/-- `AUDIO_MIME`. -/
def audioMime : List (String × String) :=
  [(".flac", "audio/flac"), (".m4a", "audio/mp4"), (".mp3", "audio/mpeg"),
    (".alac", "audio/mp4"), (".opus", "audio/ogg"), (".ogg", "audio/ogg"),
    (".wav", "audio/wav"), (".aiff", "audio/aiff"), (".aif", "audio/aiff")]

/-- `name.substringAfterLast('.', "")`. -/
def afterLastDot (name : String) : String :=
  if '.' ∈ name.toList then
    String.ofList (name.toList.reverse.takeWhile (· ≠ '.')).reverse
  else ""

/-- The key of a name in `AUDIO_MIME`. -/
def audioKey (name : String) : String :=
  "." ++ Text.toLowerCase (afterLastDot name)

/-- The name has an extension of `AUDIO_MIME`. -/
def isAudio (name : String) : Bool :=
  (audioMime.lookup (audioKey name)).isSome

/-- The name does not start with a dot. -/
def isVisible (name : String) : Bool :=
  !Text.startsWith name "."

/-- `mimeForExt` of the extension of a name. -/
def mimeOf (name : String) : String :=
  (audioMime.lookup (audioKey name)).getD "application/octet-stream"

def encodeObjectId (relPath : String) : String :=
  Base64.encode (utf8 relPath)

/-- What `resolve` throws. -/
inductive Refusal
  | illegalArgument
  | security
  deriving DecidableEq, Repr

/-- A share: a tree of files, the path of the served directory in normal form, and
the text the device makes of malformed bytes. -/
structure Share where
  tree : FileTree
  root : List String
  malformed : List UInt8 → String
  normal : ∀ name ∈ root, plainName name = true

/-- The parts of a path between its slashes. -/
def parts (path : String) : List String :=
  (path.toList.splitOn '/').map String.ofList

/-- One part of a path is followed, `.` and `..` by their meaning. -/
def follow (path : List String) (part : String) : List String :=
  if part = "" ∨ part = "." then path
  else if part = ".." then path.dropLast
  else path ++ [part]

/-- `normalize` of an absolute path. -/
def normalize (path : List String) : List String :=
  path.foldl follow []

/-- `validateRelPath` throws. -/
def escapes (relPath : String) : Bool :=
  Text.startsWith relPath "/" || (parts relPath).contains ".."

namespace Share

variable (share : Share)

def decodeObjectId (id : String) : Option String :=
  (Base64.decode id).map fun bytes =>
    (String.fromUTF8? ⟨bytes.toArray⟩).getD (share.malformed bytes)

/-- `resolve`. A path with a null character is refused where it is parsed. -/
def resolve (id : String) : Except Refusal (List String) :=
  match share.decodeObjectId id with
  | none => .error .illegalArgument
  | some rel =>
    if escapes rel then .error .security
    else if '\x00' ∈ rel.toList then .error .illegalArgument
    else
      let path := normalize (share.root ++ parts rel)
      if share.root.isPrefixOf path then .ok path else .error .security

def resolveFile (id : String) : Except Refusal (Option (List String)) :=
  (share.resolve id).map fun path =>
    if share.tree.kind path = some .file then some path else none

/-- An answer of the server. -/
inductive Response
  | served (path : List String) (mime : String)
  | status (code : Nat)
  deriving DecidableEq, Repr

/-- `GET /media/{id}`. -/
def media (id : String) : Response :=
  if id = "" then .status 404
  else
    match share.resolveFile id with
    | .ok (some path) => .served path (mimeOf (path.getLast?.getD ""))
    | .ok none => .status 404
    | .error .security => .status 403
    | .error .illegalArgument => .status 400

/-- A container or an item in the answer to `browse`. -/
structure Entry where
  id : String
  kind : Kind
  deriving DecidableEq, Repr

/-- The entries of a directory that `browse` shows. -/
def shown (target : List String) (name : String) : Bool :=
  isVisible name && (share.tree.kind (target ++ [name]) = some .directory ||
      (share.tree.kind (target ++ [name]) = some .file && isAudio name))

/-- The shown names in the order of their bytes, directories first. -/
def ordered (target : List String) : List String :=
  let names := ((share.tree.names target).filter (share.shown target)).mergeSort
    fun left right => decide (utf8 left ≤ utf8 right)
  names.filter (fun name => share.tree.kind (target ++ [name]) = some .directory) ++
    names.filter (fun name => share.tree.kind (target ++ [name]) = some .file)

/-- `browse`, with `none` for what it throws. -/
def browse (objectId : String) (startingIndex requestedCount : Nat) : Option (List Entry) :=
  let decoded := if objectId = "0" then some "" else share.decodeObjectId objectId
  let target := if objectId = "0" then .ok share.root else share.resolve objectId
  match decoded, target with
  | some rel, .ok target =>
    if share.tree.kind target ≠ some .directory then none
    else
      let rest := (share.ordered target).drop startingIndex
      let selected := if requestedCount = 0 then rest else rest.take requestedCount
      some (selected.map fun name =>
        { id := encodeObjectId (if rel = "" then name else rel ++ "/" ++ name)
          kind := (share.tree.kind (target ++ [name])).getD .file })
  | _, _ => none

/-- The containers a client can reach from the root. -/
inductive Browsed : String → Prop
  | root : Browsed "0"
  | child {objectId : String} {startingIndex requestedCount : Nat} {entries : List Entry}
      {entry : Entry} :
      Browsed objectId →
      share.browse objectId startingIndex requestedCount = some entries →
      entry ∈ entries → entry.kind = .directory → Browsed entry.id

/-- The files whose items a client finds by browsing. -/
def Advertised (path : List String) : Prop :=
  ∃ objectId startingIndex requestedCount entries entry, share.Browsed objectId ∧
    share.browse objectId startingIndex requestedCount = some entries ∧
    entry ∈ entries ∧ entry.kind = .file ∧ share.resolveFile entry.id = .ok (some path)

end Share

end LosslessMusic.Dlna
