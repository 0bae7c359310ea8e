import LosslessMusic.Codec.LossyUtf8
import LosslessMusic.Codec.Splits
import LosslessMusic.Network.Addresses

/-!
# URLs of requests

`UrlParts` on the bytes of its texts: what `parse` accepts, the authority and the path as they
are written, references resolved against a base, and what a redirect checks and requests.
-/

namespace LosslessMusic.Network

open Codec Address

/-- The bytes of a text of the source. -/
def ascii (text : String) : Bytes :=
  text.toList.map code

/-- `u8::is_ascii_alphabetic`. -/
def isAsciiAlphabetic (byte : UInt8) : Bool :=
  65 ≤ byte && byte ≤ 90 || 97 ≤ byte && byte ≤ 122

/-- `u8::is_ascii_alphanumeric`. -/
def isAsciiAlphanumeric (byte : UInt8) : Bool :=
  isAsciiAlphabetic byte || isDigit byte

/-- An ASCII control. -/
def isControl (byte : UInt8) : Bool :=
  byte < 32 || byte == 127

/-- `to_lowercase` of an ASCII text. -/
def toLowercase (text : Bytes) : Bytes :=
  text.map fun byte => if 65 ≤ byte ∧ byte ≤ 90 then byte + 32 else byte

/-- Where escapes are read. -/
inductive Escape
  | path
  | host
  | zone
  deriving DecidableEq

def validHostByte (byte : UInt8) : Bool :=
  128 ≤ byte || isAsciiAlphanumeric byte || (ascii "-._~!$&'()*+,;=:[]<>\"").contains byte

/-- The bytes accepted as they stand. -/
def Escape.plain (mode : Escape) (byte : UInt8) : Bool :=
  mode == .path || validHostByte byte

/-- The bytes accepted as an escape. -/
def Escape.escaped (mode : Escape) (value : UInt8) : Bool :=
  match mode with
  | .path => true
  | .host => !(value < 128 && value != code '%')
  | .zone => !(value != code '%' && value != code ' ' && !validHostByte value)

def decode (input : Bytes) (mode : Escape) : Option Bytes :=
  Percent.decode mode.plain mode.escaped input

/-- The bytes that `escape` keeps. -/
def isKept (host : Bool) (byte : UInt8) : Bool :=
  isAsciiAlphanumeric byte || (ascii "-._~!$&'()*+,;=:[]").contains byte ||
    (!host && (ascii "/%@?").contains byte)

def escape (value : Bytes) (host : Bool) : Bytes :=
  Percent.encode (isKept host) value

def validPort (port : Bytes) : Bool :=
  match port with
  | [] => true
  | byte :: port => byte == code ':' && port.all isDigit

structure UrlParts where
  scheme : Bytes
  hostname : Bytes
  path : Bytes
  rawPath : Bytes
  rawQuery : Bytes
  forceQuery : Bool
  fragment : Bytes
  port : Option Bytes
  hasCredentials : Bool
  host : Bytes
  username : Bytes
  password : Option Bytes
  opaquePart : Bytes
  omitHost : Bool
  deriving DecidableEq

/-- `scheme.eq_ignore_ascii_case("http") || scheme.eq_ignore_ascii_case("https")`. -/
def isWeb (scheme : Bytes) : Bool :=
  toLowercase scheme == ascii "http" || toLowercase scheme == ascii "https"

/-- Whether the decoded text between brackets is an address, with a zone or without. -/
def isLiteral (hostname : Bytes) : Bool :=
  match splitOnce (code '%') hostname with
  | some (address, zone) => !zone.isEmpty && isIpv6 address
  | none => isIpv6 hostname

/-- The decoded bytes of the text between brackets. -/
def decodeLiteral (raw : Bytes) : Option Bytes :=
  match splitOnceAt (ascii "%25") raw with
  | some (address, zone) => do
      let address ← decode address .host
      let zone ← decode (ascii "%25" ++ zone) .zone
      some (address ++ zone)
  | none => decode raw .host

def parseHost (host scheme : Bytes) : Option Bytes :=
  match rsplitOnce (code '[') host with
  | some (front, _) =>
    if front ≠ [] then none
    else do
      let (raw, port) ← rsplitOnce (code ']') host
      if !validPort port then none
      else
        let decoded ← decodeLiteral raw.tail
        let hostname := LossyUtf8.fromUtf8Lossy decoded
        if isLiteral hostname then some hostname else none
  | none =>
    match if isWeb scheme then splitOnce (code ':') host else rsplitOnce (code ':') host with
    | some (hostname, port) =>
      if !validPort (code ':' :: port) then none
      else (decode hostname .host).map LossyUtf8.fromUtf8Lossy
    | none => (decode host .host).map LossyUtf8.fromUtf8Lossy

/-- The port behind the last colon, or behind the brackets. -/
def portPart (host : Bytes) : Option Bytes :=
  if host.head? = some (code '[') then do
    let (_, port) ← rsplitOnce (code ']') host
    some port
  else
    match rsplitOnce (code ':') host with
    | some (_, port) => some (code ':' :: port)
    | none => some []

/-- `port_part.strip_prefix(':')`. -/
def stripColon (portPart : Bytes) : Option Bytes :=
  match portPart with
  | byte :: port => if byte = code ':' then some port else none
  | [] => none

/-- What `parse` reads from the text between `//` and the path. -/
structure Authority where
  hostname : Bytes
  port : Option Bytes
  hasCredentials : Bool
  host : Bytes
  username : Bytes
  password : Option Bytes

/-- The authority of a reference without one. -/
def Authority.absent : Authority :=
  ⟨[], none, false, [], [], none⟩

/-- The user and the password before `@`. -/
structure User where
  username : Bytes
  password : Option Bytes

/-- The bytes that credentials may have. -/
def isUserByte (byte : UInt8) : Bool :=
  isAsciiAlphanumeric byte || (ascii "-._~!$&'()*+,;=:%@").contains byte

/-- The credentials of an authority. -/
def parseUser (user : Bytes) : Option User :=
  if !user.all isUserByte then none
  else do
    let _ ← decode user .path
    let (name, secret) :=
      match splitOnce (code ':') user with
      | some (name, secret) => (name, some secret)
      | none => (user, none)
    let username ← decode name .path
    match secret with
    | some secret => (decode secret .path).map fun password => ⟨username, some password⟩
    | none => some ⟨username, none⟩

/-- The host and the port of an authority. -/
def parseHostPort (host scheme : Bytes) (hasCredentials : Bool) (user : User) :
    Option Authority := do
  let hostname ← parseHost host scheme
  let rawHost ← decode host .path
  let portPart ← portPart host
  some ⟨hostname, stripColon portPart, hasCredentials, rawHost, user.username, user.password⟩

/-- The text between `//` and the path. -/
def parseAuthority (authority scheme : Bytes) : Option Authority :=
  match rsplitOnce (code '@') authority with
  | some (user, host) => (parseUser user).bind (parseHostPort host scheme true)
  | none => parseHostPort authority scheme false ⟨[], none⟩

/-- The scheme of a text and what follows it; the bytes seen so far stand before the text. -/
def scanScheme (seen : Bytes) : Bytes → Option (Bytes × Bytes)
  | [] => some ([], seen)
  | byte :: rest =>
    if byte = code ':' then if seen = [] then none else some (seen, rest)
    else if isAsciiAlphabetic byte ||
        (!seen.isEmpty && (isDigit byte || (ascii "+-.").contains byte)) then
      scanScheme (seen ++ [byte]) rest
    else some ([], seen ++ byte :: rest)

/-- The authority of a path and the path behind it. -/
def splitAuthority (scheme path : Bytes) : Option (Authority × Bytes) :=
  if (ascii "//").isPrefixOf path && (!scheme.isEmpty || !(ascii "///").isPrefixOf path) then
    let authorityAndPath := path.drop 2
    let authority := authorityAndPath.takeWhile (· != code '/')
    let rest := authorityAndPath.dropWhile (· != code '/')
    (parseAuthority authority scheme).map fun parsed => (parsed, rest)
  else some (Authority.absent, path)

/-- The parts of a hierarchical text, without its fragment. -/
def parseParts (scheme path query : Bytes) (forceQuery : Bool) (fragment : Bytes) :
    Option UrlParts := do
  let (authority, rest) ← splitAuthority scheme path
  let omitHost := !scheme.isEmpty && (ascii "/").isPrefixOf path && !(ascii "//").isPrefixOf path
  let decoded := if rest.isEmpty then some (ascii "/") else decode rest .path
  decoded.map fun path =>
    { scheme := toLowercase scheme, hostname := authority.hostname, path, rawPath := rest,
      rawQuery := query, forceQuery, fragment, port := authority.port,
      hasCredentials := authority.hasCredentials, host := authority.host,
      username := authority.username, password := authority.password, opaquePart := [],
      omitHost }

/-- The text of a scheme without `/` behind it. -/
def opaqueParts (scheme rest query : Bytes) (forceQuery : Bool) (fragment : Bytes) : UrlParts :=
  { scheme := toLowercase scheme, hostname := [], path := [], rawPath := rest,
    rawQuery := query, forceQuery, fragment, port := none, hasCredentials := false, host := [],
    username := [], password := none, opaquePart := rest, omitHost := false }

def parse (input : Bytes) : Option UrlParts := do
  let (input, fragment) := (splitOnce (code '#') input).getD (input, [])
  let _ ← decode fragment .path
  if input.any isControl then none
  else
    let (scheme, rest) ← scanScheme [] input
    let (path, query) := (splitOnce (code '?') rest).getD (rest, [])
    let forceQuery := rest.getLast? == some (code '?') && query.isEmpty
    if path.head? ≠ some (code '/') then
      if scheme ≠ [] then some (opaqueParts scheme path query forceQuery fragment)
      else if (path.takeWhile (· != code '/')).contains (code ':') then none
      else parseParts scheme path query forceQuery fragment
    else parseParts scheme path query forceQuery fragment

namespace UrlParts

def authority (url : UrlParts) : Bytes :=
  let host :=
    if url.hostname.contains (code ':') then ascii "[" ++ url.hostname ++ ascii "]"
    else url.hostname
  match url.port with
  | some port => if !port.isEmpty then host ++ ascii ":" ++ port else host
  | none => host

/-- The bytes of a raw path that is written as it stands. -/
def isRawByte (byte : UInt8) : Bool :=
  isAsciiAlphanumeric byte || (ascii "-._~!$&'()*+,;=:[]/%@").contains byte

def escapedPath (url : UrlParts) : Bytes :=
  if url.rawPath.all isRawByte then url.rawPath
  else
    Percent.encode (fun byte => isAsciiAlphanumeric byte || (ascii "-._~$&+,/:;=@").contains byte)
      ((decode url.rawPath .path).getD [])

/-- The query with its mark, if there is one or one is forced. -/
def queryPart (url : UrlParts) : Bytes :=
  if url.forceQuery || !url.rawQuery.isEmpty then ascii "?" ++ url.rawQuery else []

def displayUrl (url : UrlParts) : Bytes :=
  let result := url.scheme ++ ascii "://" ++ escape url.authority true ++ url.escapedPath
  let result := result ++ url.queryPart
  if !url.fragment.isEmpty then result ++ ascii "#" ++ escape url.fragment false else result

/-- `port.parse::<u16>()` succeeds. -/
def isU16 (port : Bytes) : Bool :=
  let digits := if port.head? = some (code '+') then port.tail else port
  !digits.isEmpty && digits.all isDigit &&
    digits.foldl (fun value digit => value * 10 + (digit.toNat - 48)) 0 < 65536

/-- `request_uri`, with the host parser and the builder of the libraries it calls. -/
def requestUri {Uri : Type} (parseHost : Bytes → Except Bytes Bytes)
    (build : Bytes → Bytes → Bytes → Except Bytes Uri) (url : UrlParts) : Except Bytes Uri := do
  let port := url.port.filter fun port => !port.isEmpty
  if port.any fun port => !isU16 port then throw (ascii "invalid URL port")
  let hostname ←
    if url.hostname.contains (code ':') then pure (ascii "[" ++ url.hostname ++ ascii "]")
    else parseHost url.hostname
  let authority :=
    match port with
    | some port => hostname ++ ascii ":" ++ port
    | none => hostname
  let path := if url.rawPath.isEmpty then ascii "/" else url.escapedPath
  build url.scheme authority (path ++ url.queryPart)

end UrlParts

/-- One part of a path that is being resolved: the result, whether nothing stands in it yet,
and the last part. -/
structure Resolving where
  result : Bytes
  first : Bool
  last : Bytes

/-- `result.truncate(result[1..].rfind('/').map_or(1, |index| index + 1))`. -/
def withoutLast (result : Bytes) : Bytes :=
  match rsplitOnce (code '/') (result.drop 1) with
  | some (front, _) => result.take (front.length + 1)
  | none => result.take 1

/-- One turn of the loop of `resolve_path`. -/
def Resolving.step (state : Resolving) (part : Bytes) : Resolving :=
  if part = ascii "." then ⟨state.result, false, part⟩
  else if part = ascii ".." then
    ⟨withoutLast state.result, (withoutLast state.result).length = 1, part⟩
  else ⟨(if !state.first then state.result ++ ascii "/" else state.result) ++ part, false, part⟩

def resolvePath (base reference : Bytes) : Bytes :=
  let full :=
    if reference.isEmpty then base
    else if reference.head? = some (code '/') then reference
    else ((rsplitOnce (code '/') base).map fun (front, _) => front ++ ascii "/").getD [] ++ reference
  if full.isEmpty then full
  else
    let state := (full.splitOn (code '/')).foldl Resolving.step ⟨ascii "/", true, []⟩
    let result :=
      if state.last = ascii "." ∨ state.last = ascii ".." then state.result ++ ascii "/"
      else state.result
    if (ascii "//").isPrefixOf result then result.tail else result

namespace UrlParts

/-- A location without an own scheme, host and credentials, at the place of the base. -/
def relativeTo (base target : UrlParts) : UrlParts :=
  let target :=
    if target.rawPath.isEmpty && !target.forceQuery && target.rawQuery.isEmpty then
      { target with
        rawQuery := base.rawQuery
        fragment := if target.fragment.isEmpty then base.fragment else target.fragment }
    else target
  { target with
    hostname := base.hostname
    port := base.port
    hasCredentials := base.hasCredentials
    rawPath := resolvePath base.escapedPath target.escapedPath }

/-- The scheme of the base, where the location has none. -/
def withBaseScheme (base target : UrlParts) : UrlParts :=
  if target.scheme.isEmpty then { target with scheme := base.scheme } else target

/-- The parsed location as a URL, before its path is decoded again. -/
def relocated (base target : UrlParts) : UrlParts :=
  let isAbsolute := !target.scheme.isEmpty || !target.hostname.isEmpty || target.hasCredentials
  let target := withBaseScheme base target
  if isAbsolute then { target with rawPath := resolvePath target.escapedPath [] }
  else relativeTo base target

def resolve (base : UrlParts) (location : Bytes) : Option UrlParts := do
  let target ← parse location
  let target := relocated base target
  let path ← decode target.rawPath .path
  some { target with path }

end UrlParts
end LosslessMusic.Network
