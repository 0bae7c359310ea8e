import LosslessMusic.Network.Cookies
import LosslessMusic.Network.Redirects

/-!
# Requests of a session

`NetworkSession::execute_stream`: the permission check, the headers that go out, and the loop that
follows redirects. What the servers answer, the clock and the other calls on the cookies of the
session are an arbitrary environment; a request that is cancelled has sent a part of this.
-/

namespace LosslessMusic.Network

open Codec Address UrlParts

/-- `IpAddr`, by its octets. -/
inductive IpAddr
  | v4 (a b c d : UInt8)
  | v6 (octets : List UInt8)

/-- What requests ask of the libraries. -/
structure HttpLibraries extends CookieLibraries where
  Uri : Type
  lowercase : Bytes → Bytes
  trim : Bytes → Bytes
  parseAddress : Bytes → Option IpAddr
  asciiHost : Bytes → Except Bytes Bytes
  buildUri : Bytes → Bytes → Bytes → Except Bytes Uri
  hostOf : Uri → Option Bytes
  isMethod : Bytes → Bool
  debug : Bytes → Bytes
  headerName : Bytes → Except Bytes Bytes
  headerValue : Bytes → Except Bytes Bytes

/-! ## Permissions -/

/-- The branch of `is_private_ip` for an IPv4 address. -/
def isPrivateV4 (a b c d : UInt8) : Bool :=
  a = 127 || a = 10 || (a = 172 && 16 ≤ b && b ≤ 31) || (a = 192 && b = 168) ||
    (a = 169 && b = 254) || (224 ≤ a && a ≤ 239) || [a, b, c, d] = [0, 0, 0, 0] ||
    [a, b, c, d] = [255, 255, 255, 255]

def isPrivateIp : IpAddr → Bool
  | .v4 a b c d => isPrivateV4 a b c d
  | .v6 octets =>
    match octets with
    | [0, 0, 0, 0, 0, 0, 0, 0, 0, 0, 255, 255, a, b, c, d] => isPrivateV4 a b c d
    | first :: second :: _ =>
      octets = List.replicate 15 0 ++ [1] || octets = List.replicate 16 0 || first / 2 = 126 ||
        (first = 254 && second / 64 = 2) || first = 255
    | _ => false

structure NetworkPermissions where
  domains : List Bytes
  allowHttp : Bool

variable (libraries : HttpLibraries)

def privateLiteralOrLocal (host : Bytes) : Bool :=
  let host := libraries.lowercase
    (((libraries.trim host).dropWhile (· = code '[')).rdropWhile (· = code ']'))
  host = ascii "localhost" || (ascii ".local").isSuffixOf host ||
    (libraries.parseAddress (host.takeWhile (· ≠ code '%'))).any isPrivateIp

/-- `request_uri`. -/
def uriOf (url : UrlParts) : Except Bytes libraries.Uri :=
  url.requestUri libraries.asciiHost libraries.buildUri

namespace NetworkPermissions

def allowsDomain (permissions : NetworkPermissions) (domain : Bytes) : Bool :=
  let domain := libraries.lowercase (libraries.trim domain)
  permissions.domains.any fun allowed =>
    let allowed := libraries.lowercase (libraries.trim allowed)
    let suffix := allowed.drop 2
    allowed = ascii "*" || allowed = domain || ((ascii "*.").isPrefixOf allowed &&
      suffix.length + 1 < domain.length && (code '.' :: suffix).isSuffixOf domain)

def validate (permissions : NetworkPermissions) (input : Bytes)
    (allowPrivate redirect : Bool) : Except Bytes UrlParts :=
  let denied := if redirect then ascii "redirect blocked" else ascii "network access denied"
  match parse input with
  | none => .error (ascii "invalid URL")
  | some url =>
    let inside := ascii "network access denied: private/local network '" ++ url.hostname ++
      ascii "' not allowed"
    if url.scheme.isEmpty && !redirect then .error (ascii "invalid URL: scheme is required")
    else if url.scheme ≠ ascii "https" ∧
        ¬(permissions.allowHttp = true ∧ url.scheme = ascii "http") then
      .error (denied ++ ascii ": only https is allowed")
    else if url.hasCredentials then
      .error (ascii "invalid URL: embedded credentials are not allowed")
    else if url.hostname = [] then
      .error ((if redirect then denied else ascii "invalid URL") ++
        ascii ": hostname is required")
    else if !redirect && !allowPrivate && privateLiteralOrLocal libraries url.hostname then
      .error inside
    else if !permissions.allowsDomain libraries url.hostname then
      .error (denied ++ ascii ": domain '" ++ url.hostname ++ ascii "' not in allowed list")
    else if redirect && !allowPrivate && privateLiteralOrLocal libraries url.hostname then
      .error (ascii "redirect blocked: private/local network access denied")
    else
      match uriOf libraries url with
      | .error message => .error message
      | .ok uri =>
        if !allowPrivate && (libraries.hostOf uri).any (privateLiteralOrLocal libraries) then
          .error inside
        else .ok url

end NetworkPermissions

/-- `NetworkSession`, apart from its timeout, with the options of its pool. -/
structure NetworkSession where
  permissions : Option NetworkPermissions
  nativeMedia : Bool
  followRedirects : Bool
  allowPrivate : Bool
  allowHttpFallback : Bool

namespace NetworkSession

/-- The permissions that a URL is checked against. -/
def permissionsFor (session : NetworkSession) (url : UrlParts) : NetworkPermissions :=
  session.permissions.getD ⟨[url.hostname], session.nativeMedia⟩

def validateTarget (session : NetworkSession) (input : Bytes) (redirect : Bool) :
    Except Bytes UrlParts :=
  match parse input with
  | none => .error (ascii "invalid URL")
  | some url =>
    (session.permissionsFor url).validate libraries input session.allowPrivate redirect

def redirectTarget (session : NetworkSession) (url : UrlParts) (location : Bytes) :
    Except Bytes UrlParts :=
  if ¬∀ byte ∈ location, 32 ≤ byte ∧ byte < 127 ∨ byte = 9 then
    .error (ascii "failed to convert header to a str")
  else
    match url.resolve location with
    | none => .error (ascii "invalid redirect URL")
    | some target =>
      if target.hasCredentials then
        .error (ascii "invalid URL: embedded credentials are not allowed")
      else (session.validateTarget libraries target.displayUrl true).map fun _ => target

end NetworkSession

/-! ## Headers -/

/-- The values of each header. -/
abbrev HeaderMap := Bytes → List Bytes

namespace HeaderMap

def insert (headers : HeaderMap) (name value : Bytes) : HeaderMap := fun other =>
  if other = name then [value] else headers other

/-- `remove`, of several headers. -/
def without (headers : HeaderMap) (names : List Bytes) : HeaderMap := fun other =>
  if other ∈ names then [] else headers other

/-- `get(name).is_none_or(|value| value.is_empty())`. -/
def lacks (headers : HeaderMap) (name : String) : Bool :=
  (headers (ascii name)).head?.all List.isEmpty

/-- `to_str` of the first value. -/
def text (headers : HeaderMap) (name : String) : Option Bytes :=
  (headers (ascii name)).head?.filter fun value =>
    value.all fun byte => (32 ≤ byte && byte < 127) || byte = 9

end HeaderMap

def updateExplicitCookies (headers response : HeaderMap) : HeaderMap :=
  match headers.text "cookie" with
  | none => headers
  | some original =>
    let names := ((response (ascii "set-cookie")).filterMap fun line =>
      if ∀ byte ∈ line, 32 ≤ byte ∧ byte < 127 ∨ byte = 9 then libraries.parse line
      else none).map Cookie.name
    let pairs := (original.splitOn (code ';')).map trimBytes
    let remaining := pairs.filter fun pair =>
      !(splitOnce (code '=') pair).any fun one => names.contains one.1
    if remaining.length = pairs.length then headers
    else
      headers.insert (ascii "cookie")
        ((ascii "; ").intercalate (remaining.mergeSort fun first second => ¬second < first))

def forwardSensitiveHeaders (original target : Bytes) : Bool :=
  let original := libraries.lowercase original
  let target := libraries.lowercase target
  original = target || (!target.contains (code ':') && !target.contains (code '%') &&
    (code '.' :: original).isSuffixOf target)

/-- The headers that only the host they were given for, and those below it, are sent. -/
def sensitiveHeaders : List Bytes :=
  ["authorization", "www-authenticate", "cookie", "proxy-authorization", "proxy-authenticate",
    "cookie2"].map ascii

/-! ## The loop -/

structure HttpRequest where
  url : Bytes
  method : Bytes
  body : Bytes
  headers : List (Bytes × Bytes)
  defaultJson : Bool
  userAgent : Bytes

structure PreparedRequest where
  url : UrlParts
  original : UrlParts
  method : Bytes
  body : Bytes
  headers : HeaderMap
  explicitReferer : Option Bytes

/-- What is read of the response of a server. -/
structure Response where
  status : Nat
  headers : HeaderMap

/-- One request that goes out. -/
structure Sent (Uri : Type) where
  url : UrlParts
  uri : Uri
  method : Bytes
  body : Bytes
  headers : HeaderMap

/-- What a session meets: the answers to the two tries of each turn, the time of the turn, and the
calls of others on its cookies before it. -/
structure Environment where
  answer : Nat → Except Bytes Response
  retried : Nat → Except Bytes Response
  now : Nat → Int
  others : Nat → List CookieCall

/-- The headers of `prepare_request`. -/
def prepareHeaders (request : HttpRequest) : Except Bytes HeaderMap := do
  let headers ← request.headers.foldlM (fun (headers : HeaderMap) (name, value) => do
    let name ← libraries.headerName name
    if name ∈ ["host", "content-length", "transfer-encoding"].map ascii then pure headers
    else return headers.insert name (← libraries.headerValue value)) fun _ => []
  let headers ←
    if headers.lacks "user-agent" then
      (libraries.headerValue request.userAgent).map (headers.insert (ascii "user-agent"))
    else pure headers
  if request.defaultJson && headers.lacks "content-type" then
    return headers.insert (ascii "content-type") (ascii "application/json")
  else return headers

def prepareRequest (session : NetworkSession) (request : HttpRequest) :
    Except Bytes PreparedRequest :=
  match session.validateTarget libraries request.url false with
  | .error message => .error message
  | .ok url =>
    let method := if request.method = [] then ascii "GET" else request.method
    if !libraries.isMethod method then
      .error (ascii "net/http: invalid method " ++ libraries.debug request.method)
    else
      (prepareHeaders libraries request).map fun headers => {
        url, original := url, method, body := request.body, headers
        explicitReferer := (headers (ascii "referer")).head?.filter fun value => !value.isEmpty }

/-- `outgoing_headers`, with the cookies of the jar. -/
def outgoingHeaders (headers : HeaderMap) (method cookies : Bytes) (compression : Bool) :
    Except Bytes HeaderMap :=
  let explicit := (headers.text "cookie").filter fun value => !value.isEmpty
  let outgoing :=
    if cookies = [] then .ok headers
    else
      (libraries.headerValue (explicit.elim cookies fun value => value ++ ascii "; " ++ cookies)).map
        (headers.insert (ascii "cookie"))
  outgoing.map fun outgoing =>
    if compression && outgoing.lacks "accept-encoding" && outgoing.lacks "range" &&
        method ≠ ascii "HEAD" then
      outgoing.insert (ascii "accept-encoding") (ascii "gzip")
    else outgoing

/-- The state behind a redirect. -/
def redirected (hop : PreparedRequest) (response : Response) (target : UrlParts) :
    PreparedRequest :=
  let other : Bool := 301 ≤ response.status && response.status ≤ 303
  let headers := updateExplicitCookies libraries hop.headers response.headers
  let headers :=
    if other then
      headers.without (["content-encoding", "content-language", "content-location",
        "content-type"].map ascii)
    else headers
  let headers :=
    if forwardSensitiveHeaders libraries hop.original.hostname target.hostname then headers
    else headers.without sensitiveHeaders
  let headers :=
    if hop.url.scheme = ascii "https" ∧ target.scheme = ascii "http" then
      headers.without [ascii "referer"]
    else
      match hop.explicitReferer, libraries.headerValue hop.url.displayUrl with
      | some value, _ => headers.insert (ascii "referer") value
      | none, .ok value => headers.insert (ascii "referer") value
      | none, .error _ => headers
  { hop with
    url := target
    method := if other && !([ascii "GET", ascii "HEAD"].contains hop.method) then ascii "GET"
      else hop.method
    body := if other then [] else hop.body
    headers }

/-- What one turn of the loop sends, what is returned if it is the last one, and the state for the
next one. -/
structure Turn (Uri : Type) where
  sent : List (Sent Uri)
  result : Except Bytes (Response × Bytes)
  next : Option (PreparedRequest × CookieJar) := none

/-- A call of `execute_stream`, apart from its request. -/
structure Exchange where
  libraries : HttpLibraries
  session : NetworkSession
  environment : Environment
  compression : Bool

namespace Exchange

variable (exchange : Exchange)

/-- `send`: what goes out, and the response with the URL it came from. -/
def send (index : Nat) (hop : PreparedRequest) (uri : exchange.libraries.Uri)
    (outgoing : HeaderMap) :
    List (Sent exchange.libraries.Uri) × Except Bytes (Response × UrlParts) :=
  let first : Sent exchange.libraries.Uri := ⟨hop.url, uri, hop.method, hop.body, outgoing⟩
  let canReplay : Bool := (["GET", "HEAD", "OPTIONS", "DELETE"].map ascii).contains hop.method ||
    !hop.body.isEmpty
  match exchange.environment.answer index with
  | .ok response => ([first], .ok (response, hop.url))
  | .error message =>
    if exchange.session.allowHttpFallback && exchange.session.permissions.isNone &&
        hop.url.scheme = ascii "https" && canReplay then
      let url := { hop.url with scheme := ascii "http" }
      match uriOf exchange.libraries url with
      | .error message => ([first], .error message)
      | .ok uri =>
        ([first, ⟨url, uri, hop.method, hop.body, outgoing⟩],
          (exchange.environment.retried index).map fun response => (response, url))
    else ([first], .error message)

/-- The location of a response that redirects. -/
def locationOf (response : Response) : Option Bytes :=
  if response.status ∈ [301, 302, 303, 307, 308] then
    (response.headers (ascii "location")).head?.filter fun value => !value.isEmpty
  else none

/-- What follows a response: the result if no further request is sent, and the state for one. -/
def settle (hop : PreparedRequest) (jar : CookieJar) (response : Response)
    (responseUrl : UrlParts) :
    Except Bytes (Response × Bytes) × Option (PreparedRequest × CookieJar) :=
  if !exchange.session.followRedirects && response.status ∈ [301, 302, 303, 307, 308] then
    (.error (ascii "media redirect blocked: request a fresh descriptor"), none)
  else
    match locationOf response with
    | none => (.ok (response, responseUrl.displayUrl), none)
    | some location =>
      match exchange.session.redirectTarget exchange.libraries hop.url location with
      | .error message => (.error message, none)
      | .ok target =>
        (.ok (response, responseUrl.displayUrl),
          some (redirected exchange.libraries hop response target, jar))

/-- One turn of the loop of `execute_stream`. -/
def turn (index : Nat) (jar : CookieJar) (hop : PreparedRequest) :
    Turn exchange.libraries.Uri :=
  let libraries := exchange.libraries.toCookieLibraries
  let native := exchange.session.nativeMedia
  let now := exchange.environment.now index
  let jar := (exchange.environment.others index).foldl (CookieJar.call libraries) jar
  let (cookies, jar) := if native then ([], jar) else jar.header libraries now hop.url
  match uriOf exchange.libraries hop.url,
    outgoingHeaders exchange.libraries hop.headers hop.method cookies exchange.compression with
  | .error message, _ => ⟨[], .error message, none⟩
  | .ok _, .error message => ⟨[], .error message, none⟩
  | .ok uri, .ok outgoing =>
    let (sent, answer) := exchange.send index hop uri outgoing
    match answer with
    | .error message => ⟨sent, .error message, none⟩
    | .ok (response, responseUrl) =>
      let jar :=
        if native then jar
        else jar.store libraries hop.url now (response.headers (ascii "set-cookie"))
      let (result, next) := exchange.settle hop jar response responseUrl
      ⟨sent, result, next⟩

/-- The loop of `execute_stream`, with the redirects that are still followed. -/
def follow : Nat → Nat → CookieJar → PreparedRequest →
    List (Sent exchange.libraries.Uri) × Except Bytes (Response × Bytes)
  | 0, index, jar, hop =>
    let one := exchange.turn index jar hop
    (one.sent, one.result)
  | left + 1, index, jar, hop =>
    let one := exchange.turn index jar hop
    match one.next with
    | some (next, jar) =>
      let rest := follow left (index + 1) jar next
      (one.sent ++ rest.1, rest.2)
    | none => (one.sent, one.result)

/-- `execute_stream`. -/
def executeStream (jar : CookieJar) (request : HttpRequest) :
    List (Sent exchange.libraries.Uri) × Except Bytes (Response × Bytes) :=
  match prepareRequest exchange.libraries exchange.session request with
  | .error message => ([], .error message)
  | .ok prepared => exchange.follow 9 0 jar prepared

end Exchange
end LosslessMusic.Network
