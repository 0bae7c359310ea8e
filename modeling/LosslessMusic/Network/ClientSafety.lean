import LosslessMusic.Network.Client

/-!
# What a session lets out

A redirect checks the text of a URL and requests the URL itself. Whatever the servers answer,
each URL that is requested passes the permissions itself, credentials are not sent beyond the
host they were given for, and a request is repeated as it was or as one without a body.
-/

namespace LosslessMusic.Network

open Codec Address UrlParts

/-! ## Schemes -/

/-- A scheme stands before the first colon. -/
theorem scanScheme_eq_some {seen text scheme rest : Bytes} (free : code ':' ∉ seen)
    (scanned : scanScheme seen text = some (scheme, rest)) (present : scheme ≠ []) :
    seen ++ text = scheme ++ code ':' :: rest ∧ code ':' ∉ scheme := by
  induction text generalizing seen with
  | nil =>
    cases scanned
    exact absurd rfl present
  | cons byte later ih =>
    rw [scanScheme] at scanned
    split at scanned
    next colon =>
      split at scanned
      next => cases scanned
      next =>
        cases scanned
        exact ⟨by rw [colon], free⟩
    next other =>
      split at scanned
      next =>
        have whole := ih (by simp [free, Ne.symm other]) scanned
        rwa [List.append_assoc] at whole
      next =>
        cases scanned
        exact absurd rfl present

theorem scheme_of_parse {input : Bytes} {url : UrlParts} (parsed : parse input = some url)
    (present : url.scheme ≠ []) : ∃ scheme rest, input = scheme ++ code ':' :: rest ∧
      code ':' ∉ scheme ∧ url.scheme = toLowercase scheme := by
  obtain ⟨body, fragment, same, behind, whole⟩ : ∃ body fragment,
      (splitOnce (code '#') input).getD (input, []) = (body, fragment) ∧
        ∃ behind, input = body ++ behind := by
    cases split : splitOnce (code '#') input with
    | some parts => exact ⟨parts.1, parts.2, rfl, _, (splitOnce_eq_some split).1⟩
    | none => exact ⟨input, [], rfl, [], (List.append_nil _).symm⟩
  unfold parse at parsed
  rw [same] at parsed
  obtain ⟨_, _, parsed⟩ := Option.bind_eq_some_iff.mp parsed
  split at parsed
  next => cases parsed
  next =>
    obtain ⟨⟨scheme, rest⟩, scanned, parsed⟩ := Option.bind_eq_some_iff.mp parsed
    have parts {path query : Bytes} {forced : Bool}
        (read : parseParts scheme path query forced fragment = some url) :
        url.scheme = toLowercase scheme := by
      obtain ⟨_, _, read⟩ := Option.bind_eq_some_iff.mp read
      obtain ⟨_, _, same⟩ := Option.map_eq_some_iff.mp read
      rw [← same]
    have lower : url.scheme = toLowercase scheme := by
      dsimp only at parsed
      split at parsed
      next =>
        split at parsed
        next =>
          cases parsed
          rfl
        next =>
          split at parsed
          next => cases parsed
          next => exact parts parsed
      next => exact parts parsed
    have named : scheme ≠ [] := by
      rintro rfl
      exact present lower
    obtain ⟨split, free⟩ := scanScheme_eq_some List.not_mem_nil scanned named
    refine ⟨scheme, rest ++ behind, ?_, free, lower⟩
    rw [whole, ← List.nil_append body, split, List.append_assoc]
    rfl

/-- A scheme as a parsed URL has it. -/
structure IsLower (scheme : Bytes) : Prop where
  free : code ':' ∉ scheme
  lower : toLowercase scheme = scheme

theorem isLower_of_parse {input : Bytes} {url : UrlParts} (parsed : parse input = some url) :
    IsLower url.scheme := by
  have bytes : ∀ byte : UInt8, let lower := if 65 ≤ byte ∧ byte ≤ 90 then byte + 32 else byte
      (lower = code ':' → byte = code ':') ∧
        (if 65 ≤ lower ∧ lower ≤ 90 then lower + 32 else lower) = lower :=
    Percent.forall_byte (by decide +kernel)
  by_cases present : url.scheme = []
  · rw [present]
    exact ⟨List.not_mem_nil, rfl⟩
  · obtain ⟨scheme, _, _, free, same⟩ := scheme_of_parse parsed present
    rw [same]
    refine ⟨fun member => ?_, ?_⟩
    · obtain ⟨byte, inside, colon⟩ := List.mem_map.mp member
      rw [(bytes byte).1 colon] at inside
      exact free inside
    · unfold toLowercase
      rw [List.map_map]
      exact List.map_congr_left fun byte _ => (bytes byte).2

theorem isLower_of_request {scheme : Bytes} (web : IsRequestScheme scheme) : IsLower scheme := by
  rcases web with rfl | rfl
  · exact ⟨by decide +kernel, by decide +kernel⟩
  · exact ⟨by decide +kernel, by decide +kernel⟩

variable {base target url : UrlParts} {location : Bytes}

theorem isLower_of_resolve (web : IsRequestScheme base.scheme)
    (resolved : base.resolve location = some target) : IsLower target.scheme := by
  obtain ⟨parsed, read, resolved⟩ := Option.bind_eq_some_iff.mp resolved
  obtain ⟨path, _, same⟩ := Option.bind_eq_some_iff.mp resolved
  have scheme : target.scheme = (withBaseScheme base parsed).scheme := by
    rw [← Option.some.inj same]
    dsimp only
    unfold relocated
    dsimp only
    split
    next => rfl
    next =>
      unfold relativeTo
      dsimp only
      split
      next => rfl
      next => rfl
  rw [scheme]
  unfold withBaseScheme
  split
  next => exact isLower_of_request web
  next => exact isLower_of_parse read

/-- The text that is checked has the scheme of the URL that is requested. -/
theorem scheme_of_displayUrl (lower : IsLower target.scheme)
    (parsed : parse target.displayUrl = some url) (present : url.scheme ≠ []) :
    url.scheme = target.scheme := by
  obtain ⟨scheme, rest, whole, free, same⟩ := scheme_of_parse parsed present
  obtain ⟨later, written⟩ : ∃ later, target.displayUrl = target.scheme ++ code ':' :: later := by
    unfold displayUrl
    dsimp only
    split
    next => exact ⟨_, by simp only [List.append_assoc]; rfl⟩
    next => exact ⟨_, by simp only [List.append_assoc]; rfl⟩
  have first : some (scheme, rest) = some (target.scheme, later) := by
    rw [← splitOnce_append free rest, ← whole, written, splitOnce_append lower.free]
  cases first
  rw [same, lower.lower]

/-! ## Permitted URLs -/

variable (libraries : HttpLibraries) (session : NetworkSession)

/-- A URL passes the permissions of a session. -/
structure Permitted (url : UrlParts) : Prop where
  scheme : url.scheme = ascii "https" ∨
    (session.permissionsFor url).allowHttp = true ∧ url.scheme = ascii "http"
  host : url.hostname ≠ []
  domain : (session.permissionsFor url).allowsDomain libraries url.hostname = true
  credentials : url.hasCredentials = false
  reachable : session.allowPrivate = false →
    privateLiteralOrLocal libraries url.hostname = false ∧
      ∀ uri, uriOf libraries url = .ok uri →
        ∀ host ∈ libraries.hostOf uri, privateLiteralOrLocal libraries host = false

theorem guard_eq_ok {ε α : Type} {condition : Prop} [Decidable condition] {error : ε}
    {rest : Except ε α} {value : α} :
    (if condition then .error error else rest) = .ok value ↔ ¬condition ∧ rest = .ok value := by
  split
  next holds => simp [holds]
  next fails => simp [fails]

theorem exists_of_map_eq_ok {ε α β : Type} {change : α → β} {result : Except ε α} {value : β}
    (mapped : result.map change = .ok value) : ∃ found, result = .ok found ∧ change found = value := by
  cases result with
  | error error => cases mapped
  | ok found => exact ⟨found, rfl, Except.ok.inj mapped⟩

variable {libraries session}

theorem permitted_of_validate {input : Bytes} {redirect : Bool}
    (valid : session.validateTarget libraries input redirect = .ok url) :
    parse input = some url ∧ Permitted libraries session url := by
  unfold NetworkSession.validateTarget at valid
  split at valid
  next => cases valid
  next found parsed =>
    unfold NetworkPermissions.validate at valid
    rw [parsed] at valid
    simp only [guard_eq_ok] at valid
    obtain ⟨_, scheme, credentials, host, near, domain, far, valid⟩ := valid
    split at valid
    next => cases valid
    next uri built =>
      obtain ⟨outside, same⟩ := guard_eq_ok.mp valid
      cases same
      refine ⟨parsed, ?_, host, by simpa using domain, by simpa using credentials, ?_⟩
      · by_cases secure : url.scheme = ascii "https"
        · exact .inl secure
        · exact .inr (not_not.mp fun plain => scheme ⟨secure, plain⟩)
      · intro closed
        rw [closed] at near far outside
        constructor
        · cases redirect <;> simp_all
        · intro other builds address named
          rw [built] at builds
          cases builds
          rw [named] at outside
          simpa using outside

theorem Permitted.web (permitted : Permitted libraries session url) :
    IsRequestScheme url.scheme :=
  permitted.scheme.elim .inr fun plain => .inl plain.2

/-- A redirect leads to a URL that passes the permissions itself. -/
theorem permitted_of_redirectTarget (sound : base.Sound)
    (permitted : Permitted libraries session base)
    (redirects : session.redirectTarget libraries base location = .ok target) :
    target.Sound ∧ Permitted libraries session target := by
  unfold NetworkSession.redirectTarget at redirects
  obtain ⟨_, redirects⟩ := guard_eq_ok.mp redirects
  split at redirects
  next => cases redirects
  next found resolved =>
    obtain ⟨credentials, redirects⟩ := guard_eq_ok.mp redirects
    obtain ⟨url, valid, rfl⟩ := exists_of_map_eq_ok redirects
    obtain ⟨parsed, passes⟩ := permitted_of_validate valid
    have present : url.scheme ≠ [] := by
      rcases passes.web with plain | secure
      · rw [plain]
        exact List.cons_ne_nil _ _
      · rw [secure]
        exact List.cons_ne_nil _ _
    have web := passes.web
    rw [scheme_of_displayUrl (isLower_of_resolve permitted.web resolved) parsed present] at web
    have isResolved := isResolved_resolve sound resolved
    rw [parse_displayUrl isResolved web] at parsed
    split at parsed
    next =>
      cases parsed
      refine ⟨isResolved.sound, passes.scheme, passes.host, passes.domain,
        by simpa using credentials, fun closed => ⟨(passes.reachable closed).1, ?_⟩⟩
      intro uri built
      have same := (seenAlike_reparsed isResolved).uri libraries.asciiHost libraries.buildUri
      exact (passes.reachable closed).2 uri (same.trans built)
    next => cases parsed

/-! ## Turns -/

/-- The credentials of a request, apart from its cookies. -/
def credentialHeaders : List Bytes :=
  ["authorization", "www-authenticate", "proxy-authorization", "proxy-authenticate",
    "cookie2"].map ascii

theorem insert_other {headers : HeaderMap} {name other value : Bytes} (differs : other ≠ name) :
    headers.insert name value other = headers other :=
  if_neg differs

/-- Only cookies and the encoding are added to the headers of a turn. -/
theorem outgoing_credential {headers outgoing : HeaderMap} {method cookies : Bytes}
    {compression : Bool}
    (goes : outgoingHeaders libraries headers method cookies compression = .ok outgoing) :
    ∀ name ∈ credentialHeaders, outgoing name = headers name := by
  intro name among
  have others : ∀ name ∈ credentialHeaders,
      name ≠ ascii "cookie" ∧ name ≠ ascii "accept-encoding" := by decide +kernel
  unfold outgoingHeaders at goes
  obtain ⟨found, added, same⟩ := exists_of_map_eq_ok goes
  have kept : found name = headers name := by
    split at added
    next =>
      cases added
      rfl
    next =>
      obtain ⟨value, _, rfl⟩ := exists_of_map_eq_ok added
      exact insert_other (others name among).1
  rw [← same]
  split
  next => rw [insert_other (others name among).2, kept]
  next => exact kept

theorem updateExplicitCookies_other {headers response : HeaderMap} {name : Bytes}
    (other : name ≠ ascii "cookie") :
    updateExplicitCookies libraries headers response name = headers name := by
  unfold updateExplicitCookies
  generalize headers.text "cookie" = explicit
  cases explicit with
  | none => rfl
  | some original =>
    dsimp only
    split
    next => rfl
    next => exact insert_other other

variable {hop : PreparedRequest} (response : Response) (target : UrlParts)

/-- A redirect keeps a credential or drops it, and drops it beyond the host it was given for. -/
theorem redirected_credential {name : Bytes} (among : name ∈ credentialHeaders) :
    (redirected libraries hop response target).headers name =
      if forwardSensitiveHeaders libraries hop.original.hostname target.hostname then
        hop.headers name else [] := by
  let content := ["content-encoding", "content-language", "content-location",
    "content-type"].map ascii
  have apart : ∀ name ∈ credentialHeaders, name ≠ ascii "cookie" ∧ name ≠ ascii "referer" ∧
      name ∈ sensitiveHeaders ∧ name ∉ content := by decide +kernel
  obtain ⟨cookie, referer, sensitive, contentless⟩ := apart name among
  have described (other : Bool) (headers : HeaderMap) :
      (if other = true then headers.without content else headers) name = headers name := by
    split
    next => exact if_neg contentless
    next => rfl
  unfold redirected
  extract_lets other first second third fourth
  have kept : third name =
      if forwardSensitiveHeaders libraries hop.original.hostname target.hostname then
        hop.headers name else [] := by
    unfold third
    split
    next => exact (described other first).trans (updateExplicitCookies_other cookie)
    next => exact if_pos sensitive
  rw [← kept]
  show fourth name = third name
  unfold fourth
  split
  next => exact if_neg fun member => referer (List.mem_singleton.mp member)
  next =>
    cases hop.explicitReferer with
    | some value => exact insert_other referer
    | none =>
      cases libraries.headerValue hop.url.displayUrl with
      | ok value => exact insert_other referer
      | error message => rfl

/-- What a request carries. -/
structure Message where
  method : Bytes
  body : Bytes
  headers : HeaderMap

/-- The message of the state. -/
def PreparedRequest.message (hop : PreparedRequest) : Message :=
  ⟨hop.method, hop.body, hop.headers⟩

/-- The message of a request. -/
def Sent.message {Uri : Type} (sent : Sent Uri) : Message :=
  ⟨sent.method, sent.body, sent.headers⟩

/-- A message repeats an earlier one, or drops its body or credentials. -/
structure Repeats (earlier later : Message) : Prop where
  body : later.method = earlier.method ∧ later.body = earlier.body ∨
    later.body = [] ∧ (later.method = earlier.method ∨ later.method = ascii "GET")
  headers : ∀ name ∈ credentialHeaders,
    later.headers name = earlier.headers name ∨ later.headers name = []

theorem Repeats.trans {first second third : Message} (one : Repeats first second)
    (two : Repeats second third) : Repeats first third := by
  constructor
  · rcases two.body with ⟨method, body⟩ | ⟨empty, method | get⟩
    · rw [method, body]
      exact one.body
    · refine .inr ⟨empty, ?_⟩
      rw [method]
      exact one.body.elim (fun same => .inl same.1) And.right
    · exact .inr ⟨empty, .inr get⟩
  · intro name among
    rcases two.headers name among with same | empty
    · rw [same]
      exact one.headers name among
    · exact .inr empty

theorem repeats_redirected :
    Repeats hop.message (redirected libraries hop response target).message := by
  constructor
  · unfold redirected PreparedRequest.message
    dsimp only
    cases 301 ≤ response.status && response.status ≤ 303 with
    | false => exact .inl ⟨rfl, rfl⟩
    | true =>
      refine .inr ⟨rfl, ?_⟩
      split
      next => exact .inr rfl
      next => exact .inl rfl
  · intro name among
    have same : (redirected libraries hop response target).headers name = _ :=
      redirected_credential response target among
    split at same
    next => exact .inl same
    next => exact .inr same

namespace Exchange

variable {exchange : Exchange} {index : Nat} {jar : CookieJar}

/-- A request goes out as its turn has it. -/
structure Sends (exchange : Exchange) (hop : PreparedRequest)
    (sent : Sent exchange.libraries.Uri) : Prop where
  method : sent.method = hop.method
  body : sent.body = hop.body
  headers : ∀ name ∈ credentialHeaders, sent.headers name = hop.headers name
  url : sent.url = hop.url ∧ uriOf exchange.libraries hop.url = .ok sent.uri ∨
    exchange.session.allowHttpFallback = true ∧ exchange.session.permissions = none ∧
      sent.url = { hop.url with scheme := ascii "http" }

theorem Sends.repeats {sent : Sent exchange.libraries.Uri} (goes : exchange.Sends hop sent) :
    Repeats hop.message sent.message ∧ Repeats sent.message hop.message :=
  ⟨⟨.inl ⟨goes.method, goes.body⟩, fun name among => .inl (goes.headers name among)⟩,
    ⟨.inl ⟨goes.method.symm, goes.body.symm⟩,
      fun name among => .inl (goes.headers name among).symm⟩⟩

theorem sends_of_send {uri : exchange.libraries.Uri} {outgoing : HeaderMap}
    (built : uriOf exchange.libraries hop.url = .ok uri)
    (headers : ∀ name ∈ credentialHeaders, outgoing name = hop.headers name) :
    ∀ sent ∈ (exchange.send index hop uri outgoing).1, exchange.Sends hop sent := by
  have first : exchange.Sends hop ⟨hop.url, uri, hop.method, hop.body, outgoing⟩ :=
    ⟨rfl, rfl, headers, .inl ⟨rfl, built⟩⟩
  intro sent member
  unfold send at member
  dsimp only at member
  split at member
  next => rwa [List.mem_singleton.mp member]
  next =>
    split at member
    next fallback =>
      simp only [Bool.and_eq_true, Option.isNone_iff_eq_none] at fallback
      split at member
      next => rwa [List.mem_singleton.mp member]
      next =>
        rcases List.mem_pair.mp member with rfl | rfl
        · exact first
        · exact ⟨rfl, rfl, headers, .inr ⟨fallback.1.1.1, fallback.1.1.2, rfl⟩⟩
    next => rwa [List.mem_singleton.mp member]

/-- What goes out in a turn, and what is handed on to the next one. -/
theorem turn_spec (exchange : Exchange) (index : Nat) (jar : CookieJar) (hop : PreparedRequest) :
    (∀ sent ∈ (exchange.turn index jar hop).sent, exchange.Sends hop sent) ∧
      ∀ next after, (exchange.turn index jar hop).next = some (next, after) →
        ∃ response location target,
          exchange.session.redirectTarget exchange.libraries hop.url location = .ok target ∧
            next = redirected exchange.libraries hop response target := by
  unfold turn
  dsimp only
  split
  next => exact ⟨fun _ => nofun, fun _ _ => nofun⟩
  next => exact ⟨fun _ => nofun, fun _ _ => nofun⟩
  next uri outgoing built goes =>
    split
    next => exact ⟨sends_of_send built (outgoing_credential goes), fun _ _ => nofun⟩
    next response responseUrl _ =>
      refine ⟨sends_of_send built (outgoing_credential goes), fun next after handed => ?_⟩
      dsimp only at handed
      unfold settle at handed
      split at handed
      next => cases handed
      next =>
        split at handed
        next => cases handed
        next location _ =>
          split at handed
          next => cases handed
          next target redirects =>
            cases handed
            exact ⟨response, location, target, redirects, rfl⟩

/-! ## Runs -/

/-- What each turn keeps holds of all that a run sends. -/
theorem follow_all (Keeps : PreparedRequest → Prop) {Good : Sent exchange.libraries.Uri → Prop}
    (sends : ∀ hop sent, Keeps hop → exchange.Sends hop sent → Good sent)
    (moves : ∀ hop response location target, Keeps hop →
      exchange.session.redirectTarget exchange.libraries hop.url location = .ok target →
        Keeps (redirected exchange.libraries hop response target))
    (left index : Nat) (jar : CookieJar) (keeps : Keeps hop) :
    ∀ sent ∈ (exchange.follow left index jar hop).1, Good sent := by
  induction left generalizing index jar hop with
  | zero =>
    obtain ⟨goes, _⟩ := exchange.turn_spec index jar hop
    exact fun sent member => sends hop sent keeps (goes sent member)
  | succ left ih =>
    obtain ⟨goes, moved⟩ := exchange.turn_spec index jar hop
    have now := fun sent member => sends hop sent keeps (goes sent member)
    rw [follow]
    dsimp only
    split
    next next after handed =>
      obtain ⟨response, location, target, redirects, rfl⟩ := moved next after handed
      intro sent member
      rcases List.mem_append.mp member with first | behind
      · exact now sent first
      · exact ih (index + 1) after (moves hop response location target keeps redirects) sent behind
    next => exact now

/-- Each request of a run repeats all that go before it. -/
theorem follow_pairwise (left index : Nat) (jar : CookieJar) :
    (exchange.follow left index jar hop).1.Pairwise fun earlier later =>
      Repeats earlier.message later.message := by
  have together {hop : PreparedRequest} {turned : List (Sent exchange.libraries.Uri)}
      (goes : ∀ sent ∈ turned, exchange.Sends hop sent) :
      turned.Pairwise fun earlier later => Repeats earlier.message later.message :=
    List.pairwise_of_forall_mem_list fun earlier one later two =>
      (goes earlier one).repeats.2.trans (goes later two).repeats.1
  induction left generalizing index jar hop with
  | zero => exact together (exchange.turn_spec index jar hop).1
  | succ left ih =>
    obtain ⟨goes, moved⟩ := exchange.turn_spec index jar hop
    rw [follow]
    dsimp only
    split
    next next after handed =>
      obtain ⟨response, location, target, redirects, rfl⟩ := moved next after handed
      refine List.pairwise_append.mpr ⟨together goes, ih (index + 1) after, ?_⟩
      intro earlier one
      refine follow_all (fun found => Repeats hop.message found.message)
        (fun found sent repeats going => ?_) (fun found answer _ other repeats _ => ?_) left
        (index + 1) after (repeats_redirected response target)
      · exact (goes earlier one).repeats.2.trans (repeats.trans going.repeats.1)
      · exact repeats.trans (repeats_redirected answer other)
    next => exact together goes

variable (exchange)

/-- What is promised of the places that requests go to. -/
structure StaysInside (sent : List (Sent exchange.libraries.Uri)) : Prop where
  permitted : ∀ one ∈ sent, ∃ url, Permitted exchange.libraries exchange.session url ∧
    (one.url = url ∧ uriOf exchange.libraries url = .ok one.uri ∨
      exchange.session.allowHttpFallback = true ∧ exchange.session.permissions = none ∧
        one.url = { url with scheme := ascii "http" })

/-- What is promised of the messages that go out; the first URL is the one that was asked for. -/
structure KeepsSecrets (first : Option UrlParts) (sent : List (Sent exchange.libraries.Uri)) :
    Prop where
  credentials : ∀ one ∈ sent, ∀ name ∈ credentialHeaders, one.headers name = [] ∨
    ∃ url ∈ first, forwardSensitiveHeaders exchange.libraries url.hostname one.url.hostname = true
  repeats : sent.Pairwise fun earlier later => Repeats earlier.message later.message

theorem prepareRequest_spec {request : HttpRequest} {prepared : PreparedRequest}
    (prepares : prepareRequest libraries session request = .ok prepared) :
    parse request.url = some prepared.url ∧ Permitted libraries session prepared.url ∧
      prepared.original = prepared.url := by
  unfold prepareRequest at prepares
  split at prepares
  next => cases prepares
  next url valid =>
    obtain ⟨_, prepares⟩ := guard_eq_ok.mp prepares
    obtain ⟨headers, _, same⟩ := exists_of_map_eq_ok prepares
    obtain ⟨parsed, permitted⟩ := permitted_of_validate valid
    rw [← same]
    exact ⟨parsed, permitted, rfl⟩

/-- Every URL that is requested passes the permissions itself, though a redirect checks the text
that is written for it; only without permissions is a failed try repeated over HTTP. -/
theorem executeStream_staysInside (jar : CookieJar) (request : HttpRequest) :
    exchange.StaysInside (exchange.executeStream jar request).1 := by
  unfold executeStream
  split
  next => exact ⟨fun _ => nofun⟩
  next prepared prepares =>
    obtain ⟨parsed, permitted, _⟩ := prepareRequest_spec prepares
    exact ⟨follow_all
      (fun hop => hop.url.Sound ∧ Permitted exchange.libraries exchange.session hop.url)
      (fun hop _ keeps goes => ⟨hop.url, keeps.2, goes.url⟩)
      (fun _ _ _ _ keeps redirects => permitted_of_redirectTarget keeps.1 keeps.2 redirects) 9 0
      jar ⟨sound_parse parsed, permitted⟩⟩

/-- Credentials go to the host they were given for and those below it, and never to another host
and back; each request repeats all before it or goes without their body or credentials. -/
theorem executeStream_keepsSecrets (jar : CookieJar) (request : HttpRequest) :
    exchange.KeepsSecrets (parse request.url) (exchange.executeStream jar request).1 := by
  unfold executeStream
  split
  next => exact ⟨fun _ => nofun, .nil⟩
  next prepared prepares =>
    obtain ⟨parsed, _, same⟩ := prepareRequest_spec prepares
    let below (host : Bytes) : Prop :=
      forwardSensitiveHeaders exchange.libraries prepared.url.hostname host = true
    have begins : below prepared.url.hostname := by
      unfold below forwardSensitiveHeaders
      dsimp only
      rw [decide_eq_true rfl, Bool.true_or]
    rw [parsed]
    refine ⟨follow_all (fun hop => hop.original = prepared.url ∧
      ∀ name ∈ credentialHeaders, hop.headers name = [] ∨ below hop.url.hostname) ?_ ?_ 9 0 jar
      ⟨same, fun _ _ => .inr begins⟩, follow_pairwise 9 0 jar⟩
    · intro hop sent keeps goes name among
      have host : sent.url.hostname = hop.url.hostname := by
        rcases goes.url with ⟨same, _⟩ | ⟨_, _, same⟩
        · rw [same]
        · rw [same]
      rw [goes.headers name among, host]
      exact (keeps.2 name among).imp_right fun inside => ⟨prepared.url, rfl, inside⟩
    · intro hop response _ target keeps _
      refine ⟨keeps.1, fun name among => ?_⟩
      rw [redirected_credential response target among, keeps.1]
      split
      next inside => exact .inr inside
      next => exact .inl rfl

end Exchange
end LosslessMusic.Network
