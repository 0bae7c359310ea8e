import LosslessMusic.Network.Authorities

/-!
# The URL of a redirect

A redirect resolves a location against the URL of the request, checks the text that
`display_url` writes, and requests the resolved URL itself. The text is parsed again into the
URL that is requested whenever it is parsed at all.
-/

namespace LosslessMusic.Network

open Codec Address UrlParts

/-! ## Resolved paths -/

/-- A resolved path is empty or begins at the root. -/
def IsRooted (path : Bytes) : Prop :=
  path = [] ∨ path.head? = some (code '/')

theorem withoutLast_head {result : Bytes} (rooted : result.head? = some (code '/')) :
    (withoutLast result).head? = some (code '/') := by
  cases result with
  | nil => cases rooted
  | cons byte rest =>
    unfold withoutLast
    split
    next => exact rooted
    next => exact rooted

theorem step_head (state : Resolving) (part : Bytes)
    (rooted : state.result.head? = some (code '/')) :
    (state.step part).result.head? = some (code '/') := by
  obtain ⟨later, same⟩ : ∃ later, state.result = code '/' :: later := List.head?_eq_some_iff.mp rooted
  unfold Resolving.step
  split
  next => exact rooted
  next =>
    split
    next => exact withoutLast_head rooted
    next =>
      dsimp only
      split
      next => rw [same]; rfl
      next => rw [same]; rfl

theorem foldl_head (parts : List Bytes) (state : Resolving)
    (rooted : state.result.head? = some (code '/')) :
    (parts.foldl Resolving.step state).result.head? = some (code '/') := by
  induction parts generalizing state with
  | nil => exact rooted
  | cons part later ih =>
    exact ih (state.step part) (step_head state part rooted)

theorem isRooted_resolvePath (base reference : Bytes) : IsRooted (resolvePath base reference) := by
  unfold resolvePath
  extract_lets full state result
  split
  next isEmpty => exact .inl (List.isEmpty_iff.mp isEmpty)
  next =>
    have rooted : state.result.head? = some (code '/') := foldl_head _ _ rfl
    have extended : result.head? = some (code '/') := by
      obtain ⟨later, same⟩ := List.head?_eq_some_iff.mp rooted
      unfold result
      split
      next => rw [same]; rfl
      next => exact rooted
    refine .inr ?_
    split
    next double =>
      obtain ⟨later, same⟩ := List.isPrefixOf_iff_prefix.mp double
      rw [← same]
      rfl
    next => exact extended

/-! ## Resolved URLs -/

/-- What `resolve` keeps of the two URLs. -/
structure IsResolved (target : UrlParts) : Prop where
  sound : target.Sound
  rooted : IsRooted target.rawPath
  path : decode target.rawPath .path = some target.path

variable {target base : UrlParts}

theorem sound_relativeTo (sound : base.Sound) (parsed : target.Sound) :
    (relativeTo base target).Sound := by
  unfold relativeTo
  split
  next inherits =>
    obtain ⟨both, _⟩ := Bool.and_eq_true_iff.mp inherits
    have free : target.forceQuery = false := by
      simpa using (Bool.and_eq_true_iff.mp both).2
    refine ⟨?_, sound.query, fun forced => ?_, sound.port, sound.hostname⟩
    · dsimp only
      split
      next => exact sound.fragment
      next => exact parsed.fragment
    · rw [free] at forced
      cases forced
  next => exact ⟨parsed.fragment, parsed.query, parsed.forced, sound.port, sound.hostname⟩

theorem sound_withBaseScheme (base : UrlParts) (parsed : target.Sound) :
    (withBaseScheme base target).Sound := by
  unfold withBaseScheme
  split
  next => exact ⟨parsed.fragment, parsed.query, parsed.forced, parsed.port, parsed.hostname⟩
  next => exact parsed

theorem sound_relocated (sound : base.Sound) (parsed : target.Sound) :
    (relocated base target).Sound := by
  have schemed := sound_withBaseScheme base parsed
  unfold relocated
  dsimp only
  split
  next => exact ⟨schemed.fragment, schemed.query, schemed.forced, schemed.port, schemed.hostname⟩
  next => exact sound_relativeTo sound schemed

theorem isRooted_relocated (base target : UrlParts) : IsRooted (relocated base target).rawPath := by
  unfold relocated
  dsimp only
  split
  next => exact isRooted_resolvePath _ _
  next => exact isRooted_resolvePath _ _

/-- A resolved URL is sound, and its path is read as it is written. -/
theorem isResolved_resolve {location : Bytes} (sound : base.Sound)
    (resolved : base.resolve location = some target) : IsResolved target := by
  obtain ⟨parsed, read, resolved⟩ := Option.bind_eq_some_iff.mp resolved
  obtain ⟨path, decoded, same⟩ := Option.bind_eq_some_iff.mp resolved
  have merged := sound_relocated sound (sound_parse read)
  rw [← Option.some.inj same]
  exact ⟨⟨merged.fragment, merged.query, merged.forced, merged.port, merged.hostname⟩,
    isRooted_relocated base parsed, decoded⟩

/-! ## The written path and query -/

theorem isRawByte_of_isHexDigit : ∀ byte : UInt8, isHexDigit byte → isRawByte byte :=
  Percent.forall_byte (by decide +kernel)

theorem isRawByte_of_kept (byte : UInt8)
    (kept : isAsciiAlphanumeric byte || (ascii "-._~$&+,/:;=@").contains byte) : isRawByte byte := by
  have listed : ∀ byte ∈ ascii "-._~$&+,/:;=@", isRawByte byte := by decide +kernel
  rcases Bool.or_eq_true_iff.mp kept with alphanumeric | inList
  · rw [isRawByte, alphanumeric, Bool.true_or]
  · exact listed byte (List.contains_iff_mem.mp inList)

theorem isControl_of_accepted {accepts : UInt8 → Bool} {byte : UInt8} (accepted : accepts byte)
    (low : ∀ number < 32, accepts (UInt8.ofNat number) = false) (last : accepts 127 = false) :
    isControl byte = false := by
  rw [isControl, Bool.or_eq_false_iff, decide_eq_false_iff_not, beq_eq_false_iff_ne]
  constructor
  · intro small
    have refused := low byte.toNat (UInt8.lt_iff_toNat_lt.mp small)
    rw [UInt8.ofNat_toNat, accepted] at refused
    cases refused
  · rintro rfl
    rw [accepted] at last
    cases last

theorem isRawByte_clean (byte : UInt8) (raw : isRawByte byte) :
    byte ≠ code '#' ∧ byte ≠ code '?' ∧ isControl byte = false := by
  refine ⟨?_, ?_, isControl_of_accepted raw (by decide) (by decide)⟩
  all_goals
    rintro rfl
    exact absurd raw (by decide)

theorem isRawByte_escapedPath (url : UrlParts) : ∀ byte ∈ url.escapedPath, isRawByte byte := by
  unfold escapedPath
  split
  next raw => exact fun byte member => List.all_eq_true.mp raw byte member
  next =>
    intro byte member
    obtain ⟨_, keeps⟩ | sign | ⟨other, high | low⟩ := Percent.mem_encode member
    · exact isRawByte_of_kept byte keeps
    · rw [sign]
      decide
    · rw [high]
      exact isRawByte_of_isHexDigit _ (isHexDigit_hexDigit other).1
    · rw [low]
      exact isRawByte_of_isHexDigit _ (isHexDigit_hexDigit other).2

variable {url : UrlParts}

theorem decode_escapedPath {path : Bytes} (decoded : decode url.rawPath .path = some path) :
    decode url.escapedPath .path = some path := by
  unfold escapedPath
  split
  next => exact decoded
  next =>
    rw [decoded, Option.getD_some, decode, Percent.decode_encode (by decide)]
    refine if_pos fun byte _ => ?_
    unfold Percent.passes
    split
    next => rfl
    next => rfl

/-- A written path is empty or rooted with the path that it writes. -/
theorem escapedPath_rooted (resolved : IsResolved url) :
    url.rawPath = [] ∧ url.escapedPath = [] ∨
      url.rawPath ≠ [] ∧ ∃ rest, url.escapedPath = code '/' :: rest := by
  cases resolved.rooted with
  | inl empty =>
    refine .inl ⟨empty, ?_⟩
    rw [escapedPath, empty]
    rfl
  | inr rooted =>
    obtain ⟨later, same⟩ := List.head?_eq_some_iff.mp rooted
    refine .inr ⟨by rw [same]; exact List.cons_ne_nil _ _, ?_⟩
    have decoded := resolved.path
    rw [same, decode, Percent.decode_plain (by decide), if_pos (by decide)] at decoded
    obtain ⟨bytes, _, whole⟩ := Option.map_eq_some_iff.mp decoded
    unfold escapedPath
    split
    next => exact ⟨later, same⟩
    next =>
      rw [resolved.path, ← whole, Option.getD_some, Percent.encode_cons, if_pos (by decide)]
      exact ⟨_, rfl⟩

theorem queryPart_clean (sound : url.Sound) :
    ∀ byte ∈ url.queryPart, byte ≠ code '#' ∧ isControl byte = false := by
  unfold queryPart
  split
  next =>
    intro byte member
    cases List.mem_append.mp member with
    | inl mark =>
      rw [List.mem_singleton.mp mark]
      decide
    | inr inside => exact sound.query byte inside
  next => exact fun byte member => absurd member List.not_mem_nil

theorem splitQuery (sound : url.Sound) {text : Bytes} (noMark : code '?' ∉ text) :
    (splitOnce (code '?') (text ++ url.queryPart)).getD (text ++ url.queryPart, []) =
        (text, url.rawQuery) ∧
      ((text ++ url.queryPart).getLast? == some (code '?') && url.rawQuery.isEmpty) =
        url.forceQuery := by
  cases forced : url.forceQuery with
  | true =>
    have part : url.queryPart = [code '?'] := by
      rw [queryPart, forced, sound.forced forced]
      rfl
    rw [part, splitOnce_append noMark, sound.forced forced, List.getLast?_concat]
    exact ⟨rfl, rfl⟩
  | false =>
    cases query : url.rawQuery with
    | nil =>
      have part : url.queryPart = [] := by
        rw [queryPart, forced, query]
        rfl
      have last : (text.getLast? == some (code '?')) = false :=
        beq_eq_false_iff_ne.mpr fun same => noMark (List.mem_of_getLast? same)
      rw [part, List.append_nil, splitOnce_of_notMem noMark, last]
      exact ⟨rfl, rfl⟩
    | cons byte rest =>
      have part : url.queryPart = code '?' :: byte :: rest := by
        rw [queryPart, forced, query]
        rfl
      rw [part, splitOnce_append noMark, List.isEmpty_cons, Bool.and_false]
      exact ⟨rfl, rfl⟩

/-! ## The written URL -/

theorem scanScheme_cons {seen : Bytes} {byte : UInt8} (rest : Bytes)
    (alphabetic : isAsciiAlphabetic byte) (noColon : byte ≠ code ':') :
    scanScheme seen (byte :: rest) = scanScheme (seen ++ [byte]) rest := by
  rw [scanScheme, if_neg noColon, alphabetic, Bool.true_or, if_pos rfl]

theorem scanScheme_append {seen scheme : Bytes} (rest : Bytes)
    (alphabetic : ∀ byte ∈ scheme, isAsciiAlphabetic byte ∧ byte ≠ code ':')
    (some : seen ++ scheme ≠ []) :
    scanScheme seen (scheme ++ code ':' :: rest) = .some (seen ++ scheme, rest) := by
  induction scheme generalizing seen with
  | nil =>
    rw [List.append_nil] at some
    rw [List.nil_append, List.append_nil, scanScheme, if_pos rfl, if_neg some]
  | cons byte later ih =>
    obtain ⟨first, others⟩ := List.forall_mem_cons.mp alphabetic
    rw [List.cons_append, scanScheme_cons _ first.1 first.2, ih others (by simp), List.append_assoc]
    rfl

/-- A scheme of requests. -/
def IsRequestScheme (scheme : Bytes) : Prop :=
  scheme = ascii "http" ∨ scheme = ascii "https"

theorem IsRequestScheme.web {scheme : Bytes} (web : IsRequestScheme scheme) :
    isWeb scheme = true ∧ toLowercase scheme = scheme ∧ scheme.isEmpty = false ∧
      ∀ byte ∈ scheme, isAsciiAlphabetic byte ∧ byte ≠ code ':' := by
  cases web with
  | inl http =>
    rw [http]
    decide +kernel
  | inr https =>
    rw [https]
    decide +kernel

/-- What the written URL is parsed into. -/
def reparsed (url : UrlParts) : UrlParts :=
  { scheme := url.scheme, hostname := url.hostname,
    path := if url.rawPath = [] then ascii "/" else url.path, rawPath := url.escapedPath,
    rawQuery := url.rawQuery, forceQuery := url.forceQuery,
    fragment := escape url.fragment false, port := shownPort url.port, hasCredentials := false,
    host := url.authority, username := [], password := none, opaquePart := [],
    omitHost := false }

theorem isHostText_clean (byte : UInt8) (shown : isHostText byte) :
    byte ≠ code '#' ∧ byte ≠ code '?' ∧ byte ≠ code '/' ∧ isControl byte = false := by
  refine ⟨?_, ?_, ?_, isControl_of_accepted shown (by decide) (by decide)⟩
  all_goals
    rintro rfl
    exact absurd shown (by decide)

theorem parseParts_display (resolved : IsResolved url) (web : IsRequestScheme url.scheme) :
    parseParts url.scheme (ascii "//" ++ escape url.authority true ++ url.escapedPath)
        url.rawQuery url.forceQuery (escape url.fragment false) =
      if isShown url.hostname then some (reparsed url) else none := by
  obtain ⟨isWebScheme, lower, nonempty, _⟩ := web.web
  have noSlash : ∀ byte ∈ escape url.authority true, (byte != code '/') = true := by
    intro byte member
    exact bne_iff_ne.mpr (isHostText_clean byte (isHostText_escape byte member)).2.2.1
  have parts : (escape url.authority true ++ url.escapedPath).takeWhile (· != code '/') =
        escape url.authority true ∧
      (escape url.authority true ++ url.escapedPath).dropWhile (· != code '/') =
        url.escapedPath := by
    rw [List.takeWhile_append_of_pos noSlash, List.dropWhile_append_of_pos noSlash]
    obtain ⟨_, empty⟩ | ⟨_, rest, rooted⟩ := escapedPath_rooted resolved
    · rw [empty]
      exact ⟨List.append_nil _, rfl⟩
    · rw [rooted]
      exact ⟨List.append_nil _, rfl⟩
  have split : splitAuthority url.scheme
      (ascii "//" ++ escape url.authority true ++ url.escapedPath) =
        (parseAuthority (escape url.authority true) url.scheme).map fun parsed =>
          (parsed, url.escapedPath) := by
    have doubled : (ascii "//").isPrefixOf
        (ascii "//" ++ escape url.authority true ++ url.escapedPath) = true := rfl
    rw [splitAuthority, nonempty, doubled, Bool.not_false, Bool.true_or, Bool.true_and,
      if_pos rfl, List.append_assoc]
    have dropped : (ascii "//" ++ (escape url.authority true ++ url.escapedPath)).drop 2 =
        escape url.authority true ++ url.escapedPath := rfl
    dsimp only
    rw [dropped, parts.1, parts.2]
  rw [parseParts, split, parseAuthority_authority resolved.sound isWebScheme]
  by_cases shown : isShown url.hostname
  · have path : (if url.escapedPath.isEmpty then some (ascii "/")
        else decode url.escapedPath .path) =
          some (if url.rawPath = [] then ascii "/" else url.path) := by
      obtain ⟨empty, written⟩ | ⟨some, rest, rooted⟩ := escapedPath_rooted resolved
      · rw [written, if_pos empty]
        rfl
      · rw [if_neg some, ← decode_escapedPath resolved.path, rooted]
        rfl
    have noOmission : (!url.scheme.isEmpty && (ascii "/").isPrefixOf
        (ascii "//" ++ escape url.authority true ++ url.escapedPath) && !(ascii "//").isPrefixOf
            (ascii "//" ++ escape url.authority true ++ url.escapedPath)) = false := by
      rw [nonempty]
      rfl
    rw [if_pos shown, if_pos shown]
    simp only [Option.map_some, bind, Option.bind, path, noOmission, lower, reparsed]
  · rw [if_neg shown, if_neg shown]
    rfl

theorem display_clean (resolved : IsResolved url) (web : IsRequestScheme url.scheme) :
    ∀ byte ∈ url.scheme ++ ascii "://" ++ escape url.authority true ++ url.escapedPath ++
      url.queryPart, byte ≠ code '#' ∧ isControl byte = false := by
  have scheme : ∀ byte ∈ url.scheme ++ ascii "://", byte ≠ code '#' ∧ isControl byte = false := by
    cases web with
    | inl http =>
      rw [http]
      decide +kernel
    | inr https =>
      rw [https]
      decide +kernel
  intro byte member
  obtain before | query := List.mem_append.mp member
  · obtain before | path := List.mem_append.mp before
    · obtain before | host := List.mem_append.mp before
      · exact scheme byte before
      · have clean := isHostText_clean byte (isHostText_escape byte host)
        exact ⟨clean.1, clean.2.2.2⟩
    · have clean := isRawByte_clean byte (isRawByte_escapedPath url byte path)
      exact ⟨clean.1, clean.2.2⟩
  · exact queryPart_clean resolved.sound byte query

theorem digits_kept : ∀ byte : UInt8, (Percent.digit? byte).isSome → isKept false byte :=
  Percent.forall_byte (by decide +kernel)

theorem splitFragment {body : Bytes} (noMark : code '#' ∉ body) :
    (splitOnce (code '#') (if !url.fragment.isEmpty then
        body ++ ascii "#" ++ escape url.fragment false else body)).getD
      (if !url.fragment.isEmpty then body ++ ascii "#" ++ escape url.fragment false else body, []) =
      (body, escape url.fragment false) := by
  cases fragment : url.fragment with
  | nil =>
    have plain : (if !([] : Bytes).isEmpty then body ++ ascii "#" ++ escape [] false else body) =
        body := rfl
    rw [plain, splitOnce_of_notMem noMark]
    rfl
  | cons byte rest =>
    have marked : (if !(byte :: rest).isEmpty then
        body ++ ascii "#" ++ escape (byte :: rest) false else body) =
          body ++ code '#' :: escape (byte :: rest) false :=
      List.append_assoc _ _ _
    rw [marked, splitOnce_append noMark]
    rfl

/-- The written URL is parsed into the URL, if its host name can be written. -/
theorem parse_displayUrl (resolved : IsResolved url) (web : IsRequestScheme url.scheme) :
    parse url.displayUrl = if isShown url.hostname then some (reparsed url) else none := by
  let text := ascii "//" ++ escape url.authority true ++ url.escapedPath
  let body := url.scheme ++ ascii "://" ++ escape url.authority true ++ url.escapedPath ++
    url.queryPart
  obtain ⟨_, _, nonempty, alphabetic⟩ := web.web
  have clean := display_clean resolved web
  have split : (splitOnce (code '#') url.displayUrl).getD (url.displayUrl, []) =
      (body, escape url.fragment false) :=
    splitFragment fun member => (clean _ member).1 rfl
  have noControl : body.any isControl = false :=
    List.any_eq_false.mpr fun byte member => by rw [(clean byte member).2]; exact Bool.false_ne_true
  have fragment : (decode (escape url.fragment false) .path).isSome :=
    Percent.decode_encode_of_decode (by decide) digits_kept (fun _ => rfl) resolved.sound.fragment
  obtain ⟨fragmentBytes, fragmentRead⟩ := Option.isSome_iff_exists.mp fragment
  have scanned : scanScheme [] body = some (url.scheme, text ++ url.queryPart) := by
    have whole : body = url.scheme ++ code ':' :: (text ++ url.queryPart) := by
      simp only [body, text, List.append_assoc]
      rfl
    rw [whole]
    refine scanScheme_append _ alphabetic ?_
    intro empty
    rw [List.nil_append] at empty
    rw [empty] at nonempty
    cases nonempty
  have noMark : code '?' ∉ text := by
    intro member
    obtain before | path := List.mem_append.mp member
    · obtain slashes | host := List.mem_append.mp before
      · exact absurd slashes (by decide)
      · exact (isHostText_clean _ (isHostText_escape _ host)).2.1 rfl
    · exact (isRawByte_clean _ (isRawByte_escapedPath url _ path)).2.1 rfl
  obtain ⟨querySplit, forced⟩ := splitQuery resolved.sound noMark
  have rooted : text.head? = some (code '/') := rfl
  have parsed := parseParts_display resolved web
  unfold parse
  rw [split]
  simp only [fragmentRead, bind, Option.bind, noControl, scanned, querySplit, forced, rooted,
    ne_eq, not_true_eq_false, if_false]
  exact parsed

/-! ## What is checked and what is requested -/

/-- Two URLs that the check, the request and the cookies see alike. An empty port is no port,
and a path that resolving left empty stands for the root in the request only. -/
structure SeenAlike (target url : UrlParts) : Prop where
  scheme : url.scheme = target.scheme
  hostname : url.hostname = target.hostname
  port : shownPort url.port = shownPort target.port
  query : url.rawQuery = target.rawQuery ∧ url.forceQuery = target.forceQuery
  path : target.rawPath ≠ [] → url.path = target.path
  uri : ∀ {Uri : Type} (parseHost : Bytes → Except Bytes Bytes)
    (build : Bytes → Bytes → Bytes → Except Bytes Uri),
      url.requestUri parseHost build = target.requestUri parseHost build

theorem shownPort_shownPort (port : Option Bytes) : shownPort (shownPort port) = shownPort port := by
  obtain ⟨_, none⟩ | ⟨digits, same, _, some⟩ := portText_cases port
  · rw [none]
    rfl
  · rw [some, ← same, some, same]

theorem escapedPath_reparsed (url : UrlParts) : (reparsed url).escapedPath = url.escapedPath := by
  have raw : (reparsed url).rawPath.all isRawByte :=
    List.all_eq_true.mpr (isRawByte_escapedPath url)
  rw [escapedPath, if_pos raw]
  rfl

theorem seenAlike_reparsed (resolved : IsResolved target) : SeenAlike target (reparsed target) := by
  refine ⟨rfl, rfl, shownPort_shownPort target.port, ⟨rfl, rfl⟩, fun some => if_neg some, ?_⟩
  intro Uri parseHost build
  have port : (reparsed target).port.filter (fun port => !port.isEmpty) =
      target.port.filter fun port => !port.isEmpty := shownPort_shownPort target.port
  have path : (if (reparsed target).rawPath.isEmpty then ascii "/"
      else (reparsed target).escapedPath) =
        if target.rawPath.isEmpty then ascii "/" else target.escapedPath := by
    rw [escapedPath_reparsed]
    obtain ⟨empty, written⟩ | ⟨some, rest, rooted⟩ := escapedPath_rooted resolved
    · have none : (reparsed target).rawPath = [] := written
      rw [none, empty]
    · have behind : (reparsed target).rawPath = code '/' :: rest := rooted
      rw [behind, rooted, List.isEmpty_eq_false_iff.mpr some, List.isEmpty_cons]
  unfold requestUri
  rw [port, path]
  rfl

/-- The text of a resolved URL that a redirect checks is parsed exactly if the authority carries
the host name, into a URL without credentials that is seen like the one that is requested. -/
theorem checked_seenAlike {input location : Bytes} {base target : UrlParts}
    (parsed : parse input = some base) (resolved : base.resolve location = some target)
    (web : IsRequestScheme target.scheme) :
    ((parse target.displayUrl).isSome ↔ isShown target.hostname) ∧
      ∀ url, parse target.displayUrl = some url →
        url.hasCredentials = false ∧ SeenAlike target url := by
  have isResolved := isResolved_resolve (sound_parse parsed) resolved
  rw [parse_displayUrl isResolved web]
  by_cases shown : isShown target.hostname
  · rw [if_pos shown]
    refine ⟨⟨fun _ => shown, fun _ => rfl⟩, fun url same => ?_⟩
    rw [← Option.some.inj same]
    exact ⟨rfl, seenAlike_reparsed isResolved⟩
  · rw [if_neg shown]
    exact ⟨⟨nofun, fun shows => absurd shows shown⟩,
      fun url => nofun⟩

/-- A relative location behind dot segments. -/
theorem checked_seenAlike_relative : ∃ base target url,
    parse (ascii "https://example.test/a/../b/x y?old") = some base ∧
      base.resolve (ascii "../%2e/z y?new") = some target ∧
      parse target.displayUrl = some url ∧ SeenAlike target url := by
  let base := (parse (ascii "https://example.test/a/../b/x y?old")).get (by decide +kernel)
  let target := (base.resolve (ascii "../%2e/z y?new")).get (by decide +kernel)
  have parsed : parse (ascii "https://example.test/a/../b/x y?old") = some base :=
    (Option.some_get _).symm
  have resolved : base.resolve (ascii "../%2e/z y?new") = some target := (Option.some_get _).symm
  have checked := checked_seenAlike parsed resolved (.inr (by decide +kernel))
  obtain ⟨url, read⟩ := Option.isSome_iff_exists.mp (checked.1.mpr (by decide +kernel))
  exact ⟨base, target, url, parsed, resolved, read, (checked.2 url read).2⟩

/-- The text that is checked does not have the credentials that a location may have. -/
theorem credentials_dropped : ¬∀ input location base target,
    parse input = some base → IsRequestScheme base.scheme →
      base.resolve location = some target → IsRequestScheme target.scheme →
        ∃ url, parse target.displayUrl = some url ∧
          url.scheme = target.scheme ∧ url.hostname = target.hostname ∧ url.port = target.port ∧
            url.hasCredentials = target.hasCredentials ∧ url.path = target.path ∧
              url.rawQuery = target.rawQuery := by
  intro agree
  let base := (parse (ascii "https://example.test/")).get (by decide +kernel)
  let target := (base.resolve (ascii "https://user@example.test/")).get (by decide +kernel)
  obtain ⟨url, read, _, _, _, credentials, _⟩ :=
    agree (ascii "https://example.test/") (ascii "https://user@example.test/") base target
      (Option.some_get _).symm (.inr (by decide +kernel)) (Option.some_get _).symm
      (.inr (by decide +kernel))
  have written : (parse target.displayUrl).map hasCredentials = some false := by decide +kernel
  have kept : target.hasCredentials = true := by decide +kernel
  rw [read, Option.map_some, credentials, kept] at written
  cases written

end LosslessMusic.Network
