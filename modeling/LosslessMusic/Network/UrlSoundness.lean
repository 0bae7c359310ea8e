import LosslessMusic.Network.Url

/-!
# What a parsed URL is made of

Host names, ports, queries and fragments of the URLs that `parse` accepts, and of those that
`resolve` makes of them.
-/

namespace LosslessMusic.Network

open Codec Address

/-- A host name is a text of bytes that a host may have. -/
structure SoundHost (hostname : Bytes) : Prop where
  text : LossyUtf8.fromUtf8Lossy hostname = hostname
  bytes : ∀ byte ∈ hostname, validHostByte byte ∨ byte = code '%' ∨ byte = code ' '
  plain : code ':' ∉ hostname → code ' ' ∉ hostname ∧ code '[' ∉ hostname

/-- What `parse` promises of the texts of a URL. -/
structure UrlParts.Sound (url : UrlParts) : Prop where
  fragment : (decode url.fragment .path).isSome
  query : ∀ byte ∈ url.rawQuery, byte ≠ code '#' ∧ isControl byte = false
  forced : url.forceQuery = true → url.rawQuery = []
  port : ∀ port, url.port = some port → port.all isDigit
  hostname : SoundHost url.hostname

/-! ## Host names -/

theorem soundHost_nil : SoundHost [] :=
  ⟨rfl, fun _ member => absurd member List.not_mem_nil,
    fun _ => ⟨List.not_mem_nil, List.not_mem_nil⟩⟩

theorem validHostByte_of_large : ∀ byte : UInt8, ¬byte < 0x80 → validHostByte byte :=
  Percent.forall_byte (by decide +kernel)

theorem escaped_host : ∀ byte : UInt8, Escape.escaped .host byte → ¬byte < 0x80 ∨ byte = code '%' :=
  Percent.forall_byte (by decide +kernel)

theorem escaped_zone : ∀ byte : UInt8, Escape.escaped .zone byte →
    validHostByte byte ∨ byte = code '%' ∨ byte = code ' ' :=
  Percent.forall_byte (by decide +kernel)

variable {bytes text : Bytes}

theorem mem_decode_host (decoded : decode text .host = some bytes) :
    ∀ byte ∈ bytes, byte ∈ text ∧ validHostByte byte ∨ ¬byte < 0x80 ∨ byte = code '%' := by
  intro byte member
  obtain ⟨inside, _, plain⟩ | escaped := Percent.mem_decode decoded byte member
  · exact .inl ⟨inside, plain⟩
  · exact .inr (escaped_host byte escaped)

theorem bytes_of_host (decoded : decode text .host = some bytes) :
    ∀ byte ∈ bytes, validHostByte byte ∨ byte = code '%' ∨ byte = code ' ' := by
  intro byte member
  obtain ⟨_, valid⟩ | large | sign := mem_decode_host decoded byte member
  · exact .inl valid
  · exact .inl (validHostByte_of_large byte large)
  · exact .inr (.inl sign)

theorem bytes_of_zone (decoded : decode text .zone = some bytes) :
    ∀ byte ∈ bytes, validHostByte byte ∨ byte = code '%' ∨ byte = code ' ' := by
  intro byte member
  obtain ⟨_, _, plain⟩ | escaped := Percent.mem_decode decoded byte member
  · exact .inl plain
  · exact escaped_zone byte escaped

theorem bytes_of_literal {raw : Bytes} (decoded : decodeLiteral raw = some bytes) :
    ∀ byte ∈ bytes, validHostByte byte ∨ byte = code '%' ∨ byte = code ' ' := by
  unfold decodeLiteral at decoded
  split at decoded
  next address zone split =>
    obtain ⟨front, front_read, decoded⟩ := Option.bind_eq_some_iff.mp decoded
    obtain ⟨back, back_read, same⟩ := Option.bind_eq_some_iff.mp decoded
    cases same
    intro byte member
    exact (List.mem_append.mp member).elim (bytes_of_host front_read byte)
      (bytes_of_zone back_read byte)
  next => exact bytes_of_host decoded

theorem bytes_of_lossy
    (sound : ∀ byte ∈ bytes, validHostByte byte ∨ byte = code '%' ∨ byte = code ' ') :
    ∀ byte ∈ LossyUtf8.fromUtf8Lossy bytes,
      validHostByte byte ∨ byte = code '%' ∨ byte = code ' ' := by
  intro byte member
  by_cases small : byte < 0x80
  · exact sound byte (LossyUtf8.mem_of_mem_fromUtf8Lossy member small)
  · exact .inl (validHostByte_of_large byte small)

variable {hostname : Bytes}

theorem colon_of_isLiteral (literal : isLiteral hostname) : code ':' ∈ hostname := by
  unfold isLiteral at literal
  split at literal
  next address zone split =>
    rw [(splitOnce_eq_some split).1]
    exact List.mem_append_left _ (colon_of_isIpv6 (Bool.and_eq_true_iff.mp literal).2)
  next => exact colon_of_isIpv6 literal

variable {host : Bytes}

theorem soundHost_of_plain {part : Bytes} (noBracket : code '[' ∉ host)
    (inside : ∀ byte ∈ part, byte ∈ host) (decoded : decode part .host = some bytes) :
    SoundHost (LossyUtf8.fromUtf8Lossy bytes) := by
  refine ⟨LossyUtf8.fromUtf8Lossy_fromUtf8Lossy bytes, bytes_of_lossy (bytes_of_host decoded),
    fun _ => ⟨?_, ?_⟩⟩
  · intro member
    have read := LossyUtf8.mem_of_mem_fromUtf8Lossy member (by decide)
    obtain ⟨_, valid⟩ | large | sign := mem_decode_host decoded _ read
    · exact absurd valid (by decide)
    · exact absurd large (by decide)
    · exact absurd sign (by decide)
  · intro member
    have read := LossyUtf8.mem_of_mem_fromUtf8Lossy member (by decide)
    obtain ⟨stands, _⟩ | large | sign := mem_decode_host decoded _ read
    · exact noBracket (inside _ stands)
    · exact absurd large (by decide)
    · exact absurd sign (by decide)

/-- What a parsed host is made of: either an address between brackets, or the text before the
port. -/
theorem parseHost_cases {host scheme hostname : Bytes}
    (parsed : parseHost host scheme = some hostname) :
    (∃ inner raw port decoded, rsplitOnce (code '[') host = some ([], inner) ∧
        rsplitOnce (code ']') host = some (raw, port) ∧ validPort port ∧
        decodeLiteral raw.tail = some decoded ∧ hostname = LossyUtf8.fromUtf8Lossy decoded ∧
        isLiteral hostname) ∨
      code '[' ∉ host ∧ ∃ decoded, hostname = LossyUtf8.fromUtf8Lossy decoded ∧
        ((∃ part port, host = part ++ code ':' :: port ∧ port.all isDigit ∧
            decode part .host = some decoded) ∨
          code ':' ∉ host ∧ decode host .host = some decoded) := by
  unfold parseHost at parsed
  split at parsed
  next front inner bracket =>
    split at parsed
    next => cases parsed
    next noFront =>
      have front_nil : front = [] := not_not.mp noFront
      rw [front_nil] at bracket
      obtain ⟨⟨raw, port⟩, closed, parsed⟩ := Option.bind_eq_some_iff.mp parsed
      dsimp only at parsed
      split at parsed
      next => cases parsed
      next valid =>
        obtain ⟨decoded, read, parsed⟩ := Option.bind_eq_some_iff.mp parsed
        split at parsed
        next literal =>
          cases parsed
          refine .inl ⟨inner, raw, port, decoded, bracket, closed, ?_, read, rfl, literal⟩
          simpa using valid
        next => cases parsed
  next bracket =>
    refine .inr ⟨rsplitOnce_eq_none bracket, ?_⟩
    split at parsed
    next part port split =>
      split at parsed
      next => cases parsed
      next valid =>
        obtain ⟨decoded, read, same⟩ := Option.map_eq_some_iff.mp parsed
        refine ⟨decoded, same.symm, .inl ⟨part, port, ?_, ?_, read⟩⟩
        · split at split
          next => exact (splitOnce_eq_some split).1
          next => exact (rsplitOnce_eq_some split).1
        · simpa [validPort] using valid
    next split =>
      obtain ⟨decoded, read, same⟩ := Option.map_eq_some_iff.mp parsed
      refine ⟨decoded, same.symm, .inr ⟨?_, read⟩⟩
      split at split
      next => exact splitOnce_eq_none split
      next => exact rsplitOnce_eq_none split

theorem soundHost_parseHost {host scheme hostname : Bytes}
    (parsed : parseHost host scheme = some hostname) : SoundHost hostname := by
  obtain ⟨inner, raw, port, decoded, _, _, _, read, same, literal⟩ |
    ⟨noBracket, decoded, same, ⟨part, port, parts, _, read⟩ | ⟨_, read⟩⟩ := parseHost_cases parsed
  · refine ⟨?_, ?_, fun noColon => absurd (colon_of_isLiteral literal) noColon⟩
    · rw [same]
      exact LossyUtf8.fromUtf8Lossy_fromUtf8Lossy decoded
    · rw [same]
      exact bytes_of_lossy (bytes_of_literal read)
  · rw [same]
    refine soundHost_of_plain noBracket ?_ read
    intro byte member
    rw [parts]
    exact List.mem_append_left _ member
  · rw [same]
    exact soundHost_of_plain noBracket (fun _ member => member) read

theorem notMem_of_digits {port : Bytes} (digits : port.all isDigit) {symbol : UInt8}
    (noDigit : isDigit symbol = false) : symbol ∉ port := by
  intro member
  rw [List.all_eq_true.mp digits symbol member] at noDigit
  cases noDigit

theorem digits_of_parseHost {host scheme hostname part port : Bytes}
    (parsed : parseHost host scheme = some hostname) (portRead : portPart host = some part)
    (stripped : stripColon part = some port) : port.all isDigit := by
  obtain ⟨inner, raw, closing, decoded, bracket, closed, valid, _⟩ |
    ⟨noBracket, decoded, _, split⟩ := parseHost_cases parsed
  · have head : host.head? = some (code '[') := by
      rw [(rsplitOnce_eq_some bracket).1]
      rfl
    rw [portPart, if_pos head, closed] at portRead
    cases portRead
    cases part with
    | nil => cases stripped
    | cons byte digits =>
      rw [stripColon] at stripped
      split at stripped
      next =>
        cases stripped
        exact (Bool.and_eq_true_iff.mp valid).2
      next => cases stripped
  · have head : ¬host.head? = some (code '[') := fun same => noBracket (List.mem_of_head? same)
    rw [portPart, if_neg head] at portRead
    obtain ⟨front, digits, parts, valid, _⟩ | ⟨noColon, _⟩ := split
    · rw [parts, rsplitOnce_append (notMem_of_digits valid (by decide))] at portRead
      cases portRead
      rw [stripColon, if_pos rfl] at stripped
      cases stripped
      exact valid
    · rw [rsplitOnce_of_notMem noColon] at portRead
      cases portRead
      cases stripped

/-! ## Parsed URLs -/

theorem parse_cases {input : Bytes} {url : UrlParts} (parsed : parse input = some url) :
    ∃ body fragment scheme rest path query forceQuery,
      code '#' ∉ body ∧ body.any isControl = false ∧ (decode fragment .path).isSome ∧
        scanScheme [] body = some (scheme, rest) ∧ (∀ byte ∈ query, byte ∈ rest) ∧
        (forceQuery = true → query = []) ∧
        (url = opaqueParts scheme path query forceQuery fragment ∨
          parseParts scheme path query forceQuery fragment = some url) := by
  obtain ⟨body, fragment, same, noFragment⟩ : ∃ body fragment,
      (splitOnce (code '#') input).getD (input, []) = (body, fragment) ∧ code '#' ∉ body := by
    cases split : splitOnce (code '#') input with
    | some parts => exact ⟨parts.1, parts.2, rfl, (splitOnce_eq_some split).2⟩
    | none => exact ⟨input, [], rfl, splitOnce_eq_none split⟩
  unfold parse at parsed
  rw [same] at parsed
  obtain ⟨_, fragment_read, parsed⟩ := Option.bind_eq_some_iff.mp parsed
  split at parsed
  next => cases parsed
  next noControl =>
    obtain ⟨⟨scheme, rest⟩, scanned, parsed⟩ := Option.bind_eq_some_iff.mp parsed
    obtain ⟨path, query, split, inside⟩ : ∃ path query,
        (splitOnce (code '?') rest).getD (rest, []) = (path, query) ∧
          ∀ byte ∈ query, byte ∈ rest := by
      cases split : splitOnce (code '?') rest with
      | some parts =>
        refine ⟨parts.1, parts.2, rfl, fun byte member => ?_⟩
        rw [(splitOnce_eq_some split).1]
        exact List.mem_append_right _ (List.mem_cons_of_mem _ member)
      | none => exact ⟨rest, [], rfl, fun byte member => absurd member List.not_mem_nil⟩
    dsimp only at parsed
    rw [split] at parsed
    dsimp only at parsed
    refine ⟨body, fragment, scheme, rest, path, query,
      rest.getLast? == some (code '?') && query.isEmpty, noFragment, by simpa using noControl,
      by rw [fragment_read]; rfl, scanned, inside, ?_, ?_⟩
    · intro forced
      exact List.isEmpty_iff.mp (Bool.and_eq_true_iff.mp forced).2
    · split at parsed
      next =>
        split at parsed
        next =>
          cases parsed
          exact .inl rfl
        next =>
          split at parsed
          next => cases parsed
          next => exact .inr parsed
      next => exact .inr parsed

theorem scanScheme_suffix {seen input scheme rest : Bytes}
    (scanned : scanScheme seen input = some (scheme, rest)) : rest <:+ seen ++ input := by
  induction input generalizing seen with
  | nil =>
    cases scanned
    simp
  | cons byte later ih =>
    rw [scanScheme] at scanned
    split at scanned
    next =>
      split at scanned
      next => cases scanned
      next =>
        cases scanned
        exact ⟨_ ++ [byte], by rw [List.append_assoc]; rfl⟩
    next =>
      split at scanned
      next =>
        have later := ih scanned
        rw [List.append_assoc] at later
        exact later
      next =>
        cases scanned
        exact List.suffix_rfl

/-- What `parseAuthority` promises. -/
structure Authority.Sound (authority : Authority) : Prop where
  port : ∀ port, authority.port = some port → port.all isDigit
  hostname : SoundHost authority.hostname

theorem sound_parseHostPort {host scheme : Bytes} {hasCredentials : Bool} {user : User}
    {authority : Authority} (parsed : parseHostPort host scheme hasCredentials user = some authority) :
    authority.Sound := by
  obtain ⟨hostname, hostRead, parsed⟩ := Option.bind_eq_some_iff.mp parsed
  obtain ⟨rawHost, _, parsed⟩ := Option.bind_eq_some_iff.mp parsed
  obtain ⟨part, portRead, parsed⟩ := Option.bind_eq_some_iff.mp parsed
  cases parsed
  exact ⟨fun port stripped => digits_of_parseHost hostRead portRead stripped,
    soundHost_parseHost hostRead⟩

theorem sound_parseAuthority {text scheme : Bytes} {authority : Authority}
    (parsed : parseAuthority text scheme = some authority) : authority.Sound := by
  unfold parseAuthority at parsed
  split at parsed
  next =>
    obtain ⟨user, _, parsed⟩ := Option.bind_eq_some_iff.mp parsed
    exact sound_parseHostPort parsed
  next => exact sound_parseHostPort parsed

theorem sound_splitAuthority {scheme path rest : Bytes} {authority : Authority}
    (split : splitAuthority scheme path = some (authority, rest)) : authority.Sound := by
  unfold splitAuthority at split
  split at split
  next =>
    obtain ⟨parsed, read, same⟩ := Option.map_eq_some_iff.mp split
    cases same
    exact sound_parseAuthority read
  next =>
    cases split
    exact ⟨fun port => nofun, soundHost_nil⟩

theorem sound_parse {input : Bytes} {url : UrlParts} (parsed : parse input = some url) :
    url.Sound := by
  obtain ⟨body, fragment, scheme, rest, path, query, forceQuery, noFragment, noControl,
    fragmentRead, scanned, inside, forced, parts⟩ := parse_cases parsed
  have clean : ∀ byte ∈ query, byte ≠ code '#' ∧ isControl byte = false := by
    intro byte member
    have stands : byte ∈ body := (scanScheme_suffix scanned).subset (inside byte member)
    refine ⟨fun same => noFragment (same ▸ stands), ?_⟩
    simpa using List.any_eq_false.mp noControl byte stands
  obtain opaqueUrl | hierarchical := parts
  · rw [opaqueUrl]
    exact ⟨fragmentRead, clean, forced, fun port => nofun, soundHost_nil⟩
  · obtain ⟨⟨authority, later⟩, split, parsed⟩ := Option.bind_eq_some_iff.mp hierarchical
    obtain ⟨decoded, _, same⟩ := Option.map_eq_some_iff.mp parsed
    have sound := sound_splitAuthority split
    rw [← same]
    exact ⟨fragmentRead, clean, forced, sound.port, sound.hostname⟩
end LosslessMusic.Network 