import LosslessMusic.Network.UrlSoundness

/-!
# Authorities that are written and parsed again

`display_url` escapes the authority; `parse_host` reads back the host name that was written, or
refuses the text.
-/

namespace LosslessMusic.Network

open Codec Address UrlParts

/-! ## The bytes of a written host -/

theorem escape_cons_of_kept {host : Bool} {byte : UInt8} (keeps : isKept host byte) (rest : Bytes) :
    escape (byte :: rest) host = byte :: escape rest host := by
  rw [escape, Percent.encode_cons, if_pos keeps]
  rfl

theorem escape_append (front back : Bytes) (host : Bool) :
    escape (front ++ back) host = escape front host ++ escape back host :=
  Percent.encode_append front back

theorem mem_escape {text : Bytes} {host : Bool} {symbol : UInt8}
    (noDigit : Percent.digit? symbol = none) (noSign : symbol ≠ Percent.percent)
    (member : symbol ∈ escape text host) : symbol ∈ text ∧ isKept host symbol :=
  Percent.mem_of_mem_encode noDigit noSign member

theorem decode_escape_host (text : Bytes) (mode : Escape) : decode (escape text true) mode =
      if ∀ byte ∈ text, Percent.passes (isKept true) mode.plain mode.escaped byte then some text
      else none :=
  Percent.decode_encode (by decide) text

theorem decode_escape_path (text : Bytes) : decode (escape text true) .path = some text := by
  rw [decode_escape_host]
  refine if_pos fun byte _ => ?_
  unfold Percent.passes
  split
  next => rfl
  next => rfl

/-- The bytes of a written authority. -/
def isHostText (byte : UInt8) : Bool :=
  isKept true byte || byte == code '%' || isHexDigit byte

theorem isHexDigit_hexDigit (byte : UInt8) :
    isHexDigit (Percent.hexDigit (byte / 16)) ∧ isHexDigit (Percent.hexDigit (byte % 16)) := by
  constructor
  · rw [isHexDigit, Percent.digit?_hexDigit_div]
    rfl
  · rw [isHexDigit, Percent.digit?_hexDigit_mod]
    rfl

theorem isHostText_escape {text : Bytes} : ∀ byte ∈ escape text true, isHostText byte := by
  intro byte member
  unfold isHostText
  obtain ⟨_, keeps⟩ | sign | ⟨other, high | low⟩ := Percent.mem_encode member
  · rw [keeps, Bool.true_or, Bool.true_or]
  · rw [sign]
    decide
  · rw [high, (isHexDigit_hexDigit other).1, Bool.or_true]
  · rw [low, (isHexDigit_hexDigit other).2, Bool.or_true]

theorem isKept_of_isDigit : ∀ byte : UInt8, isDigit byte → isKept true byte :=
  Percent.forall_byte (by decide +kernel)

theorem isKept_of_isAddressByte : ∀ byte : UInt8, isAddressByte byte →
    isKept true byte ∧ byte ≠ code '%' :=
  Percent.forall_byte (by decide +kernel)

theorem passes_zone (byte : UInt8)
    (shown : validHostByte byte ∨ byte = code '%' ∨ byte = code ' ') :
    Percent.passes (isKept true) (Escape.plain .zone) (Escape.escaped .zone) byte := by
  rcases shown with valid | rfl | rfl
  · unfold Percent.passes
    split
    · rw [Escape.plain, valid, Bool.or_true]
    · simp [Escape.escaped, valid]
  · decide
  · decide

theorem passes_host (byte : UInt8) (shown : validHostByte byte ∨ byte = code '%') :
    Percent.passes (isKept true) (Escape.plain .host) (Escape.escaped .host) byte ↔
      byte ∉ ascii "<>\"" := by
  have refused : ∀ byte ∈ ascii "<>\"",
      ¬Percent.passes (isKept true) (Escape.plain .host) (Escape.escaped .host) byte := by
    decide +kernel
  have listed : ∀ byte ∈ ascii "-._~!$&'()*+,;=:[]<>\"", isKept true byte ∨ byte ∈ ascii "<>\"" := by
    decide +kernel
  refine ⟨fun passes member => refused byte member passes, fun apart => ?_⟩
  rcases shown with valid | rfl
  · unfold Percent.passes
    split
    · rw [Escape.plain, valid, Bool.or_true]
    next escapes =>
      have large : 128 ≤ byte := by
        unfold validHostByte at valid
        rcases Bool.or_eq_true_iff.mp valid with plain | inList
        · rcases Bool.or_eq_true_iff.mp plain with large | alphanumeric
          · exact of_decide_eq_true large
          · rw [isKept, alphanumeric, Bool.true_or] at escapes
            exact absurd rfl escapes
        · rcases listed byte (List.contains_iff_mem.mp inList) with keeps | among
          · exact absurd keeps escapes
          · exact absurd among apart
      rw [Escape.escaped, decide_eq_false (UInt8.not_lt.mpr large)]
      rfl
  · decide

theorem passes_of_isAddressByte : ∀ byte : UInt8, isAddressByte byte →
    Percent.passes (isKept true) (Escape.plain .host) (Escape.escaped .host) byte :=
  Percent.forall_byte (by decide +kernel)

/-! ## Addresses between brackets -/

theorem decode_of_decodeLiteral {raw decoded : Bytes} (read : decodeLiteral raw = some decoded) :
    decode raw .path = some decoded := by
  have widen : ∀ {text bytes : Bytes} {mode : Escape}, decode text mode = some bytes →
      decode text .path = some bytes :=
    fun read => Percent.decode_mono (fun _ _ => rfl) (fun _ _ => rfl) read
  unfold decodeLiteral at read
  split at read
  next address zone split =>
    obtain ⟨front, front_read, read⟩ := Option.bind_eq_some_iff.mp read
    obtain ⟨back, back_read, same⟩ := Option.bind_eq_some_iff.mp read
    cases same
    rw [splitOnceAt_eq_some split, List.append_assoc]
    exact Percent.decode_append (widen front_read) (widen back_read)
  next => exact widen read

theorem escape_of_address {address : Bytes} (accepted : isIpv6 address) :
    escape address true = address :=
  Percent.encode_of_kept fun byte member =>
    (isKept_of_isAddressByte byte (all_of_isIpv6 accepted byte member)).1

theorem decode_address {address : Bytes} (accepted : isIpv6 address) :
    decode address .host = some address := by
  have read := decode_escape_host address .host
  rw [escape_of_address accepted] at read
  rw [read]
  exact if_pos fun byte member =>
    passes_of_isAddressByte byte (all_of_isIpv6 accepted byte member)

variable {hostname : Bytes}

theorem decodeLiteral_escape (sound : SoundHost hostname)
    (literal : isLiteral hostname) : decodeLiteral (escape hostname true) = some hostname := by
  unfold isLiteral at literal
  split at literal
  next address zone split =>
    obtain ⟨_, accepted⟩ := Bool.and_eq_true_iff.mp literal
    obtain ⟨parts, noPercent⟩ := splitOnce_eq_some split
    have written : escape hostname true = address ++ ascii "%25" ++ escape zone true := by
      rw [parts, escape_append, escape_of_address accepted, List.append_assoc]
      rfl
    have zoneRead : decode (ascii "%25" ++ escape zone true) .zone = some (code '%' :: zone) := by
      have whole := decode_escape_host (code '%' :: zone) .zone
      rw [if_pos] at whole
      · exact whole
      · intro byte member
        refine passes_zone byte (sound.bytes byte ?_)
        rw [parts]
        exact List.mem_append_right _ member
    have split : splitOnceAt (ascii "%25") (address ++ ascii "%25" ++ escape zone true) =
        some (address, escape zone true) := splitOnceAt_append noPercent _
    rw [written, decodeLiteral, split]
    simp only [decode_address accepted, zoneRead, bind, Option.bind]
    rw [← parts]
  next split =>
    have split : splitOnceAt (ascii "%25") hostname = none :=
      splitOnceAt_of_notMem (splitOnce_eq_none split)
    rw [escape_of_address literal, decodeLiteral, split]
    exact decode_address literal

/-! ## Written authorities -/

/-- The port of an authority behind its colon, if there is one. -/
def portText : Option Bytes → Bytes
  | some port => if !port.isEmpty then code ':' :: port else []
  | none => []

/-- The port that is written. -/
def shownPort (port : Option Bytes) : Option Bytes :=
  port.filter fun port => !port.isEmpty

theorem portText_cases (port : Option Bytes) : portText port = [] ∧ shownPort port = none ∨
      ∃ digits, port = some digits ∧ portText port = code ':' :: digits ∧
        shownPort port = some digits := by
  cases port with
  | none => exact .inl ⟨rfl, rfl⟩
  | some digits =>
    cases digits with
    | nil => exact .inl ⟨rfl, rfl⟩
    | cons digit rest => exact .inr ⟨digit :: rest, rfl, rfl, rfl⟩

theorem authority_eq (url : UrlParts) : url.authority =
      (if code ':' ∈ url.hostname then code '[' :: url.hostname ++ [code ']'] else url.hostname) ++
        portText url.port := by
  have host : (if url.hostname.contains (code ':') then ascii "[" ++ url.hostname ++ ascii "]"
      else url.hostname) =
      if code ':' ∈ url.hostname then code '[' :: url.hostname ++ [code ']'] else url.hostname := by
    simp only [List.contains_iff_mem]
    rfl
  unfold authority
  rw [host]
  cases url.port with
  | none => exact (List.append_nil _).symm
  | some port =>
    cases port with
    | nil => exact (List.append_nil _).symm
    | cons digit rest => exact List.append_assoc _ _ _

variable {port : Option Bytes}

theorem portText_digits (digits : ∀ text, port = some text → text.all isDigit)
    {symbol : UInt8} (noDigit : isDigit symbol = false) (noColon : symbol ≠ code ':') :
    symbol ∉ portText port := by
  obtain ⟨empty, _⟩ | ⟨text, same, written, _⟩ := portText_cases port
  · rw [empty]
    exact List.not_mem_nil
  · rw [written]
    exact List.not_mem_cons_of_ne_of_not_mem noColon (notMem_of_digits (digits text same) noDigit)

theorem escape_portText (digits : ∀ text, port = some text → text.all isDigit) :
    escape (portText port) true = portText port := by
  obtain ⟨empty, _⟩ | ⟨text, same, written, _⟩ := portText_cases port
  · rw [empty]
    rfl
  · rw [written]
    refine Percent.encode_of_kept (List.forall_mem_cons.mpr ⟨by decide, fun byte member => ?_⟩)
    exact isKept_of_isDigit byte (List.all_eq_true.mp (digits text same) byte member)

theorem validPort_portText
    (digits : ∀ text, port = some text → text.all isDigit) : validPort (portText port) := by
  obtain ⟨empty, _⟩ | ⟨text, same, written, _⟩ := portText_cases port
  · rw [empty]
    rfl
  · rw [written]
    exact digits text same

theorem stripColon_portText (port : Option Bytes) :
    stripColon (portText port) = shownPort port := by
  obtain ⟨empty, none⟩ | ⟨text, _, written, some⟩ := portText_cases port
  · rw [empty, none]
    rfl
  · rw [written, some]
    rfl

/-- A host name that the written authority carries: a literal address without a bracket in its
zone, or a name without the three bytes that a host may have and `escape` does not keep. -/
def isShown (hostname : Bytes) : Bool :=
  if code ':' ∈ hostname then !hostname.contains (code '[') && isLiteral hostname
  else hostname.all fun byte => !(ascii "<>\"").contains byte

theorem parseHost_literal {scheme : Bytes}
    (sound : SoundHost hostname) (colon : code ':' ∈ hostname)
    (digits : ∀ text, port = some text → text.all isDigit) :
    parseHost (code '[' :: escape hostname true ++ code ']' :: portText port) scheme =
      if isShown hostname then some hostname else none := by
  have closes : rsplitOnce (code ']')
      (code '[' :: escape hostname true ++ code ']' :: portText port) =
        some (code '[' :: escape hostname true, portText port) :=
    rsplitOnce_append (portText_digits digits (by decide) (by decide)) _
  have noBehind : code '[' ∉ code ']' :: portText port :=
    List.not_mem_cons_of_ne_of_not_mem (by decide) (portText_digits digits (by decide) (by decide))
  rw [isShown, if_pos colon]
  by_cases bracket : code '[' ∈ hostname
  · have inside : code '[' ∈ escape hostname true := Percent.mem_encode_of_kept bracket (by decide)
    have opens : ∃ front behind, front ≠ [] ∧
        rsplitOnce (code '[') (code '[' :: escape hostname true ++ code ']' :: portText port) =
          some (front, behind) := by
      cases split : rsplitOnce (code '[') (escape hostname true) with
      | none => exact absurd inside (rsplitOnce_eq_none split)
      | some parts =>
        obtain ⟨whole, last⟩ := rsplitOnce_eq_some split
        refine ⟨code '[' :: parts.1, parts.2 ++ code ']' :: portText port, List.cons_ne_nil _ _, ?_⟩
        have noLater : code '[' ∉ parts.2 ++ code ']' :: portText port :=
          fun member => (List.mem_append.mp member).elim last noBehind
        rw [whole, List.cons_append, List.append_assoc, List.cons_append, ← List.cons_append]
        exact rsplitOnce_append noLater _
    obtain ⟨front, behind, nonempty, split⟩ := opens
    rw [List.contains_iff_mem.mpr bracket, parseHost, split]
    exact if_pos nonempty
  · have noInside : code '[' ∉ escape hostname true :=
      fun member => bracket (mem_escape (by decide) (by decide) member).1
    have opens : rsplitOnce (code '[')
        (code '[' :: escape hostname true ++ code ']' :: portText port) =
          some ([], escape hostname true ++ code ']' :: portText port) :=
      rsplitOnce_append (fun member => (List.mem_append.mp member).elim noInside noBehind) []
    have unbracketed : hostname.contains (code '[') = false := by
      simpa using bracket
    rw [unbracketed, Bool.not_false, Bool.true_and, parseHost, opens]
    simp only [closes, validPort_portText digits, bind, Option.bind, List.tail_cons]
    cases read : decodeLiteral (escape hostname true) with
    | none =>
      have refused : isLiteral hostname = false := by
        cases literal : isLiteral hostname with
        | false => rfl
        | true =>
          rw [decodeLiteral_escape sound literal] at read
          cases read
      rw [refused]
      rfl
    | some decoded =>
      have whole := decode_of_decodeLiteral read
      rw [decode_escape_path] at whole
      rw [← Option.some.inj whole]
      simp [sound.text]

theorem parseHost_name {scheme : Bytes}
    (sound : SoundHost hostname) (noColon : code ':' ∉ hostname) (web : isWeb scheme)
    (digits : ∀ text, port = some text → text.all isDigit) :
    parseHost (escape hostname true ++ portText port) scheme =
      if isShown hostname then some hostname else none := by
  obtain ⟨noSpace, noBracket⟩ := sound.plain noColon
  have bracket : code '[' ∉ escape hostname true ++ portText port := by
    intro member
    cases List.mem_append.mp member with
    | inl name => exact noBracket (mem_escape (by decide) (by decide) name).1
    | inr port => exact portText_digits digits (by decide) (by decide) port
  have colon : code ':' ∉ escape hostname true :=
    fun member => noColon (mem_escape (by decide) (by decide) member).1
  have name : (decode (escape hostname true) .host).map LossyUtf8.fromUtf8Lossy =
      if isShown hostname then some hostname else none := by
    have passes : (∀ byte ∈ hostname, Percent.passes (isKept true) (Escape.plain .host)
        (Escape.escaped .host) byte) ↔ isShown hostname := by
      rw [isShown, if_neg noColon, List.all_eq_true]
      refine forall₂_congr fun byte member => ?_
      have valid : validHostByte byte ∨ byte = code '%' := by
        obtain valid | sign | space := sound.bytes byte member
        · exact .inl valid
        · exact .inr sign
        · exact absurd (space ▸ member) noSpace
      rw [passes_host byte valid]
      simp
    rw [decode_escape_host]
    by_cases shown : isShown hostname
    · rw [if_pos shown, if_pos (passes.mpr shown)]
      exact congrArg some sound.text
    · rw [if_neg shown, if_neg fun all => shown (passes.mp all)]
      rfl
  rw [parseHost, rsplitOnce_of_notMem bracket]
  dsimp only
  rw [if_pos web]
  obtain ⟨empty, _⟩ | ⟨text, same, written, _⟩ := portText_cases port
  · rw [empty, List.append_nil, splitOnce_of_notMem colon]
    exact name
  · have valid : validPort (code ':' :: text) := by
      rw [← written]
      exact validPort_portText digits
    rw [written, splitOnce_append colon]
    simp only [valid]
    exact name

variable {url : UrlParts}

theorem escape_authority (sound : url.Sound) : escape url.authority true =
      (if code ':' ∈ url.hostname then
          code '[' :: escape url.hostname true ++ [code ']']
        else escape url.hostname true) ++ portText url.port := by
  rw [authority_eq, escape_append, escape_portText sound.port]
  split
  next =>
    rw [List.cons_append, escape_cons_of_kept (by decide), escape_append]
    rfl
  next => rfl

theorem portPart_authority (sound : url.Sound) :
    portPart (escape url.authority true) = some (portText url.port) := by
  rw [escape_authority sound]
  by_cases colon : code ':' ∈ url.hostname
  · have closes : rsplitOnce (code ']')
        (code '[' :: escape url.hostname true ++ code ']' :: portText url.port) =
          some (code '[' :: escape url.hostname true, portText url.port) :=
      rsplitOnce_append (portText_digits sound.port (by decide) (by decide)) _
    rw [if_pos colon, List.append_assoc, List.singleton_append, portPart, closes]
    exact if_pos rfl
  · have noColon : code ':' ∉ escape url.hostname true :=
      fun member => colon (mem_escape (by decide) (by decide) member).1
    have head : ¬(escape url.hostname true ++ portText url.port).head? = some (code '[') := by
      intro same
      cases List.mem_append.mp (List.mem_of_head? same) with
      | inl name =>
        exact (sound.hostname.plain colon).2 (mem_escape (by decide) (by decide) name).1
      | inr port => exact portText_digits sound.port (by decide) (by decide) port
    rw [if_neg colon, portPart, if_neg head]
    obtain ⟨empty, _⟩ | ⟨text, same, written, _⟩ := portText_cases url.port
    · rw [empty, List.append_nil, rsplitOnce_of_notMem noColon]
    · have last : code ':' ∉ text := notMem_of_digits (sound.port text same) (by decide)
      rw [written, rsplitOnce_append last]

theorem parseHost_authority (sound : url.Sound) (web : isWeb url.scheme) :
    parseHost (escape url.authority true) url.scheme =
      if isShown url.hostname then some url.hostname else none := by
  rw [escape_authority sound]
  by_cases colon : code ':' ∈ url.hostname
  · rw [if_pos colon, List.append_assoc, List.singleton_append]
    exact parseHost_literal sound.hostname colon sound.port
  · rw [if_neg colon]
    exact parseHost_name sound.hostname colon web sound.port

theorem parseAuthority_authority (sound : url.Sound) (web : isWeb url.scheme) :
    parseAuthority (escape url.authority true) url.scheme =
      if isShown url.hostname then
        some ⟨url.hostname, shownPort url.port, false, url.authority, [], none⟩
      else none := by
  have noAt : code '@' ∉ escape url.authority true := by
    intro member
    have keeps := (mem_escape (by decide) (by decide) member).2
    exact absurd keeps (by decide)
  rw [parseAuthority, rsplitOnce_of_notMem noAt]
  dsimp only
  rw [parseHostPort, parseHost_authority sound web, portPart_authority sound, decode_escape_path]
  by_cases shown : isShown url.hostname
  · rw [if_pos shown, if_pos shown, ← stripColon_portText]
    rfl
  · rw [if_neg shown, if_neg shown]
    rfl

end LosslessMusic.Network
