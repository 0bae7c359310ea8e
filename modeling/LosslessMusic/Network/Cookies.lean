import LosslessMusic.Network.Url
import LosslessMusic.Storage.Table
import Mathlib.Data.List.DropRight

/-!
# Cookies of a session

`CookieJar`: what a response line sets, what a request is sent, and that a cookie is sent only
where the last line that set it allows.
-/

namespace LosslessMusic.Network

open Codec Address
open Storage (Table)

/-- What `Cookie::parse` reads of a line. -/
structure Cookie where
  name : Bytes
  path : Option Bytes := none
  secure : Option Bool := none
  expires : Option Int := none

/-- What the jar asks of its libraries: the parser of a line, the names that a header may have,
the hosts of a URL, the last time of the calendar, and the width of `isize`. -/
structure CookieLibraries where
  parse : Bytes → Option Cookie
  isHeaderName : Bytes → Bool
  parseHost : Bytes → Option Bytes
  lastTime : Int
  isizeBits : Nat

/-- The key of a cookie; its first part is `jar_key` of the host that set it. -/
structure CookieKey where
  partition : Bytes
  domain : Bytes
  path : Bytes
  name : Bytes
  deriving DecidableEq

/-- `Entry`; a sequence counts the cookies that were made before. -/
structure CookieEntry where
  value : Bytes
  hostOnly : Bool
  secure : Bool
  expires : Option Int
  sequence : Nat
  deriving DecidableEq

structure CookieJar where
  entries : Table CookieKey CookieEntry := {}
  sequence : Nat := 0

/-- An accepted line of a response, the host that sent it, and whether it takes its cookie out. -/
structure CookieLine where
  raw : Bytes
  host : Bytes
  key : CookieKey
  entry : CookieEntry
  expired : Bool
  deriving DecidableEq

/-! ## What a line says -/

/-- `trim` of a visible text. -/
def trimBytes (text : Bytes) : Bytes :=
  let isBlank (byte : UInt8) : Bool := byte = 32 ∨ 9 ≤ byte ∧ byte ≤ 13
  (text.dropWhile isBlank).rdropWhile isBlank

/-- The attributes of a line, with their values. -/
def attributes (raw : Bytes) : List (Bytes × Bytes) :=
  (raw.splitOn (code ';')).tail.filterMap fun one =>
    splitOnce (code '=') (trimBytes one)

/-- The trimmed values of an attribute, in order. -/
def valuesOf (name : String) (raw : Bytes) : List Bytes :=
  ((attributes raw).filter fun one => toLowercase one.1 = ascii name).map fun one =>
    trimBytes one.2

/-- The text parses as an `IpAddr`, or has a colon. -/
def isAddress (host : Bytes) : Bool :=
  isIpv6 host || readIpv4 host = some [] || host.contains (code ':')

/-- A host is a domain or below it. -/
def IsWithin (domain host : Bytes) : Prop :=
  host = domain ∨ code '.' :: domain <:+ host

instance (domain host : Bytes) : Decidable (IsWithin domain host) := by
  unfold IsWithin
  infer_instance

/-- The domain that a line names, if it names one. -/
def rawDomain (raw : Bytes) : Bytes :=
  (valuesOf "domain" raw).getLast?.getD []

/-- A named domain as it is compared. -/
def normalDomain (raw : Bytes) : Bytes :=
  toLowercase (if (rawDomain raw).head? = some (code '.') then (rawDomain raw).tail
    else rawDomain raw)

/-- The domain of a cookie, and whether only the host itself is meant. -/
def domainOf (host raw : Bytes) : Option (Bytes × Bool) :=
  if rawDomain raw = [] then some (host, true)
  else if isAddress host then
    if rawDomain raw ≠ host then none else some (host, true)
  else
    let domain := normalDomain raw
    if domain = [] ∨ (∃ byte ∈ domain, ¬byte < 128) ∨ domain.head? = some (code '.') ∨
        domain.getLast? = some (code '.') ∨ ¬IsWithin domain host then none
    else some (domain, false)

/-- The value of a line, and whether it is quoted. -/
def valueOf (raw : Bytes) : Option (Bytes × Bool) := do
  let first ← (raw.splitOn (code ';')).head?
  let (_, rawValue) ← splitOnce (code '=') first
  let rawValue := trimBytes rawValue
  let quoted := rawValue.head? = some (code '"') ∧ rawValue.getLast? = some (code '"') ∧
    2 ≤ rawValue.length
  let value := if quoted then (rawValue.drop 1).dropLast else rawValue
  if value.all fun byte => 32 ≤ byte && byte < 127 && !(ascii "\";\\").contains byte then
    some (value, quoted)
  else none

/-- `parse::<isize>`. -/
def parseIsize (bits : Nat) (text : Bytes) : Option Int :=
  let sign := text.head?
  let digits := if sign = some (code '-') ∨ sign = some (code '+') then text.tail else text
  let number : Int := digits.foldl (fun value digit => value * 10 + (digit.toNat - 48)) 0
  let number := if sign = some (code '-') then -number else number
  if digits ≠ [] ∧ digits.all isDigit ∧ -2 ^ (bits - 1) ≤ number ∧ number < 2 ^ (bits - 1) then
    some number
  else none

/-- The last `Max-Age` that counts. -/
def maxAge (bits : Nat) (raw : Bytes) : Option Int :=
  ((valuesOf "max-age" raw).filterMap fun value =>
    (parseIsize bits value).filter fun seconds =>
      !(seconds ≠ 0 ∧ value.head? = some (code '0'))).getLast?

def defaultPath (path : Bytes) : Bytes :=
  match rsplitOnce (code '/') path with
  | some (front, _) => if path.head? = some (code '/') ∧ front ≠ [] then front else ascii "/"
  | none => ascii "/"

/-- The last two labels of a host. -/
def lastLabels (host : Bytes) : Bytes :=
  match rsplitOnce (code '.') host with
  | none => host
  | some (front, last) =>
    match rsplitOnce (code '.') front with
    | none => host
    | some (_, label) => label ++ code '.' :: last

def jarKey (host : Bytes) : Bytes :=
  if isAddress host then host else lastLabels host

variable (libraries : CookieLibraries)

def canonicalHost (url : UrlParts) : Bytes :=
  let host :=
    if url.hostname.getLast? = some (code '.') then url.hostname.dropLast else url.hostname
  (libraries.parseHost host).getD (toLowercase host)

/-- When a cookie expires. -/
def expiresOf (now : Int) (raw : Bytes) (cookie : Cookie) : Option Int :=
  match maxAge libraries.isizeBits raw with
  | some seconds =>
    if seconds ≤ 0 then some now
    else (some (now + seconds * 1000000000)).filter (· ≤ libraries.lastTime)
  | none => cookie.expires

/-- One turn of the loop of `store`, as far as the jar is not needed. -/
def readLine (url : UrlParts) (now : Int) (raw : Bytes) : Option CookieLine := do
  if ∃ byte ∈ raw, ¬(32 ≤ byte ∧ byte < 127 ∨ byte = 9) then none
  let cookie ← libraries.parse raw
  if !libraries.isHeaderName cookie.name then none
  let (value, quoted) ← valueOf raw
  let host := canonicalHost libraries url
  let (domain, hostOnly) ← domainOf host raw
  let path := (cookie.path.filter (·.head? = some (code '/'))).getD (defaultPath url.path)
  let expires := expiresOf libraries now raw cookie
  some {
    raw, host
    key := ⟨jarKey host, domain, path, cookie.name⟩
    entry := {
      value := if quoted || value.contains (code ' ') || value.contains (code ',') then
        ascii "\"" ++ value ++ ascii "\"" else value
      hostOnly, expires
      secure := cookie.secure.getD false
      sequence := 0 }
    expired := expires.any (· ≤ now) }

/-! ## The jar -/

namespace CookieJar

/-- What a line does to the jar. -/
def apply (jar : CookieJar) (line : CookieLine) : CookieJar :=
  if line.expired then { jar with entries := jar.entries.erase line.key }
  else
    match jar.entries.get? line.key with
    | some old =>
      { jar with
        entries := jar.entries.put line.key { line.entry with sequence := old.sequence } }
    | none =>
      { entries := jar.entries.put line.key { line.entry with sequence := jar.sequence }
        sequence := jar.sequence + 1 }

/-- The accepted lines of a response. -/
def linesOf (url : UrlParts) (now : Int) (headers : List Bytes) : List CookieLine :=
  if headers.length > 3000 then [] else headers.filterMap (readLine libraries url now)

def store (jar : CookieJar) (url : UrlParts) (now : Int) (headers : List Bytes) : CookieJar :=
  (linesOf libraries url now headers).foldl apply jar

/-- Cookies that have expired are dropped. -/
def retain (jar : CookieJar) (now : Int) : CookieJar :=
  { jar with entries := jar.entries.retain fun _ entry => entry.expires.all (now < ·) }

/-- A path of a cookie covers the path of a request. -/
def Covers (path request : Bytes) : Prop :=
  request = path ∨ path <+: request ∧
    (path.getLast? = some (code '/') ∨ request[path.length]? = some (code '/'))

instance (path request : Bytes) : Decidable (Covers path request) := by
  unfold Covers
  infer_instance

/-- A cookie is sent with a request. -/
def isSent (url : UrlParts) (cookie : CookieKey × CookieEntry) : Bool :=
  let host := canonicalHost libraries url
  cookie.1.partition = jarKey host && (!cookie.2.secure || url.scheme = ascii "https") &&
    (host = cookie.1.domain ||
      (!cookie.2.hostOnly && (code '.' :: cookie.1.domain).isSuffixOf host)) &&
    Covers cookie.1.path url.path

/-- The order in which cookies are sent. -/
def precedes (first second : CookieKey × CookieEntry) : Bool :=
  second.1.path < first.1.path ∨
    first.1.path = second.1.path ∧ first.2.sequence ≤ second.2.sequence

/-- The cookies that are sent with a request. -/
def selected (jar : CookieJar) (now : Int) (url : UrlParts) : List (CookieKey × CookieEntry) :=
  ((jar.retain now).entries.entries.filter (isSent libraries url)).mergeSort precedes

def header (jar : CookieJar) (now : Int) (url : UrlParts) : Bytes × CookieJar :=
  ((ascii "; ").intercalate ((jar.selected libraries now url).map fun cookie =>
      cookie.1.name ++ ascii "=" ++ cookie.2.value), jar.retain now)

def clear (jar : CookieJar) : CookieJar :=
  { jar with entries := {} }

end CookieJar

/-! ## Calls -/

/-- A call on a jar. -/
inductive CookieCall
  | store (url : UrlParts) (now : Int) (headers : List Bytes)
  | header (url : UrlParts) (now : Int)
  | clear

namespace CookieJar

/-- The jar behind a call. -/
def call (jar : CookieJar) : CookieCall → CookieJar
  | .store url now headers => jar.store libraries url now headers
  | .header url now => (jar.header libraries now url).2
  | .clear => jar.clear

/-- The jar behind all calls. -/
def run (calls : List CookieCall) : CookieJar :=
  calls.foldl (call libraries) {}

/-- The lines that have been accepted since the jar was cleared. -/
def accepted (calls : List CookieCall) : List CookieLine :=
  calls.foldl (fun lines one =>
    match one with
    | .store url now headers => lines ++ linesOf libraries url now headers
    | .header _ _ => lines
    | .clear => []) []

/-- The lines since the last clear come from the calls behind it. -/
def SentSince (calls : List CookieCall) (line : CookieLine) : Prop :=
  ∃ before url now headers behind, calls = before ++ .store url now headers :: behind ∧
    .clear ∉ behind ∧ line ∈ linesOf libraries url now headers ∧
    line.host = canonicalHost libraries url

/-- A line lets its cookie be sent to a host: the one it came from, or one that is within the
domain that the line names, as the first is, and shares its last two labels. -/
def Reaches (line : CookieLine) (host : Bytes) : Prop :=
  host = line.host ∨ rawDomain line.raw ≠ [] ∧ IsWithin (normalDomain line.raw) line.host ∧
    IsWithin (normalDomain line.raw) host ∧ lastLabels host = lastLabels line.host

/-- What is promised of the cookies that are sent with a request. -/
structure SendsOnly (calls : List CookieCall) (now : Int) (url : UrlParts) : Prop where
  cookie : ∀ cookie ∈ (run libraries calls).selected libraries now url, ∃ line,
    SentSince libraries calls line ∧
      ((accepted libraries calls).filter (·.key = cookie.1)).getLast? = some line ∧
      cookie.2.value = line.entry.value ∧ Reaches line (canonicalHost libraries url) ∧
      Covers cookie.1.path url.path ∧ (line.entry.secure = true → url.scheme = ascii "https") ∧
      ∀ expires ∈ line.entry.expires, now < expires
  order : ((run libraries calls).selected libraries now url).Pairwise fun first second =>
    second.1.path.length < first.1.path.length ∨
      first.1.path = second.1.path ∧ first.2.sequence < second.2.sequence

/-! ## What the jar holds -/

/-- An entry of the jar is what the last line for its key has set. -/
def Holds (lines : List CookieLine) (key : CookieKey) (entry : CookieEntry) : Prop :=
  ∃ line, (lines.filter (·.key = key)).getLast? = some line ∧ line.expired = false ∧
    entry = { line.entry with sequence := entry.sequence }

/-- The entries follow the lines, and their sequences tell when they were made. -/
structure Faithful (lines : List CookieLine) (jar : CookieJar) : Prop where
  holds : ∀ key entry, jar.entries.get? key = some entry → Holds lines key entry
  below : ∀ key entry, jar.entries.get? key = some entry → entry.sequence < jar.sequence
  distinct : ∀ key entry other found, jar.entries.get? key = some entry →
    jar.entries.get? other = some found → entry.sequence = found.sequence → key = other

variable {libraries} {lines : List CookieLine} {jar : CookieJar}

variable {line : CookieLine}

theorem holds_append {key : CookieKey} {entry : CookieEntry}
    (other : line.key ≠ key) (holds : Holds lines key entry) :
    Holds (lines ++ [line]) key entry := by
  obtain ⟨last, found, kept, same⟩ := holds
  refine ⟨last, ?_, kept, same⟩
  rw [List.filter_append, List.filter_singleton, decide_eq_false other]
  simpa using found

theorem holds_line (kept : line.expired = false) (sequence : Nat) :
    Holds (lines ++ [line]) line.key { line.entry with sequence } := by
  refine ⟨line, ?_, kept, rfl⟩
  rw [List.filter_append, List.filter_singleton, decide_eq_true rfl]
  exact List.getLast?_concat

theorem Faithful.put (faithful : Faithful lines jar)
    (kept : line.expired = false) {sequence next : Nat} (below : sequence < next)
    (later : jar.sequence ≤ next)
    (own : ∀ key entry, jar.entries.get? key = some entry → entry.sequence = sequence →
      key = line.key) :
    Faithful (lines ++ [line])
      ⟨jar.entries.put line.key { line.entry with sequence }, next⟩ := by
  have look (key : CookieKey) (entry : CookieEntry)
      (found : (jar.entries.put line.key { line.entry with sequence }).get? key = some entry) :
      key = line.key ∧ entry = { line.entry with sequence } ∨
        key ≠ line.key ∧ jar.entries.get? key = some entry := by
    rw [Table.get?_put] at found
    split at found
    next same => exact .inl ⟨same.symm, (Option.some.inj found).symm⟩
    next other => exact .inr ⟨Ne.symm other, found⟩
  refine ⟨fun key entry found => ?_, fun key entry found => ?_,
    fun key entry other second found foundToo same => ?_⟩
  · obtain ⟨rfl, rfl⟩ | ⟨other, old⟩ := look key entry found
    · exact holds_line kept sequence
    · exact holds_append (Ne.symm other) (faithful.holds key entry old)
  · obtain ⟨_, rfl⟩ | ⟨_, old⟩ := look key entry found
    · exact below
    · exact Nat.lt_of_lt_of_le (faithful.below key entry old) later
  · obtain ⟨rfl, rfl⟩ | ⟨_, old⟩ := look key entry found
    · obtain ⟨rfl, _⟩ | ⟨_, oldToo⟩ := look other second foundToo
      · rfl
      · exact (own other second oldToo same.symm).symm
    · obtain ⟨rfl, rfl⟩ | ⟨_, oldToo⟩ := look other second foundToo
      · exact own key entry old same
      · exact faithful.distinct key entry other second old oldToo same

theorem Faithful.apply (faithful : Faithful lines jar) (line : CookieLine) :
    Faithful (lines ++ [line]) (jar.apply line) := by
  unfold CookieJar.apply
  split
  next expired =>
    have look (key : CookieKey) (entry : CookieEntry)
        (found : (jar.entries.erase line.key).get? key = some entry) :
        line.key ≠ key ∧ jar.entries.get? key = some entry := by
      rw [Table.get?_erase] at found
      split at found
      next => cases found
      next other => exact ⟨other, found⟩
    exact ⟨fun key entry found =>
        holds_append (look key entry found).1 (faithful.holds key entry (look key entry found).2),
      fun key entry found => faithful.below key entry (look key entry found).2,
      fun key entry other second found foundToo => faithful.distinct key entry other second
        (look key entry found).2 (look other second foundToo).2⟩
  next kept =>
    have kept : line.expired = false := Bool.eq_false_iff.mpr kept
    cases found : jar.entries.get? line.key with
    | some old =>
      exact faithful.put kept (faithful.below _ _ found) (Nat.le_refl _)
        fun key entry there same => faithful.distinct key entry _ _ there found same
    | none =>
      refine faithful.put kept (Nat.lt_succ_self _) (Nat.le_succ _) fun key entry there same => ?_
      exact absurd same (Nat.ne_of_lt (faithful.below key entry there))

theorem Faithful.foldl (faithful : Faithful lines jar) (more : List CookieLine) :
    Faithful (lines ++ more) (more.foldl CookieJar.apply jar) := by
  induction more generalizing lines jar with
  | nil =>
    rw [List.append_nil]
    exact faithful
  | cons line rest ih =>
    have stepped := ih (faithful.apply line)
    rw [List.append_assoc] at stepped
    exact stepped

variable {now : Int}

theorem get?_retain {key : CookieKey} {entry : CookieEntry}
    (found : (jar.retain now).entries.get? key = some entry) :
    jar.entries.get? key = some entry ∧ entry.expires.all (now < ·) = true := by
  obtain ⟨there, fresh⟩ := List.mem_filter.mp (Table.get?_eq_some_iff.mp found)
  exact ⟨Table.get?_eq_some_iff.mpr there, fresh⟩

theorem Faithful.retain (faithful : Faithful lines jar) (now : Int) :
    Faithful lines (jar.retain now) :=
  ⟨fun key entry found => faithful.holds key entry (get?_retain found).1,
    fun key entry found => faithful.below key entry (get?_retain found).1,
    fun key entry other second found foundToo => faithful.distinct key entry other second
      (get?_retain found).1 (get?_retain foundToo).1⟩

theorem faithful_clear (jar : CookieJar) : Faithful [] jar.clear :=
  ⟨fun _ _ found => absurd found (by simp [clear]), fun _ _ found => absurd found (by simp [clear]),
    fun _ _ _ _ found => absurd found (by simp [clear])⟩

theorem faithful_run (calls : List CookieCall) :
    Faithful (accepted libraries calls) (run libraries calls) := by
  induction calls using List.reverseRecOn with
  | nil => exact faithful_clear {}
  | append_singleton calls one ih =>
    unfold accepted run at ih ⊢
    rw [List.foldl_concat, List.foldl_concat]
    cases one with
    | store url now headers => exact ih.foldl _
    | header url now => exact ih.retain now
    | clear => exact faithful_clear _

variable {url : UrlParts}

theorem readLine_spec {raw : Bytes} (read : readLine libraries url now raw = some line) :
    line.host = canonicalHost libraries url ∧ line.key.partition = jarKey line.host ∧
      domainOf line.host line.raw = some (line.key.domain, line.entry.hostOnly) := by
  unfold readLine at read
  split at read
  next => cases read
  next =>
    obtain ⟨cookie, _, read⟩ := Option.bind_eq_some_iff.mp read
    split at read
    next => cases read
    next =>
      obtain ⟨⟨value, quoted⟩, _, read⟩ := Option.bind_eq_some_iff.mp read
      obtain ⟨⟨domain, hostOnly⟩, found, read⟩ := Option.bind_eq_some_iff.mp read
      cases read
      exact ⟨rfl, rfl, found⟩

theorem linesOf_spec {headers : List Bytes} (member : line ∈ linesOf libraries url now headers) :
    line.host = canonicalHost libraries url ∧ line.key.partition = jarKey line.host ∧
      domainOf line.host line.raw = some (line.key.domain, line.entry.hostOnly) := by
  unfold linesOf at member
  split at member
  next => cases member
  next =>
    obtain ⟨raw, _, read⟩ := List.mem_filterMap.mp member
    exact readLine_spec read

theorem sentSince_of_mem {calls : List CookieCall}
    (member : line ∈ accepted libraries calls) : SentSince libraries calls line := by
  induction calls using List.reverseRecOn with
  | nil => cases member
  | append_singleton calls one ih =>
    unfold accepted at ih member
    rw [List.foldl_concat] at member
    have extend (here : line ∈ accepted libraries calls) (other : one ≠ .clear) :
        SentSince libraries (calls ++ [one]) line := by
      obtain ⟨before, url, now, headers, behind, same, unclear, inside⟩ := ih here
      refine ⟨before, url, now, headers, behind ++ [one], by rw [same]; simp, ?_, inside⟩
      exact fun cleared => (List.mem_append.mp cleared).elim unclear
        fun last => other (List.mem_singleton.mp last).symm
    cases one with
    | store url now headers =>
      obtain earlier | here := List.mem_append.mp member
      · exact extend earlier nofun
      · exact ⟨calls, url, now, headers, [], rfl, List.not_mem_nil, here, (linesOf_spec here).1⟩
    | header url now => exact extend member nofun
    | clear => cases member

/-! ## What is sent -/

theorem lastLabels_lastLabels (host : Bytes) : lastLabels (lastLabels host) = lastLabels host := by
  unfold lastLabels
  cases split : rsplitOnce (code '.') host with
  | none => rw [split]
  | some parts =>
    obtain ⟨front, last⟩ := parts
    dsimp only
    cases splitToo : rsplitOnce (code '.') front with
    | none => rw [split]; dsimp only; rw [splitToo]
    | some parts =>
      obtain ⟨others, label⟩ := parts
      dsimp only
      rw [rsplitOnce_append (rsplitOnce_eq_some split).2]
      dsimp only
      rw [rsplitOnce_of_notMem (rsplitOnce_eq_some splitToo).2]

theorem reaches_of_isSent {sequence : Nat} (partition : line.key.partition = jarKey line.host)
    (found : domainOf line.host line.raw = some (line.key.domain, line.entry.hostOnly))
    (sent : isSent libraries url (line.key, { line.entry with sequence }) = true) :
    Reaches line (canonicalHost libraries url) := by
  simp only [isSent, Bool.and_eq_true, Bool.or_eq_true, decide_eq_true_eq,
    List.isSuffixOf_iff_suffix] at sent
  obtain ⟨⟨⟨jar, _⟩, host⟩, _⟩ := sent
  unfold domainOf at found
  split at found
  next =>
    obtain ⟨domain, only⟩ := Prod.mk.inj (Option.some.inj found)
    rw [← domain, ← only] at host
    exact .inl (host.elim id fun below => by cases below.1)
  next named =>
    split at found
    next =>
      split at found
      next => cases found
      next =>
        obtain ⟨domain, only⟩ := Prod.mk.inj (Option.some.inj found)
        rw [← domain, ← only] at host
        exact .inl (host.elim id fun below => by cases below.1)
    next plain =>
      dsimp only at found
      split at found
      next => cases found
      next valid =>
        obtain ⟨domain, _⟩ := Prod.mk.inj (Option.some.inj found)
        rw [← domain] at host
        have within : IsWithin (normalDomain line.raw) line.host := by
          by_contra outside
          exact valid (.inr (.inr (.inr (.inr outside))))
        have labels : jarKey (canonicalHost libraries url) = lastLabels line.host := by
          rw [← jar, partition]
          exact if_neg plain
        refine .inr ⟨named, within, host.imp id (·.2), ?_⟩
        unfold jarKey at labels
        split at labels
        next => rw [labels, lastLabels_lastLabels]
        next => exact labels

theorem precedes_trans (first second third : CookieKey × CookieEntry)
    (before : precedes first second) (behind : precedes second third) : precedes first third := by
  simp only [precedes, decide_eq_true_eq] at before behind ⊢
  obtain less | ⟨same, le⟩ := before
  · obtain lessToo | ⟨sameToo, _⟩ := behind
    · exact .inl (List.lt_trans lessToo less)
    · exact .inl (sameToo ▸ less)
  · obtain lessToo | ⟨sameToo, leToo⟩ := behind
    · exact .inl (same ▸ lessToo)
    · exact .inr ⟨same.trans sameToo, Nat.le_trans le leToo⟩

theorem precedes_total (first second : CookieKey × CookieEntry) :
    precedes first second || precedes second first := by
  simp only [precedes, Bool.or_eq_true, decide_eq_true_eq]
  by_cases less : second.1.path < first.1.path
  · exact .inl (.inl less)
  · by_cases greater : first.1.path < second.1.path
    · exact .inr (.inl greater)
    · have same : first.1.path = second.1.path := List.le_antisymm less greater
      exact (Nat.le_total first.2.sequence second.2.sequence).imp (fun le => .inr ⟨same, le⟩)
        fun le => .inr ⟨same.symm, le⟩

theorem length_lt_of_lt {first second request : Bytes} (covers : Covers first request)
    (coversToo : Covers second request) (less : second < first) : second.length < first.length := by
  have front : first <+: request := covers.elim (fun same => same ▸ List.prefix_rfl) (·.1)
  have frontToo : second <+: request := coversToo.elim (fun same => same ▸ List.prefix_rfl) (·.1)
  by_contra short
  exact (List.prefix_of_prefix_length_le front frontToo (Nat.le_of_not_lt short)).le less

variable {cookie : CookieKey × CookieEntry}

theorem mem_selected (member : cookie ∈ jar.selected libraries now url) :
    (jar.retain now).entries.get? cookie.1 = some cookie.2 ∧
      isSent libraries url cookie = true := by
  obtain ⟨there, sent⟩ := List.mem_filter.mp (List.mem_mergeSort.mp member)
  exact ⟨Table.get?_eq_some_iff.mpr there, sent⟩

theorem covers_of_isSent (sent : isSent libraries url cookie = true) :
    Covers cookie.1.path url.path ∧ (cookie.2.secure = true → url.scheme = ascii "https") := by
  simp only [isSent, Bool.and_eq_true, Bool.or_eq_true, decide_eq_true_eq] at sent
  obtain ⟨⟨⟨_, secure⟩, _⟩, covers⟩ := sent
  refine ⟨covers, fun only => secure.resolve_left ?_⟩
  rw [only]
  exact Bool.false_ne_true

theorem pairwise_selected (faithful : Faithful lines jar) (now : Int) (url : UrlParts) :
    (jar.selected libraries now url).Pairwise fun first second =>
      second.1.path.length < first.1.path.length ∨
        first.1.path = second.1.path ∧ first.2.sequence < second.2.sequence := by
  have apart : (jar.selected libraries now url).Pairwise (·.1 ≠ ·.1) :=
    ((List.mergeSort_perm _ _).pairwise_iff Ne.symm).mpr
      ((List.pairwise_map.mp (jar.retain now).entries.nodup).filter _)
  have sorted : (jar.selected libraries now url).Pairwise (precedes · ·) :=
    List.pairwise_mergeSort precedes_trans precedes_total _
  refine (sorted.and apart).imp_of_mem fun {first second} member memberToo both => ?_
  obtain ⟨there, sent⟩ := mem_selected member
  obtain ⟨thereToo, sentToo⟩ := mem_selected memberToo
  obtain less | ⟨same, le⟩ := of_decide_eq_true both.1
  · exact .inl (length_lt_of_lt (covers_of_isSent sent).1 (covers_of_isSent sentToo).1 less)
  · refine .inr ⟨same, Nat.lt_of_le_of_ne le fun equal => both.2 ?_⟩
    exact (faithful.retain now).distinct _ _ _ _ there thereToo equal

/-- A cookie is only sent where the last line that set it lets it go. -/
theorem sendsOnly (libraries : CookieLibraries) (calls : List CookieCall) (now : Int)
    (url : UrlParts) : SendsOnly libraries calls now url := by
  have faithful : Faithful (accepted libraries calls) (run libraries calls) := faithful_run calls
  refine ⟨fun cookie member => ?_, pairwise_selected faithful now url⟩
  obtain ⟨there, sent⟩ := mem_selected member
  obtain ⟨kept, fresh⟩ := get?_retain there
  obtain ⟨line, last, _, same⟩ := faithful.holds _ _ kept
  obtain ⟨inside, own⟩ := List.mem_filter.mp (List.mem_of_getLast? last)
  have since := sentSince_of_mem inside
  obtain ⟨_, _, _, _, _, _, _, among, _⟩ := id since
  obtain ⟨_, partition, domain⟩ := linesOf_spec among
  obtain ⟨key, entry⟩ := cookie
  have isKey : line.key = key := of_decide_eq_true own
  subst isKey
  obtain ⟨covers, secure⟩ := covers_of_isSent sent
  dsimp only at same fresh secure covers
  rw [same] at fresh secure sent
  refine ⟨line, since, last, by rw [same], reaches_of_isSent partition domain sent, covers,
    secure, fun expires isExpires => ?_⟩
  rw [Option.all_eq_true] at fresh
  exact of_decide_eq_true (fresh expires isExpires)

/-- Lines of the form `name=value; Domain=domain`. -/
def plainLibraries : CookieLibraries where
  parse raw := (splitOnce (code '=') raw).map fun (name, _) => { name }
  isHeaderName name := !name.isEmpty
  parseHost host := some host
  lastTime := 253402300799999999999
  isizeBits := 64

/-- A request for the root of a host. -/
def rootOf (hostname : String) : UrlParts where
  scheme := ascii "https"
  hostname := ascii hostname
  path := ascii "/"
  rawPath := ascii "/"
  rawQuery := []
  forceQuery := false
  fragment := []
  port := none
  hasCredentials := false
  host := ascii hostname
  username := []
  password := none
  opaquePart := []
  omitHost := false

/-- Two hosts set a cookie of the same domain, path and name. -/
def crossed : List CookieCall :=
  [.store (rootOf "a.one.test") 0 [ascii "c=1; Domain=test"],
    .store (rootOf "b.two.test") 0 [ascii "c=2; Domain=test"]]

/-- A host below a domain of one label is sent its own value, though another host has set the
cookie of that domain, path and name since. -/
theorem sent_outdated :
    ∃ cookie ∈ (run plainLibraries crossed).selected plainLibraries 0 (rootOf "a.one.test"),
      ∃ line, ((accepted plainLibraries crossed).filter fun line =>
          line.key.domain = cookie.1.domain ∧ line.key.path = cookie.1.path ∧
            line.key.name = cookie.1.name).getLast? = some line ∧
        line.expired = false ∧ cookie.2.value ≠ line.entry.value := by
  refine ⟨(⟨ascii "one.test", ascii "test", ascii "/", ascii "c"⟩,
    ⟨ascii "1", false, false, none, 0⟩), List.mem_mergeSort.mpr (by decide +kernel),
    ⟨ascii "c=2; Domain=test", ascii "b.two.test",
      ⟨ascii "two.test", ascii "test", ascii "/", ascii "c"⟩,
      ⟨ascii "2", false, false, none, 0⟩, false⟩, by decide +kernel, rfl, by decide⟩

end CookieJar
end LosslessMusic.Network
