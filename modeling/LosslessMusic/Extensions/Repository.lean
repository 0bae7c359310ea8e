import LosslessMusic.Text
import LosslessMusic.Transition.Machine
import LosslessMusic.Transition.Parties
import Mathlib.Logic.Function.Basic

/-!
# The extension registry

`ExtensionRepository` for callers that set its URL, fetch the registry and download packages.
What a caller does under one lock is one event, and so is each answer of a server. File
operations succeed, the file of the cache is what can be read from it, and a caller does one
operation.
-/

namespace LosslessMusic.Extensions.Repository

open Transition

abbrev Bytes := List UInt8

/-! ## Registries and checksums -/

/-- `RepoExtension`, as far as a download reads it. -/
structure RepoExtension where
  id : String
  downloadUrl : String
  downloadUrlAlt : String
  sha256 : String
  checksumSha256 : String
  checksumAlt : String
  deriving DecidableEq, Repr

structure Registry where
  extensions : List RepoExtension
  deriving DecidableEq, Repr

def first (values : List String) : String :=
  (values.find? fun value => !value.isEmpty).getD ""

/-- `raw_sha256`. -/
def RepoExtension.rawSha256 (entry : RepoExtension) : String :=
  first [Text.trimWhite entry.sha256, Text.trimWhite entry.checksumSha256,
    Text.trimWhite entry.checksumAlt]

/-- `download_url`. -/
def RepoExtension.url (entry : RepoExtension) : String :=
  first [entry.downloadUrl, entry.downloadUrlAlt]

/-- `is_ascii_hexdigit`. -/
def isHexDigit (char : Char) : Bool :=
  char.isDigit || ('a' ≤ char && char ≤ 'f') || ('A' ≤ char && char ≤ 'F')

/-- `normalize_sha256`. -/
def normalizeSha256 (value : String) : String :=
  let lowered := (Text.lowercase (Text.trimWhite value)).toList
  let normalized := if "sha256:".toList.isPrefixOf lowered then lowered.drop 7 else lowered
  if normalized.length = 64 ∧ normalized.all isHexDigit = true then String.ofList normalized
  else ""

def lowerHex (bytes : Bytes) : String :=
  String.ofList (bytes.flatMap fun byte =>
    [Nat.digitChar (byte.toNat / 16), Nat.digitChar (byte.toNat % 16)])

/-- `UrlParts`, as far as `require_https` reads it. -/
structure UrlParts where
  scheme : String
  hostname : String
  deriving DecidableEq, Repr

/-- What the repository calls. -/
structure Libraries where
  /-- `UrlParts::parse`. -/
  parse : String → Option UrlParts
  /-- The path of a package in a directory, of its id and its URL. -/
  packagePath : String → String → String → String
  /-- `Sha256`. -/
  digest : Bytes → Bytes
  digest_length : ∀ bytes, (digest bytes).length = 32

variable (libraries : Libraries)

def requireHttps (input context : String) : Except String Unit :=
  if input.isEmpty then .error (context ++ " URL is empty")
  else
    match (libraries.parse input).filter fun url => !url.hostname.isEmpty with
    | none => .error (context ++ " URL is invalid: " ++ input)
    | some url =>
      if url.scheme ≠ "https" then .error (context ++ " URL must use https: " ++ input)
      else .ok ()

def destinationPath (directory id url : String) : Except String String :=
  if (Text.trimWhite id).isEmpty then .error "invalid extension id"
  else .ok (libraries.packagePath directory id url)

/-- Whether `write_verified_package` finds fault with the bytes, behind its loop. -/
def verify (expected : String) (bytes : Bytes) : Except String Unit :=
  let normalized := normalizeSha256 expected
  if (Text.trimWhite expected).isEmpty = false ∧ normalized.isEmpty = true then
    .error "registry contains an invalid extension SHA-256 checksum"
  else if normalized.isEmpty = false ∧
      ((lowerHex (libraries.digest bytes)).toList.zip normalized.toList).any
        (fun pair => pair.1 != pair.2) = true then
    .error "extension package integrity check failed: SHA-256 mismatch"
  else .ok ()

/-! ## The cache -/

/-- An `Arc<Registry>`, with the URL it was obtained from, and when. -/
structure Obtained where
  registry : Registry
  url : String
  epoch : Nat
  deriving DecidableEq, Repr

structure Cache where
  registryUrl : String
  registry : Obtained
  cacheTime : Int
  etag : String
  lastModified : String
  deriving DecidableEq, Repr

/-- The headers that ask for a newer registry. -/
def validators : Option Cache → List (String × String)
  | none => []
  | some cache =>
    (if cache.etag.isEmpty then [] else [("If-None-Match", cache.etag)]) ++
      (if cache.lastModified.isEmpty then [] else [("If-Modified-Since", cache.lastModified)])

/-- `CACHE_TTL`, in seconds. -/
def cacheTtl : Int := 30 * 60

/-- What a server answers to a request for the registry. The body is what
`Registry::parse` makes of it. -/
inductive Answer
  | failed (error : String)
  | unread (error : String)
  | oversized
  | answered (status : Nat) (etag lastModified : String) (body : Except String Registry)
  deriving Repr

def closedError : String := "extension repository closed"

def changedError : String := "registry changed while operation was running"

def cause (context error : String) : String := context ++ ": " ++ error

def readRegistry : Answer → Except String (Nat × String × String × Except String Registry)
  | .failed error => .error (cause "failed to fetch registry" error)
  | .unread error => .error (cause "failed to read registry" error)
  | .oversized => .error "registry response exceeds 4194304 bytes"
  | .answered status etag lastModified body => .ok (status, etag, lastModified, body)

/-- The result of a refresh that keeps what is cached. -/
def fallback (cached : Option Cache) (error : String) : Except String Obtained :=
  match cached with
  | some cache => .ok cache.registry
  | none => .error error

/-- What a refresh has come to behind its answer: a result, or a cache to save. -/
inductive Judgement
  | result (result : Except String Obtained)
  | cache (notModified : Bool) (cache : Cache)
  deriving Repr

/-- The middle of `refresh`. -/
def judge (url : String) (epoch : Nat) (cached : Option Cache) (now : Int) (answer : Answer) :
    Judgement :=
  match readRegistry answer with
  | .error error =>
    if Text.startsWith error "failed to read registry:" then .result (.error error)
    else .result (fallback cached error)
  | .ok (status, etag, lastModified, body) =>
    match cached with
    | some cache =>
      if status ≠ 200 ∧ status ≠ 304 then .result (.ok cache.registry)
      else if status = 304 then .cache true { cache with cacheTime := now }
      else
        match body with
        | .error _ => .result (.ok cache.registry)
        | .ok registry => .cache false
            ⟨url, ⟨registry, url, epoch⟩, now, Text.trimWhite etag, Text.trimWhite lastModified⟩
    | none =>
      if status ≠ 200 then
        .result (.error ("registry returned HTTP " ++ toString status))
      else
        match body with
        | .error error => .result (.error error)
        | .ok registry => .cache false
            ⟨url, ⟨registry, url, epoch⟩, now, Text.trimWhite etag, Text.trimWhite lastModified⟩

/-! ## The repository -/

/-- The values of `generation`. -/
def generations : Nat := 2 ^ 64

/-- `Flight`, with its generation, its epoch, and what its leader has saved. -/
structure Flight where
  generation : Nat
  epoch : Nat
  saved : Option Cache
  result : Option (Except String Obtained)
  deriving Repr

/-- A download. -/
structure Download where
  began : Nat
  directory : String
  id : String
  generation : Nat
  deriving DecidableEq, Repr

/-- Who fetches the registry. -/
inductive Task
  | fetch (began : Nat)
  | download (download : Download)
  deriving DecidableEq, Repr

/-- What a fetch remembers of the state behind its lock. -/
structure Fetch where
  task : Task
  url : String
  generation : Nat
  epoch : Nat
  cached : Option Cache
  flight : Nat
  deriving DecidableEq, Repr

/-- Where the leader of a flight is. -/
inductive Leading
  | requesting
  | answered (answer : Answer)
  | saving (notModified : Bool) (cache : Cache)
  | publishing (result : Except String Obtained)
  | removing (result : Except String Obtained)
  deriving Repr

/-- How a fetch has come to its result. -/
inductive Via
  | directly
  | led (flight : Nat)
  | followed (flight : Nat)
  deriving DecidableEq, Repr

/-- Where a download is that has its registry. -/
inductive Downloading
  | selecting
  | opening (entry : RepoExtension) (destination : String)
  | beginning (entry : RepoExtension) (destination : String)
  | streaming (entry : RepoExtension) (destination : String) (bytes : Bytes)
  | verified (entry : RepoExtension) (destination : String) (bytes : Bytes)
  | persisting (entry : RepoExtension) (destination : String) (bytes : Bytes)
  deriving DecidableEq, Repr

/-- Where a caller is. -/
inductive Caller
  | idle
  /-- In `set_registry_url`, before and behind the resolution of its input. -/
  | setting
  | changing (url : String)
  /-- In `download`, before its generation is read, and before its `fetch`. -/
  | starting (began : Nat) (directory id : String)
  | calling (download : Download)
  /-- In `fetch`. -/
  | entered (task : Task) (force : Bool)
  | following (fetch : Fetch)
  | leading (fetch : Fetch) (stage : Leading)
  | fetched (task : Task) (via : Via) (result : Except String Obtained)
  | downloading (download : Download) (registry : Obtained) (stage : Downloading)
  /-- Before its `Operation` is dropped, and behind it. -/
  | leaving (result : Except String String)
  | returned (result : Except String String)
  /-- Behind a `fetch` that was called from outside. -/
  | done (began : Nat) (via : Via) (result : Except String Obtained)
  deriving Repr

/-- Where a caller goes behind the `Operation` of a fetch. -/
def Task.next (via : Via) (result : Except String Obtained) : Task → Caller
  | .fetch began => .done began via result
  | .download wanted =>
    match result with
    | .error error => .leaving (.error error)
    | .ok registry => .downloading wanted registry .selecting

/-- Where a thread is that shuts the repository down. -/
inductive Shutdown
  | idle
  | waiting
  | ended
  deriving DecidableEq, Repr

/-- When a task began. -/
def Task.began : Task → Nat
  | .fetch began => began
  | .download wanted => wanted.began

/-- How many operations a task has entered. -/
def Task.operations : Task → Nat
  | .fetch _ => 1
  | .download _ => 2

/-- How many operations a caller has entered and not left. -/
def Caller.operations : Caller → Nat
  | .idle | .returned _ | .done _ _ _ => 0
  | .setting | .changing _ | .starting _ _ _ | .calling _ | .downloading _ _ _
  | .leaving _ => 1
  | .entered task _ | .fetched task _ _ => task.operations
  | .following fetch | .leading fetch _ => fetch.task.operations

/-- When the operation of a caller began, while it runs. -/
def Caller.began? : Caller → Option Nat
  | .starting began _ _ => some began
  | .calling download | .downloading download _ _ => some download.began
  | .entered task _ | .fetched task _ _ => some task.began
  | .following fetch | .leading fetch _ => some fetch.task.began
  | .idle | .setting | .changing _ | .leaving _ | .returned _ | .done _ _ _ => none

/-- What is remembered of a run. -/
inductive Happening
  | changed (url : String)
  /-- A leader has saved a cache: its validators, whether they were met, and whether the cache
  was written to its file. -/
  | saved (flight : Nat) (sent : List (String × String)) (notModified : Bool) (cache : Cache)
      (written : Bool)
  deriving Repr

/-- A package that has replaced its destination. -/
structure Package where
  entry : RepoExtension
  registry : Obtained
  destination : String
  bytes : Bytes
  deriving DecidableEq, Repr

/-- The repository and its callers, and what is remembered of a run with the latest first. -/
structure System where
  url : String
  generation : Nat
  cache : Option Cache
  file : Option Cache
  table : Nat → Option Nat
  flights : List Flight
  pending : Nat
  closed : Bool
  parentClosed : Bool
  callers : List Caller
  shutdowns : Nat → Shutdown
  /-- The changes of the URL, and the URL of each epoch. -/
  epoch : Nat
  urls : List String
  log : List Happening
  packages : List Package

/-- What a caller wants. -/
inductive Operation
  | setRegistryUrl
  | fetch (force : Bool)
  | download (directory id : String)
  deriving DecidableEq, Repr

/-- What happens. -/
inductive Event
  /-- `enter`. -/
  | enter (caller : Nat) (operation : Operation)
  /-- What the input of `set_registry_url` stands for. -/
  | resolve (caller : Nat) (location : Except String String)
  | change (caller : Nat)
  /-- The locked section of `clear_registry_url`. -/
  | clear
  | begin (caller : Nat)
  | call (caller : Nat)
  | look (caller : Nat) (now : Int)
  | poll (caller : Nat)
  | answer (caller : Nat) (answer : Answer)
  | judge (caller : Nat) (now : Int)
  | save (caller : Nat) (large : Bool)
  | publish (caller : Nat)
  | remove (caller : Nat)
  /-- An `Operation` is dropped. -/
  | leave (caller : Nat)
  | select (caller : Nat)
  | open (caller : Nat) (status : Except String Nat)
  | prepare (caller : Nat)
  | read (caller : Nat) (chunk : Except String Bytes)
  | confirm (caller : Nat)
  | persist (caller : Nat)
  | shutdown (thread : Nat)
  | awake (thread : Nat)
  | closeParent
  deriving Repr

/-- `MAX_PACKAGE_BYTES`. -/
def maxPackageBytes : Nat := 64 * 2 ^ 20

/-- How much the loop of `write_verified_package` reads at once. -/
def readLimit (written : Nat) : Nat := min (64 * 1024) (maxPackageBytes + 1 - written)

namespace System

/-- A repository over the file of an earlier one. -/
def beginning (callers : Nat) (file : Option Cache) : System where
  url := (file.map (·.registryUrl)).getD ""
  generation := 0
  cache := file
  file := file
  table _ := none
  flights := []
  pending := 0
  closed := false
  parentClosed := false
  callers := List.replicate callers .idle
  shutdowns _ := .idle
  epoch := 0
  urls := [(file.map (·.registryUrl)).getD ""]
  log := []
  packages := []

variable (system : System)

/-- Whether `check` fails. -/
def isClosed : Bool := system.closed || system.parentClosed

def checkGeneration (generation : Nat) : Except String Unit :=
  if system.isClosed then .error closedError
  else if system.generation ≠ generation then .error changedError
  else .ok ()

/-- A caller goes on. -/
def setCaller (caller : Nat) (point : Caller) : System :=
  { system with callers := system.callers.set caller point }

/-- A caller enters an operation. -/
def enters (caller : Nat) (point : Caller) : System :=
  { system.setCaller caller point with pending := system.pending + 1 }

/-- A caller leaves an operation. -/
def leaves (caller : Nat) (point : Caller) : System :=
  { system.setCaller caller point with pending := system.pending - 1 }

/-- `clear_locked`, behind a change of the URL. -/
def clearLocked (url : String) : System :=
  { system with
    url := url
    generation := (system.generation + 1) % generations
    cache := none
    file := none
    table := fun _ => none
    epoch := system.epoch + 1
    urls := system.urls ++ [url]
    log := .changed url :: system.log }

/-- The state behind the lock of `fetch`, for a task that has to refresh. -/
def take (caller : Nat) (task : Task) : System :=
  let fetch (flight : Nat) : Fetch :=
    ⟨task, system.url, system.generation, system.epoch, system.cache, flight⟩
  match system.table system.generation with
  | some flight => system.setCaller caller (.following (fetch flight))
  | none =>
    { system.setCaller caller (.leading (fetch system.flights.length) .requesting) with
      table := Function.update system.table system.generation (some system.flights.length)
      flights := system.flights ++ [⟨system.generation, system.epoch, none, none⟩] }

/-- The locked section of `fetch`. -/
def look (caller : Nat) (task : Task) (force : Bool) (now : Int) : System :=
  if system.url.isEmpty then
    system.setCaller caller (.fetched task .directly
      (.error "no registry URL configured. Please add a repository URL first"))
  else
    match requireHttps libraries system.url "registry" with
    | .error error => system.setCaller caller (.fetched task .directly (.error error))
    | .ok () =>
      match system.cache with
      | some cache =>
        if force = false ∧ now - cache.cacheTime < cacheTtl then
          system.setCaller caller (.fetched task .directly (.ok cache.registry))
        else system.take caller task
      | none => system.take caller task

/-- `save_locked`, and the cache of the state. -/
def save (caller : Nat) (fetch : Fetch) (notModified large : Bool) (cache : Cache) : System :=
  { system.setCaller caller (.leading fetch (.publishing (.ok cache.registry))) with
    cache := some cache
    file := if large then system.file else some cache
    flights := system.flights.modify fetch.flight fun flight =>
      { flight with saved := some cache }
    log := .saved fetch.flight (validators fetch.cached) notModified cache (!large) ::
      system.log }

/-- A download fails. -/
def fails (caller : Nat) (error : String) : System := system.setCaller caller (.leaving (.error error))

/-- What `download` does with the registry, up to its request. -/
def select (download : Download) (registry : Obtained) : Except String (RepoExtension × String) :=
  match registry.registry.extensions.find? fun entry => entry.id == download.id with
  | none => .error ("extension " ++ download.id ++ " not found in repo")
  | some entry =>
    match requireHttps libraries entry.url "extension download" with
    | .error error => .error error
    | .ok () =>
      match destinationPath libraries download.directory download.id entry.url with
      | .error error => .error error
      | .ok destination => .ok (entry, destination)

/-- One turn of the loop of `write_verified_package`, behind its check: the bytes so far and
whether that is all. -/
def readChunk (expected : String) (bytes : Bytes) : Except String Bytes →
    Except String (Bytes × Bool)
  | .error error => .error (cause "failed to write extension package" error)
  | .ok chunk =>
    if chunk.isEmpty then
      match verify libraries expected bytes with
      | .error error => .error error
      | .ok () => .ok (bytes, true)
    else if readLimit bytes.length < chunk.length then
      .error "invalid extension package reader length"
    else if maxPackageBytes < bytes.length + chunk.length then
      .error "extension package exceeds the 64 MiB size limit"
    else .ok (bytes ++ chunk, false)

/-- What a caller enters. -/
def entering (caller : Nat) : Operation → System
  | .setRegistryUrl =>
    if system.isClosed then system.setCaller caller (.returned (.error closedError))
    else system.enters caller .setting
  | .fetch force =>
    if system.isClosed then
      system.setCaller caller (.done system.epoch .directly (.error closedError))
    else system.enters caller (.entered (.fetch system.epoch) force)
  | .download directory id =>
    if system.isClosed then system.setCaller caller (.returned (.error closedError))
    else system.enters caller (.starting system.epoch directory id)

/-- What a caller does next on its own, if it is in `set_registry_url`. -/
def setting (caller : Nat) : Caller → Event → Option System
  | .setting, .resolve _ location =>
    match location with
    | .error error => some (system.fails caller error)
    | .ok url =>
      match requireHttps libraries url "registry" with
      | .error error => some (system.fails caller error)
      | .ok () => some (system.setCaller caller (.changing url))
  | .changing url, .change _ =>
    if system.isClosed then some (system.fails caller closedError)
    else if system.url = url then some (system.setCaller caller (.leaving (.ok "")))
    else some ((system.clearLocked url).setCaller caller (.leaving (.ok "")))
  | _, _ => none

/-- What a caller does next on its own, if it is in `fetch`. -/
def fetching (caller : Nat) : Caller → Event → Option System
  | .entered task force, .look _ now => some (system.look libraries caller task force now)
  | .following fetch, .poll _ =>
    match system.checkGeneration fetch.generation with
    | .error error =>
      some (system.setCaller caller (.fetched fetch.task (.followed fetch.flight) (.error error)))
    | .ok () =>
      match (system.flights[fetch.flight]?).bind (·.result) with
      | some result =>
        some (system.setCaller caller (.fetched fetch.task (.followed fetch.flight) result))
      | none => some system
  | .leading fetch .requesting, .answer _ answer =>
    some (system.setCaller caller (.leading fetch (.answered answer)))
  | .leading fetch (.answered answer), .judge _ now =>
    match system.checkGeneration fetch.generation with
    | .error error => some (system.setCaller caller (.leading fetch (.publishing (.error error))))
    | .ok () =>
      match Repository.judge fetch.url fetch.epoch fetch.cached now answer with
      | .result result => some (system.setCaller caller (.leading fetch (.publishing result)))
      | .cache notModified cache =>
        some (system.setCaller caller (.leading fetch (.saving notModified cache)))
  | .leading fetch (.saving notModified cache), .save _ large =>
    match system.checkGeneration fetch.generation with
    | .error error => some (system.setCaller caller (.leading fetch (.publishing (.error error))))
    | .ok () => some (system.save caller fetch notModified large cache)
  | .leading fetch (.publishing result), .publish _ =>
    some { system.setCaller caller (.leading fetch (.removing result)) with
      flights := system.flights.modify fetch.flight fun flight =>
        { flight with result := some result } }
  | .leading fetch (.removing result), .remove _ =>
    some { system.setCaller caller (.fetched fetch.task (.led fetch.flight) result) with
      table := Function.update system.table fetch.generation none }
  | _, _ => none

/-- What a caller does next on its own, if it is in `download`. -/
def downloading (caller : Nat) : Caller → Event → Option System
  | .starting began directory id, .begin _ =>
    some (system.setCaller caller (.calling ⟨began, directory, id, system.generation⟩))
  | .calling download, .call _ =>
    if system.isClosed then some (system.fails caller closedError)
    else some (system.enters caller (.entered (.download download) false))
  | .downloading download registry .selecting, .select _ =>
    match select libraries download registry with
    | .error error => some (system.fails caller error)
    | .ok (entry, destination) =>
      some (system.setCaller caller (.downloading download registry (.opening entry destination)))
  | .downloading download registry (.opening entry destination), .open _ status =>
    match status with
    | .error error => some (system.fails caller (cause "failed to download" error))
    | .ok status =>
      if status ≠ 200 then
        some (system.fails caller ("download returned HTTP " ++ toString status))
      else
        some (system.setCaller caller
          (.downloading download registry (.beginning entry destination)))
  | .downloading download registry (.beginning entry destination), .prepare _ =>
    match system.checkGeneration download.generation with
    | .error error => some (system.fails caller error)
    | .ok () =>
      some (system.setCaller caller
        (.downloading download registry (.streaming entry destination [])))
  | .downloading download registry (.streaming entry destination bytes), .read _ chunk =>
    match system.checkGeneration download.generation with
    | .error error => some (system.fails caller error)
    | .ok () =>
      match readChunk libraries entry.rawSha256 bytes chunk with
      | .error error => some (system.fails caller error)
      | .ok (bytes, ended) =>
        some (system.setCaller caller (.downloading download registry
          (if ended then .verified entry destination bytes
            else .streaming entry destination bytes)))
  | .downloading download registry (.verified entry destination bytes), .confirm _ =>
    match system.checkGeneration download.generation with
    | .error error => some (system.fails caller error)
    | .ok () =>
      some (system.setCaller caller
        (.downloading download registry (.persisting entry destination bytes)))
  | .downloading _ registry (.persisting entry destination bytes), .persist _ =>
    some { system.setCaller caller (.leaving (.ok destination)) with
      packages := ⟨entry, registry, destination, bytes⟩ :: system.packages }
  | _, _ => none

/-- What a caller does next on its own. -/
def moves (caller : Nat) (event : Event) : Caller → Option System
  | .idle =>
    match event with
    | .enter _ operation => some (system.entering caller operation)
    | _ => none
  | .setting => system.setting libraries caller .setting event
  | .changing url => system.setting libraries caller (.changing url) event
  | .entered task force => system.fetching libraries caller (.entered task force) event
  | .following fetch => system.fetching libraries caller (.following fetch) event
  | .leading fetch stage => system.fetching libraries caller (.leading fetch stage) event
  | .starting began directory id =>
    system.downloading libraries caller (.starting began directory id) event
  | .calling download => system.downloading libraries caller (.calling download) event
  | .downloading download registry stage =>
    system.downloading libraries caller (.downloading download registry stage) event
  | .fetched task via result =>
    match event with
    | .leave _ => some (system.leaves caller (task.next via result))
    | _ => none
  | .leaving result =>
    match event with
    | .leave _ => some (system.leaves caller (.returned result))
    | _ => none
  | .returned _ | .done _ _ _ => none

end System

/-- The caller an event is about. -/
def Event.caller? : Event → Option Nat
  | .enter caller _ | .resolve caller _ | .change caller | .begin caller | .call caller
  | .look caller _ | .poll caller | .answer caller _ | .judge caller _ | .save caller _
  | .publish caller | .remove caller | .leave caller | .select caller | .open caller _
  | .prepare caller | .read caller _ | .confirm caller | .persist caller => some caller
  | .clear | .shutdown _ | .awake _ | .closeParent => none

namespace System

variable (system : System)

/-- One event, if it can happen. -/
def step (event : Event) : Option System :=
  match event.caller? with
  | some caller => (system.callers[caller]?).bind (system.moves libraries caller event)
  | none =>
    match event with
    | .clear => some (system.clearLocked "")
    | .shutdown thread =>
      match system.shutdowns thread with
      | .idle =>
        some { system with
          closed := true
          shutdowns := Function.update system.shutdowns thread .waiting }
      | _ => none
    | .awake thread =>
      match system.shutdowns thread with
      | .waiting =>
        if system.pending = 0 then
          some { system with shutdowns := Function.update system.shutdowns thread .ended }
        else none
      | _ => none
    | .closeParent => some { system with parentClosed := true }
    | _ => none

end System

/-- A repository, from its making. What its file holds has been obtained from its URL. -/
def machine : Machine System Event where
  Start system := ∃ callers file,
    (∀ cache, file = some cache → cache.registry.url = cache.registryUrl ∧
      cache.registry.epoch = 0) ∧ system = System.beginning callers file
  step system event := system.step libraries event

/-! ## The promises -/

/-- The cache, and its file, behind what is remembered of a run. -/
def cacheAfter (file : Option Cache) : List Happening → Option Cache
  | [] => file
  | .changed _ :: _ => none
  | .saved _ _ _ cache _ :: _ => some cache

def fileAfter (file : Option Cache) : List Happening → Option Cache
  | [] => file
  | .changed _ :: _ => none
  | .saved _ _ _ cache written :: earlier =>
    if written then some cache else fileAfter file earlier

/-- During no operation of a caller the generation comes round. -/
def System.Recent (system : System) : Prop :=
  ∀ point ∈ system.callers, ∀ began, point.began? = some began → system.epoch < began + generations

/-- What a run of the repository promises, from the file it has begun with. -/
structure System.Promised (file : Option Cache) (system : System) : Prop where
  /-- What is cached was obtained from the URL of now, since its last change. -/
  cached : ∀ cache, system.cache = some cache ∨ system.file = some cache →
    cache.registryUrl = system.url ∧ cache.registry.url = system.url ∧
      cache.registry.epoch = system.epoch
  /-- A fetch returns a registry of an epoch that is not before its own, and of the URL of
  that epoch. -/
  fetched : ∀ (began : Nat) (via : Via) (registry : Obtained),
    .done began via (.ok registry) ∈ system.callers →
    began ≤ registry.epoch ∧ system.urls[registry.epoch]? = some registry.url
  /-- So does the fetch of a download. -/
  downloading : ∀ (download : Download) (registry : Obtained) (stage : Downloading),
    .downloading download registry stage ∈ system.callers →
    download.began ≤ registry.epoch ∧ system.urls[registry.epoch]? = some registry.url
  /-- At most one caller refreshes the registry of an epoch. -/
  refreshing : ∀ (leader other : Nat) (fetch again : Fetch) (stage point : Leading),
    system.callers[leader]? = some (.leading fetch stage) →
    system.callers[other]? = some (.leading again point) →
    fetch.epoch = again.epoch → leader = other
  /-- A leader ends with the result of its flight, and so does a follower if it is not told
  that the registry has changed or is closed. -/
  ended : ∀ (task : Task) (began : Nat) (via : Via) (result : Except String Obtained),
    .fetched task via result ∈ system.callers ∨ .done began via result ∈ system.callers →
    (∀ id, via = .led id →
      ∃ flight, system.flights[id]? = some flight ∧ flight.result = some result) ∧
    ∀ id, via = .followed id → result = .error changedError ∨ result = .error closedError ∨
      ∃ flight, system.flights[id]? = some flight ∧ flight.result = some result
  /-- Its own steps and those of a leader lead a follower to its end. -/
  ends : ∀ (follower : Nat) (fetch : Fetch), system.callers[follower]? = some (.following fetch) →
    ∃ leader later, (machine libraries).Path
      (fun _ event => event.caller? = some leader ∨ event.caller? = some follower)
      system later ∧
      ∃ result, later.callers[follower]? =
        some (.fetched fetch.task (.followed fetch.flight) result)
  /-- Only changes of the URL and refreshes that save touch the cache and its file. -/
  touched : system.cache = cacheAfter file system.log ∧ system.file = fileAfter file system.log
  /-- A refresh that saves ends with what it has saved. What a server has not modified is the
  very cache whose validators were sent. -/
  saved : ∀ (id : Nat) (sent : List (String × String)) (notModified : Bool) (cache : Cache)
    (written : Bool) (earlier : List Happening),
    .saved id sent notModified cache written :: earlier <:+ system.log →
    (∃ flight, system.flights[id]? = some flight ∧ flight.saved = some cache ∧
      ∀ result, flight.result = some result → result = .ok cache.registry) ∧
    (notModified = true → ∃ old, cacheAfter file earlier = some old ∧
      sent = validators (some old) ∧ cache = { old with cacheTime := cache.cacheTime })
  /-- A package that replaces its destination is what the checksum of its entry says, if the
  entry has one. -/
  verified : ∀ package ∈ system.packages, package.entry ∈ package.registry.registry.extensions ∧
    (package.entry.rawSha256 ≠ "" → normalizeSha256 package.entry.rawSha256 ≠ "" ∧
        lowerHex (libraries.digest package.bytes) = normalizeSha256 package.entry.rawSha256)
  /-- No operation runs behind `shutdown`. -/
  shut : ∀ thread, system.shutdowns thread = .ended → ∀ point ∈ system.callers, point.operations = 0

end LosslessMusic.Extensions.Repository
