import LosslessMusic.Download.Providers

/-!
# Requests, answers and failures of a download

The planner reads an availability answer and the response of a download, and
classifies failures by the words of their message. The rules here decide which
failures end a download for every provider.
-/

namespace LosslessMusic.Download

open Text

/-! ## Requests -/

/-- The track data that the planner may exchange for better ones. -/
structure Metadata where
  spotifyId : String
  tidalId : String
  qobuzId : String
  deezerId : String
  trackName : String
  artistName : String
  deriving DecidableEq

/-- The part of a download request that the planner reads or sets. -/
structure DownloadRequest where
  itemId : String
  service : String
  source : String
  useFallback : Bool
  metadata : Metadata
  outputExt : String
  downloadProvider : String
  providerTrackId : String
  deriving DecidableEq

/-- A provider's answer whether it has the track. -/
structure Availability where
  available : Bool
  skipFallback : Bool
  reason : String
  trackId : String
  retryAfterSeconds : Int
  deriving DecidableEq

/-- `json!({"available":true})`. -/
def Availability.always : Availability :=
  { available := true, skipFallback := false, reason := "", trackId := "",
    retryAfterSeconds := 0 }

/-! ## Responses -/

/-- The response of a download. -/
structure Response where
  success : Bool
  message : String
  error : String
  errorType : String
  service : String
  retryAfterSeconds : Int
  deriving DecidableEq

/-- The kinds of failure with the words that betray them, first match first. -/
def errorKinds : List (String × List String) :=
  [("isp_blocked", ["isp blocking", "try using vpn", "change dns"]), ("cancelled", ["cancel"]),
   ("verification_required", ["verification_required", "session is not authenticated",
      "signed session is not authenticated", "signed session expired"]),
   ("provider_reauth_required", ["byoa_provider_reauth_required", "reauth_provider"]),
   ("request_auth_invalid", ["request_auth_invalid"]),
   ("provider_auth_failed", ["provider_auth_failed"]),
   ("provider_unavailable", ["provider_unavailable"]),
   ("rate_limit", ["rate limit", "http 429", "http status 429", "status 429", "429 for ", "429:",
      "429;", "too many requests"]),
   ("permission",
     ["permission", "operation not permitted", "access denied", "failed to create file",
      "failed to create directory"]),
   ("not_found", ["not found", "not available", "no results", "track not found",
      "all services failed"]),
   ("network", ["network", "connection", "timeout", "dial"])]

def nativeErrorResponse (message : String) : Response :=
  let lower := toLowerCase message
  let kind :=
    match errorKinds.find? fun entry => entry.2.any (contains lower ·) with
    | none => "unknown"
    | some entry => entry.1
  { success := false, message := "", error := message, errorType := kind,
    service := "", retryAfterSeconds := 0 }

def failure (service message kind : String) (retry : Int) : Response :=
  let response := nativeErrorResponse message
  { response with
    errorType := if kind = "" then response.errorType else kind
    service := service
    retryAfterSeconds := retry }

def stopped (service : String) (availability : Availability) (message : String) :
    Response :=
  let reason :=
    if trimWhite availability.reason ≠ "" then trimWhite availability.reason
    else if message ≠ "" then message
    else "extension requested no further fallback"
  let kind := (nativeErrorResponse reason).errorType
  failure service s!"Fallback stopped by {service}: {reason}"
    (if kind = "unknown" then "extension_error" else kind) 0

def storageFailure (kind message : String) : Bool :=
  eqIgnoreAsciiCase kind "permission" ||
    ["operation not permitted", "permission denied", "read-only file system",
      "failed to create file", "failed to create directory"].any
      (contains (toLowerCase message) ·)

/-- The outcome of `download_resolved`: another provider may be tried, or not.
Successful downloads and host finalization failures are both final. -/
inductive DownloadOutcome
  | retry (response : Response)
  | final (response : Response)
  deriving DecidableEq

/-! ## Track ids -/

def preferredTrackId (request : DownloadRequest) (manifest : ExtensionManifest)
    (explicit : String) : String :=
  if trimWhite explicit ≠ "" then trimWhite explicit
  else
    let metadata := request.metadata
    let spotify := trimWhite metadata.spotifyId
    let replaced := fun entry : String × String =>
      if manifest.replacesBuiltInProviders.any fun id =>
          eqIgnoreAsciiCase (trimWhite id) entry.1 then
        if entry.1 ≠ "spotify" ∧ trimWhite entry.2 ≠ "" then some (trimWhite entry.2)
        else if spotify ≠ "" then
          let scheme := entry.1 ++ ":"
          some (if startsWith (toLowerCase spotify) scheme then
              String.ofList (spotify.toList.drop scheme.length)
            else spotify)
        else none
      else none
    let native :=
      [("tidal", metadata.tidalId), ("qobuz", metadata.qobuzId),
        ("deezer", metadata.deezerId), ("spotify", metadata.spotifyId)].findSome? replaced
    match native with
    | some id => id
    | none =>
      (([metadata.spotifyId, metadata.tidalId, metadata.qobuzId,
        metadata.deezerId].map trimWhite).find? (· ≠ "")).getD ""

/-! ## Prepared requests -/

/-- A request remembered while the user verifies the session. -/
structure Prepared where
  key : String
  metadata : Metadata
  metadataReady : Bool
  deriving DecidableEq

/-- The remembered requests of the last minutes, by item. -/
def PreparedDownloads : Type :=
  String → Option Prepared

def preparationKey (request : DownloadRequest) : String :=
  let metadata := request.metadata
  let plain := trimWhite
  let folded := fun value => toLowerCase (trimWhite value)
  String.intercalate "\n" [plain request.itemId, folded request.service, folded request.source,
      plain metadata.spotifyId, plain metadata.tidalId, plain metadata.qobuzId,
      plain metadata.deezerId, folded metadata.trackName, folded metadata.artistName]

def cachePrepared (cache : PreparedDownloads) (key : String) (request : DownloadRequest)
    (metadataReady : Bool) : PreparedDownloads :=
  let item := trimWhite request.itemId
  if item = "" then cache
  else fun id =>
    if id = item then
      some { key := key, metadata := request.metadata, metadataReady := metadataReady }
    else cache id

/-- `take_prepared`: the remembered request leaves the cache, and if it has the same
key the new request takes its track data over. -/
def takePrepared (cache : PreparedDownloads) (key : String) (request : DownloadRequest) :
    Option Bool × DownloadRequest × PreparedDownloads :=
  let item := trimWhite request.itemId
  let rest : PreparedDownloads := fun id => if id = item then none else cache id
  match (cache item).filter (·.key = key) with
  | none => (none, request, rest)
  | some prepared =>
    (some prepared.metadataReady, { request with metadata := prepared.metadata }, rest)

end LosslessMusic.Download
