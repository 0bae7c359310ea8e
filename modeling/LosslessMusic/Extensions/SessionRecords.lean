import LosslessMusic.Text

/-!
# Records of signed sessions

`protocol` and `store`: what is kept of a session, when it is usable, and what the gateway says.
The record of a scope is read and written under the lock of the scope.
-/

namespace LosslessMusic.Extensions.SignedSession

/-- What the modelled code takes from libraries. -/
structure Libraries where
  /-- `parse_time`. -/
  parseTime : String → Option Int
  /-- SHA-256, in hex. -/
  digest : String → String

/-- What `normalize_scope` compares, as it comes from a manifest. -/
structure Scope where
  space : String
  baseUrl : String
  appVersion : String
  platform : String
  deriving DecidableEq, Repr

structure Record where
  installId : String
  sessionId : String
  sessionSecret : String
  expiresAt : String
  scope : Scope
  deriving DecidableEq, Repr

namespace Record

/-- `Record::default`. -/
def empty : Record := ⟨"", "", "", "", ⟨"", "", "", ""⟩⟩

def clear (record : Record) : Record :=
  { record with sessionId := "", sessionSecret := "", expiresAt := "" }

def usable (libraries : Libraries) (record : Record) (now : Int) : Bool :=
  Text.trimWhite record.sessionId ≠ "" && Text.trimWhite record.sessionSecret ≠ "" &&
    (libraries.parseTime record.expiresAt).all (now < ·)

def sameSession (record other : Record) : Bool :=
  record.sessionId ≠ "" && record.sessionId = other.sessionId &&
    record.sessionSecret = other.sessionSecret

def generation (libraries : Libraries) (record : Record) : String :=
  if record.sessionId = "" ∨ record.sessionSecret = "" then ""
  else libraries.digest (record.sessionId ++ "\n" ++ record.sessionSecret)

/-- `normalize_scope`: the record, and whether it has changed. -/
def normalizeScope (record : Record) (scope : Scope) : Record × Bool :=
  if record.scope = scope then (record, false)
  else
    let record := if record.scope = empty.scope then record else record.clear
    ({ record with scope }, true)

def refreshDue (libraries : Libraries) (record : Record) (refreshes : Bool) (now : Int) : Bool :=
  refreshes && record.usable libraries now &&
    (libraries.parseTime record.expiresAt).any fun expires =>
      now < expires && expires - now ≤ 3600000000000

/-- The session of another record, in this one. -/
def withSession (record fetched : Record) : Record :=
  { record with
    sessionId := fetched.sessionId
    sessionSecret := fetched.sessionSecret
    expiresAt := fetched.expiresAt }

/-- The fields of a session that a refreshed record has. -/
def refreshed (record fetched : Record) : Record :=
  { record with
    sessionId := if fetched.sessionId = "" then record.sessionId else fetched.sessionId
    sessionSecret := if fetched.sessionSecret = "" then record.sessionSecret else fetched.sessionSecret
    expiresAt := if fetched.expiresAt = "" then record.expiresAt else fetched.expiresAt }

end Record

/-- `ErrorContract`, as far as it decides. -/
structure ErrorContract where
  code : String
  origin : String
  action : String
  retryMode : String
  retryable : Bool
  deriving DecidableEq, Repr

def ErrorContract.gatewayAction (contract : ErrorContract) (status : Nat) : String :=
  if status = 401 ∧ contract.origin = "gateway" ∧ contract.code = "SESSION_INVALID" ∧
    contract.action = "bootstrap_session" then "bootstrap_session"
  else if status = 428 ∧ contract.origin = "gateway" ∧ contract.code = "VERIFY_REQUIRED" ∧
    contract.action = "verify" then "verify"
  else ""

def ErrorContract.providerRetry (contract : ErrorContract) (status : Nat) : Bool :=
  status = 503 && contract.origin = "provider" && contract.code = "PROVIDER_UNAVAILABLE" &&
    contract.retryable && contract.retryMode = "same_operation"

def ErrorContract.requestAuthInvalid (contract : ErrorContract) (status : Nat) : Bool :=
  status = 403 && contract.origin = "gateway" && contract.code = "REQUEST_AUTH_INVALID" &&
    contract.action = ""

/-- What the operations read in a response. -/
structure Response where
  status : Nat
  /-- `response_retry_after`. -/
  retryAfter : Nat
  /-- `response_record` of the body. -/
  record : Except String Record
  /-- What `perform_bootstrap` makes of a body without a session: where to verify. -/
  challenge : Except String String
  contract : ErrorContract

def Response.success (response : Response) : Bool := 200 ≤ response.status && response.status < 300

/-- An error. As a ghost, whose check it comes from, if it comes from a check. -/
structure Fault where
  message : String
  origin : Option Nat
  deriving DecidableEq, Repr

/-- `PendingAuthRequest`, as far as it is kept here. -/
structure Challenge where
  authUrl : String
  createdAt : Int
  deriving DecidableEq, Repr

/-- What is behind the lock of a scope, without the flights. -/
structure Contents where
  record : Record
  completedGrant : String
  blockedGeneration : String
  challenge : Option Challenge
  deriving DecidableEq, Repr

def Contents.blocked (libraries : Libraries) (contents : Contents) (record : Record) : Bool :=
  record.generation libraries ≠ "" && contents.blockedGeneration = record.generation libraries

/-- `clear_challenge`, here. -/
def Contents.clearChallenge (contents : Contents) : Contents := { contents with challenge := none }

/-- A client of a scope: its extension, and what its manifest says. -/
structure Client where
  id : String
  scope : Scope
  /-- Whether there is a refresh endpoint. -/
  refreshes : Bool
  /-- The authority of the endpoint of `perform_bootstrap`, or what is wrong with it. -/
  bootstrapUrl : Except String String
  /-- What is wrong with the endpoint of `exchange_owned`. -/
  exchangeUrl : Except String Unit

/-- What an action finds: what the environment, the check of the caller, the clock, the disk,
the registry of pending requests and the network say. -/
structure Answer where
  closed : Bool
  check : Option String
  now : Int
  /-- Why a record cannot be loaded. -/
  load : Option String
  /-- An installation identifier, when the record has none. -/
  installId : String
  /-- Why the loaded record cannot be saved. -/
  normalize : Option String
  /-- Why the session cannot be saved. -/
  save : Option String
  pending : Option Challenge
  /-- Why a pending request cannot be registered. -/
  register : Option String
  response : Except String Response

def load (client : Client) (answer : Answer) (contents : Contents) : Contents × Except Fault Record :=
  match answer.load with
  | some message => (contents, .error ⟨message, none⟩)
  | none =>
    let unnamed := Text.trimWhite contents.record.installId = ""
    let record :=
      if unnamed then { contents.record with installId := answer.installId } else contents.record
    let (record, moved) := record.normalizeScope client.scope
    if unnamed ∨ moved then
      match answer.normalize with
      | some message => (contents, .error ⟨message, none⟩)
      | none => ({ contents with record }, .ok record)
    else (contents, .ok record)

/-- A challenge that may still be answered. -/
def Contents.fresh (contents : Contents) (now : Int) : Option Challenge :=
  contents.challenge.filter fun challenge =>
    Text.trimWhite challenge.authUrl ≠ "" && now - challenge.createdAt < 180000000000

end LosslessMusic.Extensions.SignedSession
