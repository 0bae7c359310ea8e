import LosslessMusic.Extensions.SessionRecords
import LosslessMusic.Transition.Threads
import Mathlib.Logic.Function.Basic

/-!
# Signed sessions of a scope

`coordinator`, `exchange` and `fetch`: what the clients of one scope do, each in a thread of its
own. Sections under the lock of the scope are single actions. Loops have so many turns; a run of
the source is one with turns enough.

The ghosts say who leads which flight and since when, what has been stored and granted, which
leader's check has failed and who waits.
-/

namespace LosslessMusic.Extensions.SignedSession

open Transition

/-- The flights that callers share. -/
inductive Kind
  | bootstrap
  | refresh
  | exchange
  deriving DecidableEq, Repr

/-- A `Flight`. As ghosts, its kind, its leader, and whether the last check that
the leader made before the result was there has failed. -/
structure Flight where
  kind : Kind
  leader : Nat
  result : Option (Except Fault Unit)
  failed : Bool

/-- How far an exchange is, where it looks at the record next. -/
inductive Stage
  | under
  | entering (client : Client) (grantHash : String)
  | storing (client : Client) (grantHash : String) (base : Record) (fetched : Record)

/-- What is in flight, since which clear. -/
structure Operation where
  kind : Kind
  flight : Nat
  party : Nat
  began : Nat
  stage : Stage

/-- A session that has been stored: by which operation, which began at which clear with which
record, and what it took the place of. -/
structure Stored where
  kind : Kind
  began : Nat
  epoch : Nat
  base : Record
  before : Record
  usable : Bool
  blocked : Bool
  after : Record

/-- A grant that has been completed: what is stored, whether it was blocked before, and what the
grant has bought, if the exchange stored it. -/
structure Completion where
  party : Nat
  record : Record
  usable : Bool
  blocked : Bool
  bought : Option Record

/-- What the clients of a scope share. -/
structure Shared where
  contents : Contents
  clearGeneration : Nat
  slot : Kind → Option Nat
  flights : List Flight
  grants : List (String × String)
  /-- The number of clears. -/
  epoch : Nat
  performing : List Operation
  stores : List Stored
  completions : List Completion
  /-- The flights that parties wait for. -/
  waiting : List (Nat × Nat)

abbrev Act (α : Type) := Thread Shared Answer Fault α

/-! ## Flights -/

def Shared.withContents (shared : Shared) (contents : Contents) : Shared := { shared with contents }

/-- A new flight, led by a party that began at a clear. -/
def Shared.take (shared : Shared) (kind : Kind) (party began : Nat) (stage : Stage) : Shared :=
  { shared with
    slot := Function.update shared.slot kind (some shared.flights.length)
    flights := shared.flights ++ [⟨kind, party, none, false⟩]
    performing := ⟨kind, shared.flights.length, party, began, stage⟩ :: shared.performing }

/-- The slot is free again. -/
def Shared.release (shared : Shared) (kind : Kind) : Shared :=
  { shared with
    slot := Function.update shared.slot kind none
    performing := shared.performing.filter fun operation => operation.kind ≠ kind }

def Shared.finish (shared : Shared) (flight : Nat) (result : Except Fault Unit) : Shared :=
  { shared with
    flights := shared.flights.modify flight fun known => { known with result := some result } }

def Shared.waits (shared : Shared) (flight party : Nat) : Shared :=
  { shared with waiting := (flight, party) :: shared.waiting }

/-- The leader of a flight makes a check. -/
def Flight.check (party : Nat) (failed : Bool) (flight : Flight) : Flight :=
  if flight.leader = party ∧ flight.result.isNone then { flight with failed } else flight

def Shared.check (shared : Shared) (party : Nat) (answer : Answer) : Shared × Except Fault Unit :=
  if answer.closed then (shared, .error ⟨"extension environment closed", none⟩)
  else
    match answer.check with
    | some message =>
      ({ shared with flights := shared.flights.map (Flight.check party true) },
        .error ⟨message, some party⟩)
    | none => ({ shared with flights := shared.flights.map (Flight.check party false) }, .ok ())

/-- A session is stored. -/
def Shared.store (shared : Shared) (contents : Contents) (stored : Stored) : Shared :=
  { shared with contents, stores := stored :: shared.stores }

def Shared.complete (shared : Shared) (contents : Contents) (completion : Completion) : Shared :=
  { shared with contents, completions := completion :: shared.completions }

/-- An exchange comes to a section. -/
def Shared.stage (shared : Shared) (party : Nat) (stage : Stage) : Shared :=
  { shared with
    performing := shared.performing.map fun operation =>
      if operation.kind = .exchange ∧ operation.party = party then { operation with stage }
      else operation }

/-! ## Calls of every operation -/

/-- A check of its own, or a delay with such checks. -/
def checks (party : Nat) : Act Unit := Thread.locked fun shared answer => shared.check party answer

/-- `request` and `signed_request`: the check is made before the request and during it. -/
def request (party : Nat) : Act Response :=
  Thread.locked fun shared answer =>
    match shared.check party answer with
    | (shared, .error fault) => (shared, .error fault)
    | (shared, .ok ()) => (shared, answer.response.mapError fun message => ⟨message, none⟩)

def wait (party flight : Nat) : Act Unit :=
  .act (fun shared answer =>
    let awake : Shared := { shared with waiting := shared.waiting.erase (flight, party) }
    match awake.check party answer with
    | (checked, .error fault) => some (checked, Except.error fault)
    | (_, .ok ()) =>
      ((shared.flights[flight]?).bind (·.result)).map fun result => (awake, result))
    Thread.ofExcept

/-- What only looks at what is behind the lock, or changes it. -/
def underLock {α : Type} (action : Contents → Answer → Contents × Except Fault α) : Act α :=
  Thread.locked fun shared answer =>
    (shared.withContents (action shared.contents answer).1, (action shared.contents answer).2)

variable (libraries : Libraries)

/-! ## Bootstrap -/

inductive Bootstrap
  | session (fetched : Record)
  | challenge (url : String)

/-- The request of `perform_bootstrap`, made once more if it fails. -/
def requestAgain (party : Nat) : Act (Except Fault Response) := do
  match ← (request party).outcome with
  | .ok response => pure (.ok response)
  | .error _ =>
    checks party
    (request party).outcome

def performBootstrap (party : Nat) (client : Client) : Act Bootstrap := do
  let authority ← Thread.ofExcept (client.bootstrapUrl.mapError fun message =>
    ⟨"build signed-session bootstrap URL: " ++ message, none⟩)
  let failed (fault : Fault) : Fault := { fault with
    message := "signed-session bootstrap network request to " ++ authority ++ " failed: " ++ fault.message }
  let answered ← requestAgain party
  let response ← Thread.ofExcept (answered.mapError failed)
  if response.success = false then
    .fails ⟨"signed-session bootstrap " ++
      (if 500 ≤ response.status then "network request " else "") ++ "returned HTTP " ++
      toString response.status ++
      (if 0 < response.retryAfter then "; retry-after seconds: " ++ toString response.retryAfter
        else ""), none⟩
  else
    let record ← Thread.ofExcept (response.record.mapError fun message =>
      ⟨"decode signed-session bootstrap response: " ++ message, none⟩)
    if record.sessionId ≠ "" ∧ record.sessionSecret ≠ "" ∧ record.expiresAt ≠ "" then
      pure (.session record)
    else
      let url ← Thread.ofExcept (response.challenge.mapError fun message => ⟨message, none⟩)
      pure (.challenge url)

/-- What a turn of `bootstrap` or `refresh` comes to under the lock. -/
inductive Entered
  /-- Nothing to perform: what `bootstrap` returns. -/
  | url (url : String)
  | waits (flight : Nat)
  | performs (record : Record) (generation began flight : Nat)

/-- The first section of `bootstrap`. -/
def enterBootstrap (party : Nat) (client : Client) (shared : Shared) (answer : Answer) :
    Shared × Except Fault Entered :=
  match shared.contents.fresh answer.now with
  | some challenge =>
    match answer.register with
    | some message => (shared, .error ⟨message, none⟩)
    | none => (shared, .ok (.url challenge.authUrl))
  | none =>
    let contents := shared.contents.clearChallenge
    match answer.pending.filter fun pending => Text.trimWhite pending.authUrl ≠ "" with
    | some pending =>
      (shared.withContents { contents with challenge := some pending }, .ok (.url pending.authUrl))
    | none =>
      match load client answer contents with
      | (contents, .error fault) =>
        (shared.withContents contents, .error { fault with
          message := "load signed-session bootstrap state: " ++ fault.message })
      | (contents, .ok record) =>
        let shared := shared.withContents contents
        if record.usable libraries answer.now && !contents.blocked libraries record then
          (shared, .ok (.url ""))
        else
          match shared.slot .bootstrap with
          | some flight => (shared.waits flight party, .ok (.waits flight))
          | none =>
            (shared.take .bootstrap party shared.epoch .under,
              .ok (.performs record shared.clearGeneration shared.epoch shared.flights.length))

/-- What `bootstrap` makes of its result under the lock. -/
def settleBootstrap (party : Nat) (client : Client) (base : Record) (generation began : Nat)
    (outcome : Except Fault Bootstrap) (shared : Shared) (answer : Answer) :
    Shared × Except Fault String :=
  match outcome with
  | .error fault => (shared, .error fault)
  | .ok bootstrap =>
    match shared.check party answer with
    | (shared, .error fault) => (shared, .error fault)
    | (shared, .ok ()) =>
      if shared.clearGeneration ≠ generation then
        (shared, .error ⟨"signed-session bootstrap was superseded by session clear", none⟩)
      else
        match load client answer shared.contents with
        | (contents, .error fault) => (shared.withContents contents, .error fault)
        | (contents, .ok latest) =>
          let usable := latest.usable libraries answer.now
          let blocked := contents.blocked libraries latest
          if usable && !latest.sameSession base && !blocked then
            (shared.withContents contents.clearChallenge, .ok "")
          else
            match bootstrap with
            | .session fetched =>
              match answer.save with
              | some message =>
                (shared.withContents contents,
                  .error ⟨"save bootstrapped signed session: " ++ message, none⟩)
              | none =>
                (shared.store { contents with
                    record := latest.withSession fetched
                    blockedGeneration := ""
                    challenge := none }
                  ⟨.bootstrap, began, shared.epoch, base, latest, usable, blocked,
                    latest.withSession fetched⟩, .ok "")
            | .challenge url =>
              match answer.register with
              | some message => (shared.withContents contents, .error ⟨message, none⟩)
              | none =>
                (shared.withContents { contents with
                  challenge := some ⟨url, answer.now⟩ }, .ok url)

/-- The flight of a bootstrap or a refresh lands with its result. -/
def Shared.land {α : Type} (kind : Kind) (flight : Nat) (settled : Shared × Except Fault α) :
    Shared × Except Fault α :=
  ((settled.1.release kind).finish flight (settled.2.map fun _ => ()), settled.2)

def bootstrap (party : Nat) (client : Client) : Nat → Act String
  | 0 => Thread.stuck
  | turns + 1 => do
      checks party
      match ← Thread.locked (enterBootstrap libraries party client) with
      | .url url => pure url
      | .waits flight =>
        wait party flight
        bootstrap party client turns
      | .performs record generation began flight =>
        let outcome ← (performBootstrap party client).outcome
        Thread.locked fun shared answer => Shared.land .bootstrap flight
          (settleBootstrap libraries party client record generation began outcome shared answer)

def preflight (party : Nat) (client : Client) (turns : Nat) : Act Bool := do
  checks party
  let ready ← underLock fun contents answer =>
    match load client answer contents with
    | (contents, .error fault) => (contents, .error fault)
    | (contents, .ok record) =>
      (contents, .ok (record.usable libraries answer.now && !contents.blocked libraries record))
  if ready then pure false
  else
    let url ← bootstrap libraries party client turns
    if url ≠ "" then pure true
    else
      underLock fun contents answer =>
        match load client answer contents with
        | (contents, .error fault) => (contents, .error fault)
        | (contents, .ok record) =>
          if record.usable libraries answer.now then (contents, .ok false)
          else (contents, .error
            ⟨"signed-session bootstrap did not return a session or verification challenge", none⟩)

/-! ## Refresh -/

/-- The first section of `refresh`. -/
def enterRefresh (party : Nat) (client : Client) (shared : Shared) (answer : Answer) :
    Shared × Except Fault Entered :=
  match load client answer shared.contents with
  | (contents, .error fault) => (shared.withContents contents, .error fault)
  | (contents, .ok record) =>
    let shared := shared.withContents contents
    if record.refreshDue libraries client.refreshes answer.now = false then
      (shared, .ok (.url ""))
    else
      match shared.slot .refresh with
      | some flight => (shared.waits flight party, .ok (.waits flight))
      | none =>
        (shared.take .refresh party shared.epoch .under,
          .ok (.performs record shared.clearGeneration shared.epoch shared.flights.length))

/-- What `refresh` makes of its response under the lock. -/
def settleRefresh (party : Nat) (client : Client) (base : Record) (generation began : Nat)
    (outcome : Except Fault Response) (shared : Shared) (answer : Answer) :
    Shared × Except Fault Unit :=
  match outcome with
  | .error fault => (shared, .error fault)
  | .ok response =>
    if response.success = false then
      (shared, .error ⟨"session refresh failed: HTTP " ++ toString response.status, none⟩)
    else
      match response.record with
      | .error message => (shared, .error ⟨message, none⟩)
      | .ok fetched =>
        match shared.check party answer with
        | (shared, .error fault) => (shared, .error fault)
        | (shared, .ok ()) =>
          if shared.clearGeneration ≠ generation then
            (shared, .error ⟨"signed-session refresh was superseded by session clear", none⟩)
          else
            match load client answer shared.contents with
            | (contents, .error fault) => (shared.withContents contents, .error fault)
            | (contents, .ok latest) =>
              if latest.sameSession base ∧ latest.refreshed fetched ≠ latest then
                match answer.save with
                | some message => (shared.withContents contents, .error ⟨message, none⟩)
                | none =>
                  (shared.store { contents with record := latest.refreshed fetched }
                    ⟨.refresh, began, shared.epoch, base, latest,
                      latest.usable libraries answer.now, contents.blocked libraries latest,
                      latest.refreshed fetched⟩, .ok ())
              else (shared.withContents contents, .ok ())

def refresh (party : Nat) (client : Client) : Nat → Act Unit
  | 0 => Thread.stuck
  | turns + 1 => do
      checks party
      match ← Thread.locked (enterRefresh libraries party client) with
      | .url _ => pure ()
      | .waits flight =>
        wait party flight
        refresh party client turns
      | .performs record generation began flight =>
        let outcome ← (request party).outcome
        Thread.locked fun shared answer => Shared.land .refresh flight
          (settleRefresh libraries party client record generation began outcome shared answer)

/-! ## Exchange -/

/-- The loop of `exchange`, up to a flight of its own. -/
def enterExchange (party began : Nat) (client : Client) (grantHash : String) : Nat → Act Nat
  | 0 => Thread.stuck
  | turns + 1 => do
      checks party
      let (flight, own) ← Thread.locked fun shared _ =>
        match shared.slot .exchange with
        | some flight => (shared.waits flight party, .ok (flight, false))
        | none =>
          (shared.take .exchange party began (.entering client grantHash),
            .ok (shared.flights.length, true))
      if own then pure flight
      else
        -- The preceding grant's failure is not the outcome of this operation.
        let _ ← (wait party flight).outcome
        checks party
        enterExchange party began client grantHash turns

/-- The requests of `exchange_owned`. -/
def exchangeRequests (party : Nat) : Nat → Act Record
  | 0 => .fails ⟨"session exchange did not complete", none⟩
  | attempts + 1 => do
      let response ← request party
      if response.status = 429 ∧ attempts ≠ 0 then
        checks party
        exchangeRequests party attempts
      else if response.success = false then
        .fails ⟨"session exchange failed: HTTP " ++ toString response.status ++
          (if 0 < response.retryAfter then "; retry-after seconds: " ++ toString response.retryAfter
            else ""), none⟩
      else
        Thread.ofExcept (response.record.mapError fun message =>
          ⟨"invalid session exchange response: " ++ message, none⟩)

def superseded : Fault := ⟨"signed-session exchange was superseded by session clear", none⟩

/-- No session is blocked any more, and no challenge open. -/
def Contents.unblocked (contents : Contents) : Contents :=
  { contents with blockedGeneration := "", challenge := none }

/-- The first section of `exchange_owned`. -/
def enterOwned (party : Nat) (client : Client) (generation : Nat) (grantHash : String)
    (shared : Shared) (answer : Answer) : Shared × Except Fault (Option Record) :=
  if shared.clearGeneration ≠ generation then (shared, .error superseded)
  else
    match load client answer shared.contents with
    | (contents, .error fault) => (shared.withContents contents, .error fault)
    | (contents, .ok record) =>
      if contents.completedGrant = grantHash ∧ record.usable libraries answer.now = true then
        (shared.complete contents.unblocked
          ⟨party, record, record.usable libraries answer.now, contents.blocked libraries record,
            none⟩, .ok none)
      else ((shared.withContents contents).stage party .under, .ok (some record))

/-- Whether `exchange_owned` keeps the latest session. -/
def keeps (grantHash : String) (base : Record) (contents : Contents) (latest : Record) (now : Int) :
    Bool :=
  latest.usable libraries now && (contents.completedGrant = grantHash || !latest.sameSession base)

/-- The last section of `exchange_owned`. -/
def settleExchange (party : Nat) (client : Client) (generation began : Nat) (grantHash : String)
    (base fetched : Record) (shared : Shared) (answer : Answer) : Shared × Except Fault Unit :=
  if shared.clearGeneration ≠ generation then (shared, .error superseded)
  else
    match load client answer shared.contents with
    | (contents, .error fault) => (shared.withContents contents, .error fault)
    | (contents, .ok latest) =>
      let usable := latest.usable libraries answer.now
      let blocked := contents.blocked libraries latest
      if keeps libraries grantHash base contents latest answer.now then
        (shared.complete contents.unblocked ⟨party, latest, usable, blocked, none⟩, .ok ())
      else
        match answer.save with
        | some message => (shared.withContents contents, .error ⟨message, none⟩)
        | none =>
          let after := latest.withSession fetched
          let contents := { contents with record := after, completedGrant := grantHash }
          ((shared.store contents
            ⟨.exchange, began, shared.epoch, base, latest, usable, blocked, after⟩).complete
              contents.unblocked ⟨party, after, after.usable libraries answer.now,
                contents.blocked libraries after, some fetched⟩, .ok ())

def exchangeOwned (party : Nat) (client : Client) (generation began : Nat) (grant : String) :
    Act Unit := do
  let grantHash := libraries.digest grant
  match ← Thread.locked (enterOwned libraries party client generation grantHash) with
  | none => pure ()
  | some base =>
    Thread.ofExcept (client.exchangeUrl.mapError fun message => ⟨message, none⟩)
    let fetched ← exchangeRequests party 3
    if fetched.sessionId = "" ∨ fetched.sessionSecret = "" ∨ fetched.expiresAt = "" then
      .fails ⟨"session exchange response missing session fields", none⟩
    else
      Thread.locked fun shared answer =>
        match shared.check party answer with
        | (shared, .error fault) => (shared, .error fault)
        | (shared, .ok ()) => (shared.stage party (.storing client grantHash base fetched), .ok ())
      Thread.locked (settleExchange libraries party client generation began grantHash base fetched)

def exchange (party : Nat) (client : Client) (grant : String) (turns : Nat) : Act Unit := do
  let (generation, began) ← Thread.locked fun shared _ =>
    (shared, .ok (shared.clearGeneration, shared.epoch))
  let flight ← enterExchange party began client (libraries.digest grant) turns
  let result ← (exchangeOwned libraries party client generation began grant).outcome
  Thread.locked fun shared _ => (shared.release .exchange, .ok ())
  Thread.locked fun shared _ => (shared.finish flight result, result)

def setGrant (client : Client) (grant : String) : Act Unit :=
  Thread.locked fun shared answer =>
    if answer.closed then (shared, .error ⟨"extension environment closed", none⟩)
    else if Text.trimWhite client.id ≠ "" ∧ Text.trimWhite grant ≠ "" then
      ({ shared with grants := (Text.trimWhite client.id, Text.trimWhite grant) ::
          shared.grants.filter fun known => known.1 ≠ Text.trimWhite client.id }, .ok ())
    else (shared, .ok ())

/-- `complete_grant`. Its deadline is part of the check. -/
def completeGrant (party : Nat) (client : Client) (grant : String) (turns : Nat) : Act Unit := do
  setGrant client grant
  let grant ← Thread.locked fun shared _ =>
    match (shared.grants.lookup client.id).filter fun grant => grant ≠ "" with
    | none => (shared, .error ⟨"no pending grant", none⟩)
    | some grant => (shared, .ok grant)
  exchange libraries party client grant turns
  -- A newer callback can arrive during HTTP.
  Thread.locked fun shared _ =>
    if shared.grants.lookup client.id = some grant then
      ({ shared with grants := shared.grants.filter fun known => known.1 ≠ client.id }, .ok ())
    else (shared, .ok ())

/-! ## Clear -/

def clear (client : Client) : Act Unit :=
  Thread.locked fun shared answer =>
    if answer.closed then (shared, .error ⟨"extension environment closed", none⟩)
    else
      match load client answer shared.contents with
      | (contents, .error fault) => (shared.withContents contents, .error fault)
      | (contents, .ok record) =>
        match answer.save with
        | some message => (shared.withContents contents, .error ⟨message, none⟩)
        | none =>
          ({ shared with
            contents := ⟨record.clear, "", "", none⟩
            clearGeneration := (shared.clearGeneration + 1) % 2 ^ 64
            epoch := shared.epoch + 1 }, .ok ())

/-! ## Fetch -/

/-- What a call answers. -/
inductive Reply
  | done
  | flag (value : Bool)
  | url (url : String)
  | response (response : Response)
  /-- `verification_required`. As a ghost, the error that an empty one stands for. -/
  | verification (url : String) (cause : Option Fault)

def onMintFailure (party : Nat) (cause : Option Fault) : Act Reply := do
  checks party
  pure (.verification "" cause)

/-- What the first section of `signed_fetch` finds. -/
inductive Session
  | missing (error : String)
  | blocked
  | ready (record : Record)

/-- The first section of `signed_fetch`. -/
def findSession (client : Client) (contents : Contents) (answer : Answer) :
    Contents × Except Fault Session :=
  match load client answer contents with
  | (contents, .error fault) => (contents, .error fault)
  | (contents, .ok record) =>
    if record.sessionId = "" ∨ record.sessionSecret = "" then
      (contents, .ok (.missing "signed session is not authenticated"))
    else if (libraries.parseTime record.expiresAt).any (· < answer.now) then
      ({ contents with record := if answer.save = none then record.clear else contents.record },
        .ok (.missing "signed session expired"))
    else if contents.blocked libraries record then (contents, .ok .blocked)
    else (contents, .ok (.ready record))

/-- The record, if it is usable and not blocked. -/
def findUnblocked (client : Client) (contents : Contents) (answer : Answer) :
    Contents × Except Fault (Option Record) :=
  match load client answer contents with
  | (contents, .error fault) => (contents, .error fault)
  | (contents, .ok record) =>
    if record.usable libraries answer.now = false ∨ contents.blocked libraries record = true then
      (contents, .ok none)
    else (contents, .ok (some record))

/-- The record, if it is usable and of another session. -/
def findOther (client : Client) (session : Record) (contents : Contents) (answer : Answer) :
    Contents × Except Fault (Option Record) :=
  match load client answer contents with
  | (contents, .error fault) => (contents, .error fault)
  | (contents, .ok latest) =>
    if latest.usable libraries answer.now = true ∧ latest.sameSession session = false then
      (contents, .ok (some latest))
    else (contents, .ok none)

/-- What `signed_fetch` does at an action of the gateway. -/
def heedGateway (client : Client) (session : Record) (retries : Nat) (action : String)
    (contents : Contents) (answer : Answer) : Contents × Except Fault (Option Record) :=
  match load client answer contents with
  | (contents, .error fault) => (contents, .error fault)
  | (contents, .ok latest) =>
    if latest.usable libraries answer.now = true ∧ latest.sameSession session = false then
      if 1 ≤ retries then (contents, .error ⟨"signed-session retry limit reached", none⟩)
      else (contents, .ok (some latest))
    else if action = "bootstrap_session" ∧ latest.sameSession session = true then
      let contents := { contents with blockedGeneration := "" }
      match answer.save with
      | some message => (contents, .error ⟨message, none⟩)
      | none => ({ contents with record := latest.clear }, .ok none)
    else if action = "verify" ∧ latest.sameSession session = true then
      ({ contents with blockedGeneration := session.generation libraries }, .ok none)
    else (contents, .ok none)

/-- The loop of `signed_fetch`. -/
def fetchLoop (party : Nat) (client : Client) : Nat → Record → Nat → Nat → Bool → Act Reply
  | 0, _, _, _, _ => Thread.stuck
  | turns + 1, record, sessionRetries, providerRetries, requestAuthRetry => do
      let response ← request party
      if response.contract.providerRetry response.status then
        if 2 ≤ providerRetries then pure (.response response)
        else
          checks party
          fetchLoop party client turns record sessionRetries (providerRetries + 1) requestAuthRetry
      else if response.contract.requestAuthInvalid response.status then
        match ← underLock (findOther libraries client record) with
        | some latest =>
          if requestAuthRetry then pure (.response response)
          else fetchLoop party client turns latest sessionRetries providerRetries true
        | none => pure (.response response)
      else
        let action := response.contract.gatewayAction response.status
        if action = "" then pure (.response response)
        else
          match ← underLock (heedGateway libraries client record sessionRetries action) with
          | some latest =>
            fetchLoop party client turns latest (sessionRetries + 1) providerRetries
              requestAuthRetry
          | none =>
            let url ← bootstrap libraries party client turns
            if url ≠ "" then pure (.verification url none)
            else
              match ← underLock (findOther libraries client record) with
              | some latest =>
                if sessionRetries < 1 then
                  fetchLoop party client turns latest (sessionRetries + 1) providerRetries
                    requestAuthRetry
                else pure (.response response)
              | none => pure (.response response)

/-- `signed_fetch`, with a record that is not blocked. -/
def fetchWith (party : Nat) (client : Client) (turns : Nat) (record : Record) : Act Reply := do
  let due ← underLock fun contents answer =>
    (contents, .ok (record.refreshDue libraries client.refreshes answer.now))
  if due = false then fetchLoop libraries party client turns record 0 0 false
  else
    let _ ← (refresh libraries party client turns).outcome
    checks party
    match ← underLock (findUnblocked libraries client) with
    | some latest => fetchLoop libraries party client turns latest 0 0 false
    | none =>
      let url ← bootstrap libraries party client turns
      if url = "" then .fails ⟨"signed session is not authenticated", none⟩
      else pure (.verification url none)

def signedFetch (party : Nat) (client : Client) (turns : Nat) : Act Reply := do
  checks party
  match ← underLock (findSession libraries client) with
  | .missing error =>
    match ← (bootstrap libraries party client turns).outcome with
    | .error fault => onMintFailure party (some fault)
    | .ok url =>
      if url = "" then .fails ⟨error, none⟩ else pure (.verification url none)
  | .blocked =>
    match ← (bootstrap libraries party client turns).outcome with
    | .error fault => onMintFailure party (some fault)
    | .ok url =>
      if url ≠ "" then pure (.verification url none)
      else
        match ← underLock (findUnblocked libraries client) with
        | none => onMintFailure party none
        | some record => fetchWith libraries party client turns record
  | .ready record => fetchWith libraries party client turns record

/-! ## The system -/

/-- What a client calls. -/
inductive Call
  | preflight
  | bootstrap
  | refresh
  | completeGrant (grant : String)
  | signedFetch
  | clear

/-- What a caller does, in loops of so many turns. -/
def Call.thread (party : Nat) (client : Client) (turns : Nat) : Call → Act Reply
  | .preflight => do
      let open_ ← SignedSession.preflight libraries party client turns
      pure (.flag open_)
  | .bootstrap => do
      let url ← SignedSession.bootstrap libraries party client turns
      pure (.url url)
  | .refresh => do
      SignedSession.refresh libraries party client turns
      pure .done
  | .completeGrant grant => do
      SignedSession.completeGrant libraries party client grant turns
      pure .done
  | .signedFetch => SignedSession.signedFetch libraries party client turns
  | .clear => do
      SignedSession.clear client
      pure .done

abbrev System := Threads Shared Answer Fault Reply

/-- A scope with its callers, before any of them does anything. -/
structure Begins (calls : List (Client × Nat × Call)) (system : System) : Prop where
  threads : system.threads =
    calls.mapIdx fun party (client, turns, call) => call.thread libraries party client turns
  idle : ∀ kind, system.shared.slot kind = none
  flights : system.shared.flights = []
  performing : system.shared.performing = []
  epoch : system.shared.epoch = 0 ∧ system.shared.clearGeneration = 0
  stores : system.shared.stores = []
  completions : system.shared.completions = []
  waiting : system.shared.waiting = []

/-- The machine of a scope: any clients make any calls. -/
def machine (calls : List (Client × Nat × Call)) : Machine System (Turn Answer) :=
  Threads.machine (Begins libraries calls)

end LosslessMusic.Extensions.SignedSession
