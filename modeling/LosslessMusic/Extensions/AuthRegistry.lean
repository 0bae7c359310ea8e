import LosslessMusic.Text
import Mathlib.Tactic.Common

/-!
# The registry of pending verifications

`auth.rs` and `auth/persistence.rs`: an extension waits for the browser to come back with
a nonce. Several extensions may wait for one nonce, which then belongs to one of them, its
owner. What waits is kept in a journal, so that it survives a restart. Times are in
nanoseconds; a call reads the clock once.
-/

namespace LosslessMusic.Extensions

open Std (TreeMap)

/-! ## Requests -/

/-- `PENDING_TTL`: 180 seconds. -/
def pendingTtl : Int := 180 * 1000000000

/-- `PendingAuthRequest`. Its `state` is the nonce. -/
structure PendingAuthRequest where
  extensionId : List Char
  authUrl : List Char
  callbackUrl : List Char
  state : List Char
  createdAt : Int
  deriving DecidableEq, Repr

/-- `(0..PENDING_TTL).contains(&(now - created_at))`. -/
def inTtl (now createdAt : Int) : Bool :=
  0 ≤ now - createdAt && now - createdAt < pendingTtl

/-- What the registry holds. A record is known by its verifier, the only part of it that is
saved. -/
structure State where
  records : TreeMap (List Char) (List Char) := ∅
  pending : TreeMap (List Char) PendingAuthRequest := ∅
  owners : TreeMap (List Char) (List Char) := ∅
  closed : Bool := false

/-- `remove_pending`: the nonce of an owner goes to another extension that waits for it. -/
def State.removePending (state : State) (id : List Char) (now : Int) : State :=
  match state.pending[id]? with
  | none => state
  | some request =>
    let pending := state.pending.erase id
    if state.owners[request.state]? = some id then
      let owners := state.owners.erase request.state
      let heir := pending.toList.find? fun entry =>
        entry.2.state = request.state ∧ now - entry.2.createdAt < pendingTtl
      match heir with
      | some entry =>
        { state with pending := pending, owners := owners.insert request.state entry.1 }
      | none => { state with pending := pending, owners := owners }
    else { state with pending := pending }

/-- Whether the nonce belongs to another extension that waits for something else. -/
def State.refuses (state : State) (request : PendingAuthRequest) : Bool :=
  match state.owners[request.state]? with
  | none => false
  | some owner =>
    owner ≠ request.extensionId && !state.pending[owner]?.any fun previous =>
        previous.state = request.state && previous.authUrl = request.authUrl &&
          previous.callbackUrl = request.callbackUrl && previous.createdAt = request.createdAt

/-- The request takes its place, and its nonce if nobody owns it. -/
def State.enter (state : State) (request : PendingAuthRequest) (now : Int) : State :=
  let replaces := state.pending[request.extensionId]?.any fun previous =>
    previous.state ≠ request.state
  let state := if replaces then state.removePending request.extensionId now else state
  { state with
    owners := state.owners.insertIfNew request.state request.extensionId
    pending := state.pending.insert request.extensionId request }

/-- Nobody waits for the nonce any longer. -/
def State.withdraw (state : State) (nonce : List Char) : State :=
  { state with
    owners := state.owners.erase nonce
    pending := state.pending.filter fun _ request => request.state ≠ nonce }

/-! ## The journal -/

structure SavedPending where
  request : PendingAuthRequest
  nonce : List Char
  createdAt : Int
  verifier : List Char
  deriving DecidableEq, Repr

/-- `valid_extension_id`. All its characters have one byte. -/
def validExtensionId (id : List Char) : Bool :=
  1 ≤ id.length && id.length ≤ 128 && (id.head?.any fun first => first.isLower || first.isDigit) &&
    id.all fun char => char.isLower || char.isDigit || char ∈ ['.', '_', '-']

/-- What `save` writes. -/
def State.saved (state : State) (now : Int) : List SavedPending :=
  ((state.pending.toList.map Prod.snd).filter fun request => inTtl now request.createdAt).map
    fun request => {
      request := request
      nonce := request.state
      createdAt := request.createdAt
      verifier := state.records[request.extensionId]?.getD [] }

/-- What `load` keeps of a journal that can be read. -/
def loaded (now : Int) (journal : List SavedPending) : List SavedPending :=
  journal.filter fun entry =>
    validExtensionId entry.request.extensionId && !entry.nonce.isEmpty && inTtl now entry.createdAt

/-- The registry with its journal, which it has once it is restored. -/
structure AuthRegistry where
  state : State := {}
  persistence : Option (List SavedPending) := none

namespace AuthRegistry

/-- `persist`. Writing the journal may fail; the rename then leaves the old one. -/
def persist (registry : AuthRegistry) (now : Int) (saves : Bool) : Except String AuthRegistry :=
  match registry.persistence with
  | none => .ok registry
  | some _ =>
    if saves then .ok { registry with persistence := some (registry.state.saved now) }
    else .error "cannot save pending verification"

/-- `let _ = self.persist(..)`: a failure is ignored. -/
def persistAnyway (registry : AuthRegistry) (now : Int) (saves : Bool) : AuthRegistry :=
  match registry.persist now saves with
  | .ok saved => saved
  | .error _ => registry

/-! ## Calls -/

/-- The request with the nonce and the time it is registered with. -/
def completed (request : PendingAuthRequest) (nonce : List Char) (now : Int) :
    PendingAuthRequest :=
  { request with
    state := nonce
    createdAt := if request.createdAt = 0 then now else request.createdAt }

/-- `register_pending`. The random nonce is an argument. -/
def registerPending (registry : AuthRegistry) (request : PendingAuthRequest)
    (callbackState : Except String (List Char)) (now : Int) (saves : Bool) :
    AuthRegistry × Except String Unit :=
  if (Text.trimmed request.extensionId).isEmpty then
    (registry, .error "extension id is required")
  else
    match if request.state.isEmpty then callbackState else .ok request.state with
    | .error error => (registry, .error error)
    | .ok nonce =>
      let request := completed request nonce now
      if registry.state.closed then (registry, .error "extension environment closed")
      else if registry.state.refuses request then
        (registry, .error "callback state is already registered")
      else
        let next := { registry with state := registry.state.enter request now }
        match next.persist now saves with
        | .ok saved => (saved, .ok ())
        | .error error =>
          ({ next with
            state := { next.state with
              pending := registry.state.pending
              owners := registry.state.owners } }, .error error)

/-- `edit`, of a verifier. -/
def edit (registry : AuthRegistry) (id verifier : List Char) : AuthRegistry × Except String Unit :=
  if registry.state.closed then (registry, .error "extension environment closed")
  else
    ({ registry with
      state := { registry.state with records := registry.state.records.insert id verifier } },
      .ok ())

def clear (registry : AuthRegistry) (id : List Char) (now : Int) (saves : Bool) : AuthRegistry :=
  if registry.state.closed then registry
  else
    let state := { registry.state with records := registry.state.records.erase id }
    { registry with state := state.removePending id now }.persistAnyway now saves

def clearPending (registry : AuthRegistry) (id : List Char) (now : Int) (saves : Bool) :
    AuthRegistry :=
  { registry with state := registry.state.removePending id now }.persistAnyway now saves

/-- `pending`: what has expired is removed, and not saved. -/
def pending (registry : AuthRegistry) (id : List Char) (now : Int) :
    AuthRegistry × Option PendingAuthRequest :=
  let expired := registry.state.pending[id]?.any fun request =>
    now - request.createdAt ≥ pendingTtl
  let state := if expired then registry.state.removePending id now else registry.state
  ({ registry with state := state }, state.pending[id]?)

/-- `resolve_callback`: a nonce that is not valid is withdrawn, and a valid one when it is
consumed. -/
def resolveCallback (registry : AuthRegistry) (text : List Char) (consume : Bool) (now : Int)
    (saves : Bool) : AuthRegistry × Except String (List Char) :=
  let nonce := Text.trimmed text
  if nonce.isEmpty then (registry, .error "callback state is required")
  else
    let owner := registry.state.owners[nonce]?
    let valid := (owner.bind (registry.state.pending[·]?)).any fun request =>
      request.state = nonce && inTtl now request.createdAt
    let answer : Except String (List Char) :=
      match owner, valid with
      | some owner, true => .ok owner
      | _, _ => .error "callback state is invalid, expired, or already used"
    if !valid || consume then
      let next := { registry with state := registry.state.withdraw nonce }
      match next.persist now saves with
      | .ok saved => (saved, answer)
      | .error error => (next, .error error)
    else (registry, answer)

def shutdown (registry : AuthRegistry) : AuthRegistry :=
  { registry with state := { closed := true } }

/-- One entry of the journal is registered again, while there is no journal yet. -/
def restore (now : Int) (registry : AuthRegistry) (saved : SavedPending) : AuthRegistry :=
  let request := { saved.request with state := saved.nonce, createdAt := saved.createdAt }
  match registry.registerPending request (.ok []) now true with
  | (next, .ok ()) =>
    if saved.verifier.isEmpty then next
    else (next.edit saved.request.extensionId saved.verifier).1
  | (next, .error _) => next

/-- `persistent`: a journal that cannot be read restores nothing. -/
def persistent (journal : List SavedPending) (now : Int) (loads : Bool) : AuthRegistry :=
  let saved := if loads then loaded now journal else []
  { saved.foldl (restore now) {} with persistence := some journal }

end AuthRegistry

end LosslessMusic.Extensions
