import LosslessMusic.Text
import LosslessMusic.Transition.Machine
import Mathlib.Tactic.Common

/-!
# The registry of cancelled requests

`cancellation.rs`: requests of one id share a flag through the entry of that id, and the
entry counts the leases that are not released yet. Every operation runs under the lock of
the registry and is one step; a wait is a step for each time it has the lock.
-/

namespace LosslessMusic.Cancellation

open Std (TreeMap)

inductive CancellationDomain
  | download
  | extensionRequest
  deriving DecidableEq, Repr

inductive CancellationError
  | downloadCancelled
  | extensionRequestCancelled
  | registryClosed
  | leaseReleased
  deriving DecidableEq, Repr

/-- `Entry`; the shared flag is named by its place among all flags. -/
structure Entry where
  cancelled : Nat
  references : Nat
  deriving DecidableEq, Repr

structure State where
  closed : Bool := false
  entries : TreeMap String Entry := ∅

structure RequestLease where
  id : String
  cancelled : Nat
  released : Bool := false
  deriving DecidableEq, Repr

/-- A flag behind an `Arc`. The last two fields only record for which id it was made, and
how many cancellations there had been before. -/
structure Flag where
  cancelled : Bool := false
  id : String
  born : Nat
  deriving DecidableEq, Repr

/-- A registry, all flags and all leases there have been, and a record of the ids that were
cancelled, in their order. -/
structure Registry where
  domain : CancellationDomain
  state : State := {}
  flags : List Flag := []
  leases : List RequestLease := []
  log : List String := []

/-- What is asked of the registry or of one of its leases; a lease that is dropped is
released. -/
inductive Operation
  | acquire (id : String)
  | cancel (id : String)
  | cancelMany (ids : List String)
  | cancelActive
  | isCancelled (id : String)
  | resetIfIdle (id : String)
  | resetManyIfIdle (ids : List String)
  | shutdown
  | release (lease : Nat)
  | leaseIsCancelled (lease : Nat)
  | checkActive (lease : Nat)
  | activeRequestCancelled (lease : Nat)
  | waitCancelled (lease : Nat) (expired : Bool)
  deriving DecidableEq, Repr

/-- What an operation returns; a wait may go on. -/
inductive Reply
  | done
  | lease (position : Nat)
  | flag (cancelled : Bool)
  | ids (cancelled : List String)
  | waiting
  | failed (error : CancellationError)
  deriving DecidableEq, Repr

namespace Registry

variable (r : Registry)

/-- `entries.entry(id).or_default()`: the entry of the id, which is made if there is
none. -/
def orDefault (id : String) : Entry × Registry :=
  match r.state.entries[id]? with
  | some entry => (entry, r)
  | none =>
    let entry : Entry := ⟨r.flags.length, 0⟩
    (entry,
      { r with
        state := { r.state with entries := r.state.entries.insert id entry }
        flags := r.flags ++ [{ id, born := r.log.length }] })

def acquire (id : String) : Reply × Registry :=
  if r.state.closed then (.failed .registryClosed, r)
  else if id = "" then
    (.lease r.leases.length,
      { r with
        flags := r.flags ++ [{ id, born := r.log.length }]
        leases := r.leases ++ [{ id, cancelled := r.flags.length }] })
  else
    let (entry, r) := r.orDefault id
    (.lease r.leases.length,
      { r with
        state := { r.state with
          entries := r.state.entries.insert id { entry with references := entry.references + 1 } }
        leases := r.leases ++ [{ id, cancelled := entry.cancelled }] })

/-- `store(true)` on the flag of an id. -/
def store (id : String) (flag : Nat) : Registry :=
  { r with
    flags := r.flags.modify flag ({ · with cancelled := true })
    log := r.log ++ [id] }

/-- One turn of `cancel_many`. -/
def cancelOne (id : String) : Registry :=
  let (entry, r) := r.orDefault id
  r.store id entry.cancelled

def cancelMany (ids : List String) : Reply × Registry :=
  if r.state.closed then (.failed .registryClosed, r)
  else (.done, (ids.filter (· ≠ "")).foldl cancelOne r)

/-- The entries that have leases, in the order of their ids. -/
def active : List (String × Entry) :=
  r.state.entries.toList.filter fun entry => entry.2.references > 0

def cancelActive : Reply × Registry :=
  if r.state.closed then (.failed .registryClosed, r)
  else
    (.ids (r.active.map Prod.fst),
      r.active.foldl (fun r entry => r.store entry.1 entry.2.cancelled) r)

/-- The flag is set. -/
def isSet (flag : Nat) : Bool :=
  (r.flags[flag]?).any Flag.cancelled

/-- There is an entry of the id, and its flag is set. -/
def hasCancelled (id : String) : Bool :=
  (r.state.entries[id]?).any fun entry => r.isSet entry.cancelled

/-- `is_cancelled` of the registry. -/
def isCancelled (id : String) : Reply :=
  if r.state.closed then .failed .registryClosed else .flag (r.hasCancelled id)

/-- One turn of `reset_many_if_idle`. -/
def resetOne (id : String) : Registry :=
  if (r.state.entries[id]?).any (·.references = 0) then
    { r with state := { r.state with entries := r.state.entries.erase id } }
  else r

def resetManyIfIdle (ids : List String) : Reply × Registry :=
  if r.state.closed then (.failed .registryClosed, r) else (.done, ids.foldl resetOne r)

def shutdown : Registry :=
  { r with state := { closed := true, entries := ∅ } }

/-- `check_live`: what stands against using a lease. -/
def checkLive (lease : RequestLease) : Option CancellationError :=
  if r.state.closed then some .registryClosed
  else if lease.released then some .leaseReleased
  else none

/-- `is_cancelled` of a lease. -/
def leaseIsCancelled (lease : RequestLease) : Reply :=
  match r.checkLive lease with
  | some error => .failed error
  | none => .flag (r.isSet lease.cancelled)

def checkActive (lease : RequestLease) : Reply :=
  match r.leaseIsCancelled lease with
  | .flag true =>
    .failed (match r.domain with
      | .download => .downloadCancelled
      | .extensionRequest => .extensionRequestCancelled)
  | .flag false => .done
  | reply => reply

def activeRequestCancelled (lease : RequestLease) : Bool :=
  if r.domain ≠ .extensionRequest || Text.trimWhite lease.id = "" then false
  else r.hasCancelled (Text.trimWhite lease.id)

/-- One turn of `wait_cancelled` with the lock; `expired` when no time remains. -/
def waitCancelled (lease : RequestLease) (expired : Bool) : Reply :=
  match r.leaseIsCancelled lease with
  | .flag true => .flag true
  | .flag false => if expired then .flag false else .waiting
  | reply => reply

/-- `release`; a count of none that is counted down would panic. -/
def release (position : Nat) (lease : RequestLease) : Option Registry :=
  if lease.released then some r
  else
    let r := { r with leases := r.leases.set position { lease with released := true } }
    match r.state.entries[lease.id]? with
    | none => some r
    | some entry =>
      match entry.references with
      | 0 => none
      | 1 => some { r with state := { r.state with entries := r.state.entries.erase lease.id } }
      | references + 1 =>
        some
          { r with
            state := { r.state with
              entries := r.state.entries.insert lease.id { entry with references } } }

/-- One operation. -/
def perform : Operation → Option (Reply × Registry)
  | .acquire id => some (r.acquire id)
  | .cancel id => some (r.cancelMany [id])
  | .cancelMany ids => some (r.cancelMany ids)
  | .cancelActive => some r.cancelActive
  | .isCancelled id => some (r.isCancelled id, r)
  | .resetIfIdle id => some (r.resetManyIfIdle [id])
  | .resetManyIfIdle ids => some (r.resetManyIfIdle ids)
  | .shutdown => some (.done, r.shutdown)
  | .release position =>
    (r.leases[position]?).bind fun lease => (r.release position lease).map (.done, ·)
  | .leaseIsCancelled position =>
    (r.leases[position]?).map fun lease => (r.leaseIsCancelled lease, r)
  | .checkActive position => (r.leases[position]?).map fun lease => (r.checkActive lease, r)
  | .activeRequestCancelled position =>
    (r.leases[position]?).map fun lease => (.flag (r.activeRequestCancelled lease), r)
  | .waitCancelled position expired =>
    (r.leases[position]?).map fun lease => (r.waitCancelled lease expired, r)

/-- The registry as a machine, which begins with nothing. -/
def machine : Transition.Machine Registry Operation where
  Start r := ∃ domain, r = { domain }
  step r operation := (r.perform operation).map Prod.snd

end Registry
end LosslessMusic.Cancellation
