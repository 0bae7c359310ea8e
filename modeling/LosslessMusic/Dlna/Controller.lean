import LosslessMusic.Text
import LosslessMusic.Transition.Machine
import LosslessMusic.Transition.Parties

/-!
# The media server controller

`MediaServerController` with its calls as parties. A section under the lock is one step,
a call that waits on the condition takes its section again, and every call of the lock,
the factory or a runtime is a step that may throw.
-/

namespace LosslessMusic.Dlna

inductive ServerState
  | stopped
  | starting
  | running
  | stopping
  | failed (reason : String)
  deriving DecidableEq, Repr

/-- The name of a state. -/
def ServerState.name : ServerState → String
  | .stopped => "STOPPED"
  | .starting => "STARTING"
  | .running => "RUNNING"
  | .stopping => "STOPPING"
  | .failed _ => "FAILED"

/-- `current is ServerState.Failed`. -/
def ServerState.isFailed : ServerState → Bool
  | .failed _ => true
  | _ => false

/-- The arguments of `start`. -/
structure Request where
  rootDir : String
  name : String
  lanIp : String
  deriving DecidableEq, Repr

/-- Who calls `shutDown`: `stop`, `onNetworkChanged` with an address, the `start` call
that restarts for another address, or `failRuntime`. -/
inductive Caller
  | stop
  | network (currentLanIp : Option String)
  | restart (request : Request) (issued : Nat)
  | failure (source : Nat) (reason : String)
  deriving DecidableEq, Repr

namespace Caller

/-- The first argument of `shutDown`. -/
def reason : Caller → Option String
  | .stop => none
  | .network _ | .restart _ _ => some "network_changed"
  | .failure _ reason => some reason

def expectedRuntime : Caller → Option Nat
  | .failure source _ => some source
  | _ => none

end Caller

/-- A runtime: whether a failure callback was ever set, and whether `start` and `stop`
have been called. -/
structure Runtime where
  hooked : Bool
  started : Bool
  stopped : Bool
  deriving DecidableEq, Repr

/-- `statusJson`. -/
structure Status where
  running : Bool
  url : String
  name : String
  state : String
  error : String
  deriving DecidableEq, Repr

/-- A run that a call cancelled or took down. -/
structure Shutdown where
  caller : Caller
  /-- The starting run that the call has cancelled before. -/
  cancelled : Option Nat
  run : Nat
  boundIp : String
  /-- How many runs had ended when the `start` of this run was called. -/
  issued : Nat
  deriving DecidableEq, Repr

/-- Where a call is. Runtimes are named by their position, runs by their number, and
a `start` keeps how many runs had ended when it was called. -/
inductive Point
  /-- `start` before its first section. -/
  | entering (request : Request) (issued : Nat)
  /-- `start` before its second section. -/
  | opening (request : Request) (issued : Nat)
  /-- Before `acquireLock()`. -/
  | acquiring
  /-- Before `runtimeFactory`. -/
  | creating
  /-- Before `startingRuntime = active`. -/
  | registering (active : Nat)
  /-- Before `active.onFailure = …`. -/
  | hooking (active : Nat)
  /-- Before `active.start()`. -/
  | launching (active : Nat)
  /-- Before the section that ends the start. -/
  | concluding (candidate : Option Nat) (failure : Option String) (startedUrl : String)
  /-- Before `candidate?.stop()`. -/
  | cleaning (candidate : Option Nat) (failure : String)
  /-- Before `releaseLock()` of a failed start. -/
  | unlocking (failure : String)
  /-- Before the last section of a failed start. -/
  | settling (failure : String)
  /-- Before `statusJson()`. -/
  | answering
  /-- `start` has returned. -/
  | answered (status : Status)
  /-- `shutDown` before its section. -/
  | shutting (caller : Caller)
  /-- `shutDown` waits for the run that it has cancelled. -/
  | awaiting (caller : Caller) (cancelled : Nat)
  /-- Before `active?.stop()`. -/
  | tearing (caller : Caller) (active : Option Nat) (release : Bool) (failure : Option String)
  /-- Before `releaseLock()` of `shutDown`. -/
  | freeing (caller : Caller) (release : Bool) (failure : Option String)
  /-- Before the last section of `shutDown`. -/
  | ending (caller : Caller) (failure : Option String)
  /-- A call without a result has returned. -/
  | done
  deriving DecidableEq, Repr

/-- The fields of the controller, what it has done to its surroundings, and a record of
its runs. `lockAttempted` is left out: it is set before anything can throw. -/
structure Controller where
  current : ServerState
  runtime : Option Nat
  startingRuntime : Option Nat
  heldLock : Bool
  boundIp : String
  url : String
  serverName : String
  pendingFailure : Option String
  cancelStart : Bool
  runtimes : List Runtime
  /-- The calls of `acquireLock`. -/
  acquires : Nat
  /-- The calls of `releaseLock`. -/
  releases : Nat
  /-- The number of the latest run. -/
  run : Nat
  /-- How many runs have ended. -/
  finished : Nat
  /-- How many runs had ended when the `start` of the latest run was called. -/
  issued : Nat
  shutdowns : List Shutdown
  /-- The runs whose runtime has reported a failure while it was starting. -/
  reported : List Nat
  /-- The runs whose start ended in `RUNNING`. -/
  ran : List Nat
  deriving DecidableEq, Repr

/-- What a call of the surroundings answers: what it throws, if anything, and the URL. -/
structure Answer where
  thrown : Option String
  url : String
  deriving DecidableEq, Repr

namespace Controller

variable (c : Controller)

/-- `statusJsonLocked`. -/
def statusJson : Status where
  running := c.current = .running
  url := c.url
  name := c.serverName
  state := c.current.name
  error := match c.current with
    | .failed reason => reason
    | _ => ""

/-- A runtime changes. -/
def setRuntime (id : Nat) (change : Runtime → Runtime) : Controller :=
  { c with runtimes := c.runtimes.modify id change }

/-- The first section of `start`. -/
def enter (request : Request) (issued : Nat) : Controller × Point :=
  if c.current = .stopping then (c, .entering request issued)
  else if c.current = .running && !Text.isBlank request.lanIp && request.lanIp ≠ c.boundIp then
    (c, .shutting (.restart request issued))
  else (c, .opening request issued)

/-- The second section of `start`. -/
def openRun (request : Request) (issued : Nat) : Controller × Point :=
  if c.current = .stopping then (c, .opening request issued)
  else if c.current = .running || c.current = .starting then (c, .answered c.statusJson)
  else
    let named := { c with serverName := request.name, url := "" }
    if Text.isBlank request.lanIp then
      let next := { named with current := .failed "no_lan_ip" }
      (next, .answered next.statusJson)
    else
      ({ named with
          current := .starting
          boundIp := request.lanIp
          pendingFailure := none
          cancelStart := false
          startingRuntime := none
          run := c.run + 1
          issued }, .acquiring)

/-- The failure that a start ends with. -/
def startFailure (failure : Option String) : Option String :=
  let failure := failure.or c.pendingFailure
  if c.cancelStart && failure = none then some "start_cancelled" else failure

/-- The section that ends a start. -/
def conclude (candidate : Option Nat) (failure : Option String) (startedUrl : String) :
    Controller × Point :=
  match c.startFailure failure with
  | none =>
    let next := { c with
      runtime := candidate
      startingRuntime := none
      heldLock := true
      url := startedUrl
      current := .running
      ran := c.run :: c.ran }
    (next, .answered next.statusJson)
  | some failure => ({ c with current := .stopping }, .cleaning candidate failure)

/-- The last section of a failed start. -/
def settle (failure : String) : Controller :=
  { c with
    runtime := none
    startingRuntime := none
    heldLock := false
    url := ""
    boundIp := ""
    current := if c.cancelStart && c.pendingFailure = none && failure = "start_cancelled" then
      .stopped else .failed failure
    finished := c.run }

/-- Where a caller of `shutDown` goes on. -/
def resume : Caller → Point
  | .restart request issued => .entering request issued
  | _ => .done

/-- `shutDown` where nothing is running: `stop` clears a failure. -/
def acknowledge (caller : Caller) : Controller :=
  if caller.reason = none && c.current.isFailed then { c with current := .stopped } else c

/-- The end of the section of `shutDown`, behind the waiting. -/
def take (caller : Caller) (cancelled : Option Nat) : Controller × Point :=
  if c.current ≠ .running then (c.acknowledge caller, resume caller)
  else
    ({ c with
        current := .stopping
        runtime := none
        heldLock := false
        shutdowns := ⟨caller, cancelled, c.run, c.boundIp, c.issued⟩ :: c.shutdowns },
      .tearing caller c.runtime c.heldLock caller.reason)

/-- The section of `shutDown`. -/
def shut (caller : Caller) : Controller × Point :=
  if caller.expectedRuntime ≠ none &&
      (c.current = .stopping || c.runtime ≠ caller.expectedRuntime) then (c, resume caller)
  else if c.current = .stopping then (c, .shutting caller)
  else if c.current = .starting then
    ({ c with
        cancelStart := true
        pendingFailure := caller.reason.or c.pendingFailure
        shutdowns := ⟨caller, none, c.run, c.boundIp, c.issued⟩ :: c.shutdowns },
      .awaiting caller c.run)
  else c.take caller none

/-- The last section of `shutDown`. -/
def finish (failure : Option String) : Controller :=
  { c with
    url := ""
    boundIp := ""
    current := match failure with
      | none => .stopped
      | some failure => .failed failure
    finished := c.run }

/-- One step of a call. -/
def act (answer : Answer) : Point → Option (Controller × Point)
  | .entering request issued => some (c.enter request issued)
  | .opening request issued => some (c.openRun request issued)
  | .acquiring =>
    let next := { c with acquires := c.acquires + 1 }
    match answer.thrown with
    | none => some (next, .creating)
    | some error => some (next, .concluding none (some error) "")
  | .creating =>
    match answer.thrown with
    | none => some ({ c with runtimes := c.runtimes ++ [⟨false, false, false⟩] },
        .registering c.runtimes.length)
    | some error => some (c, .concluding none (some error) "")
  | .registering active => some ({ c with startingRuntime := some active }, .hooking active)
  | .hooking active =>
    some (c.setRuntime active ({ · with hooked := true }), .launching active)
  | .launching active =>
    let next := c.setRuntime active ({ · with started := true })
    match answer.thrown with
    | none => some (next, .concluding (some active) none answer.url)
    | some error => some (next, .concluding (some active) (some error) "")
  | .concluding candidate failure startedUrl => some (c.conclude candidate failure startedUrl)
  | .cleaning none failure => some (c, .unlocking failure)
  | .cleaning (some candidate) failure =>
    let next := c.setRuntime candidate ({ · with stopped := true })
    match answer.thrown with
    | none => some (next, .unlocking failure)
    | some cleanup =>
      some (next, .unlocking (if failure = "start_cancelled" then cleanup else failure))
  | .unlocking failure =>
    some ({ c with releases := c.releases + 1 }, .settling (answer.thrown.getD failure))
  | .settling failure => some (c.settle failure, .answering)
  | .answering => some (c, .answered c.statusJson)
  | .shutting caller => some (c.shut caller)
  | .awaiting caller cancelled =>
    if c.current = .starting || c.current = .stopping then some (c, .awaiting caller cancelled)
    else some (c.take caller (some cancelled))
  | .tearing caller none release failure => some (c, .freeing caller release failure)
  | .tearing caller (some active) release failure =>
    some (c.setRuntime active ({ · with stopped := true }),
      .freeing caller release (failure.or answer.thrown))
  | .freeing caller release failure =>
    if release then
      some ({ c with releases := c.releases + 1 }, .ending caller (failure.or answer.thrown))
    else some (c, .ending caller failure)
  | .ending caller failure => some (c.finish failure, resume caller)
  | .answered _ | .done => none

end Controller

/-- The controller and its calls. -/
structure Server where
  controller : Controller
  calls : List Point
  deriving DecidableEq, Repr

/-- What happens: a call from outside, a report of a runtime, or a step of a call. -/
inductive Event
  | start (request : Request)
  | stop
  | onNetworkChanged (currentLanIp : Option String)
  | failRuntime (source : Nat) (reason : String)
  | call (position : Nat) (answer : Answer)
  deriving DecidableEq, Repr

namespace Server

variable (s : Server)

/-- A new controller. -/
def new : Server where
  controller :=
    { current := .stopped, runtime := none, startingRuntime := none, heldLock := false
      boundIp := "", url := "", serverName := "", pendingFailure := none
      cancelStart := false, runtimes := [], acquires := 0, releases := 0, run := 0
      finished := 0, issued := 0, shutdowns := [], reported := [], ran := [] }
  calls := []

/-- A call begins. -/
def addCall (point : Point) : Server :=
  { s with calls := s.calls ++ [point] }

/-- `onNetworkChanged` up to its call of `shutDown`. -/
def onNetworkChanged (currentLanIp : Option String) : Server :=
  if (s.controller.current = .starting || s.controller.current = .running) &&
      currentLanIp ≠ some s.controller.boundIp then
    s.addCall (.shutting (.network currentLanIp))
  else s

/-- `failRuntime` up to its call of `shutDown`. -/
def failRuntime (source : Nat) (reason : String) : Server :=
  let c := s.controller
  if c.current = .starting then
    if c.startingRuntime ≠ some source then s
    else
      { s with controller := { c with
          pendingFailure := c.pendingFailure.or (some reason)
          reported := c.run :: c.reported } }
  else if c.runtime ≠ some source || c.current ≠ .running then s
  else s.addCall (.shutting (.failure source reason))

/-- One step. -/
def step (s : Server) : Event → Option Server
  | .start request => some (s.addCall (.entering request s.controller.finished))
  | .stop => some (s.addCall (.shutting .stop))
  | .onNetworkChanged currentLanIp => some (s.onNetworkChanged currentLanIp)
  | .failRuntime source reason =>
    (s.controller.runtimes[source]?).bind fun runtime =>
      if runtime.hooked then some (s.failRuntime source reason) else none
  | .call position answer =>
    (s.calls[position]?).bind fun point =>
      (s.controller.act answer point).map fun moved =>
        { controller := moved.1, calls := s.calls.set position moved.2 }

/-- The machine of the controller. -/
def machine : Transition.Machine Server Event where
  Start := (· = new)
  step := step

end Server

end LosslessMusic.Dlna
