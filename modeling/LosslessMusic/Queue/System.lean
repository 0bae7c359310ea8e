import LosslessMusic.Queue.Processor
import LosslessMusic.Queue.Service
import LosslessMusic.Transition.Machine

/-!
# The queue and the service together

The controller and the foreground service run in one process and talk through
intents and the snapshot file. Engine progress reaches the controller with any
of the statuses of the engine's registry, for any items, at any time.
-/

namespace LosslessMusic.Queue

/-- The statuses `ProgressRegistry` gives an item. -/
def engineStatuses : List String :=
  ["preparing", "downloading", "finalizing", "completed"]

/-- The Dart controller and the foreground service. -/
structure System where
  controller : Controller := {}
  service : Service := {}

/-- One step of either party; a poll of the controller reads the snapshot file
or fails to. -/
inductive SystemEvent
  | queue (time : Nat) (event : QueueEvent)
  | poll (time : Nat) (readable : Bool)
  | service (event : ServiceEvent)

namespace System

/-- What the environment can let the controller see besides the snapshot file:
progress has one of the statuses of the engine's registry. -/
def admits : QueueEvent → Bool
  | .polled _ => false
  | .progress items => items.all fun item => engineStatuses.contains item.status
  | _ => true

/-- One step of the whole system. -/
def step (s : System) : SystemEvent → Option System
  | .queue time event =>
    if admits event then
      (s.controller.step time event).map fun controller => { s with controller }
    else none
  | .poll time readable =>
    (s.controller.step time (.polled (if readable then s.service.snapshot else none))).map
      fun controller => { s with controller }
  | .service (.deliver networkAllowed) =>
    match s.controller.outbox with
    | [] => none
    | intent :: outbox =>
      some
        { controller := { s.controller with outbox }
          service := s.service.onStartCommand networkAllowed intent }
  | .service event => (s.service.step event).map fun service => { s with service }

/-- Runs begin with an empty queue and a service that runs nothing; the snapshot
file may be left over from an earlier process. -/
def Start (s : System) : Prop :=
  ∃ available simultaneousDownloads wifiOnly nextRunId snapshot, s.controller =
      { workerAvailable := available, simultaneousDownloads, wifiOnly, nextRunId } ∧
    s.service = { snapshot } ∧
    ∀ left ∈ snapshot, left.runId < nextRunId

theorem start_simultaneous (simultaneousDownloads : Int) :
    Start { controller := { simultaneousDownloads } } :=
  ⟨true, simultaneousDownloads, false, 0, none, rfl, rfl, by simp⟩

theorem start_default : Start {} :=
  start_simultaneous 1

/-- The queue and the service as a machine. -/
def machine : Transition.Machine System SystemEvent where
  Start := Start
  step := step

end System

end LosslessMusic.Queue
