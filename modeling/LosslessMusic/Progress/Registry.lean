import LosslessMusic.Transition.Machine
import Mathlib.Tactic.Common
import Std.Data.TreeMap.Lemmas

/-!
# Sparse download progress

`progress.rs`: the progress of every item with a revision, tombstones of what was removed,
and the deltas that a client is told since the revision it knows. A change that the bridge
does not show gets no revision.
-/

namespace LosslessMusic.Progress

open Std (TreeMap)

def UPDATE_BYTES : Int := 128 * 1024

/-- The processors whose conversion of numbers `rounded_speed` tells apart. -/
inductive TargetArch
  | x86
  | arm
  | other
  deriving DecidableEq, Repr

structure ItemProgress where
  item_id : String
  bytes_total : Int := 0
  bytes_received : Int := 0
  progress : Float := 0.0
  speed_mbps : Float := 0.0
  is_downloading : Bool := false
  status : String
  stage : String := ""
  revision : Int

structure BridgeState where
  bytes_bucket : Int
  total : Int
  percent : Int
  speed_tenths : Int
  downloading : Bool
  status : String
  stage : String
  deriving DecidableEq, Repr

def roundedSpeed (target_arch : TargetArch) (value : Float) : Int :=
  let value := value.round
  match target_arch with
  | .x86 =>
    if value ≥ 9223372036854775808.0 then -9223372036854775808 else value.toInt64.toInt
  | .arm =>
    if value ≥ 18446744073709551616.0 || !value.isFinite then
      (value.toUInt32.toUInt64 <<< 32).toInt64.toInt
    else if value ≥ 9223372036854775808.0 then value.toUInt64.toInt64.toInt
    else value.toInt64.toInt
  | .other => value.toInt64.toInt

namespace ItemProgress

variable (item : ItemProgress)

def bridge (target_arch : TargetArch) : BridgeState :=
  let progress :=
    if item.progress.isNaN || item.progress ≤ 0.0 then 0.0 else min item.progress 1.0
  let speed := if item.speed_mbps.isNaN || item.speed_mbps ≤ 0.0 then 0.0 else item.speed_mbps
  { bytes_bucket := item.bytes_received.tdiv UPDATE_BYTES
    total := item.bytes_total
    percent := (progress * 100.0).round.toInt64.toInt
    speed_tenths := roundedSpeed target_arch (speed * 10.0)
    downloading := item.is_downloading
    status := item.status
    stage := item.stage }

def finite : Bool :=
  item.progress.isFinite && item.speed_mbps.isFinite

def markDownloading : ItemProgress :=
  { item with is_downloading := true, status := "downloading", stage := "" }

def setReceived (received : Int) : ItemProgress :=
  let item := { item with bytes_received := received }
  let item :=
    if item.bytes_total > 0 then
      { item with progress := Float.ofInt received / Float.ofInt item.bytes_total }
    else item
  if received > 0 then item.markDownloading else item

/-- What `preparing` changes. -/
def preparing (stage : String) : ItemProgress :=
  { item with
    progress := 0.0
    bytes_received := 0
    bytes_total := 0
    speed_mbps := 0.0
    is_downloading := true
    status := "preparing"
    stage }

/-- What `set_received_with_speed` changes. -/
def setReceivedWithSpeed (received : Int) (speed : Float) : ItemProgress :=
  setReceived { item with speed_mbps := speed } received

/-- What `set_progress` changes. -/
def setProgress (progress : Float) (received total : Int) : ItemProgress :=
  let has_bytes : Bool := received > 0 || total > 0
  let item :=
    { item with
      progress :=
        if item.status ≠ "preparing" || has_bytes || progress ≥ 1.0 then progress else 0.0 }
  let item := if received > 0 then { item with bytes_received := received } else item
  let item := if total > 0 then { item with bytes_total := total } else item
  if has_bytes || progress ≥ 1.0 || item.status = "downloading" then item.markDownloading
  else item

/-- What `finalizing` changes. -/
def finalizing : ItemProgress :=
  { item with progress := 1.0, status := "finalizing", stage := "" }

/-- What `complete` changes. -/
def complete : ItemProgress :=
  { item with progress := 1.0, is_downloading := false, status := "completed", stage := "" }

end ItemProgress

/-- What is asked of one item. -/
inductive Update
  | preparing (stage : String)
  | downloading
  | set_received (received : Int)
  | set_received_with_speed (received : Int) (speed : Float)
  | set_progress (progress : Float) (received total : Int)
  | finalizing
  | complete

/-- The change of the item. -/
def Update.apply (item : ItemProgress) : Update → ItemProgress
  | preparing stage => item.preparing stage
  | downloading => item.markDownloading
  | set_received received => item.setReceived received
  | set_received_with_speed received speed => item.setReceivedWithSpeed received speed
  | set_progress progress received total => item.setProgress progress received total
  | finalizing => item.finalizing
  | complete => item.complete

/-- `wrapping_add(1)` of an `i64`. -/
def wrappingSucc (value : Int) : Int :=
  (value + 1).bmod (2 ^ 64)

/-- `State`, with a record of the items there were at first and after every change. -/
structure State where
  items : TreeMap String ItemProgress := ∅
  removed : TreeMap String Int := ∅
  seq : Int := 0
  reset : Int := 0
  closed : Bool := false
  record : List (TreeMap String ItemProgress) := [∅]

/-- What `delta` tells. -/
structure Delta where
  seq : Int
  reset : Bool
  items : TreeMap String ItemProgress
  removed : List String

namespace State

variable (s : State)

def start (id : String) : State :=
  let revision := wrappingSucc s.seq
  let items := s.items.insert id { item_id := id, status := "preparing", revision }
  { s with
    seq := revision
    items
    removed := s.removed.erase id
    record := s.record ++ [items] }

def update (target_arch : TargetArch) (id : String) (update : Update) : State :=
  match s.items[id]? with
  | none => s
  | some item =>
    let after := update.apply item
    if after.bridge target_arch ≠ item.bridge target_arch then
      let revision := wrappingSucc s.seq
      let items := s.items.insert id { after with revision }
      { s with seq := revision, items, record := s.record ++ [items] }
    else { s with items := s.items.insert id after }

/-- The removal of one item; beyond 512 tombstones the older half goes. -/
def removeOne (id : String) : State :=
  if s.items.contains id then
    let seq := wrappingSucc s.seq
    let items := s.items.erase id
    let removed := s.removed.insert id seq
    let s := { s with seq, items, removed, record := s.record ++ [items] }
    if removed.size > 512 then
      let revisions := (removed.toList.map Prod.snd).mergeSort
      let cutoff := revisions.getD (revisions.length / 2) 0
      { s with
        removed := removed.filter fun _ revision => revision > cutoff
        reset := max s.reset cutoff }
    else s
  else s

def removeMany (ids : List String) : State :=
  ids.foldl removeOne s

/-- `delta`; nothing is told of a document that cannot be written. -/
def delta (since : Int) : Option Delta :=
  if since ≥ s.seq then none
  else
    let reset : Bool := since ≤ 0 || since < s.reset
    let items := s.items.filter fun _ item => reset || item.revision > since
    if items.toList.any fun entry => !entry.2.finite then none
    else
      let removed :=
        if reset then [] else (s.removed.filter fun _ revision => revision > since).keys
      some { seq := s.seq, reset, items, removed }

def shutdown : State :=
  { s with closed := true, items := ∅, removed := ∅ }

end State

/-- A listener with the items it was told of and the revision it knows. -/
structure Client where
  items : TreeMap String ItemProgress := ∅
  seq : Int := 0

/-- A delta that replaces the items, or adds to them and takes from them. -/
def Client.apply (client : Client) (delta : Delta) : Client :=
  let items := if delta.reset then ∅ else client.items
  { items := delta.removed.foldl TreeMap.erase (items ∪ delta.items), seq := delta.seq }

/-- `wait_delta` of a client; a closed registry and a wait that expires tell nothing. -/
def Client.poll (client : Client) (state : State) : Client :=
  if state.closed then client
  else
    match state.delta client.seq with
    | none => client
    | some delta => client.apply delta

/-- The registry and those who listen to it. -/
structure System where
  state : State := {}
  clients : List Client := []

/-- What happens in the system. -/
inductive Event
  | start (id : String)
  | update (id : String) (update : Update)
  | remove (id : String)
  | removeMany (ids : List String)
  | shutdown
  | connect
  | poll (client : Nat)

namespace System

/-- An operation of a registry that is not closed. -/
def change (s : System) (operation : State → State) : System :=
  if s.state.closed then s else { s with state := operation s.state }

/-- One event. -/
def step (target_arch : TargetArch) (s : System) : Event → Option System
  | .start id => some (s.change (·.start id))
  | .update id update => some (s.change (·.update target_arch id update))
  | .remove id => some (s.change (·.removeMany [id]))
  | .removeMany ids => some (s.change (·.removeMany ids))
  | .shutdown => some { s with state := s.state.shutdown }
  | .connect => some { s with clients := s.clients ++ [{}] }
  | .poll position =>
    (s.clients[position]?).map fun client =>
      { s with clients := s.clients.set position (client.poll s.state) }

/-- The system as a machine. -/
def machine (target_arch : TargetArch) : Transition.Machine System Event where
  Start s := s = {}
  step := step target_arch

end System
end LosslessMusic.Progress
