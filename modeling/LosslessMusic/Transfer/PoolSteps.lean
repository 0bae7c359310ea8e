import LosslessMusic.Transfer.Pool
import Mathlib.Data.List.Count

/-!
# What a step of the segment pool changes

Every step is one of a few kinds of change. A worker's step moves a segment on,
drops it, or leaves the segments where they are; the calling thread's steps
receive, append and release. The invariants of the pool are read off these kinds.
-/

namespace LosslessMusic.Transfer.Pool

variable {point : WorkerPoint}

namespace WorkerPoint

/-- The worker fetches the segment. -/
def fetches (index : Nat) : WorkerPoint → Bool
  | .fetching current _ _ => current = index
  | _ => false

/-- The worker has fetched the segment and not handed it over yet. -/
def delivers (index : Nat) : WorkerPoint → Bool
  | .sending (.completed current _) => current = index
  | _ => false

/-- The worker has a segment. -/
def holds : WorkerPoint → Bool
  | .fetching _ _ _ | .sending (.completed _ _) => true
  | _ => false

/-- The fetched segment a worker hands over. -/
def result : WorkerPoint → Option (Nat × Bytes)
  | .sending (.completed index data) => some (index, data)
  | _ => none

theorem fetches_of_free (free : point.holds = false)
    (index : Nat) : point.fetches index = false := by
  cases point <;> simp [holds] at free <;> rfl

theorem delivers_of_free (free : point.holds = false)
    (index : Nat) : point.delivers index = false := by
  cases point with
  | sending message =>
    cases message with
    | completed current data => simp [holds] at free
    | failed errorType => rfl
  | _ => rfl

theorem result_of_free (free : point.holds = false) : point.result = none := by
  cases point with
  | sending message =>
    cases message with
    | completed current data => simp [holds] at free
    | failed errorType => rfl
  | _ => rfl

end WorkerPoint

/-- What a worker can become without handing anything over: free, or still at the
same segment. -/
inductive Shifts : WorkerPoint → WorkerPoint → Prop
  | release {point next : WorkerPoint} : next.holds = false → Shifts point next
  | again {index attempt attempt' : Nat} {received received' : Bytes} :
      Shifts (.fetching index attempt received) (.fetching index attempt' received')

/-- The calling thread is in `append`. -/
def MainPoint.isAppending : MainPoint → Bool
  | .appending _ _ => true
  | _ => false

/-- The calling thread is between an append and the release of its slot. -/
def MainPoint.owesSlot : MainPoint → Bool
  | .saving | .releasing => true
  | _ => false

/-- The calling thread is done with the assembly and has not failed. -/
def MainPoint.completes : MainPoint → Bool
  | .publishing | .returned (.success _) => true
  | _ => false

/-- A point of the loop, or a failed end, at which no slot is owed. -/
structure MainPoint.Resting (main : MainPoint) : Prop where
  outside : main.isAppending = false
  settled : main.owesSlot = false
  unfinished : main.completes = false

variable (call : Call)

/-- The kinds of change a step makes. -/
inductive Moved (s : Pool) : Pool → Prop
  /-- A worker goes on by itself. -/
  | shift {position : Nat} {point next : WorkerPoint}
      (here : s.workers[position]? = some point) (shifts : Shifts point next) :
      Moved s (s.setWorker position next)
  /-- A worker takes a job. -/
  | take {position : Nat} {index : Nat} {rest : List Nat}
      (here : s.workers[position]? = some .waiting) (queued : s.queue = index :: rest) :
      Moved s ({ s with queue := rest }.setWorker position (.fetching index 1 []))
  /-- A worker completes a fetch. -/
  | complete {position index attempt : Nat} {received : Bytes}
      (here : s.workers[position]? = some (.fetching index attempt received))
      (filled : received ≠ []) :
      Moved s ({ s with fetched := (index, received) :: s.fetched }.setWorker position
        (.sending (.completed index received)))
  /-- A worker hands over a fetched segment. -/
  | deliver {position index : Nat} {data : Bytes} {next : WorkerPoint}
      (here : s.workers[position]? = some (.sending (.completed index data)))
      (open_ : s.receiverOpen = true) (released : next.holds = false) :
      Moved s ({ s with results := s.results ++ [Message.completed index data] }.setWorker
        position next)
  /-- A worker hands over a failure. -/
  | report {position : Nat} {point next : WorkerPoint} {errorType : String}
      (here : s.workers[position]? = some point)
      (open_ : s.receiverOpen = true) (released : next.holds = false) :
      Moved s ({ s with results := s.results ++ [Message.failed errorType] }.setWorker
        position next)
  /-- A worker is started. -/
  | spawn {main : MainPoint} (outside : s.main.isAppending = false)
      (resting : main.Resting) :
      Moved s { s with workers := s.workers ++ [.checking], main }
  /-- The calling thread goes on, possibly with a failure on record. -/
  | proceed {main : MainPoint} {flagged : Pool}
      (outside : s.main.isAppending = false)
      (resting : main.Resting)
      (flagging : flagged = s ∨ ∃ errorType, flagged = s.fail errorType) :
      Moved s { flagged with main }
  /-- A fetched segment is received. -/
  | receive {index : Nat} {data : Bytes} {rest : List Message}
      (outside : s.main = .receiving)
      (message : s.results = .completed index data :: rest) :
      Moved s { s with
        results := rest
        pending := (index, data) :: s.pending.filter (·.1 ≠ index)
        main := .assembling }
  /-- A failure is received. -/
  | receiveFailure {errorType : String} {rest : List Message}
      (outside : s.main = .receiving) (message : s.results = .failed errorType :: rest) :
      Moved s { { s with results := rest }.fail errorType with main := .assembling }
  /-- The next segment is there, and its append begins. -/
  | append {data : Bytes} (outside : s.main = .assembling)
      (ready : (s.nextIndex, data) ∈ s.pending) :
      Moved s { s with
        pending := s.pending.filter (·.1 ≠ s.nextIndex)
        main := .appending data 0 }
  /-- A block of the segment is copied. -/
  | copy {data : Bytes} {copied count : Nat} (inside : s.main = .appending data copied)
      (fits : copied + count ≤ data.length) :
      Moved s { s with
        file := s.file ++ (data.drop copied).take count
        main := .appending data (copied + count) }
  /-- The append fails. -/
  | abort {data : Bytes} {copied written : Nat} (rolledBack : Bool)
      (inside : s.main = .appending data copied) :
      Moved s { s.fail "storage_error" with
        file := if rolledBack then (s.file ++ (data.drop copied).take written).take s.bytes
          else s.file ++ (data.drop copied).take written
        main := .checking }
  /-- The segment is appended. -/
  | appended {data : Bytes} (inside : s.main = .appending data data.length) :
      Moved s { s with
        bytes := s.bytes + data.length
        nextIndex := s.nextIndex + 1
        appended := s.appended ++ [data]
        main := .saving }
  /-- The output is saved. -/
  | save (ok : Bool) (inside : s.main = .saving) :
      Moved s { s.checkpoint call ok with main := .releasing }
  /-- A slot is released to the next job. -/
  | release (inside : s.main = .releasing) (open_ : s.senderOpen = true)
      (room : s.queue.length < call.workerCount) :
      Moved s { s with
        queue := s.queue ++ [s.nextJob]
        nextJob := s.nextJob + 1
        senderOpen := s.nextJob + 1 ≠ call.segments
        main := .assembling }
  /-- The scope is left, and the call returns or publishes. -/
  | join (saved : Bool) (inside : s.main = .joining) : Moved s (s.onJoined call saved)
  /-- The output is published. -/
  | publish (inside : s.main = .publishing) :
      Moved s { s with saved := none, main := .returned (.success s.file) }

variable {call}

variable {s next : Pool} {position : Nat}

/-- A send keeps the messages or adds the one that is sent. -/
theorem moved_of_send {message : Message} {after closed : WorkerPoint}
    (here : s.workers[position]? = some point)
    (carried : ∀ index data, message = .completed index data →
      point = .sending (.completed index data))
    (released : after.holds = false) (dropped : closed.holds = false)
    (sent : s.send call position message after closed = some next) : Moved call s next := by
  unfold send at sent
  split at sent
  · cases sent
    exact .shift here (.release dropped)
  next receiver =>
    split at sent
    · cases sent
      have open_ : s.receiverOpen = true := by simpa using receiver
      cases message with
      | completed index data =>
        rw [carried index data rfl] at here
        exact .deliver here open_ released
      | failed errorType => exact .report here open_ released
    · cases sent

theorem moved_of_attemptFailed {index attempt : Nat} {received : Bytes}
    (here : s.workers[position]? = some (.fetching index attempt received))
    (failure : AttemptFailure) :
    Moved call s (s.onAttemptFailed call position index attempt failure) := by
  unfold onAttemptFailed
  split
  · exact .shift here (.release rfl)
  · exact .shift here .again

theorem moved_of_stepWorker {event : WorkerEvent} (here : s.workers[position]? = some point)
    (stepped : s.stepWorker call position point event = some next) : Moved call s next := by
  unfold stepWorker at stepped
  split at stepped
  · cases stepped
    refine .shift here (.release ?_)
    split <;> rfl
  · split at stepped
    next queued =>
      cases stepped
      exact .take here queued
    · split at stepped
      · cases stepped
      · cases stepped
        exact .shift here (.release rfl)
  · split at stepped
    · cases stepped
    · cases stepped
      exact .shift here .again
  · cases stepped
    exact moved_of_attemptFailed here _
  · split at stepped
    · cases stepped
      exact moved_of_attemptFailed here _
    next good =>
      cases stepped
      rw [not_or] at good
      exact .complete here good.2
  next message =>
    refine moved_of_send here (fun index data same => by rw [same]) ?_ rfl stepped
    cases message <;> rfl
  · exact moved_of_send here (fun index data same => by cases same) rfl rfl stepped
  · cases stepped
    exact .shift here (.release rfl)
  · cases stepped
    exact .shift here (.release rfl)
  · cases stepped
    exact .shift here (.release rfl)
  · cases stepped

theorem moved_of_stepMain {event : Event}
    (stepped : s.stepMain call event = some next) : Moved call s next := by
  unfold stepMain at stepped
  split at stepped
  next left ok inside =>
    split at stepped
    · cases stepped
      refine .spawn (by rw [inside]; rfl) ?_
      split <;> exact ⟨rfl, rfl, rfl⟩
    · cases stepped
      exact .proceed (by rw [inside]; rfl) ⟨rfl, rfl, rfl⟩ (.inr ⟨_, rfl⟩)
  next ok inside =>
    cases stepped
    refine .proceed (by rw [inside]; rfl) ⟨rfl, rfl, rfl⟩ ?_
    cases ok with
    | true => exact .inl rfl
    | false => exact .inr ⟨_, rfl⟩
  next inside =>
    split at stepped
    · cases stepped
    next message rest results =>
      cases stepped
      cases message with
      | completed index data => exact .receive inside results
      | failed errorType => exact .receiveFailure inside results
  next inside =>
    split at stepped
    · cases stepped
      exact .proceed (by rw [inside]; rfl) ⟨rfl, rfl, rfl⟩ (.inl rfl)
    · cases stepped
  next inside =>
    split at stepped
    · cases stepped
      exact .proceed (by rw [inside]; rfl) ⟨rfl, rfl, rfl⟩ (.inl rfl)
    · cases stepped
  next inside =>
    split at stepped
    next ready found =>
      cases stepped
      have key : ready.1 = s.nextIndex := by simpa using List.find?_some found
      have member := List.mem_of_find?_eq_some found
      rw [← Prod.eta ready, key] at member
      exact .append inside member
    · cases stepped
      exact .proceed (by rw [inside]; rfl) ⟨rfl, rfl, rfl⟩ (.inl rfl)
  next data copied count inside =>
    split at stepped
    next fits =>
      cases stepped
      exact .copy inside fits.2
    · cases stepped
  next data copied written rolledBack inside =>
    cases stepped
    exact .abort rolledBack inside
  next data copied inside =>
    split at stepped
    next whole =>
      cases stepped
      subst whole
      exact .appended inside
    · cases stepped
  next ok inside =>
    cases stepped
    exact .save ok inside
  next inside =>
    split at stepped
    · cases stepped
      exact .proceed (by rw [inside]; rfl) ⟨rfl, rfl, rfl⟩ (.inl rfl)
    next open_ =>
      split at stepped
      next room =>
        cases stepped
        exact .release inside (by simpa using open_) room
      · cases stepped
  next saved inside =>
    cases stepped
    exact .join saved inside
  next ok inside =>
    cases stepped
    split
    · exact .publish inside
    · exact .proceed (by rw [inside]; rfl) ⟨rfl, rfl, rfl⟩ (.inl rfl)
  · cases stepped

theorem moved_of_step {event : Event}
    (stepped : s.step call event = some next) : Moved call s next := by
  unfold step at stepped
  split at stepped
  next position event =>
    obtain ⟨point, here, moved⟩ := Option.bind_eq_some_iff.mp stepped
    exact moved_of_stepWorker here moved
  · exact moved_of_stepMain stepped

end LosslessMusic.Transfer.Pool
