import LosslessMusic.Transfer.Assembly

/-!
# Progress of the segment pool

The calling thread has a bounded amount of work between two receives, and no
worker adds to it, so a worker that waits for room on the result channel is let
through. Once all workers have ended, the messages left bound the whole call.
-/

namespace LosslessMusic.Transfer.Pool

/-- The steps a received message may cause. -/
def Message.work : Message → Nat
  | .completed _ data => data.length + 12
  | .failed _ => 12

/-- The steps the calling thread takes from a point before it receives again or
returns, the waiting segments apart. -/
def MainPoint.work : MainPoint → Nat
  | .spawning left => left + 5
  | .checking => 4
  | .receiving => 3
  | .assembling => 5
  | .appending data copied => data.length - copied + 8
  | .saving => 7
  | .releasing => 6
  | .joining => 2
  | .publishing => 1
  | .returned _ => 0

/-- The work of the segments that wait to be appended. -/
def pendingWork (pending : List (Nat × Bytes)) : Nat :=
  (pending.map fun ready => ready.2.length + 5).sum

/-- The work of the calling thread before it receives again. -/
def mainWork (s : Pool) : Nat :=
  s.main.work + pendingWork s.pending

/-- The work of the calling thread if no further message is sent. -/
def totalWork (s : Pool) : Nat :=
  s.mainWork + (s.results.map Message.work).sum

/-- The event is one of the calling thread. -/
def Event.isMain : Event → Bool
  | .worker _ _ => false
  | _ => true

theorem pendingWork_cons (ready : Nat × Bytes) (pending : List (Nat × Bytes)) :
    pendingWork (ready :: pending) = ready.2.length + 5 + pendingWork pending := by
  simp [pendingWork]

theorem pendingWork_filter_le (pending : List (Nat × Bytes)) (kept : Nat × Bytes → Bool) :
    pendingWork (pending.filter kept) ≤ pendingWork pending := by
  induction pending with
  | nil => exact Nat.le_refl _
  | cons ready rest ih =>
    rw [List.filter_cons, pendingWork_cons]
    split
    · rw [pendingWork_cons]
      omega
    · omega

theorem pendingWork_filter_key {pending : List (Nat × Bytes)} {index : Nat} {data : Bytes}
    (member : (index, data) ∈ pending) :
    pendingWork (pending.filter (·.1 ≠ index)) + (data.length + 5) ≤
      pendingWork pending := by
  induction pending with
  | nil => cases member
  | cons ready rest ih =>
    rw [List.filter_cons, pendingWork_cons]
    rcases List.mem_cons.mp member with rfl | later
    · have fewer := pendingWork_filter_le rest (fun entry => decide (entry.1 ≠ index))
      simp only [ne_eq, not_true_eq_false, decide_false, Bool.false_eq_true, if_false]
      simp only [ne_eq] at fewer
      omega
    · have tail := ih later
      split
      · rw [pendingWork_cons]
        omega
      · omega

variable {call : Call} {s next : Pool}

variable (call) in

/-- What a worker leaves alone: the calling thread and the messages that are there. -/
structure Aside (s next : Pool) : Prop where
  main : next.main = s.main
  pending : next.pending = s.pending
  results : ∃ sent, next.results = s.results ++ sent
  room : next.results = s.results ∨ next.results.length ≤ call.workerCount
  workers : next.workers.length = s.workers.length

theorem Aside.setWorker (position : Nat) (point : WorkerPoint) :
    Aside call s (s.setWorker position point) :=
  ⟨rfl, rfl, ⟨[], (List.append_nil _).symm⟩, .inl rfl, List.length_set⟩

variable {position : Nat}

theorem Aside.of_send {message : Message} {after closed : WorkerPoint}
    (sent : s.send call position message after closed = some next) : Aside call s next := by
  unfold send at sent
  split at sent
  · cases sent
    exact .setWorker position closed
  · split at sent
    next room =>
      cases sent
      refine ⟨rfl, rfl, ⟨[message], rfl⟩, .inr ?_, List.length_set⟩
      simp only [Pool.setWorker, List.length_append, List.length_singleton]
      omega
    · cases sent

theorem Aside.of_attemptFailed (position index attempt : Nat) (failure : AttemptFailure) :
    Aside call s (s.onAttemptFailed call position index attempt failure) := by
  unfold onAttemptFailed
  split
  · exact .setWorker _ _
  · exact .setWorker _ _

variable {event : WorkerEvent}

theorem aside_of_stepWorker {point : WorkerPoint}
    (stepped : s.stepWorker call position point event = some next) : Aside call s next := by
  unfold stepWorker at stepped
  split at stepped
  · cases stepped
    exact .setWorker _ _
  · split at stepped
    · cases stepped
      exact ⟨rfl, rfl, ⟨[], (List.append_nil _).symm⟩, .inl rfl, List.length_set⟩
    · split at stepped
      · cases stepped
      · cases stepped
        exact .setWorker _ _
  · split at stepped
    · cases stepped
    · cases stepped
      exact .setWorker _ _
  · cases stepped
    exact .of_attemptFailed _ _ _ _
  · split at stepped
    · cases stepped
      exact .of_attemptFailed _ _ _ _
    · cases stepped
      exact ⟨rfl, rfl, ⟨[], (List.append_nil _).symm⟩, .inl rfl, List.length_set⟩
  · exact .of_send stepped
  · exact .of_send stepped
  · cases stepped
    exact .setWorker _ _
  · cases stepped
    exact .setWorker _ _
  · cases stepped
    exact .setWorker _ _
  · cases stepped

/-- What a step of the calling thread does besides receiving: it has less to do. -/
structure Works (s next : Pool) : Prop where
  work : next.mainWork < s.mainWork
  results : next.results = s.results

variable {main : MainPoint}

theorem Works.of_main {flagged : Pool}
    (flagging : flagged = s ∨ ∃ errorType, flagged = s.fail errorType)
    (less : main.work < s.main.work) : Works s { flagged with main } := by
  rcases flagging with rfl | ⟨errorType, rfl⟩
  · exact ⟨Nat.add_lt_add_right less _, rfl⟩
  · exact ⟨Nat.add_lt_add_right less _, rfl⟩

theorem Works.of_checkpoint (ok : Bool)
    (less : main.work < s.main.work) : Works s { s.checkpoint call ok with main } := by
  unfold checkpoint
  split
  · exact ⟨Nat.add_lt_add_right less _, rfl⟩
  · exact ⟨Nat.add_lt_add_right less _, rfl⟩

/-- The calling thread receives, waits in vain, or has less to do. -/
theorem works_of_stepMain {event : Event} (stepped : s.stepMain call event = some next) :
    event = .received ∨ (event = .timedOut ∧ s.results = [] ∧ s.allEnded = false) ∨
      Works s next := by
  unfold stepMain at stepped
  split at stepped
  next left ok inside =>
    right; right
    split at stepped
    · cases stepped
      refine ⟨?_, rfl⟩
      simp only [mainWork, inside]
      apply Nat.add_lt_add_right
      split
      · simp only [MainPoint.work]
        omega
      · simp only [MainPoint.work]
        omega
    · cases stepped
      refine .of_main (.inr ⟨_, rfl⟩) ?_
      rw [inside]
      simp only [MainPoint.work]
      omega
  next ok inside =>
    right; right
    cases stepped
    refine .of_main ?_ (by rw [inside]; decide)
    cases ok with
    | true => exact .inl rfl
    | false => exact .inr ⟨_, rfl⟩
  · exact .inl rfl
  next inside =>
    right; left
    split at stepped
    next waiting => exact ⟨rfl, waiting⟩
    · cases stepped
  next inside =>
    right; right
    split at stepped
    · cases stepped
      exact .of_main (.inl rfl) (by rw [inside]; decide)
    · cases stepped
  next inside =>
    right; right
    split at stepped
    next ready found =>
      cases stepped
      have key : ready.1 = s.nextIndex := by simpa using List.find?_some found
      have member := List.mem_of_find?_eq_some found
      rw [← Prod.eta ready, key] at member
      have fewer := pendingWork_filter_key member
      refine ⟨?_, rfl⟩
      simp only [mainWork, inside, MainPoint.work, Nat.sub_zero]
      omega
    · cases stepped
      exact .of_main (.inl rfl) (by rw [inside]; decide)
  next data copied count inside =>
    right; right
    split at stepped
    next fits =>
      cases stepped
      refine ⟨?_, rfl⟩
      simp only [mainWork, inside, MainPoint.work]
      omega
    · cases stepped
  next data copied written rolledBack inside =>
    right; right
    cases stepped
    refine ⟨?_, rfl⟩
    simp only [mainWork, fail, inside, MainPoint.work]
    omega
  next data copied inside =>
    right; right
    split at stepped
    next whole =>
      cases stepped
      refine ⟨?_, rfl⟩
      simp only [mainWork, inside, MainPoint.work]
      omega
    · cases stepped
  next ok inside =>
    right; right
    cases stepped
    exact .of_checkpoint ok (by rw [inside]; decide)
  next inside =>
    right; right
    split at stepped
    · cases stepped
      exact .of_main (.inl rfl) (by rw [inside]; decide)
    · split at stepped
      · cases stepped
        refine ⟨?_, rfl⟩
        simp only [mainWork, inside, MainPoint.work]
        omega
      · cases stepped
  next saved inside =>
    right; right
    cases stepped
    unfold onJoined
    split
    · exact .of_main (.inl rfl) (by rw [inside]; decide)
    split
    · exact .of_checkpoint saved (by rw [inside]; exact Nat.zero_lt_succ _)
    split
    · exact .of_main (.inl rfl) (by rw [inside]; decide)
    · exact .of_main (.inl rfl) (by rw [inside]; decide)
  next ok inside =>
    right; right
    cases stepped
    split
    · refine ⟨?_, rfl⟩
      simp only [mainWork, inside, MainPoint.work]
      omega
    · exact .of_main (.inl rfl) (by rw [inside]; decide)
  · cases stepped

theorem totalWork_received (stepped : s.stepMain call .received = some next) :
    next.totalWork < s.totalWork := by
  unfold stepMain at stepped
  split at stepped
  all_goals first | contradiction | skip
  next inside _ =>
    split at stepped
    · cases stepped
    next message rest results =>
      cases stepped
      cases message with
      | completed index data =>
        have fewer := pendingWork_filter_le s.pending fun entry => decide (entry.1 ≠ index)
        simp only [totalWork, mainWork, onReceived, pendingWork_cons, results, inside,
          List.map_cons, List.sum_cons, MainPoint.work, Message.work]
        omega
      | failed errorType =>
        simp only [totalWork, mainWork, onReceived, fail, results, inside,
          List.map_cons, List.sum_cons, MainPoint.work, Message.work]
        omega

/-- The call has returned. -/
def hasReturned (s : Pool) : Bool :=
  match s.main with
  | .returned _ => true
  | _ => false

/-- Unless it waits for a message that a worker can still send, the calling thread
goes on. -/
theorem main_goes_on (sound : Sound call s) (running : s.hasReturned = false)
    (served : s.results ≠ [] ∨ s.allEnded = true) :
    ∃ event : Event, event.isMain = true ∧ (s.step call event).isSome = true := by
  cases inside : s.main with
  | spawning left => exact ⟨.spawned true, rfl, by simp [step, stepMain, inside]⟩
  | checking => exact ⟨.checked true, rfl, by simp [step, stepMain, inside]⟩
  | receiving =>
    cases results : s.results with
    | cons message rest =>
      exact ⟨.received, rfl, by simp [step, stepMain, inside, results]⟩
    | nil =>
      have ended : s.allEnded = true := by
        rcases served with some_ | ended
        · exact absurd results some_
        · exact ended
      exact ⟨.disconnected, rfl, by simp [step, stepMain, inside, results, ended]⟩
  | assembling =>
    refine ⟨.assembled, rfl, ?_⟩
    simp only [step, stepMain, inside]
    split <;> rfl
  | appending data copied =>
    have within := (sound.content.inside data copied inside).1
    by_cases whole : copied = data.length
    · exact ⟨.copyEnded, rfl, by simp [step, stepMain, inside, whole]⟩
    · have fits : 0 < 1 ∧ copied + 1 ≤ data.length := by omega
      exact ⟨.copied 1, rfl, by simp only [step, stepMain, inside, if_pos fits]; rfl⟩
  | saving => exact ⟨.checkpointed true, rfl, by simp [step, stepMain, inside]⟩
  | releasing =>
    refine ⟨.released, rfl, ?_⟩
    have room : s.queue.length < call.workerCount := by
      have within := sound.slots.within
      have bounded := sound.slots.bounded
      unfold busy at within
      simp only [inside, MainPoint.owesSlot, Bool.toNat_true] at within bounded
      omega
    simp only [step, stepMain, inside, if_pos room]
    split <;> rfl
  | joining => exact ⟨.joined true, rfl, by simp [step, stepMain, inside]⟩
  | publishing => exact ⟨.published true, rfl, by simp [step, stepMain, inside]⟩
  | returned outcome =>
    unfold hasReturned at running
    rw [inside] at running
    cases running

theorem stepWorker_ended {panicked : Bool} :
    s.stepWorker call position (.ended panicked) event = none := by
  unfold stepWorker
  split <;> first | rfl | contradiction

theorem main_of_allEnded {event : Event} (ended : s.allEnded = true)
    (stepped : s.step call event = some next) :
    event.isMain = true ∧ s.stepMain call event = some next := by
  unfold step at stepped
  split at stepped
  next position event =>
    obtain ⟨point, here, moved⟩ := Option.bind_eq_some_iff.mp stepped
    have past := List.all_eq_true.mp ended point (List.mem_of_getElem? here)
    split at past
    · rw [stepWorker_ended] at moved
      cases moved
    · cases past
  next other =>
    refine ⟨?_, stepped⟩
    cases event with
    | worker position event => exact absurd rfl (other position event)
    | _ => rfl

end LosslessMusic.Transfer.Pool
