import LosslessMusic.Transfer.PoolProgress

/-!
# Runs of the segment pool

What holds in every state a call can reach, under every schedule and every failure:
the assembled file, the slots, the sends that end, and what a return leaves behind.
-/

namespace LosslessMusic.Transfer.Pool

variable {call : Call} {s next : Pool}

/-! ## The end of a call -/

variable (call) in

/-- A call that publishes has appended every segment without a failure. -/
structure Complete (s : Pool) : Prop where
  whole : s.main.completes = true → s.nextIndex = call.segments ∧ s.firstFailure = none
  published : ∀ bytes, s.main = .returned (.success bytes) → bytes = s.file

theorem Complete.of_unfinished (unfinished : s.main.completes = false) : Complete call s := by
  constructor
  · intro completes
    rw [unfinished] at completes
    cases completes
  · intro bytes returned
    rw [returned] at unfinished
    cases unfinished

theorem Complete.of_same (complete : Complete call s) (main : next.main = s.main)
    (nextIndex : next.nextIndex = s.nextIndex)
    (firstFailure : next.firstFailure = s.firstFailure) (file : next.file = s.file) :
    Complete call next := by
  constructor
  · rw [main, nextIndex, firstFailure]
    exact complete.whole
  · rw [main, file]
    exact complete.published

theorem complete_start : Complete call (start call) := by
  by_cases restored : call.first = call.segments
  · constructor
    · intro _
      exact ⟨restored, rfl⟩
    · intro bytes returned
      unfold start at returned
      simp only [restored, if_true] at returned
      cases returned
  · apply Complete.of_unfinished
    unfold start
    simp only [restored, if_false]
    rfl

theorem Complete.of_joined (saved : Bool) : Complete call (s.onJoined call saved) := by
  unfold onJoined
  split
  · exact .of_unfinished rfl
  split
  · exact .of_unfinished rfl
  next clean =>
    split
    · exact .of_unfinished rfl
    next assembled =>
      have position : s.nextIndex = call.segments := by
        by_contra missing
        simp [missing] at assembled
      refine ⟨fun _ => ⟨position, clean⟩, ?_⟩
      intro bytes returned
      cases returned

theorem Complete.step (complete : Complete call s) (moved : Moved call s next) :
    Complete call next := by
  cases moved with
  | shift | take | complete | deliver | report =>
    exact complete.of_same rfl rfl rfl rfl
  | spawn outside resting => exact .of_unfinished resting.unfinished
  | proceed outside resting flagging => exact .of_unfinished resting.unfinished
  | join saved inside => exact .of_joined saved
  | publish inside =>
    have whole := complete.whole (by rw [inside]; rfl)
    refine ⟨fun _ => whole, ?_⟩
    intro bytes returned
    cases returned
    rfl
  | receive | receiveFailure | append | copy | abort | appended | save | release =>
    exact .of_unfinished rfl

variable {guard : Pool → Event → Prop}

theorem complete_of_reachable (reachable : (machine call).Reachable guard s) : Complete call s:= by
  apply reachable.invariant (motive := Complete call)
  · rintro state rfl
    exact complete_start
  · intro state event next _ complete _ stepped
    exact complete.step (moved_of_step stepped)

/-! ## The messages of a call -/

/-- The messages a worker may still send. -/
def WorkerPoint.unsent : WorkerPoint → Nat
  | .ended _ => 0
  | .sending (.completed _ _) => 2
  | _ => 1

/-- The workers that may still be started. -/
def MainPoint.unspawned : MainPoint → Nat
  | .spawning left => max left 1
  | _ => 0

variable (call) in

/-- The messages that may still be sent: a segment for each fetch to come, and a
failure of each worker. -/
def unsent (s : Pool) : Nat :=
  (call.segments - s.fetched.length) + (s.workers.map WorkerPoint.unsent).sum + s.main.unspawned

/-- The event is the send of a worker. -/
def Event.isSend : Event → Bool
  | .worker _ .sent => true
  | _ => false

theorem Sound.fetched_le (sound : Sound call s) : s.fetched.length ≤ call.segments := by
  have counted : ∀ index, (s.fetched.map Prod.fst).count index = s.fetchCount index := by
    intro index
    rw [List.count_eq_countP, List.countP_map]
    apply List.countP_congr
    simp
  have distinct : (s.fetched.map Prod.fst).Nodup := by
    rw [List.nodup_iff_count_le_one]
    intro index
    have single := sound.once.placed index
    rw [counted]
    unfold placed at single
    omega
  have inside : s.fetched.map Prod.fst ⊆ List.range call.segments := by
    intro index member
    have positive := List.count_pos_iff.mpr member
    rw [counted] at positive
    have issued := sound.once.issued index (by unfold placed; omega)
    have jobs := sound.slots.jobs
    rw [List.mem_range]
    omega
  have fewer := (List.subperm_of_subset distinct inside).length_le
  rwa [List.length_map, List.length_range] at fewer

variable (call) in

theorem unsent_setWorker {position : Nat} {point : WorkerPoint} (after : WorkerPoint)
    (here : s.workers[position]? = some point) :
    (s.setWorker position after).unsent call + point.unsent = s.unsent call + after.unsent := by
  have changed := Transition.sum_map_set_add WorkerPoint.unsent after here
  simp only [unsent, setWorker]
  omega

theorem unsent_setWorker_le {position : Nat} {point after : WorkerPoint}
    (here : s.workers[position]? = some point) (fewer : after.unsent ≤ point.unsent) :
    (s.setWorker position after).unsent call ≤ s.unsent call := by
  have changed := unsent_setWorker call after here
  omega

theorem unsent_of_send {position : Nat} {point after closed : WorkerPoint}
    {message : Message} (here : s.workers[position]? = some point)
    (fewer : after.unsent + 1 ≤ point.unsent) (less : closed.unsent + 1 ≤ point.unsent)
    (sent : s.send call position message after closed = some next) :
    next.unsent call + 1 ≤ s.unsent call := by
  unfold send at sent
  split at sent
  · cases sent
    have changed := unsent_setWorker call closed here
    omega
  · split at sent
    · cases sent
      have changed := unsent_setWorker call after here
      have same : ({ s with results := s.results ++ [message] }.setWorker position
          after).unsent call = (s.setWorker position after).unsent call := rfl
      omega
    · cases sent

/-- An attempt of a fetch leaves its worker with one message to send. -/
theorem unsent_of_attemptFailed {position index attempt : Nat} {received : Bytes}
    (here : s.workers[position]? = some (.fetching index attempt received))
    (failure : AttemptFailure) :
    (s.onAttemptFailed call position index attempt failure).unsent call ≤ s.unsent call := by
  unfold onAttemptFailed
  split
  · exact unsent_setWorker_le here (Nat.le_refl _)
  · exact unsent_setWorker_le here (Nat.le_refl _)

theorem unsent_stepWorker {position : Nat} {point : WorkerPoint} {event : WorkerEvent}
    (fetches : next.fetched.length ≤ call.segments) (here : s.workers[position]? = some point)
    (stepped : s.stepWorker call position point event = some next) :
    next.unsent call + (Event.worker position event).isSend.toNat ≤ s.unsent call := by
  unfold stepWorker at stepped
  split at stepped
  · cases stepped
    refine unsent_setWorker_le here ?_
    split <;> decide
  · split at stepped
    next index rest queued =>
      cases stepped
      exact unsent_setWorker_le (s := { s with queue := rest }) here (Nat.le_refl _)
    · split at stepped
      · cases stepped
      · cases stepped
        exact unsent_setWorker_le here (Nat.zero_le _)
  · split at stepped
    · cases stepped
    · cases stepped
      exact unsent_setWorker_le here (Nat.le_refl _)
  next index attempt received failure =>
    cases stepped
    exact unsent_of_attemptFailed here failure
  next index attempt received contentLength =>
    split at stepped
    · cases stepped
      exact unsent_of_attemptFailed here .network
    · cases stepped
      have changed := Transition.sum_map_set_add WorkerPoint.unsent
        (.sending (.completed index received)) here
      simp only [setWorker, List.length_cons] at fetches
      simp only [unsent, setWorker, List.length_cons, Event.isSend, Bool.toNat_false,
        WorkerPoint.unsent] at changed ⊢
      omega
  next message =>
    refine unsent_of_send here ?_ ?_ stepped
    · cases message <;> exact Nat.le_refl _
    · cases message <;> exact Nat.le_add_left _ _
  · exact unsent_of_send here (Nat.le_refl _) (Nat.le_refl _) stepped
  · cases stepped
    exact unsent_setWorker_le here (Nat.le_refl _)
  · cases stepped
    exact unsent_setWorker_le here (Nat.le_refl _)
  · cases stepped
    exact unsent_setWorker_le here (Nat.le_refl _)
  · cases stepped

/-- What the calling thread leaves alone when it starts no worker. -/
structure Manages (s next : Pool) : Prop where
  workers : next.workers = s.workers
  fetched : next.fetched = s.fetched
  idle : next.main.unspawned = 0

variable {event : Event}

/-- The calling thread starts a worker or leaves the workers alone. -/
theorem manages_of_stepMain (stepped : s.stepMain call event = some next) :
    (∃ left, s.main = .spawning left ∧ next =
      { s with
        workers := s.workers ++ [.checking]
        main := if left ≤ 1 then .checking else .spawning (left - 1) }) ∨
      Manages s next := by
  unfold stepMain at stepped
  split at stepped
  next left ok inside =>
    split at stepped
    · cases stepped
      exact .inl ⟨left, inside, rfl⟩
    · cases stepped
      exact .inr ⟨rfl, rfl, rfl⟩
  next ok inside =>
    cases stepped
    cases ok with
    | true => exact .inr ⟨rfl, rfl, rfl⟩
    | false => exact .inr ⟨rfl, rfl, rfl⟩
  · split at stepped
    · cases stepped
    next message rest results =>
      cases stepped
      cases message with
      | completed index data => exact .inr ⟨rfl, rfl, rfl⟩
      | failed errorType => exact .inr ⟨rfl, rfl, rfl⟩
  · split at stepped
    · cases stepped
      exact .inr ⟨rfl, rfl, rfl⟩
    · cases stepped
  · split at stepped
    · cases stepped
      exact .inr ⟨rfl, rfl, rfl⟩
    · cases stepped
  · split at stepped
    · cases stepped
      exact .inr ⟨rfl, rfl, rfl⟩
    · cases stepped
      exact .inr ⟨rfl, rfl, rfl⟩
  · split at stepped
    · cases stepped
      exact .inr ⟨rfl, rfl, rfl⟩
    · cases stepped
  · cases stepped
    exact .inr ⟨rfl, rfl, rfl⟩
  · split at stepped
    · cases stepped
      exact .inr ⟨rfl, rfl, rfl⟩
    · cases stepped
  next ok inside =>
    cases stepped
    unfold checkpoint
    split
    · exact .inr ⟨rfl, rfl, rfl⟩
    · exact .inr ⟨rfl, rfl, rfl⟩
  · split at stepped
    · cases stepped
      exact .inr ⟨rfl, rfl, rfl⟩
    · split at stepped
      · cases stepped
        exact .inr ⟨rfl, rfl, rfl⟩
      · cases stepped
  next saved inside =>
    cases stepped
    unfold onJoined checkpoint
    split
    · exact .inr ⟨rfl, rfl, rfl⟩
    split
    · split
      · exact .inr ⟨rfl, rfl, rfl⟩
      · exact .inr ⟨rfl, rfl, rfl⟩
    split
    · exact .inr ⟨rfl, rfl, rfl⟩
    · exact .inr ⟨rfl, rfl, rfl⟩
  next ok inside =>
    cases stepped
    split
    · exact .inr ⟨rfl, rfl, rfl⟩
    · exact .inr ⟨rfl, rfl, rfl⟩
  · cases stepped

theorem unsent_stepMain (stepped : s.stepMain call event = some next) :
    next.unsent call ≤ s.unsent call := by
  rcases manages_of_stepMain stepped with ⟨left, inside, rfl⟩ | manages
  · have spawned : (if left ≤ 1 then MainPoint.checking else
        .spawning (left - 1)).unspawned + 1 ≤ s.main.unspawned := by
      rw [inside]
      split <;> simp only [MainPoint.unspawned] <;> omega
    simp only [unsent, List.map_append, List.sum_append, List.map_cons, List.map_nil,
      List.sum_cons, List.sum_nil, WorkerPoint.unsent]
    omega
  · unfold unsent
    rw [manages.workers, manages.fetched, manages.idle]
    omega

theorem unsent_step (sound : Sound call next) (stepped : s.step call event = some next) :
    next.unsent call + event.isSend.toNat ≤ s.unsent call := by
  unfold step at stepped
  split at stepped
  next position event =>
    obtain ⟨point, here, moved⟩ := Option.bind_eq_some_iff.mp stepped
    exact unsent_stepWorker sound.fetched_le here moved
  next other =>
    have silent : event.isSend = false := by
      cases event with
      | worker position event => exact absurd rfl (other position event)
      | _ => rfl
    rw [silent]
    exact unsent_stepMain stepped

theorem sends_of_run {final : Pool} {events : List Event} (sound : Sound call s)
    (ran : (machine call).run s events = some final) :
    events.countP Event.isSend ≤ s.unsent call := by
  have bounded := (machine call).countP_add_variant_le (Sound call) (fun _ => true)
    Event.isSend (unsent call)
    (fun state event next sound _ stepped => sound.step (moved_of_step stepped))
    (fun state event next sound _ stepped =>
      unsent_step (sound.step (moved_of_step stepped)) stepped)
    sound (fun _ _ => rfl) ran
  have sends := bounded.2
  omega

/-! ## Waiting for the calling thread -/

variable (call) in

/-- However the call runs on, the calling thread takes at most so many steps before it
receives, and it is never stuck on the way. -/
def ReceivesWithin (bound : Nat) (s : Pool) : Prop :=
  ∀ events final, (machine call).run s events = some final → Event.received ∉ events →
    events.countP Event.isMain ≤ bound ∧
      ∃ event : Event, event.isMain = true ∧ (final.step call event).isSome = true

variable (call) in

/-- However the call runs on, it takes at most so many steps, and it is never stuck
before it returns. -/
def ReturnsWithin (bound : Nat) (s : Pool) : Prop :=
  ∀ events final, (machine call).run s events = some final → events.length ≤ bound ∧
      (final.hasReturned = false → ∃ event, (final.step call event).isSome = true)

theorem receiverOpen_of_stepMain (waiting : s.results ≠ [])
    (receiver : s.receiverOpen = true) (stepped : s.stepMain call event = some next) :
    next.receiverOpen = true := by
  unfold stepMain at stepped
  split at stepped
  next left ok inside =>
    split at stepped
    · cases stepped
      by_cases last : left ≤ 1
      · simp [receiverOpen, last]
      · simp [receiverOpen, last]
    · cases stepped
      rfl
  · cases stepped
    rfl
  · split at stepped
    · cases stepped
    · cases stepped
      rfl
  · split at stepped
    · cases stepped
      rfl
    · cases stepped
  · split at stepped
    next past => exact absurd past.1 waiting
    · cases stepped
  · split at stepped
    · cases stepped
      rfl
    · cases stepped
      rfl
  · split at stepped
    · cases stepped
      rfl
    · cases stepped
  · cases stepped
    rfl
  · split at stepped
    · cases stepped
      rfl
    · cases stepped
  · cases stepped
    rfl
  · split at stepped
    · cases stepped
      rfl
    · split at stepped
      · cases stepped
        rfl
      · cases stepped
  next inside =>
    unfold receiverOpen at receiver
    rw [inside] at receiver
    cases receiver
  next inside =>
    unfold receiverOpen at receiver
    rw [inside] at receiver
    cases receiver
  · cases stepped

/-- A message waits in the channel of a running loop. -/
structure Waits (call : Call) (s : Pool) : Prop where
  sound : Sound call s
  results : s.results ≠ []
  receiver : s.receiverOpen = true

theorem Waits.running (waits : Waits call s) : s.hasReturned = false := by
  have receiver := waits.receiver
  unfold receiverOpen at receiver
  unfold hasReturned
  split
  next outcome returned =>
    rw [returned] at receiver
    cases receiver
  · rfl

theorem step_cases (stepped : s.step call event = some next) :
    (event.isMain = false ∧ Aside call s next) ∨
      (event.isMain = true ∧ s.stepMain call event = some next) := by
  unfold step at stepped
  split at stepped
  next position event =>
    obtain ⟨point, here, moved⟩ := Option.bind_eq_some_iff.mp stepped
    exact .inl ⟨rfl, aside_of_stepWorker moved⟩
  next other =>
    refine .inr ⟨?_, stepped⟩
    cases event with
    | worker position event => exact absurd rfl (other position event)
    | _ => rfl

theorem Aside.mainWork (aside : Aside call s next) : next.mainWork = s.mainWork := by
  unfold Pool.mainWork
  rw [aside.main, aside.pending]

/-- Without a receipt the message keeps waiting, and the calling thread works on. -/
theorem Waits.step (waits : Waits call s) (other : event ≠ .received)
    (stepped : s.step call event = some next) :
    Waits call next ∧ next.mainWork + event.isMain.toNat ≤ s.mainWork := by
  have sound := waits.sound.step (moved_of_step stepped)
  rcases step_cases stepped with ⟨worker, aside⟩ | ⟨main, moved⟩
  · obtain ⟨sent, results⟩ := aside.results
    refine ⟨⟨sound, ?_, ?_⟩, ?_⟩
    · rw [results]
      exact List.append_ne_nil_of_left_ne_nil waits.results sent
    · unfold receiverOpen
      rw [aside.main]
      exact waits.receiver
    · rw [worker, aside.mainWork]
      exact Nat.le_refl _
  · have receiver := receiverOpen_of_stepMain waits.results waits.receiver moved
    rcases works_of_stepMain moved with received | ⟨_, nothing, _⟩ | works
    · exact absurd received other
    · exact absurd nothing waits.results
    · refine ⟨⟨sound, ?_, receiver⟩, ?_⟩
      · rw [works.results]
        exact waits.results
      · rw [main]
        exact works.work

theorem Waits.receivesWithin (waits : Waits call s) : ReceivesWithin call s.mainWork s := by
  intro events final ran silent
  have bounded := (machine call).countP_add_variant_le (Waits call)
    (fun event => event != .received) Event.isMain Pool.mainWork
    (fun state event next waits allowed stepped =>
      (waits.step (by simpa using allowed) stepped).1)
    (fun state event next waits allowed stepped =>
      (waits.step (by simpa using allowed) stepped).2)
    waits
    (by
      intro event member
      have other : event ≠ .received := by
        rintro rfl
        exact silent member
      simpa using other)
    ran
  constructor
  · have steps := bounded.2
    omega
  · exact main_goes_on bounded.1.sound bounded.1.running (.inl bounded.1.results)

/-- Every worker has ended, and no other is started. -/
structure Over (call : Call) (s : Pool) : Prop where
  sound : Sound call s
  ended : s.allEnded = true
  started : s.main.unspawned = 0

/-- Once the workers have ended, every step brings the return nearer. -/
theorem Over.step (past : Over call s) (stepped : s.step call event = some next) :
    Over call next ∧ next.totalWork < s.totalWork := by
  have sound := past.sound.step (moved_of_step stepped)
  obtain ⟨_, moved⟩ := main_of_allEnded past.ended stepped
  constructor
  · rcases manages_of_stepMain moved with ⟨left, inside, _⟩ | manages
    · have started := past.started
      rw [inside] at started
      simp only [MainPoint.unspawned] at started
      omega
    · refine ⟨sound, ?_, manages.idle⟩
      unfold allEnded
      rw [manages.workers]
      exact past.ended
  · rcases works_of_stepMain moved with rfl | ⟨_, _, alive⟩ | works
    · exact totalWork_received moved
    · rw [past.ended] at alive
      cases alive
    · unfold totalWork
      rw [works.results]
      exact Nat.add_lt_add_right works.work _

theorem Over.returnsWithin (past : Over call s) : ReturnsWithin call s.totalWork s := by
  intro events final ran
  have bounded := (machine call).countP_add_variant_le (Over call) (fun _ => true)
    (fun _ => true) totalWork
    (fun state event next past _ stepped => (past.step stepped).1)
    (fun state event next past _ stepped => (past.step stepped).2)
    past (fun _ _ => rfl) ran
  constructor
  · have steps := bounded.2
    rw [List.countP_true] at steps
    omega
  · intro running
    obtain ⟨event, _, possible⟩ := main_goes_on bounded.1.sound running (.inr bounded.1.ended)
    exact ⟨event, possible⟩

theorem results_le_of_reachable (reachable : (machine call).Reachable guard s) :
    s.results.length ≤ call.workerCount := by
  apply reachable.invariant (motive := fun s => s.results.length ≤ call.workerCount)
  · rintro state rfl
    exact Nat.zero_le _
  · intro state event next _ within _ stepped
    rcases step_cases stepped with ⟨_, aside⟩ | ⟨_, moved⟩
    · rcases aside.room with same | room
      · rw [same]
        exact within
      · exact room
    · rcases works_of_stepMain moved with rfl | ⟨rfl, nothing, alive⟩ | works
      · unfold stepMain at moved
        split at moved
        all_goals first | contradiction | skip
        split at moved
        · cases moved
        next message rest results =>
          cases moved
          rw [results, List.length_cons] at within
          cases message with
          | completed index data => exact Nat.le_of_succ_le within
          | failed errorType => exact Nat.le_of_succ_le within
      · unfold stepMain at moved
        split at moved
        all_goals first | contradiction | skip
        rw [if_pos ⟨nothing, alive⟩] at moved
        cases moved
        exact within
      · rw [works.results]
        exact within

theorem workers_le_of_reachable (reachable : (machine call).Reachable guard s) :
    s.workers.length + s.main.unspawned ≤ call.workerCount := by
  apply reachable.invariant
    (motive := fun s => s.workers.length + s.main.unspawned ≤ call.workerCount)
  · rintro state rfl
    unfold start
    by_cases restored : call.first = call.segments
    · simp [restored, MainPoint.unspawned]
    · have within := call.within
      have parallel := call.some_worker
      have available : 0 < call.workerCount := by
        unfold Call.workerCount
        omega
      simp only [restored, if_false, MainPoint.unspawned, List.length_nil]
      omega
  · intro state event next _ within _ stepped
    rcases step_cases stepped with ⟨_, aside⟩ | ⟨_, moved⟩
    · rw [aside.workers, aside.main]
      exact within
    · rcases manages_of_stepMain moved with ⟨left, inside, rfl⟩ | manages
      · rw [inside] at within
        simp only [MainPoint.unspawned] at within
        simp only [List.length_append, List.length_singleton]
        split
        · simp only [MainPoint.unspawned]
          omega
        · simp only [MainPoint.unspawned]
          omega
      · rw [manages.workers, manages.idle]
        omega

/-! ## What holds in every state -/

/-- The worker is in a `send` on the result channel. -/
def WorkerPoint.isSending : WorkerPoint → Bool
  | .sending _ | .reporting => true
  | _ => false

variable (call) in

/-- What a call guarantees in each of its states. -/
structure Assembles (s : Pool) : Prop where
  /-- Segments are appended in order, from the first one that was not restored. -/
  position : s.nextIndex = call.first + s.appended.length
  /-- What was appended for a segment is what was fetched for it. -/
  appended : ∀ count data, s.appended[count]? = some data → (call.first + count, data) ∈ s.fetched
  /-- No segment is fetched twice. -/
  fetched : ∀ index, s.fetchCount index ≤ 1
  /-- The counted bytes of the file are the segments before the next one. -/
  file : s.file.take s.bytes = s.assembled call ∧ s.bytes = (s.assembled call).length
  /-- Outside an append, and without a failure, there is nothing else in the file. -/
  settled : s.main.isAppending = false → s.firstFailure = none → s.file = s.assembled call
  /-- The segments on their way never outnumber the workers. -/
  slots : s.busy ≤ call.workerCount
  /-- A job that is sent finds room. -/
  jobSent : s.main = .releasing → s.senderOpen = true → s.queue.length < call.workerCount
  /-- A result that is sent finds room, or no receiver, or one that makes room. -/
  resultSent : ∀ position point, s.workers[position]? = some point →
    point.isSending = true → s.step call (.worker position .sent) = none →
    ReceivesWithin call s.mainWork s
  /-- Room that is made is not taken by others for ever. -/
  sends : ∀ events final, (machine call).run s events = some final →
    events.countP Event.isSend ≤ s.unsent call
  room : s.results.length ≤ call.workerCount
  /-- The call returns once its workers have ended. -/
  returns : s.main.unspawned = 0 → s.allEnded = true → ReturnsWithin call s.totalWork s
  /-- Success means that every segment was appended, and that this was published. -/
  success : ∀ published, s.main = .returned (.success published) →
    s.nextIndex = call.segments ∧ published = s.assembled call
  /-- The checkpoint names whole segments and exactly their bytes. -/
  saved : ∀ index bytes, s.saved = some (index, bytes) →
    ∃ count ≤ s.appended.length, index = call.first + count ∧
      bytes = (call.restored ++ (s.appended.take count).flatten).length ∧
      s.file.take bytes = call.restored ++ (s.appended.take count).flatten

theorem Sound.assembled_prefix (sound : Sound call s) : s.assembled call <+: s.file := by
  cases inside : s.main.isAppending with
  | false =>
    rcases sound.content.whole inside with same | ⟨_, ahead, _⟩
    · exact same ▸ List.prefix_refl _
    · exact ahead
  | true =>
    cases main : s.main with
    | appending data copied =>
      rw [(sound.content.inside data copied main).2]
      exact List.prefix_append _ _
    | _ =>
      rw [main] at inside
      cases inside

theorem Waits.of_blocked {position : Nat} {point : WorkerPoint} (sound : Sound call s)
    (workers : s.workers.length ≤ call.workerCount)
    (here : s.workers[position]? = some point) (sending : point.isSending = true)
    (blocked : s.step call (.worker position .sent) = none) : Waits call s := by
  have refused : ∀ message after closed,
      s.send call position message after closed = none → Waits call s := by
    intro message after closed refuses
    unfold send at refuses
    split at refuses
    · cases refuses
    next receiver =>
      split at refuses
      · cases refuses
      next full =>
        have worker : position < s.workers.length := by
          by_contra beyond
          rw [List.getElem?_eq_none (by omega)] at here
          cases here
        refine ⟨sound, ?_, by simpa using receiver⟩
        intro nothing
        rw [nothing, List.length_nil] at full
        omega
  unfold Pool.step at blocked
  simp only [here, Option.bind_some] at blocked
  cases point with
  | sending message => exact refused _ _ _ blocked
  | reporting => exact refused _ _ _ blocked
  | _ => cases sending

/-- A segmented download assembles its output under every schedule: in every state
any sequence of steps leads to, all of the above holds. -/
theorem segments_assembled (call : Call) (s : Pool)
    (reachable : (machine call).Reachable Transition.Machine.anyStep s) :
    Assembles call s := by
  have sound := sound_of_reachable reachable
  have complete := complete_of_reachable reachable
  have workers := workers_le_of_reachable reachable
  have counted : ∀ index, s.fetchCount index ≤ s.placed index := by
    intro index
    unfold placed
    omega
  have ahead := sound.assembled_prefix
  constructor
  · exact sound.content.position
  · exact sound.content.history
  · intro index
    exact Nat.le_trans (counted index) (sound.once.placed index)
  · refine ⟨?_, sound.content.size⟩
    rw [sound.content.size]
    exact (List.prefix_iff_eq_take.mp ahead).symm
  · intro outside clean
    rcases sound.content.whole outside with same | ⟨failed, _⟩
    · exact same
    · rw [clean] at failed
      cases failed
  · have within := sound.slots.within
    have bounded := sound.slots.bounded
    omega
  · intro releasing _
    have within := sound.slots.within
    have bounded := sound.slots.bounded
    unfold busy at within
    simp only [releasing, MainPoint.owesSlot, Bool.toNat_true] at within bounded
    omega
  · intro position point here sending blocked
    exact (Waits.of_blocked sound (by omega) here sending blocked).receivesWithin
  · intro events final ran
    exact sends_of_run sound ran
  · exact results_le_of_reachable reachable
  · intro started ended
    exact Over.returnsWithin ⟨sound, ended, started⟩
  · intro published returned
    have whole := complete.whole (by rw [returned]; rfl)
    refine ⟨whole.1, ?_⟩
    rw [complete.published published returned]
    rcases sound.content.whole (by rw [returned]; rfl) with same | ⟨failed, _⟩
    · exact same
    · rw [whole.2] at failed
      cases failed
  · intro index bytes saved
    obtain ⟨count, within, position, size⟩ := sound.content.saved index bytes saved
    refine ⟨count, within, position, size, ?_⟩
    have part : call.restored ++ (s.appended.take count).flatten <+: s.assembled call := by
      unfold assembled
      rw [List.prefix_append_right_inj]
      refine ⟨(s.appended.drop count).flatten, ?_⟩
      rw [← List.flatten_append, List.take_append_drop]
    rw [size]
    exact (List.prefix_iff_eq_take.mp (part.trans ahead)).symm

/-- A call of one segment and one worker. -/
def oneSegment : Call where
  segments := 1
  maxParallelSegments := 1
  maxAttempts := 1
  refreshStreamOnStatus := []
  persistent := false
  first := 0
  restored := []
  some_segment := by decide
  some_worker := by decide
  within := by decide
  restored_iff := by decide
  kept := fun _ => rfl

/-- Its run up to the append of the two bytes of the segment. -/
def fetchedRun : List Event :=
  [.spawned true, .worker 0 (.checked true), .worker 0 .received, .worker 0 (.chunk [1, 2]),
    .worker 0 (.bodyEnded 2), .worker 0 .sent, .checked true, .received, .assembled,
    .copied 1]

/-- The run to its end. -/
def publishedRun : List Event :=
  fetchedRun ++ [.copied 1, .copyEnded, .checkpointed true, .released, .assembled,
    .worker 0 (.checked true), .worker 0 .received, .checked true, .disconnected,
    .joined true, .published true]

/-- A finished call has assembled its segment. -/
theorem segments_assembled_published :
    ∃ s, Assembles oneSegment s ∧ s.main = .returned (.success [1, 2]) := by
  obtain ⟨s, reachable, published⟩ := (machine oneSegment).exists_reachable_of_run
    (fun s => decide (s.main = .returned (.success [1, 2]))) rfl
    (by decide +kernel : ((machine oneSegment).run (start oneSegment) publishedRun).any _ = true)
  exact ⟨s, segments_assembled oneSegment s reachable, of_decide_eq_true published⟩

/-- During an append, and after one that could not be rolled back, the file is not the
concatenation of the segments before the next one. -/
theorem file_beyond_next_index : (∃ s, (machine oneSegment).Reachable Transition.Machine.anyStep s ∧
      s.main = .appending [1, 2] 1 ∧ s.file ≠ s.assembled oneSegment) ∧
    (∃ s, (machine oneSegment).Reachable Transition.Machine.anyStep s ∧
      s.main = .checking ∧ s.file ≠ s.assembled oneSegment) := by
  constructor
  · obtain ⟨s, reachable, checked⟩ := (machine oneSegment).exists_reachable_of_run
      (fun s => decide (s.main = .appending [1, 2] 1 ∧ s.file ≠ s.assembled oneSegment)) rfl
      (by decide +kernel : ((machine oneSegment).run (start oneSegment) fetchedRun).any _ = true)
    exact ⟨s, reachable, of_decide_eq_true checked⟩
  · obtain ⟨s, reachable, checked⟩ := (machine oneSegment).exists_reachable_of_run
      (fun s => decide (s.main = .checking ∧ s.file ≠ s.assembled oneSegment)) rfl
      (by decide +kernel : ((machine oneSegment).run (start oneSegment)
        (fetchedRun ++ [.copyFailed 0 false])).any _ = true)
    exact ⟨s, reachable, of_decide_eq_true checked⟩

end LosslessMusic.Transfer.Pool
