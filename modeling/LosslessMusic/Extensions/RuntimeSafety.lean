import LosslessMusic.Extensions.RuntimeCalls

/-!
# What holds of an extension runtime at any time

What the callers and the worker can do is said once. From it come the order of the calls,
where the callers are while the worker is busy with them, and what an interruption leaves.
-/

namespace LosslessMusic.Extensions.Calls

variable {ρ : Type} {runtime next : Runtime ρ}

/-! ## What a step can do -/

/-- Whether a caller is in the loop around `recv_timeout`. -/
def Caller.polls : Caller ρ → Bool
  | .polling | .looking | .receiving => true
  | .idle | .validating | .checking | .sending | .awaiting | .returned _ => false

/-- Whether a caller has not sent anything yet. -/
def Caller.fresh : Caller ρ → Bool
  | .idle | .validating | .checking | .sending => true
  | .polling | .looking | .receiving | .awaiting | .returned _ => false

theorem Caller.fresh_of_sends {point : Caller ρ} (sends : point.sends = true) :
    point.fresh = true := by
  cases point <;> first | rfl | cases sends

/-- Whether a caller has sent a command that may still be waiting. -/
def Caller.sent : Caller ρ → Bool
  | .polling | .looking | .receiving | .returned _ => true
  | .idle | .validating | .checking | .sending | .awaiting => false

/-- What a caller does on its own. -/
inductive Moved (runtime : Runtime ρ) (id : Nat) : Caller ρ → List (Happening ρ) → Prop
  | enters : runtime.callers id = .idle → runtime.isClosed = false →
      Moved runtime id .validating [.entered id]
  | refused : runtime.callers id = .idle → runtime.isClosed = true →
      Moved runtime id (.returned .closed) [.returned id .closed, .entered id]
  | prepares {point : Caller ρ} : (runtime.callers id).sends = true → point.sends = true →
      Moved runtime id point []
  | polls {point : Caller ρ} : (runtime.callers id).polls = true → point.polls = true →
      Moved runtime id point []
  | returns (result : Result ρ) : (runtime.callers id).calls = true →
      (runtime.callers id = .awaiting →
        runtime.worker.call ≠ some id ∨ (runtime.replies id).isSome = true) →
      Moved runtime id (.returned result) [.returned id result]

theorem moved_of_callerMove {id : Nat} {move : CallerMove} {point : Caller ρ}
    {happened : List (Happening ρ)} (moved : runtime.callerMove id move = some (point, happened)) :
    Moved runtime id point happened := by
  cases move with
  | enter =>
    simp only [Runtime.callerMove] at moved
    split at moved
    next idle =>
      split at moved
      next closed =>
        cases moved
        exact .refused idle closed
      next opened =>
        cases moved
        exact .enters idle (Bool.not_eq_true _ ▸ opened)
    next => cases moved
  | validate valid | check =>
    simp only [Runtime.callerMove] at moved
    split at moved
    next here =>
      split at moved <;> cases moved
      · first
          | exact .prepares (by rw [here]; rfl) rfl
          | exact .returns _ (by rw [here]; rfl) (by rw [here]; nofun)
      · first
          | exact .prepares (by rw [here]; rfl) rfl
          | exact .returns _ (by rw [here]; rfl) (by rw [here]; nofun)
    next => cases moved
  | poll | look =>
    simp only [Runtime.callerMove] at moved
    split at moved
    next here =>
      split at moved <;> cases moved
      · exact .returns _ (by rw [here]; rfl) (by rw [here]; nofun)
      · exact .polls (by rw [here]; rfl) rfl
    next => cases moved
  | timeout =>
    simp only [Runtime.callerMove] at moved
    split at moved
    next here =>
      cases moved
      exact .polls (by rw [here]; rfl) rfl
    next => cases moved
  | disconnected =>
    simp only [Runtime.callerMove] at moved
    split at moved
    next here =>
      split at moved <;> cases moved
      exact .returns _ (by rw [here]; rfl) (by rw [here]; nofun)
    next => cases moved
  | result =>
    simp only [Runtime.callerMove] at moved
    split at moved
    next here there =>
      cases moved
      exact .returns _ (by rw [here]; rfl) (fun _ => .inr (by rw [there]; rfl))
    next here _ =>
      split at moved <;> cases moved
      next idle => exact .returns _ (by rw [here]; rfl) (fun _ => .inl idle)
    next => cases moved

/-- Whether the worker is busy with no call. -/
def Worker.free : Worker ρ → Bool
  | .waiting _ | .expired | .idling | .collecting | .replied | .leaving | .left | .gone => true
  | .offering _ _ | .starting _ | .running _ _ | .retiring _ _ | .replying _ _ => false

/-- What the worker does on its own. -/
inductive Worked (runtime : Runtime ρ) : Runtime ρ → Prop
  | takes (id : Nat) (deadline : Bool) (rest : List Command) : runtime.worker.free = true →
      runtime.queue = .call id :: rest →
      Worked runtime { runtime with queue := rest, worker := .offering id deadline }
  | stops (rest : List Command) : runtime.worker.free = true → runtime.queue = .stop :: rest →
      Worked runtime { runtime with queue := rest, worker := .leaving }
  | turns (point : Worker ρ) : runtime.worker.free = true → point.free = true →
      Worked runtime (runtime.setWorker point [])
  | abandons (id : Nat) (deadline : Bool) (result : Result ρ) :
      runtime.worker = .offering id deadline → runtime.callers id = .returned result →
      Worked runtime (runtime.setWorker (.waiting deadline) [])
  | refuses (id : Nat) (result : Result ρ) : runtime.worker = .starting id →
      Worked runtime (runtime.setWorker (.replying id result) [])
  | begins (id : Nat) : runtime.worker = .starting id → runtime.refusal id = none →
      Worked runtime (runtime.setWorker (.running id false) [.began id])
  | interrupts (id : Nat) : runtime.worker = .running id false →
      (runtime.refusal id).isSome = true →
      Worked runtime (runtime.setWorker (.running id true) [.interrupted id])
  | retires (id : Nat) (seen : Bool) (result : Result ρ) : runtime.worker = .running id seen →
      Worked runtime (runtime.setWorker (.retiring id result) [.interrupted id])
  | finishes (id : Nat) (seen : Bool) (value : ρ) : runtime.worker = .running id seen →
      runtime.refusal id = none →
      Worked runtime (runtime.setWorker (.replying id (.finished value)) [])
  | closes (id : Nat) (result : Result ρ) : runtime.worker = .retiring id result →
      Worked runtime { runtime.setWorker (.replying id result) [] with closed := true }
  | replies (id : Nat) (result : Result ρ) : runtime.worker = .replying id result →
      Worked runtime { runtime.setWorker .replied [] with
        replies := Function.update runtime.replies id (some result) }
  | drops : runtime.worker = .leaving →
      Worked runtime { runtime.setWorker .left [] with queue := [] }
  | ends : runtime.worker = .left →
      Worked runtime { runtime.setWorker .gone [] with closed := true }

theorem worked_of_took {deadline : Bool} {command : Command} {rest : List Command}
    (free : runtime.worker.free = true) (queue : runtime.queue = command :: rest) :
    Worked runtime (runtime.took deadline command rest) := by
  cases command with
  | call id => exact .takes id deadline rest free queue
  | stop => exact .stops rest free queue

theorem worked_of_workerMove {move : WorkerMove ρ}
    (worked : runtime.workerMove move = some next) : Worked runtime next := by
  cases move with
  | take | tryTake =>
    simp only [Runtime.workerMove] at worked
    split at worked <;> cases worked
    next here queue => exact worked_of_took (by rw [here]; rfl) queue
    all_goals exact .turns _ (by simp only [*]; rfl) rfl
  | timeout | collected =>
    simp only [Runtime.workerMove] at worked
    split at worked <;> cases worked
    next here => exact .turns _ (by rw [here]; rfl) rfl
  | idle | look =>
    simp only [Runtime.workerMove] at worked
    split at worked <;> cases worked
    next here => exact .turns _ (by rw [here]; rfl) (by split <;> rfl)
  | abandon =>
    simp only [Runtime.workerMove] at worked
    split at worked
    next here =>
      split at worked <;> cases worked
      next gone => exact .abandons _ _ _ here gone
    next => cases worked
  | start =>
    simp only [Runtime.workerMove] at worked
    split at worked
    next here =>
      split at worked <;> cases worked
      next => exact .refuses _ _ here
      next passed => exact .begins _ here passed
    next => cases worked
  | interrupt =>
    simp only [Runtime.workerMove] at worked
    split at worked
    next here =>
      split at worked <;> cases worked
      next refused => exact .interrupts _ here refused
    next => cases worked
  | finish value =>
    simp only [Runtime.workerMove] at worked
    split at worked
    next here =>
      split at worked <;> cases worked
      next => exact .retires _ _ _ here
      next passed => exact .finishes _ _ _ here passed
    next => cases worked
  | retire =>
    simp only [Runtime.workerMove] at worked
    split at worked <;> cases worked
    next here => exact .closes _ _ here
  | reply =>
    simp only [Runtime.workerMove] at worked
    split at worked <;> cases worked
    next here => exact .replies _ _ here
  | dropReceiver =>
    simp only [Runtime.workerMove] at worked
    split at worked <;> cases worked
    next here => exact .drops here
  | close =>
    simp only [Runtime.workerMove] at worked
    split at worked <;> cases worked
    next here => exact .ends here

/-- What happens in a step. -/
inductive Stepped (runtime : Runtime ρ) : Runtime ρ → Prop
  | moves (id : Nat) (point : Caller ρ) (happened : List (Happening ρ)) :
      Moved runtime id point happened → Stepped runtime (runtime.setCaller id point happened)
  | sends (id : Nat) : runtime.callers id = .sending → runtime.queue.length < queueCapacity →
      runtime.worker.connected = true →
      Stepped runtime { runtime.setCaller id .polling [.accepted id] with
        queue := runtime.queue ++ [.call id] }
  | meets (id : Nat) (deadline : Bool) : runtime.worker = .offering id deadline →
      runtime.callers id = .receiving →
      Stepped runtime ((runtime.setCaller id .awaiting []).setWorker (.starting id) [])
  | works {after : Runtime ρ} : Worked runtime after → Stepped runtime after
  | stops (id : Nat) :
      Stepped runtime { runtime with stopped := Function.update runtime.stopped id true }
  | closes : Stepped runtime { runtime with parentClosed := true }
  | shuts (thread : Nat) : runtime.shutdowns thread = .idle →
      Stepped runtime { runtime with
        closed := true
        shutdowns := Function.update runtime.shutdowns thread .stopping }
  | tells (thread : Nat) : runtime.shutdowns thread = .stopping →
      runtime.queue.length < queueCapacity →
      Stepped runtime { runtime with
        shutdowns := Function.update runtime.shutdowns thread .joining
        queue := runtime.queue ++ [.stop] }
  | misses (thread : Nat) : runtime.shutdowns thread = .stopping →
      (runtime.worker.connected = false ∨ queueCapacity ≤ runtime.queue.length) →
      Stepped runtime { runtime with
        shutdowns := Function.update runtime.shutdowns thread .joining }
  | joins (thread : Nat) : runtime.worker = .gone →
      Stepped runtime { runtime with
        shutdowns := Function.update runtime.shutdowns thread .ended }

theorem stepped_of_step {event : Event ρ} (step : runtime.step event = some next) :
    Stepped runtime next := by
  cases event with
  | caller id move =>
    simp only [Runtime.step, Option.map_eq_some_iff] at step
    obtain ⟨⟨point, happened⟩, moved, rfl⟩ := step
    exact .moves id point happened (moved_of_callerMove moved)
  | send id =>
    simp only [Runtime.step, Runtime.send] at step
    split at step
    next here =>
      have returns (result : Result ρ) :
          Stepped runtime (runtime.setCaller id (.returned result) [.returned id result]) :=
        .moves _ _ _ (.returns result (by rw [here]; rfl) (by rw [here]; nofun))
      split at step
      next connected =>
        split at step <;> cases step
        next room => exact .sends id here room connected
        next => exact returns _
      next =>
        cases step
        exact returns _
    next => cases step
  | rendezvous =>
    simp only [Runtime.step] at step
    split at step
    next offers =>
      split at step <;> cases step
      next receives => exact .meets _ _ offers receives
    next => cases step
  | worker move => exact .works (worked_of_workerMove step)
  | stop id =>
    cases step
    exact .stops id
  | closeParent =>
    cases step
    exact .closes
  | shutdown thread =>
    simp only [Runtime.step] at step
    split at step <;> cases step
    next idle => exact .shuts thread idle
  | sendStop thread =>
    simp only [Runtime.step] at step
    split at step
    next stopping =>
      split at step <;> cases step
      next taken => exact .tells thread stopping taken.2
      next refused =>
        refine .misses thread stopping ?_
        rw [not_and_or, Bool.not_eq_true, Nat.not_lt] at refused
        exact refused
    next => cases step
  | join thread =>
    simp only [Runtime.step] at step
    split at step <;> cases step
    next gone => exact .joins thread gone

/-! ## The order of the calls -/

/-- The calls in the queue, the latest first. -/
def waiting (queue : List Command) : List Nat :=
  queue.reverse.filterMap fun
    | .call id => some id
    | .stop => none

theorem waiting_append_call (queue : List Command) (id : Nat) :
    waiting (queue ++ [.call id]) = id :: waiting queue := by
  simp [waiting]

theorem waiting_append_stop (queue : List Command) :
    waiting (queue ++ [.stop]) = waiting queue := by
  simp [waiting]

theorem waiting_cons_call (rest : List Command) (id : Nat) :
    waiting (.call id :: rest) = waiting rest ++ [id] := by
  simp [waiting]

theorem waiting_cons_stop (rest : List Command) : waiting (.stop :: rest) = waiting rest := by
  simp [waiting]

theorem mem_waiting {queue : List Command} {id : Nat} : id ∈ waiting queue ↔ .call id ∈ queue := by
  unfold waiting
  rw [List.mem_filterMap]
  constructor
  · rintro ⟨command, member, same⟩
    cases command with
    | call other =>
      cases same
      exact List.mem_reverse.mp member
    | stop => cases same
  · intro member
    exact ⟨.call id, List.mem_reverse.mpr member, rfl⟩

/-- The call that the worker has taken and not begun. -/
def Worker.upcoming : Worker ρ → Option Nat
  | .offering id _ | .starting id => some id
  | .waiting _ | .expired | .idling | .collecting | .running _ _ | .retiring _ _
  | .replying _ _ | .replied | .leaving | .left | .gone => none

theorem Worker.upcoming_of_free {worker : Worker ρ} (free : worker.free = true) :
    worker.upcoming = none := by
  cases worker <;> first | rfl | cases free

/-- Of the calls that were accepted the latest are in the queue, then comes the one that
the worker has taken, and the others have begun or not in the same order. -/
structure Traced (runtime : Runtime ρ) : Prop where
  traced : ∃ taken, accepted runtime.history =
      waiting runtime.queue ++ (runtime.worker.upcoming.toList ++ taken) ∧
    (begun runtime.history).Sublist taken
  nodup : (accepted runtime.history).Nodup
  fresh : ∀ id ∈ accepted runtime.history, (runtime.callers id).fresh = false

namespace Traced

theorem moved {id : Nat} {point : Caller ρ} {happened : List (Happening ρ)}
    (traced : Traced runtime) (moved : Moved runtime id point happened) :
    Traced (runtime.setCaller id point happened) := by
  have quiet : accepted (happened ++ runtime.history) = accepted runtime.history ∧
      begun (happened ++ runtime.history) = begun runtime.history := by
    cases moved <;> exact ⟨rfl, rfl⟩
  have stays : (runtime.callers id).fresh = false → point.fresh = false := by
    intro sent
    cases moved with
    | enters idle | refused idle =>
      rw [idle] at sent
      cases sent
    | prepares sends => exact absurd (Caller.fresh_of_sends sends) (by rw [sent]; nofun)
    | polls _ polls => cases point <;> first | rfl | cases polls
    | returns => rfl
  obtain ⟨⟨taken, order, begins⟩, nodup, fresh⟩ := traced
  constructor
  · refine ⟨taken, quiet.1.trans order, ?_⟩
    rw [Runtime.setCaller, quiet.2]
    exact begins
  · rw [Runtime.setCaller, quiet.1]
    exact nodup
  · intro other member
    rw [Runtime.setCaller, quiet.1] at member
    show (Function.update runtime.callers id point other).fresh = false
    rw [Function.update_apply]
    split
    next same => exact stays (same ▸ fresh other member)
    next => exact fresh other member

theorem sends {id : Nat} (traced : Traced runtime) (sending : runtime.callers id = .sending) :
    Traced { runtime.setCaller id .polling [.accepted id] with
      queue := runtime.queue ++ [.call id] } := by
  obtain ⟨⟨taken, order, begins⟩, nodup, fresh⟩ := traced
  have isNew : id ∉ accepted runtime.history := by
    intro member
    have sent := fresh id member
    rw [sending] at sent
    cases sent
  constructor
  · refine ⟨taken, ?_, begins⟩
    show id :: accepted runtime.history = waiting (runtime.queue ++ [.call id]) ++ _
    rw [order, waiting_append_call]
    rfl
  · exact List.nodup_cons.mpr ⟨isNew, nodup⟩
  · intro other member
    show (Function.update runtime.callers id .polling other).fresh = false
    rw [Function.update_apply]
    split
    next => rfl
    next different =>
      rcases List.mem_cons.mp member with same | before
      · exact absurd same different
      · exact fresh other before

theorem works (traced : Traced runtime) (callers : next.callers = runtime.callers)
    (accepts : accepted next.history = accepted runtime.history)
    (order : ∀ taken, accepted runtime.history =
        waiting runtime.queue ++ (runtime.worker.upcoming.toList ++ taken) →
      (begun runtime.history).Sublist taken →
      ∃ taken, accepted runtime.history =
          waiting next.queue ++ (next.worker.upcoming.toList ++ taken) ∧
        (begun next.history).Sublist taken) : Traced next := by
  obtain ⟨⟨taken, before, begins⟩, nodup, fresh⟩ := traced
  refine ⟨?_, ?_, ?_⟩
  · rw [accepts]
    exact order taken before begins
  · rw [accepts]
    exact nodup
  · rw [accepts, callers]
    exact fresh

theorem worked (traced : Traced runtime) (worked : Worked runtime next) : Traced next := by
  cases worked with
  | takes id deadline rest free queue =>
    refine traced.works rfl rfl ?_
    intro taken order begins
    refine ⟨taken, ?_, begins⟩
    rw [order, queue, waiting_cons_call, Worker.upcoming_of_free free, List.append_assoc]
    rfl
  | stops rest free queue =>
    refine traced.works rfl rfl ?_
    intro taken order begins
    refine ⟨taken, ?_, begins⟩
    rw [order, queue, waiting_cons_stop, Worker.upcoming_of_free free]
    rfl
  | turns point free next =>
    refine traced.works rfl rfl ?_
    intro taken order begins
    refine ⟨taken, ?_, begins⟩
    rw [order, Worker.upcoming_of_free free]
    exact congrArg _ (congrArg (·.toList ++ taken) (Worker.upcoming_of_free next).symm)
  | abandons id _ _ here | refuses id _ here =>
    refine traced.works rfl rfl ?_
    intro taken order begins
    rw [here] at order
    exact ⟨id :: taken, order, begins.cons id⟩
  | begins id here =>
    refine traced.works rfl rfl ?_
    intro taken order begins
    rw [here] at order
    exact ⟨id :: taken, order, begins.cons_cons id⟩
  | interrupts id here | retires id _ _ here | finishes id _ _ here | closes id _ here
  | replies id _ here | ends here =>
    refine traced.works rfl rfl ?_
    intro taken order begins
    rw [here] at order
    exact ⟨taken, order, begins⟩
  | drops here =>
    refine traced.works rfl rfl ?_
    intro taken order begins
    rw [here] at order
    exact ⟨waiting runtime.queue ++ taken, order, begins.trans (List.sublist_append_right ..)⟩

theorem step (traced : Traced runtime) (stepped : Stepped runtime next) : Traced next := by
  cases stepped with
  | moves id point happened moved => exact traced.moved moved
  | sends id sending => exact traced.sends sending
  | meets id deadline offers receives =>
    obtain ⟨⟨taken, order, begins⟩, nodup, fresh⟩ := traced
    rw [offers] at order
    refine ⟨⟨taken, order, begins⟩, nodup, ?_⟩
    intro other member
    show (Function.update runtime.callers id .awaiting other).fresh = false
    rw [Function.update_apply]
    split
    next => rfl
    next => exact fresh other member
  | works worked => exact traced.worked worked
  | stops | closes | shuts | misses | joins => exact ⟨traced.traced, traced.nodup, traced.fresh⟩
  | tells thread =>
    obtain ⟨taken, order, begins⟩ := traced.traced
    refine ⟨⟨taken, ?_, begins⟩, traced.nodup, traced.fresh⟩
    show _ = waiting (runtime.queue ++ [.stop]) ++ _
    rw [waiting_append_stop]
    exact order

theorem beginning : Traced (.beginning : Runtime ρ) where
  traced := ⟨[], rfl, .slnil⟩
  nodup := .nil
  fresh := fun _ member => by cases member

end Traced

/-! ## Callers and the worker -/

/-- Whether a caller has met the worker or is done. -/
def Caller.past : Caller ρ → Bool
  | .awaiting | .returned _ => true
  | .idle | .validating | .checking | .sending | .polling | .looking | .receiving => false

theorem Caller.fresh_of_not_sent {point : Caller ρ} (fresh : point.fresh = true) :
    point.sent = false ∧ point.past = false := by
  cases point <;> first | exact ⟨rfl, rfl⟩ | cases fresh

theorem Caller.not_past_of_polls {point : Caller ρ} (polls : point.polls = true) :
    point.past = false := by
  cases point <;> first | rfl | cases polls

namespace Moved

variable {id : Nat} {point : Caller ρ} {happened : List (Happening ρ)}

theorem sent (moved : Moved runtime id point happened)
    (before : (runtime.callers id).sent = true) : point.sent = true := by
  cases moved with
  | enters idle | refused idle =>
    rw [idle] at before
    cases before
  | prepares sends =>
    rw [(Caller.fresh_of_not_sent (Caller.fresh_of_sends sends)).1] at before
    cases before
  | polls _ polls => cases point <;> first | rfl | cases polls
  | returns => rfl

theorem past (moved : Moved runtime id point happened)
    (before : (runtime.callers id).past = true) : point.past = true := by
  cases moved with
  | enters idle | refused idle =>
    rw [idle] at before
    cases before
  | prepares sends =>
    rw [(Caller.fresh_of_not_sent (Caller.fresh_of_sends sends)).2] at before
    cases before
  | polls polls =>
    rw [Caller.not_past_of_polls polls] at before
    cases before
  | returns => rfl

theorem ne_awaiting (moved : Moved runtime id point happened) : point ≠ .awaiting := by
  cases moved with
  | enters | refused | returns => nofun
  | prepares _ sends => rintro rfl; cases sends
  | polls _ polls => rintro rfl; cases polls

/-- A caller that the worker is busy with stays where it is. -/
theorem elsewhere (moved : Moved runtime id point happened)
    (awaits : runtime.callers id = .awaiting) :
    runtime.worker.call ≠ some id ∨ (runtime.replies id).isSome = true := by
  cases moved with
  | enters idle | refused idle =>
    rw [idle] at awaits
    cases awaits
  | prepares sends =>
    rw [awaits] at sends
    cases sends
  | polls polls =>
    rw [awaits] at polls
    cases polls
  | returns _ _ free => exact free awaits

end Moved

/-- Where the callers are while their commands are in the queue or with the worker. -/
structure Bound (runtime : Runtime ρ) : Prop where
  queued : ∀ id, .call id ∈ runtime.queue → (runtime.callers id).sent = true
  offered : ∀ id, runtime.worker.offer = some id → (runtime.callers id).sent = true
  busy : ∀ id, runtime.worker.call = some id →
    runtime.callers id = .awaiting ∧ runtime.replies id = none
  replied : ∀ id, (runtime.replies id).isSome = true → (runtime.callers id).past = true
  answered : ∀ id, runtime.callers id = .awaiting →
    (runtime.replies id).isSome = true ∨ runtime.worker.call = some id

theorem Worker.offer_of_free {worker : Worker ρ} (free : worker.free = true) :
    worker.offer = none ∧ worker.call = none := by
  cases worker <;> first | exact ⟨rfl, rfl⟩ | cases free

namespace Bound

theorem moved {id : Nat} {point : Caller ρ} {happened : List (Happening ρ)}
    (bound : Bound runtime) (moved : Moved runtime id point happened) :
    Bound (runtime.setCaller id point happened) := by
  have stays : ∀ other (holds : Caller ρ → Prop), (holds (runtime.callers id) → holds point) →
      holds (runtime.callers other) → holds (Function.update runtime.callers id point other) := by
    intro other holds own before
    rw [Function.update_apply]
    split
    next same => exact own (same ▸ before)
    next => exact before
  constructor
  · exact fun other member => stays other (·.sent = true) moved.sent (bound.queued other member)
  · exact fun other offers => stays other (·.sent = true) moved.sent (bound.offered other offers)
  · intro other executes
    obtain ⟨awaits, none⟩ := bound.busy other executes
    have different : other ≠ id := by
      rintro rfl
      rcases moved.elsewhere awaits with free | some
      · exact free executes
      · rw [none] at some
        cases some
    exact ⟨(Function.update_of_ne different ..).trans awaits, none⟩
  · exact fun other some => stays other (·.past = true) moved.past (bound.replied other some)
  · intro other awaits
    apply bound.answered other
    have here : Function.update runtime.callers id point other = .awaiting := awaits
    rw [Function.update_apply] at here
    split at here
    next => exact absurd here moved.ne_awaiting
    next => exact here

theorem sends {id : Nat} (bound : Bound runtime) (sending : runtime.callers id = .sending) :
    Bound { runtime.setCaller id .polling [.accepted id] with
      queue := runtime.queue ++ [.call id] } := by
  have others : ∀ other, other ≠ id →
      Function.update runtime.callers id .polling other = runtime.callers other :=
    fun _ different => Function.update_of_ne different ..
  have sent : ∀ other, (other ≠ id → (runtime.callers other).sent = true) →
      (Function.update runtime.callers id .polling other).sent = true := by
    intro other before
    by_cases same : other = id
    · subst same
      rw [Function.update_self]
      rfl
    · rw [others other same]
      exact before same
  constructor
  · intro other member
    refine sent other fun different => bound.queued other ?_
    rcases List.mem_append.mp member with before | own
    · exact before
    · cases List.mem_singleton.mp own
      exact absurd rfl different
  · exact fun other offers => sent other fun _ => bound.offered other offers
  · intro other executes
    obtain ⟨awaits, none⟩ := bound.busy other executes
    have different : other ≠ id := by
      rintro rfl
      rw [sending] at awaits
      cases awaits
    exact ⟨(others other different).trans awaits, none⟩
  · intro other some
    have past := bound.replied other some
    have different : other ≠ id := by
      rintro rfl
      rw [sending] at past
      cases past
    show (Function.update runtime.callers id .polling other).past = true
    rw [others other different]
    exact past
  · intro other awaits
    have here : Function.update runtime.callers id .polling other = .awaiting := awaits
    have different : other ≠ id := by
      rintro rfl
      rw [Function.update_self] at here
      cases here
    rw [others other different] at here
    exact bound.answered other here

theorem meets {id : Nat} {deadline : Bool} (bound : Bound runtime) (traced : Traced runtime)
    (offers : runtime.worker = .offering id deadline) (receives : runtime.callers id = .receiving) :
    Bound ((runtime.setCaller id .awaiting []).setWorker (.starting id) []) := by
  have others : ∀ other, other ≠ id →
      Function.update runtime.callers id .awaiting other = runtime.callers other :=
    fun _ different => Function.update_of_ne different ..
  have taken : .call id ∉ runtime.queue := by
    intro member
    obtain ⟨taken, order, _⟩ := traced.traced
    have nodup := traced.nodup
    rw [order, offers] at nodup
    exact (List.nodup_append.mp nodup).2.2 id (mem_waiting.mpr member) id List.mem_cons_self rfl
  have unanswered : runtime.replies id = none := by
    cases reply : runtime.replies id with
    | none => rfl
    | some result =>
      have past := bound.replied id (by rw [reply]; rfl)
      rw [receives] at past
      cases past
  constructor
  · intro other member
    have different : other ≠ id := by
      rintro rfl
      exact taken member
    show (Function.update runtime.callers id .awaiting other).sent = true
    rw [others other different]
    exact bound.queued other member
  · intro other offers
    cases offers
  · intro other executes
    cases executes
    exact ⟨Function.update_self .., unanswered⟩
  · intro other some
    show (Function.update runtime.callers id .awaiting other).past = true
    rw [Function.update_apply]
    split
    next => rfl
    next => exact bound.replied other some
  · intro other awaits
    by_cases same : other = id
    · exact .inr (congrArg some same.symm)
    · have here : Function.update runtime.callers id .awaiting other = .awaiting := awaits
      rw [others other same] at here
      rcases bound.answered other here with replied | executes
      · exact .inl replied
      · rw [offers] at executes
        cases executes

/-- The worker goes on with the call that it is busy with, or with none. -/
theorem works (bound : Bound runtime) (callers : next.callers = runtime.callers)
    (replies : next.replies = runtime.replies)
    (queue : ∀ id, .call id ∈ next.queue → .call id ∈ runtime.queue)
    (offer : ∀ id, next.worker.offer = some id → .call id ∈ runtime.queue)
    (call : next.worker.call = runtime.worker.call) : Bound next := by
  constructor
  · intro id member
    rw [callers]
    exact bound.queued id (queue id member)
  · intro id offers
    rw [callers]
    exact bound.queued id (offer id offers)
  · rw [callers, replies, call]
    exact bound.busy
  · rw [callers, replies]
    exact bound.replied
  · rw [callers, replies, call]
    exact bound.answered

theorem worked (bound : Bound runtime) (worked : Worked runtime next) : Bound next := by
  cases worked with
  | takes id deadline rest free queue =>
    refine bound.works rfl rfl ?_ ?_ (Worker.offer_of_free free).2.symm
    · intro other member
      rw [queue]
      exact List.mem_cons_of_mem _ member
    · intro other offers
      cases offers
      rw [queue]
      exact List.mem_cons_self
  | stops rest free queue =>
    refine bound.works rfl rfl ?_ nofun (Worker.offer_of_free free).2.symm
    intro other member
    rw [queue]
    exact List.mem_cons_of_mem _ member
  | turns point free still =>
    refine bound.works rfl rfl (fun _ member => member) ?_
      ((Worker.offer_of_free still).2.trans (Worker.offer_of_free free).2.symm)
    intro other offers
    have none := (Worker.offer_of_free still).1
    rw [show point.offer = some other from offers] at none
    cases none
  | drops here =>
    exact bound.works rfl rfl nofun nofun (by rw [here]; rfl)
  | abandons id _ _ here | refuses id _ here | begins id here | interrupts id here
  | retires id _ _ here | finishes id _ _ here | closes id _ here | ends here =>
    exact bound.works rfl rfl (fun _ member => member) nofun (by rw [here]; rfl)
  | replies id result here =>
    obtain ⟨awaits, _⟩ := bound.busy id (by rw [here]; rfl)
    refine ⟨bound.queued, nofun, nofun, ?_, ?_⟩
    · intro other there
      by_cases same : other = id
      · subst same
        show (runtime.callers other).past = true
        rw [awaits]
        rfl
      · have before : (Function.update runtime.replies id (some result) other).isSome = true := there
        rw [Function.update_of_ne same] at before
        exact bound.replied other before
    · intro other awaiting
      refine .inl ?_
      show (Function.update runtime.replies id (some result) other).isSome = true
      rw [Function.update_apply]
      split
      next => rfl
      next different =>
        rcases bound.answered other awaiting with replied | executes
        · exact replied
        · rw [here] at executes
          exact absurd (Option.some.inj executes).symm different

theorem step (bound : Bound runtime) (traced : Traced runtime)
    (stepped : Stepped runtime next) : Bound next := by
  cases stepped with
  | moves id point happened moved => exact bound.moved moved
  | sends id sending => exact bound.sends sending
  | meets id deadline offers receives => exact bound.meets traced offers receives
  | works worked => exact bound.worked worked
  | stops | closes | shuts | misses | joins =>
    exact ⟨bound.queued, bound.offered, bound.busy, bound.replied, bound.answered⟩
  | tells thread =>
    refine ⟨?_, bound.offered, bound.busy, bound.replied, bound.answered⟩
    intro id member
    rcases List.mem_append.mp member with before | own
    · exact bound.queued id before
    · cases List.mem_singleton.mp own

theorem beginning : Bound (.beginning : Runtime ρ) :=
  ⟨nofun, nofun, nofun, nofun, nofun⟩

end Bound

end LosslessMusic.Extensions.Calls
