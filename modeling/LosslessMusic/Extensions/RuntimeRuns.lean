import LosslessMusic.Extensions.RuntimeSafety

/-!
# Runs of an extension runtime

A run keeps all that is promised as long as a runtime that is shut down can be told so:
`Stop` finds room in the queue, or the worker is going to look at the flag by itself. It
does not look once it has collected and only skips calls that were given up.
-/

namespace LosslessMusic.Extensions.Calls

open Transition

variable {ρ : Type} {runtime next : Runtime ρ}

/-! ## Interruptions and results -/

/-- What the history tells of interruptions and results. -/
structure Told (runtime : Runtime ρ) : Prop where
  returned : ∀ id result, .returned id result ∈ runtime.history →
    runtime.callers id = .returned result
  single : (returns runtime.history).Nodup
  inTime : runtime.history.Pairwise fun later earlier =>
    ∀ id result, later = .began id → earlier ≠ .returned id result
  alert : ∀ id, runtime.worker = .running id true → (runtime.refusal id).isSome = true
  seen : ∀ id, .interrupted id ∈ runtime.history → runtime.closed = true ∨
    runtime.worker = .running id true ∨ ∃ result, runtime.worker = .retiring id result
  retired : runtime.history.Pairwise fun later earlier =>
    ∀ id other, earlier = .interrupted id → later ≠ .began other
  refused : ∀ later id earlier, runtime.history = later ++ .entered id :: earlier →
    Retired earlier → runtime.callers id = .returned .closed

theorem late_cons {holds : Nat → Prop} {happened : Happening ρ} {history : List (Happening ρ)}
    (before : ∀ later id earlier, history = later ++ .entered id :: earlier →
      Retired earlier → holds id)
    (own : ∀ id, happened = .entered id → Retired history → holds id) :
    ∀ later id earlier, happened :: history = later ++ .entered id :: earlier →
      Retired earlier → holds id := by
  intro later id earlier split retired
  cases later with
  | nil =>
    cases split
    exact own id rfl retired
  | cons first later =>
    rw [List.cons_append, List.cons.injEq] at split
    exact before later id earlier split.2 retired

variable {id : Nat} {happened : List (Happening ρ)}

theorem Moved.not_returned {point : Caller ρ}
    (moved : Moved runtime id point happened) (result : Result ρ) :
    runtime.callers id ≠ .returned result := by
  intro here
  cases moved with
  | enters idle | refused idle =>
    rw [here] at idle
    cases idle
  | prepares before | polls before | returns _ before =>
    rw [here] at before
    cases before

namespace Told

/-- An interrupted call that has returned has closed the runtime. -/
theorem closed (told : Told runtime) (bound : Bound runtime)
    (retired : Retired runtime.history) : runtime.closed = true := by
  obtain ⟨id, interrupted, result, returned⟩ := retired
  have gone := told.returned id result returned
  have idle : runtime.worker.call ≠ some id := by
    intro executes
    rw [(bound.busy id executes).1] at gone
    cases gone
  rcases told.seen id interrupted with closed | running | ⟨result, retiring⟩
  · exact closed
  · rw [running] at idle
    exact absurd rfl idle
  · rw [retiring] at idle
    exact absurd rfl idle

/-- The flags and the threads that shut down change, and nothing is forgotten. -/
theorem flags (told : Told runtime)
    (callers : next.callers = runtime.callers) (history : next.history = runtime.history)
    (worker : next.worker = runtime.worker) (closed : runtime.closed = true → next.closed = true)
    (refusal : ∀ id, (runtime.refusal id).isSome = true → (next.refusal id).isSome = true) :
    Told next := by
  refine ⟨?_, ?_, ?_, ?_, ?_, ?_, ?_⟩
  · rw [callers, history]
    exact told.returned
  · rw [history]
    exact told.single
  · rw [history]
    exact told.inTime
  · rw [worker]
    exact fun id running => refusal id (told.alert id running)
  · rw [history, worker]
    exact fun id interrupted => (told.seen id interrupted).imp_left closed
  · rw [history]
    exact told.retired
  · rw [callers, history]
    exact told.refused

/-- What a caller does is neither a beginning nor an interruption. -/
theorem moved {point : Caller ρ}
    (told : Told runtime) (bound : Bound runtime) (moved : Moved runtime id point happened) :
    Told (runtime.setCaller id point happened) := by
  have others : ∀ {other result}, runtime.callers other = .returned result →
      Function.update runtime.callers id point other = .returned result := by
    intro other result gone
    have different : other ≠ id := by
      rintro rfl
      exact moved.not_returned result gone
    rw [Function.update_of_ne different]
    exact gone
  have unreturned : ∀ result, .returned id result ∉ runtime.history :=
    fun result member => moved.not_returned result (told.returned id result member)
  have before : ∀ later other earlier, runtime.history = later ++ .entered other :: earlier →
      Retired earlier → Function.update runtime.callers id point other = .returned .closed :=
    fun later other earlier split retired => others (told.refused later other earlier split retired)
  have isNew : id ∉ returns runtime.history := by
    intro member
    obtain ⟨happening, member, same⟩ := List.mem_filterMap.mp member
    cases happening with
    | returned other result =>
      cases same
      exact unreturned result member
    | entered | accepted | began | interrupted => cases same
  cases moved with
  | enters idle opened =>
    refine ⟨?_, told.single, ?_, told.alert, ?_, ?_, ?_⟩
    · intro other result member
      rcases List.mem_cons.mp member with own | member
      · cases own
      · exact others (told.returned other result member)
    · exact List.pairwise_cons.mpr ⟨fun _ _ _ _ => nofun, told.inTime⟩
    · intro other member
      rcases List.mem_cons.mp member with own | member
      · cases own
      · exact told.seen other member
    · exact List.pairwise_cons.mpr ⟨fun _ _ _ _ _ => nofun, told.retired⟩
    · refine late_cons before ?_
      intro other own retired
      have closed := told.closed bound retired
      rw [Runtime.isClosed, closed] at opened
      cases opened
  | refused idle closed =>
    refine ⟨?_, List.nodup_cons.mpr ⟨isNew, told.single⟩, ?_, told.alert, ?_, ?_, ?_⟩
    · intro other result member
      rcases List.mem_cons.mp member with own | member
      · cases own
        exact Function.update_self ..
      · rcases List.mem_cons.mp member with own | member
        · cases own
        · exact others (told.returned other result member)
    · refine List.pairwise_cons.mpr ⟨fun _ _ _ _ => nofun, ?_⟩
      exact List.pairwise_cons.mpr ⟨fun _ _ _ _ => nofun, told.inTime⟩
    · intro other member
      rcases List.mem_cons.mp member with own | member
      · cases own
      · rcases List.mem_cons.mp member with own | member
        · cases own
        · exact told.seen other member
    · refine List.pairwise_cons.mpr ⟨fun _ _ _ _ _ => nofun, ?_⟩
      exact List.pairwise_cons.mpr ⟨fun _ _ _ _ _ => nofun, told.retired⟩
    · refine late_cons (late_cons before ?_) (fun _ => nofun)
      intro other own _
      cases own
      exact Function.update_self ..
  | prepares | polls =>
    exact ⟨fun other result member => others (told.returned other result member), told.single,
      told.inTime, told.alert, told.seen, told.retired, before⟩
  | returns result =>
    refine ⟨?_, List.nodup_cons.mpr ⟨isNew, told.single⟩, ?_, told.alert, ?_, ?_, ?_⟩
    · intro other value member
      rcases List.mem_cons.mp member with own | member
      · cases own
        exact Function.update_self ..
      · exact others (told.returned other value member)
    · exact List.pairwise_cons.mpr ⟨fun _ _ _ _ => nofun, told.inTime⟩
    · intro other member
      rcases List.mem_cons.mp member with own | member
      · cases own
      · exact told.seen other member
    · exact List.pairwise_cons.mpr ⟨fun _ _ _ _ _ => nofun, told.retired⟩
    · exact late_cons before fun _ own => by cases own

/-- A caller goes on that has not returned, and nothing but an acceptance is remembered. -/
theorem sends (told : Told runtime) (sending : runtime.callers id = .sending) :
    Told { runtime.setCaller id .polling [.accepted id] with
      queue := runtime.queue ++ [.call id] } := by
  have others : ∀ {other result}, runtime.callers other = .returned result →
      Function.update runtime.callers id .polling other = .returned result := by
    intro other result gone
    have different : other ≠ id := by
      rintro rfl
      rw [sending] at gone
      cases gone
    rw [Function.update_of_ne different]
    exact gone
  refine ⟨?_, told.single, ?_, told.alert, ?_, ?_, ?_⟩
  · intro other result member
    rcases List.mem_cons.mp member with own | member
    · cases own
    · exact others (told.returned other result member)
  · exact List.pairwise_cons.mpr ⟨fun _ _ _ _ => nofun, told.inTime⟩
  · intro other member
    rcases List.mem_cons.mp member with own | member
    · cases own
    · exact told.seen other member
  · exact List.pairwise_cons.mpr ⟨fun _ _ _ _ _ => nofun, told.retired⟩
  · refine late_cons ?_ (fun _ => nofun)
    exact fun later other earlier split retired =>
      others (told.refused later other earlier split retired)

theorem meets {deadline : Bool} (told : Told runtime)
    (offers : runtime.worker = .offering id deadline) (receives : runtime.callers id = .receiving) :
    Told ((runtime.setCaller id .awaiting []).setWorker (.starting id) []) := by
  have others : ∀ {other result}, runtime.callers other = .returned result →
      Function.update runtime.callers id .awaiting other = .returned result := by
    intro other result gone
    have different : other ≠ id := by
      rintro rfl
      rw [receives] at gone
      cases gone
    rw [Function.update_of_ne different]
    exact gone
  refine ⟨fun other result member => others (told.returned other result member), told.single,
    told.inTime, nofun, ?_, told.retired, ?_⟩
  · intro other member
    rcases told.seen other member with closed | running | ⟨result, retiring⟩
    · exact .inl closed
    · rw [offers] at running
      cases running
    · rw [offers] at retiring
      cases retiring
  · exact fun later other earlier split retired =>
      others (told.refused later other earlier split retired)

theorem works (told : Told runtime)
    (callers : next.callers = runtime.callers) (history : next.history = runtime.history)
    (running : ∀ id, next.worker ≠ .running id true)
    (seen : ∀ id, .interrupted id ∈ runtime.history → next.closed = true ∨
      ∃ result, next.worker = .retiring id result) : Told next := by
  refine ⟨?_, ?_, ?_, ?_, ?_, ?_, ?_⟩
  · rw [callers, history]
    exact told.returned
  · rw [history]
    exact told.single
  · rw [history]
    exact told.inTime
  · exact fun id here => absurd here (running id)
  · rw [history]
    exact fun id interrupted => (seen id interrupted).imp_right .inr
  · rw [history]
    exact told.retired
  · rw [callers, history]
    exact told.refused

theorem seen_elsewhere (told : Told runtime) (running : ∀ id, runtime.worker ≠ .running id true)
    (retiring : ∀ id result, runtime.worker ≠ .retiring id result)
    (interrupted : .interrupted id ∈ runtime.history) : runtime.closed = true := by
  rcases told.seen id interrupted with closed | here | ⟨result, here⟩
  · exact closed
  · exact absurd here (running id)
  · exact absurd here (retiring id result)

theorem interrupts {point : Worker ρ} (told : Told runtime)
    (seen : ∀ other, .interrupted other ∈ runtime.history → runtime.closed = true ∨ other = id)
    (here : point = .running id true ∨ ∃ result, point = .retiring id result)
    (alert : ∀ other, point = .running other true → (runtime.refusal other).isSome = true) :
    Told (runtime.setWorker point [.interrupted id]) := by
  refine ⟨?_, told.single, ?_, alert, ?_, ?_, ?_⟩
  · intro other result member
    rcases List.mem_cons.mp member with own | member
    · cases own
    · exact told.returned other result member
  · exact List.pairwise_cons.mpr ⟨fun _ _ _ _ => nofun, told.inTime⟩
  · intro other member
    have same : runtime.closed = true ∨ other = id := by
      rcases List.mem_cons.mp member with own | member
      · cases own
        exact .inr rfl
      · exact seen other member
    rcases same with closed | rfl
    · exact .inl closed
    · exact .inr here
  · exact List.pairwise_cons.mpr ⟨fun _ _ _ _ _ => nofun, told.retired⟩
  · exact late_cons told.refused fun _ own => by cases own

theorem worked (told : Told runtime) (bound : Bound runtime) (worked : Worked runtime next) :
    Told next := by
  cases worked with
  | takes id deadline rest free | stops rest free =>
    refine told.works rfl rfl nofun fun other interrupted => .inl ?_
    refine told.seen_elsewhere ?_ ?_ interrupted
    · exact fun _ here => by rw [here] at free; cases free
    · exact fun _ _ here => by rw [here] at free; cases free
  | turns point free still =>
    refine told.works rfl rfl ?_ fun other interrupted => .inl ?_
    · intro id here
      rw [show point = .running id true from here] at still
      cases still
    · refine told.seen_elsewhere ?_ ?_ interrupted
      · exact fun _ here => by rw [here] at free; cases free
      · exact fun _ _ here => by rw [here] at free; cases free
  | abandons id _ _ here | refuses id _ here | replies id _ here | drops here =>
    refine told.works rfl rfl nofun fun other interrupted => .inl ?_
    exact told.seen_elsewhere (by rw [here]; nofun) (by rw [here]; nofun) interrupted
  | begins id here passed =>
    have opened : runtime.closed = false := by
      cases closed : runtime.closed with
      | false => rfl
      | true =>
        rw [Runtime.refusal, Runtime.isClosed, closed] at passed
        cases passed
    have quiet : ∀ other, .interrupted other ∉ runtime.history := by
      intro other interrupted
      have closed := told.seen_elsewhere (by rw [here]; nofun) (by rw [here]; nofun) interrupted
      rw [opened] at closed
      cases closed
    have awaits := (bound.busy id (by rw [here]; rfl)).1
    refine ⟨?_, told.single, ?_, nofun, ?_, ?_, ?_⟩
    · intro other result member
      rcases List.mem_cons.mp member with own | member
      · cases own
      · exact told.returned other result member
    · refine List.pairwise_cons.mpr ⟨?_, told.inTime⟩
      intro earlier member other result began returned
      cases began
      have gone := told.returned id result (returned ▸ member)
      rw [awaits] at gone
      cases gone
    · intro other member
      rcases List.mem_cons.mp member with own | member
      · cases own
      · exact absurd member (quiet other)
    · refine List.pairwise_cons.mpr ⟨?_, told.retired⟩
      intro earlier member other _ interrupted
      exact absurd (interrupted ▸ member) (quiet other)
    · exact late_cons told.refused fun _ own => by cases own
  | interrupts id here alert =>
    refine told.interrupts ?_ (.inl rfl) ?_
    · intro other interrupted
      exact .inl (told.seen_elsewhere (by rw [here]; nofun) (by rw [here]; nofun) interrupted)
    · intro other same
      cases same
      exact alert
  | retires id seen result here =>
    refine told.interrupts ?_ (.inr ⟨result, rfl⟩) nofun
    intro other interrupted
    rcases told.seen other interrupted with closed | running | ⟨_, retiring⟩
    · exact .inl closed
    · rw [here] at running
      cases running
      exact .inr rfl
    · rw [here] at retiring
      cases retiring
  | finishes id seen value here passed =>
    refine told.works rfl rfl nofun fun other interrupted => .inl ?_
    refine told.seen_elsewhere ?_ (by rw [here]; nofun) interrupted
    intro running same
    have alert := told.alert running same
    rw [here] at same
    cases same
    rw [passed] at alert
    cases alert
  | closes id result here => exact told.works rfl rfl nofun fun _ _ => .inl rfl
  | ends here => exact told.works rfl rfl nofun fun _ _ => .inl rfl

theorem refusal_mono (refused : (runtime.refusal id).isSome = true)
    (closed : runtime.isClosed = true → next.isClosed = true)
    (stopped : runtime.stopped id = true → next.stopped id = true) :
    (next.refusal id).isSome = true := by
  unfold Runtime.refusal at refused ⊢
  split
  next => rfl
  next opened =>
    rw [if_neg (fun before => opened (closed before))] at refused
    split at refused
    next before => rw [if_pos (stopped before)]; rfl
    next => cases refused

theorem step (told : Told runtime) (bound : Bound runtime) (stepped : Stepped runtime next) :
    Told next := by
  cases stepped with
  | moves id point happened moved => exact told.moved bound moved
  | sends id sending => exact told.sends sending
  | meets id deadline offers receives => exact told.meets offers receives
  | works worked => exact told.worked bound worked
  | stops id =>
    refine told.flags rfl rfl rfl (fun closed => closed) ?_
    intro other refused
    refine refusal_mono refused (fun closed => closed) ?_
    intro stopped
    show Function.update runtime.stopped id true other = true
    rw [Function.update_apply]
    split
    next => rfl
    next => exact stopped
  | closes =>
    refine told.flags rfl rfl rfl (fun closed => closed) ?_
    exact fun _ refused => refusal_mono refused (fun _ => Bool.or_true _) fun stopped => stopped
  | shuts =>
    refine told.flags rfl rfl rfl (fun _ => rfl) ?_
    exact fun _ refused => refusal_mono refused (fun _ => Bool.true_or _) fun stopped => stopped
  | tells | misses | joins =>
    exact told.flags rfl rfl rfl (fun closed => closed) fun _ refused => refused

theorem beginning : Told (.beginning : Runtime ρ) where
  returned := nofun
  single := .nil
  inTime := .nil
  alert := nofun
  seen := nofun
  retired := .nil
  refused later _ _ split := by cases later <;> cases split

end Told

/-! ## Telling the worker -/

/-- Whether the worker may go back to a plain `recv` without a look at the flag: it has
collected, and has not executed a call since. -/
def Worker.heedless : Worker ρ → Bool
  | .waiting deadline | .offering _ deadline => !deadline
  | .collecting => true
  | .expired | .idling | .starting _ | .running _ _ | .retiring _ _ | .replying _ _ | .replied
  | .leaving | .left | .gone => false

/-- Where the queue is full, `Stop` is not sent to a worker that does not look at the flag
by itself. -/
def Runtime.Careful (runtime : Runtime ρ) : Event ρ → Prop
  | .sendStop _ => runtime.queue.length < queueCapacity ∨ runtime.worker.heedless = false
  | .caller _ _ | .send _ | .rendezvous | .worker _ | .stop _ | .closeParent | .shutdown _
  | .join _ => True

/-- A runtime that is shut down is closed, and its worker gets a `Stop` or looks at the
flag. -/
structure Awake (runtime : Runtime ρ) : Prop where
  stopping : ∀ thread, runtime.shutdowns thread = .stopping → runtime.closed = true
  joining : ∀ thread, runtime.shutdowns thread = .joining → runtime.closed = true ∧
    (.stop ∈ runtime.queue ∨ runtime.worker.heedless = false)

namespace Awake

variable {move : WorkerMove ρ}

theorem told_of_workerMove (closed : runtime.closed = true)
    (told : .stop ∈ runtime.queue ∨ runtime.worker.heedless = false)
    (worked : runtime.workerMove move = some next) :
    .stop ∈ next.queue ∨ next.worker.heedless = false := by
  have takes : ∀ (deadline : Bool) command rest, runtime.queue = command :: rest →
      runtime.worker.heedless = !deadline →
      .stop ∈ (runtime.took deadline command rest).queue ∨
        (runtime.took deadline command rest).worker.heedless = false := by
    intro deadline command rest queue heedless
    rw [queue, heedless] at told
    cases command with
    | stop => exact .inr rfl
    | call id =>
      rcases told with member | looks
      · rcases List.mem_cons.mp member with own | member
        · cases own
        · exact .inl member
      · exact .inr looks
  cases move with
  | take | tryTake =>
    simp only [Runtime.workerMove] at worked
    split at worked <;> cases worked
    next here queue => exact takes _ _ _ queue (by rw [here]; rfl)
    all_goals exact .inr rfl
  | idle | look =>
    simp only [Runtime.workerMove] at worked
    split at worked <;> cases worked
    refine .inr ?_
    simp only [Runtime.setWorker, Runtime.isClosed, closed, Bool.true_or, if_true]
    rfl
  | collected =>
    simp only [Runtime.workerMove] at worked
    split at worked <;> cases worked
    next here =>
      rw [here] at told
      rcases told with member | looks
      · exact .inl member
      · cases looks
  | abandon =>
    simp only [Runtime.workerMove] at worked
    split at worked
    next here =>
      split at worked <;> cases worked
      rw [here] at told
      exact told
    next => cases worked
  | start | interrupt | finish =>
    simp only [Runtime.workerMove] at worked
    split at worked
    next =>
      split at worked <;> cases worked
      all_goals exact .inr rfl
    next => cases worked
  | timeout | retire | reply | dropReceiver | close =>
    simp only [Runtime.workerMove] at worked
    split at worked <;> cases worked
    exact .inr rfl

theorem closed_of_workerMove (closed : runtime.closed = true)
    (worked : runtime.workerMove move = some next) :
    next.closed = true ∧ next.shutdowns = runtime.shutdowns := by
  have moved := worked_of_workerMove worked
  cases moved <;> exact ⟨by first | exact closed | rfl, rfl⟩

theorem shutdowns_of_workerMove (worked : runtime.workerMove move = some next) :
    next.shutdowns = runtime.shutdowns := by
  have moved := worked_of_workerMove worked
  cases moved <;> rfl

theorem joins {thread : Nat} {queue : List Command} (awake : Awake runtime)
    (before : runtime.shutdowns thread = .stopping)
    (kept : ∀ command ∈ runtime.queue, command ∈ queue)
    (told : .stop ∈ queue ∨ runtime.worker.heedless = false) :
    Awake { runtime with
      shutdowns := Function.update runtime.shutdowns thread .joining
      queue := queue } := by
  have others : ∀ other point, Function.update runtime.shutdowns thread .joining other = point →
      other = thread ∨ runtime.shutdowns other = point := by
    intro other point here
    by_cases same : other = thread
    · exact .inl same
    · rw [Function.update_of_ne same] at here
      exact .inr here
  constructor
  · intro other here
    rcases others other _ here with rfl | here
    · exact awake.stopping other before
    · exact awake.stopping other here
  · intro other here
    rcases others other _ here with rfl | here
    · exact ⟨awake.stopping other before, told⟩
    · exact ⟨(awake.joining other here).1, (awake.joining other here).2.imp_left (kept _)⟩

theorem step {event : Event ρ} (awake : Awake runtime) (careful : runtime.Careful event)
    (stepped : runtime.step event = some next) : Awake next := by
  cases event with
  | caller id move =>
    simp only [Runtime.step, Option.map_eq_some_iff] at stepped
    obtain ⟨⟨point, happened⟩, _, rfl⟩ := stepped
    exact ⟨awake.stopping, awake.joining⟩
  | send id =>
    simp only [Runtime.step, Runtime.send] at stepped
    split at stepped
    next =>
      split at stepped
      next =>
        split at stepped <;> cases stepped
        next =>
          refine ⟨awake.stopping, ?_⟩
          intro thread here
          obtain ⟨closed, told⟩ := awake.joining thread here
          exact ⟨closed, told.imp_left (List.mem_append_left _)⟩
        next => exact ⟨awake.stopping, awake.joining⟩
      next =>
        cases stepped
        exact ⟨awake.stopping, awake.joining⟩
    next => cases stepped
  | rendezvous =>
    simp only [Runtime.step] at stepped
    split at stepped
    next =>
      split at stepped <;> cases stepped
      exact ⟨awake.stopping, fun thread here => ⟨(awake.joining thread here).1, .inr rfl⟩⟩
    next => cases stepped
  | worker move =>
    have same := shutdowns_of_workerMove stepped
    constructor
    · intro thread here
      rw [same] at here
      exact (closed_of_workerMove (awake.stopping thread here) stepped).1
    · intro thread here
      rw [same] at here
      obtain ⟨closed, told⟩ := awake.joining thread here
      exact ⟨(closed_of_workerMove closed stepped).1, told_of_workerMove closed told stepped⟩
  | stop | closeParent =>
    cases stepped
    exact ⟨awake.stopping, awake.joining⟩
  | shutdown thread =>
    simp only [Runtime.step] at stepped
    split at stepped <;> cases stepped
    refine ⟨fun _ _ => rfl, ?_⟩
    intro other here
    have before : runtime.shutdowns other = .joining := by
      have point : Function.update runtime.shutdowns thread .stopping other = .joining := here
      rw [Function.update_apply] at point
      split at point
      next => cases point
      next => exact point
    exact ⟨rfl, (awake.joining other before).2⟩
  | sendStop thread =>
    simp only [Runtime.step] at stepped
    split at stepped
    next before =>
      split at stepped <;> cases stepped
      next =>
        refine awake.joins before (fun _ => List.mem_append_left _) (.inl ?_)
        exact List.mem_append_right _ List.mem_cons_self
      next refused =>
        refine awake.joins before (fun _ member => member) (.inr ?_)
        rcases careful with room | looks
        · have away : runtime.worker.connected = false := by
            cases connected : runtime.worker.connected with
            | false => rfl
            | true => exact absurd ⟨connected, room⟩ refused
          cases here : runtime.worker <;> rw [here] at away <;> first | rfl | cases away
        · exact looks
    next => cases stepped
  | join thread =>
    simp only [Runtime.step] at stepped
    split at stepped <;> cases stepped
    have others : ∀ other point, point ≠ .ended →
        Function.update runtime.shutdowns thread .ended other = point →
        runtime.shutdowns other = point := by
      intro other point running here
      rw [Function.update_apply] at here
      split at here
      next => exact absurd here.symm running
      next => exact here
    constructor
    · intro other here
      exact awake.stopping other (others other _ (fun same => by cases same) here)
    · intro other here
      exact awake.joining other (others other _ (fun same => by cases same) here)

theorem beginning : Awake (.beginning : Runtime ρ) := ⟨nofun, nofun⟩

theorem not_stuck (awake : Awake runtime) : ¬ Stuck runtime := by
  intro stuck
  obtain ⟨thread, joining⟩ := stuck.joining
  rcases (awake.joining thread joining).2 with member | looks
  · rw [stuck.empty] at member
    cases member
  · rw [stuck.waiting] at looks
    cases looks

end Awake

/-! ## Runs -/

theorem moves_of_calls (bound : Bound runtime) (calls : (runtime.callers id).calls = true) :
    runtime.worker.call = some id ∨
      ∃ event : Event ρ, event.callerId = some id ∧ (runtime.step event).isSome = true := by
  have caller : ∀ (move : CallerMove), (runtime.callerMove id move).isSome = true →
      ∃ event : Event ρ, event.callerId = some id ∧ (runtime.step event).isSome = true := by
    intro move enabled
    refine ⟨.caller id move, rfl, ?_⟩
    rw [Runtime.step, Option.isSome_map]
    exact enabled
  cases here : runtime.callers id with
  | idle | returned =>
    rw [here] at calls
    cases calls
  | validating => exact .inr (caller (.validate true) (by simp [Runtime.callerMove, here]))
  | checking =>
    refine .inr (caller .check ?_)
    simp only [Runtime.callerMove, here]
    split <;> rfl
  | sending =>
    refine .inr ⟨.send id, rfl, ?_⟩
    simp only [Runtime.step, Runtime.send, here]
    split
    · split <;> rfl
    · rfl
  | polling =>
    refine .inr (caller .poll ?_)
    simp only [Runtime.callerMove, here]
    split <;> rfl
  | looking =>
    refine .inr (caller .look ?_)
    simp only [Runtime.callerMove, here]
    split <;> rfl
  | receiving => exact .inr (caller .timeout (by simp [Runtime.callerMove, here]))
  | awaiting =>
    rcases bound.answered id here with replied | executes
    · obtain ⟨result, reply⟩ := Option.isSome_iff_exists.mp replied
      exact .inr (caller .result (by simp [Runtime.callerMove, here, reply]))
    · exact .inl executes

/-- In every run that sends `Stop` where it is heard, calls begin in their order, once,
and while their callers wait; an interruption is the last thing a runtime executes; nobody
gets two results or waits for more than the execution of his own call; and a runtime that
is shut down is left. -/
theorem runtime_promised (path : (Runtime.machine ρ).Path Runtime.Careful .beginning runtime) :
    runtime.Promised := by
  obtain ⟨traced, bound, told, awake⟩ :
      Traced runtime ∧ Bound runtime ∧ Told runtime ∧ Awake runtime := by
    apply path.preserves ⟨.beginning, .beginning, .beginning, .beginning⟩
    rintro state event next ⟨traced, bound, told, awake⟩ careful step
    have stepped := stepped_of_step step
    exact ⟨traced.step stepped, bound.step traced stepped, told.step bound stepped,
      awake.step careful step⟩
  refine ⟨⟨?_, traced.nodup⟩, told.inTime, told.retired, ?_, told.single,
    fun _ => moves_of_calls bound, awake.not_stuck⟩
  · obtain ⟨taken, order, begins⟩ := traced.traced
    rw [order]
    exact begins.trans ((List.sublist_append_right ..).trans (List.sublist_append_right ..))
  · intro later id earlier split retired result member
    have gone := told.returned id result member
    rw [told.refused later id earlier split retired] at gone
    cases gone
    rfl

/-- A call from its beginning to its acceptance. -/
def accepting (id : Nat) : List (Event Unit) :=
  [.caller id .enter, .caller id (.validate true), .caller id .check, .send id]

/-- A call that finishes, one that is interrupted, and a runtime that is shut down. -/
def calledEvents : List (Event Unit) :=
  accepting 0 ++ [.worker .take, .caller 0 .poll, .caller 0 .look, .rendezvous, .worker .start,
    .worker (.finish ()), .worker .reply, .worker .look, .caller 0 .result] ++ accepting 1 ++
  [.worker .take, .caller 1 .poll, .caller 1 .look, .rendezvous, .worker .start, .stop 1,
    .worker .interrupt, .worker (.finish ()), .worker .retire, .worker .reply, .caller 1 .result,
    .shutdown 0, .sendStop 0, .worker .look, .worker .dropReceiver, .worker .close, .join 0]

/-- The careful steps, as a test. -/
def isCareful (runtime : Runtime Unit) : Event Unit → Bool
  | .sendStop _ => decide (runtime.queue.length < queueCapacity) || !runtime.worker.heedless
  | _ => true

theorem careful_of_isCareful (runtime : Runtime Unit) (event : Event Unit)
    (careful : isCareful runtime event = true) : runtime.Careful event := by
  cases event with
  | sendStop thread =>
    simp only [isCareful, Bool.or_eq_true, decide_eq_true_eq, Bool.not_eq_true'] at careful
    exact careful
  | caller | send | rendezvous | worker | stop | closeParent | shutdown | join => trivial

theorem runtime_promised_called :
    ∃ runtime, (Runtime.machine Unit).run .beginning calledEvents = some runtime ∧
      begun runtime.history = [1, 0] ∧ runtime.Promised := by
  have ran : ((Runtime.machine Unit).run .beginning calledEvents).any
      (fun runtime => begun runtime.history = [1, 0]) = true := by
    decide +kernel
  have careful : (Runtime.machine Unit).runMeets isCareful .beginning calledEvents = true := by
    decide +kernel
  obtain ⟨runtime, ended, order⟩ := (Option.any_eq_true _ _).mp ran
  have path := (Machine.path_of_run ended careful).mono careful_of_isCareful
  exact ⟨runtime, ended, of_decide_eq_true order, runtime_promised path⟩

/-- The worker has collected and waits; the queue is full when the runtime is shut down,
and all who have filled it give up. -/
def unheardEvents : List (Event Unit) :=
  [.worker .timeout, .worker .tryTake, .worker .idle, .worker .collected] ++
  (List.range queueCapacity).flatMap accepting ++ [.shutdown 0, .sendStop 0] ++
  (List.range queueCapacity).map (fun id => .caller id .poll) ++
  (List.range queueCapacity).flatMap (fun _ => [.worker .take, .worker .abandon])

/-- The events of the first callers and of one thread that shuts the runtime down. -/
def isNear (_ : Runtime Unit) : Event Unit → Bool
  | .caller id _ | .send id => id < queueCapacity
  | .shutdown thread | .sendStop thread | .join thread => thread = 0
  | .rendezvous => false
  | .worker _ | .stop _ | .closeParent => true

/-- The others have not done anything. -/
structure Untouched (runtime : Runtime Unit) : Prop where
  callers : ∀ id, queueCapacity ≤ id → runtime.callers id = .idle
  shutdowns : ∀ thread, thread ≠ 0 → runtime.shutdowns thread = .idle

namespace Untouched

variable {runtime next : Runtime Unit}

theorem setCaller (untouched : Untouched runtime) (near : id < queueCapacity)
    (point : Caller Unit) (happened : List (Happening Unit)) :
    Untouched (runtime.setCaller id point happened) := by
  refine ⟨?_, untouched.shutdowns⟩
  intro other far
  have different : other ≠ id := by omega
  exact (Function.update_of_ne different ..).trans (untouched.callers other far)

theorem setShutdown (untouched : Untouched runtime) (point : Shutdown) :
    ∀ thread, thread ≠ 0 → Function.update runtime.shutdowns 0 point thread = .idle := by
  intro thread different
  rw [Function.update_of_ne different]
  exact untouched.shutdowns thread different

theorem step {event : Event Unit} (untouched : Untouched runtime)
    (near : isNear runtime event = true) (stepped : runtime.step event = some next) :
    Untouched next := by
  cases event with
  | caller id move =>
    simp only [Runtime.step, Option.map_eq_some_iff] at stepped
    obtain ⟨moved, _, rfl⟩ := stepped
    exact untouched.setCaller (of_decide_eq_true near) _ _
  | send id =>
    have goes := untouched.setCaller (of_decide_eq_true near)
    simp only [Runtime.step, Runtime.send] at stepped
    split at stepped
    next =>
      split at stepped
      next =>
        split at stepped <;> cases stepped
        next => exact ⟨(goes .polling [.accepted id]).callers, untouched.shutdowns⟩
        next => exact goes _ _
      next =>
        cases stepped
        exact goes _ _
    next => cases stepped
  | rendezvous => cases near
  | worker move =>
    have worked := worked_of_workerMove stepped
    cases worked <;> exact ⟨untouched.callers, untouched.shutdowns⟩
  | stop | closeParent =>
    cases stepped
    exact ⟨untouched.callers, untouched.shutdowns⟩
  | shutdown thread | join thread =>
    obtain rfl : thread = 0 := of_decide_eq_true near
    simp only [Runtime.step] at stepped
    split at stepped <;> cases stepped
    exact ⟨untouched.callers, untouched.setShutdown _⟩
  | sendStop thread =>
    obtain rfl : thread = 0 := of_decide_eq_true near
    simp only [Runtime.step] at stepped
    split at stepped
    next =>
      split at stepped <;> cases stepped
      · exact ⟨untouched.callers, untouched.setShutdown _⟩
      · exact ⟨untouched.callers, untouched.setShutdown _⟩
    next => cases stepped

end Untouched

/-- Whether a runtime is stuck, as far as its first callers and its first thread go. -/
def isStuck (runtime : Runtime Unit) : Bool :=
  runtime.closed && runtime.shutdowns 0 = .joining && runtime.worker = .waiting false &&
    runtime.queue = [] &&
    (List.range queueCapacity).all fun id => !(runtime.callers id).sends

/-- The thread that shuts the runtime down waits for ever. -/
theorem runtime_unpromised :
    ¬ ∀ runtime, (Runtime.machine Unit).Path Machine.anyStep .beginning runtime →
      runtime.Promised := by
  intro promised
  have ran : ((Runtime.machine Unit).run .beginning unheardEvents).any isStuck = true := by
    decide +kernel
  have near : (Runtime.machine Unit).runMeets isNear .beginning unheardEvents = true := by
    decide +kernel
  obtain ⟨runtime, ended, stuck⟩ := (Option.any_eq_true isStuck _).mp ran
  have untouched : Untouched runtime := by
    apply (Machine.path_of_run ended near).preserves ⟨fun _ _ => rfl, fun _ _ => rfl⟩
    intro state event next held near stepped
    exact held.step near stepped
  simp only [isStuck, Bool.and_eq_true, decide_eq_true_eq, List.all_eq_true, List.mem_range,
    Bool.not_eq_true'] at stuck
  obtain ⟨⟨⟨⟨closed, joining⟩, waiting⟩, empty⟩, callers⟩ := stuck
  refine (promised runtime (Machine.anyPath_of_run ended)).wakes
    ⟨closed, ⟨0, joining⟩, waiting, empty, ?_, ?_⟩
  · intro id
    rcases Nat.lt_or_ge id queueCapacity with near | far
    · exact callers id near
    · rw [untouched.callers id far]
      rfl
  · intro thread
    by_cases first : thread = 0
    · rw [first, joining]
      nofun
    · rw [untouched.shutdowns thread first]
      nofun

end LosslessMusic.Extensions.Calls
