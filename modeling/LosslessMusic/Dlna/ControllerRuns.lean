import LosslessMusic.Dlna.Resources

/-!
# Runs of the media server controller

The balance of the resources over all calls, and the record of failures and of runs
that came up. A report that arrives during a start is pending when the start ends.
-/

namespace LosslessMusic.Dlna

open Transition

namespace Controller

/-- A run is up or about to be. -/
def isUp (c : Controller) : Bool :=
  c.current = .starting || c.current = .running

/-- The second section of `start` opens a run. -/
def opens (c : Controller) (request : Request) : Bool :=
  c.current ≠ .stopping && !c.isUp && !Text.isBlank request.lanIp

/-- What a step of a call does to the runs: nothing that matters, it opens one, or one
comes up. -/
inductive Recorded (c next : Controller) (point : Point) : Prop
  | kept (reported : next.reported = c.reported) (ran : next.ran = c.ran)
      (run : next.run = c.run) (boundIp : next.isUp = true → next.boundIp = c.boundIp)
      (issued : next.issued = c.issued) (up : next.isUp = true → c.isUp = true)
      (starting : next.current = .starting → c.current = .starting)
      (pending : c.pendingFailure.isSome = true → next.pendingFailure.isSome = true)
  | opened {request : Request} {issued : Nat} (at_ : point = .opening request issued)
      (opens : c.opens request = true) (current : next.current = .starting)
      (reported : next.reported = c.reported) (ran : next.ran = c.ran)
      (run : next.run = c.run + 1) (boundIp : next.boundIp = request.lanIp)
      (isIssued : next.issued = issued)
  | cameUp (concludes : point.isStarting = true) (reported : next.reported = c.reported)
      (ran : next.ran = c.run :: c.ran) (run : next.run = c.run)
      (boundIp : next.boundIp = c.boundIp) (issued : next.issued = c.issued)
      (current : next.current = .running) (clean : c.pendingFailure = none)

variable {c next : Controller} {point after : Point}

theorem Recorded.same : Recorded c c point :=
  .kept rfl rfl rfl (fun _ => rfl) rfl (fun up => up) (fun starting => starting)
    (fun pending => pending)

theorem Recorded.fields (reported : next.reported = c.reported) (ran : next.ran = c.ran)
    (run : next.run = c.run) (boundIp : next.boundIp = c.boundIp)
    (issued : next.issued = c.issued) (current : next.current = c.current)
    (pending : next.pendingFailure = c.pendingFailure) : Recorded c next point := by
  have up : next.isUp = c.isUp := by
    unfold isUp
    rw [current]
  exact .kept reported ran run (fun _ => boundIp) issued (fun isUp => by rwa [← up])
    (fun starting => by rwa [← current]) (fun isPending => by rwa [pending])

theorem Recorded.down (reported : next.reported = c.reported) (ran : next.ran = c.ran)
    (run : next.run = c.run) (issued : next.issued = c.issued) (down : next.isUp = false)
    (pending : next.pendingFailure = c.pendingFailure) : Recorded c next point := by
  have notUp : next.isUp ≠ true := by simp [down]
  refine .kept reported ran run (fun up => absurd up notUp) issued (fun up => absurd up notUp)
    ?_ (fun isPending => by rwa [pending])
  intro starting
  exact absurd (by simp [isUp, starting]) notUp

theorem recorded_of_enter {request : Request} {issued : Nat} :
    Recorded c (c.enter request issued).1 point := by
  unfold enter
  split
  · exact .same
  · split <;> exact .same

theorem recorded_of_openRun {request : Request} {issued : Nat} :
    Recorded c (c.openRun request issued).1 (.opening request issued) := by
  unfold openRun
  split
  · exact .same
  next notStopping =>
    split
    · exact .same
    next idle =>
      split
      · exact .down rfl rfl rfl rfl rfl rfl
      next filled =>
        rw [Bool.or_comm, ← isUp] at idle
        refine .opened rfl ?_ rfl rfl rfl rfl rfl rfl
        simp [opens, notStopping, idle, filled]

theorem recorded_of_conclude {candidate : Option Nat} {failure : Option String}
    {startedUrl : String} : Recorded c (c.conclude candidate failure startedUrl).1
      (.concluding candidate failure startedUrl) := by
  unfold conclude
  split
  next clean =>
    refine .cameUp rfl rfl rfl rfl rfl rfl rfl ?_
    cases pending : c.pendingFailure with
    | none => rfl
    | some reason => cases failure <;> simp [startFailure, pending] at clean
  · exact .down rfl rfl rfl rfl rfl rfl

theorem recorded_of_take {caller : Caller} {cancelled : Option Nat} :
    Recorded c (c.take caller cancelled).1 point := by
  unfold take
  split
  · unfold acknowledge
    split
    · exact .down rfl rfl rfl rfl rfl rfl
    · exact .same
  · exact .down rfl rfl rfl rfl rfl rfl

theorem recorded_of_shut {caller : Caller} : Recorded c (c.shut caller).1 point := by
  unfold shut
  split
  · exact .same
  · split
    · exact .same
    · split
      next starting =>
        refine .kept rfl rfl rfl (fun _ => rfl) rfl (fun up => up) (fun starting => starting) ?_
        intro pending
        simp [pending]
      · exact recorded_of_take

theorem recorded_of_act {answer : Answer}
    (stepped : c.act answer point = some (next, after)) : Recorded c next point := by
  have first : ∀ {moved : Controller × Point}, some moved = some (next, after) →
      Recorded c moved.1 point → Recorded c next point := by
    intro moved same recorded
    rwa [Option.some.inj same] at recorded
  cases point with
  | entering request issued => exact first stepped recorded_of_enter
  | opening request issued => exact first stepped recorded_of_openRun
  | acquiring | creating | launching _ =>
    simp only [act] at stepped
    split at stepped <;> exact first stepped (.fields rfl rfl rfl rfl rfl rfl rfl)
  | registering _ | hooking _ | unlocking _ =>
    exact first stepped (.fields rfl rfl rfl rfl rfl rfl rfl)
  | concluding candidate failure startedUrl => exact first stepped recorded_of_conclude
  | cleaning candidate failure =>
    cases candidate with
    | none => exact first stepped .same
    | some candidate =>
      simp only [act] at stepped
      split at stepped <;> exact first stepped (.fields rfl rfl rfl rfl rfl rfl rfl)
  | settling failure =>
    refine first stepped (.down rfl rfl rfl rfl ?_ rfl)
    simp only [isUp, settle]
    split <;> rfl
  | answering => exact first stepped .same
  | shutting caller => exact first stepped recorded_of_shut
  | awaiting caller cancelled =>
    simp only [act] at stepped
    split at stepped
    · exact first stepped .same
    · exact first stepped recorded_of_take
  | tearing caller active release failure =>
    cases active with
    | none => exact first stepped .same
    | some active => exact first stepped (.fields rfl rfl rfl rfl rfl rfl rfl)
  | freeing caller release failure =>
    cases release with
    | false => exact first stepped .same
    | true => exact first stepped (.fields rfl rfl rfl rfl rfl rfl rfl)
  | ending caller failure =>
    refine first stepped (.down rfl rfl rfl rfl ?_ rfl)
    cases failure <;> rfl
  | answered status => cases stepped
  | done => cases stepped

/-- The record of failures and runs: a failure reported during the present start is
pending, and a run whose start has heard of a failure has not come up. -/
structure Reports (c : Controller) : Prop where
  pending : c.current = .starting → c.run ∈ c.reported → c.pendingFailure.isSome = true
  ran : ∀ run ∈ c.ran, run ≤ c.run ∧ (run = c.run → c.current ≠ .starting)
  reported : ∀ run ∈ c.reported, run ≤ c.run
  apart : ∀ run ∈ c.reported, run ∉ c.ran

theorem Reports.recorded (reports : c.Reports) (serves : c.Serves point)
    (recorded : Recorded c next point) : next.Reports := by
  cases recorded with
  | kept reported ran run _ _ _ isStarting pending =>
    constructor
    · intro starts member
      rw [reported, run] at member
      exact pending (reports.pending (isStarting starts) member)
    · intro earlier member
      rw [ran] at member
      obtain ⟨before, other⟩ := reports.ran earlier member
      rw [run]
      exact ⟨before, fun same starts => other same (isStarting starts)⟩
    · intro earlier member
      rw [reported] at member
      rw [run]
      exact reports.reported earlier member
    · intro earlier member
      rw [reported] at member
      rw [ran]
      exact reports.apart earlier member
  | opened _ _ _ reported ran run =>
    constructor
    · intro _ member
      rw [reported, run] at member
      have before := reports.reported _ member
      omega
    · intro earlier member
      rw [ran] at member
      have before := (reports.ran earlier member).1
      rw [run]
      exact ⟨by omega, fun same => by omega⟩
    · intro earlier member
      rw [reported] at member
      have before := reports.reported earlier member
      rw [run]
      omega
    · intro earlier member
      rw [reported] at member
      rw [ran]
      exact reports.apart earlier member
  | cameUp concludes reported ran run _ _ current clean =>
    have notReported : c.run ∉ c.reported := by
      intro member
      have pending := reports.pending (serves.starting concludes) member
      rw [clean] at pending
      cases pending
    constructor
    · intro starts
      rw [current] at starts
      cases starts
    · intro earlier member
      rw [run]
      refine ⟨?_, fun _ => by simp [current]⟩
      rw [ran] at member
      rcases List.mem_cons.mp member with rfl | before
      · exact Nat.le_refl _
      · exact (reports.ran earlier before).1
    · intro earlier member
      rw [reported] at member
      rw [run]
      exact reports.reported earlier member
    · intro earlier member
      rw [reported] at member
      rw [ran, List.mem_cons, not_or]
      refine ⟨?_, reports.apart earlier member⟩
      rintro rfl
      exact notReported member

end Controller

namespace Server

/-- What the fields and the calls hold together, over all calls. -/
structure Balanced (s : Server) : Prop where
  settled : s.controller.Settled
  starting : s.calls.countP Point.isStarting = (decide (s.controller.current = .starting)).toNat
  stopping : s.calls.countP Point.isStopping = (decide (s.controller.current = .stopping)).toNat
  locks : s.controller.acquires =
    s.controller.releases + s.calls.countP Point.owesLock + s.controller.heldLock.toNat
  runtimes : ∀ id, (Controller.isUnstopped s.controller.runtimes id).toNat =
    s.calls.countP (fun point => decide (point.owned = some id)) +
      (decide (s.controller.runtime = some id)).toNat
  started : ∀ point ∈ s.calls, s.controller.HasStarted point
  running : ∀ id, s.controller.runtime = some id →
    Controller.isStarted s.controller.runtimes id = true
  reports : s.controller.Reports

variable {s next : Server}

theorem Balanced.serves {point : Point} (balanced : s.Balanced) (member : point ∈ s.calls) :
    s.controller.Serves point where
  starting := by
    intro starts
    have positive := List.countP_pos_iff.mpr ⟨point, member, starts⟩
    rw [balanced.starting] at positive
    by_contra other
    rw [decide_eq_false other] at positive
    exact absurd positive (Nat.lt_irrefl 0)
  stopping := by
    intro stops
    have positive := List.countP_pos_iff.mpr ⟨point, member, stops⟩
    rw [balanced.stopping] at positive
    by_contra other
    rw [decide_eq_false other] at positive
    exact absurd positive (Nat.lt_irrefl 0)
  owned := by
    intro id owns
    have positive : 0 < s.calls.countP (fun point => decide (point.owned = some id)) :=
      List.countP_pos_iff.mpr ⟨point, member, decide_eq_true owns⟩
    have counted := balanced.runtimes id
    cases unstopped : Controller.isUnstopped s.controller.runtimes id with
    | true => rfl
    | false =>
      rw [unstopped, Bool.toNat_false] at counted
      omega
  started := balanced.started point member

theorem Balanced.addCall {point : Point} (balanced : s.Balanced)
    (starting : point.isStarting = false) (stopping : point.isStopping = false)
    (owesLock : point.owesLock = false) (owned : point.owned = none)
    (launched : s.controller.HasStarted point) : (s.addCall point).Balanced where
  settled := balanced.settled
  starting := by
    simp only [Server.addCall, List.countP_append, List.countP_singleton, starting]
    exact balanced.starting
  stopping := by
    simp only [Server.addCall, List.countP_append, List.countP_singleton, stopping]
    exact balanced.stopping
  locks := by
    simp only [Server.addCall, List.countP_append, List.countP_singleton, owesLock]
    exact balanced.locks
  runtimes := by
    intro id
    simp only [Server.addCall, List.countP_append, List.countP_singleton, owned]
    exact balanced.runtimes id
  started := by
    intro other member
    rcases List.mem_append.mp member with before | last
    · exact balanced.started other before
    · rw [List.mem_singleton.mp last]
      exact launched
  running := balanced.running
  reports := balanced.reports

theorem Balanced.act {position : Nat} {point after : Point} {answer : Answer}
    {controller : Controller} (balanced : s.Balanced) (here : s.calls[position]? = some point)
    (stepped : s.controller.act answer point = some (controller, after)) :
    Balanced { controller, calls := s.calls.set position after } := by
  have serves := balanced.serves (List.mem_of_getElem? here)
  have moved := Controller.moved_of_act balanced.settled serves stepped
  constructor
  · exact moved.settled
  · have counted := countP_set_add (p := Point.isStarting) after here
    have before := balanced.starting
    have shares := moved.starting
    simp only
    omega
  · have counted := countP_set_add (p := Point.isStopping) after here
    have before := balanced.stopping
    have shares := moved.stopping
    simp only
    omega
  · have counted := countP_set_add (p := Point.owesLock) after here
    have before := balanced.locks
    have shares := moved.locks
    simp only
    omega
  · intro id
    have counted := countP_set_add (p := fun point => decide (point.owned = some id)) after here
    have before := balanced.runtimes id
    have shares := moved.runtimes id
    simp only at counted ⊢
    omega
  · intro other member
    rcases List.mem_or_eq_of_mem_set member with before | rfl
    · intro candidate startedUrl same
      obtain ⟨id, isCandidate, isStarted⟩ := balanced.started other before candidate startedUrl same
      exact ⟨id, isCandidate, moved.started id isStarted⟩
    · exact moved.launched
  · intro id isRuntime
    rcases moved.running id isRuntime with before | started
    · exact moved.started id (balanced.running id before)
    · exact started
  · exact balanced.reports.recorded serves (Controller.recorded_of_act stepped)

theorem Balanced.failRuntime {source : Nat} {reason : String} (balanced : s.Balanced) :
    (s.failRuntime source reason).Balanced := by
  simp only [Server.failRuntime]
  split
  next starting =>
    split
    · exact balanced
    · have reports := balanced.reports
      exact
        { settled := ⟨balanced.settled.runtime, balanced.settled.heldLock⟩
          starting := balanced.starting
          stopping := balanced.stopping
          locks := balanced.locks
          runtimes := balanced.runtimes
          started := balanced.started
          running := balanced.running
          reports :=
            { pending := fun _ _ => by simp
              ran := reports.ran
              reported := fun run member => by
                rcases List.mem_cons.mp member with rfl | before
                · exact Nat.le_refl _
                · exact reports.reported run before
              apart := fun run member cameUp => by
                rcases List.mem_cons.mp member with rfl | before
                · exact (reports.ran _ cameUp).2 rfl starting
                · exact reports.apart run before cameUp } }
  · split
    · exact balanced
    · exact balanced.addCall rfl rfl rfl rfl (.of_ne (by simp))

theorem Balanced.step {event : Event} (balanced : s.Balanced)
    (stepped : s.step event = some next) : next.Balanced := by
  cases event with
  | start _ | stop =>
    cases stepped
    exact balanced.addCall rfl rfl rfl rfl (.of_ne (by simp))
  | onNetworkChanged currentLanIp =>
    cases stepped
    unfold Server.onNetworkChanged
    split
    · exact balanced.addCall rfl rfl rfl rfl (.of_ne (by simp))
    · exact balanced
  | failRuntime source reason =>
    obtain ⟨runtime, _, reported⟩ := Option.bind_eq_some_iff.mp stepped
    rw [Option.ite_none_right_eq_some] at reported
    obtain rfl := Option.some.inj reported.2
    exact balanced.failRuntime
  | call position answer =>
    obtain ⟨point, here, moves⟩ := Option.bind_eq_some_iff.mp stepped
    obtain ⟨⟨controller, after⟩, acted, rfl⟩ := Option.map_eq_some_iff.mp moves
    exact balanced.act here acted

theorem balanced_of_reachable
    (reachable : machine.Reachable Transition.Machine.anyStep s) : s.Balanced := by
  apply reachable.invariant
  · rintro _ rfl
    constructor <;> simp [new, Controller.isUnstopped]
    · exact ⟨rfl, rfl⟩
    · exact ⟨by simp, by simp, by simp, by simp⟩
  · intro state event next _ balanced _ stepped
    exact balanced.step stepped

theorem owns_one {first second : Nat} (different : first ≠ second) (owned : Option Nat) :
    (decide (owned = some first)).toNat + (decide (owned = some second)).toNat ≤
      owned.isSome.toNat := by
  cases owned with
  | none => simp
  | some id =>
    by_cases same : id = first
    · simp [same, different]
    · have one := Bool.toNat_le (decide (some id = some second))
      simpa [same] using one

/-- Two runtimes that have not been stopped would have two owners. -/
theorem Balanced.one_unstopped {first second : Nat} (balanced : s.Balanced)
    (isFirst : Controller.isUnstopped s.controller.runtimes first = true)
    (isSecond : Controller.isUnstopped s.controller.runtimes second = true) : first = second := by
  by_contra different
  have ofFirst := balanced.runtimes first
  have ofSecond := balanced.runtimes second
  rw [isFirst, Bool.toNat_true] at ofFirst
  rw [isSecond, Bool.toNat_true] at ofSecond
  have owners := countP_add_countP_le (p := fun point => decide (point.owned = some first))
    (q := fun point => decide (point.owned = some second)) (r := Point.isStarting)
    (t := Point.isStopping) s.calls (by
      intro point
      have one := owns_one different point.owned
      cases owned : point.owned with
      | none => simp
      | some id =>
        rw [owned, Option.isSome_some, Bool.toNat_true] at one
        rcases Point.isStarting_or_isStopping_of_owned owned with starts | stops
        · rw [starts, Bool.toNat_true]
          omega
        · rw [stops, Bool.toNat_true]
          omega)
  have fields := owns_one different s.controller.runtime
  rw [balanced.starting, balanced.stopping] at owners
  rw [balanced.settled.runtime] at fields
  cases current : s.controller.current <;>
    simp only [current, reduceCtorEq, decide_false, decide_true, Bool.toNat_false,
      Bool.toNat_true] at owners fields <;> omega

/-- Unless a start or a shutdown is under way no call owns anything. -/
theorem Balanced.nobody {p : Point → Bool} (balanced : s.Balanced)
    (notStarting : s.controller.current ≠ .starting)
    (notStopping : s.controller.current ≠ .stopping)
    (atWork : ∀ point, p point = true → point.isStarting = true ∨ point.isStopping = true) :
    s.calls.countP p = 0 := by
  have starting := balanced.starting
  have stopping := balanced.stopping
  rw [decide_eq_false notStarting, Bool.toNat_false, List.countP_eq_zero] at starting
  rw [decide_eq_false notStopping, Bool.toNat_false, List.countP_eq_zero] at stopping
  rw [List.countP_eq_zero]
  intro point member holds
  rcases atWork point holds with starts | stops
  · exact starting point member starts
  · exact stopping point member stops

/-- The resources in a state: (a) one live runtime and one lock at most, (b) with the
controller running exactly one of both, (c) none of either at rest, and (d) no run that
has come up although a failure was reported during its start. -/
structure HoldsResources (s : Server) : Prop where
  one_lock : s.controller.releases ≤ s.controller.acquires ∧
    s.controller.acquires ≤ s.controller.releases + 1
  one_live : ∀ first second, s.controller.isLive first = true →
    s.controller.isLive second = true → first = second
  running : s.controller.current = .running → (∃! id, s.controller.isLive id = true) ∧
      s.controller.acquires = s.controller.releases + 1
  rest : s.controller.current = .stopped ∨ s.controller.current.isFailed = true →
    (∀ runtime ∈ s.controller.runtimes, runtime.stopped = true) ∧
      s.controller.acquires = s.controller.releases
  heard : ∀ run ∈ s.controller.reported, run ∉ s.controller.ran

/-- Whatever throws and however the calls interleave, the controller holds exactly the
resources of its run. -/
theorem holdsResources (s : Server)
    (reachable : machine.Reachable Transition.Machine.anyStep s) : s.HoldsResources := by
  have balanced := balanced_of_reachable reachable
  constructor
  · have owed := countP_add_countP_le (p := Point.owesLock) (q := fun _ => false)
      (r := Point.isStarting) (t := Point.isStopping) s.calls (by
        intro point
        cases owes : point.owesLock with
        | false => simp
        | true =>
          rcases Point.isStarting_or_isStopping_of_owesLock owes with starts | stops
          · simp [starts]
          · simp [stops])
    have locks := balanced.locks
    rw [balanced.starting, balanced.stopping] at owed
    rw [balanced.settled.heldLock] at locks
    cases current : s.controller.current <;>
      simp only [current, reduceCtorEq, decide_false, decide_true, Bool.toNat_false,
        Bool.toNat_true] at owed locks <;> omega
  · intro first second isFirst isSecond
    unfold Controller.isLive at isFirst isSecond
    rw [Bool.and_eq_true] at isFirst isSecond
    exact balanced.one_unstopped isFirst.2 isSecond.2
  · intro running
    obtain ⟨id, isRuntime⟩ := Option.isSome_iff_exists.mp
      (balanced.settled.runtime.trans (decide_eq_true running))
    have counted := balanced.runtimes id
    have unstopped : Controller.isUnstopped s.controller.runtimes id = true := by
      by_contra other
      rw [Bool.not_eq_true] at other
      simp [other, isRuntime] at counted
    have live : s.controller.isLive id = true := by
      unfold Controller.isLive
      rw [balanced.running id isRuntime, unstopped]
      rfl
    refine ⟨⟨id, live, ?_⟩, ?_⟩
    · intro other isLive
      simp only [Controller.isLive, Bool.and_eq_true] at isLive
      exact balanced.one_unstopped isLive.2 unstopped
    · rw [balanced.locks, balanced.nobody (by simp [running]) (by simp [running])
        fun _ => Point.isStarting_or_isStopping_of_owesLock, balanced.settled.heldLock,
        decide_eq_true running]
      rfl
  · intro rest
    have away : s.controller.current ≠ .starting ∧ s.controller.current ≠ .stopping ∧
        s.controller.current ≠ .running := by
      rcases rest with stopped | failed
      · simp [stopped]
      · cases current : s.controller.current <;> simp [current, ServerState.isFailed] at failed ⊢
    obtain ⟨noRuntime, noLock⟩ := balanced.settled.idle away.2.2
    constructor
    · intro runtime member
      obtain ⟨id, present⟩ := List.mem_iff_getElem?.mp member
      have counted := balanced.runtimes id
      rw [balanced.nobody away.1 away.2.1 fun _ owns =>
        Point.isStarting_or_isStopping_of_owned (of_decide_eq_true owns), noRuntime] at counted
      simpa [Controller.isUnstopped, present] using counted
    · rw [balanced.locks, balanced.nobody away.1 away.2.1
        fun _ => Point.isStarting_or_isStopping_of_owesLock, noLock]
      rfl
  · exact balanced.reports.apart

/-- A start at which nothing throws. -/
def started (lanIp : String) (position : Nat) : List Event :=
  .start ⟨"/music", "Music", lanIp⟩ ::
    List.replicate 8 (.call position ⟨none, "http://" ++ lanIp ++ ":8200"⟩)

/-- A controller that has come up holds one runtime and one lock. -/
theorem holdsResources_started :
    ∃ s : Server, s.HoldsResources ∧ s.controller.current = .running := by
  obtain ⟨s, reachable, running⟩ := machine.exists_reachable_of_run
    (fun s => decide (s.controller.current = .running)) rfl
    (by decide +kernel : (machine.run new (started "192.168.1.2" 0)).any _ = true)
  exact ⟨s, holdsResources s reachable, of_decide_eq_true running⟩

end Server

end LosslessMusic.Dlna
