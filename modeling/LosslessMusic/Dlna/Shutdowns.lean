import LosslessMusic.Dlna.ControllerRuns

/-!
# Which runs are shut down

`shutDown` decides in one section and acts in another, and does not remember the run it
was decided for. Where no run opens in between that it must not touch, it leaves the
runs alone that it should.
-/

namespace LosslessMusic.Dlna

open Transition

/-- `stop` or `onNetworkChanged`. -/
def Caller.isOutside : Caller → Bool
  | .stop | .network _ => true
  | _ => false

/-- A shutdown of the right run: not by an `onNetworkChanged` for the address it is
bound to, and not by a call from outside that has cancelled an earlier run, if the
`start` of this one was called after the cancelled run had ended. -/
structure Shutdown.IsRight (shutdown : Shutdown) : Prop where
  address : ∀ ip, shutdown.caller = .network (some ip) → shutdown.boundIp ≠ ip
  later : shutdown.caller.isOutside = true → ∀ cancelled, shutdown.cancelled = some cancelled →
    shutdown.run ≠ cancelled → shutdown.issued < cancelled

namespace Point

/-- An `onNetworkChanged` for the address has decided and not acted. -/
def decidedFor (ip : String) : Point → Bool
  | .shutting (.network currentLanIp) | .awaiting (.network currentLanIp) _ =>
    currentLanIp = some ip
  | _ => false

/-- A call from outside waits, and the run it has cancelled had ended when `issued` runs
had. -/
def waitsSince (issued : Nat) : Point → Bool
  | .awaiting caller cancelled => caller.isOutside && cancelled ≤ issued
  | _ => false

end Point

namespace Server

/-- No run opens at an address for which an `onNetworkChanged` has decided and not
acted, and none by a `start` that was called after a run had ended whose canceller still
waits. -/
def opensAlone (s : Server) : Event → Bool
  | .call position _ =>
    match s.calls[position]? with
    | some (.opening request issued) => !s.controller.opens request || s.calls.all fun point =>
      !point.decidedFor request.lanIp && !point.waitsSince issued
    | _ => true
  | _ => true

/-- What the waiting calls may still touch, and what has been shut down so far. -/
structure Decided (s : Server) : Prop where
  address : s.controller.isUp = true → ∀ point ∈ s.calls,
    point.decidedFor s.controller.boundIp = false
  waiting : s.controller.isUp = true → ∀ caller cancelled,
    .awaiting caller cancelled ∈ s.calls → caller.isOutside = true →
      s.controller.run ≠ cancelled → s.controller.issued < cancelled
  right : ∀ shutdown ∈ s.controller.shutdowns, shutdown.IsRight

end Server

variable {caller : Caller} {request : Request} {issued : Nat} {cancelled : Option Nat}

namespace Controller

variable {c next : Controller} {point after : Point}

/-- What a step of a call shuts down: nothing, or the run that is up, decided by this
call. -/
inductive Shuts (c next : Controller) (point after : Point) : Prop
  | nothing (shutdowns : next.shutdowns = c.shutdowns)
      (decided : ∀ ip, after.decidedFor ip = false ∨ point.decidedFor ip = true)
      (waiting : ∀ caller cancelled, after = .awaiting caller cancelled → point = after)
  | cancels {caller : Caller} (from_ : point = .shutting caller)
      (to_ : after = .awaiting caller c.run) (up : c.isUp = true) (run : next.run = c.run)
      (shutdowns : next.shutdowns = ⟨caller, none, c.run, c.boundIp, c.issued⟩ :: c.shutdowns)
  | takes {caller : Caller} {cancelled : Option Nat}
      (from_ : cancelled = none ∧ point = .shutting caller ∨
        ∃ run, cancelled = some run ∧ point = .awaiting caller run)
      (up : c.isUp = true) (down : next.isUp = false)
      (shutdowns : next.shutdowns = ⟨caller, cancelled, c.run, c.boundIp, c.issued⟩ :: c.shutdowns)

theorem Shuts.other (shutdowns : next.shutdowns = c.shutdowns)
    (decided : ∀ ip, after.decidedFor ip = false)
    (waiting : ∀ caller cancelled, after ≠ .awaiting caller cancelled) : Shuts c next point after :=
  .nothing shutdowns (fun ip => .inl (decided ip))
    fun caller cancelled same => absurd same (waiting caller cancelled)

theorem Shuts.stays (shutdowns : next.shutdowns = c.shutdowns) : Shuts c next point point := by
  refine .nothing shutdowns ?_ fun _ _ _ => rfl
  intro ip
  cases decided : point.decidedFor ip with
  | false => exact .inl rfl
  | true => exact .inr rfl

theorem resume_decides (caller : Caller) : (∀ ip, (resume caller).decidedFor ip = false) ∧
      ∀ other cancelled, resume caller ≠ .awaiting other cancelled := by
  cases caller <;> exact ⟨fun _ => rfl, fun _ _ => by simp [resume]⟩

theorem shuts_of_take (from_ : cancelled = none ∧ point = .shutting caller ∨
      ∃ run, cancelled = some run ∧ point = .awaiting caller run) :
    Shuts c (c.take caller cancelled).1 point (c.take caller cancelled).2 := by
  unfold take
  split
  · have shutdowns : (c.acknowledge caller).shutdowns = c.shutdowns := by
      unfold acknowledge
      split <;> rfl
    exact .other shutdowns (resume_decides caller).1 (resume_decides caller).2
  next running =>
    rw [ne_eq, not_not] at running
    refine .takes from_ ?_ rfl rfl
    simp [isUp, running]

theorem shuts_of_shut : Shuts c (c.shut caller).1 (.shutting caller) (c.shut caller).2 := by
  unfold shut
  split
  · exact .other rfl (resume_decides caller).1 (resume_decides caller).2
  · split
    · exact .stays rfl
    · split
      next starting =>
        refine .cancels rfl rfl ?_ rfl rfl
        simp [isUp, starting]
      · exact shuts_of_take (.inl ⟨rfl, rfl⟩)

theorem shuts_of_enter : Shuts c (c.enter request issued).1 point (c.enter request issued).2 := by
  unfold enter
  split
  · exact .other rfl (fun _ => rfl) (fun _ _ => by simp)
  · split
    · exact .other rfl (fun _ => rfl) (fun _ _ => by simp)
    · exact .other rfl (fun _ => rfl) (fun _ _ => by simp)

theorem shuts_of_openRun :
    Shuts c (c.openRun request issued).1 point (c.openRun request issued).2 := by
  unfold openRun
  split
  · exact .other rfl (fun _ => rfl) (fun _ _ => by simp)
  · split
    · exact .other rfl (fun _ => rfl) (fun _ _ => by simp)
    · split
      · exact .other rfl (fun _ => rfl) (fun _ _ => by simp)
      · exact .other rfl (fun _ => rfl) (fun _ _ => by simp)

theorem shuts_of_conclude {candidate : Option Nat} {failure : Option String}
    {startedUrl : String} : Shuts c (c.conclude candidate failure startedUrl).1 point
      (c.conclude candidate failure startedUrl).2 := by
  unfold conclude
  split
  · exact .other rfl (fun _ => rfl) (fun _ _ => by simp)
  · exact .other rfl (fun _ => rfl) (fun _ _ => by simp)

theorem shuts_of_act {answer : Answer}
    (stepped : c.act answer point = some (next, after)) : Shuts c next point after := by
  have first : ∀ {moved : Controller × Point}, some moved = some (next, after) →
      Shuts c moved.1 point moved.2 → Shuts c next point after := by
    intro moved same shuts
    rwa [Option.some.inj same] at shuts
  have plain : ∀ {moved : Controller × Point}, some moved = some (next, after) →
      moved.1.shutdowns = c.shutdowns → (∀ ip, moved.2.decidedFor ip = false) →
      (∀ caller cancelled, moved.2 ≠ .awaiting caller cancelled) → Shuts c next point after :=
    fun same shutdowns decided waiting => first same (.other shutdowns decided waiting)
  cases point with
  | entering request issued => exact first stepped shuts_of_enter
  | opening request issued => exact first stepped shuts_of_openRun
  | acquiring | creating | launching _ =>
    simp only [act] at stepped
    split at stepped <;> exact plain stepped rfl (fun _ => rfl) (by simp)
  | registering _ | hooking _ | unlocking _ | settling _ | answering =>
    exact plain stepped rfl (fun _ => rfl) (by simp)
  | concluding candidate failure startedUrl => exact first stepped shuts_of_conclude
  | cleaning candidate failure =>
    cases candidate with
    | none => exact plain stepped rfl (fun _ => rfl) (by simp)
    | some candidate =>
      simp only [act] at stepped
      split at stepped <;> exact plain stepped rfl (fun _ => rfl) (by simp)
  | shutting caller => exact first stepped shuts_of_shut
  | awaiting caller cancelled =>
    simp only [act] at stepped
    split at stepped
    · exact first stepped (.stays rfl)
    · exact first stepped (shuts_of_take (.inr ⟨cancelled, rfl, rfl⟩))
  | tearing caller active release failure =>
    cases active <;> exact plain stepped rfl (fun _ => rfl) (by simp)
  | freeing caller release failure =>
    cases release <;> exact plain stepped rfl (fun _ => rfl) (by simp)
  | ending caller failure =>
    exact plain stepped rfl (resume_decides caller).1 (resume_decides caller).2
  | answered status => cases stepped
  | done => cases stepped

end Controller

namespace Server

variable {s next : Server}

variable {point : Point}

theorem Decided.addCall (decided : s.Decided)
    (address : s.controller.isUp = true → point.decidedFor s.controller.boundIp = false)
    (waiting : ∀ caller cancelled, point ≠ .awaiting caller cancelled) :
    (s.addCall point).Decided where
  address := by
    intro up other member
    rcases List.mem_append.mp member with before | last
    · exact decided.address up other before
    · rw [List.mem_singleton.mp last]
      exact address up
  waiting := by
    intro up caller cancelled member outside later
    rcases List.mem_append.mp member with before | last
    · exact decided.waiting up caller cancelled before outside later
    · exact absurd (List.mem_singleton.mp last).symm (waiting caller cancelled)
  right := decided.right

theorem Decided.isRight
    (decided : s.Decided) (up : s.controller.isUp = true) (member : point ∈ s.calls)
    (from_ : cancelled = none ∧ point = .shutting caller ∨
      ∃ run, cancelled = some run ∧ point = .awaiting caller run) :
    Shutdown.IsRight ⟨caller, cancelled, s.controller.run, s.controller.boundIp,
      s.controller.issued⟩ where
  address := by
    rintro ip rfl bound
    have free := decided.address up point member
    rcases from_ with ⟨_, rfl⟩ | ⟨run, _, rfl⟩
    · simp [Point.decidedFor, ← bound] at free
    · simp [Point.decidedFor, ← bound] at free
  later := by
    intro outside run isCancelled later
    rcases from_ with ⟨none, _⟩ | ⟨waited, same, rfl⟩
    · rw [none] at isCancelled
      cases isCancelled
    · rw [same, Option.some.injEq] at isCancelled
      subst isCancelled
      exact decided.waiting up caller waited member outside later

variable {after : Point} {controller : Controller}

theorem Decided.shut (decided : s.Decided)
    (member : point ∈ s.calls) (shuts : s.controller.Shuts controller point after) :
    ∀ shutdown ∈ controller.shutdowns, shutdown.IsRight := by
  intro shutdown isMember
  cases shuts with
  | nothing shutdowns _ _ =>
    rw [shutdowns] at isMember
    exact decided.right shutdown isMember
  | cancels from_ _ up _ shutdowns =>
    rw [shutdowns] at isMember
    rcases List.mem_cons.mp isMember with rfl | before
    · exact decided.isRight up member (.inl ⟨rfl, from_⟩)
    · exact decided.right shutdown before
  | takes from_ up _ shutdowns =>
    rw [shutdowns] at isMember
    rcases List.mem_cons.mp isMember with rfl | before
    · exact decided.isRight up member from_
    · exact decided.right shutdown before

variable {position : Nat}

/-- A step that opens no run leaves the calls with what they had decided. -/
theorem Decided.unopened (decided : s.Decided) (member : point ∈ s.calls)
    (shuts : s.controller.Shuts controller point after)
    (up : controller.isUp = true → s.controller.isUp = true)
    (boundIp : controller.isUp = true → controller.boundIp = s.controller.boundIp)
    (run : controller.run = s.controller.run) (issued : controller.issued = s.controller.issued) :
    Decided { controller, calls := s.calls.set position after } where
  address := by
    intro isUp other isMember
    simp only at isUp ⊢
    rw [boundIp isUp]
    have free := decided.address (up isUp)
    rcases List.mem_or_eq_of_mem_set isMember with before | rfl
    · exact free other before
    · cases shuts with
      | nothing _ kept _ =>
        rcases kept s.controller.boundIp with no | yes
        · exact no
        · rw [free point member] at yes
          cases yes
      | @cancels caller from_ to_ _ _ _ =>
        have before := free point member
        rw [from_] at before
        rw [to_]
        cases caller <;> exact before
      | takes _ _ down _ =>
        rw [isUp] at down
        cases down
  waiting := by
    intro isUp caller cancelled isMember outside later
    simp only at isUp later ⊢
    rw [run] at later
    rw [issued]
    have waits := decided.waiting (up isUp) caller cancelled
    rcases List.mem_or_eq_of_mem_set isMember with before | last
    · exact waits before outside later
    · cases shuts with
      | nothing _ _ kept =>
        rw [← kept caller cancelled last.symm] at last
        rw [← last] at member
        exact waits member outside later
      | cancels _ to_ _ _ _ =>
        rw [to_] at last
        exact absurd (Point.awaiting.inj last).2.symm later
      | takes _ _ down _ =>
        rw [isUp] at down
        cases down
  right := decided.shut member shuts

/-- A run that opens alone is touched by no call that waits. -/
theorem Decided.opened (decided : s.Decided) (member : .opening request issued ∈ s.calls)
    (shuts : s.controller.Shuts controller (.opening request issued) after)
    (alone : ∀ point ∈ s.calls, point.decidedFor request.lanIp = false ∧
      point.waitsSince issued = false)
    (boundIp : controller.boundIp = request.lanIp) (isIssued : controller.issued = issued) :
    Decided { controller, calls := s.calls.set position after } := by
  have quiet : (∀ ip, after.decidedFor ip = false) ∧
      ∀ caller cancelled, after ≠ .awaiting caller cancelled := by
    cases shuts with
    | nothing _ kept waiting =>
      refine ⟨fun ip => ?_, fun caller cancelled same => ?_⟩
      · rcases kept ip with no | yes
        · exact no
        · cases yes
      · rw [← waiting caller cancelled same] at same
        cases same
    | cancels from_ _ _ _ _ => cases from_
    | takes from_ _ _ _ =>
      rcases from_ with ⟨_, same⟩ | ⟨_, _, same⟩
      · cases same
      · cases same
  constructor
  · intro _ other isMember
    simp only
    rw [boundIp]
    rcases List.mem_or_eq_of_mem_set isMember with before | rfl
    · exact (alone other before).1
    · exact quiet.1 request.lanIp
  · intro _ caller cancelled isMember outside _
    simp only
    rw [isIssued]
    rcases List.mem_or_eq_of_mem_set isMember with before | last
    · have free := (alone _ before).2
      simpa [Point.waitsSince, outside] using free
    · exact absurd last.symm (quiet.2 caller cancelled)
  · exact decided.shut member shuts

/-- A step of a call that opens no run in between keeps all that. -/
theorem Decided.act {answer : Answer} (decided : s.Decided) (balanced : s.Balanced)
    (here : s.calls[position]? = some point) (alone : s.opensAlone (.call position answer) = true)
    (stepped : s.controller.act answer point = some (controller, after)) :
    Decided { controller, calls := s.calls.set position after } := by
  have member := List.mem_of_getElem? here
  have shuts := Controller.shuts_of_act stepped
  cases Controller.recorded_of_act stepped with
  | kept _ _ run boundIp issued up _ _ =>
    exact decided.unopened member shuts up boundIp run issued
  | @opened request issued isOpening opens _ _ _ _ boundIp isIssued =>
    subst isOpening
    refine decided.opened member shuts ?_ boundIp isIssued
    simp only [opensAlone, here, opens, Bool.not_true, Bool.false_or, List.all_eq_true,
      Bool.and_eq_true, Bool.not_eq_true'] at alone
    exact alone
  | cameUp concludes _ _ run boundIp issued _ _ =>
    have starting := (balanced.serves member).starting concludes
    refine decided.unopened member shuts (fun _ => ?_) (fun _ => boundIp) run issued
    simp [Controller.isUp, starting]

/-- Every step of a run in which runs open alone keeps what is decided. -/
theorem Decided.step {event : Event} (decided : s.Decided) (balanced : s.Balanced)
    (alone : s.opensAlone event = true) (stepped : s.step event = some next) : next.Decided := by
  cases event with
  | start _ | stop =>
    cases stepped
    exact decided.addCall (fun _ => rfl) (by simp)
  | onNetworkChanged currentLanIp =>
    cases stepped
    unfold Server.onNetworkChanged
    split
    next decides =>
      refine decided.addCall (fun _ => ?_) (by simp)
      rw [Bool.and_eq_true] at decides
      simpa [Point.decidedFor] using decides.2
    · exact decided
  | failRuntime source reason =>
    obtain ⟨runtime, _, reported⟩ := Option.bind_eq_some_iff.mp stepped
    rw [Option.ite_none_right_eq_some] at reported
    obtain rfl := Option.some.inj reported.2
    simp only [Server.failRuntime]
    split
    · split
      · exact decided
      · exact ⟨decided.address, decided.waiting, decided.right⟩
    · split
      · exact decided
      · exact decided.addCall (fun _ => rfl) (by simp)
  | call position answer =>
    obtain ⟨point, here, moves⟩ := Option.bind_eq_some_iff.mp stepped
    obtain ⟨⟨controller, after⟩, acted, rfl⟩ := Option.map_eq_some_iff.mp moves
    exact decided.act balanced here alone acted

/-- In a run in which runs open alone every shutdown is one of the right run. -/
theorem shutdowns_right (s : Server)
    (reachable : machine.Reachable (fun s event => s.opensAlone event = true) s) :
    ∀ shutdown ∈ s.controller.shutdowns, shutdown.IsRight := by
  have decided : s.Decided := by
    apply reachable.invariant
    · rintro _ rfl
      constructor <;> simp [new]
    · intro state event next before decided alone stepped
      have balanced := balanced_of_reachable (before.mono fun _ _ _ => trivial)
      exact decided.step balanced alone stepped
  exact decided.right

/-- A step of a call in which nothing throws. -/
def clean (position : Nat) : Event :=
  .call position ⟨none, ""⟩

/-- A controller that comes up and is stopped. -/
def startedAndStopped : List Event :=
  started "192.168.1.2" 0 ++ .stop :: List.replicate 4 (clean 1)

/-- A `stop` takes down the run that is up. -/
theorem shutdowns_right_stopped :
    ∃ s : Server, (∀ shutdown ∈ s.controller.shutdowns, shutdown.IsRight) ∧
      s.controller.shutdowns.map Shutdown.run = [1] := by
  obtain ⟨s, reachable, stopped⟩ := machine.exists_reachable_of_runMeets
    (fun s => decide (s.controller.shutdowns.map Shutdown.run = [1])) rfl
    (by decide +kernel : machine.runMeets opensAlone new startedAndStopped = true)
    (by decide +kernel)
  exact ⟨s, shutdowns_right s reachable, of_decide_eq_true stopped⟩

/-- While a network change for the new address has decided, a `start` restarts there. -/
def restartedBetween : List Event :=
  started "192.168.1.2" 0 ++ [.onNetworkChanged (some "192.168.1.3"),
    .start ⟨"/music", "Music", "192.168.1.3"⟩] ++ List.replicate 13 (clean 2) ++ [clean 1]

/-- A `stop` cancels a start and still waits when the next `start` has come up. -/
def restartedBeforeWaking : List Event :=
  [.start ⟨"/music", "Music", "192.168.1.2"⟩, clean 0, clean 0, .stop, clean 1] ++
    List.replicate 10 (clean 0) ++ [.start ⟨"/music", "Music", "192.168.1.2"⟩] ++
    List.replicate 8 (clean 2) ++ [clean 1]

/-- The network change takes down the run bound to its own address, and the `stop` takes
down a run whose start was called after the cancelled one had ended. -/
theorem shutdowns_of_later_runs : (∃ s : Server, machine.Reachable Transition.Machine.anyStep s ∧
      ∃ shutdown ∈ s.controller.shutdowns, shutdown.caller = .network (some "192.168.1.3") ∧
        shutdown.boundIp = "192.168.1.3" ∧ ¬ shutdown.IsRight) ∧
    (∃ s : Server, machine.Reachable Transition.Machine.anyStep s ∧
      ∃ shutdown ∈ s.controller.shutdowns, (shutdown.caller = .stop ∧
        shutdown.cancelled = some 1 ∧ shutdown.run = 2 ∧ shutdown.issued = 1) ∧
          ¬ shutdown.IsRight) := by
  constructor
  · obtain ⟨s, reachable, found⟩ := machine.exists_reachable_of_run
      (fun s => s.controller.shutdowns.any fun shutdown => decide
        (shutdown.caller = .network (some "192.168.1.3") ∧ shutdown.boundIp = "192.168.1.3")) rfl
      (by decide +kernel : (machine.run new restartedBetween).any _ = true)
    obtain ⟨shutdown, member, wrong⟩ := List.any_eq_true.mp found
    obtain ⟨caller, boundIp⟩ := of_decide_eq_true wrong
    exact ⟨s, reachable, shutdown, member, caller, boundIp,
      fun right => right.address _ caller boundIp⟩
  · obtain ⟨s, reachable, found⟩ := machine.exists_reachable_of_run
      (fun s => s.controller.shutdowns.any fun shutdown => decide (shutdown.caller = .stop ∧
        shutdown.cancelled = some 1 ∧ shutdown.run = 2 ∧ shutdown.issued = 1)) rfl
      (by decide +kernel : (machine.run new restartedBeforeWaking).any _ = true)
    obtain ⟨shutdown, member, wrong⟩ := List.any_eq_true.mp found
    have wrong := of_decide_eq_true wrong
    refine ⟨s, reachable, shutdown, member, wrong, ?_⟩
    intro right
    obtain ⟨caller, cancelled, run, issued⟩ := wrong
    have earlier := right.later (by rw [caller]; rfl) 1 cancelled (by rw [run]; decide)
    omega

end Server

end LosslessMusic.Dlna
