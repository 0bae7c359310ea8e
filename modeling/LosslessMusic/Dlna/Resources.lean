import LosslessMusic.Dlna.Controller

/-!
# The resources of the media server controller

At most one call is between the section that begins a start and the section that ends
it, or takes a run down; it owns the runtime and the lock meanwhile, and the fields own
them while the controller is running. A step passes them on or gives them back.
-/

namespace LosslessMusic.Dlna

open Transition

namespace Point

/-- The call is in a start that others see as `STARTING`. -/
def isStarting : Point → Bool
  | .acquiring | .creating | .registering _ | .hooking _ | .launching _
  | .concluding _ _ _ => true
  | _ => false

/-- The call takes a run down, which others see as `STOPPING`. -/
def isStopping : Point → Bool
  | .cleaning _ _ | .unlocking _ | .settling _ | .tearing _ _ _ _ | .freeing _ _ _
  | .ending _ _ => true
  | _ => false

/-- The call owes a `releaseLock()`. -/
def owesLock : Point → Bool
  | .creating | .registering _ | .hooking _ | .launching _ | .concluding _ _ _
  | .cleaning _ _ | .unlocking _ => true
  | .tearing _ _ release _ | .freeing _ release _ => release
  | _ => false

/-- The runtime that the call has to stop or to pass on. -/
def owned : Point → Option Nat
  | .registering active | .hooking active | .launching active => some active
  | .concluding candidate _ _ | .cleaning candidate _ => candidate
  | .tearing _ active _ _ => active
  | _ => none

theorem isStarting_or_isStopping_of_owned {point : Point} {id : Nat}
    (owns : point.owned = some id) : point.isStarting = true ∨ point.isStopping = true := by
  cases point <;> first
    | exact .inl rfl
    | exact .inr rfl
    | cases owns

theorem isStarting_or_isStopping_of_owesLock {point : Point} (owes : point.owesLock = true) :
    point.isStarting = true ∨ point.isStopping = true := by
  cases point <;> first
    | exact .inl rfl
    | exact .inr rfl
    | cases owes

end Point

namespace Controller

/-- The runtime has been created and not stopped. -/
def isUnstopped (runtimes : List Runtime) (id : Nat) : Bool :=
  (runtimes[id]?).any fun runtime => !runtime.stopped

/-- The runtime has been started. -/
def isStarted (runtimes : List Runtime) (id : Nat) : Bool :=
  (runtimes[id]?).any Runtime.started

/-- A runtime that has been started and not stopped. -/
def isLive (c : Controller) (id : Nat) : Bool :=
  isStarted c.runtimes id && isUnstopped c.runtimes id

section Runtimes

variable {runtimes : List Runtime} {active id : Nat} {change : Runtime → Runtime}

theorem isUnstopped_modify (stopped : ∀ runtime, (change runtime).stopped = runtime.stopped) :
    isUnstopped (runtimes.modify active change) id = isUnstopped runtimes id := by
  unfold isUnstopped
  rw [List.getElem?_modify]
  cases runtimes[id]? with
  | none => rfl
  | some runtime => split <;> simp [stopped]

theorem isStarted_modify
    (started : ∀ runtime : Runtime, runtime.started = true → (change runtime).started = true)
    (isStarted : isStarted runtimes id = true) :
    Controller.isStarted (runtimes.modify active change) id = true := by
  unfold Controller.isStarted at isStarted ⊢
  rw [List.getElem?_modify]
  cases present : runtimes[id]? with
  | none => simp [present] at isStarted
  | some runtime =>
    rw [present] at isStarted
    split
    · exact started runtime isStarted
    · exact isStarted

theorem isUnstopped_stop : isUnstopped (runtimes.modify active ({ · with stopped := true })) id =
      (isUnstopped runtimes id && decide (active ≠ id)) := by
  unfold isUnstopped
  rw [List.getElem?_modify]
  by_cases same : active = id
  · cases runtimes[id]? <;> simp [same]
  · cases runtimes[id]? <;> simp [same]

end Runtimes

/-- A start that has not failed has started its runtime. -/
def HasStarted (c : Controller) (point : Point) : Prop :=
  ∀ candidate startedUrl, point = .concluding candidate none startedUrl →
    ∃ id, candidate = some id ∧ isStarted c.runtimes id = true

/-- What the fields say about the state. -/
structure Settled (c : Controller) : Prop where
  runtime : c.runtime.isSome = decide (c.current = .running)
  heldLock : c.heldLock = decide (c.current = .running)

/-- What a call at work may rely on. -/
structure Serves (c : Controller) (point : Point) : Prop where
  starting : point.isStarting = true → c.current = .starting
  stopping : point.isStopping = true → c.current = .stopping
  owned : ∀ id, point.owned = some id → isUnstopped c.runtimes id = true
  started : c.HasStarted point

/-- What a step of a call does: every share that the fields lose the call gains. -/
structure Moved (c next : Controller) (point after : Point) : Prop where
  starting : (decide (next.current = .starting)).toNat + point.isStarting.toNat =
    (decide (c.current = .starting)).toNat + after.isStarting.toNat
  stopping : (decide (next.current = .stopping)).toNat + point.isStopping.toNat =
    (decide (c.current = .stopping)).toNat + after.isStopping.toNat
  settled : next.Settled
  locks : next.acquires + c.releases + c.heldLock.toNat + point.owesLock.toNat =
    c.acquires + next.releases + next.heldLock.toNat + after.owesLock.toNat
  runtimes : ∀ id, (isUnstopped next.runtimes id).toNat + (decide (c.runtime = some id)).toNat +
      (decide (point.owned = some id)).toNat =
    (isUnstopped c.runtimes id).toNat + (decide (next.runtime = some id)).toNat +
      (decide (after.owned = some id)).toNat
  started : ∀ id, isStarted c.runtimes id = true → isStarted next.runtimes id = true
  running : ∀ id, next.runtime = some id → c.runtime = some id ∨ isStarted next.runtimes id = true
  launched : next.HasStarted after

variable {c next : Controller} {point after : Point}

theorem Settled.idle (settled : c.Settled) (idle : c.current ≠ .running) :
    c.runtime = none ∧ c.heldLock = false := by
  have runtime := settled.runtime
  have heldLock := settled.heldLock
  rw [decide_eq_false idle] at runtime heldLock
  exact ⟨Option.isSome_eq_false_iff.mp runtime |> Option.isNone_iff_eq_none.mp, heldLock⟩

theorem HasStarted.of_ne (no : ∀ candidate startedUrl,
    point ≠ .concluding candidate none startedUrl) : c.HasStarted point :=
  fun candidate startedUrl same => absurd same (no candidate startedUrl)

theorem Moved.quiet (settled : c.Settled)
    (kept : ∀ state ∈ [ServerState.starting, .stopping, .running],
      next.current = state ↔ c.current = state)
    (runtime : next.runtime = c.runtime) (heldLock : next.heldLock = c.heldLock)
    (acquires : next.acquires = c.acquires) (releases : next.releases = c.releases)
    (runtimes : next.runtimes = c.runtimes) (starting : after.isStarting = point.isStarting)
    (stopping : after.isStopping = point.isStopping) (owesLock : after.owesLock = point.owesLock)
    (owned : after.owned = point.owned) (launched : next.HasStarted after) :
    Moved c next point after where
  starting := by
    rw [decide_eq_decide.mpr (kept .starting (by simp)), starting]
  stopping := by
    rw [decide_eq_decide.mpr (kept .stopping (by simp)), stopping]
  settled := by
    have running : decide (next.current = .running) = decide (c.current = .running) :=
      decide_eq_decide.mpr (kept .running (by simp))
    constructor
    · rw [runtime, running]
      exact settled.runtime
    · rw [heldLock, running]
      exact settled.heldLock
  locks := by rw [acquires, releases, heldLock, owesLock]
  runtimes := by
    intro id
    rw [runtimes, runtime, owned]
  started := by
    intro id started
    rwa [runtimes]
  running := by
    intro id isRuntime
    rw [runtime] at isRuntime
    exact .inl isRuntime
  launched := launched

theorem Moved.same (settled : c.Settled) (starting : after.isStarting = point.isStarting)
    (stopping : after.isStopping = point.isStopping) (owesLock : after.owesLock = point.owesLock)
    (owned : after.owned = point.owned) (launched : c.HasStarted after) : Moved c c point after :=
  .quiet settled (fun _ _ => Iff.rfl) rfl rfl rfl rfl rfl starting stopping owesLock owned launched

/-- A change of one runtime that keeps whether it has been stopped. -/
theorem Moved.changed {active : Nat} (settled : c.Settled) {change : Runtime → Runtime}
    (stopped : ∀ runtime, (change runtime).stopped = runtime.stopped)
    (started : ∀ runtime : Runtime, runtime.started = true → (change runtime).started = true)
    (starting : after.isStarting = point.isStarting)
    (stopping : after.isStopping = point.isStopping) (owesLock : after.owesLock = point.owesLock)
    (owned : after.owned = point.owned) (launched : (c.setRuntime active change).HasStarted after) :
    Moved c (c.setRuntime active change) point after where
  starting := by rw [starting]; rfl
  stopping := by rw [stopping]; rfl
  settled := ⟨settled.runtime, settled.heldLock⟩
  locks := by rw [owesLock]; rfl
  runtimes := by
    intro id
    simp only [setRuntime, isUnstopped_modify stopped, owned]
    rfl
  started := fun _ isStarted => isStarted_modify started isStarted
  running := fun _ isRuntime => .inl isRuntime
  launched := launched

theorem Moved.stopped {active : Nat} (settled : c.Settled) (owns : point.owned = some active)
    (unstopped : isUnstopped c.runtimes active = true)
    (starting : after.isStarting = point.isStarting)
    (stopping : after.isStopping = point.isStopping) (owesLock : after.owesLock = point.owesLock)
    (owned : after.owned = none) (launched : ∀ next : Controller, next.HasStarted after) :
    Moved c (c.setRuntime active ({ · with stopped := true })) point after where
  starting := by rw [starting]; rfl
  stopping := by rw [stopping]; rfl
  settled := ⟨settled.runtime, settled.heldLock⟩
  locks := by rw [owesLock]; rfl
  runtimes := by
    intro id
    simp only [setRuntime, isUnstopped_stop, owns, owned]
    by_cases same : active = id
    · subst same
      simp only [unstopped, ne_eq, not_true_eq_false, decide_false, Bool.and_false,
        Bool.toNat_false, decide_true, Bool.toNat_true, reduceCtorEq]
      rw [Nat.zero_add, Nat.add_zero]
      exact Nat.add_comm _ 1
    · simp only [ne_eq, same, not_false_eq_true, decide_true, Bool.and_true,
        Option.some.injEq, decide_false, reduceCtorEq]
      rfl
  started := fun _ isStarted => isStarted_modify (fun _ started => started) isStarted
  running := fun _ isRuntime => .inl isRuntime
  launched := launched _

/-! ## The sections -/

theorem moved_of_enter (settled : c.Settled) (request : Request) (issued : Nat) :
    Moved c (c.enter request issued).1 (.entering request issued) (c.enter request issued).2 := by
  unfold enter
  split
  · exact .same settled rfl rfl rfl rfl (.of_ne (by simp))
  · split
    · exact .same settled rfl rfl rfl rfl (.of_ne (by simp))
    · exact .same settled rfl rfl rfl rfl (.of_ne (by simp))

theorem moved_of_openRun (settled : c.Settled) (request : Request) (issued : Nat) :
    Moved c (c.openRun request issued).1 (.opening request issued)
      (c.openRun request issued).2 := by
  unfold openRun
  split
  · exact .same settled rfl rfl rfl rfl (.of_ne (by simp))
  next notStopping =>
    split
    · exact .same settled rfl rfl rfl rfl (.of_ne (by simp))
    next idle =>
      simp only [Bool.or_eq_true, decide_eq_true_eq, not_or] at idle
      obtain ⟨notRunning, notStarting⟩ := idle
      have noRuntime := settled.runtime
      have noLock := settled.heldLock
      split
      · refine .quiet settled ?_ rfl rfl rfl rfl rfl rfl rfl rfl rfl (.of_ne (by simp))
        simp [notStopping, notRunning, notStarting]
      · exact
          { starting := by
              rw [decide_eq_false notStarting]
              rfl
            stopping := by
              rw [decide_eq_false notStopping]
              rfl
            settled := by constructor <;> simp_all
            locks := rfl
            runtimes := fun _ => rfl
            started := fun _ started => started
            running := fun _ isRuntime => .inl isRuntime
            launched := .of_ne (by simp) }

theorem moved_of_conclude {candidate : Option Nat} {failure : Option String} {startedUrl : String}
    (settled : c.Settled) (starting : c.current = .starting)
    (launched : c.HasStarted (.concluding candidate failure startedUrl)) :
    Moved c (c.conclude candidate failure startedUrl).1 (.concluding candidate failure startedUrl)
      (c.conclude candidate failure startedUrl).2 := by
  obtain ⟨noRuntime, noLock⟩ := settled.idle (by simp [starting])
  unfold conclude
  split
  next clean =>
    have noFailure : failure = none := by
      cases failure with
      | none => rfl
      | some failure => simp [startFailure] at clean
    subst noFailure
    obtain ⟨id, rfl, isStarted⟩ := launched candidate startedUrl rfl
    exact
      { starting := by rw [starting]; rfl
        stopping := by rw [starting]; rfl
        settled := by constructor <;> simp
        locks := by
          rw [noLock]
          rfl
        runtimes := fun other => by
          rw [noRuntime]
          exact Nat.add_right_comm _ _ _
        started := fun _ started => started
        running := fun other isRuntime => by
          cases isRuntime
          exact .inr isStarted
        launched := .of_ne (by simp) }
  next reason _ =>
    exact
      { starting := by rw [starting]; rfl
        stopping := by rw [starting]; rfl
        settled := by constructor <;> simp [noRuntime, noLock]
        locks := rfl
        runtimes := fun _ => rfl
        started := fun _ started => started
        running := fun other isRuntime => .inl isRuntime
        launched := .of_ne (by simp) }

/-- A run that is taken down passes what the fields held to the call. -/
theorem moved_of_take {caller : Caller} {cancelled : Option Nat}
    (settled : c.Settled) (starting : point.isStarting = false)
    (stopping : point.isStopping = false) (owesLock : point.owesLock = false)
    (owned : point.owned = none) :
    Moved c (c.take caller cancelled).1 point (c.take caller cancelled).2 := by
  have resumes : (resume caller).isStarting = false ∧ (resume caller).isStopping = false ∧
      (resume caller).owesLock = false ∧ (resume caller).owned = none ∧
      ∀ next : Controller, next.HasStarted (resume caller) := by
    cases caller <;> exact ⟨rfl, rfl, rfl, rfl, fun _ => .of_ne (by simp [resume])⟩
  obtain ⟨noStarting, noStopping, noLock, noRuntime, launched⟩ := resumes
  unfold take
  split
  next notRunning =>
    have kept : ∀ state ∈ [ServerState.starting, .stopping, .running],
        (c.acknowledge caller).current = state ↔ c.current = state := by
      intro state member
      unfold acknowledge
      split
      next clears =>
        rw [Bool.and_eq_true] at clears
        cases current : c.current with
        | failed reason =>
          simp only [List.mem_cons, List.not_mem_nil, or_false] at member
          rcases member with rfl | rfl | rfl <;> simp
        | _ =>
          simp [current, ServerState.isFailed] at clears
      · exact Iff.rfl
    have same : ∀ {α : Type} (field : Controller → α),
        (∀ current, field { c with current } = field c) →
        field (c.acknowledge caller) = field c := by
      intro α field kept
      unfold acknowledge
      split
      · exact kept _
      · rfl
    exact .quiet settled kept (same Controller.runtime fun _ => rfl)
      (same Controller.heldLock fun _ => rfl) (same Controller.acquires fun _ => rfl)
      (same Controller.releases fun _ => rfl) (same Controller.runtimes fun _ => rfl)
      (noStarting.trans starting.symm) (noStopping.trans stopping.symm)
      (noLock.trans owesLock.symm) (noRuntime.trans owned.symm) (launched _)
  next running =>
    rw [ne_eq, not_not] at running
    have isRuntime := settled.runtime
    have isHeld := settled.heldLock
    exact
      { starting := by rw [running, starting]; rfl
        stopping := by rw [running, stopping]; rfl
        settled := by constructor <;> simp
        locks := by
          rw [owesLock]
          simp only [Point.owesLock, Bool.toNat_false]
          omega
        runtimes := fun other => by
          rw [owned]
          exact Nat.add_right_comm _ _ _
        started := fun _ started => started
        running := fun other isRuntime => by cases isRuntime
        launched := .of_ne (by simp) }

theorem moved_of_shut {caller : Caller} (settled : c.Settled) :
    Moved c (c.shut caller).1 (.shutting caller) (c.shut caller).2 := by
  unfold shut
  split
  · cases caller <;> exact .same settled rfl rfl rfl rfl (.of_ne (by simp [resume]))
  · split
    · exact .same settled rfl rfl rfl rfl (.of_ne (by simp))
    · split
      next starting =>
        exact .quiet settled (fun _ _ => Iff.rfl) rfl rfl rfl rfl rfl rfl rfl rfl rfl
          (.of_ne (by simp))
      · exact moved_of_take settled rfl rfl rfl rfl

theorem moved_of_ended {point after : Point} (settled : c.Settled) (current : c.current = .stopping)
    (rest : next.current = .stopped ∨ ∃ reason, next.current = .failed reason)
    (runtime : next.runtime = none) (heldLock : next.heldLock = false)
    (acquires : next.acquires = c.acquires) (releases : next.releases = c.releases)
    (runtimes : next.runtimes = c.runtimes) (stopping : point.isStopping = true)
    (starting : point.isStarting = false) (owesLock : point.owesLock = false)
    (owned : point.owned = none) (quiet : after.isStarting = false ∧ after.isStopping = false ∧
      after.owesLock = false ∧ after.owned = none) (launched : next.HasStarted after) :
    Moved c next point after := by
  obtain ⟨noRuntime, noLock⟩ := settled.idle (by simp [current])
  obtain ⟨notStarting, notStopping, noLockLeft, nothingOwned⟩ := quiet
  have away : next.current ≠ .starting ∧ next.current ≠ .stopping ∧ next.current ≠ .running := by
    rcases rest with stopped | ⟨reason, failed⟩
    · simp [stopped]
    · simp [failed]
  exact
    { starting := by simp [away.1, current, starting, notStarting]
      stopping := by simp [away.2.1, current, stopping, notStopping]
      settled := by constructor <;> simp [runtime, heldLock, away.2.2]
      locks := by rw [acquires, releases, heldLock, noLock, owesLock, noLockLeft]
      runtimes := fun id => by rw [runtimes, runtime, noRuntime, owned, nothingOwned]
      started := fun id started => by rwa [runtimes]
      running := fun id isRuntime => by
        rw [runtime] at isRuntime
        cases isRuntime
      launched := launched }

theorem moved_of_create (settled : c.Settled) :
    Moved c { c with runtimes := c.runtimes ++ [⟨false, false, false⟩] } .creating
      (.registering c.runtimes.length) where
  starting := rfl
  stopping := rfl
  settled := ⟨settled.runtime, settled.heldLock⟩
  locks := rfl
  runtimes := by
    intro id
    have unstopped : (isUnstopped (c.runtimes ++ [⟨false, false, false⟩]) id).toNat =
        (isUnstopped c.runtimes id).toNat + (decide (some c.runtimes.length = some id)).toNat := by
      unfold isUnstopped
      rcases Nat.lt_trichotomy id c.runtimes.length with before | rfl | behind
      · rw [List.getElem?_append_left before]
        simp [Nat.ne_of_gt before]
      · simp
      · rw [List.getElem?_eq_none (by simp; omega), List.getElem?_eq_none (by omega)]
        simp [Nat.ne_of_lt behind]
    simp only [unstopped]
    exact (Nat.add_zero _).trans (Nat.add_right_comm _ _ _)
  started := by
    intro id started
    unfold isStarted at started ⊢
    have inside : id < c.runtimes.length := by
      by_contra beyond
      rw [List.getElem?_eq_none (by omega)] at started
      cases started
    rwa [List.getElem?_append_left inside]
  running := fun _ isRuntime => .inl isRuntime
  launched := .of_ne (by simp)

theorem moved_of_act {answer : Answer} (settled : c.Settled) (serves : c.Serves point)
    (stepped : c.act answer point = some (next, after)) : Moved c next point after := by
  cases point with
  | entering request issued =>
    obtain ⟨rfl, rfl⟩ := Prod.mk.inj (Option.some.inj stepped)
    exact moved_of_enter settled request issued
  | opening request issued =>
    obtain ⟨rfl, rfl⟩ := Prod.mk.inj (Option.some.inj stepped)
    exact moved_of_openRun settled request issued
  | acquiring =>
    have acquired : ∀ after : Point, after.isStarting = true → after.isStopping = false →
        after.owesLock = true → after.owned = none →
        ({ c with acquires := c.acquires + 1 } : Controller).HasStarted after →
        Moved c { c with acquires := c.acquires + 1 } .acquiring after := by
      intro after starting stopping owesLock owned launched
      exact
        { starting := by rw [starting]; rfl
          stopping := by rw [stopping]; rfl
          settled := ⟨settled.runtime, settled.heldLock⟩
          locks := by
            rw [owesLock]
            simp only [Point.owesLock, Bool.toNat_false, Bool.toNat_true]
            omega
          runtimes := fun _ => by rw [owned]; rfl
          started := fun _ started => started
          running := fun _ isRuntime => .inl isRuntime
          launched }
    simp only [act] at stepped
    split at stepped
    · cases stepped
      exact acquired _ rfl rfl rfl rfl (.of_ne (by simp))
    · cases stepped
      exact acquired _ rfl rfl rfl rfl (.of_ne (by simp))
  | creating =>
    simp only [act] at stepped
    split at stepped
    · cases stepped
      exact moved_of_create settled
    · cases stepped
      exact .same settled rfl rfl rfl rfl (.of_ne (by simp))
  | registering active =>
    cases stepped
    exact .quiet settled (fun _ _ => Iff.rfl) rfl rfl rfl rfl rfl rfl rfl rfl rfl (.of_ne (by simp))
  | hooking active =>
    cases stepped
    exact .changed settled (fun _ => rfl) (fun _ started => started) rfl rfl rfl rfl
      (.of_ne (by simp))
  | launching active =>
    have unstopped := serves.owned active rfl
    have launched : isStarted (c.setRuntime active ({ · with started := true })).runtimes active =
        true := by
      unfold isUnstopped at unstopped
      simp only [isStarted, setRuntime, List.getElem?_modify]
      cases present : c.runtimes[active]? with
      | none => simp [present] at unstopped
      | some runtime => simp
    simp only [act] at stepped
    split at stepped
    · cases stepped
      refine .changed settled (fun _ => rfl) (fun _ _ => rfl) rfl rfl rfl rfl ?_
      rintro candidate startedUrl same
      obtain ⟨rfl, _⟩ := Point.concluding.inj same
      exact ⟨active, rfl, launched⟩
    · cases stepped
      exact .changed settled (fun _ => rfl) (fun _ _ => rfl) rfl rfl rfl rfl (.of_ne (by simp))
  | concluding candidate failure startedUrl =>
    obtain ⟨rfl, rfl⟩ := Prod.mk.inj (Option.some.inj stepped)
    exact moved_of_conclude settled (serves.starting rfl) serves.started
  | cleaning candidate failure =>
    cases candidate with
    | none =>
      cases stepped
      exact .same settled rfl rfl rfl rfl (.of_ne (by simp))
    | some candidate =>
      have unstopped := serves.owned candidate rfl
      simp only [act] at stepped
      split at stepped
      · cases stepped
        exact .stopped settled rfl unstopped rfl rfl rfl rfl fun _ => .of_ne (by simp)
      · cases stepped
        exact .stopped settled rfl unstopped rfl rfl rfl rfl fun _ => .of_ne (by simp)
  | unlocking failure =>
    cases stepped
    exact
      { starting := rfl
        stopping := rfl
        settled := ⟨settled.runtime, settled.heldLock⟩
        locks := by
          simp only [Point.owesLock, Bool.toNat_false, Bool.toNat_true]
          omega
        runtimes := fun _ => rfl
        started := fun _ started => started
        running := fun _ isRuntime => .inl isRuntime
        launched := .of_ne (by simp) }
  | settling failure =>
    cases stepped
    refine moved_of_ended settled (serves.stopping rfl) ?_ rfl rfl rfl rfl rfl rfl rfl rfl rfl
      ⟨rfl, rfl, rfl, rfl⟩ (.of_ne (by simp))
    simp only [settle]
    split
    · exact .inl rfl
    · exact .inr ⟨failure, rfl⟩
  | answering =>
    cases stepped
    exact .same settled rfl rfl rfl rfl (.of_ne (by simp))
  | shutting caller =>
    obtain ⟨rfl, rfl⟩ := Prod.mk.inj (Option.some.inj stepped)
    exact moved_of_shut settled
  | awaiting caller cancelled =>
    simp only [act] at stepped
    split at stepped
    · cases stepped
      exact .same settled rfl rfl rfl rfl (.of_ne (by simp))
    · obtain ⟨rfl, rfl⟩ := Prod.mk.inj (Option.some.inj stepped)
      exact moved_of_take settled rfl rfl rfl rfl
  | tearing caller active release failure =>
    cases active with
    | none =>
      cases stepped
      exact .same settled rfl rfl rfl rfl (.of_ne (by simp))
    | some active =>
      cases stepped
      exact .stopped settled rfl (serves.owned active rfl) rfl rfl rfl rfl fun _ => .of_ne (by simp)
  | freeing caller release failure =>
    cases release with
    | false =>
      cases stepped
      exact .same settled rfl rfl rfl rfl (.of_ne (by simp))
    | true =>
      cases stepped
      exact
        { starting := rfl
          stopping := rfl
          settled := ⟨settled.runtime, settled.heldLock⟩
          locks := by
            simp only [Point.owesLock, Bool.toNat_false, Bool.toNat_true]
            omega
          runtimes := fun _ => rfl
          started := fun _ started => started
          running := fun _ isRuntime => .inl isRuntime
          launched := .of_ne (by simp) }
  | ending caller failure =>
    cases stepped
    have current := serves.stopping rfl
    obtain ⟨noRuntime, noLock⟩ := settled.idle (by simp [current])
    have resumes : (resume caller).isStarting = false ∧ (resume caller).isStopping = false ∧
        (resume caller).owesLock = false ∧ (resume caller).owned = none := by
      cases caller <;> exact ⟨rfl, rfl, rfl, rfl⟩
    refine moved_of_ended settled current ?_ noRuntime noLock rfl rfl rfl rfl rfl rfl rfl
      resumes (.of_ne (by cases caller <;> simp [resume]))
    cases failure with
    | none => exact .inl rfl
    | some failure => exact .inr ⟨failure, rfl⟩
  | answered status => cases stepped
  | done => cases stepped

end Controller

end LosslessMusic.Dlna
