import LosslessMusic.Admission.Gate

/-!
# What a run of the gate admits

Every step moves one worker, and with it at most one permit of the slots, one of a
provider and one item. So the permits handed out are those the workers hold, and an
item is in one place: not fetched, with a worker on its way, or started.
-/

namespace LosslessMusic.Admission

open Transition

namespace Point

variable {Key : Type}

/-- The worker has a slot. -/
@[simp] def holdsSlot : Point Key → Bool
  | .checking _ _ | .refused _ _ | .admitted _ _ | .running _ _ | .leaving _ _ _ => true
  | _ => false

/-- The worker has fetched the item and not started its block. -/
@[simp] def bears (item : Nat) : Point Key → Bool
  | .keying current | .waiting current _ | .entering current _ | .checking current _
  | .refused current _ | .delaying current _ | .admitted current _ => current = item
  | _ => false

/-- The worker runs a block. -/
@[simp] def isRunning : Point Key → Bool
  | .running _ _ => true
  | _ => false

/-- The job of the worker is complete. -/
@[simp] def isEnded : Point Key → Bool
  | .ended _ => true
  | _ => false

/-- The worker waits for a permit, or is done. -/
@[simp] def isBlocked : Point Key → Bool
  | .waiting _ _ | .entering _ _ | .ended _ => true
  | _ => false

/-- The item of a worker that has been admitted and has not started it. -/
@[simp] def admittedItem : Point Key → Option Nat
  | .admitted item _ => some item
  | _ => none

/-- The key whose semaphore the worker waits for. -/
@[simp] def wants : Point Key → Option Key
  | .waiting _ key => some key
  | _ => none

/-- Nothing has been thrown at the worker. -/
@[simp] def isCalm : Point Key → Bool
  | .leaving _ _ outcome | .returning _ _ outcome | .ended outcome => outcome = Outcome.returned
  | _ => true

/-- The steps a worker takes at most before it is at the top of the loop again and has
left it, while nothing is refused. -/
@[simp] def work : Point Key → Nat
  | .launched | .returning _ _ _ => 2
  | .fetching => 1
  | .keying _ | .refused _ _ => 9
  | .waiting _ _ | .delaying _ _ => 8
  | .entering _ _ => 7
  | .checking _ _ => 6
  | .admitted _ _ => 5
  | .running _ _ => 4
  | .leaving _ _ _ => 3
  | .ended _ => 0

theorem holdsSlot_of_isRunning {point : Point Key} (running : point.isRunning = true) :
    point.holdsSlot = true := by
  cases point <;> first | rfl | cases running

variable [DecidableEq Key]

/-- The worker has a permit of the provider. -/
@[simp] def holdsKey (key : Key) : Point Key → Bool
  | .entering _ current | .checking _ current | .refused _ current | .delaying _ current
  | .admitted _ current | .running _ current | .leaving _ current _
  | .returning _ current _ => current = key
  | _ => false

/-- The worker runs a block for the provider. -/
@[simp] def runs (key : Key) : Point Key → Bool
  | .running _ current => current = key
  | _ => false

theorem holdsKey_of_runs {point : Point Key} {key : Key} (runs : point.runs key = true) :
    point.holdsKey key = true := by
  cases point <;> first | exact runs | cases runs

end Point

theorem coerceIn_pos (value : Int) : 0 < coerceIn value := by
  unfold coerceIn
  omega

/-- The bound that an item asks for its provider. -/
def Call.limitOf {Item Key : Type} (call : Call Item Key) (item : Nat) : Nat :=
  match call.items[item]? with
  | some value => min (coerceIn call.limit) (coerceIn (call.providerLimit value))
  | none => 0

namespace RunAll

variable {Item Key : Type} [DecidableEq Key]

/-- The permits of a provider that are handed out. -/
def handedOut (s : RunAll Key) (key : Key) : Nat :=
  match s.providers key with
  | some semaphore => semaphore.handedOut
  | none => 0

/-- The permits of a provider's semaphore, if there is one. -/
def limits (s : RunAll Key) (key : Key) : Option Nat :=
  (s.providers key).map Semaphore.permits

/-- The first item that used a key. -/
def firstUse (s : RunAll Key) (key : Key) : Option Nat :=
  (s.used.find? fun use => use.2 = key).map Prod.fst

/-- The item is still in the iterator. -/
def isPending (s : RunAll Key) (call : Call Item Key) (item : Nat) : Bool :=
  s.next ≤ item && item < call.items.length

/-- The steps of all workers that are left while nothing is refused. -/
def work (s : RunAll Key) (call : Call Item Key) : Nat :=
  (s.workers.map Point.work).sum + 9 * (call.items.length - s.next)

/-- The semaphores after a step: as they were, or with one that was absent. -/
inductive Keyed (call : Call Item Key) (s next : RunAll Key) : Prop
  | kept : next.used = s.used → (∀ key, next.limits key = s.limits key) → Keyed call s next
  | used {item : Nat} {chosen : Key} :
      next.used = s.used ++ [(item, chosen)] → 0 < call.limitOf item →
      (∀ key, next.limits key =
        (s.limits key).or (if chosen = key then some (call.limitOf item) else none)) →
      Keyed call s next

/-- What a step of a worker from one point to another does to the rest. -/
structure Moved (call : Call Item Key) (event : WorkerEvent) (s next : RunAll Key)
    (position : Nat) (point after : Point Key) : Prop where
  workers : next.workers = s.workers.set position after
  paused : next.gate.isPaused = s.gate.isPaused
  permits : next.gate.slots.permits = s.gate.slots.permits
  slots : next.gate.slots.handedOut + point.holdsSlot.toNat =
    s.gate.slots.handedOut + after.holdsSlot.toNat
  providers : ∀ key, next.handedOut key + (point.holdsKey key).toNat =
    s.handedOut key + (after.holdsKey key).toNat
  keyed : Keyed call s next
  wants : ∀ key, after.wants = some key → (next.limits key).isSome = true
  items : ∀ item, next.started.count item + (after.bears item).toNat +
      (next.isPending call item).toNat ≤
    s.started.count item + (point.bears item).toNat + (s.isPending call item).toNat
  advanced : event = .advance → ∀ item, next.started.count item + (after.bears item).toNat +
      (next.isPending call item).toNat =
    s.started.count item + (point.bears item).toNat + (s.isPending call item).toNat
  admitted : ∀ item, after.admittedItem = some item → item ∈ next.admissions
  admissions : next.admissions = s.admissions ∨
    s.gate.isPaused = false ∧ ∃ item, next.admissions = item :: s.admissions
  started : ∀ item ∈ next.started, item ∈ s.started ∨ point.admittedItem = some item
  calm : event = .advance → point.isCalm = true →
    after.isCalm = true ∧ next.cancelled = s.cancelled ∧
      (after.isEnded = true → call.items.length ≤ next.next)
  fetched : s.next ≤ next.next
  work : s.gate.isPaused = false → after.work + 9 * (call.items.length - next.next) + 1 ≤
      point.work + 9 * (call.items.length - s.next)

variable {call : Call Item Key} {s next : RunAll Key} {position : Nat}
  {point after : Point Key} {event : WorkerEvent}

/-- A step that leaves the semaphores of the providers alone and keeps its item. -/
theorem Moved.slotted (slots : Semaphore) (cancelled : Bool)
    (permits : slots.permits = s.gate.slots.permits)
    (handed : slots.handedOut + point.holdsSlot.toNat =
      s.gate.slots.handedOut + after.holdsSlot.toNat)
    (keys : ∀ key, after.holdsKey key = point.holdsKey key)
    (wants : after.wants = none) (admitted : after.admittedItem = none)
    (items : ∀ item, (after.bears item).toNat ≤ (point.bears item).toNat)
    (advanced : event = .advance → ∀ item, after.bears item = point.bears item)
    (calm : event = .advance → point.isCalm = true → after.isCalm = true ∧
      cancelled = s.cancelled ∧ (after.isEnded = true → call.items.length ≤ s.next))
    (work : s.gate.isPaused = false → after.work < point.work) :
    Moved call event s
      ({ s with gate := { s.gate with slots }, cancelled }.setWorker position after)
      position point after where
  workers := rfl
  paused := rfl
  permits := permits
  slots := handed
  providers := by
    intro key
    rw [keys]
    rfl
  keyed := .kept rfl fun _ => rfl
  wants := by
    intro key wanted
    rw [wants] at wanted
    cases wanted
  items := fun item => Nat.add_le_add_right (Nat.add_le_add_left (items item) _) _
  advanced := by
    intro advances item
    rw [advanced advances]
    rfl
  admitted := by
    intro item isAdmitted
    rw [admitted] at isAdmitted
    cases isAdmitted
  admissions := .inl rfl
  started := fun _ member => .inl member
  calm := calm
  fetched := Nat.le_refl _
  work := by
    intro isOpen
    have less := work isOpen
    simp only [setWorker]
    omega

/-- A step between two places with the same permits and the same item. -/
theorem Moved.shift (slots : after.holdsSlot = point.holdsSlot)
    (keys : ∀ key, after.holdsKey key = point.holdsKey key)
    (wants : after.wants = none) (admitted : after.admittedItem = none)
    (items : ∀ item, (after.bears item).toNat ≤ (point.bears item).toNat)
    (advanced : event = .advance → ∀ item, after.bears item = point.bears item)
    (calm : event = .advance → point.isCalm = true → after.isCalm = true ∧
      (after.isEnded = true → call.items.length ≤ s.next))
    (work : s.gate.isPaused = false → after.work < point.work) :
    Moved call event s (s.setWorker position after) position point after :=
  .slotted s.gate.slots s.cancelled rfl (by rw [slots]) keys wants admitted items advanced
    (fun advances isCalm =>
      ⟨(calm advances isCalm).1, rfl, (calm advances isCalm).2⟩) work

variable {key : Key}

/-- A step that changes one provider's semaphore and keeps its item. -/
theorem Moved.provided {before semaphore : Semaphore} (cancelled : Bool)
    (present : s.providers key = some before) (permits : semaphore.permits = before.permits)
    (handed : semaphore.handedOut + (point.holdsKey key).toNat =
      before.handedOut + (after.holdsKey key).toNat)
    (keys : ∀ other, other ≠ key → after.holdsKey other = point.holdsKey other)
    (slots : after.holdsSlot = point.holdsSlot)
    (wants : after.wants = none) (admitted : after.admittedItem = none)
    (items : ∀ item, after.bears item = point.bears item)
    (calm : event = .advance → point.isCalm = true → after.isCalm = true ∧
      cancelled = s.cancelled ∧ (after.isEnded = true → call.items.length ≤ s.next))
    (work : s.gate.isPaused = false → after.work < point.work) :
    Moved call event s ({ s.setProvider key semaphore with cancelled }.setWorker position after)
      position point after where
  workers := rfl
  paused := rfl
  permits := rfl
  slots := by rw [slots]; rfl
  providers := by
    intro other
    simp only [handedOut, setWorker, setProvider]
    by_cases same : other = key
    · subst same
      rw [Function.update_self, present]
      exact handed
    · rw [Function.update_of_ne same, keys other same]
  keyed := by
    refine .kept rfl ?_
    intro other
    simp only [limits, setWorker, setProvider]
    by_cases same : other = key
    · subst same
      rw [Function.update_self, present, Option.map_some, Option.map_some, permits]
    · rw [Function.update_of_ne same]
  wants := by
    intro other wanted
    rw [wants] at wanted
    cases wanted
  items := by
    intro item
    rw [items]
    exact Nat.le_refl _
  advanced := by
    intro _ item
    rw [items]
    rfl
  admitted := by
    intro item isAdmitted
    rw [admitted] at isAdmitted
    cases isAdmitted
  admissions := .inl rfl
  started := fun _ member => .inl member
  calm := calm
  fetched := Nat.le_refl _
  work := by
    intro isOpen
    have less := work isOpen
    simp only [setWorker, setProvider]
    omega

variable {item : Nat}

/-- `computeIfAbsent` adds a semaphore where there is none. -/
theorem Moved.keying {value : Item} (here : call.items[item]? = some value) :
    Moved call event s (s.computeIfAbsent call position item value) position (.keying item)
      (.waiting item (call.providerKey value)) := by
  have limited : call.limitOf item =
      min (coerceIn call.limit) (coerceIn (call.providerLimit value)) := by
    simp [Call.limitOf, here]
  have positive : 0 < call.limitOf item := by
    rw [limited]
    exact Nat.lt_min.mpr ⟨coerceIn_pos _, coerceIn_pos _⟩
  have shape : ∃ providers, s.computeIfAbsent call position item value =
      { s with providers, used := s.used ++ [(item, call.providerKey value)] }.setWorker
        position (.waiting item (call.providerKey value)) ∧
      (∀ key, (match providers key with
        | some semaphore => semaphore.handedOut
        | none => 0) = s.handedOut key) ∧
      ∀ key, (providers key).map Semaphore.permits = (s.limits key).or
        (if call.providerKey value = key then some (call.limitOf item) else none) := by
    unfold computeIfAbsent
    cases present : s.providers (call.providerKey value) with
    | some semaphore =>
      refine ⟨s.providers, by simp [present], fun _ => rfl, ?_⟩
      intro key
      by_cases same : call.providerKey value = key
      · subst same
        simp [limits, present]
      · simp [limits, same]
    | none =>
      refine ⟨Function.update s.providers (call.providerKey value) (some (.ofPermits
        (min (coerceIn call.limit) (coerceIn (call.providerLimit value))))),
        by simp [present, setProvider], ?_, ?_⟩
      · intro key
        by_cases same : key = call.providerKey value
        · subst same
          simp [handedOut, present]
        · simp [handedOut, Function.update_of_ne same]
      · intro key
        by_cases same : key = call.providerKey value
        · subst same
          simp [limits, present, limited]
        · simp [limits, Function.update_of_ne same, Ne.symm same]
  obtain ⟨providers, same, handed, permits⟩ := shape
  rw [same]
  exact
    { workers := rfl
      paused := rfl
      permits := rfl
      slots := rfl
      providers := fun key => by
        rw [← handed key]
        rfl
      keyed := .used rfl positive permits
      wants := fun key wanted => by
        obtain rfl : call.providerKey value = key := by simpa [Point.wants] using wanted
        have present := permits (call.providerKey value)
        simp only [limits, setWorker, present, if_true]
        cases (s.providers (call.providerKey value)).map Semaphore.permits <;> rfl
      items := fun _ => Nat.le_refl _
      advanced := fun _ _ => rfl
      admitted := fun _ isAdmitted => by cases isAdmitted
      admissions := .inl rfl
      started := fun _ member => .inl member
      calm := fun _ _ => ⟨rfl, rfl, fun ended => by cases ended⟩
      fetched := Nat.le_refl _
      work := fun _ => by
        simp only [setWorker, Point.work]
        omega }

theorem Moved.fetch :
    ∃ after, Moved call event s (s.fetch call position) position .fetching after := by
  unfold RunAll.fetch
  split
  next more =>
    have items : ∀ item, (decide (s.next = item)).toNat +
        (decide (s.next + 1 ≤ item) && decide (item < call.items.length)).toNat =
          (s.isPending call item).toNat := by
      intro item
      unfold isPending
      rcases Nat.lt_trichotomy s.next item with before | rfl | behind
      · simp [Nat.ne_of_lt before, Nat.succ_le_of_lt before, Nat.le_of_lt before]
      · simp [more]
      · simp [Nat.ne_of_gt behind, Nat.not_le_of_gt behind,
          Nat.not_le_of_gt (Nat.lt_succ_of_lt behind)]
    refine ⟨.keying s.next, ?_⟩
    exact
      { workers := rfl
        paused := rfl
        permits := rfl
        slots := rfl
        providers := fun _ => rfl
        keyed := .kept rfl fun _ => rfl
        wants := fun _ wanted => by cases wanted
        items := fun item => by
          rw [← items item, Nat.add_assoc]
          exact Nat.le_refl _
        advanced := fun _ item => by
          rw [← items item, Nat.add_assoc]
          rfl
        admitted := fun _ isAdmitted => by cases isAdmitted
        admissions := .inl rfl
        started := fun _ member => .inl member
        calm := fun _ _ => ⟨rfl, rfl, fun ended => by cases ended⟩
        fetched := Nat.le_succ _
        work := fun _ => by
          simp only [setWorker, Point.work]
          omega }
  next exhausted =>
    refine ⟨.ended .returned, ?_⟩
    apply Moved.shift <;> simp [Nat.le_of_not_lt exhausted]

/-- A worker with a slot is admitted at a moment when the gate is open, or gives the
slot back. -/
theorem Moved.check (stepped : s.advance call position (.checking item key) = some next) :
    ∃ after, Moved call event s next position (.checking item key) after := by
  simp only [advance] at stepped
  split at stepped
  next closed =>
    cases stepped
    refine ⟨.refused item key, ?_⟩
    apply Moved.shift <;> simp [closed]
  next isOpen =>
    cases stepped
    rw [Bool.not_eq_true] at isOpen
    exact ⟨.admitted item key,
      { workers := rfl
        paused := rfl
        permits := rfl
        slots := rfl
        providers := fun _ => rfl
        keyed := .kept rfl fun _ => rfl
        wants := fun _ wanted => by cases wanted
        items := fun _ => Nat.le_refl _
        advanced := fun _ _ => rfl
        admitted := fun other isAdmitted => by
          obtain rfl : item = other := by simpa using isAdmitted
          exact List.mem_cons_self
        admissions := .inr ⟨isOpen, item, rfl⟩
        started := fun _ member => .inl member
        calm := fun _ _ => ⟨rfl, rfl, fun ended => by cases ended⟩
        fetched := Nat.le_refl _
        work := fun _ => by
          simp only [setWorker, Point.work]
          omega }⟩

theorem Moved.begin : Moved call event s
      ({ s with started := item :: s.started }.setWorker position (.running item key))
      position (.admitted item key) (.running item key) := by
  have items : ∀ other, (item :: s.started).count other =
      s.started.count other + (decide (item = other)).toNat := by
    intro other
    rw [List.count_cons]
    by_cases same : item = other <;> simp [same]
  exact
    { workers := rfl
      paused := rfl
      permits := rfl
      slots := rfl
      providers := fun _ => rfl
      keyed := .kept rfl fun _ => rfl
      wants := fun _ wanted => by cases wanted
      items := fun other => by
        simp only [setWorker, items]
        exact Nat.le_refl _
      advanced := fun _ other => by
        simp only [setWorker, items]
        rfl
      admitted := fun _ isAdmitted => by cases isAdmitted
      admissions := .inl rfl
      started := fun other member => by
        rcases List.mem_cons.mp member with rfl | before
        · exact .inr rfl
        · exact .inl before
      calm := fun _ _ => ⟨rfl, rfl, fun ended => by cases ended⟩
      fetched := Nat.le_refl _
      work := fun _ => by
        simp only [setWorker, Point.work]
        omega }

/-- A returned permit ends the job or lets the worker fetch again. -/
theorem Moved.returnPermit {outcome : Outcome}
    (stepped : s.returnPermit position key outcome = some next) :
    ∃ after, Moved call event s next position (.returning item key outcome) after := by
  obtain ⟨before, present, released⟩ := Option.bind_eq_some_iff.mp stepped
  obtain ⟨semaphore, given, rfl⟩ := Option.map_eq_some_iff.mp released
  obtain ⟨permits, handed⟩ := Semaphore.release_spec given
  have others : ∀ other, other ≠ key → decide (key = other) = false := by
    intro other different
    simp [Ne.symm different]
  cases outcome with
  | returned =>
    refine ⟨.fetching, ?_⟩
    apply Moved.provided s.cancelled present permits <;> simp_all
  | cancelled =>
    refine ⟨.ended .cancelled, ?_⟩
    apply Moved.provided _ present permits <;> simp_all
  | failed =>
    refine ⟨.ended .failed, ?_⟩
    apply Moved.provided _ present permits <;> simp_all

theorem moved_of_advance (stepped : s.advance call position point = some next) :
    ∃ after, Moved call .advance s next position point after := by
  cases point with
  | launched =>
    cases stepped
    refine ⟨.fetching, ?_⟩
    apply Moved.shift <;> simp
  | fetching =>
    cases stepped
    exact Moved.fetch
  | keying item =>
    obtain ⟨value, here, rfl⟩ := Option.map_eq_some_iff.mp stepped
    exact ⟨_, Moved.keying here⟩
  | waiting item key =>
    obtain ⟨before, present, acquired⟩ := Option.bind_eq_some_iff.mp stepped
    obtain ⟨semaphore, taken, rfl⟩ := Option.map_eq_some_iff.mp acquired
    obtain ⟨permits, handed⟩ := Semaphore.acquire_spec taken
    have others : ∀ other, other ≠ key → decide (key = other) = false := by
      intro other different
      simp [Ne.symm different]
    refine ⟨.entering item key, ?_⟩
    apply Moved.provided s.cancelled present permits <;> simp_all
  | entering item key =>
    obtain ⟨slots, taken, rfl⟩ := Option.map_eq_some_iff.mp stepped
    obtain ⟨permits, handed⟩ := Semaphore.acquire_spec taken
    refine ⟨.checking item key, ?_⟩
    apply Moved.slotted slots s.cancelled permits <;> simp [handed]
  | checking item key => exact Moved.check stepped
  | refused item key =>
    obtain ⟨slots, given, rfl⟩ := Option.map_eq_some_iff.mp stepped
    obtain ⟨permits, handed⟩ := Semaphore.release_spec given
    refine ⟨.delaying item key, ?_⟩
    apply Moved.slotted slots s.cancelled permits <;> simp [handed]
  | delaying item key =>
    simp only [advance, Option.ite_none_left_eq_some, Option.some.injEq] at stepped
    obtain ⟨_, rfl⟩ := stepped
    refine ⟨.entering item key, ?_⟩
    apply Moved.shift <;> simp
  | admitted item key =>
    cases stepped
    exact ⟨_, Moved.begin⟩
  | running item key =>
    cases stepped
    refine ⟨.leaving item key .returned, ?_⟩
    apply Moved.shift <;> simp
  | leaving item key outcome =>
    obtain ⟨slots, given, rfl⟩ := Option.map_eq_some_iff.mp stepped
    obtain ⟨permits, handed⟩ := Semaphore.release_spec given
    refine ⟨.returning item key outcome, ?_⟩
    apply Moved.slotted slots s.cancelled permits <;> simp [handed]
  | returning item key outcome => exact Moved.returnPermit stepped
  | ended outcome => cases stepped

theorem moved_of_stepWorker (stepped : s.stepWorker call position point event = some next) :
    ∃ after, Moved call event s next position point after := by
  cases event with
  | advance => exact moved_of_advance stepped
  | raise outcome =>
    cases point with
    | keying item =>
      simp only [stepWorker, raise, Option.ite_none_left_eq_some, Option.some.injEq] at stepped
      obtain ⟨_, rfl⟩ := stepped
      refine ⟨.ended outcome, ?_⟩
      apply Moved.slotted s.gate.slots _ rfl <;> simp
    | running item key =>
      simp only [stepWorker, raise, Option.ite_none_left_eq_some, Option.some.injEq] at stepped
      obtain ⟨_, rfl⟩ := stepped
      refine ⟨.leaving item key outcome, ?_⟩
      apply Moved.shift <;> simp
    | _ => cases stepped
  | interrupt =>
    simp only [stepWorker, Option.ite_none_right_eq_some] at stepped
    obtain ⟨_, interrupted⟩ := stepped
    cases point with
    | launched | waiting _ _ =>
      cases interrupted
      refine ⟨.ended .cancelled, ?_⟩
      apply Moved.slotted s.gate.slots _ rfl <;> simp
    | entering item key | delaying item key =>
      cases interrupted
      refine ⟨.returning item key .cancelled, ?_⟩
      apply Moved.shift <;> simp
    | _ => cases interrupted

end RunAll

end LosslessMusic.Admission
