import LosslessMusic.Admission.RunAll

/-!
# The balance of permits and items

The counts that every step keeps give the bounds on running blocks and the return of
all permits. With the gate open every step of a worker lowers the work that is left,
and some worker can take one until all jobs are complete.
-/

namespace LosslessMusic.Admission

open Transition

/-- No block and no function of the caller throws, and `runAll` is not cancelled. -/
def Event.isCalm : Event → Bool
  | .cancel | .worker _ (.raise _) => false
  | _ => true

/-- The event is a step of a worker. -/
def Event.isWorker : Event → Bool
  | .worker _ _ => true
  | _ => false

/-- The event does not pause the gate. -/
def Event.keepsOpen : Event → Bool
  | .setPaused paused => !paused
  | .setNetwork wifiOnly wifi unmetered internet ethernet =>
    !Gate.blocksNetwork wifiOnly wifi unmetered internet ethernet
  | .cancel | .worker _ _ => true

namespace Gate

variable {gate : Gate}

theorem isPaused_eq_false : gate.isPaused = false ↔
    gate.manualPaused = false ∧ gate.networkPaused = false := by
  unfold isPaused pauseReason
  cases gate.manualPaused <;> cases gate.networkPaused <;> simp

end Gate

namespace RunAll

variable {Item Key : Type} [DecidableEq Key] {call : Call Item Key} {s next : RunAll Key}

variable (call) in

/-- The permits handed out are those the workers hold, every item is in at most one
place, and what has started was admitted. -/
structure Sound (s : RunAll Key) : Prop where
  permits : s.gate.slots.permits = coerceIn call.limit
  slots : s.gate.slots.handedOut = s.workers.countP Point.holdsSlot
  providers : ∀ key, s.handedOut key = s.workers.countP (Point.holdsKey key)
  limits : ∀ key, s.limits key = (s.firstUse key).map call.limitOf
  positive : ∀ key limit, s.limits key = some limit → 0 < limit
  wants : ∀ point ∈ s.workers, ∀ key, point.wants = some key → (s.limits key).isSome = true
  places : ∀ item, s.started.count item + s.workers.countP (Point.bears item) +
    (s.isPending call item).toNat ≤ (decide (item < call.items.length)).toNat
  admitted : ∀ point ∈ s.workers, ∀ item, point.admittedItem = some item → item ∈ s.admissions
  started : ∀ item ∈ s.started, item ∈ s.admissions

variable (call) in

/-- Nothing has been thrown, and no item is lost. -/
structure Calm (s : RunAll Key) : Prop where
  cancelled : s.cancelled = false
  calm : ∀ point ∈ s.workers, point.isCalm = true
  exhausted : ∀ point ∈ s.workers, point.isEnded = true → call.items.length ≤ s.next
  some_worker : s.workers ≠ []
  places : ∀ item, s.started.count item + s.workers.countP (Point.bears item) +
    (s.isPending call item).toNat = (decide (item < call.items.length)).toNat

theorem Sound.gated (sound : Sound call s) {gate : Gate} (cancelled : Bool)
    (slots : gate.slots = s.gate.slots) : Sound call { s with gate, cancelled } where
  permits := by rw [slots]; exact sound.permits
  slots := by rw [slots]; exact sound.slots
  providers := sound.providers
  limits := sound.limits
  positive := sound.positive
  wants := sound.wants
  places := sound.places
  admitted := sound.admitted
  started := sound.started

theorem firstUse_append {item : Nat} {chosen : Key} (key : Key)
    (used : next.used = s.used ++ [(item, chosen)]) :
    next.firstUse key = (s.firstUse key).or (if chosen = key then some item else none) := by
  unfold firstUse
  rw [used, List.find?_append]
  cases s.used.find? fun use => use.2 = key with
  | some use => rfl
  | none => by_cases same : chosen = key <;> simp [same]

theorem Sound.moved {event : WorkerEvent} {position : Nat} {point after : Point Key}
    (sound : Sound call s) (here : s.workers[position]? = some point)
    (moved : Moved call event s next position point after) : Sound call next := by
  have found : ∀ {other : Point Key}, other ∈ next.workers → other = after ∨ other ∈ s.workers := by
    intro other member
    rw [moved.workers] at member
    exact (List.mem_or_eq_of_mem_set member).symm
  have kept : ∀ key, (s.limits key).isSome = true → (next.limits key).isSome = true := by
    intro key present
    cases moved.keyed with
    | kept _ same => rwa [same]
    | used _ _ same =>
      rw [same, Option.isSome_or, present, Bool.true_or]
  constructor
  · rw [moved.permits]
    exact sound.permits
  · have counted := countP_set_add (p := Point.holdsSlot) after here
    have balance := moved.slots
    have before := sound.slots
    rw [moved.workers]
    omega
  · intro key
    have counted := countP_set_add (p := Point.holdsKey key) after here
    have balance := moved.providers key
    have before := sound.providers key
    rw [moved.workers]
    omega
  · intro key
    cases moved.keyed with
    | kept used same =>
      rw [same, sound.limits]
      unfold firstUse
      rw [used]
    | used used _ same =>
      rw [same, sound.limits, firstUse_append key used, Option.map_or]
      split <;> rfl
  · intro key limit limited
    cases moved.keyed with
    | kept _ same =>
      rw [same] at limited
      exact sound.positive key limit limited
    | used _ positive same =>
      rw [same, Option.or_eq_some_iff] at limited
      rcases limited with before | ⟨_, created⟩
      · exact sound.positive key limit before
      · split at created
        · cases created
          exact positive
        · cases created
  · intro other member key wanted
    rcases found member with rfl | before
    · exact moved.wants key wanted
    · exact kept key (sound.wants other before key wanted)
  · intro item
    have counted := countP_set_add (p := Point.bears item) after here
    have balance := moved.items item
    have before := sound.places item
    rw [moved.workers]
    omega
  · intro other member item isAdmitted
    rcases found member with rfl | before
    · exact moved.admitted item isAdmitted
    · have earlier := sound.admitted other before item isAdmitted
      rcases moved.admissions with same | ⟨_, _, more⟩
      · rwa [same]
      · rw [more]
        exact List.mem_cons_of_mem _ earlier
  · intro item isStarted
    have earlier : item ∈ s.admissions := by
      rcases moved.started item isStarted with before | isAdmitted
      · exact sound.started item before
      · exact sound.admitted point (List.mem_of_getElem? here) item isAdmitted
    rcases moved.admissions with same | ⟨_, _, more⟩
    · rwa [same]
    · rw [more]
      exact List.mem_cons_of_mem _ earlier

theorem Sound.step {event : Event} (sound : Sound call s)
    (stepped : step call s event = some next) : Sound call next := by
  cases event with
  | setPaused _ | setNetwork _ _ _ _ _ | cancel =>
    cases stepped
    exact sound.gated _ rfl
  | worker position event =>
    obtain ⟨point, here, moves⟩ := Option.bind_eq_some_iff.mp stepped
    obtain ⟨after, moved⟩ := moved_of_stepWorker moves
    exact sound.moved here moved

/-- At the start nothing is handed out and every item is in the iterator. -/
theorem Sound.start : Sound call (start call) := by
  have none_of_launched : ∀ p : Point Key → Bool, p .launched = false →
      (RunAll.start call).workers.countP p = 0 := by
    intro p no
    rw [List.countP_eq_zero]
    intro point member
    rw [List.eq_of_mem_replicate member, no]
    exact Bool.false_ne_true
  have launched : ∀ point ∈ (RunAll.start call).workers, point = .launched := by
    intro point member
    exact List.eq_of_mem_replicate member
  constructor
  · rfl
  · rw [none_of_launched _ rfl]
    exact Semaphore.handedOut_ofPermits _
  · intro key
    rw [none_of_launched _ rfl]
    rfl
  · intro key
    rfl
  · intro key limit limited
    cases limited
  · intro point member key wanted
    rw [launched point member] at wanted
    cases wanted
  · intro item
    rw [none_of_launched _ rfl]
    simp [RunAll.start, isPending]
  · intro point member item isAdmitted
    rw [launched point member] at isAdmitted
    cases isAdmitted
  · intro item isStarted
    cases isStarted

theorem sound_of_reachable
    (reachable : (machine call).Reachable Transition.Machine.anyStep s) : Sound call s := by
  apply reachable.invariant
  · rintro _ rfl
    exact Sound.start
  · intro state event next _ sound _ stepped
    exact sound.step stepped

theorem Calm.step {event : Event} (calm : Calm call s) (isCalm : event.isCalm = true)
    (stepped : RunAll.step call s event = some next) : Calm call next := by
  cases event with
  | setPaused _ | setNetwork _ _ _ _ _ =>
    cases stepped
    exact ⟨calm.cancelled, calm.calm, calm.exhausted, calm.some_worker, calm.places⟩
  | cancel => cases isCalm
  | worker position event =>
    obtain ⟨point, here, moves⟩ := Option.bind_eq_some_iff.mp stepped
    have advances : event = .advance := by
      cases event with
      | advance => rfl
      | raise outcome => cases isCalm
      | interrupt => simp [stepWorker, calm.cancelled] at moves
    obtain ⟨after, moved⟩ := moved_of_stepWorker moves
    have still := moved.calm advances (calm.calm point (List.mem_of_getElem? here))
    constructor
    · rw [still.2.1]
      exact calm.cancelled
    · intro other member
      rw [moved.workers] at member
      rcases List.mem_or_eq_of_mem_set member with before | rfl
      · exact calm.calm other before
      · exact still.1
    · intro other member ended
      rw [moved.workers] at member
      rcases List.mem_or_eq_of_mem_set member with before | rfl
      · exact Nat.le_trans (calm.exhausted other before ended) moved.fetched
      · exact still.2.2 ended
    · rw [moved.workers, ne_eq, List.set_eq_nil_iff]
      exact calm.some_worker
    · intro item
      have counted := countP_set_add (p := Point.bears item) after here
      have balance := moved.advanced advances item
      have before := calm.places item
      rw [moved.workers]
      omega

theorem calm_of_reachable
    (reachable : (machine call).Reachable (fun _ event => event.isCalm = true) s) :
    Calm call s := by
  apply reachable.invariant
  · rintro _ rfl
    constructor
    · rfl
    · intro point member
      rw [List.eq_of_mem_replicate member]
      rfl
    · intro point member ended
      rw [List.eq_of_mem_replicate member] at ended
      cases ended
    · have some := coerceIn_pos call.limit
      simp only [RunAll.start, ne_eq, List.replicate_eq_nil_iff]
      omega
    · intro item
      have nobody : (RunAll.start call).workers.countP (Point.bears item) = 0 := by
        rw [List.countP_eq_zero]
        intro point member
        rw [List.eq_of_mem_replicate member]
        exact Bool.false_ne_true
      rw [nobody]
      simp [RunAll.start, isPending]
  · intro state event next _ calm isCalm stepped
    exact calm.step isCalm stepped

/-! ## Progress -/

theorem step_of_free (sound : Sound call s) {position : Nat} {point : Point Key}
    (here : s.workers[position]? = some point) (free : point.isBlocked = false) :
    (step call s (.worker position .advance)).isSome = true ∨
      (step call s (.worker position .interrupt)).isSome = true := by
  have counts : ∀ p : Point Key → Bool, p point = true → 0 < s.workers.countP p :=
    fun p holds => List.countP_pos_iff.mpr ⟨point, List.mem_of_getElem? here, holds⟩
  have slot : point.holdsSlot = true → s.gate.slots.release.isSome = true := by
    intro holds
    apply Semaphore.release_isSome
    rw [sound.slots]
    exact counts _ holds
  simp only [step, here, Option.bind_some, stepWorker]
  cases point with
  | keying item =>
    left
    have within := sound.places item
    have borne := counts (Point.bears item) (by simp)
    have inside : item < call.items.length := by
      by_contra outside
      simp only [outside, decide_false, Bool.toNat_false] at within
      omega
    simp [advance, inside]
  | checking item key =>
    left
    simp only [advance]
    split <;> rfl
  | refused _ _ | leaving _ _ _ =>
    left
    simp only [advance, Option.isSome_map]
    exact slot rfl
  | delaying item key =>
    cases gone : s.cancelled with
    | false => simp [advance, gone]
    | true => simp [interrupt]
  | returning item key outcome =>
    left
    have handed := sound.providers key
    have held := counts (Point.holdsKey key) (by simp)
    simp only [advance, returnPermit]
    cases present : s.providers key with
    | none =>
      simp only [handedOut, present] at handed
      omega
    | some semaphore =>
      simp only [handedOut, present] at handed
      rw [Option.bind_some, Option.isSome_map]
      apply Semaphore.release_isSome
      omega
  | waiting item key => cases free
  | entering item key => cases free
  | ended outcome => cases free
  | _ => exact .inl rfl

theorem progress (sound : Sound call s) (unfinished : s.isOver = false) :
    ∃ position, (step call s (.worker position .advance)).isSome = true ∨
      (step call s (.worker position .interrupt)).isSome = true := by
  by_cases free : ∃ point ∈ s.workers, point.isBlocked = false
  · obtain ⟨point, member, isFree⟩ := free
    obtain ⟨position, here⟩ := List.mem_iff_getElem?.mp member
    exact ⟨position, step_of_free sound here isFree⟩
  have blocked : ∀ point ∈ s.workers, point.isBlocked = true := by
    intro point member
    by_contra other
    exact free ⟨point, member, by simpa using other⟩
  have acquirable : ∀ {position : Nat} {point : Point Key}, s.workers[position]? = some point →
      (s.advance call position point).isSome = true →
      (step call s (.worker position .advance)).isSome = true := by
    intro position point here enabled
    simp only [step, here, Option.bind_some]
    exact enabled
  by_cases enters : ∃ item key, Point.entering item key ∈ s.workers
  · -- Nobody behind the slots: all of them are free.
    obtain ⟨item, key, member⟩ := enters
    obtain ⟨position, here⟩ := List.mem_iff_getElem?.mp member
    have nobody : s.workers.countP Point.holdsSlot = 0 := by
      rw [List.countP_eq_zero]
      intro point isWorker holds
      have waits := blocked point isWorker
      cases point <;> first
        | exact absurd holds Bool.false_ne_true
        | exact absurd waits Bool.false_ne_true
    have acquired : s.gate.slots.acquire.isSome = true := by
      apply Semaphore.acquire_isSome
      rw [sound.slots, nobody, sound.permits]
      exact coerceIn_pos _
    refine ⟨position, .inl (acquirable here ?_)⟩
    simpa [advance] using acquired
  · -- Everyone still at work waits for a provider nobody uses.
    obtain ⟨point, member, notEnded⟩ : ∃ point ∈ s.workers, point.isEnded = false := by
      unfold isOver at unfinished
      rw [List.all_eq_false] at unfinished
      obtain ⟨point, member, notEnded⟩ := unfinished
      refine ⟨point, member, ?_⟩
      cases point <;> first | rfl | exact absurd rfl notEnded
    obtain ⟨position, here⟩ := List.mem_iff_getElem?.mp member
    have waits := blocked point member
    cases point with
    | waiting item key =>
      have nobody : s.workers.countP (Point.holdsKey key) = 0 := by
        rw [List.countP_eq_zero]
        intro other isWorker holds
        have alsoWaits := blocked other isWorker
        cases other with
        | entering item key => exact enters ⟨item, key, isWorker⟩
        | _ => first
            | exact absurd holds Bool.false_ne_true
            | exact absurd alsoWaits Bool.false_ne_true
      have limited := sound.wants _ member key rfl
      obtain ⟨limit, isLimit⟩ := Option.isSome_iff_exists.mp limited
      have positive := sound.positive key limit isLimit
      obtain ⟨semaphore, present, rfl⟩ := Option.map_eq_some_iff.mp isLimit
      have handed := sound.providers key
      simp only [handedOut, present, nobody] at handed
      have acquired : semaphore.acquire.isSome = true := by
        apply Semaphore.acquire_isSome
        omega
      refine ⟨position, .inl (acquirable here ?_)⟩
      simpa [advance, present] using acquired
    | entering item key => exact absurd ⟨item, key, member⟩ enters
    | ended outcome => cases notEnded
    | _ => cases waits

/-- With the gate open a step of a worker lowers the work that is left. -/
theorem work_of_step {event : Event} (isOpen : s.gate.isPaused = false)
    (keeps : event.keepsOpen = true) (stepped : step call s event = some next) :
    next.gate.isPaused = false ∧
      next.work call + event.isWorker.toNat ≤ s.work call := by
  cases event with
  | setPaused paused =>
    cases stepped
    refine ⟨?_, Nat.le_refl _⟩
    rw [Gate.isPaused_eq_false] at isOpen ⊢
    rw [Event.keepsOpen, Bool.not_eq_true'] at keeps
    exact ⟨keeps, isOpen.2⟩
  | setNetwork wifiOnly wifi unmetered internet ethernet =>
    cases stepped
    refine ⟨?_, Nat.le_refl _⟩
    rw [Gate.isPaused_eq_false] at isOpen ⊢
    rw [Event.keepsOpen, Bool.not_eq_true'] at keeps
    exact ⟨isOpen.1, keeps⟩
  | cancel =>
    cases stepped
    exact ⟨isOpen, Nat.le_refl _⟩
  | worker position event =>
    obtain ⟨point, here, moves⟩ := Option.bind_eq_some_iff.mp stepped
    obtain ⟨after, moved⟩ := moved_of_stepWorker moves
    refine ⟨by rw [moved.paused, isOpen], ?_⟩
    have summed := sum_map_set_add Point.work after here
    have less := moved.work isOpen
    unfold work
    rw [moved.workers]
    simp only [Event.isWorker, Bool.toNat_true]
    omega

/-! ## The promises of `runAll` -/

omit [DecidableEq Key] in

theorem isEnded_of_isOver (isOver : s.isOver = true) :
    ∀ point ∈ s.workers, point.isEnded = true := by
  intro point member
  have ended := List.all_eq_true.mp isOver point member
  cases point <;> first | rfl | cases ended

omit [DecidableEq Key] in

theorem countP_of_isOver (isOver : s.isOver = true) {p : Point Key → Bool}
    (no : ∀ outcome, p (.ended outcome) = false) : s.workers.countP p = 0 := by
  rw [List.countP_eq_zero]
  intro point member holds
  have ended := isEnded_of_isOver isOver point member
  cases point with
  | ended outcome =>
    rw [no] at holds
    cases holds
  | _ => cases ended

variable (call) in

/-- What holds in every state: each block starts at most once and after its admission,
the bounds on running blocks, admission only while the gate is open, the return of all
permits, and termination once the gate stays open. -/
structure Admits (s : RunAll Key) : Prop where
  once : ∀ item, s.started.count item ≤ 1
  concurrent : s.workers.countP Point.isRunning ≤ coerceIn call.limit
  perProvider : ∀ key, s.workers.countP (Point.runs key) ≤
    ((s.firstUse key).map call.limitOf).getD 0
  admitted : ∀ item ∈ s.started, item ∈ s.admissions
  admission : ∀ event next, step call s event = some next → next.admissions ≠ s.admissions →
    s.gate.isPaused = false
  returned : s.isOver = true → s.gate.slots.available = s.gate.slots.permits ∧
    ∀ key semaphore, s.providers key = some semaphore → semaphore.available = semaphore.permits
  goesOn : s.isOver = false → ∃ position, (step call s (.worker position .advance)).isSome = true ∨
      (step call s (.worker position .interrupt)).isSome = true
  ends : s.gate.isPaused = false → ∀ events final, (∀ event ∈ events, event.keepsOpen = true) →
    (machine call).run s events = some final → events.countP Event.isWorker ≤ s.work call

/-- Each block runs at most as often as a worker holds both its permits, and each item
starts exactly once if nothing is thrown. -/
theorem runAll_admits (call : Call Item Key) (s : RunAll Key)
    (reachable : (machine call).Reachable Transition.Machine.anyStep s) :
    Admits call s ∧
      ((machine call).Reachable (fun _ event => event.isCalm = true) s → s.isOver = true →
        ∀ item, s.started.count item = (decide (item < call.items.length)).toNat) := by
  have sound := sound_of_reachable reachable
  refine ⟨?_, ?_⟩
  · constructor
    · intro item
      have places := sound.places item
      have bound := Bool.toNat_le (decide (item < call.items.length))
      omega
    · have running := List.countP_mono_left (l := s.workers) (p := Point.isRunning)
        (q := Point.holdsSlot) fun point _ => Point.holdsSlot_of_isRunning
      have bound := Semaphore.handedOut_le (s := s.gate.slots)
      rw [sound.slots, sound.permits] at bound
      omega
    · intro key
      have running := List.countP_mono_left (l := s.workers) (p := Point.runs key)
        (q := Point.holdsKey key) fun point _ => Point.holdsKey_of_runs
      rw [← sound.providers key] at running
      rw [← sound.limits key]
      unfold handedOut at running
      unfold limits
      cases present : s.providers key with
      | none =>
        simp only [present] at running
        exact running
      | some semaphore =>
        simp only [present] at running
        exact Nat.le_trans running Semaphore.handedOut_le
    · exact sound.started
    · intro event next stepped admits
      cases event with
      | worker position event =>
        obtain ⟨point, _, moves⟩ := Option.bind_eq_some_iff.mp stepped
        obtain ⟨after, moved⟩ := moved_of_stepWorker moves
        rcases moved.admissions with same | ⟨isOpen, _⟩
        · exact absurd same admits
        · exact isOpen
      | _ =>
        cases stepped
        exact absurd rfl admits
    · intro isOver
      refine ⟨?_, ?_⟩
      · rw [Semaphore.available_eq_permits_iff, sound.slots]
        exact countP_of_isOver isOver fun _ => rfl
      · intro key semaphore present
        have handed := sound.providers key
        rw [countP_of_isOver isOver fun _ => rfl] at handed
        simp only [handedOut, present] at handed
        exact Semaphore.available_eq_permits_iff.mpr handed
    · exact progress sound
    · intro isOpen events final keeps ran
      have counted := Transition.Machine.countP_add_variant_le (machine call)
        (fun s => s.gate.isPaused = false) Event.keepsOpen Event.isWorker (fun s => s.work call)
        (fun s event next isOpen keeps stepped => (work_of_step isOpen keeps stepped).1)
        (fun s event next isOpen keeps stepped => (work_of_step isOpen keeps stepped).2)
        isOpen keeps ran
      omega
  · intro reachableCalm isOver item
    have calm := calm_of_reachable reachableCalm
    obtain ⟨point, member⟩ := List.exists_mem_of_ne_nil _ calm.some_worker
    have fetched := calm.exhausted point member (isEnded_of_isOver isOver point member)
    have fetchedItem : s.isPending call item = false := by
      simp only [isPending, Bool.and_eq_false_imp, decide_eq_true_eq, decide_eq_false_iff_not]
      omega
    have places := calm.places item
    rw [countP_of_isOver isOver fun _ => rfl, fetchedItem] at places
    exact places

/-- One item on a gate with one slot. -/
def oneItem : Call Nat String where
  limit := 1
  items := [7]
  providerKey := fun _ => "default"
  providerLimit := fun _ => 3

/-- A paused gate refuses the item once, and the open gate lets it through. -/
def pausedOnce : List Event :=
  [.worker 0 .advance, .worker 0 .advance, .setPaused true] ++
    List.replicate 5 (.worker 0 .advance) ++ [.setPaused false] ++
    List.replicate 8 (.worker 0 .advance)

/-- The run ends with every permit returned and the item started once. -/
theorem runAll_admits_oneItem :
    ∃ s, Admits oneItem s ∧ s.isOver = true ∧ s.started.count 0 = 1 := by
  obtain ⟨s, reachable, ended⟩ := (machine oneItem).exists_reachable_of_runMeets isOver rfl
    (by decide +kernel : (machine oneItem).runMeets (fun _ event => event.isCalm)
      (start oneItem) pausedOnce = true)
    (by decide +kernel : ((machine oneItem).run (start oneItem) pausedOnce).any _ = true)
  obtain ⟨admits, complete⟩ := runAll_admits oneItem s (reachable.mono fun _ _ _ => trivial)
  exact ⟨s, admits, ended, complete reachable ended 0⟩

end RunAll

end LosslessMusic.Admission
