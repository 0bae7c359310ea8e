import LosslessMusic.Extensions.DownloadOwnership

/-!
# What is left of an extension that is gone

A runtime is idle only in the pool of the current installation while that one is enabled,
or while a thread is on its way to tear it down. With the ownership of runtimes this gives
what is promised of the pool in every run.
-/

namespace LosslessMusic.Extensions.Workers

variable {σ : Type}

variable {point : Thread σ}

namespace Thread

/-- The installation that a thread is about. -/
def entry : Thread σ → Option Nat
  | .free => none
  | .waiting _ entry | .preparing _ entry | .initializing entry | .reading entry
  | .pooling entry _ | .starting entry _ _ _ | .entering entry _ _ _ | .borrowed entry _ _ _
  | .removing entry | .tearing _ entry | .clearing entry | .publishing entry _ => some entry

/-- The installation that a thread is on its way to tear down. -/
def tears : Thread σ → Option Nat
  | .removing entry | .tearing _ entry => some entry
  | _ => none

/-- Whether a thread holds the mutation lock. -/
def mutates : Thread σ → Bool
  | .waiting .enable _ | .waiting .configure _ | .preparing .enable _ | .preparing .configure _
  | .initializing _ | .removing _ | .tearing _ _ | .clearing _ | .publishing _ _ => true
  | _ => false

/-- The installation that a thread is about to replace. -/
def upgrades : Thread σ → Option Nat
  | .tearing (.upgrade _) entry | .publishing entry _ => some entry
  | _ => none

/-- Whether a thread has taken the extension out of `entries`. -/
def unloads : Thread σ → Bool
  | .removing _ | .tearing .unload _ | .clearing _ => true
  | _ => false

theorem entry_of_loan {entry generation : Nat} {settings : σ}
    (borrows : point.loan = some (entry, settings, generation)) : point.entry = some entry := by
  cases point with
  | starting | entering | borrowed =>
    cases borrows
    rfl
  | _ => cases borrows

theorem mutates_of_tears {entry : Nat}
    (tears : point.tears = some entry) : point.mutates = true := by
  cases point with
  | removing | tearing => rfl
  | _ => cases tears

theorem mutates_of_upgrades {entry : Nat}
    (upgrades : point.upgrades = some entry) : point.mutates = true := by
  cases point with
  | tearing | publishing => rfl
  | _ => cases upgrades

theorem mutates_of_unloads (unloads : point.unloads = true) : point.mutates = true:= by
  cases point with
  | removing | tearing | clearing => rfl
  | _ => cases unloads

end Thread

/-- Idle runtimes belong to the current installation that is enabled, or to one that is
about to be torn down. Only the holder of the mutation lock changes the extension; what it
upgrades is current and disabled, and what it removes is out of `entries`. Installations
are numbered. -/
structure Quiet (manager : Manager σ) : Prop where
  quiet : ∀ entry runtime, (manager.pool entry).idle = some runtime →
    ((manager.entries entry).enabled = true ∧ manager.current = some entry) ∨
      ∃ thread, (manager.threads thread).tears = some entry
  mutating : ∀ thread, (manager.threads thread).mutates = true → manager.mutation = some thread
  upgrading : ∀ thread entry, (manager.threads thread).upgrades = some entry →
    (manager.entries entry).enabled = false ∧ manager.current = some entry
  unloading : ∀ thread, (manager.threads thread).unloads = true → manager.current = none
  threadEntry : ∀ thread entry, (manager.threads thread).entry = some entry →
    entry < manager.installed
  currentEntry : ∀ entry, manager.current = some entry → entry < manager.installed
  idleEntry : ∀ entry runtime, (manager.pool entry).idle = some runtime → entry < manager.installed

namespace Quiet

variable {manager next : Manager σ} {thread : Nat}

/-- The invariant survives whatever only takes idle runtimes away. -/
theorem fewer (quiet : Quiet manager) (threads : next.threads = manager.threads)
    (enabled : ∀ entry, (next.entries entry).enabled = (manager.entries entry).enabled)
    (idle : ∀ entry runtime, (next.pool entry).idle = some runtime →
      (manager.pool entry).idle = some runtime)
    (current : next.current = manager.current) (mutation : next.mutation = manager.mutation)
    (installed : next.installed = manager.installed) : Quiet next := by
  obtain ⟨quiet, mutating, upgrading, unloading, threadEntry, currentEntry, idleEntry⟩ := quiet
  refine ⟨?_, ?_, ?_, ?_, ?_, ?_, ?_⟩
  · intro entry runtime isIdle
    rw [threads, enabled, current]
    exact quiet entry runtime (idle entry runtime isIdle)
  · rw [threads, mutation]
    exact mutating
  · intro thread entry
    rw [threads, enabled, current]
    exact upgrading thread entry
  · rw [threads, current]
    exact unloading
  · rw [threads, installed]
    exact threadEntry
  · rw [current, installed]
    exact currentEntry
  · intro entry runtime isIdle
    rw [installed]
    exact idleEntry entry runtime (idle entry runtime isIdle)

theorem edit (quiet : Quiet manager) (entry : Nat) {change : Installed σ → Installed σ}
    (enabled : ∀ installed, (change installed).enabled = installed.enabled)
    (idle : ∀ installed runtime, (change installed).downloads.idle = some runtime →
      installed.downloads.idle = some runtime) : Quiet (manager.edit entry change) := by
  refine quiet.fewer rfl ?_ ?_ rfl rfl rfl
  · intro other
    unfold Manager.edit
    dsimp only
    rw [Function.update_apply]
    split
    next same => rw [enabled, same]
    next => rfl
  · intro other runtime
    rw [Manager.pool_edit]
    split
    next same =>
      rw [same]
      exact idle _ runtime
    next => exact id

theorem shutdown (quiet : Quiet manager) (runtime : Nat) : Quiet (manager.shutdown runtime) :=
  quiet.fewer rfl (fun _ => rfl) (fun _ _ => id) rfl rfl rfl

theorem setPool (quiet : Quiet manager) {entry : Nat} {pool : Pool σ}
    (idle : ∀ runtime, pool.idle = some runtime → (manager.pool entry).idle = some runtime) :
    Quiet (manager.setPool entry pool) := by
  refine quiet.fewer rfl ?_ ?_ rfl rfl rfl
  · intro other
    unfold Manager.setPool Manager.edit
    dsimp only
    rw [Function.update_apply]
    split
    next same => rw [same]
    next => rfl
  · intro other runtime
    rw [Manager.pool_setPool]
    split
    next same =>
      rw [same]
      exact idle runtime
    next => exact id

theorem inactivate (quiet : Quiet manager) (entry : Nat) (active : List Nat) :
    Quiet (manager.setPool entry { manager.pool entry with active := active }) :=
  quiet.setPool fun _ => id

theorem invalidate (quiet : Quiet manager) (entry : Nat) : Quiet (manager.invalidate entry) := by
  unfold Manager.invalidate
  dsimp only
  split
  · refine Quiet.shutdown (quiet.setPool ?_) _
    intro runtime isIdle
    cases isIdle
  · refine quiet.setPool ?_
    intro runtime isIdle
    cases isIdle

theorem foldl_shutdown (quiet : Quiet manager) (runtimes : List Nat) :
    Quiet (runtimes.foldl Manager.shutdown manager) := by
  induction runtimes generalizing manager with
  | nil => exact quiet
  | cons runtime rest ih => exact ih (quiet.shutdown runtime)

theorem tearDown (quiet : Quiet manager) (entry : Nat) : Quiet (manager.tearDown entry) := by
  have emptied : Quiet ((manager.invalidate entry).setPool entry
      { (manager.invalidate entry).pool entry with active := [] }) :=
    (quiet.invalidate entry).setPool fun _ => id
  exact emptied.foldl_shutdown _

/-- A thread goes on: it may stop tearing something down where nothing is idle. -/
theorem setThread (quiet : Quiet manager)
    (tears : ∀ entry, (manager.threads thread).tears = some entry →
      point.tears = some entry ∨ (manager.pool entry).idle = none)
    (mutates : point.mutates = true → manager.mutation = some thread)
    (upgrades : ∀ entry, point.upgrades = some entry →
      (manager.entries entry).enabled = false ∧ manager.current = some entry)
    (unloads : point.unloads = true → manager.current = none)
    (within : ∀ entry, point.entry = some entry → entry < manager.installed) :
    Quiet (manager.setThread thread point) := by
  have points (other : Nat) := manager.threads_setThread other thread point
  refine ⟨?_, ?_, ?_, ?_, ?_, quiet.currentEntry, quiet.idleEntry⟩
  · intro entry runtime isIdle
    rcases quiet.quiet entry runtime isIdle with isCurrent | ⟨other, isTearing⟩
    · exact .inl isCurrent
    · refine .inr ?_
      by_cases same : other = thread
      · rw [same] at isTearing
        rcases tears entry isTearing with goesOn | empty
        · refine ⟨thread, ?_⟩
          rw [points, if_pos rfl]
          exact goesOn
        · cases empty.symm.trans isIdle
      · refine ⟨other, ?_⟩
        rw [points, if_neg same]
        exact isTearing
  · intro other
    rw [points]
    split
    next same =>
      rw [same]
      exact mutates
    next => exact quiet.mutating other
  · intro other entry
    rw [points]
    split
    · exact upgrades entry
    · exact quiet.upgrading other entry
  · intro other
    rw [points]
    split
    · exact unloads
    · exact quiet.unloading other
  · intro other entry
    rw [points]
    split
    · exact within entry
    · exact quiet.threadEntry other entry

/-- A thread that does not change the extension goes on with its installation. -/
theorem goOn (quiet : Quiet manager) (still : (manager.threads thread).tears = none)
    (harmless : point.mutates = false)
    (within : ∀ entry, point.entry = some entry → entry < manager.installed) :
    Quiet (manager.setThread thread point) := by
  refine quiet.setThread ?_ ?_ ?_ ?_ within
  · intro entry tears
    cases still.symm.trans tears
  · intro mutates
    cases harmless.symm.trans mutates
  · intro entry upgrades
    cases harmless.symm.trans (Thread.mutates_of_upgrades upgrades)
  · intro unloads
    cases harmless.symm.trans (Thread.mutates_of_unloads unloads)

theorem finish (quiet : Quiet manager) (entry : Nat)
    (tears : ∀ other, (manager.threads thread).tears = some other →
      (manager.pool other).idle = none) : Quiet (manager.finish thread entry) := by
  have edited : Quiet (manager.edit entry fun installed => { installed with
      engine := if installed.engine = some thread then none else installed.engine }) :=
    quiet.edit entry (fun _ => rfl) fun _ _ => id
  have free : Quiet ((manager.edit entry fun installed => { installed with
      engine := if installed.engine = some thread then none else installed.engine }).setThread
        thread .free) := by
    refine edited.setThread ?_ nofun nofun nofun nofun
    intro other isTearing
    rw [Manager.pool_edit_same]
    · exact .inr (tears other isTearing)
    · exact fun _ => rfl
  refine ⟨free.quiet, ?_, free.upgrading, free.unloading, free.threadEntry, free.currentEntry,
    free.idleEntry⟩
  intro other mutates
  have holds := free.mutating other mutates
  have apart : other ≠ thread := by
    rintro rfl
    have isFree := Manager.threads_setThread (manager.edit entry fun installed => { installed with
      engine := if installed.engine = some other then none else installed.engine }) other other .free
    rw [if_pos rfl] at isFree
    unfold Manager.finish at mutates
    dsimp only at mutates
    rw [isFree] at mutates
    cases mutates
  have mutation : manager.mutation = some other := holds
  have kept : (manager.finish thread entry).mutation =
      if manager.mutation = some thread then none else manager.mutation := rfl
  rw [kept, mutation, if_neg]
  exact fun same => apart (Option.some_inj.mp same)

theorem enabled_setStatus (manager : Manager σ) (entry other : Nat) (enabled : Bool) :
    ((manager.setStatus entry enabled).entries other).enabled =
      if other = entry then enabled else (manager.entries other).enabled := by
  unfold Manager.setStatus Manager.edit
  dsimp only
  rw [Function.update_apply]
  split
  · rfl
  · rfl

theorem pool_setStatus (manager : Manager σ) (entry other : Nat) (enabled : Bool) :
    (manager.setStatus entry enabled).pool other = manager.pool other := by
  unfold Manager.setStatus
  exact manager.pool_edit_same entry other fun _ => rfl

/-- What is disabled is about to be torn down, or has nothing idle, and what is about to be
replaced is not enabled. -/
theorem setStatus (quiet : Quiet manager) {entry : Nat} {enabled : Bool}
    (disables : enabled = false → ∀ runtime, (manager.pool entry).idle = some runtime →
      ∃ thread, (manager.threads thread).tears = some entry)
    (enables : enabled = true → ∀ thread, (manager.threads thread).upgrades ≠ some entry) :
    Quiet (manager.setStatus entry enabled) := by
  refine ⟨?_, quiet.mutating, ?_, quiet.unloading, quiet.threadEntry, quiet.currentEntry, ?_⟩
  · intro other runtime isIdle
    rw [pool_setStatus] at isIdle
    rw [enabled_setStatus]
    split
    next same =>
      rw [same] at isIdle ⊢
      cases enabled with
      | false => exact .inr (disables rfl runtime isIdle)
      | true => exact (quiet.quiet entry runtime isIdle).imp_left fun isCurrent =>
        ⟨rfl, isCurrent.2⟩
    next => exact quiet.quiet other runtime isIdle
  · intro thread other upgrades
    have before := quiet.upgrading thread other upgrades
    rw [enabled_setStatus]
    split
    next same =>
      refine ⟨?_, before.2⟩
      by_contra isEnabled
      rw [Bool.not_eq_false] at isEnabled
      rw [same] at upgrades
      exact enables isEnabled thread upgrades
    next => exact before
  · intro other runtime isIdle
    rw [pool_setStatus] at isIdle
    exact quiet.idleEntry other runtime isIdle

theorem failed (quiet : Quiet manager) {entry : Nat} (empty : (manager.pool entry).idle = none) :
    Quiet (manager.failed entry) := by
  refine quiet.setStatus ?_ nofun
  intro _ runtime isIdle
  cases empty.symm.trans isIdle

theorem unchanging (quiet : Quiet manager) (unlocked : manager.mutation = none) (other : Nat) :
    (manager.threads other).mutates = false := by
  rw [← Bool.not_eq_true]
  intro mutates
  cases unlocked.symm.trans (quiet.mutating other mutates)

theorem lockMutation (quiet : Quiet manager) (unlocked : manager.mutation = none) (thread : Nat) :
    Quiet (manager.lockMutation thread) := by
  refine ⟨quiet.quiet, ?_, quiet.upgrading, quiet.unloading, quiet.threadEntry,
    quiet.currentEntry, quiet.idleEntry⟩
  intro other mutates
  exact absurd (quiet.unchanging unlocked other) (by rw [← Bool.not_eq_true]; exact not_not.mpr mutates)

theorem alone (quiet : Quiet manager) {other : Nat}
    (mutates : (manager.threads thread).mutates = true)
    (mutatesToo : (manager.threads other).mutates = true) : other = thread :=
  Option.some_inj.mp ((quiet.mutating other mutatesToo).symm.trans (quiet.mutating thread mutates))

/-- Nothing is idle while an extension is out of `entries` and nobody is about to tear it
down. -/
theorem nothingIdle (quiet : Quiet manager)
    (gone : ∀ entry, manager.current = some entry → (manager.entries entry).enabled = false)
    (settled : ∀ other entry, (manager.threads other).tears ≠ some entry) (entry : Nat) :
    (manager.pool entry).idle = none := by
  cases isIdle : (manager.pool entry).idle with
  | none => rfl
  | some runtime =>
    rcases quiet.quiet entry runtime isIdle with ⟨enabled, current⟩ | ⟨other, tears⟩
    · exact absurd ((gone entry current).symm.trans enabled) Bool.false_ne_true
    · exact absurd tears (settled other entry)

/-- Once the thread that changes the extension has ended its call, nobody does. -/
theorem unchanging_finish (quiet : Quiet manager)
    (mutates : (manager.threads thread).mutates = true) (entry other : Nat) :
    ((manager.finish thread entry).threads other).mutates = false := by
  have points : (manager.finish thread entry).threads other =
      if other = thread then .free else manager.threads other := by
    unfold Manager.finish
    exact Manager.threads_setThread _ other thread .free
  rw [points]
  split
  · rfl
  next apart =>
    rw [← Bool.not_eq_true]
    exact fun mutatesToo => apart (quiet.alone mutates mutatesToo)

theorem pool_finish (manager : Manager σ) (thread entry other : Nat) :
    (manager.finish thread entry).pool other = manager.pool other := by
  have same : ∀ installed : Installed σ, ({ installed with
      engine := if installed.engine = some thread then none else installed.engine } :
        Installed σ).downloads = installed.downloads := fun _ => rfl
  exact manager.pool_edit_same entry other same

/-- Where nothing is idle and nobody changes the extension, any installation may be put
back. -/
theorem restore (quiet : Quiet manager) (empty : ∀ entry, (manager.pool entry).idle = none)
    (nobody : ∀ other, (manager.threads other).mutates = false) {entry : Nat}
    (within : entry < manager.installed) : Quiet { manager with current := some entry } := by
  refine ⟨?_, quiet.mutating, ?_, ?_, quiet.threadEntry, ?_, quiet.idleEntry⟩
  · intro other runtime isIdle
    cases (empty other).symm.trans isIdle
  · intro other isEntry upgrades
    cases (nobody other).symm.trans (Thread.mutates_of_upgrades upgrades)
  · intro other unloads
    cases (nobody other).symm.trans (Thread.mutates_of_unloads unloads)
  · intro other current
    rw [← Option.some_inj.mp current]
    exact within

/-- Where nothing is idle, a new installation may be put in place, unless an old one is
about to be. -/
theorem insert (quiet : Quiet manager) (empty : ∀ entry, (manager.pool entry).idle = none)
    (nobody : ∀ other, (manager.threads other).mutates = false) (enabled : Bool) :
    Quiet (manager.insert enabled) := by
  have pools (entry : Nat) : ((manager.insert enabled).pool entry).idle = none := by
    unfold Manager.insert Manager.pool
    dsimp only
    rw [Function.update_apply]
    split
    · rfl
    · exact empty entry
  refine ⟨?_, quiet.mutating, ?_, ?_, ?_, ?_, ?_⟩
  · intro entry runtime isIdle
    cases (pools entry).symm.trans isIdle
  · intro other entry upgrades
    cases (nobody other).symm.trans (Thread.mutates_of_upgrades upgrades)
  · intro other unloads
    cases (nobody other).symm.trans (Thread.mutates_of_unloads unloads)
  · exact fun other entry isEntry => Nat.lt_succ_of_lt (quiet.threadEntry other entry isEntry)
  · intro entry current
    rw [← Option.some_inj.mp current]
    exact Nat.lt_succ_self _
  · intro entry runtime isIdle
    cases (pools entry).symm.trans isIdle

/-- The current installation may keep a runtime while it is enabled. -/
theorem keep (quiet : Quiet manager) {entry : Nat} {pool : Pool σ}
    (enabled : (manager.entries entry).enabled = true) (current : manager.current = some entry) :
    Quiet (manager.setPool entry pool) := by
  have statuses (other : Nat) : ((manager.setPool entry pool).entries other).enabled =
      (manager.entries other).enabled := by
    unfold Manager.setPool Manager.edit
    dsimp only
    rw [Function.update_apply]
    split
    next same => rw [same]
    next => rfl
  refine ⟨?_, quiet.mutating, ?_, quiet.unloading, quiet.threadEntry, quiet.currentEntry, ?_⟩
  · intro other runtime
    rw [Manager.pool_setPool, statuses]
    split
    next same =>
      intro _
      rw [same]
      exact .inl ⟨enabled, current⟩
    next => exact quiet.quiet other runtime
  · intro thread other
    rw [statuses]
    exact quiet.upgrading thread other
  · intro other runtime
    rw [Manager.pool_setPool]
    split
    next same =>
      intro _
      rw [same]
      exact quiet.currentEntry entry current
    next => exact quiet.idleEntry other runtime

/-- A thread that is going to tear an installation down disables it first. -/
theorem disable (quiet : Quiet manager) {entry : Nat} {ending : Ending}
    (tears : ∀ other, (manager.threads thread).tears = some other → other = entry)
    (within : entry < manager.installed) (locked : manager.mutation = some thread)
    (upgrades : ∀ enabled, ending = .upgrade enabled → manager.current = some entry)
    (unloads : ending = .unload → manager.current = none) :
    Quiet ((manager.setStatus entry false).setThread thread (.tearing ending entry)) := by
  have points (other : Nat) :=
    (manager.setStatus entry false).threads_setThread other thread (.tearing ending entry)
  have statuses (other : Nat) := enabled_setStatus manager entry other false
  have pools (other : Nat) := pool_setStatus manager entry other false
  refine ⟨?_, ?_, ?_, ?_, ?_, quiet.currentEntry, ?_⟩
  · intro other runtime isIdle
    rw [Manager.pool_setThread, pools] at isIdle
    by_cases here : other = entry
    · refine .inr ⟨thread, ?_⟩
      rw [points, if_pos rfl, here]
      rfl
    · rcases quiet.quiet other runtime isIdle with ⟨enabled, current⟩ | ⟨user, isTearing⟩
      · refine .inl ⟨?_, current⟩
        exact (statuses other).trans ((if_neg here).trans enabled)
      · have elsewhere : user ≠ thread := by
          rintro rfl
          exact here (tears other isTearing)
        refine .inr ⟨user, ?_⟩
        rw [points, if_neg elsewhere]
        exact isTearing
  · intro user
    rw [points]
    split
    next same =>
      rw [same]
      exact fun _ => locked
    next => exact quiet.mutating user
  · intro user other
    rw [points]
    split
    next =>
      intro upgrade
      cases ending with
      | upgrade enabled =>
        cases upgrade
        exact ⟨(statuses entry).trans (if_pos rfl), upgrades enabled rfl⟩
      | disable => cases upgrade
      | unload => cases upgrade
    next =>
      intro upgrade
      obtain ⟨disabled, current⟩ := quiet.upgrading user other upgrade
      refine ⟨(statuses other).trans ?_, current⟩
      rw [disabled, ite_self]
  · intro user
    rw [points]
    split
    next =>
      intro unload
      cases ending with
      | unload => exact unloads rfl
      | disable => cases unload
      | upgrade enabled => cases unload
    next => exact quiet.unloading user
  · intro user other
    rw [points]
    split
    next =>
      intro isOther
      cases isOther
      exact within
    next => exact quiet.threadEntry user other
  · intro other runtime isIdle
    rw [Manager.pool_setThread, pools] at isIdle
    exact quiet.idleEntry other runtime isIdle

theorem within (quiet : Quiet manager) (isAt : manager.threads thread = point) {entry : Nat}
    (isEntry : point.entry = some entry) : entry < manager.installed := by
  refine quiet.threadEntry thread entry ?_
  rw [isAt]
  exact isEntry

end Quiet

end LosslessMusic.Extensions.Workers
