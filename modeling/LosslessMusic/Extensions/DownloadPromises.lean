import LosslessMusic.Extensions.DownloadSafety

/-!
# The promises of the download pool

Every event keeps the invariant, if it is a careful one. So in a run of careful events a
runtime has one user at most, and those of an extension that is gone are shut down. A
failure that disables an extension behind the back of its pool breaks this.
-/

namespace LosslessMusic.Extensions.Workers

open Transition

variable {σ : Type}

/-- What a careful event leaves room for. -/
structure Manager.Careful [DecidableEq σ] (manager : Manager σ) (event : Event σ) : Prop where
  room : ∀ entry, manager.invalidates event = some entry →
    (manager.pool entry).generation + 1 < generations
  empty : ∀ entry, manager.fails event = some entry → (manager.pool entry).idle = none

theorem Manager.careful_iff [DecidableEq σ] (manager : Manager σ) (event : Event σ) :
    manager.careful event = true ↔ manager.Careful event := by
  unfold Manager.careful
  rw [Bool.and_eq_true, Option.all_eq_true, Option.all_eq_true]
  simp only [decide_eq_true_eq, Option.isNone_iff_eq_none]
  exact ⟨fun both => ⟨both.1, both.2⟩, fun careful => ⟨careful.room, careful.empty⟩⟩

/-! ## Events -/

/-- The invariant of the download workers. -/
structure Inv (manager : Manager σ) : Prop where
  owned : Owned manager
  quiet : Quiet manager

namespace Inv

variable {manager next : Manager σ} {thread : Nat}

variable {before point : Thread σ}

/-- A thread that has no runtime, and does not change the extension, goes on. -/
theorem goOn (inv : Inv manager) (isAt : manager.threads thread = before)
    (had : before.runtime = none) (has : point.runtime = none) (borrows : point.loan = none)
    (still : before.tears = none) (harmless : point.mutates = false)
    (same : ∀ entry, point.entry = some entry → before.entry = some entry) :
    Inv (manager.setThread thread point) where
  owned := inv.owned.setThread (by rw [isAt]; exact had) has borrows
  quiet := inv.quiet.goOn (by rw [isAt]; exact still) harmless fun entry isEntry =>
    inv.quiet.within isAt (same entry isEntry)

theorem finish (inv : Inv manager) (isAt : manager.threads thread = before)
    (had : before.runtime = none) (still : before.tears = none) (entry : Nat) :
    Inv (manager.finish thread entry) where
  owned := by
    refine inv.owned.finish ?_ ?_ entry
    · rw [isAt, had]
      exact nofun
    · cases uses : before.uses with
      | none => rw [isAt, uses]
      | some used => cases had.symm.trans (Thread.runtime_of_uses uses)
  quiet := by
    refine inv.quiet.finish entry ?_
    rw [isAt, still]
    exact nofun

variable {entry : Nat}

theorem failed (inv : Inv manager) (empty : (manager.pool entry).idle = none) :
    Inv (manager.failed entry) :=
  ⟨inv.owned.failed entry, inv.quiet.failed empty⟩

theorem finishFailed (inv : Inv manager) (isAt : manager.threads thread = before)
    (had : before.runtime = none) (still : before.tears = none) (purpose : Purpose)
    (empty : purpose ≠ .borrow → (manager.pool entry).idle = none) :
    Inv (manager.finishFailed purpose thread entry) := by
  cases purpose with
  | borrow => exact inv.finish isAt had still entry
  | enable | configure => exact (inv.failed (empty nofun)).finish isAt had still entry

theorem invalidate (inv : Inv manager) (room : (manager.pool entry).generation + 1 < generations) :
    Inv (manager.invalidate entry) :=
  ⟨inv.owned.invalidate room, inv.quiet.invalidate entry⟩

theorem tearDown (inv : Inv manager) (room : (manager.pool entry).generation + 1 < generations) :
    Inv (manager.tearDown entry) :=
  ⟨inv.owned.tearDown room, inv.quiet.tearDown entry⟩

theorem threads_invalidate (manager : Manager σ) (entry : Nat) :
    (manager.invalidate entry).threads = manager.threads := by
  unfold Manager.invalidate
  dsimp only
  split
  · rfl
  · rfl

theorem pool_invalidate (manager : Manager σ) (entry : Nat) :
    (manager.invalidate entry).pool entry = { manager.pool entry with
      idle := none
      generation := ((manager.pool entry).generation + 1) % generations
      settings := none } := by
  unfold Manager.invalidate
  dsimp only
  split
  · exact (Manager.pool_setPool manager entry entry _).trans (if_pos rfl)
  · exact (Manager.pool_setPool manager entry entry _).trans (if_pos rfl)

theorem foldl_shutdown_same (manager : Manager σ) (runtimes : List Nat) :
    (runtimes.foldl Manager.shutdown manager).threads = manager.threads ∧
      (runtimes.foldl Manager.shutdown manager).entries = manager.entries := by
  induction runtimes generalizing manager with
  | nil => exact ⟨rfl, rfl⟩
  | cons runtime rest ih => exact ih (manager.shutdown runtime)

theorem threads_tearDown (manager : Manager σ) (entry : Nat) :
    (manager.tearDown entry).threads = manager.threads := by
  unfold Manager.tearDown
  exact (foldl_shutdown_same _ _).1.trans (threads_invalidate manager entry)

theorem idle_tearDown (manager : Manager σ) (entry : Nat) :
    ((manager.tearDown entry).pool entry).idle = none := by
  have same (before : Manager σ) (runtimes : List Nat) :
      (runtimes.foldl Manager.shutdown before).pool entry = before.pool entry := by
    unfold Manager.pool
    rw [(foldl_shutdown_same before runtimes).2]
  unfold Manager.tearDown
  dsimp only
  rw [same, Manager.pool_setPool, if_pos rfl]
  dsimp only
  rw [pool_invalidate]

theorem borrow (inv : Inv manager) (isNext : manager.borrow thread = some next) : Inv next := by
  unfold Manager.borrow at isNext
  split at isNext
  next entry free current =>
    rw [Option.some_inj] at isNext
    rw [← isNext]
    refine ⟨inv.owned.setThread (by rw [free]; rfl) rfl rfl, ?_⟩
    refine inv.quiet.goOn (by rw [free]; rfl) rfl ?_
    intro other isOther
    cases isOther
    exact inv.quiet.currentEntry entry current
  next => cases isNext

theorem giveUp (inv : Inv manager) (isNext : manager.giveUp thread = some next) : Inv next := by
  unfold Manager.giveUp at isNext
  split at isNext
  next entry waits =>
    rw [Option.some_inj] at isNext
    rw [← isNext]
    exact inv.goOn waits rfl rfl rfl rfl rfl nofun
  next => cases isNext

theorem lock (inv : Inv manager) {purpose : Purpose}
    (waits : manager.threads thread = .waiting purpose entry) :
    Inv ((manager.setEngine entry (some thread)).setThread thread (.preparing purpose entry)) := by
  have locked : Inv (manager.setEngine entry (some thread)) :=
    ⟨inv.owned.edit entry fun _ => rfl, inv.quiet.edit entry (fun _ => rfl) fun _ _ => id⟩
  refine ⟨locked.owned.setThread ?_ rfl rfl, ?_⟩
  · rw [show (manager.setEngine entry (some thread)).threads thread = .waiting purpose entry
      from waits]
    rfl
  · refine locked.quiet.setThread ?_ ?_ nofun nofun ?_
    · rw [show (manager.setEngine entry (some thread)).threads thread = .waiting purpose entry
        from waits]
      exact nofun
    · intro mutates
      refine inv.quiet.mutating thread ?_
      rw [waits]
      cases purpose with
      | borrow => cases mutates
      | enable => rfl
      | configure => rfl
    · intro other isOther
      exact inv.quiet.within waits isOther

theorem lockEngine [DecidableEq σ] (inv : Inv manager)
    (careful : manager.Careful (.lockEngine thread))
    (isNext : manager.lockEngine thread = some next) : Inv next := by
  unfold Manager.lockEngine at isNext
  split at isNext
  next purpose entry waits =>
    split at isNext
    next =>
      have locked := inv.lock waits
      cases purpose with
      | borrow =>
        dsimp only at isNext
        split at isNext
        next =>
          cases isNext
          exact locked
        next =>
          cases isNext
          exact inv.goOn waits rfl rfl rfl rfl rfl nofun
      | enable =>
        cases isNext
        exact locked
      | configure =>
        dsimp only at isNext
        split at isNext
        next =>
          cases isNext
          refine locked.invalidate ?_
          rw [Manager.pool_setThread]
          unfold Manager.setEngine
          rw [Manager.pool_edit_same]
          · refine careful.room entry ?_
            unfold Manager.invalidates
            dsimp only
            rw [waits]
          · exact fun _ => rfl
        next =>
          cases isNext
          exact inv.finish waits rfl rfl entry
    next => cases isNext
  next => cases isNext

theorem gatesFail [DecidableEq σ] (inv : Inv manager)
    (careful : manager.Careful (.gatesFail thread))
    (isNext : manager.gatesFail thread = some next) : Inv next := by
  unfold Manager.gatesFail at isNext
  split at isNext
  next purpose entry prepares =>
    cases isNext
    have empty : (manager.pool entry).idle = none := by
      refine careful.empty entry ?_
      unfold Manager.fails
      dsimp only
      rw [prepares]
    have emptyStill : ((manager.failed entry).pool entry).idle = none := by
      unfold Manager.failed
      rw [Quiet.pool_setStatus]
      exact empty
    exact (inv.failed empty).finishFailed prepares rfl rfl purpose fun _ => emptyStill
  next => cases isNext

theorem reopen [DecidableEq σ] (inv : Inv manager) (careful : manager.Careful (.reopen thread))
    (isNext : manager.reopen thread = some next) : Inv next := by
  unfold Manager.reopen at isNext
  split at isNext
  next purpose entry prepares =>
    cases isNext
    refine inv.invalidate (careful.room entry ?_)
    unfold Manager.invalidates
    dsimp only
    rw [prepares]
  next => cases isNext

theorem prepareFails [DecidableEq σ] (inv : Inv manager)
    (careful : manager.Careful (.prepareFails thread))
    (isNext : manager.prepareFails thread = some next) : Inv next := by
  unfold Manager.prepareFails at isNext
  split at isNext
  next purpose entry prepares =>
    cases isNext
    refine inv.finishFailed prepares rfl rfl purpose ?_
    intro changes
    refine careful.empty entry ?_
    unfold Manager.fails
    dsimp only
    rw [prepares]
    cases purpose with
    | borrow => exact absurd rfl changes
    | enable => rfl
    | configure => rfl
  next => cases isNext

theorem initializeFails [DecidableEq σ] (inv : Inv manager)
    (careful : manager.Careful (.initializeFails thread))
    (isNext : manager.initializeFails thread = some next) : Inv next := by
  unfold Manager.initializeFails at isNext
  split at isNext
  next purpose entry prepares =>
    cases isNext
    have room : (manager.pool entry).generation + 1 < generations := by
      refine careful.room entry ?_
      unfold Manager.invalidates
      dsimp only
      rw [prepares]
    have isAt : (manager.tearDown entry).threads thread = .preparing purpose entry := by
      rw [threads_tearDown]
      exact prepares
    exact (inv.tearDown room).finishFailed isAt rfl rfl purpose fun _ =>
      idle_tearDown manager entry
  next => cases isNext

theorem ready (inv : Inv manager) (isNext : manager.ready thread = some next) : Inv next := by
  unfold Manager.ready at isNext
  split at isNext
  next entry prepares =>
    cases isNext
    exact inv.goOn prepares rfl rfl rfl rfl rfl fun _ => id
  next entry prepares =>
    cases isNext
    exact inv.finish prepares rfl rfl entry
  next entry prepares =>
    cases isNext
    refine ⟨inv.owned.setThread (by rw [prepares]; rfl) rfl rfl, ?_⟩
    refine inv.quiet.setThread ?_ ?_ nofun nofun fun other isOther =>
      inv.quiet.within prepares isOther
    · rw [prepares]
      exact nofun
    · intro _
      exact inv.quiet.mutating thread (by rw [prepares]; rfl)
  next => cases isNext

variable {succeeds : Bool}

theorem initialized [DecidableEq σ] (inv : Inv manager)
    (careful : manager.Careful (.initialized thread succeeds))
    (isNext : manager.initialized thread succeeds = some next) : Inv next := by
  unfold Manager.initialized at isNext
  split at isNext
  next entry waits =>
    cases succeeds with
    | true =>
      cases isNext
      exact inv.finish waits rfl rfl entry
    | false =>
      cases isNext
      refine inv.finishFailed waits rfl rfl .configure fun _ => careful.empty entry ?_
      unfold Manager.fails
      dsimp only
      rw [waits]
  next => cases isNext

theorem readSettings (inv : Inv manager)
    (isNext : manager.readSettings thread succeeds = some next) : Inv next := by
  unfold Manager.readSettings at isNext
  split at isNext
  next entry reads =>
    split at isNext
    next =>
      cases isNext
      exact inv.goOn reads rfl rfl rfl rfl rfl fun _ => id
    next =>
      cases isNext
      exact inv.finish reads rfl rfl entry
  next => cases isNext

/-- A pool that is looked at has the settings of the borrower. -/
theorem takeOut (inv : Inv manager) {settings : σ}
    (pools : manager.threads thread = .pooling entry settings)
    (configured : (manager.pool entry).settings = some settings) :
    Inv ((manager.setPool entry { manager.pool entry with idle := none }).setThread thread
      (.starting entry settings (manager.pool entry).generation (manager.pool entry).idle)) where
  owned := inv.owned.takeOut (by rw [pools]; rfl) configured
  quiet := by
    have emptied : Quiet (manager.setPool entry { manager.pool entry with idle := none }) := by
      refine inv.quiet.setPool ?_
      intro runtime isIdle
      cases isIdle
    have isAt : (manager.setPool entry { manager.pool entry with idle := none }).threads thread =
        .pooling entry settings := pools
    refine emptied.goOn (by rw [isAt]; rfl) rfl ?_
    intro other isOther
    exact inv.quiet.within pools isOther

theorem takeIdle [DecidableEq σ] (inv : Inv manager) (careful : manager.Careful (.takeIdle thread))
    (isNext : manager.takeIdle thread = some next) : Inv next := by
  unfold Manager.takeIdle at isNext
  split at isNext
  next entry settings pools =>
    cases isNext
    dsimp only
    split
    next differs =>
      have room : (manager.pool entry).generation + 1 < generations := by
        refine careful.room entry ?_
        unfold Manager.invalidates
        dsimp only
        rw [pools]
        exact if_pos differs
      have invalidated := inv.invalidate room
      have pool := pool_invalidate manager entry
      have empty : ((manager.invalidate entry).pool entry).idle = none := by rw [pool]
      have new : ∀ other read generation,
          ((manager.invalidate entry).threads other).loan = some (entry, read, generation) →
            generation < ((manager.invalidate entry).pool entry).generation := by
        intro other read generation loan
        rw [threads_invalidate] at loan
        have before := (inv.owned.generation other entry read generation loan).1
        rw [pool]
        dsimp only
        rw [Nat.mod_eq_of_lt room]
        exact Nat.lt_succ_of_le before
      have configured : Inv ((manager.invalidate entry).setPool entry
          { (manager.invalidate entry).pool entry with settings := some settings }) :=
        ⟨invalidated.owned.configure empty new settings, invalidated.quiet.setPool fun _ => id⟩
      refine configured.takeOut ?_ ?_
      · exact (congrFun (threads_invalidate manager entry) thread).trans pools
      · rw [Manager.pool_setPool, if_pos rfl]
    next same =>
      exact inv.takeOut pools (Decidable.not_not.mp same)
  next => cases isNext

theorem start (inv : Inv manager) {outcome : Start}
    (isNext : manager.start thread outcome = some next) : Inv next := by
  unfold Manager.start at isNext
  split at isNext
  next entry settings generation idle starts =>
    split at isNext
    next runtime isOpen =>
      -- The thread keeps the runtime that it has.
      cases isNext
      rw [Option.filter_eq_some_iff] at isOpen
      refine ⟨?_, inv.quiet.goOn (by rw [starts]; rfl) rfl fun other isOther =>
        inv.quiet.within starts isOther⟩
      refine inv.owned.congr ?_ (fun _ => rfl) rfl rfl
      intro other
      rw [Manager.threads_setThread]
      split
      next same =>
        rw [same, starts, isOpen.1]
        exact ⟨rfl, rfl, rfl⟩
      next => exact ⟨rfl, rfl, rfl⟩
    next noneOpen =>
      have closed : ∀ runtime, idle = some runtime → (manager.runtimes runtime).closed = true := by
        intro runtime isIdle
        rw [isIdle, Option.filter_some] at noneOpen
        by_contra isOpen
        rw [Bool.not_eq_true] at isOpen
        rw [isOpen] at noneOpen
        cases noneOpen
      have gone : ∀ runtime, (manager.threads thread).runtime = some runtime →
          (manager.runtimes runtime).closed = true := by
        rw [starts]
        exact closed
      have unused : (manager.threads thread).uses = none := by
        rw [starts]
        rfl
      have settled : ∀ other, (manager.threads thread).tears = some other →
          (manager.pool other).idle = none := by
        rw [starts]
        exact nofun
      cases outcome with
      | fails =>
        cases isNext
        exact ⟨inv.owned.finish gone unused entry, inv.quiet.finish entry settled⟩
      | broken =>
        cases isNext
        have made : Inv { manager with
            runtimes := Function.update manager.runtimes manager.made ⟨true, settings⟩
            made := manager.made + 1 } :=
          ⟨inv.owned.makeClosed settings,
            inv.quiet.fewer rfl (fun _ => rfl) (fun _ _ => id) rfl rfl rfl⟩
        refine ⟨made.owned.finish ?_ unused entry, made.quiet.finish entry settled⟩
        intro runtime has
        dsimp only
        rw [Function.update_apply]
        split
        · rfl
        · exact gone runtime has
      | started =>
        cases isNext
        refine ⟨inv.owned.make starts closed, ?_⟩
        have made : Quiet { manager with
            runtimes := Function.update manager.runtimes manager.made ⟨false, settings⟩
            made := manager.made + 1 } :=
          inv.quiet.fewer rfl (fun _ => rfl) (fun _ _ => id) rfl rfl rfl
        refine made.goOn ?_ rfl fun other isOther => inv.quiet.within starts isOther
        rw [show Manager.threads { manager with
          runtimes := Function.update manager.runtimes manager.made ⟨false, settings⟩
          made := manager.made + 1 } thread = _ from starts]
        rfl
  next => cases isNext

theorem enter (inv : Inv manager) (isNext : manager.enter thread = some next) : Inv next := by
  unfold Manager.enter at isNext
  split at isNext
  next entry settings generation runtime enters =>
    cases isNext
    have active : Quiet (manager.setPool entry { manager.pool entry with
        active := (manager.pool entry).active ++ [runtime] }) :=
      inv.quiet.setPool fun _ => id
    have released : Quiet ((manager.setPool entry { manager.pool entry with
        active := (manager.pool entry).active ++ [runtime] }).setEngine entry none) :=
      active.edit entry (fun _ => rfl) fun _ _ => id
    refine ⟨(inv.owned.enter enters).congr (fun _ => ⟨rfl, rfl, rfl⟩) ?_ rfl rfl, ?_⟩
    · intro other
      rw [Manager.pool_setThread, Manager.pool_setThread]
      unfold Manager.setEngine
      exact Manager.pool_edit_same _ entry other fun _ => rfl
    · refine released.goOn ?_ rfl fun other isOther => inv.quiet.within enters isOther
      rw [show Manager.threads ((manager.setPool entry { manager.pool entry with
        active := (manager.pool entry).active ++ [runtime] }).setEngine entry none) thread = _
        from enters]
      rfl
  next => cases isNext

variable {enabled : Bool}

theorem keeps_iff [DecidableEq σ] {healthy closed readable : Bool} {current : Option Nat}
    {generation : Nat} {pool : Pool σ} {settings : σ} :
    ((healthy && !closed && decide (current = some entry) && enabled) &&
        decide (pool.generation = generation) && pool.idle.isNone &&
        ((healthy && !closed && decide (current = some entry) && enabled) && readable &&
          decide (pool.settings = some settings))) = true ↔
      (healthy = true ∧ closed = false ∧ current = some entry ∧ enabled = true) ∧
        pool.generation = generation ∧ pool.idle = none ∧ readable = true ∧
        pool.settings = some settings := by
  simp only [Bool.and_eq_true, Bool.not_eq_true', decide_eq_true_eq, Option.isNone_iff_eq_none]
  grind

theorem giveBack [DecidableEq σ] (inv : Inv manager) {healthy readable : Bool}
    (isNext : manager.giveBack thread healthy readable = some next) : Inv next := by
  unfold Manager.giveBack at isNext
  split at isNext
  next entry settings generation runtime borrowed =>
    dsimp only at isNext
    split at isNext
    next keeps =>
      rw [keeps_iff] at keeps
      obtain ⟨⟨_, _, current, enabled⟩, same, empty, _⟩ := keeps
      cases isNext
      rw [← same] at borrowed
      refine ⟨inv.owned.giveBack borrowed empty, ?_⟩
      refine (inv.quiet.keep enabled current).goOn ?_ rfl nofun
      rw [show Manager.threads (manager.setPool entry _) thread = _ from borrowed]
      rfl
    next =>
      cases isNext
      have fewer : ∀ other ∈ (manager.pool entry).active.filter (· ≠ runtime),
          other ∈ (manager.pool entry).active := fun _ member => List.mem_of_mem_filter member
      have owned := (inv.owned.inactivate fewer).shutdown runtime
      have quiet : Quiet ((manager.setPool entry { manager.pool entry with
          active := (manager.pool entry).active.filter (· ≠ runtime) }).shutdown runtime) :=
        (inv.quiet.inactivate entry _).shutdown runtime
      refine ⟨owned.letGo ?_ ?_ .free rfl rfl, quiet.goOn ?_ rfl nofun⟩
      · rw [show Manager.threads (Manager.shutdown (manager.setPool entry _) runtime) thread = _
          from borrowed]
        intro other isOther
        rw [← Option.some_inj.mp isOther]
        exact Owned.closed_shutdown _ runtime
      · rw [show Manager.threads (Manager.shutdown (manager.setPool entry _) runtime) thread = _
          from borrowed]
        intro other used isUsed
        cases isUsed
        rw [show Manager.pool (Manager.shutdown (manager.setPool entry _) runtime) entry =
          Manager.pool (manager.setPool entry _) entry from rfl, Manager.pool_setPool, if_pos rfl]
        intro member
        have kept : runtime ∈ (manager.pool entry).active.filter (· ≠ runtime) := member
        rw [List.mem_filter, decide_eq_true_eq] at kept
        exact kept.2 rfl
      · rw [show Manager.threads (Manager.shutdown (manager.setPool entry _) runtime) thread = _
          from borrowed]
        rfl
  next => cases isNext

theorem canMutate_iff (manager : Manager σ) (thread : Nat) : manager.canMutate thread = true ↔
      manager.threads thread = .free ∧ manager.mutation = none := by
  unfold Manager.canMutate
  split
  next free unlocked => exact iff_of_true rfl ⟨free, unlocked⟩
  next busy =>
    refine iff_of_false Bool.false_ne_true ?_
    rintro ⟨free, unlocked⟩
    exact busy free unlocked

theorem setEnabled (inv : Inv manager) (isNext : manager.setEnabled thread enabled = some next) :
    Inv next := by
  unfold Manager.setEnabled at isNext
  split at isNext
  next entry can current =>
    rw [canMutate_iff] at can
    obtain ⟨free, unlocked⟩ := can
    have locked := inv.quiet.lockMutation unlocked thread
    have owned : Owned ((manager.lockMutation thread).setStatus entry enabled) :=
      (inv.owned.congr (fun _ => ⟨rfl, rfl, rfl⟩) (fun _ => rfl) rfl rfl :
        Owned (manager.lockMutation thread)).edit entry fun _ => rfl
    have had : (manager.threads thread).runtime = none := by
      rw [free]
      rfl
    have within := inv.quiet.currentEntry entry current
    have still : ∀ other, (manager.threads thread).tears ≠ some other := by
      rw [free]
      exact nofun
    cases enabled with
    | true =>
      cases isNext
      refine ⟨owned.setThread had rfl rfl, ?_⟩
      have enables : Quiet ((manager.lockMutation thread).setStatus entry true) := by
        refine locked.setStatus nofun ?_
        intro _ other upgrades
        cases (inv.quiet.unchanging unlocked other).symm.trans (Thread.mutates_of_upgrades upgrades)
      refine enables.setThread ?_ (fun _ => rfl) nofun nofun ?_
      · exact fun other tears => absurd tears (still other)
      · intro other isOther
        cases isOther
        exact within
    | false =>
      cases isNext
      refine ⟨owned.setThread had rfl rfl, ?_⟩
      exact locked.disable (fun other tears => absurd tears (still other)) within rfl nofun nofun
  next => cases isNext

theorem updateSettings (inv : Inv manager) {settings : σ}
    (isNext : manager.updateSettings thread settings = some next) : Inv next := by
  unfold Manager.updateSettings at isNext
  split at isNext
  next entry can current =>
    rw [canMutate_iff] at can
    obtain ⟨free, unlocked⟩ := can
    cases isNext
    have locked : Inv { manager.lockMutation thread with settings := settings } :=
      ⟨inv.owned.congr (fun _ => ⟨rfl, rfl, rfl⟩) (fun _ => rfl) rfl rfl,
        (inv.quiet.lockMutation unlocked thread).fewer rfl (fun _ => rfl) (fun _ _ => id) rfl rfl
          rfl⟩
    refine ⟨locked.owned.setThread ?_ rfl rfl, ?_⟩
    · rw [show Manager.threads { manager.lockMutation thread with settings := settings } thread =
        _ from free]
      rfl
    · refine locked.quiet.setThread ?_ (fun _ => rfl) nofun nofun ?_
      · rw [show Manager.threads { manager.lockMutation thread with settings := settings } thread =
          _ from free]
        exact nofun
      · intro other isOther
        cases isOther
        exact inv.quiet.currentEntry entry current
  next => cases isNext

theorem remove (inv : Inv manager) (isNext : manager.remove thread = some next) : Inv next := by
  unfold Manager.remove at isNext
  split at isNext
  next entry can current =>
    rw [canMutate_iff] at can
    obtain ⟨free, unlocked⟩ := can
    cases isNext
    have owned : Owned { manager.lockMutation thread with current := none } :=
      inv.owned.congr (fun _ => ⟨rfl, rfl, rfl⟩) (fun _ => rfl) rfl rfl
    have points (other : Nat) := Manager.threads_setThread
      { manager.lockMutation thread with current := none } other thread (.removing entry)
    refine ⟨owned.setThread ?_ rfl rfl, ?_, ?_, ?_, ?_, ?_, nofun, inv.quiet.idleEntry⟩
    · rw [show Manager.threads { manager.lockMutation thread with current := none } thread = _
        from free]
      rfl
    · -- What was idle in the current installation is about to be torn down.
      intro other runtime isIdle
      rcases inv.quiet.quiet other runtime isIdle with ⟨_, isCurrent⟩ | ⟨user, tears⟩
      · refine .inr ⟨thread, ?_⟩
        rw [points, if_pos rfl]
        exact current.symm.trans isCurrent
      · cases (inv.quiet.unchanging unlocked user).symm.trans (Thread.mutates_of_tears tears)
    · intro other
      rw [points]
      split
      next same =>
        rw [same]
        exact fun _ => rfl
      next =>
        intro mutates
        cases (inv.quiet.unchanging unlocked other).symm.trans mutates
    · intro other isEntry
      rw [points]
      split
      next => exact nofun
      next =>
        intro upgrades
        cases (inv.quiet.unchanging unlocked other).symm.trans (Thread.mutates_of_upgrades upgrades)
    · exact fun _ _ => rfl
    · intro other isEntry
      rw [points]
      split
      next =>
        intro isOther
        cases isOther
        exact inv.quiet.currentEntry entry current
      next => exact inv.quiet.threadEntry other isEntry
  next => cases isNext

theorem writeStatus (inv : Inv manager) (isNext : manager.writeStatus thread = some next) :
    Inv next := by
  unfold Manager.writeStatus at isNext
  split at isNext
  next entry removes =>
    cases isNext
    have owned : Owned (manager.setStatus entry false) := inv.owned.failed entry
    refine ⟨owned.setThread ?_ rfl rfl, ?_⟩
    · rw [show (manager.setStatus entry false).threads thread = _ from removes]
      rfl
    · refine inv.quiet.disable ?_ (inv.quiet.within removes rfl) ?_ nofun ?_
      · rw [removes]
        intro other isOther
        cases isOther
        rfl
      · exact inv.quiet.mutating thread (by rw [removes]; rfl)
      · exact fun _ => inv.quiet.unloading thread (by rw [removes]; rfl)
  next => cases isNext

theorem upgrade (inv : Inv manager) (isNext : manager.upgrade thread enabled = some next) :
    Inv next := by
  unfold Manager.upgrade at isNext
  split at isNext
  next entry can current =>
    rw [canMutate_iff] at can
    obtain ⟨free, unlocked⟩ := can
    cases isNext
    have locked := inv.quiet.lockMutation unlocked thread
    have owned : Owned ((manager.lockMutation thread).setStatus entry false) :=
      (inv.owned.congr (fun _ => ⟨rfl, rfl, rfl⟩) (fun _ => rfl) rfl rfl :
        Owned (manager.lockMutation thread)).edit entry fun _ => rfl
    have still : ∀ other, (manager.threads thread).tears ≠ some other := by
      rw [free]
      exact nofun
    refine ⟨owned.setThread (by
      rw [show Manager.threads ((manager.lockMutation thread).setStatus entry false) thread = _
        from free]
      rfl) rfl rfl, ?_⟩
    exact locked.disable (fun other tears => absurd tears (still other))
      (inv.quiet.currentEntry entry current) rfl (fun _ _ => current) nofun
  next => cases isNext

theorem teardown [DecidableEq σ] (inv : Inv manager) (careful : manager.Careful (.teardown thread))
    (isNext : manager.teardown thread = some next) : Inv next := by
  unfold Manager.teardown at isNext
  split at isNext
  next ending entry tears =>
    split at isNext
    next =>
      have room : (manager.pool entry).generation + 1 < generations := by
        refine careful.room entry ?_
        unfold Manager.invalidates
        dsimp only
        rw [tears]
      have torn := inv.tearDown room
      have isAt : (manager.tearDown entry).threads thread = .tearing ending entry := by
        rw [threads_tearDown]
        exact tears
      have had : ((manager.tearDown entry).threads thread).runtime = none := by
        rw [isAt]
        rfl
      have empty : ∀ other, ((manager.tearDown entry).threads thread).tears = some other →
          ((manager.tearDown entry).pool other).idle = none := by
        rw [isAt]
        intro other isOther
        cases isOther
        exact idle_tearDown manager entry
      have locked := torn.quiet.mutating thread (by rw [isAt]; rfl)
      have within : ∀ other, some entry = some other →
          other < (manager.tearDown entry).installed := by
        intro other isOther
        cases isOther
        exact torn.quiet.within isAt rfl
      cases ending with
      | disable =>
        cases isNext
        refine ⟨torn.owned.finish ?_ (by rw [isAt]; rfl) entry, torn.quiet.finish entry empty⟩
        rw [had]
        exact nofun
      | unload =>
        cases isNext
        refine ⟨torn.owned.setThread had rfl rfl, ?_⟩
        exact torn.quiet.setThread (fun other isOther => .inr (empty other isOther))
          (fun _ => locked) nofun
          (fun _ => torn.quiet.unloading thread (by rw [isAt]; rfl)) within
      | upgrade enabled =>
        cases isNext
        refine ⟨torn.owned.setThread had rfl rfl, ?_⟩
        refine torn.quiet.setThread (fun other isOther => .inr (empty other isOther))
          (fun _ => locked) ?_ nofun within
        intro other isOther
        cases isOther
        exact torn.quiet.upgrading thread entry (by rw [isAt]; rfl)
    next => cases isNext
  next => cases isNext

theorem removeDirectories (inv : Inv manager) {left : σ}
    (isNext : manager.removeDirectories thread succeeds left = some next) : Inv next := by
  unfold Manager.removeDirectories at isNext
  split at isNext
  next entry clears =>
    have cleared : Inv { manager with settings := left } :=
      ⟨inv.owned.congr (fun _ => ⟨rfl, rfl, rfl⟩) (fun _ => rfl) rfl rfl,
        inv.quiet.fewer rfl (fun _ => rfl) (fun _ _ => id) rfl rfl rfl⟩
    have isAt : Manager.threads { manager with settings := left } thread = .clearing entry := clears
    have mutates : (manager.threads thread).mutates = true := by
      rw [clears]
      rfl
    cases succeeds with
    | true =>
      cases isNext
      exact cleared.finish isAt rfl rfl entry
    | false =>
      cases isNext
      have gone : manager.current = none := inv.quiet.unloading thread (by rw [clears]; rfl)
      have empty (other : Nat) : (manager.pool other).idle = none := by
        refine inv.quiet.nothingIdle ?_ ?_ other
        · rw [gone]
          exact nofun
        · intro user isEntry tears
          rw [inv.quiet.alone mutates (Thread.mutates_of_tears tears), clears] at tears
          cases tears
      have failed := cleared.failed (empty entry)
      have finished := failed.finish isAt rfl rfl entry
      refine ⟨finished.owned.congr (fun _ => ⟨rfl, rfl, rfl⟩) (fun _ => rfl) rfl rfl, ?_⟩
      refine finished.quiet.restore ?_ ?_ ?_
      · intro other
        rw [Quiet.pool_finish]
        unfold Manager.failed
        rw [Quiet.pool_setStatus]
        exact empty other
      · exact failed.quiet.unchanging_finish mutates entry
      · exact inv.quiet.within clears rfl
  next => cases isNext

theorem insert (inv : Inv manager) (empty : ∀ entry, (manager.pool entry).idle = none)
    (nobody : ∀ other, (manager.threads other).mutates = false) (enabled : Bool) :
    Inv (manager.insert enabled) := by
  refine ⟨inv.owned.insert (empty _) ?_ enabled, inv.quiet.insert empty nobody enabled⟩
  intro other settings generation borrows
  exact Nat.lt_irrefl _ (inv.quiet.threadEntry other _ (Thread.entry_of_loan borrows))

theorem publish (inv : Inv manager) (isNext : manager.publish thread = some next) : Inv next := by
  unfold Manager.publish at isNext
  split at isNext
  next entry enabled publishes =>
    cases isNext
    have mutates : (manager.threads thread).mutates = true := by
      rw [publishes]
      rfl
    obtain ⟨disabled, current⟩ := inv.quiet.upgrading thread entry (by rw [publishes]; rfl)
    refine (inv.finish publishes rfl rfl entry).insert ?_ ?_ enabled
    · intro other
      rw [Quiet.pool_finish]
      refine inv.quiet.nothingIdle ?_ ?_ other
      · intro isEntry isCurrent
        rw [current, Option.some_inj] at isCurrent
        rw [← isCurrent]
        exact disabled
      · intro user isEntry tears
        rw [inv.quiet.alone mutates (Thread.mutates_of_tears tears), publishes] at tears
        cases tears
    · exact inv.quiet.unchanging_finish mutates entry
  next => cases isNext

theorem install (inv : Inv manager) (isNext : manager.install thread enabled = some next) :
    Inv next := by
  unfold Manager.install at isNext
  split at isNext
  next can gone =>
    rw [canMutate_iff] at can
    cases isNext
    have nobody := inv.quiet.unchanging can.2
    refine inv.insert ?_ nobody enabled
    refine inv.quiet.nothingIdle ?_ ?_
    · rw [gone]
      exact nofun
    · intro user entry tears
      cases (nobody user).symm.trans (Thread.mutates_of_tears tears)
  next => cases isNext

theorem release [DecidableEq σ] (inv : Inv manager) (careful : manager.Careful (.release entry))
    (isNext : manager.release entry = some next) : Inv next := by
  unfold Manager.release at isNext
  split at isNext
  next =>
    cases isNext
    exact inv.invalidate (careful.room entry rfl)
  next => cases isNext

theorem step [DecidableEq σ] (inv : Inv manager) {event : Event σ} (careful : manager.Careful event)
    (isNext : manager.step event = some next) : Inv next := by
  cases event with
  | borrow => exact inv.borrow isNext
  | giveUp => exact inv.giveUp isNext
  | lockEngine => exact inv.lockEngine careful isNext
  | gatesFail => exact inv.gatesFail careful isNext
  | reopen => exact inv.reopen careful isNext
  | prepareFails => exact inv.prepareFails careful isNext
  | initializeFails => exact inv.initializeFails careful isNext
  | ready => exact inv.ready isNext
  | initialized => exact inv.initialized careful isNext
  | readSettings => exact inv.readSettings isNext
  | takeIdle => exact inv.takeIdle careful isNext
  | start => exact inv.start isNext
  | enter => exact inv.enter isNext
  | giveBack => exact inv.giveBack isNext
  | setEnabled => exact inv.setEnabled isNext
  | updateSettings => exact inv.updateSettings isNext
  | remove => exact inv.remove isNext
  | writeStatus => exact inv.writeStatus isNext
  | teardown => exact inv.teardown careful isNext
  | removeDirectories => exact inv.removeDirectories isNext
  | upgrade => exact inv.upgrade isNext
  | publish => exact inv.publish isNext
  | install => exact inv.install isNext
  | release => exact inv.release careful isNext
  | close runtime =>
    cases isNext
    exact ⟨inv.owned.shutdown runtime, inv.quiet.shutdown runtime⟩

theorem initially (fresh : Fresh manager) : Inv manager := by
  have free (other : Nat) := fresh.threads other
  have pools (entry : Nat) : manager.pool entry = {} := fresh.entries entry
  refine ⟨Owned.initially fresh, ?_, ?_, ?_, ?_, ?_, fresh.installed, ?_⟩ <;>
    simp only [free, pools]
  · exact nofun
  · exact nofun
  · exact nofun
  · exact nofun
  · exact nofun
  · exact nofun

theorem of_reachable [DecidableEq σ]
    (reachable : (machine σ).Reachable (fun before event => before.careful event = true) manager) :
    Inv manager := by
  refine reachable.invariant (fun _ fresh => initially fresh) ?_
  intro before event after _ inv isCareful stepped
  exact inv.step ((before.careful_iff event).mp isCareful) stepped

theorem has_iff (runtime : Nat) (point : Thread σ) :
    Manager.has runtime point = true ↔ point.runtime = some runtime := by
  cases point with
  | starting entry settings generation idle => exact decide_eq_true_iff
  | entering entry settings generation other =>
    exact decide_eq_true_iff.trans Option.some_inj.symm
  | borrowed entry settings generation other =>
    exact decide_eq_true_iff.trans Option.some_inj.symm
  | _ => exact iff_of_false Bool.false_ne_true nofun

theorem tearsDown_of_tears
    (tears : point.tears = some entry) : Manager.tearsDown entry point = true := by
  cases point with
  | removing | tearing => exact decide_eq_true (Option.some_inj.mp tears)
  | _ => cases tears

theorem hasBorrowed_of_uses {runtime : Nat}
    (uses : point.uses = some (entry, runtime)) : Manager.hasBorrowed entry point = true := by
  cases point with
  | borrowed =>
    cases uses
    exact decide_eq_true rfl
  | _ => cases uses

theorem promised (inv : Inv manager) : manager.Promised where
  exclusive := by
    intro runtime one other has hasToo
    rw [has_iff] at has hasToo
    exact inv.owned.exclusive one other runtime has hasToo
  apart := by
    intro runtime one entry has
    rw [has_iff] at has
    exact inv.owned.apart one entry runtime has
  configured := by
    intro one entry settings generation runtime borrowed
    exact inv.owned.configured one entry settings generation runtime (by rw [borrowed]; rfl)
      (by rw [borrowed]; rfl)
  stopped := by
    simp only [has_iff]
    exact inv.owned.kept
  quiet := by
    intro entry gone settled
    cases isIdle : (manager.pool entry).idle with
    | none => rfl
    | some runtime =>
      rcases inv.quiet.quiet entry runtime isIdle with ⟨enabled, current⟩ | ⟨other, tears⟩
      · rcases gone with disabled | replaced
        · exact absurd (disabled.symm.trans enabled) Bool.false_ne_true
        · exact absurd current replaced
      · exact absurd ((settled other).symm.trans (tearsDown_of_tears tears)) Bool.false_ne_true
  returned := by
    intro entry returned
    refine List.eq_nil_iff_forall_not_mem.mpr ?_
    intro runtime member
    obtain ⟨user, uses⟩ := inv.owned.active entry runtime member
    exact absurd ((returned user).symm.trans (hasBorrowed_of_uses uses)) Bool.false_ne_true

theorem reused [DecidableEq σ] (inv : Inv manager) {event : Event σ}
    (isNext : manager.step event = some next) : manager.Reused next event := by
  cases event with
  | giveBack thread healthy readable =>
    intro entry settings generation runtime borrowed isIdle
    have stepped : manager.giveBack thread healthy readable = some next := isNext
    have apart := inv.owned.apart thread entry runtime (by rw [borrowed]; rfl)
    have configured := inv.owned.configured thread entry settings generation runtime
      (by rw [borrowed]; rfl) (by rw [borrowed]; rfl)
    have lent := (inv.owned.generation thread entry settings generation (by rw [borrowed]; rfl)).2
    unfold Manager.giveBack at stepped
    rw [borrowed] at stepped
    dsimp only at stepped
    split at stepped
    next keeps =>
      rw [keeps_iff] at keeps
      obtain ⟨⟨isHealthy, isOpen, current, enabled⟩, same, _, _, stored⟩ := keeps
      refine ⟨isHealthy, isOpen, current, enabled, same, ?_⟩
      have read := (lent same.symm).symm.trans stored
      rw [configured, Option.some_inj.mp read]
    next =>
      -- The runtime has not become idle, and was not before.
      rw [← Option.some_inj.mp stepped] at isIdle
      rw [Manager.pool_setThread, show Manager.pool (Manager.shutdown (manager.setPool entry _)
        runtime) entry = Manager.pool (manager.setPool entry _) entry from rfl,
        Manager.pool_setPool, if_pos rfl] at isIdle
      exact absurd isIdle apart
  | _ => trivial

end Inv

/-! ## Runs -/

/-- An extension that is installed and enabled. -/
def enabledManager : Manager Bool where
  entries _ := { enabled := true }
  installed := 1
  current := some 0
  settings := true
  runtimes _ := ⟨true, true⟩
  made := 0
  threads _ := .free
  mutation := none

theorem fresh_enabledManager : Fresh enabledManager where
  entries _ := rfl
  installed := by
    intro entry current
    rw [← Option.some_inj.mp current]
    exact Nat.zero_lt_one
  made := rfl
  threads _ := rfl

/-- One download, whose runtime is given back, and the beginning of another. -/
def oneDownload : List (Event Bool) :=
  [.borrow 0, .lockEngine 0, .ready 0, .readSettings 0 true, .takeIdle 0, .start 0 .started,
    .enter 0, .giveBack 0 true true, .borrow 0, .lockEngine 0]

/-- Whether the second download is about to begin. -/
def isBeginning (manager : Manager Bool) : Bool :=
  decide (manager.threads 0 = .preparing .borrow 0) && decide ((manager.pool 0).idle = some 0) &&
    decide (manager.mutation = none)

theorem oneDownload_reachable :
    ∃ manager, (machine Bool).Reachable (fun before event => before.careful event = true) manager ∧
      isBeginning manager = true :=
  Machine.exists_reachable_of_runMeets (machine Bool) isBeginning fresh_enabledManager
    (by decide +kernel) (by decide +kernel : ((machine Bool).run enabledManager oneDownload).any
      isBeginning = true)

end LosslessMusic.Extensions.Workers
