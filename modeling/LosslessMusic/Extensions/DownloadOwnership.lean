import LosslessMusic.Extensions.DownloadWorkers

/-!
# Ownership of the isolated runtimes

Every runtime that is open is idle in one pool or with one thread, never both, and it was
initialized with the settings of that pool or of that borrower. Each part of a call keeps
this.
-/

namespace LosslessMusic.Extensions.Workers

variable {σ : Type}

namespace Thread

/-- The runtime that a thread has. -/
def runtime : Thread σ → Option Nat
  | .starting _ _ _ idle => idle
  | .entering _ _ _ runtime | .borrowed _ _ _ runtime => some runtime
  | _ => none

/-- What a borrower has taken from a pool: the installation, the settings it read and the
generation. -/
def loan : Thread σ → Option (Nat × σ × Nat)
  | .starting entry settings generation _ | .entering entry settings generation _
  | .borrowed entry settings generation _ => some (entry, settings, generation)
  | _ => none

/-- The installation and the runtime of a download that runs. -/
def uses : Thread σ → Option (Nat × Nat)
  | .borrowed entry _ _ runtime => some (entry, runtime)
  | _ => none

theorem runtime_of_uses {point : Thread σ} {entry used : Nat}
    (isUsed : point.uses = some (entry, used)) : point.runtime = some used := by
  cases point with
  | borrowed =>
    cases isUsed
    rfl
  | _ => cases isUsed

end Thread

/-! ## Parts of the calls -/

variable {change : Installed σ → Installed σ}

namespace Manager

section Parts

variable (manager : Manager σ) (entry other thread runtime : Nat)

theorem pool_edit (change : Installed σ → Installed σ) : (manager.edit entry change).pool other =
      if other = entry then (change (manager.entries entry)).downloads
      else manager.pool other := by
  unfold pool edit
  dsimp only
  rw [Function.update_apply]
  split
  · rfl
  · rfl

@[simp] theorem pool_setPool (pool : Pool σ) :
    (manager.setPool entry pool).pool other = if other = entry then pool else manager.pool other :=
  pool_edit manager entry other _

theorem threads_setThread (point : Thread σ) : (manager.setThread thread point).threads other =
      if other = thread then point else manager.threads other := by
  unfold setThread
  dsimp only
  rw [Function.update_apply]

theorem pool_setThread (point : Thread σ) :
    (manager.setThread thread point).pool other = manager.pool other := rfl

theorem pool_edit_same (same : ∀ installed, (change installed).downloads = installed.downloads) :
    (manager.edit entry change).pool other = manager.pool other := by
  rw [pool_edit, same]
  split
  next here => rw [here]; rfl
  next => rfl

end Parts

end Manager

/-! ## The invariant -/

/-- Who owns which runtime, and what that one was initialized with. -/
structure Owned (manager : Manager σ) : Prop where
  exclusive : ∀ thread other runtime, (manager.threads thread).runtime = some runtime →
    (manager.threads other).runtime = some runtime → thread = other
  apart : ∀ thread entry runtime, (manager.threads thread).runtime = some runtime →
    (manager.pool entry).idle ≠ some runtime
  single : ∀ entry other runtime, (manager.pool entry).idle = some runtime →
    (manager.pool other).idle = some runtime → entry = other
  lent : ∀ thread runtime, (manager.threads thread).runtime = some runtime → runtime < manager.made
  stored : ∀ entry runtime, (manager.pool entry).idle = some runtime → runtime < manager.made
  configured : ∀ thread entry settings generation runtime,
    (manager.threads thread).loan = some (entry, settings, generation) →
      (manager.threads thread).runtime = some runtime →
        (manager.runtimes runtime).settings = settings
  idleConfigured : ∀ entry runtime, (manager.pool entry).idle = some runtime →
    (manager.pool entry).settings = some (manager.runtimes runtime).settings
  generation : ∀ thread entry settings generation,
    (manager.threads thread).loan = some (entry, settings, generation) →
      generation ≤ (manager.pool entry).generation ∧ (generation = (manager.pool entry).generation →
          (manager.pool entry).settings = some settings)
  kept : ∀ runtime < manager.made, (manager.runtimes runtime).closed = true ∨
    (∃ entry, (manager.pool entry).idle = some runtime) ∨
      ∃ thread, (manager.threads thread).runtime = some runtime
  active : ∀ entry, ∀ runtime ∈ (manager.pool entry).active,
    ∃ thread, (manager.threads thread).uses = some (entry, runtime)

namespace Owned

variable {manager next : Manager σ}

/-- Ownership is about threads, pools and runtimes; fewer runtimes may be active. -/
theorem fewer (owned : Owned manager)
    (threads : ∀ thread, (next.threads thread).runtime = (manager.threads thread).runtime ∧
      (next.threads thread).loan = (manager.threads thread).loan ∧
      (next.threads thread).uses = (manager.threads thread).uses)
    (pools : ∀ entry, (next.pool entry).idle = (manager.pool entry).idle ∧
      (next.pool entry).generation = (manager.pool entry).generation ∧
      (next.pool entry).settings = (manager.pool entry).settings)
    (active : ∀ entry, ∀ runtime ∈ (next.pool entry).active, runtime ∈ (manager.pool entry).active)
    (runtimes : next.runtimes = manager.runtimes) (made : next.made = manager.made) :
    Owned next := by
  obtain ⟨exclusive, apart, single, lent, stored, configured, idleConfigured, generation, kept,
    isActive⟩ := owned
  have hasRuntime (thread : Nat) := (threads thread).1
  have hasLoan (thread : Nat) := (threads thread).2.1
  have uses (thread : Nat) := (threads thread).2.2
  have idle (entry : Nat) := (pools entry).1
  have isGeneration (entry : Nat) := (pools entry).2.1
  have settings (entry : Nat) := (pools entry).2.2
  refine ⟨?_, ?_, ?_, ?_, ?_, ?_, ?_, ?_, ?_, ?_⟩
  · simpa only [hasRuntime] using exclusive
  · simpa only [hasRuntime, idle] using apart
  · simpa only [idle] using single
  · simpa only [hasRuntime, made] using lent
  · simpa only [idle, made] using stored
  · simpa only [hasRuntime, hasLoan, runtimes] using configured
  · simpa only [idle, settings, runtimes] using idleConfigured
  · simpa only [hasLoan, isGeneration, settings] using generation
  · simpa only [hasRuntime, idle, runtimes, made] using kept
  · simp only [uses]
    exact fun entry runtime member => isActive entry runtime (active entry runtime member)

theorem congr (owned : Owned manager)
    (threads : ∀ thread, (next.threads thread).runtime = (manager.threads thread).runtime ∧
      (next.threads thread).loan = (manager.threads thread).loan ∧
      (next.threads thread).uses = (manager.threads thread).uses)
    (pools : ∀ entry, next.pool entry = manager.pool entry)
    (runtimes : next.runtimes = manager.runtimes) (made : next.made = manager.made) :
    Owned next := by
  refine owned.fewer threads ?_ ?_ runtimes made
  · intro entry
    rw [pools]
    exact ⟨rfl, rfl, rfl⟩
  · intro entry runtime member
    rw [pools] at member
    exact member

variable {thread : Nat}

/-- A thread may give up a runtime that is closed, and that is not active. -/
theorem letGo (owned : Owned manager)
    (closed : ∀ runtime, (manager.threads thread).runtime = some runtime →
      (manager.runtimes runtime).closed = true)
    (unused : ∀ entry runtime, (manager.threads thread).uses = some (entry, runtime) →
      runtime ∉ (manager.pool entry).active)
    (point : Thread σ) (has : point.runtime = none) (borrows : point.loan = none) :
    Owned (manager.setThread thread point) := by
  have points (other : Nat) := manager.threads_setThread other thread point
  have others {other runtime : Nat}
      (isOther : ((manager.setThread thread point).threads other).runtime = some runtime) :
      (manager.threads other).runtime = some runtime := by
    rw [points] at isOther
    split at isOther
    next => cases has.symm.trans isOther
    next => exact isOther
  have loans {other : Nat} {loan : Nat × σ × Nat}
      (isOther : ((manager.setThread thread point).threads other).loan = some loan) :
      (manager.threads other).loan = some loan := by
    rw [points] at isOther
    split at isOther
    next => cases borrows.symm.trans isOther
    next => exact isOther
  refine ⟨?_, ?_, owned.single, ?_, owned.stored, ?_, owned.idleConfigured, ?_, ?_, ?_⟩
  · exact fun one two runtime first second =>
      owned.exclusive one two runtime (others first) (others second)
  · exact fun other entry runtime isOther => owned.apart other entry runtime (others isOther)
  · exact fun other runtime isOther => owned.lent other runtime (others isOther)
  · exact fun other entry settings generation runtime loan isOther =>
      owned.configured other entry settings generation runtime (loans loan) (others isOther)
  · exact fun other entry settings generation loan =>
      owned.generation other entry settings generation (loans loan)
  · intro runtime below
    rcases owned.kept runtime below with isClosed | idle | ⟨other, isOther⟩
    · exact .inl isClosed
    · exact .inr (.inl idle)
    · by_cases same : other = thread
      · rw [same] at isOther
        exact .inl (closed runtime isOther)
      · refine .inr (.inr ⟨other, ?_⟩)
        rw [points, if_neg same]
        exact isOther
  · intro entry runtime member
    obtain ⟨other, isOther⟩ := owned.active entry runtime member
    have apart : other ≠ thread := by
      rintro rfl
      exact unused entry runtime isOther member
    refine ⟨other, ?_⟩
    rw [points, if_neg apart]
    exact isOther

theorem setThread (owned : Owned manager) (had : (manager.threads thread).runtime = none)
    {point : Thread σ} (has : point.runtime = none) (borrows : point.loan = none) :
    Owned (manager.setThread thread point) := by
  refine owned.letGo ?_ ?_ point has borrows
  · intro runtime isRuntime
    cases had.symm.trans isRuntime
  · intro entry runtime isUsed
    cases had.symm.trans (Thread.runtime_of_uses isUsed)

theorem edit (owned : Owned manager) (entry : Nat)
    (same : ∀ installed, (change installed).downloads = installed.downloads) :
    Owned (manager.edit entry change) :=
  owned.congr (fun _ => ⟨rfl, rfl, rfl⟩) (fun other => manager.pool_edit_same entry other same)
    rfl rfl

theorem finish (owned : Owned manager)
    (closed : ∀ runtime, (manager.threads thread).runtime = some runtime →
      (manager.runtimes runtime).closed = true)
    (unused : (manager.threads thread).uses = none) (entry : Nat) :
    Owned (manager.finish thread entry) := by
  have edited : Owned (manager.edit entry fun installed => { installed with
      engine := if installed.engine = some thread then none else installed.engine }) :=
    owned.edit entry fun _ => rfl
  have free := edited.letGo closed
    (fun _ _ isUsed => nomatch unused.symm.trans isUsed) .free rfl rfl
  exact free.congr (fun _ => ⟨rfl, rfl, rfl⟩) (fun _ => rfl) rfl rfl

theorem failed (owned : Owned manager) (entry : Nat) : Owned (manager.failed entry) := by
  unfold Manager.failed Manager.setStatus
  exact owned.edit entry fun _ => rfl

/-- A runtime that is shut down keeps its settings, and its owner. -/
theorem shutdown (owned : Owned manager) (runtime : Nat) : Owned (manager.shutdown runtime) := by
  have settings (other : Nat) : ((manager.shutdown runtime).runtimes other).settings =
      (manager.runtimes other).settings := by
    unfold Manager.shutdown
    dsimp only
    rw [Function.update_apply]
    split
    next same => rw [same]
    next => rfl
  have closed (other : Nat) (isClosed : (manager.runtimes other).closed = true) :
      ((manager.shutdown runtime).runtimes other).closed = true := by
    unfold Manager.shutdown
    dsimp only
    rw [Function.update_apply]
    split
    · rfl
    · exact isClosed
  refine ⟨owned.exclusive, owned.apart, owned.single, owned.lent, owned.stored, ?_, ?_,
    owned.generation, ?_, owned.active⟩
  · intro thread entry read generation other loan has
    rw [settings]
    exact owned.configured thread entry read generation other loan has
  · intro entry other idle
    rw [settings]
    exact owned.idleConfigured entry other idle
  · intro other below
    exact (owned.kept other below).imp (closed other) id

theorem closed_shutdown (manager : Manager σ) (runtime : Nat) :
    ((manager.shutdown runtime).runtimes runtime).closed = true := by
  unfold Manager.shutdown
  dsimp only
  rw [Function.update_self]

variable {entry generation : Nat}

/-- A pool may forget its settings and give up its idle runtime, once that one is closed,
when its generation goes on. -/
theorem forget (owned : Owned manager)
    (closed : ∀ runtime, (manager.pool entry).idle = some runtime →
      (manager.runtimes runtime).closed = true)
    (later : (manager.pool entry).generation < generation) :
    Owned (manager.setPool entry { manager.pool entry with
      idle := none, generation := generation, settings := none }) := by
  refine ⟨owned.exclusive, ?_, ?_, owned.lent, ?_, owned.configured, ?_, ?_, ?_, ?_⟩
  · intro thread other runtime has
    rw [Manager.pool_setPool]
    split
    · exact nofun
    · exact owned.apart thread other runtime has
  · intro here other runtime
    rw [Manager.pool_setPool, Manager.pool_setPool]
    split
    · exact nofun
    · split
      · exact fun _ => nofun
      · exact owned.single here other runtime
  · intro here runtime
    rw [Manager.pool_setPool]
    split
    · exact nofun
    · exact owned.stored here runtime
  · intro here runtime
    rw [Manager.pool_setPool]
    split
    · exact nofun
    · exact owned.idleConfigured here runtime
  · intro thread here settings old loan
    have before := owned.generation thread here settings old loan
    rw [Manager.pool_setPool]
    split
    next same =>
      rw [same] at before
      refine ⟨Nat.le_of_lt (Nat.lt_of_le_of_lt before.1 later), ?_⟩
      intro current
      dsimp only at current
      omega
    next => exact before
  · intro runtime below
    rcases owned.kept runtime below with isClosed | ⟨here, idle⟩ | lent
    · exact .inl isClosed
    · by_cases same : here = entry
      · rw [same] at idle
        exact .inl (closed runtime idle)
      · refine .inr (.inl ⟨here, ?_⟩)
        rw [Manager.pool_setPool, if_neg same]
        exact idle
    · exact .inr (.inr lent)
  · intro here runtime
    rw [Manager.pool_setPool]
    split
    next same =>
      rw [same]
      exact owned.active entry runtime
    next => exact owned.active here runtime

/-- Invalidating a pool keeps ownership, until the generations are used up. -/
theorem invalidate (owned : Owned manager)
    (room : (manager.pool entry).generation + 1 < generations) :
    Owned (manager.invalidate entry) := by
  unfold Manager.invalidate
  dsimp only
  rw [Nat.mod_eq_of_lt room]
  cases idle : (manager.pool entry).idle with
  | none =>
    refine owned.forget ?_ (Nat.lt_succ_self _)
    intro runtime isIdle
    cases idle.symm.trans isIdle
  | some runtime =>
    have closed : ∀ other, ((manager.shutdown runtime).pool entry).idle = some other →
        ((manager.shutdown runtime).runtimes other).closed = true := by
      intro other isIdle
      rw [← Option.some_inj.mp (idle.symm.trans isIdle)]
      exact closed_shutdown manager runtime
    exact (owned.shutdown runtime).forget closed (Nat.lt_succ_self _)

theorem inactivate (owned : Owned manager) {active : List Nat}
    (fewer : ∀ runtime ∈ active, runtime ∈ (manager.pool entry).active) :
    Owned (manager.setPool entry { manager.pool entry with active := active }) := by
  refine owned.fewer (fun _ => ⟨rfl, rfl, rfl⟩) ?_ ?_ rfl rfl
  · intro other
    rw [Manager.pool_setPool]
    split
    next same =>
      rw [same]
      exact ⟨rfl, rfl, rfl⟩
    next => exact ⟨rfl, rfl, rfl⟩
  · intro other runtime
    rw [Manager.pool_setPool]
    split
    next same =>
      rw [same]
      exact fewer runtime
    next => exact id

theorem foldl_shutdown (owned : Owned manager) (runtimes : List Nat) :
    Owned (runtimes.foldl Manager.shutdown manager) := by
  induction runtimes generalizing manager with
  | nil => exact owned
  | cons runtime rest ih => exact ih (owned.shutdown runtime)

theorem tearDown (owned : Owned manager)
    (room : (manager.pool entry).generation + 1 < generations) :
    Owned (manager.tearDown entry) := by
  have nothing : ∀ runtime ∈ ([] : List Nat),
      runtime ∈ ((manager.invalidate entry).pool entry).active :=
    fun _ member => absurd member List.not_mem_nil
  exact ((owned.invalidate room).inactivate nothing).foldl_shutdown _

/-- A pool without an idle runtime, and whose generation nobody has, takes other settings. -/
theorem configure (owned : Owned manager) (empty : (manager.pool entry).idle = none)
    (new : ∀ thread settings generation,
      (manager.threads thread).loan = some (entry, settings, generation) →
        generation < (manager.pool entry).generation)
    (settings : σ) :
    Owned (manager.setPool entry { manager.pool entry with settings := some settings }) := by
  have same (other : Nat) : ((manager.setPool entry { manager.pool entry with
      settings := some settings }).pool other).idle = (manager.pool other).idle ∧
      ((manager.setPool entry { manager.pool entry with
        settings := some settings }).pool other).active = (manager.pool other).active := by
    rw [Manager.pool_setPool]
    split
    next here =>
      rw [here]
      exact ⟨rfl, rfl⟩
    next => exact ⟨rfl, rfl⟩
  have idle (other : Nat) := (same other).1
  refine ⟨owned.exclusive, ?_, ?_, owned.lent, ?_, owned.configured, ?_, ?_, ?_, ?_⟩
  · intro thread other runtime has
    rw [idle]
    exact owned.apart thread other runtime has
  · intro one two runtime
    rw [idle, idle]
    exact owned.single one two runtime
  · intro other runtime
    rw [idle]
    exact owned.stored other runtime
  · intro other runtime isIdle
    rw [idle] at isIdle
    rw [Manager.pool_setPool]
    split
    next here =>
      rw [here] at isIdle
      cases empty.symm.trans isIdle
    next => exact owned.idleConfigured other runtime isIdle
  · intro thread other read generation loan
    rw [Manager.pool_setPool]
    split
    next here =>
      rw [here] at loan
      have before := new thread read generation loan
      refine ⟨Nat.le_of_lt before, ?_⟩
      intro current
      exact absurd before (by rw [current]; exact Nat.lt_irrefl _)
    next => exact owned.generation thread other read generation loan
  · intro runtime below
    simp only [idle]
    exact owned.kept runtime below
  · intro other runtime
    rw [(same other).2]
    exact owned.active other runtime

variable {settings : σ}

/-- A borrower takes what is idle in a pool that has its settings. -/
theorem takeOut (owned : Owned manager) (had : (manager.threads thread).runtime = none)
    (configured : (manager.pool entry).settings = some settings) :
    Owned ((manager.setPool entry { manager.pool entry with idle := none }).setThread thread
      (.starting entry settings (manager.pool entry).generation (manager.pool entry).idle)) := by
  generalize isNext : (manager.setPool entry { manager.pool entry with idle := none }).setThread
    thread (.starting entry settings (manager.pool entry).generation
      (manager.pool entry).idle) = next
  have points (other : Nat) : next.threads other = if other = thread then
      .starting entry settings (manager.pool entry).generation (manager.pool entry).idle
      else manager.threads other := by
    rw [← isNext]
    exact Manager.threads_setThread _ other thread _
  have pools (other : Nat) : next.pool other = if other = entry then
      { manager.pool entry with idle := none } else manager.pool other := by
    rw [← isNext, Manager.pool_setThread, Manager.pool_setPool]
  have runtimes : next.runtimes = manager.runtimes := by rw [← isNext]; rfl
  have made : next.made = manager.made := by rw [← isNext]; rfl
  clear isNext
  obtain ⟨exclusive, apart, single, lent, stored, isConfigured, idleConfigured, isGeneration, kept,
    isActive⟩ := owned
  constructor <;> simp only [points, pools, runtimes, made]
  · grind [Thread.runtime]
  · grind [Thread.runtime]
  · grind
  · grind [Thread.runtime]
  · grind
  · grind [Thread.runtime, Thread.loan]
  · grind
  · grind [Thread.runtime, Thread.loan]
  · grind [Thread.runtime, Thread.loan]
  · intro other runtime member
    have before : runtime ∈ (manager.pool other).active := by grind
    obtain ⟨user, uses⟩ := isActive other runtime before
    have elsewhere : user ≠ thread := by
      rintro rfl
      cases had.symm.trans (Thread.runtime_of_uses uses)
    exact ⟨user, by rw [if_neg elsewhere]; exact uses⟩

theorem makeClosed (owned : Owned manager) (settings : σ) :
    Owned { manager with
      runtimes := Function.update manager.runtimes manager.made ⟨true, settings⟩
      made := manager.made + 1 } := by
  obtain ⟨exclusive, apart, single, lent, stored, isConfigured, idleConfigured, isGeneration, kept,
    isActive⟩ := owned
  have runtimes (runtime : Nat) : Function.update manager.runtimes manager.made
      ⟨true, settings⟩ runtime =
        if runtime = manager.made then ⟨true, settings⟩ else manager.runtimes runtime := by
    rw [Function.update_apply]
  refine ⟨exclusive, apart, single, ?_, ?_, ?_, ?_, isGeneration, ?_, isActive⟩
  · exact fun thread runtime has => Nat.lt_succ_of_lt (lent thread runtime has)
  · exact fun entry runtime idle => Nat.lt_succ_of_lt (stored entry runtime idle)
  · intro thread entry read generation runtime loan has
    dsimp only
    rw [runtimes, if_neg (Nat.ne_of_lt (lent thread runtime has))]
    exact isConfigured thread entry read generation runtime loan has
  · intro entry runtime idle
    dsimp only
    rw [runtimes, if_neg (Nat.ne_of_lt (stored entry runtime idle))]
    exact idleConfigured entry runtime idle
  · intro runtime below
    dsimp only at below ⊢
    rw [runtimes]
    split
    · exact .inl rfl
    · exact kept runtime (by omega)

/-- A borrower makes a runtime with the settings it has read. -/
theorem make (owned : Owned manager) {idle : Option Nat}
    (starts : manager.threads thread = .starting entry settings generation idle)
    (closed : ∀ runtime, idle = some runtime → (manager.runtimes runtime).closed = true) :
    Owned ({ manager with
      runtimes := Function.update manager.runtimes manager.made ⟨false, settings⟩
      made := manager.made + 1 }.setThread thread
        (.entering entry settings generation manager.made)) := by
  generalize isNext : { manager with
    runtimes := Function.update manager.runtimes manager.made ⟨false, settings⟩
    made := manager.made + 1 }.setThread thread
      (.entering entry settings generation manager.made) = next
  have points (other : Nat) : next.threads other = if other = thread then
      .entering entry settings generation manager.made else manager.threads other := by
    rw [← isNext]
    exact Manager.threads_setThread _ other thread _
  have pools (other : Nat) : next.pool other = manager.pool other := by rw [← isNext]; rfl
  have runtimes (runtime : Nat) : next.runtimes runtime =
      if runtime = manager.made then ⟨false, settings⟩ else manager.runtimes runtime := by
    rw [← isNext]
    exact Function.update_apply _ _ _ _
  have made : next.made = manager.made + 1 := by rw [← isNext]; rfl
  clear isNext
  obtain ⟨exclusive, apart, single, lent, stored, isConfigured, idleConfigured, isGeneration, kept,
    isActive⟩ := owned
  have hasLoan := isGeneration thread entry settings generation (by rw [starts]; rfl)
  have had : (manager.threads thread).runtime = idle := by rw [starts]; rfl
  have unused : (manager.threads thread).uses = none := by rw [starts]; rfl
  constructor <;> simp only [points, pools, runtimes, made]
  · grind [Thread.runtime]
  · grind [Thread.runtime]
  · exact single
  · grind [Thread.runtime]
  · grind
  · grind [Thread.runtime, Thread.loan]
  · grind
  · grind [Thread.loan]
  · grind [Thread.runtime]
  · grind

theorem enter (owned : Owned manager) {runtime : Nat}
    (enters : manager.threads thread = .entering entry settings generation runtime) :
    Owned ((manager.setPool entry { manager.pool entry with
      active := (manager.pool entry).active ++ [runtime] }).setThread thread
        (.borrowed entry settings generation runtime)) := by
  generalize isNext : (manager.setPool entry { manager.pool entry with
    active := (manager.pool entry).active ++ [runtime] }).setThread thread
      (.borrowed entry settings generation runtime) = next
  have points (other : Nat) : next.threads other = if other = thread then
      .borrowed entry settings generation runtime else manager.threads other := by
    rw [← isNext]
    exact Manager.threads_setThread _ other thread _
  have pools (other : Nat) : next.pool other = if other = entry then
      { manager.pool entry with active := (manager.pool entry).active ++ [runtime] }
      else manager.pool other := by
    rw [← isNext, Manager.pool_setThread, Manager.pool_setPool]
  have runtimes : next.runtimes = manager.runtimes := by rw [← isNext]; rfl
  have made : next.made = manager.made := by rw [← isNext]; rfl
  clear isNext
  obtain ⟨exclusive, apart, single, lent, stored, isConfigured, idleConfigured, isGeneration, kept,
    isActive⟩ := owned
  have hasLoan := isGeneration thread entry settings generation (by rw [enters]; rfl)
  constructor <;> simp only [points, pools, runtimes, made]
  · grind [Thread.runtime]
  · grind [Thread.runtime]
  · grind
  · grind [Thread.runtime]
  · grind
  · grind [Thread.runtime, Thread.loan]
  · grind
  · grind [Thread.loan]
  · grind [Thread.runtime]
  · grind [Thread.uses]

/-- A runtime that is given back becomes idle in a pool that has its settings. -/
theorem giveBack (owned : Owned manager) {runtime : Nat} (borrowed : manager.threads thread =
      .borrowed entry settings (manager.pool entry).generation runtime)
    (empty : (manager.pool entry).idle = none) :
    Owned ((manager.setPool entry { manager.pool entry with
      active := (manager.pool entry).active.filter (· ≠ runtime)
      idle := some runtime }).setThread thread .free) := by
  generalize isNext : (manager.setPool entry { manager.pool entry with
    active := (manager.pool entry).active.filter (· ≠ runtime)
    idle := some runtime }).setThread thread .free = next
  have points (other : Nat) : next.threads other = if other = thread then .free
      else manager.threads other := by
    rw [← isNext]
    exact Manager.threads_setThread _ other thread _
  have pools (other : Nat) : next.pool other = if other = entry then
      { manager.pool entry with
        active := (manager.pool entry).active.filter (· ≠ runtime)
        idle := some runtime } else manager.pool other := by
    rw [← isNext, Manager.pool_setThread, Manager.pool_setPool]
  have runtimes : next.runtimes = manager.runtimes := by rw [← isNext]; rfl
  have made : next.made = manager.made := by rw [← isNext]; rfl
  clear isNext
  obtain ⟨exclusive, apart, single, lent, stored, isConfigured, idleConfigured, isGeneration, kept,
    isActive⟩ := owned
  have hasLoan := isGeneration thread entry settings _ (by rw [borrowed]; rfl)
  have had : (manager.threads thread).runtime = some runtime := by rw [borrowed]; rfl
  have uses : (manager.threads thread).uses = some (entry, runtime) := by rw [borrowed]; rfl
  have configured := isConfigured thread entry settings _ runtime (by rw [borrowed]; rfl) had
  constructor <;> simp only [points, pools, runtimes, made]
  · grind [Thread.runtime]
  · grind [Thread.runtime]
  · grind
  · grind [Thread.runtime]
  · grind
  · grind [Thread.runtime, Thread.loan]
  · grind
  · grind [Thread.loan]
  · grind [Thread.runtime]
  · grind [Thread.uses]

theorem insert (owned : Owned manager) (empty : (manager.pool manager.installed).idle = none)
    (unborrowed : ∀ thread settings generation,
      (manager.threads thread).loan ≠ some (manager.installed, settings, generation))
    (enabled : Bool) : Owned (manager.insert enabled) := by
  have pools (entry : Nat) : (manager.insert enabled).pool entry =
      if entry = manager.installed then {} else manager.pool entry := by
    unfold Manager.insert Manager.pool
    dsimp only
    rw [Function.update_apply]
    split
    · rfl
    · rfl
  have threads : (manager.insert enabled).threads = manager.threads := rfl
  have runtimes : (manager.insert enabled).runtimes = manager.runtimes := rfl
  have made : (manager.insert enabled).made = manager.made := rfl
  obtain ⟨exclusive, apart, single, lent, stored, isConfigured, idleConfigured, isGeneration, kept,
    isActive⟩ := owned
  constructor <;> simp only [pools, threads, runtimes, made]
  · exact exclusive
  · grind
  · grind
  · exact lent
  · grind
  · exact isConfigured
  · grind
  · grind
  · grind
  · grind

theorem initially (fresh : Fresh manager) : Owned manager := by
  have free (thread : Nat) := fresh.threads thread
  have pools (entry : Nat) : manager.pool entry = {} := fresh.entries entry
  constructor <;> simp only [free, pools, fresh.made]
  · exact nofun
  · exact nofun
  · exact nofun
  · exact nofun
  · exact nofun
  · exact nofun
  · exact nofun
  · exact nofun
  · exact nofun
  · exact nofun

end Owned

end LosslessMusic.Extensions.Workers
