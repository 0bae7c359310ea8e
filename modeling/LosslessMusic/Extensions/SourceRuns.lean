import Mathlib.Data.List.Chain
import LosslessMusic.Extensions.SourceLoading
import LosslessMusic.Transition.Machine

/-!
# Runs of the extension manager

The calls take turns, since each of them holds the mutation lock to its end. Between any
two requests of a call the process may die. It leaves the source directory and the
settings, and starts again with an empty registry.
-/

namespace LosslessMusic.Extensions.Sources

open Interruption Transition
open Store (bytesOf)

/-! ## The system -/

/-- A call that is going on. -/
structure Running (parse : Parser) where
  operation : Operation parse
  program : Action parse Unit
  began : World parse

/-- How a call has ended. -/
inductive Ending
  | returned
  | refused (error : ManagerError)
  /-- The process has died. -/
  | died
  deriving DecidableEq

/-- A call that has ended, or a death between two calls. -/
structure Record (parse : Parser) where
  operation : Option (Operation parse)
  ending : Ending
  before : World parse
  after : World parse

/-- What happens to a manager. -/
inductive Event (parse : Parser)
  | began (operation : Operation parse)
  | stepped (choice : Choice)
  | finished
  | died

/-- The world, the call that is going on, and the calls before it with the latest first. -/
structure System (parse : Parser) where
  world : World parse
  running : Option (Running parse)
  history : List (Record parse)

namespace System

variable {parse : Parser}

/-- A process that has just started. -/
def beginning (sources : Finmap fun _ : Name => Node parse)
    (persisted : Name → Option Bool) : System parse where
  world := ⟨sources, fun _ => none, persisted, false⟩
  running := none
  history := []

variable (system : System parse)

/-- A call ends. -/
def finish (call : Running parse) (ending : Ending) : System parse :=
  { system with
    running := none
    history := ⟨some call.operation, ending, call.began, system.world⟩ :: system.history }

/-- The process dies and starts again. -/
def die : System parse :=
  let world : World parse := ⟨system.world.sources, fun _ => none, system.world.persisted, false⟩
  { world := world
    running := none
    history := ⟨system.running.map Running.operation, .died,
        (system.running.map Running.began).getD system.world, world⟩ :: system.history }

/-- One event, if it can happen. -/
def step : Event parse → Option (System parse)
  | .began operation =>
    match system.running with
    | some _ => none
    | none =>
      let world := { system.world with disturbed := false }
      some { system with
        world := world
        running := some ⟨operation, operation.program, world⟩ }
  | .stepped choice =>
    match system.running with
    | none => none
    | some call =>
      match call.program with
      | .done _ | .fails _ => none
      | .request asked next =>
        let outcome := effect system.world asked choice
        some { system with
          world := outcome.1
          running := some { call with program := next outcome.2 } }
  | .finished =>
    match system.running with
    | none => none
    | some call =>
      match call.program with
      | .done _ => some (system.finish call .returned)
      | .fails error => some (system.finish call (.refused error))
      | .request _ _ => none
  | .died => some system.die

/-- A manager, from a start of its process. -/
def machine (parse : Parser) : Machine (System parse) (Event parse) where
  Start system := ∃ sources persisted, system = beginning sources persisted
  step := System.step

end System

/-! ## The promises -/

section Promises

variable {parse : Parser}

/-- The packages that an operation may bring. -/
def Operation.Offers (before : World parse) : Operation parse → Package parse → Prop
  | .install package, offered | .upgrade package, offered => package = some offered
  | .remove _, _ => False
  | .loadAll, offered => Offered before offered

/-- Whether an operation is to remove an extension. -/
def Operation.removes (id : Name) : Operation parse → Bool
  | .remove removed => removed = id
  | .install _ | .upgrade _ | .loadAll => false

/-- Whether an operation is an installation or an upgrade of one package. -/
def Operation.installs : Operation parse → Bool
  | .install _ | .upgrade _ => true
  | .remove _ | .loadAll => false

namespace Record

variable (record : Record parse)

/-- The packages that a call may bring. -/
def Offers (package : Package parse) : Prop :=
  ∃ operation ∈ record.operation, operation.Offers record.before package

/-- Whether a call was to remove an extension. -/
def removes (id : Name) : Bool := record.operation.any (Operation.removes id)

/-- Whether a call was to install or to upgrade a package. -/
def installs : Bool := record.operation.any Operation.installs

end Record

/-- What a run of a manager promises. -/
structure System.Promised (system : System parse) : Prop where
  /-- An installation or an upgrade that fails leaves everything as it was. -/
  unchanged : ∀ record ∈ system.history, ∀ error, record.installs = true →
    record.ending = .refused error → Same record.before record.after
  /-- Whether a call ends or the process dies, an extension that is not removed has the
  directory that it had, or all of a package. -/
  whole : ∀ record ∈ system.history, ∀ id, Store.validExtensionId id = true →
    record.removes id = false → Current record.Offers record.before record.after id
  /-- What could be loaded before any call is in the registry after the next loading, unless
  it was removed in between or a request of the loading fails. -/
  loaded : ∀ later loading between record earlier,
    system.history = later ++ loading :: (between ++ record :: earlier) →
    (∃ operation ∈ loading.operation, operation = .loadAll) → loading.ending ≠ .died →
    ∀ id, Loadable record.before id → (∀ call ∈ between ++ [record], call.removes id = false) →
      loading.after.disturbed = true ∨ (loading.after.entries id).isSome = true
  /-- Between two calls the registry is right about the source directory. -/
  sound : system.running = none → Sound system.world

/-- The surroundings take the previous source back where an upgrade asks for it, and the
process does not die while the directory of an installed extension is under another name. -/
def System.Careful (system : System parse) : Event parse → Prop
  | .stepped choice => ∀ call asked next, system.running = some call →
      call.program = .request asked next → asked.careful choice
  | .died => ∀ call, system.running = some call → ∀ id, call.operation.removes id = false →
      (system.world.entries id).isSome = true →
      (call.began.sources.lookup id).isSome = true →
      (system.world.sources.lookup id).isSome = true
  | .began _ | .finished => True

end Promises

/-! ## One call -/

variable {id : Name} {result : Except ManagerError Unit}

section Calls

variable {parse : Parser} {before world : World parse}

/-- The source directory while a call is going on. -/
def Operation.During (before : World parse) : Operation parse → World parse → Prop
  | .remove id, world => Same before world ∨ Removed id before world
  | .install package, world => Between (fun offered => package = some offered) before world
  | .upgrade package, world => Between (fun offered => package = some offered) before world
  | .loadAll, world => Between (Offered before) before world

/-- What a call has done when it returns, or fails. -/
def Operation.Ended (before : World parse) :
    Operation parse → Except ManagerError Unit → World parse → Prop
  | .install package, .ok (), after | .upgrade package, .ok (), after =>
    ∃ offered, package = some offered ∧ Activated offered before after
  | .install _, .error _, after | .upgrade _, .error _, after => Same before after
  | .remove id, _, after => Same before after ∨ Removed id before after
  | .loadAll, _, after => Rest before before after ∧
      (after.disturbed = true ∨ ∀ id, Loadable before id → (after.entries id).isSome = true)

theorem Same.between (same : Same before world) (offered : Package parse → Prop) :
    Between offered before world :=
  fun name fixed => .inl (.inl (same.sources name fixed))

/-- A package is installed or upgraded, and nothing else happens. -/
theorem meets_offered {package : Package parse} {action : Action parse Name}
    (meets : Meets (Touches package before) (fun _ => Activated package before)
      (fun _ => Same before) action world) :
    Meets (Between (fun offered => some package = some offered) before)
      (fun _ next => ∃ offered, some package = some offered ∧ Activated offered before next)
      (fun _ => Same before) action world := by
  apply meets.mono
  · intro next touches
    exact touches.between (fun _ _ => .inl rfl) (fun _ fixed => fixed) rfl
  · intro _ next activated
    exact ⟨package, rfl, activated⟩
  · exact fun _ _ same => same

theorem meets_install (sound : Sound before) (package : Option (Package parse)) :
    Meets (Between (fun offered => package = some offered) before)
      (fun _ next => ∃ offered, package = some offered ∧ Activated offered before next)
      (fun _ => Same before) (install package) before := by
  have same : Same before before := .refl before
  apply Program.Meets.bind
  apply meets_check (same.between _) _ same.disturb
  cases package with
  | none => exact same
  | some package => exact meets_offered (meets_installOrUpgrade sound.named same)

theorem meets_upgrade (sound : Sound before) (package : Option (Package parse)) :
    Meets (Between (fun offered => package = some offered) before)
      (fun _ next => ∃ offered, package = some offered ∧ Activated offered before next)
      (fun _ => Same before) (upgrade package) before := by
  have same : Same before before := .refl before
  apply Program.Meets.bind
  apply meets_check (same.between _) _ same.disturb
  cases package with
  | none => exact same
  | some package =>
    apply Program.Meets.bind
    apply meets_entry (same.between _)
    cases found : before.entries package.manifest.name with
    | none => exact same
    | some existing =>
      exact meets_offered (meets_upgradePackage found (sound.named _ _ found) same)

theorem meets_program (sound : Sound before) (operation : Operation parse) :
    Meets (operation.During before) (fun _ => operation.Ended before (.ok ()))
      (fun error => operation.Ended before (.error error)) operation.program before := by
  cases operation with
  | install package =>
    exact (meets_install sound package).andThen fun _ _ activated => activated
  | upgrade package =>
    exact (meets_upgrade sound package).andThen fun _ _ activated => activated
  | remove id => exact meets_remove sound
  | loadAll =>
    apply Program.Meets.andThen ((meets_loadAll sound).mono (fun _ held => held)
      (fun _ _ held => held) (fun _ _ held => ⟨held.1, .inl held.2⟩))
    exact fun _ _ loaded => loaded

variable {operation : Operation parse}

theorem Operation.Ended.current
    (ended : operation.Ended before result world) (valid : Store.validExtensionId id = true)
    (kept : operation.removes id = false) : Current (operation.Offers before) before world id := by
  have activated : ∀ {package : Package parse} {offers : Package parse → Prop},
      offers package → Activated package before world → Current offers before world id := by
    intro package offers own activated
    by_cases same : id = package.manifest.name
    · subst same
      exact .inr ⟨package, own, rfl, activated.active, activated.complete⟩
    · exact .inl (activated.others id (.inl valid) same)
  have unchanged : Same before world → Current (operation.Offers before) before world id :=
    fun same => .inl (same.sources id (.inl valid))
  cases operation with
  | install package | upgrade package =>
    cases result with
    | ok value =>
      obtain ⟨offered, own, placed⟩ := ended
      exact activated own placed
    | error error => exact unchanged ended
  | remove removed =>
    rcases ended with same | gone
    · exact unchanged same
    · have other : id ≠ removed := by
        rintro rfl
        exact of_decide_eq_false kept rfl
      exact .inl (gone.others id (.inl valid) other)
  | loadAll => exact ended.1.loading.current id (.inl valid)

/-- The registry is right about the directory when a call has ended. -/
theorem Operation.Ended.sound
    (ended : operation.Ended before result world) (sound : Sound before) : Sound world := by
  cases operation with
  | install package | upgrade package =>
    cases result with
    | ok value =>
      obtain ⟨offered, own, activated⟩ := ended
      exact activated.sound sound
    | error error => exact Same.sound ended sound
  | remove removed =>
    rcases ended with same | gone
    · exact same.sound sound
    · exact gone.sound sound
  | loadAll => exact ended.1.loading.sound

/-- What a name leads to in the middle of a call, unless its directory is away. -/
theorem Operation.During.current
    (during : operation.During before world) (valid : Store.validExtensionId id = true)
    (kept : operation.removes id = false)
    (there : (world.entries id).isSome = true → (before.sources.lookup id).isSome = true →
      (world.sources.lookup id).isSome = true) :
    Current (operation.Offers before) before world id := by
  have present : ∀ {offers : Package parse → Prop}, Between offers before world →
      Current offers before world id := by
    intro offers between
    rcases between id (.inl valid) with current | ⟨away, registered⟩
    · exact current
    · refine .inl ?_
      cases old : before.sources.lookup id with
      | none => exact away
      | some node =>
        have back := there registered (by rw [old]; rfl)
        rw [away] at back
        cases back
  cases operation with
  | install package | upgrade package => exact present during
  | loadAll => exact present during
  | remove removed =>
    have ended : Operation.Ended before (.remove removed) (.ok ()) world := during
    exact ended.current valid kept

theorem Current.loadable {offers : Package parse → Prop}
    (current : Current offers before world id) (loadable : Loadable before id) :
    Loadable world id := by
  rcases current with same | ⟨package, _, named, active, complete⟩
  · obtain ⟨files, manifest, there, rest⟩ := loadable
    exact ⟨files, manifest, same.trans there, rest⟩
  · exact ⟨package.contents, package.manifest, active, complete, named⟩

theorem Loadable.valid (loadable : Loadable world id) : Store.validExtensionId id = true := by
  obtain ⟨files, manifest, _, _, named⟩ := loadable
  rw [← named]
  exact manifest.valid

end Calls

/-! ## The invariant -/

section Invariant

variable {parse : Parser} {system next : System parse}

/-- What is known of a call that has ended. -/
structure Record.Kept (record : Record parse) : Prop where
  unchanged : ∀ error, record.installs = true → record.ending = .refused error →
    Same record.before record.after
  whole : ∀ id, Store.validExtensionId id = true → record.removes id = false →
    Current record.Offers record.before record.after id
  registered : (∃ operation ∈ record.operation, operation = .loadAll) → record.ending ≠ .died →
    record.after.disturbed = true ∨
      ∀ id, Loadable record.before id → (record.after.entries id).isSome = true

/-- A call finds the source directory that the one before it has left. -/
def Follows (later earlier : Record parse) : Prop :=
  later.before.sources = earlier.after.sources

/-- The world that the last call has left. -/
def System.base (system : System parse) : World parse :=
  (system.running.map Running.began).getD system.world

/-- What holds between any two events of a run. -/
structure Invariant (system : System parse) : Prop where
  kept : ∀ record ∈ system.history, record.Kept
  follows : system.history.IsChain Follows
  latest : ∀ record ∈ system.history.head?, system.base.sources = record.after.sources
  idle : system.running = none → Sound system.world
  busy : ∀ call, system.running = some call → Sound call.began ∧
    Meets (call.operation.During call.began) (fun _ => call.operation.Ended call.began (.ok ()))
      (fun error => call.operation.Ended call.began (.error error)) call.program system.world

theorem loadable_later {later record : Record parse} {between earlier : List (Record parse)}
    (follows : (later :: (between ++ record :: earlier)).IsChain Follows)
    (kept : ∀ call ∈ between ++ [record], call.Kept)
    (stays : ∀ call ∈ between ++ [record], call.removes id = false)
    (loadable : Loadable record.before id) : Loadable later.before id := by
  have through : ∀ call : Record parse, call.Kept → call.removes id = false →
      Loadable call.before id → ∀ after, Follows after call → Loadable after.before id := by
    intro call kept stays loadable after follows
    have left := (kept.whole id loadable.valid stays).loadable loadable
    unfold Loadable
    rw [follows]
    exact left
  induction between generalizing later with
  | nil =>
    have member : record ∈ [] ++ [record] := List.mem_singleton_self record
    exact through record (kept record member) (stays record member) loadable later
      (follows.rel_head? rfl)
  | cons call between ih =>
    have member : call ∈ call :: between ++ [record] := List.mem_cons_self
    have before : Loadable call.before id := by
      apply ih follows.tail
      · exact fun other found => kept other (List.mem_cons_of_mem _ found)
      · exact fun other found => stays other (List.mem_cons_of_mem _ found)
    exact through call (kept call member) (stays call member) before later (follows.rel_head? rfl)

theorem Invariant.promised (invariant : Invariant system) : system.Promised where
  unchanged record member error := (invariant.kept record member).unchanged error
  whole record member := (invariant.kept record member).whole
  loaded := by
    intro later loading between record earlier history loads ended id loadable stays
    have member : ∀ call, call ∈ loading :: (between ++ [record]) → call ∈ system.history := by
      intro call found
      rw [history]
      apply List.mem_append_right
      rcases List.mem_cons.mp found with rfl | found
      · exact List.mem_cons_self
      · apply List.mem_cons_of_mem
        rcases List.mem_append.mp found with inside | last
        · exact List.mem_append_left _ inside
        · rw [List.mem_singleton.mp last]
          exact List.mem_append_right _ List.mem_cons_self
    have follows : (loading :: (between ++ record :: earlier)).IsChain Follows := by
      have all := invariant.follows
      rw [history] at all
      exact all.right_of_append
    have still := loadable_later follows
      (fun call found => invariant.kept call (member call (List.mem_cons_of_mem _ found)))
      stays loadable
    have kept := invariant.kept loading (member loading List.mem_cons_self)
    exact (kept.registered loads ended).imp_right fun registered => registered id still
  sound := invariant.idle

/-- A call that has ended, or a death, is one more record. -/
theorem Invariant.record (invariant : Invariant system) {record : Record parse}
    (kept : record.Kept) (before : record.before = system.base)
    (history : next.history = record :: system.history) (after : next.world = record.after)
    (ended : next.running = none) (sound : Sound record.after) : Invariant next := by
  constructor
  · intro other member
    rw [history] at member
    rcases List.mem_cons.mp member with rfl | older
    · exact kept
    · exact invariant.kept other older
  · rw [history, List.isChain_cons]
    refine ⟨?_, invariant.follows⟩
    intro latest member
    unfold Follows
    rw [before]
    exact invariant.latest latest member
  · intro latest member
    rw [history] at member
    cases member
    unfold System.base
    rw [ended, after]
    rfl
  · intro _
    rw [after]
    exact sound
  · intro call going
    rw [ended] at going
    cases going

variable {operation : Operation parse}

theorem Invariant.began (invariant : Invariant system)
    (stepped : system.step (.began operation) = some next) : Invariant next := by
  simp only [System.step] at stepped
  cases going : system.running with
  | some call =>
    rw [going] at stepped
    cases stepped
  | none =>
    rw [going] at stepped
    cases stepped
    have quiet : Quiet system.world { system.world with disturbed := false } := ⟨rfl, rfl⟩
    have sound := quiet.sound (invariant.idle going)
    refine ⟨invariant.kept, invariant.follows, ?_, nofun, ?_⟩
    · intro latest member
      have same := invariant.latest latest member
      unfold System.base at same
      rw [going] at same
      exact same
    · intro call begun
      cases begun
      exact ⟨sound, meets_program sound operation⟩

theorem Invariant.stepped {choice : Choice} (invariant : Invariant system)
    (careful : system.Careful (.stepped choice))
    (stepped : system.step (.stepped choice) = some next) : Invariant next := by
  simp only [System.step] at stepped
  cases going : system.running with
  | none =>
    rw [going] at stepped
    cases stepped
  | some call =>
    rw [going] at stepped
    simp only at stepped
    obtain ⟨sound, meets⟩ := invariant.busy call going
    cases program : call.program with
    | done value =>
      rw [program] at stepped
      cases stepped
    | fails error =>
      rw [program] at stepped
      cases stepped
    | request asked answer =>
      rw [program] at stepped meets
      cases stepped
      refine ⟨invariant.kept, invariant.follows, ?_, nofun, ?_⟩
      · intro latest member
        have same := invariant.latest latest member
        unfold System.base at same
        rw [going] at same
        exact same
      · intro later same
        cases same
        exact ⟨sound, meets.2.2 choice (careful call asked answer going program)⟩

theorem Operation.Ended.kept {before world : World parse} {ending : Ending}
    (ended : operation.Ended before result world)
    (refused : ∀ error, ending = .refused error → result = .error error) :
    Record.Kept ⟨some operation, ending, before, world⟩ := by
  constructor
  · intro error installs fails
    rw [refused error fails] at ended
    cases operation with
    | install package | upgrade package => exact ended
    | remove _ | loadAll => cases installs
  · intro id valid kept
    rcases ended.current valid kept with same | ⟨package, offers, rest⟩
    · exact .inl same
    · exact .inr ⟨package, ⟨operation, rfl, offers⟩, rest⟩
  · rintro ⟨loading, same, rfl⟩ _
    cases same
    exact ended.2

theorem Invariant.finished (invariant : Invariant system)
    (stepped : system.step .finished = some next) : Invariant next := by
  simp only [System.step] at stepped
  cases going : system.running with
  | none =>
    rw [going] at stepped
    cases stepped
  | some call =>
    rw [going] at stepped
    simp only at stepped
    obtain ⟨sound, meets⟩ := invariant.busy call going
    have before : call.began = system.base := by
      unfold System.base
      rw [going]
      rfl
    cases program : call.program with
    | done value =>
      rw [program] at stepped meets
      cases stepped
      have ended : call.operation.Ended call.began (.ok ()) system.world := meets
      exact invariant.record (ended.kept fun _ fails => by cases fails) before rfl rfl rfl
        (ended.sound sound)
    | fails error =>
      rw [program] at stepped meets
      cases stepped
      have ended : call.operation.Ended call.began (.error error) system.world := meets
      refine invariant.record (ended.kept ?_) before rfl rfl rfl (ended.sound sound)
      intro _ fails
      cases fails
      rfl
    | request asked answer =>
      rw [program] at stepped
      cases stepped

/-- What a call has done is something that may be found in the middle of it. -/
theorem Operation.Ended.during {before world : World parse}
    (ended : operation.Ended before result world) : operation.During before world := by
  cases operation with
  | install package | upgrade package =>
    cases result with
    | ok value =>
      obtain ⟨offered, own, activated⟩ := ended
      exact activated.toPlaced.touches.between (fun _ _ => .inl rfl) (fun _ fixed => fixed) own
    | error error => exact Same.between ended _
  | remove id => exact ended
  | loadAll => exact ended.1.loading.between

theorem Invariant.died (invariant : Invariant system) (careful : system.Careful .died) :
    Invariant system.die := by
  have empty : Sound system.die.world := by
    intro id installed found
    cases found
  have kept : Record.Kept ⟨system.running.map Running.operation, .died, system.base,
      system.die.world⟩ := by
    refine ⟨fun _ _ => nofun, ?_, fun _ alive => absurd rfl alive⟩
    intro id valid kept
    unfold System.base
    cases going : system.running with
    | none => exact .inl rfl
    | some call =>
      obtain ⟨sound, meets⟩ := invariant.busy call going
      have during : call.operation.During call.began system.world :=
        meets.anytime (fun _ _ ended => ended.during) (fun _ _ ended => ended.during)
      have stays : call.operation.removes id = false := by
        simp only [Record.removes, going] at kept
        exact kept
      have current := during.current valid stays (careful call going id stays)
      rcases current with same | ⟨package, offers, rest⟩
      · exact .inl same
      · exact .inr ⟨package, ⟨call.operation, rfl, offers⟩, rest⟩
  exact invariant.record kept rfl rfl rfl rfl empty

theorem Invariant.step {event : Event parse} (invariant : Invariant system)
    (careful : system.Careful event) (stepped : system.step event = some next) :
    Invariant next := by
  cases event with
  | began operation => exact invariant.began stepped
  | stepped choice => exact invariant.stepped careful stepped
  | finished => exact invariant.finished stepped
  | died =>
    cases stepped
    exact invariant.died careful

theorem invariant_beginning (sources : Finmap fun _ : Name => Node parse)
    (persisted : Name → Option Bool) : Invariant (System.beginning sources persisted) where
  kept := fun _ member => by cases member
  follows := .nil
  latest := fun _ member => by cases member
  idle := fun _ _ _ found => by cases found
  busy := fun _ going => by cases going

end Invariant

/-- A manifest of the extension `a`. -/
def versionOf (version : Char) : Manifest := ⟨[97], [version], by decide⟩

/-- The manifests of two versions. -/
def plainParse : Parser
  | [1] => some (versionOf '1')
  | [2] => some (versionOf '2')
  | _ => none

/-- The first version. -/
def older : Package plainParse where
  manifest := versionOf '1'
  files := [(manifestPath, [1]), (indexPath, [])]
  described := ⟨[1], List.mem_cons_self, rfl⟩
  indexed := ⟨[], List.mem_cons_of_mem _ List.mem_cons_self⟩

/-- The second version. -/
def newer : Package plainParse where
  manifest := versionOf '2'
  files := [(manifestPath, [2]), (indexPath, [])]
  described := ⟨[2], List.mem_cons_self, rfl⟩
  indexed := ⟨[], List.mem_cons_of_mem _ List.mem_cons_self⟩

/-- A call that makes some requests. -/
def calling (operation : Operation plainParse) (choices : List Choice) : List (Event plainParse) :=
  .began operation :: choices.map .stepped

/-- The first version is installed. -/
def installing : List (Event plainParse) :=
  calling (.install (some older))
    ([.succeeded, .succeeded, .succeeded, .suffix [65]] ++ List.replicate 10 .succeeded) ++
      [.finished]

/-- The second version is installed, until the first is under another name. -/
def preserving : List Choice :=
  [.succeeded, .succeeded, .suffix [65]] ++ List.replicate 6 .succeeded ++
    [.suffix [66], .succeeded, .succeeded]

/-- Another name of the extension. -/
def otherName (kind : String) (text : Name) : Name := temporaryStart [97] kind ++ text

/-- The careful steps, as a test. -/
def isCareful (system : System plainParse) : Event plainParse → Bool
  | .stepped choice =>
    match system.running with
    | some ⟨_, .request (.rename _ _ true) _, _⟩ => choice = .succeeded
    | _ => true
  | .died =>
    match system.running with
    | some call => decide (∀ id ∈ call.began.sources.keys,
        (system.world.sources.lookup id).isSome = true)
    | none => true
  | .began _ | .finished => true

theorem careful_of_isCareful (system : System plainParse) (event : Event plainParse)
    (careful : isCareful system event = true) : system.Careful event := by
  cases event with
  | stepped choice =>
    intro call asked next going program
    obtain ⟨operation, left, began⟩ := call
    simp only at program
    subst program
    simp only [isCareful, going] at careful
    cases asked with
    | rename source target restoring =>
      cases restoring with
      | true =>
        have succeeds : choice = .succeeded := of_decide_eq_true careful
        exact succeeds
      | false => trivial
    | _ => trivial
  | died =>
    intro call going id _ _ before
    simp only [isCareful, going] at careful
    apply of_decide_eq_true careful
    rw [Finmap.mem_keys, ← Finmap.lookup_isSome]
    exact before
  | began _ | finished => trivial

/-- The process dies behind the second renaming of an upgrade, and the next loading finds
the new version. -/
def upgradedEvents : List (Event plainParse) :=
  installing ++ calling (.upgrade (some newer)) (preserving ++ [.succeeded]) ++ [.died] ++
    calling .loadAll ([.succeeded, .names [otherName "backup" [66], [97]]] ++
      List.replicate 16 .succeeded) ++ [.finished]

/-- Whether an extension can be loaded. -/
def isLoadable (world : World plainParse) (id : Name) : Bool :=
  match world.files? id with
  | some files =>
    (files.lookup indexPath).isSome &&
      ((files.lookup manifestPath).bind plainParse).any fun manifest => manifest.name = id
  | none => false

theorem loadable_of_isLoadable {world : World plainParse}
    (loadable : isLoadable world id = true) : Loadable world id := by
  unfold isLoadable at loadable
  split at loadable
  next files found =>
    obtain ⟨indexed, described⟩ := Bool.and_eq_true_iff.mp loadable
    obtain ⟨manifest, parsed, named⟩ := (Option.any_eq_true _ _).mp described
    obtain ⟨text, there, parses⟩ := Option.bind_eq_some_iff.mp parsed
    exact ⟨files, manifest, lookup_of_files found, ⟨⟨text, there, parses⟩, indexed⟩,
      of_decide_eq_true named⟩
  next => cases loadable

/-- Whether an upgrade was refused and the directory of its extension is gone. -/
def lostByFailure (system : System plainParse) : Bool :=
  match system.history with
  | ⟨some (.upgrade _), .refused (.rollback _), before, after⟩ :: _ =>
    (before.sources.lookup [97]).isSome && (after.sources.lookup [97]).isNone
  | _ => false

/-- Whether the process has died in an upgrade and the next loading has not found its
extension. -/
def lostByDeath (system : System plainParse) : Bool :=
  match system.history with
  | ⟨some .loadAll, .returned, _, after⟩ :: ⟨some (.upgrade _), .died, before, _⟩ :: _ =>
    isLoadable before [97] && !after.disturbed && (after.entries [97]).isNone
  | _ => false

/-- Whether an extension without a directory is in the registry. -/
def registeredWithout (system : System plainParse) : Bool :=
  system.running.isNone && (system.world.entries [97]).isSome &&
    (system.world.sources.lookup [97]).isNone

end LosslessMusic.Extensions.Sources
