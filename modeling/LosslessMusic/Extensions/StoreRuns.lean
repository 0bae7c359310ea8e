import LosslessMusic.Extensions.StoreTurns
import LosslessMusic.Transition.Machine

/-!
# Runs of the stores of a directory

Stores are opened, closed and dropped, and their calls take turns: a call has its kind of
file for itself from its beginning to its end, while calls of other kinds go on between
any two of its file operations. A crash leaves the files and nothing else.
-/

namespace LosslessMusic.Extensions.Store

open Interruption Transition

/-! ## The system -/

/-- A call that has its kind of file for itself, and the file it found. -/
structure Running (ν : Type) where
  owner : Nat
  store : ExtensionStore
  operation : Operation ν
  program : Action ν (Reply ν)
  began : Option Stored

/-- What is remembered of a run. -/
inductive Entry (ν : Type)
  /-- A call has returned; the file it found and the file it left. -/
  | finished (kind : StoreKind) (store : ExtensionStore) (operation : Operation ν)
      (result : Except StorageError (Reply ν)) (began ended : Option Stored)
  /-- The process has died during these calls. -/
  | crashed (interrupted : StoreKind → Option (Operation ν))

/-- What happens to the stores of a directory. -/
inductive Event (ν : Type)
  | opened (id : Nat) (extensionId : Bytes) (masterKey : Option Bytes)
  | closed (id : Nat)
  | dropped (id : Nat)
  | began (id : Nat) (kind : StoreKind) (operation : Operation ν)
  | stepped (kind : StoreKind) (choice : Choice)
  | finished (kind : StoreKind)
  | crashed

/-- The directory, the open stores, the calls that are going on, and the history with the
latest first. -/
structure System (ν : Type) where
  world : World ν
  instances : List (Nat × ExtensionStore)
  running : StoreKind → Option (Running ν)
  history : List (Entry ν)

namespace System

variable {ν : Type} (libraries : Libraries ν)

/-- A process that has just started. -/
def beginning (disk : FileName → Option Stored) : System ν where
  world := ⟨disk, fun _ => .empty, fun _ => none⟩
  instances := []
  running _ := none
  history := []

variable (system : System ν)

/-- Whether no call of a store is going on. -/
def idle (id : Nat) : Bool :=
  [StoreKind.storage, .credentials, .settings].all fun kind =>
    (system.running kind).all fun call => call.owner ≠ id

/-- A call returns. -/
def finish (kind : StoreKind) (call : Running ν) (result : Except StorageError (Reply ν)) :
    System ν :=
  { system with
    world := system.world.hold kind none
    running := Function.update system.running kind none
    history := .finished kind call.store call.operation result call.began
      (system.world.disk kind.filename) :: system.history }

/-- One event, if it can happen. -/
def step : Event ν → Option (System ν)
  | .opened id extensionId masterKey =>
    if validExtensionId extensionId ∧ system.instances.lookup id = none then
      some { system with instances := (id, ⟨extensionId, masterKey, false⟩) :: system.instances }
    else none
  | .closed id =>
    if system.idle id then
      some { system with instances := system.instances.map fun entry =>
        (entry.1, { entry.2 with closed := entry.2.closed || decide (entry.1 = id) }) }
    else none
  | .dropped id =>
    if system.idle id then
      let instances := system.instances.filter fun entry => entry.1 ≠ id
      -- The last store takes the shared files with it.
      let cache := if instances.isEmpty then fun _ => .empty else system.world.cache
      some { system with
        world := { system.world with cache := cache }
        instances := instances }
    else none
  | .began id kind operation =>
    match system.instances.lookup id with
    | none => none
    | some store =>
      let found : Option Stored := system.world.disk kind.filename
      if store.closed then
        some { system with
          history := .finished kind store operation (.error .closed) found found ::
            system.history }
      else
        match system.running kind with
        | some _ => none
        | none =>
          let call := ⟨id, store, operation, operation.program libraries store kind, found⟩
          some { system with running := Function.update system.running kind (some call) }
  | .stepped kind choice =>
    match system.running kind with
    | none => none
    | some call =>
      match call.program with
      | .done _ | .fails _ => none
      | .request asked next =>
        let outcome := effect kind system.world asked choice
        some { system with
          world := outcome.1
          running := Function.update system.running kind
            (some { call with program := next outcome.2 }) }
  | .finished kind =>
    match system.running kind with
    | none => none
    | some call =>
      match call.program with
      | .done reply => some (system.finish kind call (.ok reply))
      | .fails error => some (system.finish kind call (.error error))
      | .request _ _ => none
  | .crashed =>
    some {
      world := ⟨system.world.disk, fun _ => .empty, fun _ => none⟩
      instances := []
      running := fun _ => none
      history := .crashed (fun kind => (system.running kind).map Running.operation) ::
        system.history }

/-- The stores of a directory, from a start of the process. -/
def machine : Machine (System ν) (Event ν) where
  Start system := ∃ disk, system = beginning disk
  step := System.step libraries

end System

/-! ## The promises -/

section Promises

variable {ν : Type} (libraries : Libraries ν)

/-- What an entry of the history may do to the maps. -/
def Entry.Legal : Entry ν → (StoreKind → Option (Map ν)) → (StoreKind → Option (Map ν)) → Prop
  | .finished _ _ _ (.error _) _ _, maps, after => after = maps
  | .finished kind _ operation (.ok reply) _ _, maps, after =>
    ∃ map changed, maps kind = some map ∧ operation.Replies map reply changed ∧
      after = Function.update maps kind (some changed)
  | .crashed interrupted, maps, after => ∀ kind, after kind = maps kind ∨
      ∃ operation map reply changed, interrupted kind = some operation ∧
        maps kind = some map ∧ operation.Replies map reply changed ∧ after kind = some changed

/-- The history is one of three maps that begin as given. -/
inductive Accepts (maps : StoreKind → Option (Map ν)) :
    List (Entry ν) → (StoreKind → Option (Map ν)) → Prop
  | start : Accepts maps [] maps
  | entry {history : List (Entry ν)} {before after : StoreKind → Option (Map ν)}
      (entry : Entry ν) :
      Accepts maps history before → entry.Legal before after →
      Accepts maps (entry :: history) after

/-- A call that failed has left the file, unless that was of an older version. -/
def Entry.Kept : Entry ν → Prop
  | .finished kind store _ (.error _) began ended => Spared libraries store kind began ended
  | .finished _ _ _ (.ok _) _ _ | .crashed _ => True

/-- The stores have behaved as three maps, and the files stand for these maps, or for
what a call that is going on is to make of them. -/
def System.Promised (disk : FileName → Option Stored) (system : System ν) : Prop :=
  ∃ maps, Accepts (meaning libraries disk) system.history maps ∧
    (∀ kind, match system.running kind with
      | none => meaning libraries system.world.disk kind = maps kind
      | some call => call.operation.Within libraries kind (maps kind) system.world.disk) ∧
    ∀ entry ∈ system.history, entry.Kept libraries

/-- The steps that keep the promises: what a call is to write reads back from its text,
and the metadata of a file is read once a change is on the disk. -/
def System.Careful (system : System ν) : Event ν → Prop
  | .began _ kind operation =>
    operation.ReadsBack libraries kind (meaning libraries system.world.disk kind)
  | .stepped kind choice => ∀ call asked next, system.running kind = some call →
      call.program = .request asked next → asked.careful choice
  | _ => True

end Promises

/-! ## The invariant -/

section Invariant

variable {ν : Type} {libraries : Libraries ν} {system next : System ν}
    {maps : StoreKind → Option (Map ν)}

/-- Where no call is going on, the files stand for the maps; and every call that is going
on will do as it is to do. -/
structure Consistent (libraries : Libraries ν) (maps : StoreKind → Option (Map ν))
    (world : World ν) (running : StoreKind → Option (Running ν)) : Prop where
  idle : ∀ kind, running kind = none → About kind (Held libraries kind (maps kind)) world
  busy : ∀ kind call, running kind = some call →
    MeetsCall libraries call.store kind call.operation call.began (maps kind) call.program world

/-- Calls belong to open stores. -/
def Owned (instances : List (Nat × ExtensionStore)) (running : StoreKind → Option (Running ν)) :
    Prop :=
  ∀ kind call, running kind = some call → ∃ store, (call.owner, store) ∈ instances

variable {kind : StoreKind}

theorem Owned.update {instances : List (Nat × ExtensionStore)}
    {running : StoreKind → Option (Running ν)} {call : Option (Running ν)}
    (owned : Owned instances running)
    (new : ∀ going, call = some going → ∃ store, (going.owner, store) ∈ instances) :
    Owned instances (Function.update running kind call) := by
  intro mine going some
  by_cases same : mine = kind
  · subst same
    rw [Function.update_self] at some
    exact new going some
  · rw [Function.update_of_ne same] at some
    exact owned mine going some

/-- What holds after every careful run. -/
structure Invariant (libraries : Libraries ν) (disk : FileName → Option Stored)
    (system : System ν) : Prop where
  owned : Owned system.instances system.running
  kept : ∀ entry ∈ system.history, entry.Kept libraries
  consistent : ∃ maps, Accepts (meaning libraries disk) system.history maps ∧
    Consistent libraries maps system.world system.running

theorem Consistent.promised {call : Running ν}
    (consistent : Consistent libraries maps system.world system.running)
    (going : system.running kind = some call) :
    call.operation.Within libraries kind (maps kind) system.world.disk := by
  apply (consistent.busy kind call going).anytime
  · rintro reply state ⟨map, after, found, replies, held⟩
    exact .inr ⟨map, reply, after, found, replies, held.map⟩
  · intro error state settled
    exact .inl settled.map

/-- Maps that are consistent with the files keep the promises. -/
theorem Invariant.promised {disk : FileName → Option Stored}
    (invariant : Invariant libraries disk system) : system.Promised libraries disk := by
  obtain ⟨maps, accepts, consistent⟩ := invariant.consistent
  refine ⟨maps, accepts, ?_, invariant.kept⟩
  intro kind
  cases going : system.running kind with
  | none => exact (consistent.idle kind going).map
  | some call => exact consistent.promised going

/-- One kind takes a step of its own, and the others do not notice. -/
theorem Consistent.update {world : World ν} (kind : StoreKind) (call : Option (Running ν))
    (after : Option (Map ν)) (consistent : Consistent libraries maps system.world system.running)
    (others : ∀ mine, mine ≠ kind → Agree mine system.world world)
    (idle : call = none → About kind (Held libraries kind after) world)
    (busy : ∀ going, call = some going →
      MeetsCall libraries going.store kind going.operation going.began after going.program world) :
    Consistent libraries (Function.update maps kind after) world
      (Function.update system.running kind call) := by
  constructor
  · intro mine none
    by_cases same : mine = kind
    · subst same
      rw [Function.update_self] at none ⊢
      exact idle none
    · rw [Function.update_of_ne same] at none ⊢
      exact (others mine same).held (consistent.idle mine none)
  · intro mine going some
    by_cases same : mine = kind
    · subst same
      rw [Function.update_self] at some ⊢
      exact busy going some
    · rw [Function.update_of_ne same] at some ⊢
      exact (consistent.busy mine going some).congr (others mine same)

/-- Without caches and calls, what counts is what the files stand for. -/
theorem consistent_meaning (world : World ν) (fresh : ∀ kind, world.cache kind = .empty) :
    Consistent libraries (meaning libraries world.disk) world fun _ => none := by
  constructor
  · intro kind _
    refine ⟨rfl, ?_⟩
    intro snapshot cached
    rw [fresh kind] at cached
    cases cached
  · intro kind call going
    cases going

variable {disk : FileName → Option Stored}

variable {id : Nat}

theorem Invariant.began {operation : Operation ν} (invariant : Invariant libraries disk system)
    (careful : operation.ReadsBack libraries kind (meaning libraries system.world.disk kind))
    (stepped : system.step libraries (.began id kind operation) = some next) :
    Invariant libraries disk next := by
  obtain ⟨maps, accepts, consistent⟩ := invariant.consistent
  simp only [System.step] at stepped
  cases opened : system.instances.lookup id with
  | none =>
    rw [opened] at stepped
    cases stepped
  | some store =>
    rw [opened] at stepped
    simp only at stepped
    split at stepped
    next =>
      cases stepped
      refine ⟨invariant.owned, ?_, maps, .entry _ accepts rfl, consistent⟩
      intro entry member
      cases member with
      | head => exact .inl rfl
      | tail _ older => exact invariant.kept entry older
    next =>
      cases going : system.running kind with
      | some call =>
        rw [going] at stepped
        cases stepped
      | none =>
        rw [going] at stepped
        cases stepped
        have held := consistent.idle kind going
        have meets : MeetsCall libraries store kind operation
            (system.world.disk kind.filename) (maps kind)
            (operation.program libraries store kind) system.world := by
          apply meets_program
          · rw [← held.map]
            exact careful
          · exact ⟨held.map, held.snapshot, rfl⟩
        let call : Running ν := ⟨id, store, operation,
          operation.program libraries store kind, system.world.disk kind.filename⟩
        have owner : ∃ store, (call.owner, store) ∈ system.instances := by
          obtain ⟨first, last, split, _⟩ := List.lookup_eq_some_iff.mp opened
          exact ⟨store, split ▸ List.mem_append_right _ List.mem_cons_self⟩
        have updated := consistent.update kind (some call) (maps kind)
          (fun _ _ => Agree.refl _) nofun
          (fun going same => by cases same; exact meets)
        rw [Function.update_eq_self] at updated
        exact ⟨invariant.owned.update fun going same => by cases same; exact owner,
          invariant.kept, maps, accepts, updated⟩

theorem Invariant.stepped {choice : Choice} (invariant : Invariant libraries disk system)
    (careful : system.Careful libraries (.stepped kind choice))
    (stepped : system.step libraries (.stepped kind choice) = some next) :
    Invariant libraries disk next := by
  obtain ⟨maps, accepts, consistent⟩ := invariant.consistent
  simp only [System.step] at stepped
  cases going : system.running kind with
  | none =>
    rw [going] at stepped
    cases stepped
  | some call =>
    rw [going] at stepped
    simp only at stepped
    cases program : call.program with
    | done reply =>
      rw [program] at stepped
      cases stepped
    | fails error =>
      rw [program] at stepped
      cases stepped
    | request asked answer =>
      rw [program] at stepped
      cases stepped
      have meets := consistent.busy kind call going
      rw [program] at meets
      have after := meets.2.2 choice (careful call asked answer going program)
      have updated := consistent.update kind
        (some { call with program := answer (effect kind system.world asked choice).2 })
        (maps kind) (fun mine different => agree_effect different meets.1)
        nofun (fun going same => by cases same; exact after)
      rw [Function.update_eq_self] at updated
      have owner := invariant.owned kind call going
      exact ⟨invariant.owned.update fun going same => by cases same; exact owner,
        invariant.kept, maps, accepts, updated⟩

theorem Invariant.returned {call : Running ν} {result : Except StorageError (Reply ν)}
    (invariant : Invariant libraries disk system) (going : system.running kind = some call)
    (ended : call.program = .ofExcept result) :
    Invariant libraries disk (system.finish kind call result) := by
  obtain ⟨maps, accepts, consistent⟩ := invariant.consistent
  have meets := consistent.busy kind call going
  have owned : Owned system.instances (Function.update system.running kind none) :=
    invariant.owned.update fun going same => by cases same
  have others : ∀ mine, mine ≠ kind → Agree mine system.world (system.world.hold kind none) :=
    fun mine different => agree_hold different none
  rw [ended] at meets
  cases result with
  | ok reply =>
    obtain ⟨map, after, found, replies, held⟩ := meets
    refine ⟨owned, ?_, Function.update maps kind (some after),
      .entry _ accepts ⟨map, after, found, replies, rfl⟩, ?_⟩
    · intro entry member
      cases member with
      | head => trivial
      | tail _ older => exact invariant.kept entry older
    · exact consistent.update kind none (some after) others (fun _ => held)
        (fun going => nofun)
  | error error =>
    have settled : About kind (Settled libraries call.store kind call.began (maps kind))
      system.world := meets
    refine ⟨owned, ?_, maps, .entry _ accepts rfl, ?_⟩
    · intro entry member
      cases member with
      | head => exact settled.spared
      | tail _ older => exact invariant.kept entry older
    · have updated := consistent.update kind none (maps kind) others
        (fun _ => ⟨settled.map, settled.snapshot⟩) (fun going => nofun)
      rw [Function.update_eq_self] at updated
      exact updated

theorem Invariant.finished (invariant : Invariant libraries disk system)
    (stepped : system.step libraries (.finished kind) = some next) :
    Invariant libraries disk next := by
  simp only [System.step] at stepped
  cases going : system.running kind with
  | none =>
    rw [going] at stepped
    cases stepped
  | some call =>
    rw [going] at stepped
    simp only at stepped
    cases program : call.program with
    | done _ | fails _ =>
      rw [program] at stepped
      cases stepped
      exact invariant.returned going program
    | request asked answer =>
      rw [program] at stepped
      cases stepped

theorem Invariant.crashed (invariant : Invariant libraries disk system)
    (stepped : system.step libraries .crashed = some next) : Invariant libraries disk next := by
  obtain ⟨maps, accepts, consistent⟩ := invariant.consistent
  cases stepped
  let world : World ν := ⟨system.world.disk, fun _ => .empty, fun _ => none⟩
  have fresh : Consistent libraries (meaning libraries world.disk) world fun _ => none :=
    consistent_meaning world fun _ => rfl
  refine ⟨fun kind call => nofun, ?_, _, .entry _ accepts ?_, fresh⟩
  · intro entry member
    cases member with
    | head => trivial
    | tail _ older => exact invariant.kept entry older
  · intro kind
    cases going : system.running kind with
    | none => exact .inl (consistent.idle kind going).map
    | some call =>
      rcases consistent.promised going with same | ⟨map, reply, after, found, replies, now⟩
      · exact .inl same
      · exact .inr ⟨call.operation, map, reply, after,
          congrArg (Option.map Running.operation) going, found, replies, now⟩

theorem System.idle_iff :
    system.idle id = true ↔ ∀ kind call, system.running kind = some call → call.owner ≠ id := by
  simp only [System.idle, List.all_cons, List.all_nil, Bool.and_true, Bool.and_eq_true,
    Option.all_eq_true, decide_eq_true_eq]
  constructor
  · rintro ⟨storage, credentials, settings⟩ kind call going
    cases kind with
    | storage => exact storage call going
    | credentials => exact credentials call going
    | settings => exact settings call going
  · intro others
    exact ⟨others .storage, others .credentials, others .settings⟩

/-- A store goes, and the last one takes the caches with it. -/
theorem Invariant.dropped (invariant : Invariant libraries disk system)
    (stepped : system.step libraries (.dropped id) = some next) :
    Invariant libraries disk next := by
  obtain ⟨maps, accepts, consistent⟩ := invariant.consistent
  simp only [System.step] at stepped
  split at stepped
  next unused =>
    cases stepped
    have owned : Owned (system.instances.filter fun entry => entry.1 ≠ id) system.running := by
      intro kind call going
      obtain ⟨store, opened⟩ := invariant.owned kind call going
      have other : call.owner ≠ id := System.idle_iff.mp unused kind call going
      exact ⟨store, List.mem_filter.mpr ⟨opened, decide_eq_true other⟩⟩
    refine ⟨owned, invariant.kept, maps, accepts, ?_⟩
    cases left : (system.instances.filter fun entry => entry.1 ≠ id).isEmpty with
    | false => exact consistent
    | true =>
      rw [List.isEmpty_iff] at left
      rw [left] at owned
      have going : ∀ kind, system.running kind = none := by
        intro kind
        cases call : system.running kind with
        | none => rfl
        | some running =>
          obtain ⟨store, member⟩ := owned kind running call
          cases member
      constructor
      · intro kind none
        refine ⟨(consistent.idle kind none).map, ?_⟩
        intro snapshot cached
        cases cached
      · intro kind call some
        rw [going kind] at some
        cases some
  next => cases stepped

theorem Invariant.instances {event : Event ν} (invariant : Invariant libraries disk system)
    (lifecycle : (∃ extensionId masterKey, event = .opened id extensionId masterKey) ∨
      event = .closed id)
    (stepped : system.step libraries event = some next) : Invariant libraries disk next := by
  rcases lifecycle with ⟨extensionId, masterKey, rfl⟩ | rfl
  · simp only [System.step] at stepped
    split at stepped
    next =>
      cases stepped
      refine ⟨?_, invariant.kept, invariant.consistent⟩
      intro kind call going
      obtain ⟨store, opened⟩ := invariant.owned kind call going
      exact ⟨store, List.mem_cons_of_mem _ opened⟩
    next => cases stepped
  · simp only [System.step] at stepped
    split at stepped
    next =>
      cases stepped
      refine ⟨?_, invariant.kept, invariant.consistent⟩
      intro kind call going
      obtain ⟨store, opened⟩ := invariant.owned kind call going
      exact ⟨_, List.mem_map.mpr ⟨_, opened, rfl⟩⟩
    next => cases stepped

theorem Invariant.step {event : Event ν} (invariant : Invariant libraries disk system)
    (careful : system.Careful libraries event) (stepped : system.step libraries event = some next) :
    Invariant libraries disk next := by
  cases event with
  | opened id extensionId masterKey =>
    exact invariant.instances (.inl ⟨extensionId, masterKey, rfl⟩) stepped
  | closed id => exact invariant.instances (.inr rfl) stepped
  | dropped id => exact invariant.dropped stepped
  | began id kind operation => exact invariant.began careful stepped
  | stepped kind choice => exact invariant.stepped careful stepped
  | finished kind => exact invariant.finished stepped
  | crashed => exact invariant.crashed stepped

theorem invariant_beginning (disk : FileName → Option Stored) :
    Invariant libraries disk (System.beginning disk) where
  owned := fun _ _ going => by cases going
  kept := fun _ member => by cases member
  consistent := ⟨meaning libraries disk, .start,
    consistent_meaning (System.beginning disk).world fun _ => rfl⟩

end Invariant

/-- In every careful run the stores are three maps: a call that returns has read or
changed its map, a call that fails has left it, and a crash leaves the map before or after
each call that it interrupts. -/
theorem store_promised {ν : Type} (libraries : Libraries ν) {disk : FileName → Option Stored}
    {system : System ν}
    (path : (System.machine libraries).Path (System.Careful libraries)
      (System.beginning disk) system) :
    system.Promised libraries disk := by
  have invariant : Invariant libraries disk system := by
    apply path.preserves (invariant_beginning disk)
    intro state event next held careful stepped
    exact held.step careful stepped
  exact invariant.promised

/-! ## Runs -/

/-- A text under a key, as plain as it gets. -/
def underKey : Bytes → Bytes → Bytes
  | [], text => 0 :: text
  | byte :: key, text => 1 :: byte :: underKey key text

/-- The text, for whoever has the key. -/
def withKey : Bytes → Bytes → Option Bytes
  | [], 0 :: text => some text
  | byte :: key, 1 :: other :: text => if byte = other then withKey key text else none
  | _, _ => none

theorem withKey_underKey (key text : Bytes) : withKey key (underKey key text) = some text := by
  induction key with
  | nil => rfl
  | cons byte key ih => rw [underKey, withKey, if_pos rfl, ih]

theorem withKey_unique {key other data text plain : Bytes}
    (opens : withKey key data = some text) (also : withKey other data = some plain) :
    key = other := by
  fun_induction withKey key data generalizing other with
  | case1 text =>
    cases other with
    | nil => rfl
    | cons byte key => cases also
  | case2 byte key text ih =>
    cases other with
    | nil => cases also
    | cons another rest =>
      rw [withKey] at also
      split at also
      next same => rw [same, ih opens also]
      next => cases also
  | case3 => cases opens
  | case4 => cases opens

/-- The map of one flag. -/
def flag : Map Bool := Finmap.insert "a" true ∅

/-- The JSON text of the flag. -/
def flagText : Bytes := [123, 34, 97, 34, 58, 116, 114, 117, 101, 125]

/-- Libraries that know the empty object and the flag. -/
def plainLibraries : Libraries Bool where
  hmac key message := key ++ message
  sha256 message := message
  aesEncrypt key _ plaintext := underKey key plaintext
  aesDecrypt key _ ciphertext := withKey key ciphertext
  toVec map := if map = ∅ then some [123, 125] else if map = flag then some flagText else none
  fromSlice data :=
    if data = [123, 125] then some (.object ∅)
    else if data = flagText then some (.object flag)
    else none
  aesDecrypt_aesEncrypt key _ plaintext := withKey_underKey key plaintext
  aesDecrypt_key _ _ _ _ _ _ opens also := withKey_unique opens also

/-- A flag is set and read again; the last answer is to the look at the new file. -/
def flagEvents (settled : Choice) : List (Event Bool) :=
  [.opened 0 [97] none, .began 0 .storage (.set "a" true)] ++
    ([.succeeded, .succeeded, .succeeded, .succeeded, .succeeded, .succeeded,
      .stamped none 1, .stamped none 1, .succeeded, .succeeded, .succeeded,
      settled] : List Choice).map (Event.stepped .storage)

theorem plain_readsBack {after : Map Bool} {data : Bytes}
    (text : plainLibraries.toVec after = some data) :
    parseObject plainLibraries data = .ok after := by
  simp only [plainLibraries] at text
  split at text
  next empty =>
    cases text
    rw [empty]
    rfl
  next =>
    split at text
    next same =>
      cases text
      rw [same]
      rfl
    next => cases text

/-- The careful steps of a process with these libraries, as a test. -/
def isCareful (system : System Bool) : Event Bool → Bool
  | .stepped kind choice =>
    match system.running kind with
    | some ⟨_, _, _, .request (.identity _ true) _, _⟩ => choice = .succeeded
    | _ => true
  | _ => true

theorem careful_of_isCareful (system : System Bool) (event : Event Bool)
    (careful : isCareful system event = true) : system.Careful plainLibraries event := by
  cases event with
  | began id kind operation =>
    intro map after data _ _ text
    exact plain_readsBack text
  | stepped kind choice =>
    intro call asked next going program
    obtain ⟨owner, store, operation, left, began⟩ := call
    simp only at program
    subst program
    simp only [isCareful, going] at careful
    cases asked with
    | identity name settled =>
      cases settled with
      | true =>
        have settled : choice = .succeeded := of_decide_eq_true careful
        exact settled
      | false => trivial
    | _ => trivial
  | opened _ _ _ | closed _ | dropped _ | finished _ | crashed => trivial

/-- The flag is set, and what is read is what was set. -/
theorem store_promised_flag :
    ∃ system, (System.machine plainLibraries).run (.beginning fun _ => none)
        (flagEvents .succeeded ++ [.stepped .storage .succeeded, .finished .storage, .crashed]) =
          some system ∧
      system.Promised plainLibraries fun _ => none := by
  have ran : ((System.machine plainLibraries).run (.beginning fun _ => none)
      (flagEvents .succeeded ++
        [.stepped .storage .succeeded, .finished .storage, .crashed])).isSome = true := by
    decide +kernel
  have careful : (System.machine plainLibraries).runMeets isCareful (.beginning fun _ => none)
      (flagEvents .succeeded ++
        [.stepped .storage .succeeded, .finished .storage, .crashed]) = true := by
    decide +kernel
  obtain ⟨system, ended⟩ := Option.isSome_iff_exists.mp ran
  refine ⟨system, ended, store_promised plainLibraries ?_⟩
  exact (Machine.path_of_run ended careful).mono careful_of_isCareful

/-- Whether a flag was refused and is there. -/
def refusedAndRead (system : System Bool) : Bool :=
  match system.history with
  | [.finished .storage _ (.get "a") (.ok (.value (some true))) _ _,
      .finished .storage _ _ (.error .io) _ _] => true
  | _ => false

/-- The file is replaced, its metadata cannot be read, and the call fails. -/
theorem store_unpromised :
    ¬ ∀ (libraries : Libraries Bool) (disk : FileName → Option Stored) (system : System Bool),
      (System.machine libraries).Path Machine.anyStep (.beginning disk) system →
      system.Promised libraries disk := by
  intro promised
  have ran : ((System.machine plainLibraries).run (.beginning fun _ => none)
      (flagEvents .failed ++ [.finished .storage, .began 0 .storage (.get "a")] ++
        List.replicate 6 (.stepped .storage .succeeded) ++ [.finished .storage])).any
      refusedAndRead = true := by
    decide +kernel
  obtain ⟨system, ended, read⟩ := (Option.any_eq_true refusedAndRead _).mp ran
  obtain ⟨maps, accepts, _⟩ := promised plainLibraries _ system (Machine.anyPath_of_run ended)
  unfold refusedAndRead at read
  split at read
  next history =>
    rw [history] at accepts
    cases accepts with
    | entry _ refused legal =>
      cases refused with
      | entry _ beginning same =>
        cases beginning
        obtain ⟨map, changed, found, ⟨answer, _⟩, _⟩ := legal
        have unchanged := congrFun same .storage
        rw [meaning_absent rfl (by decide)] at unchanged
        rw [unchanged] at found
        cases found
        rw [Finmap.lookup_empty] at answer
        cases answer
  next => cases read

end LosslessMusic.Extensions.Store
