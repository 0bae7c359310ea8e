import LosslessMusic.Extensions.CallbackJournal

/-!
# Runs of the callback registry

The calls of extensions and of the browser in any order, with a clock that is set, saves
that fail, and restarts. What an extension has registered, and neither cleared nor replaced
nor lost to a consuming call, is remembered beside the registry, so that a callback can be
held against it.
-/

namespace LosslessMusic.Extensions

open Std (TreeMap)

/-! ## The system -/

/-- What happens to the registry. -/
inductive Step
  | register (request : PendingAuthRequest) (callbackState : Except String (List Char))
      (saves : Bool)
  | edit (id verifier : List Char)
  | clear (id : List Char) (saves : Bool)
  | clearPending (id : List Char) (saves : Bool)
  | pending (id : List Char)
  | resolve (text : List Char) (consume saves : Bool)
  | shutdown
  | clock (time : Int)
  | restart (loads : Bool)

/-- The registry, the clock, and what is remembered: the nonce and the time that each
extension has registered last, the nonces that a consuming call has resolved, and the
owners that were known last. -/
structure System where
  registry : AuthRegistry
  now : Int
  held : List Char → Option (List Char × Int)
  used : List (List Char)
  owned : List Char → Option (List Char)

namespace System

/-- The journal on the disk. -/
def journal (system : System) : List SavedPending :=
  system.registry.persistence.getD []

/-- The journal that a restart reads. -/
def restarted (system : System) (loads : Bool) : List SavedPending :=
  if loads then loaded system.now system.journal else []

/-- A fresh installation. -/
def initial (now : Int) : System where
  registry := .persistent [] now true
  now := now
  held _ := none
  used := []
  owned _ := none

/-- The registry after a step. -/
def registryAfter (system : System) : Step → AuthRegistry
  | .register request callbackState saves =>
    (system.registry.registerPending request callbackState system.now saves).1
  | .edit id verifier => (system.registry.edit id verifier).1
  | .clear id saves => system.registry.clear id system.now saves
  | .clearPending id saves => system.registry.clearPending id system.now saves
  | .pending id => (system.registry.pending id system.now).1
  | .resolve text consume saves =>
    (system.registry.resolveCallback text consume system.now saves).1
  | .shutdown => system.registry.shutdown
  | .clock _ => system.registry
  | .restart loads => .persistent system.journal system.now loads

/-- What is held after a step. -/
def heldAfter (system : System) : Step → List Char → Option (List Char × Int)
  | .register request callbackState saves =>
    match registered request callbackState system.now,
        (system.registry.registerPending request callbackState system.now saves).2 with
    | some entered, .ok () =>
      Function.update system.held entered.extensionId (some (entered.state, entered.createdAt))
    | _, _ => system.held
  | .clear id _ | .clearPending id _ => Function.update system.held id none
  | .resolve text true saves =>
    match (system.registry.resolveCallback text true system.now saves).2 with
    | .ok _ => fun id => (system.held id).filter fun entry => entry.1 ≠ Text.trimmed text
    | .error _ => system.held
  | _ => system.held

/-- The nonces that are used up after a step. -/
def usedAfter (system : System) : Step → List (List Char)
  | .resolve text true saves =>
    match (system.registry.resolveCallback text true system.now saves).2 with
    | .ok _ => Text.trimmed text :: system.used
    | .error _ => system.used
  | _ => system.used

/-- One step. -/
def step (system : System) (step : Step) : System :=
  let registry := system.registryAfter step
  { registry := registry
    now := match step with
      | .clock time => time
      | _ => system.now
    held := system.heldAfter step
    used := system.usedAfter step
    owned := if registry.state.closed then system.owned else (registry.state.owners[·]?) }

/-- A run. -/
def run (system : System) (steps : List Step) : System :=
  steps.foldl System.step system

/-- What is promised of a step. A callback resolves to an extension that holds its nonce,
in time, and to none after it was consumed. A restart leaves a nonce with its owner, as
long as that one is still in the journal. -/
def Promised (system : System) : Step → Prop
  | .resolve text consume saves => ∀ id,
      (system.registry.resolveCallback text consume system.now saves).2 = .ok id →
        Text.trimmed text ∉ system.used ∧
          ∃ created, system.held id = some (Text.trimmed text, created) ∧
            inTtl system.now created = true
  | .restart loads => ∀ entry ∈ system.restarted loads,
      system.owned entry.nonce = some entry.request.extensionId →
        (system.registryAfter (.restart loads)).state.owners[entry.nonce]? =
          some entry.request.extensionId
  | _ => True

/-- The steps that keep the promises. A nonce is not registered again once it is used up,
nor at the time zero; what is cleared is not left in the journal; the clock is not set back
to where something without an owner has not expired; and the owner of a nonce is the first
of those that a restart finds. -/
def Careful (system : System) : Step → Prop
  | .register request callbackState _ => ∀ entered,
      registered request callbackState system.now = some entered →
        entered.state ∉ system.used ∧ entered.createdAt ≠ 0
  | .clear id saves => (saves = true ∧ system.registry.state.closed = false) ∨
      ∀ entry ∈ system.journal, entry.request.extensionId ≠ id
  | .clearPending id saves => saves = true ∨
      ∀ entry ∈ system.journal, entry.request.extensionId ≠ id
  | .clock time => ∀ (id : List Char) (request : PendingAuthRequest),
      system.registry.state.pending[id]? = some request →
        (system.registry.state.owners[request.state]?).isNone = true →
          time - request.createdAt < pendingTtl → system.now - request.createdAt < pendingTtl
  | .restart loads => ∀ entry ∈ system.restarted loads,
      system.owned entry.nonce = some entry.request.extensionId →
        ((system.restarted loads).find? fun other => other.nonce = entry.nonce).map
          (·.request.extensionId) = some entry.request.extensionId
  | _ => True

/-- A run of such steps. -/
def CarefulRun (system : System) : List Step → Prop
  | [] => True
  | first :: rest => system.Careful first ∧ (system.step first).CarefulRun rest

end System

/-! ## The invariant -/

/-- What waits is held. -/
def Waiting (held : List Char → Option (List Char × Int)) (state : State) : Prop :=
  ∀ (id : List Char) (request : PendingAuthRequest), state.pending[id]? = some request →
    request.extensionId = id ∧ held id = some (request.state, request.createdAt)

/-- What is in the journal is held, once for each extension. -/
structure Journaled (held : List Char → Option (List Char × Int))
    (journal : List SavedPending) : Prop where
  kept : ∀ entry ∈ journal, held entry.request.extensionId = some (entry.nonce, entry.createdAt)
  distinct : (journal.map (·.request.extensionId)).Nodup

/-- The registry and its journal hold what is held, nothing that is used up, and a registry
that is closed holds nothing. -/
structure System.Inv (system : System) : Prop where
  attached : system.registry.persistence = some system.journal
  holds : OwnersHold system.registry.state system.now
  waiting : Waiting system.held system.registry.state
  journaled : Journaled system.held system.journal
  fresh : ∀ id nonce created, system.held id = some (nonce, created) →
    nonce ∉ system.used ∧ created ≠ 0
  shut : system.registry.state.closed = true →
    ∀ id : List Char, system.registry.state.pending[id]? = none

variable {id : List Char} {journal : List SavedPending}

section Invariant

variable {held : List Char → Option (List Char × Int)} {state : State} {now : Int}

theorem Waiting.journaled (waiting : Waiting held state) : Journaled held (state.saved now) where
  kept := by
    intro entry member
    obtain ⟨request, found, sameNonce, sameTime⟩ :=
      saved_pending (fun id request found => (waiting id request found).1) member
    rw [(waiting _ request found).2, sameNonce, sameTime]
  distinct := nodup_saved fun id request found => (waiting id request found).1

theorem Waiting.congr (waiting : Waiting held state) {other : State}
    (same : other.pending = state.pending) : Waiting held other := by
  unfold Waiting
  rw [same]
  exact waiting

theorem Waiting.removePending (waiting : Waiting held state) (id : List Char) (now : Int) :
    Waiting (Function.update held id none) (state.removePending id now) := by
  intro other request found
  rw [removePending_pending] at found
  split at found
  next => cases found
  next apart =>
    rw [Function.update_of_ne (Ne.symm apart)]
    exact waiting other request found

theorem Waiting.keep (waiting : Waiting held state) (id : List Char) (now : Int) :
    Waiting held (state.removePending id now) := by
  intro other request found
  rw [removePending_pending] at found
  split at found
  next => cases found
  next => exact waiting other request found

theorem Waiting.withdraw (waiting : Waiting held state) (nonce : List Char) :
    Waiting (fun id => (held id).filter fun entry => entry.1 ≠ nonce) (state.withdraw nonce) := by
  intro id request found
  unfold State.withdraw at found
  dsimp only at found
  rw [TreeMap.getElem?_filter', Option.filter_eq_some_iff] at found
  obtain ⟨found, apart⟩ := found
  obtain ⟨known, isHeld⟩ := waiting id request found
  refine ⟨known, ?_⟩
  dsimp only
  rw [isHeld, Option.filter_some, if_pos apart]

theorem Waiting.withdrawKeep (waiting : Waiting held state) (nonce : List Char) :
    Waiting held (state.withdraw nonce) := by
  intro id request found
  unfold State.withdraw at found
  dsimp only at found
  rw [TreeMap.getElem?_filter', Option.filter_eq_some_iff] at found
  exact waiting id request found.1

theorem Waiting.enter (waiting : Waiting held state) (request : PendingAuthRequest) (now : Int) :
    Waiting (Function.update held request.extensionId (some (request.state, request.createdAt)))
      (state.enter request now) := by
  intro id other found
  rw [enter_pending] at found
  split at found
  next same =>
    rw [Option.some_inj] at found
    rw [← found, ← same, Function.update_self]
    exact ⟨rfl, rfl⟩
  next apart =>
    rw [Function.update_of_ne (Ne.symm apart)]
    exact waiting id other found

/-- A journal without an extension does not care what that one holds. -/
theorem Journaled.update (journaled : Journaled held journal)
    (absent : ∀ entry ∈ journal, entry.request.extensionId ≠ id)
    (value : Option (List Char × Int)) : Journaled (Function.update held id value) journal := by
  refine ⟨?_, journaled.distinct⟩
  intro entry member
  rw [Function.update_of_ne (absent entry member)]
  exact journaled.kept entry member

end Invariant

/-! ## Runs -/

section Runs

variable {system : System}

theorem System.journal_eq (attached : system.registry.persistence = some journal) :
    system.journal = journal := by
  unfold System.journal
  rw [attached]
  rfl

variable {next : System}

/-- The invariant, for a registry, a clock and what is remembered. -/
theorem System.Inv.of_registry (attached : next.registry.persistence = some journal)
    (holds : OwnersHold next.registry.state next.now)
    (waiting : Waiting next.held next.registry.state) (journaled : Journaled next.held journal)
    (fresh : ∀ id nonce created, next.held id = some (nonce, created) →
      nonce ∉ next.used ∧ created ≠ 0)
    (shut : next.registry.state.closed = true →
      ∀ id : List Char, next.registry.state.pending[id]? = none) : next.Inv := by
  have sameJournal := System.journal_eq attached
  refine ⟨?_, holds, waiting, ?_, fresh, shut⟩
  · rw [sameJournal]
    exact attached
  · rw [sameJournal]
    exact journaled

/-- The invariant is about what is pending, owned and saved. -/
theorem System.Inv.congr (inv : system.Inv)
    (samePending : next.registry.state.pending = system.registry.state.pending)
    (sameOwners : next.registry.state.owners = system.registry.state.owners)
    (sameClosed : next.registry.state.closed = system.registry.state.closed)
    (samePersistence : next.registry.persistence = system.registry.persistence)
    (sameNow : next.now = system.now) (sameHeld : next.held = system.held)
    (sameUsed : next.used = system.used) : next.Inv := by
  refine System.Inv.of_registry (samePersistence.trans inv.attached) ⟨?_, ?_⟩ ?_ ?_ ?_ ?_
  · rw [samePending, sameOwners]
    exact inv.holds.waits
  · rw [samePending, sameOwners, sameNow]
    exact inv.holds.owned
  · rw [sameHeld]
    exact inv.waiting.congr samePending
  · rw [sameHeld]
    exact inv.journaled
  · rw [sameHeld, sameUsed]
    exact inv.fresh
  · rw [samePending, sameClosed]
    exact inv.shut

variable {saves : Bool}

theorem System.Inv.register (inv : system.Inv) {request : PendingAuthRequest}
    {callbackState : Except String (List Char)}
    (careful : system.Careful (.register request callbackState saves)) :
    (system.step (.register request callbackState saves)).Inv := by
  rcases registerPending_cases system.registry request callbackState system.now saves with
    ⟨⟨error, failed⟩, samePending, sameOwners, sameClosed, samePersistence⟩ |
    ⟨entered, isEntered, isOpen, accepted, succeeded, persisted⟩
  · have sameHeld : (system.step (.register request callbackState saves)).held = system.held := by
      unfold System.step System.heldAfter
      dsimp only
      rw [failed]
      cases registered request callbackState system.now with
      | none => rfl
      | some entered => rfl
    exact inv.congr samePending sameOwners sameClosed samePersistence rfl sameHeld rfl
  · have nextHeld : (system.step (.register request callbackState saves)).held =
        Function.update system.held entered.extensionId
          (some (entered.state, entered.createdAt)) := by
      unfold System.step System.heldAfter
      dsimp only
      rw [isEntered, succeeded]
    have nextState : (system.step (.register request callbackState saves)).registry.state =
        system.registry.state.enter entered system.now :=
      persist_state persisted
    have waiting := inv.waiting.enter entered system.now
    have nextJournal : (system.step (.register request callbackState saves)).registry.persistence =
        some ((system.registry.state.enter entered system.now).saved system.now) := by
      rw [persist_attached { system.registry with
        state := system.registry.state.enter entered system.now } system.now saves
        inv.attached] at persisted
      split at persisted
      · exact congrArg AuthRegistry.persistence (Except.ok.inj persisted).symm
      · cases persisted
    refine System.Inv.of_registry nextJournal ?_ ?_ ?_ ?_ ?_
    · rw [nextState]
      exact inv.holds.enter entered
    · rw [nextHeld, nextState]
      exact waiting
    · rw [nextHeld]
      exact waiting.journaled
    · rw [nextHeld]
      intro id nonce created isHeld
      by_cases same : id = entered.extensionId
      · rw [same, Function.update_self, Option.some_inj] at isHeld
        have unused := careful entered isEntered
        rw [Prod.mk.injEq] at isHeld
        rw [← isHeld.1, ← isHeld.2]
        exact unused
      · rw [Function.update_of_ne same] at isHeld
        exact inv.fresh id nonce created isHeld
    · rw [nextState, enter_closed, isOpen]
      intro closed
      cases closed

/-- What is held is forgotten for one extension, which is no longer pending. -/
theorem System.Inv.forget (inv : system.Inv) (saves : Bool) (sameNow : next.now = system.now)
    (sameUsed : next.used = system.used)
    (forgotten : next.held = Function.update system.held id none)
    (closedAs : next.registry.state.closed = system.registry.state.closed)
    (removed : next.registry.state.pending =
      (system.registry.state.removePending id system.now).pending)
    (owners : next.registry.state.owners =
      (system.registry.state.removePending id system.now).owners)
    (journal : next.registry.persistence =
      some (if saves then next.registry.state.saved system.now else system.journal))
    (careful : saves = true ∨ ∀ entry ∈ system.journal, entry.request.extensionId ≠ id) :
    next.Inv := by
  have waiting : Waiting next.held next.registry.state := by
    rw [forgotten]
    exact (inv.waiting.removePending id system.now).congr removed
  have holds := inv.holds.removePending id
  refine System.Inv.of_registry journal ?_ waiting ?_ ?_ ?_
  · rw [sameNow]
    constructor
    · rw [removed, owners]
      exact holds.waits
    · rw [removed, owners]
      exact holds.owned
  · rcases Bool.eq_false_or_eq_true saves with saved | failed
    · rw [if_pos saved]
      exact waiting.journaled
    · rw [if_neg (by rw [failed]; exact Bool.false_ne_true), forgotten]
      rcases careful with saved | absent
      · exact absurd (failed.symm.trans saved) Bool.false_ne_true
      · exact inv.journaled.update absent none
  · rw [forgotten, sameUsed]
    intro other nonce created isHeld
    by_cases same : other = id
    · rw [same, Function.update_self] at isHeld
      cases isHeld
    · rw [Function.update_of_ne same] at isHeld
      exact inv.fresh other nonce created isHeld
  · rw [closedAs, removed]
    intro closed other
    rw [removePending_pending, inv.shut closed other, ite_self]

theorem System.Inv.clear (inv : system.Inv) (careful : system.Careful (.clear id saves)) :
    (system.step (.clear id saves)).Inv := by
  by_cases isClosed : system.registry.state.closed = true
  · -- The call does nothing: a registry that is closed has nothing pending.
    have same : (system.step (.clear id saves)).registry = system.registry := by
      unfold System.step System.registryAfter AuthRegistry.clear
      exact if_pos isClosed
    have removed : system.registry.state.removePending id system.now = system.registry.state := by
      unfold State.removePending
      rw [inv.shut isClosed id]
    have absent : ∀ entry ∈ system.journal, entry.request.extensionId ≠ id := by
      rcases careful with ⟨_, isOpen⟩ | absent
      · exact absurd (isOpen.symm.trans isClosed) Bool.false_ne_true
      · exact absent
    refine inv.forget false rfl rfl rfl ?_ ?_ ?_ ?_ (.inr absent)
    · rw [same]
    · rw [same, removed]
    · rw [same, removed]
    · rw [same]
      exact inv.attached
  · have same : (system.step (.clear id saves)).registry =
        { system.registry with
          state := { system.registry.state.removePending id system.now with
            records := system.registry.state.records.erase id } }.persistAnyway
              system.now saves := by
      unfold System.step System.registryAfter AuthRegistry.clear
      dsimp only
      rw [if_neg isClosed, removePending_withRecords]
    obtain ⟨state, journal⟩ := persistAnyway_spec { system.registry with
      state := { system.registry.state.removePending id system.now with
        records := system.registry.state.records.erase id } } system.now saves inv.attached
    rw [← same] at state journal
    refine inv.forget saves rfl rfl rfl ?_ ?_ ?_ ?_ (careful.imp And.left fun absent => absent)
    · rw [state]
      exact removePending_closed _ _ _
    · rw [state]
    · rw [state]
    · rw [journal, state]

theorem System.Inv.clearPending (inv : system.Inv)
    (careful : system.Careful (.clearPending id saves)) :
    (system.step (.clearPending id saves)).Inv := by
  obtain ⟨state, journal⟩ := persistAnyway_spec { system.registry with
    state := system.registry.state.removePending id system.now } system.now saves inv.attached
  have same : (system.step (.clearPending id saves)).registry =
      { system.registry with
        state := system.registry.state.removePending id system.now }.persistAnyway
          system.now saves := rfl
  rw [← same] at state journal
  refine inv.forget saves rfl rfl rfl ?_ ?_ ?_ ?_ careful
  · rw [state]
    exact removePending_closed _ _ _
  · rw [state]
  · rw [state]
  · rw [journal, state]

theorem System.Inv.pending (inv : system.Inv) (id : List Char) :
    (system.step (.pending id)).Inv := by
  have cases : (system.step (.pending id)).registry.state = system.registry.state ∨
      (system.step (.pending id)).registry.state =
        system.registry.state.removePending id system.now := by
    unfold System.step System.registryAfter AuthRegistry.pending
    dsimp only
    split
    · exact .inr rfl
    · exact .inl rfl
  rcases cases with same | removed
  · refine inv.congr ?_ ?_ ?_ rfl rfl rfl rfl
    · rw [same]
    · rw [same]
    · rw [same]
  · refine System.Inv.of_registry inv.attached ?_ ?_ inv.journaled inv.fresh ?_
    · rw [removed]
      exact inv.holds.removePending id
    · rw [removed]
      exact inv.waiting.keep id system.now
    · rw [removed, removePending_closed]
      intro closed other
      rw [removePending_pending, inv.shut closed other, ite_self]

theorem System.Inv.shut_withdraw (inv : system.Inv) (closed : system.registry.state.closed = true)
    (nonce id : List Char) : (system.registry.state.withdraw nonce).pending[id]? = none := by
  unfold State.withdraw
  dsimp only
  rw [TreeMap.getElem?_filter', inv.shut closed id]
  rfl

theorem System.after_resolve (system : System) (text : List Char) (consume saves : Bool) :
    (system.heldAfter (.resolve text consume saves) = system.held ∧
      system.usedAfter (.resolve text consume saves) = system.used) ∨
    ((∃ id, (system.registry.resolveCallback text consume system.now saves).2 = .ok id) ∧
      consume = true ∧
      system.heldAfter (.resolve text consume saves) =
        (fun id => (system.held id).filter fun entry => entry.1 ≠ Text.trimmed text) ∧
      system.usedAfter (.resolve text consume saves) = Text.trimmed text :: system.used) := by
  cases consume with
  | false => exact .inl ⟨rfl, rfl⟩
  | true =>
    unfold System.heldAfter System.usedAfter
    dsimp only
    cases (system.registry.resolveCallback text true system.now saves).2 with
    | ok id => exact .inr ⟨⟨id, rfl⟩, rfl, rfl, rfl⟩
    | error error => exact .inl ⟨rfl, rfl⟩

theorem System.Inv.resolve (inv : system.Inv) (text : List Char) (consume saves : Bool) :
    (system.step (.resolve text consume saves)).Inv := by
  have spec := resolveCallback_registry system.registry text consume system.now saves inv.attached
  rcases system.after_resolve text consume saves with
    ⟨sameHeld, sameUsed⟩ | ⟨⟨id, resolved⟩, consumes, forgotten, isUsed⟩
  · have heldAs : (system.step (.resolve text consume saves)).held = system.held := sameHeld
    rcases spec with ⟨same, _⟩ | ⟨state, journal, _⟩
    · have sameRegistry : (system.step (.resolve text consume saves)).registry =
          system.registry := same
      refine inv.congr ?_ ?_ ?_ ?_ rfl sameHeld sameUsed
      · rw [sameRegistry]
      · rw [sameRegistry]
      · rw [sameRegistry]
      · rw [sameRegistry]
    · have nextState : (system.step (.resolve text consume saves)).registry.state =
          system.registry.state.withdraw (Text.trimmed text) := state
      have waiting := inv.waiting.withdrawKeep (Text.trimmed text)
      refine System.Inv.of_registry journal ?_ ?_ ?_ ?_ ?_
      · rw [nextState]
        exact inv.holds.withdraw _
      · rw [nextState, heldAs]
        exact waiting
      · rw [heldAs]
        split
        · exact waiting.journaled
        · exact inv.journaled
      · rw [heldAs, show (system.step (.resolve text consume saves)).used = system.used from sameUsed]
        exact inv.fresh
      · rw [nextState]
        exact fun closed => inv.shut_withdraw closed _
  · have nextHeld : (system.step (.resolve text consume saves)).held = _ := forgotten
    have nextUsed : (system.step (.resolve text consume saves)).used = _ := isUsed
    rcases spec with ⟨_, failed⟩ | ⟨state, journal, succeeds⟩
    · obtain ⟨error, isError⟩ := failed consumes
      cases isError.symm.trans resolved
    · have nextState : (system.step (.resolve text consume saves)).registry.state =
          system.registry.state.withdraw (Text.trimmed text) := state
      have waiting := inv.waiting.withdraw (Text.trimmed text)
      rw [if_pos (succeeds id resolved)] at journal
      refine System.Inv.of_registry journal ?_ ?_ ?_ ?_ ?_
      · rw [nextState]
        exact inv.holds.withdraw _
      · rw [nextState, nextHeld]
        exact waiting
      · rw [nextHeld]
        exact waiting.journaled
      · rw [nextHeld, nextUsed]
        intro other nonce created isHeld
        rw [Option.filter_eq_some_iff, decide_eq_true_eq] at isHeld
        obtain ⟨unused, timed⟩ := inv.fresh other nonce created isHeld.1
        rw [List.mem_cons, not_or]
        exact ⟨⟨isHeld.2, unused⟩, timed⟩
      · rw [nextState]
        exact fun closed => inv.shut_withdraw closed _

theorem System.Inv.shutdown (inv : system.Inv) : (system.step .shutdown).Inv := by
  have absent (id : List Char) : (system.step .shutdown).registry.state.pending[id]? = none :=
    TreeMap.getElem?_emptyc
  refine System.Inv.of_registry inv.attached ?_ ?_ inv.journaled inv.fresh fun _ => absent
  · constructor
    · intro nonce owner isOwner
      have nobody : (system.step .shutdown).registry.state.owners[nonce]? = none :=
        TreeMap.getElem?_emptyc
      cases nobody.symm.trans isOwner
    · intro id request found
      cases (absent id).symm.trans found
  · intro id request found
    cases (absent id).symm.trans found

theorem System.Inv.clock (inv : system.Inv) {time : Int} (careful : system.Careful (.clock time)) :
    (system.step (.clock time)).Inv :=
  System.Inv.of_registry inv.attached (inv.holds.later careful) inv.waiting inv.journaled
    inv.fresh inv.shut

theorem System.mem_restarted {loads : Bool} {entry : SavedPending}
    (member : entry ∈ system.restarted loads) :
    entry ∈ system.journal ∧ validExtensionId entry.request.extensionId = true ∧
      entry.nonce ≠ [] := by
  unfold System.restarted at member
  cases loads with
  | false => cases member
  | true =>
    unfold loaded at member
    rw [if_pos rfl, List.mem_filter, Bool.and_eq_true, Bool.and_eq_true, Bool.not_eq_true',
      List.isEmpty_eq_false_iff] at member
    exact ⟨member.1, member.2.1⟩

/-- A restart restores the entries of the journal that have not expired. -/
theorem System.Inv.restored (inv : system.Inv) (loads : Bool) : Restored (system.restarted loads)
      ((system.restarted loads).foldl (AuthRegistry.restore system.now) {}) system.now := by
  have sublist : (system.restarted loads).Sublist system.journal := by
    unfold System.restarted loaded
    cases loads with
    | true => exact List.filter_sublist
    | false => exact List.nil_sublist _
  have nothing (id : List Char) : ({} : AuthRegistry).state.pending[id]? = none :=
    TreeMap.getElem?_emptyc
  have nobody (nonce : List Char) : ({} : AuthRegistry).state.owners[nonce]? = none :=
    TreeMap.getElem?_emptyc
  have empty : Restored [] ({} : AuthRegistry) system.now := by
    refine ⟨rfl, rfl, ⟨?_, ?_⟩, ?_, nobody⟩
    · intro nonce owner isOwner
      cases (nobody nonce).symm.trans isOwner
    · intro id request found
      cases (nothing id).symm.trans found
    · intro id request found
      cases (nothing id).symm.trans found
  refine restored_foldl ?_ ?_ empty
  · intro entry member
    obtain ⟨inJournal, valid, named⟩ := System.mem_restarted member
    exact ⟨valid, named, (inv.fresh _ _ _ (inv.journaled.kept entry inJournal)).2⟩
  · exact inv.journaled.distinct.sublist (sublist.map _)

theorem System.Inv.restart (inv : system.Inv) (loads : Bool) :
    (system.step (.restart loads)).Inv := by
  have restored := inv.restored loads
  refine System.Inv.of_registry rfl restored.holds ?_ inv.journaled inv.fresh ?_
  · intro id request found
    obtain ⟨known, entry, member, sameId, sameNonce, sameTime⟩ := restored.waits id request found
    have isHeld := inv.journaled.kept entry (System.mem_restarted member).1
    rw [sameId, sameNonce, sameTime] at isHeld
    exact ⟨known, isHeld⟩
  · intro closed
    exact absurd (restored.isOpen.symm.trans closed) Bool.false_ne_true

theorem System.Inv.step (inv : system.Inv) (step : Step) (careful : system.Careful step) :
    (system.step step).Inv := by
  cases step with
  | register request callbackState saves => exact inv.register careful
  | edit id verifier =>
    have same : (system.step (.edit id verifier)).registry.state.pending =
        system.registry.state.pending ∧
        (system.step (.edit id verifier)).registry.state.owners = system.registry.state.owners ∧
        (system.step (.edit id verifier)).registry.state.closed = system.registry.state.closed ∧
        (system.step (.edit id verifier)).registry.persistence =
          system.registry.persistence := by
      unfold System.step System.registryAfter AuthRegistry.edit
      dsimp only
      split
      · exact ⟨rfl, rfl, rfl, rfl⟩
      · exact ⟨rfl, rfl, rfl, rfl⟩
    exact inv.congr same.1 same.2.1 same.2.2.1 same.2.2.2 rfl rfl rfl
  | clear id saves => exact inv.clear careful
  | clearPending id saves => exact inv.clearPending careful
  | pending id => exact inv.pending id
  | resolve text consume saves => exact inv.resolve text consume saves
  | shutdown => exact inv.shutdown
  | clock time => exact inv.clock careful
  | restart loads => exact inv.restart loads

theorem System.Inv.promised (inv : system.Inv) (step : Step) (careful : system.Careful step) :
    system.Promised step := by
  cases step with
  | resolve text consume saves =>
    intro id resolved
    obtain ⟨request, found, sameNonce, inTime⟩ := resolveCallback_ok _ _ _ _ _ resolved
    have isHeld := (inv.waiting id request found).2
    rw [sameNonce] at isHeld
    exact ⟨(inv.fresh _ _ _ isHeld).1, request.createdAt, isHeld, inTime⟩
  | restart loads =>
    intro entry member owned
    exact ((inv.restored loads).first entry.nonce).trans (careful entry member owned)
  | register | edit | clear | clearPending | pending | shutdown | clock => trivial

theorem System.inv_initial (now : Int) : (System.initial now).Inv := by
  have nothing (id : List Char) : (System.initial now).registry.state.pending[id]? = none :=
    TreeMap.getElem?_emptyc
  have nobody (nonce : List Char) : (System.initial now).registry.state.owners[nonce]? = none :=
    TreeMap.getElem?_emptyc
  refine System.Inv.of_registry rfl ⟨?_, ?_⟩ ?_ ⟨?_, List.nodup_nil⟩ ?_ fun _ => nothing
  · intro nonce owner isOwner
    cases (nobody nonce).symm.trans isOwner
  · intro id request found
    cases (nothing id).symm.trans found
  · intro id request found
    cases (nothing id).symm.trans found
  · intro entry member
    cases member
  · intro id nonce created isHeld
    cases isHeld

theorem System.Inv.run (inv : system.Inv) {steps : List Step} (careful : system.CarefulRun steps) :
    (system.run steps).Inv := by
  induction steps generalizing system with
  | nil => exact inv
  | cons first rest ih =>
    obtain ⟨now, later⟩ := careful
    exact ih (inv.step first now) later

/-- In every careful run, an owner waits for what it owns, what has not expired is owned,
and the promises are kept by the next step. -/
theorem callbacks_oneTime (now : Int) {steps : List Step}
    (careful : (System.initial now).CarefulRun steps) :
    OwnersHold ((System.initial now).run steps).registry.state
        ((System.initial now).run steps).now ∧
      ∀ next, ((System.initial now).run steps).Careful next →
        ((System.initial now).run steps).Promised next := by
  have inv := (System.inv_initial now).run careful
  exact ⟨inv.holds, fun next isCareful => inv.promised next isCareful⟩

/-- Two extensions wait for one nonce, across a restart. -/
theorem callbacks_oneTime_restarted : OwnersHold ((System.initial 1).run
        [.register ⟨['a'], [], [], ['n'], 1⟩ (.ok []) true,
          .register ⟨['b'], [], [], ['n'], 1⟩ (.ok []) true, .restart true]).registry.state 1 ∧
      ∀ next, ((System.initial 1).run [.register ⟨['a'], [], [], ['n'], 1⟩ (.ok []) true,
            .register ⟨['b'], [], [], ['n'], 1⟩ (.ok []) true, .restart true]).Careful next →
        ((System.initial 1).run [.register ⟨['a'], [], [], ['n'], 1⟩ (.ok []) true,
            .register ⟨['b'], [], [], ['n'], 1⟩ (.ok []) true, .restart true]).Promised next := by
  refine callbacks_oneTime 1 ⟨?_, ?_, ?_, trivial⟩
  · intro entered isEntered
    cases isEntered
    exact ⟨List.not_mem_nil, by decide⟩
  · intro entered isEntered
    cases isEntered
    exact ⟨List.not_mem_nil, by decide⟩
  · unfold System.Careful
    decide

/-- A request for the nonce `n`. -/
def requestOf (id : Char) (createdAt : Int) : PendingAuthRequest :=
  ⟨[id], [], [], ['n'], createdAt⟩

theorem eq_ok_of_toOption {ε α : Type} {result : Except ε α} {value : α}
    (isSome : result.toOption = some value) : result = .ok value := by
  cases result with
  | ok other => exact congrArg Except.ok (Option.some.inj isSome)
  | error error => cases isSome

/-- A nonce resolves after it was cleared, when the clear was not saved or came behind a
shutdown; a restart gives it to another extension; it is registered again once it is used
up; a request of the time zero lives longer; and a clock that is set back revives what has
no owner. -/
theorem callbacks_notOneTime :
    (¬ ((System.initial 1).run [.register (requestOf 'a' 1) (.ok []) true,
        .clearPending ['a'] false, .restart true]).Promised (.resolve ['n'] false true)) ∧
    (¬ ((System.initial 1).run [.register (requestOf 'a' 1) (.ok []) true,
        .shutdown, .clear ['a'] true, .restart true]).Promised (.resolve ['n'] false true)) ∧
    (¬ ((System.initial 1).run [.register (requestOf 'b' 1) (.ok []) true,
        .register (requestOf 'a' 1) (.ok []) true]).Promised (.restart true)) ∧
    (¬ ((System.initial 1).run [.register (requestOf 'a' 1) (.ok []) true, .resolve ['n'] true true,
        .register (requestOf 'b' 1) (.ok []) true]).Promised (.resolve ['n'] false true)) ∧
    (¬ ((System.initial 0).run [.register (requestOf 'a' 0) (.ok []) true,
        .clock (pendingTtl - 1), .restart true,
        .clock pendingTtl]).Promised (.resolve ['n'] false true)) ∧
    ¬ OwnersHold ((System.initial 1).run [.register (requestOf 'a' 1) (.ok []) true,
        .register (requestOf 'b' 1) (.ok []) true, .clock (pendingTtl + 1), .pending ['a'],
        .clock 1]).registry.state 1 := by
  refine ⟨?_, ?_, ?_, ?_, ?_, ?_⟩
  · intro promised
    obtain ⟨_, created, isHeld, _⟩ := promised ['a'] (eq_ok_of_toOption (by decide))
    cases isHeld
  · intro promised
    obtain ⟨_, created, isHeld, _⟩ := promised ['a'] (eq_ok_of_toOption (by decide))
    cases isHeld
  · unfold System.Promised
    decide
  · intro promised
    have unused := (promised ['b'] (eq_ok_of_toOption (by decide +kernel))).1
    exact unused (by decide)
  · intro promised
    obtain ⟨_, created, isHeld, inTime⟩ := promised ['a'] (eq_ok_of_toOption (by decide))
    cases isHeld
    revert inTime
    decide
  · intro hold
    have owned := hold.owned ['b'] (requestOf 'b' 1) (by decide) (by decide)
    revert owned
    decide

end Runs

end LosslessMusic.Extensions
