import LosslessMusic.Extensions.CallbackOwners

/-!
# Calls of the registry and their journal

What each call does to the pending requests, to the owners and to the journal, and what is
restored of a journal: one entry after the other, each nonce with its first extension.
-/

namespace LosslessMusic.Extensions

open Std (TreeMap)

/-! ## Saving -/

section Saving

variable {registry : AuthRegistry} {journal : List SavedPending} {now : Int} {saves : Bool}

theorem saved_pending {state : State} (known : ∀ (id : List Char) (request : PendingAuthRequest),
      state.pending[id]? = some request → request.extensionId = id)
    {entry : SavedPending} (member : entry ∈ state.saved now) :
    ∃ request : PendingAuthRequest, state.pending[entry.request.extensionId]? = some request ∧
        request.state = entry.nonce ∧ request.createdAt = entry.createdAt := by
  unfold State.saved at member
  rw [List.mem_map] at member
  obtain ⟨request, isPending, isEntry⟩ := member
  rw [List.mem_filter, List.mem_map] at isPending
  obtain ⟨⟨⟨id, waiting⟩, inMap, isRequest⟩, _⟩ := isPending
  dsimp only at isRequest
  rw [TreeMap.mem_toList_iff_getElem?_eq_some, isRequest] at inMap
  rw [← isEntry]
  refine ⟨request, ?_, rfl, rfl⟩
  rw [known id request inMap]
  exact inMap

theorem nodup_saved {state : State} (known : ∀ (id : List Char) (request : PendingAuthRequest),
      state.pending[id]? = some request → request.extensionId = id) :
    ((state.saved now).map (·.request.extensionId)).Nodup := by
  unfold State.saved
  rw [List.map_map]
  have keys : ((state.pending.toList.map Prod.snd).map (·.extensionId)) = state.pending.keys := by
    rw [List.map_map, ← TreeMap.map_fst_toList_eq_keys]
    apply List.map_congr_left
    rintro ⟨id, request⟩ member
    rw [TreeMap.mem_toList_iff_getElem?_eq_some] at member
    exact known id request member
  have whole : ((state.pending.toList.map Prod.snd).map (·.extensionId)).Nodup := by
    rw [keys]
    exact TreeMap.nodup_keys
  exact whole.sublist (List.filter_sublist.map _)

theorem persist_attached (registry : AuthRegistry) (now : Int) (saves : Bool)
    (attached : registry.persistence = some journal) :
    registry.persist now saves =
      if saves then .ok { registry with persistence := some (registry.state.saved now) }
      else .error "cannot save pending verification" := by
  unfold AuthRegistry.persist
  rw [attached]

theorem persist_state {saved : AuthRegistry} (isSaved : registry.persist now saves = .ok saved) :
    saved.state = registry.state := by
  unfold AuthRegistry.persist at isSaved
  split at isSaved
  · rw [Except.ok.injEq] at isSaved
    rw [isSaved]
  · split at isSaved
    · rw [Except.ok.injEq] at isSaved
      rw [← isSaved]
    · cases isSaved

/-- The journal behind a call that saves what it has done to the registry: what is pending
then, or the old one. -/
theorem persistAnyway_spec (registry : AuthRegistry) (now : Int) (saves : Bool)
    (attached : registry.persistence = some journal) :
    (registry.persistAnyway now saves).state = registry.state ∧
      (registry.persistAnyway now saves).persistence =
        some (if saves then registry.state.saved now else journal) := by
  unfold AuthRegistry.persistAnyway
  rw [persist_attached registry now saves attached]
  cases saves with
  | true => exact ⟨rfl, rfl⟩
  | false => exact ⟨rfl, attached⟩

end Saving

/-! ## Registering -/

/-- The request that a call registers. -/
def registered (request : PendingAuthRequest) (callbackState : Except String (List Char))
    (now : Int) : Option PendingAuthRequest :=
  match if request.state.isEmpty then callbackState else .ok request.state with
  | .error _ => none
  | .ok nonce => some (AuthRegistry.completed request nonce now)

section Registering

variable (registry : AuthRegistry) (request : PendingAuthRequest)
  (callbackState : Except String (List Char)) (now : Int) (saves : Bool)

theorem enter_closed (state : State) (request : PendingAuthRequest) (now : Int) :
    (state.enter request now).closed = state.closed := by
  unfold State.enter
  dsimp only
  split
  · exact removePending_closed state request.extensionId now
  · rfl

theorem registerPending_cases :
    ((∃ error, (registry.registerPending request callbackState now saves).2 = .error error) ∧
      (registry.registerPending request callbackState now saves).1.state.pending =
        registry.state.pending ∧
      (registry.registerPending request callbackState now saves).1.state.owners =
        registry.state.owners ∧
      (registry.registerPending request callbackState now saves).1.state.closed =
        registry.state.closed ∧
      (registry.registerPending request callbackState now saves).1.persistence =
        registry.persistence) ∨
    ∃ entered, registered request callbackState now = some entered ∧
      registry.state.closed = false ∧ registry.state.refuses entered = false ∧
      (registry.registerPending request callbackState now saves).2 = .ok () ∧
      { registry with state := registry.state.enter entered now }.persist now saves =
        .ok (registry.registerPending request callbackState now saves).1 := by
  unfold AuthRegistry.registerPending registered
  split
  next => exact .inl ⟨⟨_, rfl⟩, rfl, rfl, rfl, rfl⟩
  next =>
    cases named : (if request.state.isEmpty then callbackState else .ok request.state) with
    | error error => exact .inl ⟨⟨_, rfl⟩, rfl, rfl, rfl, rfl⟩
    | ok nonce =>
      dsimp only
      split
      next => exact .inl ⟨⟨_, rfl⟩, rfl, rfl, rfl, rfl⟩
      next isOpen =>
        split
        next => exact .inl ⟨⟨_, rfl⟩, rfl, rfl, rfl, rfl⟩
        next accepted =>
          cases persisted : { registry with
              state := registry.state.enter (AuthRegistry.completed request nonce now) now
              }.persist now saves with
          | error error =>
            exact .inl ⟨⟨_, rfl⟩, rfl, rfl, enter_closed _ _ _, rfl⟩
          | ok saved =>
            exact .inr ⟨_, rfl, Bool.not_eq_true _ ▸ isOpen, Bool.not_eq_true _ ▸ accepted,
              rfl, persisted⟩

end Registering

/-! ## Restoring -/

/-- A registry into which the entries `done` have been restored. -/
structure Restored (done : List SavedPending) (registry : AuthRegistry) (now : Int) : Prop where
  isOpen : registry.state.closed = false
  detached : registry.persistence = none
  holds : OwnersHold registry.state now
  waits : ∀ (id : List Char) (request : PendingAuthRequest),
    registry.state.pending[id]? = some request → request.extensionId = id ∧
      ∃ entry ∈ done, entry.request.extensionId = id ∧ entry.nonce = request.state ∧
        entry.createdAt = request.createdAt
  first : ∀ nonce : List Char, registry.state.owners[nonce]? =
    (done.find? fun entry => entry.nonce = nonce).map (·.request.extensionId)

section Restoring

variable {registry : AuthRegistry} {done : List SavedPending} {now : Int}

theorem trimmed_valid {id : List Char} (valid : validExtensionId id = true) :
    (Text.trimmed id).isEmpty = false := by
  unfold validExtensionId at valid
  simp only [Bool.and_eq_true] at valid
  have begins := valid.1.2
  cases id with
  | nil => cases begins
  | cons first rest =>
    rw [List.head?_cons, Option.any_some] at begins
    have refused : ¬ Text.isWhiteSpace first = true := by
      rw [Bool.or_eq_true] at begins
      unfold Char.isLower Char.isDigit at begins
      simp only [Bool.and_eq_true, decide_eq_true_eq] at begins
      have between : 48 ≤ first.toNat ∧ first.toNat ≤ 122 := by
        rcases begins with lower | digit
        · have low : 97 ≤ first.toNat := lower.1
          have high : first.toNat ≤ 122 := lower.2
          omega
        · have low : 48 ≤ first.toNat := digit.1
          have high : first.toNat ≤ 57 := digit.2
          omega
      unfold Text.isWhiteSpace
      simp only [Bool.or_eq_true, Bool.and_eq_true, decide_eq_true_eq]
      omega
    unfold Text.trimmed
    rw [List.dropWhile_cons_of_neg refused, List.isEmpty_eq_false_iff, Ne,
      List.rdropWhile_eq_nil_iff]
    intro blank
    exact refused (blank first List.mem_cons_self)

theorem registerPending_detached (isOpen : registry.state.closed = false)
    (detached : registry.persistence = none) {request : PendingAuthRequest}
    (valid : validExtensionId request.extensionId = true) (named : request.state ≠ [])
    (timed : request.createdAt ≠ 0) (callbackState : Except String (List Char)) :
    registry.registerPending request callbackState now true =
      if registry.state.refuses request then
        (registry, .error "callback state is already registered")
      else ({ registry with state := registry.state.enter request now }, .ok ()) := by
  have same : AuthRegistry.completed request request.state now = request := by
    unfold AuthRegistry.completed
    rw [if_neg timed]
  unfold AuthRegistry.registerPending
  rw [trimmed_valid valid, List.isEmpty_eq_false_iff.mpr named]
  simp only [Bool.false_eq_true, if_false, same, isOpen]
  unfold AuthRegistry.persist
  rw [detached]

/-- What is pending and owned decides what has been restored. -/
theorem Restored.congr (restored : Restored done registry now) {other : AuthRegistry}
    (samePending : other.state.pending = registry.state.pending)
    (sameOwners : other.state.owners = registry.state.owners) (isOpen : other.state.closed = false)
    (detached : other.persistence = none) :
    Restored done other now where
  isOpen := isOpen
  detached := detached
  holds := by
    constructor
    · rw [samePending, sameOwners]
      exact restored.holds.waits
    · rw [samePending, sameOwners]
      exact restored.holds.owned
  waits := by
    rw [samePending]
    exact restored.waits
  first := by
    rw [sameOwners]
    exact restored.first

theorem Restored.restore (restored : Restored done registry now) {entry : SavedPending}
    (valid : validExtensionId entry.request.extensionId = true) (named : entry.nonce ≠ [])
    (timed : entry.createdAt ≠ 0)
    (new : ∀ other ∈ done, other.request.extensionId ≠ entry.request.extensionId) :
    Restored (done ++ [entry]) (registry.restore now entry) now := by
  have absent : registry.state.pending[entry.request.extensionId]? = none := by
    cases found : registry.state.pending[entry.request.extensionId]? with
    | none => rfl
    | some request =>
      obtain ⟨_, other, member, same, _⟩ := restored.waits _ request found
      exact absurd same (new other member)
  have looksUp (nonce : List Char) :
      ((done ++ [entry]).find? fun other => other.nonce = nonce).map (·.request.extensionId) =
        (registry.state.owners[nonce]?).or
          (if entry.nonce = nonce then some entry.request.extensionId else none) := by
    rw [List.find?_append, restored.first, List.find?_singleton]
    cases done.find? fun other => decide (other.nonce = nonce) with
    | some other => rfl
    | none =>
      by_cases same : entry.nonce = nonce
      · simp [same]
      · simp [same]
  unfold AuthRegistry.restore
  dsimp only
  generalize isRequest : ({ entry.request with
    state := entry.nonce, createdAt := entry.createdAt } : PendingAuthRequest) = request
  have sameId : request.extensionId = entry.request.extensionId := by rw [← isRequest]
  have sameNonce : request.state = entry.nonce := by rw [← isRequest]
  have sameTime : request.createdAt = entry.createdAt := by rw [← isRequest]
  rw [← sameId] at valid
  rw [← sameNonce] at named
  rw [← sameTime] at timed
  rw [registerPending_detached restored.isOpen restored.detached valid named timed]
  by_cases refused : registry.state.refuses request = true
  · rw [if_pos refused]
    have isOwned : (registry.state.owners[entry.nonce]?).isSome = true := by
      unfold State.refuses at refused
      rw [sameNonce] at refused
      cases owner : registry.state.owners[entry.nonce]? with
      | some owner => rfl
      | none =>
        rw [owner] at refused
        cases refused
    refine ⟨restored.isOpen, restored.detached, restored.holds, ?_, ?_⟩
    · intro id waiting isWaiting
      obtain ⟨known, other, member, facts⟩ := restored.waits id waiting isWaiting
      exact ⟨known, other, List.mem_append_left _ member, facts⟩
    · intro nonce
      rw [looksUp]
      by_cases same : entry.nonce = nonce
      · rw [← same]
        obtain ⟨owner, isOwner⟩ := Option.isSome_iff_exists.mp isOwned
        rw [isOwner, Option.some_or]
      · rw [if_neg same, Option.or_none]
  · rw [if_neg refused]
    have entered : Restored (done ++ [entry])
        { registry with state := registry.state.enter request now } now := by
      refine ⟨(enter_closed _ _ _).trans restored.isOpen, restored.detached,
        restored.holds.enter request, ?_, ?_⟩
      · intro id waiting isWaiting
        dsimp only at isWaiting
        rw [enter_pending] at isWaiting
        split at isWaiting
        next same =>
          rw [Option.some_inj] at isWaiting
          rw [← isWaiting]
          exact ⟨same, entry, List.mem_append_right _ List.mem_cons_self,
            sameId.symm.trans same, sameNonce.symm, sameTime.symm⟩
        next =>
          obtain ⟨known, other, member, facts⟩ := restored.waits id waiting isWaiting
          exact ⟨known, other, List.mem_append_left _ member, facts⟩
      · intro nonce
        dsimp only
        rw [looksUp]
        unfold State.enter
        dsimp only
        rw [sameId, absent, Option.any_none, if_neg Bool.false_ne_true, getElem?_insertIfNew_key,
          sameNonce]
        by_cases same : entry.nonce = nonce
        · rw [if_pos same, if_pos same, same]
          cases registry.state.owners[nonce]? with
          | some owner => rfl
          | none => rfl
        · rw [if_neg same, if_neg same, Option.or_none]
    dsimp only
    split
    next => exact entered
    next =>
      unfold AuthRegistry.edit
      rw [if_neg (by rw [entered.isOpen]; exact Bool.false_ne_true)]
      exact entered.congr rfl rfl entered.isOpen entered.detached

theorem restored_foldl {entries : List SavedPending}
    (valid : ∀ entry ∈ entries, validExtensionId entry.request.extensionId = true ∧
      entry.nonce ≠ [] ∧ entry.createdAt ≠ 0)
    (distinct : ((done ++ entries).map (·.request.extensionId)).Nodup)
    (restored : Restored done registry now) :
    Restored (done ++ entries) (entries.foldl (AuthRegistry.restore now) registry) now := by
  induction entries generalizing done registry with
  | nil =>
    rw [List.append_nil]
    exact restored
  | cons entry rest ih =>
    rw [List.forall_mem_cons] at valid
    obtain ⟨⟨isValid, named, timed⟩, others⟩ := valid
    have new : ∀ other ∈ done, other.request.extensionId ≠ entry.request.extensionId := by
      intro other member
      rw [List.map_append, List.nodup_append] at distinct
      exact distinct.2.2 _ (List.mem_map_of_mem member) _ List.mem_cons_self
    have next := restored.restore isValid named timed new
    rw [List.append_cons] at distinct ⊢
    rw [List.foldl_cons]
    exact ih others distinct next

end Restoring

/-! ## Resolving -/

section Resolving

variable (registry : AuthRegistry) (text : List Char) (consume : Bool) (now : Int) (saves : Bool)

theorem resolveCallback_ok {id : List Char}
    (resolved : (registry.resolveCallback text consume now saves).2 = .ok id) :
    ∃ request : PendingAuthRequest, registry.state.pending[id]? = some request ∧
      request.state = Text.trimmed text ∧ inTtl now request.createdAt = true := by
  unfold AuthRegistry.resolveCallback at resolved
  dsimp only at resolved
  generalize Text.trimmed text = nonce at resolved ⊢
  split at resolved
  next => cases resolved
  next =>
    cases isOwner : registry.state.owners[nonce]? with
    | none =>
      rw [isOwner] at resolved
      dsimp only at resolved
      split at resolved
      · split at resolved
        · cases resolved
        · cases resolved
      · cases resolved
    | some owner =>
      rw [isOwner, Option.bind_some] at resolved
      cases isWaiting : registry.state.pending[owner]? with
      | none =>
        rw [isWaiting] at resolved
        dsimp only [Option.any_none] at resolved
        split at resolved
        · split at resolved
          · cases resolved
          · cases resolved
        · cases resolved
      | some request =>
        rw [isWaiting, Option.any_some] at resolved
        by_cases valid : (decide (request.state = nonce) && inTtl now request.createdAt) = true
        · rw [valid] at resolved
          have same : owner = id := by
            dsimp only at resolved
            split at resolved
            · split at resolved
              · exact Except.ok.inj resolved
              · cases resolved
            · exact Except.ok.inj resolved
          rw [Bool.and_eq_true, decide_eq_true_eq] at valid
          rw [← same]
          exact ⟨request, isWaiting, valid⟩
        · rw [Bool.not_eq_true] at valid
          rw [valid] at resolved
          dsimp only at resolved
          split at resolved
          · split at resolved
            · cases resolved
            · cases resolved
          · cases resolved

theorem resolveCallback_registry {journal : List SavedPending}
    (attached : registry.persistence = some journal) :
    ((registry.resolveCallback text consume now saves).1 = registry ∧ (consume = true → ∃ error,
        (registry.resolveCallback text consume now saves).2 = .error error)) ∨
    ((registry.resolveCallback text consume now saves).1.state =
        registry.state.withdraw (Text.trimmed text) ∧
      (registry.resolveCallback text consume now saves).1.persistence =
        some (if saves then (registry.state.withdraw (Text.trimmed text)).saved now
          else journal) ∧
      ∀ id, (registry.resolveCallback text consume now saves).2 = .ok id → saves = true) := by
  unfold AuthRegistry.resolveCallback
  dsimp only
  generalize Text.trimmed text = nonce
  split
  next => exact .inl ⟨rfl, fun _ => ⟨_, rfl⟩⟩
  next =>
    split
    next =>
      rw [persist_attached { registry with state := registry.state.withdraw nonce } now saves
        attached]
      cases saves with
      | true => exact .inr ⟨rfl, rfl, fun _ _ => rfl⟩
      | false => exact .inr ⟨rfl, attached, fun _ resolved => nomatch resolved⟩
    next kept =>
      refine .inl ⟨rfl, ?_⟩
      intro consumes
      rw [consumes, Bool.or_true] at kept
      exact absurd rfl kept

end Resolving

end LosslessMusic.Extensions
