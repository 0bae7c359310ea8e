import LosslessMusic.Extensions.AuthRegistry

/-!
# Owners of pending nonces

An owner waits for what it owns, and what has not expired is owned. Each operation keeps
both.
-/

namespace LosslessMusic.Extensions

open Std (TreeMap)

/-! ## Maps -/

section Maps

variable {κ ν : Type} [Ord κ] [Std.TransOrd κ] [Std.LawfulEqOrd κ] [DecidableEq κ]

theorem getElem?_insert_key (map : TreeMap κ ν) (key other : κ) (value : ν) :
    (map.insert key value)[other]? = if key = other then some value else map[other]? := by
  rw [TreeMap.getElem?_insert]
  simp only [Std.compare_eq_iff_eq]

theorem getElem?_erase_key (map : TreeMap κ ν) (key other : κ) :
    (map.erase key)[other]? = if key = other then none else map[other]? := by
  rw [TreeMap.getElem?_erase]
  simp only [Std.compare_eq_iff_eq]

theorem getElem?_insertIfNew_key (map : TreeMap κ ν) (key other : κ) (value : ν) :
    (map.insertIfNew key value)[other]? =
      if key = other then some (map[key]?.getD value) else map[other]? := by
  rw [TreeMap.getElem?_insertIfNew]
  simp only [Std.compare_eq_iff_eq, TreeMap.mem_iff_isSome_getElem?]
  by_cases same : key = other
  · rw [← same]
    cases map[key]? with
    | none => simp
    | some value => simp
  · simp [same]

end Maps

/-! ## The invariant -/

/-- An owner waits for what it owns, and what has not expired is owned. -/
structure OwnersHold (state : State) (now : Int) : Prop where
  waits : ∀ nonce owner : List Char, state.owners[nonce]? = some owner →
    ∃ request : PendingAuthRequest, state.pending[owner]? = some request ∧ request.state = nonce
  owned : ∀ (id : List Char) (request : PendingAuthRequest),
    state.pending[id]? = some request → now - request.createdAt < pendingTtl → (state.owners[request.state]?).isSome = true

section Operations

variable {state : State} {now : Int}

/-- Removing what an extension waits for leaves what the others wait for. -/
theorem removePending_pending (state : State) (id other : List Char) (now : Int) :
    (state.removePending id now).pending[other]? =
      if id = other then none else state.pending[other]? := by
  unfold State.removePending
  cases found : state.pending[id]? with
  | none =>
    dsimp only
    split
    next same => rw [← same, found]
    next => rfl
  | some request =>
    rw [← getElem?_erase_key]
    dsimp only
    split
    · split
      · rfl
      · rfl
    · rfl

theorem removePending_withRecords (state : State) (records : TreeMap (List Char) (List Char))
    (id : List Char) (now : Int) :
    { state with records := records }.removePending id now =
      { state.removePending id now with records := records } := by
  unfold State.removePending
  cases state.pending[id]? with
  | none => rfl
  | some request =>
    dsimp only
    split
    · split
      · rfl
      · rfl
    · rfl

theorem removePending_closed (state : State) (id : List Char) (now : Int) :
    (state.removePending id now).closed = state.closed := by
  unfold State.removePending
  split
  · rfl
  · dsimp only
    split
    · split
      · rfl
      · rfl
    · rfl

/-- A nonce that was owned by another extension still is. -/
theorem removePending_owners (state : State) (id : List Char) (now : Int) {nonce : List Char}
    (notMine : ∀ request : PendingAuthRequest, state.pending[id]? = some request → request.state = nonce →
      state.owners[nonce]? ≠ some id) :
    (state.removePending id now).owners[nonce]? = state.owners[nonce]? := by
  unfold State.removePending
  cases found : state.pending[id]? with
  | none => rfl
  | some request =>
    dsimp only
    by_cases mine : state.owners[request.state]? = some id
    · have apart : request.state ≠ nonce := by
        rintro rfl
        exact notMine request found rfl mine
      rw [if_pos mine]
      split
      · dsimp only
        rw [getElem?_insert_key, if_neg apart, getElem?_erase_key, if_neg apart]
      · dsimp only
        rw [getElem?_erase_key, if_neg apart]
    · rw [if_neg mine]

theorem removePending_heir (now : Int) {id : List Char} {request : PendingAuthRequest}
    (found : state.pending[id]? = some request) (mine : state.owners[request.state]? = some id) :
    match (state.removePending id now).owners[request.state]? with
    | some heir => heir ≠ id ∧ ∃ other : PendingAuthRequest,
        state.pending[heir]? = some other ∧
        other.state = request.state
    | none => ∀ (other : List Char) (waiting : PendingAuthRequest), other ≠ id →
        state.pending[other]? = some waiting →
        waiting.state = request.state → ¬ now - waiting.createdAt < pendingTtl := by
  unfold State.removePending
  rw [found]
  dsimp only
  rw [if_pos mine]
  cases heir : (state.pending.erase id).toList.find? fun entry =>
      decide (entry.2.state = request.state ∧ now - entry.2.createdAt < pendingTtl) with
  | some entry =>
    dsimp only
    rw [getElem?_insert_key, if_pos rfl]
    have member := List.mem_of_find?_eq_some heir
    have waits := List.find?_some heir
    rw [decide_eq_true_eq] at waits
    rw [TreeMap.mem_toList_iff_getElem?_eq_some, getElem?_erase_key] at member
    split at member
    next => cases member
    next apart => exact ⟨fun same => apart same.symm, entry.2, member, waits.1⟩
  | none =>
    dsimp only
    rw [getElem?_erase_key, if_pos rfl]
    intro other waiting apart isWaiting sameNonce fresh
    rw [List.find?_eq_none] at heir
    have member : (other, waiting) ∈ (state.pending.erase id).toList := by
      rw [TreeMap.mem_toList_iff_getElem?_eq_some, getElem?_erase_key, if_neg apart.symm]
      exact isWaiting
    exact heir (other, waiting) member (decide_eq_true ⟨sameNonce, fresh⟩)

theorem OwnersHold.owner_ne (hold : OwnersHold state now) {id nonce : List Char}
    {request : PendingAuthRequest} (found : state.pending[id]? = some request)
    (apart : request.state ≠ nonce) : state.owners[nonce]? ≠ some id := by
  intro owner
  obtain ⟨other, isOther, sameNonce⟩ := hold.waits nonce id owner
  rw [found, Option.some_inj] at isOther
  rw [isOther] at apart
  exact apart sameNonce

/-- Removing what an extension waits for keeps the invariant. -/
theorem OwnersHold.removePending (hold : OwnersHold state now) (id : List Char) :
    OwnersHold (state.removePending id now) now := by
  cases found : state.pending[id]? with
  | none =>
    unfold State.removePending
    rw [found]
    exact hold
  | some request =>
    by_cases mine : state.owners[request.state]? = some id
    · have heir := removePending_heir now found mine
      constructor
      · intro nonce owner isOwner
        rw [removePending_pending]
        by_cases sameNonce : request.state = nonce
        · rw [← sameNonce] at isOwner ⊢
          rw [isOwner] at heir
          obtain ⟨apart, other, isWaiting, same⟩ := heir
          rw [if_neg apart.symm]
          exact ⟨other, isWaiting, same⟩
        · have notMine := hold.owner_ne found sameNonce
          rw [removePending_owners state id now fun _ _ _ => notMine] at isOwner
          have apart : id ≠ owner := by
            rintro rfl
            exact notMine isOwner
          rw [if_neg apart]
          exact hold.waits nonce owner isOwner
      · intro other waiting isWaiting fresh
        rw [removePending_pending] at isWaiting
        split at isWaiting
        next => cases isWaiting
        next apart =>
          by_cases sameNonce : request.state = waiting.state
          · rw [← sameNonce]
            cases next : (state.removePending id now).owners[request.state]? with
            | some heir => rfl
            | none =>
              rw [next] at heir
              exact absurd fresh (heir other waiting (Ne.symm apart) isWaiting sameNonce.symm)
          · rw [removePending_owners state id now fun _ _ _ =>
              hold.owner_ne found sameNonce]
            exact hold.owned other waiting isWaiting fresh
    · have unchanged (nonce : List Char) :
          (state.removePending id now).owners[nonce]? = state.owners[nonce]? := by
        refine removePending_owners state id now ?_
        intro waiting isWaiting sameNonce
        rw [found, Option.some_inj] at isWaiting
        rw [← sameNonce, ← isWaiting]
        exact mine
      constructor
      · intro nonce owner isOwner
        rw [unchanged] at isOwner
        obtain ⟨waiting, isWaiting, sameNonce⟩ := hold.waits nonce owner isOwner
        have apart : id ≠ owner := by
          rintro rfl
          rw [found, Option.some_inj] at isWaiting
          rw [isWaiting, sameNonce] at mine
          exact mine isOwner
        rw [removePending_pending, if_neg apart]
        exact ⟨waiting, isWaiting, sameNonce⟩
      · intro other waiting isWaiting fresh
        rw [removePending_pending] at isWaiting
        split at isWaiting
        next => cases isWaiting
        next =>
          rw [unchanged]
          exact hold.owned other waiting isWaiting fresh

theorem OwnersHold.withdraw (hold : OwnersHold state now) (nonce : List Char) :
    OwnersHold (state.withdraw nonce) now := by
  constructor
  · intro other owner isOwner
    unfold State.withdraw at isOwner ⊢
    dsimp only at isOwner ⊢
    rw [getElem?_erase_key] at isOwner
    split at isOwner
    next => cases isOwner
    next apart =>
      obtain ⟨request, isWaiting, sameNonce⟩ := hold.waits other owner isOwner
      refine ⟨request, ?_, sameNonce⟩
      rw [TreeMap.getElem?_filter', isWaiting, Option.filter_some, sameNonce,
        if_pos (decide_eq_true (Ne.symm apart))]
  · intro id request isWaiting fresh
    unfold State.withdraw at isWaiting ⊢
    dsimp only at isWaiting ⊢
    rw [TreeMap.getElem?_filter', Option.filter_eq_some_iff] at isWaiting
    obtain ⟨isWaiting, apart⟩ := isWaiting
    rw [decide_eq_true_eq] at apart
    rw [getElem?_erase_key, if_neg (Ne.symm apart)]
    exact hold.owned id request isWaiting fresh

theorem enter_pending (state : State) (request : PendingAuthRequest) (id : List Char) (now : Int) :
    (state.enter request now).pending[id]? =
      if request.extensionId = id then some request else state.pending[id]? := by
  unfold State.enter
  dsimp only
  rw [getElem?_insert_key]
  split
  · rfl
  next apart =>
    split
    · rw [removePending_pending, if_neg apart]
    · rfl

/-- The extension that enters waits for its nonce only, so what it owned before is no
longer its own. -/
theorem OwnersHold.enter (hold : OwnersHold state now) (request : PendingAuthRequest) :
    OwnersHold (state.enter request now) now := by
  have entered : ∃ before, OwnersHold before now ∧
      (∀ waiting : PendingAuthRequest, before.pending[request.extensionId]? = some waiting →
        waiting.state = request.state) ∧
      state.enter request now = { before with
        owners := before.owners.insertIfNew request.state request.extensionId
        pending := before.pending.insert request.extensionId request } := by
    unfold State.enter
    dsimp only
    split
    next =>
      refine ⟨state.removePending request.extensionId now, hold.removePending _, ?_, rfl⟩
      intro waiting isWaiting
      rw [removePending_pending, if_pos rfl] at isWaiting
      cases isWaiting
    next same =>
      refine ⟨state, hold, ?_, rfl⟩
      intro waiting isWaiting
      rw [isWaiting, Option.any_some, decide_eq_true_eq, Decidable.not_not] at same
      exact same
  obtain ⟨before, holdBefore, same, isEntered⟩ := entered
  rw [isEntered]
  constructor
  · intro nonce owner isOwner
    dsimp only at isOwner ⊢
    rw [getElem?_insertIfNew_key] at isOwner
    rw [getElem?_insert_key]
    by_cases isEntering : request.extensionId = owner
    · rw [if_pos isEntering]
      refine ⟨request, rfl, ?_⟩
      split at isOwner
      next sameNonce => exact sameNonce
      next =>
        obtain ⟨waiting, isWaiting, isNonce⟩ := holdBefore.waits nonce owner isOwner
        rw [← isEntering] at isWaiting
        rw [← same waiting isWaiting, isNonce]
    · rw [if_neg isEntering]
      refine holdBefore.waits nonce owner ?_
      split at isOwner
      next sameNonce =>
        rw [← sameNonce]
        cases isOwned : before.owners[request.state]? with
        | some other =>
          rw [isOwned, Option.getD_some] at isOwner
          exact isOwner
        | none =>
          rw [isOwned, Option.getD_none, Option.some_inj] at isOwner
          exact absurd isOwner isEntering
      next => exact isOwner
  · intro id waiting isWaiting fresh
    dsimp only at isWaiting ⊢
    rw [getElem?_insertIfNew_key]
    rw [getElem?_insert_key] at isWaiting
    split at isWaiting
    next =>
      rw [← Option.some_inj.mp isWaiting, if_pos rfl]
      rfl
    next =>
      split
      · rfl
      · exact holdBefore.owned id waiting isWaiting fresh

theorem OwnersHold.later (hold : OwnersHold state now) {later : Int}
    (revived : ∀ (id : List Char) (request : PendingAuthRequest),
      state.pending[id]? = some request →
      (state.owners[request.state]?).isNone = true →
      later - request.createdAt < pendingTtl → now - request.createdAt < pendingTtl) :
    OwnersHold state later := by
  refine ⟨hold.waits, ?_⟩
  intro id request isWaiting fresh
  by_contra unowned
  rw [Bool.not_eq_true, Option.isSome_eq_false_iff] at unowned
  have owned := hold.owned id request isWaiting (revived id request isWaiting unowned fresh)
  rw [Option.isNone_iff_eq_none] at unowned
  rw [unowned] at owned
  cases owned

end Operations

end LosslessMusic.Extensions
