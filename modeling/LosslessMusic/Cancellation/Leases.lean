import LosslessMusic.Cancellation.Registry

/-!
# Leases and the entries they hold

The entry of an id counts its unreleased leases, and its flag tells whether the id was
cancelled since the flag was made. A lease that is not released holds its entry; one that
is released touches nothing again.
-/

namespace LosslessMusic.Cancellation.Registry

open Std (TreeMap)

variable {r : Registry}

/-- The count that the registry has for an id. -/
def references (r : Registry) (id : String) : Nat :=
  (r.state.entries[id]?).elim 0 Entry.references

/-- The leases of an id that are not released. -/
def unreleased (r : Registry) (id : String) : Nat :=
  r.leases.countP fun lease => lease.id = id && !lease.released

theorem getElem?_insert (entries : TreeMap String Entry) (id other : String) (entry : Entry) :
    (entries.insert id entry)[other]? = if id = other then some entry else entries[other]? := by
  rw [TreeMap.getElem?_insert]
  simp

theorem getElem?_erase (entries : TreeMap String Entry) (id other : String) :
    (entries.erase id)[other]? = if id = other then none else entries[other]? := by
  rw [TreeMap.getElem?_erase]
  simp

/-- What holds between entries, flags and leases. -/
structure Sound (r : Registry) : Prop where
  shut : r.state.closed = true → ∀ id : String, r.state.entries[id]? = none
  named : ∀ (id : String) (entry : Entry), r.state.entries[id]? = some entry →
    id ≠ "" ∧ ∃ flag, r.flags[entry.cancelled]? = some flag ∧ flag.id = id
  told : ∀ (id : String) (entry : Entry) (flag : Flag), r.state.entries[id]? = some entry →
    r.flags[entry.cancelled]? = some flag → (flag.cancelled = true ↔ id ∈ r.log.drop flag.born)
  born : ∀ flag ∈ r.flags, flag.born ≤ r.log.length
  held : r.state.closed = false → ∀ lease ∈ r.leases, lease.released = false → lease.id ≠ "" →
    ∃ entry, r.state.entries[lease.id]? = some entry ∧ entry.cancelled = lease.cancelled
  counted : r.state.closed = false → ∀ id, id ≠ "" → r.references id = r.unreleased id
  anonymous : ∀ lease ∈ r.leases, lease.id = "" →
    ∃ flag, r.flags[lease.cancelled]? = some flag ∧ flag.id = ""
  unset : ∀ flag ∈ r.flags, flag.id = "" → flag.cancelled = false
  unheard : "" ∉ r.log

theorem entries_new (domain : CancellationDomain) (id : String) :
    ({ domain } : Registry).state.entries[id]? = none :=
  TreeMap.getElem?_emptyc

theorem sound_new (domain : CancellationDomain) : Sound { domain } where
  shut := nofun
  named id entry found := by
    rw [entries_new] at found
    cases found
  told id entry flag found := by
    rw [entries_new] at found
    cases found
  born := nofun
  held := nofun
  counted _ id _ := by
    unfold references
    rw [entries_new]
    rfl
  anonymous := nofun
  unset := nofun
  unheard := nofun

variable {id : String} {entry : Entry}

theorem references_of_found
    (found : r.state.entries[id]? = some entry) : r.references id = entry.references := by
  rw [references, found]
  rfl

theorem references_of_absent (absent : r.state.entries[id]? = none) : r.references id = 0 := by
  rw [references, absent]
  rfl

variable {other : String}

theorem Sound.eq_of_flag (sound : r.Sound) {further : Entry}
    (found : r.state.entries[id]? = some entry) (present : r.state.entries[other]? = some further)
    (same : further.cancelled = entry.cancelled) : other = id := by
  obtain ⟨-, flag, isFlag, isId⟩ := sound.named id entry found
  obtain ⟨-, again, isAgain, isOther⟩ := sound.named other further present
  rw [same, isFlag] at isAgain
  cases isAgain
  exact isOther.symm.trans isId

/-! ## Entries that are made -/

variable {place : Nat} {flag : Flag}

theorem flag_append {flags : List Flag}
    (found : flags[place]? = some flag) (new : Flag) : (flags ++ [new])[place]? = some flag := by
  rw [List.getElem?_append_left (List.getElem?_eq_some_iff.mp found).1]
  exact found

/-- What `or_default` does: the entry is there, and nothing else has changed. -/
structure Made (r : Registry) (id : String) (entry : Entry) (after : Registry) : Prop where
  sound : after.Sound
  found : after.state.entries[id]? = some entry
  closed : after.state.closed = r.state.closed
  domain : after.domain = r.domain
  leases : after.leases = r.leases
  others : ∀ other, other ≠ id → after.state.entries[other]? = r.state.entries[other]?
  kept : ∀ old, r.state.entries[id]? = some old → entry = old

theorem made_orDefault (sound : r.Sound) (opened : r.state.closed = false)
    (nonempty : id ≠ "") : Made r id (r.orDefault id).1 (r.orDefault id).2 := by
  unfold orDefault
  split
  next entry found =>
    exact ⟨sound, found, rfl, rfl, rfl, fun _ _ => rfl, fun old isOld => by
      rw [found] at isOld
      exact Option.some.inj isOld⟩
  next absent =>
    have made : (r.state.entries.insert id ⟨r.flags.length, 0⟩)[id]? =
        some ⟨r.flags.length, 0⟩ := by
      rw [getElem?_insert, if_pos rfl]
    have others : ∀ other, other ≠ id →
        (r.state.entries.insert id ⟨r.flags.length, 0⟩)[other]? = r.state.entries[other]? := by
      intro other different
      rw [getElem?_insert, if_neg (Ne.symm different)]
    refine ⟨?_, made, rfl, rfl, rfl, others, fun old isOld => ?_⟩
    · exact
        { shut := fun shut => by
            rw [show r.state.closed = true from shut] at opened
            cases opened
          named := fun other entry found => by
            by_cases same : other = id
            · subst same
              obtain rfl := Option.some.inj (made.symm.trans found)
              exact ⟨nonempty, { id := other, born := r.log.length }, by simp, rfl⟩
            · have before := (others other same).symm.trans found
              obtain ⟨filled, flag, isFlag, isId⟩ := sound.named other entry before
              exact ⟨filled, flag, flag_append isFlag _, isId⟩
          told := fun other entry flag found isFlag => by
            by_cases same : other = id
            · subst same
              obtain rfl := Option.some.inj (made.symm.trans found)
              obtain rfl : { id := other, born := r.log.length } = flag := by simpa using isFlag
              simp
            · have before := (others other same).symm.trans found
              obtain ⟨filled, flag', isFlag', isId⟩ := sound.named other entry before
              obtain rfl := Option.some.inj ((flag_append isFlag' _).symm.trans isFlag)
              exact sound.told other entry flag' before isFlag'
          born := fun flag member => by
            rcases List.mem_append.mp member with old | new
            · exact sound.born flag old
            · rw [List.mem_singleton.mp new]
          held := fun _ lease member live named => by
            obtain ⟨entry, found, joined⟩ := sound.held opened lease member live named
            have different : lease.id ≠ id := by
              rintro rfl
              rw [absent] at found
              cases found
            exact ⟨entry, (others _ different).trans found, joined⟩
          counted := fun _ other named => by
            have before := sound.counted opened other named
            by_cases same : other = id
            · subst same
              rw [references_of_absent absent] at before
              rw [references_of_found made]
              exact before
            · unfold references at before ⊢
              rw [others other same]
              exact before
          anonymous := fun lease member empty => by
            obtain ⟨flag, isFlag, isId⟩ := sound.anonymous lease member empty
            exact ⟨flag, flag_append isFlag _, isId⟩
          unset := fun flag member empty => by
            rcases List.mem_append.mp member with old | new
            · exact sound.unset flag old empty
            · rw [List.mem_singleton.mp new]
          unheard := sound.unheard }
    · rw [absent] at isOld
      cases isOld

/-! ## Cancelling -/

theorem mem_drop_append_self {log : List String} {born : Nat} (before : born ≤ log.length)
    (id : String) : id ∈ (log ++ [id]).drop born := by
  rw [List.drop_append_of_le_length before]
  exact List.mem_append_right _ List.mem_cons_self

theorem mem_drop_append_of_ne {log : List String} {born : Nat} (before : born ≤ log.length)
    (different : other ≠ id) : other ∈ (log ++ [id]).drop born ↔ other ∈ log.drop born := by
  rw [List.drop_append_of_le_length before, List.mem_append, List.mem_singleton]
  exact or_iff_left different

theorem flag_of_store {target : Nat} (found : (r.store id target).flags[place]? = some flag) :
    ∃ before, r.flags[place]? = some before ∧ flag.id = before.id ∧ flag.born = before.born ∧
      flag.cancelled = (before.cancelled || decide (target = place)) := by
  simp only [store, List.getElem?_modify, Option.map_eq_map, Option.map_eq_some_iff] at found
  obtain ⟨before, isBefore, rfl⟩ := found
  refine ⟨before, isBefore, ?_⟩
  split
  next same => simp [same]
  next different => simp [different]

theorem flag_store (found : r.flags[place]? = some flag) (id : String) (target : Nat) :
    ∃ after, (r.store id target).flags[place]? = some after ∧ after.id = flag.id := by
  refine ⟨if target = place then { flag with cancelled := true } else flag, ?_, by split <;> rfl⟩
  simp only [store, List.getElem?_modify, found, Option.map_eq_map, Option.map_some]

/-- Setting the flag of an entry tells of the cancellation of its id, and of no other. -/
theorem sound_store (sound : r.Sound)
    (found : r.state.entries[id]? = some entry) : (r.store id entry.cancelled).Sound where
  shut := sound.shut
  named other further present := by
    obtain ⟨filled, flag, isFlag, isId⟩ := sound.named other further present
    obtain ⟨after, isAfter, same⟩ := flag_store isFlag id entry.cancelled
    exact ⟨filled, after, isAfter, same.trans isId⟩
  told other further flag present isFlag := by
    obtain ⟨before, isBefore, -, sameBorn, sameCancelled⟩ := flag_of_store isFlag
    have told := sound.told other further before present isBefore
    have early := sound.born before (List.mem_of_getElem? isBefore)
    rw [sameBorn, sameCancelled, Bool.or_eq_true, decide_eq_true_eq]
    by_cases same : other = id
    · subst same
      obtain rfl := Option.some.inj (found.symm.trans present)
      exact ⟨fun _ => mem_drop_append_self early _, fun _ => .inr rfl⟩
    · have different : entry.cancelled ≠ further.cancelled := fun equal =>
        same (sound.eq_of_flag found present equal.symm)
      show _ ↔ other ∈ (r.log ++ [id]).drop before.born
      rw [mem_drop_append_of_ne early same, or_iff_left different]
      exact told
  born flag member := by
    obtain ⟨place, found⟩ := List.mem_iff_getElem?.mp member
    obtain ⟨before, isBefore, -, sameBorn, -⟩ := flag_of_store found
    have early := sound.born before (List.mem_of_getElem? isBefore)
    rw [sameBorn]
    simp only [store, List.length_append]
    omega
  held := sound.held
  counted := sound.counted
  anonymous lease member empty := by
    obtain ⟨flag, isFlag, isId⟩ := sound.anonymous lease member empty
    obtain ⟨after, isAfter, same⟩ := flag_store isFlag id entry.cancelled
    exact ⟨after, isAfter, same.trans isId⟩
  unset flag member empty := by
    obtain ⟨place, isFlag⟩ := List.mem_iff_getElem?.mp member
    obtain ⟨before, isBefore, sameId, -, sameCancelled⟩ := flag_of_store isFlag
    obtain ⟨filled, own, isOwn, ownId⟩ := sound.named id entry found
    rw [sameId] at empty
    rw [sameCancelled, sound.unset before (List.mem_of_getElem? isBefore) empty, Bool.false_or,
      decide_eq_false_iff_not]
    rintro rfl
    rw [isBefore] at isOwn
    cases isOwn
    exact filled (ownId.symm.trans empty)
  unheard member := by
    rcases List.mem_append.mp member with old | new
    · exact sound.unheard old
    · exact (sound.named id entry found).1 (List.mem_singleton.mp new).symm

theorem sound_cancelOne (sound : r.Sound) (opened : r.state.closed = false) (nonempty : id ≠ "") :
    (r.cancelOne id).Sound ∧ (r.cancelOne id).state.closed = false := by
  have made := made_orDefault sound opened nonempty
  exact ⟨sound_store made.sound made.found, made.closed.trans opened⟩

theorem sound_cancelMany (sound : r.Sound) (ids : List String) : (r.cancelMany ids).2.Sound := by
  unfold cancelMany
  split
  · exact sound
  next opened =>
    rw [Bool.not_eq_true] at opened
    refine (List.foldlRecOn (ids.filter (· ≠ "")) cancelOne
      (motive := fun (next : Registry) => next.Sound ∧ next.state.closed = false)
      ⟨sound, opened⟩ fun next holds id member => ?_).1
    have nonempty : id ≠ "" := by simpa using (List.mem_filter.mp member).2
    exact sound_cancelOne holds.1 holds.2 nonempty

theorem sound_cancelActive (sound : r.Sound) : r.cancelActive.2.Sound := by
  unfold cancelActive
  split
  · exact sound
  · refine (List.foldlRecOn r.active (fun r entry => r.store entry.1 entry.2.cancelled)
      (motive := fun (next : Registry) => next.Sound ∧ next.state = r.state)
      ⟨sound, rfl⟩ fun next holds entry member => ?_).1
    have found : r.state.entries[entry.1]? = some entry.2 :=
      TreeMap.mem_toList_iff_getElem?_eq_some.mp (List.mem_filter.mp member).1
    rw [← holds.2] at found
    exact ⟨sound_store holds.1 found, holds.2⟩

/-! ## Acquiring, resetting and releasing -/

variable {leases : List RequestLease} {entries : TreeMap String Entry}

/-- Entries and leases change, while every entry keeps the flag it had. -/
theorem sound_update (sound : r.Sound) (opened : r.state.closed = false)
    (stays : ∀ (id : String) (entry : Entry), entries[id]? = some entry →
      ∃ old, r.state.entries[id]? = some old ∧ old.cancelled = entry.cancelled)
    (held : ∀ lease ∈ leases, lease.released = false → lease.id ≠ "" →
      ∃ entry, entries[lease.id]? = some entry ∧ entry.cancelled = lease.cancelled)
    (counted : ∀ id : String, id ≠ "" → (entries[id]?).elim 0 Entry.references =
      leases.countP fun lease => lease.id = id && !lease.released)
    (anonymous : ∀ lease ∈ leases, lease.id = "" →
      ∃ flag, r.flags[lease.cancelled]? = some flag ∧ flag.id = "") :
    Sound { r with state := { r.state with entries }, leases } where
  shut shut := by
    rw [show r.state.closed = true from shut] at opened
    cases opened
  named id entry found := by
    obtain ⟨old, isOld, same⟩ := stays id entry found
    rw [← same]
    exact sound.named id old isOld
  told id entry flag found isFlag := by
    obtain ⟨old, isOld, same⟩ := stays id entry found
    rw [← same] at isFlag
    exact sound.told id old flag isOld isFlag
  born := sound.born
  held _ := held
  counted _ := counted
  anonymous := anonymous
  unset := sound.unset
  unheard := sound.unheard

theorem sound_acquire_empty (sound : r.Sound) :
    Sound { r with
      flags := r.flags ++ [{ id := "", born := r.log.length }]
      leases := r.leases ++ [{ id := "", cancelled := r.flags.length }] } where
  shut := sound.shut
  named other entry found := by
    obtain ⟨filled, flag, isFlag, isId⟩ := sound.named other entry found
    exact ⟨filled, flag, flag_append isFlag _, isId⟩
  told other entry flag found isFlag := by
    obtain ⟨filled, before, isBefore, isId⟩ := sound.named other entry found
    obtain rfl := Option.some.inj ((flag_append isBefore _).symm.trans isFlag)
    exact sound.told other entry before found isBefore
  born flag member := by
    rcases List.mem_append.mp member with old | new
    · exact sound.born flag old
    · rw [List.mem_singleton.mp new]
  held opened lease member live named := by
    rcases List.mem_append.mp member with old | new
    · exact sound.held opened lease old live named
    · rw [List.mem_singleton.mp new] at named
      exact absurd rfl named
  counted opened other named := by
    refine (sound.counted opened other named).trans ?_
    simp [unreleased, Ne.symm named]
  anonymous lease member isEmpty := by
    rcases List.mem_append.mp member with old | new
    · obtain ⟨flag, isFlag, isId⟩ := sound.anonymous lease old isEmpty
      exact ⟨flag, flag_append isFlag _, isId⟩
    · rw [List.mem_singleton.mp new]
      exact ⟨{ id := "", born := r.log.length }, by simp, rfl⟩
  unset flag member isEmpty := by
    rcases List.mem_append.mp member with old | new
    · exact sound.unset flag old isEmpty
    · rw [List.mem_singleton.mp new]
  unheard := sound.unheard

theorem sound_acquire (sound : r.Sound) (id : String) : (r.acquire id).2.Sound := by
  unfold acquire
  split
  · exact sound
  next opened =>
    rw [Bool.not_eq_true] at opened
    split
    next empty =>
      subst empty
      exact sound_acquire_empty sound
    next nonempty =>
      have made := made_orDefault sound opened nonempty
      cases isMade : r.orDefault id with
      | mk entry middle =>
      rw [isMade] at made
      have opened := made.closed.trans opened
      refine sound_update made.sound opened ?_ ?_ ?_ ?_
      · intro other found isFound
        rw [getElem?_insert] at isFound
        split at isFound
        next same =>
          subst same
          cases isFound
          exact ⟨entry, made.found, rfl⟩
        next => exact ⟨found, isFound, rfl⟩
      · intro lease member live named
        rw [getElem?_insert]
        rcases List.mem_append.mp member with old | new
        · obtain ⟨held, isHeld, joined⟩ := made.sound.held opened lease old live named
          split
          next same =>
            rw [← same, made.found] at isHeld
            cases isHeld
            exact ⟨_, rfl, joined⟩
          next => exact ⟨held, isHeld, joined⟩
        · rw [List.mem_singleton.mp new, if_pos rfl]
          exact ⟨_, rfl, rfl⟩
      · intro other named
        have counted := made.sound.counted opened other named
        rw [getElem?_insert, List.countP_append, List.countP_singleton]
        unfold references unreleased at counted
        rw [← counted]
        by_cases same : id = other
        · subst same
          rw [made.found]
          simp
        · simp [same]
      · intro lease member isEmpty
        rcases List.mem_append.mp member with old | new
        · exact made.sound.anonymous lease old isEmpty
        · rw [List.mem_singleton.mp new] at isEmpty
          exact absurd isEmpty nonempty

variable {lease : RequestLease}

theorem unreleased_pos (member : lease ∈ r.leases)
    (live : lease.released = false) : 0 < r.unreleased lease.id := by
  rw [unreleased, List.countP_pos_iff]
  exact ⟨lease, member, by simp [live]⟩

theorem sound_resetOne (sound : r.Sound) (opened : r.state.closed = false) (id : String) :
    (r.resetOne id).Sound ∧ (r.resetOne id).state.closed = false := by
  unfold resetOne
  split
  next idle =>
    refine ⟨sound_update sound opened ?_ ?_ ?_ sound.anonymous, opened⟩
    · intro other entry isFound
      rw [getElem?_erase] at isFound
      split at isFound
      · cases isFound
      · exact ⟨entry, isFound, rfl⟩
    · intro lease member live named
      obtain ⟨entry, found, joined⟩ := sound.held opened lease member live named
      have different : id ≠ lease.id := by
        rintro rfl
        have counted := sound.counted opened lease.id named
        have positive := unreleased_pos member live
        rw [references_of_found found] at counted
        rw [found, Option.any_some, decide_eq_true_eq] at idle
        omega
      rw [getElem?_erase, if_neg different]
      exact ⟨entry, found, joined⟩
    · intro other named
      have counted := sound.counted opened other named
      unfold references unreleased at counted
      rw [← counted, getElem?_erase]
      split
      next same =>
        subst same
        obtain ⟨entry, found, none⟩ := (Option.any_eq_true _ _).mp idle
        rw [found]
        exact (of_decide_eq_true none).symm
      next => rfl
  next => exact ⟨sound, opened⟩

theorem sound_resetManyIfIdle (sound : r.Sound) (ids : List String) :
    (r.resetManyIfIdle ids).2.Sound := by
  unfold resetManyIfIdle
  split
  · exact sound
  next opened =>
    rw [Bool.not_eq_true] at opened
    exact (List.foldlRecOn ids resetOne
      (motive := fun (next : Registry) => next.Sound ∧ next.state.closed = false)
      ⟨sound, opened⟩ fun next holds id _ => sound_resetOne holds.1 holds.2 id).1

/-- A closed registry has no entries, and its leases only keep their ids and flags. -/
theorem sound_closed (sound : r.Sound) {state : State}
    (shut : state.closed = true) (empty : ∀ id : String, state.entries[id]? = none)
    (anonymous : ∀ lease ∈ leases, lease.id = "" →
      ∃ flag, r.flags[lease.cancelled]? = some flag ∧ flag.id = "") :
    Sound { r with state, leases } where
  shut _ := empty
  named id entry found := by
    rw [empty] at found
    cases found
  told id entry flag found := by
    rw [empty] at found
    cases found
  born := sound.born
  held opened := by
    rw [shut] at opened
    cases opened
  counted opened := by
    rw [shut] at opened
    cases opened
  anonymous := anonymous
  unset := sound.unset
  unheard := sound.unheard

theorem sound_shutdown (sound : r.Sound) : r.shutdown.Sound :=
  sound_closed sound rfl (fun _ => TreeMap.getElem?_emptyc) sound.anonymous

/-! ## Releasing -/

/-- The entries once a lease of the id has gone. -/
def dropReference (entries : TreeMap String Entry) (id : String) : TreeMap String Entry :=
  match entries[id]? with
  | none => entries
  | some entry =>
    if entry.references = 1 then entries.erase id
    else entries.insert id { entry with references := entry.references - 1 }

theorem getElem?_dropReference_of_ne (entries : TreeMap String Entry)
    (different : other ≠ id) : (dropReference entries id)[other]? = entries[other]? := by
  unfold dropReference
  split
  · rfl
  split
  · rw [getElem?_erase, if_neg (Ne.symm different)]
  · rw [getElem?_insert, if_neg (Ne.symm different)]

/-- The entry stays for another lease, with one reference less. -/
theorem getElem?_dropReference_self (found : entries[id]? = some entry) :
    (dropReference entries id)[id]? =
      if entry.references = 1 then none
      else some { entry with references := entry.references - 1 } := by
  unfold dropReference
  rw [found]
  dsimp only
  split
  · rw [getElem?_erase, if_pos rfl]
  · rw [getElem?_insert, if_pos rfl]

variable {position : Nat}

/-- A release of a live lease, where the count of its id does not run below none. -/
theorem release_eq (live : lease.released = false)
    (counts : ∀ entry, r.state.entries[lease.id]? = some entry → entry.references ≠ 0) :
    r.release position lease = some
      { r with
        state := { r.state with entries := dropReference r.state.entries lease.id }
        leases := r.leases.set position { lease with released := true } } := by
  unfold release dropReference
  rw [if_neg (by simp [live])]
  dsimp only
  cases found : r.state.entries[lease.id]? with
  | none => rfl
  | some entry =>
    have some := counts entry found
    dsimp only
    split
    next none => exact absurd none some
    next one => rw [if_pos one]
    next references one same =>
      rw [same, if_neg fun single => one (Nat.succ.inj single)]
      rfl

theorem release_released (r : Registry) (position : Nat)
    (released : lease.released = true) : r.release position lease = some r := by
  unfold release
  rw [if_pos released]

/-- The count of an id after one of the leases is released. -/
theorem countP_release
    (found : leases[position]? = some lease) (live : lease.released = false) (id : String) :
    (leases.set position { lease with released := true }).countP
        (fun lease => lease.id = id && !lease.released) +
      (if lease.id = id then 1 else 0) =
      leases.countP fun lease => lease.id = id && !lease.released := by
  obtain ⟨inside, isLease⟩ := List.getElem?_eq_some_iff.mp found
  rw [List.countP_set inside, isLease]
  by_cases same : lease.id = id
  · have positive : 0 < leases.countP fun lease => lease.id = id && !lease.released := by
      rw [List.countP_pos_iff]
      exact ⟨lease, List.mem_of_getElem? found, by simp [same, live]⟩
    simp [same, live]
    omega
  · simp [same]

theorem Sound.references_ne_zero (sound : r.Sound) (opened : r.state.closed = false)
    (member : lease ∈ r.leases) (live : lease.released = false)
    (found : r.state.entries[lease.id]? = some entry) : entry.references ≠ 0 := by
  have counted := sound.counted opened lease.id (sound.named _ _ found).1
  have positive := unreleased_pos member live
  rw [references_of_found found] at counted
  omega

/-- A lease of a sound registry is released without a count below none. -/
theorem Sound.release_eq (sound : r.Sound)
    (isLease : r.leases[position]? = some lease) (live : lease.released = false) :
    r.release position lease = some
      { r with
        state := { r.state with entries := dropReference r.state.entries lease.id }
        leases := r.leases.set position { lease with released := true } } := by
  refine Registry.release_eq live fun entry found => ?_
  cases shut : r.state.closed with
  | true =>
    rw [sound.shut shut] at found
    cases found
  | false => exact sound.references_ne_zero shut (List.mem_of_getElem? isLease) live found

theorem sound_release (sound : r.Sound)
    (isLease : r.leases[position]? = some lease) (live : lease.released = false) :
    Sound
      { r with
        state := { r.state with entries := dropReference r.state.entries lease.id }
        leases := r.leases.set position { lease with released := true } } := by
  have member := List.mem_of_getElem? isLease
  have anonymous : ∀ other ∈ r.leases.set position { lease with released := true },
      other.id = "" → ∃ flag, r.flags[other.cancelled]? = some flag ∧ flag.id = "" := by
    intro other isOther empty
    rcases List.mem_or_eq_of_mem_set isOther with old | rfl
    · exact sound.anonymous other old empty
    · exact sound.anonymous lease member empty
  cases shut : r.state.closed with
  | true =>
    refine sound_closed sound shut (fun id => ?_) anonymous
    show (dropReference r.state.entries lease.id)[id]? = none
    rw [dropReference, sound.shut shut]
    exact sound.shut shut id
  | false =>
    refine sound_update sound shut ?_ ?_ ?_ anonymous
    · intro other entry found
      by_cases same : other = lease.id
      · subst same
        cases before : r.state.entries[lease.id]? with
        | none =>
          rw [dropReference, before, before] at found
          cases found
        | some old =>
          rw [getElem?_dropReference_self before] at found
          split at found
          · cases found
          · cases found
            exact ⟨old, rfl, rfl⟩
      · rw [getElem?_dropReference_of_ne _ same] at found
        exact ⟨entry, found, rfl⟩
    · intro other isOther still named
      rcases List.mem_or_eq_of_mem_set isOther with old | rfl
      · obtain ⟨entry, found, joined⟩ := sound.held shut other old still named
        by_cases same : other.id = lease.id
        · have counted := sound.counted shut lease.id (same ▸ named)
          have release := countP_release isLease live lease.id
          have another : 0 < (r.leases.set position { lease with released := true }).countP
              fun other => other.id = lease.id && !other.released :=
            List.countP_pos_iff.mpr ⟨other, isOther, by simp [same, still]⟩
          rw [same] at found ⊢
          rw [references_of_found found, unreleased, ← release, if_pos rfl] at counted
          rw [getElem?_dropReference_self found, if_neg (by omega)]
          exact ⟨_, rfl, joined⟩
        · rw [getElem?_dropReference_of_ne _ same]
          exact ⟨entry, found, joined⟩
      · cases still
    · intro other named
      have counted := sound.counted shut other named
      have release := countP_release isLease live other
      unfold references unreleased at counted
      by_cases same : lease.id = other
      · subst same
        obtain ⟨entry, found, -⟩ := sound.held shut lease member live named
        have some := sound.references_ne_zero shut member live found
        rw [found, ← release, if_pos rfl] at counted
        rw [getElem?_dropReference_self found]
        have counted : entry.references = _ + 1 := counted
        split
        next one =>
          show 0 = _
          omega
        next more =>
          show entry.references - 1 = _
          omega
      · rw [if_neg same, Nat.add_zero] at release
        rw [getElem?_dropReference_of_ne _ (Ne.symm same), release]
        exact counted

/-! ## Every operation -/

/-- What a release leaves of a registry, which there is always. -/
theorem Sound.release_cases (sound : r.Sound) (isLease : r.leases[position]? = some lease) :
    (lease.released = true ∧ r.release position lease = some r) ∨
    (lease.released = false ∧ r.release position lease = some
      { r with
        state := { r.state with entries := dropReference r.state.entries lease.id }
        leases := r.leases.set position { lease with released := true } }) := by
  cases already : lease.released with
  | true => exact .inl ⟨rfl, release_released r position already⟩
  | false => exact .inr ⟨rfl, sound.release_eq isLease already⟩

theorem sound_step (sound : r.Sound) {operation : Operation} {after : Registry}
    (stepped : machine.step r operation = some after) : after.Sound := by
  cases operation <;>
    simp only [machine, perform, Option.map_some, Option.some.injEq, Option.map_map,
      Option.map_bind, Function.comp_def] at stepped
  case acquire id => exact stepped ▸ sound_acquire sound id
  case cancel id => exact stepped ▸ sound_cancelMany sound [id]
  case cancelMany ids => exact stepped ▸ sound_cancelMany sound ids
  case cancelActive => exact stepped ▸ sound_cancelActive sound
  case isCancelled => exact stepped ▸ sound
  case resetIfIdle id => exact stepped ▸ sound_resetManyIfIdle sound [id]
  case resetManyIfIdle ids => exact stepped ▸ sound_resetManyIfIdle sound ids
  case shutdown => exact stepped ▸ sound_shutdown sound
  case release position =>
    obtain ⟨lease, isLease, released⟩ := Option.bind_eq_some_iff.mp stepped
    obtain ⟨next, isNext, rfl⟩ := Option.map_eq_some_iff.mp released
    rcases sound.release_cases isLease with ⟨-, same⟩ | ⟨live, dropped⟩
    · exact Option.some.inj (same.symm.trans isNext) ▸ sound
    · exact Option.some.inj (dropped.symm.trans isNext) ▸ sound_release sound isLease live
  all_goals
    obtain ⟨lease, -, rfl⟩ := Option.map_eq_some_iff.mp stepped
    exact sound

theorem sound_of_reachable (reachable : machine.Reachable Transition.Machine.anyStep r) :
    r.Sound := by
  refine reachable.invariant ?_ fun state operation next _ sound _ stepped =>
    sound_step sound stepped
  rintro state ⟨domain, rfl⟩
  exact sound_new domain

end LosslessMusic.Cancellation.Registry
