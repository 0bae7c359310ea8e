import LosslessMusic.Cancellation.Leases

/-!
# What the registry of cancelled requests promises

Of every registry that any operations in any order lead to: its counts are those of the
unreleased leases, a lease sees exactly the cancellations of its id since the entry it
joined was made, a release never reaches an entry that another lease holds, a cancelled id
stays so until its entry goes, and a closed registry stays closed.
-/

namespace LosslessMusic.Cancellation.Registry

open Std (TreeMap)
open Transition (Machine)

variable {r : Registry}

/-- The ids that an operation cancels. -/
def cancels (r : Registry) (operation : Operation) : List String :=
  if r.state.closed then []
  else
    match operation with
    | .cancel id => [id].filter (· ≠ "")
    | .cancelMany ids => ids.filter (· ≠ "")
    | .cancelActive => r.active.map Prod.fst
    | _ => []

/-- The operation takes the entry of the id away: the id is reset while idle, its last
lease is released, or the registry is shut down. -/
def Drops (id : String) (r : Registry) : Operation → Prop
  | .resetIfIdle other => other = id ∧ r.references id = 0
  | .resetManyIfIdle ids => id ∈ ids ∧ r.references id = 0
  | .release position =>
    ∃ lease, r.leases[position]? = some lease ∧ lease.id = id ∧ lease.released = false ∧
      r.references id = 1
  | .shutdown => True
  | _ => False

/-- The operation has an error to report. -/
def Fallible : Operation → Bool
  | .shutdown | .release _ | .activeRequestCancelled _ => false
  | _ => true

/-! ## The record of what is cancelled -/

theorem log_orDefault (r : Registry) (id : String) : (r.orDefault id).2.log = r.log := by
  unfold orDefault
  split <;> rfl

theorem log_cancelOne (r : Registry) (id : String) : (r.cancelOne id).log = r.log ++ [id] := by
  show (r.orDefault id).2.log ++ [id] = _
  rw [log_orDefault]

theorem log_foldl {α : Type} (next : Registry → α → Registry) (name : α → String)
    (log_next : ∀ r item, (next r item).log = r.log ++ [name item]) (items : List α)
    (r : Registry) : (items.foldl next r).log = r.log ++ items.map name := by
  induction items generalizing r with
  | nil => rw [List.map_nil, List.append_nil, List.foldl_nil]
  | cons item items ih =>
    rw [List.foldl_cons, ih, log_next, List.map_cons, List.append_assoc]
    rfl

theorem log_resetOne (r : Registry) (id : String) : (r.resetOne id).log = r.log := by
  unfold resetOne
  split <;> rfl

theorem log_acquire (r : Registry) (id : String) : (r.acquire id).2.log = r.log := by
  unfold acquire
  split
  · rfl
  split
  · rfl
  · exact log_orDefault r id

theorem log_cancelMany (r : Registry) (ids : List String) :
    (r.cancelMany ids).2.log = r.log ++ r.cancels (.cancelMany ids) := by
  unfold cancelMany cancels
  split
  · exact (List.append_nil _).symm
  · refine (log_foldl cancelOne id log_cancelOne _ r).trans ?_
    rw [List.map_id]

theorem log_cancelActive (r : Registry) :
    r.cancelActive.2.log = r.log ++ r.cancels .cancelActive := by
  unfold cancelActive cancels
  split
  · exact (List.append_nil _).symm
  · exact log_foldl (fun r entry => r.store entry.1 entry.2.cancelled) Prod.fst
      (fun _ _ => rfl) r.active r

theorem log_resetManyIfIdle (r : Registry) (ids : List String) :
    (r.resetManyIfIdle ids).2.log = r.log := by
  unfold resetManyIfIdle
  split
  · rfl
  · exact List.foldlRecOn ids resetOne (motive := fun (next : Registry) => next.log = r.log) rfl
      fun next same id _ => (log_resetOne next id).trans same

/-! ## Flags stay set -/

/-- A set flag stays set. -/
def Keeps (r after : Registry) : Prop :=
  ∀ place, r.isSet place = true → after.isSet place = true

variable {id : String}

theorem hasCancelled_iff : r.hasCancelled id = true ↔
    ∃ entry, r.state.entries[id]? = some entry ∧ r.isSet entry.cancelled = true :=
  Option.any_eq_true _ _

variable {after : Registry}

theorem keeps_append {flag : Flag} (flags : after.flags = r.flags ++ [flag]) : Keeps r after := by
  intro place set
  obtain ⟨old, isOld, oldSet⟩ := (Option.any_eq_true _ _).mp set
  rw [isSet, flags, flag_append isOld]
  exact oldSet

theorem keeps_of_flags (flags : after.flags = r.flags) : Keeps r after := by
  intro place set
  rw [isSet, flags]
  exact set

theorem keeps_store (r : Registry) (id : String) (target : Nat) : Keeps r (r.store id target) := by
  intro place set
  obtain ⟨old, isOld, oldSet⟩ := (Option.any_eq_true _ _).mp set
  simp only [isSet, store, List.getElem?_modify, isOld, Option.map_eq_map, Option.map_some,
    Option.any_some]
  split
  · rfl
  · exact oldSet

theorem isSet_store {target : Nat} (inside : target < r.flags.length) :
    (r.store id target).isSet target = true := by
  simp [isSet, store, List.getElem?_eq_getElem inside]

theorem keeps_orDefault (r : Registry) (id : String) : Keeps r (r.orDefault id).2 := by
  unfold orDefault
  split
  · exact keeps_of_flags rfl
  · exact keeps_append rfl

theorem hasCancelled_of_keeps (keeps : Keeps r after)
    (stays : ∀ entry, r.state.entries[id]? = some entry →
      ∃ new, after.state.entries[id]? = some new ∧ new.cancelled = entry.cancelled)
    (cancelled : r.hasCancelled id = true) : after.hasCancelled id = true := by
  obtain ⟨entry, found, set⟩ := hasCancelled_iff.mp cancelled
  obtain ⟨new, isNew, same⟩ := stays entry found
  exact hasCancelled_iff.mpr ⟨new, isNew, same ▸ keeps entry.cancelled set⟩

variable {other : String} {entry : Entry}

theorem orDefault_of_found (found : r.state.entries[id]? = some entry) :
    (r.orDefault other).2.state.entries[id]? = some entry := by
  unfold orDefault
  split
  · exact found
  next absent =>
    have different : other ≠ id := by
      rintro rfl
      rw [absent] at found
      cases found
    show (r.state.entries.insert other _)[id]? = some entry
    rw [getElem?_insert, if_neg different]
    exact found

theorem orDefault_found (r : Registry) (id : String) :
    (r.orDefault id).2.state.entries[id]? = some (r.orDefault id).1 := by
  unfold orDefault
  split
  next found => exact found
  next => exact (getElem?_insert _ _ _ _).trans (if_pos rfl)

theorem hasCancelled_orDefault (other : String)
    (cancelled : r.hasCancelled id = true) : (r.orDefault other).2.hasCancelled id = true :=
  hasCancelled_of_keeps (keeps_orDefault r other)
    (fun entry found => ⟨entry, orDefault_of_found found, rfl⟩) cancelled

theorem hasCancelled_store (other : String) (target : Nat)
    (cancelled : r.hasCancelled id = true) : (r.store other target).hasCancelled id = true :=
  hasCancelled_of_keeps (keeps_store r other target) (fun entry found => ⟨entry, found, rfl⟩)
    cancelled

theorem hasCancelled_cancelOne (other : String)
    (cancelled : r.hasCancelled id = true) : (r.cancelOne other).hasCancelled id = true :=
  hasCancelled_store other _ (hasCancelled_orDefault other cancelled)

theorem hasCancelled_cancelMany (ids : List String)
    (cancelled : r.hasCancelled id = true) : (r.cancelMany ids).2.hasCancelled id = true := by
  unfold cancelMany
  split
  · exact cancelled
  · exact List.foldlRecOn (ids.filter (· ≠ "")) cancelOne
      (motive := fun (next : Registry) => next.hasCancelled id = true) cancelled
      fun next holds other _ => hasCancelled_cancelOne other holds

theorem hasCancelled_cancelActive (cancelled : r.hasCancelled id = true) :
    r.cancelActive.2.hasCancelled id = true := by
  unfold cancelActive
  split
  · exact cancelled
  · exact List.foldlRecOn r.active (fun r entry => r.store entry.1 entry.2.cancelled)
      (motive := fun (next : Registry) => next.hasCancelled id = true) cancelled
      fun next holds entry _ => hasCancelled_store entry.1 entry.2.cancelled holds

theorem hasCancelled_acquire (other : String)
    (cancelled : r.hasCancelled id = true) : (r.acquire other).2.hasCancelled id = true := by
  unfold acquire
  split
  · exact cancelled
  split
  · exact hasCancelled_of_keeps (keeps_append rfl) (fun entry found => ⟨entry, found, rfl⟩)
      cancelled
  · have made := hasCancelled_orDefault other cancelled
    refine hasCancelled_of_keeps (r := (r.orDefault other).2) (keeps_of_flags rfl) ?_ made
    intro entry found
    show ∃ new, ((r.orDefault other).2.state.entries.insert other _)[id]? = some new ∧ _
    rw [getElem?_insert]
    split
    next same =>
      subst same
      refine ⟨_, rfl, ?_⟩
      rw [orDefault_found] at found
      rw [← Option.some.inj found]
    next => exact ⟨entry, found, rfl⟩

/-! ## Entries that stay -/

theorem resetOne_entries (spared : other ≠ id ∨ r.references id ≠ 0) :
    (r.resetOne other).state.entries[id]? = r.state.entries[id]? := by
  unfold resetOne
  split
  next idle =>
    have different : other ≠ id := by
      rcases spared with different | held
      · exact different
      · rintro rfl
        obtain ⟨entry, found, none⟩ := (Option.any_eq_true _ _).mp idle
        rw [references_of_found found] at held
        exact held (of_decide_eq_true none)
    exact (getElem?_erase _ _ _).trans (if_neg different)
  next => rfl

variable {ids : List String}

theorem resetManyIfIdle_entries (spared : ¬(id ∈ ids ∧ r.references id = 0)) :
    (r.resetManyIfIdle ids).2.state.entries[id]? = r.state.entries[id]? := by
  unfold resetManyIfIdle
  split
  · rfl
  · refine List.foldlRecOn ids resetOne
      (motive := fun (next : Registry) => next.state.entries[id]? = r.state.entries[id]?) rfl
      fun next same other member => (resetOne_entries ?_).trans same
    rw [references, same]
    exact or_iff_not_imp_left.mpr fun equal none =>
      spared ⟨not_not.mp equal ▸ member, none⟩

theorem flags_resetManyIfIdle (r : Registry) (ids : List String) :
    (r.resetManyIfIdle ids).2.flags = r.flags := by
  unfold resetManyIfIdle
  split
  · rfl
  · refine List.foldlRecOn ids resetOne (motive := fun (next : Registry) => next.flags = r.flags)
      rfl fun next same id _ => Eq.trans ?_ same
    unfold resetOne
    split <;> rfl

theorem hasCancelled_resetManyIfIdle
    (spared : ¬(id ∈ ids ∧ r.references id = 0)) (cancelled : r.hasCancelled id = true) :
    (r.resetManyIfIdle ids).2.hasCancelled id = true :=
  hasCancelled_of_keeps (keeps_of_flags (flags_resetManyIfIdle r ids))
    (fun entry found => ⟨entry, (resetManyIfIdle_entries spared).trans found, rfl⟩) cancelled

theorem dropReference_stays {entries : TreeMap String Entry}
    (found : entries[id]? = some entry) (shared : other = id → entry.references ≠ 1) :
    ∃ new, (dropReference entries other)[id]? = some new ∧ new.cancelled = entry.cancelled := by
  by_cases same : other = id
  · subst same
    rw [getElem?_dropReference_self found, if_neg (shared rfl)]
    exact ⟨_, rfl, rfl⟩
  · rw [getElem?_dropReference_of_ne _ (Ne.symm same)]
    exact ⟨entry, found, rfl⟩

variable {operation : Operation}

theorem hasCancelled_step (sound : r.Sound)
    (spared : ¬Drops id r operation) (cancelled : r.hasCancelled id = true)
    (stepped : machine.step r operation = some after) : after.hasCancelled id = true := by
  cases operation <;>
    simp only [machine, perform, Option.map_some, Option.some.injEq, Option.map_map,
      Option.map_bind, Function.comp_def] at stepped
  case acquire other => exact stepped ▸ hasCancelled_acquire other cancelled
  case cancel other => exact stepped ▸ hasCancelled_cancelMany [other] cancelled
  case cancelMany ids => exact stepped ▸ hasCancelled_cancelMany ids cancelled
  case cancelActive => exact stepped ▸ hasCancelled_cancelActive cancelled
  case isCancelled => exact stepped ▸ cancelled
  case resetIfIdle other =>
    refine stepped ▸ hasCancelled_resetManyIfIdle (fun idle => spared ?_) cancelled
    exact ⟨(List.mem_singleton.mp idle.1).symm, idle.2⟩
  case resetManyIfIdle ids => exact stepped ▸ hasCancelled_resetManyIfIdle spared cancelled
  case shutdown => exact absurd trivial spared
  case release position =>
    obtain ⟨lease, isLease, released⟩ := Option.bind_eq_some_iff.mp stepped
    obtain ⟨next, isNext, rfl⟩ := Option.map_eq_some_iff.mp released
    rcases sound.release_cases isLease with ⟨-, same⟩ | ⟨live, dropped⟩
    · exact Option.some.inj (same.symm.trans isNext) ▸ cancelled
    · rw [← Option.some.inj (dropped.symm.trans isNext)]
      refine hasCancelled_of_keeps (r := r) (keeps_of_flags rfl) (fun entry found => ?_) cancelled
      refine dropReference_stays found fun same single => spared ?_
      exact ⟨lease, isLease, same, live, (references_of_found found).trans single⟩
  all_goals
    obtain ⟨lease, -, rfl⟩ := Option.map_eq_some_iff.mp stepped
    exact cancelled

theorem log_step (sound : r.Sound) (stepped : machine.step r operation = some after) :
    after.log = r.log ++ r.cancels operation := by
  have nothing : ∀ operation, r.cancels operation = [] → after.log = r.log →
      after.log = r.log ++ r.cancels operation := by
    intro operation none same
    rw [none, List.append_nil, same]
  cases operation <;>
    simp only [machine, perform, Option.map_some, Option.some.injEq, Option.map_map,
      Option.map_bind, Function.comp_def] at stepped
  case acquire id => exact nothing _ (ite_self _) (stepped ▸ log_acquire r id)
  case cancel id => exact stepped ▸ log_cancelMany r [id]
  case cancelMany ids => exact stepped ▸ log_cancelMany r ids
  case cancelActive => exact stepped ▸ log_cancelActive r
  case isCancelled => exact nothing _ (ite_self _) (stepped ▸ rfl)
  case resetIfIdle id => exact nothing _ (ite_self _) (stepped ▸ log_resetManyIfIdle r [id])
  case resetManyIfIdle ids => exact nothing _ (ite_self _) (stepped ▸ log_resetManyIfIdle r ids)
  case shutdown => exact nothing _ (ite_self _) (stepped ▸ rfl)
  case release position =>
    obtain ⟨lease, isLease, released⟩ := Option.bind_eq_some_iff.mp stepped
    obtain ⟨next, isNext, rfl⟩ := Option.map_eq_some_iff.mp released
    refine nothing _ (ite_self _) ?_
    rcases sound.release_cases isLease with ⟨-, same⟩ | ⟨-, dropped⟩
    · rw [← Option.some.inj (same.symm.trans isNext)]
    · rw [← Option.some.inj (dropped.symm.trans isNext)]
  all_goals
    obtain ⟨lease, -, rfl⟩ := Option.map_eq_some_iff.mp stepped
    exact nothing _ (ite_self _) rfl

/-! ## Cancelling takes effect -/

theorem hasCancelled_store_self (sound : r.Sound) (found : r.state.entries[id]? = some entry) :
    (r.store id entry.cancelled).hasCancelled id = true := by
  obtain ⟨-, flag, isFlag, -⟩ := sound.named id entry found
  exact hasCancelled_iff.mpr ⟨entry, found, isSet_store (List.getElem?_eq_some_iff.mp isFlag).1⟩

theorem cancelled_foldl {α : Type} {next : Registry → α → Registry} (name : α → String)
    (Fits : Registry → α → Prop)
    (taken : ∀ r item, Fits r item → (next r item).hasCancelled (name item) = true)
    (fits : ∀ r item other, Fits r item → Fits r other → Fits (next r item) other)
    (stays : ∀ r item id, r.hasCancelled id = true → (next r item).hasCancelled id = true) :
    ∀ (items : List α) (r : Registry), (∀ item ∈ items, Fits r item) → ∀ item ∈ items,
      (items.foldl next r).hasCancelled (name item) = true := by
  intro items
  induction items with
  | nil => nofun
  | cons head items ih =>
    intro r all item member
    rw [List.foldl_cons]
    have first := all head List.mem_cons_self
    rcases List.mem_cons.mp member with rfl | later
    · exact List.foldlRecOn items next
        (motive := fun (reached : Registry) => reached.hasCancelled (name item) = true)
        (taken r item first) fun reached holds other _ => stays reached other _ holds
    · exact ih _
        (fun other isOther => fits r head other first (all other (List.mem_cons_of_mem _ isOther)))
        item later

theorem hasCancelled_cancelMany_self (sound : r.Sound) (opened : r.state.closed = false)
    (member : id ∈ ids) (nonempty : id ≠ "") : (r.cancelMany ids).2.hasCancelled id = true := by
  rw [cancelMany, if_neg (by simp [opened])]
  refine cancelled_foldl (fun id => id)
    (fun r id => r.Sound ∧ r.state.closed = false ∧ id ≠ "") ?_ ?_ ?_
    (ids.filter (· ≠ "")) r ?_ id (List.mem_filter.mpr ⟨member, by simpa using nonempty⟩)
  · rintro r id ⟨sound, opened, nonempty⟩
    have made := made_orDefault sound opened nonempty
    exact hasCancelled_store_self made.sound made.found
  · rintro r id other ⟨sound, opened, nonempty⟩ ⟨-, -, filled⟩
    have next := sound_cancelOne sound opened nonempty
    exact ⟨next.1, next.2, filled⟩
  · exact fun r other id => hasCancelled_cancelOne other
  · intro other isOther
    exact ⟨sound, opened, by simpa using (List.mem_filter.mp isOther).2⟩

theorem hasCancelled_cancelActive_self (sound : r.Sound) (opened : r.state.closed = false)
    (member : id ∈ r.active.map Prod.fst) : r.cancelActive.2.hasCancelled id = true := by
  obtain ⟨entry, isActive, rfl⟩ := List.mem_map.mp member
  rw [cancelActive, if_neg (by simp [opened])]
  refine cancelled_foldl Prod.fst
    (fun r entry => r.Sound ∧ r.state.entries[entry.1]? = some entry.2) ?_ ?_ ?_
    r.active r ?_ entry isActive
  · rintro r entry ⟨sound, found⟩
    exact hasCancelled_store_self sound found
  · rintro r entry other ⟨sound, found⟩ ⟨-, present⟩
    exact ⟨sound_store sound found, present⟩
  · exact fun r entry id => hasCancelled_store entry.1 entry.2.cancelled
  · intro other isOther
    exact ⟨sound, TreeMap.mem_toList_iff_getElem?_eq_some.mp (List.mem_filter.mp isOther).1⟩

theorem hasCancelled_of_cancels (sound : r.Sound) (stepped : machine.step r operation = some after)
    (cancelled : id ∈ r.cancels operation) : after.hasCancelled id = true := by
  unfold cancels at cancelled
  split at cancelled
  · cases cancelled
  next opened =>
    rw [Bool.not_eq_true] at opened
    cases operation <;> simp only [machine, perform, Option.map_some, Option.some.injEq] at stepped
    case cancel other =>
      obtain ⟨member, filled⟩ := List.mem_filter.mp cancelled
      exact stepped ▸ hasCancelled_cancelMany_self sound opened member (by simpa using filled)
    case cancelMany ids =>
      obtain ⟨member, filled⟩ := List.mem_filter.mp cancelled
      exact stepped ▸ hasCancelled_cancelMany_self sound opened member (by simpa using filled)
    case cancelActive => exact stepped ▸ hasCancelled_cancelActive_self sound opened cancelled
    all_goals cases cancelled

theorem mem_active (sound : r.Sound) (opened : r.state.closed = false) :
    id ∈ r.active.map Prod.fst ↔ id ≠ "" ∧ 0 < r.unreleased id := by
  constructor
  · intro member
    obtain ⟨entry, isActive, rfl⟩ := List.mem_map.mp member
    obtain ⟨isEntry, held⟩ := List.mem_filter.mp isActive
    have found := TreeMap.mem_toList_iff_getElem?_eq_some.mp isEntry
    have nonempty := (sound.named _ _ found).1
    rw [← sound.counted opened _ nonempty, references_of_found found]
    exact ⟨nonempty, of_decide_eq_true held⟩
  · rintro ⟨nonempty, positive⟩
    rw [← sound.counted opened _ nonempty] at positive
    cases found : r.state.entries[id]? with
    | none =>
      rw [references_of_absent found] at positive
      cases positive
    | some entry =>
      rw [references_of_found found] at positive
      exact List.mem_map.mpr ⟨(id, entry), List.mem_filter.mpr
        ⟨TreeMap.mem_toList_iff_getElem?_eq_some.mpr found, decide_eq_true positive⟩, rfl⟩

/-! ## What is promised -/

/-- A release that was asked of a lease. -/
structure Released (r : Registry) (position : Nat) (lease : RequestLease) (after : Registry) :
    Prop where
  once : lease.released = true → after = r
  marked : ∃ spent, after.leases[position]? = some spent ∧ spent.released = true
  leases : ∀ other, other ≠ position → after.leases[other]? = r.leases[other]?
  flags : after.flags = r.flags
  entries : ∀ id, id ≠ lease.id → after.state.entries[id]? = r.state.entries[id]?
  spared : r.state.closed = false → ∀ other live, other ≠ position → live.released = false →
    live.id ≠ "" → r.leases[other]? = some live →
    ∃ entry, after.state.entries[live.id]? = some entry ∧ entry.cancelled = live.cancelled

/-- What a registry promises. -/
structure Promised (r : Registry) : Prop where
  /-- The count of an id is the number of its unreleased leases. -/
  counted : r.state.closed = false → ∀ id, id ≠ "" → r.references id = r.unreleased id
  /-- A release never counts below none, happens once, and reaches no entry another lease
  holds. -/
  released : ∀ position lease, r.leases[position]? = some lease →
    ∃ after, r.release position lease = some after ∧ Released r position lease after
  /-- A lease sees whether its id was cancelled since the entry that it joined was made. -/
  observed : r.state.closed = false → ∀ lease ∈ r.leases, lease.released = false →
    ∃ flag, r.flags[lease.cancelled]? = some flag ∧ flag.id = lease.id ∧
      r.leaseIsCancelled lease = .flag (decide (lease.id ∈ r.log.drop flag.born))
  /-- What is cancelled is recorded, and takes effect. -/
  cancelled : ∀ operation after, machine.step r operation = some after →
    after.log = r.log ++ r.cancels operation ∧
      ∀ id ∈ r.cancels operation, after.hasCancelled id = true
  /-- All leases are cancelled through their ids. -/
  active : r.state.closed = false → ∀ id, id ∈ r.active.map Prod.fst ↔ id ≠ "" ∧ 0 < r.unreleased id
  /-- A cancelled id stays cancelled until its entry is dropped. -/
  stays : ∀ id, r.hasCancelled id = true →
    ∀ after, machine.Path (fun r operation => ¬Drops id r operation) r after →
      after.hasCancelled id = true
  /-- A closed registry stays closed, and every operation that can fail says that it is. -/
  closed : r.state.closed = true → ∀ operation reply after,
    r.perform operation = some (reply, after) →
    after.state.closed = true ∧ (Fallible operation = true → reply = .failed .registryClosed)

theorem Sound.released (sound : r.Sound) {position : Nat} {lease : RequestLease}
    (isLease : r.leases[position]? = some lease) :
    ∃ after, r.release position lease = some after ∧ Released r position lease after := by
  have held (other : Nat) (live : RequestLease) (opened : r.state.closed = false)
      (unspent : live.released = false) (nonempty : live.id ≠ "")
      (isLive : r.leases[other]? = some live) :=
    sound.held opened live (List.mem_of_getElem? isLive) unspent nonempty
  rcases sound.release_cases isLease with ⟨spent, same⟩ | ⟨live, dropped⟩
  · exact ⟨r, same, fun _ => rfl, ⟨lease, isLease, spent⟩, fun _ _ => rfl, rfl, fun _ _ => rfl,
      fun opened other live _ unspent nonempty isLive =>
        held other live opened unspent nonempty isLive⟩
  · refine ⟨_, dropped, ?_, ?_, ?_, rfl, ?_, ?_⟩
    · intro spent
      rw [live] at spent
      cases spent
    · have inside := (List.getElem?_eq_some_iff.mp isLease).1
      exact ⟨{ lease with released := true }, by simp [inside], rfl⟩
    · intro other different
      exact List.getElem?_set_ne (Ne.symm different)
    · intro id different
      exact getElem?_dropReference_of_ne _ different
    · intro opened other another different unspent nonempty isAnother
      refine (sound_release sound isLease live).held opened another ?_ unspent nonempty
      refine List.mem_of_getElem? (i := other) ?_
      exact (List.getElem?_set_ne (Ne.symm different)).trans isAnother

theorem Sound.observed (sound : r.Sound) (opened : r.state.closed = false)
    {lease : RequestLease} (member : lease ∈ r.leases) (live : lease.released = false) :
    ∃ flag, r.flags[lease.cancelled]? = some flag ∧ flag.id = lease.id ∧
      r.leaseIsCancelled lease = .flag (decide (lease.id ∈ r.log.drop flag.born)) := by
  have reply (flag : Flag) (isFlag : r.flags[lease.cancelled]? = some flag) :
      r.leaseIsCancelled lease = .flag flag.cancelled := by
    simp [leaseIsCancelled, checkLive, opened, live, isSet, isFlag]
  by_cases empty : lease.id = ""
  · obtain ⟨flag, isFlag, isId⟩ := sound.anonymous lease member empty
    refine ⟨flag, isFlag, isId.trans empty.symm, ?_⟩
    rw [reply flag isFlag, sound.unset flag (List.mem_of_getElem? isFlag) isId, empty,
      decide_eq_false fun heard => sound.unheard (List.mem_of_mem_drop heard)]
  · obtain ⟨entry, found, joined⟩ := sound.held opened lease member live empty
    obtain ⟨-, flag, isFlag, isId⟩ := sound.named _ _ found
    have told := sound.told _ _ flag found isFlag
    rw [joined] at isFlag
    refine ⟨flag, isFlag, isId, ?_⟩
    rw [reply flag isFlag]
    exact congrArg Reply.flag (Bool.eq_iff_iff.mpr (told.trans decide_eq_true_iff.symm))

/-- Every use of a lease is refused once the registry is closed. -/
theorem leaseIsCancelled_closed (shut : r.state.closed = true) (lease : RequestLease) :
    r.leaseIsCancelled lease = .failed .registryClosed := by
  rw [leaseIsCancelled, checkLive, if_pos shut]

theorem perform_closed (sound : r.Sound) (shut : r.state.closed = true)
    {reply : Reply} (performed : r.perform operation = some (reply, after)) :
    after.state.closed = true ∧ (Fallible operation = true → reply = .failed .registryClosed) := by
  have refused {outcome : Reply × Registry} (is : outcome = (reply, after))
      (failed : outcome = (.failed .registryClosed, r)) :
      after.state.closed = true ∧ (true = true → reply = .failed .registryClosed) := by
    cases is.symm.trans failed
    exact ⟨shut, fun _ => rfl⟩
  cases operation
  case acquire id => exact refused (Option.some.inj performed) (if_pos shut)
  case cancel id => exact refused (Option.some.inj performed) (if_pos shut)
  case cancelMany ids => exact refused (Option.some.inj performed) (if_pos shut)
  case cancelActive => exact refused (Option.some.inj performed) (if_pos shut)
  case isCancelled id =>
    refine refused (Option.some.inj performed) ?_
    rw [isCancelled, if_pos shut]
  case resetIfIdle id => exact refused (Option.some.inj performed) (if_pos shut)
  case resetManyIfIdle ids => exact refused (Option.some.inj performed) (if_pos shut)
  case shutdown =>
    cases performed
    exact ⟨rfl, nofun⟩
  case release position =>
    obtain ⟨lease, isLease, released⟩ := Option.bind_eq_some_iff.mp performed
    obtain ⟨next, isNext, same⟩ := Option.map_eq_some_iff.mp released
    cases same
    refine ⟨?_, nofun⟩
    rcases sound.release_cases isLease with ⟨-, same⟩ | ⟨-, dropped⟩
    · rw [← Option.some.inj (same.symm.trans isNext)]
      exact shut
    · rw [← Option.some.inj (dropped.symm.trans isNext)]
      exact shut
  case activeRequestCancelled position =>
    obtain ⟨lease, -, same⟩ := Option.map_eq_some_iff.mp performed
    cases same
    exact ⟨shut, nofun⟩
  case leaseIsCancelled position =>
    obtain ⟨lease, -, same⟩ := Option.map_eq_some_iff.mp performed
    exact refused same (by rw [leaseIsCancelled_closed shut])
  case checkActive position =>
    obtain ⟨lease, -, same⟩ := Option.map_eq_some_iff.mp performed
    exact refused same (by rw [checkActive, leaseIsCancelled_closed shut])
  case waitCancelled position expired =>
    obtain ⟨lease, -, same⟩ := Option.map_eq_some_iff.mp performed
    exact refused same (by rw [waitCancelled, leaseIsCancelled_closed shut])

/-- Every registry that operations in any order lead to keeps its promises. -/
theorem leases_promised (reachable : machine.Reachable Machine.anyStep r) : Promised r := by
  have sound := sound_of_reachable reachable
  refine
    { counted := sound.counted
      released := fun position lease isLease => sound.released isLease
      observed := fun opened lease member live => sound.observed opened member live
      cancelled := fun operation after stepped =>
        ⟨log_step sound stepped, fun id member => hasCancelled_of_cancels sound stepped member⟩
      active := fun opened id => mem_active sound opened
      stays := fun id cancelled after path => ?_
      closed := fun shut operation reply after performed => perform_closed sound shut performed }
  have kept : after.Sound ∧ after.hasCancelled id = true :=
    path.preserves (motive := fun (next : Registry) => next.Sound ∧ next.hasCancelled id = true)
      ⟨sound, cancelled⟩ fun state operation next holds spared stepped =>
        ⟨sound_step holds.1 stepped, hasCancelled_step holds.1 spared holds.2 stepped⟩
  exact kept.2

/-- A retry takes its lease before the cancelled attempt has released its own. -/
theorem leases_promised_retry : ∃ r : Registry, Promised r ∧ ∃ lease ∈ r.leases,
    lease.released = false ∧ r.leaseIsCancelled lease = .flag true := by
  have ran : ((machine.run { domain := .download }
      [.acquire "a", .cancel "a", .acquire "a", .release 0]).any fun r => r.leases.any fun lease =>
        !lease.released && decide (r.leaseIsCancelled lease = .flag true)) = true := by
    decide
  obtain ⟨r, reachable, found⟩ := machine.exists_reachable_of_run _ ⟨.download, rfl⟩ ran
  obtain ⟨lease, member, holds⟩ := List.any_eq_true.mp found
  rw [Bool.and_eq_true, Bool.not_eq_true', decide_eq_true_eq] at holds
  exact ⟨r, leases_promised reachable, lease, member, holds.1, holds.2⟩

/-- A lease without an id is live while nothing counts it. -/
theorem leases_uncounted : ¬∀ r : Registry, machine.Reachable Machine.anyStep r →
    (∀ id, r.references id = r.unreleased id) ∧
    (r.state.closed = true → ∀ operation reply after,
      r.perform operation = some (reply, after) → reply = .failed .registryClosed) := by
  intro claimed
  have reachable : machine.Reachable Machine.anyStep
      ((({ domain := .download } : Registry).acquire "").2) :=
    ⟨_, ⟨.download, rfl⟩, .step (.acquire "") .refl trivial rfl⟩
  have counted := (claimed _ reachable).1 ""
  rw [references_of_absent TreeMap.getElem?_emptyc] at counted
  exact absurd counted (by decide)

end LosslessMusic.Cancellation.Registry
