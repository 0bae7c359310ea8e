import LosslessMusic.Progress.Registry

/-!
# Deltas reproduce the registry

An item, a tombstone or the reset mark bounds the last change of every id. A client that
knows the items as of its revision is told of all ids that changed later, and so it knows
the items as of the revision it is told.
-/

namespace LosslessMusic.Progress

open Std (TreeMap)
open Transition (Machine)

variable {target_arch : TargetArch}

/-- What the bridge shows of an item. -/
def view (target_arch : TargetArch) (items : TreeMap String ItemProgress) (id : String) :
    Option BridgeState :=
  (items[id]?).map (·.bridge target_arch)

variable {α : Type}

theorem getElem?_insert (map : TreeMap String α) (id other : String) (value : α) :
    (map.insert id value)[other]? = if id = other then some value else map[other]? := by
  rw [TreeMap.getElem?_insert]
  simp

theorem getElem?_erase (map : TreeMap String α) (id other : String) :
    (map.erase id)[other]? = if id = other then none else map[other]? := by
  rw [TreeMap.getElem?_erase]
  simp

variable {id : String}

/-- An item that the bridge shows as the old one makes no difference. -/
theorem view_insert {items : TreeMap String ItemProgress}
    {item after : ItemProgress} (found : items[id]? = some item)
    (alike : after.bridge target_arch = item.bridge target_arch) (other : String) :
    view target_arch (items.insert id after) other = view target_arch items other := by
  unfold view
  rw [getElem?_insert]
  split
  next same => rw [← same, found, Option.map_some, Option.map_some, alike]
  next => rfl

theorem getElem?_filter (map : TreeMap String α) (keep : String → α → Bool)
    (id : String) : (map.filter keep)[id]? = (map[id]?).filter (keep id) := by
  rw [TreeMap.getElem?_filter']

theorem getElem?_foldl_erase (ids : List String) (map : TreeMap String α) (id : String) :
    (ids.foldl TreeMap.erase map)[id]? = if id ∈ ids then none else map[id]? := by
  induction ids generalizing map with
  | nil => simp
  | cons head rest ih =>
    rw [List.foldl_cons, ih, getElem?_erase]
    by_cases same : head = id
    · simp [same]
    · simp [same, Ne.symm same]

theorem mem_keys_iff {map : TreeMap String α} : id ∈ map.keys ↔ (map[id]?).isSome = true := by
  rw [TreeMap.mem_keys, TreeMap.mem_iff_isSome_getElem?]

namespace State

variable {s : State}

/-- A bound on when an id changed last. -/
def changedAt (s : State) (id : String) : Int :=
  match s.items[id]? with
  | some item => item.revision
  | none => (s.removed[id]?).getD s.reset

/-- What holds of an open registry. -/
structure Sound (target_arch : TargetArch) (s : State) : Prop where
  counted : s.seq + 1 = s.record.length
  apart : ∀ id : String, (s.items[id]?).isSome = true → s.removed[id]? = none
  tombstones : ∀ (id : String) (revision : Int), s.removed[id]? = some revision → revision ≤ s.seq
  marked : s.reset ≤ s.seq
  revised : ∀ (id : String) (item : ItemProgress), s.items[id]? = some item → item.revision ≤ s.seq
  unchanged : ∀ (n : Nat) (items : TreeMap String ItemProgress), s.record[n]? = some items →
    ∀ id, s.changedAt id ≤ n → view target_arch items id = view target_arch s.items id

theorem sound_new : Sound target_arch {} where
  counted := rfl
  apart id present := by
    rw [TreeMap.getElem?_emptyc] at present
    cases present
  tombstones id revision found := by
    rw [TreeMap.getElem?_emptyc] at found
    cases found
  marked := Int.le_refl _
  revised id item found := by
    rw [TreeMap.getElem?_emptyc] at found
    cases found
  unchanged n items isRecord id _ := by
    obtain rfl := List.mem_singleton.mp (List.mem_of_getElem? isRecord)
    rfl

theorem Sound.changedAt_le (sound : s.Sound target_arch) (id : String) :
    s.changedAt id ≤ s.seq := by
  unfold changedAt
  split
  next item found => exact sound.revised id item found
  next absent =>
    cases found : s.removed[id]? with
    | none => exact sound.marked
    | some revision => exact sound.tombstones id revision found

theorem Sound.seq_nonneg (sound : s.Sound target_arch) (recorded : s.record ≠ []) : 0 ≤ s.seq := by
  have positive := List.length_pos_iff.mpr recorded
  have counted := sound.counted
  omega

theorem Sound.recorded (sound : s.Sound target_arch) (recorded : s.record ≠ []) :
    ∃ items, s.record[s.seq.toNat]? = some items ∧
      ∀ id, view target_arch items id = view target_arch s.items id := by
  have positive := List.length_pos_iff.mpr recorded
  have counted := sound.counted
  have inside : s.seq.toNat < s.record.length := by omega
  refine ⟨s.record[s.seq.toNat], List.getElem?_eq_getElem inside, fun id => ?_⟩
  refine sound.unchanged _ _ (List.getElem?_eq_getElem inside) id ?_
  have late := sound.changedAt_le id
  omega

theorem wrappingSucc_eq {value : Int} (low : 0 ≤ value) (high : value + 1 < 2 ^ 63) :
    wrappingSucc value = value + 1 := by
  rw [wrappingSucc, Int.bmod_eq_of_le] <;> omega

/-- Items of which one has changed, with the next revision. -/
theorem sound_change (sound : s.Sound target_arch) (changed : String)
    {items : TreeMap String ItemProgress compare} {removed : TreeMap String Int compare}
    (recorded : s.record ≠ []) (few : s.record.length < 2 ^ 63)
    (others : ∀ id, id ≠ changed → items[id]? = s.items[id]? ∧ removed[id]? = s.removed[id]?)
    (apart : (items[changed]?).isSome = true → removed[changed]? = none)
    (revised : ∀ item, items[changed]? = some item → item.revision = wrappingSucc s.seq)
    (tombstone : items[changed]? = none → removed[changed]? = some (wrappingSucc s.seq))
    (dropped : ∀ revision, removed[changed]? = some revision → revision = wrappingSucc s.seq) :
    Sound target_arch
      { s with seq := wrappingSucc s.seq, items, removed, record := s.record ++ [items] } := by
  have counted := sound.counted
  have next : wrappingSucc s.seq = s.seq + 1 :=
    wrappingSucc_eq (sound.seq_nonneg recorded) (by omega)
  rw [next] at revised tombstone dropped ⊢
  refine
    { counted := ?_, apart := fun id => ?_, tombstones := fun id revision => ?_
      marked := Int.le_trans sound.marked (Int.le_add_one (Int.le_refl _))
      revised := fun id item => ?_, unchanged := fun n before isRecord id => ?_ }
  · show s.seq + 1 + 1 = ((s.record ++ [items]).length : Int)
    rw [List.length_append, List.length_singleton]
    omega
  · show (items[id]?).isSome = true → removed[id]? = none
    by_cases same : id = changed
    · exact same ▸ apart
    · rw [(others id same).1, (others id same).2]
      exact sound.apart id
  · show removed[id]? = some revision → revision ≤ s.seq + 1
    intro found
    by_cases same : id = changed
    · exact Int.le_of_eq (dropped revision (same ▸ found))
    · rw [(others id same).2] at found
      have early := sound.tombstones id revision found
      omega
  · show items[id]? = some item → item.revision ≤ s.seq + 1
    intro found
    by_cases same : id = changed
    · exact Int.le_of_eq (revised item (same ▸ found))
    · rw [(others id same).1] at found
      have early := sound.revised id item found
      omega
  · show changedAt _ id ≤ n → view target_arch before id = view target_arch items id
    intro late
    change (s.record ++ [items])[n]? = some before at isRecord
    rcases Nat.lt_or_ge n s.record.length with old | new
    · rw [List.getElem?_append_left old] at isRecord
      by_cases same : id = changed
      · subst same
        unfold changedAt at late
        cases found : items[id]? with
        | some item =>
          simp only [found, revised item found] at late
          omega
        | none =>
          simp only [found, tombstone found, Option.getD_some] at late
          omega
      · have before := sound.unchanged n before isRecord id
        unfold changedAt at late before
        simp only [(others id same).1, (others id same).2] at late
        rw [before late, view, view, (others id same).1]
    · rw [List.getElem?_append_right new] at isRecord
      obtain rfl := List.mem_singleton.mp (List.mem_of_getElem? isRecord)
      rfl

theorem sound_start (sound : s.Sound target_arch) (recorded : s.record ≠ [])
    (few : s.record.length < 2 ^ 63) (id : String) : (s.start id).Sound target_arch := by
  refine sound_change sound id recorded few ?_ ?_ ?_ ?_ ?_
  · intro other different
    rw [getElem?_insert, getElem?_erase, if_neg (Ne.symm different), if_neg (Ne.symm different)]
    exact ⟨rfl, rfl⟩
  · intro _
    rw [getElem?_erase, if_pos rfl]
  · intro item found
    rw [getElem?_insert, if_pos rfl] at found
    cases found
    rfl
  · intro absent
    rw [getElem?_insert, if_pos rfl] at absent
    cases absent
  · intro revision found
    rw [getElem?_erase, if_pos rfl] at found
    cases found

theorem revision_apply (item : ItemProgress) (update : Update) :
    (update.apply item).revision = item.revision := by
  cases update <;> simp only [Update.apply]
  case preparing => rfl
  case downloading => rfl
  case set_received received =>
    simp only [ItemProgress.setReceived]
    split <;> split <;> rfl
  case set_received_with_speed received speed =>
    simp only [ItemProgress.setReceivedWithSpeed, ItemProgress.setReceived]
    split <;> split <;> rfl
  case set_progress progress received total =>
    simp only [ItemProgress.setProgress]
    repeat' split
    all_goals rfl
  case finalizing => rfl
  case complete => rfl

theorem sound_silent (sound : s.Sound target_arch) {item after : ItemProgress}
    (found : s.items[id]? = some item) (revision : after.revision = item.revision)
    (alike : after.bridge target_arch = item.bridge target_arch) :
    Sound target_arch { s with items := s.items.insert id after } := by
  have kept (other : String) :
      changedAt { s with items := s.items.insert id after } other = s.changedAt other := by
    unfold changedAt
    show (match (s.items.insert id after)[other]? with
      | some item => item.revision
      | none => (s.removed[other]?).getD s.reset) = _
    rw [getElem?_insert]
    by_cases same : id = other
    · subst same
      rw [if_pos rfl, found]
      exact revision
    · rw [if_neg same]
  refine
    { counted := sound.counted, apart := fun other => ?_, tombstones := sound.tombstones
      marked := sound.marked, revised := fun other item' => ?_
      unchanged := fun n before isRecord other late => ?_ }
  · show ((s.items.insert id after)[other]?).isSome = true → s.removed[other]? = none
    rw [getElem?_insert]
    split
    next same =>
      intro _
      refine sound.apart other ?_
      rw [← same, found]
      rfl
    next => exact sound.apart other
  · show (s.items.insert id after)[other]? = some item' → item'.revision ≤ s.seq
    rw [getElem?_insert]
    split
    next =>
      intro is
      rw [← Option.some.inj is, revision]
      exact sound.revised id item found
    next => exact sound.revised other item'
  · rw [kept] at late
    exact (sound.unchanged n before isRecord other late).trans (view_insert found alike other).symm

theorem getD_mergeSort_le {values : List Int} {bound : Int} (nonneg : 0 ≤ bound)
    (below : ∀ value ∈ values, value ≤ bound) (position : Nat) :
    values.mergeSort.getD position 0 ≤ bound := by
  rw [List.getD_eq_getElem?_getD]
  cases found : values.mergeSort[position]? with
  | none => exact nonneg
  | some value => exact below value (List.mem_mergeSort.mp (List.mem_of_getElem? found))

/-- Without the tombstones up to a revision that the reset mark then covers. -/
theorem sound_prune (sound : s.Sound target_arch) {cutoff : Int} (early : cutoff ≤ s.seq) :
    Sound target_arch
      { s with
        removed := s.removed.filter fun _ revision => revision > cutoff
        reset := max s.reset cutoff } := by
  have pruned (id : String) : (s.removed.filter fun _ revision => decide (revision > cutoff))[id]? =
        (s.removed[id]?).filter fun revision => decide (revision > cutoff) :=
    getElem?_filter _ _ id
  have later (id : String) : s.changedAt id ≤ changedAt
        { s with
          removed := s.removed.filter fun _ revision => revision > cutoff
          reset := max s.reset cutoff } id := by
    unfold changedAt
    dsimp only
    split
    · exact Int.le_refl _
    · rw [pruned]
      cases s.removed[id]? with
      | none => exact Int.le_max_left _ _
      | some revision =>
        rw [Option.filter_some]
        split
        · exact Int.le_refl _
        next small =>
          rw [decide_eq_true_eq] at small
          show revision ≤ max s.reset cutoff
          omega
  refine
    { counted := sound.counted, apart := fun id present => ?_, tombstones := fun id revision => ?_
      marked := Int.max_le.mpr ⟨sound.marked, early⟩, revised := sound.revised
      unchanged := fun n before isRecord id late =>
        sound.unchanged n before isRecord id (Int.le_trans (later id) late) }
  · show (s.removed.filter fun _ revision => decide (revision > cutoff))[id]? = none
    rw [pruned, sound.apart id present]
    rfl
  · show (s.removed.filter fun _ revision => decide (revision > cutoff))[id]? = some revision → _
    rw [pruned]
    intro found
    exact sound.tombstones id revision (Option.filter_eq_some_iff.mp found).1

theorem sound_removeOne (sound : s.Sound target_arch) (recorded : s.record ≠ [])
    (few : s.record.length < 2 ^ 63) (id : String) : (s.removeOne id).Sound target_arch := by
  unfold removeOne
  split
  next present =>
    have removal : Sound target_arch
        { s with
          seq := wrappingSucc s.seq
          items := s.items.erase id
          removed := s.removed.insert id (wrappingSucc s.seq)
          record := s.record ++ [s.items.erase id] } := by
      refine sound_change sound id recorded few ?_ ?_ ?_ ?_ ?_
      · intro other different
        rw [getElem?_erase, getElem?_insert, if_neg (Ne.symm different), if_neg (Ne.symm different)]
        exact ⟨rfl, rfl⟩
      · intro kept
        rw [getElem?_erase, if_pos rfl] at kept
        cases kept
      · intro item found
        rw [getElem?_erase, if_pos rfl] at found
        cases found
      · intro _
        rw [getElem?_insert, if_pos rfl]
      · intro revision found
        rw [getElem?_insert, if_pos rfl] at found
        exact (Option.some.inj found).symm
    dsimp only
    split
    · refine sound_prune removal (getD_mergeSort_le ?_ ?_ _)
      · exact removal.seq_nonneg (by simp)
      · intro revision member
        obtain ⟨⟨other, _⟩, isEntry, rfl⟩ := List.mem_map.mp member
        exact removal.tombstones other _ (TreeMap.mem_toList_iff_getElem?_eq_some.mp isEntry)
    · exact removal
  next => exact sound

/-- Later states have recorded all that earlier ones have. -/
def Recorded (s after : State) : Prop :=
  ∃ more, after.record = s.record ++ more

theorem Recorded.refl (s : State) : Recorded s s :=
  ⟨[], (List.append_nil _).symm⟩

variable {after : State}

theorem Recorded.trans {middle : State} (first : Recorded s middle)
    (second : Recorded middle after) : Recorded s after := by
  obtain ⟨more, isMore⟩ := first
  obtain ⟨further, isFurther⟩ := second
  exact ⟨more ++ further, by rw [isFurther, isMore, List.append_assoc]⟩

theorem Recorded.length_le (recorded : Recorded s after) :
    s.record.length ≤ after.record.length := by
  obtain ⟨more, isMore⟩ := recorded
  rw [isMore, List.length_append]
  exact Nat.le_add_right _ _

theorem Recorded.ne_nil (recorded : Recorded s after) (some : s.record ≠ []) :
    after.record ≠ [] := by
  obtain ⟨more, isMore⟩ := recorded
  rw [isMore]
  exact List.append_ne_nil_of_left_ne_nil some more

theorem recorded_removeOne (s : State) (id : String) : Recorded s (s.removeOne id) := by
  unfold removeOne
  split
  · dsimp only
    split <;> exact ⟨_, rfl⟩
  · exact .refl s

theorem recorded_removeMany (s : State) (ids : List String) : Recorded s (s.removeMany ids) :=
  List.foldlRecOn ids removeOne (motive := fun (next : State) => Recorded s next) (.refl s)
    fun next recorded id _ => recorded.trans (recorded_removeOne next id)

theorem recorded_update (s : State) (id : String) (update : Update) :
    Recorded s (s.update target_arch id update) := by
  unfold State.update
  split
  · exact .refl s
  · dsimp only
    split
    · exact ⟨_, rfl⟩
    · exact ⟨[], (List.append_nil _).symm⟩

/-- What an operation of an open registry does. -/
structure Advances (target_arch : TargetArch) (s after : State) : Prop where
  sound : after.Sound target_arch
  closed : after.closed = s.closed
  ordered : s.seq ≤ after.seq
  silent : after.seq = s.seq → ∀ id, view target_arch after.items id = view target_arch s.items id

theorem Advances.refl (sound : s.Sound target_arch) : Advances target_arch s s :=
  ⟨sound, rfl, Int.le_refl _, fun _ _ => rfl⟩

theorem Advances.trans {middle : State} (first : Advances target_arch s middle)
    (second : Advances target_arch middle after) : Advances target_arch s after where
  sound := second.sound
  closed := second.closed.trans first.closed
  ordered := Int.le_trans first.ordered second.ordered
  silent same id := by
    have up := first.ordered
    have further := second.ordered
    exact (second.silent (by omega) id).trans (first.silent (by omega) id)

theorem advances_of_next (sound : s.Sound target_arch)
    (afterwards : after.Sound target_arch) (closed : after.closed = s.closed)
    (recorded : ∃ items, after.record = s.record ++ [items]) : Advances target_arch s after := by
  obtain ⟨items, isRecord⟩ := recorded
  have before := sound.counted
  have counted := afterwards.counted
  rw [isRecord, List.length_append, List.length_singleton] at counted
  refine ⟨afterwards, closed, by omega, fun same => ?_⟩
  omega

theorem advances_start (sound : s.Sound target_arch) (recorded : s.record ≠ []) (id : String)
    (few : (s.start id).record.length ≤ 2 ^ 63) : Advances target_arch s (s.start id) := by
  have length : (s.start id).record.length = s.record.length + 1 := List.length_append
  exact advances_of_next sound (sound_start sound recorded (by omega) id) rfl ⟨_, rfl⟩

theorem advances_update (sound : s.Sound target_arch) (recorded : s.record ≠ []) (id : String)
    (update : Update) (few : (s.update target_arch id update).record.length ≤ 2 ^ 63) :
    Advances target_arch s (s.update target_arch id update) := by
  unfold State.update at few ⊢
  cases found : s.items[id]? with
  | none => exact .refl sound
  | some item =>
    simp only [found] at few ⊢
    split
    next shown =>
      rw [if_pos shown, List.length_append, List.length_singleton] at few
      refine advances_of_next sound ?_ rfl ⟨_, rfl⟩
      refine sound_change sound id recorded (by omega) ?_ ?_ ?_ ?_ ?_
      · intro other different
        rw [getElem?_insert, if_neg (Ne.symm different)]
        exact ⟨rfl, rfl⟩
      · intro _
        refine sound.apart id ?_
        rw [found]
        rfl
      · intro after isAfter
        rw [getElem?_insert, if_pos rfl] at isAfter
        rw [← Option.some.inj isAfter]
      · intro absent
        rw [getElem?_insert, if_pos rfl] at absent
        cases absent
      · intro revision isTombstone
        rw [sound.apart id (by rw [found]; rfl)] at isTombstone
        cases isTombstone
    next alike =>
      rw [Decidable.not_not] at alike
      refine ⟨sound_silent sound found (revision_apply item update) alike, rfl, Int.le_refl _,
        fun _ other => view_insert found alike other⟩

theorem advances_removeOne (sound : s.Sound target_arch) (recorded : s.record ≠ []) (id : String)
    (few : (s.removeOne id).record.length ≤ 2 ^ 63) : Advances target_arch s (s.removeOne id) := by
  by_cases present : s.items.contains id = true
  · have next : ∃ items, (s.removeOne id).record = s.record ++ [items] := by
      rw [removeOne, if_pos present]
      dsimp only
      split <;> exact ⟨_, rfl⟩
    have closed : (s.removeOne id).closed = s.closed := by
      rw [removeOne, if_pos present]
      dsimp only
      split <;> rfl
    obtain ⟨items, isNext⟩ := next
    rw [isNext, List.length_append, List.length_singleton] at few
    exact advances_of_next sound (sound_removeOne sound recorded (by omega) id) closed
      ⟨items, isNext⟩
  · rw [removeOne, if_neg present]
    exact .refl sound

theorem advances_removeMany (ids : List String) {s : State} (sound : s.Sound target_arch)
    (recorded : s.record ≠ []) (few : (s.removeMany ids).record.length ≤ 2 ^ 63) :
    Advances target_arch s (s.removeMany ids) := by
  induction ids generalizing s with
  | nil => exact .refl sound
  | cons id ids ih =>
    have later := (recorded_removeMany (s.removeOne id) ids).length_le
    have first := advances_removeOne sound recorded id (Nat.le_trans later few)
    exact first.trans (ih first.sound ((recorded_removeOne s id).ne_nil recorded) few)

/-! ## Clients -/

/-- The client knows the items as of its revision. -/
def Knows (target_arch : TargetArch) (s : State) (client : Client) : Prop :=
  0 ≤ client.seq ∧ ∃ items, s.record[client.seq.toNat]? = some items ∧
    ∀ id, view target_arch client.items id = view target_arch items id

theorem Knows.later {client : Client} (knows : s.Knows target_arch client)
    (recorded : Recorded s after) : after.Knows target_arch client := by
  obtain ⟨nonneg, items, isRecord, known⟩ := knows
  obtain ⟨more, isMore⟩ := recorded
  refine ⟨nonneg, items, ?_, known⟩
  rw [isMore, List.getElem?_append_left (List.getElem?_eq_some_iff.mp isRecord).1]
  exact isRecord

/-- An id that a delta does not name has not changed since. -/
theorem changedAt_le_of_untold {since : Int} (id : String) (marked : s.reset ≤ since)
    (item : ∀ item, s.items[id]? = some item → item.revision ≤ since)
    (tombstone : ∀ revision, s.removed[id]? = some revision → revision ≤ since) :
    s.changedAt id ≤ since := by
  unfold changedAt
  split
  next item' found => exact item item' found
  next =>
    cases found : s.removed[id]? with
    | none => exact marked
    | some revision => exact tombstone revision found

theorem getElem?_apply (client : Client) (delta : Delta) (id : String) :
    (client.apply delta).items[id]? =
      if id ∈ delta.removed then none
      else (delta.items[id]?).or (if delta.reset then none else client.items[id]?) := by
  simp only [Client.apply]
  rw [getElem?_foldl_erase, TreeMap.getElem?_union]
  congr 2
  split
  · exact TreeMap.getElem?_emptyc
  · rfl

theorem view_apply (sound : s.Sound target_arch) {client : Client}
    (knows : s.Knows target_arch client) {delta : Delta} (told : s.delta client.seq = some delta) :
    delta.seq = s.seq ∧
      ∀ id, view target_arch (client.apply delta).items id = view target_arch s.items id := by
  obtain ⟨nonneg, items, isRecord, known⟩ := knows
  unfold State.delta at told
  split at told
  · cases told
  dsimp only at told
  split at told
  · cases told
  cases told
  refine ⟨rfl, fun id => ?_⟩
  unfold view
  rw [getElem?_apply]
  dsimp only
  rw [getElem?_filter]
  cases isReset : decide (client.seq ≤ 0) || decide (client.seq < s.reset) with
  | true =>
    simp only [Bool.true_or, if_true, List.not_mem_nil, if_false, Option.or_none]
    cases s.items[id]? <;> rfl
  | false =>
    simp only [Bool.false_eq_true, if_false, Bool.false_or]
    rw [Bool.or_eq_false_iff, decide_eq_false_iff_not, decide_eq_false_iff_not] at isReset
    have unchanged : s.changedAt id ≤ client.seq →
        view target_arch client.items id = view target_arch s.items id := by
      intro early
      refine (known id).trans (sound.unchanged _ _ isRecord id ?_)
      omega
    have tombstone : id ∈ (s.removed.filter fun _ revision => decide (revision > client.seq)).keys ↔
        ∃ revision, s.removed[id]? = some revision ∧ revision > client.seq := by
      rw [mem_keys_iff, getElem?_filter, Option.isSome_iff_exists]
      simp only [Option.filter_eq_some_iff, decide_eq_true_eq]
    split
    next isTold =>
      obtain ⟨revision, found, -⟩ := tombstone.mp isTold
      cases present : s.items[id]? with
      | none => rfl
      | some item =>
        rw [sound.apart id (by rw [present]; rfl)] at found
        cases found
    next untold =>
      have early (revision : Int) (found : s.removed[id]? = some revision) :
          revision ≤ client.seq :=
        Int.not_lt.mp fun late => untold (tombstone.mpr ⟨revision, found, late⟩)
      cases present : s.items[id]? with
      | none =>
        have same := unchanged (changedAt_le_of_untold id (Int.not_lt.mp isReset.2)
          (fun item found => by rw [present] at found; cases found) early)
        rw [view, view, present] at same
        exact same
      | some item =>
        rw [Option.filter_some]
        by_cases late : item.revision > client.seq
        · rw [if_pos (decide_eq_true late)]
          rfl
        · have same := unchanged (changedAt_le_of_untold id (Int.not_lt.mp isReset.2)
            (fun other found => by
              rw [← Option.some.inj (present.symm.trans found)]
              exact Int.not_lt.mp late) early)
          rw [view, view, present] at same
          rw [if_neg (by rw [decide_eq_true_eq]; exact late)]
          exact same

end State
end LosslessMusic.Progress
