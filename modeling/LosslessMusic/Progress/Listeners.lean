import LosslessMusic.Progress.Deltas

/-!
# What listeners of the progress know

As long as the revisions do not run over, every listener has the items as of the revision it
knows, a delta brings it up to date, and what it can see of a change has a later revision.
-/

namespace LosslessMusic.Progress

open Std (TreeMap)
open Transition (Machine)

variable {target_arch : TargetArch}

namespace System

variable {s : System}

/-- What holds of the registry and those who listen to it. -/
structure Sound (target_arch : TargetArch) (s : System) : Prop where
  begun : s.state.record[0]? = some ∅
  sound : s.state.closed = false → s.state.Sound target_arch
  known : ∀ client ∈ s.clients, s.state.Knows target_arch client

theorem Sound.recorded (sound : s.Sound target_arch) : s.state.record ≠ [] := by
  intro empty
  have begun := sound.begun
  rw [empty] at begun
  cases begun

theorem sound_new : Sound target_arch {} where
  begun := rfl
  sound _ := State.sound_new
  known := nofun

variable {event : Event} {next : System}

/-- The states of the registry on a way record more and more. -/
theorem recorded_step
    (stepped : s.step target_arch event = some next) : State.Recorded s.state next.state := by
  have changed (operation : State → State)
      (recorded : ∀ state, State.Recorded state (operation state)) :
      State.Recorded s.state (s.change operation).state := by
    unfold change
    split
    · exact .refl _
    · exact recorded _
  cases event with
  | start id => exact Option.some.inj stepped ▸ changed _ fun state => ⟨_, rfl⟩
  | update id update =>
    exact Option.some.inj stepped ▸ changed _ fun state => state.recorded_update id update
  | remove id =>
    exact Option.some.inj stepped ▸ changed _ fun state => state.recorded_removeMany [id]
  | removeMany ids =>
    exact Option.some.inj stepped ▸ changed _ fun state => state.recorded_removeMany ids
  | shutdown => exact Option.some.inj stepped ▸ ⟨[], (List.append_nil _).symm⟩
  | connect => exact Option.some.inj stepped ▸ .refl _
  | poll position =>
    obtain ⟨client, -, rfl⟩ := Option.map_eq_some_iff.mp stepped
    exact .refl _

theorem advances_step (sound : s.Sound target_arch)
    (stepped : s.step target_arch event = some next) (opened : next.state.closed = false)
    (few : next.state.record.length ≤ 2 ^ 63) : State.Advances target_arch s.state next.state := by
  have changed (operation : State → State) (isNext : s.change operation = next)
      (advances : s.state.Sound target_arch → (operation s.state).record.length ≤ 2 ^ 63 →
        State.Advances target_arch s.state (operation s.state)) :
      State.Advances target_arch s.state next.state := by
    subst isNext
    unfold change at opened few ⊢
    split at opened
    next shut =>
      rw [shut] at opened
      cases opened
    next going =>
      rw [Bool.not_eq_true] at going
      rw [if_neg (by simp [going])] at few ⊢
      exact advances (sound.sound going) few
  have same (isState : next.state = s.state) : State.Advances target_arch s.state next.state := by
    rw [isState] at opened ⊢
    exact .refl (sound.sound opened)
  cases event with
  | start id =>
    exact changed (·.start id) (Option.some.inj stepped) fun sound' few =>
      State.advances_start sound' sound.recorded id few
  | update id update =>
    exact changed (·.update target_arch id update) (Option.some.inj stepped) fun sound' few =>
      State.advances_update sound' sound.recorded id update few
  | remove id =>
    exact changed (·.removeMany [id]) (Option.some.inj stepped) fun sound' few =>
      State.advances_removeMany [id] sound' sound.recorded few
  | removeMany ids =>
    exact changed (·.removeMany ids) (Option.some.inj stepped) fun sound' few =>
      State.advances_removeMany ids sound' sound.recorded few
  | shutdown =>
    cases stepped
    cases opened
  | connect => exact same (Option.some.inj stepped ▸ rfl)
  | poll position =>
    obtain ⟨client, -, rfl⟩ := Option.map_eq_some_iff.mp stepped
    exact same rfl

variable {client : Client}

theorem knows_poll {state : State} (opened : state.closed = false → state.Sound target_arch)
    (recorded : state.record ≠ []) (knows : state.Knows target_arch client) :
    state.Knows target_arch (client.poll state) := by
  unfold Client.poll
  split
  · exact knows
  next going =>
    split
    · exact knows
    next delta told =>
      have sound := opened (by simpa using going)
      obtain ⟨isSeq, known⟩ := State.view_apply sound knows told
      obtain ⟨items, isRecord, current⟩ := sound.recorded recorded
      have isSeq : (client.apply delta).seq = state.seq := isSeq
      refine ⟨?_, items, ?_, fun id => (known id).trans (current id).symm⟩
      · rw [isSeq]
        exact sound.seq_nonneg recorded
      · rw [isSeq]
        exact isRecord

theorem sound_step (sound : s.Sound target_arch) (stepped : s.step target_arch event = some next)
    (few : next.state.record.length ≤ 2 ^ 63) : next.Sound target_arch := by
  have recorded := recorded_step stepped
  refine ⟨?_, fun opened => (advances_step sound stepped opened few).sound, ?_⟩
  · obtain ⟨more, isMore⟩ := recorded
    rw [isMore, List.getElem?_append_left (List.getElem?_eq_some_iff.mp sound.begun).1]
    exact sound.begun
  · have later (client : Client) (member : client ∈ s.clients) :
        next.state.Knows target_arch client := (sound.known client member).later recorded
    have unchanged (operation : State → State) : (s.change operation).clients = s.clients := by
      unfold change
      split <;> rfl
    cases event with
    | start _ | update _ _ | remove _ | removeMany _ =>
      rw [← Option.some.inj stepped, unchanged]
      exact Option.some.inj stepped ▸ later
    | shutdown => exact Option.some.inj stepped ▸ later
    | connect =>
      cases stepped
      intro client member
      rcases List.mem_append.mp member with old | new
      · exact later client old
      · rw [List.mem_singleton.mp new]
        exact ⟨Int.le_refl _, ∅, sound.begun, fun _ => rfl⟩
    | poll position =>
      obtain ⟨client, isClient, rfl⟩ := Option.map_eq_some_iff.mp stepped
      intro other member
      rcases List.mem_or_eq_of_mem_set member with old | rfl
      · exact later other old
      · exact knows_poll sound.sound sound.recorded
          (sound.known client (List.mem_of_getElem? isClient))

theorem sound_of_reachable (reachable : (machine target_arch).Reachable Machine.anyStep s)
    (few : s.state.record.length ≤ 2 ^ 63) : s.Sound target_arch := by
  refine reachable.invariant (motive := fun (s : System) =>
    s.state.record.length ≤ 2 ^ 63 → s.Sound target_arch) ?_ ?_ few
  · rintro state rfl _
    exact sound_new
  · intro state event next _ holds _ stepped few
    have before := (recorded_step stepped).length_le
    exact sound_step (holds (Nat.le_trans before few)) stepped few

/-- What listeners are promised. -/
structure Promised (target_arch : TargetArch) (s : System) : Prop where
  /-- A listener has the items as of its revision. -/
  known : ∀ client ∈ s.clients, s.state.Knows target_arch client
  /-- A delta leads to the items that there are. -/
  told : s.state.closed = false → ∀ client ∈ s.clients, ∀ delta,
    s.state.delta client.seq = some delta → (client.apply delta).seq = s.state.seq ∧
      ∀ id, view target_arch (client.apply delta).items id = view target_arch s.state.items id
  /-- Who knows the last revision has missed nothing. -/
  current : s.state.closed = false → ∀ client ∈ s.clients, client.seq = s.state.seq →
    ∀ id, view target_arch client.items id = view target_arch s.state.items id
  /-- With finite numbers, one poll is enough. -/
  reached : s.state.closed = false → (∀ (id : String) (item : ItemProgress),
      s.state.items[id]? = some item → item.finite = true) →
    ∀ client ∈ s.clients, (client.poll s.state).seq = s.state.seq
  /-- What can be seen has a later revision. -/
  ordered : ∀ event next, s.step target_arch event = some next → next.state.closed = false →
    next.state.record.length ≤ 2 ^ 63 → s.state.seq ≤ next.state.seq ∧
      ((∃ id, view target_arch next.state.items id ≠ view target_arch s.state.items id) →
        s.state.seq < next.state.seq)

theorem Sound.current (sound : s.Sound target_arch) (opened : s.state.closed = false)
    (member : client ∈ s.clients) (last : client.seq = s.state.seq)
    (id : String) : view target_arch client.items id = view target_arch s.state.items id := by
  obtain ⟨-, items, isRecord, known⟩ := sound.known client member
  obtain ⟨present, isPresent, current⟩ := (sound.sound opened).recorded sound.recorded
  rw [last] at isRecord
  obtain rfl := Option.some.inj (isRecord.symm.trans isPresent)
  exact (known id).trans (current id)

theorem Sound.reached (sound : s.Sound target_arch) (opened : s.state.closed = false)
    (finite : ∀ (id : String) (item : ItemProgress), s.state.items[id]? = some item →
      item.finite = true)
    (member : client ∈ s.clients) : (client.poll s.state).seq = s.state.seq := by
  unfold Client.poll
  rw [if_neg (by simp [opened])]
  split
  next untold =>
    obtain ⟨nonneg, items, isRecord, -⟩ := sound.known client member
    have inside := (List.getElem?_eq_some_iff.mp isRecord).1
    have counted := (sound.sound opened).counted
    unfold State.delta at untold
    split at untold
    · omega
    dsimp only at untold
    split at untold
    next odd =>
      obtain ⟨⟨id, item⟩, isTold, isOdd⟩ := List.any_eq_true.mp odd
      have found := TreeMap.mem_toList_iff_getElem?_eq_some.mp isTold
      rw [getElem?_filter] at found
      simp [finite id item (Option.filter_eq_some_iff.mp found).1] at isOdd
    · cases untold
  next delta told =>
    exact (State.view_apply (sound.sound opened) (sound.known client member) told).1

/-- Every listener is told the changes, as long as there were fewer than `2 ^ 63`. -/
theorem deltas_promised (reachable : (machine target_arch).Reachable Machine.anyStep s)
    (few : s.state.record.length ≤ 2 ^ 63) : Promised target_arch s := by
  have sound := sound_of_reachable reachable few
  refine
    { known := sound.known
      told := fun opened client member delta told =>
        State.view_apply (sound.sound opened) (sound.known client member) told
      current := fun opened client member last id => sound.current opened member last id
      reached := fun opened finite client member => sound.reached opened finite member
      ordered := fun event next stepped opened few => ?_ }
  have advances := advances_step sound stepped opened few
  refine ⟨advances.ordered, fun ⟨id, different⟩ => ?_⟩
  exact Int.lt_iff_le_and_ne.mpr
    ⟨advances.ordered, fun same => different (advances.silent same.symm id)⟩

/-- A listener that joined before the first item. -/
theorem deltas_promised_started : ∃ s : System, Promised .other s ∧ s.clients ≠ [] ∧
    ∃ id : String, (s.state.items[id]?).isSome = true := by
  refine ⟨_, deltas_promised (s := { state := State.start {} "a", clients := [{}] })
    ⟨{}, rfl, .step (.start "a") (.step .connect .refl trivial rfl) trivial rfl⟩ ?_, ?_, "a", ?_⟩
  · decide
  · exact List.cons_ne_nil _ _
  · exact congrArg Option.isSome ((getElem?_insert _ _ _ _).trans (if_pos rfl))

/-! ## Revisions that run over -/

theorem started (n : Nat) (few : n + 1 < 2 ^ 63) :
    ∃ s : System, (machine .other).Reachable Machine.anyStep s ∧ s.state.closed = false ∧
      s.state.seq = n + 1 ∧ (s.state.items["a"]?).isSome = true := by
  have next (s : System) (reachable : (machine .other).Reachable Machine.anyStep s)
      (opened : s.state.closed = false) {m : Nat} (isSeq : s.state.seq = m) (few : m + 1 < 2 ^ 63) :
      ∃ s : System, (machine .other).Reachable Machine.anyStep s ∧ s.state.closed = false ∧
        s.state.seq = m + 1 ∧ (s.state.items["a"]?).isSome = true := by
    have stepped : (machine .other).step s (.start "a") =
        some { s with state := s.state.start "a" } := by
      show some (s.change _) = _
      rw [change, if_neg (by simp [opened])]
    refine ⟨_, reachable.extend (.step _ .refl trivial stepped), opened, ?_, ?_⟩
    · show wrappingSucc s.state.seq = _
      rw [isSeq, State.wrappingSucc_eq (by omega) (by omega)]
    · exact congrArg Option.isSome ((getElem?_insert _ _ _ _).trans (if_pos rfl))
  induction n with
  | zero => exact next {} ⟨{}, rfl, .refl⟩ rfl rfl (by omega)
  | succ n ih =>
    obtain ⟨s, reachable, opened, isSeq, -⟩ := ih (by omega)
    exact next s reachable opened (m := n + 1) (by omega) few

/-- After the greatest revision comes the least. -/
theorem revisions_run_over : ¬∀ s : System, (machine .other).Reachable Machine.anyStep s →
    ∀ event next, s.step .other event = some next → next.state.closed = false →
      (∃ id, view .other next.state.items id ≠ view .other s.state.items id) →
      s.state.seq < next.state.seq := by
  intro increasing
  obtain ⟨s, reachable, opened, isSeq, present⟩ := started (2 ^ 63 - 2) (by omega)
  have removed : (s.state.removeOne "a").seq = wrappingSucc s.state.seq ∧
      (s.state.removeOne "a").items = s.state.items.erase "a" ∧
      (s.state.removeOne "a").closed = s.state.closed := by
    rw [State.removeOne, if_pos (TreeMap.contains_eq_isSome_getElem?.trans present)]
    dsimp only
    split <;> exact ⟨rfl, rfl, rfl⟩
  have stepped : s.step .other (.remove "a") = some { s with state := s.state.removeOne "a" } := by
    show some (s.change _) = _
    rw [change, if_neg (by simp [opened])]
    rfl
  have later := increasing s reachable _ _ stepped (removed.2.2.trans opened) ⟨"a", ?_⟩
  · rw [show wrappingSucc s.state.seq = _ from congrArg wrappingSucc isSeq] at removed
    have least : wrappingSucc ((2 ^ 63 - 2 : Nat) + 1) = -2 ^ 63 := by decide
    change s.state.seq < (s.state.removeOne "a").seq at later
    omega
  · show view .other (s.state.removeOne "a").items "a" ≠ view .other s.state.items "a"
    obtain ⟨item, found⟩ := Option.isSome_iff_exists.mp present
    rw [removed.2.1, view, getElem?_erase, if_pos rfl, view, found]
    exact (Option.some_ne_none _).symm

end System
end LosslessMusic.Progress
