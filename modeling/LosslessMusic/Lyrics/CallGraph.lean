import LosslessMusic.Storage.Table
import LosslessMusic.Waiting.WaitGraph

/-!
# The calls of lyrics lookups

`CallGraph` of the lyrics service: who waits for whom among the nodes of the flights and of the
extensions, as counted edges behind a lock. A wait that would close a cycle is refused.
-/

namespace LosslessMusic.Lyrics.Calls

open Storage Waiting Relation

/-- The last `u64`. -/
def u64Max : Nat :=
  2 ^ 64 - 1

/-- What a call fails with. -/
inductive Fault
  | refused (message : String)
  | panicked (message : String)
  deriving DecidableEq

/-- The counts of the targets of each caller. The order of the keys makes no difference here. -/
abbrev Edges := Table Nat (Table Nat Nat)

namespace Edges

/-- The count of an edge. -/
def count? (edges : Edges) (caller target : Nat) : Option Nat :=
  (edges.get? caller).bind (·.get? target)

/-- There is such an edge. -/
def HasEdge (edges : Edges) (caller target : Nat) : Prop :=
  (edges.count? caller target).isSome = true

/-- The edges of the nodes that are not visited yet. -/
def unvisited (edges : Edges) (visited : List Nat) : Nat :=
  edges.total fun id targets => if id ∈ visited then 0 else targets.size

variable {edges : Edges} {caller target id : Nat} {visited : List Nat}

theorem hasEdge_iff : edges.HasEdge caller target ↔
    ∃ targets, edges.get? caller = some targets ∧ target ∈ targets.entries.map Prod.fst := by
  unfold HasEdge count?
  cases edges.get? caller with
  | none => simp
  | some targets =>
    rw [Option.bind_some, Option.isSome_iff_exists]
    simp [Table.get?_eq_some_iff]

theorem unvisited_of_none (absent : edges.get? id = none) :
    edges.unvisited (id :: visited) = edges.unvisited visited := by
  refine Table.total_congr fun key targets found => ?_
  have different : key ≠ id := by
    rintro rfl
    rw [absent] at found
    cases found
  simp only [List.mem_cons, different, false_or]

theorem unvisited_of_some {targets : Table Nat Nat} (found : edges.get? id = some targets)
    (fresh : id ∉ visited) :
    edges.unvisited (id :: visited) + targets.size = edges.unvisited visited := by
  have before := Table.total_erase_of_some
    (fun id (targets : Table Nat Nat) => if id ∈ visited then 0 else targets.size) found
  have after := Table.total_erase_of_some
    (fun key (targets : Table Nat Nat) => if key ∈ id :: visited then 0 else targets.size) found
  have others : unvisited (edges.erase id) (id :: visited) = unvisited (edges.erase id) visited :=
    unvisited_of_none (by rw [Table.get?_erase, if_pos rfl])
  unfold unvisited at others ⊢
  rw [if_neg fresh] at before
  rw [if_pos List.mem_cons_self] at after
  omega

/-- The search of `wait_for` for the caller, with the top of the stack first. -/
def reaches (edges : Edges) (caller : Nat) (pending visited : List Nat) : Bool :=
  match pending with
  | [] => false
  | id :: pending =>
    if id = caller then true
    else if _fresh : id ∈ visited then reaches edges caller pending visited
    else
      match _found : edges.get? id with
      | none => reaches edges caller pending (id :: visited)
      | some targets =>
        reaches edges caller ((targets.entries.map Prod.fst).reverse ++ pending) (id :: visited)
termination_by edges.unvisited visited + pending.length
decreasing_by
  · exact Nat.lt_succ_self _
  · rw [unvisited_of_none _found]
    exact Nat.lt_succ_self _
  · rw [← unvisited_of_some _found _fresh]
    simp only [List.length_append, List.length_reverse, List.length_map, List.length_cons,
      Table.size]
    omega

theorem reflTransGen_of_reaches {pending : List Nat}
    (reached : edges.reaches caller pending visited = true) :
    ∃ id ∈ pending, ReflTransGen edges.HasEdge id caller := by
  fun_induction reaches edges caller pending visited with
  | case1 => cases reached
  | case2 => exact ⟨_, List.mem_cons_self, .refl⟩
  | case3 _ _ _ _ _ ih | case4 _ _ _ _ _ _ ih =>
    obtain ⟨other, member, way⟩ := ih reached
    exact ⟨other, List.mem_cons_of_mem _ member, way⟩
  | case5 visited id pending _ _ targets found ih =>
    obtain ⟨other, member, way⟩ := ih reached
    rcases List.mem_append.mp member with next | later
    · have edge := hasEdge_iff.mpr ⟨targets, found, List.mem_reverse.mp next⟩
      exact ⟨id, List.mem_cons_self, .head edge way⟩
    · exact ⟨other, List.mem_cons_of_mem _ later, way⟩

/-- What the search has visited is not the caller and leads only to what it has visited or is
about to visit. -/
def Frontier (edges : Edges) (caller : Nat) (pending visited : List Nat) : Prop :=
  ∀ id ∈ visited, id ≠ caller ∧
    ∀ next, edges.HasEdge id next → next ∈ visited ∨ next ∈ pending

theorem Frontier.moves {pending later seen : List Nat}
    (frontier : edges.Frontier caller pending visited)
    (known : ∀ id, id ∈ visited ∨ id ∈ pending → id ∈ seen ∨ id ∈ later)
    (fresh : ∀ id ∈ seen, id ∉ visited → id ≠ caller ∧
      ∀ next, edges.HasEdge id next → next ∈ seen ∨ next ∈ later) :
    edges.Frontier caller later seen := by
  intro id inside
  by_cases old : id ∈ visited
  · exact ⟨(frontier id old).1, fun next edge => known next ((frontier id old).2 next edge)⟩
  · exact fresh id inside old

theorem not_reflTransGen_of_reaches {pending : List Nat}
    (missed : edges.reaches caller pending visited = false)
    (frontier : edges.Frontier caller pending visited)
    (member : id ∈ visited ∨ id ∈ pending) : ¬ReflTransGen edges.HasEdge id caller := by
  fun_induction reaches edges caller pending visited with
  | case1 visited =>
    refine not_reaches_of_closed (· ∈ visited) (by simpa using member) ?_
    simpa [Frontier] using frontier
  | case2 => cases missed
  | case3 visited top pending _ seen ih =>
    have known : ∀ id, id ∈ visited ∨ id ∈ top :: pending → id ∈ visited ∨ id ∈ pending := by
      rintro id (inside | waits)
      · exact .inl inside
      · rcases List.mem_cons.mp waits with rfl | later
        · exact .inl seen
        · exact .inr later
    exact ih missed (frontier.moves known fun _ inside out => absurd inside out) (known _ member)
  | case4 visited top pending other _ absent ih =>
    have known : ∀ id, id ∈ visited ∨ id ∈ top :: pending → id ∈ top :: visited ∨ id ∈ pending := by
      simp only [List.mem_cons]
      tauto
    refine ih missed (frontier.moves known fun id inside out => ?_) (known _ member)
    rw [(List.mem_cons.mp inside).resolve_right out]
    refine ⟨other, fun next edge => ?_⟩
    obtain ⟨targets, found, _⟩ := hasEdge_iff.mp edge
    rw [absent] at found
    cases found
  | case5 visited top pending other _ targets found ih =>
    have known : ∀ id, id ∈ visited ∨ id ∈ top :: pending →
        id ∈ top :: visited ∨ id ∈ (targets.entries.map Prod.fst).reverse ++ pending := by
      simp only [List.mem_cons, List.mem_append]
      tauto
    refine ih missed (frontier.moves known fun id inside out => ?_) (known _ member)
    rw [(List.mem_cons.mp inside).resolve_right out]
    refine ⟨other, fun next edge => .inr (List.mem_append_left _ ?_)⟩
    obtain ⟨same, isTargets, there⟩ := hasEdge_iff.mp edge
    rw [found] at isTargets
    cases isTargets
    exact List.mem_reverse.mpr there

theorem reaches_iff :
    edges.reaches caller [target] [] = true ↔ ReflTransGen edges.HasEdge target caller := by
  constructor
  · intro reached
    obtain ⟨id, member, way⟩ := reflTransGen_of_reaches reached
    rwa [List.mem_singleton.mp member] at way
  · intro way
    by_contra missed
    exact not_reflTransGen_of_reaches (Bool.eq_false_iff.mpr missed) nofun
      (.inr (List.mem_singleton_self target)) way

/-! ## The edges stand for the waits -/

/-- Each edge has the count of its waits, and no caller is kept without one. -/
structure Represents (edges : Edges) (waits : WaitGraph Nat) : Prop where
  exact : ∀ caller target, edges.count? caller target =
    if waits.count caller target = 0 then none else some (waits.count caller target)
  full : ∀ caller targets, edges.get? caller = some targets → targets.size ≠ 0

/-- The targets of a caller are replaced, and with none left it is taken out. -/
def setTargets (edges : Edges) (caller : Nat) (targets : Table Nat Nat) : Edges :=
  if targets.size = 0 then edges.erase caller else edges.put caller targets

theorem setTargets_of_size (caller : Nat) {targets : Table Nat Nat} (some : targets.size ≠ 0) :
    edges.setTargets caller targets = edges.put caller targets :=
  if_neg some

theorem get?_setTargets (targets : Table Nat Nat) (source : Nat) :
    (edges.setTargets caller targets).get? source =
      if caller = source then if targets.size = 0 then none else some targets
      else edges.get? source := by
  unfold setTargets
  split
  · exact Table.get?_erase
  · exact Table.get?_put

theorem get?_of_size {targets : Table Nat Nat} (empty : targets.size = 0) (other : Nat) :
    targets.get? other = none := by
  unfold Table.get?
  rw [List.length_eq_zero_iff.mp empty]
  rfl

variable {waits : WaitGraph Nat}

theorem represents_empty : Represents {} .empty :=
  ⟨fun _ _ => rfl, nofun⟩

theorem Represents.hasEdge (represents : edges.Represents waits) :
    edges.HasEdge = waits.Waits := by
  funext source other
  unfold HasEdge WaitGraph.Waits
  rw [represents.exact, eq_iff_iff]
  split
  next none => simp [none]
  next some => simp [Nat.pos_of_ne_zero some]

theorem Represents.setTargets (represents : edges.Represents waits) {targets : Table Nat Nat}
    {after : WaitGraph Nat}
    (row : ∀ other, targets.get? other =
      if after.count caller other = 0 then none else some (after.count caller other))
    (others : ∀ source, source ≠ caller → after.count source = waits.count source) :
    (edges.setTargets caller targets).Represents after where
  exact source other := by
    unfold count?
    rw [get?_setTargets]
    split
    next same =>
      subst same
      rw [← row]
      split
      next empty => exact (get?_of_size empty other).symm
      · rfl
    next different =>
      rw [others source (Ne.symm different)]
      exact represents.exact source other
  full source targets found := by
    rw [get?_setTargets] at found
    split at found
    · split at found
      · cases found
      next some =>
        cases found
        exact some
    · exact represents.full source targets found

end Edges

structure State where
  next : Nat := 0
  edges : Edges := {}

namespace State

/-- The critical section of `CallGraph::node`. -/
def node (state : State) : Except Fault (Nat × State) :=
  if state.next = u64Max then .error (.panicked "lyrics node IDs exhausted")
  else .ok (state.next, { state with next := state.next + 1 })

/-- The critical section of `CallNode::wait_for`. -/
def waitFor (isizeMax caller target : Nat) (state : State) : Except Fault (Unit × State) :=
  if state.edges.reaches caller [target] [] then
    .error (.refused "recursive lyrics call would deadlock")
  else
    let targets := (state.edges.get? caller).getD {}
    -- The sum wraps at the end of `usize`.
    let count := ((targets.get? target).getD 0 + 1) % (2 * isizeMax + 2)
    .ok ((), { state with edges := state.edges.put caller (targets.put target count) })

/-- The critical section of `CallWait::drop`. -/
def drop (isizeMax caller target : Nat) (state : State) : Except Fault (Unit × State) :=
  match state.edges.get? caller with
  | none => .error (.panicked "caller edge")
  | some targets =>
    match targets.get? target with
    | none => .error (.panicked "target edge")
    | some count =>
      -- The difference wraps below none.
      let count := if count = 0 then 2 * isizeMax + 1 else count - 1
      let targets := if count = 0 then targets.erase target else targets.put target count
      .ok ((), { state with edges := state.edges.setTargets caller targets })

variable {state : State} {waits : WaitGraph Nat}

/-- A wait is refused exactly when it would close a cycle, and counted otherwise. -/
theorem waitFor_spec (isizeMax caller target : Nat) (represents : state.edges.Represents waits) :
    waits.Closes caller target ∧ state.waitFor isizeMax caller target =
        .error (.refused "recursive lyrics call would deadlock") ∨
      ∃ (fits : ¬waits.Closes caller target) (edges : Edges),
        state.waitFor isizeMax caller target = .ok ((), { state with edges }) ∧
          (waits.count caller target ≤ isizeMax →
            edges.Represents (waits.begin caller target fits)) := by
  have search : state.edges.reaches caller [target] [] = true ↔ waits.Closes caller target := by
    rw [Edges.reaches_iff, represents.hasEdge, waits.closes_iff]
  unfold waitFor
  by_cases closes : waits.Closes caller target
  · exact .inl ⟨closes, if_pos (search.mpr closes)⟩
  · refine .inr ⟨closes, _, if_neg (mt search.mp closes), fun few => ?_⟩
    have row : ∀ other, ((state.edges.get? caller).getD {}).get? other =
        if waits.count caller other = 0 then none else some (waits.count caller other) := by
      intro other
      rw [← represents.exact]
      unfold Edges.count?
      cases state.edges.get? caller <;> rfl
    have counted : (((state.edges.get? caller).getD {}).get? target).getD 0 =
        waits.count caller target := by
      rw [row]
      split
      next none => exact none.symm
      · rfl
    rw [counted, Nat.mod_eq_of_lt (by omega)]
    have some : (((state.edges.get? caller).getD {}).put target
        (waits.count caller target + 1)).size ≠ 0 := by
      intro empty
      have absent := Edges.get?_of_size empty target
      rw [Table.get?_put, if_pos rfl] at absent
      cases absent
    rw [← Edges.setTargets_of_size caller some]
    refine represents.setTargets (fun other => ?_) fun source different => ?_
    · rw [Table.get?_put]
      split
      next same =>
        rw [← same, WaitGraph.begin_count_self, if_neg (Nat.succ_ne_zero _)]
      next different => rw [row, WaitGraph.begin_count_other _ fun both => different both.2.symm]
    · funext other
      exact WaitGraph.begin_count_other _ fun both => different both.1

/-- The last wait of an edge takes it away, and nothing is missing. -/
theorem drop_spec (isizeMax : Nat) {caller target : Nat}
    (represents : state.edges.Represents waits) (waiting : waits.Waits caller target) :
    ∃ edges : Edges, state.drop isizeMax caller target = .ok ((), { state with edges }) ∧
      edges.Represents (waits.finish caller target) := by
  obtain ⟨count, counted⟩ := Nat.exists_eq_succ_of_ne_zero (Nat.ne_of_gt waiting)
  have exact := represents.exact caller target
  rw [counted, if_neg (Nat.succ_ne_zero _)] at exact
  obtain ⟨targets, found, here⟩ := Option.bind_eq_some_iff.mp exact
  unfold drop
  rw [found]
  dsimp only
  rw [here]
  dsimp only
  rw [if_neg (Nat.succ_ne_zero count), Nat.succ_sub_one]
  refine ⟨_, rfl, represents.setTargets (fun other => ?_) fun source different => ?_⟩
  · have old := represents.exact caller other
    unfold Edges.count? at old
    rw [found, Option.bind_some] at old
    by_cases same : target = other
    · rw [← same, WaitGraph.finish_count_self, counted, Nat.succ_sub_one]
      split
      · rw [Table.get?_erase, if_pos rfl]
      · rw [Table.get?_put, if_pos rfl]
    · rw [WaitGraph.finish_count_other fun both => same both.2.symm, ← old]
      split
      · rw [Table.get?_erase, if_neg same]
      · rw [Table.get?_put, if_neg same]
  · funext other
    exact WaitGraph.finish_count_other fun both => different both.1

end State
end LosslessMusic.Lyrics.Calls
